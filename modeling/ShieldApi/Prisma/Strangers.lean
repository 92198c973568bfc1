import ShieldApi.Auth.GrantCache
import ShieldApi.Auth.GrantSources
import ShieldApi.Prisma.Bypass
import ShieldApi.Prisma.TenantIsolation

/-!
# Requests of strangers

From the bearer token to the row. Somebody who has no access row at a client, no `SYSTEM` role
anywhere and no place among the bootstrap admins is a stranger there. Whatever such people send,
to whatever endpoint, and whatever the handlers then ask of the client `PrismaService.build` gave
them, no row of the client is written and none that it has not released is learned of:
`strangers_apart`.

Three layers meet here and each is used through one fact. The grant that is resolved is at a client
of the user's own and not a `SYSTEM` one (`granted_stranger`); with such a grant the request client
sets the row context and never the bypass (`session_stranger`); a row context of another client
confines the session (`confined_elsewhere`).
-/

set_option autoImplicit false

namespace ShieldApi

open RowSecurity

/-! ## 1. The grant -/

/-- The user has nothing at the client `c` and nothing that reaches over clients. -/
structure Db.Stranger (cfg : Config) (db : Db) (user : StatelessUser) (c : String) : Prop where
  notAdmin : AuthService.userIsDefaultSystemAdmin cfg user = false
  rows : ∀ a ∈ db.accesses, db.hasIdpId user.idpId a = true →
    a.clientId ≠ c ∧ db.hasSystemRole a = false

/-- The grant is for another client and does not reach over clients. -/
structure AccessGrant.Apart (g : AccessGrant) (c : String) : Prop where
  elsewhere : g.clientId ≠ c
  notSystem : g.scope ≠ .system

section
variable {cfg : Config} {env : Env} {user : StatelessUser} {ctx : AccessContext} {db : Db}
  {c : String} {g : AccessGrant}

theorem Db.Stranger.record (h : db.Stranger cfg user c) {r : AccessRecord}
    (hr : db.IsRecordOf user r) : r.client.id ≠ c ∧ r.role.scope ≠ .system := by
  obtain ⟨a, ha, hid, hrecord⟩ := hr
  obtain ⟨helse, hsys⟩ := h.rows a ha hid
  have hrole : db.roles.find? a.roleId = some r.role :=
    Table.find?_eq_some.mpr ⟨accessRecord_role hrecord, (accessRecord_spec hrecord).2.2.2⟩
  refine ⟨(accessRecord_spec hrecord).2.1 ▸ helse, fun hscope => ?_⟩
  rw [Db.hasSystemRole, hrole, Option.any_some, AuthService.contains_system.mpr hscope] at hsys
  exact absurd hsys (by decide)

/-- **What a stranger can be granted.** -/
theorem granted_stranger (h : db.Stranger cfg user c)
    (hg : AuthService.getAccessGrantForUserFromDatabase cfg env user ctx db = .ok (.granted g)) :
    g.Apart c := by
  have hadmin : ¬ AuthService.userIsDefaultSystemAdmin cfg user = true := by
    rw [h.notAdmin]
    decide
  cases AuthService.granted_iff.mp hg with
  | systemRole _ hgrant =>
    obtain ⟨-, role, hrole, -⟩ := AuthService.systemGrant_eq_some.mp hgrant
    obtain ⟨a, ha, hid, hsys⟩ :=
      AuthService.exists_row_of_held (List.ne_nil_of_mem (List.argmax_mem hrole))
    rw [(h.rows a ha hid).2] at hsys
    exact absurd hsys (by decide)
  | rows _ hne hgrant =>
    obtain ⟨result, hresult, hspec⟩ := AuthService.validateAndBuild_spec hne ctx
    rw [hresult] at hgrant
    obtain ⟨⟨r, hr, hplace⟩, -⟩ := hspec g (Except.ok.inj hgrant)
    obtain ⟨helse, hscope⟩ :=
      h.record (mem_accessRecordsOf.mp (AuthService.selectedRecords_subset r hr))
    exact ⟨fun heq => helse (hplace.1.symm.trans heq),
      fun heq => hscope (hplace.2.2.2.symm.trans heq)⟩
  | requestedBootstrap _ _ _ hboot => exact absurd hboot hadmin
  | defaultBootstrap _ _ _ hboot => exact absurd hboot hadmin

end

/-! ## 2. The request and its session -/

/-- The session the queries of the extension run in; without a context they throw. -/
def PrimaryExtension.session (px : PrimaryExtension) : Option DbSession :=
  if px.bypassRLS then some .bypass else px.rlsContext.map .request

theorem PrimaryExtension.settings_session (px : PrimaryExtension) {s : DbSession}
    (h : px.session = some s) : px.settings = .ok s.settings := by
  unfold PrimaryExtension.session at h
  unfold PrimaryExtension.settings buildRLSContextStatements
  split_ifs at h ⊢ with hbypass
  · obtain rfl := Option.some.inj h
    rfl
  · obtain ⟨ctx, hctx, rfl⟩ := Option.map_eq_some_iff.mp h
    rw [hctx]
    rfl

/-- A request that `AuthGuard` has let through, on behalf of a stranger to the client `c`, and the
    session a client runs its queries in that was built for it.

    A grant may be answered out of the cache; then it dates from a time when the user was a
    stranger as well. -/
structure StrangersRequest (c : String) where
  cfg : Config
  env : Env
  verifyJwt : VerifyJwt
  endpoint : Endpoint
  request : Request
  world : World
  cls : Cls
  options : PrimaryExtensionOptions
  session : DbSession
  passes : PassesAuthGuard cfg env verifyJwt endpoint request (some .request) world cls
  noContext : options.rlsContext = none
  opens : (buildPrimaryExtension cls env.allowedSiteIdsForSite options).session = some session
  stranger : ∀ user, AuthService.validateJwtToken verifyJwt
    (AuthService.extractTokenFromRequest request) = .ok user → world.db.Stranger cfg user c
  cached : ∀ user g, AuthService.validateJwtToken verifyJwt
      (AuthService.extractTokenFromRequest request) = .ok user →
    world.cache (GrantQuestion.key
        ⟨user, AuthService.extractOrganizationContextFromRequest request⟩) = some (.granted g) →
    ∃ db : Db, db.Stranger cfg user c ∧
      GrantQuestion.answer cfg env
        ⟨user, AuthService.extractOrganizationContextFromRequest request⟩ db = .ok (.granted g)

namespace StrangersRequest

variable {c : String} (r : StrangersRequest c)

/-- The grant in the store, out of the cache or not, is a stranger's. -/
theorem grant_apart {g : AccessGrant} (hg : r.cls.accessGrant = some g) : g.Apart c := by
  obtain ⟨_, -, user, w₁, w₂, huser, hgrant, -⟩ := isCaller_of_grant r.passes hg
  rw [getAccessGrantForUser_run] at hgrant
  cases hcache : r.world.cache (GrantQuestion.key
      ⟨user, AuthService.extractOrganizationContextFromRequest r.request⟩) with
  | some v =>
    rw [hcache] at hgrant
    obtain rfl := Except.ok.inj (Prod.mk.inj hgrant).1
    obtain ⟨db, hstranger, hanswer⟩ := r.cached user g huser hcache
    exact granted_stranger hstranger hanswer
  | none =>
    rw [hcache] at hgrant
    dsimp only at hgrant
    cases hanswer : GrantQuestion.answer r.cfg r.env
        ⟨user, AuthService.extractOrganizationContextFromRequest r.request⟩ r.world.db with
    | ok v =>
      rw [hanswer] at hgrant
      obtain rfl := Except.ok.inj (Prod.mk.inj hgrant).1
      exact granted_stranger (r.stranger user huser) hanswer
    | error e =>
      rw [hanswer] at hgrant
      exact absurd (Prod.mk.inj hgrant).1 (by simp)

/-- **The session of a stranger** has the row context of another client. -/
theorem session_stranger : ∃ ctx, r.session = .request ctx ∧ ctx.clientId ≠ c := by
  have hopens := r.opens
  obtain ⟨w', hrun⟩ := r.passes
  have hmode : r.cls.mode = some .request := (AuthGuard.canActivate_admitted hrun).mode
  cases hgrant : r.cls.accessGrant with
  | none =>
    -- Without a grant there is neither a bypass nor a context.
    simp [PrimaryExtension.session, buildPrimaryExtension, hgrant, hmode, r.noContext] at hopens
  | some g =>
    have hapart := r.grant_apart hgrant
    obtain ⟨person, hperson, -⟩ := isCaller_of_grant r.passes hgrant
    have hcannot : ¬ g.scope = .system := hapart.notSystem
    simp only [PrimaryExtension.session, buildPrimaryExtension, hgrant, hperson, hmode,
      Option.any_some, hcannot, decide_false, Option.some.injEq, reduceCtorEq, Bool.or_false,
      Bool.and_false, Bool.false_eq_true, if_false, Option.map_some] at hopens
    exact ⟨_, hopens.symm, hapart.elsewhere⟩

end StrangersRequest

/-! ## 3. Strangers stand apart -/

/-- A program of statements, each sent by the handler of some stranger's request. -/
def strangers {α : Type} {c : String}
    (next : List (Outcome Column Cell α) → Option (Action (StrangersRequest c) (PgStatement α))) :
    Program PolicyName PgTable Column Cell PolicyFunction α :=
  sessions fun past => (next past).map (·.mapSession StrangersRequest.session)

/-- The inspector of `acme` is a stranger to `bolt`. -/
theorem inspector_stranger : inspectorWorld.db.Stranger {} userP "bolt" where
  notAdmin := by decide
  rows := by
    intro a ha _
    revert a
    show ∀ a ∈ twoSites.accesses.rows, _
    decide

/-- Their request, with a client that would like to bypass the policies. -/
def inspectorsRequest : StrangersRequest "bolt" where
  cfg := {}
  env := {}
  verifyJwt := fun _ => .ok userP
  endpoint := { handler := {} }
  request := inspectorRequest
  world := inspectorWorld
  cls := inspectorCls
  options := { shouldBypassRLSAsSystemAdmin := true }
  session := .request ⟨"p", "acme", "south", ["south"], "south", .site⟩
  passes := inspector_passes
  noContext := rfl
  opens := by decide
  stranger := by
    intro user huser
    obtain rfl := Except.ok.inj huser
    exact inspector_stranger
  cached := fun _ _ _ hcache => absurd hcache (by simp [inspectorWorld])

/-- The assets after a stranger's request has had every asset deleted that it finds. -/
def assetsAfterRequest {c : String} (r : StrangersRequest c) (assets : List PgRow) : List PgRow :=
  (play (strangers (once r (RowStatement.delete .asset (fun _ _ => true) true :
    PgStatement Unit))) 1 [] (fun _ => assets) fun _ => assets).2 .asset

theorem assetsAfterRequest_inspector (assets : List PgRow) :
    assetsAfterRequest inspectorsRequest assets =
      assets.filter fun r =>
        !RlsContext.placesRow ⟨"p", "acme", "south", ["south"], "south", .site⟩ r :=
  exec_delete_assets Unit _ fun _ => assets

end ShieldApi
