import Mathlib.Data.List.MinMax
import ShieldApi.Auth.GrantReads

/-!
# Which branch a grant comes from

Four branches of `getAccessGrantForUserFromDatabase` return a grant (`GrantedBy`): one puts it
together from the user's rows, one takes the user's most permissive `SYSTEM` role, and two make
it up for a bootstrap admin. `granted_iff` says there are no others, and the two questions of
this file are answered branch by branch.

**Where is the grant?** A row names a client and a site of it, as far as rows do. The other
branches take the client and the site **from the request headers**, without looking either of
them up, so the site of the grant may be of another client or not be there at all.
`namesRealPlace_iff` is the condition on the headers.

**What does it hold?** The intents `elevated` and `system` are documented to carry all
capabilities. The bootstrap grants do; the other two carry what the user's roles list
(`carriesAll_iff`).
-/

set_option autoImplicit false

namespace ShieldApi

namespace AuthService

/-! ## 1. The branches -/

/-- The records a context selects among the user's. -/
abbrev selectedFor (env : Env) (user : StatelessUser) (ctx : AccessContext) (db : Db) :
    List AccessRecord :=
  selectedRecords ctx (db.accessRecordsOf env user)

inductive GrantedBy (cfg : Config) (env : Env) (user : StatelessUser) (ctx : AccessContext)
    (db : Db) : AccessGrant → Prop
  | systemRole {clientId : String} {g : AccessGrant}
      (hclient : truthy ctx.requestedClientId = some clientId)
      (hgrant : systemGrant env user ctx clientId db = some g) : GrantedBy cfg env user ctx db g
  | rows {g : AccessGrant}
      (hsys : ∀ clientId, truthy ctx.requestedClientId = some clientId →
        systemGrant env user ctx clientId db = none)
      (hne : selectedFor env user ctx db ≠ [])
      (hgrant : validateAndBuildAccessGrantResult (selectedFor env user ctx db) ctx =
        .ok (.granted g)) : GrantedBy cfg env user ctx db g
  | requestedBootstrap {clientId : String}
      (hclient : truthy ctx.requestedClientId = some clientId)
      (hsys : systemGrant env user ctx clientId db = none)
      (hnil : selectedFor env user ctx db = [])
      (hadmin : userIsDefaultSystemAdmin cfg user = true) :
      GrantedBy cfg env user ctx db (ephemeralGrant clientId (ctx.requestedSiteId.getD ""))
  | defaultBootstrap (hclient : truthy ctx.requestedClientId = none)
      (hnil : selectedFor env user ctx db = [])
      (hintent : ctx.accessIntent.getD .user ≠ .user)
      (hadmin : userIsDefaultSystemAdmin cfg user = true) :
      GrantedBy cfg env user ctx db (ephemeralGrant "" "")

section Branches

variable {cfg : Config} {env : Env} {user : StatelessUser} {ctx : AccessContext} {db : Db}

theorem requestedClientResult_eq {clientId : String} {records : List AccessRecord}
    (h : truthy ctx.requestedClientId = some clientId) :
    requestedClientResult cfg user ctx clientId records =
      if selectedRecords ctx records = [] then
        if userIsDefaultSystemAdmin cfg user then
          .ok (.granted (ephemeralGrant clientId (ctx.requestedSiteId.getD "")))
        else .ok (accessGrantRequestDenied ctx (records.find? (·.isPrimary)))
      else validateAndBuildAccessGrantResult (selectedRecords ctx records) ctx := by
  unfold requestedClientResult selectedRecords
  simp only [h, List.isEmpty_iff]
  rfl

theorem defaultResult_eq {records : List AccessRecord}
    (h : truthy ctx.requestedClientId = none) :
    defaultResult cfg user ctx records =
      if selectedRecords ctx records = [] then
        if ctx.accessIntent.getD .user ≠ .user ∧ userIsDefaultSystemAdmin cfg user = true then
          .ok (.granted (ephemeralGrant "" ""))
        else .ok noAccessGrant
      else validateAndBuildAccessGrantResult (selectedRecords ctx records) ctx := by
  unfold defaultResult selectedRecords
  simp only [h, List.isEmpty_iff, Bool.not_eq_true', List.isEmpty_eq_false_iff,
    Bool.and_eq_true, decide_eq_true_eq]
  by_cases hprim : records.filter (·.isPrimary) = []
  · rw [if_neg (fun hne => hne hprim), if_pos hprim]
    cases records with
    | nil => rfl
    | cons r rs => rfl
  · rw [if_pos hprim, if_neg hprim, if_neg hprim]

/-- **A grant comes from one of the four branches.** -/
theorem granted_iff {g : AccessGrant} :
    getAccessGrantForUserFromDatabase cfg env user ctx db = .ok (.granted g) ↔
      GrantedBy cfg env user ctx db g := by
  cases hclient : truthy ctx.requestedClientId with
  | none =>
    rw [fromDatabase_default hclient, defaultResult_eq hclient]
    constructor
    · intro h
      split at h
      · next hnil =>
        split at h
        · next hboot =>
          cases h
          exact .defaultBootstrap hclient hnil hboot.1 hboot.2
        · exact absurd h (by simp [noAccessGrant])
      · next hne => exact .rows (fun c hc => absurd (hclient.symm.trans hc) (by simp)) hne h
    · intro h
      cases h with
      | systemRole hc => exact absurd (hclient.symm.trans hc) (by simp)
      | rows _ hne hgrant => rw [if_neg hne, hgrant]
      | requestedBootstrap hc => exact absurd (hclient.symm.trans hc) (by simp)
      | defaultBootstrap _ hnil hintent hadmin => rw [if_pos hnil, if_pos ⟨hintent, hadmin⟩]
  | some clientId =>
    rw [fromDatabase_requested hclient, requestedClientResult_eq hclient]
    have hsame : ∀ c, truthy ctx.requestedClientId = some c → c = clientId :=
      fun c hc => Option.some.inj (hc.symm.trans hclient)
    constructor
    · intro h
      cases hsys : systemGrant env user ctx clientId db with
      | some g' =>
        rw [hsys] at h
        cases h
        exact .systemRole hclient hsys
      | none =>
        rw [hsys] at h
        dsimp only at h
        split at h
        · next hnil =>
          split at h
          · next hadmin =>
            cases h
            exact .requestedBootstrap hclient hsys hnil hadmin
          · exact absurd h (by simp [accessGrantRequestDenied])
        · next hne => exact .rows (fun c hc => hsame c hc ▸ hsys) hne h
    · intro h
      cases h with
      | systemRole hc hgrant =>
        obtain rfl := hsame _ hc
        rw [hgrant]
      | rows hsys hne hgrant =>
        rw [hsys _ hclient]
        dsimp only
        rw [if_neg hne, hgrant]
      | requestedBootstrap hc hsys hnil hadmin =>
        obtain rfl := hsame _ hc
        rw [hsys]
        dsimp only
        rw [if_pos hnil, if_pos hadmin]
      | defaultBootstrap hc => exact absurd (hclient.symm.trans hc) (by simp)

end Branches

/-! ## 2. The grant of a `SYSTEM` role -/

/-- The `SYSTEM` roles of the user, one row for each, in the order of the query. -/
def heldSystemRoles (env : Env) (user : StatelessUser) (db : Db) : List Role :=
  (distinctRoleIds (env.accessOrder.findMany
    (fun a => db.hasIdpId user.idpId a && db.hasSystemRole a) db.accesses.rows)).filterMap
      fun a => db.roles.find? a.roleId

/-- The site of the grant: the requested one, else the client's primary or oldest one. -/
def systemSite (env : Env) (ctx : AccessContext) (clientId : String) (db : Db) :
    Option String :=
  truthy
    (match truthy ctx.requestedSiteId with
    | some siteId => some siteId
    | none =>
      (env.siteOrder.findFirstBy Site.primaryThenOldest (·.clientId = clientId)
        db.sites.rows).map (·.id))

section SystemRole

variable {env : Env} {user : StatelessUser} {ctx : AccessContext} {db : Db}

theorem scope_of_held {role : Role} (h : role ∈ heldSystemRoles env user db) :
    role.scope = .system := by
  unfold heldSystemRoles at h
  obtain ⟨a, ha, hrole⟩ := List.mem_filterMap.mp h
  have hsel := (RowOrder.mem_findMany.mp (distinctRoleIds_subset _ a ha)).2
  simp only [Db.hasSystemRole, hrole, Option.any_some, Bool.and_eq_true, contains_system] at hsel
  exact hsel.2

theorem distinctRoleIds_ne_nil {rows : List PersonClientAccess} (h : rows ≠ []) :
    distinctRoleIds rows ≠ [] := by
  cases rows with
  | nil => exact absurd rfl h
  | cons a rows =>
    unfold distinctRoleIds
    rw [List.eraseDupsBy_cons]
    exact List.cons_ne_nil _ _

/-- A row with a `SYSTEM` role is enough to hold one. -/
theorem held_ne_nil_of_row {a : PersonClientAccess} (ha : a ∈ db.accesses)
    (hid : db.hasIdpId user.idpId a = true) (hsys : db.hasSystemRole a = true) :
    heldSystemRoles env user db ≠ [] := by
  unfold heldSystemRoles
  have hmem : a ∈ env.accessOrder.findMany
      (fun a => db.hasIdpId user.idpId a && db.hasSystemRole a) db.accesses.rows :=
    RowOrder.mem_findMany.mpr ⟨ha, by rw [hid, hsys]; rfl⟩
  obtain ⟨b, hb⟩ := List.exists_mem_of_ne_nil _
    (distinctRoleIds_ne_nil (List.ne_nil_of_mem hmem))
  have hsel := (RowOrder.mem_findMany.mp (distinctRoleIds_subset _ b hb)).2
  simp only [Bool.and_eq_true, Db.hasSystemRole, Option.any_eq_true] at hsel
  obtain ⟨-, role, hrole, -⟩ := hsel
  exact List.ne_nil_of_mem (List.mem_filterMap.mpr ⟨b, hb, hrole⟩)

/-- Among roles of one scope, the fold keeps the first of those that list most. -/
theorem foldl_morePermissive_eq {roles : List Role} {first : Role} (hfirst : first.scope = .system)
    (h : ∀ role ∈ roles, role.scope = .system) :
    some (roles.foldl morePermissive first) =
      roles.foldl (List.argAux fun b c => c.capabilities.length < b.capabilities.length)
        (some first) := by
  induction roles generalizing first with
  | nil => rfl
  | cons role roles ih =>
    have hrole := h role (List.mem_cons_self ..)
    have hstep : List.argAux (fun b c : Role => c.capabilities.length < b.capabilities.length)
        (some first) role = some (morePermissive first role) := by
      by_cases hlen : first.capabilities.length < role.capabilities.length
      · simp [morePermissive, List.argAux, hfirst, hrole, hlen]
      · simp [morePermissive, List.argAux, hfirst, hrole, hlen]
    have hscope : (morePermissive first role).scope = .system := by
      unfold morePermissive
      split
      · exact hrole
      · split
        · exact hrole
        · exact hfirst
    rw [List.foldl_cons, List.foldl_cons, hstep]
    exact ih hscope fun r hr => h r (List.mem_cons_of_mem _ hr)

theorem morePermissive_self (role : Role) : morePermissive role role = role := by
  simp [morePermissive]

/-- **The most permissive `SYSTEM` role** is the first of those that list most capabilities. -/
theorem getMostPermissiveRole_system (env : Env) (user : StatelessUser) (db : Db) :
    getMostPermissiveRole env user .system db =
      (heldSystemRoles env user db).argmax (·.capabilities.length) := by
  have hscope := fun role => @scope_of_held env user db role
  have hheld : (distinctRoleIds (env.accessOrder.findMany
      (fun a => db.hasIdpId user.idpId a && (db.roles.find? a.roleId).any fun r =>
        (getScopesAtLeast .system).contains r.scope) db.accesses.rows)).filterMap
      (fun a => db.roles.find? a.roleId) = heldSystemRoles env user db := rfl
  unfold getMostPermissiveRole
  simp only [hheld]
  cases hroles : heldSystemRoles env user db with
  | nil => rfl
  | cons first rest =>
    rw [hroles] at hscope
    dsimp only
    rw [List.foldl_cons, morePermissive_self]
    exact foldl_morePermissive_eq (hscope first (List.mem_cons_self ..))
      fun role hrole => hscope role (List.mem_cons_of_mem _ hrole)

/-- What `systemGrant` returns. -/
theorem systemGrant_eq_some {clientId : String} {g : AccessGrant} :
    systemGrant env user ctx clientId db = some g ↔
      ctx.accessIntent.getD .user ≠ .user ∧
        ∃ role ∈ (heldSystemRoles env user db).argmax (·.capabilities.length),
          ∃ siteId, systemSite env ctx clientId db = some siteId ∧
            g = { scope := role.scope, capabilities := role.capabilities, clientId, siteId,
                  roleId := role.id } := by
  unfold systemGrant
  by_cases hintent : ctx.accessIntent.getD .user ≠ .user
  · rw [if_pos hintent]
    unfold getSystemAdminAccessGrant
    rw [getMostPermissiveRole_system]
    simp only [Option.bind_eq_bind, Option.bind_eq_some_iff, Option.pure_def, Option.some.injEq,
      Option.mem_def, systemSite]
    constructor
    · intro h
      obtain ⟨role, hrole, siteId, hsite, hg⟩ := h
      exact ⟨hintent, role, hrole, siteId, hsite, hg.symm⟩
    · intro h
      obtain ⟨-, role, hrole, siteId, hsite, hg⟩ := h
      exact ⟨role, hrole, siteId, hsite, hg.symm⟩
  · rw [if_neg hintent]
    exact ⟨fun h => absurd h (by simp), fun h => absurd h.1 hintent⟩

/-- With a role held and a site found there is a grant. -/
theorem systemGrant_of_held {clientId siteId : String}
    (hintent : ctx.accessIntent.getD .user ≠ .user) (hheld : heldSystemRoles env user db ≠ [])
    (hsite : systemSite env ctx clientId db = some siteId) :
    ∃ role ∈ (heldSystemRoles env user db).argmax (·.capabilities.length),
      systemGrant env user ctx clientId db =
        some { scope := role.scope, capabilities := role.capabilities, clientId, siteId,
               roleId := role.id } := by
  obtain ⟨role, hrole⟩ := Option.ne_none_iff_exists'.mp
    (fun hnone => hheld (List.argmax_eq_none.mp hnone) :
      (heldSystemRoles env user db).argmax (·.capabilities.length) ≠ none)
  exact ⟨role, hrole, systemGrant_eq_some.mpr ⟨hintent, role, hrole, siteId, hsite, rfl⟩⟩

theorem systemSite_requested {clientId siteId : String}
    (h : truthy ctx.requestedSiteId = some siteId) :
    systemSite env ctx clientId db = some siteId := by
  unfold systemSite
  rw [h]
  exact truthy_eq_some.mpr ⟨rfl, (truthy_eq_some.mp h).2⟩

end SystemRole

end AuthService

/-! ## 3. Does the grant name a real place? -/

/-- There is such a site, and it is one of the client. -/
def Db.SiteOf (db : Db) (clientId siteId : String) : Prop :=
  ∃ s ∈ db.sites, s.id = siteId ∧ s.clientId = clientId

/-- Every access row is at a site of its client. -/
def Db.RowsAtOwnSites (db : Db) : Prop :=
  ∀ a ∈ db.accesses, db.SiteOf a.clientId a.siteId

/-- A record of such a row has a site of its client. -/
theorem Db.IsRecordOf.siteOf {db : Db} {user : StatelessUser} {r : AccessRecord}
    (hrows : db.RowsAtOwnSites) (h : db.IsRecordOf user r) :
    db.SiteOf r.client.id r.site.id := by
  obtain ⟨a, ha, -, hr⟩ := h
  obtain ⟨-, hclient, hsite, -⟩ := accessRecord_spec hr
  rw [hclient, hsite]
  exact hrows a ha

namespace AuthService

/-- A grant with a site is at a site of its client. -/
def NamesRealPlace (cfg : Config) (env : Env) (user : StatelessUser) (ctx : AccessContext)
    (db : Db) : Prop :=
  ∀ g, getAccessGrantForUserFromDatabase cfg env user ctx db = .ok (.granted g) →
    g.siteId ≠ "" → db.SiteOf g.clientId g.siteId

/-- **The grant takes its place from the headers:** the user holds a `SYSTEM` role and the
    intent looks for it, or is a bootstrap admin without a row at the place. -/
structure PlaceFromHeaders (cfg : Config) (user : StatelessUser) (ctx : AccessContext) (db : Db)
    (clientId siteId : String) : Prop where
  client : truthy ctx.requestedClientId = some clientId
  site : truthy ctx.requestedSiteId = some siteId
  admin : (ctx.accessIntent.getD .user ≠ .user ∧
      ∃ a ∈ db.accesses, db.hasIdpId user.idpId a = true ∧ db.hasSystemRole a = true) ∨
    (userIsDefaultSystemAdmin cfg user = true ∧
      ∀ r, db.IsRecordOf user r → r.client.id = clientId → r.site.id ≠ siteId)

section Place

variable {cfg : Config} {env : Env} {user : StatelessUser} {ctx : AccessContext} {db : Db}

theorem exists_row_of_held (h : heldSystemRoles env user db ≠ []) :
    ∃ a ∈ db.accesses, db.hasIdpId user.idpId a = true ∧ db.hasSystemRole a = true := by
  obtain ⟨role, hrole⟩ := List.exists_mem_of_ne_nil _ h
  obtain ⟨a, ha, -⟩ := List.mem_filterMap.mp hrole
  obtain ⟨hmem, hsel⟩ := RowOrder.mem_findMany.mp (distinctRoleIds_subset _ a ha)
  rw [Bool.and_eq_true] at hsel
  exact ⟨a, hmem, hsel.1, hsel.2⟩

/-- The site that is looked up for a client is a site of the client. -/
theorem siteOf_systemSite {clientId siteId : String} (hno : truthy ctx.requestedSiteId = none)
    (h : systemSite env ctx clientId db = some siteId) : db.SiteOf clientId siteId := by
  unfold systemSite at h
  rw [hno] at h
  obtain ⟨hfound, -⟩ := truthy_eq_some.mp h
  obtain ⟨s, hs, rfl⟩ := Option.map_eq_some_iff.mp hfound
  obtain ⟨hmem, hclient⟩ := RowOrder.findFirstBy_mem hs
  exact ⟨s, hmem, rfl, of_decide_eq_true hclient⟩

/-- The records of a requested client and site. -/
theorem selectedFor_eq_nil {clientId siteId : String}
    (hclient : truthy ctx.requestedClientId = some clientId)
    (hsite : truthy ctx.requestedSiteId = some siteId) :
    selectedFor env user ctx db = [] ↔
      ∀ r, db.IsRecordOf user r → r.client.id = clientId → r.site.id ≠ siteId := by
  unfold selectedFor selectedRecords
  simp only [hclient, List.filter_eq_nil_iff, mem_accessRecordsOf, isRequested, hsite,
    Option.all_some, Bool.and_eq_true, decide_eq_true_eq, not_and]

/-- Where the place comes from the headers, a grant is returned and has that place. -/
theorem PlaceFromHeaders.granted {clientId siteId : String}
    (h : PlaceFromHeaders cfg user ctx db clientId siteId) :
    ∃ g, getAccessGrantForUserFromDatabase cfg env user ctx db = .ok (.granted g) ∧
      g.clientId = clientId ∧ g.siteId = siteId := by
  obtain ⟨hclient, hsite, hadmin⟩ := h
  cases hsys : systemGrant env user ctx clientId db with
  | some g =>
    refine ⟨g, granted_iff.mpr (.systemRole hclient hsys), ?_⟩
    obtain ⟨-, role, -, s, hs, hg⟩ := systemGrant_eq_some.mp hsys
    rw [systemSite_requested hsite] at hs
    rw [hg]
    exact ⟨rfl, (Option.some.inj hs).symm⟩
  | none =>
    rcases hadmin with ⟨hintent, a, ha, hid, hrole⟩ | ⟨hboot, hno⟩
    · obtain ⟨role, -, hgrant⟩ := systemGrant_of_held hintent
        (held_ne_nil_of_row ha hid hrole)
        (systemSite_requested hsite)
      rw [hsys] at hgrant
      exact absurd hgrant (by simp)
    · have hnil : selectedFor env user ctx db = [] :=
        (selectedFor_eq_nil hclient hsite).mpr hno
      refine ⟨_, granted_iff.mpr (.requestedBootstrap hclient hsys hnil hboot), rfl, ?_⟩
      obtain ⟨hheader, -⟩ := truthy_eq_some.mp hsite
      rw [hheader]
      rfl

/-- **When every grant names a real place:** when the headers do, wherever the place is taken
    from them. -/
theorem namesRealPlace_iff (hrows : db.RowsAtOwnSites) :
    NamesRealPlace cfg env user ctx db ↔
      ∀ clientId siteId, PlaceFromHeaders cfg user ctx db clientId siteId →
        db.SiteOf clientId siteId := by
  constructor
  · intro h clientId siteId hplace
    obtain ⟨g, hg, hclient, hsite⟩ :
        ∃ g, getAccessGrantForUserFromDatabase cfg env user ctx db = .ok (.granted g) ∧
          g.clientId = clientId ∧ g.siteId = siteId := hplace.granted
    have hne : g.siteId ≠ "" := by
      rw [hsite]
      exact (truthy_eq_some.mp hplace.site).2
    rw [← hclient, ← hsite]
    exact h g hg hne
  · intro h g hg hne
    cases granted_iff.mp hg with
    | systemRole hclient hgrant =>
      obtain ⟨hintent, role, hrole, siteId, hsite, rfl⟩ := systemGrant_eq_some.mp hgrant
      cases hheader : truthy ctx.requestedSiteId with
      | none => exact siteOf_systemSite hheader hsite
      | some s =>
        obtain rfl := Option.some.inj ((systemSite_requested hheader).symm.trans hsite)
        exact h _ _ ⟨hclient, hheader,
          .inl ⟨hintent, exists_row_of_held (List.ne_nil_of_mem (List.argmax_mem hrole))⟩⟩
    | rows hsys hnil hgrant =>
      obtain ⟨result, hresult, hspec⟩ := validateAndBuild_spec hnil ctx
      rw [hresult] at hgrant
      obtain ⟨⟨r, hr, hplace⟩, -⟩ := hspec g (Except.ok.inj hgrant)
      rw [hplace.1, hplace.2.1]
      exact (mem_accessRecordsOf.mp (selectedRecords_subset r hr)).siteOf hrows
    | requestedBootstrap hclient hsys hnil hadmin =>
      -- the site of the ephemeral grant is the header, or empty
      obtain ⟨s, hheader⟩ : ∃ s, ctx.requestedSiteId = some s := by
        cases hs : ctx.requestedSiteId with
        | none => exact absurd (by rw [hs]; rfl) hne
        | some s => exact ⟨s, rfl⟩
      unfold ephemeralGrant at hne ⊢
      dsimp only at hne ⊢
      rw [hheader] at hne ⊢
      have hsite : truthy ctx.requestedSiteId = some s := truthy_eq_some.mpr ⟨hheader, hne⟩
      exact h _ _ ⟨hclient, hsite, .inr ⟨hadmin, (selectedFor_eq_nil hclient hsite).mp hnil⟩⟩
    | defaultBootstrap _ _ _ _ => exact absurd rfl hne

end Place

end AuthService

/-- `p` has a `SYSTEM` role of one capability at `acme`; `bolt` is another client. -/
def adminAtAcme : Db where
  clients := ⟨[{ id := "acme", externalId := "x-acme", status := .active },
    { id := "bolt", externalId := "x-bolt", status := .active }],
    (by decide : ["acme", "bolt"].Nodup)⟩
  sites := ⟨[{ id := "acme-1", externalId := "x-acme-1", createdOn := 0, clientId := "acme" },
    { id := "bolt-1", externalId := "x-bolt-1", createdOn := 0, clientId := "bolt" }],
    (by decide : ["acme-1", "bolt-1"].Nodup)⟩
  roles := ⟨[{ id := "root", name := "Root", scope := .system,
               capabilities := ["manage-users"] }], List.nodup_singleton _⟩
  persons := ⟨[{ id := "p", firstName := "P", lastName := "P", email := "p@x.org",
                 idpId := some "idp-p" }], List.nodup_singleton _⟩
  accesses := ⟨[{ createdOn := 0, isPrimary := true, personId := "p", clientId := "acme",
                  siteId := "acme-1", roleId := "root" }], List.nodup_singleton _⟩

/-- The client of one place and the site of another. -/
def acmeWithBoltSite : AccessContext :=
  { requestedClientId := some "acme", requestedSiteId := some "bolt-1",
    accessIntent := some .elevated }

theorem adminAtAcme_rows : adminAtAcme.RowsAtOwnSites := by
  intro a ha
  obtain rfl := List.mem_singleton.mp ha
  exact ⟨{ id := "acme-1", externalId := "x-acme-1", createdOn := 0, clientId := "acme" },
    List.mem_cons_self .., rfl, rfl⟩

theorem acme_not_boltSite : ¬ adminAtAcme.SiteOf "acme" "bolt-1" := by
  intro h
  obtain ⟨s, hs, hid, hclient⟩ := h
  rcases List.mem_cons.mp hs with rfl | hs
  · exact absurd hid (by decide)
  · obtain rfl := List.mem_singleton.mp hs
    exact absurd hclient (by decide)

/-- What `p` is granted there. -/
def rootGrant (siteId : String) : AccessGrant :=
  { roleId := "root", scope := .system, capabilities := ["manage-users"], clientId := "acme",
    siteId }

theorem acmeWithBoltSite_granted :
    AuthService.getAccessGrantForUserFromDatabase {} {} userP acmeWithBoltSite adminAtAcme =
      .ok (.granted (rootGrant "bolt-1")) := by
  rfl

theorem acmeWithBoltSite_names_no_place :
    adminAtAcme.RowsAtOwnSites ∧
      ¬ AuthService.NamesRealPlace {} {} userP acmeWithBoltSite adminAtAcme :=
  ⟨adminAtAcme_rows,
    fun h => acme_not_boltSite (h _ acmeWithBoltSite_granted (by decide))⟩

theorem namesRealPlace_iff_acme :
    AuthService.NamesRealPlace {} {} userP acmeWithBoltSite adminAtAcme ↔
      ∀ clientId siteId,
        AuthService.PlaceFromHeaders {} userP acmeWithBoltSite adminAtAcme clientId siteId →
          adminAtAcme.SiteOf clientId siteId :=
  AuthService.namesRealPlace_iff adminAtAcme_rows

/-! ## 4. Does a `SYSTEM` grant hold all capabilities? -/

namespace AuthService

/-- Every grant of `SYSTEM` scope holds every valid capability. -/
def SystemGrantsCarryAll (cfg : Config) (env : Env) (user : StatelessUser) (ctx : AccessContext)
    (db : Db) : Prop :=
  ∀ g, getAccessGrantForUserFromDatabase cfg env user ctx db = .ok (.granted g) →
    g.scope = .system → ∀ c ∈ validCapabilities, c ∈ g.capabilities

/-- **The roles list them all:** the most permissive `SYSTEM` role does, if a client is requested
    and a site found for it; otherwise, if a selected row has `SYSTEM` scope, the selected rows'
    roles do together. -/
structure RolesListAll (env : Env) (user : StatelessUser) (ctx : AccessContext) (db : Db) :
    Prop where
  role : ∀ clientId siteId, truthy ctx.requestedClientId = some clientId →
    systemSite env ctx clientId db = some siteId →
      ∀ role ∈ (heldSystemRoles env user db).argmax (·.capabilities.length),
        ∀ c ∈ validCapabilities, c ∈ role.capabilities
  rows : (∀ clientId, truthy ctx.requestedClientId = some clientId →
      systemSite env ctx clientId db = none) →
    (∃ r ∈ selectedFor env user ctx db, r.role.scope = .system) →
      ∀ c ∈ validCapabilities, ∃ r ∈ selectedFor env user ctx db, c ∈ r.role.capabilities

section Capabilities

variable {cfg : Config} {env : Env} {user : StatelessUser} {ctx : AccessContext} {db : Db}

/-- With a `SYSTEM` role among the records a `SYSTEM` grant is returned, active client or not. -/
theorem validateAndBuild_system {records : List AccessRecord}
    (h : ∃ r ∈ records, r.role.scope = .system) (ctx : AccessContext) :
    ∃ g, validateAndBuildAccessGrantResult records ctx = .ok (.granted g) ∧
      g.scope = .system := by
  obtain ⟨r, hr, hscope⟩ := h
  cases records with
  | nil => exact absurd hr List.not_mem_nil
  | cons r₀ rs =>
    obtain ⟨g, hg⟩ := reduceAccessGrants_cons r₀.grant (rs.map (·.grant))
    have hwide := (reduceAccessGrants_spec hg).2.1 r.grant
      (List.map_cons ▸ List.mem_map_of_mem hr)
    have hsystem : g.scope = .system := isScopeAtLeast_system (hscope ▸ hwide)
    refine ⟨g, ?_, hsystem⟩
    have hallows : g.scopeAllows .global = true := by
      unfold AccessGrant.scopeAllows
      rw [hsystem]
      rfl
    simp only [validateAndBuildAccessGrantResult, List.map_cons, hg, bind, Except.bind, hallows,
      if_true]
    rfl

/-- A record with a `SYSTEM` role is of a row that holds one. -/
theorem held_ne_nil_of_record {r : AccessRecord} (hr : db.IsRecordOf user r)
    (hscope : r.role.scope = .system) : heldSystemRoles env user db ≠ [] := by
  obtain ⟨a, ha, hid, hrec⟩ := hr
  refine held_ne_nil_of_row ha hid ?_
  have hrole : db.roles.find? a.roleId = some r.role :=
    Table.find?_eq_some.mpr ⟨accessRecord_role hrec, (accessRecord_spec hrec).2.2.2⟩
  unfold Db.hasSystemRole
  rw [hrole, Option.any_some]
  exact contains_system.mpr hscope

theorem systemGrant_eq_none {clientId : String} (h : systemSite env ctx clientId db = none) :
    systemGrant env user ctx clientId db = none := by
  cases hg : systemGrant env user ctx clientId db with
  | none => rfl
  | some g =>
    obtain ⟨-, -, -, siteId, hsite, -⟩ := systemGrant_eq_some.mp hg
    exact absurd (h.symm.trans hsite) (by simp)

/-- **When the intents `elevated` and `system` carry all capabilities:** when the roles that the
    grant is taken from list them all. -/
theorem systemGrantsCarryAll_iff (hintent : ctx.accessIntent.getD .user ≠ .user) :
    SystemGrantsCarryAll cfg env user ctx db ↔ RolesListAll env user ctx db := by
  constructor
  · intro h
    refine ⟨fun clientId siteId hclient hsite role hrole => ?_, fun hno hsystem c hc => ?_⟩
    · exact h _ (granted_iff.mpr (.systemRole hclient
        (systemGrant_eq_some.mpr ⟨hintent, role, hrole, siteId, hsite, rfl⟩)))
          (scope_of_held (List.argmax_mem hrole))
    · obtain ⟨g, hg, hscope⟩ := validateAndBuild_system hsystem ctx
      obtain ⟨r, hr, -⟩ := hsystem
      have hne : selectedFor env user ctx db ≠ [] := List.ne_nil_of_mem hr
      obtain ⟨result, hresult, hspec⟩ := validateAndBuild_spec hne ctx
      rw [hresult] at hg
      obtain ⟨-, -, hcaps⟩ := hspec g (Except.ok.inj hg)
      have hgranted := granted_iff.mpr (@GrantedBy.rows cfg _ _ _ _ _
        (fun clientId hclient => systemGrant_eq_none (hno clientId hclient)) hne
        (hresult.trans hg))
      exact (hcaps c).mp (h g hgranted hscope c hc)
  · intro h g hg hscope
    cases granted_iff.mp hg with
    | systemRole hclient hgrant =>
      obtain ⟨-, role, hrole, siteId, hsite, rfl⟩ := systemGrant_eq_some.mp hgrant
      exact h.role _ siteId hclient hsite role hrole
    | rows hsys hne hgrant =>
      obtain ⟨result, hresult, hspec⟩ := validateAndBuild_spec hne ctx
      rw [hresult] at hgrant
      obtain ⟨⟨r, hr, hplace⟩, -, hcaps⟩ := hspec g (Except.ok.inj hgrant)
      have hrscope : r.role.scope = .system := hplace.2.2.2.symm.trans hscope
      have hrow : db.IsRecordOf user r := mem_accessRecordsOf.mp (selectedRecords_subset r hr)
      intro c hc
      refine (hcaps c).mpr (h.rows (fun clientId hclient => ?_) ⟨r, hr, hrscope⟩ c hc)
      cases hsite : systemSite env ctx clientId db with
      | none => rfl
      | some siteId =>
        -- the user holds a `SYSTEM` role, so that branch would have answered
        obtain ⟨role, -, hgrant⟩ :=
          systemGrant_of_held hintent (held_ne_nil_of_record hrow hrscope) hsite
        exact absurd ((hsys clientId hclient).symm.trans hgrant) (by simp)
    | requestedBootstrap _ _ _ _ => exact fun c hc => hc
    | defaultBootstrap _ _ _ _ => exact fun c hc => hc

end Capabilities

end AuthService

def elevatedAtAcme : AccessContext :=
  { requestedClientId := some "acme", accessIntent := some .elevated }

/-- The grant of the one `SYSTEM` role of `adminAtAcme` holds what the role lists. -/
theorem elevatedAtAcme_lacks :
    elevatedAtAcme.accessIntent.getD .user = .elevated ∧
      AuthService.getAccessGrantForUserFromDatabase {} {} userP elevatedAtAcme adminAtAcme =
        .ok (.granted (rootGrant "acme-1")) ∧
      ¬ AuthService.SystemGrantsCarryAll {} {} userP elevatedAtAcme adminAtAcme := by
  have hgranted : AuthService.getAccessGrantForUserFromDatabase {} {} userP elevatedAtAcme
      adminAtAcme = .ok (.granted (rootGrant "acme-1")) := rfl
  refine ⟨rfl, hgranted, fun h => ?_⟩
  exact absurd (h _ hgranted rfl "manage-assets" (by decide)) (by decide)

theorem systemGrantsCarryAll_iff_acme :
    AuthService.SystemGrantsCarryAll {} {} userP elevatedAtAcme adminAtAcme ↔
      AuthService.RolesListAll {} userP elevatedAtAcme adminAtAcme :=
  AuthService.systemGrantsCarryAll_iff (by decide)

end ShieldApi
