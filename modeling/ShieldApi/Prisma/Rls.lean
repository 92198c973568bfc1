import ShieldApi.Auth.Cls

/-!
# The request client and row-level security

`prisma/prisma.service.ts`, and the policies of `prisma/migrations`. Every query of the
client that `PrismaService.build` hands out runs in a transaction of its own, behind
statements that set the session's `app.*` settings; the policies read those settings and
decide which rows the query sees. **A query sees a row of a client-isolated table when the
bypass setting is on or the row's client is the current one.**

The statement batches are data here (`Statement`), so that both questions one can ask about
them have an answer: what a batch sets, and under which settings its queries run
(`execute`). `bypassRLS` clients set the bypass for every query and need no such model:
the services below simply read the whole table there.
-/

set_option autoImplicit false

namespace ShieldApi

/-! ## 1. Statements and settings -/

/-- `app.*` settings of a transaction, the last one set first. -/
abbrev Settings : Type := List (String × String)

/-- `current_setting(name, TRUE)`. -/
def Settings.current (s : Settings) (name : String) : Option String := s.lookup name

inductive Statement (Q : Type)
  | setConfig (name value : String)
  | query (q : Q)
  deriving DecidableEq, Repr

/-- The queries of a batch, each with the settings it runs under. -/
def execute {Q : Type} (s : Settings) : List (Statement Q) → List (Settings × Q)
  | [] => []
  | .setConfig name value :: rest => execute ((name, value) :: s) rest
  | .query q :: rest => (s, q) :: execute s rest

/-! ## 2. The extension `build` makes -/

structure RlsContext where
  personId : String
  clientId : String
  siteId : String
  allowedSiteIds : List String
  allowedSiteIdsStr : String
  scope : RoleScope
  deriving DecidableEq, Repr

structure PrimaryExtensionOptions where
  shouldBypassRLSAsSystemAdmin : Bool := false
  rlsContext : Option RlsContext := none

/-- What `buildPrimaryExtension` closes over. -/
structure PrimaryExtension where
  bypassRLS : Bool
  rlsContext : Option RlsContext
  deriving DecidableEq, Repr

def buildPrimaryExtension (cls : Cls) (allowedSiteIdsForSite : String → List String)
    (options : PrimaryExtensionOptions) : PrimaryExtension :=
  let isSystemAdmin := cls.accessGrant.any (·.scope = .system)
  let shouldBypassRLS :=
    cls.mode = some .cron || options.shouldBypassRLSAsSystemAdmin || cls.accessIntent = .system
  let canBypassRLS := cls.mode = some .cron || isSystemAdmin
  { bypassRLS := shouldBypassRLS && canBypassRLS
    rlsContext :=
      match cls.accessGrant, cls.person with
      | some accessGrant, some person =>
        let allowedSiteIds := allowedSiteIdsForSite accessGrant.siteId
        some
          { personId := person.id
            clientId := accessGrant.clientId
            siteId := accessGrant.siteId
            allowedSiteIds := allowedSiteIds
            allowedSiteIdsStr := ",".intercalate allowedSiteIds
            scope := accessGrant.scope }
      | _, _ => options.rlsContext }

def RoleScope.text : RoleScope → String
  | .system => "SYSTEM"
  | .global => "GLOBAL"
  | .client => "CLIENT"
  | .siteGroup => "SITE_GROUP"
  | .site => "SITE"
  | .self => "SELF"

def buildRLSContextStatements {Q : Type} (shouldBypassRLS : Bool)
    (rlsContext : Option RlsContext) : Except ApiError (List (Statement Q)) :=
  if shouldBypassRLS then
    .ok [.setConfig "app.bypass_rls" "on"]
  else
    match rlsContext with
    | none => .error (.error "RLS context is required when RLS is not bypassed")
    | some c =>
      .ok
        [.setConfig "app.current_client_id" c.clientId,
         .setConfig "app.current_site_id" c.siteId,
         .setConfig "app.allowed_site_ids" c.allowedSiteIdsStr,
         .setConfig "app.current_person_id" c.personId,
         .setConfig "app.current_user_scope" c.scope.text]

namespace PrimaryExtension

variable {Q : Type} (px : PrimaryExtension)

/-- The batch of one query: every model operation and every raw query goes through here. -/
def setRLSContextAndExecute (q : Q) : Except ApiError (List (Statement Q)) := do
  let statements ← buildRLSContextStatements px.bypassRLS px.rlsContext
  return statements ++ [.query q]

/-- The statements of one interactive transaction whose function issues `qs`. The queries
    of the transaction client are not wrapped again. -/
def transactionStatements (qs : List Q) : Except ApiError (List (Statement Q)) := do
  let statements ← buildRLSContextStatements px.bypassRLS px.rlsContext
  return statements ++ qs.map .query

end PrimaryExtension

/-- A call on the request client. -/
inductive ClientCall (Q : Type)
  | allOperations (q : Q)
  | queryRaw (q : Q)
  | queryRawTyped (q : Q)
  | queryRawUnsafe (q : Q)
  | executeRaw (q : Q)
  | executeRawUnsafe (q : Q)
  | transaction (qs : List Q)

def PrimaryExtension.batch {Q : Type} (px : PrimaryExtension) :
    ClientCall Q → Except ApiError (List (Statement Q))
  | .allOperations q => px.setRLSContextAndExecute q
  | .queryRaw q => px.setRLSContextAndExecute q
  | .queryRawTyped q => px.setRLSContextAndExecute q
  | .queryRawUnsafe q => px.setRLSContextAndExecute q
  | .executeRaw q => px.setRLSContextAndExecute q
  | .executeRawUnsafe q => px.setRLSContextAndExecute q
  | .transaction qs => px.transactionStatements qs

/-! ## 3. The policies -/

namespace Settings

/-- `should_bypass_rls`. -/
def shouldBypassRls (s : Settings) : Bool := s.current "app.bypass_rls" = some "on"

/-- `validate_client`. -/
def validateClient (s : Settings) (clientId : String) : Bool :=
  s.current "app.current_client_id" = some clientId

/-- `validate_site`. -/
def validateSite (s : Settings) (siteId : String) : Bool :=
  let isCurrentSite : Bool := s.current "app.current_site_id" = some siteId
  let allowedSiteIds : List String :=
    match s.current "app.allowed_site_ids" with
    | some ids => if ids = "" then [] else (ids.toList.splitOn ',').map String.ofList
    | none => []
  match truthy (s.current "app.current_user_scope") with
  | some scope =>
    if scope ∈ ["SYSTEM", "GLOBAL", "CLIENT"] then true
    else if scope = "SITE_GROUP" then isCurrentSite || allowedSiteIds.contains siteId
    else if scope ∈ ["SITE", "SELF"] then isCurrentSite
    else false
  | none => isCurrentSite

/-- The policies of `PersonClientAccess` and `Invitation`. -/
def seesClient (s : Settings) (clientId : String) : Bool :=
  s.shouldBypassRls || s.validateClient clientId

/-- The policies of `Person`: somebody with a row at the current client. -/
def seesPerson (s : Settings) (db : Db) (personId : String) : Bool :=
  s.shouldBypassRls ||
    db.accesses.rows.any fun a => a.personId = personId && s.validateClient a.clientId

/-- The policies of `Site`. -/
def seesSite (s : Settings) (site : Site) : Bool :=
  s.shouldBypassRls || (s.validateClient site.clientId && s.validateSite site.id)

end Settings

/-- The settings the queries of the extension run under. -/
def PrimaryExtension.settings (px : PrimaryExtension) : Except ApiError Settings := do
  let statements ← buildRLSContextStatements (Q := Empty) px.bypassRLS px.rlsContext
  return statements.foldl
    (fun s st => match st with
      | .setConfig name value => (name, value) :: s
      | .query _ => s) []

/-- `PrismaService.build`, as the services use it: the client with the first of its queries,
    which is where a missing context throws. -/
def prismaBuild {σ : Type} (cls : Cls) (env : Env) (options : PrimaryExtensionOptions) :
    Effect σ ApiError Settings :=
  match (buildPrimaryExtension cls env.allowedSiteIdsForSite options).settings with
  | .ok s => pure s
  | .error e => .raise e

theorem readOnly_prismaBuild {σ : Type} (cls : Cls) (env : Env)
    (options : PrimaryExtensionOptions) :
    (prismaBuild cls env options : Effect σ ApiError Settings).ReadOnly := by
  unfold prismaBuild
  cases (buildPrimaryExtension cls env.allowedSiteIdsForSite options).settings with
  | ok s => exact Effect.readOnly_pure _
  | error e => exact Effect.readOnly_raise _

theorem prismaBuild_of_settings {σ : Type} {cls : Cls} {env : Env}
    {options : PrimaryExtensionOptions} {s : Settings}
    (h : (buildPrimaryExtension cls env.allowedSiteIdsForSite options).settings = .ok s) :
    (prismaBuild cls env options : Effect σ ApiError Settings) = pure s := by
  unfold prismaBuild
  rw [h]

theorem prismaBuild_eq_ok {σ : Type} {cls : Cls} {env : Env} {options : PrimaryExtensionOptions}
    {w w' : σ} {s : Settings} (h : (prismaBuild cls env options).run w = (.ok s, w')) :
    (buildPrimaryExtension cls env.allowedSiteIdsForSite options).settings = .ok s := by
  unfold prismaBuild at h
  cases hs : (buildPrimaryExtension cls env.allowedSiteIdsForSite options).settings with
  | ok s' =>
    rw [hs] at h
    rw [Except.ok.inj (Prod.mk.inj h).1]
  | error e =>
    rw [hs] at h
    exact absurd (Prod.mk.inj h).1 (by simp)

/-- A call that is one attempt of the request client leaves things as they are, or as the attempt
    does. -/
theorem leaves_prismaBuild_attempt {σ α : Type} {I : σ → Prop} {cls : Cls} {env : Env}
    {options : PrimaryExtensionOptions} {f : Settings → σ → Except ApiError (α × σ)} {w : σ}
    (hw : I w)
    (hf : ∀ rls a w', (buildPrimaryExtension cls env.allowedSiteIdsForSite options).settings =
      .ok rls → f rls w = .ok (a, w') → I w') :
    (prismaBuild cls env options >>= fun rls => Effect.attempt (f rls)).Leaves I w := by
  apply Effect.ReadOnly.leaves_bind (readOnly_prismaBuild _ _ _) hw
  intro rls hrls
  apply Effect.Atomic.leaves (Effect.atomic_attempt _) hw
  intro a w' hrun
  exact hf rls a w' (prismaBuild_eq_ok hrls) (Effect.attempt_eq_ok.mp hrun)

theorem prismaBuild_attempt_eq_ok {σ α : Type} {cls : Cls} {env : Env}
    {options : PrimaryExtensionOptions} {f : Settings → σ → Except ApiError (α × σ)} {w w' : σ}
    {a : α} : (prismaBuild cls env options >>= fun rls => Effect.attempt (f rls)).run w = (.ok a, w') ↔
      ∃ rls, (buildPrimaryExtension cls env.allowedSiteIdsForSite options).settings = .ok rls ∧
        f rls w = .ok (a, w') := by
  constructor
  · intro h
    obtain ⟨rls, u, hbuild, hf⟩ := Effect.bind_eq_ok.mp h
    obtain rfl := (readOnly_prismaBuild cls env options).ok hbuild
    exact ⟨rls, prismaBuild_eq_ok hbuild, Effect.attempt_eq_ok.mp hf⟩
  · intro h
    obtain ⟨rls, hrls, hf⟩ := h
    rw [prismaBuild_of_settings hrls, Effect.run_pure_bind]
    exact Effect.attempt_eq_ok.mpr hf

theorem atomic_prismaBuild_attempt {σ α : Type} (cls : Cls) (env : Env)
    (options : PrimaryExtensionOptions) (f : Settings → σ → Except ApiError (α × σ)) :
    (prismaBuild cls env options >>= fun rls => Effect.attempt (f rls)).Atomic :=
  (readOnly_prismaBuild cls env options).bind_atomic fun _ => Effect.atomic_attempt _

theorem after_prismaBuild_attempt {σ α : Type} {cls : Cls} {env : Env}
    {options : PrimaryExtensionOptions} {f : Settings → σ → Except ApiError (α × σ)} {w w' : σ}
    {rls : Settings}
    (hrls : (buildPrimaryExtension cls env.allowedSiteIdsForSite options).settings = .ok rls)
    (hf : ∃ a, f rls w = .ok (a, w')) :
    (prismaBuild cls env options >>= fun rls => Effect.attempt (f rls)).after w = w' := by
  obtain ⟨a, hf⟩ := hf
  have hrun : (prismaBuild cls env options >>= fun rls => Effect.attempt (f rls)).run w =
      (.ok a, w') := prismaBuild_attempt_eq_ok.mpr ⟨rls, hrls, hf⟩
  rw [Effect.after_of_run hrun]

/-- Where the bypass is off and there is a grant and a person, the queries run at the grant's
    client and nowhere else. -/
theorem prismaBuild_pure {σ : Type} {cls : Cls} {env : Env} {options : PrimaryExtensionOptions}
    {g : AccessGrant} {p : Person}
    (hoff : (buildPrimaryExtension cls env.allowedSiteIdsForSite options).bypassRLS = false)
    (hg : cls.accessGrant = some g) (hp : cls.person = some p) :
    ∃ s, (prismaBuild cls env options : Effect σ ApiError Settings) = pure s ∧ s.shouldBypassRls = false ∧
      ∀ c, s.validateClient c = decide (g.clientId = c) := by
  refine ⟨_, by
    unfold prismaBuild PrimaryExtension.settings
    rw [hoff]
    simp only [buildPrimaryExtension, hg, hp, buildRLSContextStatements, Bool.false_eq_true,
      if_false, bind, Except.bind, pure, Except.pure, List.foldl_cons, List.foldl_nil]
    rfl, ?_, fun c => ?_⟩
  · simp [Settings.shouldBypassRls, Settings.current, List.lookup_cons]
  · simp [Settings.validateClient, Settings.current, List.lookup_cons]

/-- Where the bypass is off, a client whose queries run has a grant and a person. -/
theorem prismaBuild_scoped {σ : Type} {cls : Cls} {env : Env} {options : PrimaryExtensionOptions}
    {w w' : σ} {s : Settings}
    (hoff : (buildPrimaryExtension cls env.allowedSiteIdsForSite options).bypassRLS = false)
    (hctx : options.rlsContext = none)
    (h : (prismaBuild cls env options).run w = (.ok s, w')) :
    ∃ g p, cls.accessGrant = some g ∧ cls.person = some p ∧ w' = w ∧
      s.shouldBypassRls = false ∧ ∀ c, s.validateClient c = decide (g.clientId = c) := by
  cases hg : cls.accessGrant with
  | none =>
    unfold prismaBuild PrimaryExtension.settings at h
    rw [hoff] at h
    simp [buildPrimaryExtension, hg, hctx, buildRLSContextStatements, Except.bind, bind] at h
  | some g =>
    cases hp : cls.person with
    | none =>
      unfold prismaBuild PrimaryExtension.settings at h
      rw [hoff] at h
      simp [buildPrimaryExtension, hg, hp, hctx, buildRLSContextStatements, Except.bind,
        bind] at h
    | some p =>
      obtain ⟨s', hpure, hs'⟩ := prismaBuild_pure hoff hg hp
      rw [hpure, Effect.run_pure] at h
      obtain ⟨hs, rfl⟩ := Prod.mk.inj h
      obtain rfl := Except.ok.inj hs
      exact ⟨g, p, rfl, rfl, rfl, hs'⟩

/-- Where the bypass is on, the queries see every row. -/
theorem prismaBuild_bypass {σ : Type} {cls : Cls} {env : Env} {options : PrimaryExtensionOptions}
    (hon : (buildPrimaryExtension cls env.allowedSiteIdsForSite options).bypassRLS = true) :
    (prismaBuild cls env options : Effect σ ApiError Settings) =
      pure [("app.bypass_rls", "on")] := by
  unfold prismaBuild PrimaryExtension.settings
  rw [hon]
  rfl

end ShieldApi
