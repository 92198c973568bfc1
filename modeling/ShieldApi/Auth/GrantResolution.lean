import ShieldApi.Auth.Cls

/-!
# Resolving an access grant

`AuthService.getAccessGrantForUserFromDatabase`: from a user's access rows and the context of
the request, the grant the request acts under, or the reason it is denied.

The context **selects** rows (`selectedRecords`): those of the requested client and site, else
the primary ones, else the first. What a grant holds is then put together from the selected
rows by `reduceAccessGrants`. Besides, three branches make a grant out of no row at all: for a
user with a `SYSTEM` role, and, in two places, for one whose email is in
`SYSTEM_ADMIN_EMAILS`. Those are for the intents `system` and `elevated`, and the second of
them does not ask for the intent (`BootstrapBranch`).

`fromDatabase_user` says what the method does under the intent `user`; `capability_source` and
`userIntent_iff` are what follows for the capabilities of a grant and for ephemeral grants.
-/

set_option autoImplicit false

namespace ShieldApi

/-! ## 1. Access records -/

/-- An access row with what the query selects of its client, site and role. -/
structure AccessRecord where
  isPrimary : Bool
  client : Client
  site : Site
  roleId : String
  role : Role
  deriving DecidableEq, Repr

/-- The row of a foreign key is there, so the lookups of a stored row always succeed. -/
def Db.accessRecord (db : Db) (a : PersonClientAccess) : Option AccessRecord := do
  let client ← db.clients.find? a.clientId
  let site ← db.sites.find? a.siteId
  let role ← db.roles.find? a.roleId
  return { isPrimary := a.isPrimary, client, site, roleId := a.roleId, role }

namespace AccessRecord

/-- What `reduceAccessGrants` is given for the record. -/
def grant (r : AccessRecord) : AccessGrant :=
  { scope := r.role.scope
    capabilities := r.role.capabilities
    clientId := r.client.id
    siteId := r.site.id
    roleId := r.role.id }

end AccessRecord

def Db.accessRecordsOf (env : Env) (user : StatelessUser) (db : Db) : List AccessRecord :=
  (env.accessOrder.findManyBy PersonClientAccess.primaryThenOldest (db.hasIdpId user.idpId)
    db.accesses.rows).filterMap db.accessRecord

/-! ## 2. The service -/

namespace AuthService

/-- `distinct: ['roleId']`: the first row of each role. -/
def distinctRoleIds : List PersonClientAccess → List PersonClientAccess :=
  List.eraseDupsBy fun a b => a.roleId == b.roleId

/-- The more permissive of two roles; the first one if they are alike. -/
def morePermissive (mostPermissive current : Role) : Role :=
  if current.scope ≠ mostPermissive.scope && isScopeAtLeast current.scope mostPermissive.scope then
    current
  else if current.scope = mostPermissive.scope &&
      current.capabilities.length > mostPermissive.capabilities.length then
    current
  else mostPermissive

def getMostPermissiveRole (env : Env) (user : StatelessUser) (scopeAtLeast : RoleScope)
    (db : Db) : Option Role :=
  let allowedScopes := getScopesAtLeast scopeAtLeast
  let rows := env.accessOrder.findMany
    (fun a => db.hasIdpId user.idpId a &&
      (db.roles.find? a.roleId).any fun r => allowedScopes.contains r.scope)
    db.accesses.rows
  match (distinctRoleIds rows).filterMap fun a => db.roles.find? a.roleId with
  | [] => none
  | first :: rest => some ((first :: rest).foldl morePermissive first)

def getSystemAdminAccessGrant (env : Env) (user : StatelessUser) (clientId : String)
    (siteId : Option String) (db : Db) : Option AccessGrant := do
  let userSystemRole ← getMostPermissiveRole env user .system db
  let siteId ← truthy
    (match truthy siteId with
    | some siteId => some siteId
    | none =>
      (env.siteOrder.findFirstBy Site.primaryThenOldest (·.clientId = clientId)
        db.sites.rows).map (·.id))
  return {
    scope := userSystemRole.scope
    capabilities := userSystemRole.capabilities
    clientId
    siteId
    roleId := userSystemRole.id }

def userIsDefaultSystemAdmin (cfg : Config) (user : StatelessUser) : Bool :=
  cfg.systemAdminEmails.contains (cfg.toLowerCase user.email)

def clientInactive (ctx : AccessContext) : AccessGrantResult :=
  .denied .clientInactive
    "The organization you are trying to access is not currently activated. Please contact support to reactivate your account."
    { requestedClientId := ctx.requestedClientId, requestedSiteId := ctx.requestedSiteId }

def siteInactive (ctx : AccessContext) : AccessGrantResult :=
  .denied .siteInactive
    "The site you are trying to access is not currently active. Please contact support to reactivate your account."
    { requestedClientId := ctx.requestedClientId, requestedSiteId := ctx.requestedSiteId }

def validateAndBuildAccessGrantResult (accessRecords : List AccessRecord)
    (ctx : AccessContext) : Except ApiError AccessGrantResult := do
  let grant ← reduceAccessGrants (accessRecords.map (·.grant))
  -- no activation is required from `GLOBAL` on
  if grant.scopeAllows .global then return .granted grant
  match accessRecords.find? fun r => r.client.id = grant.clientId && r.site.id = grant.siteId with
  | none =>
    throw (.error
      "An error occurred while authenticating your request. Please contact support.")
  | some r =>
    if r.client.status ≠ .active then return clientInactive ctx
    if grant.scopeAllows .client then return .granted grant
    if !r.site.active then return siteInactive ctx
    return .granted grant

def ephemeralGrant (clientId siteId : String) : AccessGrant :=
  { scope := .system
    capabilities := validCapabilities
    clientId
    siteId
    roleId := "ephemeral-system-admin" }

/-- `accessRecord` is one of the requested client, and of the requested site if there is one. -/
def isRequested (clientId : String) (siteId : Option String) (r : AccessRecord) : Bool :=
  r.client.id = clientId && (truthy siteId).all (r.site.id = ·)

def accessGrantRequestDenied (ctx : AccessContext) (primary : Option AccessRecord) :
    AccessGrantResult :=
  .denied .accessGrantRequestDenied
    "You do not have access to the requested organization or site. If you have received an invitation, please accept it to gain access."
    { requestedClientId := ctx.requestedClientId
      requestedSiteId := ctx.requestedSiteId
      primaryClientId := primary.map (·.client.id)
      primarySiteId := primary.map (·.site.id)
      primaryRoleId := primary.map (·.roleId) }

def noAccessGrant : AccessGrantResult :=
  .denied .noAccessGrant
    "You do not have access to any organizations. If you have received an invitation, please accept it to gain access."
    {}

/-- The method from its access-record query on, for a requested client. -/
def requestedClientResult (cfg : Config) (user : StatelessUser) (ctx : AccessContext)
    (clientId : String) (accessRecords : List AccessRecord) : Except ApiError AccessGrantResult :=
  let requestedAccessRecords := accessRecords.filter (isRequested clientId ctx.requestedSiteId)
  if requestedAccessRecords.isEmpty then
    if userIsDefaultSystemAdmin cfg user then
      return .granted (ephemeralGrant clientId (ctx.requestedSiteId.getD ""))
    else
      return accessGrantRequestDenied ctx (accessRecords.find? (·.isPrimary))
  else validateAndBuildAccessGrantResult requestedAccessRecords ctx

/-- The same where no client is requested. -/
def defaultResult (cfg : Config) (user : StatelessUser) (ctx : AccessContext)
    (accessRecords : List AccessRecord) : Except ApiError AccessGrantResult :=
  let primaryAccessRecords := accessRecords.filter (·.isPrimary)
  if !primaryAccessRecords.isEmpty then
    validateAndBuildAccessGrantResult primaryAccessRecords ctx
  else if !accessRecords.isEmpty then
    validateAndBuildAccessGrantResult (accessRecords.take 1) ctx
  else if ctx.accessIntent.getD .user ≠ .user && userIsDefaultSystemAdmin cfg user then
    return .granted (ephemeralGrant "" "")
  else return noAccessGrant

def getAccessGrantForUserFromDatabase (cfg : Config) (env : Env) (user : StatelessUser)
    (ctx : AccessContext) (db : Db) : Except ApiError AccessGrantResult :=
  let accessIntent := ctx.accessIntent.getD .user
  match truthy ctx.requestedClientId with
  | none => defaultResult cfg user ctx (db.accessRecordsOf env user)
  | some clientId =>
    let systemAdminAccessGrant :=
      if accessIntent ≠ .user then
        getSystemAdminAccessGrant env user clientId ctx.requestedSiteId db
      else none
    match systemAdminAccessGrant with
    | some grant => return .granted grant
    | none => requestedClientResult cfg user ctx clientId (db.accessRecordsOf env user)

/-! ## 3. What a grant is built from -/

/-- The records a context selects. -/
def selectedRecords (ctx : AccessContext) (accessRecords : List AccessRecord) :
    List AccessRecord :=
  match truthy ctx.requestedClientId with
  | some clientId => accessRecords.filter (isRequested clientId ctx.requestedSiteId)
  | none =>
    let primaryAccessRecords := accessRecords.filter (·.isPrimary)
    if primaryAccessRecords.isEmpty then accessRecords.take 1 else primaryAccessRecords

/-- What the method answers when the context selects nothing and mints nothing. -/
def deniedResult (ctx : AccessContext) (accessRecords : List AccessRecord) : AccessGrantResult :=
  match truthy ctx.requestedClientId with
  | some _ => accessGrantRequestDenied ctx (accessRecords.find? (·.isPrimary))
  | none => noAccessGrant

/-- The branch for a bootstrap admin who requests a client: there is no record for it. -/
def BootstrapBranch (cfg : Config) (env : Env) (user : StatelessUser) (ctx : AccessContext)
    (db : Db) : Prop :=
  (truthy ctx.requestedClientId).isSome = true ∧
    selectedRecords ctx (db.accessRecordsOf env user) = [] ∧
    userIsDefaultSystemAdmin cfg user = true

theorem selectedRecords_subset {ctx : AccessContext} {accessRecords : List AccessRecord} :
    ∀ r ∈ selectedRecords ctx accessRecords, r ∈ accessRecords := by
  intro r hr
  unfold selectedRecords at hr
  split at hr
  · exact List.mem_of_mem_filter hr
  · simp only at hr
    split at hr
    · exact List.mem_of_mem_take hr
    · exact List.mem_of_mem_filter hr

theorem selectedRecords_requested {ctx : AccessContext} {accessRecords : List AccessRecord}
    {clientId : String} (h : truthy ctx.requestedClientId = some clientId) :
    ∀ r ∈ selectedRecords ctx accessRecords, r.client.id = clientId ∧
      ∀ siteId, truthy ctx.requestedSiteId = some siteId → r.site.id = siteId := by
  intro r hr
  unfold selectedRecords at hr
  rw [h] at hr
  have hreq := (List.mem_filter.mp hr).2
  simp only [isRequested, Bool.and_eq_true, decide_eq_true_eq] at hreq
  refine ⟨hreq.1, fun siteId hs => ?_⟩
  rw [hs] at hreq
  simpa using hreq.2

/-- Under the intent `user`, the method builds its result from the selected records. -/
theorem fromDatabase_user {cfg : Config} {env : Env} {user : StatelessUser} {ctx : AccessContext}
    {db : Db} (hintent : ctx.accessIntent.getD .user = .user)
    (hboot : ¬ BootstrapBranch cfg env user ctx db) :
    getAccessGrantForUserFromDatabase cfg env user ctx db =
      if selectedRecords ctx (db.accessRecordsOf env user) = [] then
        .ok (deniedResult ctx (db.accessRecordsOf env user))
      else validateAndBuildAccessGrantResult
        (selectedRecords ctx (db.accessRecordsOf env user)) ctx := by
  unfold BootstrapBranch at hboot
  unfold getAccessGrantForUserFromDatabase
  generalize db.accessRecordsOf env user = records at hboot ⊢
  unfold selectedRecords deniedResult at *
  cases hc : truthy ctx.requestedClientId with
  | some clientId =>
    simp only [hc, Option.isSome_some, true_and] at hboot
    simp only [hintent, ne_eq, not_true_eq_false, if_false, requestedClientResult,
      List.isEmpty_iff]
    by_cases hnil : records.filter (isRequested clientId ctx.requestedSiteId) = []
    · have hadmin : ¬ userIsDefaultSystemAdmin cfg user = true := fun h => hboot ⟨hnil, h⟩
      rw [if_pos hnil, if_neg hadmin, if_pos hnil]
      rfl
    · rw [if_neg hnil, if_neg hnil]
  | none =>
    simp only [defaultResult, hintent, ne_eq, not_true_eq_false, decide_false, Bool.false_and,
      Bool.false_eq_true, if_false, Bool.not_eq_true', List.isEmpty_iff, List.isEmpty_eq_false_iff]
    by_cases hprim : records.filter (·.isPrimary) = []
    · rw [if_neg (fun h => h hprim), if_pos hprim]
      cases records with
      | nil => rfl
      | cons r rs => rfl
    · rw [if_pos hprim, if_neg hprim, if_neg hprim]

/-- The client and the site of the record are those of the grant. -/
def AtPlace (grant : AccessGrant) (r : AccessRecord) : Prop :=
  r.client.id = grant.clientId ∧ r.site.id = grant.siteId

/-- The answer, given the grant and a record of its place. -/
def activationResult (ctx : AccessContext) (grant : AccessGrant) (r : AccessRecord) :
    AccessGrantResult :=
  if grant.scopeAllows .global then .granted grant
  else if r.client.status ≠ .active then clientInactive ctx
  else if grant.scopeAllows .client then .granted grant
  else if !r.site.active then siteInactive ctx
  else .granted grant

/-- **The record that gave the grant its place is found again**, so the method does not throw. -/
theorem validateAndBuild_eq {records : List AccessRecord} (hne : records ≠ [])
    (ctx : AccessContext) : ∃ grant, reduceAccessGrants (records.map (·.grant)) = .ok grant ∧
      ∃ r ∈ records, AtPlace grant r ∧
        validateAndBuildAccessGrantResult records ctx = .ok (activationResult ctx grant r) := by
  obtain ⟨r₀, rs, rfl⟩ := List.exists_cons_of_ne_nil hne
  obtain ⟨grant, hgrant⟩ := reduceAccessGrants_cons r₀.grant (rs.map (·.grant))
  obtain ⟨⟨g₀, hg₀, hplace⟩, -, -⟩ := reduceAccessGrants_spec hgrant
  obtain ⟨r, hr, rfl⟩ := List.mem_map.mp (List.map_cons ▸ hg₀)
  obtain ⟨r', hr'⟩ : ∃ r', (r₀ :: rs).find? (fun r =>
      decide (r.client.id = grant.clientId) && decide (r.site.id = grant.siteId)) = some r' := by
    refine Option.isSome_iff_exists.mp (List.find?_isSome.mpr ⟨r, hr, ?_⟩)
    rw [hplace.1, hplace.2.1]
    simp [AccessRecord.grant]
  have hat : AtPlace grant r' := by
    have hfound := List.find?_some hr'
    simpa [AtPlace] using hfound
  refine ⟨grant, hgrant, r', List.mem_of_find?_eq_some hr', hat, ?_⟩
  simp only [validateAndBuildAccessGrantResult, List.map_cons, hgrant, bind, Except.bind, hr',
    pure, Except.pure, activationResult]
  split
  · rfl
  split
  · rfl
  split
  · rfl
  split <;> rfl

theorem activationResult_granted {ctx : AccessContext} {grant g : AccessGrant} {r : AccessRecord}
    (h : activationResult ctx grant r = .granted g) : g = grant := by
  unfold activationResult clientInactive siteInactive at h
  repeat' split at h
  all_goals first
    | exact (AccessGrantResult.granted.inj h).symm
    | exact (nomatch h)

/-- **What `validateAndBuildAccessGrantResult` answers:** it does not throw on a record, and a
    grant has the place, the role and the scope of one record and the capabilities of all. -/
theorem validateAndBuild_spec {records : List AccessRecord} (hne : records ≠ [])
    (ctx : AccessContext) :
    ∃ result, validateAndBuildAccessGrantResult records ctx = .ok result ∧
      ∀ g, result = .granted g →
        (∃ r ∈ records, g.SamePlace r.grant) ∧
          (∀ r ∈ records, isScopeAtLeast g.scope r.role.scope = true) ∧
          ∀ c, c ∈ g.capabilities ↔ ∃ r ∈ records, c ∈ r.role.capabilities := by
  obtain ⟨grant, hgrant, r, -, -, hresult⟩ := validateAndBuild_eq hne ctx
  refine ⟨_, hresult, fun g hg => ?_⟩
  obtain rfl := activationResult_granted hg
  obtain ⟨⟨g₀, hg₀, hplace⟩, hwide, hcaps⟩ := reduceAccessGrants_spec hgrant
  obtain ⟨r', hr', rfl⟩ := List.mem_map.mp hg₀
  refine ⟨⟨r', hr', hplace⟩, fun k hk => hwide _ (List.mem_map_of_mem hk), fun c => ?_⟩
  rw [hcaps c]
  simp only [List.mem_map, exists_exists_and_eq_and]
  rfl

/-! ## 4. Where a capability comes from -/

end AuthService

/-- `r` is one of the user's access rows, with its client, site and role. -/
def Db.IsRecordOf (db : Db) (user : StatelessUser) (r : AccessRecord) : Prop :=
  ∃ a ∈ db.accesses, db.hasIdpId user.idpId a = true ∧ db.accessRecord a = some r

theorem mem_accessRecordsOf {env : Env} {user : StatelessUser} {db : Db} {r : AccessRecord} :
    r ∈ db.accessRecordsOf env user ↔ db.IsRecordOf user r := by
  unfold Db.accessRecordsOf Db.IsRecordOf
  simp only [List.mem_filterMap, RowOrder.mem_findManyBy, and_assoc, Table.mem_rows]

/-- Following `parentSiteId` upwards from `siteId` leads to `ancestorId`. -/
inductive Db.IsDescendant (db : Db) (ancestorId : String) : String → Prop
  | child {s : Site} (hs : s ∈ db.sites) (hp : s.parentSiteId = some ancestorId) :
    db.IsDescendant ancestorId s.id
  | step {s : Site} {parentId : String} (hs : s ∈ db.sites) (hp : s.parentSiteId = some parentId)
    (h : db.IsDescendant ancestorId parentId) : db.IsDescendant ancestorId s.id

/-- The row reaches the grant's client and site. -/
def AccessRecord.Covers (db : Db) (r : AccessRecord) (g : AccessGrant) : Prop :=
  r.client.id = g.clientId ∧
    (r.site.id = g.siteId ∨ isScopeAtLeast r.role.scope .client = true ∨
      (r.role.scope = .siteGroup ∧ db.IsDescendant r.site.id g.siteId))

/-- All the records are at one client and site. -/
def OnePlace (records : List AccessRecord) : Prop :=
  ∀ r ∈ records, ∀ r' ∈ records, r.client.id = r'.client.id ∧ r.site.id = r'.site.id

namespace AuthService

section UserIntent

variable {cfg : Config} {env : Env} {user : StatelessUser} {ctx : AccessContext} {db : Db}

theorem onePlace_of_requested {records : List AccessRecord} {clientId siteId : String}
    (hc : truthy ctx.requestedClientId = some clientId)
    (hs : truthy ctx.requestedSiteId = some siteId) : OnePlace (selectedRecords ctx records) := by
  intro r hr r' hr'
  obtain ⟨hrc, hrs⟩ := selectedRecords_requested hc r hr
  obtain ⟨hrc', hrs'⟩ := selectedRecords_requested hc r' hr'
  exact ⟨hrc.trans hrc'.symm, (hrs siteId hs).trans (hrs' siteId hs).symm⟩

/-- What a grant under the intent `user` is made of. -/
theorem granted_user {g : AccessGrant} (hintent : ctx.accessIntent.getD .user = .user)
    (hboot : ¬ BootstrapBranch cfg env user ctx db)
    (h : getAccessGrantForUserFromDatabase cfg env user ctx db = .ok (.granted g)) :
    (∃ r ∈ selectedRecords ctx (db.accessRecordsOf env user), g.SamePlace r.grant) ∧
      ∀ c, c ∈ g.capabilities ↔
        ∃ r ∈ selectedRecords ctx (db.accessRecordsOf env user), c ∈ r.role.capabilities := by
  rw [fromDatabase_user hintent hboot] at h
  split at h
  · unfold deniedResult at h
    split at h <;> simp [accessGrantRequestDenied, noAccessGrant] at h
  · rename_i hne
    obtain ⟨result, hresult, hgrant⟩ := validateAndBuild_spec hne ctx
    rw [hresult] at h
    obtain ⟨hplace, -, hcaps⟩ := hgrant g (Except.ok.inj h)
    exact ⟨hplace, hcaps⟩

/-- **A granted capability is held by a row the context selects**, at the grant's client if a
    client is requested, and at the grant's place if the context selects one place. -/
theorem capability_source {g : AccessGrant} {c : String}
    (hintent : ctx.accessIntent.getD .user = .user)
    (hboot : ¬ BootstrapBranch cfg env user ctx db)
    (h : getAccessGrantForUserFromDatabase cfg env user ctx db = .ok (.granted g))
    (hc : c ∈ g.capabilities) :
    ∃ r ∈ selectedRecords ctx (db.accessRecordsOf env user), db.IsRecordOf user r ∧
      c ∈ r.role.capabilities ∧
      ((truthy ctx.requestedClientId).isSome = true → r.client.id = g.clientId) ∧
      ((truthy ctx.requestedClientId).isSome = true ∧ (truthy ctx.requestedSiteId).isSome = true ∨
          OnePlace (selectedRecords ctx (db.accessRecordsOf env user)) →
        r.Covers db g) := by
  obtain ⟨⟨r₀, hr₀, hplace⟩, hcaps⟩ := granted_user hintent hboot h
  obtain ⟨r, hr, hcr⟩ := (hcaps c).mp hc
  refine ⟨r, hr, mem_accessRecordsOf.mp (selectedRecords_subset r hr), hcr, fun hclient => ?_,
    fun hone => ?_⟩
  · obtain ⟨clientId, hclient⟩ := Option.isSome_iff_exists.mp hclient
    have hrc := (selectedRecords_requested hclient r hr).1
    have hrc₀ := (selectedRecords_requested hclient r₀ hr₀).1
    exact hrc.trans (hrc₀.symm.trans hplace.1.symm)
  · have hone : OnePlace (selectedRecords ctx (db.accessRecordsOf env user)) := by
      rcases hone with ⟨hclient, hsite⟩ | hone
      · obtain ⟨clientId, hclient⟩ := Option.isSome_iff_exists.mp hclient
        obtain ⟨siteId, hsite⟩ := Option.isSome_iff_exists.mp hsite
        exact onePlace_of_requested hclient hsite
      · exact hone
    obtain ⟨hclient, hsite⟩ := hone r hr r₀ hr₀
    exact ⟨hclient.trans hplace.1.symm, .inl (hsite.trans hplace.2.1.symm)⟩

/-- A grant has the place, the role and the scope of a row of the user and capabilities of
    their rows, and where no row matches the context there is no grant. -/
def GrantsFromRows (cfg : Config) (env : Env) (user : StatelessUser) (ctx : AccessContext)
    (db : Db) : Prop :=
  (∀ g, getAccessGrantForUserFromDatabase cfg env user ctx db = .ok (.granted g) →
      (∃ r, db.IsRecordOf user r ∧ g.SamePlace r.grant) ∧
        ∀ c ∈ g.capabilities, ∃ r, db.IsRecordOf user r ∧ c ∈ r.role.capabilities) ∧
    (selectedRecords ctx (db.accessRecordsOf env user) = [] →
      ∃ reason message details,
        getAccessGrantForUserFromDatabase cfg env user ctx db =
          .ok (.denied reason message details))

/-- In its branch, a bootstrap admin gets a grant. -/
theorem bootstrap_granted (hintent : ctx.accessIntent.getD .user = .user)
    (hboot : BootstrapBranch cfg env user ctx db) :
    ∃ g, getAccessGrantForUserFromDatabase cfg env user ctx db = .ok (.granted g) := by
  obtain ⟨hclient, hnil, hadmin⟩ := hboot
  obtain ⟨clientId, hclient⟩ := Option.isSome_iff_exists.mp hclient
  unfold selectedRecords at hnil
  simp only [hclient] at hnil
  refine ⟨ephemeralGrant clientId (ctx.requestedSiteId.getD ""), ?_⟩
  simp only [getAccessGrantForUserFromDatabase, hclient, hintent, ne_eq, not_true_eq_false,
    if_false, requestedClientResult, hnil, List.isEmpty_nil, if_true, hadmin]
  rfl

/-- **When the intent `user` yields no ephemeral grant:** always, except in the bootstrap
    branch of a requested client. -/
theorem userIntent_iff (hintent : ctx.accessIntent.getD .user = .user) :
    GrantsFromRows cfg env user ctx db ↔ ¬ BootstrapBranch cfg env user ctx db := by
  constructor
  · rintro ⟨-, hdenied⟩ hboot
    obtain ⟨g, hg⟩ := bootstrap_granted hintent hboot
    obtain ⟨reason, message, details, hd⟩ := hdenied hboot.2.1
    rw [hg] at hd
    exact absurd (Except.ok.inj hd) (by simp)
  · intro hboot
    refine ⟨fun g hg => ?_, fun hnil => ?_⟩
    · obtain ⟨⟨r, hr, hplace⟩, hcaps⟩ := granted_user hintent hboot hg
      have hrow : ∀ r ∈ selectedRecords ctx (db.accessRecordsOf env user), db.IsRecordOf user r :=
        fun r hr => mem_accessRecordsOf.mp (selectedRecords_subset r hr)
      refine ⟨⟨r, hrow r hr, hplace⟩, fun c hc => ?_⟩
      obtain ⟨r', hr', hc⟩ := (hcaps c).mp hc
      exact ⟨r', hrow r' hr', hc⟩
    · rw [fromDatabase_user hintent hboot, if_pos hnil]
      unfold deniedResult
      split
      · exact ⟨_, _, _, rfl⟩
      · exact ⟨_, _, _, rfl⟩

end UserIntent

end AuthService

/-! ## 5. Two roles at two sites, and a bootstrap admin -/

/-- `p` inspects at one site of `acme` and manages users at another. -/
def twoSites : Db where
  clients := ⟨[{ id := "acme", externalId := "x-acme", status := .active }], by decide⟩
  sites := ⟨[{ id := "north", externalId := "x-north", createdOn := 0, clientId := "acme" },
    { id := "south", externalId := "x-south", createdOn := 0, clientId := "acme" }], by decide⟩
  roles := ⟨[{ id := "inspector", name := "Inspector", capabilities := ["perform-inspections"] },
    { id := "manager", name := "Manager", capabilities := ["manage-users"] }], by decide⟩
  persons := ⟨[{ id := "p", firstName := "P", lastName := "P", email := "p@x.org",
                 idpId := some "idp-p" }], by decide⟩
  accesses := ⟨[{ createdOn := 0, isPrimary := true, personId := "p", clientId := "acme",
                  siteId := "north", roleId := "manager" },
    { createdOn := 1, personId := "p", clientId := "acme", siteId := "south",
      roleId := "inspector" }], by decide⟩

def userP : StatelessUser := { idpId := "idp-p", email := "p@x.org", username := "p" }

def atAcme : AccessContext := { requestedClientId := some "acme", accessIntent := some .user }

/-- The grant is for the site `south`, where nobody gave `p` the right to manage users. -/
def southGrant : AccessGrant :=
  { roleId := "inspector", scope := .site, capabilities := ["manage-users", "perform-inspections"],
    clientId := "acme", siteId := "south" }

theorem twoSites_granted : AuthService.getAccessGrantForUserFromDatabase {} {} userP atAcme
    twoSites = .ok (.granted southGrant) := by decide

theorem twoSites_noBootstrap : ¬ AuthService.BootstrapBranch {} {} userP atAcme twoSites :=
  fun h => absurd h.2.2 (by decide)

theorem twoSites_amplifies :
    AuthService.getAccessGrantForUserFromDatabase {} {} userP atAcme twoSites =
        .ok (.granted southGrant) ∧
      ¬ AuthService.BootstrapBranch {} {} userP atAcme twoSites ∧
      "manage-users" ∈ southGrant.capabilities ∧
      ∀ r, twoSites.IsRecordOf userP r → "manage-users" ∈ r.role.capabilities →
        ¬ r.Covers twoSites southGrant := by
  refine ⟨twoSites_granted, twoSites_noBootstrap, by decide, fun r hr hc hcov => ?_⟩
  have hmem : r ∈ twoSites.accessRecordsOf {} userP := mem_accessRecordsOf.mpr hr
  have hrecords : (twoSites.accessRecordsOf {} userP).map
      (fun r => (r.site.id, r.role.scope, r.role.capabilities)) =
      [("north", .site, ["manage-users"]), ("south", .site, ["perform-inspections"])] := by decide
  have hr := List.mem_map_of_mem (f := fun r : AccessRecord =>
    (r.site.id, r.role.scope, r.role.capabilities)) hmem
  rw [hrecords] at hr
  simp only [List.mem_cons, Prod.mk.injEq, List.not_mem_nil, or_false] at hr
  rcases hr with ⟨hsite, hscope, -⟩ | ⟨-, -, hcaps⟩
  · rcases hcov.2 with h | h | ⟨h, -⟩
    · exact absurd (hsite.symm.trans h) (by decide)
    · exact absurd (hscope ▸ h) (by decide)
    · exact absurd (hscope.symm.trans h) (by decide)
  · exact absurd (hcaps ▸ hc) (by decide)

theorem capability_source_twoSites :
    ∃ r ∈ AuthService.selectedRecords atAcme (twoSites.accessRecordsOf {} userP),
      twoSites.IsRecordOf userP r ∧ "manage-users" ∈ r.role.capabilities ∧
      ((truthy atAcme.requestedClientId).isSome = true → r.client.id = southGrant.clientId) ∧
      ((truthy atAcme.requestedClientId).isSome = true ∧
          (truthy atAcme.requestedSiteId).isSome = true ∨
        OnePlace (AuthService.selectedRecords atAcme (twoSites.accessRecordsOf {} userP)) →
        r.Covers twoSites southGrant) :=
  AuthService.capability_source rfl twoSites_noBootstrap twoSites_granted (by decide)

/-- A configuration in which `p` is a bootstrap admin. -/
def bootstrapP : Config := { systemAdminEmails := ["p@x.org"] }

/-- A client `p` has no row at. -/
def atBolt : AccessContext := { requestedClientId := some "bolt", accessIntent := some .user }

theorem atBolt_mints :
    atBolt.accessIntent.getD .user = .user ∧
      ¬ AuthService.GrantsFromRows bootstrapP {} userP atBolt twoSites := by
  refine ⟨rfl, fun ⟨_, hdenied⟩ => ?_⟩
  obtain ⟨_, _, _, h⟩ := hdenied (by decide)
  have hgrant : AuthService.getAccessGrantForUserFromDatabase bootstrapP {} userP atBolt twoSites =
      .ok (.granted (AuthService.ephemeralGrant "bolt" "")) := by decide
  rw [hgrant] at h
  exact absurd (Except.ok.inj h) (by simp)

theorem userIntent_iff_atBolt :
    AuthService.GrantsFromRows bootstrapP {} userP atBolt twoSites ↔
      ¬ AuthService.BootstrapBranch bootstrapP {} userP atBolt twoSites :=
  AuthService.userIntent_iff rfl

end ShieldApi
