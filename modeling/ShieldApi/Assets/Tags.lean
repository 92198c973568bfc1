import ShieldApi.Assets.InspectionToken

/-!
# Registering a tag

`checkRegistration` and `registerTag` of `assets/tags/tags.service.ts`. A tag without a client is
unregistered, and row-level security hides it from everybody; whoever registers it first gives
it their client and site **with the policies off**, and then updates it under their own.

`registerTag` is not one transaction. It reads the tag, assigns it, and updates it, and between
any two of these another call may run. `registerBegin` and `registerStep` are those pieces, and
`registerFrom_eq` says that the method is their sequence.
-/

set_option autoImplicit false

namespace ShieldApi

open Effect

structure RegisterTagDto where
  asset : String
  site : Option String := none
  client : Option String := none
  deriving DecidableEq, Repr

/-! ## 1. Queries -/

/-- Prisma refuses a unique lookup whose only field is undefined. -/
def ApiError.emptyWhere (model : String) : ApiError :=
  .error ("Argument where of type " ++ model ++ "WhereUniqueInput needs at least one unique field")

def Tag.setPlace (clientId siteId : Option String) (t : Tag) : Tag := { t with clientId, siteId }

def Asset.setTag (tagId : Option String) (a : Asset) : Asset := { a with tagId }

@[simp] theorem Tag.id_setPlace (clientId siteId : Option String) (t : Tag) :
    (t.setPlace clientId siteId).id = t.id := rfl

@[simp] theorem Asset.id_setTag (tagId : Option String) (a : Asset) : (a.setTag tagId).id = a.id :=
  rfl

namespace AssetWorld

def withTags (w : AssetWorld) (t : Table Tag String Tag.id) : AssetWorld := { w with tags := t }

def withAssets (w : AssetWorld) (t : Table Asset String Asset.id) : AssetWorld :=
  { w with assets := t }

@[simp] theorem withTags_tags (w : AssetWorld) (t : Table Tag String Tag.id) :
    (w.withTags t).tags = t := rfl

@[simp] theorem withAssets_tags (w : AssetWorld) (t : Table Asset String Asset.id) :
    (w.withAssets t).tags = w.tags := rfl

end AssetWorld

namespace TagsService

def findTagByExternalId (externalId : Option String) : AssetApi (Option Tag) := do
  let externalId ← orRaise (.emptyWhere "Tag") externalId
  query fun w => w.tags.rows.find? (·.externalId = externalId)

/-- `connect` of a client and a site: both have to be in sight. -/
def canConnect (rls : Settings) (client site : Option String) (w : AssetWorld) : Bool :=
  client.all (fun c => (w.core.clients.find? c).isSome && rls.seesClient c) &&
    site.all fun s => (w.core.sites.find? s).any rls.seesSite

/-- `asset: { connect: { id } }` of a tag: the asset takes the tag over from another one. -/
def connectAsset (rls : Settings) (tagId assetId : String) (w : AssetWorld) :
    Except ApiError AssetWorld :=
  match (w.assets.find? assetId).filter fun a => rls.seesPlace a.clientId a.siteId with
  | none => .error .recordNotFound
  | some _ =>
    let released := w.assets.updateMany
      (fun a => a.tagId = some tagId && rls.seesPlace a.clientId a.siteId) (.setTag none)
      (Asset.id_setTag none)
    -- an asset out of sight keeps the tag, and the column is unique
    if released.rows.any fun a => a.tagId = some tagId then .error .uniqueConstraint
    else
      .ok (w.withAssets (released.updateMany (·.id = assetId) (.setTag (some tagId))
        (Asset.id_setTag _)))

/-- `prisma.tag.update({ where: { id }, data: { ...dto, client } })`. -/
def updateTag (rls : Settings) (id : String) (client : Option String) (dto : RegisterTagDto) :
    AssetApi Tag :=
  attempt fun w =>
    match (w.tags.find? id).filter rls.seesTag with
    | none => .error .recordNotFound
    | some tag =>
      if canConnect rls client dto.site w then
        let new := tag.setPlace (client.or tag.clientId) (dto.site.or tag.siteId)
        if rls.seesTag new then
          (connectAsset rls id dto.asset (w.withTags (w.tags.updateMany (·.id = id)
            (.setPlace new.clientId new.siteId) (Tag.id_setPlace _ _)))).map (new, ·)
        else .error (.rowLevelSecurity "Tag")
      else .error .recordNotFound

/-- `prisma.tag.create`, of a tag whose client and site are given by id. -/
def createTag (rls : Settings) (tag : Tag) (assetId : String) : AssetApi Tag :=
  attempt fun w =>
    if w.tags.rows.any (·.externalId = tag.externalId) then .error .uniqueConstraint
    else match w.tags.insert? tag with
      | none => .error .uniqueConstraint
      | some t =>
        if tag.clientId.all (fun c => (w.core.clients.find? c).isSome) &&
            tag.siteId.all (fun s => (w.core.sites.find? s).isSome) then
          if rls.seesTag tag then (connectAsset rls tag.id assetId (w.withTags t)).map (tag, ·)
          else .error (.rowLevelSecurity "Tag")
        else .error .foreignKeyConstraint

/-- The assignment of a tag that has no client or no site, with the policies off. -/
def assignTag (id clientId siteId : String) : AssetApi Unit :=
  attempt fun w =>
    if (w.tags.find? id).isNone then .error .recordNotFound
    else if (w.core.clients.find? clientId).isSome && (w.core.sites.find? siteId).isSome then
      .ok ((), w.withTags (w.tags.updateMany (·.id = id)
        (.setPlace (some clientId) (some siteId)) (Tag.id_setPlace _ _)))
    else .error .foreignKeyConstraint

/-- The assignment goes through: the client and the site it writes are there. -/
def AssignRefs (w : AssetWorld) (clientId siteId : String) : Prop :=
  (w.core.clients.find? clientId).isSome = true ∧ (w.core.sites.find? siteId).isSome = true

/-! ## 2. `registerTag` -/

/-- The upsert of a system admin who names the client. -/
def upsertAsSystemAdmin (env : Env) (t : InspectionToken) (client : String)
    (dto : RegisterTagDto) : AssetApi Tag := do
  match ← findTagByExternalId t.tagExternalId with
  | some tag => updateTag bypassRLS tag.id (some client) dto
  | none =>
    let ok ← query (canConnect bypassRLS (some client) dto.site)
    raiseIf (!ok) .recordNotFound
    createTag bypassRLS
      { id := env.cuid 0
        externalId := textOrUndefined t.tagExternalId
        serialNumber := t.serialNumber
        clientId := some client
        siteId := dto.site }
      dto.asset

/-- What a call holds after its lookup. -/
structure Registration where
  rls : Settings
  context : RlsContext
  externalId : String
  serialNumber : String
  dto : RegisterTagDto

inductive RegisterPhase
  | assign (existingTag : Tag)
  | update (existingTag : Tag)
  | create
  deriving DecidableEq, Repr

def actingAsSystemAdmin (cls : Cls) (accessGrant : AccessGrant) : Bool :=
  accessGrant.scope = .system && cls.accessIntent = .system

def unknownPerson : ApiError :=
  .forbidden "Unable to find a valid user account for your user. Please contact your administrator to ensure your account is properly configured."

/-- The method up to and including its lookup of the existing tag. -/
def registerLookup (cls : Cls) (env : Env) (t : InspectionToken) (dto : RegisterTagDto) :
    AssetApi (Registration × RegisterPhase) := do
  let existingTag ← findTagByExternalId t.tagExternalId
  let context ← orRaise unknownPerson
    (buildPrimaryExtension cls env.allowedSiteIdsForSite {}).rlsContext
  let rls ← prismaBuild cls env {}
  let registration : Registration :=
    { rls, context, externalId := textOrUndefined t.tagExternalId
      serialNumber := t.serialNumber, dto }
  pure (registration,
    match existingTag with
    | some tag =>
      if tag.clientId = none || tag.siteId = none then .assign tag else .update tag
    | none => .create)

def registerBegin (crypto : TokenCrypto) (cls : Cls) (env : Env) (token : String)
    (dto : RegisterTagDto) : AssetApi ((Registration × RegisterPhase) ⊕ Tag) := do
  let accessGrant ← cls.requireAccessGrant
  let t := parseInspectionToken crypto token
  match if actingAsSystemAdmin cls accessGrant then dto.client else none with
  | some client => do
    let tag ← upsertAsSystemAdmin env t client dto
    pure (.inr tag)
  | none => do
    let begun ← registerLookup cls env t dto
    pure (.inl begun)

/-- The tag a call creates. -/
def newTag (env : Env) (r : Registration) : Tag :=
  { id := env.cuid 0
    externalId := r.externalId
    serialNumber := r.serialNumber
    clientId := some r.context.clientId
    siteId := some (r.dto.site.getD r.context.siteId) }

/-- One query of the rest of the method. -/
def registerStep (env : Env) (r : Registration) : RegisterPhase → AssetApi (RegisterPhase ⊕ Tag)
  | .assign tag => do
    assignTag tag.id r.context.clientId r.context.siteId
    pure (.inl (.update tag))
  | .update tag => do
    let tag ← updateTag r.rls tag.id none r.dto
    pure (.inr tag)
  | .create => do
    let tag ← createTag r.rls (newTag env r) r.dto.asset
    pure (.inr tag)

def registerFrom (env : Env) (r : Registration) : RegisterPhase → AssetApi Tag
  | .assign tag => do
    assignTag tag.id r.context.clientId r.context.siteId
    updateTag r.rls tag.id none r.dto
  | .update tag => updateTag r.rls tag.id none r.dto
  | .create => createTag r.rls (newTag env r) r.dto.asset

def registerTag (crypto : TokenCrypto) (cls : Cls) (env : Env) (token : String)
    (dto : RegisterTagDto) : AssetApi Tag := do
  match ← registerBegin crypto cls env token dto with
  | .inl (r, phase) => registerFrom env r phase
  | .inr tag => pure tag

/-- The method does its steps one after another. -/
theorem registerFrom_eq (env : Env) (r : Registration) (phase : RegisterPhase) :
    registerFrom env r phase = registerStep env r phase >>= fun
      | .inl phase => registerFrom env r phase
      | .inr tag => pure tag := by
  cases phase with
  | assign tag =>
    unfold registerStep
    rw [bind_bind]
    rfl
  | update tag =>
    unfold registerStep
    rw [bind_bind]
    exact (bind_pure_self _).symm
  | create =>
    unfold registerStep
    rw [bind_bind]
    exact (bind_pure_self _).symm

/-! ## 3. `checkRegistration` -/

structure TagAccessContext where
  clientId : String
  clientName : String
  siteId : String
  siteName : String
  roleId : String
  roleName : String
  deriving DecidableEq, Repr

/-- An access row with what `resolveAccessForClient` selects of its client, site and role. -/
structure ClientAccessRecord where
  client : Client
  site : Site
  role : Role
  deriving DecidableEq, Repr

def ClientAccessRecord.context (r : ClientAccessRecord) : TagAccessContext :=
  { clientId := r.client.id
    clientName := r.client.name
    siteId := r.site.id
    siteName := r.site.name
    roleId := r.role.id
    roleName := r.role.name }

def clientAccessRecords (env : Env) (user : StatelessUser) (clientId : String) (db : Db) :
    List ClientAccessRecord :=
  (env.accessOrder.findMany (fun a => db.hasIdpId user.idpId a && a.clientId = clientId)
    db.accesses.rows).filterMap fun a => do
      let client ← db.clients.find? a.clientId
      let site ← db.sites.find? a.siteId
      let role ← db.roles.find? a.roleId
      return { client, site, role }

/-- One round of the loop: the record reaches the tag's site. -/
def reachesSite (env : Env) (tagSiteId : String) (r : ClientAccessRecord) : Bool :=
  isScopeAtLeast r.role.scope .client || r.site.id = tagSiteId ||
    (isScopeAtLeast r.role.scope .siteGroup &&
      (env.allowedSiteIdsForSite r.site.id).contains tagSiteId)

def resolveAccessForClient (cls : Cls) (env : Env) (tagClientId : String)
    (tagSiteId : Option String) (db : Db) : Option TagAccessContext := do
  let user ← cls.user
  let accessRecords := clientAccessRecords env user tagClientId db
  let r ← (match truthy tagSiteId with
    | none => accessRecords.head?
    | some tagSiteId => accessRecords.find? (reachesSite env tagSiteId))
  return r.context

/-- A tag with the rows `include` adds. -/
structure TagWithRelations where
  tag : Tag
  asset : Option Asset
  client : Option Client
  site : Option Site
  deriving DecidableEq, Repr

def includeRelations (w : AssetWorld) (tag : Tag) : TagWithRelations :=
  { tag
    asset := w.assets.rows.find? (·.tagId = some tag.id)
    client := tag.clientId.bind (w.core.clients.find? ·)
    site := tag.siteId.bind (w.core.sites.find? ·) }

structure RegistrationCheck where
  tag : Option TagWithRelations
  accessContext : Option TagAccessContext
  deriving DecidableEq, Repr

def noTagAccess : ApiError :=
  .forbidden "You do not have access to the organization or site to which this tag is registered."

def checkRegistration (crypto : TokenCrypto) (cls : Cls) (env : Env) (inspectionToken : String) :
    AssetApi RegistrationCheck := do
  let validation ← validateInspectionToken crypto env inspectionToken
  let found ← findTagByExternalId validation.tagExternalId
  let tag ← query fun w => found.map (includeRelations w)
  match found with
  | none => pure { tag, accessContext := none }
  | some t =>
    match t.clientId with
    | none => pure { tag, accessContext := none }
    | some clientId =>
      let accessContext ← query fun w =>
        resolveAccessForClient cls env clientId t.siteId w.core
      raiseIf accessContext.isNone noTagAccess
      pure { tag, accessContext }

end TagsService

end ShieldApi
