import ShieldApi.Assets.InspectionToken

/-!
# Creating an inspection

`InspectionsService.create` of `assets/inspections/inspections.service.ts`, with
`AssetsService.handleAlertTriggers`. The call is given four things: a token, the id of an asset
(in its body), and the ids of a session and of a route (in its query). It checks the token, looks
up the asset, the session and the route point, and then writes everything in one transaction.

The rows of that transaction are functions of what was looked up (`newInspection` and its
siblings), and whether the database takes them is a function of the store (`inspectionRefusal`
and its siblings), so that the second can be asked before the first are written.
-/

set_option autoImplicit false

namespace ShieldApi

open Effect

structure CreateAssetQuestionResponse where
  value : String
  originalPrompt : String
  assetQuestionId : String
  deriving DecidableEq, Repr

structure CreateInspectionDto where
  asset : String
  status : InspectionStatus
  responses : List CreateAssetQuestionResponse := []
  deriving DecidableEq, Repr

/-- What the surroundings of a call decide here. -/
structure InspectionEnv where
  env : Env := {}
  routePointOrder : RowOrder InspectionRoutePoint := .insertion _
  completedOrder : RowOrder CompletedInspectionRoutePoint := .insertion _
  /-- `testAlertRule` of the rule a text is of; `none` also where the text is not of a rule. -/
  testAlertRule : String → AssetQuestionResponseType → String → Option String :=
    fun _ _ _ => none

/-- The columns the database fills in from the settings of the session. -/
structure SessionDefaults where
  personId : String
  siteId : String
  clientId : String
  deriving DecidableEq, Repr

def Settings.defaults (s : Settings) : Option SessionDefaults := do
  let personId ← s.current "app.current_person_id"
  let siteId ← s.current "app.current_site_id"
  let clientId ← s.current "app.current_client_id"
  return { personId, siteId, clientId }

/-- `current_setting` of a setting nobody set. -/
def ApiError.unrecognizedParameter : ApiError :=
  .error "unrecognized configuration parameter"

def InspectionSession.setLastInspector (personId : String) (s : InspectionSession) :
    InspectionSession :=
  { s with lastInspectorId := personId }

@[simp] theorem InspectionSession.id_setLastInspector (personId : String)
    (s : InspectionSession) : (s.setLastInspector personId).id = s.id := rfl

/-- New rows, unless something speaks against them or an id is taken. -/
def insertRows {α : Type} {key : α → String} (refusal : Option ApiError) (t : Table α String key)
    (rows : List α) : Except ApiError (Table α String key) :=
  match refusal with
  | some e => .error e
  | none =>
    match t.insertAll? rows with
    | some t => .ok t
    | none => .error .uniqueConstraint

theorem insertRows_eq_ok {α : Type} {key : α → String} {refusal : Option ApiError}
    {t t' : Table α String key} {rows : List α} :
    insertRows refusal t rows = .ok t' ↔ refusal = none ∧ t.insertAll? rows = some t' := by
  unfold insertRows
  cases refusal with
  | some e => simp
  | none => cases t.insertAll? rows <;> simp

namespace InspectionsService

/-! ## 1. The four lookups -/

/-- The session, with the points of its route that are at the asset. -/
def findSession (env : InspectionEnv) (rls : Settings) (sessionId : Option String)
    (assetId : String) (w : AssetWorld) :
    Except ApiError (Option InspectionSession × List InspectionRoutePoint) :=
  match truthy sessionId with
  | none => .ok (none, [])
  | some id =>
    match (w.sessions.find? id).filter fun s => rls.seesPlace s.clientId s.siteId with
    | none => .error (as404OrThrow .recordNotFound)
    | some session =>
      if (w.routes.find? session.inspectionRouteId).any fun r =>
          rls.seesPlace r.clientId r.siteId then
        .ok (some session, env.routePointOrder.findMany
          (fun p => p.inspectionRouteId = session.inspectionRouteId && p.assetId = assetId)
          w.routePoints.rows)
      else .error (.inconsistentQueryResult "inspectionRoute")

def findAsset (rls : Settings) (assetId : String) (w : AssetWorld) : Except ApiError Asset :=
  match (w.assets.find? assetId).filter fun a => rls.seesPlace a.clientId a.siteId with
  | none => .error (as404OrThrow .recordNotFound)
  | some asset => .ok asset

/-- The session's route point at the asset, or else the one of the route that was named. -/
def currentRoutePoint (env : InspectionEnv) (points : List InspectionRoutePoint)
    (routeId : Option String) (assetId : String) (w : AssetWorld) :
    Option InspectionRoutePoint :=
  (points.find? (·.assetId = assetId)).or
    ((truthy routeId).bind fun routeId => env.routePointOrder.findFirst
      (fun p => p.assetId = assetId && p.inspectionRouteId = routeId) w.routePoints.rows)

/-- Who takes the session over: the caller, if somebody else owns it. -/
def newOwner (context : Option RlsContext) (session : Option InspectionSession) :
    Option (InspectionSession × String) := do
  let session ← session
  let context ← context
  if context.personId = session.lastInspectorId then none else some (session, context.personId)

def takeOverSession (owner : Option (InspectionSession × String)) : AssetApi Unit :=
  attempt fun w =>
    match owner with
    | none => .ok ((), w)
    | some (session, personId) =>
      if (w.core.persons.find? personId).isSome then
        .ok ((), { w with
          sessions := w.sessions.updateMany (·.id = session.id)
            (.setLastInspector personId) (InspectionSession.id_setLastInspector personId) })
      else .error .foreignKeyConstraint

/-! ## 2. The rows -/

def newInspection (env : InspectionEnv) (d : SessionDefaults) (dto : CreateInspectionDto)
    (asset : Asset) : Inspection :=
  { id := env.env.cuid 0
    createdOn := env.env.now
    assetId := dto.asset
    inspectorId := d.personId
    status := dto.status
    siteId := asset.siteId
    clientId := d.clientId }

def newResponses (env : InspectionEnv) (d : SessionDefaults) (dto : CreateInspectionDto) :
    List AssetQuestionResponse :=
  dto.responses.mapIdx fun n r =>
    { id := env.env.cuid (n + 1)
      value := r.value
      originalPrompt := r.originalPrompt
      assetQuestionId := r.assetQuestionId
      inspectionId := some (env.env.cuid 0)
      responderId := d.personId
      siteId := d.siteId
      clientId := d.clientId }

def newSession (env : InspectionEnv) (d : SessionDefaults) (dto : CreateInspectionDto)
    (point : InspectionRoutePoint) : InspectionSession :=
  { id := env.env.cuid (dto.responses.length + 1)
    inspectionRouteId := point.inspectionRouteId
    lastInspectorId := d.personId
    siteId := d.siteId
    clientId := d.clientId }

def newCompletedPoint (env : InspectionEnv) (dto : CreateInspectionDto)
    (point : InspectionRoutePoint) (session : InspectionSession) :
    CompletedInspectionRoutePoint :=
  { id := env.env.cuid (dto.responses.length + 2)
    inspectionSessionId := session.id
    inspectionRoutePointId := point.id
    inspectionId := env.env.cuid 0
    createdOn := env.env.now }

/-- The criteria of a response's question that apply to it, each with its message. Only the
    questions of an inspection count: one may have become a setup question since. -/
def triggered (env : InspectionEnv) (w : AssetWorld) (r : AssetQuestionResponse) :
    List (AssetQuestionResponse × AssetAlertCriterion × String) :=
  match w.questions.find? r.assetQuestionId with
  | none => []
  | some q =>
    if q.type ∈ [.setupAndInspection, .inspection] then
      (w.alertCriteria.rows.filter (·.assetQuestionId = q.id)).filterMap fun c =>
        (env.testAlertRule r.value q.valueType c.rule).map (r, c, ·)
    else []

def newAlerts (env : InspectionEnv) (inspection : Inspection)
    (responses : List AssetQuestionResponse) (w : AssetWorld) : List Alert :=
  if inspection.status = .complete then
    (responses.flatMap (triggered env w)).mapIdx fun n (r, c, message) =>
      { id := env.env.cuid (responses.length + 3 + n)
        createdOn := inspection.createdOn
        alertLevel := c.alertLevel
        message
        assetId := inspection.assetId
        inspectionId := inspection.id
        assetQuestionResponseId := r.id
        assetAlertCriterionId := c.id
        resolved := c.autoResolve
        resolvedOn := if c.autoResolve then some env.env.now else none
        resolutionNote := if c.autoResolve then some "Auto-resolved by system." else none
        siteId := inspection.siteId
        clientId := inspection.clientId }
  else []

/-! ## 3. What speaks against them -/

/-- The asset and the site are connected, so they have to be in sight; the client and the
    inspector are columns the database fills in. -/
def inspectionRefusal (rls : Settings) (i : Inspection) (w : AssetWorld) : Option ApiError :=
  if !(w.assets.find? i.assetId).any (fun a => rls.seesPlace a.clientId a.siteId) ||
      !(w.core.sites.find? i.siteId).any rls.seesSite then
    some .recordNotFound
  else if !rls.seesPlace i.clientId i.siteId then some (.rowLevelSecurity "Inspection")
  else if (w.core.clients.find? i.clientId).isNone ||
      (w.core.persons.find? i.inspectorId).isNone then
    some .foreignKeyConstraint
  else none

/-- The last line is about reading the rows back with their questions. -/
def responsesRefusal (rls : Settings) (responses : List AssetQuestionResponse) (w : AssetWorld) :
    Option ApiError :=
  if responses.any fun r => !rls.seesPlace r.clientId r.siteId then
    some (.rowLevelSecurity "AssetQuestionResponse")
  else if responses.any fun r => (w.questions.find? r.assetQuestionId).isNone ||
      (w.core.sites.find? r.siteId).isNone then
    some .foreignKeyConstraint
  else if responses.any fun r =>
      !(w.questions.find? r.assetQuestionId).any rls.seesQuestion then
    some (.inconsistentQueryResult "assetQuestion")
  else none

def newSessionRefusal (rls : Settings) (s : InspectionSession) (w : AssetWorld) :
    Option ApiError :=
  if !(w.routes.find? s.inspectionRouteId).any fun r => rls.seesPlace r.clientId r.siteId then
    some .recordNotFound
  else if !rls.seesPlace s.clientId s.siteId then some (.rowLevelSecurity "InspectionSession")
  else if (w.core.sites.find? s.siteId).isNone then some .foreignKeyConstraint
  else none

def alertsRefusal (rls : Settings) (alerts : List Alert) : Option ApiError :=
  if alerts.any fun a => !rls.seesPlace a.clientId a.siteId then
    some (.rowLevelSecurity "Alert")
  else none

/-! ## 4. The transaction -/

def insertInspection (rls : Settings) (i : Inspection) (w : AssetWorld) :
    Except ApiError (Unit × AssetWorld) :=
  (insertRows (inspectionRefusal rls i w) w.inspections [i]).map fun t =>
    ((), { w with inspections := t })

def insertResponses (rls : Settings) (responses : List AssetQuestionResponse) (w : AssetWorld) :
    Except ApiError (Unit × AssetWorld) :=
  (insertRows (responsesRefusal rls responses w) w.responses responses).map fun t =>
    ((), { w with responses := t })

/-- The session a route point is completed in: the one that was named, or a new one. -/
def sessionOfCompletion (rls : Settings) (sessionId : Option String) (new : InspectionSession)
    (w : AssetWorld) : Except ApiError (InspectionSession × AssetWorld) :=
  match truthy sessionId with
  | some id =>
    match (w.sessions.find? id).filter fun s => rls.seesPlace s.clientId s.siteId with
    | none => .error .recordNotFound
    | some session => .ok (session, w)
  | none =>
    (insertRows (newSessionRefusal rls new w) w.sessions [new]).map fun t =>
      (new, { w with sessions := t })

def completeRoutePoint (env : InspectionEnv) (rls : Settings) (d : SessionDefaults)
    (dto : CreateInspectionDto) (sessionId : Option String)
    (point : Option InspectionRoutePoint) (w : AssetWorld) :
    Except ApiError (Option InspectionSession × AssetWorld) :=
  match point with
  | none => .ok (none, w)
  | some point =>
    match sessionOfCompletion rls sessionId (newSession env d dto point) w with
    | .error e => .error e
    | .ok (session, w) =>
      (insertRows none w.completedRoutePoints [newCompletedPoint env dto point session]).map
        fun t => (some session, { w with completedRoutePoints := t })

/-- `AssetsService.handleAlertTriggers`. -/
def handleAlertTriggers (env : InspectionEnv) (rls : Settings) (inspection : Inspection)
    (responses : List AssetQuestionResponse) (w : AssetWorld) :
    Except ApiError (Unit × AssetWorld) :=
  let alerts := newAlerts env inspection responses w
  (insertRows (alertsRefusal rls alerts) w.alerts alerts).map fun t => ((), { w with alerts := t })

def createRows (env : InspectionEnv) (rls : Settings) (d : SessionDefaults)
    (dto : CreateInspectionDto) (asset : Asset) (sessionId : Option String)
    (point : Option InspectionRoutePoint) :
    AssetApi (Inspection × Option InspectionSession) :=
  transaction do
    let inspection := newInspection env d dto asset
    let responses := newResponses env d dto
    attempt (insertInspection rls inspection)
    attempt (insertResponses rls responses)
    let session ← attempt (completeRoutePoint env rls d dto sessionId point)
    attempt (handleAlertTriggers env rls inspection responses)
    pure (inspection, session)

/-! ## 5. `create` -/

/-- The rest of `create` once the token is accepted, from its first query on. -/
def createAccepted (cls : Cls) (env : InspectionEnv) (dto : CreateInspectionDto)
    (sessionId routeId : Option String) : AssetApi (Inspection × Option InspectionSession) := do
  let rls ← prismaBuild cls env.env {}
  let (session, points) ← examine (findSession env rls sessionId dto.asset)
  let asset ← examine (findAsset rls dto.asset)
  takeOverSession (newOwner (buildPrimaryExtension cls env.env.allowedSiteIdsForSite {}).rlsContext
    session)
  let point ← query (currentRoutePoint env points routeId dto.asset)
  let d ← orRaise .unrecognizedParameter rls.defaults
  createRows env rls d dto asset sessionId point

def create (crypto : TokenCrypto) (cls : Cls) (env : InspectionEnv) (dto : CreateInspectionDto)
    (inspectionToken sessionId routeId : Option String) :
    AssetApi (Inspection × Option InspectionSession) := do
  let validation ← TagsService.validateInspectionToken crypto env.env (inspectionToken.getD "")
  raiseIf (!validation.isValid) (.badRequest (validation.reason.getD "Invalid tag"))
  createAccepted cls env dto sessionId routeId

end InspectionsService

/-! ## 6. The public history -/

structure InspectionWithRelations where
  inspection : Inspection
  inspector : Option Person
  alerts : List Alert
  deriving DecidableEq, Repr

structure InspectionHistory where
  asset : Option Asset
  unresolvedAlerts : List Alert
  inspections : List InspectionWithRelations
  deriving DecidableEq, Repr

structure HistoryOrder where
  assets : RowOrder Asset := .insertion _
  alerts : RowOrder Alert := .insertion _
  inspections : RowOrder Inspection := .insertion _

namespace InspectionsPublicService

/-- `where: { tag: { externalId } }`. An undefined id does not filter, and leaves the assets
    that have a tag at all. -/
def hasTag (externalId : Option String) (w : AssetWorld) (a : Asset) : Bool :=
  (a.tagId.bind (w.tags.find? ·)).any fun t => externalId.all (· = t.externalId)

/-- `where: { asset: { tag: { externalId } } }`. -/
def assetHasTag (externalId : Option String) (w : AssetWorld) (assetId : String) : Bool :=
  (w.assets.find? assetId).any (hasTag externalId w)

def getInspectionHistory (crypto : TokenCrypto) (order : HistoryOrder) (token : String) :
    AssetApi InspectionHistory := do
  let t := TagsService.parseInspectionToken crypto token
  let asset ← query fun w => order.assets.findFirst (hasTag t.tagExternalId w) w.assets.rows
  let unresolvedAlerts ← query fun w => order.alerts.findMany
    (fun a => assetHasTag t.tagExternalId w a.assetId && !a.resolved) w.alerts.rows
  let inspections ← query fun w =>
    (order.inspections.findMany (fun i => assetHasTag t.tagExternalId w i.assetId)
      w.inspections.rows).map fun i =>
        { inspection := i
          inspector := w.core.persons.find? i.inspectorId
          alerts := order.alerts.findMany (·.inspectionId = i.id) w.alerts.rows }
  pure { asset, unresolvedAlerts, inspections }

end InspectionsPublicService

end ShieldApi
