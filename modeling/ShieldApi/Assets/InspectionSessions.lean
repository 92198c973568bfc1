import ShieldApi.Assets.RouteCompletions
import ShieldApi.Lib.Process

/-!
# The sessions of a route

`findInspectionSession` and `cancelInspectionSession` of `InspectionsService`. A session begins
pending, with the first inspection of a walk. **Nobody closes it but its readers**: who looks at a
pending session finds out whether it is complete, or too old, and writes that down before handing
it out. Cancelling is one update.

Below the calls stand the same calls as processes, cut at their awaits, with `create` among
them. What they announce of a step is whether it writes a status or commits an inspection.
-/

set_option autoImplicit false

namespace ShieldApi

open Effect Process

/-! ## 1. Looking at a session -/

/-- `subDays` of date-fns. A date too far away is not a date. -/
def subDays (date : Nat) (amount : Int) : Option Int :=
  let ms : Int := date - amount * 86400000
  if ms.natAbs ≤ 8640000000000000 then some ms else none

/-- `isBefore` of date-fns. Nothing is before what is not a date. -/
def isBefore (date : Nat) (dateToCompare : Option Int) : Bool :=
  dateToCompare.any fun ms => (date : Int) < ms

def InspectionSession.setStatus (status : InspectionSessionStatus) (s : InspectionSession) :
    InspectionSession :=
  { s with status }

@[simp] theorem InspectionSession.id_setStatus (status : InspectionSessionStatus)
    (s : InspectionSession) : (s.setStatus status).id = s.id := rfl

structure SessionWithRelations where
  session : InspectionSession
  client : Client
  lastInspector : Person
  inspectionRoute : InspectionRoute
  inspectionRoutePoints : List InspectionRoutePoint
  completedInspectionRoutePoints : List CompletedInspectionRoutePoint

/-- Every point of the route is among the completed ones. -/
def SessionWithRelations.allCompleted (s : SessionWithRelations) : Bool :=
  let completedRoutePointIds :=
    s.completedInspectionRoutePoints.map (·.inspectionRoutePointId)
  s.inspectionRoutePoints.all fun point => completedRoutePointIds.contains point.id

/-- What the search for assets selects of one: for each of its points, the times it was completed
    at. -/
structure InspectedAsset where
  inspectionCycle : Option Int
  inspectionRoutePoints : List (List Nat)

/-- Some asset's first completion is longer ago than its cycle. -/
def shouldExpire (now : Nat) (clientDefaultInspectionCycle : Int) (result : List InspectedAsset) :
    Bool :=
  result.any fun asset =>
    let inspectionCycle := asset.inspectionCycle.getD clientDefaultInspectionCycle
    match asset.inspectionRoutePoints.head?.bind (·.head?) with
    | none => false
    | some inspectionDate => isBefore inspectionDate (subDays now inspectionCycle)

/-- What has to be there, or the error of its absence. -/
def required {α : Type} (e : ApiError) : Option α → Except ApiError α
  | none => .error e
  | some a => .ok a

theorem required_eq_ok {α : Type} {e : ApiError} {o : Option α} {a : α} :
    required e o = .ok a ↔ o = some a := by
  cases o with
  | none => exact ⟨fun h => (nomatch h), fun h => (nomatch h)⟩
  | some b => exact ⟨fun h => congrArg some (Except.ok.inj h), fun h => congrArg _ (Option.some.inj h)⟩

namespace InspectionsService

def handleGetSession (env : InspectionEnv) (rls : Settings) (sessionId : String)
    (w : AssetWorld) : Except ApiError SessionWithRelations := do
  let session ← required .recordNotFound
    ((w.sessions.find? sessionId).filter fun s => rls.seesPlace s.clientId s.siteId)
  let client ← required (.inconsistentQueryResult "client")
    ((w.core.clients.find? session.clientId).filter (rls.seesClient ·.id))
  let lastInspector ← required (.inconsistentQueryResult "lastInspector")
    ((w.core.persons.find? session.lastInspectorId).filter (rls.seesPerson w.core ·.id))
  let inspectionRoute ← required (.inconsistentQueryResult "inspectionRoute")
    ((w.routes.find? session.inspectionRouteId).filter fun r => rls.seesPlace r.clientId r.siteId)
  return {
    session, client, lastInspector, inspectionRoute
    inspectionRoutePoints := env.routePointOrder.findMany
      (·.inspectionRouteId = session.inspectionRouteId) w.routePoints.rows
    completedInspectionRoutePoints := env.completedOrder.findMany
      (·.inspectionSessionId = session.id) w.completedRoutePoints.rows }

/-- `asset.findMany` over the assets with a cycle that the session has come to. -/
def inspectedAssets (env : InspectionEnv) (rls : Settings) (sessionId : String) (w : AssetWorld) :
    List InspectedAsset :=
  (w.assets.rows.filter fun a => rls.seesPlace a.clientId a.siteId && a.inspectionCycle.isSome &&
    w.routePoints.rows.any fun p => p.assetId = a.id &&
      w.completedRoutePoints.rows.any fun c =>
        c.inspectionRoutePointId = p.id && c.inspectionSessionId = sessionId).map fun a =>
    { inspectionCycle := a.inspectionCycle
      inspectionRoutePoints :=
        (env.routePointOrder.findMany (·.assetId = a.id) w.routePoints.rows).map fun p =>
          (env.completedOrder.findMany (·.inspectionRoutePointId = p.id)
            w.completedRoutePoints.rows).map (·.createdOn) }

/-- `inspectionSession.update({ where: { id }, data: { status } })`. -/
def updateStatus (rls : Settings) (id : String) (status : InspectionSessionStatus) :
    AssetApi InspectionSession :=
  attempt fun w =>
    match (w.sessions.find? id).filter fun s => rls.seesPlace s.clientId s.siteId with
    | none => .error .recordNotFound
    | some session => .ok (session.setStatus status, { w with
        sessions := w.sessions.updateMany (·.id = id) (.setStatus status)
          (InspectionSession.id_setStatus _) })

def findInspectionSession (cls : Cls) (env : InspectionEnv) (id : String) :
    AssetApi SessionWithRelations := do
  let rls ← prismaBuild cls env.env {}
  let session ← examine fun w => (handleGetSession env rls id w).mapError as404OrThrow
  if session.session.status ≠ .pending then
    pure session
  else if session.allCompleted then
    let _ ← updateStatus rls session.session.id .complete
    examine (handleGetSession env rls session.session.id)
  else
    let result ← query (inspectedAssets env rls session.session.id)
    if shouldExpire env.env.now session.client.defaultInspectionCycle result then
      let _ ← updateStatus rls session.session.id .expired
      examine (handleGetSession env rls session.session.id)
    else
      pure session

def cancelInspectionSession (cls : Cls) (env : InspectionEnv) (id : String) :
    AssetApi InspectionSession := do
  let rls ← prismaBuild cls env.env {}
  updateStatus rls id .cancelled

end InspectionsService

/-! ## 2. The calls as processes -/

/-- What a step announces: a status for a session, or the commit of an inspection. -/
inductive SessionWrite
  | status (rls : Settings) (id : String) (status : InspectionSessionStatus)
  | inspection (env : InspectionEnv) (rls : Settings) (d : SessionDefaults)
      (dto : CreateInspectionDto) (asset : Asset) (sessionId : Option String)
      (point : Option InspectionRoutePoint)

abbrev SessionSteps (α : Type) : Type := Process AssetWorld (Option SessionWrite) ApiError α

namespace InspectionsService

/-- The checks `create` begins with. Keys are all they write. -/
def createBegin (crypto : TokenCrypto) (env : InspectionEnv) (inspectionToken : Option String) :
    AssetApi Unit := do
  let validation ← TagsService.validateInspectionToken crypto env.env (inspectionToken.getD "")
  raiseIf (!validation.isValid) (.badRequest (validation.reason.getD "Invalid tag"))

def createSession (cls : Cls) (env : InspectionEnv) (dto : CreateInspectionDto)
    (sessionId : Option String) :
    AssetApi (Settings × Option InspectionSession × List InspectionRoutePoint) := do
  let rls ← prismaBuild cls env.env {}
  let found ← examine (findSession env rls sessionId dto.asset)
  pure (rls, found)

def createRoutePoint (env : InspectionEnv) (dto : CreateInspectionDto) (rls : Settings)
    (points : List InspectionRoutePoint) (routeId : Option String) :
    AssetApi (Option InspectionRoutePoint × SessionDefaults) := do
  let point ← query (currentRoutePoint env points routeId dto.asset)
  let d ← orRaise .unrecognizedParameter rls.defaults
  pure (point, d)

/-- The first look at a session. -/
def firstLook (cls : Cls) (env : InspectionEnv) (id : String) :
    AssetApi (Settings × SessionWithRelations) := do
  let rls ← prismaBuild cls env.env {}
  let session ← examine fun w => (handleGetSession env rls id w).mapError as404OrThrow
  pure (rls, session)

namespace SessionSteps

def create (crypto : TokenCrypto) (cls : Cls) (env : InspectionEnv) (dto : CreateInspectionDto)
    (inspectionToken sessionId routeId : Option String) :
    SessionSteps (Inspection × Option InspectionSession) := do
  atomically none (createBegin crypto env inspectionToken)
  let (rls, session, points) ← atomically none (createSession cls env dto sessionId)
  let asset ← atomically none (examine (findAsset rls dto.asset))
  atomically none (takeOverSession (newOwner
    (buildPrimaryExtension cls env.env.allowedSiteIdsForSite {}).rlsContext session))
  let (point, d) ← atomically none (createRoutePoint env dto rls points routeId)
  atomically (some (.inspection env rls d dto asset sessionId point))
    (createRows env rls d dto asset sessionId point)

/-- The status is written by what the first look saw. -/
def close (env : InspectionEnv) (rls : Settings) (id : String) (status : InspectionSessionStatus) :
    SessionSteps SessionWithRelations := do
  let _ ← atomically (some (.status rls id status)) (updateStatus rls id status)
  atomically none (examine (handleGetSession env rls id))

def findInspectionSession (cls : Cls) (env : InspectionEnv) (id : String) :
    SessionSteps SessionWithRelations := do
  let (rls, session) ← atomically none (firstLook cls env id)
  if session.session.status ≠ .pending then
    pure session
  else if session.allCompleted then
    close env rls session.session.id .complete
  else
    let result ← atomically none (query (inspectedAssets env rls session.session.id))
    if shouldExpire env.env.now session.client.defaultInspectionCycle result then
      close env rls session.session.id .expired
    else
      pure session

/-- Whoever cancels does not look. -/
def cancelInspectionSession (cls : Cls) (env : InspectionEnv) (id : String) :
    SessionSteps InspectionSession := do
  let rls ← atomically none (prismaBuild cls env.env {})
  atomically (some (.status rls id .cancelled)) (updateStatus rls id .cancelled)

/-! With nobody else around, the steps are the calls. -/

theorem create_whole (crypto : TokenCrypto) (cls : Cls) (env : InspectionEnv)
    (dto : CreateInspectionDto) (inspectionToken sessionId routeId : Option String) :
    (create crypto cls env dto inspectionToken sessionId routeId).whole =
      InspectionsService.create crypto cls env dto inspectionToken sessionId routeId := by
  unfold create InspectionsService.create createAccepted createBegin createSession createRoutePoint
  simp only [whole_bind, whole_atomically, bind_bind]
  rfl

theorem close_whole (env : InspectionEnv) (rls : Settings) (id : String)
    (status : InspectionSessionStatus) : (close env rls id status).whole =
      (updateStatus rls id status >>= fun _ => examine (handleGetSession env rls id)) := by
  unfold close
  simp only [whole_bind, whole_atomically]

theorem findInspectionSession_whole (cls : Cls) (env : InspectionEnv) (id : String) :
    (findInspectionSession cls env id).whole =
      InspectionsService.findInspectionSession cls env id := by
  unfold findInspectionSession InspectionsService.findInspectionSession firstLook
  simp only [whole_bind, whole_atomically, bind_bind]
  congr 1
  funext rls
  congr 1
  funext session
  show Process.whole (if _ then _ else _) = _
  by_cases hpending : session.session.status ≠ .pending
  · rw [if_pos hpending, if_pos hpending]
    rfl
  · rw [if_neg hpending, if_neg hpending]
    by_cases hall : session.allCompleted = true
    · rw [if_pos hall, if_pos hall, close_whole]
    · rw [if_neg hall, if_neg hall, whole_bind]
      congr 1
      funext result
      by_cases hold : shouldExpire env.env.now session.client.defaultInspectionCycle result = true
      · rw [if_pos hold, if_pos hold, close_whole]
      · rw [if_neg hold, if_neg hold]
        rfl

theorem cancelInspectionSession_whole (cls : Cls) (env : InspectionEnv) (id : String) :
    (cancelInspectionSession cls env id).whole =
      InspectionsService.cancelInspectionSession cls env id := by
  unfold cancelInspectionSession InspectionsService.cancelInspectionSession
  simp only [whole_bind, whole_atomically]

end SessionSteps

end InspectionsService

end ShieldApi
