import Mathlib.Data.Rat.Defs
import ShieldApi.Assets.InspectionBinding

/-!
# The points of a route

`InspectionRoutesService` of `assets/inspection-routes/inspection-routes.service.ts`, as far as it is
about points. Every one of the four calls is an update of a route, nested in which a point is
created, changed, deleted or moved. The route has to be in sight; the points have no policy of their
own.

What a call leaves of a point is said once (`PointsKept`): **a point keeps its route for good**, and
its completions go when it goes. It keeps its asset too, except where `updatePoint` gives it
another one.
-/

set_option autoImplicit false

namespace ShieldApi

open Effect

/-! ## 1. The calls -/

structure CreateInspectionRoutePointDto where
  order : Int
  assetId : String

structure UpdateInspectionRoutePointDto where
  order : Option Int := none
  assetId : Option String := none

structure ReorderInspectionRoutePointsDto where
  id : String
  order : ℚ

namespace InspectionRoutePoint

def edit (dto : UpdateInspectionRoutePointDto) (p : InspectionRoutePoint) : InspectionRoutePoint :=
  { p with order := dto.order.getD p.order, assetId := dto.assetId.getD p.assetId }

@[simp] theorem id_edit (dto : UpdateInspectionRoutePointDto) (p : InspectionRoutePoint) :
    (p.edit dto).id = p.id := rfl

/-- The order the point is given, if any. -/
def reordered (orders : List (String × Nat)) (p : InspectionRoutePoint) : InspectionRoutePoint :=
  { p with order := ((orders.lookup p.id).map Int.ofNat).getD p.order }

@[simp] theorem id_reordered (orders : List (String × Nat)) (p : InspectionRoutePoint) :
    (p.reordered orders).id = p.id := rfl

end InspectionRoutePoint

namespace InspectionRoutesService

/-- `inspectionRoute.update({ where: { id } })` finds the route. -/
def findRoute (rls : Settings) (id : String) (w : AssetWorld) : Except ApiError InspectionRoute :=
  match (w.routes.find? id).filter fun r => rls.seesPlace r.clientId r.siteId with
  | none => .error .recordNotFound
  | some route => .ok route

/-- The asset a point is at has to be there, in sight or not. -/
def checkAsset (assetId : Option String) (w : AssetWorld) : Except ApiError Unit :=
  if assetId.all fun id => (w.assets.find? id).isSome then .ok () else .error .foreignKeyConstraint

/-- A point of the route. -/
def findPoint (inspectionRouteId id : String) (w : AssetWorld) :
    Except ApiError InspectionRoutePoint :=
  match (w.routePoints.find? id).filter (·.inspectionRouteId = inspectionRouteId) with
  | none => .error .recordNotFound
  | some point => .ok point

def createPoint (cls : Cls) (env : InspectionEnv) (inspectionRouteId : String)
    (dto : CreateInspectionRoutePointDto) : AssetApi InspectionRoute := do
  let rls ← prismaBuild cls env.env {}
  attempt fun w => do
    let route ← findRoute rls inspectionRouteId w
    checkAsset (some dto.assetId) w
    let routePoints ← insertRows none w.routePoints
      [{ id := env.env.cuid 0, inspectionRouteId, assetId := dto.assetId, order := dto.order }]
    return (route, { w with routePoints })

def updatePoint (cls : Cls) (env : InspectionEnv) (inspectionRouteId id : String)
    (dto : UpdateInspectionRoutePointDto) : AssetApi InspectionRoute := do
  let rls ← prismaBuild cls env.env {}
  attempt fun w => do
    let route ← findRoute rls inspectionRouteId w
    let point ← findPoint inspectionRouteId id w
    checkAsset dto.assetId w
    return (route, { w with
      routePoints := w.routePoints.updateMany (·.id = point.id) (.edit dto)
        (InspectionRoutePoint.id_edit dto) })

/-- The completions of a point go with it. -/
def removePoint (cls : Cls) (env : InspectionEnv) (inspectionRouteId id : String) :
    AssetApi InspectionRoute := do
  let rls ← prismaBuild cls env.env {}
  attempt fun w => do
    let route ← findRoute rls inspectionRouteId w
    let point ← findPoint inspectionRouteId id w
    return (route, { w with
      routePoints := w.routePoints.deleteMany (·.id = point.id)
      completedRoutePoints := w.completedRoutePoints.deleteMany
        (·.inspectionRoutePointId = point.id) })

/-- The points in their new order. `findIndex` of a point that is not there is `-1`, and
    `splice(-1, 1)` takes the last one. -/
def movePoint (dto : ReorderInspectionRoutePointsDto) (allPoints : List InspectionRoutePoint) :
    Except ApiError (List InspectionRoutePoint) :=
  let currentIndex := (allPoints.findIdx? (·.id = dto.id)).getD (allPoints.length - 1)
  match allPoints[currentIndex]? with
  | none => .error (.error "Cannot read properties of undefined (reading 'order')")
  | some pointToMove =>
    let rest := allPoints.eraseIdx currentIndex
    let moveForward : Bool := dto.order > pointToMove.order
    let newIndex := (rest.filter fun point =>
      (moveForward && (point.order : ℚ) = dto.order) || (point.order : ℚ) < dto.order).length
    .ok (rest.insertIdx newIndex pointToMove)

/-- The points whose order is not their index, with the index. -/
def pointsToUpdate (allPoints : List InspectionRoutePoint) : List (String × Nat) :=
  allPoints.zipIdx.filterMap fun (point, idx) =>
    if point.order = idx then none else some (point.id, idx)

def reorderPoints (cls : Cls) (env : InspectionEnv) (inspectionRouteId : String)
    (dto : ReorderInspectionRoutePointsDto) : AssetApi InspectionRoute := do
  let rls ← prismaBuild cls env.env {}
  let allPoints ← query fun w => env.routePointOrder.findManyBy (·.order ≤ ·.order)
    (·.inspectionRouteId = inspectionRouteId) w.routePoints.rows
  let moved ← examine fun _ => movePoint dto allPoints
  attempt fun w => do
    let route ← findRoute rls inspectionRouteId w
    return (route, { w with
      routePoints := w.routePoints.updateMany (·.inspectionRouteId = inspectionRouteId)
        (.reordered (pointsToUpdate moved)) (InspectionRoutePoint.id_reordered _) })

/-! ## 2. What they leave of a point -/

/-- Every completion that is left was there, and its point is on the route it was on, at the asset
    it was at. Sessions and inspections are as they were. -/
structure PointsKept (w w' : AssetWorld) : Prop where
  sessions : w'.sessions = w.sessions
  inspections : w'.inspections = w.inspections
  completions : ∀ c ∈ w'.completedRoutePoints, c ∈ w.completedRoutePoints
  points : ∀ c ∈ w'.completedRoutePoints, ∀ p ∈ w.routePoints, p.id = c.inspectionRoutePointId →
    ∃ p' ∈ w'.routePoints, p'.id = p.id ∧ p'.inspectionRouteId = p.inspectionRouteId ∧
      p'.assetId = p.assetId

theorem pointsKept_refl (w : AssetWorld) : PointsKept w w :=
  ⟨rfl, rfl, fun _ hc => hc, fun _ _ p hp _ => ⟨p, hp, rfl, rfl, rfl⟩⟩

section Calls

variable {cls : Cls} {env : InspectionEnv} {w w' : AssetWorld} {inspectionRouteId id : String}
  {route : InspectionRoute}

theorem createPoint_kept (dto : CreateInspectionRoutePointDto) (w : AssetWorld) :
    PointsKept w ((createPoint cls env inspectionRouteId dto).after w) := by
  apply leaves_prismaBuild_attempt (I := PointsKept w) (pointsKept_refl w)
  intro rls a w' _ h
  simp only [bind_except_eq_ok] at h
  obtain ⟨route, -, _, -, t, ht, h⟩ := h
  obtain ⟨-, rfl⟩ := Prod.mk.inj (Except.ok.inj h)
  refine ⟨rfl, rfl, fun _ hc => hc, fun _ _ p hp _ => ⟨p, ?_, rfl, rfl, rfl⟩⟩
  exact (Table.mem_insertAll? (insertRows_eq_ok.mp ht).2).mpr (.inl hp)

theorem removePoint_kept (id : String) (w : AssetWorld) :
    PointsKept w ((removePoint cls env inspectionRouteId id).after w) := by
  apply leaves_prismaBuild_attempt (I := PointsKept w) (pointsKept_refl w)
  intro rls a w' _ h
  simp only [bind_except_eq_ok] at h
  obtain ⟨route, -, point, -, h⟩ := h
  obtain ⟨-, rfl⟩ := Prod.mk.inj (Except.ok.inj h)
  refine ⟨rfl, rfl, fun c hc => (Table.mem_deleteMany.mp hc).1, fun c hc p hp hid => ?_⟩
  have hother := (Table.mem_deleteMany.mp hc).2
  refine ⟨p, Table.mem_deleteMany.mpr ⟨hp, ?_⟩, rfl, rfl, rfl⟩
  rw [← hid] at hother
  exact hother

theorem reorderPoints_kept (dto : ReorderInspectionRoutePointsDto) (w : AssetWorld) :
    PointsKept w ((reorderPoints cls env inspectionRouteId dto).after w) := by
  have hsame := pointsKept_refl w
  apply ReadOnly.leaves_bind (readOnly_prismaBuild _ _ _) hsame
  intro rls _
  apply ReadOnly.leaves_bind (readOnly_query _) hsame
  intro allPoints _
  apply ReadOnly.leaves_bind (readOnly_examine _) hsame
  intro moved _
  apply Atomic.leaves (atomic_attempt _) hsame
  intro a w' hrun
  have h := attempt_eq_ok.mp hrun
  simp only [bind_except_eq_ok] at h
  obtain ⟨route, -, h⟩ := h
  obtain ⟨-, rfl⟩ := Prod.mk.inj (Except.ok.inj h)
  refine ⟨rfl, rfl, fun _ hc => hc, fun c _ p hp _ => ?_⟩
  refine ⟨_, List.mem_map.mpr ⟨p, hp, rfl⟩, ?_⟩
  split
  · exact ⟨rfl, rfl, rfl⟩
  · exact ⟨rfl, rfl, rfl⟩

/-! ### A point that is changed -/

/-- The change of a point goes through: the route is in sight, the point is on it, and the asset is
    there. -/
def UpdateGoes (cls : Cls) (env : InspectionEnv) (inspectionRouteId id : String)
    (dto : UpdateInspectionRoutePointDto) (w : AssetWorld) : Prop :=
  ∃ rls route point,
    (buildPrimaryExtension cls env.env.allowedSiteIdsForSite {}).settings = .ok rls ∧
    findRoute rls inspectionRouteId w = .ok route ∧
    findPoint inspectionRouteId id w = .ok point ∧ checkAsset dto.assetId w = .ok ()

theorem findPoint_eq_ok {point : InspectionRoutePoint} :
    findPoint inspectionRouteId id w = .ok point ↔
      point ∈ w.routePoints ∧ point.id = id ∧ point.inspectionRouteId = inspectionRouteId := by
  unfold findPoint
  cases hfind : w.routePoints.find? id with
  | none =>
    rw [Table.find?_eq_none] at hfind
    exact ⟨fun h => (nomatch h), fun h => absurd h.2.1 (hfind point h.1)⟩
  | some p =>
    obtain ⟨hp, hid⟩ := Table.find?_eq_some.mp hfind
    by_cases hroute : p.inspectionRouteId = inspectionRouteId
    · rw [Option.filter_some, if_pos (decide_eq_true hroute)]
      constructor
      · intro h
        obtain rfl := Except.ok.inj h
        exact ⟨hp, hid, hroute⟩
      · intro h
        rw [Table.eq_of_key_eq h.1 hp (h.2.1.trans hid.symm)]
    · rw [Option.filter_some, if_neg (mt of_decide_eq_true hroute)]
      refine ⟨fun h => (nomatch h), fun h => absurd ?_ hroute⟩
      rw [← Table.eq_of_key_eq h.1 hp (h.2.1.trans hid.symm)]
      exact h.2.2

theorem updatePoint_of_goes {dto : UpdateInspectionRoutePointDto}
    (h : UpdateGoes cls env inspectionRouteId id dto w) :
    (updatePoint cls env inspectionRouteId id dto).after w =
      { w with routePoints := w.routePoints.updateMany (·.id = id) (.edit dto)
                 (InspectionRoutePoint.id_edit dto) } := by
  obtain ⟨rls, route, point, hrls, hroute, hpoint, hasset⟩ := h
  obtain rfl : point.id = id := (findPoint_eq_ok.1 hpoint).2.1
  refine after_prismaBuild_attempt hrls ⟨route, ?_⟩
  rw [hroute, hpoint, hasset]
  rfl

theorem updatePoint_of_not_goes {dto : UpdateInspectionRoutePointDto}
    (h : ¬ UpdateGoes cls env inspectionRouteId id dto w) :
    (updatePoint cls env inspectionRouteId id dto).after w = w := by
  refine leaves_prismaBuild_attempt (I := (· = w)) rfl fun rls a w' hrls hrun => absurd ?_ h
  simp only [bind_except_eq_ok] at hrun
  obtain ⟨route, hroute, point, hpoint, _, hasset, -⟩ := hrun
  exact ⟨rls, route, point, hrls, hroute, hpoint, hasset⟩

end Calls

end InspectionRoutesService

end ShieldApi
