import Mathlib.Data.Rat.Floor
import ShieldApi.Assets.InspectionRoutes
import ShieldApi.Lib.Renumber

/-!
# The order of a route's points

`reorderPoints` reads the points of a route in their order, takes one out, puts it back behind the
points that are to come before it, and gives every point that is not at its own index the index it
is at. **What the orders are afterwards, and who has moved**:

> the orders are `0, …, n - 1`, and all but the point that moved are in the order they were in.

Where the moved point ends up is a count, and on a route whose orders were `0, …, n - 1` the count is
the order asked for, rounded towards where the point was (`reorderPoints_exact`). The order asked for
is any number the body can carry, so that there is something to round.

The point is looked up by `findIndex`, and nobody looks at its answer: for a point that is not on the
route it is `-1`, which `splice` takes for the last one. `unknownPoint_harmless_iff` is when that
is of no consequence.
-/

set_option autoImplicit false

namespace ShieldApi

open Effect

namespace InspectionRoutesService

/-! ## 1. The move -/

/-- The points of the route. -/
def pointsOf (inspectionRouteId : String) (w : AssetWorld) : List InspectionRoutePoint :=
  w.routePoints.rows.filter (·.inspectionRouteId = inspectionRouteId)

/-- The points of the route, as they are read. -/
def allPoints (env : InspectionEnv) (inspectionRouteId : String) (w : AssetWorld) :
    List InspectionRoutePoint :=
  env.routePointOrder.findManyBy (·.order ≤ ·.order) (·.inspectionRouteId = inspectionRouteId)
    w.routePoints.rows

def currentIndex (dto : ReorderInspectionRoutePointsDto) (points : List InspectionRoutePoint) :
    Nat :=
  (points.findIdx? (·.id = dto.id)).getD (points.length - 1)

/-- How many of the others come before the point. -/
def newIndex (dto : ReorderInspectionRoutePointsDto) (pointToMove : InspectionRoutePoint)
    (rest : List InspectionRoutePoint) : Nat :=
  (rest.filter fun point => (decide (dto.order > pointToMove.order) &&
    (point.order : ℚ) = dto.order) || (point.order : ℚ) < dto.order).length

/-- The points after `m`, the `i`-th, is put where it is to be. -/
def moved (dto : ReorderInspectionRoutePointsDto) (points : List InspectionRoutePoint) (i : Nat)
    (m : InspectionRoutePoint) : List InspectionRoutePoint :=
  moveIdx points i (newIndex dto m (points.eraseIdx i)) m

theorem id_renumbered (points : List InspectionRoutePoint) (p : InspectionRoutePoint) :
    (p.reordered (pointsToUpdate points)).id = p.id := InspectionRoutePoint.id_reordered _ p

/-- Every point of the route has the index it has in `points`. -/
def renumber (inspectionRouteId : String) (points : List InspectionRoutePoint) (w : AssetWorld) :
    AssetWorld :=
  { w with
    routePoints := w.routePoints.updateMany (·.inspectionRouteId = inspectionRouteId)
      (.reordered (pointsToUpdate points)) (id_renumbered points) }

section Move

variable {cls : Cls} {env : InspectionEnv} {w : AssetWorld} {inspectionRouteId : String}
  {dto : ReorderInspectionRoutePointsDto} {points : List InspectionRoutePoint} {i : Nat}
  {m : InspectionRoutePoint}

theorem newIndex_le (rest : List InspectionRoutePoint) : newIndex dto m rest ≤ rest.length :=
  List.length_filter_le _ _

theorem movePoint_eq (hm : points[currentIndex dto points]? = some m) :
    movePoint dto points = .ok (moved dto points (currentIndex dto points) m) := by
  unfold movePoint
  unfold currentIndex at hm ⊢
  simp only [hm]
  rfl

/-- The route is in sight: the update the call ends with finds it. -/
def InSight (cls : Cls) (env : InspectionEnv) (inspectionRouteId : String) (w : AssetWorld)
    (route : InspectionRoute) : Prop :=
  ∃ rls, (buildPrimaryExtension cls env.env.allowedSiteIdsForSite {}).settings = .ok rls ∧
    findRoute rls inspectionRouteId w = .ok route

theorem reorderPoints_run {route : InspectionRoute}
    (hsight : InSight cls env inspectionRouteId w route)
    (hm : (allPoints env inspectionRouteId w)[currentIndex dto (allPoints env inspectionRouteId w)]? =
      some m) :
    (reorderPoints cls env inspectionRouteId dto).run w =
      (.ok route, renumber inspectionRouteId (moved dto (allPoints env inspectionRouteId w)
        (currentIndex dto (allPoints env inspectionRouteId w)) m) w) := by
  obtain ⟨rls, hrls, hroute⟩ := hsight
  unfold reorderPoints
  rw [prismaBuild_of_settings hrls, run_pure_bind, run_query_bind]
  have hmove : (examine fun _ => movePoint dto (allPoints env inspectionRouteId w)).run w =
      (.ok (moved dto (allPoints env inspectionRouteId w)
        (currentIndex dto (allPoints env inspectionRouteId w)) m), w) :=
    examine_eq_ok.mpr ⟨movePoint_eq hm, rfl⟩
  refine (run_bind_ok hmove).trans ?_
  rw [attempt_eq_ok, hroute]
  rfl

end Move

/-! ## 2. What is read -/

section Read

variable {env : InspectionEnv} {w : AssetWorld} {inspectionRouteId : String}

theorem allPoints_perm : (allPoints env inspectionRouteId w).Perm (pointsOf inspectionRouteId w) :=
  RowOrder.findManyBy_perm

theorem mem_pointsOf {p : InspectionRoutePoint} : p ∈ pointsOf inspectionRouteId w ↔
    p ∈ w.routePoints ∧ p.inspectionRouteId = inspectionRouteId := by
  rw [pointsOf, List.mem_filter, decide_eq_true_eq, Table.mem_rows]

theorem allPoints_up :
    (allPoints env inspectionRouteId w).Pairwise fun p q => p.order ≤ q.order := by
  have hup : (allPoints env inspectionRouteId w).Pairwise
      fun p q => decide (p.order ≤ q.order) = true :=
    RowOrder.pairwise_findManyBy
      (fun p q r hpq hqr => decide_eq_true ((of_decide_eq_true hpq).trans (of_decide_eq_true hqr)))
      (fun p q => (le_total p.order q.order).imp decide_eq_true decide_eq_true) _ _
  exact hup.imp of_decide_eq_true

theorem allPoints_nodup : ((allPoints env inspectionRouteId w).map (·.id)).Nodup := by
  rw [(allPoints_perm.map _).nodup_iff]
  exact w.routePoints.unique.sublist (List.filter_sublist.map _)

end Read

/-! ## 3. Where the call does not come to the write -/

section Fails

variable {cls : Cls} {env : InspectionEnv} {w : AssetWorld} {inspectionRouteId : String}
  {dto : ReorderInspectionRoutePointsDto} {points : List InspectionRoutePoint}

theorem atomic_reorderPoints : (reorderPoints cls env inspectionRouteId dto).Atomic :=
  (readOnly_prismaBuild _ _ _).bind_atomic fun _ => (readOnly_query _).bind_atomic fun _ =>
    (readOnly_examine _).bind_atomic fun _ => atomic_attempt _

theorem settings_error {options : PrimaryExtensionOptions} {e : ApiError}
    (h : (buildPrimaryExtension cls env.env.allowedSiteIdsForSite options).settings = .error e) :
    e.status = 500 := by
  unfold PrimaryExtension.settings buildRLSContextStatements at h
  split at h
  · exact nomatch h
  · split at h
    · obtain rfl := Except.error.inj h
      rfl
    · exact nomatch h

theorem movePoint_error {e : ApiError} (h : movePoint dto points = .error e) : e.status = 500 := by
  unfold movePoint at h
  cases hm : points[(points.findIdx? (·.id = dto.id)).getD (points.length - 1)]? with
  | none =>
    simp only [hm, Except.error.injEq] at h
    obtain rfl := h
    rfl
  | some m =>
    simp only [hm] at h
    exact nomatch h

theorem findRoute_error {rls : Settings} {e : ApiError}
    (h : findRoute rls inspectionRouteId w = .error e) : e.status = 500 := by
  unfold findRoute at h
  split at h
  · obtain rfl := Except.error.inj h
    rfl
  · exact nomatch h

/-- The route is out of sight or has no points: the call ends in a failure of the server. -/
theorem reorderPoints_fails (dto : ReorderInspectionRoutePointsDto)
    (h : (¬ ∃ route, InSight cls env inspectionRouteId w route) ∨ pointsOf inspectionRouteId w = []) :
    ∃ e, ((reorderPoints cls env inspectionRouteId dto).run w).1 = .error e ∧ e.status = 500 := by
  unfold reorderPoints
  cases hrls : (buildPrimaryExtension cls env.env.allowedSiteIdsForSite {}).settings with
  | error e =>
    unfold prismaBuild
    rw [hrls]
    exact ⟨e, rfl, settings_error hrls⟩
  | ok rls =>
    rw [prismaBuild_of_settings hrls, run_pure_bind, run_query_bind]
    cases hmove : movePoint dto (allPoints env inspectionRouteId w) with
    | error e =>
      have hrun : (examine fun _ => movePoint dto (allPoints env inspectionRouteId w)).run w =
          (.error e, w) := congrArg (·, w) hmove
      exact ⟨e, congrArg Prod.fst (run_bind_error hrun), movePoint_error hmove⟩
    | ok points =>
      have hrun : (examine fun _ => movePoint dto (allPoints env inspectionRouteId w)).run w =
          (.ok points, w) := examine_eq_ok.mpr ⟨hmove, rfl⟩
      cases hroute : findRoute rls inspectionRouteId w with
      | error e =>
        refine ⟨e, ?_, findRoute_error hroute⟩
        refine (congrArg Prod.fst (run_bind_ok hrun)).trans ?_
        rw [run_attempt_error (by rw [hroute]; rfl)]
      | ok route =>
        rcases h with hsight | hempty
        · exact absurd ⟨route, rls, hrls, hroute⟩ hsight
        · have hnil : allPoints env inspectionRouteId w = [] :=
            (hempty ▸ allPoints_perm : List.Perm _ []).eq_nil
          rw [hnil] at hmove
          exact nomatch hmove

end Fails

/-! ## 4. What is left -/

section Left

variable {env : InspectionEnv} {w : AssetWorld} {inspectionRouteId : String}
  {points : List InspectionRoutePoint}

theorem pointsOf_renumber :
    pointsOf inspectionRouteId (renumber inspectionRouteId points w) =
      (pointsOf inspectionRouteId w).map (·.reordered (pointsToUpdate points)) := by
  have hsame : ∀ p : InspectionRoutePoint,
      (if decide (p.inspectionRouteId = inspectionRouteId) then p.reordered (pointsToUpdate points)
        else p).inspectionRouteId = p.inspectionRouteId := by
    intro p
    split <;> rfl
  show ((w.routePoints.rows.map _).filter _) = _
  rw [List.filter_map, pointsOf]
  simp only [Function.comp_def, hsame]
  refine List.map_congr_left fun p hp => ?_
  rw [if_pos (List.mem_filter.mp hp).2]

/-- A point is left with the index it has. -/
theorem order_reordered (hnodup : (points.map (·.id)).Nodup) {t : Nat} {p : InspectionRoutePoint}
    (hp : points[t]? = some p) : (p.reordered (pointsToUpdate points)).order = t := by
  have h := lookup_misplaced InspectionRoutePoint.id InspectionRoutePoint.order hnodup hp 0
  rw [Nat.zero_add] at h
  exact h

/-- The orders are `0, …, n - 1`. -/
theorem numbered_renumber (hperm : points.Perm (pointsOf inspectionRouteId w))
    (hnodup : (points.map (·.id)).Nodup) :
    Numbered ((pointsOf inspectionRouteId (renumber inspectionRouteId points w)).map (·.order)) := by
  rw [pointsOf_renumber, List.map_map, numbered_congr (hperm.symm.map _)]
  exact numbered_of_map_eq_range (map_eq_range_iff.mpr fun t p => order_reordered hnodup)

/-- A point that is left has, as its order, the index it had. -/
theorem order_renumber (hperm : points.Perm (pointsOf inspectionRouteId w))
    (hnodup : (points.map (·.id)).Nodup) {p p' : InspectionRoutePoint} {t : Nat}
    (hp : points[t]? = some p)
    (hp' : p' ∈ pointsOf inspectionRouteId (renumber inspectionRouteId points w))
    (hid : p'.id = p.id) : p'.order = t := by
  rw [pointsOf_renumber] at hp'
  obtain ⟨q, hq, rfl⟩ := List.mem_map.mp hp'
  have hmem := hperm.mem_iff.mp (List.mem_of_getElem? hp)
  obtain rfl : q = p := Table.eq_of_key_eq (mem_pointsOf.mp hq).1 (mem_pointsOf.mp hmem).1 hid
  exact order_reordered hnodup hp

end Left

/-! ## 5. Where the point goes -/

section Place

variable {dto : ReorderInspectionRoutePointsDto} {points : List InspectionRoutePoint} {i : Nat}
  {m : InspectionRoutePoint}

theorem moved_perm (hm : points[i]? = some m) : (moved dto points i m).Perm points :=
  moveIdx_perm hm (newIndex_le _)

theorem getElem?_moved :
    (moved dto points i m)[newIndex dto m (points.eraseIdx i)]? = some m :=
  getElem?_moveIdx_self (newIndex_le _)

/-- On a route whose orders are `0, …, n - 1`: the point itself is among those that are counted if
    it is before the order asked for. -/
theorem newIndex_numbered (dto : ReorderInspectionRoutePointsDto) (hm : points[i]? = some m)
    (hnum : Numbered (points.map (·.order))) :
    newIndex dto m (points.eraseIdx i) + (if (m.order : ℚ) < dto.order then 1 else 0) =
      min points.length
        (if (m.order : ℚ) < dto.order then ⌊dto.order⌋ + 1 else ⌈dto.order⌉).toNat := by
  obtain ⟨hi, rfl⟩ := List.getElem?_eq_some_iff.mp hm
  have hperm := List.getElem_cons_eraseIdx_perm hi
  have hlen : (points.map (·.order)).length = points.length := List.length_map _
  by_cases hforward : (points[i].order : ℚ) < dto.order
  · have hcount := hnum.countP_le dto.order
    rw [List.countP_map, ← hperm.countP_eq, List.countP_cons, hlen] at hcount
    rw [if_pos hforward, if_pos hforward, ← hcount, newIndex, ← List.countP_eq_length_filter]
    congr 1
    · refine List.countP_congr fun p _ => ?_
      simp [hforward, le_iff_lt_or_eq, or_comm]
    · simp [hforward.le]
  · have hcount := hnum.countP_lt dto.order
    rw [List.countP_map, ← hperm.countP_eq, List.countP_cons, hlen] at hcount
    rw [if_neg hforward, if_neg hforward, ← hcount, newIndex, ← List.countP_eq_length_filter]
    congr 1
    · refine List.countP_congr fun p _ => ?_
      simp [hforward]
    · simp [hforward]

/-- The point is at the index that is looked up. -/
theorem getElem?_currentIndex (hnodup : (points.map (·.id)).Nodup) (hm : m ∈ points)
    (hid : m.id = dto.id) : points[currentIndex dto points]? = some m := by
  cases hfind : points.findIdx? (·.id = dto.id) with
  | none => exact absurd hid (of_decide_eq_false (List.findIdx?_eq_none_iff.mp hfind m hm))
  | some i =>
    obtain ⟨hi, hat, -⟩ := List.findIdx?_eq_some_iff_getElem.mp hfind
    have hsame : points[i] = m :=
      List.inj_on_of_nodup_map hnodup (List.getElem_mem hi) hm
        ((of_decide_eq_true hat).trans hid.symm)
    rw [currentIndex, hfind, Option.getD_some, List.getElem?_eq_getElem hi, hsame]

/-- A point that is not there is taken for the last. -/
theorem currentIndex_of_unknown (hunknown : ∀ p ∈ points, p.id ≠ dto.id) :
    currentIndex dto points = points.length - 1 := by
  have hnone : points.findIdx? (·.id = dto.id) = none :=
    List.findIdx?_eq_none_iff.mpr fun p hp => decide_eq_false (hunknown p hp)
  rw [currentIndex, hnone, Option.getD_none]

end Place

/-! ## 6. What a reordering leaves -/

/-- The point, whatever its order. -/
def unordered (p : InspectionRoutePoint) : InspectionRoutePoint := { p with order := 0 }

/-- An order that is asked for, as a whole number: towards where the point is. -/
def towards (order : Int) (asked : ℚ) : Int := if (order : ℚ) < asked then ⌊asked⌋ else ⌈asked⌉

@[simp] theorem towards_intCast (order k : Int) : towards order k = k := by
  rw [towards, Int.floor_intCast, Int.ceil_intCast, ite_self]

/-- The route has the points it had, and no other route another. The orders are `0, …, n - 1`, and
    all but the point that moved are in the order they were in. Where the orders were
    `0, …, n - 1` and the one asked for is among them, the point has it; one asked for between two
    of them is rounded towards where the point was. -/
structure Reordered (inspectionRouteId : String) (dto : ReorderInspectionRoutePointsDto)
    (w w' : AssetWorld) : Prop where
  points : (pointsOf inspectionRouteId w').map unordered =
    (pointsOf inspectionRouteId w).map unordered
  elsewhere : ∀ p, p.inspectionRouteId ≠ inspectionRouteId →
    (p ∈ w'.routePoints ↔ p ∈ w.routePoints)
  numbered : Numbered ((pointsOf inspectionRouteId w').map (·.order))
  others : ∀ p ∈ pointsOf inspectionRouteId w, ∀ q ∈ pointsOf inspectionRouteId w,
    ∀ p' ∈ pointsOf inspectionRouteId w', ∀ q' ∈ pointsOf inspectionRouteId w',
    p'.id = p.id → q'.id = q.id → p.id ≠ dto.id → q.id ≠ dto.id →
    p.order < q.order → p'.order < q'.order
  placed : Numbered ((pointsOf inspectionRouteId w).map (·.order)) →
    0 ≤ dto.order → dto.order < (pointsOf inspectionRouteId w).length →
    ∀ m ∈ pointsOf inspectionRouteId w, ∀ m' ∈ pointsOf inspectionRouteId w',
      m.id = dto.id → m'.id = dto.id →
      (∀ k : Int, dto.order = k → m'.order = k) ∧ m'.order = towards m.order dto.order

section Reorder

variable {cls : Cls} {env : InspectionEnv} {w : AssetWorld} {inspectionRouteId : String}
  {dto : ReorderInspectionRoutePointsDto} {points : List InspectionRoutePoint} {i : Nat}
  {m : InspectionRoutePoint}

theorem unordered_renumber : (pointsOf inspectionRouteId
      (renumber inspectionRouteId points w)).map unordered =
    (pointsOf inspectionRouteId w).map unordered := by
  rw [pointsOf_renumber, List.map_map]
  rfl

theorem mem_renumber_elsewhere {p : InspectionRoutePoint}
    (hp : p.inspectionRouteId ≠ inspectionRouteId) :
    p ∈ (renumber inspectionRouteId points w).routePoints ↔ p ∈ w.routePoints := by
  rw [renumber, Table.mem_updateMany]
  simp only [decide_eq_true_eq]
  constructor
  · rintro ⟨q, hq, rfl⟩
    by_cases hroute : q.inspectionRouteId = inspectionRouteId
    · rw [if_pos hroute] at hp
      exact absurd hroute hp
    · rw [if_neg hroute]
      exact hq
  · intro h
    exact ⟨p, h, if_neg hp⟩

theorem moved_others (hup : points.Pairwise fun p q => p.order ≤ q.order)
    {p q : InspectionRoutePoint} {s t : Nat} (hs : (moved dto points i m)[s]? = some p)
    (ht : (moved dto points i m)[t]? = some q) (hp : p.id ≠ m.id) (hq : q.id ≠ m.id)
    (horder : p.order < q.order) : s < t := by
  have hsj : s ≠ newIndex dto m (points.eraseIdx i) := by
    rintro rfl
    exact hp (congrArg _ (Option.some.inj (hs.symm.trans getElem?_moved)))
  have htj : t ≠ newIndex dto m (points.eraseIdx i) := by
    rintro rfl
    exact hq (congrArg _ (Option.some.inj (ht.symm.trans getElem?_moved)))
  rcases Nat.lt_trichotomy s t with hst | rfl | hts
  · exact hst
  · rw [Option.some.inj (hs.symm.trans ht)] at horder
    exact absurd horder (lt_irrefl _)
  · exact absurd (moveIdx_others hup ht hs htj hsj hts) (not_le.mpr horder)

theorem placed_moved (hm : points[i]? = some m) (hnum : Numbered (points.map (·.order)))
    (hk : 0 ≤ dto.order) (hkn : dto.order < points.length) :
    (newIndex dto m (points.eraseIdx i) : Int) = towards m.order dto.order := by
  have hcount := newIndex_numbered dto hm hnum
  have hfloor : 0 ≤ ⌊dto.order⌋ := Int.floor_nonneg.mpr hk
  have hfloorn : ⌊dto.order⌋ < points.length := Int.floor_lt.mpr (by exact_mod_cast hkn)
  have hceil : 0 ≤ ⌈dto.order⌉ := Int.ceil_nonneg hk
  have hceiln : ⌈dto.order⌉ ≤ points.length := Int.ceil_le.mpr (by exact_mod_cast hkn.le)
  unfold towards
  by_cases hforward : (m.order : ℚ) < dto.order
  · rw [if_pos hforward, if_pos hforward] at hcount
    rw [if_pos hforward]
    omega
  · rw [if_neg hforward, if_neg hforward] at hcount
    rw [if_neg hforward]
    omega

theorem reordered_renumber {w : AssetWorld}
    (hm : (allPoints env inspectionRouteId w)[i]? = some m) (hid : m.id = dto.id) :
    Reordered inspectionRouteId dto w (renumber inspectionRouteId
      (moved dto (allPoints env inspectionRouteId w) i m) w) := by
  have hread : (allPoints env inspectionRouteId w).Perm (pointsOf inspectionRouteId w) :=
    allPoints_perm
  have hperm : (moved dto (allPoints env inspectionRouteId w) i m).Perm _ :=
    (moved_perm hm).trans hread
  have hnodup : ((moved dto (allPoints env inspectionRouteId w) i m).map (·.id)).Nodup :=
    ((moved_perm hm).map _).nodup_iff.mpr allPoints_nodup
  refine ⟨unordered_renumber, fun p => mem_renumber_elsewhere, numbered_renumber hperm hnodup,
    ?_, ?_⟩
  · intro p hp q hq p' hp' q' hq' hpid hqid hpm hqm horder
    obtain ⟨s, hs⟩ := List.mem_iff_getElem?.mp (hperm.mem_iff.mpr hp)
    obtain ⟨t, ht⟩ := List.mem_iff_getElem?.mp (hperm.mem_iff.mpr hq)
    rw [order_renumber hperm hnodup hs hp' hpid, order_renumber hperm hnodup ht hq' hqid]
    exact_mod_cast moved_others allPoints_up hs ht (hid ▸ hpm) (hid ▸ hqm) horder
  · intro hnum hk hkn m₀ hm₀ m' hm' hid₀ hid'
    have hmem : m ∈ pointsOf inspectionRouteId w := hread.mem_iff.mp (List.mem_of_getElem? hm)
    obtain rfl : m₀ = m := Table.eq_of_key_eq (mem_pointsOf.mp hm₀).1 (mem_pointsOf.mp hmem).1
      (hid₀.trans hid.symm)
    have horder := order_renumber hperm hnodup getElem?_moved hm' (hid'.trans hid.symm)
    rw [← hread.length_eq] at hkn
    rw [placed_moved hm ((numbered_congr (hread.map _)).mpr hnum) hk hkn] at horder
    refine ⟨fun k hasked => ?_, horder⟩
    rw [horder, hasked, towards_intCast]

/-- Every reordering of a point of the route goes through, if the route is in sight, and otherwise
    it changes nothing. -/
theorem reorderPoints_exact (hpoint : ∃ m ∈ pointsOf inspectionRouteId w, m.id = dto.id) :
    (∀ route, InSight cls env inspectionRouteId w route →
      ∃ w', (reorderPoints cls env inspectionRouteId dto).run w = (.ok route, w') ∧
        Reordered inspectionRouteId dto w w') ∧
    ((¬ ∃ route, InSight cls env inspectionRouteId w route) →
      ∃ e, (reorderPoints cls env inspectionRouteId dto).run w = (.error e, w)) := by
  obtain ⟨m, hmem, hid⟩ := hpoint
  constructor
  · intro route hsight
    have hread : m ∈ allPoints env inspectionRouteId w := allPoints_perm.mem_iff.mpr hmem
    have hm := getElem?_currentIndex allPoints_nodup hread hid
    exact ⟨_, reorderPoints_run hsight hm, reordered_renumber hm hid⟩
  · intro hsight
    obtain ⟨e, he, -⟩ := reorderPoints_fails dto (.inl hsight)
    rcases hrun : (reorderPoints cls env inspectionRouteId dto).run w with ⟨res, w'⟩
    rw [hrun] at he
    obtain rfl : res = .error e := he
    rw [atomic_reorderPoints w e w' hrun]
    exact ⟨e, rfl⟩

end Reorder

/-! ### Three points -/

/-- The lobby twice, before and after the roof. -/
def threePoints : AssetWorld where
  core := {}
  assets := ⟨[{ id := "lobby", siteId := "acme-1", clientId := "acme" },
    { id := "roof", siteId := "acme-1", clientId := "acme" }], by decide⟩
  routes := ⟨[{ id := "ground", siteId := "acme-1", clientId := "acme" }], List.nodup_singleton _⟩
  routePoints := ⟨[{ id := "p1", inspectionRouteId := "ground", assetId := "lobby", order := 0 },
    { id := "p2", inspectionRouteId := "ground", assetId := "roof", order := 1 },
    { id := "p3", inspectionRouteId := "ground", assetId := "lobby", order := 2 }], by decide⟩

theorem threePoints_reordered : ∃ w',
    (reorderPoints bobAtAcme lobbyEnv "ground" ⟨"p3", 0⟩).run threePoints =
        (.ok { id := "ground", siteId := "acme-1", clientId := "acme" }, w') ∧
      Reordered "ground" ⟨"p3", 0⟩ threePoints w' :=
  (reorderPoints_exact ⟨_, List.mem_of_getLast? rfl, rfl⟩).1 _ ⟨_, rfl, rfl⟩

theorem intCast_ne_half (k : Int) : (k : ℚ) ≠ 1 / 2 := by
  intro h
  have htwice : ((2 * k : Int) : ℚ) = (1 : Int) := by
    rw [Int.cast_mul, h]
    norm_num
  have := Int.cast_injective htwice
  omega

/-- No point has an order between two others. -/
theorem threePoints_halfway : ∃ route w',
    (reorderPoints bobAtAcme lobbyEnv "ground" ⟨"p3", 1 / 2⟩).run threePoints = (.ok route, w') ∧
      Numbered ((pointsOf "ground" threePoints).map (·.order)) ∧
      (0 : ℚ) ≤ 1 / 2 ∧ (1 / 2 : ℚ) < (pointsOf "ground" threePoints).length ∧
      ∃ m' ∈ pointsOf "ground" w', m'.id = "p3" ∧ (m'.order : ℚ) ≠ 1 / 2 := by
  refine ⟨_, _, reorderPoints_run ⟨_, rfl, rfl⟩ rfl, by decide, by norm_num, ?_, ?_⟩
  · show (1 / 2 : ℚ) < (3 : Nat)
    norm_num
  · rw [pointsOf_renumber]
    exact ⟨_, List.mem_of_getLast? rfl, rfl, intCast_ne_half _⟩

/-! ## 7. A point that is not on the route -/

/-- The call fails with an error of the client's, or goes through and does nothing; and either way
    no point has another order. -/
structure Harmless (cls : Cls) (env : InspectionEnv) (inspectionRouteId : String)
    (dto : ReorderInspectionRoutePointsDto) (w : AssetWorld) : Prop where
  ends : (∃ e, ((reorderPoints cls env inspectionRouteId dto).run w).1 = .error e ∧
      e.IsClientError) ∨
    ∃ route, (reorderPoints cls env inspectionRouteId dto).run w = (.ok route, w)
  orders : ∀ p ∈ w.routePoints,
    ∀ p' ∈ ((reorderPoints cls env inspectionRouteId dto).after w).routePoints,
      p'.id = p.id → p'.order = p.order

/-- The route is in sight and has points, in the orders `0, …, n - 1`, and the order asked for is
    behind the last point but one: where the last one is put, it is. -/
structure LastStays (cls : Cls) (env : InspectionEnv) (inspectionRouteId : String)
    (dto : ReorderInspectionRoutePointsDto) (w : AssetWorld) : Prop where
  inSight : ∃ route, InSight cls env inspectionRouteId w route
  points : pointsOf inspectionRouteId w ≠ []
  numbered : Numbered ((pointsOf inspectionRouteId w).map (·.order))
  asked : 2 ≤ (pointsOf inspectionRouteId w).length →
    ((pointsOf inspectionRouteId w).length : ℚ) - 2 < dto.order

section Unknown

variable {cls : Cls} {env : InspectionEnv} {w : AssetWorld} {inspectionRouteId : String}
  {dto : ReorderInspectionRoutePointsDto} {points : List InspectionRoutePoint} {i : Nat}
  {m : InspectionRoutePoint}

/-- Every point is at its index. -/
def InPlace (points : List InspectionRoutePoint) : Prop :=
  ∀ (t : Nat) (p : InspectionRoutePoint), points[t]? = some p → p.order = t

theorem InPlace.numbered (h : InPlace points) : Numbered (points.map (·.order)) :=
  numbered_of_map_eq_range (map_eq_range_iff.mpr h)

theorem inPlace_of_numbered (hup : points.Pairwise fun p q => p.order ≤ q.order)
    (hnum : Numbered (points.map (·.order))) : InPlace points := by
  have h := hnum.eq_range (List.pairwise_map.mpr hup)
  rw [List.length_map] at h
  exact map_eq_range_iff.mp h

/-- No point changes its order if and only if the orders are `0, …, n - 1` and the point is put
    where it is. -/
theorem inPlace_moved_iff (hup : points.Pairwise fun p q => p.order ≤ q.order)
    (hm : points[i]? = some m) : InPlace (moved dto points i m) ↔
      Numbered (points.map (·.order)) ∧ newIndex dto m (points.eraseIdx i) = i := by
  constructor
  · intro h
    have hnum := (numbered_congr ((moved_perm hm).map _)).mp h.numbered
    refine ⟨hnum, ?_⟩
    have hnew := h _ m getElem?_moved
    have hold := inPlace_of_numbered hup hnum _ m hm
    exact_mod_cast hnew.symm.trans hold
  · rintro ⟨hnum, hsame⟩
    rw [moved, hsame, moveIdx_self hm]
    exact inPlace_of_numbered hup hnum

/-- The last of `n` points stays where it is. -/
theorem newIndex_last_iff (hup : points.Pairwise fun p q => p.order ≤ q.order)
    (hm : points[points.length - 1]? = some m) (hnum : Numbered (points.map (·.order))) :
    newIndex dto m (points.eraseIdx (points.length - 1)) = points.length - 1 ↔
      (2 ≤ points.length → (points.length : ℚ) - 2 < dto.order) := by
  have hpos : 0 < points.length := by
    obtain ⟨h, -⟩ := List.getElem?_eq_some_iff.mp hm
    omega
  have hlast := inPlace_of_numbered hup hnum _ m hm
  have hcount := newIndex_numbered dto hm hnum
  have hasked : (points.length : ℚ) - 2 < dto.order ↔ (points.length : Int) - 2 < ⌈dto.order⌉ := by
    rw [Int.lt_ceil]
    push_cast
    rfl
  rw [hasked]
  by_cases hforward : (m.order : ℚ) < dto.order
  · rw [if_pos hforward, if_pos hforward] at hcount
    have hfloor : m.order ≤ ⌊dto.order⌋ := Int.le_floor.mpr hforward.le
    have hceil : m.order < ⌈dto.order⌉ := Int.lt_ceil.mpr hforward
    omega
  · rw [if_neg hforward, if_neg hforward] at hcount
    have hceil : ⌈dto.order⌉ ≤ m.order := Int.ceil_le.mpr (not_lt.mp hforward)
    omega

theorem renumber_eq_self (hperm : points.Perm (pointsOf inspectionRouteId w))
    (hnodup : (points.map (·.id)).Nodup) (h : InPlace points) :
    renumber inspectionRouteId points w = w := by
  have hpoints : w.routePoints.updateMany (·.inspectionRouteId = inspectionRouteId)
      (.reordered (pointsToUpdate points)) (id_renumbered points) =
        w.routePoints := by
    rw [Table.updateMany_eq_self]
    intro p hp hroute
    obtain ⟨t, ht⟩ := List.mem_iff_getElem?.mp
      (hperm.mem_iff.mpr (mem_pointsOf.mpr ⟨hp, of_decide_eq_true hroute⟩))
    have hsame := (order_reordered hnodup ht).trans (h t p ht).symm
    show { p with order := (p.reordered (pointsToUpdate points)).order } = p
    rw [hsame]
  rw [renumber, hpoints]

/-- Orders that are kept are the indices. -/
theorem inPlace_of_kept (hperm : points.Perm (pointsOf inspectionRouteId w))
    (hnodup : (points.map (·.id)).Nodup)
    (h : ∀ p ∈ w.routePoints, ∀ p' ∈ (renumber inspectionRouteId points w).routePoints,
      p'.id = p.id → p'.order = p.order) : InPlace points := by
  intro t p hp
  have hmem := hperm.mem_iff.mp (List.mem_of_getElem? hp)
  have hleft : p.reordered (pointsToUpdate points) ∈
      pointsOf inspectionRouteId (renumber inspectionRouteId points w) := by
    rw [pointsOf_renumber]
    exact List.mem_map_of_mem hmem
  have hkept := h p (mem_pointsOf.mp hmem).1 _ (mem_pointsOf.mp hleft).1 rfl
  exact hkept.symm.trans (order_reordered hnodup hp)

theorem harmless_renumber_iff {route : InspectionRoute}
    (hperm : points.Perm (pointsOf inspectionRouteId w)) (hnodup : (points.map (·.id)).Nodup)
    (hrun : (reorderPoints cls env inspectionRouteId dto).run w =
      (.ok route, renumber inspectionRouteId points w)) :
    Harmless cls env inspectionRouteId dto w ↔ InPlace points := by
  constructor
  · intro h
    have horders := h.orders
    rw [after_of_run hrun] at horders
    exact inPlace_of_kept hperm hnodup horders
  · intro h
    rw [renumber_eq_self hperm hnodup h] at hrun
    refine ⟨.inr ⟨route, hrun⟩, ?_⟩
    rw [after_of_run hrun]
    intro p hp p' hp' hid
    rw [Table.eq_of_key_eq hp' hp hid]

/-- For a point that is not on the route, it is the last one that is moved. -/
theorem unknownPoint_harmless_iff
    (hunknown : ∀ p ∈ pointsOf inspectionRouteId w, p.id ≠ dto.id) :
    Harmless cls env inspectionRouteId dto w ↔ LastStays cls env inspectionRouteId dto w := by
  by_cases hfails : (¬ ∃ route, InSight cls env inspectionRouteId w route) ∨
      pointsOf inspectionRouteId w = []
  · obtain ⟨e, he, hstatus⟩ := reorderPoints_fails dto hfails
    constructor
    · intro h
      rcases h.ends with ⟨e', he', hclient⟩ | ⟨route, hok⟩
      · rw [Except.error.inj (he'.symm.trans he)] at hclient
        exact absurd hclient.2 (by omega)
      · rw [hok] at he
        exact nomatch he
    · intro h
      exact absurd hfails (not_or.mpr ⟨not_not.mpr h.inSight, h.points⟩)
  · obtain ⟨hsight, hpoints⟩ := not_or.mp hfails
    have hsight := not_not.mp hsight
    obtain ⟨route, hroute⟩ := hsight
    have hread : (allPoints env inspectionRouteId w).Perm (pointsOf inspectionRouteId w) :=
      allPoints_perm
    have hindex : currentIndex dto (allPoints env inspectionRouteId w) =
        (allPoints env inspectionRouteId w).length - 1 :=
      currentIndex_of_unknown fun p hp => hunknown p (hread.mem_iff.mp hp)
    have hpos : 0 < (pointsOf inspectionRouteId w).length := List.length_pos_iff.mpr hpoints
    have hlt : (allPoints env inspectionRouteId w).length - 1 <
        (allPoints env inspectionRouteId w).length := by
      rw [hread.length_eq]
      omega
    have hlast := List.getElem?_eq_getElem hlt
    have hrun := reorderPoints_run hroute ((congrArg _ hindex).trans hlast)
    rw [hindex] at hrun
    rw [harmless_renumber_iff ((moved_perm hlast).trans hread)
      (((moved_perm hlast).map _).nodup_iff.mpr allPoints_nodup) hrun,
      inPlace_moved_iff allPoints_up hlast]
    constructor
    · rintro ⟨hnum, hsame⟩
      have hasked := (newIndex_last_iff allPoints_up hlast hnum).mp hsame
      rw [hread.length_eq] at hasked
      exact ⟨⟨route, hroute⟩, hpoints, (numbered_congr (hread.map _)).mp hnum, hasked⟩
    · intro h
      have hnum := (numbered_congr (hread.map _)).mpr h.numbered
      refine ⟨hnum, (newIndex_last_iff allPoints_up hlast hnum).mpr ?_⟩
      rw [hread.length_eq]
      exact h.asked

end Unknown

/-! ### Three points and none of them -/

/-- Nobody has a point with the id `p9`, and the last point goes to the front. -/
theorem threePoints_unknown :
    (∀ p ∈ pointsOf "ground" threePoints, p.id ≠ "p9") ∧
      ¬ Harmless bobAtAcme lobbyEnv "ground" ⟨"p9", 0⟩ threePoints := by
  refine ⟨by decide, fun h => ?_⟩
  have hkept := h.orders { id := "p3", inspectionRouteId := "ground", assetId := "lobby", order := 2 }
    (by decide) { id := "p3", inspectionRouteId := "ground", assetId := "lobby", order := 0 }
    (by decide) rfl
  exact absurd hkept (by decide)

theorem threePoints_stays :
    Harmless bobAtAcme lobbyEnv "ground" ⟨"p9", 2⟩ threePoints ↔
      LastStays bobAtAcme lobbyEnv "ground" ⟨"p9", 2⟩ threePoints :=
  unknownPoint_harmless_iff (by decide)

end InspectionRoutesService

end ShieldApi
