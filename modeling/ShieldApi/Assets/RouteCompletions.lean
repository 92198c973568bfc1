import ShieldApi.Assets.InspectionRoutes
import ShieldApi.Lib.Runs

/-!
# Sessions and their routes

An inspection that belongs to a walk along a route completes a point of it, in a session of the
route. `create` is given the session by its caller and looks for the point among those of the
session's route; **if it finds none there, it looks on the route the caller names, and files what
it finds under the session all the same**.

`RouteCoherent` is what should hold of every completion. It is an invariant of all other calls but
one: a point that is completed already can be moved to another asset.
-/

set_option autoImplicit false

namespace ShieldApi

open Effect InspectionsService InspectionRoutesService

/-! ## 1. What `create` does to routes and sessions -/

/-- The sessions are there, with their routes and statuses; what is new is pending. -/
structure SessionsKept (t t' : Table InspectionSession String InspectionSession.id) : Prop where
  old : ∀ s ∈ t, ∃ s' ∈ t', s'.id = s.id ∧ s'.inspectionRouteId = s.inspectionRouteId ∧
    s'.status = s.status
  new : ∀ s' ∈ t', (∃ s ∈ t, s.id = s'.id) ∨ s'.status = .pending

theorem sessionsKept_refl (t : Table InspectionSession String InspectionSession.id) :
    SessionsKept t t :=
  ⟨fun s hs => ⟨s, hs, rfl, rfl, rfl⟩, fun s hs => .inl ⟨s, hs, rfl⟩⟩

theorem SessionsKept.status {t t' : Table InspectionSession String InspectionSession.id}
    (h : SessionsKept t t') {s' : InspectionSession} (hs' : s' ∈ t') :
    (∃ s ∈ t, s.id = s'.id ∧ s.status = s'.status) ∨ s'.status = .pending := by
  rcases h.new s' hs' with ⟨s, hs, hid⟩ | hpending
  · obtain ⟨s'', hs'', hid', -, hstatus⟩ := h.old s hs
    obtain rfl := Table.eq_of_key_eq hs'' hs' (hid'.trans hid)
    exact .inl ⟨s, hs, hid, hstatus.symm⟩
  · exact .inr hpending

theorem takeOverSession_kept (owner : Option (InspectionSession × String)) (w : AssetWorld) :
    SessionsKept w.sessions ((takeOverSession owner).after w).sessions := by
  refine Atomic.leaves (I := fun u : AssetWorld => SessionsKept w.sessions u.sessions)
    (atomic_attempt _) (sessionsKept_refl _) fun _ w' hrun => ?_
  have h := attempt_eq_ok.mp hrun
  cases owner with
  | none =>
    obtain ⟨-, rfl⟩ := Prod.mk.inj (Except.ok.inj h)
    exact sessionsKept_refl _
  | some owner =>
    simp only at h
    split at h
    · obtain ⟨-, rfl⟩ := Prod.mk.inj (Except.ok.inj h)
      have hrow : ∀ s : InspectionSession, ∀ s', s' = (if s.id = owner.1.id then
          s.setLastInspector owner.2 else s) → s'.id = s.id ∧
            s'.inspectionRouteId = s.inspectionRouteId ∧ s'.status = s.status := by
        intro s s' hs'
        subst hs'
        split
        · exact ⟨rfl, rfl, rfl⟩
        · exact ⟨rfl, rfl, rfl⟩
      constructor
      case old =>
        intro s hs
        refine ⟨_, List.mem_map.mpr ⟨s, hs, rfl⟩, hrow s _ ?_⟩
        simp only [decide_eq_true_eq]
      case new =>
        intro s' hs'
        obtain ⟨s, hs, rfl⟩ := List.mem_map.mp hs'
        simp only [decide_eq_true_eq]
        exact .inl ⟨s, hs, (hrow s _ rfl).1.symm⟩
    · exact absurd h (by simp)

/-- No route point changes, and no session or inspection goes. -/
structure RowsKept (w w' : AssetWorld) : Prop where
  points : w'.routePoints = w.routePoints
  sessions : SessionsKept w.sessions w'.sessions
  inspections : ∀ i ∈ w.inspections, i ∈ w'.inspections

theorem rowsKept_refl (w : AssetWorld) : RowsKept w w :=
  ⟨rfl, sessionsKept_refl _, fun _ hi => hi⟩

/-- The session a point is completed in: the one that was named, or a new one of its route. -/
def FiledUnder (sessionId : Option String) (p : InspectionRoutePoint) (session : InspectionSession)
    (w : AssetWorld) : Prop :=
  (truthy sessionId = some session.id ∧ session ∈ w.sessions) ∨
    (truthy sessionId = none ∧ session.inspectionRouteId = p.inspectionRouteId ∧
      ∀ s ∈ w.sessions, s.id ≠ session.id)

section Rows

variable {env : InspectionEnv} {rls : Settings} {d : SessionDefaults} {dto : CreateInspectionDto}
  {asset : Asset} {sessionId : Option String}

theorem sessionOfCompletion_filed {p : InspectionRoutePoint} {session : InspectionSession}
    {w w' : AssetWorld}
    (h : sessionOfCompletion rls sessionId (newSession env d dto p) w = .ok (session, w')) :
    ∃ sessions, w' = { w with sessions } ∧ SessionsKept w.sessions sessions ∧ session ∈ sessions ∧
      FiledUnder sessionId p session w := by
  unfold sessionOfCompletion at h
  cases hid : truthy sessionId with
  | some id =>
    simp only [hid] at h
    split at h
    · exact absurd h (by simp)
    · next found hfound =>
      obtain ⟨rfl, rfl⟩ := Prod.mk.inj (Except.ok.inj h)
      obtain ⟨hfind, -⟩ := Option.filter_eq_some_iff.mp hfound
      obtain ⟨hmem, hfid⟩ := Table.find?_eq_some.mp hfind
      exact ⟨w.sessions, rfl, sessionsKept_refl _, hmem, .inl ⟨by rw [hfid]; exact hid, hmem⟩⟩
  | none =>
    simp only [hid] at h
    obtain ⟨t, ht, heq⟩ := map_eq_ok.mp h
    obtain ⟨rfl, rfl⟩ := Prod.mk.inj heq
    have hmem : ∀ s, s ∈ t ↔ s ∈ w.sessions ∨ s = newSession env d dto p := by
      intro s
      rw [Table.mem_insertAll? (insertRows_eq_ok.mp ht).2, List.mem_singleton]
    refine ⟨t, rfl, ⟨fun s hs => ⟨s, (hmem s).mpr (.inl hs), rfl, rfl, rfl⟩, fun s hs => ?_⟩,
      (hmem _).mpr (.inr rfl), .inr ⟨hid, rfl, ?_⟩⟩
    · rcases (hmem s).mp hs with hold | rfl
      · exact .inl ⟨s, hold, rfl⟩
      · exact .inr rfl
    · exact Table.find?_eq_none.mp (insertRows_singleton_ok.mp ⟨t, ht⟩).2

/-- **What the transaction completes**: the point it is given, in the session it belongs to, with an
    inspection of the asset of the request. -/
theorem createRows_completes {point : Option InspectionRoutePoint} {w w' : AssetWorld}
    {r : Inspection × Option InspectionSession}
    (h : (createRows env rls d dto asset sessionId point).run w = (.ok r, w')) :
    RowsKept w w' ∧ (point = none → w'.completedRoutePoints = w.completedRoutePoints) ∧
      ∀ p, point = some p → ∃ session ∈ w'.sessions, ∃ i ∈ w'.inspections,
        i.assetId = dto.asset ∧ i.id = (newCompletedPoint env dto p session).inspectionId ∧
        FiledUnder sessionId p session w ∧
        w.completedRoutePoints.insert? (newCompletedPoint env dto p session) =
          some w'.completedRoutePoints := by
  obtain ⟨ti, tr, w₃, ta, hi, hr, hc, ha, rfl⟩ := createRows_eq_ok h
  have hti : ∀ i, i ∈ ti ↔ i ∈ w.inspections ∨ i = newInspection env d dto asset := by
    intro i
    rw [Table.mem_insertAll? (insertRows_eq_ok.mp hi).2, List.mem_singleton]
  unfold completeRoutePoint at hc
  cases point with
  | none =>
    obtain ⟨-, rfl⟩ := Prod.mk.inj (Except.ok.inj hc)
    exact ⟨⟨rfl, sessionsKept_refl _, fun i hi => (hti i).mpr (.inl hi)⟩, fun _ => rfl,
      fun _ hp => (nomatch hp)⟩
  | some p =>
    simp only at hc
    split at hc
    · exact absurd hc (by simp)
    · next session w₁ hsession =>
      obtain ⟨t, ht, heq⟩ := map_eq_ok.mp hc
      obtain ⟨-, rfl⟩ := Prod.mk.inj heq
      obtain ⟨sessions, rfl, hkept, hmem, hfiled⟩ := sessionOfCompletion_filed hsession
      refine ⟨⟨rfl, hkept, fun i hi => (hti i).mpr (.inl hi)⟩, fun hp => (nomatch hp), ?_⟩
      intro p' hp
      obtain rfl := Option.some.inj hp
      refine ⟨session, hmem, newInspection env d dto asset, (hti _).mpr (.inr rfl), rfl, rfl,
        hfiled, ?_⟩
      rw [← insertAll?_singleton]
      exact (insertRows_eq_ok.mp ht).2

end Rows

/-! ## 2. A call of `create` -/

/-- The caller names a session whose route does not come to the asset, and a route that does. -/
def Strays (dto : CreateInspectionDto) (sessionId routeId : Option String) (w : AssetWorld) :
    Prop :=
  ∃ s ∈ w.sessions, truthy sessionId = some s.id ∧
    (∀ p ∈ w.routePoints, p.inspectionRouteId = s.inspectionRouteId → p.assetId ≠ dto.asset) ∧
    ∃ p ∈ w.routePoints, truthy routeId = some p.inspectionRouteId ∧ p.assetId = dto.asset

section Lookup

variable {env : InspectionEnv} {rls : Settings} {assetId : String}
  {sessionId routeId : Option String} {w : AssetWorld}

/-- What the lookup of a session brings. -/
theorem findSession_eq_ok {session : Option InspectionSession}
    {points : List InspectionRoutePoint}
    (h : findSession env rls sessionId assetId w = .ok (session, points)) :
    (truthy sessionId = none ∧ points = []) ∨
      ∃ s ∈ w.sessions, truthy sessionId = some s.id ∧ points = env.routePointOrder.findMany
        (fun p => p.inspectionRouteId = s.inspectionRouteId && p.assetId = assetId)
        w.routePoints.rows := by
  unfold findSession at h
  cases hid : truthy sessionId with
  | none =>
    simp only [hid] at h
    exact .inl ⟨rfl, (Prod.mk.inj (Except.ok.inj h)).2.symm⟩
  | some id =>
    simp only [hid] at h
    split at h
    · exact absurd h (by simp)
    · next s hs =>
      obtain ⟨hfind, -⟩ := Option.filter_eq_some_iff.mp hs
      obtain ⟨hmem, rfl⟩ := Table.find?_eq_some.mp hfind
      split at h
      · exact .inr ⟨s, hmem, rfl, (Prod.mk.inj (Except.ok.inj h)).2.symm⟩
      · exact absurd h (by simp)

/-- A session that is named is the only one. -/
theorem strays_iff {dto : CreateInspectionDto} {s : InspectionSession} (hs : s ∈ w.sessions)
    (hid : truthy sessionId = some s.id) : Strays dto sessionId routeId w ↔
      (∀ p ∈ w.routePoints, p.inspectionRouteId = s.inspectionRouteId → p.assetId ≠ dto.asset) ∧
        ∃ p ∈ w.routePoints, truthy routeId = some p.inspectionRouteId ∧ p.assetId = dto.asset := by
  constructor
  · intro h
    obtain ⟨s', hs', hid', hnone, hp⟩ := h
    obtain rfl := Table.eq_of_key_eq hs hs' (Option.some.inj (hid.symm.trans hid'))
    exact ⟨hnone, hp⟩
  · intro h
    exact ⟨s, hs, hid, h.1, h.2⟩

/-- The points the lookup of a session brings are all there are. -/
theorem findMany_find?_eq_none {s : InspectionSession} :
    (env.routePointOrder.findMany
      (fun p => p.inspectionRouteId = s.inspectionRouteId && p.assetId = assetId)
      w.routePoints.rows).find? (·.assetId = assetId) = none ↔
        ∀ p ∈ w.routePoints, p.inspectionRouteId = s.inspectionRouteId → p.assetId ≠ assetId := by
  rw [List.find?_eq_none]
  constructor
  · intro h p hp hroute hasset
    refine h p (RowOrder.mem_findMany.mpr ⟨hp, ?_⟩) (decide_eq_true hasset)
    rw [decide_eq_true hroute, decide_eq_true hasset, Bool.and_self]
  · intro h p hp hasset
    obtain ⟨hmem, hat⟩ := RowOrder.mem_findMany.mp hp
    rw [Bool.and_eq_true, decide_eq_true_eq] at hat
    exact h p hmem hat.1 (of_decide_eq_true hasset)

/-- **A point found for a session is on its route unless the call strays.** -/
theorem currentRoutePoint_route_iff {dto : CreateInspectionDto} {s : InspectionSession}
    (hs : s ∈ w.sessions) (hid : truthy sessionId = some s.id) {p : InspectionRoutePoint}
    (hp : currentRoutePoint env (env.routePointOrder.findMany
      (fun p => p.inspectionRouteId = s.inspectionRouteId && p.assetId = dto.asset)
      w.routePoints.rows) routeId dto.asset w = some p) :
    p.inspectionRouteId = s.inspectionRouteId ↔ ¬ Strays dto sessionId routeId w := by
  rw [strays_iff hs hid]
  unfold currentRoutePoint at hp
  rcases Option.or_eq_some_iff.mp hp with hfound | ⟨hnone, hroute⟩
  · obtain ⟨hmem, hat⟩ := RowOrder.mem_findMany.mp (List.mem_of_find?_eq_some hfound)
    rw [Bool.and_eq_true, decide_eq_true_eq, decide_eq_true_eq] at hat
    exact iff_of_true hat.1 fun h => h.1 p hmem hat.1 hat.2
  · have hnone := findMany_find?_eq_none.mp hnone
    obtain ⟨id, hid', hfirst⟩ := Option.bind_eq_some_iff.mp hroute
    obtain ⟨hmem, hat⟩ := RowOrder.findFirst_mem hfirst
    rw [Bool.and_eq_true, decide_eq_true_eq, decide_eq_true_eq] at hat
    refine iff_of_false (fun hsame => hnone p hmem hsame hat.1) fun h => h ⟨hnone, p, hmem, ?_, hat.1⟩
    rw [hat.2]
    exact hid'

/-- A call that strays finds a point. -/
theorem not_strays_of_no_point {dto : CreateInspectionDto} {s : InspectionSession}
    (hs : s ∈ w.sessions) (hid : truthy sessionId = some s.id)
    (hp : currentRoutePoint env (env.routePointOrder.findMany
      (fun p => p.inspectionRouteId = s.inspectionRouteId && p.assetId = dto.asset)
      w.routePoints.rows) routeId dto.asset w = none) : ¬ Strays dto sessionId routeId w := by
  rw [strays_iff hs hid]
  rintro ⟨-, p, hmem, hroute, hasset⟩
  unfold currentRoutePoint at hp
  have hfirst := (Option.or_eq_none_iff.mp hp).2
  rw [hroute, Option.bind_some, RowOrder.findFirst_eq_none] at hfirst
  have hno := hfirst p hmem
  rw [decide_eq_true hasset, decide_eq_true rfl] at hno
  exact absurd hno (by simp)

end Lookup

/-! ## 3. The invariant -/

/-- The completion is of a point of its session's route, with an inspection at the asset of the
    point. -/
def Linked (w : AssetWorld) (c : CompletedInspectionRoutePoint) : Prop :=
  ∃ p ∈ w.routePoints, p.id = c.inspectionRoutePointId ∧
    (∃ s ∈ w.sessions, s.id = c.inspectionSessionId ∧
      s.inspectionRouteId = p.inspectionRouteId) ∧
    ∃ i ∈ w.inspections, i.id = c.inspectionId ∧ i.assetId = p.assetId

def RouteCoherent (w : AssetWorld) : Prop := ∀ c ∈ w.completedRoutePoints, Linked w c

theorem RowsKept.linked {w w' : AssetWorld} (h : RowsKept w w')
    {c : CompletedInspectionRoutePoint} (hc : Linked w c) : Linked w' c := by
  obtain ⟨p, hp, hpid, ⟨s, hs, hsid, hroute⟩, i, hi, hiid, hasset⟩ := hc
  obtain ⟨s', hs', hsid', hroute', -⟩ := h.sessions.old s hs
  exact ⟨p, h.points ▸ hp, hpid, ⟨s', hs', hsid'.trans hsid, hroute'.trans hroute⟩,
    i, h.inspections i hi, hiid, hasset⟩

theorem RowsKept.coherent {w w' : AssetWorld} (h : RowsKept w w')
    (hsame : w'.completedRoutePoints = w.completedRoutePoints) (hw : RouteCoherent w) :
    RouteCoherent w' := fun c hc => h.linked (hw c (hsame ▸ hc))

/-- One completion more: it is the only one that counts. -/
theorem RowsKept.coherent_insert {w w' : AssetWorld} (h : RowsKept w w')
    {c : CompletedInspectionRoutePoint}
    (hins : w.completedRoutePoints.insert? c = some w'.completedRoutePoints)
    (hw : RouteCoherent w) : RouteCoherent w' ↔ Linked w' c := by
  constructor
  · intro hw'
    exact hw' c ((Table.mem_insert? hins).mpr (.inr rfl))
  · intro hc c' hmem
    rcases (Table.mem_insert? hins).mp hmem with hold | rfl
    · exact h.linked (hw c' hold)
    · exact hc

theorem InspectionRoutesService.PointsKept.coherent {w w' : AssetWorld} (h : PointsKept w w')
    (hw : RouteCoherent w) : RouteCoherent w' := by
  intro c hc
  obtain ⟨p, hp, hpid, ⟨s, hs, hsid, hroute⟩, i, hi, hiid, hasset⟩ := hw c (h.completions c hc)
  obtain ⟨p', hp', hpid', hroute', hasset'⟩ := h.points c hc p hp hpid
  exact ⟨p', hp', hpid'.trans hpid, ⟨s, h.sessions ▸ hs, hsid, hroute.trans hroute'.symm⟩,
    i, h.inspections ▸ hi, hiid, hasset.trans hasset'.symm⟩

/-! ### A point that is changed -/

/-- The change gives another asset to a point that is completed already. -/
def MovesCompleted (id : String) (dto : UpdateInspectionRoutePointDto) (w : AssetWorld) : Prop :=
  ∃ p ∈ w.routePoints, p.id = id ∧ (∃ c ∈ w.completedRoutePoints, c.inspectionRoutePointId = id) ∧
    dto.assetId.getD p.assetId ≠ p.assetId

theorem coherent_edit_iff {w : AssetWorld} (hw : RouteCoherent w) (id : String)
    (dto : UpdateInspectionRoutePointDto) :
    RouteCoherent ({ w with routePoints := w.routePoints.updateMany (·.id = id) (.edit dto)
                              (InspectionRoutePoint.id_edit dto) }) ↔
      ¬ MovesCompleted id dto w := by
  constructor
  · intro h hmoves
    obtain ⟨p, hp, hpid, ⟨c, hc, hcid⟩, hother⟩ := hmoves
    obtain ⟨p₀, hp₀, hp₀id, -, i, hi, hiid, hasset⟩ := hw c hc
    obtain rfl := Table.eq_of_key_eq hp hp₀ ((hpid.trans hcid.symm).trans hp₀id.symm)
    obtain ⟨p', hp', hp'id, -, i', hi', hi'id, hasset'⟩ := h c hc
    obtain rfl := Table.eq_of_key_eq hi hi' (hiid.trans hi'id.symm)
    obtain ⟨q, hq, rfl⟩ := List.mem_map.mp hp'
    have hqid : q.id = p.id := by
      split at hp'id
      · exact hp'id.trans hp₀id.symm
      · exact hp'id.trans hp₀id.symm
    obtain rfl := Table.eq_of_key_eq hq hp hqid
    rw [if_pos (decide_eq_true hpid)] at hasset'
    exact hother (hasset'.symm.trans hasset)
  · intro hkept c hc
    obtain ⟨p, hp, hpid, ⟨s, hs, hsid, hroute⟩, i, hi, hiid, hasset⟩ := hw c hc
    refine ⟨_, List.mem_map.mpr ⟨p, hp, rfl⟩, ?_⟩
    by_cases hp' : p.id = id
    · have hsame : dto.assetId.getD p.assetId = p.assetId := by
        by_contra hother
        exact hkept ⟨p, hp, hp', ⟨c, hc, hpid.symm.trans hp'⟩, hother⟩
      rw [if_pos (decide_eq_true hp')]
      exact ⟨hpid, ⟨s, hs, hsid, hroute⟩, i, hi, hiid, hasset.trans hsame.symm⟩
    · rw [if_neg (mt of_decide_eq_true hp')]
      exact ⟨hpid, ⟨s, hs, hsid, hroute⟩, i, hi, hiid, hasset⟩

theorem updatePoint_coherent_iff {cls : Cls} {env : InspectionEnv} {inspectionRouteId id : String}
    {dto : UpdateInspectionRoutePointDto} {w : AssetWorld} (hw : RouteCoherent w) :
    RouteCoherent ((updatePoint cls env inspectionRouteId id dto).after w) ↔
      (UpdateGoes cls env inspectionRouteId id dto w → ¬ MovesCompleted id dto w) := by
  by_cases hgo : UpdateGoes cls env inspectionRouteId id dto w
  · rw [updatePoint_of_goes hgo, coherent_edit_iff hw]
    exact ⟨fun h _ => h, fun h => h hgo⟩
  · rw [updatePoint_of_not_goes hgo]
    exact iff_of_true hw fun h => absurd h hgo

/-! ### An inspection that is created -/

section Create

variable {crypto : TokenCrypto} {cls : Cls} {env : InspectionEnv} {rls : Settings}
  {d : SessionDefaults} {dto : CreateInspectionDto} {asset : Asset}
  {inspectionToken sessionId routeId : Option String} {w : AssetWorld}

/-- The transaction keeps the invariant exactly if the call does not stray. -/
theorem createRows_coherent_iff {session : Option InspectionSession}
    {points : List InspectionRoutePoint} {w₁ w' : AssetWorld}
    {r : Inspection × Option InspectionSession}
    (hsession : findSession env rls sessionId dto.asset w = .ok (session, points))
    (htake : RowsKept w w₁) (hsame : w₁.completedRoutePoints = w.completedRoutePoints)
    (hcreate : (createRows env rls d dto asset sessionId
      (currentRoutePoint env points routeId dto.asset w)).run w₁ = (.ok r, w'))
    (hw : RouteCoherent w) : RouteCoherent w' ↔ ¬ Strays dto sessionId routeId w := by
  obtain ⟨hkept, hnone, hsome⟩ := createRows_completes hcreate
  have hw₁ : RouteCoherent w₁ := htake.coherent hsame hw
  cases hpoint : currentRoutePoint env points routeId dto.asset w with
  | none =>
    refine iff_of_true (hkept.coherent (hnone hpoint) hw₁) ?_
    rcases findSession_eq_ok hsession with ⟨hid, -⟩ | ⟨s, hs, hid, rfl⟩
    · intro h
      obtain ⟨s, -, hid', -⟩ := h
      exact absurd (hid.symm.trans hid') (by simp)
    · exact not_strays_of_no_point hs hid hpoint
  | some p =>
    obtain ⟨hp, hpasset⟩ := currentRoutePoint_mem hsession hpoint
    obtain ⟨s', hs', i, hi, hiasset, hiid, hfiled, hins⟩ := hsome p hpoint
    have hp' : p ∈ w'.routePoints := by
      rw [hkept.points, htake.points]
      exact hp
    -- the new completion is linked if its session is of the route of its point
    have hlinked : Linked w' (newCompletedPoint env dto p s') ↔
        p.inspectionRouteId = s'.inspectionRouteId := by
      constructor
      · intro h
        obtain ⟨q, hq, hqid, ⟨s, hs, hsid, hroute⟩, -⟩ := h
        obtain rfl := Table.eq_of_key_eq hq hp' hqid
        obtain rfl := Table.eq_of_key_eq hs hs' hsid
        exact hroute.symm
      · intro hroute
        exact ⟨p, hp', rfl, ⟨s', hs', rfl, hroute.symm⟩, i, hi, hiid, hiasset.trans hpasset.symm⟩
    rw [hkept.coherent_insert hins hw₁, hlinked]
    rcases findSession_eq_ok hsession with ⟨hid, -⟩ | ⟨s, hs, hid, rfl⟩
    · rcases hfiled with ⟨hid', -⟩ | ⟨-, hroute, -⟩
      · exact absurd (hid.symm.trans hid') (by simp)
      · apply iff_of_true hroute.symm
        intro h
        obtain ⟨s, -, hid', -⟩ := h
        exact absurd (hid.symm.trans hid') (by simp)
    · rcases hfiled with ⟨hid', hs₁⟩ | ⟨hid', -⟩
      · obtain ⟨s₁, hs₁', hsid, hroute, -⟩ := htake.sessions.old s hs
        have hs₁s' : s₁.id = s'.id := hsid.trans (Option.some.inj (hid.symm.trans hid'))
        obtain rfl := Table.eq_of_key_eq hs₁' hs₁ hs₁s'
        rw [hroute]
        exact currentRoutePoint_route_iff hs hid hpoint
      · exact absurd (hid'.symm.trans hid) (by simp)

theorem takeOverSession_rowsKept (owner : Option (InspectionSession × String)) (w : AssetWorld) :
    RowsKept w ((takeOverSession owner).after w) ∧
      ((takeOverSession owner).after w).completedRoutePoints = w.completedRoutePoints := by
  have hkept := takeOverSession_kept owner w
  obtain ⟨t, -, htake⟩ := takeOverSession_after owner w
  rw [htake] at hkept ⊢
  exact ⟨⟨rfl, hkept, fun _ hi => hi⟩, rfl⟩

theorem createAccepted_coherent_iff (hw : RouteCoherent w) :
    RouteCoherent ((createAccepted cls env dto sessionId routeId).after w) ↔
      (CreationGoes cls env dto sessionId routeId w → ¬ Strays dto sessionId routeId w) := by
  by_cases hgo : CreationGoes cls env dto sessionId routeId w
  · obtain ⟨rls, session, points, asset, d, t, r, hsession, htake, hcreate⟩ :=
      createAccepted_goes hgo
    obtain ⟨hkept, hsame⟩ := takeOverSession_rowsKept (newOwner
      (buildPrimaryExtension cls env.env.allowedSiteIdsForSite {}).rlsContext session) w
    rw [htake] at hkept hsame
    rw [createRows_coherent_iff hsession hkept hsame hcreate hw]
    exact ⟨fun h _ => h, fun h => h hgo⟩
  · refine iff_of_true ?_ fun h => absurd h hgo
    obtain ⟨owner, h⟩ := createAccepted_not_goes hgo
    rcases h with h | h
    · rw [h]
      exact hw
    · obtain ⟨hkept, hsame⟩ := takeOverSession_rowsKept owner w
      rw [h]
      exact hkept.coherent hsame hw

theorem create_coherent_iff (hw : RouteCoherent w) :
    RouteCoherent ((create crypto cls env dto inspectionToken sessionId routeId).after w) ↔
      ((∃ v, Accepts crypto env.env (inspectionToken.getD "") w v) →
        CreationGoes cls env dto sessionId routeId w → ¬ Strays dto sessionId routeId w) := by
  by_cases h : ∃ v, Accepts crypto env.env (inspectionToken.getD "") w v
  · obtain ⟨keys, cache, hafter⟩ := create_of_accepts h
    have hw' : RouteCoherent (w.withKeys keys cache) := hw
    rw [hafter, createAccepted_coherent_iff hw', creationGoes_withKeys]
    exact ⟨fun h' _ => h', fun h' => h' h⟩
  · obtain ⟨keys, cache, hafter⟩ := create_of_not_accepts h
    rw [hafter]
    exact iff_of_true hw fun h' => absurd h' h

end Create

/-! ## 4. Runs -/

inductive RouteCall
  | create (cls : Cls) (env : InspectionEnv) (dto : CreateInspectionDto)
      (inspectionToken sessionId routeId : Option String)
  | createPoint (cls : Cls) (env : InspectionEnv) (inspectionRouteId : String)
      (dto : CreateInspectionRoutePointDto)
  | updatePoint (cls : Cls) (env : InspectionEnv) (inspectionRouteId id : String)
      (dto : UpdateInspectionRoutePointDto)
  | removePoint (cls : Cls) (env : InspectionEnv) (inspectionRouteId id : String)
  | reorderPoints (cls : Cls) (env : InspectionEnv) (inspectionRouteId : String)
      (dto : ReorderInspectionRoutePointsDto)

def RouteCall.step (crypto : TokenCrypto) (w : AssetWorld) : RouteCall → AssetWorld
  | .create cls env dto inspectionToken sessionId routeId =>
    (InspectionsService.create crypto cls env dto inspectionToken sessionId routeId).after w
  | .createPoint cls env inspectionRouteId dto =>
    (InspectionRoutesService.createPoint cls env inspectionRouteId dto).after w
  | .updatePoint cls env inspectionRouteId id dto =>
    (InspectionRoutesService.updatePoint cls env inspectionRouteId id dto).after w
  | .removePoint cls env inspectionRouteId id =>
    (InspectionRoutesService.removePoint cls env inspectionRouteId id).after w
  | .reorderPoints cls env inspectionRouteId dto =>
    (InspectionRoutesService.reorderPoints cls env inspectionRouteId dto).after w

/-- No `create` that goes through strays, and no `updatePoint` that goes through gives a completed
    point another asset. -/
def RouteCall.StaysOnRoute (crypto : TokenCrypto) (w : AssetWorld) : RouteCall → Prop
  | .create cls env dto inspectionToken sessionId routeId =>
    (∃ v, Accepts crypto env.env (inspectionToken.getD "") w v) →
      CreationGoes cls env dto sessionId routeId w → ¬ Strays dto sessionId routeId w
  | .updatePoint cls env inspectionRouteId id dto =>
    UpdateGoes cls env inspectionRouteId id dto w → ¬ MovesCompleted id dto w
  | _ => True

theorem RouteCall.step_coherent_iff {crypto : TokenCrypto} {w : AssetWorld}
    (hw : RouteCoherent w) (l : RouteCall) :
    RouteCoherent (l.step crypto w) ↔ l.StaysOnRoute crypto w := by
  cases l with
  | create cls env dto inspectionToken sessionId routeId => exact create_coherent_iff hw
  | createPoint cls env inspectionRouteId dto =>
    exact iff_of_true ((createPoint_kept dto w).coherent hw) trivial
  | updatePoint cls env inspectionRouteId id dto => exact updatePoint_coherent_iff hw
  | removePoint cls env inspectionRouteId id =>
    exact iff_of_true ((removePoint_kept id w).coherent hw) trivial
  | reorderPoints cls env inspectionRouteId dto =>
    exact iff_of_true ((reorderPoints_kept dto w).coherent hw) trivial

def twoFloors : AssetWorld :=
  { twoAssets with
    routes := ⟨[{ id := "ground", siteId := "acme-1", clientId := "acme" },
      { id := "upstairs", siteId := "acme-1", clientId := "acme" }], by decide⟩
    routePoints := ⟨[{ id := "p1", inspectionRouteId := "ground", assetId := "lobby" },
      { id := "p2", inspectionRouteId := "upstairs", assetId := "roof" }], by decide⟩
    sessions := ⟨[{ id := "s1", inspectionRouteId := "upstairs", lastInspectorId := "bob",
                    siteId := "acme-1", clientId := "acme" }], by decide⟩ }

theorem twoFloors_coherent : RouteCoherent twoFloors := fun _ hc => absurd hc List.not_mem_nil

def lobbyVisit (sessionId : Option String) : RouteCall :=
  .create bobAtAcme lobbyEnv { asset := "lobby", status := .complete } (some lobbyToken) sessionId
    (some "ground")

end ShieldApi
