import ShieldApi.Assets.SessionStatuses

/-!
# What a session expires by

A pending session that is not complete expires when one of its completions is longer ago than the
cycle of the asset. `findInspectionSession` looks for that among the assets the session has come
to, **and of each asset it reads one completion: the first of its first route point**, of whatever
session and whatever route, in the order in which the database happens to return them. Assets
without a cycle of their own it does not look at, though it has the cycle of the client at hand.

So a session expires by its own completions exactly where those it reads besides, and those it does
not read, make no difference (`expiresByOwn_iff`).
-/

set_option autoImplicit false

namespace ShieldApi

open Effect InspectionsService

/-! ## 1. Completions -/

/-- The one completion that is read of an asset. -/
def firstCompletion (env : InspectionEnv) (w : AssetWorld) (a : Asset) :
    Option CompletedInspectionRoutePoint :=
  (env.routePointOrder.findMany (·.assetId = a.id) w.routePoints.rows).head?.bind fun p =>
    (env.completedOrder.findMany (·.inspectionRoutePointId = p.id)
      w.completedRoutePoints.rows).head?

/-- The asset is in sight and has a cycle, and the session has come to it. -/
structure Searched (rls : Settings) (sessionId : String) (w : AssetWorld) (a : Asset) : Prop where
  mem : a ∈ w.assets
  sees : rls.seesPlace a.clientId a.siteId = true
  cycle : a.inspectionCycle.isSome = true
  come : ∃ p ∈ w.routePoints, p.assetId = a.id ∧ ∃ c ∈ w.completedRoutePoints,
    c.inspectionRoutePointId = p.id ∧ c.inspectionSessionId = sessionId

/-- The completion is the one that is read of the asset. -/
def ReadOf (env : InspectionEnv) (rls : Settings) (sessionId : String) (w : AssetWorld) (a : Asset)
    (c : CompletedInspectionRoutePoint) : Prop :=
  Searched rls sessionId w a ∧ firstCompletion env w a = some c

/-- The completion was recorded in the session, at a point of its route that is the asset's. -/
structure OwnOf (s : InspectionSession) (w : AssetWorld) (a : Asset)
    (c : CompletedInspectionRoutePoint) : Prop where
  asset : a ∈ w.assets
  completion : c ∈ w.completedRoutePoints
  session : c.inspectionSessionId = s.id
  point : ∃ p ∈ w.routePoints, p.inspectionRouteId = s.inspectionRouteId ∧ p.assetId = a.id ∧
    c.inspectionRoutePointId = p.id

/-- The completion is longer ago than the cycle of the asset, or the client's if it has none. -/
def Overdue (now : Nat) (clientDefaultInspectionCycle : Int) (a : Asset)
    (c : CompletedInspectionRoutePoint) : Prop :=
  isBefore c.createdOn
    (subDays now (a.inspectionCycle.getD clientDefaultInspectionCycle)) = true

instance (now : Nat) (cycle : Int) (a : Asset) (c : CompletedInspectionRoutePoint) :
    Decidable (Overdue now cycle a c) :=
  inferInstanceAs (Decidable (_ = true))

section Expiry

variable {cls : Cls} {env : InspectionEnv} {id : String} {w : AssetWorld} {rls : Settings}
  {s : SessionWithRelations}

theorem head?_completions (a : Asset) :
    ((env.routePointOrder.findMany (·.assetId = a.id) w.routePoints.rows).map fun p =>
      (env.completedOrder.findMany (·.inspectionRoutePointId = p.id)
        w.completedRoutePoints.rows).map (·.createdOn)).head?.bind (·.head?) =
      (firstCompletion env w a).map (·.createdOn) := by
  unfold firstCompletion
  cases env.routePointOrder.findMany (·.assetId = a.id) w.routePoints.rows with
  | nil => rfl
  | cons p points => exact List.head?_map

theorem mem_searched {sessionId : String} {a : Asset} : a ∈ w.assets.rows.filter (fun a =>
      rls.seesPlace a.clientId a.siteId && a.inspectionCycle.isSome &&
        w.routePoints.rows.any fun p => p.assetId = a.id &&
          w.completedRoutePoints.rows.any fun c =>
            c.inspectionRoutePointId = p.id && c.inspectionSessionId = sessionId) ↔
      Searched rls sessionId w a := by
  simp only [List.mem_filter, Bool.and_eq_true, List.any_eq_true, decide_eq_true_eq,
    Table.mem_rows]
  constructor
  · intro h
    obtain ⟨hmem, ⟨hsees, hcycle⟩, hcome⟩ := h
    exact ⟨hmem, hsees, hcycle, hcome⟩
  · intro h
    exact ⟨h.mem, ⟨h.sees, h.cycle⟩, h.come⟩

/-- The code decides by the completions it reads. -/
theorem shouldExpire_iff {now : Nat} {cycle : Int} {sessionId : String} :
    shouldExpire now cycle (inspectedAssets env rls sessionId w) = true ↔
      ∃ a c, ReadOf env rls sessionId w a c ∧ Overdue now cycle a c := by
  unfold shouldExpire inspectedAssets
  rw [List.any_map, List.any_eq_true]
  simp only [mem_searched, Function.comp_apply, head?_completions]
  constructor
  · intro h
    obtain ⟨a, ha, hoverdue⟩ := h
    cases hfirst : firstCompletion env w a with
    | none =>
      rw [hfirst] at hoverdue
      exact (nomatch hoverdue)
    | some c =>
      rw [hfirst] at hoverdue
      exact ⟨a, c, ⟨ha, hfirst⟩, hoverdue⟩
  · intro h
    obtain ⟨a, c, ⟨ha, hfirst⟩, hoverdue⟩ := h
    refine ⟨a, ha, ?_⟩
    rw [hfirst]
    exact hoverdue

/-! ## 2. What the call writes -/

theorem handleGetSession_found (h : handleGetSession env rls id w = .ok s) :
    w.sessions.find? id = some s.session ∧
      rls.seesPlace s.session.clientId s.session.siteId = true := by
  unfold handleGetSession at h
  simp only [bind_except_eq_ok, required_eq_ok] at h
  obtain ⟨session, hsession, client, -, inspector, -, route, -, hs⟩ := h
  obtain rfl := Except.ok.inj hs
  exact Option.filter_eq_some_iff.mp hsession

/-- The session is expired after the call. -/
def ExpiredAfter (cls : Cls) (env : InspectionEnv) (id : String) (w : AssetWorld) : Prop :=
  ∃ t, ((findInspectionSession cls env id).after w).sessions.find? id = some t ∧
    t.status = .expired

/-- The caller is shown the session, which is pending and not complete. -/
structure OpenTo (cls : Cls) (env : InspectionEnv) (id : String) (w : AssetWorld) (rls : Settings)
    (s : SessionWithRelations) : Prop where
  settings : (buildPrimaryExtension cls env.env.allowedSiteIdsForSite {}).settings = .ok rls
  shown : handleGetSession env rls id w = .ok s
  pending : s.session.status = .pending
  incomplete : s.allCompleted = false

theorem OpenTo.session_id (h : OpenTo cls env id w rls s) : s.session.id = id :=
  (Table.find?_eq_some.mp (handleGetSession_found h.shown).1).2

/-- The call, from its search for assets on. -/
theorem OpenTo.run (h : OpenTo cls env id w rls s) : (findInspectionSession cls env id).run w =
    (if shouldExpire env.env.now s.client.defaultInspectionCycle
        (inspectedAssets env rls s.session.id w) then
      (do
        let _ ← updateStatus rls s.session.id .expired
        examine (handleGetSession env rls s.session.id) : AssetApi SessionWithRelations)
    else pure s).run w := by
  unfold findInspectionSession
  rw [prismaBuild_of_settings h.settings, run_pure_bind]
  have hlook : (examine fun w => (handleGetSession env rls id w).mapError as404OrThrow).run w =
      (.ok s, w) := examine_eq_ok.mpr ⟨by rw [h.shown]; rfl, rfl⟩
  rw [run_bind_ok hlook, if_neg (not_not_intro h.pending), if_neg (by simp [h.incomplete]),
    run_query_bind]

/-- **It expires the session exactly if a completion it reads is overdue.** -/
theorem OpenTo.expiredAfter_iff (h : OpenTo cls env id w rls s) : ExpiredAfter cls env id w ↔
    ∃ a c, ReadOf env rls s.session.id w a c ∧
      Overdue env.env.now s.client.defaultInspectionCycle a c := by
  rw [← shouldExpire_iff]
  obtain ⟨hfound, hsees⟩ := handleGetSession_found h.shown
  have hid := h.session_id
  unfold ExpiredAfter after
  rw [h.run]
  by_cases hexpire : shouldExpire env.env.now s.client.defaultInspectionCycle
      (inspectedAssets env rls s.session.id w) = true
  · rw [if_pos hexpire]
    refine iff_of_true ?_ hexpire
    have hupdate : (updateStatus rls s.session.id .expired).run w =
        (.ok (s.session.setStatus .expired), { w with
          sessions := w.sessions.updateMany (·.id = s.session.id) (.setStatus .expired)
            (InspectionSession.id_setStatus _) }) := by
      unfold updateStatus
      rw [attempt_eq_ok, hid, hfound, Option.filter_some, if_pos hsees]
    refine ⟨s.session.setStatus .expired, ?_, rfl⟩
    show (((updateStatus rls s.session.id .expired >>= fun _ =>
      examine (handleGetSession env rls s.session.id)).run w).2).sessions.find? id = _
    rw [run_bind_ok hupdate]
    show (w.sessions.updateMany _ _ (InspectionSession.id_setStatus _)).find? id = _
    rw [Table.find?_updateMany, hfound, Option.map_some, if_pos (decide_eq_true rfl)]
  · rw [if_neg hexpire]
    refine iff_of_false ?_ hexpire
    intro hexpired
    obtain ⟨t, ht, hstatus⟩ := hexpired
    obtain rfl := Option.some.inj (hfound.symm.trans ht)
    rw [h.pending] at hstatus
    exact (nomatch hstatus)

/-! ## 3. When that is the session's own affair -/

/-- The session expires exactly if a completion of its own is overdue. -/
def ExpiresByOwn (cls : Cls) (env : InspectionEnv) (id : String) (w : AssetWorld)
    (s : SessionWithRelations) : Prop :=
  ExpiredAfter cls env id w ↔ ∃ a c, OwnOf s.session w a c ∧
    Overdue env.env.now s.client.defaultInspectionCycle a c

/-- A completion of the session's own is read if its asset is in sight and has a cycle, and it is
    the first of the first point of the asset. -/
theorem OwnOf.readOf_iff {a : Asset} {c : CompletedInspectionRoutePoint}
    (h : OwnOf s.session w a c) : ReadOf env rls s.session.id w a c ↔
      rls.seesPlace a.clientId a.siteId = true ∧ a.inspectionCycle.isSome = true ∧
        firstCompletion env w a = some c := by
  constructor
  · intro hread
    exact ⟨hread.1.sees, hread.1.cycle, hread.2⟩
  · intro hread
    obtain ⟨hsees, hcycle, hfirst⟩ := hread
    obtain ⟨p, hp, -, hasset, hpoint⟩ := h.point
    exact ⟨⟨h.asset, hsees, hcycle, p, hp, hasset, c, h.completion, hpoint, h.session⟩, hfirst⟩

/-- A completion that is read is the session's own if it was recorded in the session and at a point
    of its route. -/
theorem ReadOf.ownOf_iff {a : Asset} {c : CompletedInspectionRoutePoint}
    (h : ReadOf env rls s.session.id w a c) : OwnOf s.session w a c ↔
      c.inspectionSessionId = s.session.id ∧ ∃ p ∈ w.routePoints,
        p.id = c.inspectionRoutePointId ∧ p.inspectionRouteId = s.session.inspectionRouteId := by
  obtain ⟨hsearched, hfirst⟩ := h
  obtain ⟨p, hp, hc⟩ := Option.bind_eq_some_iff.mp hfirst
  obtain ⟨hpmem, hasset⟩ := RowOrder.mem_findMany.mp (List.mem_of_mem_head? hp)
  obtain ⟨hcmem, hpoint⟩ := RowOrder.mem_findMany.mp (List.mem_of_mem_head? hc)
  have hasset : p.assetId = a.id := of_decide_eq_true hasset
  have hpoint : c.inspectionRoutePointId = p.id := of_decide_eq_true hpoint
  constructor
  · intro hown
    obtain ⟨q, hq, hroute, -, hqpoint⟩ := hown.point
    exact ⟨hown.session, q, hq, hqpoint.symm, hroute⟩
  · intro hown
    obtain ⟨hsession, q, hq, hqpoint, hroute⟩ := hown
    obtain rfl : p = q := Table.eq_of_key_eq hpmem hq (hpoint.symm.trans hqpoint.symm)
    exact ⟨hsearched.mem, hcmem, hsession, p, hpmem, hroute, hasset, hpoint⟩

/-- Completions of the session's own that are not read, and those of other sessions and other routes
    that are, make no difference. -/
structure OthersNoMatter (env : InspectionEnv) (rls : Settings) (w : AssetWorld)
    (s : SessionWithRelations) : Prop where
  unread : ∀ a c, OwnOf s.session w a c →
    Overdue env.env.now s.client.defaultInspectionCycle a c →
    (rls.seesPlace a.clientId a.siteId = true → a.inspectionCycle.isSome = true →
      firstCompletion env w a ≠ some c) →
    ∃ a' c', ReadOf env rls s.session.id w a' c' ∧
      Overdue env.env.now s.client.defaultInspectionCycle a' c'
  foreign : ∀ a c, ReadOf env rls s.session.id w a c →
    Overdue env.env.now s.client.defaultInspectionCycle a c →
    (c.inspectionSessionId = s.session.id → ∀ p ∈ w.routePoints,
      p.id = c.inspectionRoutePointId → p.inspectionRouteId ≠ s.session.inspectionRouteId) →
    ∃ a' c', OwnOf s.session w a' c' ∧
      Overdue env.env.now s.client.defaultInspectionCycle a' c'

/-- **Where a session expires by its own completions.** -/
theorem expiresByOwn_iff (h : OpenTo cls env id w rls s) :
    ExpiresByOwn cls env id w s ↔ OthersNoMatter env rls w s := by
  unfold ExpiresByOwn
  rw [h.expiredAfter_iff]
  constructor
  · intro hown
    exact ⟨fun a c ha hoverdue _ => hown.mpr ⟨a, c, ha, hoverdue⟩,
      fun a c ha hoverdue _ => hown.mp ⟨a, c, ha, hoverdue⟩⟩
  · intro hothers
    constructor
    · intro hread
      obtain ⟨a, c, ha, hoverdue⟩ := hread
      by_cases hmine : OwnOf s.session w a c
      · exact ⟨a, c, hmine, hoverdue⟩
      · refine hothers.foreign a c ha hoverdue fun hsession p hp hpoint hroute => ?_
        exact hmine (ha.ownOf_iff.mpr ⟨hsession, p, hp, hpoint, hroute⟩)
    · intro hmine
      obtain ⟨a, c, ha, hoverdue⟩ := hmine
      by_cases hread : ReadOf env rls s.session.id w a c
      · exact ⟨a, c, hread, hoverdue⟩
      · refine hothers.unread a c ha hoverdue fun hsees hcycle hfirst => ?_
        exact hread (ha.readOf_iff.mpr ⟨hsees, hcycle, hfirst⟩)

end Expiry

/-! ## 4. Two rounds -/

/-- The lobby was inspected a hundred days ago, in the first round, and today, in the second. -/
def secondRound : AssetWorld where
  core := roundDone.core
  assets := ⟨[
    { id := "lobby", siteId := "acme-1", clientId := "acme", inspectionCycle := some 30 },
    { id := "roof", siteId := "acme-1", clientId := "acme", inspectionCycle := some 30 }],
    by decide⟩
  routes := ⟨[{ id := "ground", siteId := "acme-1", clientId := "acme" }],
    List.nodup_singleton "ground"⟩
  routePoints := ⟨[{ id := "p1", inspectionRouteId := "ground", assetId := "lobby", order := 0 },
    { id := "p2", inspectionRouteId := "ground", assetId := "roof", order := 1 }], by decide⟩
  sessions := ⟨[
    { id := "s1", status := .complete, inspectionRouteId := "ground", lastInspectorId := "bob",
      siteId := "acme-1", clientId := "acme" },
    { id := "s2", inspectionRouteId := "ground", lastInspectorId := "bob", siteId := "acme-1",
      clientId := "acme" }], by decide⟩
  completedRoutePoints := ⟨[
    { id := "c1", inspectionSessionId := "s1", inspectionRoutePointId := "p1",
      inspectionId := "i1", createdOn := 1758582300000 },
    { id := "c2", inspectionSessionId := "s2", inspectionRoutePointId := "p1",
      inspectionId := "i2", createdOn := 1767222000000 }], by decide⟩

/-- The second round is over before it is complete, by what the first one did. -/
theorem secondRound_expires : ∃ rls s, OpenTo bobAtAcme lobbyEnv "s2" secondRound rls s ∧
    ¬ ExpiresByOwn bobAtAcme lobbyEnv "s2" secondRound s := by
  refine ⟨_, _, ⟨rfl, rfl, rfl, rfl⟩, fun h => ?_⟩
  have hnone : ∀ a ∈ secondRound.assets, ∀ c ∈ secondRound.completedRoutePoints,
      c.inspectionSessionId = "s2" → ¬ Overdue lobbyEnv.env.now 30 a c := by
    decide
  have hexpired : ExpiredAfter bobAtAcme lobbyEnv "s2" secondRound := ⟨_, rfl, rfl⟩
  obtain ⟨a, c, hown, hoverdue⟩ := h.mp hexpired
  exact hnone a hown.asset c hown.completion hown.session hoverdue

/-- The first round alone, before it was complete. -/
def firstRound : AssetWorld where
  core := secondRound.core
  assets := secondRound.assets
  routes := secondRound.routes
  routePoints := secondRound.routePoints
  sessions := ⟨[{ id := "s1", inspectionRouteId := "ground", lastInspectorId := "bob",
                  siteId := "acme-1", clientId := "acme" }], List.nodup_singleton _⟩
  completedRoutePoints := ⟨[
    { id := "c1", inspectionSessionId := "s1", inspectionRoutePointId := "p1",
      inspectionId := "i1", createdOn := 1758582300000 }], List.nodup_singleton _⟩

theorem firstRound_expires : ∃ rls s, OpenTo bobAtAcme lobbyEnv "s1" firstRound rls s ∧
    (ExpiresByOwn bobAtAcme lobbyEnv "s1" firstRound s ↔
      OthersNoMatter lobbyEnv rls firstRound s) :=
  ⟨_, _, ⟨rfl, rfl, rfl, rfl⟩, expiresByOwn_iff ⟨rfl, rfl, rfl, rfl⟩⟩

end ShieldApi
