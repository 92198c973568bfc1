import ShieldApi.Assets.InspectionSessions

/-!
# Is a finished session done with?

A session that is complete or cancelled should stay that, and gain no completions; and it should
become complete only when it is.

**The second holds in every interleaving**: a reader that saw all points completed may write so
however late, since completions are never taken back (`Grows`). **The first does not.** A
cancellation looks at nothing, `create` never looks at the status, and a reader writes by what it
saw before. `sessionsHold_iff` says what it takes: every status that is written, and every
inspection that is committed in a session that was named, finds that session open.
-/

set_option autoImplicit false

namespace ShieldApi

open Effect Process InspectionsService

/-! ## 1. What should hold of two states -/

def InspectionSessionStatus.Finished (s : InspectionSessionStatus) : Prop :=
  s = .complete ∨ s = .cancelled

/-- A finished session has its status still, and no completion more. -/
def FinishedKept (w w' : AssetWorld) : Prop :=
  ∀ s ∈ w.sessions, s.status.Finished →
    (∃ s' ∈ w'.sessions, s'.id = s.id ∧ s'.status = s.status) ∧
      ∀ c ∈ w'.completedRoutePoints, c.inspectionSessionId = s.id → c ∈ w.completedRoutePoints

/-- The session is complete now and was not before. -/
def Completes (w w' : AssetWorld) (s : InspectionSession) : Prop :=
  s ∈ w'.sessions ∧ s.status = .complete ∧ ∀ s₀ ∈ w.sessions, s₀.id = s.id → s₀.status ≠ .complete

/-- Every point of the session's route has a completion in the session. -/
def AllRecorded (w : AssetWorld) (s : InspectionSession) : Prop :=
  ∀ p ∈ w.routePoints, p.inspectionRouteId = s.inspectionRouteId →
    ∃ c ∈ w.completedRoutePoints, c.inspectionSessionId = s.id ∧ c.inspectionRoutePointId = p.id

/-- What none of the calls takes away. -/
structure Grows (w w' : AssetWorld) : Prop where
  points : w'.routePoints = w.routePoints
  sessions : ∀ s ∈ w.sessions, ∃ s' ∈ w'.sessions, s'.id = s.id ∧
    s'.inspectionRouteId = s.inspectionRouteId
  completions : ∀ c ∈ w.completedRoutePoints, c ∈ w'.completedRoutePoints

theorem finishedKept_refl (w : AssetWorld) : FinishedKept w w :=
  fun s hs _ => ⟨⟨s, hs, rfl, rfl⟩, fun _ hc _ => hc⟩

theorem FinishedKept.trans {w w' w'' : AssetWorld} (h : FinishedKept w w')
    (h' : FinishedKept w' w'') : FinishedKept w w'' := by
  intro s hs hfinished
  obtain ⟨⟨s', hs', hid, hstatus⟩, hnone⟩ := h s hs hfinished
  obtain ⟨⟨s'', hs'', hid', hstatus'⟩, hnone'⟩ := h' s' hs' (by rw [hstatus]; exact hfinished)
  refine ⟨⟨s'', hs'', hid'.trans hid, hstatus'.trans hstatus⟩, fun c hc hcs => ?_⟩
  exact hnone c (hnone' c hc (hcs.trans hid.symm)) hcs

theorem grows_refl (w : AssetWorld) : Grows w w :=
  ⟨rfl, fun s hs => ⟨s, hs, rfl, rfl⟩, fun _ hc => hc⟩

theorem grows_trans (w w' w'' : AssetWorld) (h : Grows w w') (h' : Grows w' w'') :
    Grows w w'' := by
  refine ⟨h'.points.trans h.points, fun s hs => ?_, fun c hc =>
    h'.completions c (h.completions c hc)⟩
  obtain ⟨s', hs', hid, hroute⟩ := h.sessions s hs
  obtain ⟨s'', hs'', hid', hroute'⟩ := h'.sessions s' hs'
  exact ⟨s'', hs'', hid'.trans hid, hroute'.trans hroute⟩

/-- What is recorded stays so. -/
theorem Grows.allRecorded {w w' : AssetWorld} (h : Grows w w') {s s' : InspectionSession}
    (hs : s ∈ w.sessions) (hs' : s' ∈ w'.sessions) (hid : s'.id = s.id)
    (hall : AllRecorded w s) : AllRecorded w' s' := by
  obtain ⟨s'', hs'', hid', hroute⟩ := h.sessions s hs
  obtain rfl := Table.eq_of_key_eq hs'' hs' (hid'.trans hid.symm)
  intro p hp hpr
  obtain ⟨c, hc, hcs, hcp⟩ := hall p (h.points ▸ hp) (hpr.trans hroute)
  exact ⟨c, h.completions c hc, hcs.trans hid.symm, hcp⟩

/-! ## 2. What a step does -/

namespace SessionWrite

/-- It does not throw: the session is in sight; the rows of the inspection go through. -/
def GoesThrough : SessionWrite → AssetWorld → Prop
  | .status rls id _, w =>
    ((w.sessions.find? id).any fun s => rls.seesPlace s.clientId s.siteId) = true
  | .inspection env rls d dto asset sessionId point, w =>
    RowsGoThrough env rls d dto asset sessionId point w

/-- The session it writes to is not finished; or it is, with the very status. -/
def FindsOpen : SessionWrite → AssetWorld → Prop
  | .status _ id newStatus, w =>
    ∀ s ∈ w.sessions, s.id = id → s.status.Finished → s.status = newStatus
  | .inspection _ _ _ _ _ sessionId point, w =>
    point ≠ none → ∀ s ∈ w.sessions, truthy sessionId = some s.id → ¬ s.status.Finished

end SessionWrite

/-- **What is to be known of a step:** it takes nothing away, it keeps the finished sessions exactly
    if what it announced finds its session open, and it makes no session complete unannounced. -/
structure SessionStep (tag : Option SessionWrite) (write : AssetWorld → AssetWorld) : Prop where
  grows : ∀ w, Grows w (write w)
  finished : ∀ w, FinishedKept w (write w) ↔
    ∀ sw, tag = some sw → sw.GoesThrough w → sw.FindsOpen w
  completes : ∀ w s, Completes w (write w) s →
    ∃ rls, tag = some (.status rls s.id .complete) ∧ ∃ s₀ ∈ w.sessions, s₀.id = s.id

theorem RowsKept.grows {w w' : AssetWorld} (h : RowsKept w w')
    (hcompletions : ∀ c ∈ w.completedRoutePoints, c ∈ w'.completedRoutePoints) : Grows w w' := by
  refine ⟨h.points, fun s hs => ?_, hcompletions⟩
  obtain ⟨s', hs', hid, hroute, -⟩ := h.sessions.old s hs
  exact ⟨s', hs', hid, hroute⟩

/-- Where the sessions keep their status, and new ones are pending, none becomes complete. -/
theorem RowsKept.not_completes {w w' : AssetWorld} (h : RowsKept w w') {s : InspectionSession} :
    ¬ Completes w w' s := by
  intro hcompletes
  obtain ⟨hs, hcomplete, hbefore⟩ := hcompletes
  rcases h.sessions.status hs with ⟨s₀, hs₀, hid, hstatus⟩ | hpending
  · exact hbefore s₀ hs₀ hid (hstatus.trans hcomplete)
  · exact absurd (hcomplete.symm.trans hpending) (by simp)

/-- A step that keeps sessions and completions as they are. -/
theorem sessionStep_of_kept {write : AssetWorld → AssetWorld}
    (h : ∀ w, RowsKept w (write w) ∧
      (write w).completedRoutePoints = w.completedRoutePoints) : SessionStep none write := by
  constructor
  case grows =>
    intro w
    obtain ⟨hkept, hsame⟩ := h w
    exact hkept.grows fun c hc => hsame ▸ hc
  case finished =>
    intro w
    obtain ⟨hkept, hsame⟩ := h w
    refine iff_of_true (fun s hs _ => ⟨?_, fun c hc _ => hsame ▸ hc⟩) fun _ hno => (nomatch hno)
    obtain ⟨s', hs', hid, -, hstatus⟩ := hkept.sessions.old s hs
    exact ⟨s', hs', hid, hstatus⟩
  case completes =>
    intro w s hcompletes
    exact absurd hcompletes (h w).1.not_completes

/-- A write that does nothing where it does not go through. -/
theorem sessionStep_of_goes {sw : SessionWrite} {write : AssetWorld → AssetWorld}
    (hstops : ∀ w, ¬ sw.GoesThrough w → write w = w)
    (hgrows : ∀ w, sw.GoesThrough w → Grows w (write w))
    (hfinished : ∀ w, sw.GoesThrough w → (FinishedKept w (write w) ↔ sw.FindsOpen w))
    (hcompletes : ∀ w s, sw.GoesThrough w → Completes w (write w) s →
      ∃ rls, sw = .status rls s.id .complete ∧ ∃ s₀ ∈ w.sessions, s₀.id = s.id) :
    SessionStep (some sw) write := by
  constructor
  case grows =>
    intro w
    by_cases hgoes : sw.GoesThrough w
    · exact hgrows w hgoes
    · rw [hstops w hgoes]
      exact grows_refl w
  case finished =>
    intro w
    by_cases hgoes : sw.GoesThrough w
    · rw [hfinished w hgoes]
      exact ⟨fun h sw' hsw _ => Option.some.inj hsw ▸ h, fun h => h sw rfl hgoes⟩
    · rw [hstops w hgoes]
      apply iff_of_true (finishedKept_refl w)
      intro sw' hsw hgoes'
      obtain rfl := Option.some.inj hsw
      exact absurd hgoes' hgoes
  case completes =>
    intro w s hc
    by_cases hgoes : sw.GoesThrough w
    · obtain ⟨rls, rfl, hold⟩ := hcompletes w s hgoes hc
      exact ⟨rls, rfl, hold⟩
    · rw [hstops w hgoes] at hc
      exact absurd hc (rowsKept_refl w).not_completes

theorem readOnly_sessionStep {α : Type} {x : AssetApi α} (hx : x.ReadOnly) :
    SessionStep none x.after := by
  apply sessionStep_of_kept
  intro w
  rw [hx w]
  exact ⟨rowsKept_refl w, rfl⟩

theorem takeOverSession_sessionStep (owner : Option (InspectionSession × String)) :
    SessionStep none (takeOverSession owner).after :=
  sessionStep_of_kept (takeOverSession_rowsKept owner)

theorem createBegin_sessionStep (crypto : TokenCrypto) (env : InspectionEnv)
    (inspectionToken : Option String) :
    SessionStep none (createBegin crypto env inspectionToken).after := by
  apply sessionStep_of_kept
  intro w
  obtain ⟨keys, cache, hafter⟩ :=
    TagsService.validateInspectionToken_after crypto env.env (inspectionToken.getD "") w
  have hkept : RowsKept w (w.withKeys keys cache) ∧
      (w.withKeys keys cache).completedRoutePoints = w.completedRoutePoints :=
    ⟨⟨rfl, sessionsKept_refl _, fun _ hi => hi⟩, rfl⟩
  refine leaves_bind (I := fun u : AssetWorld => RowsKept w u ∧
    u.completedRoutePoints = w.completedRoutePoints) ?_ fun v w₁ hrun => ?_
  · unfold Leaves
    rw [hafter]
    exact hkept
  · rw [after_of_run hrun] at hafter
    subst hafter
    exact (readOnly_raiseIf _ _).leaves hkept

/-! ### A status -/

theorem updateStatus_goes {rls : Settings} {id : String} {status : InspectionSessionStatus}
    {w : AssetWorld} (h : (SessionWrite.status rls id status).GoesThrough w) :
    (updateStatus rls id status).after w = w.withSessions
      (w.sessions.updateMany (·.id = id) (.setStatus status)
        (InspectionSession.id_setStatus _)) := by
  obtain ⟨s, hs, hsees⟩ := (Option.any_eq_true _ _).mp h
  have hrun : (updateStatus rls id status).run w = (.ok (s.setStatus status), w.withSessions
      (w.sessions.updateMany (·.id = id) (.setStatus status)
        (InspectionSession.id_setStatus _))) := by
    refine attempt_eq_ok.mpr ?_
    rw [hs, Option.filter_some, if_pos hsees]
    rfl
  exact after_of_run hrun

theorem updateStatus_stops {rls : Settings} {id : String} {status : InspectionSessionStatus}
    {w : AssetWorld} (h : ¬ (SessionWrite.status rls id status).GoesThrough w) :
    (updateStatus rls id status).after w = w := by
  refine after_of_run (run_attempt_error (e := .recordNotFound) ?_)
  cases hs : w.sessions.find? id with
  | none => rfl
  | some s =>
    have hsees : ¬ rls.seesPlace s.clientId s.siteId = true := fun hsees =>
      h ((Option.any_eq_true _ _).mpr ⟨s, hs, hsees⟩)
    rw [Option.filter_some, if_neg hsees]

theorem mem_setStatus {id : String} {status : InspectionSessionStatus} {w : AssetWorld}
    {s' : InspectionSession} :
    s' ∈ w.sessions.updateMany (·.id = id) (.setStatus status)
        (InspectionSession.id_setStatus _) ↔
      ∃ s ∈ w.sessions, s' = if s.id = id then s.setStatus status else s := by
  rw [Table.mem_updateMany]
  simp only [decide_eq_true_eq]
  constructor
  · intro h
    obtain ⟨s, hs, heq⟩ := h
    exact ⟨s, hs, heq.symm⟩
  · intro h
    obtain ⟨s, hs, heq⟩ := h
    exact ⟨s, hs, heq.symm⟩

theorem updateStatus_sessionStep (rls : Settings) (id : String)
    (status : InspectionSessionStatus) :
    SessionStep (some (.status rls id status)) (updateStatus rls id status).after := by
  refine sessionStep_of_goes (fun w => updateStatus_stops) (fun w hgoes => ?_) (fun w hgoes => ?_)
    fun w s hgoes hcompletes => ?_
  · rw [updateStatus_goes hgoes]
    refine ⟨rfl, fun s hs => ⟨_, mem_setStatus.mpr ⟨s, hs, rfl⟩, ?_⟩, fun _ hc => hc⟩
    split
    · exact ⟨rfl, rfl⟩
    · exact ⟨rfl, rfl⟩
  · rw [updateStatus_goes hgoes]
    constructor
    · intro hkept s hs hid hfinished
      obtain ⟨⟨s', hs', hid', hstatus⟩, -⟩ := hkept s hs hfinished
      obtain ⟨s₀, hs₀, rfl⟩ := mem_setStatus.mp hs'
      have hs₀s : s₀.id = s.id := by
        rw [apply_ite InspectionSession.id, InspectionSession.id_setStatus, ite_self] at hid'
        exact hid'
      obtain rfl := Table.eq_of_key_eq hs₀ hs hs₀s
      rw [if_pos hid] at hstatus
      exact hstatus.symm
    · intro hopen s hs hfinished
      refine ⟨⟨_, mem_setStatus.mpr ⟨s, hs, rfl⟩, ?_⟩, fun _ hc _ => hc⟩
      by_cases hid : s.id = id
      · rw [if_pos hid]
        exact ⟨rfl, (hopen s hs hid hfinished).symm⟩
      · rw [if_neg hid]
        exact ⟨rfl, rfl⟩
  · obtain ⟨hs, hcomplete, hbefore⟩ := hcompletes
    rw [updateStatus_goes hgoes] at hs
    obtain ⟨s₀, hs₀, rfl⟩ := mem_setStatus.mp hs
    by_cases hid : s₀.id = id
    · rw [if_pos hid] at hcomplete ⊢
      have hstatus : status = .complete := hcomplete
      rw [hstatus, InspectionSession.id_setStatus, hid]
      exact ⟨rls, rfl, s₀, hs₀, hid⟩
    · rw [if_neg hid] at hcomplete hbefore
      exact absurd hcomplete (hbefore s₀ hs₀ rfl)

/-! ### An inspection -/

section Inspection

variable {env : InspectionEnv} {rls : Settings} {d : SessionDefaults} {dto : CreateInspectionDto}
  {asset : Asset} {sessionId : Option String} {point : Option InspectionRoutePoint}

theorem createRows_stops {w : AssetWorld}
    (h : ¬ RowsGoThrough env rls d dto asset sessionId point w) :
    (createRows env rls d dto asset sessionId point).after w = w := by
  rcases (atomic_transaction _).cases w with hsame | ⟨r, hrun⟩
  · exact hsame
  · exact absurd (createRows_ok.mp ⟨r, _, hrun⟩) h

/-- A completion more spoils the finished sessions exactly if its own is one. -/
theorem finishedKept_completion {w w' : AssetWorld} (hkept : RowsKept w w')
    {c : CompletedInspectionRoutePoint}
    (hins : w.completedRoutePoints.insert? c = some w'.completedRoutePoints) :
    FinishedKept w w' ↔
      ∀ s ∈ w.sessions, c.inspectionSessionId = s.id → ¬ s.status.Finished := by
  constructor
  · intro h s hs hid hfinished
    have hold := (h s hs hfinished).2 c ((Table.mem_insert? hins).mpr (.inr rfl)) hid
    exact (Table.insert?_eq_some.mp hins).2 c hold rfl
  · intro hopen s hs hfinished
    obtain ⟨s', hs', hid, -, hstatus⟩ := hkept.sessions.old s hs
    refine ⟨⟨s', hs', hid, hstatus⟩, fun c' hc' hcs => ?_⟩
    rcases (Table.mem_insert? hins).mp hc' with hold | rfl
    · exact hold
    · exact absurd hfinished (hopen s hs hcs)

theorem createRows_finished {w w' : AssetWorld} {r : Inspection × Option InspectionSession}
    (hrun : (createRows env rls d dto asset sessionId point).run w = (.ok r, w')) :
    FinishedKept w w' ↔ (point ≠ none → ∀ s ∈ w.sessions, truthy sessionId = some s.id →
      ¬ s.status.Finished) := by
  obtain ⟨hkept, hnone, hsome⟩ := createRows_completes hrun
  cases point with
  | none =>
    refine iff_of_true (fun s hs _ => ?_) fun hno => absurd rfl hno
    obtain ⟨s', hs', hid, -, hstatus⟩ := hkept.sessions.old s hs
    exact ⟨⟨s', hs', hid, hstatus⟩, fun c hc _ => hnone rfl ▸ hc⟩
  | some p =>
    obtain ⟨session, -, _, -, -, -, hfiled, hins⟩ := hsome p rfl
    rw [finishedKept_completion hkept hins]
    have hnew : (newCompletedPoint env dto p session).inspectionSessionId = session.id := rfl
    rw [hnew]
    rcases hfiled with ⟨hid, -⟩ | ⟨hid, -, hfresh⟩
    · simp only [hid, Option.some.injEq, ne_eq, reduceCtorEq, not_false_eq_true, true_implies]
    · apply iff_of_true (fun s hs hsid => absurd hsid.symm (hfresh s hs))
      intro _ s _ hsid
      rw [hid] at hsid
      exact absurd hsid (by simp)

theorem createRows_sessionStep (env : InspectionEnv) (rls : Settings) (d : SessionDefaults)
    (dto : CreateInspectionDto) (asset : Asset) (sessionId : Option String)
    (point : Option InspectionRoutePoint) :
    SessionStep (some (.inspection env rls d dto asset sessionId point))
      (createRows env rls d dto asset sessionId point).after := by
  refine sessionStep_of_goes (fun w => createRows_stops) (fun w hgoes => ?_) (fun w hgoes => ?_)
    fun w s hgoes hcompletes => ?_
  · obtain ⟨r, w', hrun⟩ := createRows_run hgoes
    obtain ⟨hkept, hnone, hsome⟩ := createRows_completes hrun
    rw [after_of_run hrun]
    apply hkept.grows
    intro c hc
    cases point with
    | none => exact hnone rfl ▸ hc
    | some p =>
      obtain ⟨session, -, i, -, -, -, -, hins⟩ := hsome p rfl
      exact (Table.mem_insert? hins).mpr (.inl hc)
  · obtain ⟨r, w', hrun⟩ := createRows_run hgoes
    rw [after_of_run hrun]
    exact createRows_finished hrun
  · obtain ⟨r, w', hrun⟩ := createRows_run hgoes
    rw [after_of_run hrun] at hcompletes
    exact absurd hcompletes (createRows_completes hrun).1.not_completes

end Inspection

/-! ## 3. What a reader has seen -/

/-- Whoever is about to make a session complete finds everything recorded. -/
def SeesAllRecorded (tag : Option SessionWrite) (w : AssetWorld) : Prop :=
  ∀ rls id, tag = some (.status rls id .complete) → ∀ s ∈ w.sessions, s.id = id → AllRecorded w s

theorem seesAllRecorded_none {s : AssetWorld} :
    ∀ w, Grows s w → SeesAllRecorded none w := fun _ _ _ _ h => (nomatch h)

theorem seesAllRecorded_status {rls : Settings} {id : String} {status : InspectionSessionStatus}
    (hstatus : status ≠ .complete) {s : AssetWorld} :
    ∀ w, Grows s w → SeesAllRecorded (some (.status rls id status)) w := by
  intro w _ rls' id' h
  injection h with h
  injection h with _ _ h
  exact absurd h hstatus

theorem handleGetSession_eq_ok {env : InspectionEnv} {rls : Settings} {id : String}
    {w : AssetWorld} {s : SessionWithRelations} (h : handleGetSession env rls id w = .ok s) :
    s.session ∈ w.sessions ∧
      s.inspectionRoutePoints = env.routePointOrder.findMany
        (·.inspectionRouteId = s.session.inspectionRouteId) w.routePoints.rows ∧
      s.completedInspectionRoutePoints = env.completedOrder.findMany
        (·.inspectionSessionId = s.session.id) w.completedRoutePoints.rows := by
  unfold handleGetSession at h
  simp only [bind_except_eq_ok, required_eq_ok] at h
  obtain ⟨session, hsession, client, -, inspector, -, route, -, hs⟩ := h
  obtain rfl := Except.ok.inj hs
  exact ⟨(Table.find?_eq_some.mp (Option.filter_eq_some_iff.mp hsession).1).1, rfl, rfl⟩

theorem allRecorded_of_allCompleted {env : InspectionEnv} {rls : Settings} {id : String}
    {w : AssetWorld} {s : SessionWithRelations} (h : handleGetSession env rls id w = .ok s)
    (hall : s.allCompleted = true) : AllRecorded w s.session := by
  obtain ⟨-, hpoints, hcompleted⟩ := handleGetSession_eq_ok h
  intro p hp hroute
  have hp' : p ∈ s.inspectionRoutePoints := by
    rw [hpoints]
    exact RowOrder.mem_findMany.mpr ⟨hp, decide_eq_true hroute⟩
  have hin := List.all_eq_true.mp hall p hp'
  obtain ⟨c, hc, hcp⟩ := List.mem_map.mp (List.contains_iff_mem.mp hin)
  rw [hcompleted] at hc
  obtain ⟨hmem, hcs⟩ := RowOrder.mem_findMany.mp hc
  exact ⟨c, hmem, of_decide_eq_true hcs, hcp⟩

theorem firstLook_eq_ok {cls : Cls} {env : InspectionEnv} {id : String} {w t : AssetWorld}
    {r : Settings × SessionWithRelations} (h : (firstLook cls env id).run w = (.ok r, t)) :
    handleGetSession env r.1 id w = .ok r.2 := by
  unfold firstLook at h
  simp only [bind_eq_ok, examine_eq_ok, run_pure] at h
  obtain ⟨rls, w₁, hbuild, session, _, ⟨hlook, rfl⟩, hr⟩ := h
  obtain ⟨hr, -⟩ := Prod.mk.inj hr
  obtain rfl := Except.ok.inj hr
  rw [(readOnly_prismaBuild _ _ _).ok hbuild] at hlook
  cases hget : handleGetSession env rls id w with
  | error e =>
    rw [hget] at hlook
    exact (nomatch hlook)
  | ok s =>
    rw [hget] at hlook
    exact congrArg _ (Except.ok.inj hlook)

theorem close_finds {env : InspectionEnv} {rls : Settings} {id : String}
    {status : InspectionSessionStatus} {w : AssetWorld}
    (h : ∀ u, Grows w u → SeesAllRecorded (some (.status rls id status)) u) :
    (SessionSteps.close env rls id status).Finds Grows SeesAllRecorded w :=
  finds_atomically_bind h fun _ _ _ _ _ => finds_atomically seesAllRecorded_none

theorem findInspectionSession_finds (cls : Cls) (env : InspectionEnv) (id : String)
    (w : AssetWorld) :
    (SessionSteps.findInspectionSession cls env id).Finds Grows SeesAllRecorded w := by
  apply finds_atomically_bind seesAllRecorded_none
  intro u found t _ hrun
  obtain ⟨rls, session⟩ := found
  have hlook : handleGetSession env rls id u = .ok session := firstLook_eq_ok hrun
  show Process.Finds _ _ (if _ then _ else _) _
  by_cases hpending : session.session.status ≠ .pending
  · rw [if_pos hpending]
    trivial
  · rw [if_neg hpending]
    by_cases hall : session.allCompleted = true
    · rw [if_pos hall]
      apply close_finds
      intro v huv rls' id' h s hs hid
      injection h with h
      injection h with _ h _
      exact huv.allRecorded (handleGetSession_eq_ok hlook).1 hs (hid.trans h.symm)
        (allRecorded_of_allCompleted hlook hall)
    · rw [if_neg hall]
      apply finds_atomically_bind seesAllRecorded_none
      intro v result t _ _
      split
      · exact close_finds (seesAllRecorded_status (by simp))
      · trivial

theorem cancelInspectionSession_finds (cls : Cls) (env : InspectionEnv) (id : String)
    (w : AssetWorld) :
    (SessionSteps.cancelInspectionSession cls env id).Finds Grows SeesAllRecorded w :=
  finds_atomically_bind seesAllRecorded_none fun _ _ _ _ _ =>
    finds_atomically (seesAllRecorded_status (by simp))

theorem create_finds (crypto : TokenCrypto) (cls : Cls) (env : InspectionEnv)
    (dto : CreateInspectionDto) (inspectionToken sessionId routeId : Option String)
    (w : AssetWorld) :
    (SessionSteps.create crypto cls env dto inspectionToken sessionId routeId).Finds Grows
      SeesAllRecorded w :=
  finds_atomically_bind seesAllRecorded_none fun _ _ _ _ _ =>
    finds_atomically_bind seesAllRecorded_none fun _ _ _ _ _ =>
      finds_atomically_bind seesAllRecorded_none fun _ _ _ _ _ =>
        finds_atomically_bind seesAllRecorded_none fun _ _ _ _ _ =>
          finds_atomically_bind seesAllRecorded_none fun _ _ _ _ _ =>
            finds_atomically fun _ _ _ _ h => by
              injection h with h
              injection h

/-! ## 4. The calls -/

theorem close_sessionSteps (env : InspectionEnv) (rls : Settings) (id : String)
    (status : InspectionSessionStatus) :
    (SessionSteps.close env rls id status).Every SessionStep :=
  (every_atomically (updateStatus_sessionStep rls id status)).bind fun _ =>
    every_atomically (readOnly_sessionStep (readOnly_examine _))

theorem findInspectionSession_sessionSteps (cls : Cls) (env : InspectionEnv) (id : String) :
    (SessionSteps.findInspectionSession cls env id).Every SessionStep := by
  refine (every_atomically (readOnly_sessionStep ?_)).bind fun found => ?_
  · exact (readOnly_prismaBuild cls env.env {}).bind fun _ => (readOnly_examine _).bind fun _ =>
      readOnly_pure _
  · obtain ⟨rls, session⟩ := found
    show Process.Every _ (if _ then _ else _)
    split
    · exact every_pure _
    · split
      · exact close_sessionSteps env rls _ _
      · apply (every_atomically (readOnly_sessionStep (readOnly_query _))).bind
        intro result
        split
        · exact close_sessionSteps env rls _ _
        · exact every_pure _

theorem cancelInspectionSession_sessionSteps (cls : Cls) (env : InspectionEnv) (id : String) :
    (SessionSteps.cancelInspectionSession cls env id).Every SessionStep :=
  (every_atomically (readOnly_sessionStep (readOnly_prismaBuild cls env.env {}))).bind fun rls =>
    every_atomically (updateStatus_sessionStep rls id .cancelled)

theorem create_sessionSteps (crypto : TokenCrypto) (cls : Cls) (env : InspectionEnv)
    (dto : CreateInspectionDto) (inspectionToken sessionId routeId : Option String) :
    (SessionSteps.create crypto cls env dto inspectionToken sessionId routeId).Every
      SessionStep := by
  refine (every_atomically (createBegin_sessionStep crypto env inspectionToken)).bind fun _ =>
    (every_atomically (readOnly_sessionStep ?_)).bind fun found =>
      (every_atomically (readOnly_sessionStep (readOnly_examine _))).bind fun asset =>
        (every_atomically (takeOverSession_sessionStep _)).bind fun _ =>
          (every_atomically (readOnly_sessionStep ?_)).bind fun r =>
            every_atomically (createRows_sessionStep env found.1 r.2 dto asset sessionId r.1)
  · exact (readOnly_prismaBuild cls env.env {}).bind fun _ => (readOnly_examine _).bind fun _ =>
      readOnly_pure _
  · exact (readOnly_query _).bind fun _ => (readOnly_orRaise _ _).bind fun _ => readOnly_pure _

inductive SessionCall
  | create (cls : Cls) (env : InspectionEnv) (dto : CreateInspectionDto)
      (inspectionToken sessionId routeId : Option String)
  | findInspectionSession (cls : Cls) (env : InspectionEnv) (id : String)
  | cancelInspectionSession (cls : Cls) (env : InspectionEnv) (id : String)

namespace SessionCall

def steps (crypto : TokenCrypto) : SessionCall → SessionSteps Unit
  | .create cls env dto inspectionToken sessionId routeId =>
    SessionSteps.create crypto cls env dto inspectionToken sessionId routeId >>= fun _ => pure ()
  | .findInspectionSession cls env id =>
    SessionSteps.findInspectionSession cls env id >>= fun _ => pure ()
  | .cancelInspectionSession cls env id =>
    SessionSteps.cancelInspectionSession cls env id >>= fun _ => pure ()

theorem steps_every (crypto : TokenCrypto) (call : SessionCall) :
    (call.steps crypto).Every SessionStep := by
  cases call with
  | create cls env dto inspectionToken sessionId routeId =>
    exact (create_sessionSteps crypto cls env dto inspectionToken sessionId routeId).bind
      fun _ => every_pure _
  | findInspectionSession cls env id =>
    exact (findInspectionSession_sessionSteps cls env id).bind fun _ => every_pure _
  | cancelInspectionSession cls env id =>
    exact (cancelInspectionSession_sessionSteps cls env id).bind fun _ => every_pure _

theorem steps_finds (crypto : TokenCrypto) (call : SessionCall) (w : AssetWorld) :
    (call.steps crypto).Finds Grows SeesAllRecorded w := by
  cases call with
  | create cls env dto inspectionToken sessionId routeId =>
    exact (create_finds crypto cls env dto inspectionToken sessionId routeId w).bind_pure
  | findInspectionSession cls env id =>
    exact (findInspectionSession_finds cls env id w).bind_pure
  | cancelInspectionSession cls env id =>
    exact (cancelInspectionSession_finds cls env id w).bind_pure

end SessionCall

/-! ## 5. Any interleaving -/

abbrev SessionPool (C : Type) : Type := Pool C AssetWorld (Option SessionWrite) ApiError Unit

/-- Any number of calls on one store. -/
def sessionPool {C : Type} (crypto : TokenCrypto) (w : AssetWorld) (calls : C → SessionCall) :
    SessionPool C :=
  { store := w, process := fun c => (calls c).steps crypto }

section Runs

variable {C : Type} [DecidableEq C]

/-- **The claim about a run:** a session that is finished is so ever after, with the completions it
    had; and one that becomes complete does so when all is recorded. -/
structure SessionsHold (start : SessionPool C) (run : List C) : Prop where
  finished : ∀ u v, Earlier Pool.step start run u v → FinishedKept u.store v.store
  complete : ∀ u c s, Fired Pool.step start run u c →
    Completes u.store (u.step c).store s → AllRecorded (u.step c).store s

variable {crypto : TokenCrypto} {w : AssetWorld} {calls : C → SessionCall} {run : List C}

theorem sessionPool_every {u : SessionPool C} {c : C}
    (hf : Fired Pool.step (sessionPool crypto w calls) run u c) :
    ∀ c, (u.process c).Every SessionStep :=
  hf.reached.invariant (I := fun u : SessionPool C => ∀ c, (u.process c).Every SessionStep)
    (fun c => (calls c).steps_every crypto) fun _ c _ hu => Pool.every_step hu c

/-- **The half that always holds.** -/
theorem completes_recorded {u : SessionPool C} {c : C} {s : InspectionSession}
    (hf : Fired Pool.step (sessionPool crypto w calls) run u c)
    (hcompletes : Completes u.store (u.step c).store s) : AllRecorded (u.step c).store s := by
  rcases Pool.step_store (sessionPool_every hf) c with ⟨-, hsame⟩ | ⟨tag, write, htag, hq, hstore⟩
  · rw [hsame] at hcompletes
    obtain ⟨hs, hcomplete, hbefore⟩ := hcompletes
    exact absurd hcomplete (hbefore s hs rfl)
  · rw [hstore] at hcompletes ⊢
    obtain ⟨rls, htag', s₀, hs₀, hid⟩ := hq.completes u.store s hcompletes
    have hsees : SeesAllRecorded tag u.store :=
      Pool.finds grows_refl grows_trans (fun _ _ w h => h.grows w)
        (fun c => (calls c).steps_every crypto) (fun c => (calls c).steps_finds crypto w) hf htag
    exact (hq.grows u.store).allRecorded hs₀ hcompletes.1 hid.symm (hsees rls s.id htag' s₀ hs₀ hid)

end Runs

/-! ## 6. A cancellation between the look and the write -/

/-- The round of the upper floor is done, and nobody has looked at the session since. -/
def roundDone : AssetWorld :=
  { twoFloors with
    core := { twoFloors.core with
      accesses := ⟨[{ createdOn := 0, personId := "bob", clientId := "acme", siteId := "acme-1",
                      roleId := "inspector" }], by decide⟩ }
    inspections := ⟨[{ id := "i1", createdOn := 0, assetId := "roof", inspectorId := "bob",
                       siteId := "acme-1", clientId := "acme" }], by decide⟩
    completedRoutePoints := ⟨[{ id := "c1", inspectionSessionId := "s1",
                                inspectionRoutePointId := "p2", inspectionId := "i1" }],
      by decide⟩ }

/-- Bob looks at the session, and cancels it in another tab. -/
def lookOrCancel (looking : Bool) : SessionCall :=
  if looking then .findInspectionSession bobAtAcme lobbyEnv "s1"
  else .cancelInspectionSession bobAtAcme lobbyEnv "s1"

/-- The look comes first; then the whole cancellation. -/
def lookThenCancel : List Bool := [true, false, false]

theorem lookThenCancel_rows :
    let cancelled := lookThenCancel.foldl Pool.step (sessionPool lobbyCrypto roundDone lookOrCancel)
    cancelled.store.sessions.rows.map (fun s => (s.id, s.status)) = [("s1", .cancelled)] ∧
      (cancelled.step true).store.sessions.rows.map (fun s => (s.id, s.status)) =
        [("s1", .complete)] := by
  decide

end ShieldApi
