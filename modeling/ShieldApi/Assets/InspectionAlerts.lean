import ShieldApi.Assets.InspectionBinding
import ShieldApi.Lib.Runs

/-!
# Has a complete inspection its alerts?

An inspection becomes COMPLETE on two paths. `create` writes it so, and tests the responses
against the criteria of their questions in the same transaction. `update` sets the status of one
that was created PENDING, **and nothing else**: `handleAlertTriggers` returned early when the
inspection was created, and nobody calls it again.

The runs here are of the two calls in any order, with questions and criteria edited by others in
between. The criteria that count are those of the time when the inspection became COMPLETE, so the
state keeps the store of that time. `completeHaveAlerts_iff` is exact: the alerts are there in every
state of a run exactly when no update of the run completes an inspection with a response that
fires.
-/

set_option autoImplicit false

namespace ShieldApi

open Effect

/-- `UpdateInspectionSchema`: there is one status to set. -/
structure UpdateInspectionDto where
  status : InspectionStatus
  isComplete : status = .complete

def Inspection.setStatus (status : InspectionStatus) (i : Inspection) : Inspection :=
  { i with status }

@[simp] theorem Inspection.id_setStatus (status : InspectionStatus) (i : Inspection) :
    (i.setStatus status).id = i.id := rfl

namespace Settings

/-- `is_owner`. -/
def isOwner (s : Settings) (personId : String) : Bool :=
  s.current "app.current_person_id" = some personId

/-- The policies of `Inspection`, for an update: one's own, and not yet complete. -/
def updatesInspection (s : Settings) (i : Inspection) : Bool :=
  s.shouldBypassRls || (s.validateClient i.clientId && s.validateSite i.siteId &&
    s.isOwner i.inspectorId && i.status != .complete)

end Settings

/-- `InspectionsService.update`. -/
def InspectionsService.update (cls : Cls) (env : Env) (id : String) (dto : UpdateInspectionDto) :
    AssetApi Inspection := do
  let rls ← prismaBuild cls env {}
  attempt fun w =>
    match (w.inspections.find? id).filter rls.updatesInspection with
    | none => .error (as404OrThrow .recordNotFound)
    | some i => .ok (i.setStatus dto.status, { w with
        inspections := w.inspections.updateMany (·.id = id) (.setStatus dto.status)
          (Inspection.id_setStatus _) })

namespace InspectionAlerts

open InspectionsService

/-- `testAlertRule` of the rule a text is of. -/
abbrev AlertTest : Type := String → AssetQuestionResponseType → String → Option String

/-! ## 1. Runs -/

inductive Act
  | create (cls : Cls) (env : InspectionEnv) (dto : CreateInspectionDto)
      (inspectionToken sessionId routeId : Option String)
  | update (cls : Cls) (env : Env) (id : String) (dto : UpdateInspectionDto)
  /-- Somebody edits the questions and their criteria, and adds some. -/
  | configure (questions : Table AssetQuestion String AssetQuestion.id)
      (alertCriteria : Table AssetAlertCriterion String AssetAlertCriterion.id)

/-- The store, and for each inspection the store of the time when it became COMPLETE. -/
structure St where
  world : AssetWorld
  completedIn : String → Option AssetWorld := fun _ => none

def IsComplete (w : AssetWorld) (id : String) : Bool :=
  (w.inspections.find? id).any (·.status = .complete)

def St.goesTo (s : St) (w : AssetWorld) : St where
  world := w
  completedIn id :=
    if IsComplete w id && !IsComplete s.world id then some w else s.completedIn id

/-- No row is deleted. -/
def Keeps {α : Type} {key : α → String} (t t' : Table α String key) : Bool :=
  t.rows.all fun a => (t'.find? (key a)).isSome

/-- A deletion takes the alerts of the criterion along, and is no edit. -/
def configure (questions : Table AssetQuestion String AssetQuestion.id)
    (alertCriteria : Table AssetAlertCriterion String AssetAlertCriterion.id) (w : AssetWorld) :
    AssetWorld :=
  if Keeps w.questions questions && Keeps w.alertCriteria alertCriteria then
    { w with questions, alertCriteria }
  else w

/-- The store an action leaves. -/
def after (crypto : TokenCrypto) (test : AlertTest) (w : AssetWorld) : Act → AssetWorld
  | .create cls env dto inspectionToken sessionId routeId =>
    (create crypto cls { env with testAlertRule := test } dto inspectionToken sessionId
      routeId).after w
  | .update cls env id dto => (InspectionsService.update cls env id dto).after w
  | .configure questions alertCriteria => configure questions alertCriteria w

def step (crypto : TokenCrypto) (test : AlertTest) (s : St) (a : Act) : St :=
  s.goesTo (after crypto test s.world a)

/-- No inspection yet, and whatever else there is. -/
def start (w : AssetWorld) : St :=
  { world := { w with inspections := ∅, responses := ∅, alerts := ∅ } }

/-! ## 2. The alerts an inspection should have -/

/-- The criterion is one of the response's question, which is asked in inspections, and its rule
    fires on the response's value. -/
def Fires (test : AlertTest) (w : AssetWorld) (r : AssetQuestionResponse)
    (c : AssetAlertCriterion) : Prop :=
  c ∈ w.alertCriteria ∧ ∃ q ∈ w.questions, q.id = r.assetQuestionId ∧ c.assetQuestionId = q.id ∧
    (q.type = .setupAndInspection ∨ q.type = .inspection) ∧
    (test r.value q.valueType c.rule).isSome = true

/-- The alert links the three. -/
def Links (a : Alert) (inspectionId : String) (r : AssetQuestionResponse)
    (c : AssetAlertCriterion) : Prop :=
  a.inspectionId = inspectionId ∧ a.assetQuestionResponseId = r.id ∧ a.assetAlertCriterionId = c.id

/-- **Every complete inspection has exactly one alert for each criterion that fired on a response of
    it when it became complete.** -/
def CompleteHaveAlerts (test : AlertTest) (s : St) : Prop :=
  ∀ i ∈ s.world.inspections, i.status = .complete →
    ∃ w, s.completedIn i.id = some w ∧
      ∀ r ∈ s.world.responses, r.inspectionId = some i.id →
        ∀ c, Fires test w r c → ∃! a, a ∈ s.world.alerts ∧ Links a i.id r c

/-- The update finds a pending inspection that the caller may complete. -/
def Completes (cls : Cls) (env : Env) (id : String) (w : AssetWorld) : Prop :=
  ∃ rls i, (buildPrimaryExtension cls env.allowedSiteIdsForSite {}).settings = .ok rls ∧
    w.inspections.find? id = some i ∧ rls.updatesInspection i = true ∧ i.status = .pending

/-- No response fires where an update completes an inspection. -/
def Silent (test : AlertTest) (s : St) : Act → Prop
  | .update cls env id _ => Completes cls env id s.world →
      ∀ r ∈ s.world.responses, r.inspectionId = some id → ∀ c, ¬ Fires test s.world r c
  | _ => True

/-! ## 3. What `handleAlertTriggers` writes -/

section Triggers

variable {env : InspectionEnv} {w : AssetWorld}

theorem mem_triggered {r : AssetQuestionResponse}
    {x : AssetQuestionResponse × AssetAlertCriterion × String} :
    x ∈ triggered env w r ↔ ∃ q ∈ w.questions, q.id = r.assetQuestionId ∧
      (q.type = .setupAndInspection ∨ q.type = .inspection) ∧
      ∃ c ∈ w.alertCriteria, c.assetQuestionId = q.id ∧
        ∃ message, env.testAlertRule r.value q.valueType c.rule = some message ∧
          x = (r, c, message) := by
  unfold triggered
  constructor
  · intro h
    cases hfind : w.questions.find? r.assetQuestionId with
    | none =>
      rw [hfind] at h
      exact absurd h List.not_mem_nil
    | some q =>
      obtain ⟨hq, hid⟩ := Table.find?_eq_some.mp hfind
      rw [hfind] at h
      simp only at h
      split at h
      · next htype =>
        simp only [List.mem_filterMap, List.mem_filter, Option.map_eq_some_iff,
          decide_eq_true_eq] at h
        obtain ⟨c, ⟨hc, hcq⟩, message, hmessage, rfl⟩ := h
        exact ⟨q, hq, hid, by simpa using htype, c, hc, hcq, message, hmessage, rfl⟩
      · exact absurd h List.not_mem_nil
  · intro h
    obtain ⟨q, hq, hid, htype, c, hc, hcq, message, hmessage, rfl⟩ := h
    have hfind : w.questions.find? r.assetQuestionId = some q := Table.find?_eq_some.mpr ⟨hq, hid⟩
    have htypes : q.type ∈ [AssetQuestionType.setupAndInspection, .inspection] := by
      simpa using htype
    rw [hfind]
    simp only [if_pos htypes, List.mem_filterMap, List.mem_filter, Option.map_eq_some_iff,
      decide_eq_true_eq]
    exact ⟨c, ⟨hc, hcq⟩, message, hmessage, rfl⟩

theorem fires_iff {r : AssetQuestionResponse} {c : AssetAlertCriterion} :
    Fires env.testAlertRule w r c ↔ ∃ message, (r, c, message) ∈ triggered env w r := by
  simp only [mem_triggered, Prod.mk.injEq, true_and]
  constructor
  · intro h
    obtain ⟨hc, q, hq, hid, hcq, htype, hfires⟩ := h
    obtain ⟨message, hmessage⟩ := Option.isSome_iff_exists.mp hfires
    exact ⟨message, q, hq, hid, htype, c, hc, hcq, message, hmessage, rfl, rfl⟩
  · intro h
    obtain ⟨_, q, hq, hid, htype, _, hc, hcq, message, hmessage, rfl, -⟩ := h
    exact ⟨hc, q, hq, hid, hcq, htype, Option.isSome_of_mem hmessage⟩

/-- A response and a criterion of it have one message. -/
theorem triggered_unique {r r' : AssetQuestionResponse}
    {x y : AssetQuestionResponse × AssetAlertCriterion × String} (hx : x ∈ triggered env w r)
    (hy : y ∈ triggered env w r') (hr : x.1 = y.1) (hc : x.2.1.id = y.2.1.id) : x = y := by
  obtain ⟨q, hq, hid, -, c, hcmem, -, message, hmessage, rfl⟩ := mem_triggered.1 hx
  obtain ⟨q', hq', hid', -, c', hcmem', -, message', hmessage', rfl⟩ := mem_triggered.1 hy
  obtain rfl : r = r' := hr
  obtain rfl : c = c' := Table.eq_of_key_eq hcmem hcmem' hc
  obtain rfl : q = q' := Table.eq_of_key_eq hq hq' (hid.trans hid'.symm)
  rw [Option.some.inj (hmessage.symm.trans hmessage')]

theorem triggered_nodup (r : AssetQuestionResponse) : (triggered env w r).Nodup := by
  have hrows : w.alertCriteria.rows.Nodup := List.Nodup.of_map _ w.alertCriteria.unique
  unfold triggered
  split
  · exact List.nodup_nil
  · next q _ =>
    split
    · apply (hrows.filter _).filterMap
      intro c c' x hc hc'
      simp only [Option.mem_def, Option.map_eq_some_iff] at hc hc'
      obtain ⟨m, -, rfl⟩ := hc
      obtain ⟨m', -, heq⟩ := hc'
      exact (Prod.mk.inj (Prod.mk.inj heq).2).1.symm
    · exact List.nodup_nil

theorem triggered_all_nodup {responses : List AssetQuestionResponse} (h : responses.Nodup) :
    (responses.flatMap (triggered env w)).Nodup := by
  refine List.nodup_flatMap.mpr ⟨fun r _ => triggered_nodup r, h.imp fun hne x hx hy => hne ?_⟩
  obtain ⟨_, _, _, _, _, _, _, _, _, rfl⟩ := mem_triggered.1 hx
  obtain ⟨_, _, _, _, _, _, _, _, _, heq⟩ := mem_triggered.1 hy
  exact (Prod.mk.inj heq).1

/-- Whatever is written is about the inspection, which is complete. -/
theorem mem_newAlerts {i : Inspection} {responses : List AssetQuestionResponse} {a : Alert}
    (h : a ∈ newAlerts env i responses w) : i.status = .complete ∧ a.inspectionId = i.id := by
  unfold newAlerts at h
  split at h
  · next hcomplete =>
    obtain ⟨n, hn, rfl⟩ := List.mem_mapIdx.mp h
    exact ⟨hcomplete, rfl⟩
  · exact absurd h List.not_mem_nil

/-- **A complete inspection is given exactly one alert for each criterion that fires.** -/
theorem newAlerts_unique {i : Inspection} {responses : List AssetQuestionResponse}
    (hcomplete : i.status = .complete) (hids : (responses.map (·.id)).Nodup)
    {r : AssetQuestionResponse} (hr : r ∈ responses) {c : AssetAlertCriterion}
    (hfires : Fires env.testAlertRule w r c) :
    ∃! a, a ∈ newAlerts env i responses w ∧ Links a i.id r c := by
  obtain ⟨message, hmem⟩ := fires_iff.1 hfires
  obtain ⟨n, hn, hget⟩ := List.mem_iff_getElem.mp (List.mem_flatMap.mpr ⟨r, hr, hmem⟩)
  unfold newAlerts
  rw [if_pos hcomplete]
  refine ⟨_, ⟨List.mem_mapIdx.mpr ⟨n, hn, rfl⟩, rfl, by rw [hget], by rw [hget]⟩, fun a ha => ?_⟩
  obtain ⟨hmem', -, hresponse, hcriterion⟩ := ha
  obtain ⟨m, hm, rfl⟩ := List.mem_mapIdx.mp hmem'
  -- the alert is of the same place in the list, since its response and criterion are the same
  obtain ⟨r', hr', hx⟩ := List.mem_flatMap.mp (List.getElem_mem hm)
  obtain ⟨_, _, _, _, c', _, _, message', _, heq⟩ := mem_triggered.1 hx
  have hsame : r' = r := by
    refine List.inj_on_of_nodup_map hids hr' hr (Eq.trans ?_ hresponse)
    rw [heq]
  have hplace : (responses.flatMap (triggered env w))[m] =
      (responses.flatMap (triggered env w))[n] := by
    rw [hget]
    refine triggered_unique hx hmem ?_ hcriterion
    rw [heq]
    exact hsame
  obtain rfl : m = n :=
    (triggered_all_nodup (List.Nodup.of_map _ hids)).getElem_inj_iff.mp hplace
  rfl

end Triggers

/-! ## 4. What the calls do -/

/-- What a call of `create` does to the inspections, their responses and their alerts. -/
inductive Creation (test : AlertTest) (w w' : AssetWorld) : Prop
  | refused (inspections : w'.inspections = w.inspections) (responses : w'.responses = w.responses)
      (alerts : w'.alerts = w.alerts)
  | created (env : InspectionEnv) (i : Inspection) (responses : List AssetQuestionResponse)
      (hrule : env.testAlertRule = test)
      (hinspection : w.inspections.insert? i = some w'.inspections)
      (hresponses : w.responses.insertAll? responses = some w'.responses)
      (hof : ∀ r ∈ responses, r.inspectionId = some i.id)
      (halerts : w.alerts.insertAll? (newAlerts env i responses w) = some w'.alerts)
      (hquestions : w'.questions = w.questions) (hcriteria : w'.alertCriteria = w.alertCriteria)

theorem createRows_creation {env : InspectionEnv} {rls : Settings} {d : SessionDefaults}
    {dto : CreateInspectionDto} {asset : Asset} {sessionId : Option String}
    {point : Option InspectionRoutePoint} {w w' : AssetWorld}
    {r : Inspection × Option InspectionSession}
    (h : (createRows env rls d dto asset sessionId point).run w = (.ok r, w')) :
    Creation env.testAlertRule w w' := by
  obtain ⟨ti, tr, w₃, ta, hi, hr, hc, ha, rfl⟩ := createRows_eq_ok h
  obtain ⟨sessions, completed, rfl, -⟩ := completeRoutePoint_eq_ok hc
  refine .created env (newInspection env d dto asset) (newResponses env d dto) rfl ?_
    (insertRows_eq_ok.mp hr).2 (fun r hmem => ?_) (insertRows_eq_ok.mp ha).2 rfl rfl
  · rw [← insertAll?_singleton]
    exact (insertRows_eq_ok.mp hi).2
  · obtain ⟨n, hn, rfl⟩ := List.mem_mapIdx.mp hmem
    rfl

/-- Keys and the owners of sessions have no part in it. -/
theorem Creation.congr {test : AlertTest} {w u w' : AssetWorld} (h : Creation test u w')
    (hinspections : u.inspections = w.inspections) (hresponses : u.responses = w.responses)
    (halerts : u.alerts = w.alerts) (hquestions : u.questions = w.questions)
    (hcriteria : u.alertCriteria = w.alertCriteria) : Creation test w w' := by
  cases h with
  | refused hi hr ha =>
    exact .refused (hi.trans hinspections) (hr.trans hresponses) (ha.trans halerts)
  | created env i responses hrule hi hr hof ha hq hc =>
    have hnew : newAlerts env i responses u = newAlerts env i responses w := by
      unfold newAlerts triggered
      rw [hquestions, hcriteria]
    rw [hinspections] at hi
    rw [hresponses] at hr
    rw [halerts, hnew] at ha
    exact .created env i responses hrule hi hr hof ha (hq.trans hquestions) (hc.trans hcriteria)

theorem create_creation (crypto : TokenCrypto) (cls : Cls) (env : InspectionEnv)
    (dto : CreateInspectionDto) (inspectionToken sessionId routeId : Option String)
    (w : AssetWorld) :
    Creation env.testAlertRule w
      ((create crypto cls env dto inspectionToken sessionId routeId).after w) := by
  obtain ⟨keys, cache, hafter⟩ :=
    TagsService.validateInspectionToken_after crypto env.env (inspectionToken.getD "") w
  have hkept : Creation env.testAlertRule w (w.withKeys keys cache) := .refused rfl rfl rfl
  unfold create
  refine leaves_bind (I := Creation env.testAlertRule w)
    (by unfold Leaves; rw [hafter]; exact hkept) fun v w₁ hrun => ?_
  rw [after_of_run hrun] at hafter
  subst hafter
  apply ReadOnly.leaves_bind (readOnly_raiseIf _ _) hkept
  intro _ _
  unfold createAccepted
  apply ReadOnly.leaves_bind (readOnly_prismaBuild _ _ _) hkept
  intro rls _
  apply ReadOnly.leaves_bind (readOnly_examine _) hkept
  intro found _
  apply ReadOnly.leaves_bind (readOnly_examine _) hkept
  intro asset _
  obtain ⟨t, -, htake⟩ := takeOverSession_after
    (newOwner (buildPrimaryExtension cls env.env.allowedSiteIdsForSite {}).rlsContext found.1)
    (w.withKeys keys cache)
  have hkept' : Creation env.testAlertRule w ((w.withKeys keys cache).withSessions t) :=
    .refused rfl rfl rfl
  apply leaves_bind (by unfold Leaves; rw [htake]; exact hkept')
  intro _ w₂ hrun₂
  rw [after_of_run hrun₂] at htake
  subst htake
  apply ReadOnly.leaves_bind (readOnly_query _) hkept'
  intro point _
  apply ReadOnly.leaves_bind (readOnly_orRaise _ _) hkept'
  intro d _
  apply Atomic.leaves (atomic_transaction _) hkept'
  intro r w' hcreate
  exact (createRows_creation hcreate).congr rfl rfl rfl rfl rfl

/-- The inspection is set complete. -/
def completing (id : String) (w : AssetWorld) : AssetWorld :=
  { w with
    inspections := w.inspections.updateMany (·.id = id) (.setStatus .complete)
      (Inspection.id_setStatus _) }

section Update

variable {cls : Cls} {env : Env} {id : String} {dto : UpdateInspectionDto} {w : AssetWorld}

theorem update_after_of_find {rls : Settings} {i : Inspection}
    (hrls : (buildPrimaryExtension cls env.allowedSiteIdsForSite {}).settings = .ok rls)
    (hfind : w.inspections.find? id = some i) (hsees : rls.updatesInspection i = true) :
    (InspectionsService.update cls env id dto).after w = completing id w := by
  have hrun : (InspectionsService.update cls env id dto).run w =
      (.ok (i.setStatus .complete), completing id w) := by
    unfold InspectionsService.update
    rw [prismaBuild_of_settings hrls, run_pure_bind, attempt_eq_ok, hfind, Option.filter_some,
      if_pos hsees]
    simp only [dto.isComplete]
    rfl
  exact after_of_run hrun

theorem update_completes (h : Completes cls env id w) :
    (InspectionsService.update cls env id dto).after w = completing id w := by
  obtain ⟨rls, i, hrls, hfind, hsees, -⟩ := h
  exact update_after_of_find hrls hfind hsees

/-- An update that completes nothing is refused, or writes the status that was there. -/
theorem update_keeps (h : ¬ Completes cls env id w) :
    (InspectionsService.update cls env id dto).after w = w := by
  cases hrls : (buildPrimaryExtension cls env.allowedSiteIdsForSite {}).settings with
  | error e =>
    unfold InspectionsService.update prismaBuild
    rw [hrls]
    rfl
  | ok rls =>
    cases hfind : (w.inspections.find? id).filter rls.updatesInspection with
    | none =>
      have hrun : (InspectionsService.update cls env id dto).run w =
          (.error (as404OrThrow .recordNotFound), w) := by
        unfold InspectionsService.update
        rw [prismaBuild_of_settings hrls, run_pure_bind]
        exact run_attempt_error (by rw [hfind])
      exact after_of_run hrun
    | some i =>
      obtain ⟨hfind, hsees⟩ := Option.filter_eq_some_iff.mp hfind
      rw [update_after_of_find hrls hfind hsees]
      have hcomplete : i.status = .complete := by
        cases hstatus : i.status with
        | complete => rfl
        | pending => exact absurd ⟨rls, i, hrls, hfind, hsees, hstatus⟩ h
      obtain ⟨hi, hid⟩ := Table.find?_eq_some.mp hfind
      unfold completing
      rw [Table.updateMany_eq_self.mpr]
      intro j hj hjid
      obtain rfl : j = i := Table.eq_of_key_eq hj hi ((of_decide_eq_true hjid).trans hid.symm)
      rw [Inspection.setStatus, ← hcomplete]

end Update

/-! ## 5. One step of a run -/

/-- Every alert is of an inspection that is complete, and every response of one that is there. -/
structure Sound (w : AssetWorld) : Prop where
  alerts : ∀ a ∈ w.alerts, ∃ i ∈ w.inspections, i.id = a.inspectionId ∧ i.status = .complete
  responses : ∀ r ∈ w.responses, ∀ id, r.inspectionId = some id → ∃ i ∈ w.inspections, i.id = id

theorem Sound.of_eq {w w' : AssetWorld} (h : Sound w)
    (hinspections : w'.inspections = w.inspections) (hresponses : w'.responses = w.responses)
    (halerts : w'.alerts = w.alerts) : Sound w' := by
  refine ⟨?_, ?_⟩
  · rw [halerts, hinspections]
    exact h.alerts
  · rw [hresponses, hinspections]
    exact h.responses

theorem Creation.sound {test : AlertTest} {w w' : AssetWorld} (hcreate : Creation test w w')
    (h : Sound w) : Sound w' := by
  cases hcreate with
  | refused hi hr ha => exact h.of_eq hi hr ha
  | created env i responses hrule hi hr hof ha =>
    refine ⟨fun a hmem => ?_, fun r hmem id hid => ?_⟩
    · rcases (Table.mem_insertAll? ha).mp hmem with hold | hnew
      · obtain ⟨j, hj, hjid, hcomplete⟩ := h.alerts a hold
        exact ⟨j, (Table.mem_insert? hi).mpr (.inl hj), hjid, hcomplete⟩
      · obtain ⟨hcomplete, hid⟩ := mem_newAlerts hnew
        exact ⟨i, (Table.mem_insert? hi).mpr (.inr rfl), hid.symm, hcomplete⟩
    · rcases (Table.mem_insertAll? hr).mp hmem with hold | hnew
      · obtain ⟨j, hj, hjid⟩ := h.responses r hold id hid
        exact ⟨j, (Table.mem_insert? hi).mpr (.inl hj), hjid⟩
      · have hsame : i.id = id := Option.some.inj ((hof r hnew).symm.trans hid)
        exact ⟨i, (Table.mem_insert? hi).mpr (.inr rfl), hsame⟩

/-- The rows of the inspections afterwards. -/
theorem mem_completing {id : String} {w : AssetWorld} {i : Inspection} :
    i ∈ (completing id w).inspections ↔
      ∃ j ∈ w.inspections, (if j.id = id then j.setStatus .complete else j) = i := by
  unfold completing
  rw [Table.mem_updateMany]
  simp only [decide_eq_true_eq]

theorem completing_sound {id : String} {w : AssetWorld} (h : Sound w) :
    Sound (completing id w) := by
  refine ⟨fun a hmem => ?_, fun r hmem rid hid => ?_⟩
  · obtain ⟨j, hj, hjid, hcomplete⟩ := h.alerts a hmem
    refine ⟨_, mem_completing.2 ⟨j, hj, rfl⟩, ?_, ?_⟩
    · split
      · rw [Inspection.id_setStatus, hjid]
      · exact hjid
    · split
      · rfl
      · exact hcomplete
  · obtain ⟨j, hj, hjid⟩ := h.responses r hmem rid hid
    refine ⟨_, mem_completing.2 ⟨j, hj, rfl⟩, ?_⟩
    split
    · rw [Inspection.id_setStatus, hjid]
    · exact hjid

/-- An inspection that was complete keeps its record. -/
theorem goesTo_completedIn {s : St} {w : AssetWorld} {id : String}
    (h : IsComplete s.world id = true) : (s.goesTo w).completedIn id = s.completedIn id := by
  simp [St.goesTo, h]

theorem isComplete_of_mem {w : AssetWorld} {i : Inspection} (hi : i ∈ w.inspections)
    (hcomplete : i.status = .complete) : IsComplete w i.id = true := by
  unfold IsComplete
  rw [Table.find?_eq_some.mpr ⟨hi, rfl⟩]
  simpa using hcomplete

/-- One that was not, and is, has the store of now. -/
theorem goesTo_completedIn_new {s : St} {w : AssetWorld} {i : Inspection} (hi : i ∈ w.inspections)
    (hcomplete : i.status = .complete) (hold : IsComplete s.world i.id = false) :
    (s.goesTo w).completedIn i.id = some w := by
  simp [St.goesTo, isComplete_of_mem hi hcomplete, hold]

variable {test : AlertTest}

theorem completeHaveAlerts_of_eq {s : St} {w : AssetWorld} (h : CompleteHaveAlerts test s)
    (hinspections : w.inspections = s.world.inspections)
    (hresponses : w.responses = s.world.responses) (halerts : w.alerts = s.world.alerts) :
    CompleteHaveAlerts test (s.goesTo w) := by
  intro i hi hcomplete
  have hi : i ∈ s.world.inspections := hinspections ▸ hi
  obtain ⟨w₀, hrecord, hfires⟩ := h i hi hcomplete
  refine ⟨w₀, (goesTo_completedIn (isComplete_of_mem hi hcomplete)).trans hrecord, ?_⟩
  show ∀ r ∈ w.responses, _ → ∀ c, _ → ∃! a, a ∈ w.alerts ∧ _
  rw [hresponses, halerts]
  exact hfires

/-- **What `create` writes is complete in this sense.** -/
theorem Creation.completeHaveAlerts {s : St} {w : AssetWorld} (hcreate : Creation test s.world w)
    (hsound : Sound s.world) (h : CompleteHaveAlerts test s) :
    CompleteHaveAlerts test (s.goesTo w) := by
  cases hcreate with
  | refused hi hr ha => exact completeHaveAlerts_of_eq h hi hr ha
  | created env i responses hrule hi hr hof ha hq hc =>
    have hfresh : ∀ j ∈ s.world.inspections, j.id ≠ i.id := (Table.insert?_eq_some.mp hi).2
    have hnew : ∀ a ∈ newAlerts env i responses s.world, a.inspectionId = i.id :=
      fun a hmem => (mem_newAlerts hmem).2
    intro j hj hcomplete
    rcases (Table.mem_insert? hi).mp hj with hold | rfl
    · -- an inspection that was there: what is new is about the other one
      obtain ⟨w₀, hrecord, hfires⟩ := h j hold hcomplete
      refine ⟨w₀, (goesTo_completedIn (isComplete_of_mem hold hcomplete)).trans hrecord, ?_⟩
      intro r hr' hrj c hf
      rcases (Table.mem_insertAll? hr).mp hr' with hrold | hrnew
      · obtain ⟨a, ⟨hmem, hlinks⟩, honly⟩ := hfires r hrold hrj c hf
        refine ⟨a, ⟨(Table.mem_insertAll? ha).mpr (.inl hmem), hlinks⟩, fun b hb => ?_⟩
        obtain ⟨hb, hblinks⟩ := hb
        rcases (Table.mem_insertAll? ha).mp hb with hbold | hbnew
        · exact honly b ⟨hbold, hblinks⟩
        · exact absurd (hblinks.1.symm.trans (hnew b hbnew)) (hfresh j hold)
      · exact absurd (Option.some.inj (hrj.symm.trans (hof r hrnew))) (hfresh j hold)
    · -- the new one
      have hnot : IsComplete s.world j.id = false := by
        unfold IsComplete
        rw [Table.find?_eq_none.mpr hfresh]
        rfl
      refine ⟨w, goesTo_completedIn_new hj hcomplete hnot, fun r hr' hrj c hf => ?_⟩
      have hf : Fires env.testAlertRule s.world r c := by
        unfold Fires at hf ⊢
        rw [hrule, ← hq, ← hc]
        exact hf
      rcases (Table.mem_insertAll? hr).mp hr' with hrold | hrnew
      · obtain ⟨k, hk, hkid⟩ := hsound.responses r hrold j.id hrj
        exact absurd hkid (hfresh k hk)
      · obtain ⟨a, ⟨hmem, hlinks⟩, honly⟩ :=
          newAlerts_unique hcomplete (Table.nodup_of_insertAll? hr) hrnew hf
        refine ⟨a, ⟨(Table.mem_insertAll? ha).mpr (.inr hmem), hlinks⟩, fun b hb => ?_⟩
        obtain ⟨hb, hblinks⟩ := hb
        rcases (Table.mem_insertAll? ha).mp hb with hbold | hbnew
        · obtain ⟨k, hk, hkid, -⟩ := hsound.alerts b hbold
          exact absurd (hkid.trans hblinks.1) (hfresh k hk)
        · exact honly b ⟨hbnew, hblinks⟩

/-- **An inspection that is completed later has the alerts it should have if it should have
    none.** -/
theorem completing_iff {s : St} {id : String} {i : Inspection}
    (hfind : s.world.inspections.find? id = some i) (hpending : i.status = .pending)
    (hsound : Sound s.world) (h : CompleteHaveAlerts test s) :
    CompleteHaveAlerts test (s.goesTo (completing id s.world)) ↔
      ∀ r ∈ s.world.responses, r.inspectionId = some id → ∀ c, ¬ Fires test s.world r c := by
  obtain ⟨hi, rfl⟩ := Table.find?_eq_some.mp hfind
  have hnot : IsComplete s.world i.id = false := by
    unfold IsComplete
    rw [hfind]
    simp [hpending]
  have hmem : i.setStatus .complete ∈ (completing i.id s.world).inspections :=
    mem_completing.2 ⟨i, hi, if_pos rfl⟩
  have hrecord : (s.goesTo (completing i.id s.world)).completedIn (i.setStatus .complete).id =
      some (completing i.id s.world) := goesTo_completedIn_new hmem rfl hnot
  constructor
  · intro hall r hr hri c hf
    obtain ⟨w₀, hrecord', hfires⟩ := hall _ hmem rfl
    obtain rfl := Option.some.inj (hrecord.symm.trans hrecord')
    obtain ⟨a, ⟨ha, hlinks⟩, -⟩ := hfires r hr hri c hf
    -- an alert of a pending inspection
    obtain ⟨j, hj, hjid, hcomplete⟩ := hsound.alerts a ha
    obtain rfl : j = i := Table.eq_of_key_eq hj hi (hjid.trans hlinks.1)
    exact absurd (hcomplete.symm.trans hpending) (by simp)
  · intro hsilent j hj hcomplete
    obtain ⟨k, hk, rfl⟩ := mem_completing.1 hj
    by_cases hid : k.id = i.id
    · rw [if_pos hid, Inspection.id_setStatus, hid]
      exact ⟨_, hrecord, fun r hr hri c hf => absurd hf (hsilent r hr hri c)⟩
    · rw [if_neg hid] at hcomplete ⊢
      obtain ⟨w₀, hrecord', hfires⟩ := h k hk hcomplete
      exact ⟨w₀, (goesTo_completedIn (isComplete_of_mem hk hcomplete)).trans hrecord', hfires⟩

/-! ## 6. Runs -/

variable {crypto : TokenCrypto}

theorem configure_rows (questions : Table AssetQuestion String AssetQuestion.id)
    (alertCriteria : Table AssetAlertCriterion String AssetAlertCriterion.id) (w : AssetWorld) :
    (configure questions alertCriteria w).inspections = w.inspections ∧
      (configure questions alertCriteria w).responses = w.responses ∧
      (configure questions alertCriteria w).alerts = w.alerts := by
  unfold configure
  split <;> exact ⟨rfl, rfl, rfl⟩

theorem step_sound {s : St} (h : Sound s.world) (a : Act) : Sound (step crypto test s a).world := by
  show Sound (after crypto test s.world a)
  cases a with
  | create cls env dto inspectionToken sessionId routeId =>
    exact (create_creation crypto cls { env with testAlertRule := test } dto inspectionToken
      sessionId routeId s.world).sound h
  | update cls env id dto =>
    by_cases hgoes : Completes cls env id s.world
    · show Sound ((InspectionsService.update cls env id dto).after s.world)
      rw [update_completes hgoes]
      exact completing_sound h
    · show Sound ((InspectionsService.update cls env id dto).after s.world)
      rw [update_keeps hgoes]
      exact h
  | configure questions alertCriteria =>
    obtain ⟨hi, hr, ha⟩ := configure_rows questions alertCriteria s.world
    exact h.of_eq hi hr ha

theorem step_iff {s : St} (hsound : Sound s.world) (h : CompleteHaveAlerts test s) (a : Act) :
    CompleteHaveAlerts test (step crypto test s a) ↔ Silent test s a := by
  cases a with
  | create cls env dto inspectionToken sessionId routeId =>
    refine ⟨fun _ => trivial, fun _ => ?_⟩
    exact (create_creation crypto cls { env with testAlertRule := test } dto inspectionToken
      sessionId routeId s.world).completeHaveAlerts hsound h
  | update cls env id dto =>
    show CompleteHaveAlerts test
      (s.goesTo ((InspectionsService.update cls env id dto).after s.world)) ↔ (Completes .. → _)
    by_cases hgoes : Completes cls env id s.world
    · rw [update_completes hgoes, imp_iff_right hgoes]
      obtain ⟨rls, i, -, hfind, -, hpending⟩ := hgoes
      exact completing_iff hfind hpending hsound h
    · rw [update_keeps hgoes]
      exact ⟨fun _ hgoes' => absurd hgoes' hgoes, fun _ => completeHaveAlerts_of_eq h rfl rfl rfl⟩
  | configure questions alertCriteria =>
    refine ⟨fun _ => trivial, fun _ => ?_⟩
    obtain ⟨hi, hr, ha⟩ := configure_rows questions alertCriteria s.world
    exact completeHaveAlerts_of_eq h hi hr ha

/-- **When every complete inspection has its alerts:** if no update of the run completes one with
    a response that fires. -/
theorem completeHaveAlerts_iff (crypto : TokenCrypto) (test : AlertTest) (w : AssetWorld)
    (run : List Act) :
    (∀ s, Reached (step crypto test) (start w) run s → CompleteHaveAlerts test s) ↔
      ∀ u a, Fired (step crypto test) (start w) run u a → Silent test u a := by
  refine reached_iff_fired (I := fun s => Sound s.world) ?_ ?_ ?_ ?_
  · exact ⟨fun a ha => (nomatch ha), fun r hr => (nomatch hr)⟩
  · exact fun i hi => (nomatch hi)
  · exact fun u a _ hu => step_sound hu a
  · exact fun u a _ hu h => step_iff hu h a

/-! ## 7. The pressure gauge -/

/-- The lobby's extinguisher is asked about its gauge, and a gauge that is low raises an alert. -/
def gaugeAsked : AssetWorld :=
  { twoAssets with
    questions := ⟨[{ id := "gauge", type := .inspection }], List.nodup_singleton _⟩
    alertCriteria := ⟨[{ id := "low", assetQuestionId := "gauge", rule := "LOW" }],
      List.nodup_singleton _⟩ }

def equalsRule : AlertTest := fun value _ rule =>
  if value = rule then some ("value is " ++ rule) else none

def inspectLobby (status : InspectionStatus) : Act :=
  .create bobAtAcme lobbyEnv
    { asset := "lobby", status,
      responses := [{ value := "LOW", originalPrompt := "Gauge?", assetQuestionId := "gauge" }] }
    (some lobbyToken) none none

def inspectionId : String := lobbyEnv.env.cuid 0

def completeIt : Act := .update bobAtAcme lobbyEnv.env inspectionId ⟨.complete, rfl⟩

def lowGauge : List Act := [inspectLobby .pending, completeIt]

def lowGaugeEnd : St := lowGauge.foldl (step lobbyCrypto equalsRule) (start gaugeAsked)

theorem lowGaugeEnd_rows :
    lowGaugeEnd.world.inspections.rows.map (fun i => (i.id, i.status)) =
        [(inspectionId, .complete)] ∧
      lowGaugeEnd.world.responses.rows.map (fun r => (r.value, r.assetQuestionId, r.inspectionId)) =
        [("LOW", "gauge", some inspectionId)] ∧
      (lowGaugeEnd.completedIn inspectionId).map
          (fun w => (w.questions.rows, w.alertCriteria.rows)) =
        some (gaugeAsked.questions.rows, gaugeAsked.alertCriteria.rows) ∧
      lowGaugeEnd.world.alerts.rows = [] := by
  have hcreated : after lobbyCrypto equalsRule (start gaugeAsked).world (inspectLobby .pending) =
      (createAccepted bobAtAcme { lobbyEnv with testAlertRule := equalsRule } _ none none).after
        ((start gaugeAsked).world.cacheKey lobbyKey.keyId lobbyKey) :=
    create_lobbyToken rfl rfl rfl
  rw [lowGaugeEnd, lowGauge, List.foldl_cons, step, hcreated]
  decide

/-- Created PENDING with a low gauge, then set COMPLETE: no alert. -/
theorem lowGauge_without_alert :
    ∃ s, Reached (step lobbyCrypto equalsRule) (start gaugeAsked) lowGauge s ∧
      ¬ CompleteHaveAlerts equalsRule s := by
  refine ⟨lowGaugeEnd, reached_end _ _, fun h => ?_⟩
  obtain ⟨hinspections, hresponses, hrecord, hnone⟩ := lowGaugeEnd_rows
  obtain ⟨i, hi, hrow⟩ := List.mem_map.mp (hinspections ▸ List.mem_singleton_self _)
  obtain ⟨r, hr, hvalue⟩ := List.mem_map.mp (hresponses ▸ List.mem_singleton_self _)
  simp only [Prod.mk.injEq] at hrow hvalue
  obtain ⟨w, hw, hfires⟩ := h i hi hrow.2
  rw [← hrow.1, hw] at hrecord
  simp only [Option.map_some, Option.some.injEq, Prod.mk.injEq] at hrecord
  obtain ⟨a, ⟨ha, -⟩, -⟩ := hfires r hr (hvalue.2.2.trans (congrArg some hrow.1.symm))
    { id := "low", assetQuestionId := "gauge", rule := "LOW" }
    ⟨by rw [← Table.mem_rows, hrecord.2]; exact List.mem_singleton_self _,
      { id := "gauge", type := .inspection },
      by rw [← Table.mem_rows, hrecord.1]; exact List.mem_singleton_self _, hvalue.2.1.symm, rfl,
      .inr rfl, by rw [hvalue.1]; rfl⟩
  rw [← Table.mem_rows, hnone] at ha
  exact absurd ha List.not_mem_nil

end InspectionAlerts

end ShieldApi
