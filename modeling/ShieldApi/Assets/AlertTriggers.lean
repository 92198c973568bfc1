import ShieldApi.Assets.AlertRules
import ShieldApi.Assets.InspectionAlerts

/-!
# Which alerts a completed inspection gets

`AssetsService.handleAlertTriggers` with the rules it tests. It asks of each result whether it is a
string, which the empty text is, while `testAlertRule` asks of the results it combines whether they
are true, which the empty text is not. **The rule that falls between the two is an `AND` of
nothing**: it gives an alert without a message. And one rule that throws, as those for dates do whose
operand is no date, ends the call for all of them.

`alertsExact_iff` says for which inspections there is exactly one alert for each response and
criterion that fires.
-/

set_option autoImplicit false

namespace ShieldApi

namespace AlertTriggers

open AlertUtils InspectionsService InspectionAlerts

/-! ## 1. The call -/

section Call

variable (rt : AlertRuntime) (json : String → JsonValue)

/-- The result of a stored rule on a stored value. `json` reads a column. -/
def ruleResult (value : String) (valueType : AssetQuestionResponseType) (rule : String) :
    TestResult :=
  storedRuleResult rt (json value) valueType (json rule)

/-- The message of a rule that does not throw. -/
def alertTest : AlertTest := fun value valueType rule =>
  match ruleResult rt json value valueType rule with
  | .ok message => message
  | .error _ => none

def alertEnv (env : InspectionEnv) : InspectionEnv :=
  { env with testAlertRule := alertTest rt json }

/-- The criteria of a response's question, if it is asked in inspections. -/
def criteriaOf (w : AssetWorld) (r : AssetQuestionResponse) :
    List (AssetQuestion × AssetAlertCriterion) :=
  match w.questions.find? r.assetQuestionId with
  | none => []
  | some q =>
    if q.type ∈ [.setupAndInspection, .inspection] then
      (w.alertCriteria.rows.filter (·.assetQuestionId = q.id)).map (q, ·)
    else []

/-- What the first rule that throws throws. -/
def firstThrow (w : AssetWorld) (responses : List AssetQuestionResponse) : Option ApiError :=
  responses.findSome? fun r => (criteriaOf w r).findSome? fun (q, c) =>
    match ruleResult rt json r.value q.valueType c.rule with
    | .ok _ => none
    | .error e => some e

/-- The rows for the alerts, or what was thrown on the way. -/
def createInputs (env : InspectionEnv) (inspection : Inspection)
    (responses : List AssetQuestionResponse) (w : AssetWorld) : Except ApiError (List Alert) :=
  if inspection.status = .complete then
    match firstThrow rt json w responses with
    | some e => .error e
    | none => .ok (newAlerts (alertEnv rt json env) inspection responses w)
  else .ok []

/-- `AssetsService.handleAlertTriggers`. -/
def handleAlertTriggers (env : InspectionEnv) (rls : Settings) (inspection : Inspection)
    (responses : List AssetQuestionResponse) (w : AssetWorld) :
    Except ApiError (Unit × AssetWorld) :=
  match createInputs rt json env inspection responses w with
  | .error e => .error e
  | .ok alerts =>
    (insertRows (alertsRefusal rls alerts) w.alerts alerts).map fun t =>
      ((), { w with alerts := t })

/-- The rows the call adds. -/
def created (env : InspectionEnv) (inspection : Inspection)
    (responses : List AssetQuestionResponse) (w : AssetWorld) : List Alert :=
  match createInputs rt json env inspection responses w with
  | .ok alerts => alerts
  | .error _ => []

end Call

/-! ## 2. What it should do -/

section Meaning

variable (rt : AlertRuntime) (json : String → JsonValue)

/-- The criterion is one of the response's question, which is asked in inspections, and of the
    result of its rule on the response `p` is true. -/
def Tested (p : TestResult → Prop) (w : AssetWorld) (r : AssetQuestionResponse)
    (c : AssetAlertCriterion) : Prop :=
  ∃ q, (q, c) ∈ criteriaOf w r ∧ p (ruleResult rt json r.value q.valueType c.rule)

/-- The rule parses and fires. -/
def Fires (w : AssetWorld) (r : AssetQuestionResponse) (c : AssetAlertCriterion) : Prop :=
  Tested rt json GivesMessage w r c

/-- What the alert for a response and a criterion should be. -/
structure IsAlertOf (i : Inspection) (r : AssetQuestionResponse) (c : AssetAlertCriterion)
    (a : Alert) : Prop where
  response : a.assetQuestionResponseId = r.id
  criterion : a.assetAlertCriterionId = c.id
  message : a.message ≠ ""
  inspection : a.inspectionId = i.id
  asset : a.assetId = i.assetId
  site : a.siteId = i.siteId
  client : a.clientId = i.clientId
  level : a.alertLevel = c.alertLevel
  resolved : a.resolved = c.autoResolve
  resolvedOn : a.resolvedOn.isSome = true ↔ c.autoResolve = true

/-- **One alert for each response and criterion that fires, and no others.** -/
structure AlertsExact (i : Inspection) (responses : List AssetQuestionResponse) (w : AssetWorld)
    (alerts : List Alert) : Prop where
  each : i.status = .complete → ∀ r ∈ responses, ∀ c, Fires rt json w r c →
    ∃ a ∈ alerts, IsAlertOf i r c a
  once : (alerts.map fun a => (a.assetQuestionResponseId, a.assetAlertCriterionId)).Nodup
  only : ∀ a ∈ alerts, i.status = .complete ∧
    ∃ r ∈ responses, ∃ c, Fires rt json w r c ∧ IsAlertOf i r c a

/-- A stored rule that is parsed to an `AND` of nothing, and has no clause. -/
def IsEmptyAnd (rule : JsonValue) : Prop :=
  ∃ clause OR, CreateAssetAlertCriterionRuleSchema.safeParse rule =
    some (.mk clause (some []) OR) ∧ truthyClause clause = none

/-- No rule throws and none is an `AND` of nothing, or one throws where none fires. -/
def Undisturbed (responses : List AssetQuestionResponse) (w : AssetWorld) : Prop :=
  (∀ r ∈ responses, ∀ q c, (q, c) ∈ criteriaOf w r →
      ¬ Throws (ruleResult rt json r.value q.valueType c.rule) ∧ ¬ IsEmptyAnd (json c.rule)) ∨
    ((∃ r ∈ responses, ∃ c, Tested rt json Throws w r c) ∧
      ∀ r ∈ responses, ∀ c, ¬ Fires rt json w r c)

end Meaning

/-! ## 3. The empty text -/

theorem everyMessage_eq_empty {results : List (Option String)} :
    everyMessage results = some "" ↔ results = [] := by
  constructor
  · intro h
    unfold everyMessage at h
    split at h
    · next hall =>
      cases results with
      | nil => rfl
      | cons r results =>
        rw [List.all_cons, Bool.and_eq_true] at hall
        exact absurd (Option.some.inj h) (intercalate_ne_empty hall.1 _)
    · cases h
  · rintro rfl
    rfl

theorem firstMessage_ne_empty (results : List (Option String)) :
    firstMessage results ≠ some "" := by
  unfold firstMessage
  cases hfind : results.find? fun r => (truthy r).isSome with
  | none => simp
  | some r =>
    have htruthy : (truthy r).isSome = true :=
      List.find?_some (p := fun r => (truthy r).isSome) hfind
    rintro rfl
    simp [truthy] at htruthy

/-- **The one rule that answers with the empty text.** -/
theorem storedRuleResult_eq_empty {rt : AlertRuntime} {value : JsonValue}
    {valueType : AssetQuestionResponseType} {rule : JsonValue} :
    storedRuleResult rt value valueType rule = .ok (some "") ↔ IsEmptyAnd rule := by
  unfold storedRuleResult IsEmptyAnd
  cases CreateAssetAlertCriterionRuleSchema.safeParse rule with
  | none => simp
  | some parsed =>
    obtain ⟨clause, AND, OR⟩ := parsed
    simp only [Option.some.injEq, AlertRule.mk.injEq]
    cases hclause : truthyClause clause with
    | some c =>
      rw [testAlertRule.eq_def]
      simp only [hclause]
      refine iff_of_false (worded_testAlertRuleClause c) ?_
      rintro ⟨clause', OR', ⟨rfl, -, -⟩, hnone⟩
      rw [hclause] at hnone
      cases hnone
    | none =>
      cases AND with
      | some rules =>
        rw [testAlertRule_and hclause]
        cases hresults : testAlertRules rt value valueType rules with
        | error e =>
          refine iff_of_false (by simp [Except.map]) ?_
          rintro ⟨_, _, ⟨-, hnil, -⟩, -⟩
          rw [Option.some.inj hnil] at hresults
          cases hresults
        | ok results =>
          simp only [Except.map, Except.ok.injEq, everyMessage_eq_empty, results_eq_nil hresults]
          constructor
          · rintro rfl
            exact ⟨clause, OR, ⟨rfl, rfl, rfl⟩, hclause⟩
          · rintro ⟨_, _, ⟨-, hnil, -⟩, -⟩
            exact Option.some.inj hnil
      | none =>
        refine iff_of_false ?_ (by simp)
        cases OR with
        | none =>
          rw [testAlertRule.eq_def]
          simp [hclause]
        | some rules =>
          rw [testAlertRule_or hclause]
          cases testAlertRules rt value valueType rules with
          | error e => simp [Except.map]
          | ok results => simpa [Except.map] using firstMessage_ne_empty results

/-! ## 4. What is created -/

section Created

variable {rt : AlertRuntime} {json : String → JsonValue} {env : InspectionEnv} {w : AssetWorld}
  {responses : List AssetQuestionResponse} {i : Inspection}

theorem mem_criteriaOf {r : AssetQuestionResponse} {q : AssetQuestion} {c : AssetAlertCriterion} :
    (q, c) ∈ criteriaOf w r ↔ q ∈ w.questions ∧ q.id = r.assetQuestionId ∧
      (q.type = .setupAndInspection ∨ q.type = .inspection) ∧
        c ∈ w.alertCriteria ∧ c.assetQuestionId = q.id := by
  unfold criteriaOf
  cases hfind : w.questions.find? r.assetQuestionId with
  | none =>
    refine iff_of_false List.not_mem_nil ?_
    rintro ⟨hq, hid, -⟩
    rw [Table.find?_eq_some.mpr ⟨hq, hid⟩] at hfind
    cases hfind
  | some q' =>
    obtain ⟨hq', hid'⟩ := Table.find?_eq_some.mp hfind
    simp only
    constructor
    · intro h
      split at h
      · next htype =>
        obtain ⟨c', hc', heq⟩ := List.mem_map.mp h
        obtain ⟨rfl, rfl⟩ := Prod.mk.inj heq
        obtain ⟨hc, hcq⟩ := List.mem_filter.mp hc'
        exact ⟨hq', hid', by simpa using htype, hc, of_decide_eq_true hcq⟩
      · exact absurd h List.not_mem_nil
    · rintro ⟨hq, hid, htype, hc, hcq⟩
      obtain rfl := Table.eq_of_key_eq hq hq' (hid.trans hid'.symm)
      rw [if_pos (by simpa using htype)]
      exact List.mem_map_of_mem (List.mem_filter.mpr ⟨hc, decide_eq_true hcq⟩)

theorem firstThrow_eq_none : firstThrow rt json w responses = none ↔
    ∀ r ∈ responses, ∀ q c, (q, c) ∈ criteriaOf w r →
      ¬ Throws (ruleResult rt json r.value q.valueType c.rule) := by
  unfold firstThrow
  simp only [List.findSome?_eq_none_iff, Prod.forall]
  refine forall₂_congr fun r _ => forall₂_congr fun q c => imp_congr_right fun _ => ?_
  cases ruleResult rt json r.value q.valueType c.rule <;> simp [Throws]

/-- What is tested, in the words of the one and of the other. -/
theorem mem_triggered_iff {r : AssetQuestionResponse} {c : AssetAlertCriterion}
    {message : String} : (r, c, message) ∈ triggered (alertEnv rt json env) w r ↔
      Tested rt json (· = .ok (some message)) w r c := by
  rw [mem_triggered, Tested]
  simp only [mem_criteriaOf]
  constructor
  · rintro ⟨q, hq, hid, htype, c', hc, hcq, m, hmessage, heq⟩
    obtain ⟨-, hrest⟩ := Prod.mk.inj heq
    obtain ⟨rfl, rfl⟩ := Prod.mk.inj hrest
    refine ⟨q, ⟨hq, hid, htype, hc, hcq⟩, ?_⟩
    have htest : alertTest rt json r.value q.valueType c.rule = some message := hmessage
    unfold alertTest at htest
    split at htest
    · next m hm => rw [hm, htest]
    · cases htest
  · rintro ⟨q, ⟨hq, hid, htype, hc, hcq⟩, hresult⟩
    refine ⟨q, hq, hid, htype, c, hc, hcq, message, ?_, rfl⟩
    show alertTest rt json r.value q.valueType c.rule = some message
    unfold alertTest
    rw [hresult]

theorem resolved_iff (autoResolve : Bool) (now : Nat) :
    (if autoResolve then some now else none).isSome = true ↔ autoResolve = true := by
  cases autoResolve <;> simp

/-- An alert is about a response and a criterion, with the message of its rule. -/
theorem newAlerts_only {a : Alert} (h : a ∈ newAlerts env i responses w) :
    i.status = .complete ∧ ∃ r ∈ responses, ∃ c, (r, c, a.message) ∈ triggered env w r ∧
      (a.message ≠ "" → IsAlertOf i r c a) := by
  unfold newAlerts at h
  split at h
  · next hcomplete =>
    obtain ⟨n, hn, rfl⟩ := List.mem_mapIdx.mp h
    obtain ⟨r, hr, hx⟩ := List.mem_flatMap.mp (List.getElem_mem hn)
    generalize (responses.flatMap (triggered env w))[n] = x at hx
    obtain ⟨r', c, m⟩ := x
    have hsame : r' = r := by
      obtain ⟨_, _, _, _, _, _, _, _, _, heq⟩ := mem_triggered.mp hx
      exact (Prod.mk.inj heq).1
    subst hsame
    refine ⟨hcomplete, r', hr, c, hx, ?_⟩
    intro hmessage
    exact ⟨rfl, rfl, hmessage, rfl, rfl, rfl, rfl, rfl, rfl, resolved_iff _ _⟩
  · exact absurd h List.not_mem_nil

theorem newAlerts_each (hcomplete : i.status = .complete) {r : AssetQuestionResponse}
    (hr : r ∈ responses) {c : AssetAlertCriterion} {message : String}
    (h : (r, c, message) ∈ triggered env w r) :
    ∃ a ∈ newAlerts env i responses w, a.message = message ∧
      (message ≠ "" → IsAlertOf i r c a) := by
  obtain ⟨n, hn, hget⟩ := List.mem_iff_getElem.mp (List.mem_flatMap.mpr ⟨r, hr, h⟩)
  unfold newAlerts
  rw [if_pos hcomplete]
  refine ⟨_, List.mem_mapIdx.mpr ⟨n, hn, rfl⟩, ?_⟩
  rw [hget]
  refine ⟨rfl, ?_⟩
  intro hmessage
  exact ⟨rfl, rfl, hmessage, rfl, rfl, rfl, rfl, rfl, rfl, resolved_iff _ _⟩

/-- No two alerts are about the same response and criterion. -/
theorem newAlerts_once (hids : (responses.map (·.id)).Nodup) :
    ((newAlerts env i responses w).map fun a =>
      (a.assetQuestionResponseId, a.assetAlertCriterionId)).Nodup := by
  unfold newAlerts
  split
  · have hpairs : ((responses.flatMap (triggered env w)).map fun x => (x.1.id, x.2.1.id)).Nodup := by
      apply List.Nodup.map_on _ (triggered_all_nodup (List.Nodup.of_map _ hids))
      intro x hx y hy heq
      obtain ⟨r, hr, hx⟩ := List.mem_flatMap.mp hx
      obtain ⟨r', hr', hy⟩ := List.mem_flatMap.mp hy
      obtain ⟨hresponse, hcriterion⟩ := Prod.mk.inj heq
      have hxr : x.1 = r := by
        obtain ⟨_, _, _, _, _, _, _, _, _, rfl⟩ := mem_triggered.mp hx
        rfl
      have hyr : y.1 = r' := by
        obtain ⟨_, _, _, _, _, _, _, _, _, rfl⟩ := mem_triggered.mp hy
        rfl
      apply triggered_unique hx hy _ hcriterion
      apply List.inj_on_of_nodup_map hids (hxr ▸ hr) (hyr ▸ hr') hresponse
    convert hpairs using 1
    apply List.ext_getElem
    · simp
    · intro n h h'
      simp
  · exact List.nodup_nil

theorem created_eq : created rt json env i responses w =
    if i.status = .complete ∧ (firstThrow rt json w responses).isSome = true then []
    else newAlerts (alertEnv rt json env) i responses w := by
  unfold created createInputs
  by_cases hcomplete : i.status = .complete
  · rw [if_pos hcomplete]
    cases hthrow : firstThrow rt json w responses with
    | none => simp
    | some e => simp [hcomplete]
  · rw [if_neg hcomplete, if_neg fun h => hcomplete h.1]
    simp [newAlerts, hcomplete]

section Exact

variable {responses : Table AssetQuestionResponse String AssetQuestionResponse.id}

theorem AlertsExact.undisturbed
    (h : AlertsExact rt json i responses.rows w (created rt json env i responses.rows w))
    (hcomplete : i.status = .complete) : Undisturbed rt json responses.rows w := by
  rw [created_eq] at h
  cases hthrow : firstThrow rt json w responses.rows with
  | some e =>
    rw [hthrow, if_pos ⟨hcomplete, rfl⟩] at h
    have hsome : ¬ firstThrow rt json w responses.rows = none := by simp [hthrow]
    rw [firstThrow_eq_none] at hsome
    push Not at hsome
    obtain ⟨r, hr, q, c, hqc, hthrows⟩ := hsome
    refine .inr ⟨⟨r, hr, c, q, hqc, hthrows⟩, ?_⟩
    intro r' hr' c' hfires
    obtain ⟨a, ha, -⟩ := h.each hcomplete r' hr' c' hfires
    exact List.not_mem_nil ha
  | none =>
    rw [hthrow, if_neg fun h => absurd h.2 (by simp)] at h
    refine .inl ?_
    intro r hr q c hqc
    refine ⟨firstThrow_eq_none.mp hthrow r hr q c hqc, ?_⟩
    intro hempty
    -- the rule says the empty text, and the alert has no other message
    have htriggered : (r, c, "") ∈ triggered (alertEnv rt json env) w r :=
      mem_triggered_iff.mpr ⟨q, hqc, storedRuleResult_eq_empty.mpr hempty⟩
    obtain ⟨a, ha, hmessage, -⟩ := newAlerts_each hcomplete hr htriggered
    obtain ⟨-, _, -, _, -, halert⟩ := h.only a ha
    exact halert.message hmessage

theorem Undisturbed.alertsExact (h : i.status = .complete → Undisturbed rt json responses.rows w) :
    AlertsExact rt json i responses.rows w (created rt json env i responses.rows w) := by
  rw [created_eq]
  by_cases hthrow : i.status = .complete ∧ (firstThrow rt json w responses.rows).isSome = true
  · rw [if_pos hthrow]
    have hsilent : ∀ r ∈ responses.rows, ∀ c, ¬ Fires rt json w r c := by
      refine ((h hthrow.1).resolve_left ?_).2
      intro hnone
      have hno := firstThrow_eq_none.mpr fun r hr q c hqc => (hnone r hr q c hqc).1
      rw [hno] at hthrow
      cases hthrow.2
    refine ⟨?_, List.nodup_nil, fun a ha => absurd ha List.not_mem_nil⟩
    intro _ r hr c hfires
    exact absurd hfires (hsilent r hr c)
  · rw [if_neg hthrow]
    refine ⟨?_, newAlerts_once responses.unique, ?_⟩
    · rintro hcomplete r hr c ⟨q, hqc, m, hne, hresult⟩
      obtain ⟨a, ha, -, halert⟩ :=
        newAlerts_each hcomplete hr (mem_triggered_iff.mpr ⟨q, hqc, hresult⟩)
      exact ⟨a, ha, halert hne⟩
    · intro a ha
      obtain ⟨hcomplete, r, hr, c, htriggered, halert⟩ := newAlerts_only ha
      obtain ⟨q, hqc, hresult⟩ := mem_triggered_iff.mp htriggered
      have hnothrow : firstThrow rt json w responses.rows = none := by
        simpa [hcomplete] using hthrow
      have hundisturbed := (h hcomplete).resolve_right (by
        rintro ⟨⟨r, hr, c, q, hqc, hthrows⟩, -⟩
        exact firstThrow_eq_none.mp hnothrow r hr q c hqc hthrows)
      have hne : a.message ≠ "" := by
        intro hempty
        rw [hempty] at hresult
        exact (hundisturbed r hr q c hqc).2 (storedRuleResult_eq_empty.mp hresult)
      exact ⟨hcomplete, r, hr, c, ⟨q, hqc, _, hne, hresult⟩, halert hne⟩

end Exact

/-- **Which inspections get exactly the alerts that fire.** -/
theorem alertsExact_iff (rt : AlertRuntime) (json : String → JsonValue) (env : InspectionEnv)
    (i : Inspection) (responses : Table AssetQuestionResponse String AssetQuestionResponse.id)
    (w : AssetWorld) :
    AlertsExact rt json i responses.rows w (created rt json env i responses.rows w) ↔
      (i.status = .complete → Undisturbed rt json responses.rows w) :=
  ⟨AlertsExact.undisturbed, Undisturbed.alertsExact⟩

/-! ### The rows of the table -/

/-- What a call that returns adds to the alerts. -/
theorem handleAlertTriggers_rows {rls : Settings} {w' : AssetWorld}
    (h : handleAlertTriggers rt json env rls i responses w = .ok ((), w')) :
    w'.alerts.rows = w.alerts.rows ++ created rt json env i responses w := by
  unfold handleAlertTriggers at h
  unfold created
  cases hinputs : createInputs rt json env i responses w with
  | error e =>
    rw [hinputs] at h
    cases h
  | ok alerts =>
    rw [hinputs] at h
    simp only at h
    cases hinsert : insertRows (alertsRefusal rls alerts) w.alerts alerts with
    | error e =>
      rw [hinsert] at h
      cases h
    | ok t =>
      rw [hinsert] at h
      rw [← (Prod.mk.inj (Except.ok.inj h)).2]
      exact Table.rows_insertAll? (insertRows_eq_ok.mp hinsert).2

/-- Where no rule throws, the call is the one that tests by `alertTest`. -/
theorem handleAlertTriggers_eq (rls : Settings) (h : firstThrow rt json w responses = none) :
    handleAlertTriggers rt json env rls i responses w =
      InspectionsService.handleAlertTriggers (alertEnv rt json env) rls i responses w := by
  have hinputs : createInputs rt json env i responses w =
      .ok (newAlerts (alertEnv rt json env) i responses w) := by
    unfold createInputs newAlerts
    by_cases hcomplete : i.status = .complete
    · simp [hcomplete, h]
    · simp [hcomplete]
  unfold handleAlertTriggers InspectionsService.handleAlertTriggers
  rw [hinputs]

end Created

/-! ## 5. An inspection with an empty rule -/

/-- Columns that hold one rule and texts. -/
def emptyAndColumn (column : String) : JsonValue :=
  if column = "\x7b\"AND\":[]\x7d" then .object [("AND", .array [])] else .text column

def hoseQuestion : AssetQuestion where
  id := "hose"
  type := .inspection
  valueType := .text

def hoseCriterion : AssetAlertCriterion where
  id := "hose-rule"
  assetQuestionId := "hose"
  rule := "\x7b\"AND\":[]\x7d"

def hoseResponse : AssetQuestionResponse where
  id := "hose-answer"
  value := "coiled"
  originalPrompt := "Is the hose coiled?"
  assetQuestionId := "hose"
  inspectionId := some "round"
  responderId := "ida"
  siteId := "pier"
  clientId := "harbour"

def hoseWorld : AssetWorld where
  questions := ⟨[hoseQuestion], List.nodup_singleton _⟩
  alertCriteria := ⟨[hoseCriterion], List.nodup_singleton _⟩

def hoseRound : Inspection where
  id := "round"
  createdOn := 0
  assetId := "hose-1"
  inspectorId := "ida"
  status := .complete
  siteId := "pier"
  clientId := "harbour"

/-- The alert of the rule without subrules says nothing. -/
theorem hoseRound_says_nothing :
    ¬ AlertsExact mayRuntime emptyAndColumn hoseRound [hoseResponse] hoseWorld
      (created mayRuntime emptyAndColumn {} hoseRound [hoseResponse] hoseWorld) := by
  intro h
  have hmessages : (created mayRuntime emptyAndColumn {} hoseRound [hoseResponse] hoseWorld).map
      (·.message) = [""] := by
    rfl
  obtain ⟨a, ha, hmessage⟩ := List.mem_map.mp (hmessages ▸ List.mem_singleton_self "")
  obtain ⟨-, _, -, _, -, halert⟩ := h.only a ha
  exact halert.message hmessage

end AlertTriggers

end ShieldApi
