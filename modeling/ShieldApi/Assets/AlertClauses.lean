import ShieldApi.Assets.AlertRules

/-!
# What alert clauses say and when they fire

A clause with one operator names a relation between the value of a response and its operand, and
the message it fires with says that the relation holds. **`gt`, `gte`, `lt` and `lte` test numbers
and texts the wrong way round**: the callbacks take the operand first, and only those for dates turn
it back. The operators on texts are silent about numbers and dates, and a clause that is the empty
text is not tested at all.

`named_iff` says for which values and operands a clause fires exactly when its relation holds, and
`complementary_iff` for which exactly one of two opposite clauses fires: for dates they are tested by
instant or by day, so that of two times of one day both `gt` and `lte` may fire.
-/

set_option autoImplicit false

namespace ShieldApi

namespace AlertUtils

open Js

/-! ## 1. Named relations -/

/-- A clause with a single operator that compares with nothing but its operand. -/
inductive NamedRelation
  | text (operand : String)
  | equals (operand : String)
  | not (operand : String)
  | gt (operand : StringOrNumber)
  | gte (operand : StringOrNumber)
  | lt (operand : StringOrNumber)
  | lte (operand : StringOrNumber)
  | contains (operand : String)
  | notContains (operand : String)
  | startsWith (operand : String)
  | endsWith (operand : String)
  | empty
  | notEmpty
  deriving DecidableEq, Repr

def NamedRelation.clause : NamedRelation → RuleClause
  | .text operand => .text operand
  | .equals operand => .object (ClauseOperator.equals operand).clause
  | .not operand => .object (ClauseOperator.not operand).clause
  | .gt operand => .object (ClauseOperator.gt operand).clause
  | .gte operand => .object (ClauseOperator.gte operand).clause
  | .lt operand => .object (ClauseOperator.lt operand).clause
  | .lte operand => .object (ClauseOperator.lte operand).clause
  | .contains operand => .object (ClauseOperator.contains operand).clause
  | .notContains operand => .object (ClauseOperator.notContains operand).clause
  | .startsWith operand => .object (ClauseOperator.startsWith operand).clause
  | .endsWith operand => .object (ClauseOperator.endsWith operand).clause
  | .empty => .object ClauseOperator.empty.clause
  | .notEmpty => .object ClauseOperator.notEmpty.clause

section Relations

variable (rt : AlertRuntime) (valueType : AssetQuestionResponseType) (value : JsonValue)

/-- The value stands in the relation to the operand. The order is that of numbers where the
    answers are numbers, and else that of the texts in lower case; no number contains another, so
    the relations between texts are always those between the texts in lower case. -/
def NamedRelation.Holds : NamedRelation → Prop
  | .text t | .equals t =>
    (primitive rt valueType value).strictEq (primitive rt valueType (.text t)) = true
  | .not t =>
    (primitive rt valueType value).strictEq (primitive rt valueType (.text t)) = false
  | .gt t => (primitive rt valueType t.toJson).lt (primitive rt valueType value) = true
  | .gte t => (primitive rt valueType t.toJson).le (primitive rt valueType value) = true
  | .lt t => (primitive rt valueType value).lt (primitive rt valueType t.toJson) = true
  | .lte t => (primitive rt valueType value).le (primitive rt valueType t.toJson) = true
  | .contains t => (rt.lowerText (.text t)).toList <:+: (rt.lowerText value).toList
  | .notContains t => ¬ (rt.lowerText (.text t)).toList <:+: (rt.lowerText value).toList
  | .startsWith t => (rt.lowerText (.text t)).toList <+: (rt.lowerText value).toList
  | .endsWith t => (rt.lowerText (.text t)).toList <:+ (rt.lowerText value).toList
  | .empty => value = .null ∨ value = .text ""
  | .notEmpty => ¬ (value = .null ∨ value = .text "")

/-- What is tested in its place. -/
def NamedRelation.Tested : NamedRelation → Prop
  | .text t => t ≠ "" ∧
    (primitive rt valueType (.text t)).strictEq (primitive rt valueType value) = true
  | .equals t => (primitive rt valueType (.text t)).strictEq (primitive rt valueType value) = true
  | .not t => (primitive rt valueType (.text t)).strictEq (primitive rt valueType value) = false
  | .gt t => (primitive rt valueType value).lt (primitive rt valueType t.toJson) = true
  | .gte t => (primitive rt valueType value).le (primitive rt valueType t.toJson) = true
  | .lt t => (primitive rt valueType t.toJson).lt (primitive rt valueType value) = true
  | .lte t => (primitive rt valueType t.toJson).le (primitive rt valueType value) = true
  | .contains t => valueType ≠ .number ∧
    (rt.lowerText (.text t)).toList <:+: (rt.lowerText value).toList
  | .notContains t => valueType ≠ .number ∧
    ¬ (rt.lowerText (.text t)).toList <:+: (rt.lowerText value).toList
  | .startsWith t => valueType ≠ .number ∧
    (rt.lowerText (.text t)).toList <+: (rt.lowerText value).toList
  | .endsWith t => valueType ≠ .number ∧
    (rt.lowerText (.text t)).toList <:+ (rt.lowerText value).toList
  | .empty => value = .null ∨ value = .text ""
  | .notEmpty => ¬ (value = .null ∨ value = .text "")

/-- Neither of the value and the operand is less than the other. -/
def NamedRelation.Level (operand : JsonValue) : Prop :=
  Primitive.Level (primitive rt valueType operand) (primitive rt valueType value)

/-- Where a clause fires just when it should. -/
def NamedRelation.Sound (r : NamedRelation) : Prop :=
  match r with
  | .text t => t = "" → ¬ r.Holds rt valueType value
  | .gt t | .gte t | .lt t | .lte t => NamedRelation.Level rt valueType value t.toJson
  | .contains _ | .notContains _ | .startsWith _ | .endsWith _ =>
    valueType = .number → ¬ r.Holds rt valueType value
  | .equals _ | .not _ | .empty | .notEmpty => True

end Relations

/-! ## 2. When a clause fires -/

section Firing

variable {rt : AlertRuntime} {value : JsonValue} {valueType : AssetQuestionResponseType}

/-- `testAlertRule` of a rule that is one clause. -/
def testValueRule (rt : AlertRuntime) (value : JsonValue) (valueType : AssetQuestionResponseType)
    (clause : RuleClause) : TestResult :=
  testAlertRule rt value valueType (.mk (some clause) none none)

/-- It fires: the result is a message. -/
def Fires (r : TestResult) : Prop := ∃ m, r = .ok (some m)

theorem fires_explain {result : Bool} {message : String} :
    Fires (.ok (explain result message)) ↔ result = true := by
  cases result <;> simp [Fires, explain]

theorem not_fires_none : ¬ Fires (.ok none) := by
  simp [Fires]

theorem testValueRule_object (o : RuleClauseObject) :
    testValueRule rt value valueType (.object o) =
      testAlertRuleClause rt value valueType (.object o) := by
  unfold testValueRule
  rw [testAlertRule.eq_def]
  rfl

theorem testValueRule_operator (op : ClauseOperator) :
    testValueRule rt value valueType (.object op.clause) = testOperator rt value valueType op := by
  rw [testValueRule_object, testAlertRuleClause, op.operator?_clause]

theorem testValueRule_text (s : String) :
    testValueRule rt value valueType (.text s) =
      if s = "" then .ok none else testAlertRuleClause rt value valueType (.text s) := by
  unfold testValueRule
  rw [testAlertRule.eq_def]
  by_cases hs : s = ""
  · simp [truthyClause, hs]
  · simp [truthyClause, hs]

theorem fires_orderOps (h : valueType ≠ .date) {clause : StringOrNumber}
    {test : Primitive → Primitive → Bool} {message : String} {testDate : JsDate → JsDate → Bool}
    {dateMessage : String} :
    Fires (compare rt value valueType clause (orderOps rt test message testDate dateMessage)) ↔
      test (primitive rt valueType clause.toJson) (primitive rt valueType value) = true := by
  rw [compare_orderOps h, fires_explain]

theorem fires_textOps (h : valueType ≠ .date) {clause : StringOrNumber}
    {test : String → String → Bool} {message : String} :
    Fires (compare rt value valueType clause (textOps test message)) ↔
      valueType ≠ .number ∧ test (rt.lowerText clause.toJson) (rt.lowerText value) = true := by
  rw [compare_textOps]
  by_cases hnumber : valueType = .number
  · rw [if_pos (.inl hnumber)]
    exact iff_of_false not_fires_none fun hboth => hboth.1 hnumber
  · rw [if_neg (not_or.mpr ⟨hnumber, h⟩), fires_explain]
    exact (and_iff_right hnumber).symm

theorem isEmptyValue_iff : isEmptyValue value = true ↔ value = .null ∨ value = .text "" := by
  unfold isEmptyValue
  cases value <;> simp [JsonValue.isText]

theorem fires_iff_tested (h : valueType ≠ .date) (r : NamedRelation) :
    Fires (testValueRule rt value valueType r.clause) ↔ r.Tested rt valueType value := by
  cases r
  case text t =>
    rw [NamedRelation.clause, testValueRule_text]
    by_cases ht : t = ""
    · rw [if_pos ht]
      exact iff_of_false not_fires_none fun htested => htested.1 ht
    · rw [if_neg ht]
      refine Iff.trans ?_ (and_iff_right ht).symm
      cases valueType <;> first | exact fires_explain | exact absurd rfl h
  all_goals rw [NamedRelation.clause, testValueRule_operator, testOperator]
  case empty => rw [fires_explain, isEmptyValue_iff, NamedRelation.Tested]
  case notEmpty =>
    rw [fires_explain, Bool.not_eq_true', ← Bool.not_eq_true, isEmptyValue_iff,
      NamedRelation.Tested]
  case contains | startsWith | endsWith =>
    rw [fires_textOps h]
    exact and_congr_right fun _ => decide_eq_true_iff
  case notContains =>
    rw [fires_textOps h]
    apply and_congr_right
    intro _
    rw [Bool.not_eq_true']
    exact decide_eq_false_iff_not
  all_goals
    rw [fires_orderOps h]
    simp [NamedRelation.Tested, StringOrNumber.toJson]

/-- Something held back for numbers is right where it does not hold. -/
theorem held_back_iff {p : Prop} :
    ((valueType ≠ .number ∧ p) ↔ p) ↔ (valueType = .number → ¬ p) := by
  tauto

theorem tested_iff_holds (r : NamedRelation) :
    (r.Tested rt valueType value ↔ r.Holds rt valueType value) ↔ r.Sound rt valueType value := by
  cases r
  case text t =>
    rw [NamedRelation.Tested, NamedRelation.Sound, NamedRelation.Holds, Primitive.strictEq_comm]
    tauto
  case equals | not =>
    rw [NamedRelation.Tested, NamedRelation.Holds, Primitive.strictEq_comm]
    exact iff_of_true Iff.rfl trivial
  case gt | gte =>
    rw [NamedRelation.Tested, NamedRelation.Holds, iff_comm (a := _ = true)]
    first | exact Primitive.lt_comm_iff | exact Primitive.le_comm_iff
  case lt => exact Primitive.lt_comm_iff
  case lte => exact Primitive.le_comm_iff
  case contains | notContains | startsWith | endsWith => exact held_back_iff
  case empty | notEmpty => exact iff_of_true Iff.rfl trivial

/-- **Which clauses mean what their messages say**, of answers that are no dates. -/
theorem named_iff (h : valueType ≠ .date) (r : NamedRelation) :
    (Fires (testValueRule rt value valueType r.clause) ↔ r.Holds rt valueType value) ↔
      r.Sound rt valueType value := by
  rw [fires_iff_tested h]
  exact tested_iff_holds r

end Firing

/-! ### A gauge -/

/-- A gauge that reads 12 is not reported by a rule for more than 10. -/
theorem gauge_above_unreported :
    ¬ (Fires (testValueRule mayRuntime (.number 12) .number (NamedRelation.gt (.number 10)).clause) ↔
      (NamedRelation.gt (.number 10)).Holds mayRuntime .number (.number 12)) := by
  rw [fires_iff_tested (by decide)]
  unfold NamedRelation.Tested NamedRelation.Holds
  decide

/-- The same gauge, at 10. -/
theorem gauge_level :
    (Fires (testValueRule mayRuntime (.number 10) .number (NamedRelation.gt (.number 10)).clause) ↔
      (NamedRelation.gt (.number 10)).Holds mayRuntime .number (.number 10)) ↔
      (NamedRelation.gt (.number 10)).Sound mayRuntime .number (.number 10) :=
  named_iff (by decide) _

/-! ## 3. Opposite clauses -/

inductive OppositePair
  | gtLte (operand : StringOrNumber)
  | ltGte (operand : StringOrNumber)
  | equalsNot (operand : String)
  | containsNotContains (operand : String)
  deriving DecidableEq, Repr

namespace OppositePair

def first : OppositePair → ClauseOperator
  | .gtLte operand => .gt operand
  | .ltGte operand => .lt operand
  | .equalsNot operand => .equals operand
  | .containsNotContains operand => .contains operand

def second : OppositePair → ClauseOperator
  | .gtLte operand => .lte operand
  | .ltGte operand => .gte operand
  | .equalsNot operand => .not operand
  | .containsNotContains operand => .notContains operand

def operand : OppositePair → JsonValue
  | .gtLte operand | .ltGte operand => operand.toJson
  | .equalsNot operand | .containsNotContains operand => .text operand

end OppositePair

section Opposite

variable (rt : AlertRuntime) (valueType : AssetQuestionResponseType) (value : JsonValue)

/-- As a value of the type it is a finite number, or a valid date. Every value is a text. -/
def ValidIn (v : JsonValue) : Prop :=
  match valueType with
  | .number => ∃ q, rt.toNumber v = .finite q
  | .date => (rt.parseISO (rt.toText v)).isSome = true
  | _ => True

/-- Where exactly one of the two fires. Two times of one day are told apart by `gt` and `lt`, and
    not by the two that allow the same day. -/
def OppositePair.Apart : OppositePair → Prop
  | .gtLte operand => valueType = .date →
    ¬ (rt.isSameDay (rt.parseISO (rt.toText operand.toJson)) (rt.parseISO (rt.toText value)) = true ∧
      (rt.parseISO (rt.toText value)).isAfter (rt.parseISO (rt.toText operand.toJson)) = true)
  | .ltGte operand => valueType = .date →
    ¬ (rt.isSameDay (rt.parseISO (rt.toText operand.toJson)) (rt.parseISO (rt.toText value)) = true ∧
      (rt.parseISO (rt.toText value)).isBefore (rt.parseISO (rt.toText operand.toJson)) = true)
  | .equalsNot _ => True
  | .containsNotContains _ => valueType = .text

end Opposite

section OppositeFiring

variable {rt : AlertRuntime} {value : JsonValue} {valueType : AssetQuestionResponseType}

theorem fires_orderOps_date {clause : StringOrNumber} {test : Primitive → Primitive → Bool}
    {message : String} {testDate : JsDate → JsDate → Bool} {dateMessage : String}
    (h : (rt.parseISO (rt.toText clause.toJson)).isSome = true) :
    Fires (compare rt value .date clause (orderOps rt test message testDate dateMessage)) ↔
      testDate (rt.parseISO (rt.toText clause.toJson)) (rt.parseISO (rt.toText value)) = true := by
  rw [compare_orderOps_date]
  obtain ⟨t, ht⟩ := Option.isSome_iff_exists.mp h
  rw [ht]
  exact fires_explain

/-- What is valid can be compared. -/
theorem comparable_of_valid (hdate : valueType ≠ .date) {v v' : JsonValue}
    (h : ValidIn rt valueType v) (h' : ValidIn rt valueType v') :
    Primitive.comparable (primitive rt valueType v) (primitive rt valueType v') = true := by
  by_cases hnumber : valueType = .number
  · subst hnumber
    obtain ⟨q, hq⟩ := h
    obtain ⟨q', hq'⟩ := h'
    simp [primitive, hq, hq', Primitive.comparable]
  · simp [primitive, hnumber, Primitive.comparable]

/-- Of two that exclude each other, and of which one holds but where `d` does. -/
theorem iff_not_or_iff {d p q : Prop} (hpq : p → ¬ q) (hd : ¬ p → ¬ q → d) :
    (p ↔ ¬ (d ∨ q)) ↔ ¬ (d ∧ p) := by
  by_cases hp : p
  · simp [hp, hpq hp]
  · by_cases hq : q
    · simp [hp, hq]
    · simp [hp, hd hp hq]

/-- An instant is after another, before it, or the same, and then of the same day. -/
theorem isAfter_iff (t v : Int) :
    (JsDate.isAfter (some v) (some t) = true ↔
      ¬ (rt.isSameDay (some t) (some v) || JsDate.isBefore (some v) (some t)) = true) ↔
    ¬ (rt.isSameDay (some t) (some v) = true ∧ JsDate.isAfter (some v) (some t) = true) := by
  simp only [JsDate.isAfter, JsDate.isBefore, AlertRuntime.isSameDay, Bool.or_eq_true,
    decide_eq_true_eq]
  exact iff_not_or_iff (fun h => h.not_gt) fun h h' => by rw [le_antisymm (not_lt.1 h') (not_lt.1 h)]

theorem isBefore_iff (t v : Int) :
    (JsDate.isBefore (some v) (some t) = true ↔
      ¬ (rt.isSameDay (some t) (some v) || JsDate.isAfter (some v) (some t)) = true) ↔
    ¬ (rt.isSameDay (some t) (some v) = true ∧ JsDate.isBefore (some v) (some t) = true) := by
  simp only [JsDate.isAfter, JsDate.isBefore, AlertRuntime.isSameDay, Bool.or_eq_true,
    decide_eq_true_eq]
  exact iff_not_or_iff (fun h => h.not_gt) fun h h' => by rw [le_antisymm (not_lt.1 h) (not_lt.1 h')]

/-- Two that cannot be told apart in what they fire on, but for one negation. -/
theorem not_fires_iff {a b : Prop} {p q : Bool} (ha : a ↔ p = true) (hb : b ↔ q = true)
    (h : q = !p) : a ↔ ¬ b := by
  rw [ha, hb, h, Bool.not_eq_true', Bool.not_eq_false]

/-- Two comparisons that are opposite for primitives are so, for dates, as far as the dates are. -/
theorem opposite_orderOps_iff (Apart : JsDate → JsDate → Prop)
    (hv : ValidIn rt valueType value) {t : StringOrNumber}
    (ho : ValidIn rt valueType t.toJson) {test test' : Primitive → Primitive → Bool}
    {message message' dateMessage dateMessage' : String} {testDate testDate' : JsDate → JsDate → Bool}
    (htest : valueType ≠ .date →
      test' (primitive rt valueType t.toJson) (primitive rt valueType value) =
        !test (primitive rt valueType t.toJson) (primitive rt valueType value))
    (hdates : ∀ d v : Int, (testDate (some d) (some v) = true ↔
      ¬ testDate' (some d) (some v) = true) ↔ Apart (some d) (some v)) :
    (Fires (compare rt value valueType t (orderOps rt test message testDate dateMessage)) ↔
        ¬ Fires (compare rt value valueType t (orderOps rt test' message' testDate' dateMessage'))) ↔
      (valueType = .date →
        Apart (rt.parseISO (rt.toText t.toJson)) (rt.parseISO (rt.toText value))) := by
  by_cases hdate : valueType = .date
  · subst hdate
    rw [fires_orderOps_date ho, fires_orderOps_date ho]
    simp only [true_implies]
    obtain ⟨v, hv⟩ := Option.isSome_iff_exists.mp hv
    obtain ⟨d, hd⟩ := Option.isSome_iff_exists.mp ho
    rw [hv, hd]
    exact hdates d v
  · refine iff_of_true ?_ fun h => absurd h hdate
    exact not_fires_iff (fires_orderOps hdate) (fires_orderOps hdate) (htest hdate)

theorem gtLte_iff (hv : ValidIn rt valueType value) {t : StringOrNumber}
    (ho : ValidIn rt valueType t.toJson) :
    (Fires (testOperator rt value valueType (.gt t)) ↔
        ¬ Fires (testOperator rt value valueType (.lte t))) ↔
      (OppositePair.gtLte t).Apart rt valueType value := by
  rw [testOperator, testOperator, OppositePair.Apart]
  refine opposite_orderOps_iff (fun d v => ¬ (rt.isSameDay d v = true ∧ v.isAfter d = true))
    hv ho (fun hdate => ?_) ?_
  · simp [Primitive.le, comparable_of_valid hdate ho hv]
  · exact isAfter_iff

theorem ltGte_iff (hv : ValidIn rt valueType value) {t : StringOrNumber}
    (ho : ValidIn rt valueType t.toJson) :
    (Fires (testOperator rt value valueType (.lt t)) ↔
        ¬ Fires (testOperator rt value valueType (.gte t))) ↔
      (OppositePair.ltGte t).Apart rt valueType value := by
  rw [testOperator, testOperator, OppositePair.Apart]
  refine opposite_orderOps_iff (fun d v => ¬ (rt.isSameDay d v = true ∧ v.isBefore d = true))
    hv ho (fun hdate => ?_) ?_
  · simp [Primitive.le, comparable_of_valid hdate hv ho]
  · exact isBefore_iff

theorem equalsNot_iff {t : String} (ho : ValidIn rt valueType (.text t)) :
    Fires (testOperator rt value valueType (.equals t)) ↔
      ¬ Fires (testOperator rt value valueType (.not t)) := by
  rw [testOperator, testOperator]
  by_cases hdate : valueType = .date
  · subst hdate
    exact not_fires_iff (fires_orderOps_date ho) (fires_orderOps_date ho) rfl
  · exact not_fires_iff (fires_orderOps hdate) (fires_orderOps hdate) rfl

theorem containsNotContains_iff
    (htype : valueType = .number ∨ valueType = .text ∨ valueType = .date) {t : String} :
    (Fires (testOperator rt value valueType (.contains t)) ↔
        ¬ Fires (testOperator rt value valueType (.notContains t))) ↔ valueType = .text := by
  rw [testOperator, testOperator, compare_textOps, compare_textOps]
  rcases htype with rfl | rfl | rfl
  · simp [not_fires_none]
  · exact iff_of_true (not_fires_iff fires_explain fires_explain rfl) rfl
  · simp [not_fires_none]

/-- **When exactly one of two opposite clauses fires.** -/
theorem complementary_iff
    (htype : valueType = .number ∨ valueType = .text ∨ valueType = .date) (p : OppositePair)
    (hv : ValidIn rt valueType value) (ho : ValidIn rt valueType p.operand) :
    (Fires (testValueRule rt value valueType (.object p.first.clause)) ↔
        ¬ Fires (testValueRule rt value valueType (.object p.second.clause))) ↔
      p.Apart rt valueType value := by
  rw [testValueRule_operator, testValueRule_operator]
  cases p with
  | gtLte t => exact gtLte_iff hv ho
  | ltGte t => exact ltGte_iff hv ho
  | equalsNot t => exact iff_of_true (equalsNot_iff ho) trivial
  | containsNotContains t => exact containsNotContains_iff htype

end OppositeFiring

/-- On the afternoon of a day, both "after eight" and "on or before that day" are reported. -/
theorem afternoon_reported_twice :
    ¬ (Fires (testValueRule mayRuntime (.text "2024-05-01T17:00:00Z") .date
          (.object (ClauseOperator.gt (.text "2024-05-01T08:00:00Z")).clause)) ↔
        ¬ Fires (testValueRule mayRuntime (.text "2024-05-01T17:00:00Z") .date
          (.object (ClauseOperator.lte (.text "2024-05-01T08:00:00Z")).clause))) := by
  rw [testValueRule_operator, testValueRule_operator]
  simp only [testOperator]
  rw [fires_orderOps_date (by decide), fires_orderOps_date (by decide)]
  decide

/-- At eight in the morning one of them is. -/
theorem morning_reported_once :
    (Fires (testValueRule mayRuntime (.text "2024-05-01T08:00:00Z") .date
        (.object (OppositePair.gtLte (.text "2024-05-01T08:00:00Z")).first.clause)) ↔
      ¬ Fires (testValueRule mayRuntime (.text "2024-05-01T08:00:00Z") .date
        (.object (OppositePair.gtLte (.text "2024-05-01T08:00:00Z")).second.clause))) ↔
      (OppositePair.gtLte (.text "2024-05-01T08:00:00Z")).Apart mayRuntime .date
        (.text "2024-05-01T08:00:00Z") :=
  complementary_iff (.inr (.inr rfl)) _ rfl rfl

end AlertUtils

end ShieldApi
