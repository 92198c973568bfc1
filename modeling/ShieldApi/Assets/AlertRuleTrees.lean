import ShieldApi.Assets.AlertRules

/-!
# Alert rules as trees

The type of a rule is recursive: an `AND` or an `OR` may have rules in it that are again one of the
two. What a rule means as a tree of such is `RuleTree.Holds`; what is made of it is the result of
parsing its JSON and testing what was parsed.

**The two agree exactly on the trees of `RuleTree.AsWritten`**: the parser keeps nothing of a
subrule but its clause, a clause that is the empty text is taken for none, and an `AND` of nothing
answers with the empty text.
-/

set_option autoImplicit false

namespace ShieldApi

/-! ## 1. Trees -/

/-- `CreateAssetAlertCriterionRule`, where each node has one of the three. -/
inductive RuleTree
  | value (clause : RuleClause)
  | and (rules : List RuleTree)
  | or (rules : List RuleTree)

/-! ### As JSON -/

/-- The fields that are there. -/
def presentFields (fields : List (String × Option JsonValue)) : JsonFields :=
  fields.filterMap fun f => f.2.map (f.1, ·)

def flagJson (flag : Bool) : Option JsonValue := if flag then some (.bool true) else none

def RuleClauseObject.fields (o : RuleClauseObject) : List (String × Option JsonValue) :=
  [("empty", flagJson o.empty), ("notEmpty", flagJson o.notEmpty),
   ("equals", o.equals.map .text), ("not", o.not.map .text),
   ("contains", o.contains.map .text), ("notContains", o.notContains.map .text),
   ("startsWith", o.startsWith.map .text), ("endsWith", o.endsWith.map .text),
   ("gt", o.gt.map (·.toJson)), ("gte", o.gte.map (·.toJson)),
   ("lt", o.lt.map (·.toJson)), ("lte", o.lte.map (·.toJson)),
   ("beforeDaysPast", o.beforeDaysPast.map .number),
   ("afterDaysPast", o.afterDaysPast.map .number),
   ("beforeDaysFuture", o.beforeDaysFuture.map .number),
   ("afterDaysFuture", o.afterDaysFuture.map .number)]

def RuleClause.toJson : RuleClause → JsonValue
  | .text s => .text s
  | .object o => .object (presentFields o.fields)

namespace RuleTree

mutual

/-- The rule as it is stored. -/
def toJson : RuleTree → JsonValue
  | .value clause => .object [("value", clause.toJson)]
  | .and rules => .object [("AND", .array (toJsons rules))]
  | .or rules => .object [("OR", .array (toJsons rules))]

def toJsons : List RuleTree → List JsonValue
  | [] => []
  | rule :: rules => toJson rule :: toJsons rules

end

/-! ### What a tree means -/

section Meaning

variable (rt : AlertRuntime) (value : JsonValue) (valueType : AssetQuestionResponseType)

mutual

/-- The leaves are decided by `testAlertRuleClause`. -/
def Holds : RuleTree → Prop
  | .value clause =>
    AlertUtils.GivesMessage (AlertUtils.testAlertRuleClause rt value valueType clause)
  | .and rules => AllHold rules
  | .or rules => SomeHolds rules

def AllHold : List RuleTree → Prop
  | [] => True
  | rule :: rules => Holds rule ∧ AllHold rules

def SomeHolds : List RuleTree → Prop
  | [] => False
  | rule :: rules => Holds rule ∨ SomeHolds rules

end

/-- A leaf with a clause the evaluator sees. -/
def IsClause : RuleTree → Prop
  | .value clause => clause ≠ .text ""
  | _ => False

/-- The clause of a leaf throws. -/
def ClauseThrows : RuleTree → Prop
  | .value clause => AlertUtils.Throws (AlertUtils.testAlertRuleClause rt value valueType clause)
  | _ => False

/-- Where nothing of the tree that matters is lost. -/
def AsWritten : RuleTree → Prop
  | .value clause => clause = .text "" → ¬ Holds rt value valueType (.value clause)
  | .and rules => rules ≠ [] ∧
    ((∀ rule ∈ rules, Holds rt value valueType rule) → ∀ rule ∈ rules, IsClause rule)
  | .or rules => (∃ rule ∈ rules, Holds rt value valueType rule) →
    (∃ rule ∈ rules, IsClause rule ∧ Holds rt value valueType rule) ∧
      ∀ rule ∈ rules, ¬ ClauseThrows rt value valueType rule

end Meaning

/-! ## 2. Parsing -/

theorem toJsons_eq (rules : List RuleTree) : toJsons rules = rules.map toJson := by
  induction rules with
  | nil => rfl
  | cons rule rules ih => rw [toJsons, ih, List.map_cons]

end RuleTree

theorem mem_keys_presentFields {fields : List (String × Option JsonValue)} {k : String}
    (h : k ∈ Entries.keys (presentFields fields)) : k ∈ fields.map Prod.fst := by
  unfold Entries.keys presentFields at h
  obtain ⟨e, he, rfl⟩ := List.mem_map.mp h
  obtain ⟨f, hf, hsome⟩ := List.mem_filterMap.mp he
  obtain ⟨v, -, rfl⟩ := Option.map_eq_some_iff.mp hsome
  exact List.mem_map_of_mem hf

/-- With distinct names, a field is there with what it was given. -/
theorem get?_presentFields {fields : List (String × Option JsonValue)}
    (hnames : (fields.map Prod.fst).Nodup) {k : String} {v : Option JsonValue}
    (h : (k, v) ∈ fields) : Entries.get? (presentFields fields) k = v := by
  induction fields with
  | nil => exact absurd h List.not_mem_nil
  | cons f fields ih =>
    obtain ⟨hfresh, hnames⟩ := List.nodup_cons.mp hnames
    have hcons : presentFields (f :: fields) =
        (f.2.map (f.1, ·)).toList ++ presentFields fields := by
      unfold presentFields
      cases hf : f.2 with
      | none => rw [List.filterMap_cons_none (by rw [hf]; rfl)]; rfl
      | some x => rw [List.filterMap_cons_some (by rw [hf]; rfl)]; rfl
    rw [hcons, Entries.get?_append]
    rcases List.mem_cons.mp h with rfl | h
    · rw [Entries.get?_eq_none.mpr (mt mem_keys_presentFields hfresh), Option.none_or]
      cases v with
      | none => rfl
      | some x => simp [Entries.get?_cons]
    · rw [ih hnames h]
      have hne : f.1 ≠ k := by
        intro heq
        rw [heq] at hfresh
        exact hfresh (List.mem_map_of_mem h)
      cases v with
      | some x => rfl
      | none =>
        cases f.2 with
        | none => rfl
        | some x => simp [Entries.get?_cons, hne]

theorem optionalField_eq {α : Type} {schema : JsonValue → Option α} (encode : α → JsonValue)
    (hschema : ∀ a, schema (encode a) = some a) {fields : JsonFields} {name : String}
    {o : Option α} (h : Entries.get? fields name = o.map encode) :
    optionalField schema fields name = some o := by
  unfold optionalField
  rw [h]
  cases o with
  | none => rfl
  | some a => simp [hschema]

theorem optionalField_flag {fields : JsonFields} {name : String} {flag : Bool}
    (h : Entries.get? fields name = flagJson flag) :
    (optionalField literalTrue fields name).map Option.isSome = some flag := by
  unfold optionalField
  rw [h]
  cases flag <;> rfl

theorem StringOrNumber.ofJson_toJson (x : StringOrNumber) : ofJson x.toJson = some x := by
  cases x <;> rfl

namespace RuleClauseObject

variable (o : RuleClauseObject)

theorem fields_names : (o.fields.map Prod.fst).Nodup := by
  show ["empty", "notEmpty", "equals", "not", "contains", "notContains", "startsWith", "endsWith",
    "gt", "gte", "lt", "lte", "beforeDaysPast", "afterDaysPast", "beforeDaysFuture",
    "afterDaysFuture"].Nodup
  decide

theorem flag_field (name : String) (flag : Bool) (h : (name, flagJson flag) ∈ o.fields) :
    ∃ u, optionalField literalTrue (presentFields o.fields) name = some u ∧ u.isSome = flag :=
  Option.map_eq_some_iff.mp (optionalField_flag (get?_presentFields o.fields_names h))

theorem text_field (name : String) (v : Option String) (h : (name, v.map .text) ∈ o.fields) :
    optionalField JsonValue.text? (presentFields o.fields) name = some v :=
  optionalField_eq JsonValue.text (fun _ => rfl) (get?_presentFields o.fields_names h)

theorem order_field (name : String) (v : Option StringOrNumber)
    (h : (name, v.map (·.toJson)) ∈ o.fields) :
    optionalField StringOrNumber.ofJson (presentFields o.fields) name = some v :=
  optionalField_eq StringOrNumber.toJson StringOrNumber.ofJson_toJson
    (get?_presentFields o.fields_names h)

theorem days_field (name : String) (v : Option Rat) (h : (name, v.map .number) ∈ o.fields) :
    optionalField JsonValue.number? (presentFields o.fields) name = some v :=
  optionalField_eq JsonValue.number (fun _ => rfl) (get?_presentFields o.fields_names h)

/-- A clause is parsed as what it is. -/
theorem safeParse_fields : RuleClauseObjectSchema.safeParse (presentFields o.fields) = some o := by
  obtain ⟨e, he, hempty⟩ := flag_field o "empty" o.empty (by simp [fields])
  obtain ⟨n, hn, hnotEmpty⟩ := flag_field o "notEmpty" o.notEmpty (by simp [fields])
  unfold RuleClauseObjectSchema.safeParse
  rw [he, hn, text_field o "equals" o.equals (by simp [fields]),
    text_field o "not" o.not (by simp [fields]),
    text_field o "contains" o.contains (by simp [fields]),
    text_field o "notContains" o.notContains (by simp [fields]),
    text_field o "startsWith" o.startsWith (by simp [fields]),
    text_field o "endsWith" o.endsWith (by simp [fields]),
    order_field o "gt" o.gt (by simp [fields]), order_field o "gte" o.gte (by simp [fields]),
    order_field o "lt" o.lt (by simp [fields]), order_field o "lte" o.lte (by simp [fields]),
    days_field o "beforeDaysPast" o.beforeDaysPast (by simp [fields]),
    days_field o "afterDaysPast" o.afterDaysPast (by simp [fields]),
    days_field o "beforeDaysFuture" o.beforeDaysFuture (by simp [fields]),
    days_field o "afterDaysFuture" o.afterDaysFuture (by simp [fields])]
  simp [hempty, hnotEmpty]

end RuleClauseObject

theorem RuleClause.safeParse_toJson (clause : RuleClause) :
    RuleClauseSchema.safeParse clause.toJson = some clause := by
  cases clause with
  | text s => rfl
  | object o =>
    show (RuleClauseObjectSchema.safeParse (presentFields o.fields)).map RuleClause.object = _
    rw [o.safeParse_fields]
    rfl

namespace RuleTree

/-- What is kept of a subrule. -/
def base : RuleTree → AlertRule
  | .value clause => .mk (some clause) none none
  | .and _ | .or _ => .mk none none none

/-- What is kept of a rule. -/
def parsed : RuleTree → AlertRule
  | .value clause => .mk (some clause) none none
  | .and rules => .mk none (some (rules.map base)) none
  | .or rules => .mk none none (some (rules.map base))

theorem base_toJson (rule : RuleTree) :
    BaseCreateAssetAlertCriterionRuleSchema.safeParse rule.toJson = some rule.base := by
  cases rule with
  | value clause =>
    have hvalue : optionalField RuleClauseSchema.safeParse [("value", clause.toJson)] "value" =
        some (some clause) :=
      optionalField_eq RuleClause.toJson RuleClause.safeParse_toJson (o := some clause) rfl
    rw [toJson, BaseCreateAssetAlertCriterionRuleSchema.safeParse, hvalue]
    rfl
  | and rules => rfl
  | or rules => rfl

theorem baseRules_toJsons (rules : List RuleTree) :
    baseRules (.array (toJsons rules)) = some (rules.map base) := by
  rw [toJsons_eq]
  show (rules.map toJson).mapM BaseCreateAssetAlertCriterionRuleSchema.safeParse = _
  induction rules with
  | nil => rfl
  | cons rule rules ih =>
    rw [List.map_cons, List.mapM_cons, base_toJson, ih]
    rfl

/-- **One level is kept.** -/
theorem safeParse_toJson (rule : RuleTree) :
    CreateAssetAlertCriterionRuleSchema.safeParse rule.toJson = some rule.parsed := by
  cases rule with
  | value clause =>
    have hvalue : optionalField RuleClauseSchema.safeParse [("value", clause.toJson)] "value" =
        some (some clause) :=
      optionalField_eq RuleClause.toJson RuleClause.safeParse_toJson (o := some clause) rfl
    rw [toJson, CreateAssetAlertCriterionRuleSchema.safeParse, hvalue]
    rfl
  | and rules =>
    have hrules : optionalField baseRules [("AND", .array (toJsons rules))] "AND" =
        some (some (rules.map base)) := by
      rw [← Option.map_some, ← baseRules_toJsons]
      rfl
    rw [toJson, CreateAssetAlertCriterionRuleSchema.safeParse, hrules]
    rfl
  | or rules =>
    have hrules : optionalField baseRules [("OR", .array (toJsons rules))] "OR" =
        some (some (rules.map base)) := by
      rw [← Option.map_some, ← baseRules_toJsons]
      rfl
    rw [toJson, CreateAssetAlertCriterionRuleSchema.safeParse, hrules]
    rfl

/-! ## 3. Testing -/

open AlertUtils

section Tested

variable {rt : AlertRuntime} {value : JsonValue} {valueType : AssetQuestionResponseType}

theorem allHold_iff {rules : List RuleTree} :
    AllHold rt value valueType rules ↔ ∀ rule ∈ rules, Holds rt value valueType rule := by
  induction rules with
  | nil => simp [AllHold]
  | cons rule rules ih => rw [AllHold, ih, List.forall_mem_cons]

theorem someHolds_iff {rules : List RuleTree} :
    SomeHolds rt value valueType rules ↔ ∃ rule ∈ rules, Holds rt value valueType rule := by
  induction rules with
  | nil => simp [SomeHolds]
  | cons rule rules ih => rw [SomeHolds, ih, List.exists_mem_cons_iff]

/-- A rule without a clause says nothing. -/
theorem testAlertRule_none :
    testAlertRule rt value valueType (.mk none none none) = .ok none := by
  rw [testAlertRule.eq_def]
  rfl

theorem testAlertRule_clause {clause : RuleClause} (h : clause ≠ .text "") :
    testAlertRule rt value valueType (.mk (some clause) none none) =
      testAlertRuleClause rt value valueType clause := by
  have htruthy : truthyClause (some clause) = some clause := by
    cases clause with
    | text s =>
      have hs : s ≠ "" := by
        rintro rfl
        exact h rfl
      rw [truthyClause, if_neg hs]
    | object o => rfl
  rw [testAlertRule.eq_def]
  simp only [htruthy]

/-- The empty text is no clause. -/
theorem testAlertRule_empty :
    testAlertRule rt value valueType (.mk (some (.text "")) none none) = .ok none := by
  rw [testAlertRule.eq_def]
  rfl

/-- No text throws. -/
theorem not_throws_text (s : String) :
    ¬ Throws (testAlertRuleClause rt value valueType (.text s)) := by
  rintro ⟨e, he⟩
  cases valueType <;> cases he

theorem givesMessage_base {rule : RuleTree} :
    GivesMessage (testAlertRule rt value valueType rule.base) ↔
      rule.IsClause ∧ rule.Holds rt value valueType := by
  cases rule with
  | value clause =>
    rw [base, IsClause, Holds]
    by_cases h : clause = .text ""
    · rw [h, testAlertRule_empty]
      exact iff_of_false (by simp [GivesMessage]) fun hboth => hboth.1 rfl
    · rw [testAlertRule_clause h]
      exact (and_iff_right h).symm
  | and rules | or rules =>
    rw [base, testAlertRule_none]
    exact iff_of_false (by simp [GivesMessage]) And.left

theorem throws_base {rule : RuleTree} :
    Throws (testAlertRule rt value valueType rule.base) ↔
      rule.ClauseThrows rt value valueType := by
  cases rule with
  | value clause =>
    rw [base, ClauseThrows]
    by_cases h : clause = .text ""
    · rw [h, testAlertRule_empty]
      exact iff_of_false (by simp [Throws]) (not_throws_text "")
    · rw [testAlertRule_clause h]
  | and rules | or rules =>
    rw [base, testAlertRule_none]
    exact iff_of_false (by simp [Throws]) id

/-- **Which rules are evaluated as they are written.** -/
theorem storedRule_iff (rule : RuleTree) :
    (GivesMessage (storedRuleResult rt value valueType rule.toJson) ↔
        rule.Holds rt value valueType) ↔
      rule.AsWritten rt value valueType := by
  rw [storedRuleResult, safeParse_toJson]
  simp only
  cases rule with
  | value clause =>
    show (GivesMessage (testAlertRule rt value valueType (RuleTree.value clause).base) ↔ _) ↔ _
    rw [givesMessage_base, AsWritten, IsClause]
    tauto
  | and rules =>
    rw [parsed, givesMessage_and rfl, AsWritten, Holds, allHold_iff]
    simp only [List.forall_mem_map, givesMessage_base, forall_and, ne_eq, List.map_eq_nil_iff]
    by_cases hnil : rules = []
    · simp [hnil]
    · simp only [hnil, not_false_eq_true, true_and]
      tauto
  | or rules =>
    rw [parsed, givesMessage_some rfl, AsWritten, Holds, someHolds_iff, List.forall_mem_map]
    simp only [List.mem_map, exists_exists_and_eq_and, givesMessage_base, throws_base]
    constructor
    · intro h
      exact h.mpr
    · intro h
      refine ⟨?_, h⟩
      rintro ⟨⟨r, hr, -, hholds⟩, -⟩
      exact ⟨r, hr, hholds⟩

end Tested

end RuleTree

/-! ## 4. A nested rule -/

/-- `{ OR: [{ AND: [{ value: "low" }] }] }`. -/
def lowRule : RuleTree := .or [.and [.value (.text "low")]]

/-- The answer is the one the rule is about, and nobody is told. -/
theorem lowRule_unheard :
    ¬ (AlertUtils.GivesMessage
          (AlertUtils.storedRuleResult mayRuntime (.text "low") .text lowRule.toJson) ↔
        lowRule.Holds mayRuntime (.text "low") .text) := by
  have hsilent : AlertUtils.storedRuleResult mayRuntime (.text "low") .text lowRule.toJson =
      .ok none := rfl
  have hclause : AlertUtils.testAlertRuleClause mayRuntime (.text "low") .text (.text "low") =
      .ok (some ("value is " ++ mayRuntime.lowerText (.text "low"))) := by
    have hsame : mayRuntime.lowerText (StringOrNumber.text "low").toJson =
        mayRuntime.lowerText (.text "low") := rfl
    show Except.ok (explain (decide _) _) = _
    rw [decide_eq_true hsame]
    rfl
  rw [hsilent, AlertUtils.givesMessage_ok]
  intro h
  have hholds : lowRule.Holds mayRuntime (.text "low") .text :=
    .inl ⟨⟨_, by simp, hclause⟩, trivial⟩
  exact absurd (h.mpr hholds) (by decide)

end ShieldApi
