import Mathlib.Data.List.Infix
import ShieldApi.Assets.Metadata
import ShieldApi.Lib.JsPrimitive

/-!
# Alert rules

`common/alert-utils.ts`, and the schemas of `create-asset-question.dto.ts` a stored rule is parsed
by. A rule is a clause, or an `AND` or an `OR` of rules; a clause is a text or an object whose first
operator counts. `testAlertRule` returns the message of a rule that applies to a value, and `false`
of one that does not.

**The type of a rule is recursive, and the schema is not**: the rules in an `AND` or an `OR` are
parsed for their clause, and what else they have is dropped (`baseRules`).

The conversions of the runtime and the calendar of `date-fns` are parameters. A date is the
milliseconds of an instant, and there is the invalid one, which `format` throws at.
-/

set_option autoImplicit false

namespace ShieldApi

/-! ## 1. The runtime -/

/-- A `Date`, `none` being the invalid one. -/
abbrev JsDate : Type := Option Int

structure AlertRuntime where
  /-- `Number(s)`, of a string. -/
  stringToNumber : String → Js.Number
  /-- `String(n)`, of a finite number. -/
  numberToString : Rat → String
  toLowerCase : String → String
  parseISO : String → JsDate
  /-- In the time zone of the server. -/
  startOfDay : Int → Int
  /-- `format(date, 'PP')`, of a valid date. -/
  formatPP : Int → String
  dateToString : JsDate → String
  /-- In full days, the first date minus the second. -/
  differenceInDays : Int → Int → Int
  now : Int

namespace AlertRuntime

variable (rt : AlertRuntime)

mutual

/-- `String(value)`. -/
def toText : JsonValue → String
  | .null => "null"
  | .bool b => if b then "true" else "false"
  | .number n => rt.numberToString n
  | .text s => s
  | .array items => ",".intercalate (toTexts items)
  | .object _ => "[object Object]"

/-- What `join` makes of the items: `null` is empty. -/
def toTexts : List JsonValue → List String
  | [] => []
  | .null :: items => "" :: toTexts items
  | item :: items => toText item :: toTexts items

end

/-- `Number(value)`. -/
def toNumber : JsonValue → Js.Number
  | .null => .finite 0
  | .bool b => .finite (if b then 1 else 0)
  | .number n => .finite n
  | .text s => rt.stringToNumber s
  | .array items => rt.stringToNumber (rt.toText (.array items))
  | .object _ => .nan

/-- A primitive in a template. -/
def template : Js.Primitive → String
  | .text s => s
  | .number .nan => "NaN"
  | .number .negInf => "-Infinity"
  | .number (.finite q) => rt.numberToString q
  | .number .posInf => "Infinity"

def isSameDay : JsDate → JsDate → Bool
  | some a, some b => rt.startOfDay a = rt.startOfDay b
  | _, _ => false

def format : JsDate → Except ApiError String
  | some a => .ok (rt.formatPP a)
  | none => .error (.error "Invalid time value")

/-- `differenceInDays(a, b) > days`. -/
def daysMoreThan (a b : JsDate) (days : Rat) : Bool :=
  match a, b with
  | some a, some b => days < rt.differenceInDays a b
  | _, _ => false

/-- `differenceInDays(a, b) < days`. -/
def daysLessThan (a b : JsDate) (days : Rat) : Bool :=
  match a, b with
  | some a, some b => rt.differenceInDays a b < days
  | _, _ => false

end AlertRuntime

namespace JsDate

def isAfter : JsDate → JsDate → Bool
  | some a, some b => b < a
  | _, _ => false

def isBefore : JsDate → JsDate → Bool
  | some a, some b => a < b
  | _, _ => false

end JsDate

/-! ## 2. Clauses -/

/-- `z.union([z.string(), z.number()])`. -/
inductive StringOrNumber
  | text (s : String)
  | number (n : Rat)
  deriving DecidableEq, Repr

def StringOrNumber.toJson : StringOrNumber → JsonValue
  | .text s => .text s
  | .number n => .number n

def StringOrNumber.ofJson : JsonValue → Option StringOrNumber
  | .text s => some (.text s)
  | .number n => some (.number n)
  | _ => none

/-- `RuleClauseObjectSchema`. -/
structure RuleClauseObject where
  empty : Bool := false
  notEmpty : Bool := false
  equals : Option String := none
  not : Option String := none
  contains : Option String := none
  notContains : Option String := none
  startsWith : Option String := none
  endsWith : Option String := none
  gt : Option StringOrNumber := none
  gte : Option StringOrNumber := none
  lt : Option StringOrNumber := none
  lte : Option StringOrNumber := none
  beforeDaysPast : Option Rat := none
  afterDaysPast : Option Rat := none
  beforeDaysFuture : Option Rat := none
  afterDaysFuture : Option Rat := none
  deriving DecidableEq, Repr

/-- `RuleClauseSchema`. -/
inductive RuleClause
  | text (s : String)
  | object (o : RuleClauseObject)
  deriving DecidableEq, Repr

/-- One operator with its operand. -/
inductive ClauseOperator
  | contains (operand : String)
  | empty
  | endsWith (operand : String)
  | equals (operand : String)
  | gt (operand : StringOrNumber)
  | gte (operand : StringOrNumber)
  | lt (operand : StringOrNumber)
  | lte (operand : StringOrNumber)
  | not (operand : String)
  | notContains (operand : String)
  | notEmpty
  | startsWith (operand : String)
  | beforeDaysPast (days : Rat)
  | afterDaysPast (days : Rat)
  | beforeDaysFuture (days : Rat)
  | afterDaysFuture (days : Rat)
  deriving DecidableEq, Repr

/-- The first of the operators, in the order in which `testAlertRuleClause` asks for them. -/
def RuleClauseObject.operator? (o : RuleClauseObject) : Option ClauseOperator :=
  o.contains.map .contains <|> (if o.empty then some .empty else none) <|>
    o.endsWith.map .endsWith <|> o.equals.map .equals <|> o.gt.map .gt <|> o.gte.map .gte <|>
    o.lt.map .lt <|> o.lte.map .lte <|> o.not.map .not <|> o.notContains.map .notContains <|>
    (if o.notEmpty then some .notEmpty else none) <|> o.startsWith.map .startsWith <|>
    o.beforeDaysPast.map .beforeDaysPast <|> o.afterDaysPast.map .afterDaysPast <|>
    o.beforeDaysFuture.map .beforeDaysFuture <|> o.afterDaysFuture.map .afterDaysFuture

/-- The clause that has this operator alone. -/
def ClauseOperator.clause : ClauseOperator → RuleClauseObject
  | .contains operand => { contains := some operand }
  | .empty => { empty := true }
  | .endsWith operand => { endsWith := some operand }
  | .equals operand => { equals := some operand }
  | .gt operand => { gt := some operand }
  | .gte operand => { gte := some operand }
  | .lt operand => { lt := some operand }
  | .lte operand => { lte := some operand }
  | .not operand => { not := some operand }
  | .notContains operand => { notContains := some operand }
  | .notEmpty => { notEmpty := true }
  | .startsWith operand => { startsWith := some operand }
  | .beforeDaysPast days => { beforeDaysPast := some days }
  | .afterDaysPast days => { afterDaysPast := some days }
  | .beforeDaysFuture days => { beforeDaysFuture := some days }
  | .afterDaysFuture days => { afterDaysFuture := some days }

@[simp] theorem ClauseOperator.operator?_clause (op : ClauseOperator) :
    op.clause.operator? = some op := by
  cases op <;> rfl

/-! ## 3. Testing a clause -/

/-- `string | false`, or what was thrown. -/
abbrev TestResult : Type := Except ApiError (Option String)

/-- The callbacks of `compare`, each the test first and the value second. -/
structure CompareOps where
  string : Option (String → String → Option String) := none
  stringOrNumber : Option (Js.Primitive → Js.Primitive → Option String) := none
  number : Option (Js.Number → Js.Number → Option String) := none
  date : Option (JsDate → JsDate → TestResult) := none

def explain (result : Bool) (message : String) : Option String :=
  if result then some message else none

/-- `String(value).toLowerCase()`. -/
def AlertRuntime.lowerText (rt : AlertRuntime) (value : JsonValue) : String := rt.toLowerCase (rt.toText value)

namespace AlertUtils

section Testing

variable (rt : AlertRuntime)

def compare (value : JsonValue) (valueType : AssetQuestionResponseType) (clause : StringOrNumber)
    (ops : CompareOps) : TestResult :=
  match valueType with
  | .date =>
    match ops.date with
    | some date => date (rt.parseISO (rt.toText clause.toJson)) (rt.parseISO (rt.toText value))
    | none => .ok none
  | .number =>
    let t := rt.toNumber clause.toJson
    let v := rt.toNumber value
    match ops.number, ops.stringOrNumber with
    | some number, _ => .ok (number t v)
    | none, some stringOrNumber => .ok (stringOrNumber (.number t) (.number v))
    | none, none => .ok none
  | _ =>
    let t := rt.lowerText clause.toJson
    let v := rt.lowerText value
    match ops.string, ops.stringOrNumber with
    | some string, _ => .ok (string t v)
    | none, some stringOrNumber => .ok (stringOrNumber (.text t) (.text v))
    | none, none => .ok none

/-- What the callbacks for dates do: the message is put together first, and that may throw. -/
def explainDay (result : Bool) (message : String) (t : JsDate) : TestResult := do
  let day ← rt.format t
  return explain result (message ++ day)

/-- The callbacks of an operator on texts. -/
def textOps (test : String → String → Bool) (message : String) : CompareOps where
  string := some fun t v => explain (test t v) (message ++ t)

/-- The callbacks of an operator that compares, with the one for dates. -/
def orderOps (test : Js.Primitive → Js.Primitive → Bool) (message : String)
    (testDate : JsDate → JsDate → Bool) (dateMessage : String) : CompareOps where
  stringOrNumber := some fun t v => explain (test t v) (message ++ rt.template t)
  date := some fun t v => explainDay rt (testDate t v) dateMessage t

def isEmptyValue (value : JsonValue) : Bool := value.isText "" || value matches .null

def testOperator (value : JsonValue) (valueType : AssetQuestionResponseType) :
    ClauseOperator → TestResult
  | .contains operand => compare rt value valueType (.text operand)
      (textOps (fun t v => t.toList <:+: v.toList) "value contains ")
  | .empty => .ok (explain (isEmptyValue value) "value is empty")
  | .endsWith operand => compare rt value valueType (.text operand)
      (textOps (fun t v => t.toList <:+ v.toList) "value ends with ")
  | .equals operand => compare rt value valueType (.text operand)
      (orderOps rt (fun t v => t.strictEq v) "value is "
        (fun t v => rt.isSameDay t v) "value is on ")
  | .gt operand => compare rt value valueType operand
      (orderOps rt (fun t v => v.lt t) "value is more than "
        (fun t v => v.isAfter t) "value is after ")
  | .gte operand => compare rt value valueType operand
      (orderOps rt (fun t v => v.le t) "value is more than or equal to "
        (fun t v => rt.isSameDay t v || v.isAfter t) "value is on or after ")
  | .lt operand => compare rt value valueType operand
      (orderOps rt (fun t v => t.lt v) "value is less than "
        (fun t v => v.isBefore t) "value is before ")
  | .lte operand => compare rt value valueType operand
      (orderOps rt (fun t v => t.le v) "value is less than or equal to "
        (fun t v => rt.isSameDay t v || v.isBefore t) "value is on or before ")
  | .not operand => compare rt value valueType (.text operand)
      (orderOps rt (fun t v => !t.strictEq v) "value is not "
        (fun t v => !rt.isSameDay t v) "value is not on ")
  | .notContains operand => compare rt value valueType (.text operand)
      (textOps (fun t v => !t.toList <:+: v.toList) "value doees not contain ")
  | .notEmpty => .ok (explain (!isEmptyValue value) "value is not empty")
  | .startsWith operand => compare rt value valueType (.text operand)
      (textOps (fun t v => t.toList <+: v.toList) "value starts with ")
  | .beforeDaysPast days => .ok (explain
      (rt.daysMoreThan (some rt.now) (rt.parseISO (rt.toText value)) days)
      ("value is more than " ++ rt.numberToString days ++ " days in the past"))
  | .afterDaysPast days => .ok (explain
      (rt.daysLessThan (some rt.now) (rt.parseISO (rt.toText value)) days)
      ("value is less than " ++ rt.numberToString days ++ " days in the past"))
  | .beforeDaysFuture days => .ok (explain
      (rt.daysLessThan (rt.parseISO (rt.toText value)) (some rt.now) days)
      ("value is less than " ++ rt.numberToString days ++ " days in the future"))
  | .afterDaysFuture days => .ok (explain
      (rt.daysMoreThan (rt.parseISO (rt.toText value)) (some rt.now) days)
      ("value is more than " ++ rt.numberToString days ++ " days in the future"))

def testAlertRuleClause (value : JsonValue) (valueType : AssetQuestionResponseType) :
    RuleClause → TestResult
  | .text s => compare rt value valueType (.text s)
      { stringOrNumber := some fun t v => explain (t.strictEq v) ("value is " ++ rt.template t)
        date := some fun t v => .ok (explain (rt.isSameDay t v) ("value is " ++ rt.dateToString t)) }
  | .object o =>
    match o.operator? with
    | some op => testOperator rt value valueType op
    | none => .ok none

end Testing

end AlertUtils

/-! ## 4. Rules -/

/-- `CreateAssetAlertCriterionRule`. -/
inductive AlertRule
  | mk (value : Option RuleClause) (AND OR : Option (List AlertRule))

namespace AlertUtils

/-- A clause JavaScript takes for true. -/
def truthyClause : Option RuleClause → Option RuleClause
  | some (.text s) => if s = "" then none else some (.text s)
  | clause => clause

/-- `results.every(Boolean) ? results.join(', ') : false`. -/
def everyMessage (results : List (Option String)) : Option String :=
  if results.all fun r => (truthy r).isSome then some (", ".intercalate (results.filterMap id))
  else none

/-- `results.find(Boolean) ?? false`. -/
def firstMessage (results : List (Option String)) : Option String :=
  (results.find? fun r => (truthy r).isSome).getD none

section Rules

variable (rt : AlertRuntime) (value : JsonValue) (valueType : AssetQuestionResponseType)

mutual

def testAlertRule : AlertRule → TestResult
  | .mk clause AND OR =>
    match truthyClause clause, AND, OR with
    | some clause, _, _ => testAlertRuleClause rt value valueType clause
    | none, some rules, _ => (testAlertRules rules).map everyMessage
    | none, none, some rules => (testAlertRules rules).map firstMessage
    | none, none, none => .ok none

/-- The `map` over the subrules. -/
def testAlertRules : List AlertRule → Except ApiError (List (Option String))
  | [] => .ok []
  | rule :: rules => do
    let result ← testAlertRule rule
    let results ← testAlertRules rules
    return result :: results

end

end Rules

end AlertUtils

/-! ## 5. The schemas -/

/-- `schema.optional()`, of a field of an object. -/
def optionalField {α : Type} (schema : JsonValue → Option α) (fields : JsonFields)
    (name : String) : Option (Option α) :=
  match Entries.get? fields name with
  | none => some none
  | some v => (schema v).map some

/-- `z.literal(true)`. -/
def literalTrue : JsonValue → Option Unit
  | .bool true => some ()
  | _ => none

/-- `z.number()`. -/
def JsonValue.number? : JsonValue → Option Rat
  | .number n => some n
  | _ => none

def RuleClauseObjectSchema.safeParse (fields : JsonFields) : Option RuleClauseObject := do
  let empty ← optionalField literalTrue fields "empty"
  let notEmpty ← optionalField literalTrue fields "notEmpty"
  let equals ← optionalField JsonValue.text? fields "equals"
  let not ← optionalField JsonValue.text? fields "not"
  let contains ← optionalField JsonValue.text? fields "contains"
  let notContains ← optionalField JsonValue.text? fields "notContains"
  let startsWith ← optionalField JsonValue.text? fields "startsWith"
  let endsWith ← optionalField JsonValue.text? fields "endsWith"
  let gt ← optionalField StringOrNumber.ofJson fields "gt"
  let gte ← optionalField StringOrNumber.ofJson fields "gte"
  let lt ← optionalField StringOrNumber.ofJson fields "lt"
  let lte ← optionalField StringOrNumber.ofJson fields "lte"
  let beforeDaysPast ← optionalField JsonValue.number? fields "beforeDaysPast"
  let afterDaysPast ← optionalField JsonValue.number? fields "afterDaysPast"
  let beforeDaysFuture ← optionalField JsonValue.number? fields "beforeDaysFuture"
  let afterDaysFuture ← optionalField JsonValue.number? fields "afterDaysFuture"
  return { empty := empty.isSome, notEmpty := notEmpty.isSome, equals, not, contains, notContains,
           startsWith, endsWith, gt, gte, lt, lte, beforeDaysPast, afterDaysPast,
           beforeDaysFuture, afterDaysFuture }

def RuleClauseSchema.safeParse : JsonValue → Option RuleClause
  | .text s => some (.text s)
  | .object fields => (RuleClauseObjectSchema.safeParse fields).map .object
  | _ => none

/-- `BaseCreateAssetAlertCriterionRuleSchema`: a clause, and nothing else is kept. -/
def BaseCreateAssetAlertCriterionRuleSchema.safeParse : JsonValue → Option AlertRule
  | .object fields =>
    (optionalField RuleClauseSchema.safeParse fields "value").map fun value => .mk value none none
  | _ => none

/-- `z.array(BaseCreateAssetAlertCriterionRuleSchema)`. -/
def baseRules : JsonValue → Option (List AlertRule)
  | .array items => items.mapM BaseCreateAssetAlertCriterionRuleSchema.safeParse
  | _ => none

def CreateAssetAlertCriterionRuleSchema.safeParse : JsonValue → Option AlertRule
  | .object fields => do
    let value ← optionalField RuleClauseSchema.safeParse fields "value"
    let AND ← optionalField baseRules fields "AND"
    let OR ← optionalField baseRules fields "OR"
    return .mk value AND OR
  | _ => none

namespace AlertUtils

/-- What `handleAlertTriggers` makes of a stored rule and a value. -/
def storedRuleResult (rt : AlertRuntime) (value : JsonValue)
    (valueType : AssetQuestionResponseType) (rule : JsonValue) : TestResult :=
  match CreateAssetAlertCriterionRuleSchema.safeParse rule with
  | none => .ok none
  | some rule => testAlertRule rt value valueType rule

/-! ## 6. What a test returns -/

/-- A message that is not empty. -/
def GivesMessage (r : TestResult) : Prop := ∃ m, m ≠ "" ∧ r = .ok (some m)

def Throws (r : TestResult) : Prop := ∃ e, r = .error e

theorem givesMessage_ok {o : Option String} :
    GivesMessage (.ok o) ↔ (truthy o).isSome = true := by
  unfold GivesMessage
  cases o with
  | none => simp [truthy]
  | some m =>
    by_cases hm : m = ""
    · simp [truthy, hm]
    · simp [truthy, hm]

theorem not_givesMessage_error {e : ApiError} : ¬ GivesMessage (.error e) := by
  rintro ⟨m, -, h⟩
  cases h

/-! ### Clauses: a message is never empty -/

/-- Whatever it says is not empty. -/
def Worded (r : TestResult) : Prop := r ≠ .ok (some "")

theorem worded_none : Worded (.ok none) := by
  simp [Worded]

theorem worded_explain (result : Bool) {message : String} (h : message ≠ "") :
    Worded (.ok (explain result message)) := by
  cases result with
  | true => simpa [Worded, explain] using h
  | false => simp [Worded, explain]

variable {rt : AlertRuntime} {value : JsonValue} {valueType : AssetQuestionResponseType}

/-- The operators on texts are silent about numbers and dates. -/
theorem compare_textOps (clause : StringOrNumber) (test : String → String → Bool)
    (message : String) :
    compare rt value valueType clause (textOps test message) =
      if valueType = .number ∨ valueType = .date then .ok none
      else .ok (explain (test (rt.lowerText clause.toJson) (rt.lowerText value))
        (message ++ rt.lowerText clause.toJson)) := by
  cases valueType <;> rfl

/-- What a value or an operand is compared as, where it is no date. -/
def primitive (rt : AlertRuntime) (valueType : AssetQuestionResponseType) (v : JsonValue) :
    Js.Primitive :=
  if valueType = .number then .number (rt.toNumber v) else .text (rt.lowerText v)

theorem compare_orderOps (h : valueType ≠ .date) (clause : StringOrNumber)
    (test : Js.Primitive → Js.Primitive → Bool) (message : String)
    (testDate : JsDate → JsDate → Bool) (dateMessage : String) :
    compare rt value valueType clause (orderOps rt test message testDate dateMessage) =
      .ok (explain
        (test (primitive rt valueType clause.toJson) (primitive rt valueType value))
        (message ++ rt.template (primitive rt valueType clause.toJson))) := by
  cases valueType <;> first | rfl | exact absurd rfl h

theorem compare_orderOps_date (clause : StringOrNumber)
    (test : Js.Primitive → Js.Primitive → Bool) (message : String)
    (testDate : JsDate → JsDate → Bool) (dateMessage : String) :
    compare rt value .date clause (orderOps rt test message testDate dateMessage) =
      explainDay rt
        (testDate (rt.parseISO (rt.toText clause.toJson)) (rt.parseISO (rt.toText value)))
        dateMessage (rt.parseISO (rt.toText clause.toJson)) := rfl

theorem worded_explainDay (result : Bool) {message : String} (h : message ≠ "") (t : JsDate) :
    Worded (explainDay rt result message t) := by
  cases t with
  | none => simp [Worded, explainDay, AlertRuntime.format, bind, Except.bind]
  | some t =>
    apply worded_explain
    simp [h]

theorem worded_textOps (clause : StringOrNumber) (test : String → String → Bool)
    {message : String} (h : message ≠ "") :
    Worded (compare rt value valueType clause (textOps test message)) := by
  rw [compare_textOps]
  split
  · exact worded_none
  · exact worded_explain _ (by simp [h])

theorem worded_orderOps (clause : StringOrNumber) (test : Js.Primitive → Js.Primitive → Bool)
    {message : String} (testDate : JsDate → JsDate → Bool) {dateMessage : String}
    (h : message ≠ "") (hdate : dateMessage ≠ "") :
    Worded (compare rt value valueType clause
      (orderOps rt test message testDate dateMessage)) := by
  by_cases hd : valueType = .date
  · subst hd
    exact worded_explainDay _ hdate _
  · rw [compare_orderOps hd]
    exact worded_explain _ (by simp [h])

theorem worded_testOperator (op : ClauseOperator) :
    Worded (testOperator rt value valueType op) := by
  cases op
  case contains | endsWith | notContains | startsWith =>
    rw [testOperator]
    apply worded_textOps
    simp
  case equals | gt | gte | lt | lte | not =>
    rw [testOperator]
    apply worded_orderOps
    · simp
    · simp
  all_goals
    apply worded_explain
    simp

theorem worded_testAlertRuleClause (clause : RuleClause) :
    Worded (testAlertRuleClause rt value valueType clause) := by
  cases clause with
  | text s =>
    cases valueType <;> exact worded_explain _ (by simp)
  | object o =>
    rw [testAlertRuleClause]
    cases o.operator? with
    | none => exact worded_none
    | some op => exact worded_testOperator op

/-! ### Rules -/

variable {rules : List AlertRule} {results : List (Option String)}

theorem testAlertRules_eq_ok : testAlertRules rt value valueType rules = .ok results ↔
    List.Forall₂ (fun rule result => testAlertRule rt value valueType rule = .ok result)
      rules results := by
  induction rules generalizing results with
  | nil =>
    rw [testAlertRules, Except.ok.injEq, List.forall₂_nil_left_iff]
    exact eq_comm
  | cons rule rules ih =>
    rw [testAlertRules, List.forall₂_cons_left_iff]
    cases hrule : testAlertRule rt value valueType rule with
    | error e => simp [bind, Except.bind]
    | ok result =>
      simp only [bind, Except.bind, Except.ok.injEq, pure, Except.pure]
      cases hrules : testAlertRules rt value valueType rules with
      | error e =>
        simp only [reduceCtorEq, false_iff]
        rintro ⟨b, rest, rfl, hrest, -⟩
        rw [hrules] at ih
        exact absurd (ih.mpr hrest) (by simp)
      | ok rest =>
        rw [hrules] at ih
        simp only [Except.ok.injEq] at ih ⊢
        constructor
        · rintro rfl
          exact ⟨result, rest, rfl, ih.mp rfl, rfl⟩
        · rintro ⟨b, rest', rfl, hrest, rfl⟩
          rw [ih.mpr hrest]

/-- All subrules are tested, so one that throws is always noticed. -/
theorem exists_testAlertRules : (∃ results, testAlertRules rt value valueType rules = .ok results) ↔
    ∀ rule ∈ rules, ¬ Throws (testAlertRule rt value valueType rule) := by
  induction rules with
  | nil => simp [testAlertRules]
  | cons rule rules ih =>
    rw [List.forall_mem_cons, ← ih]
    simp only [testAlertRules_eq_ok, List.forall₂_cons_left_iff]
    constructor
    · rintro ⟨_, result, results, hresult, hresults, rfl⟩
      refine ⟨?_, results, hresults⟩
      rintro ⟨e, he⟩
      rw [hresult] at he
      cases he
    · rintro ⟨hrule, results, hresults⟩
      cases hresult : testAlertRule rt value valueType rule with
      | error e => exact absurd ⟨e, hresult⟩ hrule
      | ok result => exact ⟨_, result, results, rfl, hresults, rfl⟩

theorem intercalate_ne_empty {o : Option String} {results : List (Option String)}
    (h : (truthy o).isSome = true) (sep : String) :
    sep.intercalate ((o :: results).filterMap id) ≠ "" := by
  obtain ⟨m, hm⟩ := Option.isSome_iff_exists.mp h
  obtain ⟨rfl, hne⟩ := truthy_eq_some.mp hm
  rw [List.filterMap_cons_some (show id (some m) = some m from rfl)]
  cases results.filterMap id with
  | nil => simpa using hne
  | cons m' ms => simp [String.intercalate_cons_cons, hne]

theorem givesMessage_everyMessage : GivesMessage (.ok (everyMessage results)) ↔
    results ≠ [] ∧ ∀ r ∈ results, (truthy r).isSome = true := by
  unfold everyMessage
  rw [← List.all_eq_true]
  cases results with
  | nil => simp [givesMessage_ok, truthy]
  | cons r results =>
    cases hall : (r :: results).all fun r => (truthy r).isSome with
    | true =>
      have hfirst := hall
      rw [List.all_cons, Bool.and_eq_true] at hfirst
      rw [if_pos rfl]
      exact iff_of_true ⟨_, intercalate_ne_empty hfirst.1 _, rfl⟩ ⟨List.cons_ne_nil _ _, rfl⟩
    | false => simp [givesMessage_ok, truthy]

theorem givesMessage_firstMessage : GivesMessage (.ok (firstMessage results)) ↔
    ∃ r ∈ results, (truthy r).isSome = true := by
  rw [givesMessage_ok]
  unfold firstMessage
  cases hfind : results.find? fun r => (truthy r).isSome with
  | none =>
    rw [List.find?_eq_none] at hfind
    refine iff_of_false (by simp [truthy]) ?_
    rintro ⟨r, hr, hmessage⟩
    exact hfind r hr hmessage
  | some r =>
    have hmessage : (truthy r).isSome = true :=
      List.find?_some (p := fun r => (truthy r).isSome) hfind
    exact iff_of_true hmessage ⟨r, List.mem_of_find?_eq_some hfind, hmessage⟩

section Results

variable (h : testAlertRules rt value valueType rules = .ok results)

include h

theorem forall_results : (∀ r ∈ results, (truthy r).isSome = true) ↔
    ∀ rule ∈ rules, GivesMessage (testAlertRule rt value valueType rule) := by
  rw [testAlertRules_eq_ok] at h
  induction h with
  | nil => simp
  | cons hrule _ ih =>
    rw [List.forall_mem_cons, List.forall_mem_cons, hrule, givesMessage_ok]
    exact and_congr_right fun _ => ih

theorem exists_results : (∃ r ∈ results, (truthy r).isSome = true) ↔
    ∃ rule ∈ rules, GivesMessage (testAlertRule rt value valueType rule) := by
  rw [testAlertRules_eq_ok] at h
  induction h with
  | nil => simp
  | cons hrule _ ih =>
    rw [List.exists_mem_cons_iff, List.exists_mem_cons_iff, hrule, givesMessage_ok]
    exact or_congr_right ih

theorem results_eq_nil : results = [] ↔ rules = [] := by
  rw [testAlertRules_eq_ok] at h
  cases h <;> simp

end Results

section Nodes

variable {clause : Option RuleClause} (hclause : truthyClause clause = none)
  {OR : Option (List AlertRule)}

include hclause

theorem testAlertRule_and :
    testAlertRule rt value valueType (.mk clause (some rules) OR) =
      (testAlertRules rt value valueType rules).map everyMessage := by
  rw [testAlertRule.eq_def]
  simp only [hclause]

theorem testAlertRule_or :
    testAlertRule rt value valueType (.mk clause none (some rules)) =
      (testAlertRules rt value valueType rules).map firstMessage := by
  rw [testAlertRule.eq_def]
  simp only [hclause]

/-- **An `AND` says something if it has subrules and all of them do.** -/
theorem givesMessage_and :
    GivesMessage (testAlertRule rt value valueType (.mk clause (some rules) OR)) ↔
      rules ≠ [] ∧ ∀ rule ∈ rules, GivesMessage (testAlertRule rt value valueType rule) := by
  rw [testAlertRule_and hclause]
  cases hresults : testAlertRules rt value valueType rules with
  | error e =>
    refine iff_of_false not_givesMessage_error ?_
    rintro ⟨-, hall⟩
    -- one of the subrules threw
    have hthrows : ¬ ∃ results, testAlertRules rt value valueType rules = .ok results := by
      simp [hresults]
    simp only [exists_testAlertRules, not_forall, not_not] at hthrows
    obtain ⟨rule, hrule, e', he⟩ := hthrows
    have hgives := hall rule hrule
    rw [he] at hgives
    exact not_givesMessage_error hgives
  | ok results =>
    rw [← forall_results hresults, ne_eq, ← results_eq_nil hresults]
    exact givesMessage_everyMessage

/-- **An `OR` says something if a subrule does and none throws.** -/
theorem givesMessage_some :
    GivesMessage (testAlertRule rt value valueType (.mk clause none (some rules))) ↔
      (∃ rule ∈ rules, GivesMessage (testAlertRule rt value valueType rule)) ∧
        ∀ rule ∈ rules, ¬ Throws (testAlertRule rt value valueType rule) := by
  rw [testAlertRule_or hclause, ← exists_testAlertRules]
  cases hresults : testAlertRules rt value valueType rules with
  | error e => exact iff_of_false not_givesMessage_error (by simp)
  | ok results =>
    rw [← exists_results hresults]
    exact givesMessage_firstMessage.trans (and_iff_left ⟨_, rfl⟩).symm

end Nodes

end AlertUtils

/-! ## 7. A runtime -/

/-- Numbers written without a fraction, and two times of the first of May 2024, in UTC. -/
def mayRuntime : AlertRuntime where
  stringToNumber s := (s.toInt?.map fun n => .finite n).getD .nan
  numberToString q := toString q
  toLowerCase s := s.toLower
  parseISO s :=
    if s = "2024-05-01T08:00:00Z" then some 1714550400000
    else if s = "2024-05-01T17:00:00Z" then some 1714582800000
    else none
  startOfDay ms := ms - ms % 86400000
  formatPP _ := "May 1, 2024"
  dateToString d := if d.isSome then "Wed May 01 2024" else "Invalid Date"
  differenceInDays a b := (a - b).tdiv 86400000
  now := 1714582800000

end ShieldApi
