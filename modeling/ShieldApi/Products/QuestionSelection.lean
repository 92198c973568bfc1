import ShieldApi.Assets.Configuration
import ShieldApi.Lib.Joins

/-!
# Which questions an asset is asked

`findQuestionIdsByAsset` of `products/asset-questions/asset-questions.service.ts`: one SQL query
that joins the questions with their conditions, keeps the rows whose condition the asset meets, and
groups by question. A question is asked where as many rows are left as it has conditions.

**That is where it has conditions and the asset meets them all**
(`findQuestionIdsByAsset_exact`): a condition met in two ways is one row all the same, and neither
the customization nor the client beside it makes two of it.
-/

set_option autoImplicit false

namespace ShieldApi

/-! ## 1. Tables, as the caller sees them -/

inductive AssetQuestionConditionType
  | region | manufacturer | productCategory | product | metadata
  deriving DecidableEq, Repr

/-- An `AssetQuestion`, as far as it is selected. -/
structure SelectableQuestion where
  id : String
  active : Bool := true
  type : AssetQuestionType
  parentQuestionId : Option String := none
  clientId : Option String := none
  deriving DecidableEq, Repr

/-- The value is a list of texts, by the schema of its creation. -/
structure AssetQuestionCondition where
  id : String
  assetQuestionId : String
  conditionType : AssetQuestionConditionType
  value : List String
  deriving DecidableEq, Repr

/-- `assetQuestionId` is unique. -/
structure ClientAssetQuestionCustomization where
  assetQuestionId : String
  enabled : Bool := true
  deriving DecidableEq, Repr

structure QuestionTables where
  questions : Table SelectableQuestion String SelectableQuestion.id := ∅
  conditions : Table AssetQuestionCondition String AssetQuestionCondition.id := ∅
  clients : Table Client String Client.id := ∅
  customizations : Table ClientAssetQuestionCustomization String
    ClientAssetQuestionCustomization.assetQuestionId := ∅

/-! ## 2. Assets, as far as they are known -/

structure QuestionedProduct where
  id : String
  manufacturerId : String
  productCategoryId : String
  metadata : Option JsonValue := none

/-- A site, by the state of its address. -/
structure QuestionedSite where
  state : Option String := none

/-- What may be known of an asset. -/
structure QuestionedAsset where
  product : Option QuestionedProduct := none
  site : Option QuestionedSite := none
  metadata : Option JsonValue := none

/-- What JavaScript makes of texts. -/
structure JsText where
  /-- `String.prototype.toUpperCase`. -/
  toUpperCase : String → String := id
  /-- What a template makes of a value that is no text. -/
  template : JsonValue → String := fun _ => ""

namespace JsText

/-- What a template makes of a value. -/
def display (js : JsText) : JsonValue → String
  | .text s => s
  | v => js.template v

end JsText

def stateAbbreviations : List (String × String) :=
  [("Alabama", "AL"), ("Alaska", "AK"), ("Arizona", "AZ"), ("Arkansas", "AR"),
   ("California", "CA"), ("Colorado", "CO"), ("Connecticut", "CT"), ("Delaware", "DE"),
   ("Florida", "FL"), ("Georgia", "GA"), ("Hawaii", "HI"), ("Idaho", "ID"), ("Illinois", "IL"),
   ("Indiana", "IN"), ("Iowa", "IA"), ("Kansas", "KS"), ("Kentucky", "KY"), ("Louisiana", "LA"),
   ("Maine", "ME"), ("Maryland", "MD"), ("Massachusetts", "MA"), ("Michigan", "MI"),
   ("Minnesota", "MN"), ("Mississippi", "MS"), ("Missouri", "MO"), ("Montana", "MT"),
   ("Nebraska", "NE"), ("Nevada", "NV"), ("New Hampshire", "NH"), ("New Jersey", "NJ"),
   ("New Mexico", "NM"), ("New York", "NY"), ("North Carolina", "NC"), ("North Dakota", "ND"),
   ("Ohio", "OH"), ("Oklahoma", "OK"), ("Oregon", "OR"), ("Pennsylvania", "PA"),
   ("Rhode Island", "RI"), ("South Carolina", "SC"), ("South Dakota", "SD"), ("Tennessee", "TN"),
   ("Texas", "TX"), ("Utah", "UT"), ("Vermont", "VT"), ("Virginia", "VA"), ("Washington", "WA"),
   ("West Virginia", "WV"), ("Wisconsin", "WI"), ("Wyoming", "WY")]

/-- The names every object inherits are no states. -/
def normalizeState (js : JsText) (state : String) : String :=
  (stateAbbreviations.lookup state).getD (js.toUpperCase state)

/-! ## 3. The query -/

namespace AssetQuestionsService

/-- `Object.entries`. -/
def objectEntries (fields : JsonFields) : List (String × JsonValue) :=
  (Entries.keys fields).dedup.filterMap fun k => (Entries.get? fields k).map fun v => (k, v)

/-- A pair as conditions spell it. -/
def keyPair (js : JsText) (k : String) (v : JsonValue) : String := k ++ ":" ++ js.display v

def uniqueKeyPairs (js : JsText) (asset : QuestionedAsset) : List String :=
  let assetMetadata := getValidatedMetadata (asset.metadata.getD .null)
  let productMetadata := getValidatedMetadata ((asset.product.bind (·.metadata)).getD .null)
  ((objectEntries (assetMetadata.getD []) ++ objectEntries (productMetadata.getD [])).map
    fun e => keyPair js e.1 e.2).dedup

/-- A clause about a joined condition. -/
inductive OrWhereClause
  /-- `condition."value" @> to_jsonb(value)`. -/
  | contains (conditionType : AssetQuestionConditionType) (value : String)
  /-- The two arrays of texts overlap. -/
  | overlaps (conditionType : AssetQuestionConditionType) (values : List String)
  deriving DecidableEq, Repr

def OrWhereClause.holds (condition : AssetQuestionCondition) : OrWhereClause → Bool
  | .contains conditionType value =>
    condition.conditionType = conditionType && condition.value.contains value
  | .overlaps conditionType values =>
    condition.conditionType = conditionType && condition.value.any fun v => values.contains v

def productClauses (asset : QuestionedAsset) : List OrWhereClause :=
  match asset.product with
  | some product =>
    [.contains .productCategory product.productCategoryId,
     .contains .manufacturer product.manufacturerId,
     .contains .product product.id]
  | none => []

def regionClauses (js : JsText) (asset : QuestionedAsset) : List OrWhereClause :=
  match truthy (asset.site.bind (·.state)) with
  | some state => [.contains .region (normalizeState js state)]
  | none => []

def metadataClauses (js : JsText) (asset : QuestionedAsset) : List OrWhereClause :=
  if uniqueKeyPairs js asset = [] then [] else [.overlaps .metadata (uniqueKeyPairs js asset)]

def orWhereClauses (js : JsText) (asset : QuestionedAsset) : List OrWhereClause :=
  productClauses asset ++ regionClauses js asset ++ metadataClauses js asset

structure JoinedQuestion where
  question : SelectableQuestion
  condition : Option AssetQuestionCondition
  client : Option Client
  customization : Option ClientAssetQuestionCustomization

/-- The rows the joins make of a question. -/
def joined (isClientUserRequest : Bool) (t : QuestionTables) (q : SelectableQuestion) :
    List JoinedQuestion :=
  (leftJoin (·.assetQuestionId = q.id) t.conditions.rows).flatMap fun condition =>
    (leftJoin (fun client => q.clientId = some client.id) t.clients.rows).flatMap fun client =>
      (if isClientUserRequest then leftJoin (·.assetQuestionId = q.id) t.customizations.rows
        else [none]).map fun customization => { question := q, condition, client, customization }

/-- The types a requested type stands for; `none` is all. -/
def matchingTypes : Option AssetQuestionType → Option (List AssetQuestionType)
  | none | some .setupAndInspection => none
  | some .setup => some [.setup, .setupAndInspection]
  | some .inspection => some [.inspection, .setupAndInspection]
  | some type => some [type]

/-- The clauses that must always be true. -/
def andWhereClauses (type : Option AssetQuestionType) (row : JoinedQuestion) : Bool :=
  row.question.active && row.question.parentQuestionId = none &&
    row.customization.all (·.enabled) && (matchingTypes type).all (·.contains row.question.type)

def findQuestionIdsByAsset (js : JsText) (accessIntent : AccessIntent) (t : QuestionTables)
    (asset : QuestionedAsset) (type : Option AssetQuestionType) : List String :=
  let isClientUserRequest := accessIntent ≠ .system
  let clauses := orWhereClauses js asset
  if clauses = [] then []
  else
    groupsHaving (·.question.id)
      (fun id rows => rows.length = t.conditions.rows.countP (·.assetQuestionId = id))
      ((t.questions.rows.flatMap (joined isClientUserRequest t)).filter fun row =>
        andWhereClauses type row && row.condition.any fun c => clauses.any (·.holds c))

/-! ## 4. What it asks for -/

/-- The asset or its product has the value at the key. -/
def HasMetadata (asset : QuestionedAsset) (k : String) (v : JsonValue) : Prop :=
  ∃ fields, (asset.metadata = some (.object fields) ∨
    ∃ product, asset.product = some product ∧ product.metadata = some (.object fields)) ∧
    Entries.get? fields k = some v

/-- What is known of the asset, by the types of conditions. -/
def HasValue (js : JsText) (asset : QuestionedAsset) :
    AssetQuestionConditionType → String → Prop
  | .productCategory, value =>
    ∃ product, asset.product = some product ∧ product.productCategoryId = value
  | .manufacturer, value =>
    ∃ product, asset.product = some product ∧ product.manufacturerId = value
  | .product, value => ∃ product, asset.product = some product ∧ product.id = value
  | .region, value => ∃ site state, asset.site = some site ∧ site.state = some state ∧
      state ≠ "" ∧ normalizeState js state = value
  | .metadata, value => ∃ k v, HasMetadata asset k v ∧ keyPair js k v = value

/-- The asset meets the condition. -/
def Met (js : JsText) (asset : QuestionedAsset) (c : AssetQuestionCondition) : Prop :=
  ∃ value ∈ c.value, HasValue js asset c.conditionType value

structure Selected (js : JsText) (accessIntent : AccessIntent) (t : QuestionTables)
    (asset : QuestionedAsset) (type : Option AssetQuestionType) (q : SelectableQuestion) :
    Prop where
  active : q.active = true
  parentless : q.parentQuestionId = none
  matchesType : ∀ types, matchingTypes type = some types → q.type ∈ types
  notDisabled : accessIntent ≠ .system → ∀ custom ∈ t.customizations,
    custom.assetQuestionId = q.id → custom.enabled = true
  conditioned : ∃ c ∈ t.conditions, c.assetQuestionId = q.id
  met : ∀ c ∈ t.conditions, c.assetQuestionId = q.id → Met js asset c

/-! ## 5. One condition -/

section Clauses

variable {js : JsText} {asset : QuestionedAsset} {c : AssetQuestionCondition}

theorem mem_objectEntries {fields : JsonFields} {k : String} {v : JsonValue} :
    (k, v) ∈ objectEntries fields ↔ Entries.get? fields k = some v := by
  unfold objectEntries
  rw [List.mem_filterMap]
  constructor
  · intro h
    obtain ⟨k', -, h⟩ := h
    obtain ⟨v', hv, h⟩ := Option.map_eq_some_iff.mp h
    obtain ⟨rfl, rfl⟩ := Prod.mk.inj h
    exact hv
  · intro h
    have hkey : k ∈ Entries.keys fields := by
      rw [← Entries.isSome_get?, h]
      rfl
    exact ⟨k, List.mem_dedup.mpr hkey, by rw [h]; rfl⟩

theorem getValidatedMetadata_eq_some {v : JsonValue} {fields : JsonFields} :
    getValidatedMetadata v = some fields ↔ v = .object fields := by
  cases v <;> simp [getValidatedMetadata]

/-- What is no object has no entries. -/
theorem mem_entries_of_metadata {metadata : Option JsonValue} {k : String} {v : JsonValue} :
    (k, v) ∈ objectEntries ((getValidatedMetadata (metadata.getD .null)).getD []) ↔
      ∃ fields, metadata = some (.object fields) ∧ Entries.get? fields k = some v := by
  rw [mem_objectEntries]
  constructor
  · intro h
    cases hfields : getValidatedMetadata (metadata.getD .null) with
    | none =>
      rw [hfields] at h
      exact (nomatch h)
    | some fields =>
      rw [hfields] at h
      cases metadata with
      | none => exact (nomatch hfields)
      | some value =>
        obtain rfl : value = .object fields := getValidatedMetadata_eq_some.1 hfields
        exact ⟨fields, rfl, h⟩
  · intro h
    obtain ⟨fields, rfl, hv⟩ := h
    exact hv

theorem mem_uniqueKeyPairs {value : String} :
    value ∈ uniqueKeyPairs js asset ↔ HasValue js asset .metadata value := by
  unfold uniqueKeyPairs HasValue HasMetadata
  dsimp only
  rw [List.mem_dedup, List.mem_map]
  constructor
  · intro h
    obtain ⟨⟨k, v⟩, he, rfl⟩ := h
    refine ⟨k, v, ?_, rfl⟩
    rcases List.mem_append.mp he with he | he
    · obtain ⟨fields, hfields, hv⟩ := mem_entries_of_metadata.1 he
      exact ⟨fields, .inl hfields, hv⟩
    · obtain ⟨fields, hfields, hv⟩ := mem_entries_of_metadata.1 he
      exact ⟨fields, .inr (Option.bind_eq_some_iff.mp hfields), hv⟩
  · intro h
    obtain ⟨k, v, ⟨fields, hfields, hv⟩, rfl⟩ := h
    refine ⟨(k, v), List.mem_append.mpr ?_, rfl⟩
    rcases hfields with hfields | hfields
    · exact .inl (mem_entries_of_metadata.2 ⟨fields, hfields, hv⟩)
    · exact .inr (mem_entries_of_metadata.2 ⟨fields, Option.bind_eq_some_iff.mpr hfields, hv⟩)

theorem productClauses_any : (productClauses asset).any (·.holds c) = true ↔
    ∃ product, asset.product = some product ∧
      (c.conditionType = .productCategory ∧ product.productCategoryId ∈ c.value ∨
        c.conditionType = .manufacturer ∧ product.manufacturerId ∈ c.value ∨
        c.conditionType = .product ∧ product.id ∈ c.value) := by
  unfold productClauses
  cases asset.product with
  | none => simp
  | some product => simp [OrWhereClause.holds]

theorem regionClauses_any : (regionClauses js asset).any (·.holds c) = true ↔
    c.conditionType = .region ∧ ∃ site state, asset.site = some site ∧ site.state = some state ∧
      state ≠ "" ∧ normalizeState js state ∈ c.value := by
  have hstate : ∀ state, truthy (asset.site.bind (·.state)) = some state ↔
      ∃ site, asset.site = some site ∧ site.state = some state ∧ state ≠ "" := by
    intro state
    rw [truthy_eq_some, Option.bind_eq_some_iff]
    simp only [← exists_and_right, and_assoc]
  unfold regionClauses
  cases hknown : truthy (asset.site.bind (·.state)) with
  | none =>
    refine iff_of_false (by simp) fun h => ?_
    obtain ⟨-, site, state, hsite, hof, hne, -⟩ := h
    have hsome := (hstate state).mpr ⟨site, hsite, hof, hne⟩
    rw [hknown] at hsome
    exact (nomatch hsome)
  | some state =>
    obtain ⟨site, hsite, hof, hne⟩ := (hstate state).mp hknown
    rw [List.any_cons, List.any_nil, Bool.or_false, OrWhereClause.holds, Bool.and_eq_true,
      decide_eq_true_eq, List.contains_iff_mem]
    refine and_congr_right fun _ => ⟨fun h => ⟨site, state, hsite, hof, hne, h⟩, fun h => ?_⟩
    obtain ⟨site', state', hsite', hof', -, h⟩ := h
    obtain rfl := Option.some.inj (hsite.symm.trans hsite')
    obtain rfl := Option.some.inj (hof.symm.trans hof')
    exact h

theorem metadataClauses_any : (metadataClauses js asset).any (·.holds c) = true ↔
    c.conditionType = .metadata ∧ ∃ value ∈ c.value, value ∈ uniqueKeyPairs js asset := by
  unfold metadataClauses
  by_cases hnil : uniqueKeyPairs js asset = []
  · simp [hnil]
  · simp [hnil, OrWhereClause.holds]

/-- **Some clause holds of a condition exactly if the asset meets it.** -/
theorem clauses_any_iff : (orWhereClauses js asset).any (·.holds c) = true ↔ Met js asset c := by
  unfold orWhereClauses Met
  rw [List.any_append, List.any_append, Bool.or_eq_true, Bool.or_eq_true, productClauses_any,
    regionClauses_any, metadataClauses_any]
  simp only [mem_uniqueKeyPairs]
  cases hc : c.conditionType with
  | region =>
    simp only [HasValue, reduceCtorEq, false_and, or_false, and_false, exists_false, false_or,
      true_and]
    constructor
    · intro h
      obtain ⟨site, state, hsite, hof, hne, hmem⟩ := h
      exact ⟨_, hmem, site, state, hsite, hof, hne, rfl⟩
    · intro h
      obtain ⟨_, hmem, site, state, hsite, hof, hne, rfl⟩ := h
      exact ⟨site, state, hsite, hof, hne, hmem⟩
  | metadata =>
    simp only [reduceCtorEq, false_and, or_false, and_false, exists_false, false_or, true_and]
  | productCategory =>
    simp only [HasValue, reduceCtorEq, false_and, or_false, true_and]
    exact ⟨fun ⟨p, hp, hmem⟩ => ⟨_, hmem, p, hp, rfl⟩, fun ⟨_, hmem, p, hp, he⟩ => ⟨p, hp, he ▸ hmem⟩⟩
  | manufacturer =>
    simp only [HasValue, reduceCtorEq, false_and, or_false, false_or, true_and]
    exact ⟨fun ⟨p, hp, hmem⟩ => ⟨_, hmem, p, hp, rfl⟩, fun ⟨_, hmem, p, hp, he⟩ => ⟨p, hp, he ▸ hmem⟩⟩
  | product =>
    simp only [HasValue, reduceCtorEq, false_and, or_false, false_or, true_and]
    exact ⟨fun ⟨p, hp, hmem⟩ => ⟨_, hmem, p, hp, rfl⟩, fun ⟨_, hmem, p, hp, he⟩ => ⟨p, hp, he ▸ hmem⟩⟩

end Clauses

/-! ## 6. One question -/

section Rows

variable {js : JsText} {accessIntent : AccessIntent} {t : QuestionTables} {asset : QuestionedAsset}
  {type : Option AssetQuestionType} {q : SelectableQuestion}

/-- The client and the customization beside a question. -/
def beside (isClientUserRequest : Bool) (t : QuestionTables) (q : SelectableQuestion)
    (condition : Option AssetQuestionCondition) : JoinedQuestion where
  question := q
  condition
  client := q.clientId.bind t.clients.find?
  customization := if isClientUserRequest then t.customizations.find? q.id else none

/-- A question has one row for each of its conditions, or one. -/
theorem joined_eq (isClientUserRequest : Bool) (t : QuestionTables) (q : SelectableQuestion) :
    joined isClientUserRequest t q =
      (leftJoin (·.assetQuestionId = q.id) t.conditions.rows).map
        (beside isClientUserRequest t q) := by
  have hclient : leftJoin (fun client => q.clientId = some client.id) t.clients.rows =
      [q.clientId.bind t.clients.find?] :=
    leftJoin_table t.clients fun client => decide_eq_true_iff
  have hcustom : leftJoin (·.assetQuestionId = q.id) t.customizations.rows =
      [t.customizations.find? q.id] :=
    leftJoin_table t.customizations (k := some q.id) fun custom => by
      rw [decide_eq_true_eq, Option.some.injEq, eq_comm]
  unfold joined
  rw [hclient, hcustom, List.map_eq_flatMap]
  cases isClientUserRequest <;> rfl

def conditionsOf (t : QuestionTables) (q : SelectableQuestion) : List AssetQuestionCondition :=
  t.conditions.rows.filter (·.assetQuestionId = q.id)

/-- **The rows the query leaves of a question are its conditions that are met**, if it leaves any
    of a question. -/
theorem countP_joined (type : Option AssetQuestionType) (isClientUserRequest : Bool)
    (t : QuestionTables) (q : SelectableQuestion) (met : AssetQuestionCondition → Bool) :
    ((joined isClientUserRequest t q).countP fun row =>
        andWhereClauses type row && row.condition.any met) =
      if andWhereClauses type (beside isClientUserRequest t q none) then
        (conditionsOf t q).countP met
      else 0 := by
  rw [joined_eq, List.countP_map]
  have hrow : ∀ condition, andWhereClauses type (beside isClientUserRequest t q condition) =
      andWhereClauses type (beside isClientUserRequest t q none) := fun _ => rfl
  by_cases hadmitted : andWhereClauses type (beside isClientUserRequest t q none) = true
  · rw [if_pos hadmitted]
    have hpass : (fun row : JoinedQuestion => andWhereClauses type row && row.condition.any met) ∘
        beside isClientUserRequest t q = fun condition => condition.any met := by
      funext condition
      rw [Function.comp_apply, hrow, hadmitted, Bool.true_and]
      rfl
    rw [hpass, countP_leftJoin rfl]
    rfl
  · rw [if_neg hadmitted, List.countP_eq_zero]
    intro condition _ h
    rw [Function.comp_apply, hrow, Bool.and_eq_true] at h
    exact hadmitted h.1

/-- The one customization there may be is found by its question. -/
theorem all_customization_iff : (t.customizations.find? q.id).all (·.enabled) = true ↔
    ∀ custom ∈ t.customizations, custom.assetQuestionId = q.id → custom.enabled = true := by
  rw [Option.all_eq_true]
  constructor
  · intro h custom hcustom hid
    exact h custom (Table.find?_eq_some.mpr ⟨hcustom, hid⟩)
  · intro h custom hfound
    obtain ⟨hcustom, hid⟩ := Table.find?_eq_some.mp hfound
    exact h custom hcustom hid

theorem admitted_iff : andWhereClauses type (beside (accessIntent ≠ .system) t q none) = true ↔
    q.active = true ∧ q.parentQuestionId = none ∧
      (accessIntent ≠ .system → ∀ custom ∈ t.customizations, custom.assetQuestionId = q.id →
        custom.enabled = true) ∧
      ∀ types, matchingTypes type = some types → q.type ∈ types := by
  have hcustom : (beside (accessIntent ≠ .system) t q none).customization.all (·.enabled) = true ↔
      (accessIntent ≠ .system → ∀ custom ∈ t.customizations, custom.assetQuestionId = q.id →
        custom.enabled = true) := by
    unfold beside
    by_cases hintent : accessIntent = .system
    · simp [hintent]
    · simp [hintent, all_customization_iff]
  have htypes : (matchingTypes type).all (·.contains q.type) = true ↔
      ∀ types, matchingTypes type = some types → q.type ∈ types := by
    rw [Option.all_eq_true]
    simp only [List.contains_iff_mem]
  unfold andWhereClauses
  rw [Bool.and_eq_true, Bool.and_eq_true, Bool.and_eq_true, hcustom]
  show ((q.active = true ∧ decide (q.parentQuestionId = none) = true) ∧ _) ∧
    (matchingTypes type).all (·.contains q.type) = true ↔ _
  rw [htypes, decide_eq_true_eq, and_assoc, and_assoc]

theorem mem_conditionsOf {c : AssetQuestionCondition} :
    c ∈ conditionsOf t q ↔ c ∈ t.conditions ∧ c.assetQuestionId = q.id := by
  unfold conditionsOf
  rw [List.mem_filter, decide_eq_true_eq, Table.mem_rows]

/-- What counting comes to. -/
theorem selected_iff : Selected js accessIntent t asset type q ↔
    andWhereClauses type (beside (accessIntent ≠ .system) t q none) = true ∧
      conditionsOf t q ≠ [] ∧ ∀ c ∈ conditionsOf t q, Met js asset c := by
  have hconditioned : conditionsOf t q ≠ [] ↔ ∃ c ∈ t.conditions, c.assetQuestionId = q.id := by
    simp only [ne_eq, List.eq_nil_iff_forall_not_mem, not_forall, not_not, mem_conditionsOf]
  rw [admitted_iff, hconditioned]
  simp only [mem_conditionsOf]
  constructor
  · intro h
    exact ⟨⟨h.active, h.parentless, h.notDisabled, h.matchesType⟩, h.conditioned,
      fun c hc => h.met c hc.1 hc.2⟩
  · intro h
    obtain ⟨⟨hactive, hparent, hcustom, htypes⟩, hconditioned, hmet⟩ := h
    exact {
      active := hactive
      parentless := hparent
      matchesType := htypes
      notDisabled := hcustom
      conditioned := hconditioned
      met := fun c hc hq => hmet c ⟨hc, hq⟩ }

/-- No condition is met where nothing is known. -/
theorem Selected.clauses_ne_nil (h : Selected js accessIntent t asset type q) :
    orWhereClauses js asset ≠ [] := by
  obtain ⟨c, hc, hq⟩ := h.conditioned
  intro hnil
  have hany := clauses_any_iff.2 (h.met c hc hq)
  rw [hnil] at hany
  exact (nomatch hany)

/-- **Some row is left of a question, and as many as it has conditions, exactly if it is
    selected.** -/
theorem countP_joined_eq_iff (js : JsText) (accessIntent : AccessIntent) (t : QuestionTables)
    (asset : QuestionedAsset) (type : Option AssetQuestionType) (q : SelectableQuestion)
    {left : Nat}
    (hleft : (joined (accessIntent ≠ .system) t q).countP (fun row => andWhereClauses type row &&
      row.condition.any fun c => (orWhereClauses js asset).any (·.holds c)) = left) :
    left ≠ 0 ∧ left = (conditionsOf t q).length ↔
      Selected js accessIntent t asset type q := by
  rw [selected_iff, ← hleft, countP_joined]
  by_cases hadmitted : andWhereClauses type (beside (accessIntent ≠ .system) t q none) = true
  case neg =>
    rw [if_neg hadmitted]
    exact iff_of_false (fun h => h.1 rfl) fun h => hadmitted h.1
  rw [if_pos hadmitted, and_iff_right hadmitted]
  constructor
  · intro h
    obtain ⟨hsome, hall⟩ := h
    refine ⟨fun hnil => hsome (by rw [hnil]; rfl), fun c hc => ?_⟩
    exact clauses_any_iff.1 (List.countP_eq_length.mp hall c hc)
  · intro h
    obtain ⟨hne, hmet⟩ := h
    have hall := List.countP_eq_length.mpr fun c hc => clauses_any_iff.2 (hmet c hc)
    exact ⟨fun hzero => hne (List.length_eq_zero_iff.mp (hall.symm.trans hzero)), hall⟩

end Rows

/-! ## 7. The questions -/

/-- **A question is asked exactly if all its conditions are met, of which it has one at least**, and
    it is asked once. -/
theorem findQuestionIdsByAsset_exact (js : JsText) (accessIntent : AccessIntent)
    (t : QuestionTables) (asset : QuestionedAsset) (type : Option AssetQuestionType) :
    (findQuestionIdsByAsset js accessIntent t asset type).Nodup ∧
      ∀ id, id ∈ findQuestionIdsByAsset js accessIntent t asset type ↔
        ∃ q ∈ t.questions, q.id = id ∧ Selected js accessIntent t asset type q := by
  unfold findQuestionIdsByAsset
  dsimp only
  by_cases hclauses : orWhereClauses js asset = []
  · rw [if_pos hclauses]
    refine ⟨List.nodup_nil, fun id => iff_of_false List.not_mem_nil fun h => ?_⟩
    obtain ⟨q, -, -, hselected⟩ := h
    exact hselected.clauses_ne_nil hclauses
  rw [if_neg hclauses]
  refine ⟨nodup_groupsHaving, fun id => ?_⟩
  rw [mem_groupsHaving, List.filter_flatMap, filter_flatMap_key t.questions (fun q row hrow => ?key)]
  case key =>
    have hjoined := (List.mem_filter.mp hrow).1
    rw [joined_eq] at hjoined
    obtain ⟨condition, -, rfl⟩ := List.mem_map.mp hjoined
    rfl
  cases hfound : t.questions.find? id with
  | none =>
    refine iff_of_false (fun h => h.1 rfl) fun h => ?_
    obtain ⟨q, hq, hid, -⟩ := h
    exact Table.find?_eq_none.mp hfound q hq hid
  | some q =>
    obtain ⟨hq, rfl⟩ := Table.find?_eq_some.mp hfound
    have htotal : t.conditions.rows.countP (·.assetQuestionId = q.id) =
        (conditionsOf t q).length :=
      List.countP_eq_length_filter
    rw [Table.exists_key_iff hq, ← countP_joined_eq_iff js accessIntent t asset type q rfl,
      Option.toList_some, List.flatMap_singleton, decide_eq_true_eq, ne_eq,
      ← List.length_eq_zero_iff, ← List.countP_eq_length_filter, htotal]

end AssetQuestionsService

end ShieldApi
