import ShieldApi.Assets.Metadata
import ShieldApi.Lib.Effect

/-!
# Configuring an asset, and the check

`AssetsService.configure` writes the metadata the answers set. `checkAssetConfiguration` reads the
same configs again and asks of every entry whether the asset has what it sets: the text of a
`STATIC` entry, and of a `DYNAMIC` one something that is truthy and, for a question with options,
one of them. The two agree on what an entry is, though one reads the raw config and the other the
parsed one (`metadataEntries_eq`). They do not agree on what an answer is: **a `0` is an answer, and
no truthy value; an empty list of options is no options to choose from, and still a list to be in**
(`isConfigurationMet_iff`).
-/

set_option autoImplicit false

namespace ShieldApi

open Effect

/-! ## 1. Questions and answers -/

/-- An `AssetQuestion` with its config, as far as the two services read it. -/
structure ConfigurationQuestion where
  id : String
  valueType : AssetQuestionResponseType
  selectOptions : Option JsonValue := none
  /-- `setAssetMetadataConfig.metadata`. -/
  setAssetMetadataConfig : Option JsonValue := none

/-- A value of `ConfigureAssetSchema`. -/
inductive ResponseValue
  | text (s : String)
  | number (n : Rat)
  | images (urls : List String)
  deriving DecidableEq, Repr

def ResponseValue.json : ResponseValue → JsonValue
  | .text s => .text s
  | .number n => .number n
  | .images urls => .object [("urls", .array (urls.map .text))]

structure ConfigureResponse where
  value : ResponseValue
  assetQuestionId : String
  deriving DecidableEq, Repr

/-- An asset, as far as it is configured. -/
structure ConfigurableAsset where
  id : String
  metadata : Option JsonValue := none
  configured : Bool := false

structure ConfigurationWorld where
  assets : Table ConfigurableAsset String ConfigurableAsset.id := ∅
  questions : Table ConfigurationQuestion String ConfigurationQuestion.id := ∅

/-! ## 2. `configure` -/

/-- The row after both updates of the transaction. -/
def ConfigurableAsset.configure (metadata : Option JsonValue) (a : ConfigurableAsset) :
    ConfigurableAsset :=
  { a with metadata := metadata.or a.metadata, configured := true }

namespace AssetsService

/-- The answers to questions there are, each with its question's config. -/
def answered (questions : Table ConfigurationQuestion String ConfigurationQuestion.id)
    (responses : List ConfigureResponse) : List MetadataResponse :=
  responses.filterMap fun r => (questions.find? r.assetQuestionId).map fun q =>
    { config := q.setAssetMetadataConfig, value := r.value.json }

def configure (id : String) (responses : List ConfigureResponse) :
    Effect ConfigurationWorld ApiError ConfigurableAsset := do
  let found ← query fun w => w.assets.find? id
  let asset ← orRaise .recordNotFound found
  let questions ← query fun w => w.questions
  let metadata := handleSetMetadataFromConfigs asset.metadata (answered questions responses)
  write fun w =>
    { w with assets := w.assets.updateMany (·.id = id) (·.configure metadata) fun _ => rfl }
  pure (asset.configure metadata)

end AssetsService

/-! ## 3. `checkAssetConfiguration` -/

structure SelectOption where
  value : String
  order : Option Rat
  label : Option String
  deriving DecidableEq, Repr

namespace CreateAssetQuestionSchema

def parseOption (raw : JsonValue) : Option SelectOption := do
  let value ← (raw.property? "value").bind JsonValue.text?
  let order ←
    match raw.property? "order" with
    | none => some none
    | some (.number n) => some (some n)
    | some _ => none
  let label ←
    match raw.property? "label" with
    | none => some none
    | some v => v.text?.map some
  pure { value, order, label }

/-- `shape.selectOptions.safeParse`. -/
def parseSelectOptions : JsonValue → Option (List SelectOption)
  | .array items => items.mapM parseOption
  | _ => none

end CreateAssetQuestionSchema

def ConfigurationQuestion.parsedSelectOptions (q : ConfigurationQuestion) :
    Option (List SelectOption) :=
  if q.valueType = .select then
    match q.selectOptions with
    | some raw => if raw.isTruthy then CreateAssetQuestionSchema.parseSelectOptions raw else none
    | none => none
  else none

/-- What every object has besides its own properties. -/
def objectPrototype : List String :=
  ["constructor", "hasOwnProperty", "isPrototypeOf", "propertyIsEnumerable", "toLocaleString",
   "toString", "valueOf", "__proto__", "__defineGetter__", "__defineSetter__",
   "__lookupGetter__", "__lookupSetter__"]

inductive PropertyValue
  | own (v : JsonValue)
  /-- A function, or the prototype itself. -/
  | inherited

namespace PropertyValue

def isTruthy : PropertyValue → Bool
  | .own v => v.isTruthy
  | .inherited => true

def isText (s : String) : PropertyValue → Bool
  | .own v => v.isText s
  | .inherited => false

end PropertyValue

/-- `key in assetMetadata ? assetMetadata[key] : null`. -/
def assetMetadataValue (assetMetadata : JsonFields) (key : String) : PropertyValue :=
  match Entries.get? assetMetadata key with
  | some v => .own v
  | none => if key ∈ objectPrototype then .inherited else .own .null

structure MetadataAuditEntry where
  key : String
  staticValue : Option String := none
  assetValue : PropertyValue
  isMet : Bool
  assetQuestion : ConfigurationQuestion

namespace AssetQuestionsService

def getValidatedMetadata : JsonValue → Option JsonFields
  | .object fields => some fields
  | _ => none

/-- What one entry of a question's config adds to the audit. -/
def audit (assetMetadata : JsonFields) (question : ConfigurationQuestion)
    (metadataConfig : MetadataConfig) : Option MetadataAuditEntry :=
  let assetValue := assetMetadataValue assetMetadata metadataConfig.key
  match metadataConfig.type with
  | .static => (truthy metadataConfig.value).map fun value =>
    { key := metadataConfig.key
      staticValue := some value
      assetValue
      isMet := assetValue.isText value
      assetQuestion := question }
  | .dynamic => some
    { key := metadataConfig.key
      assetValue
      isMet := assetValue.isTruthy &&
        question.parsedSelectOptions.all fun options => options.any fun o => assetValue.isText o.value
      assetQuestion := question }

structure ConfigurationCheck where
  checkResults : List MetadataAuditEntry
  isConfigurationMet : Bool

/-- `questions` are those found for the asset. -/
def checkAssetConfiguration (asset : ConfigurableAsset) (questions : List ConfigurationQuestion) :
    ConfigurationCheck :=
  let assetMetadata := (getValidatedMetadata (asset.metadata.getD .null)).getD []
  let metadataAudit := questions.flatMap fun question =>
    (metadataConfigs question.setAssetMetadataConfig).filterMap (audit assetMetadata question)
  { checkResults := metadataAudit, isConfigurationMet := metadataAudit.all (·.isMet) }

end AssetQuestionsService

/-! ## 4. What is asked of an answer -/

namespace ConfigurationQuestion

/-- The answer is not empty, and one of the options where there are some. -/
def Accepts (q : ConfigurationQuestion) (value : ResponseValue) : Prop :=
  match q.parsedSelectOptions with
  | some (o :: os) => ∃ s, value = .text s ∧ s ≠ "" ∧ s ∈ (o :: os).map SelectOption.value
  | _ => (∃ s, value = .text s ∧ s ≠ "") ∨ ∃ n, value = .number n

/-- An entry of the question's config takes the answer for its value. -/
def SetsAnswer (q : ConfigurationQuestion) : Prop :=
  ∃ c ∈ metadataConfigs q.setAssetMetadataConfig, c.type = .dynamic

/-- What the answer's entries are checked for. -/
def isMetBy (q : ConfigurationQuestion) (value : JsonValue) : Bool :=
  value.isTruthy && q.parsedSelectOptions.all fun options => options.any fun o => value.isText o.value

/-- **The check refuses an accepted answer** for two reasons only. -/
theorem isMetBy_iff {q : ConfigurationQuestion} {value : ResponseValue} (h : q.Accepts value) :
    q.isMetBy value.json = true ↔ value ≠ .number 0 ∧ q.parsedSelectOptions ≠ some [] := by
  unfold Accepts at h
  unfold isMetBy
  rcases hoptions : q.parsedSelectOptions with _ | ⟨_ | ⟨o, os⟩⟩
  · rw [hoptions] at h
    rcases h with ⟨s, rfl, hs⟩ | ⟨n, rfl⟩
    · simp [ResponseValue.json, JsonValue.isTruthy, hs]
    · simp [ResponseValue.json, JsonValue.isTruthy]
  · simp
  · rw [hoptions] at h
    obtain ⟨s, rfl, hs, hmem⟩ := h
    have hany : (o :: os).any (fun o => (ResponseValue.text s).json.isText o.value) = true := by
      obtain ⟨o', ho', hvalue⟩ := List.mem_map.mp hmem
      exact List.any_eq_true.mpr ⟨o', ho', JsonValue.isText_text.mpr hvalue.symm⟩
    rw [Option.all_some, hany, Bool.and_true]
    simp [ResponseValue.json, JsonValue.isTruthy, hs]

end ConfigurationQuestion

/-! ## 5. After `configure` -/

namespace AssetsService

theorem configure_eq_ok {w w' : ConfigurationWorld} {id : String}
    {responses : List ConfigureResponse} {asset : ConfigurableAsset}
    (h : (configure id responses).run w = (.ok asset, w')) :
    ∃ before, w.assets.find? id = some before ∧ asset = before.configure
      (handleSetMetadataFromConfigs before.metadata (answered w.questions responses)) := by
  unfold configure at h
  rw [run_query_bind] at h
  obtain ⟨before, u, hraise, h⟩ := bind_eq_ok.mp h
  obtain ⟨hfound, rfl⟩ := orRaise_eq_ok.mp hraise
  exact ⟨before, hfound, (Except.ok.inj (Prod.mk.inj h).1).symm⟩

theorem mem_newMetadata {responses : List MetadataResponse} {r : MetadataResponse}
    (hr : r ∈ responses) {c : MetadataConfig} (hc : c ∈ metadataConfigs r.config) :
    (c.key, c.written r.value) ∈ newMetadata responses := by
  refine List.mem_flatMap.mpr ⟨r, hr, ?_⟩
  rw [metadataEntries_eq]
  exact List.mem_map_of_mem hc

/-- What was written of an entry is there, if no other entry has its key. -/
theorem get?_handleSetMetadata {metadata : Option JsonValue} {responses : List MetadataResponse}
    (hkeys : (Entries.keys (newMetadata responses)).Nodup) {r : MetadataResponse}
    (hr : r ∈ responses) {c : MetadataConfig} (hc : c ∈ metadataConfigs r.config) :
    ∃ fields, handleSetMetadataFromConfigs metadata responses = some (.object fields) ∧
      Entries.get? fields c.key = some (c.written r.value) := by
  have hmem := mem_newMetadata hr hc
  unfold handleSetMetadataFromConfigs
  refine ⟨_, if_neg (List.ne_nil_of_mem hmem), ?_⟩
  rw [Entries.get?_append, Entries.get?_of_nodup hkeys hmem, Option.some_or]

end AssetsService

section

variable {w : ConfigurationWorld} {questions : List ConfigurationQuestion}
  {responses : List ConfigureResponse}

/-- The keys a question's answer sets. -/
def ConfigurationQuestion.keys (q : ConfigurationQuestion) : List String :=
  (metadataConfigs q.setAssetMetadataConfig).map MetadataConfig.key

theorem keys_answered (t : Table ConfigurationQuestion String ConfigurationQuestion.id)
    (responses : List ConfigureResponse) :
    (AssetsService.answered t responses).flatMap MetadataResponse.keys =
      responses.flatMap fun r => ((t.find? r.assetQuestionId).map ConfigurationQuestion.keys).getD [] := by
  induction responses with
  | nil => rfl
  | cons r rs ih =>
    rw [List.flatMap_cons, ← ih]
    unfold AssetsService.answered
    cases hfind : t.find? r.assetQuestionId with
    | none => simp [hfind]
    | some q =>
      rw [List.filterMap_cons_some (by rw [hfind]; rfl), List.flatMap_cons]
      rfl

theorem find?_question (hstored : ∀ q ∈ questions, q ∈ w.questions) {q : ConfigurationQuestion}
    (hq : q ∈ questions) : w.questions.find? q.id = some q :=
  Table.find?_eq_some.mpr ⟨hstored q hq, rfl⟩

/-- With an answer for each question, the keys that are written are those of the questions. -/
theorem keys_newMetadata_perm (hstored : ∀ q ∈ questions, q ∈ w.questions)
    (hanswered : (responses.map (·.assetQuestionId)).Perm (questions.map (·.id))) :
    (Entries.keys (AssetsService.newMetadata
      (AssetsService.answered w.questions responses))).Perm
        (questions.flatMap ConfigurationQuestion.keys) := by
  -- the keys that belong to an id
  let keysOf : String → List String := fun id =>
    ((w.questions.find? id).map ConfigurationQuestion.keys).getD []
  have hresponses : Entries.keys (AssetsService.newMetadata
      (AssetsService.answered w.questions responses)) =
        (responses.map (·.assetQuestionId)).flatMap keysOf := by
    rw [AssetsService.keys_newMetadata, keys_answered, List.flatMap_map]
  have hquestions : questions.flatMap ConfigurationQuestion.keys =
      (questions.map (·.id)).flatMap keysOf := by
    rw [List.flatMap_map]
    apply List.flatMap_congr
    intro q hq
    show q.keys = ((w.questions.find? q.id).map ConfigurationQuestion.keys).getD []
    rw [find?_question hstored hq]
    rfl
  rw [hresponses, hquestions]
  exact hanswered.flatMap_right keysOf

/-- Every entry of every question is in the asset's metadata, with what its answer sets. -/
theorem get?_configured (hstored : ∀ q ∈ questions, q ∈ w.questions)
    (hkeys : (questions.flatMap ConfigurationQuestion.keys).Nodup)
    (hanswered : (responses.map (·.assetQuestionId)).Perm (questions.map (·.id)))
    {metadata : Option JsonValue} {q : ConfigurationQuestion} (hq : q ∈ questions)
    {r : ConfigureResponse} (hr : r ∈ responses) (hid : r.assetQuestionId = q.id)
    {c : MetadataConfig} (hc : c ∈ metadataConfigs q.setAssetMetadataConfig) :
    ∃ fields, AssetsService.handleSetMetadataFromConfigs metadata
        (AssetsService.answered w.questions responses) = some (.object fields) ∧
      Entries.get? fields c.key = some (c.written r.value.json) := by
  have hresponse : { config := q.setAssetMetadataConfig, value := r.value.json } ∈
      AssetsService.answered w.questions responses := by
    refine List.mem_filterMap.mpr ⟨r, hr, ?_⟩
    rw [hid, find?_question hstored hq]
    rfl
  have hdistinct := (keys_newMetadata_perm hstored hanswered).symm.nodup hkeys
  exact AssetsService.get?_handleSetMetadata hdistinct hresponse hc

/-- What the audit says of an entry whose value is there. -/
theorem audit_isMet {fields : JsonFields} {q : ConfigurationQuestion} {c : MetadataConfig}
    {value : JsonValue} (hget : Entries.get? fields c.key = some (c.written value)) :
    ∃ entry, AssetQuestionsService.audit fields q c = some entry ∧
      (entry.isMet = true ↔ (c.type = .dynamic → q.isMetBy value = true)) := by
  have hvalue : assetMetadataValue fields c.key = .own (c.written value) := by
    unfold assetMetadataValue
    rw [hget]
  unfold AssetQuestionsService.audit
  rw [hvalue]
  cases htype : c.type with
  | static =>
    obtain ⟨v, hv, hne⟩ := (Option.any_eq_true _ _).mp (c.value_ne htype)
    have htruthy : truthy c.value = some v := by
      rw [hv]
      exact if_neg (of_decide_eq_true hne)
    simp only [htruthy, Option.map_some]
    refine ⟨_, rfl, iff_of_true ?_ (by simp)⟩
    simp [MetadataConfig.written, htype, hv, PropertyValue.isText]
  | dynamic =>
    refine ⟨_, rfl, ?_⟩
    simp only [MetadataConfig.written, htype, true_implies]
    rfl

end

/-- **After an answer to every question the check is met, exactly if** no question whose answer is
    written got a `0`, and none of them has an empty list of options. -/
theorem isConfigurationMet_iff {w w' : ConfigurationWorld} {id : String}
    {questions : List ConfigurationQuestion} {responses : List ConfigureResponse}
    {asset : ConfigurableAsset} (hstored : ∀ q ∈ questions, q ∈ w.questions)
    (hkeys : (questions.flatMap ConfigurationQuestion.keys).Nodup)
    (hanswered : (responses.map (·.assetQuestionId)).Perm (questions.map (·.id)))
    (haccepts : ∀ q ∈ questions, ∀ r ∈ responses, r.assetQuestionId = q.id → q.Accepts r.value)
    (hrun : (AssetsService.configure id responses).run w = (.ok asset, w')) :
    (AssetQuestionsService.checkAssetConfiguration asset questions).isConfigurationMet = true ↔
      ∀ q ∈ questions, q.SetsAnswer → q.parsedSelectOptions ≠ some [] ∧
        ∀ r ∈ responses, r.assetQuestionId = q.id → r.value ≠ .number 0 := by
  obtain ⟨before, -, rfl⟩ := AssetsService.configure_eq_ok hrun
  -- every question has its answer
  have hanswer : ∀ q ∈ questions, ∃ r ∈ responses, r.assetQuestionId = q.id := by
    intro q hq
    exact List.mem_map.mp (hanswered.mem_iff.mpr (List.mem_map_of_mem hq))
  have haudit : ∀ q ∈ questions, ∀ r ∈ responses, r.assetQuestionId = q.id →
      ∀ c ∈ metadataConfigs q.setAssetMetadataConfig, ∃ entry,
        AssetQuestionsService.audit ((AssetQuestionsService.getValidatedMetadata
          ((before.configure (AssetsService.handleSetMetadataFromConfigs before.metadata
            (AssetsService.answered w.questions responses))).metadata.getD .null)).getD []) q c =
              some entry ∧
          (entry.isMet = true ↔ (c.type = .dynamic → q.isMetBy r.value.json = true)) := by
    intro q hq r hr hid c hc
    obtain ⟨fields, hwritten, hget⟩ : ∃ fields, AssetsService.handleSetMetadataFromConfigs
        before.metadata (AssetsService.answered w.questions responses) = some (.object fields) ∧
          Entries.get? fields c.key = some (c.written r.value.json) :=
      get?_configured hstored hkeys hanswered hq hr hid hc
    rw [ConfigurableAsset.configure, hwritten]
    exact audit_isMet hget
  unfold AssetQuestionsService.checkAssetConfiguration
  simp only [List.all_eq_true, List.mem_flatMap, List.mem_filterMap]
  constructor
  · intro hmet q hq hsets
    obtain ⟨c, hc, hdynamic⟩ := hsets
    have hone : ∀ r ∈ responses, r.assetQuestionId = q.id →
        r.value ≠ .number 0 ∧ q.parsedSelectOptions ≠ some [] := by
      intro r hr hid
      obtain ⟨entry, hentry, hiff⟩ := haudit q hq r hr hid c hc
      have hismet := hiff.mp (hmet entry ⟨q, hq, c, hc, hentry⟩) hdynamic
      exact (ConfigurationQuestion.isMetBy_iff (haccepts q hq r hr hid)).mp hismet
    obtain ⟨r, hr, hid⟩ := hanswer q hq
    exact ⟨(hone r hr hid).2, fun r hr hid => (hone r hr hid).1⟩
  · intro hcond entry hentry
    obtain ⟨q, hq, c, hc, hentry⟩ := hentry
    obtain ⟨r, hr, hid⟩ := hanswer q hq
    obtain ⟨entry', hentry', hiff⟩ := haudit q hq r hr hid c hc
    obtain rfl := Option.some.inj (hentry.symm.trans hentry')
    apply hiff.mpr
    intro hdynamic
    obtain ⟨hoptions, hzero⟩ := hcond q hq ⟨c, hc, hdynamic⟩
    exact (ConfigurationQuestion.isMetBy_iff (haccepts q hq r hr hid)).mpr ⟨hzero r hr hid, hoptions⟩

/-! ## 6. A pump and its capacity -/

def dynamicConfig (key : String) : JsonValue :=
  .array [.object [("key", .text key), ("type", .text "DYNAMIC")]]

/-- Asks for a number. -/
def capacityQuestion : ConfigurationQuestion where
  id := "q1"
  valueType := .number
  setAssetMetadataConfig := some (dynamicConfig "capacity")

/-- Asks to choose one of two. -/
def colorQuestion : ConfigurationQuestion where
  id := "q2"
  valueType := .select
  selectOptions := some (.array
    [.object [("value", .text "red")], .object [("value", .text "blue"), ("order", .number 2)]])
  setAssetMetadataConfig := some (.array
    [.object [("key", .text "color"), ("type", .text "DYNAMIC")],
     .object [("key", .text "kind"), ("type", .text "STATIC"), ("value", .text "pump")]])

def pumpWorld : ConfigurationWorld where
  assets := ⟨[{ id := "pump" }], by decide⟩
  questions := ⟨[capacityQuestion, colorQuestion], by decide⟩

theorem pumpConfigured : ∃ asset w',
    (AssetsService.configure "pump" [⟨.text "blue", "q2"⟩, ⟨.number 5, "q1"⟩]).run pumpWorld =
        (.ok asset, w') ∧
      (AssetQuestionsService.checkAssetConfiguration asset
        [capacityQuestion, colorQuestion]).isConfigurationMet = true := by
  obtain ⟨asset, w', hrun⟩ : ∃ asset w', (AssetsService.configure "pump"
      [⟨.text "blue", "q2"⟩, ⟨.number 5, "q1"⟩]).run pumpWorld = (.ok asset, w') := ⟨_, _, rfl⟩
  have hcolor : colorQuestion.Accepts (.text "blue") :=
    ⟨"blue", rfl, by decide, List.mem_cons_of_mem _ (List.mem_singleton_self _)⟩
  have hcapacity : capacityQuestion.Accepts (.number 5) := .inr ⟨5, rfl⟩
  refine ⟨asset, w', hrun, (isConfigurationMet_iff ?_ (by decide) ?_ ?_ hrun).mpr ?_⟩
  · exact fun q hq => hq
  · exact .swap _ _ _
  · intro q hq r hr hid
    simp only [List.mem_cons, List.not_mem_nil, or_false] at hq hr
    rcases hq with rfl | rfl <;> rcases hr with rfl | rfl
    · exact absurd hid (by decide)
    · exact hcapacity
    · exact hcolor
    · exact absurd hid (by decide)
  · intro q hq _
    simp only [List.mem_cons, List.not_mem_nil, or_false] at hq
    refine ⟨?_, fun r hr _ => ?_⟩
    · intro hoptions
      rcases hq with rfl | rfl <;> cases hoptions
    · simp only [List.mem_cons, List.not_mem_nil, or_false] at hr
      rcases hr with rfl | rfl <;> decide

/-- A capacity of zero is a capacity, and the check does not find it. -/
theorem zeroCapacity_notMet : ∃ asset w',
    (AssetsService.configure "pump" [⟨.number 0, "q1"⟩]).run pumpWorld = (.ok asset, w') ∧
      capacityQuestion ∈ pumpWorld.questions ∧ capacityQuestion.keys.Nodup ∧
      capacityQuestion.Accepts (.number 0) ∧
      (AssetQuestionsService.checkAssetConfiguration asset
        [capacityQuestion]).isConfigurationMet = false :=
  ⟨_, _, rfl, List.mem_cons_self .., by decide, .inr ⟨0, rfl⟩, rfl⟩

end ShieldApi
