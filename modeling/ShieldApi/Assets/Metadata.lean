import ShieldApi.Assets.Schema
import ShieldApi.Lib.Entries

/-!
# Metadata of an asset

`AssetsService.handleSetMetadataFromConfigs`, with the schemas it parses by. A question may say which
metadata of the asset its answer sets: a `STATIC` entry writes a text of its own, a `DYNAMIC` one
the answer. What is written goes on top of what the asset had, and **what it had is read through
the schema of asset creation, where all values are texts**. Metadata the schema refuses counts as
no metadata at all (`existingMetadata`).

The metadata of an asset, the options of a question and its config are columns of JSON, and the
values in them may be anything.
-/

set_option autoImplicit false

namespace ShieldApi

/-! ## 1. JSON columns -/

/-- `Prisma.JsonValue`. An object is its entries, the later one winning. -/
inductive JsonValue
  | null
  | bool (b : Bool)
  | number (n : Rat)
  | text (s : String)
  | array (items : List JsonValue)
  | object (fields : List (String × JsonValue))

abbrev JsonFields : Type := List (String × JsonValue)

namespace JsonValue

/-- `!!v`. -/
def isTruthy : JsonValue → Bool
  | .null => false
  | .bool b => b
  | .number n => n ≠ 0
  | .text s => s ≠ ""
  | .array _ | .object _ => true

/-- `v === s`. -/
def isText (s : String) : JsonValue → Bool
  | .text t => t = s
  | _ => false

/-- `z.string()`. -/
def text? : JsonValue → Option String
  | .text s => some s
  | _ => none

/-- `v[name]` of an object's own property. -/
def property? (name : String) : JsonValue → Option JsonValue
  | .object fields => Entries.get? fields name
  | _ => none

@[simp] theorem isText_text {s t : String} : (text t).isText s = true ↔ t = s := by
  simp [isText]

theorem isText_iff {s : String} {v : JsonValue} : v.isText s = true ↔ v = .text s := by
  cases v <;> simp [isText]

theorem text?_eq_some {s : String} {v : JsonValue} : v.text? = some s ↔ v = .text s := by
  cases v <;> simp [text?]

end JsonValue

/-! ## 2. The schemas -/

/-- `z.record(z.string(), z.string())`. -/
def isTextRecord (fields : JsonFields) : Bool :=
  fields.all fun f => ((Entries.get? fields f.1).bind JsonValue.text?).isSome

/-- `CreateAssetSchema.shape.metadata.safeParse(metadata).data`. -/
def metadataSchemaData : Option JsonValue → Option JsonFields
  | some (.object fields) => if isTextRecord fields then some fields else none
  | _ => none

/-- Every key has a text. -/
theorem isTextRecord_iff {fields : JsonFields} : isTextRecord fields = true ↔
    ∀ k v, Entries.get? fields k = some v → ∃ s, v = .text s := by
  unfold isTextRecord
  rw [List.all_eq_true]
  constructor
  · intro h k v hv
    have htext := h (k, v) (Entries.mem_of_get? hv)
    rw [hv, Option.bind_some] at htext
    obtain ⟨s, hs⟩ := Option.isSome_iff_exists.mp htext
    exact ⟨s, JsonValue.text?_eq_some.mp hs⟩
  · intro h f hf
    obtain ⟨v, hv⟩ := Option.isSome_iff_exists.mp
      (Entries.isSome_get?.mpr (List.mem_map_of_mem (f := Prod.fst) hf))
    obtain ⟨s, rfl⟩ := h _ v hv
    rw [hv]
    rfl

inductive MetadataConfigType
  | dynamic | static
  deriving DecidableEq, Repr

def MetadataConfigType.text : MetadataConfigType → String
  | .dynamic => "DYNAMIC"
  | .static => "STATIC"

/-- An entry of `CreateSetAssetMetadataConfigSchema`, as it is when it was accepted. -/
structure MetadataConfig where
  key : String
  type : MetadataConfigType
  value : Option String
  key_ne : key ≠ ""
  /-- `Value is required for setting static metadata`. -/
  value_ne : type = .static → value.any (· ≠ "") = true

namespace CreateSetAssetMetadataConfigSchema

def parseType (raw : JsonValue) : Option MetadataConfigType :=
  if raw.isText "DYNAMIC" then some .dynamic
  else if raw.isText "STATIC" then some .static
  else none

/-- `z.string().optional()`: the field is not there, or a text. -/
def parseValue (raw : JsonValue) : Option (Option String) :=
  match raw.property? "value" with
  | none => some none
  | some v => v.text?.map some

def parseEntry (raw : JsonValue) : Option MetadataConfig := do
  let key ← (raw.property? "key").bind JsonValue.text?
  let type ← (raw.property? "type").bind parseType
  let value ← parseValue raw
  if h : key ≠ "" ∧ (type = .static → value.any (· ≠ "") = true) then
    some ⟨key, type, value, h.1, h.2⟩
  else none

/-- `safeParse` of a config's `metadata`. -/
def safeParse : JsonValue → Option (List MetadataConfig)
  | .array items => items.mapM parseEntry
  | _ => none

/-- What an accepted entry says in the raw config. -/
theorem parseEntry_eq_some {raw : JsonValue} {config : MetadataConfig}
    (h : parseEntry raw = some config) :
    raw.property? "key" = some (.text config.key) ∧
      raw.property? "type" = some (.text config.type.text) ∧
        ∀ v, config.value = some v → raw.property? "value" = some (.text v) := by
  unfold parseEntry at h
  simp only [Option.bind_eq_bind, Option.bind_eq_some_iff] at h
  obtain ⟨key, ⟨rawKey, hkey, hkeyText⟩, type, ⟨rawType, htype, hparseType⟩, value, hvalue, h⟩ := h
  split at h
  swap
  · cases h
  obtain rfl := Option.some.inj h
  refine ⟨by rw [hkey, JsonValue.text?_eq_some.mp hkeyText], ?_, fun v hv => ?_⟩
  · rw [htype]
    unfold parseType at hparseType
    split at hparseType
    · next hdynamic =>
      obtain rfl := Option.some.inj hparseType
      rw [JsonValue.isText_iff.mp hdynamic]
      rfl
    · split at hparseType
      · next hstatic =>
        obtain rfl := Option.some.inj hparseType
        rw [JsonValue.isText_iff.mp hstatic]
        rfl
      · cases hparseType
  · obtain rfl : value = some v := hv
    unfold parseValue at hvalue
    cases hraw : raw.property? "value" with
    | none =>
      rw [hraw] at hvalue
      cases hvalue
    | some x =>
      rw [hraw] at hvalue
      obtain ⟨t, ht, hsome⟩ := Option.map_eq_some_iff.mp hvalue
      rw [JsonValue.text?_eq_some.mp ht, Option.some.inj hsome]

end CreateSetAssetMetadataConfigSchema

/-! ## 3. Writing -/

/-- An answer, with the config of its question. -/
structure MetadataResponse where
  /-- `setAssetMetadataConfig.metadata`, of a question that has a config. -/
  config : Option JsonValue
  value : JsonValue

namespace AssetsService

/-- `[config.key, config.type === 'STATIC' ? config.value : response.value]`, of the raw config. -/
def metadataEntry (value : JsonValue) (raw : JsonValue) : String × JsonValue :=
  (((raw.property? "key").bind JsonValue.text?).getD "undefined",
    if (raw.property? "type").any (·.isText "STATIC") then
      (raw.property? "value").getD .null
    else value)

/-- The entries one answer sets: none if its question's config is refused. -/
def metadataEntries (response : MetadataResponse) : JsonFields :=
  match response.config with
  | some (.array items) =>
    if (CreateSetAssetMetadataConfigSchema.safeParse (.array items)).isSome then
      items.map (metadataEntry response.value)
    else []
  | _ => []

def newMetadata (responses : List MetadataResponse) : JsonFields := responses.flatMap metadataEntries

/-- What is updated, or nothing. `metadata` is the asset's, as the caller read it. -/
def handleSetMetadataFromConfigs (metadata : Option JsonValue) (responses : List MetadataResponse) :
    Option JsonValue :=
  let existingMetadata := (metadataSchemaData metadata).getD []
  if newMetadata responses = [] then none
  else some (.object (existingMetadata ++ newMetadata responses))

end AssetsService

/-- The valid entries of a config. -/
def metadataConfigs (config : Option JsonValue) : List MetadataConfig :=
  (config.bind CreateSetAssetMetadataConfigSchema.safeParse).getD []

/-- What an entry writes for an answer. -/
def MetadataConfig.written (config : MetadataConfig) (value : JsonValue) : JsonValue :=
  match config.type with
  | .static => .text (config.value.getD "")
  | .dynamic => value

namespace AssetsService

/-- An entry is written as it was parsed, from the raw config. -/
theorem metadataEntry_eq {raw : JsonValue} {config : MetadataConfig} (value : JsonValue)
    (h : CreateSetAssetMetadataConfigSchema.parseEntry raw = some config) :
    metadataEntry value raw = (config.key, config.written value) := by
  obtain ⟨hkey, htype, hvalue⟩ := CreateSetAssetMetadataConfigSchema.parseEntry_eq_some h
  unfold metadataEntry MetadataConfig.written
  rw [hkey, htype]
  cases hconfig : config.type with
  | dynamic => simp [MetadataConfigType.text, JsonValue.text?, JsonValue.isText]
  | static =>
    obtain ⟨v, hv, -⟩ := (Option.any_eq_true _ _).mp (config.value_ne hconfig)
    rw [hvalue v hv, hv]
    simp [MetadataConfigType.text, JsonValue.text?, JsonValue.isText]

theorem map_metadataEntry {items : List JsonValue} {configs : List MetadataConfig}
    (value : JsonValue)
    (h : items.mapM CreateSetAssetMetadataConfigSchema.parseEntry = some configs) :
    items.map (metadataEntry value) = configs.map fun c => (c.key, c.written value) := by
  induction items generalizing configs with
  | nil =>
    rw [List.mapM_nil] at h
    obtain rfl := Option.some.inj h
    rfl
  | cons raw items ih =>
    simp only [List.mapM_cons, Option.bind_eq_bind, Option.bind_eq_some_iff, Option.pure_def,
      Option.some.injEq] at h
    obtain ⟨config, hconfig, rest, hrest, rfl⟩ := h
    rw [List.map_cons, List.map_cons, metadataEntry_eq value hconfig, ih hrest]

theorem metadataEntries_eq (response : MetadataResponse) :
    metadataEntries response =
      (metadataConfigs response.config).map fun c => (c.key, c.written response.value) := by
  unfold metadataEntries metadataConfigs
  cases response.config with
  | none => rfl
  | some raw =>
    cases raw with
    | array items =>
      rw [Option.bind_some]
      cases hparse : CreateSetAssetMetadataConfigSchema.safeParse (.array items) with
      | none => simp [hparse]
      | some configs =>
        simp only [hparse, Option.isSome_some, if_true, Option.getD_some]
        exact map_metadataEntry response.value hparse
    | _ => rfl

end AssetsService

/-- The keys an answer sets: those its question's config names. -/
def MetadataResponse.keys (r : MetadataResponse) : List String :=
  (metadataConfigs r.config).map MetadataConfig.key

namespace AssetsService

theorem keys_newMetadata (responses : List MetadataResponse) :
    Entries.keys (newMetadata responses) = responses.flatMap MetadataResponse.keys := by
  unfold newMetadata Entries.keys
  rw [List.map_flatMap]
  apply List.flatMap_congr
  intro r _
  rw [metadataEntries_eq, List.map_map]
  rfl

theorem newMetadata_eq_nil_iff {responses : List MetadataResponse} :
    newMetadata responses = [] ↔ responses.flatMap MetadataResponse.keys = [] := by
  rw [← keys_newMetadata, Entries.keys, List.map_eq_nil_iff]

end AssetsService

end ShieldApi
