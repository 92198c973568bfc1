import ShieldApi.Lib.Fields
import ShieldApi.Products.QuestionSelection

/-!
# A metadata pair as one text

A condition on metadata holds its pair as one text, `key:value`. The query for questions puts the
pairs of an asset together in the same way and compares texts; `getMetadataKeys` and
`getMetadataValues` of `assets/assets/assets.service.ts` take the text apart again, with
`split_part`. The first field is the key, the second the value, **and what comes after is lost**.

So the three go together for pairs without a colon (`encodesFaithfully_iff`): with one in the value,
the value read back is cut short; with one in the key, so is the key; and with either, another
pair has the same text.
-/

set_option autoImplicit false

namespace ShieldApi

/-! ## 1. What conditions, configs, assets and products say of metadata -/

/-- A `SetAssetMetadataConfig`, with the options of its question. -/
structure SetAssetMetadataConfig where
  metadata : List MetadataConfig
  selectOptions : Option (List SelectOption) := none

/-- The tables the two queries read, as the caller sees them. Metadata of assets and products are
    records of texts. -/
structure MetadataTables where
  conditions : List AssetQuestionCondition := []
  setAssetMetadataConfigs : List SetAssetMetadataConfig := []
  assets : List (List (String × String)) := []
  products : List (List (String × String)) := []

/-- `split_part(s, ':', n)`. -/
def splitPart (s : String) (n : Nat) : String := ((fieldsOf ':' s)[n - 1]?).getD ""

namespace AssetsService

/-- The texts of the conditions on metadata. -/
def conditionPairs (t : MetadataTables) : List String :=
  (t.conditions.filter (·.conditionType = .metadata)).flatMap (·.value)

def conditionMetadataKeys (t : MetadataTables) : List String :=
  ((conditionPairs t).map (splitPart · 1)).dedup

def setAssetMetadataKeys (t : MetadataTables) : List String :=
  ((t.setAssetMetadataConfigs.flatMap (·.metadata)).map (·.key)).dedup

def metadataKeys (rows : List (List (String × String))) : List String :=
  (rows.flatMap Entries.keys).dedup

/-- The keys, each query's in whatever order. -/
def getMetadataKeys (t : MetadataTables) : List String :=
  (conditionMetadataKeys t ++ setAssetMetadataKeys t ++ metadataKeys t.assets ++
    metadataKeys t.products).dedup

def conditionMetadataValues (t : MetadataTables) (key : String) : List String :=
  (((conditionPairs t).filter (splitPart · 1 = key)).map (splitPart · 2)).dedup

/-- The options of a question for each entry of its config that has the key. -/
def questionOptionValues (t : MetadataTables) (key : String) : List String :=
  (t.setAssetMetadataConfigs.flatMap fun config =>
    (config.metadata.filter (·.key = key)).flatMap fun _ =>
      (config.selectOptions.getD []).map (·.value)).dedup

def setAssetMetadataValues (t : MetadataTables) (key : String) : List String :=
  (((t.setAssetMetadataConfigs.flatMap (·.metadata)).filter (·.key = key)).filterMap
    fun entry => truthy entry.value).dedup

def metadataValues (rows : List (List (String × String))) (key : String) : List String :=
  (rows.filterMap (Entries.get? · key)).dedup

def getMetadataValues (t : MetadataTables) (key : String) : List String :=
  ((conditionMetadataValues t key ++ questionOptionValues t key ++ setAssetMetadataValues t key ++
    metadataValues t.assets key ++ metadataValues t.products key).filter (· ≠ "")).dedup

end AssetsService

/-! ## 2. A condition for a pair -/

open AssetQuestionsService AssetsService

/-- A condition on metadata with the one pair. -/
def pairCondition (id assetQuestionId k v : String) : AssetQuestionCondition where
  id
  assetQuestionId
  conditionType := .metadata
  value := [k ++ ":" ++ v]

def MetadataTables.withCondition (t : MetadataTables) (c : AssetQuestionCondition) :
    MetadataTables :=
  { t with conditions := t.conditions ++ [c] }

/-- All metadata of the asset and its product are texts. -/
def OfTexts (asset : QuestionedAsset) : Prop :=
  ∀ k v, HasMetadata asset k v → ∃ s, v = .text s

/-- The condition asks for the pair, and both are read back from it. -/
structure EncodesFaithfully (k v : String) : Prop where
  asks : ∀ id assetQuestionId js asset, OfTexts asset →
    (orWhereClauses js asset).any (·.holds (pairCondition id assetQuestionId k v)) = true →
      HasMetadata asset k (.text v)
  keys : ∀ id assetQuestionId t key,
    key ∈ getMetadataKeys (t.withCondition (pairCondition id assetQuestionId k v)) ↔
      key ∈ getMetadataKeys t ∨ key = k
  values : ∀ id assetQuestionId t value,
    value ∈ getMetadataValues (t.withCondition (pairCondition id assetQuestionId k v)) k ↔
      value ∈ getMetadataValues t k ∨ value = v

section Pairs

variable {id assetQuestionId k v : String} {t : MetadataTables}

theorem pairSep : (":" : String).toList = [':'] := rfl

/-! ### What is read back -/

theorem splitPart_one (k v : String) : splitPart (k ++ ":" ++ v) 1 = splitPart k 1 := by
  unfold splitPart
  rw [fieldsOf_append pairSep, Nat.sub_self, fieldsOf_append_zero]

theorem splitPart_one_eq_self_iff : splitPart k 1 = k ↔ ':' ∉ k.toList := by
  rw [← fieldsOf_zero_eq_self_iff]
  unfold splitPart
  obtain ⟨field, fields, hfields⟩ := List.exists_cons_of_ne_nil (fieldsOf_ne_nil ':' k)
  simp [hfields]

/-- After a key without a colon comes the first field of the value. -/
theorem splitPart_two (hk : ':' ∉ k.toList) : splitPart (k ++ ":" ++ v) 2 = splitPart v 1 := by
  unfold splitPart
  rw [fieldsOf_append pairSep, fieldsOf_of_not_mem hk]
  rfl

theorem conditionPairs_withCondition : conditionPairs (t.withCondition
    (pairCondition id assetQuestionId k v)) = conditionPairs t ++ [k ++ ":" ++ v] := by
  unfold conditionPairs MetadataTables.withCondition
  simp [pairCondition]

/-- The other queries do not read conditions. -/
@[simp] theorem setAssetMetadataKeys_withCondition (c : AssetQuestionCondition) :
    setAssetMetadataKeys (t.withCondition c) = setAssetMetadataKeys t := rfl

@[simp] theorem setAssetMetadataValues_withCondition (c : AssetQuestionCondition) (key : String) :
    setAssetMetadataValues (t.withCondition c) key = setAssetMetadataValues t key := rfl

@[simp] theorem questionOptionValues_withCondition (c : AssetQuestionCondition) (key : String) :
    questionOptionValues (t.withCondition c) key = questionOptionValues t key := rfl

@[simp] theorem withCondition_assets (c : AssetQuestionCondition) :
    (t.withCondition c).assets = t.assets := rfl

@[simp] theorem withCondition_products (c : AssetQuestionCondition) :
    (t.withCondition c).products = t.products := rfl

/-- The key that is read back is the first field. -/
theorem mem_getMetadataKeys_withCondition {key : String} :
    key ∈ getMetadataKeys (t.withCondition (pairCondition id assetQuestionId k v)) ↔
      key ∈ getMetadataKeys t ∨ key = splitPart k 1 := by
  unfold getMetadataKeys conditionMetadataKeys
  rw [conditionPairs_withCondition, List.map_append, List.map_singleton, splitPart_one]
  simp only [List.mem_dedup, List.mem_append, List.mem_singleton,
    setAssetMetadataKeys_withCondition, withCondition_assets, withCondition_products]
  tauto

theorem mem_conditionMetadataValues_withCondition {value : String} :
    value ∈ conditionMetadataValues (t.withCondition (pairCondition id assetQuestionId k v)) k ↔
      value ∈ conditionMetadataValues t k ∨
        splitPart k 1 = k ∧ value = splitPart (k ++ ":" ++ v) 2 := by
  unfold conditionMetadataValues
  rw [conditionPairs_withCondition, List.filter_append, List.map_append, List.filter_singleton,
    splitPart_one, List.mem_dedup, List.mem_append, List.mem_dedup]
  by_cases hk : splitPart k 1 = k
  · simp [hk]
  · simp [hk]

/-- The value that is read back for the key is the second field, unless it is empty. -/
theorem mem_getMetadataValues_withCondition {value : String} :
    value ∈ getMetadataValues (t.withCondition (pairCondition id assetQuestionId k v)) k ↔
      value ∈ getMetadataValues t k ∨
        (splitPart k 1 = k ∧ value = splitPart (k ++ ":" ++ v) 2) ∧ value ≠ "" := by
  unfold getMetadataValues
  simp only [List.mem_dedup, List.mem_append, List.mem_filter, decide_eq_true_eq,
    mem_conditionMetadataValues_withCondition, setAssetMetadataValues_withCondition,
    questionOptionValues_withCondition, withCondition_assets, withCondition_products]
  tauto

theorem reads_key_iff : (∀ id assetQuestionId t key,
    key ∈ getMetadataKeys (t.withCondition (pairCondition id assetQuestionId k v)) ↔
      key ∈ getMetadataKeys t ∨ key = k) ↔ ':' ∉ k.toList := by
  simp only [mem_getMetadataKeys_withCondition]
  rw [← splitPart_one_eq_self_iff]
  constructor
  · intro h
    -- no key at all is known but the one of the condition
    have hone := (h "" "" {} (splitPart k 1)).mp (.inr rfl)
    exact hone.resolve_left (by simp [getMetadataKeys, conditionMetadataKeys, conditionPairs,
      setAssetMetadataKeys, metadataKeys])
  · intro h _ _ t key
    rw [h]

theorem reads_value_iff (hk : ':' ∉ k.toList) : (∀ id assetQuestionId t value,
    value ∈ getMetadataValues (t.withCondition (pairCondition id assetQuestionId k v)) k ↔
      value ∈ getMetadataValues t k ∨ value = v) ↔ ':' ∉ v.toList ∧ v ≠ "" := by
  simp only [mem_getMetadataValues_withCondition, splitPart_two hk,
    splitPart_one_eq_self_iff.mpr hk, true_and]
  constructor
  · intro h
    have hnone : v ∉ getMetadataValues {} k := by
      simp [getMetadataValues, conditionMetadataValues, conditionPairs, questionOptionValues,
        setAssetMetadataValues, metadataValues]
    obtain ⟨hv, hne⟩ := ((h "" "" {} v).mpr (.inr rfl)).resolve_left hnone
    exact ⟨splitPart_one_eq_self_iff.mp hv.symm, hne⟩
  · intro h _ _ t value
    obtain ⟨hv, hne⟩ := h
    rw [splitPart_one_eq_self_iff.mpr hv]
    refine or_congr_right ⟨And.left, fun heq => ⟨heq, heq ▸ hne⟩⟩

/-! ### What is asked for -/

theorem holds_pairCondition {js : JsText} {asset : QuestionedAsset} :
    (orWhereClauses js asset).any (·.holds (pairCondition id assetQuestionId k v)) = true ↔
      ∃ k' v', HasMetadata asset k' v' ∧ keyPair js k' v' = k ++ ":" ++ v := by
  rw [clauses_any_iff]
  unfold Met pairCondition
  simp only [List.mem_singleton, exists_eq_left, HasValue]

/-- A pair without a colon is asked for alone. -/
theorem asks_of_plain (hk : ':' ∉ k.toList) (hv : ':' ∉ v.toList) {js : JsText}
    {asset : QuestionedAsset} (htexts : OfTexts asset)
    (h : (orWhereClauses js asset).any (·.holds (pairCondition id assetQuestionId k v)) = true) :
    HasMetadata asset k (.text v) := by
  obtain ⟨k', v', hhas, hpair⟩ := holds_pairCondition.mp h
  obtain ⟨s, rfl⟩ := htexts k' v' hhas
  rcases (join_eq_iff pairSep).mp hpair with ⟨rfl, rfl⟩ | hrecut | hrecut
  · exact hhas
  · exact absurd (hrecut.mem pairSep).2 hk
  · exact absurd (hrecut.mem pairSep).1 hv

/-- **Where the text of a pair stands for the pair.** -/
theorem encodesFaithfully_iff (k v : String) :
    EncodesFaithfully k v ↔ ':' ∉ k.toList ∧ ':' ∉ v.toList ∧ v ≠ "" := by
  constructor
  · intro h
    have hk := reads_key_iff.mp h.keys
    exact ⟨hk, (reads_value_iff hk).mp h.values⟩
  · intro h
    obtain ⟨hk, hv, hne⟩ := h
    exact {
      asks := fun _ _ _ _ htexts hholds => asks_of_plain hk hv htexts hholds
      keys := reads_key_iff.mpr hk
      values := (reads_value_iff hk).mpr ⟨hv, hne⟩ }

end Pairs

/-! ## 3. A web address -/

/-- An asset whose key holds a colon. -/
def colonAsset : QuestionedAsset where
  metadata := some (.object [("url:http", .text "//shield.org")])

/-- The address is cut short, and another pair is taken for it. -/
theorem webAddress_misread :
    getMetadataValues { conditions := [pairCondition "c" "q" "url" "http://shield.org"] } "url" =
      ["http"] ∧
    (orWhereClauses {} colonAsset).any
      (·.holds (pairCondition "c" "q" "url" "http://shield.org")) = true ∧
    ¬ HasMetadata colonAsset "url" (.text "http://shield.org") ∧
    ¬ EncodesFaithfully "url" "http://shield.org" := by
  have hread : getMetadataValues
      { conditions := [pairCondition "c" "q" "url" "http://shield.org"] } "url" = ["http"] := by
    decide
  have hholds : (orWhereClauses {} colonAsset).any
      (·.holds (pairCondition "c" "q" "url" "http://shield.org")) = true := by
    decide
  have hno : ¬ HasMetadata colonAsset "url" (.text "http://shield.org") := by
    intro h
    obtain ⟨fields, hfields | ⟨product, hproduct, -⟩, hv⟩ := h
    · obtain rfl := JsonValue.object.inj (Option.some.inj hfields)
      exact (nomatch hv)
    · exact (nomatch hproduct)
  have htexts : OfTexts colonAsset := by
    intro k v h
    obtain ⟨fields, hfields | ⟨product, hproduct, -⟩, hv⟩ := h
    · obtain rfl := JsonValue.object.inj (Option.some.inj hfields)
      obtain ⟨-, rfl⟩ := Prod.mk.inj (List.mem_singleton.mp (Entries.mem_of_get? hv))
      exact ⟨_, rfl⟩
    · exact (nomatch hproduct)
  exact ⟨hread, hholds, hno, fun h => hno (h.asks "c" "q" {} colonAsset htexts hholds)⟩

end ShieldApi
