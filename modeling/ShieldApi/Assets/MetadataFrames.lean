import ShieldApi.Assets.Configuration
import ShieldApi.Lib.Runs

/-!
# What an answer leaves of the metadata

`configure`, `setup` and `InspectionsService.create` end in `handleSetMetadataFromConfigs`, which
should write the keys its answers set and leave the others as they are. It merges into the metadata
it reads through the schema of asset creation, and an answer may be a number or pictures, which that
schema refuses. **So the first such answer that is written makes the next one erase everything
else** (`numberAnswer_erases`). Besides, `configure` and `create` merge into what they read before the
transaction's first write; what another call wrote since is taken back.

A step keeps the other keys exactly if it writes nothing, or what it read is a record of texts
(or nothing else was there) and the other keys are still what it read (`metadataFramed_iff`).
-/

set_option autoImplicit false

namespace ShieldApi

/-! ## 1. Calls on an asset -/

/-- An asset's metadata, and what the calls under way have found there. -/
structure MetadataState where
  metadata : Option JsonValue := none
  found : Nat → Option (Option JsonValue) := fun _ => none

inductive MetadataStep
  /-- `configure` finds the asset, or `create` gets it with the inspection. -/
  | find (call : Nat)
  /-- The call handles its answers. -/
  | handle (call : Nat) (responses : List MetadataResponse)
  /-- `setup`, whose first update holds the row until it is done. -/
  | setup (responses : List MetadataResponse)

namespace MetadataState

/-- What a step handles: the metadata it goes by, and the answers. -/
def handled (s : MetadataState) :
    MetadataStep → Option (Option JsonValue × List MetadataResponse)
  | .find _ => none
  | .handle call responses => (s.found call).map (·, responses)
  | .setup responses => some (s.metadata, responses)

def step (s : MetadataState) (l : MetadataStep) : MetadataState :=
  match l with
  | .find call => { s with found := fun c => if c = call then some s.metadata else s.found c }
  | l =>
    match s.handled l with
    | some (found, responses) =>
      { s with metadata := (AssetsService.handleSetMetadataFromConfigs found responses).or s.metadata }
    | none => s

end MetadataState

/-- The value of a key. -/
def metadataOf (metadata : Option JsonValue) (key : String) : Option JsonValue :=
  metadata.bind (JsonValue.property? key)

namespace MetadataState

/-- The step changes no key but those its answers name. -/
def Framed (s : MetadataState) (l : MetadataStep) : Prop :=
  ∀ found responses, s.handled l = some (found, responses) →
    ∀ k, k ∉ responses.flatMap MetadataResponse.keys →
      metadataOf (s.step l).metadata k = metadataOf s.metadata k

/-- What was found is a record of texts, and the keys that are not named are what was found;
    or it is none, and there are no such keys. -/
def StillFound (found metadata : Option JsonValue) (named : List String) : Prop :=
  match metadataSchemaData found with
  | some fields => ∀ k, k ∉ named → Entries.get? fields k = metadataOf metadata k
  | none => ∀ k, k ∉ named → metadataOf metadata k = none

/-- The step may handle its answers. -/
def MayHandle (s : MetadataState) (l : MetadataStep) : Prop :=
  ∀ found responses, s.handled l = some (found, responses) →
    responses.flatMap MetadataResponse.keys = [] ∨
      StillFound found s.metadata (responses.flatMap MetadataResponse.keys)

/-! ## 2. One step -/

variable {s : MetadataState} {l : MetadataStep}

theorem metadata_step {found : Option JsonValue} {responses : List MetadataResponse}
    (h : s.handled l = some (found, responses)) : (s.step l).metadata =
      (AssetsService.handleSetMetadataFromConfigs found responses).or s.metadata := by
  cases l with
  | find call => cases h
  | handle call responses' => simp only [step, h]
  | setup responses' => simp only [step, h]

/-- The value of a key that no answer names, after answers were handled. -/
theorem metadataOf_handled {found metadata : Option JsonValue} {responses : List MetadataResponse}
    {k : String} (hk : k ∉ responses.flatMap MetadataResponse.keys) :
    metadataOf ((AssetsService.handleSetMetadataFromConfigs found responses).or metadata) k =
      if responses.flatMap MetadataResponse.keys = [] then metadataOf metadata k
      else Entries.get? ((metadataSchemaData found).getD []) k := by
  unfold AssetsService.handleSetMetadataFromConfigs
  simp only [AssetsService.newMetadata_eq_nil_iff]
  by_cases hnone : responses.flatMap MetadataResponse.keys = []
  · rw [if_pos hnone, if_pos hnone, Option.none_or]
  · rw [if_neg hnone, if_neg hnone, Option.some_or]
    rw [← AssetsService.keys_newMetadata] at hk
    exact Entries.get?_append_of_not_mem hk

theorem framed_iff : s.Framed l ↔ s.MayHandle l := by
  unfold Framed MayHandle
  apply forall₂_congr
  intro found responses
  apply forall_congr'
  intro hhandled
  rw [metadata_step hhandled]
  constructor
  · intro hframed
    by_cases hnone : responses.flatMap MetadataResponse.keys = []
    · exact .inl hnone
    · refine .inr ?_
      have hget : ∀ k, k ∉ responses.flatMap MetadataResponse.keys →
          Entries.get? ((metadataSchemaData found).getD []) k = metadataOf s.metadata k := by
        intro k hk
        have hkept := hframed k hk
        rwa [metadataOf_handled hk, if_neg hnone] at hkept
      unfold StillFound
      cases hdata : metadataSchemaData found with
      | some fields =>
        rw [hdata] at hget
        exact hget
      | none =>
        rw [hdata] at hget
        exact fun k hk => (hget k hk).symm
  · intro hmay k hk
    rw [metadataOf_handled hk]
    split
    · rfl
    · next hsome =>
      have hstill := hmay.resolve_left hsome
      unfold StillFound at hstill
      cases hdata : metadataSchemaData found with
      | some fields =>
        rw [hdata] at hstill
        exact hstill k hk
      | none =>
        rw [hdata] at hstill
        exact (hstill k hk).symm

/-- Where nobody wrote since the metadata was found, the condition is about that metadata alone. -/
theorem stillFound_self_iff {metadata : Option JsonValue} {named : List String} :
    StillFound metadata metadata named ↔ (metadataSchemaData metadata).isSome = true ∨
      ∀ k, k ∉ named → metadataOf metadata k = none := by
  unfold StillFound
  cases hdata : metadataSchemaData metadata with
  | none => simp
  | some fields =>
    refine iff_of_true (fun k _ => ?_) (.inl rfl)
    unfold metadataSchemaData at hdata
    split at hdata
    · next fields' =>
      split at hdata
      · rw [← Option.some.inj hdata]
        rfl
      · cases hdata
    · cases hdata

end MetadataState

/-- **In a run of the three services each step leaves the other keys alone exactly if it may handle
    its answers** by what it found. -/
theorem metadataFramed_iff (s : MetadataState) (run : List MetadataStep) :
    (∀ u l, Fired MetadataState.step s run u l → u.Framed l) ↔
      ∀ u l, Fired MetadataState.step s run u l → u.MayHandle l :=
  fired_iff_fired (I := fun _ => True) trivial (fun _ _ _ _ => trivial)
    fun _ _ _ _ => MetadataState.framed_iff

/-! ## 3. Answers that are texts -/

/-- Whatever is there is a text. -/
def TextMetadata (metadata : Option JsonValue) : Prop :=
  ∀ k v, metadataOf metadata k = some v → ∃ s, v = .text s

def MetadataResponse.IsText (r : MetadataResponse) : Prop := ∃ s, r.value = .text s

/-- The schema takes it, or there is nothing to take. -/
theorem TextMetadata.data_or_empty {metadata : Option JsonValue} (h : TextMetadata metadata) :
    (metadataSchemaData metadata).isSome = true ∨ ∀ k, metadataOf metadata k = none := by
  cases metadata with
  | none => exact .inr fun _ => rfl
  | some v =>
    cases v with
    | object fields =>
      refine .inl ?_
      have hrecord : isTextRecord fields = true := isTextRecord_iff.mpr h
      rw [metadataSchemaData, if_pos hrecord]
      rfl
    | _ => exact .inr fun _ => rfl

theorem text_of_mem_newMetadata {responses : List MetadataResponse}
    (htext : ∀ r ∈ responses, r.IsText) {k : String} {v : JsonValue}
    (h : (k, v) ∈ AssetsService.newMetadata responses) : ∃ s, v = .text s := by
  obtain ⟨r, hr, hmem⟩ := List.mem_flatMap.mp h
  rw [AssetsService.metadataEntries_eq] at hmem
  obtain ⟨c, -, hc⟩ := List.mem_map.mp hmem
  rw [← (Prod.mk.inj hc).2]
  unfold MetadataConfig.written
  cases c.type with
  | static => exact ⟨_, rfl⟩
  | dynamic => exact htext r hr

/-- Answers that are texts leave texts. -/
theorem TextMetadata.handled {found metadata : Option JsonValue} {responses : List MetadataResponse}
    (hmetadata : TextMetadata metadata) (htext : ∀ r ∈ responses, r.IsText) :
    TextMetadata
      ((AssetsService.handleSetMetadataFromConfigs found responses).or metadata) := by
  unfold AssetsService.handleSetMetadataFromConfigs
  by_cases hnone : AssetsService.newMetadata responses = []
  · simp only [if_pos hnone, Option.none_or]
    exact hmetadata
  · simp only [if_neg hnone, Option.some_or]
    intro k v hv
    have hget : Entries.get? ((metadataSchemaData found).getD [] ++
        AssetsService.newMetadata responses) k = some v := hv
    rw [Entries.get?_append, Option.or_eq_some_iff] at hget
    rcases hget with hnew | ⟨-, hold⟩
    · exact text_of_mem_newMetadata htext (Entries.mem_of_get? hnew)
    · -- what was taken over is a record of texts, or nothing
      unfold metadataSchemaData at hold
      split at hold
      · split at hold
        · next hrecord => exact isTextRecord_iff.mp hrecord k v hold
        · cases hold
      · cases hold

namespace MetadataState

/-- The answers of the step are texts, and no other call wrote since its asset was found. -/
def Undisturbed (s : MetadataState) (l : MetadataStep) : Prop :=
  ∀ found responses, s.handled l = some (found, responses) →
    found = s.metadata ∧ ∀ r ∈ responses, r.IsText

/-- **Answers that are texts, handled one call after the other, leave the other keys alone.** -/
theorem framed_of_undisturbed {s : MetadataState} (htext : TextMetadata s.metadata)
    {run : List MetadataStep}
    (hrun : ∀ u l, Fired step s run u l → u.Undisturbed l) {u : MetadataState} {l : MetadataStep}
    (hfired : Fired step s run u l) : u.Framed l := by
  have hkept : TextMetadata u.metadata := by
    refine Reached.invariant_fired (I := fun v => TextMetadata v.metadata) htext
      (fun v k hv htextv => ?_) hfired.reached
    cases hhandled : v.handled k with
    | none =>
      have hsame : (v.step k).metadata = v.metadata := by
        cases k with
        | find call => rfl
        | handle call responses => simp only [step, hhandled]
        | setup responses => cases hhandled
      rw [hsame]
      exact htextv
    | some handled =>
      obtain ⟨found, responses⟩ := handled
      rw [metadata_step hhandled]
      exact htextv.handled ((hrun v k hv) found responses hhandled).2
  refine framed_iff.mpr fun found responses hhandled => .inr ?_
  obtain ⟨rfl, -⟩ := hrun u l hfired found responses hhandled
  rw [stillFound_self_iff]
  exact hkept.data_or_empty.imp_right fun hempty k _ => hempty k

end MetadataState

/-! ## 4. A number among the metadata -/

/-- The capacity is set up as a number, and the color is configured. -/
def capacityThenColor : List MetadataStep :=
  [.setup [{ config := some (dynamicConfig "capacity"), value := (ResponseValue.number 5).json }],
   .find 0,
   .handle 0 [{ config := some (dynamicConfig "color"), value := (ResponseValue.text "red").json }]]

/-- The serial and the capacity are gone after the color was set. -/
theorem numberAnswer_erases :
    let s : MetadataState := { metadata := some (.object [("serial", .text "x")]) }
    (∃ u l, Fired MetadataState.step s capacityThenColor u l ∧ ¬ u.Framed l) ∧
      metadataOf (capacityThenColor.foldl MetadataState.step s).metadata "serial" = none ∧
      metadataOf (capacityThenColor.foldl MetadataState.step s).metadata "capacity" = none := by
  refine ⟨⟨_, _, .inr (.inr (.inl ⟨rfl, rfl⟩)), fun hframed => ?_⟩, rfl, rfl⟩
  have hkept := hframed _ _ rfl "serial" (by decide)
  cases hkept

end ShieldApi
