import ShieldApi.Assets.Configuration
import ShieldApi.Lib.AwaitAll
import ShieldApi.Lib.GetOrCreate

/-!
# The consumables of a setup

`setup` of `assets/assets/assets.service.ts`, with `handleConsumableConfig` of
`assets/consumables/consumables.service.ts`. An answer to a setup question may say when a
consumable of the asset expires. Each of these answers looks for the consumable, and writes the one
it found or creates one; all of them do so at once.

**Two answers about one consumable both look before either creates it**
(`setup_onePerProduct_iff`). Where the asset has a row already this does no harm: no answer creates a
second one. Where it has none, there is a run that leaves two.

The tables are those the caller sees.
-/

set_option autoImplicit false

namespace ShieldApi

open Effect Process

/-! ## 1. Tables -/

inductive ConsumableMappingType
  | expirationDate
  deriving DecidableEq, Repr

structure ConsumableQuestionConfig where
  consumableProductId : String
  mappingType : ConsumableMappingType
  deriving DecidableEq, Repr

/-- An `AssetQuestion` with its two configs. -/
structure SetupQuestion where
  id : String
  type : AssetQuestionType
  consumableConfig : Option ConsumableQuestionConfig := none
  /-- `setAssetMetadataConfig.metadata`. -/
  setAssetMetadataConfig : Option JsonValue := none

/-- An `AssetQuestionResponse`. -/
structure SetupResponse where
  id : String
  value : JsonValue
  originalPrompt : String
  assetQuestionId : String
  assetId : Option String := none

structure Consumable where
  id : String
  assetId : Option String := none
  productId : String
  expiresOn : Option Int := none
  quantity : Nat := 1
  deriving DecidableEq, Repr

structure SetupAsset where
  id : String
  setupOn : Option Nat := none
  metadata : Option JsonValue := none

structure SetupWorld where
  assets : Table SetupAsset String SetupAsset.id := ∅
  questions : Table SetupQuestion String SetupQuestion.id := ∅
  responses : Table SetupResponse String SetupResponse.id := ∅
  consumables : Table Consumable String Consumable.id := ∅

abbrev SetupApi := Effect SetupWorld ApiError

/-- An answer of the request, by `CreateAssetQuestionResponseSchema`. -/
structure CreateSetupResponse where
  value : ResponseValue
  originalPrompt : String
  assetQuestionId : String

/-- A response with its question. -/
structure IncludedResponse where
  response : SetupResponse
  assetQuestion : SetupQuestion

structure SetupEnv where
  now : Nat := 0
  ids : FreshIds := .longer
  responseOrder : RowOrder SetupResponse := .insertion _
  consumableOrder : RowOrder Consumable := .insertion _
  /-- `new Date(value)`; none if it is not a date. -/
  newDate : JsonValue → Option Int := fun _ => none

/-- The product the answer says something about. -/
def IncludedResponse.productId? (r : IncludedResponse) : Option String :=
  r.assetQuestion.consumableConfig.map (·.consumableProductId)

/-- The row has these two keys. -/
def Consumable.isOf (assetId productId : String) (c : Consumable) : Bool :=
  c.assetId = some assetId && c.productId = productId

/-! ## 2. One answer -/

namespace ConsumablesService

/-- The time, if it is one. -/
def mapResponseToConsumable (env : SetupEnv) (value : JsonValue) :
    ConsumableMappingType → Option Int
  | .expirationDate => env.newDate value

/-- `consumable.findFirst`. -/
def findConsumable (env : SetupEnv) (assetId productId : String) (w : SetupWorld) : Option String :=
  (env.consumableOrder.findFirst (Consumable.isOf assetId productId) w.consumables.rows).map (·.id)

/-- `consumable.update`, of a row by its id. -/
def updateConsumable (id : String) (expiresOn : Int) (w : SetupWorld) : SetupWorld :=
  { w with
    consumables := w.consumables.updateMany (·.id = id)
      (fun c => { c with expiresOn := some expiresOn }) fun _ => rfl }

/-- `consumable.create`. -/
def createConsumable (env : SetupEnv) (assetId productId : String) (expiresOn : Int)
    (w : SetupWorld) : SetupWorld :=
  { w with
    consumables := (w.consumables.create env.ids (fun id =>
      { id := id
        assetId := some assetId
        productId := productId
        expiresOn := some expiresOn }) fun _ => rfl).1 }

def invalidExpiresOn : ApiError :=
  .error "Invalid value for argument `expiresOn`: Provided Date object is invalid. Expected Date."

/-- The second query. A date that is none is refused before it is sent. -/
def storeConsumable (env : SetupEnv) (assetId : String) (consumableConfig : ConsumableQuestionConfig)
    (value : JsonValue) (existingConsumable : Option String) : SetupApi Unit :=
  attempt fun w =>
    match mapResponseToConsumable env value consumableConfig.mappingType with
    | none => .error invalidExpiresOn
    | some expiresOn =>
      match existingConsumable with
      | some id =>
        if (w.consumables.find? id).isSome then .ok ((), updateConsumable id expiresOn w)
        else .error .recordNotFound
      | none =>
        .ok ((), createConsumable env assetId consumableConfig.consumableProductId expiresOn w)

def handleConsumableConfig (env : SetupEnv) (response : IncludedResponse) (assetId : String) :
    Process SetupWorld Unit ApiError Unit :=
  match response.assetQuestion.consumableConfig with
  | none => pure ()
  | some consumableConfig => do
    let existingConsumable ←
      atomically () (query (findConsumable env assetId consumableConfig.consumableProductId))
    atomically () (storeConsumable env assetId consumableConfig response.response.value
      existingConsumable)

end ConsumablesService

/-! ## 3. The setup -/

namespace AssetsService

/-- The answers to setup questions with a config. -/
def consumableResponses (setupQuestionResponses : List IncludedResponse) : List IncludedResponse :=
  (setupQuestionResponses.filter fun r =>
    r.assetQuestion.type = .setupAndInspection || r.assetQuestion.type = .setup).filter
      fun r => r.assetQuestion.consumableConfig.isSome

/-- The calls at their beginning. -/
def consumablePool (env : SetupEnv) (assetId : String) (calls : List IncludedResponse)
    (w : SetupWorld) : Pool Nat SetupWorld Unit ApiError Unit where
  store := w
  process i :=
    match calls[i]? with
    | some r => ConsumablesService.handleConsumableConfig env r assetId
    | none => pure ()

/-- The calls at their await points in the order of the schedule, as far as it goes, and what they
    still have to do after it: two steps each, at most. -/
def handleConsumableConfigs (env : SetupEnv) (schedule : List Nat) (assetId : String)
    (setupQuestionResponses : List IncludedResponse) : SetupApi Unit :=
  let calls := consumableResponses setupQuestionResponses
  let round := List.range calls.length
  attempt fun w =>
    ((consumablePool env assetId calls w).all (schedule ++ (round ++ round))).map fun w' => ((), w')

def createResponse (env : SetupEnv) (assetId : String)
    (t : Table SetupResponse String SetupResponse.id) (r : CreateSetupResponse) :
    Table SetupResponse String SetupResponse.id × SetupResponse :=
  t.create env.ids (fun id =>
    { id := id
      value := r.value.json
      originalPrompt := r.originalPrompt
      assetQuestionId := r.assetQuestionId
      assetId := some assetId }) fun _ => rfl

/-- `createMany` of the answers. Each of them names a question. -/
def createResponses (env : SetupEnv) (assetId : String) (data : List CreateSetupResponse)
    (w : SetupWorld) : Except ApiError SetupWorld :=
  if data.all fun r => (w.questions.find? r.assetQuestionId).isSome then
    .ok { w with
      responses := data.foldl (fun t r => (createResponse env assetId t r).1) w.responses }
  else .error .foreignKeyConstraint

/-- `asset.update` of an asset that is not set up. -/
def updateSetupOn (env : SetupEnv) (id : String) (data : List CreateSetupResponse) :
    SetupApi SetupAsset :=
  attempt fun w =>
    match (w.assets.find? id).filter (·.setupOn.isNone) with
    | none => .error .recordNotFound
    | some asset => do
      let change : SetupAsset → SetupAsset := fun a => { a with setupOn := some env.now }
      let w ← createResponses env id data w
      return (change asset, { w with
        assets := w.assets.updateMany (·.id = id) change fun _ => rfl })

/-- All of the asset's responses, each with its question. -/
def includedResponses (env : SetupEnv) (id : String) (w : SetupWorld) : List IncludedResponse :=
  (env.responseOrder.findMany (·.assetId = some id) w.responses.rows).filterMap fun r =>
    (w.questions.find? r.assetQuestionId).map fun q => { response := r, assetQuestion := q }

/-- `asset.update` of the metadata, where the answers set any. -/
def updateMetadata (asset : SetupAsset) (responses : List IncludedResponse) (w : SetupWorld) :
    SetupWorld :=
  match handleSetMetadataFromConfigs asset.metadata (responses.map fun r =>
      { config := r.assetQuestion.setAssetMetadataConfig, value := r.response.value }) with
  | none => w
  | some metadata =>
    { w with
      assets := w.assets.updateMany (·.id = asset.id) (fun a => { a with metadata := some metadata })
        fun _ => rfl }

def setup (env : SetupEnv) (schedule : List Nat) (id : String)
    (data : List CreateSetupResponse) : SetupApi SetupAsset :=
  rethrow as404OrThrow (transaction do
    let asset ← updateSetupOn env id data
    let setupQuestionResponses ← query (includedResponses env id)
    let _ ← handleConsumableConfigs env schedule asset.id setupQuestionResponses
    let _ ← write (updateMetadata asset setupQuestionResponses)
    pure asset)

end AssetsService

/-! ## 4. The calls as phases

What a call has done so far says what it still has to do. The pool is followed by what each call
has done. -/

namespace ConsumablesService

inductive Phase
  | asking
  | storing (existingConsumable : Option String)
  | returned (result : Except ApiError Unit)

variable (env : SetupEnv) (assetId : String)

/-- What a call in this phase has before it. -/
def Phase.process (r : IncludedResponse) (phase : Phase) : Process SetupWorld Unit ApiError Unit :=
  match r.assetQuestion.consumableConfig with
  | none => pure ()
  | some config =>
    match phase with
    | .asking => handleConsumableConfig env r assetId
    | .storing existing =>
      atomically () (storeConsumable env assetId config r.response.value existing)
    | .returned result => .done result

/-- The next step of a call. -/
def advance (calls : List IncludedResponse) (m : (Nat → Phase) × SetupWorld) (i : Nat) :
    (Nat → Phase) × SetupWorld :=
  match calls[i]? with
  | none => m
  | some r =>
    match r.assetQuestion.consumableConfig with
    | none => m
    | some config =>
      match m.1 i with
      | .asking =>
        (Function.update m.1 i (.storing (findConsumable env assetId config.consumableProductId m.2)),
          m.2)
      | .storing existing =>
        let stored := (storeConsumable env assetId config r.response.value existing).run m.2
        (Function.update m.1 i (.returned stored.1), stored.2)
      | .returned _ => m

def poolOf (calls : List IncludedResponse) (m : (Nat → Phase) × SetupWorld) :
    Pool Nat SetupWorld Unit ApiError Unit where
  store := m.2
  process i :=
    match calls[i]? with
    | some r => (m.1 i).process env assetId r
    | none => pure ()

variable {env assetId} {calls : List IncludedResponse} {m : (Nat → Phase) × SetupWorld} {i : Nat}
  {r : IncludedResponse} {config : ConsumableQuestionConfig}

theorem process_asking (r : IncludedResponse) :
    Phase.asking.process env assetId r = handleConsumableConfig env r assetId := by
  unfold Phase.process handleConsumableConfig
  cases r.assetQuestion.consumableConfig <;> rfl

theorem poolOf_asking (w : SetupWorld) :
    poolOf env assetId calls (fun _ => .asking, w) =
      AssetsService.consumablePool env assetId calls w := by
  have hprocess : ∀ i, (poolOf env assetId calls (fun _ => .asking, w)).process i
      = (AssetsService.consumablePool env assetId calls w).process i := by
    intro i
    unfold poolOf AssetsService.consumablePool
    dsimp only
    cases calls[i]? with
    | none => rfl
    | some r => exact process_asking r
  exact congrArg (Pool.mk w) (funext hprocess)

/-- With a config, a call looks and then stores. -/
theorem handleConsumableConfig_eq (hconfig : r.assetQuestion.consumableConfig = some config) :
    handleConsumableConfig env r assetId = .step () id fun w =>
      atomically () (storeConsumable env assetId config r.response.value
        (findConsumable env assetId config.consumableProductId w)) := by
  unfold handleConsumableConfig
  rw [hconfig]
  rfl

theorem process_of_none (hconfig : r.assetQuestion.consumableConfig = none) (phase : Phase) :
    phase.process env assetId r = .done (.ok ()) := by
  unfold Phase.process
  rw [hconfig]
  rfl

theorem process_storing (hconfig : r.assetQuestion.consumableConfig = some config)
    (existing : Option String) :
    (Phase.storing existing).process env assetId r
      = atomically () (storeConsumable env assetId config r.response.value existing) := by
  unfold Phase.process
  rw [hconfig]

theorem process_returned (hconfig : r.assetQuestion.consumableConfig = some config)
    (result : Except ApiError Unit) :
    (Phase.returned result).process env assetId r = .done result := by
  unfold Phase.process
  rw [hconfig]

theorem process_poolOf (hr : calls[i]? = some r) :
    (poolOf env assetId calls m).process i = (m.1 i).process env assetId r := by
  simp only [poolOf, hr]

theorem update_poolOf (hr : calls[i]? = some r) (phase : Phase) (w : SetupWorld) :
    Function.update (poolOf env assetId calls m).process i (phase.process env assetId r)
      = (poolOf env assetId calls (Function.update m.1 i phase, w)).process := by
  funext j
  by_cases hji : j = i
  · subst hji
    rw [Function.update_self, process_poolOf hr]
    simp
  · rw [Function.update_of_ne hji]
    unfold poolOf
    dsimp only
    rw [Function.update_of_ne hji]

/-- A step of the pool is a step of the phases. -/
theorem step_poolOf (m : (Nat → Phase) × SetupWorld) (i : Nat) :
    (poolOf env assetId calls m).step i =
      poolOf env assetId calls (advance env assetId calls m i) := by
  unfold advance
  cases hr : calls[i]? with
  | none =>
    have hdone : (poolOf env assetId calls m).process i = .done (.ok ()) := by
      simp only [poolOf, hr]
      rfl
    exact Pool.step_of_done hdone
  | some r =>
    have hprocess : (poolOf env assetId calls m).process i = (m.1 i).process env assetId r :=
      process_poolOf hr
    dsimp only
    cases hconfig : r.assetQuestion.consumableConfig with
    | none => exact Pool.step_of_done (hprocess.trans (process_of_none hconfig _))
    | some config =>
      dsimp only
      cases hphase : m.1 i with
      | asking =>
        rw [hphase, process_asking, handleConsumableConfig_eq hconfig] at hprocess
        rw [Pool.step_of_step hprocess]
        refine congrArg (Pool.mk _) (Eq.trans ?_ (update_poolOf hr _ _))
        rw [process_storing hconfig]
        rfl
      | storing existing =>
        rw [hphase, process_storing hconfig] at hprocess
        rw [Pool.step_of_step hprocess]
        refine congrArg (Pool.mk _) (Eq.trans ?_ (update_poolOf hr _ _))
        rw [process_returned hconfig]
        rfl
      | returned result =>
        exact Pool.step_of_done (hprocess.trans (hphase ▸ process_returned hconfig _))

/-! ## 5. Rows -/

/-- How many rows the asset has of the product. -/
def rowsOf (assetId productId : String) (w : SetupWorld) : Nat :=
  w.consumables.rows.countP (Consumable.isOf assetId productId)

theorem rowsOf_congr {assetId productId : String} {w w' : SetupWorld}
    (h : w'.consumables = w.consumables) :
    rowsOf assetId productId w' = rowsOf assetId productId w := by
  rw [rowsOf, rowsOf, h]

/-- There is a row with the id. -/
def Present (id : String) (w : SetupWorld) : Prop := (w.consumables.find? id).isSome = true

theorem rowsOf_updateConsumable (assetId productId id : String) (expiresOn : Int) (w : SetupWorld) :
    rowsOf assetId productId (updateConsumable id expiresOn w) = rowsOf assetId productId w := by
  unfold rowsOf updateConsumable Table.updateMany
  dsimp only
  rw [List.countP_map]
  apply List.countP_congr
  intro c _
  dsimp only [Function.comp_apply]
  split <;> rfl

theorem rowsOf_createConsumable (assetId productId createdId : String) (expiresOn : Int)
    (w : SetupWorld) :
    rowsOf assetId productId (createConsumable env assetId createdId expiresOn w)
      = rowsOf assetId productId w + if createdId = productId then 1 else 0 := by
  unfold rowsOf createConsumable
  rw [Table.rows_create, List.countP_append, List.countP_singleton]
  by_cases h : createdId = productId <;> simp [Table.create, Consumable.isOf, h]

theorem present_updateConsumable {id id' : String} {expiresOn : Int} {w : SetupWorld}
    (h : Present id w) : Present id (updateConsumable id' expiresOn w) := by
  unfold Present updateConsumable at *
  rw [Table.find?_updateMany, Option.isSome_map]
  exact h

theorem present_createConsumable {id productId : String} {expiresOn : Int} {w : SetupWorld}
    (h : Present id w) : Present id (createConsumable env assetId productId expiresOn w) := by
  obtain ⟨c, hc⟩ := Table.find?_isSome.1 h
  exact Table.find?_isSome.2 ⟨c, List.mem_append_left _ hc.1, hc.2⟩

theorem findConsumable_eq_none_iff {productId : String} {w : SetupWorld} :
    findConsumable env assetId productId w = none ↔ rowsOf assetId productId w = 0 := by
  unfold findConsumable rowsOf
  rw [Option.map_eq_none_iff, RowOrder.findFirst_eq_none, List.countP_eq_zero]
  simp only [Bool.not_eq_true]

theorem present_of_findConsumable {productId id : String} {w : SetupWorld}
    (h : findConsumable env assetId productId w = some id) : Present id w := by
  obtain ⟨c, hc, rfl⟩ := Option.map_eq_some_iff.1 h
  exact Table.find?_isSome.2 ⟨c, (RowOrder.findFirst_mem hc).1, rfl⟩

/-- What the second query does. -/
theorem storeConsumable_cases (env : SetupEnv) (assetId : String)
    (config : ConsumableQuestionConfig) (value : JsonValue) (existing : Option String)
    (w : SetupWorld) :
    (∃ e, (storeConsumable env assetId config value existing).run w = (.error e, w) ∧
        (env.newDate value ≠ none → ∃ id, existing = some id ∧ ¬ Present id w)) ∨
      (∃ date id, env.newDate value = some date ∧ existing = some id ∧
        (storeConsumable env assetId config value existing).run w
          = (.ok (), updateConsumable id date w)) ∨
      ∃ date, env.newDate value = some date ∧ existing = none ∧
        (storeConsumable env assetId config value existing).run w
          = (.ok (), createConsumable env assetId config.consumableProductId date w) := by
  have hmap : mapResponseToConsumable env value config.mappingType = env.newDate value := by
    cases config.mappingType
    rfl
  cases hdate : env.newDate value with
  | none =>
    refine .inl ⟨invalidExpiresOn, run_attempt_error ?_, fun h => absurd rfl h⟩
    rw [hmap, hdate]
  | some date =>
    cases existing with
    | none => exact .inr (.inr ⟨date, rfl, rfl, attempt_eq_ok.2 (by rw [hmap, hdate])⟩)
    | some id =>
      by_cases hid : Present id w
      · refine .inr (.inl ⟨date, id, rfl, rfl, attempt_eq_ok.2 ?_⟩)
        rw [hmap, hdate]
        exact if_pos hid
      · refine .inl ⟨.recordNotFound, run_attempt_error ?_, fun _ => ⟨id, rfl, hid⟩⟩
        rw [hmap, hdate]
        exact if_neg hid

/-! ## 6. What a step can do -/

/-- The call of this index is about the product. -/
def Maps (calls : List IncludedResponse) (i : Nat) (productId : String) : Prop :=
  ∃ r, calls[i]? = some r ∧ r.productId? = some productId

theorem Maps.eq {productId : String} (h : Maps calls i productId) (hr : calls[i]? = some r)
    {productId' : String} (hproduct : r.productId? = some productId') : productId' = productId := by
  obtain ⟨r', hr', hproduct'⟩ := h
  obtain rfl : r = r' := Option.some.inj (hr.symm.trans hr')
  exact Option.some.inj (hproduct.symm.trans hproduct')

inductive Advances (env : SetupEnv) (assetId : String) (calls : List IncludedResponse)
    (phase : Nat → Phase) (w : SetupWorld) (i : Nat) : (Nat → Phase) → SetupWorld → Prop
  | stay : Advances env assetId calls phase w i phase w
  | look {r : IncludedResponse} {productId : String} (hr : calls[i]? = some r)
      (hproduct : r.productId? = some productId) (hphase : phase i = .asking) :
      Advances env assetId calls phase w i
        (Function.update phase i (.storing (findConsumable env assetId productId w))) w
  | fail {r : IncludedResponse} {existing : Option String} (e : ApiError)
      (hr : calls[i]? = some r) (hphase : phase i = .storing existing)
      (hfail : env.newDate r.response.value ≠ none → ∃ id, existing = some id ∧ ¬ Present id w) :
      Advances env assetId calls phase w i (Function.update phase i (.returned (.error e))) w
  | overwrite {r : IncludedResponse} {id : String} (date : Int) (hr : calls[i]? = some r)
      (hdate : env.newDate r.response.value = some date) (hphase : phase i = .storing (some id)) :
      Advances env assetId calls phase w i (Function.update phase i (.returned (.ok ())))
        (updateConsumable id date w)
  | create {r : IncludedResponse} {productId : String} (date : Int) (hr : calls[i]? = some r)
      (hproduct : r.productId? = some productId)
      (hdate : env.newDate r.response.value = some date) (hphase : phase i = .storing none) :
      Advances env assetId calls phase w i (Function.update phase i (.returned (.ok ())))
        (createConsumable env assetId productId date w)

theorem advances (env : SetupEnv) (assetId : String) (calls : List IncludedResponse)
    (m : (Nat → Phase) × SetupWorld) (i : Nat) :
    Advances env assetId calls m.1 m.2 i (advance env assetId calls m i).1
      (advance env assetId calls m i).2 := by
  unfold advance
  cases hr : calls[i]? with
  | none => exact .stay
  | some r =>
    dsimp only
    cases hconfig : r.assetQuestion.consumableConfig with
    | none => exact .stay
    | some config =>
      have hproduct : r.productId? = some config.consumableProductId := by
        rw [IncludedResponse.productId?, hconfig, Option.map_some]
      dsimp only
      cases hphase : m.1 i with
      | asking => exact .look hr hproduct hphase
      | returned result => exact .stay
      | storing existing =>
        dsimp only
        rcases storeConsumable_cases env assetId config r.response.value existing m.2 with
          ⟨e, hrun, hfail⟩ | ⟨date, id, hdate, rfl, hrun⟩ | ⟨date, hdate, rfl, hrun⟩
        · rw [hrun]
          exact .fail e hr hphase hfail
        · rw [hrun]
          exact .overwrite date hr hdate hphase
        · rw [hrun]
          exact .create date hr hproduct hdate hphase

/-- What every step keeps holds in the end. -/
theorem foldl_advance {I : (Nat → Phase) → SetupWorld → Prop} {m : (Nat → Phase) × SetupWorld}
    (hstart : I m.1 m.2)
    (hstep : ∀ phase w i phase' w', Advances env assetId calls phase w i phase' w' →
      I phase w → I phase' w') (run : List Nat) :
    I (run.foldl (advance env assetId calls) m).1 (run.foldl (advance env assetId calls) m).2 :=
  (reached_end m run).invariant (I := fun m => I m.1 m.2) hstart
    fun u i _ hu => hstep _ _ i _ _ (advances env assetId calls u i) hu

namespace Advances

variable {phase phase' : Nat → Phase} {w w' : SetupWorld} {productId : String}

theorem phase_of_ne (h : Advances env assetId calls phase w i phase' w') {j : Nat} (hji : j ≠ i) :
    phase' j = phase j := by
  cases h with
  | stay => rfl
  | look | fail | overwrite | create => exact Function.update_of_ne hji ..

theorem rowsOf_of_not_maps (h : Advances env assetId calls phase w i phase' w')
    (hi : ¬ Maps calls i productId) : rowsOf assetId productId w' = rowsOf assetId productId w := by
  cases h with
  | stay | look | fail => rfl
  | overwrite => exact rowsOf_updateConsumable ..
  | create date hr hproduct hdate hphase =>
    rw [rowsOf_createConsumable, if_neg, Nat.add_zero]
    rintro rfl
    exact hi ⟨_, hr, hproduct⟩

theorem rowsOf_le (h : Advances env assetId calls phase w i phase' w') :
    rowsOf assetId productId w ≤ rowsOf assetId productId w' := by
  cases h with
  | stay | look | fail => exact le_rfl
  | overwrite => exact (rowsOf_updateConsumable ..).ge
  | create => rw [rowsOf_createConsumable]; exact Nat.le_add_right ..

theorem present (h : Advances env assetId calls phase w i phase' w') {id : String}
    (hid : Present id w) : Present id w' := by
  cases h with
  | stay | look | fail => exact hid
  | overwrite => exact present_updateConsumable hid
  | create => exact present_createConsumable hid

end Advances

/-! ## 7. How many rows there are -/

/-- One if the call has gone through. -/
def Phase.stored : Phase → Nat
  | .returned (.ok ()) => 1
  | _ => 0

variable {productId : String} {w : SetupWorld}

/-- A call about a product that finds no row creates one if it goes through. -/
theorem Advances.counts {phase phase' : Nat → Phase} {w' : SetupWorld}
    (h : Advances env assetId calls phase w i phase' w') (hi : Maps calls i productId)
    (hnone : ∀ id, phase i ≠ .storing (some id)) :
    rowsOf assetId productId w' + (phase i).stored =
      rowsOf assetId productId w + (phase' i).stored := by
  cases h with
  | stay => rfl
  | look hr hproduct hphase => rw [hphase, Function.update_self]; rfl
  | fail e hr hphase hfail => rw [hphase, Function.update_self]; rfl
  | overwrite date hr hdate hphase => exact absurd hphase (hnone _)
  | create date hr hproduct hdate hphase =>
    rw [hphase, Function.update_self, rowsOf_createConsumable, if_pos (hi.eq hr hproduct)]
    rfl

/-- Where there is a row, every call about the product finds one, and none is created. -/
theorem rowsOf_foldl_of_present (hrow : rowsOf assetId productId w ≠ 0) (run : List Nat) :
    rowsOf assetId productId (run.foldl (advance env assetId calls) (fun _ => .asking, w)).2
      = rowsOf assetId productId w := by
  refine (foldl_advance (I := fun phase u =>
    rowsOf assetId productId u = rowsOf assetId productId w ∧
      ∀ i, Maps calls i productId → phase i ≠ .storing none) ⟨rfl, fun i _ h => by cases h⟩ ?_ run).1
  rintro phase u i phase' u' hstep ⟨hrows, hnone⟩
  by_cases hi : Maps calls i productId
  · have hself : rowsOf assetId productId u' = rowsOf assetId productId u ∧
        phase' i ≠ .storing none := by
      cases hstep with
      | stay => exact ⟨rfl, hnone i hi⟩
      | look hr hproduct hphase =>
        refine ⟨rfl, fun hfound => hrow ?_⟩
        rw [Function.update_self, hi.eq hr hproduct] at hfound
        rw [← hrows]
        exact findConsumable_eq_none_iff.1 (Phase.storing.inj hfound)
      | fail => exact ⟨rfl, by simp⟩
      | overwrite => exact ⟨rowsOf_updateConsumable .., by simp⟩
      | create date hr hproduct hdate hphase => exact absurd hphase (hnone i hi)
    refine ⟨hself.1.trans hrows, fun j hj => ?_⟩
    by_cases hji : j = i
    · rw [hji]
      exact hself.2
    · rw [hstep.phase_of_ne hji]
      exact hnone j hj
  · refine ⟨(hstep.rowsOf_of_not_maps hi).trans hrows, fun j hj => ?_⟩
    rw [hstep.phase_of_ne fun hji => hi (hji ▸ hj)]
    exact hnone j hj

/-- Where there is no row and one call about the product, it creates one. -/
theorem rowsOf_foldl_of_single (hrow : rowsOf assetId productId w = 0)
    (hi : Maps calls i productId) (honly : ∀ j, Maps calls j productId → j = i) (run : List Nat) :
    rowsOf assetId productId (run.foldl (advance env assetId calls) (fun _ => .asking, w)).2
      = ((run.foldl (advance env assetId calls) (fun _ => .asking, w)).1 i).stored := by
  refine (foldl_advance (I := fun phase u => rowsOf assetId productId u = (phase i).stored ∧
    ∀ id, phase i ≠ .storing (some id)) ⟨hrow, fun id h => by cases h⟩ ?_ run).1
  rintro phase u k phase' u' hstep ⟨hrows, hnone⟩
  by_cases hki : k = i
  · subst hki
    have hcounts := hstep.counts hi hnone
    refine ⟨by omega, ?_⟩
    cases hstep with
    | stay => exact hnone
    | look hr hproduct hphase =>
      rw [hphase] at hrows
      intro id h
      rw [Function.update_self, hi.eq hr hproduct, findConsumable_eq_none_iff.2 hrows] at h
      cases h
    | fail | overwrite | create => simp
  · rw [hstep.phase_of_ne (Ne.symm hki), hstep.rowsOf_of_not_maps fun hk => hki (honly k hk)]
    exact ⟨hrows, hnone⟩

/-- The call has looked and found nothing. -/
def Phase.Unfound : Phase → Prop
  | .storing none | .returned _ => True
  | _ => False

theorem Advances.unfound {phase phase' : Nat → Phase} {w' : SetupWorld}
    (h : Advances env assetId calls phase w i phase' w') {j : Nat} (hj : (phase j).Unfound) :
    (phase' j).Unfound := by
  by_cases hji : j = i
  · subst hji
    cases h with
    | stay => exact hj
    | look hr hproduct hphase =>
      rw [hphase] at hj
      exact hj.elim
    | fail | overwrite | create => rw [Function.update_self]; trivial
  · rw [h.phase_of_ne hji]
    exact hj

theorem Phase.Unfound.ne {phase : Phase} (h : phase.Unfound) (id : String) :
    phase ≠ .storing (some id) := by
  rintro rfl
  exact h

/-- Two calls about a product that have both looked and found nothing leave two rows, if they go
    through. -/
theorem stored_add_stored_le (env : SetupEnv) (assetId : String) (w : SetupWorld)
    {phase : Nat → Phase} {j : Nat} (hi : Maps calls i productId)
    (hj : Maps calls j productId) (hij : i ≠ j) (hphasei : phase i = .storing none)
    (hphasej : phase j = .storing none) (run : List Nat) :
    ((run.foldl (advance env assetId calls) (phase, w)).1 i).stored
        + ((run.foldl (advance env assetId calls) (phase, w)).1 j).stored
      ≤ rowsOf assetId productId (run.foldl (advance env assetId calls) (phase, w)).2 := by
  refine (foldl_advance (I := fun phase u =>
    (phase i).stored + (phase j).stored ≤ rowsOf assetId productId u ∧
      (phase i).Unfound ∧ (phase j).Unfound) ⟨?_, ?_, ?_⟩ ?_ run).1
  · dsimp only
    rw [hphasei, hphasej]
    exact Nat.zero_le _
  · dsimp only
    rw [hphasei]
    trivial
  · dsimp only
    rw [hphasej]
    trivial
  · rintro phase u k phase' u' hstep ⟨hle, hui, huj⟩
    refine ⟨?_, hstep.unfound hui, hstep.unfound huj⟩
    by_cases hki : k = i
    · subst hki
      have hcounts := hstep.counts hi hui.ne
      rw [hstep.phase_of_ne (Ne.symm hij)]
      omega
    · by_cases hkj : k = j
      · subst hkj
        have hcounts := hstep.counts hj huj.ne
        rw [hstep.phase_of_ne hij]
        omega
      · rw [hstep.phase_of_ne (Ne.symm hki), hstep.phase_of_ne (Ne.symm hkj)]
        exact hle.trans hstep.rowsOf_le

/-! ## 8. Whether the calls go through -/

/-- With dates in all of the answers, no call fails. -/
theorem going_foldl (hdates : ∀ r ∈ calls, env.newDate r.response.value ≠ none) (run : List Nat) :
    ∀ i e, (run.foldl (advance env assetId calls) (fun _ => .asking, w)).1 i ≠
      .returned (.error e) := by
  refine (foldl_advance (I := fun phase u =>
    (∀ i e, phase i ≠ .returned (.error e)) ∧ ∀ i id, phase i = .storing (some id) → Present id u)
    ⟨(fun i e h => by cases h), fun i id h => by cases h⟩ ?_ run).1
  rintro phase u i phase' u' hstep ⟨hgoing, hfound⟩
  have hself : (∀ e, phase' i ≠ .returned (.error e)) ∧
      ∀ id, phase' i = .storing (some id) → Present id u' := by
    cases hstep with
    | stay => exact ⟨hgoing i, hfound i⟩
    | look hr hproduct hphase =>
      rw [Function.update_self]
      exact ⟨(fun e h => by cases h), fun id h => present_of_findConsumable (Phase.storing.inj h)⟩
    | fail e hr hphase hfail =>
      obtain ⟨id, rfl, hid⟩ := hfail (hdates _ (List.mem_of_getElem? hr))
      exact absurd (hfound i id hphase) hid
    | overwrite | create =>
      rw [Function.update_self]
      exact ⟨(fun e h => by cases h), fun id h => by cases h⟩
  refine ⟨fun j e => ?_, fun j id hid => ?_⟩
  · by_cases hji : j = i
    · rw [hji]
      exact hself.1 e
    · rw [hstep.phase_of_ne hji]
      exact hgoing j e
  · by_cases hji : j = i
    · rw [hji] at hid
      exact hself.2 id hid
    · rw [hstep.phase_of_ne hji] at hid
      exact hstep.present (hfound j id hid)

/-- Without a date in its answer, a call does not go through. -/
theorem failing_foldl (hr : calls[i]? = some r) (hdate : env.newDate r.response.value = none)
    (run : List Nat) :
    (run.foldl (advance env assetId calls) (fun _ => .asking, w)).1 i ≠ .returned (.ok ()) := by
  refine foldl_advance (I := fun phase _ => phase i ≠ .returned (.ok ())) (fun h => by cases h) ?_ run
  intro phase u k phase' u' hstep hi
  by_cases hki : i = k
  · subst hki
    cases hstep with
    | stay => exact hi
    | look | fail => simp
    | overwrite date hr' hdate' hphase =>
      obtain rfl := Option.some.inj (hr.symm.trans hr')
      rw [hdate] at hdate'
      cases hdate'
    | create date hr' hproduct hdate' hphase =>
      obtain rfl := Option.some.inj (hr.symm.trans hr')
      rw [hdate] at hdate'
      cases hdate'
  · rw [hstep.phase_of_ne hki]
    exact hi

theorem foldl_poolOf (m : (Nat → Phase) × SetupWorld) (run : List Nat) :
    run.foldl Pool.step (poolOf env assetId calls m)
      = poolOf env assetId calls (run.foldl (advance env assetId calls) m) := by
  induction run generalizing m with
  | nil => rfl
  | cons i run ih => rw [List.foldl_cons, List.foldl_cons, step_poolOf, ih]

theorem within_handleConsumableConfig (r : IncludedResponse) :
    (handleConsumableConfig env r assetId).Within 2 := by
  unfold handleConsumableConfig
  cases r.assetQuestion.consumableConfig with
  | none => exact within_done ..
  | some config => exact fun _ _ => within_done ..

/-- The run of a schedule. -/
def wholeRun (calls : List IncludedResponse) (schedule : List Nat) : List Nat :=
  schedule ++ (List.range calls.length ++ List.range calls.length)

/-- The schedule behind, every call is over. -/
theorem over_foldl (env : SetupEnv) (assetId : String) (w : SetupWorld)
    (hconfig : ∀ r ∈ calls, r.assetQuestion.consumableConfig.isSome = true)
    (schedule : List Nat) (hi : i < calls.length) :
    ∃ result, ((wholeRun calls schedule).foldl (advance env assetId calls) (fun _ => .asking, w)).1 i
      = .returned result := by
  have hr : calls[i]? = some calls[i] := List.getElem?_eq_getElem hi
  have hstart : ((poolOf env assetId calls (fun _ => .asking, w)).process i).Within 2 := by
    rw [process_poolOf hr, process_asking]
    exact within_handleConsumableConfig _
  have hmem : i ∈ List.range calls.length := List.mem_range.2 hi
  have hend : (((wholeRun calls schedule).foldl Pool.step
      (poolOf env assetId calls (fun _ => .asking, w))).process i).Within 0 := by
    unfold wholeRun
    rw [List.foldl_append, List.foldl_append]
    exact Pool.within_round (Pool.within_round (Pool.within_foldl hstart schedule) hmem) hmem
  obtain ⟨result, hdone⟩ := hend.done
  rw [foldl_poolOf, process_poolOf hr] at hdone
  obtain ⟨config, hconfig⟩ := Option.isSome_iff_exists.1 (hconfig _ (List.getElem_mem hi))
  generalize (((wholeRun calls schedule).foldl (advance env assetId calls)
    (fun _ => Phase.asking, w)).1 i) = phase at hdone ⊢
  cases phase with
  | returned result' => exact ⟨result', rfl⟩
  | asking =>
    rw [process_asking, handleConsumableConfig_eq hconfig] at hdone
    cases hdone
  | storing existing =>
    rw [process_storing hconfig] at hdone
    cases hdone

theorem consumableResponses_isSome {responses : List IncludedResponse} :
    ∀ r ∈ AssetsService.consumableResponses responses,
      r.assetQuestion.consumableConfig.isSome = true :=
  fun _ hr => (List.mem_filter.1 hr).2

/-- The calls go through exactly if every one of them does, and what they leave is what the phases
    leave. -/
theorem run_handleConsumableConfigs {responses : List IncludedResponse} {w w' : SetupWorld}
    {schedule : List Nat} (hcalls : calls = AssetsService.consumableResponses responses) :
    (AssetsService.handleConsumableConfigs env schedule assetId responses).run w = (.ok (), w') ↔
      ((wholeRun calls schedule).foldl (advance env assetId calls) (fun _ => .asking, w)).2 = w' ∧
        ∀ i < calls.length, ((wholeRun calls schedule).foldl (advance env assetId calls)
          (fun _ => .asking, w)).1 i = .returned (.ok ()) := by
  have hconfig : ∀ r ∈ calls, r.assetQuestion.consumableConfig.isSome = true :=
    hcalls ▸ consumableResponses_isSome
  have hrun : (AssetsService.handleConsumableConfigs env schedule assetId responses).run w
        = (.ok (), w') ↔
      (AssetsService.consumablePool env assetId calls w).all (wholeRun calls schedule) = .ok w' := by
    unfold AssetsService.handleConsumableConfigs
    rw [attempt_eq_ok, ← hcalls]
    show ((AssetsService.consumablePool env assetId calls w).all (wholeRun calls schedule)).map _
      = _ ↔ _
    cases (AssetsService.consumablePool env assetId calls w).all (wholeRun calls schedule) <;>
      simp [Except.map]
  rw [hrun, Pool.all_eq_ok_iff, ← poolOf_asking, foldl_poolOf]
  refine and_congr_right fun _ => ?_
  constructor
  · intro h i hi
    have hr : calls[i]? = some calls[i] := List.getElem?_eq_getElem hi
    obtain ⟨config, hc⟩ := Option.isSome_iff_exists.1 (hconfig _ (List.getElem_mem hi))
    have hmem : i ∈ wholeRun calls schedule := by
      simp [wholeRun, hi]
    obtain ⟨result, hresult⟩ := over_foldl env assetId w hconfig schedule hi
    cases result with
    | ok _ => exact hresult
    | error e =>
      refine absurd ⟨e, ?_⟩ (h i hmem)
      rw [process_poolOf hr, hresult, process_returned hc]
  · rintro h i - ⟨e, he⟩
    cases hr : calls[i]? with
    | none =>
      simp only [poolOf, hr] at he
      cases he
    | some r =>
      obtain ⟨config, hc⟩ := Option.isSome_iff_exists.1 (hconfig r (List.mem_of_getElem? hr))
      rw [process_poolOf hr, h i (List.getElem?_eq_some_iff.1 hr).1, process_returned hc] at he
      cases he

/-- After the calls, the asset has one row of each product they are about, if it had at most one. -/
def OnePerProduct (assetId : String) (calls : List IncludedResponse) (w w' : SetupWorld) : Prop :=
  ∀ r ∈ calls, ∀ productId, r.productId? = some productId →
    rowsOf assetId productId w ≤ 1 → rowsOf assetId productId w' = 1

/-- No two answers are about one product that the asset has no row of. -/
def Unshared (assetId : String) (calls : List IncludedResponse) (w : SetupWorld) : Prop :=
  calls.Pairwise fun r r' => ∀ productId, r.productId? = some productId →
    r'.productId? = some productId → rowsOf assetId productId w ≠ 0

theorem onePerProduct_of_unshared (hunshared : Unshared assetId calls w) {schedule : List Nat}
    {w' : SetupWorld}
    (hstore : ((wholeRun calls schedule).foldl (advance env assetId calls)
      (fun _ => .asking, w)).2 = w')
    (hover : ∀ i < calls.length, ((wholeRun calls schedule).foldl (advance env assetId calls)
      (fun _ => .asking, w)).1 i = .returned (.ok ())) : OnePerProduct assetId calls w w' := by
  intro r hr productId hproduct hle
  rw [← hstore]
  by_cases hrow : rowsOf assetId productId w = 0
  · obtain ⟨i, hi, rfl⟩ := List.mem_iff_getElem.1 hr
    have hmaps : Maps calls i productId := ⟨_, List.getElem?_eq_getElem hi, hproduct⟩
    have honly : ∀ j, Maps calls j productId → j = i := by
      rintro j ⟨r', hr', hproduct'⟩
      obtain ⟨hj, rfl⟩ := List.getElem?_eq_some_iff.1 hr'
      have hpairs := List.pairwise_iff_getElem.1 hunshared
      by_contra hji
      rcases Nat.lt_or_gt_of_ne hji with hlt | hlt
      · exact hpairs j i hj hi hlt productId hproduct' hproduct hrow
      · exact hpairs i j hi hj hlt productId hproduct hproduct' hrow
    rw [rowsOf_foldl_of_single hrow hmaps honly, hover i hi]
    rfl
  · rw [rowsOf_foldl_of_present hrow]
    omega

theorem Maps.lt (h : Maps calls i productId) : i < calls.length := by
  obtain ⟨r, hr, -⟩ := h
  exact (List.getElem?_eq_some_iff.1 hr).1

/-- A call that looks where there is no row. -/
theorem advance_look (hi : Maps calls i productId) {phase : Nat → Phase} (hphase : phase i = .asking)
    (hrow : rowsOf assetId productId w = 0) :
    advance env assetId calls (phase, w) i = (Function.update phase i (.storing none), w) := by
  obtain ⟨r, hr, hproduct⟩ := hi
  obtain ⟨config, hconfig, rfl⟩ := Option.map_eq_some_iff.1 hproduct
  unfold advance
  dsimp only
  rw [hr]
  dsimp only
  rw [hconfig]
  dsimp only
  rw [hphase]
  dsimp only
  rw [findConsumable_eq_none_iff.2 hrow]

/-- Both calls look, and then everybody goes on. -/
theorem two_rows (env : SetupEnv) (assetId : String) (w : SetupWorld)
    (hdates : ∀ r ∈ calls, env.newDate r.response.value ≠ none)
    (hconfig : ∀ r ∈ calls, r.assetQuestion.consumableConfig.isSome = true) {j : Nat}
    (hi : Maps calls i productId) (hj : Maps calls j productId) (hij : i ≠ j)
    (hrow : rowsOf assetId productId w = 0) :
    (∀ k < calls.length, ((wholeRun calls [i, j]).foldl (advance env assetId calls)
      (fun _ => .asking, w)).1 k = .returned (.ok ())) ∧
      2 ≤ rowsOf assetId productId ((wholeRun calls [i, j]).foldl (advance env assetId calls)
        (fun _ => .asking, w)).2 := by
  have hover : ∀ k < calls.length, ((wholeRun calls [i, j]).foldl (advance env assetId calls)
      (fun _ => .asking, w)).1 k = .returned (.ok ()) := by
    intro k hk
    obtain ⟨result, hresult⟩ := over_foldl env assetId w hconfig [i, j] hk
    cases result with
    | ok _ => exact hresult
    | error e => exact absurd hresult (going_foldl hdates _ k e)
  refine ⟨hover, ?_⟩
  have hstart : (wholeRun calls [i, j]).foldl (advance env assetId calls) (fun _ => .asking, w)
      = (List.range calls.length ++ List.range calls.length).foldl (advance env assetId calls)
          (Function.update (Function.update (fun _ => .asking) i (.storing none)) j
            (.storing none), w) := by
    unfold wholeRun
    rw [List.foldl_append, List.foldl_cons, List.foldl_cons, List.foldl_nil,
      advance_look hi rfl hrow, advance_look hj (Function.update_of_ne (Ne.symm hij) ..) hrow]
  have hphasei : Function.update (Function.update (fun _ => Phase.asking) i (.storing none)) j
      (.storing none) i = .storing none := by
    rw [Function.update_of_ne hij, Function.update_self]
  have htwo := stored_add_stored_le env assetId w hi hj hij hphasei (Function.update_self ..)
    (List.range calls.length ++ List.range calls.length)
  rw [← hstart, hover i hi.lt, hover j hj.lt] at htwo
  exact htwo

/-- Every run that goes through leaves one row for each product exactly if no two answers are about
    one product that the asset has no row of, or some answer is no date and no run goes through. -/
theorem handleConsumableConfigs_onePerProduct_iff {responses : List IncludedResponse}
    (hcalls : calls = AssetsService.consumableResponses responses) :
    (∀ schedule w', (AssetsService.handleConsumableConfigs env schedule assetId responses).run w
        = (.ok (), w') → OnePerProduct assetId calls w w') ↔
      (∃ r ∈ calls, env.newDate r.response.value = none) ∨ Unshared assetId calls w := by
  have hconfig : ∀ r ∈ calls, r.assetQuestion.consumableConfig.isSome = true :=
    hcalls ▸ consumableResponses_isSome
  constructor
  · intro h
    by_cases hdates : ∃ r ∈ calls, env.newDate r.response.value = none
    · exact .inl hdates
    · simp only [not_exists, not_and] at hdates
      refine .inr (List.pairwise_iff_getElem.2 ?_)
      intro i j hi hj hlt productId hproduct hproduct' hrow
      have hmapsi : Maps calls i productId := ⟨_, List.getElem?_eq_getElem hi, hproduct⟩
      have hmapsj : Maps calls j productId := ⟨_, List.getElem?_eq_getElem hj, hproduct'⟩
      obtain ⟨hover, htwo⟩ := two_rows env assetId w hdates hconfig hmapsi hmapsj hlt.ne hrow
      have hone := h [i, j] _ ((run_handleConsumableConfigs hcalls).2 ⟨rfl, hover⟩) _
        (List.getElem_mem hi) productId hproduct (by omega)
      omega
  · rintro (⟨r, hr, hdate⟩ | hunshared) schedule w' hrun
    · obtain ⟨-, hover⟩ := (run_handleConsumableConfigs hcalls).1 hrun
      obtain ⟨i, hi, rfl⟩ := List.mem_iff_getElem.1 hr
      exact absurd (hover i hi) (failing_foldl (List.getElem?_eq_getElem hi) hdate _)
    · obtain ⟨hstore, hover⟩ := (run_handleConsumableConfigs hcalls).1 hrun
      exact onePerProduct_of_unshared hunshared hstore hover

end ConsumablesService

/-! ## 9. The setup -/

namespace AssetsService

open ConsumablesService

/-- The setup gets to the consumables: the asset is there and not set up, and every answer has its
    question. -/
def SetsUp (id : String) (data : List CreateSetupResponse) (w : SetupWorld) : Prop :=
  ((w.assets.find? id).filter (·.setupOn.isNone)).isSome = true ∧
    ∀ r ∈ data, (w.questions.find? r.assetQuestionId).isSome = true

/-- What an answer to a question says about a consumable: its product, and the value. -/
def consumableAnswer (w : SetupWorld) (a : String × JsonValue) : Option (String × JsonValue) :=
  (w.questions.find? a.1).bind fun q =>
    if q.type = .setupAndInspection || q.type = .setup then
      q.consumableConfig.map fun config => (config.consumableProductId, a.2)
    else none

/-- What the answers of the asset say, those that are there and those of the request. -/
def consumableAnswers (id : String) (data : List CreateSetupResponse) (w : SetupWorld) :
    List (String × JsonValue) :=
  ((w.responses.rows.filter (·.assetId = some id)).map (fun r => (r.assetQuestionId, r.value)) ++
    data.map fun r => (r.assetQuestionId, r.value.json)).filterMap (consumableAnswer w)

theorem createResponses_rows (env : SetupEnv) (id : String) (data : List CreateSetupResponse)
    (t : Table SetupResponse String SetupResponse.id) :
    ∃ new : List SetupResponse,
      (data.foldl (fun t r => (createResponse env id t r).1) t).rows = t.rows ++ new ∧
      new.map (fun r => (r.assetQuestionId, r.value))
        = data.map (fun r => (r.assetQuestionId, r.value.json)) ∧
      ∀ r ∈ new, r.assetId = some id := by
  induction data generalizing t with
  | nil => exact ⟨[], (List.append_nil _).symm, rfl, fun r hr => absurd hr List.not_mem_nil⟩
  | cons r data ih =>
    obtain ⟨new, hrows, hnew, hasset⟩ := ih (createResponse env id t r).1
    refine ⟨(createResponse env id t r).2 :: new, ?_, ?_, ?_⟩
    · rw [List.foldl_cons, hrows]
      exact List.append_assoc ..
    · rw [List.map_cons, List.map_cons, hnew]
      rfl
    · intro r' hr'
      rcases List.mem_cons.1 hr' with rfl | hr'
      · rfl
      · exact hasset r' hr'

/-- The first query goes through exactly if the setup gets that far. -/
theorem updateSetupOn_eq_ok {env : SetupEnv} {id : String} {data : List CreateSetupResponse}
    {asset : SetupAsset} {w w₁ : SetupWorld}
    (h : (updateSetupOn env id data).run w = (.ok asset, w₁)) :
    SetsUp id data w ∧ asset.id = id ∧ w₁.consumables = w.consumables ∧
      w₁.questions = w.questions ∧
      ∃ new : List SetupResponse, w₁.responses.rows = w.responses.rows ++ new ∧
        new.map (fun r => (r.assetQuestionId, r.value))
          = data.map (fun r => (r.assetQuestionId, r.value.json)) ∧
        ∀ r ∈ new, r.assetId = some id := by
  have h' := attempt_eq_ok.1 h
  cases hasset : (w.assets.find? id).filter (·.setupOn.isNone) with
  | none =>
    rw [hasset] at h'
    cases h'
  | some a =>
    rw [hasset] at h'
    dsimp only at h'
    unfold createResponses at h'
    by_cases hdata : (data.all fun r => (w.questions.find? r.assetQuestionId).isSome) = true
    · rw [if_pos hdata] at h'
      have hid : a.id = id := (Table.find?_eq_some.1 (Option.filter_eq_some_iff.1 hasset).1).2
      obtain ⟨new, hrows, hnew, hnewid⟩ := createResponses_rows env id data w.responses
      injection h' with h'
      obtain ⟨rfl, rfl⟩ := Prod.mk.inj h'
      refine ⟨⟨by rw [hasset]; rfl, List.all_eq_true.1 hdata⟩, hid, rfl, rfl, new, hrows, hnew, hnewid⟩
    · rw [if_neg hdata] at h'
      cases h'

theorem updateSetupOn_of_setsUp (env : SetupEnv) {id : String} {data : List CreateSetupResponse}
    {w : SetupWorld} (h : SetsUp id data w) :
    ∃ asset w₁, (updateSetupOn env id data).run w = (.ok asset, w₁) := by
  obtain ⟨hasset, hdata⟩ := h
  obtain ⟨a, ha⟩ := Option.isSome_iff_exists.1 hasset
  rcases hrun : (updateSetupOn env id data).run w with ⟨r, w₁⟩
  cases r with
  | ok asset => exact ⟨asset, w₁, rfl⟩
  | error e =>
    have herror := (attempt_eq_error.1 hrun).1
    rw [ha] at herror
    dsimp only at herror
    unfold createResponses at herror
    rw [if_pos (List.all_eq_true.2 hdata)] at herror
    cases herror

theorem updateMetadata_consumables (asset : SetupAsset) (responses : List IncludedResponse)
    (w : SetupWorld) : (updateMetadata asset responses w).consumables = w.consumables := by
  unfold updateMetadata
  split <;> rfl

/-- The setup goes through exactly if its two parts do. -/
theorem setup_eq_ok {env : SetupEnv} {schedule : List Nat} {id : String}
    {data : List CreateSetupResponse} {asset : SetupAsset} {w w' : SetupWorld} :
    (setup env schedule id data).run w = (.ok asset, w') ↔
      ∃ w₁ w₂, (updateSetupOn env id data).run w = (.ok asset, w₁) ∧
        (handleConsumableConfigs env schedule asset.id (includedResponses env id w₁)).run w₁
          = (.ok (), w₂) ∧
        w' = updateMetadata asset (includedResponses env id w₁) w₂ := by
  unfold setup
  rw [rethrow_eq_ok, transaction_eq_ok]
  constructor
  · intro h
    obtain ⟨a, w₁, hupdate, h⟩ := bind_eq_ok.1 h
    rw [run_query_bind] at h
    obtain ⟨u, w₂, hconsumables, h⟩ := bind_eq_ok.1 h
    rw [run_write_bind, run_pure] at h
    injection h with ha hw
    injection ha with ha
    subst ha
    exact ⟨w₁, w₂, hupdate, hconsumables, hw.symm⟩
  · rintro ⟨w₁, w₂, hupdate, hconsumables, rfl⟩
    rw [run_bind_ok hupdate, run_query_bind, run_bind_ok hconsumables, run_write_bind, run_pure]

/-- The answers a setup handles, in the order they are found. -/
def setupCalls (env : SetupEnv) (id : String) (w : SetupWorld) : List IncludedResponse :=
  consumableResponses (includedResponses env id w)

/-- What the calls are about, with the values. -/
def products (calls : List IncludedResponse) : List (String × JsonValue) :=
  calls.filterMap fun r => r.productId?.map fun productId => (productId, r.response.value)

theorem mem_products {calls : List IncludedResponse} {a : String × JsonValue} :
    a ∈ products calls ↔ ∃ r ∈ calls, r.productId? = some a.1 ∧ r.response.value = a.2 := by
  unfold products
  rw [List.mem_filterMap]
  refine exists_congr fun r => and_congr_right fun _ => ?_
  rw [Option.map_eq_some_iff]
  constructor
  · rintro ⟨p, hp, rfl⟩
    exact ⟨hp, rfl⟩
  · rintro ⟨hp, hvalue⟩
    exact ⟨a.1, hp, Prod.ext rfl hvalue⟩

theorem unshared_iff {calls : List IncludedResponse} {id : String} {w : SetupWorld} :
    Unshared id calls w ↔
      (products calls).Pairwise fun a b => a.1 = b.1 → rowsOf id a.1 w ≠ 0 := by
  unfold Unshared products
  rw [List.pairwise_filterMap]
  refine List.Pairwise.iff fun r r' => ?_
  constructor
  · intro h a ha b hb hab
    obtain ⟨p, hp, rfl⟩ := Option.map_eq_some_iff.1 ha
    obtain ⟨p', hp', rfl⟩ := Option.map_eq_some_iff.1 hb
    exact h p hp (hp'.trans (congrArg some hab.symm))
  · intro h p hp hp'
    exact h (p, r.response.value) (by rw [hp]; rfl) (p, r'.response.value) (by rw [hp']; rfl) rfl

/-- They say what the answers say. -/
theorem products_perm {env : SetupEnv} {id : String} {data : List CreateSetupResponse}
    {asset : SetupAsset} {w w₁ : SetupWorld}
    (h : (updateSetupOn env id data).run w = (.ok asset, w₁)) :
    (products (setupCalls env id w₁)).Perm (consumableAnswers id data w) := by
  obtain ⟨-, -, -, hquestions, new, hrows, hnew, hnewid⟩ := updateSetupOn_eq_ok h
  have hread : products (setupCalls env id w₁)
      = ((env.responseOrder.findMany (·.assetId = some id) w₁.responses.rows).map
          fun r => (r.assetQuestionId, r.value)).filterMap (consumableAnswer w) := by
    unfold products setupCalls consumableResponses includedResponses
    rw [List.filterMap_filter, List.filterMap_filter, List.filterMap_filterMap, List.filterMap_map]
    apply List.filterMap_congr
    intro r _
    rw [hquestions]
    unfold consumableAnswer Function.comp IncludedResponse.productId?
    dsimp only
    cases w.questions.find? r.assetQuestionId with
    | none => rfl
    | some q =>
      rw [Option.map_some, Option.bind_some, Option.bind_some]
      dsimp only
      split
      · cases q.consumableConfig <;> rfl
      · rfl
  have hkept : w₁.responses.rows.filter (·.assetId = some id)
      = w.responses.rows.filter (·.assetId = some id) ++ new := by
    rw [hrows, List.filter_append, List.filter_eq_self.2 fun r hr => decide_eq_true (hnewid r hr)]
  rw [hread]
  unfold consumableAnswers
  rw [← hnew, ← List.map_append, ← hkept]
  exact ((env.responseOrder.perm _).map _).filterMap _

section Answers

variable {env : SetupEnv} {id : String} {data : List CreateSetupResponse} {asset : SetupAsset}
  {w w₁ : SetupWorld}

theorem mem_consumableAnswers (hupdate : (updateSetupOn env id data).run w = (.ok asset, w₁))
    {a : String × JsonValue} :
    a ∈ consumableAnswers id data w ↔
      ∃ r ∈ setupCalls env id w₁, r.productId? = some a.1 ∧ r.response.value = a.2 :=
  (products_perm hupdate).mem_iff.symm.trans mem_products

/-- There is one that is no date among the answers if there is one among the calls. -/
theorem noDate_iff (hupdate : (updateSetupOn env id data).run w = (.ok asset, w₁)) :
    (∃ a ∈ consumableAnswers id data w, env.newDate a.2 = none) ↔
      ∃ r ∈ setupCalls env id w₁, env.newDate r.response.value = none := by
  constructor
  · rintro ⟨a, ha, hdate⟩
    obtain ⟨r, hr, -, hvalue⟩ := (mem_consumableAnswers hupdate).1 ha
    exact ⟨r, hr, by rw [hvalue]; exact hdate⟩
  · rintro ⟨r, hr, hdate⟩
    obtain ⟨config, hconfig⟩ := Option.isSome_iff_exists.1 (consumableResponses_isSome r hr)
    have hproduct : r.productId? = some config.consumableProductId := by
      rw [IncludedResponse.productId?, hconfig, Option.map_some]
    exact ⟨(config.consumableProductId, r.response.value),
      (mem_consumableAnswers hupdate).2 ⟨r, hr, hproduct, rfl⟩, hdate⟩

/-- And no two answers share a product if no two calls do. -/
theorem pairwise_iff_unshared (hupdate : (updateSetupOn env id data).run w = (.ok asset, w₁)) :
    ((consumableAnswers id data w).Pairwise fun a b => a.1 = b.1 → rowsOf id a.1 w ≠ 0) ↔
      Unshared id (setupCalls env id w₁) w₁ := by
  have hrows : ∀ p, rowsOf id p w₁ = rowsOf id p w := fun p =>
    rowsOf_congr (updateSetupOn_eq_ok hupdate).2.2.1
  have hsymm : ∀ {a b : String × JsonValue}, (a.1 = b.1 → rowsOf id a.1 w ≠ 0) →
      b.1 = a.1 → rowsOf id b.1 w ≠ 0 := fun h hab => hab ▸ h hab.symm
  rw [unshared_iff, ← (products_perm hupdate).pairwise_iff hsymm]
  simp only [hrows]

/-- What a setup leaves is what its calls leave. -/
theorem setup_iff_handleConsumableConfigs
    (hupdate : (updateSetupOn env id data).run w = (.ok asset, w₁)) :
    (∀ schedule asset w', (setup env schedule id data).run w = (.ok asset, w') →
      ∀ a ∈ consumableAnswers id data w, rowsOf id a.1 w ≤ 1 → rowsOf id a.1 w' = 1) ↔
      ∀ schedule w₂, (handleConsumableConfigs env schedule id
        (includedResponses env id w₁)).run w₁ = (.ok (), w₂) →
          OnePerProduct id (setupCalls env id w₁) w₁ w₂ := by
  obtain ⟨-, hid, hconsumables, -⟩ := updateSetupOn_eq_ok hupdate
  have hrows : ∀ p, rowsOf id p w₁ = rowsOf id p w := fun p => rowsOf_congr hconsumables
  have hmetadata : ∀ p w₂, rowsOf id p (updateMetadata asset (includedResponses env id w₁) w₂)
      = rowsOf id p w₂ := fun p w₂ => rowsOf_congr (updateMetadata_consumables ..)
  constructor
  · intro h schedule w₂ hrun r hr p hp hle
    have hsetup := setup_eq_ok.2 ⟨w₁, w₂, hupdate, by rw [hid]; exact hrun, rfl⟩
    have hone := h schedule asset _ hsetup (p, r.response.value)
      ((mem_consumableAnswers hupdate).2 ⟨r, hr, hp, rfl⟩) (by rw [← hrows]; exact hle)
    exact (hmetadata p w₂).symm.trans hone
  · intro h schedule asset' w' hrun a ha hle
    obtain ⟨w₁', w₂, hupdate', hconsumables', rfl⟩ := setup_eq_ok.1 hrun
    rw [hupdate] at hupdate'
    injection hupdate' with hasset hw
    injection hasset with hasset
    subst hasset hw
    obtain ⟨r, hr, hp, -⟩ := (mem_consumableAnswers hupdate).1 ha
    rw [hid] at hconsumables'
    rw [hmetadata]
    exact h schedule w₂ hconsumables' r hr a.1 hp (by rw [hrows]; exact hle)

end Answers

/-- Every setup that goes through leaves one row for each product its answers are about, whatever
    the order of their steps, exactly if none goes through (the asset is not found or set up
    already, an answer has no question or is no date) or no two answers are about one product that
    the asset has no row of. -/
theorem setup_onePerProduct_iff (env : SetupEnv) (id : String) (data : List CreateSetupResponse)
    (w : SetupWorld) :
    (∀ schedule asset w', (setup env schedule id data).run w = (.ok asset, w') →
      ∀ a ∈ consumableAnswers id data w, rowsOf id a.1 w ≤ 1 → rowsOf id a.1 w' = 1) ↔
      ¬ SetsUp id data w ∨ (∃ a ∈ consumableAnswers id data w, env.newDate a.2 = none) ∨
        (consumableAnswers id data w).Pairwise fun a b => a.1 = b.1 → rowsOf id a.1 w ≠ 0 := by
  by_cases hsets : SetsUp id data w
  · obtain ⟨asset, w₁, hupdate⟩ := updateSetupOn_of_setsUp env hsets
    have hhandle : (∀ schedule w₂, (handleConsumableConfigs env schedule id
          (includedResponses env id w₁)).run w₁ = (.ok (), w₂) →
            OnePerProduct id (setupCalls env id w₁) w₁ w₂) ↔
        (∃ r ∈ setupCalls env id w₁, env.newDate r.response.value = none) ∨
          Unshared id (setupCalls env id w₁) w₁ :=
      handleConsumableConfigs_onePerProduct_iff rfl
    rw [setup_iff_handleConsumableConfigs hupdate, hhandle, noDate_iff hupdate,
      pairwise_iff_unshared hupdate]
    exact (or_iff_right (not_not_intro hsets)).symm
  · refine iff_of_true ?_ (.inl hsets)
    intro schedule asset w' hrun
    obtain ⟨w₁, w₂, hupdate, -⟩ := setup_eq_ok.1 hrun
    exact absurd (updateSetupOn_eq_ok hupdate).1 hsets

/-- Two questions about the battery of an alarm. -/
def batteryQuestion (id : String) : SetupQuestion where
  id := id
  type := .setup
  consumableConfig := some { consumableProductId := "battery", mappingType := .expirationDate }

def alarmWorld : SetupWorld where
  assets := ⟨[{ id := "alarm" }], List.nodup_singleton "alarm"⟩
  questions := ⟨[batteryQuestion "q1", batteryQuestion "q2"], by decide⟩

/-- Both are answered, and both answers look before either creates a battery. -/
theorem alarm_twoBatteries :
    ¬ ∀ schedule asset w',
      (setup { newDate := fun _ => some 0 } schedule "alarm"
        [⟨.text "2030-01-01", "Expires on?", "q1"⟩, ⟨.text "2030-01-01", "Battery until?", "q2"⟩]).run
          alarmWorld = (.ok asset, w') →
        ∀ a ∈ consumableAnswers "alarm"
            [⟨.text "2030-01-01", "Expires on?", "q1"⟩,
             ⟨.text "2030-01-01", "Battery until?", "q2"⟩] alarmWorld,
          rowsOf "alarm" a.1 alarmWorld ≤ 1 → rowsOf "alarm" a.1 w' = 1 := by
  intro h
  have htwo := h [0, 1] _ _ rfl ("battery", .text "2030-01-01") (.head _) (by decide)
  exact absurd htwo (by decide)

end AssetsService

end ShieldApi
