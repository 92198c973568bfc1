import ShieldApi.Assets.Metadata
import ShieldApi.Auth.Cls

/-!
# Settings blocks

`getOrCreateSettingsBlock` of `settings/settings.service.ts`: a block comes from the cache, from the
database, or is created with the defaults; where it misses a default key it is written again,
`{ ...settings.data, ...defaultData }`.

**The defaults come last in the spread** (`mergesDefaults_iff`). A block that misses one of them gets all of them, in
place of what it said: this is harmless only where it said nothing else than they do. A cached copy
is not looked at again; it is right as far as it still says what the row does.
-/

set_option autoImplicit false

namespace ShieldApi

open Effect

namespace JsonValue

/-- `typeof value === 'object' || value === null`, of a JSON value. -/
def isNullOrObject : JsonValue → Bool
  | .null | .array _ | .object _ => true
  | .bool _ | .number _ | .text _ => false

/-- The own properties of an object, as a spread copies them; an array has its indices. -/
def ownEntries : JsonValue → JsonFields
  | .object fields => fields
  | .array items => items.zipIdx.map fun (v, i) => (toString i, v)
  | _ => []

/-- What is under a key. -/
def key? (data : JsonValue) (k : String) : Option JsonValue := Entries.get? data.ownEntries k

end JsonValue

/-! ## 1. The service -/

structure SettingsBlock where
  id : String
  createdOn : Nat
  modifiedOn : Nat
  friendlyId : String
  data : JsonValue

/-- The table, and the cache under the keys of the blocks. -/
structure SettingsWorld where
  settingsBlocks : Table SettingsBlock String (·.friendlyId) := ∅
  memoryCache : String → Option SettingsBlock := fun _ => none

abbrev SettingsApi := Effect SettingsWorld ApiError

namespace SettingsService

def cacheKey (friendlyId : String) : String := s!"settings-block:{friendlyId}"

def shouldUpdateDefaultValues (settingsData defaultData : JsonValue) : Bool :=
  match defaultData, settingsData with
  | .null, _ => false
  | _, .null => true
  | _, _ =>
    let existingKeys := Entries.keys settingsData.ownEntries
    let defaultKeys := Entries.keys defaultData.ownEntries
    defaultKeys.any fun key => key ∉ existingKeys

/-- `prisma.settingsBlock.update` of `data`. -/
def update (env : Env) (friendlyId : String) (data : JsonValue) : SettingsApi SettingsBlock :=
  attempt fun w =>
    match w.settingsBlocks.find? friendlyId with
    | none => .error .recordNotFound
    | some b =>
      let change : SettingsBlock → SettingsBlock := fun b =>
        { b with data := data, modifiedOn := env.now }
      .ok (change b, { w with
        settingsBlocks := w.settingsBlocks.updateMany (·.friendlyId = friendlyId) change fun _ => rfl })

def create (env : Env) (friendlyId : String) (data : JsonValue) : SettingsApi SettingsBlock :=
  attempt fun w =>
    let b : SettingsBlock :=
      { id := env.cuid 0
        createdOn := env.now
        modifiedOn := env.now
        friendlyId := friendlyId
        data := data }
    match w.settingsBlocks.insert? b with
    | some t => .ok (b, { w with settingsBlocks := t })
    | none => .error .uniqueConstraint

def setCache (friendlyId : String) (settings : SettingsBlock) (w : SettingsWorld) : SettingsWorld :=
  { w with memoryCache := Function.update w.memoryCache (cacheKey friendlyId) (some settings) }

/-- The block has all of the default keys. -/
def upToDate (settings : SettingsBlock) (defaultData : JsonValue) : Bool :=
  settings.data.isNullOrObject && defaultData.isNullOrObject &&
    !shouldUpdateDefaultValues settings.data defaultData

/-- The block is to be written again. -/
def outOfDate (settings : SettingsBlock) (defaultData : JsonValue) : Bool :=
  settings.data.isNullOrObject && defaultData.isNullOrObject &&
    shouldUpdateDefaultValues settings.data defaultData

/-- From `findUnique` on. -/
def findOrCreate (env : Env) (friendlyId : String) (defaultData : JsonValue) :
    SettingsApi SettingsBlock := do
  match ← query (·.settingsBlocks.find? friendlyId) with
  | some settings =>
    if outOfDate settings defaultData then
      update env friendlyId (.object (settings.data.ownEntries ++ defaultData.ownEntries))
    else pure settings
  | none => create env friendlyId defaultData

def getOrCreateSettingsBlock (env : Env) (friendlyId : String) (defaultData : JsonValue)
    (cache : Bool) : SettingsApi SettingsBlock := do
  let cached ← query fun w => if cache then w.memoryCache (cacheKey friendlyId) else none
  match cached.filter (upToDate · defaultData) with
  | some settings => pure settings
  | none => do
    let settings ← findOrCreate env friendlyId defaultData
    let _ ← if cache then write (setCache friendlyId settings) else pure ()
    pure settings

def updateSettingsBlock (env : Env) (friendlyId : String) (data : JsonValue) (cache : Bool) :
    SettingsApi SettingsBlock := do
  let settings ← update env friendlyId data
  let _ ← if cache then write (setCache friendlyId settings) else pure ()
  pure settings

/-! ## 2. The global settings -/

structure GlobalSettings where
  systemEmailFromAddress : String
  productRequestToAddress : String
  landingFormLeadToAddress : String
  deriving DecidableEq, Repr

def GlobalSettings.data (s : GlobalSettings) : JsonFields :=
  [("systemEmailFromAddress", .text s.systemEmailFromAddress),
   ("productRequestToAddress", .text s.productRequestToAddress),
   ("landingFormLeadToAddress", .text s.landingFormLeadToAddress)]

def GLOBAL_SETTINGS_FRIENDLY_ID : String := "global"

def DEFAULT_GLOBAL_SETTINGS : GlobalSettings where
  systemEmailFromAddress := "support@notify.fc-safety.com"
  productRequestToAddress := "orders@fc-safety.com"
  landingFormLeadToAddress := "sales@fc-safety.com"

def getGlobalSettings (env : Env) : SettingsApi SettingsBlock :=
  getOrCreateSettingsBlock env GLOBAL_SETTINGS_FRIENDLY_ID (.object DEFAULT_GLOBAL_SETTINGS.data) true

def updateGlobalSettings (env : Env) (globalSettingsDto : GlobalSettings) :
    SettingsApi SettingsBlock :=
  updateSettingsBlock env GLOBAL_SETTINGS_FRIENDLY_ID (.object globalSettingsDto.data) true

/-! ## 3. What is promised -/

/-- What is stored under a key of a block. -/
def stored? (w : SettingsWorld) (friendlyId k : String) : Option JsonValue :=
  (w.settingsBlocks.find? friendlyId).bind (·.data.key? k)

/-- What is stored, and the defaults that are missing. -/
def Merged (w : SettingsWorld) (friendlyId : String) (defaults : JsonFields) (data : JsonValue) :
    Prop :=
  ∀ k, data.key? k = (stored? w friendlyId k).or (Entries.get? defaults k)

/-- A block is returned and a block is stored, each of them what was stored and the defaults that
    were missing; and asking again changes nothing. -/
def MergesDefaults (env : Env) (friendlyId : String) (defaults : JsonFields) (cache : Bool)
    (w : SettingsWorld) : Prop :=
  ∃ b w', (getOrCreateSettingsBlock env friendlyId (.object defaults) cache).run w = (.ok b, w') ∧
    Merged w friendlyId defaults b.data ∧
    (∃ r, w'.settingsBlocks.find? friendlyId = some r ∧ Merged w friendlyId defaults r.data) ∧
    ∀ env', (getOrCreateSettingsBlock env' friendlyId (.object defaults) cache).run w' = (.ok b, w')

/-- The cached copy that is returned without a look at the database. -/
def usedCopy (friendlyId : String) (defaults : JsonFields) (cache : Bool) (w : SettingsWorld) :
    Option SettingsBlock :=
  (if cache then w.memoryCache (cacheKey friendlyId) else none).filter
    (upToDate · (.object defaults))

/-- No default key is missing, or those that are not have the default value. -/
def Keeps (defaults : JsonFields) (data : JsonValue) : Prop :=
  (∀ k ∈ Entries.keys defaults, k ∈ Entries.keys data.ownEntries) ∨
    data.isNullOrObject = true ∧
      ∀ k u v, data.key? k = some u → Entries.get? defaults k = some v → u = v

/-! ## 4. Default keys -/

theorem shouldUpdateDefaultValues_eq_false {data : JsonValue} {defaults : JsonFields}
    (h : shouldUpdateDefaultValues data (.object defaults) = false) :
    ∀ k ∈ Entries.keys defaults, k ∈ Entries.keys data.ownEntries := by
  intro k hk
  cases data with
  | null => cases h
  | bool _ | number _ | text _ | array _ | object _ =>
    have := List.any_eq_false.1 h k hk
    simpa using this

theorem shouldUpdateDefaultValues_of_keys {data : JsonValue} {defaults : JsonFields}
    (hnull : data ≠ .null) (h : ∀ k ∈ Entries.keys defaults, k ∈ Entries.keys data.ownEntries) :
    shouldUpdateDefaultValues data (.object defaults) = false := by
  cases data with
  | null => exact absurd rfl hnull
  | bool _ | number _ | text _ | array _ | object _ =>
    refine List.any_eq_false.2 fun k hk => ?_
    simpa using h k hk

/-- Spread behind what a block says, the defaults change nothing exactly if those that are there
    have their value. -/
theorem spread_eq_merged_iff {data : JsonValue} {defaults : JsonFields} :
    (∀ k, (JsonValue.object (data.ownEntries ++ defaults)).key? k
      = (data.key? k).or (Entries.get? defaults k)) ↔
      ∀ k u v, data.key? k = some u → Entries.get? defaults k = some v → u = v := by
  constructor
  · intro h k u v hu hv
    have hk : (Entries.get? defaults k).or (data.key? k)
        = (data.key? k).or (Entries.get? defaults k) :=
      (Entries.get?_append data.ownEntries defaults k).symm.trans (h k)
    rw [hu, hv] at hk
    exact (Option.some.inj hk).symm
  · intro h k
    refine (Entries.get?_append data.ownEntries defaults k).trans ?_
    show (Entries.get? defaults k).or (data.key? k) = _
    cases hu : data.key? k with
    | none => rw [Option.or_none, Option.none_or]
    | some u =>
      cases hv : Entries.get? defaults k with
      | none => rfl
      | some v => rw [h k u v hu hv, Option.some_or]

/-- A block says what it should without a change exactly if it has all of the default keys. -/
theorem self_eq_merged_iff {data : JsonValue} {defaults : JsonFields} :
    (∀ k, data.key? k = (data.key? k).or (Entries.get? defaults k)) ↔
      ∀ k ∈ Entries.keys defaults, k ∈ Entries.keys data.ownEntries := by
  constructor
  · intro h k hk
    rw [← Entries.isSome_get?] at hk ⊢
    have hk' : data.key? k = _ := h k
    show (data.key? k).isSome = true
    rw [hk', Option.isSome_or, hk, Bool.or_true]
  · intro h k
    cases hd : data.key? k with
    | some u => rfl
    | none =>
      exact (Entries.get?_eq_none.2 fun hk => Entries.get?_eq_none.1 hd (h k hk)).symm

/-! ## 5. One call -/

section

variable {env : Env} {friendlyId : String} {defaults : JsonFields} {cache : Bool}
  {w : SettingsWorld}

theorem memoryCache_setCache (friendlyId : String) (b : SettingsBlock) (w : SettingsWorld) :
    (setCache friendlyId b w).memoryCache (cacheKey friendlyId) = some b := by
  simp [setCache]

/-- What the row says in the end. -/
def settledData (friendlyId : String) (defaults : JsonFields) (w : SettingsWorld) : JsonValue :=
  match w.settingsBlocks.find? friendlyId with
  | none => .object defaults
  | some r =>
    if outOfDate r (.object defaults) then .object (r.data.ownEntries ++ defaults) else r.data

theorem outOfDate_of_keys {b : SettingsBlock} (hdata : b.data ≠ .null)
    (h : ∀ k ∈ Entries.keys defaults, k ∈ Entries.keys b.data.ownEntries) :
    outOfDate b (.object defaults) = false := by
  unfold outOfDate
  rw [shouldUpdateDefaultValues_of_keys hdata h, Bool.and_false]

theorem run_update {r : SettingsBlock} (h : w.settingsBlocks.find? friendlyId = some r)
    (env : Env) (data : JsonValue) :
    ∃ t, (update env friendlyId data).run w
        = (.ok { r with data := data, modifiedOn := env.now }, t) ∧
      t.settingsBlocks.find? friendlyId = some { r with data := data, modifiedOn := env.now } ∧
      t.memoryCache = w.memoryCache := by
  have hkey : r.friendlyId = friendlyId := (Table.find?_eq_some.1 h).2
  let change : SettingsBlock → SettingsBlock := fun b => { b with data := data, modifiedOn := env.now }
  let rows := w.settingsBlocks.updateMany (·.friendlyId = friendlyId) change fun _ => rfl
  refine ⟨{ w with settingsBlocks := rows }, attempt_eq_ok.2 ?_, ?_, rfl⟩
  · rw [h]
  · rw [Table.find?_updateMany, h, Option.map_some, if_pos (decide_eq_true hkey)]

theorem run_create (h : w.settingsBlocks.find? friendlyId = none) (env : Env) (data : JsonValue) :
    ∃ b t, (create env friendlyId data).run w = (.ok b, t) ∧
      t.settingsBlocks.find? friendlyId = some b ∧ t.memoryCache = w.memoryCache ∧
      b.data = data := by
  let b : SettingsBlock :=
    { id := env.cuid 0, createdOn := env.now, modifiedOn := env.now, friendlyId := friendlyId,
      data := data }
  obtain ⟨t, ht⟩ := Option.isSome_iff_exists.1
    (Table.insert?_isSome.2 (show w.settingsBlocks.find? b.friendlyId = none from h))
  refine ⟨b, { w with settingsBlocks := t }, attempt_eq_ok.2 ?_, Table.find?_inserted ht, rfl, rfl⟩
  show (match w.settingsBlocks.insert? b with | some t => _ | none => _) = _
  rw [ht]

theorem run_findOrCreate (env : Env) (friendlyId : String) (defaults : JsonFields)
    (w : SettingsWorld) :
    ∃ b t, (findOrCreate env friendlyId (.object defaults)).run w = (.ok b, t) ∧
      t.settingsBlocks.find? friendlyId = some b ∧ t.memoryCache = w.memoryCache ∧
      outOfDate b (.object defaults) = false ∧ b.data = settledData friendlyId defaults w := by
  unfold findOrCreate settledData
  rw [run_query_bind]
  cases hfind : w.settingsBlocks.find? friendlyId with
  | none =>
    obtain ⟨b, t, hrun, hrow, hcache, hdata⟩ := run_create hfind env (.object defaults)
    refine ⟨b, t, hrun, hrow, hcache, outOfDate_of_keys ?_ ?_, hdata⟩
    · rw [hdata]
      exact fun h => by cases h
    · rw [hdata]
      exact fun k hk => hk
  | some r =>
    dsimp only
    cases hout : outOfDate r (.object defaults) with
    | true =>
      rw [if_pos rfl, if_pos rfl]
      obtain ⟨t, hrun, hrow, hcache⟩ :=
        run_update hfind env (.object (r.data.ownEntries ++ defaults))
      refine ⟨_, t, hrun, hrow, hcache, outOfDate_of_keys (fun h => by cases h) ?_, rfl⟩
      intro k hk
      show k ∈ (r.data.ownEntries ++ defaults).map Prod.fst
      rw [List.map_append]
      exact List.mem_append_right _ hk
    | false =>
      rw [if_neg (by decide), if_neg (by decide)]
      exact ⟨r, w, rfl, hfind, rfl, hout, rfl⟩

theorem run_of_used {c : SettingsBlock} (h : usedCopy friendlyId defaults cache w = some c) :
    (getOrCreateSettingsBlock env friendlyId (.object defaults) cache).run w = (.ok c, w) := by
  unfold getOrCreateSettingsBlock
  unfold usedCopy at h
  rw [run_query_bind, h]
  rfl

theorem run_of_unused {b : SettingsBlock} {t : SettingsWorld}
    (h : usedCopy friendlyId defaults cache w = none)
    (hrun : (findOrCreate env friendlyId (.object defaults)).run w = (.ok b, t)) :
    (getOrCreateSettingsBlock env friendlyId (.object defaults) cache).run w
      = (.ok b, if cache then setCache friendlyId b t else t) := by
  unfold getOrCreateSettingsBlock
  unfold usedCopy at h
  rw [run_query_bind, h]
  dsimp only
  rw [run_bind_ok hrun]
  cases cache <;> rfl

/-- A block that is there, has nothing missing and is what the cache has, if it is asked, is
    returned, and nothing changes. -/
theorem run_again {b : SettingsBlock} (hfind : w.settingsBlocks.find? friendlyId = some b)
    (hout : outOfDate b (.object defaults) = false)
    (hcached : cache = true → w.memoryCache (cacheKey friendlyId) = some b) :
    (getOrCreateSettingsBlock env friendlyId (.object defaults) cache).run w = (.ok b, w) := by
  cases hused : usedCopy friendlyId defaults cache w with
  | some c =>
    obtain ⟨hc, -⟩ := Option.filter_eq_some_iff.1 hused
    obtain ⟨hcache, hc⟩ := Option.ite_none_right_eq_some.1 hc
    rw [run_of_used hused, Option.some.inj ((hcached hcache).symm.trans hc)]
  | none =>
    have hrun : (findOrCreate env friendlyId (.object defaults)).run w = (.ok b, w) := by
      unfold findOrCreate
      rw [run_query_bind, hfind]
      dsimp only
      rw [hout]
      rfl
    rw [run_of_unused hused hrun]
    cases cache with
    | false => rfl
    | true =>
      have hsame : Function.update w.memoryCache (cacheKey friendlyId) (some b) = w.memoryCache := by
        rw [← hcached rfl, Function.update_eq_self]
      rw [if_pos rfl, setCache, hsame]

/-- All of the global settings are written at once, and are what is read afterwards. -/
theorem getGlobalSettings_after_update {b : SettingsBlock} {w' : SettingsWorld}
    {dto : GlobalSettings} (h : (updateGlobalSettings env dto).run w = (.ok b, w')) (env' : Env) :
    b.data = .object dto.data ∧ (getGlobalSettings env').run w' = (.ok b, w') := by
  obtain ⟨b', t, hwrite, hrest⟩ := bind_eq_ok.1 h
  have hrest' : (Except.ok b', setCache GLOBAL_SETTINGS_FRIENDLY_ID b' t) = (.ok b, w') := hrest
  injection hrest' with hb hw
  injection hb with hb
  subst hb hw
  cases hfind : w.settingsBlocks.find? GLOBAL_SETTINGS_FRIENDLY_ID with
  | none =>
    have := attempt_eq_ok.1 hwrite
    rw [hfind] at this
    cases this
  | some r =>
    obtain ⟨t', hrun, hrow, -⟩ := run_update hfind env (.object dto.data)
    obtain ⟨hb, ht⟩ : Except.ok _ = Except.ok b' ∧ t' = t := Prod.mk.inj (hrun.symm.trans hwrite)
    injection hb with hb
    subst hb ht
    refine ⟨rfl, run_again hrow (outOfDate_of_keys (fun h => by cases h) fun k hk => hk) ?_⟩
    exact fun _ => memoryCache_setCache ..

end

/-! ## 6. What is kept -/

section

variable {env : Env} {friendlyId : String} {defaults : JsonFields} {cache : Bool}
  {w : SettingsWorld}

theorem merged_settledData_iff : Merged w friendlyId defaults (settledData friendlyId defaults w) ↔
    ∀ r, w.settingsBlocks.find? friendlyId = some r → Keeps defaults r.data := by
  unfold Merged settledData stored?
  cases hfind : w.settingsBlocks.find? friendlyId with
  | none => exact iff_of_true (fun k => rfl) fun r hr => by cases hr
  | some r =>
    have hone : (∀ r', some r = some r' → Keeps defaults r'.data) ↔ Keeps defaults r.data :=
      ⟨fun h => h r rfl, fun h r' hr' => Option.some.inj hr' ▸ h⟩
    rw [hone]
    dsimp only [Option.bind_some]
    cases hout : outOfDate r (.object defaults) with
    | true =>
      rw [if_pos rfl, spread_eq_merged_iff]
      simp only [outOfDate, Bool.and_eq_true] at hout
      obtain ⟨⟨hobject, -⟩, hshould⟩ := hout
      constructor
      · intro h
        exact .inr ⟨hobject, h⟩
      · rintro (hall | ⟨-, h⟩)
        · -- something is missing and nothing is: the block is `null`, and says nothing
          have hnull : r.data = .null := by
            by_contra hne
            rw [shouldUpdateDefaultValues_of_keys hne hall] at hshould
            cases hshould
          intro k u v hu
          rw [hnull] at hu
          cases hu
        · exact h
    | false =>
      rw [if_neg (by decide), self_eq_merged_iff]
      constructor
      · exact .inl
      · rintro (hall | ⟨hobject, -⟩)
        · exact hall
        · simp only [outOfDate, hobject, Bool.true_and] at hout
          exact shouldUpdateDefaultValues_eq_false hout

theorem merged_of_stored {data : JsonValue} (h : ∀ k, stored? w friendlyId k = data.key? k) :
    Merged w friendlyId defaults data ↔
      ∀ k ∈ Entries.keys defaults, k ∈ Entries.keys data.ownEntries := by
  rw [← self_eq_merged_iff]
  exact forall_congr' fun k => by rw [h k]

theorem mergesDefaults_of_used {c : SettingsBlock}
    (h : usedCopy friendlyId defaults cache w = some c) :
    MergesDefaults env friendlyId defaults cache w ↔
      ∃ r, w.settingsBlocks.find? friendlyId = some r ∧ ∀ k, r.data.key? k = c.data.key? k := by
  constructor
  · rintro ⟨b, w', hrun, hb, ⟨r, hr, hrow⟩, -⟩
    rw [run_of_used h] at hrun
    injection hrun with hc hw
    injection hc with hc
    subst hc hw
    exact ⟨r, hr, fun k => (hrow k).trans (hb k).symm⟩
  · rintro ⟨r, hr, hsame⟩
    have hkeys : ∀ k ∈ Entries.keys defaults, k ∈ Entries.keys c.data.ownEntries := by
      have hup := (Option.filter_eq_some_iff.1 h).2
      simp only [upToDate, Bool.and_eq_true, Bool.not_eq_true'] at hup
      exact shouldUpdateDefaultValues_eq_false hup.2
    have hstored : ∀ k, stored? w friendlyId k = r.data.key? k := by
      intro k
      rw [stored?, hr, Option.bind_some]
    have hmerged : Merged w friendlyId defaults c.data :=
      (merged_of_stored fun k => (hstored k).trans (hsame k)).2 hkeys
    exact ⟨c, w, run_of_used h, hmerged, ⟨r, hr, fun k => (hsame k).trans (hmerged k)⟩,
      fun _ => run_of_used h⟩

theorem mergesDefaults_of_unused (h : usedCopy friendlyId defaults cache w = none) :
    MergesDefaults env friendlyId defaults cache w ↔
      ∀ r, w.settingsBlocks.find? friendlyId = some r → Keeps defaults r.data := by
  obtain ⟨b, t, hrun, hrow, -, hout, hdata⟩ := run_findOrCreate env friendlyId defaults w
  have hfirst := run_of_unused h hrun
  rw [← merged_settledData_iff, ← hdata]
  constructor
  · rintro ⟨b', w', hrun', hb, -⟩
    rw [hfirst] at hrun'
    injection hrun' with hb' _
    injection hb' with hb'
    rw [hb']
    exact hb
  · intro hmerged
    have hsame : (if cache then setCache friendlyId b t else t).settingsBlocks.find? friendlyId
        = some b := by
      cases cache <;> exact hrow
    refine ⟨b, _, hfirst, hmerged, ⟨b, hsame, hmerged⟩, fun env' => run_again hsame hout ?_⟩
    intro hcache
    rw [if_pos hcache, memoryCache_setCache]

end

/-- The defaults are merged as promised exactly where a cached copy that is returned still says what
    the row does, and a row that is read either has all of the default keys or says nothing but
    the default under those it has. -/
theorem mergesDefaults_iff (env : Env) (friendlyId : String) (defaults : JsonFields) (cache : Bool)
    (w : SettingsWorld) :
    MergesDefaults env friendlyId defaults cache w ↔
      (∀ c, usedCopy friendlyId defaults cache w = some c →
        ∃ r, w.settingsBlocks.find? friendlyId = some r ∧ ∀ k, r.data.key? k = c.data.key? k) ∧
      (usedCopy friendlyId defaults cache w = none →
        ∀ r, w.settingsBlocks.find? friendlyId = some r → Keeps defaults r.data) := by
  cases hused : usedCopy friendlyId defaults cache w with
  | some c =>
    rw [mergesDefaults_of_used hused]
    constructor
    · intro h
      refine ⟨?_, (fun hnone => by cases hnone)⟩
      intro c' hc
      rw [← Option.some.inj hc]
      exact h
    · intro h
      exact h.1 c rfl
  | none =>
    rw [mergesDefaults_of_unused hused]
    constructor
    · intro h
      exact ⟨(fun c hc => by cases hc), fun _ => h⟩
    · intro h
      exact h.2 rfl

/-- A block from before the last address was added to the settings. -/
def olderBlock : SettingsBlock where
  id := "settings-1"
  createdOn := 0
  modifiedOn := 0
  friendlyId := GLOBAL_SETTINGS_FRIENDLY_ID
  data := .object
    [("systemEmailFromAddress", .text "alerts@acme.com"),
     ("productRequestToAddress", .text "requests@acme.com")]

/-- Reading the settings puts the default in the place of an address that was set. -/
theorem customised_address_reset :
    ¬ MergesDefaults { now := 1 } GLOBAL_SETTINGS_FRIENDLY_ID DEFAULT_GLOBAL_SETTINGS.data true
      { settingsBlocks := ⟨[olderBlock], List.nodup_singleton "global"⟩ } := by
  rintro ⟨b, w', hrun, hb, -⟩
  injection hrun with hb' _
  injection hb' with hb'
  have h := hb "productRequestToAddress"
  rw [← hb'] at h
  have hreset : some (JsonValue.text "orders@fc-safety.com") = some (.text "requests@acme.com") := h
  injection hreset with hreset
  injection hreset with hreset
  exact absurd hreset (by decide)

end SettingsService

end ShieldApi
