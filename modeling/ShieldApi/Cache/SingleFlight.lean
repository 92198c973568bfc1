import ShieldApi.Cache.MemoryCache

/-!
# Single flight

What `getOrSet` promises to concurrent callers, over every order of their steps: one factory at
a time; if none returns nil, one factory in total, whose value every caller gets; and a factory that
fails takes down the callers that await it and nobody else.

The first rests on the in-flight map alone (`Locked`). The second needs both reads of the
cache. A call whose first read missed may go on long after the flight of that time has landed, and
starts a flight of its own; **its second read is then later than that flight's `cache.set`** and finds
the value. The invariant is `Single`.
-/

set_option autoImplicit false

namespace ShieldApi

namespace MemoryCache

variable {C D V E : Type}

/-! ## 1. What the record says -/

/-- The record of a flight's factory agrees with where the flight is. -/
def Flight.Recorded (f : C) :
    Flight C V E → Option Nat → Option (Except E (Option V)) → Prop
  | .unborn, since, yielded | .rechecking _, since, yielded => since = none ∧ yielded = none
  | .running, since, yielded => since.isSome = true ∧ yielded = none
  | .storing value _, since, yielded =>
    since.isSome = true ∧ ∃ v : Option V, yielded = some (.ok v) ∧ value = v.map (⟨·, some f⟩)
  | .settled (.error e), since, yielded => since.isSome = true ∧ yielded = some (.error e)
  | .settled (.ok value), since, yielded =>
    (since = none ∧ yielded = none ∧ value.isSome = true) ∨
      (since.isSome = true ∧
        ∃ v : Option V, yielded = some (.ok v) ∧ value = v.map (⟨·, some f⟩))

structure Recorded (content : Option V) (s : St C D V E) : Prop where
  flight : ∀ f, (s.flights f).Recorded f (s.producingSince f) (s.yielded f)
  /-- A value was there from the start, or its factory returned it. -/
  origin : ∀ p, Circulates s p → (p.producer = none ∧ content = some p.value) ∨
    ∃ f, p.producer = some f ∧ s.yielded f = some (.ok (some p.value))
  /-- A call that awaited a flight was told the flight's result. -/
  told : ∀ c f result, s.calls c = .returned (some f) result → s.flights f = .settled result
  hit : ∀ c result, s.calls c = .returned none result → ∃ p, result = .ok (some p)

theorem recorded_start (content : Option V) : Recorded content (start content : St C D V E) := by
  refine ⟨fun f => ⟨rfl, rfl⟩, fun p hp => ?_, fun c f result h => (nomatch h),
    fun c result h => (nomatch h)⟩
  cases hp with
  | cache h =>
    obtain ⟨v, hv, hp⟩ := Option.map_eq_some_iff.mp h
    rw [← hp]
    exact .inl ⟨rfl, hv⟩
  | call c h => exact h.elim
  | flight f h => exact h.elim

theorem Recorded.of_eq {content : Option V} {s t : St C D V E} (h : Recorded content s)
    (hcache : t.cache = s.cache) (hcalls : t.calls = s.calls) (hflights : t.flights = s.flights)
    (hsince : t.producingSince = s.producingSince) (hyield : t.yielded = s.yielded) :
    Recorded content t := by
  refine ⟨?_, fun p hp => ?_, ?_, ?_⟩
  · rw [hflights, hsince, hyield]
    exact h.flight
  · rw [hyield]
    exact h.origin p (hp.of_eq hcache hcalls hflights)
  · rw [hcalls, hflights]
    exact h.told
  · rw [hcalls]
    exact h.hit

/-- A factory that has returned has been called. -/
theorem Recorded.started_of_yielded {content : Option V} {s : St C D V E}
    (h : Recorded content s) {f : C} {r : Except E (Option V)} (hr : s.yielded f = some r) :
    (s.producingSince f).isSome = true := by
  have hf := h.flight f
  rw [hr] at hf
  cases hflight : s.flights f with
  | unborn | rechecking got | running =>
    rw [hflight] at hf
    exact absurd hf.2 (by simp)
  | storing value applied =>
    rw [hflight] at hf
    exact hf.1
  | settled result =>
    rw [hflight] at hf
    cases result with
    | error e => exact hf.1
    | ok value =>
      rcases hf with ⟨-, hnone, -⟩ | hf
      · exact absurd hnone (by simp)
      · exact hf.1

theorem FlightStep.recorded {s t : St C D V E} {f : C} {a : Act C D V E}
    (h : FlightStep s t f a)
    (hs : (s.flights f).Recorded f (s.producingSince f) (s.yielded f)) :
    (t.flights f).Recorded f (t.producingSince f) (t.yielded f) := by
  cases h with
  | keep h hsince hyield =>
    rw [h, hsince, hyield]
    exact hs
  | born _ h h' hsince hyield =>
    rw [h] at hs
    rw [h', hsince, hyield]
    exact hs
  | reread h h' hsince hyield =>
    rw [h] at hs
    rw [h', hsince, hyield]
    exact hs
  | found p h h' hsince hyield =>
    rw [h] at hs
    rw [h', hsince, hyield]
    exact .inl ⟨hs.1, hs.2, rfl⟩
  | run h h' hsince hyield =>
    rw [h] at hs
    rw [h', hsince, hyield]
    exact ⟨rfl, hs.2⟩
  | produce value _ h h' hsince hyield =>
    rw [h] at hs
    rw [h', hsince, hyield]
    exact ⟨hs.1, value, rfl, rfl⟩
  | fail e _ h h' hsince hyield =>
    rw [h] at hs
    rw [h', hsince, hyield]
    exact ⟨hs.1, rfl⟩
  | store value h h' _ hsince hyield =>
    rw [h] at hs
    rw [h', hsince, hyield]
    exact hs
  | settle value h h' hsince hyield =>
    rw [h] at hs
    rw [h', hsince, hyield]
    exact .inr hs

/-- What a factory returned stays on record. -/
theorem FlightStep.yielded_mono {s t : St C D V E} {f : C} {a : Act C D V E}
    {r : Except E (Option V)} (h : FlightStep s t f a)
    (hs : (s.flights f).Recorded f (s.producingSince f) (s.yielded f))
    (hr : s.yielded f = some r) : t.yielded f = some r := by
  cases h with
  | keep _ _ hyield | born _ _ _ _ hyield | reread _ _ _ hyield | found _ _ _ _ hyield
    | run _ _ _ hyield | store _ _ _ _ _ hyield | settle _ _ _ _ hyield => rw [hyield, hr]
  | produce value _ h =>
    rw [h, hr] at hs
    exact absurd hs.2 (by simp)
  | fail e _ h =>
    rw [h, hr] at hs
    exact absurd hs.2 (by simp)

theorem FlightStep.settled_mono {s t : St C D V E} {f : C} {a : Act C D V E}
    {result : Except E (Stored C V)} (h : FlightStep s t f a)
    (hs : s.flights f = .settled result) : t.flights f = .settled result := by
  cases h with
  | keep h => rw [h, hs]
  | born _ h | reread h | found _ h | run h | produce _ _ h | fail _ _ h | store _ h
    | settle _ h => exact absurd (hs.symm.trans h) (by simp)

section Moves

variable [DecidableEq C] [DecidableEq D]

/-- The calls that have returned after an action. -/
theorem Moves.returned {s t : St C D V E} {a : Act C D V E} {c : C} {via : Option C}
    {result : Except E (Stored C V)} (h : Moves s a t) (hc : t.calls c = .returned via result) :
    s.calls c = .returned via result ∨
      (via = none ∧ ∃ p, s.calls c = .reading (some (some p)) ∧ result = .ok (some p)) ∨
        ∃ f, via = some f ∧ s.calls c = .awaiting f ∧ s.flights f = .settled result := by
  have hmoved : ∀ {c' : C} {call : Call C V E}, (s.setCall c' call).calls c = .returned via result →
      s.calls c = .returned via result ∨ (c = c' ∧ call = .returned via result) :=
    St.setCall_calls (· = .returned via result)
  cases h with
  | getOrSet h | read h | join h | lead h =>
    exact .inl ((hmoved hc).resolve_right fun h => nomatch h.2)
  | @hit c' p h =>
    rcases hmoved hc with hold | ⟨rfl, hnew⟩
    · exact .inl hold
    · cases hnew
      exact .inr (.inl ⟨rfl, p, h, rfl⟩)
  | @wake c' f r h hf =>
    rcases hmoved hc with hold | ⟨rfl, hnew⟩
    · exact .inl hold
    · cases hnew
      exact .inr (.inr ⟨f, rfl, h, hf⟩)
  | reread | found | run | produce | fail | store | settle | del | delete | deleted =>
    exact .inl hc

theorem Moves.recorded {content : Option V} {s t : St C D V E} {a : Act C D V E}
    (h : Moves s a t) (hl : Locked s) (hs : Recorded content s) : Recorded content t := by
  refine ⟨fun f => (h.flightStep hl f).recorded (hs.flight f), fun p hp => ?_,
    fun c f result hc => ?_, fun c result hc => ?_⟩
  · rcases h.circulates hp with hp | ⟨f, v, ha, hf, rfl⟩
    · rcases hs.origin p hp with hp | ⟨f, hpf, hv⟩
      · exact .inl hp
      · exact .inr ⟨f, hpf, (h.flightStep hl f).yielded_mono (hs.flight f) hv⟩
    · subst ha
      refine .inr ⟨f, rfl, ?_⟩
      cases h with
      | produce _ => exact Function.update_self ..
  · rcases h.returned hc with hc | ⟨hvia, -⟩ | ⟨f', hvia, -, hf'⟩
    · exact (h.flightStep hl f).settled_mono (hs.told c f result hc)
    · exact absurd hvia (by simp)
    · obtain rfl := Option.some.inj hvia
      exact (h.flightStep hl f).settled_mono hf'
  · rcases h.returned hc with hc | ⟨-, p, -, hp⟩ | ⟨f', hvia, -⟩
    · exact hs.hit c result hc
    · exact ⟨p, hp⟩
    · exact absurd hvia (by simp)

theorem Reached.recorded {content : Option V} {run : List (Act C D V E)} {s : St C D V E}
    (h : Reached step (start content) run s) : Recorded content s := by
  have hstep : ∀ u, ∀ a ∈ run, Locked u ∧ Recorded content u →
      Locked (step u a) ∧ Recorded content (step u a) := by
    intro u a _ hu
    refine ⟨hu.1.step a, ?_⟩
    rcases step_cases u a with hs | ⟨t, hmove, hs⟩
    · rw [hs]
      exact hu.2
    · rw [hs]
      exact (hmove.recorded hu.1 hu.2).of_eq rfl rfl rfl rfl rfl
  have hboth : Locked s ∧ Recorded content s :=
    h.invariant (I := fun u => Locked u ∧ Recorded content u)
      ⟨locked_start content, recorded_start content⟩ hstep
  exact hboth.2

end Moves

/-! ## 2. One factory in total -/

/-- The action is none of a deletion. -/
def Act.Quiet : Act C D V E → Prop
  | .del _ | .delete _ | .deleted _ => False
  | _ => True

instance : DecidablePred (Act.Quiet : Act C D V E → Prop)
  | .del _ | .delete _ | .deleted _ => isFalse id
  | .getOrSet _ | .read _ | .resume _ | .reread _ | .recheck _ | .produce _ _ | .store _
  | .settle _ | .wake _ => isTrue trivial

/-- What the flight stores or is settled with is a value. -/
def Flight.Fruitful : Flight C V E → Prop
  | .storing value _ => value.isSome = true
  | .settled result => ∃ p, result = .ok (some p)
  | _ => True

/-- **At most one factory has run, and nobody is about to run another:** whoever's second read
    misses, reads before any factory has run; and once one has, its value is with its flight
    or in the cache. -/
structure Single (s : St C D V E) : Prop where
  one : ∀ f f', (s.producingSince f).isSome = true → (s.producingSince f').isSome = true → f = f'
  missed : ∀ f, s.flights f = .rechecking (some none) → ∀ f', s.producingSince f' = none
  kept : ∀ f, (s.producingSince f).isSome = true →
    s.flights f = .running ∨ (∃ p, s.flights f = .storing (some p) false) ∨
      s.cache.isSome = true
  fruitful : ∀ f, (s.flights f).Fruitful

theorem Recorded.returned_value {s : St C D V E} (h : Recorded none s)
    (hfruit : ∀ f, (s.flights f).Fruitful) {c : C} {via : Option C}
    {result : Except E (Stored C V)} (hc : s.calls c = .returned via result) :
    ∃ f v, s.yielded f = some (.ok (some v)) ∧ result = .ok (some ⟨v, some f⟩) := by
  obtain ⟨p, hp⟩ : ∃ p, result = .ok (some p) := by
    cases via with
    | none => exact h.hit c result hc
    | some f =>
      have hf := hfruit f
      rw [h.told c f result hc] at hf
      exact hf
  subst hp
  rcases h.origin p (call_has hc rfl) with ⟨-, hnone⟩ | ⟨f, hpf, hv⟩
  · exact absurd hnone (by simp)
  · refine ⟨f, p.value, hv, ?_⟩
    rw [← hpf]

theorem single_start : Single (start none : St C D V E) :=
  ⟨fun f f' h => absurd h (by simp [start]), fun f h => absurd h (by simp [start]),
    fun f h => absurd h (by simp [start]), fun f => trivial⟩

theorem Single.of_eq {s t : St C D V E} (h : Single s) (hcache : t.cache = s.cache)
    (hflights : t.flights = s.flights) (hsince : t.producingSince = s.producingSince) :
    Single t := by
  obtain ⟨hone, hmissed, hkept, hfruit⟩ := h
  refine ⟨?_, ?_, ?_, ?_⟩
  · rw [hsince]; exact hone
  · rw [hflights, hsince]; exact hmissed
  · rw [hflights, hsince, hcache]; exact hkept
  · rw [hflights]; exact hfruit

/-- The factories that have been called after an action. -/
theorem FlightStep.started {s t : St C D V E} {f : C} {a : Act C D V E}
    (h : FlightStep s t f a) (ht : (t.producingSince f).isSome = true) :
    (s.producingSince f).isSome = true ∨
      (s.flights f = .rechecking (some none) ∧ t.flights f = .running) := by
  cases h with
  | keep _ hsince | born _ _ _ hsince | reread _ _ hsince | found _ _ _ hsince
    | produce _ _ _ _ hsince | fail _ _ _ _ hsince | store _ _ _ _ hsince
    | settle _ _ _ hsince => exact .inl (hsince ▸ ht)
  | run h h' => exact .inr ⟨h, h'⟩

/-- The action makes no factory fail or return nil. -/
def Yields (s : St C D V E) (a : Act C D V E) : Prop :=
  ∀ f r, a = .produce f r → s.flights f = .running → ∃ v, r = .ok (some v)

theorem FlightStep.fruitful {s t : St C D V E} {f : C} {a : Act C D V E}
    (h : FlightStep s t f a) (hyields : Yields s a) (hs : (s.flights f).Fruitful) :
    (t.flights f).Fruitful := by
  cases h with
  | keep h => rw [h]; exact hs
  | born _ _ h' | reread _ h' | run _ h' => rw [h']; trivial
  | found p _ h' => rw [h']; exact ⟨p, rfl⟩
  | produce value ha h h' =>
    obtain ⟨v, hv⟩ := hyields f _ ha h
    rw [h', Except.ok.inj hv]
    rfl
  | fail e ha h =>
    obtain ⟨v, hv⟩ := hyields f _ ha h
    exact absurd hv (by simp)
  | store value h h' =>
    rw [h] at hs
    rw [h']
    exact hs
  | settle value h h' =>
    rw [h] at hs
    obtain ⟨p, hp⟩ := Option.isSome_iff_exists.mp hs
    rw [h', hp]
    exact ⟨p, rfl⟩

variable [DecidableEq C] [DecidableEq D]

/-- Without deletions a value stays in the cache. -/
theorem Moves.cache_isSome {s t : St C D V E} {a : Act C D V E} (h : Moves s a t)
    (hquiet : a.Quiet) (hs : Single s) (hcache : s.cache.isSome = true) :
    t.cache.isSome = true := by
  rcases h.cache with h | ⟨f, hf⟩ | ⟨d, rfl, -⟩
  · rw [h]
    exact hcache
  · have hfruit := hs.fruitful f
    rw [hf] at hfruit
    exact hfruit
  · exact hquiet.elim

theorem Moves.single {s t : St C D V E} {a : Act C D V E} (h : Moves s a t) (hl : Locked s)
    (hquiet : a.Quiet) (hyields : Yields s a) (hs : Single s) : Single t := by
  refine ⟨fun f f' hf hf' => ?_, fun f hf f' => ?_, fun f hf => ?_,
    fun f => (h.flightStep hl f).fruitful hyields (hs.fruitful f)⟩
  · -- a factory that starts now is the first one
    rcases (h.flightStep hl f).started hf with hsf | ⟨hmiss, -⟩
    · rcases (h.flightStep hl f').started hf' with hsf' | ⟨hmiss', -⟩
      · exact hs.one f f' hsf hsf'
      · rw [hs.missed f' hmiss' f] at hsf
        exact absurd hsf (by simp)
    · rcases (h.flightStep hl f').started hf' with hsf' | ⟨hmiss', -⟩
      · rw [hs.missed f hmiss f'] at hsf'
        exact absurd hsf' (by simp)
      · exact hl.open_unique (open_of_eq hmiss trivial) (open_of_eq hmiss' trivial)
  · -- a flight whose second read has missed is the one under way, and no factory has run
    have hopen : (s.flights f).Open ∧ ∀ f', s.producingSince f' = none := by
      cases h.flightStep hl f with
      | keep h => exact ⟨open_of_eq (h.symm.trans hf) trivial, hs.missed f (h.symm.trans hf)⟩
      | reread h h' =>
        refine ⟨open_of_eq h trivial, fun f' => ?_⟩
        have hnone : s.cache = none := by simpa [h'] using hf
        by_contra hstarted
        rcases hs.kept f' (Option.isSome_iff_ne_none.mpr hstarted) with hrun | ⟨p, hrun⟩ | hcache
        · obtain rfl := hl.open_unique (open_of_eq h trivial) (open_of_eq hrun trivial)
          exact absurd (h.symm.trans hrun) (by simp)
        · obtain rfl := hl.open_unique (open_of_eq h trivial) (open_of_eq hrun trivial)
          exact absurd (h.symm.trans hrun) (by simp)
        · rw [hnone] at hcache
          exact absurd hcache (by simp)
      | born _ _ h' | found _ _ h' | run _ h' | produce _ _ _ h' | fail _ _ _ h' | store _ _ h'
        | settle _ _ h' => exact absurd (h'.symm.trans hf) (by simp)
    by_contra hstarted
    rcases (h.flightStep hl f').started (Option.isSome_iff_ne_none.mpr hstarted) with hsf' | ⟨hmiss, hrun⟩
    · rw [hopen.2 f'] at hsf'
      exact absurd hsf' (by simp)
    · obtain rfl := hl.open_unique hopen.1 (open_of_eq hmiss trivial)
      exact absurd (hf.symm.trans hrun) (by simp)
  · rcases (h.flightStep hl f).started hf with hsf | ⟨-, hrun⟩
    · rcases hs.kept f hsf with hrun | ⟨p, hstoring⟩ | hcache
      · cases h.flightStep hl f with
        | keep h => exact .inl (h.trans hrun)
        | produce value ha h h' =>
          obtain ⟨v, hv⟩ := hyields f _ ha h
          rw [Except.ok.inj hv] at h'
          exact .inr (.inl ⟨_, h'⟩)
        | fail e ha h =>
          obtain ⟨v, hv⟩ := hyields f _ ha h
          exact absurd hv (by simp)
        | born _ h | reread h | found _ h | run h | store _ h | settle _ h =>
          exact absurd (hrun.symm.trans h) (by simp)
      · cases h.flightStep hl f with
        | keep h => exact .inr (.inl ⟨p, h.trans hstoring⟩)
        | store value h h' hcache =>
          have hvalue : some p = value := by simpa using hstoring.symm.trans h
          exact .inr (.inr (by rw [hcache, ← hvalue]; rfl))
        | born _ h | reread h | found _ h | run h | produce _ _ h | fail _ _ h | settle _ h =>
          exact absurd (hstoring.symm.trans h) (by simp)
      · exact .inr (.inr (h.cache_isSome hquiet hs hcache))
    · exact .inl hrun

theorem Reached.single {run : List (Act C D V E)} {s : St C D V E}
    (hquiet : ∀ a ∈ run, a.Quiet)
    (hyields : ∀ u a, Fired step (start none) run u a → Yields u a)
    (h : Reached step (start none) run s) : Single s := by
  have hstep : ∀ u a, Fired step (start none) run u a → Locked u ∧ Single u →
      Locked (step u a) ∧ Single (step u a) := by
    intro u a hf hu
    refine ⟨hu.1.step a, ?_⟩
    rcases step_cases u a with hs | ⟨t, hmove, hs⟩
    · rw [hs]
      exact hu.2
    · rw [hs]
      exact (hmove.single hu.1 (hquiet a hf.mem) (hyields u a hf) hu.2).of_eq rfl rfl rfl
  have hboth : Locked s ∧ Single s :=
    h.invariant_fired (I := fun u => Locked u ∧ Single u) ⟨locked_start none, single_start⟩ hstep
  exact hboth.2

/-! ## 3. When a factory fails -/

/-- While a flight has missed twice, nothing is in the cache. -/
def Vacant (s : St C D V E) : Prop :=
  ∀ f, s.flights f = .rechecking (some none) ∨ s.flights f = .running → s.cache = none

theorem Moves.vacant {s t : St C D V E} {a : Act C D V E} (h : Moves s a t) (hl : Locked s)
    (hquiet : a.Quiet) (hs : Vacant s) : Vacant t := by
  intro f hf
  -- the flight was under way before, so no other one stores
  have hbefore : (s.flights f).Open ∧ (∀ value, s.flights f ≠ .storing value false) ∧
      s.cache = none := by
    cases h.flightStep hl f with
    | keep h =>
      rw [h] at hf
      refine ⟨?_, ?_, hs f hf⟩
      · rcases hf with hf | hf <;> exact open_of_eq hf trivial
      · rcases hf with hf | hf <;> rw [hf] <;> simp
    | reread h h' =>
      refine ⟨open_of_eq h trivial, by rw [h]; simp, ?_⟩
      rw [h'] at hf
      simpa using hf
    | run h => exact ⟨open_of_eq h trivial, by rw [h]; simp, hs f (.inl h)⟩
    | born _ _ h' | found _ _ h' | produce _ _ _ h' | fail _ _ _ h' | store _ _ h'
      | settle _ _ h' =>
      rw [h'] at hf
      simp at hf
  obtain ⟨hopen, hnot, hcache⟩ := hbefore
  rcases h.cache with h | ⟨g, hg⟩ | ⟨d, rfl, -⟩
  · rw [h, hcache]
  · obtain rfl := hl.open_unique hopen (open_of_eq hg trivial)
    exact absurd hg (hnot _)
  · exact hquiet.elim

theorem Reached.vacant {content : Option V} {run : List (Act C D V E)} {s : St C D V E}
    (hquiet : ∀ a ∈ run, a.Quiet) (h : Reached step (start content) run s) : Vacant s := by
  have hstep : ∀ u, ∀ a ∈ run, Locked u ∧ Vacant u → Locked (step u a) ∧ Vacant (step u a) := by
    intro u a ha hu
    refine ⟨hu.1.step a, ?_⟩
    rcases step_cases u a with hs | ⟨t, hmove, hs⟩
    · rw [hs]
      exact hu.2
    · rw [hs]
      exact hmove.vacant hu.1 (hquiet a ha) hu.2
  have hstart : Vacant (start content : St C D V E) := by
    intro f hf
    rcases hf with hf | hf <;> exact absurd hf (by simp [start])
  have hboth : Locked s ∧ Vacant s :=
    h.invariant (I := fun u => Locked u ∧ Vacant u) ⟨locked_start content, hstart⟩ hstep
  exact hboth.2

/-- The steps of a call that nobody disturbs, up to its factory. -/
def alone (c : C) : List (Act C D V E) :=
  [.getOrSet c, .read c, .resume c, .reread c, .recheck c]

/-- With nothing cached and nothing in flight, a new call runs its factory. -/
theorem alone_runs {s : St C D V E} {c : C} (hc : s.calls c = .idle) (hmap : s.inFlight = none)
    (hcache : s.cache = none) : ((alone c).foldl step s).flights c = .running := by
  simp [alone, step, act?, hc, hmap, hcache, St.setCall, St.setFlight]

/-- What is awaited after `s₁` was awaited then, or has been started since. -/
structure Since (s₁ s : St C D V E) : Prop where
  map : ∀ f, s.inFlight = some f → s₁.flights f = .unborn
  awaiting : ∀ c f, s.calls c = .awaiting f →
    s₁.calls c ≠ .idle ∨ s₁.flights f = .unborn
  returned : ∀ c f result, s.calls c = .returned (some f) result →
    s₁.calls c ≠ .idle ∨ s₁.flights f = .unborn
  unborn : ∀ f, s.flights f = .unborn → s₁.flights f = .unborn

/-- The calls that await a flight after an action. -/
theorem Moves.awaiting {s t : St C D V E} {a : Act C D V E} {c f : C} (h : Moves s a t)
    (hc : t.calls c = .awaiting f) :
    s.calls c = .awaiting f ∨ s.inFlight = some f ∨
      (f = c ∧ s.calls c = .reading (some none)) := by
  have hmoved : ∀ {c' : C} {call : Call C V E}, (s.setCall c' call).calls c = .awaiting f →
      s.calls c = .awaiting f ∨ (c = c' ∧ call = .awaiting f) :=
    St.setCall_calls (· = .awaiting f)
  cases h with
  | getOrSet h | read h | hit h | wake h =>
    exact .inl ((hmoved hc).resolve_right fun h => nomatch h.2)
  | @join c' g h hg =>
    rcases hmoved hc with hold | ⟨-, hnew⟩
    · exact .inl hold
    · exact .inr (.inl (hg.trans (congrArg some (Call.awaiting.inj hnew))))
  | @lead c' h hmap =>
    rcases hmoved hc with hold | ⟨rfl, hnew⟩
    · exact .inl hold
    · exact .inr (.inr ⟨(Call.awaiting.inj hnew).symm, h⟩)
  | reread | found | run | produce | fail | store | settle | del | delete | deleted =>
    exact .inl hc

theorem Moves.since {s₁ s t : St C D V E} {a : Act C D V E} (h : Moves s a t) (hl : Locked s)
    (hs : Since s₁ s) : Since s₁ t := by
  refine ⟨fun f hf => ?_, fun c f hc => ?_, fun c f result hc => ?_, fun f hf => ?_⟩
  · have hopen : (t.flights f).Open := ((h.locked hl).lock f).mpr hf
    cases h.flightStep hl f with
    | keep h => exact hs.map f ((hl.lock f).mp (h ▸ hopen))
    | born _ h => exact hs.unborn f h
    | reread h | run h | produce _ _ h | store _ h =>
      exact hs.map f ((hl.lock f).mp (open_of_eq h trivial))
    | found _ _ h' | fail _ _ _ h' | settle _ _ h' =>
      rw [h'] at hopen
      exact hopen.elim
  · rcases h.awaiting hc with hc | hmap | ⟨rfl, hreading⟩
    · exact hs.awaiting c f hc
    · exact .inr (hs.map f hmap)
    · exact .inr (hs.unborn f (hl.unborn f (.inr ⟨_, hreading⟩)))
  · rcases h.returned hc with hc | ⟨hvia, -⟩ | ⟨f', hvia, hc, -⟩
    · exact hs.returned c f result hc
    · exact absurd hvia (by simp)
    · obtain rfl := Option.some.inj hvia
      exact hs.awaiting c f hc
  · cases h.flightStep hl f with
    | keep h => exact hs.unborn f (h.symm.trans hf)
    | born _ h => exact hs.unborn f h
    | reread _ h' | run _ h' | produce _ _ _ h' | store _ _ h' | found _ _ h' | fail _ _ _ h'
      | settle _ _ h' => exact absurd (h'.symm.trans hf) (by simp)

theorem Reached.since {s₁ s : St C D V E} {run : List (Act C D V E)} (hl : Locked s₁)
    (hmap : s₁.inFlight = none) (h : Reached step s₁ run s) : Since s₁ s := by
  have hstep : ∀ u, ∀ a ∈ run, Locked u ∧ Since s₁ u → Locked (step u a) ∧ Since s₁ (step u a) := by
    intro u a _ hu
    refine ⟨hu.1.step a, ?_⟩
    rcases step_cases u a with hs | ⟨t, hmove, hs⟩
    · rw [hs]
      exact hu.2
    · rw [hs]
      obtain ⟨hmap, hawaiting, hreturned, hunborn⟩ := hmove.since hu.1 hu.2
      exact ⟨hmap, hawaiting, hreturned, hunborn⟩
  have hstart : Since s₁ s₁ := by
    refine ⟨fun f hf => ?_, fun c f hc => .inl ?_, fun c f result hc => .inl ?_, fun f hf => hf⟩
    · exact absurd (hmap.symm.trans hf) (by simp)
    · rw [hc]
      simp
    · rw [hc]
      simp
  have hboth : Locked s ∧ Since s₁ s :=
    h.invariant (I := fun u => Locked u ∧ Since s₁ u) ⟨hl, hstart⟩ hstep
  exact hboth.2

/-! ## 4. The promise -/

/-- The action is a call or a flight going on. -/
def Act.Continues : Act C D V E → Prop
  | .getOrSet _ | .del _ | .delete _ | .deleted _ => False
  | _ => True

/-- A call that has not returned, or the flight it awaits, can go on. -/
theorem Locked.progress {s : St C D V E} (h : Locked s) {c : C} (hbegun : s.calls c ≠ .idle)
    (hopen : ∀ via result, s.calls c ≠ .returned via result) :
    ∃ a t, Moves s a t ∧ a.Continues := by
  cases hc : s.calls c with
  | idle => exact absurd hc hbegun
  | returned via result => exact absurd hc (hopen via result)
  | reading got =>
    cases got with
    | none => exact ⟨_, _, .read hc, trivial⟩
    | some stored =>
      cases stored with
      | some p => exact ⟨_, _, .hit hc, trivial⟩
      | none =>
        cases hmap : s.inFlight with
        | some f => exact ⟨_, _, .join hc hmap, trivial⟩
        | none => exact ⟨_, _, .lead hc hmap, trivial⟩
  | awaiting f =>
    cases hf : s.flights f with
    | unborn => exact absurd hf (h.awaited c f hc)
    | rechecking got =>
      cases got with
      | none => exact ⟨_, _, .reread hf, trivial⟩
      | some stored =>
        cases stored with
        | some p => exact ⟨_, _, .found hf, trivial⟩
        | none => exact ⟨_, _, .run hf, trivial⟩
    | running => exact ⟨.produce f (.ok none), _, .produce hf, trivial⟩
    | storing value applied =>
      cases applied with
      | false => exact ⟨_, _, .store hf, trivial⟩
      | true => exact ⟨_, _, .settle hf, trivial⟩
    | settled result => exact ⟨_, _, .wake hc hf, trivial⟩

/-- **Single flight**, of a run from a service that has seen no call, with `content` in the
    cache. -/
structure SingleFlight (content : Option V) (run : List (Act C D V E)) : Prop where
  /-- At most one factory is running at any time. -/
  oneAtATime : ∀ s, Reached step (start content) run s → ∀ f f',
    s.flights f = .running → s.flights f' = .running → f = f'
  /-- From an empty cache, if no factory fails or returns nil, at most one is ever called, -/
  oneInTotal : content = none → (∀ u a, Fired step (start content) run u a → Yields u a) →
    ∀ s, Reached step (start content) run s → ∀ f f',
      (s.producingSince f).isSome = true → (s.producingSince f').isSome = true → f = f'
  /-- and a call that has returned has returned what that one did. -/
  sameValue : content = none → (∀ u a, Fired step (start content) run u a → Yields u a) →
    ∀ s, Reached step (start content) run s → ∀ c via result,
      s.calls c = .returned via result → ∃ f v, (s.producingSince f).isSome = true ∧
        s.yielded f = some (.ok (some v)) ∧ result = .ok (some ⟨v, some f⟩)
  /-- When nothing can go on, every call has returned. -/
  allReturn : ∀ s, Reached step (start content) run s →
    (∀ a, a.Continues → act? s a = none) →
      ∀ c, s.calls c = .idle ∨ ∃ via result, s.calls c = .returned via result
  /-- A call that failed awaited a flight whose factory failed so. -/
  failure : ∀ s, Reached step (start content) run s → ∀ c via e,
    s.calls c = .returned via (.error e) → ∃ f, via = some f ∧ s.yielded f = some (.error e)
  /-- After a factory has failed, a call that begins runs its own, if it runs alone, -/
  freshFactory : ∀ u f e, Fired step (start content) run u (.produce f (.error e)) →
    u.flights f = .running → ∀ c, (step u (.produce f (.error e))).calls c = .idle →
      ((alone c).foldl step (step u (.produce f (.error e)))).flights c = .running
  /-- and awaits only flights that were started after the failure, in any case. -/
  freshFlight : ∀ u f e rest, FiredThen step (start content) run u (.produce f (.error e)) rest →
    u.flights f = .running → ∀ s, Reached step (step u (.produce f (.error e))) rest s →
      ∀ c f', (step u (.produce f (.error e))).calls c = .idle →
        (s.calls c = .awaiting f' ∨ ∃ result, s.calls c = .returned (some f') result) →
          (step u (.produce f (.error e))).flights f' = .unborn

/-- What is left when a factory fails. -/
theorem step_fail {s : St C D V E} {f : C} {e : E} (h : s.flights f = .running) :
    (step s (.produce f (.error e))).inFlight = none ∧
      (step s (.produce f (.error e))).cache = s.cache := by
  have hact : act? s (.produce f (.error e)) = some { s.land f (.error e) with
      yielded := Function.update s.yielded f (some (.error e)) } := act?_eq_some.mpr (.fail h)
  unfold step
  rw [hact]
  exact ⟨rfl, rfl⟩

/-- **`getOrSet` is single flight** in every run without deletions. -/
theorem singleFlight {content : Option V} {run : List (Act C D V E)}
    (hquiet : ∀ a ∈ run, a.Quiet) : SingleFlight content run where
  oneAtATime s hs f f' hf hf' :=
    (Reached.locked hs).open_unique (open_of_eq hf trivial) (open_of_eq hf' trivial)
  oneInTotal hcold hyields s hs := by
    subst hcold
    exact (Reached.single hquiet hyields hs).one
  sameValue hcold hyields s hs c via result hc := by
    subst hcold
    have hrec := Reached.recorded hs
    obtain ⟨f, v, hv, hresult⟩ :=
      hrec.returned_value (Reached.single hquiet hyields hs).fruitful hc
    exact ⟨f, v, hrec.started_of_yielded hv, hv, hresult⟩
  allReturn s hs hstuck c := by
    by_contra hnot
    obtain ⟨hbegun, hopen⟩ := not_or.mp hnot
    obtain ⟨a, t, hmove, hcont⟩ := (Reached.locked hs).progress hbegun
      fun via result h => hopen ⟨via, result, h⟩
    have hact := hstuck a hcont
    rw [act?_eq_some.mpr hmove] at hact
    exact absurd hact (by simp)
  failure s hs c via e hc := by
    have hrec := Reached.recorded hs
    cases via with
    | none =>
      obtain ⟨p, hp⟩ := hrec.hit c _ hc
      exact absurd hp (by simp)
    | some f =>
      have hf := hrec.flight f
      rw [hrec.told c f _ hc] at hf
      exact ⟨f, rfl, hf.2⟩
  freshFactory u f e hfired hf c hc := by
    obtain ⟨hmap, hcache⟩ := step_fail (e := e) hf
    have hvacant := Reached.vacant hquiet hfired.reached
    exact alone_runs hc hmap (hcache.trans (hvacant f (.inr hf)))
  freshFlight u f e rest hfired hf s hs c f' hc hvia := by
    have hl := Reached.locked (fired_iff_firedThen.mpr ⟨rest, hfired⟩).reached
    have hsince := Reached.since (hl.step _) (step_fail (e := e) hf).1 hs
    rcases hvia with h | ⟨result, h⟩
    · exact (hsince.awaiting c f' h).resolve_left fun hne => hne hc
    · exact (hsince.returned c f' result h).resolve_left fun hne => hne hc

/-- Two calls begin together, and the second joins the flight of the first. -/
def twoCallers : List (Act Nat Nat String String) :=
  [.getOrSet 0, .getOrSet 1, .read 0, .read 1, .resume 0, .resume 1, .reread 0, .recheck 0,
    .produce 0 (.ok (some "grant")), .store 0, .settle 0, .wake 0, .wake 1]

theorem singleFlight_twoCallers : SingleFlight none twoCallers := singleFlight (by decide)

end MemoryCache

end ShieldApi
