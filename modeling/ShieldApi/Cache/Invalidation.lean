import ShieldApi.Cache.SingleFlight

/-!
# Is a deletion final?

Whoever changes what a cached value is made of deletes the key, and relies on later calls to
make the value anew. **A deletion removes what is in the cache and leaves what is on its way
there.** A flight that ran its factory before the deletion is still in the map, hands its value to
callers who come after, and stores it.

`NothingOld` is what has to be so at the moment a deletion is over, and `invalidationFinal` says
that it is enough: no call that begins later returns a value older than the deletion.
-/

set_option autoImplicit false

namespace ShieldApi

namespace MemoryCache

variable {C D V E : Type}

/-! ## 1. Old values -/

/-- The value was produced by a factory that was called after `t`. -/
def After (s : St C D V E) (t : Nat) (p : Produced C V) : Prop :=
  ∃ f k, p.producer = some f ∧ s.producingSince f = some k ∧ t < k

/-- **A call that begins after a deletion is over returns no value of a factory called before.** -/
def InvalidationFinal (s : St C D V E) : Prop :=
  ∀ c via p, s.calls c = .returned via (.ok (some p)) →
    ∀ b, s.begunAt c = some b → ∀ t ∈ s.deletedAt, t < b → After s t p

/-- The flight has a value, or is about to have one. -/
def Flight.Carries : Flight C V E → Prop
  | .rechecking (some (some _)) | .running | .storing (some _) _ => True
  | _ => False

/-- Nothing is in the cache, and the flight under way has no value and runs no factory. -/
structure NothingOld (s : St C D V E) : Prop where
  cache : s.cache = none
  flight : ∀ f, ¬ (s.flights f).Carries

/-! ## 2. What stays new -/

/-- The flight's value, and that of its factory, are newer than `t`. -/
structure FlightAfter (s : St C D V E) (t : Nat) (f : C) : Prop where
  value : ∀ p, (s.flights f).Has p → After s t p
  running : s.flights f = .running → ∃ k, s.producingSince f = some k ∧ t < k

/-- **Everything a call begun after `t` can get at is newer than `t`.** -/
structure Fresh (s : St C D V E) (t : Nat) : Prop where
  cache : ∀ p, s.cache = some p → After s t p
  map : ∀ f, s.inFlight = some f → FlightAfter s t f
  awaited : ∀ c f b, s.calls c = .awaiting f → s.begunAt c = some b → t < b → FlightAfter s t f
  call : ∀ c p b, (s.calls c).Has p → s.begunAt c = some b → t < b → After s t p

/-- The record's clock is ahead of what it recorded. -/
structure Timed (s : St C D V E) : Prop where
  begun : ∀ c b, s.begunAt c = some b → b < s.time
  producing : ∀ f k, s.producingSince f = some k → k < s.time
  deleted : ∀ t ∈ s.deletedAt, t < s.time

theorem flightAfter_unborn {s : St C D V E} {t : Nat} {f : C} (h : s.flights f = .unborn) :
    FlightAfter s t f := by
  refine ⟨fun p hp => ?_, fun hr => ?_⟩
  · rw [h] at hp
    exact hp.elim
  · exact absurd (h.symm.trans hr) (by simp)

/-- A factory is called once, so when it was called does not change. -/
theorem FlightStep.since_mono {s u : St C D V E} {f : C} {a : Act C D V E} {k : Nat}
    (h : FlightStep s u f a)
    (hs : (s.flights f).Recorded f (s.producingSince f) (s.yielded f))
    (hk : s.producingSince f = some k) : u.producingSince f = some k := by
  cases h with
  | keep _ hsince | born _ _ _ hsince | reread _ _ hsince | found _ _ _ hsince
    | produce _ _ _ _ hsince | fail _ _ _ _ hsince | store _ _ _ _ hsince
    | settle _ _ _ hsince => rw [hsince, hk]
  | run h =>
    rw [h, hk] at hs
    exact absurd hs.1 (by simp)

/-- A flight under way that has a value carries it. -/
theorem Flight.Open.carries {flight : Flight C V E} {p : Produced C V} (h : flight.Open)
    (hp : flight.Has p) : flight.Carries := by
  cases flight with
  | unborn => exact h.elim
  | settled result => exact h.elim
  | running => trivial
  | rechecking got =>
    cases got with
    | none => exact hp.elim
    | some stored =>
      cases stored with
      | none => exact hp.elim
      | some q => trivial
  | storing value applied =>
    cases value with
    | none => exact hp.elim
    | some q => trivial

theorem Flight.Carries.isOpen {flight : Flight C V E} (h : flight.Carries) : flight.Open := by
  cases flight with
  | unborn | settled _ => exact h
  | rechecking | running | storing => trivial

/-- When a deletion is over, with nothing old around, all is newer than it. -/
theorem NothingOld.fresh {s : St C D V E} (h : NothingOld s) (hl : Locked s) (hs : Timed s) :
    Fresh s s.time := by
  refine ⟨fun p hp => ?_, fun f hf => ⟨fun p hp => ?_, fun hr => ?_⟩, fun c f b _ hb hlt => ?_,
    fun c p b _ hb hlt => ?_⟩
  · exact absurd (h.cache.symm.trans hp) (by simp)
  · exact absurd (((hl.lock f).mpr hf).carries hp) (h.flight f)
  · have hcarries := h.flight f
    rw [hr] at hcarries
    exact absurd trivial hcarries
  · exact absurd (hs.begun c b hb) (Nat.lt_asymm hlt)
  · exact absurd (hs.begun c b hb) (Nat.lt_asymm hlt)

theorem Fresh.of_eq {s u : St C D V E} {t : Nat} (h : Fresh s t) (hcache : u.cache = s.cache)
    (hmap : u.inFlight = s.inFlight) (hcalls : u.calls = s.calls) (hflights : u.flights = s.flights)
    (hbegun : u.begunAt = s.begunAt) (hsince : u.producingSince = s.producingSince) :
    Fresh u t := by
  have hafter : ∀ p, After s t p → After u t p := by
    intro p hp
    unfold After at hp ⊢
    rw [hsince]
    exact hp
  have hflight : ∀ f, FlightAfter s t f → FlightAfter u t f := by
    intro f hf
    refine ⟨fun p hp => hafter p (hf.value p (hflights ▸ hp)), fun hr => ?_⟩
    rw [hsince]
    exact hf.running (hflights ▸ hr)
  refine ⟨?_, ?_, ?_, ?_⟩
  · rw [hcache]
    exact fun p hp => hafter p (h.cache p hp)
  · rw [hmap]
    exact fun f hf => hflight f (h.map f hf)
  · rw [hcalls, hbegun]
    exact fun c f b hc hb hlt => hflight f (h.awaited c f b hc hb hlt)
  · rw [hcalls, hbegun]
    exact fun c p b hc hb hlt => hafter p (h.call c p b hc hb hlt)

section Steps

variable [DecidableEq C] [DecidableEq D]

theorem After.step {content : Option V} {s u : St C D V E} {a : Act C D V E} {t : Nat}
    {p : Produced C V} (h : After s t p) (hmove : Moves s a u) (hl : Locked s)
    (hrec : Recorded content s) : After u t p := by
  obtain ⟨f, k, hf, hk, ht⟩ := h
  exact ⟨f, k, hf, (hmove.flightStep hl f).since_mono (hrec.flight f) hk, ht⟩

/-- A flight newer than `t` stays so: it reads a cache that is, or runs its factory now. -/
theorem FlightAfter.step {content : Option V} {s u : St C D V E} {a : Act C D V E} {t : Nat}
    {f : C} (h : FlightAfter s t f) (hmove : Moves s a u) (hl : Locked s)
    (hrec : Recorded content s) (ht : t < s.time) (hcache : ∀ p, s.cache = some p → After s t p) :
    FlightAfter u t f := by
  have hafter : ∀ p, After s t p → After u t p := fun p hp => hp.step hmove hl hrec
  -- a flight that has the value it had, and does not run
  have hsame : ∀ flight, u.flights f = flight → flight ≠ .running →
      (∀ p, flight.Has p → After s t p) → FlightAfter u t f := by
    intro flight hflight hrun hvalue
    refine ⟨fun p hp => hafter p (hvalue p (hflight ▸ hp)), fun hr => ?_⟩
    exact absurd (hflight.symm.trans hr) hrun
  have hstep := hmove.flightStep hl f
  cases hstep with
  | keep h' hsince =>
    refine ⟨fun p hp => hafter p (h.value p (h' ▸ hp)), fun hr => ?_⟩
    rw [hsince]
    exact h.running (h'.symm.trans hr)
  | born _ _ h' => exact hsame _ h' (by simp) fun p hp => hp.elim
  | reread _ h' =>
    exact hsame _ h' (by simp) fun p hp => hcache p (Flight.has_rechecking.mp hp)
  | found q h₀ h' => exact hsame _ h' (by simp) fun p hp => h.value p (h₀ ▸ hp)
  | run _ h' hsince =>
    refine ⟨fun p hp => ?_, fun _ => ⟨s.time, hsince, ht⟩⟩
    rw [h'] at hp
    exact hp.elim
  | produce value _ h₀ h' =>
    obtain ⟨k, hk, hlt⟩ := h.running h₀
    apply hsame _ h' (by simp)
    intro p hp
    cases value with
    | none => exact hp.elim
    | some v =>
      obtain rfl : ⟨v, some f⟩ = p := hp
      exact ⟨f, k, rfl, hk, hlt⟩
  | fail e _ _ h' => exact hsame _ h' (by simp) fun p hp => hp.elim
  | store value h₀ h' =>
    refine hsame _ h' (by simp) fun p hp => h.value p (h₀ ▸ ?_)
    exact Flight.has_storing.mpr (Flight.has_storing.mp hp)
  | settle value h₀ h' =>
    refine hsame _ h' (by simp) fun p hp => h.value p (h₀ ▸ ?_)
    exact Flight.has_storing.mpr (Except.ok.inj (Flight.has_settled.mp hp))

/-- What a call has after an action. -/
theorem Moves.callHas {s u : St C D V E} {a : Act C D V E} {c : C} {p : Produced C V}
    (h : Moves s a u) (hc : (u.calls c).Has p) :
    (s.calls c).Has p ∨ (s.cache = some p ∧ s.calls c ≠ .idle) ∨
      ∃ f, s.calls c = .awaiting f ∧ (s.flights f).Has p := by
  have hmoved : ∀ {c' : C} {call : Call C V E}, ((s.setCall c' call).calls c).Has p →
      (s.calls c).Has p ∨ (c = c' ∧ call.Has p) := St.setCall_calls (·.Has p)
  cases h with
  | @getOrSet c' h => exact .inl ((hmoved hc).resolve_right fun h => h.2)
  | @read c' h =>
    rcases hmoved hc with hold | ⟨rfl, hnew⟩
    · exact .inl hold
    · exact .inr (.inl ⟨Call.has_reading.mp hnew, by rw [h]; simp⟩)
  | @hit c' q h =>
    rcases hmoved hc with hold | ⟨rfl, hnew⟩
    · exact .inl hold
    · rw [h]
      exact .inl hnew
  | @join c' f h hf => exact .inl ((hmoved hc).resolve_right fun h => h.2)
  | @lead c' h hmap => exact .inl ((hmoved hc).resolve_right fun h => h.2)
  | @wake c' f result h hf =>
    rcases hmoved hc with hold | ⟨rfl, hnew⟩
    · exact .inl hold
    · refine .inr (.inr ⟨f, h, ?_⟩)
      rw [hf]
      exact Flight.has_settled.mpr (Call.has_returned.mp hnew)
  | reread | found | run | produce | fail | store | settle | del | delete | deleted =>
    exact .inl hc

/-- A call that had begun began when it did. -/
theorem Moves.begunAt {s u : St C D V E} {a : Act C D V E} {c : C} (h : Moves s a u)
    (hc : s.calls c ≠ .idle) : u.begunAt c = s.begunAt c := by
  cases h with
  | @getOrSet c' h =>
    by_cases hcc : c = c'
    · exact absurd h (hcc ▸ hc)
    · exact Function.update_of_ne hcc ..
  | read | hit | join | lead | reread | found | run | produce | fail | store | settle | wake
    | del | delete | deleted => rfl

/-- An action keeps what is newer than `t`. -/
theorem Fresh.step {content : Option V} {s u : St C D V E} {a : Act C D V E} {t : Nat}
    (h : Fresh s t) (hmove : Moves s a u) (hl : Locked s) (hrec : Recorded content s)
    (ht : t < s.time) : Fresh u t := by
  have hflight : ∀ f, FlightAfter s t f → FlightAfter u t f :=
    fun f hf => hf.step hmove hl hrec ht h.cache
  have hafter : ∀ p, After s t p → After u t p := fun p hp => hp.step hmove hl hrec
  refine ⟨fun p hp => ?_, fun f hf => ?_, fun c f b hc hb hlt => ?_, fun c p b hc hb hlt => ?_⟩
  · rcases hmove.cache with hsame | ⟨f, hf⟩ | ⟨d, -, hnone⟩
    · exact hafter p (h.cache p (hsame.symm.trans hp))
    · have hmap := (hl.lock f).mp (open_of_eq hf trivial)
      refine hafter p ((h.map f hmap).value p ?_)
      rw [hf, hp]
      rfl
    · exact absurd (hnone.symm.trans hp) (by simp)
  · have hopen : (u.flights f).Open := ((hmove.locked hl).lock f).mpr hf
    cases hmove.flightStep hl f with
    | keep h' => exact hflight f (h.map f ((hl.lock f).mp (h' ▸ hopen)))
    | born _ h' => exact hflight f (flightAfter_unborn h')
    | reread h' | run h' | produce _ _ h' | store _ h' =>
      exact hflight f (h.map f ((hl.lock f).mp (open_of_eq h' trivial)))
    | found _ _ h' | fail _ _ _ h' | settle _ _ h' =>
      rw [h'] at hopen
      exact hopen.elim
  · rcases hmove.awaiting hc with hold | hmap | ⟨rfl, hreading⟩
    · rw [hmove.begunAt (by rw [hold]; simp)] at hb
      exact hflight f (h.awaited c f b hold hb hlt)
    · exact hflight f (h.map f hmap)
    · exact hflight f (flightAfter_unborn (hl.unborn f (.inr ⟨_, hreading⟩)))
  · rcases hmove.callHas hc with hold | ⟨hcache, -⟩ | ⟨f, hwait, hf⟩
    · have hbegun : s.calls c ≠ .idle := by
        intro hidle
        rw [hidle] at hold
        exact hold
      rw [hmove.begunAt hbegun] at hb
      exact hafter p (h.call c p b hold hb hlt)
    · exact hafter p (h.cache p hcache)
    · rw [hmove.begunAt (by rw [hwait]; simp)] at hb
      exact hafter p ((h.awaited c f b hwait hb hlt).value p hf)

theorem Moves.timed {s u : St C D V E} {a : Act C D V E} (h : Moves s a u) (hl : Locked s)
    (hs : Timed s) : Timed { u with time := s.time + 1 } := by
  refine ⟨fun c b hb => ?_, fun f k hk => ?_, fun t ht => ?_⟩
  · by_cases hc : s.calls c = .idle
    · cases h with
      | @getOrSet c' h' =>
        by_cases hcc : c = c'
        · subst hcc
          have hb : Function.update s.begunAt c (some s.time) c = some b := hb
          rw [Function.update_self] at hb
          rw [← Option.some.inj hb]
          exact Nat.lt_succ_self _
        · have hb : Function.update s.begunAt c' (some s.time) c = some b := hb
          rw [Function.update_of_ne hcc] at hb
          exact Nat.lt_succ_of_lt (hs.begun c b hb)
      | read | hit | join | lead | reread | found | run | produce | fail | store | settle | wake
        | del | delete | deleted => exact Nat.lt_succ_of_lt (hs.begun c b hb)
    · have hb : u.begunAt c = some b := hb
      rw [h.begunAt hc] at hb
      exact Nat.lt_succ_of_lt (hs.begun c b hb)
  · have hk : u.producingSince f = some k := hk
    cases h.flightStep hl f with
    | keep _ hsince | born _ _ _ hsince | reread _ _ hsince | found _ _ _ hsince
      | produce _ _ _ _ hsince | fail _ _ _ _ hsince | store _ _ _ _ hsince
      | settle _ _ _ hsince =>
      exact Nat.lt_succ_of_lt (hs.producing f k (hsince.symm.trans hk))
    | run _ _ hsince =>
      rw [Option.some.inj (hk.symm.trans hsince)]
      exact Nat.lt_succ_self _
  · cases h with
    | deleted =>
      rcases List.mem_cons.mp ht with rfl | ht
      · exact Nat.lt_succ_self _
      · exact Nat.lt_succ_of_lt (hs.deleted t ht)
    | getOrSet | read | hit | join | lead | reread | found | run | produce | fail | store | settle
      | wake | del | delete => exact Nat.lt_succ_of_lt (hs.deleted t ht)

end Steps

/-! ## 3. Runs -/

/-- The invariant of a run whose deletions leave nothing old. -/
structure Final (content : Option V) (s : St C D V E) : Prop where
  locked : Locked s
  recorded : Recorded content s
  timed : Timed s
  fresh : ∀ t ∈ s.deletedAt, Fresh s t

theorem final_start (content : Option V) : Final content (start content : St C D V E) :=
  ⟨locked_start content, recorded_start content,
    ⟨fun _ _ h => (nomatch h), fun _ _ h => (nomatch h), fun _ h => (nomatch h)⟩,
    fun _ h => (nomatch h)⟩

/-- A value of a factory called before a deletion was over, returned by a call that began
    later. -/
theorem not_final {s : St C D V E} {c : C} {p : Produced C V} {t b : Nat}
    (hc : ∃ via, s.calls c = .returned via (.ok (some p))) (hb : s.begunAt c = some b)
    (ht : t ∈ s.deletedAt) (hlt : t < b)
    (hold : ∀ f k, p.producer = some f → s.producingSince f = some k → k < t) :
    ¬ InvalidationFinal s := by
  intro h
  obtain ⟨via, hc⟩ := hc
  obtain ⟨f, k, hf, hk, hlt'⟩ := h c via p hc b hb t ht hlt
  exact absurd (hold f k hf hk) (Nat.lt_asymm hlt')

section Runs

variable [DecidableEq C] [DecidableEq D]

theorem Reached.timed {content : Option V} {run : List (Act C D V E)} {s : St C D V E}
    (h : Reached step (start content) run s) : Timed s := by
  have hboth : Locked s ∧ Timed s := by
    have hstart : Final content (start content : St C D V E) := final_start content
    refine h.invariant (I := fun s => Locked s ∧ Timed s) ⟨hstart.locked, hstart.timed⟩
      fun u a _ hu => ?_
    rcases step_cases u a with hs | ⟨t, hmove, hs⟩
    · rw [hs]
      exact hu
    · rw [hs]
      exact ⟨(hmove.locked hu.1).of_eq rfl rfl rfl, hmove.timed hu.1 hu.2⟩
  exact hboth.2

theorem Final.step {content : Option V} {s : St C D V E} {a : Act C D V E}
    (h : Final content s)
    (hcond : ∀ d, a = .deleted d → s.deletions d = .deleting true → NothingOld s) :
    Final content (step s a) := by
  rcases step_cases s a with hs | ⟨u, hmove, hs⟩
  · rw [hs]
    exact h
  · rw [hs]
    refine ⟨(hmove.locked h.locked).of_eq rfl rfl rfl,
      (hmove.recorded h.locked h.recorded).of_eq rfl rfl rfl rfl rfl,
      hmove.timed h.locked h.timed, fun t ht => ?_⟩
    have hold : t ∈ s.deletedAt → Fresh u t := fun hmem =>
      (h.fresh t hmem).step hmove h.locked h.recorded (h.timed.deleted t hmem)
    have hfresh : Fresh u t := by
      cases hmove with
      | @deleted d hd =>
        rcases List.mem_cons.mp ht with rfl | ht
        · exact ((hcond d rfl hd).fresh h.locked h.timed).of_eq rfl rfl rfl rfl rfl rfl
        · exact hold ht
      | getOrSet | read | hit | join | lead | reread | found | run | produce | fail | store
        | settle | wake | del | delete => exact hold ht
    exact hfresh.of_eq rfl rfl rfl rfl rfl rfl

/-- **When invalidation is final:** if every deletion of the run, when it is over, leaves nothing
    in the cache and no value and no factory in flight. -/
theorem invalidationFinal {content : Option V} {run : List (Act C D V E)}
    (hcond : ∀ u d, Fired step (start content) run u (.deleted d) →
      u.deletions d = .deleting true → NothingOld u) :
    ∀ s, Reached step (start content) run s → InvalidationFinal s := by
  intro s hs
  have hfinal : Final content s :=
    hs.invariant_fired (final_start content) fun u a hf hu =>
      hu.step fun d ha hd => hcond u d (ha ▸ hf) hd
  intro c via p hc b hb t ht hlt
  refine (hfinal.fresh t ht).call c p b ?_ hb hlt
  rw [hc]
  rfl

/-! ## 4. Otherwise -/

/-- **The condition is exact:** where it fails when a deletion is over, the run can go on so that a
    call returns an old value. -/
theorem stale_of_old {content : Option V} {run : List (Act C D V E)} {s : St C D V E}
    (hs : Reached step (start content) run s) {d : D} {c : C}
    (hd : s.deletions d = .deleting true) (hc : s.calls c = .idle) (hold : ¬ NothingOld s) (v : V) :
    ∃ more, ¬ InvalidationFinal ((Act.deleted d :: more).foldl step s) := by
  have hl := Reached.locked hs
  have htimed := Reached.timed hs
  cases hcache : s.cache with
  | some p =>
    -- the call finds it in the cache
    refine ⟨[.getOrSet c, .read c, .resume c], ?_⟩
    refine not_final (c := c) (p := p) (t := s.time) (b := s.time + 1) ?_ ?_ ?_ ?_ ?_
    all_goals simp [step, act?, hd, hc, hcache, St.setCall, St.setDeletion]
    exact fun f k _ => htimed.producing f k
  | none =>
    obtain ⟨f, hf⟩ : ∃ f, (s.flights f).Carries := by
      by_contra hnone
      exact hold ⟨hcache, fun f hf => hnone ⟨f, hf⟩⟩
    have hmap : s.inFlight = some f := (hl.lock f).mp hf.isOpen
    have hne : f ≠ c := by
      intro h
      rw [h, hl.unborn c (.inl hc)] at hf
      exact hf
    -- the call joins the flight, and the flight goes on to its end
    cases hflight : s.flights f with
    | rechecking got =>
      obtain ⟨p, rfl⟩ : ∃ p, got = some (some p) := by
        rw [hflight] at hf
        cases got with
        | none => exact hf.elim
        | some stored =>
          cases stored with
          | none => exact hf.elim
          | some p => exact ⟨p, rfl⟩
      refine ⟨[.getOrSet c, .read c, .resume c, .recheck f, .wake c], ?_⟩
      refine not_final (c := c) (p := p) (t := s.time) (b := s.time + 1) ?_ ?_ ?_ ?_ ?_
      all_goals simp [step, act?, hd, hc, hcache, hmap, hflight, St.setCall, St.setDeletion,
        St.setFlight, St.land]
      exact fun f k _ => htimed.producing f k
    | running =>
      refine ⟨[.getOrSet c, .read c, .resume c, .produce f (.ok (some v)), .store f, .settle f,
        .wake c], ?_⟩
      refine not_final (c := c) (p := ⟨v, some f⟩) (t := s.time) (b := s.time + 1) ?_ ?_ ?_ ?_ ?_
      all_goals simp [step, act?, hd, hc, hcache, hmap, hflight, St.setCall, St.setDeletion,
        St.setFlight, St.land]
      exact fun g k hg => htimed.producing g k
    | storing value applied =>
      obtain ⟨p, rfl⟩ : ∃ p, value = some p := by
        rw [hflight] at hf
        cases value with
        | none => exact hf.elim
        | some p => exact ⟨p, rfl⟩
      refine ⟨[.getOrSet c, .read c, .resume c] ++ (if applied then [] else [.store f]) ++
        [.settle f, .wake c], ?_⟩
      refine not_final (c := c) (p := p) (t := s.time) (b := s.time + 1) ?_ ?_ ?_ ?_ ?_
      all_goals
        cases applied <;>
          simp [step, act?, hd, hc, hcache, hmap, hflight, St.setCall, St.setDeletion,
            St.setFlight, St.land]
      all_goals exact fun f k _ => htimed.producing f k
    | unborn =>
      rw [hflight] at hf
      exact hf.elim
    | settled result =>
      rw [hflight] at hf
      exact hf.elim

end Runs

/-- The first call runs its factory, the key is deleted, and the second call joins the flight. -/
def deletedInFlight : List (Act Nat Nat String String) :=
  [.getOrSet 0, .read 0, .resume 0, .reread 0, .recheck 0, .del 0, .delete 0, .deleted 0,
    .getOrSet 1, .read 1, .resume 1, .produce 0 (.ok (some "old")), .store 0, .settle 0, .wake 1]

/-- The second call begins at 8, after the deletion was over at 7, and returns the value of a
    factory that was called at 4. -/
theorem deletedInFlight_stale :
    ∃ s, Reached step (start none) deletedInFlight s ∧ ¬ InvalidationFinal s := by
  refine ⟨_, reached_end _ _, fun h => ?_⟩
  obtain ⟨f, k, hf, hk, hlt⟩ := h 1 (some 0) ⟨"old", some 0⟩ rfl 8 rfl 7 (List.mem_cons_self ..)
    (by decide)
  obtain rfl : 0 = f := Option.some.inj hf
  obtain rfl : 4 = k := Option.some.inj hk
  exact absurd hlt (by decide)

/-- A deletion with nobody around, and a call after it. -/
def deletedBefore : List (Act Nat Nat String String) :=
  [.del 0, .delete 0, .deleted 0, .getOrSet 0, .read 0, .resume 0, .reread 0, .recheck 0,
    .produce 0 (.ok (some "new")), .store 0, .settle 0, .wake 0]

theorem invalidationFinal_deletedBefore :
    InvalidationFinal (deletedBefore.foldl step (start (some "old"))) := by
  refine invalidationFinal (fun u d hf hd => ?_) _ (reached_end _ deletedBefore)
  simp [deletedBefore, Fired] at hf
  obtain ⟨rfl, rfl⟩ := hf
  exact ⟨rfl, fun f h => h⟩

end MemoryCache

end ShieldApi
