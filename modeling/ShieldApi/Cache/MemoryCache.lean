import Mathlib.Logic.Function.Basic
import ShieldApi.Lib.Runs

/-!
# `MemoryCacheService`, between its awaits

`getOrSet` suspends at every `await`, and other calls run meanwhile. This file has the service as
a machine that makes one step between two awaits: any number of `getOrSet` calls and of
deletions (`del`, or `mdel` with the key among its keys), in any order of their steps.

A call **reads the cache**. On a miss it looks into the in-flight map: it either awaits the promise
that is there, or puts its own there (a *flight*, named by the call that leads it). The flight reads the
cache **again**, and on a miss runs the factory, stores what the factory returned and leaves the
map. All of this is about one key, and calls with other keys touch neither its entry nor its
flight, so the key is left out.

A cache operation is sent, takes effect, and is answered; the effect is a step of its own
(`read`, `reread`, `store`, `delete`). What the factory returns is the surroundings' choice
(`produce`). A value carries the flight whose factory produced it, and the state keeps a record of
what happened when. Neither has an influence on what the service does.
-/

set_option autoImplicit false

namespace ShieldApi

namespace MemoryCache

/-! ## 1. States -/

/-- A value, and the flight whose factory returned it; none if it was there from the start. -/
structure Produced (C V : Type) where
  value : V
  producer : Option C
  deriving DecidableEq, Repr

/-- What is in the cache under the key; nothing, or nil, is `none`. -/
abbrev Stored (C V : Type) : Type := Option (Produced C V)

inductive Call (C V E : Type)
  | idle
  /-- Before the first await; what the cache answered, once it did. -/
  | reading (got : Option (Stored C V))
  /-- The promise of the flight was returned. -/
  | awaiting (flight : C)
  /-- The call is over; the flight it awaited, if it did. -/
  | returned (flight : Option C) (result : Except E (Stored C V))

inductive Flight (C V E : Type)
  | unborn
  | rechecking (got : Option (Stored C V))
  | running
  /-- `cache.set`, before and after it took effect. -/
  | storing (value : Stored C V) (applied : Bool)
  /-- The promise is settled and no longer in the map. -/
  | settled (result : Except E (Stored C V))

inductive Deletion
  | idle
  | deleting (applied : Bool)
  | done
  deriving DecidableEq, Repr

structure St (C D V E : Type) where
  cache : Stored C V := none
  inFlight : Option C := none
  calls : C → Call C V E := fun _ => .idle
  flights : C → Flight C V E := fun _ => .unborn
  deletions : D → Deletion := fun _ => .idle
  -- the record: the number of steps, when each call and each factory began, what each factory
  -- returned, and when each deletion was over
  time : Nat := 0
  begunAt : C → Option Nat := fun _ => none
  producingSince : C → Option Nat := fun _ => none
  yielded : C → Option (Except E (Option V)) := fun _ => none
  deletedAt : List Nat := []

/-! ## 2. Steps -/

inductive Act (C D V E : Type)
  /-- `getOrSet` is called. -/
  | getOrSet (c : C)
  | read (c : C)
  /-- The call goes on after its first await. -/
  | resume (c : C)
  | reread (f : C)
  /-- The flight goes on after its first await. -/
  | recheck (f : C)
  /-- The factory returns or throws. -/
  | produce (f : C) (result : Except E (Option V))
  | store (f : C)
  /-- The flight goes on after `cache.set`. -/
  | settle (f : C)
  /-- The call is told the result of the flight. -/
  | wake (c : C)
  /-- `del` or `mdel` is called. -/
  | del (d : D)
  | delete (d : D)
  /-- The deletion is over. -/
  | deleted (d : D)

section Steps

variable {C D V E : Type} [DecidableEq C] [DecidableEq D]

namespace St

def setCall (s : St C D V E) (c : C) (call : Call C V E) : St C D V E :=
  { s with calls := Function.update s.calls c call }

def setFlight (s : St C D V E) (f : C) (flight : Flight C V E) : St C D V E :=
  { s with flights := Function.update s.flights f flight }

def setDeletion (s : St C D V E) (d : D) (deletion : Deletion) : St C D V E :=
  { s with deletions := Function.update s.deletions d deletion }

/-- `finally { this.inFlight.delete(key) }`, and the promise is settled. -/
def land (s : St C D V E) (f : C) (result : Except E (Stored C V)) : St C D V E :=
  { s.setFlight f (.settled result) with inFlight := none }

end St

/-- What an action does, if it can happen now. -/
def act? (s : St C D V E) : Act C D V E → Option (St C D V E)
  | .getOrSet c =>
    match s.calls c with
    | .idle => some { s.setCall c (.reading none) with
        begunAt := Function.update s.begunAt c (some s.time) }
    | _ => none
  | .read c =>
    match s.calls c with
    | .reading none => some (s.setCall c (.reading (some s.cache)))
    | _ => none
  | .resume c =>
    match s.calls c with
    | .reading (some (some cached)) => some (s.setCall c (.returned none (.ok (some cached))))
    | .reading (some none) =>
      match s.inFlight with
      | some f => some (s.setCall c (.awaiting f))
      | none => some { (s.setCall c (.awaiting c)).setFlight c (.rechecking none) with
          inFlight := some c }
    | _ => none
  | .reread f =>
    match s.flights f with
    | .rechecking none => some (s.setFlight f (.rechecking (some s.cache)))
    | _ => none
  | .recheck f =>
    match s.flights f with
    | .rechecking (some (some rechecked)) => some (s.land f (.ok (some rechecked)))
    | .rechecking (some none) => some { s.setFlight f .running with
        producingSince := Function.update s.producingSince f (some s.time) }
    | _ => none
  | .produce f result =>
    match s.flights f with
    | .running =>
      let s := { s with yielded := Function.update s.yielded f (some result) }
      match result with
      | .ok value => some (s.setFlight f (.storing (value.map (⟨·, some f⟩)) false))
      | .error e => some (s.land f (.error e))
    | _ => none
  | .store f =>
    match s.flights f with
    | .storing value false => some { s.setFlight f (.storing value true) with cache := value }
    | _ => none
  | .settle f =>
    match s.flights f with
    | .storing value true => some (s.land f (.ok value))
    | _ => none
  | .wake c =>
    match s.calls c with
    | .awaiting f =>
      match s.flights f with
      | .settled result => some (s.setCall c (.returned (some f) result))
      | _ => none
    | _ => none
  | .del d =>
    match s.deletions d with
    | .idle => some (s.setDeletion d (.deleting false))
    | _ => none
  | .delete d =>
    match s.deletions d with
    | .deleting false => some { s.setDeletion d (.deleting true) with cache := none }
    | _ => none
  | .deleted d =>
    match s.deletions d with
    | .deleting true => some { s.setDeletion d .done with deletedAt := s.time :: s.deletedAt }
    | _ => none

/-- An action that cannot happen now does nothing. -/
def step (s : St C D V E) (a : Act C D V E) : St C D V E :=
  match act? s a with
  | some t => { t with time := s.time + 1 }
  | none => s

/-- **Everything an action can do.** -/
inductive Moves (s : St C D V E) : Act C D V E → St C D V E → Prop
  | getOrSet {c : C} (h : s.calls c = .idle) :
      Moves s (.getOrSet c) { s.setCall c (.reading none) with
        begunAt := Function.update s.begunAt c (some s.time) }
  | read {c : C} (h : s.calls c = .reading none) :
      Moves s (.read c) (s.setCall c (.reading (some s.cache)))
  | hit {c : C} {p : Produced C V} (h : s.calls c = .reading (some (some p))) :
      Moves s (.resume c) (s.setCall c (.returned none (.ok (some p))))
  | join {c f : C} (h : s.calls c = .reading (some none)) (hf : s.inFlight = some f) :
      Moves s (.resume c) (s.setCall c (.awaiting f))
  | lead {c : C} (h : s.calls c = .reading (some none)) (hf : s.inFlight = none) :
      Moves s (.resume c) { (s.setCall c (.awaiting c)).setFlight c (.rechecking none) with
        inFlight := some c }
  | reread {f : C} (h : s.flights f = .rechecking none) :
      Moves s (.reread f) (s.setFlight f (.rechecking (some s.cache)))
  | found {f : C} {p : Produced C V} (h : s.flights f = .rechecking (some (some p))) :
      Moves s (.recheck f) (s.land f (.ok (some p)))
  | run {f : C} (h : s.flights f = .rechecking (some none)) :
      Moves s (.recheck f) { s.setFlight f .running with
        producingSince := Function.update s.producingSince f (some s.time) }
  | produce {f : C} {value : Option V} (h : s.flights f = .running) :
      Moves s (.produce f (.ok value))
        { s.setFlight f (.storing (value.map (⟨·, some f⟩)) false) with
          yielded := Function.update s.yielded f (some (.ok value)) }
  | fail {f : C} {e : E} (h : s.flights f = .running) :
      Moves s (.produce f (.error e)) { s.land f (.error e) with
        yielded := Function.update s.yielded f (some (.error e)) }
  | store {f : C} {value : Stored C V} (h : s.flights f = .storing value false) :
      Moves s (.store f) { s.setFlight f (.storing value true) with cache := value }
  | settle {f : C} {value : Stored C V} (h : s.flights f = .storing value true) :
      Moves s (.settle f) (s.land f (.ok value))
  | wake {c f : C} {result : Except E (Stored C V)} (h : s.calls c = .awaiting f)
      (hf : s.flights f = .settled result) :
      Moves s (.wake c) (s.setCall c (.returned (some f) result))
  | del {d : D} (h : s.deletions d = .idle) : Moves s (.del d) (s.setDeletion d (.deleting false))
  | delete {d : D} (h : s.deletions d = .deleting false) :
      Moves s (.delete d) { s.setDeletion d (.deleting true) with cache := none }
  | deleted {d : D} (h : s.deletions d = .deleting true) :
      Moves s (.deleted d) { s.setDeletion d .done with deletedAt := s.time :: s.deletedAt }

theorem act?_eq_some {s t : St C D V E} {a : Act C D V E} :
    act? s a = some t ↔ Moves s a t := by
  constructor
  · intro h
    cases a with
    | getOrSet c =>
      simp only [act?] at h
      split at h <;> simp only [Option.some.injEq, reduceCtorEq] at h
      next hc => exact h ▸ .getOrSet hc
    | read c =>
      simp only [act?] at h
      split at h <;> simp only [Option.some.injEq, reduceCtorEq] at h
      next hc => exact h ▸ .read hc
    | resume c =>
      simp only [act?] at h
      split at h
      next p hc => exact Option.some.inj h ▸ .hit hc
      next hc =>
        split at h
        next f hf => exact Option.some.inj h ▸ .join hc hf
        next hf => exact Option.some.inj h ▸ .lead hc hf
      next => exact absurd h (by simp)
    | reread f =>
      simp only [act?] at h
      split at h <;> simp only [Option.some.injEq, reduceCtorEq] at h
      next hf => exact h ▸ .reread hf
    | recheck f =>
      simp only [act?] at h
      split at h <;> simp only [Option.some.injEq, reduceCtorEq] at h
      next p hf => exact h ▸ .found hf
      next hf => exact h ▸ .run hf
    | produce f result =>
      simp only [act?] at h
      split at h
      next hf =>
        cases result with
        | ok value => exact Option.some.inj h ▸ .produce hf
        | error e => exact Option.some.inj h ▸ .fail hf
      next => exact absurd h (by simp)
    | store f =>
      simp only [act?] at h
      split at h <;> simp only [Option.some.injEq, reduceCtorEq] at h
      next value hf => exact h ▸ .store hf
    | settle f =>
      simp only [act?] at h
      split at h <;> simp only [Option.some.injEq, reduceCtorEq] at h
      next value hf => exact h ▸ .settle hf
    | wake c =>
      simp only [act?] at h
      split at h
      next f hc =>
        split at h <;> simp only [Option.some.injEq, reduceCtorEq] at h
        next result hf => exact h ▸ .wake hc hf
      next => exact absurd h (by simp)
    | del d =>
      simp only [act?] at h
      split at h <;> simp only [Option.some.injEq, reduceCtorEq] at h
      next hd => exact h ▸ .del hd
    | delete d =>
      simp only [act?] at h
      split at h <;> simp only [Option.some.injEq, reduceCtorEq] at h
      next hd => exact h ▸ .delete hd
    | deleted d =>
      simp only [act?] at h
      split at h <;> simp only [Option.some.injEq, reduceCtorEq] at h
      next hd => exact h ▸ .deleted hd
  · intro h
    cases h with
    | getOrSet h | read h | hit h | reread h | found h | run h | produce h | fail h | store h
      | settle h | del h | delete h | deleted h => simp only [act?, h]; try rfl
    | join h hf | lead h hf | wake h hf => simp only [act?, h, hf]

/-- A step is nothing, or an action and a tick of the record's clock. -/
theorem step_cases (s : St C D V E) (a : Act C D V E) :
    step s a = s ∨ ∃ t, Moves s a t ∧ step s a = { t with time := s.time + 1 } := by
  unfold step
  cases h : act? s a with
  | none => exact .inl rfl
  | some t => exact .inr ⟨t, act?_eq_some.mp h, rfl⟩

end Steps

/-! ## 3. The in-flight map is a lock -/

section Lock

variable {C D V E : Type}

/-- The flight is under way. -/
def Flight.Open : Flight C V E → Prop
  | .rechecking _ | .running | .storing _ _ => True
  | .unborn | .settled _ => False

/-- **At most one flight is under way, and it is the one in the map.** A call that has not gone
    past its first await leads no flight, and a flight that is awaited has been started. -/
structure Locked (s : St C D V E) : Prop where
  lock : ∀ f, (s.flights f).Open ↔ s.inFlight = some f
  unborn : ∀ c, s.calls c = .idle ∨ (∃ got, s.calls c = .reading got) → s.flights c = .unborn
  awaited : ∀ c f, s.calls c = .awaiting f → s.flights f ≠ .unborn

theorem Locked.open_unique {s : St C D V E} (h : Locked s) {f f' : C} (hf : (s.flights f).Open)
    (hf' : (s.flights f').Open) : f = f' :=
  Option.some.inj (((h.lock f).mp hf).symm.trans ((h.lock f').mp hf'))

theorem Locked.of_eq {s t : St C D V E} (h : Locked s) (hcalls : t.calls = s.calls)
    (hflights : t.flights = s.flights) (hmap : t.inFlight = s.inFlight) : Locked t := by
  refine ⟨?_, ?_, ?_⟩
  · rw [hflights, hmap]
    exact h.lock
  · rw [hcalls, hflights]
    exact h.unborn
  · rw [hcalls, hflights]
    exact h.awaited

theorem open_of_eq {flight flight' : Flight C V E} (h : flight = flight') (ho : flight'.Open) :
    flight.Open := h ▸ ho

theorem Flight.Open.ne_unborn {flight : Flight C V E} (h : flight.Open) : flight ≠ .unborn := by
  intro hn
  rw [hn] at h
  exact h

/-- Before the first call; what is in the cache was there from the start. -/
def start (content : Option V) : St C D V E := { cache := content.map (⟨·, none⟩) }

theorem locked_start (content : Option V) : Locked (start content : St C D V E) :=
  ⟨fun f => ⟨fun h => h.elim, fun h => absurd h (by simp [start])⟩, fun _ _ => rfl,
    fun _ _ h => (nomatch h)⟩

variable [DecidableEq C]

namespace St

@[simp] theorem setCall_calls_self (s : St C D V E) (c : C) (call : Call C V E) :
    (s.setCall c call).calls c = call := Function.update_self ..

theorem setCall_calls_of_ne (s : St C D V E) {c c' : C} (call : Call C V E) (h : c' ≠ c) :
    (s.setCall c call).calls c' = s.calls c' := Function.update_of_ne h ..

/-- A call other than the one that is set is where it was. -/
theorem setCall_calls (P : Call C V E → Prop) {s : St C D V E} {c c' : C} {call : Call C V E}
    (h : P ((s.setCall c' call).calls c)) : P (s.calls c) ∨ (c = c' ∧ P call) := by
  by_cases hcc : c = c'
  · subst hcc
    rw [setCall_calls_self] at h
    exact .inr ⟨rfl, h⟩
  · rw [setCall_calls_of_ne _ _ hcc] at h
    exact .inl h

@[simp] theorem setFlight_flights_self (s : St C D V E) (f : C) (flight : Flight C V E) :
    (s.setFlight f flight).flights f = flight := Function.update_self ..

theorem setFlight_flights_of_ne (s : St C D V E) {f f' : C} (flight : Flight C V E)
    (h : f' ≠ f) : (s.setFlight f flight).flights f' = s.flights f' := Function.update_of_ne h ..

@[simp] theorem land_flights_self (s : St C D V E) (f : C) (result : Except E (Stored C V)) :
    (s.land f result).flights f = .settled result := Function.update_self ..

theorem land_flights_of_ne (s : St C D V E) {f f' : C} (result : Except E (Stored C V))
    (h : f' ≠ f) : (s.land f result).flights f' = s.flights f' := Function.update_of_ne h ..

end St

/-- What becomes of a flight that is under way is nothing to the others. -/
theorem Locked.update {s : St C D V E} (h : Locked s) {f : C} {flight : Flight C V E}
    (hf : (s.flights f).Open) (hborn : flight ≠ .unborn) {inFlight : Option C}
    (hlock : flight.Open ↔ inFlight = some f) (hothers : ∀ f', f' ≠ f → inFlight ≠ some f') :
    Locked { s.setFlight f flight with inFlight := inFlight } := by
  have hmap := (h.lock f).mp hf
  refine ⟨fun f' => ?_, fun c hc => ?_, fun c f' hc => ?_⟩
  · show (Function.update s.flights f flight f').Open ↔ inFlight = some f'
    by_cases hff : f' = f
    · rw [hff, Function.update_self]
      exact hlock
    · rw [Function.update_of_ne hff, h.lock f', hmap]
      exact iff_of_false (fun ho => hff (Option.some.inj ho).symm) (hothers f' hff)
  · show Function.update s.flights f flight c = .unborn
    by_cases hcf : c = f
    · exact absurd (h.unborn f (hcf ▸ hc)) hf.ne_unborn
    · rw [Function.update_of_ne hcf]
      exact h.unborn c hc
  · show Function.update s.flights f flight f' ≠ .unborn
    by_cases hff : f' = f
    · rw [hff, Function.update_self]
      exact hborn
    · rw [Function.update_of_ne hff]
      exact h.awaited c f' hc

/-- A flight that is under way goes on. -/
theorem Locked.setFlight {s : St C D V E} (h : Locked s) {f : C} {flight : Flight C V E}
    (hf : (s.flights f).Open) (hflight : flight.Open) : Locked (s.setFlight f flight) := by
  have hmap := (h.lock f).mp hf
  have hothers : ∀ f', f' ≠ f → s.inFlight ≠ some f' := fun f' hff hin =>
    hff (Option.some.inj (hmap.symm.trans hin)).symm
  exact h.update hf hflight.ne_unborn (iff_of_true hflight hmap) hothers

/-- The flight under way lands. -/
theorem Locked.land {s : St C D V E} (h : Locked s) {f : C} {result : Except E (Stored C V)}
    (hf : (s.flights f).Open) : Locked (s.land f result) :=
  h.update hf (fun hu => by cases hu) (iff_of_false (fun ho => ho.elim) fun hn => by cases hn)
    fun _ _ hn => by cases hn

/-- A call goes on without leading a flight. -/
theorem Locked.setCall {s : St C D V E} (h : Locked s) {c : C} {call : Call C V E}
    (hunborn : call = .idle ∨ (∃ got, call = .reading got) → s.flights c = .unborn)
    (hawaited : ∀ f, call = .awaiting f → s.flights f ≠ .unborn) : Locked (s.setCall c call) := by
  refine ⟨h.lock, fun c' hc' => ?_, fun c' f hc' => ?_⟩
  · show s.flights c' = .unborn
    by_cases hcc : c' = c
    · subst hcc
      simp only [St.setCall, Function.update_self] at hc'
      exact hunborn hc'
    · simp only [St.setCall, Function.update_of_ne hcc] at hc'
      exact h.unborn c' hc'
  · show s.flights f ≠ .unborn
    by_cases hcc : c' = c
    · subst hcc
      simp only [St.setCall, Function.update_self] at hc'
      exact hawaited f hc'
    · simp only [St.setCall, Function.update_of_ne hcc] at hc'
      exact h.awaited c' f hc'

/-- No flight is under way, and a call leads one of its own. -/
theorem Locked.lead {s : St C D V E} (h : Locked s) {c : C} {flight : Flight C V E}
    (hf : s.inFlight = none) (hflight : flight.Open) :
    Locked { (s.setCall c (.awaiting c)).setFlight c flight with inFlight := some c } := by
  have hclosed : ∀ f, ¬ (s.flights f).Open := by
    intro f ho
    rw [(h.lock f).mp ho] at hf
    exact absurd hf (by simp)
  refine ⟨fun f => ?_, fun c' hc' => ?_, fun c' f hc' => ?_⟩
  · show (Function.update s.flights c flight f).Open ↔ some c = some f
    by_cases hfc : f = c
    · rw [hfc, Function.update_self]
      exact ⟨fun _ => rfl, fun _ => hflight⟩
    · rw [Function.update_of_ne hfc]
      exact ⟨fun ho => absurd ho (hclosed f), fun h => absurd (Option.some.inj h).symm hfc⟩
  · show Function.update s.flights c flight c' = .unborn
    by_cases hcc : c' = c
    · subst hcc
      simp only [St.setCall, St.setFlight, Function.update_self] at hc'
      rcases hc' with h | ⟨got, h⟩ <;> cases h
    · simp only [St.setCall, St.setFlight, Function.update_of_ne hcc] at hc'
      rw [Function.update_of_ne hcc]
      exact h.unborn c' hc'
  · show Function.update s.flights c flight f ≠ .unborn
    by_cases hfc : f = c
    · rw [hfc, Function.update_self]
      exact hflight.ne_unborn
    · rw [Function.update_of_ne hfc]
      by_cases hcc : c' = c
      · subst hcc
        simp only [St.setCall, St.setFlight, Function.update_self, Call.awaiting.injEq] at hc'
        exact absurd hc'.symm hfc
      · simp only [St.setCall, St.setFlight, Function.update_of_ne hcc] at hc'
        exact h.awaited c' f hc'

variable [DecidableEq D]

/-- What an action leaves is locked. -/
theorem Moves.locked {s t : St C D V E} {a : Act C D V E} (h : Moves s a t) (hs : Locked s) :
    Locked t := by
  cases h with
  | getOrSet hc =>
    have hnone := hs.unborn _ (.inl hc)
    have hcall : Locked (s.setCall _ (.reading none)) :=
      hs.setCall (fun _ => hnone) (fun f h => nomatch h)
    exact hcall.of_eq rfl rfl rfl
  | read hc =>
    have hnone := hs.unborn _ (.inr ⟨_, hc⟩)
    exact hs.setCall (fun _ => hnone) (fun f h => nomatch h)
  | hit hc =>
    refine hs.setCall (fun h => ?_) (fun f h => nomatch h)
    rcases h with h | ⟨got, h⟩ <;> cases h
  | join hc hf =>
    refine hs.setCall (fun h => ?_) (fun f h => ?_)
    · rcases h with h | ⟨got, h⟩ <;> cases h
    · cases h
      exact ((hs.lock _).mpr hf).ne_unborn
  | lead _ hf => exact hs.lead hf trivial
  | reread hf => exact hs.setFlight (open_of_eq hf trivial) trivial
  | found hf => exact hs.land (open_of_eq hf trivial)
  | run hf =>
    have hflight : Locked (s.setFlight _ .running) := hs.setFlight (open_of_eq hf trivial) trivial
    exact hflight.of_eq rfl rfl rfl
  | @produce f value hf =>
    have hflight : Locked (s.setFlight f (.storing (value.map (⟨·, some f⟩)) false)) :=
      hs.setFlight (open_of_eq hf trivial) trivial
    exact hflight.of_eq rfl rfl rfl
  | @fail f e hf =>
    have hland : Locked (s.land f (.error e)) := hs.land (open_of_eq hf trivial)
    exact hland.of_eq rfl rfl rfl
  | @store f value hf =>
    have hflight : Locked (s.setFlight f (.storing value true)) :=
      hs.setFlight (open_of_eq hf trivial) trivial
    exact hflight.of_eq rfl rfl rfl
  | settle hf => exact hs.land (open_of_eq hf trivial)
  | wake hc hf =>
    refine hs.setCall (fun h => ?_) (fun f h => nomatch h)
    rcases h with h | ⟨got, h⟩ <;> cases h
  | del hd | delete hd | deleted hd => exact hs.of_eq rfl rfl rfl

theorem Locked.step {s : St C D V E} (h : Locked s) (a : Act C D V E) :
    Locked (step s a) := by
  rcases step_cases s a with hs | ⟨t, hmove, hs⟩
  · rw [hs]
    exact h
  · rw [hs]
    exact (hmove.locked h).of_eq rfl rfl rfl

theorem Reached.locked {content : Option V} {run : List (Act C D V E)} {s : St C D V E}
    (h : Reached step (start content) run s) : Locked s :=
  h.invariant (locked_start content) fun _ a _ hs => hs.step a

end Lock

/-! ## 4. Where values come from -/

section Values

variable {C D V E : Type}

/-- The call has read, or returned, the value. -/
def Call.Has (p : Produced C V) : Call C V E → Prop
  | .reading (some (some q)) | .returned _ (.ok (some q)) => q = p
  | _ => False

def Flight.Has (p : Produced C V) : Flight C V E → Prop
  | .rechecking (some (some q)) | .storing (some q) _ | .settled (.ok (some q)) => q = p
  | _ => False

section Has

variable {p : Produced C V} {stored : Stored C V}

theorem Call.has_reading : (reading (some stored) : Call C V E).Has p ↔ stored = some p := by
  cases stored with
  | none => exact iff_of_false id (by simp)
  | some q => exact Option.some_inj.symm

theorem Call.has_returned {f : Option C} {result : Except E (Stored C V)} :
    (returned f result).Has p ↔ result = .ok (some p) := by
  cases result with
  | error e => exact iff_of_false id (by simp)
  | ok stored =>
    cases stored with
    | none => exact iff_of_false id (by simp)
    | some q => simp [Call.Has]

theorem Flight.has_rechecking :
    (rechecking (some stored) : Flight C V E).Has p ↔ stored = some p := by
  cases stored with
  | none => exact iff_of_false id (by simp)
  | some q => exact Option.some_inj.symm

theorem Flight.has_storing {applied : Bool} :
    (storing stored applied : Flight C V E).Has p ↔ stored = some p := by
  cases stored with
  | none => exact iff_of_false id (by simp)
  | some q => exact Option.some_inj.symm

theorem Flight.has_settled {result : Except E (Stored C V)} :
    (settled result : Flight C V E).Has p ↔ result = .ok (some p) := by
  cases result with
  | error e => exact iff_of_false id (by simp)
  | ok stored =>
    cases stored with
    | none => exact iff_of_false id (by simp)
    | some q => simp [Flight.Has]

end Has

/-- The value is somewhere in the service. -/
inductive Circulates (s : St C D V E) (p : Produced C V) : Prop
  | cache (h : s.cache = some p)
  | call (c : C) (h : (s.calls c).Has p)
  | flight (f : C) (h : (s.flights f).Has p)

theorem Circulates.of_eq {s t : St C D V E} {p : Produced C V} (h : Circulates t p)
    (hcache : t.cache = s.cache) (hcalls : t.calls = s.calls) (hflights : t.flights = s.flights) :
    Circulates s p := by
  cases h with
  | cache h => exact .cache (hcache ▸ h)
  | call c h => exact .call c (hcalls ▸ h)
  | flight f h => exact .flight f (hflights ▸ h)

theorem flight_has {s : St C D V E} {p : Produced C V} {f : C} {flight : Flight C V E}
    (h : s.flights f = flight) (hp : flight.Has p) : Circulates s p := .flight f (h ▸ hp)

theorem call_has {s : St C D V E} {p : Produced C V} {c : C} {call : Call C V E}
    (h : s.calls c = call) (hp : call.Has p) : Circulates s p := .call c (h ▸ hp)

variable [DecidableEq C]

theorem Circulates.setCall {s : St C D V E} {p : Produced C V} {c : C} {call : Call C V E}
    (h : Circulates (s.setCall c call) p) : Circulates s p ∨ call.Has p := by
  cases h with
  | cache h => exact .inl (.cache h)
  | call c' h =>
    rcases St.setCall_calls (·.Has p) h with hold | ⟨-, hnew⟩
    · exact .inl (.call c' hold)
    · exact .inr hnew
  | flight f h => exact .inl (.flight f h)

theorem Circulates.setFlight {s : St C D V E} {p : Produced C V} {f : C} {flight : Flight C V E}
    (h : Circulates (s.setFlight f flight) p) : Circulates s p ∨ flight.Has p := by
  cases h with
  | cache h => exact .inl (.cache h)
  | call c h => exact .inl (.call c h)
  | flight f' h =>
    by_cases hf : f' = f
    · subst hf
      rw [St.setFlight_flights_self] at h
      exact .inr h
    · rw [St.setFlight_flights_of_ne _ _ hf] at h
      exact .inl (.flight f' h)

variable [DecidableEq D]

/-- **A value is new only where a factory returns it.** -/
theorem Moves.circulates {s t : St C D V E} {a : Act C D V E} {p : Produced C V}
    (h : Moves s a t) (hp : Circulates t p) :
    Circulates s p ∨ ∃ f v, a = .produce f (.ok (some v)) ∧ s.flights f = .running ∧
      p = ⟨v, some f⟩ := by
  cases h with
  | @getOrSet c hc =>
    have hp : Circulates (s.setCall c (.reading none)) p := hp.of_eq rfl rfl rfl
    exact .inl (hp.setCall.resolve_right id)
  | read hc =>
    rcases hp.setCall with hp | hp
    · exact .inl hp
    · exact .inl (.cache (Call.has_reading.mp hp))
  | hit hc =>
    rcases hp.setCall with hp | hp
    · exact .inl hp
    · exact .inl (call_has hc hp)
  | join hc hf => exact .inl (hp.setCall.resolve_right id)
  | @lead c hc hf =>
    have hp : Circulates ((s.setCall c (.awaiting c)).setFlight c (.rechecking none)) p :=
      hp.of_eq rfl rfl rfl
    exact .inl ((hp.setFlight.resolve_right id).setCall.resolve_right id)
  | reread hf =>
    rcases hp.setFlight with hp | hp
    · exact .inl hp
    · exact .inl (.cache (Flight.has_rechecking.mp hp))
  | @found f q hf =>
    have hp : Circulates (s.setFlight f (.settled (.ok (some q)))) p := hp.of_eq rfl rfl rfl
    rcases hp.setFlight with hp | hp
    · exact .inl hp
    · exact .inl (flight_has hf hp)
  | @run f hf =>
    have hp : Circulates (s.setFlight f .running) p := hp.of_eq rfl rfl rfl
    exact .inl (hp.setFlight.resolve_right id)
  | @produce f value hf =>
    have hp : Circulates (s.setFlight f (.storing (value.map (⟨·, some f⟩)) false)) p :=
      hp.of_eq rfl rfl rfl
    rcases hp.setFlight with hp | hp
    · exact .inl hp
    · cases value with
      | none => exact hp.elim
      | some v => exact .inr ⟨f, v, rfl, hf, hp.symm⟩
  | @fail f e hf =>
    have hp : Circulates (s.setFlight f (.settled (.error e))) p := hp.of_eq rfl rfl rfl
    exact .inl (hp.setFlight.resolve_right id)
  | @store f value hf =>
    cases hp with
    | cache hp =>
      obtain rfl : value = some p := hp
      exact .inl (flight_has hf rfl)
    | call c hp => exact .inl (.call c hp)
    | flight f' hp =>
      have hp : Circulates (s.setFlight f (.storing value true)) p := .flight f' hp
      rcases hp.setFlight with hp | hp
      · exact .inl hp
      · exact .inl (flight_has hf (Flight.has_storing.mpr (Flight.has_storing.mp hp)))
  | @settle f value hf =>
    have hp : Circulates (s.setFlight f (.settled (.ok value))) p := hp.of_eq rfl rfl rfl
    rcases hp.setFlight with hp | hp
    · exact .inl hp
    · have hvalue := Except.ok.inj (Flight.has_settled.mp hp)
      exact .inl (flight_has hf (Flight.has_storing.mpr hvalue))
  | @wake c f result hc hf =>
    rcases hp.setCall with hp | hp
    · exact .inl hp
    · exact .inl (flight_has hf (Flight.has_settled.mpr (Call.has_returned.mp hp)))
  | del hd | deleted hd => exact .inl (hp.of_eq rfl rfl rfl)
  | delete hd =>
    cases hp with
    | cache hp => exact absurd hp (by simp)
    | call c hp => exact .inl (.call c hp)
    | flight f hp => exact .inl (.flight f hp)

end Values

/-! ## 5. One flight, and the cache, over one action -/

section OneFlight

variable {C D V E : Type}

/-- **What an action does to one flight** and to the record of its factory. -/
inductive FlightStep (s t : St C D V E) (f : C) (a : Act C D V E) : Prop
  | keep (h : t.flights f = s.flights f) (hsince : t.producingSince f = s.producingSince f)
      (hyield : t.yielded f = s.yielded f)
  | born (hmap : s.inFlight = none) (h : s.flights f = .unborn)
      (h' : t.flights f = .rechecking none) (hsince : t.producingSince f = s.producingSince f)
      (hyield : t.yielded f = s.yielded f)
  | reread (h : s.flights f = .rechecking none) (h' : t.flights f = .rechecking (some s.cache))
      (hsince : t.producingSince f = s.producingSince f) (hyield : t.yielded f = s.yielded f)
  | found (p : Produced C V) (h : s.flights f = .rechecking (some (some p)))
      (h' : t.flights f = .settled (.ok (some p)))
      (hsince : t.producingSince f = s.producingSince f) (hyield : t.yielded f = s.yielded f)
  | run (h : s.flights f = .rechecking (some none)) (h' : t.flights f = .running)
      (hsince : t.producingSince f = some s.time) (hyield : t.yielded f = s.yielded f)
  | produce (value : Option V) (ha : a = .produce f (.ok value)) (h : s.flights f = .running)
      (h' : t.flights f = .storing (value.map (⟨·, some f⟩)) false)
      (hsince : t.producingSince f = s.producingSince f)
      (hyield : t.yielded f = some (.ok value))
  | fail (e : E) (ha : a = .produce f (.error e)) (h : s.flights f = .running)
      (h' : t.flights f = .settled (.error e))
      (hsince : t.producingSince f = s.producingSince f)
      (hyield : t.yielded f = some (.error e))
  | store (value : Stored C V) (h : s.flights f = .storing value false)
      (h' : t.flights f = .storing value true) (hcache : t.cache = value)
      (hsince : t.producingSince f = s.producingSince f) (hyield : t.yielded f = s.yielded f)
  | settle (value : Stored C V) (h : s.flights f = .storing value true)
      (h' : t.flights f = .settled (.ok value))
      (hsince : t.producingSince f = s.producingSince f) (hyield : t.yielded f = s.yielded f)

variable [DecidableEq C] [DecidableEq D]

theorem Moves.flightStep {s t : St C D V E} {a : Act C D V E} (h : Moves s a t) (hs : Locked s)
    (f : C) : FlightStep s t f a := by
  cases h with
  | getOrSet hc | read hc | hit hc | join hc hf | wake hc hf | del hd | delete hd | deleted hd =>
    exact .keep rfl rfl rfl
  | @lead c hc hf =>
    by_cases hfc : f = c
    · subst hfc
      exact .born hf (hs.unborn f (.inr ⟨_, hc⟩)) (St.setFlight_flights_self ..) rfl rfl
    · exact .keep (St.setFlight_flights_of_ne _ _ hfc) rfl rfl
  | @reread g hg =>
    by_cases hfg : f = g
    · subst hfg
      exact .reread hg (St.setFlight_flights_self ..) rfl rfl
    · exact .keep (St.setFlight_flights_of_ne _ _ hfg) rfl rfl
  | @found g p hg =>
    by_cases hfg : f = g
    · subst hfg
      exact .found p hg (St.land_flights_self ..) rfl rfl
    · exact .keep (St.land_flights_of_ne _ _ hfg) rfl rfl
  | @run g hg =>
    by_cases hfg : f = g
    · subst hfg
      exact .run hg (St.setFlight_flights_self ..) (Function.update_self ..) rfl
    · exact .keep (St.setFlight_flights_of_ne _ _ hfg) (Function.update_of_ne hfg ..) rfl
  | @produce g value hg =>
    by_cases hfg : f = g
    · subst hfg
      exact .produce value rfl hg (St.setFlight_flights_self ..) rfl (Function.update_self ..)
    · exact .keep (St.setFlight_flights_of_ne _ _ hfg) rfl (Function.update_of_ne hfg ..)
  | @fail g e hg =>
    by_cases hfg : f = g
    · subst hfg
      exact .fail e rfl hg (St.land_flights_self ..) rfl (Function.update_self ..)
    · exact .keep (St.land_flights_of_ne _ _ hfg) rfl (Function.update_of_ne hfg ..)
  | @store g value hg =>
    by_cases hfg : f = g
    · subst hfg
      exact .store value hg (St.setFlight_flights_self ..) rfl rfl rfl
    · exact .keep (St.setFlight_flights_of_ne _ _ hfg) rfl rfl
  | @settle g value hg =>
    by_cases hfg : f = g
    · subst hfg
      exact .settle value hg (St.land_flights_self ..) rfl rfl
    · exact .keep (St.land_flights_of_ne _ _ hfg) rfl rfl

/-- The cache changes where a flight stores and where a deletion takes effect. -/
theorem Moves.cache {s t : St C D V E} {a : Act C D V E} (h : Moves s a t) :
    t.cache = s.cache ∨ (∃ f, s.flights f = .storing t.cache false) ∨
      ∃ d, a = .delete d ∧ t.cache = none := by
  cases h with
  | getOrSet | read | hit | join | lead | reread | found | run | produce | fail | settle | wake
    | del | deleted => exact .inl rfl
  | @store f value hf => exact .inr (.inl ⟨f, hf⟩)
  | @delete d hd => exact .inr (.inr ⟨d, rfl, rfl⟩)

end OneFlight

end MemoryCache

end ShieldApi
