import Mathlib.Logic.Function.Basic
import ShieldApi.Lib.Effect
import ShieldApi.Lib.Runs

/-!
# Calls side by side

An `Effect` runs from its beginning to its end. A method of a server does not: at each `await` it
lets go, and what it read before may be out of date when it goes on. A `Process` is a method cut
up at its awaits. Between two of them it makes one step on the store, and how it goes on depends
on what the store was then.

A step carries a **tag**, which says before the step is made what it is about to do; conditions
on an interleaving are stated about the tag and the store. A `Pool` is any number of
processes on one store, and a run of it is a list of names, each of which makes the next step
of its process. `Pool.invariant` is the rule: what every step keeps, where its condition holds,
holds throughout.
-/

set_option autoImplicit false

namespace ShieldApi

/-- A computation over a store that goes step by step. -/
inductive Process (σ τ ε α : Type)
  | done (result : Except ε α)
  | step (tag : τ) (write : σ → σ) (next : σ → Process σ τ ε α)

namespace Process

variable {σ τ ε α β : Type}

protected def bind : Process σ τ ε α → (α → Process σ τ ε β) → Process σ τ ε β
  | .done (.ok a), k => k a
  | .done (.error e), _ => .done (.error e)
  | .step tag write next, k => .step tag write fun s => (next s).bind k

instance : Monad (Process σ τ ε) where
  pure a := .done (.ok a)
  bind := Process.bind

/-- An effect in one step. -/
def atomically (tag : τ) (x : Effect σ ε α) : Process σ τ ε α :=
  .step tag x.after fun s => .done (x.run s).1

/-- The process with nobody else around. -/
def whole : Process σ τ ε α → Effect σ ε α
  | .done result => fun s => (result, s)
  | .step _ write next => fun s => (next s).whole (write s)

/-- What the process is about to do. -/
def tag? : Process σ τ ε α → Option τ
  | .done _ => none
  | .step tag _ _ => some tag

/-! ## 1. With nobody else around -/

theorem whole_atomically (tag : τ) (x : Effect σ ε α) : (atomically tag x).whole = x := rfl

theorem whole_bind (p : Process σ τ ε α) (k : α → Process σ τ ε β) :
    (p >>= k).whole = p.whole >>= fun a => (k a).whole := by
  induction p with
  | done result => cases result <;> rfl
  | step tag write next ih =>
    funext s
    exact congrFun (ih s) (write s)

/-! ## 2. What every step does -/

/-- Every step the process may come to has `Q`. -/
def Every (Q : τ → (σ → σ) → Prop) : Process σ τ ε α → Prop
  | .done _ => True
  | .step tag write next => Q tag write ∧ ∀ s, (next s).Every Q

variable {Q : τ → (σ → σ) → Prop}

theorem every_pure (a : α) : (pure a : Process σ τ ε α).Every Q := trivial

theorem every_atomically {tag : τ} {x : Effect σ ε α} (h : Q tag x.after) :
    (atomically tag x).Every Q :=
  ⟨h, fun _ => trivial⟩

theorem Every.bind {p : Process σ τ ε α} {k : α → Process σ τ ε β} (hp : p.Every Q)
    (hk : ∀ a, (k a).Every Q) : (p >>= k).Every Q := by
  induction p with
  | done result =>
    cases result with
    | ok a => exact hk a
    | error e => trivial
  | step tag write next ih =>
    obtain ⟨hstep, hnext⟩ := hp
    exact ⟨hstep, fun s => ih s (hnext s)⟩

/-! ## 3. What a process has seen

A process decides by what the store was when it looked. Others write meanwhile, but where all of
them keep to `R` it can still count on whatever no `R` takes away. -/

/-- Each step finds `G` of its tag, however the store has changed along `R` since it was `s` and
    between the steps. -/
def Finds (R : σ → σ → Prop) (G : τ → σ → Prop) : Process σ τ ε α → σ → Prop
  | .done _, _ => True
  | .step tag _ next, s => ∀ s', R s s' → G tag s' ∧ (next s').Finds R G s'

variable {R : σ → σ → Prop} {G : τ → σ → Prop}

theorem Finds.mono (trans : ∀ s t u, R s t → R t u → R s u) {p : Process σ τ ε α} {s t : σ}
    (h : p.Finds R G s) (hst : R s t) : p.Finds R G t := by
  cases p with
  | done _ => trivial
  | step tag write next => exact fun u htu => h u (trans s t u hst htu)

theorem finds_atomically {tag : τ} {x : Effect σ ε α} {s : σ} (h : ∀ s', R s s' → G tag s') :
    (atomically tag x).Finds R G s :=
  fun s' hs' => ⟨h s' hs', trivial⟩

/-- What comes after a step may use what the step found. -/
theorem finds_atomically_bind {tag : τ} {x : Effect σ ε α} {k : α → Process σ τ ε β} {s : σ}
    (htag : ∀ s', R s s' → G tag s')
    (hk : ∀ s' a t, R s s' → x.run s' = (.ok a, t) → (k a).Finds R G s') :
    (atomically tag x >>= k).Finds R G s := by
  intro s' hs'
  refine ⟨htag s' hs', ?_⟩
  show (Process.bind (.done (x.run s').1) k).Finds R G s'
  cases hrun : x.run s' with
  | mk result t =>
    cases result with
    | error e => trivial
    | ok a => exact hk s' a t hs' hrun

/-- What is done with the result asks for nothing more. -/
theorem Finds.bind_pure {p : Process σ τ ε α} {f : α → β} {s : σ} (h : p.Finds R G s) :
    (p >>= fun a => pure (f a)).Finds R G s := by
  induction p generalizing s with
  | done result => cases result <;> trivial
  | step tag write next ih =>
    intro s' hs'
    obtain ⟨htag, hnext⟩ := h s' hs'
    exact ⟨htag, ih s' hnext⟩

end Process

/-! ## 4. Many on one store -/

/-- Processes on one store, each under its name. -/
structure Pool (C σ τ ε α : Type) where
  store : σ
  process : C → Process σ τ ε α

namespace Pool

variable {C σ τ ε α : Type}

/-- What `c` is about to do. -/
def tag? (p : Pool C σ τ ε α) (c : C) : Option τ := (p.process c).tag?

variable [DecidableEq C]

/-- `c` makes its next step, if it has one. -/
def step (p : Pool C σ τ ε α) (c : C) : Pool C σ τ ε α :=
  match p.process c with
  | .done _ => p
  | .step _ write next =>
    { store := write p.store, process := Function.update p.process c (next p.store) }

theorem every_step {Q : τ → (σ → σ) → Prop} {p : Pool C σ τ ε α}
    (h : ∀ c, (p.process c).Every Q) (c : C) : ∀ c', ((p.step c).process c').Every Q := by
  intro c'
  unfold step
  have hc := h c
  cases hprocess : p.process c with
  | done _ => exact h c'
  | step tag write next =>
    rw [hprocess] at hc
    show (Function.update p.process c (next p.store) c').Every Q
    by_cases hcc : c' = c
    · rw [hcc, Function.update_self]
      exact hc.2 p.store
    · rw [Function.update_of_ne hcc]
      exact h c'

/-- What a step does to the store. -/
theorem step_store {Q : τ → (σ → σ) → Prop} {p : Pool C σ τ ε α}
    (h : ∀ c, (p.process c).Every Q) (c : C) :
    (p.tag? c = none ∧ (p.step c).store = p.store) ∨
      ∃ tag write, p.tag? c = some tag ∧ Q tag write ∧ (p.step c).store = write p.store := by
  have hc := h c
  unfold tag? step
  cases hprocess : p.process c with
  | done _ => exact .inl ⟨rfl, rfl⟩
  | step tag write next =>
    rw [hprocess] at hc
    exact .inr ⟨tag, write, rfl, hc.1, rfl⟩

/-- **The rule of the invariant:** it holds throughout a run if every step keeps it where the
    condition of its tag holds, and the condition of every step of the run does. -/
theorem invariant {Q : τ → (σ → σ) → Prop} {I : σ → Prop} {G : τ → σ → Prop}
    (hkeep : ∀ tag write s, Q tag write → G tag s → I s → I (write s))
    {p : Pool C σ τ ε α} (hevery : ∀ c, (p.process c).Every Q) (hstart : I p.store) {run : List C}
    (hcond : ∀ u c tag, Fired step p run u c → u.tag? c = some tag → G tag u.store) :
    ∀ u, Reached step p run u → I u.store := by
  intro u hu
  have hboth : I u.store ∧ ∀ c, (u.process c).Every Q := by
    refine hu.invariant_fired (I := fun u => I u.store ∧ ∀ c, (u.process c).Every Q)
      ⟨hstart, hevery⟩ fun u c hf hu => ⟨?_, every_step hu.2 c⟩
    rcases step_store hu.2 c with ⟨-, hstore⟩ | ⟨tag, write, htag, hq, hstore⟩
    · rw [hstore]
      exact hu.1
    · rw [hstore]
      exact hkeep tag write u.store hq (hcond u c tag hf htag) hu.1
  exact hboth.1

/-- **The same, exactly:** where a step keeps the invariant precisely if `G` holds of its tag and
    of the store before it and after it, the invariant holds throughout a run precisely if `G`
    holds of every step of the run. -/
theorem invariant_iff {Q : τ → (σ → σ) → Prop} {I : σ → Prop} {G : τ → σ → σ → Prop}
    (hkeep : ∀ tag write s, Q tag write → I s → (I (write s) ↔ G tag s (write s)))
    {p : Pool C σ τ ε α} (hevery : ∀ c, (p.process c).Every Q) (hstart : I p.store)
    {run : List C} :
    (∀ u, Reached step p run u → I u.store) ↔
      ∀ u c, Fired step p run u c →
        ∀ tag, u.tag? c = some tag → G tag u.store (u.step c).store := by
  refine reached_iff_fired (I := fun u : Pool C σ τ ε α => ∀ c, (u.process c).Every Q)
    (P := fun u => I u.store) (G := fun u c => ∀ tag, u.tag? c = some tag →
      G tag u.store (u.step c).store) hevery hstart (fun u c _ hu => every_step hu c) ?_
  intro u c _ hu hi
  rcases step_store hu c with ⟨hnone, hstore⟩ | ⟨tag, write, htag, hq, hstore⟩
  · rw [hstore]
    apply iff_of_true hi
    intro tag htag
    rw [hnone] at htag
    exact absurd htag (by simp)
  · rw [hstore, htag]
    constructor
    · intro h tag' htag'
      obtain rfl := Option.some.inj htag'
      exact (hkeep tag write u.store hq hi).mp h
    · intro h
      exact (hkeep tag write u.store hq hi).mpr (h tag rfl)

/-- **The rule of what was seen**, each counting on the others: where a step that finds what it
    counts on keeps to `R`, and each process finds it as long as the others keep to `R`, all of
    them do throughout a run. -/
theorem relies {Q : τ → (σ → σ) → Prop} {R : σ → σ → Prop} {G : τ → σ → Prop}
    (refl : ∀ s, R s s) (trans : ∀ s t u, R s t → R t u → R s u)
    (hkeep : ∀ tag write s, Q tag write → G tag s → R s (write s)) {p : Pool C σ τ ε α}
    (hevery : ∀ c, (p.process c).Every Q) (hfinds : ∀ c, (p.process c).Finds R G p.store)
    {run : List C} {u : Pool C σ τ ε α} (hu : Reached step p run u) :
    (∀ c, (u.process c).Every Q) ∧ ∀ c, (u.process c).Finds R G u.store := by
  refine hu.invariant (I := fun u : Pool C σ τ ε α => (∀ c, (u.process c).Every Q) ∧
    ∀ c, (u.process c).Finds R G u.store) ⟨hevery, hfinds⟩ fun u c _ hu => ?_
  obtain ⟨hevery, hfinds⟩ := hu
  refine ⟨every_step hevery c, fun c' => ?_⟩
  have hc := hfinds c
  have hq := hevery c
  unfold step
  cases hprocess : u.process c with
  | done _ => exact hfinds c'
  | step tag write next =>
    rw [hprocess] at hc hq
    show (Function.update u.process c (next u.store) c').Finds R G (write u.store)
    obtain ⟨hfound, hnext⟩ := hc u.store (refl u.store)
    have hwrite : R u.store (write u.store) := hkeep tag write u.store hq.1 hfound
    by_cases hcc : c' = c
    · rw [hcc, Function.update_self]
      exact hnext.mono trans hwrite
    · rw [Function.update_of_ne hcc]
      exact (hfinds c').mono trans hwrite

omit [DecidableEq C] in
/-- A step finds what its process counts on, if all do. -/
theorem found {R : σ → σ → Prop} {G : τ → σ → Prop} (refl : ∀ s, R s s) {u : Pool C σ τ ε α}
    (h : ∀ c, (u.process c).Finds R G u.store) {c : C} {tag : τ} (htag : u.tag? c = some tag) :
    G tag u.store := by
  have hc := h c
  unfold tag? at htag
  cases hprocess : u.process c with
  | done _ =>
    rw [hprocess] at htag
    exact absurd htag (by simp [Process.tag?])
  | step tag' write next =>
    rw [hprocess] at htag hc
    obtain rfl := Option.some.inj htag
    exact (hc u.store (refl u.store)).1

/-- The same where every step keeps to `R` whatever it finds. -/
theorem finds {Q : τ → (σ → σ) → Prop} {R : σ → σ → Prop} {G : τ → σ → Prop}
    (refl : ∀ s, R s s) (trans : ∀ s t u, R s t → R t u → R s u)
    (hkeep : ∀ tag write s, Q tag write → R s (write s)) {p : Pool C σ τ ε α}
    (hevery : ∀ c, (p.process c).Every Q) (hfinds : ∀ c, (p.process c).Finds R G p.store)
    {run : List C} {u : Pool C σ τ ε α} {c : C} {tag : τ} (hf : Fired step p run u c)
    (htag : u.tag? c = some tag) : G tag u.store :=
  found refl (relies refl trans (fun tag write s hq _ => hkeep tag write s hq) hevery hfinds
    hf.reached).2 htag

end Pool

end ShieldApi
