/-!
# Computations over a store that may throw

The services this development is about are asynchronous methods that read a store, throw
exceptions, and write. Two facts about such a method decide what a caller can observe, and
neither is visible in its return type:

* **a throw does not undo a write.** What was written before the exception stays written,
  unless the writes were made inside a transaction;
* **a transaction undoes its own writes, and nothing else.** A throw inside it restores the
  state the transaction started from, not the one the method started from.

`Effect` is the smallest type in which both can be said: the state is returned on the
error path as well. `transaction` is the only operation that looks at the error path.

The second half of the file is the calculus: an inversion lemma for every operation
(`bind_eq_ok` and its siblings), and the three properties `ReadOnly`, `Atomic` and `Total`,
with a rule for each way a method is put together.
-/

set_option autoImplicit false

namespace ShieldApi

/-- A computation over a state `σ` that returns an `α` or throws an `ε`. The state comes
    back either way. -/
def Effect (σ ε α : Type) : Type := σ → Except ε α × σ

namespace Effect

variable {σ ε α β : Type}

def run (x : Effect σ ε α) (s : σ) : Except ε α × σ := x s

/-- The state `x` leaves behind, whether or not it throws. -/
def after (x : Effect σ ε α) (s : σ) : σ := (x.run s).2

instance : Monad (Effect σ ε) where
  pure a := fun s => (.ok a, s)
  bind x f := fun s =>
    match x s with
    | (.ok a, t) => f a t
    | (.error e, t) => (.error e, t)

def raise (e : ε) : Effect σ ε α := fun s => (.error e, s)

def query (f : σ → α) : Effect σ ε α := fun s => (.ok (f s), s)

/-- A query whose answer may be an error. -/
def examine (f : σ → Except ε α) : Effect σ ε α := fun s => (f s, s)

def write (f : σ → σ) : Effect σ ε Unit := fun s => (.ok (), f s)

/-- Write what the state permits; where it permits nothing, throw and write nothing. -/
def attempt (f : σ → Except ε (α × σ)) : Effect σ ε α := fun s =>
  match f s with
  | .ok (a, t) => (.ok a, t)
  | .error e => (.error e, s)

def orRaise (e : ε) : Option α → Effect σ ε α
  | some a => pure a
  | none => raise e

def raiseIf (c : Bool) (e : ε) : Effect σ ε Unit :=
  if c then raise e else pure ()

/-- Run `x`; if it throws, the state is the one it started from. -/
def transaction (x : Effect σ ε α) : Effect σ ε α := fun s =>
  match x s with
  | (.ok a, t) => (.ok a, t)
  | (.error e, _) => (.error e, s)

/-- Run `x`; if it throws, throw what `f` makes of it. -/
def rethrow {ε' : Type} (f : ε → ε') (x : Effect σ ε α) : Effect σ ε' α := fun s =>
  match x s with
  | (.ok a, t) => (.ok a, t)
  | (.error e, t) => (.error (f e), t)

/-- One computation after another, in the order of the list, stopping at the first throw. -/
def forEach : List α → (α → Effect σ ε β) → Effect σ ε (List β)
  | [], _ => pure []
  | a :: as, f => do
    let b ← f a
    let bs ← forEach as f
    pure (b :: bs)

/-! ## 1. Running a computation, forwards -/

@[simp] theorem run_pure (a : α) (s : σ) : (pure a : Effect σ ε α).run s = (.ok a, s) := rfl

@[simp] theorem run_raise (e : ε) (s : σ) : (raise e : Effect σ ε α).run s = (.error e, s) := rfl

@[simp] theorem run_query (f : σ → α) (s : σ) : (query f : Effect σ ε α).run s = (.ok (f s), s) := rfl

@[simp] theorem run_write (f : σ → σ) (s : σ) :
    (write f : Effect σ ε Unit).run s = (.ok (), f s) := rfl

theorem run_bind_ok {x : Effect σ ε α} {f : α → Effect σ ε β} {s t : σ} {a : α}
    (h : x.run s = (.ok a, t)) : (x >>= f).run s = (f a).run t := by
  show (match x s with | (.ok a, t) => f a t | (.error e, t) => (.error e, t)) = f a t
  rw [show x s = (.ok a, t) from h]

theorem run_bind_error {x : Effect σ ε α} {f : α → Effect σ ε β} {s t : σ} {e : ε}
    (h : x.run s = (.error e, t)) : (x >>= f).run s = (.error e, t) := by
  show (match x s with | (.ok a, t) => f a t | (.error e, t) => (.error e, t)) = _
  rw [show x s = (.error e, t) from h]

@[simp] theorem run_pure_bind (a : α) (f : α → Effect σ ε β) (s : σ) :
    (pure a >>= f : Effect σ ε β).run s = (f a).run s := rfl

@[simp] theorem run_raise_bind (e : ε) (f : α → Effect σ ε β) (s : σ) :
    (raise e >>= f : Effect σ ε β).run s = (.error e, s) := rfl

@[simp] theorem run_query_bind (g : σ → α) (f : α → Effect σ ε β) (s : σ) :
    (query g >>= f : Effect σ ε β).run s = (f (g s)).run s := rfl

@[simp] theorem run_write_bind (g : σ → σ) (f : Unit → Effect σ ε β) (s : σ) :
    (write g >>= f : Effect σ ε β).run s = (f ()).run (g s) := rfl

@[simp] theorem orRaise_some (e : ε) (a : α) : (orRaise e (some a) : Effect σ ε α) = pure a := rfl

@[simp] theorem orRaise_none (e : ε) : (orRaise e none : Effect σ ε α) = raise e := rfl

@[simp] theorem raiseIf_true (e : ε) : (raiseIf true e : Effect σ ε Unit) = raise e := rfl

@[simp] theorem raiseIf_false (e : ε) : (raiseIf false e : Effect σ ε Unit) = pure () := rfl

theorem bind_bind {γ : Type} (x : Effect σ ε α) (f : α → Effect σ ε β) (g : β → Effect σ ε γ) :
    (x >>= f) >>= g = x >>= fun a => f a >>= g := by
  funext s
  show ((x >>= f) >>= g).run s = (x >>= fun a => f a >>= g).run s
  rcases h : x.run s with ⟨r, t⟩
  cases r with
  | error e => rw [run_bind_error h, run_bind_error (run_bind_error h)]
  | ok a =>
    rw [run_bind_ok h]
    show (match (x >>= f).run s with | (.ok b, t) => g b t | (.error e, t) => (.error e, t)) = _
    rw [run_bind_ok h]
    rfl

/-- How a computation goes on matters only where it can come to. -/
theorem run_bind_congr {x : Effect σ ε α} {f g : α → Effect σ ε β} {s : σ}
    (h : ∀ a t, x.run s = (.ok a, t) → (f a).run t = (g a).run t) :
    (x >>= f).run s = (x >>= g).run s := by
  rcases hx : x.run s with ⟨r, t⟩
  cases r with
  | error e => rw [run_bind_error hx, run_bind_error hx]
  | ok a => rw [run_bind_ok hx, run_bind_ok hx, h a t hx]

theorem run_bind_of_run_eq {x y : Effect σ ε α} (f : α → Effect σ ε β) {s : σ}
    (h : x.run s = y.run s) : (x >>= f).run s = (y >>= f).run s := by
  rcases hy : y.run s with ⟨r, t⟩
  cases r with
  | error e => rw [run_bind_error (h.trans hy), run_bind_error hy]
  | ok a => rw [run_bind_ok (h.trans hy), run_bind_ok hy]

theorem pure_bind_self (a : α) (f : α → Effect σ ε β) : (pure a >>= f) = f a := rfl

theorem bind_pure_self (x : Effect σ ε α) : (x >>= pure) = x := by
  funext s
  show (x >>= pure).run s = x.run s
  rcases h : x.run s with ⟨r, t⟩
  cases r with
  | error e => exact run_bind_error h
  | ok a => exact run_bind_ok h

theorem after_bind_pure (x : Effect σ ε α) (f : α → β) (s : σ) :
    (x >>= fun a => pure (f a)).after s = x.after s := by
  unfold after
  rcases h : x.run s with ⟨r, t⟩
  cases r with
  | ok a => rw [run_bind_ok h, run_pure]
  | error e => rw [run_bind_error h]

/-! ## 2. …and backwards: what a computation that returned must have done -/

theorem bind_eq_ok {x : Effect σ ε α} {f : α → Effect σ ε β} {s t : σ} {b : β} :
    (x >>= f).run s = (.ok b, t) ↔
      ∃ a u, x.run s = (.ok a, u) ∧ (f a).run u = (.ok b, t) := by
  constructor
  · intro h
    rcases hx : x.run s with ⟨r, u⟩
    cases r with
    | error e => rw [run_bind_error hx] at h; simp at h
    | ok a => exact ⟨a, u, rfl, by rw [run_bind_ok hx] at h; exact h⟩
  · rintro ⟨a, u, hx, hf⟩
    rw [run_bind_ok hx, hf]

/-- The same for a computation without a store. -/
theorem bind_except_eq_ok {x : Except ε α} {f : α → Except ε β} {b : β} :
    (x >>= f) = .ok b ↔ ∃ a, x = .ok a ∧ f a = .ok b := by
  cases x with
  | error e => exact ⟨fun h => (nomatch h), fun ⟨_, h, _⟩ => (nomatch h)⟩
  | ok a => exact ⟨fun h => ⟨a, rfl, h⟩, fun ⟨_, ha, h⟩ => Except.ok.inj ha ▸ h⟩

theorem orRaise_eq_ok {e : ε} {o : Option α} {s t : σ} {a : α} :
    (orRaise e o).run s = (.ok a, t) ↔ o = some a ∧ s = t := by
  cases o <;> simp

theorem raiseIf_eq_ok {c : Bool} {e : ε} {s t : σ} {u : Unit} :
    (raiseIf c e).run s = (.ok u, t) ↔ c = false ∧ s = t := by
  cases c <;> simp

theorem examine_eq_ok {f : σ → Except ε α} {s t : σ} {a : α} :
    (examine f).run s = (.ok a, t) ↔ f s = .ok a ∧ s = t := by
  show (f s, s) = (.ok a, t) ↔ _
  rw [Prod.mk.injEq]

theorem attempt_eq_ok {f : σ → Except ε (α × σ)} {s t : σ} {a : α} :
    (attempt f).run s = (.ok a, t) ↔ f s = .ok (a, t) := by
  show (match f s with | .ok (a, t) => _ | .error e => _) = _ ↔ _
  cases f s with
  | error e => simp
  | ok p => obtain ⟨a', t'⟩ := p; simp

theorem attempt_eq_error {f : σ → Except ε (α × σ)} {s t : σ} {e : ε} :
    (attempt f).run s = (.error e, t) ↔ f s = .error e ∧ t = s := by
  show (match f s with | .ok (a, t) => _ | .error e => _) = _ ↔ _
  cases f s with
  | error e' => simp [eq_comm]
  | ok p => obtain ⟨a', t'⟩ := p; simp

theorem run_attempt_error {f : σ → Except ε (α × σ)} {s : σ} {e : ε} (h : f s = .error e) :
    (attempt f).run s = (.error e, s) := by
  show (match f s with | .ok (a, t) => _ | .error e => _) = _
  rw [h]

/-- A transaction that returns did exactly what its body did. -/
theorem rethrow_eq_ok {ε' : Type} {f : ε → ε'} {x : Effect σ ε α} {s t : σ} {a : α} :
    (rethrow f x).run s = (.ok a, t) ↔ x.run s = (.ok a, t) := by
  rcases h : x.run s with ⟨r, u⟩
  cases r with
  | ok b =>
    have hrun : (rethrow f x).run s = (.ok b, u) := by simp only [rethrow, run, show x s = _ from h]
    rw [hrun]
    simp
  | error e =>
    have hrun : (rethrow f x).run s = (.error (f e), u) := by
      simp only [rethrow, run, show x s = _ from h]
    rw [hrun]
    simp

theorem transaction_eq_ok {x : Effect σ ε α} {s t : σ} {a : α} :
    (transaction x).run s = (.ok a, t) ↔ x.run s = (.ok a, t) := by
  show (match x s with | (.ok a, t) => _ | (.error e, _) => _) = _ ↔ x s = _
  rcases x s with ⟨r, u⟩
  cases r <;> simp

/-! ## 3. The three properties

`ReadOnly` computations never write; `Atomic` ones write all or nothing; `Total` ones never
throw. A method that reads, then writes in one transaction, then does something that cannot
throw is atomic: that is `ReadOnly.bind` followed by `Atomic.bind_total`. -/

def ReadOnly (x : Effect σ ε α) : Prop := ∀ s, x.after s = s

def Atomic (x : Effect σ ε α) : Prop := ∀ s e t, x.run s = (.error e, t) → t = s

def Total (x : Effect σ ε α) : Prop := ∀ s e t, x.run s ≠ (.error e, t)

theorem ReadOnly.ok {x : Effect σ ε α} (h : ReadOnly x) {s t : σ} {a : α}
    (hx : x.run s = (.ok a, t)) : t = s := by
  have := h s
  rwa [after, hx] at this

theorem ReadOnly.atomic {x : Effect σ ε α} (h : ReadOnly x) : Atomic x := by
  intro s e t hx
  have := h s
  rwa [after, hx] at this

theorem readOnly_pure (a : α) : ReadOnly (pure a : Effect σ ε α) := fun _ => rfl

theorem readOnly_raise (e : ε) : ReadOnly (raise e : Effect σ ε α) := fun _ => rfl

theorem readOnly_query (f : σ → α) : ReadOnly (query f : Effect σ ε α) := fun _ => rfl

theorem readOnly_examine (f : σ → Except ε α) : ReadOnly (examine f : Effect σ ε α) := fun _ => rfl

theorem readOnly_orRaise (e : ε) (o : Option α) : ReadOnly (orRaise e o : Effect σ ε α) := by
  cases o <;> exact fun _ => rfl

theorem readOnly_raiseIf (c : Bool) (e : ε) : ReadOnly (raiseIf c e : Effect σ ε Unit) := by
  cases c <;> exact fun _ => rfl

theorem ReadOnly.bind {x : Effect σ ε α} {f : α → Effect σ ε β} (hx : ReadOnly x)
    (hf : ∀ a, ReadOnly (f a)) : ReadOnly (x >>= f) := by
  intro s
  have hs := hx s
  rcases h : x.run s with ⟨r, u⟩
  rw [after, h] at hs
  simp only at hs
  subst hs
  cases r with
  | error e => rw [after, run_bind_error h]
  | ok a => rw [after, run_bind_ok h]; exact hf a _

/-- What only reads leaves what was done before it. -/
theorem after_bind_readOnly {x : Effect σ ε α} {f : α → Effect σ ε β} (hf : ∀ a, ReadOnly (f a))
    (s : σ) : (x >>= f).after s = x.after s := by
  rcases h : x.run s with ⟨r, t⟩
  cases r with
  | error e => rw [after, after, run_bind_error h, h]
  | ok a =>
    rw [after, after, run_bind_ok h, h]
    exact hf a t

theorem atomic_transaction (x : Effect σ ε α) : Atomic (transaction x) := by
  intro s e t
  show (match x s with | (.ok a, t) => _ | (.error e, _) => _) = _ → _
  rcases x s with ⟨r, u⟩
  cases r with
  | ok a => simp
  | error e' => simp only [Prod.mk.injEq]; rintro ⟨-, rfl⟩; rfl

theorem run_transaction (x : Effect σ ε α) (s : σ) :
    (transaction x).run s =
      match x.run s with
      | (.ok a, t) => (.ok a, t)
      | (.error e, _) => (.error e, s) := rfl

theorem run_transaction_of_run_eq {x y : Effect σ ε α} {s : σ} (h : x.run s = y.run s) :
    (transaction x).run s = (transaction y).run s := by
  rw [run_transaction, run_transaction, h]

/-- What only reads may stand in front of a transaction as well as inside. -/
theorem ReadOnly.transaction_bind {x : Effect σ ε α} {f : α → Effect σ ε β} (hx : ReadOnly x) :
    transaction (x >>= f) = x >>= fun a => transaction (f a) := by
  funext s
  show (transaction (x >>= f)).run s = (x >>= fun a => transaction (f a)).run s
  rcases h : x.run s with ⟨r, t⟩
  obtain rfl : t = s := by
    have hs := hx s
    rwa [after, h] at hs
  cases r with
  | ok a => rw [run_bind_ok h, run_transaction, run_transaction, run_bind_ok h]
  | error e => rw [run_bind_error h, run_transaction, run_bind_error h]

/-- What only returns may stand behind a transaction as well as inside. -/
theorem transaction_bind_pure (x : Effect σ ε α) (f : α → β) :
    transaction (x >>= fun a => pure (f a)) = transaction x >>= fun a => pure (f a) := by
  funext s
  show (transaction (x >>= fun a => pure (f a))).run s = (transaction x >>= fun a => pure (f a)).run s
  rcases h : x.run s with ⟨r, t⟩
  cases r with
  | ok a => rw [run_transaction, run_bind_ok h, run_bind_ok (transaction_eq_ok.mpr h), run_pure]
  | error e =>
    have hx : (transaction x).run s = (.error e, s) := by rw [run_transaction, h]
    rw [run_transaction, run_bind_error h, run_bind_error hx]

theorem atomic_attempt (f : σ → Except ε (α × σ)) : Atomic (attempt f) := by
  intro s e t
  show (match f s with | .ok (a, t) => _ | .error e => _) = _ → _
  cases f s with
  | ok p => simp
  | error e' => simp only [Prod.mk.injEq]; rintro ⟨-, rfl⟩; rfl

/-- A failure of the first leaves nothing behind, and one of the rest what the rest says. -/
theorem Atomic.bind_of {x : Effect σ ε α} {f : α → Effect σ ε β} (hx : Atomic x)
    (hf : ∀ s a u, x.run s = (.ok a, u) → ∀ e t, (f a).run u = (.error e, t) → t = s) :
    Atomic (x >>= f) := by
  intro s e t h
  rcases hxs : x.run s with ⟨r, u⟩
  cases r with
  | error e' =>
    rw [run_bind_error hxs] at h
    simp only [Prod.mk.injEq] at h
    rw [← h.2]
    exact hx s e' u hxs
  | ok a =>
    rw [run_bind_ok hxs] at h
    exact hf s a u hxs e t h

/-- Reads may come before the write. -/
theorem ReadOnly.bind_atomic {x : Effect σ ε α} {f : α → Effect σ ε β} (hx : ReadOnly x)
    (hf : ∀ a, Atomic (f a)) : Atomic (x >>= f) := by
  apply hx.atomic.bind_of
  intro s a u hxs e t h
  obtain rfl := hx.ok hxs
  exact hf a _ e t h

/-- What cannot throw may come after it. -/
theorem Atomic.bind_total {x : Effect σ ε α} {f : α → Effect σ ε β} (hx : Atomic x)
    (hf : ∀ a, Total (f a)) : Atomic (x >>= f) :=
  hx.bind_of fun _ a u _ e t h => absurd h (hf a u e t)

theorem total_pure (a : α) : Total (pure a : Effect σ ε α) := by
  intro s e t h; simp at h

theorem total_write (f : σ → σ) : Total (write f : Effect σ ε Unit) := by
  intro s e t h; simp at h

theorem Total.atomic {x : Effect σ ε α} (h : Total x) : Atomic x :=
  fun s e t hx => absurd hx (h s e t)

theorem Total.bind {x : Effect σ ε α} {f : α → Effect σ ε β} (hx : Total x)
    (hf : ∀ a, Total (f a)) : Total (x >>= f) := by
  intro s e t h
  rcases hxs : x.run s with ⟨r, u⟩
  cases r with
  | error e' => exact hx s e' u hxs
  | ok a => rw [run_bind_ok hxs] at h; exact hf a u e t h

/-- An atomic computation either left the state alone or returned. -/
theorem Atomic.cases {x : Effect σ ε α} (hx : Atomic x) (s : σ) :
    x.after s = s ∨ ∃ a, x.run s = (.ok a, x.after s) := by
  rcases h : x.run s with ⟨r, t⟩
  cases r with
  | error e => left; rw [after, h]; exact hx s e t h
  | ok a => right; exact ⟨a, by rw [after, h]⟩

/-! ## 4. What holds afterwards

One rule for each way a method is built, read from the front: to show that a property holds
of the state a method leaves behind, show that it holds now (the method may throw at once)
and that it holds afterwards given what the first step returned. -/

/-- Started in `s`, `x` ends in a state with `I`, thrown out of or not. -/
def Leaves (x : Effect σ ε α) (I : σ → Prop) (s : σ) : Prop := I (x.after s)

theorem after_of_run {x : Effect σ ε α} {s t : σ} {r : Except ε α} (h : x.run s = (r, t)) :
    x.after s = t := by
  rw [after, h]

theorem ReadOnly.leaves {I : σ → Prop} {x : Effect σ ε α} {s : σ} (hx : ReadOnly x)
    (hs : I s) : x.Leaves I s := by
  unfold Leaves
  rw [hx s]
  exact hs

theorem ReadOnly.leaves_bind {I : σ → Prop} {x : Effect σ ε α} {f : α → Effect σ ε β} {s : σ}
    (hx : ReadOnly x) (hs : I s) (hf : ∀ a, x.run s = (.ok a, s) → (f a).Leaves I s) :
    (x >>= f).Leaves I s := by
  unfold Leaves at hf ⊢
  rcases h : x.run s with ⟨r, t⟩
  cases r with
  | error e =>
    rw [after_of_run (run_bind_error h), hx.atomic s e t h]
    exact hs
  | ok a =>
    obtain rfl := hx.ok h
    rw [after, run_bind_ok h]
    exact hf a h

theorem leaves_bind {I : σ → Prop} {x : Effect σ ε α} {f : α → Effect σ ε β} {s : σ}
    (hx : x.Leaves I s) (hf : ∀ a t, x.run s = (.ok a, t) → (f a).Leaves I t) :
    (x >>= f).Leaves I s := by
  unfold Leaves at hx hf ⊢
  rcases h : x.run s with ⟨r, t⟩
  cases r with
  | error e => rwa [after_of_run h, ← after_of_run (run_bind_error h)] at hx
  | ok a =>
    rw [after, run_bind_ok h]
    exact hf a t h

theorem leaves_bind_of_run {I : σ → Prop} {x : Effect σ ε α} {f : α → Effect σ ε β} {s t : σ}
    {a : α} (hx : x.run s = (.ok a, t)) (hf : (f a).Leaves I t) : (x >>= f).Leaves I s := by
  unfold Leaves at hf ⊢
  rw [after, run_bind_ok hx]
  exact hf

theorem leaves_transaction_of_run {I : σ → Prop} {x : Effect σ ε α} {s t : σ} {a : α}
    (hx : x.run s = (.ok a, t)) (ht : I t) : (transaction x).Leaves I s := by
  unfold Leaves
  rw [after_of_run (transaction_eq_ok.mpr hx)]
  exact ht

theorem leaves_transaction {I : σ → Prop} {x : Effect σ ε α} {s : σ} (hs : I s)
    (hx : ∀ a t, x.run s = (.ok a, t) → I t) : (transaction x).Leaves I s := by
  unfold Leaves
  rcases (atomic_transaction x).cases s with h | ⟨a, h⟩
  · rw [h]; exact hs
  · exact hx a _ (transaction_eq_ok.mp h)

theorem Atomic.leaves {I : σ → Prop} {x : Effect σ ε α} {s : σ} (hx : Atomic x) (hs : I s)
    (hok : ∀ a t, x.run s = (.ok a, t) → I t) : x.Leaves I s := by
  unfold Leaves
  rcases hx.cases s with h | ⟨a, h⟩
  · rw [h]; exact hs
  · exact hok a _ h

/-! ## 5. Loops -/

theorem forEach_cons (a : α) (as : List α) (f : α → Effect σ ε β) :
    forEach (a :: as) f = f a >>= fun b => forEach as f >>= fun bs => pure (b :: bs) := rfl

/-- **The first round of a loop that returned, and the rest of it.** -/
theorem forEach_cons_eq_ok {f : α → Effect σ ε β} {a : α} {as : List α} {s t : σ} {bs : List β} :
    (forEach (a :: as) f).run s = (.ok bs, t) ↔
      ∃ b u bs', (f a).run s = (.ok b, u) ∧ (forEach as f).run u = (.ok bs', t) ∧
        bs = b :: bs' := by
  rw [forEach_cons, bind_eq_ok]
  constructor
  · intro h
    obtain ⟨b, u, hb, h⟩ := h
    obtain ⟨bs', t', hbs, h⟩ := bind_eq_ok.mp h
    obtain ⟨hcons, rfl⟩ := Prod.mk.inj h
    exact ⟨b, u, bs', hb, hbs, (Except.ok.inj hcons).symm⟩
  · intro h
    obtain ⟨b, u, bs', hb, hbs, rfl⟩ := h
    exact ⟨b, u, hb, (run_bind_ok hbs).trans rfl⟩

/-- A loop that skips what there is nothing to do for. -/
theorem forEach_filterMap_eq_ok {g : α → Option β} {f : β → Effect σ ε Unit}
    {x : α → Effect σ ε Unit} (hnone : ∀ a, g a = none → x a = pure ())
    (hsome : ∀ a b, g a = some b → x a = f b) {as : List α} {s t : σ} :
    (∃ us, (forEach as x).run s = (.ok us, t)) ↔
      ∃ us, (forEach (as.filterMap g) f).run s = (.ok us, t) := by
  induction as generalizing s with
  | nil => exact Iff.rfl
  | cons a as ih =>
    simp only [forEach_cons_eq_ok]
    cases hg : g a with
    | none =>
      rw [List.filterMap_cons_none hg, ← ih, hnone a hg]
      constructor
      · rintro ⟨_, u, s', us, hskip, hrest, -⟩
        obtain ⟨-, rfl⟩ := Prod.mk.inj hskip
        exact ⟨us, hrest⟩
      · rintro ⟨us, hrest⟩
        exact ⟨_, (), s, us, rfl, hrest, rfl⟩
    | some b =>
      rw [List.filterMap_cons_some hg, hsome a b hg]
      simp only [forEach_cons_eq_ok]
      constructor
      · rintro ⟨_, u, s', us, hone, hrest, -⟩
        obtain ⟨vs, hvs⟩ := ih.mp ⟨us, hrest⟩
        exact ⟨_, u, s', vs, hone, hvs, rfl⟩
      · rintro ⟨_, u, s', us, hone, hrest, -⟩
        obtain ⟨vs, hvs⟩ := ih.mpr ⟨us, hrest⟩
        exact ⟨_, u, s', vs, hone, hvs, rfl⟩

theorem forEach_readOnly_ok {f : α → Effect σ ε β} (hf : ∀ a, ReadOnly (f a)) {as : List α}
    {s t : σ} {bs : List β} (h : (forEach as f).run s = (.ok bs, t)) :
    t = s ∧ ∀ a ∈ as, ∃ b, (f a).run s = (.ok b, s) := by
  induction as generalizing bs with
  | nil =>
    obtain ⟨-, rfl⟩ := Prod.mk.inj h
    exact ⟨rfl, fun a ha => absurd ha List.not_mem_nil⟩
  | cons a as ih =>
    obtain ⟨b, u, bs', hb, hbs, -⟩ := forEach_cons_eq_ok.mp h
    obtain rfl := (hf a).ok hb
    obtain ⟨rfl, hrest⟩ := ih hbs
    refine ⟨rfl, fun c hc => ?_⟩
    rcases List.mem_cons.mp hc with rfl | hc
    · exact ⟨b, hb⟩
    · exact hrest c hc

/-- A read-only loop returns exactly if every round of it would on its own. -/
theorem forEach_readOnly_iff {f : α → Effect σ ε β} (hf : ∀ a, ReadOnly (f a)) {as : List α}
    {s : σ} :
    (∃ bs t, (forEach as f).run s = (.ok bs, t)) ↔ ∀ a ∈ as, ∃ b, (f a).run s = (.ok b, s) := by
  constructor
  · intro h
    obtain ⟨bs, t, h⟩ := h
    exact (forEach_readOnly_ok hf h).2
  · intro h
    induction as with
    | nil => exact ⟨[], s, rfl⟩
    | cons a as ih =>
      obtain ⟨b, hb⟩ := h a (List.mem_cons_self ..)
      obtain ⟨bs, t, hbs⟩ := ih fun c hc => h c (List.mem_cons_of_mem _ hc)
      refine ⟨b :: bs, t, ?_⟩
      rw [forEach_cons, run_bind_ok hb, run_bind_ok hbs]
      rfl

theorem readOnly_forEach {f : α → Effect σ ε β} (hf : ∀ a, ReadOnly (f a)) :
    ∀ as : List α, ReadOnly (forEach as f)
  | [] => readOnly_pure _
  | a :: as => (hf a).bind fun _ => (readOnly_forEach hf as).bind fun _ => readOnly_pure _

/-- What every round of a loop preserves, the loop preserves, thrown out of or not. -/
theorem leaves_forEach {I : σ → Prop} {f : α → Effect σ ε β} {as : List α}
    (hf : ∀ a ∈ as, ∀ s, I s → (f a).Leaves I s) {s : σ} (hs : I s) :
    (forEach as f).Leaves I s := by
  unfold Leaves at hf ⊢
  induction as generalizing s with
  | nil => exact hs
  | cons a as ih =>
    have ha := hf a (List.mem_cons_self ..) s hs
    rcases h : (f a).run s with ⟨r, u⟩
    rw [after_of_run h] at ha
    rw [forEach_cons]
    cases r with
    | error e => rw [after_of_run (run_bind_error h)]; exact ha
    | ok b =>
      have hrest := ih (fun a' ha' => hf a' (List.mem_cons_of_mem _ ha')) ha
      rw [after, run_bind_ok h]
      rcases h' : (forEach as f).run u with ⟨r', u'⟩
      rw [after_of_run h'] at hrest
      cases r' with
      | error e => rw [run_bind_error h']; exact hrest
      | ok bs => rw [run_bind_ok h']; exact hrest

theorem forEach_ok_keeps {I : σ → Prop} {f : α → Effect σ ε β} {as : List α} {s t : σ}
    {bs : List β} (h : (forEach as f).run s = (.ok bs, t))
    (hf : ∀ a ∈ as, ∀ s, I s → (f a).Leaves I s) (hs : I s) : I t := by
  have hleaves := leaves_forEach hf hs
  unfold Leaves at hleaves
  rwa [after_of_run h] at hleaves

end Effect

end ShieldApi
