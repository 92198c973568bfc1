import Mathlib.Data.Finset.Basic
import Mathlib.Data.Finset.Lattice.Lemmas
import Mathlib.Data.List.Perm.Basic
import ShieldApi.Lib.Effect

/-!
# Calls that are let settle

`Promise.allSettled` makes its calls at once and waits for all of them. It never rejects: its
result says, call by call, which were fulfilled. A call that is fulfilled has taken effect and one
that is rejected has not. In which order they took effect the caller is not told.

`takeEffect_eq_foldl` does away with the order of the indices: what a batch leaves behind is what
its fulfilled calls leave, made one after another in some order. Where the order does not
matter, that is the end of it (`foldl_insert`, `foldl_erase`).
-/

set_option autoImplicit false

namespace ShieldApi

/-- How the calls of a batch come out: each by its index, and the order in which they take
    effect. -/
structure Settling (ε : Type) where
  outcome : Nat → Except ε Unit
  order : Nat → List Nat
  order_perm : ∀ n, (order n).Perm (List.range n)

namespace Settling

variable {σ ε ε' α : Type}

def results (p : Settling ε) (n : Nat) : List (Except ε Unit) := (List.range n).map p.outcome

/-- None of the first `n` calls is rejected. -/
def AllFulfilled (p : Settling ε) (n : Nat) : Prop := ∀ i < n, p.outcome i = .ok ()

instance [DecidableEq ε] (p : Settling ε) (n : Nat) : Decidable (p.AllFulfilled n) :=
  inferInstanceAs (Decidable (∀ i < n, p.outcome i = .ok ()))

/-- The call with this index, where there is one and it is fulfilled. -/
def fulfilled? (p : Settling ε) (xs : List α) (i : Nat) : Option α :=
  match p.outcome i with
  | .ok () => xs[i]?
  | .error _ => none

/-- What the calls leave behind. -/
def takeEffect (p : Settling ε) (calls : List (σ → σ)) (s : σ) : σ :=
  (p.order calls.length).foldl
    (fun s i => match p.fulfilled? calls i with | some call => call s | none => s) s

/-- `Promise.allSettled`. -/
def allSettled (calls : List (σ → σ)) (p : Settling ε) : Effect σ ε' (List (Except ε Unit)) :=
  fun s => (.ok (p.results calls.length), p.takeEffect calls s)

/-- What the fulfilled calls were made for, by `results.forEach((result, index) => …)`. -/
def fulfilled (xs : List α) (results : List (Except ε Unit)) : List α :=
  results.zipIdx.filterMap fun
    | (.ok (), index) => xs[index]?
    | (.error _, _) => none

/-- What the rejected calls were made for, and why they were rejected. -/
def rejected (xs : List α) (results : List (Except ε Unit)) : List (α × ε) :=
  results.zipIdx.filterMap fun
    | (.ok (), _) => none
    | (.error e, index) => xs[index]?.map (·, e)

/-! ## 1. The results -/

@[simp] theorem run_allSettled (calls : List (σ → σ)) (p : Settling ε) (s : σ) :
    (allSettled calls p : Effect σ ε' _).run s
      = (.ok (p.results calls.length), p.takeEffect calls s) := rfl

theorem results_zipIdx (p : Settling ε) (n : Nat) :
    (p.results n).zipIdx = (List.range n).map fun i => (p.outcome i, i) := by
  apply List.ext_getElem
  · simp [results]
  · intro i hi hj
    simp [results]

theorem fulfilled_results (p : Settling ε) (xs : List α) (n : Nat) :
    fulfilled xs (p.results n) = (List.range n).filterMap (p.fulfilled? xs) := by
  rw [fulfilled, results_zipIdx, List.filterMap_map]
  apply List.filterMap_congr
  intro i _
  show (match (p.outcome i, i) with | (.ok (), index) => xs[index]? | (.error _, _) => none) = _
  unfold fulfilled?
  cases p.outcome i <;> rfl

theorem fulfilled_of_allFulfilled {p : Settling ε} {xs : List α} (h : p.AllFulfilled xs.length) :
    fulfilled xs (p.results xs.length) = xs := by
  have hget : ∀ i ∈ List.range xs.length, p.fulfilled? xs i = xs[i]? := by
    intro i hi
    unfold fulfilled?
    rw [h i (List.mem_range.1 hi)]
  have hmap : (List.range xs.length).map (xs[·]?) = xs.map some := by
    apply List.ext_getElem
    · simp
    · intro i hi hj
      simp
  calc fulfilled xs (p.results xs.length)
      = (List.range xs.length).filterMap (xs[·]?) := by
        rw [fulfilled_results]
        exact List.filterMap_congr hget
    _ = ((List.range xs.length).map (xs[·]?)).filterMap id := by
        rw [List.filterMap_map]
        rfl
    _ = xs := by
        rw [hmap, List.filterMap_map]
        exact List.filterMap_some

/-- Nothing is rejected exactly when no call fails. -/
theorem rejected_eq_nil_iff {p : Settling ε} {xs : List α} :
    rejected xs (p.results xs.length) = [] ↔ p.AllFulfilled xs.length := by
  rw [rejected, results_zipIdx, List.filterMap_map, List.filterMap_eq_nil_iff]
  constructor
  · intro h i hi
    have := h i (List.mem_range.2 hi)
    cases ho : p.outcome i with
    | ok _ => rfl
    | error e => simp [ho, List.getElem?_eq_getElem hi] at this
  · intro h i hi
    simp [h i (List.mem_range.1 hi)]

/-! ## 2. What is left behind -/

theorem fulfilled?_map (p : Settling ε) (f : α → σ → σ) (xs : List α) (i : Nat) :
    p.fulfilled? (xs.map f) i = (p.fulfilled? xs i).map f := by
  unfold fulfilled?
  cases p.outcome i with
  | ok _ => exact List.getElem?_map ..
  | error e => rfl

/-- What a batch leaves behind is what its fulfilled calls leave, made in some order. -/
theorem takeEffect_eq_foldl (p : Settling ε) (f : α → σ → σ) (xs : List α) (s : σ) :
    ∃ ys : List α, ys.Perm (fulfilled xs (p.results xs.length)) ∧
      p.takeEffect (xs.map f) s = ys.foldl (fun s x => f x s) s := by
  refine ⟨(p.order xs.length).filterMap (p.fulfilled? xs), ?_, ?_⟩
  · rw [fulfilled_results]
    exact (p.order_perm xs.length).filterMap _
  · rw [List.foldl_filterMap, takeEffect, List.length_map]
    congr 1
    funext t i
    rw [fulfilled?_map]
    cases p.fulfilled? xs i <;> rfl

end Settling

/-! ## 3. Sets -/

variable {α : Type} [DecidableEq α]

theorem foldl_insert (xs : List α) (m : Finset α) :
    xs.foldl (fun m x => insert x m) m = m ∪ xs.toFinset := by
  induction xs generalizing m with
  | nil => simp
  | cons x xs ih =>
    rw [List.foldl_cons, ih, List.toFinset_cons, Finset.insert_union_comm]

theorem foldl_erase (xs : List α) (m : Finset α) :
    xs.foldl (fun m x => m.erase x) m = m \ xs.toFinset := by
  induction xs generalizing m with
  | nil => simp
  | cons x xs ih =>
    rw [List.foldl_cons, ih, List.toFinset_cons, Finset.erase_sdiff_comm, ← Finset.sdiff_insert]

end ShieldApi
