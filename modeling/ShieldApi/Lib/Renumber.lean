import Mathlib.Algebra.Order.Floor.Ring
import Mathlib.Data.List.InsertIdx
import Mathlib.Data.List.Sort

/-!
# Entries that carry their position

An entry is taken out of a list and put back somewhere else (`moveIdx`): the list keeps its entries,
and all but that one keep their order. The entries carry numbers of their own, and those whose
number is not their position are handed a new one (`misplaced`). A list of numbers is `Numbered`
where they are `0, …, n - 1` in some order; then counting the ones below a bound is rounding the
bound.
-/

set_option autoImplicit false

namespace ShieldApi

/-! ## 1. One entry moves -/

section Move

variable {α : Type} {l : List α} {i j : Nat} {a b c : α}

/-- The entry at `i`, which is `a`, is taken out and put back at `j`. -/
def moveIdx (l : List α) (i j : Nat) (a : α) : List α := (l.eraseIdx i).insertIdx j a

theorem moveIdx_perm (h : l[i]? = some a) (hj : j ≤ (l.eraseIdx i).length) :
    (moveIdx l i j a).Perm l := by
  obtain ⟨hi, rfl⟩ := List.getElem?_eq_some_iff.mp h
  exact (List.perm_insertIdx _ _ hj).trans (List.getElem_cons_eraseIdx_perm hi)

theorem getElem?_moveIdx_self (hj : j ≤ (l.eraseIdx i).length) :
    (moveIdx l i j a)[j]? = some a := by
  rw [moveIdx, List.getElem?_insertIdx_self, if_pos hj]

theorem moveIdx_self (h : l[i]? = some a) : moveIdx l i i a = l := by
  obtain ⟨hi, rfl⟩ := List.getElem?_eq_some_iff.mp h
  exact List.insertIdx_eraseIdx_getElem hi

/-- The others are in the order they were in. -/
theorem moveIdx_others {R : α → α → Prop} (hl : l.Pairwise R) {s t : Nat}
    (hs : (moveIdx l i j a)[s]? = some b) (ht : (moveIdx l i j a)[t]? = some c)
    (hsj : s ≠ j) (htj : t ≠ j) (hst : s < t) : R b c := by
  have hrest : ((moveIdx l i j a).eraseIdx j).Pairwise R := by
    rw [moveIdx, List.eraseIdx_insertIdx_self]
    exact hl.sublist (List.eraseIdx_sublist _ _)
  have hat : ∀ {u : Nat} {d : α}, (moveIdx l i j a)[u]? = some d → u ≠ j →
      ((moveIdx l i j a).eraseIdx j)[if u < j then u else u - 1]? = some d := by
    intro u d hu huj
    rw [List.getElem?_eraseIdx]
    grind
  obtain ⟨hs', hb⟩ := List.getElem?_eq_some_iff.mp (hat hs hsj)
  obtain ⟨ht', hc⟩ := List.getElem?_eq_some_iff.mp (hat ht htj)
  rw [← hb, ← hc]
  apply List.pairwise_iff_getElem.mp hrest
  grind

end Move

/-! ## 2. Entries whose number is not their position -/

section Misplaced

variable {α κ : Type} [DecidableEq κ] (key : α → κ) (number : α → Int)

/-- The entries of a list, the first of which is the `n`-th, that do not carry their position, each
    with the position it is at. -/
def misplaced (l : List α) (n : Nat) : List (κ × Nat) :=
  (l.zipIdx n).filterMap fun (a, t) => if number a = t then none else some (key a, t)

theorem lookup_misplaced_of_not_mem {l : List α} {k : κ} (hk : k ∉ l.map key) (n : Nat) :
    (misplaced key number l n).lookup k = none := by
  rw [List.lookup_eq_none_iff]
  intro p hp
  obtain ⟨⟨a, t⟩, ha, hpair⟩ := List.mem_filterMap.mp hp
  have hmem : key a ∈ l.map key := List.mem_map_of_mem (List.fst_mem_of_mem_zipIdx ha)
  simp only [Option.ite_none_left_eq_some, Option.some.injEq] at hpair
  obtain ⟨-, rfl⟩ := hpair
  have hne : k ≠ key a := fun h => hk (h ▸ hmem)
  simpa using hne

/-- The number an entry is left with is its position. -/
theorem lookup_misplaced {l : List α} (hnodup : (l.map key).Nodup) {i : Nat} {a : α}
    (h : l[i]? = some a) (n : Nat) :
    (((misplaced key number l n).lookup (key a)).map Int.ofNat).getD (number a) = (n + i : Nat) := by
  induction l generalizing i n with
  | nil => simp at h
  | cons b l ih =>
    rw [List.map_cons, List.nodup_cons] at hnodup
    obtain ⟨hb, hnodup⟩ := hnodup
    cases i with
    | zero =>
      obtain rfl : b = a := by simpa using h
      by_cases hn : number b = n
      · have hskip : misplaced key number (b :: l) n = misplaced key number l (n + 1) := by
          simp [misplaced, List.zipIdx_cons, hn]
        rw [hskip, lookup_misplaced_of_not_mem key number hb]
        exact hn
      · have hhead : misplaced key number (b :: l) n =
            (key b, n) :: misplaced key number l (n + 1) := by
          simp [misplaced, List.zipIdx_cons, hn]
        rw [hhead, List.lookup_cons_self]
        rfl
    | succ i =>
      have ha : l[i]? = some a := by simpa using h
      have hne : key a ≠ key b := fun hab => hb (hab ▸ List.mem_map_of_mem (List.mem_of_getElem? ha))
      have hrest : (misplaced key number (b :: l) n).lookup (key a) =
          (misplaced key number l (n + 1)).lookup (key a) := by
        by_cases hn : number b = n
        · simp [misplaced, List.zipIdx_cons, hn]
        · simp [misplaced, List.zipIdx_cons, hn, List.lookup_cons, beq_false_of_ne hne]
      rw [hrest, ih hnodup ha (n + 1)]
      congr 1
      omega

end Misplaced

/-! ## 3. Numbers that are the positions -/

/-- The numbers are `0, …, n - 1`, in some order. -/
def Numbered (numbers : List Int) : Prop :=
  numbers.Perm ((List.range numbers.length).map Int.ofNat)

instance (numbers : List Int) : Decidable (Numbered numbers) :=
  inferInstanceAs (Decidable (numbers.Perm _))

theorem numbered_congr {numbers numbers' : List Int} (h : numbers.Perm numbers') :
    Numbered numbers ↔ Numbered numbers' := by
  rw [Numbered, Numbered, h.length_eq]
  exact ⟨h.symm.trans, h.trans⟩

theorem map_eq_range_iff {α : Type} {f : α → Int} {l : List α} :
    l.map f = (List.range l.length).map Int.ofNat ↔
      ∀ (t : Nat) (a : α), l[t]? = some a → f a = t := by
  constructor
  · intro h t a ha
    obtain ⟨ht, rfl⟩ := List.getElem?_eq_some_iff.mp ha
    have hat := List.getElem_of_eq h (by rwa [List.length_map])
    rw [List.getElem_map, List.getElem_map, List.getElem_range] at hat
    exact hat
  · intro h
    refine List.ext_getElem (by simp) fun t ht _ => ?_
    rw [List.length_map] at ht
    rw [List.getElem_map, List.getElem_map, List.getElem_range]
    exact h t _ (List.getElem?_eq_getElem ht)

theorem numbered_of_map_eq_range {α : Type} {f : α → Int} {l : List α}
    (h : l.map f = (List.range l.length).map Int.ofNat) : Numbered (l.map f) := by
  rw [h, Numbered, List.length_map, List.length_range]

theorem pairwise_range_le (n : Nat) : ((List.range n).map Int.ofNat).Pairwise (· ≤ ·) := by
  rw [List.pairwise_map]
  exact List.pairwise_le_range.imp Int.ofNat_le.mpr

/-- Numbers that go up are the positions themselves. -/
theorem Numbered.eq_range {numbers : List Int} (h : Numbered numbers)
    (hup : numbers.Pairwise (· ≤ ·)) : numbers = (List.range numbers.length).map Int.ofNat :=
  h.eq_of_pairwise' hup (pairwise_range_le _)

theorem countP_range_lt (n k : Nat) : (List.range n).countP (· < k) = min n k := by
  induction n with
  | zero => simp
  | succ n ih =>
    rw [List.range_succ, List.countP_append, ih, List.countP_singleton]
    by_cases h : n < k <;> simp [h] <;> omega

/-- As many as there are below a whole number. -/
theorem Numbered.countP_lt_int {numbers : List Int} (h : Numbered numbers) (k : Int) :
    numbers.countP (· < k) = min numbers.length k.toNat := by
  rw [h.countP_eq, List.countP_map, ← countP_range_lt]
  refine List.countP_congr fun t _ => ?_
  simp only [Function.comp_apply, decide_eq_true_eq, Int.ofNat_eq_natCast]
  omega

section Rounded

variable {K : Type} [Ring K] [LinearOrder K] [FloorRing K]

theorem Numbered.countP_lt {numbers : List Int} (h : Numbered numbers) (q : K) :
    numbers.countP (fun t : Int => (t : K) < q) = min numbers.length ⌈q⌉.toNat := by
  rw [← h.countP_lt_int]
  refine List.countP_congr fun t _ => ?_
  rw [decide_eq_true_iff, decide_eq_true_iff, Int.lt_ceil]

theorem Numbered.countP_le {numbers : List Int} (h : Numbered numbers) (q : K) :
    numbers.countP (fun t : Int => (t : K) ≤ q) = min numbers.length (⌊q⌋ + 1).toNat := by
  rw [← h.countP_lt_int]
  refine List.countP_congr fun t _ => ?_
  rw [decide_eq_true_iff, decide_eq_true_iff, Int.lt_add_one_iff, Int.le_floor]

end Rounded

end ShieldApi
