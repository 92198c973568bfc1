import Mathlib.Data.Fintype.Defs
import Mathlib.Data.List.Nodup
import Mathlib.Data.List.Perm.Basic
import Mathlib.Logic.Function.Basic

/-!
# Shuffling in place

The shuffle of Fisher and Yates: from the last place down to the second, a place is exchanged
with one that is drawn among it and those before it.

That the result is an arrangement of what was there is the small part (`shuffle_perm`). What
the shuffle is for is `existsUnique_shuffle`: **each arrangement of distinct elements comes
from exactly one sequence of draws**, so draws that are equally likely make equally likely
arrangements. For elements that are not distinct it is the places that are arranged
(`shuffle_map`).
-/

set_option autoImplicit false

namespace ShieldApi

variable {α β : Type}

/-- The list with two places exchanged. -/
def swapAt (l : List α) (i j : Nat) : List α :=
  ((l[i]?.bind fun a => l[j]?.map fun b => (l.set i b).set j a)).getD l

/-- Places `i` down to `1`, each exchanged with the one drawn for it. -/
def shuffleFrom (draw : Nat → Nat) : Nat → List α → List α
  | 0, l => l
  | i + 1, l => shuffleFrom draw i (swapAt l (i + 1) (draw (i + 1)))

def shuffle (draw : Nat → Nat) (l : List α) : List α := shuffleFrom draw (l.length - 1) l

/-! ## 1. One exchange -/

theorem swapAt_eq {l : List α} {i j : Nat} (hi : i < l.length) (hj : j < l.length) :
    swapAt l i j = (l.set i l[j]).set j l[i] := by
  simp [swapAt, hi, hj]

theorem swapAt_of_le {l : List α} {i j : Nat} (h : l.length ≤ i ∨ l.length ≤ j) :
    swapAt l i j = l := by
  rcases h with h | h
  · simp [swapAt, List.getElem?_eq_none h]
  · simp [swapAt, List.getElem?_eq_none h]

theorem length_swapAt (l : List α) (i j : Nat) : (swapAt l i j).length = l.length := by
  by_cases hi : i < l.length
  · by_cases hj : j < l.length
    · rw [swapAt_eq hi hj, List.length_set, List.length_set]
    · rw [swapAt_of_le (.inr (Nat.le_of_not_lt hj))]
  · rw [swapAt_of_le (.inl (Nat.le_of_not_lt hi))]

theorem getElem?_swapAt_left {l : List α} {i j : Nat} (hi : i < l.length) (hj : j < l.length) :
    (swapAt l i j)[i]? = l[j]? := by
  rw [swapAt_eq hi hj, List.getElem?_eq_getElem hj]
  by_cases h : j = i
  · subst h
    simp [hj]
  · rw [List.getElem?_set_ne h, List.getElem?_set_self hi]

theorem getElem?_swapAt_of_ne {l : List α} {i j k : Nat} (hi : k ≠ i) (hj : k ≠ j) :
    (swapAt l i j)[k]? = l[k]? := by
  by_cases hi' : i < l.length
  · by_cases hj' : j < l.length
    · rw [swapAt_eq hi' hj', List.getElem?_set_ne (Ne.symm hj), List.getElem?_set_ne (Ne.symm hi)]
    · rw [swapAt_of_le (.inr (Nat.le_of_not_lt hj'))]
  · rw [swapAt_of_le (.inl (Nat.le_of_not_lt hi'))]

theorem swapAt_map (f : α → β) (l : List α) (i j : Nat) :
    swapAt (l.map f) i j = (swapAt l i j).map f := by
  by_cases hi : i < l.length
  · by_cases hj : j < l.length
    · rw [swapAt_eq hi hj, swapAt_eq (by simpa using hi) (by simpa using hj)]
      simp [List.map_set]
    · rw [swapAt_of_le (.inr (Nat.le_of_not_lt hj)), swapAt_of_le (.inr (by simpa using hj))]
  · rw [swapAt_of_le (.inl (Nat.le_of_not_lt hi)), swapAt_of_le (.inl (by simpa using hi))]

theorem swapAt_perm (l : List α) (i j : Nat) : (swapAt l i j).Perm l := by
  by_cases hi : i < l.length
  · by_cases hj : j < l.length
    · rw [swapAt_eq hi hj]
      exact List.set_set_perm hi hj
    · rw [swapAt_of_le (.inr (Nat.le_of_not_lt hj))]
  · rw [swapAt_of_le (.inl (Nat.le_of_not_lt hi))]

/-! ## 2. The shuffle -/

theorem shuffleFrom_perm (draw : Nat → Nat) :
    ∀ (i : Nat) (l : List α), (shuffleFrom draw i l).Perm l
  | 0, l => .refl l
  | i + 1, l => (shuffleFrom_perm draw i _).trans (swapAt_perm l _ _)

theorem shuffle_perm (draw : Nat → Nat) (l : List α) : (shuffle draw l).Perm l :=
  shuffleFrom_perm draw _ l

theorem shuffleFrom_map (draw : Nat → Nat) (f : α → β) :
    ∀ (i : Nat) (l : List α), shuffleFrom draw i (l.map f) = (shuffleFrom draw i l).map f
  | 0, _ => rfl
  | i + 1, l => by rw [shuffleFrom, shuffleFrom, swapAt_map, shuffleFrom_map draw f i]

/-- Places are shuffled, whatever stands in them. -/
theorem shuffle_map (draw : Nat → Nat) (f : α → β) (l : List α) :
    shuffle draw (l.map f) = (shuffle draw l).map f := by
  rw [shuffle, List.length_map, shuffleFrom_map]
  rfl

/-- Only the draws for the places that are exchanged count. -/
theorem shuffleFrom_congr {draw draw' : Nat → Nat} :
    ∀ {i : Nat} {l : List α}, (∀ k, 0 < k → k ≤ i → draw k = draw' k) →
      shuffleFrom draw i l = shuffleFrom draw' i l
  | 0, _, _ => rfl
  | i + 1, l, h => by
    rw [shuffleFrom, shuffleFrom, h (i + 1) (Nat.succ_pos i) (Nat.le_refl _)]
    exact shuffleFrom_congr fun k hk hki => h k hk (Nat.le_succ_of_le hki)

/-- Later places stay as they are. -/
theorem getElem?_shuffleFrom {draw : Nat → Nat} (hdraw : ∀ k, draw k ≤ k) :
    ∀ {i k : Nat} {l : List α}, i < k → (shuffleFrom draw i l)[k]? = l[k]?
  | 0, _, _, _ => rfl
  | i + 1, k, l, h => by
    have hlt := hdraw (i + 1)
    rw [shuffleFrom, getElem?_shuffleFrom hdraw (by omega),
      getElem?_swapAt_of_ne (by omega) (by omega)]

/-! ## 3. Every arrangement, once -/

/-- Two sequences of draws that arrange distinct elements alike are the same. -/
theorem draws_eq {draw draw' : Nat → Nat} (hdraw : ∀ k, draw k ≤ k) (hdraw' : ∀ k, draw' k ≤ k) :
    ∀ {i : Nat} {l : List α}, l.Nodup → i < l.length →
      shuffleFrom draw i l = shuffleFrom draw' i l → ∀ k, 0 < k → k ≤ i → draw k = draw' k
  | 0, _, _, _, _, k, hk, hki => absurd hk (by omega)
  | i + 1, l, hnodup, hlen, h, k, hk, hki => by
    have hd := hdraw (i + 1)
    have hd' := hdraw' (i + 1)
    -- The place of this round is not touched again: what stands there tells the draw.
    have hlast : l[draw (i + 1)]? = l[draw' (i + 1)]? := by
      have hplace := congrArg (fun m : List α => m[i + 1]?) h
      simp only [shuffleFrom] at hplace
      rwa [getElem?_shuffleFrom hdraw (Nat.lt_succ_self i),
        getElem?_shuffleFrom hdraw' (Nat.lt_succ_self i),
        getElem?_swapAt_left hlen (by omega), getElem?_swapAt_left hlen (by omega)] at hplace
    have heq : draw (i + 1) = draw' (i + 1) :=
      (List.getElem?_inj (by omega) hnodup).mp hlast
    rcases Nat.lt_or_eq_of_le hki with hlt | rfl
    · rw [shuffleFrom, shuffleFrom, heq] at h
      have hperm := swapAt_perm l (i + 1) (draw' (i + 1))
      exact draws_eq hdraw hdraw' (hperm.nodup_iff.mpr hnodup)
        (by rw [length_swapAt]; omega) h k hk (by omega)
    · exact heq

/-- Lists that agree after place `i`, one an arrangement of the other, are so up to place `i`. -/
theorem perm_take {l l' : List α} (hperm : l'.Perm l) {i : Nat}
    (hagree : ∀ k, i ≤ k → l'[k]? = l[k]?) : (l'.take i).Perm (l.take i) := by
  have hdrop : l'.drop i = l.drop i := by
    apply List.ext_getElem?
    intro k
    rw [List.getElem?_drop, List.getElem?_drop]
    exact hagree (i + k) (Nat.le_add_right i k)
  have h : (l'.take i ++ l.drop i).Perm (l.take i ++ l.drop i) := by
    rw [List.take_append_drop, ← hdrop, List.take_append_drop]
    exact hperm
  exact (List.perm_append_right_iff _).mp h

/-- Every arrangement of the first places is drawn. -/
theorem exists_draws : ∀ {i : Nat} {l l' : List α}, i < l.length → l'.Perm l →
    (∀ k, i < k → l'[k]? = l[k]?) →
      ∃ draw : Nat → Nat, (∀ k, draw k ≤ k) ∧ shuffleFrom draw i l = l'
  | 0, l, l', hlen, hperm, hagree => by
    refine ⟨fun _ => 0, fun k => Nat.zero_le k, ?_⟩
    have hone := perm_take hperm (i := 1) fun k hk => hagree k hk
    obtain ⟨a, t, rfl⟩ := List.exists_cons_of_length_pos hlen
    have hlen' : 0 < l'.length := hperm.length_eq ▸ hlen
    obtain ⟨b, t', rfl⟩ := List.exists_cons_of_length_pos hlen'
    simp only [List.take_succ_cons, List.take_zero, List.singleton_perm_singleton] at hone
    subst hone
    have htail : t' = t := List.ext_getElem? fun k => hagree (k + 1) (Nat.succ_pos k)
    rw [shuffleFrom, htail]
  | i + 1, l, l', hlen, hperm, hagree => by
    have hlen' : i + 1 < l'.length := hperm.length_eq ▸ hlen
    have htake := perm_take hperm (i := i + 2) fun k hk => hagree k hk
    have hmem : l'[i + 1] ∈ l.take (i + 2) := by
      apply htake.mem_iff.mp
      rw [List.mem_take_iff_getElem]
      exact ⟨i + 1, by omega, rfl⟩
    obtain ⟨d, hd, hget⟩ := List.mem_take_iff_getElem.mp hmem
    have hdle : d ≤ i + 1 := by omega
    have hdlen : d < l.length := by omega
    have hagree' : ∀ k, i < k → l'[k]? = (swapAt l (i + 1) d)[k]? := by
      intro k hk
      rcases Nat.eq_or_lt_of_le hk with rfl | hlt
      · rw [getElem?_swapAt_left hlen hdlen, List.getElem?_eq_getElem hlen',
          List.getElem?_eq_getElem hdlen, hget]
      · rw [getElem?_swapAt_of_ne (by omega) (by omega)]
        exact hagree k hlt
    obtain ⟨draw, hdraw, heq⟩ := exists_draws (i := i) (by rw [length_swapAt]; omega)
      (hperm.trans (swapAt_perm l (i + 1) d).symm) hagree'
    refine ⟨Function.update draw (i + 1) d, fun k => ?_, ?_⟩
    · by_cases hk : k = i + 1
      · subst hk
        simpa using hdle
      · rw [Function.update_of_ne hk]
        exact hdraw k
    · rw [shuffleFrom, Function.update_self, ← heq]
      apply shuffleFrom_congr
      intro k _ hk
      exact Function.update_of_ne (by omega) _ _

/-- What is drawn for the places of a list of length `n`: for each, itself or one before it. -/
abbrev Draws (n : Nat) : Type := (i : Fin n) → Fin (i.val + 1)

def Draws.at {n : Nat} (d : Draws n) (k : Nat) : Nat := if h : k < n then (d ⟨k, h⟩).val else 0

theorem Draws.at_le {n : Nat} (d : Draws n) (k : Nat) : d.at k ≤ k := by
  unfold Draws.at
  split_ifs with h
  · exact Nat.le_of_lt_succ (d ⟨k, h⟩).isLt
  · exact Nat.zero_le k

/-- **Each arrangement of distinct elements comes from one sequence of draws.** -/
theorem existsUnique_shuffle {l l' : List α} (hnodup : l.Nodup) (hperm : l'.Perm l) :
    ∃! d : Draws l.length, shuffle d.at l = l' := by
  rcases Nat.eq_zero_or_pos l.length with hzero | hpos
  · obtain rfl := List.length_eq_zero_iff.mp hzero
    obtain rfl := List.Perm.eq_nil hperm
    exact ⟨fun i => 0, rfl, fun d _ => funext fun i => i.elim0⟩
  · obtain ⟨draw, hdraw, heq⟩ := exists_draws (i := l.length - 1) (by omega) hperm fun k hk => by
      have hlen := hperm.length_eq
      rw [List.getElem?_eq_none (by omega), List.getElem?_eq_none (by omega)]
    have hat : ∀ k, k < l.length →
        Draws.at (fun i : Fin l.length => ⟨draw i, Nat.lt_succ_of_le (hdraw i)⟩) k = draw k :=
      fun k hk => by simp [Draws.at, hk]
    refine ⟨fun i => ⟨draw i, Nat.lt_succ_of_le (hdraw i)⟩, ?_, ?_⟩
    · rw [← heq]
      exact shuffleFrom_congr fun k _ hk => hat k (by omega)
    · intro d hd
      funext i
      apply Fin.ext
      rcases Nat.eq_zero_or_pos i.val with hi | hi
      · have h := (d i).isLt
        have h' := hdraw i
        simp only [hi] at h h' ⊢
        omega
      · have h := draws_eq d.at_le hdraw hnodup (by omega) (hd.trans heq.symm) i hi (by omega)
        simpa [Draws.at] using h

end ShieldApi
