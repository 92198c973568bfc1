import Mathlib.Data.List.Forall2
import Mathlib.Data.List.Nodup

/-!
# Lists beside their copies

`List.Forall₂ R` pairs two lists row by row: it is what "one copy of each" means where the copies
are made in the order of the originals. Here the copies are made by a function of the row and its
position, which may skip a row (`forall₂_filterMap_zipIdx`).

A map from old keys to new ones is a list of pairs; where no key comes twice, **a lookup finds
every pair**.
-/

set_option autoImplicit false

namespace ShieldApi

namespace Pairings

variable {α β : Type} {R : α → β → Prop}

/-- What is picked, beside the copies of what is picked. -/
theorem forall₂_filterMap_zipIdx {p : α → Bool} {g : α × Nat → Option β} {l : List α} {n : Nat}
    (h : ∀ q ∈ l.zipIdx n, (p q.1 = false ∧ g q = none) ∨
      (p q.1 = true ∧ ∃ b, g q = some b ∧ R q.1 b)) :
    List.Forall₂ R (l.filter p) ((l.zipIdx n).filterMap g) := by
  induction l generalizing n with
  | nil => exact .nil
  | cons a l ih =>
    rw [List.zipIdx_cons] at h ⊢
    have hrest := ih fun q hq => h q (List.mem_cons_of_mem _ hq)
    rcases h (a, n) (List.mem_cons_self ..) with ⟨hp, hg⟩ | ⟨hp, b, hg, hab⟩
    · rw [List.filter_cons_of_neg (by simp [hp]), List.filterMap_cons_none hg]
      exact hrest
    · rw [List.filter_cons_of_pos hp, List.filterMap_cons_some hg]
      exact .cons hab hrest

theorem forall₂_map_zipIdx {f : α × Nat → β} {l : List α} (h : ∀ q ∈ l.zipIdx, R q.1 (f q)) :
    List.Forall₂ R l (l.zipIdx.map f) := by
  have hall := forall₂_filterMap_zipIdx (p := fun _ => true) (g := fun q => some (f q))
    fun q hq => .inr ⟨rfl, f q, rfl, h q hq⟩
  rwa [List.filter_true, List.filterMap_eq_map'] at hall

theorem lookup_eq_some_iff [DecidableEq α] {map : List (α × β)} (h : (map.map Prod.fst).Nodup)
    {x : α} {y : β} : map.lookup x = some y ↔ (x, y) ∈ map := by
  induction map with
  | nil => simp
  | cons p map ih =>
    obtain ⟨k, v⟩ := p
    rw [List.map_cons, List.nodup_cons] at h
    rw [List.lookup_cons, List.mem_cons, Prod.mk.injEq]
    by_cases hx : x = k
    · have hnot : (x, y) ∉ map := by
        intro hmem
        have hkey : x ∈ map.map Prod.fst := List.mem_map_of_mem hmem
        exact h.1 (hx ▸ hkey)
      simp [hx, hx ▸ hnot, eq_comm]
    · have hne : (x == k) = false := beq_eq_false_iff_ne.mpr hx
      simp [hx, hne, ih h.2]

end Pairings

end ShieldApi
