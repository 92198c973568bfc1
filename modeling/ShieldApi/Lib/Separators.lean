import Mathlib.Data.List.Infix

/-!
# Texts joined by a separator

`x ++ sep ++ y` tells `x` and `y` apart as long as neither holds the separator. For a
separator whose first symbol does not come again in it, this is the whole truth: two such
texts are the same exactly when the parts are the same, or one of them holds the separator
and was cut there (`append_sep_append_eq_iff`).
-/

set_option autoImplicit false

namespace ShieldApi

variable {α : Type}

/-- A word whose first symbol does not come again in it. -/
structure Separator (α : Type) where
  head : α
  tail : List α
  fresh : head ∉ tail

namespace Separator

def word (sep : Separator α) : List α := sep.head :: sep.tail

/-- `x` holds the separator. -/
def In (sep : Separator α) (x : List α) : Prop := sep.word <:+: x

theorem in_append (sep : Separator α) (x y : List α) : sep.In (x ++ (sep.word ++ y)) :=
  ⟨x, y, List.append_assoc ..⟩

/-- Holding it is being cut by it. -/
theorem In.cut {sep : Separator α} {x : List α} (h : sep.In x) :
    ∃ p q, x = p ++ (sep.word ++ q) := by
  obtain ⟨p, q, h⟩ := h
  exact ⟨p, q, by rw [← h, List.append_assoc]⟩

theorem ne_append_sep (sep : Separator α) (x y : List α) : x ≠ x ++ (sep.word ++ y) := by
  intro h
  have hlen := congrArg List.length h
  simp [word] at hlen

/-- An occurrence that starts after `x`'s start begins at the separator after `x`, or later. -/
theorem cut_of_append {sep : Separator α} {a y y' : List α}
    (h : sep.word ++ y = a ++ (sep.word ++ y')) :
    (a = [] ∧ y = y') ∨ ∃ z, a = sep.word ++ z ∧ y = z ++ (sep.word ++ y') := by
  cases a with
  | nil => exact .inl ⟨rfl, List.append_cancel_left h⟩
  | cons c a =>
    refine .inr ?_
    obtain ⟨hc, htail⟩ : sep.head = c ∧ sep.tail ++ y = a ++ (sep.word ++ y') := by
      simpa [word] using h
    rcases List.append_eq_append_iff.mp htail with ⟨z, hz, hy⟩ | ⟨w, hw, hy⟩
    · exact ⟨z, by rw [hz, ← hc]; rfl, hy⟩
    · -- the separator would start inside the separator
      cases w with
      | nil =>
        refine ⟨[], ?_, hy.symm⟩
        rw [← hc, word, List.append_nil, hw, List.append_nil]
      | cons d w =>
        have hd : sep.head = d := by
          have := congrArg List.head? hy
          simpa [word] using this
        exact absurd (hw ▸ hd ▸ List.mem_append_right a (List.mem_cons_self ..)) sep.fresh

/-- **Two joined texts are the same** when their parts are, or when one was cut at a separator
    that a part of the other holds. -/
theorem append_sep_append_eq_iff {sep : Separator α} {x x' y y' : List α} :
    x ++ (sep.word ++ y) = x' ++ (sep.word ++ y') ↔
      (x = x' ∧ y = y') ∨ (∃ z, x' = x ++ (sep.word ++ z) ∧ y = z ++ (sep.word ++ y')) ∨
        ∃ z, x = x' ++ (sep.word ++ z) ∧ y' = z ++ (sep.word ++ y) := by
  constructor
  · intro h
    rcases List.append_eq_append_iff.mp h with ⟨a, ha, hy⟩ | ⟨a, ha, hy⟩
    · rcases cut_of_append hy with ⟨hnil, hyy⟩ | ⟨z, hz, hyz⟩
      · exact .inl ⟨by rw [ha, hnil, List.append_nil], hyy⟩
      · exact .inr (.inl ⟨z, by rw [ha, hz], hyz⟩)
    · rcases cut_of_append hy with ⟨hnil, hyy⟩ | ⟨z, hz, hyz⟩
      · exact .inl ⟨by rw [ha, hnil, List.append_nil], hyy.symm⟩
      · exact .inr (.inr ⟨z, by rw [ha, hz], hyz⟩)
  · intro h
    rcases h with ⟨hx, hy⟩ | ⟨z, hx, hy⟩ | ⟨z, hx, hy⟩
    · rw [hx, hy]
    · rw [hx, hy]
      simp only [List.append_assoc]
    · rw [hx, hy]
      simp only [List.append_assoc]

/-- A text whose parts do not hold the separator is cut in one way. -/
theorem append_inj {sep : Separator α} {x x' y y' : List α} (hx : ¬ sep.In x) (hy : ¬ sep.In y)
    (h : x ++ (sep.word ++ y) = x' ++ (sep.word ++ y')) : x = x' ∧ y = y' := by
  rcases append_sep_append_eq_iff.mp h with h | ⟨z, -, hz⟩ | ⟨z, hz, -⟩
  · exact h
  · exact absurd (hz ▸ in_append sep z y') hy
  · exact absurd (hz ▸ in_append sep x' z) hx

end Separator

end ShieldApi
