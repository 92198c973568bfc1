import Mathlib.Data.List.Nodup
import Mathlib.Order.Lattice

/-!
# The first whose day it is

Each of a list of alternatives has a day, or has none. Day by day the first in the list whose day
it is gets chosen, and no other.

Nothing chosen is chosen on two days (`firstOn_once`). Where the list ascends by a threshold, and
the day of a smaller threshold is never the earlier one, **later days choose smaller thresholds**
(`Ascending.decreasing`), and an alternative is passed over on its own day only for one with a
smaller threshold (`Ascending.chosen_or_smaller`). The first in the list is never passed over
(`firstOn_cons_self`).
-/

set_option autoImplicit false

namespace ShieldApi

variable {γ κ δ : Type}

section Choice

variable [DecidableEq δ]

/-- What is chosen on a day. -/
def firstOn (day : γ → Option δ) (xs : List γ) (d : δ) : Option γ :=
  xs.find? fun x => day x = some d

variable {day : γ → Option δ} {xs : List γ}

theorem mem_of_firstOn {d : δ} {x : γ} (h : firstOn day xs d = some x) : x ∈ xs :=
  List.mem_of_find?_eq_some h

theorem day_of_firstOn {d : δ} {x : γ} (h : firstOn day xs d = some x) : day x = some d := by
  unfold firstOn at h
  have hday := List.find?_some h
  exact of_decide_eq_true hday

theorem firstOn_once {d d' : δ} {x : γ} (h : firstOn day xs d = some x)
    (h' : firstOn day xs d' = some x) : d = d' :=
  Option.some_inj.1 ((day_of_firstOn h).symm.trans (day_of_firstOn h'))

theorem firstOn_cons_self {d : δ} {x : γ} (h : day x = some d) :
    firstOn day (x :: xs) d = some x :=
  List.find?_cons_of_pos (decide_eq_true h)

end Choice

/-- The list ascends by the threshold, and smaller thresholds are met later. -/
structure Ascending [LinearOrder κ] [LinearOrder δ] (threshold : γ → κ) (day : γ → Option δ)
    (xs : List γ) : Prop where
  pairwise : xs.Pairwise (threshold · < threshold ·)
  later : ∀ x ∈ xs, ∀ y ∈ xs, threshold x < threshold y →
    ∀ d e, day x = some d → day y = some e → e ≤ d

namespace Ascending

variable [LinearOrder κ] [LinearOrder δ] {threshold : γ → κ} {day : γ → Option δ} {xs : List γ}

theorem eq_of_threshold_eq (h : Ascending threshold day xs) {x y : γ} (hx : x ∈ xs)
    (hy : y ∈ xs) (heq : threshold x = threshold y) : x = y := by
  have hnodup : (xs.map threshold).Nodup := List.pairwise_map.2 (h.pairwise.imp fun hab => hab.ne)
  exact List.inj_on_of_nodup_map hnodup hx hy heq

/-- **Later days choose smaller thresholds.** -/
theorem decreasing (h : Ascending threshold day xs) {d e : δ} {x y : γ} (hlt : d < e)
    (hx : firstOn day xs d = some x) (hy : firstOn day xs e = some y) :
    threshold y < threshold x := by
  have hxs := mem_of_firstOn hx
  have hys := mem_of_firstOn hy
  rcases lt_trichotomy (threshold y) (threshold x) with hyx | heq | hxy
  · exact hyx
  · have hsame := h.eq_of_threshold_eq hys hxs heq
    rw [hsame] at hy
    exact absurd (firstOn_once hx hy) hlt.ne
  · have hle := h.later x hxs y hys hxy d e (day_of_firstOn hx) (day_of_firstOn hy)
    exact absurd hlt (not_lt.2 hle)

/-- On its own day an alternative is passed over only for a smaller threshold. -/
theorem chosen_or_smaller (h : Ascending threshold day xs) {d : δ} {x : γ} (hx : x ∈ xs)
    (hday : day x = some d) :
    ∃ y, firstOn day xs d = some y ∧ (y = x ∨ threshold y < threshold x) := by
  have hpairwise := h.pairwise
  clear h
  induction xs with
  | nil => exact absurd hx List.not_mem_nil
  | cons a xs ih =>
    obtain ⟨hhead, htail⟩ := List.pairwise_cons.1 hpairwise
    by_cases ha : day a = some d
    · refine ⟨a, firstOn_cons_self ha, ?_⟩
      rcases List.mem_cons.1 hx with rfl | hx
      · exact .inl rfl
      · exact .inr (hhead x hx)
    · rcases List.mem_cons.1 hx with rfl | hx
      · exact absurd hday ha
      · obtain ⟨y, hy, hor⟩ := ih hx htail
        refine ⟨y, ?_, hor⟩
        unfold firstOn
        rw [List.find?_cons_of_neg (by simpa using ha)]
        exact hy

end Ascending

end ShieldApi
