import Mathlib.Data.List.Nodup

/-!
# Objects as entries

An object put together from entries, where **a later entry for a key takes the place of an earlier
one**: what `Object.fromEntries` makes of a list, and what `{ ...a, ...b }` makes of two objects,
which is their entries one after the other (`get?_append`).
-/

set_option autoImplicit false

namespace ShieldApi

namespace Entries

variable {K V : Type} [DecidableEq K]

def get? : List (K × V) → K → Option V
  | [], _ => none
  | (k', v) :: es, k => (get? es k).or (if k' = k then some v else none)

def keys (es : List (K × V)) : List K := es.map Prod.fst

@[simp] theorem get?_nil (k : K) : get? ([] : List (K × V)) k = none := rfl

theorem get?_cons (e : K × V) (es : List (K × V)) (k : K) :
    get? (e :: es) k = (get? es k).or (if e.1 = k then some e.2 else none) := rfl

theorem get?_append (es es' : List (K × V)) (k : K) :
    get? (es ++ es') k = (get? es' k).or (get? es k) := by
  induction es with
  | nil => simp
  | cons e es ih => rw [List.cons_append, get?_cons, ih, get?_cons, Option.or_assoc]

theorem mem_of_get? {es : List (K × V)} {k : K} {v : V} (h : get? es k = some v) :
    (k, v) ∈ es := by
  induction es with
  | nil => cases h
  | cons e es ih =>
    rw [get?_cons, Option.or_eq_some_iff] at h
    rcases h with h | ⟨-, h⟩
    · exact List.mem_cons_of_mem _ (ih h)
    · obtain ⟨hkey, hvalue⟩ := Option.ite_none_right_eq_some.mp h
      rw [← hkey, ← Option.some.inj hvalue]
      exact List.mem_cons_self ..

theorem isSome_get? {es : List (K × V)} {k : K} : (get? es k).isSome = true ↔ k ∈ keys es := by
  induction es with
  | nil => simp [keys]
  | cons e es ih =>
    rw [get?_cons, Option.isSome_or, Bool.or_eq_true, ih, keys, keys, List.map_cons,
      List.mem_cons, or_comm]
    by_cases hkey : e.1 = k
    · simp [hkey]
    · simp [hkey, Ne.symm hkey]

theorem get?_eq_none {es : List (K × V)} {k : K} : get? es k = none ↔ k ∉ keys es := by
  rw [← isSome_get?, Bool.not_eq_true, Option.isSome_eq_false_iff, Option.isNone_iff_eq_none]

/-- With one entry for each key, every entry is what the object says. -/
theorem get?_of_nodup {es : List (K × V)} (hkeys : (keys es).Nodup) {k : K} {v : V}
    (h : (k, v) ∈ es) : get? es k = some v := by
  induction es with
  | nil => exact absurd h List.not_mem_nil
  | cons e es ih =>
    obtain ⟨hfresh, hrest⟩ := List.nodup_cons.mp hkeys
    rw [get?_cons]
    rcases List.mem_cons.mp h with rfl | h
    · rw [get?_eq_none.mpr hfresh, Option.none_or, if_pos rfl]
    · rw [ih hrest h, Option.some_or]

/-- What a spread leaves alone. -/
theorem get?_append_of_not_mem {es es' : List (K × V)} {k : K} (h : k ∉ keys es') :
    get? (es ++ es') k = get? es k := by
  rw [get?_append, get?_eq_none.mpr h, Option.none_or]

end Entries

end ShieldApi
