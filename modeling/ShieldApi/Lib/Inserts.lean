import ShieldApi.Lib.Effect
import ShieldApi.Lib.Table

/-!
# Loops of insertions

A service that creates rows one by one, each by an effect of its own, creates all of them or
throws. **A loop of insertions goes through exactly when the table takes all the rows at once and every
row passes its check**, for any effect that inserts its row into one table of the state behind
a check that does not read that table.
-/

set_option autoImplicit false

namespace ShieldApi

open Effect

variable {σ ε α κ : Type} [DecidableEq κ] {key : α → κ}

/-- `f` inserts its row into the table that `get` reads and `set` replaces, behind `check`. -/
structure Inserts (get : σ → Table α κ key) (set : σ → Table α κ key → σ)
    (check : α → σ → Prop) (f : α → Effect σ ε α) : Prop where
  ok : ∀ a s r s', (f a).run s = (.ok r, s') ↔
    r = a ∧ check a s ∧ ∃ t, (get s).insert? a = some t ∧ s' = set s t
  get_set : ∀ s t, get (set s t) = t
  set_set : ∀ s t t', set (set s t) t' = set s t'
  set_get : ∀ s, set s (get s) = s
  check_set : ∀ a s t, check a (set s t) ↔ check a s

theorem Inserts.forEach_eq_ok {get : σ → Table α κ key} {set : σ → Table α κ key → σ}
    {check : α → σ → Prop} {f : α → Effect σ ε α} (h : Inserts get set check f) {as rs : List α}
    {s s' : σ} :
    (forEach as f).run s = (.ok rs, s') ↔
      rs = as ∧ (∀ a ∈ as, check a s) ∧ ∃ t, (get s).insertAll? as = some t ∧ s' = set s t := by
  induction as generalizing s s' rs with
  | nil =>
    simp only [forEach, run_pure, Prod.mk.injEq, Except.ok.injEq, List.not_mem_nil,
      Table.insertAll?, Option.some.injEq, exists_eq_left', h.set_get, false_imp_iff,
      implies_true, true_and]
    exact and_congr eq_comm eq_comm
  | cons a as ih =>
    simp only [forEach, bind_eq_ok, run_pure, Prod.mk.injEq, Except.ok.injEq, h.ok, ih,
      List.forall_mem_cons, Table.insertAll?, Option.bind_eq_some_iff]
    constructor
    · rintro ⟨_, _, ⟨rfl, ha, t₁, ht₁, rfl⟩, _, _, ⟨rfl, has, t, ht, rfl⟩, rfl, rfl⟩
      rw [h.get_set] at ht
      refine ⟨rfl, ⟨ha, fun b hb => (h.check_set ..).mp (has b hb)⟩, t, ⟨t₁, ht₁, ht⟩, ?_⟩
      rw [h.set_set]
    · rintro ⟨rfl, ⟨ha, has⟩, t, ⟨t₁, ht₁, ht⟩, rfl⟩
      refine ⟨a, _, ⟨rfl, ha, t₁, ht₁, rfl⟩, as, set s t, ⟨rfl, fun b hb => ?_, t, ?_, ?_⟩, rfl, rfl⟩
      · exact (h.check_set ..).mpr (has b hb)
      · rw [h.get_set]
        exact ht
      · rw [h.set_set]

end ShieldApi
