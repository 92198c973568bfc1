import Mathlib.Data.List.Dedup
import ShieldApi.Lib.Table

/-!
# Outer joins and groups

What `LEFT JOIN` puts beside a row: each row of the other table that matches, or one `NULL` where
none does. And what `GROUP BY … HAVING` leaves of rows: each key they have, once, whose rows satisfy
a condition.

A joined row that a filter drops when it is `NULL` counts as if the join had been an inner one
(`countP_leftJoin`), and a join on a unique key does not multiply rows (`leftJoin_table`). **So the
rows of a group that a filter on one joined table leaves are as many as the rows of that table that
pass it.**
-/

set_option autoImplicit false

namespace ShieldApi

variable {α β κ : Type}

/-! ## 1. Joins -/

/-- `LEFT JOIN rows ON on`, for one row of the left side. -/
def leftJoin (on : β → Bool) (rows : List β) : List (Option β) :=
  match rows.filter on with
  | [] => [none]
  | matching => matching.map some

/-- A filter that no `NULL` passes does not see that the join was an outer one. -/
theorem countP_leftJoin {p : Option β → Bool} (hnone : p none = false) (on : β → Bool)
    (rows : List β) : (leftJoin on rows).countP p = (rows.filter on).countP fun b => p (some b) := by
  unfold leftJoin
  cases rows.filter on with
  | nil => simp [hnone]
  | cons b matching => rw [List.countP_map]; rfl

theorem filter_key_eq [DecidableEq κ] {key : β → κ} (t : Table β κ key) (k : κ) :
    t.rows.filter (fun b => key b = k) = (t.find? k).toList := by
  obtain ⟨rows, hunique⟩ := t
  unfold Table.find?
  dsimp only
  induction rows with
  | nil => rfl
  | cons b rows ih =>
    rw [List.map_cons, List.nodup_cons] at hunique
    rw [List.filter_cons, List.find?_cons]
    by_cases hb : key b = k
    · have hnone : rows.filter (fun b => key b = k) = [] := by
        rw [List.filter_eq_nil_iff]
        intro c hc hck
        exact hunique.1 (hb.trans (of_decide_eq_true hck).symm ▸ List.mem_map_of_mem hc)
      simp [hb, hnone]
    · simp [hb, ih hunique.2]

/-- **A join on a unique key adds one row, or one `NULL`.** -/
theorem leftJoin_table [DecidableEq κ] {key : β → κ} (t : Table β κ key) {on : β → Bool}
    {k : Option κ} (hon : ∀ b, on b = true ↔ k = some (key b)) :
    leftJoin on t.rows = [k.bind t.find?] := by
  unfold leftJoin
  cases k with
  | none =>
    have hnone : t.rows.filter on = [] :=
      List.filter_eq_nil_iff.mpr fun b _ hb => (nomatch (hon b).mp hb)
    rw [hnone]
    rfl
  | some k =>
    have hkey : t.rows.filter on = t.rows.filter fun b => key b = k := by
      apply List.filter_congr
      intro b _
      rw [Bool.eq_iff_iff, hon, Option.some.injEq, decide_eq_true_eq, eq_comm]
    rw [hkey, filter_key_eq, Option.bind_some]
    cases t.find? k <;> rfl

/-! ## 2. Groups -/

/-- `SELECT DISTINCT key … GROUP BY key HAVING having`. -/
def groupsHaving [DecidableEq κ] (key : α → κ) (having : κ → List α → Bool) (rows : List α) :
    List κ :=
  (rows.map key).dedup.filter fun k => having k (rows.filter fun a => key a = k)

section Groups

variable [DecidableEq κ] {key : α → κ} {having : κ → List α → Bool} {rows : List α}

theorem nodup_groupsHaving : (groupsHaving key having rows).Nodup :=
  (List.nodup_dedup _).filter _

theorem mem_groupsHaving {k : κ} : k ∈ groupsHaving key having rows ↔
    rows.filter (fun a => key a = k) ≠ [] ∧ having k (rows.filter fun a => key a = k) = true := by
  unfold groupsHaving
  rw [List.mem_filter, List.mem_dedup, List.mem_map, ← List.isEmpty_eq_false_iff,
    List.isEmpty_eq_false_iff_exists_mem]
  simp only [List.mem_filter, decide_eq_true_eq]

end Groups

/-- The rows that were made of the rows of a table stay apart by its key. -/
theorem filter_flatMap_key [DecidableEq κ] {key : β → κ} (t : Table β κ key) {f : β → List α}
    {key' : α → κ} (hf : ∀ b, ∀ a ∈ f b, key' a = key b) (k : κ) :
    (t.rows.flatMap f).filter (fun a => key' a = k) = (t.find? k).toList.flatMap f := by
  rw [List.filter_flatMap, ← filter_key_eq]
  induction t.rows with
  | nil => rfl
  | cons b rows ih =>
    rw [List.flatMap_cons, ih, List.filter_cons]
    by_cases hb : key b = k
    · have hall : (f b).filter (fun a => key' a = k) = f b :=
        List.filter_eq_self.mpr fun a ha => decide_eq_true ((hf b a ha).trans hb)
      rw [hall, if_pos (decide_eq_true hb), List.flatMap_cons]
    · have hnone : (f b).filter (fun a => key' a = k) = [] := by
        rw [List.filter_eq_nil_iff]
        intro a ha hak
        exact hb ((hf b a ha).symm.trans (of_decide_eq_true hak))
      rw [hnone, if_neg (by simpa using hb), List.nil_append]

end ShieldApi
