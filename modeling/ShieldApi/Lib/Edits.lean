import ShieldApi.Lib.Table

/-!
# Selections an edit does not reach

Two questions about a query and a table that changes under it. **Which rows does a query
read?** A sorted query that is then narrowed reads the narrowed rows only, if the database
hands out rows in an order of its own (`RowOrder.Steady`) and the sort is stable: the two
orders of doing it agree (`findManyBy_filter`). **Which rows does a change touch?** A table
that was edited in place (`Table.Edited`) answers every selection as before that no lost
and no new row is in (`Edited.filter_eq`).

Together they say when a query answers as before: no row that came or went is one it reads.
-/

set_option autoImplicit false

namespace ShieldApi

/-! ## 1. Narrowing a sorted query -/

section Narrow

variable {α : Type} {r : α → α → Prop} [DecidableRel r] {q : α → Bool}

theorem filter_orderedInsert_neg {a : α} (ha : q a = false) (l : List α) :
    (l.orderedInsert r a).filter q = l.filter q := by
  induction l with
  | nil => simp [ha]
  | cons b l ih =>
    rw [List.orderedInsert_cons]
    by_cases hab : r a b
    · rw [if_pos hab, List.filter_cons_of_neg (by simp [ha])]
    · rw [if_neg hab, List.filter_cons, List.filter_cons, ih]

theorem filter_orderedInsert_pos [IsTrans α r] {a : α} (ha : q a = true) {l : List α}
    (hl : l.Pairwise r) :
    (l.orderedInsert r a).filter q = (l.filter q).orderedInsert r a := by
  induction l with
  | nil => simp [ha]
  | cons b l ih =>
    obtain ⟨hb, hl⟩ := List.pairwise_cons.mp hl
    rw [List.orderedInsert_cons]
    by_cases hab : r a b
    · -- `a` comes before `b`, hence before whatever is left of the list
      rw [if_pos hab, List.filter_cons_of_pos ha]
      cases hf : (b :: l).filter q with
      | nil => rfl
      | cons c m =>
        have hc : c ∈ b :: l := List.mem_of_mem_filter (hf ▸ List.mem_cons_self ..)
        have hac : r a c := by
          rcases List.mem_cons.mp hc with rfl | hc
          · exact hab
          · exact Trans.trans hab (hb c hc)
        rw [List.orderedInsert_cons, if_pos hac]
    · rw [if_neg hab]
      by_cases hqb : q b = true
      · rw [List.filter_cons_of_pos hqb, List.filter_cons_of_pos hqb, List.orderedInsert_cons,
          if_neg hab, ih hl]
      · rw [List.filter_cons_of_neg hqb, List.filter_cons_of_neg hqb, ih hl]

/-- A stable sort keeps the rows it ties in their order, so it may be done before or after a
    selection. -/
theorem filter_insertionSort [IsTrans α r] [Std.Total r] (q : α → Bool) (l : List α) :
    (l.insertionSort r).filter q = (l.filter q).insertionSort r := by
  induction l with
  | nil => rfl
  | cons a l ih =>
    have hsorted : (l.insertionSort r).Pairwise r := List.pairwise_insertionSort r l
    rw [List.insertionSort_cons]
    by_cases ha : q a = true
    · rw [filter_orderedInsert_pos ha hsorted, ih, List.filter_cons_of_pos ha,
        List.insertionSort_cons]
    · have ha : q a = false := by simpa using ha
      rw [filter_orderedInsert_neg ha, ih, List.filter_cons_of_neg (by simp [ha])]

end Narrow

namespace RowOrder

variable {α : Type}

/-- The rows have one order, and a query sees those it selects in it. -/
def Steady (o : RowOrder α) : Prop :=
  ∀ (q : α → Bool) (rows : List α), (o.scan rows).filter q = o.scan (rows.filter q)

theorem steady_insertion : (insertion α).Steady := fun _ _ => rfl

theorem findManyBy_filter {o : RowOrder α} (ho : o.Steady) {le : α → α → Bool}
    (htrans : ∀ a b c, le a b = true → le b c = true → le a c = true)
    (htotal : ∀ a b, le a b = true ∨ le b a = true) (p q : α → Bool) (rows : List α) :
    (o.findManyBy le p rows).filter q = o.findManyBy le (fun a => p a && q a) rows := by
  have : IsTrans α (fun a b => le a b = true) := ⟨htrans⟩
  have : Std.Total (fun a b => le a b = true) := ⟨htotal⟩
  rw [findManyBy, filter_insertionSort, findMany, ho, List.filter_filter, findManyBy, findMany]
  simp only [Bool.and_comm]

/-- A query that selects what another one does answers what it does. -/
theorem findMany_congr {o : RowOrder α} {p p' : α → Bool} {rows rows' : List α}
    (h : rows'.filter p' = rows.filter p) : o.findMany p' rows' = o.findMany p rows := by
  rw [findMany, h, findMany]

theorem findManyBy_congr {o : RowOrder α} {le : α → α → Bool} {p p' : α → Bool}
    {rows rows' : List α} (h : rows'.filter p' = rows.filter p) :
    o.findManyBy le p' rows' = o.findManyBy le p rows := by
  rw [findManyBy, findMany_congr h, findManyBy]

end RowOrder

/-! ## 2. Editing a table in place -/

namespace Table

variable {α κ : Type} {key : α → κ}

/-- `t'` is `t` with some rows deleted, the others changed as far as `E` lets a row change, and
    rows with keys of their own after them. -/
def Edited (E : α → α → Prop) (t t' : Table α κ key) : Prop :=
  ∃ (p : α → Bool) (g : α → α) (new : List α), (∀ a, key (g a) = key a ∧ E a (g a)) ∧
    t'.rows = (t.rows.filter p).map g ++ new ∧ ∀ a ∈ new, ∀ b ∈ t, key b ≠ key a

variable {E : α → α → Prop} {t t' : Table α κ key}

theorem Edited.refl (hE : ∀ a, E a a) (t : Table α κ key) : Edited E t t :=
  ⟨fun _ => true, id, [], fun a => ⟨rfl, hE a⟩, by simp, by simp⟩

theorem Edited.deleteMany (h : Edited E t t') (p : α → Bool) : Edited E t (t'.deleteMany p) := by
  obtain ⟨p₀, g, new, hg, hrows, hnew⟩ := h
  refine ⟨fun a => !p (g a) && p₀ a, g, new.filter fun a => !p a, hg, ?_, fun a ha => ?_⟩
  · show t'.rows.filter (fun a => !p a) = _
    rw [hrows, List.filter_append, List.filter_map, List.filter_filter]
    rfl
  · exact hnew a (List.mem_of_mem_filter ha)

theorem Edited.updateMany (h : Edited E t t') (p : α → Bool) {f : α → α}
    {hf : ∀ a, key (f a) = key a} (hE : ∀ a b, E a b → E a (f b)) :
    Edited E t (t'.updateMany p f hf) := by
  obtain ⟨p₀, g, new, hg, hrows, hnew⟩ := h
  refine ⟨p₀, fun a => if p (g a) then f (g a) else g a, new.map fun a => if p a then f a else a,
    fun a => ?_, ?_, fun a ha => ?_⟩
  · by_cases hp : p (g a) = true
    · simp only [hp, if_true, hf]
      exact ⟨(hg a).1, hE _ _ (hg a).2⟩
    · simp only [hp]
      exact hg a
  · show t'.rows.map (fun a => if p a then f a else a) = _
    rw [hrows, List.map_append, List.map_map]
    rfl
  · obtain ⟨b, hb, rfl⟩ := List.mem_map.mp ha
    intro c hc
    by_cases hp : p b = true
    · rw [if_pos hp, hf]
      exact hnew b hb c hc
    · rw [if_neg hp]
      exact hnew b hb c hc

/-- A row whose key was free to begin with. -/
theorem Edited.insert? [DecidableEq κ] {t'' : Table α κ key} {a : α} (h : Edited E t t')
    (ha : ∀ b ∈ t, key b ≠ key a) (hins : t'.insert? a = some t'') : Edited E t t'' := by
  obtain ⟨p, g, new, hg, hrows, hnew⟩ := h
  refine ⟨p, g, new ++ [a], hg, ?_, fun b hb => ?_⟩
  · rw [(insert?_eq_some.mp hins).1, hrows, List.append_assoc]
  · rcases List.mem_append.mp hb with hb | hb
    · exact hnew b hb
    · rw [List.mem_singleton.mp hb]
      exact ha

/-- A row of the edited table was there, in a form `E` relates it to, or has a new key. -/
theorem Edited.mem (h : Edited E t t') {b : α} (hb : b ∈ t') :
    (∃ a ∈ t, key a = key b ∧ E a b) ∨ ∀ a ∈ t, key a ≠ key b := by
  obtain ⟨p, g, new, hg, hrows, hnew⟩ := h
  rw [← mem_rows, hrows, List.mem_append] at hb
  rcases hb with hb | hb
  · obtain ⟨a, ha, rfl⟩ := List.mem_map.mp hb
    exact .inl ⟨a, List.mem_of_mem_filter ha, (hg a).1.symm, (hg a).2⟩
  · exact .inr (hnew b hb)

/-- Rows that are dropped or moved outside a selection leave the selection alone. -/
theorem filter_map_filter {p q : α → Bool} {g : α → α} {rows : List α}
    (hgone : ∀ a ∈ rows, p a = false → q a = false)
    (hmoved : ∀ a ∈ rows, p a = true → g a ≠ a → q a = false ∧ q (g a) = false) :
    ((rows.filter p).map g).filter q = rows.filter q := by
  induction rows with
  | nil => rfl
  | cons a rows ih =>
    have ih := ih (fun b hb => hgone b (List.mem_cons_of_mem _ hb))
      (fun b hb => hmoved b (List.mem_cons_of_mem _ hb))
    cases hp : p a with
    | false =>
      have hqa := hgone a (List.mem_cons_self ..) hp
      rw [List.filter_cons_of_neg (by simp [hp]), ih, List.filter_cons_of_neg (by simp [hqa])]
    | true =>
      rw [List.filter_cons_of_pos hp, List.map_cons]
      by_cases hga : g a = a
      · rw [hga, List.filter_cons, List.filter_cons, ih]
      · obtain ⟨hqa, hqg⟩ := hmoved a (List.mem_cons_self ..) hp hga
        rw [List.filter_cons_of_neg (by simp [hqg]), ih, List.filter_cons_of_neg (by simp [hqa])]

/-- **A selection that no lost and no new row is in is as before.** -/
theorem Edited.filter_eq (h : Edited E t t') {q : α → Bool}
    (hlost : ∀ a ∈ t, a ∉ t' → q a = false) (hnew : ∀ a ∈ t', a ∉ t → q a = false) :
    t'.rows.filter q = t.rows.filter q := by
  obtain ⟨p, g, new, hg, hrows, hfresh⟩ := h
  have hkept : ∀ a ∈ t, p a = true → g a ∈ t' := by
    intro a ha hp
    rw [← mem_rows, hrows]
    exact List.mem_append_left _ (List.mem_map_of_mem (List.mem_filter.mpr ⟨ha, hp⟩))
  have hgone : ∀ a ∈ t, p a = false → a ∉ t' := by
    intro a ha hp ha'
    rw [← mem_rows, hrows, List.mem_append] at ha'
    rcases ha' with ha' | ha'
    · obtain ⟨b, hb, hba⟩ := List.mem_map.mp ha'
      obtain ⟨hb, hpb⟩ := List.mem_filter.mp hb
      have hkey : key b = key a := by rw [← (hg b).1, hba]
      rw [eq_of_key_eq hb ha hkey, hp] at hpb
      exact absurd hpb (by simp)
    · exact hfresh a ha' a ha rfl
  -- a row that changed left the table, and what it became is new
  have hmoved : ∀ a ∈ t, p a = true → g a ≠ a → a ∉ t' ∧ g a ∉ t := by
    intro a ha hp hne
    refine ⟨fun ha' => hne ?_, fun hga => hne ?_⟩
    · exact eq_of_key_eq (hkept a ha hp) ha' (hg a).1
    · exact eq_of_key_eq hga ha (hg a).1
  have hnewrows : new.filter q = [] := by
    apply List.filter_eq_nil_iff.mpr
    intro a ha
    have ha' : a ∈ t' := by
      rw [← mem_rows, hrows]
      exact List.mem_append_right _ ha
    rw [hnew a ha' fun hat => hfresh a ha a hat rfl]
    simp
  rw [hrows, List.filter_append, hnewrows, List.append_nil]
  apply filter_map_filter (fun a ha hp => hlost a ha (hgone a ha hp))
  intro a ha hp hne
  obtain ⟨hout, hnot⟩ := hmoved a ha hp hne
  exact ⟨hlost a ha hout, hnew _ (hkept a ha hp) hnot⟩

end Table

end ShieldApi
