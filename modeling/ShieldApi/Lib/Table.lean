import Mathlib.Data.List.Sort
import Mathlib.Logic.Function.Basic

/-!
# Tables with a unique index

A relational table as an ordered list of rows in which no two rows agree on a key. The
uniqueness is a field of the table, so no operation can break it: an insert whose key is
taken has no result, a bulk update may only be given a function that keeps the key.

A query without an `ORDER BY` may return its rows in any order, and two rows that tie under
one may come out either way round. `RowOrder` is that freedom: a permutation of every row
list, supplied with each call from outside. Sorting is done on top of it by a stable sort,
so a tie is decided by the permutation.
-/

set_option autoImplicit false

namespace ShieldApi

/-- The order in which a query without `ORDER BY` happens to see rows. -/
structure RowOrder (α : Type) where
  scan : List α → List α
  perm : ∀ rows, (scan rows).Perm rows

namespace RowOrder

variable {α : Type}

/-- The rows in the order they were inserted. -/
def insertion (α : Type) : RowOrder α := ⟨id, fun _ => .refl _⟩

/-- The rows, latest first. -/
def reversed (α : Type) : RowOrder α := ⟨List.reverse, List.reverse_perm⟩

/-- `findMany` without `orderBy`. -/
def findMany (o : RowOrder α) (p : α → Bool) (rows : List α) : List α :=
  o.scan (rows.filter p)

/-- `findMany` with an `orderBy` that compares by `le`. -/
def findManyBy (o : RowOrder α) (le : α → α → Bool) (p : α → Bool) (rows : List α) : List α :=
  (o.findMany p rows).insertionSort (fun a b => le a b = true)

def findFirst (o : RowOrder α) (p : α → Bool) (rows : List α) : Option α :=
  (o.findMany p rows).head?

def findFirstBy (o : RowOrder α) (le : α → α → Bool) (p : α → Bool) (rows : List α) :
    Option α :=
  (o.findManyBy le p rows).head?

theorem mem_findMany {o : RowOrder α} {p : α → Bool} {rows : List α} {a : α} :
    a ∈ o.findMany p rows ↔ a ∈ rows ∧ p a = true := by
  rw [findMany, (o.perm _).mem_iff, List.mem_filter]

theorem findManyBy_perm {o : RowOrder α} {le : α → α → Bool} {p : α → Bool} {rows : List α} :
    (o.findManyBy le p rows).Perm (rows.filter p) :=
  (List.perm_insertionSort _ _).trans (o.perm _)

theorem mem_findManyBy {o : RowOrder α} {le : α → α → Bool} {p : α → Bool} {rows : List α}
    {a : α} : a ∈ o.findManyBy le p rows ↔ a ∈ rows ∧ p a = true := by
  rw [findManyBy_perm.mem_iff, List.mem_filter]

/-- What a query with an `orderBy` reads goes up. -/
theorem pairwise_findManyBy {o : RowOrder α} {le : α → α → Bool}
    (htrans : ∀ a b c, le a b = true → le b c = true → le a c = true)
    (htotal : ∀ a b, le a b = true ∨ le b a = true) (p : α → Bool) (rows : List α) :
    (o.findManyBy le p rows).Pairwise fun a b => le a b = true := by
  have : IsTrans α (fun a b => le a b = true) := ⟨htrans⟩
  have : Std.Total (fun a b => le a b = true) := ⟨htotal⟩
  exact List.pairwise_insertionSort _ _

theorem findMany_eq_nil {o : RowOrder α} {p : α → Bool} {rows : List α} :
    o.findMany p rows = [] ↔ ∀ a ∈ rows, p a = false := by
  rw [List.eq_nil_iff_forall_not_mem]
  simp only [mem_findMany, not_and, Bool.not_eq_true]

theorem findFirst_mem {o : RowOrder α} {p : α → Bool} {rows : List α} {a : α}
    (h : o.findFirst p rows = some a) : a ∈ rows ∧ p a = true :=
  mem_findMany.1 (List.mem_of_mem_head? h)

theorem findFirstBy_mem {o : RowOrder α} {le : α → α → Bool} {p : α → Bool} {rows : List α}
    {a : α} (h : o.findFirstBy le p rows = some a) : a ∈ rows ∧ p a = true :=
  mem_findManyBy.1 (List.mem_of_mem_head? h)

theorem findFirst_eq_none {o : RowOrder α} {p : α → Bool} {rows : List α} :
    o.findFirst p rows = none ↔ ∀ a ∈ rows, p a = false := by
  rw [findFirst, List.head?_eq_none_iff, findMany_eq_nil]

theorem findFirst_isSome (o : RowOrder α) (p : α → Bool) (rows : List α) :
    (o.findFirst p rows).isSome = rows.any p := by
  rw [Bool.eq_iff_iff, List.any_eq_true]
  constructor
  · intro h
    obtain ⟨a, ha⟩ := Option.isSome_iff_exists.mp h
    exact ⟨a, findFirst_mem ha⟩
  · intro h
    obtain ⟨a, ha, hp⟩ := h
    by_contra hnone
    have hall := findFirst_eq_none.1 (Option.not_isSome_iff_eq_none.mp hnone) a ha
    exact absurd hp (by simp [hall])

theorem findFirstBy_eq_none {o : RowOrder α} {le : α → α → Bool} {p : α → Bool}
    {rows : List α} : o.findFirstBy le p rows = none ↔ ∀ a ∈ rows, p a = false := by
  rw [findFirstBy, List.head?_eq_none_iff, findManyBy]
  constructor
  · intro h a ha
    by_contra hp
    have : a ∈ o.findManyBy le p rows := mem_findManyBy.2 ⟨ha, by simpa using hp⟩
    rw [findManyBy, h] at this
    exact absurd this (List.not_mem_nil)
  · intro h
    rw [findMany_eq_nil.2 h]
    rfl

end RowOrder

/-- Rows no two of which agree on `key`. -/
structure Table (α κ : Type) (key : α → κ) where
  rows : List α
  unique : (rows.map key).Nodup

namespace Table

variable {α κ : Type} {key : α → κ}

def empty : Table α κ key := ⟨[], List.nodup_nil⟩

instance : EmptyCollection (Table α κ key) := ⟨empty⟩

instance : Membership α (Table α κ key) := ⟨fun t a => a ∈ t.rows⟩

theorem mem_rows {t : Table α κ key} {a : α} : a ∈ t.rows ↔ a ∈ t := Iff.rfl

instance [DecidableEq α] (t : Table α κ key) (a : α) : Decidable (a ∈ t) :=
  inferInstanceAs (Decidable (a ∈ t.rows))

/-- Two rows of a table with one key are one row. -/
theorem eq_of_key_eq {t : Table α κ key} {a b : α} (ha : a ∈ t) (hb : b ∈ t)
    (h : key a = key b) : a = b :=
  List.inj_on_of_nodup_map t.unique ha hb h

/-- A row with the key of another one is that one. -/
theorem exists_key_iff {t : Table α κ key} {a : α} (ha : a ∈ t) {P : α → Prop} :
    (∃ b ∈ t, key b = key a ∧ P b) ↔ P a := by
  constructor
  · intro h
    obtain ⟨b, hb, hkey, hP⟩ := h
    exact eq_of_key_eq hb ha hkey ▸ hP
  · intro h
    exact ⟨a, ha, rfl, h⟩

variable [DecidableEq κ]

def find? (t : Table α κ key) (k : κ) : Option α := t.rows.find? (fun a => key a = k)

/-- A row more, unless its key is taken. -/
def insert? (t : Table α κ key) (a : α) : Option (Table α κ key) :=
  if h : key a ∈ t.rows.map key then none
  else some ⟨t.rows ++ [a], by
    rw [List.map_append, List.map_singleton]
    exact t.unique.append (List.nodup_singleton _) (by simpa using h)⟩

/-- Several rows more, unless a key is taken, by a row or by one of them. -/
def insertAll? (t : Table α κ key) : List α → Option (Table α κ key)
  | [] => some t
  | a :: as => (t.insert? a).bind (·.insertAll? as)

/-- `f` on the rows `p` selects. -/
def updateMany (t : Table α κ key) (p : α → Bool) (f : α → α) (hf : ∀ a, key (f a) = key a) :
    Table α κ key :=
  ⟨t.rows.map fun a => if p a then f a else a, by
    have : (t.rows.map fun a => if p a then f a else a).map key = t.rows.map key := by
      rw [List.map_map]
      apply List.map_congr_left
      intro a _
      by_cases hp : p a <;> simp [hp, hf]
    rw [this]
    exact t.unique⟩

def deleteMany (t : Table α κ key) (p : α → Bool) : Table α κ key :=
  ⟨t.rows.filter fun a => !p a, t.unique.sublist (List.filter_sublist.map key)⟩

theorem find?_eq_some {t : Table α κ key} {k : κ} {a : α} :
    t.find? k = some a ↔ a ∈ t ∧ key a = k := by
  constructor
  · intro h
    exact ⟨List.mem_of_find?_eq_some h, by simpa using List.find?_some h⟩
  · rintro ⟨ha, rfl⟩
    cases hf : t.find? (key a) with
    | none =>
      have := List.find?_eq_none.mp hf a ha
      simp at this
    | some b =>
      have hb : b ∈ t := List.mem_of_find?_eq_some hf
      have hk : key b = key a := by simpa using List.find?_some hf
      rw [eq_of_key_eq hb ha hk]

theorem find?_eq_none {t : Table α κ key} {k : κ} :
    t.find? k = none ↔ ∀ a ∈ t, key a ≠ k := by
  simp only [find?, List.find?_eq_none, decide_eq_true_eq]
  rfl

/-- The row of a key among those that have been picked. -/
theorem find?_filter_eq_some {t : Table α κ key} {p : α → Bool} {k : κ} {a : α} :
    (t.rows.filter p).find? (fun a => key a = k) = some a ↔ a ∈ t ∧ p a = true ∧ key a = k := by
  constructor
  · intro h
    obtain ⟨ha, hp⟩ := List.mem_filter.mp (List.mem_of_find?_eq_some h)
    have hk := List.find?_some h
    exact ⟨ha, hp, of_decide_eq_true hk⟩
  · intro h
    obtain ⟨ha, hp, hk⟩ := h
    cases hf : (t.rows.filter p).find? (fun a => key a = k) with
    | none =>
      have hnot := List.find?_eq_none.mp hf a (List.mem_filter.mpr ⟨ha, hp⟩)
      exact absurd (decide_eq_true hk) hnot
    | some b =>
      have hb := List.find?_some hf
      exact congrArg some (List.inj_on_of_nodup_map t.unique
        (List.mem_filter.mp (List.mem_of_find?_eq_some hf)).1 ha
        ((of_decide_eq_true hb).trans hk.symm))

theorem find?_isSome {t : Table α κ key} {k : κ} :
    (t.find? k).isSome = true ↔ ∃ a ∈ t, key a = k := by
  rw [Option.isSome_iff_exists]
  simp only [find?_eq_some]

theorem insert?_eq_some {t t' : Table α κ key} {a : α} :
    t.insert? a = some t' ↔ t'.rows = t.rows ++ [a] ∧ ∀ b ∈ t, key b ≠ key a := by
  have hmem : key a ∈ t.rows.map key ↔ ∃ b ∈ t, key b = key a := List.mem_map
  rw [insert?]
  split
  · rename_i h
    obtain ⟨b, hb, hk⟩ := hmem.mp h
    simp only [reduceCtorEq, false_iff, not_and]
    exact fun _ hall => hall b hb hk
  · rename_i h
    rw [hmem] at h
    push Not at h
    obtain ⟨rows', u'⟩ := t'
    simp only [Option.some.injEq, mk.injEq]
    exact ⟨fun he => ⟨he.symm, h⟩, fun he => he.1.symm⟩

theorem mem_insert? {t t' : Table α κ key} {a b : α} (h : t.insert? a = some t') :
    b ∈ t' ↔ b ∈ t ∨ b = a := by
  rw [← mem_rows, (insert?_eq_some.1 h).1, List.mem_append, List.mem_singleton]
  rfl

theorem mem_insertAll? {t t' : Table α κ key} {as : List α} {b : α}
    (h : t.insertAll? as = some t') : b ∈ t' ↔ b ∈ t ∨ b ∈ as := by
  induction as generalizing t with
  | nil =>
    obtain rfl := Option.some.inj h
    simp
  | cons a as ih =>
    obtain ⟨t₁, ha, has⟩ := Option.bind_eq_some_iff.mp h
    rw [ih has, mem_insert? ha, List.mem_cons, or_assoc]

theorem rows_insertAll? {t t' : Table α κ key} {as : List α} (h : t.insertAll? as = some t') :
    t'.rows = t.rows ++ as := by
  induction as generalizing t with
  | nil =>
    obtain rfl := Option.some.inj h
    rw [List.append_nil]
  | cons a as ih =>
    obtain ⟨t₁, ha, has⟩ := Option.bind_eq_some_iff.mp h
    rw [ih has, (insert?_eq_some.1 ha).1, List.append_assoc, List.singleton_append]

theorem insertAll?_append {t : Table α κ key} (as bs : List α) :
    t.insertAll? (as ++ bs) = (t.insertAll? as).bind (·.insertAll? bs) := by
  induction as generalizing t with
  | nil => rfl
  | cons a as ih =>
    rw [List.cons_append, insertAll?, insertAll?, Option.bind_assoc]
    exact congrArg _ (funext fun t₁ => ih)

/-- Rows that were inserted have different keys. -/
theorem nodup_of_insertAll? {t t' : Table α κ key} {as : List α}
    (h : t.insertAll? as = some t') : (as.map key).Nodup := by
  have hunique := t'.unique
  rw [rows_insertAll? h, List.map_append] at hunique
  exact hunique.of_append_right

/-- A row that was inserted has a key no row had. -/
theorem not_mem_of_insertAll? {t t' : Table α κ key} {as : List α} {a : α}
    (h : t.insertAll? as = some t') (ha : a ∈ as) : a ∉ t := by
  induction as generalizing t with
  | nil => exact absurd ha List.not_mem_nil
  | cons b as ih =>
    obtain ⟨t₁, hb, has⟩ := Option.bind_eq_some_iff.mp h
    intro hmem
    rcases List.mem_cons.mp ha with rfl | ha
    · exact (insert?_eq_some.1 hb).2 a hmem rfl
    · exact ih has ha ((mem_insert? hb).mpr (.inl hmem))

omit [DecidableEq κ] in
theorem mem_updateMany {t : Table α κ key} {p : α → Bool} {f : α → α}
    {hf : ∀ a, key (f a) = key a} {b : α} :
    b ∈ t.updateMany p f hf ↔ ∃ a ∈ t, (if p a then f a else a) = b := List.mem_map

omit [DecidableEq κ] in
theorem mem_deleteMany {t : Table α κ key} {p : α → Bool} {a : α} :
    a ∈ t.deleteMany p ↔ a ∈ t ∧ p a = false := by
  rw [← mem_rows, deleteMany, List.mem_filter, Bool.not_eq_true', mem_rows]

omit [DecidableEq κ] in
theorem eq_of_rows_eq {t t' : Table α κ key} (h : t.rows = t'.rows) : t = t' := by
  cases t
  cases t'
  cases h
  rfl

omit [DecidableEq κ] in
theorem eq_iff_of_rows_eq_map {t t' : Table α κ key} {f : α → α} (h : t'.rows = t.rows.map f) :
    t' = t ↔ ∀ a ∈ t, f a = a := by
  have hrows : t' = t ↔ t.rows.map f = t.rows.map id := by
    rw [← h, List.map_id]
    exact ⟨congrArg rows, eq_of_rows_eq⟩
  rw [hrows, List.map_inj_left]
  rfl

omit [DecidableEq κ] in
/-- An update of rows to themselves is none. -/
theorem updateMany_eq_self {t : Table α κ key} {p : α → Bool} {f : α → α}
    {hf : ∀ a, key (f a) = key a} :
    t.updateMany p f hf = t ↔ ∀ a ∈ t, p a = true → f a = a := by
  rw [eq_iff_of_rows_eq_map rfl]
  apply forall₂_congr
  intro a _
  by_cases hp : p a = true <;> simp [hp]

omit [DecidableEq κ] in
/-- Only what the condition says of the rows matters. -/
theorem updateMany_congr {t : Table α κ key} {p q : α → Bool} {f : α → α}
    {hf : ∀ a, key (f a) = key a} (h : ∀ a ∈ t, p a = q a) :
    t.updateMany p f hf = t.updateMany q f hf := by
  refine eq_of_rows_eq (List.map_congr_left fun a ha => ?_)
  rw [h a ha]

omit [DecidableEq κ] in
theorem deleteMany_congr {t : Table α κ key} {p q : α → Bool} (h : ∀ a ∈ t, p a = q a) :
    t.deleteMany p = t.deleteMany q := by
  refine eq_of_rows_eq (List.filter_congr fun a ha => ?_)
  rw [h a ha]

/-! ## What an operation does to a lookup

A lookup after an operation, in terms of the lookup before it. These three are what the
services' proofs use: a table is the finite map its lookups make it. -/

theorem find?_insert? {t t' : Table α κ key} {a : α} (h : t.insert? a = some t') (k : κ) :
    t'.find? k = if k = key a then some a else t.find? k := by
  by_cases hk : k = key a
  · rw [if_pos hk]
    exact find?_eq_some.2 ⟨(mem_insert? h).mpr (.inr rfl), hk.symm⟩
  · rw [if_neg hk, find?, find?, (insert?_eq_some.1 h).1, List.find?_append]
    simp [Ne.symm hk]

theorem find?_updateMany {t : Table α κ key} {p : α → Bool} {f : α → α}
    {hf : ∀ a, key (f a) = key a} (k : κ) :
    (t.updateMany p f hf).find? k = (t.find? k).map fun a => if p a then f a else a := by
  unfold find? updateMany
  rw [List.find?_map]
  congr 2
  funext a
  by_cases hp : p a <;> simp [hp, hf]

theorem find?_deleteMany {t : Table α κ key} {p : α → Bool} (k : κ) :
    (t.deleteMany p).find? k = (t.find? k).filter fun a => !p a := by
  cases hk : t.find? k with
  | none =>
    rw [Option.filter_none, find?_eq_none]
    intro a ha
    exact find?_eq_none.1 hk a (mem_deleteMany.1 ha).1
  | some a =>
    obtain ⟨ha, rfl⟩ := find?_eq_some.1 hk
    by_cases hp : p a = true
    · rw [Option.filter_some, hp, Bool.not_true, if_neg Bool.false_ne_true, find?_eq_none]
      intro b hb hbk
      obtain ⟨hbt, hbp⟩ := mem_deleteMany.1 hb
      rw [eq_of_key_eq hbt ha hbk, hp] at hbp
      exact absurd hbp (by simp)
    · have hp : p a = false := by simpa using hp
      rw [Option.filter_some, hp, Bool.not_false, if_pos rfl]
      exact find?_eq_some.mpr ⟨mem_deleteMany.2 ⟨ha, hp⟩, rfl⟩

theorem insert?_isSome {t : Table α κ key} {a : α} :
    (t.insert? a).isSome = true ↔ t.find? (key a) = none := by
  rw [find?_eq_none, Option.isSome_iff_exists]
  constructor
  · rintro ⟨t', h⟩
    exact (insert?_eq_some.1 h).2
  · intro h
    have hk : key a ∉ t.rows.map key := by
      intro hmem
      obtain ⟨b, hb, hbk⟩ := List.mem_map.mp hmem
      exact h b hb hbk
    exact ⟨_, dif_neg hk⟩

theorem find?_inserted {t t' : Table α κ key} {a : α} (h : t.insert? a = some t') :
    t'.find? (key a) = some a := by
  rw [find?_insert? h, if_pos rfl]

theorem find?_isSome_of_insert? {t t' : Table α κ key} {a : α} (h : t.insert? a = some t') {k : κ}
    (hk : (t.find? k).isSome = true) : (t'.find? k).isSome = true := by
  rw [find?_insert? h]
  split
  · rfl
  · exact hk

/-- No row goes where rows come. -/
theorem find?_isSome_of_insertAll? {t t' : Table α κ key} {as : List α}
    (h : t.insertAll? as = some t') {k : κ} (hk : (t.find? k).isSome = true) :
    (t'.find? k).isSome = true := by
  induction as generalizing t with
  | nil =>
    obtain rfl := Option.some.inj h
    exact hk
  | cons a as ih =>
    obtain ⟨t₁, ha, has⟩ := Option.bind_eq_some_iff.mp h
    exact ih has (find?_isSome_of_insert? ha hk)

/-- The keys are different, and no row has one of them. -/
def Free (t : Table α κ key) (ks : List κ) : Prop := ks.Nodup ∧ ∀ k ∈ ks, t.find? k = none

theorem insertAll?_isSome {t : Table α κ key} {as : List α} :
    (t.insertAll? as).isSome = true ↔ t.Free (as.map key) := by
  induction as generalizing t with
  | nil => simp [insertAll?, Free]
  | cons a as ih =>
    rw [insertAll?]
    cases hins : t.insert? a with
    | none =>
      have htaken : t.find? (key a) ≠ none := fun hfree => by
        rw [← insert?_isSome, hins] at hfree
        exact absurd hfree (by simp)
      simp only [Option.bind_none, Option.isSome_none, Bool.false_eq_true, false_iff]
      exact fun hfree => htaken (hfree.2 _ (List.mem_cons_self ..))
    | some t₁ =>
      have hfree : t.find? (key a) = none := insert?_isSome.1 (by rw [hins]; rfl)
      rw [Option.bind_some, ih]
      unfold Free
      simp only [find?_insert? hins, List.map_cons, List.nodup_cons, List.forall_mem_cons, hfree,
        true_and]
      constructor
      · rintro ⟨hnodup, hall⟩
        refine ⟨⟨fun hmem => absurd (hall _ hmem) (by simp), hnodup⟩, fun k hk => ?_⟩
        have hnone := hall k hk
        split at hnone
        · exact absurd hnone (by simp)
        · exact hnone
      · rintro ⟨⟨hnot, hnodup⟩, hall⟩
        refine ⟨hnodup, fun k hk => ?_⟩
        have hne : k ≠ key a := fun he => hnot (he ▸ hk)
        rw [if_neg hne]
        exact hall k hk

end Table

/-! ## Overwriting a map

What a list of writes makes of a map, one after another: at a key the last write to it
wins, and every other key keeps its value. -/

section Overwrite

variable {κ β : Type} [DecidableEq κ]

def overwrite (f : κ → β) (writes : List (κ × β)) : κ → β :=
  writes.foldl (fun f kv => Function.update f kv.1 kv.2) f

@[simp] theorem overwrite_nil (f : κ → β) : overwrite f [] = f := rfl

@[simp] theorem overwrite_cons (f : κ → β) (kv : κ × β) (writes : List (κ × β)) :
    overwrite f (kv :: writes) = overwrite (Function.update f kv.1 kv.2) writes := rfl

theorem overwrite_eq_iff {f : κ → β} {writes : List (κ × β)} {k : κ} {v : β} :
    overwrite f writes k = v ↔
      (k ∉ writes.map Prod.fst ∧ f k = v) ∨
        ∃ pre post, writes = pre ++ (k, v) :: post ∧ k ∉ post.map Prod.fst := by
  induction writes generalizing f with
  | nil => simp
  | cons kv writes ih =>
    obtain ⟨k₀, v₀⟩ := kv
    rw [overwrite_cons, ih]
    constructor
    · rintro (⟨hk, hv⟩ | ⟨pre, post, hw, hk⟩)
      · by_cases he : k = k₀
        · subst he
          rw [Function.update_self] at hv
          obtain rfl : v₀ = v := hv
          exact .inr ⟨[], writes, rfl, hk⟩
        · rw [Function.update_of_ne he] at hv
          exact .inl ⟨by simp [he, hk], hv⟩
      · exact .inr ⟨(k₀, v₀) :: pre, post, by rw [hw]; rfl, hk⟩
    · rintro (⟨hk, hv⟩ | ⟨pre, post, hw, hk⟩)
      · simp only [List.map_cons, List.mem_cons, not_or] at hk
        exact .inl ⟨hk.2, by rw [Function.update_of_ne hk.1]; exact hv⟩
      · cases pre with
        | nil =>
          simp only [List.nil_append, List.cons.injEq, Prod.mk.injEq] at hw
          obtain ⟨⟨rfl, rfl⟩, rfl⟩ := hw
          exact .inl ⟨hk, Function.update_self ..⟩
        | cons kv' pre =>
          simp only [List.cons_append, List.cons.injEq] at hw
          exact .inr ⟨pre, post, hw.2, hk⟩

end Overwrite

end ShieldApi
