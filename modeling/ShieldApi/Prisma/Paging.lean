import ShieldApi.Lib.Entries
import ShieldApi.Lib.Paging

/-!
# Lists in pages

Every list of the API is read with `findManyForPage`, on arguments that `buildPrismaFindArgs` makes
of the caller's query and the service's own arguments. The service's filters stand **after** the
caller's, so a caller cannot loosen one by naming it. The pages come from queries of their own, and
nothing but the caller's `order` says which row stands on which: `pages_complete_iff`.
-/

set_option autoImplicit false

namespace ShieldApi

/-- `orderBy`: which rows may stand before which. -/
structure OrderBy (α : Type) where
  le : α → α → Bool
  trans : ∀ a b c, le a b = true → le b c = true → le a c = true
  total : ∀ a b, le a b = true ∨ le b a = true

/-- No `orderBy`: any row may stand before any other. -/
def OrderBy.unordered (α : Type) : OrderBy α where
  le _ _ := true
  trans _ _ _ _ _ := rfl
  total _ _ := .inl rfl

/-- A `where` object: for each of its keys, what that key asks of a row. -/
abbrev Filters (K α : Type) := List (K × (α → Bool))

variable {K α : Type} [DecidableEq K]

/-- Every key's filter has to hold, a later entry for a key in the place of an earlier one. -/
def Filters.holds (filters : Filters K α) (a : α) : Bool :=
  (Entries.keys filters).all fun k => ((Entries.get? filters k).map (· a)).getD true

/-- A parsed query, with the defaults of `buildFixedQuerySchema`. -/
structure QuerySchema (K α : Type) where
  order : Option (OrderBy α) := none
  limit : Nat := 10
  offset : Nat := 0
  rest : Filters K α := []

structure FindArgs (K α : Type) where
  filters : Filters K α
  orderBy : Option (OrderBy α)
  take : Nat
  skip : Nat

/-- Without a query there are no arguments: the service's own go with it. -/
def buildPrismaFindArgs (querySchema : Option (QuerySchema K α)) (own : Filters K α) :
    Option (FindArgs K α) :=
  querySchema.map fun q => {
    filters := q.rest ++ own
    orderBy := q.order
    take := q.limit
    skip := q.offset
  }

structure Page (α : Type) where
  results : List α
  count : Nat
  limit : Nat
  offset : Option Nat

def FindArgs.findMany (args : FindArgs K α) (o : RowOrder α) (rows : List α) : List α :=
  let matching := match args.orderBy with
    | none => o.findMany args.filters.holds rows
    | some orderBy => o.findManyBy orderBy.le args.filters.holds rows
  pageOf args.take args.skip matching

/-- `count` and `findMany` run side by side, each on the rows it finds. -/
def findManyForPage (counted found : List α) (o : RowOrder α) (args : Option (FindArgs K α)) :
    Page α :=
  let results := match args with
    | none => o.findMany (fun _ => true) found
    | some args => args.findMany o found
  { results
    count := match args with
      | none => counted.length
      | some args => counted.countP args.filters.holds
    limit := results.length
    offset := args.map FindArgs.skip }

/-! ## 1. Whose filters hold -/

theorem Filters.holds_iff {filters : Filters K α} {a : α} :
    filters.holds a = true ↔ ∀ k p, Entries.get? filters k = some p → p a = true := by
  rw [Filters.holds, List.all_eq_true]
  constructor
  · intro h k p hp
    have hk := h k (Entries.isSome_get?.mp (by rw [hp]; rfl))
    simpa [hp] using hk
  · intro h k _
    cases hp : Entries.get? filters k with
    | none => rfl
    | some p => simpa using h k p hp

/-- The caller's filters that the service leaves in force. -/
def Filters.without (filters own : Filters K α) : Filters K α :=
  filters.filter fun e => e.1 ∉ Entries.keys own

theorem get?_without (filters own : Filters K α) (k : K) :
    Entries.get? (filters.without own) k =
      if k ∈ Entries.keys own then none else Entries.get? filters k := by
  induction filters with
  | nil => simp [Filters.without]
  | cons e filters ih =>
    rw [Filters.without] at ih ⊢
    by_cases he : e.1 ∈ Entries.keys own
    · have hskip : e.1 = k → k ∈ Entries.keys own := fun h => h ▸ he
      rw [List.filter_cons_of_neg (by simpa using he), ih, Entries.get?_cons]
      split_ifs <;> simp_all
    · have hkeep : e.1 = k → k ∉ Entries.keys own := fun h => h ▸ he
      rw [List.filter_cons_of_pos (by simpa using he), Entries.get?_cons, ih, Entries.get?_cons]
      split_ifs <;> simp_all

/-- The spread: the service's filters hold, and the caller's on every other key. -/
theorem Filters.holds_append (filters own : Filters K α) (a : α) :
    Filters.holds (filters ++ own) a = ((filters.without own).holds a && own.holds a) := by
  rw [Bool.eq_iff_iff, Bool.and_eq_true, holds_iff, holds_iff, holds_iff]
  constructor
  · intro h
    refine ⟨fun k p hp => h k p ?_, fun k p hp => h k p ?_⟩
    · rw [get?_without] at hp
      split_ifs at hp with hk
      rw [Entries.get?_append_of_not_mem hk]
      exact hp
    · rw [Entries.get?_append, hp]
      rfl
  · rintro ⟨hrest, hown⟩ k p hp
    rw [Entries.get?_append] at hp
    cases hk : Entries.get? own k with
    | some p' =>
      rw [hk, Option.some_or, Option.some.injEq] at hp
      exact hp ▸ hown k p' hk
    | none =>
      rw [hk, Option.none_or] at hp
      refine hrest k p ?_
      rw [get?_without, if_neg (Entries.get?_eq_none.mp hk)]
      exact hp

/-! ## 2. Page after page -/

/-- What the whole list is: what both sides let through. -/
def listed (q : QuerySchema K α) (own : Filters K α) (rows : List α) : List α :=
  rows.filter fun a => (q.rest.without own).holds a && own.holds a

/-- The rows of the first `n` pages, the `k`-th asked for at offset `k * limit`. -/
def resultsInPages (q : QuerySchema K α) (own : Filters K α) (rows : List α)
    (orders : Nat → RowOrder α) (n : Nat) : List α :=
  (List.range n).flatMap fun k =>
    (findManyForPage rows rows (orders k)
      (buildPrismaFindArgs (some { q with offset := k * q.limit }) own)).results

/-- The order the pages are cut from. -/
def QuerySchema.orderBy (q : QuerySchema K α) : OrderBy α := q.order.getD (.unordered α)

theorem findManyBy_unordered (o : RowOrder α) (p : α → Bool) (rows : List α) :
    o.findManyBy (OrderBy.unordered α).le p rows = o.findMany p rows := by
  apply List.Pairwise.insertionSort_eq
  exact List.pairwise_of_forall fun _ _ => rfl

theorem findMany_eq (q : QuerySchema K α) (own : Filters K α) (o : RowOrder α) (rows : List α)
    (k : Nat) :
    (findManyForPage rows rows o (buildPrismaFindArgs (some { q with offset := k }) own)).results =
      pageOf q.limit k (o.findManyBy q.orderBy.le
        (fun a => (q.rest.without own).holds a && own.holds a) rows) := by
  have hholds : Filters.holds (q.rest ++ own) =
      fun a => (q.rest.without own).holds a && own.holds a :=
    funext (Filters.holds_append q.rest own)
  simp only [findManyForPage, buildPrismaFindArgs, Option.map_some, FindArgs.findMany, hholds,
    QuerySchema.orderBy]
  cases q.order with
  | none => rw [Option.getD_none, findManyBy_unordered]
  | some orderBy => rfl

theorem resultsInPages_eq (q : QuerySchema K α) (own : Filters K α) (rows : List α)
    (orders : Nat → RowOrder α) (n : Nat) :
    resultsInPages q own rows orders n = readPages q.orderBy.le
      (fun a => (q.rest.without own).holds a && own.holds a) rows q.limit orders n := by
  simp only [resultsInPages, readPages, findMany_eq]

theorem tieAt_unordered {s : List α} {b : Nat} :
    TieAt (OrderBy.unordered α).le s b ↔ 0 < b ∧ b < s.length := by
  constructor
  · rintro ⟨a, c, hpos, -, hc, -⟩
    exact ⟨hpos, (List.getElem?_eq_some_iff.mp hc).1⟩
  · rintro ⟨hpos, hlt⟩
    exact ⟨s[b - 1], s[b], hpos, List.getElem?_eq_getElem (by omega),
      List.getElem?_eq_getElem hlt, rfl⟩

/-- **Pages put together.** Whatever the caller filters by, the pages hold every row that the
    service's own filters and the caller's others let through, each once and whichever way the
    database puts rows that the order does not tell apart, exactly when no page ends inside such a
    tie. Without an `order` that means: when one page holds them all. -/
theorem pages_complete_iff (q : QuerySchema K α) (own : Filters K α) {rows : List α}
    (hrows : rows.Nodup) (hlimit : 0 < q.limit) {n : Nat}
    (hn : (listed q own rows).length ≤ n * q.limit) :
    ((∀ orders, (resultsInPages q own rows orders n).Perm (listed q own rows)) ↔
      ∀ k, ¬ TieAt q.orderBy.le ((listed q own rows).insertionSort fun a b => q.orderBy.le a b)
        (k * q.limit)) ∧
    (q.order = none →
      ((∀ orders, (resultsInPages q own rows orders n).Perm (listed q own rows)) ↔
        (listed q own rows).length ≤ q.limit)) := by
  have hall : (∀ orders, (resultsInPages q own rows orders n).Perm (listed q own rows)) ↔
      ∀ k, ¬ TieAt q.orderBy.le ((listed q own rows).insertionSort fun a b => q.orderBy.le a b)
        (k * q.limit) := by
    simp only [resultsInPages_eq]
    exact readPages_perm_iff q.orderBy.trans q.orderBy.total hlimit hn hrows
  refine ⟨hall, fun hnone => hall.trans ?_⟩
  have horder : q.orderBy = .unordered α := by rw [QuerySchema.orderBy, hnone]; rfl
  simp only [horder, tieAt_unordered, List.length_insertionSort, not_and, Nat.not_lt]
  constructor
  · intro h
    have hone := h 1 (by omega)
    omega
  · intro h k hk
    have hk1 : 1 ≤ k := by
      rcases Nat.eq_zero_or_pos k with rfl | hk'
      · omega
      · exact hk'
    exact h.trans (Nat.le_mul_of_pos_left _ hk1)

/-- Rows of an id and a day, by the day. -/
def byDay : OrderBy (Nat × Nat) where
  le a b := a.2 ≤ b.2
  trans a b c hab hbc := by simp only [decide_eq_true_eq] at hab hbc ⊢; omega
  total a b := by simp only [decide_eq_true_eq]; omega

/-- Two a page; the service asks for rows from day 3 on, and the caller for any. -/
def twoByDay : QuerySchema String (Nat × Nat) where
  order := some byDay
  limit := 2
  rest := [("day", fun _ => true)]

def fromDayThree : Filters String (Nat × Nat) := [("day", fun r => r.2 ≥ 3)]

/-- The rows 2 and 3 are of one day, and the first page ends between them. -/
theorem pages_complete_iff_sameDay : ¬ ∀ orders,
    (resultsInPages twoByDay fromDayThree [(0, 1), (1, 3), (2, 4), (3, 4)] orders 2).Perm
      (listed twoByDay fromDayThree [(0, 1), (1, 3), (2, 4), (3, 4)]) := by
  rw [(pages_complete_iff twoByDay fromDayThree (by decide) (by decide) (by decide)).1]
  intro h
  exact h 1 ⟨(2, 4), (3, 4), by decide, by decide, by decide, by decide⟩

end ShieldApi
