import ShieldApi.Lib.Table

/-!
# Looking a row up before creating it

An import looks for a row among candidates: one that has the external id if there is any, else the
first. It creates the row if there is no candidate, and otherwise writes what is still missing from
the one it found. Then the row is found again, with nothing missing (`settled_run`), and looking it
up once more does nothing (`run_of_settled`).

**And that stays so while other rows are looked up and created**, if their lookups are apart from this
one (`Settled.run`): the rows they create do not have its external id, and what they write makes no
row a candidate that was none.
-/

set_option autoImplicit false

namespace ShieldApi

variable {ρ : Type}

/-- Ids that no row has yet. -/
structure FreshIds where
  fresh : List String → String
  fresh_notMem : ∀ ids, fresh ids ∉ ids

/-- Longer than all of them together. -/
def FreshIds.longer : FreshIds where
  fresh ids := String.ofList ('x' :: ids.flatMap String.toList)
  fresh_notMem ids h := by
    have hpart := List.sublist_flatten_of_mem (List.mem_map_of_mem h : _ ∈ ids.map String.toList)
    have hle := hpart.length_le
    rw [String.toList_ofList, ← List.flatMap_def, List.length_cons] at hle
    omega

namespace Table

variable {key : ρ → String}

/-- A new row, with the id it got. -/
def create (t : Table ρ String key) (ids : FreshIds) (new : String → ρ)
    (hnew : ∀ id, key (new id) = id) : Table ρ String key × ρ :=
  let row := new (ids.fresh (t.rows.map key))
  (⟨t.rows ++ [row], by
    rw [List.map_append, List.map_singleton, hnew]
    exact t.unique.append (List.nodup_singleton _)
      (List.disjoint_singleton.mpr (ids.fresh_notMem _))⟩, row)

theorem rows_create (t : Table ρ String key) (ids : FreshIds) (new : String → ρ)
    (hnew : ∀ id, key (new id) = id) :
    (t.create ids new hnew).1.rows = t.rows ++ [(t.create ids new hnew).2] := rfl

/-- A write to the row with one id. -/
theorem rows_updateMany_eq {t : Table ρ String key} {before after : List ρ} {c : ρ} (f : ρ → ρ)
    (hf : ∀ r, key (f r) = key r) (h : t.rows = before ++ c :: after) :
    (t.updateMany (fun r => key r = key c) f hf).rows = before ++ f c :: after := by
  have hunique := t.unique
  rw [h, List.map_append, List.map_cons, List.nodup_middle, List.nodup_cons, ← List.map_append]
    at hunique
  have hother : ∀ r ∈ before ++ after, key r ≠ key c := fun r hr he =>
    hunique.1 (he ▸ List.mem_map_of_mem hr)
  have hkeep (l : List ρ) (hl : ∀ r ∈ l, key r ≠ key c) :
      l.map (fun r => if decide (key r = key c) = true then f r else r) = l := by
    rw [List.map_congr_left fun r hr => if_neg (by simpa using hl r hr)]
    exact List.map_id' l
  show t.rows.map _ = _
  rw [h, List.map_append, List.map_cons, hkeep before fun r hr => hother r (by simp [hr]),
    hkeep after fun r hr => hother r (by simp [hr]), if_pos (by simp)]

end Table

/-- A lookup, the row it creates, and what it writes to one it finds. -/
structure GetOrCreate (ρ : Type) (key : ρ → String) where
  candidate : ρ → Bool
  /-- It has the external id. -/
  exact : ρ → Bool
  /-- Nothing is missing. -/
  settled : ρ → Bool
  new : String → ρ
  settle : ρ → ρ
  key_new : ∀ id, key (new id) = id
  key_settle : ∀ r, key (settle r) = key r
  new_found : ∀ id, candidate (new id) = true ∧ exact (new id) = true ∧ settled (new id) = true
  settle_found : ∀ r, candidate r = true →
    candidate (settle r) = true ∧ (exact r = true → exact (settle r) = true) ∧
      settled (settle r) = true

namespace GetOrCreate

variable {key : ρ → String} (op : GetOrCreate ρ key)

def found (rows : List ρ) : Option ρ :=
  let candidates := rows.filter op.candidate
  (candidates.find? op.exact).or candidates.head?

def run (ids : FreshIds) (t : Table ρ String key) : Table ρ String key × ρ :=
  match op.found t.rows with
  | none => t.create ids op.new op.key_new
  | some c =>
    if op.settled c then (t, c)
    else (t.updateMany (fun r => key r = key c) op.settle op.key_settle, op.settle c)

/-- The row is found, and nothing is missing from it. -/
def Settled (rows : List ρ) (c : ρ) : Prop := op.found rows = some c ∧ op.settled c = true

/-! ## What is found -/

theorem found_eq (rows : List ρ) :
    op.found rows = (rows.find? fun r => op.candidate r && op.exact r).or
      (rows.find? op.candidate) := by
  simp only [found, List.find?_filter, List.head?_filter, Bool.decide_and, Bool.decide_eq_true]

theorem found_eq_none {rows : List ρ} :
    op.found rows = none ↔ ∀ r ∈ rows, op.candidate r = false := by
  rw [found_eq, Option.or_eq_none_iff, List.find?_eq_none, List.find?_eq_none]
  simp only [Bool.and_eq_true, not_and, Bool.not_eq_true]
  exact ⟨fun h => h.2, fun h => ⟨fun r hr hc => absurd hc (by simp [h r hr]), h⟩⟩

/-- The first candidate with the external id, or the first candidate where none has it. -/
theorem found_eq_some {rows : List ρ} {c : ρ} :
    op.found rows = some c ↔ op.candidate c = true ∧ ∃ before after, rows = before ++ c :: after ∧
      (op.exact c = true ∧ (∀ r ∈ before, op.candidate r = true → op.exact r = false) ∨
        (∀ r ∈ rows, op.candidate r = true → op.exact r = false) ∧
          ∀ r ∈ before, op.candidate r = false) := by
  rw [found_eq, Option.or_eq_some_iff, List.find?_eq_some_iff_append, List.find?_eq_none,
    List.find?_eq_some_iff_append]
  simp only [Bool.and_eq_true, Bool.not_eq_true', Bool.and_eq_false_imp, not_and,
    Bool.not_eq_true]
  constructor
  · rintro (⟨⟨hc, hexact⟩, before, after, hrows, hbefore⟩ |
      ⟨hnone, hc, before, after, hrows, hbefore⟩)
    · exact ⟨hc, before, after, hrows, .inl ⟨hexact, hbefore⟩⟩
    · exact ⟨hc, before, after, hrows, .inr ⟨hnone, hbefore⟩⟩
  · rintro ⟨hc, before, after, hrows, ⟨hexact, hbefore⟩ | ⟨hnone, hbefore⟩⟩
    · exact .inl ⟨⟨hc, hexact⟩, before, after, hrows, hbefore⟩
    · exact .inr ⟨hnone, hc, before, after, hrows, hbefore⟩

/-! ## Writes that leave it alone -/

variable {op}

theorem Settled.append {rows : List ρ} {c r : ρ} (h : op.Settled rows c)
    (hr : op.candidate r = true → op.exact r = false) : op.Settled (rows ++ [r]) c := by
  obtain ⟨hfound, hsettled⟩ := h
  obtain ⟨hc, before, after, hrows, hfirst⟩ := op.found_eq_some.mp hfound
  refine ⟨op.found_eq_some.mpr ⟨hc, before, after ++ [r], by rw [hrows, List.append_assoc]; rfl, ?_⟩,
    hsettled⟩
  refine hfirst.imp_right fun h => ⟨fun x hx hcandidate => ?_, h.2⟩
  rcases List.mem_append.mp hx with hx | hx
  · exact h.1 x hx hcandidate
  · rw [List.mem_singleton.mp hx] at hcandidate ⊢
    exact hr hcandidate

theorem Settled.map {rows : List ρ} {c : ρ} (h : op.Settled rows c) {f : ρ → ρ}
    (hsame : ∀ r ∈ rows, op.settled r = true → f r = r)
    (hcandidate : ∀ r ∈ rows, op.candidate (f r) = true →
      op.candidate r = true ∧ (op.exact (f r) = true → op.exact r = true)) :
    op.Settled (rows.map f) c := by
  obtain ⟨hfound, hsettled⟩ := h
  obtain ⟨hc, before, after, hrows, hfirst⟩ := op.found_eq_some.mp hfound
  have hbefore : ∀ r ∈ before, r ∈ rows := fun r hr => by simp [hrows, hr]
  have hmap : rows.map f = before.map f ++ c :: after.map f := by
    rw [hrows, List.map_append, List.map_cons, hsame c (by simp [hrows]) hsettled]
  -- what is no match has an image that is none
  have hinexact : ∀ r ∈ rows, (op.candidate r = true → op.exact r = false) →
      op.candidate (f r) = true → op.exact (f r) = false := by
    intro r hr hno hcf
    obtain ⟨hcr, hexact⟩ := hcandidate r hr hcf
    exact Bool.eq_false_iff.mpr fun hef => absurd (hexact hef) (by simp [hno hcr])
  refine ⟨op.found_eq_some.mpr ⟨hc, before.map f, after.map f, hmap, ?_⟩, hsettled⟩
  rcases hfirst with ⟨hexact, hno⟩ | ⟨hno, hnone⟩
  · refine .inl ⟨hexact, fun r hr => ?_⟩
    obtain ⟨x, hx, rfl⟩ := List.mem_map.mp hr
    exact hinexact x (hbefore x hx) (hno x hx)
  · refine .inr ⟨fun r hr => ?_, fun r hr => ?_⟩
    · obtain ⟨x, hx, rfl⟩ := List.mem_map.mp hr
      exact hinexact x hx (hno x hx)
    · obtain ⟨x, hx, rfl⟩ := List.mem_map.mp hr
      exact Bool.eq_false_iff.mpr fun hcf =>
        absurd (hcandidate x (hbefore x hx) hcf).1 (by simp [hnone x hx])

/-! ## Runs -/

/-- What a run does, by what it finds. -/
theorem rows_run (op : GetOrCreate ρ key) (ids : FreshIds) (t : Table ρ String key) :
    (op.found t.rows = none ∧ ∃ id, op.run ids t = (t.create ids op.new op.key_new) ∧
        (op.run ids t).1.rows = t.rows ++ [op.new id] ∧ (op.run ids t).2 = op.new id) ∨
      ∃ c, op.found t.rows = some c ∧
        (op.settled c = true ∧ op.run ids t = (t, c) ∨
          op.settled c = false ∧ (op.run ids t).2 = op.settle c ∧
            (op.run ids t).1.rows =
              t.rows.map fun r => if key r = key c then op.settle r else r) := by
  unfold run
  cases hfound : op.found t.rows with
  | none => exact .inl ⟨rfl, _, rfl, rfl, rfl⟩
  | some c =>
    refine .inr ⟨c, rfl, ?_⟩
    cases hsettled : op.settled c with
    | true => exact .inl ⟨rfl, by simp [hsettled]⟩
    | false => exact .inr ⟨rfl, by simp [hsettled], by simp [hsettled, Table.updateMany]⟩

theorem run_of_settled {t : Table ρ String key} {c : ρ} (h : op.Settled t.rows c)
    (ids : FreshIds) : op.run ids t = (t, c) := by
  unfold run
  rw [h.1]
  simp [h.2]

/-- **A run leaves the row so that it is found and nothing is missing.** -/
theorem settled_run (op : GetOrCreate ρ key) (ids : FreshIds) (t : Table ρ String key) :
    op.Settled (op.run ids t).1.rows (op.run ids t).2 := by
  rcases op.rows_run ids t with ⟨hnone, id, -, hrows, hrow⟩ | ⟨c, hfound, h⟩
  · obtain ⟨hc, hexact, hsettled⟩ := op.new_found id
    have hno := op.found_eq_none.mp hnone
    rw [hrows, hrow]
    refine ⟨op.found_eq_some.mpr ⟨hc, t.rows, [], rfl, .inl ⟨hexact, fun r hr hcr => ?_⟩⟩, hsettled⟩
    exact absurd hcr (by simp [hno r hr])
  · rcases h with ⟨hsettled, hrun⟩ | ⟨-, hrow, hrows⟩
    · rw [hrun]
      exact ⟨hfound, hsettled⟩
    · obtain ⟨hc, before, after, hsplit, hfirst⟩ := op.found_eq_some.mp hfound
      obtain ⟨hc', hexact', hsettled'⟩ := op.settle_found c hc
      have hafter := Table.rows_updateMany_eq op.settle op.key_settle hsplit
      simp only [Table.updateMany, decide_eq_true_eq] at hafter
      rw [hrow, hrows, hafter]
      refine ⟨op.found_eq_some.mpr ⟨hc', before, after, rfl, ?_⟩, hsettled'⟩
      rcases hfirst with ⟨hexact, hno⟩ | ⟨hno, hnone⟩
      · exact .inl ⟨hexact' hexact, hno⟩
      · -- no row had the id; perhaps this one has it now
        have hnone' : ∀ r ∈ before, op.candidate r = true → op.exact r = false := fun r hr hcr =>
          absurd hcr (by simp [hnone r hr])
        cases hexact : op.exact (op.settle c) with
        | true => exact .inl ⟨rfl, hnone'⟩
        | false =>
          refine .inr ⟨fun r hr hcr => ?_, hnone⟩
          rcases List.mem_append.mp hr with hr | hr
          · exact hnone' r hr hcr
          · rcases List.mem_cons.mp hr with rfl | hr
            · exact hexact
            · exact hno r (by simp [hsplit, hr]) hcr

/-- The row of a run is in the table it leaves. -/
theorem mem_run (op : GetOrCreate ρ key) (ids : FreshIds) (t : Table ρ String key) :
    (op.run ids t).2 ∈ (op.run ids t).1 := by
  obtain ⟨-, before, after, hrows, -⟩ := op.found_eq_some.mp (op.settled_run ids t).1
  rw [← Table.mem_rows, hrows]
  exact List.mem_append_right _ List.mem_cons_self

/-- A run takes nothing from the rows that settling does not. -/
theorem exists_run {P : ρ → Prop} (hsettle : ∀ r, op.settled r = false → P r → P (op.settle r))
    (ids : FreshIds) {t : Table ρ String key} {id : String} (h : ∃ r ∈ t, key r = id ∧ P r) :
    ∃ r ∈ (op.run ids t).1, key r = id ∧ P r := by
  obtain ⟨r, hr, hkey, hp⟩ := h
  rcases op.rows_run ids t with ⟨-, new, -, hrows, -⟩ | ⟨c, hc, ⟨-, hrun⟩ | ⟨hmissing, -, hrows⟩⟩
  · refine ⟨r, ?_, hkey, hp⟩
    rw [← Table.mem_rows, hrows]
    exact List.mem_append_left _ hr
  · rw [hrun]
    exact ⟨r, hr, hkey, hp⟩
  · obtain ⟨-, before, after, hsplit, -⟩ := op.found_eq_some.mp hc
    have hmem : c ∈ t := by
      rw [← Table.mem_rows, hsplit]
      exact List.mem_append_right _ List.mem_cons_self
    have hafter : (if key r = key c then op.settle r else r) ∈ (op.run ids t).1 := by
      rw [← Table.mem_rows, hrows]
      exact List.mem_map_of_mem hr
    refine ⟨_, hafter, ?_⟩
    by_cases hsame : key r = key c
    · obtain rfl := Table.eq_of_key_eq hr hmem hsame
      rw [if_pos rfl]
      exact ⟨(op.key_settle r).trans hkey, hsettle r hmissing hp⟩
    · rw [if_neg hsame]
      exact ⟨hkey, hp⟩

/-! ## External ids -/

section ExternalId

variable (op) (externalId : ρ → Option String)

/-- The lookup is for one external id. What it creates gets it, and what has one keeps it. -/
structure IsFor (x : String) : Prop where
  new : ∀ id, externalId (op.new id) = some x
  exact : ∀ r, op.exact r = true ↔ externalId r = some x
  settle : ∀ r y, op.settled r = false → externalId r = some y → externalId (op.settle r) = some y

/-- A row without an external id gets it, too. -/
structure Claims (x : String) : Prop where
  new : ∀ id, externalId (op.new id) = some x
  exact : ∀ r, op.exact r = true ↔ externalId r = some x
  settled : ∀ r, op.settled r = (externalId r).isSome
  settle : ∀ r, externalId (op.settle r) = some x

/-- No candidate has the external id, but the row is one. -/
structure FallsBackOn (rows : List ρ) (c : ρ) : Prop where
  mem : c ∈ rows
  candidate : op.candidate c = true
  inexact : ∀ r ∈ rows, op.candidate r = true → op.exact r = false

variable {op externalId}

theorem fallsBackOn_of_found {rows : List ρ} {c : ρ} (hfound : op.found rows = some c)
    (hexact : op.exact c = false) : op.FallsBackOn rows c := by
  obtain ⟨hc, before, after, hrows, ⟨hexact', -⟩ | ⟨hnone, -⟩⟩ := op.found_eq_some.mp hfound
  · exact absurd (hexact.symm.trans hexact') (by simp)
  · refine ⟨?_, hc, hnone⟩
    rw [hrows]
    exact List.mem_append_right _ List.mem_cons_self

/-- **The row of a run has the external id, unless the lookup falls back on it.** -/
theorem IsFor.run_or_fallsBack {x : String} (h : op.IsFor externalId x) (ids : FreshIds)
    (t : Table ρ String key) :
    externalId (op.run ids t).2 = some x ∨
      ∃ c, op.FallsBackOn t.rows c ∧ key c = key (op.run ids t).2 := by
  rcases op.rows_run ids t with
    ⟨-, id, -, -, hrow⟩ | ⟨c, hfound, ⟨hsettled, hrun⟩ | ⟨hmissing, hrow, -⟩⟩
  · rw [hrow]
    exact .inl (h.new id)
  · rw [hrun]
    cases hexact : op.exact c with
    | true => exact .inl ((h.exact c).mp hexact)
    | false => exact .inr ⟨c, fallsBackOn_of_found hfound hexact, rfl⟩
  · rw [hrow]
    cases hexact : op.exact c with
    | true => exact .inl (h.settle c x hmissing ((h.exact c).mp hexact))
    | false => exact .inr ⟨c, fallsBackOn_of_found hfound hexact, (op.key_settle c).symm⟩

theorem Claims.isFor {x : String} (h : op.Claims externalId x) : op.IsFor externalId x where
  new := h.new
  exact := h.exact
  settle r y hmissing hy := by
    rw [h.settled, hy] at hmissing
    cases hmissing

/-- Where rows are claimed, it is another's. -/
theorem Claims.run_or_fallsBack {x : String} (h : op.Claims externalId x) (ids : FreshIds)
    (t : Table ρ String key) :
    externalId (op.run ids t).2 = some x ∨
      ∃ c, op.FallsBackOn t.rows c ∧ key c = key (op.run ids t).2 ∧
        (externalId c).isSome = true := by
  rcases op.rows_run ids t with
    ⟨-, id, -, -, hrow⟩ | ⟨c, hfound, ⟨hsettled, hrun⟩ | ⟨-, hrow, -⟩⟩
  · rw [hrow]
    exact .inl (h.new id)
  · rw [hrun]
    cases hexact : op.exact c with
    | true => exact .inl ((h.exact c).mp hexact)
    | false =>
      exact .inr ⟨c, fallsBackOn_of_found hfound hexact, rfl, (h.settled c).symm.trans hsettled⟩
  · rw [hrow]
    exact .inl (h.settle c)

/-- A row keeps its external id, whichever the lookup is for. -/
theorem IsFor.keeps {x y id : String} (h : op.IsFor externalId x) (ids : FreshIds)
    {t : Table ρ String key} (hrow : ∃ r ∈ t, key r = id ∧ externalId r = some y) :
    ∃ r ∈ (op.run ids t).1, key r = id ∧ externalId r = some y :=
  exists_run (fun r => h.settle r y) ids hrow

end ExternalId

/-- What the other lookup writes is nothing to this one. -/
structure Apart (op op' : GetOrCreate ρ key) : Prop where
  new : ∀ id, op.candidate (op'.new id) = true → op.exact (op'.new id) = false
  settled : ∀ r, op'.candidate r = true → op'.settled r = false → op.settled r = false
  settle : ∀ r, op'.candidate r = true → op'.settled r = false →
    op.candidate (op'.settle r) = true →
      op.candidate r = true ∧ (op.exact (op'.settle r) = true → op.exact r = true)

/-- **A row that was looked up stays as it is found.** -/
theorem Settled.run {op' : GetOrCreate ρ key} {t : Table ρ String key} {c : ρ}
    (h : op.Settled t.rows c) (hop : op = op' ∨ op.Apart op') (ids : FreshIds) :
    op.Settled (op'.run ids t).1.rows c := by
  rcases hop with rfl | hapart
  · rw [run_of_settled h ids]
    exact h
  · rcases op'.rows_run ids t with ⟨-, id, -, hrows, -⟩ | ⟨d, hfound, hd⟩
    · rw [hrows]
      exact h.append (hapart.new id)
    · rcases hd with ⟨-, hrun⟩ | ⟨hmissing, -, hrows⟩
      · rw [hrun]
        exact h
      · obtain ⟨hd, before, after, hsplit, -⟩ := op'.found_eq_some.mp hfound
        have hmem : d ∈ t := by
          rw [← Table.mem_rows, hsplit]
          exact List.mem_append_right _ List.mem_cons_self
        rw [hrows]
        refine h.map (fun r hr hsettled => ?_) fun r hr hcandidate => ?_
        · rw [if_neg fun hkey => ?_]
          rw [Table.eq_of_key_eq hr hmem hkey, hapart.settled d hd hmissing] at hsettled
          exact absurd hsettled (by simp)
        · by_cases hkey : key r = key d
          · obtain rfl := Table.eq_of_key_eq hr hmem hkey
            rw [if_pos rfl] at hcandidate ⊢
            exact hapart.settle r hd hmissing hcandidate
          · rw [if_neg hkey] at hcandidate ⊢
            exact ⟨hcandidate, id⟩

/-! ## Where there may be nothing to look up -/

def runOption (op? : Option (GetOrCreate ρ key)) (ids : FreshIds) (t : Table ρ String key) :
    Table ρ String key × Option ρ :=
  match op? with
  | none => (t, none)
  | some op => ((op.run ids t).1, some (op.run ids t).2)

theorem runOption_eq_some {op? : Option (GetOrCreate ρ key)} {ids : FreshIds}
    {t : Table ρ String key} {r : ρ} :
    (runOption op? ids t).2 = some r ↔ ∃ op, op? = some op ∧ (op.run ids t).2 = r := by
  cases op? with
  | none => simp [runOption]
  | some op => simp [runOption]

theorem runOption_keeps {externalId : ρ → Option String} {op? : Option (GetOrCreate ρ key)}
    (hop : ∀ op, op? = some op → ∃ x, op.IsFor externalId x) (ids : FreshIds)
    {t : Table ρ String key} {y id : String} (h : ∃ r ∈ t, key r = id ∧ externalId r = some y) :
    ∃ r ∈ (runOption op? ids t).1, key r = id ∧ externalId r = some y := by
  cases op? with
  | none => exact h
  | some op =>
    obtain ⟨x, hfor⟩ := hop op rfl
    exact hfor.keeps ids h

/-- What a lookup comes to, with nothing left to do. -/
def Done (op? : Option (GetOrCreate ρ key)) (rows : List ρ) (result : Option ρ) : Prop :=
  match op? with
  | none => result = none
  | some op => ∃ c, result = some c ∧ op.Settled rows c

theorem done_runOption (op? : Option (GetOrCreate ρ key)) (ids : FreshIds)
    (t : Table ρ String key) : Done op? (runOption op? ids t).1.rows (runOption op? ids t).2 := by
  cases op? with
  | none => rfl
  | some op => exact ⟨_, rfl, op.settled_run ids t⟩

theorem runOption_of_done {op? : Option (GetOrCreate ρ key)} {t : Table ρ String key}
    {result : Option ρ} (h : Done op? t.rows result) (ids : FreshIds) :
    runOption op? ids t = (t, result) := by
  cases op? with
  | none =>
    obtain rfl : result = none := h
    rfl
  | some op =>
    obtain ⟨c, rfl, hc⟩ := h
    rw [runOption, run_of_settled hc ids]

theorem Done.runOption {op? op?' : Option (GetOrCreate ρ key)} {t : Table ρ String key}
    {result : Option ρ} (h : Done op? t.rows result)
    (hop : ∀ op ∈ op?, ∀ op' ∈ op?', op = op' ∨ op.Apart op') (ids : FreshIds) :
    Done op? (GetOrCreate.runOption op?' ids t).1.rows result := by
  cases op?' with
  | none => exact h
  | some op' =>
    cases op? with
    | none => exact h
    | some op =>
      obtain ⟨c, hresult, hc⟩ := h
      exact ⟨c, hresult, hc.run (hop op rfl op' rfl) ids⟩

theorem Done.append {op? : Option (GetOrCreate ρ key)} {rows : List ρ} {result : Option ρ}
    (h : Done op? rows result) {r : ρ} (hr : ∀ op ∈ op?, op.exact r = false) :
    Done op? (rows ++ [r]) result := by
  cases op? with
  | none => exact h
  | some op =>
    obtain ⟨c, hresult, hc⟩ := h
    exact ⟨c, hresult, hc.append fun _ => hr op rfl⟩

end GetOrCreate

end ShieldApi
