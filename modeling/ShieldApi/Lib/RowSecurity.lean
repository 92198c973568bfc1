import Mathlib.Data.List.Basic
import Mathlib.Data.List.Forall2
import Mathlib.Logic.Function.Basic

/-!
# Row security

A database whose tables carry **policies**: conditions on a row, in the three-valued logic
of SQL, that decide which rows a statement may see, which it may change and which it may
leave behind. The conditions are syntax (`Condition`), because two things are asked of them:
what they evaluate to, and what they can be *seen* to imply without evaluating them.

A condition may look into other tables, and looks at them through their own policies, so
`sees` is a recursion over how deep the policies refer to each other. Depth `0` is the case
a database refuses as an infinite recursion.

The theorem this file is for is `play_agree`: **where every policy confines a session to the
rows of a guard, the answers a program gets depend on those rows only, and the rows it
leaves agree wherever they agreed before**, for any program, also one that chooses its next
statement by the answers so far.
-/

set_option autoImplicit false

namespace ShieldApi.RowSecurity

/-! ## 1. Truth -/

/-- A truth value of SQL, `none` where the answer is unknown. -/
abbrev Truth : Type := Option Bool

namespace Truth

def not (a : Truth) : Truth := a.map fun b => !b

def and (a b : Truth) : Truth :=
  if a = some false ∨ b = some false then some false
  else if a = some true ∧ b = some true then some true
  else none

def or (a b : Truth) : Truth := (a.not.and b.not).not

@[simp] theorem and_eq_true {a b : Truth} :
    a.and b = some true ↔ a = some true ∧ b = some true := by
  unfold Truth.and
  split_ifs with h h'
  · constructor
    · simp
    · rintro ⟨rfl, rfl⟩
      simp at h
  · simp [h']
  · simp [h']

@[simp] theorem not_eq_true {a : Truth} : a.not = some true ↔ a = some false := by
  cases a with
  | none => simp [Truth.not]
  | some b => cases b <;> simp [Truth.not]

@[simp] theorem not_eq_false {a : Truth} : a.not = some false ↔ a = some true := by
  cases a with
  | none => simp [Truth.not]
  | some b => cases b <;> simp [Truth.not]

@[simp] theorem or_eq_true {a b : Truth} :
    a.or b = some true ↔ a = some true ∨ b = some true := by
  rw [Truth.or, not_eq_true, Truth.and]
  split_ifs with h h'
  · simpa using h
  · simpa using h
  · simpa using h

end Truth

/-! ## 2. Conditions -/

section
variable {τ κ ν φ α : Type}

/-- A row of a table with columns `κ`: what each column holds. -/
abbrev Row (κ ν : Type) : Type := κ → ν

inductive Operand (κ ν : Type)
  /-- A column of the row that is `level` tables out, `0` being the innermost. -/
  | column (level : Nat) (name : κ)
  | literal (value : ν)
  deriving DecidableEq, Repr

def Operand.value [Inhabited ν] (env : List (Row κ ν)) : Operand κ ν → ν
  | .column level name => (env[level]?.map fun r => r name).getD default
  | .literal value => value

inductive Condition (τ κ ν φ : Type)
  | call (f : φ) (args : List (Operand κ ν))
  | not (c : Condition τ κ ν φ)
  | and (c d : Condition τ κ ν φ)
  | or (c d : Condition τ κ ν φ)
  /-- `EXISTS (SELECT 1 FROM table WHERE c)`; two of them nested are a join. -/
  | existsIn (table : τ) (c : Condition τ κ ν φ)
  deriving DecidableEq, Repr

/-- What a session sees of each table. -/
abbrev View (τ κ ν : Type) : Type := τ → List (Row κ ν)

namespace Condition

def eval [Inhabited ν] (call : φ → List ν → Truth) (view : View τ κ ν) :
    List (Row κ ν) → Condition τ κ ν φ → Truth
  | env, .call f args => call f (args.map (·.value env))
  | env, .not c => (c.eval call view env).not
  | env, .and c d => (c.eval call view env).and (d.eval call view env)
  | env, .or c d => (c.eval call view env).or (d.eval call view env)
  | env, .existsIn t c => some ((view t).any fun r => c.eval call view (r :: env) = some true)

/-- The condition, under tables `env`, refers to a column of `t` that is among `columns`. -/
def mentions [DecidableEq τ] [DecidableEq κ] (t : τ) (columns : List κ) :
    List τ → Condition τ κ ν φ → Bool
  | env, .call _ args => args.any fun a => match a with
    | .column level name => env[level]? = some t && columns.contains name
    | .literal _ => false
  | env, .not c => c.mentions t columns env
  | env, .and c d => c.mentions t columns env || d.mentions t columns env
  | env, .or c d => c.mentions t columns env || d.mentions t columns env
  | env, .existsIn t' c => c.mentions t columns (t' :: env)

/-- The condition cannot hold unless one of the `known` calls in it does. What is known of a call
    may depend on how many tables deep it stands. -/
def rests (known : Nat → φ → List (Operand κ ν) → Bool) : Nat → Condition τ κ ν φ → Bool
  | level, .call f args => known level f args
  | _, .not _ => false
  | level, .and c d => c.rests known level || d.rests known level
  | level, .or c d => c.rests known level && d.rests known level
  | level, .existsIn _ c => c.rests known (level + 1)

/-- The tables the condition looks into. -/
def tables : Condition τ κ ν φ → List τ
  | .call _ _ => []
  | .not c => c.tables
  | .and c d => c.tables ++ d.tables
  | .or c d => c.tables ++ d.tables
  | .existsIn t c => t :: c.tables

theorem eval_congr [Inhabited ν] {call : φ → List ν → Truth} {view₁ view₂ : View τ κ ν}
    {c : Condition τ κ ν φ} (h : ∀ t ∈ c.tables, view₁ t = view₂ t) (env : List (Row κ ν)) :
    c.eval call view₁ env = c.eval call view₂ env := by
  induction c generalizing env with
  | call f args => rfl
  | not c ih => simp only [eval, ih h]
  | and c d ihc ihd =>
    have hc := fun t ht => h t (List.mem_append_left d.tables ht)
    have hd := fun t ht => h t (List.mem_append_right c.tables ht)
    simp only [eval, ihc hc, ihd hd]
  | or c d ihc ihd =>
    have hc := fun t ht => h t (List.mem_append_left d.tables ht)
    have hd := fun t ht => h t (List.mem_append_right c.tables ht)
    simp only [eval, ihc hc, ihd hd]
  | existsIn t c ih =>
    have hc := fun t' ht' => h t' (List.mem_cons_of_mem t ht')
    simp only [eval, h t List.mem_cons_self, ih hc]

/-- **What every `known` call implies, a condition that rests on them implies.** -/
theorem of_rests [Inhabited ν] {call : φ → List ν → Truth} {view : View τ κ ν}
    {env : List (Row κ ν)} {known : Nat → φ → List (Operand κ ν) → Bool} {P : Prop}
    (hknown : ∀ (inner : List (Row κ ν)) (f : φ) (args : List (Operand κ ν)),
      known inner.length f args = true →
      call f (args.map (·.value (inner ++ env))) = some true → P)
    {c : Condition τ κ ν φ} (inner : List (Row κ ν)) (hc : c.rests known inner.length = true)
    (heval : c.eval call view (inner ++ env) = some true) : P := by
  induction c generalizing inner with
  | call f args => exact hknown inner f args hc heval
  | not c ih => exact absurd hc (by simp [rests])
  | and c d ihc ihd =>
    have h := Truth.and_eq_true.mp heval
    rcases Bool.or_eq_true_iff.mp hc with hc | hd
    · exact ihc inner hc h.1
    · exact ihd inner hd h.2
  | or c d ihc ihd =>
    have hcd := Bool.and_eq_true_iff.mp hc
    rcases Truth.or_eq_true.mp heval with h | h
    · exact ihc inner hcd.1 h
    · exact ihd inner hcd.2 h
  | existsIn t c ih =>
    obtain ⟨r, -, hr⟩ := List.any_eq_true.mp (Option.some.inj heval)
    have hrow : c.eval call view ((r :: inner) ++ env) = some true := by simpa using hr
    exact ih (r :: inner) hc hrow

end Condition

/-! ## 3. Policies, and the statements that define them -/

inductive Command | select | insert | update | delete
  deriving DecidableEq, Repr

/-- A permissive policy. `command` is `none` for `FOR ALL`. -/
structure Policy (η τ κ ν φ : Type) where
  name : η
  command : Option Command := none
  usingExpr : Option (Condition τ κ ν φ) := none
  withCheck : Option (Condition τ κ ν φ) := none
  deriving DecidableEq, Repr

structure TableSecurity (η τ κ ν φ : Type) where
  enabled : Bool := false
  forced : Bool := false
  policies : List (Policy η τ κ ν φ) := []

variable {η : Type}

def Policy.appliesTo (p : Policy η τ κ ν φ) (cmd : Command) : Bool :=
  p.command = none || p.command = some cmd

def Policy.mentions [DecidableEq τ] [DecidableEq κ] (t : τ) (columns : List κ) (own : τ)
    (p : Policy η τ κ ν φ) : Bool :=
  (p.usingExpr.toList ++ p.withCheck.toList).any (·.mentions t columns [own])

namespace TableSecurity

/-- Statements run as the owner of the tables, whom policies bind once they are forced. -/
def secured (s : TableSecurity η τ κ ν φ) : Bool := s.enabled && s.forced

/-- The conditions, one of which a row has to meet for `cmd` to find it. -/
def existing (s : TableSecurity η τ κ ν φ) (cmd : Command) : List (Condition τ κ ν φ) :=
  (s.policies.filter (·.appliesTo cmd)).flatMap (·.usingExpr.toList)

/-- The conditions, one of which a row has to meet for `cmd` to leave it behind. -/
def proposed (s : TableSecurity η τ κ ν φ) (cmd : Command) : List (Condition τ κ ν φ) :=
  (s.policies.filter (·.appliesTo cmd)).flatMap fun p => (p.withCheck <|> p.usingExpr).toList

end TableSecurity

abbrev SecurityCatalog (η τ κ ν φ : Type) : Type := τ → TableSecurity η τ κ ν φ

/-- The statements of a migration that policies depend on. -/
inductive Ddl (η τ κ ν φ : Type)
  | enableRowSecurity (t : τ)
  | forceRowSecurity (t : τ)
  | createPolicy (t : τ) (p : Policy η τ κ ν φ)
  | dropPolicyIfExists (t : τ) (name : η)
  /-- `DROP COLUMN ... CASCADE`, which takes the policies that refer to the column along. -/
  | dropColumnsCascade (t : τ) (columns : List κ)
  | dropTable (t : τ)

section
variable [DecidableEq η] [DecidableEq τ] [DecidableEq κ]

namespace SecurityCatalog

def alter (cat : SecurityCatalog η τ κ ν φ) (t : τ)
    (f : TableSecurity η τ κ ν φ → TableSecurity η τ κ ν φ) : SecurityCatalog η τ κ ν φ :=
  fun t' => if t' = t then f (cat t') else cat t'

/-- One statement; a second policy of one name is an error. -/
def apply (cat : SecurityCatalog η τ κ ν φ) : Ddl η τ κ ν φ → Option (SecurityCatalog η τ κ ν φ)
  | .enableRowSecurity t => some (cat.alter t fun s => { s with enabled := true })
  | .forceRowSecurity t => some (cat.alter t fun s => { s with forced := true })
  | .createPolicy t p =>
    if (cat t).policies.any (·.name = p.name) then none
    else some (cat.alter t fun s => { s with policies := s.policies ++ [p] })
  | .dropPolicyIfExists t name =>
    some (cat.alter t fun s => { s with policies := s.policies.filter (·.name ≠ name) })
  | .dropColumnsCascade t columns =>
    some fun t' =>
      { cat t' with policies := (cat t').policies.filter fun p => !p.mentions t columns t' }
  | .dropTable t => some (cat.alter t fun _ => {})

def migrate (cat : SecurityCatalog η τ κ ν φ) :
    List (Ddl η τ κ ν φ) → Option (SecurityCatalog η τ κ ν φ)
  | [] => some cat
  | d :: ds => (cat.apply d).bind fun cat' => cat'.migrate ds

omit [DecidableEq η] [DecidableEq κ] in
theorem alter_apply (cat : SecurityCatalog η τ κ ν φ) (t t' : τ)
    (f : TableSecurity η τ κ ν φ → TableSecurity η τ κ ν φ) :
    cat.alter t f t' = if t' = t then f (cat t') else cat t' := rfl

/-- A policy of a table was there before the statement, or is the one it creates. -/
theorem created_of_apply {cat cat' : SecurityCatalog η τ κ ν φ} {d : Ddl η τ κ ν φ} {t : τ}
    {p : Policy η τ κ ν φ} (h : cat.apply d = some cat') (hp : p ∈ (cat' t).policies) :
    p ∈ (cat t).policies ∨ d = .createPolicy t p := by
  cases d with
  | createPolicy t' q =>
    rw [apply] at h
    split at h
    · exact absurd h (by simp)
    · obtain rfl := Option.some.inj h
      rw [alter_apply] at hp
      split at hp
      · next heq =>
        obtain hold | hnew := List.mem_append.mp hp
        · exact .inl hold
        · exact .inr (by rw [heq, List.mem_singleton.mp hnew])
      · exact .inl hp
  | enableRowSecurity t' | forceRowSecurity t' =>
    obtain rfl := Option.some.inj h
    rw [alter_apply] at hp
    split at hp <;> exact .inl hp
  | dropPolicyIfExists t' name =>
    obtain rfl := Option.some.inj h
    rw [alter_apply] at hp
    split at hp
    · exact .inl (List.mem_filter.mp hp).1
    · exact .inl hp
  | dropColumnsCascade t' columns =>
    obtain rfl := Option.some.inj h
    exact .inl (List.mem_filter.mp hp).1
  | dropTable t' =>
    obtain rfl := Option.some.inj h
    rw [alter_apply] at hp
    split at hp
    · exact absurd hp List.not_mem_nil
    · exact .inl hp

/-- The policies of a table are those a migration created for it. -/
theorem created_of_migrate {cat cat' : SecurityCatalog η τ κ ν φ} {ds : List (Ddl η τ κ ν φ)}
    {t : τ} {p : Policy η τ κ ν φ} (h : cat.migrate ds = some cat')
    (hp : p ∈ (cat' t).policies) : p ∈ (cat t).policies ∨ Ddl.createPolicy t p ∈ ds := by
  induction ds generalizing cat with
  | nil =>
    obtain rfl := Option.some.inj h
    exact .inl hp
  | cons d ds ih =>
    obtain ⟨cat₁, hd, hds⟩ := Option.bind_eq_some_iff.mp h
    obtain hfirst | hrest := ih hds
    · obtain hold | rfl := created_of_apply hd hfirst
      · exact .inl hold
      · exact .inr List.mem_cons_self
    · exact .inr (List.mem_cons_of_mem d hrest)

end SecurityCatalog

/-- What a statement that runs makes of the policies of `t`. -/
def TableSecurity.after (t : τ) (s : TableSecurity η τ κ ν φ) :
    Ddl η τ κ ν φ → TableSecurity η τ κ ν φ
  | .enableRowSecurity t' => if t = t' then { s with enabled := true } else s
  | .forceRowSecurity t' => if t = t' then { s with forced := true } else s
  | .createPolicy t' p => if t = t' then { s with policies := s.policies ++ [p] } else s
  | .dropPolicyIfExists t' name =>
    if t = t' then { s with policies := s.policies.filter (·.name ≠ name) } else s
  | .dropColumnsCascade t' columns =>
    { s with policies := s.policies.filter fun p => !p.mentions t' columns t }
  | .dropTable t' => if t = t' then {} else s

namespace SecurityCatalog

theorem apply_at {cat cat' : SecurityCatalog η τ κ ν φ} {d : Ddl η τ κ ν φ}
    (h : cat.apply d = some cat') (t : τ) : cat' t = (cat t).after t d := by
  cases d with
  | createPolicy t' p =>
    rw [apply] at h
    split at h
    · exact absurd h (by simp)
    · obtain rfl := Option.some.inj h
      rfl
  | enableRowSecurity t' | forceRowSecurity t' | dropPolicyIfExists t' name
  | dropColumnsCascade t' columns | dropTable t' =>
    obtain rfl := Option.some.inj h
    rfl

/-- A migration that runs can be followed on one table alone. -/
theorem migrate_at {cat cat' : SecurityCatalog η τ κ ν φ} {ds : List (Ddl η τ κ ν φ)}
    (h : cat.migrate ds = some cat') (t : τ) :
    cat' t = ds.foldl (TableSecurity.after t) (cat t) := by
  induction ds generalizing cat with
  | nil =>
    obtain rfl := Option.some.inj h
    rfl
  | cons d ds ih =>
    obtain ⟨cat₁, hd, hds⟩ := Option.bind_eq_some_iff.mp h
    rw [List.foldl_cons, ← apply_at hd, ih hds]

end SecurityCatalog

end

/-! ## 4. What a session sees, and what its statements do -/

/-- The rows of each table. -/
abbrev Database (τ κ ν : Type) : Type := τ → List (Row κ ν)

/-- A session: the policies, what their functions answer in it, and how deep the policies
    refer to each other. -/
structure Session (η τ κ ν φ : Type) where
  catalog : SecurityCatalog η τ κ ν φ
  call : φ → List ν → Truth
  depth : Nat

namespace Session

variable [Inhabited ν] (s : Session η τ κ ν φ) (db : Database τ κ ν)

/-- One of the conditions holds of the row. -/
def meets (view : View τ κ ν) (conditions : List (Condition τ κ ν φ)) (r : Row κ ν) : Bool :=
  conditions.any fun c => c.eval s.call view [r] = some true

/-- The rows a condition at this depth finds in a table. -/
def sees : Nat → τ → Row κ ν → Bool
  | 0, t, _ => !(s.catalog t).secured
  | n + 1, t, r =>
    !(s.catalog t).secured ||
      s.meets (fun t' => (db t').filter (sees n t')) ((s.catalog t).existing .select) r

def view : View τ κ ν := fun t => (db t).filter (s.sees db s.depth t)

/-- `cmd` finds the row. -/
def finds (cmd : Command) (t : τ) (r : Row κ ν) : Bool :=
  !(s.catalog t).secured || s.meets (s.view db) ((s.catalog t).existing cmd) r

/-- `cmd` may leave the row behind. -/
def leaves (cmd : Command) (t : τ) (r : Row κ ν) : Bool :=
  !(s.catalog t).secured || s.meets (s.view db) ((s.catalog t).proposed cmd) r

end Session

/-- A statement. Its `WHERE` and its values may be computed from anything the session sees;
    `reads` says that they, or a `RETURNING`, need the rows themselves to be visible. -/
inductive RowStatement (τ κ ν α : Type)
  | read (query : View τ κ ν → α)
  | insert (t : τ) (rows : View τ κ ν → List (Row κ ν)) (reads : Bool)
  | update (t : τ) (filter : View τ κ ν → Row κ ν → Bool)
      (set : View τ κ ν → Row κ ν → Row κ ν) (reads : Bool)
  | delete (t : τ) (filter : View τ κ ν → Row κ ν → Bool) (reads : Bool)

inductive Outcome (κ ν α : Type)
  | answer (a : α)
  /-- The rows written or removed. -/
  | changed (rows : List (Row κ ν))
  /-- A row that no policy lets the statement leave behind: the statement fails. -/
  | refused
  /-- The transaction was committed, or rolled back. -/
  | ended

def RowStatement.table? : RowStatement τ κ ν α → Option τ
  | .read _ => none
  | .insert t _ _ => some t
  | .update t _ _ _ => some t
  | .delete t _ _ => some t

section
variable [DecidableEq τ]

def Database.write (db : Database τ κ ν) (t : τ) (rows : List (Row κ ν)) : Database τ κ ν :=
  fun t' => if t' = t then rows else db t'

namespace Session

variable [Inhabited ν] (s : Session η τ κ ν φ) (db : Database τ κ ν)

/-- The rows a writing statement works on. -/
def targets (cmd : Command) (t : τ) (filter : View τ κ ν → Row κ ν → Bool) (reads : Bool)
    (r : Row κ ν) : Bool :=
  s.finds db cmd t r && (!reads || s.finds db .select t r) && filter (s.view db) r

/-- The row may stand in the table after a writing statement. -/
def admits (cmd : Command) (t : τ) (reads : Bool) (r : Row κ ν) : Bool :=
  s.leaves db cmd t r && (!reads || s.finds db .select t r)

def exec : RowStatement τ κ ν α → Outcome κ ν α × Database τ κ ν
  | .read query => (.answer (query (s.view db)), db)
  | .insert t rows reads =>
    let new := rows (s.view db)
    if new.all (s.admits db .insert t reads) then (.changed new, db.write t (db t ++ new))
    else (.refused, db)
  | .update t filter set reads =>
    let target := s.targets db .update t filter reads
    let new := ((db t).filter target).map (set (s.view db))
    if new.all (s.admits db .update t reads) then
      (.changed new, db.write t ((db t).map fun r => if target r then set (s.view db) r else r))
    else (.refused, db)
  | .delete t filter reads =>
    let target := s.targets db .delete t filter reads
    (.changed ((db t).filter target), db.write t ((db t).filter fun r => !target r))

end Session

/-- What a program does next. -/
inductive Action (S Q : Type)
  | send (session : S) (statement : Q)
  | commit
  | rollback
  deriving DecidableEq, Repr

def Action.mapSession {S S' Q : Type} (f : S → S') : Action S Q → Action S' Q
  | .send session statement => .send (f session) statement
  | .commit => .commit
  | .rollback => .rollback

/-- A program: what it does next, by the outcomes so far, the latest first. -/
abbrev Program (η τ κ ν φ α : Type) : Type :=
  List (Outcome κ ν α) → Option (Action (Session η τ κ ν φ) (RowStatement τ κ ν α))

/-- The outcomes and the database after at most `n` actions; `saved` is the database a rollback
    goes back to. -/
def play [Inhabited ν] (next : Program η τ κ ν φ α) :
    Nat → List (Outcome κ ν α) → (saved db : Database τ κ ν) →
      List (Outcome κ ν α) × Database τ κ ν
  | 0, past, _, db => (past, db)
  | n + 1, past, saved, db =>
    match next past with
    | none => (past, db)
    | some (.send s st) => play next n ((s.exec db st).1 :: past) saved (s.exec db st).2
    | some .commit => play next n (.ended :: past) db db
    | some .rollback => play next n (.ended :: past) saved saved

end

/-! ## 5. Confined sessions -/

theorem filter_of_imp {α : Type} {p q : α → Bool} (h : ∀ a, q a = true → p a = true)
    (l : List α) : l.filter q = (l.filter p).filter q := by
  rw [List.filter_filter]
  congr 1
  funext a
  cases hq : q a with
  | false => rfl
  | true => simp [h a hq]

section
variable [Inhabited ν] {G W : τ → Row κ ν → Bool}

/-- The session sees rows of the guard `G` only, and changes and leaves rows of `W` only. -/
structure Confined (G W : τ → Row κ ν → Bool) (s : Session η τ κ ν φ) : Prop where
  sees : ∀ db n t r, s.sees db n t r = true → G t r = true
  finds : ∀ db cmd t r, cmd ≠ .select → s.finds db cmd t r = true → W t r = true
  leaves : ∀ db cmd t r, cmd ≠ .select → s.leaves db cmd t r = true → W t r = true
  within : ∀ t r, W t r = true → G t r = true

/-- The two databases have the same rows of the guard. -/
def AgreeOn (G : τ → Row κ ν → Bool) (db₁ db₂ : Database τ κ ν) : Prop :=
  ∀ t, (db₁ t).filter (G t) = (db₂ t).filter (G t)

/-- **A depth that is enough.** Where the conditions for reading a table look only into tables of
    lower rank, any depth beyond the rank of a table shows the same rows of it. -/
theorem Session.sees_of_rank (s : Session η τ κ ν φ) (db : Database τ κ ν) (rank : τ → Nat)
    (hrank : ∀ t, ∀ c ∈ (s.catalog t).existing .select, ∀ t' ∈ c.tables, rank t' < rank t) :
    ∀ (n : Nat) (t : τ), rank t < n → s.sees db (n + 1) t = s.sees db n t
  | 0, t, h => absurd h (Nat.not_lt_zero _)
  | n + 1, t, h => by
    have hmeets : ∀ r, s.meets (fun t' => (db t').filter (s.sees db (n + 1) t'))
        ((s.catalog t).existing .select) r =
        s.meets (fun t' => (db t').filter (s.sees db n t')) ((s.catalog t).existing .select) r := by
      intro r
      unfold Session.meets
      rw [Bool.eq_iff_iff, List.any_eq_true, List.any_eq_true]
      refine exists_congr fun c => and_congr_right fun hc => ?_
      have hview : ∀ t' ∈ c.tables,
          (db t').filter (s.sees db (n + 1) t') = (db t').filter (s.sees db n t') := by
        intro t' ht'
        have hlt := hrank t c hc t' ht'
        rw [sees_of_rank s db rank hrank n t' (by omega)]
      rw [Condition.eval_congr hview]
    funext r
    rw [Session.sees, Session.sees, hmeets]

/-- Each of the conditions rests on known calls. -/
def allRest (known : Nat → φ → List (Operand κ ν) → Bool)
    (conditions : List (Condition τ κ ν φ)) : Bool :=
  conditions.all (·.rests known 0)

theorem Session.meets_of_rests {s : Session η τ κ ν φ} {view : View τ κ ν} {r : Row κ ν}
    {conditions : List (Condition τ κ ν φ)} {known : Nat → φ → List (Operand κ ν) → Bool}
    {P : Prop} (hrests : allRest known conditions = true)
    (hknown : ∀ (inner : List (Row κ ν)) (f : φ) (args : List (Operand κ ν)),
      known inner.length f args = true →
      s.call f (args.map (·.value (inner ++ [r]))) = some true → P)
    (h : s.meets view conditions r = true) : P := by
  obtain ⟨c, hc, heval⟩ := List.any_eq_true.mp h
  have heval' : c.eval s.call view ([] ++ [r]) = some true := by simpa using heval
  exact Condition.of_rests hknown [] (List.all_eq_true.mp hrests c hc) heval'

/-- **A session is confined where its policies can be seen to be**: each condition on a table
    that is not open to everybody rests on calls that imply the guard. -/
theorem confined_of_rests {s : Session η τ κ ν φ} (isOpen : τ → Bool)
    {knownG knownW : τ → Nat → φ → List (Operand κ ν) → Bool}
    (hopen : ∀ t, isOpen t = true → ∀ r, W t r = true)
    (hsecured : ∀ t, isOpen t = false → (s.catalog t).secured = true)
    (hselect : ∀ t, isOpen t = false →
      allRest (knownG t) ((s.catalog t).existing .select) = true)
    (hexisting : ∀ t, isOpen t = false → ∀ cmd, cmd ≠ .select →
      allRest (knownW t) ((s.catalog t).existing cmd) = true)
    (hproposed : ∀ t, isOpen t = false → ∀ cmd, cmd ≠ .select →
      allRest (knownW t) ((s.catalog t).proposed cmd) = true)
    (hG : ∀ t, isOpen t = false → ∀ (r : Row κ ν) (inner : List (Row κ ν)) (f : φ)
      (args : List (Operand κ ν)), knownG t inner.length f args = true →
      s.call f (args.map (·.value (inner ++ [r]))) = some true → G t r = true)
    (hW : ∀ t, isOpen t = false → ∀ (r : Row κ ν) (inner : List (Row κ ν)) (f : φ)
      (args : List (Operand κ ν)), knownW t inner.length f args = true →
      s.call f (args.map (·.value (inner ++ [r]))) = some true → W t r = true)
    (hwithin : ∀ t r, W t r = true → G t r = true) : Confined G W s := by
  refine ⟨fun db n t r h => ?_, fun db cmd t r hcmd h => ?_, fun db cmd t r hcmd h => ?_,
    hwithin⟩
  · cases ht : isOpen t with
    | true => exact hwithin t r (hopen t ht r)
    | false =>
      cases n with
      | zero => exact absurd h (by simp [Session.sees, hsecured t ht])
      | succ n =>
        simp only [Session.sees, hsecured t ht, Bool.not_true, Bool.false_or] at h
        exact Session.meets_of_rests (hselect t ht) (hG t ht r) h
  · cases ht : isOpen t with
    | true => exact hopen t ht r
    | false =>
      simp only [Session.finds, hsecured t ht, Bool.not_true, Bool.false_or] at h
      exact Session.meets_of_rests (hexisting t ht cmd hcmd) (hW t ht r) h
  · cases ht : isOpen t with
    | true => exact hopen t ht r
    | false =>
      simp only [Session.leaves, hsecured t ht, Bool.not_true, Bool.false_or] at h
      exact Session.meets_of_rests (hproposed t ht cmd hcmd) (hW t ht r) h

omit [Inhabited ν] in
theorem AgreeOn.filter_eq {db₁ db₂ : Database τ κ ν} (h : AgreeOn G db₁ db₂) {t : τ}
    {q : Row κ ν → Bool} (hq : ∀ r, q r = true → G t r = true) :
    (db₁ t).filter q = (db₂ t).filter q := by
  rw [filter_of_imp hq, h t, ← filter_of_imp hq]

namespace Confined

variable {s : Session η τ κ ν φ} {db db₁ db₂ : Database τ κ ν}

theorem sees_congr (hs : Confined G W s) (h : AgreeOn G db₁ db₂) (n : Nat) :
    s.sees db₁ n = s.sees db₂ n := by
  induction n with
  | zero => rfl
  | succ n ih =>
    have hview : (fun t => (db₁ t).filter (s.sees db₁ n t)) =
        fun t => (db₂ t).filter (s.sees db₂ n t) := by
      funext t
      rw [← ih]
      exact h.filter_eq (hs.sees db₁ n t)
    funext t r
    simp only [Session.sees, hview]

theorem view_congr (hs : Confined G W s) (h : AgreeOn G db₁ db₂) : s.view db₁ = s.view db₂ := by
  funext t
  unfold Session.view
  rw [← hs.sees_congr h]
  exact h.filter_eq (hs.sees db₁ s.depth t)

theorem targets_congr (hs : Confined G W s) (h : AgreeOn G db₁ db₂) :
    s.targets db₁ = s.targets db₂ := by
  funext cmd t filter reads r
  simp only [Session.targets, Session.finds, hs.view_congr h]

theorem admits_congr (hs : Confined G W s) (h : AgreeOn G db₁ db₂) :
    s.admits db₁ = s.admits db₂ := by
  funext cmd t reads r
  simp only [Session.admits, Session.finds, Session.leaves, hs.view_congr h]

theorem of_targets (hs : Confined G W s) {cmd : Command} (hcmd : cmd ≠ .select) {t : τ}
    {filter : View τ κ ν → Row κ ν → Bool} {reads : Bool} {r : Row κ ν}
    (h : s.targets db cmd t filter reads r = true) : W t r = true := by
  simp only [Session.targets, Bool.and_eq_true] at h
  exact hs.finds db cmd t r hcmd h.1.1

theorem of_admits (hs : Confined G W s) {cmd : Command} (hcmd : cmd ≠ .select) {t : τ}
    {reads : Bool} {r : Row κ ν} (h : s.admits db cmd t reads r = true) : W t r = true := by
  simp only [Session.admits, Bool.and_eq_true] at h
  exact hs.leaves db cmd t r hcmd h.1

end Confined

end

/-! ## 6. What a statement of a confined session does -/

section
variable [Inhabited ν] [DecidableEq τ] {G W : τ → Row κ ν → Bool} {s : Session η τ κ ν φ}
  {db db₁ db₂ : Database τ κ ν}

omit [Inhabited ν] in
@[simp] theorem Database.write_same (t : τ) (rows : List (Row κ ν)) : db.write t rows t = rows :=
  if_pos rfl

omit [Inhabited ν] in
theorem Database.write_other {t t' : τ} (h : t' ≠ t) (rows : List (Row κ ν)) :
    db.write t rows t' = db t' :=
  if_neg h

omit [Inhabited ν] in
theorem AgreeOn.write (h : AgreeOn G db₁ db₂) {t : τ} {rows₁ rows₂ : List (Row κ ν)}
    (hrows : rows₁.filter (G t) = rows₂.filter (G t)) :
    AgreeOn G (db₁.write t rows₁) (db₂.write t rows₂) := by
  intro t'
  by_cases ht : t' = t
  · subst ht
    simpa using hrows
  · rw [Database.write_other ht, Database.write_other ht]
    exact h t'

/-- Where the rows an update works on are in the guard before and after it, the guard and the
    update may be taken in either order. -/
theorem filter_map_update {α : Type} {p target : α → Bool} {f : α → α} :
    ∀ {l : List α}, (∀ a ∈ l, target a = true → p a = true ∧ p (f a) = true) →
      (l.map fun a => if target a then f a else a).filter p =
        (l.filter p).map fun a => if target a then f a else a
  | [], _ => rfl
  | a :: l, h => by
    have ih := filter_map_update fun b hb => h b (List.mem_cons_of_mem _ hb)
    rw [List.map_cons, List.filter_cons, List.filter_cons, ih]
    cases ht : target a with
    | true =>
      obtain ⟨hp, hf⟩ := h a List.mem_cons_self ht
      simp [hp, hf, ht]
    | false => cases hp : p a <;> simp [hp, ht]

theorem filter_delete {α : Type} (p target : α → Bool) (l : List α) :
    (l.filter fun a => !target a).filter p = (l.filter p).filter fun a => !target a := by
  rw [List.filter_filter, List.filter_filter]
  simp only [Bool.and_comm]

/-- **What an answer depends on.** In two databases with the same rows of the guard a statement
    has the same outcome, and leaves the same rows of the guard. -/
theorem Confined.exec_agree (hs : Confined G W s) (h : AgreeOn G db₁ db₂)
    (st : RowStatement τ κ ν α) :
    (s.exec db₁ st).1 = (s.exec db₂ st).1 ∧ AgreeOn G (s.exec db₁ st).2 (s.exec db₂ st).2 := by
  have htargets := hs.targets_congr h
  have hadmits := hs.admits_congr h
  have hview := hs.view_congr h
  cases st with
  | read query => exact ⟨by simp only [Session.exec, hview], h⟩
  | insert t rows reads =>
    simp only [Session.exec, hview, hadmits]
    split_ifs with hall
    · refine ⟨rfl, h.write ?_⟩
      rw [List.filter_append, List.filter_append, h t]
    · exact ⟨rfl, h⟩
  | update t filter set reads =>
    have hfound : (db₁ t).filter (s.targets db₂ .update t filter reads) =
        (db₂ t).filter (s.targets db₂ .update t filter reads) :=
      h.filter_eq fun r hr => hs.within t r (hs.of_targets (by decide) hr)
    simp only [Session.exec, hview, hadmits, htargets, hfound]
    split_ifs with hall
    · have hsame : ∀ r, s.targets db₂ .update t filter reads r = true →
          r ∈ db₂ t → G t r = true ∧ G t (set (s.view db₂) r) = true := by
        intro r hr hmem
        refine ⟨hs.within t r (hs.of_targets (by decide) hr), ?_⟩
        have hnew := List.all_eq_true.mp hall _
          (List.mem_map_of_mem (List.mem_filter.mpr ⟨hmem, hr⟩))
        exact hs.within t _ (hs.of_admits (by decide) hnew)
      refine ⟨rfl, h.write ?_⟩
      rw [filter_map_update, filter_map_update fun r hmem hr => hsame r hr hmem, h t]
      intro r hmem hr
      have hmem₂ : r ∈ (db₂ t).filter (s.targets db₂ .update t filter reads) :=
        hfound ▸ List.mem_filter.mpr ⟨hmem, hr⟩
      exact hsame r hr (List.mem_filter.mp hmem₂).1
    · exact ⟨rfl, h⟩
  | delete t filter reads =>
    have hfound : (db₁ t).filter (s.targets db₂ .delete t filter reads) =
        (db₂ t).filter (s.targets db₂ .delete t filter reads) :=
      h.filter_eq fun r hr => hs.within t r (hs.of_targets (by decide) hr)
    simp only [Session.exec, htargets, hfound]
    refine ⟨trivial, h.write ?_⟩
    rw [filter_delete, filter_delete, h t]

/-- **What a statement leaves alone**: every row outside of what the session may write. -/
theorem Confined.exec_outside (hs : Confined G W s) (db : Database τ κ ν)
    (st : RowStatement τ κ ν α) (t : τ) :
    ((s.exec db st).2 t).filter (fun r => !W t r) = (db t).filter fun r => !W t r := by
  have write : ∀ (t' : τ) (rows : List (Row κ ν)),
      rows.filter (fun r => !W t' r) = ((db t').filter fun r => !W t' r) →
      (db.write t' rows t).filter (fun r => !W t r) = (db t).filter fun r => !W t r := by
    intro t' rows hrows
    by_cases ht : t = t'
    · subst ht
      simpa using hrows
    · rw [Database.write_other ht]
  cases st with
  | read query => rfl
  | insert t' rows reads =>
    simp only [Session.exec]
    split_ifs with hall
    · have hnew : (rows (s.view db)).filter (fun r => !W t' r) = [] := by
        apply List.filter_eq_nil_iff.mpr
        intro r hr
        simpa using hs.of_admits (by decide) (List.all_eq_true.mp hall r hr)
      apply write
      rw [List.filter_append, hnew, List.append_nil]
    · rfl
  | update t' filter set reads =>
    simp only [Session.exec]
    split_ifs with hall
    · apply write
      rw [List.filter_map, List.filter_congr (q := fun r => !W t' r)]
      · conv_rhs => rw [← List.map_id ((db t').filter fun r => !W t' r)]
        apply List.map_congr_left
        intro r hr
        have hW : W t' r = false := by simpa using (List.mem_filter.mp hr).2
        have hno : s.targets db .update t' filter reads r = false := by
          rw [← Bool.not_eq_true]
          intro htarget
          rw [hs.of_targets (by decide) htarget] at hW
          exact absurd hW (by decide)
        simp [hno]
      · intro r hr
        cases htarget : s.targets db .update t' filter reads r with
        | false => simp [htarget]
        | true =>
          have hnew := hs.of_admits (by decide) (List.all_eq_true.mp hall _
            (List.mem_map_of_mem (List.mem_filter.mpr ⟨hr, htarget⟩)))
          simp [htarget, hnew, hs.of_targets (by decide) htarget]
    · rfl
  | delete t' filter reads =>
    apply write
    rw [filter_delete]
    apply List.filter_eq_self.mpr
    intro r hr
    rw [Bool.not_eq_true', ← Bool.not_eq_true]
    intro htarget
    have hW := (List.mem_filter.mp hr).2
    rw [hs.of_targets (by decide) htarget] at hW
    exact absurd hW (by decide)

/-- Rows that neither an update nor a delete of the session finds. -/
def Frozen (s : Session η τ κ ν φ) (db : Database τ κ ν) (F : τ → Row κ ν → Bool) : Prop :=
  ∀ t r, F t r = true → ∀ cmd, cmd = .update ∨ cmd = .delete → s.finds db cmd t r = false

omit [DecidableEq τ] in
theorem Frozen.not_target {F : τ → Row κ ν → Bool} (hF : Frozen s db F) {cmd : Command}
    (hcmd : cmd = .update ∨ cmd = .delete) {t : τ} {filter : View τ κ ν → Row κ ν → Bool}
    {reads : Bool} {r : Row κ ν} (hr : F t r = true) :
    s.targets db cmd t filter reads r = false := by
  simp [Session.targets, hF t r hr cmd hcmd]

/-- **Rows no statement can find stay**, each as often as it stood there. -/
theorem Frozen.sublist {F : τ → Row κ ν → Bool} (hF : Frozen s db F) (st : RowStatement τ κ ν α)
    (t : τ) : ((db t).filter (F t)).Sublist (((s.exec db st).2 t).filter (F t)) := by
  have write : ∀ (t' : τ) (rows : List (Row κ ν)),
      ((db t').filter (F t')).Sublist (rows.filter (F t')) →
      ((db t).filter (F t)).Sublist ((db.write t' rows t).filter (F t)) := by
    intro t' rows hrows
    by_cases ht : t = t'
    · subst ht
      simpa using hrows
    · rw [Database.write_other ht]
  cases st with
  | read query => exact List.Sublist.refl _
  | insert t' rows reads =>
    simp only [Session.exec]
    split_ifs with hall
    · apply write
      rw [List.filter_append]
      exact List.sublist_append_left _ _
    · exact List.Sublist.refl _
  | update t' filter set reads =>
    simp only [Session.exec]
    split_ifs with hall
    · apply write
      have hsame : ((db t').filter (F t')).map
          (fun r => if s.targets db .update t' filter reads r then set (s.view db) r else r) =
          (db t').filter (F t') := by
        conv_rhs => rw [← List.map_id ((db t').filter (F t'))]
        apply List.map_congr_left
        intro r hr
        simp [hF.not_target (.inl rfl) (List.mem_filter.mp hr).2]
      have hkept := ((List.filter_sublist (p := F t') (l := db t')).map fun r =>
        if s.targets db .update t' filter reads r then set (s.view db) r else r).filter (F t')
      rw [hsame, List.filter_filter] at hkept
      simpa using hkept
    · exact List.Sublist.refl _
  | delete t' filter reads =>
    apply write
    have hkept : ((db t').filter (F t')).filter (fun r => !s.targets db .delete t' filter reads r) =
        (db t').filter (F t') := by
      apply List.filter_eq_self.mpr
      intro r hr
      rw [hF.not_target (.inr rfl) (List.mem_filter.mp hr).2]
      rfl
    rw [filter_delete, hkept]

/-! ## 7. Rows that change as a relation allows -/

/-- The rows stand where they stood, each changed as `R` allows, and new ones after them. -/
def Evolves {ρ : Type} (R : ρ → ρ → Prop) (l l' : List ρ) : Prop :=
  ∃ kept new, l' = kept ++ new ∧ List.Forall₂ R l kept

theorem Evolves.refl {ρ : Type} {R : ρ → ρ → Prop} (hrefl : ∀ r, R r r) (l : List ρ) :
    Evolves R l l :=
  ⟨l, [], (List.append_nil l).symm, List.forall₂_same.mpr fun r _ => hrefl r⟩

theorem forall₂_comp {ρ : Type} {R : ρ → ρ → Prop} (htrans : ∀ a b c, R a b → R b c → R a c) :
    ∀ {l₁ l₂ l₃ : List ρ}, List.Forall₂ R l₁ l₂ → List.Forall₂ R l₂ l₃ → List.Forall₂ R l₁ l₃
  | _, _, _, .nil, .nil => .nil
  | _, _, _, .cons h hs, .cons h' hs' => .cons (htrans _ _ _ h h') (forall₂_comp htrans hs hs')

theorem Evolves.trans {ρ : Type} {R : ρ → ρ → Prop} (htrans : ∀ a b c, R a b → R b c → R a c)
    {l₁ l₂ l₃ : List ρ} (h : Evolves R l₁ l₂) (h' : Evolves R l₂ l₃) : Evolves R l₁ l₃ := by
  obtain ⟨kept, new, rfl, hkept⟩ := h
  obtain ⟨kept', new', rfl, hkept'⟩ := h'
  have hfirst : List.Forall₂ R kept (kept'.take kept.length) := by
    have h := List.forall₂_take kept.length hkept'
    rwa [List.take_left] at h
  refine ⟨kept'.take kept.length, kept'.drop kept.length ++ new', ?_, ?_⟩
  · rw [← List.append_assoc, List.take_append_drop]
  · exact forall₂_comp htrans hkept hfirst

/-- What the statement does to the rows of `t` it finds, `R` allows. -/
def Moves (R : Row κ ν → Row κ ν → Prop) (s : Session η τ κ ν φ) (db : Database τ κ ν) (t : τ) :
    RowStatement τ κ ν α → Prop
  | .read _ => True
  | .insert _ _ _ => True
  | .update t' filter set reads =>
    t' = t → ∀ r ∈ db t, s.targets db .update t filter reads r = true →
      s.admits db .update t reads (set (s.view db) r) = true → R r (set (s.view db) r)
  | .delete t' filter reads => t' = t → ∀ r ∈ db t, s.targets db .delete t filter reads r = false

theorem exec_evolves {R : Row κ ν → Row κ ν → Prop} (hrefl : ∀ r, R r r) {t : τ}
    {st : RowStatement τ κ ν α} (h : Moves R s db t st) : Evolves R (db t) ((s.exec db st).2 t) := by
  have write : ∀ (t' : τ) (rows : List (Row κ ν)), (t' = t → Evolves R (db t) rows) →
      Evolves R (db t) (db.write t' rows t) := by
    intro t' rows hrows
    by_cases ht : t = t'
    · subst ht
      rw [Database.write_same]
      exact hrows rfl
    · rw [Database.write_other ht]
      exact .refl hrefl _
  cases st with
  | read query => exact .refl hrefl _
  | insert t' rows reads =>
    simp only [Session.exec]
    split_ifs with hall
    · refine write t' _ fun ht => ?_
      rw [ht]
      exact ⟨db t, _, rfl, List.forall₂_same.mpr fun r _ => hrefl r⟩
    · exact .refl hrefl _
  | update t' filter set reads =>
    simp only [Session.exec]
    split_ifs with hall
    · refine write t' _ fun ht => ?_
      subst ht
      refine ⟨_, [], (List.append_nil _).symm, ?_⟩
      rw [List.forall₂_map_right_iff, List.forall₂_same]
      intro r hr
      split_ifs with htarget
      · have hnew := List.all_eq_true.mp hall _
          (List.mem_map_of_mem (List.mem_filter.mpr ⟨hr, htarget⟩))
        exact h rfl r hr htarget hnew
      · exact hrefl r
    · exact .refl hrefl _
  | delete t' filter reads =>
    refine write t' _ fun ht => ?_
    subst ht
    rw [List.filter_eq_self.mpr]
    · exact .refl hrefl _
    · intro r hr
      rw [h rfl r hr]
      rfl

/-! ## 8. Programs -/

/-- Every session the program sends a statement in is confined. -/
def Program.Confined (G W : τ → Row κ ν → Bool) (next : Program η τ κ ν φ α) : Prop :=
  ∀ past s st, next past = some (.send s st) → RowSecurity.Confined G W s

/-- **Non-interference.** What a program of confined sessions is told, and the rows of the guard
    it leaves, depend on the rows of the guard alone. -/
theorem play_agree {next : Program η τ κ ν φ α} (hnext : next.Confined G W) :
    ∀ (n : Nat) (past : List (Outcome κ ν α)) {saved₁ saved₂ db₁ db₂ : Database τ κ ν},
      AgreeOn G saved₁ saved₂ → AgreeOn G db₁ db₂ →
      (play next n past saved₁ db₁).1 = (play next n past saved₂ db₂).1 ∧
        AgreeOn G (play next n past saved₁ db₁).2 (play next n past saved₂ db₂).2
  | 0, _, _, _, _, _, _, h => ⟨rfl, h⟩
  | n + 1, past, saved₁, saved₂, db₁, db₂, hsaved, h => by
    simp only [play]
    cases hp : next past with
    | none => exact ⟨rfl, h⟩
    | some a =>
      cases a with
      | send s st =>
        have hstep := (hnext past s st hp).exec_agree h st
        simp only
        rw [hstep.1]
        exact play_agree hnext n _ hsaved hstep.2
      | commit => exact play_agree hnext n _ h h
      | rollback => exact play_agree hnext n _ hsaved hsaved

/-- **What every action keeps, a program keeps.** -/
theorem play_invariant {next : Program η τ κ ν φ α} {I : Database τ κ ν → Prop}
    (hI : ∀ past s st db, next past = some (.send s st) → I db → I (s.exec db st).2) :
    ∀ (n : Nat) (past : List (Outcome κ ν α)) {saved db : Database τ κ ν}, I saved → I db →
      I (play next n past saved db).2
  | 0, _, _, _, _, h => h
  | n + 1, past, saved, db, hsaved, h => by
    simp only [play]
    cases hp : next past with
    | none => exact h
    | some a =>
      cases a with
      | send s st => exact play_invariant hI n _ hsaved (hI past s st db hp h)
      | commit => exact play_invariant hI n _ h h
      | rollback => exact play_invariant hI n _ hsaved hsaved

/-- **Integrity.** The rows outside of what its sessions may write are those a program found. -/
theorem play_outside {next : Program η τ κ ν φ α} (hnext : next.Confined G W) (n : Nat)
    (db : Database τ κ ν) (t : τ) :
    ((play next n [] db db).2 t).filter (fun r => !W t r) = (db t).filter fun r => !W t r := by
  refine play_invariant (I := fun db' => (db' t).filter (fun r => !W t r) =
    (db t).filter fun r => !W t r) ?_ n [] rfl rfl
  intro past s st db' hp h
  rw [(hnext past s st hp).exec_outside, h]

/-- **Records.** Rows that are frozen for each session of a program, in every database an
    invariant holds of, stay. -/
theorem play_sublist {next : Program η τ κ ν φ α} {F : τ → Row κ ν → Bool}
    {I : Database τ κ ν → Prop}
    (hfrozen : ∀ past s st db, next past = some (.send s st) → I db → Frozen s db F)
    (hI : ∀ past s st db, next past = some (.send s st) → I db → I (s.exec db st).2)
    (n : Nat) (db : Database τ κ ν) (h : I db) (t : τ) :
    ((db t).filter (F t)).Sublist (((play next n [] db db).2 t).filter (F t)) := by
  refine (play_invariant (I := fun db' => I db' ∧
    ((db t).filter (F t)).Sublist ((db' t).filter (F t))) ?_ n []
    ⟨h, List.Sublist.refl _⟩ ⟨h, List.Sublist.refl _⟩).2
  intro past s st db' hp h'
  exact ⟨hI past s st db' hp h'.1, h'.2.trans ((hfrozen past s st db' hp h'.1).sublist st t)⟩

/-- **Life cycles.** Where each statement moves the rows of a table as `R` allows, so does a
    program. -/
theorem play_evolves {next : Program η τ κ ν φ α} {R : Row κ ν → Row κ ν → Prop} {t : τ}
    (hrefl : ∀ r, R r r) (htrans : ∀ a b c, R a b → R b c → R a c)
    (hmoves : ∀ past s st db, next past = some (.send s st) → Moves R s db t st) (n : Nat)
    (db : Database τ κ ν) : Evolves R (db t) ((play next n [] db db).2 t) := by
  refine play_invariant (I := fun db' => Evolves R (db t) (db' t)) ?_ n []
    (.refl hrefl _) (.refl hrefl _)
  intro past s st db' hp h
  exact h.trans htrans (exec_evolves hrefl (hmoves past s st db' hp))

end

end

end ShieldApi.RowSecurity
