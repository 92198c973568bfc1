import ShieldApi.Prisma.Rls

/-!
# Writing access rows

The queries through which the services change `PersonClientAccess`: create, upsert, delete,
and the promotion of a person's oldest remaining place to primary. Each is stated twice.
The definition is what Prisma runs. The lemma below it says what the query does to
`Db.primaryFlag`, **the table read as a finite map from a row's key to its `isPrimary`**,
and the services' proofs use the lemma.

A query runs with the visibility of its client: `sees` is the row policy, a function of the
row's client, and it is `fun _ => true` for a client that bypasses RLS.
-/

set_option autoImplicit false

namespace ShieldApi

open Effect

abbrev AccessTable : Type := Table PersonClientAccess AccessKey PersonClientAccess.key

def PersonClientAccess.setPrimary (v : Bool) (a : PersonClientAccess) : PersonClientAccess :=
  { a with isPrimary := v }

@[simp] theorem PersonClientAccess.key_setPrimary (v : Bool) (a : PersonClientAccess) :
    (a.setPrimary v).key = a.key := rfl

def World.withAccesses (w : World) (t : AccessTable) : World :=
  { w with db := { w.db with accesses := t } }

@[simp] theorem World.withAccesses_accesses (w : World) (t : AccessTable) :
    (w.withAccesses t).db.accesses = t := rfl

@[simp] theorem World.withAccesses_withAccesses (w : World) (t t' : AccessTable) :
    (w.withAccesses t).withAccesses t' = w.withAccesses t' := rfl

@[simp] theorem World.withAccesses_self (w : World) : w.withAccesses w.db.accesses = w := rfl

@[simp] theorem World.withAccesses_accessRefs (w : World) (t : AccessTable) (k : AccessKey) :
    (w.withAccesses t).db.accessRefs k = w.db.accessRefs k := rfl

/-! ## 1. The queries -/

/-- `personClientAccess.create`. -/
def createAccess (a : PersonClientAccess) : Api PersonClientAccess :=
  attempt fun w =>
    match w.db.accesses.insert? a with
    | none => .error .uniqueConstraint
    | some t =>
      if w.db.accessRefs a.key then .ok (a, w.withAccesses t) else .error .foreignKeyConstraint

/-- `personClientAccess.upsert`, on the unique index. -/
def upsertAccess (a : PersonClientAccess) (update : PersonClientAccess → PersonClientAccess)
    (hupdate : ∀ b, (update b).key = b.key) : Api PersonClientAccess := do
  match ← query (·.db.accesses.find? a.key) with
  | some b =>
    write fun w => w.withAccesses (w.db.accesses.updateMany (·.key = a.key) update hupdate)
    return update b
  | none => createAccess a

/-- The upsert of `accept` and `UsersService.addRole`, which writes `isPrimary` either way. -/
def upsertWithPrimary (a : PersonClientAccess) : Api PersonClientAccess :=
  upsertAccess a (.setPrimary a.isPrimary) (PersonClientAccess.key_setPrimary _)

/-- `findFirst({ where: { personId, isPrimary: true } })`. -/
def findPrimaryAccess (env : Env) (personId : String) (db : Db) : Option PersonClientAccess :=
  env.accessOrder.findFirst (fun a => a.personId = personId && a.isPrimary) db.accesses.rows

/-- An access at this client and site may be primary if the person has no primary row, or
    the one that was found is at the same client and site. -/
def mayBePrimary (existingPrimaryAccess : Option PersonClientAccess) (clientId siteId : String) :
    Bool :=
  match existingPrimaryAccess with
  | none => true
  | some a => a.clientId = clientId && a.siteId = siteId

def deleteAccesses (p : AccessKey → Bool) : Api Unit :=
  write fun w => w.withAccesses (w.db.accesses.deleteMany (p ·.key))

def setPrimaries (p : AccessKey → Bool) : Api Unit :=
  write fun w =>
    w.withAccesses (w.db.accesses.updateMany (p ·.key) (.setPrimary true)
      (PersonClientAccess.key_setPrimary true))

/-- Promote the client and site of the person's oldest access row the client can see. -/
def promoteOldestRemaining (sees : String → Bool) (env : Env) (personId : String) :
    Api Unit := do
  let oldestRemaining ← query fun w =>
    env.accessOrder.findFirstBy PersonClientAccess.oldest
      (fun a => sees a.clientId && a.personId = personId) w.db.accesses.rows
  match oldestRemaining with
  | some oldest =>
    setPrimaries fun k =>
      sees k.clientId && k.personId = personId && k.clientId = oldest.clientId &&
        k.siteId = oldest.siteId
  | none => pure ()

/-- Delete one row; if it was primary, make sure another of the person's rows is. -/
def deleteAccessKeepingPrimary (sees : String → Bool) (env : Env) (access : PersonClientAccess) :
    Api Unit := do
  deleteAccesses (· = access.key)
  if access.isPrimary then
    let remainingPrimary ← query fun w =>
      env.accessOrder.findFirst
        (fun a => sees a.clientId && a.personId = access.personId && a.isPrimary)
        w.db.accesses.rows
    match remainingPrimary with
    | some _ => pure ()
    | none => promoteOldestRemaining sees env access.personId
  else pure ()

/-! ## 2. The access table as a map -/

/-- Whether there is a row at `k`, and whether it is primary. -/
def Db.primaryFlag (db : Db) (k : AccessKey) : Option Bool :=
  (db.accesses.find? k).map (·.isPrimary)

theorem primaryFlag_eq_some {db : Db} {k : AccessKey} {v : Bool} :
    db.primaryFlag k = some v ↔ ∃ a ∈ db.accesses, a.key = k ∧ a.isPrimary = v := by
  unfold Db.primaryFlag
  rw [Option.map_eq_some_iff]
  simp only [Table.find?_eq_some, and_assoc]

theorem primaryFlag_eq_none {db : Db} {k : AccessKey} :
    db.primaryFlag k = none ↔ ∀ a ∈ db.accesses, a.key ≠ k := by
  unfold Db.primaryFlag
  rw [Option.map_eq_none_iff, Table.find?_eq_none]

theorem primaryFlag_isSome {db : Db} {k : AccessKey} :
    (db.primaryFlag k).isSome = true ↔ ∃ a ∈ db.accesses, a.key = k := by
  rw [Option.isSome_iff_exists]
  constructor
  · rintro ⟨v, h⟩
    obtain ⟨a, ha, hk, -⟩ := primaryFlag_eq_some.1 h
    exact ⟨a, ha, hk⟩
  · rintro ⟨a, ha, hk⟩
    exact ⟨a.isPrimary, primaryFlag_eq_some.2 ⟨a, ha, hk, rfl⟩⟩

theorem mem_primaryFlag {db : Db} {a : PersonClientAccess} (ha : a ∈ db.accesses) :
    db.primaryFlag a.key = some a.isPrimary :=
  primaryFlag_eq_some.2 ⟨a, ha, rfl, rfl⟩

/-! ## 3. What each query does to the map -/

/-- `w'` is `w` with another access table. -/
def OnlyAccesses (w w' : World) : Prop := ∃ t, w' = w.withAccesses t

theorem OnlyAccesses.refl (w : World) : OnlyAccesses w w := ⟨w.db.accesses, rfl⟩

theorem OnlyAccesses.trans {w w' w'' : World} (h : OnlyAccesses w w') (h' : OnlyAccesses w' w'') :
    OnlyAccesses w w'' := by
  obtain ⟨t, rfl⟩ := h
  obtain ⟨t', rfl⟩ := h'
  exact ⟨t', rfl⟩

theorem createAccess_eq_ok {a r : PersonClientAccess} {w w' : World} :
    (createAccess a).run w = (.ok r, w') ↔
      r = a ∧ w.db.accessRefs a.key = true ∧
        ∃ t, w.db.accesses.insert? a = some t ∧ w' = w.withAccesses t := by
  unfold createAccess
  rw [attempt_eq_ok]
  cases w.db.accesses.insert? a with
  | none => simp
  | some t =>
    by_cases h : w.db.accessRefs a.key = true
    · simp only [h, if_true, Except.ok.injEq, Prod.mk.injEq, Option.some.injEq, true_and,
        exists_eq_left']
      exact ⟨fun ⟨h1, h2⟩ => ⟨h1.symm, h2.symm⟩, fun ⟨h1, h2⟩ => ⟨h1.symm, h2.symm⟩⟩
    · simp [h]

theorem createAccess_flag {a r : PersonClientAccess} {w w' : World}
    (h : (createAccess a).run w = (.ok r, w')) :
    OnlyAccesses w w' ∧ w.db.primaryFlag a.key = none ∧
      w'.db.primaryFlag = Function.update w.db.primaryFlag a.key (some a.isPrimary) := by
  obtain ⟨-, -, t, ht, rfl⟩ := createAccess_eq_ok.1 h
  refine ⟨⟨t, rfl⟩, ?_, ?_⟩
  · have hnone := Table.insert?_isSome.mp (Option.isSome_of_eq_some ht)
    simp [Db.primaryFlag, hnone]
  · funext k
    simp only [Db.primaryFlag, World.withAccesses_accesses, Table.find?_insert? ht,
      Function.update_apply]
    by_cases hk : k = a.key <;> simp [hk]

/-- A creation goes through where the key is free and the references resolve. -/
theorem createAccess_run {a : PersonClientAccess} {w : World}
    (hfresh : w.db.primaryFlag a.key = none) (hrefs : w.db.accessRefs a.key = true) :
    ∃ w', (createAccess a).run w = (.ok a, w') := by
  have hnone : w.db.accesses.find? a.key = none := by
    unfold Db.primaryFlag at hfresh
    exact Option.map_eq_none_iff.mp hfresh
  obtain ⟨t, ht⟩ := Option.isSome_iff_exists.mp (Table.insert?_isSome.mpr hnone)
  exact ⟨_, createAccess_eq_ok.2 ⟨rfl, hrefs, t, ht, rfl⟩⟩

/-- When an upsert goes through: its row is there, or may be created. -/
def Db.canUpsert (db : Db) (k : AccessKey) : Bool :=
  (db.primaryFlag k).isSome || db.accessRefs k

theorem upsertAccess_run {a : PersonClientAccess}
    {update : PersonClientAccess → PersonClientAccess} {hupdate : ∀ b, (update b).key = b.key}
    (w : World) :
    (upsertAccess a update hupdate).run w =
      match w.db.accesses.find? a.key with
      | some b =>
        (.ok (update b),
          w.withAccesses (w.db.accesses.updateMany (·.key = a.key) update hupdate))
      | none => (createAccess a).run w := by
  unfold upsertAccess
  rw [run_query_bind]
  cases w.db.accesses.find? a.key <;> rfl

theorem atomic_upsertAccess {a : PersonClientAccess}
    {update : PersonClientAccess → PersonClientAccess} {hupdate : ∀ b, (update b).key = b.key} :
    (upsertAccess a update hupdate).Atomic := by
  intro w e w' h
  rw [upsertAccess_run] at h
  cases hf : w.db.accesses.find? a.key with
  | some b => rw [hf] at h; simp at h
  | none => rw [hf] at h; exact atomic_attempt _ w e w' h

theorem upsertAccess_ok_iff {a : PersonClientAccess}
    {update : PersonClientAccess → PersonClientAccess} {hupdate : ∀ b, (update b).key = b.key}
    {w : World} :
    (∃ r w', (upsertAccess a update hupdate).run w = (.ok r, w')) ↔
      w.db.canUpsert a.key = true := by
  unfold Db.canUpsert Db.primaryFlag
  simp only [upsertAccess_run]
  cases hf : w.db.accesses.find? a.key with
  | some b => simp
  | none =>
    simp only [createAccess_eq_ok, Option.map_none, Option.isSome_none, Bool.false_or]
    constructor
    · rintro ⟨r, w', -, href, -⟩
      exact href
    · intro href
      have hins := Table.insert?_isSome.mpr hf
      obtain ⟨t, ht⟩ := Option.isSome_iff_exists.mp hins
      exact ⟨a, _, rfl, href, t, ht, rfl⟩

/-- An upsert puts `update`'s flag on a row that is there and `a`'s on one it creates. -/
theorem upsertAccess_flag {a r : PersonClientAccess}
    {update : PersonClientAccess → PersonClientAccess} {hupdate : ∀ b, (update b).key = b.key}
    {w w' : World} (h : (upsertAccess a update hupdate).run w = (.ok r, w')) :
    OnlyAccesses w w' ∧ r.key = a.key ∧
      w'.db.primaryFlag = Function.update w.db.primaryFlag a.key
        (some (((w.db.accesses.find? a.key).map update).getD a).isPrimary) := by
  rw [upsertAccess_run] at h
  cases hf : w.db.accesses.find? a.key with
  | some b =>
    rw [hf] at h
    obtain ⟨hr, rfl⟩ := Prod.mk.inj h
    obtain rfl := Except.ok.inj hr
    have hb := (Table.find?_eq_some.mp hf).2
    refine ⟨⟨_, rfl⟩, (hupdate b).trans hb, ?_⟩
    funext k
    simp only [Db.primaryFlag, World.withAccesses_accesses, Table.find?_updateMany,
      Function.update_apply]
    by_cases hk : k = a.key
    · subst hk
      simp [hf, hb]
    · rw [if_neg hk]
      cases hfk : w.db.accesses.find? k with
      | none => rfl
      | some c =>
        have hc := (Table.find?_eq_some.mp hfk).2
        have : c.key ≠ a.key := fun h => hk (hc.symm.trans h)
        simp [this]
  | none =>
    rw [hf] at h
    obtain ⟨hr, -, -⟩ := createAccess_eq_ok.1 h
    obtain ⟨hw, -, hflag⟩ := createAccess_flag h
    exact ⟨hw, by rw [hr], hflag⟩

theorem upsertWithPrimary_flag {a r : PersonClientAccess} {w w' : World}
    (h : (upsertWithPrimary a).run w = (.ok r, w')) :
    OnlyAccesses w w' ∧ r.key = a.key ∧
      w'.db.primaryFlag = Function.update w.db.primaryFlag a.key (some a.isPrimary) := by
  obtain ⟨honly, hkey, hflag⟩ := upsertAccess_flag h
  refine ⟨honly, hkey, ?_⟩
  rw [hflag]
  cases w.db.accesses.find? a.key <;> rfl

theorem deleteAccesses_run (p : AccessKey → Bool) (w : World) :
    ∃ w', (deleteAccesses p).run w = (.ok (), w') ∧ OnlyAccesses w w' ∧
      ∀ k, w'.db.primaryFlag k = if p k then none else w.db.primaryFlag k := by
  refine ⟨_, rfl, ⟨_, rfl⟩, fun k => ?_⟩
  simp only [Db.primaryFlag, World.withAccesses_accesses, Table.find?_deleteMany]
  cases hf : w.db.accesses.find? k with
  | none => simp
  | some a =>
    obtain rfl := (Table.find?_eq_some.mp hf).2
    by_cases hp : p a.key = true <;> simp [hp]

theorem setPrimaries_run (p : AccessKey → Bool) (w : World) :
    ∃ w', (setPrimaries p).run w = (.ok (), w') ∧ OnlyAccesses w w' ∧
      ∀ k, w'.db.primaryFlag k =
        if p k then (w.db.primaryFlag k).map fun _ => true else w.db.primaryFlag k := by
  refine ⟨_, rfl, ⟨_, rfl⟩, fun k => ?_⟩
  simp only [Db.primaryFlag, World.withAccesses_accesses, Table.find?_updateMany]
  cases hf : w.db.accesses.find? k with
  | none => simp
  | some a =>
    obtain rfl := (Table.find?_eq_some.mp hf).2
    by_cases hp : p a.key = true <;> simp [hp, PersonClientAccess.setPrimary]

/-- `w'` has the rows of `w`, and every row that was primary still is. -/
structure PromotedFrom (w w' : World) : Prop where
  only : OnlyAccesses w w'
  rows : ∀ k, (w'.db.primaryFlag k).isSome = (w.db.primaryFlag k).isSome
  kept : ∀ k, w.db.primaryFlag k = some true → w'.db.primaryFlag k = some true

theorem PromotedFrom.refl (w : World) : PromotedFrom w w :=
  ⟨.refl w, fun _ => rfl, fun _ h => h⟩

/-- **A promotion leaves a primary row behind if the client could see any row at all.** -/
theorem promoteOldestRemaining_run (sees : String → Bool) (env : Env) (personId : String)
    (w : World) :
    ∃ w', (promoteOldestRemaining sees env personId).run w = (.ok (), w') ∧ PromotedFrom w w' ∧
      ((∃ k, sees k.clientId = true ∧ k.personId = personId ∧
          (w.db.primaryFlag k).isSome = true) →
        ∃ k, k.personId = personId ∧ w'.db.primaryFlag k = some true) := by
  unfold promoteOldestRemaining
  rw [run_query_bind]
  cases hf : env.accessOrder.findFirstBy PersonClientAccess.oldest
      (fun a => sees a.clientId && decide (a.personId = personId)) w.db.accesses.rows with
  | none =>
    refine ⟨w, rfl, .refl w, ?_⟩
    rintro ⟨k, hs, hp, hk⟩
    obtain ⟨a, ha, rfl⟩ := primaryFlag_isSome.1 hk
    have := RowOrder.findFirstBy_eq_none.mp hf a ha
    have hs' : sees a.clientId = true := hs
    have hp' : a.personId = personId := hp
    simp [hs', hp'] at this
  | some oldest =>
    obtain ⟨hmem, hsel⟩ := RowOrder.findFirstBy_mem hf
    simp only [Bool.and_eq_true, decide_eq_true_eq] at hsel
    obtain ⟨w', hrun, honly, hflag⟩ := setPrimaries_run
      (fun k => sees k.clientId && decide (k.personId = personId) &&
        decide (k.clientId = oldest.clientId) && decide (k.siteId = oldest.siteId)) w
    refine ⟨w', hrun, ⟨honly, fun k => ?_, fun k hk => ?_⟩, fun _ => ⟨oldest.key, hsel.2, ?_⟩⟩
    · rw [hflag]
      split
      · rw [Option.isSome_map]
      · rfl
    · rw [hflag, hk]
      split <;> rfl
    · rw [hflag, mem_primaryFlag hmem]
      simp [PersonClientAccess.key, hsel.1, hsel.2]

/-- With no row in sight a promotion does nothing. -/
theorem promoteOldestRemaining_nothing {sees : String → Bool} {env : Env} {personId : String}
    {w : World} (h : ∀ a ∈ w.db.accesses, a.personId = personId → sees a.clientId = false) :
    (promoteOldestRemaining sees env personId).run w = (.ok (), w) := by
  unfold promoteOldestRemaining
  rw [run_query_bind]
  have hnone : env.accessOrder.findFirstBy PersonClientAccess.oldest
      (fun a => sees a.clientId && decide (a.personId = personId)) w.db.accesses.rows = none := by
    apply RowOrder.findFirstBy_eq_none.mpr
    intro a ha
    by_cases hp : a.personId = personId
    · rw [h a ha hp, Bool.false_and]
    · simp [hp]
  rw [hnone]
  rfl

/-! ## 4. Upserting many rows -/

theorem canUpsert_mono {w w' : World} {k k' : AccessKey} {v : Bool} (honly : OnlyAccesses w w')
    (hflag : w'.db.primaryFlag = Function.update w.db.primaryFlag k (some v))
    (h : w.db.canUpsert k' = true) : w'.db.canUpsert k' = true := by
  obtain ⟨t, rfl⟩ := honly
  unfold Db.canUpsert at h ⊢
  rw [hflag, Function.update_apply]
  by_cases hk : k' = k
  · simp [hk]
  · rw [if_neg hk]
    exact h

section Upserts

variable {β : Type} {row : β → PersonClientAccess}
  {update : β → PersonClientAccess → PersonClientAccess}
  {hupdate : ∀ x b, (update x b).key = b.key}

/-- An upsert loop that went through creates the rows that were not there. -/
theorem forEach_upsertAccess_rows {xs : List β} {rs : List PersonClientAccess} {w w' : World}
    (h : (forEach xs fun x => upsertAccess (row x) (update x) (hupdate x)).run w = (.ok rs, w')) :
    OnlyAccesses w w' ∧ (∀ x ∈ xs, w.db.canUpsert (row x).key = true) ∧
      ∀ k, (w'.db.primaryFlag k).isSome = true ↔
        (w.db.primaryFlag k).isSome = true ∨ ∃ x ∈ xs, (row x).key = k := by
  induction xs generalizing w rs with
  | nil =>
    obtain ⟨-, rfl⟩ := Prod.mk.inj h
    exact ⟨.refl w, fun x hx => absurd hx List.not_mem_nil, fun k => by simp⟩
  | cons x xs ih =>
    obtain ⟨r, w₁, rs', hr, hrs, -⟩ := forEach_cons_eq_ok.mp h
    have hx : w.db.canUpsert (row x).key = true := upsertAccess_ok_iff.1 ⟨r, w₁, hr⟩
    obtain ⟨honly₁, -, hflag₁⟩ := upsertAccess_flag hr
    obtain ⟨honly₂, hxs, hrows⟩ := ih hrs
    refine ⟨honly₁.trans honly₂, fun y hy => ?_, fun k => ?_⟩
    · rcases List.mem_cons.mp hy with rfl | hy
      · exact hx
      · -- what may be upserted after `x` might have been before, unless it is `x`
        have hyup := hxs y hy
        obtain ⟨t, rfl⟩ := honly₁
        unfold Db.canUpsert at hyup hx ⊢
        rw [hflag₁, Function.update_apply] at hyup
        by_cases hkey : (row y).key = (row x).key
        · rw [hkey]
          exact hx
        · rw [if_neg hkey] at hyup
          exact hyup
    · rw [hrows, hflag₁, Function.update_apply]
      by_cases hk : k = (row x).key
      · simp [hk]
      · simp [hk, Ne.symm hk]

/-- It goes through where each row is there or may be created. -/
theorem forEach_upsertAccess_run {xs : List β} {w : World}
    (h : ∀ x ∈ xs, w.db.canUpsert (row x).key = true) :
    ∃ rs w', (forEach xs fun x => upsertAccess (row x) (update x) (hupdate x)).run w =
      (.ok rs, w') := by
  induction xs generalizing w with
  | nil => exact ⟨[], w, rfl⟩
  | cons x xs ih =>
    obtain ⟨r, w₁, hr⟩ := upsertAccess_ok_iff.mpr (h x (List.mem_cons_self ..))
    obtain ⟨honly, -, hflag⟩ := upsertAccess_flag hr
    obtain ⟨rs, w₂, hrs⟩ := ih (w := w₁) fun y hy =>
      canUpsert_mono honly hflag (h y (List.mem_cons_of_mem _ hy))
    exact ⟨r :: rs, w₂, forEach_cons_eq_ok.mpr ⟨r, _, rs, hr, hrs, rfl⟩⟩

end Upserts

/-- Upserting row after row overwrites the map. -/
theorem forEach_upsert_flag {rows rs : List PersonClientAccess} {w w' : World}
    (h : (forEach rows upsertWithPrimary).run w = (.ok rs, w')) :
    w'.db.primaryFlag =
      overwrite w.db.primaryFlag (rows.map fun a => (a.key, some a.isPrimary)) := by
  induction rows generalizing w rs with
  | nil =>
    obtain ⟨-, rfl⟩ := Prod.mk.inj h
    rfl
  | cons a rows ih =>
    obtain ⟨r, w₁, rs', hr, hrs, -⟩ := forEach_cons_eq_ok.mp h
    obtain ⟨-, -, hflag⟩ := upsertWithPrimary_flag hr
    rw [ih hrs, hflag, List.map_cons, overwrite_cons]

theorem forEach_upsert_ok {rows : List PersonClientAccess} {w : World}
    (h : ∀ a ∈ rows, w.db.canUpsert a.key = true) :
    ∃ rs w', (forEach rows upsertWithPrimary).run w = (.ok rs, w') ∧ OnlyAccesses w w' ∧
      w'.db.primaryFlag =
        overwrite w.db.primaryFlag (rows.map fun a => (a.key, some a.isPrimary)) := by
  have hloop : ∃ rs w', (forEach rows upsertWithPrimary).run w = (.ok rs, w') :=
    forEach_upsertAccess_run h
  obtain ⟨rs, w', hrun⟩ := hloop
  obtain ⟨honly, -, -⟩ := forEach_upsertAccess_rows hrun
  exact ⟨rs, w', hrun, honly, forEach_upsert_flag hrun⟩

theorem canUpsert_of_forEach {rows rs : List PersonClientAccess} {w w' : World}
    (h : (forEach rows upsertWithPrimary).run w = (.ok rs, w')) :
    ∀ a ∈ rows, w.db.canUpsert a.key = true := by
  obtain ⟨-, hrows, -⟩ := forEach_upsertAccess_rows h
  exact hrows

/-! ## 5. Primary access -/

/-- A person with any access row has a primary one. -/
def PrimaryAccessExists (personId : String) (db : Db) : Prop :=
  (∃ a ∈ db.accesses, a.personId = personId) →
    ∃ a ∈ db.accesses, a.personId = personId ∧ a.isPrimary = true

theorem primaryAccessExists_iff {personId : String} {db : Db} :
    PrimaryAccessExists personId db ↔
      ((∃ k, k.personId = personId ∧ (db.primaryFlag k).isSome = true) →
        ∃ k, k.personId = personId ∧ db.primaryFlag k = some true) := by
  have hrow : (∃ a ∈ db.accesses, a.personId = personId) ↔
      ∃ k, k.personId = personId ∧ (db.primaryFlag k).isSome = true := by
    constructor
    · rintro ⟨a, ha, hp⟩
      exact ⟨a.key, hp, primaryFlag_isSome.mpr ⟨a, ha, rfl⟩⟩
    · rintro ⟨k, hp, hk⟩
      obtain ⟨a, ha, rfl⟩ := primaryFlag_isSome.mp hk
      exact ⟨a, ha, hp⟩
  have hprim : (∃ a ∈ db.accesses, a.personId = personId ∧ a.isPrimary = true) ↔
      ∃ k, k.personId = personId ∧ db.primaryFlag k = some true := by
    constructor
    · rintro ⟨a, ha, hp, hv⟩
      exact ⟨a.key, hp, primaryFlag_eq_some.mpr ⟨a, ha, rfl, hv⟩⟩
    · rintro ⟨k, hp, hk⟩
      obtain ⟨a, ha, rfl, hv⟩ := primaryFlag_eq_some.mp hk
      exact ⟨a, ha, hp, hv⟩
  rw [PrimaryAccessExists, hrow, hprim]

/-- One row written: the property stays if that row is primary or some other one is. -/
theorem PrimaryAccessExists.update {personId : String} {db db' : Db} {k : AccessKey} {v : Bool}
    (hdb : PrimaryAccessExists personId db)
    (hflag : db'.primaryFlag = Function.update db.primaryFlag k (some v))
    (hk : k.personId = personId →
      v = true ∨ ∃ k', k' ≠ k ∧ k'.personId = personId ∧ db.primaryFlag k' = some true) :
    PrimaryAccessExists personId db' := by
  rw [primaryAccessExists_iff] at hdb ⊢
  rintro ⟨k₁, hp₁, hk₁⟩
  rw [hflag] at hk₁ ⊢
  by_cases hp : k.personId = personId
  · rcases hk hp with rfl | ⟨k', hne, hp', hk'⟩
    · exact ⟨k, hp, Function.update_self ..⟩
    · exact ⟨k', hp', by rw [Function.update_of_ne hne, hk']⟩
  · have hne : ∀ k', k'.personId = personId → k' ≠ k := by
      rintro k' hp' rfl
      exact hp hp'
    rw [Function.update_of_ne (hne k₁ hp₁)] at hk₁
    obtain ⟨k', hp', hk'⟩ := hdb ⟨k₁, hp₁, hk₁⟩
    exact ⟨k', hp', by rw [Function.update_of_ne (hne k' hp'), hk']⟩

theorem findPrimaryAccess_some {env : Env} {personId : String} {db : Db} {a : PersonClientAccess}
    (h : findPrimaryAccess env personId db = some a) :
    a.personId = personId ∧ db.primaryFlag a.key = some true := by
  obtain ⟨hmem, hsel⟩ := RowOrder.findFirst_mem h
  simp only [Bool.and_eq_true, decide_eq_true_eq] at hsel
  exact ⟨hsel.1, by rw [mem_primaryFlag hmem, hsel.2]⟩

/-- The property reads the access table and nothing else. -/
theorem PrimaryAccessExists.congr {personId : String} {db db' : Db}
    (hdb : PrimaryAccessExists personId db) (h : db'.accesses = db.accesses) :
    PrimaryAccessExists personId db' := by
  unfold PrimaryAccessExists at hdb ⊢
  rw [h]
  exact hdb

/-- Deleting one row with the promotion after it keeps the property, provided the promotion
    can see a row of the person whenever one is left. -/
theorem deleteAccessKeepingPrimary_run (sees : String → Bool) (env : Env)
    {access : PersonClientAccess} {personId : String} {w : World} (hmem : access ∈ w.db.accesses)
    (hw : PrimaryAccessExists personId w.db)
    (hsees : (∃ k, k.personId = access.personId ∧ k ≠ access.key ∧
        (w.db.primaryFlag k).isSome = true) →
      ∃ k, k.personId = access.personId ∧ k ≠ access.key ∧ sees k.clientId = true ∧
        (w.db.primaryFlag k).isSome = true) :
    ∃ w', (deleteAccessKeepingPrimary sees env access).run w = (.ok (), w') ∧
      OnlyAccesses w w' ∧ PrimaryAccessExists personId w'.db := by
  unfold deleteAccessKeepingPrimary
  obtain ⟨w₁, hrun₁, honly₁, hflag₁⟩ := deleteAccesses_run (fun k => decide (k = access.key)) w
  simp only [decide_eq_true_eq] at hflag₁
  rw [run_bind_ok hrun₁]
  rw [primaryAccessExists_iff] at hw
  -- if no primary row of the person goes, the one they have stays
  have hstays : (∀ k, k.personId = personId → w.db.primaryFlag k = some true → k ≠ access.key) →
      ∀ k, k.personId = personId → (w₁.db.primaryFlag k).isSome = true →
        ∃ k', k'.personId = personId ∧ w₁.db.primaryFlag k' = some true := by
    intro hother k hp hk
    rw [hflag₁] at hk
    by_cases hka : k = access.key
    · rw [if_pos hka] at hk
      exact absurd hk (by simp)
    · rw [if_neg hka] at hk
      obtain ⟨k', hp', hk'⟩ := hw ⟨k, hp, hk⟩
      refine ⟨k', hp', ?_⟩
      rw [hflag₁, if_neg (hother k' hp' hk'), hk']
  cases hprim : access.isPrimary with
  | false =>
    refine ⟨w₁, rfl, honly₁, primaryAccessExists_iff.2 ?_⟩
    rintro ⟨k, hp, hk⟩
    refine hstays (fun k' _ hk' hka => ?_) k hp hk
    rw [hka, mem_primaryFlag hmem, hprim] at hk'
    exact absurd hk' (by simp)
  | true =>
    simp only [if_true]
    rw [run_query_bind]
    cases hrem : env.accessOrder.findFirst
        (fun a => sees a.clientId && decide (a.personId = access.personId) && a.isPrimary)
        w₁.db.accesses.rows with
    | some a =>
      obtain ⟨ha, hsel⟩ := RowOrder.findFirst_mem hrem
      simp only [Bool.and_eq_true, decide_eq_true_eq] at hsel
      refine ⟨w₁, rfl, honly₁, primaryAccessExists_iff.2 ?_⟩
      rintro ⟨k, hp, hk⟩
      by_cases hpa : personId = access.personId
      · subst hpa
        exact ⟨a.key, hsel.1.2, by rw [mem_primaryFlag ha, hsel.2]⟩
      · exact hstays (fun k' hp' _ hka => hpa (hp'.symm.trans (congrArg _ hka))) k hp hk
    | none =>
      obtain ⟨w₂, hrun₂, hprom, hexists⟩ :=
        promoteOldestRemaining_run sees env access.personId w₁
      refine ⟨w₂, hrun₂, honly₁.trans hprom.only, primaryAccessExists_iff.2 ?_⟩
      rintro ⟨k, hp, hk⟩
      rw [hprom.rows] at hk
      by_cases hpa : personId = access.personId
      · subst hpa
        rw [hflag₁] at hk
        by_cases hka : k = access.key
        · rw [if_pos hka] at hk
          exact absurd hk (by simp)
        · rw [if_neg hka] at hk
          obtain ⟨k', hp', hne, hs, hk'⟩ := hsees ⟨k, hp, hka, hk⟩
          exact hexists ⟨k', hs, hp', by rw [hflag₁, if_neg hne]; exact hk'⟩
      · obtain ⟨k', hp', hk'⟩ :=
          hstays (fun k' hp' _ hka => hpa (hp'.symm.trans (congrArg _ hka))) k hp hk
        exact ⟨k', hp', hprom.kept k' hk'⟩

end ShieldApi
