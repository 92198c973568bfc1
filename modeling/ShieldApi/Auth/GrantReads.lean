import ShieldApi.Lib.Edits
import ShieldApi.Auth.GrantResolution
import ShieldApi.Clients.AccessRows

/-!
# What resolving an access grant reads

`getAccessGrantForUserFromDatabase` queries every access row of the user, but what it answers
hangs on few of them: the rows its context selects, the primary one if there is nothing to
select, the ones with a `SYSTEM` role if the intent looks for them. `ConsultsRow` and
`ConsultsRole` say which rows and which roles those are, and the two theorems of this file say
that nothing else matters: **the answer is as before after any change of access rows the
context does not consult** (`fromDatabase_rewritten`), **and after any change of a role's scope
or capabilities it does not consult** (`fromDatabase_roleReplaced`).
-/

set_option autoImplicit false

namespace ShieldApi

/-! ## 1. Changes of the access table -/

/-- `b` is `a`, perhaps with the flag the other way. -/
def PersonClientAccess.UpToFlag (a b : PersonClientAccess) : Prop := b = a.setPrimary b.isPrimary

theorem PersonClientAccess.upToFlag_refl (a : PersonClientAccess) : a.UpToFlag a := rfl

theorem PersonClientAccess.UpToFlag.setPrimary {a b : PersonClientAccess} (h : a.UpToFlag b)
    (v : Bool) : a.UpToFlag (b.setPrimary v) := by
  unfold UpToFlag at h ⊢
  rw [h]
  rfl

/-- The row, with its flag, is there on one side only. -/
def FlagChanged (flags flags' : AccessKey → Option Bool) (a : PersonClientAccess) : Prop :=
  flags' a.key ≠ flags a.key ∧
    (flags a.key = some a.isPrimary ∨ flags' a.key = some a.isPrimary)

/-- `db'` is `db` with access rows created, deleted and flagged, and with other invitations. -/
structure RowsRewritten (db db' : Db) : Prop where
  tables : ∃ t i, db' = { db with accesses := t, invitations := i }
  edited : db.accesses.Edited PersonClientAccess.UpToFlag db'.accesses

/-- A row that is there before and not after, or the other way round, changed the flags. -/
theorem RowsRewritten.flagChanged {db db' : Db} (h : RowsRewritten db db') :
    (∀ a ∈ db.accesses, a ∉ db'.accesses → FlagChanged db.primaryFlag db'.primaryFlag a) ∧
      ∀ a ∈ db'.accesses, a ∉ db.accesses → FlagChanged db.primaryFlag db'.primaryFlag a := by
  have hsame : ∀ a ∈ db.accesses, ∀ b ∈ db'.accesses, a.key = b.key →
      a.isPrimary = b.isPrimary → a = b := by
    intro a ha b hb hk hp
    rcases h.edited.mem hb with ⟨a', ha', hk', hab⟩ | hfresh
    · obtain rfl := Table.eq_of_key_eq ha ha' (hk.trans hk'.symm)
      rw [hab, ← hp]
      rfl
    · exact absurd hk (hfresh a ha)
  refine ⟨fun a ha ha' => ?_, fun b hb hb' => ?_⟩
  · refine ⟨fun heq => ?_, .inl (mem_primaryFlag ha)⟩
    rw [mem_primaryFlag ha] at heq
    obtain ⟨b, hb, hk, hp⟩ := primaryFlag_eq_some.mp heq
    exact ha' (hsame a ha b hb hk.symm hp.symm ▸ hb)
  · refine ⟨fun heq => ?_, .inr (mem_primaryFlag hb)⟩
    rw [mem_primaryFlag hb] at heq
    obtain ⟨a, ha, hk, hp⟩ := primaryFlag_eq_some.mp heq.symm
    exact hb' (hsame a ha b hb hk hp ▸ ha)

theorem RowsRewritten.filter_eq {db db' : Db} (h : RowsRewritten db db')
    {q : PersonClientAccess → Bool}
    (hq : ∀ a, FlagChanged db.primaryFlag db'.primaryFlag a → q a = false) :
    db'.accesses.rows.filter q = db.accesses.rows.filter q :=
  h.edited.filter_eq (fun a ha ha' => hq a (h.flagChanged.1 a ha ha'))
    fun a ha ha' => hq a (h.flagChanged.2 a ha ha')

/-! ## 2. The records a selection leaves -/

theorem primaryThenOldest_iff {a b : PersonClientAccess} :
    a.primaryThenOldest b = true ↔ (a.isPrimary = true ∧ b.isPrimary = false) ∨
      (a.isPrimary = b.isPrimary ∧ a.createdOn ≤ b.createdOn) := by
  unfold PersonClientAccess.primaryThenOldest
  simp

theorem primaryThenOldest_trans (a b c : PersonClientAccess)
    (hab : a.primaryThenOldest b = true) (hbc : b.primaryThenOldest c = true) :
    a.primaryThenOldest c = true := by
  rw [primaryThenOldest_iff] at *
  rcases hab with ⟨ha, hb⟩ | ⟨hab, hle⟩
  · rcases hbc with ⟨hb', -⟩ | ⟨hbc, -⟩
    · exact absurd hb' (by simp [hb])
    · exact .inl ⟨ha, hbc ▸ hb⟩
  · rcases hbc with ⟨hb, hc⟩ | ⟨hbc, hle'⟩
    · exact .inl ⟨hab.trans hb, hc⟩
    · exact .inr ⟨hab.trans hbc, Nat.le_trans hle hle'⟩

theorem primaryThenOldest_total (a b : PersonClientAccess) :
    a.primaryThenOldest b = true ∨ b.primaryThenOldest a = true := by
  simp only [primaryThenOldest_iff]
  have hle := Nat.le_total a.createdOn b.createdOn
  cases a.isPrimary <;> cases b.isPrimary <;> simp [hle]

/-- The access records of the rows `q` selects. -/
def Db.accessRecordsWhere (env : Env) (user : StatelessUser) (q : PersonClientAccess → Bool)
    (db : Db) : List AccessRecord :=
  (env.accessOrder.findManyBy PersonClientAccess.primaryThenOldest
    (fun a => db.hasIdpId user.idpId a && q a) db.accesses.rows).filterMap db.accessRecord

/-- A selection of records is one of rows. -/
theorem accessRecordsOf_filter {env : Env} (hsteady : env.accessOrder.Steady) (user : StatelessUser)
    (db : Db) {p : AccessRecord → Bool} {q : PersonClientAccess → Bool}
    (hpq : ∀ a r, db.accessRecord a = some r → p r = q a) :
    (db.accessRecordsOf env user).filter p = db.accessRecordsWhere env user q := by
  unfold Db.accessRecordsOf Db.accessRecordsWhere
  rw [← RowOrder.findManyBy_filter hsteady primaryThenOldest_trans primaryThenOldest_total,
    List.filter_filterMap, List.filterMap_filter]
  congr 1
  funext a
  cases hr : db.accessRecord a with
  | none => simp
  | some r => rw [Option.filter_some, hpq a r hr]

theorem accessRecord_spec {db : Db} {a : PersonClientAccess} {r : AccessRecord}
    (h : db.accessRecord a = some r) :
    r.isPrimary = a.isPrimary ∧ r.client.id = a.clientId ∧ r.site.id = a.siteId ∧
      r.role.id = a.roleId := by
  unfold Db.accessRecord at h
  simp only [Option.bind_eq_bind, Option.bind_eq_some_iff, Option.pure_def, Option.some.injEq] at h
  obtain ⟨client, hclient, site, hsite, role, hrole, rfl⟩ := h
  exact ⟨rfl, (Table.find?_eq_some.mp hclient).2, (Table.find?_eq_some.mp hsite).2,
    (Table.find?_eq_some.mp hrole).2⟩

namespace AuthService

/-- `isRequested`, of the row. -/
def isRequestedRow (clientId : String) (siteId : Option String) (a : PersonClientAccess) : Bool :=
  a.clientId = clientId && (truthy siteId).all (a.siteId = ·)

section Records

variable {env : Env} {user : StatelessUser} {db : Db}

theorem primaryRecords_eq (hsteady : env.accessOrder.Steady) :
    (db.accessRecordsOf env user).filter (·.isPrimary) =
      db.accessRecordsWhere env user (·.isPrimary) :=
  accessRecordsOf_filter hsteady user db fun _ _ h => (accessRecord_spec h).1

theorem requestedRecords_eq (hsteady : env.accessOrder.Steady) (clientId : String)
    (siteId : Option String) :
    (db.accessRecordsOf env user).filter (isRequested clientId siteId) =
      db.accessRecordsWhere env user (isRequestedRow clientId siteId) := by
  apply accessRecordsOf_filter hsteady user db
  intro a r h
  obtain ⟨-, hclient, hsite, -⟩ := accessRecord_spec h
  rw [isRequested, isRequestedRow, hclient, hsite]

end Records

end AuthService

/-- Records of rows that did not change. -/
theorem RowsRewritten.accessRecordsWhere {db db' : Db} (h : RowsRewritten db db') (env : Env)
    (user : StatelessUser) {q : PersonClientAccess → Bool}
    (hq : ∀ a, FlagChanged db.primaryFlag db'.primaryFlag a →
      db.hasIdpId user.idpId a = true → q a = false) :
    db'.accessRecordsWhere env user q = db.accessRecordsWhere env user q := by
  have hrows := h.filter_eq (q := fun a => db.hasIdpId user.idpId a && q a) fun a ha => by
    cases hid : db.hasIdpId user.idpId a with
    | false => rfl
    | true => rw [hq a ha hid]; rfl
  obtain ⟨t, i, rfl⟩ := h.tables
  unfold Db.accessRecordsWhere
  exact congrArg _ (RowOrder.findManyBy_congr hrows)

/-! ## 3. The rows a context consults -/

/-- The role of the row has `SYSTEM` scope. -/
def Db.hasSystemRole (db : Db) (a : PersonClientAccess) : Bool :=
  (db.roles.find? a.roleId).any fun r => (getScopesAtLeast .system).contains r.scope

namespace AuthService

/-- The grant of a `SYSTEM` role, which the intent `user` does not look for. -/
def systemGrant (env : Env) (user : StatelessUser) (ctx : AccessContext) (clientId : String)
    (db : Db) : Option AccessGrant :=
  if ctx.accessIntent.getD .user ≠ .user then
    getSystemAdminAccessGrant env user clientId ctx.requestedSiteId db
  else none

/-- **The answer hangs on the row, if it is there:** without a requested client on the primary
    rows, or on all of them if none is primary; with one on the rows with a `SYSTEM` role, as
    far as the intent looks for those, and unless that gives a grant on the requested rows. If
    there are none, the denial names the primary one. -/
def ConsultsRow (cfg : Config) (env : Env) (user : StatelessUser) (ctx : AccessContext) (db : Db)
    (a : PersonClientAccess) : Prop :=
  db.hasIdpId user.idpId a = true ∧
    match truthy ctx.requestedClientId with
    | none =>
      a.isPrimary = true ∨ (db.accessRecordsOf env user).filter (·.isPrimary) = []
    | some clientId =>
      (ctx.accessIntent.getD .user ≠ .user ∧ db.hasSystemRole a = true) ∨
        (systemGrant env user ctx clientId db = none ∧
          (isRequestedRow clientId ctx.requestedSiteId a = true ∨
            (a.isPrimary = true ∧ userIsDefaultSystemAdmin cfg user = false ∧
              (db.accessRecordsOf env user).filter (isRequested clientId ctx.requestedSiteId) =
                [])))

section Rows

variable {cfg : Config} {env : Env} {user : StatelessUser} {ctx : AccessContext} {db db' : Db}

theorem fromDatabase_default (h : truthy ctx.requestedClientId = none) :
    getAccessGrantForUserFromDatabase cfg env user ctx db =
      defaultResult cfg user ctx (db.accessRecordsOf env user) := by
  unfold getAccessGrantForUserFromDatabase
  rw [h]

theorem fromDatabase_requested {clientId : String}
    (h : truthy ctx.requestedClientId = some clientId) :
    getAccessGrantForUserFromDatabase cfg env user ctx db =
      match systemGrant env user ctx clientId db with
      | some grant => .ok (.granted grant)
      | none => requestedClientResult cfg user ctx clientId (db.accessRecordsOf env user) := by
  unfold getAccessGrantForUserFromDatabase systemGrant
  rw [h]
  rfl

/-- With a primary record, the default reads the primary records and no other. -/
theorem defaultResult_primary {records : List AccessRecord}
    (h : records.filter (·.isPrimary) ≠ []) :
    defaultResult cfg user ctx records =
      validateAndBuildAccessGrantResult (records.filter (·.isPrimary)) ctx := by
  unfold defaultResult
  have hne : (!(records.filter (·.isPrimary)).isEmpty) = true := by
    rw [Bool.not_eq_true', List.isEmpty_eq_false_iff]
    exact h
  rw [if_pos hne]

/-- The requested client's answer reads the requested records, and where there are none the
    primary ones. -/
theorem requestedClientResult_congr {clientId : String} {records records' : List AccessRecord}
    (hreq : records'.filter (isRequested clientId ctx.requestedSiteId) =
      records.filter (isRequested clientId ctx.requestedSiteId))
    (hprim : userIsDefaultSystemAdmin cfg user = false →
      records.filter (isRequested clientId ctx.requestedSiteId) = [] →
      records'.filter (·.isPrimary) = records.filter (·.isPrimary)) :
    requestedClientResult cfg user ctx clientId records' =
      requestedClientResult cfg user ctx clientId records := by
  simp only [requestedClientResult, hreq]
  by_cases hnil : records.filter (isRequested clientId ctx.requestedSiteId) = []
  · cases hadmin : userIsDefaultSystemAdmin cfg user with
    | true => rfl
    | false =>
      have hfind : records'.find? (·.isPrimary) = records.find? (·.isPrimary) := by
        rw [← List.head?_filter, ← List.head?_filter, hprim hadmin hnil]
      simp only [hfind]
  · simp only [List.isEmpty_iff, hnil, if_false]

theorem systemGrant_rewritten {clientId : String} (h : RowsRewritten db db')
    (hno : ∀ a, FlagChanged db.primaryFlag db'.primaryFlag a → db.hasIdpId user.idpId a = true →
      ctx.accessIntent.getD .user ≠ .user → db.hasSystemRole a = false) :
    systemGrant env user ctx clientId db' = systemGrant env user ctx clientId db := by
  unfold systemGrant
  by_cases hintent : ctx.accessIntent.getD .user ≠ .user
  · rw [if_pos hintent, if_pos hintent]
    have hrows := h.filter_eq (q := fun a => db.hasIdpId user.idpId a && db.hasSystemRole a)
      fun a ha => by
        cases hid : db.hasIdpId user.idpId a with
        | false => rfl
        | true => rw [hno a ha hid hintent]; rfl
    obtain ⟨t, i, rfl⟩ := h.tables
    have hscan := RowOrder.findMany_congr (o := env.accessOrder) hrows
    unfold getSystemAdminAccessGrant getMostPermissiveRole
    unfold Db.hasSystemRole at hscan
    simp only [Db.hasIdpId] at hscan ⊢
    rw [hscan]
  · rw [if_neg hintent, if_neg hintent]

/-- **Rows the context does not consult may come, go and change.** -/
theorem fromDatabase_rewritten (hsteady : env.accessOrder.Steady) (h : RowsRewritten db db')
    (hno : ∀ a, FlagChanged db.primaryFlag db'.primaryFlag a →
      ¬ ConsultsRow cfg env user ctx db a) :
    getAccessGrantForUserFromDatabase cfg env user ctx db' =
      getAccessGrantForUserFromDatabase cfg env user ctx db := by
  -- what is left of a selection none of whose rows is consulted
  have hwhere : ∀ q : PersonClientAccess → Bool,
      (∀ a, db.hasIdpId user.idpId a = true → q a = true → ConsultsRow cfg env user ctx db a) →
      db'.accessRecordsWhere env user q = db.accessRecordsWhere env user q := by
    intro q hq
    apply h.accessRecordsWhere env user
    intro a ha hid
    by_contra hqa
    exact hno a ha (hq a hid (by simpa using hqa))
  cases hc : truthy ctx.requestedClientId with
  | none =>
    rw [fromDatabase_default hc, fromDatabase_default hc]
    simp only [ConsultsRow, hc] at hwhere
    by_cases hprim : (db.accessRecordsOf env user).filter (·.isPrimary) = []
    · -- every row of the user is consulted, so their records are as before
      have hall := hwhere (fun _ => true) fun a hid _ => ⟨hid, .inr hprim⟩
      simp only [Db.accessRecordsWhere, Bool.and_true] at hall
      unfold Db.accessRecordsOf
      rw [hall]
    · have hsame : (db'.accessRecordsOf env user).filter (·.isPrimary) =
          (db.accessRecordsOf env user).filter (·.isPrimary) := by
        rw [primaryRecords_eq hsteady, primaryRecords_eq hsteady]
        exact hwhere (·.isPrimary) fun a hid ha => ⟨hid, .inl ha⟩
      rw [defaultResult_primary hprim, defaultResult_primary (hsame ▸ hprim), hsame]
  | some clientId =>
    rw [fromDatabase_requested hc, fromDatabase_requested hc]
    simp only [ConsultsRow, hc] at hwhere hno
    have hsys : systemGrant env user ctx clientId db' = systemGrant env user ctx clientId db := by
      apply systemGrant_rewritten h
      intro a ha hid hintent
      by_contra hs
      exact hno a ha ⟨hid, .inl ⟨hintent, by simpa using hs⟩⟩
    rw [hsys]
    cases hgrant : systemGrant env user ctx clientId db with
    | some g => rfl
    | none =>
      refine requestedClientResult_congr ?_ fun hadmin hnil => ?_
      · rw [requestedRecords_eq hsteady, requestedRecords_eq hsteady]
        exact hwhere _ fun a hid ha => ⟨hid, .inr ⟨hgrant, .inl ha⟩⟩
      · rw [primaryRecords_eq hsteady, primaryRecords_eq hsteady]
        exact hwhere (·.isPrimary) fun a hid ha =>
          ⟨hid, .inr ⟨hgrant, .inr ⟨ha, hadmin, hnil⟩⟩⟩

end Rows

/-! ## 4. The roles a context consults -/

end AuthService

/-- `r'` grants what `r` grants: a role's name, its description and its flags are not read. -/
def Role.SameGrant (r r' : Role) : Prop :=
  r'.id = r.id ∧ r'.scope = r.scope ∧ r'.capabilities = r.capabilities

theorem Role.SameGrant.refl (r : Role) : r.SameGrant r := ⟨rfl, rfl, rfl⟩

/-- `db'` is `db` with the role `r` changed to `r'`. -/
structure RoleReplaced (db db' : Db) (r r' : Role) : Prop where
  tables : ∃ t, db' = { db with roles := t }
  found : db.roles.find? r.id = some r
  id_eq : r'.id = r.id
  lookup : ∀ k, db'.roles.find? k = if k = r.id then some r' else db.roles.find? k

/-- `r'` in the place of `r`. -/
def replaceRole (r r' x : Role) : Role := if x.id = r.id then r' else x

theorem RoleReplaced.lookup_eq {db db' : Db} {r r' : Role} (h : RoleReplaced db db' r r')
    (k : String) : db'.roles.find? k = (db.roles.find? k).map (replaceRole r r') := by
  rw [h.lookup]
  by_cases hk : k = r.id
  · rw [if_pos hk, hk, h.found, Option.map_some, replaceRole, if_pos rfl]
  · rw [if_neg hk]
    cases hf : db.roles.find? k with
    | none => rfl
    | some x =>
      have hx := (Table.find?_eq_some.mp hf).2
      rw [Option.map_some, replaceRole, if_neg (hx ▸ hk)]

theorem accessRecord_role {db : Db} {a : PersonClientAccess} {rec : AccessRecord}
    (h : db.accessRecord a = some rec) : rec.role ∈ db.roles := by
  unfold Db.accessRecord at h
  simp only [Option.bind_eq_bind, Option.bind_eq_some_iff, Option.pure_def, Option.some.injEq] at h
  obtain ⟨client, -, site, -, role, hrole, rfl⟩ := h
  exact (Table.find?_eq_some.mp hrole).1

/-- The record with another role. -/
def AccessRecord.withRole (g : Role → Role) (rec : AccessRecord) : AccessRecord :=
  { rec with role := g rec.role }

theorem RoleReplaced.accessRecordsOf {db db' : Db} {r r' : Role} (h : RoleReplaced db db' r r')
    (env : Env) (user : StatelessUser) :
    db'.accessRecordsOf env user =
      (db.accessRecordsOf env user).map (.withRole (replaceRole r r')) := by
  have hrecord : ∀ a, db'.accessRecord a =
      (db.accessRecord a).map (.withRole (replaceRole r r')) := by
    intro a
    have hrole := h.lookup_eq a.roleId
    obtain ⟨t, rfl⟩ := h.tables
    unfold Db.accessRecord
    simp only [hrole]
    cases db.clients.find? a.clientId with
    | none => rfl
    | some client =>
      cases db.sites.find? a.siteId with
      | none => rfl
      | some site => cases db.roles.find? a.roleId <;> rfl
  unfold Db.accessRecordsOf
  rw [List.map_filterMap]
  simp only [← hrecord]
  obtain ⟨t, rfl⟩ := h.tables
  rfl

namespace AuthService

/-- **The answer hangs on the role:** a selected record has it, or, as far as the intent looks
    for a `SYSTEM` role, the user has it and it is one, before the change or after it. -/
def ConsultsRole (env : Env) (user : StatelessUser) (ctx : AccessContext) (db : Db)
    (r r' : Role) : Prop :=
  match truthy ctx.requestedClientId with
  | none => ∃ rec ∈ selectedRecords ctx (db.accessRecordsOf env user), rec.role.id = r.id
  | some clientId =>
    (ctx.accessIntent.getD .user ≠ .user ∧ (r.scope = .system ∨ r'.scope = .system) ∧
        ∃ a ∈ db.accesses, db.hasIdpId user.idpId a = true ∧ a.roleId = r.id) ∨
      (systemGrant env user ctx clientId db = none ∧
        ∃ rec ∈ selectedRecords ctx (db.accessRecordsOf env user), rec.role.id = r.id)

section Roles

variable {cfg : Config} {env : Env} {user : StatelessUser} {ctx : AccessContext} {db db' : Db}
  {g : Role → Role}

theorem validateAndBuild_withRole {records : List AccessRecord}
    (h : ∀ rec ∈ records, rec.role.SameGrant (g rec.role)) :
    validateAndBuildAccessGrantResult (records.map (.withRole g)) ctx =
      validateAndBuildAccessGrantResult records ctx := by
  have hgrants : (records.map (AccessRecord.withRole g)).map (·.grant) =
      records.map (·.grant) := by
    rw [List.map_map]
    apply List.map_congr_left
    intro rec hrec
    obtain ⟨hid, hscope, hcaps⟩ := h rec hrec
    simp only [Function.comp_apply, AccessRecord.grant, AccessRecord.withRole, hid, hscope, hcaps]
  unfold validateAndBuildAccessGrantResult
  simp only [hgrants, List.find?_map]
  refine congrArg _ (funext fun grant => ?_)
  split
  · rfl
  · simp only [Function.comp_def]
    have hkeeps : ∀ rec : AccessRecord, (rec.withRole g).client.id = rec.client.id ∧
        (rec.withRole g).site.id = rec.site.id := fun _ => ⟨rfl, rfl⟩
    simp only [hkeeps]
    generalize List.find? _ records = found
    cases found <;> rfl

theorem defaultResult_withRole {records : List AccessRecord}
    (hctx : truthy ctx.requestedClientId = none)
    (h : ∀ rec ∈ selectedRecords ctx records, rec.role.SameGrant (g rec.role)) :
    defaultResult cfg user ctx (records.map (.withRole g)) = defaultResult cfg user ctx records := by
  have hprim : (records.map (AccessRecord.withRole g)).filter (·.isPrimary) =
      (records.filter (·.isPrimary)).map (.withRole g) := List.filter_map
  unfold selectedRecords at h
  simp only [hctx] at h
  simp only [defaultResult, hprim, List.isEmpty_map, ← List.map_take]
  by_cases hnil : (records.filter (·.isPrimary)).isEmpty = true
  · simp only [hnil, if_true] at h
    simp only [hnil, Bool.not_true, Bool.false_eq_true, if_false, validateAndBuild_withRole h]
  · simp only [hnil] at h
    simp only [hnil, Bool.not_false, if_true]
    exact validateAndBuild_withRole h

theorem requestedClientResult_withRole {clientId : String} {records : List AccessRecord}
    (hctx : truthy ctx.requestedClientId = some clientId)
    (h : ∀ rec ∈ selectedRecords ctx records, rec.role.SameGrant (g rec.role)) :
    requestedClientResult cfg user ctx clientId (records.map (.withRole g)) =
      requestedClientResult cfg user ctx clientId records := by
  have hreq : (records.map (AccessRecord.withRole g)).filter
      (isRequested clientId ctx.requestedSiteId) =
        (records.filter (isRequested clientId ctx.requestedSiteId)).map (.withRole g) :=
    List.filter_map
  have hdenied : accessGrantRequestDenied ctx
      ((records.map (AccessRecord.withRole g)).find? (·.isPrimary)) =
        accessGrantRequestDenied ctx (records.find? (·.isPrimary)) := by
    rw [List.find?_map]
    simp only [Function.comp_def, AccessRecord.withRole]
    cases records.find? (·.isPrimary) <;> rfl
  unfold selectedRecords at h
  simp only [hctx] at h
  simp only [requestedClientResult, hreq, List.isEmpty_map, hdenied, validateAndBuild_withRole h]

theorem morePermissive_congr {a a' b b' : Role} (ha : a.SameGrant a') (hb : b.SameGrant b') :
    (morePermissive a b).SameGrant (morePermissive a' b') := by
  unfold morePermissive
  rw [ha.2.1, ha.2.2, hb.2.1, hb.2.2]
  split
  · exact hb
  split
  · exact hb
  · exact ha

theorem foldl_morePermissive_congr {roles : List Role} (h : ∀ x ∈ roles, x.SameGrant (g x))
    {a a' : Role} (ha : a.SameGrant a') :
    (roles.foldl morePermissive a).SameGrant ((roles.map g).foldl morePermissive a') := by
  induction roles generalizing a a' with
  | nil => exact ha
  | cons x roles ih =>
    rw [List.map_cons, List.foldl_cons, List.foldl_cons]
    exact ih (fun y hy => h y (List.mem_cons_of_mem _ hy))
      (morePermissive_congr ha (h x (List.mem_cons_self ..)))

theorem distinctRoleIds_subset :
    ∀ rows : List PersonClientAccess, ∀ a ∈ distinctRoleIds rows, a ∈ rows
  | [], _, ha => ha
  | b :: rows, a, ha => by
    unfold distinctRoleIds at ha
    rw [List.eraseDupsBy_cons, List.mem_cons] at ha
    rcases ha with rfl | ha
    · exact List.mem_cons_self ..
    · have hmem := distinctRoleIds_subset (rows.filter fun c => (c.roleId == b.roleId) = false) a ha
      exact List.mem_cons_of_mem _ (List.mem_of_mem_filter hmem)
termination_by rows => rows.length
decreasing_by exact Nat.lt_succ_of_le (List.length_filter_le ..)

theorem contains_system {x : Role} :
    (getScopesAtLeast .system).contains x.scope = true ↔ x.scope = .system := by
  rw [List.contains_iff_mem, mem_getScopesAtLeast_system]

section SystemRoles

variable {r r' : Role} (h : RoleReplaced db db' r r')
  (hsys : ∀ a ∈ db.accesses, db.hasIdpId user.idpId a = true → a.roleId = r.id →
    r.scope = .system ∨ r'.scope = .system → r.SameGrant r')

include h hsys

/-- The role of a row, if it has `SYSTEM` scope before the change or after it. -/
theorem sameGrant_of_system {a : PersonClientAccess} (ha : a ∈ db.accesses)
    (hid : db.hasIdpId user.idpId a = true) {x : Role} (hx : db.roles.find? a.roleId = some x)
    (hscope : x.scope = .system ∨ (replaceRole r r' x).scope = .system) :
    x.SameGrant (replaceRole r r' x) := by
  unfold replaceRole at hscope ⊢
  obtain ⟨hmem, hxa⟩ := Table.find?_eq_some.mp hx
  by_cases hxr : x.id = r.id
  · obtain rfl : x = r := Table.eq_of_key_eq hmem (Table.find?_eq_some.mp h.found).1 hxr
    rw [if_pos rfl] at hscope ⊢
    exact hsys a ha hid hxa.symm hscope
  · rw [if_neg hxr]
    exact .refl x

/-- The query of the user's `SYSTEM` roles finds the same rows. -/
theorem filter_systemRows :
    db'.accesses.rows.filter (fun a => db'.hasIdpId user.idpId a &&
        (db'.roles.find? a.roleId).any fun x => (getScopesAtLeast .system).contains x.scope) =
      db.accesses.rows.filter (fun a => db.hasIdpId user.idpId a &&
        (db.roles.find? a.roleId).any fun x => (getScopesAtLeast .system).contains x.scope) := by
  have htables : db'.accesses = db.accesses ∧ db'.hasIdpId = db.hasIdpId := by
    obtain ⟨t, rfl⟩ := h.tables
    exact ⟨rfl, rfl⟩
  rw [htables.1, htables.2]
  apply List.filter_congr
  intro a ha
  cases hid : db.hasIdpId user.idpId a with
  | false => rfl
  | true =>
    rw [h.lookup_eq]
    cases hx : db.roles.find? a.roleId with
    | none => rfl
    | some x =>
      have hsame := sameGrant_of_system h hsys ha hid hx
      simp only [Option.map_some, Option.any_some, Bool.true_and]
      rw [Bool.eq_iff_iff, contains_system, contains_system]
      refine ⟨fun hs => ?_, fun hs => ?_⟩
      · rw [← (hsame (.inr hs)).2.1, hs]
      · rw [(hsame (.inl hs)).2.1, hs]

/-- The most permissive `SYSTEM` role after a change that leaves the user's `SYSTEM` roles
    granting the same. -/
theorem getMostPermissiveRole_replaced :
    (getMostPermissiveRole env user .system db = none ∧
        getMostPermissiveRole env user .system db' = none) ∨
      ∃ x x', getMostPermissiveRole env user .system db = some x ∧
        getMostPermissiveRole env user .system db' = some x' ∧ x.SameGrant x' := by
  unfold getMostPermissiveRole
  simp only [RowOrder.findMany_congr (filter_systemRows h hsys)]
  generalize hrows : env.accessOrder.findMany _ db.accesses.rows = rows
  have hmap : (distinctRoleIds rows).filterMap (fun a => db'.roles.find? a.roleId) =
      ((distinctRoleIds rows).filterMap fun a => db.roles.find? a.roleId).map
        (replaceRole r r') := by
    rw [List.map_filterMap]
    simp only [h.lookup_eq]
  have hsame : ∀ x ∈ (distinctRoleIds rows).filterMap (fun a => db.roles.find? a.roleId),
      x.SameGrant (replaceRole r r' x) := by
    intro x hx
    obtain ⟨a, ha, hax⟩ := List.mem_filterMap.mp hx
    have hmem := distinctRoleIds_subset rows a ha
    rw [← hrows, RowOrder.mem_findMany] at hmem
    obtain ⟨hmem, hsel⟩ := hmem
    simp only [hax, Option.any_some, Bool.and_eq_true, contains_system] at hsel
    exact sameGrant_of_system h hsys hmem hsel.1 hax (.inl hsel.2)
  rw [hmap]
  generalize (distinctRoleIds rows).filterMap (fun a => db.roles.find? a.roleId) = roles at hsame ⊢
  cases roles with
  | nil => exact .inl ⟨rfl, rfl⟩
  | cons first rest =>
    refine .inr ⟨_, _, rfl, rfl, ?_⟩
    exact foldl_morePermissive_congr hsame (hsame first (List.mem_cons_self ..))

end SystemRoles

theorem systemGrant_replaced {r r' : Role} {clientId : String} (h : RoleReplaced db db' r r')
    (hsys : ctx.accessIntent.getD .user ≠ .user → ∀ a ∈ db.accesses,
      db.hasIdpId user.idpId a = true → a.roleId = r.id →
        r.scope = .system ∨ r'.scope = .system → r.SameGrant r') :
    systemGrant env user ctx clientId db' = systemGrant env user ctx clientId db := by
  unfold systemGrant
  by_cases hintent : ctx.accessIntent.getD .user ≠ .user
  · rw [if_pos hintent, if_pos hintent]
    have hsites : db'.sites = db.sites := by
      obtain ⟨t, rfl⟩ := h.tables
      rfl
    have hrole : (getMostPermissiveRole env user .system db = none ∧
        getMostPermissiveRole env user .system db' = none) ∨
      ∃ x x', getMostPermissiveRole env user .system db = some x ∧
        getMostPermissiveRole env user .system db' = some x' ∧ x.SameGrant x' :=
      getMostPermissiveRole_replaced h (hsys hintent)
    unfold getSystemAdminAccessGrant
    cases hrole with
    | inl hnone =>
      rw [hnone.1, hnone.2]
      rfl
    | inr hsome =>
      obtain ⟨x, x', hx, hx', hid, hscope, hcaps⟩ := hsome
      rw [hx, hx', hsites]
      simp only [Option.bind_eq_bind, Option.bind_some, hid, hscope, hcaps]
  · rw [if_neg hintent, if_neg hintent]

/-- **A role the context does not consult may change.** -/
theorem fromDatabase_roleReplaced {r r' : Role} (h : RoleReplaced db db' r r')
    (hno : ¬ r.SameGrant r' → ¬ ConsultsRole env user ctx db r r') :
    getAccessGrantForUserFromDatabase cfg env user ctx db' =
      getAccessGrantForUserFromDatabase cfg env user ctx db := by
  -- what is said of the selected records, wherever they are consulted
  have hselected : ((∃ rec ∈ selectedRecords ctx (db.accessRecordsOf env user),
        rec.role.id = r.id) → ConsultsRole env user ctx db r r') →
      ∀ rec ∈ selectedRecords ctx (db.accessRecordsOf env user),
        rec.role.SameGrant (replaceRole r r' rec.role) := by
    intro hcons rec hrec
    unfold replaceRole
    by_cases hid : rec.role.id = r.id
    · rw [if_pos hid]
      obtain ⟨a, -, -, hrecord⟩ := mem_accessRecordsOf.mp (selectedRecords_subset rec hrec)
      have hrole := accessRecord_role hrecord
      obtain heq : rec.role = r :=
        Table.eq_of_key_eq hrole (Table.find?_eq_some.mp h.found).1 hid
      rw [heq]
      by_contra hdiff
      exact hno hdiff (hcons ⟨rec, hrec, hid⟩)
    · rw [if_neg hid]
      exact .refl _
  cases hc : truthy ctx.requestedClientId with
  | none =>
    rw [fromDatabase_default hc, fromDatabase_default hc, h.accessRecordsOf]
    refine defaultResult_withRole hc (hselected fun hex => ?_)
    simp only [ConsultsRole, hc]
    exact hex
  | some clientId =>
    rw [fromDatabase_requested hc, fromDatabase_requested hc]
    have hsys : systemGrant env user ctx clientId db' = systemGrant env user ctx clientId db := by
      apply systemGrant_replaced h
      intro hintent a ha hid hrole hscope
      by_contra hdiff
      refine hno hdiff ?_
      simp only [ConsultsRole, hc]
      exact .inl ⟨hintent, hscope, a, ha, hid, hrole⟩
    rw [hsys]
    cases hgrant : systemGrant env user ctx clientId db with
    | some g => rfl
    | none =>
      simp only [h.accessRecordsOf]
      refine requestedClientResult_withRole hc (hselected fun hex => ?_)
      simp only [ConsultsRole, hc]
      exact .inr ⟨hgrant, hex⟩

end Roles

end AuthService

end ShieldApi
