import ShieldApi.Auth.AuthService
import ShieldApi.Auth.GrantReads
import ShieldApi.Clients.Escalation
import ShieldApi.Clients.Users

/-!
# What the services write behind the access-grant cache

Ten methods change what an access grant is made of: six write access rows, four write a role.
After the write each of them deletes cache entries, by key. `AccessWrite` and `RoleWrite` sum
the ten up, in terms of the database **before** the call: when it goes through, what it makes
of the rows' flags (`Db.primaryFlag`) or of the role, and which access-grant keys it clears.
`step_spec` says that a call does this or nothing.

**The methods that write a role clear no access-grant key**: the two keys they delete are those
of a role's details.
-/

set_option autoImplicit false

namespace ShieldApi

open Effect

/-! ## 1. Rewriting rows, query by query -/

section Queries

variable {db : Db} {w w' : World}

theorem RowsRewritten.refl (db : Db) : RowsRewritten db db :=
  ⟨⟨db.accesses, db.invitations, rfl⟩, .refl PersonClientAccess.upToFlag_refl _⟩

theorem RowsRewritten.withAccesses (h : RowsRewritten db w.db) {t : AccessTable}
    (ht : db.accesses.Edited PersonClientAccess.UpToFlag t) :
    RowsRewritten db (w.withAccesses t).db := by
  obtain ⟨t₀, i, hdb⟩ := h.tables
  refine ⟨⟨t, i, ?_⟩, ht⟩
  rw [World.withAccesses, hdb]

theorem RowsRewritten.withInvitations (h : RowsRewritten db w.db) (t : InvitationTable) :
    RowsRewritten db (w.withInvitations t).db := by
  obtain ⟨t₀, i, hdb⟩ := h.tables
  refine ⟨⟨t₀, t, ?_⟩, h.edited⟩
  rw [World.withInvitations, hdb]

theorem deleteAccesses_rewrites {p : AccessKey → Bool} {u : Unit} (h : RowsRewritten db w.db)
    (hrun : (deleteAccesses p).run w = (.ok u, w')) : RowsRewritten db w'.db := by
  obtain ⟨-, rfl⟩ := Prod.mk.inj hrun
  exact h.withAccesses (h.edited.deleteMany _)

theorem setPrimaries_rewrites {p : AccessKey → Bool} {u : Unit} (h : RowsRewritten db w.db)
    (hrun : (setPrimaries p).run w = (.ok u, w')) : RowsRewritten db w'.db := by
  obtain ⟨-, rfl⟩ := Prod.mk.inj hrun
  exact h.withAccesses (h.edited.updateMany _ fun _ _ hab => hab.setPrimary true)

/-- A creation, on a table that has lost no key. -/
theorem createAccess_rewrites {a r : PersonClientAccess} (h : RowsRewritten db w.db)
    (hkeys : ∀ b ∈ db.accesses, ∃ c ∈ w.db.accesses, c.key = b.key)
    (hrun : (createAccess a).run w = (.ok r, w')) : RowsRewritten db w'.db := by
  obtain ⟨-, -, t, ht, rfl⟩ := createAccess_eq_ok.mp hrun
  refine h.withAccesses (h.edited.insert? (fun b hb hk => ?_) ht)
  obtain ⟨c, hc, hcb⟩ := hkeys b hb
  exact (Table.insert?_eq_some.mp ht).2 c hc (hcb.trans hk)

theorem upsertWithPrimary_rewrites {a r : PersonClientAccess} (h : RowsRewritten db w.db)
    (hkeys : ∀ b ∈ db.accesses, ∃ c ∈ w.db.accesses, c.key = b.key)
    (hrun : (upsertWithPrimary a).run w = (.ok r, w')) : RowsRewritten db w'.db := by
  rw [upsertWithPrimary, upsertAccess_run] at hrun
  cases hf : w.db.accesses.find? a.key with
  | some b =>
    rw [hf] at hrun
    obtain ⟨-, rfl⟩ := Prod.mk.inj hrun
    exact h.withAccesses (h.edited.updateMany _ fun _ _ hab => hab.setPrimary a.isPrimary)
  | none =>
    rw [hf] at hrun
    exact createAccess_rewrites h hkeys hrun

theorem OnlyAccesses.cache (h : OnlyAccesses w w') : w'.cache = w.cache := by
  obtain ⟨t, rfl⟩ := h
  rfl

/-- The rows of an upsert loop come back in order, and no key is lost on the way. -/
theorem forEach_upsert_rewrites {rows rs : List PersonClientAccess} (h : RowsRewritten db w.db)
    (hkeys : ∀ b ∈ db.accesses, ∃ c ∈ w.db.accesses, c.key = b.key)
    (hrun : (forEach rows upsertWithPrimary).run w = (.ok rs, w')) :
    RowsRewritten db w'.db ∧ rs.map (·.key) = rows.map (·.key) ∧ w'.cache = w.cache := by
  induction rows generalizing w rs with
  | nil =>
    rw [forEach, run_pure] at hrun
    obtain ⟨hr, rfl⟩ := Prod.mk.inj hrun
    rw [← Except.ok.inj hr]
    exact ⟨h, rfl, rfl⟩
  | cons a rows ih =>
    obtain ⟨r, w₁, rs', hr, hrs, rfl⟩ := forEach_cons_eq_ok.mp hrun
    obtain ⟨honly, hkey, hflag⟩ := upsertWithPrimary_flag hr
    have hkeys₁ : ∀ b ∈ db.accesses, ∃ c ∈ w₁.db.accesses, c.key = b.key := by
      intro b hb
      refine primaryFlag_isSome.mp ?_
      rw [hflag, Function.update_apply]
      split
      · rfl
      · exact primaryFlag_isSome.mpr (hkeys b hb)
    obtain ⟨h₂, hmap, hcache⟩ := ih (upsertWithPrimary_rewrites h hkeys hr) hkeys₁ hrs
    refine ⟨h₂, ?_, hcache.trans honly.cache⟩
    rw [List.map_cons, List.map_cons, hkey, hmap]

/-! ## 2. Deleting and promoting, as flags -/

/-- The flags without the rows `p` selects. -/
def withoutRows (p : AccessKey → Bool) (flags : AccessKey → Option Bool) (k : AccessKey) :
    Option Bool :=
  if p k then none else flags k

/-- The flags with the rows `p` selects made primary. -/
def withPrimary (p : AccessKey → Bool) (flags : AccessKey → Option Bool) (k : AccessKey) :
    Option Bool :=
  if p k then (flags k).map fun _ => true else flags k

/-- The place a promotion makes primary: that of the oldest row in sight. -/
def promotedPlace (sees : String → Bool) (env : Env) (personId : String) (t : AccessTable) :
    AccessKey → Bool :=
  match env.accessOrder.findFirstBy PersonClientAccess.oldest
    (fun a => sees a.clientId && a.personId = personId) t.rows with
  | some oldest => fun k =>
    sees k.clientId && k.personId = personId && k.clientId = oldest.clientId &&
      k.siteId = oldest.siteId
  | none => fun _ => false

/-- The flags after a promotion. -/
def promotedFlags (sees : String → Bool) (env : Env) (personId : String) (t : AccessTable) :
    AccessKey → Option Bool :=
  withPrimary (promotedPlace sees env personId t) fun k => (t.find? k).map (·.isPrimary)

/-- The flags after one row was deleted: if it was primary and no primary row of the person is
    left in sight, their oldest place is promoted. -/
def flagsAfterDelete (sees : String → Bool) (env : Env) (access : PersonClientAccess) (db : Db) :
    AccessKey → Option Bool :=
  let rest := db.accesses.deleteMany fun a => a.key = access.key
  let remainingPrimary := env.accessOrder.findFirst
    (fun a => sees a.clientId && a.personId = access.personId && a.isPrimary) rest.rows
  if access.isPrimary && remainingPrimary.isNone then
    promotedFlags sees env access.personId rest
  else withoutRows (· = access.key) db.primaryFlag

theorem promoteOldestRemaining_rewrites {sees : String → Bool} {env : Env} {personId : String}
    {u : Unit} (h : RowsRewritten db w.db)
    (hrun : (promoteOldestRemaining sees env personId).run w = (.ok u, w')) :
    RowsRewritten db w'.db ∧ w'.db.primaryFlag = promotedFlags sees env personId w.db.accesses ∧
      w'.cache = w.cache := by
  unfold promoteOldestRemaining at hrun
  rw [run_query_bind] at hrun
  unfold promotedFlags promotedPlace
  cases hf : env.accessOrder.findFirstBy PersonClientAccess.oldest
      (fun a => sees a.clientId && decide (a.personId = personId)) w.db.accesses.rows with
  | none =>
    rw [hf] at hrun
    obtain ⟨-, rfl⟩ := Prod.mk.inj hrun
    exact ⟨h, rfl, rfl⟩
  | some oldest =>
    simp only [hf] at hrun
    refine ⟨setPrimaries_rewrites h hrun, ?_, ?_⟩
    · obtain ⟨w₁, hrun₁, -, hflag⟩ := setPrimaries_run
        (fun k => sees k.clientId && decide (k.personId = personId) &&
          decide (k.clientId = oldest.clientId) && decide (k.siteId = oldest.siteId)) w
      rw [hrun₁] at hrun
      obtain ⟨-, rfl⟩ := Prod.mk.inj hrun
      funext k
      exact hflag k
    · obtain ⟨-, rfl⟩ := Prod.mk.inj hrun
      rfl

theorem deleteAccessKeepingPrimary_rewrites {sees : String → Bool} {env : Env}
    {access : PersonClientAccess} {u : Unit}
    (hrun : (deleteAccessKeepingPrimary sees env access).run w = (.ok u, w')) :
    RowsRewritten w.db w'.db ∧ w'.db.primaryFlag = flagsAfterDelete sees env access w.db ∧
      w'.cache = w.cache := by
  unfold deleteAccessKeepingPrimary at hrun
  rw [bind_eq_ok] at hrun
  obtain ⟨_, w₁, hdel, hrun⟩ := hrun
  have h₁ := deleteAccesses_rewrites (.refl w.db) hdel
  obtain ⟨w₂, hdel', -, hflag⟩ := deleteAccesses_run (fun k => decide (k = access.key)) w
  rw [hdel] at hdel'
  obtain ⟨-, rfl⟩ := Prod.mk.inj hdel'
  have hflags : w₁.db.primaryFlag = withoutRows (· = access.key) w.db.primaryFlag := by
    funext k
    exact hflag k
  obtain ⟨-, rfl⟩ := Prod.mk.inj hdel
  unfold flagsAfterDelete
  cases hprim : access.isPrimary with
  | false =>
    rw [hprim] at hrun
    obtain ⟨-, rfl⟩ := Prod.mk.inj hrun
    exact ⟨h₁, hflags, rfl⟩
  | true =>
    rw [hprim, if_pos rfl, run_query_bind] at hrun
    simp only [World.withAccesses_accesses] at hrun
    cases hrem : env.accessOrder.findFirst
        (fun a => sees a.clientId && decide (a.personId = access.personId) && a.isPrimary)
        (w.db.accesses.deleteMany fun a => decide (a.key = access.key)).rows with
    | some a =>
      rw [hrem] at hrun
      obtain ⟨-, rfl⟩ := Prod.mk.inj hrun
      simp only [hrem, Option.isNone_some, Bool.and_false, Bool.false_eq_true, if_false]
      exact ⟨h₁, hflags, rfl⟩
    | none =>
      rw [hrem] at hrun
      simp only [hrem, Option.isNone_none, Bool.and_true, if_true]
      exact promoteOldestRemaining_rewrites h₁ hrun

end Queries

/-! ## 3. The calls -/

/-- A call that reads or writes what access grants are made of. `expire` is not a call of a
    service: entries of the cache run out by themselves. -/
inductive GrantCall
  | accept (cls : Cls) (env : Env) (code : String)
  | membersAddRole (cls : Cls) (env : Env) (id : String) (dto : AddRoleDto)
  | membersRemoveRole (cls : Cls) (env : Env) (id : String) (dto : RemoveRoleDto)
  | membersRemove (cls : Cls) (env : Env) (id : String)
  | usersAddRole (env : Env) (id : String) (dto : AddUserRoleDto)
  | usersRemoveRole (env : Env) (id : String) (dto : RemoveUserRoleDto)
  | updateRole (roleId : String) (dto : UpdateRoleDto)
  | addCapabilities (roleId : String) (capabilities : List String)
  | removeCapabilities (roleId : String) (capabilities : List String)
  | setScope (roleId : String) (scope : RoleScope)
  | getAccessGrantForUser (user : StatelessUser) (ctx : AccessContext)
  | expire (keys : List String)

/-- `env` is what the surroundings of the lookups decide. -/
def GrantCall.step (cfg : Config) (env : Env) (w : World) : GrantCall → World
  | .accept cls env code => (InvitationsService.accept cfg cls env code).after w
  | .membersAddRole cls env id dto => (MembersService.addRole cls env id dto).after w
  | .membersRemoveRole cls env id dto => (MembersService.removeRole cls env id dto).after w
  | .membersRemove cls env id => (MembersService.remove cls env id).after w
  | .usersAddRole env id dto => (UsersService.addRole env id dto).after w
  | .usersRemoveRole env id dto => (UsersService.removeRole env id dto).after w
  | .updateRole roleId dto => (RolesService.updateRole roleId dto).after w
  | .addCapabilities roleId capabilities =>
    (RolesService.addCapabilities roleId capabilities).after w
  | .removeCapabilities roleId capabilities =>
    (RolesService.removeCapabilities roleId capabilities).after w
  | .setScope roleId scope => (RolesService.setScope roleId scope).after w
  | .getAccessGrantForUser user ctx =>
    (AuthService.getAccessGrantForUser cfg env user ctx).after w
  | .expire keys => w.mdel keys

/-! ## 4. What a call that goes through writes -/

/-- The keys `clearAccessGrantsOf` deletes. -/
def clearedKeysOf (idpId : Option String) (clientId : String) (siteId : Option String)
    (siteIds : List String) : List String :=
  match truthy idpId with
  | some idpId => clearedAccessGrantKeys idpId clientId siteId siteIds
  | none => []

/-- The request client of a member call sees by `rls`, and the person `p` is in its sight. -/
structure InSight (cls : Cls) (env : Env) (id : String) (db : Db) (g : AccessGrant)
    (rls : Settings) (p : Person) : Prop where
  grant : cls.accessGrant = some g
  settings : (buildPrimaryExtension cls env.allowedSiteIdsForSite {}).settings = .ok rls
  found : db.persons.find? id = some p
  seen : rls.seesPerson db p.id = true

/-- The member's row that `MembersService.removeRole` takes. -/
def memberAccess (rls : Settings) (env : Env) (id : String) (dto : RemoveRoleDto)
    (g : AccessGrant) (db : Db) : Option PersonClientAccess :=
  env.accessOrder.findFirst
    (fun a => rls.seesClient a.clientId && a.personId = id && a.clientId = g.clientId &&
      a.roleId = dto.roleId && a.siteId = dto.siteId)
    db.accesses.rows

/-- The user's row that `UsersService.removeRole` takes. -/
def userAccess (env : Env) (id : String) (dto : RemoveUserRoleDto) (db : Db) :
    Option PersonClientAccess :=
  env.accessOrder.findFirst
    (fun a => a.personId = id && a.clientId = dto.clientId && a.roleId = dto.roleId &&
      a.siteId = dto.siteId)
    db.accesses.rows

/-- The rows `MembersService.remove` takes. -/
def memberRows (rls : Settings) (id : String) (g : AccessGrant) (k : AccessKey) : Bool :=
  rls.seesClient k.clientId && k.personId = id && k.clientId = g.clientId

/-- The flag of a row that `MembersService.addRole` creates: there is a primary row of the
    member at the same place. -/
def primaryHere (rls : Settings) (id : String) (dto : AddRoleDto) (g : AccessGrant) (db : Db) :
    Bool :=
  db.accesses.rows.any fun a =>
    rls.seesClient a.clientId && a.personId = id && a.clientId = g.clientId &&
      a.siteId = dto.siteId && a.isPrimary

/-- The flags after `MembersService.remove`. -/
def flagsAfterRemove (rls : Settings) (env : Env) (id : String) (g : AccessGrant) (db : Db) :
    AccessKey → Option Bool :=
  if db.accesses.rows.any fun a => rls.seesClient a.clientId && a.personId = id && a.isPrimary then
    promotedFlags rls.seesClient env id
      (db.accesses.deleteMany fun a => memberRows rls id g a.key)
  else withoutRows (memberRows rls id g) db.primaryFlag

/-- `call`, in the database `db`, goes through; it leaves access rows with these `flags` and
    clears these keys. -/
inductive AccessWrite (cfg : Config) (db : Db) :
    GrantCall → (AccessKey → Option Bool) → List String → Prop
  | accept {cls : Cls} {env : Env} {code : String} {inv : Invitation} {person : Person}
      {user : StatelessUser}
      (h : InvitationsService.Acceptable cfg cls env code db inv person)
      (huser : cls.user = some user) :
      AccessWrite cfg db (.accept cls env code)
        (overwrite db.primaryFlag (InvitationsService.acceptWrites env person.id code db
          (InvitationsService.pendingGroup env inv db)))
        ((InvitationsService.pendingGroup env inv db).flatMap fun i =>
          clearedAccessGrantKeys user.idpId i.clientId (some i.siteId) [])
  | membersAddRole {cls : Cls} {env : Env} {id : String} {dto : AddRoleDto} {g : AccessGrant}
      {rls : Settings} {p : Person} (h : InSight cls env id db g rls p)
      (fresh : db.primaryFlag ⟨id, g.clientId, dto.siteId, dto.roleId⟩ = none)
      (refs : db.accessRefs ⟨id, g.clientId, dto.siteId, dto.roleId⟩ = true) :
      AccessWrite cfg db (.membersAddRole cls env id dto)
        (Function.update db.primaryFlag ⟨id, g.clientId, dto.siteId, dto.roleId⟩
          (some (primaryHere rls id dto g db)))
        (clearedKeysOf p.idpId g.clientId (some dto.siteId) [])
  | membersRemoveRole {cls : Cls} {env : Env} {id : String} {dto : RemoveRoleDto}
      {g : AccessGrant} {rls : Settings} {p : Person} {access : PersonClientAccess}
      (h : InSight cls env id db g rls p) (found : memberAccess rls env id dto g db = some access)
      (notLast : 1 < (db.accesses.rows.filter fun a =>
        rls.seesClient a.clientId && a.personId = id && a.clientId = g.clientId).length) :
      AccessWrite cfg db (.membersRemoveRole cls env id dto)
        (flagsAfterDelete rls.seesClient env access db)
        (clearedKeysOf p.idpId access.clientId (some access.siteId) [])
  | membersRemove {cls : Cls} {env : Env} {id : String} {g : AccessGrant} {rls : Settings}
      {p : Person} (h : InSight cls env id db g rls p) :
      AccessWrite cfg db (.membersRemove cls env id) (flagsAfterRemove rls env id g db)
        (clearedKeysOf p.idpId g.clientId none
          ((env.accessOrder.findMany (fun a => rls.seesClient a.clientId && a.personId = id &&
            a.clientId = g.clientId) db.accesses.rows).map (·.siteId)))
  | usersAddRole {env : Env} {id : String} {dto : AddUserRoleDto} {p : Person} {s : Site}
      {r : Role} (found : db.persons.find? id = some p)
      (site : db.sites.find? dto.siteId = some s) (hclient : s.clientId = dto.clientId)
      (role : db.roles.find? dto.roleId = some r)
      (upserts : db.canUpsert ⟨p.id, dto.clientId, dto.siteId, dto.roleId⟩ = true) :
      AccessWrite cfg db (.usersAddRole env id dto)
        (Function.update db.primaryFlag ⟨p.id, dto.clientId, dto.siteId, dto.roleId⟩
          (some (mayBePrimary (findPrimaryAccess env p.id db) dto.clientId dto.siteId)))
        (clearedKeysOf p.idpId dto.clientId (some dto.siteId) [])
  | usersRemoveRole {env : Env} {id : String} {dto : RemoveUserRoleDto} {p : Person}
      {access : PersonClientAccess} (found : db.persons.find? id = some p)
      (row : userAccess env id dto db = some access) :
      AccessWrite cfg db (.usersRemoveRole env id dto)
        (flagsAfterDelete (fun _ => true) env access db)
        (clearedKeysOf p.idpId dto.clientId (some dto.siteId) [])

/-- The name `updateRole` is given is that of another role. -/
def nameTaken (roleId : String) (dto : UpdateRoleDto) (r : Role) (db : Db) : Bool :=
  match truthy dto.name with
  | some name => name ≠ r.name && db.roles.rows.any fun r => r.name = name && r.id ≠ roleId
  | none => false

/-- `call`, in the database `db`, goes through and makes `r'` of the role `r`. -/
inductive RoleWrite (db : Db) : GrantCall → Role → Role → Prop
  | updateRole {roleId : String} {dto : UpdateRoleDto} {r : Role}
      (found : db.roles.find? roleId = some r)
      (system : (r.isSystem && dto.scope.any (· ≠ r.scope)) = false)
      (restricted : (dto.clientAssignable.getD r.clientAssignable &&
        isScopeAtLeast (dto.scope.getD r.scope) .global) = false)
      (valid : RolesService.invalidCapabilities (dto.capabilities.getD []) = [])
      (unique : nameTaken roleId dto r db = false) :
      RoleWrite db (.updateRole roleId dto) r (RolesService.updated dto r)
  | addCapabilities {roleId : String} {capabilities : List String} {r : Role}
      (found : db.roles.find? roleId = some r)
      (valid : RolesService.invalidCapabilities capabilities = []) :
      RoleWrite db (.addCapabilities roleId capabilities) r
        { r with capabilities := RolesService.mergeCapabilities r.capabilities capabilities }
  | removeCapabilities {roleId : String} {capabilities : List String} {r : Role}
      (found : db.roles.find? roleId = some r) :
      RoleWrite db (.removeCapabilities roleId capabilities) r
        { r with capabilities := r.capabilities.filter fun c => !capabilities.contains c }
  | setScope {roleId : String} {scope : RoleScope} {r : Role}
      (found : db.roles.find? roleId = some r) (system : r.isSystem = false)
      (restricted : (r.clientAssignable && isScopeAtLeast scope .global) = false) :
      RoleWrite db (.setScope roleId scope) r { r with scope := scope }

/-! ## 5. …and that it writes this -/

/-- The world after a call that left these flags and cleared these keys. -/
structure Rewrote (flags : AccessKey → Option Bool) (cleared : List String) (w w' : World) :
    Prop where
  rows : RowsRewritten w.db w'.db
  flags : w'.db.primaryFlag = flags
  cache : w'.cache = (w.mdel cleared).cache

/-- The world after a role call. -/
structure RoleRewrote (r r' : Role) (w w' : World) : Prop where
  role : RoleReplaced w.db w'.db r r'
  cache : ∀ k v, w'.cache k = some v → w.cache k = some v

section Cleared

variable {w w' : World}

theorem mdel_append (w : World) (keys keys' : List String) :
    ((w.mdel keys).mdel keys').cache = (w.mdel (keys ++ keys')).cache := by
  funext k
  simp only [World.mdel_cache, List.mem_append]
  by_cases hk : k ∈ keys <;> by_cases hk' : k ∈ keys' <;> simp [hk, hk']

theorem clearAccessGrantsOf_run {idpId : Option String} {clientId : String}
    {siteId : Option String} {siteIds : List String} {u : Unit}
    (hrun : (clearAccessGrantsOf idpId clientId siteId siteIds).run w = (.ok u, w')) :
    w'.db = w.db ∧ w'.cache = (w.mdel (clearedKeysOf idpId clientId siteId siteIds)).cache := by
  unfold clearAccessGrantsOf at hrun
  unfold clearedKeysOf
  cases hid : truthy idpId with
  | none =>
    rw [hid] at hrun
    obtain ⟨-, rfl⟩ := Prod.mk.inj hrun
    exact ⟨rfl, by funext k; simp⟩
  | some i =>
    rw [hid] at hrun
    obtain ⟨-, rfl⟩ := Prod.mk.inj hrun
    exact ⟨rfl, rfl⟩

/-- The clearing loop of `accept`. -/
theorem forEach_clear_run {α : Type} {idpId : String} {clientId siteId : α → String} {as : List α}
    {us : List Unit}
    (hrun : (forEach as fun a =>
      clearAccessGrantResponseCache idpId (clientId a) (some (siteId a)) []).run w = (.ok us, w')) :
    w'.db = w.db ∧ w'.cache = (w.mdel (as.flatMap fun a =>
      clearedAccessGrantKeys idpId (clientId a) (some (siteId a)) [])).cache := by
  induction as generalizing w us with
  | nil =>
    rw [forEach, run_pure] at hrun
    obtain ⟨-, rfl⟩ := Prod.mk.inj hrun
    exact ⟨rfl, by funext k; simp⟩
  | cons a as ih =>
    obtain ⟨_, w₁, _, ha, has, -⟩ := forEach_cons_eq_ok.mp hrun
    obtain ⟨-, rfl⟩ := Prod.mk.inj ha
    obtain ⟨hdb, hcache⟩ := ih has
    refine ⟨hdb, ?_⟩
    rw [hcache, List.flatMap_cons]
    exact mdel_append ..

end Cleared

section Writes

variable {cfg : Config} {cls : Cls} {env : Env} {w w' : World}

theorem accept_writes {code : String} {rs : List PersonClientAccess}
    (hrun : (InvitationsService.accept cfg cls env code).run w = (.ok rs, w')) :
    ∃ flags cleared, AccessWrite cfg w.db (.accept cls env code) flags cleared ∧
      Rewrote flags cleared w w' := by
  unfold InvitationsService.accept at hrun
  rw [bind_eq_ok] at hrun
  obtain ⟨user, w₁, hu, hrun⟩ := hrun
  obtain ⟨huser, rfl⟩ := orRaise_eq_ok.mp hu
  rw [bind_eq_ok] at hrun
  obtain ⟨person, w₂, hp, hrun⟩ := hrun
  obtain ⟨hperson, rfl⟩ := orRaise_eq_ok.mp hp
  rw [bind_eq_ok] at hrun
  obtain ⟨allAccess, w₃, htrans, hrun⟩ := hrun
  rw [transaction_eq_ok] at htrans
  rw [bind_eq_ok] at hrun
  obtain ⟨us, w₄, hclear, hrun⟩ := hrun
  rw [run_pure] at hrun
  obtain ⟨-, rfl⟩ := Prod.mk.inj hrun
  obtain ⟨inv, hacc⟩ := InvitationsService.acceptTransaction_acceptable cls
    (Option.isSome_of_eq_some huser) hperson htrans
  obtain ⟨rs', w₅, hrun', hinto⟩ := InvitationsService.acceptTransaction_ok hacc
  rw [htrans] at hrun'
  obtain ⟨-, rfl⟩ := Prod.mk.inj hrun'
  -- the transaction once more, for the rows it returned
  rw [InvitationsService.acceptTransaction_run hacc, bind_eq_ok] at htrans
  obtain ⟨rs'', w₆, hloop, htrans⟩ := htrans
  obtain ⟨hrows, hkeys, hcache₆⟩ :=
    forEach_upsert_rewrites (.refl w.db) (fun b hb => ⟨b, hb, rfl⟩) hloop
  obtain ⟨hrs, rfl⟩ := Prod.mk.inj htrans
  obtain rfl := Except.ok.inj hrs
  obtain ⟨hdb, hcache⟩ := forEach_clear_run hclear
  have hcleared : rs''.flatMap (fun a =>
        clearedAccessGrantKeys user.idpId a.clientId (some a.siteId) []) =
      (InvitationsService.pendingGroup env inv w.db).flatMap fun i =>
        clearedAccessGrantKeys user.idpId i.clientId (some i.siteId) [] := by
    have hmap := congrArg (List.flatMap fun k : AccessKey =>
      clearedAccessGrantKeys user.idpId k.clientId (some k.siteId) []) hkeys
    rw [InvitationsService.map_key_acceptedRows] at hmap
    simp only [List.flatMap_map] at hmap
    exact hmap
  refine ⟨_, _, .accept hacc huser, ?_, ?_, ?_⟩
  · rw [hdb]
    exact hrows.withInvitations _
  · rw [hdb]
    exact hinto.flag
  · rw [hcache, hcleared]
    funext k
    simp only [World.mdel_cache, ← hcache₆]
    rfl

/-- A write, and then the clearing of one user's keys. -/
theorem rewrote_of_clear {w₁ : World} {idpId : Option String} {clientId : String}
    {siteId : Option String} {siteIds : List String} {flags : AccessKey → Option Bool} {u : Unit}
    (hrows : RowsRewritten w.db w₁.db) (hflags : w₁.db.primaryFlag = flags)
    (hcache : w₁.cache = w.cache)
    (hclear : (clearAccessGrantsOf idpId clientId siteId siteIds).run w₁ = (.ok u, w')) :
    Rewrote flags (clearedKeysOf idpId clientId siteId siteIds) w w' := by
  obtain ⟨hdb, hcache'⟩ := clearAccessGrantsOf_run hclear
  refine ⟨hdb ▸ hrows, hdb ▸ hflags, ?_⟩
  rw [hcache']
  funext k
  simp only [World.mdel_cache, hcache]

/-- The reads every member call starts with. -/
theorem memberCall_eq_ok {α : Type} {id : String} {a : α}
    {f : AccessGrant → Settings → Person → Api α}
    (h : (do
      let accessGrant ← cls.requireAccessGrant
      let rls ← prismaBuild cls env {}
      let person ← MembersService.findPersonOrThrow rls id
      f accessGrant rls person : Api α).run w = (.ok a, w')) :
    ∃ g rls p, InSight cls env id w.db g rls p ∧ (f g rls p).run w = (.ok a, w') := by
  rw [bind_eq_ok] at h
  obtain ⟨g, w₁, hg, h⟩ := h
  obtain ⟨hgrant, rfl⟩ := orRaise_eq_ok.mp hg
  rw [bind_eq_ok] at h
  obtain ⟨rls, w₂, hrls, h⟩ := h
  obtain rfl := (readOnly_prismaBuild cls env {}).ok hrls
  rw [bind_eq_ok] at h
  obtain ⟨p, w₃, hp, h⟩ := h
  obtain ⟨⟨hfound, hseen⟩, rfl⟩ := MembersService.findPersonOrThrow_eq_ok.mp hp
  exact ⟨g, rls, p, ⟨hgrant, prismaBuild_eq_ok hrls, hfound, hseen⟩, h⟩

theorem membersAddRole_writes {id : String} {dto : AddRoleDto} {a : PersonClientAccess}
    (hrun : (MembersService.addRole cls env id dto).run w = (.ok a, w')) :
    ∃ flags cleared, AccessWrite cfg w.db (.membersAddRole cls env id dto) flags cleared ∧
      Rewrote flags cleared w w' := by
  obtain ⟨g, rls, p, hsight, hrun⟩ := memberCall_eq_ok hrun
  rw [run_query_bind, bind_eq_ok] at hrun
  obtain ⟨access, w₄, hcreate, hrun⟩ := hrun
  rw [bind_eq_ok] at hrun
  obtain ⟨u, w₅, hclear, hrun⟩ := hrun
  rw [run_pure] at hrun
  obtain ⟨-, rfl⟩ := Prod.mk.inj hrun
  obtain ⟨rfl, hrefs, -⟩ := createAccess_eq_ok.mp hcreate
  obtain ⟨honly, hfresh, hflag⟩ := createAccess_flag hcreate
  have hrows := createAccess_rewrites (.refl _) (fun b hb => ⟨b, hb, rfl⟩) hcreate
  refine ⟨_, _, .membersAddRole hsight hfresh hrefs, rewrote_of_clear hrows ?_ honly.cache hclear⟩
  rw [hflag]
  simp only [RowOrder.findFirst_isSome]
  rfl

theorem membersRemoveRole_writes {id : String} {dto : RemoveRoleDto} {u : Unit}
    (hrun : (MembersService.removeRole cls env id dto).run w = (.ok u, w')) :
    ∃ flags cleared, AccessWrite cfg w.db (.membersRemoveRole cls env id dto) flags cleared ∧
      Rewrote flags cleared w w' := by
  obtain ⟨g, rls, p, hsight, hrun⟩ := memberCall_eq_ok hrun
  rw [bind_eq_ok] at hrun
  obtain ⟨access, w₄, htrans, hclear⟩ := hrun
  rw [transaction_eq_ok, run_query_bind, bind_eq_ok] at htrans
  obtain ⟨access', w₅, hrow, htrans⟩ := htrans
  obtain ⟨hfound, rfl⟩ := orRaise_eq_ok.mp hrow
  rw [run_query_bind, bind_eq_ok] at htrans
  obtain ⟨_, w₆, hcount, htrans⟩ := htrans
  obtain ⟨hmany, rfl⟩ := raiseIf_eq_ok.mp hcount
  rw [bind_eq_ok] at htrans
  obtain ⟨_, w₇, hdelete, htrans⟩ := htrans
  rw [run_pure] at htrans
  obtain ⟨haccess, rfl⟩ := Prod.mk.inj htrans
  obtain rfl := Except.ok.inj haccess
  obtain ⟨hrows, hflags, hcache⟩ := deleteAccessKeepingPrimary_rewrites hdelete
  refine ⟨_, _, .membersRemoveRole hsight hfound (by simpa using hmany), ?_⟩
  exact rewrote_of_clear hrows hflags hcache hclear

theorem membersRemove_writes {id : String} {u : Unit}
    (hrun : (MembersService.remove cls env id).run w = (.ok u, w')) :
    ∃ flags cleared, AccessWrite cfg w.db (.membersRemove cls env id) flags cleared ∧
      Rewrote flags cleared w w' := by
  obtain ⟨g, rls, p, hsight, hrun⟩ := memberCall_eq_ok hrun
  rw [run_query_bind, run_query_bind, bind_eq_ok] at hrun
  obtain ⟨_, w₄, htrans, hclear⟩ := hrun
  rw [transaction_eq_ok, bind_eq_ok] at htrans
  obtain ⟨_, w₅, hdelete, hpromote⟩ := htrans
  have hrows := deleteAccesses_rewrites (.refl w.db) hdelete
  obtain ⟨w₆, hdelete', honly, hflag⟩ := deleteAccesses_run (memberRows rls id g) w
  have hsame := hdelete.symm.trans hdelete'
  obtain ⟨-, rfl⟩ := Prod.mk.inj hsame
  refine ⟨_, _, .membersRemove hsight, ?_⟩
  unfold flagsAfterRemove
  cases hhad : w.db.accesses.rows.any fun a =>
      rls.seesClient a.clientId && decide (a.personId = id) && a.isPrimary with
  | false =>
    rw [hhad] at hpromote
    obtain ⟨-, rfl⟩ := Prod.mk.inj hpromote
    refine rewrote_of_clear hrows ?_ honly.cache hclear
    funext k
    exact hflag k
  | true =>
    rw [hhad, if_pos rfl] at hpromote
    obtain ⟨hrows', hflags, hcache⟩ := promoteOldestRemaining_rewrites hrows hpromote
    refine rewrote_of_clear hrows' ?_ (hcache.trans honly.cache) hclear
    obtain ⟨-, rfl⟩ := Prod.mk.inj hdelete
    exact hflags

/-- The read every call about a user starts with. -/
theorem userCall_eq_ok {α : Type} {id : String} {a : α} {f : Person → Api α}
    (h : (UsersService.findPersonOrThrow id >>= f).run w = (.ok a, w')) :
    ∃ p, w.db.persons.find? id = some p ∧ (f p).run w = (.ok a, w') := by
  unfold UsersService.findPersonOrThrow at h
  rw [bind_eq_ok] at h
  obtain ⟨p, w₁, hp, h⟩ := h
  rw [run_query_bind] at hp
  obtain ⟨hfound, rfl⟩ := orRaise_eq_ok.mp hp
  exact ⟨p, hfound, h⟩

theorem usersAddRole_writes {id : String} {dto : AddUserRoleDto} {a : PersonClientAccess}
    (hrun : (UsersService.addRole env id dto).run w = (.ok a, w')) :
    ∃ flags cleared, AccessWrite cfg w.db (.usersAddRole env id dto) flags cleared ∧
      Rewrote flags cleared w w' := by
  obtain ⟨p, hfound, hrun⟩ := userCall_eq_ok hrun
  rw [run_query_bind, bind_eq_ok] at hrun
  obtain ⟨_, w₂, hsites, hrun⟩ := hrun
  obtain ⟨hsite, rfl⟩ := raiseIf_eq_ok.mp hsites
  rw [run_query_bind, bind_eq_ok] at hrun
  obtain ⟨_, w₃, hroles, hrun⟩ := hrun
  obtain ⟨hrole, rfl⟩ := raiseIf_eq_ok.mp hroles
  rw [bind_eq_ok] at hrun
  obtain ⟨access, w₄, htrans, hrun⟩ := hrun
  rw [transaction_eq_ok, run_query_bind] at htrans
  rw [bind_eq_ok] at hrun
  obtain ⟨_, w₅, hclear, hrun⟩ := hrun
  rw [run_pure] at hrun
  obtain ⟨-, rfl⟩ := Prod.mk.inj hrun
  obtain ⟨s, hs⟩ := Option.isSome_iff_exists.mp (Option.isNone_eq_false_iff.mp hsite)
  obtain ⟨hs, hclient⟩ := Option.filter_eq_some_iff.mp hs
  obtain ⟨r, hr⟩ := Option.isSome_iff_exists.mp (Option.isNone_eq_false_iff.mp hrole)
  have hrows := upsertWithPrimary_rewrites (.refl _) (fun b hb => ⟨b, hb, rfl⟩) htrans
  obtain ⟨honly, -, hflag⟩ := upsertWithPrimary_flag htrans
  have hupserts := upsertAccess_ok_iff.mp ⟨_, _, htrans⟩
  refine ⟨_, _, .usersAddRole hfound hs (by simpa using hclient) hr hupserts, ?_⟩
  exact rewrote_of_clear hrows hflag honly.cache hclear

theorem usersRemoveRole_writes {id : String} {dto : RemoveUserRoleDto} {u : Unit}
    (hrun : (UsersService.removeRole env id dto).run w = (.ok u, w')) :
    ∃ flags cleared, AccessWrite cfg w.db (.usersRemoveRole env id dto) flags cleared ∧
      Rewrote flags cleared w w' := by
  obtain ⟨p, hfound, hrun⟩ := userCall_eq_ok hrun
  rw [bind_eq_ok] at hrun
  obtain ⟨_, w₂, htrans, hclear⟩ := hrun
  rw [transaction_eq_ok, run_query_bind, bind_eq_ok] at htrans
  obtain ⟨access, w₃, hquery, hdelete⟩ := htrans
  obtain ⟨hrow, rfl⟩ := orRaise_eq_ok.mp hquery
  obtain ⟨hrows, hflags, hcache⟩ := deleteAccessKeepingPrimary_rewrites hdelete
  refine ⟨_, _, .usersRemoveRole hfound hrow, ?_⟩
  exact rewrote_of_clear hrows hflags hcache hclear

/-- The last two steps of every method that changes a role. -/
theorem updateRoleRow_writes {roleId : String} {f : Role → Role} {hf : ∀ r, (f r).id = r.id}
    {r : Role} {u : Unit} (hr : r ∈ w.db.roles ∧ r.id = roleId)
    (hrun : (do updateRoleRow roleId f hf; RolesService.invalidateRoleCache roleId : Api Unit).run w
      = (.ok u, w')) : RoleRewrote r (f r) w w' := by
  obtain ⟨-, rfl⟩ := Prod.mk.inj hrun
  have hfound : w.db.roles.find? r.id = some r := Table.find?_eq_some.mpr ⟨hr.1, rfl⟩
  refine ⟨⟨⟨_, rfl⟩, hfound, hf r, fun k => ?_⟩, fun k v hv => ?_⟩
  · show (w.db.roles.updateMany (·.id = roleId) f hf).find? k = _
    rw [Table.find?_updateMany]
    by_cases hk : k = r.id
    · rw [if_pos hk, hk, hfound, Option.map_some, if_pos (decide_eq_true hr.2)]
    · rw [if_neg hk]
      cases hx : w.db.roles.find? k with
      | none => rfl
      | some x =>
        have hne : x.id ≠ roleId := fun h =>
          hk (((Table.find?_eq_some.mp hx).2.symm.trans h).trans hr.2.symm)
        simp [hne]
  · simp only [World.mdel_cache] at hv
    by_cases hk : k ∈ ["role-capabilities:" ++ roleId, "role-scope:" ++ roleId]
    · rw [if_pos hk] at hv
      exact absurd hv (by simp)
    · rw [if_neg hk] at hv
      exact hv

section Roles

variable {roleId : String} {u : Unit}

/-- The read every role call starts with. -/
theorem roleCall_eq_ok {f : Role → Api Unit}
    (h : (RolesService.findRoleOrThrow roleId >>= f).run w = (.ok u, w')) :
    ∃ r, (r ∈ w.db.roles ∧ r.id = roleId) ∧ (f r).run w = (.ok u, w') := by
  rw [bind_eq_ok] at h
  obtain ⟨r, w₁, hrole, h⟩ := h
  have hr := RolesService.findRoleOrThrow_ok hrole
  obtain rfl := (RolesService.findRoleOrThrow_readOnly roleId).ok hrole
  exact ⟨r, hr, h⟩

theorem updateRole_writes {dto : UpdateRoleDto}
    (hrun : (RolesService.updateRole roleId dto).run w = (.ok u, w')) :
    ∃ r r', RoleWrite w.db (.updateRole roleId dto) r r' ∧ RoleRewrote r r' w w' := by
  obtain ⟨r, hr, hrun⟩ := roleCall_eq_ok hrun
  rw [bind_eq_ok] at hrun
  obtain ⟨_, w₂, hsystem, hrun⟩ := hrun
  obtain ⟨hkeeps, rfl⟩ := raiseIf_eq_ok.mp hsystem
  rw [bind_eq_ok] at hrun
  obtain ⟨_, w₃, hrestricted, hrun⟩ := hrun
  obtain ⟨hscope, rfl⟩ := raiseIf_eq_ok.mp hrestricted
  rw [bind_eq_ok] at hrun
  obtain ⟨_, w₄, hcaps, hrun⟩ := hrun
  obtain ⟨hvalid, rfl⟩ := raiseIf_eq_ok.mp hcaps
  rw [run_query_bind, bind_eq_ok] at hrun
  obtain ⟨_, w₅, hduplicate, hrun⟩ := hrun
  obtain ⟨hunique, rfl⟩ := raiseIf_eq_ok.mp hduplicate
  refine ⟨_, _, .updateRole (Table.find?_eq_some.mpr hr) hkeeps hscope (by simpa using hvalid)
    hunique, ?_⟩
  exact updateRoleRow_writes hr hrun

theorem addCapabilities_writes {capabilities : List String}
    (hrun : (RolesService.addCapabilities roleId capabilities).run w = (.ok u, w')) :
    ∃ r r', RoleWrite w.db (.addCapabilities roleId capabilities) r r' ∧
      RoleRewrote r r' w w' := by
  obtain ⟨r, hr, hrun⟩ := roleCall_eq_ok hrun
  rw [bind_eq_ok] at hrun
  obtain ⟨_, w₂, hcaps, hrun⟩ := hrun
  obtain ⟨hvalid, rfl⟩ := raiseIf_eq_ok.mp hcaps
  refine ⟨_, _, .addCapabilities (Table.find?_eq_some.mpr hr) (by simpa using hvalid), ?_⟩
  exact updateRoleRow_writes hr hrun

theorem removeCapabilities_writes {capabilities : List String}
    (hrun : (RolesService.removeCapabilities roleId capabilities).run w = (.ok u, w')) :
    ∃ r r', RoleWrite w.db (.removeCapabilities roleId capabilities) r r' ∧
      RoleRewrote r r' w w' := by
  obtain ⟨r, hr, hrun⟩ := roleCall_eq_ok hrun
  refine ⟨_, _, .removeCapabilities (Table.find?_eq_some.mpr hr), ?_⟩
  exact updateRoleRow_writes hr hrun

theorem setScope_writes {scope : RoleScope}
    (hrun : (RolesService.setScope roleId scope).run w = (.ok u, w')) :
    ∃ r r', RoleWrite w.db (.setScope roleId scope) r r' ∧ RoleRewrote r r' w w' := by
  obtain ⟨r, hr, hrun⟩ := roleCall_eq_ok hrun
  rw [bind_eq_ok] at hrun
  obtain ⟨_, w₂, hsystem, hrun⟩ := hrun
  obtain ⟨hfree, rfl⟩ := raiseIf_eq_ok.mp hsystem
  rw [bind_eq_ok] at hrun
  obtain ⟨_, w₃, hrestricted, hrun⟩ := hrun
  obtain ⟨hscope, rfl⟩ := raiseIf_eq_ok.mp hrestricted
  refine ⟨_, _, .setScope (Table.find?_eq_some.mpr hr) hfree hscope, ?_⟩
  exact updateRoleRow_writes hr hrun

end Roles

end Writes

/-! ## 6. A call that throws writes nothing -/

theorem atomic_accept (cfg : Config) (cls : Cls) (env : Env) (code : String) :
    (InvitationsService.accept cfg cls env code).Atomic := by
  unfold InvitationsService.accept
  apply (readOnly_orRaise _ _).bind_atomic
  intro user
  apply (readOnly_orRaise _ _).bind_atomic
  intro person
  apply (atomic_transaction _).bind_total
  intro allAccess
  exact ((cacheOnly_forEach (fun _ => cacheOnly_clear ..) _).bind fun _ => cacheOnly_pure _).total

theorem atomic_membersAddRole (cls : Cls) (env : Env) (id : String) (dto : AddRoleDto) :
    (MembersService.addRole cls env id dto).Atomic := by
  unfold MembersService.addRole
  apply (readOnly_requireAccessGrant cls).bind_atomic
  intro g
  apply (readOnly_prismaBuild cls env {}).bind_atomic
  intro rls
  apply (MembersService.readOnly_findPersonOrThrow rls id).bind_atomic
  intro person
  apply (readOnly_query _).bind_atomic
  intro primaryHere
  apply (atomic_attempt _).bind_total
  intro access
  exact ((cacheOnly_clearOf ..).bind fun _ => cacheOnly_pure _).total

theorem atomic_membersRemoveRole (cls : Cls) (env : Env) (id : String) (dto : RemoveRoleDto) :
    (MembersService.removeRole cls env id dto).Atomic := by
  unfold MembersService.removeRole
  apply (readOnly_requireAccessGrant cls).bind_atomic
  intro g
  apply (readOnly_prismaBuild cls env {}).bind_atomic
  intro rls
  apply (MembersService.readOnly_findPersonOrThrow rls id).bind_atomic
  intro person
  exact (atomic_transaction _).bind_total fun access => (cacheOnly_clearOf ..).total

theorem atomic_membersRemove (cls : Cls) (env : Env) (id : String) :
    (MembersService.remove cls env id).Atomic := by
  unfold MembersService.remove
  apply (readOnly_requireAccessGrant cls).bind_atomic
  intro g
  apply (readOnly_prismaBuild cls env {}).bind_atomic
  intro rls
  apply (MembersService.readOnly_findPersonOrThrow rls id).bind_atomic
  intro person
  apply (readOnly_query _).bind_atomic
  intro had
  apply (readOnly_query _).bind_atomic
  intro rows
  exact (atomic_transaction _).bind_total fun _ => (cacheOnly_clearOf ..).total

theorem readOnly_usersFindPersonOrThrow (id : String) :
    (UsersService.findPersonOrThrow id).ReadOnly :=
  (readOnly_query _).bind fun _ => readOnly_orRaise _ _

theorem atomic_usersAddRole (env : Env) (id : String) (dto : AddUserRoleDto) :
    (UsersService.addRole env id dto).Atomic := by
  unfold UsersService.addRole
  apply (readOnly_usersFindPersonOrThrow id).bind_atomic
  intro person
  apply (readOnly_query _).bind_atomic
  intro site
  apply (readOnly_raiseIf _ _).bind_atomic
  intro _
  apply (readOnly_query _).bind_atomic
  intro role
  apply (readOnly_raiseIf _ _).bind_atomic
  intro _
  apply (atomic_transaction _).bind_total
  intro access
  exact ((cacheOnly_clearOf ..).bind fun _ => cacheOnly_pure _).total

theorem atomic_usersRemoveRole (env : Env) (id : String) (dto : RemoveUserRoleDto) :
    (UsersService.removeRole env id dto).Atomic := by
  unfold UsersService.removeRole
  apply (readOnly_usersFindPersonOrThrow id).bind_atomic
  intro person
  exact (atomic_transaction _).bind_total fun _ => (cacheOnly_clearOf ..).total

/-- A role's row is written in one statement. -/
theorem total_updateRoleRow (roleId : String) (f : Role → Role) (hf : ∀ r, (f r).id = r.id) :
    (do updateRoleRow roleId f hf; RolesService.invalidateRoleCache roleId : Api Unit).Total :=
  (total_write _).bind fun _ => total_write _

theorem atomic_updateRole (roleId : String) (dto : UpdateRoleDto) :
    (RolesService.updateRole roleId dto).Atomic := by
  unfold RolesService.updateRole
  apply (RolesService.findRoleOrThrow_readOnly roleId).bind_atomic
  intro role
  apply (readOnly_raiseIf _ _).bind_atomic
  intro _
  apply (readOnly_raiseIf _ _).bind_atomic
  intro _
  apply (readOnly_raiseIf _ _).bind_atomic
  intro _
  apply (readOnly_query _).bind_atomic
  intro duplicate
  exact (readOnly_raiseIf _ _).bind_atomic fun _ => (total_updateRoleRow _ _ _).atomic

theorem atomic_addCapabilities (roleId : String) (capabilities : List String) :
    (RolesService.addCapabilities roleId capabilities).Atomic := by
  unfold RolesService.addCapabilities
  apply (RolesService.findRoleOrThrow_readOnly roleId).bind_atomic
  intro role
  exact (readOnly_raiseIf _ _).bind_atomic fun _ => (total_updateRoleRow _ _ _).atomic

theorem atomic_removeCapabilities (roleId : String) (capabilities : List String) :
    (RolesService.removeCapabilities roleId capabilities).Atomic := by
  unfold RolesService.removeCapabilities
  exact (RolesService.findRoleOrThrow_readOnly roleId).bind_atomic fun role =>
    (total_updateRoleRow _ _ _).atomic

theorem atomic_setScope (roleId : String) (scope : RoleScope) :
    (RolesService.setScope roleId scope).Atomic := by
  unfold RolesService.setScope
  apply (RolesService.findRoleOrThrow_readOnly roleId).bind_atomic
  intro role
  apply (readOnly_raiseIf _ _).bind_atomic
  intro _
  exact (readOnly_raiseIf _ _).bind_atomic fun _ => (total_updateRoleRow _ _ _).atomic

/-! ## 7. The calls together -/

/-- What a call of a service did: nothing, or what `AccessWrite` or `RoleWrite` says. -/
inductive Wrote (cfg : Config) (call : GrantCall) (w w' : World) : Prop
  | nothing (h : w' = w)
  | rows {flags : AccessKey → Option Bool} {cleared : List String}
      (h : AccessWrite cfg w.db call flags cleared) (hw : Rewrote flags cleared w w')
  | role {r r' : Role} (h : RoleWrite w.db call r r') (hw : RoleRewrote r r' w w')

theorem wrote_rows {cfg : Config} {call : GrantCall} {w : World} {α : Type} {x : Api α}
    (hx : x.Atomic)
    (h : ∀ a w', x.run w = (.ok a, w') →
      ∃ flags cleared, AccessWrite cfg w.db call flags cleared ∧ Rewrote flags cleared w w') :
    Wrote cfg call w (x.after w) := by
  cases hx.cases w with
  | inl hw => exact .nothing hw
  | inr hok =>
    obtain ⟨a, hrun⟩ := hok
    obtain ⟨flags, cleared, hwrite, hw⟩ := h a _ hrun
    exact .rows hwrite hw

theorem wrote_role {cfg : Config} {call : GrantCall} {w : World} {x : Api Unit} (hx : x.Atomic)
    (h : ∀ u w', x.run w = (.ok u, w') →
      ∃ r r', RoleWrite w.db call r r' ∧ RoleRewrote r r' w w') :
    Wrote cfg call w (x.after w) := by
  cases hx.cases w with
  | inl hw => exact .nothing hw
  | inr hok =>
    obtain ⟨u, hrun⟩ := hok
    obtain ⟨r, r', hwrite, hw⟩ := h u _ hrun
    exact .role hwrite hw

/-- The calls of the services that write. -/
def GrantCall.IsWrite : GrantCall → Prop
  | .getAccessGrantForUser _ _ | .expire _ => False
  | _ => True

/-- **What a writing call does, told from the database before it.** -/
theorem GrantCall.step_spec (cfg : Config) (env : Env) (w : World) {call : GrantCall}
    (hcall : call.IsWrite) : Wrote cfg call w (call.step cfg env w) := by
  cases call with
  | accept cls env code => exact wrote_rows (atomic_accept _ _ _ _) fun _ _ => accept_writes
  | membersAddRole cls env id dto =>
    exact wrote_rows (atomic_membersAddRole _ _ _ _) fun _ _ => membersAddRole_writes
  | membersRemoveRole cls env id dto =>
    exact wrote_rows (atomic_membersRemoveRole _ _ _ _) fun _ _ => membersRemoveRole_writes
  | membersRemove cls env id =>
    exact wrote_rows (atomic_membersRemove _ _ _) fun _ _ => membersRemove_writes
  | usersAddRole env id dto =>
    exact wrote_rows (atomic_usersAddRole _ _ _) fun _ _ => usersAddRole_writes
  | usersRemoveRole env id dto =>
    exact wrote_rows (atomic_usersRemoveRole _ _ _) fun _ _ => usersRemoveRole_writes
  | updateRole roleId dto => exact wrote_role (atomic_updateRole _ _) fun _ _ => updateRole_writes
  | addCapabilities roleId capabilities =>
    exact wrote_role (atomic_addCapabilities _ _) fun _ _ => addCapabilities_writes
  | removeCapabilities roleId capabilities =>
    exact wrote_role (atomic_removeCapabilities _ _) fun _ _ => removeCapabilities_writes
  | setScope roleId scope => exact wrote_role (atomic_setScope _ _) fun _ _ => setScope_writes
  | getAccessGrantForUser user ctx => exact hcall.elim
  | expire keys => exact hcall.elim

end ShieldApi
