import ShieldApi.Lib.Runs
import ShieldApi.Auth.Cls

/-!
# Roles

`admin/roles/roles.service.ts`: creating, changing and deleting roles. **A role a client may
hand out never has `GLOBAL` or `SYSTEM` scope.** Three methods check this, each in its own
words: `createRole`, `updateRole` (on the values the role ends up with) and `setScope`.
`RolesRule` is the rule about the whole table, and `rolesRule_run` says that it survives any
sequence of calls.

The cache the service clears is the one of role details. Its keys start with `role-`.
-/

set_option autoImplicit false

namespace ShieldApi

open Effect

structure CreateRoleDto where
  name : String
  description : Option String := none
  scope : RoleScope := .site
  capabilities : List String := []
  notificationGroups : Option (List String) := none
  clientAssignable : Bool := false
  deriving DecidableEq, Repr

structure UpdateRoleDto where
  name : Option String := none
  description : Option String := none
  scope : Option RoleScope := none
  capabilities : Option (List String) := none
  notificationGroups : Option (List String) := none
  clientAssignable : Option Bool := none
  deriving DecidableEq, Repr

abbrev RoleTable : Type := Table Role String Role.id

def World.withRoles (w : World) (t : RoleTable) : World := { w with db := { w.db with roles := t } }

@[simp] theorem World.withRoles_roles (w : World) (t : RoleTable) : (w.withRoles t).db.roles = t :=
  rfl

/-- `prisma.role.update` of a role by id. -/
def updateRoleRow (roleId : String) (f : Role → Role) (hf : ∀ r, (f r).id = r.id) : Api Unit :=
  write fun w => w.withRoles (w.db.roles.updateMany (·.id = roleId) f hf)

namespace RolesService

def scopeRestricted : ApiError :=
  .badRequest "Client-assignable roles cannot have GLOBAL or SYSTEM scope."

def roleNotFound (roleId : String) : ApiError := .notFound ("Role " ++ roleId ++ " not found")

def duplicateName (name : String) : ApiError :=
  .badRequest ("Role with name \"" ++ name ++ "\" already exists")

def invalidCapabilities (capabilities : List String) : List String :=
  capabilities.filter fun c => !isValidCapability c

def checkCapabilities (capabilities : List String) : Api Unit :=
  raiseIf (!(invalidCapabilities capabilities).isEmpty)
    (.badRequest ("Invalid capabilities: " ++ ", ".intercalate (invalidCapabilities capabilities)))

def invalidateRoleCache (roleId : String) : Api Unit :=
  write (·.mdel ["role-capabilities:" ++ roleId, "role-scope:" ++ roleId])

def findRoleOrThrow (roleId : String) : Api Role := do
  let found ← query (·.db.roles.find? roleId)
  orRaise (roleNotFound roleId) found

def createRole (env : Env) (dto : CreateRoleDto) : Api Unit := do
  let taken ← query fun w => w.db.roles.rows.any (·.name = dto.name)
  raiseIf taken (duplicateName dto.name)
  raiseIf (dto.clientAssignable && isScopeAtLeast dto.scope .global) scopeRestricted
  checkCapabilities dto.capabilities
  attempt fun w =>
    match w.db.roles.insert?
      { id := env.cuid 0
        name := dto.name
        description := dto.description
        clientAssignable := dto.clientAssignable
        notificationGroups := dto.notificationGroups.getD []
        scope := dto.scope
        capabilities := dto.capabilities } with
    | some t => .ok ((), w.withRoles t)
    | none => .error .uniqueConstraint

/-- The role an update leaves. -/
def updated (dto : UpdateRoleDto) (r : Role) : Role :=
  { r with
    name := dto.name.getD r.name
    description := dto.description.or r.description
    clientAssignable := dto.clientAssignable.getD r.clientAssignable
    notificationGroups := dto.notificationGroups.getD r.notificationGroups
    scope := dto.scope.getD r.scope
    capabilities := dto.capabilities.getD r.capabilities }

def updateRole (roleId : String) (dto : UpdateRoleDto) : Api Unit := do
  let existingRole ← findRoleOrThrow roleId
  -- a system role keeps its scope
  raiseIf (existingRole.isSystem && dto.scope.any (· ≠ existingRole.scope))
    (.badRequest "Cannot change the scope of a system role")
  let newScope := dto.scope.getD existingRole.scope
  let newClientAssignable := dto.clientAssignable.getD existingRole.clientAssignable
  raiseIf (newClientAssignable && isScopeAtLeast newScope .global) scopeRestricted
  checkCapabilities (dto.capabilities.getD [])
  let duplicate ← query fun w =>
    match truthy dto.name with
    | some name =>
      name ≠ existingRole.name && w.db.roles.rows.any fun r => r.name = name && r.id ≠ roleId
    | none => false
  raiseIf duplicate (duplicateName (dto.name.getD ""))
  updateRoleRow roleId (updated dto) fun _ => rfl
  invalidateRoleCache roleId

def deleteRole (roleId : String) : Api Unit := do
  let existingRole ← findRoleOrThrow roleId
  raiseIf existingRole.isSystem (.badRequest "Cannot delete a system role")
  let assigned ← query fun w => (w.db.accesses.rows.filter (·.roleId = roleId)).length
  raiseIf (assigned > 0)
    (.badRequest ("Cannot delete role that is assigned to " ++ toString assigned ++
      " person(s). Remove assignments first."))
  write fun w => w.withRoles (w.db.roles.deleteMany (·.id = roleId))
  invalidateRoleCache roleId

/-- `[...new Set([...existing, ...capabilities])]`. -/
def mergeCapabilities (existing capabilities : List String) : List String :=
  (existing ++ capabilities).foldl addCapability []

def addCapabilities (roleId : String) (capabilities : List String) : Api Unit := do
  let role ← findRoleOrThrow roleId
  checkCapabilities capabilities
  let newCapabilities := mergeCapabilities role.capabilities capabilities
  updateRoleRow roleId (fun r => { r with capabilities := newCapabilities }) fun _ => rfl
  invalidateRoleCache roleId

def removeCapabilities (roleId : String) (capabilities : List String) : Api Unit := do
  let role ← findRoleOrThrow roleId
  let newCapabilities := role.capabilities.filter fun c => !capabilities.contains c
  updateRoleRow roleId (fun r => { r with capabilities := newCapabilities }) fun _ => rfl
  invalidateRoleCache roleId

def setScope (roleId : String) (scope : RoleScope) : Api Unit := do
  let role ← findRoleOrThrow roleId
  raiseIf role.isSystem (.badRequest "Cannot change the scope of a system role")
  raiseIf (role.clientAssignable && isScopeAtLeast scope .global) scopeRestricted
  updateRoleRow roleId (fun r => { r with scope := scope }) fun _ => rfl
  invalidateRoleCache roleId

end RolesService

/-! ## The rule about assignable roles -/

def Role.MeetsRule (r : Role) : Prop :=
  r.clientAssignable = true → isScopeAtLeast r.scope .global = false

def RolesRule (db : Db) : Prop := ∀ r ∈ db.roles, r.MeetsRule

theorem meetsRule_of_check {r : Role}
    (h : (r.clientAssignable && isScopeAtLeast r.scope .global) = false) : r.MeetsRule := by
  intro ha
  rwa [ha, Bool.true_and] at h

/-- A change of one role keeps the rule if the role it leaves meets it. -/
theorem rolesRule_updateMany {w : World} {roleId : String} {f : Role → Role}
    {hf : ∀ r, (f r).id = r.id} (hw : RolesRule w.db)
    (hrow : ∀ r ∈ w.db.roles, r.id = roleId → (f r).MeetsRule) :
    RolesRule (w.withRoles (w.db.roles.updateMany (·.id = roleId) f hf)).db := by
  intro r hr
  rw [World.withRoles_roles, Table.mem_updateMany] at hr
  obtain ⟨r₀, hr₀, rfl⟩ := hr
  by_cases hid : r₀.id = roleId
  · simp only [hid, decide_true, if_true]
    exact hrow r₀ hr₀ hid
  · simp only [hid, decide_false, Bool.false_eq_true, if_false]
    exact hw r₀ hr₀

namespace RolesService

theorem findRoleOrThrow_readOnly (roleId : String) : (findRoleOrThrow roleId).ReadOnly :=
  (readOnly_query _).bind fun _ => readOnly_orRaise _ _

theorem findRoleOrThrow_ok {roleId : String} {r : Role} {w w' : World}
    (h : (findRoleOrThrow roleId).run w = (.ok r, w')) : r ∈ w.db.roles ∧ r.id = roleId := by
  unfold findRoleOrThrow at h
  rw [run_query_bind] at h
  exact Table.find?_eq_some.mp (orRaise_eq_ok.mp h).1

theorem cacheOnly_invalidateRoleCache (roleId : String) :
    CacheOnly (invalidateRoleCache roleId) := ⟨total_write _, fun _ => rfl⟩

/-- The last two steps of every method that changes a role. -/
theorem update_leaves_rule {w : World} {roleId : String} {f : Role → Role}
    {hf : ∀ r, (f r).id = r.id} (hw : RolesRule w.db)
    (hrow : ∀ r ∈ w.db.roles, r.id = roleId → (f r).MeetsRule) :
    (do updateRoleRow roleId f hf; invalidateRoleCache roleId : Api Unit).Leaves
      (fun w => RolesRule w.db) w :=
  CacheOnly.leaves_bind (fun _ => cacheOnly_invalidateRoleCache roleId)
    (rolesRule_updateMany hw hrow)

end RolesService

/-- A call of the roles service. -/
inductive RoleCall
  | createRole (env : Env) (dto : CreateRoleDto)
  | updateRole (roleId : String) (dto : UpdateRoleDto)
  | deleteRole (roleId : String)
  | addCapabilities (roleId : String) (capabilities : List String)
  | removeCapabilities (roleId : String) (capabilities : List String)
  | setScope (roleId : String) (scope : RoleScope)

namespace RoleCall

def run : RoleCall → Api Unit
  | .createRole env dto => RolesService.createRole env dto
  | .updateRole roleId dto => RolesService.updateRole roleId dto
  | .deleteRole roleId => RolesService.deleteRole roleId
  | .addCapabilities roleId capabilities => RolesService.addCapabilities roleId capabilities
  | .removeCapabilities roleId capabilities => RolesService.removeCapabilities roleId capabilities
  | .setScope roleId scope => RolesService.setScope roleId scope

def step (w : World) (call : RoleCall) : World := call.run.after w

/-- **No call of the roles service breaks the rule.** -/
theorem leaves_rule (call : RoleCall) {w : World} (hw : RolesRule w.db) :
    call.run.Leaves (fun w => RolesRule w.db) w := by
  cases call with
  | createRole env dto =>
    refine (readOnly_query _).leaves_bind hw fun taken _ => ?_
    refine (readOnly_raiseIf _ _).leaves_bind hw fun _ _ => ?_
    refine (readOnly_raiseIf _ _).leaves_bind hw fun _ hscope => ?_
    refine (readOnly_raiseIf _ _).leaves_bind hw fun _ _ => ?_
    refine (atomic_attempt _).leaves hw fun _ w' h => ?_
    rw [attempt_eq_ok] at h
    split at h
    · rename_i t ht
      obtain ⟨-, rfl⟩ := Prod.mk.inj (Except.ok.inj h)
      intro r hr
      rcases (Table.mem_insert? ht).mp hr with hr | rfl
      · exact hw r hr
      · exact meetsRule_of_check (raiseIf_eq_ok.mp hscope).1
    · exact absurd h (by simp)
  | updateRole roleId dto =>
    refine (RolesService.findRoleOrThrow_readOnly roleId).leaves_bind hw fun role hrole => ?_
    obtain ⟨hmem, hid⟩ := RolesService.findRoleOrThrow_ok hrole
    refine (readOnly_raiseIf _ _).leaves_bind hw fun _ _ => ?_
    refine (readOnly_raiseIf _ _).leaves_bind hw fun _ hscope => ?_
    refine (readOnly_raiseIf _ _).leaves_bind hw fun _ _ => ?_
    refine (readOnly_query _).leaves_bind hw fun _ _ => ?_
    refine (readOnly_raiseIf _ _).leaves_bind hw fun _ _ => ?_
    refine RolesService.update_leaves_rule hw fun r hr hrid => ?_
    obtain rfl := Table.eq_of_key_eq hr hmem (hrid.trans hid.symm)
    exact meetsRule_of_check (raiseIf_eq_ok.mp hscope).1
  | deleteRole roleId =>
    refine (RolesService.findRoleOrThrow_readOnly roleId).leaves_bind hw fun role _ => ?_
    refine (readOnly_raiseIf _ _).leaves_bind hw fun _ _ => ?_
    refine (readOnly_query _).leaves_bind hw fun _ _ => ?_
    refine (readOnly_raiseIf _ _).leaves_bind hw fun _ _ => ?_
    refine CacheOnly.leaves_bind (fun _ => RolesService.cacheOnly_invalidateRoleCache roleId) ?_
    exact fun r hr => hw r (Table.mem_deleteMany.mp hr).1
  | addCapabilities roleId capabilities =>
    refine (RolesService.findRoleOrThrow_readOnly roleId).leaves_bind hw fun role _ => ?_
    refine (readOnly_raiseIf _ _).leaves_bind hw fun _ _ => ?_
    exact RolesService.update_leaves_rule hw fun r hr _ => hw r hr
  | removeCapabilities roleId capabilities =>
    refine (RolesService.findRoleOrThrow_readOnly roleId).leaves_bind hw fun role _ => ?_
    exact RolesService.update_leaves_rule hw fun r hr _ => hw r hr
  | setScope roleId scope =>
    refine (RolesService.findRoleOrThrow_readOnly roleId).leaves_bind hw fun role hrole => ?_
    obtain ⟨hmem, hid⟩ := RolesService.findRoleOrThrow_ok hrole
    refine (readOnly_raiseIf _ _).leaves_bind hw fun _ _ => ?_
    refine (readOnly_raiseIf _ _).leaves_bind hw fun _ hscope => ?_
    refine RolesService.update_leaves_rule hw fun r hr hrid => ?_
    obtain rfl := Table.eq_of_key_eq hr hmem (hrid.trans hid.symm)
    exact meetsRule_of_check (raiseIf_eq_ok.mp hscope).1

end RoleCall

/-- The rule holds in every state a sequence of role calls reaches. -/
theorem rolesRule_run {w w' : World} {calls : List RoleCall} (hw : RolesRule w.db)
    (h : Reached RoleCall.step w calls w') : RolesRule w'.db :=
  Reached.invariant (I := fun w => RolesRule w.db) hw (fun _ call _ hu => call.leaves_rule hu) h

end ShieldApi
