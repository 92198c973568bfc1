import ShieldApi.Admin.Roles
import ShieldApi.Lib.Process

/-!
# Two changes of a role at once

Each method of the roles service reads the role, checks what it is about to write against what it
read, and writes the columns it was given in a statement of its own. Here the methods are cut up at
their awaits, and any number of them run side by side.

**What a call checks of its own arguments holds of what it writes, and what no call ever changes it
can count on**: capabilities stay valid, and a system role stays what it is. What it read of the
other column may be out of date. A call that makes a role assignable and one that raises its scope
each find nothing wrong with the role, and together leave one that is both (`rolesSafe_iff`).
-/

set_option autoImplicit false

namespace ShieldApi

open Effect Process

/-! ## 1. Writes -/

/-- A write of the roles table. -/
inductive RoleRowWrite
  | create (role : Role)
  /-- The columns that are there are set. -/
  | update (roleId : String) (data : UpdateRoleDto)
  | delete (roleId : String)

namespace RolesService

theorem updated_id (data : UpdateRoleDto) (r : Role) : (updated data r).id = r.id := rfl

/-- `prisma.role.update`: of a role that is gone, it throws. -/
def updateOrThrow (roleId : String) (data : UpdateRoleDto) : Api Unit := do
  let found ← query (·.db.roles.find? roleId)
  raiseIf found.isNone .recordNotFound
  updateRoleRow roleId (updated data) (updated_id data)

/-- `prisma.role.delete`. -/
def deleteOrThrow (roleId : String) : Api Unit := do
  let found ← query (·.db.roles.find? roleId)
  raiseIf found.isNone .recordNotFound
  write fun w => w.withRoles (w.db.roles.deleteMany (·.id = roleId))

def newRole (env : Env) (dto : CreateRoleDto) : Role :=
  { id := env.cuid 0
    name := dto.name
    description := dto.description
    clientAssignable := dto.clientAssignable
    notificationGroups := dto.notificationGroups.getD []
    scope := dto.scope
    capabilities := dto.capabilities }

def insertRole (role : Role) : Api Unit :=
  attempt fun w =>
    match w.db.roles.insert? role with
    | some t => .ok ((), w.withRoles t)
    | none => .error .uniqueConstraint

/-! ## 2. The methods, step by step -/

abbrev RoleSteps : Type := Process World (Option RoleRowWrite) ApiError Unit

/-- The read of `createRole`, with its checks. -/
def createCheck (dto : CreateRoleDto) : Api Unit := do
  let taken ← query fun w => w.db.roles.rows.any (·.name = dto.name)
  raiseIf taken (duplicateName dto.name)
  raiseIf (dto.clientAssignable && isScopeAtLeast dto.scope .global) scopeRestricted
  checkCapabilities dto.capabilities

/-- The first read of `updateRole`, with the checks up to the second. -/
def updateCheck (roleId : String) (dto : UpdateRoleDto) : Api Role := do
  let existingRole ← findRoleOrThrow roleId
  raiseIf (existingRole.isSystem && dto.scope.any (· ≠ existingRole.scope))
    (.badRequest "Cannot change the scope of a system role")
  raiseIf (dto.clientAssignable.getD existingRole.clientAssignable &&
    isScopeAtLeast (dto.scope.getD existingRole.scope) .global) scopeRestricted
  checkCapabilities (dto.capabilities.getD [])
  pure existingRole

/-- The second read, of another role with the new name. -/
def updateNameCheck (roleId : String) (dto : UpdateRoleDto) (existingRole : Role) : Api Unit := do
  let duplicate ← query fun w =>
    match truthy dto.name with
    | some name =>
      name ≠ existingRole.name && w.db.roles.rows.any fun r => r.name = name && r.id ≠ roleId
    | none => false
  raiseIf duplicate (duplicateName (dto.name.getD ""))

/-- The read of `deleteRole`, which counts the assignments along, with its checks. -/
def deleteCheck (roleId : String) : Api Unit := do
  let existingRole ← findRoleOrThrow roleId
  raiseIf existingRole.isSystem (.badRequest "Cannot delete a system role")
  let assigned ← query fun w => (w.db.accesses.rows.filter (·.roleId = roleId)).length
  raiseIf (assigned > 0)
    (.badRequest ("Cannot delete role that is assigned to " ++ toString assigned ++
      " person(s). Remove assignments first."))

def addCheck (roleId : String) (capabilities : List String) : Api Role := do
  let role ← findRoleOrThrow roleId
  checkCapabilities capabilities
  pure role

def scopeCheck (roleId : String) (scope : RoleScope) : Api Unit := do
  let role ← findRoleOrThrow roleId
  raiseIf role.isSystem (.badRequest "Cannot change the scope of a system role")
  raiseIf (role.clientAssignable && isScopeAtLeast scope .global) scopeRestricted

/-- The write of a changed role, and what comes after. -/
def writeSteps (roleId : String) (data : UpdateRoleDto) : RoleSteps := do
  atomically (some (.update roleId data)) (updateOrThrow roleId data)
  atomically none (invalidateRoleCache roleId)

end RolesService

open RolesService

/-- The call, cut up at its awaits. -/
def RoleCall.steps : RoleCall → RoleSteps
  | .createRole env dto => do
    atomically none (createCheck dto)
    atomically (some (.create (newRole env dto))) (insertRole (newRole env dto))
  | .updateRole roleId dto => do
    let existingRole ← atomically none (updateCheck roleId dto)
    atomically none (updateNameCheck roleId dto existingRole)
    writeSteps roleId dto
  | .deleteRole roleId => do
    atomically none (deleteCheck roleId)
    atomically (some (.delete roleId)) (deleteOrThrow roleId)
    atomically none (invalidateRoleCache roleId)
  | .addCapabilities roleId capabilities => do
    let role ← atomically none (addCheck roleId capabilities)
    writeSteps roleId { capabilities := some (mergeCapabilities role.capabilities capabilities) }
  | .removeCapabilities roleId capabilities => do
    let role ← atomically none (findRoleOrThrow roleId)
    writeSteps roleId
      { capabilities := some (role.capabilities.filter fun c => !capabilities.contains c) }
  | .setScope roleId scope => do
    atomically none (scopeCheck roleId scope)
    writeSteps roleId { scope := some scope }

/-! ### With nobody else around, the steps are the calls -/

namespace RolesService

/-- The two run alike wherever the role is there. -/
def SameWhereFound (roleId : String) (x y : Api Unit) : Prop :=
  ∀ w : World, (w.db.roles.find? roleId).isSome = true → x.run w = y.run w

theorem eq_of_sameWhereFound {roleId : String} {f g : Role → Api Unit}
    (h : ∀ role, SameWhereFound roleId (f role) (g role)) :
    (findRoleOrThrow roleId >>= f) = findRoleOrThrow roleId >>= g := by
  funext w
  apply run_bind_congr
  intro role t hfind
  obtain ⟨hmem, hid⟩ := findRoleOrThrow_ok hfind
  obtain rfl := (findRoleOrThrow_readOnly roleId).ok hfind
  apply h role
  rw [Table.find?_eq_some.mpr ⟨hmem, hid⟩]
  rfl

theorem SameWhereFound.bind {α : Type} {roleId : String} {x : Api α} {f g : α → Api Unit}
    (hx : x.ReadOnly) (h : ∀ a, SameWhereFound roleId (f a) (g a)) :
    SameWhereFound roleId (x >>= f) (x >>= g) := by
  intro w hw
  apply run_bind_congr
  intro a t ha
  obtain rfl := hx.ok ha
  exact h a t hw

theorem sameWhereFound_writeSteps (roleId : String) (data : UpdateRoleDto) :
    SameWhereFound roleId (writeSteps roleId data).whole
      (do updateRoleRow roleId (updated data) (updated_id data); invalidateRoleCache roleId) := by
  intro w hw
  unfold writeSteps
  simp only [whole_bind, whole_atomically]
  apply run_bind_of_run_eq
  unfold updateOrThrow
  rw [run_query_bind, Option.isNone_eq_false_iff.mpr hw]
  rfl

theorem sameWhereFound_delete (roleId : String) :
    SameWhereFound roleId (do deleteOrThrow roleId; invalidateRoleCache roleId) (do
      write fun w => w.withRoles (w.db.roles.deleteMany (·.id = roleId))
      invalidateRoleCache roleId) := by
  intro w hw
  apply run_bind_of_run_eq
  unfold deleteOrThrow
  rw [run_query_bind, Option.isNone_eq_false_iff.mpr hw]
  rfl

end RolesService

theorem RoleCall.steps_whole (call : RoleCall) : call.steps.whole = call.run := by
  cases call with
  | createRole env dto =>
    unfold steps run createCheck RolesService.createRole
    simp only [whole_bind, whole_atomically, bind_bind]
    rfl
  | updateRole roleId dto =>
    unfold steps run updateCheck updateNameCheck RolesService.updateRole
    simp only [whole_bind, whole_atomically, bind_bind, pure_bind_self]
    refine eq_of_sameWhereFound fun role => ?_
    refine .bind (readOnly_raiseIf _ _) fun _ => .bind (readOnly_raiseIf _ _) fun _ => ?_
    refine .bind (readOnly_raiseIf _ _) fun _ => .bind (readOnly_query _) fun _ => ?_
    exact .bind (readOnly_raiseIf _ _) fun _ => sameWhereFound_writeSteps roleId dto
  | deleteRole roleId =>
    unfold steps run deleteCheck RolesService.deleteRole
    simp only [whole_bind, whole_atomically, bind_bind]
    refine eq_of_sameWhereFound fun role => .bind (readOnly_raiseIf _ _) fun _ => ?_
    refine .bind (readOnly_query _) fun _ => .bind (readOnly_raiseIf _ _) fun _ => ?_
    exact sameWhereFound_delete roleId
  | addCapabilities roleId capabilities =>
    unfold steps run addCheck RolesService.addCapabilities
    simp only [whole_bind, whole_atomically, bind_bind]
    refine eq_of_sameWhereFound fun role => .bind (readOnly_raiseIf _ _) fun _ => ?_
    exact sameWhereFound_writeSteps roleId _
  | removeCapabilities roleId capabilities =>
    unfold steps run RolesService.removeCapabilities
    simp only [whole_bind, whole_atomically]
    exact eq_of_sameWhereFound fun role => sameWhereFound_writeSteps roleId _
  | setScope roleId scope =>
    unfold steps run scopeCheck RolesService.setScope
    simp only [whole_bind, whole_atomically, bind_bind]
    refine eq_of_sameWhereFound fun role => .bind (readOnly_raiseIf _ _) fun _ => ?_
    exact .bind (readOnly_raiseIf _ _) fun _ => sameWhereFound_writeSteps roleId _

/-! ## 3. What a step does -/

/-- What a write makes of the table. -/
def RoleRowWrite.apply : RoleRowWrite → RoleTable → RoleTable
  | .create role, t => (t.insert? role).getD t
  | .update roleId data, t => t.updateMany (·.id = roleId) (updated data) (updated_id data)
  | .delete roleId, t => t.deleteMany (·.id = roleId)

/-- **A step makes the write it announced,** and otherwise leaves the roles alone. -/
def RoleStep : Option RoleRowWrite → (World → World) → Prop
  | none, write => ∀ w, (write w).db.roles = w.db.roles
  | some row, write => ∀ w, (write w).db.roles = row.apply w.db.roles

theorem readOnly_roleStep {α : Type} {x : Api α} (hx : x.ReadOnly) : RoleStep none x.after :=
  fun w => congrArg (·.db.roles) (hx w)

namespace RolesService

theorem insertRole_roleStep (role : Role) :
    RoleStep (some (.create role)) (insertRole role).after := by
  intro w
  show ((insertRole role).run w).2.db.roles = (w.db.roles.insert? role).getD w.db.roles
  unfold insertRole
  cases hinsert : w.db.roles.insert? role with
  | none => rw [run_attempt_error (by simp only [hinsert]; rfl), Option.getD_none]
  | some t =>
    rw [attempt_eq_ok.mpr (by simp only [hinsert]; rfl), Option.getD_some]
    exact World.withRoles_roles w t

theorem updateOrThrow_roleStep (roleId : String) (data : UpdateRoleDto) :
    RoleStep (some (.update roleId data)) (updateOrThrow roleId data).after := by
  intro w
  cases hfind : w.db.roles.find? roleId with
  | none =>
    have hsame : RoleRowWrite.apply (.update roleId data) w.db.roles = w.db.roles := by
      rw [RoleRowWrite.apply, Table.updateMany_eq_self]
      intro r hr hid
      exact absurd (of_decide_eq_true hid) (Table.find?_eq_none.mp hfind r hr)
    rw [hsame, updateOrThrow, after, run_query_bind, hfind]
    rfl
  | some role =>
    rw [updateOrThrow, after, run_query_bind, hfind]
    rfl

theorem deleteOrThrow_roleStep (roleId : String) :
    RoleStep (some (.delete roleId)) (deleteOrThrow roleId).after := by
  intro w
  cases hfind : w.db.roles.find? roleId with
  | none =>
    have hsame : RoleRowWrite.apply (.delete roleId) w.db.roles = w.db.roles := by
      refine Table.eq_of_rows_eq (List.filter_eq_self.mpr fun r hr => ?_)
      simp only [Table.find?_eq_none.mp hfind r hr, decide_false, Bool.not_false]
    rw [hsame, deleteOrThrow, after, run_query_bind, hfind]
    rfl
  | some role =>
    rw [deleteOrThrow, after, run_query_bind, hfind]
    rfl

theorem createCheck_readOnly (dto : CreateRoleDto) : (createCheck dto).ReadOnly :=
  (readOnly_query _).bind fun _ => (readOnly_raiseIf _ _).bind fun _ =>
    (readOnly_raiseIf _ _).bind fun _ => readOnly_raiseIf _ _

theorem updateCheck_readOnly (roleId : String) (dto : UpdateRoleDto) :
    (updateCheck roleId dto).ReadOnly :=
  (findRoleOrThrow_readOnly roleId).bind fun _ => (readOnly_raiseIf _ _).bind fun _ =>
    (readOnly_raiseIf _ _).bind fun _ => (readOnly_raiseIf _ _).bind fun _ => readOnly_pure _

theorem updateNameCheck_readOnly (roleId : String) (dto : UpdateRoleDto) (existingRole : Role) :
    (updateNameCheck roleId dto existingRole).ReadOnly :=
  (readOnly_query _).bind fun _ => readOnly_raiseIf _ _

theorem deleteCheck_readOnly (roleId : String) : (deleteCheck roleId).ReadOnly :=
  (findRoleOrThrow_readOnly roleId).bind fun _ => (readOnly_raiseIf _ _).bind fun _ =>
    (readOnly_query _).bind fun _ => readOnly_raiseIf _ _

theorem addCheck_readOnly (roleId : String) (capabilities : List String) :
    (addCheck roleId capabilities).ReadOnly :=
  (findRoleOrThrow_readOnly roleId).bind fun _ => (readOnly_raiseIf _ _).bind fun _ =>
    readOnly_pure _

theorem scopeCheck_readOnly (roleId : String) (scope : RoleScope) :
    (scopeCheck roleId scope).ReadOnly :=
  (findRoleOrThrow_readOnly roleId).bind fun _ => (readOnly_raiseIf _ _).bind fun _ =>
    readOnly_raiseIf _ _

theorem invalidate_roleStep (roleId : String) : RoleStep none (invalidateRoleCache roleId).after :=
  fun _ => rfl

theorem writeSteps_every (roleId : String) (data : UpdateRoleDto) :
    (writeSteps roleId data).Every RoleStep :=
  (every_atomically (updateOrThrow_roleStep roleId data)).bind fun _ =>
    every_atomically (invalidate_roleStep roleId)

end RolesService

theorem RoleCall.steps_every (call : RoleCall) : call.steps.Every RoleStep := by
  cases call with
  | createRole env dto =>
    exact (every_atomically (readOnly_roleStep (createCheck_readOnly dto))).bind fun _ =>
      every_atomically (insertRole_roleStep _)
  | updateRole roleId dto =>
    refine (every_atomically (readOnly_roleStep (updateCheck_readOnly roleId dto))).bind
      fun existingRole => ?_
    refine (every_atomically (readOnly_roleStep ?_)).bind fun _ => writeSteps_every roleId dto
    exact updateNameCheck_readOnly roleId dto existingRole
  | deleteRole roleId =>
    refine (every_atomically (readOnly_roleStep (deleteCheck_readOnly roleId))).bind fun _ => ?_
    exact (every_atomically (deleteOrThrow_roleStep roleId)).bind fun _ =>
      every_atomically (invalidate_roleStep roleId)
  | addCapabilities roleId capabilities =>
    exact (every_atomically (readOnly_roleStep (addCheck_readOnly roleId capabilities))).bind
      fun _ => writeSteps_every roleId _
  | removeCapabilities roleId capabilities =>
    exact (every_atomically (readOnly_roleStep (findRoleOrThrow_readOnly roleId))).bind
      fun _ => writeSteps_every roleId _
  | setScope roleId scope =>
    exact (every_atomically (readOnly_roleStep (scopeCheck_readOnly roleId scope))).bind
      fun _ => writeSteps_every roleId _

/-! ## 4. What never changes, and what a write was checked against -/

def CapabilitiesValid (capabilities : List String) : Prop :=
  ∀ c ∈ capabilities, isValidCapability c = true

def RolesValid (db : Db) : Prop := ∀ r ∈ db.roles, CapabilitiesValid r.capabilities

/-- The role of that id is a system role and has this scope. -/
def HasSystemRole (db : Db) (roleId : String) (scope : RoleScope) : Prop :=
  ∃ r ∈ db.roles, r.id = roleId ∧ r.isSystem = true ∧ r.scope = scope

/-- **What every call can count on:** capabilities stay valid, and the system roles are the same. -/
structure Steady (w w' : World) : Prop where
  valid : RolesValid w.db → RolesValid w'.db
  system : ∀ roleId scope, HasSystemRole w'.db roleId scope ↔ HasSystemRole w.db roleId scope

theorem steady_refl (w : World) : Steady w w := ⟨id, fun _ _ => Iff.rfl⟩

theorem Steady.trans {w w' w'' : World} (h : Steady w w') (h' : Steady w' w'') : Steady w w'' :=
  ⟨fun hw => h'.valid (h.valid hw), fun roleId scope =>
    (h'.system roleId scope).trans (h.system roleId scope)⟩

theorem steady_of_eq {w w' : World} (h : w'.db.roles = w.db.roles) : Steady w w' := by
  refine ⟨fun hw r hr => hw r (h ▸ hr), fun roleId scope => ?_⟩
  unfold HasSystemRole
  rw [h]

/-- What the checks say of a write that no other call can undo. -/
def RoleRowWrite.Checked : RoleRowWrite → Db → Prop
  | .create role, _ => role.MeetsRule ∧ CapabilitiesValid role.capabilities ∧ role.isSystem = false
  | .update roleId data, db => CapabilitiesValid (data.capabilities.getD []) ∧
      ∀ scope, HasSystemRole db roleId scope → data.scope.getD scope = scope
  | .delete roleId, db => ∀ scope, ¬ HasSystemRole db roleId scope

/-- The same of a step. -/
def RoleChecked (tag : Option RoleRowWrite) (w : World) : Prop :=
  ∀ row, tag = some row → row.Checked w.db

theorem roleChecked_none (w : World) : RoleChecked none w := by
  intro row h
  exact absurd h (by simp)

theorem roleChecked_some {row : RoleRowWrite} {w : World} :
    RoleChecked (some row) w ↔ row.Checked w.db :=
  ⟨fun h => h row rfl, fun h _ heq => Option.some.inj heq ▸ h⟩

section Apply

variable {w w' : World}

theorem mem_create {role : Role}
    (h : w'.db.roles = RoleRowWrite.apply (.create role) w.db.roles) :
    (∀ r ∈ w.db.roles, r ∈ w'.db.roles) ∧ ∀ r ∈ w'.db.roles, r ∈ w.db.roles ∨ r = role := by
  rw [h]
  show (∀ r ∈ w.db.roles, r ∈ (w.db.roles.insert? role).getD w.db.roles) ∧
    ∀ r ∈ (w.db.roles.insert? role).getD w.db.roles, r ∈ w.db.roles ∨ r = role
  cases hinsert : w.db.roles.insert? role with
  | none => exact ⟨fun r hr => hr, fun r hr => .inl hr⟩
  | some t =>
    rw [Option.getD_some]
    exact ⟨fun r hr => (Table.mem_insert? hinsert).mpr (.inl hr),
      fun r hr => (Table.mem_insert? hinsert).mp hr⟩

theorem steady_create {role : Role} (h : w'.db.roles = RoleRowWrite.apply (.create role) w.db.roles)
    (hcaps : CapabilitiesValid role.capabilities) (hsystem : role.isSystem = false) :
    Steady w w' := by
  obtain ⟨hkept, hmem⟩ := mem_create h
  constructor
  · intro hw r hr
    rcases hmem r hr with hr | rfl
    · exact hw r hr
    · exact hcaps
  · intro roleId scope
    constructor
    · rintro ⟨r, hr, hid, hsys, hscope⟩
      rcases hmem r hr with hr | rfl
      · exact ⟨r, hr, hid, hsys, hscope⟩
      · rw [hsystem] at hsys
        exact absurd hsys (by simp)
    · rintro ⟨r, hr, hrest⟩
      exact ⟨r, hkept r hr, hrest⟩

theorem mem_update {roleId : String} {data : UpdateRoleDto}
    (h : w'.db.roles = RoleRowWrite.apply (.update roleId data) w.db.roles) {r' : Role} :
    r' ∈ w'.db.roles ↔
      ∃ r ∈ w.db.roles, (if r.id = roleId then updated data r else r) = r' := by
  rw [h]
  change r' ∈ w.db.roles.updateMany (·.id = roleId) (updated data) (updated_id data) ↔ _
  simp only [Table.mem_updateMany, decide_eq_true_eq]

theorem steady_update {roleId : String} {data : UpdateRoleDto}
    (h : w'.db.roles = RoleRowWrite.apply (.update roleId data) w.db.roles)
    (hcheck : RoleRowWrite.Checked (.update roleId data) w.db) : Steady w w' := by
  obtain ⟨hcaps, hscope⟩ := hcheck
  -- the row keeps its id and stays a system role; where it is one, its scope stays too
  have hrow : ∀ r ∈ w.db.roles, r.isSystem = true →
      (if r.id = roleId then updated data r else r).scope = r.scope := by
    intro r hr hsys
    split
    · rename_i hid
      exact hscope r.scope ⟨r, hr, hid, hsys, rfl⟩
    · rfl
  have hkept : ∀ r, (if r.id = roleId then updated data r else r).id = r.id ∧
      (if r.id = roleId then updated data r else r).isSystem = r.isSystem := by
    intro r
    split <;> exact ⟨rfl, rfl⟩
  constructor
  · intro hw r' hr'
    obtain ⟨r, hr, rfl⟩ := (mem_update h).mp hr'
    split
    · show CapabilitiesValid (data.capabilities.getD r.capabilities)
      cases hdata : data.capabilities with
      | none => exact hw r hr
      | some capabilities =>
        rw [hdata] at hcaps
        exact hcaps
    · exact hw r hr
  · intro id scope
    constructor
    · rintro ⟨r', hr', hid, hsys, hsc⟩
      obtain ⟨r, hr, rfl⟩ := (mem_update h).mp hr'
      rw [(hkept r).2] at hsys
      exact ⟨r, hr, (hkept r).1.symm.trans hid, hsys, (hrow r hr hsys).symm.trans hsc⟩
    · rintro ⟨r, hr, hid, hsys, hsc⟩
      exact ⟨_, (mem_update h).mpr ⟨r, hr, rfl⟩, (hkept r).1.trans hid, (hkept r).2.trans hsys,
        (hrow r hr hsys).trans hsc⟩

theorem mem_delete {roleId : String}
    (h : w'.db.roles = RoleRowWrite.apply (.delete roleId) w.db.roles) {r : Role} :
    r ∈ w'.db.roles ↔ r ∈ w.db.roles ∧ r.id ≠ roleId := by
  rw [h]
  change r ∈ w.db.roles.deleteMany (·.id = roleId) ↔ _
  rw [Table.mem_deleteMany, decide_eq_false_iff_not]

theorem steady_delete {roleId : String}
    (h : w'.db.roles = RoleRowWrite.apply (.delete roleId) w.db.roles)
    (hcheck : RoleRowWrite.Checked (.delete roleId) w.db) : Steady w w' := by
  constructor
  · exact fun hw r hr => hw r ((mem_delete h).mp hr).1
  · intro id scope
    constructor
    · rintro ⟨r, hr, hrest⟩
      exact ⟨r, ((mem_delete h).mp hr).1, hrest⟩
    · rintro ⟨r, hr, hid, hsys, hscope⟩
      refine ⟨r, (mem_delete h).mpr ⟨hr, ?_⟩, hid, hsys, hscope⟩
      intro hgone
      exact hcheck r.scope ⟨r, hr, hgone, hsys, rfl⟩

end Apply

/-- **A step that finds what it was checked against is steady.** -/
theorem steady_step {tag : Option RoleRowWrite} {write : World → World} {w : World}
    (hstep : RoleStep tag write) (hcheck : RoleChecked tag w) : Steady w (write w) := by
  cases tag with
  | none => exact steady_of_eq (hstep w)
  | some row =>
    have hrow := roleChecked_some.mp hcheck
    cases row with
    | create role => exact steady_create (hstep w) hrow.2.1 hrow.2.2
    | update roleId data => exact steady_update (hstep w) hrow
    | delete roleId => exact steady_delete (hstep w) hrow

/-! ### Each call finds what it was checked against -/

namespace RolesService

theorem checkCapabilities_ok {capabilities : List String} {w w' : World} {u : Unit}
    (h : (checkCapabilities capabilities).run w = (.ok u, w')) : CapabilitiesValid capabilities := by
  have hnone := (raiseIf_eq_ok.mp h).1
  rw [Bool.not_eq_false', List.isEmpty_iff] at hnone
  intro c hc
  by_contra hbad
  have hmem : c ∈ invalidCapabilities capabilities :=
    List.mem_filter.mpr ⟨hc, by simpa using hbad⟩
  rw [hnone] at hmem
  exact absurd hmem (List.not_mem_nil)

theorem capabilitiesValid_merge {existing capabilities : List String}
    (he : CapabilitiesValid existing) (hc : CapabilitiesValid capabilities) :
    CapabilitiesValid (mergeCapabilities existing capabilities) := by
  intro c hmem
  rcases mem_foldl_addCapability.mp hmem with h | h
  · exact absurd h (List.not_mem_nil)
  · rcases List.mem_append.mp h with h | h
    · exact he c h
    · exact hc c h

/-- What has been checked of a changed role stays so. -/
theorem finds_writeSteps {roleId : String} {data : UpdateRoleDto} {w : World}
    (h : RoleRowWrite.Checked (.update roleId data) w.db) :
    (writeSteps roleId data).Finds Steady RoleChecked w := by
  refine finds_atomically_bind (fun w' hw' => roleChecked_some.mpr ⟨h.1, fun scope hs => ?_⟩)
    fun w' _ _ hw' _ => finds_atomically fun w'' _ => roleChecked_none w''
  exact h.2 scope ((hw'.system roleId scope).mp hs)

/-- The row a system role's scope is read from. -/
theorem hasSystemRole_of_found {w : World} {roleId : String} {r : Role} {scope : RoleScope}
    (hmem : r ∈ w.db.roles) (hid : r.id = roleId) (h : HasSystemRole w.db roleId scope) :
    r.isSystem = true ∧ r.scope = scope := by
  obtain ⟨r', hmem', hid', hsys, hscope⟩ := h
  obtain rfl := Table.eq_of_key_eq hmem hmem' (hid.trans hid'.symm)
  exact ⟨hsys, hscope⟩

theorem not_hasSystemRole {w : World} {roleId : String} {r : Role} (hmem : r ∈ w.db.roles)
    (hid : r.id = roleId) (h : r.isSystem = false) (scope : RoleScope) :
    ¬ HasSystemRole w.db roleId scope := by
  intro hs
  rw [(hasSystemRole_of_found hmem hid hs).1] at h
  exact absurd h (by simp)

theorem createCheck_ok {env : Env} {dto : CreateRoleDto} {w w' : World} {u : Unit}
    (h : (createCheck dto).run w = (.ok u, w')) (db : Db) :
    RoleRowWrite.Checked (.create (newRole env dto)) db := by
  unfold createCheck at h
  rw [run_query_bind] at h
  obtain ⟨_, w₁, -, h⟩ := bind_eq_ok.mp h
  obtain ⟨_, w₂, hscope, h⟩ := bind_eq_ok.mp h
  exact ⟨meetsRule_of_check (raiseIf_eq_ok.mp hscope).1, checkCapabilities_ok h, rfl⟩

theorem updateCheck_ok {roleId : String} {dto : UpdateRoleDto} {w w' : World} {role : Role}
    (h : (updateCheck roleId dto).run w = (.ok role, w')) :
    RoleRowWrite.Checked (.update roleId dto) w.db := by
  obtain ⟨r, w₁, hfind, h⟩ := bind_eq_ok.mp h
  obtain ⟨hmem, hid⟩ := findRoleOrThrow_ok hfind
  obtain ⟨_, w₂, hsystem, h⟩ := bind_eq_ok.mp h
  obtain ⟨_, w₃, -, h⟩ := bind_eq_ok.mp h
  obtain ⟨_, w₄, hcaps, -⟩ := bind_eq_ok.mp h
  refine ⟨checkCapabilities_ok hcaps, fun scope hs => ?_⟩
  obtain ⟨hsys, rfl⟩ := hasSystemRole_of_found hmem hid hs
  have hsame := (raiseIf_eq_ok.mp hsystem).1
  rw [hsys, Bool.true_and] at hsame
  cases hdata : dto.scope with
  | none => rfl
  | some scope =>
    rw [hdata] at hsame
    simpa using hsame

/-- A check that begins so lets no system role through. -/
theorem systemCheck_ok {β : Type} {refusal : ApiError} {rest : Role → Api β} {roleId : String}
    {w w' : World} {b : β}
    (h : (findRoleOrThrow roleId >>= fun role =>
      raiseIf role.isSystem refusal >>= fun _ => rest role).run w = (.ok b, w'))
    (scope : RoleScope) : ¬ HasSystemRole w.db roleId scope := by
  obtain ⟨r, w₁, hfind, h⟩ := bind_eq_ok.mp h
  obtain ⟨hmem, hid⟩ := findRoleOrThrow_ok hfind
  obtain ⟨_, w₂, hsystem, -⟩ := bind_eq_ok.mp h
  exact not_hasSystemRole hmem hid (raiseIf_eq_ok.mp hsystem).1 scope

theorem addCheck_ok {roleId : String} {capabilities : List String} {w w' : World} {role : Role}
    (h : (addCheck roleId capabilities).run w = (.ok role, w')) :
    role ∈ w.db.roles ∧ CapabilitiesValid capabilities := by
  obtain ⟨r, w₁, hfind, h⟩ := bind_eq_ok.mp h
  obtain ⟨_, w₂, hcaps, h⟩ := bind_eq_ok.mp h
  rw [run_pure] at h
  obtain rfl := Except.ok.inj (Prod.mk.inj h).1
  exact ⟨(findRoleOrThrow_ok hfind).1, checkCapabilities_ok hcaps⟩

end RolesService

theorem RoleCall.steps_finds (call : RoleCall) {w : World} (hw : RolesValid w.db) :
    call.steps.Finds Steady RoleChecked w := by
  cases call with
  | createRole env dto =>
    refine finds_atomically_bind (fun w' _ => roleChecked_none w') fun w' _ _ _ hcheck => ?_
    exact finds_atomically fun w'' _ => roleChecked_some.mpr (createCheck_ok hcheck w''.db)
  | updateRole roleId dto =>
    refine finds_atomically_bind (fun w' _ => roleChecked_none w') fun w₁ role _ _ hcheck => ?_
    refine finds_atomically_bind (fun w' _ => roleChecked_none w') fun w₂ _ _ hw₂ _ => ?_
    obtain ⟨hcaps, hscope⟩ := updateCheck_ok hcheck
    exact finds_writeSteps ⟨hcaps, fun scope hs => hscope scope ((hw₂.system roleId scope).mp hs)⟩
  | deleteRole roleId =>
    refine finds_atomically_bind (fun w' _ => roleChecked_none w') fun w₁ _ _ _ hcheck => ?_
    refine finds_atomically_bind (fun w' hw' => roleChecked_some.mpr fun scope hs => ?_)
      fun w₂ _ _ _ _ => finds_atomically fun w' _ => roleChecked_none w'
    exact systemCheck_ok hcheck scope ((hw'.system roleId scope).mp hs)
  | addCapabilities roleId capabilities =>
    refine finds_atomically_bind (fun w' _ => roleChecked_none w') fun w₁ role _ hw₁ hcheck => ?_
    obtain ⟨hmem, hcaps⟩ := addCheck_ok hcheck
    refine finds_writeSteps ⟨?_, fun _ _ => rfl⟩
    exact capabilitiesValid_merge (hw₁.valid hw role hmem) hcaps
  | removeCapabilities roleId capabilities =>
    refine finds_atomically_bind (fun w' _ => roleChecked_none w') fun w₁ role _ hw₁ hfind => ?_
    have hvalid := hw₁.valid hw role (findRoleOrThrow_ok hfind).1
    refine finds_writeSteps ⟨?_, fun _ _ => rfl⟩
    exact fun c hc => hvalid c (List.mem_filter.mp hc).1
  | setScope roleId scope =>
    refine finds_atomically_bind (fun w' _ => roleChecked_none w') fun w₁ _ _ _ hcheck => ?_
    refine finds_writeSteps ⟨fun c hc => absurd hc List.not_mem_nil, fun scope' hs => ?_⟩
    exact absurd hs (systemCheck_ok hcheck scope')

/-! ## 5. The rule -/

/-- The write leaves a role that meets the rule, as the role is by then. -/
def RoleRowWrite.KeepsRule : RoleRowWrite → Db → Prop
  | .update roleId data, db => ∀ r ∈ db.roles, r.id = roleId → (updated data r).MeetsRule
  | .create _, _ | .delete _, _ => True

/-- A step from roles that meet the rule leaves such exactly if its write does. -/
theorem rolesRule_step_iff {tag : Option RoleRowWrite} {write : World → World} {w : World}
    (hstep : RoleStep tag write) (hcheck : RoleChecked tag w) (hw : RolesRule w.db) :
    RolesRule (write w).db ↔ ∀ row, tag = some row → row.KeepsRule w.db := by
  cases tag with
  | none =>
    apply iff_of_true
    · intro r hr
      rw [hstep w] at hr
      exact hw r hr
    · intro row h
      exact absurd h (by simp)
  | some row =>
    have hroles := hstep w
    have hone : (∀ row', some row = some row' → row'.KeepsRule w.db) ↔ row.KeepsRule w.db :=
      ⟨fun h => h row rfl, fun h row' heq => Option.some.inj heq ▸ h⟩
    rw [hone]
    cases row with
    | create role =>
      refine iff_of_true (fun r hr => ?_) trivial
      rcases (mem_create hroles).2 r hr with hr | rfl
      · exact hw r hr
      · exact (roleChecked_some.mp hcheck).1
    | update roleId data =>
      constructor
      · intro h r hr hid
        exact h _ ((mem_update hroles).mpr ⟨r, hr, if_pos hid⟩)
      · intro h r' hr'
        obtain ⟨r, hr, rfl⟩ := (mem_update hroles).mp hr'
        split
        · rename_i hid
          exact h r hr hid
        · exact hw r hr
    | delete roleId =>
      exact iff_of_true (fun r hr => hw r ((mem_delete hroles).mp hr).1) trivial

/-! ## 6. Any interleaving -/

abbrev RolePool (C : Type) : Type := Pool C World (Option RoleRowWrite) ApiError Unit

/-- Any number of calls on one store. -/
def rolePool {C : Type} (w : World) (calls : C → RoleCall) : RolePool C :=
  { store := w, process := fun c => (calls c).steps }

section Runs

variable {C : Type} [DecidableEq C]

/-- **The claim about a run:** no role a client may hand out has a global scope, capabilities are
    valid, and a system role is the same system role ever after. -/
structure RolesSafe (start : RolePool C) (run : List C) : Prop where
  rule : ∀ u, Reached Pool.step start run u → RolesRule u.store.db
  valid : ∀ u, Reached Pool.step start run u → RolesValid u.store.db
  system : ∀ u v, Earlier Pool.step start run u v → ∀ r ∈ u.store.db.roles, r.isSystem = true →
    ∃ r' ∈ v.store.db.roles, r'.id = r.id ∧ r'.isSystem = true ∧ r'.scope = r.scope

/-- What holds of the calls throughout: what they do, and what they count on. -/
structure RolesGoing (u : RolePool C) : Prop where
  every : ∀ c, (u.process c).Every RoleStep
  finds : ∀ c, (u.process c).Finds Steady RoleChecked u.store

theorem RolesGoing.steady_step {u : RolePool C} (h : RolesGoing u) (c : C) :
    Steady u.store (u.step c).store := by
  rcases Pool.step_store h.every c with ⟨-, hstore⟩ | ⟨tag, write, htag, hstep, hstore⟩
  · rw [hstore]
    exact steady_refl _
  · rw [hstore]
    exact ShieldApi.steady_step hstep (Pool.found steady_refl h.finds htag)

theorem RolesGoing.step {u : RolePool C} (h : RolesGoing u) (c : C) : RolesGoing (u.step c) := by
  have hkeep : ∀ tag write w, RoleStep tag write → RoleChecked tag w → Steady w (write w) :=
    fun _ _ _ hstep hcheck => ShieldApi.steady_step hstep hcheck
  obtain ⟨hevery, hfinds⟩ := Pool.relies steady_refl (fun _ _ _ h h' => h.trans h') hkeep
    h.every h.finds (reached_end u [c])
  exact ⟨hevery, hfinds⟩

/-- **When roles are safe:** if they are to begin with, exactly if every change of a role leaves
    it within the rule, as it is by the time of the write. -/
theorem rolesSafe_iff (w : World) (calls : C → RoleCall) (run : List C) :
    RolesSafe (rolePool w calls) run ↔ RolesRule w.db ∧ RolesValid w.db ∧
      ∀ u c, Fired Pool.step (rolePool w calls) run u c →
        ∀ row, u.tag? c = some (some row) → row.KeepsRule u.store.db := by
  have hstart : RolesValid w.db → RolesGoing (rolePool w calls) := fun hvalid =>
    ⟨fun c => (calls c).steps_every, fun c => (calls c).steps_finds hvalid⟩
  have hrule : RolesRule w.db → RolesValid w.db →
      ((∀ u, Reached Pool.step (rolePool w calls) run u → RolesRule u.store.db) ↔
        ∀ u c, Fired Pool.step (rolePool w calls) run u c →
          ∀ row, u.tag? c = some (some row) → row.KeepsRule u.store.db) := by
    intro hw hvalid
    refine reached_iff_fired (I := RolesGoing) (P := fun u => RolesRule u.store.db)
      (G := fun u c => ∀ row, u.tag? c = some (some row) → row.KeepsRule u.store.db)
      (hstart hvalid) hw (fun u c _ hu => hu.step c) ?_
    intro u c _ hu hrules
    rcases Pool.step_store hu.every c with ⟨hnone, hstore⟩ | ⟨tag, write, htag, hstep, hstore⟩
    · rw [hstore, hnone]
      refine iff_of_true hrules fun row h => ?_
      exact absurd h (by simp)
    · rw [hstore, rolesRule_step_iff hstep (Pool.found steady_refl hu.finds htag) hrules, htag]
      simp only [Option.some.injEq]
  constructor
  · intro h
    have hw := h.rule _ (reached_start _ _)
    have hvalid := h.valid _ (reached_start _ _)
    exact ⟨hw, hvalid, (hrule hw hvalid).mp h.rule⟩
  · rintro ⟨hw, hvalid, hcond⟩
    have hgoing : ∀ u, Reached Pool.step (rolePool w calls) run u →
        RolesGoing u ∧ RolesValid u.store.db := by
      intro u hu
      refine hu.invariant (I := fun u => RolesGoing u ∧ RolesValid u.store.db)
        ⟨hstart hvalid, hvalid⟩ fun u c _ hu => ?_
      exact ⟨hu.1.step c, (hu.1.steady_step c).valid hu.2⟩
    have hsteady : ∀ u v, Earlier Pool.step (rolePool w calls) run u v →
        Steady u.store v.store :=
      (earlier_iff_fired (fun u => steady_refl u.store) fun _ _ _ h h' => h.trans h').mpr
        fun u c hf => (hgoing u hf.reached).1.steady_step c
    refine ⟨(hrule hw hvalid).mpr hcond, fun u hu => (hgoing u hu).2, fun u v huv r hr hsys => ?_⟩
    exact ((hsteady u v huv).system r.id r.scope).mpr ⟨r, hr, rfl, hsys, rfl⟩

end Runs

/-! ## 7. A role that is made assignable while its scope is raised -/

def inspector : Role :=
  { id := "inspector", name := "Inspector", scope := .client, capabilities := [] }

def inspectorOnly : World where
  db := { roles := ⟨[inspector], List.nodup_singleton _⟩ }

/-- One makes the role assignable, the other one global. -/
def assignOrRaise (assign : Bool) : RoleCall :=
  if assign then .updateRole "inspector" { clientAssignable := some true }
  else .setScope "inspector" .global

/-- Both look, then both write. -/
def bothLookFirst : List Bool := [true, true, false, true, false]

theorem bothLookFirst_role :
    (bothLookFirst.foldl Pool.step (rolePool inspectorOnly assignOrRaise)).store.db.roles.rows =
      [{ inspector with clientAssignable := true, scope := .global }] := by
  decide

theorem inspector_global_assignable :
    RolesRule inspectorOnly.db ∧ RolesValid inspectorOnly.db ∧
      ¬ RolesSafe (rolePool inspectorOnly assignOrRaise) bothLookFirst := by
  refine ⟨?_, ?_, fun h => ?_⟩
  · intro r hr
    obtain rfl := List.mem_singleton.mp hr
    exact fun hassignable => absurd hassignable (by decide)
  · intro r hr
    obtain rfl := List.mem_singleton.mp hr
    exact fun c hc => absurd hc List.not_mem_nil
  · have hmem : { inspector with clientAssignable := true, scope := .global } ∈
        (bothLookFirst.foldl Pool.step (rolePool inspectorOnly assignOrRaise)).store.db.roles := by
      rw [← Table.mem_rows, bothLookFirst_role]
      exact List.mem_singleton_self _
    exact absurd (h.rule _ (reached_end _ bothLookFirst) _ hmem rfl) (by decide)

end ShieldApi
