import ShieldApi.Clients.PrimaryAccess
import ShieldApi.Clients.RowCreation
import ShieldApi.Lib.Selection

/-!
# The calls that write access rows, statement by statement

Under READ COMMITTED a statement of a transaction sees what others have committed by then and what
its own transaction has written. The calls here are cut up accordingly. **Every read is a step of
its own, and the writes of a transaction are one step, its commit**: the rows it writes are locked
from the statement that writes them on, so until the commit nobody else writes them, and nobody
sees what is in them. A transaction that has deleted rows does not see them any more, and
its reads are of the table without them.

A commit announces what was read before it, which may be out of date. `Commit.apply` is what it
makes of the flags of the access rows, and `CommitStep` says that a step does this or leaves
the flags alone. With nobody else around, the steps are the calls (`*_whole`).
-/

set_option autoImplicit false

namespace ShieldApi

open Effect Process

/-! ## 1. Commits -/

/-- The rows a removal makes primary: those of the person at the place, with these roles. -/
structure Promotion where
  personId : String
  clientId : String
  siteId : String
  roleIds : List String
  deriving DecidableEq, Repr

def Promotion.keys (p : Promotion) : List AccessKey :=
  p.roleIds.map fun roleId => ⟨p.personId, p.clientId, p.siteId, roleId⟩

/-- A transaction about to commit, and what it has read. -/
inductive Commit
  | accept (env : Env) (personId code : String)
      (existingPrimaryAccess : Option PersonClientAccess) (invitationsToAccept : List Invitation)
  | usersAddRole (personId : String) (dto : AddUserRoleDto)
      (existingPrimaryAccess : Option PersonClientAccess)
  | membersAddRole (personId clientId : String) (dto : AddRoleDto)
      (primaryHere : Option PersonClientAccess)
  | syncUser (env : Env) (userId personId clientId siteId : String) (isFirstAccess : Bool)
      (roleIds : List String)
  | remove (deleted : List AccessKey) (promotion : Option Promotion)

namespace Commit

/-- The flags the commit leaves behind. -/
def apply (flags : AccessKey → Option Bool) : Commit → AccessKey → Option Bool
  | .accept env personId code existingPrimaryAccess invitationsToAccept =>
    overwrite flags
      ((InvitationsService.acceptedRows env personId code existingPrimaryAccess
        invitationsToAccept).map fun a => (a.key, some a.isPrimary))
  | .usersAddRole personId dto existingPrimaryAccess =>
    Function.update flags ⟨personId, dto.clientId, dto.siteId, dto.roleId⟩
      (some (mayBePrimary existingPrimaryAccess dto.clientId dto.siteId))
  | .membersAddRole personId clientId dto primaryHere =>
    Function.update flags ⟨personId, clientId, dto.siteId, dto.roleId⟩ (some primaryHere.isSome)
  | .syncUser _ _ personId clientId siteId isFirstAccess roleIds => fun k =>
    if (flags k).isNone ∧ ∃ roleId ∈ roleIds, ⟨personId, clientId, siteId, roleId⟩ = k then
      some isFirstAccess
    else flags k
  | .remove deleted none => withoutRows (deleted.contains ·) flags
  | .remove deleted (some promotion) =>
    withPrimary (promotion.keys.contains ·) (withoutRows (deleted.contains ·) flags)

/-- The rows it creates have what they refer to; otherwise it is rolled back. An import writes the
    person as well, so that the rows may refer to them. -/
def GoesThrough (db : Db) : Commit → Prop
  | .accept _ personId _ _ invitationsToAccept =>
    ∀ i ∈ invitationsToAccept, db.canUpsert (InvitationsService.accessKey personId i) = true
  | .usersAddRole personId dto _ =>
    db.canUpsert ⟨personId, dto.clientId, dto.siteId, dto.roleId⟩ = true
  | .membersAddRole personId clientId dto _ =>
    db.primaryFlag ⟨personId, clientId, dto.siteId, dto.roleId⟩ = none ∧
      db.accessRefs ⟨personId, clientId, dto.siteId, dto.roleId⟩ = true
  | .syncUser env userId personId clientId siteId _ roleIds =>
    ∃ p, KeycloakAccessSyncService.IsImported env userId db p ∧ ∀ roleId ∈ roleIds,
      (db.primaryFlag ⟨personId, clientId, siteId, roleId⟩).isSome = true ∨
        ((personId = p ∨ (db.persons.find? personId).isSome = true) ∧
          (db.clients.find? clientId).isSome = true ∧ (db.sites.find? siteId).isSome = true ∧
          (db.roles.find? roleId).isSome = true)
  | .remove _ _ => True

end Commit

/-! ## 2. The statements -/

/-- The access rows, for a transaction that has deleted some. -/
def World.accessesBut (w : World) (deleted : List AccessKey) : AccessTable :=
  w.db.accesses.deleteMany fun a => deleted.contains a.key

/-- `tx.personClientAccess.delete` throws where the row is gone. -/
def requireRow (k : AccessKey) : Api Unit := do
  let found ← query (·.db.accesses.find? k)
  raiseIf found.isNone .recordNotFound

/-- The writes of a removal. -/
def commitRemoval (deleted : List AccessKey) (promotion : Option Promotion) : Api Unit :=
  transaction do
    deleteAccesses (deleted.contains ·)
    match promotion with
    | some p => setPrimaries (p.keys.contains ·)
    | none => pure ()

namespace MembersService

/-- What every member call begins with. -/
def memberInSight (cls : Cls) (env : Env) (id : String) :
    Api (AccessGrant × Settings × Person) := do
  let accessGrant ← cls.requireAccessGrant
  let rls ← prismaBuild cls env {}
  let person ← findPersonOrThrow rls id
  pure (accessGrant, rls, person)

def findMemberAccess (rls : Settings) (env : Env) (id : String) (dto : RemoveRoleDto)
    (accessGrant : AccessGrant) : Api PersonClientAccess := do
  let found ← query fun w => memberAccess rls env id dto accessGrant w.db
  orRaise (.notFound "Member does not have this role/site combination") found

def requireAnother (rls : Settings) (id : String) (accessGrant : AccessGrant) : Api Unit := do
  let accessCount ← query fun w =>
    (w.db.accesses.rows.filter fun a =>
      rls.seesClient a.clientId && a.personId = id && a.clientId = accessGrant.clientId).length
  raiseIf (accessCount ≤ 1)
    (.badRequest
      "Cannot remove the last role. A member must have at least one role to remain a member of the organization.")

end MembersService

namespace UsersService

def requireSite (dto : AddUserRoleDto) : Api Unit := do
  let site ← query fun w => (w.db.sites.find? dto.siteId).filter (·.clientId = dto.clientId)
  raiseIf site.isNone
    (.notFound ("Site with ID " ++ dto.siteId ++ " not found for client " ++ dto.clientId))

def requireRole (dto : AddUserRoleDto) : Api Unit := do
  let role ← query (·.db.roles.find? dto.roleId)
  raiseIf role.isNone (.notFound ("Role with ID " ++ dto.roleId ++ " not found"))

def addedRow (env : Env) (personId : String) (dto : AddUserRoleDto)
    (existingPrimaryAccess : Option PersonClientAccess) : PersonClientAccess :=
  { createdOn := env.now
    personId := personId
    clientId := dto.clientId
    siteId := dto.siteId
    roleId := dto.roleId
    isPrimary := mayBePrimary existingPrimaryAccess dto.clientId dto.siteId }

def findUserAccess (env : Env) (id : String) (dto : RemoveUserRoleDto) :
    Api PersonClientAccess := do
  let found ← query fun w => userAccess env id dto w.db
  orRaise (.notFound "User does not have this client/site/role combination") found

end UsersService

namespace KeycloakAccessSyncService

/-- The id of the person an import is about. -/
def importedId (env : Env) (userId : String) (db : Db) : String :=
  match db.persons.rows.find? (·.idpId = some userId) with
  | some p => p.id
  | none => env.cuid 0

/-- The writes of an import. -/
def commitSync (env : Env) (user : KeycloakUser) (userId personId clientId siteId : String)
    (isFirstAccess : Bool) (roleIds : List String) : Api Bool :=
  transaction do
    let _ ← upsertPerson env userId user
    let _ ← forEach roleIds fun roleId =>
      upsertAccess (syncedRow env personId clientId siteId isFirstAccess roleId) id key_id
    pure true

end KeycloakAccessSyncService

/-! ## 3. The calls as processes -/

open InvitationsService MembersService UsersService KeycloakAccessSyncService

/-- A step of a call, which may be a commit. -/
abbrev CommitSteps (α : Type) : Type := Process World (Option Commit) ApiError α

namespace CommitSteps

def removal (deleted : List AccessKey) (promotion : Option Promotion) : CommitSteps Unit :=
  atomically (some (.remove deleted promotion)) (commitRemoval deleted promotion)

/-- The rows at the place of `oldest` that the client can see. -/
def atPlaceOf (sees : String → Bool) (personId : String) (oldest : PersonClientAccess)
    (k : AccessKey) : Bool :=
  sees k.clientId && k.personId = personId && k.clientId = oldest.clientId &&
    k.siteId = oldest.siteId

/-- Promote the place of the oldest row that is left in sight, and commit. -/
def promote (sees : String → Bool) (env : Env) (personId : String) (deleted : List AccessKey) :
    CommitSteps Unit := do
  let oldestRemaining ← atomically none (query fun w =>
    env.accessOrder.findFirstBy PersonClientAccess.oldest
      (fun a => sees a.clientId && a.personId = personId) (w.accessesBut deleted).rows)
  match oldestRemaining with
  | some oldest =>
    let promoted ← atomically none (query fun w =>
      (w.accessesBut deleted).rows.filter fun a => atPlaceOf sees personId oldest a.key)
    removal deleted
      (some ⟨personId, oldest.clientId, oldest.siteId, promoted.map (·.roleId)⟩)
  | none => removal deleted none

def deleteKeepingPrimary (sees : String → Bool) (env : Env) (access : PersonClientAccess) :
    CommitSteps Unit := do
  atomically none (requireRow access.key)
  if access.isPrimary then
    let remainingPrimary ← atomically none (query fun w =>
      env.accessOrder.findFirst
        (fun a => sees a.clientId && a.personId = access.personId && a.isPrimary)
        (w.accessesBut [access.key]).rows)
    match remainingPrimary with
    | some _ => removal [access.key] none
    | none => promote sees env access.personId [access.key]
  else removal [access.key] none

def removeRows (hadPrimaryAccess : Bool) (sees : String → Bool) (env : Env) (personId : String)
    (deleted : List AccessKey) : CommitSteps Unit :=
  if hadPrimaryAccess then promote sees env personId deleted else removal deleted none

def membersAddRole (cls : Cls) (env : Env) (id : String) (dto : AddRoleDto) :
    CommitSteps PersonClientAccess := do
  let (accessGrant, rls, person) ← atomically none (memberInSight cls env id)
  let primaryHere ← atomically none (query fun w =>
    env.accessOrder.findFirst
      (fun a => rls.seesClient a.clientId && a.personId = id &&
        a.clientId = accessGrant.clientId && a.siteId = dto.siteId && a.isPrimary)
      w.db.accesses.rows)
  let clientAccess ← atomically (some (.membersAddRole id accessGrant.clientId dto primaryHere))
    (createAccess
      { createdOn := env.now
        personId := id
        clientId := accessGrant.clientId
        roleId := dto.roleId
        siteId := dto.siteId
        isPrimary := primaryHere.isSome })
  atomically none
    (clearAccessGrantsOf person.idpId clientAccess.clientId (some clientAccess.siteId) [])
  pure clientAccess

def membersRemoveRole (cls : Cls) (env : Env) (id : String) (dto : RemoveRoleDto) :
    CommitSteps Unit := do
  let (accessGrant, rls, person) ← atomically none (memberInSight cls env id)
  let clientAccess ← atomically none (findMemberAccess rls env id dto accessGrant)
  atomically none (requireAnother rls id accessGrant)
  deleteKeepingPrimary rls.seesClient env clientAccess
  atomically none
    (clearAccessGrantsOf person.idpId clientAccess.clientId (some clientAccess.siteId) [])

def membersRemove (cls : Cls) (env : Env) (id : String) : CommitSteps Unit := do
  let (accessGrant, rls, person) ← atomically none (memberInSight cls env id)
  let hadPrimaryAccess ← atomically none (query fun w =>
    w.db.accesses.rows.any fun a => rls.seesClient a.clientId && a.personId = id && a.isPrimary)
  let accessRowsToDelete ← atomically none (query fun w =>
    env.accessOrder.findMany
      (fun a => rls.seesClient a.clientId && a.personId = id &&
        a.clientId = accessGrant.clientId) w.db.accesses.rows)
  let deleted ← atomically none (query fun w =>
    (w.db.accesses.rows.filter fun a => memberRows rls id accessGrant a.key).map (·.key))
  removeRows hadPrimaryAccess rls.seesClient env id deleted
  atomically none
    (clearAccessGrantsOf person.idpId accessGrant.clientId none (accessRowsToDelete.map (·.siteId)))

def usersAddRole (env : Env) (id : String) (dto : AddUserRoleDto) :
    CommitSteps PersonClientAccess := do
  let person ← atomically none (UsersService.findPersonOrThrow id)
  atomically none (requireSite dto)
  atomically none (requireRole dto)
  let existingPrimaryAccess ← atomically none (query fun w => findPrimaryAccess env person.id w.db)
  let clientAccess ← atomically (some (.usersAddRole person.id dto existingPrimaryAccess))
    (transaction (upsertWithPrimary (addedRow env person.id dto existingPrimaryAccess)))
  atomically none (clearAccessGrantsOf person.idpId dto.clientId (some dto.siteId) [])
  pure clientAccess

def usersRemoveRole (env : Env) (id : String) (dto : RemoveUserRoleDto) : CommitSteps Unit := do
  let person ← atomically none (UsersService.findPersonOrThrow id)
  let clientAccess ← atomically none (findUserAccess env id dto)
  deleteKeepingPrimary (fun _ => true) env clientAccess
  atomically none (clearAccessGrantsOf person.idpId dto.clientId (some dto.siteId) [])

def accept (cfg : Config) (cls : Cls) (env : Env) (code : String) :
    CommitSteps (List PersonClientAccess) := do
  let user ← atomically none cls.requireUser
  let person ← atomically none cls.requirePerson
  let invitation ← atomically none (acceptFind cfg env person code)
  let invitationsToAccept ← atomically none (query fun w => pendingGroup env invitation w.db)
  let existingPrimaryAccess ← atomically none (query fun w => findPrimaryAccess env person.id w.db)
  let allAccess ← atomically
    (some (.accept env person.id code existingPrimaryAccess invitationsToAccept))
    (transaction (acceptWrite env person.id code existingPrimaryAccess invitationsToAccept))
  atomically none (acceptClear user allAccess)

def syncPerson (env : Env) (user : KeycloakUser) (userId clientId siteId : String)
    (roleIds : List String) : CommitSteps Bool := do
  let personId ← atomically none (query fun w => importedId env userId w.db)
  let existingAccessCount ← atomically none (query fun w =>
    (w.db.accesses.rows.filter (·.personId = personId)).length)
  let isFirstAccess : Bool := existingAccessCount = 0
  atomically (some (.syncUser env userId personId clientId siteId isFirstAccess roleIds))
    (commitSync env user userId personId clientId siteId isFirstAccess roleIds)

def syncUser (env : Env) (user : KeycloakUser) (maps : SyncMaps)
    (userGroups : List (Option String)) : CommitSteps Bool :=
  match truthy user.id with
  | none => pure false
  | some userId =>
    match truthy user.clientId, truthy user.siteId with
    | some clientExternalId, some siteExternalId =>
      match truthy (maps.clientMap.lookup clientExternalId),
          truthy (maps.siteMap.lookup siteExternalId) with
      | some clientId, some siteId =>
        let roleIds := matchingRoleIds maps userGroups
        if roleIds.isEmpty then pure false
        else syncPerson env user userId clientId siteId roleIds
      | _, _ => pure false
    | _, _ => pure false

/-! ## 4. With nobody else around -/

/-- The rows of a promotion, by what the update asks of them and by their keys. -/
theorem atPlaceOf_eq_contains {sees : String → Bool} {personId : String}
    {oldest : PersonClientAccess} {t : AccessTable} :
    ∀ a ∈ t, atPlaceOf sees personId oldest a.key =
      (Promotion.mk personId oldest.clientId oldest.siteId
        ((t.rows.filter fun a => atPlaceOf sees personId oldest a.key).map
          (·.roleId))).keys.contains a.key := by
  have hkey : ∀ a : PersonClientAccess, atPlaceOf sees personId oldest a.key = true →
      AccessKey.mk personId oldest.clientId oldest.siteId a.roleId = a.key := by
    intro a ha
    simp only [atPlaceOf, Bool.and_eq_true, decide_eq_true_eq] at ha
    obtain ⟨⟨⟨-, hperson⟩, hclient⟩, hsite⟩ := ha
    rw [← hperson, ← hclient, ← hsite]
    rfl
  intro a ha
  rw [Bool.eq_iff_iff, List.contains_iff_mem]
  unfold Promotion.keys
  rw [List.map_map, List.mem_map]
  constructor
  · intro hplace
    exact ⟨a, List.mem_filter.mpr ⟨ha, hplace⟩, hkey a hplace⟩
  · rintro ⟨b, hb, hk⟩
    obtain ⟨-, hplace⟩ := List.mem_filter.mp hb
    rw [← hk]
    show atPlaceOf sees personId oldest
      (AccessKey.mk personId oldest.clientId oldest.siteId b.roleId) = true
    rw [hkey b hplace]
    exact hplace

theorem promote_whole (sees : String → Bool) (env : Env) (personId : String)
    (deleted : List AccessKey) :
    (promote sees env personId deleted).whole = transaction (do
      deleteAccesses (deleted.contains ·)
      promoteOldestRemaining sees env personId) := by
  funext w
  show (promote sees env personId deleted).whole.run w = (transaction _).run w
  have hdelete : (deleteAccesses (deleted.contains ·)).run w =
      (.ok (), w.withAccesses (w.accessesBut deleted)) := rfl
  unfold promote promoteOldestRemaining
  rw [whole_bind, whole_atomically, run_query_bind, run_transaction, run_bind_ok hdelete,
    run_query_bind, World.withAccesses_accesses]
  cases hold : env.accessOrder.findFirstBy PersonClientAccess.oldest
      (fun a => sees a.clientId && decide (a.personId = personId))
      (w.accessesBut deleted).rows with
  | none => rfl
  | some oldest =>
    have hupdate : (w.accessesBut deleted).updateMany (atPlaceOf sees personId oldest ·.key)
        (.setPrimary true) (PersonClientAccess.key_setPrimary true) = _ :=
      Table.updateMany_congr atPlaceOf_eq_contains
    show (Except.ok (), w.withAccesses _) = (Except.ok (), w.withAccesses _)
    exact congrArg (fun t => (Except.ok (), w.withAccesses t)) hupdate.symm

/-- Where the row is there, as it is when a call has just found it. -/
theorem deleteKeepingPrimary_whole {sees : String → Bool} {env : Env}
    {access : PersonClientAccess} {w : World} (h : access ∈ w.db.accesses) :
    (deleteKeepingPrimary sees env access).whole.run w =
      (transaction (deleteAccessKeepingPrimary sees env access)).run w := by
  have hrow : (requireRow access.key).run w = (.ok (), w) := by
    unfold requireRow
    rw [run_query_bind, Table.find?_eq_some.mpr ⟨h, rfl⟩]
    rfl
  have hone : (fun k => decide (k = access.key)) = ([access.key].contains ·) := by
    funext k
    rw [Bool.eq_iff_iff, decide_eq_true_eq, List.contains_iff_mem, List.mem_singleton]
  have hdelete : (deleteAccesses ([access.key].contains ·)).run w =
      (.ok (), w.withAccesses (w.accessesBut [access.key])) := rfl
  unfold deleteKeepingPrimary deleteAccessKeepingPrimary
  rw [whole_bind, whole_atomically, run_bind_ok hrow, hone]
  cases hprimary : access.isPrimary with
  | false => rfl
  | true =>
    rw [if_pos rfl, if_pos rfl, whole_bind, whole_atomically, run_query_bind, run_transaction,
      run_bind_ok hdelete, run_query_bind, World.withAccesses_accesses]
    cases hremaining : env.accessOrder.findFirst
        (fun a => sees a.clientId && decide (a.personId = access.personId) && a.isPrimary)
        (w.accessesBut [access.key]).rows with
    | some b => rfl
    | none =>
      show (promote sees env access.personId [access.key]).whole.run w = _
      rw [promote_whole, run_transaction, run_bind_ok hdelete]

theorem removeRows_whole (hadPrimaryAccess : Bool) (sees : String → Bool) (env : Env)
    (personId : String) (deleted : List AccessKey) :
    (removeRows hadPrimaryAccess sees env personId deleted).whole = transaction (do
      deleteAccesses (deleted.contains ·)
      if hadPrimaryAccess then promoteOldestRemaining sees env personId else pure ()) := by
  unfold removeRows
  cases hadPrimaryAccess with
  | true => exact promote_whole sees env personId deleted
  | false => rfl

theorem membersAddRole_whole (cls : Cls) (env : Env) (id : String) (dto : AddRoleDto) :
    (membersAddRole cls env id dto).whole = MembersService.addRole cls env id dto := by
  unfold membersAddRole MembersService.addRole
  simp only [whole_bind, whole_atomically, memberInSight, bind_bind]
  rfl

theorem usersAddRole_whole (env : Env) (id : String) (dto : AddUserRoleDto) :
    (usersAddRole env id dto).whole = UsersService.addRole env id dto := by
  unfold usersAddRole UsersService.addRole
  simp only [whole_bind, whole_atomically, requireSite, requireRole, bind_bind,
    (readOnly_query _).transaction_bind]
  rfl

theorem accept_whole (cfg : Config) (cls : Cls) (env : Env) (code : String) :
    (accept cfg cls env code).whole = InvitationsService.accept cfg cls env code := by
  rw [← InvitationsService.Steps.accept_whole]
  unfold accept InvitationsService.Steps.accept
  simp only [whole_bind, whole_atomically]

theorem membersRemoveRole_eq (cls : Cls) (env : Env) (id : String) (dto : RemoveRoleDto) :
    MembersService.removeRole cls env id dto = (do
      let (accessGrant, rls, person) ← memberInSight cls env id
      let clientAccess ← findMemberAccess rls env id dto accessGrant
      requireAnother rls id accessGrant
      transaction (deleteAccessKeepingPrimary rls.seesClient env clientAccess)
      clearAccessGrantsOf person.idpId clientAccess.clientId (some clientAccess.siteId) []) := by
  unfold MembersService.removeRole memberInSight findMemberAccess requireAnother
  simp only [bind_bind, (readOnly_query _).transaction_bind, (readOnly_orRaise _ _).transaction_bind,
    (readOnly_raiseIf _ _).transaction_bind, transaction_bind_pure]
  rfl

theorem findMemberAccess_ok {rls : Settings} {env : Env} {id : String} {dto : RemoveRoleDto}
    {g : AccessGrant} {access : PersonClientAccess} {w w' : World}
    (h : (findMemberAccess rls env id dto g).run w = (.ok access, w')) :
    access ∈ w.db.accesses ∧ w = w' := by
  unfold findMemberAccess at h
  rw [run_query_bind, orRaise_eq_ok] at h
  exact ⟨(RowOrder.findFirst_mem h.1).1, h.2⟩

theorem membersRemoveRole_whole (cls : Cls) (env : Env) (id : String) (dto : RemoveRoleDto) :
    (membersRemoveRole cls env id dto).whole = MembersService.removeRole cls env id dto := by
  rw [membersRemoveRole_eq]
  unfold membersRemoveRole
  simp only [whole_bind, whole_atomically]
  funext w
  apply run_bind_congr
  intro sight w₁ _
  apply run_bind_congr
  intro access w₂ haccess
  refine run_bind_congr fun _ w₃ hanother => run_bind_of_run_eq _ (deleteKeepingPrimary_whole ?_)
  obtain ⟨hmem, rfl⟩ := findMemberAccess_ok haccess
  have hread : (requireAnother sight.2.1 id sight.1).ReadOnly :=
    (readOnly_query _).bind fun _ => readOnly_raiseIf _ _
  obtain rfl := hread.ok hanother
  exact hmem

theorem usersRemoveRole_eq (env : Env) (id : String) (dto : RemoveUserRoleDto) :
    UsersService.removeRole env id dto = (do
      let person ← UsersService.findPersonOrThrow id
      let clientAccess ← findUserAccess env id dto
      transaction (deleteAccessKeepingPrimary (fun _ => true) env clientAccess)
      clearAccessGrantsOf person.idpId dto.clientId (some dto.siteId) []) := by
  unfold UsersService.removeRole findUserAccess
  simp only [bind_bind, (readOnly_query _).transaction_bind,
    (readOnly_orRaise _ _).transaction_bind]
  rfl

theorem usersRemoveRole_whole (env : Env) (id : String) (dto : RemoveUserRoleDto) :
    (usersRemoveRole env id dto).whole = UsersService.removeRole env id dto := by
  rw [usersRemoveRole_eq]
  unfold usersRemoveRole
  simp only [whole_bind, whole_atomically]
  funext w
  apply run_bind_congr
  intro person w₁ _
  apply run_bind_congr
  intro access w₂ haccess
  refine run_bind_of_run_eq _ (deleteKeepingPrimary_whole ?_)
  unfold findUserAccess at haccess
  rw [run_query_bind, orRaise_eq_ok] at haccess
  obtain ⟨hfound, rfl⟩ := haccess
  exact (RowOrder.findFirst_mem hfound).1

/-- The rows a removal deletes, by what it asks of them and by their keys. -/
theorem memberRows_eq_contains {rls : Settings} {id : String} {g : AccessGrant} {t : AccessTable} :
    ∀ a ∈ t, memberRows rls id g a.key =
      ((t.rows.filter fun a => memberRows rls id g a.key).map (·.key)).contains a.key := by
  intro a ha
  rw [Bool.eq_iff_iff, List.contains_iff_mem, List.mem_map]
  constructor
  · intro h
    exact ⟨a, List.mem_filter.mpr ⟨ha, h⟩, rfl⟩
  · rintro ⟨b, hb, hk⟩
    rw [← hk]
    exact (List.mem_filter.mp hb).2

theorem membersRemove_whole (cls : Cls) (env : Env) (id : String) :
    (membersRemove cls env id).whole = MembersService.remove cls env id := by
  unfold membersRemove MembersService.remove
  simp only [whole_bind, whole_atomically, memberInSight, bind_bind, removeRows_whole]
  funext w
  apply run_bind_congr
  intro accessGrant w₁ _
  apply run_bind_congr
  intro rls w₂ _
  apply run_bind_congr
  intro person w₃ _
  rw [run_pure_bind]
  apply run_bind_congr
  intro hadPrimaryAccess w₄ _
  apply run_bind_congr
  intro rows w₅ _
  have hdelete : (deleteAccesses (memberRows rls id accessGrant)).run w₅ = _ :=
    congrArg (fun t => (Except.ok (), w₅.withAccesses t))
      (Table.deleteMany_congr memberRows_eq_contains)
  rw [run_query_bind]
  exact run_bind_of_run_eq _ (run_transaction_of_run_eq (run_bind_of_run_eq _ hdelete.symm))

theorem upsertPerson_id {env : Env} {userId : String} {user : KeycloakUser} {p : Person}
    {w w' : World} (h : (upsertPerson env userId user).run w = (.ok p, w')) :
    p.id = importedId env userId w.db ∧ w'.db.accesses = w.db.accesses := by
  obtain ⟨himported, t, rfl, -⟩ := upsertPerson_ok h
  refine ⟨?_, rfl⟩
  unfold IsImported at himported
  unfold importedId
  cases hf : w.db.persons.rows.find? (·.idpId = some userId) with
  | some q =>
    rw [hf] at himported
    exact himported.symm
  | none =>
    rw [hf] at himported
    exact himported.1.symm

theorem syncPerson_whole (env : Env) (user : KeycloakUser) (userId clientId siteId : String)
    (roleIds : List String) :
    (syncPerson env user userId clientId siteId roleIds).whole =
      transaction (syncTransaction env user userId clientId siteId roleIds) := by
  unfold syncPerson syncTransaction commitSync
  simp only [whole_bind, whole_atomically]
  funext w
  show (query _ >>= _).run w = (transaction _).run w
  rw [run_query_bind, run_query_bind]
  refine run_transaction_of_run_eq (run_bind_congr fun person w₁ hperson => ?_)
  obtain ⟨hid, haccesses⟩ := upsertPerson_id hperson
  rw [run_query_bind, hid, haccesses]

theorem syncUser_whole (env : Env) (user : KeycloakUser) (maps : SyncMaps)
    (userGroups : List (Option String)) :
    (syncUser env user maps userGroups).whole =
      KeycloakAccessSyncService.syncUser env user maps userGroups := by
  unfold syncUser KeycloakAccessSyncService.syncUser
  cases truthy user.id with
  | none => rfl
  | some userId =>
    cases truthy user.clientId with
    | none => rfl
    | some clientExternalId =>
      cases truthy user.siteId with
      | none => rfl
      | some siteExternalId =>
        dsimp only
        cases truthy (maps.clientMap.lookup clientExternalId) with
        | none => rfl
        | some clientId =>
          cases truthy (maps.siteMap.lookup siteExternalId) with
          | none => rfl
          | some siteId =>
            dsimp only
            split
            · rfl
            · exact syncPerson_whole env user userId clientId siteId _

end CommitSteps

/-! ## 5. What every step does -/

/-- **What a step does to the access rows:** if the commit it announces goes through, what that makes
    of their flags, and nothing otherwise. -/
def CommitStep : Option Commit → (World → World) → Prop
  | none, write => ∀ w, (write w).db.primaryFlag = w.db.primaryFlag
  | some commit, write => ∀ w,
      (commit.GoesThrough w.db →
        (write w).db.primaryFlag = commit.apply w.db.primaryFlag) ∧
      (¬ commit.GoesThrough w.db → (write w).db.primaryFlag = w.db.primaryFlag)

theorem readOnly_commitStep {α : Type} {x : Api α} (hx : x.ReadOnly) : CommitStep none x.after := by
  intro w
  rw [hx w]

theorem cacheOnly_commitStep {α : Type} {x : Api α} (hx : CacheOnly x) :
    CommitStep none x.after := by
  intro w
  rw [hx.db w]

theorem atomic_commitStep {α : Type} {commit : Commit} {x : Api α} (hx : x.Atomic)
    (hrun : ∀ w, commit.GoesThrough w.db → ∃ a w', x.run w = (.ok a, w'))
    (hok : ∀ w a w', x.run w = (.ok a, w') →
      commit.GoesThrough w.db ∧ w'.db.primaryFlag = commit.apply w.db.primaryFlag) :
    CommitStep (some commit) x.after := by
  intro w
  constructor
  · intro hgoes
    obtain ⟨a, w', h⟩ := hrun w hgoes
    rw [after_of_run h]
    exact (hok w a w' h).2
  · intro hno
    rcases hx.cases w with hsame | ⟨a, h⟩
    · rw [hsame]
    · exact absurd (hok w a _ h).1 hno

theorem transaction_commitStep {α : Type} {commit : Commit} {x : Api α}
    (hrun : ∀ w, commit.GoesThrough w.db → ∃ a w', x.run w = (.ok a, w'))
    (hok : ∀ w a w', x.run w = (.ok a, w') →
      commit.GoesThrough w.db ∧ w'.db.primaryFlag = commit.apply w.db.primaryFlag) :
    CommitStep (some commit) (transaction x).after := by
  refine atomic_commitStep (atomic_transaction x) (fun w hgoes => ?_) fun w a w' h =>
    hok w a w' (transaction_eq_ok.mp h)
  obtain ⟨a, w', h⟩ := hrun w hgoes
  exact ⟨a, w', transaction_eq_ok.mpr h⟩

theorem removal_run (deleted : List AccessKey) (promotion : Option Promotion) (w : World) :
    ∃ w', (commitRemoval deleted promotion).run w = (.ok (), w') ∧
      w'.db.primaryFlag = (Commit.remove deleted promotion).apply w.db.primaryFlag := by
  obtain ⟨w₁, hdelete, -, hflag⟩ := deleteAccesses_run (deleted.contains ·) w
  have hgone : w₁.db.primaryFlag = withoutRows (deleted.contains ·) w.db.primaryFlag := by
    funext k
    exact hflag k
  unfold commitRemoval
  simp only [transaction_eq_ok, run_bind_ok hdelete]
  cases promotion with
  | none => exact ⟨w₁, rfl, hgone⟩
  | some p =>
    obtain ⟨w₂, hset, -, hflag'⟩ := setPrimaries_run (p.keys.contains ·) w₁
    refine ⟨w₂, hset, ?_⟩
    funext k
    rw [hflag', hgone]
    rfl

theorem commitRemoval_step (deleted : List AccessKey) (promotion : Option Promotion) :
    CommitStep (some (.remove deleted promotion)) (commitRemoval deleted promotion).after := by
  intro w
  obtain ⟨w', hrun, hflag⟩ := removal_run deleted promotion w
  rw [after_of_run hrun]
  exact ⟨fun _ => hflag, fun hno => absurd trivial hno⟩

theorem acceptWrite_commitStep (env : Env) (personId code : String)
    (existing : Option PersonClientAccess) (invs : List Invitation) :
    CommitStep (some (.accept env personId code existing invs))
      (transaction (acceptWrite env personId code existing invs)).after := by
  have hkeys : ∀ w : World, (∀ a ∈ acceptedRows env personId code existing invs,
      w.db.canUpsert a.key = true) ↔
        (Commit.accept env personId code existing invs).GoesThrough w.db := by
    intro w
    have hmap := map_key_acceptedRows env personId code existing invs
    constructor
    · intro h i hi
      have hi : accessKey personId i ∈ invs.map (accessKey personId) := List.mem_map_of_mem hi
      rw [← hmap] at hi
      obtain ⟨a, ha, hk⟩ := List.mem_map.mp hi
      rw [← hk]
      exact h a ha
    · intro h a ha
      have ha : a.key ∈ (acceptedRows env personId code existing invs).map (·.key) :=
        List.mem_map_of_mem ha
      rw [hmap] at ha
      obtain ⟨i, hi, hk⟩ := List.mem_map.mp ha
      rw [← hk]
      exact h i hi
  refine transaction_commitStep (fun w hgoes => ?_) fun w rs w' h => ?_
  · obtain ⟨rs, w₁, hloop, -, -⟩ := forEach_upsert_ok ((hkeys w).mpr hgoes)
    unfold acceptWrite
    rw [run_bind_ok hloop]
    exact ⟨rs, _, rfl⟩
  · unfold acceptWrite at h
    rw [bind_eq_ok] at h
    obtain ⟨rs', w₁, hloop, h⟩ := h
    obtain ⟨-, rfl⟩ := Prod.mk.inj h
    have hflag := forEach_upsert_flag hloop
    exact ⟨(hkeys w).mp (canUpsert_of_forEach hloop), hflag⟩

theorem usersAddRole_commitStep (env : Env) (personId : String) (dto : AddUserRoleDto)
    (existing : Option PersonClientAccess) :
    CommitStep (some (.usersAddRole personId dto existing))
      (transaction (upsertWithPrimary (addedRow env personId dto existing))).after := by
  refine transaction_commitStep (fun w hgoes => ?_) fun w a w' h => ?_
  · exact upsertAccess_ok_iff.mpr hgoes
  · obtain ⟨-, -, hflag⟩ := upsertWithPrimary_flag h
    exact ⟨upsertAccess_ok_iff.mp ⟨a, w', h⟩, hflag⟩

theorem createAccess_commitStep {a : PersonClientAccess} {personId clientId : String}
    {dto : AddRoleDto} {primaryHere : Option PersonClientAccess}
    (hkey : a.key = ⟨personId, clientId, dto.siteId, dto.roleId⟩)
    (hprimary : a.isPrimary = primaryHere.isSome) :
    CommitStep (some (.membersAddRole personId clientId dto primaryHere)) (createAccess a).after := by
  refine atomic_commitStep (atomic_attempt _) (fun w hgoes => ?_) fun w r w' h => ?_
  · obtain ⟨hfresh, hrefs⟩ := hgoes
    rw [← hkey] at hfresh hrefs
    obtain ⟨w', h⟩ := createAccess_run hfresh hrefs
    exact ⟨a, w', h⟩
  · obtain ⟨-, hfresh, hflag⟩ := createAccess_flag h
    obtain ⟨-, hrefs, -⟩ := createAccess_eq_ok.mp h
    rw [hkey] at hfresh hrefs
    refine ⟨⟨hfresh, hrefs⟩, ?_⟩
    rw [hflag, hkey, hprimary]
    rfl

/-- An upsert that does not update. -/
theorem upsertAccess_id_flag {a r : PersonClientAccess} {w w' : World}
    (h : (upsertAccess a id key_id).run w = (.ok r, w')) (k : AccessKey) :
    w'.db.primaryFlag k =
      if (w.db.primaryFlag k).isNone ∧ a.key = k then some a.isPrimary else w.db.primaryFlag k := by
  obtain ⟨-, -, hflag⟩ := upsertAccess_flag h
  rw [hflag, Function.update_apply]
  unfold Db.primaryFlag
  by_cases hk : k = a.key
  · rw [if_pos hk, hk]
    cases w.db.accesses.find? a.key <;> simp
  · rw [if_neg hk, if_neg fun hboth => hk hboth.2.symm]

theorem forEach_upsertAccess_flag {roleIds : List String} {row : String → PersonClientAccess}
    {first : Bool} (hfirst : ∀ roleId, (row roleId).isPrimary = first)
    {rs : List PersonClientAccess} {w w' : World}
    (h : (forEach roleIds fun roleId => upsertAccess (row roleId) id key_id).run w = (.ok rs, w'))
    (k : AccessKey) :
    w'.db.primaryFlag k =
      if (w.db.primaryFlag k).isNone ∧ ∃ roleId ∈ roleIds, (row roleId).key = k then some first
      else w.db.primaryFlag k := by
  induction roleIds generalizing w rs with
  | nil =>
    obtain ⟨-, rfl⟩ := Prod.mk.inj h
    simp
  | cons roleId roleIds ih =>
    obtain ⟨r, w₁, rs', hr, hrs, -⟩ := forEach_cons_eq_ok.mp h
    rw [ih hrs, upsertAccess_id_flag hr, hfirst]
    by_cases hnone : (w.db.primaryFlag k).isNone
    · by_cases hk : (row roleId).key = k
      · simp [hnone, hk]
      · simp [hnone, hk]
    · simp [hnone]

/-- The persons there are after an import. -/
theorem upsertPerson_persons {env : Env} {userId : String} {user : KeycloakUser} {p : Person}
    {w w' : World} (h : (upsertPerson env userId user).run w = (.ok p, w')) (id : String) :
    (w'.db.persons.find? id).isSome = true ↔ id = p.id ∨ (w.db.persons.find? id).isSome = true := by
  obtain ⟨-, t, hw', hkept, hthere⟩ := upsertPerson_ok h
  constructor
  · unfold upsertPerson at h
    rw [attempt_eq_ok] at h
    cases hf : w.db.persons.rows.find? (·.idpId = some userId) with
    | some q =>
      rw [hf] at h
      obtain ⟨-, rfl⟩ := Prod.mk.inj (Except.ok.inj h)
      intro hid
      rw [Table.find?_updateMany, Option.isSome_map] at hid
      exact .inr hid
    | none =>
      rw [hf] at h
      simp only at h
      split at h
      · next t ht =>
        obtain ⟨rfl, rfl⟩ := Prod.mk.inj (Except.ok.inj h)
        intro hid
        rw [Table.find?_insert? ht] at hid
        split at hid
        · next heq => exact .inl heq
        · exact .inr hid
      · exact absurd h (by simp)
  · rintro (rfl | hid)
    · exact hw' ▸ hthere
    · exact hw' ▸ hkept id hid

theorem commitSync_step (env : Env) (user : KeycloakUser)
    (userId personId clientId siteId : String) (isFirstAccess : Bool) (roleIds : List String) :
    CommitStep (some (.syncUser env userId personId clientId siteId isFirstAccess roleIds))
      (commitSync env user userId personId clientId siteId isFirstAccess roleIds).after := by
  have hups : ∀ {w w₁ : World} {p : Person},
      (upsertPerson env userId user).run w = (.ok p, w₁) → ∀ roleId,
        (w₁.db.canUpsert ⟨personId, clientId, siteId, roleId⟩ = true ↔
          (w.db.primaryFlag ⟨personId, clientId, siteId, roleId⟩).isSome = true ∨
            ((personId = p.id ∨ (w.db.persons.find? personId).isSome = true) ∧
              (w.db.clients.find? clientId).isSome = true ∧
              (w.db.sites.find? siteId).isSome = true ∧
              (w.db.roles.find? roleId).isSome = true)) := by
    intro w w₁ p hperson roleId
    have hpersons := upsertPerson_persons hperson personId
    obtain ⟨-, t, rfl, -⟩ := upsertPerson_ok hperson
    unfold Db.canUpsert Db.accessRefs
    rw [Bool.or_eq_true, Bool.and_eq_true, Bool.and_eq_true, Bool.and_eq_true, and_assoc, and_assoc,
      hpersons]
    rfl
  refine transaction_commitStep (fun w hgoes => ?_) fun w b w' h => ?_
  · obtain ⟨q, himported, hroles⟩ := hgoes
    obtain ⟨p, w₁, hperson⟩ := upsertPerson_run user himported
    obtain rfl := himported.unique (upsertPerson_ok hperson).1
    have hloop : ∃ rs w₂, (forEach roleIds fun roleId => upsertAccess
        (syncedRow env personId clientId siteId isFirstAccess roleId) id key_id).run w₁ =
          (.ok rs, w₂) :=
      forEach_upsertAccess_run fun roleId hrole => (hups hperson roleId).mpr (hroles roleId hrole)
    obtain ⟨rs, w₂, hloop⟩ := hloop
    refine ⟨true, w₂, ?_⟩
    rw [run_bind_ok hperson, run_bind_ok hloop, run_pure]
  · rw [bind_eq_ok] at h
    obtain ⟨person, w₁, hperson, h⟩ := h
    rw [bind_eq_ok] at h
    obtain ⟨rs, w₂, hloop, h⟩ := h
    obtain ⟨-, rfl⟩ := Prod.mk.inj h
    obtain ⟨himported, -⟩ := upsertPerson_ok hperson
    obtain ⟨-, hall, -⟩ := forEach_upsertAccess_rows hloop
    refine ⟨⟨person.id, himported, fun roleId hrole =>
      (hups hperson roleId).mp (hall roleId hrole)⟩, ?_⟩
    have hfirst : ∀ roleId, (syncedRow env personId clientId siteId isFirstAccess
        roleId).isPrimary = isFirstAccess := fun _ => rfl
    obtain ⟨-, t, rfl, -⟩ := upsertPerson_ok hperson
    funext k
    exact forEach_upsertAccess_flag hfirst hloop k

/-! ## 6. The seven calls -/

namespace AccessCall

def commitSteps (cfg : Config) : AccessCall → CommitSteps Unit
  | .accept cls env code => CommitSteps.accept cfg cls env code >>= fun _ => pure ()
  | .membersAddRole cls env id dto => CommitSteps.membersAddRole cls env id dto >>= fun _ => pure ()
  | .membersRemoveRole cls env id dto => CommitSteps.membersRemoveRole cls env id dto
  | .membersRemove cls env id => CommitSteps.membersRemove cls env id
  | .usersAddRole env id dto => CommitSteps.usersAddRole env id dto >>= fun _ => pure ()
  | .usersRemoveRole env id dto => CommitSteps.usersRemoveRole env id dto
  | .syncUser env user maps groups =>
    CommitSteps.syncUser env user maps groups >>= fun _ => pure ()

/-- With nobody else around, the steps of a call are the call. -/
theorem commitSteps_whole (cfg : Config) (call : AccessCall) (w : World) :
    (call.commitSteps cfg).whole.after w = call.step cfg w := by
  cases call with
  | accept cls env code =>
    unfold commitSteps
    rw [whole_bind, CommitSteps.accept_whole]
    exact after_bind_pure _ _ w
  | membersAddRole cls env id dto =>
    unfold commitSteps
    rw [whole_bind, CommitSteps.membersAddRole_whole]
    exact after_bind_pure _ _ w
  | membersRemoveRole cls env id dto =>
    unfold commitSteps
    rw [CommitSteps.membersRemoveRole_whole]
    rfl
  | membersRemove cls env id =>
    unfold commitSteps
    rw [CommitSteps.membersRemove_whole]
    rfl
  | usersAddRole env id dto =>
    unfold commitSteps
    rw [whole_bind, CommitSteps.usersAddRole_whole]
    exact after_bind_pure _ _ w
  | usersRemoveRole env id dto =>
    unfold commitSteps
    rw [CommitSteps.usersRemoveRole_whole]
    rfl
  | syncUser env user maps groups =>
    unfold commitSteps
    rw [whole_bind, CommitSteps.syncUser_whole]
    exact after_bind_pure _ _ w

end AccessCall

namespace CommitSteps

theorem every_read {α : Type} {x : Api α} (hx : x.ReadOnly) :
    (atomically none x : CommitSteps α).Every CommitStep :=
  every_atomically (readOnly_commitStep hx)

theorem every_query {α : Type} (f : World → α) :
    (atomically none (query f) : CommitSteps α).Every CommitStep :=
  every_read (readOnly_query f)

theorem every_clearOf (idpId : Option String) (clientId : String) (siteId : Option String)
    (siteIds : List String) :
    (atomically none (clearAccessGrantsOf idpId clientId siteId siteIds) :
      CommitSteps Unit).Every CommitStep :=
  every_atomically (cacheOnly_commitStep (cacheOnly_clearOf ..))

theorem every_memberInSight (cls : Cls) (env : Env) (id : String) :
    (atomically none (memberInSight cls env id) : CommitSteps _).Every CommitStep := by
  exact every_read ((readOnly_requireAccessGrant cls).bind fun _ =>
    (readOnly_prismaBuild cls env {}).bind fun rls =>
      (readOnly_findPersonOrThrow rls id).bind fun _ => readOnly_pure _)

theorem every_removal (deleted : List AccessKey) (promotion : Option Promotion) :
    (removal deleted promotion).Every CommitStep :=
  every_atomically (commitRemoval_step deleted promotion)

theorem every_promote (sees : String → Bool) (env : Env) (personId : String)
    (deleted : List AccessKey) : (promote sees env personId deleted).Every CommitStep := by
  apply (every_query _).bind
  intro oldest
  cases oldest with
  | none => exact every_removal deleted none
  | some oldest => exact (every_query _).bind fun promoted => every_removal deleted _

theorem every_deleteKeepingPrimary (sees : String → Bool) (env : Env)
    (access : PersonClientAccess) :
    (deleteKeepingPrimary sees env access).Every CommitStep := by
  have hrow : (requireRow access.key).ReadOnly :=
    (readOnly_query _).bind fun _ => readOnly_raiseIf _ _
  apply (every_read hrow).bind
  intro _
  split
  · apply (every_query _).bind
    intro remaining
    cases remaining with
    | some a => exact every_removal _ none
    | none => exact every_promote sees env access.personId _
  · exact every_removal _ none

theorem every_removeRows (hadPrimaryAccess : Bool) (sees : String → Bool) (env : Env)
    (personId : String) (deleted : List AccessKey) :
    (removeRows hadPrimaryAccess sees env personId deleted).Every CommitStep := by
  unfold removeRows
  split
  · exact every_promote sees env personId deleted
  · exact every_removal deleted none

theorem every_syncUser (env : Env) (user : KeycloakUser) (maps : SyncMaps)
    (groups : List (Option String)) : (syncUser env user maps groups).Every CommitStep := by
  unfold syncUser
  split
  · exact every_pure _
  · split
    · split
      · dsimp only
        split
        · exact every_pure _
        · exact (every_query _).bind fun personId => (every_query _).bind fun count =>
            every_atomically (commitSync_step _ _ _ personId _ _ _ _)
      · exact every_pure _
    · exact every_pure _

end CommitSteps

open CommitSteps in
/-- **A call writes access rows in its commit only**, and what the commit says. -/
theorem AccessCall.commitSteps_every (cfg : Config) (call : AccessCall) :
    (call.commitSteps cfg).Every CommitStep := by
  cases call with
  | accept cls env code =>
    refine Every.bind ?_ fun _ => every_pure _
    apply (every_read (readOnly_orRaise _ _)).bind
    intro user
    apply (every_read (readOnly_orRaise _ _)).bind
    intro person
    apply (every_read (readOnly_acceptFind cfg env person code)).bind
    intro invitation
    apply (every_query _).bind
    intro invs
    apply (every_query _).bind
    intro existing
    refine (every_atomically (acceptWrite_commitStep env person.id code existing invs)).bind
      fun rows => every_atomically (cacheOnly_commitStep ?_)
    exact (cacheOnly_forEach (fun _ => cacheOnly_clear ..) _).bind fun _ => cacheOnly_pure _
  | membersAddRole cls env id dto =>
    refine Every.bind ?_ fun _ => every_pure _
    apply (every_memberInSight cls env id).bind
    intro sight
    apply (every_query _).bind
    intro here
    apply (every_atomically (createAccess_commitStep rfl rfl)).bind
    intro access
    exact (every_clearOf ..).bind fun _ => every_pure _
  | membersRemoveRole cls env id dto =>
    have hfind (rls : Settings) (g : AccessGrant) :
        (findMemberAccess rls env id dto g).ReadOnly :=
      (readOnly_query _).bind fun _ => readOnly_orRaise _ _
    have hanother (rls : Settings) (g : AccessGrant) : (requireAnother rls id g).ReadOnly :=
      (readOnly_query _).bind fun _ => readOnly_raiseIf _ _
    apply (every_memberInSight cls env id).bind
    intro sight
    apply (every_read (hfind _ _)).bind
    intro access
    apply (every_read (hanother _ _)).bind
    intro _
    exact (every_deleteKeepingPrimary _ env access).bind fun _ => every_clearOf ..
  | membersRemove cls env id =>
    apply (every_memberInSight cls env id).bind
    intro sight
    apply (every_query _).bind
    intro had
    apply (every_query _).bind
    intro rows
    apply (every_query _).bind
    intro deleted
    exact (every_removeRows had _ env id deleted).bind fun _ => every_clearOf ..
  | usersAddRole env id dto =>
    have hperson : (UsersService.findPersonOrThrow id).ReadOnly :=
      (readOnly_query _).bind fun _ => readOnly_orRaise _ _
    have hsite : (requireSite dto).ReadOnly :=
      (readOnly_query _).bind fun _ => readOnly_raiseIf _ _
    have hrole : (requireRole dto).ReadOnly :=
      (readOnly_query _).bind fun _ => readOnly_raiseIf _ _
    refine Every.bind ?_ fun _ => every_pure _
    apply (every_read hperson).bind
    intro person
    apply (every_read hsite).bind
    intro _
    apply (every_read hrole).bind
    intro _
    apply (every_query _).bind
    intro existing
    apply (every_atomically (usersAddRole_commitStep env person.id dto existing)).bind
    intro _
    exact (every_clearOf ..).bind fun _ => every_pure _
  | usersRemoveRole env id dto =>
    have hperson : (UsersService.findPersonOrThrow id).ReadOnly :=
      (readOnly_query _).bind fun _ => readOnly_orRaise _ _
    have hfind : (findUserAccess env id dto).ReadOnly :=
      (readOnly_query _).bind fun _ => readOnly_orRaise _ _
    apply (every_read hperson).bind
    intro person
    apply (every_read hfind).bind
    intro access
    exact (every_deleteKeepingPrimary _ env access).bind fun _ => every_clearOf ..
  | syncUser env user maps groups =>
    exact (every_syncUser env user maps groups).bind fun _ => every_pure _

end ShieldApi
