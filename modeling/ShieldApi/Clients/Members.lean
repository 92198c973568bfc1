import ShieldApi.Clients.Invitations

/-!
# Members of a client

`clients/members/members.service.ts`: the operations a client's own managers have on the
people of their client. They run on the request client, so **their queries see the access
rows of the caller's client only** (all of them, and every client's, for a system admin who
asked for it).
-/

set_option autoImplicit false

namespace ShieldApi

open Effect

structure InviteMemberDto where
  email : String
  /-- `(roleId, siteId)`. -/
  assignments : List (String × String)
  expiresInDays : Option Nat := none
  deriving DecidableEq, Repr

structure AddRoleDto where
  roleId : String
  siteId : String
  deriving DecidableEq, Repr

structure RemoveRoleDto where
  roleId : String
  siteId : String
  deriving DecidableEq, Repr

namespace MembersService

/-- `prisma.person.findFirstOrThrow({ where: { id } }).catch(as404OrThrow)`. -/
def findPersonOrThrow (rls : Settings) (id : String) : Api Person := do
  let found ← query fun w => (w.db.persons.find? id).filter fun p => rls.seesPerson w.db p.id
  orRaise (as404OrThrow .recordNotFound) found

theorem readOnly_findPersonOrThrow (rls : Settings) (id : String) :
    (findPersonOrThrow rls id).ReadOnly :=
  (readOnly_query _).bind fun _ => readOnly_orRaise _ _

/-- A person lookup that returned found somebody in sight. -/
theorem findPersonOrThrow_eq_ok {rls : Settings} {id : String} {p : Person} {w w' : World} :
    (findPersonOrThrow rls id).run w = (.ok p, w') ↔
      (w.db.persons.find? id = some p ∧ rls.seesPerson w.db p.id = true) ∧ w = w' := by
  unfold findPersonOrThrow
  rw [run_query_bind, orRaise_eq_ok, Option.filter_eq_some_iff]

def invite (cls : Cls) (env : Env) (dto : InviteMemberDto) : Api (List Invitation) :=
  InvitationsService.createBulk cls env
    { invitations := dto.assignments.map fun a =>
        { email := dto.email, siteId := a.2, roleId := a.1 }
      expiresInDays := dto.expiresInDays }

def addRole (cls : Cls) (env : Env) (id : String) (dto : AddRoleDto) :
    Api PersonClientAccess := do
  let accessGrant ← cls.requireAccessGrant
  let rls ← prismaBuild cls env {}
  let person ← findPersonOrThrow rls id
  let primaryHere ← query fun w =>
    env.accessOrder.findFirst
      (fun a => rls.seesClient a.clientId && a.personId = id &&
        a.clientId = accessGrant.clientId && a.siteId = dto.siteId && a.isPrimary)
      w.db.accesses.rows
  -- primary iff the person's primary place is this client and site
  let clientAccess ← createAccess
    { createdOn := env.now
      personId := id
      clientId := accessGrant.clientId
      roleId := dto.roleId
      siteId := dto.siteId
      isPrimary := primaryHere.isSome }
  clearAccessGrantsOf person.idpId clientAccess.clientId (some clientAccess.siteId) []
  pure clientAccess

def removeRole (cls : Cls) (env : Env) (id : String) (dto : RemoveRoleDto) : Api Unit := do
  let accessGrant ← cls.requireAccessGrant
  let rls ← prismaBuild cls env {}
  let person ← findPersonOrThrow rls id
  let clientAccess ← transaction do
    let found ← query fun w =>
      env.accessOrder.findFirst
        (fun a => rls.seesClient a.clientId && a.personId = id &&
          a.clientId = accessGrant.clientId && a.roleId = dto.roleId && a.siteId = dto.siteId)
        w.db.accesses.rows
    let clientAccess ← orRaise (.notFound "Member does not have this role/site combination")
      found
    let accessCount ← query fun w =>
      (w.db.accesses.rows.filter fun a =>
        rls.seesClient a.clientId && a.personId = id && a.clientId = accessGrant.clientId).length
    raiseIf (accessCount ≤ 1)
      (.badRequest
        "Cannot remove the last role. A member must have at least one role to remain a member of the organization.")
    deleteAccessKeepingPrimary rls.seesClient env clientAccess
    pure clientAccess
  clearAccessGrantsOf person.idpId clientAccess.clientId (some clientAccess.siteId) []

/-- Remove a member from the organization entirely. -/
def remove (cls : Cls) (env : Env) (id : String) : Api Unit := do
  let accessGrant ← cls.requireAccessGrant
  let rls ← prismaBuild cls env {}
  let person ← findPersonOrThrow rls id
  let hadPrimaryAccess ← query fun w =>
    w.db.accesses.rows.any fun a =>
      rls.seesClient a.clientId && a.personId = id && a.isPrimary
  let accessRowsToDelete ← query fun w =>
    env.accessOrder.findMany
      (fun a => rls.seesClient a.clientId && a.personId = id &&
        a.clientId = accessGrant.clientId) w.db.accesses.rows
  transaction do
    deleteAccesses fun k =>
      rls.seesClient k.clientId && k.personId = id && k.clientId = accessGrant.clientId
    if hadPrimaryAccess then promoteOldestRemaining rls.seesClient env id else pure ()
  clearAccessGrantsOf person.idpId accessGrant.clientId none
    (accessRowsToDelete.map (·.siteId))

end MembersService

end ShieldApi
