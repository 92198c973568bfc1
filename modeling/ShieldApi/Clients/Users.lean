import ShieldApi.Clients.AccessRows

/-!
# Users, for system administrators

The role operations of `clients/users/users.service.ts`. They work across clients, on a
client that bypasses RLS: the client is named by the request, and every row is in sight.
-/

set_option autoImplicit false

namespace ShieldApi

open Effect

structure AddUserRoleDto where
  clientId : String
  siteId : String
  roleId : String
  deriving DecidableEq, Repr

structure RemoveUserRoleDto where
  clientId : String
  siteId : String
  roleId : String
  deriving DecidableEq, Repr

namespace UsersService

/-- `prisma.person.findUniqueOrThrow({ where: { id } }).catch(as404OrThrow)`. -/
def findPersonOrThrow (id : String) : Api Person := do
  let found ← query (·.db.persons.find? id)
  orRaise (as404OrThrow .recordNotFound) found

def addRole (env : Env) (id : String) (dto : AddUserRoleDto) : Api PersonClientAccess := do
  let person ← findPersonOrThrow id
  let site ← query fun w => (w.db.sites.find? dto.siteId).filter (·.clientId = dto.clientId)
  raiseIf site.isNone
    (.notFound ("Site with ID " ++ dto.siteId ++ " not found for client " ++ dto.clientId))
  let role ← query (·.db.roles.find? dto.roleId)
  raiseIf role.isNone (.notFound ("Role with ID " ++ dto.roleId ++ " not found"))
  let clientAccess ← transaction do
    let existingPrimaryAccess ← query fun w => findPrimaryAccess env person.id w.db
    upsertWithPrimary
      { createdOn := env.now
        personId := person.id
        clientId := dto.clientId
        siteId := dto.siteId
        roleId := dto.roleId
        isPrimary := mayBePrimary existingPrimaryAccess dto.clientId dto.siteId }
  clearAccessGrantsOf person.idpId dto.clientId (some dto.siteId) []
  pure clientAccess

def removeRole (env : Env) (id : String) (dto : RemoveUserRoleDto) : Api Unit := do
  let person ← findPersonOrThrow id
  transaction do
    let found ← query fun w =>
      env.accessOrder.findFirst
        (fun a => a.personId = id && a.clientId = dto.clientId && a.roleId = dto.roleId &&
          a.siteId = dto.siteId)
        w.db.accesses.rows
    let clientAccess ← orRaise
      (.notFound "User does not have this client/site/role combination") found
    deleteAccessKeepingPrimary (fun _ => true) env clientAccess
  clearAccessGrantsOf person.idpId dto.clientId (some dto.siteId) []

end UsersService

end ShieldApi
