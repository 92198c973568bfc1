import ShieldApi.Clients.AccessRows

/-!
# Importing access from the identity provider

`syncUser` of `auth/keycloak/keycloak-access-sync.service.ts`: one access row for each role
group of a Keycloak user, at the client and site the user's attributes name. When a person is
imported for the first time all of the rows are primary; a later import never touches a row
that is there.

The maps and the user's groups come from `runSync` and from Keycloak; they are arguments.
-/

set_option autoImplicit false

namespace ShieldApi

open Effect

/-- A Keycloak user, with the first value of each of the two attributes that are read. -/
structure KeycloakUser where
  id : Option String := none
  email : Option String := none
  firstName : Option String := none
  lastName : Option String := none
  clientId : Option String := none
  siteId : Option String := none
  deriving DecidableEq, Repr

/-- What `runSync` looked up: Keycloak group to role, and external ids to ids. -/
structure SyncMaps where
  roleMap : List (String × String) := []
  clientMap : List (String × String) := []
  siteMap : List (String × String) := []
  deriving DecidableEq, Repr

namespace KeycloakAccessSyncService

/-- The roles of the groups that are mapped. -/
def matchingRoleIds (maps : SyncMaps) (userGroups : List (Option String)) : List String :=
  userGroups.filterMap fun g => (truthy g).bind fun id => maps.roleMap.lookup id

/-- `tx.person.upsert` by `idpId`. -/
def upsertPerson (env : Env) (idpId : String) (user : KeycloakUser) : Api Person :=
  attempt fun w =>
    match w.db.persons.rows.find? (·.idpId = some idpId) with
    | some p =>
      let update : Person → Person := fun q =>
        { q with
          firstName := user.firstName.getD q.firstName
          lastName := user.lastName.getD q.lastName
          email := user.email.getD q.email }
      let t := w.db.persons.updateMany (·.id = p.id) update fun _ => rfl
      .ok (update p, { w with db := { w.db with persons := t } })
    | none =>
      let p : Person :=
        { id := env.cuid 0
          idpId := some idpId
          firstName := (truthy user.firstName).getD "Unknown"
          lastName := (truthy user.lastName).getD "Unknown"
          email := (truthy user.email).getD "" }
      match w.db.persons.insert? p with
      | some t => .ok (p, { w with db := { w.db with persons := t } })
      | none => .error .uniqueConstraint

/-- The row a role of the user asks for. -/
def syncedRow (env : Env) (personId clientId siteId : String) (isFirstAccess : Bool)
    (roleId : String) : PersonClientAccess :=
  { createdOn := env.now
    personId := personId
    clientId := clientId
    siteId := siteId
    roleId := roleId
    isPrimary := isFirstAccess }

def syncUser (env : Env) (user : KeycloakUser) (maps : SyncMaps)
    (userGroups : List (Option String)) : Api Bool :=
  match truthy user.id with
  | none => pure false
  | some userId =>
    match truthy user.clientId, truthy user.siteId with
    | some clientExternalId, some siteExternalId =>
      match truthy (maps.clientMap.lookup clientExternalId),
          truthy (maps.siteMap.lookup siteExternalId) with
      | some clientId, some siteId =>
        let roleIds := matchingRoleIds maps userGroups
        if roleIds.isEmpty then pure false
        else transaction do
          let person ← upsertPerson env userId user
          let existingAccessCount ← query fun w =>
            (w.db.accesses.rows.filter (·.personId = person.id)).length
          let isFirstAccess : Bool := existingAccessCount = 0
          let _ ← forEach roleIds fun roleId =>
            upsertAccess (syncedRow env person.id clientId siteId isFirstAccess roleId) id
              fun _ => rfl
          pure true
      | _, _ => pure false
    | _, _ => pure false

end KeycloakAccessSyncService

end ShieldApi
