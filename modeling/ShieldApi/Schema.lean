import ShieldApi.Lib.Effect
import ShieldApi.Lib.Table

/-!
# The rows the access services read and write

`prisma/schema.prisma`, cut to the columns some modelled function reads or writes. A
`DateTime` is the number of milliseconds since the epoch; a nullable column is an `Option`;
an enum of the schema is an inductive type with the schema's own spelling in lower case.

`PersonClientAccess` is the table everything turns on: **which person may act at which
client and site, in which role.** Its `id` column is left out, because its unique index
`(personId, clientId, siteId, roleId)` names a row just as well and is the index every
upsert goes through. `Table` holds that index as a field, so a database in which one person
has the same role twice at one place cannot be written down.
-/

set_option autoImplicit false

namespace ShieldApi

/-! ## 1. Enums -/

inductive RoleScope
  | system | global | client | siteGroup | site | self
  deriving DecidableEq, Repr

inductive ClientStatus
  | legacy | pending | active | inactive
  deriving DecidableEq, Repr

inductive InvitationStatus
  | pending | accepted | expired | revoked
  deriving DecidableEq, Repr

/-! ## 2. Rows -/

structure Client where
  id : String
  externalId : String
  status : ClientStatus := .pending
  name : String := ""
  demoMode : Bool := false
  /-- In days. -/
  defaultInspectionCycle : Int := 30
  deriving DecidableEq, Repr

structure Site where
  id : String
  externalId : String
  createdOn : Nat
  active : Bool := true
  primary : Bool := false
  parentSiteId : Option String := none
  clientId : String
  name : String := ""
  deriving DecidableEq, Repr

structure Role where
  id : String
  name : String
  description : Option String := none
  isSystem : Bool := false
  clientAssignable : Bool := false
  notificationGroups : List String := []
  scope : RoleScope := .site
  capabilities : List String := []
  deriving DecidableEq, Repr

structure Person where
  id : String
  firstName : String
  lastName : String
  email : String
  username : Option String := none
  idpId : Option String := none
  phoneNumber : Option String := none
  deriving DecidableEq, Repr

/-- `PersonClientAccess_personId_clientId_siteId_roleId_key`. -/
structure AccessKey where
  personId : String
  clientId : String
  siteId : String
  roleId : String
  deriving DecidableEq, Repr

structure PersonClientAccess where
  createdOn : Nat
  isPrimary : Bool := false
  personId : String
  clientId : String
  siteId : String
  roleId : String
  deriving DecidableEq, Repr

def PersonClientAccess.key (a : PersonClientAccess) : AccessKey :=
  ⟨a.personId, a.clientId, a.siteId, a.roleId⟩

structure Invitation where
  id : String
  code : String
  clientId : String
  createdById : String
  email : String
  roleId : String
  siteId : String
  groupId : Option String := none
  status : InvitationStatus := .pending
  expiresOn : Nat
  acceptedById : Option String := none
  acceptedOn : Option Nat := none
  createdOn : Nat
  deriving DecidableEq, Repr

/-! ## 3. The database -/

structure Db where
  clients : Table Client String Client.id := ∅
  sites : Table Site String Site.id := ∅
  roles : Table Role String Role.id := ∅
  persons : Table Person String Person.id := ∅
  accesses : Table PersonClientAccess AccessKey PersonClientAccess.key := ∅
  invitations : Table Invitation String Invitation.id := ∅

namespace Db

/-- The foreign keys of an access row resolve. -/
def accessRefs (db : Db) (k : AccessKey) : Bool :=
  (db.persons.find? k.personId).isSome && (db.clients.find? k.clientId).isSome &&
    (db.sites.find? k.siteId).isSome && (db.roles.find? k.roleId).isSome

/-- `where: { person: { idpId } }`. -/
def hasIdpId (db : Db) (idpId : String) (a : PersonClientAccess) : Bool :=
  (db.persons.find? a.personId).any (·.idpId = some idpId)

end Db

/-! ## 4. What a call may throw

The NestJS exceptions, with the `code` of those that carry one, the errors of the Prisma
client by their code, and a plain `Error`. -/

/-- One `(email, site, role)` of an invitation request. -/
structure InvitationInput where
  email : String
  siteId : String
  roleId : String
  deriving DecidableEq, Repr

inductive DenialReason
  | noAccessGrant | accessGrantExpired | accessGrantRequestDenied | clientInactive | siteInactive
  deriving DecidableEq, Repr

/-- `IAccessGrantResultDetails`; a field that is `null` or not there is `none`. -/
structure AccessGrantResultDetails where
  requestedClientId : Option String := none
  requestedSiteId : Option String := none
  primaryClientId : Option String := none
  primarySiteId : Option String := none
  primaryRoleId : Option String := none
  deriving DecidableEq, Repr

/-- The `code` of an `AccessGrantException`: the reason in upper case. -/
def DenialReason.code : DenialReason → String
  | .noAccessGrant => "NO_ACCESS_GRANT"
  | .accessGrantExpired => "ACCESS_GRANT_EXPIRED"
  | .accessGrantRequestDenied => "ACCESS_GRANT_REQUEST_DENIED"
  | .clientInactive => "CLIENT_INACTIVE"
  | .siteInactive => "SITE_INACTIVE"

inductive ApiError
  | badRequest (message : String)
  | unauthorized (message : String)
  | forbidden (message : String)
  /-- `AccessGrantException`: a `ForbiddenException` with these three. -/
  | accessGrant (code message : String) (details : AccessGrantResultDetails)
  | notFound (message : String)
  | conflict (code message : String) (conflicts : List InvitationInput)
  | gone (code message : String)
  | prisma (code : String)
  | error (message : String)
  deriving DecidableEq, Repr

/-- The row an operation depends on was not found. -/
def ApiError.recordNotFound : ApiError := .prisma "P2025"

def ApiError.uniqueConstraint : ApiError := .prisma "P2002"

def ApiError.foreignKeyConstraint : ApiError := .prisma "P2003"

/-- `as404OrThrow`. -/
def as404OrThrow (e : ApiError) : ApiError :=
  if e = .recordNotFound then .notFound "Not Found" else e

/-- The status a request that ends so is answered with. Of the errors of the database
    `PrismaErrorsFilter` translates `P2003` only. -/
def ApiError.status : ApiError → Nat
  | badRequest _ => 400
  | unauthorized _ => 401
  | forbidden _ => 403
  | accessGrant .. => 403
  | notFound _ => 404
  | conflict .. => 409
  | gone .. => 410
  | prisma code => if code = "P2003" then 409 else 500
  | error _ => 500

def ApiError.IsClientError (e : ApiError) : Prop := 400 ≤ e.status ∧ e.status < 500

end ShieldApi
