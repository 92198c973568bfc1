import ShieldApi.Auth.GrantResolution

/-!
# What a request says about itself

The rest of `AuthService` that the guards use: who the caller is (the bearer token, and the
person row kept for its user), in which context they act (the `x-*` headers), and the access
grant, which is resolved once and then answered **from the memory cache**.

Checking a JWT is the work of a library and of the identity provider's keys; `verifyJwt` stands
for it. A header arrives as one string or as several, and `firstOf` takes the first.
-/

set_option autoImplicit false

namespace ShieldApi

open Effect

/-! ## 1. Requests -/

inductive HeaderValue
  | one (value : String)
  | many (values : List String)
  deriving DecidableEq, Repr

structure Request where
  /-- By lower-cased name. -/
  headers : List (String × HeaderValue) := []
  ip : Option String := none
  deriving DecidableEq, Repr

def Request.header (request : Request) (name : String) : Option HeaderValue :=
  request.headers.lookup name

def firstOf : Option HeaderValue → Option String
  | some (.one value) => some value
  | some (.many values) => values.head?
  | none => none

/-- A header JavaScript takes for true. An array is true, however empty. -/
def HeaderValue.isTruthy : HeaderValue → Bool
  | .one value => value ≠ ""
  | .many _ => true

/-- `ACCESS_INTENTS.includes`. -/
def AccessIntent.ofText (text : String) : Option AccessIntent :=
  [AccessIntent.system, .elevated, .user].find? (·.text = text)

def getAccessIntent (request : Request) : AccessIntent :=
  match truthy (firstOf (request.header "x-access-intent")) with
  -- the deprecated header
  | none => if firstOf (request.header "x-view-context") = some "admin" then .system else .user
  | some intent => (AccessIntent.ofText intent).getD .user

/-! ## 2. The service -/

/-- Why a JWT was not accepted. -/
inductive JwtFailure
  | expired | failed
  deriving DecidableEq, Repr

abbrev VerifyJwt : Type := String → Except JwtFailure StatelessUser

namespace AuthService

def validateJwtToken (verifyJwt : VerifyJwt) (token : Option String) :
    Except String StatelessUser :=
  match truthy token with
  | none => .error "Authentication token is required."
  | some token =>
    match verifyJwt token with
    | .ok user => .ok user
    | .error .failed => .error "Authentication token validation failed."
    | .error .expired => .error "Authentication token expired."

/-- The second of the words of the `authorization` header, if the first is `Bearer`. -/
def extractTokenFromRequest (request : Request) : Option String :=
  match firstOf (request.header "authorization") with
  | none => none
  | some authorization =>
    match (authorization.toList.splitOn ' ').map String.ofList with
    | type :: token :: _ => if type = "Bearer" then some token else none
    | _ => none

def extractOrganizationContextFromRequest (request : Request) : AccessContext :=
  { requestedClientId := firstOf (request.header "x-client-id")
    requestedSiteId := firstOf (request.header "x-site-id")
    accessIntent := some (getAccessIntent request) }

/-- From the cache, or from the database and then into the cache. -/
def getAccessGrantForUser (cfg : Config) (env : Env) (user : StatelessUser)
    (accessContext : AccessContext) : Api AccessGrantResult := do
  let cacheKey := buildAccessGrantResponseCacheKey user.idpId accessContext
  match ← query (·.cache cacheKey) with
  | some cached => pure cached
  | none =>
    let value ← attempt fun w =>
      (getAccessGrantForUserFromDatabase cfg env user accessContext w.db).map (·, w)
    write (·.cacheSet cacheKey value)
    pure value

/-- The fields of a person row that follow the token. -/
structure PersonInput where
  idpId : String
  firstName : String
  lastName : String
  email : String
  username : String
  phoneNumber : Option String
  deriving DecidableEq, Repr

def personInput (user : StatelessUser) : PersonInput :=
  { idpId := user.idpId
    firstName := user.givenName.getD ""
    lastName := user.familyName.getD ""
    email := user.email
    username := user.username
    phoneNumber := user.phoneNumber }

/-- The update `person.upsert` and `person.update` make; an undefined phone number is left. -/
def PersonInput.update (input : PersonInput) (person : Person) : Person :=
  { person with
    idpId := some input.idpId
    firstName := input.firstName
    lastName := input.lastName
    email := input.email
    username := some input.username
    phoneNumber := input.phoneNumber.or person.phoneNumber }

def upsertPersonByIdpId (env : Env) (input : PersonInput) : Api Person :=
  attempt fun w =>
    match w.db.persons.rows.find? (·.idpId = some input.idpId) with
    | some p =>
      let t := w.db.persons.updateMany (·.id = p.id) input.update fun _ => rfl
      .ok (input.update p, { w with db := { w.db with persons := t } })
    | none =>
      let p := input.update { id := env.cuid 0, firstName := "", lastName := "", email := "" }
      match w.db.persons.insert? p with
      | some t => .ok (p, { w with db := { w.db with persons := t } })
      | none => .error .uniqueConstraint

def updatePerson (id : String) (input : PersonInput) : Api Person :=
  attempt fun w =>
    match w.db.persons.find? id with
    | some p =>
      let t := w.db.persons.updateMany (·.id = id) input.update fun _ => rfl
      .ok (input.update p, { w with db := { w.db with persons := t } })
    | none => .error .recordNotFound

/-- User data has changed since the person row was written. -/
def PersonInput.differs (input : PersonInput) (person : Person) : Bool :=
  input.firstName ≠ person.firstName || input.lastName ≠ person.lastName ||
    input.email ≠ person.email || some input.username ≠ person.username ||
    (input.phoneNumber.isSome && input.phoneNumber ≠ person.phoneNumber)

def cachePerson (cacheKey : String) (person : Person) : Api Unit :=
  write fun w =>
    { w with personCache := fun k => if k = cacheKey then some person else w.personCache k }

def savePersonFromUserData (env : Env) (user : StatelessUser) : Api Person := do
  let input := personInput user
  let cacheKey := "person:idpId=" ++ user.idpId
  let person ← (do
    match ← query (·.personCache cacheKey) with
    | some person => pure person
    | none =>
      let person ← upsertPersonByIdpId env input
      cachePerson cacheKey person
      pure person)
  if input.differs person then
    let person ← updatePerson person.id input
    cachePerson cacheKey person
    pure person
  else pure person

end AuthService

end ShieldApi
