import ShieldApi.Auth.AuthService

/-!
# The two guards

Every request passes `AuthGuard` and then `PoliciesGuard` before it reaches a controller. The
first one decides who the caller is and writes it to the continuation-local store; the second
one reads the store and runs the endpoint's policy handlers. What they have in common is the
endpoint's metadata, which **both of them read**: `AuthGuard` takes an endpoint with public
policy handlers for public, so that a caller without a token gets as far as the handlers.

It then writes that to `isPublic`, and `PoliciesGuard` lets a request whose `isPublic` is set
through before it comes to the handlers. `policyEnforcement_iff` is the consequence: the public
handlers of an endpoint are never what keeps a request out.
-/

set_option autoImplicit false

namespace ShieldApi

open Effect

/-! ## 1. Endpoints -/

structure PolicyHandlerContext where
  request : Request
  user : StatelessUser
  accessGrant : AccessGrant
  deriving DecidableEq, Repr

structure PublicPolicyHandlerContext where
  request : Request
  user : Option StatelessUser
  accessGrant : Option AccessGrant
  deriving DecidableEq, Repr

/-- A handler answers, or throws. The services it looks up are part of the function. -/
abbrev PolicyHandler (Context : Type) : Type := Context → Except ApiError Bool

/-- What the decorators of a controller's method, or of its class, set. -/
structure Metadata where
  isPublic : Option Bool := none
  skipClientValidation : Option Bool := none
  checkPolicy : Option (List (PolicyHandler PolicyHandlerContext)) := none
  checkPublicPolicy : Option (List (PolicyHandler PublicPolicyHandlerContext)) := none

structure Endpoint where
  handler : Metadata
  cls : Metadata := {}

namespace Endpoint

/-- `reflector.getAllAndOverride`. -/
def getAllAndOverride {α : Type} (endpoint : Endpoint) (key : Metadata → Option α) : Option α :=
  (key endpoint.handler).or (key endpoint.cls)

/-- `getPolicyHandlers(..).private`. -/
def privateHandlers (endpoint : Endpoint) : List (PolicyHandler PolicyHandlerContext) :=
  (endpoint.getAllAndOverride (·.checkPolicy)).getD []

/-- `getPolicyHandlers(..).public`. -/
def publicHandlers (endpoint : Endpoint) : List (PolicyHandler PublicPolicyHandlerContext) :=
  (endpoint.getAllAndOverride (·.checkPublicPolicy)).getD []

/-- The endpoint is marked `Public`. -/
def isPublic (endpoint : Endpoint) : Bool :=
  (endpoint.getAllAndOverride (·.isPublic)).getD false

def allowPublic (endpoint : Endpoint) : Bool :=
  endpoint.isPublic || endpoint.publicHandlers.length > 0

def skipAccessGrantValidation (endpoint : Endpoint) : Bool :=
  (endpoint.getAllAndOverride (·.skipClientValidation)).getD false

end Endpoint

/-! ## 2. `AuthGuard` -/

namespace AuthGuard

def requiresSystemScope (accessIntent : AccessIntent) : ApiError :=
  .forbidden ("The '" ++ accessIntent.text ++ "' access intent requires SYSTEM scope.")

def requiresClientId : ApiError :=
  .badRequest "The 'elevated' access intent requires the x-client-id header."

/-- Reject if the token is not valid, unless the endpoint is public. -/
def requireValid (endpoint : Endpoint) : Except String StatelessUser → Api Unit
  | .ok _ => pure ()
  | .error reason => raiseIf (!endpoint.allowPublic) (.unauthorized reason)

/-- Reject if there is no grant, unless the endpoint is public or needs none. -/
def requireGrant (endpoint : Endpoint) : AccessGrantResult → Api Unit
  | .granted _ => pure ()
  | .denied reason message details =>
    raiseIf (!endpoint.allowPublic && !endpoint.skipAccessGrantValidation)
      (.accessGrant reason.code message details)

/-- Validate the access intent against the user's scope. -/
def checkIntent (request : Request) (accessGrant : Option AccessGrant) : Api Unit :=
  match accessGrant with
  | none => pure ()
  | some g => do
    let accessIntent := getAccessIntent request
    raiseIf (accessIntent ≠ .user && g.scope ≠ .system) (requiresSystemScope accessIntent)
    raiseIf (accessIntent = .elevated &&
      !(request.header "x-client-id").any HeaderValue.isTruthy) requiresClientId

def accessGrantFor (cfg : Config) (env : Env) (endpoint : Endpoint) (request : Request) :
    Option StatelessUser → Api (Option AccessGrant)
  | none => pure none
  | some user => do
    let result ← AuthService.getAccessGrantForUser cfg env user
      (AuthService.extractOrganizationContextFromRequest request)
    requireGrant endpoint result
    checkIntent request result.grant?
    pure result.grant?

def setClsContextFromRequest (cfg : Config) (env : Env) (endpoint : Endpoint) (request : Request)
    (user : Option StatelessUser) (accessGrant : Option AccessGrant) (cls : Cls) : Api Cls := do
  let person ← (match user with
    | none => pure cls.person
    | some user => do
      let person ← AuthService.savePersonFromUserData env user
      pure (some person))
  pure
    { cls with
      isPublic := endpoint.allowPublic
      skipAccessGrantValidation := endpoint.skipAccessGrantValidation
      accessIntent? := some (getAccessIntent request)
      useragent := firstOf (request.header "user-agent")
      ipv4 := (request.ip.filter cfg.isIPv4).or cls.ipv4
      ipv6 := (request.ip.filter cfg.isIPv6).or cls.ipv6
      user := user.or cls.user
      person := person
      accessGrant := accessGrant.or cls.accessGrant }

/-- The store the guard leaves, if it lets the request through. `cls` is the store the
    middleware set up. -/
def canActivate (cfg : Config) (env : Env) (verifyJwt : VerifyJwt) (endpoint : Endpoint)
    (request : Request) (cls : Cls) : Api Cls := do
  let validated := AuthService.validateJwtToken verifyJwt
    (AuthService.extractTokenFromRequest request)
  requireValid endpoint validated
  let accessGrant ← accessGrantFor cfg env endpoint request validated.toOption
  setClsContextFromRequest cfg env endpoint request validated.toOption accessGrant cls

end AuthGuard

/-- The store of a request before the guards: the middleware has set the mode. -/
def clsOfMode (mode : Option ClsMode) : Cls := { mode := mode }

/-! ## 3. `PoliciesGuard` -/

namespace PoliciesGuard

def execAllPolicyHandlers {Context : Type} (handlers : List (PolicyHandler Context))
    (context : Context) : Except ApiError Bool := do
  let results ← handlers.mapM (· context)
  return results.all id

def canActivate (endpoint : Endpoint) (request : Request) (cls : Cls) : Except ApiError Bool :=
  if cls.isPublic then
    return true
  else if endpoint.publicHandlers.length > 0 then
    execAllPolicyHandlers endpoint.publicHandlers ⟨request, cls.user, cls.accessGrant⟩
  else
    match cls.user with
    | none => return false
    | some user =>
      if endpoint.privateHandlers.length = 0 then
        return false
      else
        match cls.accessGrant with
        | none =>
          if cls.skipAccessGrantValidation then return true else throw (.forbidden "Forbidden")
        | some accessGrant =>
          execAllPolicyHandlers endpoint.privateHandlers ⟨request, user, accessGrant⟩

/-- Handlers pass a request when every one of them returns true. -/
theorem execAllPolicyHandlers_eq_true {Context : Type} {handlers : List (PolicyHandler Context)}
    {context : Context} :
    execAllPolicyHandlers handlers context = .ok true ↔
      ∀ h ∈ handlers, h context = .ok true := by
  unfold execAllPolicyHandlers
  induction handlers with
  | nil => simp [pure, Except.pure, bind, Except.bind]
  | cons h hs ih =>
    rw [List.mapM_cons, List.forall_mem_cons, ← ih]
    cases hh : h context with
    | error e => simp [bind, Except.bind]
    | ok b =>
      cases hrest : hs.mapM (· context) with
      | error e => simp [bind, Except.bind]
      | ok bs => simp [bind, Except.bind, pure, Except.pure]

end PoliciesGuard

/-! ## 4. What `AuthGuard` leaves in the store -/

/-- The store of a request `AuthGuard` lets through from the world `w`. -/
structure Admitted (cfg : Config) (env : Env) (verifyJwt : VerifyJwt) (endpoint : Endpoint)
    (request : Request) (mode : Option ClsMode) (w : World) (cls : Cls) : Prop where
  mode : cls.mode = mode
  isPublic : cls.isPublic = endpoint.allowPublic
  skipAccessGrantValidation : cls.skipAccessGrantValidation = endpoint.skipAccessGrantValidation
  accessIntent : cls.accessIntent = getAccessIntent request
  user : cls.user = (AuthService.validateJwtToken verifyJwt
    (AuthService.extractTokenFromRequest request)).toOption
  authenticated : endpoint.allowPublic = false → cls.user.isSome = true
  anonymous : cls.user = none → cls.accessGrant = none ∧ cls.person = none
  identified : ∀ user, cls.user = some user → ∃ result person w₁ w₂,
    (AuthService.getAccessGrantForUser cfg env user
      (AuthService.extractOrganizationContextFromRequest request)).run w = (.ok result, w₁) ∧
    cls.accessGrant = result.grant? ∧
    (AuthService.savePersonFromUserData env user).run w₁ = (.ok person, w₂) ∧
    cls.person = some person
  granted : endpoint.allowPublic = false → endpoint.skipAccessGrantValidation = false →
    cls.accessGrant.isSome = true
  systemScope : ∀ g, cls.accessGrant = some g → getAccessIntent request ≠ .user →
    g.scope = .system

/-- The user in the store is the one of the token. -/
theorem Admitted.validated {cfg : Config} {env : Env} {verifyJwt : VerifyJwt}
    {endpoint : Endpoint} {request : Request} {mode : Option ClsMode} {w : World} {cls : Cls}
    {user : StatelessUser} (hadm : Admitted cfg env verifyJwt endpoint request mode w cls)
    (hu : cls.user = some user) :
    AuthService.validateJwtToken verifyJwt (AuthService.extractTokenFromRequest request) =
      .ok user := by
  have huser := hadm.user.symm.trans hu
  cases hv : AuthService.validateJwtToken verifyJwt
      (AuthService.extractTokenFromRequest request) with
  | error reason =>
    rw [hv] at huser
    exact absurd huser (by simp [Except.toOption])
  | ok u =>
    rw [hv] at huser
    rw [Option.some.inj huser]

namespace AuthGuard

theorem requireValid_ok {endpoint : Endpoint} {validated : Except String StatelessUser}
    {w w' : World} {u : Unit} (h : (requireValid endpoint validated).run w = (.ok u, w')) :
    w' = w ∧ (endpoint.allowPublic = false → validated.toOption.isSome = true) := by
  cases validated with
  | ok user => exact ⟨(Prod.mk.inj h).2.symm, fun _ => rfl⟩
  | error reason =>
    obtain ⟨hpublic, rfl⟩ := raiseIf_eq_ok.mp h
    refine ⟨rfl, fun hf => ?_⟩
    rw [hf] at hpublic
    exact absurd hpublic (by simp)

theorem requireGrant_ok {endpoint : Endpoint} {result : AccessGrantResult} {w w' : World} {u : Unit}
    (h : (requireGrant endpoint result).run w = (.ok u, w')) :
    w' = w ∧ (endpoint.allowPublic = false → endpoint.skipAccessGrantValidation = false →
      result.grant?.isSome = true) := by
  cases result with
  | granted g => exact ⟨(Prod.mk.inj h).2.symm, fun _ _ => rfl⟩
  | denied reason message details =>
    obtain ⟨hrequired, rfl⟩ := raiseIf_eq_ok.mp h
    refine ⟨rfl, fun hpub hskip => ?_⟩
    rw [hpub, hskip] at hrequired
    exact absurd hrequired (by simp)

theorem readOnly_checkIntent (request : Request) (accessGrant : Option AccessGrant) :
    (checkIntent request accessGrant).ReadOnly := by
  cases accessGrant with
  | none => exact readOnly_pure _
  | some g => exact (readOnly_raiseIf _ _).bind fun _ => readOnly_raiseIf _ _

theorem checkIntent_ok {request : Request} {g : AccessGrant} {w w' : World} {u : Unit}
    (h : (checkIntent request (some g)).run w = (.ok u, w'))
    (hintent : getAccessIntent request ≠ .user) : g.scope = .system := by
  unfold checkIntent at h
  rw [bind_eq_ok] at h
  obtain ⟨_, _, hscope, -⟩ := h
  have hscope := (raiseIf_eq_ok.mp hscope).1
  simpa [hintent] using hscope

/-- What the guard found out about the grant of a user. -/
theorem accessGrantFor_ok {cfg : Config} {env : Env} {endpoint : Endpoint} {request : Request}
    {user : StatelessUser} {accessGrant : Option AccessGrant} {w w' : World}
    (h : (accessGrantFor cfg env endpoint request (some user)).run w = (.ok accessGrant, w')) :
    ∃ result, (AuthService.getAccessGrantForUser cfg env user
        (AuthService.extractOrganizationContextFromRequest request)).run w = (.ok result, w') ∧
      accessGrant = result.grant? ∧
      (endpoint.allowPublic = false → endpoint.skipAccessGrantValidation = false →
        accessGrant.isSome = true) ∧
      ∀ g, accessGrant = some g → getAccessIntent request ≠ .user → g.scope = .system := by
  unfold accessGrantFor at h
  rw [bind_eq_ok] at h
  obtain ⟨result, w₁, hresult, h⟩ := h
  rw [bind_eq_ok] at h
  obtain ⟨_, w₂, hrequire, h⟩ := h
  obtain ⟨rfl, hgranted⟩ := requireGrant_ok hrequire
  rw [bind_eq_ok] at h
  obtain ⟨_, w₃, hintent, h⟩ := h
  obtain rfl := (readOnly_checkIntent request result.grant?).ok hintent
  obtain ⟨hr, rfl⟩ := Prod.mk.inj h
  obtain rfl := Except.ok.inj hr
  refine ⟨result, hresult, rfl, hgranted, ?_⟩
  intro g hg hne
  rw [hg] at hintent
  exact checkIntent_ok hintent hne

theorem setClsContextFromRequest_ok {cfg : Config} {env : Env} {endpoint : Endpoint}
    {request : Request} {user : Option StatelessUser} {accessGrant : Option AccessGrant}
    {mode : Option ClsMode} {cls : Cls} {w w' : World}
    (h : (setClsContextFromRequest cfg env endpoint request user accessGrant
      (clsOfMode mode)).run w = (.ok cls, w')) :
    cls.mode = mode ∧ cls.isPublic = endpoint.allowPublic ∧
      cls.skipAccessGrantValidation = endpoint.skipAccessGrantValidation ∧
      cls.accessIntent = getAccessIntent request ∧ cls.user = user ∧
      cls.accessGrant = accessGrant ∧ (user = none → cls.person = none) ∧
      ∀ u, user = some u → ∃ person,
        (AuthService.savePersonFromUserData env u).run w = (.ok person, w') ∧
          cls.person = some person := by
  unfold setClsContextFromRequest at h
  cases user with
  | none =>
    obtain ⟨hcls, -⟩ := Prod.mk.inj h
    obtain rfl := Except.ok.inj hcls
    exact ⟨rfl, rfl, rfl, rfl, rfl, Option.or_none, fun _ => rfl, fun u hu => absurd hu (by simp)⟩
  | some user =>
    rw [bind_eq_ok] at h
    obtain ⟨_, w₁, hperson, h⟩ := h
    rw [bind_eq_ok] at hperson
    obtain ⟨person, w₂, hsave, hperson⟩ := hperson
    obtain ⟨hp, rfl⟩ := Prod.mk.inj hperson
    obtain rfl := Except.ok.inj hp
    obtain ⟨hcls, rfl⟩ := Prod.mk.inj h
    obtain rfl := Except.ok.inj hcls
    refine ⟨rfl, rfl, rfl, rfl, rfl, Option.or_none, fun hu => absurd hu (by simp), fun u hu => ?_⟩
    obtain rfl := Option.some.inj hu
    exact ⟨person, hsave, rfl⟩

/-- **What the guard admits.** -/
theorem canActivate_admitted {cfg : Config} {env : Env} {verifyJwt : VerifyJwt}
    {endpoint : Endpoint} {request : Request} {mode : Option ClsMode} {cls : Cls} {w w' : World}
    (h : (canActivate cfg env verifyJwt endpoint request (clsOfMode mode)).run w = (.ok cls, w')) :
    Admitted cfg env verifyJwt endpoint request mode w cls := by
  unfold canActivate at h
  rw [bind_eq_ok] at h
  obtain ⟨_, w₀, hrequire, h⟩ := h
  obtain ⟨rfl, hvalid⟩ := requireValid_ok hrequire
  rw [bind_eq_ok] at h
  obtain ⟨accessGrant, w₁, hgrantFor, h⟩ := h
  obtain ⟨hmode, hpub, hskip, hintent, huser, hgrant, hanonymous, hperson⟩ :=
    setClsContextFromRequest_ok h
  cases hv : AuthService.validateJwtToken verifyJwt
      (AuthService.extractTokenFromRequest request) with
  | error reason =>
    rw [hv] at hgrantFor huser hvalid
    have hnone : accessGrant = none := (Except.ok.inj (Prod.mk.inj hgrantFor).1).symm
    have hallow : endpoint.allowPublic ≠ false := fun hf => absurd (hvalid hf) (by
      simp [Except.toOption])
    rw [hnone] at hgrant
    exact ⟨hmode, hpub, hskip, hintent, by rw [huser, hv], fun hf => absurd hf hallow,
      fun _ => ⟨hgrant, hanonymous (by rw [hv]; rfl)⟩,
      fun u hu => absurd (huser.symm.trans hu) (by simp [Except.toOption]),
      fun hf => absurd hf hallow, fun g hg => absurd (hgrant.symm.trans hg) (by simp)⟩
  | ok user =>
    rw [hv] at hgrantFor huser
    have huser : cls.user = some user := huser
    obtain ⟨result, hresult, heq, hgranted, hsystem⟩ := accessGrantFor_ok hgrantFor
    obtain ⟨person, hsave, hperson⟩ := hperson user (by rw [hv]; rfl)
    refine ⟨hmode, hpub, hskip, hintent, by rw [huser, hv]; rfl, fun _ => by rw [huser]; rfl,
      fun hu => absurd (huser.symm.trans hu) (by simp), fun u hu => ?_, ?_, ?_⟩
    · obtain rfl := Option.some.inj (huser.symm.trans hu)
      exact ⟨result, person, w₁, w', hresult, hgrant.trans heq, hsave, hperson⟩
    · rw [hgrant]
      exact hgranted
    · rw [hgrant]
      exact hsystem

end AuthGuard

/-! ## 5. What reaches the controller -/

section Enforcement

variable (cfg : Config) (env : Env) (verifyJwt : VerifyJwt) (endpoint : Endpoint)
  (request : Request) (mode : Option ClsMode) (w : World)

/-- `AuthGuard` lets the request through, with the store `cls`. -/
def PassesAuthGuard (cls : Cls) : Prop :=
  ∃ w', (AuthGuard.canActivate cfg env verifyJwt endpoint request (clsOfMode mode)).run w =
    (.ok cls, w')

/-- Both guards let the request through. -/
def Enters (cls : Cls) : Prop :=
  PassesAuthGuard cfg env verifyJwt endpoint request mode w cls ∧
    PoliciesGuard.canActivate endpoint request cls = .ok true

/-- What the public handlers of the endpoint are asked. -/
def publicContext (cls : Cls) : PublicPolicyHandlerContext :=
  ⟨request, cls.user, cls.accessGrant⟩

/-- A valid user, a private handler, and a grant with which every private handler agrees; or
    no grant where the endpoint needs none. -/
def MeetsPrivatePolicies (cls : Cls) : Prop :=
  ∃ user, AuthService.validateJwtToken verifyJwt
      (AuthService.extractTokenFromRequest request) = .ok user ∧
    endpoint.privateHandlers ≠ [] ∧
    ((∃ g, cls.accessGrant = some g ∧
        ∀ h ∈ endpoint.privateHandlers, h ⟨request, user, g⟩ = .ok true) ∨
      (cls.accessGrant = none ∧ endpoint.skipAccessGrantValidation = true))

structure PolicyEnforcement : Prop where
  enters : ∀ cls, Enters cfg env verifyJwt endpoint request mode w cls →
    endpoint.isPublic = true ∨
      (endpoint.publicHandlers ≠ [] ∧
        ∀ h ∈ endpoint.publicHandlers, h (publicContext request cls) = .ok true) ∨
      MeetsPrivatePolicies verifyJwt endpoint request cls
  refused : ∀ cls, (∃ h ∈ endpoint.publicHandlers, h (publicContext request cls) = .ok false) →
    ¬ Enters cfg env verifyJwt endpoint request mode w cls

variable {cfg env verifyJwt endpoint request mode w}

/-- With public handlers, `AuthGuard` decides alone. -/
theorem enters_of_publicHandlers {cls : Cls} (hne : endpoint.publicHandlers ≠ [])
    (h : PassesAuthGuard cfg env verifyJwt endpoint request mode w cls) :
    Enters cfg env verifyJwt endpoint request mode w cls := by
  obtain ⟨w', hrun⟩ := h
  have hpub := (AuthGuard.canActivate_admitted hrun).isPublic
  have hallow : endpoint.allowPublic = true := by
    simp [Endpoint.allowPublic, List.length_pos_iff.mpr hne]
  refine ⟨⟨w', hrun⟩, ?_⟩
  rw [PoliciesGuard.canActivate, hpub, hallow]
  rfl

/-- Without public handlers, `PoliciesGuard` does what it is there for. -/
theorem enters_without_publicHandlers {cls : Cls} (hnil : endpoint.publicHandlers = [])
    (h : Enters cfg env verifyJwt endpoint request mode w cls) :
    endpoint.isPublic = true ∨ MeetsPrivatePolicies verifyJwt endpoint request cls := by
  obtain ⟨⟨w', hrun⟩, h⟩ := h
  have hadm := AuthGuard.canActivate_admitted hrun
  have hallow : endpoint.allowPublic = endpoint.isPublic := by simp [Endpoint.allowPublic, hnil]
  cases hp : endpoint.isPublic with
  | true => exact .inl rfl
  | false =>
    refine .inr ?_
    have hpub : cls.isPublic = false := by rw [hadm.isPublic, hallow, hp]
    unfold PoliciesGuard.canActivate at h
    simp only [hpub, Bool.false_eq_true, if_false, hnil, List.length_nil, gt_iff_lt,
      Nat.lt_irrefl] at h
    cases hu : cls.user with
    | none =>
      rw [hu] at h
      exact absurd (Except.ok.inj h) (by simp)
    | some user =>
      rw [hu] at h
      simp only at h
      split at h
      · exact absurd (Except.ok.inj h) (by simp)
      rename_i hne
      refine ⟨user, hadm.validated hu, fun hnone => hne (by rw [hnone]; rfl), ?_⟩
      cases hg : cls.accessGrant with
      | none =>
        rw [hg] at h
        simp only at h
        split at h
        · rename_i hskip
          exact .inr ⟨rfl, hadm.skipAccessGrantValidation.symm.trans hskip⟩
        · exact absurd h (by simp [throw, throwThe, MonadExceptOf.throw])
      | some g =>
        rw [hg] at h
        exact .inl ⟨g, rfl, PoliciesGuard.execAllPolicyHandlers_eq_true.mp h⟩

/-- **When the endpoint's policies are enforced:** whenever `AuthGuard` lets the request
    through, every public handler returns true; or some throw, none returns false, and the
    request may enter for another reason. -/
theorem policyEnforcement_iff :
    PolicyEnforcement cfg env verifyJwt endpoint request mode w ↔
      ∀ cls, PassesAuthGuard cfg env verifyJwt endpoint request mode w cls →
        (∀ h ∈ endpoint.publicHandlers, h (publicContext request cls) = .ok true) ∨
          ((∀ h ∈ endpoint.publicHandlers, h (publicContext request cls) ≠ .ok false) ∧
            (endpoint.isPublic = true ∨
              MeetsPrivatePolicies verifyJwt endpoint request cls)) := by
  constructor
  · intro henf cls hpass
    by_cases hnil : endpoint.publicHandlers = []
    · refine .inl fun h hh => ?_
      rw [hnil] at hh
      exact absurd hh List.not_mem_nil
    · have henters := enters_of_publicHandlers hnil hpass
      have hnone : ∀ h ∈ endpoint.publicHandlers, h (publicContext request cls) ≠ .ok false :=
        fun h hh hfalse => henf.refused cls ⟨h, hh, hfalse⟩ henters
      rcases henf.enters cls henters with hpub | ⟨-, hall⟩ | hpriv
      · exact .inr ⟨hnone, .inl hpub⟩
      · exact .inl hall
      · exact .inr ⟨hnone, .inr hpriv⟩
  · intro hcond
    refine ⟨fun cls henters => ?_, fun cls ⟨h, hh, hfalse⟩ henters => ?_⟩
    · by_cases hnil : endpoint.publicHandlers = []
      · rcases enters_without_publicHandlers hnil henters with hpub | hpriv
        · exact .inl hpub
        · exact .inr (.inr hpriv)
      · rcases hcond cls henters.1 with hall | ⟨-, hpub | hpriv⟩
        · exact .inr (.inl ⟨hnil, hall⟩)
        · exact .inl hpub
        · exact .inr (.inr hpriv)
    · rcases hcond cls henters.1 with hall | ⟨hnone, -⟩
      · exact absurd ((hall h hh).symm.trans hfalse) (by simp)
      · exact hnone h hh hfalse

end Enforcement

/-! ## 6. A handler that is never asked -/

/-- An endpoint of a controller whose one public handler refuses everybody. -/
def refusingEndpoint : Endpoint where
  handler := {}
  cls := { checkPublicPolicy := some [fun _ => .ok false] }

theorem refusingEndpoint_entered :
    ¬ PolicyEnforcement {} {} (fun _ => .error .failed) refusingEndpoint {} (some .request)
      { db := {} } := by
  intro henf
  refine henf.refused
    { clsOfMode (some .request) with isPublic := true, accessIntent? := some .user }
    ⟨fun _ => .ok false, List.mem_singleton_self _, rfl⟩ ⟨⟨_, rfl⟩, rfl⟩

end ShieldApi
