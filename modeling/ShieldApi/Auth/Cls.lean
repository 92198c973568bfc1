import ShieldApi.Auth.AccessGrants

/-!
# The world a call runs in, and the request context it runs for

A service method reads and writes two stores: the database, and the memory cache in which
`AuthService` keeps the access grants it resolved. `World` is the pair, and `Api` the type
of a method. Everything else a method is told comes as an argument:

* `Cls` is the continuation-local store `AuthGuard` fills in for a request
  (`auth/api-cls.service.ts`);
* `Env` is what the surroundings decide: the clock, the identifiers drawn at random, and the
  order in which the database hands out rows nobody asked to be sorted;
* `Config` is the deployment's configuration, with the functions of the language whose
  definition is a table of its own.
-/

set_option autoImplicit false

namespace ShieldApi

/-! ## 1. Users and the request context -/

/-- The identity a JWT carries (`auth/user.schema.ts`). -/
structure StatelessUser where
  idpId : String
  email : String
  username : String
  givenName : Option String := none
  familyName : Option String := none
  phoneNumber : Option String := none
  deriving DecidableEq, Repr

inductive ClsMode
  | cron | request
  deriving DecidableEq, Repr

/-- `CommonClsStore`. -/
structure Cls where
  isPublic : Bool := false
  skipAccessGrantValidation : Bool := false
  user : Option StatelessUser := none
  person : Option Person := none
  accessGrant : Option AccessGrant := none
  accessIntent? : Option AccessIntent := none
  useragent : Option String := none
  ipv4 : Option String := none
  ipv6 : Option String := none
  mode : Option ClsMode := none
  deriving DecidableEq, Repr

def Cls.accessIntent (cls : Cls) : AccessIntent := cls.accessIntent?.getD .user

/-! ## 2. The two stores -/

structure World where
  db : Db
  /-- The access-grant entries of the memory cache. -/
  cache : String → Option AccessGrantResult := fun _ => none
  /-- Its person entries. -/
  personCache : String → Option Person := fun _ => none

abbrev Api (α : Type) : Type := Effect World ApiError α

/-- `MemoryCacheService.mdel`. -/
def World.mdel (w : World) (keys : List String) : World :=
  { w with cache := fun k => if k ∈ keys then none else w.cache k }

/-- A cache set. -/
def World.cacheSet (w : World) (key : String) (value : AccessGrantResult) : World :=
  { w with cache := fun k => if k = key then some value else w.cache k }

@[simp] theorem World.mdel_db (w : World) (keys : List String) : (w.mdel keys).db = w.db := rfl

@[simp] theorem World.cacheSet_db (w : World) (key : String) (value : AccessGrantResult) :
    (w.cacheSet key value).db = w.db := rfl

@[simp] theorem World.mdel_cache (w : World) (keys : List String) (k : String) :
    (w.mdel keys).cache k = if k ∈ keys then none else w.cache k := rfl

@[simp] theorem World.cacheSet_cache (w : World) (key k : String) (value : AccessGrantResult) :
    (w.cacheSet key value).cache k = if k = key then some value else w.cache k := rfl

def clearAccessGrantResponseCache (idpId clientId : String) (siteId : Option String)
    (siteIds : List String) : Api Unit :=
  .write (·.mdel (clearedAccessGrantKeys idpId clientId siteId siteIds))

/-- The services clear nothing for a person without an identity at the provider. -/
def clearAccessGrantsOf (idpId : Option String) (clientId : String) (siteId : Option String)
    (siteIds : List String) : Api Unit :=
  match truthy idpId with
  | some idpId => clearAccessGrantResponseCache idpId clientId siteId siteIds
  | none => pure ()

/-- A computation that leaves the database alone and does not throw: what a service does
    after its transaction. -/
structure CacheOnly {α : Type} (x : Api α) : Prop where
  total : x.Total
  db : ∀ w, (x.after w).db = w.db

theorem cacheOnly_pure {α : Type} (a : α) : CacheOnly (pure a : Api α) :=
  ⟨Effect.total_pure a, fun _ => rfl⟩

theorem cacheOnly_clear (idpId clientId : String) (siteId : Option String)
    (siteIds : List String) :
    CacheOnly (clearAccessGrantResponseCache idpId clientId siteId siteIds) :=
  ⟨Effect.total_write _, fun _ => rfl⟩

theorem cacheOnly_clearOf (idpId : Option String) (clientId : String) (siteId : Option String)
    (siteIds : List String) : CacheOnly (clearAccessGrantsOf idpId clientId siteId siteIds) := by
  unfold clearAccessGrantsOf
  cases truthy idpId with
  | none => exact cacheOnly_pure _
  | some i => exact cacheOnly_clear ..

theorem CacheOnly.run {α : Type} {x : Api α} (h : CacheOnly x) (w : World) :
    ∃ a w', x.run w = (.ok a, w') ∧ w'.db = w.db := by
  rcases hx : x.run w with ⟨r, w'⟩
  have hdb := h.db w
  rw [Effect.after, hx] at hdb
  cases r with
  | error e => exact absurd hx (h.total w e w')
  | ok a => exact ⟨a, w', rfl, hdb⟩

theorem CacheOnly.bind {α β : Type} {x : Api α} {f : α → Api β} (hx : CacheOnly x)
    (hf : ∀ a, CacheOnly (f a)) : CacheOnly (x >>= f) := by
  refine ⟨hx.total.bind fun a => (hf a).total, fun w => ?_⟩
  obtain ⟨a, w', hrun, hdb⟩ := hx.run w
  rw [Effect.after, Effect.run_bind_ok hrun, ← hdb]
  exact (hf a).db w'

/-- What a method does to the database is done before it turns to the cache. -/
theorem CacheOnly.leaves_bind {α β : Type} {I : Db → Prop} {x : Api α} {f : α → Api β}
    {w : World} (hf : ∀ a, CacheOnly (f a)) (hx : x.Leaves (fun w => I w.db) w) :
    (x >>= f).Leaves (fun w => I w.db) w := by
  unfold Effect.Leaves at hx ⊢
  rcases h : x.run w with ⟨r, w'⟩
  rw [Effect.after_of_run h] at hx
  cases r with
  | error e => rw [Effect.after_of_run (Effect.run_bind_error h)]; exact hx
  | ok a =>
    have hdb := (hf a).db w'
    rw [Effect.after] at hdb
    rw [Effect.after, Effect.run_bind_ok h, hdb]
    exact hx

theorem cacheOnly_forEach {α β : Type} {f : α → Api β} (hf : ∀ a, CacheOnly (f a)) :
    ∀ as : List α, CacheOnly (Effect.forEach as f)
  | [] => cacheOnly_pure _
  | a :: as => (hf a).bind fun _ => (cacheOnly_forEach hf as).bind fun _ => cacheOnly_pure _

/-- The methods of `ApiClsService` that insist. -/
def Cls.requireAccessGrant {σ : Type} (cls : Cls) : Effect σ ApiError AccessGrant :=
  .orRaise (.error "Access grant was required but not found in CLS context.") cls.accessGrant

def Cls.requireUser {σ : Type} (cls : Cls) : Effect σ ApiError StatelessUser :=
  .orRaise (.error "User was required but not found in CLS context.") cls.user

def Cls.requirePerson {σ : Type} (cls : Cls) : Effect σ ApiError Person :=
  .orRaise (.error "Person was required but not found in CLS context.") cls.person

theorem readOnly_requireAccessGrant {σ : Type} (cls : Cls) :
    (cls.requireAccessGrant : Effect σ ApiError AccessGrant).ReadOnly :=
  Effect.readOnly_orRaise _ _

/-! ## 3. What the surroundings decide -/

structure Config where
  systemAdminEmails : List String := []
  /-- `String.prototype.toLowerCase`. -/
  toLowerCase : String → String := id
  /-- `isIPv4` and `isIPv6` of `node:net`. -/
  isIPv4 : String → Bool := fun _ => false
  isIPv6 : String → Bool := fun _ => false

structure Env where
  now : Nat := 0
  /-- The `n`-th `cuid` and the `n`-th `nanoid(18)` drawn by the call. -/
  cuid : Nat → String := fun n => "cuid-" ++ toString n
  nanoid : Nat → String := fun n => "nanoid-" ++ toString n
  accessOrder : RowOrder PersonClientAccess := .insertion _
  invitationOrder : RowOrder Invitation := .insertion _
  siteOrder : RowOrder Site := .insertion _
  /-- `PrismaService.getAllowedSiteIdsForSite`: the subtree of a site, from the cache or
      the database. -/
  allowedSiteIdsForSite : String → List String := fun s => [s]

/-- `isPrimary: 'desc'`, then `createdOn: 'asc'`. -/
def PersonClientAccess.primaryThenOldest (a b : PersonClientAccess) : Bool :=
  (a.isPrimary && !b.isPrimary) || (a.isPrimary == b.isPrimary && a.createdOn ≤ b.createdOn)

/-- `createdOn: 'asc'`. -/
def PersonClientAccess.oldest (a b : PersonClientAccess) : Bool := a.createdOn ≤ b.createdOn

def Invitation.oldest (a b : Invitation) : Bool := a.createdOn ≤ b.createdOn

/-- `primary: 'desc'`, then `createdOn: 'asc'`. -/
def Site.primaryThenOldest (a b : Site) : Bool :=
  (a.primary && !b.primary) || (a.primary == b.primary && a.createdOn ≤ b.createdOn)

end ShieldApi
