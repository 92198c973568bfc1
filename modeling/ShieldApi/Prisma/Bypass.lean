import ShieldApi.Auth.Guards
import ShieldApi.Prisma.Rls

/-!
# Who may bypass row-level security

The request client turns the row policies off when it is told to (by the intent `system`, by an
option of the caller, or in cron mode) **and** may (in cron mode, or with a grant of scope
`SYSTEM`). Here that is followed from the headers of a request, through `AuthGuard`, to the
statements each call of the client executes: `requestClient_scoped` says under which settings
the queries of a call run, whatever the call.
-/

set_option autoImplicit false

namespace ShieldApi

open Effect

/-! ## 1. Batches -/

variable {Q : Type}

/-- The queries a call was made for. -/
def ClientCall.queries : ClientCall Q → List Q
  | .allOperations q | .queryRaw q | .queryRawTyped q | .queryRawUnsafe q | .executeRaw q
  | .executeRawUnsafe q => [q]
  | .transaction qs => qs

/-- Every call of the client puts the same statements before its queries. -/
theorem batch_eq (px : PrimaryExtension) (call : ClientCall Q) :
    px.batch call = (buildRLSContextStatements px.bypassRLS px.rlsContext).map
      (· ++ call.queries.map .query) := by
  unfold PrimaryExtension.batch PrimaryExtension.setRLSContextAndExecute
    PrimaryExtension.transactionStatements
  cases buildRLSContextStatements (Q := Q) px.bypassRLS px.rlsContext with
  | error e => cases call <;> rfl
  | ok statements => cases call <;> rfl

theorem execute_queries (s : Settings) (qs : List Q) :
    execute s (qs.map .query) = qs.map (s, ·) := by
  induction qs with
  | nil => rfl
  | cons q qs ih =>
    rw [List.map_cons, execute, ih]
    rfl

/-- The five settings of a row context. -/
structure Settings.SetFrom (s : Settings) (c : RlsContext) : Prop where
  client : s.current "app.current_client_id" = some c.clientId
  site : s.current "app.current_site_id" = some c.siteId
  sites : s.current "app.allowed_site_ids" = some c.allowedSiteIdsStr
  person : s.current "app.current_person_id" = some c.personId
  scope : s.current "app.current_user_scope" = some c.scope.text

/-- The batch executed sets the bypass. -/
def SetsBypass (statements : List (Statement Q)) : Prop :=
  ∃ value, .setConfig "app.bypass_rls" value ∈ statements

theorem not_setsBypass_queries (qs : List Q) :
    ¬ SetsBypass (qs.map Statement.query) := by
  rintro ⟨value, hmem⟩
  obtain ⟨q, -, hq⟩ := List.mem_map.mp hmem
  exact absurd hq (by simp)

/-- A batch without the bypass sets the row context before each of its queries. -/
theorem scoped_batch {px : PrimaryExtension} {call : ClientCall Q}
    {statements : List (Statement Q)} (hoff : px.bypassRLS = false)
    (h : px.batch call = .ok statements) :
    ∃ c, px.rlsContext = some c ∧ ¬ SetsBypass statements ∧ ∀ s,
      (execute s statements).map Prod.snd = call.queries ∧
        ∀ sq ∈ execute s statements, sq.1.SetFrom c := by
  rw [batch_eq, hoff] at h
  cases hc : px.rlsContext with
  | none =>
    rw [hc] at h
    exact absurd h (by simp [buildRLSContextStatements, Except.map])
  | some c =>
    rw [hc] at h
    obtain rfl := Except.ok.inj h
    refine ⟨c, rfl, ?_, fun s => ?_⟩
    · rintro ⟨value, hmem⟩
      simp only [List.cons_append, List.nil_append, List.mem_cons, Statement.setConfig.injEq] at hmem
      rcases hmem with h | h | h | h | h | h
      · exact absurd h.1 (by decide)
      · exact absurd h.1 (by decide)
      · exact absurd h.1 (by decide)
      · exact absurd h.1 (by decide)
      · exact absurd h.1 (by decide)
      · exact not_setsBypass_queries _ ⟨value, h⟩
    · simp only [List.cons_append, List.nil_append, execute, execute_queries, List.map_map]
      refine ⟨List.map_id _, fun sq hsq => ?_⟩
      obtain ⟨q, -, rfl⟩ := List.mem_map.mp hsq
      exact ⟨rfl, rfl, rfl, rfl, rfl⟩

/-! ## 2. Requests -/

section Requests

variable {cfg : Config} {env : Env} {verifyJwt : VerifyJwt} {endpoint : Endpoint}
  {request : Request} {mode : Option ClsMode} {w : World} {cls : Cls}

/-- The access grant of a request, and the person it is for. -/
structure IsCaller (cfg : Config) (env : Env) (verifyJwt : VerifyJwt) (request : Request)
    (w : World) (accessGrant : AccessGrant) (person : Person) : Prop where
  resolved : ∃ user w₁ w₂,
    AuthService.validateJwtToken verifyJwt (AuthService.extractTokenFromRequest request) =
      .ok user ∧
    (AuthService.getAccessGrantForUser cfg env user
      (AuthService.extractOrganizationContextFromRequest request)).run w =
        (.ok (.granted accessGrant), w₁) ∧
    (AuthService.savePersonFromUserData env user).run w₁ = (.ok person, w₂)

/-- A grant in the store is the request's own. -/
theorem isCaller_of_grant {g : AccessGrant}
    (h : PassesAuthGuard cfg env verifyJwt endpoint request mode w cls)
    (hg : cls.accessGrant = some g) :
    ∃ p, cls.person = some p ∧ IsCaller cfg env verifyJwt request w g p := by
  obtain ⟨w', hrun⟩ := h
  have hadm := AuthGuard.canActivate_admitted hrun
  cases hu : cls.user with
  | none =>
    rw [(hadm.anonymous hu).1] at hg
    exact absurd hg (by simp)
  | some user =>
    obtain ⟨result, person, w₁, w₂, hresult, hgrant, hsave, hperson⟩ := hadm.identified user hu
    refine ⟨person, hperson, user, w₁, w₂, hadm.validated hu, ?_, hsave⟩
    rw [hgrant] at hg
    cases result with
    | granted g' => rw [hresult, Option.some.inj hg]
    | denied reason message details => exact absurd hg (by simp [AccessGrantResult.grant?])

/-- **Under which settings the request client runs its queries.** The bypass is set in cron
    mode and for a grant of scope `SYSTEM` only. Otherwise a call that does not throw sets the
    row context of the request's own grant and person before every query it runs. -/
theorem requestClient_scoped {options : PrimaryExtensionOptions} {call : ClientCall Q}
    {statements : List (Statement Q)}
    (hpass : PassesAuthGuard cfg env verifyJwt endpoint request mode w cls)
    (hoptions : options.rlsContext = none)
    (h : (buildPrimaryExtension cls env.allowedSiteIdsForSite options).batch call =
      .ok statements) :
    (SetsBypass statements → cls.mode = some .cron ∨
      ∃ g p, IsCaller cfg env verifyJwt request w g p ∧ g.scope = .system) ∧
    (¬ SetsBypass statements → ∃ g p, IsCaller cfg env verifyJwt request w g p ∧ ∀ s,
      (execute s statements).map Prod.snd = call.queries ∧
        ∀ sq ∈ execute s statements, sq.1.SetFrom
          { personId := p.id
            clientId := g.clientId
            siteId := g.siteId
            allowedSiteIds := env.allowedSiteIdsForSite g.siteId
            allowedSiteIdsStr := ",".intercalate (env.allowedSiteIdsForSite g.siteId)
            scope := g.scope }) := by
  cases hoff : (buildPrimaryExtension cls env.allowedSiteIdsForSite options).bypassRLS with
  | true =>
    have hcan : cls.mode = some .cron ∨ cls.accessGrant.any (·.scope = .system) = true := by
      unfold buildPrimaryExtension at hoff
      simp only [Bool.and_eq_true, Bool.or_eq_true, decide_eq_true_eq] at hoff
      exact hoff.2
    refine ⟨fun _ => ?_, fun hno => ?_⟩
    · rcases hcan with hcron | hsystem
      · exact .inl hcron
      · obtain ⟨g, hg, hscope⟩ := (Option.any_eq_true _ _).mp hsystem
        obtain ⟨p, -, hcaller⟩ := isCaller_of_grant hpass hg
        exact .inr ⟨g, p, hcaller, of_decide_eq_true hscope⟩
    · rw [batch_eq, hoff] at h
      obtain rfl := Except.ok.inj h
      exact absurd ⟨"on", List.mem_cons_self ..⟩ hno
  | false =>
    obtain ⟨c, hc, hno, hrun⟩ := scoped_batch hoff h
    refine ⟨fun hset => absurd hset hno, fun _ => ?_⟩
    unfold buildPrimaryExtension at hc
    simp only [hoptions] at hc
    cases hg : cls.accessGrant with
    | none =>
      rw [hg] at hc
      exact absurd hc (by simp)
    | some g =>
      obtain ⟨p, hp, hcaller⟩ := isCaller_of_grant hpass hg
      rw [hg, hp] at hc
      obtain rfl := Option.some.inj hc
      exact ⟨g, p, hcaller, hrun⟩

end Requests

/-! ## 3. A request of an inspector -/

def inspectorRequest : Request where
  headers := [("authorization", .one "Bearer t"), ("x-client-id", .one "acme")]

def inspectorWorld : World := { db := twoSites }

def inspectorCls : Cls where
  user := some userP
  person := some { id := "p", firstName := "", lastName := "", email := "p@x.org",
                   username := some "p", idpId := some "idp-p" }
  accessGrant := some southGrant
  accessIntent? := some .user
  mode := some .request

theorem inspector_passes : PassesAuthGuard {} {} (fun _ => .ok userP) { handler := {} }
    inspectorRequest (some .request) inspectorWorld inspectorCls := ⟨_, rfl⟩

/-- What `inspectorCls` puts before a query. -/
def inspectorBatch : List (Statement String) :=
  [.setConfig "app.current_client_id" "acme",
   .setConfig "app.current_site_id" "south",
   .setConfig "app.allowed_site_ids" "south",
   .setConfig "app.current_person_id" "p",
   .setConfig "app.current_user_scope" "SITE",
   .query "findMany"]

theorem requestClient_scoped_inspector :
    (SetsBypass inspectorBatch → inspectorCls.mode = some .cron ∨
      ∃ g p, IsCaller {} {} (fun _ => .ok userP) inspectorRequest inspectorWorld g p ∧
        g.scope = .system) ∧
    (¬ SetsBypass inspectorBatch → ∃ g p,
      IsCaller {} {} (fun _ => .ok userP) inspectorRequest inspectorWorld g p ∧ ∀ s,
        (execute s inspectorBatch).map Prod.snd = ClientCall.queries (.allOperations "findMany") ∧
          ∀ sq ∈ execute s inspectorBatch, sq.1.SetFrom
            { personId := p.id
              clientId := g.clientId
              siteId := g.siteId
              allowedSiteIds := [g.siteId]
              allowedSiteIdsStr := ",".intercalate [g.siteId]
              scope := g.scope }) :=
  requestClient_scoped inspector_passes
    (rfl : ({ shouldBypassRLSAsSystemAdmin := true } : PrimaryExtensionOptions).rlsContext = none)
    rfl

end ShieldApi
