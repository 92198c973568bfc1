import ShieldApi.Lib.ReadThrough
import ShieldApi.Clients.AccessWrites

/-!
# Is the access-grant cache coherent?

`getAccessGrantForUser` reads through a cache, so a request acts under a grant that was
resolved some time ago. The services that change what a grant is made of clear entries for
this reason. **They do not clear all that depend on the change.** `clearAccessGrantResponseCache`
enumerates the keys of one user at one client; a grant at another client can rest on a
`SYSTEM` role held there, a context with a site header alone is none of the keys, and the
methods that change a role clear no grant at all.

`Covered` is the condition under which the entries that stay are right: what the call changes
is not consulted by a context that is still to be asked for and whose entry the call leaves.
`grantCache_coherent` says that in a run of covered calls every lookup answers what the
database answers.
-/

set_option autoImplicit false

namespace ShieldApi

open Effect

/-! ## 1. Questions -/

/-- A lookup of an access grant. -/
structure GrantQuestion where
  user : StatelessUser
  ctx : AccessContext
  deriving DecidableEq, Repr

namespace GrantQuestion

def key (q : GrantQuestion) : String := buildAccessGrantResponseCacheKey q.user.idpId q.ctx

def answer (cfg : Config) (env : Env) (q : GrantQuestion) (db : Db) :
    Except ApiError AccessGrantResult :=
  AuthService.getAccessGrantForUserFromDatabase cfg env q.user q.ctx db

/-- The lookup is among the calls. -/
def AskedIn (calls : List GrantCall) (q : GrantQuestion) : Prop :=
  GrantCall.getAccessGrantForUser q.user q.ctx ∈ calls

/-- The two lookups agree in everything the method reads. -/
structure Same (cfg : Config) (q q' : GrantQuestion) : Prop where
  idpId : q'.user.idpId = q.user.idpId
  admin : AuthService.userIsDefaultSystemAdmin cfg q'.user =
    AuthService.userIsDefaultSystemAdmin cfg q.user
  client : q'.ctx.requestedClientId = q.ctx.requestedClientId
  site : q'.ctx.requestedSiteId = q.ctx.requestedSiteId
  intent : q'.ctx.accessIntent.getD .user = q.ctx.accessIntent.getD .user

theorem Same.refl (cfg : Config) (q : GrantQuestion) : q.Same cfg q := ⟨rfl, rfl, rfl, rfl, rfl⟩

/-- The user is read for their id and for whether they are a bootstrap admin, the context for
    its two headers and its intent. -/
theorem Same.answer_eq {cfg : Config} {env : Env} {q q' : GrantQuestion} (h : q.Same cfg q')
    (db : Db) : q'.answer cfg env db = q.answer cfg env db := by
  obtain ⟨⟨idpId, email, username, givenName, familyName, phoneNumber⟩, ⟨client, site, intent⟩⟩ := q
  obtain ⟨⟨idpId', email', username', givenName', familyName', phoneNumber'⟩,
    ⟨client', site', intent'⟩⟩ := q'
  obtain ⟨hid, hadmin, hclient, hsite, hintent⟩ := h
  obtain rfl : idpId' = idpId := hid
  obtain rfl : client' = client := hclient
  obtain rfl : site' = site := hsite
  unfold answer AuthService.getAccessGrantForUserFromDatabase AuthService.defaultResult
    AuthService.requestedClientResult
  dsimp only at hintent hadmin ⊢
  rw [hintent, hadmin]
  rfl

end GrantQuestion

/-! ## 2. Coherence -/

/-- Every entry that a lookup among `calls` would be answered from is what the database
    answers. -/
def Coherent (cfg : Config) (env : Env) (calls : List GrantCall) (w : World) : Prop :=
  ReadThrough.Coherent GrantQuestion.key (GrantQuestion.answer cfg env)
    (GrantQuestion.AskedIn calls) w.cache w.db

/-- The lookup is still to come, and an entry that the call leaves will answer it. -/
structure ServedAfter (w : World) (cleared : List String) (rest : List GrantCall)
    (q : GrantQuestion) : Prop where
  asked : q.AskedIn rest
  cached : (w.cache q.key).isSome = true
  kept : q.key ∉ cleared

/-- **The call leaves no entry wrong**, in `w`, with the calls `rest` still to come. A write is
    covered if what it changes is not consulted by a lookup that is served after it; a lookup,
    if the later ones that share its key ask the same. -/
structure Covered (cfg : Config) (env : Env) (rest : List GrantCall) (w : World)
    (call : GrantCall) : Prop where
  rows : ∀ flags cleared, AccessWrite cfg w.db call flags cleared →
    ∀ q, ServedAfter w cleared rest q → ∀ a, FlagChanged w.db.primaryFlag flags a →
      ¬ AuthService.ConsultsRow cfg env q.user q.ctx w.db a
  role : ∀ r r', RoleWrite w.db call r r' → ¬ r.SameGrant r' →
    ∀ q, ServedAfter w [] rest q → ¬ AuthService.ConsultsRole env q.user q.ctx w.db r r'
  lookup : ∀ user ctx, call = .getAccessGrantForUser user ctx →
    ∀ q', q'.AskedIn rest → q'.key = GrantQuestion.key ⟨user, ctx⟩ →
      GrantQuestion.Same cfg ⟨user, ctx⟩ q'

section Steps

variable {cfg : Config} {env : Env} {rest : List GrantCall} {w : World}

theorem Coherent.tail {call : GrantCall} (h : Coherent cfg env (call :: rest) w) :
    Coherent cfg env rest w :=
  ReadThrough.Coherent.mono h fun _ hq => List.mem_cons_of_mem _ hq

theorem getAccessGrantForUser_run (cfg : Config) (env : Env) (user : StatelessUser)
    (ctx : AccessContext) (w : World) :
    (AuthService.getAccessGrantForUser cfg env user ctx).run w =
      match w.cache (GrantQuestion.key ⟨user, ctx⟩) with
      | some v => (.ok v, w)
      | none =>
        match GrantQuestion.answer cfg env ⟨user, ctx⟩ w.db with
        | .ok v => (.ok v, w.cacheSet (GrantQuestion.key ⟨user, ctx⟩) v)
        | .error e => (.error e, w) := by
  unfold AuthService.getAccessGrantForUser GrantQuestion.key GrantQuestion.answer
  dsimp only
  rw [run_query_bind]
  cases w.cache (buildAccessGrantResponseCacheKey user.idpId ctx) with
  | some v => rfl
  | none =>
    dsimp only
    cases hv : AuthService.getAccessGrantForUserFromDatabase cfg env user ctx w.db with
    | ok v =>
      have hrun : (attempt fun w' => (AuthService.getAccessGrantForUserFromDatabase cfg env user ctx
          w'.db).map (·, w') : Api AccessGrantResult).run w = (.ok v, w) :=
        attempt_eq_ok.mpr (by rw [hv]; rfl)
      rw [run_bind_ok hrun]
      rfl
    | error e =>
      exact run_bind_error (run_attempt_error (by rw [hv]; rfl))

/-- In a coherent cache a lookup answers what the database answers. -/
theorem Coherent.getAccessGrantForUser {user : StatelessUser} {ctx : AccessContext}
    (h : Coherent cfg env (.getAccessGrantForUser user ctx :: rest) w) :
    ((AuthService.getAccessGrantForUser cfg env user ctx).run w).1 =
      AuthService.getAccessGrantForUserFromDatabase cfg env user ctx w.db := by
  have hread := ReadThrough.Coherent.read_eq h (q := ⟨user, ctx⟩) (List.mem_cons_self ..)
  rw [getAccessGrantForUser_run]
  unfold ReadThrough.read at hread
  cases hc : w.cache (GrantQuestion.key ⟨user, ctx⟩) with
  | some v =>
    rw [hc] at hread
    exact hread
  | none =>
    unfold GrantQuestion.answer
    cases AuthService.getAccessGrantForUserFromDatabase cfg env user ctx w.db <;> rfl

/-- Keeping an answer, for lookups that share its key and ask the same. -/
theorem Coherent.step_lookup {user : StatelessUser} {ctx : AccessContext}
    (h : Coherent cfg env (.getAccessGrantForUser user ctx :: rest) w)
    (hcov : Covered cfg env rest w (.getAccessGrantForUser user ctx)) :
    Coherent cfg env rest
      (GrantCall.step cfg env w (.getAccessGrantForUser user ctx)) := by
  show Coherent cfg env rest ((AuthService.getAccessGrantForUser cfg env user ctx).run w).2
  rw [getAccessGrantForUser_run]
  cases w.cache (GrantQuestion.key ⟨user, ctx⟩) with
  | some v => exact h.tail
  | none =>
    cases hv : GrantQuestion.answer cfg env ⟨user, ctx⟩ w.db with
    | error e => exact h.tail
    | ok v =>
      apply ReadThrough.Coherent.keep h.tail hv (fun k => rfl)
      intro q' hq' hk
      exact (hcov.lookup user ctx rfl q' hq' hk).answer_eq w.db

/-- A write keeps the entries right that it leaves and that are still asked for. -/
theorem Coherent.step_write {call : GrantCall} (hsteady : env.accessOrder.Steady)
    (h : Coherent cfg env (call :: rest) w) (hcov : Covered cfg env rest w call)
    (hcall : call.IsWrite) : Coherent cfg env rest (call.step cfg env w) := by
  have hspec := GrantCall.step_spec cfg env w hcall
  generalize call.step cfg env w = w' at hspec ⊢
  cases hspec with
  | nothing hw =>
    rw [hw]
    exact h.tail
  | rows hwrite hw =>
    rename_i flags cleared
    have hcache : ∀ k v, w'.cache k = some v → w.cache k = some v ∧ k ∉ cleared := by
      intro k v hv
      rw [hw.cache, World.mdel_cache] at hv
      by_cases hk : k ∈ cleared
      · rw [if_pos hk] at hv
        exact absurd hv (by simp)
      · rw [if_neg hk] at hv
        exact ⟨hv, hk⟩
    apply ReadThrough.Coherent.write h.tail (fun k v hv => (hcache k v hv).1)
    intro q hq hsome
    obtain ⟨v, hv⟩ := Option.isSome_iff_exists.mp hsome
    obtain ⟨hbefore, hkept⟩ := hcache _ v hv
    apply AuthService.fromDatabase_rewritten hsteady hw.rows
    intro a ha
    rw [hw.flags] at ha
    exact hcov.rows flags cleared hwrite q ⟨hq, Option.isSome_of_eq_some hbefore, hkept⟩ a ha
  | role hwrite hw =>
    apply ReadThrough.Coherent.write h.tail hw.cache
    intro q hq hsome
    obtain ⟨v, hv⟩ := Option.isSome_iff_exists.mp hsome
    have hcached : (w.cache q.key).isSome = true := Option.isSome_of_eq_some (hw.cache _ v hv)
    apply AuthService.fromDatabase_roleReplaced hw.role
    intro hdiff
    exact hcov.role _ _ hwrite hdiff q ⟨hq, hcached, List.not_mem_nil⟩

theorem Coherent.step {call : GrantCall} (hsteady : env.accessOrder.Steady)
    (h : Coherent cfg env (call :: rest) w) (hcov : Covered cfg env rest w call) :
    Coherent cfg env rest (call.step cfg env w) := by
  cases call with
  | getAccessGrantForUser user ctx => exact h.step_lookup hcov
  | expire keys =>
    refine ReadThrough.Coherent.write h.tail (fun k v hv => ?_) fun _ _ _ => rfl
    simp only [GrantCall.step, World.mdel_cache] at hv
    by_cases hk : k ∈ keys
    · rw [if_pos hk] at hv
      exact absurd hv (by simp)
    · rw [if_neg hk] at hv
      exact hv
  | _ => exact h.step_write hsteady hcov trivial

end Steps

/-! ## 3. Whole runs -/

/-- **In a run of covered calls every lookup of an access grant answers what the database
    answers**, from any coherent cache, the empty one for example. -/
theorem grantCache_coherent {cfg : Config} {env : Env} {w : World} {calls : List GrantCall}
    (hsteady : env.accessOrder.Steady) (hstart : Coherent cfg env calls w)
    (hcov : ∀ u call rest, FiredThen (GrantCall.step cfg env) w calls u call rest →
      Covered cfg env rest u call) :
    ∀ u user ctx, Fired (GrantCall.step cfg env) w calls u (.getAccessGrantForUser user ctx) →
      ((AuthService.getAccessGrantForUser cfg env user ctx).run u).1 =
        AuthService.getAccessGrantForUserFromDatabase cfg env user ctx u.db := by
  intro u user ctx hfired
  obtain ⟨rest, hthen⟩ := fired_iff_firedThen.mp hfired
  have hcoh : Coherent cfg env (.getAccessGrantForUser user ctx :: rest) u :=
    FiredThen.invariant (I := Coherent cfg env) hstart
      (fun u call rest hf hu => hu.step hsteady (hcov u call rest hf)) hthen
  exact hcoh.getAccessGrantForUser

/-! ## 4. A capability that was taken away -/

/-- `p` asks for their grant, loses the right to manage users, and asks again. -/
def askRevokeAsk : List GrantCall :=
  [.getAccessGrantForUser userP atAcme,
   .removeCapabilities "manager" ["manage-users"],
   .getAccessGrantForUser userP atAcme]

theorem askRevokeAsk_stale :
    ∃ u, Fired (GrantCall.step {} {}) { db := twoSites } askRevokeAsk u
        (.getAccessGrantForUser userP atAcme) ∧
      ((AuthService.getAccessGrantForUser {} {} userP atAcme).run u).1 ≠
        AuthService.getAccessGrantForUserFromDatabase {} {} userP atAcme u.db := by
  refine ⟨_, .inr (.inr (.inl ⟨rfl, rfl⟩)), ?_⟩
  decide

/-- `p` asks for their grant, loses the role at the site `south`, and asks again. -/
def askLeaveAsk : List GrantCall :=
  [.getAccessGrantForUser userP atAcme,
   .usersRemoveRole {} "p" ⟨"acme", "south", "inspector"⟩,
   .getAccessGrantForUser userP atAcme]

theorem askedIn_askLeaveAsk {q : GrantQuestion} (h : q.AskedIn askLeaveAsk) :
    q = ⟨userP, atAcme⟩ := by
  unfold GrantQuestion.AskedIn askLeaveAsk at h
  simp only [List.mem_cons, GrantCall.getAccessGrantForUser.injEq, reduceCtorEq, false_or,
    List.not_mem_nil, or_false, or_self] at h
  obtain ⟨user, ctx⟩ := q
  obtain ⟨rfl, rfl⟩ := h
  rfl

/-- The lookups of the run are all the same one. -/
theorem covered_askLeaveAsk_lookup {rest : List GrantCall} {w : World} {user : StatelessUser}
    {ctx : AccessContext} (hrest : ∀ call ∈ rest, call ∈ askLeaveAsk)
    (hself : GrantQuestion.AskedIn askLeaveAsk ⟨user, ctx⟩) :
    Covered {} {} rest w (.getAccessGrantForUser user ctx) := by
  refine ⟨fun _ _ h => (nomatch h), fun _ _ h => (nomatch h), fun user' ctx' heq q' hq' _ => ?_⟩
  obtain ⟨rfl, rfl⟩ := GrantCall.getAccessGrantForUser.inj heq
  rw [askedIn_askLeaveAsk hself, askedIn_askLeaveAsk (hrest _ hq')]
  exact .refl _ _

/-- Where the third call finds the world: the answer was kept, and cleared. -/
def askLeft : World :=
  GrantCall.step {} {} (GrantCall.step {} {} { db := twoSites }
    (.getAccessGrantForUser userP atAcme))
    (.usersRemoveRole {} "p" ⟨"acme", "south", "inspector"⟩)

theorem grantCache_coherent_askLeaveAsk :
    ((AuthService.getAccessGrantForUser {} {} userP atAcme).run askLeft).1 =
      AuthService.getAccessGrantForUserFromDatabase {} {} userP atAcme askLeft.db := by
  have hfired : Fired (GrantCall.step {} {}) { db := twoSites } askLeaveAsk askLeft
      (.getAccessGrantForUser userP atAcme) := .inr (.inr (.inl ⟨rfl, rfl⟩))
  have hstart : Coherent {} {} askLeaveAsk { db := twoSites } := ReadThrough.coherent_empty
  refine grantCache_coherent RowOrder.steady_insertion hstart (fun u call rest hf => ?_) askLeft userP
    atAcme hfired
  rcases hf with ⟨rfl, rfl, rfl⟩ | ⟨rfl, rfl, rfl⟩ | ⟨rfl, rfl, rfl⟩ | hf
  · exact covered_askLeaveAsk_lookup (fun _ h => List.mem_cons_of_mem _ h)
      (List.mem_cons_self ..)
  · refine ⟨fun flags cleared h q hq => ?_, fun _ _ h => (nomatch h), fun _ _ h => (nomatch h)⟩
    have hask := askedIn_askLeaveAsk (q := q)
      (List.mem_cons_of_mem _ (List.mem_cons_of_mem _ hq.asked))
    have hkept := hq.kept
    cases h with
    | usersRemoveRole found row =>
      have hp : twoSites.persons.find? "p" = some _ := found
      have hp' : (twoSites.persons.find? "p").map (·.idpId) = some (some "idp-p") := by decide
      rw [hp, Option.map_some, Option.some.injEq] at hp'
      rw [hask, hp'] at hkept
      exact absurd (by decide) hkept
  · exact covered_askLeaveAsk_lookup (fun _ h => absurd h List.not_mem_nil)
      (List.mem_cons_self ..)
  · exact hf.elim

end ShieldApi
