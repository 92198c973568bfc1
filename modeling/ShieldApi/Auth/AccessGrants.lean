import ShieldApi.Auth.Scope

/-!
# Access grants

`auth/utils/access-grants.ts`. An access grant is what a request may do and where: a place
(client and site), a role, its scope, and a set of capabilities.

**A grant is put together from several rows.** `reduceAccessGrants` takes the place, the
role and the scope from one row and the capabilities from all of them, so the two halves of
a grant can come from different places. `reduceAccessGrants_spec` says exactly that much:
one row supplies the place, the role and the scope, no row has a wider scope, and a
capability is in the grant precisely when some row has it.

A resolved grant is cached under a key made of the user and the request's context
(`buildAccessGrantResponseCacheKey`). The key is a string, and an absent header is spelled
`default` in it.
-/

set_option autoImplicit false

namespace ShieldApi

/-- `AccessGrant` and the `IAccessGrantData` it wraps. -/
structure AccessGrant where
  roleId : String
  scope : RoleScope
  capabilities : List String
  clientId : String
  siteId : String
  deriving DecidableEq, Repr

namespace AccessGrant

def scopeAllows (g : AccessGrant) (required : RoleScope) : Bool :=
  isScopeAtLeast g.scope required

def hasCapability (g : AccessGrant) (capability : String) : Bool :=
  g.capabilities.contains capability

end AccessGrant

/-- `VALID_CAPABILITIES`. The database column is text, so a role may hold anything. -/
def validCapabilities : List String :=
  ["perform-inspections", "submit-requests", "manage-assets", "manage-routes", "resolve-alerts",
   "view-reports", "manage-users", "configure-products", "approve-requests", "program-tags",
   "register-tags"]

def isValidCapability (c : String) : Bool := validCapabilities.contains c

/-! ## 1. Reducing several grants to one -/

/-- `Set.add`, on the set's elements in insertion order. -/
def addCapability (caps : List String) (c : String) : List String :=
  if c ∈ caps then caps else caps ++ [c]

/-- One round of the loop: a scope at least as permissive as the best so far takes the
    place and the role with it; the capabilities are collected either way. -/
def reduceStep (acc g : AccessGrant) : AccessGrant :=
  let best := if isScopeAtLeast g.scope acc.scope then g else acc
  { best with capabilities := g.capabilities.foldl addCapability acc.capabilities }

def reduceAccessGrants : List AccessGrant → Except ApiError AccessGrant
  | [] => .error (.error "No access grants provided")
  | g :: gs =>
    .ok ((g :: gs).foldl reduceStep
      { scope := .self, capabilities := [], clientId := g.clientId, siteId := g.siteId,
        roleId := g.roleId })

theorem mem_addCapability {caps : List String} {c d : String} :
    d ∈ addCapability caps c ↔ d ∈ caps ∨ d = c := by
  unfold addCapability
  by_cases h : c ∈ caps
  · rw [if_pos h]
    refine ⟨Or.inl, ?_⟩
    rintro (hd | rfl)
    · exact hd
    · exact h
  · rw [if_neg h, List.mem_append, List.mem_singleton]

theorem mem_foldl_addCapability {cs caps : List String} {d : String} :
    d ∈ cs.foldl addCapability caps ↔ d ∈ caps ∨ d ∈ cs := by
  induction cs generalizing caps with
  | nil => simp
  | cons c cs ih => rw [List.foldl_cons, ih, mem_addCapability, List.mem_cons, or_assoc]

/-- The place, the role and the scope of `r` are those of `g`. -/
def AccessGrant.SamePlace (r g : AccessGrant) : Prop :=
  r.clientId = g.clientId ∧ r.siteId = g.siteId ∧ r.roleId = g.roleId ∧ r.scope = g.scope

theorem reduceStep_capabilities {acc g : AccessGrant} {c : String} :
    c ∈ (reduceStep acc g).capabilities ↔ c ∈ acc.capabilities ∨ c ∈ g.capabilities :=
  mem_foldl_addCapability

theorem reduceStep_taken {acc g : AccessGrant} (h : isScopeAtLeast g.scope acc.scope = true) :
    (reduceStep acc g).SamePlace g := by
  simp only [reduceStep, h, if_true]
  exact ⟨rfl, rfl, rfl, rfl⟩

theorem reduceStep_kept {acc g : AccessGrant} (h : isScopeAtLeast g.scope acc.scope = false) :
    (reduceStep acc g).SamePlace acc := by
  simp only [reduceStep, h]
  exact ⟨rfl, rfl, rfl, rfl⟩

theorem AccessGrant.SamePlace.trans {a b c : AccessGrant} (h : a.SamePlace b)
    (h' : b.SamePlace c) : a.SamePlace c :=
  ⟨h.1.trans h'.1, h.2.1.trans h'.2.1, h.2.2.1.trans h'.2.2.1, h.2.2.2.trans h'.2.2.2⟩

/-- The loop, from any accumulator: the result has the place of the accumulator or of one
    of the grants, and a scope no narrower than any of theirs. -/
theorem foldl_reduceStep_place (gs : List AccessGrant) (acc : AccessGrant) :
    (∃ g ∈ acc :: gs, (gs.foldl reduceStep acc).SamePlace g) ∧
      ∀ g ∈ acc :: gs, isScopeAtLeast (gs.foldl reduceStep acc).scope g.scope = true := by
  induction gs generalizing acc with
  | nil =>
    refine ⟨⟨acc, List.mem_cons_self .., rfl, rfl, rfl, rfl⟩, fun g hg => ?_⟩
    obtain rfl := List.mem_singleton.mp hg
    exact isScopeAtLeast_refl _
  | cons g gs ih =>
    obtain ⟨⟨k, hk, hplace⟩, hwide⟩ := ih (reduceStep acc g)
    rw [List.foldl_cons]
    have hstep := hwide _ (List.mem_cons_self ..)
    by_cases ht : isScopeAtLeast g.scope acc.scope = true
    · -- `g` takes the place over, so the accumulator's scope is below `g`'s
      have hp := reduceStep_taken ht
      rw [hp.2.2.2] at hstep
      refine ⟨?_, fun k' hk' => ?_⟩
      · rcases List.mem_cons.mp hk with rfl | hk
        · exact ⟨g, by simp, hplace.trans hp⟩
        · exact ⟨k, by simp [hk], hplace⟩
      · rcases List.mem_cons.mp hk' with rfl | hk'
        · exact isScopeAtLeast_trans hstep ht
        · rcases List.mem_cons.mp hk' with rfl | hk'
          · exact hstep
          · exact hwide _ (List.mem_cons_of_mem _ hk')
    · have hf : isScopeAtLeast g.scope acc.scope = false := by simpa using ht
      have hp := reduceStep_kept hf
      have hle : isScopeAtLeast acc.scope g.scope = true :=
        (isScopeAtLeast_total acc.scope g.scope).resolve_right ht
      rw [hp.2.2.2] at hstep
      refine ⟨?_, fun k' hk' => ?_⟩
      · rcases List.mem_cons.mp hk with rfl | hk
        · exact ⟨acc, by simp, hplace.trans hp⟩
        · exact ⟨k, by simp [hk], hplace⟩
      · rcases List.mem_cons.mp hk' with rfl | hk'
        · exact hstep
        · rcases List.mem_cons.mp hk' with rfl | hk'
          · exact isScopeAtLeast_trans hstep hle
          · exact hwide _ (List.mem_cons_of_mem _ hk')

theorem foldl_reduceStep_capabilities {gs : List AccessGrant} {acc : AccessGrant} {c : String} :
    c ∈ (gs.foldl reduceStep acc).capabilities ↔
      c ∈ acc.capabilities ∨ ∃ g ∈ gs, c ∈ g.capabilities := by
  induction gs generalizing acc with
  | nil => simp
  | cons g gs ih =>
    rw [List.foldl_cons, ih, reduceStep_capabilities]
    simp only [List.mem_cons, exists_eq_or_imp, or_assoc]

/-- **What a reduced grant is made of.** -/
theorem reduceAccessGrants_spec {gs : List AccessGrant} {r : AccessGrant}
    (h : reduceAccessGrants gs = .ok r) :
    (∃ g ∈ gs, r.SamePlace g) ∧ (∀ g ∈ gs, isScopeAtLeast r.scope g.scope = true) ∧
      ∀ c, c ∈ r.capabilities ↔ ∃ g ∈ gs, c ∈ g.capabilities := by
  cases gs with
  | nil => simp [reduceAccessGrants] at h
  | cons g gs =>
    simp only [reduceAccessGrants, List.foldl_cons, Except.ok.injEq] at h
    -- the first round always takes the first grant: nothing is narrower than `SELF`
    have htaken : (reduceStep ⟨g.roleId, .self, [], g.clientId, g.siteId⟩ g).SamePlace g :=
      reduceStep_taken (isScopeAtLeast_self _)
    obtain ⟨⟨k, hk, hplace⟩, hwide⟩ :=
      foldl_reduceStep_place gs (reduceStep ⟨g.roleId, .self, [], g.clientId, g.siteId⟩ g)
    rw [h] at hplace hwide
    refine ⟨?_, fun k' hk' => ?_, fun c => ?_⟩
    · rcases List.mem_cons.mp hk with rfl | hk
      · exact ⟨g, List.mem_cons_self .., hplace.trans htaken⟩
      · exact ⟨k, List.mem_cons_of_mem _ hk, hplace⟩
    · rcases List.mem_cons.mp hk' with rfl | hk'
      · have := hwide _ (List.mem_cons_self ..)
        rwa [htaken.2.2.2] at this
      · exact hwide _ (List.mem_cons_of_mem _ hk')
    · rw [← h, foldl_reduceStep_capabilities, reduceStep_capabilities]
      simp only [List.not_mem_nil, false_or, List.mem_cons, exists_eq_or_imp]

/-- `g` is the last of `gs` among those of the widest scope. -/
def LastWidest (gs : List AccessGrant) (g : AccessGrant) : Prop :=
  ∃ before after, gs = before ++ g :: after ∧
    (∀ g' ∈ before, isScopeAtLeast g.scope g'.scope = true) ∧
      ∀ g' ∈ after, isScopeAtLeast g'.scope g.scope = false

/-- There is one such grant. -/
theorem LastWidest.unique {gs : List AccessGrant} {g g' : AccessGrant} (h : LastWidest gs g)
    (h' : LastWidest gs g') : g = g' := by
  obtain ⟨before, after, hsplit, hbefore, hafter⟩ := h
  obtain ⟨before', after', hsplit', hbefore', hafter'⟩ := h'
  rw [hsplit] at hsplit'
  rcases List.append_eq_append_iff.mp hsplit' with ⟨mid, hmid, hrest⟩ | ⟨mid, hmid, hrest⟩
  · cases mid with
    | nil => exact (List.cons.inj hrest).1
    | cons m mid =>
      -- `g` comes before `g'`
      obtain ⟨rfl, rfl⟩ := List.cons.inj hrest
      have hwide := hbefore' g (by rw [hmid]; simp)
      rw [hafter g' (by simp)] at hwide
      exact absurd hwide (by decide)
  · cases mid with
    | nil => exact (List.cons.inj hrest).1.symm
    | cons m mid =>
      obtain ⟨rfl, rfl⟩ := List.cons.inj hrest
      have hwide := hbefore g' (by rw [hmid]; simp)
      rw [hafter' g (by simp)] at hwide
      exact absurd hwide (by decide)

/-- The loop keeps the accumulator's place only as long as every scope is below its own. -/
theorem foldl_reduceStep_last (gs : List AccessGrant) (acc : AccessGrant) :
    ∃ g, (gs.foldl reduceStep acc).SamePlace g ∧ LastWidest (acc :: gs) g := by
  induction gs generalizing acc with
  | nil =>
    exact ⟨acc, ⟨rfl, rfl, rfl, rfl⟩, [], [], rfl, by simp, by simp⟩
  | cons g gs ih =>
    obtain ⟨k, hplace, before, after, hsplit, hbefore, hafter⟩ := ih (reduceStep acc g)
    rw [List.foldl_cons]
    by_cases ht : isScopeAtLeast g.scope acc.scope = true
    · have hp := reduceStep_taken ht
      cases before with
      | nil =>
        -- nothing after `g` takes the place over again
        obtain ⟨rfl, rfl⟩ := List.cons.inj hsplit
        refine ⟨g, hplace.trans hp, [acc], gs, rfl, by simpa using ht, fun g' hg' => ?_⟩
        rw [← hp.2.2.2]
        exact hafter g' hg'
      | cons b before =>
        obtain ⟨rfl, rfl⟩ := List.cons.inj hsplit
        have hg : isScopeAtLeast k.scope g.scope = true := by
          rw [← hp.2.2.2]
          exact hbefore _ (List.mem_cons_self ..)
        refine ⟨k, hplace, acc :: g :: before, after, rfl, fun g' hg' => ?_, hafter⟩
        rcases List.mem_cons.mp hg' with rfl | hg'
        · exact isScopeAtLeast_trans hg ht
        · rcases List.mem_cons.mp hg' with rfl | hg'
          · exact hg
          · exact hbefore g' (List.mem_cons_of_mem _ hg')
    · have hf : isScopeAtLeast g.scope acc.scope = false := by simpa using ht
      have hp := reduceStep_kept hf
      cases before with
      | nil =>
        obtain ⟨rfl, rfl⟩ := List.cons.inj hsplit
        refine ⟨acc, hplace.trans hp, [], g :: gs, rfl, by simp, fun g' hg' => ?_⟩
        rcases List.mem_cons.mp hg' with rfl | hg'
        · exact hf
        · rw [← hp.2.2.2]
          exact hafter g' hg'
      | cons b before =>
        obtain ⟨rfl, rfl⟩ := List.cons.inj hsplit
        have hacc : isScopeAtLeast k.scope acc.scope = true := by
          rw [← hp.2.2.2]
          exact hbefore _ (List.mem_cons_self ..)
        have hle : isScopeAtLeast acc.scope g.scope = true :=
          (isScopeAtLeast_total acc.scope g.scope).resolve_right ht
        refine ⟨k, hplace, acc :: g :: before, after, rfl, fun g' hg' => ?_, hafter⟩
        rcases List.mem_cons.mp hg' with rfl | hg'
        · exact hacc
        · rcases List.mem_cons.mp hg' with rfl | hg'
          · exact isScopeAtLeast_trans hacc hle
          · exact hbefore g' (List.mem_cons_of_mem _ hg')

/-- **Ties go to the later grant.** -/
theorem reduceAccessGrants_last {gs : List AccessGrant} {r : AccessGrant}
    (h : reduceAccessGrants gs = .ok r) : ∃ g, r.SamePlace g ∧ LastWidest gs g := by
  cases gs with
  | nil => simp [reduceAccessGrants] at h
  | cons g gs =>
    simp only [reduceAccessGrants, List.foldl_cons, Except.ok.injEq] at h
    have htaken : (reduceStep ⟨g.roleId, .self, [], g.clientId, g.siteId⟩ g).SamePlace g :=
      reduceStep_taken (isScopeAtLeast_self _)
    obtain ⟨k, hplace, before, after, hsplit, hbefore, hafter⟩ :=
      foldl_reduceStep_last gs (reduceStep ⟨g.roleId, .self, [], g.clientId, g.siteId⟩ g)
    rw [h] at hplace
    cases before with
    | nil =>
      obtain ⟨rfl, rfl⟩ := List.cons.inj hsplit
      refine ⟨g, hplace.trans htaken, [], gs, rfl, by simp, fun g' hg' => ?_⟩
      rw [← htaken.2.2.2]
      exact hafter g' hg'
    | cons b before =>
      obtain ⟨rfl, rfl⟩ := List.cons.inj hsplit
      refine ⟨k, hplace, g :: before, after, rfl, fun g' hg' => ?_, hafter⟩
      rcases List.mem_cons.mp hg' with rfl | hg'
      · rw [← htaken.2.2.2]
        exact hbefore _ (List.mem_cons_self ..)
      · exact hbefore g' (List.mem_cons_of_mem _ hg')

theorem reduceAccessGrants_cons (g : AccessGrant) (gs : List AccessGrant) :
    ∃ r, reduceAccessGrants (g :: gs) = .ok r := ⟨_, rfl⟩

/-! ### One grant for every order of the rows

A role's capabilities are a column of text, so a row may name one twice; the set does not. -/

theorem addCapability_nodup {caps : List String} (h : caps.Nodup) (c : String) :
    (addCapability caps c).Nodup := by
  unfold addCapability
  by_cases hc : c ∈ caps
  · rw [if_pos hc]
    exact h
  · rw [if_neg hc]
    have hconcat := h.concat hc
    rwa [List.concat_eq_append] at hconcat

theorem foldl_addCapability_nodup {cs caps : List String} (h : caps.Nodup) :
    (cs.foldl addCapability caps).Nodup := by
  induction cs generalizing caps with
  | nil => exact h
  | cons c cs ih => exact ih (addCapability_nodup h c)

theorem foldl_reduceStep_nodup {gs : List AccessGrant} {acc : AccessGrant}
    (h : acc.capabilities.Nodup) : (gs.foldl reduceStep acc).capabilities.Nodup := by
  induction gs generalizing acc with
  | nil => exact h
  | cons g gs ih => exact ih (foldl_addCapability_nodup h)

theorem reduceAccessGrants_nodup {gs : List AccessGrant} {r : AccessGrant}
    (h : reduceAccessGrants gs = .ok r) : r.capabilities.Nodup := by
  cases gs with
  | nil => simp [reduceAccessGrants] at h
  | cons g gs =>
    rw [← Except.ok.inj h]
    exact foldl_reduceStep_nodup List.nodup_nil

/-- The scope and the set of capabilities depend on which rows there are, not on their order nor
    on how often each is there. -/
theorem reduceAccessGrants_congr {gs gs' : List AccessGrant} {r r' : AccessGrant}
    (h : reduceAccessGrants gs = .ok r) (h' : reduceAccessGrants gs' = .ok r')
    (hsame : ∀ g, g ∈ gs' ↔ g ∈ gs) :
    r'.scope = r.scope ∧ r'.capabilities.Perm r.capabilities := by
  obtain ⟨⟨g, hg, hplace⟩, hwide, hcaps⟩ := reduceAccessGrants_spec h
  obtain ⟨⟨g', hg', hplace'⟩, hwide', hcaps'⟩ := reduceAccessGrants_spec h'
  constructor
  · have hle : isScopeAtLeast r.scope r'.scope = true := by
      rw [hplace'.2.2.2]
      exact hwide g' ((hsame g').mp hg')
    have hge : isScopeAtLeast r'.scope r.scope = true := by
      rw [hplace.2.2.2]
      exact hwide' g ((hsame g).mpr hg)
    exact isScopeAtLeast_antisymm hge hle
  · apply (List.perm_ext_iff_of_nodup (reduceAccessGrants_nodup h')
      (reduceAccessGrants_nodup h)).mpr
    intro c
    rw [hcaps, hcaps']
    simp only [hsame]

/-- **The grant of any rows at all**: the widest of their scopes, at the place and with the role
    of one row of that scope, and the union of what they may do. -/
theorem reduceAccessGrants_correct (g : AccessGrant) (gs : List AccessGrant) :
    ∃ r, reduceAccessGrants (g :: gs) = .ok r ∧
      (∃ k ∈ g :: gs, r.SamePlace k) ∧
      (∀ k ∈ g :: gs, isScopeAtLeast r.scope k.scope = true) ∧
      (r.capabilities.Nodup ∧ ∀ c, c ∈ r.capabilities ↔ ∃ k ∈ g :: gs, c ∈ k.capabilities) ∧
      ∀ gs', (∀ k, k ∈ gs' ↔ k ∈ g :: gs) → ∃ r', reduceAccessGrants gs' = .ok r' ∧
        r'.scope = r.scope ∧ r'.capabilities.Perm r.capabilities := by
  obtain ⟨r, hr⟩ := reduceAccessGrants_cons g gs
  obtain ⟨hplace, hwide, hcaps⟩ := reduceAccessGrants_spec hr
  refine ⟨r, hr, hplace, hwide, ⟨reduceAccessGrants_nodup hr, hcaps⟩, ?_⟩
  intro gs' hsame
  cases gs' with
  | nil => exact absurd ((hsame g).mpr List.mem_cons_self) List.not_mem_nil
  | cons g' gs' =>
    obtain ⟨r', hr'⟩ := reduceAccessGrants_cons g' gs'
    exact ⟨r', hr', reduceAccessGrants_congr hr hr' hsame⟩

/-! ## 2. What resolving a grant may answer -/

inductive AccessGrantResult
  | granted (grant : AccessGrant)
  | denied (reason : DenialReason) (message : String) (details : AccessGrantResultDetails)
  deriving DecidableEq, Repr

def AccessGrantResult.grant? : AccessGrantResult → Option AccessGrant
  | .granted g => some g
  | .denied .. => none

/-! ## 3. Access contexts and their cache keys -/

inductive AccessIntent
  | system | elevated | user
  deriving DecidableEq, Repr

def AccessIntent.text : AccessIntent → String
  | .system => "system"
  | .elevated => "elevated"
  | .user => "user"

/-- The organization context of a request: its `x-client-id`, `x-site-id` and
    `x-access-intent` headers. -/
structure AccessContext where
  requestedClientId : Option String := none
  requestedSiteId : Option String := none
  accessIntent : Option AccessIntent := none
  deriving DecidableEq, Repr

/-- A string JavaScript takes for true: there, and not empty. -/
def truthy : Option String → Option String
  | some s => if s = "" then none else some s
  | none => none

theorem truthy_eq_some {o : Option String} {s : String} :
    truthy o = some s ↔ o = some s ∧ s ≠ "" := by
  cases o with
  | none => simp [truthy]
  | some t =>
    by_cases ht : t = ""
    · simp [truthy, ht]
    · simp only [truthy, if_neg ht, Option.some.injEq]
      exact ⟨fun h => ⟨h, h ▸ ht⟩, And.left⟩

def buildAccessGrantResponseCacheKey (idpId : String) (ctx : AccessContext) : String :=
  "access-grant:idpId:" ++ idpId ++ "|client:" ++ ctx.requestedClientId.getD "default" ++
    "|site:" ++ ctx.requestedSiteId.getD "default" ++
    "|intent:" ++ (ctx.accessIntent.getD .user).text

def intentVariants : List AccessIntent := [.system, .elevated, .user]

/-- The keys `clearAccessGrantResponseCache` deletes: no headers, the client alone, and the
    client with each of the sites, in every intent. -/
def clearedAccessGrantKeys (idpId clientId : String) (siteId : Option String)
    (siteIds : List String) : List String :=
  let allSiteIds := (truthy siteId).toList ++ siteIds
  let contexts : List AccessContext :=
    {} :: { requestedClientId := some clientId } ::
      allSiteIds.map fun s => { requestedClientId := some clientId, requestedSiteId := some s }
  contexts.flatMap fun ctx =>
    intentVariants.map fun intent =>
      buildAccessGrantResponseCacheKey idpId { ctx with accessIntent := some intent }

end ShieldApi
