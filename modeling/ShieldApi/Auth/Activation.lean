import ShieldApi.Auth.GrantResolution

/-!
# Whose activation decides

A grant is put together from several access records, and a client or a site that is not active turns
it down. `validateAndBuildAccessGrantResult` looks the two up in the list again, by the client and
the site the reduction came out with. **The lookup finds them whatever the records are, and nothing
but the status of that client and that site decides** (`activation_decided`).

Where records of one client or site disagree on its status, the first one counts. Records read from
one database never do (`accessRecordsOf_agree`).
-/

set_option autoImplicit false

namespace ShieldApi

open AuthService

/-- The records say the same of a client, and of a site, that they have in common. -/
def StatusesAgree (records : List AccessRecord) : Prop :=
  ∀ r ∈ records, ∀ r' ∈ records, (r.client.id = r'.client.id → r.client.status = r'.client.status) ∧
    (r.site.id = r'.site.id → r.site.active = r'.site.active)

theorem StatusesAgree.subset {records records' : List AccessRecord} (h : StatusesAgree records)
    (hsub : ∀ r ∈ records', r ∈ records) : StatusesAgree records' :=
  fun r hr r' hr' => h r (hsub r hr) r' (hsub r' hr')

/-- The rows of a client and a site are there once. -/
theorem accessRecordsOf_agree (env : Env) (user : StatelessUser) (db : Db) :
    StatusesAgree (db.accessRecordsOf env user) := by
  have hrows : ∀ r ∈ db.accessRecordsOf env user, r.client ∈ db.clients ∧ r.site ∈ db.sites := by
    intro r hr
    obtain ⟨a, -, -, hrecord⟩ := mem_accessRecordsOf.mp hr
    obtain ⟨client, hclient, hrecord⟩ := Option.bind_eq_some_iff.mp hrecord
    obtain ⟨site, hsite, hrecord⟩ := Option.bind_eq_some_iff.mp hrecord
    obtain ⟨role, -, hrecord⟩ := Option.bind_eq_some_iff.mp hrecord
    obtain rfl := Option.some.inj hrecord
    exact ⟨(Table.find?_eq_some.mp hclient).1, (Table.find?_eq_some.mp hsite).1⟩
  intro r hr r' hr'
  obtain ⟨hclient, hsite⟩ := hrows r hr
  obtain ⟨hclient', hsite'⟩ := hrows r' hr'
  constructor
  · intro hid
    rw [Table.eq_of_key_eq hclient hclient' hid]
  · intro hid
    rw [Table.eq_of_key_eq hsite hsite' hid]

/-- The grant is for a scope above clients; or else the record's client is active, and so is its
    site, unless the scope is above sites. -/
def Activated (grant : AccessGrant) (r : AccessRecord) : Prop :=
  grant.scopeAllows .global = true ∨
    r.client.status = .active ∧ (grant.scopeAllows .client = true ∨ r.site.active = true)

/-- What is answered, by the client and the site of the record. -/
structure DecidedBy (ctx : AccessContext) (grant : AccessGrant) (r : AccessRecord)
    (result : AccessGrantResult) : Prop where
  granted : result = .granted grant ↔ Activated grant r
  nothingElse : ∀ g, result = .granted g → g = grant
  clientInactive : result = clientInactive ctx ↔ ¬ Activated grant r ∧ r.client.status ≠ .active
  siteInactive : result = siteInactive ctx ↔ ¬ Activated grant r ∧ r.client.status = .active

theorem granted_ne_clientInactive (ctx : AccessContext) (grant : AccessGrant) :
    AccessGrantResult.granted grant ≠ clientInactive ctx :=
  fun h => (nomatch h)

theorem granted_ne_siteInactive (ctx : AccessContext) (grant : AccessGrant) :
    AccessGrantResult.granted grant ≠ siteInactive ctx :=
  fun h => (nomatch h)

theorem clientInactive_ne_siteInactive (ctx : AccessContext) :
    clientInactive ctx ≠ siteInactive ctx := by
  unfold clientInactive siteInactive
  exact fun h => (nomatch (AccessGrantResult.denied.inj h).1)

theorem DecidedBy.of_granted {ctx : AccessContext} {grant : AccessGrant} {r : AccessRecord}
    (h : Activated grant r) : DecidedBy ctx grant r (.granted grant) where
  granted := iff_of_true rfl h
  nothingElse _ hg := (AccessGrantResult.granted.inj hg).symm
  clientInactive := iff_of_false (granted_ne_clientInactive ctx grant) fun hno => hno.1 h
  siteInactive := iff_of_false (granted_ne_siteInactive ctx grant) fun hno => hno.1 h

theorem decidedBy_activationResult (ctx : AccessContext) (grant : AccessGrant) (r : AccessRecord) :
    DecidedBy ctx grant r (activationResult ctx grant r) := by
  unfold activationResult
  by_cases hglobal : grant.scopeAllows .global = true
  · rw [if_pos hglobal]
    exact .of_granted (.inl hglobal)
  rw [if_neg hglobal]
  by_cases hclient : r.client.status = .active
  case neg =>
    rw [if_pos hclient]
    have hno : ¬ Activated grant r := fun h => h.elim hglobal fun h => hclient h.1
    exact {
      granted := iff_of_false (granted_ne_clientInactive ctx grant).symm hno
      nothingElse := fun g hg => absurd hg.symm (granted_ne_clientInactive ctx g)
      clientInactive := iff_of_true rfl ⟨hno, hclient⟩
      siteInactive := iff_of_false (clientInactive_ne_siteInactive ctx) fun h => hclient h.2 }
  rw [if_neg (not_not_intro hclient)]
  by_cases hscope : grant.scopeAllows .client = true
  · rw [if_pos hscope]
    exact .of_granted (.inr ⟨hclient, .inl hscope⟩)
  rw [if_neg hscope]
  by_cases hsite : r.site.active = true
  · rw [hsite]
    exact .of_granted (.inr ⟨hclient, .inr hsite⟩)
  · rw [Bool.eq_false_iff.mpr hsite]
    have hno : ¬ Activated grant r := fun h => h.elim hglobal fun h => h.2.elim hscope hsite
    exact {
      granted := iff_of_false (granted_ne_siteInactive ctx grant).symm hno
      nothingElse := fun g hg => absurd hg.symm (granted_ne_siteInactive ctx g)
      clientInactive :=
        iff_of_false (clientInactive_ne_siteInactive ctx).symm fun h => h.2 hclient
      siteInactive := iff_of_true rfl ⟨hno, hclient⟩ }

/-- Only the two statuses of the record count. -/
theorem activationResult_congr {ctx : AccessContext} {grant : AccessGrant} {r r' : AccessRecord}
    (hclient : r.client.status = r'.client.status) (hsite : r.site.active = r'.site.active) :
    activationResult ctx grant r = activationResult ctx grant r' := by
  unfold activationResult
  rw [hclient, hsite]

/-- **The place of the reduced grant decides, and nothing is thrown.** -/
theorem activation_decided {records : List AccessRecord} (hne : records ≠ [])
    (ctx : AccessContext) : ∃ grant result,
      reduceAccessGrants (records.map (·.grant)) = .ok grant ∧
      validateAndBuildAccessGrantResult records ctx = .ok result ∧
      (∃ r ∈ records, AtPlace grant r ∧ DecidedBy ctx grant r result) ∧
      (StatusesAgree records → ∀ r ∈ records, AtPlace grant r → DecidedBy ctx grant r result) := by
  obtain ⟨grant, hgrant, r, hr, hat, hresult⟩ := validateAndBuild_eq hne ctx
  refine ⟨grant, _, hgrant, hresult, ⟨r, hr, hat, decidedBy_activationResult ctx grant r⟩, ?_⟩
  intro hagree r' hr' hat'
  obtain ⟨hclient, hsite⟩ := hagree r hr r' hr'
  rw [activationResult_congr (hclient (hat.1.trans hat'.1.symm))
    (hsite (hat.2.trans hat'.2.symm))]
  exact decidedBy_activationResult ctx grant r'

/-- `p`, who manages one site and inspects another. -/
theorem twoSites_decided : ∃ grant result,
    reduceAccessGrants ((twoSites.accessRecordsOf {} userP).map (·.grant)) = .ok grant ∧
    validateAndBuildAccessGrantResult (twoSites.accessRecordsOf {} userP) atAcme = .ok result ∧
    (∃ r ∈ twoSites.accessRecordsOf {} userP, AtPlace grant r ∧
      DecidedBy atAcme grant r result) ∧
    (StatusesAgree (twoSites.accessRecordsOf {} userP) →
      ∀ r ∈ twoSites.accessRecordsOf {} userP, AtPlace grant r →
        DecidedBy atAcme grant r result) :=
  activation_decided (by decide) atAcme

end ShieldApi
