import ShieldApi.Clients.Invitations

/-!
# What `createBulk` checks, and what it inserts

`createBulk` is a row of checks that write nothing, and then one transaction that inserts what the
checks have let pass. **When they pass is said once here** (`createBulkCheck_iff`): every site is in
the caller's sight and the target's, every role is the caller's to hand out, and no pending
invitation has one of the keys. What other files ask of a creation they read off that.
-/

set_option autoImplicit false

namespace ShieldApi

open Effect

/-! ## 1. The two halves -/

namespace InvitationsService

/-- `createBulk` up to its transaction: the rows it is going to insert. -/
def createBulkCheck (cls : Cls) (env : Env) (dto : CreateInvitationsDto) :
    Api (List Invitation) := do
  let person ← cls.requirePerson
  let accessGrant ← cls.requireAccessGrant
  let targetClientId := (truthy dto.clientId).getD accessGrant.clientId
  let uniqueSiteIds := (dto.invitations.map (·.siteId)).eraseDups
  let uniqueRoleIds := (dto.invitations.map (·.roleId)).eraseDups
  let rls ← prismaBuild cls env {}
  let sites ← query fun w =>
    w.db.sites.rows.filter fun s => rls.seesSite s && uniqueSiteIds.contains s.id
  let roles ← query fun w => assignableRoles accessGrant uniqueRoleIds w.db
  let _ ← forEach uniqueSiteIds fun siteId => do
    let site ← orRaise (.notFound ("Site with ID " ++ siteId ++ " not found"))
      (sites.find? (·.id = siteId))
    raiseIf (site.clientId ≠ targetClientId)
      (.badRequest ("Site " ++ siteId ++ " does not belong to client " ++ targetClientId))
  let _ ← forEach uniqueRoleIds fun roleId =>
    orRaise (.notFound ("Role with ID " ++ roleId ++ " not found")) (roles.find? (·.id = roleId))
  let uniqueEmails := (dto.invitations.map (·.email)).eraseDups
  let existingPending ← query fun w =>
    w.db.invitations.rows.filter fun i =>
      i.clientId = targetClientId && i.status = .pending && uniqueEmails.contains i.email &&
        uniqueSiteIds.contains i.siteId && uniqueRoleIds.contains i.roleId
  let existingKeys := existingPending.map fun e => tupleKey e.email e.siteId e.roleId
  let conflicts := dto.invitations.filter fun i =>
    existingKeys.contains (tupleKey i.email i.siteId i.roleId)
  raiseIf (!conflicts.isEmpty)
    (.conflict "INVITATION_ALREADY_PENDING" (alreadyPendingMessage conflicts) conflicts)
  pure (createData env person targetClientId dto)

/-- The transaction. -/
def insertInvitations (env : Env) (rows : List Invitation) : Api (List Invitation) :=
  transaction do
    let created ← forEach rows createInvitation
    query fun w =>
      env.invitationOrder.findManyBy Invitation.oldest
        (fun i => (created.map (·.id)).contains i.id) w.db.invitations.rows

theorem createBulk_eq (cls : Cls) (env : Env) (dto : CreateInvitationsDto) :
    createBulk cls env dto = createBulkCheck cls env dto >>= insertInvitations env := by
  unfold createBulk createBulkCheck
  simp only [bind_bind]
  rfl

theorem readOnly_createBulkCheck (cls : Cls) (env : Env) (dto : CreateInvitationsDto) :
    (createBulkCheck cls env dto).ReadOnly := by
  refine (readOnly_orRaise _ _).bind fun _ => (readOnly_requireAccessGrant cls).bind fun _ =>
    (readOnly_prismaBuild cls env {}).bind fun _ => (readOnly_query _).bind fun _ =>
      (readOnly_query _).bind fun _ => (readOnly_forEach ?_ _).bind fun _ =>
        (readOnly_forEach ?_ _).bind fun _ => (readOnly_query _).bind fun _ =>
          (readOnly_raiseIf _ _).bind fun _ => readOnly_pure _
  · exact fun _ => (readOnly_orRaise _ _).bind fun _ => readOnly_raiseIf _ _
  · exact fun _ => readOnly_orRaise _ _

end InvitationsService

open InvitationsService

/-! ## 2. One insertion -/

theorem createInvitation_eq_ok {inv r : Invitation} {w w' : World} :
    (createInvitation inv).run w = (.ok r, w') ↔
      ∃ t, w.db.invitations.insert? inv = some t ∧ (∀ i ∈ w.db.invitations, i.code ≠ inv.code) ∧
        w.db.invitationRefs inv = true ∧ r = inv ∧ w' = w.withInvitations t := by
  unfold createInvitation
  rw [attempt_eq_ok]
  cases hins : w.db.invitations.insert? inv with
  | none => simp
  | some t =>
    simp only [Option.some.injEq, List.any_eq_true, decide_eq_true_eq]
    by_cases htaken : ∃ i ∈ w.db.invitations.rows, i.code = inv.code
    · rw [if_pos htaken]
      obtain ⟨i, hi, hcode⟩ := htaken
      apply iff_of_false (by simp)
      intro h
      obtain ⟨_, -, hfree, -⟩ := h
      exact hfree i hi hcode
    · rw [if_neg htaken]
      push Not at htaken
      split
      · next hrefs =>
        simp only [Except.ok.injEq, Prod.mk.injEq, hrefs, true_and]
        constructor
        · rintro ⟨rfl, rfl⟩
          exact ⟨t, rfl, htaken, rfl, rfl⟩
        · rintro ⟨t', rfl, -, rfl, rfl⟩
          exact ⟨rfl, rfl⟩
      · next hrefs =>
        apply iff_of_false (by simp)
        intro h
        obtain ⟨_, -, -, h, -⟩ := h
        exact hrefs h

theorem createInvitation_rows {inv r : Invitation} {w w' : World}
    (h : (createInvitation inv).run w = (.ok r, w')) :
    w'.db.invitations.rows = w.db.invitations.rows ++ [inv] := by
  obtain ⟨t, ht, -, -, -, rfl⟩ := createInvitation_eq_ok.1 h
  exact (Table.insert?_eq_some.mp ht).1

theorem forEach_createInvitation_rows {rows rs : List Invitation} {w w' : World}
    (h : (forEach rows createInvitation).run w = (.ok rs, w')) :
    w'.db.invitations.rows = w.db.invitations.rows ++ rows := by
  induction rows generalizing w rs with
  | nil =>
    obtain ⟨-, rfl⟩ := Prod.mk.inj h
    rw [List.append_nil]
  | cons inv rows ih =>
    obtain ⟨r, w₁, rs', hinv, hrest, -⟩ := forEach_cons_eq_ok.mp h
    rw [ih hrest, createInvitation_rows hinv, List.append_assoc, List.singleton_append]

theorem createInvitation_leaves {I : World → Prop} {inv : Invitation} {w : World} (hw : I w)
    (hinsert : ∀ t, w.db.invitations.insert? inv = some t → I (w.withInvitations t)) :
    (createInvitation inv).Leaves I w := by
  apply (atomic_attempt _).leaves hw
  intro r w' hrun
  obtain ⟨t, ht, -, -, -, rfl⟩ := createInvitation_eq_ok.1 hrun
  exact hinsert t ht

/-- What each of the insertions keeps, the transaction does. -/
theorem insertInvitations_leaves {I : World → Prop} {env : Env} {rows : List Invitation} {w : World}
    (hw : I w) (hinsert : ∀ r ∈ rows, ∀ u, I u → (createInvitation r).Leaves I u) :
    (insertInvitations env rows).Leaves I w := by
  apply leaves_transaction hw
  intro rs w' hrun
  rw [bind_eq_ok] at hrun
  obtain ⟨created, w₁, hcreated, hrun⟩ := hrun
  obtain ⟨-, rfl⟩ := Prod.mk.inj hrun
  exact forEach_ok_keeps hcreated hinsert hw

/-! ## 3. When the checks pass -/

/-- The role check of `createBulk`, for the caller's grant. -/
def MayInvite (g : AccessGrant) (db : Db) (roleId : String) : Prop :=
  ∃ r ∈ db.roles, r.id = roleId ∧ (g.scopeAllows .system = true ∨ r.clientAssignable = true)

/-- The client the invitations are for. -/
def CreateInvitationsDto.target (dto : CreateInvitationsDto) (grant : AccessGrant) : String :=
  (truthy dto.clientId).getD grant.clientId

/-- The conflict check takes `i` for an open invitation of the entry. -/
structure CreateInvitationsDto.Collides (dto : CreateInvitationsDto) (grant : AccessGrant)
    (i : Invitation) (inv : InvitationInput) : Prop where
  client : i.clientId = dto.target grant
  pending : i.status = .pending
  email : i.email ∈ dto.invitations.map (·.email)
  site : i.siteId ∈ dto.invitations.map (·.siteId)
  role : i.roleId ∈ dto.invitations.map (·.roleId)
  key : tupleKey i.email i.siteId i.roleId = tupleKey inv.email inv.siteId inv.roleId

/-- The settings of the caller's queries. -/
def rlsSettings (cls : Cls) (env : Env) : Except ApiError Settings :=
  (buildPrimaryExtension cls env.allowedSiteIdsForSite {}).settings

theorem prismaBuild_run {cls : Cls} {env : Env} {rls : Settings} {w w' : World} :
    (prismaBuild cls env {}).run w = (.ok rls, w') ↔ rlsSettings cls env = .ok rls ∧ w' = w := by
  constructor
  · intro h
    exact ⟨prismaBuild_eq_ok h, (readOnly_prismaBuild cls env {}).ok h⟩
  · rintro ⟨h, rfl⟩
    rw [prismaBuild_of_settings h]
    rfl

/-- A site id passes where the site is in sight and the target's. -/
theorem sitesPass_iff {rls : Settings} {dto : CreateInvitationsDto} {target : String}
    {w : World} :
    (∃ us t, (forEach (dto.invitations.map (·.siteId)).eraseDups fun siteId => (do
      let site ← orRaise (.notFound ("Site with ID " ++ siteId ++ " not found"))
        ((w.db.sites.rows.filter fun s =>
          rls.seesSite s && (dto.invitations.map (·.siteId)).eraseDups.contains s.id).find?
            (·.id = siteId))
      raiseIf (site.clientId ≠ target)
        (.badRequest ("Site " ++ siteId ++ " does not belong to client " ++ target)) :
          Api Unit)).run w = (.ok us, t)) ↔
      ∀ inv ∈ dto.invitations, ∃ s ∈ w.db.sites, s.id = inv.siteId ∧ rls.seesSite s = true ∧
        s.clientId = target := by
  rw [forEach_readOnly_iff fun _ => (readOnly_orRaise _ _).bind fun _ => readOnly_raiseIf _ _]
  simp only [List.mem_eraseDups, List.forall_mem_map]
  apply forall₂_congr
  intro inv hinv
  have hin : (dto.invitations.map (·.siteId)).eraseDups.contains inv.siteId = true :=
    List.contains_iff_mem.mpr (List.mem_eraseDups.mpr (List.mem_map_of_mem hinv))
  have hfound : ∀ s, (w.db.sites.rows.filter fun s =>
      rls.seesSite s && (dto.invitations.map (·.siteId)).eraseDups.contains s.id).find?
        (·.id = inv.siteId) = some s ↔
        s ∈ w.db.sites ∧ (rls.seesSite s &&
          (dto.invitations.map (·.siteId)).eraseDups.contains s.id) = true ∧ s.id = inv.siteId :=
    fun _ => Table.find?_filter_eq_some
  constructor
  · intro h
    obtain ⟨u, h⟩ := h
    rw [bind_eq_ok] at h
    obtain ⟨s, w₁, hsome, h⟩ := h
    obtain ⟨hs, hp, hid⟩ := (hfound s).mp (orRaise_eq_ok.mp hsome).1
    have hclient := (raiseIf_eq_ok.mp h).1
    rw [decide_eq_false_iff_not, ne_eq, not_not] at hclient
    exact ⟨s, hs, hid, (Bool.and_eq_true_iff.mp hp).1, hclient⟩
  · intro h
    obtain ⟨s, hs, hid, hsees, hclient⟩ := h
    rw [(hfound s).mpr ⟨hs, by rw [hsees, hid, hin]; rfl, hid⟩, orRaise_some]
    refine ⟨(), ?_⟩
    rw [run_pure_bind]
    exact raiseIf_eq_ok.mpr ⟨decide_eq_false (not_not.mpr hclient), rfl⟩

/-- A role id passes where the caller may hand the role out. -/
theorem rolesPass_iff {grant : AccessGrant} {dto : CreateInvitationsDto} {w : World} :
    (∃ rs t, (forEach (dto.invitations.map (·.roleId)).eraseDups fun roleId =>
      (orRaise (.notFound ("Role with ID " ++ roleId ++ " not found"))
        ((assignableRoles grant (dto.invitations.map (·.roleId)).eraseDups w.db).find?
          (·.id = roleId)) : Api Role)).run w = (.ok rs, t)) ↔
      ∀ inv ∈ dto.invitations, MayInvite grant w.db inv.roleId := by
  rw [forEach_readOnly_iff fun _ => readOnly_orRaise _ _]
  simp only [List.mem_eraseDups, List.forall_mem_map]
  apply forall₂_congr
  intro inv hinv
  have hin : (dto.invitations.map (·.roleId)).eraseDups.contains inv.roleId = true :=
    List.contains_iff_mem.mpr (List.mem_eraseDups.mpr (List.mem_map_of_mem hinv))
  have hfound : ∀ r, (assignableRoles grant (dto.invitations.map (·.roleId)).eraseDups
      w.db).find? (·.id = inv.roleId) = some r ↔
        r ∈ w.db.roles ∧ ((dto.invitations.map (·.roleId)).eraseDups.contains r.id &&
          (grant.scopeAllows .system || r.clientAssignable)) = true ∧ r.id = inv.roleId :=
    fun _ => Table.find?_filter_eq_some
  constructor
  · intro h
    obtain ⟨r, h⟩ := h
    obtain ⟨hr, hp, hid⟩ := (hfound r).mp (orRaise_eq_ok.mp h).1
    exact ⟨r, hr, hid, Bool.or_eq_true_iff.mp (Bool.and_eq_true_iff.mp hp).2⟩
  · intro h
    obtain ⟨r, hr, hid, hmay⟩ := h
    refine ⟨r, ?_⟩
    rw [(hfound r).mpr ⟨hr, by rw [hid, hin, Bool.true_and, Bool.or_eq_true]; exact hmay, hid⟩]
    rfl

/-- The entries the conflict check objects to. -/
def CreateInvitationsDto.conflicts (dto : CreateInvitationsDto) (target : String) (db : Db) :
    List InvitationInput :=
  let existingPending := db.invitations.rows.filter fun i =>
    i.clientId = target && i.status = .pending &&
      (dto.invitations.map (·.email)).eraseDups.contains i.email &&
      (dto.invitations.map (·.siteId)).eraseDups.contains i.siteId &&
      (dto.invitations.map (·.roleId)).eraseDups.contains i.roleId
  let existingKeys := existingPending.map fun e => tupleKey e.email e.siteId e.roleId
  dto.invitations.filter fun i => existingKeys.contains (tupleKey i.email i.siteId i.roleId)

theorem conflicts_eq_nil {dto : CreateInvitationsDto} {grant : AccessGrant} {db : Db} :
    dto.conflicts (dto.target grant) db = [] ↔
      ∀ inv ∈ dto.invitations, ∀ i ∈ db.invitations, ¬ dto.Collides grant i inv := by
  unfold CreateInvitationsDto.conflicts
  rw [List.filter_eq_nil_iff]
  apply forall₂_congr
  intro inv _
  rw [List.contains_iff_mem, List.mem_map]
  constructor
  · intro h i hi hc
    refine h ⟨i, List.mem_filter.mpr ⟨hi, ?_⟩, hc.key⟩
    simp only [Bool.and_eq_true, decide_eq_true_eq, List.contains_iff_mem, List.mem_eraseDups]
    exact ⟨⟨⟨⟨hc.client, hc.pending⟩, hc.email⟩, hc.site⟩, hc.role⟩
  · intro h hopen
    obtain ⟨i, hi, hkey⟩ := hopen
    obtain ⟨hi, hp⟩ := List.mem_filter.mp hi
    simp only [Bool.and_eq_true, decide_eq_true_eq, List.contains_iff_mem,
      List.mem_eraseDups] at hp
    obtain ⟨⟨⟨⟨hclient, hpending⟩, hemail⟩, hsite⟩, hrole⟩ := hp
    exact h i hi ⟨hclient, hpending, hemail, hsite, hrole, hkey⟩

/-- **When the checks of `createBulk` pass**, and what is inserted then. -/
theorem createBulkCheck_iff {cls : Cls} {env : Env} {dto : CreateInvitationsDto}
    {rows : List Invitation} {w w' : World} :
    (createBulkCheck cls env dto).run w = (.ok rows, w') ↔
      ∃ person grant rls, cls.person = some person ∧ cls.accessGrant = some grant ∧
        rlsSettings cls env = .ok rls ∧
        (∀ inv ∈ dto.invitations, ∃ s ∈ w.db.sites, s.id = inv.siteId ∧ rls.seesSite s = true ∧
          s.clientId = dto.target grant) ∧
        (∀ inv ∈ dto.invitations, MayInvite grant w.db inv.roleId) ∧
        (∀ inv ∈ dto.invitations, ∀ i ∈ w.db.invitations, ¬ dto.Collides grant i inv) ∧
        rows = createData env person (dto.target grant) dto ∧ w' = w := by
  unfold createBulkCheck
  constructor
  · intro h
    rw [bind_eq_ok] at h
    obtain ⟨person, w₁, hrun, h⟩ := h
    obtain ⟨hperson, rfl⟩ := orRaise_eq_ok.mp hrun
    rw [bind_eq_ok] at h
    obtain ⟨grant, w₂, hrun', h⟩ := h
    obtain ⟨hgrant, rfl⟩ := orRaise_eq_ok.mp hrun'
    rw [bind_eq_ok] at h
    obtain ⟨rls, w₃, hbuild, h⟩ := h
    obtain ⟨hrls, rfl⟩ := prismaBuild_run.1 hbuild
    rw [run_query_bind, run_query_bind, bind_eq_ok] at h
    obtain ⟨us, w₄, hsites, h⟩ := h
    have hsame := (forEach_readOnly_ok
      (fun _ => (readOnly_orRaise _ _).bind fun _ => readOnly_raiseIf _ _) hsites).1
    rw [bind_eq_ok] at h
    obtain ⟨rs, w₅, hroles, h⟩ := h
    have hsame' := (forEach_readOnly_ok (fun _ => readOnly_orRaise _ _) hroles).1
    subst hsame
    subst hsame'
    rw [run_query_bind, bind_eq_ok] at h
    obtain ⟨_, w₆, hraise, h⟩ := h
    obtain ⟨hnone, rfl⟩ := raiseIf_eq_ok.mp hraise
    obtain ⟨hrows, rfl⟩ := Prod.mk.inj h
    refine ⟨person, grant, rls, hperson, hgrant, hrls, sitesPass_iff.1 ⟨us, _, hsites⟩,
      rolesPass_iff.1 ⟨rs, _, hroles⟩, conflicts_eq_nil.1 ?_, (Except.ok.inj hrows).symm, rfl⟩
    exact List.isEmpty_iff.mp (Bool.not_eq_eq_eq_not.mp hnone)
  · intro h
    obtain ⟨person, grant, rls, hperson, hgrant, hrls, hsites, hroles, hnone, rfl, hw⟩ := h
    subst hw
    obtain ⟨us, t, hus⟩ := sitesPass_iff.2 hsites
    obtain ⟨rs, t', hrs⟩ := rolesPass_iff.2 hroles
    have hsame := (forEach_readOnly_ok
      (fun _ => (readOnly_orRaise _ _).bind fun _ => readOnly_raiseIf _ _) hus).1
    have hsame' := (forEach_readOnly_ok (fun _ => readOnly_orRaise _ _) hrs).1
    subst hsame
    subst hsame'
    have hrequire : ∀ v : World, cls.requirePerson.run v = (.ok person, v) := fun v =>
      orRaise_eq_ok.mpr ⟨hperson, rfl⟩
    have hrequire' : ∀ v : World, cls.requireAccessGrant.run v = (.ok grant, v) := fun v =>
      orRaise_eq_ok.mpr ⟨hgrant, rfl⟩
    rw [run_bind_ok (hrequire _), run_bind_ok (hrequire' _), run_bind_ok (prismaBuild_run.2 ⟨hrls, rfl⟩),
      run_query_bind, run_query_bind]
    refine (run_bind_ok hus).trans ((run_bind_ok hrs).trans ?_)
    rw [run_query_bind]
    refine (run_bind_ok ((raiseIf_eq_ok (u := ())).mpr ⟨?_, rfl⟩)).trans rfl
    have hempty := conflicts_eq_nil.2 hnone
    exact congrArg (fun cs : List InvitationInput => !cs.isEmpty) hempty

end ShieldApi
