import ShieldApi.Clients.AccessRows

/-!
# Invitations

`clients/invitations/invitations.service.ts`: creating invitations in bulk, renewing one,
accepting one, and revoking them. An invitation names a client, a site and a role, and **accepting it is what
turns those three names into an access row**; nothing about the role is looked at again
then. Whether a caller may hand a role out is decided once, by the role query of
`createBulk`.

Renewing is revoke-then-create: the old rows are marked `REVOKED` by a query of their own,
so they stay revoked when the creation after it throws.

Left out: the emails, which are queued after the fact and whose failure is caught, and the
invite URL, which is the code behind a prefix.
-/

set_option autoImplicit false

namespace ShieldApi

open Effect

structure CreateInvitationsDto where
  clientId : Option String := none
  expiresInDays : Option Nat := none
  invitations : List InvitationInput
  deriving DecidableEq, Repr

structure RenewInvitationDto where
  expiresInDays : Option Nat := none
  deriving DecidableEq, Repr

abbrev InvitationTable : Type := Table Invitation String Invitation.id

def World.withInvitations (w : World) (t : InvitationTable) : World :=
  { w with db := { w.db with invitations := t } }

@[simp] theorem World.withInvitations_db_accesses (w : World) (t : InvitationTable) :
    (w.withInvitations t).db.accesses = w.db.accesses := rfl

@[simp] theorem World.withInvitations_db_roles (w : World) (t : InvitationTable) :
    (w.withInvitations t).db.roles = w.db.roles := rfl

/-! ## 1. The queries -/

/-- The foreign keys of an invitation resolve. -/
def Db.invitationRefs (db : Db) (inv : Invitation) : Bool :=
  (db.clients.find? inv.clientId).isSome && (db.persons.find? inv.createdById).isSome &&
    (db.sites.find? inv.siteId).isSome && (db.roles.find? inv.roleId).isSome

/-- One row of `invitation.createManyAndReturn`. The code is unique besides the id. -/
def createInvitation (inv : Invitation) : Api Invitation :=
  attempt fun w =>
    match w.db.invitations.insert? inv with
    | none => .error .uniqueConstraint
    | some t =>
      if w.db.invitations.rows.any (·.code = inv.code) then .error .uniqueConstraint
      else if w.db.invitationRefs inv then .ok (inv, w.withInvitations t)
      else .error .foreignKeyConstraint

def Invitation.setStatus (status : InvitationStatus) (inv : Invitation) : Invitation :=
  { inv with status := status }

def Invitation.setAccepted (acceptedById : String) (acceptedOn : Nat) (inv : Invitation) :
    Invitation :=
  { inv with
    status := .accepted, acceptedById := some acceptedById, acceptedOn := some acceptedOn }

@[simp] theorem Invitation.id_setStatus (status : InvitationStatus) (inv : Invitation) :
    (inv.setStatus status).id = inv.id := rfl

@[simp] theorem Invitation.id_setAccepted (acceptedById : String) (acceptedOn : Nat)
    (inv : Invitation) : (inv.setAccepted acceptedById acceptedOn).id = inv.id := rfl

/-- `invitation.updateMany` on a list of ids. -/
def updateInvitations (ids : List String) (f : Invitation → Invitation)
    (hf : ∀ inv, (f inv).id = inv.id) : Api Unit :=
  write fun w => w.withInvitations (w.db.invitations.updateMany (ids.contains ·.id) f hf)

/-- An invitation that is there after a change of statuses was there before. -/
theorem mem_updateStatuses {t : Table Invitation String Invitation.id} {ids : List String}
    {status : InvitationStatus} {i : Invitation} (hi : i ∈ t.updateMany (ids.contains ·.id)
      (.setStatus status) (Invitation.id_setStatus status)) :
    ∃ j ∈ t, i = j ∨ i = j.setStatus status := by
  obtain ⟨j, hj, rfl⟩ := List.mem_map.mp hi
  refine ⟨j, hj, ?_⟩
  by_cases hid : ids.contains j.id = true
  · exact .inr (if_pos hid)
  · exact .inl (if_neg hid)

/-! ## 2. Creating -/

/-- The key the conflict check compares by. -/
def tupleKey (email siteId roleId : String) : String := email ++ "|" ++ siteId ++ "|" ++ roleId

def alreadyPendingMessage (conflicts : List InvitationInput) : String :=
  "A pending invitation already exists for: " ++
    "; ".intercalate (conflicts.map fun c =>
      c.email ++ " (site " ++ c.siteId ++ ", role " ++ c.roleId ++ ")") ++
    ". Revoke the existing invitation before re-inviting."

/-- The role query of `createBulk`: below `SYSTEM` only assignable roles are found. -/
def assignableRoles (accessGrant : AccessGrant) (uniqueRoleIds : List String) (db : Db) :
    List Role :=
  db.roles.rows.filter fun r =>
    uniqueRoleIds.contains r.id && (accessGrant.scopeAllows .system || r.clientAssignable)

/-- Emails invited more than once share a group. -/
def groupedEmails (invitations : List InvitationInput) : List String :=
  (invitations.map (·.email)).eraseDups.filter fun e =>
    1 < (invitations.filter (·.email = e)).length

/-- The rows `createBulk` inserts. The groups draw their ids before the invitations draw
    their codes. -/
def createData (env : Env) (person : Person) (targetClientId : String)
    (dto : CreateInvitationsDto) : List Invitation :=
  let groups := groupedEmails dto.invitations
  let expiresOn := env.now + dto.expiresInDays.getD 7 * 24 * 60 * 60 * 1000
  dto.invitations.zipIdx.map fun (inv, i) =>
    { id := env.cuid i
      code := env.nanoid (groups.length + i)
      clientId := targetClientId
      createdById := person.id
      email := inv.email
      roleId := inv.roleId
      siteId := inv.siteId
      groupId := if inv.email ∈ groups then some (env.nanoid (groups.idxOf inv.email)) else none
      expiresOn := expiresOn
      createdOn := env.now }

namespace InvitationsService

def createBulk (cls : Cls) (env : Env) (dto : CreateInvitationsDto) : Api (List Invitation) := do
  let person ← cls.requirePerson
  let accessGrant ← cls.requireAccessGrant
  let targetClientId := (truthy dto.clientId).getD accessGrant.clientId
  let uniqueSiteIds := (dto.invitations.map (·.siteId)).eraseDups
  let uniqueRoleIds := (dto.invitations.map (·.roleId)).eraseDups
  let rls ← prismaBuild cls env {}
  let sites ← query fun w =>
    w.db.sites.rows.filter fun s => rls.seesSite s && uniqueSiteIds.contains s.id
  let roles ← query fun w => assignableRoles accessGrant uniqueRoleIds w.db
  let _ ← forEach uniqueSiteIds fun siteId => do
    let site ← orRaise (.notFound ("Site with ID " ++ siteId ++ " not found"))
      (sites.find? (·.id = siteId))
    raiseIf (site.clientId ≠ targetClientId)
      (.badRequest ("Site " ++ siteId ++ " does not belong to client " ++ targetClientId))
  let _ ← forEach uniqueRoleIds fun roleId =>
    orRaise (.notFound ("Role with ID " ++ roleId ++ " not found")) (roles.find? (·.id = roleId))
  let uniqueEmails := (dto.invitations.map (·.email)).eraseDups
  let existingPending ← query fun w =>
    w.db.invitations.rows.filter fun i =>
      i.clientId = targetClientId && i.status = .pending && uniqueEmails.contains i.email &&
        uniqueSiteIds.contains i.siteId && uniqueRoleIds.contains i.roleId
  let existingKeys := existingPending.map fun e => tupleKey e.email e.siteId e.roleId
  let conflicts := dto.invitations.filter fun i =>
    existingKeys.contains (tupleKey i.email i.siteId i.roleId)
  raiseIf (!conflicts.isEmpty)
    (.conflict "INVITATION_ALREADY_PENDING" (alreadyPendingMessage conflicts) conflicts)
  transaction do
    let created ← forEach (createData env person targetClientId dto) createInvitation
    query fun w =>
      env.invitationOrder.findManyBy Invitation.oldest
        (fun i => (created.map (·.id)).contains i.id) w.db.invitations.rows

/-! ## 3. Renewing -/

/-- The invitation with its pending siblings, or alone. -/
def pendingGroup (env : Env) (inv : Invitation) (db : Db) : List Invitation :=
  match truthy inv.groupId with
  | some groupId =>
    env.invitationOrder.findManyBy Invitation.oldest
      (fun i => i.groupId = some groupId && i.status = .pending) db.invitations.rows
  | none => [inv]

def renew (cls : Cls) (env : Env) (id : String) (dto : RenewInvitationDto) :
    Api (List Invitation) := do
  let rls ← prismaBuild cls env {}
  let visible ← query fun w => (w.db.invitations.find? id).filter (rls.seesClient ·.clientId)
  let _ ← orRaise (as404OrThrow .recordNotFound) visible
  let found ← query (·.db.invitations.find? id)
  let original ← orRaise .recordNotFound found
  raiseIf (original.status ≠ .pending)
    (.badRequest
      (if original.status = .accepted then
        "This invitation has already been accepted and cannot be renewed."
      else "This invitation has been revoked. Create a new invitation instead."))
  let toReplace ← query fun w => pendingGroup env original w.db
  raiseIf toReplace.isEmpty (.badRequest "No renewable invitations found for this group.")
  updateInvitations (toReplace.map (·.id)) (.setStatus .revoked) (Invitation.id_setStatus _)
  createBulk cls env
    { clientId := some original.clientId
      expiresInDays := dto.expiresInDays
      invitations := toReplace.map fun r => ⟨r.email, r.siteId, r.roleId⟩ }

/-- A renewal leaves things as they are, or as a creation does that comes after the revocation of
    some invitations. The revocation stays even if the creation throws. -/
theorem renew_leaves {I : World → Prop} {cls : Cls} {env : Env} {id : String}
    {dto : RenewInvitationDto} {w : World} (hw : I w)
    (hcreate : ∀ (ids : List String) created, (createBulk cls env created).Leaves I
      (w.withInvitations (w.db.invitations.updateMany (ids.contains ·.id) (.setStatus .revoked)
        (Invitation.id_setStatus _)))) : (renew cls env id dto).Leaves I w := by
  unfold renew
  apply (readOnly_prismaBuild cls env {}).leaves_bind hw
  intro rls _
  apply (readOnly_query _).leaves_bind hw
  intro visible _
  apply (readOnly_orRaise _ _).leaves_bind hw
  intro _ _
  apply (readOnly_query _).leaves_bind hw
  intro found _
  apply (readOnly_orRaise _ _).leaves_bind hw
  intro original _
  apply (readOnly_raiseIf _ _).leaves_bind hw
  intro _ _
  apply (readOnly_query _).leaves_bind hw
  intro toReplace _
  apply (readOnly_raiseIf _ _).leaves_bind hw
  intro _ _
  exact leaves_bind_of_run rfl (hcreate (toReplace.map (·.id)) _)

/-! ## 4. Accepting -/

/-- The index of the clicked invitation, or the first one. -/
def clickedIndex (code : String) (invitationsToAccept : List Invitation) : Nat :=
  (invitationsToAccept.findIdx? (·.code = code)).getD 0

/-- The row an accepted invitation asks for. -/
def acceptedRow (env : Env) (personId : String) (isPrimary : Bool) (inv : Invitation) :
    PersonClientAccess :=
  { createdOn := env.now
    isPrimary := isPrimary
    personId := personId
    clientId := inv.clientId
    siteId := inv.siteId
    roleId := inv.roleId }

/-- The rows asked for, in the order they are upserted. -/
def acceptedRows (env : Env) (personId code : String)
    (existingPrimaryAccess : Option PersonClientAccess) (invitationsToAccept : List Invitation) :
    List PersonClientAccess :=
  invitationsToAccept.zipIdx.map fun (inv, i) =>
    acceptedRow env personId
      (i = clickedIndex code invitationsToAccept && mayBePrimary existingPrimaryAccess inv.clientId inv.siteId) inv

/-- The transaction of `accept`. -/
def acceptTransaction (cfg : Config) (env : Env) (person : Person) (code : String) :
    Api (List PersonClientAccess) := do
  let found ← query (·.db.invitations.rows.find? (·.code = code))
  let invitation ← orRaise (.notFound "Invitation not found") found
  raiseIf (invitation.status = .revoked || invitation.status = .expired)
    (.gone "INVITATION_EXPIRED" "This invitation has expired")
  raiseIf (invitation.status = .accepted)
    (.gone "INVITATION_ALREADY_ACCEPTED" "This invitation has already been used")
  raiseIf (env.now > invitation.expiresOn)
    (.gone "INVITATION_EXPIRED" "This invitation has expired")
  raiseIf (cfg.toLowerCase person.email ≠ cfg.toLowerCase invitation.email)
    (.forbidden
      ("This invitation is restricted to a different email address. You are signed in with " ++
        person.email))
  let invitationsToAccept ← query fun w => pendingGroup env invitation w.db
  let existingPrimaryAccess ← query fun w => findPrimaryAccess env person.id w.db
  let accessRecords ← forEach
    (acceptedRows env person.id code existingPrimaryAccess invitationsToAccept)
    upsertWithPrimary
  updateInvitations (invitationsToAccept.map (·.id)) (.setAccepted person.id env.now)
    (Invitation.id_setAccepted _ _)
  pure accessRecords

def accept (cfg : Config) (cls : Cls) (env : Env) (code : String) :
    Api (List PersonClientAccess) := do
  let user ← cls.requireUser
  let person ← cls.requirePerson
  let allAccess ← transaction (acceptTransaction cfg env person code)
  let _ ← forEach allAccess fun access =>
    clearAccessGrantResponseCache user.idpId access.clientId (some access.siteId) []
  pure allAccess

/-! ## 5. Revoking -/

/-- The invitation with its pending siblings, revoked; or it alone, whatever its status. -/
def revokeRows (rls : Settings) (id : String) (groupId : Option String) :
    Api (Option String × List String) :=
  match truthy groupId with
  | some g => attempt fun w =>
    let revoked := w.db.invitations.rows.filter fun i =>
      rls.seesClient i.clientId && i.groupId = some g && i.status = .pending
    .ok ((some g, revoked.map (·.id)), w.withInvitations
      (w.db.invitations.updateMany
        (fun i => rls.seesClient i.clientId && i.groupId = some g && i.status = .pending)
        (.setStatus .revoked) (Invitation.id_setStatus _)))
  | none => attempt fun w =>
    match (w.db.invitations.find? id).filter (rls.seesClient ·.clientId) with
    | none => .error .recordNotFound
    | some _ => .ok ((none, [id]), w.withInvitations
        (w.db.invitations.updateMany (·.id = id) (.setStatus .revoked)
          (Invitation.id_setStatus _)))

def revoke (cls : Cls) (env : Env) (id : String) : Api (Option String × List String) := do
  let rls ← prismaBuild cls env {}
  let found ← query fun w => (w.db.invitations.find? id).filter (rls.seesClient ·.clientId)
  let invitation ← orRaise (as404OrThrow .recordNotFound) found
  raiseIf (invitation.status = .accepted)
    (.badRequest "This invitation is already accepted and cannot be revoked.")
  revokeRows rls id invitation.groupId

/-- Revoke what is pending and past its day; how many it was. -/
def expireStale (cls : Cls) (env : Env) : Api Nat := do
  let rls ← prismaBuild cls env {}
  attempt fun w =>
    let stale : Invitation → Bool := fun i =>
      rls.seesClient i.clientId && i.status = .pending && i.expiresOn < env.now
    .ok ((w.db.invitations.rows.filter stale).length, w.withInvitations
      (w.db.invitations.updateMany stale (.setStatus .revoked) (Invitation.id_setStatus _)))

/-! ## 6. What an accept does -/

/-- The row index an accepted invitation writes at. -/
def accessKey (personId : String) (inv : Invitation) : AccessKey :=
  ⟨personId, inv.clientId, inv.siteId, inv.roleId⟩

/-- The flags an accept writes, in order. -/
def acceptWrites (env : Env) (personId code : String) (db : Db) (invs : List Invitation) :
    List (AccessKey × Option Bool) :=
  (acceptedRows env personId code (findPrimaryAccess env personId db) invs).map
    fun a => (a.key, some a.isPrimary)

/-- The accept of `code` goes through: it is `person` who accepts, and `inv` is clicked. -/
structure Acceptable (cfg : Config) (cls : Cls) (env : Env) (code : String) (db : Db)
    (inv : Invitation) (person : Person) : Prop where
  signedIn : cls.user.isSome = true
  asPerson : cls.person = some person
  found : db.invitations.rows.find? (·.code = code) = some inv
  pending : inv.status = .pending
  live : env.now ≤ inv.expiresOn
  email : cfg.toLowerCase person.email = cfg.toLowerCase inv.email
  upserts : ∀ i ∈ pendingGroup env inv db, db.canUpsert (accessKey person.id i) = true

/-- `db'` is what accepting makes of `db`: the group is accepted, and its rows are upserted
    one after another. -/
structure AcceptedInto (env : Env) (code : String) (inv : Invitation) (person : Person)
    (db db' : Db) : Prop where
  tables : ∃ t, db' =
    { db with
      accesses := t
      invitations := db.invitations.updateMany
        (((pendingGroup env inv db).map (·.id)).contains ·.id)
        (.setAccepted person.id env.now) (Invitation.id_setAccepted _ _) }
  flag : db'.primaryFlag =
    overwrite db.primaryFlag (acceptWrites env person.id code db (pendingGroup env inv db))

theorem acceptedRows_key {env : Env} {personId code : String}
    {existing : Option PersonClientAccess} {invs : List Invitation} {a : PersonClientAccess}
    (ha : a ∈ acceptedRows env personId code existing invs) :
    ∃ inv ∈ invs, a.key = accessKey personId inv := by
  unfold acceptedRows at ha
  obtain ⟨⟨inv, i⟩, hmem, rfl⟩ := List.mem_map.mp ha
  exact ⟨inv, List.fst_mem_of_mem_zipIdx hmem, rfl⟩

theorem map_key_acceptedRows (env : Env) (personId code : String)
    (existing : Option PersonClientAccess) (invs : List Invitation) :
    (acceptedRows env personId code existing invs).map (·.key) =
      invs.map (accessKey personId) := by
  unfold acceptedRows
  rw [List.map_map]
  conv_rhs => rw [← List.zipIdx_map_fst 0 invs, List.map_map]
  rfl

theorem acceptWrites_keys (env : Env) (personId code : String) (db : Db)
    (invs : List Invitation) :
    (acceptWrites env personId code db invs).map Prod.fst = invs.map (accessKey personId) := by
  unfold acceptWrites
  rw [List.map_map]
  exact map_key_acceptedRows ..

theorem clicked_mem_pendingGroup (env : Env) {db : Db} {inv : Invitation}
    (hmem : inv ∈ db.invitations.rows) (hinv : inv.status = .pending) :
    inv ∈ pendingGroup env inv db := by
  unfold pendingGroup
  cases hg : truthy inv.groupId with
  | none => exact List.mem_singleton_self inv
  | some g =>
    refine RowOrder.mem_findManyBy.mpr ⟨hmem, ?_⟩
    rw [Bool.and_eq_true, decide_eq_true_eq, decide_eq_true_eq]
    exact ⟨(truthy_eq_some.mp hg).1, hinv⟩

theorem pendingGroup_ne_nil (env : Env) {db : Db} {inv : Invitation}
    (hmem : inv ∈ db.invitations.rows) (hpending : inv.status = .pending) :
    pendingGroup env inv db ≠ [] :=
  List.ne_nil_of_mem (clicked_mem_pendingGroup env hmem hpending)

theorem pendingGroup_pending {env : Env} {db : Db} {inv i : Invitation}
    (hinv : inv.status = .pending) (hi : i ∈ pendingGroup env inv db) :
    i.status = .pending ∧ (i = inv ∨ ∃ g, inv.groupId = some g ∧ i.groupId = some g) := by
  unfold pendingGroup at hi
  cases hg : truthy inv.groupId with
  | none =>
    rw [hg] at hi
    obtain rfl := List.mem_singleton.mp hi
    exact ⟨hinv, .inl rfl⟩
  | some g =>
    rw [hg] at hi
    have hrow := (RowOrder.mem_findManyBy.mp hi).2
    rw [Bool.and_eq_true, decide_eq_true_eq, decide_eq_true_eq] at hrow
    exact ⟨hrow.2, .inr ⟨g, (truthy_eq_some.mp hg).1, hrow.1⟩⟩

/-- Every row of the group is there after an accept. -/
theorem accepted_row_exists {env : Env} {personId code : String} {db : Db}
    {invs : List Invitation} {i : Invitation} (hi : i ∈ invs) :
    (overwrite db.primaryFlag (acceptWrites env personId code db invs)
      (accessKey personId i)).isSome = true := by
  have hkey : accessKey personId i ∈
      (acceptWrites env personId code db invs).map Prod.fst := by
    rw [acceptWrites_keys]
    exact List.mem_map_of_mem hi
  obtain ⟨v, hv⟩ : ∃ v, overwrite db.primaryFlag
      (acceptWrites env personId code db invs)
      (accessKey personId i) = v := ⟨_, rfl⟩
  rcases overwrite_eq_iff.mp hv with ⟨hno, -⟩ | ⟨pre, post, heq, -⟩
  · exact absurd hkey hno
  · have hmem : (accessKey personId i, v) ∈
        acceptWrites env personId code db invs := by
      rw [heq]
      exact List.mem_append_right _ (List.mem_cons_self ..)
    obtain ⟨a, -, ha⟩ := List.mem_map.mp hmem
    rw [hv, ← (Prod.mk.inj ha).2]
    rfl

theorem mem_pendingGroup {env : Env} {db : Db} {inv i : Invitation}
    (hmem : inv ∈ db.invitations.rows) (hi : i ∈ pendingGroup env inv db) :
    i ∈ db.invitations := by
  unfold pendingGroup at hi
  cases hg : truthy inv.groupId with
  | none =>
    rw [hg] at hi
    rw [List.mem_singleton.mp hi]
    exact hmem
  | some g =>
    rw [hg] at hi
    exact (RowOrder.mem_findManyBy.mp hi).1

/-- Where its checks pass, the transaction upserts the rows and marks the invitations. -/
theorem acceptTransaction_run {cfg : Config} {cls : Cls} {env : Env} {code : String} {w : World}
    {inv : Invitation} {person : Person} (h : Acceptable cfg cls env code w.db inv person) :
    (acceptTransaction cfg env person code).run w =
      (do
        let accessRecords ← forEach
          (acceptedRows env person.id code (findPrimaryAccess env person.id w.db)
            (pendingGroup env inv w.db))
          upsertWithPrimary
        updateInvitations ((pendingGroup env inv w.db).map (·.id)) (.setAccepted person.id env.now)
          (Invitation.id_setAccepted _ _)
        pure accessRecords : Api (List PersonClientAccess)).run w := by
  unfold acceptTransaction
  simp only [run_query_bind, h.found, orRaise_some, run_pure_bind, h.pending, reduceCtorEq,
    decide_false, Bool.or_false, raiseIf_false, Nat.not_lt.mpr h.live, gt_iff_lt, h.email, ne_eq,
    not_true_eq_false]

theorem acceptTransaction_ok {cfg : Config} {cls : Cls} {env : Env} {code : String} {w : World}
    {inv : Invitation} {person : Person} (h : Acceptable cfg cls env code w.db inv person) :
    ∃ rs w', (acceptTransaction cfg env person code).run w = (.ok rs, w') ∧
      AcceptedInto env code inv person w.db w'.db := by
  have hup : ∀ a ∈ acceptedRows env person.id code (findPrimaryAccess env person.id w.db)
      (pendingGroup env inv w.db), w.db.canUpsert a.key = true := by
    intro a ha
    obtain ⟨i, hi, hk⟩ := acceptedRows_key ha
    rw [hk]
    exact h.upserts i hi
  obtain ⟨rs, w₁, hrs, ⟨t, rfl⟩, hflag⟩ := forEach_upsert_ok hup
  refine ⟨rs, (w.withAccesses t).withInvitations (w.db.invitations.updateMany
    (((pendingGroup env inv w.db).map (·.id)).contains ·.id)
    (.setAccepted person.id env.now) (Invitation.id_setAccepted _ _)), ?_, ⟨t, rfl⟩, hflag⟩
  rw [acceptTransaction_run h, run_bind_ok hrs]
  rfl

theorem acceptTransaction_acceptable {cfg : Config} (cls : Cls) {env : Env} {code : String}
    {w w' : World} {person : Person} {rs : List PersonClientAccess}
    (huser : cls.user.isSome = true) (hperson : cls.person = some person)
    (h : (acceptTransaction cfg env person code).run w = (.ok rs, w')) :
    ∃ inv, Acceptable cfg cls env code w.db inv person := by
  unfold acceptTransaction at h
  rw [run_query_bind, bind_eq_ok] at h
  obtain ⟨inv, w₁, hfound, h⟩ := h
  obtain ⟨hfound', rfl⟩ := orRaise_eq_ok.mp hfound
  rw [bind_eq_ok] at h
  obtain ⟨_, w₂, hdead, h⟩ := h
  obtain ⟨hdead', rfl⟩ := raiseIf_eq_ok.mp hdead
  rw [bind_eq_ok] at h
  obtain ⟨_, w₃, hused, h⟩ := h
  obtain ⟨hused', rfl⟩ := raiseIf_eq_ok.mp hused
  rw [bind_eq_ok] at h
  obtain ⟨_, w₄, hlate, h⟩ := h
  obtain ⟨hlate', rfl⟩ := raiseIf_eq_ok.mp hlate
  rw [bind_eq_ok] at h
  obtain ⟨_, w₅, hemail, h⟩ := h
  obtain ⟨hemail', rfl⟩ := raiseIf_eq_ok.mp hemail
  rw [run_query_bind, run_query_bind, bind_eq_ok] at h
  obtain ⟨rs', w₆, hrs, -⟩ := h
  have hup := canUpsert_of_forEach hrs
  refine ⟨inv, huser, hperson, hfound', ?_, by simpa using hlate', by simpa using hemail', ?_⟩
  · cases hs : inv.status <;> simp_all
  · intro i hi
    have hkey : accessKey person.id i ∈ (acceptedRows env person.id code
        (findPrimaryAccess env person.id w.db) (pendingGroup env inv w.db)).map (·.key) := by
      rw [map_key_acceptedRows]
      exact List.mem_map_of_mem hi
    obtain ⟨a, ha, hk⟩ := List.mem_map.mp hkey
    rw [← hk]
    exact hup a ha

/-- Accepting creates no invitation and changes no invitation's role. -/
theorem AcceptedInto.invitations {env : Env} {code : String} {inv : Invitation} {person : Person}
    {db db' : Db} (h : AcceptedInto env code inv person db db') :
    ∀ i ∈ db'.invitations, ∃ j ∈ db.invitations, j.id = i.id ∧ j.roleId = i.roleId := by
  obtain ⟨t, ht⟩ := h.tables
  intro i hi
  rw [ht] at hi
  have hrows : ∀ i ∈ db.invitations.updateMany
      (((pendingGroup env inv db).map (·.id)).contains ·.id) (.setAccepted person.id env.now)
      (Invitation.id_setAccepted _ _), ∃ j ∈ db.invitations,
        (if ((pendingGroup env inv db).map (·.id)).contains j.id
          then j.setAccepted person.id env.now else j) = i :=
    fun _ hi => Table.mem_updateMany.mp hi
  obtain ⟨j, hj, rfl⟩ := hrows i hi
  refine ⟨j, hj, ?_⟩
  split <;> exact ⟨rfl, rfl⟩

theorem AcceptedInto.roles {env : Env} {code : String} {inv : Invitation} {person : Person}
    {db db' : Db} (h : AcceptedInto env code inv person db db') : db'.roles = db.roles := by
  obtain ⟨t, ht⟩ := h.tables
  rw [ht]

/-- **An accept either goes through, or changes nothing in the database.** -/
theorem accept_spec (cfg : Config) (cls : Cls) (env : Env) (code : String) (w : World) :
    (∃ inv person, Acceptable cfg cls env code w.db inv person ∧
        (accept cfg cls env code).Leaves
          (fun w' => AcceptedInto env code inv person w.db w'.db) w) ∨
      ((∀ inv person, ¬ Acceptable cfg cls env code w.db inv person) ∧
        (accept cfg cls env code).Leaves (fun w' => w'.db = w.db) w) := by
  have hclear (user : StatelessUser) (allAccess : List PersonClientAccess) : CacheOnly (do
      let _ ← forEach allAccess fun access =>
        clearAccessGrantResponseCache user.idpId access.clientId (some access.siteId) []
      pure allAccess) :=
    (cacheOnly_forEach (fun _ => cacheOnly_clear ..) _).bind fun _ => cacheOnly_pure _
  by_cases h : ∃ inv person, Acceptable cfg cls env code w.db inv person
  · obtain ⟨inv, person, h⟩ := h
    obtain ⟨user, huser⟩ := Option.isSome_iff_exists.mp h.signedIn
    obtain ⟨rs, w', hrun, hinto⟩ := acceptTransaction_ok h
    refine .inl ⟨inv, person, h, ?_⟩
    unfold accept Cls.requireUser Cls.requirePerson
    rw [huser, h.asPerson, orRaise_some, orRaise_some]
    refine leaves_bind_of_run (run_pure ..) (leaves_bind_of_run (run_pure ..) ?_)
    exact CacheOnly.leaves_bind (I := fun db => AcceptedInto env code inv person w.db db)
      (hclear user) (leaves_transaction_of_run hrun hinto)
  · push Not at h
    refine .inr ⟨h, ?_⟩
    unfold accept
    refine (readOnly_orRaise _ _).leaves_bind rfl fun user huser => ?_
    refine (readOnly_orRaise _ _).leaves_bind rfl fun person hperson => ?_
    refine CacheOnly.leaves_bind (I := fun db => db = w.db) (hclear user) ?_
    refine leaves_transaction rfl fun rs w' hrs => ?_
    -- a transaction that returned contradicts the case
    have hu := (orRaise_eq_ok.mp huser).1
    have hp := (orRaise_eq_ok.mp hperson).1
    obtain ⟨inv, hacc⟩ := acceptTransaction_acceptable cls (by rw [hu]; rfl) hp hrs
    exact absurd hacc (h inv person)

end InvitationsService

end ShieldApi
