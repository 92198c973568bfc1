import ShieldApi.Clients.PendingInvitations

/-!
# Is an accepted or revoked invitation done with?

Four calls write the status of invitations. Each looks first and writes in a statement of its own.
Two of the writes say `status: 'PENDING'` once more: the sweep of `expireStale`, and the
revocation of a group. **Three do not**: what `accept` marks, what `renew` revokes and what `revoke`
revokes where there is no group are updates by id, and at READ COMMITTED they write over whatever
others have committed since the look.

Here the calls are cut up into their single reads and updates. A step that updates by id
announces it (`StatusWrite`). The writes of an accept are one step, its commit: the rows are locked
from the statement that writes them on, and nobody sees them before.
-/

set_option autoImplicit false

namespace ShieldApi

open Effect Process InvitationsService

/-! ## 1. The writes that do not look -/

/-- An update of statuses by id. -/
inductive StatusWrite
  | accept (personId : String) (invitationsToAccept : List Invitation)
  | renew (toReplace : List Invitation)
  | revoke (rls : Settings) (id : String)

namespace StatusWrite

/-- The ids it names. -/
def ids : StatusWrite → List String
  | .accept _ invitationsToAccept => invitationsToAccept.map (·.id)
  | .renew toReplace => toReplace.map (·.id)
  | .revoke _ id => [id]

/-- The status it writes. -/
def status : StatusWrite → InvitationStatus
  | .accept .. => .accepted
  | .renew _ | .revoke .. => .revoked

/-- It does not throw: the rows an accept makes have what they refer to; the one invitation to
    revoke is in sight. -/
def GoesThrough (db : Db) : StatusWrite → Prop
  | .accept personId invitationsToAccept =>
    ∀ i ∈ invitationsToAccept, db.canUpsert (accessKey personId i) = true
  | .renew _ => True
  | .revoke rls id => ((db.invitations.find? id).filter (rls.seesClient ·.clientId)).isSome = true

end StatusWrite

/-- A status nothing is to change. -/
def InvitationStatus.Final (s : InvitationStatus) : Prop := s = .accepted ∨ s = .revoked

/-- **What is accepted or revoked stays so.** -/
def StaysFinal (w w' : World) : Prop :=
  ∀ i ∈ w.db.invitations, i.status.Final →
    ∃ j ∈ w'.db.invitations, j.id = i.id ∧ j.status = i.status

/-- What the write does to the invitations. -/
def StatusWrite.Done (sw : StatusWrite) (w w' : World) : Prop :=
  ∀ i ∈ w.db.invitations, ∃ j ∈ w'.db.invitations,
    j.id = i.id ∧ j.status = if i.id ∈ sw.ids then sw.status else i.status

/-- **What a step does to the statuses:** the write it announced, if that goes through, and
    nothing to final ones otherwise. -/
def StatusStep : Option StatusWrite → (World → World) → Prop
  | none, write => ∀ w, StaysFinal w (write w)
  | some sw, write => ∀ w, (sw.GoesThrough w.db → sw.Done w (write w)) ∧
      (¬ sw.GoesThrough w.db → StaysFinal w (write w))

/-- No invitation it names is final in the other way. -/
def StatusWrite.Undisputed (sw : StatusWrite) (db : Db) : Prop :=
  ∀ i ∈ db.invitations, i.id ∈ sw.ids → i.status.Final → i.status = sw.status

theorem staysFinal_refl (w : World) : StaysFinal w w := fun i hi _ => ⟨i, hi, rfl, rfl⟩

theorem StaysFinal.trans {w w' w'' : World} (h : StaysFinal w w') (h' : StaysFinal w' w'') :
    StaysFinal w w'' := by
  intro i hi hfinal
  obtain ⟨j, hj, hid, hstatus⟩ := h i hi hfinal
  obtain ⟨k, hk, hkid, hkstatus⟩ := h' j hj (by rw [hstatus]; exact hfinal)
  exact ⟨k, hk, hkid.trans hid, hkstatus.trans hstatus⟩

theorem staysFinal_of_eq {w w' : World} (h : w'.db.invitations = w.db.invitations) :
    StaysFinal w w' :=
  fun i hi _ => ⟨i, h ▸ hi, rfl, rfl⟩

/-- A write that goes through leaves the final statuses exactly if it is undisputed. -/
theorem StatusWrite.Done.staysFinal_iff {sw : StatusWrite} {w w' : World} (h : sw.Done w w') :
    StaysFinal w w' ↔ sw.Undisputed w.db := by
  constructor
  · intro hstays i hi hid hfinal
    obtain ⟨j, hj, hjid, hjstatus⟩ := hstays i hi hfinal
    obtain ⟨k, hk, hkid, hkstatus⟩ := h i hi
    obtain rfl := Table.eq_of_key_eq hj hk (hjid.trans hkid.symm)
    rw [if_pos hid] at hkstatus
    exact hjstatus.symm.trans hkstatus
  · intro hcond i hi hfinal
    obtain ⟨j, hj, hid, hstatus⟩ := h i hi
    refine ⟨j, hj, hid, ?_⟩
    by_cases hin : i.id ∈ sw.ids
    · rw [hstatus, if_pos hin, hcond i hi hin hfinal]
    · rw [hstatus, if_neg hin]

/-! ## 2. The steps of a call -/

namespace InvitationsService

/-- The first of the two reads `createBulk` makes at once. -/
def createBulkSites (cls : Cls) (env : Env) (dto : CreateInvitationsDto) :
    Api (Person × AccessGrant × List Site) := do
  let person ← cls.requirePerson
  let accessGrant ← cls.requireAccessGrant
  let rls ← prismaBuild cls env {}
  let sites ← query fun w =>
    w.db.sites.rows.filter fun s =>
      rls.seesSite s && ((dto.invitations.map (·.siteId)).eraseDups).contains s.id
  pure (person, accessGrant, sites)

/-- The checks on what was read, and the read of the pending invitations. -/
def createBulkConflicts (env : Env) (dto : CreateInvitationsDto) (person : Person)
    (accessGrant : AccessGrant) (sites : List Site) (roles : List Role) :
    Api (List Invitation) := do
  let targetClientId := (truthy dto.clientId).getD accessGrant.clientId
  let uniqueSiteIds := (dto.invitations.map (·.siteId)).eraseDups
  let uniqueRoleIds := (dto.invitations.map (·.roleId)).eraseDups
  let _ ← forEach uniqueSiteIds fun siteId => do
    let site ← orRaise (.notFound ("Site with ID " ++ siteId ++ " not found"))
      (sites.find? (·.id = siteId))
    raiseIf (site.clientId ≠ targetClientId)
      (.badRequest ("Site " ++ siteId ++ " does not belong to client " ++ targetClientId))
  let _ ← forEach uniqueRoleIds fun roleId =>
    orRaise (.notFound ("Role with ID " ++ roleId ++ " not found")) (roles.find? (·.id = roleId))
  let uniqueEmails := (dto.invitations.map (·.email)).eraseDups
  let existingPending ← query fun w =>
    w.db.invitations.rows.filter fun i =>
      i.clientId = targetClientId && i.status = .pending && uniqueEmails.contains i.email &&
        uniqueSiteIds.contains i.siteId && uniqueRoleIds.contains i.roleId
  let existingKeys := existingPending.map fun e => tupleKey e.email e.siteId e.roleId
  let conflicts := dto.invitations.filter fun i =>
    existingKeys.contains (tupleKey i.email i.siteId i.roleId)
  raiseIf (!conflicts.isEmpty)
    (.conflict "INVITATION_ALREADY_PENDING" (alreadyPendingMessage conflicts) conflicts)
  pure (createData env person targetClientId dto)

/-- The revocation of a group looks again, that of one invitation does not. -/
def revokeTag (rls : Settings) (id : String) (groupId : Option String) : Option StatusWrite :=
  match truthy groupId with
  | some _ => none
  | none => some (.revoke rls id)

abbrev StatusSteps (α : Type) : Type := Process World (Option StatusWrite) ApiError α

namespace StatusSteps

def createBulk (cls : Cls) (env : Env) (dto : CreateInvitationsDto) :
    StatusSteps (List Invitation) := do
  let (person, accessGrant, sites) ← atomically none (createBulkSites cls env dto)
  let roles ← atomically none (query fun w =>
    assignableRoles accessGrant (dto.invitations.map (·.roleId)).eraseDups w.db)
  let rows ← atomically none (createBulkConflicts env dto person accessGrant sites roles)
  atomically none (insertInvitations env rows)

def renew (cls : Cls) (env : Env) (id : String) (dto : RenewInvitationDto) :
    StatusSteps (List Invitation) := do
  atomically none (renewAuthorize cls env id)
  let original ← atomically none (renewOriginal id)
  let toReplace ← atomically none (renewCollect env original)
  atomically (some (.renew toReplace)) (renewRevoke toReplace)
  createBulk cls env (renewal original toReplace dto)

def revoke (cls : Cls) (env : Env) (id : String) :
    StatusSteps (Option String × List String) := do
  let (rls, invitation) ← atomically none (revokeFind cls env id)
  atomically (revokeTag rls id invitation.groupId) (revokeRows rls id invitation.groupId)

def expireStale (cls : Cls) (env : Env) : StatusSteps Nat :=
  atomically none (InvitationsService.expireStale cls env)

def accept (cfg : Config) (cls : Cls) (env : Env) (code : String) :
    StatusSteps (List PersonClientAccess) := do
  let user ← atomically none cls.requireUser
  let person ← atomically none cls.requirePerson
  let invitation ← atomically none (acceptFind cfg env person code)
  let invitationsToAccept ← atomically none (query fun w => pendingGroup env invitation w.db)
  let existingPrimaryAccess ← atomically none (query fun w => findPrimaryAccess env person.id w.db)
  let allAccess ← atomically (some (.accept person.id invitationsToAccept))
    (transaction (acceptWrite env person.id code existingPrimaryAccess invitationsToAccept))
  atomically none (acceptClear user allAccess)

/-! With nobody else around, the steps are the calls. -/

theorem createBulk_whole (cls : Cls) (env : Env) (dto : CreateInvitationsDto) :
    (createBulk cls env dto).whole = InvitationsService.createBulk cls env dto := by
  unfold createBulk InvitationsService.createBulk createBulkSites createBulkConflicts
  simp only [whole_bind, whole_atomically, bind_bind]
  rfl

theorem renew_whole (cls : Cls) (env : Env) (id : String) (dto : RenewInvitationDto) :
    (renew cls env id dto).whole = InvitationsService.renew cls env id dto := by
  rw [← Steps.renew_whole]
  unfold renew Steps.renew
  simp only [whole_bind, whole_atomically, createBulk_whole, Steps.createBulk_whole]

theorem revoke_whole (cls : Cls) (env : Env) (id : String) :
    (revoke cls env id).whole = InvitationsService.revoke cls env id := by
  rw [← Steps.revoke_whole]
  unfold revoke Steps.revoke
  simp only [whole_bind, whole_atomically]

theorem accept_whole (cfg : Config) (cls : Cls) (env : Env) (code : String) :
    (accept cfg cls env code).whole = InvitationsService.accept cfg cls env code := by
  rw [← Steps.accept_whole]
  unfold accept Steps.accept
  simp only [whole_bind, whole_atomically]

end StatusSteps

end InvitationsService

/-! ## 3. What each step does -/

theorem readOnly_statusStep {α : Type} {x : Api α} (hx : x.ReadOnly) :
    StatusStep none x.after := by
  intro w
  rw [hx w]
  exact staysFinal_refl w

/-- An update of pending rows. -/
theorem staysFinal_updatePending {w : World} {p : Invitation → Bool} {f : Invitation → Invitation}
    (hf : ∀ i, (f i).id = i.id) (hp : ∀ i, p i = true → i.status = .pending) :
    StaysFinal w (w.withInvitations (w.db.invitations.updateMany p f hf)) := by
  intro i hi hfinal
  refine ⟨i, List.mem_map.mpr ⟨i, hi, if_neg fun hpi => ?_⟩, rfl, rfl⟩
  rw [hp i hpi] at hfinal
  rcases hfinal with h | h
  · exact absurd h (by simp)
  · exact absurd h (by simp)

/-- An update by id. -/
theorem done_updateMany {sw : StatusWrite} {w : World} {p : Invitation → Bool}
    {f : Invitation → Invitation} (hf : ∀ i, (f i).id = i.id)
    (hstatus : ∀ i, (f i).status = sw.status) (hp : ∀ i, p i = true ↔ i.id ∈ sw.ids) :
    sw.Done w (w.withInvitations (w.db.invitations.updateMany p f hf)) := by
  intro i hi
  refine ⟨if p i then f i else i, List.mem_map.mpr ⟨i, hi, rfl⟩, ?_⟩
  by_cases hin : i.id ∈ sw.ids
  · rw [if_pos ((hp i).mpr hin), if_pos hin]
    exact ⟨hf i, hstatus i⟩
  · rw [if_neg fun h => hin ((hp i).mp h), if_neg hin]
    exact ⟨rfl, rfl⟩

theorem renewRevoke_statusStep (toReplace : List Invitation) :
    StatusStep (some (.renew toReplace)) (renewRevoke toReplace).after :=
  fun _ => ⟨fun _ => done_updateMany (Invitation.id_setStatus _) (fun _ => rfl)
    fun _ => List.contains_iff_mem, fun hno => absurd trivial hno⟩

theorem revokeOne_run {rls : Settings} {id : String} {groupId : Option String} {w : World}
    {i : Invitation} (hno : truthy groupId = none)
    (hi : (w.db.invitations.find? id).filter (rls.seesClient ·.clientId) = some i) :
    (revokeRows rls id groupId).run w = (.ok (none, [id]), w.withInvitations
      (w.db.invitations.updateMany (·.id = id) (.setStatus .revoked)
        (Invitation.id_setStatus _))) := by
  unfold revokeRows
  rw [hno]
  refine attempt_eq_ok.mpr ?_
  simp only [hi]

theorem revokeOne_gone {rls : Settings} {id : String} {groupId : Option String} {w : World}
    (hno : truthy groupId = none)
    (hi : (w.db.invitations.find? id).filter (rls.seesClient ·.clientId) = none) :
    (revokeRows rls id groupId).run w = (.error .recordNotFound, w) := by
  unfold revokeRows
  rw [hno]
  refine run_attempt_error ?_
  simp only [hi]

theorem revokeRows_statusStep (rls : Settings) (id : String) (groupId : Option String) :
    StatusStep (revokeTag rls id groupId) (revokeRows rls id groupId).after := by
  unfold revokeTag
  cases hgroup : truthy groupId with
  | some g =>
    unfold revokeRows
    rw [hgroup]
    refine fun w => staysFinal_updatePending (Invitation.id_setStatus _) fun i hi => ?_
    exact of_decide_eq_true (Bool.and_eq_true_iff.mp hi).2
  | none =>
    intro w
    constructor
    · intro hgoes
      obtain ⟨i, hi⟩ := Option.isSome_iff_exists.mp hgoes
      rw [after_of_run (revokeOne_run hgroup hi)]
      apply done_updateMany (Invitation.id_setStatus _) (fun _ => rfl)
      intro i
      rw [decide_eq_true_eq, StatusWrite.ids, List.mem_singleton]
    · intro hno
      rw [after_of_run (revokeOne_gone hgroup (Option.not_isSome_iff_eq_none.mp hno))]
      exact staysFinal_refl w

theorem expireStale_statusStep (cls : Cls) (env : Env) :
    StatusStep none (InvitationsService.expireStale cls env).after := by
  intro w
  refine ReadOnly.leaves_bind (I := StaysFinal w) (readOnly_prismaBuild cls env {})
    (staysFinal_refl w) fun rls _ => ?_
  apply staysFinal_updatePending (Invitation.id_setStatus _)
  intro i hi
  simp only [Bool.and_eq_true, decide_eq_true_eq] at hi
  exact hi.1.2

/-- The upserts of an accept leave the invitations alone. -/
theorem acceptUpserts_invitations {rows rs : List PersonClientAccess} {w w' : World}
    (h : (forEach rows upsertWithPrimary).run w = (.ok rs, w')) :
    w'.db.invitations = w.db.invitations := by
  obtain ⟨⟨t, rfl⟩, -, -⟩ := forEach_upsertAccess_rows h
  rfl

theorem acceptWrite_statusStep (env : Env) (personId code : String)
    (existing : Option PersonClientAccess) (invs : List Invitation) :
    StatusStep (some (.accept personId invs))
      (transaction (acceptWrite env personId code existing invs)).after := by
  have hrows : ∀ w : World, (StatusWrite.accept personId invs).GoesThrough w.db ↔
      ∀ a ∈ acceptedRows env personId code existing invs, w.db.canUpsert a.key = true := by
    intro w
    have hkeys := map_key_acceptedRows env personId code existing invs
    have hall : (∀ k ∈ invs.map (accessKey personId), w.db.canUpsert k = true) ↔
        ∀ k ∈ (acceptedRows env personId code existing invs).map (·.key),
          w.db.canUpsert k = true := by
      rw [hkeys]
    rw [List.forall_mem_map, List.forall_mem_map] at hall
    exact hall
  intro w
  constructor
  · intro hgoes
    obtain ⟨rs, w₁, hloop, -, -⟩ := forEach_upsert_ok ((hrows w).mp hgoes)
    have hrun : (acceptWrite env personId code existing invs).run w =
        (.ok rs, w₁.withInvitations (w₁.db.invitations.updateMany
          ((invs.map (·.id)).contains ·.id) (.setAccepted personId env.now)
          (Invitation.id_setAccepted _ _))) := by
      unfold acceptWrite
      rw [run_bind_ok hloop]
      rfl
    have hdone : (StatusWrite.accept personId invs).Done w₁ _ :=
      done_updateMany (Invitation.id_setAccepted personId env.now) (fun _ => rfl)
        fun _ => List.contains_iff_mem
    rw [after_of_run (transaction_eq_ok.mpr hrun)]
    intro i hi
    rw [← acceptUpserts_invitations hloop] at hi
    exact hdone i hi
  · intro hno
    apply leaves_transaction (I := StaysFinal w) (staysFinal_refl w)
    intro rs w' h
    unfold acceptWrite at h
    rw [bind_eq_ok] at h
    obtain ⟨rs', w₁, hloop, -⟩ := h
    exact absurd ((hrows w).mpr (canUpsert_of_forEach hloop)) hno

theorem acceptClear_statusStep (user : StatelessUser) (allAccess : List PersonClientAccess) :
    StatusStep none (acceptClear user allAccess).after := by
  intro w
  have hcache : CacheOnly (acceptClear user allAccess) :=
    (cacheOnly_forEach (fun _ => cacheOnly_clear ..) _).bind fun _ => cacheOnly_pure _
  exact staysFinal_of_eq (congrArg Db.invitations (hcache.db w))

theorem insertInvitations_statusStep (env : Env) (rows : List Invitation) :
    StatusStep none (insertInvitations env rows).after := by
  intro w
  rcases insertInvitations_step env rows w with hsame | happended
  · exact staysFinal_of_eq hsame
  · intro i hi _
    refine ⟨i, ?_, rfl, rfl⟩
    rw [← Table.mem_rows, happended]
    exact List.mem_append_left _ hi

/-! ## 4. The calls -/

theorem createBulk_statusSteps (cls : Cls) (env : Env) (dto : CreateInvitationsDto) :
    (StatusSteps.createBulk cls env dto).Every StatusStep := by
  refine (every_atomically (readOnly_statusStep ?_)).bind fun found =>
    (every_atomically (readOnly_statusStep (readOnly_query _))).bind fun roles =>
      (every_atomically (readOnly_statusStep ?_)).bind fun rows =>
        every_atomically (insertInvitations_statusStep env rows)
  · exact (readOnly_orRaise _ _).bind fun _ => (readOnly_requireAccessGrant cls).bind fun _ =>
      (readOnly_prismaBuild cls env {}).bind fun _ => (readOnly_query _).bind fun _ =>
        readOnly_pure _
  · refine (readOnly_forEach (fun _ => ?_) _).bind fun _ =>
      (readOnly_forEach (fun _ => readOnly_orRaise _ _) _).bind fun _ =>
        (readOnly_query _).bind fun _ => (readOnly_raiseIf _ _).bind fun _ => readOnly_pure _
    exact (readOnly_orRaise _ _).bind fun _ => readOnly_raiseIf _ _

theorem renew_statusSteps (cls : Cls) (env : Env) (id : String) (dto : RenewInvitationDto) :
    (StatusSteps.renew cls env id dto).Every StatusStep := by
  refine (every_atomically (readOnly_statusStep ?_)).bind fun _ =>
    (every_atomically (readOnly_statusStep ?_)).bind fun original =>
      (every_atomically (readOnly_statusStep ?_)).bind fun toReplace =>
        (every_atomically (renewRevoke_statusStep toReplace)).bind fun _ =>
          createBulk_statusSteps cls env (renewal original toReplace dto)
  · exact (readOnly_prismaBuild cls env {}).bind fun _ => (readOnly_query _).bind fun _ =>
      (readOnly_orRaise _ _).bind fun _ => readOnly_pure _
  · exact (readOnly_query _).bind fun _ => (readOnly_orRaise _ _).bind fun _ =>
      (readOnly_raiseIf _ _).bind fun _ => readOnly_pure _
  · exact (readOnly_query _).bind fun _ => (readOnly_raiseIf _ _).bind fun _ => readOnly_pure _

theorem revoke_statusSteps (cls : Cls) (env : Env) (id : String) :
    (StatusSteps.revoke cls env id).Every StatusStep := by
  refine (every_atomically (readOnly_statusStep ?_)).bind fun found =>
    every_atomically (revokeRows_statusStep found.1 id found.2.groupId)
  exact (readOnly_prismaBuild cls env {}).bind fun _ => (readOnly_query _).bind fun _ =>
    (readOnly_orRaise _ _).bind fun _ => (readOnly_raiseIf _ _).bind fun _ => readOnly_pure _

theorem accept_statusSteps (cfg : Config) (cls : Cls) (env : Env) (code : String) :
    (StatusSteps.accept cfg cls env code).Every StatusStep :=
  (every_atomically (readOnly_statusStep (readOnly_orRaise _ _))).bind fun user =>
    (every_atomically (readOnly_statusStep (readOnly_orRaise _ _))).bind fun person =>
      (every_atomically (readOnly_statusStep (readOnly_acceptFind cfg env person code))).bind
        fun _ => (every_atomically (readOnly_statusStep (readOnly_query _))).bind fun invs =>
          (every_atomically (readOnly_statusStep (readOnly_query _))).bind fun existing =>
            (every_atomically (acceptWrite_statusStep env person.id code existing invs)).bind
              fun rows => every_atomically (acceptClear_statusStep user rows)

def InvitationCall.statusSteps : InvitationCall → StatusSteps Unit
  | .createBulk cls env parsed => StatusSteps.createBulk cls env parsed.dto >>= fun _ => pure ()
  | .renew cls env id dto => StatusSteps.renew cls env id dto >>= fun _ => pure ()
  | .revoke cls env id => StatusSteps.revoke cls env id >>= fun _ => pure ()
  | .accept cfg cls env code => StatusSteps.accept cfg cls env code >>= fun _ => pure ()
  | .expireStale cls env => StatusSteps.expireStale cls env >>= fun _ => pure ()

theorem InvitationCall.statusSteps_every (call : InvitationCall) :
    call.statusSteps.Every StatusStep := by
  cases call with
  | createBulk cls env parsed =>
    exact (createBulk_statusSteps cls env parsed.dto).bind fun _ => every_pure _
  | renew cls env id dto => exact (renew_statusSteps cls env id dto).bind fun _ => every_pure _
  | revoke cls env id => exact (revoke_statusSteps cls env id).bind fun _ => every_pure _
  | accept cfg cls env code =>
    exact (accept_statusSteps cfg cls env code).bind fun _ => every_pure _
  | expireStale cls env =>
    exact (every_atomically (expireStale_statusStep cls env)).bind fun _ => every_pure _

/-! ## 5. Any interleaving -/

/-- Any number of calls on one store. -/
def statusPool {C : Type} (w : World) (calls : C → InvitationCall) :
    Pool C World (Option StatusWrite) ApiError Unit :=
  { store := w, process := fun c => (calls c).statusSteps }

section Runs

variable {C : Type} [DecidableEq C]

/-- In the run, a final status is the same ever after. -/
def FinalOnce (start : Pool C World (Option StatusWrite) ApiError Unit) (run : List C) : Prop :=
  ∀ u v, Earlier Pool.step start run u v → StaysFinal u.store v.store

/-- **The claim about a run:** final statuses stay, and no accept commits rows for an invitation
    that was revoked before. -/
structure StatusesFinal (start : Pool C World (Option StatusWrite) ApiError Unit)
    (run : List C) : Prop where
  once : FinalOnce start run
  noneRevoked : ∀ u v c personId invs, Earlier Pool.step start run u v →
    Fired Pool.step start run v c → v.tag? c = some (some (.accept personId invs)) →
      (StatusWrite.accept personId invs).GoesThrough v.store.db →
        ∀ i ∈ u.store.db.invitations, i.id ∈ invs.map (·.id) → i.status ≠ .revoked

/-- **When statuses are final:** exactly if every update by id that goes through finds none of its
    invitations final in the other way. -/
theorem statusesFinal_iff (w : World) (calls : C → InvitationCall) (run : List C) :
    StatusesFinal (statusPool w calls) run ↔
      ∀ u c sw, Fired Pool.step (statusPool w calls) run u c → u.tag? c = some (some sw) →
        sw.GoesThrough u.store.db → sw.Undisputed u.store.db := by
  have hevery : ∀ u c, Fired Pool.step (statusPool w calls) run u c →
      ∀ c, (u.process c).Every StatusStep := by
    intro u c hf
    exact hf.reached.invariant (I := fun u => ∀ c, (u.process c).Every StatusStep)
      (fun c => (calls c).statusSteps_every) fun u c _ hu => Pool.every_step hu c
  have hstep : FinalOnce (statusPool w calls) run ↔
      ∀ u c, Fired Pool.step (statusPool w calls) run u c →
        StaysFinal u.store (u.step c).store :=
    earlier_iff_fired (fun u => staysFinal_refl u.store) fun _ _ _ h h' => h.trans h'
  constructor
  · intro h u c sw hf htag hgoes
    have hstays := hstep.mp h.once u c hf
    rcases Pool.step_store (hevery u c hf) c with ⟨hnone, -⟩ | ⟨tag, write, htag', hq, hstore⟩
    · exact absurd (hnone.symm.trans htag) (by simp)
    · obtain rfl := Option.some.inj (htag.symm.trans htag')
      rw [hstore] at hstays
      exact ((hq u.store).1 hgoes).staysFinal_iff.mp hstays
  · intro hcond
    have honce : FinalOnce (statusPool w calls) run := by
      apply hstep.mpr
      intro u c hf
      rcases Pool.step_store (hevery u c hf) c with ⟨-, hstore⟩ | ⟨tag, write, htag, hq, hstore⟩
      · rw [hstore]
        exact staysFinal_refl _
      · rw [hstore]
        cases tag with
        | none => exact hq u.store
        | some sw =>
          by_cases hgoes : sw.GoesThrough u.store.db
          · exact ((hq u.store).1 hgoes).staysFinal_iff.mpr (hcond u c sw hf htag hgoes)
          · exact (hq u.store).2 hgoes
    refine ⟨honce, fun u v c personId invs huv hf htag hgoes i hi hid hrevoked => ?_⟩
    -- it is revoked still when the accept commits
    obtain ⟨j, hj, hjid, hjstatus⟩ := honce u v huv i hi (.inr hrevoked)
    rw [hrevoked] at hjstatus
    have haccepted := hcond v c _ hf htag hgoes j hj (by rw [hjid]; exact hid) (.inr hjstatus)
    rw [hjstatus] at haccepted
    exact absurd haccepted (by simp [StatusWrite.status])

end Runs

/-! ## 6. A revocation in the middle of an accept -/

def ivo : Person := { id := "ivo", firstName := "Ivo", lastName := "I.", email := "ivo@pit.org" }

def pit : World where
  db :=
    { clients := ⟨[{ id := "pit", externalId := "pit-inc" }], List.nodup_singleton _⟩
      sites := ⟨[{ id := "pit-1", externalId := "shaft", createdOn := 0, clientId := "pit" }],
        List.nodup_singleton _⟩
      roles := ⟨[{ id := "digger", name := "Digger", clientAssignable := true }],
        List.nodup_singleton _⟩
      persons := ⟨[ivo], List.nodup_singleton _⟩
      invitations := ⟨[{ id := "i1", code := "k1", clientId := "pit", createdById := "ivo",
                         email := "ivo@pit.org", roleId := "digger", siteId := "pit-1",
                         expiresOn := 9, createdOn := 0 }], List.nodup_singleton _⟩ }

def pitManager : Cls where
  user := some { idpId := "idp-una", email := "una@pit.org", username := "una" }
  person := some { id := "una", firstName := "Una", lastName := "U.", email := "una@pit.org" }
  accessGrant := some { roleId := "digger", scope := .client, capabilities := ["manage-users"],
                        clientId := "pit", siteId := "pit-1" }

/-- Ivo accepts what the manager revokes. -/
def acceptOrRevoke (accepting : Bool) : InvitationCall :=
  if accepting then
    .accept {} { user := some { idpId := "idp-ivo", email := "ivo@pit.org", username := "ivo" }
                 person := some ivo } {} "k1"
  else .revoke pitManager {} "i1"

/-- The accept has read everything; the invitation is revoked. -/
def readThenRevoked : List Bool := [true, true, true, true, true, false, false]

theorem readThenRevoked_rows :
    let revoked := readThenRevoked.foldl Pool.step (statusPool pit acceptOrRevoke)
    revoked.store.db.invitations.rows.map (fun i => (i.id, i.status)) = [("i1", .revoked)] ∧
      (revoked.step true).store.db.invitations.rows.map (fun i => (i.id, i.status)) =
        [("i1", .accepted)] ∧
      (revoked.step true).store.db.accesses.rows.map (·.key) =
        [⟨"ivo", "pit", "pit-1", "digger"⟩] := by
  decide

theorem revokedInvitation_accepted :
    ¬ StatusesFinal (statusPool pit acceptOrRevoke) (readThenRevoked ++ [true]) := by
  obtain ⟨hrevoked, haccepted, -⟩ := readThenRevoked_rows
  intro h
  obtain ⟨i, hi, hirow⟩ := List.mem_map.mp (hrevoked ▸ List.mem_singleton_self _)
  simp only [Prod.mk.injEq] at hirow
  obtain ⟨j, hj, hid, hstatus⟩ := h.once _ _ (earlier_foldl _ readThenRevoked [true]) i hi
    (.inr hirow.2)
  have hjrow := List.mem_map_of_mem (f := fun i : Invitation => (i.id, i.status)) hj
  rw [List.foldl_cons, List.foldl_nil, haccepted, List.mem_singleton] at hjrow
  rw [hirow.2, (Prod.mk.inj hjrow).2] at hstatus
  exact absurd hstatus (by simp)

end ShieldApi
