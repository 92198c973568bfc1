import ShieldApi.Clients.CreationChecks
import ShieldApi.Lib.Process

/-!
# Is there one pending invitation at most?

`createBulk` refuses to invite somebody who has a pending invitation to the same site and
role. It looks for one in a query, and inserts in a transaction **after** that query, which does not
look again; no index of the database does either. The calls here are processes, cut up at
their awaits, and `Pool` runs any number of them in any order of their steps.

A pending row comes into being at one step only, the insertion. `onePending` says what has to be
so there: no pending row has one of the keys to be inserted.
-/

set_option autoImplicit false

namespace ShieldApi

open Effect Process

namespace InvitationsService

/-! ## 1. The steps of a call -/

def renewAuthorize (cls : Cls) (env : Env) (id : String) : Api Unit := do
  let rls ← prismaBuild cls env {}
  let visible ← query fun w => (w.db.invitations.find? id).filter (rls.seesClient ·.clientId)
  let _ ← orRaise (as404OrThrow .recordNotFound) visible
  pure ()

def renewOriginal (id : String) : Api Invitation := do
  let found ← query (·.db.invitations.find? id)
  let original ← orRaise .recordNotFound found
  raiseIf (original.status ≠ .pending)
    (.badRequest
      (if original.status = .accepted then
        "This invitation has already been accepted and cannot be renewed."
      else "This invitation has been revoked. Create a new invitation instead."))
  pure original

def renewCollect (env : Env) (original : Invitation) : Api (List Invitation) := do
  let toReplace ← query fun w => pendingGroup env original w.db
  raiseIf toReplace.isEmpty (.badRequest "No renewable invitations found for this group.")
  pure toReplace

def renewRevoke (toReplace : List Invitation) : Api Unit :=
  updateInvitations (toReplace.map (·.id)) (.setStatus .revoked) (Invitation.id_setStatus _)

/-- The creation a renewal ends in. -/
def renewal (original : Invitation) (toReplace : List Invitation) (dto : RenewInvitationDto) :
    CreateInvitationsDto :=
  { clientId := some original.clientId
    expiresInDays := dto.expiresInDays
    invitations := toReplace.map fun r => ⟨r.email, r.siteId, r.roleId⟩ }

def revokeFind (cls : Cls) (env : Env) (id : String) : Api (Settings × Invitation) := do
  let rls ← prismaBuild cls env {}
  let found ← query fun w => (w.db.invitations.find? id).filter (rls.seesClient ·.clientId)
  let invitation ← orRaise (as404OrThrow .recordNotFound) found
  raiseIf (invitation.status = .accepted)
    (.badRequest "This invitation is already accepted and cannot be revoked.")
  pure (rls, invitation)

def acceptFind (cfg : Config) (env : Env) (person : Person) (code : String) : Api Invitation := do
  let found ← query (·.db.invitations.rows.find? (·.code = code))
  let invitation ← orRaise (.notFound "Invitation not found") found
  raiseIf (invitation.status = .revoked || invitation.status = .expired)
    (.gone "INVITATION_EXPIRED" "This invitation has expired")
  raiseIf (invitation.status = .accepted)
    (.gone "INVITATION_ALREADY_ACCEPTED" "This invitation has already been used")
  raiseIf (env.now > invitation.expiresOn)
    (.gone "INVITATION_EXPIRED" "This invitation has expired")
  raiseIf (cfg.toLowerCase person.email ≠ cfg.toLowerCase invitation.email)
    (.forbidden
      ("This invitation is restricted to a different email address. You are signed in with " ++
        person.email))
  pure invitation

/-- The writes of `accept`. -/
def acceptWrite (env : Env) (personId code : String)
    (existingPrimaryAccess : Option PersonClientAccess) (invitationsToAccept : List Invitation) :
    Api (List PersonClientAccess) := do
  let accessRecords ← forEach
    (acceptedRows env personId code existingPrimaryAccess invitationsToAccept)
    upsertWithPrimary
  updateInvitations (invitationsToAccept.map (·.id)) (.setAccepted personId env.now)
    (Invitation.id_setAccepted _ _)
  pure accessRecords

def acceptClear (user : StatelessUser) (allAccess : List PersonClientAccess) :
    Api (List PersonClientAccess) := do
  let _ ← forEach allAccess fun access =>
    clearAccessGrantResponseCache user.idpId access.clientId (some access.siteId) []
  pure allAccess

theorem readOnly_acceptFind (cfg : Config) (env : Env) (person : Person) (code : String) :
    (acceptFind cfg env person code).ReadOnly :=
  (readOnly_query _).bind fun _ => (readOnly_orRaise _ _).bind fun _ =>
    (readOnly_raiseIf _ _).bind fun _ => (readOnly_raiseIf _ _).bind fun _ =>
      (readOnly_raiseIf _ _).bind fun _ => (readOnly_raiseIf _ _).bind fun _ => readOnly_pure _

/-! ## 2. The calls as processes -/

/-- The rows a step is about to insert. -/
abbrev Insertion : Type := Option (List Invitation)

abbrev Steps (α : Type) : Type := Process World Insertion ApiError α

namespace Steps

def createBulk (cls : Cls) (env : Env) (dto : CreateInvitationsDto) :
    Steps (List Invitation) := do
  let rows ← atomically none (createBulkCheck cls env dto)
  atomically (some rows) (insertInvitations env rows)

def renew (cls : Cls) (env : Env) (id : String) (dto : RenewInvitationDto) :
    Steps (List Invitation) := do
  atomically none (renewAuthorize cls env id)
  let original ← atomically none (renewOriginal id)
  let toReplace ← atomically none (renewCollect env original)
  atomically none (renewRevoke toReplace)
  createBulk cls env (renewal original toReplace dto)

def revoke (cls : Cls) (env : Env) (id : String) : Steps (Option String × List String) := do
  let (rls, invitation) ← atomically none (revokeFind cls env id)
  atomically none (revokeRows rls id invitation.groupId)

def expireStale (cls : Cls) (env : Env) : Steps Nat :=
  atomically none (InvitationsService.expireStale cls env)

/-- What a transaction wrote is there for the others when it is over. -/
def accept (cfg : Config) (cls : Cls) (env : Env) (code : String) :
    Steps (List PersonClientAccess) := do
  let user ← atomically none cls.requireUser
  let person ← atomically none cls.requirePerson
  let invitation ← atomically none (acceptFind cfg env person code)
  let invitationsToAccept ← atomically none (query fun w => pendingGroup env invitation w.db)
  let existingPrimaryAccess ← atomically none (query fun w => findPrimaryAccess env person.id w.db)
  let allAccess ← atomically none
    (transaction (acceptWrite env person.id code existingPrimaryAccess invitationsToAccept))
  atomically none (acceptClear user allAccess)

/-! With nobody else around, the steps are the calls. -/

theorem createBulk_whole (cls : Cls) (env : Env) (dto : CreateInvitationsDto) :
    (createBulk cls env dto).whole = InvitationsService.createBulk cls env dto := by
  unfold createBulk
  rw [whole_bind, createBulk_eq]
  rfl

theorem renew_whole (cls : Cls) (env : Env) (id : String) (dto : RenewInvitationDto) :
    (renew cls env id dto).whole = InvitationsService.renew cls env id dto := by
  unfold renew InvitationsService.renew
  simp only [whole_bind, whole_atomically, createBulk_whole, renewAuthorize, renewOriginal,
    renewCollect, bind_bind]
  rfl

theorem revoke_whole (cls : Cls) (env : Env) (id : String) :
    (revoke cls env id).whole = InvitationsService.revoke cls env id := by
  unfold revoke InvitationsService.revoke
  simp only [whole_bind, whole_atomically, revokeFind, bind_bind]
  rfl

theorem accept_whole (cfg : Config) (cls : Cls) (env : Env) (code : String) :
    (accept cfg cls env code).whole = InvitationsService.accept cfg cls env code := by
  have htransaction : ∀ person : Person, transaction (acceptTransaction cfg env person code) = (do
      let invitation ← acceptFind cfg env person code
      let invitationsToAccept ← query fun w => pendingGroup env invitation w.db
      let existingPrimaryAccess ← query fun w => findPrimaryAccess env person.id w.db
      transaction (acceptWrite env person.id code existingPrimaryAccess invitationsToAccept)) := by
    intro person
    have hsteps : acceptTransaction cfg env person code =
        acceptFind cfg env person code >>= fun invitation =>
          (query fun w => pendingGroup env invitation w.db) >>= fun invitationsToAccept =>
            (query fun w => findPrimaryAccess env person.id w.db) >>= fun existingPrimaryAccess =>
              acceptWrite env person.id code existingPrimaryAccess invitationsToAccept := by
      unfold acceptTransaction acceptFind
      simp only [bind_bind]
      rfl
    rw [hsteps, (readOnly_acceptFind cfg env person code).transaction_bind]
    simp only [(readOnly_query _).transaction_bind]
  unfold accept InvitationsService.accept
  simp only [whole_bind, whole_atomically, htransaction, bind_bind]
  rfl

end Steps

end InvitationsService

open InvitationsService

/-! ## 3. One pending invitation -/

/-- What there is to be one of. -/
def Invitation.tuple (i : Invitation) : String × String × String × String :=
  (i.clientId, i.email, i.siteId, i.roleId)

/-- **No two pending invitations are to the same client, email, site and role.** -/
def OnePending (db : Db) : Prop :=
  ∀ i ∈ db.invitations, ∀ j ∈ db.invitations, i.status = .pending → j.status = .pending →
    i.tuple = j.tuple → i = j

/-- Nobody is pending where the rows are going to be, and they are not in each other's way. -/
structure Vacant (db : Db) (rows : List Invitation) : Prop where
  free : ∀ r ∈ rows, ∀ i ∈ db.invitations, i.status = .pending → i.tuple ≠ r.tuple
  distinct : (rows.map Invitation.tuple).Nodup

/-- What is pending was pending. -/
def StaysPending (w w' : World) : Prop :=
  ∀ i ∈ w'.db.invitations, i.status = .pending → i ∈ w.db.invitations

/-- **What a step does to the invitations:** it inserts the rows it announced, or none; a step
    that announced none makes nothing pending. -/
def InvitationStep : Insertion → (World → World) → Prop
  | none, write => ∀ w, StaysPending w (write w)
  | some rows, write => ∀ w, (write w).db.invitations = w.db.invitations ∨
      (write w).db.invitations.rows = w.db.invitations.rows ++ rows

theorem OnePending.of_staysPending {w w' : World} (h : OnePending w.db) (hs : StaysPending w w') :
    OnePending w'.db :=
  fun i hi j hj hip hjp => h i (hs i hi hip) j (hs j hj hjp) hip hjp

theorem OnePending.append {db db' : Db} {rows : List Invitation} (h : OnePending db)
    (hrows : db'.invitations.rows = db.invitations.rows ++ rows) (hv : Vacant db rows) :
    OnePending db' := by
  have hmem : ∀ i ∈ db'.invitations, i ∈ db.invitations ∨ i ∈ rows := by
    intro i hi
    rw [← Table.mem_rows, hrows] at hi
    exact List.mem_append.mp hi
  intro i hi j hj hip hjp heq
  rcases hmem i hi with hiold | hinew
  · rcases hmem j hj with hjold | hjnew
    · exact h i hiold j hjold hip hjp heq
    · exact absurd heq (hv.free j hjnew i hiold hip)
  · rcases hmem j hj with hjold | hjnew
    · exact absurd heq.symm (hv.free i hinew j hjold hjp)
    · exact List.inj_on_of_nodup_map hv.distinct hinew hjnew heq

/-- Every step keeps it where the rows it announced find their places vacant. -/
theorem InvitationStep.keeps {tag : Insertion} {write : World → World} {w : World}
    (hstep : InvitationStep tag write) (hcond : ∀ rows, tag = some rows → Vacant w.db rows)
    (h : OnePending w.db) : OnePending (write w).db := by
  cases tag with
  | none => exact h.of_staysPending (hstep w)
  | some rows =>
    rcases hstep w with hsame | hrows
    · unfold OnePending
      rw [hsame]
      exact h
    · exact h.append hrows (hcond rows rfl)

/-! ## 4. The steps of the calls -/

theorem staysPending_of_eq {w w' : World} (h : w'.db.invitations = w.db.invitations) :
    StaysPending w w' := by
  intro i hi _
  rw [← h]
  exact hi

theorem readOnly_step {α : Type} {x : Api α} (hx : x.ReadOnly) : InvitationStep none x.after := by
  intro w
  rw [hx w]
  exact staysPending_of_eq rfl

/-- An update that makes rows something else than pending. -/
theorem staysPending_updateMany {w : World} {p : Invitation → Bool} {f : Invitation → Invitation}
    (hf : ∀ i, (f i).id = i.id) (hpending : ∀ i, (f i).status ≠ .pending) :
    StaysPending w (w.withInvitations (w.db.invitations.updateMany p f hf)) := by
  intro i hi hip
  have hrows : ∀ i ∈ w.db.invitations.updateMany p f hf, ∃ j ∈ w.db.invitations,
      (if p j then f j else j) = i := fun _ hi => Table.mem_updateMany.mp hi
  obtain ⟨j, hj, rfl⟩ := hrows i hi
  split at hip
  · exact absurd hip (hpending j)
  · next hp =>
    rw [if_neg hp]
    exact hj

theorem setStatus_not_pending (i : Invitation) : (i.setStatus .revoked).status ≠ .pending := by
  simp [Invitation.setStatus]

theorem renewRevoke_step (toReplace : List Invitation) :
    InvitationStep none (renewRevoke toReplace).after :=
  fun _ => staysPending_updateMany (Invitation.id_setStatus _) setStatus_not_pending

theorem revokeRows_step (rls : Settings) (id : String) (groupId : Option String) :
    InvitationStep none (revokeRows rls id groupId).after := by
  intro w
  unfold revokeRows
  cases truthy groupId with
  | some g => exact staysPending_updateMany (Invitation.id_setStatus _) setStatus_not_pending
  | none =>
    simp only
    rcases (atomic_attempt _).cases w with h | ⟨_, h⟩
    · rw [h]
      exact staysPending_of_eq rfl
    · rw [attempt_eq_ok] at h
      split at h
      · exact absurd h (by simp)
      · rw [← (Prod.mk.inj (Except.ok.inj h)).2]
        exact staysPending_updateMany (Invitation.id_setStatus _) setStatus_not_pending

theorem expireStale_step (cls : Cls) (env : Env) :
    InvitationStep none (InvitationsService.expireStale cls env).after := by
  intro w
  refine ReadOnly.leaves_bind (I := StaysPending w) (readOnly_prismaBuild cls env {})
    (staysPending_of_eq rfl) fun rls _ => ?_
  exact staysPending_updateMany (Invitation.id_setStatus _) setStatus_not_pending

theorem acceptWrite_step (env : Env) (personId code : String)
    (existing : Option PersonClientAccess) (invs : List Invitation) :
    InvitationStep none (transaction (acceptWrite env personId code existing invs)).after := by
  intro w
  apply leaves_transaction (I := StaysPending w) (staysPending_of_eq rfl)
  intro rs w' h
  unfold acceptWrite at h
  rw [bind_eq_ok] at h
  obtain ⟨rs', w₁, hloop, h⟩ := h
  have hkept : w₁.db.invitations = w.db.invitations := by
    refine forEach_ok_keeps (I := fun u => u.db.invitations = w.db.invitations) hloop
      (fun a _ u hu => atomic_upsertAccess.leaves hu fun r u' hr => ?_) rfl
    obtain ⟨⟨t, rfl⟩, -, -⟩ := upsertWithPrimary_flag hr
    exact hu
  obtain ⟨-, rfl⟩ := Prod.mk.inj h
  intro i hi hip
  rw [← hkept]
  exact staysPending_updateMany (w := w₁) (Invitation.id_setAccepted _ _)
    (fun i => by simp [Invitation.setAccepted]) i hi hip

theorem acceptClear_step (user : StatelessUser) (allAccess : List PersonClientAccess) :
    InvitationStep none (acceptClear user allAccess).after := by
  intro w
  have hcache : CacheOnly (acceptClear user allAccess) :=
    (cacheOnly_forEach (fun _ => cacheOnly_clear ..) _).bind fun _ => cacheOnly_pure _
  exact staysPending_of_eq (congrArg Db.invitations (hcache.db w))

theorem insertInvitations_step (env : Env) (rows : List Invitation) :
    InvitationStep (some rows) (insertInvitations env rows).after := by
  intro w
  refine leaves_transaction (I := fun u : World => u.db.invitations = w.db.invitations ∨
    u.db.invitations.rows = w.db.invitations.rows ++ rows) (.inl rfl) fun rs w' h => .inr ?_
  rw [bind_eq_ok] at h
  obtain ⟨created, w₁, hloop, h⟩ := h
  obtain ⟨-, rfl⟩ := Prod.mk.inj h
  exact forEach_createInvitation_rows hloop

/-! ## 5. The check, at its moment -/

/-- The entries `createInvitationsSchema` tells apart. -/
def entryKey (i : InvitationInput) : String := i.email ++ ":" ++ i.siteId ++ ":" ++ i.roleId

/-- What the schema lets through: no entry twice. -/
structure ParsedInvitations where
  dto : CreateInvitationsDto
  distinct : (dto.invitations.map entryKey).Nodup

theorem createData_tuples (env : Env) (person : Person) (targetClientId : String)
    (dto : CreateInvitationsDto) :
    (createData env person targetClientId dto).map Invitation.tuple =
      dto.invitations.map fun inv => (targetClientId, inv.email, inv.siteId, inv.roleId) := by
  unfold createData
  rw [List.map_map]
  conv_rhs => rw [← List.zipIdx_map_fst 0 dto.invitations, List.map_map]
  rfl

/-- Entries with different keys are different. -/
theorem ParsedInvitations.distinct_tuples (parsed : ParsedInvitations) (env : Env) (person : Person)
    (targetClientId : String) :
    ((createData env person targetClientId parsed.dto).map Invitation.tuple).Nodup := by
  rw [createData_tuples]
  refine List.Nodup.of_map (fun t => t.2.1 ++ ":" ++ t.2.2.1 ++ ":" ++ t.2.2.2) ?_
  rw [List.map_map]
  exact parsed.distinct

/-- **When the check lets a creation pass, the places it is about to take are vacant.** -/
theorem createBulkCheck_vacant {cls : Cls} {env : Env} {parsed : ParsedInvitations} {w w' : World}
    {rows : List Invitation}
    (h : (createBulkCheck cls env parsed.dto).run w = (.ok rows, w')) : Vacant w.db rows := by
  obtain ⟨person, grant, rls, -, -, -, -, -, hnone, rfl, -⟩ := createBulkCheck_iff.mp h
  refine ⟨fun r hr i hi hip heq => ?_, parsed.distinct_tuples ..⟩
  -- the entry of the row would have been among the conflicts
  have htuple : r.tuple ∈ (createData env person (parsed.dto.target grant) parsed.dto).map
      Invitation.tuple := List.mem_map_of_mem hr
  rw [createData_tuples] at htuple
  obtain ⟨inv, hinv, hkey⟩ := List.mem_map.mp htuple
  rw [← heq] at hkey
  obtain ⟨hclient, hemail, hsite, hrole⟩ : _ ∧ _ ∧ _ ∧ _ := by
    simpa only [Invitation.tuple, Prod.mk.injEq] using hkey
  refine hnone inv hinv i hi ⟨hclient.symm, hip, ?_, ?_, ?_, by rw [hemail, hsite, hrole]⟩
  · exact hemail ▸ List.mem_map_of_mem hinv
  · exact hsite ▸ List.mem_map_of_mem hinv
  · exact hrole ▸ List.mem_map_of_mem hinv

/-- Run on its own, `createBulk` keeps what it checks. -/
theorem createBulk_onePending (cls : Cls) (env : Env) (parsed : ParsedInvitations) {w : World}
    (h : OnePending w.db) :
    (createBulk cls env parsed.dto).Leaves (fun w' => OnePending w'.db) w := by
  rw [createBulk_eq]
  apply (readOnly_createBulkCheck cls env parsed.dto).leaves_bind h
  intro rows hcheck
  exact (insertInvitations_step env rows).keeps
    (fun rows' hrows => Option.some.inj hrows ▸ createBulkCheck_vacant hcheck) h

/-! ## 6. Any interleaving -/

inductive InvitationCall
  | createBulk (cls : Cls) (env : Env) (parsed : ParsedInvitations)
  | renew (cls : Cls) (env : Env) (id : String) (dto : RenewInvitationDto)
  | revoke (cls : Cls) (env : Env) (id : String)
  | accept (cfg : Config) (cls : Cls) (env : Env) (code : String)
  | expireStale (cls : Cls) (env : Env)

def InvitationCall.steps : InvitationCall → Steps Unit
  | .createBulk cls env parsed => Steps.createBulk cls env parsed.dto >>= fun _ => pure ()
  | .renew cls env id dto => Steps.renew cls env id dto >>= fun _ => pure ()
  | .revoke cls env id => Steps.revoke cls env id >>= fun _ => pure ()
  | .accept cfg cls env code => Steps.accept cfg cls env code >>= fun _ => pure ()
  | .expireStale cls env => Steps.expireStale cls env >>= fun _ => pure ()

theorem createBulk_steps (cls : Cls) (env : Env) (dto : CreateInvitationsDto) :
    (Steps.createBulk cls env dto).Every InvitationStep :=
  (every_atomically (readOnly_step (readOnly_createBulkCheck cls env dto))).bind fun rows =>
    every_atomically (insertInvitations_step env rows)

theorem renew_steps (cls : Cls) (env : Env) (id : String) (dto : RenewInvitationDto) :
    (Steps.renew cls env id dto).Every InvitationStep := by
  refine (every_atomically (readOnly_step ?_)).bind fun _ =>
    (every_atomically (readOnly_step ?_)).bind fun original =>
      (every_atomically (readOnly_step ?_)).bind fun toReplace =>
        (every_atomically (renewRevoke_step toReplace)).bind fun _ =>
          createBulk_steps cls env (renewal original toReplace dto)
  · exact (readOnly_prismaBuild cls env {}).bind fun _ => (readOnly_query _).bind fun _ =>
      (readOnly_orRaise _ _).bind fun _ => readOnly_pure _
  · exact (readOnly_query _).bind fun _ => (readOnly_orRaise _ _).bind fun _ =>
      (readOnly_raiseIf _ _).bind fun _ => readOnly_pure _
  · exact (readOnly_query _).bind fun _ => (readOnly_raiseIf _ _).bind fun _ => readOnly_pure _

theorem revoke_steps (cls : Cls) (env : Env) (id : String) :
    (Steps.revoke cls env id).Every InvitationStep := by
  refine (every_atomically (readOnly_step ?_)).bind fun found =>
    every_atomically (revokeRows_step found.1 id found.2.groupId)
  exact (readOnly_prismaBuild cls env {}).bind fun _ => (readOnly_query _).bind fun _ =>
    (readOnly_orRaise _ _).bind fun _ => (readOnly_raiseIf _ _).bind fun _ => readOnly_pure _

theorem accept_steps (cfg : Config) (cls : Cls) (env : Env) (code : String) :
    (Steps.accept cfg cls env code).Every InvitationStep :=
  (every_atomically (readOnly_step (readOnly_orRaise _ _))).bind fun user =>
    (every_atomically (readOnly_step (readOnly_orRaise _ _))).bind fun person =>
      (every_atomically (readOnly_step (readOnly_acceptFind cfg env person code))).bind fun _ =>
        (every_atomically (readOnly_step (readOnly_query _))).bind fun invs =>
          (every_atomically (readOnly_step (readOnly_query _))).bind fun existing =>
            (every_atomically (acceptWrite_step env person.id code existing invs)).bind fun rows =>
              every_atomically (acceptClear_step user rows)

theorem InvitationCall.steps_every (call : InvitationCall) :
    call.steps.Every InvitationStep := by
  cases call with
  | createBulk cls env parsed =>
    exact (createBulk_steps cls env parsed.dto).bind fun _ => every_pure _
  | renew cls env id dto => exact (renew_steps cls env id dto).bind fun _ => every_pure _
  | revoke cls env id => exact (revoke_steps cls env id).bind fun _ => every_pure _
  | accept cfg cls env code => exact (accept_steps cfg cls env code).bind fun _ => every_pure _
  | expireStale cls env =>
    exact (every_atomically (expireStale_step cls env)).bind fun _ => every_pure _

/-- Any number of calls on one store. -/
def invitationPool {C : Type} (w : World) (calls : C → InvitationCall) :
    Pool C World Insertion ApiError Unit :=
  { store := w, process := fun c => (calls c).steps }

/-- **When there is one pending invitation at most:** if every insertion of the run finds its places
    vacant. -/
theorem onePending {C : Type} [DecidableEq C] {w : World} (hstart : OnePending w.db)
    (calls : C → InvitationCall) {run : List C}
    (hcond : ∀ u c rows, Fired Pool.step (invitationPool w calls) run u c →
      u.tag? c = some (some rows) → Vacant u.store.db rows) :
    ∀ u, Reached Pool.step (invitationPool w calls) run u → OnePending u.store.db := by
  have hkeep : ∀ tag write (v : World), InvitationStep tag write →
      (∀ rows, tag = some rows → Vacant v.db rows) → OnePending v.db → OnePending (write v).db :=
    fun tag write v hstep hv h => hstep.keeps hv h
  refine Pool.invariant hkeep (fun c => (calls c).steps_every) hstart
    fun u c tag hf htag rows hrows => ?_
  exact hcond u c rows hf (htag.trans (congrArg some hrows))

/-! ## 7. Two managers invite one person -/

def inviter : Cls where
  user := some { idpId := "idp-ann", email := "ann@cogs.org", username := "ann" }
  person := some { id := "ann", firstName := "Ann", lastName := "A.", email := "ann@cogs.org" }
  accessGrant := some { roleId := "admin", scope := .client, capabilities := ["manage-users"],
                        clientId := "cogs", siteId := "cogs-1" }

def cogs : World where
  db :=
    { clients := ⟨[{ id := "cogs", externalId := "cogs-inc" }], List.nodup_singleton _⟩
      sites := ⟨[{ id := "cogs-1", externalId := "hq", createdOn := 0, clientId := "cogs" }],
        List.nodup_singleton _⟩
      roles := ⟨[{ id := "viewer", name := "Viewer", clientAssignable := true }],
        List.nodup_singleton _⟩
      persons := ⟨[{ id := "ann", firstName := "Ann", lastName := "A.", email := "ann@cogs.org" }],
        List.nodup_singleton _⟩ }

def inviteZoe : ParsedInvitations where
  dto := { invitations := [{ email := "zoe@x.org", siteId := "cogs-1", roleId := "viewer" }] }
  distinct := List.nodup_singleton _

/-- The two calls draw different ids and codes. -/
def invitingEnv (call : Bool) : Env where
  cuid n := (if call then "a" else "b") ++ toString n
  nanoid n := (if call then "c" else "d") ++ toString n

def bothInvite (call : Bool) : InvitationCall := .createBulk inviter (invitingEnv call) inviteZoe

/-- Both look, and then both insert. -/
def lookThenInsert : List Bool := [true, false, true, false]

theorem lookThenInsert_rows :
    ((lookThenInsert.foldl Pool.step (invitationPool cogs bothInvite)).store.db.invitations.rows.map
      fun i => (i.id, i.status, i.tuple)) =
      [("a0", .pending, "cogs", "zoe@x.org", "cogs-1", "viewer"),
        ("b0", .pending, "cogs", "zoe@x.org", "cogs-1", "viewer")] := by
  decide

theorem bothInvite_twice :
    ∃ u, Reached Pool.step (invitationPool cogs bothInvite) lookThenInsert u ∧
      ¬ OnePending u.store.db := by
  refine ⟨_, reached_end _ _, fun h => ?_⟩
  have hrows := lookThenInsert_rows
  obtain ⟨i, hi, hfirst⟩ := List.mem_map.mp (hrows ▸ List.mem_cons_self ..)
  obtain ⟨j, hj, hsecond⟩ := List.mem_map.mp
    (hrows ▸ List.mem_cons_of_mem _ (List.mem_singleton_self _))
  simp only [Prod.mk.injEq] at hfirst hsecond
  have hsame := h i hi j hj hfirst.2.1 hsecond.2.1 (hfirst.2.2.trans hsecond.2.2.symm)
  rw [hsame, hsecond.1] at hfirst
  exact absurd hfirst.1 (by decide)

/-- One looks and inserts. -/
theorem oneInvites_once :
    OnePending ([true, true].foldl Pool.step (invitationPool cogs bothInvite)).store.db := by
  refine onePending (fun i hi => absurd hi List.not_mem_nil) bothInvite
    (fun u c rows hf htag => ?_) _ (reached_end _ [true, true])
  simp only [Fired, or_false] at hf
  rcases hf with ⟨hu, hc⟩ | ⟨hu, hc⟩
  · subst hu hc
    exact absurd (Option.some.inj htag) (by simp)
  · subst hu hc
    obtain rfl := Option.some.inj (Option.some.inj htag)
    exact ⟨fun r _ i hi => absurd hi List.not_mem_nil, List.nodup_singleton _⟩

end ShieldApi
