import ShieldApi.Clients.PendingInvitations

/-!
# What a group of invitations has in common

`accept` looks at one invitation, the clicked one: is it live, is it addressed to who
accepts? Then it accepts **every pending invitation of its group**. So the two questions have
to have one answer for a whole group, and the answer is given where groups come into being: a
group is the entries of one `createBulk` with one email, under an id `nanoid` drew for it. Nothing
else writes a group id, and no call changes anything about an invitation but its status and who
accepted it.

`nanoid` is a library. What is used of it is that it does not draw a string twice
(`DrawsOnce`).
-/

set_option autoImplicit false

namespace ShieldApi

open Effect InvitationsService

/-! ## 1. The groups -/

/-- What is asked of two invitations of one group. -/
structure Together (i j : Invitation) : Prop where
  clientId : i.clientId = j.clientId
  email : i.email = j.email
  createdById : i.createdById = j.createdById
  expiresOn : i.expiresOn = j.expiresOn

/-- **Invitations that share a group id go together.** -/
def GroupsCoherent (is : List Invitation) : Prop :=
  ∀ i ∈ is, ∀ j ∈ is, ∀ g, i.groupId = some g → j.groupId = some g → Together i j

/-- All of an invitation but its status and who accepted it. -/
def Invitation.face (i : Invitation) : Invitation :=
  { i with status := .pending, acceptedById := none, acceptedOn := none }

@[simp] theorem Invitation.face_setStatus (status : InvitationStatus) (i : Invitation) :
    (i.setStatus status).face = i.face := rfl

@[simp] theorem Invitation.face_setAccepted (acceptedById : String) (acceptedOn : Nat)
    (i : Invitation) : (i.setAccepted acceptedById acceptedOn).face = i.face := rfl

theorem groupId_of_face {i j : Invitation} (h : i.face = j.face) : i.groupId = j.groupId :=
  show i.face.groupId = j.face.groupId from congrArg Invitation.groupId h

theorem Together.of_face {i j i' j' : Invitation} (h : Together i' j') (hi : i.face = i'.face)
    (hj : j.face = j'.face) : Together i j where
  clientId := (congrArg Invitation.clientId hi).trans
    (h.clientId.trans (congrArg Invitation.clientId hj).symm)
  email := (congrArg Invitation.email hi).trans
    (h.email.trans (congrArg Invitation.email hj).symm)
  createdById := (congrArg Invitation.createdById hi).trans
    (h.createdById.trans (congrArg Invitation.createdById hj).symm)
  expiresOn := (congrArg Invitation.expiresOn hi).trans
    (h.expiresOn.trans (congrArg Invitation.expiresOn hj).symm)

/-- The rows of one `createBulk`: their groups are coherent, and drawn in this call. -/
structure Batch (env : Env) (rows : List Invitation) : Prop where
  coherent : GroupsCoherent rows
  drawn : ∀ i ∈ rows, ∀ g, i.groupId = some g → ∃ n, env.nanoid n = g

/-- **What a call does to the invitations**, but for their statuses: it adds a batch. -/
def Extends (env : Env) (w w' : World) : Prop :=
  ∃ rows, Batch env rows ∧
    ∀ i ∈ w'.db.invitations, (∃ j ∈ w.db.invitations, i.face = j.face) ∨ i ∈ rows

theorem batch_nil (env : Env) : Batch env [] :=
  ⟨fun _ hi => (nomatch hi), fun _ hi => (nomatch hi)⟩

/-- Every invitation has the face of one there was before. -/
def SameFaces (w w' : World) : Prop :=
  ∀ i ∈ w'.db.invitations, ∃ j ∈ w.db.invitations, i.face = j.face

theorem SameFaces.extends {w w' : World} (h : SameFaces w w') (env : Env) : Extends env w w' :=
  ⟨[], batch_nil env, fun i hi => .inl (h i hi)⟩

theorem sameFaces_of_eq {w w' : World} (h : w'.db.invitations = w.db.invitations) :
    SameFaces w w' :=
  fun i hi => ⟨i, h ▸ hi, rfl⟩

theorem SameFaces.then_extends {env : Env} {w w' w'' : World} (h : SameFaces w w')
    (h' : Extends env w' w'') : Extends env w w'' := by
  obtain ⟨rows, hbatch, hrows⟩ := h'
  refine ⟨rows, hbatch, fun i hi => ?_⟩
  rcases hrows i hi with ⟨j, hj, hij⟩ | hnew
  · obtain ⟨k, hk, hjk⟩ := h j hj
    exact .inl ⟨k, hk, hij.trans hjk⟩
  · exact .inr hnew

theorem sameFaces_updateMany {w : World} {p : Invitation → Bool} {f : Invitation → Invitation}
    (hf : ∀ i, (f i).id = i.id) (hface : ∀ i, (f i).face = i.face) :
    SameFaces w (w.withInvitations (w.db.invitations.updateMany p f hf)) := by
  intro i hi
  have hrows : ∀ i ∈ w.db.invitations.updateMany p f hf, ∃ j ∈ w.db.invitations,
      (if p j then f j else j) = i := fun _ hi => Table.mem_updateMany.mp hi
  obtain ⟨j, hj, rfl⟩ := hrows i hi
  refine ⟨j, hj, ?_⟩
  split
  · exact hface j
  · rfl

/-- Coherence outlives a call that draws no group id there is. -/
theorem Extends.coherent {env : Env} {w w' : World} (h : Extends env w w')
    (hw : GroupsCoherent w.db.invitations.rows)
    (hnew : ∀ i ∈ w.db.invitations, ∀ n, i.groupId ≠ some (env.nanoid n)) :
    GroupsCoherent w'.db.invitations.rows := by
  obtain ⟨rows, hbatch, hrows⟩ := h
  intro i hi j hj g hig hjg
  rcases hrows i hi with ⟨i', hi', hface⟩ | hirow
  · rcases hrows j hj with ⟨j', hj', hface'⟩ | hjrow
    · rw [groupId_of_face hface] at hig
      rw [groupId_of_face hface'] at hjg
      exact (hw i' hi' j' hj' g hig hjg).of_face hface hface'
    · obtain ⟨n, rfl⟩ := hbatch.drawn j hjrow g hjg
      exact absurd ((groupId_of_face hface).symm.trans hig) (hnew i' hi' n)
  · rcases hrows j hj with ⟨j', hj', hface'⟩ | hjrow
    · obtain ⟨n, rfl⟩ := hbatch.drawn i hirow g hig
      exact absurd ((groupId_of_face hface').symm.trans hjg) (hnew j' hj' n)
    · exact hbatch.coherent i hirow j hjrow g hig hjg

/-! ## 2. The calls -/

theorem createData_batch {env : Env} (hnanoid : Function.Injective env.nanoid) (person : Person)
    (targetClientId : String) (dto : CreateInvitationsDto) :
    Batch env (createData env person targetClientId dto) := by
  have hrow : ∀ i ∈ createData env person targetClientId dto, ∀ g, i.groupId = some g →
      (i.clientId = targetClientId ∧ i.createdById = person.id ∧
        i.expiresOn = env.now + dto.expiresInDays.getD 7 * 24 * 60 * 60 * 1000) ∧
      i.email ∈ groupedEmails dto.invitations ∧
        env.nanoid ((groupedEmails dto.invitations).idxOf i.email) = g := by
    intro i hi g hg
    unfold createData at hi
    obtain ⟨⟨inv, n⟩, -, rfl⟩ := List.mem_map.mp hi
    simp only [Option.ite_none_right_eq_some, Option.some.injEq] at hg
    exact ⟨⟨rfl, rfl, rfl⟩, hg⟩
  constructor
  · intro i hi j hj g hig hjg
    obtain ⟨⟨hclient, hcreator, hexpires⟩, hmem, hdraw⟩ := hrow i hi g hig
    obtain ⟨⟨hclient', hcreator', hexpires'⟩, -, hdraw'⟩ := hrow j hj g hjg
    have hemail : i.email = j.email :=
      (List.idxOf_inj hmem).mp (hnanoid (hdraw.trans hdraw'.symm))
    exact ⟨hclient.trans hclient'.symm, hemail, hcreator.trans hcreator'.symm,
      hexpires.trans hexpires'.symm⟩
  · intro i hi g hg
    exact ⟨_, (hrow i hi g hg).2.2⟩

theorem createBulk_extends {cls : Cls} {env : Env} (hnanoid : Function.Injective env.nanoid)
    (dto : CreateInvitationsDto) (w : World) :
    (createBulk cls env dto).Leaves (Extends env w) w := by
  have hsame : Extends env w w := (sameFaces_of_eq rfl).extends env
  rw [createBulk_eq]
  apply (readOnly_createBulkCheck cls env dto).leaves_bind hsame
  intro rows hcheck
  obtain ⟨person, grant, rls, -, -, -, -, -, -, rfl, -⟩ := createBulkCheck_iff.mp hcheck
  rcases insertInvitations_step env _ w with hkept | hrows
  · exact (sameFaces_of_eq hkept).extends env
  · refine ⟨_, createData_batch hnanoid person (dto.target grant) dto, fun i hi => ?_⟩
    rw [← Table.mem_rows, hrows] at hi
    rcases List.mem_append.mp hi with hold | hnew
    · exact .inl ⟨i, hold, rfl⟩
    · exact .inr hnew

theorem renew_extends {cls : Cls} {env : Env} (hnanoid : Function.Injective env.nanoid)
    (id : String) (dto : RenewInvitationDto) (w : World) :
    (renew cls env id dto).Leaves (Extends env w) w := by
  have hsame : Extends env w w := (sameFaces_of_eq rfl).extends env
  -- the old rows keep their faces, and the creation adds the batch
  apply renew_leaves hsame
  intro ids created
  exact (sameFaces_updateMany (Invitation.id_setStatus _) (fun _ => rfl)).then_extends
    (createBulk_extends hnanoid created _)

theorem revoke_extends (cls : Cls) (env : Env) (id : String) (w : World) :
    (revoke cls env id).Leaves (Extends env w) w := by
  have hsame : Extends env w w := (sameFaces_of_eq rfl).extends env
  unfold revoke
  apply (readOnly_prismaBuild cls env {}).leaves_bind hsame
  intro rls _
  apply (readOnly_query _).leaves_bind hsame
  intro found _
  apply (readOnly_orRaise _ _).leaves_bind hsame
  intro invitation _
  apply (readOnly_raiseIf _ _).leaves_bind hsame
  intro _ _
  unfold revokeRows
  cases truthy invitation.groupId with
  | some g =>
    apply (atomic_attempt _).leaves hsame
    intro r w' h
    obtain ⟨-, rfl⟩ := Prod.mk.inj (Except.ok.inj (attempt_eq_ok.mp h))
    exact (sameFaces_updateMany (Invitation.id_setStatus _) fun _ => rfl).extends env
  | none =>
    apply (atomic_attempt _).leaves hsame
    intro r w' h
    rw [attempt_eq_ok] at h
    split at h
    · exact absurd h (by simp)
    · obtain ⟨-, rfl⟩ := Prod.mk.inj (Except.ok.inj h)
      exact (sameFaces_updateMany (Invitation.id_setStatus _) fun _ => rfl).extends env

theorem expireStale_extends (cls : Cls) (env : Env) (w : World) :
    (expireStale cls env).Leaves (Extends env w) w := by
  have hsame : Extends env w w := (sameFaces_of_eq rfl).extends env
  unfold expireStale
  apply (readOnly_prismaBuild cls env {}).leaves_bind hsame
  intro rls _
  apply (atomic_attempt _).leaves hsame
  intro r w' h
  obtain ⟨-, rfl⟩ := Prod.mk.inj (Except.ok.inj (attempt_eq_ok.mp h))
  exact (sameFaces_updateMany (Invitation.id_setStatus _) fun _ => rfl).extends env

theorem accept_extends (cfg : Config) (cls : Cls) (env : Env) (code : String) (w : World) :
    (accept cfg cls env code).Leaves (Extends env w) w := by
  rcases accept_spec cfg cls env code w with ⟨inv, person, -, hinto⟩ | ⟨-, hsame⟩
  · obtain ⟨t, ht⟩ := hinto.tables
    have hfaces := sameFaces_updateMany (w := w)
      (p := fun i => ((pendingGroup env inv w.db).map (·.id)).contains i.id)
      (Invitation.id_setAccepted person.id env.now) (fun _ => rfl)
    refine SameFaces.extends (fun i hi => hfaces i ?_) env
    rw [ht] at hi
    exact hi
  · exact (sameFaces_of_eq (congrArg Db.invitations hsame)).extends env

/-! ## 3. What an accept takes -/

/-- The invitations a call has marked accepted. -/
structure NewlyAccepted (db db' : Db) (i : Invitation) : Prop where
  here : i ∈ db'.invitations
  changed : i ∉ db.invitations
  accepted : i.status = .accepted

/-- **What `accept(code)` is to do for `person`:** take live invitations addressed to that person,
    the clicked one among them, and make a row for each, and no other change among the rows. -/
structure AcceptedExactly (cfg : Config) (env : Env) (person : Person) (code : String)
    (db db' : Db) : Prop where
  clicked : ∃ i, NewlyAccepted db db' i ∧ i.code = code
  live : ∀ i, NewlyAccepted db db' i → ∃ j ∈ db.invitations, j.id = i.id ∧ j.status = .pending ∧
    env.now ≤ j.expiresOn ∧ cfg.toLowerCase j.email = cfg.toLowerCase person.email
  oneRow : ∀ i, NewlyAccepted db db' i →
    ∃! a, a ∈ db'.accesses ∧ a.key = ⟨person.id, i.clientId, i.siteId, i.roleId⟩
  others : ∀ k, (∀ i, NewlyAccepted db db' i → k ≠ ⟨person.id, i.clientId, i.siteId, i.roleId⟩) →
    db'.primaryFlag k = db.primaryFlag k

/-- The newly accepted ones are the group. -/
theorem newlyAccepted_iff {env : Env} {code : String} {inv i : Invitation} {person : Person}
    {db db' : Db} (hinto : AcceptedInto env code inv person db db') (hmem : inv ∈ db.invitations)
    (hinv : inv.status = .pending) :
    NewlyAccepted db db' i ↔
      ∃ j ∈ pendingGroup env inv db, i = j.setAccepted person.id env.now := by
  obtain ⟨t, ht⟩ := hinto.tables
  have hrows : ∀ i, i ∈ db'.invitations ↔ ∃ j ∈ db.invitations,
      (if ((pendingGroup env inv db).map (·.id)).contains j.id
        then j.setAccepted person.id env.now else j) = i := by
    intro i
    rw [ht]
    exact List.mem_map
  have hgroup : ∀ j ∈ db.invitations,
      ((pendingGroup env inv db).map (·.id)).contains j.id = true ↔
        j ∈ pendingGroup env inv db := by
    intro j hj
    rw [List.contains_iff_mem, List.mem_map]
    constructor
    · rintro ⟨k, hk, hid⟩
      rw [← Table.eq_of_key_eq (mem_pendingGroup hmem hk) hj hid]
      exact hk
    · exact fun hk => ⟨j, hk, rfl⟩
  constructor
  · intro h
    obtain ⟨j, hj, hji⟩ := (hrows i).mp h.here
    by_cases hin : ((pendingGroup env inv db).map (·.id)).contains j.id = true
    · rw [if_pos hin] at hji
      exact ⟨j, (hgroup j hj).mp hin, hji.symm⟩
    · rw [if_neg hin] at hji
      exact absurd (hji ▸ hj) h.changed
  · intro h
    obtain ⟨j, hj, rfl⟩ := h
    have hjdb := mem_pendingGroup hmem hj
    refine ⟨(hrows _).mpr ⟨j, hjdb, if_pos ((hgroup j hjdb).mpr hj)⟩, fun hold => ?_, rfl⟩
    -- the row of this id was pending
    have hsame : j.setAccepted person.id env.now = j := Table.eq_of_key_eq hold hjdb rfl
    have hstatus : InvitationStatus.accepted = j.status := congrArg Invitation.status hsame
    rw [(pendingGroup_pending hinv hj).1] at hstatus
    exact absurd hstatus (by simp)

/-- **Where the groups are coherent, an accept that goes through is exact.** -/
theorem InvitationsService.AcceptedInto.exactly {cfg : Config} {cls : Cls} {env : Env} {code : String}
    {inv : Invitation} {person : Person} {db db' : Db}
    (hcoherent : GroupsCoherent db.invitations.rows)
    (hacc : Acceptable cfg cls env code db inv person)
    (hinto : AcceptedInto env code inv person db db') :
    AcceptedExactly cfg env person code db db' := by
  have hmem : inv ∈ db.invitations := List.mem_of_find?_eq_some hacc.found
  have hcode : inv.code = code := by
    have h := List.find?_some hacc.found
    exact of_decide_eq_true h
  have hnew : ∀ {i}, NewlyAccepted db db' i ↔
      ∃ j ∈ pendingGroup env inv db, i = j.setAccepted person.id env.now :=
    newlyAccepted_iff hinto hmem hacc.pending
  constructor
  · exact ⟨_, hnew.mpr ⟨inv, clicked_mem_pendingGroup env hmem hacc.pending, rfl⟩, hcode⟩
  · intro i hi
    obtain ⟨j, hj, rfl⟩ := hnew.mp hi
    obtain ⟨hpending, hgroup⟩ := pendingGroup_pending hacc.pending hj
    have htogether : inv.expiresOn = j.expiresOn ∧ inv.email = j.email := by
      rcases hgroup with rfl | ⟨g, hinvg, hjg⟩
      · exact ⟨rfl, rfl⟩
      · have h := hcoherent inv hmem j (mem_pendingGroup hmem hj) g hinvg hjg
        exact ⟨h.expiresOn, h.email⟩
    refine ⟨j, mem_pendingGroup hmem hj, rfl, hpending, ?_, ?_⟩
    · rw [← htogether.1]
      exact hacc.live
    · rw [← htogether.2]
      exact hacc.email.symm
  · intro i hi
    obtain ⟨j, hj, rfl⟩ := hnew.mp hi
    have hrow : (db'.primaryFlag (accessKey person.id j)).isSome = true := by
      rw [hinto.flag]
      exact accepted_row_exists hj
    obtain ⟨a, ha, hkey⟩ := primaryFlag_isSome.mp hrow
    exact ⟨a, ⟨ha, hkey⟩, fun b hb => Table.eq_of_key_eq hb.1 ha (hb.2.trans hkey.symm)⟩
  · intro k hk
    rw [hinto.flag]
    refine overwrite_eq_iff.mpr (.inl ⟨fun hwritten => ?_, rfl⟩)
    rw [acceptWrites_keys] at hwritten
    obtain ⟨j, hj, rfl⟩ := List.mem_map.mp hwritten
    exact hk _ (hnew.mpr ⟨j, hj, rfl⟩) rfl

/-- A call that returned went through. -/
theorem accept_acceptable {cfg : Config} {cls : Cls} {env : Env} {code : String} {w w' : World}
    {rs : List PersonClientAccess} {person : Person} (hperson : cls.person = some person)
    (h : (accept cfg cls env code).run w = (.ok rs, w')) :
    ∃ inv, Acceptable cfg cls env code w.db inv person := by
  unfold accept at h
  rw [bind_eq_ok] at h
  obtain ⟨user, w₁, huser, h⟩ := h
  obtain ⟨huser', rfl⟩ := orRaise_eq_ok.mp huser
  rw [bind_eq_ok] at h
  obtain ⟨p, w₂, hp, h⟩ := h
  obtain ⟨hp', rfl⟩ := orRaise_eq_ok.mp hp
  obtain rfl := Option.some.inj (hp'.symm.trans hperson)
  rw [bind_eq_ok] at h
  obtain ⟨allAccess, w₃, htx, -⟩ := h
  exact acceptTransaction_acceptable cls (by rw [huser']; rfl) hperson (transaction_eq_ok.mp htx)

theorem accept_exactly {cfg : Config} {cls : Cls} {env : Env} {code : String} {w w' : World}
    {rs : List PersonClientAccess} {person : Person}
    (hcoherent : GroupsCoherent w.db.invitations.rows) (hperson : cls.person = some person)
    (h : (accept cfg cls env code).run w = (.ok rs, w')) :
    AcceptedExactly cfg env person code w.db w'.db := by
  obtain ⟨inv, hacc⟩ := accept_acceptable hperson h
  rcases accept_spec cfg cls env code w with ⟨inv', person', hacc', hinto⟩ | ⟨hnone, -⟩
  · obtain rfl := Option.some.inj (hacc'.asPerson.symm.trans hperson)
    have hinto : AcceptedInto env code inv' person' w.db ((accept cfg cls env code).after w).db :=
      hinto
    rw [after_of_run h] at hinto
    exact hinto.exactly hcoherent hacc'
  · exact absurd hacc (hnone inv person)

/-! ## 4. Runs -/

def InvitationCall.env : InvitationCall → Env
  | .createBulk _ env _ => env
  | .renew _ env _ _ => env
  | .revoke _ env _ => env
  | .accept _ _ env _ => env
  | .expireStale _ env => env

/-- A call with nobody else around. -/
def InvitationCall.after (w : World) : InvitationCall → World
  | .createBulk cls env parsed => (InvitationsService.createBulk cls env parsed.dto).after w
  | .renew cls env id dto => (InvitationsService.renew cls env id dto).after w
  | .revoke cls env id => (InvitationsService.revoke cls env id).after w
  | .accept cfg cls env code => (InvitationsService.accept cfg cls env code).after w
  | .expireStale cls env => (InvitationsService.expireStale cls env).after w

theorem InvitationCall.after_extends {call : InvitationCall}
    (hnanoid : Function.Injective call.env.nanoid) (w : World) :
    Extends call.env w (call.after w) := by
  cases call with
  | createBulk cls env parsed => exact createBulk_extends hnanoid parsed.dto w
  | renew cls env id dto => exact renew_extends hnanoid id dto w
  | revoke cls env id => exact revoke_extends cls env id w
  | accept cfg cls env code => exact accept_extends cfg cls env code w
  | expireStale cls env => exact expireStale_extends cls env w

/-- `nanoid` draws no string twice: not in a call, not in two calls of the run, and none that
    is a group id already. -/
structure DrawsOnce (w : World) (calls : List InvitationCall) : Prop where
  within : ∀ call ∈ calls, Function.Injective call.env.nanoid
  between : calls.Pairwise fun call call' => ∀ m n, call.env.nanoid m ≠ call'.env.nanoid n
  unused : ∀ call ∈ calls, ∀ i ∈ w.db.invitations, ∀ n, i.groupId ≠ some (call.env.nanoid n)

theorem DrawsOnce.next {w : World} {call : InvitationCall} {calls : List InvitationCall}
    (h : DrawsOnce w (call :: calls)) : DrawsOnce (call.after w) calls := by
  obtain ⟨hbetween, hlater⟩ := List.pairwise_cons.mp h.between
  obtain ⟨rows, hbatch, hrows⟩ := call.after_extends (h.within call (List.mem_cons_self ..)) w
  refine ⟨fun c hc => h.within c (List.mem_cons_of_mem _ hc), hlater, fun c hc i hi n hg => ?_⟩
  rcases hrows i hi with ⟨j, hj, hface⟩ | hnew
  · exact h.unused c (List.mem_cons_of_mem _ hc) j hj n ((groupId_of_face hface).symm.trans hg)
  · obtain ⟨m, hm⟩ := hbatch.drawn i hnew _ hg
    exact hbetween c hc m n hm

theorem groupsCoherent_run {calls : List InvitationCall} {w : World}
    (hstart : GroupsCoherent w.db.invitations.rows) (hdraws : DrawsOnce w calls) :
    ∀ u, Reached InvitationCall.after w calls u → GroupsCoherent u.db.invitations.rows := by
  induction calls generalizing w with
  | nil =>
    intro u hu
    obtain rfl : u = w := hu
    exact hstart
  | cons call calls ih =>
    intro u hu
    rcases hu with rfl | hu
    · exact hstart
    · have hcall := call.after_extends (hdraws.within call (List.mem_cons_self ..)) w
      exact ih (hcall.coherent hstart (hdraws.unused call (List.mem_cons_self ..))) hdraws.next u hu

/-- **In every state of a run the groups are coherent, and an accept there is exact.** -/
theorem groups_coherent_accept_exact {w : World} (hstart : GroupsCoherent w.db.invitations.rows)
    {calls : List InvitationCall} (hdraws : DrawsOnce w calls) :
    ∀ u, Reached InvitationCall.after w calls u →
      GroupsCoherent u.db.invitations.rows ∧
        ∀ cfg cls env code person rs u', cls.person = some person →
          (InvitationsService.accept cfg cls env code).run u = (.ok rs, u') →
            AcceptedExactly cfg env person code u.db u'.db := by
  intro u hu
  have hcoherent := groupsCoherent_run hstart hdraws u hu
  exact ⟨hcoherent, fun cfg cls env code person rs u' hperson h =>
    accept_exactly hcoherent hperson h⟩

/-! ## 5. One invitation to two places -/

/-- The `n`-th string over one letter. -/
def tally (c : Char) (n : Nat) : String := String.ofList (c :: List.replicate n c)

theorem tally_inj {c d : Char} {m n : Nat} (h : tally c m = tally d n) : c = d ∧ m = n := by
  obtain ⟨hhead, htail⟩ := List.cons.inj (String.ofList_injective h)
  refine ⟨hhead, ?_⟩
  have hlength := congrArg List.length htail
  rwa [List.length_replicate, List.length_replicate] at hlength

/-- A call that draws tallies of its letter. -/
def tallyEnv (c : Char) : Env where
  cuid := tally c
  nanoid := tally c

def moe : Person := { id := "moe", firstName := "Moe", lastName := "M.", email := "moe@quay.org" }

def moeCls : Cls where
  user := some { idpId := "idp-moe", email := "moe@quay.org", username := "moe" }
  person := some moe

def quayOwner : Cls where
  user := some { idpId := "idp-kay", email := "kay@quay.org", username := "kay" }
  person := some { id := "kay", firstName := "Kay", lastName := "K.", email := "kay@quay.org" }
  accessGrant := some { roleId := "loader", scope := .client, capabilities := ["manage-users"],
                        clientId := "quay", siteId := "quay-1" }

def quay : World where
  db :=
    { clients := ⟨[{ id := "quay", externalId := "quay-inc" }], List.nodup_singleton _⟩
      sites := ⟨[{ id := "quay-1", externalId := "crane", createdOn := 0, clientId := "quay" },
          { id := "quay-2", externalId := "shed", createdOn := 0, clientId := "quay" }],
        (by decide : ["quay-1", "quay-2"].Nodup)⟩
      roles := ⟨[{ id := "loader", name := "Loader", clientAssignable := true }],
        List.nodup_singleton _⟩
      persons := ⟨[moe, { id := "kay", firstName := "Kay", lastName := "K.",
                          email := "kay@quay.org" }], (by decide : ["moe", "kay"].Nodup)⟩ }

def inviteMoe : InvitationCall :=
  .createBulk quayOwner (tallyEnv 'a')
    { dto := { invitations := [{ email := "moe@quay.org", siteId := "quay-1", roleId := "loader" },
          { email := "moe@quay.org", siteId := "quay-2", roleId := "loader" }] }
      distinct := by decide }

/-- Moe has the link of the second place. -/
def moeAccepts : Api (List PersonClientAccess) :=
  InvitationsService.accept {} moeCls (tallyEnv 'b') (tally 'a' 2)

theorem moeAccepts_returns : ∃ rs, moeAccepts.run (inviteMoe.after quay) =
    (.ok rs, moeAccepts.after (inviteMoe.after quay)) := by
  have hok : (moeAccepts.run (inviteMoe.after quay)).1.toOption.isSome = true := by decide
  cases hrun : (moeAccepts.run (inviteMoe.after quay)).1 with
  | error e =>
    rw [hrun] at hok
    exact absurd hok (by simp [Except.toOption])
  | ok rs => exact ⟨rs, Prod.ext hrun rfl⟩

theorem moe_accepts_exactly :
    GroupsCoherent (inviteMoe.after quay).db.invitations.rows ∧
      AcceptedExactly {} (tallyEnv 'b') moe (tally 'a' 2) (inviteMoe.after quay).db
        (moeAccepts.after (inviteMoe.after quay)).db := by
  have hdraws : DrawsOnce quay [inviteMoe] := by
    refine ⟨fun call hcall => ?_, List.pairwise_singleton _ _, fun _ _ i hi =>
      absurd hi List.not_mem_nil⟩
    obtain rfl := List.mem_singleton.mp hcall
    exact fun m n h => (tally_inj h).2
  obtain ⟨hcoherent, haccept⟩ := groups_coherent_accept_exact
    (fun i hi => absurd hi List.not_mem_nil) hdraws _ (reached_end _ _)
  obtain ⟨rs, hrun⟩ := moeAccepts_returns
  exact ⟨hcoherent, haccept {} moeCls (tallyEnv 'b') (tally 'a' 2) moe rs _ rfl hrun⟩

end ShieldApi
