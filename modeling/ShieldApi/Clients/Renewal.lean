import ShieldApi.Clients.Escalation
import ShieldApi.Clients.PendingInvitations

/-!
# Does a renewal that throws leave everything as it was?

`renew` revokes the old invitations and then calls `createBulk`, which has checks of its own: the
sites have to be in the caller's sight, the roles have to be the caller's to hand out, nobody else
may have a pending invitation there, and the insertion has to find its ids and codes free. The
revocation is a query of its own, outside the transaction of the insertion. **So a renewal that
throws after it has revoked for nothing.**

The file says when `createBulk` goes through (`Invitable`), and from that when a renewal is all
or nothing: if it stops before it revokes, or if what it wants to create can be created.
-/

set_option autoImplicit false

namespace ShieldApi

open Effect InvitationsService

/-! ## 1. Inserting -/

/-- The rows can be inserted, one after another: ids and codes are free, and what they refer to is
    there. -/
structure Insertable (db : Db) (rows : List Invitation) : Prop where
  ids : db.invitations.Free (rows.map (·.id))
  codes : (rows.map (·.code)).Nodup ∧ ∀ r ∈ rows, ∀ i ∈ db.invitations, i.code ≠ r.code
  refs : ∀ r ∈ rows, db.invitationRefs r = true

theorem insertable_cons {db : Db} {inv : Invitation} {rows : List Invitation} :
    Insertable db (inv :: rows) ↔
      ∃ t, db.invitations.insert? inv = some t ∧ (∀ i ∈ db.invitations, i.code ≠ inv.code) ∧
        db.invitationRefs inv = true ∧ Insertable { db with invitations := t } rows := by
  constructor
  · intro h
    obtain ⟨hnodup, hfree⟩ := h.ids
    rw [List.map_cons, List.nodup_cons] at hnodup
    obtain ⟨t, ht⟩ := Option.isSome_iff_exists.mp
      (Table.insert?_isSome.mpr (hfree inv.id (List.mem_cons_self ..)))
    obtain ⟨hcodes, hnew⟩ := h.codes
    rw [List.map_cons, List.nodup_cons] at hcodes
    refine ⟨t, ht, hnew inv (List.mem_cons_self ..), h.refs inv (List.mem_cons_self ..), ?_⟩
    refine ⟨⟨hnodup.2, fun k hk => ?_⟩, ⟨hcodes.2, fun r hr i hi => ?_⟩, fun r hr =>
      h.refs r (List.mem_cons_of_mem _ hr)⟩
    · have hne : k ≠ inv.id := fun he => hnodup.1 (he ▸ hk)
      show t.find? k = none
      rw [Table.find?_insert? ht, if_neg hne]
      exact hfree k (List.mem_cons_of_mem _ hk)
    · rcases (Table.mem_insert? ht).mp hi with hold | rfl
      · exact hnew r (List.mem_cons_of_mem _ hr) i hold
      · exact fun he => hcodes.1 (he ▸ List.mem_map_of_mem hr)
  · intro h
    obtain ⟨t, ht, hnew, hrefs, hrest⟩ := h
    have hfree : db.invitations.find? inv.id = none := Table.insert?_isSome.mp (by rw [ht]; rfl)
    have hafter : ∀ k ∈ rows.map (·.id), k ≠ inv.id ∧ db.invitations.find? k = none := by
      intro k hk
      have hnone : t.find? k = none := hrest.ids.2 k hk
      rw [Table.find?_insert? ht] at hnone
      split at hnone
      · exact absurd hnone (by simp)
      · next hne => exact ⟨hne, hnone⟩
    have hcode : ∀ r ∈ rows, inv.code ≠ r.code := fun r hr =>
      hrest.codes.2 r hr inv ((Table.mem_insert? ht).mpr (.inr rfl))
    constructor
    · refine ⟨List.nodup_cons.mpr ⟨fun hmem => (hafter _ hmem).1 rfl, hrest.ids.1⟩, ?_⟩
      intro k hk
      rcases List.mem_cons.mp hk with rfl | hk
      · exact hfree
      · exact (hafter k hk).2
    · refine ⟨List.nodup_cons.mpr ⟨fun hmem => ?_, hrest.codes.1⟩, fun r hr i hi => ?_⟩
      · obtain ⟨r, hr, he⟩ := List.mem_map.mp hmem
        exact hcode r hr he.symm
      · rcases List.mem_cons.mp hr with rfl | hr
        · exact hnew i hi
        · exact hrest.codes.2 r hr i ((Table.mem_insert? ht).mpr (.inl hi))
    · intro r hr
      rcases List.mem_cons.mp hr with rfl | hr
      · exact hrefs
      · exact hrest.refs r hr

/-- **When the insertion goes through.** -/
theorem forEach_createInvitation_iff {rows : List Invitation} {w : World} :
    (∃ rs w', (forEach rows createInvitation).run w = (.ok rs, w')) ↔ Insertable w.db rows := by
  induction rows generalizing w with
  | nil => exact iff_of_true ⟨[], w, rfl⟩ ⟨⟨List.nodup_nil, fun _ h => (nomatch h)⟩,
      ⟨List.nodup_nil, fun _ h => (nomatch h)⟩, fun _ h => (nomatch h)⟩
  | cons inv rows ih =>
    rw [insertable_cons]
    constructor
    · intro h
      obtain ⟨rs, w', h⟩ := h
      obtain ⟨r, w₁, rs', hinv, hrest, -⟩ := forEach_cons_eq_ok.mp h
      obtain ⟨t, ht, hnew, hrefs, -, rfl⟩ := createInvitation_eq_ok.mp hinv
      exact ⟨t, ht, hnew, hrefs, ih.mp ⟨rs', w', hrest⟩⟩
    · intro h
      obtain ⟨t, ht, hnew, hrefs, hrest⟩ := h
      obtain ⟨rs, w', hrs⟩ := (ih (w := w.withInvitations t)).mpr hrest
      have hinv : (createInvitation inv).run w = (.ok inv, w.withInvitations t) :=
        createInvitation_eq_ok.mpr ⟨t, ht, hnew, hrefs, rfl, rfl⟩
      exact ⟨inv :: rs, w', forEach_cons_eq_ok.mpr ⟨inv, _, rs, hinv, hrs, rfl⟩⟩

/-! ## 2. When `createBulk` goes through -/

/-- **What `createBulk` asks for**, invitations `besides` left out of account. -/
structure Invitable (env : Env) (person : Person) (grant : AccessGrant) (rls : Settings)
    (dto : CreateInvitationsDto) (besides : List String) (db : Db) : Prop where
  sites : ∀ inv ∈ dto.invitations, ∃ s ∈ db.sites, s.id = inv.siteId ∧ rls.seesSite s = true ∧
    s.clientId = dto.target grant
  roles : ∀ inv ∈ dto.invitations, MayInvite grant db inv.roleId
  noneOpen : ∀ inv ∈ dto.invitations, ∀ i ∈ db.invitations, i.id ∉ besides →
    ¬ dto.Collides grant i inv
  rows : Insertable db (createData env person (dto.target grant) dto)

/-- **When `createBulk` goes through.** -/
theorem createBulk_ok_iff {cls : Cls} {env : Env} {dto : CreateInvitationsDto} {w : World} :
    (∃ rows w', (createBulk cls env dto).run w = (.ok rows, w')) ↔
      ∃ person grant rls, cls.person = some person ∧ cls.accessGrant = some grant ∧
        rlsSettings cls env = .ok rls ∧ Invitable env person grant rls dto [] w.db := by
  have hinsert : ∀ rows, (∃ rs w', (insertInvitations env rows).run w = (.ok rs, w')) ↔
      Insertable w.db rows := by
    intro rows
    rw [← forEach_createInvitation_iff]
    unfold insertInvitations
    simp only [transaction_eq_ok, bind_eq_ok, run_query, Prod.mk.injEq]
    constructor
    · intro h
      obtain ⟨rs, w', created, w₁, hloop, -⟩ := h
      exact ⟨created, w₁, hloop⟩
    · intro h
      obtain ⟨created, w₁, hloop⟩ := h
      exact ⟨_, _, created, w₁, hloop, rfl, rfl⟩
  rw [createBulk_eq]
  constructor
  · intro h
    obtain ⟨rs, w', h⟩ := h
    rw [bind_eq_ok] at h
    obtain ⟨rows, w₁, hcheck, hins⟩ := h
    obtain ⟨person, grant, rls, hperson, hgrant, hrls, hsites, hroles, hnone, rfl, rfl⟩ :=
      createBulkCheck_iff.mp hcheck
    exact ⟨person, grant, rls, hperson, hgrant, hrls, hsites, hroles,
      fun inv hinv i hi _ => hnone inv hinv i hi, (hinsert _).mp ⟨rs, w', hins⟩⟩
  · intro h
    obtain ⟨person, grant, rls, hperson, hgrant, hrls, hcan⟩ := h
    obtain ⟨rs, w', hins⟩ := (hinsert _).mpr hcan.rows
    refine ⟨rs, w', ?_⟩
    rw [run_bind_ok (createBulkCheck_iff.mpr ⟨person, grant, rls, hperson, hgrant, hrls,
      hcan.sites, hcan.roles, fun inv hinv i hi => hcan.noneOpen inv hinv i hi List.not_mem_nil,
      rfl, rfl⟩)]
    exact hins

/-! ## 3. When a renewal is all or nothing -/

/-- The old invitations, revoked. -/
def World.revoking (w : World) (toReplace : List Invitation) : World :=
  w.withInvitations (w.db.invitations.updateMany ((toReplace.map (·.id)).contains ·.id)
    (.setStatus .revoked) (Invitation.id_setStatus _))

theorem World.find?_revoking (w : World) (toReplace : List Invitation) (id : String) :
    (w.revoking toReplace).db.invitations.find? id = (w.db.invitations.find? id).map fun i =>
      if (toReplace.map (·.id)).contains i.id then i.setStatus .revoked else i := by
  unfold World.revoking
  exact @Table.find?_updateMany _ _ _ _ _ _ _ (Invitation.id_setStatus .revoked) id

/-- The renewal gets as far as to revoke: the invitation is pending and in the caller's sight. -/
structure Renewing (cls : Cls) (env : Env) (id : String) (db : Db) (rls : Settings)
    (original : Invitation) : Prop where
  settings : rlsSettings cls env = .ok rls
  found : db.invitations.find? id = some original
  sight : rls.seesClient original.clientId = true
  pending : original.status = .pending

/-- No invitation has another status. -/
def SameStatuses (db db' : Db) : Prop :=
  ∀ id, (db'.invitations.find? id).map (·.status) = (db.invitations.find? id).map (·.status)

theorem renew_run {cls : Cls} {env : Env} {id : String} {dto : RenewInvitationDto} {w : World}
    {rls : Settings} {original : Invitation} (h : Renewing cls env id w.db rls original) :
    (renew cls env id dto).run w =
      (createBulk cls env (renewal original (pendingGroup env original w.db) dto)).run
        (w.revoking (pendingGroup env original w.db)) := by
  have hmem := (Table.find?_eq_some.mp h.found).1
  have hvisible : ((w.db.invitations.find? id).filter (rls.seesClient ·.clientId)) =
      some original := by
    rw [h.found, Option.filter_some, if_pos h.sight]
  have hsome : (pendingGroup env original w.db).isEmpty = false := by
    rw [List.isEmpty_eq_false_iff]
    exact pendingGroup_ne_nil env hmem h.pending
  unfold renew
  rw [run_bind_ok (prismaBuild_run.mpr ⟨h.settings, rfl⟩), run_query_bind, hvisible, orRaise_some,
    run_pure_bind, run_query_bind, h.found, orRaise_some, run_pure_bind]
  simp only [ne_eq, h.pending, not_true_eq_false, decide_false, raiseIf_false, run_pure_bind,
    run_query_bind, hsome]
  rfl

theorem renew_stops {cls : Cls} {env : Env} {id : String} {dto : RenewInvitationDto} {w : World}
    (h : ∀ rls original, ¬ Renewing cls env id w.db rls original) :
    (renew cls env id dto).after w = w := by
  have hleaves : (renew cls env id dto).Leaves (· = w) w := by
    unfold renew
    refine (readOnly_prismaBuild cls env {}).leaves_bind rfl fun rls hrls => ?_
    refine (readOnly_query _).leaves_bind rfl fun visible hvisible => ?_
    refine (readOnly_orRaise _ _).leaves_bind rfl fun seen hseen => ?_
    refine (readOnly_query _).leaves_bind rfl fun found hfound => ?_
    refine (readOnly_orRaise _ _).leaves_bind rfl fun original horiginal => ?_
    refine (readOnly_raiseIf _ _).leaves_bind rfl fun _ hpending => ?_
    -- from here on the renewal would write, but all it has checked is `Renewing`
    obtain rfl := Except.ok.inj (Prod.mk.inj hvisible).1
    obtain rfl := Except.ok.inj (Prod.mk.inj hfound).1
    have hseen' : (w.db.invitations.find? id).filter (rls.seesClient ·.clientId) = some seen :=
      (orRaise_eq_ok.mp hseen).1
    have hfound' : w.db.invitations.find? id = some original := (orRaise_eq_ok.mp horiginal).1
    have hpending' := (raiseIf_eq_ok.mp hpending).1
    rw [decide_eq_false_iff_not, ne_eq, not_not] at hpending'
    rw [hfound', Option.filter_some] at hseen'
    refine absurd ⟨(prismaBuild_run.mp hrls).1, hfound', ?_, hpending'⟩ (h rls original)
    by_contra hsight
    rw [if_neg hsight] at hseen'
    exact absurd hseen' (by simp)
  exact hleaves

/-- With the old invitations revoked, what is asked for is what was asked for but for them. -/
theorem invitable_revoking {env : Env} {person : Person} {grant : AccessGrant} {rls : Settings}
    {dto : CreateInvitationsDto} {toReplace : List Invitation} {w : World} :
    Invitable env person grant rls dto [] (w.revoking toReplace).db ↔
      Invitable env person grant rls dto (toReplace.map (·.id)) w.db := by
  have hrows : ∀ i, i ∈ (w.revoking toReplace).db.invitations ↔ ∃ j ∈ w.db.invitations,
      (if (toReplace.map (·.id)).contains j.id then j.setStatus .revoked else j) = i :=
    fun _ => List.mem_map
  have hfind : ∀ k, (w.revoking toReplace).db.invitations.find? k = none ↔
      w.db.invitations.find? k = none := by
    intro k
    rw [w.find?_revoking, Option.map_eq_none_iff]
  have hcodes : ∀ c, (∀ i ∈ (w.revoking toReplace).db.invitations, i.code ≠ c) ↔
      ∀ i ∈ w.db.invitations, i.code ≠ c := by
    intro c
    constructor
    · intro h j hj
      have hcode := h _ ((hrows _).mpr ⟨j, hj, rfl⟩)
      split at hcode
      · exact hcode
      · exact hcode
    · intro h i hi
      obtain ⟨j, hj, rfl⟩ := (hrows i).mp hi
      split
      · exact h j hj
      · exact h j hj
  have hinsertable : ∀ rows, Insertable (w.revoking toReplace).db rows ↔ Insertable w.db rows := by
    intro rows
    constructor
    · intro h
      exact ⟨⟨h.ids.1, fun k hk => (hfind k).mp (h.ids.2 k hk)⟩,
        ⟨h.codes.1, fun r hr => (hcodes _).mp (h.codes.2 r hr)⟩, h.refs⟩
    · intro h
      exact ⟨⟨h.ids.1, fun k hk => (hfind k).mpr (h.ids.2 k hk)⟩,
        ⟨h.codes.1, fun r hr => (hcodes _).mpr (h.codes.2 r hr)⟩, h.refs⟩
  constructor
  · intro h
    refine ⟨h.sites, h.roles, fun inv hinv i hi hkept hcollides => ?_, (hinsertable _).mp h.rows⟩
    refine h.noneOpen inv hinv i ((hrows i).mpr ⟨i, hi, if_neg fun hin => ?_⟩) List.not_mem_nil
      hcollides
    exact hkept (List.contains_iff_mem.mp hin)
  · intro h
    refine ⟨h.sites, h.roles, fun inv hinv i hi _ hcollides => ?_, (hinsertable _).mpr h.rows⟩
    obtain ⟨j, hj, rfl⟩ := (hrows i).mp hi
    by_cases hin : (toReplace.map (·.id)).contains j.id = true
    · rw [if_pos hin] at hcollides
      exact absurd hcollides.pending (setStatus_not_pending j)
    · rw [if_neg hin] at hcollides
      exact h.noneOpen inv hinv j hj (fun hmem => hin (List.contains_iff_mem.mpr hmem)) hcollides

/-- The old invitation, revoked, has another status. -/
theorem revoking_changes {cls : Cls} {env : Env} {id : String} {w : World} {rls : Settings}
    {original : Invitation} (h : Renewing cls env id w.db rls original) :
    ¬ SameStatuses w.db (w.revoking (pendingGroup env original w.db)).db := by
  obtain ⟨hmem, hid⟩ := Table.find?_eq_some.mp h.found
  have hin : ((pendingGroup env original w.db).map (·.id)).contains original.id = true :=
    List.contains_iff_mem.mpr (List.mem_map_of_mem (clicked_mem_pendingGroup env hmem h.pending))
  intro hsame
  have hstatus := hsame id
  rw [w.find?_revoking, h.found, Option.map_some, Option.map_some, Option.map_some, if_pos hin,
    h.pending] at hstatus
  exact absurd (Option.some.inj hstatus) (by simp [Invitation.setStatus])

theorem atomic_createBulk (cls : Cls) (env : Env) (dto : CreateInvitationsDto) :
    (createBulk cls env dto).Atomic := by
  rw [createBulk_eq]
  exact (readOnly_createBulkCheck cls env dto).bind_atomic fun _ => atomic_transaction _

/-- **When a renewal that throws leaves every status as it was:** exactly if it stops before it
    revokes, or has all that `createBulk` asks for. -/
theorem renew_allOrNothing_iff (cls : Cls) (env : Env) (id : String) (dto : RenewInvitationDto)
    (w : World) :
    ((∃ e w', (renew cls env id dto).run w = (.error e, w')) →
        SameStatuses w.db ((renew cls env id dto).after w).db) ↔
      ∀ rls original, Renewing cls env id w.db rls original →
        ∃ person grant, cls.person = some person ∧ cls.accessGrant = some grant ∧
          Invitable env person grant rls (renewal original (pendingGroup env original w.db) dto)
            ((pendingGroup env original w.db).map (·.id)) w.db := by
  by_cases hreach : ∃ rls original, Renewing cls env id w.db rls original
  · obtain ⟨rls, original, h⟩ := hreach
    have hunique : ∀ rls' original', Renewing cls env id w.db rls' original' →
        rls' = rls ∧ original' = original := fun rls' original' h' =>
      ⟨Except.ok.inj (h'.settings.symm.trans h.settings),
        Option.some.inj (h'.found.symm.trans h.found)⟩
    have hrun : (renew cls env id dto).run w = _ := renew_run h
    constructor
    · intro hnothing rls' original' h'
      obtain ⟨rfl, rfl⟩ := hunique rls' original' h'
      rcases hres : (createBulk cls env (renewal original' (pendingGroup env original' w.db)
        dto)).run (w.revoking (pendingGroup env original' w.db)) with ⟨r, w'⟩
      rw [hres] at hrun
      cases r with
      | error e =>
        -- it has revoked, and throws
        have hthrown := hnothing ⟨e, w', hrun⟩
        rw [after_of_run hrun, atomic_createBulk _ _ _ _ _ _ hres] at hthrown
        exact absurd hthrown (revoking_changes h)
      | ok rows =>
        obtain ⟨person, grant, rls, hperson, hgrant, hrls, hcan⟩ :=
          createBulk_ok_iff.mp ⟨rows, w', hres⟩
        obtain rfl := Except.ok.inj (hrls.symm.trans h.settings)
        exact ⟨person, grant, hperson, hgrant, invitable_revoking.mp hcan⟩
    · intro hcan herror
      obtain ⟨person, grant, hperson, hgrant, hcan⟩ := hcan rls original h
      obtain ⟨rows, w', hok⟩ := createBulk_ok_iff.mpr
        ⟨person, grant, rls, hperson, hgrant, h.settings, invitable_revoking.mpr hcan⟩
      obtain ⟨e, w'', herror⟩ := herror
      rw [hrun, hok] at herror
      exact absurd (Prod.mk.inj herror).1 (by simp)
  · have hstop : ∀ rls original, ¬ Renewing cls env id w.db rls original := fun rls original h =>
      hreach ⟨rls, original, h⟩
    refine iff_of_true (fun _ => ?_) fun rls original h => absurd h (hstop rls original)
    rw [renew_stops hstop]
    exact fun _ => rfl

/-! ## 4. A role that is not the caller's to hand out -/

/-- A foreman's invitation, which a client's manager can see and not issue. -/
def yard : World where
  db :=
    { clients := ⟨[{ id := "yard", externalId := "yard-inc" }], List.nodup_singleton _⟩
      sites := ⟨[{ id := "yard-1", externalId := "gate", createdOn := 0, clientId := "yard" }],
        List.nodup_singleton _⟩
      roles := ⟨[{ id := "foreman", name := "Foreman" }], List.nodup_singleton _⟩
      persons := ⟨[{ id := "abe", firstName := "Abe", lastName := "A.", email := "abe@yard.org" }],
        List.nodup_singleton _⟩
      invitations := ⟨[{ id := "i7", code := "k7", clientId := "yard", createdById := "abe",
                         email := "lou@yard.org", roleId := "foreman", siteId := "yard-1",
                         expiresOn := 5, createdOn := 0 }], List.nodup_singleton _⟩ }

def yardManager : Cls where
  user := some { idpId := "idp-abe", email := "abe@yard.org", username := "abe" }
  person := some { id := "abe", firstName := "Abe", lastName := "A.", email := "abe@yard.org" }
  accessGrant := some { roleId := "foreman", scope := .client, capabilities := ["manage-users"],
                        clientId := "yard", siteId := "yard-1" }

theorem yardRenewal_rows :
    ((renew yardManager {} "i7" {}).run yard).1.toBool = false ∧
      (((renew yardManager {} "i7" {}).after yard).db.invitations.find? "i7").map (·.status) =
        some .revoked := by
  decide

theorem foremanRenewal_revokes :
    ¬ ((∃ e w', (renew yardManager {} "i7" {}).run yard = (.error e, w')) →
      SameStatuses yard.db ((renew yardManager {} "i7" {}).after yard).db) := by
  obtain ⟨hthrows, hrevoked⟩ := yardRenewal_rows
  intro h
  have herror : ∃ e w', (renew yardManager {} "i7" {}).run yard = (.error e, w') := by
    rcases hres : (renew yardManager {} "i7" {}).run yard with ⟨r, w'⟩
    rw [hres] at hthrows
    cases r with
    | error e => exact ⟨e, w', rfl⟩
    | ok rows => exact absurd hthrows (by simp [Except.toBool])
  have hsame := h herror "i7"
  rw [hrevoked] at hsame
  exact absurd (Option.some.inj hsame) (by simp)

end ShieldApi
