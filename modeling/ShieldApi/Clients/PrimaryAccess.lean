import ShieldApi.Lib.Runs
import ShieldApi.Clients.Members
import ShieldApi.Clients.Users
import ShieldApi.Auth.KeycloakAccessSync

/-!
# Does a member always have a primary access row?

Seven operations in four services write `isPrimary`, and each is written as if the person
had a primary row before and must have one after. `PrimaryAccessExists` is that property,
and this file decides, operation by operation, whether it is kept.

**Five operations keep it, and two do not.** `MembersService.remove` promotes the oldest
remaining place of a member whose primary access it deleted, but its queries run at the
caller's client, where nothing remains: rows at other clients stay as they were. And
`InvitationsService.accept` writes `isPrimary` on the rows it upserts, so a group of
invitations that names the person's only primary row without having been clicked there
demotes it. `accept_keeps_iff` and `remove_keeps_iff` give the exact condition of each;
`primaryAccess_iff` puts them together over a whole run.
-/

set_option autoImplicit false

namespace ShieldApi

open Effect

/-! ## 1. The operations that keep it -/

section Keep

variable {personId : String} {w : World}

theorem usersAddRole_keeps (env : Env) (id : String) (dto : AddUserRoleDto)
    (hw : PrimaryAccessExists personId w.db) :
    (UsersService.addRole env id dto).Leaves (fun w => PrimaryAccessExists personId w.db) w := by
  unfold UsersService.addRole UsersService.findPersonOrThrow
  refine ((readOnly_query _).bind fun _ => readOnly_orRaise _ _).leaves_bind hw fun person _ => ?_
  refine (readOnly_query _).leaves_bind hw fun site _ => ?_
  refine (readOnly_raiseIf _ _).leaves_bind hw fun _ _ => ?_
  refine (readOnly_query _).leaves_bind hw fun role _ => ?_
  refine (readOnly_raiseIf _ _).leaves_bind hw fun _ _ => ?_
  refine CacheOnly.leaves_bind
    (fun _ => (cacheOnly_clearOf ..).bind fun _ => cacheOnly_pure _) ?_
  refine leaves_transaction hw fun a w' h => ?_
  rw [run_query_bind] at h
  obtain ⟨-, -, hflag⟩ := upsertWithPrimary_flag h
  refine hw.update hflag fun hk => ?_
  cases hf : findPrimaryAccess env person.id w.db with
  | none => exact .inl rfl
  | some b =>
    obtain ⟨hp, hb⟩ := findPrimaryAccess_some hf
    by_cases hplace : b.clientId = dto.clientId ∧ b.siteId = dto.siteId
    · exact .inl (by simp [mayBePrimary, hplace.1, hplace.2])
    · -- the row that was found is somewhere else, so it is not the one written
      refine .inr ⟨b.key, fun he => hplace ?_, hp.trans hk, hb⟩
      exact ⟨congrArg AccessKey.clientId he, congrArg AccessKey.siteId he⟩

theorem usersRemoveRole_keeps (env : Env) (id : String) (dto : RemoveUserRoleDto)
    (hw : PrimaryAccessExists personId w.db) :
    (UsersService.removeRole env id dto).Leaves (fun w => PrimaryAccessExists personId w.db) w := by
  unfold UsersService.removeRole UsersService.findPersonOrThrow
  refine ((readOnly_query _).bind fun _ => readOnly_orRaise _ _).leaves_bind hw fun person _ => ?_
  refine CacheOnly.leaves_bind (fun _ => cacheOnly_clearOf ..) ?_
  refine leaves_transaction hw fun a w' h => ?_
  rw [run_query_bind, bind_eq_ok] at h
  obtain ⟨access, w₁, hfound, hdel⟩ := h
  obtain ⟨hf, rfl⟩ := orRaise_eq_ok.mp hfound
  obtain ⟨hmem, -⟩ := RowOrder.findFirst_mem hf
  obtain ⟨w₂, hrun, -, hkeep⟩ := deleteAccessKeepingPrimary_run (fun _ => true) env
    hmem hw fun ⟨k, hp, hne, hk⟩ => ⟨k, hp, hne, rfl, hk⟩
  rw [hrun] at hdel
  obtain ⟨-, rfl⟩ := Prod.mk.inj hdel
  exact hkeep

/-- What a person lookup of `MembersService` that found somebody says, where the bypass is
    off: the person has a row at the caller's client. -/
theorem findPersonOrThrow_ok {rls : Settings} {id : String} {p : Person} {w' : World}
    (h : (MembersService.findPersonOrThrow rls id).run w = (.ok p, w')) :
    w' = w ∧ w.db.persons.find? id = some p ∧ p.id = id ∧
      (rls.shouldBypassRls = false →
        ∃ a ∈ w.db.accesses, a.personId = id ∧ rls.validateClient a.clientId = true) := by
  obtain ⟨⟨hf, hsees⟩, rfl⟩ := MembersService.findPersonOrThrow_eq_ok.mp h
  obtain rfl := (Table.find?_eq_some.mp hf).2
  refine ⟨rfl, hf, rfl, fun hoff => ?_⟩
  simp only [Settings.seesPerson, hoff, Bool.false_or, List.any_eq_true, Bool.and_eq_true,
    decide_eq_true_eq] at hsees
  exact hsees

theorem membersAddRole_keeps {cls : Cls} {env : Env} {id : String} {dto : AddRoleDto}
    (hscoped : (buildPrimaryExtension cls env.allowedSiteIdsForSite {}).bypassRLS = false)
    (hw : PrimaryAccessExists personId w.db) :
    (MembersService.addRole cls env id dto).Leaves (fun w => PrimaryAccessExists personId w.db)
      w := by
  unfold MembersService.addRole
  refine (readOnly_requireAccessGrant cls).leaves_bind hw fun grant _ => ?_
  refine (readOnly_prismaBuild cls env {}).leaves_bind hw fun rls hrls => ?_
  obtain ⟨_, _, _, _, -, hoff, -⟩ := prismaBuild_scoped hscoped rfl hrls
  refine (MembersService.readOnly_findPersonOrThrow rls id).leaves_bind hw fun person hperson => ?_
  obtain ⟨-, -, -, hrow⟩ := findPersonOrThrow_ok hperson
  obtain ⟨b, hb, hbp, -⟩ := hrow hoff
  refine (readOnly_query _).leaves_bind hw fun primaryHere _ => ?_
  refine CacheOnly.leaves_bind
    (fun _ => (cacheOnly_clearOf ..).bind fun _ => cacheOnly_pure _) ?_
  refine (atomic_attempt _).leaves hw fun a w' h => ?_
  obtain ⟨-, hnew, hflag⟩ := createAccess_flag h
  refine hw.update hflag fun hk => .inr ?_
  -- the member has a row already, hence a primary one, and the new row is not that one
  obtain ⟨c, hc, hcp, hprim⟩ := hw ⟨b, hb, hbp.trans hk⟩
  have hflagc := mem_primaryFlag hc
  rw [hprim] at hflagc
  refine ⟨c.key, fun he => ?_, hcp, hflagc⟩
  rw [he, hnew] at hflagc
  exact absurd hflagc (by simp)

theorem membersRemoveRole_keeps {cls : Cls} {env : Env} {id : String} {dto : RemoveRoleDto}
    (hw : PrimaryAccessExists personId w.db) :
    (MembersService.removeRole cls env id dto).Leaves
      (fun w => PrimaryAccessExists personId w.db) w := by
  unfold MembersService.removeRole
  refine (readOnly_requireAccessGrant cls).leaves_bind hw fun grant _ => ?_
  refine (readOnly_prismaBuild cls env {}).leaves_bind hw fun rls _ => ?_
  refine (MembersService.readOnly_findPersonOrThrow rls id).leaves_bind hw fun person _ => ?_
  refine CacheOnly.leaves_bind (fun _ => cacheOnly_clearOf ..) ?_
  refine leaves_transaction hw fun a w' h => ?_
  rw [run_query_bind, bind_eq_ok] at h
  obtain ⟨access, w₁, hfound, h⟩ := h
  obtain ⟨hf, rfl⟩ := orRaise_eq_ok.mp hfound
  obtain ⟨hmem, hsel⟩ := RowOrder.findFirst_mem hf
  simp only [Bool.and_eq_true, decide_eq_true_eq] at hsel
  rw [run_query_bind, bind_eq_ok] at h
  obtain ⟨_, w₂, hcount, h⟩ := h
  obtain ⟨hmany, rfl⟩ := raiseIf_eq_ok.mp hcount
  have hmany : 1 < (w.db.accesses.rows.filter fun a =>
      rls.seesClient a.clientId && a.personId = id && a.clientId = grant.clientId).length := by
    simpa using hmany
  -- a second row at the caller's client is there, and in sight
  have hother : ∃ b ∈ w.db.accesses, b.key ≠ access.key ∧ b.personId = id ∧
      rls.seesClient b.clientId = true := by
    by_contra hno
    push Not at hno
    have hall : w.db.accesses.rows.filter (fun a =>
        rls.seesClient a.clientId && a.personId = id && a.clientId = grant.clientId) ⊆
        [access] := by
      intro b hb
      simp only [List.mem_filter, Bool.and_eq_true, decide_eq_true_eq] at hb
      by_contra hne
      exact hno b hb.1 (fun he => hne (by simp [Table.eq_of_key_eq hb.1 hmem he]))
        hb.2.1.2 hb.2.1.1
    have hnodup := (List.Nodup.of_map _ w.db.accesses.unique).filter (fun a =>
      rls.seesClient a.clientId && a.personId = id && a.clientId = grant.clientId)
    have hlen := (List.subperm_of_subset hnodup hall).length_le
    rw [List.length_singleton] at hlen
    omega
  obtain ⟨b, hb, hne, hbp, hbs⟩ := hother
  obtain ⟨w₃, hrun, -, hkeep⟩ := deleteAccessKeepingPrimary_run rls.seesClient env
    hmem hw fun _ =>
      ⟨b.key, hbp.trans hsel.1.1.1.2.symm, hne, hbs, primaryFlag_isSome.mpr ⟨b, hb, rfl⟩⟩
  rw [run_bind_ok hrun, run_pure] at h
  obtain ⟨-, rfl⟩ := Prod.mk.inj h
  exact hkeep

theorem upsertPerson_accesses {env : Env} {idpId : String} {user : KeycloakUser} {p : Person}
    {w' : World} (h : (KeycloakAccessSyncService.upsertPerson env idpId user).run w = (.ok p, w')) :
    w'.db.accesses = w.db.accesses := by
  unfold KeycloakAccessSyncService.upsertPerson at h
  rw [attempt_eq_ok] at h
  cases hf : w.db.persons.rows.find? (·.idpId = some idpId) with
  | some q =>
    rw [hf] at h
    obtain ⟨-, rfl⟩ := Prod.mk.inj (Except.ok.inj h)
    rfl
  | none =>
    rw [hf] at h
    simp only at h
    split at h
    · obtain ⟨-, rfl⟩ := Prod.mk.inj (Except.ok.inj h)
      rfl
    · exact absurd h (by simp)

/-- The invariant of the import loop: the property, and the fact that an import which is not
    the first of person `pid` finds a row of theirs. -/
def SyncInvariant (personId pid : String) (first : Bool) (w : World) : Prop :=
  PrimaryAccessExists personId w.db ∧
    (first = false → ∃ a ∈ w.db.accesses, a.personId = pid)

theorem upsertSynced_keeps {env : Env} {pid clientId siteId roleId : String} {first : Bool}
    (hw : SyncInvariant personId pid first w) :
    (upsertAccess (KeycloakAccessSyncService.syncedRow env pid clientId siteId first roleId) id
      fun _ => rfl).Leaves (SyncInvariant personId pid first) w := by
  refine atomic_upsertAccess.leaves hw fun r w' h => ?_
  obtain ⟨-, -, hflag⟩ := upsertAccess_flag h
  obtain ⟨hprim, hrow⟩ := hw
  refine ⟨hprim.update hflag fun hk => ?_, fun hf => ?_⟩
  · cases hfind : w.db.accesses.find?
        (KeycloakAccessSyncService.syncedRow env pid clientId siteId first roleId).key with
    | some b =>
      -- the row is there and keeps its flag
      obtain ⟨hb, hbk⟩ := Table.find?_eq_some.mp hfind
      cases hbp : b.isPrimary with
      | true => exact .inl (by simpa using hbp)
      | false =>
        have hbperson : b.personId = personId := (congrArg AccessKey.personId hbk).trans hk
        obtain ⟨c, hc, hcp, hcprim⟩ := hprim ⟨b, hb, hbperson⟩
        refine .inr ⟨c.key, fun he => ?_, hcp, by rw [mem_primaryFlag hc, hcprim]⟩
        rw [Table.eq_of_key_eq hc hb (he.trans hbk.symm), hbp] at hcprim
        exact absurd hcprim (by simp)
    | none =>
      cases hfirst : first with
      | true => exact .inl rfl
      | false =>
        obtain ⟨a, ha, hap⟩ := hrow hfirst
        obtain ⟨c, hc, hcp, hcprim⟩ := hprim ⟨a, ha, hap.trans hk⟩
        rw [hfirst] at hfind
        exact .inr ⟨c.key, Table.find?_eq_none.mp hfind c hc, hcp,
          by rw [mem_primaryFlag hc, hcprim]⟩
  · obtain ⟨a, ha, hap⟩ := hrow hf
    have hsome : (w'.db.primaryFlag a.key).isSome = true := by
      rw [hflag, Function.update_apply]
      split
      · rfl
      · exact primaryFlag_isSome.mpr ⟨a, ha, rfl⟩
    obtain ⟨b, hb, hbk⟩ := primaryFlag_isSome.mp hsome
    exact ⟨b, hb, (congrArg AccessKey.personId hbk).trans hap⟩

theorem syncUser_keeps (env : Env) (user : KeycloakUser) (maps : SyncMaps)
    (groups : List (Option String)) (hw : PrimaryAccessExists personId w.db) :
    (KeycloakAccessSyncService.syncUser env user maps groups).Leaves
      (fun w => PrimaryAccessExists personId w.db) w := by
  unfold KeycloakAccessSyncService.syncUser
  split
  · exact hw
  split
  · split
    · dsimp only
      split
      · exact hw
      refine leaves_transaction hw fun r w' h => ?_
      rw [bind_eq_ok] at h
      obtain ⟨person, w₁, hperson, h⟩ := h
      rw [run_query_bind, bind_eq_ok] at h
      obtain ⟨rs, w₂, hloop, h⟩ := h
      rw [run_pure] at h
      obtain ⟨-, rfl⟩ := Prod.mk.inj h
      have hw₁ := hw.congr (upsertPerson_accesses hperson)
      have hstart : decide ((w₁.db.accesses.rows.filter (·.personId = person.id)).length = 0) =
          false → ∃ a ∈ w₁.db.accesses, a.personId = person.id := by
        intro hne
        simp only [decide_eq_false_iff_not, List.length_eq_zero_iff, List.filter_eq_nil_iff,
          decide_eq_true_eq, not_forall, Decidable.not_not] at hne
        obtain ⟨a, ha, hap⟩ := hne
        exact ⟨a, ha, hap⟩
      have hinv : SyncInvariant personId person.id _ w₁ := ⟨hw₁, hstart⟩
      exact (forEach_ok_keeps hloop (fun _ _ _ hu => upsertSynced_keeps hu) hinv).1
    · exact hw
  · exact hw

end Keep

/-! ## 2. Removing a member -/

/-- The removal of person `id` goes through, at the client of the grant `g`. -/
structure Removable (cls : Cls) (id : String) (db : Db) (g : AccessGrant) : Prop where
  grant : cls.accessGrant = some g
  asPerson : cls.person.isSome = true
  found : (db.persons.find? id).isSome = true
  member : ∃ a ∈ db.accesses, a.personId = id ∧ a.clientId = g.clientId

/-- **What a removal needs:** if the member has rows at other clients, a primary one is
    among them. -/
def RemoveCondition (cls : Cls) (id : String) (db : Db) : Prop :=
  ∀ g, Removable cls id db g →
    (∃ a ∈ db.accesses, a.personId = id ∧ a.clientId ≠ g.clientId) →
    ∃ a ∈ db.accesses, a.personId = id ∧ a.clientId ≠ g.clientId ∧ a.isPrimary = true

/-- A removal under the client's row policy takes the person's rows at that client and
    touches no other row: the promotion finds nothing it can see. -/
theorem remove_spec {cls : Cls} {env : Env} {id : String} {w : World}
    (hscoped : (buildPrimaryExtension cls env.allowedSiteIdsForSite {}).bypassRLS = false) :
    (∃ g, Removable cls id w.db g ∧ (MembersService.remove cls env id).Leaves
        (fun w' => ∀ k, w'.db.primaryFlag k =
          if k.personId = id ∧ k.clientId = g.clientId then none else w.db.primaryFlag k) w) ∨
      ((∀ g, ¬ Removable cls id w.db g) ∧
        (MembersService.remove cls env id).Leaves (fun w' => w'.db = w.db) w) := by
  by_cases h : ∃ g, Removable cls id w.db g
  · obtain ⟨g, h⟩ := h
    refine .inl ⟨g, h, ?_⟩
    obtain ⟨p, hp⟩ := Option.isSome_iff_exists.mp h.asPerson
    obtain ⟨q, hq⟩ := Option.isSome_iff_exists.mp h.found
    obtain ⟨rls, hbuild, hoff, hclient⟩ := prismaBuild_pure hscoped h.grant hp
    have hsees : ∀ c, rls.seesClient c = decide (g.clientId = c) := by
      intro c
      rw [Settings.seesClient, hoff, Bool.false_or, hclient]
    have hfind : (MembersService.findPersonOrThrow rls id).run w = (.ok q, w) := by
      obtain ⟨a, ha, hap, hac⟩ := h.member
      have hperson : rls.seesPerson w.db q.id = true := by
        rw [(Table.find?_eq_some.mp hq).2, Settings.seesPerson, hoff, Bool.false_or,
          List.any_eq_true]
        exact ⟨a, ha, by rw [hclient, hap, hac]; simp⟩
      exact MembersService.findPersonOrThrow_eq_ok.mpr ⟨⟨hq, hperson⟩, rfl⟩
    unfold MembersService.remove Cls.requireAccessGrant
    rw [h.grant, orRaise_some, hbuild]
    refine leaves_bind_of_run (run_pure ..) (leaves_bind_of_run (run_pure ..) ?_)
    refine leaves_bind_of_run hfind ?_
    refine leaves_bind_of_run (run_query ..) (leaves_bind_of_run (run_query ..) ?_)
    refine CacheOnly.leaves_bind (I := fun db => ∀ k, db.primaryFlag k =
      if k.personId = id ∧ k.clientId = g.clientId then none else w.db.primaryFlag k)
      (fun _ => cacheOnly_clearOf ..) ?_
    obtain ⟨w', hdel, -, hflag⟩ := deleteAccesses_run
      (fun k => rls.seesClient k.clientId && decide (k.personId = id) &&
        decide (k.clientId = g.clientId)) w
    have hflag' : ∀ k, w'.db.primaryFlag k =
        if k.personId = id ∧ k.clientId = g.clientId then none else w.db.primaryFlag k := by
      intro k
      rw [hflag, hsees]
      by_cases hk : k.personId = id ∧ k.clientId = g.clientId
      · simp [hk.1, hk.2]
      · rw [if_neg hk, if_neg]
        simp only [Bool.and_eq_true, decide_eq_true_eq, not_and] at hk ⊢
        exact fun hs hkc => hk hs.2 hkc
    -- every row in sight is at the client just emptied
    have hnone : ∀ a ∈ w'.db.accesses, a.personId = id → rls.seesClient a.clientId = false := by
      intro a ha hap
      rw [hsees, decide_eq_false_iff_not]
      intro hac
      have := mem_primaryFlag ha
      rw [hflag', if_pos ⟨hap, hac.symm⟩] at this
      exact absurd this (by simp)
    refine leaves_transaction_of_run (t := w') (a := ()) ?_ hflag'
    rw [run_bind_ok hdel]
    split
    · exact promoteOldestRemaining_nothing hnone
    · rfl
  · push Not at h
    refine .inr ⟨h, ?_⟩
    unfold MembersService.remove
    refine (readOnly_requireAccessGrant cls).leaves_bind rfl fun g hg => ?_
    refine (readOnly_prismaBuild cls env {}).leaves_bind rfl fun rls hrls => ?_
    refine (MembersService.readOnly_findPersonOrThrow rls id).leaves_bind rfl fun q hq => ?_
    obtain ⟨g', p, hg', hp, -, hoff, hclient⟩ := prismaBuild_scoped hscoped rfl hrls
    obtain ⟨-, hfound, -, hrow⟩ := findPersonOrThrow_ok hq
    obtain ⟨a, ha, hap, hac⟩ := hrow hoff
    rw [hclient, decide_eq_true_eq] at hac
    exact absurd ⟨hg', by rw [hp]; rfl, by rw [hfound]; rfl, a, ha, hap, hac.symm⟩ (h g')

theorem remove_keeps_iff {personId : String} {cls : Cls} {env : Env} {id : String} {w : World}
    (hscoped : (buildPrimaryExtension cls env.allowedSiteIdsForSite {}).bypassRLS = false)
    (hw : PrimaryAccessExists personId w.db) :
    (MembersService.remove cls env id).Leaves (fun w => PrimaryAccessExists personId w.db) w ↔
      (id = personId → RemoveCondition cls id w.db) := by
  change PrimaryAccessExists personId ((MembersService.remove cls env id).after w).db ↔ _
  rcases remove_spec hscoped with ⟨g, hg, hafter⟩ | ⟨hno, hafter⟩
  · change ∀ k, ((MembersService.remove cls env id).after w).db.primaryFlag k = _ at hafter
    have hunique : ∀ g', Removable cls id w.db g' → g' = g := fun g' hg' =>
      Option.some.inj (hg'.grant.symm.trans hg.grant)
    rw [primaryAccessExists_iff]
    simp only [hafter]
    by_cases hp : id = personId
    · subst hp
      constructor
      · rintro h - g' hg' ⟨a, ha, hap, hac⟩
        obtain rfl := hunique g' hg'
        have hak : ¬ (a.key.personId = id ∧ a.key.clientId = g'.clientId) := fun hk => hac hk.2
        obtain ⟨k, hkp, hk⟩ := h ⟨a.key, hap, by
          rw [if_neg hak]; exact primaryFlag_isSome.mpr ⟨a, ha, rfl⟩⟩
        split at hk
        · exact absurd hk (by simp)
        rename_i hkc
        obtain ⟨b, hb, rfl, hbprim⟩ := primaryFlag_eq_some.mp hk
        exact ⟨b, hb, hkp, fun hc => hkc ⟨hkp, hc⟩, hbprim⟩
      · rintro h ⟨k, hkp, hk⟩
        split at hk
        · exact absurd hk (by simp)
        rename_i hkc
        obtain ⟨a, ha, rfl⟩ := primaryFlag_isSome.mp hk
        obtain ⟨b, hb, hbp, hbc, hbprim⟩ := h rfl g hg ⟨a, ha, hkp, fun hc => hkc ⟨hkp, hc⟩⟩
        refine ⟨b.key, hbp, ?_⟩
        rw [if_neg fun hc => hbc hc.2, mem_primaryFlag hb, hbprim]
    · -- somebody else's rows
      refine ⟨fun _ he => absurd he hp, fun _ => ?_⟩
      rintro ⟨k, hkp, hk⟩
      have hne : ∀ k : AccessKey, k.personId = personId →
          ¬ (k.personId = id ∧ k.clientId = g.clientId) := fun k hk hk' =>
        hp (hk'.1.symm.trans hk)
      rw [if_neg (hne k hkp)] at hk
      obtain ⟨k', hkp', hk'⟩ := primaryAccessExists_iff.mp hw ⟨k, hkp, hk⟩
      exact ⟨k', hkp', by rw [if_neg (hne k' hkp')]; exact hk'⟩
  · change ((MembersService.remove cls env id).after w).db = w.db at hafter
    rw [hafter]
    exact ⟨fun _ _ g hg => absurd hg (hno g), fun _ => hw⟩

/-! ## 3. Accepting an invitation -/

/-- The rows the invitations write do not include `a`. -/
def Untouched (a : PersonClientAccess) (invs : List Invitation) : Prop :=
  ∀ inv ∈ invs, InvitationsService.accessKey a.personId inv ≠ a.key

/-- The clicked invitation is written as primary, and is not written over by a later one. -/
def ClickedStaysPrimary (env : Env) (personId code : String) (db : Db) (invs : List Invitation) :
    Prop :=
  ∃ inv, invs[InvitationsService.clickedIndex code invs]? = some inv ∧
    mayBePrimary (findPrimaryAccess env personId db) inv.clientId inv.siteId = true ∧
    ∀ later ∈ invs.drop (InvitationsService.clickedIndex code invs + 1),
      InvitationsService.accessKey personId later ≠ InvitationsService.accessKey personId inv

/-- **What an accept needs:** some primary row of the person that the group does not name,
    or a clicked invitation that becomes primary and stays it. -/
def AcceptCondition (cfg : Config) (cls : Cls) (env : Env) (code personId : String) (db : Db) :
    Prop :=
  ∀ inv person, InvitationsService.Acceptable cfg cls env code db inv person →
    person.id = personId →
    (∃ a ∈ db.accesses, a.personId = personId ∧ a.isPrimary = true ∧
        Untouched a (InvitationsService.pendingGroup env inv db)) ∨
      ClickedStaysPrimary env personId code db (InvitationsService.pendingGroup env inv db)

/-- `inv` is the clicked invitation, is written as primary where `existingPrimaryAccess` was found,
    and is not written over by a later one. -/
def BecomesPrimary (personId code : String) (existingPrimaryAccess : Option PersonClientAccess)
    (invs : List Invitation) (inv : Invitation) : Prop :=
  invs[InvitationsService.clickedIndex code invs]? = some inv ∧
    mayBePrimary existingPrimaryAccess inv.clientId inv.siteId = true ∧
    ∀ later ∈ invs.drop (InvitationsService.clickedIndex code invs + 1),
      InvitationsService.accessKey personId later ≠ InvitationsService.accessKey personId inv

/-- The last write of an accept at a row is primary precisely for a clicked invitation that
    nothing later in the group writes over. -/
theorem acceptedRows_last_primary {env : Env} {personId code : String}
    {existing : Option PersonClientAccess} {invs : List Invitation} {k : AccessKey} :
    (∃ pre post, (InvitationsService.acceptedRows env personId code existing invs).map
        (fun a => (a.key, some a.isPrimary)) = pre ++ (k, some true) :: post ∧
        k ∉ post.map Prod.fst) ↔
      ∃ inv, BecomesPrimary personId code existing invs inv ∧
        InvitationsService.accessKey personId inv = k := by
  have hrow (n : Nat) : ((InvitationsService.acceptedRows env personId code existing invs).map
        (fun a => (a.key, some a.isPrimary)))[n]? =
      (invs[n]?).map fun inv => (InvitationsService.accessKey personId inv,
        some (decide (n = InvitationsService.clickedIndex code invs) &&
          mayBePrimary existing inv.clientId inv.siteId)) := by
    unfold InvitationsService.acceptedRows
    rw [List.map_map, List.getElem?_map, List.getElem?_zipIdx, Option.map_map, Nat.zero_add]
    rfl
  have hkeys : ((InvitationsService.acceptedRows env personId code existing invs).map
      (fun a => (a.key, some a.isPrimary))).map Prod.fst =
      invs.map (InvitationsService.accessKey personId) := by
    rw [List.map_map]
    exact InvitationsService.map_key_acceptedRows ..
  constructor
  · rintro ⟨pre, post, heq, hk⟩
    have hat := hrow pre.length
    rw [heq, List.getElem?_append_right (Nat.le_refl _), Nat.sub_self, List.getElem?_cons_zero]
      at hat
    obtain ⟨inv, hinv, hval⟩ := Option.map_eq_some_iff.mp hat.symm
    obtain ⟨rfl, hflag⟩ := Prod.mk.inj hval
    simp only [Option.some.injEq, Bool.and_eq_true, decide_eq_true_eq] at hflag
    have hpost : post.map Prod.fst =
        (invs.drop (pre.length + 1)).map (InvitationsService.accessKey personId) := by
      rw [List.map_drop, ← hkeys, heq, ← List.map_drop, List.drop_append, List.drop_of_length_le
        (Nat.le_succ _), List.nil_append, Nat.add_sub_cancel_left, List.drop_one, List.tail_cons]
    rw [hflag.1] at hinv hpost
    refine ⟨inv, ⟨hinv, hflag.2, fun later hl he => hk ?_⟩, rfl⟩
    rw [hpost, ← he]
    exact List.mem_map_of_mem hl
  · rintro ⟨inv, ⟨hinv, hmay, hlater⟩, rfl⟩
    have hat := hrow (InvitationsService.clickedIndex code invs)
    rw [hinv, Option.map_some, hmay] at hat
    simp only [decide_true, Bool.and_true] at hat
    obtain ⟨hlt, hget⟩ := List.getElem?_eq_some_iff.mp hat
    refine ⟨_, _, (List.take_append_drop _ _).symm.trans (by
      rw [List.drop_eq_getElem_cons hlt, hget]), ?_⟩
    rw [List.map_drop, hkeys, ← List.map_drop]
    intro hmem
    obtain ⟨later, hl, he⟩ := List.mem_map.mp hmem
    exact hlater later hl he

theorem acceptWrites_last_primary {env : Env} {personId code : String} {db : Db}
    {invs : List Invitation} :
    (∃ k pre post, InvitationsService.acceptWrites env personId code db invs =
        pre ++ (k, some true) :: post ∧ k ∉ post.map Prod.fst) ↔
      ClickedStaysPrimary env personId code db invs := by
  constructor
  · rintro ⟨k, hlast⟩
    obtain ⟨inv, hclicked, -⟩ := acceptedRows_last_primary.1 hlast
    exact ⟨inv, hclicked⟩
  · rintro ⟨inv, hclicked⟩
    exact ⟨_, acceptedRows_last_primary.2 ⟨inv, hclicked, rfl⟩⟩

theorem accept_keeps_iff {personId : String} {cfg : Config} {cls : Cls} {env : Env}
    {code : String} {w : World} (hw : PrimaryAccessExists personId w.db) :
    (InvitationsService.accept cfg cls env code).Leaves
        (fun w => PrimaryAccessExists personId w.db) w ↔
      AcceptCondition cfg cls env code personId w.db := by
  change PrimaryAccessExists personId ((InvitationsService.accept cfg cls env code).after w).db ↔ _
  rcases InvitationsService.accept_spec cfg cls env code w with
    ⟨inv, person, hacc, hafter⟩ | ⟨hno, hafter⟩
  · obtain ⟨-, hflag⟩ := hafter
    have hunique : ∀ inv' person', InvitationsService.Acceptable cfg cls env code w.db inv' person' →
        inv' = inv ∧ person' = person := fun inv' person' h' =>
      ⟨Option.some.inj (h'.found.symm.trans hacc.found),
        Option.some.inj (h'.asPerson.symm.trans hacc.asPerson)⟩
    have hkeys := InvitationsService.acceptWrites_keys env person.id code w.db
      (InvitationsService.pendingGroup env inv w.db)
    rw [primaryAccessExists_iff, hflag]
    by_cases hp : person.id = personId
    · subst hp
      obtain ⟨i, hi⟩ := List.exists_mem_of_ne_nil _
        (InvitationsService.pendingGroup_ne_nil env (List.mem_of_find?_eq_some hacc.found) hacc.pending)
      constructor
      · intro h inv' person' h' _
        obtain ⟨rfl, rfl⟩ := hunique inv' person' h'
        obtain ⟨k, hkp, hk⟩ := h ⟨_, rfl, InvitationsService.accepted_row_exists hi⟩
        rcases overwrite_eq_iff.mp hk with ⟨hno, hk⟩ | ⟨pre, post, heq, hlast⟩
        · obtain ⟨a, ha, rfl, hprim⟩ := primaryFlag_eq_some.mp hk
          have hap : a.personId = person'.id := hkp
          refine .inl ⟨a, ha, hap, hprim, fun j hj he => hno ?_⟩
          rw [hkeys, ← he, hap]
          exact List.mem_map_of_mem hj
        · exact .inr (acceptWrites_last_primary.1 ⟨k, pre, post, heq, hlast⟩)
      · rintro h -
        rcases h inv person hacc rfl with ⟨a, ha, hap, hprim, huntouched⟩ | hclicked
        · refine ⟨a.key, hap, overwrite_eq_iff.mpr (.inl ⟨?_, by rw [mem_primaryFlag ha, hprim]⟩)⟩
          rw [hkeys]
          intro hmem
          obtain ⟨j, hj, he⟩ := List.mem_map.mp hmem
          exact huntouched j hj (by rw [hap]; exact he)
        · obtain ⟨k, pre, post, heq, hlast⟩ := acceptWrites_last_primary.2 hclicked
          have hmem : k ∈ (InvitationsService.acceptWrites env person.id code w.db
              (InvitationsService.pendingGroup env inv w.db)).map Prod.fst := by
            rw [heq]; simp
          rw [hkeys] at hmem
          obtain ⟨j, -, rfl⟩ := List.mem_map.mp hmem
          exact ⟨_, rfl, overwrite_eq_iff.mpr (.inr ⟨pre, post, heq, hlast⟩)⟩
    · -- the accept writes at another person's keys only
      have hother : ∀ k : AccessKey, k.personId = personId →
          k ∉ (InvitationsService.acceptWrites env person.id code w.db
            (InvitationsService.pendingGroup env inv w.db)).map Prod.fst := by
        intro k hk hmem
        rw [hkeys] at hmem
        obtain ⟨i, -, rfl⟩ := List.mem_map.mp hmem
        exact hp hk
      refine ⟨fun _ inv' person' h' he => ?_, fun _ => ?_⟩
      · obtain ⟨-, rfl⟩ := hunique inv' person' h'
        exact absurd he hp
      · rintro ⟨k, hkp, hk⟩
        have hk₀ : (w.db.primaryFlag k).isSome = true := by
          rwa [overwrite_eq_iff.mpr (.inl ⟨hother k hkp, rfl⟩)] at hk
        obtain ⟨k', hkp', hk'⟩ := primaryAccessExists_iff.mp hw ⟨k, hkp, hk₀⟩
        exact ⟨k', hkp', overwrite_eq_iff.mpr (.inl ⟨hother k' hkp', hk'⟩)⟩
  · change ((InvitationsService.accept cfg cls env code).after w).db = w.db at hafter
    rw [hafter]
    exact ⟨fun _ inv person hacc => absurd hacc (hno inv person), fun _ => hw⟩

/-! ## 4. Whole runs -/

/-- A call that changes access rows. -/
inductive AccessCall
  | accept (cls : Cls) (env : Env) (code : String)
  | membersAddRole (cls : Cls) (env : Env) (id : String) (dto : AddRoleDto)
  | membersRemoveRole (cls : Cls) (env : Env) (id : String) (dto : RemoveRoleDto)
  | membersRemove (cls : Cls) (env : Env) (id : String)
  | usersAddRole (env : Env) (id : String) (dto : AddUserRoleDto)
  | usersRemoveRole (env : Env) (id : String) (dto : RemoveUserRoleDto)
  | syncUser (env : Env) (user : KeycloakUser) (maps : SyncMaps) (groups : List (Option String))

namespace AccessCall

/-- Run a call to its end, thrown out of or not. -/
def step (cfg : Config) (w : World) : AccessCall → World
  | .accept cls env code => (InvitationsService.accept cfg cls env code).after w
  | .membersAddRole cls env id dto => (MembersService.addRole cls env id dto).after w
  | .membersRemoveRole cls env id dto => (MembersService.removeRole cls env id dto).after w
  | .membersRemove cls env id => (MembersService.remove cls env id).after w
  | .usersAddRole env id dto => (UsersService.addRole env id dto).after w
  | .usersRemoveRole env id dto => (UsersService.removeRole env id dto).after w
  | .syncUser env user maps groups =>
    (KeycloakAccessSyncService.syncUser env user maps groups).after w

/-- The queries of a members call see the rows of the caller's client only. -/
def UnderRls : AccessCall → Prop
  | .membersAddRole cls env _ _ | .membersRemoveRole cls env _ _ | .membersRemove cls env _ =>
    (buildPrimaryExtension cls env.allowedSiteIdsForSite {}).bypassRLS = false
  | _ => True

/-- What the property needs of a call. -/
def PrimaryCondition (cfg : Config) (personId : String) (w : World) : AccessCall → Prop
  | .accept cls env code => AcceptCondition cfg cls env code personId w.db
  | .membersRemove cls _ id => id = personId → RemoveCondition cls id w.db
  | _ => True

theorem step_keeps_iff {cfg : Config} {personId : String} {w : World} {call : AccessCall}
    (hrls : call.UnderRls) (hw : PrimaryAccessExists personId w.db) :
    PrimaryAccessExists personId (call.step cfg w).db ↔ call.PrimaryCondition cfg personId w := by
  cases call with
  | accept cls env code => exact accept_keeps_iff hw
  | membersAddRole cls env id dto => exact iff_of_true (membersAddRole_keeps hrls hw) trivial
  | membersRemoveRole cls env id dto => exact iff_of_true (membersRemoveRole_keeps hw) trivial
  | membersRemove cls env id => exact remove_keeps_iff hrls hw
  | usersAddRole env id dto => exact iff_of_true (usersAddRole_keeps env id dto hw) trivial
  | usersRemoveRole env id dto => exact iff_of_true (usersRemoveRole_keeps env id dto hw) trivial
  | syncUser env user maps groups =>
    exact iff_of_true (syncUser_keeps env user maps groups hw) trivial

end AccessCall

/-- **When primary access always exists.** Along a run from no rows of the person, every
    state has a primary row for a person with rows exactly when every accept and every
    removal of the run meets its condition. -/
theorem primaryAccess_iff {cfg : Config} {personId : String} {w : World}
    {calls : List AccessCall} (hnone : ∀ a ∈ w.db.accesses, a.personId ≠ personId)
    (hrls : ∀ call ∈ calls, call.UnderRls) :
    (∀ w', Reached (AccessCall.step cfg) w calls w' → PrimaryAccessExists personId w'.db) ↔
      ∀ u call, Fired (AccessCall.step cfg) w calls u call →
        call.PrimaryCondition cfg personId u :=
  reached_iff_fired (I := fun _ => True) trivial
    (fun ⟨a, ha, hp⟩ => absurd hp (hnone a ha)) (fun _ _ _ _ => trivial)
    fun _ call hcall _ hu => AccessCall.step_keeps_iff (hrls call hcall) hu

/-! ## 5. A run that loses it

A person with access at two clients, removed by a manager of the client that is primary.
What is left is a row at the other client, and it is not primary. -/

/-- Two clients with a site each, one role, and the person `p` without any access. -/
def twoClients : World where
  db :=
    { clients := ⟨[{ id := "acme", externalId := "x-acme", status := .active },
        { id := "bolt", externalId := "x-bolt", status := .active }], by decide⟩
      sites := ⟨[{ id := "acme-1", externalId := "x-acme-1", createdOn := 0, clientId := "acme" },
        { id := "bolt-1", externalId := "x-bolt-1", createdOn := 0, clientId := "bolt" }],
        by decide⟩
      roles := ⟨[{ id := "inspector", name := "Inspector", clientAssignable := true }], by decide⟩
      persons := ⟨[{ id := "p", firstName := "P", lastName := "P", email := "p@x.org" },
        { id := "m", firstName := "M", lastName := "M", email := "m@x.org" }], by decide⟩ }

/-- A manager of `acme`. -/
def acmeManager : Cls where
  person := some { id := "m", firstName := "M", lastName := "M", email := "m@x.org" }
  accessGrant := some
    { roleId := "manager", scope := .client, capabilities := ["manage-users"],
      clientId := "acme", siteId := "acme-1" }

def joinTwoLeaveOne : List AccessCall :=
  [.usersAddRole {} "p" ⟨"acme", "acme-1", "inspector"⟩,
   .usersAddRole {} "p" ⟨"bolt", "bolt-1", "inspector"⟩,
   .membersRemove acmeManager {} "p"]

theorem joinTwoLeaveOne_loses_primary :
    (∀ a ∈ twoClients.db.accesses, a.personId ≠ "p") ∧ (∀ call ∈ joinTwoLeaveOne, call.UnderRls) ∧
      ∃ w', Reached (AccessCall.step {}) twoClients joinTwoLeaveOne w' ∧
        ¬ PrimaryAccessExists "p" w'.db := by
  refine ⟨fun a ha => absurd ha List.not_mem_nil, ?_, _,
    .inr (.inr (.inr rfl)), fun h => ?_⟩
  · intro call hcall
    simp only [joinTwoLeaveOne, List.mem_cons, List.not_mem_nil, or_false] at hcall
    rcases hcall with rfl | rfl | rfl
    · trivial
    · trivial
    · rfl
  · have hrows : (AccessCall.step {} (AccessCall.step {} (AccessCall.step {} twoClients
        (.usersAddRole {} "p" ⟨"acme", "acme-1", "inspector"⟩))
        (.usersAddRole {} "p" ⟨"bolt", "bolt-1", "inspector"⟩))
        (.membersRemove acmeManager {} "p")).db.accesses.rows =
        [{ createdOn := 0, isPrimary := false, personId := "p", clientId := "bolt",
           siteId := "bolt-1", roleId := "inspector" }] := by decide
    obtain ⟨a, ha, -, hprim⟩ := h
      ⟨_, by rw [← Table.mem_rows, hrows]; exact List.mem_singleton_self _, rfl⟩
    rw [← Table.mem_rows, hrows, List.mem_singleton] at ha
    rw [ha] at hprim
    exact absurd hprim (by decide)

theorem primaryAccess_iff_joinTwoLeaveOne :
    (∀ w', Reached (AccessCall.step {}) twoClients joinTwoLeaveOne w' →
        PrimaryAccessExists "p" w'.db) ↔
      ∀ u call, Fired (AccessCall.step {}) twoClients joinTwoLeaveOne u call →
        call.PrimaryCondition {} "p" u :=
  primaryAccess_iff (fun a ha => absurd ha List.not_mem_nil) fun call hcall => by
    simp only [joinTwoLeaveOne, List.mem_cons, List.not_mem_nil, or_false] at hcall
    rcases hcall with rfl | rfl | rfl
    · trivial
    · trivial
    · rfl

end ShieldApi
