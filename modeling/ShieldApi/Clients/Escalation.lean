import ShieldApi.Admin.Roles
import ShieldApi.Clients.CreationChecks
import ShieldApi.Clients.Members

/-!
# Who can hand out which role

Below `SYSTEM` scope a caller may hand out assignable roles only. This file asks whether the
calls of the invitation and member services keep to that: **does every invitation and every
access row they create carry an assignable role?**

The check is made in one place, the role query of `createBulk`, so `createBulk`, `invite`
and `renew` create assignable invitations only, and an accept passes on what its invitations
carry. `MembersService.addRole` makes no check: it creates the row from the role id it was
sent. `escalation_iff` is the resulting statement about a run. It holds from any state, so
it also has to speak of the invitations that stood there before, which a system
administrator may have issued for any role.
-/

set_option autoImplicit false

namespace ShieldApi

open Effect

/-- Clients may hand this role out. -/
def Db.Assignable (db : Db) (roleId : String) : Prop :=
  ∃ r ∈ db.roles, r.id = roleId ∧ r.clientAssignable = true

/-- By the rule of the roles service an assignable role is below `GLOBAL`. -/
theorem Db.Assignable.below_global {db : Db} {roleId : String} (hrule : RolesRule db)
    (h : db.Assignable roleId) : ∃ r ∈ db.roles, r.id = roleId ∧
      isScopeAtLeast r.scope .global = false := by
  obtain ⟨r, hr, hid, ha⟩ := h
  exact ⟨r, hr, hid, hrule r hr ha⟩

/-! ## 1. Creating invitations -/

/-- `db'` differs from `db` in its invitations, and an invitation of `db'` is one of `db`, by
    id and role, or has a role with `ok`. -/
structure InvitationsGrow (ok : String → Prop) (db db' : Db) : Prop where
  only : ∃ t, db' = { db with invitations := t }
  rows : ∀ i ∈ db'.invitations,
    (∃ j ∈ db.invitations, j.id = i.id ∧ j.roleId = i.roleId) ∨ ok i.roleId

theorem InvitationsGrow.refl (ok : String → Prop) (db : Db) : InvitationsGrow ok db db :=
  ⟨⟨db.invitations, rfl⟩, fun i hi => .inl ⟨i, hi, rfl, rfl⟩⟩

theorem InvitationsGrow.trans {ok : String → Prop} {db db' db'' : Db}
    (h : InvitationsGrow ok db db') (h' : InvitationsGrow ok db' db'') :
    InvitationsGrow ok db db'' := by
  obtain ⟨t, ht⟩ := h.only
  obtain ⟨t', ht'⟩ := h'.only
  refine ⟨⟨t', by rw [ht', ht]⟩, fun i hi => ?_⟩
  rcases h'.rows i hi with ⟨j, hj, hid, hrole⟩ | hok
  · rcases h.rows j hj with ⟨k, hk, hkid, hkrole⟩ | hok
    · exact .inl ⟨k, hk, hkid.trans hid, hkrole.trans hrole⟩
    · exact .inr (hrole ▸ hok)
  · exact .inr hok

theorem createInvitation_grows {ok : String → Prop} {inv : Invitation} {db : Db} {w : World}
    (hok : ok inv.roleId) (hw : InvitationsGrow ok db w.db) :
    (createInvitation inv).Leaves (fun w => InvitationsGrow ok db w.db) w := by
  refine createInvitation_leaves hw fun t ht => hw.trans ⟨⟨t, rfl⟩, fun i hi => ?_⟩
  rcases (Table.mem_insert? ht).mp hi with hi | rfl
  · exact .inl ⟨i, hi, rfl, rfl⟩
  · exact .inr hok

/-- The caller's scope, if there is a grant, is below `SYSTEM`. -/
def Cls.BelowSystem (cls : Cls) : Prop :=
  ∀ g, cls.accessGrant = some g → g.scopeAllows .system = false

theorem MayInvite.assignable {g : AccessGrant} {db : Db} {roleId : String}
    (hg : g.scopeAllows .system = false) (h : MayInvite g db roleId) : db.Assignable roleId := by
  obtain ⟨r, hr, hid, hsys | ha⟩ := h
  · exact absurd hsys (by rw [hg]; simp)
  · exact ⟨r, hr, hid, ha⟩

theorem createData_roleId {env : Env} {person : Person} {clientId : String}
    {dto : CreateInvitationsDto} {i : Invitation} (hi : i ∈ createData env person clientId dto) :
    ∃ inv ∈ dto.invitations, i.roleId = inv.roleId := by
  unfold createData at hi
  obtain ⟨⟨inv, n⟩, hmem, rfl⟩ := List.mem_map.mp hi
  exact ⟨inv, List.fst_mem_of_mem_zipIdx hmem, rfl⟩

/-- **Below `SYSTEM`, `createBulk` creates assignable invitations only.** -/
theorem createBulk_grows {cls : Cls} {env : Env} {dto : CreateInvitationsDto} {w : World}
    (hcls : cls.BelowSystem) :
    (InvitationsService.createBulk cls env dto).Leaves
      (fun w' => InvitationsGrow w.db.Assignable w.db w'.db) w := by
  have hw := InvitationsGrow.refl w.db.Assignable w.db
  rw [InvitationsService.createBulk_eq]
  refine (InvitationsService.readOnly_createBulkCheck cls env dto).leaves_bind hw fun rows hcheck => ?_
  obtain ⟨person, g, rls, -, hg, -, -, hroles, -, rfl, -⟩ := createBulkCheck_iff.mp hcheck
  refine insertInvitations_leaves hw fun i hi u hu => createInvitation_grows ?_ hu
  obtain ⟨inv, hinv, hid⟩ := createData_roleId hi
  rw [hid]
  exact MayInvite.assignable (hcls g hg) (hroles inv hinv)

/-- The same after other changes to the invitations. -/
theorem createBulk_grows_from {cls : Cls} {env : Env} {dto : CreateInvitationsDto} {db : Db}
    {w : World} (hcls : cls.BelowSystem) (h : InvitationsGrow db.Assignable db w.db) :
    (InvitationsService.createBulk cls env dto).Leaves
      (fun w' => InvitationsGrow db.Assignable db w'.db) w := by
  have hassign : w.db.Assignable = db.Assignable := by
    obtain ⟨t, ht⟩ := h.only
    rw [ht]
    rfl
  have hgrow : InvitationsGrow w.db.Assignable w.db
      ((InvitationsService.createBulk cls env dto).after w).db := createBulk_grows hcls
  rw [hassign] at hgrow
  exact h.trans hgrow

theorem renew_grows {cls : Cls} {env : Env} {id : String} {dto : RenewInvitationDto} {w : World}
    (hcls : cls.BelowSystem) :
    (InvitationsService.renew cls env id dto).Leaves
      (fun w' => InvitationsGrow w.db.Assignable w.db w'.db) w := by
  refine InvitationsService.renew_leaves (InvitationsGrow.refl w.db.Assignable w.db) fun ids dto' => ?_
  refine createBulk_grows_from hcls ⟨⟨_, rfl⟩, fun i hi => .inl ?_⟩
  obtain ⟨j, hj, rfl | rfl⟩ := mem_updateStatuses hi
  · exact ⟨i, hj, rfl, rfl⟩
  · exact ⟨j, hj, rfl, rfl⟩

/-! ## 2. Adding a role to a member -/

/-- `MembersService.addRole` goes through: the person is in sight, does not have the role at
    the site yet, and the row's references resolve. -/
structure AddRoleGoes (cls : Cls) (env : Env) (id : String) (dto : AddRoleDto) (db : Db)
    (g : AccessGrant) : Prop where
  grant : cls.accessGrant = some g
  inSight : ∃ s p, (buildPrimaryExtension cls env.allowedSiteIdsForSite {}).settings = .ok s ∧
    db.persons.find? id = some p ∧ s.seesPerson db p.id = true
  fresh : db.primaryFlag ⟨id, g.clientId, dto.siteId, dto.roleId⟩ = none
  refs : db.accessRefs ⟨id, g.clientId, dto.siteId, dto.roleId⟩ = true

/-- **An added role is one new row, whatever the role.** -/
theorem addRole_spec (cls : Cls) (env : Env) (id : String) (dto : AddRoleDto) (w : World) :
    (∃ g, AddRoleGoes cls env id dto w.db g ∧ (MembersService.addRole cls env id dto).Leaves
        (fun w' => (∃ t, w'.db = { w.db with accesses := t }) ∧ ∃ v, w'.db.primaryFlag =
          Function.update w.db.primaryFlag ⟨id, g.clientId, dto.siteId, dto.roleId⟩ (some v)) w) ∨
      ((∀ g, ¬ AddRoleGoes cls env id dto w.db g) ∧
        (MembersService.addRole cls env id dto).Leaves (fun w' => w'.db = w.db) w) := by
  by_cases h : ∃ g, AddRoleGoes cls env id dto w.db g
  · obtain ⟨g, h⟩ := h
    obtain ⟨s, p, hs, hp, hsees⟩ := h.inSight
    refine .inl ⟨g, h, ?_⟩
    have hbuild := prismaBuild_of_settings (σ := World) hs
    have hfind : (MembersService.findPersonOrThrow s id).run w = (.ok p, w) :=
      MembersService.findPersonOrThrow_eq_ok.mpr ⟨⟨hp, hsees⟩, rfl⟩
    unfold MembersService.addRole Cls.requireAccessGrant
    rw [h.grant, orRaise_some, hbuild]
    refine leaves_bind_of_run (run_pure ..) (leaves_bind_of_run (run_pure ..) ?_)
    refine leaves_bind_of_run hfind (leaves_bind_of_run (run_query ..) ?_)
    refine CacheOnly.leaves_bind (I := fun db => (∃ t, db = { w.db with accesses := t }) ∧
      ∃ v, db.primaryFlag =
        Function.update w.db.primaryFlag ⟨id, g.clientId, dto.siteId, dto.roleId⟩ (some v))
      (fun _ => (cacheOnly_clearOf ..).bind fun _ => cacheOnly_pure _) ?_
    obtain ⟨w', hrun⟩ := createAccess_run (a := ⟨env.now, _, id, g.clientId, dto.siteId, dto.roleId⟩)
      h.fresh h.refs
    obtain ⟨⟨t, rfl⟩, -, hflag⟩ := createAccess_flag hrun
    unfold Leaves
    rw [after_of_run hrun]
    exact ⟨⟨t, rfl⟩, _, hflag⟩
  · push Not at h
    refine .inr ⟨h, ?_⟩
    unfold MembersService.addRole
    refine (readOnly_orRaise _ _).leaves_bind rfl fun g hg => ?_
    refine (readOnly_prismaBuild cls env {}).leaves_bind rfl fun s hs => ?_
    refine (MembersService.readOnly_findPersonOrThrow s id).leaves_bind rfl fun p hp => ?_
    refine (readOnly_query _).leaves_bind rfl fun _ _ => ?_
    refine CacheOnly.leaves_bind (I := fun db => db = w.db)
      (fun _ => (cacheOnly_clearOf ..).bind fun _ => cacheOnly_pure _) ?_
    refine (atomic_attempt _).leaves rfl fun r w' hr => ?_
    have hg := (orRaise_eq_ok.mp hg).1
    obtain ⟨-, hrefs, -⟩ := createAccess_eq_ok.mp hr
    obtain ⟨-, hfresh, -⟩ := createAccess_flag hr
    obtain ⟨⟨hfound, hsees⟩, -⟩ := MembersService.findPersonOrThrow_eq_ok.mp hp
    exact absurd ⟨hg, ⟨s, p, prismaBuild_eq_ok hs, hfound, hsees⟩, hfresh, hrefs⟩ (h g)

/-! ## 3. Whole runs -/

theorem Db.assignable_congr {db db' : Db} (h : db'.roles = db.roles) :
    db'.Assignable = db.Assignable := by
  unfold Db.Assignable
  rw [h]

/-- The invitations and access rows that `db'` has and `db` does not have an assignable role. -/
def CreatesAssignable (db db' : Db) : Prop :=
  (∀ i ∈ db'.invitations, (∀ j ∈ db.invitations, j.id ≠ i.id) → db'.Assignable i.roleId) ∧
    ∀ a ∈ db'.accesses, (∀ b ∈ db.accesses, b.key ≠ a.key) → db'.Assignable a.roleId

theorem InvitationsGrow.createsAssignable {db db' : Db}
    (h : InvitationsGrow db.Assignable db db') : CreatesAssignable db db' := by
  obtain ⟨t, ht⟩ := h.only
  have hassign : db'.Assignable = db.Assignable := Db.assignable_congr (by rw [ht])
  rw [CreatesAssignable, hassign]
  refine ⟨fun i hi hnew => ?_, fun a ha hnew => ?_⟩
  · rcases h.rows i hi with ⟨j, hj, hid, -⟩ | hok
    · exact absurd hid (hnew j hj)
    · exact hok
  · rw [ht] at ha
    exact absurd rfl (hnew a ha)

/-- A call that creates invitations or access rows. -/
inductive InviteCall
  | createBulk (cls : Cls) (env : Env) (dto : CreateInvitationsDto)
  | renew (cls : Cls) (env : Env) (id : String) (dto : RenewInvitationDto)
  | accept (cls : Cls) (env : Env) (code : String)
  | invite (cls : Cls) (env : Env) (dto : InviteMemberDto)
  | addRole (cls : Cls) (env : Env) (id : String) (dto : AddRoleDto)

namespace InviteCall

def caller : InviteCall → Cls
  | .createBulk cls _ _ | .renew cls _ _ _ | .accept cls _ _ | .invite cls _ _
  | .addRole cls _ _ _ => cls

def step (cfg : Config) (w : World) : InviteCall → World
  | .createBulk cls env dto => (InvitationsService.createBulk cls env dto).after w
  | .renew cls env id dto => (InvitationsService.renew cls env id dto).after w
  | .accept cls env code => (InvitationsService.accept cfg cls env code).after w
  | .invite cls env dto => (MembersService.invite cls env dto).after w
  | .addRole cls env id dto => (MembersService.addRole cls env id dto).after w

end InviteCall

/-- Since the state `start` the roles are unchanged, and an invitation is one of `start` or has
    an assignable role. -/
structure SinceStart (start db : Db) : Prop where
  roles : db.roles = start.roles
  invitations : ∀ i ∈ db.invitations,
    (∃ j ∈ start.invitations, j.id = i.id ∧ j.roleId = i.roleId) ∨ start.Assignable i.roleId

theorem SinceStart.refl (db : Db) : SinceStart db db :=
  ⟨rfl, fun i hi => .inl ⟨i, hi, rfl, rfl⟩⟩

/-- Any change of the database that keeps the roles and grows the invitations so. -/
theorem SinceStart.grow {start db db' : Db} (h : SinceStart start db)
    (hroles : db'.roles = db.roles)
    (hrows : ∀ i ∈ db'.invitations,
      (∃ j ∈ db.invitations, j.id = i.id ∧ j.roleId = i.roleId) ∨ db.Assignable i.roleId) :
    SinceStart start db' := by
  refine ⟨hroles.trans h.roles, fun i hi => ?_⟩
  rcases hrows i hi with ⟨j, hj, hid, hrole⟩ | hok
  · rcases h.invitations j hj with ⟨k, hk, hkid, hkrole⟩ | hok
    · exact .inl ⟨k, hk, hkid.trans hid, hkrole.trans hrole⟩
    · exact .inr (hrole ▸ hok)
  · rw [Db.assignable_congr h.roles] at hok
    exact .inr hok

theorem InvitationsGrow.roles {ok : String → Prop} {db db' : Db} (h : InvitationsGrow ok db db') :
    db'.roles = db.roles := by
  obtain ⟨t, ht⟩ := h.only
  rw [ht]

namespace InviteCall

/-- What the property needs of a call, in a run from `start`: an added role is assignable, and
    so is the role of every row an accept creates from an invitation of `start`. -/
def AssignableCondition (cfg : Config) (start : Db) (w : World) : InviteCall → Prop
  | .accept cls env code =>
    ∀ inv person, InvitationsService.Acceptable cfg cls env code w.db inv person →
      ∀ i ∈ InvitationsService.pendingGroup env inv w.db,
        (∀ b ∈ w.db.accesses, b.key ≠ InvitationsService.accessKey person.id i) →
        (∃ j ∈ start.invitations, j.id = i.id ∧ j.roleId = i.roleId) →
        start.Assignable i.roleId
  | .addRole cls env id dto => ∀ g, AddRoleGoes cls env id dto w.db g → start.Assignable dto.roleId
  | _ => True

theorem step_sinceStart {cfg : Config} {start : Db} {w : World} {call : InviteCall}
    (hcls : call.caller.BelowSystem) (hw : SinceStart start w.db) :
    SinceStart start (call.step cfg w).db := by
  cases call with
  | createBulk cls env dto =>
    have h : InvitationsGrow w.db.Assignable w.db
        ((InvitationsService.createBulk cls env dto).after w).db := createBulk_grows hcls
    exact hw.grow h.roles h.rows
  | renew cls env id dto =>
    have h : InvitationsGrow w.db.Assignable w.db
        ((InvitationsService.renew cls env id dto).after w).db := renew_grows hcls
    exact hw.grow h.roles h.rows
  | accept cls env code =>
    rcases InvitationsService.accept_spec cfg cls env code w with ⟨inv, person, -, h⟩ | ⟨-, h⟩
    · have h : InvitationsService.AcceptedInto env code inv person w.db
          ((InvitationsService.accept cfg cls env code).after w).db := h
      exact hw.grow h.roles fun i hi => .inl (h.invitations i hi)
    · have h : ((InvitationsService.accept cfg cls env code).after w).db = w.db := h
      rw [step, h]
      exact hw
  | invite cls env dto =>
    have h : InvitationsGrow w.db.Assignable w.db
        ((MembersService.invite cls env dto).after w).db := createBulk_grows hcls
    exact hw.grow h.roles h.rows
  | addRole cls env id dto =>
    rcases addRole_spec cls env id dto w with ⟨g, -, ⟨t, ht⟩, -⟩ | ⟨-, h⟩
    · rw [step, ht]
      exact ⟨hw.roles, hw.invitations⟩
    · have h : ((MembersService.addRole cls env id dto).after w).db = w.db := h
      rw [step, h]
      exact hw

theorem createsAssignable_refl (db : Db) : CreatesAssignable db db :=
  ⟨fun i hi hnew => absurd rfl (hnew i hi), fun a ha hnew => absurd rfl (hnew a ha)⟩

/-- The rows an accept creates are the rows of its group that were not there. -/
theorem accept_creates_iff {cfg : Config} {start : Db} {w : World} {cls : Cls} {env : Env}
    {code : String} (hw : SinceStart start w.db) :
    CreatesAssignable w.db ((InvitationsService.accept cfg cls env code).after w).db ↔
      (InviteCall.accept cls env code).AssignableCondition cfg start w := by
  rcases InvitationsService.accept_spec cfg cls env code w with ⟨inv, person, hacc, h⟩ | ⟨hno, h⟩
  · have h : InvitationsService.AcceptedInto env code inv person w.db
        ((InvitationsService.accept cfg cls env code).after w).db := h
    rw [CreatesAssignable, Db.assignable_congr (h.roles.trans hw.roles)]
    constructor
    · rintro ⟨-, hrows⟩ inv' person' hacc' i hi hnew -
      obtain rfl := Option.some.inj (hacc'.found.symm.trans hacc.found)
      obtain rfl := Option.some.inj (hacc'.asPerson.symm.trans hacc.asPerson)
      have hsome : (overwrite w.db.primaryFlag
          (InvitationsService.acceptWrites env person'.id code w.db
            (InvitationsService.pendingGroup env inv' w.db))
          (InvitationsService.accessKey person'.id i)).isSome = true :=
        InvitationsService.accepted_row_exists hi
      rw [← h.flag] at hsome
      obtain ⟨a, ha, hkey⟩ := primaryFlag_isSome.mp hsome
      have hrole := hrows a ha (by rw [hkey]; exact hnew)
      rwa [show a.roleId = i.roleId from congrArg AccessKey.roleId hkey] at hrole
    · intro hcond
      refine ⟨fun i hi hnew => ?_, fun a ha hnew => ?_⟩
      · obtain ⟨j, hj, hid, -⟩ := h.invitations i hi
        exact absurd hid (hnew j hj)
      · -- a row that was not there has the key of an accepted invitation
        have hflag := mem_primaryFlag ha
        rw [h.flag] at hflag
        rcases overwrite_eq_iff.mp hflag with ⟨-, hold⟩ | ⟨pre, post, heq, -⟩
        · obtain ⟨b, hb, hkey, -⟩ := primaryFlag_eq_some.mp hold
          exact absurd hkey (hnew b hb)
        · have hmem : a.key ∈ (InvitationsService.acceptWrites env person.id code w.db
              (InvitationsService.pendingGroup env inv w.db)).map Prod.fst := by
            rw [heq]; simp
          rw [InvitationsService.acceptWrites_keys] at hmem
          obtain ⟨i, hi, hkey⟩ := List.mem_map.mp hmem
          have hrole : a.roleId = i.roleId := (congrArg AccessKey.roleId hkey).symm
          rw [hrole]
          rcases hw.invitations i (InvitationsService.mem_pendingGroup
            (List.mem_of_find?_eq_some hacc.found) hi) with hstart | hok
          · exact hcond inv person hacc i hi (by rw [hkey]; exact hnew) hstart
          · exact hok
  · have h : ((InvitationsService.accept cfg cls env code).after w).db = w.db := h
    rw [h]
    exact iff_of_true (createsAssignable_refl _)
      fun inv person hacc => absurd hacc (hno inv person)

theorem addRole_creates_iff {cfg : Config} {start : Db} {w : World} {cls : Cls} {env : Env}
    {id : String} {dto : AddRoleDto} (hw : SinceStart start w.db) :
    CreatesAssignable w.db ((MembersService.addRole cls env id dto).after w).db ↔
      (InviteCall.addRole cls env id dto).AssignableCondition cfg start w := by
  rcases addRole_spec cls env id dto w with ⟨g, hg, ⟨t, ht⟩, v, hflag⟩ | ⟨hno, h⟩
  · have hroles : ((MembersService.addRole cls env id dto).after w).db.roles = start.roles := by
      rw [ht]
      exact hw.roles
    rw [CreatesAssignable, Db.assignable_congr hroles]
    constructor
    · rintro ⟨-, hrows⟩ g' hg'
      obtain rfl := Option.some.inj (hg'.grant.symm.trans hg.grant)
      have hsome : ((MembersService.addRole cls env id dto).after w).db.primaryFlag
          ⟨id, g'.clientId, dto.siteId, dto.roleId⟩ = some v := by
        rw [hflag, Function.update_self]
      obtain ⟨a, ha, hkey, -⟩ := primaryFlag_eq_some.mp hsome
      have hrole := hrows a ha (by rw [hkey]; exact primaryFlag_eq_none.mp hg.fresh)
      rwa [show a.roleId = dto.roleId from congrArg AccessKey.roleId hkey] at hrole
    · intro hcond
      refine ⟨fun i hi hnew => ?_, fun a ha hnew => ?_⟩
      · rw [ht] at hi
        exact absurd rfl (hnew i hi)
      · by_cases hkey : a.key = ⟨id, g.clientId, dto.siteId, dto.roleId⟩
        · rw [show a.roleId = dto.roleId from congrArg AccessKey.roleId hkey]
          exact hcond g hg
        · have hold := mem_primaryFlag ha
          rw [hflag, Function.update_of_ne hkey] at hold
          obtain ⟨b, hb, hbk, -⟩ := primaryFlag_eq_some.mp hold
          exact absurd hbk (hnew b hb)
  · have h : ((MembersService.addRole cls env id dto).after w).db = w.db := h
    rw [h]
    exact iff_of_true (createsAssignable_refl _) fun g hg => absurd hg (hno g)

theorem step_creates_iff {cfg : Config} {start : Db} {w : World} {call : InviteCall}
    (hcls : call.caller.BelowSystem) (hw : SinceStart start w.db) :
    CreatesAssignable w.db (call.step cfg w).db ↔ call.AssignableCondition cfg start w := by
  cases call with
  | createBulk cls env dto =>
    have h : InvitationsGrow w.db.Assignable w.db
        ((InvitationsService.createBulk cls env dto).after w).db := createBulk_grows hcls
    exact iff_of_true h.createsAssignable trivial
  | renew cls env id dto =>
    have h : InvitationsGrow w.db.Assignable w.db
        ((InvitationsService.renew cls env id dto).after w).db := renew_grows hcls
    exact iff_of_true h.createsAssignable trivial
  | accept cls env code => exact accept_creates_iff hw
  | invite cls env dto =>
    have h : InvitationsGrow w.db.Assignable w.db
        ((MembersService.invite cls env dto).after w).db := createBulk_grows hcls
    exact iff_of_true h.createsAssignable trivial
  | addRole cls env id dto => exact addRole_creates_iff hw

end InviteCall

/-- **When no call escalates.** In a run of callers below `SYSTEM`, every row created has an
    assignable role exactly when every added role is assignable and no invitation from before
    the run, accepted in it, has a role that is not. The roles of those rows are then below
    `GLOBAL`, wherever the rule of the roles service holds. -/
theorem escalation_iff {cfg : Config} {w : World} {calls : List InviteCall}
    (hcls : ∀ call ∈ calls, call.caller.BelowSystem) :
    ((∀ u call, Fired (InviteCall.step cfg) w calls u call →
        CreatesAssignable u.db (call.step cfg u).db) ↔
      ∀ u call, Fired (InviteCall.step cfg) w calls u call →
        call.AssignableCondition cfg w.db u) ∧
    (RolesRule w.db → ∀ u, Reached (InviteCall.step cfg) w calls u →
      ∀ roleId, u.db.Assignable roleId → ∃ r ∈ u.db.roles, r.id = roleId ∧
        isScopeAtLeast r.scope .global = false) := by
  have hstep : ∀ u, ∀ call ∈ calls, SinceStart w.db u.db →
      SinceStart w.db (call.step cfg u).db := fun u call hcall hu =>
    InviteCall.step_sinceStart (hcls call hcall) hu
  constructor
  · exact fired_iff_fired (I := fun u => SinceStart w.db u.db) (SinceStart.refl w.db) hstep
      fun u call hcall hu => InviteCall.step_creates_iff (hcls call hcall) hu
  · intro hrule u hu roleId hrole
    have hsince := Reached.invariant (I := fun u => SinceStart w.db u.db) (SinceStart.refl w.db)
      hstep hu
    refine hrole.below_global ?_
    unfold RolesRule
    rw [hsince.roles]
    exact hrule

/-! ## 4. A client manager makes a system administrator -/

/-- A client with a manager, a member, and next to its assignable role one of scope `SYSTEM`. -/
def acmeWithRoot : World where
  db :=
    { clients := ⟨[{ id := "acme", externalId := "x-acme", status := .active }],
        List.nodup_singleton _⟩
      sites := ⟨[{ id := "acme-1", externalId := "x-acme-1", createdOn := 0, clientId := "acme" }],
        by decide⟩
      roles := ⟨[{ id := "inspector", name := "Inspector", clientAssignable := true },
        { id := "root", name := "Root", scope := .system }], by decide⟩
      persons := ⟨[{ id := "p", firstName := "P", lastName := "P", email := "p@x.org" },
        { id := "m", firstName := "M", lastName := "M", email := "m@x.org" }],
        (by decide : ["p", "m"].Nodup)⟩
      accesses := ⟨[{ createdOn := 0, isPrimary := true, personId := "p", clientId := "acme",
                      siteId := "acme-1", roleId := "inspector" }], by decide⟩ }

/-- The request of a manager of `acme`. -/
def managerOfAcme : Cls where
  person := some { id := "m", firstName := "M", lastName := "M", email := "m@x.org" }
  accessGrant := some
    { roleId := "manager", scope := .client, capabilities := ["manage-users"],
      clientId := "acme", siteId := "acme-1" }

theorem managerOfAcme_belowSystem : managerOfAcme.BelowSystem := by
  intro g hg
  obtain rfl := Option.some.inj hg
  rfl

def grantRoot : InviteCall := .addRole managerOfAcme {} "p" ⟨"root", "acme-1"⟩

theorem grantRoot_escalates :
    RolesRule acmeWithRoot.db ∧ (∀ call ∈ [grantRoot], call.caller.BelowSystem) ∧
      Fired (InviteCall.step {}) acmeWithRoot [grantRoot] acmeWithRoot grantRoot ∧
      ¬ CreatesAssignable acmeWithRoot.db (grantRoot.step {} acmeWithRoot).db := by
  refine ⟨?_, ?_, .inl ⟨rfl, rfl⟩, ?_⟩
  · intro r hr
    rw [← Table.mem_rows] at hr
    simp only [acmeWithRoot, List.mem_cons, List.not_mem_nil, or_false] at hr
    rcases hr with rfl | rfl
    · exact fun _ => rfl
    · exact fun h => absurd h (by simp)
  · intro call hcall
    obtain rfl := List.mem_singleton.mp hcall
    exact managerOfAcme_belowSystem
  · rintro ⟨-, hrows⟩
    have hnew : (grantRoot.step {} acmeWithRoot).db.accesses.rows =
        acmeWithRoot.db.accesses.rows ++
          [{ createdOn := 0, isPrimary := true, personId := "p", clientId := "acme",
             siteId := "acme-1", roleId := "root" }] := by decide
    have hroles : (grantRoot.step {} acmeWithRoot).db.roles = acmeWithRoot.db.roles := rfl
    obtain ⟨r, hr, hid, ha⟩ := hrows _
      (by rw [← Table.mem_rows, hnew]; exact List.mem_append_right _ (List.mem_singleton_self _))
      (by
        intro b hb
        rw [← Table.mem_rows] at hb
        obtain rfl := List.mem_singleton.mp hb
        decide)
    rw [hroles, ← Table.mem_rows] at hr
    simp only [acmeWithRoot, List.mem_cons, List.not_mem_nil, or_false] at hr
    rcases hr with rfl | rfl
    · exact absurd hid (by decide)
    · exact absurd ha (by decide)

theorem escalation_iff_grantRoot :
    ((∀ u call, Fired (InviteCall.step {}) acmeWithRoot [grantRoot] u call →
        CreatesAssignable u.db (call.step {} u).db) ↔
      ∀ u call, Fired (InviteCall.step {}) acmeWithRoot [grantRoot] u call →
        call.AssignableCondition {} acmeWithRoot.db u) ∧
    (RolesRule acmeWithRoot.db → ∀ u, Reached (InviteCall.step {}) acmeWithRoot [grantRoot] u →
      ∀ roleId, u.db.Assignable roleId → ∃ r ∈ u.db.roles, r.id = roleId ∧
        isScopeAtLeast r.scope .global = false) :=
  escalation_iff fun call hcall => by
    obtain rfl := List.mem_singleton.mp hcall
    exact managerOfAcme_belowSystem

end ShieldApi
