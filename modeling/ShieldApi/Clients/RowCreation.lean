import ShieldApi.Auth.KeycloakAccessSync
import ShieldApi.Clients.AccessWrites
import ShieldApi.Clients.DemoClients
import ShieldApi.Clients.PendingInvitations

/-!
# The rows a call creates

`Creates new db db'` is what a property of created rows needs of a call: at which keys it puts
access rows, and that whatever else it has of invitations is to sites of their client. Each call
that creates rows has its lemma here; an accept, an added role and an import come with the
condition under which they go through at all.
-/

set_option autoImplicit false

namespace ShieldApi

open Effect

/-! ## 1. Creating rows at keys -/

/-- `db'` is `db` with access rows at the keys `new`, whatever was there before; what it has of
    invitations besides is to sites of their client. -/
structure Creates (new : AccessKey → Prop) (db db' : Db) : Prop where
  clients : db'.clients = db.clients
  sites : db'.sites = db.sites
  roles : db'.roles = db.roles
  persons : ∀ id, (db.persons.find? id).isSome = true → (db'.persons.find? id).isSome = true
  rows : ∀ k, (db'.primaryFlag k).isSome = true ↔ (db.primaryFlag k).isSome = true ∨ new k
  refs : ∀ k, new k → db.primaryFlag k = none → db'.accessRefs k = true
  invitations : ∀ i ∈ db'.invitations,
    (∃ j ∈ db.invitations, j.id = i.id ∧ j.clientId = i.clientId ∧ j.siteId = i.siteId) ∨
      db.SiteOf i.clientId i.siteId

/-- The keys of a call that creates no access row. -/
def noKey (_ : AccessKey) : Prop := False

namespace Creates

variable {new : AccessKey → Prop} {db db' : Db}

theorem refl (db : Db) : Creates noKey db db :=
  ⟨rfl, rfl, rfl, fun _ h => h, fun _ => (or_iff_left id).symm, fun _ h => h.elim,
    fun i hi => .inl ⟨i, hi, rfl, rfl, rfl⟩⟩

theorem siteOf_iff (h : Creates new db db') {clientId siteId : String} :
    db'.SiteOf clientId siteId ↔ db.SiteOf clientId siteId := by
  unfold Db.SiteOf
  rw [h.sites]

theorem accessRefs_kept (h : Creates new db db') {k : AccessKey} (hk : db.accessRefs k = true) :
    db'.accessRefs k = true := by
  unfold Db.accessRefs at hk ⊢
  rw [h.clients, h.sites, h.roles]
  simp only [Bool.and_eq_true] at hk ⊢
  exact ⟨⟨⟨h.persons _ hk.1.1.1, hk.1.1.2⟩, hk.1.2⟩, hk.2⟩

/-- A call that writes one row. -/
theorem ofUpdate {db : Db} {t : AccessTable} {k : AccessKey} {v : Bool}
    (hflag : ({ db with accesses := t } : Db).primaryFlag =
      Function.update db.primaryFlag k (some v))
    (hrefs : db.primaryFlag k = none → db.accessRefs k = true) :
    Creates (· = k) db { db with accesses := t } := by
  refine ⟨rfl, rfl, rfl, fun _ h => h, fun k' => ?_, fun k' hk => ?_,
    fun i hi => .inl ⟨i, hi, rfl, rfl, rfl⟩⟩
  · rw [hflag, Function.update_apply]
    by_cases hk : k' = k
    · simp [hk]
    · simp [hk]
  · rw [hk]
    exact hrefs

end Creates

/-! ## 2. Accepting -/

namespace InvitationsService

variable {cfg : Config} {cls : Cls} {env : Env} {code : String} {inv : Invitation}
  {person : Person} {db db' : Db}

/-- The keys of the rows an accept upserts. -/
def acceptedKeys (env : Env) (inv : Invitation) (person : Person) (db : Db) (k : AccessKey) :
    Prop :=
  ∃ i ∈ pendingGroup env inv db, accessKey person.id i = k

theorem AcceptedInto.creates (hacc : Acceptable cfg cls env code db inv person)
    (h : AcceptedInto env code inv person db db') :
    Creates (acceptedKeys env inv person db) db db' := by
  have hwritten (k : AccessKey) : k ∈ (acceptWrites env person.id code db
      (pendingGroup env inv db)).map Prod.fst ↔ acceptedKeys env inv person db k := by
    rw [acceptWrites_keys, List.mem_map]
    rfl
  obtain ⟨t, ht⟩ := h.tables
  refine ⟨by rw [ht], by rw [ht], by rw [ht], fun id hid => by rw [ht]; exact hid, fun k => ?_,
    fun k hk hfree => ?_, fun i hi => ?_⟩
  · rw [h.flag]
    constructor
    · intro hsome
      obtain ⟨v, hv⟩ := Option.isSome_iff_exists.mp hsome
      rcases overwrite_eq_iff.mp hv with ⟨-, hold⟩ | ⟨pre, post, hsplit, -⟩
      · exact .inl (Option.isSome_of_eq_some hold)
      · refine .inr ((hwritten k).mp ?_)
        rw [hsplit, List.map_append, List.map_cons]
        exact List.mem_append_right _ (List.mem_cons_self ..)
    · intro hor
      by_cases hk : acceptedKeys env inv person db k
      · obtain ⟨i, hi, rfl⟩ := hk
        exact accepted_row_exists hi
      · have hno := fun hmem => hk ((hwritten k).mp hmem)
        rw [overwrite_eq_iff.mpr (.inl ⟨hno, rfl⟩)]
        exact hor.resolve_right hk
  · obtain ⟨i, hi, rfl⟩ := hk
    have hup := hacc.upserts i hi
    unfold Db.canUpsert at hup
    rw [hfree, Option.isSome_none, Bool.false_or] at hup
    rw [ht]
    exact hup
  · rw [ht] at hi
    have hrows : ∀ i ∈ db.invitations.updateMany
        (((pendingGroup env inv db).map (·.id)).contains ·.id)
        (.setAccepted person.id env.now) (Invitation.id_setAccepted _ _),
        ∃ j ∈ db.invitations, (if ((pendingGroup env inv db).map (·.id)).contains j.id
          then j.setAccepted person.id env.now else j) = i :=
      fun _ hi => Table.mem_updateMany.mp hi
    obtain ⟨j, hj, rfl⟩ := hrows i hi
    refine .inl ⟨j, hj, ?_⟩
    split <;> exact ⟨rfl, rfl, rfl⟩

/-! ## 3. Inviting -/

/-- What `createBulk` is going to insert is to sites of the client it invites to. -/
theorem createBulkCheck_siteOf {dto : CreateInvitationsDto} {rows : List Invitation}
    {w w' : World} (h : (createBulkCheck cls env dto).run w = (.ok rows, w')) :
    ∀ r ∈ rows, w.db.SiteOf r.clientId r.siteId := by
  obtain ⟨person, g, rls, -, -, -, hsites, -, -, rfl, -⟩ := createBulkCheck_iff.mp h
  intro r hr
  unfold createData at hr
  obtain ⟨⟨input, n⟩, hmem, rfl⟩ := List.mem_map.mp hr
  obtain ⟨site, hsite, hid, -, hclient⟩ := hsites input (List.fst_mem_of_mem_zipIdx hmem)
  exact ⟨site, hsite, hid, hclient⟩

theorem createInvitation_creates {w : World} (hsite : db.SiteOf inv.clientId inv.siteId)
    (h : Creates noKey db w.db) :
    (createInvitation inv).Leaves (fun w => Creates noKey db w.db) w := by
  refine createInvitation_leaves h fun t ht => ?_
  refine ⟨h.clients, h.sites, h.roles, h.persons, h.rows, fun _ hk => hk.elim, fun i hi => ?_⟩
  rcases (Table.mem_insert? ht).mp hi with hi | rfl
  · exact h.invitations i hi
  · exact .inr hsite

theorem createBulk_creates {dto : CreateInvitationsDto} {w : World}
    (h : Creates noKey db w.db) :
    (createBulk cls env dto).Leaves (fun w => Creates noKey db w.db) w := by
  rw [createBulk_eq]
  refine (readOnly_createBulkCheck cls env dto).leaves_bind h fun rows hrows => ?_
  refine insertInvitations_leaves h fun r hr u hu => createInvitation_creates ?_ hu
  exact h.siteOf_iff.mp (createBulkCheck_siteOf hrows r hr)

theorem renew_creates {id : String} {dto : RenewInvitationDto} {w : World} :
    (renew cls env id dto).Leaves (fun w' => Creates noKey w.db w'.db) w := by
  have hw := Creates.refl w.db
  refine renew_leaves hw fun ids dto' => createBulk_creates ⟨rfl, rfl, rfl, fun _ h => h, hw.rows,
    fun _ hk => hk.elim, fun i hi => .inl ?_⟩
  obtain ⟨j, hj, rfl | rfl⟩ := mem_updateStatuses hi
  · exact ⟨i, hj, rfl, rfl, rfl⟩
  · exact ⟨j, hj, rfl, rfl, rfl⟩

end InvitationsService

/-! ## 4. Adding a role -/

theorem membersAddRole_creates (cls : Cls) (env : Env) (id : String) (dto : AddRoleDto)
    (w : World) :
    (∃ g, AddRoleGoes cls env id dto w.db g ∧ (MembersService.addRole cls env id dto).Leaves
        (fun w' => Creates (· = ⟨id, g.clientId, dto.siteId, dto.roleId⟩) w.db w'.db) w) ∨
      ((∀ g, ¬ AddRoleGoes cls env id dto w.db g) ∧
        (MembersService.addRole cls env id dto).Leaves (fun w' => w'.db = w.db) w) := by
  rcases addRole_spec cls env id dto w with ⟨g, hgoes, ⟨t, ht⟩, v, hflag⟩ | hno
  · refine .inl ⟨g, hgoes, ?_⟩
    unfold Leaves
    rw [ht] at hflag ⊢
    exact Creates.ofUpdate hflag fun _ => hgoes.refs
  · exact .inr hno

/-- What creates no row away from its client's sites. -/
def CreatesAtOwnSites (db db' : Db) : Prop :=
  ∃ new, Creates new db db' ∧ ∀ k, new k → db.SiteOf k.clientId k.siteId

theorem createsAtOwnSites_refl (db : Db) : CreatesAtOwnSites db db :=
  ⟨noKey, Creates.refl db, fun _ hk => hk.elim⟩

/-- The site is looked up among the sites of the client. -/
theorem usersAddRole_creates (env : Env) (id : String) (dto : AddUserRoleDto) (w : World) :
    (UsersService.addRole env id dto).Leaves (fun w' => CreatesAtOwnSites w.db w'.db) w := by
  have hw := createsAtOwnSites_refl w.db
  unfold UsersService.addRole
  refine (readOnly_usersFindPersonOrThrow id).leaves_bind hw fun person _ => ?_
  refine (readOnly_query _).leaves_bind hw fun site hsite => ?_
  refine (readOnly_raiseIf _ _).leaves_bind hw fun _ hfound => ?_
  refine (readOnly_query _).leaves_bind hw fun role _ => ?_
  refine (readOnly_raiseIf _ _).leaves_bind hw fun _ _ => ?_
  refine CacheOnly.leaves_bind (I := fun db => CreatesAtOwnSites w.db db)
    (fun _ => (cacheOnly_clearOf ..).bind fun _ => cacheOnly_pure _) ?_
  refine leaves_transaction hw fun a w' hrun => ?_
  rw [run_query_bind] at hrun
  obtain ⟨⟨t, rfl⟩, -, hflag⟩ := upsertWithPrimary_flag hrun
  have hupserts := upsertAccess_ok_iff.mp ⟨_, _, hrun⟩
  obtain rfl := Except.ok.inj (Prod.mk.inj hsite).1
  obtain ⟨s, hs⟩ := Option.isSome_iff_exists.mp
    (Option.isNone_eq_false_iff.mp (raiseIf_eq_ok.mp hfound).1)
  obtain ⟨hs, hclient⟩ := Option.filter_eq_some_iff.mp hs
  refine ⟨_, Creates.ofUpdate hflag fun hfree => ?_, fun k hk => ?_⟩
  · unfold Db.canUpsert at hupserts
    rw [hfree, Option.isSome_none, Bool.false_or] at hupserts
    exact hupserts
  · rw [hk]
    obtain ⟨hs, hid⟩ := Table.find?_eq_some.mp hs
    exact ⟨s, hs, hid, of_decide_eq_true hclient⟩

/-! ## 5. Importing -/

namespace KeycloakAccessSyncService

/-- The person an import is about: who has the identity, or somebody new. -/
def IsImported (env : Env) (userId : String) (db : Db) (personId : String) : Prop :=
  match db.persons.rows.find? (·.idpId = some userId) with
  | some p => p.id = personId
  | none => env.cuid 0 = personId ∧ db.persons.find? (env.cuid 0) = none

/-- Somebody new. -/
def importedPerson (env : Env) (userId : String) (user : KeycloakUser) : Person :=
  { id := env.cuid 0
    idpId := some userId
    firstName := (truthy user.firstName).getD "Unknown"
    lastName := (truthy user.lastName).getD "Unknown"
    email := (truthy user.email).getD "" }

/-- The attributes of the user name a client and a site the maps know. -/
structure Named (user : KeycloakUser) (maps : SyncMaps) (userId clientId siteId : String) :
    Prop where
  identified : truthy user.id = some userId
  client : (truthy user.clientId).bind (fun x => truthy (maps.clientMap.lookup x)) = some clientId
  site : (truthy user.siteId).bind (fun x => truthy (maps.siteMap.lookup x)) = some siteId

/-- Every row of the import is there or may be created. -/
def Upserts (roleIds : List String) (db : Db) (clientId siteId personId : String) : Prop :=
  ∀ roleId ∈ roleIds,
    (db.primaryFlag ⟨personId, clientId, siteId, roleId⟩).isSome = true ∨
      ((db.clients.find? clientId).isSome = true ∧ (db.sites.find? siteId).isSome = true ∧
        (db.roles.find? roleId).isSome = true)

/-- The import goes through. -/
structure SyncGoes (env : Env) (user : KeycloakUser) (maps : SyncMaps)
    (groups : List (Option String)) (db : Db) (clientId siteId personId : String) : Prop where
  named : ∃ userId, Named user maps userId clientId siteId ∧ IsImported env userId db personId
  upserts : Upserts (matchingRoleIds maps groups) db clientId siteId personId

theorem upsertPerson_ok {env : Env} {userId : String} {user : KeycloakUser} {p : Person}
    {w w' : World} (h : (upsertPerson env userId user).run w = (.ok p, w')) :
    IsImported env userId w.db p.id ∧ ∃ t, w' = w.withPersons t ∧
      (∀ id, (w.db.persons.find? id).isSome = true → (t.find? id).isSome = true) ∧
      (t.find? p.id).isSome = true := by
  unfold upsertPerson at h
  rw [attempt_eq_ok] at h
  unfold IsImported
  cases hf : w.db.persons.rows.find? (·.idpId = some userId) with
  | some q =>
    rw [hf] at h
    obtain ⟨rfl, rfl⟩ := Prod.mk.inj (Except.ok.inj h)
    have hkept : ∀ id, (w.db.persons.find? id).isSome = true →
        ((w.db.persons.updateMany (·.id = q.id) (fun q =>
          { q with
            firstName := user.firstName.getD q.firstName
            lastName := user.lastName.getD q.lastName
            email := user.email.getD q.email }) fun _ => rfl).find? id).isSome = true := by
      intro id hid
      rw [Table.find?_updateMany, Option.isSome_map]
      exact hid
    refine ⟨rfl, _, rfl, hkept, hkept _ (Table.find?_isSome.mpr
      ⟨q, List.mem_of_find?_eq_some hf, rfl⟩)⟩
  | none =>
    rw [hf] at h
    simp only at h
    split at h
    · next t ht =>
      obtain ⟨rfl, rfl⟩ := Prod.mk.inj (Except.ok.inj h)
      exact ⟨⟨rfl, Table.insert?_isSome.mp (Option.isSome_of_eq_some ht)⟩, t, rfl,
        fun _ => Table.find?_isSome_of_insert? ht,
        Option.isSome_of_eq_some (Table.find?_inserted ht)⟩
    · exact absurd h (by simp)

theorem upsertPerson_run {env : Env} {userId personId : String} (user : KeycloakUser)
    {w : World} (h : IsImported env userId w.db personId) :
    ∃ p w', (upsertPerson env userId user).run w = (.ok p, w') := by
  unfold IsImported at h
  cases hf : w.db.persons.rows.find? (·.idpId = some userId) with
  | some q =>
    unfold upsertPerson
    simp only [attempt_eq_ok, hf]
    exact ⟨_, _, rfl⟩
  | none =>
    rw [hf] at h
    have hfree : w.db.persons.find? (importedPerson env userId user).id = none := h.2
    obtain ⟨t, ht⟩ := Option.isSome_iff_exists.mp (Table.insert?_isSome.mpr hfree)
    refine ⟨importedPerson env userId user, w.withPersons t, ?_⟩
    unfold importedPerson at ht
    unfold upsertPerson
    simp only [attempt_eq_ok, hf, ht]
    rfl

theorem IsImported.unique {env : Env} {userId p q : String} {db : Db}
    (hp : IsImported env userId db p) (hq : IsImported env userId db q) : p = q := by
  unfold IsImported at hp hq
  cases hf : db.persons.rows.find? (·.idpId = some userId) with
  | some x =>
    rw [hf] at hp hq
    exact hp.symm.trans hq
  | none =>
    rw [hf] at hp hq
    exact hp.1.symm.trans hq.1

/-- The keys of the rows an import upserts. -/
def syncedKeys (maps : SyncMaps) (groups : List (Option String))
    (clientId siteId personId : String) (k : AccessKey) : Prop :=
  ∃ roleId ∈ matchingRoleIds maps groups, ⟨personId, clientId, siteId, roleId⟩ = k

theorem key_id (a : PersonClientAccess) : (id a).key = a.key := rfl

/-- The transaction of `syncUser`. -/
def syncTransaction (env : Env) (user : KeycloakUser) (userId clientId siteId : String)
    (roleIds : List String) : Api Bool := do
  let person ← upsertPerson env userId user
  let existingAccessCount ← query fun w =>
    (w.db.accesses.rows.filter (·.personId = person.id)).length
  let isFirstAccess : Bool := existingAccessCount = 0
  let _ ← forEach roleIds fun roleId =>
    upsertAccess (syncedRow env person.id clientId siteId isFirstAccess roleId) id key_id
  pure true

variable {env : Env} {user : KeycloakUser} {maps : SyncMaps} {groups : List (Option String)}
  {w w' : World} {userId clientId siteId : String}

theorem canUpsert_withPersons {t : Table Person String Person.id} {k : AccessKey}
    (hperson : (t.find? k.personId).isSome = true) :
    (w.withPersons t).db.canUpsert k = true ↔
      (w.db.primaryFlag k).isSome = true ∨
        ((w.db.clients.find? k.clientId).isSome = true ∧
          (w.db.sites.find? k.siteId).isSome = true ∧ (w.db.roles.find? k.roleId).isSome = true) := by
  have hflag : (w.withPersons t).db.primaryFlag k = w.db.primaryFlag k := rfl
  have hperson : ((w.withPersons t).db.persons.find? k.personId).isSome = true := hperson
  unfold Db.canUpsert Db.accessRefs
  rw [hflag, hperson, Bool.true_and, Bool.or_eq_true, Bool.and_eq_true, Bool.and_eq_true,
    and_assoc]
  rfl

theorem syncTransaction_ok {roleIds : List String} {b : Bool}
    (h : (syncTransaction env user userId clientId siteId roleIds).run w = (.ok b, w')) :
    ∃ personId, IsImported env userId w.db personId ∧
      Upserts roleIds w.db clientId siteId personId ∧
      Creates (fun k => ∃ roleId ∈ roleIds, ⟨personId, clientId, siteId, roleId⟩ = k)
        w.db w'.db := by
  unfold syncTransaction at h
  rw [bind_eq_ok] at h
  obtain ⟨person, w₁, hperson, h⟩ := h
  obtain ⟨himported, t, rfl, hkept, hthere⟩ := upsertPerson_ok hperson
  rw [run_query_bind, bind_eq_ok] at h
  obtain ⟨rs, w₂, hloop, h⟩ := h
  obtain ⟨-, rfl⟩ := Prod.mk.inj h
  obtain ⟨⟨ta, rfl⟩, hups, hrows⟩ := forEach_upsertAccess_rows hloop
  have hups : Upserts roleIds w.db clientId siteId person.id := fun roleId hrole =>
    (canUpsert_withPersons hthere).mp (hups roleId hrole)
  refine ⟨person.id, himported, hups, rfl, rfl, rfl, hkept, hrows, fun k hk hfree => ?_,
    fun i hi => .inl ⟨i, hi, rfl, rfl, rfl⟩⟩
  obtain ⟨roleId, hrole, rfl⟩ := hk
  rcases hups roleId hrole with hsome | ⟨hclient, hsite, hrole⟩
  · rw [hfree] at hsome
    exact absurd hsome Bool.false_ne_true
  · unfold Db.accessRefs
    simp only [Bool.and_eq_true]
    exact ⟨⟨⟨hthere, hclient⟩, hsite⟩, hrole⟩

theorem syncTransaction_run (user : KeycloakUser) {personId : String} {roleIds : List String}
    (himported : IsImported env userId w.db personId)
    (hups : Upserts roleIds w.db clientId siteId personId) :
    ∃ b w', (syncTransaction env user userId clientId siteId roleIds).run w = (.ok b, w') := by
  obtain ⟨person, w₁, hperson⟩ := upsertPerson_run user himported
  obtain ⟨himported', t, rfl, -, hthere⟩ := upsertPerson_ok hperson
  obtain rfl := himported.unique himported'
  have hloop (isFirstAccess : Bool) : ∃ rs w₂, (forEach roleIds fun roleId =>
      upsertAccess (syncedRow env person.id clientId siteId isFirstAccess roleId) id
        fun _ => rfl).run (w.withPersons t) = (.ok rs, w₂) :=
    forEach_upsertAccess_run fun roleId hrole =>
      (canUpsert_withPersons hthere).mpr (hups roleId hrole)
  obtain ⟨rs, w₂, hrun⟩ := hloop
    (((w.withPersons t).db.accesses.rows.filter (·.personId = person.id)).length = 0 : Bool)
  unfold syncTransaction
  refine ⟨true, w₂, ?_⟩
  rw [run_bind_ok hperson, run_query_bind, run_bind_ok hrun, run_pure]

theorem Named.unique {userId' clientId' siteId' : String}
    (h : Named user maps userId clientId siteId) (h' : Named user maps userId' clientId' siteId') :
    userId' = userId ∧ clientId' = clientId ∧ siteId' = siteId :=
  ⟨Option.some.inj (h'.identified.symm.trans h.identified),
    Option.some.inj (h'.client.symm.trans h.client), Option.some.inj (h'.site.symm.trans h.site)⟩

theorem SyncGoes.unique {db : Db} {personId clientId' siteId' personId' : String}
    (h : SyncGoes env user maps groups db clientId siteId personId)
    (h' : SyncGoes env user maps groups db clientId' siteId' personId') :
    clientId' = clientId ∧ siteId' = siteId ∧ personId' = personId := by
  obtain ⟨userId, hnamed, himported⟩ := h.named
  obtain ⟨userId', hnamed', himported'⟩ := h'.named
  obtain ⟨rfl, hclient, hsite⟩ := hnamed.unique hnamed'
  exact ⟨hclient, hsite, himported'.unique himported⟩

/-- Without a name there is no import, and without a role. -/
theorem syncUser_named (h : Named user maps userId clientId siteId) :
    syncUser env user maps groups =
      if (matchingRoleIds maps groups).isEmpty then pure false
      else transaction (syncTransaction env user userId clientId siteId
        (matchingRoleIds maps groups)) := by
  obtain ⟨x, hx, hclient⟩ := Option.bind_eq_some_iff.mp h.client
  obtain ⟨y, hy, hsite⟩ := Option.bind_eq_some_iff.mp h.site
  unfold syncUser syncTransaction
  simp only [h.identified, hx, hy, hclient, hsite]

theorem syncUser_unnamed (h : ∀ userId clientId siteId, ¬ Named user maps userId clientId siteId) :
    syncUser env user maps groups = pure false := by
  unfold syncUser
  split
  · rfl
  next userId huser =>
    split
    · next x y hx hy =>
      split
      · next clientId siteId hclient hsite =>
        refine absurd ⟨huser, ?_, ?_⟩ (h userId clientId siteId)
        · rw [hx, Option.bind_some, hclient]
        · rw [hy, Option.bind_some, hsite]
      · rfl
    · rfl

/-- **An import upserts its rows, or changes nothing.** -/
theorem syncUser_spec (env : Env) (user : KeycloakUser) (maps : SyncMaps)
    (groups : List (Option String)) (w : World) :
    (∃ clientId siteId personId,
        SyncGoes env user maps groups w.db clientId siteId personId ∧
        (syncUser env user maps groups).Leaves
          (fun w' => Creates (syncedKeys maps groups clientId siteId personId) w.db w'.db) w) ∨
      ((∀ clientId siteId personId,
          ¬ SyncGoes env user maps groups w.db clientId siteId personId) ∧
        (syncUser env user maps groups).Leaves (fun w' => w'.db = w.db) w) := by
  by_cases hnamed : ∃ userId clientId siteId, Named user maps userId clientId siteId
  · obtain ⟨userId, clientId, siteId, hnamed⟩ := hnamed
    rw [syncUser_named hnamed]
    by_cases hgoes : ∃ personId, IsImported env userId w.db personId ∧
        Upserts (matchingRoleIds maps groups) w.db clientId siteId personId
    · obtain ⟨personId, himported, hups⟩ := hgoes
      refine .inl ⟨clientId, siteId, personId, ⟨⟨userId, hnamed, himported⟩, hups⟩, ?_⟩
      split
      · next hempty =>
        -- no role, no row
        have hno : syncedKeys maps groups clientId siteId personId = noKey := by
          funext k
          unfold syncedKeys
          rw [List.isEmpty_iff.mp hempty]
          simp [noKey]
        rw [hno]
        exact Creates.refl w.db
      · obtain ⟨b, w', hrun⟩ := syncTransaction_run user himported hups
        obtain ⟨personId', himported', -, hcreates⟩ := syncTransaction_ok hrun
        obtain rfl := himported.unique himported'
        exact leaves_transaction_of_run hrun hcreates
    · refine .inr ⟨fun c s p hgo => hgoes ?_, ?_⟩
      · obtain ⟨⟨userId', hnamed', himported⟩, hups⟩ := hgo
        obtain ⟨rfl, rfl, rfl⟩ := hnamed.unique hnamed'
        exact ⟨p, himported, hups⟩
      · split
        · rfl
        · refine leaves_transaction rfl fun b w' hrun => ?_
          obtain ⟨personId, himported, hups, -⟩ := syncTransaction_ok hrun
          exact absurd ⟨personId, himported, hups⟩ hgoes
  · push Not at hnamed
    rw [syncUser_unnamed hnamed]
    refine .inr ⟨fun c s p hgo => ?_, rfl⟩
    obtain ⟨⟨userId, hnamed', -⟩, -⟩ := hgo
    exact hnamed _ _ _ hnamed'

end KeycloakAccessSyncService

end ShieldApi
