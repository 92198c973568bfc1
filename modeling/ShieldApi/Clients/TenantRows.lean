import ShieldApi.Clients.RowCreation

/-!
# Is a row at a site of its client?

An access row and an invitation name a client and a site. Everything that reads them takes the
site for one of the client; no foreign key says so, so it is up to the calls that create
the rows. **Two of them look:** `createBulk`, and with it `renew`, and `UsersService.addRole`.
Two pass on what they are given: an accept by its invitations, a copy of a demo client by the rows of the
client. Two do not look: `MembersService.addRole` takes the site id it was sent, and
`syncUser` reads the client and the site off two maps that know nothing of each other.

`tenantRows_iff` is what that leaves of the property, over a run from any database whose
foreign keys resolve.
-/

set_option autoImplicit false

namespace ShieldApi

open Effect

/-! ## 1. The property -/

/-- **What is there and was not at the start is at a site of its client.** -/
structure CreatedAtOwnSites (start db : Db) : Prop where
  accesses : ∀ a ∈ db.accesses,
    (∃ b ∈ start.accesses, b.key = a.key) ∨ db.SiteOf a.clientId a.siteId
  invitations : ∀ i ∈ db.invitations,
    (∃ j ∈ start.invitations, j.id = i.id) ∨ db.SiteOf i.clientId i.siteId

/-- What no call undoes: the foreign keys resolve, and the rows of the start are there. -/
structure Since (start db : Db) : Prop where
  refs : db.ReferencesResolve
  kept : ∀ b ∈ start.accesses, ∃ a ∈ db.accesses, a.key = b.key

namespace Creates

variable {new : AccessKey → Prop} {start db db' : Db}

theorem since (h : Creates new db db') (hs : Since start db) : Since start db' := by
  refine ⟨⟨fun a ha => ?_, fun s hsite => ?_⟩, fun b hb => ?_⟩
  · have hrow : (db'.primaryFlag a.key).isSome = true := primaryFlag_isSome.mpr ⟨a, ha, rfl⟩
    cases hold : db.primaryFlag a.key with
    | none =>
      refine h.refs _ (((h.rows _).mp hrow).resolve_left ?_) hold
      rw [hold]
      exact Bool.false_ne_true
    | some v =>
      obtain ⟨b, hb, hkey, -⟩ := primaryFlag_eq_some.mp hold
      rw [← hkey]
      exact h.accessRefs_kept (hs.refs.accesses b hb)
  · rw [h.clients]
    rw [h.sites] at hsite
    exact hs.refs.sites s hsite
  · obtain ⟨a, ha, hkey⟩ := hs.kept b hb
    rw [← hkey]
    exact primaryFlag_isSome.mp ((h.rows _).mpr (.inl (primaryFlag_isSome.mpr ⟨a, ha, rfl⟩)))

/-- **The property stays exactly if every key that was free is at a site of its client.** -/
theorem keeps_iff (h : Creates new db db') (hs : Since start db)
    (hdb : CreatedAtOwnSites start db) :
    CreatedAtOwnSites start db' ↔
      ∀ k, new k → db.primaryFlag k = none → db.SiteOf k.clientId k.siteId := by
  constructor
  · intro hdb' k hnew hfree
    obtain ⟨a, ha, rfl⟩ := primaryFlag_isSome.mp ((h.rows k).mpr (.inr hnew))
    rcases hdb'.accesses a ha with ⟨b, hb, hkey⟩ | hsite
    · -- a row of the start was there already
      obtain ⟨c, hc, hck⟩ := hs.kept b hb
      exact absurd (hck.trans hkey) (primaryFlag_eq_none.mp hfree c hc)
    · exact h.siteOf_iff.mp hsite
  · intro hnew
    refine ⟨fun a ha => ?_, fun i hi => ?_⟩
    · cases hold : db.primaryFlag a.key with
      | none =>
        have hrow := (h.rows _).mp (primaryFlag_isSome.mpr ⟨a, ha, rfl⟩)
        rw [hold] at hrow
        exact .inr (h.siteOf_iff.mpr (hnew _ (hrow.resolve_left Bool.false_ne_true) hold))
      | some v =>
        obtain ⟨b, hb, hkey, -⟩ := primaryFlag_eq_some.mp hold
        have hclient : b.clientId = a.clientId := congrArg AccessKey.clientId hkey
        have hsite : b.siteId = a.siteId := congrArg AccessKey.siteId hkey
        rcases hdb.accesses b hb with ⟨c, hc, hck⟩ | hat
        · exact .inl ⟨c, hc, hck.trans hkey⟩
        · rw [hclient, hsite] at hat
          exact .inr (h.siteOf_iff.mpr hat)
    · rcases h.invitations i hi with ⟨j, hj, hid, hclient, hsite⟩ | hat
      · rcases hdb.invitations j hj with ⟨l, hl, hlid⟩ | hat
        · exact .inl ⟨l, hl, hlid.trans hid⟩
        · rw [hclient, hsite] at hat
          exact .inr (h.siteOf_iff.mpr hat)
      · exact .inr (h.siteOf_iff.mpr hat)

theorem keeps (h : Creates noKey db db') (hs : Since start db) (hdb : CreatedAtOwnSites start db) :
    CreatedAtOwnSites start db' :=
  (h.keeps_iff hs hdb).mpr fun _ hnew => hnew.elim

end Creates

/-! ## 2. Whole runs -/

/-- A call that creates access rows or invitations. -/
inductive RowCall
  | usersAddRole (env : Env) (id : String) (dto : AddUserRoleDto)
  | membersAddRole (cls : Cls) (env : Env) (id : String) (dto : AddRoleDto)
  | createBulk (cls : Cls) (env : Env) (dto : CreateInvitationsDto)
  | renew (cls : Cls) (env : Env) (id : String) (dto : RenewInvitationDto)
  | accept (cls : Cls) (env : Env) (code : String)
  | syncUser (env : Env) (user : KeycloakUser) (maps : SyncMaps) (groups : List (Option String))
  | duplicateDemo (cls : Cls) (env : Env) (id : String) (options : DuplicateDemoClientDto)

namespace RowCall

def env : RowCall → Env
  | .usersAddRole env _ _ | .membersAddRole _ env _ _ | .createBulk _ env _ | .renew _ env _ _
  | .accept _ env _ | .syncUser env _ _ _ | .duplicateDemo _ env _ _ => env

/-- Run a call to its end, thrown out of or not. -/
def step (cfg : Config) (w : World) : RowCall → World
  | .usersAddRole env id dto => (UsersService.addRole env id dto).after w
  | .membersAddRole cls env id dto => (MembersService.addRole cls env id dto).after w
  | .createBulk cls env dto => (InvitationsService.createBulk cls env dto).after w
  | .renew cls env id dto => (InvitationsService.renew cls env id dto).after w
  | .accept cls env code => (InvitationsService.accept cfg cls env code).after w
  | .syncUser env user maps groups =>
    (KeycloakAccessSyncService.syncUser env user maps groups).after w
  | .duplicateDemo cls env id options => (ClientsService.duplicateDemo cls env id options).after w

/-- **What the property needs of a call,** in a run from `start`. The member's new role and the
    imported row are at a site of their client; what an accept and a copy pass on of the
    rows of `start` is. -/
def TenantCondition (cfg : Config) (start : Db) (w : World) : RowCall → Prop
  | .membersAddRole cls env id dto =>
    ∀ g, AddRoleGoes cls env id dto w.db g → w.db.SiteOf g.clientId dto.siteId
  | .syncUser env user maps groups =>
    ∀ clientId siteId personId,
      KeycloakAccessSyncService.SyncGoes env user maps groups w.db clientId siteId personId →
      (∃ roleId ∈ KeycloakAccessSyncService.matchingRoleIds maps groups,
        w.db.primaryFlag ⟨personId, clientId, siteId, roleId⟩ = none) →
      w.db.SiteOf clientId siteId
  | .accept cls env code =>
    ∀ inv person, InvitationsService.Acceptable cfg cls env code w.db inv person →
      ∀ i ∈ InvitationsService.pendingGroup env inv w.db,
        (∃ j ∈ start.invitations, j.id = i.id) →
        w.db.primaryFlag (InvitationsService.accessKey person.id i) = none →
        w.db.SiteOf i.clientId i.siteId
  | .duplicateDemo cls env id options =>
    ∀ existing, ClientsService.Bypasses cls env →
      ClientsService.Duplicable env options id w.db existing →
      ∀ a ∈ w.db.accesses, a.clientId = id → (∃ b ∈ start.accesses, b.key = a.key) →
        w.db.SiteOf id a.siteId
  | _ => True

section Step

variable {cfg : Config} {start : Db} {w : World}

theorem duplicateDemo_since {cls : Cls} {env : Env} {id : String}
    {options : DuplicateDemoClientDto} (hcuid : ∀ n, env.cuid n ≠ "") (hs : Since start w.db) :
    Since start ((ClientsService.duplicateDemo cls env id options).after w).db := by
  rcases ClientsService.duplicateDemo_spec cls id options hcuid hs.refs with
    ⟨existing, -, h⟩ | ⟨-, h⟩
  · have h : ClientsService.Duplicated env options id existing w.db
        ((ClientsService.duplicateDemo cls env id options).after w).db := h
    refine ⟨h.referencesResolve hs.refs, fun b hb => ?_⟩
    obtain ⟨a, ha, hkey⟩ := hs.kept b hb
    exact ⟨a, (Table.mem_insertAll? h.accesses).mpr (.inl ha), hkey⟩
  · have h : ((ClientsService.duplicateDemo cls env id options).after w).db = w.db := h
    rw [h]
    exact hs

/-- A copied row is at a site of the new client if the row it copies is at one of the old. -/
theorem duplicateDemo_keeps_iff {cls : Cls} {env : Env} {id : String}
    {options : DuplicateDemoClientDto} (hcuid : ∀ n, env.cuid n ≠ "") (hs : Since start w.db)
    (hw : CreatedAtOwnSites start w.db) :
    CreatedAtOwnSites start ((ClientsService.duplicateDemo cls env id options).after w).db ↔
      (RowCall.duplicateDemo cls env id options).TenantCondition cfg start w := by
  rcases ClientsService.duplicateDemo_spec cls id options hcuid hs.refs with
    ⟨existing, ⟨hon, hdup⟩, h⟩ | ⟨hno, h⟩
  · have h : ClientsService.Duplicated env options id existing w.db
        ((ClientsService.duplicateDemo cls env id options).after w).db := h
    constructor
    · intro hkeeps existing' _ hdup' a ha hclient _
      by_contra hnot
      obtain ⟨b, hb, hfresh, hbclient, hbsite⟩ := h.row_copied hs.refs ha hclient
      rcases hkeeps.accesses b hb with ⟨c, hc, hcb⟩ | hat
      · obtain ⟨d, hd, hdc⟩ := hs.kept c hc
        exact hfresh d hd (hdc.trans hcb)
      · rw [hbclient, hbsite, ClientsService.copiedSite_of_not hnot] at hat
        -- the site stayed what it was, and it is at an old client
        rcases h.siteOf_iff.mp hat with ⟨s, hsmem, hsid, hsclient⟩ | ⟨-, hnew⟩
        · have hthere := hs.refs.sites s hsmem
          rw [hsclient, hdup.client] at hthere
          exact absurd hthere Bool.false_ne_true
        · have hthere := ClientsService.site_of_access hs.refs ha
          rw [hdup.sites.2 _ hnew] at hthere
          exact absurd hthere Bool.false_ne_true
    · intro hcond
      refine ⟨fun b hb => ?_, fun i hi => ?_⟩
      · rcases h.row_cases hb with hb | ⟨a, ha, hclient, hbclient, hbsite⟩
        · rcases hw.accesses b hb with hold | hat
          · exact .inl hold
          · exact .inr (h.siteOf_iff.mpr (.inl hat))
        · have hat : w.db.SiteOf id a.siteId := by
            rcases hw.accesses a ha with hold | hat
            · exact hcond existing hon hdup a ha hclient hold
            · rw [← hclient]
              exact hat
          rw [hbclient, hbsite]
          exact .inr (h.siteOf_iff.mpr (.inr
            ⟨rfl, ClientsService.mem_newSites_of_copied hcuid hat⟩))
      · rw [h.invitations] at hi
        rcases hw.invitations i hi with hold | hat
        · exact .inl hold
        · exact .inr (h.siteOf_iff.mpr (.inl hat))
  · have h : ((ClientsService.duplicateDemo cls env id options).after w).db = w.db := h
    rw [h]
    exact iff_of_true hw fun existing hon hdup => absurd ⟨hon, hdup⟩ (hno existing)

theorem createBulk_creates_self (cls : Cls) (env : Env) (dto : CreateInvitationsDto) (w : World) :
    Creates noKey w.db ((InvitationsService.createBulk cls env dto).after w).db :=
  InvitationsService.createBulk_creates (Creates.refl w.db)

theorem step_since {call : RowCall} (hcuid : ∀ n, call.env.cuid n ≠ "") (hs : Since start w.db) :
    Since start (call.step cfg w).db := by
  cases call with
  | usersAddRole env id dto =>
    obtain ⟨new, h, -⟩ := usersAddRole_creates env id dto w
    exact h.since hs
  | membersAddRole cls env id dto =>
    rcases membersAddRole_creates cls env id dto w with ⟨g, -, h⟩ | ⟨-, h⟩
    · exact Creates.since h hs
    · have h : ((MembersService.addRole cls env id dto).after w).db = w.db := h
      rw [step, h]
      exact hs
  | createBulk cls env dto => exact (createBulk_creates_self cls env dto w).since hs
  | renew cls env id dto =>
    have h : Creates noKey w.db ((InvitationsService.renew cls env id dto).after w).db :=
      InvitationsService.renew_creates
    exact h.since hs
  | accept cls env code =>
    rcases InvitationsService.accept_spec cfg cls env code w with ⟨inv, person, hacc, h⟩ | ⟨-, h⟩
    · exact (InvitationsService.AcceptedInto.creates hacc h).since hs
    · have h : ((InvitationsService.accept cfg cls env code).after w).db = w.db := h
      rw [step, h]
      exact hs
  | syncUser env user maps groups =>
    rcases KeycloakAccessSyncService.syncUser_spec env user maps groups w with
      ⟨c, s, p, -, h⟩ | ⟨-, h⟩
    · exact Creates.since h hs
    · have h : ((KeycloakAccessSyncService.syncUser env user maps groups).after w).db = w.db := h
      rw [step, h]
      exact hs
  | duplicateDemo cls env id options => exact duplicateDemo_since hcuid hs

theorem step_keeps_iff {call : RowCall} (hcuid : ∀ n, call.env.cuid n ≠ "")
    (hs : Since start w.db) (hw : CreatedAtOwnSites start w.db) :
    CreatedAtOwnSites start (call.step cfg w).db ↔ call.TenantCondition cfg start w := by
  cases call with
  | usersAddRole env id dto =>
    obtain ⟨new, h, hsites⟩ := usersAddRole_creates env id dto w
    exact iff_of_true ((h.keeps_iff hs hw).mpr fun k hk _ => hsites k hk) trivial
  | membersAddRole cls env id dto =>
    rcases membersAddRole_creates cls env id dto w with ⟨g, hgoes, h⟩ | ⟨hno, h⟩
    · refine (Creates.keeps_iff h hs hw).trans ⟨fun hkeys g' hgoes' => ?_, fun hcond k hk _ => ?_⟩
      · obtain rfl := Option.some.inj (hgoes'.grant.symm.trans hgoes.grant)
        exact hkeys _ rfl hgoes.fresh
      · rw [hk]
        exact hcond g hgoes
    · have h : ((MembersService.addRole cls env id dto).after w).db = w.db := h
      rw [step, h]
      exact iff_of_true hw fun g hgoes => absurd hgoes (hno g)
  | createBulk cls env dto =>
    exact iff_of_true ((createBulk_creates_self cls env dto w).keeps hs hw) trivial
  | renew cls env id dto =>
    have h : Creates noKey w.db ((InvitationsService.renew cls env id dto).after w).db :=
      InvitationsService.renew_creates
    exact iff_of_true (h.keeps hs hw) trivial
  | accept cls env code =>
    rcases InvitationsService.accept_spec cfg cls env code w with ⟨inv, person, hacc, h⟩ | ⟨hno, h⟩
    · have h := InvitationsService.AcceptedInto.creates hacc h
      refine (Creates.keeps_iff h hs hw).trans ⟨fun hkeys inv' person' hacc' i hi _ hfree => ?_,
        fun hcond k hk hfree => ?_⟩
      · obtain rfl := Option.some.inj (hacc'.found.symm.trans hacc.found)
        obtain rfl := Option.some.inj (hacc'.asPerson.symm.trans hacc.asPerson)
        exact hkeys _ ⟨i, hi, rfl⟩ hfree
      · obtain ⟨i, hi, rfl⟩ := hk
        rcases hw.invitations i (InvitationsService.mem_pendingGroup
          (List.mem_of_find?_eq_some hacc.found) hi) with hold | hat
        · exact hcond inv person hacc i hi hold hfree
        · exact hat
    · have h : ((InvitationsService.accept cfg cls env code).after w).db = w.db := h
      rw [step, h]
      exact iff_of_true hw fun inv person hacc => absurd hacc (hno inv person)
  | syncUser env user maps groups =>
    rcases KeycloakAccessSyncService.syncUser_spec env user maps groups w with
      ⟨c, s, p, hgoes, h⟩ | ⟨hno, h⟩
    · refine (Creates.keeps_iff h hs hw).trans ⟨fun hkeys c' s' p' hgoes' hnew => ?_,
        fun hcond k hk hfree => ?_⟩
      · obtain ⟨rfl, rfl, rfl⟩ := hgoes.unique hgoes'
        obtain ⟨roleId, hrole, hfree⟩ := hnew
        exact hkeys _ ⟨roleId, hrole, rfl⟩ hfree
      · obtain ⟨roleId, hrole, rfl⟩ := hk
        exact hcond c s p hgoes ⟨roleId, hrole, hfree⟩
    · have h : ((KeycloakAccessSyncService.syncUser env user maps groups).after w).db = w.db := h
      rw [step, h]
      exact iff_of_true hw fun c s p hgoes => absurd hgoes (hno c s p)
  | duplicateDemo cls env id options => exact duplicateDemo_keeps_iff hcuid hs hw

end Step

end RowCall

theorem createdAtOwnSites_refl (db : Db) : CreatedAtOwnSites db db :=
  ⟨fun a ha => .inl ⟨a, ha, rfl⟩, fun i hi => .inl ⟨i, hi, rfl⟩⟩

/-- **When every row created is at a site of its client.** In every state of a run, exactly when
    every call of it meets its condition. -/
theorem tenantRows_iff {cfg : Config} {start : World} {calls : List RowCall}
    (hrefs : start.db.ReferencesResolve) (hcuid : ∀ call ∈ calls, ∀ n, call.env.cuid n ≠ "") :
    (∀ w, Reached (RowCall.step cfg) start calls w → CreatedAtOwnSites start.db w.db) ↔
      ∀ u call, Fired (RowCall.step cfg) start calls u call →
        call.TenantCondition cfg start.db u :=
  reached_iff_fired (I := fun u => Since start.db u.db) ⟨hrefs, fun b hb => ⟨b, hb, rfl⟩⟩
    (createdAtOwnSites_refl start.db)
    (fun _ call hcall hu => RowCall.step_since (hcuid call hcall) hu)
    fun _ call hcall hu hP => RowCall.step_keeps_iff (hcuid call hcall) hu hP

/-! ## 3. An import across two clients

The two attributes of a user at the identity provider are set by hand. Here they name a client and
the site of another one. -/

/-- Two clients with a site each, and a role. -/
def nordAndSued : World where
  db :=
    { clients := ⟨[{ id := "nord", externalId := "x-nord", status := .active },
        { id := "sued", externalId := "x-sued", status := .active }],
        (by decide : ["nord", "sued"].Nodup)⟩
      sites := ⟨[{ id := "nord-1", externalId := "x-nord-1", createdOn := 0, clientId := "nord" },
        { id := "sued-1", externalId := "x-sued-1", createdOn := 0, clientId := "sued" }],
        (by decide : ["nord-1", "sued-1"].Nodup)⟩
      roles := ⟨[{ id := "viewer", name := "Viewer" }], (by decide : ["viewer"].Nodup)⟩ }

/-- The import of a user of `nord`, whose site is `sued-1`. -/
def importAcross : RowCall :=
  .syncUser {}
    { id := some "kc-1", email := some "k@x.org", clientId := some "x-nord",
      siteId := some "x-sued-1" }
    { roleMap := [("viewers", "viewer")]
      clientMap := [("x-nord", "nord"), ("x-sued", "sued")]
      siteMap := [("x-nord-1", "nord-1"), ("x-sued-1", "sued-1")] }
    [some "viewers"]

theorem nordAndSued_referencesResolve : nordAndSued.db.ReferencesResolve := by
  refine ⟨fun a ha => absurd ha List.not_mem_nil, fun s hs => ?_⟩
  rw [← Table.mem_rows] at hs
  simp only [nordAndSued, List.mem_cons, List.not_mem_nil, or_false] at hs
  rcases hs with rfl | rfl
  · rfl
  · rfl

theorem importAcross_draws : ∀ call ∈ [importAcross], ∀ n, call.env.cuid n ≠ "" := by
  intro call hcall n h
  obtain rfl := List.mem_singleton.mp hcall
  have hlength : ("cuid-" ++ toString n).length = 0 := congrArg String.length h
  rw [String.length_append] at hlength
  exact absurd (Nat.eq_zero_of_add_eq_zero_right hlength) (by decide)

theorem importAcross_away :
    nordAndSued.db.ReferencesResolve ∧
      ∃ w, Reached (RowCall.step {}) nordAndSued [importAcross] w ∧
        ¬ CreatedAtOwnSites nordAndSued.db w.db := by
  refine ⟨nordAndSued_referencesResolve, _, .inr rfl, fun h => ?_⟩
  have hrows : (importAcross.step {} nordAndSued).db.accesses.rows =
      [{ createdOn := 0, isPrimary := true, personId := "cuid-0", clientId := "nord",
         siteId := "sued-1", roleId := "viewer" }] := by decide
  rcases h.accesses _ (by rw [← Table.mem_rows, hrows]; exact List.mem_singleton_self _) with
    ⟨b, hb, -⟩ | ⟨s, hs, hid, hclient⟩
  · exact absurd hb List.not_mem_nil
  · have hsites : (importAcross.step {} nordAndSued).db.sites = nordAndSued.db.sites := rfl
    rw [hsites, ← Table.mem_rows] at hs
    simp only [nordAndSued, List.mem_cons, List.not_mem_nil, or_false] at hs
    rcases hs with rfl | rfl
    · exact absurd hid (by decide)
    · exact absurd hclient (by decide)

theorem tenantRows_iff_importAcross :
    (∀ w, Reached (RowCall.step {}) nordAndSued [importAcross] w →
        CreatedAtOwnSites nordAndSued.db w.db) ↔
      ∀ u call, Fired (RowCall.step {}) nordAndSued [importAcross] u call →
        call.TenantCondition {} nordAndSued.db u :=
  tenantRows_iff nordAndSued_referencesResolve importAcross_draws

end ShieldApi
