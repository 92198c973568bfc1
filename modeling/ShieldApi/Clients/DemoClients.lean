import ShieldApi.Lib.Inserts
import ShieldApi.Auth.GrantSources

/-!
# Copying a demo client

`duplicateDemo` of `clients/clients/clients.service.ts`: a client in demo mode is copied with its
sites, and everybody with access to it is copied as a new person, who has the same roles at
the copies of the sites. A row whose site has no copy keeps its site.

Left out: addresses, phone numbers of places and billing data, and the assets with their tags.
-/

set_option autoImplicit false

namespace ShieldApi

open Effect

structure DuplicateDemoClientDto where
  name : String
  emailDomain : String
  deriving DecidableEq, Repr

/-! ## 1. The queries -/

def World.withClients (w : World) (t : Table Client String Client.id) : World :=
  { w with db := { w.db with clients := t } }

def World.withSites (w : World) (t : Table Site String Site.id) : World :=
  { w with db := { w.db with sites := t } }

def World.withPersons (w : World) (t : Table Person String Person.id) : World :=
  { w with db := { w.db with persons := t } }

/-- A policy turns a new row down. -/
def ApiError.rowPolicy (table : String) : ApiError :=
  .error ("new row violates row-level security policy for table " ++ table)

/-- `client.create`. -/
def createClient (rls : Settings) (c : Client) : Api Client :=
  attempt fun w =>
    if rls.seesClient c.id then
      match w.db.clients.insert? c with
      | none => .error .uniqueConstraint
      | some t => .ok (c, w.withClients t)
    else .error (.rowPolicy "Client")

/-- `site.create`, connected to a client. -/
def createSite (s : Site) : Api Site :=
  attempt fun w =>
    match w.db.sites.insert? s with
    | none => .error .uniqueConstraint
    | some t =>
      if (w.db.clients.find? s.clientId).isSome then .ok (s, w.withSites t)
      else .error .recordNotFound

/-- A person and their access rows at one client. -/
abbrev Member : Type := Person × List PersonClientAccess

/-- `person.create`, with `clientAccess: { create }`. -/
def createMember (member : Member) : Api Unit := do
  let (person, clientAccess) := member
  let _ ← attempt fun w =>
    match w.db.persons.insert? person with
    | none => .error .uniqueConstraint
    | some t => .ok (person, w.withPersons t)
  let _ ← forEach clientAccess createAccess
  pure ()

def Site.setParent (parentSiteId : String) (s : Site) : Site :=
  { s with parentSiteId := some parentSiteId }

theorem Site.id_setParent (parentSiteId : String) (s : Site) :
    (s.setParent parentSiteId).id = s.id := rfl

/-- The foreign keys of the access rows and of the sites resolve. -/
structure Db.ReferencesResolve (db : Db) : Prop where
  accesses : ∀ a ∈ db.accesses, db.accessRefs a.key = true
  sites : ∀ s ∈ db.sites, (db.clients.find? s.clientId).isSome = true

namespace ClientsService

/-! ## 2. The copies -/

/-- `email.split('@')[0] + '@' + emailDomain`. -/
def copiedEmail (email emailDomain : String) : String :=
  String.ofList (email.toList.takeWhile (· ≠ '@')) ++ "@" ++ emailDomain

def clientCopy (env : Env) (options : DuplicateDemoClientDto) (existing : Client) : Client :=
  { id := env.cuid 0
    externalId := env.cuid 1
    status := existing.status
    name := options.name
    demoMode := true
    defaultInspectionCycle := existing.defaultInspectionCycle }

def siteCopy (env : Env) (clientId : String) (site : Site × Nat) : Site :=
  { id := env.cuid (2 + 2 * site.2)
    externalId := env.cuid (3 + 2 * site.2)
    createdOn := env.now
    primary := site.1.primary
    clientId := clientId
    name := site.1.name }

def siteCopies (env : Env) (clientId : String) (sites : List Site) : List Site :=
  sites.zipIdx.map (siteCopy env clientId)

/-- From the id of a site to that of its copy. -/
def siteIdsMap (sites duplicates : List Site) : List (String × String) :=
  (sites.zip duplicates).map fun p => (p.1.id, p.2.id)

def accessCopy (env : Env) (map : List (String × String)) (personId clientId : String)
    (access : PersonClientAccess) : PersonClientAccess :=
  { createdOn := env.now
    isPrimary := access.isPrimary
    personId := personId
    clientId := clientId
    siteId := (truthy (map.lookup access.siteId)).getD access.siteId
    roleId := access.roleId }

/-- The copy of a member, who draws the `n`-th id. -/
def memberCopy (env : Env) (options : DuplicateDemoClientDto) (map : List (String × String))
    (clientId : String) (n : Nat) (member : Member × Nat) : Member :=
  ({ id := env.cuid (n + member.2)
     firstName := member.1.1.firstName
     lastName := member.1.1.lastName
     email := copiedEmail member.1.1.email options.emailDomain
     phoneNumber := member.1.1.phoneNumber },
   member.1.2.map (accessCopy env map (env.cuid (n + member.2)) clientId))

/-- Everybody with access to the client, with their rows there. -/
def sourceMembers (rls : Settings) (env : Env) (id : String) (db : Db) : List Member :=
  (db.persons.rows.filter fun p =>
      rls.seesPerson db p.id && db.accesses.rows.any fun a =>
        rls.seesClient a.clientId && a.personId = p.id && a.clientId = id).map fun p =>
    (p, env.accessOrder.findMany
      (fun a => rls.seesClient a.clientId && a.personId = p.id && a.clientId = id)
      db.accesses.rows)

def memberCopies (env : Env) (options : DuplicateDemoClientDto) (map : List (String × String))
    (clientId : String) (n : Nat) (members : List Member) : List Member :=
  members.zipIdx.map (memberCopy env options map clientId n)

/-- The copy of a site is below the copy of the site it is below. -/
def linkParent (map : List (String × String)) (site : Site) : Api Unit :=
  match truthy (map.lookup site.id),
      truthy ((truthy site.parentSiteId).bind fun id => map.lookup id) with
  | some duplicateSiteId, some duplicateParentSiteId => write fun w =>
    w.withSites (w.db.sites.updateMany (·.id = duplicateSiteId)
      (.setParent duplicateParentSiteId) (Site.id_setParent _))
  | _, _ => pure ()

/-! ## 3. The call -/

def duplicateTransaction (rls : Settings) (env : Env) (id : String)
    (options : DuplicateDemoClientDto) : Api Client := do
  let found ← query fun w => (w.db.clients.find? id).filter (rls.seesClient ·.id)
  let existingClient ← orRaise (as404OrThrow .recordNotFound) found
  let sites ← query fun w => w.db.sites.rows.filter fun s => rls.seesSite s && s.clientId = id
  raiseIf (!existingClient.demoMode)
    (.badRequest "Client must be in demo mode to perform this action.")
  let duplicateClient ← createClient rls (clientCopy env options existingClient)
  let duplicateSites ← forEach (siteCopies env duplicateClient.id sites) createSite
  let map := siteIdsMap sites duplicateSites
  let _ ← forEach sites (linkParent map)
  let members ← query fun w => sourceMembers rls env id w.db
  let _ ← forEach
    (memberCopies env options map duplicateClient.id (2 + 2 * sites.length) members) createMember
  pure duplicateClient

def duplicateDemo (cls : Cls) (env : Env) (id : String) (options : DuplicateDemoClientDto) :
    Api Client := do
  let rls ← prismaBuild cls env { shouldBypassRLSAsSystemAdmin := true }
  transaction (duplicateTransaction rls env id options)

end ClientsService

/-! ## 4. What the queries do -/

section Queries

variable {w w' : World}

theorem createClient_eq_ok {rls : Settings} {c r : Client} :
    (createClient rls c).run w = (.ok r, w') ↔
      r = c ∧ rls.seesClient c.id = true ∧
        ∃ t, w.db.clients.insert? c = some t ∧ w' = w.withClients t := by
  unfold createClient
  rw [attempt_eq_ok]
  by_cases hsees : rls.seesClient c.id = true
  · rw [if_pos hsees]
    cases w.db.clients.insert? c with
    | none => simp
    | some t => simp [hsees, eq_comm]
  · rw [if_neg hsees]
    simp [hsees]

theorem inserts_createSite :
    Inserts (fun w : World => w.db.sites) World.withSites
      (fun s w => (w.db.clients.find? s.clientId).isSome = true) createSite := by
  refine ⟨fun s w r w' => ?_, fun _ _ => rfl, fun _ _ _ => rfl, fun _ => rfl,
    fun _ _ _ => Iff.rfl⟩
  unfold createSite
  rw [attempt_eq_ok]
  cases w.db.sites.insert? s with
  | none => simp
  | some t =>
    by_cases hclient : (w.db.clients.find? s.clientId).isSome = true
    · simp [hclient, eq_comm]
    · simp [hclient]

theorem inserts_createAccess :
    Inserts (fun w : World => w.db.accesses) World.withAccesses
      (fun a w => w.db.accessRefs a.key = true) createAccess :=
  ⟨fun _ _ _ _ => createAccess_eq_ok, fun _ _ => rfl, fun _ _ _ => rfl, fun _ => rfl,
    fun _ _ _ => Iff.rfl⟩

theorem createMember_eq_ok {member : Member} {u : Unit} :
    (createMember member).run w = (.ok u, w') ↔
      ∃ tp, w.db.persons.insert? member.1 = some tp ∧
        (∀ a ∈ member.2, (w.withPersons tp).db.accessRefs a.key = true) ∧
        ∃ ta, w.db.accesses.insertAll? member.2 = some ta ∧
          w' = (w.withPersons tp).withAccesses ta := by
  obtain ⟨person, rows⟩ := member
  unfold createMember
  simp only [bind_eq_ok, attempt_eq_ok, inserts_createAccess.forEach_eq_ok, run_pure,
    Prod.mk.injEq]
  cases w.db.persons.insert? person with
  | none => simp
  | some tp =>
    constructor
    · rintro ⟨_, _, hp, _, _, ⟨-, hrefs, ta, hta, rfl⟩, -, rfl⟩
      obtain ⟨-, rfl⟩ := Prod.mk.inj (Except.ok.inj hp)
      exact ⟨tp, rfl, hrefs, ta, hta, rfl⟩
    · rintro ⟨_, htp, hrefs, ta, hta, rfl⟩
      obtain rfl := Option.some.inj htp
      exact ⟨person, w.withPersons tp, rfl, rows, _, ⟨rfl, hrefs, ta, hta, rfl⟩, trivial, rfl⟩

/-- More persons, and the references that resolved still do. -/
theorem accessRefs_withPersons {tp : Table Person String Person.id} {k : AccessKey}
    (hkept : ∀ id, (w.db.persons.find? id).isSome = true → (tp.find? id).isSome = true)
    (h : w.db.accessRefs k = true) : (w.withPersons tp).db.accessRefs k = true := by
  unfold Db.accessRefs at h ⊢
  simp only [Bool.and_eq_true] at h ⊢
  exact ⟨⟨⟨hkept _ h.1.1.1, h.1.1.2⟩, h.1.2⟩, h.2⟩

/-- The members of a loop that went through, and their rows, are all there. -/
theorem forEach_createMember_ok {members : List Member} {us : List Unit}
    (h : (forEach members createMember).run w = (.ok us, w')) :
    ∃ tp ta, w.db.persons.insertAll? (members.map Prod.fst) = some tp ∧
      w.db.accesses.insertAll? (members.flatMap Prod.snd) = some ta ∧
      w' = (w.withPersons tp).withAccesses ta ∧
      ∀ a ∈ members.flatMap Prod.snd, w'.db.accessRefs a.key = true := by
  induction members generalizing w w' us with
  | nil =>
    obtain ⟨-, rfl⟩ := Prod.mk.inj h
    exact ⟨_, _, rfl, rfl, rfl, fun a ha => absurd ha List.not_mem_nil⟩
  | cons member members ih =>
    obtain ⟨u, w₁, us', hmember, hrest, -⟩ := forEach_cons_eq_ok.mp h
    obtain ⟨tp₁, htp₁, hrefs₁, ta₁, hta₁, rfl⟩ := createMember_eq_ok.1 hmember
    obtain ⟨tp, ta, htp, hta, rfl, hrefs⟩ := ih hrest
    refine ⟨tp, ta, ?_, ?_, rfl, fun a ha => ?_⟩
    · rw [List.map_cons, Table.insertAll?, htp₁]
      exact htp
    · rw [List.flatMap_cons, Table.insertAll?_append, hta₁]
      exact hta
    · rw [List.flatMap_cons, List.mem_append] at ha
      rcases ha with ha | ha
      · have hlater : ∀ id, (tp₁.find? id).isSome = true → (tp.find? id).isSome = true :=
          fun _ => Table.find?_isSome_of_insertAll? htp
        exact accessRefs_withPersons (w := w.withPersons tp₁) hlater (hrefs₁ a ha)
      · exact hrefs a ha

/-- …and it goes through where the tables take them. -/
theorem forEach_createMember_run {members : List Member} {tp : Table Person String Person.id}
    {ta : AccessTable} (htp : w.db.persons.insertAll? (members.map Prod.fst) = some tp)
    (hta : w.db.accesses.insertAll? (members.flatMap Prod.snd) = some ta)
    (hrefs : ∀ m ∈ members, ∀ a ∈ m.2, a.personId = m.1.id ∧
      (w.db.clients.find? a.clientId).isSome = true ∧ (w.db.sites.find? a.siteId).isSome = true ∧
      (w.db.roles.find? a.roleId).isSome = true) :
    ∃ us, (forEach members createMember).run w = (.ok us, (w.withPersons tp).withAccesses ta) := by
  induction members generalizing w with
  | nil =>
    obtain rfl := Option.some.inj htp
    obtain rfl := Option.some.inj hta
    exact ⟨[], rfl⟩
  | cons member members ih =>
    rw [List.map_cons, Table.insertAll?, Option.bind_eq_some_iff] at htp
    obtain ⟨tp₁, htp₁, htp⟩ := htp
    rw [List.flatMap_cons, Table.insertAll?_append, Option.bind_eq_some_iff] at hta
    obtain ⟨ta₁, hta₁, hta⟩ := hta
    have hmember : (createMember member).run w =
        (.ok (), (w.withPersons tp₁).withAccesses ta₁) := by
      refine createMember_eq_ok.2 ⟨tp₁, htp₁, fun a ha => ?_, ta₁, hta₁, rfl⟩
      obtain ⟨hown, hclient, hsite, hrole⟩ := hrefs member (List.mem_cons_self ..) a ha
      have hperson : (tp₁.find? a.personId).isSome = true := by
        rw [hown]
        exact Option.isSome_of_eq_some (Table.find?_inserted htp₁)
      unfold Db.accessRefs
      simp only [Bool.and_eq_true]
      exact ⟨⟨⟨hperson, hclient⟩, hsite⟩, hrole⟩
    obtain ⟨us, hus⟩ := ih (w := (w.withPersons tp₁).withAccesses ta₁) htp hta
      fun m hm => hrefs m (List.mem_cons_of_mem _ hm)
    refine ⟨() :: us, ?_⟩
    rw [forEach, run_bind_ok hmember, run_bind_ok hus, run_pure]
    rfl

/-- A site's id and its client. -/
def Site.place (s : Site) : String × String := (s.clientId, s.id)

/-- The same sites, but for what they are below. -/
def SamePlaces (t t' : Table Site String Site.id) : Prop :=
  t'.rows.map Site.place = t.rows.map Site.place

theorem SamePlaces.updateMany {t t' : Table Site String Site.id} (h : SamePlaces t t')
    (p : Site → Bool) (parentSiteId : String) :
    SamePlaces t (t'.updateMany p (.setParent parentSiteId) (Site.id_setParent _)) := by
  unfold SamePlaces at h ⊢
  rw [← h, Table.updateMany, List.map_map]
  apply List.map_congr_left
  intro s _
  rw [Function.comp_apply]
  split <;> rfl

theorem SamePlaces.exists_iff {t t' : Table Site String Site.id} (h : SamePlaces t t')
    {clientId siteId : String} :
    (∃ s ∈ t', s.id = siteId ∧ s.clientId = clientId) ↔
      ∃ s ∈ t, s.id = siteId ∧ s.clientId = clientId := by
  have hplace : ∀ t : Table Site String Site.id,
      (∃ s ∈ t, s.id = siteId ∧ s.clientId = clientId) ↔
        (clientId, siteId) ∈ t.rows.map Site.place := by
    intro t
    rw [List.mem_map]
    apply exists_congr
    intro s
    apply and_congr_right
    intro _
    rw [Site.place, Prod.mk.injEq, and_comm]
  rw [hplace, hplace, h]

theorem SamePlaces.find?_isSome {t t' : Table Site String Site.id} (h : SamePlaces t t')
    {siteId : String} (hs : (t.find? siteId).isSome = true) :
    (t'.find? siteId).isSome = true := by
  obtain ⟨s, hs, hid⟩ := Table.find?_isSome.mp hs
  obtain ⟨s', hs', hid', -⟩ := h.exists_iff.mpr ⟨s, hs, hid, rfl⟩
  exact Table.find?_isSome.mpr ⟨s', hs', hid'⟩

theorem linkParents_run (map : List (String × String)) (sites : List Site) (w : World) :
    ∃ us t, (forEach sites (ClientsService.linkParent map)).run w = (.ok us, w.withSites t) ∧
      SamePlaces w.db.sites t := by
  induction sites generalizing w with
  | nil => exact ⟨[], w.db.sites, rfl, rfl⟩
  | cons site sites ih =>
    have hsite : ∃ t, (ClientsService.linkParent map site).run w = (.ok (), w.withSites t) ∧
        SamePlaces w.db.sites t := by
      unfold ClientsService.linkParent
      split
      · exact ⟨_, rfl, SamePlaces.updateMany rfl _ _⟩
      · exact ⟨w.db.sites, rfl, rfl⟩
    obtain ⟨t₁, hrun₁, h₁⟩ := hsite
    obtain ⟨us, t, hrun, h⟩ := ih (w.withSites t₁)
    refine ⟨() :: us, t, ?_, h.trans h₁⟩
    rw [forEach, run_bind_ok hrun₁, run_bind_ok hrun, run_pure]
    rfl

end Queries

namespace ClientsService

/-! ## 5. When a copy is made, and what it is -/

/-- The settings of a client that bypasses the policies. -/
def bypassing : Settings := [("app.bypass_rls", "on")]

theorem bypassing_bypasses : bypassing.shouldBypassRls = true := by decide

def sitesOf (id : String) (db : Db) : List Site :=
  db.sites.rows.filter fun s => bypassing.seesSite s && s.clientId = id

/-- The rows the copy consists of. -/
def newSites (env : Env) (id : String) (db : Db) : List Site :=
  siteCopies env (env.cuid 0) (sitesOf id db)

def newSiteIds (env : Env) (id : String) (db : Db) : List (String × String) :=
  siteIdsMap (sitesOf id db) (newSites env id db)

def newMembers (env : Env) (options : DuplicateDemoClientDto) (id : String) (db : Db) :
    List Member :=
  memberCopies env options (newSiteIds env id db) (env.cuid 0) (2 + 2 * (sitesOf id db).length)
    (sourceMembers bypassing env id db)

/-- `existing` is a demo client, and none of the ids drawn for its copy is in use. -/
structure Duplicable (env : Env) (options : DuplicateDemoClientDto) (id : String) (db : Db)
    (existing : Client) : Prop where
  found : db.clients.find? id = some existing
  demo : existing.demoMode = true
  client : db.clients.find? (env.cuid 0) = none
  sites : db.sites.Free ((newSites env id db).map (·.id))
  persons : db.persons.Free ((newMembers env options id db).map (·.1.id))

/-- `db'` is `db` with the copy of `existing`. -/
structure Duplicated (env : Env) (options : DuplicateDemoClientDto) (id : String)
    (existing : Client) (db db' : Db) : Prop where
  roles : db'.roles = db.roles
  invitations : db'.invitations = db.invitations
  clients : db.clients.insert? (clientCopy env options existing) = some db'.clients
  sites : ∃ t, db.sites.insertAll? (newSites env id db) = some t ∧ SamePlaces t db'.sites
  persons : db.persons.insertAll? ((newMembers env options id db).map Prod.fst) = some db'.persons
  accesses : db.accesses.insertAll? ((newMembers env options id db).flatMap Prod.snd) =
    some db'.accesses
  refs : ∀ a ∈ (newMembers env options id db).flatMap Prod.snd, db'.accessRefs a.key = true

theorem duplicateTransaction_ok {env : Env} {options : DuplicateDemoClientDto} {id : String}
    {c : Client} {w w' : World}
    (h : (duplicateTransaction bypassing env id options).run w = (.ok c, w')) :
    ∃ existing, Duplicable env options id w.db existing ∧
      Duplicated env options id existing w.db w'.db := by
  unfold duplicateTransaction at h
  rw [run_query_bind, bind_eq_ok] at h
  obtain ⟨existing, w₁, hlookup, h⟩ := h
  obtain ⟨hvisible, rfl⟩ := orRaise_eq_ok.mp hlookup
  obtain ⟨hfound, -⟩ := Option.filter_eq_some_iff.mp hvisible
  rw [run_query_bind, bind_eq_ok] at h
  obtain ⟨_, w₂, hcheck, h⟩ := h
  obtain ⟨hdemo, rfl⟩ := raiseIf_eq_ok.mp hcheck
  rw [bind_eq_ok] at h
  obtain ⟨_, w₃, hclient, h⟩ := h
  obtain ⟨rfl, -, tc, htc, rfl⟩ := createClient_eq_ok.mp hclient
  rw [bind_eq_ok] at h
  obtain ⟨_, w₄, hsites, h⟩ := h
  obtain ⟨rfl, -, ts, hts, rfl⟩ := inserts_createSite.forEach_eq_ok.mp hsites
  rw [bind_eq_ok] at h
  obtain ⟨_, w₅, hlink, h⟩ := h
  obtain ⟨us, ts', hlink', hsame⟩ := linkParents_run
    (newSiteIds env id w.db) (sitesOf id w.db) ((w.withClients tc).withSites ts)
  obtain ⟨-, rfl⟩ := Prod.mk.inj (hlink.symm.trans hlink')
  rw [run_query_bind, bind_eq_ok] at h
  obtain ⟨_, w₆, hmembers, h⟩ := h
  obtain ⟨-, rfl⟩ := Prod.mk.inj h
  obtain ⟨tp, ta, htp, hta, rfl, hrefs⟩ := forEach_createMember_ok hmembers
  refine ⟨existing, ⟨hfound, by simpa using hdemo, ?_, ?_, ?_⟩, rfl, rfl, htc, ⟨ts, hts, hsame⟩,
    htp, hta, hrefs⟩
  · exact Table.insert?_isSome.mp (Option.isSome_of_eq_some htc)
  · exact Table.insertAll?_isSome.mp (Option.isSome_of_eq_some hts)
  · have hfree := Table.insertAll?_isSome.mp (Option.isSome_of_eq_some htp)
    rw [List.map_map] at hfree
    exact hfree

/-! ## 6. Free ids are enough

If the foreign keys of the database resolve, the copied rows have no two keys alike: the
copies of two sites are two sites, and no site that has no copy is one. -/

section Free

variable {env : Env} {options : DuplicateDemoClientDto} {id : String} {db : Db}
  {existing : Client}

theorem newSiteIds_fst (env : Env) (id : String) (db : Db) :
    (newSiteIds env id db).map Prod.fst = (sitesOf id db).map (·.id) := by
  unfold newSiteIds siteIdsMap
  rw [List.map_map]
  have hlen : (sitesOf id db).length ≤ (newSites env id db).length := by
    simp [newSites, siteCopies]
  conv_rhs => rw [← List.map_fst_zip hlen, List.map_map]
  rfl

theorem newSiteIds_snd (env : Env) (id : String) (db : Db) :
    (newSiteIds env id db).map Prod.snd = (newSites env id db).map (·.id) := by
  unfold newSiteIds siteIdsMap
  rw [List.map_map]
  have hlen : (newSites env id db).length ≤ (sitesOf id db).length := by
    simp [newSites, siteCopies]
  conv_rhs => rw [← List.map_snd_zip hlen, List.map_map]
  rfl

/-- The site of a copied row. -/
def copiedSite (env : Env) (id : String) (db : Db) (siteId : String) : String :=
  (truthy ((newSiteIds env id db).lookup siteId)).getD siteId

theorem mem_sitesOf {s : Site} : s ∈ sitesOf id db ↔ s ∈ db.sites ∧ s.clientId = id := by
  unfold sitesOf Settings.seesSite
  rw [List.mem_filter, bypassing_bypasses, Table.mem_rows, Bool.true_or, Bool.true_and,
    decide_eq_true_iff]

/-- A site of the client becomes its copy… -/
theorem copiedSite_of_siteOf (hcuid : ∀ n, env.cuid n ≠ "") {siteId : String}
    (h : db.SiteOf id siteId) :
    (siteId, copiedSite env id db siteId) ∈ newSiteIds env id db := by
  obtain ⟨s, hs, rfl, hclient⟩ := h
  have hkey : s.id ∈ (newSiteIds env id db).map Prod.fst := by
    rw [newSiteIds_fst]
    exact List.mem_map_of_mem (mem_sitesOf.2 ⟨hs, hclient⟩)
  unfold copiedSite
  cases hl : (newSiteIds env id db).lookup s.id with
  | none =>
    obtain ⟨p, hp, hpk⟩ := List.mem_map.mp hkey
    have hne := List.lookup_eq_none_iff.mp hl p hp
    rw [hpk] at hne
    simp at hne
  | some d =>
    obtain ⟨l₁, l₂, hsplit, -⟩ := List.lookup_eq_some_iff.mp hl
    have hmem : (s.id, d) ∈ newSiteIds env id db := by
      rw [hsplit]
      exact List.mem_append_right _ (List.mem_cons_self ..)
    have hne : d ≠ "" := by
      have hd : d ∈ (newSiteIds env id db).map Prod.snd := List.mem_map_of_mem hmem
      rw [newSiteIds_snd, newSites, siteCopies, List.map_map] at hd
      obtain ⟨site, -, rfl⟩ := List.mem_map.mp hd
      exact hcuid _
    rw [truthy_eq_some.mpr ⟨rfl, hne⟩]
    exact hmem

/-- …and any other one stays what it is. -/
theorem copiedSite_of_not {siteId : String} (h : ¬ db.SiteOf id siteId) :
    copiedSite env id db siteId = siteId := by
  unfold copiedSite
  cases hl : (newSiteIds env id db).lookup siteId with
  | none => rfl
  | some d =>
    obtain ⟨l₁, l₂, hsplit, -⟩ := List.lookup_eq_some_iff.mp hl
    have hkey : siteId ∈ (newSiteIds env id db).map Prod.fst := by
      rw [hsplit, List.map_append, List.map_cons]
      exact List.mem_append_right _ (List.mem_cons_self ..)
    rw [newSiteIds_fst] at hkey
    obtain ⟨s, hs, hid⟩ := List.mem_map.mp hkey
    obtain ⟨hs, hclient⟩ := mem_sitesOf.1 hs
    exact absurd ⟨s, hs, hid, hclient⟩ h

theorem mem_newSites_of_copied (hcuid : ∀ n, env.cuid n ≠ "") {siteId : String}
    (h : db.SiteOf id siteId) :
    copiedSite env id db siteId ∈ (newSites env id db).map (·.id) := by
  rw [← newSiteIds_snd]
  exact List.mem_map_of_mem (copiedSite_of_siteOf hcuid h)

/-- Two sites that are there are not copied to one. -/
theorem copiedSite_inj (hcuid : ∀ n, env.cuid n ≠ "")
    (hfree : db.sites.Free ((newSites env id db).map (·.id))) {x y : String}
    (hx : (db.sites.find? x).isSome = true) (hy : (db.sites.find? y).isSome = true)
    (h : copiedSite env id db x = copiedSite env id db y) : x = y := by
  have hapart : ∀ {x y : String}, db.SiteOf id x → ¬ db.SiteOf id y →
      (db.sites.find? y).isSome = true →
      copiedSite env id db x ≠ copiedSite env id db y := by
    intro x y hx hy hfound heq
    rw [copiedSite_of_not hy] at heq
    have hnone := hfree.2 _ (mem_newSites_of_copied hcuid hx)
    rw [heq] at hnone
    rw [hnone] at hfound
    exact absurd hfound (by simp)
  by_cases hxs : db.SiteOf id x
  · by_cases hys : db.SiteOf id y
    · have hx := copiedSite_of_siteOf hcuid hxs
      have hy := copiedSite_of_siteOf hcuid hys
      have hnodup : ((newSiteIds env id db).map Prod.snd).Nodup := by
        rw [newSiteIds_snd]
        exact hfree.1
      exact congrArg Prod.fst (List.inj_on_of_nodup_map hnodup hx hy h)
    · exact absurd h (hapart hxs hys hy)
  · by_cases hys : db.SiteOf id y
    · exact absurd h.symm (hapart hys hxs hx)
    · rw [copiedSite_of_not hxs, copiedSite_of_not hys] at h
      exact h

/-- A row of a new member is the copy of a row at the client, for that member. -/
theorem mem_newMembers {m : Member} (hm : m ∈ newMembers env options id db) :
    ∃ rows : List PersonClientAccess, m.2 = rows.map
        (accessCopy env (newSiteIds env id db) m.1.id (env.cuid 0)) ∧ (rows.map (·.key)).Nodup ∧
      ∃ personId, ∀ a ∈ rows, a ∈ db.accesses ∧ a.personId = personId ∧ a.clientId = id := by
  unfold newMembers memberCopies at hm
  obtain ⟨⟨member, n⟩, hmem, rfl⟩ := List.mem_map.mp hm
  have hmem := List.fst_mem_of_mem_zipIdx hmem
  obtain ⟨p, -, rfl⟩ := List.mem_map.mp hmem
  refine ⟨_, rfl, ?_, p.id, fun a ha => ?_⟩
  · have hperm := env.accessOrder.perm (db.accesses.rows.filter fun a =>
      bypassing.seesClient a.clientId && decide (a.personId = p.id) && decide (a.clientId = id))
    refine (hperm.map _).nodup_iff.mpr ?_
    exact db.accesses.unique.sublist (List.filter_sublist.map _)
  · obtain ⟨ha, hsel⟩ := RowOrder.mem_findMany.mp ha
    simp only [Bool.and_eq_true, decide_eq_true_eq] at hsel
    exact ⟨ha, hsel.1.2, hsel.2⟩

theorem site_of_access {a : PersonClientAccess} (hrefs : db.ReferencesResolve)
    (ha : a ∈ db.accesses) : (db.sites.find? a.siteId).isSome = true := by
  have href := hrefs.accesses a ha
  unfold Db.accessRefs at href
  simp only [Bool.and_eq_true] at href
  exact href.1.2

theorem newRows_free (hcuid : ∀ n, env.cuid n ≠ "") (hrefs : db.ReferencesResolve)
    (h : Duplicable env options id db existing) :
    db.accesses.Free (((newMembers env options id db).flatMap Prod.snd).map (·.key)) := by
  have hown : ∀ m ∈ newMembers env options id db, ∀ k ∈ m.2.map (·.key),
      k.personId = m.1.id := by
    intro m hm k hk
    obtain ⟨rows, hrows, -⟩ := mem_newMembers hm
    rw [hrows, List.map_map] at hk
    obtain ⟨a, -, rfl⟩ := List.mem_map.mp hk
    rfl
  constructor
  · rw [List.map_flatMap, List.nodup_flatMap]
    constructor
    · -- the rows of one member: the same role at two places
      intro m hm
      obtain ⟨rows, hrows, hnodup, p, hall⟩ := mem_newMembers hm
      rw [hrows, List.map_map]
      refine List.Nodup.map_on (fun a ha b hb hab => ?_) (List.Nodup.of_map _ hnodup)
      obtain ⟨hadb, hap, hac⟩ := hall a ha
      obtain ⟨hbdb, hbp, hbc⟩ := hall b hb
      have hrole : a.roleId = b.roleId := congrArg AccessKey.roleId hab
      have hsite : a.siteId = b.siteId := copiedSite_inj hcuid h.sites
        (site_of_access hrefs hadb) (site_of_access hrefs hbdb) (congrArg AccessKey.siteId hab)
      refine Table.eq_of_key_eq hadb hbdb ?_
      rw [PersonClientAccess.key, PersonClientAccess.key, hap, hbp, hac, hbc, hsite, hrole]
    · -- the rows of two members: two persons
      have hpersons := List.pairwise_map.mp h.persons.1
      refine hpersons.imp_of_mem fun {m m'} hm hm' hne k hk hk' => hne ?_
      exact (hown m hm k hk).symm.trans (hown m' hm' k hk')
  · -- nobody who has a row is a new person
    intro k hk
    rw [List.map_flatMap, List.mem_flatMap] at hk
    obtain ⟨m, hm, hk⟩ := hk
    have hperson := h.persons.2 _ (List.mem_map_of_mem hm)
    refine Table.find?_eq_none.mpr fun a ha hak => ?_
    have href := hrefs.accesses a ha
    unfold Db.accessRefs at href
    simp only [Bool.and_eq_true] at href
    rw [hak, hown m hm k hk, hperson] at href
    exact absurd href.1.1.1 (by simp)

theorem duplicateTransaction_run {w : World} (hcuid : ∀ n, env.cuid n ≠ "")
    (hrefs : w.db.ReferencesResolve) (h : Duplicable env options id w.db existing) :
    ∃ c w', (duplicateTransaction bypassing env id options).run w = (.ok c, w') := by
  have hnew : w.db.clients.find? (clientCopy env options existing).id = none := h.client
  obtain ⟨tc, htc⟩ := Option.isSome_iff_exists.mp (Table.insert?_isSome.mpr hnew)
  obtain ⟨ts, hts⟩ := Option.isSome_iff_exists.mp (Table.insertAll?_isSome.mpr h.sites)
  obtain ⟨us, ts', hlink, hsame⟩ := linkParents_run (newSiteIds env id w.db) (sitesOf id w.db)
    ((w.withClients tc).withSites ts)
  have hpersons : w.db.persons.Free
      (((newMembers env options id w.db).map Prod.fst).map (·.id)) := by
    rw [List.map_map]
    exact h.persons
  obtain ⟨tp, htp⟩ := Option.isSome_iff_exists.mp (Table.insertAll?_isSome.mpr hpersons)
  obtain ⟨ta, hta⟩ := Option.isSome_iff_exists.mp
    (Table.insertAll?_isSome.mpr (newRows_free hcuid hrefs h))
  have hclient : (tc.find? (env.cuid 0)).isSome = true :=
    Option.isSome_of_eq_some (Table.find?_inserted htc)
  have hplaces : ∀ m ∈ newMembers env options id w.db, ∀ a ∈ m.2, a.personId = m.1.id ∧
      (tc.find? a.clientId).isSome = true ∧ (ts'.find? a.siteId).isSome = true ∧
      (w.db.roles.find? a.roleId).isSome = true := by
    intro m hm a ha
    obtain ⟨rows, hrows, -, p, hall⟩ := mem_newMembers hm
    rw [hrows] at ha
    obtain ⟨b, hb, rfl⟩ := List.mem_map.mp ha
    have hbdb := (hall b hb).1
    have hrole := hrefs.accesses b hbdb
    unfold Db.accessRefs at hrole
    simp only [Bool.and_eq_true] at hrole
    refine ⟨rfl, hclient, hsame.find?_isSome ?_, hrole.2⟩
    by_cases hsite : w.db.SiteOf id b.siteId
    · obtain ⟨s, hs, hid⟩ := List.mem_map.mp (mem_newSites_of_copied hcuid hsite)
      exact Table.find?_isSome.mpr ⟨s, (Table.mem_insertAll? hts).mpr (.inr hs), hid⟩
    · have hstays : (accessCopy env (newSiteIds env id w.db) m.1.id (env.cuid 0) b).siteId =
          b.siteId := copiedSite_of_not hsite
      rw [hstays]
      exact Table.find?_isSome_of_insertAll? hts (site_of_access hrefs hbdb)
  obtain ⟨vs, hmembers⟩ := forEach_createMember_run
    (w := ((w.withClients tc).withSites ts).withSites ts') htp hta hplaces
  refine ⟨clientCopy env options existing,
    ((((w.withClients tc).withSites ts).withSites ts').withPersons tp).withAccesses ta, ?_⟩
  unfold duplicateTransaction
  rw [run_query_bind, h.found, Option.filter_some, Settings.seesClient, bypassing_bypasses,
    Bool.true_or, if_pos rfl, orRaise_some, run_pure_bind, run_query_bind, h.demo, Bool.not_true,
    raiseIf_false, run_pure_bind]
  have hcreate : (createClient bypassing (clientCopy env options existing)).run w =
      (.ok (clientCopy env options existing), w.withClients tc) := by
    refine createClient_eq_ok.mpr ⟨rfl, ?_, tc, htc, rfl⟩
    rw [Settings.seesClient, bypassing_bypasses, Bool.true_or]
  have hsites : (forEach (newSites env id w.db) createSite).run (w.withClients tc) =
      (.ok (newSites env id w.db), (w.withClients tc).withSites ts) := by
    refine inserts_createSite.forEach_eq_ok.mpr ⟨rfl, fun s hs => ?_, ts, hts, rfl⟩
    unfold newSites siteCopies at hs
    obtain ⟨site, -, rfl⟩ := List.mem_map.mp hs
    exact hclient
  rw [run_bind_ok hcreate]
  refine (run_bind_ok hsites).trans ?_
  refine (run_bind_ok hlink).trans ?_
  rw [run_query_bind]
  exact run_bind_ok hmembers

end Free

/-- Without the bypass a caller sees no client but their own, and there is that one already. -/
theorem createClient_scoped {rls : Settings} {id : String} {existing c r : Client} {w w' : World}
    (hoff : rls.shouldBypassRls = false) (hfound : w.db.clients.find? id = some existing)
    (hsees : rls.seesClient existing.id = true) :
    (createClient rls c).run w ≠ (.ok r, w') := by
  intro h
  obtain ⟨-, hsees', t, ht, -⟩ := createClient_eq_ok.mp h
  rw [Settings.seesClient, hoff, Bool.false_or, Settings.validateClient, decide_eq_true_iff]
    at hsees hsees'
  have hsame : existing.id = c.id := Option.some.inj (hsees.symm.trans hsees')
  exact (Table.insert?_eq_some.mp ht).2 existing (Table.find?_eq_some.mp hfound).1 hsame

/-- So no copy is made. -/
theorem duplicateTransaction_scoped {rls : Settings} {env : Env} {id : String}
    {options : DuplicateDemoClientDto} {c : Client} {w w' : World}
    (hoff : rls.shouldBypassRls = false) :
    (duplicateTransaction rls env id options).run w ≠ (.ok c, w') := by
  intro h
  unfold duplicateTransaction at h
  rw [run_query_bind, bind_eq_ok] at h
  obtain ⟨existing, w₁, hlookup, h⟩ := h
  obtain ⟨hvisible, rfl⟩ := orRaise_eq_ok.mp hlookup
  obtain ⟨hfound, hsees⟩ := Option.filter_eq_some_iff.mp hvisible
  rw [run_query_bind, bind_eq_ok] at h
  obtain ⟨_, w₂, hcheck, h⟩ := h
  obtain ⟨-, rfl⟩ := raiseIf_eq_ok.mp hcheck
  rw [bind_eq_ok] at h
  obtain ⟨_, w₃, hclient, -⟩ := h
  exact createClient_scoped hoff hfound hsees hclient

/-- The request client of the call bypasses the policies. -/
def Bypasses (cls : Cls) (env : Env) : Prop :=
  (buildPrimaryExtension cls env.allowedSiteIdsForSite
    { shouldBypassRLSAsSystemAdmin := true }).bypassRLS = true

/-- **A demo client is copied as a whole or not at all.** -/
theorem duplicateDemo_spec (cls : Cls) {env : Env} (id : String)
    (options : DuplicateDemoClientDto) {w : World} (hcuid : ∀ n, env.cuid n ≠ "")
    (hrefs : w.db.ReferencesResolve) :
    (∃ existing, (Bypasses cls env ∧ Duplicable env options id w.db existing) ∧
        (duplicateDemo cls env id options).Leaves
          (fun w' => Duplicated env options id existing w.db w'.db) w) ∨
      ((∀ existing, ¬ (Bypasses cls env ∧ Duplicable env options id w.db existing)) ∧
        (duplicateDemo cls env id options).Leaves (fun w' => w'.db = w.db) w) := by
  unfold duplicateDemo
  by_cases hon : Bypasses cls env
  · rw [prismaBuild_bypass hon]
    by_cases h : ∃ existing, Duplicable env options id w.db existing
    · obtain ⟨existing, h⟩ := h
      obtain ⟨c, w', hrun⟩ := duplicateTransaction_run hcuid hrefs h
      obtain ⟨existing', h', hinto⟩ := duplicateTransaction_ok hrun
      obtain rfl := Option.some.inj (h'.found.symm.trans h.found)
      exact .inl ⟨existing', ⟨hon, h⟩,
        leaves_bind_of_run (run_pure ..) (leaves_transaction_of_run hrun hinto)⟩
    · push Not at h
      refine .inr ⟨fun existing hgoes => h existing hgoes.2, ?_⟩
      refine leaves_bind_of_run (run_pure ..) (leaves_transaction rfl fun c w' hrun => ?_)
      obtain ⟨existing, hdup, -⟩ := duplicateTransaction_ok hrun
      exact absurd hdup (h existing)
  · refine .inr ⟨fun existing hgoes => hon hgoes.1, ?_⟩
    refine (readOnly_prismaBuild _ _ _).leaves_bind rfl fun rls hrls => ?_
    obtain ⟨_, _, -, -, -, hoff, -⟩ := prismaBuild_scoped (by simpa [Bypasses] using hon) rfl hrls
    exact leaves_transaction rfl fun c w' hrun => absurd hrun (duplicateTransaction_scoped hoff)

namespace Duplicated

variable {env : Env} {options : DuplicateDemoClientDto} {id : String} {existing : Client}
  {db db' : Db}

theorem siteOf_iff (h : Duplicated env options id existing db db') {clientId siteId : String} :
    db'.SiteOf clientId siteId ↔
      db.SiteOf clientId siteId ∨
        (clientId = env.cuid 0 ∧ siteId ∈ (newSites env id db).map (·.id)) := by
  obtain ⟨t, ht, hsame⟩ := h.sites
  have hnew : (∃ s ∈ newSites env id db, s.id = siteId ∧ s.clientId = clientId) ↔
      clientId = env.cuid 0 ∧ siteId ∈ (newSites env id db).map (·.id) := by
    have hclient : ∀ s ∈ newSites env id db, s.clientId = env.cuid 0 := by
      intro s hs
      unfold newSites siteCopies at hs
      obtain ⟨site, -, rfl⟩ := List.mem_map.mp hs
      rfl
    rw [List.mem_map]
    constructor
    · rintro ⟨s, hs, hid, rfl⟩
      exact ⟨hclient s hs, s, hs, hid⟩
    · rintro ⟨rfl, s, hs, hid⟩
      exact ⟨s, hs, hid, hclient s hs⟩
  unfold Db.SiteOf
  rw [hsame.exists_iff, ← hnew]
  simp only [Table.mem_insertAll? ht, or_and_right, exists_or]

/-- A row that is there afterwards was there, or is a copy. -/
theorem row_cases (h : Duplicated env options id existing db db') {b : PersonClientAccess}
    (hb : b ∈ db'.accesses) :
    b ∈ db.accesses ∨ ∃ a ∈ db.accesses, a.clientId = id ∧ b.clientId = env.cuid 0 ∧
      b.siteId = copiedSite env id db a.siteId := by
  rcases (Table.mem_insertAll? h.accesses).mp hb with hb | hb
  · exact .inl hb
  · obtain ⟨m, hm, hb⟩ := List.mem_flatMap.mp hb
    obtain ⟨rows, hrows, -, p, hall⟩ := mem_newMembers hm
    rw [hrows] at hb
    obtain ⟨a, ha, rfl⟩ := List.mem_map.mp hb
    exact .inr ⟨a, (hall a ha).1, (hall a ha).2.2, rfl, rfl⟩

/-- Every row at the client has its copy. -/
theorem row_copied (h : Duplicated env options id existing db db') (hrefs : db.ReferencesResolve)
    {a : PersonClientAccess} (ha : a ∈ db.accesses) (hclient : a.clientId = id) :
    ∃ b ∈ db'.accesses, (∀ c ∈ db.accesses, c.key ≠ b.key) ∧ b.clientId = env.cuid 0 ∧
      b.siteId = copiedSite env id db a.siteId := by
  have href := hrefs.accesses a ha
  unfold Db.accessRefs at href
  simp only [Bool.and_eq_true] at href
  obtain ⟨p, hp, hpid⟩ := Table.find?_isSome.mp href.1.1.1
  have hpid : p.id = a.personId := hpid
  have hsel : ∀ q : Person, q.id = a.personId → (bypassing.seesClient a.clientId &&
      decide (a.personId = q.id) && decide (a.clientId = id)) = true := by
    intro q hq
    rw [Settings.seesClient, bypassing_bypasses, hq, hclient]
    simp
  have hmember : ∃ rows, (p, rows) ∈ sourceMembers bypassing env id db ∧ a ∈ rows := by
    refine ⟨_, List.mem_map.mpr ⟨p, List.mem_filter.mpr ⟨hp, ?_⟩, rfl⟩,
      RowOrder.mem_findMany.mpr ⟨ha, hsel p hpid⟩⟩
    rw [Settings.seesPerson, bypassing_bypasses, Bool.true_or, Bool.true_and, List.any_eq_true]
    exact ⟨a, ha, hsel p hpid⟩
  obtain ⟨rows, hrows, harow⟩ := hmember
  obtain ⟨n, hn⟩ := List.mem_iff_getElem?.mp hrows
  have hcopy := List.mem_map_of_mem
    (f := memberCopy env options (newSiteIds env id db) (env.cuid 0)
      (2 + 2 * (sitesOf id db).length)) (List.mk_mem_zipIdx_iff_getElem?.mpr hn)
  have hbnew : accessCopy env (newSiteIds env id db)
      (env.cuid (2 + 2 * (sitesOf id db).length + n)) (env.cuid 0) a ∈
        (newMembers env options id db).flatMap Prod.snd :=
    List.mem_flatMap.mpr ⟨_, hcopy, List.mem_map_of_mem harow⟩
  refine ⟨_, (Table.mem_insertAll? h.accesses).mpr (.inr hbnew), fun c hc hkey => ?_, rfl, rfl⟩
  have hfree := (Table.insertAll?_isSome.mp (Option.isSome_of_eq_some h.accesses)).2 _
    (List.mem_map_of_mem hbnew)
  exact Table.find?_eq_none.mp hfree c hc hkey

theorem accessRefs_kept (h : Duplicated env options id existing db db') {k : AccessKey}
    (hk : db.accessRefs k = true) : db'.accessRefs k = true := by
  obtain ⟨t, ht, hsame⟩ := h.sites
  unfold Db.accessRefs at hk ⊢
  simp only [Bool.and_eq_true] at hk ⊢
  refine ⟨⟨⟨?_, ?_⟩, ?_⟩, ?_⟩
  · exact Table.find?_isSome_of_insertAll? h.persons hk.1.1.1
  · exact Table.find?_isSome_of_insert? h.clients hk.1.1.2
  · exact hsame.find?_isSome (Table.find?_isSome_of_insertAll? ht hk.1.2)
  · rw [h.roles]
    exact hk.2

theorem referencesResolve (h : Duplicated env options id existing db db')
    (hrefs : db.ReferencesResolve) : db'.ReferencesResolve := by
  constructor
  · intro b hb
    rcases (Table.mem_insertAll? h.accesses).mp hb with hb | hb
    · exact h.accessRefs_kept (hrefs.accesses b hb)
    · exact h.refs b hb
  · intro s hs
    rcases h.siteOf_iff.mp ⟨s, hs, rfl, rfl⟩ with ⟨s₀, hs₀, -, hclient⟩ | ⟨hclient, -⟩
    · rw [← hclient]
      exact Table.find?_isSome_of_insert? h.clients (hrefs.sites s₀ hs₀)
    · rw [hclient]
      exact Option.isSome_of_eq_some (Table.find?_inserted h.clients)

end Duplicated

end ClientsService

end ShieldApi
