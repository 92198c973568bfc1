import ShieldApi.Auth.SiteVisibility
import ShieldApi.Clients.DemoClients
import ShieldApi.Lib.Runs

/-!
# Sites and their parents

`create` and `update` of `clients/sites/sites.service.ts`. Both hand what they were sent to a
single query of the request client, so what the query does is what there is to model: it looks the
connected rows up, writes the site, and then writes the sites that are to be under it. Of a site's
parent the two say three things: which one it is given, that it is to have none, and which sites are
to have this one.

**Neither looks where the site already is**: it may be given a parent that is below it, or itself.
A forest stays one exactly as long as nobody asks for that (`sitesStayForest_iff`), and the walk
that tells a grant its sites ends on nothing else.

Left out: the address, the phone number and the legacy ids of a site, and the cached status of it.
-/

set_option autoImplicit false

namespace ShieldApi

open Effect Forest

/-! ## 1. The calls -/

/-- `z.array(…).min(1)`. -/
abbrev SubsiteIds : Type := { ids : List String // ids ≠ [] }

structure CreateSiteDto where
  createdOn : Option Nat := none
  externalId : Option String := none
  name : String
  /-- `client.connect.id`, and so on. -/
  client : String
  parentSite : Option String := none
  primary : Option Bool := none
  subsites : Option SubsiteIds := none

/-- Without keys it says as much as if it was not there. -/
structure ParentSiteDto where
  connect : Option String := none
  disconnect : Option Bool := none

structure UpdateSiteDto where
  createdOn : Option Nat := none
  externalId : Option String := none
  name : Option String := none
  client : Option String := none
  parentSite : ParentSiteDto := {}
  primary : Option Bool := none
  active : Option Bool := none
  /-- `subsites.set`. -/
  subsites : Option SubsiteIds := none

abbrev SiteTable : Type := Table Site String Site.id

namespace Site

/-- The columns of the site itself. `connect` of the parent is one of them. -/
def edit (dto : UpdateSiteDto) (s : Site) : Site :=
  { s with
    createdOn := dto.createdOn.getD s.createdOn
    externalId := dto.externalId.getD s.externalId
    name := dto.name.getD s.name
    clientId := dto.client.getD s.clientId
    parentSiteId := dto.parentSite.connect.or s.parentSiteId
    primary := dto.primary.getD s.primary
    active := dto.active.getD s.active }

theorem id_edit (dto : UpdateSiteDto) (s : Site) : (s.edit dto).id = s.id := rfl

def clearParent (s : Site) : Site := { s with parentSiteId := none }

theorem id_clearParent (s : Site) : s.clearParent.id = s.id := rfl

theorem parentSiteId_clearParent (s : Site) : s.clearParent.parentSiteId = none := rfl

theorem parentSiteId_setParent (p : String) (s : Site) :
    (s.setParent p).parentSiteId = some p := rfl

/-- Who sees a site does not depend on its parent. -/
theorem seesSite_clearParent (rls : Settings) (s : Site) :
    rls.seesSite s.clearParent = rls.seesSite s := rfl

end Site

namespace SitesService

/-- `connect: { id }` of a client finds it. -/
def connectClient (rls : Settings) (id : Option String) (w : World) : Except ApiError Unit :=
  if id.all fun id => rls.seesClient id && (w.db.clients.find? id).isSome then .ok ()
  else .error .recordNotFound

/-- The site is there and in sight. -/
def sees (rls : Settings) (t : SiteTable) (id : String) : Bool := (t.find? id).any rls.seesSite

def connectSite (rls : Settings) (id : Option String) (w : World) : Except ApiError Unit :=
  if id.all (sees rls w.db.sites) then .ok () else .error .recordNotFound

/-- What the database asks of a site that is written: the policy, and the index of external ids. -/
def checkSite (rls : Settings) (site : Site) (w : World) : Except ApiError Unit :=
  if !rls.seesSite site then .error (.rowPolicy "Site")
  else if w.db.sites.rows.any fun s => s.id ≠ site.id && s.externalId = site.externalId then
    .error .uniqueConstraint
  else .ok ()

def newSite (env : Env) (dto : CreateSiteDto) : Site :=
  { id := env.cuid 0
    externalId := dto.externalId.getD (env.cuid 1)
    createdOn := dto.createdOn.getD env.now
    primary := dto.primary.getD false
    parentSiteId := dto.parentSite
    clientId := dto.client
    name := dto.name }

@[simp] theorem id_newSite (env : Env) (dto : CreateSiteDto) :
    (newSite env dto).id = env.cuid 0 := rfl

/-- The sites of the list come under the site, those of them that are in sight. -/
def attach (rls : Settings) (siteId : String) (ids : List String) (t : SiteTable) : SiteTable :=
  t.updateMany (fun s => ids.contains s.id && rls.seesSite s) (.setParent siteId)
    (Site.id_setParent siteId)

/-- `set`: first all others go that are under it and in sight. -/
def setSubsites (rls : Settings) (siteId : String) (ids : List String) (t : SiteTable) :
    SiteTable :=
  attach rls siteId ids (t.updateMany
    (fun s => s.parentSiteId = some siteId && rls.seesSite s && !ids.contains s.id) .clearParent
    Site.id_clearParent)

/-- `connect` of several: all have to be in sight. -/
def connectSubsites (rls : Settings) (siteId : String) (subsites : Option SubsiteIds)
    (t : SiteTable) : Except ApiError SiteTable :=
  match subsites with
  | none => .ok t
  | some ids =>
    if ids.val.all (sees rls t) then .ok (attach rls siteId ids.val t)
    else .error (.prisma "P2018")

def create (cls : Cls) (env : Env) (dto : CreateSiteDto) : Api Site := do
  let rls ← prismaBuild cls env {}
  -- one query, so one transaction: the parent is looked up before there is a site
  attempt fun w => do
    connectClient rls (some dto.client) w
    connectSite rls dto.parentSite w
    let site := newSite env dto
    checkSite rls site w
    match w.db.sites.insert? site with
    | none => .error .uniqueConstraint
    | some t =>
      let sites ← connectSubsites rls site.id dto.subsites t
      return ((sites.find? site.id).getD site, w.withSites sites)

def findSite (rls : Settings) (id : String) (w : World) : Except ApiError Site :=
  match (w.db.sites.find? id).filter rls.seesSite with
  | none => .error .recordNotFound
  | some site => .ok site

/-- The columns first, and then `disconnect`. -/
def editSite (id : String) (dto : UpdateSiteDto) (t : SiteTable) : SiteTable :=
  (t.updateMany (·.id = id) (.edit dto) (Site.id_edit dto)).updateMany
    (fun s => s.id = id && dto.parentSite.disconnect = some true) .clearParent Site.id_clearParent

/-- All that an update writes. -/
def updatedSites (rls : Settings) (id : String) (dto : UpdateSiteDto) (t : SiteTable) : SiteTable :=
  match dto.subsites with
  | none => editSite id dto t
  -- the subsites that go are those of the edited site, which may be one itself
  | some ids => setSubsites rls id ids.val (editSite id dto t)

def update (cls : Cls) (env : Env) (id : String) (dto : UpdateSiteDto) : Api Site := do
  let rls ← prismaBuild cls env {}
  attempt fun w => Except.mapError as404OrThrow do
    let site ← findSite rls id w
    connectClient rls dto.client w
    connectSite rls dto.parentSite.connect w
    checkSite rls (site.edit dto) w
    let sites := updatedSites rls id dto w.db.sites
    return ((sites.find? id).getD site, w.withSites sites)

/-! ## 2. When they go through -/

/-- All that is looked up is there, and the new site may be written. -/
structure CreateGoes (rls : Settings) (env : Env) (dto : CreateSiteDto) (w : World) : Prop where
  client : connectClient rls (some dto.client) w = .ok ()
  parentSite : connectSite rls dto.parentSite w = .ok ()
  site : checkSite rls (newSite env dto) w = .ok ()
  id : w.db.sites.find? (env.cuid 0) = none
  subsites : ∀ ids, dto.subsites = some ids → ∀ id ∈ ids.val,
    id = env.cuid 0 ∨ sees rls w.db.sites id = true

structure UpdateGoes (rls : Settings) (id : String) (dto : UpdateSiteDto) (site : Site)
    (w : World) : Prop where
  found : findSite rls id w = .ok site
  client : connectClient rls dto.client w = .ok ()
  parentSite : connectSite rls dto.parentSite.connect w = .ok ()
  site : checkSite rls (site.edit dto) w = .ok ()

theorem mapError_eq_ok {ε ε' α : Type} {f : ε → ε'} {x : Except ε α} {a : α} :
    x.mapError f = .ok a ↔ x = .ok a := by
  cases x with
  | error e => exact iff_of_false (fun h => (nomatch h)) (fun h => (nomatch h))
  | ok b => exact ⟨fun h => congrArg _ (Except.ok.inj h), fun h => congrArg _ (Except.ok.inj h)⟩

theorem findSite_eq_ok {rls : Settings} {id : String} {w : World} {site : Site} :
    findSite rls id w = .ok site ↔ w.db.sites.find? id = some site ∧ rls.seesSite site = true := by
  rw [← Option.filter_eq_some_iff]
  unfold findSite
  cases (w.db.sites.find? id).filter rls.seesSite with
  | none => exact iff_of_false (fun h => (nomatch h)) (fun h => (nomatch h))
  | some s => exact ⟨fun h => congrArg _ (Except.ok.inj h), fun h => congrArg _ (Option.some.inj h)⟩

theorem checkSite_sees {rls : Settings} {site : Site} {w : World}
    (h : checkSite rls site w = .ok ()) : rls.seesSite site = true := by
  unfold checkSite at h
  cases hsees : rls.seesSite site with
  | true => rfl
  | false =>
    rw [hsees] at h
    exact (nomatch h)

/-- The sites after a creation that goes through. -/
def createdSites (rls : Settings) (env : Env) (dto : CreateSiteDto) (t : SiteTable) : SiteTable :=
  match dto.subsites with
  | none => t
  | some ids => attach rls (env.cuid 0) ids.val t

theorem connectSubsites_eq_ok {rls : Settings} {env : Env} {dto : CreateSiteDto}
    {t sites : SiteTable} : connectSubsites rls (env.cuid 0) dto.subsites t = .ok sites ↔
      (∀ ids, dto.subsites = some ids → ∀ id ∈ ids.val, sees rls t id = true) ∧
        createdSites rls env dto t = sites := by
  unfold connectSubsites createdSites
  cases dto.subsites with
  | none => simp
  | some ids =>
    simp only [Option.some.injEq, forall_eq']
    by_cases hall : ids.val.all (sees rls t) = true
    · rw [if_pos hall, and_iff_right (List.all_eq_true.mp hall)]
      exact ⟨Except.ok.inj, congrArg _⟩
    · rw [if_neg hall]
      exact iff_of_false (fun h => (nomatch h)) fun h => hall (List.all_eq_true.mpr h.1)

/-- What is in sight with the new site there. -/
theorem sees_insert? {rls : Settings} {t t' : SiteTable} {site : Site}
    (h : t.insert? site = some t') (hsite : rls.seesSite site = true) (k : String) :
    sees rls t' k = true ↔ k = site.id ∨ sees rls t k = true := by
  unfold sees
  rw [Table.find?_insert? h]
  by_cases hk : k = site.id
  · rw [if_pos hk]
    exact iff_of_true hsite (.inl hk)
  · rw [if_neg hk]
    exact ⟨.inr, fun h => h.resolve_left hk⟩

section Goes

variable {cls : Cls} {env : Env} {rls : Settings} {w w' : World} {result : Site}

theorem create_eq_ok {dto : CreateSiteDto} :
    (create cls env dto).run w = (.ok result, w') ↔ ∃ rls t,
      (buildPrimaryExtension cls env.allowedSiteIdsForSite {}).settings = .ok rls ∧
      CreateGoes rls env dto w ∧ w.db.sites.insert? (newSite env dto) = some t ∧
      w' = w.withSites (createdSites rls env dto t) ∧
      result = ((createdSites rls env dto t).find? (env.cuid 0)).getD (newSite env dto) := by
  refine prismaBuild_attempt_eq_ok.trans (exists_congr fun rls => ?_)
  rw [exists_and_left]
  apply and_congr_right
  intro _
  constructor
  · intro hrun
    simp only [bind_except_eq_ok] at hrun
    obtain ⟨_, hclient, _, hparent, _, hsite, hrun⟩ := hrun
    cases ht : w.db.sites.insert? (newSite env dto) with
    | none => simp [ht] at hrun
    | some t =>
      simp only [ht, bind_except_eq_ok] at hrun
      obtain ⟨sites, hsubsites, hrun⟩ := hrun
      have hfree : w.db.sites.find? (env.cuid 0) = none :=
        Table.find?_eq_none.mpr (Table.insert?_eq_some.mp ht).2
      obtain ⟨hseen, rfl⟩ := connectSubsites_eq_ok.1 hsubsites
      obtain ⟨rfl, rfl⟩ := Prod.mk.inj (Except.ok.inj hrun)
      refine ⟨t, ⟨hclient, hparent, hsite, hfree, fun ids hids id hid => ?_⟩, rfl, rfl, rfl⟩
      exact (sees_insert? ht (checkSite_sees hsite) id).mp (hseen ids hids id hid)
  · intro h
    obtain ⟨t, hgoes, ht, rfl, rfl⟩ := h
    have hsubsites : connectSubsites rls (env.cuid 0) dto.subsites t =
        .ok (createdSites rls env dto t) := by
      refine connectSubsites_eq_ok.2 ⟨fun ids hids id hid => ?_, rfl⟩
      exact (sees_insert? ht (checkSite_sees hgoes.site) id).mpr (hgoes.subsites ids hids id hid)
    rw [hgoes.client, hgoes.parentSite]
    simp only [bind, Except.bind, hgoes.site, ht]
    rw [id_newSite, hsubsites]
    rfl

theorem update_eq_ok {id : String} {dto : UpdateSiteDto} :
    (update cls env id dto).run w = (.ok result, w') ↔ ∃ rls site,
      (buildPrimaryExtension cls env.allowedSiteIdsForSite {}).settings = .ok rls ∧
      UpdateGoes rls id dto site w ∧ w' = w.withSites (updatedSites rls id dto w.db.sites) ∧
      result = ((updatedSites rls id dto w.db.sites).find? id).getD site := by
  refine prismaBuild_attempt_eq_ok.trans (exists_congr fun rls => ?_)
  rw [exists_and_left]
  apply and_congr_right
  intro _
  rw [mapError_eq_ok]
  constructor
  · intro hrun
    simp only [bind_except_eq_ok] at hrun
    obtain ⟨site, hfound, _, hclient, _, hparent, _, hsite, hrun⟩ := hrun
    obtain ⟨rfl, rfl⟩ := Prod.mk.inj (Except.ok.inj hrun)
    exact ⟨site, ⟨hfound, hclient, hparent, hsite⟩, rfl, rfl⟩
  · intro h
    obtain ⟨site, hgoes, rfl, rfl⟩ := h
    rw [hgoes.found, hgoes.client, hgoes.parentSite]
    simp only [bind, Except.bind, hgoes.site]
    rfl

theorem create_of_goes {dto : CreateSiteDto}
    (hrls : (buildPrimaryExtension cls env.allowedSiteIdsForSite {}).settings = .ok rls)
    (h : CreateGoes rls env dto w) : ∃ t, w.db.sites.insert? (newSite env dto) = some t ∧
      (create cls env dto).after w = w.withSites (createdSites rls env dto t) := by
  have hfree : (w.db.sites.insert? (newSite env dto)).isSome = true :=
    Table.insert?_isSome.mpr h.id
  obtain ⟨t, ht⟩ := Option.isSome_iff_exists.mp hfree
  have hrun := create_eq_ok.2 ⟨rls, t, hrls, h, ht, rfl, rfl⟩
  exact ⟨t, ht, after_of_run hrun⟩

theorem create_of_not_goes {dto : CreateSiteDto}
    (h : ∀ rls, (buildPrimaryExtension cls env.allowedSiteIdsForSite {}).settings = .ok rls →
      ¬ CreateGoes rls env dto w) : (create cls env dto).after w = w := by
  rcases (atomic_prismaBuild_attempt cls env {} _).cases w with hstays | ⟨result, hrun⟩
  · exact hstays
  · obtain ⟨rls, t, hrls, hgoes, -⟩ := create_eq_ok.1 hrun
    exact absurd hgoes (h rls hrls)

theorem update_of_goes {id : String} {dto : UpdateSiteDto} {site : Site}
    (hrls : (buildPrimaryExtension cls env.allowedSiteIdsForSite {}).settings = .ok rls)
    (h : UpdateGoes rls id dto site w) :
    (update cls env id dto).after w = w.withSites (updatedSites rls id dto w.db.sites) :=
  after_of_run (update_eq_ok.2 ⟨rls, site, hrls, h, rfl, rfl⟩)

theorem update_of_not_goes {id : String} {dto : UpdateSiteDto}
    (h : ∀ rls site, (buildPrimaryExtension cls env.allowedSiteIdsForSite {}).settings = .ok rls →
      ¬ UpdateGoes rls id dto site w) : (update cls env id dto).after w = w := by
  rcases (atomic_prismaBuild_attempt cls env {} _).cases w with hstays | ⟨result, hrun⟩
  · exact hstays
  · obtain ⟨rls, site, hrls, hgoes, -⟩ := update_eq_ok.1 hrun
    exact absurd hgoes (h rls site hrls)

end Goes

/-! ## 3. What they do to the parents -/

/-- `Db.parentOf`, of a table. -/
def parentIn (t : SiteTable) (id : String) : Option String := (t.find? id).bind (·.parentSiteId)

section Links

variable {rls : Settings} {t : SiteTable} {p : Site → Bool} {f : Site → Site}
  {hf : ∀ s, (f s).id = s.id} {siteId k : String} {ids : List String}

theorem parentIn_updateMany {q : Option String} (hset : ∀ s, (f s).parentSiteId = q) :
    parentIn (t.updateMany p f hf) k = if (t.find? k).any p = true then q else parentIn t k := by
  unfold parentIn
  rw [Table.find?_updateMany]
  cases t.find? k with
  | none => rfl
  | some s =>
    by_cases hp : p s = true
    · simp [hp, hset]
    · simp [hp]

theorem sees_updateMany (hsees : ∀ s, rls.seesSite (f s) = rls.seesSite s) :
    sees rls (t.updateMany p f hf) k = sees rls t k := by
  unfold sees
  rw [Table.find?_updateMany]
  cases t.find? k with
  | none => rfl
  | some s =>
    by_cases hp : p s = true
    · simp [hp, hsees]
    · simp [hp]

theorem parentIn_attach : parentIn (attach rls siteId ids t) k =
    if (ids.contains k && sees rls t k) = true then some siteId else parentIn t k := by
  have hselected : (t.find? k).any (fun s => ids.contains s.id && rls.seesSite s) =
      (ids.contains k && sees rls t k) := by
    unfold sees
    cases hfind : t.find? k with
    | none => simp
    | some s =>
      obtain ⟨-, rfl⟩ := Table.find?_eq_some.mp hfind
      rfl
  unfold attach
  rw [parentIn_updateMany (Site.parentSiteId_setParent siteId), hselected]

/-- `set` keeps the parent of whoever is neither listed nor under the site, and of whoever is out of
    sight. -/
theorem parentIn_setSubsites : parentIn (setSubsites rls siteId ids t) k =
    if (ids.contains k && sees rls t k) = true then some siteId
    else if (sees rls t k && parentIn t k = some siteId) = true then none
    else parentIn t k := by
  unfold setSubsites
  rw [parentIn_attach, sees_updateMany (Site.seesSite_clearParent rls)]
  by_cases hlisted : (ids.contains k && sees rls t k) = true
  · rw [if_pos hlisted, if_pos hlisted]
  · rw [if_neg hlisted, if_neg hlisted, parentIn_updateMany Site.parentSiteId_clearParent]
    refine if_congr ?_ rfl rfl
    -- whoever is in sight here is not listed
    unfold sees parentIn at *
    cases hfind : t.find? k with
    | none => simp
    | some s =>
      obtain ⟨-, rfl⟩ := Table.find?_eq_some.mp hfind
      rw [hfind] at hlisted
      simp only [Option.any_some, Option.bind_some] at hlisted ⊢
      cases hsees : rls.seesSite s with
      | false => simp
      | true =>
        have hother : s.id ∉ ids := by simpa [hsees] using hlisted
        simp [hother]

end Links

/-- What a creation is to the forest of sites. -/
def createLinks (rls : Settings) (env : Env) (dto : CreateSiteDto) (t : SiteTable) :
    Relinking String where
  key := env.cuid 0
  parent := some dto.parentSite
  attached k := dto.subsites.any fun ids =>
    ids.val.contains k && (k = env.cuid 0 || sees rls t k)

/-- The parent an update gives its site, or `none` where it says nothing of it. -/
def ownParent (dto : UpdateSiteDto) : Option (Option String) :=
  if dto.parentSite.disconnect = some true then some none else dto.parentSite.connect.map some

/-- A site that is connected to itself is one of its own subsites, from which `set` takes it. -/
def newParent (id : String) (dto : UpdateSiteDto) : Option (Option String) :=
  if dto.subsites.isSome ∧ ownParent dto = some (some id) then some none else ownParent dto

def updateLinks (rls : Settings) (id : String) (dto : UpdateSiteDto) (t : SiteTable) :
    Relinking String where
  key := id
  parent := newParent id dto
  detached k := dto.subsites.isSome && sees rls t k && parentIn t k = some id
  attached k := dto.subsites.any fun ids => ids.val.contains k && sees rls t k

section Parents

variable {cls : Cls} {env : Env} {rls : Settings} {w : World}

theorem parentIn_createdSites {dto : CreateSiteDto} {t t' : SiteTable}
    (ht : t.insert? (newSite env dto) = some t') (hsite : rls.seesSite (newSite env dto) = true) :
    parentIn (createdSites rls env dto t') = (createLinks rls env dto t).after (parentIn t) := by
  funext k
  have hinserted : parentIn t' k = if k = env.cuid 0 then dto.parentSite else parentIn t k := by
    unfold parentIn
    rw [Table.find?_insert? ht, id_newSite]
    by_cases hk : k = env.cuid 0
    · rw [if_pos hk, if_pos hk]
      rfl
    · rw [if_neg hk, if_neg hk]
  have hsees : sees rls t' k = (k = env.cuid 0 || sees rls t k) := by
    rw [Bool.eq_iff_iff, sees_insert? ht hsite, Bool.or_eq_true, decide_eq_true_eq]
    rfl
  rw [Relinking.after_apply]
  unfold createdSites createLinks Relinking.Moves
  cases dto.subsites with
  | none => simpa using hinserted
  | some ids => simpa [parentIn_attach, hsees] using by rw [hinserted]

theorem parentOf_create {dto : CreateSiteDto}
    (hrls : (buildPrimaryExtension cls env.allowedSiteIdsForSite {}).settings = .ok rls)
    (h : CreateGoes rls env dto w) : ((create cls env dto).after w).db.parentOf =
      (createLinks rls env dto w.db.sites).after w.db.parentOf := by
  obtain ⟨t, ht, hafter⟩ := create_of_goes hrls h
  rw [hafter]
  exact parentIn_createdSites ht (checkSite_sees h.site)

theorem parentIn_editSite {id k : String} {dto : UpdateSiteDto} {t : SiteTable} {site : Site}
    (hfound : t.find? id = some site) : parentIn (editSite id dto t) k =
      if k = id then (ownParent dto).getD (parentIn t k) else parentIn t k := by
  unfold editSite parentIn ownParent
  rw [Table.find?_updateMany, Table.find?_updateMany]
  by_cases hk : k = id
  · rw [if_pos hk, hk, hfound]
    obtain ⟨-, hid⟩ := Table.find?_eq_some.mp hfound
    by_cases hdisconnect : dto.parentSite.disconnect = some true
    · simp [hid, hdisconnect, Site.edit, Site.clearParent]
    · cases hconnect : dto.parentSite.connect with
      | none => simp [hid, hdisconnect, hconnect, Site.edit]
      | some p => simp [hid, hdisconnect, hconnect, Site.edit]
  · rw [if_neg hk]
    cases hfind : t.find? k with
    | none => rfl
    | some s =>
      obtain ⟨-, rfl⟩ := Table.find?_eq_some.mp hfind
      simp [hk]

theorem sees_editSite {id k : String} {dto : UpdateSiteDto} {t : SiteTable} {site : Site}
    (hfound : t.find? id = some site) (hsite : rls.seesSite site = true)
    (hedit : rls.seesSite (site.edit dto) = true) :
    sees rls (editSite id dto t) k = sees rls t k := by
  unfold editSite
  rw [sees_updateMany (Site.seesSite_clearParent rls)]
  unfold sees
  rw [Table.find?_updateMany]
  cases hfind : t.find? k with
  | none => rfl
  | some s =>
    obtain ⟨-, rfl⟩ := Table.find?_eq_some.mp hfind
    by_cases hk : s.id = id
    · obtain rfl : s = site := Option.some.inj (hfind.symm.trans (hk ▸ hfound))
      simp [hk, hsite, hedit]
    · simp [hk]

theorem parentIn_updatedSites {id : String} {dto : UpdateSiteDto} {t : SiteTable} {site : Site}
    (hfound : t.find? id = some site) (hsite : rls.seesSite site = true)
    (hedit : rls.seesSite (site.edit dto) = true) :
    parentIn (updatedSites rls id dto t) = (updateLinks rls id dto t).after (parentIn t) := by
  funext k
  rw [Relinking.after_apply]
  unfold updatedSites updateLinks newParent Relinking.Moves
  cases dto.subsites with
  | none =>
    cases hown : ownParent dto with
    | none => simp [parentIn_editSite hfound, hown]
    | some q => simp [parentIn_editSite hfound, hown]
  | some ids =>
    rw [parentIn_setSubsites, sees_editSite hfound hsite hedit, parentIn_editSite hfound]
    by_cases hk : k = id
    · -- the site itself may have got the parent it has just now
      have hsees : sees rls t k = true := Option.any_eq_true _ _ |>.mpr ⟨site, hk ▸ hfound, hsite⟩
      cases hown : ownParent dto with
      | none => simp [hk]
      | some q =>
        by_cases hself : q = some id
        · simp [hk, hself, hk ▸ hsees]
        · simp [hk, hself]
    · simp [hk]

theorem parentOf_update {id : String} {dto : UpdateSiteDto} {site : Site}
    (hrls : (buildPrimaryExtension cls env.allowedSiteIdsForSite {}).settings = .ok rls)
    (h : UpdateGoes rls id dto site w) : ((update cls env id dto).after w).db.parentOf =
      (updateLinks rls id dto w.db.sites).after w.db.parentOf := by
  rw [update_of_goes hrls h]
  obtain ⟨hfound, hsite⟩ := findSite_eq_ok.mp h.found
  exact parentIn_updatedSites hfound hsite (checkSite_sees h.site)

end Parents

end SitesService

open SitesService

/-! ## 4. Any run of them -/

/-- A call is a single query, so calls come one after the other. -/
inductive SiteCall
  | create (cls : Cls) (env : Env) (dto : CreateSiteDto)
  | update (cls : Cls) (env : Env) (id : String) (dto : UpdateSiteDto)

namespace SiteCall

def run : SiteCall → Api Site
  | create cls env dto => SitesService.create cls env dto
  | update cls env id dto => SitesService.update cls env id dto

def step (w : World) (call : SiteCall) : World := call.run.after w

/-- The call goes through, and this is what it does to the forest. -/
def Relinks (w : World) (c : Relinking String) : SiteCall → Prop
  | create cls env dto => ∃ rls,
      (buildPrimaryExtension cls env.allowedSiteIdsForSite {}).settings = .ok rls ∧
      CreateGoes rls env dto w ∧ c = createLinks rls env dto w.db.sites
  | update cls env id dto => ∃ rls site,
      (buildPrimaryExtension cls env.allowedSiteIdsForSite {}).settings = .ok rls ∧
      UpdateGoes rls id dto site w ∧ c = updateLinks rls id dto w.db.sites

theorem parentOf_step {w : World} {c : Relinking String} {call : SiteCall}
    (h : call.Relinks w c) : (step w call).db.parentOf = c.after w.db.parentOf := by
  cases call with
  | create cls env dto =>
    obtain ⟨rls, hrls, hgoes, rfl⟩ := h
    exact parentOf_create hrls hgoes
  | update cls env id dto =>
    obtain ⟨rls, site, hrls, hgoes, rfl⟩ := h
    exact parentOf_update hrls hgoes

theorem step_of_not_relinks {w : World} {call : SiteCall} (h : ∀ c, ¬ call.Relinks w c) :
    step w call = w := by
  cases call with
  | create cls env dto =>
    apply create_of_not_goes
    intro rls hrls hgoes
    exact h (createLinks rls env dto w.db.sites) ⟨rls, hrls, hgoes, rfl⟩
  | update cls env id dto =>
    apply update_of_not_goes
    intro rls site hrls hgoes
    exact h (updateLinks rls id dto w.db.sites) ⟨rls, site, hrls, hgoes, rfl⟩

/-- If the call goes through, no site comes under itself or under one below it. -/
def KeepsForest (w : World) (call : SiteCall) : Prop :=
  ∀ c, call.Relinks w c → c.StaysForest w.db.parentOf

/-- **One call.** -/
theorem acyclic_step_iff {w : World} (hw : Acyclic (ChildOf w.db.parentOf)) (call : SiteCall) :
    Acyclic (ChildOf (step w call).db.parentOf) ↔ call.KeepsForest w := by
  have hiff : ∀ c, call.Relinks w c →
      (Acyclic (ChildOf (step w call).db.parentOf) ↔ c.StaysForest w.db.parentOf) := by
    intro c hc
    rw [parentOf_step hc]
    exact Relinking.acyclic_after_iff hw
  by_cases hgoes : ∃ c, call.Relinks w c
  · obtain ⟨c, hc⟩ := hgoes
    constructor
    · intro hafter c' hc'
      exact (hiff c' hc').mp hafter
    · intro hkeeps
      exact (hiff c hc).mpr (hkeeps c hc)
  · rw [not_exists] at hgoes
    rw [step_of_not_relinks hgoes]
    exact iff_of_true hw fun c hc => absurd hc (hgoes c)

/-- A new site without subsites comes under an old one, so under nothing that is below it. -/
theorem create_keepsForest {cls : Cls} {env : Env} {dto : CreateSiteDto} {w : World}
    (hsubsites : dto.subsites = none)
    (hid : ∀ s ∈ w.db.sites, s.parentSiteId ≠ some (env.cuid 0)) :
    (create cls env dto).KeepsForest w := by
  intro c hc
  obtain ⟨rls, -, hgoes, rfl⟩ := hc
  constructor
  case key =>
    intro p hp hpath
    have hp : dto.parentSite = some p := Option.some.inj hp
    -- the parent was there before the site was, and nothing hangs under the site yet
    rcases Relation.ReflTransGen.cases_head hpath with hself | ⟨c, hchild, -⟩
    · have hparent := hgoes.parentSite
      obtain rfl : env.cuid 0 = p := hself
      unfold connectSite sees at hparent
      rw [hp, Option.all_some, hgoes.id] at hparent
      exact (nomatch hparent)
    · obtain ⟨s, hs, -, hparent⟩ := childOf_parentOf.mp (childOf_of_reparent_none hchild)
      exact hid s hs hparent
  case attached =>
    intro k hk
    unfold createLinks at hk
    rw [hsubsites] at hk
    exact (nomatch hk)

end SiteCall

/-- No site is below itself, and the walk over the sites of whichever client ends. -/
structure SitesForest (w : World) : Prop where
  acyclic : Acyclic (ChildOf w.db.parentOf)
  walkEnds : ∀ order clientId, ∃ fuel hierarchy,
    buildSiteHierarchy fuel (clientSites order w.db clientId) = some hierarchy

theorem sitesForest_of_acyclic {w : World} (h : Acyclic (ChildOf w.db.parentOf)) :
    SitesForest w := by
  refine ⟨h, fun order clientId => ⟨_, buildSiteHierarchy_of_acyclic ?_⟩⟩
  exact h.mono fun _ _ => childOf_of_isChildIn

/-- **When the sites stay a forest:** exactly if no call that goes through asks for a loop. -/
theorem sitesStayForest_iff (w : World) (hw : Acyclic (ChildOf w.db.parentOf))
    (calls : List SiteCall) : (∀ u, Reached SiteCall.step w calls u → SitesForest u) ↔
      ∀ u call, Fired SiteCall.step w calls u call → call.KeepsForest u := by
  refine reached_iff_fired (I := fun _ => True) trivial (sitesForest_of_acyclic hw)
    (fun _ _ _ _ => trivial) fun u call _ _ hu => ?_
  rw [← SiteCall.acyclic_step_iff hu.acyclic]
  exact ⟨SitesForest.acyclic, sitesForest_of_acyclic⟩

/-! ## 5. A site under itself -/

/-- The same client before anything is built. -/
def plot : World where
  db := { fiveStoreys with sites := ∅ }

/-- Tess manages all sites of the client. -/
def builder : Cls where
  person := some tess
  accessGrant := some { hqGroup with scope := .client }

/-- A call draws the id it needs first. -/
def drawing (id : String) : Env where
  cuid n := if n = 0 then id else "external"

def buildHq : SiteCall := .create builder (drawing "hq") { name := "HQ", client := "tower" }

def buildWing : SiteCall :=
  .create builder (drawing "wing")
    { name := "Wing", client := "tower", externalId := some "x2", parentSite := some "hq" }

/-- The parent of the site is to be the site. -/
def hqUnderItself : SiteCall :=
  .update builder {} "hq" { parentSite := { connect := some "hq" } }

theorem plot_acyclic : Acyclic (ChildOf plot.db.parentOf) :=
  acyclic_of_rank (fun _ => 0) fun _ _ h => (nomatch h)

/-- The update goes through, and from then on no walk over the sites ends. -/
theorem hqUnderItself_loops : plot.db.sites = ∅ ∧
    ∃ u, Reached SiteCall.step plot [buildHq, hqUnderItself] u ∧
      ¬ Acyclic (ChildOf u.db.parentOf) ∧
      ∀ fuel, buildSiteHierarchy fuel (clientSites (.insertion _) u.db "tower") = none := by
  have hrows : (([buildHq, hqUnderItself].foldl SiteCall.step plot).db.parentOf "hq" = some "hq") ∧
      { id := "hq", parentSiteId := some "hq" } ∈ clientSites (.insertion _)
        ([buildHq, hqUnderItself].foldl SiteCall.step plot).db "tower" := by
    decide
  refine ⟨rfl, _, reached_end plot [buildHq, hqUnderItself], ?_, ?_⟩
  · intro hacyclic
    exact hacyclic "hq" (.single hrows.1)
  · intro fuel
    exact buildSiteHierarchy_of_cycle hrows.2 (.single ⟨_, hrows.2, rfl, rfl⟩) fuel

/-- Two storeys that are built one above the other are a forest. -/
theorem twoStoreys_forest :
    ([buildHq, buildWing].foldl SiteCall.step plot).db.parentOf "wing" = some "hq" ∧
      ∀ u, Reached SiteCall.step plot [buildHq, buildWing] u → SitesForest u := by
  refine ⟨by decide, (sitesStayForest_iff plot plot_acyclic _).mpr fun u call hf => ?_⟩
  rcases hf with ⟨rfl, rfl⟩ | ⟨rfl, rfl⟩ | h
  · exact SiteCall.create_keepsForest rfl (by decide)
  · exact SiteCall.create_keepsForest rfl (by decide)
  · exact h.elim

end ShieldApi
