import ShieldApi.Assets.Tags
import ShieldApi.Clients.SiteCaches

/-!
# Who may see a registered tag

`resolveAccessForClient` of `assets/tags/tags.service.ts` goes through the access rows a user has
with the client of a tag and returns the first that reaches the tag's site. What it means by reaching
is the site scope of the notifications over again, with the lookup of subsites the Prisma service
keeps for an hour.

**It lets in whom one of the rows lets see the site, three levels down**
(`resolveAccessForClient_iff`), as long as no list of subsites that is kept has gone stale.
-/

set_option autoImplicit false

namespace ShieldApi

open Effect Forest TagsService

/-! ## 1. The loop -/

namespace SiteCaches

def firstReaching (order : RowOrder Site) (tagSiteId : String) :
    List ClientAccessRecord → CachedApi (Option TagAccessContext)
  | [] => pure none
  | record :: accessRecords =>
    if isScopeAtLeast record.role.scope .client then pure (some record.context)
    else if record.site.id = tagSiteId then pure (some record.context)
    else if isScopeAtLeast record.role.scope .siteGroup then do
      let allowedSites ← getAllowedSiteIdsForSite order record.site.id
      if allowedSites.contains tagSiteId then pure (some record.context)
      else firstReaching order tagSiteId accessRecords
    else firstReaching order tagSiteId accessRecords

def resolveAccessForClient (cls : Cls) (env : Env) (tagClientId : String)
    (tagSiteId : Option String) : CachedApi (Option TagAccessContext) :=
  match cls.user with
  | none => pure none
  | some user => do
    let accessRecords ← query fun s => clientAccessRecords env user tagClientId s.world.db
    match accessRecords with
    | [] => pure none
    | firstAccessRecord :: _ =>
      match truthy tagSiteId with
      | none => pure (some firstAccessRecord.context)
      | some tagSiteId => firstReaching env.siteOrder tagSiteId accessRecords

/-! ## 2. What the lookups answer -/

/-- The list of subsites that is kept, or the one the query makes. -/
def allowed (order : RowOrder Site) (s : SiteCaches) (siteId : String) : List String :=
  (s.allowedSiteIds (allowedSiteIdsCacheKey siteId)).getD
    (PrismaService.getAllowedSiteIdsForSite order s.world.db siteId)

/-- One lookup changes no answer. -/
theorem getAllowedSiteIdsForSite_answers (order : RowOrder Site) (siteId : String)
    (s : SiteCaches) : ∃ t, (getAllowedSiteIdsForSite order siteId).run s =
      (.ok (s.allowed order siteId), t) ∧ t.allowed order = s.allowed order := by
  rw [getAllowedSiteIdsForSite_run]
  unfold allowed
  cases hkept : s.allowedSiteIds (allowedSiteIdsCacheKey siteId) with
  | some ids => exact ⟨s, rfl, rfl⟩
  | none =>
    refine ⟨_, rfl, ?_⟩
    funext id
    by_cases hid : id = siteId
    · subst hid
      simp [setAllowedSiteIds, hkept]
    · have hkey : ¬ allowedSiteIdsCacheKey id = allowedSiteIdsCacheKey siteId :=
        fun h => hid (allowedSiteIdsCacheKey_inj.mp h)
      simp [setAllowedSiteIds, hkey]

/-- The same request, told the answers of a state. -/
def answering (s : SiteCaches) (env : Env) : Env :=
  { env with allowedSiteIdsForSite := s.allowed env.siteOrder }

theorem firstReaching_run (env : Env) (tagSiteId : String) (accessRecords : List ClientAccessRecord)
    (s : SiteCaches) : ((firstReaching env.siteOrder tagSiteId accessRecords).run s).1 =
      .ok ((accessRecords.find? (reachesSite (s.answering env) tagSiteId)).map (·.context)) := by
  induction accessRecords generalizing s with
  | nil => rfl
  | cons record accessRecords ih =>
    rw [firstReaching, List.find?_cons]
    by_cases hclient : isScopeAtLeast record.role.scope .client = true
    · rw [if_pos hclient]
      simp [reachesSite, hclient]
    rw [if_neg hclient]
    by_cases hsite : record.site.id = tagSiteId
    · rw [if_pos hsite]
      simp [reachesSite, hsite]
    rw [if_neg hsite]
    by_cases hgroup : isScopeAtLeast record.role.scope .siteGroup = true
    · rw [if_pos hgroup]
      obtain ⟨t, hrun, hanswers⟩ := getAllowedSiteIdsForSite_answers env.siteOrder record.site.id s
      rw [run_bind_ok hrun]
      by_cases hallowed : (s.allowed env.siteOrder record.site.id).contains tagSiteId = true
      · rw [if_pos hallowed]
        simp [reachesSite, answering, hgroup, List.contains_iff_mem.mp hallowed]
      · -- the rest of the loop is told the same as this round
        have hanswering : t.answering env = s.answering env := by
          unfold answering
          rw [hanswers]
        have hno : reachesSite (s.answering env) tagSiteId record = false := by
          unfold reachesSite answering
          simp only [hclient, hsite, hallowed, decide_false, Bool.and_false, Bool.or_self]
        rw [if_neg hallowed, ih, hanswering, hno]
    · rw [if_neg hgroup, ih]
      simp [reachesSite, hclient, hsite, hgroup]

/-- **The loop asks for what `checkRegistration` has the answers of.** -/
theorem resolveAccessForClient_run (cls : Cls) (env : Env) (tagClientId : String)
    (tagSiteId : Option String) (s : SiteCaches) :
    ((resolveAccessForClient cls env tagClientId tagSiteId).run s).1 =
      .ok (TagsService.resolveAccessForClient cls (s.answering env) tagClientId tagSiteId
        s.world.db) := by
  unfold resolveAccessForClient TagsService.resolveAccessForClient
  cases cls.user with
  | none => rfl
  | some user =>
    dsimp only
    rw [run_query_bind]
    have hrecords : clientAccessRecords (s.answering env) user tagClientId s.world.db =
        clientAccessRecords env user tagClientId s.world.db := rfl
    dsimp only [Option.bind_eq_bind, Option.bind_some]
    rw [hrecords]
    cases clientAccessRecords env user tagClientId s.world.db with
    | nil => cases truthy tagSiteId <;> rfl
    | cons record records =>
      dsimp only
      cases truthy tagSiteId with
      | none => rfl
      | some tagSiteId =>
        dsimp only
        rw [firstReaching_run]
        cases List.find? (reachesSite (s.answering env) tagSiteId) (record :: records) <;> rfl

/-- The lists of subsites that are kept are still right. -/
def AllowedSitesCurrent (s : SiteCaches) : Prop :=
  ∀ siteId ids, s.allowedSiteIds (allowedSiteIdsCacheKey siteId) = some ids →
    ∀ c, c ∈ ids ↔ WithinIn s.world.db.sites siteId c

theorem AllowedSitesCurrent.mem_allowed {s : SiteCaches} (h : s.AllowedSitesCurrent)
    {order : RowOrder Site} {siteId c : String} : c ∈ s.allowed order siteId ↔
      c ∈ PrismaService.getAllowedSiteIdsForSite order s.world.db siteId := by
  unfold allowed
  cases hkept : s.allowedSiteIds (allowedSiteIdsCacheKey siteId) with
  | none => rfl
  | some ids =>
    rw [Option.getD_some, h siteId ids hkept, mem_allowedSiteIds]

end SiteCaches

/-! ## 3. Who is let in -/

/-- The grant an access row makes. -/
def TagsService.ClientAccessRecord.accessGrant (r : ClientAccessRecord) : AccessGrant where
  roleId := r.role.id
  scope := r.role.scope
  capabilities := r.role.capabilities
  clientId := r.client.id
  siteId := r.site.id

/-- The row lets its user see the site. -/
def TagsService.ClientAccessRecord.Sees (hierarchy : ISiteHierarchy) (siteId : String)
    (r : ClientAccessRecord) : Prop :=
  VisibleIn (getVisibleSiteIds r.accessGrant hierarchy) siteId

/-- A group of sites is at most three levels deep. -/
def TagsService.ClientAccessRecord.Near (db : Db) (siteId : String) (r : ClientAccessRecord) :
    Prop :=
  r.role.scope = .siteGroup → ∃ n ≤ 3, Steps (ChildOf db.parentOf) n r.site.id siteId

theorem reachesSite_iff {env : Env} {tagSiteId : String} {r : ClientAccessRecord} :
    reachesSite env tagSiteId r = true ↔ scopeAllowsAllClientSites r.role.scope = true ∨
      tagSiteId = r.site.id ∨ r.role.scope = .siteGroup ∧
        tagSiteId ∈ env.allowedSiteIdsForSite r.site.id := by
  have hgroup : isScopeAtLeast r.role.scope .siteGroup = true ↔
      scopeAllowsAllClientSites r.role.scope = true ∨ r.role.scope = .siteGroup := by
    unfold scopeAllowsAllClientSites
    cases r.role.scope <;> decide
  unfold reachesSite
  rw [Bool.or_eq_true, Bool.or_eq_true, Bool.and_eq_true, hgroup, List.contains_iff_mem,
    decide_eq_true_eq, @eq_comm _ tagSiteId]
  unfold scopeAllowsAllClientSites
  constructor
  · intro h
    rcases h with (hall | hsite) | ⟨hall | hscope, hmem⟩
    · exact .inl hall
    · exact .inr (.inl hsite)
    · exact .inl hall
    · exact .inr (.inr ⟨hscope, hmem⟩)
  · intro h
    rcases h with hall | hsite | ⟨hscope, hmem⟩
    · exact .inl (.inl hall)
    · exact .inl (.inr hsite)
    · exact .inr ⟨.inr hscope, hmem⟩

section Access

variable {s : SiteCaches} {cls : Cls} {env : Env} {user : StatelessUser} {clientId : String}
  {site : Site}

/-- A row reaches the site exactly if it lets see it and the site is near enough. -/
theorem reachesSite_answering (hforest : SiteForest s.world.db clientId)
    (hcurrent : s.AllowedSitesCurrent) (hsite : site ∈ s.world.db.sites)
    (hclient : site.clientId = clientId) {order : RowOrder Site} {fuel : Nat}
    {hierarchy : ISiteHierarchy}
    (hbuild : buildSiteHierarchy fuel (clientSites order s.world.db clientId) = some hierarchy)
    {r : ClientAccessRecord} (hscope : r.role.scope ≠ .self) :
    reachesSite (s.answering env) site.id r = true ↔
      r.Sees hierarchy site.id ∧ r.Near s.world.db site.id := by
  rw [reachesSite_iff]
  unfold SiteCaches.answering
  rw [hcurrent.mem_allowed]
  exact reaches_iff_threeLevels (g := r.accessGrant) hforest hscope hbuild hsite hclient

/-- **A registered tag is shown to whom an access row lets see its site, three levels down**, and
    with the context of such a row. -/
theorem resolveAccessForClient_iff (hforest : SiteForest s.world.db clientId)
    (hcurrent : s.AllowedSitesCurrent) (huser : cls.user = some user)
    (hscopes : ∀ r ∈ clientAccessRecords env user clientId s.world.db, r.role.scope ≠ .self)
    (hsite : site ∈ s.world.db.sites) (hclient : site.clientId = clientId) (order : RowOrder Site) :
    (∃ fuel hierarchy,
      buildSiteHierarchy fuel (clientSites order s.world.db clientId) = some hierarchy) ∧
    ∃ access,
      ((SiteCaches.resolveAccessForClient cls env clientId (some site.id)).run s).1 = .ok access ∧
      ∀ fuel hierarchy,
        buildSiteHierarchy fuel (clientSites order s.world.db clientId) = some hierarchy →
          (access.isSome = true ↔ ∃ r ∈ clientAccessRecords env user clientId s.world.db,
            r.Sees hierarchy site.id ∧ r.Near s.world.db site.id) ∧
          ∀ context, access = some context →
            ∃ r ∈ clientAccessRecords env user clientId s.world.db,
              r.context = context ∧ r.Sees hierarchy site.id ∧ r.Near s.world.db site.id := by
  refine ⟨⟨_, buildSiteHierarchy_of_acyclic hforest.acyclic_clientSites⟩, _,
    SiteCaches.resolveAccessForClient_run cls env clientId (some site.id) s, ?_⟩
  intro fuel hierarchy hbuild
  have hreaches : ∀ r ∈ clientAccessRecords env user clientId s.world.db,
      (reachesSite (s.answering env) site.id r = true ↔
        r.Sees hierarchy site.id ∧ r.Near s.world.db site.id) :=
    fun r hr => reachesSite_answering hforest hcurrent hsite hclient hbuild (hscopes r hr)
  have hid : truthy (some site.id) = some site.id :=
    truthy_eq_some.mpr ⟨rfl, (hforest.ids site hsite).1⟩
  have haccess : TagsService.resolveAccessForClient cls (s.answering env) clientId (some site.id)
      s.world.db = ((clientAccessRecords env user clientId s.world.db).find?
        (reachesSite (s.answering env) site.id)).map (·.context) := by
    unfold TagsService.resolveAccessForClient
    rw [huser, hid]
    exact Option.map_eq_bind.symm
  rw [haccess]
  constructor
  · rw [Option.isSome_map, List.find?_isSome]
    exact exists_congr fun r => and_congr_right (hreaches r)
  · intro context hcontext
    obtain ⟨r, hfound, rfl⟩ := Option.map_eq_some_iff.mp hcontext
    have hr := List.mem_of_find?_eq_some hfound
    exact ⟨r, hr, rfl, (hreaches r hr).mp (List.find?_some hfound)⟩

end Access

/-! ## 4. Two keepers of the tower -/

/-- Tess keeps the head office and all below it, and Ida the floor with the hall and the desk. -/
def keptTower : Db where
  clients := fiveStoreys.clients
  sites := fiveStoreys.sites
  persons := ⟨[{ tess with idpId := some "idp-tess" },
    { id := "ida", firstName := "Ida", lastName := "I.", email := "i@tower.org",
      idpId := some "idp-ida" }], by decide⟩
  roles := ⟨[{ id := "keeper", name := "Keeper", scope := .siteGroup }], List.nodup_singleton _⟩
  accesses := ⟨[
    { createdOn := 1, personId := "tess", clientId := "tower", siteId := "hq", roleId := "keeper" },
    { createdOn := 2, personId := "ida", clientId := "tower", siteId := "floor",
      roleId := "keeper" }], by decide⟩

def desk : Site :=
  { id := "desk", externalId := "x5", createdOn := 0, clientId := "tower",
    parentSiteId := some "hall" }

def tessUser : StatelessUser :=
  { idpId := "idp-tess", email := "t@tower.org", username := "tess" }

def idaUser : StatelessUser :=
  { idpId := "idp-ida", email := "i@tower.org", username := "ida" }

def towerCaches : SiteCaches := { world := { db := keptTower } }

theorem towerCaches_current : towerCaches.AllowedSitesCurrent :=
  fun _ _ hkept => absurd hkept (by simp [towerCaches])

theorem keptTower_forest : SiteForest keptTower "tower" :=
  ⟨fiveStoreys_forest.ids, fiveStoreys_forest.parents, fiveStoreys_forest.acyclic⟩

/-- Tess is told of every reminder about the desk, and not shown its tag. -/
theorem keptTower_deepTag : SiteForest keptTower "tower" ∧ towerCaches.AllowedSitesCurrent ∧
    ((SiteCaches.resolveAccessForClient { user := some tessUser } {} "tower"
      (some "desk")).run towerCaches).1 = .ok none ∧
    ∃ fuel hierarchy, buildSiteHierarchy fuel (clientSites (.insertion _) keptTower "tower") =
      some hierarchy ∧
      ∃ r ∈ clientAccessRecords {} tessUser "tower" keptTower,
        r.role.scope ≠ .self ∧ r.Sees hierarchy "desk" := by
  refine ⟨keptTower_forest, towerCaches_current, ?_, ?_⟩
  · rw [SiteCaches.resolveAccessForClient_run]
    exact congrArg Except.ok (by decide)
  have hwalk : (buildSiteHierarchy 6 (clientSites (.insertion _) keptTower "tower")).map
      (fun hierarchy => (hierarchy.descendantsBySiteId "hq").getD []) =
        some ["wing", "floor", "hall", "desk"] := by
    decide
  obtain ⟨hierarchy, hbuild, hbelow⟩ := Option.map_eq_some_iff.mp hwalk
  obtain ⟨r, hr, hscope, hid⟩ : ∃ r ∈ clientAccessRecords {} tessUser "tower" keptTower,
      r.role.scope = .siteGroup ∧ r.site.id = "hq" := by
    decide
  have hne : r.role.scope ≠ .self := by simp [hscope]
  refine ⟨6, hierarchy, hbuild, r, hr, hne, (visibleIn_iff hne).mpr (.inr (.inr ⟨hscope, ?_⟩))⟩
  show "desk" ∈ (hierarchy.descendantsBySiteId r.site.id).getD []
  rw [hid, hbelow]
  decide

theorem desk_listed : desk ∈ towerCaches.world.db.sites := by decide

theorem ida_scopes : ∀ r ∈ clientAccessRecords {} idaUser "tower" towerCaches.world.db,
    r.role.scope ≠ .self := by
  decide

/-- Ida is shown it. -/
theorem keptTower_nearTag : (∃ fuel hierarchy, buildSiteHierarchy fuel
      (clientSites (.insertion _) towerCaches.world.db "tower") = some hierarchy) ∧
    ∃ access,
      ((SiteCaches.resolveAccessForClient { user := some idaUser } {} "tower"
        (some desk.id)).run towerCaches).1 = .ok access ∧
      ∀ fuel hierarchy, buildSiteHierarchy fuel
          (clientSites (.insertion _) towerCaches.world.db "tower") = some hierarchy →
        (access.isSome = true ↔
          ∃ r ∈ clientAccessRecords {} idaUser "tower" towerCaches.world.db,
            r.Sees hierarchy desk.id ∧ r.Near towerCaches.world.db desk.id) ∧
        ∀ context, access = some context →
          ∃ r ∈ clientAccessRecords {} idaUser "tower" towerCaches.world.db,
            r.context = context ∧ r.Sees hierarchy desk.id ∧
              r.Near towerCaches.world.db desk.id :=
  resolveAccessForClient_iff keptTower_forest towerCaches_current rfl ida_scopes desk_listed rfl
    (.insertion _)

end ShieldApi
