import ShieldApi.Lib.Fields
import ShieldApi.Lib.Forest
import ShieldApi.Prisma.Rls

/-!
# Which sites a grant is for

A site may have a parent, and a grant for a group of sites is for its own site and all below. The
code says so three times: `getVisibleSiteIds` of `auth/utils/site-visibility.ts` walks down a map
of children, `getAllowedSiteIdsForSite` of the Prisma service asks for three levels of subsites in
one query, and `validate_site` looks a site up in the comma-joined list that comes of it.

The walk finds each site below another exactly once, in whatever order the sites are listed
(`buildSiteHierarchy_exact`). **The three agree on all that is at most three levels below the
grant's site**, and on nothing below that (`siteScope_threeLevels`).
-/

set_option autoImplicit false

namespace ShieldApi

open Forest Relation

/-! ## 1. The walk -/

structure ISiteNode where
  id : String
  parentSiteId : Option String
  deriving DecidableEq, Repr

/-- A `Map<string, string[]>`, as the function its `get` is. -/
abbrev SiteIdsMap : Type := String → Option (List String)

structure ISiteHierarchy where
  allSiteIds : List String
  descendantsBySiteId : SiteIdsMap

/-- One round of the loop over the sites: the site joins the children of its parent. -/
def addChild (map : SiteIdsMap) (site : ISiteNode) : SiteIdsMap :=
  match truthy site.parentSiteId with
  | none => map
  | some parentSiteId =>
    let siblings := (map parentSiteId).getD []
    Function.update map parentSiteId (some (siblings ++ [site.id]))

/-- The direct children of each parent. -/
def childrenMap (sites : List ISiteNode) : SiteIdsMap :=
  sites.foldl addChild fun _ => none

/-- The recursion of the source has no bound. Here it has no result where `fuel` does not suffice
    for it to end. -/
def getDescendants (sites : List ISiteNode) (fuel : Nat) (siteId : String) :
    Option (List String) :=
  descendants (fun id => (childrenMap sites id).getD []) fuel siteId

/-- The loop that sets the descendants of each site. -/
def setDescendants (getDescendants : String → Option (List String)) :
    List ISiteNode → SiteIdsMap → Option SiteIdsMap
  | [], map => some map
  | site :: sites, map => do
    let descendants ← getDescendants site.id
    setDescendants getDescendants sites (Function.update map site.id (some descendants))

def buildSiteHierarchy (fuel : Nat) (sites : List ISiteNode) : Option ISiteHierarchy := do
  let descendantsBySiteId ← setDescendants (getDescendants sites fuel) sites fun _ => none
  return { allSiteIds := sites.map (·.id), descendantsBySiteId }

def scopeAllowsAllClientSites (scope : RoleScope) : Bool := isScopeAtLeast scope .client

/-- `null` is all sites. -/
def getVisibleSiteIds (accessGrant : AccessGrant) (siteHierarchy : ISiteHierarchy) :
    Option (List String) :=
  if scopeAllowsAllClientSites accessGrant.scope then none
  else
    match accessGrant.scope with
    | .siteGroup =>
      let descendants := (siteHierarchy.descendantsBySiteId accessGrant.siteId).getD []
      some (accessGrant.siteId :: descendants)
    | .site => some [accessGrant.siteId]
    | _ => some []

/-- The site is one of them. -/
def VisibleIn (visibleSiteIds : Option (List String)) (siteId : String) : Prop :=
  ∀ ids, visibleSiteIds = some ids → siteId ∈ ids

/-! ## 2. The query -/

def Site.node (s : Site) : ISiteNode := { id := s.id, parentSiteId := s.parentSiteId }

/-- `site.findMany({ where: { clientId } })`. -/
def clientSites (order : RowOrder Site) (db : Db) (clientId : String) : List ISiteNode :=
  (order.findMany (·.clientId = clientId) db.sites.rows).map Site.node

namespace PrismaService

/-- What the query nests under a site. -/
def subsites (order : RowOrder Site) (db : Db) (siteId : String) : List String :=
  (order.findMany (·.parentSiteId = some siteId) db.sites.rows).map (·.id)

/-- What is cached for an hour. -/
def getAllowedSiteIdsForSite (order : RowOrder Site) (db : Db) (siteId : String) : List String :=
  match db.sites.find? siteId with
  | none => [siteId]
  | some site =>
    site.id :: (subsites order db site.id).flatMap fun s1 =>
      s1 :: (subsites order db s1).flatMap fun s2 => s2 :: subsites order db s2

end PrismaService

/-- The settings `build` makes of a grant where nothing is bypassed. -/
def grantSettings (person : Person) (accessGrant : AccessGrant) (allowedSiteIds : List String) :
    Settings :=
  [("app.current_user_scope", accessGrant.scope.text),
   ("app.current_person_id", person.id),
   ("app.allowed_site_ids", ",".intercalate allowedSiteIds),
   ("app.current_site_id", accessGrant.siteId),
   ("app.current_client_id", accessGrant.clientId)]

theorem build_grantSettings {cls : Cls} {allowedSiteIdsForSite : String → List String}
    {g : AccessGrant} {p : Person} (hg : cls.accessGrant = some g) (hp : cls.person = some p)
    (hoff : (buildPrimaryExtension cls allowedSiteIdsForSite {}).bypassRLS = false) :
    (buildPrimaryExtension cls allowedSiteIdsForSite {}).settings =
      .ok (grantSettings p g (allowedSiteIdsForSite g.siteId)) := by
  unfold PrimaryExtension.settings
  rw [hoff]
  simp only [buildPrimaryExtension, hg, hp]
  rfl

/-! ## 3. What the walk finds -/

/-- The parent of a site that is there. -/
def Db.parentOf (db : Db) (siteId : String) : Option String :=
  (db.sites.find? siteId).bind (·.parentSiteId)

theorem childOf_parentOf {db : Db} {p c : String} :
    ChildOf db.parentOf p c ↔ ∃ s ∈ db.sites, s.id = c ∧ s.parentSiteId = some p := by
  unfold ChildOf Db.parentOf
  rw [Option.bind_eq_some_iff]
  simp only [Table.find?_eq_some, and_assoc]

/-- A site hangs under another one of the list. -/
def IsChildIn (sites : List ISiteNode) (p c : String) : Prop :=
  ∃ site ∈ sites, truthy site.parentSiteId = some p ∧ site.id = c

/-- The children stand in the order of the list. -/
theorem childrenMap_eq {sites : List ISiteNode} {p : String} : (childrenMap sites p).getD [] =
    (sites.filter fun site => truthy site.parentSiteId = some p).map (·.id) := by
  suffices h : ∀ map : SiteIdsMap, ((sites.foldl addChild map) p).getD [] =
      (map p).getD [] ++
        (sites.filter fun site => truthy site.parentSiteId = some p).map (·.id) by
    rw [childrenMap, h, Option.getD_none, List.nil_append]
  induction sites with
  | nil => simp
  | cons site sites ih =>
    intro map
    rw [List.foldl_cons, ih]
    unfold addChild
    cases hparent : truthy site.parentSiteId with
    | none => simp [hparent]
    | some q =>
      by_cases hq : p = q
      · subst hq
        simp [hparent]
      · have hne : ¬ q = p := fun h => hq h.symm
        simp [Function.update_of_ne hq, hparent, hne]

theorem mem_childrenMap {sites : List ISiteNode} {p c : String} :
    c ∈ (childrenMap sites p).getD [] ↔ IsChildIn sites p c := by
  rw [childrenMap_eq, List.mem_map]
  simp only [List.mem_filter, decide_eq_true_eq, IsChildIn, and_assoc]

theorem childRel_eq (sites : List ISiteNode) :
    (fun p c => c ∈ (childrenMap sites p).getD []) = IsChildIn sites := by
  funext p c
  exact propext mem_childrenMap

theorem mem_getDescendants {sites : List ISiteNode} {fuel : Nat} {siteId c : String}
    {l : List String} (h : getDescendants sites fuel siteId = some l) :
    c ∈ l ↔ TransGen (IsChildIn sites) siteId c := by
  rw [mem_descendants h, childRel_eq]

section SetDescendants

variable {g : String → Option (List String)} {sites : List ISiteNode} {map m : SiteIdsMap}

theorem setDescendants_isSome : ∀ {sites : List ISiteNode} (map : SiteIdsMap),
    (setDescendants g sites map).isSome = true ↔
      ∀ site ∈ sites, (g site.id).isSome = true := by
  intro sites
  induction sites with
  | nil => exact fun _ => iff_of_true rfl fun _ hs => absurd hs List.not_mem_nil
  | cons site sites ih =>
    intro map
    rw [List.forall_mem_cons, setDescendants]
    cases hg : g site.id with
    | none => simp
    | some l =>
      rw [← ih (Function.update map site.id (some l))]
      simp

theorem setDescendants_out (h : setDescendants g sites map = some m) {k : String}
    (hk : ∀ site ∈ sites, site.id ≠ k) : m k = map k := by
  induction sites generalizing map with
  | nil => rw [← Option.some.inj h]
  | cons site sites ih =>
    obtain ⟨l, -, h⟩ := Option.bind_eq_some_iff.mp h
    rw [ih h fun t ht => hk t (List.mem_cons_of_mem _ ht),
      Function.update_of_ne (hk site List.mem_cons_self).symm]

theorem setDescendants_in (h : setDescendants g sites map = some m) {site : ISiteNode}
    (hsite : site ∈ sites) : m site.id = g site.id := by
  induction sites generalizing map site with
  | nil => exact absurd hsite List.not_mem_nil
  | cons s sites ih =>
    obtain ⟨l, hl, h⟩ := Option.bind_eq_some_iff.mp h
    by_cases hlater : ∃ t ∈ sites, t.id = site.id
    · obtain ⟨t, ht, hid⟩ := hlater
      rw [← hid]
      exact ih h ht
    · have hlast : site = s :=
        (List.mem_cons.mp hsite).resolve_right fun hs => hlater ⟨site, hs, rfl⟩
      rw [setDescendants_out h fun t ht hid => hlater ⟨t, ht, hid⟩, hlast, Function.update_self, hl]

end SetDescendants

/-- **The walk down a forest of sites ends.** -/
theorem buildSiteHierarchy_of_acyclic {sites : List ISiteNode} (h : Acyclic (IsChildIn sites)) :
    ∃ hierarchy, buildSiteHierarchy (sites.length + 1) sites = some hierarchy := by
  have hdescendants : ∀ siteId, ∃ l, getDescendants sites (sites.length + 1) siteId = some l := by
    intro siteId
    rw [← List.length_map (f := ISiteNode.id)]
    refine descendants_of_acyclic (by rw [childRel_eq]; exact h) (fun p c hc => ?_) siteId
    obtain ⟨site, hsite, -, rfl⟩ := mem_childrenMap.mp hc
    exact List.mem_map_of_mem hsite
  have hset : (setDescendants (getDescendants sites (sites.length + 1)) sites
      fun _ => none).isSome = true :=
    (setDescendants_isSome _).mpr fun site _ => Option.isSome_iff_exists.mpr (hdescendants site.id)
  obtain ⟨m, hm⟩ := Option.isSome_iff_exists.mp hset
  refine ⟨{ allSiteIds := sites.map (·.id), descendantsBySiteId := m }, ?_⟩
  unfold buildSiteHierarchy
  rw [hm]
  rfl

/-- What was built has the descendants of each of the sites. -/
theorem buildSiteHierarchy_eq_some {sites : List ISiteNode} {fuel : Nat}
    {hierarchy : ISiteHierarchy} (h : buildSiteHierarchy fuel sites = some hierarchy) :
    setDescendants (getDescendants sites fuel) sites (fun _ => none) =
      some hierarchy.descendantsBySiteId := by
  obtain ⟨m, hm, hh⟩ := Option.bind_eq_some_iff.mp h
  obtain rfl := Option.some.inj hh
  exact hm

/-- The walk round a cycle does not. -/
theorem buildSiteHierarchy_of_cycle {sites : List ISiteNode} {site : ISiteNode}
    (hsite : site ∈ sites) (h : TransGen (IsChildIn sites) site.id site.id) (fuel : Nat) :
    buildSiteHierarchy fuel sites = none := by
  apply Option.eq_none_iff_forall_ne_some.mpr
  intro hierarchy hbuild
  have hset := (setDescendants_isSome _).mp
    (Option.isSome_iff_exists.mpr ⟨_, buildSiteHierarchy_eq_some hbuild⟩) site hsite
  rw [← childRel_eq] at h
  have hnone : getDescendants sites fuel site.id = none := descendants_of_cycle h fuel
  rw [hnone] at hset
  exact absurd hset (by simp)

theorem mem_descendantsBySiteId {sites : List ISiteNode} {fuel : Nat}
    {hierarchy : ISiteHierarchy} (h : buildSiteHierarchy fuel sites = some hierarchy)
    {siteId c : String} : c ∈ (hierarchy.descendantsBySiteId siteId).getD [] ↔
      (∃ site ∈ sites, site.id = siteId) ∧ TransGen (IsChildIn sites) siteId c := by
  have hset := buildSiteHierarchy_eq_some h
  by_cases hsite : ∃ site ∈ sites, site.id = siteId
  · obtain ⟨site, hmem, rfl⟩ := hsite
    rw [setDescendants_in hset hmem, and_iff_right ⟨site, hmem, rfl⟩]
    obtain ⟨l, hl⟩ := Option.isSome_iff_exists.mp
      ((setDescendants_isSome _).mp (Option.isSome_iff_exists.mpr ⟨_, hset⟩) site hmem)
    rw [hl]
    exact mem_getDescendants hl
  · rw [setDescendants_out hset fun site hs hid => hsite ⟨site, hs, hid⟩]
    exact iff_of_false List.not_mem_nil fun h => hsite h.1

/-! ### Every site once -/

/-- A parent that is a site of the list is the one the row names, but for the empty id, which the
    loop takes for no parent. -/
theorem isChildIn_iff {sites : List ISiteNode} {p c : String} (hp : p ≠ "") :
    IsChildIn sites p c ↔ ∃ site ∈ sites, site.parentSiteId = some p ∧ site.id = c := by
  unfold IsChildIn
  simp only [truthy_eq_some, and_iff_left hp]

section Once

variable {sites : List ISiteNode} (hids : (sites.map (·.id)).Nodup)

include hids

theorem children_nodup (p : String) : ((childrenMap sites p).getD []).Nodup := by
  rw [childrenMap_eq]
  exact hids.sublist (List.filter_sublist.map _)

/-- A site has one parent. -/
theorem isChildIn_unique {p q c : String} (hp : IsChildIn sites p c) (hq : IsChildIn sites q c) :
    p = q := by
  obtain ⟨s, hs, hsp, hsid⟩ := hp
  obtain ⟨t, ht, htq, htid⟩ := hq
  obtain rfl : s = t := List.inj_on_of_nodup_map hids hs ht (hsid.trans htid.symm)
  exact Option.some.inj (hsp.symm.trans htq)

theorem getDescendants_nodup (hacyclic : Acyclic (IsChildIn sites)) {fuel : Nat} {siteId : String}
    {l : List String} (h : getDescendants sites fuel siteId = some l) : l.Nodup := by
  refine descendants_nodup ?_ (fun p q c hp hq => ?_) (children_nodup hids) h
  · rw [childRel_eq]
    exact hacyclic
  · exact isChildIn_unique hids (mem_childrenMap.mp hp) (mem_childrenMap.mp hq)

end Once

/-- **In a forest of sites, in whatever order, each site gets the sites below it, each of them
    once.** -/
theorem buildSiteHierarchy_exact {sites : List ISiteNode} (hids : (sites.map (·.id)).Nodup)
    (hacyclic : Acyclic (IsChildIn sites)) :
    (∃ fuel hierarchy, buildSiteHierarchy fuel sites = some hierarchy) ∧
      ∀ fuel hierarchy, buildSiteHierarchy fuel sites = some hierarchy → ∀ s ∈ sites,
        ∃ l, hierarchy.descendantsBySiteId s.id = some l ∧ l.Nodup ∧
          ∀ c, c ∈ l ↔ TransGen (IsChildIn sites) s.id c := by
  refine ⟨⟨_, buildSiteHierarchy_of_acyclic hacyclic⟩, ?_⟩
  intro fuel hierarchy hbuild s hs
  have hset := buildSiteHierarchy_eq_some hbuild
  obtain ⟨l, hl⟩ := Option.isSome_iff_exists.mp
    ((setDescendants_isSome _).mp (Option.isSome_iff_exists.mpr ⟨_, hset⟩) s hs)
  refine ⟨l, by rw [setDescendants_in hset hs, hl], ?_, fun c => mem_getDescendants hl⟩
  exact getDescendants_nodup hids hacyclic hl

/-- Stores before their region, and a region whose own parent is not in the list. -/
def shuffledSites : List ISiteNode :=
  [{ id := "store-2", parentSiteId := some "region" },
   { id := "region", parentSiteId := some "hq" },
   { id := "kiosk", parentSiteId := some "store-2" },
   { id := "store-1", parentSiteId := some "region" }]

/-- From the top down. -/
def shuffledRanks : List String := ["hq", "region", "store-1", "store-2", "kiosk"]

theorem shuffledSites_acyclic : Acyclic (IsChildIn shuffledSites) := by
  have hrank : ∀ s ∈ shuffledSites, ∀ p ∈ truthy s.parentSiteId,
      shuffledRanks.idxOf p < shuffledRanks.idxOf s.id := by
    decide
  apply acyclic_of_rank shuffledRanks.idxOf
  intro p c hchild
  obtain ⟨s, hs, hp, rfl⟩ := hchild
  exact hrank s hs p hp

theorem shuffledSites_exact :
    (∃ fuel hierarchy, buildSiteHierarchy fuel shuffledSites = some hierarchy) ∧
      ∀ fuel hierarchy, buildSiteHierarchy fuel shuffledSites = some hierarchy →
        ∀ s ∈ shuffledSites, ∃ l, hierarchy.descendantsBySiteId s.id = some l ∧ l.Nodup ∧
          ∀ c, c ∈ l ↔ TransGen (IsChildIn shuffledSites) s.id c :=
  buildSiteHierarchy_exact (by decide) shuffledSites_acyclic

/-! ## 4. The forest of a client -/

/-- The ids are those `cuid` makes, of letters and digits; the sites of the client hang under each
    other; and none is below itself. -/
structure SiteForest (db : Db) (clientId : String) : Prop where
  ids : ∀ s ∈ db.sites, s.id ≠ "" ∧ ',' ∉ s.id.toList
  parents : ∀ s ∈ db.sites, s.clientId = clientId → ∀ p, s.parentSiteId = some p →
    ∃ q ∈ db.sites, q.id = p ∧ q.clientId = clientId
  acyclic : Acyclic (ChildOf db.parentOf)

section Forest

variable {db : Db} {clientId : String} {order : RowOrder Site}

theorem isChildIn_clientSites {p c : String} : IsChildIn (clientSites order db clientId) p c ↔
    p ≠ "" ∧ ∃ s ∈ db.sites, s.clientId = clientId ∧ s.id = c ∧ s.parentSiteId = some p := by
  constructor
  · intro h
    obtain ⟨site, hsite, hparent, hid⟩ := h
    obtain ⟨s, hs, rfl⟩ := List.mem_map.mp hsite
    obtain ⟨hmem, hclient⟩ := RowOrder.mem_findMany.mp hs
    obtain ⟨hparent, hne⟩ := truthy_eq_some.mp hparent
    exact ⟨hne, s, hmem, of_decide_eq_true hclient, hid, hparent⟩
  · intro h
    obtain ⟨hne, s, hs, hclient, hid, hparent⟩ := h
    refine ⟨s.node, List.mem_map_of_mem (RowOrder.mem_findMany.mpr ⟨hs, ?_⟩), ?_, hid⟩
    · exact decide_eq_true hclient
    · exact truthy_eq_some.mpr ⟨hparent, hne⟩

theorem childOf_of_isChildIn {p c : String} (h : IsChildIn (clientSites order db clientId) p c) :
    ChildOf db.parentOf p c := by
  obtain ⟨-, s, hs, -, hid, hparent⟩ := isChildIn_clientSites.mp h
  exact childOf_parentOf.mpr ⟨s, hs, hid, hparent⟩

theorem SiteForest.isChildIn (h : SiteForest db clientId) {p c : String} {s : Site}
    (hs : s ∈ db.sites) (hclient : s.clientId = clientId) (hid : s.id = c)
    (hchild : ChildOf db.parentOf p c) : IsChildIn (clientSites order db clientId) p c := by
  obtain ⟨t, ht, htid, hparent⟩ := childOf_parentOf.mp hchild
  obtain rfl := Table.eq_of_key_eq hs ht (hid.trans htid.symm)
  obtain ⟨q, hq, rfl, -⟩ := h.parents s hs hclient p hparent
  exact isChildIn_clientSites.mpr ⟨(h.ids q hq).1, s, hs, hclient, hid, hparent⟩

/-- All above a site of the client are sites of the client. -/
theorem SiteForest.transGen_iff (h : SiteForest db clientId) {a : String} {s : Site}
    (hs : s ∈ db.sites) (hclient : s.clientId = clientId) :
    TransGen (IsChildIn (clientSites order db clientId)) a s.id ↔
      TransGen (ChildOf db.parentOf) a s.id := by
  constructor
  · intro hpath
    exact TransGen.mono (fun _ _ => childOf_of_isChildIn) _ _ hpath
  · intro hpath
    generalize hc : s.id = c at hpath
    induction hpath generalizing s with
    | single hchild => exact .single (h.isChildIn hs hclient hc hchild)
    | @tail b c _ hchild ih =>
      have hstep : IsChildIn (clientSites order db clientId) b c := h.isChildIn hs hclient hc hchild
      obtain ⟨t, ht, htid, hparent⟩ := childOf_parentOf.mp hchild
      obtain rfl := Table.eq_of_key_eq hs ht (hc.trans htid.symm)
      obtain ⟨q, hq, hqid, hqclient⟩ := h.parents s hs hclient b hparent
      exact .tail (ih hq hqclient hqid) hstep

theorem SiteForest.acyclic_clientSites (h : SiteForest db clientId) :
    Acyclic (IsChildIn (clientSites order db clientId)) :=
  h.acyclic.mono fun _ _ => childOf_of_isChildIn

/-- Whoever is below a site of the client, or above one, as the client's site has it. -/
theorem SiteForest.clientSite_above (h : SiteForest db clientId) {a : String} {s : Site}
    (hs : s ∈ db.sites) (hclient : s.clientId = clientId)
    (hpath : TransGen (ChildOf db.parentOf) a s.id) :
    ∃ site ∈ clientSites order db clientId, site.id = a := by
  have hlisted : TransGen (IsChildIn (clientSites order db clientId)) a s.id :=
    (h.transGen_iff hs hclient).mpr hpath
  obtain ⟨b, hchild, -⟩ := TransGen.head'_iff.mp hlisted
  obtain ⟨-, t, ht, htclient, -, hparent⟩ := isChildIn_clientSites.mp hchild
  obtain ⟨q, hq, hqid, hqclient⟩ := h.parents t ht htclient a hparent
  refine ⟨q.node, List.mem_map_of_mem (RowOrder.mem_findMany.mpr ⟨hq, ?_⟩), hqid⟩
  exact decide_eq_true hqclient

/-! ### The three levels of the query -/

theorem mem_subsites {p c : String} :
    c ∈ PrismaService.subsites order db p ↔ ChildOf db.parentOf p c := by
  unfold PrismaService.subsites
  rw [List.mem_map, childOf_parentOf]
  constructor
  · intro h
    obtain ⟨s, hs, hid⟩ := h
    obtain ⟨hmem, hparent⟩ := RowOrder.mem_findMany.mp hs
    exact ⟨s, hmem, hid, of_decide_eq_true hparent⟩
  · intro h
    obtain ⟨s, hs, hid, hparent⟩ := h
    exact ⟨s, RowOrder.mem_findMany.mpr ⟨hs, decide_eq_true hparent⟩, hid⟩

/-- **What the query returns of a site that is there.** -/
theorem mem_getAllowedSiteIdsForSite {siteId c : String} {site : Site} (hsite : site ∈ db.sites)
    (hid : site.id = siteId) : c ∈ PrismaService.getAllowedSiteIdsForSite order db siteId ↔
      ∃ n ≤ 3, Steps (ChildOf db.parentOf) n siteId c := by
  unfold PrismaService.getAllowedSiteIdsForSite
  rw [Table.find?_eq_some.mpr ⟨hsite, hid⟩]
  simp only [List.mem_cons, List.mem_flatMap, mem_subsites, hid]
  constructor
  · intro h
    rcases h with rfl | ⟨s1, h1, rfl | ⟨s2, h2, rfl | h3⟩⟩
    · exact ⟨0, by omega, rfl⟩
    · exact ⟨1, by omega, c, h1, rfl⟩
    · exact ⟨2, by omega, s1, h1, c, h2, rfl⟩
    · exact ⟨3, by omega, s1, h1, s2, h2, c, h3, rfl⟩
  · intro h
    obtain ⟨n, hn, hsteps⟩ := h
    rcases n with _ | _ | _ | _ | n
    · exact .inl hsteps.symm
    · obtain ⟨s1, h1, rfl⟩ := hsteps
      exact .inr ⟨s1, h1, .inl rfl⟩
    · obtain ⟨s1, h1, s2, h2, rfl⟩ := hsteps
      exact .inr ⟨s1, h1, .inr ⟨s2, h2, .inl rfl⟩⟩
    · obtain ⟨s1, h1, s2, h2, s3, h3, rfl⟩ := hsteps
      exact .inr ⟨s1, h1, .inr ⟨s2, h2, .inr h3⟩⟩
    · omega

end Forest

/-! ## 5. The two meanings compared -/

theorem visibleIn_iff {g : AccessGrant} {hierarchy : ISiteHierarchy} (hscope : g.scope ≠ .self)
    {siteId : String} : VisibleIn (getVisibleSiteIds g hierarchy) siteId ↔
      scopeAllowsAllClientSites g.scope = true ∨ siteId = g.siteId ∨
        g.scope = .siteGroup ∧ siteId ∈ (hierarchy.descendantsBySiteId g.siteId).getD [] := by
  unfold VisibleIn getVisibleSiteIds
  cases hs : g.scope with
  | system => simp [scopeAllowsAllClientSites, isScopeAtLeast, scopeHierarchy]
  | global => simp [scopeAllowsAllClientSites, isScopeAtLeast, scopeHierarchy]
  | client => simp [scopeAllowsAllClientSites]
  | siteGroup => simp [scopeAllowsAllClientSites, isScopeAtLeast, scopeHierarchy]
  | site => simp [scopeAllowsAllClientSites, isScopeAtLeast, scopeHierarchy]
  | self => exact absurd hs hscope

/-- The sites a setting lists. -/
def listedSiteIds (allowedSiteIdsStr : String) : List String :=
  if allowedSiteIdsStr = "" then [] else fieldsOf ',' allowedSiteIdsStr

theorem validateSite_grantSettings {p : Person} {g : AccessGrant} {ids : List String}
    {siteId : String} : (grantSettings p g ids).validateSite siteId = true ↔
      scopeAllowsAllClientSites g.scope = true ∨ siteId = g.siteId ∨
        g.scope = .siteGroup ∧ siteId ∈ listedSiteIds (",".intercalate ids) := by
  have hcurrent : (grantSettings p g ids).current "app.current_site_id" = some g.siteId := rfl
  have hallowed : (grantSettings p g ids).current "app.allowed_site_ids" =
      some (",".intercalate ids) := rfl
  have hscope : (grantSettings p g ids).current "app.current_user_scope" =
      some g.scope.text := rfl
  unfold Settings.validateSite listedSiteIds fieldsOf
  rw [hcurrent, hallowed, hscope, @eq_comm _ siteId g.siteId]
  cases g.scope with
  | system => simp [truthy, RoleScope.text, scopeAllowsAllClientSites, isScopeAtLeast, scopeHierarchy]
  | global => simp [truthy, RoleScope.text, scopeAllowsAllClientSites, isScopeAtLeast, scopeHierarchy]
  | client => simp [truthy, RoleScope.text, scopeAllowsAllClientSites]
  | siteGroup =>
    simp [truthy, RoleScope.text, scopeAllowsAllClientSites, isScopeAtLeast, scopeHierarchy]
  | site =>
    simp [truthy, RoleScope.text, scopeAllowsAllClientSites, isScopeAtLeast, scopeHierarchy]
  | self =>
    simp [truthy, RoleScope.text, scopeAllowsAllClientSites, isScopeAtLeast, scopeHierarchy]

/-- What was joined is listed, but for the empty id. -/
theorem mem_listedSiteIds {ids : List String} (hids : ∀ id ∈ ids, ',' ∉ id.toList) (hne : ids ≠ [])
    {siteId : String} (hsite : siteId ≠ "") :
    siteId ∈ listedSiteIds (",".intercalate ids) ↔ siteId ∈ ids := by
  have hfields : fieldsOf ',' (",".intercalate ids) = ids := fieldsOf_intercalate rfl hids hne
  unfold listedSiteIds
  by_cases hempty : ",".intercalate ids = ""
  · rw [if_pos hempty]
    rw [hempty] at hfields
    refine iff_of_false List.not_mem_nil fun hmem => hsite ?_
    rw [← hfields, fieldsOf_of_not_mem (by simp), List.mem_singleton] at hmem
    exact hmem
  · rw [if_neg hempty, hfields]

section Compared

variable {db : Db} {clientId : String}

theorem SiteForest.allowed_undivided (h : SiteForest db clientId) {order : RowOrder Site}
    {siteId : String} (hid : ',' ∉ siteId.toList) :
    ∀ id ∈ PrismaService.getAllowedSiteIdsForSite order db siteId, ',' ∉ id.toList := by
  intro id hmem
  cases hfind : db.sites.find? siteId with
  | none =>
    unfold PrismaService.getAllowedSiteIdsForSite at hmem
    rw [hfind, List.mem_singleton] at hmem
    rw [hmem]
    exact hid
  | some site =>
    obtain ⟨hsite, hsid⟩ := Table.find?_eq_some.mp hfind
    obtain ⟨n, -, hsteps⟩ := (mem_getAllowedSiteIdsForSite hsite hsid).mp hmem
    rcases reflTransGen_iff_eq_or_transGen.mp (reflTransGen_iff_steps.mpr ⟨n, hsteps⟩) with rfl | hpath
    · exact hid
    · obtain ⟨p, -, hchild⟩ := TransGen.tail'_iff.mp hpath
      obtain ⟨s, hs, rfl, -⟩ := childOf_parentOf.mp hchild
      exact (h.ids s hs).2

theorem getAllowedSiteIdsForSite_ne_nil (order : RowOrder Site) (db : Db) (siteId : String) :
    PrismaService.getAllowedSiteIdsForSite order db siteId ≠ [] := by
  unfold PrismaService.getAllowedSiteIdsForSite
  cases db.sites.find? siteId with
  | none => exact List.cons_ne_nil _ _
  | some site => exact List.cons_ne_nil _ _

/-- **What a grant reaches over the query is what the walk finds, three levels down.** -/
theorem reaches_iff_threeLevels (hforest : SiteForest db clientId) {g : AccessGrant}
    (hscope : g.scope ≠ .self) {order order' : RowOrder Site} {fuel : Nat}
    {hierarchy : ISiteHierarchy}
    (hbuild : buildSiteHierarchy fuel (clientSites order db clientId) = some hierarchy) {s : Site}
    (hs : s ∈ db.sites) (hclient : s.clientId = clientId) :
    (scopeAllowsAllClientSites g.scope = true ∨ s.id = g.siteId ∨ g.scope = .siteGroup ∧
        s.id ∈ PrismaService.getAllowedSiteIdsForSite order' db g.siteId) ↔
      VisibleIn (getVisibleSiteIds g hierarchy) s.id ∧
        (g.scope = .siteGroup → ∃ n ≤ 3, Steps (ChildOf db.parentOf) n g.siteId s.id) := by
  rw [visibleIn_iff hscope, mem_descendantsBySiteId hbuild]
  -- the grants that are not for a group of sites are for all of them or for one
  by_cases hgroup : g.scope = .siteGroup
  case neg => simp [hgroup]
  have hall : scopeAllowsAllClientSites g.scope = false := by
    rw [hgroup]
    rfl
  rw [hall]
  simp only [Bool.false_eq_true, hgroup, false_or, true_and, true_implies]
  have hsteps : (∃ n ≤ 3, Steps (ChildOf db.parentOf) n g.siteId s.id) →
      s.id = g.siteId ∨ TransGen (ChildOf db.parentOf) g.siteId s.id := by
    intro h
    obtain ⟨n, -, hn⟩ := h
    exact reflTransGen_iff_eq_or_transGen.mp (reflTransGen_iff_steps.mpr ⟨n, hn⟩)
  constructor
  · intro h
    rcases h with hself | hallowed
    · exact ⟨.inl hself, 0, by omega, hself.symm⟩
    · cases hfind : db.sites.find? g.siteId with
      | none =>
        unfold PrismaService.getAllowedSiteIdsForSite at hallowed
        rw [hfind, List.mem_singleton] at hallowed
        exact ⟨.inl hallowed, 0, by omega, hallowed.symm⟩
      | some site =>
        obtain ⟨hsite, hsid⟩ := Table.find?_eq_some.mp hfind
        have hwithin := (mem_getAllowedSiteIdsForSite hsite hsid).mp hallowed
        refine ⟨(hsteps hwithin).imp id fun hpath => ⟨?_, ?_⟩, hwithin⟩
        · exact hforest.clientSite_above hs hclient hpath
        · exact (hforest.transGen_iff hs hclient).mpr hpath
  · intro h
    obtain ⟨hvisible, hwithin⟩ := h
    rcases hvisible with hself | ⟨⟨site, hmem, hsid⟩, -⟩
    · exact .inl hself
    · obtain ⟨t, ht, rfl⟩ := List.mem_map.mp hmem
      exact .inr ((mem_getAllowedSiteIdsForSite (RowOrder.mem_findMany.mp ht).1 hsid).mpr hwithin)

/-- **So is what the database lets a grant see.** -/
theorem siteScope_threeLevels (hforest : SiteForest db clientId) {g : AccessGrant}
    (hscope : g.scope ≠ .self) (hid : ',' ∉ g.siteId.toList) (person : Person)
    (order order' : RowOrder Site) :
    (∃ fuel hierarchy, buildSiteHierarchy fuel (clientSites order db clientId) = some hierarchy) ∧
      ∀ fuel hierarchy, buildSiteHierarchy fuel (clientSites order db clientId) = some hierarchy →
        ∀ s ∈ db.sites, s.clientId = clientId →
          ((grantSettings person g (PrismaService.getAllowedSiteIdsForSite order' db
              g.siteId)).validateSite s.id = true ↔
            VisibleIn (getVisibleSiteIds g hierarchy) s.id ∧
              (g.scope = .siteGroup → ∃ n ≤ 3, Steps (ChildOf db.parentOf) n g.siteId s.id)) := by
  refine ⟨⟨_, buildSiteHierarchy_of_acyclic hforest.acyclic_clientSites⟩, ?_⟩
  intro fuel hierarchy hbuild s hs hclient
  rw [validateSite_grantSettings,
    mem_listedSiteIds (hforest.allowed_undivided hid) (getAllowedSiteIdsForSite_ne_nil _ _ _)
      (hforest.ids s hs).1]
  exact reaches_iff_threeLevels hforest hscope hbuild hs hclient

end Compared

/-! ## 6. Five storeys -/

def storeys : List String := ["hq", "wing", "floor", "hall", "desk"]

def fiveStoreys : Db where
  clients := ⟨[{ id := "tower", externalId := "tower-inc" }], List.nodup_singleton _⟩
  sites := ⟨[{ id := "hq", externalId := "x1", createdOn := 0, clientId := "tower" },
    { id := "wing", externalId := "x2", createdOn := 0, clientId := "tower",
      parentSiteId := some "hq" },
    { id := "floor", externalId := "x3", createdOn := 0, clientId := "tower",
      parentSiteId := some "wing" },
    { id := "hall", externalId := "x4", createdOn := 0, clientId := "tower",
      parentSiteId := some "floor" },
    { id := "desk", externalId := "x5", createdOn := 0, clientId := "tower",
      parentSiteId := some "hall" }], by decide⟩

def tess : Person := { id := "tess", firstName := "Tess", lastName := "T.", email := "t@tower.org" }

def hqGroup : AccessGrant where
  roleId := "keeper"
  scope := .siteGroup
  capabilities := []
  clientId := "tower"
  siteId := "hq"

theorem fiveStoreys_forest : SiteForest fiveStoreys "tower" := by
  have hrows : (∀ s ∈ fiveStoreys.sites, s.id ≠ "" ∧ ',' ∉ s.id.toList) ∧
      ∀ s ∈ fiveStoreys.sites, ∀ p ∈ s.parentSiteId, storeys.idxOf p < storeys.idxOf s.id ∧
        ∃ q ∈ fiveStoreys.sites, q.id = p ∧ q.clientId = "tower" := by
    decide
  refine ⟨hrows.1, fun s hs _ p hp => (hrows.2 s hs p hp).2, ?_⟩
  apply acyclic_of_rank storeys.idxOf
  intro p c hchild
  obtain ⟨s, hs, rfl, hp⟩ := childOf_parentOf.mp hchild
  exact (hrows.2 s hs p hp).1

/-- The desk is four levels below. -/
theorem fiveStoreys_differ : SiteForest fiveStoreys "tower" ∧
    ¬ ∀ fuel hierarchy,
      buildSiteHierarchy fuel (clientSites (.insertion _) fiveStoreys "tower") = some hierarchy →
        ∀ s ∈ fiveStoreys.sites, (VisibleIn (getVisibleSiteIds hqGroup hierarchy) s.id ↔
          (grantSettings tess hqGroup (PrismaService.getAllowedSiteIdsForSite (.insertion _)
            fiveStoreys hqGroup.siteId)).validateSite s.id = true) := by
  refine ⟨fiveStoreys_forest, fun h => ?_⟩
  have hwalk : (buildSiteHierarchy 6 (clientSites (.insertion _) fiveStoreys "tower")).map
      (fun hierarchy => (hierarchy.descendantsBySiteId "hq").getD []) =
        some ["wing", "floor", "hall", "desk"] := by
    decide
  obtain ⟨hierarchy, hbuild, hbelow⟩ := Option.map_eq_some_iff.mp hwalk
  obtain ⟨s, hs, hid⟩ : ∃ s ∈ fiveStoreys.sites, s.id = "desk" := by decide
  have hagree := h 6 hierarchy hbuild s hs
  rw [hid, visibleIn_iff (by decide)] at hagree
  have hdesk : "desk" ∈ (hierarchy.descendantsBySiteId "hq").getD [] := by
    rw [hbelow]
    decide
  exact absurd (hagree.mp (.inr (.inr ⟨rfl, hdesk⟩))) (by decide)

/-- All others are seen alike. -/
theorem fiveStoreys_threeLevels :
    (∃ fuel hierarchy, buildSiteHierarchy fuel
      (clientSites (.insertion _) fiveStoreys "tower") = some hierarchy) ∧
      ∀ fuel hierarchy, buildSiteHierarchy fuel
          (clientSites (.insertion _) fiveStoreys "tower") = some hierarchy →
        ∀ s ∈ fiveStoreys.sites, s.clientId = "tower" →
          ((grantSettings tess hqGroup (PrismaService.getAllowedSiteIdsForSite (.insertion _)
              fiveStoreys "hq")).validateSite s.id = true ↔
            VisibleIn (getVisibleSiteIds hqGroup hierarchy) s.id ∧
              (hqGroup.scope = .siteGroup →
                ∃ n ≤ 3, Steps (ChildOf fiveStoreys.parentOf) n "hq" s.id)) :=
  siteScope_threeLevels fiveStoreys_forest (by decide) (by decide) tess (.insertion _)
    (.insertion _)

end ShieldApi
