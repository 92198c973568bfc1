import ShieldApi.Clients.DemoCopies
import ShieldApi.Lib.Pairings

/-!
# Is the copy of a demo client like the original?

A copy and its original are compared list by list (`DemoCopied`): sites, assets and members
correspond one to one, links go between corresponding sites, and no new row points back.
**The assets that are copied are those at a site of the client** (`duplicateDemo_copied`): the loop
skips an asset for whose site the map has no copy, and says nothing.
-/

set_option autoImplicit false

namespace ShieldApi

open Effect

/-! ## 1. What a copy is -/

namespace DemoWorld

def sitesAt (w : DemoWorld) (id : String) : List Site :=
  w.base.db.sites.rows.filter (·.clientId = id)

def assetsAt (w : DemoWorld) (id : String) : List DemoAsset := w.assets.rows.filter (·.clientId = id)

/-- The asset is at a site of its client. -/
def atOwnSite (w : DemoWorld) (a : DemoAsset) : Bool :=
  (w.sitesAt a.clientId).any (·.id = a.siteId)

/-- Who has access to the client. -/
def membersAt (w : DemoWorld) (id : String) : List Person :=
  w.base.db.persons.rows.filter fun p =>
    w.base.db.accesses.rows.any fun a => a.personId = p.id && a.clientId = id

def accessesOf (w : DemoWorld) (personId : String) : List PersonClientAccess :=
  w.base.db.accesses.rows.filter (·.personId = personId)

def tagOf (w : DemoWorld) (a : DemoAsset) : Option Tag := a.tagId.bind w.tags.find?

/-- What the schema promises: foreign keys resolve, and no id is empty. -/
structure Sound (w : DemoWorld) : Prop where
  refs : w.base.db.ReferencesResolve
  assets : ∀ a ∈ w.assets, (w.base.db.clients.find? a.clientId).isSome = true
  products : ∀ a ∈ w.assets, w.products.contains a.productId = true
  siteIds : ∀ s ∈ w.base.db.sites, s.id ≠ ""

end DemoWorld

section Copied

variable (w w' : DemoWorld) (id id' : String)

/-- A site of the client and the one in its place. -/
def Corresponds (x y : String) : Prop :=
  (x, y) ∈ ClientsService.siteIdsMap (w.sitesAt id) (w'.sitesAt id')

structure IsSiteCopy (s s' : Site) : Prop where
  name : s'.name = s.name
  primary : s'.primary = s.primary
  parent : ∀ y, s'.parentSiteId = some y ↔ ∃ x, s.parentSiteId = some x ∧ Corresponds w w' id id' x y

structure IsTagCopy (a' : DemoAsset) (t t' : Tag) : Prop where
  serialNumber : t'.serialNumber = t.serialNumber
  site : t'.siteId = some a'.siteId
  client : t'.clientId = some a'.clientId

structure IsAssetCopy (a a' : DemoAsset) : Prop where
  site : Corresponds w w' id id' a.siteId a'.siteId
  columns : a'.name = a.name ∧ a'.active = a.active ∧ a'.productId = a.productId ∧
    a'.location = a.location ∧ a'.placement = a.placement ∧ a'.serialNumber = a.serialNumber ∧
    a'.inspectionCycle = a.inspectionCycle
  tag : Option.Rel (IsTagCopy a') (w.tagOf a) (w'.tagOf a')

/-- A row at a site of another client keeps that site. -/
structure IsAccessCopy (a a' : PersonClientAccess) : Prop where
  client : a'.clientId = id'
  role : a'.roleId = a.roleId
  isPrimary : a'.isPrimary = a.isPrimary
  site : Corresponds w w' id id' a.siteId a'.siteId ∨
    (¬ w.base.db.SiteOf id a.siteId ∧ a'.siteId = a.siteId)

structure IsMemberCopy (emailDomain : String) (p p' : Person) : Prop where
  columns : p'.firstName = p.firstName ∧ p'.lastName = p.lastName ∧
    p'.phoneNumber = p.phoneNumber ∧ p'.email = ClientsService.copiedEmail p.email emailDomain
  accesses : ∃ rows, rows.Perm ((w.accessesOf p.id).filter (·.clientId = id)) ∧
    List.Forall₂ (IsAccessCopy w w' id id') rows (w'.accessesOf p'.id)

/-- No row that is new refers to a site, a tag or the client itself. -/
structure SelfContained : Prop where
  sites : ∀ s ∈ w'.base.db.sites, s ∉ w.base.db.sites →
    s.clientId ≠ id ∧ ∀ y, s.parentSiteId = some y → ¬ w.base.db.SiteOf id y
  tags : ∀ t ∈ w'.tags, t ∉ w.tags →
    t.clientId ≠ some id ∧ ∀ y, t.siteId = some y → ¬ w.base.db.SiteOf id y
  assets : ∀ a ∈ w'.assets, a ∉ w.assets →
    a.clientId ≠ id ∧ ¬ w.base.db.SiteOf id a.siteId ∧ ∀ t ∈ w.tags, a.tagId ≠ some t.id
  accesses : ∀ a ∈ w'.base.db.accesses, a ∉ w.base.db.accesses →
    a.clientId ≠ id ∧ ¬ w.base.db.SiteOf id a.siteId

/-- **The client `id'` is a copy of `id`,** with a copy of each of these assets. -/
structure DemoCopied (emailDomain : String) (assets : List DemoAsset) : Prop where
  sites : List.Forall₂ (IsSiteCopy w w' id id') (w.sitesAt id) (w'.sitesAt id')
  assets : List.Forall₂ (IsAssetCopy w w' id id') assets (w'.assetsAt id')
  members : List.Forall₂ (IsMemberCopy w w' id id' emailDomain) (w.membersAt id) (w'.membersAt id')
  apart : SelfContained w w' id

end Copied

namespace DemoCopies

open ClientsService Pairings

/-! ## 2. What a call leaves -/

/-- What is known of a call on `w` that left `w'`. -/
structure Copying (env : Env) (ids : Nat → String) (options : DuplicateDemoClientDto) (id : String)
    (existing : Client) (w w' : DemoWorld) : Prop where
  duplicable : Duplicable env options id w.base.db existing
  duplicated : Duplicated env options id existing w.base.db w'.base.db
  sites : w'.base.db.sites.rows = (w.base.db.sites.rows ++ newSites env id w.base.db).map
    (linked (newSiteIds env id w.base.db) (sitesOf id w.base.db))
  assets : AssetsCopied env ids id w w'

section Leaves

variable {env : Env} {ids : Nat → String} {options : DuplicateDemoClientDto} {id : String}
  {existing : Client} {w w' : DemoWorld}

theorem Phases.site_rows {b b₁ b₂ b₃ b' : World}
    (h : Phases env options id existing b b₁ b₂ b₃ b') :
    b'.db.sites.rows = (b.db.sites.rows ++ newSites env id b.db).map
      (linked (newSiteIds env id b.db) (sitesOf id b.db)) := by
  obtain ⟨us, hlinks⟩ := h.links
  obtain ⟨vs, hmembers⟩ := h.members
  obtain ⟨tp, ta, -, -, hb', -⟩ := forEach_createMember_ok hmembers
  obtain ⟨-, -, tc, -, hb₁⟩ := createClient_eq_ok.mp h.client
  obtain ⟨-, -, ts, hts, hb₂⟩ := inserts_createSite.forEach_eq_ok.mp h.sites
  have hsame : b'.db.sites = b₃.db.sites := by
    rw [hb']
    rfl
  have hts : b.db.sites.insertAll? (newSites env id b.db) = some b₂.db.sites := by
    rw [hb₁] at hts
    rw [hb₂]
    exact hts
  rw [hsame, linkParents_rows hlinks, Table.rows_insertAll? hts]

theorem copying_of_ok {c : Client}
    (h : (duplicateTransaction bypassing env ids id options).run w = (.ok c, w')) :
    c.id = env.cuid 0 ∧ ∃ existing, Copying env ids options id existing w w' := by
  obtain ⟨hbase, hassets⟩ := duplicateTransaction_eq_ok.mp h
  obtain ⟨existing, hdup, hinto⟩ := duplicateTransaction_ok hbase
  obtain ⟨existing', b₁, b₂, b₃, rfl, hphases⟩ := base_eq_ok.mp hbase
  exact ⟨rfl, existing, hdup, hinto, hphases.site_rows, hassets⟩

theorem sitesAt_eq (w : DemoWorld) (id : String) : w.sitesAt id = sitesOf id w.base.db := by
  unfold DemoWorld.sitesAt sitesOf Settings.seesSite
  simp only [bypassing_bypasses, Bool.true_or, Bool.true_and]

theorem newSiteIds_nodup (env : Env) (id : String) (db : Db) :
    ((newSiteIds env id db).map Prod.fst).Nodup := by
  rw [newSiteIds_fst]
  exact db.sites.unique.sublist (List.filter_sublist.map Site.id)

theorem lookup_newSiteIds {env : Env} {id : String} {db : Db} {x y : String} :
    (newSiteIds env id db).lookup x = some y ↔ (x, y) ∈ newSiteIds env id db :=
  Pairings.lookup_eq_some_iff (newSiteIds_nodup env id db)

namespace Copying

/-- The id of a copy is new. -/
theorem fresh (h : Copying env ids options id existing w w') {x y : String}
    (hxy : (x, y) ∈ newSiteIds env id w.base.db) : w.base.db.sites.find? y = none := by
  apply h.duplicable.sites.2
  rw [← newSiteIds_snd]
  exact List.mem_map_of_mem hxy

theorem site_rows (h : Copying env ids options id existing w w') :
    w'.base.db.sites.rows = w.base.db.sites.rows ++ (newSites env id w.base.db).map
      (linked (newSiteIds env id w.base.db) (sitesOf id w.base.db)) := by
  have hold : w.base.db.sites.rows.map
      (linked (newSiteIds env id w.base.db) (sitesOf id w.base.db)) = w.base.db.sites.rows := by
    refine (List.map_congr_left fun row hrow => linked_of_ne fun site _ hl => ?_).trans
      (List.map_id _)
    exact Table.find?_eq_none.mp (h.fresh (lookup_newSiteIds.mp hl)) row hrow rfl
  rw [h.sites, List.map_append, hold]

/-- The new client is new. -/
theorem client_ne (h : Copying env ids options id existing w w') : env.cuid 0 ≠ id := by
  intro heq
  have hnone := h.duplicable.client
  rw [heq, h.duplicable.found] at hnone
  exact absurd hnone (by simp)

theorem old_site (h : Copying env ids options id existing w w') (hs : w.Sound) {s : Site}
    (hmem : s ∈ w.base.db.sites) : s.clientId ≠ env.cuid 0 := by
  intro heq
  have hfound := hs.refs.sites s hmem
  rw [heq, h.duplicable.client] at hfound
  exact absurd hfound (by simp)

theorem sitesAt_new (h : Copying env ids options id existing w w') (hs : w.Sound) :
    w'.sitesAt (env.cuid 0) = (newSites env id w.base.db).map
      (linked (newSiteIds env id w.base.db) (sitesOf id w.base.db)) := by
  unfold DemoWorld.sitesAt
  rw [h.site_rows, List.filter_append, List.filter_eq_nil_iff.mpr, List.nil_append,
    List.filter_eq_self.mpr]
  · intro row hrow
    obtain ⟨s, hs', rfl⟩ := List.mem_map.mp hrow
    obtain ⟨p, -, rfl⟩ := List.mem_map.mp hs'
    rw [linked_clientId]
    exact decide_eq_true rfl
  · intro row hrow
    rw [decide_eq_true_eq]
    exact h.old_site hs hrow

/-- The map of the call tells which sites correspond. -/
theorem corresponds_iff (h : Copying env ids options id existing w w') (hs : w.Sound)
    {x y : String} :
    Corresponds w w' id (env.cuid 0) x y ↔ (x, y) ∈ newSiteIds env id w.base.db := by
  unfold Corresponds newSiteIds
  rw [h.sitesAt_new hs, sitesAt_eq]
  have hsame : siteIdsMap (sitesOf id w.base.db) ((newSites env id w.base.db).map
      (linked (newSiteIds env id w.base.db) (sitesOf id w.base.db))) =
        siteIdsMap (sitesOf id w.base.db) (newSites env id w.base.db) := by
    unfold siteIdsMap
    rw [List.zip_map_right, List.map_map]
    refine List.map_congr_left fun p _ => ?_
    exact Prod.ext rfl (linked_id _ _)
  rw [hsame]

/-! ### The sites -/

variable (env) in
theorem mem_newSiteIds_of_zipIdx {q : Site × Nat} (hq : q ∈ (sitesOf id w.base.db).zipIdx) :
    (q.1.id, (siteCopy env (env.cuid 0) q).id) ∈ newSiteIds env id w.base.db := by
  obtain ⟨s, i⟩ := q
  have hi := List.mk_mem_zipIdx_iff_getElem?.mp hq
  refine List.mem_map.mpr ⟨(s, siteCopy env (env.cuid 0) (s, i)), ?_, rfl⟩
  refine List.mem_iff_getElem?.mpr ⟨i, List.getElem?_zip_eq_some.mpr ⟨hi, ?_⟩⟩
  simp [newSites, siteCopies, hi]

theorem site_of_copied {x y : String} (h : (x, y) ∈ newSiteIds env id w.base.db) :
    ∃ s ∈ w.base.db.sites, s.clientId = id ∧ s.id = x := by
  have hx : x ∈ (newSiteIds env id w.base.db).map Prod.fst := List.mem_map_of_mem h
  rw [newSiteIds_fst] at hx
  obtain ⟨s, hs, rfl⟩ := List.mem_map.mp hx
  obtain ⟨hmem, hclient⟩ := mem_sitesOf.mp hs
  exact ⟨s, hmem, hclient, rfl⟩

theorem copied_ne (hcuid : ∀ n, env.cuid n ≠ "") {x y : String}
    (h : (x, y) ∈ newSiteIds env id w.base.db) : y ≠ "" := by
  have hy : y ∈ (newSiteIds env id w.base.db).map Prod.snd := List.mem_map_of_mem h
  rw [newSiteIds_snd, newSites, siteCopies, List.map_map] at hy
  obtain ⟨q, -, rfl⟩ := List.mem_map.mp hy
  exact hcuid _

/-- Two sites have two copies. -/
theorem copied_inj (h : Copying env ids options id existing w w') {x x' y : String}
    (hx : (x, y) ∈ newSiteIds env id w.base.db) (hx' : (x', y) ∈ newSiteIds env id w.base.db) :
    x = x' := by
  have hnodup : ((newSiteIds env id w.base.db).map Prod.snd).Nodup := by
    rw [newSiteIds_snd]
    exact h.duplicable.sites.1
  exact congrArg Prod.fst (List.inj_on_of_nodup_map hnodup hx hx' rfl)

theorem isSiteCopy (h : Copying env ids options id existing w w') (hs : w.Sound)
    (hcuid : ∀ n, env.cuid n ≠ "") {q : Site × Nat} (hq : q ∈ (sitesOf id w.base.db).zipIdx) :
    IsSiteCopy w w' id (env.cuid 0) q.1
      (linked (newSiteIds env id w.base.db) (sitesOf id w.base.db)
        (siteCopy env (env.cuid 0) q)) := by
  have hpair := mem_newSiteIds_of_zipIdx env hq
  have hmem := List.fst_mem_of_mem_zipIdx hq
  have hone : ∀ site ∈ sitesOf id w.base.db, (newSiteIds env id w.base.db).lookup site.id =
      some (siteCopy env (env.cuid 0) q).id → site = q.1 := by
    intro site hsite hl
    have hid := h.copied_inj (lookup_newSiteIds.mp hl) hpair
    exact Table.eq_of_key_eq (mem_sitesOf.mp hsite).1 (mem_sitesOf.mp hmem).1 hid
  rw [linked_of_copy hmem hone]
  rcases linkRow_cases (newSiteIds env id w.base.db) q.1 with ⟨d, p, hd, hp, hrow⟩ | ⟨hno, hrow⟩
  · have hid : (siteCopy env (env.cuid 0) q).id = d :=
      Option.some.inj ((lookup_newSiteIds.mpr hpair).symm.trans hd)
    rw [hrow, if_pos hid]
    refine ⟨rfl, rfl, fun y => ?_⟩
    obtain ⟨hbind, -⟩ := truthy_eq_some.mp hp
    obtain ⟨x, hx, hxp⟩ := Option.bind_eq_some_iff.mp hbind
    obtain ⟨hparent, -⟩ := truthy_eq_some.mp hx
    simp only [h.corresponds_iff hs, hparent, Option.some.injEq, exists_eq_left']
    rw [← lookup_newSiteIds, hxp, Option.some.injEq]
    exact Option.some_inj
  · rw [hrow]
    refine ⟨rfl, rfl, fun y => iff_of_false (by simp [siteCopy]) ?_⟩
    rintro ⟨x, hparent, hxy⟩
    rw [h.corresponds_iff hs] at hxy
    obtain ⟨s, hs', -, rfl⟩ := site_of_copied hxy
    rcases hno with hno | hno
    · rw [lookup_newSiteIds.mpr hpair, truthy_eq_some.mpr ⟨rfl, copied_ne hcuid hpair⟩] at hno
      exact absurd hno (by simp)
    · rw [hparent, truthy_eq_some.mpr ⟨rfl, hs.siteIds s hs'⟩, Option.bind_some,
        lookup_newSiteIds.mpr hxy, truthy_eq_some.mpr ⟨rfl, copied_ne hcuid hxy⟩] at hno
      exact absurd hno (by simp)

theorem sites_copied (h : Copying env ids options id existing w w') (hs : w.Sound)
    (hcuid : ∀ n, env.cuid n ≠ "") :
    List.Forall₂ (IsSiteCopy w w' id (env.cuid 0)) (w.sitesAt id) (w'.sitesAt (env.cuid 0)) := by
  rw [h.sitesAt_new hs, sitesAt_eq, newSites, siteCopies, List.map_map]
  exact forall₂_map_zipIdx fun q hq => h.isSiteCopy hs hcuid hq

/-! ### The assets -/

theorem sourceAssets_eq (w : DemoWorld) (id : String) :
    sourceAssets bypassing id w = (w.assetsAt id).map fun a => (a, w.tagOf a) := by
  unfold sourceAssets DemoWorld.assetsAt DemoWorld.tagOf Settings.seesPlace Settings.seesTag
  simp only [bypassing_bypasses, Bool.true_or, Bool.true_and]
  refine List.map_congr_left fun a _ => ?_
  cases a.tagId.bind w.tags.find? <;> rfl

variable (ids) in
/-- An asset is copied to the copy of its site, if that is one of the client's. -/
theorem placedCopy_cases (hcuid : ∀ n, env.cuid n ≠ "") {a : DemoAsset} (ha : a ∈ w.assetsAt id)
    (tag : Option Tag) (i : Nat) :
    (w.atOwnSite a = false ∧
        placedCopy ids (newSiteIds env id w.base.db) (env.cuid 0) ((a, tag), i) = none) ∨
      (w.atOwnSite a = true ∧ ∃ y, (a.siteId, y) ∈ newSiteIds env id w.base.db ∧
        placedCopy ids (newSiteIds env id w.base.db) (env.cuid 0) ((a, tag), i) =
          some (assetCopy ids (env.cuid 0) y i (a, tag))) := by
  have hclient : a.clientId = id := of_decide_eq_true (List.mem_filter.mp ha).2
  unfold placedCopy DemoWorld.atOwnSite
  rw [hclient]
  cases hl : (newSiteIds env id w.base.db).lookup a.siteId with
  | none =>
    refine .inl ⟨?_, rfl⟩
    rw [List.any_eq_false]
    intro s hs hid
    rw [sitesAt_eq] at hs
    have hkey : a.siteId ∈ (newSiteIds env id w.base.db).map Prod.fst := by
      rw [newSiteIds_fst, ← of_decide_eq_true hid]
      exact List.mem_map_of_mem hs
    obtain ⟨⟨x, y⟩, hxy, rfl⟩ := List.mem_map.mp hkey
    rw [lookup_newSiteIds.mpr hxy] at hl
    exact absurd hl (by simp)
  | some y =>
    have hxy := lookup_newSiteIds.mp hl
    obtain ⟨s, hs, hsc, hsid⟩ := site_of_copied hxy
    refine .inr ⟨?_, y, hxy, ?_⟩
    · refine List.any_eq_true.mpr ⟨s, ?_, decide_eq_true hsid⟩
      rw [sitesAt_eq]
      exact mem_sitesOf.mpr ⟨hs, hsc⟩
    · rw [truthy_eq_some.mpr ⟨rfl, copied_ne hcuid hxy⟩]
      rfl

/-- A new asset is the copy of one, at the copy of a site. -/
theorem newAsset_cases {a : TaggedAsset} (ha : a ∈ newAssets env ids id w) :
    ∃ x y n source, (x, y) ∈ newSiteIds env id w.base.db ∧
      a = assetCopy ids (env.cuid 0) y n source := by
  obtain ⟨q, -, hcopy⟩ := List.mem_filterMap.mp ha
  obtain ⟨y, hy, rfl⟩ := Option.map_eq_some_iff.mp hcopy
  exact ⟨_, y, q.2, q.1, lookup_newSiteIds.mp (truthy_eq_some.mp hy).1, rfl⟩

theorem newAsset_tagId {a : TaggedAsset} (ha : a ∈ newAssets env ids id w) :
    a.1.tagId = a.2.map (·.id) := by
  obtain ⟨x, y, n, source, -, rfl⟩ := newAsset_cases ha
  rfl

theorem asset_rows (h : Copying env ids options id existing w w') :
    w'.assets.rows = w.assets.rows ++ (newAssets env ids id w).map Prod.fst :=
  Table.rows_insertAll? h.assets.assets

theorem assetsAt_new (h : Copying env ids options id existing w w') (hs : w.Sound) :
    w'.assetsAt (env.cuid 0) = (newAssets env ids id w).map Prod.fst := by
  unfold DemoWorld.assetsAt
  rw [h.asset_rows, List.filter_append, List.filter_eq_nil_iff.mpr, List.nil_append,
    List.filter_eq_self.mpr]
  · intro a ha
    obtain ⟨item, hitem, rfl⟩ := List.mem_map.mp ha
    obtain ⟨x, y, n, source, -, rfl⟩ := newAsset_cases hitem
    exact decide_eq_true rfl
  · intro a ha hclient
    have hfound := hs.assets a ha
    rw [of_decide_eq_true hclient, h.duplicable.client] at hfound
    exact absurd hfound (by simp)

/-- The tag of a new asset is the one created with it. -/
theorem tagOf_new (h : Copying env ids options id existing w w') {a : TaggedAsset}
    (ha : a ∈ newAssets env ids id w) : w'.tagOf a.1 = a.2 := by
  unfold DemoWorld.tagOf
  rw [newAsset_tagId ha]
  cases htag : a.2 with
  | none => rfl
  | some t =>
    have hmem : t ∈ w'.tags := by
      refine (Table.mem_insertAll? h.assets.tags).mpr (.inr (List.mem_flatMap.mpr ⟨a, ha, ?_⟩))
      rw [htag]
      exact List.mem_singleton_self t
    exact Table.find?_eq_some.mpr ⟨hmem, rfl⟩

theorem isAssetCopy (h : Copying env ids options id existing w w') (hs : w.Sound) {a : DemoAsset}
    {y : String} {i : Nat} (hy : (a.siteId, y) ∈ newSiteIds env id w.base.db)
    (hnew : assetCopy ids (env.cuid 0) y i (a, w.tagOf a) ∈ newAssets env ids id w) :
    IsAssetCopy w w' id (env.cuid 0) a (assetCopy ids (env.cuid 0) y i (a, w.tagOf a)).1 := by
  refine ⟨(h.corresponds_iff hs).mpr hy, ⟨rfl, rfl, rfl, rfl, rfl, rfl, rfl⟩, ?_⟩
  rw [h.tagOf_new hnew]
  unfold assetCopy
  cases w.tagOf a with
  | none => exact .none
  | some t => exact .some ⟨rfl, rfl, rfl⟩

theorem assets_copied (h : Copying env ids options id existing w w') (hs : w.Sound)
    (hcuid : ∀ n, env.cuid n ≠ "") :
    List.Forall₂ (IsAssetCopy w w' id (env.cuid 0)) ((w.assetsAt id).filter w.atOwnSite)
      (w'.assetsAt (env.cuid 0)) := by
  rw [h.assetsAt_new hs, newAssets, List.map_filterMap]
  have hall := forall₂_filterMap_zipIdx (p := fun a : TaggedAsset => w.atOwnSite a.1)
    (g := fun q => (placedCopy ids (newSiteIds env id w.base.db) (env.cuid 0) q).map Prod.fst)
    (R := fun a a' => IsAssetCopy w w' id (env.cuid 0) a.1 a') (l := sourceAssets bypassing id w)
    (n := 0) fun q hq => ?_
  · rw [sourceAssets_eq, List.filter_map, List.forall₂_map_left_iff] at hall
    rw [sourceAssets_eq]
    exact hall
  · have hq' := List.fst_mem_of_mem_zipIdx hq
    rw [sourceAssets_eq] at hq'
    obtain ⟨a, ha, hqa⟩ := List.mem_map.mp hq'
    obtain ⟨⟨_, _⟩, i⟩ := q
    obtain ⟨rfl, rfl⟩ := Prod.mk.inj hqa
    rcases placedCopy_cases ids hcuid ha (w.tagOf a) i with ⟨hat, hnone⟩ |
      ⟨hat, y, hy, hsome⟩
    · exact .inl ⟨hat, by rw [hnone]; rfl⟩
    · refine .inr ⟨hat, _, by rw [hsome]; rfl, h.isAssetCopy hs hy ?_⟩
      exact List.mem_filterMap.mpr ⟨_, hq, hsome⟩

/-! ### The members -/

theorem sourceMembers_eq (w : DemoWorld) (env : Env) (id : String) :
    sourceMembers bypassing env id w.base.db = (w.membersAt id).map fun p =>
      (p, env.accessOrder.findMany
        (fun a => bypassing.seesClient a.clientId && a.personId = p.id && a.clientId = id)
        w.base.db.accesses.rows) := by
  unfold sourceMembers DemoWorld.membersAt Settings.seesPerson Settings.seesClient
  simp only [bypassing_bypasses, Bool.true_or, Bool.true_and]

theorem member_fresh (h : Copying env ids options id existing w w') {m : Member}
    (hm : m ∈ newMembers env options id w.base.db) : w.base.db.persons.find? m.1.id = none :=
  h.duplicable.persons.2 _ (List.mem_map_of_mem hm)

theorem newMember_rows {m : Member} (hm : m ∈ newMembers env options id w.base.db) :
    m.2 ≠ [] ∧ ∀ a ∈ m.2, a.personId = m.1.id ∧ a.clientId = env.cuid 0 := by
  unfold newMembers memberCopies at hm
  obtain ⟨q, hq, rfl⟩ := List.mem_map.mp hm
  have hq := List.fst_mem_of_mem_zipIdx hq
  rw [sourceMembers_eq] at hq
  obtain ⟨p, hp, hqp⟩ := List.mem_map.mp hq
  constructor
  · obtain ⟨a, ha, hsel⟩ := List.any_eq_true.mp (List.mem_filter.mp hp).2
    intro hnil
    have hempty : q.1.2 = [] := List.map_eq_nil_iff.mp hnil
    rw [← hqp, RowOrder.findMany_eq_nil] at hempty
    refine absurd (hempty a ha) ?_
    rw [Settings.seesClient, bypassing_bypasses, Bool.true_or, Bool.true_and, hsel]
    simp
  · intro a ha
    obtain ⟨b, -, rfl⟩ := List.mem_map.mp ha
    exact ⟨rfl, rfl⟩

theorem access_rows (h : Copying env ids options id existing w w') :
    w'.base.db.accesses.rows =
      w.base.db.accesses.rows ++ (newMembers env options id w.base.db).flatMap Prod.snd :=
  Table.rows_insertAll? h.duplicated.accesses

theorem old_access (h : Copying env ids options id existing w w') (hs : w.Sound)
    {a : PersonClientAccess} (ha : a ∈ w.base.db.accesses) :
    a.clientId ≠ env.cuid 0 ∧ ∀ m ∈ newMembers env options id w.base.db, a.personId ≠ m.1.id := by
  have href := hs.refs.accesses a ha
  unfold Db.accessRefs at href
  simp only [Bool.and_eq_true] at href
  constructor
  · intro hclient
    have hfound : (w.base.db.clients.find? a.clientId).isSome = true := href.1.1.2
    rw [hclient, h.duplicable.client] at hfound
    exact absurd hfound (by simp)
  · intro m hm hperson
    have hfound : (w.base.db.persons.find? a.personId).isSome = true := href.1.1.1
    rw [hperson, h.member_fresh hm] at hfound
    exact absurd hfound (by simp)

theorem membersAt_new (h : Copying env ids options id existing w w') (hs : w.Sound) :
    w'.membersAt (env.cuid 0) = (newMembers env options id w.base.db).map Prod.fst := by
  unfold DemoWorld.membersAt
  rw [Table.rows_insertAll? h.duplicated.persons, h.access_rows, List.filter_append,
    List.filter_eq_nil_iff.mpr, List.nil_append, List.filter_eq_self.mpr]
  · intro p hp
    obtain ⟨m, hm, rfl⟩ := List.mem_map.mp hp
    obtain ⟨hne, hall⟩ := newMember_rows hm
    obtain ⟨a, ha⟩ := List.exists_mem_of_ne_nil _ hne
    refine List.any_eq_true.mpr ⟨a, List.mem_append_right _ (List.mem_flatMap.mpr ⟨m, hm, ha⟩), ?_⟩
    simp [hall a ha]
  · intro p hp hany
    obtain ⟨a, ha, hsel⟩ := List.any_eq_true.mp hany
    simp only [Bool.and_eq_true, decide_eq_true_eq] at hsel
    rcases List.mem_append.mp ha with ha | ha
    · exact (h.old_access hs ha).1 hsel.2
    · obtain ⟨m, hm, ha⟩ := List.mem_flatMap.mp ha
      have hpm : p.id = m.1.id := hsel.1.symm.trans ((newMember_rows hm).2 a ha).1
      exact Table.find?_eq_none.mp (h.member_fresh hm) p hp hpm

/-- The rows of a new member. -/
theorem accessesOf_new (h : Copying env ids options id existing w w') (hs : w.Sound) {m : Member}
    (hm : m ∈ newMembers env options id w.base.db) : w'.accessesOf m.1.id = m.2 := by
  have hnodup : ((newMembers env options id w.base.db).map (·.1.id)).Nodup :=
    h.duplicable.persons.1
  obtain ⟨before, after, hsplit⟩ := List.append_of_mem hm
  have hother : ∀ m' ∈ before ++ after, ∀ a ∈ m'.2, decide (a.personId = m.1.id) = false := by
    intro m' hm' a ha
    have hmem : m' ∈ newMembers env options id w.base.db := by
      rw [hsplit]
      rcases List.mem_append.mp hm' with hm' | hm'
      · exact List.mem_append_left _ hm'
      · exact List.mem_append_right _ (List.mem_cons_of_mem _ hm')
    rw [((newMember_rows hmem).2 a ha).1, decide_eq_false_iff_not]
    intro heq
    rw [hsplit, List.map_append, List.map_cons, List.nodup_middle, List.nodup_cons,
      ← List.map_append] at hnodup
    exact hnodup.1 (heq ▸ List.mem_map_of_mem hm')
  have hnone : ∀ l : List Member, (∀ m' ∈ l, m' ∈ before ++ after) →
      (l.flatMap Prod.snd).filter (·.personId = m.1.id) = [] := by
    intro l hl
    refine List.filter_eq_nil_iff.mpr fun a ha => ?_
    obtain ⟨m', hm', ha⟩ := List.mem_flatMap.mp ha
    rw [hother m' (hl m' hm') a ha]
    exact Bool.false_ne_true
  unfold DemoWorld.accessesOf
  rw [h.access_rows, hsplit, List.flatMap_append, List.flatMap_cons, List.filter_append,
    List.filter_append, List.filter_append, hnone before fun _ => List.mem_append_left _,
    hnone after fun _ => List.mem_append_right _, List.append_nil, List.nil_append,
    List.filter_eq_nil_iff.mpr, List.nil_append, List.filter_eq_self.mpr]
  · intro a ha
    exact decide_eq_true ((newMember_rows hm).2 a ha).1
  · intro a ha hperson
    exact (h.old_access hs ha).2 m hm (of_decide_eq_true hperson)

theorem isAccessCopy (h : Copying env ids options id existing w w') (hs : w.Sound)
    (hcuid : ∀ n, env.cuid n ≠ "") (personId : String) (a : PersonClientAccess) :
    IsAccessCopy w w' id (env.cuid 0) a
      (accessCopy env (newSiteIds env id w.base.db) personId (env.cuid 0) a) := by
  refine ⟨rfl, rfl, rfl, ?_⟩
  by_cases hsite : w.base.db.SiteOf id a.siteId
  · exact .inl ((h.corresponds_iff hs).mpr (copiedSite_of_siteOf hcuid hsite))
  · exact .inr ⟨hsite, copiedSite_of_not hsite⟩

theorem members_copied (h : Copying env ids options id existing w w') (hs : w.Sound)
    (hcuid : ∀ n, env.cuid n ≠ "") :
    List.Forall₂ (IsMemberCopy w w' id (env.cuid 0) options.emailDomain) (w.membersAt id)
      (w'.membersAt (env.cuid 0)) := by
  have hall : List.Forall₂ (fun m p' => IsMemberCopy w w' id (env.cuid 0) options.emailDomain m.1 p')
      (sourceMembers bypassing env id w.base.db)
      ((newMembers env options id w.base.db).map Prod.fst) := by
    rw [newMembers, memberCopies, List.map_map]
    refine forall₂_map_zipIdx fun q hq => ?_
    have hm := List.mem_map_of_mem (f := memberCopy env options (newSiteIds env id w.base.db)
      (env.cuid 0) (2 + 2 * (sitesOf id w.base.db).length)) hq
    have hq := List.fst_mem_of_mem_zipIdx hq
    rw [sourceMembers_eq] at hq
    obtain ⟨p, -, hqp⟩ := List.mem_map.mp hq
    refine ⟨⟨rfl, rfl, rfl, rfl⟩, q.1.2, ?_, ?_⟩
    · rw [← hqp]
      refine (env.accessOrder.perm _).trans (List.Perm.of_eq ?_)
      unfold DemoWorld.accessesOf Settings.seesClient
      simp only [bypassing_bypasses, Bool.true_or, Bool.true_and, List.filter_filter,
        Bool.and_comm]
    · rw [Function.comp_apply, h.accessesOf_new hs hm]
      unfold memberCopy
      rw [List.forall₂_map_right_iff, List.forall₂_same]
      exact fun a _ => h.isAccessCopy hs hcuid _ a
  rw [h.membersAt_new hs]
  rw [sourceMembers_eq, List.forall₂_map_left_iff] at hall
  exact hall

/-! ### Nothing points back -/

theorem not_siteOf_copied (h : Copying env ids options id existing w w') {x y : String}
    (hxy : (x, y) ∈ newSiteIds env id w.base.db) : ¬ w.base.db.SiteOf id y := by
  rintro ⟨s, hs, hid, -⟩
  exact Table.find?_eq_none.mp (h.fresh hxy) s hs hid

theorem selfContained (h : Copying env ids options id existing w w') (hs : w.Sound)
    (hcuid : ∀ n, env.cuid n ≠ "") : SelfContained w w' id := by
  constructor
  · intro s hmem hnew
    rw [← Table.mem_rows, h.site_rows] at hmem
    obtain ⟨row, hrow, rfl⟩ := List.mem_map.mp ((List.mem_append.mp hmem).resolve_left hnew)
    obtain ⟨q, hq, rfl⟩ := List.mem_map.mp hrow
    refine ⟨?_, fun y hy => ?_⟩
    · rw [linked_clientId]
      exact h.client_ne
    · obtain ⟨x, -, hxy⟩ := ((h.isSiteCopy hs hcuid hq).parent y).mp hy
      exact h.not_siteOf_copied ((h.corresponds_iff hs).mp hxy)
  · intro t hmem hnew
    obtain ⟨a, ha, hta⟩ := List.mem_flatMap.mp
      (((Table.mem_insertAll? h.assets.tags).mp hmem).resolve_left hnew)
    obtain ⟨x, y, n, source, hxy, rfl⟩ := newAsset_cases ha
    obtain ⟨t₀, -, rfl⟩ := Option.map_eq_some_iff.mp (Option.mem_toList.mp hta)
    refine ⟨fun hclient => h.client_ne (Option.some.inj hclient), fun y' hy' => ?_⟩
    obtain rfl := Option.some.inj hy'
    exact h.not_siteOf_copied hxy
  · intro a hmem hnew
    obtain ⟨item, hitem, rfl⟩ := List.mem_map.mp
      (((Table.mem_insertAll? h.assets.assets).mp hmem).resolve_left hnew)
    obtain ⟨x, y, n, source, hxy, hcopy⟩ := newAsset_cases hitem
    refine ⟨?_, ?_, fun t ht htag => ?_⟩
    · rw [hcopy]
      exact h.client_ne
    · rw [hcopy]
      exact h.not_siteOf_copied hxy
    · -- its tag is new too
      rw [newAsset_tagId hitem] at htag
      obtain ⟨t', ht', hid⟩ := Option.map_eq_some_iff.mp htag
      have hfree := (Table.insertAll?_isSome.mp (Option.isSome_of_eq_some h.assets.tags)).2 t'.id
        (List.mem_map_of_mem (List.mem_flatMap.mpr ⟨item, hitem, Option.mem_toList.mpr ht'⟩))
      exact Table.find?_eq_none.mp hfree t ht hid.symm
  · intro a hmem hnew
    rw [← Table.mem_rows, h.access_rows] at hmem
    obtain ⟨m, hm, ha⟩ := List.mem_flatMap.mp ((List.mem_append.mp hmem).resolve_left hnew)
    refine ⟨?_, ?_⟩
    · rw [((newMember_rows hm).2 a ha).2]
      exact h.client_ne
    · obtain ⟨rows, hrows, -⟩ := mem_newMembers hm
      rw [hrows] at ha
      obtain ⟨b, -, rfl⟩ := List.mem_map.mp ha
      rcases (h.isAccessCopy hs hcuid m.1.id b).site with hxy | ⟨hout, hsame⟩
      · exact h.not_siteOf_copied ((h.corresponds_iff hs).mp hxy)
      · rw [hsame]
        exact hout

end Copying

theorem copied (h : Copying env ids options id existing w w') (hs : w.Sound)
    (hcuid : ∀ n, env.cuid n ≠ "") :
    DemoCopied w w' id (env.cuid 0) options.emailDomain
      ((w.assetsAt id).filter w.atOwnSite) :=
  ⟨h.sites_copied hs hcuid, h.assets_copied hs hcuid, h.members_copied hs hcuid,
    h.selfContained hs hcuid⟩

/-! ## 3. The call goes through -/

/-- None of the ids drawn for the copy is in use. -/
structure CopyFree (env : Env) (ids : Nat → String) (options : DuplicateDemoClientDto)
    (id : String) (w : DemoWorld) : Prop where
  base : ∃ existing, Duplicable env options id w.base.db existing
  tags : w.tags.Free (((newAssets env ids id w).flatMap (·.2.toList)).map (·.id))
  assets : w.assets.Free (((newAssets env ids id w).map Prod.fst).map (·.key))

theorem newAsset_product {a : TaggedAsset} (hs : w.Sound) (ha : a ∈ newAssets env ids id w) :
    w.products.contains a.1.productId = true := by
  obtain ⟨q, hq, hcopy⟩ := List.mem_filterMap.mp ha
  obtain ⟨y, -, rfl⟩ := Option.map_eq_some_iff.mp hcopy
  have hq := List.fst_mem_of_mem_zipIdx hq
  rw [Copying.sourceAssets_eq] at hq
  obtain ⟨source, hsource, hqa⟩ := List.mem_map.mp hq
  have hproduct := hs.products source (List.mem_filter.mp hsource).1
  show w.products.contains q.1.1.productId = true
  rw [← hqa]
  exact hproduct

theorem duplicateTransaction_goes (hs : w.Sound) (hcuid : ∀ n, env.cuid n ≠ "")
    (h : CopyFree env ids options id w) :
    ∃ c w', (duplicateTransaction bypassing env ids id options).run w = (.ok c, w') := by
  obtain ⟨existing, hdup⟩ := h.base
  obtain ⟨c, b', hbase⟩ := duplicateTransaction_run hcuid hs.refs hdup
  obtain ⟨tags, htags⟩ := Option.isSome_iff_exists.mp (Table.insertAll?_isSome.mpr h.tags)
  obtain ⟨assets, hassets⟩ := Option.isSome_iff_exists.mp (Table.insertAll?_isSome.mpr h.assets)
  refine ⟨c, ⟨b', assets, tags, w.products⟩, duplicateTransaction_eq_ok.mpr
    ⟨hbase, htags, hassets, fun a ha => ?_, rfl⟩⟩
  obtain ⟨_, -, hinto⟩ := duplicateTransaction_ok hbase
  obtain ⟨_, b₁, b₂, b₃, -, hphases⟩ := base_eq_ok.mp hbase
  have hproduct := newAsset_product hs ha
  obtain ⟨x, y, n, source, hxy, rfl⟩ := Copying.newAsset_cases ha
  have hy : y ∈ (newSites env id w.base.db).map (·.id) := by
    rw [← newSiteIds_snd]
    exact List.mem_map_of_mem hxy
  have hsite : (b'.db.sites.find? y).isSome = true := by
    obtain ⟨s, hsmem, rfl⟩ := List.mem_map.mp hy
    refine Table.find?_isSome.mpr
      ⟨linked (newSiteIds env id w.base.db) (sitesOf id w.base.db) s, ?_, linked_id _ s⟩
    rw [← Table.mem_rows, hphases.site_rows]
    exact List.mem_map_of_mem (List.mem_append_right _ hsmem)
  have hclient : (b'.db.clients.find? (env.cuid 0)).isSome = true :=
    Option.isSome_of_eq_some (Table.find?_inserted hinto.clients)
  unfold DemoWorld.assetRefs
  simp only [Bool.and_eq_true]
  exact ⟨⟨hproduct, hsite⟩, hclient⟩

end Leaves

/-- Without the bypass no copy is made. -/
theorem duplicateTransaction_scoped {rls : Settings} {env : Env} {ids : Nat → String} {id : String}
    {options : DuplicateDemoClientDto} {c : Client} {w w' : DemoWorld}
    (hoff : rls.shouldBypassRls = false) :
    (duplicateTransaction rls env ids id options).run w ≠ (.ok c, w') := by
  intro h
  unfold duplicateTransaction at h
  rw [run_onBase_query_bind, bind_eq_ok] at h
  obtain ⟨existing, w₁, hlookup, h⟩ := h
  obtain ⟨hvisible, rfl⟩ := orRaise_eq_ok.mp hlookup
  obtain ⟨hfound, hsees⟩ := Option.filter_eq_some_iff.mp hvisible
  rw [run_onBase_query_bind, run_query_bind, bind_eq_ok] at h
  obtain ⟨_, w₂, hcheck, h⟩ := h
  obtain ⟨-, rfl⟩ := raiseIf_eq_ok.mp hcheck
  rw [bind_eq_ok] at h
  obtain ⟨_, w₃, hclient, -⟩ := h
  exact createClient_scoped hoff hfound hsees (onBase_eq_ok.mp hclient).1

/-- **A demo client is copied with the assets that are at its sites:** sites, those assets and
    members correspond one to one, and nothing of the copy points back. -/
theorem duplicateDemo_copied (cls : Cls) {env : Env} (ids : Nat → String) (id : String)
    (options : DuplicateDemoClientDto) {w : DemoWorld} (hcuid : ∀ n, env.cuid n ≠ "")
    (hs : w.Sound) :
    (∀ c w', (duplicateDemo cls env ids id options).run w = (.ok c, w') →
        DemoCopied w w' id c.id options.emailDomain
          ((w.assetsAt id).filter w.atOwnSite)) ∧
      (Bypasses cls env → CopyFree env ids options id w →
        ∃ c w', (duplicateDemo cls env ids id options).run w = (.ok c, w')) := by
  unfold duplicateDemo
  constructor
  · intro c w' h
    obtain ⟨rls, w₁, hbuild, h⟩ := bind_eq_ok.mp h
    have hrun := transaction_eq_ok.mp h
    by_cases hon : Bypasses cls env
    · rw [prismaBuild_bypass hon] at hbuild
      obtain ⟨hrls, rfl⟩ := Prod.mk.inj hbuild
      obtain rfl := Except.ok.inj hrls
      obtain ⟨hc, existing, hcopying⟩ := copying_of_ok hrun
      rw [hc]
      exact copied hcopying hs hcuid
    · obtain ⟨_, _, -, -, -, hoff, -⟩ :=
        prismaBuild_scoped (by simpa [Bypasses] using hon) rfl hbuild
      exact absurd hrun (duplicateTransaction_scoped hoff)
  · intro hon hfree
    obtain ⟨c, w', hrun⟩ := duplicateTransaction_goes hs hcuid hfree
    refine ⟨c, w', bind_eq_ok.mpr ⟨bypassing, w, ?_, transaction_eq_ok.mpr hrun⟩⟩
    rw [prismaBuild_bypass hon]
    rfl

/-! ## 4. An asset at a site of another client -/

def orchard : DemoWorld where
  base :=
    { db :=
        { clients := ⟨[{ id := "orchard", externalId := "x-orchard", demoMode := true },
            { id := "barn", externalId := "x-barn" }], (by decide : ["orchard", "barn"].Nodup)⟩
          sites := ⟨[{ id := "field", externalId := "x-field", createdOn := 0,
                       clientId := "orchard" },
            { id := "shed", externalId := "x-shed", createdOn := 0, parentSiteId := some "field",
              clientId := "orchard" },
            { id := "loft", externalId := "x-loft", createdOn := 0, clientId := "barn" }],
            (by decide : ["field", "shed", "loft"].Nodup)⟩
          roles := ⟨[{ id := "picker", name := "Picker" }], List.nodup_singleton _⟩
          persons := ⟨[{ id := "ola", firstName := "Ola", lastName := "O.",
                         email := "ola@orchard.org" }], List.nodup_singleton _⟩
          accesses := ⟨[{ createdOn := 0, isPrimary := true, personId := "ola",
                          clientId := "orchard", siteId := "shed", roleId := "picker" }],
            List.nodup_singleton _⟩ } }
  assets := ⟨[{ id := "pump", tagId := some "t-pump", siteId := "shed", clientId := "orchard",
                productId := "pumps" },
    { id := "ladder", siteId := "loft", clientId := "orchard", productId := "ladders" }],
    (by decide : ["pump", "ladder"].Nodup)⟩
  tags := ⟨[{ id := "t-pump", externalId := "x-pump", serialNumber := "7", siteId := some "shed",
              clientId := some "orchard" }], List.nodup_singleton _⟩
  products := ["pumps", "ladders"]

def systemAdmin : Cls where
  user := some { idpId := "idp-root", email := "root@x.org", username := "root" }
  person := some { id := "root", firstName := "R.", lastName := "O.", email := "root@x.org" }
  accessGrant := some { roleId := "root", scope := .system, capabilities := [],
                        clientId := "barn", siteId := "loft" }

def drawnIds (n : Nat) : String := "id-" ++ toString n

def orchardRun : Except ApiError Client × DemoWorld :=
  (duplicateDemo systemAdmin {} drawnIds "orchard"
    { name := "Copy", emailDomain := "demo.org" }).run orchard

theorem orchard_rows : orchardRun.1.toOption.map (·.id) = some "cuid-0" ∧
    (orchardRun.2.assetsAt "cuid-0").map (fun a => (a.id, a.siteId, a.tagId)) =
      [("id-0", "cuid-4", some "id-1")] := by
  decide +kernel

theorem orchardRun_ok : ∃ c, orchardRun = (.ok c, orchardRun.2) ∧ c.id = "cuid-0" := by
  have hid := orchard_rows.1
  cases hrun : orchardRun.1 with
  | error e =>
    rw [hrun] at hid
    exact absurd hid (by simp [Except.toOption])
  | ok c =>
    rw [hrun] at hid
    exact ⟨c, Prod.fst_eq_iff.mp hrun, Option.some.inj hid⟩

theorem orchard_sound : orchard.Sound where
  refs :=
    { accesses := by
        show ∀ a ∈ orchard.base.db.accesses.rows, _
        decide
      sites := by
        show ∀ s ∈ orchard.base.db.sites.rows, _
        decide }
  assets := by
    show ∀ a ∈ orchard.assets.rows, _
    decide
  products := by
    show ∀ a ∈ orchard.assets.rows, _
    decide
  siteIds := by
    show ∀ s ∈ orchard.base.db.sites.rows, _
    decide

/-- The ladder has no copy. -/
theorem orchard_ladder_missing : ∃ c w', orchardRun = (.ok c, w') ∧ orchard.Sound ∧
    ¬ DemoCopied orchard w' "orchard" c.id "demo.org" (orchard.assetsAt "orchard") := by
  obtain ⟨c, hrun, hid⟩ := orchardRun_ok
  refine ⟨c, orchardRun.2, hrun, orchard_sound, fun h => ?_⟩
  have hlength := h.assets.length_eq
  have hcopies := congrArg List.length orchard_rows.2
  rw [List.length_map] at hcopies
  rw [hid, hcopies] at hlength
  exact absurd hlength (by decide)

theorem drawn_ne (n : Nat) : ({} : Env).cuid n ≠ "" := by
  intro h
  have hlength : ("cuid-" ++ toString n).length = 0 := congrArg String.length h
  rw [String.length_append] at hlength
  exact absurd (Nat.eq_zero_of_add_eq_zero_right hlength) (by decide)

/-- The rest is copied: the pump is, to the copy of the shed. -/
theorem orchard_copied : DemoCopied orchard orchardRun.2 "orchard" "cuid-0" "demo.org"
    ((orchard.assetsAt "orchard").filter orchard.atOwnSite) := by
  obtain ⟨c, hrun, hid⟩ := orchardRun_ok
  have h := (duplicateDemo_copied systemAdmin drawnIds "orchard"
    { name := "Copy", emailDomain := "demo.org" } drawn_ne orchard_sound).1 c orchardRun.2 hrun
  rwa [hid] at h

end DemoCopies

end ShieldApi
