import ShieldApi.Assets.Schema
import ShieldApi.Clients.DemoClients

/-!
# Copying a demo client, with its assets

The same `duplicateDemo` with what `DemoClients` leaves out: the assets with their tags, and what
the sites are below. The copy is built in phases. Each looks up the copy of a site in a map from
the ids of the client's sites to the new ids; where the map has nothing, a parent link is left out,
**an asset is skipped**, and an access row keeps its site.

The call is the one of `DemoClients` with a loop over the assets in between
(`duplicateTransaction_eq_ok`), and each new site is below what its original is below
(`linked_of_copy`).
-/

set_option autoImplicit false

namespace ShieldApi

open Effect

/-- An asset with the columns its copy takes over. -/
structure DemoAsset extends Asset where
  name : String := ""
  active : Bool := true
  productId : String
  location : String := ""
  placement : String := ""
  serialNumber : String := ""
  deriving DecidableEq, Repr

abbrev DemoAsset.key (a : DemoAsset) : String := a.id

structure DemoWorld where
  base : World
  assets : Table DemoAsset String DemoAsset.key := ∅
  tags : Table Tag String Tag.id := ∅
  /-- The ids of the products. -/
  products : List String := []

abbrev DemoApi (α : Type) : Type := Effect DemoWorld ApiError α

/-- What the services do that know no assets. -/
def onBase {α : Type} (x : Api α) : DemoApi α := fun w =>
  ((x.run w.base).1, { w with base := (x.run w.base).2 })

/-- An asset that is created, with its tag if it gets one. -/
abbrev TaggedAsset : Type := DemoAsset × Option Tag

/-- What an asset that is created is connected to. -/
def DemoWorld.assetRefs (w : DemoWorld) (a : DemoAsset) : Bool :=
  w.products.contains a.productId && (w.base.db.sites.find? a.siteId).isSome &&
    (w.base.db.clients.find? a.clientId).isSome

/-- `asset.create`, with `tag: { create }`. -/
def createAsset (rls : Settings) (asset : TaggedAsset) : DemoApi Unit :=
  attempt fun w =>
    if rls.seesPlace asset.1.clientId asset.1.siteId && asset.2.all rls.seesTag then
      match w.tags.insertAll? asset.2.toList, w.assets.insert? asset.1 with
      | some tags, some assets =>
        if w.assetRefs asset.1 then .ok ((), { w with assets := assets, tags := tags })
        else .error .recordNotFound
      | _, _ => .error .uniqueConstraint
    else .error (.rowPolicy "Asset")

namespace DemoCopies

/-! ## 1. The call -/

def assetCopy (ids : Nat → String) (clientId siteId : String) (n : Nat) (asset : TaggedAsset) :
    TaggedAsset :=
  let tag := asset.2.map fun tag : Tag =>
    { id := ids (3 * n + 1)
      externalId := ids (3 * n + 2)
      serialNumber := tag.serialNumber
      siteId := some siteId
      clientId := some clientId }
  ({ id := ids (3 * n)
     tagId := tag.map (·.id)
     siteId := siteId
     clientId := clientId
     inspectionCycle := asset.1.inspectionCycle
     name := asset.1.name
     active := asset.1.active
     productId := asset.1.productId
     location := asset.1.location
     placement := asset.1.placement
     serialNumber := asset.1.serialNumber }, tag)

/-- The copy of an asset, if there is one of its site. -/
def placedCopy (ids : Nat → String) (map : List (String × String)) (clientId : String)
    (asset : TaggedAsset × Nat) : Option TaggedAsset :=
  (truthy (map.lookup asset.1.1.siteId)).map fun siteId =>
    assetCopy ids clientId siteId asset.2 asset.1

def duplicateAsset (rls : Settings) (ids : Nat → String) (map : List (String × String))
    (clientId : String) (asset : TaggedAsset × Nat) : DemoApi Unit :=
  match placedCopy ids map clientId asset with
  | none => pure ()
  | some copy => createAsset rls copy

/-- The assets of the client, with their tags. -/
def sourceAssets (rls : Settings) (id : String) (w : DemoWorld) : List TaggedAsset :=
  (w.assets.rows.filter fun a => rls.seesPlace a.clientId a.siteId && a.clientId = id).map fun a =>
    (a, (a.tagId.bind w.tags.find?).filter rls.seesTag)

/-- `ids` are those drawn for assets and tags. -/
def duplicateTransaction (rls : Settings) (env : Env) (ids : Nat → String) (id : String)
    (options : DuplicateDemoClientDto) : DemoApi Client := do
  let found ← onBase (query fun w => (w.db.clients.find? id).filter (rls.seesClient ·.id))
  let existingClient ← orRaise (as404OrThrow .recordNotFound) found
  let sites ← onBase (query fun w =>
    w.db.sites.rows.filter fun s => rls.seesSite s && s.clientId = id)
  let assets ← query (sourceAssets rls id)
  raiseIf (!existingClient.demoMode)
    (.badRequest "Client must be in demo mode to perform this action.")
  let duplicateClient ← onBase (createClient rls (ClientsService.clientCopy env options
    existingClient))
  let duplicateSites ← onBase (forEach (ClientsService.siteCopies env duplicateClient.id sites)
    createSite)
  let map := ClientsService.siteIdsMap sites duplicateSites
  let _ ← onBase (forEach sites (ClientsService.linkParent map))
  let _ ← forEach assets.zipIdx (duplicateAsset rls ids map duplicateClient.id)
  let members ← onBase (query fun w => ClientsService.sourceMembers rls env id w.db)
  let _ ← onBase (forEach (ClientsService.memberCopies env options map duplicateClient.id
    (2 + 2 * sites.length) members) createMember)
  pure duplicateClient

def duplicateDemo (cls : Cls) (env : Env) (ids : Nat → String) (id : String)
    (options : DuplicateDemoClientDto) : DemoApi Client := do
  let rls ← prismaBuild cls env { shouldBypassRLSAsSystemAdmin := true }
  transaction (duplicateTransaction rls env ids id options)

/-! ## 2. What the queries do -/

section Queries

variable {w w' : DemoWorld}

theorem onBase_eq_ok {α : Type} {x : Api α} {a : α} :
    (onBase x).run w = (.ok a, w') ↔
      x.run w.base = (.ok a, w'.base) ∧ w' = { w with base := w'.base } := by
  show ((x.run w.base).1, { w with base := (x.run w.base).2 }) = (.ok a, w') ↔ _
  constructor
  · intro h
    obtain ⟨hok, rfl⟩ := Prod.mk.inj h
    exact ⟨Prod.ext hok rfl, rfl⟩
  · rintro ⟨h, hw'⟩
    rw [h]
    exact Prod.ext rfl hw'.symm

@[simp] theorem run_onBase_query_bind {α β : Type} (f : World → α) (k : α → DemoApi β)
    (w : DemoWorld) : (onBase (query f) >>= k).run w = (k (f w.base)).run w := rfl

/-- The session may create the asset and its tag. -/
def Allowed (rls : Settings) (a : TaggedAsset) : Prop :=
  (rls.seesPlace a.1.clientId a.1.siteId && a.2.all rls.seesTag) = true

theorem createAsset_eq_ok {rls : Settings} {a : TaggedAsset} {u : Unit} :
    (createAsset rls a).run w = (.ok u, w') ↔
      (Allowed rls a ∧ w.assetRefs a.1 = true) ∧
        ∃ tags assets, w.tags.insertAll? a.2.toList = some tags ∧
          w.assets.insert? a.1 = some assets ∧
          w' = { w with assets := assets, tags := tags } := by
  unfold createAsset Allowed
  rw [attempt_eq_ok]
  by_cases hsees : (rls.seesPlace a.1.clientId a.1.siteId && a.2.all rls.seesTag) = true
  · rw [if_pos hsees]
    cases w.tags.insertAll? a.2.toList with
    | none => simp
    | some tags =>
      cases w.assets.insert? a.1 with
      | none => simp
      | some assets =>
        by_cases hrefs : w.assetRefs a.1 = true
        · simp [hsees, hrefs, eq_comm]
        · simp [hrefs]
  · rw [if_neg hsees]
    simp [hsees]

/-- All of them are created, or the loop throws. -/
theorem createAssets_eq_ok {rls : Settings} {as : List TaggedAsset} :
    (∃ us, (forEach as (createAsset rls)).run w = (.ok us, w')) ↔
      (∀ a ∈ as, Allowed rls a ∧ w.assetRefs a.1 = true) ∧
        ∃ tags assets, w.tags.insertAll? (as.flatMap (·.2.toList)) = some tags ∧
          w.assets.insertAll? (as.map Prod.fst) = some assets ∧
          w' = { w with assets := assets, tags := tags } := by
  induction as generalizing w with
  | nil =>
    constructor
    · rintro ⟨us, h⟩
      obtain ⟨-, rfl⟩ := Prod.mk.inj h
      exact ⟨fun _ ha => absurd ha List.not_mem_nil, _, _, rfl, rfl, rfl⟩
    · rintro ⟨-, tags, assets, htags, hassets, rfl⟩
      obtain rfl := Option.some.inj htags
      obtain rfl := Option.some.inj hassets
      exact ⟨[], rfl⟩
  | cons a as ih =>
    simp only [forEach_cons_eq_ok, createAsset_eq_ok, List.forall_mem_cons, List.flatMap_cons,
      List.map_cons, Table.insertAll?_append, Table.insertAll?, Option.bind_eq_some_iff]
    constructor
    · rintro ⟨_, u, w₁, us, ⟨ha, tags₁, assets₁, htags₁, hassets₁, rfl⟩, hrest, -⟩
      obtain ⟨hall, tags, assets, htags, hassets, rfl⟩ := ih.mp ⟨us, hrest⟩
      exact ⟨⟨ha, hall⟩, tags, assets, ⟨tags₁, htags₁, htags⟩, ⟨assets₁, hassets₁, hassets⟩, rfl⟩
    · rintro ⟨⟨ha, hall⟩, tags, assets, ⟨tags₁, htags₁, htags⟩, ⟨assets₁, hassets₁, hassets⟩, rfl⟩
      obtain ⟨us, hus⟩ := (ih (w := { w with assets := assets₁, tags := tags₁ })).mpr
        ⟨hall, tags, assets, htags, hassets, rfl⟩
      exact ⟨_, (), _, us, ⟨ha, tags₁, assets₁, htags₁, hassets₁, rfl⟩, hus, rfl⟩

end Queries

/-- What a site is below once a link has been made. -/
def linkRow (map : List (String × String)) (site row : Site) : Site :=
  match truthy (map.lookup site.id),
      truthy ((truthy site.parentSiteId).bind fun id => map.lookup id) with
  | some duplicateSiteId, some duplicateParentSiteId =>
    if row.id = duplicateSiteId then row.setParent duplicateParentSiteId else row
  | _, _ => row

/-- …and once all have. -/
def linked (map : List (String × String)) (sites : List Site) (row : Site) : Site :=
  sites.foldl (fun row site => linkRow map site row) row

theorem linkParent_rows {map : List (String × String)} {site : Site} {w w' : World} {u : Unit}
    (h : (ClientsService.linkParent map site).run w = (.ok u, w')) :
    w'.db.sites.rows = w.db.sites.rows.map (linkRow map site) := by
  unfold ClientsService.linkParent at h
  split at h
  · rename_i d p hsite hparent
    have hrow : linkRow map site = fun row => if row.id = d then row.setParent p else row := by
      funext row
      simp only [linkRow, hsite, hparent]
    obtain ⟨-, rfl⟩ := Prod.mk.inj h
    rw [hrow]
    show (w.db.sites.rows.map fun row => if decide _ then _ else row) = _
    simp only [decide_eq_true_eq]
  · rename_i hnot
    have hrow : linkRow map site = id := by
      funext row
      unfold linkRow
      split
      · rename_i d p hsite hparent
        exact (hnot d p hsite hparent).elim
      · rfl
    obtain ⟨-, rfl⟩ := Prod.mk.inj h
    rw [hrow, List.map_id]

theorem linkParents_rows {map : List (String × String)} {sites : List Site} {w w' : World}
    {us : List Unit}
    (h : (forEach sites (ClientsService.linkParent map)).run w = (.ok us, w')) :
    w'.db.sites.rows = w.db.sites.rows.map (linked map sites) := by
  induction sites generalizing w us with
  | nil =>
    obtain ⟨-, rfl⟩ := Prod.mk.inj h
    exact (List.map_id _).symm
  | cons site sites ih =>
    obtain ⟨u, w₁, us', hone, hrest, -⟩ := forEach_cons_eq_ok.mp h
    rw [ih hrest, linkParent_rows hone, List.map_map]
    rfl

/-! ## 3. The call, phase by phase -/

section Call

variable {env : Env} {ids : Nat → String} {options : DuplicateDemoClientDto} {id : String}

/-- The assets the copy consists of. -/
def newAssets (env : Env) (ids : Nat → String) (id : String) (w : DemoWorld) : List TaggedAsset :=
  (sourceAssets ClientsService.bypassing id w).zipIdx.filterMap
    (placedCopy ids (ClientsService.newSiteIds env id w.base.db) (env.cuid 0))

/-- What the call leaves of assets and tags. -/
structure AssetsCopied (env : Env) (ids : Nat → String) (id : String) (w w' : DemoWorld) :
    Prop where
  tags : w.tags.insertAll? ((newAssets env ids id w).flatMap (·.2.toList)) = some w'.tags
  assets : w.assets.insertAll? ((newAssets env ids id w).map Prod.fst) = some w'.assets
  refs : ∀ a ∈ newAssets env ids id w, w'.assetRefs a.1 = true
  products : w'.products = w.products

theorem allowed_bypassing (a : TaggedAsset) : Allowed ClientsService.bypassing a := by
  unfold Allowed Settings.seesPlace
  rw [ClientsService.bypassing_bypasses, Bool.true_or, Bool.true_and]
  cases a.2 with
  | none => rfl
  | some tag =>
    rw [Option.all_some, Settings.seesTag, ClientsService.bypassing_bypasses, Bool.true_or]

/-- The phases of a call on the base that goes through, and what it is after each. -/
structure Phases (env : Env) (options : DuplicateDemoClientDto) (id : String) (existing : Client)
    (b b₁ b₂ b₃ b' : World) : Prop where
  found : (b.db.clients.find? id).filter (ClientsService.bypassing.seesClient ·.id) = some existing
  demo : (!existing.demoMode) = false
  client : (createClient ClientsService.bypassing
    (ClientsService.clientCopy env options existing)).run b =
      (.ok (ClientsService.clientCopy env options existing), b₁)
  sites : (forEach (ClientsService.newSites env id b.db) createSite).run b₁ =
    (.ok (ClientsService.newSites env id b.db), b₂)
  links : ∃ us, (forEach (ClientsService.sitesOf id b.db)
    (ClientsService.linkParent (ClientsService.newSiteIds env id b.db))).run b₂ = (.ok us, b₃)
  members : ∃ us, (forEach (ClientsService.memberCopies env options
    (ClientsService.newSiteIds env id b.db) (env.cuid 0)
    (2 + 2 * (ClientsService.sitesOf id b.db).length)
    (ClientsService.sourceMembers ClientsService.bypassing env id b₃.db)) createMember).run b₃ =
      (.ok us, b')

theorem base_eq_ok {c : Client} {b b' : World} :
    (ClientsService.duplicateTransaction ClientsService.bypassing env id options).run b =
        (.ok c, b') ↔
      ∃ existing b₁ b₂ b₃, c = ClientsService.clientCopy env options existing ∧
        Phases env options id existing b b₁ b₂ b₃ b' := by
  unfold ClientsService.duplicateTransaction
  simp only [run_query_bind, bind_eq_ok, orRaise_eq_ok, raiseIf_eq_ok, run_pure]
  constructor
  · rintro ⟨existing, _, ⟨hfound, rfl⟩, -, _, ⟨hdemo, rfl⟩, c₁, b₁, hclient, sites, b₂, hsites,
      us, b₃, hlinks, vs, b₄, hmembers, hreturn⟩
    obtain ⟨hc, rfl⟩ := Prod.mk.inj hreturn
    obtain rfl := Except.ok.inj hc
    obtain ⟨rfl, -⟩ := createClient_eq_ok.mp hclient
    obtain ⟨rfl, -⟩ := inserts_createSite.forEach_eq_ok.mp hsites
    exact ⟨existing, b₁, b₂, b₃, rfl, hfound, hdemo, hclient, hsites, ⟨us, hlinks⟩, ⟨vs, hmembers⟩⟩
  · rintro ⟨existing, b₁, b₂, b₃, rfl, hfound, hdemo, hclient, hsites, ⟨us, hlinks⟩, vs, hmembers⟩
    exact ⟨existing, b, ⟨hfound, rfl⟩, (), b, ⟨hdemo, rfl⟩, _, b₁, hclient, _, b₂, hsites, us, b₃,
      hlinks, vs, b', hmembers, rfl⟩

/-- The members' loop touches neither sites nor clients. -/
theorem Phases.assetRefs {existing : Client} {b b₁ b₂ b₃ b' : World}
    (h : Phases env options id existing b b₁ b₂ b₃ b') {w w' : DemoWorld} (hw : w.base = b₃)
    (hw' : w'.base = b') (hproducts : w'.products = w.products) (a : DemoAsset) :
    w'.assetRefs a = w.assetRefs a := by
  obtain ⟨us, hmembers⟩ := h.members
  obtain ⟨tp, ta, -, -, hb', -⟩ := forEach_createMember_ok hmembers
  unfold DemoWorld.assetRefs
  rw [hw, hw', hproducts, hb']
  rfl

/-- The loop over the assets, once the sites are linked. -/
theorem assets_eq_ok {w w₃ w₄ : DemoWorld} (hw : w₃ = { w with base := w₃.base }) :
    (∃ us, (forEach (sourceAssets ClientsService.bypassing id w).zipIdx
        (duplicateAsset ClientsService.bypassing ids (ClientsService.newSiteIds env id w.base.db)
          (env.cuid 0))).run w₃ = (.ok us, w₄)) ↔
      (∀ a ∈ newAssets env ids id w, w₃.assetRefs a.1 = true) ∧
        ∃ tags assets, w.tags.insertAll? ((newAssets env ids id w).flatMap (·.2.toList)) =
            some tags ∧
          w.assets.insertAll? ((newAssets env ids id w).map Prod.fst) = some assets ∧
          w₄ = { w₃ with assets := assets, tags := tags } := by
  have hnone : ∀ map clientId a, placedCopy ids map clientId a = none →
      duplicateAsset ClientsService.bypassing ids map clientId a = pure () := by
    intro map clientId a h
    rw [duplicateAsset, h]
  have hsome : ∀ map clientId a b, placedCopy ids map clientId a = some b →
      duplicateAsset ClientsService.bypassing ids map clientId a =
        createAsset ClientsService.bypassing b := by
    intro map clientId a b h
    rw [duplicateAsset, h]
  rw [forEach_filterMap_eq_ok (hnone _ _) (hsome _ _), createAssets_eq_ok, hw]
  exact and_congr_left' (forall₂_congr fun a _ => and_iff_right (allowed_bypassing a))

/-- **The call is the one without assets, with the assets copied along.** -/
theorem duplicateTransaction_eq_ok {c : Client} {w w' : DemoWorld} :
    (duplicateTransaction ClientsService.bypassing env ids id options).run w = (.ok c, w') ↔
      (ClientsService.duplicateTransaction ClientsService.bypassing env id options).run w.base =
          (.ok c, w'.base) ∧
        AssetsCopied env ids id w w' := by
  unfold duplicateTransaction
  simp only [run_onBase_query_bind, run_query_bind, bind_eq_ok, onBase_eq_ok, orRaise_eq_ok,
    raiseIf_eq_ok, run_pure, base_eq_ok]
  constructor
  · rintro ⟨existing, _, ⟨hfound, rfl⟩, -, _, ⟨hdemo, rfl⟩, c₁, w₁, ⟨hclient, hw₁⟩, sites, w₂,
      ⟨hsites, hw₂⟩, us, w₃, ⟨hlinks, hw₃⟩, us', w₄, hassets, vs, w₅, ⟨hmembers, hw₅⟩, hreturn⟩
    obtain ⟨hc, rfl⟩ := Prod.mk.inj hreturn
    obtain rfl := Except.ok.inj hc
    obtain ⟨rfl, -⟩ := createClient_eq_ok.mp hclient
    obtain ⟨rfl, -⟩ := inserts_createSite.forEach_eq_ok.mp hsites
    have hbase : w₃ = { w with base := w₃.base } := by
      rw [hw₃, hw₂, hw₁]
    obtain ⟨hrefs, tags, assets, htags, hrows, rfl⟩ := (assets_eq_ok hbase).mp ⟨us', hassets⟩
    have hphases : Phases env options id existing w.base w₁.base w₂.base w₃.base w₅.base :=
      ⟨hfound, hdemo, hclient, hsites, ⟨us, hlinks⟩, vs, hmembers⟩
    refine ⟨⟨existing, _, _, _, rfl, hphases⟩, ?_, ?_, fun a ha => ?_, ?_⟩
    · rw [htags, hw₅]
    · rw [hrows, hw₅]
    · have hproducts : w₅.products = w₃.products := by rw [hw₅]
      rw [hphases.assetRefs rfl rfl hproducts]
      exact hrefs a ha
    · rw [hw₅, hbase]
  · rintro ⟨⟨existing, b₁, b₂, b₃, rfl, hphases⟩, htags, hrows, hrefs, hproducts⟩
    obtain ⟨us, hlinks⟩ := hphases.links
    obtain ⟨vs, hmembers⟩ := hphases.members
    have hrefs₃ : ∀ a ∈ newAssets env ids id w,
        DemoWorld.assetRefs { w with base := b₃ } a.1 = true := by
      intro a ha
      rw [← hphases.assetRefs (w := { w with base := b₃ }) rfl rfl hproducts]
      exact hrefs a ha
    have hbase : { w with base := b₃ } = { w with base := b₃ } := rfl
    obtain ⟨us', hassets⟩ := (assets_eq_ok hbase).mpr ⟨hrefs₃, _, _, htags, hrows, rfl⟩
    refine ⟨existing, w, ⟨hphases.found, rfl⟩, (), w, ⟨hphases.demo, rfl⟩, _, { w with base := b₁ },
      ⟨hphases.client, rfl⟩, _, { w with base := b₂ }, ⟨hphases.sites, rfl⟩, us,
      { w with base := b₃ }, ⟨hlinks, rfl⟩, us', _, hassets, vs, w', ⟨hmembers, ?_⟩, rfl⟩
    rw [← hproducts]

end Call

/-! ## 4. What the new sites are below -/

section Links

variable {map : List (String × String)}

/-- What a link does to a row. -/
theorem linkRow_cases (map : List (String × String)) (site : Site) :
    (∃ d p, map.lookup site.id = some d ∧
        truthy ((truthy site.parentSiteId).bind fun id => map.lookup id) = some p ∧
        ∀ row, linkRow map site row = if row.id = d then row.setParent p else row) ∨
      (truthy (map.lookup site.id) = none ∨
        truthy ((truthy site.parentSiteId).bind fun id => map.lookup id) = none) ∧
          ∀ row, linkRow map site row = row := by
  cases hsite : truthy (map.lookup site.id) with
  | none => exact .inr ⟨.inl rfl, fun row => by simp only [linkRow, hsite]⟩
  | some d =>
    cases hparent : truthy ((truthy site.parentSiteId).bind fun id => map.lookup id) with
    | none => exact .inr ⟨.inr rfl, fun row => by simp only [linkRow, hsite, hparent]⟩
    | some p =>
      refine .inl ⟨d, p, (truthy_eq_some.mp hsite).1, rfl, fun row => ?_⟩
      simp only [linkRow, hsite, hparent]

theorem linkRow_id (map : List (String × String)) (site row : Site) :
    (linkRow map site row).id = row.id := by
  rcases linkRow_cases map site with ⟨d, p, -, -, h⟩ | ⟨-, h⟩
  · rw [h]
    split <;> rfl
  · rw [h]

theorem linkRow_clientId (map : List (String × String)) (site row : Site) :
    (linkRow map site row).clientId = row.clientId := by
  rcases linkRow_cases map site with ⟨d, p, -, -, h⟩ | ⟨-, h⟩
  · rw [h]
    split <;> rfl
  · rw [h]

/-- A link changes the row it is of. -/
theorem linkRow_of_ne {site row : Site} (hne : map.lookup site.id ≠ some row.id) :
    linkRow map site row = row := by
  rcases linkRow_cases map site with ⟨d, p, hd, -, h⟩ | ⟨-, h⟩
  · rw [h]
    apply if_neg
    intro hid
    exact hne (hid ▸ hd)
  · exact h row

/-- To make a link twice is to make it once. -/
theorem linkRow_linkRow (site row : Site) :
    linkRow map site (linkRow map site row) = linkRow map site row := by
  rcases linkRow_cases map site with ⟨d, p, -, -, h⟩ | ⟨-, h⟩
  · rw [h row]
    by_cases hid : row.id = d
    · rw [if_pos hid, h, Site.id_setParent, if_pos hid]
      rfl
    · rw [if_neg hid, h, if_neg hid]
  · rw [h, h]

theorem linked_id (sites : List Site) (row : Site) : (linked map sites row).id = row.id := by
  unfold linked
  induction sites generalizing row with
  | nil => rfl
  | cons site sites ih => exact (ih _).trans (linkRow_id map site row)

theorem linked_clientId (sites : List Site) (row : Site) :
    (linked map sites row).clientId = row.clientId := by
  unfold linked
  induction sites generalizing row with
  | nil => rfl
  | cons site sites ih => exact (ih _).trans (linkRow_clientId map site row)

/-- A row that is no copy stays as it is. -/
theorem linked_of_ne {sites : List Site} {row : Site}
    (h : ∀ site ∈ sites, map.lookup site.id ≠ some row.id) : linked map sites row = row := by
  unfold linked
  induction sites with
  | nil => rfl
  | cons site sites ih =>
    rw [List.foldl_cons, linkRow_of_ne (h site (List.mem_cons_self ..))]
    exact ih fun other ho => h other (List.mem_cons_of_mem _ ho)

/-- The copy of a site gets its link from that site only. -/
theorem linked_of_copy {sites : List Site} {s row : Site} (hs : s ∈ sites)
    (h : ∀ site ∈ sites, map.lookup site.id = some row.id → site = s) :
    linked map sites row = linkRow map s row := by
  have hgone : ∀ sites : List Site, (∀ site ∈ sites, map.lookup site.id = some row.id → site = s) →
      linked map sites (linkRow map s row) = linkRow map s row := by
    intro sites h
    unfold linked
    induction sites with
    | nil => rfl
    | cons site sites ih =>
      have hstep : linkRow map site (linkRow map s row) = linkRow map s row := by
        by_cases hsite : map.lookup site.id = some row.id
        · rw [h site (List.mem_cons_self ..) hsite]
          exact linkRow_linkRow s row
        · apply linkRow_of_ne
          rw [linkRow_id]
          exact hsite
      rw [List.foldl_cons, hstep]
      exact ih fun other ho => h other (List.mem_cons_of_mem _ ho)
  induction sites with
  | nil => exact absurd hs List.not_mem_nil
  | cons site sites ih =>
    have hrest := fun other ho => h other (List.mem_cons_of_mem _ ho)
    show linked map sites (linkRow map site row) = _
    by_cases hsite : site = s
    · rw [hsite]
      exact hgone sites hrest
    · rw [linkRow_of_ne fun hl => hsite (h site (List.mem_cons_self ..) hl)]
      exact ih ((List.mem_cons.mp hs).resolve_left (Ne.symm hsite)) hrest

end Links

end DemoCopies

end ShieldApi
