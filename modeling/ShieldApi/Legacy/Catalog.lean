import ShieldApi.Legacy.Models

/-!
# Categories, manufacturers, tags and products

`getOrMigrateProductCategory`, `getOrMigrateManufacturer` and `getOrMigrateTag` look a row up by the
external id of a legacy row, or else by a name or a serial number, before they create it.
`getOrMigrateProduct` goes by way of the first two.

**What has been looked up is done with**: the same lookup finds the same row and writes nothing,
however many other rows are migrated in between (`Done.runOption`, since lookups for different
external ids are apart). And where no product comes of an asset, none ever does
(`Skipped.getOrMigrateProduct`).
-/

set_option autoImplicit false

namespace ShieldApi

open GetOrCreate

namespace LegacyMigrationService

variable (legacy : LegacyDb) (legacyClient : LegacyModels.Client) (newClient : ClientBasic)
  -- `mode: 'insensitive'`, of a value and what it is to equal
  (equalsInsensitive : String → String → Bool)

/-! ## 1. Categories and manufacturers -/

/-- Rows of the client that is migrated become the new client's, others are everybody's. -/
def ownerOf (no : Option Int) : Option String :=
  if (truthyNumber no).any fun n => 1 < n && n = legacyClient.c_no then some newClient.id else none

theorem ownerOf_eq (no : Option Int) :
    ownerOf legacyClient newClient no = none ∨
      ownerOf legacyClient newClient no = some newClient.id := by
  unfold ownerOf
  split
  · exact .inr rfl
  · exact .inl rfl

def productCategoryLookup (c : LegacyModels.Category) (cat_id : String) :
    GetOrCreate ProductCategoryBasic ProductCategoryBasic.id where
  candidate r := (r.clientId = none || r.clientId = some newClient.id) &&
    (r.legacyCategoryId = some cat_id ||
      r.shortName.any (equalsInsensitive · ((c.cat_nic.map trim).getD "")))
  exact r := r.legacyCategoryId = some cat_id
  settled r := r.legacyCategoryId.isSome
  new id :=
    { id
      legacyCategoryId := some cat_id
      name := c.cat_name.getD "Unknown"
      shortName := some (c.cat_nic.getD "")
      clientId := ownerOf legacyClient newClient c.cat_c_no }
  settle r := { r with legacyCategoryId := some cat_id }
  key_new _ := rfl
  key_settle _ := rfl
  new_found _ := by
    rcases ownerOf_eq legacyClient newClient c.cat_c_no with h | h <;> simp [h]
  settle_found r h := by
    rw [Bool.and_eq_true] at h
    simp [h.1]

/-- By the number of the legacy category, if there is one with an external id. -/
def productCategoryOf (no : Int) :
    Option (GetOrCreate ProductCategoryBasic ProductCategoryBasic.id) := do
  let c ← legacy.category.find? (·.cat_no = no)
  let cat_id ← truthyString c.cat_id
  return productCategoryLookup legacyClient newClient equalsInsensitive c cat_id

def getOrMigrateProductCategory (ids : FreshIds) (legacyProductCategoryNo : Int)
    (t : Table ProductCategoryBasic String ProductCategoryBasic.id) :
    Table ProductCategoryBasic String ProductCategoryBasic.id × Option ProductCategoryBasic :=
  runOption
    (productCategoryOf legacy legacyClient newClient equalsInsensitive legacyProductCategoryNo) ids t

def manufacturerLookup (m : LegacyModels.Manufacturer) (mfg_id : String) :
    GetOrCreate ManufacturerBasic ManufacturerBasic.id where
  candidate r := r.legacyManufacturerId = some mfg_id ||
    equalsInsensitive r.name (m.mfg_name.getD "")
  exact r := r.legacyManufacturerId = some mfg_id
  settled r := r.legacyManufacturerId.isSome
  new id :=
    { id
      legacyManufacturerId := some mfg_id
      name := m.mfg_name.getD "Unknown"
      clientId := ownerOf legacyClient newClient m.mfg_c_no }
  settle r := { r with legacyManufacturerId := some mfg_id }
  key_new _ := rfl
  key_settle _ := rfl
  new_found _ := by simp
  settle_found _ _ := by simp

def manufacturerOf (no : Int) : Option (GetOrCreate ManufacturerBasic ManufacturerBasic.id) := do
  let m ← legacy.manufacturers.find? (·.mfg_no = no)
  let mfg_id ← truthyString m.mfg_id
  return manufacturerLookup legacyClient newClient equalsInsensitive m mfg_id

def getOrMigrateManufacturer (ids : FreshIds) (legacyManufacturerNo : Int)
    (t : Table ManufacturerBasic String ManufacturerBasic.id) :
    Table ManufacturerBasic String ManufacturerBasic.id × Option ManufacturerBasic :=
  runOption
    (manufacturerOf legacy legacyClient newClient equalsInsensitive legacyManufacturerNo) ids t

/-! ## 2. Tags -/

/-- Only tags that are nobody's yet, or the site's, are candidates. -/
def tagLookup (newSite : SiteBasic) (t_id serialNumber : String) :
    GetOrCreate TagBasic TagBasic.id where
  candidate r := (r.legacyTagId = some t_id || r.serialNumber = serialNumber) &&
    ((r.clientId = none || r.clientId = some newSite.clientId) &&
      (r.siteId = none || r.siteId = some newSite.id))
  exact r := r.legacyTagId = some t_id
  settled r := r.clientId.isSome && r.siteId.isSome
  new id :=
    { id
      legacyTagId := some t_id
      serialNumber
      clientId := some newSite.clientId
      siteId := some newSite.id }
  settle r := { r with clientId := some newSite.clientId, siteId := some newSite.id }
  key_new _ := rfl
  key_settle _ := rfl
  new_found _ := by simp
  settle_found r h := by
    rw [Bool.and_eq_true] at h
    simp [h.1]

def tagOf (newSite : SiteBasic) (no : Int) : Option (GetOrCreate TagBasic TagBasic.id) := do
  let tag ← legacy.tags.find? (·.t_no = no)
  let t_serial ← tag.t_serial
  let t_id ← truthyString tag.t_id
  return tagLookup newSite t_id (padStart (toString t_serial) 7 '0')

def getOrMigrateTag (ids : FreshIds) (legacyTagNo : Int) (newSite : SiteBasic)
    (t : Table TagBasic String TagBasic.id) :
    Table TagBasic String TagBasic.id × Option TagBasic :=
  runOption (tagOf legacy newSite legacyTagNo) ids t

/-! ## 3. Products -/

/-- What a product is made from: a legacy product or, if there is none, a legacy category. -/
inductive ProductSource
  | none
  | product (p : LegacyModels.Product)
  | category (c : LegacyModels.Category)

/-- The rows are there and have external ids, and the product is no consumable. -/
def productSource (legacyProductNo legacyProductCategoryNo : Option Int) : ProductSource :=
  match truthyNumber legacyProductNo with
  | some no =>
    match legacy.products.find? (·.p_no = no) with
    | some p => if (truthyString p.p_id).isSome && p.p_type ≠ some 2 then .product p else .none
    | none => .none
  | none =>
    match (truthyNumber legacyProductCategoryNo).bind fun no =>
        legacy.category.find? (·.cat_no = no) with
    | some c => if (truthyString c.cat_id).isSome then .category c else .none
    | none => .none

/-- A product with the name it would have, made by the manufacturer and in the category. -/
def migrateProduct (ids : FreshIds) (p : LegacyModels.Product) (category : ProductCategoryBasic)
    (manufacturer : ManufacturerBasic) (t : Table ProductBasic String ProductBasic.id) :
    Table ProductBasic String ProductBasic.id × ProductBasic :=
  match t.rows.find? fun r =>
      equalsInsensitive r.name ((p.p_name.map trim).getD "") &&
        r.manufacturerId = manufacturer.id && r.productCategoryId = category.id with
  | some r =>
    let updated (r : ProductBasic) : ProductBasic :=
      { r with
        legacyProductId := p.p_id
        manufacturerId := manufacturer.id
        productCategoryId := category.id }
    (t.updateMany (·.id = r.id) updated fun _ => rfl, updated r)
  | none =>
    t.create ids
      (fun id =>
        { id
          legacyProductId := p.p_id
          name := p.p_name.getD ("#" ++ toString p.p_no)
          productCategoryId := category.id
          manufacturerId := manufacturer.id })
      fun _ => rfl

def getOrMigrateLegacyProduct (ids : FreshIds) (p : LegacyModels.Product) (catalog : Catalog) :
    Catalog × Option ProductBasic :=
  match catalog.products.rows.find? (·.legacyProductId = p.p_id) with
  | some product => (catalog, some product)
  | none =>
    match truthyNumber p.p_cat_no, truthyNumber p.p_mfg_no with
    | some p_cat_no, some p_mfg_no =>
      let (categories, category) := getOrMigrateProductCategory legacy legacyClient newClient
        equalsInsensitive ids p_cat_no catalog.categories
      let (manufacturers, manufacturer) := getOrMigrateManufacturer legacy legacyClient newClient
        equalsInsensitive ids p_mfg_no catalog.manufacturers
      let catalog := { catalog with categories, manufacturers }
      match category, manufacturer with
      | some category, some manufacturer =>
        let (products, product) :=
          migrateProduct equalsInsensitive ids p category manufacturer catalog.products
        ({ catalog with products }, some product)
      | _, _ => (catalog, none)
    | _, _ => (catalog, none)

/-- The generic product of a category, with a manufacturer of its own. -/
def getOrMigrateGenericProduct (ids : FreshIds) (c : LegacyModels.Category) (catalog : Catalog) :
    Catalog × Option ProductBasic :=
  let (categories, category) := getOrMigrateProductCategory legacy legacyClient newClient
    equalsInsensitive ids c.cat_no catalog.categories
  let catalog := { catalog with categories }
  match category.filter fun category => trim category.name ≠ "" with
  | none => (catalog, none)
  | some category =>
    let genericCategoryPrefix := "#" ++ toString c.cat_no ++ " " ++ trim category.name
    let genericProductName := genericCategoryPrefix ++ " Asset"
    match catalog.products.rows.find? fun r =>
        r.name = genericProductName && r.productCategoryId = category.id &&
          r.clientId = some newClient.id with
    | some product => (catalog, some product)
    | none =>
      let (manufacturers, manufacturer) := catalog.manufacturers.create ids
        (fun id =>
          { id
            legacyManufacturerId := none
            name := genericCategoryPrefix ++ " Manufacturer"
            clientId := some newClient.id })
        fun _ => rfl
      let (products, product) := catalog.products.create ids
        (fun id =>
          { id
            legacyProductId := none
            name := genericProductName
            productCategoryId := category.id
            manufacturerId := manufacturer.id
            clientId := some newClient.id })
        fun _ => rfl
      ({ catalog with manufacturers, products }, some product)

def getOrMigrateProduct (ids : FreshIds) (source : ProductSource) (catalog : Catalog) :
    Catalog × Option ProductBasic :=
  match source with
  | .none => (catalog, none)
  | .product p =>
    getOrMigrateLegacyProduct legacy legacyClient newClient equalsInsensitive ids p catalog
  | .category c =>
    getOrMigrateGenericProduct legacy legacyClient newClient equalsInsensitive ids c catalog

/-! ## 4. Lookups for different external ids are apart -/

variable {legacy legacyClient newClient equalsInsensitive}

theorem productCategoryLookup_apart {c c' : LegacyModels.Category} {cat_id cat_id' : String}
    (h : cat_id' ≠ cat_id) :
    (productCategoryLookup legacyClient newClient equalsInsensitive c cat_id).Apart
      (productCategoryLookup legacyClient newClient equalsInsensitive c' cat_id') where
  new _ _ := by simpa [productCategoryLookup] using h
  settled _ _ hsettled := hsettled
  settle r _ _ hr := by
    simp only [productCategoryLookup, Bool.and_eq_true, Bool.or_eq_true, decide_eq_true_eq,
      Option.some.injEq, h, false_or] at hr ⊢
    exact ⟨⟨hr.1, .inr hr.2⟩, False.elim⟩

theorem manufacturerLookup_apart {m m' : LegacyModels.Manufacturer} {mfg_id mfg_id' : String}
    (h : mfg_id' ≠ mfg_id) :
    (manufacturerLookup legacyClient newClient equalsInsensitive m mfg_id).Apart
      (manufacturerLookup legacyClient newClient equalsInsensitive m' mfg_id') where
  new _ _ := by simpa [manufacturerLookup] using h
  settled _ _ hsettled := hsettled
  settle r _ _ hr := by
    simp only [manufacturerLookup, Bool.or_eq_true, decide_eq_true_eq, Option.some.injEq, h,
      false_or] at hr ⊢
    exact ⟨.inr hr, False.elim⟩

/-- For one tag, they are apart if they are for different sites. -/
theorem tagLookup_apart {newSite newSite' : SiteBasic} {t_id t_id' serial serial' : String}
    (h : t_id' = t_id → newSite'.clientId = newSite.clientId → newSite'.id ≠ newSite.id) :
    (tagLookup newSite t_id serial).Apart (tagLookup newSite' t_id' serial') where
  new id hr := by
    simp only [tagLookup, Bool.and_eq_true, decide_eq_true_eq, Bool.or_eq_true, Option.some.injEq,
      reduceCtorEq, false_or, decide_false, Bool.false_eq_true] at hr
    simp only [tagLookup, decide_eq_false_iff_not, Option.some.injEq]
    exact fun ht => h ht hr.2.1 hr.2.2
  settled _ _ hsettled := hsettled
  settle r hr' _ hr := by
    simp only [tagLookup, Bool.and_eq_true, decide_eq_true_eq, Bool.or_eq_true, Option.some.injEq,
      reduceCtorEq, false_or, decide_false, Bool.false_eq_true] at hr hr' ⊢
    rw [hr.2.1, hr.2.2] at hr'
    exact ⟨⟨hr.1, hr'.2⟩, fun h => h⟩

theorem productCategoryOf_apart {no no' : Int} :
    ∀ op ∈ productCategoryOf legacy legacyClient newClient equalsInsensitive no,
      ∀ op' ∈ productCategoryOf legacy legacyClient newClient equalsInsensitive no',
        op = op' ∨ op.Apart op' := by
  intro op hop op' hop'
  simp only [productCategoryOf, Option.mem_def, Option.bind_eq_bind, Option.bind_eq_some_iff,
    Option.pure_def, Option.some.injEq, truthyString_eq_some] at hop hop'
  obtain ⟨c, hc, cat_id, ⟨hid, -⟩, rfl⟩ := hop
  obtain ⟨c', hc', cat_id', ⟨hid', -⟩, rfl⟩ := hop'
  by_cases hsame : cat_id' = cat_id
  · subst hsame
    have hrow := legacy.categoryIds.eq_of_id_eq (List.mem_of_find?_eq_some hc)
      (List.mem_of_find?_eq_some hc') hid hid'
    exact .inl (by rw [hrow])
  · exact .inr (productCategoryLookup_apart hsame)

theorem manufacturerOf_apart {no no' : Int} :
    ∀ op ∈ manufacturerOf legacy legacyClient newClient equalsInsensitive no,
      ∀ op' ∈ manufacturerOf legacy legacyClient newClient equalsInsensitive no',
        op = op' ∨ op.Apart op' := by
  intro op hop op' hop'
  simp only [manufacturerOf, Option.mem_def, Option.bind_eq_bind, Option.bind_eq_some_iff,
    Option.pure_def, Option.some.injEq, truthyString_eq_some] at hop hop'
  obtain ⟨m, hm, mfg_id, ⟨hid, -⟩, rfl⟩ := hop
  obtain ⟨m', hm', mfg_id', ⟨hid', -⟩, rfl⟩ := hop'
  by_cases hsame : mfg_id' = mfg_id
  · subst hsame
    have hrow := legacy.manufacturerIds.eq_of_id_eq (List.mem_of_find?_eq_some hm)
      (List.mem_of_find?_eq_some hm') hid hid'
    exact .inl (by rw [hrow])
  · exact .inr (manufacturerLookup_apart hsame)

theorem tagOf_apart {newSite newSite' : SiteBasic} {no no' : Int} :
    ∀ op ∈ tagOf legacy newSite no, ∀ op' ∈ tagOf legacy newSite' no',
      op = op' ∨ op.Apart op' := by
  intro op hop op' hop'
  simp only [tagOf, Option.mem_def, Option.bind_eq_bind, Option.bind_eq_some_iff, Option.pure_def,
    Option.some.injEq, truthyString_eq_some] at hop hop'
  obtain ⟨tag, htag, serial, hserial, t_id, ⟨hid, -⟩, rfl⟩ := hop
  obtain ⟨tag', htag', serial', hserial', t_id', ⟨hid', -⟩, rfl⟩ := hop'
  by_cases hsame : t_id' = t_id ∧ newSite'.clientId = newSite.clientId ∧ newSite'.id = newSite.id
  · obtain ⟨rfl, hclient, hsite⟩ := hsame
    have hrow := legacy.tagIds.eq_of_id_eq (List.mem_of_find?_eq_some htag)
      (List.mem_of_find?_eq_some htag') hid hid'
    rw [hrow, hserial'] at hserial
    refine .inl ?_
    simp only [tagLookup, hclient, hsite, Option.some.inj hserial]
  · exact .inr (tagLookup_apart fun ht hclient hsite => hsame ⟨ht, hclient, hsite⟩)

/-! ## 5. What a product comes to -/

section

variable (legacy legacyClient newClient equalsInsensitive) in
/-- The ways on: the catalog after it, and the product, if there is one. -/
inductive ProductOutcome (ids : FreshIds) (catalog : Catalog) :
    ProductSource → Catalog → Option ProductBasic → Prop
  | nothing : ProductOutcome ids catalog .none catalog none
  /-- The product has been migrated before. -/
  | found {p : LegacyModels.Product} (product : ProductBasic) :
      ProductOutcome ids catalog (.product p) catalog (some product)
  /-- It has no category or no manufacturer. -/
  | unnumbered {p : LegacyModels.Product}
      (new : ∀ r ∈ catalog.products, r.legacyProductId ≠ p.p_id)
      (missing : truthyNumber p.p_cat_no = none ∨ truthyNumber p.p_mfg_no = none) :
      ProductOutcome ids catalog (.product p) catalog none
  /-- Both are looked up before it turns out that one cannot be migrated. -/
  | missing {p : LegacyModels.Product} {p_cat_no p_mfg_no : Int}
      (new : ∀ r ∈ catalog.products, r.legacyProductId ≠ p.p_id)
      (category : truthyNumber p.p_cat_no = some p_cat_no)
      (manufacturer : truthyNumber p.p_mfg_no = some p_mfg_no)
      (missing : (getOrMigrateProductCategory legacy legacyClient newClient equalsInsensitive ids
          p_cat_no catalog.categories).2 = none ∨
        (getOrMigrateManufacturer legacy legacyClient newClient equalsInsensitive ids
          p_mfg_no catalog.manufacturers).2 = none) :
      ProductOutcome ids catalog (.product p)
        { catalog with
          categories := (getOrMigrateProductCategory legacy legacyClient newClient
            equalsInsensitive ids p_cat_no catalog.categories).1
          manufacturers := (getOrMigrateManufacturer legacy legacyClient newClient
            equalsInsensitive ids p_mfg_no catalog.manufacturers).1 } none
  | migrated {p : LegacyModels.Product} (p_cat_no p_mfg_no : Int)
      (category : ProductCategoryBasic) (manufacturer : ManufacturerBasic) :
      ProductOutcome ids catalog (.product p)
        { catalog with
          categories := (getOrMigrateProductCategory legacy legacyClient newClient
            equalsInsensitive ids p_cat_no catalog.categories).1
          manufacturers := (getOrMigrateManufacturer legacy legacyClient newClient
            equalsInsensitive ids p_mfg_no catalog.manufacturers).1
          products := (migrateProduct equalsInsensitive ids p category manufacturer
            catalog.products).1 }
        (some (migrateProduct equalsInsensitive ids p category manufacturer catalog.products).2)
  /-- The category cannot be migrated, or has no name to call the product by. -/
  | nameless {c : LegacyModels.Category}
      (nameless : ((getOrMigrateProductCategory legacy legacyClient newClient equalsInsensitive
        ids c.cat_no catalog.categories).2.filter fun category => trim category.name ≠ "") = none) :
      ProductOutcome ids catalog (.category c)
        { catalog with
          categories := (getOrMigrateProductCategory legacy legacyClient newClient
            equalsInsensitive ids c.cat_no catalog.categories).1 } none
  | generic {c : LegacyModels.Category} (product : ProductBasic) :
      ProductOutcome ids catalog (.category c)
        { catalog with
          categories := (getOrMigrateProductCategory legacy legacyClient newClient
            equalsInsensitive ids c.cat_no catalog.categories).1 } (some product)
  /-- The generic product of a category, and its manufacturer, have no external ids. -/
  | created {c : LegacyModels.Category}
      {manufacturers : Table ManufacturerBasic String ManufacturerBasic.id}
      {products : Table ProductBasic String ProductBasic.id}
      (manufacturer : ManufacturerBasic) (product : ProductBasic)
      (makes : manufacturers.rows = catalog.manufacturers.rows ++ [manufacturer])
      (maker : manufacturer.legacyManufacturerId = none)
      (adds : products.rows = catalog.products.rows ++ [product])
      (added : product.legacyProductId = none) :
      ProductOutcome ids catalog (.category c)
        { categories := (getOrMigrateProductCategory legacy legacyClient newClient
            equalsInsensitive ids c.cat_no catalog.categories).1
          manufacturers
          products } (some product)

variable {ids : FreshIds} {source : ProductSource} {catalog catalog' : Catalog}
  {product? : Option ProductBasic}

variable (legacy legacyClient newClient equalsInsensitive ids source catalog) in
theorem getOrMigrateProduct_outcome :
    ProductOutcome legacy legacyClient newClient equalsInsensitive ids catalog source
      (getOrMigrateProduct legacy legacyClient newClient equalsInsensitive ids source catalog).1
      (getOrMigrateProduct legacy legacyClient newClient equalsInsensitive ids source
        catalog).2 := by
  cases source with
  | none => exact .nothing
  | product p =>
    unfold getOrMigrateProduct getOrMigrateLegacyProduct
    cases hfound : catalog.products.rows.find? (·.legacyProductId = p.p_id) with
    | some product =>
      simp only [hfound]
      exact .found product
    | none =>
      have hnew : ∀ r ∈ catalog.products, r.legacyProductId ≠ p.p_id := fun r hr heq =>
        List.find?_eq_none.mp hfound r hr (decide_eq_true heq)
      cases hcategory : truthyNumber p.p_cat_no with
      | none =>
        simp only [hfound, hcategory]
        exact .unnumbered hnew (.inl hcategory)
      | some p_cat_no =>
        cases hmanufacturer : truthyNumber p.p_mfg_no with
        | none =>
          simp only [hfound, hcategory, hmanufacturer]
          exact .unnumbered hnew (.inr hmanufacturer)
        | some p_mfg_no =>
          simp only [hfound, hcategory, hmanufacturer]
          split
          · exact .migrated p_cat_no p_mfg_no _ _
          · rename_i hnot
            refine .missing hnew hcategory hmanufacturer ?_
            by_contra hboth
            obtain ⟨hc, hm⟩ := not_or.mp hboth
            obtain ⟨category, hc⟩ := Option.ne_none_iff_exists'.mp hc
            obtain ⟨manufacturer, hm⟩ := Option.ne_none_iff_exists'.mp hm
            exact hnot category manufacturer hc hm
  | category c =>
    unfold getOrMigrateProduct getOrMigrateGenericProduct
    dsimp only
    split
    · rename_i hnameless
      exact .nameless hnameless
    · split
      · exact .generic _
      · exact .created _ _ (Table.rows_create _ _ _ _) rfl (Table.rows_create _ _ _ _) rfl

theorem ProductOutcome.done_productCategory {no : Int} {result : Option ProductCategoryBasic}
    (hout : ProductOutcome legacy legacyClient newClient equalsInsensitive ids catalog source
      catalog' product?)
    (h : Done (productCategoryOf legacy legacyClient newClient equalsInsensitive no)
      catalog.categories.rows result) :
    Done (productCategoryOf legacy legacyClient newClient equalsInsensitive no)
      catalog'.categories.rows result := by
  cases hout with
  | nothing | found | unnumbered => exact h
  | missing | migrated | nameless | generic | created =>
    exact h.runOption productCategoryOf_apart ids

theorem ProductOutcome.done_manufacturer {no : Int} {result : Option ManufacturerBasic}
    (hout : ProductOutcome legacy legacyClient newClient equalsInsensitive ids catalog source
      catalog' product?)
    (h : Done (manufacturerOf legacy legacyClient newClient equalsInsensitive no)
      catalog.manufacturers.rows result) :
    Done (manufacturerOf legacy legacyClient newClient equalsInsensitive no)
      catalog'.manufacturers.rows result := by
  cases hout with
  | nothing | found | unnumbered | nameless | generic => exact h
  | missing | migrated => exact h.runOption manufacturerOf_apart ids
  | created manufacturer product makes maker adds added =>
    show Done _ (Table.rows _) _
    rw [makes]
    apply h.append
    intro op hop
    simp only [manufacturerOf, Option.mem_def, Option.bind_eq_bind, Option.bind_eq_some_iff,
      Option.pure_def, Option.some.injEq] at hop
    obtain ⟨m, -, mfg_id, -, rfl⟩ := hop
    simp [manufacturerLookup, maker]

theorem legacyProductId_migrateProduct {p : LegacyModels.Product}
    {category : ProductCategoryBasic} {manufacturer : ManufacturerBasic}
    {t : Table ProductBasic String ProductBasic.id} {r : ProductBasic}
    (h : r ∈ (migrateProduct equalsInsensitive ids p category manufacturer t).1) :
    r ∈ t ∨ r.legacyProductId = p.p_id := by
  unfold migrateProduct at h
  split at h
  · obtain ⟨x, hx, hxr⟩ := List.mem_map.mp h
    split at hxr
    · exact .inr (by rw [← hxr])
    · exact .inl (hxr ▸ hx)
  · rcases List.mem_append.mp h with h | h
    · exact .inl h
    · exact .inr (by rw [List.mem_singleton.mp h])

/-- A product that was not there has the external id that was migrated, or none. -/
theorem ProductOutcome.legacyProductId {r : ProductBasic}
    (hout : ProductOutcome legacy legacyClient newClient equalsInsensitive ids catalog source
      catalog' product?)
    (h : r ∈ catalog'.products) :
    r ∈ catalog.products ∨ r.legacyProductId = none ∨
      ∃ p, source = .product p ∧ r.legacyProductId = p.p_id := by
  cases hout with
  | nothing | found | unnumbered | missing | nameless | generic => exact .inl h
  | migrated => exact (legacyProductId_migrateProduct h).imp_right fun h => .inr ⟨_, rfl, h⟩
  | created manufacturer product makes maker adds added =>
    rw [← Table.mem_rows, adds] at h
    rcases List.mem_append.mp h with h | h
    · exact .inl h
    · rw [List.mem_singleton.mp h]
      exact .inr (.inl added)

end

/-! ## 6. Where no product comes of it -/

variable (legacy legacyClient newClient equalsInsensitive) in
/-- There is no product, and nothing left to create or to update on the way to see that. -/
def Skipped (source : ProductSource) (catalog : Catalog) : Prop :=
  match source with
  | .none => True
  | .product p =>
    (∀ r ∈ catalog.products, r.legacyProductId ≠ p.p_id) ∧
      ∀ p_cat_no ∈ truthyNumber p.p_cat_no, ∀ p_mfg_no ∈ truthyNumber p.p_mfg_no,
        ∃ category manufacturer,
          Done (productCategoryOf legacy legacyClient newClient equalsInsensitive p_cat_no)
            catalog.categories.rows category ∧
          Done (manufacturerOf legacy legacyClient newClient equalsInsensitive p_mfg_no)
            catalog.manufacturers.rows manufacturer ∧
          (category = none ∨ manufacturer = none)
  | .category c =>
    ∃ category, Done (productCategoryOf legacy legacyClient newClient equalsInsensitive c.cat_no)
      catalog.categories.rows category ∧
        (category.filter fun category => trim category.name ≠ "") = none

section

variable {ids : FreshIds} {source source' : ProductSource} {catalog catalog' : Catalog}

theorem ProductOutcome.skipped
    (hout : ProductOutcome legacy legacyClient newClient equalsInsensitive ids catalog source
      catalog' none) :
    Skipped legacy legacyClient newClient equalsInsensitive source catalog' := by
  cases hout with
  | nothing => trivial
  | unnumbered new missing =>
    refine ⟨new, fun no hcategory no' hmanufacturer => ?_⟩
    rcases missing with hnone | hnone
    · exact absurd (hnone.symm.trans hcategory) (by simp)
    · exact absurd (hnone.symm.trans hmanufacturer) (by simp)
  | missing new category manufacturer missing =>
    refine ⟨new, fun no hcategory no' hmanufacturer => ?_⟩
    obtain rfl := Option.some.inj (category.symm.trans hcategory)
    obtain rfl := Option.some.inj (manufacturer.symm.trans hmanufacturer)
    exact ⟨_, _, done_runOption _ ids _, done_runOption _ ids _, missing⟩
  | nameless nameless => exact ⟨_, done_runOption _ ids _, nameless⟩

theorem getOrMigrateProduct_of_skipped
    (h : Skipped legacy legacyClient newClient equalsInsensitive source catalog) :
    getOrMigrateProduct legacy legacyClient newClient equalsInsensitive ids source catalog =
      (catalog, none) := by
  cases source with
  | none => rfl
  | product p =>
    obtain ⟨hno, hlookups⟩ := h
    have hfound : catalog.products.rows.find? (·.legacyProductId = p.p_id) = none :=
      List.find?_eq_none.mpr fun r hr heq => hno r hr (of_decide_eq_true heq)
    unfold getOrMigrateProduct getOrMigrateLegacyProduct
    simp only [hfound]
    cases hcategory : truthyNumber p.p_cat_no with
    | none => rfl
    | some p_cat_no =>
      cases hmanufacturer : truthyNumber p.p_mfg_no with
      | none => rfl
      | some p_mfg_no =>
        obtain ⟨category, manufacturer, hc, hm, hnone⟩ :=
          hlookups p_cat_no hcategory p_mfg_no hmanufacturer
        unfold getOrMigrateProductCategory getOrMigrateManufacturer
        simp only [runOption_of_done hc, runOption_of_done hm]
        rcases hnone with rfl | rfl
        · rfl
        · cases category <;> rfl
  | category c =>
    obtain ⟨category, hc, hblank⟩ := h
    unfold getOrMigrateProduct getOrMigrateGenericProduct getOrMigrateProductCategory
    simp only [runOption_of_done hc, hblank]

/-- The rows the source is made of are in the legacy database, and a product has an external id. -/
def ProductSource.Of (legacy : LegacyDb) : ProductSource → Prop
  | .product p => p ∈ legacy.products ∧ p.p_id.isSome = true
  | _ => True

theorem productSource_of (no no' : Option Int) : (productSource legacy no no').Of legacy := by
  unfold productSource
  split
  · split
    · rename_i p hp
      split
      · rename_i hid
        rw [Bool.and_eq_true] at hid
        obtain ⟨id, hid⟩ := Option.isSome_iff_exists.mp hid.1
        exact ⟨List.mem_of_find?_eq_some hp, by simp [(truthyString_eq_some.mp hid).1]⟩
      · trivial
    · trivial
  · split
    · split <;> trivial
    · trivial

/-- **Where no product comes of an asset, none ever does**, whatever other assets come to. -/
theorem Skipped.getOrMigrateProduct
    (h : Skipped legacy legacyClient newClient equalsInsensitive source catalog)
    (hsource : source.Of legacy) (hsource' : source'.Of legacy) :
    Skipped legacy legacyClient newClient equalsInsensitive source
      (LegacyMigrationService.getOrMigrateProduct legacy legacyClient newClient equalsInsensitive ids
        source' catalog).1 := by
  have hout := getOrMigrateProduct_outcome legacy legacyClient newClient equalsInsensitive ids source'
    catalog
  cases source with
  | none => trivial
  | product p =>
    obtain ⟨hmem, hsome⟩ := hsource
    obtain ⟨p_id, hid⟩ := Option.isSome_iff_exists.mp hsome
    by_cases hsame : source' = .product p
    · -- it is migrated once more, to nothing
      rw [hsame, getOrMigrateProduct_of_skipped h]
      exact h
    · obtain ⟨hno, hlookups⟩ := h
      refine ⟨fun r hr => ?_, fun p_cat_no hcategory p_mfg_no hmanufacturer => ?_⟩
      · rcases hout.legacyProductId hr with hold | hnone | ⟨p', rfl, hnew⟩
        · exact hno r hold
        · rw [hnone, hid]
          simp
        · obtain ⟨hmem', -⟩ := hsource'
          rw [hnew, hid]
          intro hid'
          exact hsame (by rw [legacy.productIds.eq_of_id_eq hmem' hmem hid' hid])
      · obtain ⟨category, manufacturer, hc, hm, hnone⟩ :=
          hlookups p_cat_no hcategory p_mfg_no hmanufacturer
        exact ⟨category, manufacturer, hout.done_productCategory hc, hout.done_manufacturer hm, hnone⟩
  | category c =>
    obtain ⟨category, hc, hblank⟩ := h
    exact ⟨category, hout.done_productCategory hc, hblank⟩

end

end LegacyMigrationService

end ShieldApi
