import ShieldApi.Lib.Runs
import ShieldApi.Legacy.Idempotence

/-!
# Does one row stand for two legacy rows?

A legacy row is looked up by its external id, or else by a short name, a name or a serial number.
The row that is found so **may belong to another legacy row already**. The lookups of categories and
manufacturers leave it to that one and return it all the same; that of products gives it the new
external id instead of the old one; that of tags does not note an external id at all.

Here is any sequence of lookups, of one run of the migration or of many; a run of the migration is
such a sequence (`lookups_processMigration`). What each lookup comes to is `Resolves`. **One row
stands for two legacy rows only if a lookup fell back on it** (`fallsBack_of_conflated`), since
otherwise a row keeps the external id it was resolved by, and in the end it has one.
-/

set_option autoImplicit false

namespace ShieldApi

open GetOrCreate LegacyMigrationService

/-! ## 1. Lookups -/

/-- What the lookups read and write. -/
structure LookupTables where
  catalog : Catalog := {}
  tags : Table TagBasic String TagBasic.id := ∅

def MigrationDb.lookups (db : MigrationDb) : LookupTables := ⟨db.catalog, db.tags⟩

/-- What a run of the migration has at hand when it looks something up. -/
structure MigrationContext where
  legacy : LegacyDb
  legacyClient : LegacyModels.Client
  newClient : ClientBasic
  ids : FreshIds

/-- What is looked up for an asset. -/
inductive MigrationCall
  | product (ctx : MigrationContext) (legacyProductNo legacyProductCategoryNo : Option Int)
  | tag (ctx : MigrationContext) (legacyTagNo : Int) (newSite : SiteBasic)

inductive LegacyKind
  | category | manufacturer | product | tag
  deriving DecidableEq, Repr

variable (equalsInsensitive : String → String → Bool)

/-! ### Lookups in a context -/

namespace MigrationContext

variable (ctx : MigrationContext)

def productCategoryOf (no : Int) :
    Option (GetOrCreate ProductCategoryBasic ProductCategoryBasic.id) :=
  LegacyMigrationService.productCategoryOf ctx.legacy ctx.legacyClient ctx.newClient
    equalsInsensitive no

def getOrMigrateProductCategory (no : Int)
    (t : Table ProductCategoryBasic String ProductCategoryBasic.id) :
    Table ProductCategoryBasic String ProductCategoryBasic.id × Option ProductCategoryBasic :=
  LegacyMigrationService.getOrMigrateProductCategory ctx.legacy ctx.legacyClient ctx.newClient
    equalsInsensitive ctx.ids no t

def manufacturerOf (no : Int) : Option (GetOrCreate ManufacturerBasic ManufacturerBasic.id) :=
  LegacyMigrationService.manufacturerOf ctx.legacy ctx.legacyClient ctx.newClient
    equalsInsensitive no

def getOrMigrateManufacturer (no : Int) (t : Table ManufacturerBasic String ManufacturerBasic.id) :
    Table ManufacturerBasic String ManufacturerBasic.id × Option ManufacturerBasic :=
  LegacyMigrationService.getOrMigrateManufacturer ctx.legacy ctx.legacyClient ctx.newClient
    equalsInsensitive ctx.ids no t

def getOrMigrateProduct (source : ProductSource) (catalog : Catalog) :
    Catalog × Option ProductBasic :=
  LegacyMigrationService.getOrMigrateProduct ctx.legacy ctx.legacyClient ctx.newClient
    equalsInsensitive ctx.ids source catalog

end MigrationContext

def MigrationCall.step (s : LookupTables) : MigrationCall → LookupTables
  | .product ctx legacyProductNo legacyProductCategoryNo =>
    { s with
      catalog := (ctx.getOrMigrateProduct equalsInsensitive
        (productSource ctx.legacy legacyProductNo legacyProductCategoryNo) s.catalog).1 }
  | .tag ctx legacyTagNo newSite =>
    { s with tags := (getOrMigrateTag ctx.legacy ctx.ids legacyTagNo newSite s.tags).1 }

/-! ### What a product asks for on the way -/

/-- A legacy product that has to be migrated, with the numbers of its category and manufacturer. -/
def migratedNumbers (source : ProductSource) (catalog : Catalog) : Option (Int × Int) :=
  match source with
  | .product p =>
    match catalog.products.rows.find? (·.legacyProductId = p.p_id) with
    | some _ => none
    | none => do
      let p_cat_no ← truthyNumber p.p_cat_no
      let p_mfg_no ← truthyNumber p.p_mfg_no
      return (p_cat_no, p_mfg_no)
  | .none | .category _ => none

/-- The number `getOrMigrateProductCategory` is called with. -/
def categoryAsked (source : ProductSource) (catalog : Catalog) : Option Int :=
  match source with
  | .category c => some c.cat_no
  | .none | .product _ => (migratedNumbers source catalog).map Prod.fst

/-- The number `getOrMigrateManufacturer` is called with. -/
def manufacturerAsked (source : ProductSource) (catalog : Catalog) : Option Int :=
  (migratedNumbers source catalog).map Prod.snd

def categoryId (legacy : LegacyDb) (no : Int) : Option String :=
  (legacy.category.find? (·.cat_no = no)).bind fun c => truthyString c.cat_id

def manufacturerId (legacy : LegacyDb) (no : Int) : Option String :=
  (legacy.manufacturers.find? (·.mfg_no = no)).bind fun m => truthyString m.mfg_id

def tagId (legacy : LegacyDb) (no : Int) : Option String :=
  (legacy.tags.find? (·.t_no = no)).bind fun tag => truthyString tag.t_id

/-! ### What a lookup comes to -/

/-- In the call, the legacy row with the external id is resolved to the row with the id. -/
inductive Resolves (s : LookupTables) : MigrationCall → LegacyKind → String → String → Prop
  | category {ctx : MigrationContext} {no no' : Option Int} {cat_no : Int} {cat_id : String}
      {r : ProductCategoryBasic}
      (asked : categoryAsked (productSource ctx.legacy no no') s.catalog = some cat_no)
      (externalId : categoryId ctx.legacy cat_no = some cat_id)
      (result : (ctx.getOrMigrateProductCategory equalsInsensitive cat_no
        s.catalog.categories).2 = some r) :
      Resolves s (.product ctx no no') .category cat_id r.id
  | manufacturer {ctx : MigrationContext} {no no' : Option Int} {mfg_no : Int} {mfg_id : String}
      {r : ManufacturerBasic}
      (asked : manufacturerAsked (productSource ctx.legacy no no') s.catalog = some mfg_no)
      (externalId : manufacturerId ctx.legacy mfg_no = some mfg_id)
      (result : (ctx.getOrMigrateManufacturer equalsInsensitive mfg_no
        s.catalog.manufacturers).2 = some r) :
      Resolves s (.product ctx no no') .manufacturer mfg_id r.id
  | product {ctx : MigrationContext} {no no' : Option Int} {p : LegacyModels.Product}
      {p_id : String} {r : ProductBasic}
      (asked : productSource ctx.legacy no no' = .product p)
      (externalId : p.p_id = some p_id)
      (result : (ctx.getOrMigrateProduct equalsInsensitive (.product p) s.catalog).2 = some r) :
      Resolves s (.product ctx no no') .product p_id r.id
  | tag {ctx : MigrationContext} {no : Int} {newSite : SiteBasic} {t_id : String} {r : TagBasic}
      (externalId : tagId ctx.legacy no = some t_id)
      (result : (getOrMigrateTag ctx.legacy ctx.ids no newSite s.tags).2 = some r) :
      Resolves s (.tag ctx no newSite) .tag t_id r.id

/-- The call falls back on the row: it finds none with the external id, but this one has the short
    name (a category), the name (a manufacturer or, by the same manufacturer and in the same
    category, a product) or the serial number (a tag). A missing name counts as an empty one. And
    the row is another's already, unless it is a tag's. -/
inductive FallsBack (s : LookupTables) : MigrationCall → LegacyKind → String → Prop
  | category {ctx : MigrationContext} {no no' : Option Int} {cat_no : Int}
      {op : GetOrCreate ProductCategoryBasic ProductCategoryBasic.id} {r : ProductCategoryBasic}
      (asked : categoryAsked (productSource ctx.legacy no no') s.catalog = some cat_no)
      (lookup : ctx.productCategoryOf equalsInsensitive cat_no = some op)
      (back : op.FallsBackOn s.catalog.categories.rows r)
      (another : r.legacyCategoryId.isSome = true) :
      FallsBack s (.product ctx no no') .category r.id
  | manufacturer {ctx : MigrationContext} {no no' : Option Int} {mfg_no : Int}
      {op : GetOrCreate ManufacturerBasic ManufacturerBasic.id} {r : ManufacturerBasic}
      (asked : manufacturerAsked (productSource ctx.legacy no no') s.catalog = some mfg_no)
      (lookup : ctx.manufacturerOf equalsInsensitive mfg_no = some op)
      (back : op.FallsBackOn s.catalog.manufacturers.rows r)
      (another : r.legacyManufacturerId.isSome = true) :
      FallsBack s (.product ctx no no') .manufacturer r.id
  | product {ctx : MigrationContext} {no no' : Option Int} {p : LegacyModels.Product}
      {cat_id mfg_id : String} {r : ProductBasic}
      (asked : productSource ctx.legacy no no' = .product p)
      (mem : r ∈ s.catalog.products)
      (inexact : ∀ r ∈ s.catalog.products, r.legacyProductId ≠ p.p_id)
      (name : equalsInsensitive r.name ((p.p_name.map trim).getD "") = true)
      (category : Resolves equalsInsensitive s (.product ctx no no') .category cat_id
        r.productCategoryId)
      (manufacturer : Resolves equalsInsensitive s (.product ctx no no') .manufacturer mfg_id
        r.manufacturerId)
      (another : r.legacyProductId.isSome = true) :
      FallsBack s (.product ctx no no') .product r.id
  | tag {ctx : MigrationContext} {no : Int} {newSite : SiteBasic}
      {op : GetOrCreate TagBasic TagBasic.id} {r : TagBasic}
      (lookup : tagOf ctx.legacy newSite no = some op)
      (back : op.FallsBackOn s.tags.rows r) :
      FallsBack s (.tag ctx no newSite) .tag r.id

/-- **The claim about a run:** no row stands for two legacy rows of a kind. -/
def NoConflation (start : LookupTables) (calls : List MigrationCall) : Prop :=
  ∀ kind x y id u call v call',
    Fired (MigrationCall.step equalsInsensitive) start calls u call →
    Resolves equalsInsensitive u call kind x id →
    Fired (MigrationCall.step equalsInsensitive) start calls v call' →
    Resolves equalsInsensitive v call' kind y id → x = y

variable {equalsInsensitive}

/-! ## 2. The lookups are for external ids -/

theorem claims_productCategoryOf {ctx : MigrationContext} {no : Int}
    {op : GetOrCreate ProductCategoryBasic ProductCategoryBasic.id}
    (h : ctx.productCategoryOf equalsInsensitive no = some op) :
    ∃ cat_id, categoryId ctx.legacy no = some cat_id ∧
      op.Claims ProductCategoryBasic.legacyCategoryId cat_id := by
  simp only [MigrationContext.productCategoryOf, productCategoryOf, Option.bind_eq_bind,
    Option.bind_eq_some_iff, Option.pure_def, Option.some.injEq] at h
  obtain ⟨c, hc, cat_id, hid, rfl⟩ := h
  refine ⟨cat_id, by rw [categoryId, hc]; exact hid, fun _ => rfl, ?_, fun _ => rfl, fun _ => rfl⟩
  simp [productCategoryLookup]

theorem claims_manufacturerOf {ctx : MigrationContext} {no : Int}
    {op : GetOrCreate ManufacturerBasic ManufacturerBasic.id}
    (h : ctx.manufacturerOf equalsInsensitive no = some op) :
    ∃ mfg_id, manufacturerId ctx.legacy no = some mfg_id ∧
      op.Claims ManufacturerBasic.legacyManufacturerId mfg_id := by
  simp only [MigrationContext.manufacturerOf, manufacturerOf, Option.bind_eq_bind,
    Option.bind_eq_some_iff, Option.pure_def, Option.some.injEq] at h
  obtain ⟨m, hm, mfg_id, hid, rfl⟩ := h
  refine ⟨mfg_id, by rw [manufacturerId, hm]; exact hid, fun _ => rfl, ?_, fun _ => rfl,
    fun _ => rfl⟩
  simp [manufacturerLookup]

theorem isFor_tagOf {legacy : LegacyDb} {newSite : SiteBasic} {no : Int}
    {op : GetOrCreate TagBasic TagBasic.id} (h : tagOf legacy newSite no = some op) :
    ∃ t_id, tagId legacy no = some t_id ∧ op.IsFor TagBasic.legacyTagId t_id := by
  simp only [tagOf, Option.bind_eq_bind, Option.bind_eq_some_iff, Option.pure_def,
    Option.some.injEq] at h
  obtain ⟨tag, htag, serial, -, t_id, hid, rfl⟩ := h
  refine ⟨t_id, by rw [tagId, htag]; exact hid, ⟨fun _ => rfl, ?_, fun _ _ _ hy => hy⟩⟩
  simp [tagLookup]

/-! ## 3. What a product writes -/

section

variable {ctx : MigrationContext} {source : ProductSource} {catalog : Catalog}

variable (equalsInsensitive ctx catalog) in
/-- What `getOrMigrateProduct` comes to for a legacy product. -/
theorem getOrMigrateProduct_product (p : LegacyModels.Product) :
    (∃ r ∈ catalog.products, r.legacyProductId = p.p_id ∧
        migratedNumbers (.product p) catalog = none ∧
        ctx.getOrMigrateProduct equalsInsensitive (.product p) catalog = (catalog, some r)) ∨
      (∀ r ∈ catalog.products, r.legacyProductId ≠ p.p_id) ∧
        (migratedNumbers (.product p) catalog = none ∧
            ctx.getOrMigrateProduct equalsInsensitive (.product p) catalog = (catalog, none) ∨
          ∃ p_cat_no p_mfg_no, migratedNumbers (.product p) catalog = some (p_cat_no, p_mfg_no) ∧
            ∃ products result,
              ctx.getOrMigrateProduct equalsInsensitive (.product p) catalog =
                ({ categories := (ctx.getOrMigrateProductCategory equalsInsensitive p_cat_no
                     catalog.categories).1
                   manufacturers := (ctx.getOrMigrateManufacturer equalsInsensitive p_mfg_no
                     catalog.manufacturers).1
                   products }, result) ∧
              (products = catalog.products ∧ result = none ∨
                ∃ category manufacturer,
                  (ctx.getOrMigrateProductCategory equalsInsensitive p_cat_no
                    catalog.categories).2 = some category ∧
                  (ctx.getOrMigrateManufacturer equalsInsensitive p_mfg_no
                    catalog.manufacturers).2 = some manufacturer ∧
                  products = (migrateProduct equalsInsensitive ctx.ids p category manufacturer
                    catalog.products).1 ∧
                  result = some (migrateProduct equalsInsensitive ctx.ids p category manufacturer
                    catalog.products).2)) := by
  unfold MigrationContext.getOrMigrateProduct getOrMigrateProduct getOrMigrateLegacyProduct
    migratedNumbers
  cases hfound : catalog.products.rows.find? (·.legacyProductId = p.p_id) with
  | some r =>
    simp only [hfound]
    exact .inl ⟨r, List.mem_of_find?_eq_some hfound, by simpa using List.find?_some hfound,
      trivial, rfl⟩
  | none =>
    refine .inr ⟨fun r hr heq => List.find?_eq_none.mp hfound r hr (decide_eq_true heq), ?_⟩
    cases hcategory : truthyNumber p.p_cat_no with
    | none =>
      simp only [hfound, hcategory]
      exact .inl ⟨rfl, trivial⟩
    | some p_cat_no =>
      cases hmanufacturer : truthyNumber p.p_mfg_no with
      | none =>
        simp only [hfound, hcategory, hmanufacturer]
        exact .inl ⟨rfl, trivial⟩
      | some p_mfg_no =>
        refine .inr ⟨p_cat_no, p_mfg_no, by simp [hfound, hcategory, hmanufacturer], ?_⟩
        simp only [hfound, hcategory, hmanufacturer]
        split
        · rename_i category manufacturer hc hm
          exact ⟨_, _, rfl, .inr ⟨category, manufacturer, hc, hm, rfl, rfl⟩⟩
        · exact ⟨_, _, rfl, .inl ⟨rfl, rfl⟩⟩

theorem categories_getOrMigrateProduct :
    (ctx.getOrMigrateProduct equalsInsensitive source catalog).1.categories =
      (runOption ((categoryAsked source catalog).bind (ctx.productCategoryOf equalsInsensitive))
        ctx.ids catalog.categories).1 := by
  cases source with
  | none => rfl
  | product p =>
    show _ = (runOption (((migratedNumbers (.product p) catalog).map Prod.fst).bind _) _ _).1
    rcases getOrMigrateProduct_product equalsInsensitive ctx catalog p with
      ⟨r, -, -, hnumbers, heq⟩ | ⟨-, ⟨hnumbers, heq⟩ | ⟨_, _, hnumbers, _, _, heq, -⟩⟩
    all_goals
      rw [hnumbers, heq]
      rfl
  | category c =>
    show (getOrMigrateGenericProduct ctx.legacy ctx.legacyClient ctx.newClient equalsInsensitive
      ctx.ids c catalog).1.categories = _
    unfold getOrMigrateGenericProduct
    dsimp only
    split
    · rfl
    · split <;> rfl

theorem rows_of_category {ids : FreshIds} {c : LegacyModels.Category}
    {catalog' : Catalog} {product? : Option ProductBasic}
    (h : ProductOutcome ctx.legacy ctx.legacyClient ctx.newClient equalsInsensitive ids catalog
      (.category c) catalog' product?) :
    (∃ new, catalog'.manufacturers.rows = catalog.manufacturers.rows ++ new) ∧
      ∃ new, catalog'.products.rows = catalog.products.rows ++ new := by
  cases h with
  | nameless | generic => exact ⟨⟨[], (List.append_nil _).symm⟩, [], (List.append_nil _).symm⟩
  | created manufacturer product makes maker adds => exact ⟨⟨_, makes⟩, _, adds⟩

variable (equalsInsensitive ctx source catalog) in
/-- The manufacturer of a generic product, which has no external id, comes on top. -/
theorem manufacturers_getOrMigrateProduct :
    ∃ new, (ctx.getOrMigrateProduct equalsInsensitive source catalog).1.manufacturers.rows =
      (runOption ((manufacturerAsked source catalog).bind (ctx.manufacturerOf equalsInsensitive))
        ctx.ids catalog.manufacturers).1.rows ++ new := by
  cases source with
  | none => exact ⟨[], (List.append_nil _).symm⟩
  | product p =>
    refine ⟨[], ?_⟩
    rw [List.append_nil, manufacturerAsked]
    rcases getOrMigrateProduct_product equalsInsensitive ctx catalog p with
      ⟨r, -, -, hnumbers, heq⟩ | ⟨-, ⟨hnumbers, heq⟩ | ⟨_, _, hnumbers, _, _, heq, -⟩⟩
    all_goals
      rw [hnumbers, heq]
      rfl
  | category c => exact (rows_of_category (getOrMigrateProduct_outcome _ _ _ _ _ _ _)).1

/-- What becomes of the product that is migrated, and of the others. -/
theorem migrateProduct_rows {ids : FreshIds} {p : LegacyModels.Product}
    {category : ProductCategoryBasic} {manufacturer : ManufacturerBasic}
    {t : Table ProductBasic String ProductBasic.id} :
    ((migrateProduct equalsInsensitive ids p category manufacturer t).2 ∈
          (migrateProduct equalsInsensitive ids p category manufacturer t).1 ∧
        (migrateProduct equalsInsensitive ids p category manufacturer t).2.legacyProductId =
          p.p_id) ∧
      ((∀ r ∈ t, r ∈ (migrateProduct equalsInsensitive ids p category manufacturer t).1) ∨
        ∃ r ∈ t, equalsInsensitive r.name ((p.p_name.map trim).getD "") = true ∧
          r.productCategoryId = category.id ∧ r.manufacturerId = manufacturer.id ∧
          ∀ r' ∈ t, r'.id ≠ r.id →
            r' ∈ (migrateProduct equalsInsensitive ids p category manufacturer t).1) := by
  unfold migrateProduct
  cases hfound : t.rows.find? fun r =>
      equalsInsensitive r.name ((p.p_name.map trim).getD "") &&
        r.manufacturerId = manufacturer.id && r.productCategoryId = category.id with
  | some r =>
    have hmem : r ∈ t := List.mem_of_find?_eq_some hfound
    have hmatch := List.find?_some hfound
    rw [Bool.and_eq_true, Bool.and_eq_true, decide_eq_true_eq, decide_eq_true_eq] at hmatch
    dsimp only
    refine ⟨⟨Table.mem_updateMany.mpr ⟨r, hmem, by simp⟩, rfl⟩, .inr ⟨r, hmem, hmatch.1.1,
      hmatch.2, hmatch.1.2, fun r' hr' hne => Table.mem_updateMany.mpr ⟨r', hr', by simp [hne]⟩⟩⟩
  | none =>
    dsimp only
    refine ⟨⟨?_, rfl⟩, .inl fun r hr => ?_⟩
    · rw [← Table.mem_rows, Table.rows_create]
      exact List.mem_append_right _ (List.mem_singleton_self _)
    · rw [← Table.mem_rows, Table.rows_create]
      exact List.mem_append_left _ hr

theorem mem_of_getOrMigrateProduct {p : LegacyModels.Product} {r : ProductBasic}
    (h : (ctx.getOrMigrateProduct equalsInsensitive (.product p) catalog).2 = some r) :
    r ∈ (ctx.getOrMigrateProduct equalsInsensitive (.product p) catalog).1.products ∧
      r.legacyProductId = p.p_id := by
  rcases getOrMigrateProduct_product equalsInsensitive ctx catalog p with
    ⟨r', hr', hid, -, heq⟩ | ⟨-, ⟨-, heq⟩ | ⟨_, _, -, products, result, heq, hresult⟩⟩
  · rw [heq] at h ⊢
    obtain rfl := Option.some.inj h
    exact ⟨hr', hid⟩
  · rw [heq] at h
    exact absurd h (by simp)
  · rw [heq] at h ⊢
    obtain rfl : result = some r := h
    obtain ⟨-, hnone⟩ | ⟨category, manufacturer, -, -, rfl, hsome⟩ := hresult
    · exact absurd hnone (by simp)
    · rw [Option.some.inj hsome]
      exact migrateProduct_rows.1

/-- A product stays as it is, unless it is found by its name for one that is migrated. -/
theorem mem_getOrMigrateProduct_or {p : LegacyModels.Product} {r : ProductBasic}
    (hr : r ∈ catalog.products) :
    r ∈ (ctx.getOrMigrateProduct equalsInsensitive (.product p) catalog).1.products ∨
      (∀ r ∈ catalog.products, r.legacyProductId ≠ p.p_id) ∧
        equalsInsensitive r.name ((p.p_name.map trim).getD "") = true ∧
        ∃ p_cat_no p_mfg_no category manufacturer,
          migratedNumbers (.product p) catalog = some (p_cat_no, p_mfg_no) ∧
          (ctx.getOrMigrateProductCategory equalsInsensitive p_cat_no
            catalog.categories).2 = some category ∧
          (ctx.getOrMigrateManufacturer equalsInsensitive p_mfg_no
            catalog.manufacturers).2 = some manufacturer ∧
          r.productCategoryId = category.id ∧ r.manufacturerId = manufacturer.id := by
  rcases getOrMigrateProduct_product equalsInsensitive ctx catalog p with
    ⟨_, -, -, -, heq⟩ | ⟨hnew, ⟨-, heq⟩ | ⟨_, _, hnumbers, products, result, heq, hresult⟩⟩
  · exact .inl (by rwa [heq])
  · exact .inl (by rwa [heq])
  · rw [heq]
    obtain ⟨rfl, -⟩ | ⟨category, manufacturer, hcategory, hmanufacturer, rfl, -⟩ := hresult
    · exact .inl hr
    · rcases migrateProduct_rows.2 with hall | ⟨c, hc, hname, hcat, hmfg, hothers⟩
      · exact .inl (hall r hr)
      · by_cases hsame : r.id = c.id
        · obtain rfl := Table.eq_of_key_eq hr hc hsame
          exact .inr ⟨hnew, hname, _, _, category, manufacturer, hnumbers, hcategory,
            hmanufacturer, hcat, hmfg⟩
        · exact .inl (hothers r hr hsame)

end

/-! ## 4. A row and its external id -/

/-- The row with the id has the external id. -/
def LookupTables.HasId (s : LookupTables) (kind : LegacyKind) (externalId id : String) : Prop :=
  match kind with
  | .category => ∃ r ∈ s.catalog.categories, r.id = id ∧ r.legacyCategoryId = some externalId
  | .manufacturer =>
    ∃ r ∈ s.catalog.manufacturers, r.id = id ∧ r.legacyManufacturerId = some externalId
  | .product => ∃ r ∈ s.catalog.products, r.id = id ∧ r.legacyProductId = some externalId
  | .tag => ∃ r ∈ s.tags, r.id = id ∧ r.legacyTagId = some externalId

theorem LookupTables.HasId.unique {s : LookupTables} {kind : LegacyKind} {x y id : String}
    (hx : s.HasId kind x id) (hy : s.HasId kind y id) : x = y := by
  cases kind <;>
  · obtain ⟨r, hr, hid, hx⟩ := hx
    obtain ⟨r', hr', hid', hy⟩ := hy
    obtain rfl := Table.eq_of_key_eq hr hr' (hid.trans hid'.symm)
    exact Option.some.inj (hx.symm.trans hy)

variable {s : LookupTables} {call : MigrationCall} {kind : LegacyKind} {x id : String}

section

variable {ctx : MigrationContext} {no no' : Option Int}

theorem hasId_category_of_run {op : GetOrCreate ProductCategoryBasic ProductCategoryBasic.id}
    {cat_no : Int} (asked : categoryAsked (productSource ctx.legacy no no') s.catalog = some cat_no)
    (lookup : ctx.productCategoryOf equalsInsensitive cat_no = some op)
    (h : (op.run ctx.ids s.catalog.categories).2.legacyCategoryId = some x) :
    (MigrationCall.step equalsInsensitive s (.product ctx no no')).HasId .category x
      (op.run ctx.ids s.catalog.categories).2.id := by
  refine ⟨_, ?_, rfl, h⟩
  show _ ∈ (ctx.getOrMigrateProduct equalsInsensitive _ s.catalog).1.categories
  rw [categories_getOrMigrateProduct, asked, Option.bind_some, lookup]
  exact op.mem_run ctx.ids s.catalog.categories

theorem hasId_manufacturer_of_run {op : GetOrCreate ManufacturerBasic ManufacturerBasic.id}
    {mfg_no : Int}
    (asked : manufacturerAsked (productSource ctx.legacy no no') s.catalog = some mfg_no)
    (lookup : ctx.manufacturerOf equalsInsensitive mfg_no = some op)
    (h : (op.run ctx.ids s.catalog.manufacturers).2.legacyManufacturerId = some x) :
    (MigrationCall.step equalsInsensitive s (.product ctx no no')).HasId .manufacturer x
      (op.run ctx.ids s.catalog.manufacturers).2.id := by
  obtain ⟨new, hrows⟩ := manufacturers_getOrMigrateProduct equalsInsensitive ctx
    (productSource ctx.legacy no no') s.catalog
  refine ⟨_, ?_, rfl, h⟩
  show _ ∈ (ctx.getOrMigrateProduct equalsInsensitive _ s.catalog).1.manufacturers
  rw [← Table.mem_rows, hrows, asked, Option.bind_some, lookup]
  exact List.mem_append_left _ (op.mem_run ctx.ids s.catalog.manufacturers)

end

/-- **A row that a legacy row is resolved to has its external id**, unless the lookup falls back. -/
theorem Resolves.hasId (h : Resolves equalsInsensitive s call kind x id) :
    (MigrationCall.step equalsInsensitive s call).HasId kind x id ∨
      FallsBack equalsInsensitive s call kind id := by
  cases h with
  | category asked externalId result =>
    obtain ⟨op, lookup, rfl⟩ := runOption_eq_some.mp result
    obtain ⟨cat_id, hid, hclaims⟩ := claims_productCategoryOf lookup
    obtain rfl := Option.some.inj (hid.symm.trans externalId)
    rcases hclaims.run_or_fallsBack _ _ with hrow | ⟨c, hback, hkey, hanother⟩
    · exact .inl (hasId_category_of_run asked lookup hrow)
    · rw [← hkey]
      exact .inr (.category asked lookup hback hanother)
  | manufacturer asked externalId result =>
    obtain ⟨op, lookup, rfl⟩ := runOption_eq_some.mp result
    obtain ⟨mfg_id, hid, hclaims⟩ := claims_manufacturerOf lookup
    obtain rfl := Option.some.inj (hid.symm.trans externalId)
    rcases hclaims.run_or_fallsBack _ _ with hrow | ⟨c, hback, hkey, hanother⟩
    · exact .inl (hasId_manufacturer_of_run asked lookup hrow)
    · rw [← hkey]
      exact .inr (.manufacturer asked lookup hback hanother)
  | @product ctx no no' p p_id r asked externalId result =>
    refine .inl ⟨r, ?_, rfl, ?_⟩
    · show _ ∈ (ctx.getOrMigrateProduct equalsInsensitive _ s.catalog).1.products
      rw [asked]
      exact (mem_of_getOrMigrateProduct result).1
    · rw [← externalId]
      exact (mem_of_getOrMigrateProduct result).2
  | @tag ctx no newSite t_id r externalId result =>
    obtain ⟨op, lookup, rfl⟩ := runOption_eq_some.mp result
    obtain ⟨t_id, hid, hfor⟩ := isFor_tagOf lookup
    obtain rfl := Option.some.inj (hid.symm.trans externalId)
    rcases hfor.run_or_fallsBack _ _ with hrow | ⟨c, hback, hkey⟩
    · refine .inl ⟨_, ?_, rfl, hrow⟩
      show _ ∈ (runOption (tagOf ctx.legacy newSite no) ctx.ids s.tags).1
      rw [lookup]
      exact op.mem_run ctx.ids s.tags
    · rw [← hkey]
      exact .inr (.tag lookup hback)

/-- Both lookups on the way to a product that is migrated. -/
theorem resolves_of_migratedNumbers {ctx : MigrationContext} {no no' : Option Int}
    {p : LegacyModels.Product} {p_cat_no p_mfg_no : Int} {category : ProductCategoryBasic}
    {manufacturer : ManufacturerBasic} (asked : productSource ctx.legacy no no' = .product p)
    (hnumbers : migratedNumbers (.product p) s.catalog = some (p_cat_no, p_mfg_no))
    (hcategory : (ctx.getOrMigrateProductCategory equalsInsensitive p_cat_no
      s.catalog.categories).2 = some category)
    (hmanufacturer : (ctx.getOrMigrateManufacturer equalsInsensitive p_mfg_no
      s.catalog.manufacturers).2 = some manufacturer) :
    (∃ cat_id, Resolves equalsInsensitive s (.product ctx no no') .category cat_id category.id) ∧
      ∃ mfg_id, Resolves equalsInsensitive s (.product ctx no no') .manufacturer mfg_id
        manufacturer.id := by
  obtain ⟨op, lookup, -⟩ := runOption_eq_some.mp hcategory
  obtain ⟨op', lookup', -⟩ := runOption_eq_some.mp hmanufacturer
  obtain ⟨cat_id, hid, -⟩ := claims_productCategoryOf lookup
  obtain ⟨mfg_id, hid', -⟩ := claims_manufacturerOf lookup'
  refine ⟨⟨cat_id, .category ?_ hid hcategory⟩, mfg_id, .manufacturer ?_ hid' hmanufacturer⟩
  · rw [asked, categoryAsked, hnumbers]
    rfl
  · rw [asked, manufacturerAsked, hnumbers]
    rfl

theorem hasId_product_or_fallsBack {ctx : MigrationContext} {no no' : Option Int}
    (h : s.HasId .product x id) :
    (MigrationCall.step equalsInsensitive s (.product ctx no no')).HasId .product x id ∨
      FallsBack equalsInsensitive s (.product ctx no no') .product id := by
  obtain ⟨r, hr, hid, hx⟩ := h
  cases hsource : productSource ctx.legacy no no' with
  | none => exact .inl ⟨r, by rwa [MigrationCall.step, hsource], hid, hx⟩
  | category c =>
    obtain ⟨new, hrows⟩ := (rows_of_category (getOrMigrateProduct_outcome ctx.legacy
      ctx.legacyClient ctx.newClient equalsInsensitive ctx.ids (.category c) s.catalog)).2
    refine .inl ⟨r, ?_, hid, hx⟩
    rw [MigrationCall.step, hsource, ← Table.mem_rows]
    exact hrows ▸ List.mem_append_left _ hr
  | product p =>
    rcases mem_getOrMigrateProduct_or hr with hkept | ⟨hnew, hname, _, _, category,
      manufacturer, hnumbers, hcategory, hmanufacturer, hcat, hmfg⟩
    · exact .inl ⟨r, by rw [MigrationCall.step, hsource]; exact hkept, hid, hx⟩
    · obtain ⟨⟨cat_id, hcat'⟩, mfg_id, hmfg'⟩ :=
        resolves_of_migratedNumbers hsource hnumbers hcategory hmanufacturer
      rw [← hcat] at hcat'
      rw [← hmfg] at hmfg'
      rw [← hid]
      exact .inr (.product hsource hr hnew hname hcat' hmfg' (by simp [hx]))

/-- **A row keeps its external id**, unless a product's falls back on it. -/
theorem LookupTables.HasId.step (h : s.HasId kind x id) (call : MigrationCall) :
    (MigrationCall.step equalsInsensitive s call).HasId kind x id ∨
      FallsBack equalsInsensitive s call kind id := by
  cases call with
  | tag ctx no newSite =>
    refine .inl ?_
    cases kind with
    | category | manufacturer | product => exact h
    | tag => exact runOption_keeps (fun op hop => (isFor_tagOf hop).imp fun _ h => h.2) ctx.ids h
  | product ctx no no' =>
    cases kind with
    | tag => exact .inl h
    | category =>
      refine .inl ?_
      show ∃ r ∈ (ctx.getOrMigrateProduct equalsInsensitive _ s.catalog).1.categories, _
      rw [categories_getOrMigrateProduct]
      refine runOption_keeps (fun op hop => ?_) ctx.ids h
      obtain ⟨cat_no, -, hop⟩ := Option.bind_eq_some_iff.mp hop
      exact (claims_productCategoryOf hop).imp fun _ h => h.2.isFor
    | manufacturer =>
      have hfor : ∀ op, (manufacturerAsked (productSource ctx.legacy no no') s.catalog).bind
          (ctx.manufacturerOf equalsInsensitive) = some op →
            ∃ mfg_id, op.IsFor ManufacturerBasic.legacyManufacturerId mfg_id := by
        intro op hop
        obtain ⟨mfg_no, -, hop⟩ := Option.bind_eq_some_iff.mp hop
        exact (claims_manufacturerOf hop).imp fun _ h => h.2.isFor
      obtain ⟨new, hrows⟩ := manufacturers_getOrMigrateProduct equalsInsensitive ctx
        (productSource ctx.legacy no no') s.catalog
      obtain ⟨r, hr, hrow⟩ := runOption_keeps hfor ctx.ids h
      refine .inl ⟨r, ?_, hrow⟩
      show _ ∈ (ctx.getOrMigrateProduct equalsInsensitive _ s.catalog).1.manufacturers
      rw [← Table.mem_rows, hrows]
      exact List.mem_append_left _ hr
    | product => exact hasId_product_or_fallsBack h

/-! ## 5. A run of the migration is a sequence of lookups -/

section

variable {legacy : LegacyDb} {legacyClient : LegacyModels.Client} {run : MigrationRun}
  {newClient : ClientBasic} {sites : List (Int × SiteBasic)} {alreadyMigrated : List AssetBasic}

/-- What is looked up for an asset, if it is not there yet and its site is. -/
def assetCalls (ctx : MigrationContext) (sites : List (Int × SiteBasic))
    (alreadyMigrated : List AssetBasic) (legacyAsset : LegacyModels.Asset) : List MigrationCall :=
  match legacyAsset.a_id with
  | none => []
  | some a_id =>
    match assetOf alreadyMigrated a_id with
    | some _ => []
    | none =>
      match legacyAsset.a_loc_no.bind (sites.lookup ·) with
      | none => []
      | some newSite =>
        .product ctx legacyAsset.a_p_no legacyAsset.a_cat_no ::
          (legacyAsset.a_t_no.map fun a_t_no => .tag ctx a_t_no newSite).toList

theorem lookups_migrateAsset (st : AssetsState) (legacyAsset : LegacyModels.Asset) :
    (migrateAsset legacy legacyClient run equalsInsensitive newClient sites alreadyMigrated st
        legacyAsset).db.lookups =
      (assetCalls ⟨legacy, legacyClient, newClient, run.ids⟩ sites alreadyMigrated
        legacyAsset).foldl (MigrationCall.step equalsInsensitive) st.db.lookups := by
  unfold migrateAsset assetCalls
  cases legacyAsset.a_id with
  | none => rfl
  | some a_id =>
    cases hfound : assetOf alreadyMigrated a_id with
    | some newAsset =>
      obtain ⟨_, _, hdb, -⟩ := db_migratePlace run newClient sites legacyAsset newAsset st
      simp only [hfound, hdb]
      rfl
    | none =>
      cases hsite : legacyAsset.a_loc_no.bind (sites.lookup ·) with
      | none =>
        simp only [hfound]
        rfl
      | some newSite =>
        obtain ⟨_, _, _, hdb, -⟩ := db_createAsset legacy legacyClient run newClient sites
          equalsInsensitive st legacyAsset a_id newSite
        simp only [hfound, hdb]
        unfold migrateTagOf
        cases legacyAsset.a_t_no with
        | none => rfl
        | some a_t_no => rfl

theorem lookups_foldl_migrateAsset (assets : List LegacyModels.Asset) (st : AssetsState) :
    (assets.foldl (migrateAsset legacy legacyClient run equalsInsensitive newClient sites
        alreadyMigrated) st).db.lookups =
      (assets.flatMap (assetCalls ⟨legacy, legacyClient, newClient, run.ids⟩ sites
        alreadyMigrated)).foldl (MigrationCall.step equalsInsensitive) st.db.lookups := by
  induction assets generalizing st with
  | nil => rfl
  | cons a assets ih => rw [List.foldl_cons, ih, lookups_migrateAsset, List.flatMap_cons,
      List.foldl_append]

/-- **A run of the migration looks things up for its assets, one after the other**, and nothing else
    writes to what is read there. So any number of runs is a sequence of lookups. -/
theorem lookups_processMigration {db db' : MigrationDb}
    (h : processMigration legacy legacyClient run equalsInsensitive db = some db') :
    ∃ newClient sites alreadyMigrated, db'.lookups =
      ((legacyAssets legacy legacyClient).flatMap (assetCalls
        ⟨legacy, legacyClient, newClient, run.ids⟩ sites alreadyMigrated)).foldl
          (MigrationCall.step equalsInsensitive) db.lookups := by
  obtain ⟨⟨db₁, newClient⟩, hclient, rfl⟩ := Option.map_eq_some_iff.mp h
  have hsame : db₁.lookups = db.lookups := by
    unfold migrateClient at hclient
    split at hclient
    · split at hclient
      · rw [(Prod.mk.inj (Option.some.inj hclient)).1]
      · exact absurd hclient (by simp)
    · rw [← (Prod.mk.inj (Option.some.inj hclient)).1]
      rfl
  refine ⟨newClient, (migrateSites legacy legacyClient run newClient db₁).2,
    alreadyMigratedAssets legacyClient (migrateSites legacy legacyClient run newClient db₁).1, ?_⟩
  rw [← hsame]
  exact lookups_foldl_migrateAsset _ _

end

/-! ## 6. Conflation -/

/-- **One row stands for two legacy rows only if a lookup falls back on it.** -/
theorem fallsBack_of_conflated {start : LookupTables} {calls : List MigrationCall}
    {kind : LegacyKind} {x y id : String} {u v : LookupTables} {call call' : MigrationCall}
    (hcall : Fired (MigrationCall.step equalsInsensitive) start calls u call)
    (hx : Resolves equalsInsensitive u call kind x id)
    (hcall' : Fired (MigrationCall.step equalsInsensitive) start calls v call')
    (hy : Resolves equalsInsensitive v call' kind y id) (hne : x ≠ y) :
    ∃ w call'', Fired (MigrationCall.step equalsInsensitive) start calls w call'' ∧
      FallsBack equalsInsensitive w call'' kind id := by
  by_contra hnone
  have hno : ∀ w c, Fired (MigrationCall.step equalsInsensitive) start calls w c →
      ¬FallsBack equalsInsensitive w c kind id := fun w c hc hback => hnone ⟨w, c, hc, hback⟩
  have hend : ∀ {u c z}, Fired (MigrationCall.step equalsInsensitive) start calls u c →
      Resolves equalsInsensitive u c kind z id →
      (calls.foldl (MigrationCall.step equalsInsensitive) start).HasId kind z id := by
    intro u c z hc hz
    exact hc.at_end (P := fun s => s.HasId kind z id)
      (fun w d hd hid => (hid.step d).resolve_right (hno w d hd))
      (hz.hasId.resolve_right (hno u c hc))
  exact hne ((hend hcall hx).unique (hend hcall' hy))

/-! ### Two categories with one short name -/

/-- One of everybody's, and one of the client's. -/
def extinguisherCategories : List LegacyModels.Category :=
  [{ cat_no := 1, cat_id := some "c", cat_name := some "Extinguisher", cat_nic := some "EXT" },
   { cat_no := 2, cat_id := some "d", cat_name := some "Exit light", cat_nic := some "EXT",
     cat_c_no := some 7 }]

theorem externalIds_extinguishers : ExternalIds (·.cat_id) extinguisherCategories := by decide

def extinguishers : LegacyDb where
  category := extinguisherCategories
  categoryIds := externalIds_extinguishers
  locationIds := externalIds_nil LegacyModels.Location.loc_id
  groupIds := externalIds_nil LegacyModels.Group.group_id
  assetIds := externalIds_nil LegacyModels.Asset.a_id
  productIds := externalIds_nil LegacyModels.Product.p_id
  manufacturerIds := externalIds_nil LegacyModels.Manufacturer.mfg_id
  tagIds := externalIds_nil LegacyModels.Tag.t_id

def extinguishersContext : MigrationContext where
  legacy := extinguishers
  legacyClient := { c_no := 7, c_id := some "seven" }
  newClient := { id := "client", legacyClientId := some "seven" }
  ids := .longer

def extinguisherCalls : List MigrationCall :=
  [.product extinguishersContext none (some 1), .product extinguishersContext none (some 2)]

abbrev afterFirst : LookupTables :=
  MigrationCall.step (fun s t => s = t) {} (.product extinguishersContext none (some 1))

/-- The client's category is resolved to the row of everybody's. -/
theorem extinguishers_resolved :
    ∃ id,
      Resolves (fun s t => s = t) {} (.product extinguishersContext none (some 1))
        .category "c" id ∧
      Resolves (fun s t => s = t) afterFirst (.product extinguishersContext none (some 2))
        .category "d" id := by
  have hfirst : ((extinguishersContext.getOrMigrateProductCategory (fun s t => s = t) 1 ∅).2).map
      (·.id) = some "x" := by decide
  have hsecond : ((extinguishersContext.getOrMigrateProductCategory (fun s t => s = t) 2
      afterFirst.catalog.categories).2).map (·.id) = some "x" := by decide
  obtain ⟨r, hr, hid⟩ := Option.map_eq_some_iff.mp hfirst
  obtain ⟨r', hr', hid'⟩ := Option.map_eq_some_iff.mp hsecond
  refine ⟨"x", ?_, ?_⟩
  · rw [← hid]
    exact .category rfl rfl hr
  · rw [← hid']
    exact .category rfl rfl hr'

theorem extinguishers_conflated :
    ¬NoConflation (fun s t => s = t) {} extinguisherCalls := by
  intro h
  obtain ⟨id, hfirst, hsecond⟩ := extinguishers_resolved
  exact absurd (h .category "c" "d" id _ _ _ _ (.inl ⟨rfl, rfl⟩) hfirst
    (.inr (.inl ⟨rfl, rfl⟩)) hsecond) (by decide)

theorem extinguishers_fallsBack :
    ∃ id w call, Fired (MigrationCall.step fun s t => s = t) {} extinguisherCalls w call ∧
      FallsBack (fun s t => s = t) w call .category id := by
  obtain ⟨id, hfirst, hsecond⟩ := extinguishers_resolved
  exact ⟨id, fallsBack_of_conflated (.inl ⟨rfl, rfl⟩) hfirst (.inr (.inl ⟨rfl, rfl⟩)) hsecond
    (by decide)⟩

end ShieldApi
