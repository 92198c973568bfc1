import ShieldApi.Lib.GetOrCreate

/-!
# What is migrated, and to where

The rows of the legacy database as `legacy-models.ts` has them, and the rows of the new one as the
migration selects them (`CLIENT_BASIC_SELECT` and so on). Of both, what only goes from one to the
other is left out: addresses, phone numbers, descriptions, dates.

A legacy row has a number, by which the others refer to it, and an external id, which its new row
gets to remember where it comes from.
-/

set_option autoImplicit false

namespace ShieldApi

/-! ## 1. Values -/

/-- A number that is there and not zero. -/
def truthyNumber (n : Option Int) : Option Int := n.filter (· ≠ 0)

/-- A text that is there and not empty. -/
def truthyString (s : Option String) : Option String := s.filter (· ≠ "")

theorem truthyString_eq_some {s : Option String} {t : String} :
    truthyString s = some t ↔ s = some t ∧ t ≠ "" := by
  simp [truthyString, Option.filter_eq_some_iff]

def isSpace (c : Char) : Bool :=
  c.toNat ∈ [0x9, 0xA, 0xB, 0xC, 0xD, 0x20, 0xA0, 0x1680, 0x2028, 0x2029, 0x202F, 0x205F, 0x3000,
    0xFEFF] || (0x2000 ≤ c.toNat && c.toNat ≤ 0x200A)

def trim (s : String) : String :=
  String.ofList ((s.toList.dropWhile isSpace).reverse.dropWhile isSpace).reverse

def padStart (s : String) (length : Nat) (fill : Char) : String :=
  String.ofList (List.replicate (length - s.length) fill) ++ s

/-! ## 2. The legacy database -/

namespace LegacyModels

structure Client where
  c_no : Int
  c_id : Option String
  deriving DecidableEq

structure Location where
  loc_no : Int
  loc_id : Option String
  loc_c_no : Option Int
  loc_name : Option String := none
  loc_addr1 : Option String := none
  loc_city : Option String := none
  loc_state : Option String := none
  loc_group_no : Option Int := none
  deriving DecidableEq

structure Group where
  group_no : Int
  group_id : Option String
  group_c_no : Option Int
  group_name : Option String := none
  deriving DecidableEq

structure Asset where
  a_no : Int
  a_id : Option String
  a_t_no : Option Int := none
  a_loc_no : Option Int := none
  a_p_no : Option Int := none
  a_sort : Option Int := none
  a_cat_no : Option Int := none
  deriving DecidableEq

structure Product where
  p_no : Int
  p_id : Option String
  p_mfg_no : Option Int := none
  p_type : Option Int := none
  p_name : Option String := none
  p_cat_no : Option Int := none
  deriving DecidableEq

structure Category where
  cat_no : Int
  cat_id : Option String
  cat_name : Option String := none
  cat_nic : Option String := none
  cat_c_no : Option Int := none
  deriving DecidableEq

structure Manufacturer where
  mfg_no : Int
  mfg_id : Option String
  mfg_name : Option String := none
  mfg_c_no : Option Int := none
  deriving DecidableEq

structure Tag where
  t_no : Int
  t_id : Option String
  t_serial : Option Int := none
  deriving DecidableEq

end LegacyModels

/-- Of the rows that have an external id, no two have the same, and none is empty. -/
def ExternalIds {α : Type} (id : α → Option String) (rows : List α) : Prop :=
  (rows.filterMap id).Nodup ∧ ∀ r ∈ rows, id r ≠ some ""

instance {α : Type} (id : α → Option String) (rows : List α) : Decidable (ExternalIds id rows) :=
  inferInstanceAs (Decidable (_ ∧ _))

theorem externalIds_nil {α : Type} (id : α → Option String) : ExternalIds id [] :=
  ⟨List.nodup_nil, fun _ h => absurd h List.not_mem_nil⟩

theorem ExternalIds.eq_of_id_eq {α : Type} {id : α → Option String} {rows : List α}
    (h : ExternalIds id rows) {a b : α} (ha : a ∈ rows) (hb : b ∈ rows) {k : String}
    (hak : id a = some k) (hbk : id b = some k) : a = b := by
  obtain ⟨hunique, -⟩ := h
  induction rows with
  | nil => exact absurd ha List.not_mem_nil
  | cons r rows ih =>
    rcases List.mem_cons.mp ha with rfl | ha'
    · rcases List.mem_cons.mp hb with rfl | hb'
      · rfl
      · rw [List.filterMap_cons_some hak, List.nodup_cons] at hunique
        exact absurd (List.mem_filterMap.mpr ⟨b, hb', hbk⟩) hunique.1
    · rcases List.mem_cons.mp hb with rfl | hb'
      · rw [List.filterMap_cons_some hbk, List.nodup_cons] at hunique
        exact absurd (List.mem_filterMap.mpr ⟨a, ha', hak⟩) hunique.1
      · exact ih ha' hb' (hunique.sublist ((List.sublist_cons_self r rows).filterMap id))

structure LegacyDb where
  locations : List LegacyModels.Location := []
  groups : List LegacyModels.Group := []
  assets : List LegacyModels.Asset := []
  products : List LegacyModels.Product := []
  category : List LegacyModels.Category := []
  manufacturers : List LegacyModels.Manufacturer := []
  tags : List LegacyModels.Tag := []
  locationIds : ExternalIds (·.loc_id) locations := by decide
  groupIds : ExternalIds (·.group_id) groups := by decide
  assetIds : ExternalIds (·.a_id) assets := by decide
  productIds : ExternalIds (·.p_id) products := by decide
  categoryIds : ExternalIds (·.cat_id) category := by decide
  manufacturerIds : ExternalIds (·.mfg_id) manufacturers := by decide
  tagIds : ExternalIds (·.t_id) tags := by decide

/-! ## 3. The new database -/

structure ClientBasic where
  id : String
  legacyClientId : Option String
  deriving DecidableEq, Repr

structure SiteBasic where
  id : String
  name : String
  clientId : String
  legacySiteId : Option String := none
  legacyGroupId : Option String := none
  parentSiteId : Option String := none
  deriving DecidableEq, Repr

structure ProductCategoryBasic where
  id : String
  legacyCategoryId : Option String
  name : String
  shortName : Option String
  clientId : Option String := none
  deriving DecidableEq, Repr

structure ManufacturerBasic where
  id : String
  legacyManufacturerId : Option String
  name : String
  clientId : Option String := none
  deriving DecidableEq, Repr

structure ProductBasic where
  id : String
  legacyProductId : Option String
  name : String
  productCategoryId : String
  manufacturerId : String
  clientId : Option String := none
  deriving DecidableEq, Repr

structure TagBasic where
  id : String
  legacyTagId : Option String
  serialNumber : String
  clientId : Option String
  siteId : Option String
  deriving DecidableEq, Repr

structure AssetBasic where
  id : String
  legacyAssetId : Option String
  productId : String
  siteId : String
  clientId : String
  deriving DecidableEq, Repr

structure InspectionRouteBasic where
  id : String
  name : String
  siteId : String
  clientId : String
  deriving DecidableEq, Repr

structure InspectionRoutePointBasic where
  id : String
  assetId : String
  inspectionRouteId : String
  order : Int
  deriving DecidableEq, Repr

/-- What a product refers to. -/
structure Catalog where
  categories : Table ProductCategoryBasic String ProductCategoryBasic.id := ∅
  manufacturers : Table ManufacturerBasic String ManufacturerBasic.id := ∅
  products : Table ProductBasic String ProductBasic.id := ∅

/-- A query without an order sees the rows of a table in the table's order. -/
structure MigrationDb where
  clients : Table ClientBasic String ClientBasic.id := ∅
  sites : Table SiteBasic String SiteBasic.id := ∅
  catalog : Catalog := {}
  tags : Table TagBasic String TagBasic.id := ∅
  assets : Table AssetBasic String AssetBasic.id := ∅
  inspectionRoutes : Table InspectionRouteBasic String InspectionRouteBasic.id := ∅
  inspectionRoutePoints : Table InspectionRoutePointBasic String InspectionRoutePointBasic.id := ∅

/-- The ids a run gets for its rows, and the answers to its prompts that make a difference. -/
structure MigrationRun where
  ids : FreshIds
  /-- "Would you still like to continue?" -/
  continues : Bool
  /-- "What's the name for the site located at …?" -/
  siteName : LegacyModels.Location → String

end ShieldApi
