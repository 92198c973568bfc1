import ShieldApi.Prisma.Rls

/-!
# Tags, assets and inspections

The tables of the asset services, cut to what they read and write. A **tag** is a label on the
wall; scanned, it names itself by its `externalId`. An **asset** points to its tag, so the
relation between the two is a nullable column of the asset. Both belong to a client and a site,
and a tag may not do so yet.

The tables of `Db` (clients, sites, roles, people) are here as `core`; the asset services read
them and never write them.
-/

set_option autoImplicit false

namespace ShieldApi

/-! ## 1. Enums -/

inductive InspectionStatus
  | pending | complete
  deriving DecidableEq, Repr

inductive InspectionSessionStatus
  | pending | complete | expired | cancelled
  deriving DecidableEq, Repr

inductive AssetQuestionType
  | configuration | setupAndInspection | setup | inspection
  deriving DecidableEq, Repr

inductive AssetQuestionResponseType
  | binary | indeterminateBinary | text | textarea | date | number | select | image
  deriving DecidableEq, Repr

inductive AlertLevel
  | critical | urgent | warning | info | audit
  deriving DecidableEq, Repr

/-! ## 2. Rows -/

structure Tag where
  id : String
  externalId : String
  serialNumber : String
  siteId : Option String := none
  clientId : Option String := none
  deriving DecidableEq, Repr

structure Asset where
  id : String
  tagId : Option String := none
  siteId : String
  clientId : String
  /-- In days. -/
  inspectionCycle : Option Int := none
  deriving DecidableEq, Repr

structure InspectionRoute where
  id : String
  siteId : String
  clientId : String
  deriving DecidableEq, Repr

structure InspectionRoutePoint where
  id : String
  inspectionRouteId : String
  assetId : String
  order : Int := 0
  deriving DecidableEq, Repr

structure InspectionSession where
  id : String
  status : InspectionSessionStatus := .pending
  inspectionRouteId : String
  lastInspectorId : String
  siteId : String
  clientId : String
  deriving DecidableEq, Repr

structure CompletedInspectionRoutePoint where
  id : String
  inspectionSessionId : String
  inspectionRoutePointId : String
  inspectionId : String
  createdOn : Nat := 0
  deriving DecidableEq, Repr

/-- A question without a client is everybody's. -/
structure AssetQuestion where
  id : String
  type : AssetQuestionType
  valueType : AssetQuestionResponseType := .binary
  clientId : Option String := none
  deriving DecidableEq, Repr

/-- The rule is JSON, kept as its text. -/
structure AssetAlertCriterion where
  id : String
  assetQuestionId : String
  rule : String
  alertLevel : AlertLevel := .info
  autoResolve : Bool := false
  deriving DecidableEq, Repr

structure Inspection where
  id : String
  createdOn : Nat
  assetId : String
  inspectorId : String
  status : InspectionStatus := .pending
  siteId : String
  clientId : String
  deriving DecidableEq, Repr

/-- The value is JSON, kept as its text. -/
structure AssetQuestionResponse where
  id : String
  value : String
  originalPrompt : String
  assetQuestionId : String
  inspectionId : Option String := none
  responderId : String
  siteId : String
  clientId : String
  deriving DecidableEq, Repr

structure Alert where
  id : String
  createdOn : Nat
  alertLevel : AlertLevel := .info
  message : String
  assetId : String
  inspectionId : String
  assetQuestionResponseId : String
  assetAlertCriterionId : String
  resolved : Bool := false
  resolvedOn : Option Nat := none
  resolutionNote : Option String := none
  siteId : String
  clientId : String
  deriving DecidableEq, Repr

structure SigningKey where
  keyId : String
  keySecret : String
  expiredOn : Option Nat := none
  deriving DecidableEq, Repr

/-! ## 3. The store -/

structure AssetWorld where
  core : Db := {}
  tags : Table Tag String Tag.id := ∅
  assets : Table Asset String Asset.id := ∅
  routes : Table InspectionRoute String InspectionRoute.id := ∅
  routePoints : Table InspectionRoutePoint String InspectionRoutePoint.id := ∅
  sessions : Table InspectionSession String InspectionSession.id := ∅
  completedRoutePoints :
    Table CompletedInspectionRoutePoint String CompletedInspectionRoutePoint.id := ∅
  questions : Table AssetQuestion String AssetQuestion.id := ∅
  alertCriteria : Table AssetAlertCriterion String AssetAlertCriterion.id := ∅
  inspections : Table Inspection String Inspection.id := ∅
  responses : Table AssetQuestionResponse String AssetQuestionResponse.id := ∅
  alerts : Table Alert String Alert.id := ∅
  signingKeys : Table SigningKey String SigningKey.keyId := ∅
  /-- The signing-key entries of the memory cache, which never expire. -/
  keyCache : String → Option SigningKey := fun _ => none

abbrev AssetApi (α : Type) : Type := Effect AssetWorld ApiError α

namespace Settings

/-- The policies of `Asset`, `Alert` and `InspectionSession`: a row at a client and site. -/
def seesPlace (s : Settings) (clientId siteId : String) : Bool :=
  s.shouldBypassRls || (s.validateClient clientId && s.validateSite siteId)

/-- The policies of `Tag`. A null column is in nobody's sight. -/
def seesTag (s : Settings) (t : Tag) : Bool :=
  s.shouldBypassRls || (t.clientId.any s.validateClient && t.siteId.any s.validateSite)

/-- The policies of `AssetQuestion`, for a query. -/
def seesQuestion (s : Settings) (q : AssetQuestion) : Bool :=
  s.shouldBypassRls || q.clientId.all s.validateClient

end Settings

/-- The settings of a client that bypasses RLS. -/
def bypassRLS : Settings := [("app.bypass_rls", "on")]

/-- PostgreSQL refuses a row its policy does not let the session see. -/
def ApiError.rowLevelSecurity (table : String) : ApiError :=
  .error ("new row violates row-level security policy for table " ++ table)

/-- Prisma refuses to return a row without a relation its schema calls required. -/
def ApiError.inconsistentQueryResult (field : String) : ApiError :=
  .error ("Inconsistent query result: Field " ++ field ++
    " is required to return data, got null instead.")

end ShieldApi
