import ShieldApi.Lib.Fields
import ShieldApi.Lib.RowSecurity
import ShieldApi.Prisma.Rls

/-!
# The policies, migration by migration

The row-security statements of `prisma/migrations`, in the order they are run, and the
functions the policies call, as the last migration that replaces them leaves them. What
stands in the database in the end is not written anywhere in the repository; it is what
`migrate` makes of these statements.

Each name below is the one the migration uses. A query or a join in a policy is an
`existsIn`, the level of a column counting the tables outwards.
-/

set_option autoImplicit false

namespace ShieldApi

open RowSecurity

/-! ## 1. Tables, columns and cells -/

inductive PgTable
  | asset | consumable | tag | inspection | assetQuestionResponse | alert
  | productRequest | productRequestApproval | productRequestItem
  | client | site | person | productCategory | manufacturer | product
  | assetQuestion | inspectionRoute | inspectionSession | vaultOwnership
  | productSubcategory | assetQuestionCondition | clientAssetQuestionCustomization
  | personClientAccess | invitation
  /-- A table no migration says anything about row security of. -/
  | other (name : String)
  deriving DecidableEq, Repr

/-- The tables the migrations name. -/
def PgTable.named : List PgTable :=
  [.asset, .consumable, .tag, .inspection, .assetQuestionResponse, .alert, .productRequest,
   .productRequestApproval, .productRequestItem, .client, .site, .person, .productCategory,
   .manufacturer, .product, .assetQuestion, .inspectionRoute, .inspectionSession, .vaultOwnership,
   .productSubcategory, .assetQuestionCondition, .clientAssetQuestionCustomization,
   .personClientAccess, .invitation]

theorem PgTable.named_or_other (t : PgTable) : t ∈ PgTable.named ∨ ∃ name, t = .other name := by
  cases t with
  | other name => exact .inr ⟨name, rfl⟩
  | _ => exact .inl (List.elem_iff.mp rfl)

/-- The columns the policies refer to, and any other. -/
inductive Column
  | id | clientId | siteId | personId | inspectorId | responderId | requestorId | approverId
  | addedById | ownerId | inspectionId | productRequestId | status | demoMode | accessType
  | other (name : String)
  deriving DecidableEq, Repr

/-- What a column holds; enumerations are their labels. -/
inductive Cell
  | null
  | text (s : String)
  | bool (b : Bool)
  | number (n : Int)
  deriving DecidableEq, Repr

instance : Inhabited Cell := ⟨.null⟩

namespace Cell

def isNull (a : Cell) : Bool := a = .null

/-- `a = b`. -/
def eq (a b : Cell) : Truth := if a.isNull || b.isNull then none else some (a = b)

/-- `a = ANY(array)`. -/
def eqAny (a : Cell) : Option (List String) → Truth
  | none => none
  | some texts => texts.foldr (fun t acc => (a.eq (.text t)).or acc) (some false)

@[simp] theorem eq_eq_true {a b : Cell} : a.eq b = some true ↔ a = b ∧ a ≠ .null := by
  unfold Cell.eq isNull
  split_ifs with h
  · simp only [Bool.or_eq_true, decide_eq_true_eq] at h
    constructor
    · simp
    · rintro ⟨rfl, ha⟩
      exact absurd (h.elim id id) ha
  · simp only [Bool.or_eq_true, decide_eq_true_eq, not_or] at h
    simp [h.1]

theorem eqAny_eq_true {a : Cell} {texts : Option (List String)} :
    a.eqAny texts = some true ↔ ∃ t ∈ texts.getD [], a = .text t := by
  cases texts with
  | none => simp [eqAny]
  | some texts =>
    induction texts with
    | nil => simp [eqAny]
    | cons t ts ih =>
      simp only [eqAny, Option.getD_some] at ih
      simp only [eqAny, List.foldr_cons, Truth.or_eq_true, eq_eq_true, ih, Option.getD_some,
        List.mem_cons, exists_eq_or_imp]
      constructor
      · rintro (h | h)
        · exact .inl h.1
        · exact .inr h
      · rintro (rfl | h)
        · exact .inl ⟨rfl, by simp⟩
        · exact .inr h

end Cell

/-! ## 2. The functions policies call -/

inductive PolicyFunction
  | validateClient
  | validateSite
  | restrictSelf
  | isOwner
  | shouldBypassRls
  /-- `get_current_scope() IN (...)`. -/
  | currentScopeIn (scopes : List String)
  | isNull
  | equals
  | differs
  deriving DecidableEq, Repr

namespace Settings

/-- `current_setting(name, TRUE)`, as a value of SQL. -/
def cell (s : Settings) (name : String) : Cell := ((s.current name).map Cell.text).getD .null

/-- `string_to_array(current_setting('app.allowed_site_ids', TRUE), ',')`. -/
def allowedSites (s : Settings) : Option (List String) :=
  (s.current "app.allowed_site_ids").map fun ids =>
    if ids = "" then [] else fieldsOf ',' ids

/-- `get_current_scope() IS NOT NULL AND get_current_scope() != ''`. -/
def scope? (s : Settings) : Option String := truthy (s.current "app.current_user_scope")

def siteValid (s : Settings) (siteId : Cell) : Truth :=
  let isCurrentSite := siteId.eq (s.cell "app.current_site_id")
  match s.scope? with
  | some scope =>
    if scope ∈ ["SYSTEM", "GLOBAL", "CLIENT"] then some true
    else if scope = "SITE_GROUP" then isCurrentSite.or (siteId.eqAny s.allowedSites)
    else if scope ∈ ["SITE", "SELF"] then isCurrentSite
    else some false
  | none => isCurrentSite

def restrictSelf (s : Settings) : Truth :=
  match s.scope? with
  | some scope => some (scope = "SELF")
  | none => some true

/-- What the functions answer in a transaction with these settings. -/
def policyCall (s : Settings) : PolicyFunction → List Cell → Truth
  | .validateClient, [clientId] =>
    Truth.and (some (s.current "app.current_client_id").isSome)
      (clientId.eq (s.cell "app.current_client_id"))
  | .validateSite, [siteId] => s.siteValid siteId
  | .restrictSelf, [] => s.restrictSelf
  | .isOwner, [personId] => personId.eq (s.cell "app.current_person_id")
  | .shouldBypassRls, [] => (s.cell "app.bypass_rls").eq (.text "on")
  | .currentScopeIn scopes, [] => (s.cell "app.current_user_scope").eqAny (some scopes)
  | .isNull, [a] => some a.isNull
  | .equals, [a, b] => a.eq b
  | .differs, [a, b] => (a.eq b).not
  | _, _ => none

end Settings

/-! ## 3. The migrations -/

inductive PolicyName
  | clientIsolationPolicy
  | clientIsolationPolicySelect | clientIsolationPolicyInsert
  | clientIsolationPolicyUpdate | clientIsolationPolicyDelete
  | clientAndUserIsolationPolicySelect | clientAndUserIsolationPolicyInsert
  | clientAndUserIsolationPolicyUpdate | clientAndUserIsolationPolicyDelete
  | bypassRlsPolicy
  deriving DecidableEq, Repr

abbrev PgCondition : Type := Condition PgTable Column Cell PolicyFunction
abbrev PgPolicy : Type := Policy PolicyName PgTable Column Cell PolicyFunction
abbrev PgDdl : Type := Ddl PolicyName PgTable Column Cell PolicyFunction
abbrev PgCatalog : Type := SecurityCatalog PolicyName PgTable Column Cell PolicyFunction

namespace Migrations

def validateClient (c : Column) : PgCondition := .call .validateClient [.column 0 c]
def validateSite (c : Column) : PgCondition := .call .validateSite [.column 0 c]
def isOwner (c : Column) : PgCondition := .call .isOwner [.column 0 c]
def notRestrictSelf : PgCondition := .not (.call .restrictSelf [])
def isNull (c : Column) : PgCondition := .call .isNull [.column 0 c]
def equals (a b : Operand Column Cell) : PgCondition := .call .equals [a, b]
def differs (a b : Operand Column Cell) : PgCondition := .call .differs [a, b]

/-- `validate_client("clientId") AND validate_site("siteId")`. -/
def clientAndSite : PgCondition := .and (validateClient .clientId) (validateSite .siteId)

/-- `1 = 0`. -/
def never : PgCondition := equals (.literal (.text "1")) (.literal (.text "0"))

/-- `"status" != 'COMPLETE'` of the table `level` out. -/
def incomplete (level : Nat) : PgCondition :=
  differs (.column level .status) (.literal (.text "COMPLETE"))

def isolation (c : PgCondition) : PgPolicy :=
  { name := .clientIsolationPolicy, usingExpr := some c }

def bypass : PgPolicy :=
  { name := .bypassRlsPolicy, usingExpr := some (.call .shouldBypassRls []) }

def isolationFor (name : PolicyName) (cmd : Command) (usingExpr withCheck : Option PgCondition) :
    PgPolicy :=
  { name, command := some cmd, usingExpr, withCheck }

/-- `client_isolation_policy_*` of a table whose rows without a client are for everybody. -/
def sharedCatalog (t : PgTable) (write : PgCondition) : List PgDdl :=
  [.createPolicy t (isolationFor .clientIsolationPolicySelect .select
      (some (.or (isNull .clientId) (validateClient .clientId))) none),
   .createPolicy t (isolationFor .clientIsolationPolicyInsert .insert none (some write)),
   .createPolicy t (isolationFor .clientIsolationPolicyUpdate .update (some write) (some write)),
   .createPolicy t (isolationFor .clientIsolationPolicyDelete .delete (some write) none)]

def rlsPolicies : List PgDdl :=
  let tables : List PgTable :=
    [.asset, .consumable, .tag, .inspection, .assetQuestionResponse, .alert, .productRequest,
     .productRequestApproval, .productRequestItem, .client, .site, .person, .productCategory,
     .manufacturer, .product]
  (tables.map .enableRowSecurity : List PgDdl) ++ (tables.map .forceRowSecurity : List PgDdl) ++
  ([.createPolicy .asset (isolation clientAndSite),
   .createPolicy .consumable (isolation clientAndSite),
   .createPolicy .tag (isolation clientAndSite),
   .createPolicy .alert (isolation clientAndSite),
   .createPolicy .client (isolation (validateClient .id)),
   .createPolicy .site (isolation (.and (validateClient .clientId) (validateSite .id))),
   .createPolicy .person (isolation clientAndSite),
   -- "Inspection"
   .createPolicy .inspection (isolationFor .clientAndUserIsolationPolicyInsert .insert none
      (some (.and clientAndSite (isOwner .inspectorId)))),
   .createPolicy .inspection (isolationFor .clientAndUserIsolationPolicyUpdate .update
      (some (.and (.and clientAndSite (isOwner .inspectorId)) (incomplete 0)))
      (some (.and clientAndSite (isOwner .inspectorId)))),
   .createPolicy .inspection (isolationFor .clientAndUserIsolationPolicySelect .select
      (some (.and clientAndSite (.or notRestrictSelf (isOwner .inspectorId)))) none),
   .createPolicy .inspection (isolationFor .clientAndUserIsolationPolicyDelete .delete
      (some (.and (.and clientAndSite (.or notRestrictSelf (isOwner .inspectorId)))
        (incomplete 0))) none),
   -- "AssetQuestionResponse"
   .createPolicy .assetQuestionResponse (isolationFor .clientAndUserIsolationPolicyInsert .insert
      none (some (.and clientAndSite (isOwner .responderId)))),
   .createPolicy .assetQuestionResponse (isolationFor .clientAndUserIsolationPolicyUpdate .update
      (some (.and (.and clientAndSite (isOwner .responderId))
        (.existsIn .inspection
          (.and (equals (.column 0 .id) (.column 1 .inspectionId)) (incomplete 0)))))
      (some (.and clientAndSite (isOwner .responderId)))),
   .createPolicy .assetQuestionResponse (isolationFor .clientAndUserIsolationPolicySelect .select
      (some (.and clientAndSite (.or notRestrictSelf (isOwner .responderId)))) none),
   .createPolicy .assetQuestionResponse (isolationFor .clientAndUserIsolationPolicyDelete .delete
      (some (.and (.and clientAndSite (.or notRestrictSelf (isOwner .responderId)))
        (.existsIn .inspection
          (.and (equals (.column 0 .id) (.column 1 .inspectionId)) (incomplete 0))))) none),
   -- "ProductRequest"
   .createPolicy .productRequest (isolationFor .clientAndUserIsolationPolicyInsert .insert none
      (some (.and clientAndSite (isOwner .requestorId)))),
   .createPolicy .productRequest (isolationFor .clientAndUserIsolationPolicyUpdate .update
      (some (.and (.and clientAndSite (isOwner .requestorId))
        (.or (.not (isOwner .requestorId))
          (equals (.column 0 .status) (.literal (.text "NEW"))))))
      (some (.and clientAndSite (.or (.not (isOwner .requestorId))
        (equals (.column 0 .status) (.literal (.text "CANCELLED"))))))),
   .createPolicy .productRequest (isolationFor .clientAndUserIsolationPolicySelect .select
      (some (.and clientAndSite (.or notRestrictSelf (isOwner .requestorId)))) none),
   .createPolicy .productRequest
      (isolationFor .clientAndUserIsolationPolicyDelete .delete (some never) none),
   -- "ProductRequestApproval"
   .createPolicy .productRequestApproval (isolationFor .clientAndUserIsolationPolicyInsert .insert
      none (some (.and clientAndSite (isOwner .approverId)))),
   .createPolicy .productRequestApproval (isolationFor .clientAndUserIsolationPolicyUpdate .update
      (some never) (some never)),
   .createPolicy .productRequestApproval (isolationFor .clientAndUserIsolationPolicySelect .select
      (some (.and clientAndSite (.or notRestrictSelf
        (.existsIn .productRequest
          (.and (equals (.column 0 .id) (.column 1 .productRequestId)) (isOwner .requestorId))))))
      none),
   .createPolicy .productRequestApproval
      (isolationFor .clientAndUserIsolationPolicyDelete .delete (some never) none),
   -- "ProductRequestItem"
   .createPolicy .productRequestItem (isolationFor .clientAndUserIsolationPolicyInsert .insert none
      (some (.and clientAndSite (isOwner .addedById)))),
   .createPolicy .productRequestItem (isolationFor .clientAndUserIsolationPolicyUpdate .update
      (some (.and clientAndSite (.or notRestrictSelf (isOwner .addedById))))
      (some (.and clientAndSite (.or notRestrictSelf (isOwner .addedById))))),
   .createPolicy .productRequestItem (isolationFor .clientAndUserIsolationPolicySelect .select
      (some (.and clientAndSite (.or notRestrictSelf (isOwner .addedById)))) none),
   .createPolicy .productRequestItem (isolationFor .clientAndUserIsolationPolicyDelete .delete
      (some (.and clientAndSite (.or notRestrictSelf (isOwner .addedById)))) none)] : List PgDdl) ++
  sharedCatalog .productCategory (validateClient .clientId) ++
  sharedCatalog .manufacturer (validateClient .clientId) ++
  sharedCatalog .product (validateClient .clientId) ++
  (tables.map fun t => .createPolicy t bypass : List PgDdl)

def scopeAssetQuestionsToClient : List PgDdl :=
  ([.enableRowSecurity .assetQuestion, .forceRowSecurity .assetQuestion] : List PgDdl) ++
  sharedCatalog .assetQuestion (validateClient .clientId) ++
  ([.createPolicy .assetQuestion bypass] : List PgDdl)

def fixInspectionRouteRls : List PgDdl :=
  [.enableRowSecurity .inspectionRoute, .enableRowSecurity .inspectionSession,
   .forceRowSecurity .inspectionRoute, .forceRowSecurity .inspectionSession,
   .createPolicy .inspectionRoute (isolation clientAndSite),
   .createPolicy .inspectionSession (isolation clientAndSite),
   .createPolicy .inspectionRoute bypass,
   .createPolicy .inspectionSession bypass]

/-- `"accessType" = '...'`. -/
def accessTypeIs (label : String) : PgCondition :=
  equals (.column 0 .accessType) (.literal (.text label))

def addVaultOwnershipTable : List PgDdl :=
  let owned : PgCondition := .and clientAndSite (isOwner .ownerId)
  [.enableRowSecurity .vaultOwnership, .forceRowSecurity .vaultOwnership,
   .createPolicy .vaultOwnership
      (isolationFor .clientAndUserIsolationPolicyInsert .insert none (some owned)),
   .createPolicy .vaultOwnership
      (isolationFor .clientAndUserIsolationPolicyUpdate .update (some owned) none),
   .createPolicy .vaultOwnership (isolationFor .clientAndUserIsolationPolicySelect .select
      (some (.or (accessTypeIs "PUBLIC") (.and (validateClient .clientId)
        (.or (accessTypeIs "CLIENT") (.and (validateSite .siteId)
          (.or (accessTypeIs "CLIENT_SITE")
            (.or (.and (accessTypeIs "CLIENT_OWNER") (.or notRestrictSelf (isOwner .ownerId)))
              (.and (accessTypeIs "STRICT_OWNER") (isOwner .ownerId)))))))))
      none),
   .createPolicy .vaultOwnership
      (isolationFor .clientAndUserIsolationPolicyDelete .delete (some owned) none),
   .createPolicy .vaultOwnership bypass]

/-- `EXISTS (SELECT 1 FROM "Client" WHERE "Client"."id" = "clientId" AND ... "demoMode")`. -/
def clientInDemoMode : PgCondition :=
  .existsIn .client (.and (equals (.column 0 .id) (.column 1 .clientId))
    (equals (.column 0 .demoMode) (.literal (.bool true))))

def updateInspectionRlsToAllowDemoDeletes : List PgDdl :=
  [.dropPolicyIfExists .assetQuestionResponse .clientAndUserIsolationPolicyDelete,
   .createPolicy .assetQuestionResponse (isolationFor .clientAndUserIsolationPolicyDelete .delete
      (some (.and (.and clientAndSite (.or notRestrictSelf (isOwner .responderId)))
        (.existsIn .inspection (.existsIn .client
          (.and (equals (.column 0 .id) (.column 1 .clientId))
            (.and (equals (.column 1 .id) (.column 2 .inspectionId))
              (.or (incomplete 1)
                (equals (.column 0 .demoMode) (.literal (.bool true)))))))))) none),
   .dropPolicyIfExists .inspection .clientAndUserIsolationPolicyDelete,
   .createPolicy .inspection (isolationFor .clientAndUserIsolationPolicyDelete .delete
      (some (.and (.and clientAndSite (.or notRestrictSelf (isOwner .inspectorId)))
        (.or (incomplete 0) clientInDemoMode))) none)]

/-- The one table of its kind without a delete policy. -/
def assignProductSubcategoryRlsPolicy : List PgDdl :=
  ([.enableRowSecurity .productSubcategory, .forceRowSecurity .productSubcategory] : List PgDdl) ++
  (sharedCatalog .productSubcategory (validateClient .clientId)).dropLast ++
  ([.createPolicy .productSubcategory bypass] : List PgDdl)

def addAssetQuestionConditionRlsPolicy : List PgDdl :=
  ([.enableRowSecurity .assetQuestionCondition,
    .forceRowSecurity .assetQuestionCondition] : List PgDdl) ++
  sharedCatalog .assetQuestionCondition (validateClient .clientId) ++
  ([.createPolicy .assetQuestionCondition bypass] : List PgDdl)

def assetMetadataAndClientCustomizations : List PgDdl :=
  [.enableRowSecurity .clientAssetQuestionCustomization,
   .forceRowSecurity .clientAssetQuestionCustomization,
   .createPolicy .clientAssetQuestionCustomization
      (isolation (.or (.and (validateClient .clientId) (isNull .siteId)) (validateSite .siteId))),
   .createPolicy .clientAssetQuestionCustomization bypass]

def removeProductSubcategory : List PgDdl := [.dropTable .productSubcategory]

def loosenPersonTableRlsPolicy : List PgDdl :=
  [.dropPolicyIfExists .person .clientIsolationPolicy,
   .createPolicy .person (isolationFor .clientIsolationPolicySelect .select
      (some (validateClient .clientId)) none),
   .createPolicy .person (isolationFor .clientIsolationPolicyInsert .insert none
      (some clientAndSite)),
   .createPolicy .person (isolationFor .clientIsolationPolicyUpdate .update
      (some clientAndSite) (some clientAndSite)),
   .createPolicy .person (isolationFor .clientIsolationPolicyDelete .delete
      (some clientAndSite) none)]

def updateInspectionRlsToAllowDemoCreations : List PgDdl :=
  [.dropPolicyIfExists .assetQuestionResponse .clientAndUserIsolationPolicyInsert,
   .createPolicy .assetQuestionResponse (isolationFor .clientAndUserIsolationPolicyInsert .insert
      none (some (.and clientAndSite (.or (isOwner .responderId) clientInDemoMode)))),
   .dropPolicyIfExists .inspection .clientAndUserIsolationPolicyInsert,
   .createPolicy .inspection (isolationFor .clientAndUserIsolationPolicyInsert .insert
      none (some (.and clientAndSite (.or (isOwner .inspectorId) clientInDemoMode))))]

def addMultiClientAccessTables : List PgDdl :=
  [.dropPolicyIfExists .person .clientIsolationPolicy,
   .dropPolicyIfExists .person .clientIsolationPolicySelect,
   -- The other three policies of "Person" go with the columns they refer to.
   .dropColumnsCascade .person [.clientId, .siteId],
   .createPolicy .person (isolation (.existsIn .personClientAccess
      (.and (equals (.column 0 .personId) (.column 1 .id)) (validateClient .clientId)))),
   .createPolicy .personClientAccess (isolation (validateClient .clientId)),
   .createPolicy .invitation (isolation (validateClient .clientId)),
   .createPolicy .personClientAccess bypass,
   .createPolicy .invitation bypass]

def enableRlsInvitationAndPersonClientAccess : List PgDdl :=
  [.enableRowSecurity .invitation, .enableRowSecurity .personClientAccess,
   .forceRowSecurity .invitation, .forceRowSecurity .personClientAccess]

/-- `validate_client("clientId") OR (get_current_scope() IN (...) AND "clientId" IS NULL)`. -/
def clientOrGlobalScope : PgCondition :=
  .or (validateClient .clientId)
    (.and (.call (.currentScopeIn ["SYSTEM", "GLOBAL"]) []) (isNull .clientId))

def rescope (t : PgTable) : List PgDdl :=
  ([.dropPolicyIfExists t .clientIsolationPolicySelect,
    .dropPolicyIfExists t .clientIsolationPolicyInsert,
    .dropPolicyIfExists t .clientIsolationPolicyUpdate,
    .dropPolicyIfExists t .clientIsolationPolicyDelete,
    .dropPolicyIfExists t .bypassRlsPolicy] : List PgDdl) ++
  sharedCatalog t clientOrGlobalScope ++ ([.createPolicy t bypass] : List PgDdl)

def scopeAssetQuestionRlsPolicies : List PgDdl :=
  rescope .assetQuestion ++ rescope .assetQuestionCondition ++ rescope .product ++
  rescope .manufacturer ++ rescope .productCategory

/-- The directories of `prisma/migrations`, by date, as far as they touch row security. -/
def all : List PgDdl :=
  rlsPolicies ++ scopeAssetQuestionsToClient ++ fixInspectionRouteRls ++
  addVaultOwnershipTable ++ updateInspectionRlsToAllowDemoDeletes ++
  assignProductSubcategoryRlsPolicy ++ addAssetQuestionConditionRlsPolicy ++
  assetMetadataAndClientCustomizations ++ removeProductSubcategory ++
  loosenPersonTableRlsPolicy ++ updateInspectionRlsToAllowDemoCreations ++
  addMultiClientAccessTables ++ enableRlsInvitationAndPersonClientAccess ++
  scopeAssetQuestionRlsPolicies

end Migrations

/-- The database after all migrations, if they run. -/
def migrated : Option PgCatalog := SecurityCatalog.migrate (fun _ => {}) Migrations.all

theorem migrated_isSome : migrated.isSome = true := by
  -- to the right, where a statement is not carried through every list before it
  simp only [migrated, Migrations.all, List.append_assoc]
  decide +kernel

def currentCatalog : PgCatalog := migrated.getD fun _ => {}

theorem currentCatalog_eq (t : PgTable) :
    currentCatalog t = Migrations.all.foldl (TableSecurity.after t) {} := by
  obtain ⟨cat, hruns⟩ := Option.isSome_iff_exists.mp migrated_isSome
  rw [currentCatalog, hruns, Option.getD_some]
  exact SecurityCatalog.migrate_at hruns t

/-! ## 4. Sessions -/

/-- The transaction of one query: of the request client with a context, or of a client that
    bypasses row security. -/
inductive DbSession
  | request (ctx : RlsContext)
  | bypass
  deriving DecidableEq, Repr

/-- What `buildRLSContextStatements` has set when the query runs. -/
def DbSession.settings : DbSession → Settings
  | .request ctx =>
    [("app.current_user_scope", ctx.scope.text), ("app.current_person_id", ctx.personId),
     ("app.allowed_site_ids", ctx.allowedSiteIdsStr), ("app.current_site_id", ctx.siteId),
     ("app.current_client_id", ctx.clientId)]
  | .bypass => [("app.bypass_rls", "on")]

theorem settings_of_extension (px : PrimaryExtension) {ctx : RlsContext}
    (hctx : px.rlsContext = some ctx) :
    px.settings = .ok (if px.bypassRLS then DbSession.bypass else .request ctx).settings := by
  unfold PrimaryExtension.settings buildRLSContextStatements
  rw [hctx]
  cases px.bypassRLS <;> rfl

abbrev PgSession : Type := Session PolicyName PgTable Column Cell PolicyFunction
abbrev PgRow : Type := Row Column Cell
abbrev PgDatabase : Type := Database PgTable Column Cell
abbrev PgStatement (α : Type) : Type := RowStatement PgTable Column Cell α

/-- No policy looks further than from a response to its inspection to the client. -/
def DbSession.open (s : DbSession) : PgSession :=
  { catalog := currentCatalog, call := s.settings.policyCall, depth := 3 }

theorem DbSession.open_catalog (s : DbSession) (t : PgTable) :
    s.open.catalog t = currentCatalog t := by
  rw [DbSession.open]

/-- How deep the policies for reading a table look into others. -/
def readingDepth : PgTable → Nat
  | .person => 1
  | .productRequestApproval => 1
  | _ => 0

/-- The table of a policy is one with a name here, and where the policy is for reading it looks
    into tables that look less deep. -/
def PgDdl.descends : PgDdl → Bool
  | .createPolicy (.other _) _ => false
  | .createPolicy t p => !p.appliesTo .select || p.usingExpr.toList.all fun c =>
      c.tables.all fun t' => readingDepth t' < readingDepth t
  | _ => true

theorem migrations_descend : ∀ d ∈ Migrations.all, PgDdl.descends d = true := by
  simp only [Migrations.all, List.append_assoc]
  decide +kernel

theorem created_of_currentCatalog {t : PgTable} {p : PgPolicy}
    (hp : p ∈ (currentCatalog t).policies) : Ddl.createPolicy t p ∈ Migrations.all := by
  rw [currentCatalog] at hp
  cases hruns : migrated with
  | none =>
    rw [hruns] at hp
    exact absurd hp List.not_mem_nil
  | some cat =>
    rw [hruns, Option.getD_some] at hp
    exact (SecurityCatalog.created_of_migrate hruns hp).resolve_left List.not_mem_nil

theorem currentCatalog_other (name : String) : (currentCatalog (.other name)).policies = [] := by
  refine List.eq_nil_iff_forall_not_mem.mpr fun p hp => ?_
  exact absurd (migrations_descend _ (created_of_currentCatalog hp)) Bool.false_ne_true

theorem readingDepth_decreases (t : PgTable) :
    ∀ c ∈ (currentCatalog t).existing .select, ∀ t' ∈ c.tables,
      readingDepth t' < readingDepth t := by
  intro c hc t' ht'
  obtain ⟨p, hp, hcond⟩ := List.mem_flatMap.mp hc
  obtain ⟨hpolicy, hreads⟩ := List.mem_filter.mp hp
  have hdescends := migrations_descend _ (created_of_currentCatalog hpolicy)
  cases t with
  | other name => exact absurd hdescends Bool.false_ne_true
  | _ =>
    simp only [PgDdl.descends, hreads, Bool.not_true, Bool.false_or, List.all_eq_true,
      decide_eq_true_eq] at hdescends
    exact hdescends c hcond t' ht'

/-- The depth of `open` is enough: what a session sees of a table is what its policies for
    reading find in it. -/
theorem DbSession.view_open (s : DbSession) (db : PgDatabase) (t : PgTable) :
    s.open.view db t = (db t).filter (s.open.finds db .select t) := by
  have hrank : ∀ t, ∀ c ∈ (s.open.catalog t).existing .select, ∀ t' ∈ c.tables,
      readingDepth t' < readingDepth t := by
    intro t
    rw [DbSession.open_catalog]
    exact readingDepth_decreases t
  have hdeep : readingDepth t < s.open.depth := by
    unfold readingDepth
    split <;> exact Nat.lt_of_sub_eq_succ rfl
  have hsees : s.open.sees db (s.open.depth + 1) t = s.open.sees db s.open.depth t :=
    Session.sees_of_rank s.open db readingDepth hrank _ t hdeep
  rw [Session.view, ← hsees]
  rfl

@[simp] theorem DbSession.open_call (s : DbSession) : s.open.call = s.settings.policyCall := rfl

/-- A program whose statements are each sent in a session of their own. -/
def sessions {α : Type}
    (next : List (Outcome Column Cell α) → Option (Action DbSession (PgStatement α))) :
    Program PolicyName PgTable Column Cell PolicyFunction α :=
  fun past => (next past).map (·.mapSession DbSession.open)

theorem sessions_eq_send {α : Type}
    {next : List (Outcome Column Cell α) → Option (Action DbSession (PgStatement α))}
    {past : List (Outcome Column Cell α)} {s : PgSession} {st : PgStatement α}
    (h : sessions next past = some (.send s st)) :
    ∃ session, next past = some (.send session st) ∧ s = session.open := by
  obtain ⟨action, hnext, heq⟩ := Option.map_eq_some_iff.mp h
  cases action with
  | send session st' =>
    obtain ⟨hs, rfl⟩ := Action.send.inj heq
    exact ⟨session, hnext, hs.symm⟩
  | commit => exact absurd heq (by simp [Action.mapSession])
  | rollback => exact absurd heq (by simp [Action.mapSession])

/-- A program of the request client. -/
def requests {α : Type}
    (next : List (Outcome Column Cell α) → Option (Action RlsContext (PgStatement α))) :
    Program PolicyName PgTable Column Cell PolicyFunction α :=
  sessions fun past => (next past).map (·.mapSession .request)

theorem requests_eq_send {α : Type}
    {next : List (Outcome Column Cell α) → Option (Action RlsContext (PgStatement α))}
    {past : List (Outcome Column Cell α)} {s : PgSession} {st : PgStatement α}
    (h : requests next past = some (.send s st)) :
    ∃ ctx, next past = some (.send ctx st) ∧ s = (DbSession.request ctx).open := by
  obtain ⟨session, hsession, rfl⟩ := sessions_eq_send h
  obtain ⟨action, hnext, heq⟩ := Option.map_eq_some_iff.mp hsession
  cases action with
  | send ctx st' =>
    obtain ⟨rfl, rfl⟩ := Action.send.inj heq
    exact ⟨ctx, hnext, rfl⟩
  | commit => exact absurd heq (by simp [Action.mapSession])
  | rollback => exact absurd heq (by simp [Action.mapSession])

/-- The program of one statement. -/
def once {S Q α : Type} (session : S) (st : Q) : List (Outcome Column Cell α) → Option (Action S Q)
  | [] => some (.send session st)
  | _ :: _ => none

theorem once_eq_send {S Q α : Type} {session session' : S} {st st' : Q}
    {past : List (Outcome Column Cell α)}
    (h : once session st past = some (.send session' st')) : session' = session ∧ st' = st := by
  cases past with
  | nil =>
    obtain ⟨rfl, rfl⟩ := Action.send.inj (Option.some.inj h)
    exact ⟨rfl, rfl⟩
  | cons _ _ => exact absurd h (by simp [once])

end ShieldApi
