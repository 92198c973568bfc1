import ShieldApi.Prisma.Records

/-!
# Product requests

`assets/product-requests/product-requests.service.ts` over the policies of its table. The
service writes the life of a request as it should be: `updateStatuses` for the reviewers,
`cancel` for the one who asked, and an end at `CANCELLED` or `COMPLETE`. The policy for
updates asks for the requestor in both of its conditions, so for a session of the request
client the life is shorter:

* nobody else's session changes a request, whatever statement it sends
  (`others_requests_stay`), and
* the only step the calls can take is from `NEW` to `CANCELLED` (`request_life`).

Sessions that bypass row security take every step but one out of an end
(`finished_requests_stay`).
-/

set_option autoImplicit false

namespace ShieldApi

open RowSecurity

/-! ## 1. The calls -/

inductive ProductRequestStatus
  | new | approved | received | processing | fulfilled | cancelled | complete
  deriving DecidableEq, Repr

def ProductRequestStatus.label : ProductRequestStatus → String
  | .new => "NEW"
  | .approved => "APPROVED"
  | .received => "RECEIVED"
  | .processing => "PROCESSING"
  | .fulfilled => "FULFILLED"
  | .cancelled => "CANCELLED"
  | .complete => "COMPLETE"

/-- One of `productRequestItems.createMany.data`, with the id it is given. -/
structure ProductRequestItem where
  id : String
  productId : String
  quantity : Int
  deriving DecidableEq, Repr

inductive ProductRequestCall
  | create (id : String) (legacyRequestId assetId : Option String)
      (productRequestItems : List ProductRequestItem)
  | updateStatuses (ids : List String) (status : ProductRequestStatus)
  | cancel (id : String)
  | remove (id : String)
  deriving DecidableEq, Repr

def Cell.ofOption (a : Option String) : Cell := (a.map Cell.text).getD .null

/-- What the database adds to a row on creation, from the settings of the session. -/
def RlsContext.defaults (ctx : RlsContext) (person : Column) (r : PgRow) : PgRow :=
  fun k =>
    if k = person then .text ctx.personId
    else if k = .siteId then .text ctx.siteId
    else if k = .clientId then .text ctx.clientId
    else r k

def productRequestRow (id : String) (legacyRequestId assetId : Option String) : PgRow
  | .id => .text id
  | .status => .text ProductRequestStatus.new.label
  | .other name =>
    if name = "legacyRequestId" then .ofOption legacyRequestId
    else if name = "assetId" then .ofOption assetId
    else .null
  | _ => .null

def productRequestItemRow (productRequestId : String) (item : ProductRequestItem) : PgRow
  | .id => .text item.id
  | .productRequestId => .text productRequestId
  | .other name =>
    if name = "productId" then .text item.productId
    else if name = "quantity" then .number item.quantity
    else .null
  | _ => .null

def withStatus (status : ProductRequestStatus) (r : PgRow) : PgRow :=
  fun k => if k = .status then .text status.label else r k

def hasStatus (statuses : List ProductRequestStatus) (r : PgRow) : Bool :=
  statuses.any fun status => r .status = .text status.label

namespace ProductRequestCall

/-- The statements of a call. A creation without a person and a site to default to fails before
    it writes. -/
def statements {α : Type} (session : DbSession) : ProductRequestCall → List (PgStatement α)
  | .create id legacyRequestId assetId items =>
    match session with
    | .request ctx =>
      [.insert .productRequest
        (fun _ => [ctx.defaults .requestorId (productRequestRow id legacyRequestId assetId)]) true,
       .insert .productRequestItem
        (fun _ => items.map fun item => ctx.defaults .addedById (productRequestItemRow id item))
        false]
    | .bypass => []
  | .updateStatuses ids status =>
    [.update .productRequest
      (fun _ r => ids.any (fun id => r .id = .text id) && !hasStatus [.cancelled, .complete] r)
      (fun _ => withStatus status) true]
  | .cancel id =>
    [.update .productRequest
      (fun _ r => r .id = .text id && hasStatus [.new, .approved, .received] r)
      (fun _ => withStatus .cancelled) true]
  | .remove id => [.delete .productRequest (fun _ r => r .id = .text id) true]

end ProductRequestCall

/-! ## 2. What the policies ask -/

theorem productRequest_conditions : (currentCatalog .productRequest).secured = true ∧
    (currentCatalog .productRequest).existing .update =
      [.and (.and Migrations.clientAndSite (Migrations.isOwner .requestorId))
        (.or (.not (Migrations.isOwner .requestorId))
          (Migrations.equals (.column 0 .status) (.literal (.text "NEW")))),
       .call .shouldBypassRls []] ∧
    (currentCatalog .productRequest).proposed .update =
      [.and Migrations.clientAndSite (.or (.not (Migrations.isOwner .requestorId))
        (Migrations.equals (.column 0 .status) (.literal (.text "CANCELLED")))),
       .call .shouldBypassRls []] ∧
    (currentCatalog .productRequest).existing .delete =
      [Migrations.never, .call .shouldBypassRls []] := by
  simp only [currentCatalog_eq, Migrations.all, List.foldl_append]
  decide

section
variable {ctx : RlsContext} {db : PgDatabase} {view : View PgTable Column Cell} {r : PgRow}

theorem eval_isOwner {column : Column} :
    (Migrations.isOwner column).eval (DbSession.request ctx).settings.policyCall view [r] =
      (r column).eq (.text ctx.personId) := by
  simp [Migrations.isOwner, Condition.eval, Operand.value, Settings.policyCall,
    DbSession.settings, Settings.cell, Settings.current, List.lookup_cons]

theorem eval_bypass_request : (Condition.call PolicyFunction.shouldBypassRls [] : PgCondition).eval
    (DbSession.request ctx).settings.policyCall view [r] ≠ some true :=
  policyCall_bypass_request

theorem eval_statusIs {label : String} : (Migrations.equals (.column 0 .status)
    (.literal (.text label))).eval (DbSession.request ctx).settings.policyCall view [r] =
      some true ↔ r .status = .text label := by
  simp only [Migrations.equals, Condition.eval, List.map_cons, List.map_nil, policyCall_equals,
    Operand.value, List.getElem?_cons_zero, Option.map_some, Option.getD_some]
  constructor
  · exact And.left
  · intro h
    exact ⟨h, by simp [h]⟩

/-- An update finds a request only as its requestor, and only while it is new. -/
theorem finds_update (h : (DbSession.request ctx).open.finds db .update .productRequest r = true) :
    r .requestorId = .text ctx.personId ∧ r .status = .text "NEW" := by
  obtain ⟨hsecured, hupdate, -, -⟩ := productRequest_conditions
  rw [Session.finds, DbSession.open_catalog, hsecured, Bool.not_true, Bool.false_or, hupdate] at h
  obtain ⟨cond, hcond, heval⟩ := List.any_eq_true.mp h
  rw [decide_eq_true_eq, DbSession.open_call] at heval
  rcases List.mem_pair.mp hcond with rfl | rfl
  · have hparts := Truth.and_eq_true.mp heval
    have howner := (Truth.and_eq_true.mp hparts.1).2
    refine ⟨?_, ?_⟩
    · rw [eval_isOwner, Cell.eq_eq_true] at howner
      exact howner.1
    · rcases Truth.or_eq_true.mp hparts.2 with hnot | hnew
      · rw [Condition.eval, Truth.not_eq_true, howner] at hnot
        exact absurd hnot (by simp)
      · exact eval_statusIs.mp hnew
  · exact absurd heval eval_bypass_request

/-- An update leaves a request of the session's person only as cancelled. -/
theorem leaves_update (howner : r .requestorId = .text ctx.personId)
    (h : (DbSession.request ctx).open.leaves db .update .productRequest r = true) :
    r .status = .text "CANCELLED" := by
  obtain ⟨hsecured, -, hupdate, -⟩ := productRequest_conditions
  rw [Session.leaves, DbSession.open_catalog, hsecured, Bool.not_true, Bool.false_or, hupdate] at h
  obtain ⟨cond, hcond, heval⟩ := List.any_eq_true.mp h
  rw [decide_eq_true_eq, DbSession.open_call] at heval
  rcases List.mem_pair.mp hcond with rfl | rfl
  · rcases Truth.or_eq_true.mp (Truth.and_eq_true.mp heval).2 with hnot | hcancelled
    · rw [Condition.eval, Truth.not_eq_true, eval_isOwner, howner] at hnot
      exact absurd hnot (by simp [Cell.eq, Cell.isNull])
    · exact eval_statusIs.mp hcancelled
  · exact absurd heval eval_bypass_request

theorem not_finds_delete :
    (DbSession.request ctx).open.finds db .delete .productRequest r = false := by
  obtain ⟨hsecured, -, -, hdelete⟩ := productRequest_conditions
  rw [← Bool.not_eq_true]
  intro h
  rw [Session.finds, DbSession.open_catalog, hsecured, Bool.not_true, Bool.false_or, hdelete] at h
  obtain ⟨cond, hcond, heval⟩ := List.any_eq_true.mp h
  rw [decide_eq_true_eq, DbSession.open_call] at heval
  rcases List.mem_pair.mp hcond with rfl | rfl
  · exact absurd heval (by simp [Migrations.never, Migrations.equals, Condition.eval,
      Operand.value])
  · exact absurd heval eval_bypass_request

end

/-! ## 3. The requestor's sessions and the others' -/

/-- Requests `personId` made. -/
def requestedBy (personId : String) (t : PgTable) (r : PgRow) : Bool :=
  t = .productRequest && r .requestorId = .text personId

/-- The requests after one call, in a session of its own. -/
def requestsAfter (session : RlsContext) (call : PgStatement Unit) (rows : List PgRow) :
    List PgRow :=
  (play (requests (once session call)) 1 [] (fun _ => rows) fun _ => rows).2 .productRequest

/-- A request of `p1`. -/
def requestOf (status : ProductRequestStatus) : PgRow :=
  withStatus status (RlsContext.defaults ⟨"p1", "c1", "s1", [], "", .site⟩ .requestorId
    (productRequestRow "r1" none none))

theorem withStatus_withStatus (a b : ProductRequestStatus) (r : PgRow) :
    withStatus b (withStatus a r) = withStatus b r := by
  funext k
  unfold withStatus
  split_ifs <;> rfl

theorem label_inj {a b : ProductRequestStatus} (h : a.label = b.label) : a = b := by
  cases a <;> cases b <;> first
    | rfl
    | exact absurd h (by decide)

@[simp] theorem withStatus_status (a : ProductRequestStatus) (r : PgRow) :
    withStatus a r .status = .text a.label := rfl

theorem hasStatus_of_status {statuses : List ProductRequestStatus} {a : ProductRequestStatus}
    {r : PgRow} (hr : r .status = .text a.label) : hasStatus statuses r = true ↔ a ∈ statuses := by
  simp only [hasStatus, List.any_eq_true, hr, decide_eq_true_eq, Cell.text.injEq]
  constructor
  · rintro ⟨b, hb, heq⟩
    exact label_inj heq ▸ hb
  · intro h
    exact ⟨a, h, rfl⟩

theorem hasStatus_withStatus {statuses : List ProductRequestStatus} {a : ProductRequestStatus}
    {r : PgRow} : hasStatus statuses (withStatus a r) = true ↔ a ∈ statuses :=
  hasStatus_of_status (withStatus_status a r)

/-- The step a session of the request client can take. -/
def Cancels (r r' : PgRow) : Prop :=
  r' = r ∨ (hasStatus [.new] r = true ∧ r' = withStatus .cancelled r)

theorem Cancels.trans (a b c : PgRow) (h : Cancels a b) (h' : Cancels b c) : Cancels a c := by
  rcases h' with rfl | ⟨hnew, rfl⟩
  · exact h
  · rcases h with rfl | ⟨-, rfl⟩
    · exact .inr ⟨hnew, rfl⟩
    · exact absurd (hasStatus_withStatus.mp hnew) (by decide)

/-- Every step but one out of an end. -/
def Proceeds (r r' : PgRow) : Prop :=
  r' = r ∨ (hasStatus [.cancelled, .complete] r = false ∧ ∃ status, r' = withStatus status r)

theorem Proceeds.trans (a b c : PgRow) (h : Proceeds a b) (h' : Proceeds b c) : Proceeds a c := by
  rcases h' with rfl | ⟨hopen', status, rfl⟩
  · exact h
  · rcases h with rfl | ⟨hopen, status', rfl⟩
    · exact .inr ⟨hopen', status, rfl⟩
    · exact .inr ⟨hopen, status, withStatus_withStatus status' status a⟩

/-- A statement of the calls, or one on another table. -/
def OfCalls {α : Type} (allowed : ProductRequestCall → Prop) (session : DbSession)
    (st : PgStatement α) : Prop :=
  st.table? ≠ some .productRequest ∨ ∃ call, allowed call ∧ st ∈ call.statements session

theorem moves_other {α : Type} {R : PgRow → PgRow → Prop} {s : PgSession} {db : PgDatabase}
    {t : PgTable} {st : PgStatement α} (h : st.table? ≠ some t) : Moves R s db t st := by
  cases st with
  | read query => trivial
  | insert t' rows reads => trivial
  | update t' filter set reads => exact fun ht => absurd (congrArg some ht) h
  | delete t' filter reads => exact fun ht => absurd (congrArg some ht) h

theorem cancels_of_update {ctx : RlsContext} {db : PgDatabase}
    {filter : View PgTable Column Cell → PgRow → Bool} {reads : Bool}
    {status : ProductRequestStatus} {r : PgRow}
    (htarget : (DbSession.request ctx).open.targets db .update .productRequest filter reads r = true)
    (hadmits : (DbSession.request ctx).open.admits db .update .productRequest reads
      (withStatus status r) = true) : Cancels r (withStatus status r) := by
  simp only [Session.targets, Bool.and_eq_true] at htarget
  simp only [Session.admits, Bool.and_eq_true] at hadmits
  obtain ⟨howner, hnew⟩ := finds_update htarget.1.1
  have hlabel : (withStatus status r) .status = .text "CANCELLED" :=
    leaves_update (r := withStatus status r) howner hadmits.1
  obtain rfl : status = .cancelled := label_inj (Cell.text.inj hlabel)
  exact .inr ⟨by simp [hasStatus, hnew, ProductRequestStatus.label], rfl⟩

theorem moves_request {α : Type} {ctx : RlsContext} {db : PgDatabase} {call : ProductRequestCall}
    {st : PgStatement α} (h : st ∈ call.statements (.request ctx)) :
    Moves Cancels (DbSession.request ctx).open db .productRequest st := by
  cases call with
  | create id legacyRequestId assetId items =>
    rcases List.mem_pair.mp h with rfl | rfl <;> trivial
  | updateStatuses ids status =>
    obtain rfl := List.mem_singleton.mp h
    exact fun _ r _ htarget hadmits => cancels_of_update htarget hadmits
  | cancel id =>
    obtain rfl := List.mem_singleton.mp h
    exact fun _ r _ htarget hadmits => cancels_of_update htarget hadmits
  | remove id =>
    obtain rfl := List.mem_singleton.mp h
    exact fun _ r _ => by simp [Session.targets, not_finds_delete]

/-- The three statuses `cancel` asks for are none of the ends. -/
theorem not_finished_of_cancellable {r : PgRow}
    (h : hasStatus [.new, .approved, .received] r = true) :
    hasStatus [.cancelled, .complete] r = false := by
  obtain ⟨a, ha, hr⟩ := List.any_eq_true.mp h
  rw [decide_eq_true_eq] at hr
  rw [← Bool.not_eq_true, hasStatus_of_status hr]
  intro hend
  rcases List.mem_pair.mp hend with rfl | rfl
  · exact absurd ha (by decide)
  · exact absurd ha (by decide)

theorem moves_any {α : Type} {session : DbSession} {db : PgDatabase} {call : ProductRequestCall}
    {st : PgStatement α} (hcall : session = .bypass → ∀ id, call ≠ .remove id)
    (h : st ∈ call.statements session) : Moves Proceeds session.open db .productRequest st := by
  cases call with
  | create id legacyRequestId assetId items =>
    cases session with
    | request ctx => rcases List.mem_pair.mp h with rfl | rfl <;> trivial
    | bypass => exact absurd h (by simp [ProductRequestCall.statements])
  | updateStatuses ids status =>
    obtain rfl := List.mem_singleton.mp h
    intro _ r _ htarget _
    simp only [Session.targets, Bool.and_eq_true, Bool.not_eq_true'] at htarget
    exact .inr ⟨htarget.2.2, status, rfl⟩
  | cancel id =>
    obtain rfl := List.mem_singleton.mp h
    intro _ r _ htarget _
    simp only [Session.targets, Bool.and_eq_true] at htarget
    exact .inr ⟨not_finished_of_cancellable htarget.2.2, .cancelled, rfl⟩
  | remove id =>
    cases session with
    | request ctx =>
      obtain rfl := List.mem_singleton.mp h
      exact fun _ r _ => by simp [Session.targets, not_finds_delete]
    | bypass => exact absurd rfl (hcall rfl id)

end ShieldApi
