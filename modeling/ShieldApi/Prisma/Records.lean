import ShieldApi.Prisma.TenantIsolation

/-!
# What the policies keep, and what they let go

Three consequences of the migrated policies that the migrations state only in comments, or
not at all.

* Approvals of product requests and the answers given when an asset was set up are written
  once: no session of the request client changes or removes one (`records_stay`). For the
  answers nobody says so. Their policies ask for the inspection the answer belongs to, and an
  answer of the setup has none.
* A completed inspection stays as it is, unless its client is in demo mode
  (`completed_inspections_stay`).
* The policy of the customizations is `a AND b OR c` without parentheses. A session that may
  work at every site of its client finds the customizations of **every** client
  (`finds_customization_iff`, `customizations_unprotected`).
-/

set_option autoImplicit false

namespace ShieldApi

open RowSecurity

/-! ## 1. Records -/

/-- Rows that are written once. -/
def isRecord : PgTable → PgRow → Bool
  | .productRequestApproval, _ => true
  | .assetQuestionResponse, r => r .inspectionId = .null
  | _, _ => false

/-- Calls that hold of no record: the bypass, `1 = 0`, and a look for the inspection of an answer
    that has none. -/
def recordCalls (t : PgTable) (level : Nat) (f : PolicyFunction)
    (args : List (Operand Column Cell)) : Bool :=
  (f = .shouldBypassRls && args = []) ||
  (f = .equals && args = [.literal (.text "1"), .literal (.text "0")]) ||
  (t = .assetQuestionResponse && f = .equals && args.length = 2 &&
    args.getLast? = some (.column level .inspectionId))

theorem records_rest : ∀ t ∈ [PgTable.productRequestApproval, .assetQuestionResponse],
    ∀ cmd ∈ [Command.update, .delete], (currentCatalog t).secured = true ∧
      allRest (recordCalls t) ((currentCatalog t).existing cmd) = true := by
  simp only [currentCatalog_eq, Migrations.all, List.foldl_append]
  decide

theorem not_finds_of_rest {s : PgSession} {db : PgDatabase} {cmd : Command} {t : PgTable}
    {r : PgRow} {known : Nat → PolicyFunction → List (Operand Column Cell) → Bool}
    (hsecured : (s.catalog t).secured = true)
    (hrest : allRest known ((s.catalog t).existing cmd) = true)
    (hknown : ∀ (inner : List PgRow) (f : PolicyFunction) (args : List (Operand Column Cell)),
      known inner.length f args = true →
      s.call f (args.map (·.value (inner ++ [r]))) ≠ some true) :
    s.finds db cmd t r = false := by
  rw [← Bool.not_eq_true]
  intro h
  simp only [Session.finds, hsecured, Bool.not_true, Bool.false_or] at h
  exact Session.meets_of_rests hrest (fun inner f args hk hc => hknown inner f args hk hc) h

theorem recordCalls_not_true {ctx : RlsContext} {t : PgTable} {r : PgRow}
    (hr : isRecord t r = true) (inner : List PgRow) (f : PolicyFunction)
    (args : List (Operand Column Cell)) (h : recordCalls t inner.length f args = true) :
    (DbSession.request ctx).settings.policyCall f (args.map (·.value (inner ++ [r]))) ≠
      some true := by
  simp only [recordCalls, Bool.or_eq_true, Bool.and_eq_true, decide_eq_true_eq] at h
  rcases h with (⟨rfl, rfl⟩ | ⟨rfl, rfl⟩) | ⟨⟨⟨rfl, rfl⟩, hlen⟩, hlast⟩
  · exact policyCall_bypass_request
  · intro hcall
    exact absurd (policyCall_equals.mp hcall).1 (by simp [Operand.value])
  · obtain ⟨a, b, rfl⟩ := List.length_eq_two.mp hlen
    obtain rfl : b = .column inner.length .inspectionId := by simpa using hlast
    have hnull : r .inspectionId = .null := by simpa [isRecord] using hr
    have hvalue : (Operand.column inner.length Column.inspectionId).value (inner ++ [r]) =
        Cell.null := by
      simp [Operand.value, hnull]
    intro hcall
    obtain ⟨heq, hne⟩ := policyCall_equals.mp hcall
    exact hne (heq.trans hvalue)

theorem frozen_records (ctx : RlsContext) (db : PgDatabase) :
    Frozen (DbSession.request ctx).open db isRecord := by
  intro t r hr cmd hcmd
  have ht : t ∈ [PgTable.productRequestApproval, .assetQuestionResponse] := by
    unfold isRecord at hr
    split at hr
    · exact List.mem_cons_self
    · exact List.mem_cons_of_mem _ List.mem_cons_self
    · exact absurd hr (by decide)
  have hrest := records_rest t ht cmd (List.mem_pair.mpr hcmd)
  rw [← DbSession.open_catalog (.request ctx)] at hrest
  exact not_finds_of_rest hrest.1 hrest.2 (recordCalls_not_true hr)

/-- Completed inspections of client `c`. -/
def completedAt (c : String) (t : PgTable) (r : PgRow) : Bool :=
  t = .inspection && r .status = .text "COMPLETE" && r .clientId = .text c

/-- The client is not in demo mode. -/
def NotDemo (c : String) (db : PgDatabase) : Prop :=
  ∀ k ∈ db .client, k .id = .text c → k .demoMode ≠ .bool true

theorem inspection_conditions : (currentCatalog .inspection).secured = true ∧
    (currentCatalog .inspection).existing .update =
      [.and (.and Migrations.clientAndSite (Migrations.isOwner .inspectorId))
        (Migrations.incomplete 0), .call .shouldBypassRls []] ∧
    (currentCatalog .inspection).existing .delete =
      [.call .shouldBypassRls [],
       .and (.and Migrations.clientAndSite
          (.or Migrations.notRestrictSelf (Migrations.isOwner .inspectorId)))
        (.or (Migrations.incomplete 0) Migrations.clientInDemoMode)] := by
  simp only [currentCatalog_eq, Migrations.all, List.foldl_append]
  decide

section
variable {s : PgSession} {view : View PgTable Column Cell} {r : PgRow} {settings : Settings}

theorem not_incomplete (hr : r .status = .text "COMPLETE") :
    (Migrations.incomplete 0).eval settings.policyCall view [r] ≠ some true := by
  simp [Migrations.incomplete, Migrations.differs, Condition.eval, Operand.value,
    Settings.policyCall, hr, Cell.eq, Cell.isNull]

theorem of_clientInDemoMode
    (h : Migrations.clientInDemoMode.eval settings.policyCall view [r] = some true) :
    ∃ k ∈ view .client, k .id = r .clientId ∧ k .demoMode = .bool true := by
  obtain ⟨k, hk, heval⟩ := List.any_eq_true.mp (Option.some.inj h)
  simp only [decide_eq_true_eq, Migrations.equals, Condition.eval, Truth.and_eq_true,
    List.map_cons, List.map_nil, policyCall_equals] at heval
  exact ⟨k, hk, heval.1.1, heval.2.1⟩

end

theorem frozen_completed {ctx : RlsContext} {db : PgDatabase} {c : String} (hdemo : NotDemo c db) :
    Frozen (DbSession.request ctx).open db (completedAt c) := by
  intro t r hr cmd hcmd
  simp only [completedAt, Bool.and_eq_true, decide_eq_true_eq] at hr
  obtain ⟨⟨rfl, hstatus⟩, hclient⟩ := hr
  obtain ⟨hsecured, hupdate, hdelete⟩ := inspection_conditions
  rw [← Bool.not_eq_true]
  intro h
  rw [Session.finds, DbSession.open_catalog, hsecured, Bool.not_true, Bool.false_or] at h
  obtain ⟨cond, hcond, heval⟩ := List.any_eq_true.mp h
  rw [decide_eq_true_eq, DbSession.open_call] at heval
  have hbypass : (Condition.call PolicyFunction.shouldBypassRls [] : PgCondition).eval
      (DbSession.request ctx).settings.policyCall ((DbSession.request ctx).open.view db) [r] ≠
        some true := policyCall_bypass_request
  rcases hcmd with rfl | rfl
  · rw [hupdate] at hcond
    rcases List.mem_pair.mp hcond with rfl | rfl
    · exact not_incomplete hstatus (Truth.and_eq_true.mp heval).2
    · exact hbypass heval
  · rw [hdelete] at hcond
    rcases List.mem_pair.mp hcond with rfl | rfl
    · exact hbypass heval
    · rcases Truth.or_eq_true.mp (Truth.and_eq_true.mp heval).2 with h | h
      · exact not_incomplete hstatus h
      · obtain ⟨k, hk, hid, hon⟩ := of_clientInDemoMode h
        exact hdemo k (List.mem_filter.mp hk).1 (hid.trans hclient) hon

/-- A statement on another table leaves a table as it is. -/
theorem exec_other {α : Type} {s : PgSession} {db : PgDatabase} {st : PgStatement α} {t : PgTable}
    (h : st.table? ≠ some t) : (s.exec db st).2 t = db t := by
  cases st with
  | read query => rfl
  | insert t' rows reads =>
    have hne : t ≠ t' := fun heq => h (congrArg some heq.symm)
    simp only [Session.exec]
    split_ifs
    · exact Database.write_other hne _
    · rfl
  | update t' filter set reads =>
    have hne : t ≠ t' := fun heq => h (congrArg some heq.symm)
    simp only [Session.exec]
    split_ifs
    · exact Database.write_other hne _
    · rfl
  | delete t' filter reads =>
    have hne : t ≠ t' := fun heq => h (congrArg some heq.symm)
    exact Database.write_other hne _

/-- A completed inspection of client `c1`, and a session of its inspector. -/
def completedInspection : PgRow
  | .clientId => .text "c1"
  | .siteId => .text "s1"
  | .inspectorId => .text "p1"
  | .status => .text "COMPLETE"
  | _ => .null

theorem customization_conditions : ∀ cmd ∈ [Command.select, .insert, .update, .delete],
    (currentCatalog .clientAssetQuestionCustomization).secured = true ∧
    (currentCatalog .clientAssetQuestionCustomization).existing cmd =
      [.or (.and (Migrations.validateClient .clientId) (Migrations.isNull .siteId))
        (Migrations.validateSite .siteId), .call .shouldBypassRls []] := by
  simp only [currentCatalog_eq, Migrations.all, List.foldl_append]
  decide

/-- **What `a AND b OR c` lets through**: a customization of the session's client without a site,
    or one of any client whose site the session may work at. -/
theorem finds_customization_iff (ctx : RlsContext) (db : PgDatabase) (cmd : Command) (r : PgRow) :
    (DbSession.request ctx).open.finds db cmd .clientAssetQuestionCustomization r = true ↔
      (r .clientId = .text ctx.clientId ∧ r .siteId = .null) ∨
        (DbSession.request ctx).settings.siteValid (r .siteId) = some true := by
  obtain ⟨hsecured, hconditions⟩ := customization_conditions cmd (by cases cmd <;> simp)
  have hclient : (DbSession.request ctx).settings.policyCall .validateClient [r .clientId] =
      some true ↔ r .clientId = .text ctx.clientId := by
    constructor
    · exact cell_of_validateClient
    · intro h
      rw [h]
      simp [Settings.policyCall, DbSession.settings, Settings.cell, Settings.current,
        List.lookup_cons]
  have hbypass : ((DbSession.request ctx).settings.policyCall .shouldBypassRls [] = some true) ↔
      False := iff_false_intro policyCall_bypass_request
  rw [Session.finds, DbSession.open_catalog, hsecured, hconditions, Bool.not_true, Bool.false_or,
    Session.meets, DbSession.open_call]
  simp only [List.any_cons, List.any_nil, Bool.or_false, Bool.or_eq_true, decide_eq_true_eq,
    Condition.eval, Truth.or_eq_true, Truth.and_eq_true, Migrations.validateClient,
    Migrations.validateSite, Migrations.isNull, List.map_cons, List.map_nil, Operand.value,
    List.getElem?_cons_zero, Option.map_some, Option.getD_some, hclient, hbypass,
    policyCall_isNull, or_false]
  rfl

/-- **No customization is safe** from a session that may work at every site of its client: one
    `deleteMany` of it leaves none, of any client. -/
theorem customizations_unprotected {α : Type} (ctx : RlsContext)
    (hscope : ctx.scope = .system ∨ ctx.scope = .global ∨ ctx.scope = .client) (db : PgDatabase) :
    (DbSession.request ctx).open.view db .clientAssetQuestionCustomization =
      db .clientAssetQuestionCustomization ∧
    ((DbSession.request ctx).open.exec db (.delete .clientAssetQuestionCustomization
      (fun _ _ => true) true : PgStatement α)).2 .clientAssetQuestionCustomization = [] := by
  have hvalid : ∀ a, (DbSession.request ctx).settings.siteValid a = some true := by
    intro a
    have htext : ctx.scope.text ∈ ["SYSTEM", "GLOBAL", "CLIENT"] := by
      rcases hscope with h | h | h <;> rw [h] <;> decide
    have hscope? : (DbSession.request ctx).settings.scope? = some ctx.scope.text := by
      rcases hscope with h | h | h <;>
        simp [Settings.scope?, DbSession.settings, Settings.current, h, RoleScope.text, truthy]
    rw [Settings.siteValid, hscope?]
    exact if_pos htext
  have hfinds : ∀ cmd r, (DbSession.request ctx).open.finds db cmd
      .clientAssetQuestionCustomization r = true := fun cmd r =>
    (finds_customization_iff ctx db cmd r).mpr (.inr (hvalid _))
  refine ⟨?_, ?_⟩
  · rw [DbSession.view_open]
    exact List.filter_eq_self.mpr fun r _ => hfinds .select r
  · simp [Session.exec, Session.targets, hfinds]

theorem customizations_unprotected_administrator :
    (DbSession.request ⟨"p1", "c1", "s1", [], "", .client⟩).open.view
        (fun _ => [assetRow "c2" "s2"]) .clientAssetQuestionCustomization =
      [assetRow "c2" "s2"] ∧
    ((DbSession.request ⟨"p1", "c1", "s1", [], "", .client⟩).open.exec
      (fun _ => [assetRow "c2" "s2"]) (.delete .clientAssetQuestionCustomization
        (fun _ _ => true) true : PgStatement Unit)).2 .clientAssetQuestionCustomization = [] :=
  customizations_unprotected _ (.inr (.inr rfl)) fun _ => [assetRow "c2" "s2"]

end ShieldApi
