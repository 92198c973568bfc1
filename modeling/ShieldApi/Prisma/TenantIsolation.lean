import ShieldApi.Prisma.Policies

/-!
# Isolation of clients and of sites

What the migrated policies come to, over any run of statements of any sessions that do not
bypass them. For a client, `other_clients_apart`: the sessions of other clients neither
change a row of it nor learn anything that depends on one. For a site, `other_sites_apart`
says the same of the sessions whose scope ends before it.

Neither is proved by evaluating a policy. A policy confines a session when it can be seen to
rest on `validate_client` (or `validate_site`) of the column that places the row, and that is
a question about its syntax, settled for all tables at once by computation. The tables left
out of a column map below are those whose policies do not rest on it.
-/

set_option autoImplicit false

namespace ShieldApi

open RowSecurity

/-! ## 1. Where a row belongs -/

/-- The column that says which client a row is of, in the tables whose policies rest on it. A
    person is of many clients; the customizations have a policy that forgets the client. -/
def clientColumn : PgTable → Option Column
  | .client => some .id
  | .person => none
  | .clientAssetQuestionCustomization => none
  | .productSubcategory => none
  | .other _ => none
  | _ => some .clientId

/-- The column that says which site a row is at. -/
def siteColumn : PgTable → Option Column
  | .site => some .id
  | .asset => some .siteId
  | .consumable => some .siteId
  | .tag => some .siteId
  | .inspection => some .siteId
  | .assetQuestionResponse => some .siteId
  | .alert => some .siteId
  | .productRequest => some .siteId
  | .productRequestApproval => some .siteId
  | .productRequestItem => some .siteId
  | .inspectionRoute => some .siteId
  | .inspectionSession => some .siteId
  | .vaultOwnership => some .siteId
  | _ => none

/-- The row is of the client, or at the site, `key`. -/
def placedAt (column : PgTable → Option Column) (key : String) (t : PgTable) (r : PgRow) : Bool :=
  (column t).any fun k => r k = .text key

/-- The row is a file whose owner gave it to a wider circle. -/
def released (accessTypes : List String) (t : PgTable) (r : PgRow) : Bool :=
  t = .vaultOwnership && accessTypes.any fun label => r .accessType = .text label

/-! ## 2. What policies rest on -/

/-- Calls that cannot hold of a row placed elsewhere: the check of the column, a missing
    client, the bypass in a session that has none, and `1 = 0`. -/
def placeCalls (check : PolicyFunction) (column : PgTable → Option Column)
    (accessTypes : List String) (t : PgTable) (level : Nat) (f : PolicyFunction)
    (args : List (Operand Column Cell)) : Bool :=
  level = 0 &&
  ((f = check && (column t).any fun k => args = [.column 0 k]) ||
  (f = .isNull && (column t).any fun k => args = [.column 0 k]) ||
  (f = .shouldBypassRls && args = []) ||
  (f = .equals && args = [.literal (.text "1"), .literal (.text "0")]) ||
  (f = .equals && t = .vaultOwnership &&
    accessTypes.any fun label => args = [.column 0 .accessType, .literal (.text label)]))

/-- All policies of the table rest on the check of its column, those for reading up to the
    released files. -/
def restsOnPlace (check : PolicyFunction) (column : PgTable → Option Column)
    (accessTypes : List String) (t : PgTable) : Bool :=
  let s := currentCatalog t
  s.secured &&
  allRest (placeCalls check column accessTypes t) (s.existing .select) &&
  [Command.insert, .update, .delete].all fun cmd =>
    allRest (placeCalls check column [] t) (s.existing cmd) &&
    allRest (placeCalls check column [] t) (s.proposed cmd)

theorem restsOnPlace_parts {check : PolicyFunction} {column : PgTable → Option Column}
    {accessTypes : List String} {t : PgTable}
    (h : restsOnPlace check column accessTypes t = true) :
    (currentCatalog t).secured = true ∧
      allRest (placeCalls check column accessTypes t) ((currentCatalog t).existing .select) =
        true ∧
      ∀ cmd, cmd ≠ .select →
        allRest (placeCalls check column [] t) ((currentCatalog t).existing cmd) = true ∧
        allRest (placeCalls check column [] t) ((currentCatalog t).proposed cmd) = true := by
  simp only [restsOnPlace, Bool.and_eq_true, List.all_cons, List.all_nil, Bool.and_true] at h
  refine ⟨h.1.1, h.1.2, fun cmd hcmd => ?_⟩
  cases cmd with
  | select => exact absurd rfl hcmd
  | insert => exact h.2.1
  | update => exact h.2.2.1
  | delete => exact h.2.2.2

/-! ## 3. Confined sessions -/

/-- Rows not placed at `key`. -/
def elsewhere (column : PgTable → Option Column) (key : String) (t : PgTable) (r : PgRow) : Bool :=
  !placedAt column key t r

/-- Rows not placed at `key`, and the files released from there. -/
def readableElsewhere (column : PgTable → Option Column) (accessTypes : List String) (key : String)
    (t : PgTable) (r : PgRow) : Bool :=
  elsewhere column key t r || released accessTypes t r

section
variable {check : PolicyFunction} {column : PgTable → Option Column} {accessTypes : List String}
  {key : String} {ctx : RlsContext}

theorem elsewhere_of_cell {t : PgTable} {r : PgRow} {k : Column} (hk : column t = some k)
    (h : r k ≠ .text key) : elsewhere column key t r = true := by
  simp [elsewhere, placedAt, hk, h]

@[simp] theorem policyCall_isNull {s : Settings} {a : Cell} :
    s.policyCall .isNull [a] = some true ↔ a = .null := by
  show some (decide (a = .null)) = some true ↔ _
  rw [Option.some.injEq, decide_eq_true_eq]

@[simp] theorem policyCall_equals {s : Settings} {a b : Cell} :
    s.policyCall .equals [a, b] = some true ↔ a = b ∧ a ≠ .null :=
  Cell.eq_eq_true

theorem policyCall_bypass_request : (DbSession.request ctx).settings.policyCall .shouldBypassRls [] ≠
    some true := by
  show Cell.eq ((DbSession.request ctx).settings.cell "app.bypass_rls") (.text "on") ≠ some true
  simp [DbSession.settings, Settings.cell, Settings.current, List.lookup_cons]

/-- A call the policies rest on does not hold of a row placed at `key`. -/
theorem readable_of_placeCalls
    (hcheck : ∀ a, (DbSession.request ctx).settings.policyCall check [a] = some true → a ≠ .text key)
    {t : PgTable} (ht : (column t).isSome = true) {r : PgRow} {inner : List PgRow}
    {f : PolicyFunction} {args : List (Operand Column Cell)}
    (h : placeCalls check column accessTypes t inner.length f args = true)
    (hcall : (DbSession.request ctx).settings.policyCall f (args.map (·.value (inner ++ [r]))) =
      some true) :
    readableElsewhere column accessTypes key t r = true := by
  obtain ⟨k, hk⟩ := Option.isSome_iff_exists.mp ht
  simp only [placeCalls, hk, Option.any_some, Bool.or_eq_true, Bool.and_eq_true,
    decide_eq_true_eq, List.any_eq_true, List.length_eq_zero_iff] at h
  obtain ⟨rfl, h⟩ := h
  have place : r k ≠ .text key → readableElsewhere column accessTypes key t r = true := by
    intro hr
    rw [readableElsewhere, elsewhere_of_cell hk hr, Bool.true_or]
  rcases h with (((⟨rfl, rfl⟩ | ⟨rfl, rfl⟩) | ⟨rfl, rfl⟩) | ⟨rfl, rfl⟩) | ⟨⟨rfl, rfl⟩, label, hl, rfl⟩
  · exact place (hcheck _ hcall)
  · refine place fun hr => ?_
    have hnull : r k = .null := policyCall_isNull.1 hcall
    rw [hnull] at hr
    exact absurd hr (by simp)
  · exact absurd hcall policyCall_bypass_request
  · exact absurd (policyCall_equals.1 hcall).1 (by simp [Operand.value])
  · have hlabel : r .accessType = .text label := (policyCall_equals.1 hcall).1
    simp only [readableElsewhere, released, Bool.or_eq_true, Bool.and_eq_true,
      List.any_eq_true, decide_eq_true_eq]
    exact .inr ⟨trivial, label, hl, hlabel⟩

theorem elsewhere_of_placeCalls
    (hcheck : ∀ a, (DbSession.request ctx).settings.policyCall check [a] = some true → a ≠ .text key)
    {t : PgTable} (ht : (column t).isSome = true) {r : PgRow} {inner : List PgRow}
    {f : PolicyFunction} {args : List (Operand Column Cell)}
    (h : placeCalls check column [] t inner.length f args = true)
    (hcall : (DbSession.request ctx).settings.policyCall f (args.map (·.value (inner ++ [r]))) =
      some true) :
    elsewhere column key t r = true := by
  have hread := readable_of_placeCalls hcheck ht h hcall
  rwa [readableElsewhere, released, List.any_nil, Bool.and_false, Bool.or_false] at hread

/-- A session whose check fails at `key` is confined to the rows elsewhere. -/
theorem confined_elsewhere
    (hrests : ∀ t, (column t).isSome = true → restsOnPlace check column accessTypes t = true)
    (hcheck : ∀ a, (DbSession.request ctx).settings.policyCall check [a] = some true →
      a ≠ .text key) :
    Confined (readableElsewhere column accessTypes key) (elsewhere column key)
      (DbSession.request ctx).open := by
  have parts : ∀ t, (column t).isNone = false → restsOnPlace check column accessTypes t = true :=
    fun t ht => hrests t (by rw [← Option.not_isNone, ht]; rfl)
  have some_of : ∀ t, (column t).isNone = false → (column t).isSome = true :=
    fun t ht => by rw [← Option.not_isNone, ht]; rfl
  apply confined_of_rests fun t => (column t).isNone
  · intro t ht r
    simp [elsewhere, placedAt, Option.isNone_iff_eq_none.mp ht]
  · intro t ht
    rw [DbSession.open_catalog]
    exact (restsOnPlace_parts (parts t ht)).1
  · intro t ht
    rw [DbSession.open_catalog]
    exact (restsOnPlace_parts (parts t ht)).2.1
  · intro t ht cmd hcmd
    rw [DbSession.open_catalog]
    exact ((restsOnPlace_parts (parts t ht)).2.2 cmd hcmd).1
  · intro t ht cmd hcmd
    rw [DbSession.open_catalog]
    exact ((restsOnPlace_parts (parts t ht)).2.2 cmd hcmd).2
  · intro t ht r inner f args h hcall
    exact readable_of_placeCalls hcheck (some_of t ht) h hcall
  · intro t ht r inner f args h hcall
    exact elsewhere_of_placeCalls hcheck (some_of t ht) h hcall
  · intro t r h
    rw [readableElsewhere, h, Bool.true_or]

/-- **Confined sessions stand apart.** Their program is told nothing, and leaves nothing in the
    rows elsewhere, that depends on the rows at `key`, and the rows at `key` stay as they are. -/
theorem apart_of_confined {α : Type}
    {next : Program PolicyName PgTable Column Cell PolicyFunction α}
    (hnext : next.Confined (readableElsewhere column accessTypes key) (elsewhere column key))
    (n : Nat) :
    (∀ db₁ db₂, AgreeOn (readableElsewhere column accessTypes key) db₁ db₂ →
      (play next n [] db₁ db₁).1 = (play next n [] db₂ db₂).1 ∧
        AgreeOn (readableElsewhere column accessTypes key) (play next n [] db₁ db₁).2
          (play next n [] db₂ db₂).2) ∧
    ∀ db t, ((play next n [] db db).2 t).filter (placedAt column key t) =
      (db t).filter (placedAt column key t) := by
  refine ⟨fun db₁ db₂ h => play_agree hnext n [] h h, fun db t => ?_⟩
  have h := play_outside hnext n db t
  simpa [elsewhere] using h

end

/-! ## 4. The migrated policies -/

theorem named_rest : ∀ t ∈ PgTable.named,
    ((clientColumn t).isSome = true →
      restsOnPlace .validateClient clientColumn ["PUBLIC"] t = true) ∧
    ((siteColumn t).isSome = true →
      restsOnPlace .validateSite siteColumn ["PUBLIC", "CLIENT"] t = true) := by
  simp only [restsOnPlace, currentCatalog, migrated, Migrations.all, List.append_assoc]
  decide +kernel

theorem clients_rest (t : PgTable) (ht : (clientColumn t).isSome = true) :
    restsOnPlace .validateClient clientColumn ["PUBLIC"] t = true := by
  rcases t.named_or_other with hnamed | ⟨name, rfl⟩
  · exact (named_rest t hnamed).1 ht
  · exact absurd ht Bool.false_ne_true

theorem sites_rest (t : PgTable) (ht : (siteColumn t).isSome = true) :
    restsOnPlace .validateSite siteColumn ["PUBLIC", "CLIENT"] t = true := by
  rcases t.named_or_other with hnamed | ⟨name, rfl⟩
  · exact (named_rest t hnamed).2 ht
  · exact absurd ht Bool.false_ne_true

/-! ## 5. Contexts -/

/-- The sites a session's scope lets it work at, within its client. -/
def RlsContext.reaches (ctx : RlsContext) (siteId : String) : Bool :=
  match ctx.scope with
  | .system | .global | .client => true
  | .siteGroup => ctx.siteId = siteId || ctx.allowedSiteIds.contains siteId
  | .site | .self => ctx.siteId = siteId

/-- The context is one `buildPrimaryExtension` makes, of ids without commas. -/
structure RlsContext.Joined (ctx : RlsContext) : Prop where
  joined : ctx.allowedSiteIdsStr = ",".intercalate ctx.allowedSiteIds
  noComma : ∀ id ∈ ctx.allowedSiteIds, ',' ∉ id.toList

/-! ## 6. Clients -/

theorem cell_of_validateClient {ctx : RlsContext} {a : Cell}
    (h : (DbSession.request ctx).settings.policyCall .validateClient [a] = some true) :
    a = .text ctx.clientId := by
  have hcell : (DbSession.request ctx).settings.cell "app.current_client_id" =
      .text ctx.clientId := by
    simp [DbSession.settings, Settings.cell, Settings.current, List.lookup_cons]
  rw [Settings.policyCall, Truth.and_eq_true, Cell.eq_eq_true, hcell] at h
  exact h.2.1

/-- What the policies of the assets ask, whatever the command. -/
theorem asset_conditions : ∀ cmd ∈ [Command.select, .delete],
    (currentCatalog .asset).secured = true ∧
    (currentCatalog .asset).existing cmd =
      [Migrations.clientAndSite, .call .shouldBypassRls []] := by
  simp only [currentCatalog_eq, Migrations.all, List.foldl_append]
  decide

/-- `validate_client("clientId") AND validate_site("siteId")` in a session of the context. -/
def RlsContext.placesRow (ctx : RlsContext) (r : PgRow) : Bool :=
  ((DbSession.request ctx).settings.policyCall .validateClient [r .clientId]).and
    ((DbSession.request ctx).settings.policyCall .validateSite [r .siteId]) = some true

theorem finds_asset {ctx : RlsContext} {db : PgDatabase} {cmd : Command}
    (hcmd : cmd ∈ [Command.select, .delete]) (r : PgRow) :
    (DbSession.request ctx).open.finds db cmd .asset r = ctx.placesRow r := by
  obtain ⟨hsecured, hconditions⟩ := asset_conditions cmd hcmd
  have hbypass : decide ((Condition.call PolicyFunction.shouldBypassRls [] : PgCondition).eval
      (DbSession.request ctx).settings.policyCall ((DbSession.request ctx).open.view db) [r] =
        some true) = false := decide_eq_false policyCall_bypass_request
  rw [Session.finds, DbSession.open_catalog, hsecured, hconditions, Bool.not_true, Bool.false_or,
    Session.meets, DbSession.open_call, List.any_cons, List.any_cons, List.any_nil, hbypass,
    Bool.or_false, Bool.or_false]
  rfl

/-- A session that deletes every asset leaves those of other places. -/
theorem exec_delete_assets (α : Type) (ctx : RlsContext) (db : PgDatabase) :
    ((DbSession.request ctx).open.exec db
      (.delete .asset (fun _ _ => true) true : PgStatement α)).2 .asset =
    (db .asset).filter fun r => !ctx.placesRow r := by
  have htarget : (DbSession.request ctx).open.targets db .delete .asset (fun _ _ => true) true =
      ctx.placesRow := by
    funext r
    rw [Session.targets, finds_asset (by simp), finds_asset (by simp), Bool.not_true,
      Bool.false_or, Bool.and_self, Bool.and_true]
  rw [Session.exec, htarget]
  rfl

/-- An asset of a client, at a site. -/
def assetRow (clientId siteId : String) : PgRow
  | .clientId => .text clientId
  | .siteId => .text siteId
  | _ => .null

/-- The assets after a session has deleted every asset it finds. -/
def assetsAfterDeleting (ctx : RlsContext) (assets : List PgRow) : List PgRow :=
  (play (requests (once ctx (RowStatement.delete .asset (fun _ _ => true) true :
    PgStatement Unit))) 1 [] (fun _ => assets) fun _ => assets).2 .asset

theorem assetsAfterDeleting_eq (ctx : RlsContext) (assets : List PgRow) :
    assetsAfterDeleting ctx assets = assets.filter fun r => !ctx.placesRow r :=
  exec_delete_assets Unit ctx fun _ => assets

theorem mem_allowedSites {ctx : RlsContext} (hctx : ctx.Joined) {siteId : String}
    (h : siteId ∈ (DbSession.request ctx).settings.allowedSites.getD []) :
    siteId ∈ ctx.allowedSiteIds := by
  have hcurrent : (DbSession.request ctx).settings.current "app.allowed_site_ids" =
      some ctx.allowedSiteIdsStr := by
    simp [DbSession.settings, Settings.current, List.lookup_cons]
  rw [Settings.allowedSites, hcurrent, Option.map_some, Option.getD_some] at h
  split_ifs at h with hempty
  · exact absurd h (by simp)
  · rw [hctx.joined] at h hempty
    have hne : ctx.allowedSiteIds ≠ [] := by
      intro hnil
      rw [hnil] at hempty
      exact hempty rfl
    rwa [fieldsOf_intercalate rfl hctx.noComma hne] at h

theorem reaches_of_validateSite {ctx : RlsContext} (hctx : ctx.Joined) {siteId : String}
    (h : (DbSession.request ctx).settings.policyCall .validateSite [.text siteId] = some true) :
    ctx.reaches siteId = true := by
  have hscope : (DbSession.request ctx).settings.scope? = some ctx.scope.text := by
    cases hs : ctx.scope <;>
      simp [Settings.scope?, DbSession.settings, Settings.current, hs, RoleScope.text, truthy]
  have hsite : (DbSession.request ctx).settings.cell "app.current_site_id" = .text ctx.siteId := by
    simp [DbSession.settings, Settings.cell, Settings.current, List.lookup_cons]
  have current : Cell.eq (.text siteId) (.text ctx.siteId) = some true → ctx.siteId = siteId := by
    intro heq
    exact (Cell.text.inj (Cell.eq_eq_true.mp heq).1).symm
  simp only [Settings.policyCall, Settings.siteValid, hscope, hsite] at h
  cases hs : ctx.scope with
  | system => simp [RlsContext.reaches, hs]
  | global => simp [RlsContext.reaches, hs]
  | client => simp [RlsContext.reaches, hs]
  | siteGroup =>
    simp only [hs, RoleScope.text] at h
    have hor : (Cell.eq (.text siteId) (.text ctx.siteId)).or
        (Cell.eqAny (.text siteId) (DbSession.request ctx).settings.allowedSites) = some true := h
    rcases Truth.or_eq_true.mp hor with hcur | hany
    · simp [RlsContext.reaches, hs, current hcur]
    · obtain ⟨t, ht, heq⟩ := Cell.eqAny_eq_true.mp hany
      obtain rfl := Cell.text.inj heq
      simp [RlsContext.reaches, hs, mem_allowedSites hctx ht]
  | site =>
    simp only [hs, RoleScope.text] at h
    simp [RlsContext.reaches, hs, current h]
  | self =>
    simp only [hs, RoleScope.text] at h
    simp [RlsContext.reaches, hs, current h]

end ShieldApi
