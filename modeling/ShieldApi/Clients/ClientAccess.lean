import ShieldApi.Lib.Grouping
import ShieldApi.Auth.GrantReads

/-!
# Two listings of the same access

`ClientAccessService.getMyClientAccess` shows a user what they may do where: one entry for each
client and site they have rows at. A request for that client and site is then granted what
`getAccessGrantForUserFromDatabase` resolves. Both put the rows of the place together with
`reduceAccessGrants`, **but not in the same order**, and the entry takes its role from another
place: the grant has the role of the last row of the widest scope (the primary rows first, each
part by age), the entry has the role of the oldest row.

The scope and the capabilities do not depend on the order. `listing_agrees_iff` says what else
has to be so for an entry and its grant to agree: the two roles are the same, and no row of
another place was merged in, because its client and site spell the same grouping key.
-/

set_option autoImplicit false

namespace ShieldApi

/-! ## 1. The service -/

/-- `TMyClientAccess`, with the role's name that is returned besides. -/
structure MyClientAccess where
  clientId : String
  clientName : String
  siteId : String
  siteName : String
  roleId : String
  roleName : Option String := none
  scope : RoleScope
  capabilities : List String
  deriving DecidableEq, Repr

/-- What the rows are grouped by. -/
def placeKey (clientId siteId : String) : String := clientId ++ ":" ++ siteId

def AccessRecord.placeKey (r : AccessRecord) : String := ShieldApi.placeKey r.client.id r.site.id

namespace ClientAccessService

/-- The user's records, the oldest first. -/
def accesses (env : Env) (user : StatelessUser) (db : Db) : List AccessRecord :=
  (env.accessOrder.findManyBy PersonClientAccess.oldest (db.hasIdpId user.idpId)
    db.accesses.rows).filterMap db.accessRecord

/-- The entry of a group. -/
def entry (group : List AccessRecord) : Except ApiError MyClientAccess := do
  let merged ← reduceAccessGrants (group.map (·.grant))
  match group with
  | [] => throw (.error "No access grants provided")
  | first :: _ =>
    return {
      clientId := first.client.id
      clientName := first.client.name
      siteId := first.site.id
      siteName := first.site.name
      roleId := first.role.id
      roleName := some first.role.name
      scope := merged.scope
      capabilities := merged.capabilities }

/-- The row shown to a bootstrap admin without access. -/
def bootstrapEntry : MyClientAccess :=
  { clientId := "unknown"
    clientName := "System Administration"
    siteId := "unknown"
    siteName := "System"
    roleId := "system-admin"
    scope := .system
    capabilities := validCapabilities }

def getMyClientAccess (cfg : Config) (env : Env) (cls : Cls) (db : Db) :
    Except ApiError (List MyClientAccess) :=
  match cls.user with
  | none => return []
  | some user =>
    if (accesses env user db).isEmpty then
      if cfg.systemAdminEmails.contains (cfg.toLowerCase user.email) then return [bootstrapEntry]
      else return []
    else (grouped AccessRecord.placeKey (accesses env user db)).mapM fun group => entry group.2

/-! ## 2. What the entries are -/

/-- The records with a grouping key. -/
def groupAt (env : Env) (user : StatelessUser) (db : Db) (key : String) : List AccessRecord :=
  (accesses env user db).filter (·.placeKey = key)

theorem mem_accesses {env : Env} {user : StatelessUser} {db : Db} {r : AccessRecord} :
    r ∈ accesses env user db ↔ db.IsRecordOf user r := by
  unfold accesses Db.IsRecordOf
  simp only [List.mem_filterMap, RowOrder.mem_findManyBy, and_assoc, Table.mem_rows]

theorem mem_groupAt {env : Env} {user : StatelessUser} {db : Db} {key : String}
    {r : AccessRecord} :
    r ∈ groupAt env user db key ↔ db.IsRecordOf user r ∧ r.placeKey = key := by
  unfold groupAt
  rw [List.mem_filter, mem_accesses, decide_eq_true_eq]

/-- An entry has the place and the role of its group's first record, the widest scope and all
    the capabilities. -/
theorem entry_spec {group : List AccessRecord} {e : MyClientAccess} (h : entry group = .ok e) :
    ∃ first rest, group = first :: rest ∧ e.clientId = first.client.id ∧
      e.siteId = first.site.id ∧ e.roleId = first.role.id ∧
        (∃ r ∈ group, e.scope = r.role.scope) ∧
          (∀ r ∈ group, isScopeAtLeast e.scope r.role.scope = true) ∧
            ∀ c, c ∈ e.capabilities ↔ ∃ r ∈ group, c ∈ r.role.capabilities := by
  cases group with
  | nil => simp [entry, reduceAccessGrants, bind, Except.bind] at h
  | cons first rest =>
    obtain ⟨merged, hmerged⟩ := reduceAccessGrants_cons first.grant (rest.map (·.grant))
    simp only [entry, List.map_cons, hmerged, bind, Except.bind, pure, Except.pure,
      Except.ok.injEq] at h
    obtain ⟨⟨g, hg, hplace⟩, hwide, hcaps⟩ := reduceAccessGrants_spec hmerged
    rw [← List.map_cons (f := AccessRecord.grant)] at hg hwide hcaps
    obtain ⟨r, hr, rfl⟩ := List.mem_map.mp hg
    refine ⟨first, rest, rfl, ?_⟩
    rw [← h]
    refine ⟨rfl, rfl, rfl, ⟨r, hr, hplace.2.2.2⟩,
      fun r' hr' => hwide _ (List.mem_map_of_mem hr'), fun c => ?_⟩
    rw [hcaps c]
    simp only [List.mem_map, exists_exists_and_eq_and]
    rfl

theorem mapM_ok_mem {α β ε : Type} {f : α → Except ε β} :
    ∀ {as : List α} {bs : List β}, as.mapM f = .ok bs → ∀ b ∈ bs, ∃ a ∈ as, f a = .ok b
  | [], bs, h, b, hb => by
    rw [List.mapM_nil] at h
    cases h
    exact absurd hb List.not_mem_nil
  | a :: as, bs, h, b, hb => by
    rw [List.mapM_cons] at h
    cases ha : f a with
    | error e => simp [ha, bind, Except.bind] at h
    | ok b' =>
      cases has : as.mapM f with
      | error e => simp [ha, has, bind, Except.bind] at h
      | ok bs' =>
        simp only [ha, has, bind, Except.bind, pure, Except.pure, Except.ok.injEq] at h
        rw [← h] at hb
        rcases List.mem_cons.mp hb with rfl | hb
        · exact ⟨a, List.mem_cons_self .., ha⟩
        · obtain ⟨a', ha', hf⟩ := mapM_ok_mem has b hb
          exact ⟨a', List.mem_cons_of_mem _ ha', hf⟩

/-- An entry of a user with a row is that of a group. -/
theorem entry_of_mem {cfg : Config} {env : Env} {cls : Cls} {user : StatelessUser} {db : Db}
    {entries : List MyClientAccess} {e : MyClientAccess} (huser : cls.user = some user)
    (hrow : ∃ r, db.IsRecordOf user r) (hlist : getMyClientAccess cfg env cls db = .ok entries)
    (he : e ∈ entries) :
    ∃ key, entry (groupAt env user db key) = .ok e ∧ groupAt env user db key ≠ [] := by
  obtain ⟨r, hr⟩ := hrow
  have hne : ¬ (accesses env user db).isEmpty = true := by
    rw [List.isEmpty_iff]
    exact List.ne_nil_of_mem (mem_accesses.mpr hr)
  unfold getMyClientAccess at hlist
  rw [huser] at hlist
  dsimp only at hlist
  rw [if_neg hne] at hlist
  obtain ⟨⟨key, group⟩, hgroup, hentry⟩ := mapM_ok_mem hlist e he
  obtain ⟨hgroup, hnil⟩ := mem_grouped.mp hgroup
  refine ⟨key, ?_, ?_⟩
  · unfold groupAt
    rw [← hgroup]
    exact hentry
  · unfold groupAt
    rw [← hgroup]
    exact hnil

end ClientAccessService

/-! ## 3. When they agree -/

namespace MyClientAccess

/-- The record is at the entry's client and site. -/
def Here (e : MyClientAccess) (r : AccessRecord) : Prop :=
  r.client.id = e.clientId ∧ r.site.id = e.siteId

/-- The entry's client and site are active. -/
structure PlaceActive (db : Db) (e : MyClientAccess) : Prop where
  client : ∀ c ∈ db.clients, c.id = e.clientId → c.status = .active
  site : ∀ s ∈ db.sites, s.id = e.siteId → s.active = true

/-- A request for the entry's client and site under the intent `user`. -/
structure RequestedBy (ctx : AccessContext) (e : MyClientAccess) : Prop where
  client : truthy ctx.requestedClientId = some e.clientId
  site : truthy ctx.requestedSiteId = some e.siteId
  intent : ctx.accessIntent.getD .user = .user

/-- The answer is a grant of the entry's scope, capabilities and role. -/
def AgreesWith (answer : Except ApiError AccessGrantResult) (e : MyClientAccess) : Prop :=
  ∃ g, answer = .ok (.granted g) ∧ g.scope = e.scope ∧
    (∀ c, c ∈ g.capabilities ↔ c ∈ e.capabilities) ∧ g.roleId = e.roleId

/-- **The rows of the entry are the rows of the grant, as far as it shows:** a row of another
    place with the same grouping key adds neither scope nor capabilities, and the oldest row of
    the group has the role of the last of the widest rows of the place. -/
structure SameRows (env env' : Env) (user : StatelessUser) (ctx : AccessContext) (db : Db)
    (e : MyClientAccess) : Prop where
  scope : ∀ r, db.IsRecordOf user r → r.placeKey = placeKey e.clientId e.siteId →
    ∃ r', db.IsRecordOf user r' ∧ e.Here r' ∧
      isScopeAtLeast r'.role.scope r.role.scope = true
  capabilities : ∀ r, db.IsRecordOf user r → r.placeKey = placeKey e.clientId e.siteId →
    ∀ c ∈ r.role.capabilities, ∃ r', db.IsRecordOf user r' ∧ e.Here r' ∧ c ∈ r'.role.capabilities
  role : ∀ oldest rest last,
    ClientAccessService.groupAt env user db (placeKey e.clientId e.siteId) = oldest :: rest →
      LastWidest
        ((AuthService.selectedRecords ctx (db.accessRecordsOf env' user)).map (·.grant)) last →
      last.roleId = oldest.role.id

end MyClientAccess

namespace AuthService

/-- With active records the grant is the reduced one. -/
theorem validateAndBuild_active {records : List AccessRecord} (hne : records ≠ [])
    (h : ∀ r ∈ records, r.client.status = .active ∧ r.site.active = true) (ctx : AccessContext) :
    ∃ g, reduceAccessGrants (records.map (·.grant)) = .ok g ∧
      validateAndBuildAccessGrantResult records ctx = .ok (.granted g) := by
  obtain ⟨r₀, rs, rfl⟩ := List.exists_cons_of_ne_nil hne
  obtain ⟨g, hg⟩ := reduceAccessGrants_cons r₀.grant (rs.map (·.grant))
  refine ⟨g, hg, ?_⟩
  obtain ⟨⟨g₀, hg₀, hplace⟩, -⟩ := reduceAccessGrants_spec hg
  obtain ⟨r, hr, rfl⟩ := List.mem_map.mp (List.map_cons ▸ hg₀)
  obtain ⟨r', hr'⟩ : ∃ r', (r₀ :: rs).find? (fun r =>
      decide (r.client.id = g.clientId) && decide (r.site.id = g.siteId)) = some r' := by
    refine Option.isSome_iff_exists.mp (List.find?_isSome.mpr ⟨r, hr, ?_⟩)
    rw [hplace.1, hplace.2.1]
    simp [AccessRecord.grant]
  obtain ⟨hclient, hsite⟩ := h r' (List.mem_of_find?_eq_some hr')
  simp only [validateAndBuildAccessGrantResult, List.map_cons, hg, bind, Except.bind, hr', hclient,
    hsite, pure, Except.pure]
  simp

end AuthService

section Agreement

variable {cfg : Config} {env env' : Env} {user : StatelessUser} {ctx : AccessContext} {db : Db}
  {e : MyClientAccess}

open AuthService ClientAccessService

/-- The context selects the user's records at the place. -/
theorem mem_selected_here (hctx : e.RequestedBy ctx) {r : AccessRecord} :
    r ∈ selectedRecords ctx (db.accessRecordsOf env' user) ↔
      db.IsRecordOf user r ∧ e.Here r := by
  unfold selectedRecords
  simp only [hctx.client, List.mem_filter, mem_accessRecordsOf, isRequested, hctx.site,
    Option.all_some, Bool.and_eq_true, decide_eq_true_eq, MyClientAccess.Here]

theorem active_of_here (hactive : e.PlaceActive db) {r : AccessRecord}
    (hr : db.IsRecordOf user r) (hhere : e.Here r) :
    r.client.status = .active ∧ r.site.active = true := by
  obtain ⟨a, ha, -, hrec⟩ := hr
  unfold Db.accessRecord at hrec
  simp only [Option.bind_eq_bind, Option.bind_eq_some_iff, Option.pure_def, Option.some.injEq]
    at hrec
  obtain ⟨client, hclient, site, hsite, role, -, rfl⟩ := hrec
  exact ⟨hactive.client client (Table.find?_eq_some.mp hclient).1 hhere.1,
    hactive.site site (Table.find?_eq_some.mp hsite).1 hhere.2⟩

/-- The record has the grouping key of the entry. -/
def MyClientAccess.Grouped (e : MyClientAccess) (r : AccessRecord) : Prop :=
  r.placeKey = placeKey e.clientId e.siteId

theorem MyClientAccess.Here.grouped {r : AccessRecord} (h : e.Here r) : e.Grouped r := by
  unfold MyClientAccess.Grouped AccessRecord.placeKey
  rw [h.1, h.2]

/-- An entry in terms of the user's records. -/
theorem entry_from_records {cls : Cls} {entries : List MyClientAccess}
    (huser : cls.user = some user) (hrow : ∃ r, db.IsRecordOf user r)
    (hlist : getMyClientAccess cfg env cls db = .ok entries) (he : e ∈ entries) :
    ∃ oldest rest, groupAt env user db (placeKey e.clientId e.siteId) = oldest :: rest ∧
      db.IsRecordOf user oldest ∧ e.Here oldest ∧ e.roleId = oldest.role.id ∧
        (∃ r, db.IsRecordOf user r ∧ e.Grouped r ∧ e.scope = r.role.scope) ∧
          (∀ r, db.IsRecordOf user r → e.Grouped r →
            isScopeAtLeast e.scope r.role.scope = true) ∧
            ∀ c, c ∈ e.capabilities ↔
              ∃ r, db.IsRecordOf user r ∧ e.Grouped r ∧ c ∈ r.role.capabilities := by
  obtain ⟨key, hentry, -⟩ := entry_of_mem huser hrow hlist he
  obtain ⟨oldest, rest, hcons, hclient, hsite, hrole, ⟨r, hr, hscope⟩, hwide, hcaps⟩ :=
    entry_spec hentry
  have hmem : oldest ∈ groupAt env user db key := by
    rw [hcons]
    exact List.mem_cons_self ..
  obtain ⟨holdest, hkey⟩ := mem_groupAt.mp hmem
  obtain rfl : key = placeKey e.clientId e.siteId := by
    rw [hclient, hsite]
    exact hkey.symm
  obtain ⟨hrow, hk⟩ := mem_groupAt.mp hr
  refine ⟨oldest, rest, hcons, holdest, ⟨hclient.symm, hsite.symm⟩, hrole, ⟨r, hrow, hk, hscope⟩,
    fun r' hr' hk' => hwide r' (mem_groupAt.mpr ⟨hr', hk'⟩), fun c => ?_⟩
  rw [hcaps c]
  constructor
  · intro h
    obtain ⟨r', hr', hc⟩ := h
    obtain ⟨hrow', hk'⟩ := mem_groupAt.mp hr'
    exact ⟨r', hrow', hk', hc⟩
  · intro h
    obtain ⟨r', hrow', hk', hc⟩ := h
    exact ⟨r', mem_groupAt.mpr ⟨hrow', hk'⟩, hc⟩

/-- The grant for an active place the user has a row at, in the same terms. -/
theorem grant_from_records (hhere : ∃ r, db.IsRecordOf user r ∧ e.Here r)
    (hctx : e.RequestedBy ctx) (hactive : e.PlaceActive db) :
    ∃ g last, getAccessGrantForUserFromDatabase cfg env user ctx db = .ok (.granted g) ∧
      LastWidest ((selectedRecords ctx (db.accessRecordsOf env user)).map (·.grant)) last ∧
        g.roleId = last.roleId ∧
          (∃ r, db.IsRecordOf user r ∧ e.Here r ∧ g.scope = r.role.scope) ∧
            (∀ r, db.IsRecordOf user r → e.Here r →
              isScopeAtLeast g.scope r.role.scope = true) ∧
              ∀ c, c ∈ g.capabilities ↔
                ∃ r, db.IsRecordOf user r ∧ e.Here r ∧ c ∈ r.role.capabilities := by
  obtain ⟨r₀, hr₀, hhere₀⟩ := hhere
  have hne : selectedRecords ctx (db.accessRecordsOf env user) ≠ [] :=
    List.ne_nil_of_mem ((mem_selected_here hctx).mpr ⟨hr₀, hhere₀⟩)
  have hboot : ¬ BootstrapBranch cfg env user ctx db := fun h => hne h.2.1
  obtain ⟨g, hreduce, hgrant⟩ := validateAndBuild_active hne
    (fun r hr => active_of_here hactive ((mem_selected_here hctx).mp hr).1
      ((mem_selected_here hctx).mp hr).2) ctx
  obtain ⟨last, hplace, hlast⟩ := reduceAccessGrants_last hreduce
  obtain ⟨⟨g', hg', hplace'⟩, hwide, hcaps⟩ := reduceAccessGrants_spec hreduce
  obtain ⟨r, hr, rfl⟩ := List.mem_map.mp hg'
  obtain ⟨hrow, hhere⟩ := (mem_selected_here hctx).mp hr
  refine ⟨g, last, ?_, hlast, hplace.2.2.1, ⟨r, hrow, hhere, hplace'.2.2.2⟩,
    fun r' hr' hhere' => ?_, fun c => ?_⟩
  · rw [fromDatabase_user hctx.intent hboot, if_neg hne, hgrant]
  · exact hwide r'.grant (List.mem_map_of_mem ((mem_selected_here hctx).mpr ⟨hr', hhere'⟩))
  · rw [hcaps c]
    constructor
    · intro h
      obtain ⟨g', hg', hc⟩ := h
      obtain ⟨r', hr', rfl⟩ := List.mem_map.mp hg'
      obtain ⟨hrow', hhere'⟩ := (mem_selected_here hctx).mp hr'
      exact ⟨r', hrow', hhere', hc⟩
    · intro h
      obtain ⟨r', hrow', hhere', hc⟩ := h
      exact ⟨r'.grant, List.mem_map_of_mem ((mem_selected_here hctx).mpr ⟨hrow', hhere'⟩), hc⟩

/-- **When an entry agrees with the grant for its place.** -/
theorem listing_agrees_iff {cls : Cls} {entries : List MyClientAccess}
    (huser : cls.user = some user) (hrow : ∃ r, db.IsRecordOf user r)
    (hlist : getMyClientAccess cfg env cls db = .ok entries) (he : e ∈ entries)
    (hctx : e.RequestedBy ctx) (hactive : e.PlaceActive db) :
    MyClientAccess.AgreesWith (getAccessGrantForUserFromDatabase cfg env' user ctx db) e ↔
      e.SameRows env env' user ctx db := by
  obtain ⟨oldest, rest, hcons, holdest, hhere, hrole, ⟨r₁, hr₁, hk₁, hscope₁⟩, hwide₁, hcaps₁⟩ :=
    entry_from_records huser hrow hlist he
  obtain ⟨g, last, hanswer, hlast, hgrole, ⟨r₂, hr₂, hh₂, hscope₂⟩, hwide₂, hcaps₂⟩ :
      ∃ g last, getAccessGrantForUserFromDatabase cfg env' user ctx db = .ok (.granted g) ∧ _ :=
    grant_from_records ⟨oldest, holdest, hhere⟩ hctx hactive
  constructor
  · intro h
    obtain ⟨g', hg', hscope, hcaps, hroles⟩ := h
    obtain rfl : g = g' :=
      AccessGrantResult.granted.inj (Except.ok.inj (hanswer.symm.trans hg'))
    refine ⟨fun r hr hk => ?_, fun r hr hk c hc => ?_, fun oldest' rest' last' hcons' hlast' => ?_⟩
    · refine ⟨r₂, hr₂, hh₂, ?_⟩
      rw [← hscope₂, hscope]
      exact hwide₁ r hr hk
    · exact (hcaps₂ c).mp ((hcaps c).mpr ((hcaps₁ c).mpr ⟨r, hr, hk, hc⟩))
    · obtain rfl := hlast.unique hlast'
      obtain ⟨rfl, -⟩ := List.cons.inj (hcons.symm.trans hcons')
      rw [← hgrole, hroles, hrole]
  · intro h
    refine ⟨g, hanswer, ?_, fun c => ?_, ?_⟩
    · apply isScopeAtLeast_antisymm
      · obtain ⟨r, hr, hh, hle⟩ := h.scope r₁ hr₁ hk₁
        rw [hscope₁]
        exact isScopeAtLeast_trans (hwide₂ r hr hh) hle
      · rw [hscope₂]
        exact hwide₁ r₂ hr₂ hh₂.grouped
    · rw [hcaps₂ c, hcaps₁ c]
      constructor
      · intro hc
        obtain ⟨r, hr, hh, hc⟩ := hc
        exact ⟨r, hr, hh.grouped, hc⟩
      · intro hc
        obtain ⟨r, hr, hk, hc⟩ := hc
        exact h.capabilities r hr hk c hc
    · rw [hrole, hgrole]
      exact h.role oldest rest last hcons hlast

end Agreement

/-! ## 4. Two roles at one site -/

/-- `p` was made an inspector of `acme-1`, and a manager of it later. -/
def inspectorThenManager : Db where
  clients := ⟨[{ id := "acme", externalId := "x-acme", status := .active }],
    (List.nodup_singleton _ : ["acme"].Nodup)⟩
  sites := ⟨[{ id := "acme-1", externalId := "x-acme-1", createdOn := 0, clientId := "acme" }],
    (List.nodup_singleton _ : ["acme-1"].Nodup)⟩
  roles := ⟨[{ id := "inspector", name := "Inspector", capabilities := ["perform-inspections"] },
    { id := "manager", name := "Manager", capabilities := ["manage-users"] }],
    (by decide : ["inspector", "manager"].Nodup)⟩
  persons := ⟨[{ id := "p", firstName := "P", lastName := "P", email := "p@x.org",
                 idpId := some "idp-p" }],
    (List.nodup_singleton _ : ["p"].Nodup)⟩
  accesses := ⟨[{ createdOn := 0, isPrimary := true, personId := "p", clientId := "acme",
                  siteId := "acme-1", roleId := "inspector" },
    { createdOn := 1, isPrimary := true, personId := "p", clientId := "acme", siteId := "acme-1",
      roleId := "manager" }], by decide⟩

/-- The one entry of the listing. -/
def acmeEntry : MyClientAccess :=
  { clientId := "acme", clientName := "", siteId := "acme-1", siteName := "",
    roleId := "inspector", roleName := some "Inspector", scope := .site,
    capabilities := ["perform-inspections", "manage-users"] }

def atAcmeSite : AccessContext :=
  { requestedClientId := some "acme", requestedSiteId := some "acme-1",
    accessIntent := some .user }

theorem inspectorThenManager_listed :
    ClientAccessService.getMyClientAccess {} {} { user := some userP } inspectorThenManager =
      .ok [acmeEntry] := by
  decide

theorem acmeEntry_active : acmeEntry.PlaceActive inspectorThenManager := by
  refine ⟨fun c hc _ => ?_, fun s hs _ => ?_⟩
  · obtain rfl := List.mem_singleton.mp hc
    rfl
  · obtain rfl := List.mem_singleton.mp hs
    rfl

theorem inspectorThenManager_row : ∃ r, inspectorThenManager.IsRecordOf userP r :=
  ⟨_, _, List.mem_cons_self .., rfl, rfl⟩

/-- The entry is listed under the role `inspector`, and granted under the role `manager`. -/
theorem inspectorThenManager_differ :
    acmeEntry.RequestedBy atAcmeSite ∧ acmeEntry.PlaceActive inspectorThenManager ∧
      ClientAccessService.getMyClientAccess {} {} { user := some userP } inspectorThenManager =
        .ok [acmeEntry] ∧
      ¬ MyClientAccess.AgreesWith (AuthService.getAccessGrantForUserFromDatabase {} {} userP
        atAcmeSite inspectorThenManager) acmeEntry := by
  refine ⟨⟨rfl, rfl, rfl⟩, acmeEntry_active, inspectorThenManager_listed, fun h => ?_⟩
  obtain ⟨g, hg, -, -, hrole⟩ := h
  have hanswer : AuthService.getAccessGrantForUserFromDatabase {} {} userP atAcmeSite
      inspectorThenManager = .ok (.granted
        { roleId := "manager", scope := .site,
          capabilities := ["perform-inspections", "manage-users"], clientId := "acme",
          siteId := "acme-1" }) := by decide
  rw [hanswer] at hg
  cases hg
  exact absurd hrole (by decide)

theorem listing_agrees_iff_acme :
    MyClientAccess.AgreesWith (AuthService.getAccessGrantForUserFromDatabase {} {} userP
        atAcmeSite inspectorThenManager) acmeEntry ↔
      acmeEntry.SameRows {} {} userP atAcmeSite inspectorThenManager :=
  listing_agrees_iff rfl inspectorThenManager_row inspectorThenManager_listed
    (List.mem_singleton_self _) ⟨rfl, rfl, rfl⟩ acmeEntry_active

end ShieldApi
