import ShieldApi.Auth.SiteVisibility

/-!
# What a member with several roles is notified of

`getVisibleAssetsForMember` of `auth/utils/site-visibility.ts`, and the query of
`client-notifications.processor.ts` that supplies its members. The rows a person has for the
client are reduced to one grant, and one grant has one site.

**A member sees what the last row of the widest scope sees**, and that is what any of the rows
sees only where each row of the widest scope sees all of it (`getVisibleAssetsForMember_iff`).
-/

set_option autoImplicit false

namespace ShieldApi

/-! ## 1. Members -/

/-- A row of `clientAccess` with the role the query includes. -/
structure ClientAccessWithRole where
  access : PersonClientAccess
  role : Role
  deriving DecidableEq, Repr

structure TPersonWithClientAccess where
  person : Person
  clientAccess : List ClientAccessWithRole
  deriving DecidableEq, Repr

def ClientAccessWithRole.grant (ca : ClientAccessWithRole) : AccessGrant where
  clientId := ca.access.clientId
  siteId := ca.access.siteId
  roleId := ca.role.id
  scope := ca.role.scope
  capabilities := ca.role.capabilities

/-- The rows are filtered by client once more. -/
def TPersonWithClientAccess.accessAt (member : TPersonWithClientAccess) (clientId : String) :
    List ClientAccessWithRole :=
  member.clientAccess.filter (·.access.clientId = clientId)

section Assets

variable {α : Type} (siteId : α → String)

def filterAssetsByVisibleSites (assets : List α) (visibleSiteIds : Option (List String)) :
    List α :=
  match visibleSiteIds with
  | none => assets
  | some [] => []
  | some ids => assets.filter (siteId · ∈ ids)

/-- No grants are the one thing `reduceAccessGrants` throws at, and the source returns before it
    would. -/
def getVisibleAssetsForMember (member : TPersonWithClientAccess) (clientId : String)
    (assets : List α) (siteHierarchy : ISiteHierarchy) : List α :=
  match reduceAccessGrants ((member.accessAt clientId).map (·.grant)) with
  | .error _ => []
  | .ok accessGrant =>
    filterAssetsByVisibleSites siteId assets (getVisibleSiteIds accessGrant siteHierarchy)

/-- The member had only this row, and the asset was the only one: it is seen. -/
def visibleAlone (member : TPersonWithClientAccess) (clientId : String)
    (siteHierarchy : ISiteHierarchy) (ca : ClientAccessWithRole) (asset : α) : Bool :=
  !(getVisibleAssetsForMember siteId { member with clientAccess := [ca] } clientId [asset]
    siteHierarchy).isEmpty

end Assets

/-- `person.findMany` with its `include`, for the person's own rows. -/
def clientAccessOf (order : RowOrder PersonClientAccess) (db : Db) (clientId : String)
    (person : Person) : List ClientAccessWithRole :=
  (order.findMany (fun a => a.personId = person.id ∧ a.clientId = clientId)
    db.accesses.rows).filterMap fun a => (db.roles.find? a.roleId).map (⟨a, ·⟩)

/-- The `where` of the query, and the test that sorts its people into groups. -/
def TPersonWithClientAccess.inGroup (member : TPersonWithClientAccess) (id : String) : Bool :=
  member.clientAccess.any fun ca => ca.role.notificationGroups.contains id

/-- One round of the inner loop. -/
def pushPerson (person : TPersonWithClientAccess)
    (grouped : String → List TPersonWithClientAccess) (id : String) :
    String → List TPersonWithClientAccess :=
  if person.inGroup id then Function.update grouped id (grouped id ++ [person]) else grouped

def groupPeople (notificationGroupIds : List String) (people : List TPersonWithClientAccess)
    (grouped : String → List TPersonWithClientAccess) : String → List TPersonWithClientAccess :=
  people.foldl (fun grouped person => notificationGroupIds.foldl (pushPerson person) grouped)
    grouped

def getMembersByNotificationGroups (people : RowOrder Person)
    (rows : RowOrder PersonClientAccess) (db : Db) (clientId : String)
    (notificationGroupIds : List String) : String → List TPersonWithClientAccess :=
  let members := (people.findMany (fun _ => true) db.persons.rows).map fun person =>
    { person, clientAccess := clientAccessOf rows db clientId person : TPersonWithClientAccess }
  let people := members.filter fun member => notificationGroupIds.any (member.inGroup ·)
  groupPeople notificationGroupIds people fun _ => []

/-! ## 2. What is filtered -/

instance (visibleSiteIds : Option (List String)) (siteId : String) :
    Decidable (VisibleIn visibleSiteIds siteId) :=
  inferInstanceAs (Decidable (∀ ids ∈ visibleSiteIds, siteId ∈ ids))

@[simp] theorem visibleIn_none (siteId : String) : VisibleIn none siteId :=
  fun _ h => absurd h (by simp)

@[simp] theorem visibleIn_some {ids : List String} {siteId : String} :
    VisibleIn (some ids) siteId ↔ siteId ∈ ids := by
  simp [VisibleIn]

theorem getVisibleSiteIds_samePlace {r g : AccessGrant} (h : r.SamePlace g)
    (siteHierarchy : ISiteHierarchy) :
    getVisibleSiteIds r siteHierarchy = getVisibleSiteIds g siteHierarchy := by
  unfold getVisibleSiteIds
  rw [h.2.1, h.2.2.2]

section Filtered

variable {α : Type} {siteId : α → String}

theorem filterAssetsByVisibleSites_eq (assets : List α) (visibleSiteIds : Option (List String)) :
    filterAssetsByVisibleSites siteId assets visibleSiteIds =
      assets.filter fun asset => VisibleIn visibleSiteIds (siteId asset) := by
  unfold filterAssetsByVisibleSites
  cases visibleSiteIds with
  | none => simp
  | some ids =>
    cases ids with
    | nil => simp
    | cons id ids => simp only [visibleIn_some]

variable {member : TPersonWithClientAccess} {clientId : String} {siteHierarchy : ISiteHierarchy}

theorem getVisibleAssetsForMember_eq_nil (h : member.accessAt clientId = []) (assets : List α) :
    getVisibleAssetsForMember siteId member clientId assets siteHierarchy = [] := by
  unfold getVisibleAssetsForMember
  rw [h]
  rfl

variable (siteId siteHierarchy) in
/-- **One row decides**: the last of the widest scope. -/
theorem getVisibleAssetsForMember_eq (h : member.accessAt clientId ≠ []) :
    ∃ ca ∈ member.accessAt clientId,
      LastWidest ((member.accessAt clientId).map (·.grant)) ca.grant ∧
        ∀ assets, getVisibleAssetsForMember siteId member clientId assets siteHierarchy =
          assets.filter fun asset =>
            VisibleIn (getVisibleSiteIds ca.grant siteHierarchy) (siteId asset) := by
  obtain ⟨first, rest, hrows⟩ := List.exists_cons_of_ne_nil h
  obtain ⟨r, hr⟩ := reduceAccessGrants_cons first.grant (rest.map (·.grant))
  rw [← List.map_cons, ← hrows] at hr
  obtain ⟨g, hplace, hlast⟩ := reduceAccessGrants_last hr
  obtain ⟨before, after, hsplit, -⟩ := id hlast
  have hg : g ∈ (member.accessAt clientId).map (·.grant) := by
    rw [hsplit]
    simp
  obtain ⟨ca, hca, rfl⟩ := List.mem_map.mp hg
  refine ⟨ca, hca, hlast, ?_⟩
  intro assets
  unfold getVisibleAssetsForMember
  rw [hr]
  show filterAssetsByVisibleSites siteId assets (getVisibleSiteIds r siteHierarchy) = _
  rw [filterAssetsByVisibleSites_eq, getVisibleSiteIds_samePlace hplace]

/-- What one row shows by itself. -/
theorem visibleAlone_iff {ca : ClientAccessWithRole} {asset : α} :
    visibleAlone siteId member clientId siteHierarchy ca asset = true ↔
      ca.access.clientId = clientId ∧
        VisibleIn (getVisibleSiteIds ca.grant siteHierarchy) (siteId asset) := by
  unfold visibleAlone
  by_cases hclient : ca.access.clientId = clientId
  · have hrows : ({ member with clientAccess := [ca] } : TPersonWithClientAccess).accessAt
        clientId = [ca] := by
      simp [TPersonWithClientAccess.accessAt, hclient]
    obtain ⟨row, hrow, -, heq⟩ := getVisibleAssetsForMember_eq siteId
      siteHierarchy (by rw [hrows]; simp)
    rw [hrows, List.mem_singleton] at hrow
    rw [heq, hrow]
    by_cases hvisible : VisibleIn (getVisibleSiteIds ca.grant siteHierarchy) (siteId asset)
    · simp [hvisible, hclient]
    · simp [hvisible]
  · rw [getVisibleAssetsForMember_eq_nil (by simp [TPersonWithClientAccess.accessAt, hclient])]
    simp [hclient]

end Filtered

/-! ## 3. Several rows -/

section Rows

variable {α : Type} (siteId : α → String)

/-- `ca` is of the widest scope the member has for the client. -/
def TPersonWithClientAccess.Widest (member : TPersonWithClientAccess) (clientId : String)
    (ca : ClientAccessWithRole) : Prop :=
  ca ∈ member.accessAt clientId ∧
    ∀ other ∈ member.accessAt clientId, isScopeAtLeast ca.role.scope other.role.scope = true

/-- Whichever row of the widest scope is taken, it shows each of the assets that any row shows. -/
def WidestShowAll (member : TPersonWithClientAccess) (clientId : String) (assets : List α)
    (siteHierarchy : ISiteHierarchy) : Prop :=
  ∀ ca, member.Widest clientId ca → ∀ other ∈ member.accessAt clientId, ∀ asset ∈ assets,
    VisibleIn (getVisibleSiteIds other.grant siteHierarchy) (siteId asset) →
      VisibleIn (getVisibleSiteIds ca.grant siteHierarchy) (siteId asset)

variable {siteId} {member : TPersonWithClientAccess} {clientId : String} {assets : List α}
  {siteHierarchy : ISiteHierarchy}

theorem mem_accessAt {ca : ClientAccessWithRole} :
    ca ∈ member.accessAt clientId ↔ ca ∈ member.clientAccess ∧ ca.access.clientId = clientId := by
  simp [TPersonWithClientAccess.accessAt]

/-- A role for the whole client, or a wider one, shows all there is. -/
theorem widestShowAll_of_client {ca : ClientAccessWithRole}
    (hca : ca ∈ member.accessAt clientId)
    (hscope : isScopeAtLeast ca.role.scope .client = true) :
    WidestShowAll siteId member clientId assets siteHierarchy := by
  intro widest hwidest other _ asset _ _
  have hwide : scopeAllowsAllClientSites widest.grant.scope = true :=
    isScopeAtLeast_trans (hwidest.2 ca hca) hscope
  unfold getVisibleSiteIds
  rw [if_pos hwide]
  exact visibleIn_none _

/-- So does a row that is the only one. -/
theorem widestShowAll_singleton {ca : ClientAccessWithRole}
    (h : member.accessAt clientId = [ca]) :
    WidestShowAll siteId member clientId assets siteHierarchy := by
  intro widest hwidest other hother asset _ hvisible
  have heq : widest = ca := by simpa [h] using hwidest.1
  have heq' : other = ca := by simpa [h] using hother
  rw [heq]
  rwa [heq'] at hvisible

variable (clientId) in
/-- The rows come in any order. -/
theorem accessAt_perm {clientAccess : List ClientAccessWithRole}
    (h : clientAccess.Perm member.clientAccess) :
    (({ member with clientAccess } : TPersonWithClientAccess).accessAt clientId).Perm
      (member.accessAt clientId) :=
  h.filter _

theorem LastWidest.widest {ca : ClientAccessWithRole} {rows : List ClientAccessWithRole}
    (h : LastWidest (rows.map (·.grant)) ca.grant) {other : ClientAccessWithRole}
    (hother : other ∈ rows) : isScopeAtLeast ca.role.scope other.role.scope = true := by
  obtain ⟨before, after, hsplit, hbefore, hafter⟩ := h
  have hmem : other.grant ∈ rows.map (·.grant) := List.mem_map_of_mem hother
  rw [hsplit] at hmem
  rcases List.mem_append.mp hmem with hmem | hmem
  · exact hbefore _ hmem
  · rcases List.mem_cons.mp hmem with heq | hmem
    · have hscope : other.role.scope = ca.role.scope := congrArg AccessGrant.scope heq
      rw [hscope]
      exact isScopeAtLeast_refl _
    · apply (isScopeAtLeast_total ca.role.scope other.role.scope).resolve_right
      have hnarrow := hafter _ hmem
      exact Bool.eq_false_iff.mp hnarrow

/-- A row of the widest scope decides wherever it comes last. -/
theorem TPersonWithClientAccess.Widest.last {ca : ClientAccessWithRole}
    (h : member.Widest clientId ca) :
    ∃ clientAccess, clientAccess.Perm member.clientAccess ∧
      LastWidest ((({ member with clientAccess } : TPersonWithClientAccess).accessAt
        clientId).map (·.grant)) ca.grant := by
  obtain ⟨hmem, hclient⟩ := mem_accessAt.mp h.1
  obtain ⟨before, after, hsplit⟩ := List.append_of_mem hmem
  have hperm : (before ++ after ++ [ca]).Perm member.clientAccess := by
    rw [hsplit, List.append_assoc]
    exact List.Perm.append_left _ List.perm_append_comm
  refine ⟨_, hperm, ((before ++ after).filter (·.access.clientId = clientId)).map (·.grant), [],
    ?_, ?_, by simp⟩
  · simp [TPersonWithClientAccess.accessAt, hclient]
  · intro g hg
    obtain ⟨other, hother, rfl⟩ := List.mem_map.mp hg
    obtain ⟨hother, hat⟩ := List.mem_filter.mp hother
    apply h.2 other
    apply mem_accessAt.mpr
    refine ⟨?_, of_decide_eq_true hat⟩
    exact hperm.subset (List.mem_append_left _ hother)

/-- What some row shows by itself. -/
theorem any_visibleAlone {asset : α} :
    (member.clientAccess.any fun ca =>
      visibleAlone siteId member clientId siteHierarchy ca asset) = true ↔
      ∃ ca ∈ member.accessAt clientId,
        VisibleIn (getVisibleSiteIds ca.grant siteHierarchy) (siteId asset) := by
  simp only [List.any_eq_true, visibleAlone_iff, mem_accessAt, and_assoc]

theorem accessAt_eq_nil_iff {clientAccess : List ClientAccessWithRole}
    (h : clientAccess.Perm member.clientAccess) :
    ({ member with clientAccess } : TPersonWithClientAccess).accessAt clientId = [] ↔
      member.accessAt clientId = [] := by
  have hrows := accessAt_perm clientId h
  constructor
  · intro hnil
    rw [hnil] at hrows
    exact hrows.nil_eq.symm
  · intro hnil
    rw [hnil] at hrows
    exact hrows.eq_nil

theorem WidestShowAll.shown (h : WidestShowAll siteId member clientId assets siteHierarchy)
    {clientAccess : List ClientAccessWithRole} (hperm : clientAccess.Perm member.clientAccess) :
    getVisibleAssetsForMember siteId { member with clientAccess } clientId assets siteHierarchy =
      assets.filter fun asset => member.clientAccess.any fun ca =>
        visibleAlone siteId member clientId siteHierarchy ca asset := by
  by_cases hnil : member.accessAt clientId = []
  · rw [getVisibleAssetsForMember_eq_nil ((accessAt_eq_nil_iff hperm).mpr hnil)]
    apply Eq.symm
    apply List.filter_eq_nil_iff.mpr
    intro asset _ hseen
    obtain ⟨ca, hca, -⟩ := any_visibleAlone.mp hseen
    rw [hnil] at hca
    exact List.not_mem_nil hca
  · obtain ⟨row, hrow, hlast, heq⟩ := getVisibleAssetsForMember_eq siteId
      siteHierarchy (mt (accessAt_eq_nil_iff hperm).mp hnil)
    have hrows := accessAt_perm clientId hperm
    have hwidest : member.Widest clientId row := by
      refine ⟨hrows.subset hrow, ?_⟩
      intro other hother
      exact hlast.widest (hrows.symm.subset hother)
    rw [heq]
    apply List.filter_congr
    intro asset hasset
    rw [Bool.eq_iff_iff, decide_eq_true_iff, any_visibleAlone]
    constructor
    · intro hvisible
      exact ⟨row, hwidest.1, hvisible⟩
    · rintro ⟨other, hother, hvisible⟩
      exact h row hwidest other hother asset hasset hvisible

/-- **A member is shown what the rows show one by one, in any order of the rows, exactly if each
    row of the widest scope shows all of it.** -/
theorem getVisibleAssetsForMember_iff :
    (getVisibleAssetsForMember siteId member clientId assets siteHierarchy =
        assets.filter (fun asset => member.clientAccess.any fun ca =>
          visibleAlone siteId member clientId siteHierarchy ca asset) ∧
      ∀ clientAccess, clientAccess.Perm member.clientAccess →
        getVisibleAssetsForMember siteId { member with clientAccess } clientId assets
            siteHierarchy =
          getVisibleAssetsForMember siteId member clientId assets siteHierarchy) ↔
      WidestShowAll siteId member clientId assets siteHierarchy := by
  constructor
  · rintro ⟨hunion, horder⟩ ca hca other hother asset hasset hvisible
    -- put the row last, and it decides
    obtain ⟨clientAccess, hperm, hlast⟩ := hca.last
    obtain ⟨row, -, hrow, heq⟩ := getVisibleAssetsForMember_eq siteId siteHierarchy
      (mt (accessAt_eq_nil_iff hperm).mp (List.ne_nil_of_mem hca.1))
    have hshown : asset ∈ getVisibleAssetsForMember siteId { member with clientAccess } clientId
        assets siteHierarchy := by
      rw [horder clientAccess hperm, hunion]
      exact List.mem_filter.mpr ⟨hasset, any_visibleAlone.mpr ⟨other, hother, hvisible⟩⟩
    rw [heq, hrow.unique hlast] at hshown
    exact of_decide_eq_true (List.mem_filter.mp hshown).2
  · intro hall
    refine ⟨hall.shown (.refl _), ?_⟩
    intro clientAccess hperm
    rw [hall.shown hperm]
    exact (hall.shown (.refl _)).symm

end Rows

/-! ## 4. The members of a notification -/

section Members

variable {db : Db} {clientId : String}

/-- The database returns a person's rows in any order. -/
theorem clientAccessOf_perm (order order' : RowOrder PersonClientAccess) (person : Person) :
    (clientAccessOf order db clientId person).Perm (clientAccessOf order' db clientId person) :=
  ((order.perm _).trans (order'.perm _).symm).filterMap _

section Grouped

variable {person m : TPersonWithClientAccess} {ids : List String} {id : String}
  {grouped : String → List TPersonWithClientAccess}

theorem mem_pushPerson {i : String} (h : m ∈ pushPerson person grouped i id) :
    m ∈ grouped id ∨ m = person ∧ person.inGroup id = true := by
  unfold pushPerson at h
  by_cases hin : person.inGroup i = true
  · rw [if_pos hin] at h
    by_cases hi : id = i
    · subst hi
      rw [Function.update_self, List.mem_append, List.mem_singleton] at h
      exact h.imp_right fun h => ⟨h, hin⟩
    · rw [Function.update_of_ne hi] at h
      exact .inl h
  · rw [if_neg hin] at h
    exact .inl h

theorem mem_foldl_pushPerson (h : m ∈ ids.foldl (pushPerson person) grouped id) :
    m ∈ grouped id ∨ m = person ∧ person.inGroup id = true := by
  induction ids generalizing grouped with
  | nil => exact .inl h
  | cons i ids ih =>
    rcases ih h with h | h
    · exact mem_pushPerson h
    · exact .inr h

theorem mem_groupPeople {people : List TPersonWithClientAccess}
    (h : m ∈ groupPeople ids people grouped id) :
    m ∈ grouped id ∨ m ∈ people ∧ m.inGroup id = true := by
  induction people generalizing grouped with
  | nil => exact .inl h
  | cons person people ih =>
    rcases ih h with h | ⟨hmem, hin⟩
    · rcases mem_foldl_pushPerson h with h | ⟨rfl, hin⟩
      · exact .inl h
      · exact .inr ⟨List.mem_cons_self, hin⟩
    · exact .inr ⟨List.mem_cons_of_mem _ hmem, hin⟩

end Grouped

/-- **Whoever is notified has the rows of the table, in the order of the query.** -/
theorem mem_getMembersByNotificationGroups {people : RowOrder Person}
    {rows : RowOrder PersonClientAccess} {ids : List String} {id : String}
    {m : TPersonWithClientAccess}
    (h : m ∈ getMembersByNotificationGroups people rows db clientId ids id) :
    m.person ∈ db.persons ∧ m.clientAccess = clientAccessOf rows db clientId m.person ∧
      m.inGroup id = true := by
  obtain ⟨hmem, hin⟩ := (mem_groupPeople h).resolve_left List.not_mem_nil
  obtain ⟨person, hperson, rfl⟩ := List.mem_map.mp (List.mem_filter.mp hmem).1
  exact ⟨(RowOrder.mem_findMany.mp hperson).1, rfl, hin⟩

/-- Where the widest rows of a notified member show all, the order in which the database returned
    the rows is not seen. -/
theorem notified_shown {people : RowOrder Person} {rows : RowOrder PersonClientAccess}
    {ids : List String} {id : String} {m : TPersonWithClientAccess}
    (h : m ∈ getMembersByNotificationGroups people rows db clientId ids id)
    {α : Type} {siteId : α → String} {assets : List α} {siteHierarchy : ISiteHierarchy}
    (hall : WidestShowAll siteId m clientId assets siteHierarchy)
    (rows' : RowOrder PersonClientAccess) :
    getVisibleAssetsForMember siteId
        { m with clientAccess := clientAccessOf rows' db clientId m.person } clientId assets
        siteHierarchy =
      assets.filter fun asset => m.clientAccess.any fun ca =>
        visibleAlone siteId m clientId siteHierarchy ca asset := by
  obtain ⟨-, haccess, -⟩ := mem_getMembersByNotificationGroups h
  apply hall.shown
  rw [haccess]
  exact clientAccessOf_perm rows' rows m.person

end Members

/-! ## 5. A keeper of two sites -/

def keeperRole : Role where
  id := "site-keeper"
  name := "Site keeper"
  scope := .site

def keeperAt (siteId : String) : ClientAccessWithRole where
  access := { createdOn := 0, personId := "kim", clientId := "port", siteId, roleId := "site-keeper" }
  role := keeperRole

def kim : TPersonWithClientAccess where
  person := { id := "kim", firstName := "Kim", lastName := "K.", email := "k@port.org" }
  clientAccess := [keeperAt "dock", keeperAt "yard"]

/-- The keeper of the dock and the yard hears of the yard alone. -/
theorem kim_misses_dock : ∃ siteHierarchy,
    buildSiteHierarchy 1 [⟨"dock", none⟩, ⟨"yard", none⟩] = some siteHierarchy ∧
      ¬ (getVisibleAssetsForMember id kim "port" ["dock", "yard"] siteHierarchy =
          ["dock", "yard"].filter (fun asset => kim.clientAccess.any fun ca =>
            visibleAlone id kim "port" siteHierarchy ca asset) ∧
        ∀ clientAccess, clientAccess.Perm kim.clientAccess →
          getVisibleAssetsForMember id { kim with clientAccess } "port" ["dock", "yard"]
              siteHierarchy =
            getVisibleAssetsForMember id kim "port" ["dock", "yard"] siteHierarchy) := by
  refine ⟨_, rfl, ?_⟩
  rintro ⟨hunion, -⟩
  revert hunion
  decide

end ShieldApi
