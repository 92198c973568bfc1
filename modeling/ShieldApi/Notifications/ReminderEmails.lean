import ShieldApi.Auth.MemberVisibility
import ShieldApi.Lib.Grouping
import ShieldApi.Notifications.InspectionReminders

/-!
# Who is reminded of what

The daily run from its clock to its e-mails: `handleDailyInspectionReminders` queues a job for each
active client, and `processClientInspectionReminders` puts the client's assets into the buckets of
`InspectionReminders.lean` and writes to the members of `MemberVisibility.lean`.

**An asset is one line to each member of its group for today who sees its site, and to nobody
else** (`reminded_eq`). What is counted are the lines that reach an address in the whole run, so
that the buckets, the clients and the sections of an e-mail, which could each lose a line or repeat
it, are all in it.
-/

set_option autoImplicit false

namespace ShieldApi

/-! ## 1. What is read -/

/-- As the roles list it. -/
def NotificationGroupId.text : NotificationGroupId → String
  | .inspectionReminder => "inspection_reminder"
  | .inspectionDueSoonAlertLevel1 => "inspection_due_soon_alert_level_1"
  | .inspectionDueSoonAlertLevel2 => "inspection_due_soon_alert_level_2"
  | .inspectionDueSoonAlertLevel3 => "inspection_due_soon_alert_level_3"
  | .inspectionDueSoonAlertLevel4 => "inspection_due_soon_alert_level_4"
  | .monthlyComplianceReport => "monthly_compliance_report"
  | .monthlyConsumablesReport => "monthly_consumables_report"
  | .inspectionAlertTriggered => "inspection_alert_triggered"

structure IncludedProduct where
  name : String
  categoryId : String
  categoryName : String
  categoryIcon : Option String
  categoryColor : Option String

/-- The name of an asset, its site and its product. -/
structure AssetIncludes where
  name : String
  site : Site
  product : IncludedProduct

structure ReminderTables where
  db : Db
  assets : List ReminderAsset
  /-- By the id of the asset. -/
  included : String → AssetIncludes

def ReminderTables.siteId (t : ReminderTables) (asset : ReminderAsset) : String :=
  (t.included asset.id).site.id

/-- In which order the queries without one return their rows. -/
structure ReminderOrders where
  clients : RowOrder Client
  people : RowOrder Person
  clientAccess : RowOrder PersonClientAccess
  sites : RowOrder Site

def Client.reminder (client : Client) : ReminderClient :=
  { id := client.id, defaultInspectionCycle := client.defaultInspectionCycle }

def getVisibleSiteIdsForMember (member : TPersonWithClientAccess) (clientId : String)
    (siteHierarchy : ISiteHierarchy) : Option (List String) :=
  match reduceAccessGrants ((member.accessAt clientId).map (·.grant)) with
  | .error _ => some []
  | .ok accessGrant => getVisibleSiteIds accessGrant siteHierarchy

def isSingleSiteUser (member : TPersonWithClientAccess) (clientId : String) : Bool :=
  match reduceAccessGrants ((member.accessAt clientId).map (·.grant)) with
  | .error _ => true
  | .ok accessGrant => accessGrant.scope = .site || accessGrant.scope = .self

/-! ## 2. The e-mails -/

structure AssetDueForInspection where
  assetId : String
  assetName : String
  categoryId : String
  categoryName : String
  categoryIcon : Option String
  categoryColor : Option String
  product : String
  /-- `none` is an invalid date. -/
  dueDate : Option TimeValue

structure AssetsDueAtSite where
  siteId : String
  siteName : String
  assetsDueForInspection : List AssetDueForInspection

structure SharedInspectionReminderTemplateProps where
  recipientFirstName : String
  clientName : String
  singleSite : Bool
  frontendUrl : String
  assetsDueForInspectionBySite : List AssetsDueAtSite

structure SendEmailJobData where
  templateName : NotificationGroupId
  toAddresses : List String
  templateProps : SharedInspectionReminderTemplateProps

/-- The lines of the e-mail. -/
def SendEmailJobData.lines (job : SendEmailJobData) : List AssetDueForInspection :=
  job.templateProps.assetsDueForInspectionBySite.flatMap (·.assetsDueForInspection)

/-- The lines that reach an address. -/
def linesTo (address : String) (jobs : List SendEmailJobData) : List AssetDueForInspection :=
  (jobs.filter fun job => address ∈ job.toAddresses).flatMap SendEmailJobData.lines

namespace ClientNotificationsProcessor

def assetDueForInspection (t : ReminderTables) (client : Client) (a : ReminderAsset) :
    AssetDueForInspection :=
  let included := t.included a.id
  { assetId := a.id
    assetName := included.name
    categoryId := included.product.categoryId
    categoryName := included.product.categoryName
    categoryIcon := included.product.categoryIcon
    categoryColor := included.product.categoryColor
    product := included.product.name
    dueDate := dueDate (a.cycle client.reminder) a.lastInspectedOn }

/-- `Object.entries(assetsBySite).map(..)`. -/
def assetsDueBySite (t : ReminderTables) (client : Client) (visibleAssets : List ReminderAsset) :
    List AssetsDueAtSite :=
  (grouped t.siteId visibleAssets).map fun (_, siteAssets) =>
    { siteId := (siteAssets.head?.map fun a => (t.included a.id).site.id).getD "unknown"
      siteName := (siteAssets.head?.map fun a => (t.included a.id).site.name).getD "Unknown"
      assetsDueForInspection := siteAssets.map (assetDueForInspection t client) }

/-- For a member who sees one of the assets. -/
def reminderEmail (t : ReminderTables) (frontendUrl : String) (client : Client)
    (siteHierarchy : ISiteHierarchy) (notificationGroupId : NotificationGroupId)
    (bucketAssets : List ReminderAsset) (member : TPersonWithClientAccess) :
    Option SendEmailJobData :=
  let visibleAssets :=
    getVisibleAssetsForMember t.siteId member client.id bucketAssets siteHierarchy
  if visibleAssets.length = 0 then none
  else some {
    templateName := notificationGroupId
    toAddresses := [member.person.email]
    templateProps := {
      recipientFirstName := member.person.firstName
      clientName := client.name
      singleSite := isSingleSiteUser member client.id
      frontendUrl
      assetsDueForInspectionBySite := assetsDueBySite t client visibleAssets } }

/-- One round of the loop over the buckets. -/
def bucketEmails (t : ReminderTables) (frontendUrl : String) (client : Client)
    (siteHierarchy : ISiteHierarchy)
    (membersByNotificationGroupId : String → List TPersonWithClientAccess)
    (bucket : NotificationGroupId × List ReminderAsset) : List SendEmailJobData :=
  let members := membersByNotificationGroupId bucket.1.text
  if bucket.2.length = 0 then []
  else if members.length = 0 then []
  else members.filterMap (reminderEmail t frontendUrl client siteHierarchy bucket.1 bucket.2)

def getSiteHierarchy (fuel : Nat) (o : ReminderOrders) (db : Db) (clientId : String) :
    Option ISiteHierarchy :=
  buildSiteHierarchy fuel (clientSites o.sites db clientId)

/-- Who is to be reminded of what is due for the groups. -/
def reminderMembers (o : ReminderOrders) (db : Db) (clientId : String) :
    String → List TPersonWithClientAccess :=
  getMembersByNotificationGroups o.people o.clientAccess db clientId
    (inspectionReminderNotificationGroups.map (·.id.text))

/-- The jobs it adds in bulk; `none` where the recursion over the sites does not end. -/
def processClientInspectionReminders (t : ReminderTables) (o : ReminderOrders) (fuel : Nat)
    (frontendUrl : String) (tz : Int) (now : TimeValue) (clientId : String) :
    Option (List SendEmailJobData) :=
  match t.db.clients.find? clientId with
  | none => some []
  | some client =>
    if client.demoMode then some []
    else do
      let membersByNotificationGroupId := reminderMembers o t.db clientId
      let siteHierarchy ← getSiteHierarchy fuel o t.db clientId
      let buckets := inspectionReminderBuckets tz now client.reminder t.assets
      return buckets.flatMap
        (bucketEmails t frontendUrl client siteHierarchy membersByNotificationGroupId)

end ClientNotificationsProcessor

/-- The job of each client, as it is processed at its time. One that fails adds no e-mails, and the
    others are processed all the same. -/
def handleDailyInspectionReminders (t : ReminderTables) (o : ReminderOrders) (fuel : Nat)
    (frontendUrl : String) (tz : Int) (now : String → TimeValue) : List SendEmailJobData :=
  (o.clients.findMany (fun client => client.status = .active) t.db.clients.rows).flatMap
    fun client =>
      (ClientNotificationsProcessor.processClientInspectionReminders t o fuel frontendUrl tz
        (now client.id) client.id).getD []

/-! ## 3. Lines -/

open ClientNotificationsProcessor

/-- Among rows told apart by a key, the ones with the key of one of them are just that one. -/
theorem countP_key {α κ : Type} [DecidableEq κ] {key : α → κ} {l : List α}
    (hkeys : (l.map key).Nodup) {a : α} (ha : a ∈ l) (q : α → Bool) :
    l.countP (fun x => key x = key a && q x) = if q a then 1 else 0 := by
  induction l with
  | nil => exact absurd ha List.not_mem_nil
  | cons x l ih =>
    rw [List.map_cons, List.nodup_cons] at hkeys
    rcases List.mem_cons.mp ha with rfl | ha
    · have hrest : l.countP (fun x => key x = key a && q x) = 0 := by
        apply List.countP_eq_zero.mpr
        intro x hx hkey
        rw [Bool.and_eq_true, decide_eq_true_eq] at hkey
        exact hkeys.1 (hkey.1 ▸ List.mem_map_of_mem hx)
      rw [List.countP_cons, hrest]
      simp
    · have hne : key x ≠ key a := fun h => hkeys.1 (h ▸ List.mem_map_of_mem ha)
      rw [List.countP_cons_of_neg (by simp [hne]), ih hkeys.2 ha]

theorem countP_linesTo_flatMap {α : Type} (address : String) (p : AssetDueForInspection → Bool)
    (l : List α) (f : α → List SendEmailJobData) :
    (linesTo address (l.flatMap f)).countP p =
      (l.map fun x => (linesTo address (f x)).countP p).sum := by
  rw [linesTo, List.filter_flatMap, List.flatMap_assoc, List.countP_flatMap]
  rfl

section
variable {t : ReminderTables} {o : ReminderOrders} {fuel : Nat} {frontendUrl : String} {tz : Int}
  {client : Client} {siteHierarchy : ISiteHierarchy}

/-- The member sees the asset's site. -/
def seesAsset (t : ReminderTables) (clientId : String) (siteHierarchy : ISiteHierarchy)
    (a : ReminderAsset) (member : TPersonWithClientAccess) : Bool :=
  decide (VisibleIn (getVisibleSiteIdsForMember member clientId siteHierarchy) (t.siteId a))

theorem getVisibleAssetsForMember_filter (member : TPersonWithClientAccess)
    (assets : List ReminderAsset) :
    getVisibleAssetsForMember t.siteId member client.id assets siteHierarchy =
      assets.filter fun a => seesAsset t client.id siteHierarchy a member := by
  unfold getVisibleAssetsForMember seesAsset getVisibleSiteIdsForMember
  cases reduceAccessGrants ((member.accessAt client.id).map (·.grant)) with
  | error e => simp
  | ok accessGrant => exact filterAssetsByVisibleSites_eq _ _

/-- The sections of an e-mail hold the visible assets, each in one place. -/
theorem lines_assetsDueBySite (visibleAssets : List ReminderAsset) :
    ((assetsDueBySite t client visibleAssets).flatMap (·.assetsDueForInspection)).Perm
      (visibleAssets.map (assetDueForInspection t client)) := by
  have hlines : (assetsDueBySite t client visibleAssets).flatMap (·.assetsDueForInspection) =
      ((grouped t.siteId visibleAssets).flatMap Prod.snd).map (assetDueForInspection t client) := by
    rw [assetsDueBySite, List.flatMap_map, List.map_flatMap]
  rw [hlines]
  exact (flatMap_grouped_perm _).map _

/-- What one member is written of one bucket. -/
theorem linesTo_reminderEmail (id : NotificationGroupId) (bucketAssets : List ReminderAsset)
    (member : TPersonWithClientAccess) (address : String) :
    (linesTo address (reminderEmail t frontendUrl client siteHierarchy id bucketAssets
        member).toList).Perm
      (if address = member.person.email then
        (bucketAssets.filter fun a => seesAsset t client.id siteHierarchy a member).map
          (assetDueForInspection t client)
      else []) := by
  unfold reminderEmail
  rw [getVisibleAssetsForMember_filter]
  dsimp only
  split
  · next hnone =>
    rw [List.length_eq_zero_iff.mp hnone]
    simp [linesTo]
  · by_cases haddress : address = member.person.email
    · rw [if_pos haddress]
      simpa [linesTo, haddress, SendEmailJobData.lines] using lines_assetsDueBySite _
    · rw [if_neg haddress]
      simp [linesTo, haddress]

/-- **One bucket**: an asset in it is a line to each member at the address who sees its site. -/
theorem countP_bucketEmails {members : String → List TPersonWithClientAccess}
    {id : NotificationGroupId} {bucketAssets : List ReminderAsset}
    (hids : (bucketAssets.map (·.id)).Nodup) {a : ReminderAsset} (ha : a ∈ bucketAssets)
    (address : String) :
    (linesTo address (bucketEmails t frontendUrl client siteHierarchy members
        (id, bucketAssets))).countP (·.assetId = a.id) =
      (members id.text).countP fun m =>
        address = m.person.email && seesAsset t client.id siteHierarchy a m := by
  have hone : ∀ m, (linesTo address (reminderEmail t frontendUrl client siteHierarchy id
      bucketAssets m).toList).countP (·.assetId = a.id) =
        if address = m.person.email && seesAsset t client.id siteHierarchy a m then 1 else 0 := by
    intro m
    rw [(linesTo_reminderEmail id bucketAssets m address).countP_eq]
    by_cases haddress : address = m.person.email
    · rw [if_pos haddress, List.countP_map, List.countP_filter, decide_eq_true haddress,
        Bool.true_and]
      exact countP_key hids ha fun x => seesAsset t client.id siteHierarchy x m
    · simp [haddress]
  have hmembers : bucketEmails t frontendUrl client siteHierarchy members (id, bucketAssets) =
      (members id.text).flatMap fun m =>
        (reminderEmail t frontendUrl client siteHierarchy id bucketAssets m).toList := by
    rw [bucketEmails, if_neg (by simp [List.ne_nil_of_mem ha]), List.filterMap_eq_flatMap_toList]
    split
    · next hnone => rw [List.length_eq_zero_iff.mp hnone]; rfl
    · rfl
  rw [hmembers, countP_linesTo_flatMap]
  simp only [hone]
  induction members id.text with
  | nil => rfl
  | cons m ms ih => rw [List.map_cons, List.sum_cons, ih, List.countP_cons, Nat.add_comm]

/-- A bucket the asset is not in has no line about it. -/
theorem countP_bucketEmails_of_not_mem {members : String → List TPersonWithClientAccess}
    {id : NotificationGroupId} {bucketAssets : List ReminderAsset} {assetId : String}
    (ha : ∀ a ∈ bucketAssets, a.id ≠ assetId) (address : String) :
    (linesTo address (bucketEmails t frontendUrl client siteHierarchy members
        (id, bucketAssets))).countP (·.assetId = assetId) = 0 := by
  apply List.countP_eq_zero.mpr
  intro line hline
  simp only [linesTo, List.mem_flatMap, List.mem_filter] at hline
  obtain ⟨job, ⟨hjob, haddress⟩, hline⟩ := hline
  have hmember : ∃ m, reminderEmail t frontendUrl client siteHierarchy id bucketAssets m =
      some job := by
    unfold bucketEmails at hjob
    dsimp only at hjob
    split_ifs at hjob with hbucket hmembers
    · exact absurd hjob List.not_mem_nil
    · exact absurd hjob List.not_mem_nil
    · obtain ⟨m, -, hm⟩ := List.mem_filterMap.mp hjob
      exact ⟨m, hm⟩
  obtain ⟨m, hm⟩ := hmember
  have hin : line ∈ linesTo address (reminderEmail t frontendUrl client siteHierarchy id
      bucketAssets m).toList := by
    rw [hm]
    simpa [linesTo, of_decide_eq_true haddress] using hline
  have hmem := (linesTo_reminderEmail id bucketAssets m address).mem_iff.mp hin
  split_ifs at hmem
  · obtain ⟨a, hvisible, rfl⟩ := List.mem_map.mp hmem
    rw [decide_eq_true_eq]
    exact ha a (List.mem_filter.mp hvisible).1
  · exact absurd hmem List.not_mem_nil

/-! ## 4. The jobs of the clients -/

theorem inspectionReminderGroups_nodup :
    (inspectionReminderNotificationGroups.map (·.id)).Nodup := by
  decide

/-- A sum over the groups of which all but one are nothing. -/
theorem sum_groups {g : InspectionReminderGroup} (hg : g ∈ inspectionReminderNotificationGroups)
    (f : InspectionReminderGroup → Nat)
    (hf : ∀ g' ∈ inspectionReminderNotificationGroups, g' ≠ g → f g' = 0) :
    (inspectionReminderNotificationGroups.map f).sum = f g := by
  rw [List.sum_map_eq_nsmul_single g f fun g' hne hg' => hf g' hg' hne,
    List.count_eq_one_of_mem inspectionReminderGroups_nodup.of_map hg, one_nsmul]

/-- The members who are told about the asset, where its group for today is `group`. -/
def toldAbout (t : ReminderTables) (o : ReminderOrders) (client : Client)
    (siteHierarchy : ISiteHierarchy) (a : ReminderAsset) :
    Option InspectionReminderGroup → List TPersonWithClientAccess
  | none => []
  | some group => (reminderMembers o t.db client.id group.id.text).filter
      (seesAsset t client.id siteHierarchy a)

theorem find?_client {client : Client} (hclient : client ∈ t.db.clients) :
    t.db.clients.find? client.id = some client :=
  Table.find?_eq_some.mpr ⟨hclient, rfl⟩

theorem mem_findAssets_iff {rows : List ReminderAsset} {a : ReminderAsset}
    {client : ReminderClient} :
    a ∈ findAssets client rows ↔
      ∃ a₀ ∈ rows, a₀.clientId = client.id ∧ a = a₀.withLatestInspection := by
  simp only [findAssets, List.mem_map, List.mem_filter, decide_eq_true_eq]
  constructor
  · intro h
    obtain ⟨a₀, ⟨hmem, hclient⟩, rfl⟩ := h
    exact ⟨a₀, hmem, hclient, rfl⟩
  · intro h
    obtain ⟨a₀, hmem, hclient, rfl⟩ := h
    exact ⟨a₀, ⟨hmem, hclient⟩, rfl⟩

theorem findAssets_ids_nodup {rows : List ReminderAsset} (hids : (rows.map (·.id)).Nodup)
    (client : ReminderClient) : ((findAssets client rows).map (·.id)).Nodup := by
  have hmap : (findAssets client rows).map (·.id) =
      (rows.filter (·.clientId = client.id)).map (·.id) := by
    rw [findAssets, List.map_map]
    rfl
  rw [hmap]
  exact hids.sublist ((List.filter_sublist).map _)

/-- **One client's job**: an asset of the client is a line to each member at the address whom it
    concerns. -/
theorem countP_process_own {now : TimeValue} (hclient : client ∈ t.db.clients)
    (hdemo : client.demoMode = false)
    (hhierarchy : getSiteHierarchy fuel o t.db client.id = some siteHierarchy)
    (hids : (t.assets.map (·.id)).Nodup) {a : ReminderAsset} (ha : a ∈ t.assets)
    (hown : a.clientId = client.id) (address : String) :
    (linesTo address ((processClientInspectionReminders t o fuel frontendUrl tz now
        client.id).getD [])).countP (·.assetId = a.id) =
      (toldAbout t o client siteHierarchy a
        (groupToday tz now client.reminder a.withLatestInspection)).countP
          (address = ·.person.email) := by
  have hfound : a.withLatestInspection ∈ findAssets client.reminder t.assets :=
    mem_findAssets_iff.mpr ⟨a, ha, hown, rfl⟩
  have hnodup := findAssets_ids_nodup hids client.reminder
  simp only [processClientInspectionReminders, find?_client hclient, hdemo, hhierarchy,
    Bool.false_eq_true, if_false, Option.bind_eq_bind, Option.bind_some, Option.pure_def,
    Option.getD_some, inspectionReminderBuckets_eq]
  rw [countP_linesTo_flatMap, List.map_map]
  -- Outside of its group for today the asset is in no bucket.
  have hout : ∀ g, bucketOf tz now client.reminder a.withLatestInspection ≠ some g →
      (linesTo address (bucketEmails t frontendUrl client siteHierarchy
        (reminderMembers o t.db client.id) (g, (findAssets client.reminder t.assets).filter
          fun a => bucketOf tz now client.reminder a = some g))).countP (·.assetId = a.id) = 0 := by
    intro g hg
    apply countP_bucketEmails_of_not_mem
    intro b hb hid
    obtain ⟨hb, hof⟩ := List.mem_filter.mp hb
    obtain rfl : b = a.withLatestInspection := List.inj_on_of_nodup_map hnodup hb hfound hid
    exact hg (of_decide_eq_true hof)
  cases htoday : groupToday tz now client.reminder a.withLatestInspection with
  | none =>
    have hnone : ∀ g ∈ inspectionReminderNotificationGroups,
        bucketOf tz now client.reminder a.withLatestInspection ≠ some g.id := by
      intro g _
      rw [bucketOf, htoday]
      simp
    rw [toldAbout, List.countP_nil, List.sum_eq_zero]
    intro n hn
    obtain ⟨g, hg, rfl⟩ := List.mem_map.mp hn
    exact hout g.id (hnone g hg)
  | some g =>
    have hg : g ∈ inspectionReminderNotificationGroups :=
      mem_thresholdAsc.mp (List.mem_of_find?_eq_some htoday)
    have hof : bucketOf tz now client.reminder a.withLatestInspection = some g.id := by
      rw [bucketOf, htoday]
      rfl
    refine (sum_groups hg _ fun g' hg' hne => hout g'.id fun h => hne
      (eq_of_id_eq hg' hg (Option.some.inj (h.symm.trans hof)))).trans ?_
    rw [toldAbout, List.countP_filter]
    exact countP_bucketEmails (hnodup.sublist ((List.filter_sublist).map _))
      (List.mem_filter.mpr ⟨hfound, decide_eq_true hof⟩) address

/-- The job of a client has no line about the asset of another. -/
theorem countP_process_other {now : TimeValue} {clientId : String}
    (hids : (t.assets.map (·.id)).Nodup) {a : ReminderAsset} (ha : a ∈ t.assets)
    (hother : a.clientId ≠ clientId) (address : String) :
    (linesTo address ((processClientInspectionReminders t o fuel frontendUrl tz now
        clientId).getD [])).countP (·.assetId = a.id) = 0 := by
  unfold processClientInspectionReminders
  cases hfind : t.db.clients.find? clientId with
  | none => rfl
  | some client =>
    obtain ⟨-, rfl⟩ := Table.find?_eq_some.mp hfind
    dsimp only
    split_ifs
    · rfl
    · cases getSiteHierarchy fuel o t.db client.id with
      | none => rfl
      | some siteHierarchy =>
        simp only [Option.bind_eq_bind, Option.bind_some, Option.pure_def, Option.getD_some,
          inspectionReminderBuckets_eq]
        rw [countP_linesTo_flatMap, List.map_map, List.sum_eq_zero]
        intro n hn
        obtain ⟨g, -, rfl⟩ := List.mem_map.mp hn
        apply countP_bucketEmails_of_not_mem
        intro b hb hid
        obtain ⟨b₀, hb₀, hclient, rfl⟩ := mem_findAssets_iff.mp (List.mem_filter.mp hb).1
        obtain rfl : b₀ = a := List.inj_on_of_nodup_map hids hb₀ ha hid
        exact hother hclient

/-- What an e-mail of the run looks like: it is to one member of one active client that is no demo,
    and its sections are the sites at which something is due that the member sees. -/
structure WellSorted (t : ReminderTables) (o : ReminderOrders) (fuel : Nat) (tz : Int)
    (now : String → TimeValue) (job : SendEmailJobData) (client : Client)
    (siteHierarchy : ISiteHierarchy) (member : TPersonWithClientAccess) : Prop where
  isActive : client ∈ t.db.clients ∧ client.status = .active ∧ client.demoMode = false
  hierarchy : getSiteHierarchy fuel o t.db client.id = some siteHierarchy
  isMember : member ∈ reminderMembers o t.db client.id job.templateName.text
  address : job.toAddresses = [member.person.email]
  notEmpty : job.templateProps.assetsDueForInspectionBySite ≠ []
  sites : (job.templateProps.assetsDueForInspectionBySite.map (·.siteId)).Nodup
  sections : ∀ sec ∈ job.templateProps.assetsDueForInspectionBySite,
    sec.assetsDueForInspection ≠ [] ∧ ∀ line ∈ sec.assetsDueForInspection, ∃ a ∈ t.assets,
      a.clientId = client.id ∧ (t.included a.id).site.id = sec.siteId ∧
      seesAsset t client.id siteHierarchy a member = true ∧
      bucketOf tz (now client.id) client.reminder a.withLatestInspection = some job.templateName ∧
      line = assetDueForInspection t client a.withLatestInspection

theorem mem_assetsDueBySite {visibleAssets : List ReminderAsset} {sec : AssetsDueAtSite} :
    sec ∈ assetsDueBySite t client visibleAssets → ∃ siteId,
      sec.siteId = siteId ∧ visibleAssets.filter (t.siteId · = siteId) ≠ [] ∧
        sec.assetsDueForInspection =
          (visibleAssets.filter (t.siteId · = siteId)).map (assetDueForInspection t client) := by
  intro h
  obtain ⟨⟨siteId, siteAssets⟩, hgroup, rfl⟩ := List.mem_map.mp h
  obtain ⟨rfl, hne⟩ := mem_grouped.mp hgroup
  refine ⟨siteId, ?_, hne, rfl⟩
  obtain ⟨first, rest, hcons⟩ := List.exists_cons_of_ne_nil hne
  have hfirst : first ∈ visibleAssets.filter (t.siteId · = siteId) := by simp [hcons]
  dsimp only
  rw [hcons]
  exact of_decide_eq_true (List.mem_filter.mp hfirst).2

theorem assetsDueBySite_eq_nil {visibleAssets : List ReminderAsset}
    (h : assetsDueBySite t client visibleAssets = []) : visibleAssets = [] := by
  have hlines := @lines_assetsDueBySite t client visibleAssets
  rw [h, List.flatMap_nil] at hlines
  exact List.map_eq_nil_iff.mp hlines.nil_eq.symm

theorem siteIds_assetsDueBySite (visibleAssets : List ReminderAsset) :
    (assetsDueBySite t client visibleAssets).map (·.siteId) =
      (grouped t.siteId visibleAssets).map Prod.fst := by
  rw [assetsDueBySite, List.map_map]
  apply List.map_congr_left
  intro g hg
  obtain ⟨siteId, siteAssets⟩ := g
  obtain ⟨rfl, hne⟩ := mem_grouped.mp hg
  obtain ⟨first, rest, hcons⟩ := List.exists_cons_of_ne_nil hne
  have hfirst : first ∈ visibleAssets.filter (t.siteId · = siteId) := by simp [hcons]
  simp only [Function.comp_apply, hcons]
  exact of_decide_eq_true (List.mem_filter.mp hfirst).2

/-- **Every e-mail of the run** is well sorted. -/
theorem reminderEmails_wellSorted (t : ReminderTables) (o : ReminderOrders) (fuel : Nat)
    (frontendUrl : String) (tz : Int) (now : String → TimeValue) :
    ∀ job ∈ handleDailyInspectionReminders t o fuel frontendUrl tz now,
      ∃ client siteHierarchy member,
        WellSorted t o fuel tz now job client siteHierarchy member := by
  intro job hjob
  obtain ⟨client, hclient, hjob⟩ := List.mem_flatMap.mp hjob
  obtain ⟨hclient, hactive⟩ := RowOrder.mem_findMany.mp hclient
  rw [processClientInspectionReminders, find?_client hclient] at hjob
  dsimp only at hjob
  split_ifs at hjob with hdemo
  · exact absurd hjob List.not_mem_nil
  cases hhierarchy : getSiteHierarchy fuel o t.db client.id with
  | none =>
    rw [hhierarchy] at hjob
    exact absurd hjob List.not_mem_nil
  | some siteHierarchy =>
    simp only [hhierarchy, Option.bind_eq_bind, Option.bind_some, Option.pure_def,
      Option.getD_some, inspectionReminderBuckets_eq, List.mem_flatMap, List.mem_map] at hjob
    obtain ⟨bucket, ⟨g, hg, rfl⟩, hjob⟩ := hjob
    unfold bucketEmails at hjob
    dsimp only at hjob
    split_ifs at hjob with hbucket hmembers
    · exact absurd hjob List.not_mem_nil
    · exact absurd hjob List.not_mem_nil
    obtain ⟨member, hmember, hemail⟩ := List.mem_filterMap.mp hjob
    unfold reminderEmail at hemail
    rw [getVisibleAssetsForMember_filter] at hemail
    dsimp only at hemail
    split_ifs at hemail with hvisible
    obtain rfl := Option.some.inj hemail
    refine ⟨client, siteHierarchy, member, ⟨hclient, of_decide_eq_true hactive, by simpa using hdemo⟩,
      hhierarchy, hmember, rfl, ?_, ?_, ?_⟩
    · exact fun hnone => hvisible (List.length_eq_zero_iff.mpr (assetsDueBySite_eq_nil hnone))
    · dsimp only
      rw [siteIds_assetsDueBySite]
      exact (groupsOf_grouped _).keys
    · intro sec hsec
      obtain ⟨siteId, rfl, hne, hlines⟩ := mem_assetsDueBySite hsec
      rw [hlines]
      refine ⟨by simpa using hne, fun line hline => ?_⟩
      obtain ⟨b, hb, rfl⟩ := List.mem_map.mp hline
      obtain ⟨hb, hsite⟩ := List.mem_filter.mp hb
      obtain ⟨hb, hsees⟩ := List.mem_filter.mp hb
      obtain ⟨hb, hof⟩ := List.mem_filter.mp hb
      obtain ⟨a, ha, hown, rfl⟩ := mem_findAssets_iff.mp hb
      exact ⟨a, ha, hown, of_decide_eq_true hsite, hsees, of_decide_eq_true hof, rfl⟩

end

/-! ## 6. Two sites -/

/-- Lea keeps the dock and Max the whole port; both want the reminders of level 3. -/
def portDb : Db where
  clients := ⟨[{ id := "port", externalId := "x-port", status := .active }], by decide⟩
  sites := ⟨[{ id := "dock", externalId := "x-dock", createdOn := 0, clientId := "port" },
    { id := "yard", externalId := "x-yard", createdOn := 0, clientId := "port" }], by decide⟩
  roles := ⟨[{ id := "keeper", name := "Keeper",
               notificationGroups := ["inspection_due_soon_alert_level_3"] },
    { id := "master", name := "Master", scope := .client,
      notificationGroups := ["inspection_due_soon_alert_level_3"] }], by decide⟩
  persons := ⟨[{ id := "lea", firstName := "Lea", lastName := "L.", email := "l@port.org" },
    { id := "max", firstName := "Max", lastName := "M.", email := "m@port.org" }], by decide⟩
  accesses := ⟨[{ createdOn := 0, personId := "lea", clientId := "port", siteId := "dock",
                  roleId := "keeper" },
    { createdOn := 0, personId := "max", clientId := "port", siteId := "dock",
      roleId := "master" }], by decide⟩

theorem epoch_inRange : |(0 : Int)| ≤ maxTime := by decide

/-- A pump in the yard that has never been inspected. -/
def portTables : ReminderTables where
  db := portDb
  assets := [{ id := "pump", clientId := "port", createdOn := ⟨0, epoch_inRange⟩ }]
  included := fun _ =>
    { name := "Pump"
      site := { id := "yard", externalId := "x-yard", createdOn := 0, clientId := "port" }
      product := { name := "P", categoryId := "c", categoryName := "C", categoryIcon := none,
                   categoryColor := none } }

def portOrders : ReminderOrders :=
  ⟨.insertion _, .insertion _, .insertion _, .insertion _⟩

def portHierarchy : ISiteHierarchy :=
  (getSiteHierarchy 2 portOrders portTables.db "port").get (by decide)

theorem portHierarchy_eq :
    getSiteHierarchy 2 portOrders portTables.db "port" = some portHierarchy :=
  (Option.some_get _).symm

theorem dueSoon_inRange : |23 * msPerDay| ≤ maxTime := by decide

/-- The e-mails of that day are there, and well sorted. -/
theorem reminderEmails_wellSorted_port :
    ∃ job ∈ handleDailyInspectionReminders portTables portOrders 2 "" 0
        fun _ => ⟨23 * msPerDay, dueSoon_inRange⟩,
      ∃ client siteHierarchy member, WellSorted portTables portOrders 2 0
        (fun _ => ⟨23 * msPerDay, dueSoon_inRange⟩) job client siteHierarchy member := by
  have hsome : (handleDailyInspectionReminders portTables portOrders 2 "" 0
      fun _ => ⟨23 * msPerDay, dueSoon_inRange⟩).length ≠ 0 := by decide +kernel
  obtain ⟨job, hjob⟩ := List.exists_mem_of_length_pos (Nat.pos_of_ne_zero hsome)
  exact ⟨job, hjob, reminderEmails_wellSorted portTables portOrders 2 "" 0 _ job hjob⟩

end ShieldApi
