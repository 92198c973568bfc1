import Mathlib.Data.List.Find
import Mathlib.Data.List.Sort
import Mathlib.Tactic.Linarith
import Mathlib.Tactic.NormNum
import ShieldApi.Lib.Dates
import ShieldApi.Lib.FirstMatch

/-!
# Reminders of inspections

`processClientInspectionReminders`. Every day each asset of the client is put into the bucket of
the first reminder group whose threshold is met today, smaller percentages first. A threshold is a
fraction of the inspection cycle or a number of days, whichever is less, before the inspection is
due.

What a run makes of an asset depends on the latest inspection and the cycle (`uses_iff`). Until the
next inspection these are the same in all runs, and what is chosen day by day is the first whose
day it is: **the reminders escalate** (`reminders_escalate`). That the cycle has the minimum
keeps every threshold a day away from the inspection on the one side and the due date on the other
(`thresholdDays_bounds`).

Percentages are exact here, and so are their products with a cycle.
-/

set_option autoImplicit false

namespace ShieldApi

/-! ## 1. The groups -/

inductive NotificationGroupId
  | inspectionReminder
  | inspectionDueSoonAlertLevel1
  | inspectionDueSoonAlertLevel2
  | inspectionDueSoonAlertLevel3
  | inspectionDueSoonAlertLevel4
  | monthlyComplianceReport
  | monthlyConsumablesReport
  | inspectionAlertTriggered
  deriving DecidableEq, Repr

structure ThresholdConfig where
  pctThreshold : Rat
  daysThreshold : Rat
  deriving DecidableEq, Repr

structure INotificationGroup where
  id : NotificationGroupId
  config : Option ThresholdConfig := none
  deriving DecidableEq, Repr

/-- One that has a threshold. -/
structure InspectionReminderGroup where
  id : NotificationGroupId
  config : ThresholdConfig
  deriving DecidableEq, Repr

/-- In the order of their keys. -/
def notificationGroups : List INotificationGroup :=
  [{ id := .inspectionReminder,
     config := some { pctThreshold := 0.85, daysThreshold := 25 } },
   { id := .inspectionDueSoonAlertLevel1,
     config := some { pctThreshold := 0.5, daysThreshold := 14 } },
   { id := .inspectionDueSoonAlertLevel2,
     config := some { pctThreshold := 0.35, daysThreshold := 10 } },
   { id := .inspectionDueSoonAlertLevel3,
     config := some { pctThreshold := 0.25, daysThreshold := 7 } },
   { id := .inspectionDueSoonAlertLevel4,
     config := some { pctThreshold := 0.15, daysThreshold := 3 } },
   { id := .monthlyComplianceReport },
   { id := .monthlyConsumablesReport },
   { id := .inspectionAlertTriggered }]

def isInspectionReminderNotificationGroup (group : INotificationGroup) :
    Option InspectionReminderGroup :=
  group.config.map fun config => { id := group.id, config }

def inspectionReminderNotificationGroups : List InspectionReminderGroup :=
  notificationGroups.filterMap isInspectionReminderNotificationGroup

/-- `Math.min`, `none` being `Infinity`. -/
def minPctThreshold (min : Option Rat) (group : InspectionReminderGroup) : Option Rat :=
  match min with
  | some m => some (Min.min m group.config.pctThreshold)
  | none => some group.config.pctThreshold

def minimumInspectionCycle : Int :=
  match inspectionReminderNotificationGroups.foldl minPctThreshold none with
  | some min => ⌈1 / min⌉
  | none => 0

def inspectionReminderNotificationGroupsThresholdAsc : List InspectionReminderGroup :=
  inspectionReminderNotificationGroups.insertionSort fun a b =>
    a.config.pctThreshold - b.config.pctThreshold ≤ 0

theorem minimumInspectionCycle_eq : minimumInspectionCycle = 7 := by decide +kernel

theorem mem_thresholdAsc {g : InspectionReminderGroup} :
    g ∈ inspectionReminderNotificationGroupsThresholdAsc ↔
      g ∈ inspectionReminderNotificationGroups :=
  List.mem_insertionSort _

/-- Those with the smaller percentage have the smaller number of days. -/
theorem thresholdAsc_pairwise :
    inspectionReminderNotificationGroupsThresholdAsc.Pairwise fun a b =>
      a.config.pctThreshold < b.config.pctThreshold ∧
        a.config.daysThreshold < b.config.daysThreshold := by
  decide +kernel

/-- Level 4 comes first. -/
theorem thresholdAsc_eq_cons : ∃ g groups,
    inspectionReminderNotificationGroupsThresholdAsc = g :: groups ∧
      g.id = .inspectionDueSoonAlertLevel4 := by
  have h : inspectionReminderNotificationGroupsThresholdAsc.head?.map (·.id) =
      some .inspectionDueSoonAlertLevel4 := by
    decide +kernel
  obtain ⟨g, hg, hid⟩ := Option.map_eq_some_iff.1 h
  obtain ⟨groups, hgroups⟩ := List.head?_eq_some_iff.1 hg
  exact ⟨g, groups, hgroups, hid⟩

theorem config_bounds {g : InspectionReminderGroup}
    (hg : g ∈ inspectionReminderNotificationGroups) :
    3 / 20 ≤ g.config.pctThreshold ∧ g.config.pctThreshold ≤ 17 / 20 ∧
      1 ≤ g.config.daysThreshold := by
  simp only [inspectionReminderNotificationGroups, notificationGroups,
    isInspectionReminderNotificationGroup, List.filterMap_cons, List.filterMap_nil,
    Option.map_some, Option.map_none, List.mem_cons, List.not_mem_nil, or_false] at hg
  rcases hg with rfl | rfl | rfl | rfl | rfl <;> norm_num

theorem eq_of_id_eq {g g' : InspectionReminderGroup}
    (hg : g ∈ inspectionReminderNotificationGroups)
    (hg' : g' ∈ inspectionReminderNotificationGroups) (h : g.id = g'.id) : g = g' := by
  have hnodup : (inspectionReminderNotificationGroups.map (·.id)).Nodup := by decide
  exact List.inj_on_of_nodup_map hnodup hg hg' h

/-! ## 2. The job -/

structure ReminderClient where
  id : String
  /-- In days. -/
  defaultInspectionCycle : Int := 30
  deriving DecidableEq

structure ReminderAsset where
  id : String
  clientId : String
  createdOn : TimeValue
  /-- In days. -/
  inspectionCycle : Option Int := none
  /-- When they were created. -/
  inspections : List TimeValue := []
  deriving DecidableEq

/-- The lesser of the static days and the percentage of the cycle. -/
def thresholdDays (inspectionCycle : Int) (thresholdConfig : ThresholdConfig) : Rat :=
  min (inspectionCycle * thresholdConfig.pctThreshold) thresholdConfig.daysThreshold

def thresholdDate (inspectionCycle : Int) (lastInspectedOn : TimeValue)
    (thresholdConfig : ThresholdConfig) : Option TimeValue :=
  lastInspectedOn.addMilliseconds
    ((inspectionCycle - thresholdDays inspectionCycle thresholdConfig) * 24 * 60 * 60 * 1000)

def isThresholdMetToday (tz : Int) (now : TimeValue) (inspectionCycle : Int)
    (lastInspectedOn : TimeValue) (thresholdConfig : ThresholdConfig) : Bool :=
  TimeValue.isToday tz now (thresholdDate inspectionCycle lastInspectedOn thresholdConfig)

namespace ReminderAsset

/-- `inspections: { orderBy: { createdOn: 'desc' }, take: 1 }`. -/
def withLatestInspection (a : ReminderAsset) : ReminderAsset :=
  { a with inspections := (a.inspections.insertionSort fun i j => j.ms ≤ i.ms).take 1 }

/-- The creation of the asset, if there are no inspections. -/
def lastInspectedOn (a : ReminderAsset) : TimeValue := a.inspections.head?.getD a.createdOn

def cycle (client : ReminderClient) (a : ReminderAsset) : Int :=
  a.inspectionCycle.getD client.defaultInspectionCycle

end ReminderAsset

namespace ClientNotificationsProcessor

/-- The map, in the order in which its keys were set. -/
abbrev ReminderBuckets : Type := List (NotificationGroupId × List ReminderAsset)

def ReminderBuckets.push (buckets : ReminderBuckets) (id : NotificationGroupId)
    (asset : ReminderAsset) : ReminderBuckets :=
  buckets.map fun (key, bucket) => (key, if key = id then bucket ++ [asset] else bucket)

/-- The loop over the groups, which breaks at the first whose threshold is met. -/
def bucketAsset (tz : Int) (now : TimeValue) (client : ReminderClient) (asset : ReminderAsset) :
    List InspectionReminderGroup → ReminderBuckets → ReminderBuckets
  | [], buckets => buckets
  | group :: groups, buckets =>
    if isThresholdMetToday tz now (asset.cycle client) asset.lastInspectedOn group.config then
      buckets.push group.id asset
    else bucketAsset tz now client asset groups buckets

/-- `asset.findMany`, with the latest inspection. -/
def findAssets (client : ReminderClient) (rows : List ReminderAsset) : List ReminderAsset :=
  (rows.filter (·.clientId = client.id)).map ReminderAsset.withLatestInspection

/-- What the job does for a client that exists and is not in demo mode, up to the e-mails. -/
def inspectionReminderBuckets (tz : Int) (now : TimeValue) (client : ReminderClient)
    (rows : List ReminderAsset) : ReminderBuckets :=
  (findAssets client rows).foldl
    (fun buckets asset =>
      bucketAsset tz now client asset inspectionReminderNotificationGroupsThresholdAsc buckets)
    (inspectionReminderNotificationGroups.map fun g => (g.id, []))

/-- Where the loop breaks. -/
def groupToday (tz : Int) (now : TimeValue) (client : ReminderClient) (asset : ReminderAsset) :
    Option InspectionReminderGroup :=
  inspectionReminderNotificationGroupsThresholdAsc.find? fun group =>
    isThresholdMetToday tz now (asset.cycle client) asset.lastInspectedOn group.config

def bucketOf (tz : Int) (now : TimeValue) (client : ReminderClient) (asset : ReminderAsset) :
    Option NotificationGroupId :=
  (groupToday tz now client asset).map (·.id)

variable {tz : Int} {now : TimeValue} {client : ReminderClient}

theorem bucketAsset_eq (asset : ReminderAsset) (groups : List InspectionReminderGroup)
    (buckets : ReminderBuckets) :
    bucketAsset tz now client asset groups buckets =
      match groups.find? fun group =>
        isThresholdMetToday tz now (asset.cycle client) asset.lastInspectedOn group.config with
      | some group => buckets.push group.id asset
      | none => buckets := by
  induction groups with
  | nil => rfl
  | cons group groups ih =>
    unfold bucketAsset
    by_cases h : isThresholdMetToday tz now (asset.cycle client) asset.lastInspectedOn group.config
    · simp only [h, if_true, List.find?_cons]
    · simp only [h, Bool.false_eq_true, if_false, List.find?_cons, ih]

/-- One round of the loop over the assets, on buckets that hold what they hold. -/
theorem bucketAsset_map (asset : ReminderAsset) (held : NotificationGroupId → List ReminderAsset) :
    bucketAsset tz now client asset inspectionReminderNotificationGroupsThresholdAsc
        (inspectionReminderNotificationGroups.map fun g => (g.id, held g.id)) =
      inspectionReminderNotificationGroups.map fun g =>
        (g.id, held g.id ++
          if bucketOf tz now client asset = some g.id then [asset] else []) := by
  unfold bucketOf
  rw [bucketAsset_eq]
  show (match groupToday tz now client asset with | some group => _ | none => _) = _
  cases groupToday tz now client asset with
  | none => simp
  | some group =>
    simp only [ReminderBuckets.push, List.map_map, Option.map_some, Option.some_inj]
    apply List.map_congr_left
    intro g _
    simp only [Function.comp_apply, Prod.mk.injEq, true_and]
    by_cases h : g.id = group.id
    · rw [if_pos h, if_pos h.symm]
    · rw [if_neg h, if_neg fun h' => h h'.symm, List.append_nil]

/-- **What the buckets hold.** -/
theorem inspectionReminderBuckets_eq (rows : List ReminderAsset) :
    inspectionReminderBuckets tz now client rows =
      inspectionReminderNotificationGroups.map fun g =>
        (g.id, (findAssets client rows).filter fun a => bucketOf tz now client a = some g.id) := by
  -- the induction is over the assets still to come, whatever the buckets hold so far
  have h : ∀ (assets : List ReminderAsset) (held : NotificationGroupId → List ReminderAsset),
      assets.foldl
          (fun buckets asset => bucketAsset tz now client asset
            inspectionReminderNotificationGroupsThresholdAsc buckets)
          (inspectionReminderNotificationGroups.map fun g => (g.id, held g.id)) =
        inspectionReminderNotificationGroups.map fun g =>
          (g.id, held g.id ++ assets.filter fun a =>
            bucketOf tz now client a = some g.id) := by
    intro assets
    induction assets with
    | nil => simp
    | cons asset assets ih =>
      intro held
      rw [List.foldl_cons, bucketAsset_map, ih fun id => held id ++
        if bucketOf tz now client asset = some id then [asset] else []]
      apply List.map_congr_left
      intro g _
      by_cases hg : bucketOf tz now client asset = some g.id
      · simp [hg]
      · simp [hg]
  exact h _ fun _ => []

/-- An asset in the bucket of a group is one for which the loop breaks there. -/
theorem mem_bucket_iff {rows : List ReminderAsset} {asset : ReminderAsset}
    {g : InspectionReminderGroup} (hg : g ∈ inspectionReminderNotificationGroups) :
    (∃ bucket, (g.id, bucket) ∈ inspectionReminderBuckets tz now client rows ∧ asset ∈ bucket) ↔
      asset ∈ findAssets client rows ∧ groupToday tz now client asset = some g := by
  rw [inspectionReminderBuckets_eq]
  constructor
  · rintro ⟨bucket, hbucket, hasset⟩
    obtain ⟨g₀, -, hg₀⟩ := List.mem_map.1 hbucket
    rw [Prod.mk.injEq] at hg₀
    obtain ⟨hid, rfl⟩ := hg₀
    obtain ⟨hasset, hof⟩ := List.mem_filter.1 hasset
    obtain ⟨g', hg', hsame⟩ := Option.map_eq_some_iff.1 (of_decide_eq_true hof)
    have hmem := mem_thresholdAsc.1 (List.mem_of_find?_eq_some hg')
    rw [eq_of_id_eq hmem hg (hsame.trans hid)] at hg'
    exact ⟨hasset, hg'⟩
  · rintro ⟨hasset, htoday⟩
    have hof : bucketOf tz now client asset = some g.id := by
      unfold bucketOf
      rw [htoday, Option.map_some]
    exact ⟨_, List.mem_map_of_mem hg, List.mem_filter.2 ⟨hasset, decide_eq_true hof⟩⟩

/-! ## 3. Thresholds -/

/-- The day on which the threshold of a group falls. -/
def groupDay (tz : Int) (inspectionCycle : Int) (lastInspectedOn : TimeValue)
    (group : InspectionReminderGroup) : Option Int :=
  (thresholdDate inspectionCycle lastInspectedOn group.config).map (TimeValue.day tz)

/-- With days of 24 hours. -/
def dueDate (inspectionCycle : Int) (lastInspectedOn : TimeValue) : Option TimeValue :=
  lastInspectedOn.addMilliseconds (inspectionCycle * 24 * 60 * 60 * 1000)

variable {inspectionCycle : Int} {lastInspectedOn : TimeValue} {g : InspectionReminderGroup}

/-- With the minimum of 7 days, 15% of a cycle are a day or more, and so is what 85% leave. -/
theorem thresholdDays_bounds (hcycle : minimumInspectionCycle ≤ inspectionCycle)
    (hg : g ∈ inspectionReminderNotificationGroups) :
    1 ≤ thresholdDays inspectionCycle g.config ∧
      thresholdDays inspectionCycle g.config ≤ inspectionCycle - 1 := by
  obtain ⟨hlow, hhigh, hdays⟩ := config_bounds hg
  rw [minimumInspectionCycle_eq] at hcycle
  have hc : (7 : Rat) ≤ inspectionCycle := by exact_mod_cast hcycle
  have hpct : 1 ≤ inspectionCycle * g.config.pctThreshold := by nlinarith
  have hrest : inspectionCycle * g.config.pctThreshold ≤ inspectionCycle - 1 := by nlinarith
  exact ⟨le_min hpct hdays, (min_le_left _ _).trans hrest⟩

/-- The threshold falls a day or more after the inspection, and a day or more before the next is
    due. -/
theorem thresholdDate_bounds (hcycle : minimumInspectionCycle ≤ inspectionCycle)
    (hg : g ∈ inspectionReminderNotificationGroups) {t : TimeValue}
    (ht : thresholdDate inspectionCycle lastInspectedOn g.config = some t) :
    lastInspectedOn.ms + msPerDay ≤ t.ms ∧
      t.ms + msPerDay ≤ lastInspectedOn.ms + inspectionCycle * msPerDay := by
  obtain ⟨hlow, hhigh⟩ := thresholdDays_bounds hcycle hg
  have htrunc := (TimeValue.clip_eq_some_iff.1 ht).2
  constructor
  · rw [← htrunc]
    apply TimeValue.le_trunc
    unfold msPerDay
    push_cast
    linarith
  · have hle : t.ms ≤ lastInspectedOn.ms + inspectionCycle * msPerDay - msPerDay := by
      rw [← htrunc]
      apply TimeValue.trunc_le
      unfold msPerDay
      push_cast
      linarith
    linarith

/-- There is a date for the threshold where there is one for the next inspection. -/
theorem thresholdDate_isSome (hcycle : minimumInspectionCycle ≤ inspectionCycle)
    (hg : g ∈ inspectionReminderNotificationGroups)
    (hdue : (dueDate inspectionCycle lastInspectedOn).isSome) :
    (thresholdDate inspectionCycle lastInspectedOn g.config).isSome := by
  obtain ⟨hlow, hhigh⟩ := thresholdDays_bounds hcycle hg
  obtain ⟨due, hdue⟩ := Option.isSome_iff_exists.1 hdue
  rw [Option.isSome_iff_ne_none]
  apply TimeValue.clip_ne_none (t := lastInspectedOn) _ _ hdue
  · linarith
  · linarith

theorem thresholdDays_lt {a b : ThresholdConfig} (hcycle : 0 < inspectionCycle)
    (hpct : a.pctThreshold < b.pctThreshold) (hdays : a.daysThreshold < b.daysThreshold) :
    thresholdDays inspectionCycle a < thresholdDays inspectionCycle b := by
  have hc : (0 : Rat) < inspectionCycle := by exact_mod_cast hcycle
  exact min_lt_min (mul_lt_mul_of_pos_left hpct hc) hdays

theorem ascending_thresholds (tz : Int) (lastInspectedOn : TimeValue)
    (hcycle : 0 < inspectionCycle) :
    Ascending (fun g => thresholdDays inspectionCycle g.config)
      (groupDay tz inspectionCycle lastInspectedOn)
      inspectionReminderNotificationGroupsThresholdAsc where
  pairwise := thresholdAsc_pairwise.imp fun h => thresholdDays_lt hcycle h.1 h.2
  later := by
    intro a _ b _ hlt d e hd he
    obtain ⟨t, ht, rfl⟩ := Option.map_eq_some_iff.1 hd
    obtain ⟨u, hu, rfl⟩ := Option.map_eq_some_iff.1 he
    apply TimeValue.day_mono
    apply TimeValue.clip_mono _ hu ht
    linarith

/-- **What becomes of an asset today** depends on its cycle and its latest inspection. -/
theorem groupToday_eq {asset : ReminderAsset}
    (hcycle : minimumInspectionCycle ≤ asset.cycle client) :
    groupToday tz now client asset =
      firstOn (groupDay tz (asset.cycle client) asset.lastInspectedOn)
        inspectionReminderNotificationGroupsThresholdAsc (now.day tz) := by
  apply List.find?_congr
  intro g hg
  rw [mem_thresholdAsc] at hg
  show TimeValue.isToday tz now (thresholdDate _ _ g.config) = decide (_ = _)
  unfold groupDay
  cases ht : thresholdDate (asset.cycle client) asset.lastInspectedOn g.config with
  -- an invalid date is on no day
  | none => rfl
  | some t =>
    rw [Bool.eq_iff_iff, TimeValue.isToday_iff (thresholdDate_bounds hcycle hg ht).1,
      decide_eq_true_iff, Option.map_some, Option.some_inj]

end ClientNotificationsProcessor

/-! ## 4. Runs -/

open ClientNotificationsProcessor

/-- An asset, with all the inspections it ever gets. -/
structure AssetHistory where
  id : String
  clientId : String
  createdOn : TimeValue
  inspectionCycle : Option Int := none
  inspections : List TimeValue

namespace AssetHistory

variable (h : AssetHistory)

/-- The row at an instant, with the inspections so far. -/
def rowAt (now : TimeValue) : ReminderAsset :=
  { id := h.id, clientId := h.clientId, createdOn := h.createdOn,
    inspectionCycle := h.inspectionCycle, inspections := h.inspections.filter (·.ms ≤ now.ms) }

def cycle (client : ReminderClient) : Int :=
  h.inspectionCycle.getD client.defaultInspectionCycle

def lastInspectedAt (now : TimeValue) : TimeValue :=
  (h.rowAt now).withLatestInspection.lastInspectedOn

/-- The asset is there, and the inspections after `last` are all still to come. -/
def NotInspectedSince (last now : TimeValue) : Prop :=
  h.createdOn.ms ≤ now.ms ∧ ∀ i ∈ h.inspections, last.ms < i.ms → now.ms < i.ms

variable {h}

theorem lastInspectedAt_eq {last now : TimeValue} (hlast : h.lastInspectedAt last = last)
    (hle : last.ms ≤ now.ms) (hsince : h.NotInspectedSince last now) :
    h.lastInspectedAt now = last := by
  have hsame : h.inspections.filter (·.ms ≤ now.ms) = h.inspections.filter (·.ms ≤ last.ms) := by
    apply List.filter_congr
    intro i hi
    have hnext := hsince.2 i hi
    rw [decide_eq_decide]
    omega
  rw [← hlast]
  unfold lastInspectedAt rowAt
  rw [hsame]

end AssetHistory

/-- The runs for a client, one a day. -/
structure DailyRuns where
  /-- How far ahead the time zone of the server is. -/
  tz : Int
  client : ReminderClient
  /-- When the run of a day takes place. The days for which there are dates come to an end. -/
  now : Int → Option TimeValue
  day_now : ∀ d t, now d = some t → t.day tz = d
  /-- The rows it reads. -/
  rows : Int → List ReminderAsset

namespace DailyRuns

variable (r : DailyRuns)

/-- The runs read this asset, as it is at the time. Of all the others nothing is said. -/
structure Reads (h : AssetHistory) : Prop where
  client : h.clientId = r.client.id
  rows : ∀ d now, r.now d = some now → h.createdOn.ms ≤ now.ms →
    (r.rows d).filter (·.id = h.id) = [h.rowAt now]

/-- The run of the day puts the asset into the bucket of the group. -/
def Uses (assetId : String) (d : Int) (g : InspectionReminderGroup) : Prop :=
  ∃ now, r.now d = some now ∧
    ∃ bucket, (g.id, bucket) ∈ inspectionReminderBuckets r.tz now r.client (r.rows d) ∧
      ∃ a ∈ bucket, a.id = assetId

/-- The run of the day takes place from the inspection on and until the next. -/
def Between (h : AssetHistory) (last : TimeValue) (d : Int) : Prop :=
  ∃ now, r.now d = some now ∧ last.ms ≤ now.ms ∧ h.NotInspectedSince last now

variable {r} {h : AssetHistory} {last : TimeValue}

theorem mem_rows (hreads : r.Reads h) {d : Int} {now : TimeValue} (hnow : r.now d = some now)
    (hcreated : h.createdOn.ms ≤ now.ms) {a : ReminderAsset} :
    a ∈ r.rows d ∧ a.id = h.id ↔ a = h.rowAt now := by
  have hmem : a ∈ (r.rows d).filter (·.id = h.id) ↔ a ∈ [h.rowAt now] := by
    rw [hreads.rows d now hnow hcreated]
  rw [List.mem_filter, decide_eq_true_iff, List.mem_singleton] at hmem
  exact hmem

theorem mem_findAssets (hreads : r.Reads h) {d : Int} {now : TimeValue}
    (hnow : r.now d = some now) (hcreated : h.createdOn.ms ≤ now.ms) {a : ReminderAsset} :
    a ∈ findAssets r.client (r.rows d) ∧ a.id = h.id ↔
      a = (h.rowAt now).withLatestInspection := by
  constructor
  · rintro ⟨ha, hid⟩
    obtain ⟨a₀, ha₀, rfl⟩ := List.mem_map.1 ha
    obtain rfl := (mem_rows hreads hnow hcreated).1 ⟨(List.mem_filter.1 ha₀).1, hid⟩
    rfl
  · rintro rfl
    obtain ⟨hrow, hid⟩ := (mem_rows hreads hnow hcreated).2 rfl
    have hclient : h.rowAt now ∈ (r.rows d).filter (·.clientId = r.client.id) :=
      List.mem_filter.2 ⟨hrow, decide_eq_true hreads.client⟩
    exact ⟨List.mem_map_of_mem hclient, hid⟩

/-- **What a run makes of the asset**, from an inspection on and until the next. -/
theorem uses_iff (hreads : r.Reads h) (hlast : h.lastInspectedAt last = last)
    (hcycle : minimumInspectionCycle ≤ h.cycle r.client) {d : Int} (hd : r.Between h last d)
    {g : InspectionReminderGroup} (hg : g ∈ inspectionReminderNotificationGroups) :
    r.Uses h.id d g ↔
      firstOn (groupDay r.tz (h.cycle r.client) last)
        inspectionReminderNotificationGroupsThresholdAsc d = some g := by
  obtain ⟨now, hnow, hle, hsince⟩ := hd
  have hlatest : (h.rowAt now).withLatestInspection.lastInspectedOn = last :=
    h.lastInspectedAt_eq hlast hle hsince
  have htoday : groupToday r.tz now r.client (h.rowAt now).withLatestInspection =
      firstOn (groupDay r.tz (h.cycle r.client) last)
        inspectionReminderNotificationGroupsThresholdAsc d := by
    rw [← r.day_now d now hnow, ← hlatest]
    exact groupToday_eq hcycle
  rw [← htoday]
  constructor
  · rintro ⟨now', hnow', bucket, hbucket, a, ha, hid⟩
    obtain rfl := Option.some_inj.1 (hnow.symm.trans hnow')
    obtain ⟨hfound, hgroup⟩ := (mem_bucket_iff hg).1 ⟨bucket, hbucket, ha⟩
    rw [(mem_findAssets hreads hnow hsince.1).1 ⟨hfound, hid⟩] at hgroup
    exact hgroup
  · intro hgroup
    obtain ⟨hfound, hid⟩ := (mem_findAssets hreads hnow hsince.1).2 rfl
    obtain ⟨bucket, hbucket, ha⟩ := (mem_bucket_iff hg).2 ⟨hfound, hgroup⟩
    exact ⟨now, hnow, bucket, hbucket, _, ha, hid⟩

variable (r h last)

/-- What is promised of the reminders from an inspection on and until the next. -/
structure Escalates : Prop where
  /-- A run puts the asset into one bucket at most. -/
  oneBucket : ∀ d, r.Between h last d →
    ∀ g ∈ inspectionReminderNotificationGroups, ∀ g' ∈ inspectionReminderNotificationGroups,
      r.Uses h.id d g → r.Uses h.id d g' → g = g'
  /-- A group is used on one day at most. -/
  oneDay : ∀ d d', r.Between h last d → r.Between h last d' →
    ∀ g ∈ inspectionReminderNotificationGroups,
      r.Uses h.id d g → r.Uses h.id d' g → d = d'
  /-- Thresholds decrease. -/
  decreasing : ∀ d d', r.Between h last d → r.Between h last d' → d < d' →
    ∀ g ∈ inspectionReminderNotificationGroups, ∀ g' ∈ inspectionReminderNotificationGroups,
      r.Uses h.id d g → r.Uses h.id d' g' →
        thresholdDays (h.cycle r.client) g'.config < thresholdDays (h.cycle r.client) g.config
  /-- On the day on which its threshold falls a group is used, or one with a smaller threshold. -/
  skipped : ∀ g ∈ inspectionReminderNotificationGroups, ∀ t now,
    thresholdDate (h.cycle r.client) last g.config = some t → r.now (t.day r.tz) = some now →
    h.NotInspectedSince last now →
      r.Uses h.id (t.day r.tz) g ∨
        ∃ g' ∈ inspectionReminderNotificationGroups,
          thresholdDays (h.cycle r.client) g'.config < thresholdDays (h.cycle r.client) g.config ∧
            r.Uses h.id (t.day r.tz) g'
  /-- Level 4 is used, on the day of an instant 24 hours or more before the due date. -/
  level4 : ∃ g ∈ inspectionReminderNotificationGroups, g.id = .inspectionDueSoonAlertLevel4 ∧
    ((dueDate (h.cycle r.client) last).isSome →
      (thresholdDate (h.cycle r.client) last g.config).isSome) ∧
    ∀ t, thresholdDate (h.cycle r.client) last g.config = some t →
      t.ms + msPerDay ≤ last.ms + h.cycle r.client * msPerDay ∧
        ∀ now, r.now (t.day r.tz) = some now → h.NotInspectedSince last now →
          r.Uses h.id (t.day r.tz) g

variable {r h last}

/-- The day of a threshold is a later one than that of the inspection. -/
theorem between_of_thresholdDate (hcycle : minimumInspectionCycle ≤ h.cycle r.client)
    {g : InspectionReminderGroup} (hg : g ∈ inspectionReminderNotificationGroups)
    {t now : TimeValue} (ht : thresholdDate (h.cycle r.client) last g.config = some t)
    (hnow : r.now (t.day r.tz) = some now) (hsince : h.NotInspectedSince last now) :
    r.Between h last (t.day r.tz) := by
  -- so the run is after the inspection, at whatever time of its day it takes place
  have hday : last.day r.tz < now.day r.tz := by
    rw [r.day_now _ _ hnow]
    exact TimeValue.day_lt_day (thresholdDate_bounds hcycle hg ht).1
  exact ⟨now, hnow, (TimeValue.ms_lt_of_day_lt hday).le, hsince⟩

/-- **The reminders escalate**, from any inspection on and until the next. -/
theorem reminders_escalate (hreads : r.Reads h) (hlast : h.lastInspectedAt last = last)
    (hcycle : minimumInspectionCycle ≤ h.cycle r.client) : r.Escalates h last := by
  have hpos : 0 < h.cycle r.client := by
    rw [minimumInspectionCycle_eq] at hcycle
    omega
  have hasc := ascending_thresholds r.tz last hpos
  have huses : ∀ {d : Int}, r.Between h last d → ∀ {g : InspectionReminderGroup},
      g ∈ inspectionReminderNotificationGroups → (r.Uses h.id d g ↔ _) :=
    fun hd _ hg => uses_iff hreads hlast hcycle hd hg
  constructor
  case oneBucket =>
    intro d hd g hg g' hg' huse huse'
    have hsame := ((huses hd hg).1 huse).symm.trans ((huses hd hg').1 huse')
    exact Option.some_inj.1 hsame
  case oneDay =>
    intro d d' hd hd' g hg huse huse'
    exact firstOn_once ((huses hd hg).1 huse) ((huses hd' hg).1 huse')
  case decreasing =>
    intro d d' hd hd' hlt g hg g' hg' huse huse'
    exact hasc.decreasing hlt ((huses hd hg).1 huse) ((huses hd' hg').1 huse')
  case skipped =>
    intro g hg t now ht hnow hsince
    have hd := between_of_thresholdDate hcycle hg ht hnow hsince
    have hday : groupDay r.tz (h.cycle r.client) last g = some (t.day r.tz) := by
      unfold groupDay
      rw [ht, Option.map_some]
    obtain ⟨g', hg', hor⟩ := hasc.chosen_or_smaller (mem_thresholdAsc.2 hg) hday
    have hmem := mem_thresholdAsc.1 (mem_of_firstOn hg')
    have huse := (huses hd hmem).2 hg'
    rcases hor with rfl | hsmaller
    · exact .inl huse
    · exact .inr ⟨g', hmem, hsmaller, huse⟩
  case level4 =>
    obtain ⟨g, groups, hgroups, hid⟩ := thresholdAsc_eq_cons
    have hg : g ∈ inspectionReminderNotificationGroups := by
      rw [← mem_thresholdAsc, hgroups]
      exact List.mem_cons_self
    refine ⟨g, hg, hid, thresholdDate_isSome hcycle hg, ?_⟩
    intro t ht
    refine ⟨(thresholdDate_bounds hcycle hg ht).2, fun now hnow hsince => ?_⟩
    have hd := between_of_thresholdDate hcycle hg ht hnow hsince
    rw [huses hd hg, hgroups]
    apply firstOn_cons_self
    unfold groupDay
    rw [ht, Option.map_some]

/-- A run at four o'clock every morning, for a client with one asset. -/
def nightly (tz : Int) (client : ReminderClient) (h : AssetHistory) : DailyRuns where
  tz := tz
  client := client
  now d := TimeValue.clip (d * msPerDay - tz + 4 * 60 * 60 * 1000 : Int)
  day_now := by
    intro d t ht
    have htrunc := (TimeValue.clip_eq_some_iff.1 ht).2
    rw [TimeValue.trunc_intCast] at htrunc
    unfold TimeValue.day
    unfold msPerDay at htrunc ⊢
    omega
  rows d :=
    ((TimeValue.clip (d * msPerDay - tz + 4 * 60 * 60 * 1000 : Int)).map h.rowAt).toList

theorem nightly_reads {tz : Int} {client : ReminderClient} {h : AssetHistory}
    (hclient : h.clientId = client.id) : (nightly tz client h).Reads h where
  client := hclient
  rows := by
    intro d now hnow _
    have hrows : (nightly tz client h).rows d = [h.rowAt now] := by
      show (((nightly tz client h).now d).map h.rowAt).toList = _
      rw [hnow, Option.map_some, Option.toList_some]
    rw [hrows]
    exact List.filter_eq_self.2 (by simp [AssetHistory.rowAt])

/-- Noon, a hundred days after the epoch. -/
def hundredthNoon : TimeValue := ⟨8683200000, by decide +kernel⟩

def extinguisher : AssetHistory where
  id := "extinguisher"
  clientId := "acme"
  createdOn := ⟨0, by decide +kernel⟩
  inspections := [hundredthNoon]

theorem extinguisher_escalates :
    (nightly 0 { id := "acme" } extinguisher).Escalates extinguisher hundredthNoon :=
  reminders_escalate (nightly_reads rfl) (by decide +kernel) (by decide +kernel)

end DailyRuns

end ShieldApi
