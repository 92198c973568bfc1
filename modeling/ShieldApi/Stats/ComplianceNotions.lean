import ShieldApi.Stats.ComplianceHistory

/-!
# Three notions of compliance

The monthly report counts an asset as compliant until a cycle after its latest inspection, or after
its creation if it has none. The history counts the days since the latest inspection before now, and
without one the asset is not compliant. The SQL of the overdue assets selects those whose latest
inspection is more than a cycle ago, **and only the inspected ones with a tag**.

They are three notions and come in an order: **whatever is compliant in the history is so in the
report, and what is so in the report is not overdue** (`complianceNotions_agree`). The first two are
one where the latest inspection is before now. The last two are one for an inspected asset with a
tag, but for the very instant at which its cycle is over.
-/

set_option autoImplicit false

namespace ShieldApi

open StatsService

/-! ## 1. The report -/

namespace ClientNotificationsProcessor

variable (db : ComplianceDb) (o : RowOrder ComplianceInspection)

/-- `inspections: { orderBy: { createdOn: 'desc' }, take: 1 }`. -/
def latestInspections (a : ComplianceAsset) : List ComplianceInspection :=
  (o.findManyBy latestFirst (·.assetId = a.id) db.inspections.rows).take 1

def isCompliant (client : ComplianceClient) (now : Int) (a : ComplianceAsset) : Bool :=
  let lastInspectedOn := ((latestInspections db o a).head?.map (·.createdOn)).getD a.createdOn
  let inspectionCycle := a.inspectionCycle.getD client.defaultInspectionCycle
  now < Calendar.addDays lastInspectedOn inspectionCycle

/-- Of the assets of one category. -/
def totalCompliant (client : ComplianceClient) (now : Int) (categoryAssets : List ComplianceAsset) :
    Nat :=
  (categoryAssets.filter (isCompliant db o client now)).length

end ClientNotificationsProcessor

/-! ## 2. `getOverdueAssets` -/

structure ComplianceTag where
  id : String
  deriving DecidableEq, Repr

/-- The joins with the product, its category and its manufacturer leave out nothing, since every
    asset has them. -/
def getOverdueAssets (db : ComplianceDb) (tags : Table ComplianceTag String ComplianceTag.id)
    (assetOrder : RowOrder ComplianceAsset) (o : RowOrder ComplianceInspection) (now : Int)
    (clientId : Option String) : List ComplianceAsset :=
  assetOrder.findMany (fun a =>
    match db.clients.find? a.clientId, db.sites.find? a.siteId, a.tagId.bind tags.find? with
    | some c, some _, some _ =>
      -- `DISTINCT ON (i."assetId")`, the latest first
      match o.findFirstBy latestFirst (·.assetId = a.id) db.inspections.rows with
      | some i =>
        i.createdOn <
            Calendar.addDays now (-(a.inspectionCycle.getD c.defaultInspectionCycle)) &&
          a.active && clientId.all (a.clientId = ·)
      | none => false
    | _, _, _ => false) db.assets.rows

/-! ## 3. The current month of the history -/

/-- The record whose end is now. -/
def currentMonth (cal : Calendar) (db : ComplianceDb) (orders : ComplianceOrders)
    (visible : ComplianceClient → Bool) (now : Int) (dto : QueryComplianceHistoryDto) :
    Option (ComplianceStatsRecord ComplianceAsset) :=
  ((getComplianceHistoryByMonth cal db orders visible now dto).map (·.map (·.asset))).head?

namespace ComplianceStatsRecord

variable {α : Type}

def compliant (r : ComplianceStatsRecord α) : List α := r.compliantDueLater ++ r.compliantDueSoon

def nonCompliant (r : ComplianceStatsRecord α) : List α :=
  r.nonCompliantInspected ++ r.nonCompliantNeverInspected

theorem mem_compliant_of {endDate : Int} {status : α → ComplianceStatus} {assets : List α} {a : α} :
    a ∈ (of endDate status assets).compliant ↔ a ∈ assets ∧ (status a).isCompliant = true := by
  cases h : status a <;> simp [compliant, of, h, ComplianceStatus.isCompliant]

theorem mem_nonCompliant_of {endDate : Int} {status : α → ComplianceStatus} {assets : List α}
    {a : α} :
    a ∈ (of endDate status assets).nonCompliant ↔
      a ∈ assets ∧ (status a).isCompliant = false := by
  cases h : status a <;> simp [nonCompliant, of, h, ComplianceStatus.isCompliant]

end ComplianceStatsRecord

/-- `COMPLIANT_DUE_LATER` or `COMPLIANT_DUE_SOON`. -/
def isCompliantInHistory (cal : Calendar) (db : ComplianceDb) (orders : ComplianceOrders)
    (visible : ComplianceClient → Bool) (now : Int) (dto : QueryComplianceHistoryDto)
    (a : ComplianceAsset) : Bool :=
  (currentMonth cal db orders visible now dto).any fun r => a ∈ r.compliant

/-- `NON_COMPLIANT_INSPECTED` or `NON_COMPLIANT_NEVER_INSPECTED`. -/
def isNonCompliantInHistory (cal : Calendar) (db : ComplianceDb) (orders : ComplianceOrders)
    (visible : ComplianceClient → Bool) (now : Int) (dto : QueryComplianceHistoryDto)
    (a : ComplianceAsset) : Bool :=
  (currentMonth cal db orders visible now dto).any fun r => a ∈ r.nonCompliant

/-! ## 4. The latest inspection of all -/

/-- When an asset was last inspected. -/
def lastInspection (db : ComplianceDb) (a : ComplianceAsset) : Option Int :=
  ((db.inspections.rows.filter (·.assetId = a.id)).map (·.createdOn)).max?

section

variable {db : ComplianceDb} {o : RowOrder ComplianceInspection} {a : ComplianceAsset}

theorem map_findFirstBy_latestFirst :
    (o.findFirstBy latestFirst (·.assetId = a.id) db.inspections.rows).map (·.createdOn) =
      lastInspection db a := by
  have hdown := pairwise_findManyBy o (·.assetId = a.id) db.inspections.rows
  rw [RowOrder.findFirstBy, ← List.head?_map, head?_eq_max? (List.pairwise_map.mpr hdown)]
  refine max?_eq_of_dominating (fun t ht => ?_) fun t ht => ?_
  · obtain ⟨i, hi, rfl⟩ := List.mem_map.mp ht
    exact List.mem_map_of_mem (List.mem_filter.mpr (RowOrder.mem_findManyBy.mp hi))
  · obtain ⟨i, hi, rfl⟩ := List.mem_map.mp ht
    exact ⟨_, List.mem_map_of_mem (RowOrder.mem_findManyBy.mpr (List.mem_filter.mp hi)), le_refl _⟩

theorem le_lastInspection {t : Int} (h : lastInspection db a = some t) {i : ComplianceInspection}
    (hi : i ∈ db.inspections) (hasset : i.assetId = a.id) : i.createdOn ≤ t :=
  (List.max?_eq_some_iff.mp h).2 _
    (List.mem_map_of_mem (List.mem_filter.mpr ⟨hi, decide_eq_true hasset⟩))

theorem lastInspection_eq_none : lastInspection db a = none ↔
    ∀ i ∈ db.inspections, i.assetId ≠ a.id := by
  unfold lastInspection
  rw [List.max?_eq_none_iff, List.map_eq_nil_iff, List.filter_eq_nil_iff]
  simp only [decide_eq_true_eq, Table.mem_rows, ne_eq]

/-- If it is before an instant, it is the latest before it. -/
theorem latestBefore_eq_lastInspection {now : Int}
    (h : ∀ t, lastInspection db a = some t → t < now) :
    latestBefore db a now = lastInspection db a := by
  unfold latestBefore lastInspection
  congr 2
  apply List.filter_congr
  intro i hi
  by_cases hasset : i.assetId = a.id
  · cases hlast : lastInspection db a with
    | none => exact absurd hasset (lastInspection_eq_none.mp hlast i hi)
    | some t => simp [hasset, (le_lastInspection hlast hi hasset).trans_lt (h t hlast)]
  · simp [hasset]

theorem latestBefore_eq_some {now t : Int} (h : latestBefore db a now = some t) :
    t < now ∧ ∃ i ∈ db.inspections, i.assetId = a.id ∧ i.createdOn = t := by
  obtain ⟨i, hi, rfl⟩ := List.mem_map.mp (List.max?_eq_some_iff.mp h).1
  obtain ⟨hi, hbefore⟩ := List.mem_filter.mp hi
  rw [Bool.and_eq_true, decide_eq_true_eq, decide_eq_true_eq] at hbefore
  exact ⟨hbefore.2, i, hi, hbefore.1, rfl⟩

end

/-! ## 5. Each notion in terms of it -/

/-- Within a cycle of its last inspection, or of its creation. -/
theorem isCompliant_iff {db : ComplianceDb} {o : RowOrder ComplianceInspection}
    {client : ComplianceClient} {now : Int} {a : ComplianceAsset} :
    ClientNotificationsProcessor.isCompliant db o client now a = true ↔
      now < ((lastInspection db a).getD a.createdOn) +
        86400000 * a.inspectionCycle.getD client.defaultInspectionCycle := by
  have hlast : (o.findFirstBy latestFirst (·.assetId = a.id) db.inspections.rows).map
      (·.createdOn) = lastInspection db a := map_findFirstBy_latestFirst
  unfold ClientNotificationsProcessor.isCompliant ClientNotificationsProcessor.latestInspections
  rw [List.head?_take, if_neg Nat.one_ne_zero, decide_eq_true_eq, ← hlast]
  rfl

/-- More than a cycle since the last inspection, and a tag. -/
theorem mem_getOverdueAssets {db : ComplianceDb}
    {tags : Table ComplianceTag String ComplianceTag.id} {assetOrder : RowOrder ComplianceAsset}
    {o : RowOrder ComplianceInspection} {now : Int} {clientId : Option String}
    {a : ComplianceAsset} {client : ComplianceClient}
    (hclient : db.clients.find? a.clientId = some client) :
    a ∈ getOverdueAssets db tags assetOrder o now clientId ↔
      a ∈ db.assets ∧ a.active = true ∧ (∀ id ∈ clientId, a.clientId = id) ∧
        (db.sites.find? a.siteId).isSome = true ∧ (a.tagId.bind tags.find?).isSome = true ∧
          ∃ t, lastInspection db a = some t ∧
            t + 86400000 * a.inspectionCycle.getD client.defaultInspectionCycle < now := by
  have hlast : (o.findFirstBy latestFirst (·.assetId = a.id) db.inspections.rows).map
      (·.createdOn) = lastInspection db a := map_findFirstBy_latestFirst
  rw [getOverdueAssets, RowOrder.mem_findMany, hclient, Table.mem_rows]
  apply and_congr_right
  intro _
  cases hsite : db.sites.find? a.siteId with
  | none => simp
  | some site =>
    cases htag : a.tagId.bind tags.find? with
    | none => simp
    | some tag =>
      cases hfirst : o.findFirstBy latestFirst (·.assetId = a.id) db.inspections.rows with
      | none =>
        rw [hfirst, Option.map_none] at hlast
        simp [← hlast]
      | some i =>
        rw [hfirst, Option.map_some] at hlast
        have hcycle (c : Int) :
            i.createdOn < Calendar.addDays now (-c) ↔ i.createdOn + 86400000 * c < now := by
          unfold Calendar.addDays
          omega
        simp only [Bool.and_eq_true, decide_eq_true_eq, hcycle, ← hlast, Option.all_eq_true,
          Option.isSome_some, true_and, Option.some.injEq, exists_eq_left', Option.mem_def]
        exact ⟨fun h => ⟨h.1.2, h.2, h.1.1⟩, fun h => ⟨⟨h.2.2, h.1⟩, h.2.1⟩⟩

section

variable {cal : Calendar} {db : ComplianceDb} {orders : ComplianceOrders}
  {visible : ComplianceClient → Bool} {now : Int} {dto : QueryComplianceHistoryDto}
  {a : ComplianceAsset}

theorem now_mem_endDates (cal : Calendar) (now : Int) (dto : QueryComplianceHistoryDto) :
    now ∈ cal.endDates now ⌈dto.months⌉.toNat := by
  have hround : 1 ≤ ⌈dto.months⌉ := Int.one_le_ceil_iff.mpr (zero_lt_one.trans_le dto.min)
  obtain ⟨n, hn⟩ := Nat.exists_eq_add_of_le (show 1 ≤ ⌈dto.months⌉.toNat by omega)
  rw [hn, Nat.add_comm]
  exact List.mem_cons_self

theorem currentMonth_eq :
    currentMonth cal db orders visible now dto =
      some (.of now
        (fun a => loadedStatus cal (clientDefaultInspectionCycle db orders visible) now
          (merged cal db orders now dto a))
        (countedAssets db orders dto.siteId now)) := by
  have hround : 1 ≤ ⌈dto.months⌉ := Int.one_le_ceil_iff.mpr (zero_lt_one.trans_le dto.min)
  obtain ⟨n, hn⟩ := Nat.exists_eq_add_of_le (show 1 ≤ ⌈dto.months⌉.toNat by omega)
  rw [currentMonth, map_getComplianceHistoryByMonth, hn, Nat.add_comm]
  rfl

/-- The days since an inspection are fewer than the cycle if the cycle is not over. -/
theorem isCompliant_inspectedStatus (hdays : cal.ExactDays) {t cycle : Int} (h : t < now) :
    (inspectedStatus (cal.differenceInDays now t) cycle).isCompliant = true ↔
      now < t + 86400000 * cycle := by
  rw [hdays now t h.le]
  unfold inspectedStatus dueSoonThreshold
  split
  · simp only [ComplianceStatus.isCompliant, true_iff]
    omega
  · split
    · simp only [ComplianceStatus.isCompliant, true_iff]
      omega
    · simp only [ComplianceStatus.isCompliant, Bool.false_eq_true, false_iff]
      omega

/-- What the loop finds is the latest inspection before now. -/
theorem latest_merged_eq_some (ha : a ∈ countedAssets db orders dto.siteId now) {t : Int}
    (h : ((merged cal db orders now dto a).inspections.filter
      (·.createdOn < now)).head?.map (·.createdOn) = some t) :
    latestBefore db a now = some t := by
  by_cases hlost : dto.months = 1 → ¬ InspectedNowAndBefore db now a
  · rw [← latest_merged cal ha (now_mem_endDates cal now dto) hlost, h]
  · -- the inspection at this instant hides the others
    obtain ⟨hmonths, hboth⟩ := Classical.not_imp.mp hlost
    rw [latest_merged_eq_none cal hmonths (not_not.mp hboth)] at h
    exact absurd h (by simp)

theorem isCompliantInHistory_iff (hdays : cal.ExactDays)
    (ha : a ∈ countedAssets db orders dto.siteId now) :
    isCompliantInHistory cal db orders visible now dto a = true ↔
      ∃ t, ((merged cal db orders now dto a).inspections.filter
          (·.createdOn < now)).head?.map (·.createdOn) = some t ∧
        now < t + 86400000 *
          a.inspectionCycle.getD (clientDefaultInspectionCycle db orders visible) := by
  rw [isCompliantInHistory, currentMonth_eq, Option.any_some, decide_eq_true_eq,
    ComplianceStatsRecord.mem_compliant_of, and_iff_right ha]
  unfold loadedStatus
  cases h : ((merged cal db orders now dto a).inspections.filter
      (·.createdOn < now)).head?.map (·.createdOn) with
  | none => simp [statusOf, ComplianceStatus.isCompliant]
  | some t =>
    have hbefore : t < now := (latestBefore_eq_some (latest_merged_eq_some ha h)).1
    show (inspectedStatus _ _).isCompliant = true ↔ _
    rw [isCompliant_inspectedStatus hdays hbefore]
    simp only [Option.some.injEq, exists_eq_left']
    rfl

/-- An asset that is counted is in one of the two. -/
theorem isNonCompliantInHistory_eq (ha : a ∈ countedAssets db orders dto.siteId now) :
    isNonCompliantInHistory cal db orders visible now dto a =
      !isCompliantInHistory cal db orders visible now dto a := by
  rw [isNonCompliantInHistory, isCompliantInHistory, currentMonth_eq, Option.any_some,
    Option.any_some]
  simp only [ComplianceStatsRecord.mem_compliant_of, ComplianceStatsRecord.mem_nonCompliant_of, ha,
    true_and]
  exact Bool.not_eq_eq_eq_not.mp (by simp)

end

/-! ## 6. How they agree -/

section

open ClientNotificationsProcessor

variable {cal : Calendar} {db : ComplianceDb} {tags : Table ComplianceTag String ComplianceTag.id}
  {orders : ComplianceOrders} {visible : ComplianceClient → Bool} {now : Int}
  {dto : QueryComplianceHistoryDto} {clientId : Option String} {client : ComplianceClient}
  {a : ComplianceAsset}

/-- What the history goes by is an inspection, and the last one is not before it. -/
theorem isCompliant_of_isCompliantInHistory (hdays : cal.ExactDays)
    (hcounted : a ∈ countedAssets db orders dto.siteId now)
    (hcycle : a.inspectionCycle.getD (clientDefaultInspectionCycle db orders visible) =
      a.inspectionCycle.getD client.defaultInspectionCycle)
    (h : isCompliantInHistory cal db orders visible now dto a = true) :
    isCompliant db orders.inspections client now a = true := by
  obtain ⟨t, ht, hwithin⟩ := (isCompliantInHistory_iff hdays hcounted).mp h
  obtain ⟨-, i, hi, hasset, rfl⟩ := latestBefore_eq_some (latest_merged_eq_some hcounted ht)
  rw [hcycle] at hwithin
  rw [isCompliant_iff]
  cases hlast : lastInspection db a with
  | none => exact absurd hasset (lastInspection_eq_none.mp hlast i hi)
  | some u =>
    have hle := le_lastInspection hlast hi hasset
    rw [Option.getD_some]
    omega

theorem not_mem_getOverdueAssets (hclient : db.clients.find? a.clientId = some client)
    (h : isCompliant db orders.inspections client now a = true) :
    a ∉ getOverdueAssets db tags orders.assets orders.inspectionsAgain now clientId := by
  intro hoverdue
  obtain ⟨-, -, -, -, -, t, hlast, hover⟩ := (mem_getOverdueAssets hclient).mp hoverdue
  rw [isCompliant_iff, hlast, Option.getD_some] at h
  omega

theorem isCompliantInHistory_eq (hdays : cal.ExactDays)
    (hcounted : a ∈ countedAssets db orders dto.siteId now)
    (hcycle : a.inspectionCycle.getD (clientDefaultInspectionCycle db orders visible) =
      a.inspectionCycle.getD client.defaultInspectionCycle)
    {t : Int} (hlast : lastInspection db a = some t) (hbefore : t < now) :
    isCompliantInHistory cal db orders visible now dto a =
      isCompliant db orders.inspections client now a := by
  have hlatest : latestBefore db a now = some t := by
    rw [latestBefore_eq_lastInspection fun u hu => ?_, hlast]
    rwa [← Option.some.inj (hlast.symm.trans hu)]
  -- there is no inspection at this instant that could hide it
  have hnothing : ¬ InspectedNowAndBefore db now a := by
    rintro ⟨⟨i, hi, hasset, hnow⟩, -⟩
    have hle := le_lastInspection hlast hi hasset
    omega
  rw [Bool.eq_iff_iff, isCompliantInHistory_iff hdays hcounted, isCompliant_iff, hcycle, hlast,
    latest_merged cal hcounted (now_mem_endDates cal now dto) fun _ => hnothing, hlatest,
    Option.getD_some]
  simp only [Option.some.injEq, exists_eq_left']

theorem mem_getOverdueAssets_iff (hclient : db.clients.find? a.clientId = some client)
    (ha : a ∈ db.assets) (hasked : isAsked db dto.siteId a = true)
    (hof : ∀ id ∈ clientId, a.clientId = id) {t : Int} (hlast : lastInspection db a = some t)
    (htag : (a.tagId.bind tags.find?).isSome = true)
    (hover : t + 86400000 * a.inspectionCycle.getD client.defaultInspectionCycle ≠ now) :
    a ∈ getOverdueAssets db tags orders.assets orders.inspectionsAgain now clientId ↔
      isCompliant db orders.inspections client now a = false := by
  rw [isAsked, Bool.and_eq_true, Bool.and_eq_true] at hasked
  have hsite : (db.sites.find? a.siteId).isSome = true := Option.isSome_of_any hasked.2
  rw [mem_getOverdueAssets hclient, ← Bool.not_eq_true, isCompliant_iff, hlast, Option.getD_some]
  constructor
  · rintro ⟨-, -, -, -, -, u, hu, hlater⟩
    rw [← Option.some.inj hu] at hlater
    omega
  · intro hnot
    exact ⟨ha, hasked.1.1, hof, hsite, htag, t, rfl, by omega⟩

theorem isCompliantInHistory_eq_false (hdays : cal.ExactDays)
    (hcounted : a ∈ countedAssets db orders dto.siteId now) (hlast : lastInspection db a = none) :
    isCompliantInHistory cal db orders visible now dto a = false := by
  rw [← Bool.not_eq_true, isCompliantInHistory_iff hdays hcounted]
  rintro ⟨t, ht, -⟩
  obtain ⟨-, i, hi, hasset, -⟩ := latestBefore_eq_some (latest_merged_eq_some hcounted ht)
  exact lastInspection_eq_none.mp hlast i hi hasset

end

open ClientNotificationsProcessor in
/-- **Compliant in the history is compliant in the report, and that is not overdue.** The history
    and the report are one if the latest inspection is before now; the report and the SQL are
    opposites for an inspected asset with a tag, unless its cycle is over at this very instant.
    Without any inspection, the asset is not compliant in the history and not overdue, and it is
    compliant in the report for a cycle after its creation. -/
theorem complianceNotions_agree {cal : Calendar} (hdays : cal.ExactDays) (db : ComplianceDb)
    (tags : Table ComplianceTag String ComplianceTag.id) (orders : ComplianceOrders)
    (visible : ComplianceClient → Bool) (now : Int) (dto : QueryComplianceHistoryDto)
    (clientId : Option String) {client : ComplianceClient} {a : ComplianceAsset}
    (hclient : db.clients.find? a.clientId = some client)
    (ha : a ∈ db.assets) (hasked : isAsked db dto.siteId a = true) (hcreated : a.createdOn ≤ now)
    (hof : ∀ id ∈ clientId, a.clientId = id)
    (hdefault : a.inspectionCycle = none →
      clientDefaultInspectionCycle db orders visible = client.defaultInspectionCycle) :
    (isCompliantInHistory cal db orders visible now dto a = true →
        isCompliant db orders.inspections client now a = true) ∧
      (isCompliant db orders.inspections client now a = true →
        a ∉ getOverdueAssets db tags orders.assets orders.inspectionsAgain now clientId) ∧
      isNonCompliantInHistory cal db orders visible now dto a =
        !isCompliantInHistory cal db orders visible now dto a ∧
      (∀ t, lastInspection db a = some t → t < now →
        isCompliantInHistory cal db orders visible now dto a =
          isCompliant db orders.inspections client now a) ∧
      (∀ t, lastInspection db a = some t → (a.tagId.bind tags.find?).isSome = true →
        t + 86400000 * a.inspectionCycle.getD client.defaultInspectionCycle ≠ now →
        (a ∈ getOverdueAssets db tags orders.assets orders.inspectionsAgain now clientId ↔
          isCompliant db orders.inspections client now a = false)) ∧
      (lastInspection db a = none →
        isCompliantInHistory cal db orders visible now dto a = false ∧
        a ∉ getOverdueAssets db tags orders.assets orders.inspectionsAgain now clientId ∧
        (isCompliant db orders.inspections client now a = true ↔
          now < a.createdOn +
            86400000 * a.inspectionCycle.getD client.defaultInspectionCycle)) := by
  have hcounted : a ∈ countedAssets db orders dto.siteId now :=
    List.mem_filter.mpr ⟨RowOrder.mem_findMany.mpr ⟨ha, hasked⟩, decide_eq_true hcreated⟩
  have hcycle : a.inspectionCycle.getD (clientDefaultInspectionCycle db orders visible) =
      a.inspectionCycle.getD client.defaultInspectionCycle := by
    cases hown : a.inspectionCycle with
    | none => exact hdefault hown
    | some cycle => rfl
  refine ⟨isCompliant_of_isCompliantInHistory hdays hcounted hcycle,
    not_mem_getOverdueAssets hclient, isNonCompliantInHistory_eq hcounted,
    fun t hlast hbefore => isCompliantInHistory_eq hdays hcounted hcycle hlast hbefore,
    fun t hlast htag hover => mem_getOverdueAssets_iff hclient ha hasked hof hlast htag hover,
    fun hlast => ⟨isCompliantInHistory_eq_false hdays hcounted hlast, fun hoverdue => ?_, ?_⟩⟩
  · obtain ⟨-, -, -, -, -, t, ht, -⟩ := (mem_getOverdueAssets hclient).mp hoverdue
    exact absurd (hlast.symm.trans ht) (by simp)
  · rw [isCompliant_iff, hlast, Option.getD_none]

/-! ## 7. Five assets on the sixtieth day -/

/-- One is a day old; the others were inspected now, 30, 50 and 60 days ago, the last one without a
    tag. All cycles are of 30 days. -/
def fiveAssets : ComplianceDb where
  clients := ⟨[{ id := "owner" }], by decide⟩
  sites := ⟨[{ id := "place" }], by decide⟩
  assets := ⟨[
    { id := "new", createdOn := 59 * 86400000, siteId := "place", clientId := "owner" },
    { id := "now", createdOn := 0, siteId := "place", clientId := "owner" },
    { id := "thirty", createdOn := 0, siteId := "place", clientId := "owner", tagId := some "tag" },
    { id := "fifty", createdOn := 0, siteId := "place", clientId := "owner",
      tagId := some "other" },
    { id := "sixty", createdOn := 0, siteId := "place", clientId := "owner" }], by decide⟩
  inspections := ⟨[
    { id := "i", createdOn := 60 * 86400000, assetId := "now" },
    { id := "j", createdOn := 30 * 86400000, assetId := "thirty" },
    { id := "k", createdOn := 10 * 86400000, assetId := "fifty" },
    { id := "l", createdOn := 0, assetId := "sixty" }], by decide⟩
  clientOf := by decide

def fiveAssetsTags : Table ComplianceTag String ComplianceTag.id :=
  ⟨[{ id := "tag" }, { id := "other" }], by decide⟩

/-- Whether an asset is compliant in the report, whether in the history, and whether it is
    overdue. -/
def answers (a : ComplianceAsset) : Bool × Bool × Bool :=
  let now := 60 * 86400000
  (ClientNotificationsProcessor.isCompliant fiveAssets (.insertion _) { id := "owner" } now a,
    isCompliantInHistory .alternating fiveAssets {} (fun _ => true) now { months := 1 } a,
    a ∈ getOverdueAssets fiveAssets fiveAssetsTags (.insertion _) (.insertion _) now none)

/-- The new asset and the one inspected now are compliant in the report only. The one whose cycle is
    just over and the one without a tag are neither compliant nor overdue. -/
theorem threeAnswers_differ :
    fiveAssets.assets.rows.map answers =
      [(true, false, false), (true, false, false), (false, false, false), (false, false, true),
        (false, false, false)] := by
  decide

def fiftyDays : ComplianceAsset where
  id := "fifty"
  createdOn := 0
  siteId := "place"
  clientId := "owner"
  tagId := some "other"

/-- With an inspection fifty days ago, the asset is neither compliant in the history nor in the
    report. -/
theorem fiftyDays_agree :
    lastInspection fiveAssets fiftyDays = some (10 * 86400000) ∧
      isCompliantInHistory .alternating fiveAssets {} (fun _ => true) (60 * 86400000)
          { months := 1 } fiftyDays =
        ClientNotificationsProcessor.isCompliant fiveAssets (.insertion _) { id := "owner" }
          (60 * 86400000) fiftyDays := by
  have hlast : lastInspection fiveAssets fiftyDays = some (10 * 86400000) := by decide
  refine ⟨hlast, ?_⟩
  exact (complianceNotions_agree Calendar.exactDays_alternating fiveAssets fiveAssetsTags {}
    (fun _ => true) (60 * 86400000) { months := 1 } none (by decide) (by decide) (by decide)
    (by decide) (by decide) fun _ => by decide).2.2.2.1 _ hlast (by decide)

end ShieldApi
