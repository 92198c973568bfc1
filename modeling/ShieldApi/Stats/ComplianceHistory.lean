import ShieldApi.Lib.Calendar
import ShieldApi.Lib.Table

/-!
# The history of compliance, month by month

`StatsService.getComplianceHistoryByMonth`. The assets are loaded twice: with the latest inspection
up to a cutoff, and with all inspections from there. Each month's record then sorts the assets into
four buckets by the latest inspection before its end. The naive computation looks at all
inspections, and at the default cycle of the asset's own client.

The cutoff is well chosen for more than one month: it is before every end date, so nothing is lost
between the two queries (`latest_merge`). **For one month it is the end date itself, and an
inspection at that very instant is the latest up to the cutoff and not before the end**, so that an
earlier one is lost. And **the default cycle is that of the first client the caller sees**. The
history is the naive one exactly where neither makes a difference (`complianceHistory_eq_iff`).
-/

set_option autoImplicit false

namespace ShieldApi

/-! ## 1. Rows -/

structure ComplianceClient where
  id : String
  defaultInspectionCycle : Int := 30
  deriving DecidableEq, Repr

structure ComplianceSite where
  id : String
  active : Bool := true
  deriving DecidableEq, Repr

structure ComplianceAsset where
  id : String
  createdOn : Int
  active : Bool := true
  siteId : String
  clientId : String
  /-- In days. -/
  inspectionCycle : Option Int := none
  tagId : Option String := none
  deriving DecidableEq, Repr

structure ComplianceInspection where
  id : String
  createdOn : Int
  assetId : String
  deriving DecidableEq, Repr

/-- The tables. Sites, assets and inspections are those the caller sees. -/
structure ComplianceDb where
  clients : Table ComplianceClient String ComplianceClient.id := ∅
  sites : Table ComplianceSite String ComplianceSite.id := ∅
  assets : Table ComplianceAsset String ComplianceAsset.id := ∅
  inspections : Table ComplianceInspection String ComplianceInspection.id := ∅
  /-- `Asset_clientId_fkey`. -/
  clientOf : ∀ a ∈ assets, (clients.find? a.clientId).isSome = true

/-- The orders in which the queries come back where nobody asked for one. -/
structure ComplianceOrders where
  clients : RowOrder ComplianceClient := .insertion _
  assets : RowOrder ComplianceAsset := .insertion _
  assetsAgain : RowOrder ComplianceAsset := .insertion _
  inspections : RowOrder ComplianceInspection := .insertion _
  inspectionsAgain : RowOrder ComplianceInspection := .insertion _

/-- What the schema lets pass. A number of months need not be whole. -/
structure QueryComplianceHistoryDto where
  months : Rat
  siteId : Option String := none
  min : 1 ≤ months := by decide
  max : months ≤ 12 := by decide

/-! ## 2. Records -/

inductive ComplianceStatus
  | compliantDueLater | compliantDueSoon | nonCompliantInspected | nonCompliantNeverInspected
  deriving DecidableEq, Repr

def ComplianceStatus.isCompliant : ComplianceStatus → Bool
  | .compliantDueLater | .compliantDueSoon => true
  | .nonCompliantInspected | .nonCompliantNeverInspected => false

/-- `ComplianceStatsRecord`, of assets as `α` has them. -/
structure ComplianceStatsRecord (α : Type) where
  endDate : Int
  compliantDueLater : List α := []
  compliantDueSoon : List α := []
  nonCompliantInspected : List α := []
  nonCompliantNeverInspected : List α := []
  totalAssets : Nat := 0
  totalCompliant : Nat := 0
  totalNonCompliant : Nat := 0

/-- An asset with the inspections that were loaded for it, the latest first. -/
structure LoadedAsset where
  asset : ComplianceAsset
  inspections : List ComplianceInspection

namespace ComplianceStatsRecord

variable {α : Type}

/-- One asset more, in its bucket and in the totals. -/
def add (r : ComplianceStatsRecord α) (status : ComplianceStatus) (a : α) :
    ComplianceStatsRecord α :=
  match status with
  | .compliantDueLater =>
    { r with
      compliantDueLater := r.compliantDueLater ++ [a]
      totalAssets := r.totalAssets + 1
      totalCompliant := r.totalCompliant + 1 }
  | .compliantDueSoon =>
    { r with
      compliantDueSoon := r.compliantDueSoon ++ [a]
      totalAssets := r.totalAssets + 1
      totalCompliant := r.totalCompliant + 1 }
  | .nonCompliantInspected =>
    { r with
      nonCompliantInspected := r.nonCompliantInspected ++ [a]
      totalAssets := r.totalAssets + 1
      totalNonCompliant := r.totalNonCompliant + 1 }
  | .nonCompliantNeverInspected =>
    { r with
      nonCompliantNeverInspected := r.nonCompliantNeverInspected ++ [a]
      totalAssets := r.totalAssets + 1
      totalNonCompliant := r.totalNonCompliant + 1 }

/-- The record of assets whose status is known. -/
def of (endDate : Int) (status : α → ComplianceStatus) (assets : List α) :
    ComplianceStatsRecord α where
  endDate
  compliantDueLater := assets.filter (status · = .compliantDueLater)
  compliantDueSoon := assets.filter (status · = .compliantDueSoon)
  nonCompliantInspected := assets.filter (status · = .nonCompliantInspected)
  nonCompliantNeverInspected := assets.filter (status · = .nonCompliantNeverInspected)
  totalAssets := assets.length
  totalCompliant := assets.countP fun a => (status a).isCompliant
  totalNonCompliant := assets.countP fun a => !(status a).isCompliant

def map {β : Type} (f : α → β) (r : ComplianceStatsRecord α) : ComplianceStatsRecord β where
  endDate := r.endDate
  compliantDueLater := r.compliantDueLater.map f
  compliantDueSoon := r.compliantDueSoon.map f
  nonCompliantInspected := r.nonCompliantInspected.map f
  nonCompliantNeverInspected := r.nonCompliantNeverInspected.map f
  totalAssets := r.totalAssets
  totalCompliant := r.totalCompliant
  totalNonCompliant := r.totalNonCompliant

end ComplianceStatsRecord

/-! ## 3. `getComplianceHistoryByMonth` -/

def dueSoonThreshold (inspectionCycle : Int) : Int :=
  max (inspectionCycle - 7) (inspectionCycle / 2)

/-- By the days since the inspection. -/
def inspectedStatus (daysSinceInspection inspectionCycle : Int) : ComplianceStatus :=
  if daysSinceInspection < dueSoonThreshold inspectionCycle then .compliantDueLater
  else if daysSinceInspection < inspectionCycle then .compliantDueSoon
  else .nonCompliantInspected

/-- `latest` is when the asset was last inspected. -/
def statusOf (cal : Calendar) (endDate inspectionCycle : Int) (latest : Option Int) :
    ComplianceStatus :=
  match latest with
  | none => .nonCompliantNeverInspected
  | some createdOn => inspectedStatus (cal.differenceInDays endDate createdOn) inspectionCycle

namespace StatsService

variable (cal : Calendar) (db : ComplianceDb) (orders : ComplianceOrders)

/-- Active, at the site that was asked for, and that site is active. -/
def isAsked (siteId : Option String) (a : ComplianceAsset) : Bool :=
  a.active && siteId.all (a.siteId = ·) && (db.sites.find? a.siteId).any (·.active)

/-- `createdOn: 'desc'`. -/
def latestFirst (i j : ComplianceInspection) : Bool := j.createdOn ≤ i.createdOn

/-- An asset with `latestOnlyBeforeCutoff`. -/
def loadBefore (cutoff : Int) (a : ComplianceAsset) : LoadedAsset where
  asset := a
  inspections := (orders.inspections.findManyBy latestFirst
    (fun i => i.assetId = a.id && i.createdOn ≤ cutoff) db.inspections.rows).take 1

/-- And without. -/
def loadFrom (cutoff : Int) (a : ComplianceAsset) : LoadedAsset where
  asset := a
  inspections := orders.inspectionsAgain.findManyBy latestFirst
    (fun i => i.assetId = a.id && cutoff ≤ i.createdOn) db.inspections.rows

def getAssetInspectionsBefore (siteId : Option String) (cutoff : Int) : List LoadedAsset :=
  (orders.assets.findMany (isAsked db siteId) db.assets.rows).map (loadBefore db orders cutoff)

def getAssetInspectionsFrom (siteId : Option String) (cutoff : Int) : List LoadedAsset :=
  (orders.assetsAgain.findMany (isAsked db siteId) db.assets.rows).map (loadFrom db orders cutoff)

/-- The inspections of both queries, once each. -/
def merge (byDate : List LoadedAsset) (a : LoadedAsset) : LoadedAsset :=
  let latestBeforeCutoff := a.inspections.head?
  let inspectionsAfterCutoff :=
    match byDate.find? (·.asset.id = a.asset.id) with
    | some b => b.inspections.filter fun i => latestBeforeCutoff.all (i.id ≠ ·.id)
    | none => []
  { a with inspections := inspectionsAfterCutoff ++ latestBeforeCutoff.toList }

/-- One round of the loop over the assets. -/
def addAsset (clientDefaultInspectionCycle endDate : Int) (r : ComplianceStatsRecord LoadedAsset)
    (a : LoadedAsset) : ComplianceStatsRecord LoadedAsset :=
  if endDate < a.asset.createdOn then r
  else
    let latestInspection := (a.inspections.filter (·.createdOn < endDate)).head?
    r.add (statusOf cal endDate (a.asset.inspectionCycle.getD clientDefaultInspectionCycle)
      (latestInspection.map (·.createdOn))) a

/-- `visible` are the clients the caller sees. -/
def clientDefaultInspectionCycle (visible : ComplianceClient → Bool) : Int :=
  ((orders.clients.findFirst visible db.clients.rows).map (·.defaultInspectionCycle)).getD 30

def xMonthsAgo (now : Int) (months : Rat) : Int :=
  if months = 1 then now else cal.cutoff now months

def assetsInspectionsByDate (now : Int) (dto : QueryComplianceHistoryDto) : List LoadedAsset :=
  if 1 < dto.months then
    getAssetInspectionsFrom db orders dto.siteId (xMonthsAgo cal now dto.months)
  else []

/-- The clock stands still meanwhile. -/
def getComplianceHistoryByMonth (visible : ComplianceClient → Bool) (now : Int)
    (dto : QueryComplianceHistoryDto) : List (ComplianceStatsRecord LoadedAsset) :=
  let assetsLatestInspections :=
    getAssetInspectionsBefore db orders dto.siteId (xMonthsAgo cal now dto.months)
  let mergedAssetInspections :=
    assetsLatestInspections.map (merge (assetsInspectionsByDate cal db orders now dto))
  -- a fraction of a month is one more round
  (cal.endDates now ⌈dto.months⌉.toNat).map fun endDate =>
    mergedAssetInspections.foldl
      (addAsset cal (clientDefaultInspectionCycle db orders visible) endDate) { endDate }

/-! ## 4. The naive computation -/

/-- The latest inspection of an asset before an instant, of all there are. -/
def latestBefore (a : ComplianceAsset) (t : Int) : Option Int :=
  ((db.inspections.rows.filter fun i => i.assetId = a.id && i.createdOn < t).map (·.createdOn)).max?

/-- The cycle of the asset, or the default of its own client. -/
def ownCycle (a : ComplianceAsset) : Int :=
  a.inspectionCycle.getD
    (((db.clients.find? a.clientId).map (·.defaultInspectionCycle)).getD 30)

def naiveStatus (endDate : Int) (a : ComplianceAsset) : ComplianceStatus :=
  statusOf cal endDate (ownCycle db a) (latestBefore db a endDate)

/-- The assets that are counted at a date. -/
def countedAssets (siteId : Option String) (endDate : Int) : List ComplianceAsset :=
  (orders.assets.findMany (isAsked db siteId) db.assets.rows).filter (·.createdOn ≤ endDate)

def naiveHistory (now : Int) (dto : QueryComplianceHistoryDto) :
    List (ComplianceStatsRecord ComplianceAsset) :=
  (cal.endDates now ⌈dto.months⌉.toNat).map fun endDate =>
    .of endDate (naiveStatus cal db endDate) (countedAssets db orders dto.siteId endDate)

end StatsService

/-! ## 5. A record is one of known statuses -/

namespace ComplianceStatsRecord

variable {α : Type} {β : Type} (endDate : Int)

theorem of_add (status : α → ComplianceStatus) (assets : List α) (a : α) :
    (of endDate status assets).add (status a) a = of endDate status (assets ++ [a]) := by
  cases h : status a with
  | compliantDueLater => simp [of, add, h, ComplianceStatus.isCompliant]
  | compliantDueSoon => simp [of, add, h, ComplianceStatus.isCompliant]
  | nonCompliantInspected => simp [of, add, h, ComplianceStatus.isCompliant]
  | nonCompliantNeverInspected => simp [of, add, h, ComplianceStatus.isCompliant]

theorem map_of {f : β → α} {g : α → β} (hfg : ∀ b, g (f b) = b) (status : α → ComplianceStatus)
    (assets : List β) :
    (of endDate status (assets.map f)).map g = of endDate (fun b => status (f b)) assets := by
  have hid : g ∘ f = id := funext hfg
  simp only [of, map, List.filter_map, List.map_map, hid, List.map_id, List.length_map,
    List.countP_map]
  rfl

/-- Two records of the same assets are the same where every asset has the same status. -/
theorem of_eq_iff {status status' : α → ComplianceStatus} {assets : List α} :
    of endDate status assets = of endDate status' assets ↔
      ∀ a ∈ assets, status a = status' a := by
  constructor
  · intro h a ha
    -- the asset is in its bucket, and so in that of the other record
    cases hs : status a with
    | compliantDueLater =>
      have hmem : a ∈ (of endDate status assets).compliantDueLater := by simp [of, ha, hs]
      rw [h] at hmem
      exact (of_decide_eq_true (List.mem_filter.mp hmem).2).symm
    | compliantDueSoon =>
      have hmem : a ∈ (of endDate status assets).compliantDueSoon := by simp [of, ha, hs]
      rw [h] at hmem
      exact (of_decide_eq_true (List.mem_filter.mp hmem).2).symm
    | nonCompliantInspected =>
      have hmem : a ∈ (of endDate status assets).nonCompliantInspected := by simp [of, ha, hs]
      rw [h] at hmem
      exact (of_decide_eq_true (List.mem_filter.mp hmem).2).symm
    | nonCompliantNeverInspected =>
      have hmem : a ∈ (of endDate status assets).nonCompliantNeverInspected := by
        simp [of, ha, hs]
      rw [h] at hmem
      exact (of_decide_eq_true (List.mem_filter.mp hmem).2).symm
  · intro h
    have hfilter (s : ComplianceStatus) :
        assets.filter (status · = s) = assets.filter (status' · = s) :=
      List.filter_congr fun a ha => by rw [h a ha]
    have hcompliant : assets.countP (fun a => (status a).isCompliant) =
        assets.countP fun a => (status' a).isCompliant :=
      List.countP_congr fun a ha => by rw [h a ha]
    have hnot : assets.countP (fun a => !(status a).isCompliant) =
        assets.countP fun a => !(status' a).isCompliant :=
      List.countP_congr fun a ha => by rw [h a ha]
    simp only [of, hfilter, hcompliant, hnot]

/-- The assets of the four buckets. -/
def assets (r : ComplianceStatsRecord α) : List α :=
  r.compliantDueLater ++ r.compliantDueSoon ++ r.nonCompliantInspected ++
    r.nonCompliantNeverInspected

/-- Every asset is in one bucket. -/
theorem assets_of_perm (status : α → ComplianceStatus) (as : List α) :
    (of endDate status as).assets.Perm as := by
  induction as with
  | nil => exact .refl _
  | cons a as ih =>
    have hinsert (l l' : List α) (h : (l ++ l').Perm as) : (l ++ a :: l').Perm (a :: as) :=
      List.perm_middle.trans (h.cons a)
    simp only [assets, of, List.append_assoc] at ih ⊢
    cases h : status a with
    | compliantDueLater => simpa [h] using hinsert [] _ ih
    | compliantDueSoon => simpa [h] using hinsert _ _ ih
    | nonCompliantInspected =>
      rw [← List.append_assoc] at ih
      simpa [h] using hinsert _ _ ih
    | nonCompliantNeverInspected =>
      rw [← List.append_assoc, ← List.append_assoc] at ih
      simpa [h] using hinsert _ _ ih

theorem totals_of (status : α → ComplianceStatus) (as : List α) :
    (of endDate status as).totalCompliant + (of endDate status as).totalNonCompliant =
      (of endDate status as).totalAssets := by
  have hsplit := List.length_eq_countP_add_countP (fun a => (status a).isCompliant) (l := as)
  simpa [of] using hsplit.symm

end ComplianceStatsRecord

/-! ## 6. The latest inspection -/

theorem head?_eq_max? {l : List Int} (h : l.Pairwise fun t u => u ≤ t) : l.head? = l.max? := by
  cases l with
  | nil => rfl
  | cons t l =>
    refine (List.max?_eq_some_iff.mpr ⟨List.mem_cons_self, fun u hu => ?_⟩).symm
    rcases List.mem_cons.mp hu with rfl | hu
    · exact le_refl _
    · exact (List.pairwise_cons.mp h).1 u hu

/-- A part has the same maximum if it has something as great for whatever else there is. -/
theorem max?_eq_of_dominating {l l' : List Int} (hsub : ∀ t ∈ l, t ∈ l')
    (hdom : ∀ t ∈ l', ∃ u ∈ l, t ≤ u) : l.max? = l'.max? := by
  cases hmax : l'.max? with
  | none =>
    rw [List.max?_eq_none_iff] at hmax ⊢
    exact List.eq_nil_iff_forall_not_mem.mpr fun t ht => by simpa [hmax] using hsub t ht
  | some t =>
    obtain ⟨ht, hall⟩ := List.max?_eq_some_iff.mp hmax
    obtain ⟨u, hu, htu⟩ := hdom t ht
    have heq : u = t := le_antisymm (hall u (hsub u hu)) htu
    exact List.max?_eq_some_iff.mpr ⟨heq ▸ hu, fun v hv => hall v (hsub v hv)⟩

namespace StatsService

variable (cal : Calendar) (db : ComplianceDb) (orders : ComplianceOrders)

theorem pairwise_findManyBy (o : RowOrder ComplianceInspection)
    (p : ComplianceInspection → Bool) (rows : List ComplianceInspection) :
    (o.findManyBy latestFirst p rows).Pairwise fun i j => j.createdOn ≤ i.createdOn := by
  have hdown : (o.findManyBy latestFirst p rows).Pairwise fun i j => latestFirst i j = true :=
    RowOrder.pairwise_findManyBy
      (fun i j k hij hjk => decide_eq_true ((of_decide_eq_true hjk).trans (of_decide_eq_true hij)))
      (fun i j => (le_total j.createdOn i.createdOn).imp decide_eq_true decide_eq_true) _ _
  exact hdown.imp of_decide_eq_true

/-- Inspections of an asset that go down and leave out none that would come first. -/
theorem latest_eq {l : List ComplianceInspection} {a : ComplianceAsset} {t : Int}
    (hdown : l.Pairwise fun i j => j.createdOn ≤ i.createdOn)
    (hof : ∀ i ∈ l, i ∈ db.inspections ∧ i.assetId = a.id)
    (hall : ∀ i ∈ db.inspections, i.assetId = a.id → i.createdOn < t →
      ∃ j ∈ l, i.createdOn ≤ j.createdOn ∧ j.createdOn < t) :
    (l.filter (·.createdOn < t)).head?.map (·.createdOn) = latestBefore db a t := by
  rw [← List.head?_map, head?_eq_max? ((List.pairwise_map).mpr (hdown.filter _))]
  refine max?_eq_of_dominating (fun u hu => ?_) fun u hu => ?_
  · obtain ⟨i, hi, rfl⟩ := List.mem_map.mp hu
    obtain ⟨hi, hbefore⟩ := List.mem_filter.mp hi
    obtain ⟨hmem, hasset⟩ := hof i hi
    exact List.mem_map_of_mem (List.mem_filter.mpr ⟨hmem, by simpa [hasset] using hbefore⟩)
  · obtain ⟨i, hi, rfl⟩ := List.mem_map.mp hu
    obtain ⟨hmem, hi⟩ := List.mem_filter.mp hi
    rw [Bool.and_eq_true, decide_eq_true_eq, decide_eq_true_eq] at hi
    obtain ⟨j, hj, hle, hbefore⟩ := hall i hmem hi.1 hi.2
    exact ⟨_, List.mem_map_of_mem (List.mem_filter.mpr ⟨hj, decide_eq_true hbefore⟩), hle⟩

variable {db orders} {siteId : Option String} {a : ComplianceAsset} {cutoff t : Int}

theorem mem_loadFrom {i : ComplianceInspection} :
    i ∈ (loadFrom db orders cutoff a).inspections ↔
      i ∈ db.inspections ∧ i.assetId = a.id ∧ cutoff ≤ i.createdOn := by
  unfold loadFrom
  rw [RowOrder.mem_findManyBy, Table.mem_rows, Bool.and_eq_true, decide_eq_true_eq,
    decide_eq_true_eq]

theorem head?_loadBefore_eq_none (h : (loadBefore db orders cutoff a).inspections.head? = none) :
    ∀ i ∈ db.inspections, i.assetId = a.id → cutoff < i.createdOn := by
  intro i hi hasset
  rw [loadBefore, List.head?_take, if_neg Nat.one_ne_zero] at h
  have hnot := RowOrder.findFirstBy_eq_none.mp h i hi
  by_contra hle
  simp [hasset, not_lt.mp hle] at hnot

theorem head?_loadBefore_eq_some {i : ComplianceInspection}
    (h : (loadBefore db orders cutoff a).inspections.head? = some i) :
    (i ∈ db.inspections ∧ i.assetId = a.id ∧ i.createdOn ≤ cutoff) ∧
      ∀ j ∈ db.inspections, j.assetId = a.id → j.createdOn ≤ cutoff →
        j.createdOn ≤ i.createdOn := by
  rw [loadBefore, List.head?_take, if_neg Nat.one_ne_zero] at h
  refine ⟨?_, fun j hj hasset hle => ?_⟩
  · have hmem := RowOrder.findFirstBy_mem h
    rwa [Table.mem_rows, Bool.and_eq_true, decide_eq_true_eq, decide_eq_true_eq] at hmem
  · -- the row is among those that were sorted, and the first one of them is `i`
    have hmem : j ∈ orders.inspections.findManyBy latestFirst
        (fun i => i.assetId = a.id && i.createdOn ≤ cutoff) db.inspections.rows :=
      RowOrder.mem_findManyBy.mpr ⟨hj, by simp [hasset, hle]⟩
    have hdown := pairwise_findManyBy orders.inspections
      (fun i => i.assetId = a.id && i.createdOn ≤ cutoff) db.inspections.rows
    obtain ⟨rest, hrest⟩ := List.head?_eq_some_iff.mp h
    rw [hrest] at hmem hdown
    rcases List.mem_cons.mp hmem with rfl | hmem
    · exact le_refl _
    · exact (List.pairwise_cons.mp hdown).1 j hmem

theorem inspections_merge {byDate : List LoadedAsset} {c b : LoadedAsset}
    (h : byDate.find? (·.asset.id = c.asset.id) = some b) :
    (merge byDate c).inspections =
      b.inspections.filter (fun i => c.inspections.head?.all (i.id ≠ ·.id)) ++
        c.inspections.head?.toList := by
  simp only [merge, h]

/-- The asset is found again. -/
theorem find?_getAssetInspectionsFrom (ha : a ∈ db.assets) (hasked : isAsked db siteId a = true) :
    (getAssetInspectionsFrom db orders siteId cutoff).find? (·.asset.id = a.id) =
      some (loadFrom db orders cutoff a) := by
  rw [getAssetInspectionsFrom, List.find?_map]
  cases hfind : (orders.assetsAgain.findMany (isAsked db siteId) db.assets.rows).find?
      ((fun b : LoadedAsset => decide (b.asset.id = a.id)) ∘ loadFrom db orders cutoff) with
  | none =>
    have hno := List.find?_eq_none.mp hfind a (RowOrder.mem_findMany.mpr ⟨ha, hasked⟩)
    exact absurd (by simp [loadFrom]) hno
  | some b =>
    have hid := List.find?_some hfind
    rw [Function.comp_apply, decide_eq_true_eq] at hid
    have hb : b ∈ db.assets := (RowOrder.mem_findMany.mp (List.mem_of_find?_eq_some hfind)).1
    rw [Option.map_some, Table.eq_of_key_eq hb ha hid]

/-- **Nothing is lost between the two queries**, before a date after the cutoff. -/
theorem latest_merge (ha : a ∈ db.assets) (hasked : isAsked db siteId a = true)
    (ht : cutoff < t) :
    ((merge (getAssetInspectionsFrom db orders siteId cutoff)
        (loadBefore db orders cutoff a)).inspections.filter
          (·.createdOn < t)).head?.map (·.createdOn) = latestBefore db a t := by
  have hdown := pairwise_findManyBy orders.inspectionsAgain
    (fun i => i.assetId = a.id && cutoff ≤ i.createdOn) db.inspections.rows
  rw [inspections_merge (b := loadFrom db orders cutoff a)
    (find?_getAssetInspectionsFrom ha hasked)]
  cases hhead : (loadBefore db orders cutoff a).inspections.head? with
  | none =>
    -- every inspection is after the cutoff
    have hafter := head?_loadBefore_eq_none hhead
    refine latest_eq db ?_ (fun i hi => ?_) fun i hi hasset hbefore => ?_
    · simpa [loadFrom] using hdown
    · obtain ⟨hi, hasset, -⟩ := mem_loadFrom.mp (by simpa using hi)
      exact ⟨hi, hasset⟩
    · exact ⟨i, by simpa using mem_loadFrom.mpr ⟨hi, hasset, (hafter i hi hasset).le⟩, le_refl _,
        hbefore⟩
  | some first =>
    obtain ⟨⟨hfirst, hfirstAsset, hfirstBefore⟩, hmax⟩ := head?_loadBefore_eq_some hhead
    refine latest_eq db ?_ (fun i hi => ?_) fun i hi hasset hbefore => ?_
    · refine List.pairwise_append.mpr ⟨(show List.Pairwise _ _ from hdown).filter _,
        List.pairwise_singleton _ _, fun i hi j hj => ?_⟩
      obtain ⟨-, -, hi⟩ := mem_loadFrom.mp (List.mem_of_mem_filter hi)
      rw [List.mem_singleton.mp hj]
      exact hfirstBefore.trans hi
    · rcases List.mem_append.mp hi with hi | hi
      · obtain ⟨hi, hasset, -⟩ := mem_loadFrom.mp (List.mem_of_mem_filter hi)
        exact ⟨hi, hasset⟩
      · rw [List.mem_singleton.mp hi]
        exact ⟨hfirst, hfirstAsset⟩
    · by_cases hcutoff : i.createdOn ≤ cutoff
      · exact ⟨first, List.mem_append_right _ (List.mem_singleton_self _),
          hmax i hi hasset hcutoff, hfirstBefore.trans_lt ht⟩
      · -- it is not the one of the first query, which is up to the cutoff
        have hne : i.id ≠ first.id := fun hid =>
          hcutoff (Table.eq_of_key_eq hi hfirst hid ▸ hfirstBefore)
        refine ⟨i, List.mem_append_left _ (List.mem_filter.mpr
          ⟨mem_loadFrom.mpr ⟨hi, hasset, (not_le.mp hcutoff).le⟩, ?_⟩), le_refl _, hbefore⟩
        simpa using hne

/-- For one month the second query is not made. -/
theorem latest_merge_nil (h : ∀ i ∈ db.inspections, i.assetId = a.id → i.createdOn ≠ t) :
    ((merge [] (loadBefore db orders t a)).inspections.filter
      (·.createdOn < t)).head?.map (·.createdOn) = latestBefore db a t := by
  refine latest_eq db ?_ (fun i hi => ?_) fun i hi hasset hbefore => ?_
  · cases hhead : (loadBefore db orders t a).inspections.head? with
    | none => simp [merge, hhead]
    | some first => simp [merge, hhead]
  · have hhead : (loadBefore db orders t a).inspections.head? = some i := by
      simpa [merge] using hi
    obtain ⟨⟨hi, hasset, -⟩, -⟩ := head?_loadBefore_eq_some hhead
    exact ⟨hi, hasset⟩
  · cases hhead : (loadBefore db orders t a).inspections.head? with
    | none => exact absurd hbefore (not_lt.mpr (head?_loadBefore_eq_none hhead i hi hasset).le)
    | some first =>
      obtain ⟨⟨hfirst, hfirstAsset, hle⟩, hmax⟩ := head?_loadBefore_eq_some hhead
      exact ⟨first, by simp [merge, hhead], hmax i hi hasset hbefore.le,
        lt_of_le_of_ne hle (h first hfirst hfirstAsset)⟩

/-- An inspection at the instant itself is all that is loaded. -/
theorem latest_merge_nil_of_now {i : ComplianceInspection} (hi : i ∈ db.inspections)
    (hasset : i.assetId = a.id) (hnow : i.createdOn = t) :
    ((merge [] (loadBefore db orders t a)).inspections.filter
      (·.createdOn < t)).head?.map (·.createdOn) = none := by
  cases hhead : (loadBefore db orders t a).inspections.head? with
  | none => exact absurd hnow.le (not_le.mpr (head?_loadBefore_eq_none hhead i hi hasset))
  | some first =>
    obtain ⟨-, hmax⟩ := head?_loadBefore_eq_some hhead
    have hle := hmax i hi hasset hnow.le
    have hnot : ¬ first.createdOn < t := not_lt.mpr (hnow ▸ hle)
    simp [merge, hhead, hnot]

end StatsService

/-! ## 7. The history is the naive one -/

/-- Both cycles put the days before, or both after, what is due soon, and what is due. -/
def SameDeadlines (days cycle cycle' : Int) : Prop :=
  (days < dueSoonThreshold cycle ↔ days < dueSoonThreshold cycle') ∧
    (dueSoonThreshold cycle ≤ days → (days < cycle ↔ days < cycle'))

theorem inspectedStatus_eq_iff (days cycle cycle' : Int) :
    inspectedStatus days cycle = inspectedStatus days cycle' ↔ SameDeadlines days cycle cycle' := by
  unfold inspectedStatus SameDeadlines
  by_cases hsoon : days < dueSoonThreshold cycle
  · by_cases hsoon' : days < dueSoonThreshold cycle'
    · simp [hsoon, hsoon']
    · by_cases hdue' : days < cycle' <;> simp [hsoon, hsoon', hdue']
  · by_cases hsoon' : days < dueSoonThreshold cycle'
    · by_cases hdue : days < cycle <;> simp [hsoon, hsoon', hdue]
    · by_cases hdue : days < cycle <;> by_cases hdue' : days < cycle' <;>
        simp [hsoon, hsoon', hdue, hdue', not_lt.mp hsoon]

namespace StatsService

variable (cal : Calendar) (db : ComplianceDb) (orders : ComplianceOrders)

/-- The status a loaded asset is counted with. -/
def loadedStatus (cycle endDate : Int) (c : LoadedAsset) : ComplianceStatus :=
  statusOf cal endDate (c.asset.inspectionCycle.getD cycle)
    ((c.inspections.filter (·.createdOn < endDate)).head?.map (·.createdOn))

/-- The loop over the assets. -/
theorem foldl_addAsset (cycle endDate : Int) (counted as : List LoadedAsset) :
    as.foldl (addAsset cal cycle endDate) (.of endDate (loadedStatus cal cycle endDate) counted) =
      .of endDate (loadedStatus cal cycle endDate)
        (counted ++ as.filter (·.asset.createdOn ≤ endDate)) := by
  induction as generalizing counted with
  | nil => rw [List.foldl_nil, List.filter_nil, List.append_nil]
  | cons c as ih =>
    rw [List.foldl_cons, addAsset]
    by_cases hlater : endDate < c.asset.createdOn
    · rw [if_pos hlater, ih, List.filter_cons_of_neg (by simpa using hlater)]
    · rw [if_neg hlater, List.filter_cons_of_pos (by simpa using not_lt.mp hlater)]
      show as.foldl (addAsset cal cycle endDate)
        ((ComplianceStatsRecord.of _ _ _).add (loadedStatus cal cycle endDate c) c) = _
      rw [ComplianceStatsRecord.of_add, ih, List.append_assoc, List.singleton_append]

/-- What an asset is when the queries are merged. -/
def merged (now : Int) (dto : QueryComplianceHistoryDto) (a : ComplianceAsset) : LoadedAsset :=
  merge (assetsInspectionsByDate cal db orders now dto)
    (loadBefore db orders (xMonthsAgo cal now dto.months) a)

variable {db orders} {visible : ComplianceClient → Bool} {now endDate : Int}
  {dto : QueryComplianceHistoryDto} {a : ComplianceAsset}

/-- Each month's record is one of known statuses, of the assets that are counted. -/
theorem map_getComplianceHistoryByMonth :
    (getComplianceHistoryByMonth cal db orders visible now dto).map (·.map (·.asset)) =
      (cal.endDates now ⌈dto.months⌉.toNat).map fun endDate =>
        .of endDate
          (fun a => loadedStatus cal (clientDefaultInspectionCycle db orders visible) endDate
            (merged cal db orders now dto a))
          (countedAssets db orders dto.siteId endDate) := by
  unfold getComplianceHistoryByMonth getAssetInspectionsBefore
  rw [List.map_map]
  apply List.map_congr_left
  intro endDate _
  have hempty : ({ endDate } : ComplianceStatsRecord LoadedAsset) =
      .of endDate (loadedStatus cal (clientDefaultInspectionCycle db orders visible) endDate) [] :=
    rfl
  rw [Function.comp_apply, hempty, foldl_addAsset, List.nil_append, List.map_map, List.filter_map]
  exact ComplianceStatsRecord.map_of endDate (f := merged cal db orders now dto) (fun _ => rfl) _ _

/-- The asset was inspected at this very instant, and before. -/
def InspectedNowAndBefore (db : ComplianceDb) (now : Int) (a : ComplianceAsset) : Prop :=
  (∃ i ∈ db.inspections, i.assetId = a.id ∧ i.createdOn = now) ∧
    ∃ i ∈ db.inspections, i.assetId = a.id ∧ i.createdOn < now


theorem latestBefore_eq_none {t : Int} :
    latestBefore db a t = none ↔ ∀ i ∈ db.inspections, i.assetId = a.id → ¬ i.createdOn < t := by
  unfold latestBefore
  rw [List.max?_eq_none_iff, List.map_eq_nil_iff, List.filter_eq_nil_iff]
  simp only [Bool.and_eq_true, decide_eq_true_eq, not_and, Table.mem_rows]

/-- The asset's latest inspection as the loop finds it is the latest there is, unless it was
    inspected at this very instant and before, and one month was asked for. -/
theorem latest_merged (ha : a ∈ countedAssets db orders dto.siteId endDate)
    (hdate : endDate ∈ cal.endDates now ⌈dto.months⌉.toNat)
    (hlost : dto.months = 1 → ¬ InspectedNowAndBefore db now a) :
    ((merged cal db orders now dto a).inspections.filter
      (·.createdOn < endDate)).head?.map (·.createdOn) = latestBefore db a endDate := by
  obtain ⟨hmem, hasked⟩ := RowOrder.mem_findMany.mp (List.mem_of_mem_filter ha)
  unfold merged assetsInspectionsByDate xMonthsAgo
  rcases dto.min.eq_or_lt with hone | hmore
  · have hmonths : dto.months = 1 := hone.symm
    have hnow : endDate = now := by
      rw [hmonths] at hdate
      simpa [Calendar.endDates] using hdate
    rw [if_neg (by rw [hmonths]; exact lt_irrefl _), if_pos hmonths, hnow]
    by_cases hat : ∃ i ∈ db.inspections, i.assetId = a.id ∧ i.createdOn = now
    · obtain ⟨i, hi, hasset, hcreated⟩ := hat
      rw [latest_merge_nil_of_now hi hasset hcreated]
      refine (latestBefore_eq_none.mpr fun j hj hj' hbefore => ?_).symm
      exact hlost hmonths ⟨⟨i, hi, hasset, hcreated⟩, j, hj, hj', hbefore⟩
    · exact latest_merge_nil fun i hi hasset hcreated => hat ⟨i, hi, hasset, hcreated⟩
  · rw [if_pos hmore, if_neg hmore.ne']
    exact latest_merge hmem hasked (cal.cutoff_lt_endDates dto.min hdate)

/-- For one month, such an asset comes out as never inspected. -/
theorem latest_merged_eq_none (hmonths : dto.months = 1) (h : InspectedNowAndBefore db now a) :
    ((merged cal db orders now dto a).inspections.filter
      (·.createdOn < now)).head?.map (·.createdOn) = none := by
  obtain ⟨⟨i, hi, hasset, hcreated⟩, -⟩ := h
  unfold merged assetsInspectionsByDate xMonthsAgo
  rw [if_neg (by rw [hmonths]; exact lt_irrefl _), if_pos hmonths]
  exact latest_merge_nil_of_now hi hasset hcreated

theorem inspectedStatus_ne_neverInspected (days cycle : Int) :
    inspectedStatus days cycle ≠ .nonCompliantNeverInspected := by
  unfold inspectedStatus
  split
  · simp
  · split <;> simp

/-- One asset has the status it should have. -/
theorem loadedStatus_merged_eq_iff (ha : a ∈ countedAssets db orders dto.siteId endDate)
    (hdate : endDate ∈ cal.endDates now ⌈dto.months⌉.toNat) :
    loadedStatus cal (clientDefaultInspectionCycle db orders visible) endDate
        (merged cal db orders now dto a) = naiveStatus cal db endDate a ↔
      (dto.months = 1 → ¬ InspectedNowAndBefore db now a) ∧
        (a.inspectionCycle = none → ∀ t, latestBefore db a endDate = some t →
          SameDeadlines (cal.differenceInDays endDate t)
            (clientDefaultInspectionCycle db orders visible) (ownCycle db a)) := by
  by_cases hlost : dto.months = 1 → ¬ InspectedNowAndBefore db now a
  · have hasset : (merged cal db orders now dto a).asset = a := rfl
    rw [and_iff_right hlost, loadedStatus, latest_merged cal ha hdate hlost, hasset, naiveStatus]
    cases hcycle : a.inspectionCycle with
    | some cycle =>
      have hown : ownCycle db a = cycle := by rw [ownCycle, hcycle, Option.getD_some]
      rw [hown, Option.getD_some]
      exact iff_of_true rfl fun hnone => absurd hnone (by simp)
    | none =>
      rw [Option.getD_none]
      cases latestBefore db a endDate with
      | none => exact iff_of_true rfl fun _ t ht => absurd ht (by simp)
      | some t =>
        show inspectedStatus _ _ = inspectedStatus _ _ ↔ _
        rw [inspectedStatus_eq_iff]
        constructor
        · intro h _ u hu
          rwa [← Option.some.inj hu]
        · intro h
          exact h rfl t rfl
  · obtain ⟨hmonths, hboth⟩ := Classical.not_imp.mp hlost
    refine iff_of_false (fun heq => ?_) fun h => hlost h.1
    have hboth := not_not.mp hboth
    have hnow : endDate = now := by
      rw [hmonths] at hdate
      simpa [Calendar.endDates] using hdate
    rw [hnow, loadedStatus, latest_merged_eq_none cal hmonths hboth, naiveStatus] at heq
    cases hlatest : latestBefore db a now with
    | none =>
      obtain ⟨-, i, hi, hasset, hbefore⟩ := hboth
      exact latestBefore_eq_none.mp hlatest i hi hasset hbefore
    | some t =>
      rw [hlatest] at heq
      exact inspectedStatus_ne_neverInspected _ _ heq.symm

end StatsService

open StatsService in
/-- **Each month's record is the one computed from all inspections exactly if** no asset of a single
    month was inspected at this very instant and before, and wherever an asset has no cycle of its
    own, the default of the first client the caller sees has the deadlines of its own client's. In
    any case the buckets partition the counted assets, and the totals add up. -/
theorem complianceHistory_eq_iff (cal : Calendar) (db : ComplianceDb) (orders : ComplianceOrders)
    (visible : ComplianceClient → Bool) (now : Int) (dto : QueryComplianceHistoryDto) :
    ((getComplianceHistoryByMonth cal db orders visible now dto).map (·.map (·.asset)) =
        naiveHistory cal db orders now dto ↔
      ∀ endDate ∈ cal.endDates now ⌈dto.months⌉.toNat,
        ∀ a ∈ countedAssets db orders dto.siteId endDate,
          (dto.months = 1 → ¬ InspectedNowAndBefore db now a) ∧
          (a.inspectionCycle = none → ∀ t, latestBefore db a endDate = some t →
            SameDeadlines (cal.differenceInDays endDate t)
              (clientDefaultInspectionCycle db orders visible) (ownCycle db a))) ∧
      ∀ r ∈ (getComplianceHistoryByMonth cal db orders visible now dto).map (·.map (·.asset)),
        r.assets.Perm (countedAssets db orders dto.siteId r.endDate) ∧
          r.totalCompliant + r.totalNonCompliant = r.totalAssets := by
  rw [map_getComplianceHistoryByMonth]
  constructor
  · rw [naiveHistory, List.map_inj_left]
    apply forall₂_congr
    intro endDate hdate
    rw [ComplianceStatsRecord.of_eq_iff]
    exact forall₂_congr fun a ha => loadedStatus_merged_eq_iff cal ha hdate
  · intro r hr
    obtain ⟨endDate, -, rfl⟩ := List.mem_map.mp hr
    exact ⟨ComplianceStatsRecord.assets_of_perm endDate _ _,
      ComplianceStatsRecord.totals_of endDate _ _⟩

/-! ## 8. Two assets -/

/-- Two clients with cycles of 30 days and of a year, and the second one's asset. -/
def unlikeClients : ComplianceDb where
  clients := ⟨[{ id := "first" }, { id := "second", defaultInspectionCycle := 365 }], by decide⟩
  sites := ⟨[{ id := "site" }], by decide⟩
  assets := ⟨[{ id := "asset", createdOn := 0, siteId := "site", clientId := "second" }], by decide⟩
  inspections := ⟨[{ id := "inspection", createdOn := 0, assetId := "asset" }], by decide⟩
  clientOf := by decide

/-- Sixty days after its inspection, the asset is compliant by its own client's cycle. Whoever sees
    both clients is told that it is not. -/
theorem firstClientsCycle_counts :
    (StatsService.getComplianceHistoryByMonth .alternating unlikeClients {} (fun _ => true)
        (60 * 86400000) { months := 1 }).map (·.map (·.asset)) ≠
      StatsService.naiveHistory .alternating unlikeClients {} (60 * 86400000) { months := 1 } := by
  intro h
  have htotals := congrArg (List.map (·.totalCompliant)) h
  exact absurd htotals (by decide)

/-- One client's asset, inspected every 30 days. -/
def twiceInspected : ComplianceDb where
  clients := ⟨[{ id := "client" }], by decide⟩
  sites := ⟨[{ id := "site" }], by decide⟩
  assets := ⟨[{ id := "asset", createdOn := 0, siteId := "site", clientId := "client" }], by decide⟩
  inspections := ⟨[{ id := "before", createdOn := 0, assetId := "asset" },
    { id := "now", createdOn := 30 * 86400000, assetId := "asset" }], by decide⟩
  clientOf := by decide

/-- At the instant of the second inspection, the asset counts as never inspected. -/
example : (StatsService.getComplianceHistoryByMonth .alternating twiceInspected {} (fun _ => true)
    (30 * 86400000) { months := 1 }).map (·.nonCompliantNeverInspected.length) = [1] := by
  decide

end ShieldApi
