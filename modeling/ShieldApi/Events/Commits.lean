import ShieldApi.Events.Channels
import ShieldApi.Lib.Runs

/-!
# Events and commits

The extension of `buildPrimaryExtension` publishes when a query returns. A query of its own runs in a
batch that is committed by then. A query on the client of an interactive transaction returns long
before anybody knows whether the transaction commits, and it publishes all the same. **Events
announce committed writes exactly as long as no query inside a transaction publishes**
(`announcesCommitted_iff`), and an event is of a write that never was exactly where a transaction
that has published is rolled back.

The database is its log here: a write is an entry, with the event that was published of it, and
what became of it.
-/

set_option autoImplicit false

namespace ShieldApi

/-! ## 1. The log -/

/-- A query that returned, on a client that was built for somebody with a grant or without. -/
structure QueryRun where
  accessGrant : Option AccessGrant
  model : String
  operation : PrismaOperation
  result : QueryResult
  deriving DecidableEq, Repr

/-- What `$allOperations` publishes then. -/
def QueryRun.published (q : QueryRun) : Option RedisMessage :=
  q.accessGrant.bind fun accessGrant => PrismaService.emitModelEvent
    { accessGrant, model := q.model, operation := q.operation, result := q.result }

inductive WriteStatus
  | committed
  | inTransaction (t : Nat)
  | rolledBack
  deriving DecidableEq, Repr

structure LogEntry where
  query : QueryRun
  status : WriteStatus
  deriving DecidableEq, Repr

structure WriteLog where
  entries : List LogEntry := []
  /-- The interactive transactions under way. -/
  opened : List Nat := []
  deriving DecidableEq, Repr

/-- What the users of the client do. -/
inductive ClientStep
  /-- A query that returned, in the batch of its own that is committed when it does. -/
  | single (q : QueryRun)
  | begin (t : Nat)
  /-- A query of the transaction's client that returned. -/
  | inTransaction (t : Nat) (q : QueryRun)
  | commit (t : Nat)
  /-- The function of the transaction threw, wherever it was. -/
  | rollback (t : Nat)
  deriving DecidableEq, Repr

def LogEntry.settle (t : Nat) (outcome : WriteStatus) (x : LogEntry) : LogEntry :=
  if x.status = .inTransaction t then { x with status := outcome } else x

namespace WriteLog

def settle (s : WriteLog) (t : Nat) (outcome : WriteStatus) : WriteLog where
  entries := s.entries.map (·.settle t outcome)
  opened := s.opened.filter (· ≠ t)

def step (s : WriteLog) : ClientStep → WriteLog
  | .single q => { s with entries := s.entries ++ [⟨q, .committed⟩] }
  | .begin t => if t ∈ s.opened then s else { s with opened := t :: s.opened }
  | .inTransaction t q =>
    -- the client of a transaction that is over throws
    if t ∈ s.opened then { s with entries := s.entries ++ [⟨q, .inTransaction t⟩] } else s
  | .commit t => s.settle t .committed
  | .rollback t => s.settle t .rolledBack

/-- All that was published, in order. -/
def events (s : WriteLog) : List RedisMessage := s.entries.filterMap (·.query.published)

/-- Every event announces a write that is committed. -/
def AnnouncesCommitted (s : WriteLog) : Prop :=
  ∀ x ∈ s.entries, x.query.published.isSome = true → x.status = .committed

/-- Nothing was published of what was rolled back. -/
def NothingOfRolledBack (s : WriteLog) : Prop :=
  ∀ x ∈ s.entries, x.query.published.isSome = true → x.status ≠ .rolledBack

/-- What is in no transaction under way is settled. -/
def Settled (s : WriteLog) : Prop :=
  ∀ x ∈ s.entries, ∀ t, x.status = .inTransaction t → t ∈ s.opened

/-! ## 2. One step -/

variable {s : WriteLog}

theorem AnnouncesCommitted.nothingOfRolledBack (h : s.AnnouncesCommitted) :
    s.NothingOfRolledBack := by
  intro x hx hpublished
  rw [h x hx hpublished]
  decide

theorem mem_entries_append {q : QueryRun} {status : WriteStatus} {x : LogEntry} :
    x ∈ s.entries ++ [⟨q, status⟩] ↔ x ∈ s.entries ∨ x = ⟨q, status⟩ := by
  rw [List.mem_append, List.mem_singleton]

theorem settled_step (h : s.Settled) (l : ClientStep) : (s.step l).Settled := by
  have hsettle : ∀ t outcome, (∀ t', outcome ≠ .inTransaction t') → (s.settle t outcome).Settled := by
    intro t outcome houtcome x hx t' hstatus
    obtain ⟨y, hy, rfl⟩ := List.mem_map.mp hx
    unfold LogEntry.settle at hstatus
    split at hstatus
    · exact absurd hstatus (houtcome t')
    · next hother =>
      refine List.mem_filter.mpr ⟨h y hy t' hstatus, decide_eq_true ?_⟩
      rintro rfl
      exact hother hstatus
  cases l with
  | single q =>
    intro x hx t hstatus
    rcases mem_entries_append.mp hx with hx | rfl
    · exact h x hx t hstatus
    · exact absurd hstatus (by simp)
  | begin t =>
    by_cases hopen : t ∈ s.opened
    · rwa [step, if_pos hopen]
    · rw [step, if_neg hopen]
      exact fun x hx t' hstatus => List.mem_cons_of_mem _ (h x hx t' hstatus)
  | inTransaction t q =>
    by_cases hopen : t ∈ s.opened
    · rw [step, if_pos hopen]
      intro x hx t' hstatus
      rcases mem_entries_append.mp hx with hx | rfl
      · exact h x hx t' hstatus
      · exact WriteStatus.inTransaction.inj hstatus ▸ hopen
    · rwa [step, if_neg hopen]
  | commit t => exact hsettle t .committed (by simp)
  | rollback t => exact hsettle t .rolledBack (by simp)

@[simp] theorem settle_query (t : Nat) (outcome : WriteStatus) (x : LogEntry) :
    (x.settle t outcome).query = x.query := by
  unfold LogEntry.settle
  split
  · rfl
  · rfl

/-- What is committed stays so. -/
theorem AnnouncesCommitted.settle (h : s.AnnouncesCommitted) (t : Nat) (outcome : WriteStatus) :
    (s.settle t outcome).AnnouncesCommitted := by
  intro x hx hpublished
  obtain ⟨y, hy, rfl⟩ := List.mem_map.mp hx
  rw [settle_query] at hpublished
  have hcommitted := h y hy hpublished
  rw [LogEntry.settle, if_neg (by rw [hcommitted]; simp), hcommitted]

/-- The query of the step publishes, and its transaction is under way. -/
def PublishesEarly (s : WriteLog) : ClientStep → Prop
  | .inTransaction t q => t ∈ s.opened ∧ q.published.isSome = true
  | _ => False

/-- The step undoes what was published. -/
def UndoesPublished (s : WriteLog) : ClientStep → Prop
  | .rollback t =>
    ∃ x ∈ s.entries, x.query.published.isSome = true ∧ x.status = .inTransaction t
  | _ => False

theorem announcesCommitted_step (h : s.AnnouncesCommitted) (l : ClientStep) :
    (s.step l).AnnouncesCommitted ↔ ¬ s.PublishesEarly l := by
  cases l with
  | single q =>
    refine iff_of_true (fun x hx hpublished => ?_) (fun hearly => hearly)
    rcases mem_entries_append.mp hx with hx | rfl
    · exact h x hx hpublished
    · rfl
  | begin t =>
    refine iff_of_true ?_ fun hearly => hearly
    by_cases hopen : t ∈ s.opened
    · rwa [step, if_pos hopen]
    · rw [step, if_neg hopen]
      exact h
  | inTransaction t q =>
    by_cases hopen : t ∈ s.opened
    · rw [step, if_pos hopen]
      constructor
      · intro hlaw hearly
        -- the new entry waits for its transaction
        have hcommitted := hlaw _ (mem_entries_append.mpr (.inr rfl)) hearly.2
        exact absurd hcommitted (by simp)
      · intro hquiet x hx hpublished
        rcases mem_entries_append.mp hx with hx | rfl
        · exact h x hx hpublished
        · exact absurd ⟨hopen, hpublished⟩ hquiet
    · rw [step, if_neg hopen]
      exact iff_of_true h fun hearly => hopen hearly.1
  | commit t => exact iff_of_true (h.settle t .committed) fun hearly => hearly
  | rollback t => exact iff_of_true (h.settle t .rolledBack) fun hearly => hearly

theorem nothingOfRolledBack_step (h : s.NothingOfRolledBack) (l : ClientStep) :
    (s.step l).NothingOfRolledBack ↔ ¬ s.UndoesPublished l := by
  have happend : ∀ q status, status ≠ .rolledBack →
      ({ s with entries := s.entries ++ [⟨q, status⟩] } : WriteLog).NothingOfRolledBack := by
    intro q status hstatus x hx hpublished
    rcases mem_entries_append.mp hx with hx | rfl
    · exact h x hx hpublished
    · exact hstatus
  cases l with
  | single q => exact iff_of_true (happend q .committed (by simp)) fun hundoes => hundoes
  | begin t =>
    refine iff_of_true ?_ fun hundoes => hundoes
    by_cases hopen : t ∈ s.opened
    · rwa [step, if_pos hopen]
    · rw [step, if_neg hopen]
      exact h
  | inTransaction t q =>
    refine iff_of_true ?_ fun hundoes => hundoes
    by_cases hopen : t ∈ s.opened
    · rw [step, if_pos hopen]
      exact happend q (.inTransaction t) (by simp)
    · rwa [step, if_neg hopen]
  | commit t =>
    refine iff_of_true (fun x hx hpublished => ?_) fun hundoes => hundoes
    obtain ⟨y, hy, rfl⟩ := List.mem_map.mp hx
    rw [settle_query] at hpublished
    unfold LogEntry.settle
    split
    · simp
    · exact h y hy hpublished
  | rollback t =>
    constructor
    · intro hlaw hundoes
      obtain ⟨x, hx, hpublished, hstatus⟩ := hundoes
      refine hlaw (x.settle t .rolledBack) (List.mem_map_of_mem hx) ?_ ?_
      · rwa [settle_query]
      · rw [LogEntry.settle, if_pos hstatus]
    · intro hkeeps x hx hpublished
      obtain ⟨y, hy, rfl⟩ := List.mem_map.mp hx
      rw [settle_query] at hpublished
      have hother : y.status ≠ .inTransaction t :=
        fun hstatus => hkeeps ⟨y, hy, hpublished, hstatus⟩
      rw [LogEntry.settle, if_neg hother]
      exact h y hy hpublished

/-- With no transaction under way, what was not rolled back is committed. -/
theorem NothingOfRolledBack.announcesCommitted (h : s.NothingOfRolledBack) (hsettled : s.Settled)
    (hquiet : s.opened = []) : s.AnnouncesCommitted := by
  intro x hx hpublished
  cases hstatus : x.status with
  | committed => rfl
  | inTransaction t =>
    have hopen := hsettled x hx t hstatus
    rw [hquiet] at hopen
    exact absurd hopen List.not_mem_nil
  | rolledBack => exact absurd hstatus (h x hx hpublished)

theorem settled_start : WriteLog.Settled {} := fun _ hx => absurd hx List.not_mem_nil

end WriteLog

/-! ## 3. Runs -/

/-- **Every event is of a committed write in every state of a run, and nothing of what rolled back
    was published, exactly if no query inside a transaction publishes.** Asked only when no
    transaction is under way, it is exactly that no transaction is rolled back that has published. -/
theorem announcesCommitted_iff (run : List ClientStep) :
    ((∀ s, Reached WriteLog.step {} run s → s.AnnouncesCommitted ∧ s.NothingOfRolledBack) ↔
      ∀ s l, Fired WriteLog.step {} run s l → ¬ s.PublishesEarly l) ∧
    ((∀ s, Reached WriteLog.step {} run s →
        (s.opened = [] → s.AnnouncesCommitted) ∧ s.NothingOfRolledBack) ↔
      ∀ s l, Fired WriteLog.step {} run s l → ¬ s.UndoesPublished l) := by
  have hstart : WriteLog.AnnouncesCommitted {} := fun _ hx => absurd hx List.not_mem_nil
  constructor
  · rw [← reached_iff_fired (I := WriteLog.Settled) (P := WriteLog.AnnouncesCommitted)
      WriteLog.settled_start hstart (fun s l _ hs => WriteLog.settled_step hs l)
      fun s l _ _ hs => WriteLog.announcesCommitted_step hs l]
    constructor
    · exact fun h s hs => (h s hs).1
    · exact fun h s hs => ⟨h s hs, (h s hs).nothingOfRolledBack⟩
  · rw [← reached_iff_fired (I := WriteLog.Settled) (P := WriteLog.NothingOfRolledBack)
      WriteLog.settled_start hstart.nothingOfRolledBack
      (fun s l _ hs => WriteLog.settled_step hs l)
      fun s l _ _ hs => WriteLog.nothingOfRolledBack_step hs l]
    constructor
    · exact fun h s hs => (h s hs).2
    · intro h s hs
      have hsettled : s.Settled :=
        hs.invariant WriteLog.settled_start fun u l _ hu => WriteLog.settled_step hu l
      exact ⟨fun hquiet => (h s hs).announcesCommitted hsettled hquiet, h s hs⟩

/-! ## 4. The setup of an asset -/

/-- The queries of `AssetsService.setup`: the asset is written first, and what comes behind
    it may throw. -/
def AssetsService.setupSteps (t : Nat) (accessGrant : Option AccessGrant) (assetId : String)
    (later : List QueryRun) (throws : Bool) : List ClientStep :=
  .begin t :: .inTransaction t ⟨accessGrant, "Asset", .update, .row (some assetId)⟩ ::
    (later.map (.inTransaction t) ++ [if throws then .rollback t else .commit t])

/-- An asset whose setup failed behind the first query is not set up, and was announced. -/
theorem setup_announcesRolledBack :
    let s := (AssetsService.setupSteps 0 (some streamGrant) "pump" [] true).foldl WriteLog.step {}
    s.events.length = 1 ∧ ¬ s.AnnouncesCommitted ∧ ¬ s.NothingOfRolledBack ∧ s.opened = [] := by
  refine ⟨by rfl, fun h => ?_, fun h => ?_, by rfl⟩
  · exact absurd (h _ (List.mem_singleton_self _) rfl) (by decide)
  · exact h _ (List.mem_singleton_self _) rfl rfl

end ShieldApi
