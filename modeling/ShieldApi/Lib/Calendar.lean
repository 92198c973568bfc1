import Mathlib.Data.Rat.Floor
import Mathlib.Algebra.Order.Floor.Ring

/-!
# Months

Instants are milliseconds, and every one is in a month. What a calendar library is asked here is
where the month of an instant begins and ends, and to go back some months. Going back a fraction of
months ends up in one of the two whole numbers of months around it, whichever the library takes.

`endDates` goes back month by month from an instant that may be anywhere in its month: **the first
is the instant itself, and each of the others is the end of the month before** (`month_endDates`).
An instant at the beginning of an earlier month is before all of them (`cutoff_lt_endDates`).
-/

set_option autoImplicit false

namespace ShieldApi

structure Calendar where
  /-- The months in order. -/
  month : Int → Int
  startOfMonth : Int → Int
  endOfMonth : Int → Int
  subMonths : Int → Rat → Int
  /-- Full days from the second to the first. -/
  differenceInDays : Int → Int → Int
  startOfMonth_le_iff : ∀ t u, startOfMonth t ≤ u ↔ month t ≤ month u
  le_endOfMonth_iff : ∀ t u, u ≤ endOfMonth t ↔ month u ≤ month t
  startOfMonth_lt_endOfMonth : ∀ t, startOfMonth t < endOfMonth t
  le_month_subMonths : ∀ t a, month t - ⌈a⌉ ≤ month (subMonths t a)
  month_subMonths_le : ∀ t a, month (subMonths t a) ≤ month t - ⌊a⌋

namespace Calendar

variable (cal : Calendar)

/-- The instant, and the ends of the months before. -/
def endDates (now : Int) : Nat → List Int
  | 0 => []
  | n + 1 => now :: endDates (cal.endOfMonth (cal.subMonths now 1)) n

/-- The beginning of the month some months ago. -/
def cutoff (now : Int) (months : Rat) : Int := cal.startOfMonth (cal.subMonths now months)

theorem startOfMonth_le (t : Int) : cal.startOfMonth t ≤ t :=
  (cal.startOfMonth_le_iff t t).mpr (le_refl _)

theorem le_endOfMonth (t : Int) : t ≤ cal.endOfMonth t :=
  (cal.le_endOfMonth_iff t t).mpr (le_refl _)

theorem month_mono {t u : Int} (h : t ≤ u) : cal.month t ≤ cal.month u :=
  (cal.startOfMonth_le_iff t u).mp ((cal.startOfMonth_le t).trans h)

theorem month_startOfMonth (t : Int) : cal.month (cal.startOfMonth t) = cal.month t :=
  le_antisymm (cal.month_mono (cal.startOfMonth_le t))
    ((cal.startOfMonth_le_iff t _).mp (le_refl _))

theorem month_endOfMonth (t : Int) : cal.month (cal.endOfMonth t) = cal.month t :=
  le_antisymm ((cal.le_endOfMonth_iff t _).mp (le_refl _)) (cal.month_mono (cal.le_endOfMonth t))

theorem month_subMonths_one (t : Int) : cal.month (cal.subMonths t 1) = cal.month t - 1 := by
  have hle := cal.month_subMonths_le t 1
  have hge := cal.le_month_subMonths t 1
  rw [Int.floor_one] at hle
  rw [Int.ceil_one] at hge
  omega

/-- The end dates, each in its month. -/
theorem month_endDates {now e : Int} {n : Nat} (h : e ∈ cal.endDates now n) :
    ∃ i : Nat, i < n ∧ cal.month e = cal.month now - i ∧
      (i = 0 ∧ e = now ∨ ∃ t, e = cal.endOfMonth t) := by
  induction n generalizing now with
  | zero => exact absurd h List.not_mem_nil
  | succ n ih =>
    rcases List.mem_cons.mp h with rfl | h
    · exact ⟨0, Nat.succ_pos n, by simp, .inl ⟨rfl, rfl⟩⟩
    · obtain ⟨i, hi, hmonth, hend⟩ := ih h
      rw [cal.month_endOfMonth, cal.month_subMonths_one] at hmonth
      refine ⟨i + 1, Nat.succ_lt_succ hi, by rw [hmonth]; push_cast; omega, .inr ?_⟩
      rcases hend with ⟨-, rfl⟩ | hend
      · exact ⟨_, rfl⟩
      · exact hend

/-- **The cutoff is before every end date.** -/
theorem cutoff_lt_endDates {now e : Int} {months : Rat} (hmonths : 1 ≤ months)
    (h : e ∈ cal.endDates now ⌈months⌉.toNat) : cal.cutoff now months < e := by
  obtain ⟨i, hi, hmonth, hend⟩ := cal.month_endDates h
  have hcutoff : cal.month (cal.cutoff now months) ≤ cal.month now - ⌊months⌋ := by
    unfold cutoff
    rw [cal.month_startOfMonth]
    exact cal.month_subMonths_le now months
  have hfloor : 1 ≤ ⌊months⌋ := Int.le_floor.mpr (by simpa using hmonths)
  have hround := Int.ceil_le_floor_add_one months
  rcases hend with ⟨-, rfl⟩ | ⟨t, rfl⟩
  · by_contra hnot
    have hmono := cal.month_mono (not_lt.mp hnot)
    omega
  · rw [cal.month_endOfMonth] at hmonth
    -- the cutoff begins a month that is not later than that of the end date
    have hstart : cal.cutoff now months ≤ cal.startOfMonth t := by
      unfold cutoff at hcutoff ⊢
      rw [cal.month_startOfMonth] at hcutoff
      rw [cal.startOfMonth_le_iff, cal.month_startOfMonth]
      omega
    exact hstart.trans_lt (cal.startOfMonth_lt_endOfMonth t)

/-- Every day has 24 hours. -/
def ExactDays : Prop := ∀ t u, u ≤ t → cal.differenceInDays t u = (t - u) / 86400000

/-! ## Months of 31 and 30 days -/

/-- The first day of a month: the months of 31 days and those of 30 take turns. -/
def firstDay (m : Int) : Int := (61 * m + 1) / 2

/-- From August to December this is the calendar everybody uses, when day 0 is the first of an
    August. -/
def alternating : Calendar where
  month t := 2 * (t / 86400000) / 61
  startOfMonth t := firstDay (2 * (t / 86400000) / 61) * 86400000
  endOfMonth t := firstDay (2 * (t / 86400000) / 61 + 1) * 86400000 - 1
  subMonths t a :=
    let m := 2 * (t / 86400000) / 61
    let day := t / 86400000 - firstDay m
    let last := firstDay (m - ⌈a⌉ + 1) - firstDay (m - ⌈a⌉) - 1
    (firstDay (m - ⌈a⌉) + min day last) * 86400000 + t % 86400000
  differenceInDays t u := (t - u) / 86400000
  startOfMonth_le_iff t u := by
    unfold firstDay
    omega
  le_endOfMonth_iff t u := by
    unfold firstDay
    omega
  startOfMonth_lt_endOfMonth t := by
    unfold firstDay
    omega
  le_month_subMonths t a := by
    unfold firstDay
    simp only
    omega
  month_subMonths_le t a := by
    have hround := Int.floor_le_ceil a
    unfold firstDay
    simp only
    omega

theorem exactDays_alternating : alternating.ExactDays := fun _ _ _ => rfl

/-- Days of 24 hours. -/
def addDays (t : Int) (days : Int) : Int := t + 86400000 * days

end Calendar

end ShieldApi
