import Mathlib.Data.Rat.Floor
import Mathlib.Algebra.Order.Floor.Ring

/-!
# Dates

A `Date` that is not invalid has a time value, in milliseconds since the epoch, and not every
number is one: time values are whole, and those of more than 100 000 000 days on either side of
the epoch do not exist. A date made of any other number is cut off at the decimal point, or is
invalid.

Days have 24 hours, in a time zone that is so many milliseconds ahead. `isToday_iff` is what can
be relied upon: a date that is at least a day after some date is today where it is on the same day
as the present, and that is never the day of the earlier date (`day_lt_day`).
-/

set_option autoImplicit false

namespace ShieldApi

/-- In milliseconds, on either side of the epoch. -/
def maxTime : Int := 8640000000000000

structure TimeValue where
  ms : Int
  inRange : |ms| ≤ maxTime
  deriving DecidableEq

def msPerDay : Int := 86400000

namespace TimeValue

/-- Toward zero. -/
def trunc (q : Rat) : Int := if 0 ≤ q then ⌊q⌋ else ⌈q⌉

theorem le_trunc {n : Int} {q : Rat} (h : n ≤ q) : n ≤ trunc q := by
  have hfloor : n ≤ ⌊q⌋ := Int.le_floor.2 h
  unfold trunc
  split
  · exact hfloor
  · exact hfloor.trans (Int.floor_le_ceil q)

theorem trunc_le {n : Int} {q : Rat} (h : q ≤ n) : trunc q ≤ n := by
  have hceil : ⌈q⌉ ≤ n := Int.ceil_le.2 h
  unfold trunc
  split
  · exact (Int.floor_le_ceil q).trans hceil
  · exact hceil

theorem trunc_mono {p q : Rat} (h : p ≤ q) : trunc p ≤ trunc q := by
  unfold trunc
  split
  case isTrue hp =>
    rw [if_pos (hp.trans h)]
    exact Int.floor_mono h
  case isFalse hp =>
    split
    case isTrue hq =>
      -- they are on the two sides of zero
      have hle : ⌈p⌉ ≤ 0 := Int.ceil_le.2 (by exact_mod_cast (not_le.1 hp).le)
      exact hle.trans (Int.floor_nonneg.2 hq)
    case isFalse hq => exact Int.ceil_mono h

theorem trunc_intCast (n : Int) : trunc (n : Rat) = n :=
  le_antisymm (trunc_le le_rfl) (le_trunc le_rfl)

theorem abs_trunc_le {q : Rat} {n : Int} (h : |q| ≤ n) : |trunc q| ≤ n := by
  obtain ⟨hlow, hhigh⟩ := abs_le.1 h
  exact abs_le.2 ⟨le_trunc (by exact_mod_cast hlow), trunc_le hhigh⟩

/-- The date with this time value; `none` is the invalid date. -/
def clip (q : Rat) : Option TimeValue :=
  if h : |q| ≤ maxTime then some ⟨trunc q, abs_trunc_le h⟩ else none

theorem clip_eq_some_iff {q : Rat} {t : TimeValue} :
    clip q = some t ↔ |q| ≤ maxTime ∧ trunc q = t.ms := by
  unfold clip
  split
  case isTrue h =>
    rw [Option.some_inj]
    refine ⟨fun ht => ⟨h, congrArg ms ht⟩, fun ht => ?_⟩
    cases t
    simpa only [mk.injEq] using ht.2
  case isFalse h => exact ⟨(fun ht => by cases ht), fun ht => absurd ht.1 h⟩

theorem clip_intCast {n : Int} (h : |n| ≤ maxTime) : clip (n : Rat) = some ⟨n, h⟩ := by
  rw [clip_eq_some_iff]
  exact ⟨by exact_mod_cast h, trunc_intCast n⟩

/-- A later number is a later date. -/
theorem clip_mono {p q : Rat} {t u : TimeValue} (h : p ≤ q) (ht : clip p = some t)
    (hu : clip q = some u) : t.ms ≤ u.ms := by
  rw [← (clip_eq_some_iff.1 ht).2, ← (clip_eq_some_iff.1 hu).2]
  exact trunc_mono h

/-- Between a date and a number that has one there are only dates. -/
theorem clip_ne_none {t u : TimeValue} {p q : Rat} (hlow : (t.ms : Rat) ≤ p) (h : p ≤ q)
    (hu : clip q = some u) : clip p ≠ none := by
  have hq := (abs_le.1 (clip_eq_some_iff.1 hu).1).2
  have ht : ((-maxTime : Int) : Rat) ≤ t.ms := by exact_mod_cast (abs_le.1 t.inRange).1
  have hp : |p| ≤ maxTime := by
    rw [abs_le]
    push_cast at ht
    exact ⟨ht.trans hlow, h.trans hq⟩
  unfold clip
  rw [dif_pos hp]
  exact Option.some_ne_none _

def addMilliseconds (t : TimeValue) (amount : Rat) : Option TimeValue := clip (t.ms + amount)

/-- Which day it is, `tz` being how far ahead the time zone is. -/
def day (tz : Int) (t : TimeValue) : Int := (t.ms + tz) / msPerDay

def startOfDay (tz : Int) (t : TimeValue) : Option TimeValue :=
  clip (t.day tz * msPerDay - tz : Int)

/-- No two invalid dates are on the same day: `NaN` is not equal to itself. -/
def isSameDay (tz : Int) (t u : TimeValue) : Bool :=
  match startOfDay tz t, startOfDay tz u with
  | some a, some b => a.ms = b.ms
  | _, _ => false

def isToday (tz : Int) (now : TimeValue) : Option TimeValue → Bool
  | some date => isSameDay tz date now
  | none => false

theorem day_mono {tz : Int} {t u : TimeValue} (h : t.ms ≤ u.ms) : t.day tz ≤ u.day tz := by
  unfold day msPerDay
  omega

theorem ms_lt_of_day_lt {tz : Int} {t u : TimeValue} (h : t.day tz < u.day tz) : t.ms < u.ms := by
  by_contra hnot
  exact absurd (day_mono (not_lt.1 hnot)) (not_le.2 h)

theorem day_lt_day {tz : Int} {t u : TimeValue} (h : t.ms + msPerDay ≤ u.ms) :
    t.day tz < u.day tz := by
  unfold day
  unfold msPerDay at h ⊢
  omega

/-- The day of a date that is not among the very first has a beginning. -/
theorem startOfDay_eq (tz : Int) {t u : TimeValue} (h : t.ms + msPerDay ≤ u.ms) :
    ∃ a, startOfDay tz u = some a ∧ a.ms = u.day tz * msPerDay - tz := by
  have ht := (abs_le.1 t.inRange).1
  have hu := (abs_le.1 u.inRange).2
  have hrange : |u.day tz * msPerDay - tz| ≤ maxTime := by
    rw [abs_le]
    unfold day
    unfold msPerDay at h ⊢
    omega
  exact ⟨_, clip_intCast hrange, rfl⟩

/-- **What today is**, for a date that is at least a day after some date. -/
theorem isToday_iff {tz : Int} {t date now : TimeValue} (h : t.ms + msPerDay ≤ date.ms) :
    isToday tz now (some date) = true ↔ date.day tz = now.day tz := by
  obtain ⟨a, ha, hams⟩ := startOfDay_eq tz h
  show isSameDay tz date now = true ↔ _
  unfold isSameDay
  rw [ha]
  constructor
  · intro hday
    cases hb : startOfDay tz now with
    | none =>
      rw [hb] at hday
      exact absurd hday Bool.false_ne_true
    | some b =>
      rw [hb] at hday
      have hms : a.ms = b.ms := of_decide_eq_true hday
      have hbms := (clip_eq_some_iff.1 hb).2
      rw [trunc_intCast] at hbms
      rw [hams, ← hbms] at hms
      unfold msPerDay at hms
      omega
  · intro hday
    have hb : startOfDay tz now = some a := by
      rw [← ha]
      unfold startOfDay
      rw [hday]
    rw [hb]
    exact decide_eq_true rfl

end TimeValue

end ShieldApi
