import Mathlib.Data.List.Lex
import Mathlib.Algebra.Order.Ring.Rat

/-!
# How JavaScript compares

Numbers have two infinities and `NaN`, with which no comparison holds. Strings are compared by
their UTF-16 code units, the first that differ deciding. `a >= b` is, for both, that `a` is not
less than `b` and that the two can be compared at all (`le`), so **of two primitives that can be
compared, exactly one of `a > b` and `a <= b` holds** (`le_iff_not_lt`).
-/

set_option autoImplicit false

namespace ShieldApi

namespace Js

/-! ## 1. Numbers -/

inductive Number
  | nan
  | negInf
  | finite (q : Rat)
  | posInf
  deriving DecidableEq, Repr

namespace Number

/-- `a < b`. -/
def lt : Number → Number → Bool
  | .finite p, .finite q => p < q
  | .negInf, .finite _ | .negInf, .posInf | .finite _, .posInf => true
  | _, _ => false

/-- `a === b`. -/
def strictEq : Number → Number → Bool
  | .nan, _ => false
  | a, b => a = b

theorem lt_asymm {a b : Number} (h : lt a b = true) : lt b a = false := by
  cases a <;> cases b <;> simp_all [lt, le_of_lt]

@[simp] theorem lt_nan (a : Number) : lt a .nan = false := by
  cases a <;> rfl

@[simp] theorem nan_lt (a : Number) : lt .nan a = false := by
  cases a <;> rfl

end Number

/-! ## 2. Strings -/

/-- The code units of a character: one, or a surrogate pair. -/
def unitsOfChar (c : Char) : List Nat :=
  if c.toNat < 0x10000 then [c.toNat]
  else [0xD800 + (c.toNat - 0x10000) / 0x400, 0xDC00 + (c.toNat - 0x10000) % 0x400]

def codeUnits (s : String) : List Nat := s.toList.flatMap unitsOfChar

/-! ## 3. Either -/

inductive Primitive
  | number (n : Number)
  | text (s : String)
  deriving DecidableEq, Repr

namespace Primitive

/-- `a < b`, of two of one type. -/
def lt : Primitive → Primitive → Bool
  | .number a, .number b => a.lt b
  | .text a, .text b => codeUnits a < codeUnits b
  | _, _ => false

/-- `a === b`. -/
def strictEq : Primitive → Primitive → Bool
  | .number a, .number b => a.strictEq b
  | .text a, .text b => a = b
  | _, _ => false

theorem strictEq_comm (a b : Primitive) : strictEq a b = strictEq b a := by
  cases a with
  | number m =>
    cases b with
    | number n => cases m <;> cases n <;> simp [strictEq, Number.strictEq, eq_comm]
    | text t => rfl
  | text s =>
    cases b with
    | number n => rfl
    | text t => simp [strictEq, eq_comm]

/-- Two of one type, and neither is `NaN`. -/
def comparable : Primitive → Primitive → Bool
  | .number .nan, _ | _, .number .nan => false
  | .number _, .number _ | .text _, .text _ => true
  | _, _ => false

/-- `a <= b`. -/
def le (a b : Primitive) : Bool := comparable a b && !lt b a

theorem comparable_comm (a b : Primitive) : comparable a b = comparable b a := by
  cases a with
  | number m =>
    cases b with
    | number n => cases m <;> cases n <;> rfl
    | text t => cases m <;> rfl
  | text s =>
    cases b with
    | number n => cases n <;> rfl
    | text t => rfl

theorem lt_asymm {a b : Primitive} (h : lt a b = true) : lt b a = false := by
  cases a with
  | number m =>
    cases b with
    | number n => exact Number.lt_asymm h
    | text t => rfl
  | text s =>
    cases b with
    | number n => rfl
    | text t =>
      have hlt : codeUnits s < codeUnits t := of_decide_eq_true h
      exact decide_eq_false hlt.asymm

/-- What is less can be compared. -/
theorem comparable_of_lt {a b : Primitive} (h : lt a b = true) : comparable a b = true := by
  cases a with
  | number m =>
    cases b with
    | number n => cases m <;> cases n <;> simp_all [lt, Number.lt, comparable]
    | text t => cases h
  | text s =>
    cases b with
    | number n => cases h
    | text t => rfl

theorem le_iff_not_lt {a b : Primitive} (h : comparable a b = true) :
    le a b = true ↔ lt b a = false := by
  simp [le, h]

/-- Neither is less: they are equal, or cannot be compared. -/
def Level (a b : Primitive) : Prop := lt a b = false ∧ lt b a = false

theorem lt_comm_iff {a b : Primitive} : (lt a b = true ↔ lt b a = true) ↔ Level a b := by
  constructor
  · intro h
    cases hab : lt a b with
    | true =>
      have hba := h.mp hab
      rw [lt_asymm hab] at hba
      cases hba
    | false =>
      refine ⟨hab, ?_⟩
      apply Bool.eq_false_iff.mpr
      intro hba
      rw [h.mpr hba] at hab
      cases hab
  · rintro ⟨hab, hba⟩
    rw [hab, hba]

theorem le_comm_iff {a b : Primitive} : (le a b = true ↔ le b a = true) ↔ Level a b := by
  cases hcomp : comparable a b with
  | true =>
    have hflip : ∀ x y : Bool, (y = false ↔ x = false) ↔ (x = true ↔ y = true) := by decide
    rw [le_iff_not_lt hcomp, le_iff_not_lt (comparable_comm a b ▸ hcomp), hflip, lt_comm_iff]
  | false =>
    have hba : comparable b a = false := comparable_comm a b ▸ hcomp
    have hlt : Level a b := by
      constructor
      · exact Bool.eq_false_iff.mpr (mt comparable_of_lt (Bool.eq_false_iff.mp hcomp))
      · exact Bool.eq_false_iff.mpr (mt comparable_of_lt (Bool.eq_false_iff.mp hba))
    simp [le, hcomp, hba, hlt]

end Primitive

end Js

end ShieldApi
