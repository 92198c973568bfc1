import Mathlib.Algebra.Group.Nat.Defs
import Mathlib.Data.List.Induction

/-!
# Decimal numerals

A numeral is a list of decimal digits. Its value is `Nat.ofDigitChars 10`, and `Nat.toDigits 10`
writes a number without leading zeros. **A numeral is known by its value and its length**
(`eq_of_value_eq`), so that to pad what was written to the length of what was read gives it back
(`padZeros_toDigits`).
-/

set_option autoImplicit false

namespace ShieldApi

def IsNumeral (l : List Char) : Prop := ∀ c ∈ l, c.isDigit = true

def numeralValue (l : List Char) : Nat := Nat.ofDigitChars 10 l 0

/-- `padStart(width, '0')`. -/
def padZeros (width : Nat) (l : List Char) : List Char :=
  List.replicate (width - l.length) '0' ++ l

/-! ## 1. Values -/

@[simp] theorem numeralValue_nil : numeralValue [] = 0 := Nat.ofDigitChars_nil

theorem numeralValue_concat (l : List Char) (c : Char) :
    numeralValue (l ++ [c]) = 10 * numeralValue l + (c.toNat - '0'.toNat) := by
  rw [numeralValue, Nat.ofDigitChars_append, Nat.ofDigitChars_cons, Nat.ofDigitChars_nil,
    numeralValue]

@[simp] theorem numeralValue_toDigits (n : Nat) : numeralValue (Nat.toDigits 10 n) = n :=
  Nat.ofDigitChars_ten_toDigits

@[simp] theorem numeralValue_padZeros (width : Nat) (l : List Char) :
    numeralValue (padZeros width l) = numeralValue l := by
  rw [numeralValue, padZeros, Nat.ofDigitChars_append, Nat.ofDigitChars_replicate_zero,
    Nat.mul_zero, numeralValue]

theorem digit_lt {c : Char} (h : c.isDigit = true) : c.toNat - '0'.toNat < 10 := by
  have hrange : 48 ≤ c.toNat ∧ c.toNat ≤ 57 := Char.isDigit_iff_toNat.mp h
  have hzero : '0'.toNat = 48 := rfl
  omega

theorem digit_inj {c d : Char} (hc : c.isDigit = true) (hd : d.isDigit = true)
    (h : c.toNat - '0'.toNat = d.toNat - '0'.toNat) : c = d := by
  have hrange : 48 ≤ c.toNat ∧ c.toNat ≤ 57 := Char.isDigit_iff_toNat.mp hc
  have hrange' : 48 ≤ d.toNat ∧ d.toNat ≤ 57 := Char.isDigit_iff_toNat.mp hd
  have hzero : '0'.toNat = 48 := rfl
  exact Char.toNat_inj.mp (by omega)

/-! ## 2. Numerals -/

theorem isNumeral_toDigits (n : Nat) : IsNumeral (Nat.toDigits 10 n) := fun _ hc =>
  Nat.isDigit_of_mem_toDigits (by decide) (by decide) hc

theorem isNumeral_replicate (n : Nat) : IsNumeral (List.replicate n '0') := fun c hc => by
  rw [List.eq_of_mem_replicate hc]
  rfl

theorem isNumeral_append {l m : List Char} :
    IsNumeral (l ++ m) ↔ IsNumeral l ∧ IsNumeral m := by
  unfold IsNumeral
  rw [List.forall_mem_append]

theorem isNumeral_padZeros {width : Nat} {l : List Char} :
    IsNumeral (padZeros width l) ↔ IsNumeral l := by
  rw [padZeros, isNumeral_append, and_iff_right (isNumeral_replicate _)]

theorem numeralValue_lt {l : List Char} (h : IsNumeral l) : numeralValue l < 10 ^ l.length := by
  induction l using List.reverseRecOn with
  | nil => exact Nat.one_pos
  | append_singleton l c ih =>
    obtain ⟨hl, hc⟩ := isNumeral_append.mp h
    have hlt := ih hl
    have hdigit := digit_lt (hc c (List.mem_singleton_self c))
    rw [numeralValue_concat, List.length_append, List.length_singleton, Nat.pow_succ]
    omega

/-- **A numeral is known by its value and its length.** -/
theorem eq_of_value_eq {l m : List Char} (hl : IsNumeral l) (hm : IsNumeral m)
    (hlength : l.length = m.length) (h : numeralValue l = numeralValue m) : l = m := by
  induction l using List.reverseRecOn generalizing m with
  | nil => exact (List.length_eq_zero_iff.mp hlength.symm).symm
  | append_singleton l c ih =>
    obtain rfl | ⟨m, d, rfl⟩ := List.eq_nil_or_concat m
    · simp at hlength
    · obtain ⟨hl, hc⟩ := isNumeral_append.mp hl
      obtain ⟨hm, hd⟩ := isNumeral_append.mp (List.concat_eq_append ▸ hm)
      have hc := hc c (List.mem_singleton_self c)
      have hd := hd d (List.mem_singleton_self d)
      rw [List.concat_eq_append, numeralValue_concat, numeralValue_concat] at h
      have hlt := digit_lt hc
      have hlt' := digit_lt hd
      have hlength : l.length = m.length := by simpa using hlength
      rw [ih hl hm hlength (by omega), digit_inj hc hd (by omega), List.concat_eq_append]

/-! ## 3. Padding -/

theorem length_padZeros (width : Nat) (l : List Char) :
    (padZeros width l).length = max width l.length := by
  rw [padZeros, List.length_append, List.length_replicate]
  omega

/-- **The value of a numeral, written to its length, is the numeral.** -/
theorem padZeros_toDigits {l : List Char} (h : IsNumeral l) (hne : l ≠ []) :
    padZeros l.length (Nat.toDigits 10 (numeralValue l)) = l := by
  have hshort : (Nat.toDigits 10 (numeralValue l)).length ≤ l.length :=
    (Nat.length_toDigits_le_iff (by decide) (List.length_pos_iff.mpr hne)).mpr (numeralValue_lt h)
  refine eq_of_value_eq (isNumeral_padZeros.mpr (isNumeral_toDigits _)) h ?_ ?_
  · rw [length_padZeros, Nat.max_eq_left hshort]
  · rw [numeralValue_padZeros, numeralValue_toDigits]

/-- A factor of ten is a zero behind. -/
theorem toDigits_mul_pow {s : Nat} (hs : 0 < s) (j : Nat) :
    Nat.toDigits 10 (s * 10 ^ j) = Nat.toDigits 10 s ++ List.replicate j '0' := by
  induction j with
  | zero => rw [Nat.pow_zero, Nat.mul_one, List.replicate_zero, List.append_nil]
  | succ j ih =>
    have hpos : 0 < s * 10 ^ j := Nat.mul_pos hs (Nat.pow_pos (by decide))
    have hstep := Nat.toDigits_append_toDigits (b := 10) (by decide) hpos (d := 0) (by decide)
    rw [Nat.toDigits_zero, Nat.add_zero, ih] at hstep
    rw [Nat.pow_succ, ← Nat.mul_assoc, Nat.mul_comm (s * 10 ^ j), ← hstep, List.append_assoc,
      List.replicate_succ']

end ShieldApi
