import ShieldApi.Assets.TokenRoundTrip
import ShieldApi.Lib.Numerals

/-!
# Whole numbers in doubles

A number is a double. Up to `2 ^ 53` every whole number is one, a sum is exact, and `String` writes its
decimal digits. **Beyond, a double is even** (`roundToDouble_even`), and what is written of it is no odd
number (`even_natText`): it is the shortest decimal that is rounded to it, with zeros behind, and from
`1e21` with an exponent.
-/

set_option autoImplicit false

namespace ShieldApi

/-! ## 1. Arithmetic -/

namespace JsNumber

/-- The double of an exact result. -/
def ofInt (n : Int) : JsNumber := .ofNat (n < 0) n.natAbs

def neg : JsNumber → JsNumber
  | .nan => .nan
  | .infinite negative => .infinite !negative
  | .finite n => .finite (-n)

/-- `a + b`. -/
def add : JsNumber → JsNumber → JsNumber
  | .finite m, .finite n => .ofInt (m + n)
  | .infinite a, .infinite b => if a = b then .infinite a else .nan
  | .infinite a, .finite _ | .finite _, .infinite a => .infinite a
  | .nan, _ | _, .nan => .nan

/-- `a - b`. -/
def sub (a b : JsNumber) : JsNumber := a.add b.neg

/-- `a < b`. -/
def lt : JsNumber → JsNumber → Bool
  | .finite m, .finite n => m < n
  | .infinite true, .finite _ | .infinite true, .infinite false | .finite _, .infinite false => true
  | _, _ => false

/-- `Math.max(n, 0)`. -/
def maxZero : JsNumber → JsNumber
  | .nan => .nan
  | .infinite negative => if negative then .finite 0 else .infinite false
  | .finite n => .finite (max n 0)

end JsNumber

/-! ## 2. Texts -/

/-- `s * 10 ^ j` is rounded to `x`, with as great a `j` as there is, up to a bound, and of two `s` the
    nearer one. -/
def shortestDigits (x : Nat) : Nat → Nat × Nat
  | 0 => (x, 0)
  | j + 1 =>
    let unit := 10 ^ (j + 1)
    let s := x / unit
    let r := x % unit
    let below := roundToDouble (s * unit) = x
    let above := roundToDouble ((s + 1) * unit) = x
    if below ∧ (¬ above ∨ 2 * r < unit ∨ 2 * r = unit ∧ s % 2 = 0) then (s, j + 1)
    else if above then (s + 1, j + 1)
    else shortestDigits x j

/-- `String(x)`, of a double that is a natural number. -/
def natText (x : Nat) : List Char :=
  if x = 0 then ['0']
  else
    let (s, j) := shortestDigits x (Nat.toDigits 10 x).length
    let digits := Nat.toDigits 10 s
    let exponent := digits.length + j
    if exponent ≤ 21 then digits ++ List.replicate j '0'
    else
      let fraction := if digits.tail = [] then [] else '.' :: digits.tail
      digits.take 1 ++ fraction ++ "e+".toList ++ Nat.toDigits 10 (exponent - 1)

def JsNumber.toChars : JsNumber → List Char
  | .nan => "NaN".toList
  | .infinite negative => (if negative then "-Infinity" else "Infinity").toList
  | .finite n => (if n < 0 then ['-'] else []) ++ natText n.natAbs

/-! ## 3. Rounding -/

/-- The result is a multiple of the unit, next to the number. -/
theorem roundToDouble_eq (n : Nat) : ∃ q, roundToDouble n = q * 2 ^ (n.log2 - 52) ∧
    n / 2 ^ (n.log2 - 52) ≤ q ∧ q ≤ n / 2 ^ (n.log2 - 52) + 1 := by
  unfold roundToDouble
  simp only
  split
  · exact ⟨_, rfl, Nat.le_succ _, Nat.le_refl _⟩
  · exact ⟨_, rfl, Nat.le_refl _, Nat.le_succ _⟩

/-- A multiple of its own unit is a double. -/
theorem roundToDouble_of_dvd {d : Nat} (h : 2 ^ (d.log2 - 52) ∣ d) : roundToDouble d = d := by
  have hmod : d % 2 ^ (d.log2 - 52) = 0 := Nat.mod_eq_zero_of_dvd h
  have hpos : 0 < 2 ^ (d.log2 - 52) := Nat.two_pow_pos _
  unfold roundToDouble
  simp only [hmod]
  rw [if_neg (by simp [hpos.ne])]
  exact Nat.div_mul_cancel h

theorem roundToDouble_of_le {n : Nat} (h : n ≤ 9007199254740992) : roundToDouble n = n := by
  rcases Nat.lt_or_eq_of_le h with hlt | rfl
  · exact roundToDouble_of_lt hlt
  · exact roundToDouble_of_dvd (by decide)

/-- **Doubles are doubles.** -/
theorem roundToDouble_idem (n : Nat) : roundToDouble (roundToDouble n) = roundToDouble n := by
  by_cases hsmall : n ≤ 9007199254740992
  · rw [roundToDouble_of_le hsmall, roundToDouble_of_le hsmall]
  have hn : n ≠ 0 := by omega
  have hlog : 52 ≤ n.log2 := (Nat.le_log2 hn).mpr (by omega)
  obtain ⟨q, hround, -, hq⟩ := roundToDouble_eq n
  apply roundToDouble_of_dvd
  -- it is at most the next power of two
  have hunit : 2 ^ (n.log2 + 1) = 2 ^ 53 * 2 ^ (n.log2 - 52) := by
    rw [← Nat.pow_add]
    congr 1
    omega
  have hquot : n / 2 ^ (n.log2 - 52) < 2 ^ 53 := by
    rw [Nat.div_lt_iff_lt_mul (Nat.two_pow_pos _), ← hunit]
    exact Nat.lt_log2_self
  have hle : roundToDouble n ≤ 2 ^ (n.log2 + 1) := by
    rw [hround, hunit]
    exact Nat.mul_le_mul_right _ (by omega)
  rcases Nat.lt_or_eq_of_le hle with hlt | heq
  · rw [hround] at hlt ⊢
    by_cases hzero : q * 2 ^ (n.log2 - 52) = 0
    · rw [hzero]
      exact Nat.dvd_zero _
    · have hlog' := (Nat.log2_lt hzero).mpr hlt
      exact Nat.dvd_mul_left_of_dvd (Nat.pow_dvd_pow 2 (by omega)) q
  · rw [heq, Nat.log2_two_pow]
    exact Nat.pow_dvd_pow 2 (by omega)

/-- **Beyond `2 ^ 53` a double is even.** -/
theorem roundToDouble_even {n : Nat} (h : 9007199254740992 < n) : 2 ∣ roundToDouble n := by
  have hlog : 53 ≤ n.log2 := (Nat.le_log2 (by omega)).mpr (by omega)
  obtain ⟨q, hround, -, -⟩ := roundToDouble_eq n
  have htwo : 2 ∣ 2 ^ (n.log2 - 52) := Nat.pow_dvd_pow 2 (show 1 ≤ n.log2 - 52 by omega)
  rw [hround]
  exact Nat.dvd_mul_left_of_dvd htwo q

/-- An even number beyond `2 ^ 53` is not rounded down to it. -/
theorem lt_roundToDouble {n : Nat} (h : 9007199254740992 < n) (heven : 2 ∣ n) :
    9007199254740992 < roundToDouble n := by
  have hlog : 53 ≤ n.log2 := (Nat.le_log2 (by omega)).mpr (by omega)
  obtain ⟨q, hround, hq, -⟩ := roundToDouble_eq n
  rw [hround]
  rcases Nat.lt_or_eq_of_le hlog with hlt | heq
  · have hpow : 2 ^ 54 ≤ 2 ^ n.log2 := Nat.pow_le_pow_right (by decide) hlt
    have hsplit : 2 ^ n.log2 = 2 ^ 52 * 2 ^ (n.log2 - 52) := by
      rw [← Nat.pow_add]
      congr 1
      omega
    have hquot : 2 ^ 52 ≤ n / 2 ^ (n.log2 - 52) := by
      rw [Nat.le_div_iff_mul_le (Nat.two_pow_pos _), ← hsplit]
      exact Nat.log2_self_le (by omega)
    have hmul := Nat.mul_le_mul_right (2 ^ (n.log2 - 52)) (hquot.trans hq)
    omega
  · rw [← heq] at hq ⊢
    omega

/-- What is rounded to a number up to `2 ^ 53` is that number, if it is even. -/
theorem eq_of_roundToDouble_eq {n x : Nat} (heven : 2 ∣ n) (hx : x ≤ 9007199254740992)
    (h : roundToDouble n = x) : n = x := by
  by_cases hn : n ≤ 9007199254740992
  · rw [← h, roundToDouble_of_le hn]
  · have hlt := lt_roundToDouble (Nat.lt_of_not_le hn) heven
    omega

/-! ## 4. What is written -/

/-- Either no zero is split off, or what is left of the number is rounded to it. -/
theorem shortestDigits_cases (x bound : Nat) :
    ((shortestDigits x bound).2 = 0 ∧ (shortestDigits x bound).1 = x) ∨
      (0 < (shortestDigits x bound).2 ∧
        roundToDouble ((shortestDigits x bound).1 * 10 ^ (shortestDigits x bound).2) = x) := by
  induction bound with
  | zero => exact .inl ⟨rfl, rfl⟩
  | succ j ih =>
    rw [shortestDigits]
    split
    · next h => exact .inr ⟨Nat.succ_pos j, h.1⟩
    · split
      · next h => exact .inr ⟨Nat.succ_pos j, h⟩
      · exact ih

theorem shortestDigits_exact {x : Nat} (hx : x ≤ 9007199254740992) (bound : Nat) :
    (shortestDigits x bound).1 * 10 ^ (shortestDigits x bound).2 = x := by
  rcases shortestDigits_cases x bound with ⟨hj, hs⟩ | ⟨hj, hround⟩
  · rw [hj, hs, Nat.pow_zero, Nat.mul_one]
  · have hten : 2 ∣ 10 ^ (shortestDigits x bound).2 :=
      Nat.dvd_trans (by decide) (Nat.pow_dvd_pow 10 (show 1 ≤ (shortestDigits x bound).2 from hj))
    exact eq_of_roundToDouble_eq (Nat.dvd_mul_left_of_dvd hten _) hx hround

/-- **Up to `2 ^ 53` a number is written in decimal.** -/
theorem natText_of_le {x : Nat} (hx : x ≤ 9007199254740992) : natText x = Nat.toDigits 10 x := by
  unfold natText
  by_cases hzero : x = 0
  · rw [if_pos hzero, hzero]
    rfl
  rw [if_neg hzero]
  have hexact := shortestDigits_exact hx (Nat.toDigits 10 x).length
  have hpos : 0 < (shortestDigits x (Nat.toDigits 10 x).length).1 := by
    by_contra hs
    rw [Nat.eq_zero_of_not_pos hs, Nat.zero_mul] at hexact
    exact hzero hexact.symm
  have hdigits := toDigits_mul_pow hpos (shortestDigits x (Nat.toDigits 10 x).length).2
  have hshort : (Nat.toDigits 10 x).length ≤ 16 :=
    (Nat.length_toDigits_le_iff (by decide) (by decide)).mpr (by omega)
  rw [hexact] at hdigits
  have hlength := congrArg List.length hdigits
  rw [List.length_append, List.length_replicate] at hlength
  simp only
  rw [if_pos (by omega), ← hdigits]

/-- **What is written of an even number is no odd number.** -/
theorem even_natText {x : Nat} (heven : 2 ∣ x) (h : IsNumeral (natText x)) :
    2 ∣ numeralValue (natText x) := by
  unfold natText at h ⊢
  by_cases hzero : x = 0
  · rw [if_pos hzero]
    decide
  rw [if_neg hzero] at h ⊢
  simp only at h ⊢
  split at h
  · next hplain =>
    rw [if_pos hplain, numeralValue, Nat.ofDigitChars_append, Nat.ofDigitChars_replicate_zero,
      ← numeralValue, numeralValue_toDigits]
    rcases shortestDigits_cases x (Nat.toDigits 10 x).length with ⟨hj, hs⟩ | ⟨hj, -⟩
    · rw [hj, hs, Nat.pow_zero, Nat.one_mul]
      exact heven
    · have hten : 2 ∣ 10 ^ (shortestDigits x (Nat.toDigits 10 x).length).2 :=
        Nat.dvd_trans (by decide) (Nat.pow_dvd_pow 10 hj)
      exact Nat.dvd_mul_right_of_dvd hten _
  · -- an exponent is no digit
    have hmem := isNumeral_append.mp (isNumeral_append.mp h).1
    exact absurd (hmem.2 'e' (by decide)) (by decide)

end ShieldApi
