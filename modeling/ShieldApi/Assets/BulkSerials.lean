import ShieldApi.Assets.Doubles
import ShieldApi.Assets.ValidatorErrors

/-!
# Serial numbers in bulk

A request for a range of signed addresses names its first and its last serial number. Both are cut
into a prefix and a numeral, the numerals are read by `parseInt`, and what is between them is
written again, padded to the width of the first numeral.

**The serial numbers are the right ones exactly up to `2 ^ 53`** (`generateSignedUrlBulk_right_iff`): beyond, a
numeral is rounded when it is read, and a range of two is never right. A single one may be, where
`parseInt` and `String` happen to give it back.
-/

set_option autoImplicit false

namespace ShieldApi

open Effect

/-! ## 1. Requests -/

inductive BulkMethod
  | sequential | manual
  deriving DecidableEq, Repr

structure BulkGenerateSignedTagUrl where
  method : BulkMethod
  serialNumbers : Option (List String) := none
  serialNumberRangeStart : Option String := none
  serialNumberRangeEnd : Option String := none
  keyId : Option String := none
  deriving DecidableEq, Repr

/-- What `.` does not match. -/
def isLineTerminator (c : Char) : Bool := c.toNat ∈ [10, 13, 8232, 8233]

/-- `serial.match(/^(.*?)(\d+)$/)`: what is before the digits at the end, and the digits. -/
def splitSerial (serial : String) : Option (List Char × List Char) :=
  let backwards := serial.toList.reverse
  let front := (backwards.dropWhile Char.isDigit).reverse
  let numeric := (backwards.takeWhile Char.isDigit).reverse
  if numeric = [] ∨ front.any isLineTerminator = true then none else some (front, numeric)

/-- `parseInt`, of a numeral. -/
def parseNumeral (numeric : List Char) : JsNumber := parseInt (some (String.ofList numeric))

namespace BulkGenerateSignedTagUrl

/-- `/^[A-Za-z0-9_-]*\d+$/`. -/
def isSerialNumber (s : String) : Bool :=
  s.toList.all (fun c => c.isAlphanum || c = '_' || c = '-') && s.toList.getLast?.any Char.isDigit

/-- The types of the fields. -/
def wellTyped (data : BulkGenerateSignedTagUrl) : Bool :=
  data.serialNumbers.all (·.all isSerialNumber) && data.serialNumberRangeStart.all isSerialNumber &&
    data.serialNumberRangeEnd.all isSerialNumber

/-- What is wrong with a range. -/
def rangeIssues (first last : String) : List String :=
  let startMatch := splitSerial first
  let endMatch := splitSerial last
  let startPrefix := (startMatch.map (·.1)).getD []
  let endPrefix := (endMatch.map (·.1)).getD []
  let startNum := parseNumeral ((startMatch.map (·.2)).getD ['0'])
  let endNum := parseNumeral ((endMatch.map (·.2)).getD ['0'])
  (if startPrefix ≠ endPrefix then
    ["Serial number range start and end must have the same prefix"] else []) ++
  (if endNum.lt startNum then
    ["Serial number range start must not be greater than range end"] else []) ++
  (if (JsNumber.finite 100000).lt ((endNum.sub startNum).add (.finite 1)) then
    ["Sequential range cannot exceed 100,000 serial numbers"] else [])

/-- `superRefine`. -/
def issues (data : BulkGenerateSignedTagUrl) : List String :=
  match data.method with
  | .sequential =>
    match truthy data.serialNumberRangeStart, truthy data.serialNumberRangeEnd with
    | some first, some last => rangeIssues first last
    | _, _ => ["Serial number range start and end are required for sequential method"]
  | .manual =>
    if data.serialNumbers.isNone then ["Serial numbers are required for manual method"] else []

/-- What `BulkGenerateSignedTagUrlSchema` lets through. -/
def Accepted (data : BulkGenerateSignedTagUrl) : Prop :=
  data.wellTyped = true ∧ data.issues = []

end BulkGenerateSignedTagUrl

/-! ## 2. The generator -/

namespace TagsService

def parseSerialNumber (serial : String) : List Char × List Char :=
  (splitSerial serial).getD ([], serial.toList)

/-- How often the body of `for (let i = 0; i < n; i++)` runs, if the loop ends. -/
def loopCount : JsNumber → Option Nat
  | .nan => some 0
  | .infinite negative => if negative then some 0 else none
  | .finite n => some n.toNat

def serialNumberCount (dto : BulkGenerateSignedTagUrl) : JsNumber :=
  let start := parseSerialNumber (dto.serialNumberRangeStart.getD "0")
  let last := parseSerialNumber (dto.serialNumberRangeEnd.getD "0")
  JsNumber.maxZero (match dto.method with
    | .sequential => ((parseNumeral last.2).sub (parseNumeral start.2)).add (.finite 1)
    | .manual => .finite ((dto.serialNumbers.map List.length).getD 0))

def getSerialNumber (dto : BulkGenerateSignedTagUrl) (idx : Nat) : Option String :=
  let start := parseSerialNumber (dto.serialNumberRangeStart.getD "0")
  match dto.method with
  | .sequential => some (String.ofList (start.1 ++
      padZeros start.2.length ((parseNumeral start.2).add (.finite idx)).toChars))
  | .manual => dto.serialNumbers.bind (·[idx]?)

/-- The serial numbers the generator comes to, if it ends. -/
def bulkSerialNumbers (dto : BulkGenerateSignedTagUrl) : Option (List String) :=
  (loopCount (serialNumberCount dto)).map fun n =>
    (List.range n).filterMap fun i => truthy (getSerialNumber dto i)

structure SignedUrl where
  serialNumber : String
  tagUrl : String
  keyId : String
  timestamp : Nat

/-- `tagUrl` writes the address with its parameters; `id` is drawn for this one. -/
def generateSignedUrl (crypto : TokenCrypto) (tagUrl : List (String × String) → String) (env : Env)
    (keyId serialNumber id : String) : AssetApi SignedUrl := do
  let timestamp : JsNumber := .finite env.now
  let signature ← generateTagUrlSignature crypto serialNumber id timestamp keyId
  let urlParams := [("sn", serialNumber), ("id", id), ("t", timestamp.text crypto),
    ("sig", signature), ("kid", keyId)]
  pure { serialNumber, tagUrl := tagUrl urlParams, keyId, timestamp := env.now }

/-- All that is yielded, if the generator ends. -/
def generateSignedUrlBulk (crypto : TokenCrypto) (tagUrl : List (String × String) → String)
    (env : Env) (dto : BulkGenerateSignedTagUrl) : Option (AssetApi (List SignedUrl)) :=
  (bulkSerialNumbers dto).map fun serialNumbers =>
    forEach serialNumbers.zipIdx fun (serialNumber, i) =>
      generateSignedUrl crypto tagUrl env (dto.keyId.getD crypto.defaultSigningKeyId) serialNumber
        (env.cuid i)

end TagsService

/-! ## 3. Serial numbers and their parts -/

section Split

variable {serial : String} {front numeric : List Char}

/-- Digits behind something that does not end in one are all that is taken off. -/
theorem takeDigits {l m : List Char} (hl : IsNumeral l) (hm : ∀ c ∈ m.head?, c.isDigit = false) :
    (l ++ m).takeWhile Char.isDigit = l ∧ (l ++ m).dropWhile Char.isDigit = m := by
  rw [List.takeWhile_append_of_pos hl, List.dropWhile_append_of_pos hl]
  cases m with
  | nil => exact ⟨List.append_nil l, rfl⟩
  | cons c m =>
    have hc : ¬ c.isDigit = true := by simp [hm c rfl]
    rw [List.takeWhile_cons_of_neg hc, List.dropWhile_cons_of_neg hc]
    exact ⟨List.append_nil l, rfl⟩

theorem splitSerial_eq_some : splitSerial serial = some (front, numeric) ↔
    serial.toList = front ++ numeric ∧ IsNumeral numeric ∧ numeric ≠ [] ∧
      (∀ c ∈ front.getLast?, c.isDigit = false) ∧ front.any isLineTerminator = false := by
  unfold splitSerial
  simp only
  constructor
  · intro h
    split at h
    · exact nomatch h
    · next hmatch =>
      obtain ⟨rfl, rfl⟩ := Prod.mk.inj (Option.some.inj h)
      rw [not_or, Bool.not_eq_true] at hmatch
      refine ⟨?_, fun c hc => ?_, hmatch.1, fun c hc => ?_, hmatch.2⟩
      · rw [← List.reverse_append, List.takeWhile_append_dropWhile, List.reverse_reverse]
      · exact List.mem_takeWhile_imp (List.mem_reverse.mp hc)
      · rw [List.getLast?_reverse] at hc
        have hhead := List.head?_dropWhile_not Char.isDigit serial.toList.reverse
        rw [Option.mem_def.mp hc] at hhead
        simpa using hhead
  · rintro ⟨hserial, hnumeral, hne, hlast, hline⟩
    have hparts := takeDigits (l := numeric.reverse) (m := front.reverse)
      (fun c hc => hnumeral c (List.mem_reverse.mp hc)) (by rwa [List.head?_reverse])
    rw [hserial, List.reverse_append, hparts.1, hparts.2, List.reverse_reverse,
      List.reverse_reverse, if_neg (by simp [hne, hline])]

/-- Another numeral behind the same prefix is cut off as well. -/
theorem splitSerial_append (h : splitSerial serial = some (front, numeric)) {l : List Char}
    (hl : IsNumeral l) (hne : l ≠ []) :
    splitSerial (String.ofList (front ++ l)) = some (front, l) := by
  obtain ⟨-, -, -, hlast, hline⟩ := splitSerial_eq_some.mp h
  exact splitSerial_eq_some.mpr ⟨String.toList_ofList, hl, hne, hlast, hline⟩

theorem parseNumeral_eq (h : IsNumeral numeric) (hne : numeric ≠ []) :
    parseNumeral numeric = .ofNat false (numeralValue numeric) := by
  cases numeric with
  | nil => exact absurd rfl hne
  | cons c rest => exact parseInt_ofList h

end Split

/-! ## 4. Numbers -/

namespace JsNumber

theorem ofInt_natCast (n : Nat) : JsNumber.ofInt n = .ofNat false n := by
  unfold JsNumber.ofInt
  rw [Int.natAbs_natCast, decide_eq_false (by omega)]

theorem ofNat_of_le {n : Nat} (h : n ≤ 9007199254740992) :
    JsNumber.ofNat false n = .finite n := by
  rcases Nat.lt_or_eq_of_le h with hlt | rfl
  · exact ShieldApi.ofNat_of_lt hlt
  · decide

/-- What a double may be. -/
theorem ofNat_cases (n : Nat) : JsNumber.ofNat false n = .finite (roundToDouble n) ∨
    JsNumber.ofNat false n = .infinite false := by
  unfold JsNumber.ofNat
  simp only
  split
  · exact .inl rfl
  · exact .inr rfl

/-- Nothing is lost by adding zero. -/
theorem ofNat_add_zero (n : Nat) : (JsNumber.ofNat false n).add (.finite 0) = .ofNat false n := by
  by_cases hfinite : (roundToDouble n).log2 < 1024
  · have hnum : JsNumber.ofNat false n = .finite (roundToDouble n) := if_pos hfinite
    rw [hnum]
    show JsNumber.ofInt ((roundToDouble n : Int) + 0) = _
    rw [Int.add_zero, ofInt_natCast]
    unfold JsNumber.ofNat
    rw [roundToDouble_idem]
    exact if_pos hfinite
  · have hnum : JsNumber.ofNat false n = .infinite false := if_neg hfinite
    rw [hnum]
    rfl

theorem toChars_natCast (n : Nat) : (JsNumber.finite n).toChars = natText n := by
  show (if (n : Int) < 0 then ['-'] else []) ++ natText (n : Int).natAbs = natText n
  rw [if_neg (by omega), List.nil_append, Int.natAbs_natCast]

theorem not_isNumeral_infinite : ¬ IsNumeral (JsNumber.infinite false).toChars := fun h =>
  absurd (h 'I' (by decide)) (by decide)

/-- **What is written of a sum is no odd number beyond `2 ^ 53`.** -/
theorem value_add_ne (m n : Nat) {odd : Nat} (hodd : ¬ 2 ∣ odd) (hlarge : 9007199254740992 < odd)
    (hnumeral : IsNumeral ((JsNumber.ofNat false m).add (.finite n)).toChars) :
    numeralValue ((JsNumber.ofNat false m).add (.finite n)).toChars ≠ odd := by
  have hsum : ∀ k : Nat, IsNumeral (JsNumber.ofNat false k).toChars →
      numeralValue (JsNumber.ofNat false k).toChars ≠ odd := by
    intro k hk
    rcases ofNat_cases k with hfinite | hinfinite
    · rw [hfinite] at hk ⊢
      rw [toChars_natCast] at hk ⊢
      by_cases hle : k ≤ 9007199254740992
      · rw [roundToDouble_of_le hle, natText_of_le hle, numeralValue_toDigits]
        omega
      · intro heq
        exact hodd (heq ▸ even_natText (roundToDouble_even (Nat.lt_of_not_le hle)) hk)
    · rw [hinfinite] at hk
      exact absurd hk not_isNumeral_infinite
  rcases ofNat_cases m with hfinite | hinfinite
  · rw [hfinite] at hnumeral ⊢
    have hadd : (JsNumber.finite (roundToDouble m)).add (.finite n) =
        .ofNat false (roundToDouble m + n) := by
      rw [← ofInt_natCast]
      rfl
    rw [hadd] at hnumeral ⊢
    exact hsum _ hnumeral
  · rw [hinfinite] at hnumeral
    exact absurd hnumeral not_isNumeral_infinite

end JsNumber

/-! ## 5. Ranges -/

namespace BulkGenerateSignedTagUrl

/-- The parts of the first serial number of a range. -/
def first (dto : BulkGenerateSignedTagUrl) : List Char × List Char :=
  TagsService.parseSerialNumber (dto.serialNumberRangeStart.getD "0")

/-- The parts of the last one. -/
def last (dto : BulkGenerateSignedTagUrl) : List Char × List Char :=
  TagsService.parseSerialNumber (dto.serialNumberRangeEnd.getD "0")

/-- **The serial numbers a range stands for.** -/
structure RightSerials (dto : BulkGenerateSignedTagUrl) (serials : List String) : Prop where
  count : (serials.length : Int) = numeralValue dto.last.2 - numeralValue dto.first.2 + 1
  distinct : serials.Nodup
  each : ∀ i, i < serials.length → serials[i]? = some (String.ofList (dto.first.1 ++
    padZeros dto.first.2.length (Nat.toDigits 10 (numeralValue dto.first.2 + i))))
  first : serials.head? = dto.serialNumberRangeStart
  last : ∃ s, serials.getLast? = some s ∧
    numeralValue (TagsService.parseSerialNumber s).2 = numeralValue dto.last.2

/-- The range goes up to `2 ^ 53` at most, or it is one serial number whose numeral `parseInt` and
    `String` give back. -/
def Exact (dto : BulkGenerateSignedTagUrl) : Prop :=
  numeralValue dto.first.2 ≤ numeralValue dto.last.2 ∧
    (numeralValue dto.last.2 ≤ 9007199254740992 ∨
      numeralValue dto.first.2 = numeralValue dto.last.2 ∧
        padZeros dto.first.2.length (parseNumeral dto.first.2).toChars = dto.first.2)

/-- What is known of the parts of an accepted range. -/
structure Range (dto : BulkGenerateSignedTagUrl) : Prop where
  method : dto.method = .sequential
  first : ∃ s, dto.serialNumberRangeStart = some s ∧ splitSerial s = some dto.first
  last : ∃ s, dto.serialNumberRangeEnd = some s ∧ splitSerial s = some dto.last
  ordered : (parseNumeral dto.last.2).lt (parseNumeral dto.first.2) = false
  small : (JsNumber.finite 100000).lt
    (((parseNumeral dto.last.2).sub (parseNumeral dto.first.2)).add (.finite 1)) = false

theorem isLineTerminator_of_class {c : Char}
    (h : (c.isAlphanum || c = '_' || c = '-') = true) : isLineTerminator c = false := by
  by_contra hline
  rw [Bool.not_eq_false, isLineTerminator, decide_eq_true_eq] at hline
  simp only [List.mem_cons, List.not_mem_nil, or_false] at hline
  rcases hline with hc | hc | hc | hc
  · obtain rfl : c = '\n' := Char.toNat_inj.mp hc
    exact absurd h (by decide)
  · obtain rfl : c = '\r' := Char.toNat_inj.mp hc
    exact absurd h (by decide)
  · obtain rfl : c = '\u2028' := Char.toNat_inj.mp hc
    exact absurd h (by decide)
  · obtain rfl : c = '\u2029' := Char.toNat_inj.mp hc
    exact absurd h (by decide)

theorem splitSerial_of_isSerialNumber {s : String} (h : isSerialNumber s = true) :
    ∃ parts, splitSerial s = some parts := by
  rw [isSerialNumber, Bool.and_eq_true, List.all_eq_true] at h
  obtain ⟨hall, hlast⟩ := h
  unfold splitSerial
  simp only
  rw [if_neg]
  · exact ⟨_, rfl⟩
  · rw [not_or]
    constructor
    · intro hnil
      rw [← List.head?_reverse] at hlast
      cases hchars : s.toList.reverse with
      | nil =>
        rw [hchars] at hlast
        exact nomatch hlast
      | cons c rest =>
        rw [hchars] at hlast hnil
        rw [List.takeWhile_cons_of_pos (show c.isDigit = true from hlast)] at hnil
        simp at hnil
    · intro hline
      obtain ⟨c, hc, hterminator⟩ := List.any_eq_true.mp hline
      have hmem : c ∈ s.toList := by
        rw [List.mem_reverse] at hc
        exact List.mem_reverse.mp ((List.dropWhile_sublist _).subset hc)
      exact absurd hterminator (Bool.eq_false_iff.mp (isLineTerminator_of_class (hall c hmem)))

theorem Accepted.range {dto : BulkGenerateSignedTagUrl} (h : dto.Accepted)
    (hmethod : dto.method = .sequential) : dto.Range := by
  obtain ⟨htyped, hissues⟩ := h
  simp only [wellTyped, Bool.and_eq_true, Option.all_eq_true] at htyped
  rw [issues, hmethod] at hissues
  simp only at hissues
  split at hissues
  · next first last hfirst hlast =>
    obtain ⟨hstart, -⟩ := truthy_eq_some.mp hfirst
    obtain ⟨hend, -⟩ := truthy_eq_some.mp hlast
    obtain ⟨p, hp⟩ := splitSerial_of_isSerialNumber (htyped.1.2 first hstart)
    obtain ⟨q, hq⟩ := splitSerial_of_isSerialNumber (htyped.2 last hend)
    have hfirstParts : dto.first = p := by
      rw [BulkGenerateSignedTagUrl.first, hstart, Option.getD_some, TagsService.parseSerialNumber,
        hp, Option.getD_some]
    have hlastParts : dto.last = q := by
      rw [BulkGenerateSignedTagUrl.last, hend, Option.getD_some, TagsService.parseSerialNumber,
        hq, Option.getD_some]
    simp only [rangeIssues, hp, hq, Option.map_some, Option.getD_some, List.append_eq_nil_iff,
      ite_eq_right_iff, imp_false, Bool.not_eq_true, List.cons_ne_nil] at hissues
    refine ⟨hmethod, ⟨first, hstart, hfirstParts ▸ hp⟩, ⟨last, hend, hlastParts ▸ hq⟩, ?_, ?_⟩
    · rw [hfirstParts, hlastParts]
      exact hissues.1.2
    · rw [hfirstParts, hlastParts]
      exact hissues.2
  · exact nomatch hissues

namespace Range

variable {dto : BulkGenerateSignedTagUrl}

/-- The `i`-th serial number of a range, as it is computed. -/
def item (dto : BulkGenerateSignedTagUrl) (i : Nat) : String :=
  String.ofList (dto.first.1 ++
    padZeros dto.first.2.length ((parseNumeral dto.first.2).add (.finite i)).toChars)

theorem isNumeral_first (h : dto.Range) : IsNumeral dto.first.2 ∧ dto.first.2 ≠ [] := by
  obtain ⟨s, -, hs⟩ := h.first
  obtain ⟨-, hnumeral, hne, -⟩ := splitSerial_eq_some.mp hs
  exact ⟨hnumeral, hne⟩

theorem isNumeral_last (h : dto.Range) : IsNumeral dto.last.2 ∧ dto.last.2 ≠ [] := by
  obtain ⟨s, -, hs⟩ := h.last
  obtain ⟨-, hnumeral, hne, -⟩ := splitSerial_eq_some.mp hs
  exact ⟨hnumeral, hne⟩

/-- The first serial number is its parts. -/
theorem start_eq (h : dto.Range) :
    dto.serialNumberRangeStart = some (String.ofList (dto.first.1 ++ dto.first.2)) := by
  obtain ⟨s, hstart, hs⟩ := h.first
  have hchars : s.toList = dto.first.1 ++ dto.first.2 := (splitSerial_eq_some.mp hs).1
  rw [hstart, ← hchars, String.ofList_toList]

theorem truthy_item (dto : BulkGenerateSignedTagUrl) (h : dto.first.2 ≠ []) (i : Nat) :
    truthy (some (item dto i)) = some (item dto i) := by
  refine truthy_eq_some.mpr ⟨rfl, fun hempty => h ?_⟩
  have hchars := congrArg String.toList hempty
  rw [item, String.toList_ofList] at hchars
  have hlength := congrArg List.length (List.append_eq_nil_iff.mp hchars).2
  rw [length_padZeros] at hlength
  exact List.length_eq_zero_iff.mp (Nat.le_zero.mp ((Nat.le_max_left _ _).trans hlength.le))

/-- **The loop of a range ends.** -/
theorem bulkSerialNumbers_eq (h : dto.Range) : ∃ n,
    TagsService.loopCount (TagsService.serialNumberCount dto) = some n ∧
      TagsService.bulkSerialNumbers dto = some ((List.range n).map (item dto)) := by
  have hcount : TagsService.serialNumberCount dto = JsNumber.maxZero
      (((parseNumeral dto.last.2).sub (parseNumeral dto.first.2)).add (.finite 1)) := by
    unfold TagsService.serialNumberCount
    rw [h.method]
    rfl
  have hends : ∃ n, TagsService.loopCount (TagsService.serialNumberCount dto) = some n := by
    have hsmall := h.small
    rw [hcount]
    cases hdiff : ((parseNumeral dto.last.2).sub (parseNumeral dto.first.2)).add (.finite 1) with
    | nan => exact ⟨0, rfl⟩
    | finite n => exact ⟨_, rfl⟩
    | infinite negative =>
      cases negative with
      | true => exact ⟨0, rfl⟩
      | false =>
        rw [hdiff] at hsmall
        exact nomatch hsmall
  obtain ⟨n, hn⟩ := hends
  refine ⟨n, hn, ?_⟩
  have hitems : ∀ i, truthy (TagsService.getSerialNumber dto i) = some (item dto i) := by
    intro i
    rw [← truthy_item dto h.isNumeral_first.2 i]
    unfold TagsService.getSerialNumber
    rw [h.method]
    rfl
  unfold TagsService.bulkSerialNumbers
  rw [hn, Option.map_some]
  simp only [hitems, List.filterMap_eq_map']

/-! ### How many -/

theorem parse_first (h : dto.Range) :
    parseNumeral dto.first.2 = .ofNat false (numeralValue dto.first.2) :=
  parseNumeral_eq h.isNumeral_first.1 h.isNumeral_first.2

theorem parse_last (h : dto.Range) :
    parseNumeral dto.last.2 = .ofNat false (numeralValue dto.last.2) :=
  parseNumeral_eq h.isNumeral_last.1 h.isNumeral_last.2

/-- The count of a range up to `2 ^ 53`. -/
theorem count_of_le (h : dto.Range)
    (hle : numeralValue dto.first.2 ≤ numeralValue dto.last.2)
    (hlarge : numeralValue dto.last.2 ≤ 9007199254740992) :
    TagsService.serialNumberCount dto =
      .finite (numeralValue dto.last.2 - numeralValue dto.first.2 + 1 : Nat) := by
  have hsmall := h.small
  unfold TagsService.serialNumberCount
  rw [h.method]
  show JsNumber.maxZero (((parseNumeral dto.last.2).sub (parseNumeral dto.first.2)).add _) = _
  rw [h.parse_first, h.parse_last] at hsmall ⊢
  have hdiff : (JsNumber.ofNat false (numeralValue dto.last.2)).sub
      (JsNumber.ofNat false (numeralValue dto.first.2)) =
        .finite (numeralValue dto.last.2 - numeralValue dto.first.2 : Nat) := by
    rw [JsNumber.ofNat_of_le hlarge, JsNumber.ofNat_of_le (hle.trans hlarge)]
    show JsNumber.ofInt ((numeralValue dto.last.2 : Int) + -(numeralValue dto.first.2 : Int)) = _
    rw [← sub_eq_add_neg, ← Nat.cast_sub hle, JsNumber.ofInt_natCast,
      JsNumber.ofNat_of_le (by omega)]
  have hadd : (JsNumber.finite (numeralValue dto.last.2 - numeralValue dto.first.2 : Nat)).add
      (.finite 1) = .ofNat false (numeralValue dto.last.2 - numeralValue dto.first.2 + 1) := by
    rw [← JsNumber.ofInt_natCast]
    rfl
  rw [hdiff, hadd] at hsmall ⊢
  by_cases hexact : numeralValue dto.last.2 - numeralValue dto.first.2 + 1 ≤ 9007199254740992
  · rw [JsNumber.ofNat_of_le hexact]
    show JsNumber.finite (max _ 0) = _
    rw [max_eq_left (Int.natCast_nonneg _)]
  · -- from `0` to `2 ^ 53`, which is too many
    have hall : numeralValue dto.last.2 - numeralValue dto.first.2 + 1 = 9007199254740993 := by
      omega
    rw [hall] at hsmall
    exact absurd hsmall (by decide)

/-- The count of a range of one. -/
theorem count_of_eq (h : dto.Range)
    (hsame : numeralValue dto.first.2 = numeralValue dto.last.2)
    (hback : padZeros dto.first.2.length (parseNumeral dto.first.2).toChars = dto.first.2) :
    TagsService.serialNumberCount dto = .finite 1 := by
  unfold TagsService.serialNumberCount
  rw [h.method]
  show JsNumber.maxZero (((parseNumeral dto.last.2).sub (parseNumeral dto.first.2)).add _) = _
  rw [h.parse_first] at hback
  rw [h.parse_first, h.parse_last, ← hsame]
  rcases JsNumber.ofNat_cases (numeralValue dto.first.2) with hfinite | hinfinite
  · have hdiff : (JsNumber.finite (roundToDouble (numeralValue dto.first.2))).sub
        (.finite (roundToDouble (numeralValue dto.first.2))) = .finite 0 := by
      show JsNumber.ofInt (_ + -_) = _
      rw [Int.add_right_neg]
      rfl
    rw [hfinite, hdiff]
    rfl
  · rw [hinfinite] at hback
    exact absurd (isNumeral_padZeros.mp (hback ▸ h.isNumeral_first.1 :
      IsNumeral (padZeros _ _))) JsNumber.not_isNumeral_infinite

/-- **An exact range is gone through to its end.** -/
theorem loopCount_of_exact (h : dto.Range) (hexact : dto.Exact) :
    TagsService.loopCount (TagsService.serialNumberCount dto) =
      some (numeralValue dto.last.2 - numeralValue dto.first.2 + 1) := by
  obtain ⟨hle, hlarge | ⟨hsame, hback⟩⟩ := hexact
  · rw [h.count_of_le hle hlarge]
    rfl
  · rw [h.count_of_eq hsame hback, hsame, Nat.sub_self]
    rfl

/-! ### Which -/

/-- The items of an exact range are what they should be. -/
theorem item_of_exact (h : dto.Range) (hexact : dto.Exact) {i : Nat}
    (hi : i ≤ numeralValue dto.last.2 - numeralValue dto.first.2) :
    item dto i = String.ofList (dto.first.1 ++
      padZeros dto.first.2.length (Nat.toDigits 10 (numeralValue dto.first.2 + i))) := by
  unfold item
  rw [h.parse_first]
  obtain ⟨hle, hlarge | ⟨hsame, hback⟩⟩ := hexact
  · have hadd : (JsNumber.finite (numeralValue dto.first.2)).add (.finite i) =
        .ofNat false (numeralValue dto.first.2 + i) := by
      rw [← JsNumber.ofInt_natCast]
      rfl
    rw [JsNumber.ofNat_of_le (hle.trans hlarge), hadd, JsNumber.ofNat_of_le (by omega),
      JsNumber.toChars_natCast, natText_of_le (by omega)]
  · obtain rfl : i = 0 := by omega
    rw [Nat.cast_zero, JsNumber.ofNat_add_zero, ← h.parse_first, hback, Nat.add_zero,
      padZeros_toDigits h.isNumeral_first.1 h.isNumeral_first.2]

/-- Beyond `2 ^ 53` one of two neighbours is odd. -/
theorem exists_odd {a b : Nat} (hlt : a < b) (hlarge : 9007199254740992 < b) :
    ∃ m, a ≤ m ∧ m ≤ b ∧ 9007199254740992 < m ∧ ¬ 2 ∣ m := by
  by_cases hodd : 2 ∣ b
  · exact ⟨b - 1, by omega, by omega, by omega, by omega⟩
  · exact ⟨b, hlt.le, le_refl b, hlarge, hodd⟩

/-- What an exact range yields is right. -/
theorem right_of_exact (h : dto.Range) (hexact : dto.Exact) :
    dto.RightSerials ((List.range
      (numeralValue dto.last.2 - numeralValue dto.first.2 + 1)).map (item dto)) := by
  have hle := hexact.1
  have heach : ∀ i, i < numeralValue dto.last.2 - numeralValue dto.first.2 + 1 →
      ((List.range (numeralValue dto.last.2 - numeralValue dto.first.2 + 1)).map (item dto))[i]? =
        some (String.ofList (dto.first.1 ++
          padZeros dto.first.2.length (Nat.toDigits 10 (numeralValue dto.first.2 + i)))) := by
    intro i hi
    rw [List.getElem?_map, List.getElem?_range hi, Option.map_some,
      h.item_of_exact hexact (by omega)]
  have hvalue : ∀ i, i ≤ numeralValue dto.last.2 - numeralValue dto.first.2 →
      numeralValue (TagsService.parseSerialNumber (item dto i)).2 =
        numeralValue dto.first.2 + i := by
    intro i hi
    obtain ⟨s, -, hs⟩ := h.first
    have hs : splitSerial s = some (dto.first.1, dto.first.2) := hs
    rw [h.item_of_exact hexact hi, TagsService.parseSerialNumber,
      splitSerial_append hs (isNumeral_padZeros.mpr (isNumeral_toDigits _)), Option.getD_some,
      numeralValue_padZeros, numeralValue_toDigits]
    intro hnil
    have hlength := congrArg List.length hnil
    rw [length_padZeros] at hlength
    exact absurd (Nat.le_zero.mp ((Nat.le_max_right _ _).trans hlength.le))
      Nat.length_toDigits_pos.ne'
  constructor
  case count =>
    rw [List.length_map, List.length_range]
    omega
  case distinct =>
    refine List.Nodup.map_on (fun i hi j hj hij => ?_) List.nodup_range
    have hval := congrArg (fun s => numeralValue (TagsService.parseSerialNumber s).2) hij
    rw [List.mem_range] at hi hj
    simp only [hvalue i (by omega), hvalue j (by omega)] at hval
    omega
  case each =>
    intro i hi
    rw [List.length_map, List.length_range] at hi
    exact heach i hi
  case first =>
    rw [List.head?_eq_getElem?, heach 0 (Nat.succ_pos _), Nat.add_zero,
      padZeros_toDigits h.isNumeral_first.1 h.isNumeral_first.2, h.start_eq]
  case last =>
    refine ⟨item dto (numeralValue dto.last.2 - numeralValue dto.first.2), ?_, ?_⟩
    · rw [List.getLast?_map, List.getLast?_range, if_neg (Nat.succ_ne_zero _)]
      rfl
    · rw [hvalue _ (le_refl _)]
      omega

/-- What is right is exact. -/
theorem exact_of_right (h : dto.Range) {n : Nat}
    (hright : dto.RightSerials ((List.range n).map (item dto))) : dto.Exact := by
  have hcount := hright.count
  have hfirst := hright.first
  rw [List.length_map, List.length_range] at hcount
  have hpos : 0 < n := by
    by_contra hzero
    rw [Nat.eq_zero_of_not_pos hzero, h.start_eq] at hfirst
    exact nomatch hfirst
  have hle : numeralValue dto.first.2 ≤ numeralValue dto.last.2 := by omega
  refine ⟨hle, ?_⟩
  by_cases hlarge : numeralValue dto.last.2 ≤ 9007199254740992
  · exact .inl hlarge
  rcases Nat.lt_or_eq_of_le hle with hlt | hsame
  · -- an odd one is written as another
    exfalso
    obtain ⟨m, hma, hmb, hm, hodd⟩ := exists_odd hlt (Nat.lt_of_not_le hlarge)
    have heach := hright.each (m - numeralValue dto.first.2)
      (by rw [List.length_map, List.length_range]; omega)
    rw [List.getElem?_map, List.getElem?_range (by omega), Option.map_some, Option.some.injEq,
      item, String.ofList_inj, List.append_cancel_left_eq, Nat.add_sub_cancel' hma,
      h.parse_first] at heach
    have hpadded : IsNumeral (padZeros dto.first.2.length (Nat.toDigits 10 m)) :=
      isNumeral_padZeros.mpr (isNumeral_toDigits m)
    rw [← heach] at hpadded
    refine JsNumber.value_add_ne _ _ hodd hm (isNumeral_padZeros.mp hpadded) ?_
    have hvalue := congrArg numeralValue heach
    rwa [numeralValue_padZeros, numeralValue_padZeros, numeralValue_toDigits] at hvalue
  · right
    refine ⟨hsame, ?_⟩
    rw [List.head?_map, List.head?_range, if_neg hpos.ne', Option.map_some, h.start_eq,
      Option.some.injEq, item, String.ofList_inj, List.append_cancel_left_eq, Nat.cast_zero,
      h.parse_first, JsNumber.ofNat_add_zero, ← h.parse_first] at hfirst
    exact hfirst

end Range

end BulkGenerateSignedTagUrl

/-! ## 6. What the generator yields -/

namespace TagsService

variable {crypto : TokenCrypto} {tagUrl : List (String × String) → String} {env : Env}
  {keyId : String} {w w' : AssetWorld}

/-- A key that was got is got again. -/
theorem signingKeyOf_got {key : SigningKey}
    (hget : (AuthService.getSigningKey crypto keyId).run w = (.ok key, w')) :
    signingKeyOf crypto keyId w' = some key := by
  unfold signingKeyOf
  rcases AuthService.getSigningKey_cases crypto keyId w with ⟨found, hcache, hrun⟩ |
      ⟨found, -, -, hrun⟩ | ⟨found, t, -, -, -, -, hrun⟩ | ⟨e, -, -, hrun⟩ <;>
    rw [hget] at hrun <;> obtain ⟨hkey, rfl⟩ := Prod.mk.inj hrun
  · rw [hcache, Option.some_or, Except.ok.inj hkey]
  · rw [AssetWorld.cacheKey_keyCache, if_pos rfl, Option.some_or, Except.ok.inj hkey]
  · rw [AssetWorld.cacheKey_keyCache, if_pos rfl, Option.some_or, Except.ok.inj hkey]
  · exact nomatch hkey

/-- An address is signed if the key signs now, and then the key signs still. -/
theorem returns_generateSignedUrl (tagUrl : List (String × String) → String)
    (serialNumber id : String) :
    Returns (generateSignedUrl crypto tagUrl env keyId serialNumber id) w ↔
      Signs crypto keyId (AuthService.isExpiredKey · (.finite env.now)) w :=
  (returns_bind_of_total fun _ _ => returns_pure _ _).trans (returns_generateSignature _ (some _) _)

theorem generateSignedUrl_ok {serialNumber id : String} {url : SignedUrl}
    (h : (generateSignedUrl crypto tagUrl env keyId serialNumber id).run w = (.ok url, w')) :
    url.serialNumber = serialNumber ∧
      Signs crypto keyId (AuthService.isExpiredKey · (.finite env.now)) w' := by
  obtain ⟨signature, _, hsign, h⟩ := bind_eq_ok.mp h
  obtain ⟨hurl, rfl⟩ := Prod.mk.inj h
  obtain ⟨key, hget, hlive, -⟩ := AuthService.generateSignature_eq_ok.mp hsign
  exact ⟨by rw [← Except.ok.inj hurl], key, signingKeyOf_got hget, hlive⟩

/-- The addresses of a list of serial numbers. -/
theorem forEach_generateSignedUrl (serialNumbers : List String) (k : Nat) (w : AssetWorld) :
    let gen := forEach (serialNumbers.zipIdx k) fun (serialNumber, i) =>
      generateSignedUrl crypto tagUrl env keyId serialNumber (env.cuid i)
    (Returns gen w ↔ serialNumbers = [] ∨
        Signs crypto keyId (AuthService.isExpiredKey · (.finite env.now)) w) ∧
      ∀ urls w', gen.run w = (.ok urls, w') → urls.map (·.serialNumber) = serialNumbers := by
  induction serialNumbers generalizing k w with
  | nil =>
    refine ⟨iff_of_true (returns_pure _ w) (.inl rfl), fun urls w' h => ?_⟩
    rw [← Except.ok.inj (Prod.mk.inj h).1]
    rfl
  | cons serialNumber rest ih =>
    rw [List.zipIdx_cons]
    constructor
    · rw [or_iff_right (List.cons_ne_nil _ _),
        ← returns_generateSignedUrl tagUrl serialNumber (env.cuid k)]
      constructor
      · rintro ⟨urls, w', h⟩
        obtain ⟨url, w₁, _, hurl, -, -⟩ := forEach_cons_eq_ok.mp h
        exact ⟨url, w₁, hurl⟩
      · rintro ⟨url, w₁, hurl⟩
        obtain ⟨urls, w', hrest⟩ := ((ih (k + 1) w₁).1).mpr (.inr (generateSignedUrl_ok hurl).2)
        exact ⟨url :: urls, w', forEach_cons_eq_ok.mpr ⟨url, w₁, urls, hurl, hrest, rfl⟩⟩
    · intro urls w' h
      obtain ⟨url, w₁, urls, hurl, hrest, rfl⟩ := forEach_cons_eq_ok.mp h
      rw [List.map_cons, (generateSignedUrl_ok hurl).1, (ih (k + 1) w₁).2 urls w' hrest]

/-- **The generator of a range ends, and what it yields is right exactly if the range is exact.** It
    goes through if there is nothing to yield or the key signs. -/
theorem generateSignedUrlBulk_right_iff {dto : BulkGenerateSignedTagUrl} (h : dto.Accepted)
    (hmethod : dto.method = .sequential) (crypto : TokenCrypto)
    (tagUrl : List (String × String) → String) (env : Env) :
    ∃ gen serials, generateSignedUrlBulk crypto tagUrl env dto = some gen ∧
      (∀ w, Returns gen w ↔ serials = [] ∨ Signs crypto (dto.keyId.getD crypto.defaultSigningKeyId)
        (AuthService.isExpiredKey · (.finite env.now)) w) ∧
      (∀ w urls w', gen.run w = (.ok urls, w') → urls.map (·.serialNumber) = serials) ∧
      (dto.RightSerials serials ↔ dto.Exact) := by
  have hrange := h.range hmethod
  obtain ⟨n, hn, hserials⟩ := hrange.bulkSerialNumbers_eq
  unfold generateSignedUrlBulk
  rw [hserials, Option.map_some]
  refine ⟨_, _, rfl, fun w => (forEach_generateSignedUrl _ 0 w).1,
    fun w => (forEach_generateSignedUrl _ 0 w).2, hrange.exact_of_right, fun hexact => ?_⟩
  have hcount := hrange.loopCount_of_exact hexact
  rw [hn] at hcount
  rw [Option.some.inj hcount]
  exact hrange.right_of_exact hexact

/-! ### Two ranges -/

def nearRange : BulkGenerateSignedTagUrl where
  method := .sequential
  serialNumberRangeStart := some "FE-098"
  serialNumberRangeEnd := some "FE-101"

theorem nearRange_right : ∃ gen serials,
    generateSignedUrlBulk SignedArtifact.openCrypto (fun _ => "") {} nearRange = some gen ∧
      nearRange.RightSerials serials := by
  have haccepted : nearRange.Accepted := ⟨by decide, by decide⟩
  obtain ⟨gen, serials, hgen, -, -, hright⟩ :=
    generateSignedUrlBulk_right_iff haccepted rfl SignedArtifact.openCrypto (fun _ => "") {}
  exact ⟨gen, serials, hgen, hright.mpr ⟨by decide, .inl (by decide)⟩⟩

/-- Two serial numbers, the second of which no double can hold. -/
def farRange : BulkGenerateSignedTagUrl where
  method := .sequential
  serialNumberRangeStart := some "9007199254740992"
  serialNumberRangeEnd := some "9007199254740993"

theorem farRange_short : farRange.Accepted ∧
    bulkSerialNumbers farRange = some ["9007199254740992"] ∧
      ¬ farRange.RightSerials ["9007199254740992"] := by
  refine ⟨⟨by decide, by decide⟩, by decide, fun h => ?_⟩
  exact absurd h.count (by decide)

end TagsService

end ShieldApi
