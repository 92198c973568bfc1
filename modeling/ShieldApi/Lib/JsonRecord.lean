import Mathlib.Data.List.Basic

/-!
# Records of texts as JSON

What `JSON.stringify` writes for an object whose values are texts, and `JSON.parse` back: **a record
is read as it was written** (`parse_stringify`). A text is written with its quotes, backslashes and
control characters escaped, so that a quote in the middle never ends it.

Reading goes through tokens, and the reader of tokens is a transducer over the characters; what a
record of tokens says is a recursion over its fields. Other values than texts are no tokens here:
a text that has one is not read.
-/

set_option autoImplicit false

namespace ShieldApi

namespace JsonRecord

/-! ## 1. Writing -/

/-- The characters with an escape of one letter. -/
def letters : List (Char × Char) :=
  [('"', '"'), ('\\', '\\'), ('\x08', 'b'), ('\x0c', 'f'), ('\n', 'n'), ('\x0d', 'r'), ('\t', 't')]

def letterOf (c : Char) : Option Char := (letters.find? (·.1 = c)).map (·.2)

def ofLetter (c : Char) : Option Char := (letters.find? (·.2 = c)).map (·.1)

def escape (c : Char) : List Char :=
  match letterOf c with
  | some letter => ['\\', letter]
  | none =>
    if c.toNat < 32 then
      ['\\', 'u', '0', '0', Nat.digitChar (c.toNat / 16), Nat.digitChar (c.toNat % 16)]
    else [c]

def quote (s : String) : List Char := '"' :: (s.toList.flatMap escape ++ ['"'])

def field (f : String × String) : List Char := quote f.1 ++ ':' :: quote f.2

/-- `JSON.stringify` of an object whose values are texts. -/
def stringify (fields : List (String × String)) : String :=
  String.ofList ('\x7b' :: (List.intercalate [','] (fields.map field) ++ ['\x7d']))

/-! ## 2. Reading -/

inductive Token
  | opening | closing | colon | comma
  | text (s : String)
  deriving DecidableEq, Repr

/-- Where the reader is. A text has its characters so far, the last one first. -/
inductive Mode
  | outside
  | inside (read : List Char)
  | escaped (read : List Char)
  /-- Behind `\u` and some digits. -/
  | code (read : List Char) (left value : Nat)

def hexDigit (c : Char) : Option Nat :=
  (List.range 16).find? fun n => Nat.digitChar n = c || (Nat.digitChar n).toUpper = c

def isSpace (c : Char) : Bool := c = ' ' || c = '\t' || c = '\n' || c = '\x0d'

/-- The tokens a character ends, and where it leaves the reader. -/
def next : Mode → Char → Option (List Token × Mode)
  | .outside, c =>
    if c = '\x7b' then some ([.opening], .outside)
    else if c = '\x7d' then some ([.closing], .outside)
    else if c = ':' then some ([.colon], .outside)
    else if c = ',' then some ([.comma], .outside)
    else if c = '"' then some ([], .inside [])
    else if isSpace c then some ([], .outside)
    else none
  | .inside read, c =>
    if c = '"' then some ([.text (String.ofList read.reverse)], .outside)
    else if c = '\\' then some ([], .escaped read)
    else if c.toNat < 32 then none
    else some ([], .inside (c :: read))
  | .escaped read, c =>
    if c = 'u' then some ([], .code read 3 0)
    else if c = '/' then some ([], .inside (c :: read))
    else (ofLetter c).map fun unescaped => ([], .inside (unescaped :: read))
  | .code read left value, c =>
    (hexDigit c).map fun digit =>
      match left with
      | 0 => ([], .inside (Char.ofNat (16 * value + digit) :: read))
      | left + 1 => ([], .code read left (16 * value + digit))

def tokens (mode : Mode) : List Char → Option (List Token)
  | [] => match mode with
    | .outside => some []
    | _ => none
  | c :: cs => do
    let (made, mode) ← next mode c
    let rest ← tokens mode cs
    pure (made ++ rest)

/-- The fields of an object, behind its opening brace. -/
def fields : List Token → Option (List (String × String))
  | [.text name, .colon, .text value, .closing] => some [(name, value)]
  | .text name :: .colon :: .text value :: .comma :: rest =>
    (fields rest).map ((name, value) :: ·)
  | _ => none

/-- `JSON.parse`. -/
def parse (s : String) : Option (List (String × String)) :=
  match tokens .outside s.toList with
  | some [.opening, .closing] => some []
  | some (.opening :: rest) => fields rest
  | _ => none

/-! ## 3. A record is read as it was written -/

theorem tokens_cons {mode mode' : Mode} {c : Char} {made : List Token}
    (h : next mode c = some (made, mode')) (cs : List Char) :
    tokens mode (c :: cs) = (tokens mode' cs).map (made ++ ·) := by
  cases hrest : tokens mode' cs <;> simp [tokens, h, hrest]

theorem ofLetter_letterOf {c letter : Char} (h : letterOf c = some letter) :
    ofLetter letter = some c ∧ letter ≠ 'u' ∧ letter ≠ '/' := by
  have hmem : (c, letter) ∈ letters := by
    obtain ⟨entry, hfind, rfl⟩ := Option.map_eq_some_iff.mp h
    have hc := List.find?_some hfind
    rw [← of_decide_eq_true hc]
    exact List.mem_of_find?_eq_some hfind
  have hall : ∀ entry ∈ letters,
      ofLetter entry.2 = some entry.1 ∧ entry.2 ≠ 'u' ∧ entry.2 ≠ '/' := by decide
  exact hall _ hmem

theorem letterOf_eq_none {c : Char} (h : letterOf c = none) : c ≠ '"' ∧ c ≠ '\\' := by
  constructor
  · rintro rfl
    exact absurd h (by decide)
  · rintro rfl
    exact absurd h (by decide)

theorem hexDigit_digitChar {n : Nat} (h : n < 16) : hexDigit (Nat.digitChar n) = some n := by
  have hall : ∀ n ∈ List.range 16, hexDigit (Nat.digitChar n) = some n := by decide
  exact hall n (List.mem_range.mpr h)

/-- An escaped character is read as itself. -/
theorem tokens_escape (read : List Char) (c : Char) (cs : List Char) :
    tokens (.inside read) (escape c ++ cs) = tokens (.inside (c :: read)) cs := by
  unfold escape
  cases hletter : letterOf c with
  | some letter =>
    obtain ⟨hback, hu, hslash⟩ := ofLetter_letterOf hletter
    simp [tokens, next, hback, hu, hslash]
  | none =>
    obtain ⟨hquote, hbackslash⟩ := letterOf_eq_none hletter
    by_cases hcontrol : c.toNat < 32
    · have hzero : hexDigit '0' = some 0 := by decide
      have hcode : 16 * (c.toNat / 16) + c.toNat % 16 = c.toNat := by omega
      simp only [if_pos hcontrol, List.cons_append, List.nil_append]
      simp [tokens, next, hzero, hexDigit_digitChar (show c.toNat / 16 < 16 by omega),
        hexDigit_digitChar (show c.toNat % 16 < 16 by omega), hcode]
    · simp [tokens, next, hquote, hbackslash, hcontrol]

theorem tokens_inside (s read rest : List Char) :
    tokens (.inside read) (s.flatMap escape ++ '"' :: rest) =
      (tokens .outside rest).map (.text (String.ofList (read.reverse ++ s)) :: ·) := by
  induction s generalizing read with
  | nil =>
    have hclose :
        next (.inside read) '"' = some ([.text (String.ofList read.reverse)], .outside) := rfl
    rw [List.flatMap_nil, List.nil_append, List.append_nil]
    exact tokens_cons hclose rest
  | cons c s ih =>
    rw [List.flatMap_cons, List.append_assoc, tokens_escape, ih]
    simp

theorem tokens_quote (s : String) (rest : List Char) :
    tokens .outside (quote s ++ rest) = (tokens .outside rest).map (.text s :: ·) := by
  have hquote : quote s ++ rest = '"' :: (s.toList.flatMap escape ++ '"' :: rest) := by
    simp [quote]
  have hopen : next .outside '"' = some ([], .inside []) := rfl
  rw [hquote, tokens_cons hopen, tokens_inside, List.reverse_nil, List.nil_append,
    String.ofList_toList]
  cases tokens .outside rest <;> rfl

def fieldTokens (f : String × String) : List Token := [.text f.1, .colon, .text f.2]

theorem tokens_field (f : String × String) (rest : List Char) :
    tokens .outside (field f ++ rest) =
      (tokens .outside rest).map (fieldTokens f ++ ·) := by
  have hcolon : next .outside ':' = some ([.colon], .outside) := rfl
  unfold field
  rw [List.append_assoc, tokens_quote, List.cons_append, tokens_cons hcolon, tokens_quote]
  cases tokens .outside rest <;> rfl

theorem tokens_fields (fs : List (String × String)) (rest : List Char) :
    tokens .outside (List.intercalate [','] (fs.map field) ++ rest) =
      (tokens .outside rest).map (List.intercalate [.comma] (fs.map fieldTokens) ++ ·) := by
  have hcomma : next .outside ',' = some ([.comma], .outside) := rfl
  induction fs with
  | nil => cases h : tokens .outside rest <;> simp [List.intercalate, h]
  | cons f fs ih =>
    cases fs with
    | nil =>
      simp only [List.map_cons, List.map_nil, List.intercalate_singleton]
      exact tokens_field f rest
    | cons g gs =>
      simp only [List.map_cons, List.intercalate_cons_cons, List.append_assoc] at ih ⊢
      rw [tokens_field, List.singleton_append, tokens_cons hcomma, ih]
      cases tokens .outside rest <;> simp

theorem fields_fieldTokens {fs : List (String × String)} (h : fs ≠ []) :
    fields (List.intercalate [.comma] (fs.map fieldTokens) ++ [.closing]) = some fs := by
  induction fs with
  | nil => exact absurd rfl h
  | cons f fs ih =>
    cases fs with
    | nil => simp [fieldTokens, fields]
    | cons g gs =>
      have hrest := ih (List.cons_ne_nil g gs)
      simp only [List.map_cons, List.intercalate_cons_cons, List.append_assoc] at hrest ⊢
      simp only [fieldTokens, List.cons_append, List.nil_append] at hrest ⊢
      rw [fields, hrest]
      rfl

/-- **What was written is what is read.** -/
theorem parse_stringify (fs : List (String × String)) : parse (stringify fs) = some fs := by
  have htokens : tokens .outside (stringify fs).toList =
      some (.opening :: (List.intercalate [.comma] (fs.map fieldTokens) ++ [.closing])) := by
    have hopen : next .outside '\x7b' = some ([.opening], .outside) := rfl
    unfold stringify
    rw [String.toList_ofList, tokens_cons hopen, tokens_fields]
    rfl
  unfold parse
  rw [htokens]
  cases fs with
  | nil => rfl
  | cons f fs =>
    have hfields := fields_fieldTokens (List.cons_ne_nil f fs)
    cases hts : List.intercalate [.comma] ((f :: fs).map fieldTokens) ++ [.closing] with
    | nil => simp at hts
    | cons t ts =>
      rw [hts] at hfields
      cases t <;> first | exact hfields | cases hfields

end JsonRecord

end ShieldApi
