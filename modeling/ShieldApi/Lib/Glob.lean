import Mathlib.Data.List.Infix

/-!
# Glob patterns

The patterns of `PSUBSCRIBE`, as Redis documents them: `*` is any text, `?` any one character, a
class in brackets one of its characters (or none of them, behind a `^`), a backslash takes the
character behind it as it is. Reading a pattern is a transducer (`next`), and a pattern is a list of
items, so that what it matches is a recursion over the items.

**Only the four characters `*?[\` mean anything but themselves.** A text without them, put in front
of a pattern, asks for itself in front (`matches_plain_append`).
-/

set_option autoImplicit false

namespace ShieldApi

namespace Glob

inductive Item
  | star
  | anyOne
  | lit (c : Char)
  | oneOf (negated : Bool) (ranges : List (Char × Char))
  deriving DecidableEq, Repr

/-! ## 1. Reading a pattern -/

/-- Where in the pattern the reader is. A class has its entries so far. -/
inductive Mode
  | outside
  | escaped
  /-- Right behind the bracket. -/
  | opened
  | inside (negated : Bool) (ranges : List (Char × Char))
  | insideEscaped (negated : Bool) (ranges : List (Char × Char))
  /-- Behind `c`, which may be the first of a range. -/
  | entry (negated : Bool) (ranges : List (Char × Char)) (c : Char)
  /-- Behind `c` and a dash. -/
  | range (negated : Bool) (ranges : List (Char × Char)) (c : Char)

def nextInside (negated : Bool) (ranges : List (Char × Char)) (c : Char) : List Item × Mode :=
  if c = ']' then ([.oneOf negated ranges], .outside)
  else if c = '\\' then ([], .insideEscaped negated ranges)
  else ([], .entry negated ranges c)

def next : Mode → Char → List Item × Mode
  | .outside, c =>
    if c = '*' then ([.star], .outside)
    else if c = '?' then ([.anyOne], .outside)
    else if c = '\\' then ([], .escaped)
    else if c = '[' then ([], .opened)
    else ([.lit c], .outside)
  | .escaped, c => ([.lit c], .outside)
  | .opened, c => if c = '^' then ([], .inside true []) else nextInside false [] c
  | .inside negated ranges, c => nextInside negated ranges c
  | .insideEscaped negated ranges, c => ([], .inside negated ((c, c) :: ranges))
  | .entry negated ranges a, c =>
    if c = '-' then ([], .range negated ranges a) else nextInside negated ((a, a) :: ranges) c
  -- whatever is behind the dash is the other end, and the ends may come either way round
  | .range negated ranges a, c =>
    ([], .inside negated ((if a ≤ c then (a, c) else (c, a)) :: ranges))

/-- The pattern may end in the middle of something. -/
def finish : Mode → List Item
  | .outside => []
  | .escaped => [.lit '\\']
  | .opened => [.oneOf false []]
  | .inside negated ranges => [.oneOf negated ranges]
  | .insideEscaped negated ranges => [.oneOf negated (('\\', '\\') :: ranges)]
  | .entry negated ranges a => [.oneOf negated ((a, a) :: ranges)]
  | .range negated ranges a => [.oneOf negated (('-', '-') :: (a, a) :: ranges)]

def parse (mode : Mode) : List Char → List Item
  | [] => finish mode
  | c :: cs => (next mode c).1 ++ parse (next mode c).2 cs

/-! ## 2. What it matches -/

def Item.matchesOne : Item → Char → Bool
  | .star, _ => false
  | .anyOne, _ => true
  | .lit c, d => d = c
  | .oneOf negated ranges, d => (ranges.any fun r => r.1 ≤ d && d ≤ r.2) != negated

def matchesItems : List Item → List Char → Bool
  | [], text => text.isEmpty
  | .star :: items, text => text.tails.any (matchesItems items)
  | _ :: _, [] => false
  | item :: items, c :: text => item.matchesOne c && matchesItems items text

def Matches (pattern text : String) : Bool :=
  matchesItems (parse .outside pattern.toList) text.toList

def isPlain (c : Char) : Bool := c ≠ '*' && c ≠ '?' && c ≠ '[' && c ≠ '\\'

/-- Without one of the four characters. -/
def Plain (text : String) : Prop := text.toList.all isPlain = true

instance (text : String) : Decidable (Plain text) := inferInstanceAs (Decidable (_ = true))

theorem Plain.append {s t : String} (hs : Plain s) (ht : Plain t) : Plain (s ++ t) := by
  rw [Plain, String.toList_append, List.all_append, Bool.and_eq_true]
  exact ⟨hs, ht⟩

theorem next_of_plain {c : Char} (h : isPlain c = true) :
    next .outside c = ([.lit c], .outside) := by
  unfold isPlain at h
  simp only [Bool.and_eq_true, decide_eq_true_eq] at h
  obtain ⟨⟨⟨hstar, hany⟩, hclass⟩, hescape⟩ := h
  simp [next, hstar, hany, hclass, hescape]

theorem parse_plain_append {cs : List Char} (h : cs.all isPlain = true) (rest : List Char) :
    parse .outside (cs ++ rest) = cs.map .lit ++ parse .outside rest := by
  induction cs with
  | nil => rfl
  | cons c cs ih =>
    rw [List.all_cons, Bool.and_eq_true] at h
    rw [List.cons_append, parse, next_of_plain h.1, ih h.2]
    rfl

theorem matchesItems_lit_append {cs text : List Char} {items : List Item} :
    matchesItems (cs.map .lit ++ items) text = true ↔
      ∃ rest, text = cs ++ rest ∧ matchesItems items rest = true := by
  induction cs generalizing text with
  | nil => simp
  | cons c cs ih =>
    cases text with
    | nil => simp [matchesItems]
    | cons d text =>
      rw [List.map_cons, List.cons_append, matchesItems, Bool.and_eq_true, ih]
      · simp only [Item.matchesOne, decide_eq_true_eq, List.cons_append, List.cons.injEq]
        constructor
        · intro h
          obtain ⟨hd, rest, htext, hrest⟩ := h
          exact ⟨rest, ⟨hd, htext⟩, hrest⟩
        · intro h
          obtain ⟨rest, ⟨hd, htext⟩, hrest⟩ := h
          exact ⟨hd, rest, htext, hrest⟩
      · exact fun h => (nomatch h)

theorem matchesItems_star {text : List Char} {items : List Item} :
    matchesItems (.star :: items) text = true ↔
      ∃ before rest, text = before ++ rest ∧ matchesItems items rest = true := by
  rw [matchesItems, List.any_eq_true]
  simp only [List.mem_tails]
  constructor
  · intro h
    obtain ⟨rest, ⟨before, htext⟩, hrest⟩ := h
    exact ⟨before, rest, htext.symm, hrest⟩
  · intro h
    obtain ⟨before, rest, htext, hrest⟩ := h
    exact ⟨rest, ⟨before, htext.symm⟩, hrest⟩

/-! ### The same of texts -/

theorem matches_empty {text : String} : Matches "" text = true ↔ text = "" := by
  rw [← String.toList_inj]
  show text.toList.isEmpty = true ↔ _
  rw [List.isEmpty_iff]
  rfl

theorem matches_plain_append {s pattern text : String} (h : Plain s) :
    Matches (s ++ pattern) text = true ↔ ∃ rest, text = s ++ rest ∧ Matches pattern rest = true := by
  unfold Matches
  rw [String.toList_append, parse_plain_append h, matchesItems_lit_append]
  constructor
  · intro hm
    obtain ⟨rest, htext, hrest⟩ := hm
    refine ⟨String.ofList rest, ?_, by rwa [String.toList_ofList]⟩
    rw [← String.toList_inj, String.toList_append, String.toList_ofList, htext]
  · intro hm
    obtain ⟨rest, rfl, hrest⟩ := hm
    exact ⟨rest.toList, String.toList_append, hrest⟩

/-- A text without one of the four matches itself. -/
theorem matches_plain {s text : String} (h : Plain s) : Matches s text = true ↔ text = s := by
  have hempty : Matches (s ++ "") text = true ↔ _ := matches_plain_append h
  rw [String.append_empty] at hempty
  rw [hempty]
  constructor
  · intro hm
    obtain ⟨rest, rfl, hrest⟩ := hm
    rw [matches_empty.1 hrest, String.append_empty]
  · rintro rfl
    exact ⟨"", String.append_empty.symm, matches_empty.2 rfl⟩

theorem matches_star_append {pattern text : String} :
    Matches ("*" ++ pattern) text = true ↔
      ∃ before rest, text = before ++ rest ∧ Matches pattern rest = true := by
  unfold Matches
  rw [String.toList_append]
  show matchesItems (.star :: parse .outside pattern.toList) text.toList = true ↔ _
  rw [matchesItems_star]
  constructor
  · intro hm
    obtain ⟨before, rest, htext, hrest⟩ := hm
    refine ⟨String.ofList before, String.ofList rest, ?_, by rwa [String.toList_ofList]⟩
    rw [← String.toList_inj, String.toList_append, String.toList_ofList, String.toList_ofList, htext]
  · intro hm
    obtain ⟨before, rest, rfl, hrest⟩ := hm
    exact ⟨before.toList, rest.toList, String.toList_append, hrest⟩

theorem matches_star {text : String} : Matches "*" text = true := by
  have h : Matches ("*" ++ "") text = true ↔ _ := matches_star_append
  rw [String.append_empty] at h
  exact h.mpr ⟨text, "", String.append_empty.symm, matches_empty.2 rfl⟩

end Glob

end ShieldApi
