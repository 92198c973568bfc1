import Mathlib.Data.List.OfFn
import ShieldApi.Lib.Shuffle

/-!
# Generated passwords

`UsersService.generatePassword` of `clients/users/users.service.ts`. Every number it asks of
`crypto.randomInt` is an argument here, of the range it was asked in, so a statement about all
draws is a statement about every password the service can return.

One character of each class is drawn, the rest from all of them, and the whole is shuffled.
`generatePassword_classes` is what a password always is; `generatePassword_unbiased` is what
the comment in the source promises of the shuffle: for the characters drawn, **each
arrangement of their places comes from exactly one sequence of its draws**.
-/

set_option autoImplicit false

namespace ShieldApi

def uppercaseChars : List Char := "ABCDEFGHIJKLMNOPQRSTUVWXYZ".toList
def lowercaseChars : List Char := "abcdefghijklmnopqrstuvwxyz".toList
def numberChars : List Char := "0123456789".toList
def specialChars : List Char := "!@#$%^&*()".toList

def allChars : List Char := uppercaseChars ++ lowercaseChars ++ numberChars ++ specialChars

/-- How often the loop `for (let i = 4; i < length; i++)` runs. -/
def fillCount (length : Int) : Nat := (length - 4).toNat

/-- What `crypto.randomInt` answers in one call for a password of this length. -/
structure PasswordDraws (length : Int) where
  uppercase : Fin uppercaseChars.length
  lowercase : Fin lowercaseChars.length
  number : Fin numberChars.length
  special : Fin specialChars.length
  fill : Fin (fillCount length) → Fin allChars.length
  arrangement : Draws (4 + fillCount length)

section
variable {length : Int}

/-- `password` before it is shuffled. -/
def PasswordDraws.chars (d : PasswordDraws length) : List Char :=
  uppercaseChars.get d.uppercase :: lowercaseChars.get d.lowercase ::
    numberChars.get d.number :: specialChars.get d.special ::
      List.ofFn fun i => allChars.get (d.fill i)

/-- `generatePassword(length)`; the caller's default length is 12. -/
def generatePassword (d : PasswordDraws length) : String :=
  String.ofList (shuffle d.arrangement.at d.chars)

theorem PasswordDraws.length_chars (d : PasswordDraws length) :
    d.chars.length = 4 + fillCount length := by
  simp only [PasswordDraws.chars, List.length_cons, List.length_ofFn]
  omega

theorem mem_generatePassword {d : PasswordDraws length} {c : Char} :
    c ∈ (generatePassword d).toList ↔ c ∈ d.chars := by
  rw [generatePassword, String.toList_ofList]
  exact (shuffle_perm _ _).mem_iff

theorem PasswordDraws.chars_subset (d : PasswordDraws length) : ∀ c ∈ d.chars, c ∈ allChars := by
  intro c hc
  simp only [PasswordDraws.chars, List.mem_cons, List.mem_ofFn] at hc
  simp only [allChars, List.mem_append]
  rcases hc with rfl | rfl | rfl | rfl | ⟨i, rfl⟩
  · exact .inl (.inl (.inl (List.get_mem _ _)))
  · exact .inl (.inl (.inr (List.get_mem _ _)))
  · exact .inl (.inr (List.get_mem _ _))
  · exact .inr (List.get_mem _ _)
  · simpa only [allChars, List.mem_append] using List.get_mem allChars (d.fill i)

/-- **Every password** of every length asked for, also none and a negative one, has that many
    characters but at least four, one of each class, and none from outside of them. -/
theorem generatePassword_classes (d : PasswordDraws length) :
    ((generatePassword d).toList.length : Int) = max 4 length ∧
    (∀ cls ∈ [uppercaseChars, lowercaseChars, numberChars, specialChars],
      ∃ c ∈ (generatePassword d).toList, c ∈ cls) ∧
    ∀ c ∈ (generatePassword d).toList, c ∈ allChars := by
  have hclass : ∀ {cls : List Char} (i : Fin cls.length), cls.get i ∈ d.chars →
      ∃ c ∈ (generatePassword d).toList, c ∈ cls :=
    fun i h => ⟨_, mem_generatePassword.mpr h, List.get_mem _ i⟩
  refine ⟨?_, ?_, fun c hc => d.chars_subset c (mem_generatePassword.mp hc)⟩
  · have hlen : (generatePassword d).toList.length = 4 + fillCount length := by
      rw [generatePassword, String.toList_ofList, (shuffle_perm _ _).length_eq, d.length_chars]
    rw [hlen, fillCount]
    omega
  · intro cls hcls
    simp only [List.mem_cons, List.not_mem_nil, or_false] at hcls
    rcases hcls with rfl | rfl | rfl | rfl
    · exact hclass d.uppercase (by simp [PasswordDraws.chars])
    · exact hclass d.lowercase (by simp [PasswordDraws.chars])
    · exact hclass d.number (by simp [PasswordDraws.chars])
    · exact hclass d.special (by simp [PasswordDraws.chars])

/-- A list is its places, each with what stands in it. -/
theorem map_getD_range {l : List Char} : (List.range l.length).map (fun k => l.getD k ' ') = l := by
  apply List.ext_getElem
  · simp
  · intro k h h'
    simp [List.getElem?_eq_getElem h']

/-- **The shuffle is unbiased.** Let the characters be drawn. For every order `places` of their
    places there is exactly one sequence of draws of the shuffle that makes it, and the password
    is the characters in that order. -/
theorem generatePassword_unbiased (d : PasswordDraws length) {places : List Nat}
    (hplaces : places.Perm (List.range (4 + fillCount length))) :
    ∃! arrangement : Draws (4 + fillCount length),
      shuffle arrangement.at (List.range (4 + fillCount length)) = places ∧
      generatePassword { d with arrangement } =
        String.ofList (places.map fun k => d.chars.getD k ' ') := by
  have hunique := existsUnique_shuffle List.nodup_range hplaces
  rw [List.length_range] at hunique
  obtain ⟨arrangement, harrangement, huniq⟩ := hunique
  refine ⟨arrangement, ⟨harrangement, ?_⟩, fun a ha => huniq a ha.1⟩
  have hchars : PasswordDraws.chars { d with arrangement } =
      (List.range (4 + fillCount length)).map fun k => d.chars.getD k ' ' := by
    rw [← d.length_chars, map_getD_range]
    rfl
  rw [generatePassword, hchars, shuffle_map, harrangement]

end

/-- The draws of a password of four characters. -/
def fourDraws (arrangement : Draws 4) : PasswordDraws 4 :=
  { uppercase := ⟨0, by decide⟩
    lowercase := ⟨1, by decide⟩
    number := ⟨2, by decide⟩
    special := ⟨3, by decide⟩
    fill := fun i => i.elim0
    arrangement }

/-- The four places in reverse. -/
theorem generatePassword_unbiased_reversed :
    ∃! arrangement : Draws 4, shuffle arrangement.at (List.range 4) = [3, 2, 1, 0] ∧
      generatePassword (fourDraws arrangement) =
        String.ofList ([3, 2, 1, 0].map fun k => (fourDraws fun _ => 0).chars.getD k ' ') :=
  generatePassword_unbiased (fourDraws fun _ => 0) (by decide)

end ShieldApi
