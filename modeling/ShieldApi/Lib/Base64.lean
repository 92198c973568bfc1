import Mathlib.Data.List.Basic

/-!
# base64url

Three bytes are four characters of six bits each; what is left over of a text, one byte or two, is
two characters or three, without padding. A text is encoded through its bytes in UTF-8.

The round trip is proved where the work is: on the groups (`bytesOf_sextetsOf`), and on the
characters of the alphabet (`sextet?_sextetChar`). Decoding a text nobody encoded is not the subject: a
character outside the alphabet is skipped, and bytes that are no text decode to nothing.
-/

set_option autoImplicit false

namespace ShieldApi

namespace Base64

/-! ## 1. Groups -/

def sextetsOf : List Nat → List Nat
  | a :: b :: c :: rest =>
    a / 4 :: (a % 4 * 16 + b / 16) :: (b % 16 * 4 + c / 64) :: c % 64 :: sextetsOf rest
  | [a, b] => [a / 4, a % 4 * 16 + b / 16, b % 16 * 4]
  | [a] => [a / 4, a % 4 * 16]
  | [] => []

def bytesOf : List Nat → List Nat
  | x :: y :: z :: u :: rest =>
    (x * 4 + y / 16) :: (y % 16 * 16 + z / 4) :: (z % 4 * 64 + u) :: bytesOf rest
  | [x, y, z] => [x * 4 + y / 16, y % 16 * 16 + z / 4]
  | [x, y] => [x * 4 + y / 16]
  | _ => []

theorem bytesOf_sextetsOf : ∀ {bytes : List Nat}, (∀ b ∈ bytes, b < 256) →
    bytesOf (sextetsOf bytes) = bytes
  | [], _ => rfl
  | [a], h => by
    obtain ⟨ha, -⟩ := List.forall_mem_cons.mp h
    simp only [sextetsOf, bytesOf, List.cons.injEq, and_true]
    omega
  | [a, b], h => by
    obtain ⟨ha, h⟩ := List.forall_mem_cons.mp h
    obtain ⟨hb, -⟩ := List.forall_mem_cons.mp h
    simp only [sextetsOf, bytesOf, List.cons.injEq, and_true]
    omega
  | a :: b :: c :: rest, h => by
    obtain ⟨ha, h⟩ := List.forall_mem_cons.mp h
    obtain ⟨hb, h⟩ := List.forall_mem_cons.mp h
    obtain ⟨hc, h⟩ := List.forall_mem_cons.mp h
    have hrest := bytesOf_sextetsOf h
    simp only [sextetsOf, bytesOf, hrest, List.cons.injEq, and_true]
    omega

theorem sextetsOf_lt : ∀ {bytes : List Nat}, (∀ b ∈ bytes, b < 256) →
    ∀ s ∈ sextetsOf bytes, s < 64
  | [], _ => fun _ hs => nomatch hs
  | [a], h => by
    obtain ⟨ha, -⟩ := List.forall_mem_cons.mp h
    simp only [sextetsOf, List.forall_mem_cons]
    exact ⟨by omega, by omega, fun _ hs => nomatch hs⟩
  | [a, b], h => by
    obtain ⟨ha, h⟩ := List.forall_mem_cons.mp h
    obtain ⟨hb, -⟩ := List.forall_mem_cons.mp h
    simp only [sextetsOf, List.forall_mem_cons]
    exact ⟨by omega, by omega, by omega, fun _ hs => nomatch hs⟩
  | a :: b :: c :: rest, h => by
    obtain ⟨ha, h⟩ := List.forall_mem_cons.mp h
    obtain ⟨hb, h⟩ := List.forall_mem_cons.mp h
    obtain ⟨hc, h⟩ := List.forall_mem_cons.mp h
    simp only [sextetsOf, List.forall_mem_cons]
    exact ⟨by omega, by omega, by omega, by omega, sextetsOf_lt h⟩

/-! ## 2. Characters -/

def sextetChar (n : Nat) : Char :=
  if n < 26 then Char.ofNat (n + 65)
  else if n < 52 then Char.ofNat (n + 71)
  else if n < 62 then Char.ofNat (n - 4)
  else if n = 62 then '-'
  else '_'

def sextet? (c : Char) : Option Nat :=
  if 'A' ≤ c && c ≤ 'Z' then some (c.toNat - 65)
  else if 'a' ≤ c && c ≤ 'z' then some (c.toNat - 71)
  else if '0' ≤ c && c ≤ '9' then some (c.toNat + 4)
  else if c = '-' then some 62
  else if c = '_' then some 63
  else none

theorem sextetChar_table : ∀ n < 64, sextet? (sextetChar n) = some n ∧
    ((sextetChar n).isAlphanum || sextetChar n = '-' || sextetChar n = '_') = true := by
  decide

theorem sextet?_sextetChar {n : Nat} (h : n < 64) : sextet? (sextetChar n) = some n :=
  (sextetChar_table n h).1

/-! ## 3. Texts -/

def bytes (s : String) : List Nat := s.toByteArray.data.toList.map UInt8.toNat

def ofBytes (l : List Nat) : Option String :=
  String.fromUTF8? ⟨(l.map UInt8.ofNat).toArray⟩

theorem bytes_lt (s : String) : ∀ b ∈ bytes s, b < 256 := by
  intro b hb
  obtain ⟨u, -, rfl⟩ := List.mem_map.mp hb
  exact u.toNat_lt

theorem ofBytes_bytes (s : String) : ofBytes (bytes s) = some s := by
  unfold ofBytes bytes
  rw [List.map_map]
  have hid : (UInt8.ofNat ∘ UInt8.toNat) = id := by
    funext u
    exact UInt8.ofNat_toNat
  rw [hid, List.map_id]
  exact dif_pos s.isValidUTF8

def encode (s : String) : String := String.ofList ((sextetsOf (bytes s)).map sextetChar)

def decode (s : String) : String :=
  (ofBytes (bytesOf (s.toList.filterMap sextet?))).getD ""

/-- **What was encoded is decoded.** -/
theorem decode_encode (s : String) : decode (encode s) = s := by
  have hsextets : ((sextetsOf (bytes s)).map sextetChar).filterMap sextet? = sextetsOf (bytes s) := by
    rw [List.filterMap_map]
    refine (List.filterMap_congr fun n hn => ?_).trans List.filterMap_some
    exact sextet?_sextetChar (sextetsOf_lt (bytes_lt s) n hn)
  unfold decode encode
  rw [String.toList_ofList, hsextets, bytesOf_sextetsOf (bytes_lt s), ofBytes_bytes,
    Option.getD_some]

theorem encode_alphabet (s : String) :
    ∀ c ∈ (encode s).toList, (c.isAlphanum || c = '-' || c = '_') = true := by
  intro c hc
  rw [encode, String.toList_ofList] at hc
  obtain ⟨n, hn, rfl⟩ := List.mem_map.mp hc
  exact (sextetChar_table n (sextetsOf_lt (bytes_lt s) n hn)).2

end Base64

end ShieldApi
