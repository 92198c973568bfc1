import Mathlib.Algebra.Group.Nat.Defs
import ShieldApi.Assets.Schema

/-!
# Inspection tokens

A token says that its bearer scanned a tag. Decoded, it is six fields separated by dots: the
tag's serial number and external id, an expiry, a timestamp, the id of a signing key, and the
signature of the first three under that key.

**Parsing and validating are two functions.** `parseInspectionToken` splits whatever it is
given; it never fails and says nothing about where the text comes from.
`validateInspectionToken` parses, and then checks the expiry and the signature. What is not
there when the text is split is `undefined`, and goes on as `NaN` or as the word `undefined`.
-/

set_option autoImplicit false

namespace ShieldApi

open Effect

/-! ## 1. Numbers -/

/-- What `parseInt` returns: an integer a double can hold, or none. -/
inductive JsNumber
  | nan
  | infinite (negative : Bool)
  | finite (n : Int)
  deriving DecidableEq, Repr

/-- A natural number rounded to 53 significant bits, ties to even. -/
def roundToDouble (n : Nat) : Nat :=
  let unit := 2 ^ (n.log2 - 52)
  let q := n / unit
  let r := n % unit
  if 2 * r > unit || (2 * r = unit && q % 2 = 1) then (q + 1) * unit else q * unit

def JsNumber.ofNat (negative : Bool) (n : Nat) : JsNumber :=
  let d := roundToDouble n
  if d.log2 < 1024 then .finite (if negative then -(d : Int) else d) else .infinite negative

def isJsSpace (c : Char) : Bool :=
  c.toNat ∈ [9, 10, 11, 12, 13, 32, 160, 5760, 8232, 8233, 8239, 8287, 12288, 65279] ||
    (8192 ≤ c.toNat && c.toNat ≤ 8202)

def digitValue (c : Char) : Nat :=
  if c.isDigit then c.toNat - '0'.toNat
  else if 'a' ≤ c && c ≤ 'z' then c.toNat - 'a'.toNat + 10
  else if 'A' ≤ c && c ≤ 'Z' then c.toNat - 'A'.toNat + 10
  else 36

/-- `parseInt`, of a string that may be undefined. -/
def parseInt : Option String → JsNumber
  | none => .nan
  | some s =>
    let body := s.toList.dropWhile isJsSpace
    let (negative, body) := match body with
      | '-' :: rest => (true, rest)
      | '+' :: rest => (false, rest)
      | rest => (false, rest)
    let (radix, body) := match body with
      | '0' :: 'x' :: rest => (16, rest)
      | '0' :: 'X' :: rest => (16, rest)
      | rest => (10, rest)
    match body.takeWhile (digitValue · < radix) with
    | [] => .nan
    | digits => .ofNat negative (digits.foldl (fun n c => radix * n + digitValue c) 0)

/-- The time value of `new Date(n)`. -/
def JsNumber.timeValue : JsNumber → Option Int
  | .finite n => if n.natAbs ≤ 8640000000000000 then some n else none
  | _ => none

/-- `n < 1e12 ? n * 1000 : n`. -/
def JsNumber.toMillis : JsNumber → JsNumber
  | .finite n => if n < 1000000000000 then .finite (n * 1000) else .finite n
  | n => n

/-! ## 2. Signatures -/

/-- The functions of Node the tokens are made with. -/
structure TokenCrypto where
  /-- `Buffer.from(s, 'base64url').toString('utf-8')`. -/
  base64UrlDecode : String → String
  /-- The base64url digest of the HMAC-SHA256 of a text under a secret. -/
  hmacSha256 : String → String → String
  /-- `String(n)` of an integer. Up to `2 ^ 53` these are its decimal digits. -/
  intToString : Int → String := toString
  /-- `DEFAULT_SIGNING_KEY_ID`. -/
  defaultSigningKeyId : String
  /-- `createSecret()`. -/
  createSecret : String

def JsNumber.text (crypto : TokenCrypto) : JsNumber → String
  | .nan => "NaN"
  | .infinite negative => if negative then "-Infinity" else "Infinity"
  | .finite n => crypto.intToString n

namespace AuthService

/-- From the cache, else from the database, where a key nobody has yet is created. -/
def getSigningKey (crypto : TokenCrypto) (keyId : String) : AssetApi SigningKey :=
  attempt fun w =>
    match w.keyCache keyId with
    | some key => .ok (key, w)
    | none =>
      let cached (key : SigningKey) (w : AssetWorld) : AssetWorld :=
        { w with keyCache := fun k => if k = keyId then some key else w.keyCache k }
      match w.signingKeys.find? keyId with
      | some key => .ok (key, cached key w)
      | none =>
        let key : SigningKey := { keyId, keySecret := crypto.createSecret }
        if w.signingKeys.rows.any (·.keySecret = key.keySecret) then .error .uniqueConstraint
        else match w.signingKeys.insert? key with
          | some t => .ok (key, cached key { w with signingKeys := t })
          | none => .error .uniqueConstraint

def signingKeyExpired : ApiError := .error "Signing key has expired."

/-- The key had expired by the time of the signature. -/
def isExpiredKey (key : SigningKey) (timestamp : JsNumber) : Bool :=
  match key.expiredOn, timestamp.toMillis.timeValue with
  | some expiredOn, some time => (expiredOn : Int) < time
  | _, _ => false

def generateSignature (crypto : TokenCrypto) (signatureData : String) (timestamp : JsNumber)
    (keyId : Option String) (sigLength : Nat) : AssetApi String := do
  let signingKey ← getSigningKey crypto (keyId.getD crypto.defaultSigningKeyId)
  raiseIf (isExpiredKey signingKey timestamp) signingKeyExpired
  let data := signatureData ++ "." ++ timestamp.text crypto
  let hmac := crypto.hmacSha256 signingKey.keySecret data
  pure (String.ofList (hmac.toList.take sigLength))

end AuthService

/-! ## 3. Tokens -/

structure InspectionToken where
  serialNumber : String
  tagExternalId : Option String
  expiresOn : JsNumber
  timestamp : JsNumber
  keyId : Option String
  signature : Option String
  deriving DecidableEq, Repr

structure TokenValidation where
  isValid : Bool
  reason : Option String
  tagExternalId : Option String
  expiresOn : Option Int
  serialNumber : String
  deriving DecidableEq, Repr

namespace TagsService

def sigLength : Nat := 16

def parseInspectionToken (crypto : TokenCrypto) (token : String) : InspectionToken :=
  let fields := ((crypto.base64UrlDecode token).toList.splitOn '.').map String.ofList
  { serialNumber := fields[0]?.getD ""
    tagExternalId := fields[1]?
    expiresOn := parseInt fields[2]?
    timestamp := parseInt fields[3]?
    keyId := fields[4]?
    signature := fields[5]? }

/-- A template literal shows what is not there as a word. -/
def textOrUndefined (s : Option String) : String := s.getD "undefined"

/-- The text a token's signature is made of. -/
def InspectionToken.signatureData (crypto : TokenCrypto) (t : InspectionToken) : String :=
  t.serialNumber ++ "." ++ textOrUndefined t.tagExternalId ++ "." ++ t.expiresOn.text crypto

/-- `isAfter(new Date(), expiresOnDate)`; an invalid date is after and before nothing. -/
def isExpired (env : Env) (t : InspectionToken) : Bool :=
  t.expiresOn.timeValue.any fun expiry : Int => expiry < (env.now : Int)

/-- `Buffer.from(undefined)`. -/
def notAString : ApiError :=
  .error "The first argument must be of type string or an instance of Buffer, ArrayBuffer, or Array or an Array-like Object. Received undefined"

/-- `safeEqualStrings`. -/
def safeEqualStrings (a : String) (b : Option String) : AssetApi Bool := do
  let b ← orRaise notAString b
  pure (a = b)

def validateInspectionToken (crypto : TokenCrypto) (env : Env) (token : String) :
    AssetApi TokenValidation := do
  let t := parseInspectionToken crypto token
  let result (reason : Option String) : TokenValidation :=
    { isValid := reason.isNone
      reason
      tagExternalId := t.tagExternalId
      expiresOn := t.expiresOn.timeValue
      serialNumber := t.serialNumber }
  if isExpired env t then
    pure (result (some "Inspection token has expired"))
  else
    let validSignature ← AuthService.generateSignature crypto
      (InspectionToken.signatureData crypto t) t.timestamp t.keyId sigLength
    let equal ← safeEqualStrings validSignature t.signature
    pure (result (if equal then none else some "Invalid inspection token signature"))

end TagsService

/-! ## 4. What a validation does

It says whether the token is valid, and at most it adds a key to the store. -/

/-- The token is accepted in `w`. -/
def Accepts (crypto : TokenCrypto) (env : Env) (token : String) (w : AssetWorld)
    (v : TokenValidation) : Prop :=
  v.isValid = true ∧ ∃ w', (TagsService.validateInspectionToken crypto env token).run w = (.ok v, w')

def AssetWorld.withKeys (w : AssetWorld) (keys : Table SigningKey String SigningKey.keyId)
    (cache : String → Option SigningKey) : AssetWorld :=
  { w with signingKeys := keys, keyCache := cache }

/-- `w` with other keys. -/
def OtherKeys (w u : AssetWorld) : Prop := ∃ keys cache, u = w.withKeys keys cache

namespace AuthService

theorem getSigningKey_after (crypto : TokenCrypto) (keyId : String) (w : AssetWorld) :
    OtherKeys w ((getSigningKey crypto keyId).after w) := by
  rcases (atomic_attempt _).cases w with h | ⟨key, h⟩
  · exact ⟨w.signingKeys, w.keyCache, h⟩
  · rw [attempt_eq_ok] at h
    split at h
    · obtain ⟨-, hw⟩ := Prod.mk.inj (Except.ok.inj h)
      exact ⟨w.signingKeys, w.keyCache, hw.symm⟩
    · simp only at h
      split at h
      · obtain ⟨-, hw⟩ := Prod.mk.inj (Except.ok.inj h)
        exact ⟨_, _, hw.symm⟩
      · split at h
        · exact absurd h (by simp)
        · split at h
          · obtain ⟨-, hw⟩ := Prod.mk.inj (Except.ok.inj h)
            exact ⟨_, _, hw.symm⟩
          · exact absurd h (by simp)

theorem generateSignature_after (crypto : TokenCrypto) (data : String) (timestamp : JsNumber)
    (keyId : Option String) (n : Nat) (w : AssetWorld) :
    OtherKeys w ((generateSignature crypto data timestamp keyId n).after w) := by
  have hkey := getSigningKey_after crypto (keyId.getD crypto.defaultSigningKeyId) w
  apply leaves_bind (I := OtherKeys w) hkey
  intro key u hrun
  rw [after_of_run hrun] at hkey
  exact ReadOnly.leaves ((readOnly_raiseIf _ _).bind fun _ => readOnly_pure _) hkey

end AuthService

namespace TagsService

theorem safeEqualStrings_self (s : String) (w : AssetWorld) :
    (safeEqualStrings s (some s)).run w = (.ok true, w) := by
  unfold safeEqualStrings
  rw [orRaise_some, run_pure_bind, run_pure, decide_eq_true rfl]

/-- A token that has not expired is valid if its signature is the one made of its fields. -/
theorem validateInspectionToken_of_signed {crypto : TokenCrypto} {env : Env} {token : String}
    {t : InspectionToken} {signature : String} {w w' : AssetWorld}
    (hparse : parseInspectionToken crypto token = t) (hexpired : isExpired env t = false)
    (hsign : (AuthService.generateSignature crypto (InspectionToken.signatureData crypto t)
      t.timestamp t.keyId sigLength).run w = (.ok signature, w'))
    (hsignature : t.signature = some signature) :
    ∃ v, v.isValid = true ∧ (validateInspectionToken crypto env token).run w = (.ok v, w') := by
  unfold validateInspectionToken
  rw [hparse]
  dsimp only
  rw [hexpired, if_neg Bool.false_ne_true, run_bind_ok hsign, hsignature,
    run_bind_ok (safeEqualStrings_self _ _), if_pos rfl]
  exact ⟨_, rfl, rfl⟩

theorem validateInspectionToken_after (crypto : TokenCrypto) (env : Env) (token : String)
    (w : AssetWorld) : OtherKeys w ((validateInspectionToken crypto env token).after w) := by
  unfold validateInspectionToken
  simp only
  split
  · exact ⟨w.signingKeys, w.keyCache, rfl⟩
  · have hsig := AuthService.generateSignature_after crypto
      (InspectionToken.signatureData crypto (parseInspectionToken crypto token))
      (parseInspectionToken crypto token).timestamp (parseInspectionToken crypto token).keyId
      sigLength w
    apply leaves_bind (I := OtherKeys w) hsig
    intro signature u hrun
    rw [after_of_run hrun] at hsig
    refine ReadOnly.leaves ?_ hsig
    exact ReadOnly.bind (readOnly_orRaise _ _ |>.bind fun _ => readOnly_pure _)
      fun _ => readOnly_pure _

theorem validateInspectionToken_tagExternalId {crypto : TokenCrypto} {env : Env} {token : String}
    {w w' : AssetWorld} {v : TokenValidation}
    (h : (validateInspectionToken crypto env token).run w = (.ok v, w')) :
    v.tagExternalId = (parseInspectionToken crypto token).tagExternalId := by
  unfold validateInspectionToken at h
  simp only at h
  split at h
  · rw [run_pure] at h
    rw [← Except.ok.inj (Prod.mk.inj h).1]
  · simp only [bind_eq_ok, run_pure, Prod.mk.injEq] at h
    obtain ⟨_, _, -, _, _, -, h, -⟩ := h
    rw [← Except.ok.inj h]

end TagsService

end ShieldApi
