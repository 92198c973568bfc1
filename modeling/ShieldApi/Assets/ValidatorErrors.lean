import Mathlib.Algebra.Order.Field.Rat
import Mathlib.Data.Rat.Floor
import ShieldApi.Assets.SignedArtifacts
import ShieldApi.Lib.JsPrimitive

/-!
# What the validators throw

Three validators are given what somebody sent: `validateInspectionToken` a token,
`validateCustomToken` another one, and `validateTagSignature` the parameters of a tag's address.
**Does each of them return, or else throw a `BadRequestException`?**

Nobody throws one. The `try` in the tags service's own `generateSignature` returns a promise it does
not await, so that it catches nothing, and the auth service has no `try` there at all. So the
question is when they return, and `validators_answer_iff` answers it.

The types of the source are promises of the compiler. The head of a custom token is whatever JSON
its sender wrote, and a time in it is coerced to a number, to a date and to a text (`ParsedJson`).
An object with a `toString` of its own is none of these, and the coercion throws. Where the times
are whole numbers, all this is the validator of `CustomTokens` (`validateCustomToken_whole`).
-/

set_option autoImplicit false

namespace ShieldApi

open Effect

/-! ## 1. Values nobody checked -/

/-- What `JSON.parse` returns; `1e999` is `Infinity`. Of the entries of an object with one key it
    keeps the last, and so does this list. -/
inductive ParsedJson
  | null
  | bool (b : Bool)
  | number (n : Js.Number)
  | text (s : String)
  | array (items : List ParsedJson)
  | object (fields : List (String × ParsedJson))

namespace ParsedJson

mutual

/-- The value has a text, which an object with a `toString` of its own has not. -/
def printable : ParsedJson → Bool
  | .array items => allPrintable items
  | .object fields => (fields.lookup "toString").isNone
  | _ => true

def allPrintable : List ParsedJson → Bool
  | [] => true
  | item :: items => item.printable && allPrintable items

end

def isNull : ParsedJson → Bool
  | .null => true
  | _ => false

end ParsedJson

/-- The functions of Node the validators are run with. -/
structure TokenRuntime where
  codec : TokenCodec
  /-- `JSON.parse`, which may throw. -/
  parse : String → Option ParsedJson
  /-- `String(n)`, of a finite number. -/
  numberToString : Rat → String
  /-- `Number(s)`, of a string. -/
  stringToNumber : String → Js.Number
  /-- `n * 1000`, rounded to a double. -/
  times1000 : Rat → Js.Number
  /-- `n / 1000`, rounded to a double. -/
  seconds : Nat → Rat
  /-- The time value of `new Date(s)`, of a string. -/
  parseDate : String → Option Int
  /-- `createSecret()`, the second time it is called. -/
  createSecretAgain : String

/-- The time value of `new Date(n)`: a number that is not too large, without its fraction. -/
def Js.Number.timeValue : Js.Number → Option Int
  | .finite q =>
    if |q| ≤ 8640000000000000 then some (if 0 ≤ q then ⌊q⌋ else ⌈q⌉) else none
  | _ => none

namespace TokenRuntime

variable (rt : TokenRuntime)

def textOfNumber : Js.Number → String
  | .nan => "NaN"
  | .negInf => "-Infinity"
  | .finite q => rt.numberToString q
  | .posInf => "Infinity"

mutual

/-- `String(value)`, which throws at an object that has a `toString`, since no value of JSON is a
    function. -/
def toText : ParsedJson → Option String
  | .null => some "null"
  | .bool b => some (if b then "true" else "false")
  | .number n => some (rt.textOfNumber n)
  | .text s => some s
  | .array items => (toTexts items).map (",".intercalate ·)
  | .object fields =>
    if (fields.lookup "toString").isNone then some "[object Object]" else none

/-- What `join` makes of the items: `null` is empty. -/
def toTexts : List ParsedJson → Option (List String)
  | [] => some []
  | item :: items => do
    let s ← toText item
    let rest ← toTexts items
    return (if item.isNull then "" else s) :: rest

end

/-- The number a comparison makes of a value. That of an object is that of its text. -/
def toNumber : ParsedJson → Option Js.Number
  | .null => some (.finite 0)
  | .bool b => some (.finite (if b then 1 else 0))
  | .number n => some n
  | .text s => some (rt.stringToNumber s)
  | .array items => (rt.toText (.array items)).map rt.stringToNumber
  | .object fields => (rt.toText (.object fields)).map rt.stringToNumber

mutual

theorem toText_isSome : ∀ v : ParsedJson, (rt.toText v).isSome = v.printable
  | .null | .bool _ | .number _ | .text _ => by simp [toText, ParsedJson.printable]
  | .array items => by
    rw [toText, ParsedJson.printable, ← toTexts_isSome items, Option.isSome_map]
  | .object fields => by
    rw [toText, ParsedJson.printable]
    cases (fields.lookup "toString").isNone <;> rfl

theorem toTexts_isSome : ∀ items : List ParsedJson,
    (rt.toTexts items).isSome = ParsedJson.allPrintable items
  | [] => by simp [toTexts, ParsedJson.allPrintable]
  | item :: items => by
    rw [ParsedJson.allPrintable, ← toText_isSome item, ← toTexts_isSome items, toTexts]
    cases rt.toText item <;> cases rt.toTexts items <;> rfl

end

theorem toNumber_isSome (v : ParsedJson) : (rt.toNumber v).isSome = v.printable := by
  cases v with
  | array items => rw [toNumber, Option.isSome_map, toText_isSome]
  | object fields => rw [toNumber, Option.isSome_map, toText_isSome]
  | null | bool | number | text => simp [toNumber, ParsedJson.printable]

/-! ## 2. The validators -/

/-- The time value of `new Date(timestamp < 1e12 ? timestamp * 1000 : timestamp)`, of a timestamp
    that is coerced to `n`. What is not below is left as it was, and a text is read as a date. -/
def timeValue (timestamp : ParsedJson) (n : Js.Number) : Option Int :=
  if n.lt (.finite 1000000000000) then
    match n with
    | .finite q => (rt.times1000 q).timeValue
    | _ => none
  else
    match timestamp with
    | .number n => n.timeValue
    | v => (rt.toText v).bind rt.parseDate

/-- `isBefore(signingKey.expiredOn, date)`. -/
def isExpiredKey (key : SigningKey) (time : Option Int) : Bool :=
  key.expiredOn.any fun expiredOn => time.any fun time : Int => (expiredOn : Int) < time

def notPrimitive : ApiError := .error "Cannot convert object to primitive value"

def generateSignature (signatureData : String) (timestamp : ParsedJson) (keyId : Option String)
    (sigLength : Nat) : AssetApi String := do
  let crypto := rt.codec.crypto
  let signingKey ← AuthService.getSigningKey crypto (keyId.getD crypto.defaultSigningKeyId)
  let n ← orRaise notPrimitive (rt.toNumber timestamp)
  raiseIf (isExpiredKey signingKey (rt.timeValue timestamp n)) AuthService.signingKeyExpired
  let text ← orRaise notPrimitive (rt.toText timestamp)
  let hmac := crypto.hmacSha256 signingKey.keySecret (signatureData ++ "." ++ text)
  pure (String.ofList (hmac.toList.take sigLength))

/-- `exp` and `iat`, of a head that is an object and has both. -/
def headTimes : ParsedJson → Option (ParsedJson × ParsedJson)
  | .object fields => do
    let exp ← fields.lookup "exp"
    let iat ← fields.lookup "iat"
    return (exp, iat)
  | _ => none

/-- The times of a token whose head can be read. -/
def times (token : String) : Option (ParsedJson × ParsedJson) :=
  (rt.parse (rt.codec.crypto.base64UrlDecode ((fieldsOf '.' token)[0]?.getD ""))).bind headTimes

def validateCustomToken (env : Env) (token : String) : AssetApi CustomTokenValidation := do
  let fields := fieldsOf '.' token
  let head := fields[0]?.getD ""
  match rt.times token with
  | none => pure (.invalid "Invalid token")
  | some (exp, iat) =>
    let n ← orRaise notPrimitive (rt.toNumber exp)
    if n.lt (.finite (rt.seconds env.now)) then pure (.invalid "Token expired")
    else
      let challenge ← rt.generateSignature
        (head ++ "." ++ TagsService.textOrUndefined fields[1]?) iat none AuthService.defaultSigLength
      if fields[2]? = some challenge then
        match fields[1]?.bind rt.codec.decodeTokenPart with
        | some payload => pure (.valid payload)
        | none => pure (.invalid "Invalid token")
      else pure (.invalid "Invalid token")

structure ValidateSignedUrlDto where
  sn : String
  id : String
  t : Js.Number
  sig : String
  kid : String

structure TagUrlValidation where
  isValid : Bool
  serialNumber : String
  id : String
  timestamp : Js.Number
  keyId : String
  inspectionToken : Option String

/-- The second key a call may create has another secret. -/
def again : TokenCodec :=
  { rt.codec with crypto := { rt.codec.crypto with createSecret := rt.createSecretAgain } }

def validateTagSignature (env : Env) (signedUrlDto : ValidateSignedUrlDto) :
    AssetApi TagUrlValidation := do
  let { sn, id, t, sig, kid } := signedUrlDto
  let signature ← rt.generateSignature (sn ++ "." ++ id) (.number t) (some kid) TagsService.sigLength
  let isValid ← TagsService.safeEqualStrings signature (some sig)
  let inspectionToken ←
    if isValid then some <$> TagsService.generateInspectionToken rt.again env sn id else pure none
  pure { isValid, serialNumber := sn, id, timestamp := t, keyId := kid, inspectionToken }

end TokenRuntime

/-! ## 3. Whole numbers -/

namespace TokenRuntime

/-- Whole numbers are written as the signing service writes them, and those of seconds become
    milliseconds without rounding. -/
structure Whole (rt : TokenRuntime) : Prop where
  text : ∀ n : Nat, rt.numberToString n = rt.codec.crypto.intToString n
  times : ∀ n : Nat, n < 1000000000000 → rt.times1000 n = .finite ((n * 1000 : Nat) : Rat)
  seconds : ∀ n now : Nat, (n : Rat) < rt.seconds now ↔ 1000 * n < now

variable {rt : TokenRuntime}

theorem timeValue_natCast (n : Nat) :
    (Js.Number.finite (n : Rat)).timeValue = (JsNumber.finite n).timeValue := by
  unfold Js.Number.timeValue JsNumber.timeValue
  simp only
  rw [abs_of_nonneg (Nat.cast_nonneg n), if_pos (Nat.cast_nonneg n), Int.floor_natCast]
  refine if_congr ?_ rfl rfl
  rw [Int.natAbs_natCast]
  exact_mod_cast Iff.rfl

theorem timeValue_whole (h : rt.Whole) (n : Nat) :
    rt.timeValue (.number (.finite n)) (.finite n) = (JsNumber.finite n).toMillis.timeValue := by
  unfold timeValue JsNumber.toMillis Js.Number.lt
  by_cases hn : n < 1000000000000
  · have hlt : (n : Rat) < 1000000000000 := by exact_mod_cast hn
    have hlt' : (n : Int) < 1000000000000 := by exact_mod_cast hn
    simp only [hlt, decide_true, if_true, hlt', h.times n hn, timeValue_natCast]
    rfl
  · have hlt : ¬ (n : Rat) < 1000000000000 := by exact_mod_cast hn
    have hlt' : ¬ (n : Int) < 1000000000000 := by exact_mod_cast hn
    simp only [hlt, decide_false, Bool.false_eq_true, if_false, hlt', timeValue_natCast]

theorem isExpiredKey_whole (h : rt.Whole) (key : SigningKey) (n : Nat) :
    isExpiredKey key (rt.timeValue (.number (.finite n)) (.finite n)) =
      AuthService.isExpiredKey key (.finite n) := by
  rw [isExpiredKey, timeValue_whole h]
  unfold AuthService.isExpiredKey
  generalize (JsNumber.finite n).toMillis.timeValue = time
  cases key.expiredOn with
  | none => rfl
  | some expiredOn => cases time <;> rfl

/-- At a whole number of the source's type the signature is the one of `AuthService`. -/
theorem generateSignature_whole (h : rt.Whole) (signatureData : String) (n : Nat)
    (keyId : Option String) (sigLength : Nat) :
    rt.generateSignature signatureData (.number (.finite n)) keyId sigLength =
      AuthService.generateSignature rt.codec.crypto signatureData (.finite n) keyId sigLength := by
  have htext : rt.toText (.number (.finite n)) = some (rt.codec.crypto.intToString n) := by
    rw [toText, textOfNumber, h.text]
  unfold generateSignature AuthService.generateSignature
  simp only [toNumber, orRaise_some, pure_bind_self, htext, isExpiredKey_whole h, JsNumber.text]

/-- And a head with two of them is read as before. -/
theorem validateCustomToken_whole (h : rt.Whole) (env : Env) {token : String} {head : Json}
    {exp iat : Nat}
    (htimes : rt.times token = some (.number (.finite exp), .number (.finite iat)))
    (hhead : rt.codec.decodeTokenPart ((fieldsOf '.' token)[0]?.getD "") = some head)
    (hexp : head.number? "exp" = some (.finite exp))
    (hiat : head.number? "iat" = some (.finite iat)) :
    rt.validateCustomToken env token = AuthService.validateCustomToken rt.codec env token := by
  unfold validateCustomToken AuthService.validateCustomToken
  have hpast : (Js.Number.finite (exp : Rat)).lt (.finite (rt.seconds env.now)) =
      (JsNumber.finite (exp : Int)).isPast env := by
    rw [AuthService.isPast_natCast, Js.Number.lt]
    exact decide_eq_decide.mpr (h.seconds exp env.now)
  simp only [htimes, hhead, hexp, hiat, Option.bind_eq_bind, Option.bind_some, Option.pure_def,
    toNumber, orRaise_some, pure_bind_self, hpast, generateSignature_whole h]
  all_goals rfl

end TokenRuntime

/-! ## 4. When they return -/

/-- What is thrown, if anything, is a `BadRequestException`. -/
def OnlyBadRequests {α : Type} (x : AssetApi α) (w : AssetWorld) : Prop :=
  ∀ e, (x.run w).1 = .error e → ∃ message, e = .badRequest message

/-- The key of an id: from the cache, from the store, or a new one. -/
def signingKeyOf (crypto : TokenCrypto) (keyId : String) (w : AssetWorld) : Option SigningKey :=
  (w.keyCache keyId).or ((w.signingKeys.find? keyId).or
    (if w.signingKeys.rows.any (·.keySecret = crypto.createSecret) then none
      else some { keyId, keySecret := crypto.createSecret }))

/-- A key can be had that has not expired. -/
def Signs (crypto : TokenCrypto) (keyId : String) (expired : SigningKey → Bool) (w : AssetWorld) :
    Prop :=
  ∃ key, signingKeyOf crypto keyId w = some key ∧ expired key = false

def Returns {α : Type} (x : AssetApi α) (w : AssetWorld) : Prop := ∃ a w', x.run w = (.ok a, w')

/-- Nobody throws a `BadRequestException`. -/
def NoBadRequests {α : Type} (x : AssetApi α) : Prop :=
  ∀ w message w', x.run w ≠ (.error (.badRequest message), w')

theorem onlyBadRequests_iff {α : Type} {x : AssetApi α} (hx : NoBadRequests x) {w : AssetWorld} :
    OnlyBadRequests x w ↔ Returns x w := by
  rcases hrun : x.run w with ⟨res, w'⟩
  unfold OnlyBadRequests Returns
  rw [hrun]
  cases res with
  | ok a => exact ⟨fun _ => ⟨a, w', rfl⟩, fun _ e he => nomatch he⟩
  | error e =>
    constructor
    · intro h
      obtain ⟨message, rfl⟩ := h e rfl
      exact absurd hrun (hx w message w')
    · rintro ⟨a, w'', h⟩
      exact nomatch h

section NoBadRequests

variable {α β : Type}

theorem noBadRequests_pure (a : α) : NoBadRequests (pure a) := fun _ _ _ h => nomatch h

theorem noBadRequests_orRaise {e : ApiError} (he : ∀ message, e ≠ .badRequest message)
    (o : Option α) : NoBadRequests (orRaise e o) := by
  intro w message w' h
  cases o with
  | some a => exact nomatch h
  | none => exact he message (Except.error.inj (Prod.mk.inj h).1)

theorem noBadRequests_raiseIf {e : ApiError} (he : ∀ message, e ≠ .badRequest message)
    (c : Bool) : NoBadRequests (raiseIf c e) := by
  intro w message w' h
  cases c with
  | false => exact nomatch h
  | true => exact he message (Except.error.inj (Prod.mk.inj h).1)

theorem NoBadRequests.bind {x : AssetApi α} {f : α → AssetApi β} (hx : NoBadRequests x)
    (hf : ∀ a, NoBadRequests (f a)) : NoBadRequests (x >>= f) := by
  intro w message w' h
  rcases hrun : x.run w with ⟨res, w₁⟩
  cases res with
  | error e =>
    rw [run_bind_error hrun] at h
    obtain ⟨he, rfl⟩ := Prod.mk.inj h
    exact hx w message w₁ (hrun.trans (by rw [Except.error.inj he]))
  | ok a =>
    rw [run_bind_ok hrun] at h
    exact hf a w₁ message w' h

theorem noBadRequests_getSigningKey (crypto : TokenCrypto) (keyId : String) :
    NoBadRequests (AuthService.getSigningKey crypto keyId) := by
  intro w message w' h
  unfold AuthService.getSigningKey at h
  obtain ⟨h, -⟩ := attempt_eq_error.mp h
  split at h
  · cases h
  · simp only at h
    split at h
    · cases h
    · split at h
      · cases h
      · split at h <;> cases h

theorem notAString_ne (message : String) : TagsService.notAString ≠ .badRequest message := nofun

theorem signingKeyExpired_ne (message : String) :
    AuthService.signingKeyExpired ≠ .badRequest message := nofun

theorem notPrimitive_ne (message : String) :
    TokenRuntime.notPrimitive ≠ .badRequest message := nofun

theorem noBadRequests_generateSignature (crypto : TokenCrypto) (signatureData : String)
    (timestamp : JsNumber) (keyId : Option String) (sigLength : Nat) :
    NoBadRequests (AuthService.generateSignature crypto signatureData timestamp keyId sigLength) :=
  (noBadRequests_getSigningKey _ _).bind fun _ =>
    (noBadRequests_raiseIf signingKeyExpired_ne _).bind fun _ => noBadRequests_pure _

theorem noBadRequests_safeEqualStrings (a : String) (b : Option String) :
    NoBadRequests (TagsService.safeEqualStrings a b) :=
  (noBadRequests_orRaise notAString_ne _).bind fun _ => noBadRequests_pure _

theorem noBadRequests_validateInspectionToken (crypto : TokenCrypto) (env : Env) (token : String) :
    NoBadRequests (TagsService.validateInspectionToken crypto env token) := by
  unfold TagsService.validateInspectionToken
  simp only
  split
  · exact noBadRequests_pure _
  · exact (noBadRequests_generateSignature _ _ _ _ _).bind fun _ =>
      (noBadRequests_safeEqualStrings _ _).bind fun _ => noBadRequests_pure _

namespace TokenRuntime

variable (rt : TokenRuntime)

theorem noBadRequests_generateSignature (signatureData : String) (timestamp : ParsedJson)
    (keyId : Option String) (sigLength : Nat) :
    NoBadRequests (rt.generateSignature signatureData timestamp keyId sigLength) :=
  (noBadRequests_getSigningKey _ _).bind fun _ =>
    (noBadRequests_orRaise notPrimitive_ne _).bind fun _ =>
      (noBadRequests_raiseIf signingKeyExpired_ne _).bind fun _ =>
        (noBadRequests_orRaise notPrimitive_ne _).bind fun _ => noBadRequests_pure _

theorem noBadRequests_validateCustomToken (env : Env) (token : String) :
    NoBadRequests (rt.validateCustomToken env token) := by
  unfold validateCustomToken
  simp only
  split
  · exact noBadRequests_pure _
  · refine (noBadRequests_orRaise notPrimitive_ne _).bind fun n => ?_
    split
    · exact noBadRequests_pure _
    · refine (rt.noBadRequests_generateSignature _ _ _ _).bind fun challenge => ?_
      split
      · split <;> exact noBadRequests_pure _
      · exact noBadRequests_pure _

theorem noBadRequests_validateTagSignature (env : Env) (dto : ValidateSignedUrlDto) :
    NoBadRequests (rt.validateTagSignature env dto) := by
  refine (rt.noBadRequests_generateSignature _ _ _ _).bind fun signature => ?_
  refine (noBadRequests_safeEqualStrings _ _).bind fun isValid => ?_
  cases isValid with
  | false => exact (noBadRequests_pure _).bind fun _ => noBadRequests_pure _
  | true =>
    have htoken : NoBadRequests
        (TagsService.generateInspectionToken rt.again env dto.sn dto.id) :=
      (ShieldApi.noBadRequests_generateSignature _ _ _ _ _).bind fun _ => noBadRequests_pure _
    exact (htoken.bind fun _ => noBadRequests_pure _).bind fun _ => noBadRequests_pure _

end TokenRuntime

end NoBadRequests

/-! ## 5. What they need -/

section Returns

variable {α β : Type}

theorem returns_pure (a : α) (w : AssetWorld) : Returns (pure a) w := ⟨a, w, rfl⟩

theorem returns_bind {x : AssetApi α} {f : α → AssetApi β} {w : AssetWorld} :
    Returns (x >>= f) w ↔ ∃ a w', x.run w = (.ok a, w') ∧ Returns (f a) w' := by
  unfold Returns
  simp only [bind_eq_ok]
  grind

/-- Where the rest always returns. -/
theorem returns_bind_of_total {x : AssetApi α} {f : α → AssetApi β} {w : AssetWorld}
    (hf : ∀ a w', Returns (f a) w') : Returns (x >>= f) w ↔ Returns x w := by
  rw [returns_bind]
  constructor
  · rintro ⟨a, w', h, -⟩
    exact ⟨a, w', h⟩
  · rintro ⟨a, w', h⟩
    exact ⟨a, w', h, hf a w'⟩

end Returns

theorem getSigningKey_eq_ok {crypto : TokenCrypto} {keyId : String} {key : SigningKey}
    {w : AssetWorld} : (∃ w', (AuthService.getSigningKey crypto keyId).run w = (.ok key, w')) ↔
      signingKeyOf crypto keyId w = some key := by
  unfold AuthService.getSigningKey signingKeyOf
  simp only [attempt_eq_ok]
  cases hcache : w.keyCache keyId with
  | some cached => simp
  | none =>
    cases hstored : w.signingKeys.find? keyId with
    | some stored => simp
    | none =>
      by_cases htaken : w.signingKeys.rows.any (·.keySecret = crypto.createSecret) = true
      · simp [htaken]
      · obtain ⟨t, ht⟩ := Option.isSome_iff_exists.mp (Table.insert?_isSome.mpr hstored :
          (w.signingKeys.insert? { keyId, keySecret := crypto.createSecret }).isSome = true)
        simp [htaken, ht]

section Signatures

variable {crypto : TokenCrypto} (signatureData : String) (keyId : Option String) (sigLength : Nat)
  {w : AssetWorld}

theorem returns_generateSignature {timestamp : JsNumber} :
    Returns (AuthService.generateSignature crypto signatureData timestamp keyId sigLength) w ↔
      Signs crypto (keyId.getD crypto.defaultSigningKeyId) (AuthService.isExpiredKey · timestamp)
        w := by
  unfold Returns Signs
  simp only [AuthService.generateSignature_eq_ok, ← getSigningKey_eq_ok]
  constructor
  · rintro ⟨signature, w', key, hget, hlive, -⟩
    exact ⟨key, ⟨w', hget⟩, hlive⟩
  · rintro ⟨key, ⟨w', hget⟩, hlive⟩
    exact ⟨_, w', key, hget, hlive, rfl⟩

end Signatures

namespace TokenRuntime

variable {rt : TokenRuntime} {signatureData : String} {keyId : Option String} {sigLength : Nat}
  {w : AssetWorld} {timestamp : ParsedJson}

/-- The key had expired at a time that is coerced. -/
def keyExpired (rt : TokenRuntime) (timestamp : ParsedJson) (key : SigningKey) : Bool :=
  (rt.toNumber timestamp).any fun n => isExpiredKey key (rt.timeValue timestamp n)

/-- The signature of a text under a key. -/
def signatureOf (rt : TokenRuntime) (key : SigningKey) (signatureData : String)
    (timestamp : ParsedJson) (sigLength : Nat) : String :=
  String.ofList ((rt.codec.crypto.hmacSha256 key.keySecret
    (signatureData ++ "." ++ (rt.toText timestamp).getD "")).toList.take sigLength)

theorem generateSignature_eq_ok {signature : String} {w' : AssetWorld} :
    (rt.generateSignature signatureData timestamp keyId sigLength).run w = (.ok signature, w') ↔
      ∃ key, (AuthService.getSigningKey rt.codec.crypto
          (keyId.getD rt.codec.crypto.defaultSigningKeyId)).run w = (.ok key, w') ∧
        timestamp.printable = true ∧ rt.keyExpired timestamp key = false ∧
        signature = rt.signatureOf key signatureData timestamp sigLength := by
  have hnumber := rt.toNumber_isSome timestamp
  have htext := rt.toText_isSome timestamp
  unfold generateSignature
  simp only [bind_eq_ok]
  cases hprintable : timestamp.printable with
  | false =>
    rw [hprintable, Option.isSome_eq_false_iff, Option.isNone_iff_eq_none] at hnumber
    simp [hnumber, Prod.ext_iff]
  | true =>
    rw [hprintable] at hnumber htext
    obtain ⟨n, hn⟩ := Option.isSome_iff_exists.mp hnumber
    obtain ⟨text, ht⟩ := Option.isSome_iff_exists.mp htext
    simp only [hn, ht, orRaise_some, run_pure, Prod.mk.injEq, Except.ok.injEq, raiseIf_eq_ok,
      keyExpired, Option.any_some, signatureOf, Option.getD_some]
    grind

theorem returns_generateSignature (signatureData : String) (keyId : Option String)
    (sigLength : Nat) :
    Returns (rt.generateSignature signatureData timestamp keyId sigLength) w ↔
      timestamp.printable = true ∧ Signs rt.codec.crypto
        (keyId.getD rt.codec.crypto.defaultSigningKeyId) (rt.keyExpired timestamp) w := by
  unfold Returns Signs
  simp only [generateSignature_eq_ok, ← getSigningKey_eq_ok]
  constructor
  · rintro ⟨signature, w', key, hget, hprintable, hlive, -⟩
    exact ⟨hprintable, key, ⟨w', hget⟩, hlive⟩
  · rintro ⟨hprintable, key, ⟨w', hget⟩, hlive⟩
    exact ⟨_, w', key, hget, hprintable, hlive, rfl⟩

end TokenRuntime

/-! ## 6. The three validators -/

/-- The token has expired, or it has its six fields and its key signs. -/
def InspectionTokenAnswered (crypto : TokenCrypto) (env : Env) (token : String) (w : AssetWorld) :
    Prop :=
  let t := TagsService.parseInspectionToken crypto token
  TagsService.isExpired env t = true ∨
    t.signature.isSome = true ∧
      Signs crypto (t.keyId.getD crypto.defaultSigningKeyId)
        (AuthService.isExpiredKey · t.timestamp) w

namespace TokenRuntime

/-- `exp < Date.now() / 1000`, of a value that is coerced. -/
def isPast (rt : TokenRuntime) (env : Env) (exp : ParsedJson) : Bool :=
  (rt.toNumber exp).any fun n => n.lt (.finite (rt.seconds env.now))

/-- The head cannot be read, or its `exp` has a text and is past, or so have both times, and the
    default key signs. -/
def CustomTokenAnswered (rt : TokenRuntime) (env : Env) (token : String) (w : AssetWorld) : Prop :=
  match rt.times token with
  | none => True
  | some (exp, iat) =>
    exp.printable = true ∧
      (rt.isPast env exp = true ∨
        iat.printable = true ∧ Signs rt.codec.crypto rt.codec.crypto.defaultSigningKeyId
          (rt.keyExpired iat) w)

/-- The key of the address signs, and if the signature is right, the default key does so now. -/
def TagSignatureAnswered (rt : TokenRuntime) (env : Env) (dto : ValidateSignedUrlDto)
    (w : AssetWorld) : Prop :=
  ∃ key, signingKeyOf rt.codec.crypto dto.kid w = some key ∧
    rt.keyExpired (.number dto.t) key = false ∧
    (dto.sig = rt.signatureOf key (dto.sn ++ "." ++ dto.id) (.number dto.t) TagsService.sigLength →
      Signs rt.again.crypto rt.codec.crypto.defaultSigningKeyId
        (AuthService.isExpiredKey · (.finite env.now))
        ((AuthService.getSigningKey rt.codec.crypto dto.kid).after w))

end TokenRuntime

section Validators

variable {crypto : TokenCrypto} {rt : TokenRuntime} {env : Env} {token : String} {w : AssetWorld}
  {dto : TokenRuntime.ValidateSignedUrlDto}

theorem returns_safeEqualStrings {a : String} {b : Option String} :
    Returns (TagsService.safeEqualStrings a b) w ↔ b.isSome = true := by
  cases b with
  | none => exact iff_of_false (fun ⟨_, _, h⟩ => nomatch h) nofun
  | some b => exact iff_of_true (returns_pure _ w) rfl

theorem returns_validateInspectionToken :
    Returns (TagsService.validateInspectionToken crypto env token) w ↔
      InspectionTokenAnswered crypto env token w := by
  unfold TagsService.validateInspectionToken InspectionTokenAnswered
  simp only
  by_cases hexpired : TagsService.isExpired env (TagsService.parseInspectionToken crypto token) = true
  · rw [if_pos hexpired]
    exact iff_of_true (returns_pure _ _) (.inl hexpired)
  · rw [if_neg hexpired, or_iff_right hexpired, returns_bind]
    constructor
    · intro h
      obtain ⟨signature, w', hsign, h⟩ := h
      rw [returns_bind_of_total fun _ _ => returns_pure _ _] at h
      exact ⟨returns_safeEqualStrings.mp h,
        (returns_generateSignature _ _ _).mp ⟨signature, w', hsign⟩⟩
    · intro h
      obtain ⟨hsignature, hsigns⟩ := h
      obtain ⟨signature, w', hsign⟩ := (returns_generateSignature _ _ _).mpr hsigns
      refine ⟨signature, w', hsign, ?_⟩
      rw [returns_bind_of_total fun _ _ => returns_pure _ _]
      exact returns_safeEqualStrings.mpr hsignature

theorem returns_validateCustomToken :
    Returns (rt.validateCustomToken env token) w ↔ rt.CustomTokenAnswered env token w := by
  unfold TokenRuntime.validateCustomToken TokenRuntime.CustomTokenAnswered
  simp only
  cases htimes : rt.times token with
  | none => exact iff_of_true (returns_pure _ _) trivial
  | some times =>
    obtain ⟨exp, iat⟩ := times
    simp only
    have hnumber := rt.toNumber_isSome exp
    unfold TokenRuntime.isPast
    cases hn : rt.toNumber exp with
    | none =>
      rw [hn] at hnumber
      rw [← hnumber]
      exact iff_of_false (fun ⟨_, _, h⟩ => nomatch h) nofun
    | some n =>
      rw [hn] at hnumber
      rw [← hnumber, orRaise_some, pure_bind_self, Option.any_some]
      by_cases hpast : n.lt (.finite (rt.seconds env.now)) = true
      · rw [if_pos hpast]
        exact iff_of_true (returns_pure _ _) ⟨rfl, .inl hpast⟩
      · rw [if_neg hpast, or_iff_right hpast, and_iff_right Option.isSome_some,
          returns_bind_of_total]
        · exact TokenRuntime.returns_generateSignature _ none _
        · intro challenge w'
          split
          · split <;> exact returns_pure _ _
          · exact returns_pure _ _

theorem returns_generateInspectionToken {codec : TokenCodec} {serialNumber externalId : String} :
    Returns (TagsService.generateInspectionToken codec env serialNumber externalId) w ↔
      Signs codec.crypto codec.crypto.defaultSigningKeyId
        (AuthService.isExpiredKey · (.finite env.now)) w := by
  unfold TagsService.generateInspectionToken
  simp only
  rw [returns_bind_of_total fun _ _ => returns_pure _ _]
  exact returns_generateSignature _ (some _) _

/-- The rest of the method, after the signature. -/
theorem returns_afterSignature {signature : String} :
    Returns (do
      let isValid ← TagsService.safeEqualStrings signature (some dto.sig)
      let inspectionToken ←
        if isValid then some <$> TagsService.generateInspectionToken rt.again env dto.sn dto.id
        else pure none
      pure ({ isValid, serialNumber := dto.sn, id := dto.id, timestamp := dto.t, keyId := dto.kid,
              inspectionToken } : TokenRuntime.TagUrlValidation)) w ↔
      (dto.sig = signature → Signs rt.again.crypto rt.codec.crypto.defaultSigningKeyId
        (AuthService.isExpiredKey · (.finite env.now)) w) := by
  unfold TagsService.safeEqualStrings
  rw [orRaise_some, bind_bind, pure_bind_self]
  by_cases hsame : signature = dto.sig
  · rw [decide_eq_true hsame, forall_prop_of_true hsame.symm, pure_bind_self]
    simp only [if_true]
    rw [returns_bind_of_total fun _ _ => returns_pure _ _]
    exact (returns_bind_of_total fun _ _ => returns_pure _ _).trans returns_generateInspectionToken
  · rw [decide_eq_false hsame, pure_bind_self]
    exact iff_of_true (returns_pure _ _) fun h => absurd h.symm hsame

theorem returns_validateTagSignature :
    Returns (rt.validateTagSignature env dto) w ↔ rt.TagSignatureAnswered env dto w := by
  unfold TokenRuntime.validateTagSignature TokenRuntime.TagSignatureAnswered
  simp only
  rw [returns_bind]
  constructor
  · intro h
    obtain ⟨signature, w', hsign, h⟩ := h
    obtain ⟨key, hget, -, hlive, rfl⟩ := TokenRuntime.generateSignature_eq_ok.mp hsign
    have hget : (AuthService.getSigningKey rt.codec.crypto dto.kid).run w = (.ok key, w') := hget
    refine ⟨key, getSigningKey_eq_ok.mp ⟨w', hget⟩, hlive, ?_⟩
    rw [after_of_run hget]
    exact returns_afterSignature.mp h
  · intro h
    obtain ⟨key, hkey, hlive, h⟩ := h
    obtain ⟨w', hget⟩ := getSigningKey_eq_ok.mpr hkey
    rw [after_of_run hget] at h
    have hprintable : (ParsedJson.number dto.t).printable = true := by
      simp [ParsedJson.printable]
    exact ⟨_, w', TokenRuntime.generateSignature_eq_ok.mpr ⟨key, hget, hprintable, hlive, rfl⟩,
      returns_afterSignature.mpr h⟩

/-- **When the validators throw nothing but bad requests**: when they throw nothing. -/
theorem validators_answer_iff :
    (OnlyBadRequests (TagsService.validateInspectionToken crypto env token) w ↔
        InspectionTokenAnswered crypto env token w) ∧
      (OnlyBadRequests (rt.validateCustomToken env token) w ↔
        rt.CustomTokenAnswered env token w) ∧
      (OnlyBadRequests (rt.validateTagSignature env dto) w ↔
        rt.TagSignatureAnswered env dto w) := by
  refine ⟨?_, ?_, ?_⟩
  · rw [onlyBadRequests_iff (noBadRequests_validateInspectionToken _ _ _),
      returns_validateInspectionToken]
  · rw [onlyBadRequests_iff (rt.noBadRequests_validateCustomToken _ _),
      returns_validateCustomToken]
  · rw [onlyBadRequests_iff (rt.noBadRequests_validateTagSignature _ _),
      returns_validateTagSignature]

end Validators

/-! ## 7. A key that has expired -/

/-- The head of a custom token that was issued now, for an hour. -/
def issuedHead : String := "eyJpYXQiOjE3NjcyMjIzMDAsImV4cCI6MTc2NzIyNTkwMH0"

def issuedTimes : String := "\x7b\"iat\":1767222300,\"exp\":1767225900\x7d"

/-- Of numbers it knows the whole ones, and of tokens this one. -/
def nodeRuntime : TokenRuntime where
  codec :=
    { crypto :=
        { base64UrlDecode := fun s => if s = issuedHead then issuedTimes else ""
          hmacSha256 := fun _ _ => "", defaultSigningKeyId := "default", createSecret := "secret" }
      base64UrlEncode := fun _ => ⟨"", nofun⟩
      stringify := fun _ => ""
      parse := fun _ => none }
  parse := fun s =>
    if s = issuedTimes then
      some (.object [("iat", .number (.finite 1767222300)), ("exp", .number (.finite 1767225900))])
    else none
  numberToString := fun q => toString q.num
  stringToNumber := fun _ => .nan
  times1000 := fun q => .finite (q.num * 1000 : Int)
  seconds := fun n => (n / 1000 : Nat)
  parseDate := fun _ => none
  createSecretAgain := "another secret"

/-- The default key expired two days ago. -/
def retiredKey : AssetWorld where
  core := {}
  signingKeys := ⟨[{ keyId := "default", keySecret := "s3cret", expiredOn := some 1767000000000 }],
    List.nodup_singleton _⟩

/-- A token without a signature, a custom token, and the address of a tag: none of the three is
    answered. -/
theorem retiredKey_unanswered :
    ¬ OnlyBadRequests (TagsService.validateInspectionToken nodeRuntime.codec.crypto
        { now := 1767222300000 } "") retiredKey ∧
      ¬ OnlyBadRequests (nodeRuntime.validateCustomToken { now := 1767222300000 } (issuedHead ++ ".e30.c2ln"))
        retiredKey ∧
      ¬ OnlyBadRequests (nodeRuntime.validateTagSignature { now := 1767222300000 }
        { sn := "SN-1", id := "tag-1", t := .finite 1767222300000, sig := "c2ln",
          kid := "default" }) retiredKey := by
  refine ⟨fun h => ?_, fun h => ?_, fun h => ?_⟩
  · obtain ⟨message, hmessage⟩ := h TagsService.notAString rfl
    exact nomatch hmessage
  · obtain ⟨message, hmessage⟩ := h AuthService.signingKeyExpired rfl
    exact nomatch hmessage
  · obtain ⟨message, hmessage⟩ := h AuthService.signingKeyExpired rfl
    exact nomatch hmessage

end ShieldApi
