import ShieldApi.Auth.Cls
import ShieldApi.Auth.SigningKeys
import ShieldApi.Lib.Fields

/-!
# Custom tokens

`generateCustomToken` and `validateCustomToken` of the auth service, and the two services that use
them. The events service signs the caller's access grant, for a stream of database events; the legacy
migration service signs `{}`, for the socket of the migration. A token is three fields: the
times, the payload, and the signature of both under the default key. **It does not say what it is
for**, and neither service looks at the payload before it takes the token for its own. So whoever
may listen to events may open the migration socket, and the other way round.

JSON and base64url are Node's. What is used of them is that a part is read back as it was written
(`Reads`), and the alphabet of base64url, which has no dot.
-/

set_option autoImplicit false

namespace ShieldApi

open Effect

/-! ## 1. Parts -/

/-- JSON. -/
inductive Json
  | null
  | bool (b : Bool)
  | num (n : JsNumber)
  | str (s : String)
  | arr (items : List Json)
  | obj (fields : List (String × Json))

/-- `Json.field j name`: the number in a field of an object. -/
def Json.number? (name : String) : Json → Option JsNumber
  | .obj fields =>
    match fields.lookup name with
    | some (.num n) => some n
    | _ => none
  | _ => none

def isBase64Url (c : Char) : Bool := c.isAlphanum || c = '-' || c = '_'

/-- A text in base64url. -/
structure Base64Url where
  text : String
  alphabet : ∀ c ∈ text.toList, isBase64Url c = true

def Base64Url.ofAlphabet (text : String) (h : text.toList.all isBase64Url = true) : Base64Url :=
  ⟨text, List.all_eq_true.mp h⟩

theorem Base64Url.undotted (b : Base64Url) : '.' ∉ b.text.toList :=
  fun h => absurd (b.alphabet '.' h) (by decide)

/-- The functions of Node the custom tokens are made with. -/
structure TokenCodec where
  crypto : TokenCrypto
  /-- `Buffer.from(s).toString('base64url')`. -/
  base64UrlEncode : String → Base64Url
  /-- `JSON.stringify`. -/
  stringify : Json → String
  /-- `JSON.parse`, which may throw. -/
  parse : String → Option Json

namespace TokenCodec

variable (codec : TokenCodec)

def encodeTokenPart (part : Json) : Base64Url := codec.base64UrlEncode (codec.stringify part)

def decodeTokenPart (part : String) : Option Json := codec.parse (codec.crypto.base64UrlDecode part)

/-- The part is read back as it was written. -/
def Reads (part : Json) : Prop := codec.decodeTokenPart (codec.encodeTokenPart part).text = some part

/-- A digest is base64url. -/
def Digests : Prop :=
  ∀ secret data, ∀ c ∈ (codec.crypto.hmacSha256 secret data).toList, isBase64Url c = true

end TokenCodec

/-! ## 2. The auth service -/

def tokenHead (iat exp : Nat) : Json :=
  .obj [("iat", .num (.finite iat)), ("exp", .num (.finite exp))]

inductive CustomTokenValidation
  | valid (payload : Json)
  | invalid (error : String)

/-- `exp < Date.now() / 1000`. -/
def JsNumber.isPast (env : Env) : JsNumber → Bool
  | .finite n => 1000 * n < (env.now : Int)
  | .infinite negative => negative
  | .nan => false

namespace AuthService

def defaultSigLength : Nat := 16

def generateCustomToken (codec : TokenCodec) (env : Env) (payload : Json) (expiresInSeconds : Nat) :
    AssetApi String := do
  let nowSeconds := env.now / 1000
  let head := codec.encodeTokenPart (tokenHead nowSeconds (nowSeconds + expiresInSeconds))
  let encodedPayload := codec.encodeTokenPart payload
  let signature ← generateSignature codec.crypto (head.text ++ "." ++ encodedPayload.text)
    (.finite nowSeconds) none defaultSigLength
  pure (head.text ++ "." ++ encodedPayload.text ++ "." ++ signature)

/-- A head whose times are no numbers counts as unreadable here. What the source makes of one is
    `TokenRuntime.validateCustomToken`. -/
def validateCustomToken (codec : TokenCodec) (env : Env) (token : String) :
    AssetApi CustomTokenValidation := do
  let fields := fieldsOf '.' token
  let head := fields[0]?.getD ""
  let times := do
    let decodedHead ← codec.decodeTokenPart head
    let exp ← decodedHead.number? "exp"
    let iat ← decodedHead.number? "iat"
    pure (exp, iat)
  match times with
  | none => pure (.invalid "Invalid token")
  | some (exp, iat) =>
    if exp.isPast env then pure (.invalid "Token expired")
    else
      let challenge ← generateSignature codec.crypto
        (head ++ "." ++ TagsService.textOrUndefined fields[1]?) iat none defaultSigLength
      if fields[2]? = some challenge then
        match fields[1]?.bind codec.decodeTokenPart with
        | some payload => pure (.valid payload)
        | none => pure (.invalid "Invalid token")
      else pure (.invalid "Invalid token")

end AuthService

/-! ## 3. The two services -/

/-- What `encodeURIComponent` leaves as it is. -/
def isUriUnreserved (c : Char) : Bool :=
  c.isAlphanum || c.toNat ∈ [33, 39, 40, 41, 42, 45, 46, 95, 126]

def percentEncode (c : Char) : List Char :=
  (String.utf8EncodeChar c).flatMap fun b =>
    ['%', (Nat.digitChar (b.toNat / 16)).toUpper, (Nat.digitChar (b.toNat % 16)).toUpper]

def encodeURIComponent (s : String) : String :=
  String.ofList (s.toList.flatMap fun c => if isUriUnreserved c then [c] else percentEncode c)

def RoleScope.json (s : RoleScope) : Json := .str s.text

/-- `AccessGrant.data`. -/
def AccessGrant.data (g : AccessGrant) : Json :=
  .obj [("scope", g.scope.json), ("capabilities", .arr (g.capabilities.map .str)),
    ("clientId", .str g.clientId), ("siteId", .str g.siteId), ("roleId", .str g.roleId)]

namespace EventsService

def expiresInSeconds : Nat := 60 * 60 * 24

def generateToken (codec : TokenCodec) (cls : Cls) (env : Env) : AssetApi String := do
  let accessGrant ← cls.requireAccessGrant
  let token ← AuthService.generateCustomToken codec env accessGrant.data expiresInSeconds
  pure (encodeURIComponent token)

def validateToken (codec : TokenCodec) (env : Env) (token : String) : AssetApi Json := do
  match ← AuthService.validateCustomToken codec env token with
  | .valid payload => pure payload
  | .invalid error => raise (.forbidden error)

end EventsService

namespace LegacyMigrationService

def authTokenExpiresInSeconds : Nat := 60 * 60 * 4

def getWsToken (codec : TokenCodec) (env : Env) : AssetApi String :=
  AuthService.generateCustomToken codec env (.obj []) authTokenExpiresInSeconds

def validateWsToken (codec : TokenCodec) (env : Env) (token : Option String) :
    AssetApi CustomTokenValidation :=
  match truthy token with
  | none => pure (.invalid "Token is required")
  | some token => AuthService.validateCustomToken codec env token

end LegacyMigrationService

/-- What becomes of a connection to the migration socket. -/
inductive WsConnection
  | accepted
  | closed (code : Nat) (reason : String)

/-- `LegacyMigrationGateway.handleConnection`. -/
def LegacyMigrationGateway.handleConnection (codec : TokenCodec) (env : Env)
    (token : Option String) : AssetApi WsConnection := do
  match ← LegacyMigrationService.validateWsToken codec env token with
  | .valid _ => pure .accepted
  | .invalid error => pure (.closed 1008 error)

/-! ## 4. A token that was issued -/

namespace AuthService

theorem signatureOf_alphabet {codec : TokenCodec} (hdigest : codec.Digests) (key : SigningKey)
    (signatureData : String) (timestamp : JsNumber) (sigLength : Nat) :
    ∀ c ∈ (signatureOf codec.crypto key signatureData timestamp sigLength).toList,
      isBase64Url c = true := by
  intro c hc
  unfold signatureOf at hc
  rw [String.toList_ofList] at hc
  exact hdigest _ _ c (List.mem_of_mem_take hc)

/-- The fields of a token are what it was put together from. -/
theorem fields_of_token {head payload : Base64Url} {signature : String}
    (hsig : ∀ c ∈ signature.toList, isBase64Url c = true) :
    fieldsOf '.' (head.text ++ "." ++ payload.text ++ "." ++ signature) =
      [head.text, payload.text, signature] := by
  have hdot : ".".toList = ['.'] := rfl
  have hundotted : '.' ∉ signature.toList := fun h => absurd (hsig '.' h) (by decide)
  rw [fieldsOf_append hdot, fieldsOf_append hdot, fieldsOf_of_not_mem head.undotted,
    fieldsOf_of_not_mem payload.undotted, fieldsOf_of_not_mem hundotted]
  rfl

@[simp] theorem tokenHead_iat (iat exp : Nat) :
    (tokenHead iat exp).number? "iat" = some (.finite iat) := rfl

@[simp] theorem tokenHead_exp (iat exp : Nat) :
    (tokenHead iat exp).number? "exp" = some (.finite exp) := rfl

theorem isPast_natCast (env : Env) (exp : Nat) :
    (JsNumber.finite (exp : Int)).isPast env = decide (1000 * exp < env.now) := by
  unfold JsNumber.isPast
  exact decide_eq_decide.mpr (by omega)

/-- **A token is valid until it expires**, wherever it is presented, and carries its payload. -/
theorem validateCustomToken_issued {codec : TokenCodec} (hdigest : codec.Digests)
    {env env' : Env} {payload : Json} {expiresInSeconds : Nat} {w w₁ : AssetWorld}
    {token : String} (hheld : KeysHeld w)
    (hissue : (generateCustomToken codec env payload expiresInSeconds).run w = (.ok token, w₁))
    (hhead : codec.Reads (tokenHead (env.now / 1000) (env.now / 1000 + expiresInSeconds)))
    (hpayload : codec.Reads payload) (calls : List KeyCall) :
    ∃ w', (validateCustomToken codec env' token).run (keyRun codec.crypto w₁ calls) =
      (.ok (if 1000 * (env.now / 1000 + expiresInSeconds) < env'.now then
        .invalid "Token expired" else .valid payload), w') := by
  unfold generateCustomToken at hissue
  rw [bind_eq_ok] at hissue
  obtain ⟨signature, w₂, hsignature, hissue⟩ := hissue
  obtain ⟨htoken, rfl⟩ := Prod.mk.inj hissue
  obtain rfl := Except.ok.inj htoken
  obtain ⟨key, hsigned, hlive, rfl⟩ := generateSignature_ok hheld hsignature
  -- the key it was signed with is the stored one ever after
  obtain ⟨hkeys, hkept⟩ := keyRun_keeps codec.crypto calls
    (generateSignature_keeps hheld hsignature).1
  have hstored := hkept _ key hsigned
  unfold TokenCodec.Reads at hhead hpayload
  unfold validateCustomToken
  rw [fields_of_token (signatureOf_alphabet hdigest key _ _ _)]
  simp only [List.getElem?_cons_zero, List.getElem?_cons_succ, Option.getD_some,
    Option.bind_eq_bind, Option.bind_some, hhead, tokenHead_exp, tokenHead_iat, Option.pure_def,
    isPast_natCast]
  split
  · next hpast => exact ⟨_, by rw [if_pos (of_decide_eq_true hpast)]; rfl⟩
  · next hfresh =>
    rw [if_neg fun hpast => hfresh (decide_eq_true hpast)]
    -- the signature is made again of the same two parts
    obtain ⟨w', hsign⟩ : ∃ w', (generateSignature codec.crypto
        ((codec.encodeTokenPart (tokenHead (env.now / 1000)
          (env.now / 1000 + expiresInSeconds))).text ++ "." ++ (codec.encodeTokenPart payload).text)
        (.finite (env.now / 1000 : Nat)) none defaultSigLength).run
          (keyRun codec.crypto w₂ calls) = (.ok _, w') :=
      generateSignature_of_stored hkeys hstored hlive
    refine ⟨w', ?_⟩
    rw [show TagsService.textOrUndefined (some (codec.encodeTokenPart payload).text) =
      (codec.encodeTokenPart payload).text from rfl, run_bind_ok hsign, if_pos rfl, hpayload]
    rfl

end AuthService

end ShieldApi
