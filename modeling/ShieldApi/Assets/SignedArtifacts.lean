import ShieldApi.Auth.CustomTokens

/-!
# What a signature signs

Three kinds of text are signed with the same keys: the address of a tag, an inspection token, and a
custom token. Each is its fields joined by dots, and the signing service adds a dot and a time. No
kind has a mark of its own, and the serial number and the external id of a tag are whatever the
tag was made with.

**Two of them share a signature exactly where a dot is in the wrong place**: `Confused` says for
each pair of kinds what that means. A custom token is never taken for another one or for
an inspection token, since none of its parts holds a dot. A tag's address whose id ends in a time is
an inspection token of another tag.
-/

set_option autoImplicit false

namespace ShieldApi

open Effect

/-! ## 1. The functions that sign -/

namespace TagsService

/-- The `try` in the tags service's own `generateSignature` is around a promise it does not await,
    and catches nothing. -/
def generateTagUrlSignature (crypto : TokenCrypto) (serialNumber id : String) (timestamp : JsNumber)
    (keyId : String) : AssetApi String :=
  AuthService.generateSignature crypto (serialNumber ++ "." ++ id) timestamp (some keyId) sigLength

/-- `add(new Date(), { hours: 1 }).getTime()`. -/
def inOneHour (env : Env) : JsNumber :=
  if env.now + 3600000 ≤ 8640000000000000 then .finite (env.now + 3600000 : Nat) else .nan

/-- The clock is read once here. -/
def generateInspectionToken (codec : TokenCodec) (env : Env) (serialNumber externalId : String) :
    AssetApi String := do
  let expiresOn := inOneHour env
  let timestamp : JsNumber := .finite env.now
  let keyId := codec.crypto.defaultSigningKeyId
  let signature ← AuthService.generateSignature codec.crypto
    (serialNumber ++ "." ++ externalId ++ "." ++ expiresOn.text codec.crypto) timestamp (some keyId)
    sigLength
  let tokenData := serialNumber ++ "." ++ externalId ++ "." ++ expiresOn.text codec.crypto ++ "." ++
    timestamp.text codec.crypto ++ "." ++ keyId ++ "." ++ signature
  pure (codec.base64UrlEncode tokenData).text

structure ValidateSignedUrlDto where
  sn : String
  id : String
  t : JsNumber
  sig : String
  kid : String

structure TagUrlValidation where
  isValid : Bool
  serialNumber : String
  id : String
  timestamp : JsNumber
  keyId : String
  inspectionToken : Option String

def validateTagSignature (codec : TokenCodec) (env : Env) (signedUrlDto : ValidateSignedUrlDto) :
    AssetApi TagUrlValidation := do
  let { sn, id, t, sig, kid } := signedUrlDto
  let signature ← generateTagUrlSignature codec.crypto sn id t kid
  let isValid ← safeEqualStrings signature (some sig)
  let inspectionToken ←
    if isValid then some <$> generateInspectionToken codec env sn id else pure none
  pure { isValid, serialNumber := sn, id, timestamp := t, keyId := kid, inspectionToken }

end TagsService

/-! ## 2. The artifacts -/

/-- A time a clock can show. -/
structure Instant where
  ms : Nat
  valid : ms ≤ 8640000000000000

/-- The numbers up to `2 ^ 53` are written in decimal. -/
def TokenCrypto.Decimal (crypto : TokenCrypto) : Prop :=
  ∀ n : Nat, n ≤ 9007199254740992 → crypto.intToString n = toString n

def Instant.text (crypto : TokenCrypto) (t : Instant) : String := crypto.intToString t.ms

inductive SignedArtifact
  | tagUrl (serialNumber id : String) (timestamp : Instant)
  | inspectionToken (serialNumber externalId : String) (expiresOn timestamp : Instant)
  | customToken (head payload : Base64Url) (iat : Instant)

namespace SignedArtifact

def signatureData (crypto : TokenCrypto) : SignedArtifact → String
  | .tagUrl serialNumber id _ => serialNumber ++ "." ++ id
  | .inspectionToken serialNumber externalId expiresOn _ =>
    serialNumber ++ "." ++ externalId ++ "." ++ expiresOn.text crypto
  | .customToken head payload _ => head.text ++ "." ++ payload.text

def timestamp : SignedArtifact → Instant
  | .tagUrl _ _ t => t
  | .inspectionToken _ _ _ t => t
  | .customToken _ _ t => t

/-- The text the digest is made of. -/
def input (crypto : TokenCrypto) (a : SignedArtifact) : String :=
  a.signatureData crypto ++ "." ++ a.timestamp.text crypto

/-- The signature of the artifact under a key. -/
def sign (crypto : TokenCrypto) (a : SignedArtifact) (keyId : Option String) : AssetApi String :=
  AuthService.generateSignature crypto (a.signatureData crypto) (.finite a.timestamp.ms) keyId
    TagsService.sigLength

variable (crypto : TokenCrypto)

/-- **Every signature the services make is that of an artifact.** -/
theorem generateTagUrlSignature_eq (serialNumber id keyId : String) (t : Instant) :
    TagsService.generateTagUrlSignature crypto serialNumber id (.finite t.ms) keyId =
      (tagUrl serialNumber id t).sign crypto (some keyId) := rfl

theorem generateInspectionToken_eq (codec : TokenCodec) (env : Env)
    (serialNumber externalId : String) (h : env.now + 3600000 ≤ 8640000000000000) :
    TagsService.generateInspectionToken codec env serialNumber externalId = (do
      let artifact := inspectionToken serialNumber externalId ⟨env.now + 3600000, h⟩
        ⟨env.now, Nat.le_trans (Nat.le_add_right ..) h⟩
      let signature ← artifact.sign codec.crypto (some codec.crypto.defaultSigningKeyId)
      pure (codec.base64UrlEncode (artifact.input codec.crypto ++ "." ++
        codec.crypto.defaultSigningKeyId ++ "." ++ signature)).text) := by
  unfold TagsService.generateInspectionToken TagsService.inOneHour
  rw [if_pos h]
  rfl

theorem generateCustomToken_eq (codec : TokenCodec) (env : Env) (payload : Json)
    (expiresInSeconds : Nat) (h : env.now ≤ 8640000000000000) :
    AuthService.generateCustomToken codec env payload expiresInSeconds = (do
      let head := codec.encodeTokenPart
        (tokenHead (env.now / 1000) (env.now / 1000 + expiresInSeconds))
      let artifact := customToken head (codec.encodeTokenPart payload)
        ⟨env.now / 1000, Nat.le_trans (Nat.div_le_self ..) h⟩
      let signature ← artifact.sign codec.crypto none
      pure (artifact.signatureData codec.crypto ++ "." ++ signature)) := rfl

/-! ## 3. Times and dots -/

theorem not_mem_toString (n : Nat) : '.' ∉ (toString n).toList := by
  intro h
  rw [show toString n = n.repr from rfl, Nat.toList_repr] at h
  exact absurd (Nat.isDigit_of_mem_toDigits (by decide) (by decide) h) (by decide)

theorem toString_nat_inj {m n : Nat} (h : toString m = toString n) : m = n := by
  have hdigits : Nat.toDigits 10 m = Nat.toDigits 10 n := by
    rw [← Nat.toList_repr, ← Nat.toList_repr]
    exact congrArg String.toList h
  rw [← Nat.ofDigitChars_ten_toDigits (n := m), hdigits, Nat.ofDigitChars_ten_toDigits]

section Decimal

variable {crypto : TokenCrypto} (hdec : crypto.Decimal)

include hdec

theorem text_eq (t : Instant) : t.text crypto = toString t.ms :=
  hdec t.ms (Nat.le_trans t.valid (by decide))

theorem text_undotted (t : Instant) : '.' ∉ (t.text crypto).toList := by
  rw [text_eq hdec]
  exact not_mem_toString t.ms

theorem text_inj {t t' : Instant} : t.text crypto = t'.text crypto ↔ t = t' := by
  constructor
  · intro h
    rw [text_eq hdec, text_eq hdec] at h
    obtain ⟨ms, _⟩ := t
    obtain ⟨ms', _⟩ := t'
    obtain rfl : ms = ms' := toString_nat_inj h
    rfl
  · rintro rfl
    rfl

/-- The time of an input can be read off. -/
theorem input_eq_iff {a b : SignedArtifact} : a.input crypto = b.input crypto ↔
    a.signatureData crypto = b.signatureData crypto ∧ a.timestamp = b.timestamp := by
  unfold input
  rw [join_inj_right rfl (text_undotted hdec _) (text_undotted hdec _), text_inj hdec]

end Decimal

/-! ## 4. Confusions -/

/-- One pair of texts is the other with the dot between them moved. -/
def DotMoved (x y x' y' : String) : Prop := Recut "." x y x' y' ∨ Recut "." x' y' x y

/-- The address of a tag reads as an inspection token: its serial number holds the token's serial
    number and external id and its id is the expiry, or its id goes on where the token's
    external id ends and ends in the expiry. -/
def ReadsAsToken (crypto : TokenCrypto) (serialNumber id serialNumber' externalId : String)
    (expiresOn : Instant) : Prop :=
  (serialNumber = serialNumber' ++ "." ++ externalId ∧ id = expiresOn.text crypto) ∨
    Recut "." serialNumber id (serialNumber' ++ "." ++ externalId) (expiresOn.text crypto)

/-- **Where a dot is in the wrong place.** -/
def Confused (crypto : TokenCrypto) : SignedArtifact → SignedArtifact → Prop
  | .tagUrl sn id t, .tagUrl sn' id' t' => t = t' ∧ DotMoved sn id sn' id'
  | .inspectionToken sn ext exp t, .inspectionToken sn' ext' exp' t' =>
    t = t' ∧ exp = exp' ∧ DotMoved sn ext sn' ext'
  | .tagUrl sn id t, .inspectionToken sn' ext exp t' => t = t' ∧ ReadsAsToken crypto sn id sn' ext exp
  | .inspectionToken sn' ext exp t', .tagUrl sn id t => t = t' ∧ ReadsAsToken crypto sn id sn' ext exp
  | .tagUrl sn id t, .customToken head payload iat => t = iat ∧ sn = head.text ∧ id = payload.text
  | .customToken head payload iat, .tagUrl sn id t => t = iat ∧ sn = head.text ∧ id = payload.text
  | _, _ => False

/-! ### One pair of kinds after the other -/

section Pairs

variable {crypto : TokenCrypto} {sn id sn' id' ext ext' : String} {exp exp' : Instant}
  {head payload head' payload' : Base64Url}

theorem mem_dot (x y : String) : '.' ∈ (x ++ "." ++ y).toList := by
  simp only [String.toList_append, List.mem_append]
  exact .inl (.inr (List.mem_singleton_self _))

theorem tagUrls_eq_iff : sn ++ "." ++ id = sn' ++ "." ++ id' ↔
    (sn = sn' ∧ id = id') ∨ DotMoved sn id sn' id' :=
  join_eq_iff rfl

theorem tokens_eq_iff (hdec : crypto.Decimal) :
    sn ++ "." ++ ext ++ "." ++ exp.text crypto = sn' ++ "." ++ ext' ++ "." ++ exp'.text crypto ↔
      exp = exp' ∧ ((sn = sn' ∧ ext = ext') ∨ DotMoved sn ext sn' ext') := by
  rw [join_inj_right rfl (text_undotted hdec _) (text_undotted hdec _), text_inj hdec,
    tagUrls_eq_iff, and_comm]

/-- The expiry holds no dot, so the token's last dot comes no later than the address's. -/
theorem tagUrl_token_eq_iff (hdec : crypto.Decimal) :
    sn ++ "." ++ id = sn' ++ "." ++ ext ++ "." ++ exp.text crypto ↔
      ReadsAsToken crypto sn id sn' ext exp := by
  rw [join_eq_iff rfl]
  constructor
  · rintro (h | h | h)
    · exact .inl h
    · exact .inr h
    · exact absurd (h.mem rfl).1 (text_undotted hdec exp)
  · rintro (h | h)
    · exact .inl h
    · exact .inr (.inl h)

theorem tagUrl_custom_eq_iff :
    sn ++ "." ++ id = head.text ++ "." ++ payload.text ↔ sn = head.text ∧ id = payload.text := by
  rw [join_eq_iff rfl]
  constructor
  · rintro (h | h | h)
    · exact h
    · exact absurd (h.mem rfl).2 head.undotted
    · exact absurd (h.mem rfl).1 payload.undotted
  · exact .inl

/-- A token has two dots before its time, a custom token one. -/
theorem token_custom_ne :
    sn ++ "." ++ ext ++ "." ++ exp.text crypto ≠ head.text ++ "." ++ payload.text := by
  intro h
  rcases (join_eq_iff rfl).mp h with ⟨hhead, -⟩ | hcut | hcut
  · exact absurd (hhead ▸ mem_dot sn ext) head.undotted
  · exact absurd (hcut.mem rfl).2 head.undotted
  · exact absurd (hcut.mem rfl).1 payload.undotted

theorem customs_eq_iff : head.text ++ "." ++ payload.text = head'.text ++ "." ++ payload'.text ↔
    head = head' ∧ payload = payload' := by
  rw [join_inj_right rfl payload.undotted payload'.undotted]
  obtain ⟨head, _⟩ := head
  obtain ⟨payload, _⟩ := payload
  obtain ⟨head', _⟩ := head'
  obtain ⟨payload', _⟩ := payload'
  simp only [Base64Url.mk.injEq]

end Pairs

theorem DotMoved.ne {x y x' y' : String} (h : DotMoved x y x' y') : x ≠ x' := by
  rcases h with h | h
  · exact h.ne rfl
  · exact (h.ne rfl).symm

theorem Confused.ne {crypto : TokenCrypto} {a b : SignedArtifact} (h : Confused crypto a b) :
    a ≠ b := by
  rintro rfl
  cases a with
  | tagUrl sn id t => exact h.2.ne rfl
  | inspectionToken sn ext exp t => exact h.2.2.ne rfl
  | customToken head payload iat => exact h

/-- **The inputs of two artifacts** are the same where the artifacts are, or where they are
    confused. -/
theorem input_eq_iff_confused {crypto : TokenCrypto} (hdec : crypto.Decimal)
    {a b : SignedArtifact} : a.input crypto = b.input crypto ↔ a = b ∨ Confused crypto a b := by
  rw [input_eq_iff hdec]
  cases a with
  | tagUrl sn id t =>
    cases b with
    | tagUrl sn' id' t' =>
      simp only [signatureData, timestamp, Confused, tagUrls_eq_iff, tagUrl.injEq]
      grind
    | inspectionToken sn' ext exp t' =>
      simp only [signatureData, timestamp, Confused, tagUrl_token_eq_iff hdec, reduceCtorEq,
        false_or, and_comm]
    | customToken head payload iat =>
      simp only [signatureData, timestamp, Confused, tagUrl_custom_eq_iff, reduceCtorEq,
        false_or, and_comm]
  | inspectionToken sn ext exp t =>
    cases b with
    | tagUrl sn' id t' =>
      simp only [signatureData, timestamp, Confused, reduceCtorEq, false_or]
      rw [@eq_comm _ (sn ++ "." ++ ext ++ "." ++ exp.text crypto), tagUrl_token_eq_iff hdec,
        @eq_comm _ t, and_comm]
    | inspectionToken sn' ext' exp' t' =>
      simp only [signatureData, timestamp, Confused, tokens_eq_iff hdec, inspectionToken.injEq]
      grind
    | customToken head payload iat =>
      simp only [signatureData, timestamp, Confused, token_custom_ne, reduceCtorEq, false_or,
        false_and]
  | customToken head payload iat =>
    cases b with
    | tagUrl sn id t =>
      simp only [signatureData, timestamp, Confused, reduceCtorEq, false_or]
      rw [@eq_comm _ (head.text ++ "." ++ payload.text), tagUrl_custom_eq_iff, @eq_comm _ iat,
        and_comm]
    | inspectionToken sn ext exp t =>
      simp only [signatureData, timestamp, Confused, token_custom_ne.symm, reduceCtorEq, false_or,
        false_and]
    | customToken head' payload' iat' =>
      simp only [signatureData, timestamp, Confused, customs_eq_iff, customToken.injEq, or_false,
        and_assoc]

/-- Two artifacts that are confused are signed alike, whatever the digest. -/
theorem Confused.sign_eq {crypto : TokenCrypto} (hdec : crypto.Decimal) {a b : SignedArtifact}
    (h : Confused crypto a b) (keyId : Option String) : a.sign crypto keyId = b.sign crypto keyId := by
  obtain ⟨hdata, htime⟩ := (input_eq_iff hdec).mp ((input_eq_iff_confused hdec).mpr (.inr h))
  unfold sign
  rw [hdata, htime]

/-- **A signature separates two artifacts exactly if no dot is in the wrong place**, for a digest
    that separates texts. -/
theorem signature_separates_iff {crypto : TokenCrypto} (hdec : crypto.Decimal)
    {key : SigningKey} (hinj : Function.Injective (crypto.hmacSha256 key.keySecret))
    (a b : SignedArtifact) :
    (crypto.hmacSha256 key.keySecret (a.input crypto) =
      crypto.hmacSha256 key.keySecret (b.input crypto) → a = b) ↔ ¬ Confused crypto a b := by
  rw [hinj.eq_iff, input_eq_iff_confused hdec]
  constructor
  · intro h hconfused
    exact hconfused.ne (h (.inr hconfused))
  · intro h hab
    exact hab.resolve_right h

/-! ### An address that is a token -/

/-- A digest that shows what it was made of. -/
def openCrypto : TokenCrypto where
  base64UrlDecode := id
  hmacSha256 := fun secret data => secret ++ "." ++ data
  defaultSigningKeyId := "default"
  createSecret := "c2VjcmV0"

def openKey : SigningKey := { keyId := "default", keySecret := "c2VjcmV0" }

theorem openCrypto_decimal : openCrypto.Decimal := fun _ _ => rfl

theorem openCrypto_injective : Function.Injective (openCrypto.hmacSha256 openKey.keySecret) := by
  intro x y h
  have hlist := congrArg String.toList h
  simp only [openCrypto, String.toList_append] at hlist
  exact String.toList_inj.mp (List.append_cancel_left hlist)

/-- The address of a tag somebody was asked to sign, with a time in its external id. -/
def markedUrl : SignedArtifact :=
  .tagUrl "FE-001" "x.1700003600000" ⟨1700000000000, by decide⟩

/-- An hour of access to the tag `x`. -/
def scannedToken : SignedArtifact :=
  .inspectionToken "FE-001" "x" ⟨1700003600000, by decide⟩ ⟨1700000000000, by decide⟩

theorem markedUrl_confused : Confused openCrypto markedUrl scannedToken :=
  ⟨rfl, .inr ⟨"x", by decide, by decide⟩⟩

theorem markedUrl_separates_iff :
    (openCrypto.hmacSha256 openKey.keySecret (markedUrl.input openCrypto) =
      openCrypto.hmacSha256 openKey.keySecret (scannedToken.input openCrypto) →
        markedUrl = scannedToken) ↔ ¬ Confused openCrypto markedUrl scannedToken :=
  signature_separates_iff openCrypto_decimal openCrypto_injective markedUrl scannedToken

/-- The address and the token are signed alike. -/
theorem markedUrl_passesForToken :
    markedUrl.input openCrypto = scannedToken.input openCrypto ∧ markedUrl ≠ scannedToken ∧
      ∀ keyId, markedUrl.sign openCrypto keyId = scannedToken.sign openCrypto keyId :=
  ⟨(input_eq_iff_confused openCrypto_decimal).mpr (.inr markedUrl_confused), markedUrl_confused.ne,
    markedUrl_confused.sign_eq openCrypto_decimal⟩

end SignedArtifact

end ShieldApi
