import Mathlib.Data.List.TakeWhile
import ShieldApi.Assets.SignedArtifacts
import ShieldApi.Lib.Base64

/-!
# From a tag to a token and back

`generateInspectionToken` joins six fields with dots and encodes the text, and
`parseInspectionToken` decodes it and splits it at the dots. The two times come back as the
numbers they were (`parseInt_toString`). Whether the texts do depends on them: **a tag whose serial
number or external id holds a dot has no token it can use**, and neither has any tag if the key id
of the deployment holds one. Nothing keeps a tag from being made with such a text.
-/

set_option autoImplicit false

namespace ShieldApi

open Effect

/-! ## 1. Numbers -/

theorem roundToDouble_of_lt {n : Nat} (h : n < 9007199254740992) : roundToDouble n = n := by
  have hlog : n.log2 - 52 = 0 := by
    by_cases hzero : n = 0
    · subst hzero
      rfl
    · have hlt : n.log2 < 53 := (Nat.log2_lt hzero).mpr h
      omega
  unfold roundToDouble
  simp only [hlog, Nat.pow_zero, Nat.mod_one, Nat.div_one, Nat.mul_one]
  rfl

theorem ofNat_of_lt {n : Nat} (h : n < 9007199254740992) : JsNumber.ofNat false n = .finite n := by
  have hlog : n.log2 < 1024 := by
    by_cases hzero : n = 0
    · subst hzero
      decide
    · have hlt : n.log2 < 53 := (Nat.log2_lt hzero).mpr h
      omega
  unfold JsNumber.ofNat
  rw [roundToDouble_of_lt h]
  exact if_pos hlog

theorem isJsSpace_of_isDigit {c : Char} (h : c.isDigit = true) : isJsSpace c = false := by
  have hrange : 48 ≤ c.toNat ∧ c.toNat ≤ 57 := Char.isDigit_iff_toNat.mp h
  unfold isJsSpace
  simp only [List.mem_cons, List.not_mem_nil, or_false, Bool.or_eq_false_iff,
    decide_eq_false_iff_not, Bool.and_eq_false_iff]
  omega

theorem digitValue_of_isDigit {c : Char} (h : c.isDigit = true) :
    digitValue c = c.toNat - '0'.toNat ∧ digitValue c < 10 := by
  have hrange : 48 ≤ c.toNat ∧ c.toNat ≤ 57 := Char.isDigit_iff_toNat.mp h
  have hzero : '0'.toNat = 48 := rfl
  have hvalue : digitValue c = c.toNat - '0'.toNat := if_pos h
  exact ⟨hvalue, by omega⟩

theorem foldl_digitValue {l : List Char} (h : ∀ c ∈ l, c.isDigit = true) (init : Nat) :
    l.foldl (fun n c => 10 * n + digitValue c) init = Nat.ofDigitChars 10 l init := by
  induction l generalizing init with
  | nil => exact Nat.ofDigitChars_nil.symm
  | cons c l ih =>
    rw [List.foldl_cons, Nat.ofDigitChars_cons, ih fun d hd => h d (List.mem_cons_of_mem _ hd),
      (digitValue_of_isDigit (h c (List.mem_cons_self ..))).1]

/-- `parseInt` of digits reads all of them, in base ten. -/
theorem parseInt_ofList {c : Char} {rest : List Char} (h : ∀ d ∈ c :: rest, d.isDigit = true) :
    parseInt (some (String.ofList (c :: rest))) =
      .ofNat false (Nat.ofDigitChars 10 (c :: rest) 0) := by
  have hne : ∀ d, d.isDigit = false → d ∉ c :: rest := fun d hd hmem =>
    absurd (hd.symm.trans (h d hmem)) Bool.false_ne_true
  have hdrop : (c :: rest).dropWhile isJsSpace = c :: rest :=
    List.dropWhile_cons_of_neg fun hspace =>
      absurd ((isJsSpace_of_isDigit (h c (List.mem_cons_self ..))).symm.trans hspace)
        Bool.false_ne_true
  have htake : (c :: rest).takeWhile (digitValue · < 10) = c :: rest :=
    List.takeWhile_eq_self_iff.mpr fun d hd =>
      decide_eq_true (digitValue_of_isDigit (h d hd)).2
  -- no sign and no `0x`
  have hminus : c ≠ '-' := fun hc => hne '-' (by decide) (hc ▸ List.mem_cons_self ..)
  have hplus : c ≠ '+' := fun hc => hne '+' (by decide) (hc ▸ List.mem_cons_self ..)
  have hx : ∀ r, rest ≠ 'x' :: r := fun r hr => hne 'x' (by decide) (by simp [hr])
  have hX : ∀ r, rest ≠ 'X' :: r := fun r hr => hne 'X' (by decide) (by simp [hr])
  unfold parseInt
  simp only [String.toList_ofList, hdrop, List.cons.injEq, hminus, hplus, hx, hX, false_and,
    and_false, imp_false, not_false_eq_true, implies_true, htake]
  rw [foldl_digitValue h]

/-- **Decimal digits are read back**, of a number a double can hold. -/
theorem parseInt_toString {n : Nat} (h : n < 9007199254740992) :
    parseInt (some (toString n)) = .finite n := by
  have hdigits : ∀ c ∈ Nat.toDigits 10 n, c.isDigit = true := fun c hc =>
    Nat.isDigit_of_mem_toDigits (by decide) (by decide) hc
  have htext : toString n = String.ofList (Nat.toDigits 10 n) := by
    rw [← Nat.toList_repr, String.ofList_toList]
    rfl
  have hvalue := Nat.ofDigitChars_ten_toDigits (n := n)
  rw [htext]
  cases hcs : Nat.toDigits 10 n with
  | nil => exact absurd hcs Nat.toDigits_ne_nil
  | cons c rest =>
    rw [hcs] at hdigits hvalue
    rw [parseInt_ofList hdigits, hvalue, ofNat_of_lt h]

/-! ## 2. The fields of a token -/

namespace TagsService

/-- The text of a token. -/
def tokenText (crypto : TokenCrypto) (serialNumber externalId : String) (expiresOn timestamp : Nat)
    (keyId signature : String) : String :=
  serialNumber ++ "." ++ externalId ++ "." ++ crypto.intToString expiresOn ++ "." ++
    crypto.intToString timestamp ++ "." ++ keyId ++ "." ++ signature

/-- The times and the signature are one field each; the other parts are as many as they hold. -/
theorem fieldsOf_tokenText {crypto : TokenCrypto} (hdec : crypto.Decimal)
    {serialNumber externalId keyId signature : String} {expiresOn timestamp : Nat}
    (hexpires : expiresOn ≤ 9007199254740992) (htime : timestamp ≤ 9007199254740992)
    (hsig : '.' ∉ signature.toList) :
    fieldsOf '.' (tokenText crypto serialNumber externalId expiresOn timestamp keyId signature) =
      fieldsOf '.' serialNumber ++ (fieldsOf '.' externalId ++ toString expiresOn ::
        toString timestamp :: (fieldsOf '.' keyId ++ [signature])) := by
  have hdot : ".".toList = ['.'] := rfl
  unfold tokenText
  rw [hdec _ hexpires, hdec _ htime]
  simp only [fieldsOf_append hdot, fieldsOf_of_not_mem (SignedArtifact.not_mem_toString _),
    fieldsOf_of_not_mem hsig, List.append_assoc, List.cons_append, List.nil_append]

/-- A text that was encoded is decoded. -/
def Decodes (codec : TokenCodec) : Prop :=
  ∀ s, codec.crypto.base64UrlDecode (codec.base64UrlEncode s).text = s

theorem inOneHour_eq {env : Env} (h : env.now + 3600000 ≤ 8640000000000000) :
    inOneHour env = .finite (env.now + 3600000 : Nat) := if_pos h

/-- A token that was generated: its text, and the key it was signed with. -/
theorem generateInspectionToken_ok {codec : TokenCodec} {env : Env}
    {serialNumber externalId token : String} {w w' : AssetWorld} (hheld : KeysHeld w)
    (hclock : env.now + 3600000 ≤ 8640000000000000)
    (h : (generateInspectionToken codec env serialNumber externalId).run w = (.ok token, w')) :
    ∃ key, w'.signingKeys.find? codec.crypto.defaultSigningKeyId = some key ∧
      AuthService.isExpiredKey key (.finite env.now) = false ∧ KeysHeld w' ∧
      (∀ k key', w.signingKeys.find? k = some key' → w'.signingKeys.find? k = some key') ∧
      token = (codec.base64UrlEncode (tokenText codec.crypto serialNumber externalId
        (env.now + 3600000) env.now codec.crypto.defaultSigningKeyId
        (AuthService.signatureOf codec.crypto key
          (serialNumber ++ "." ++ externalId ++ "." ++
            codec.crypto.intToString (env.now + 3600000 : Nat))
          (.finite env.now) sigLength))).text := by
  unfold generateInspectionToken at h
  rw [inOneHour_eq hclock, bind_eq_ok] at h
  obtain ⟨signature, w₁, hsignature, h⟩ := h
  obtain ⟨htoken, rfl⟩ := Prod.mk.inj h
  obtain ⟨key, hstored, hlive, rfl⟩ := AuthService.generateSignature_ok hheld hsignature
  obtain ⟨hheld', hkept⟩ := AuthService.generateSignature_keeps hheld hsignature
  exact ⟨key, hstored, hlive, hheld', hkept, (Except.ok.inj htoken).symm⟩

/-- A token that can be generated is. -/
theorem generateInspectionToken_returns {codec : TokenCodec} (env : Env)
    (serialNumber externalId : String) {w : AssetWorld}
    (hcache : w.keyCache codec.crypto.defaultSigningKeyId = none)
    (hnone : w.signingKeys.find? codec.crypto.defaultSigningKeyId = none)
    (hsecret : ∀ key ∈ w.signingKeys, key.keySecret ≠ codec.crypto.createSecret) :
    ∃ token w', (generateInspectionToken codec env serialNumber externalId).run w =
      (.ok token, w') := by
  obtain ⟨w', hget⟩ := AuthService.getSigningKey_creates hcache hnone hsecret
  have hget' : (AuthService.getSigningKey codec.crypto
    ((some codec.crypto.defaultSigningKeyId).getD codec.crypto.defaultSigningKeyId)).run w =
      (.ok _, w') := hget
  exact ⟨_, w', by
    unfold generateInspectionToken
    rw [run_bind_ok (AuthService.generateSignature_of_key hget' rfl)]
    rfl⟩

/-! ## 3. The round trip -/

/-- **The round trip of a tag**: its token is parsed to its texts, and is valid for an hour,
    whatever is signed in the meantime. -/
def RoundTrips (codec : TokenCodec) (serialNumber externalId : String) : Prop :=
  ∀ (w : AssetWorld) (env : Env) (token : String) (w₁ : AssetWorld), KeysHeld w →
    env.now + 3600000 ≤ 8640000000000000 →
    (generateInspectionToken codec env serialNumber externalId).run w = (.ok token, w₁) →
    (parseInspectionToken codec.crypto token).serialNumber = serialNumber ∧
    (parseInspectionToken codec.crypto token).tagExternalId = some externalId ∧
    ∀ (later : List KeyCall) (env' : Env), ∃ v w',
      (validateInspectionToken codec.crypto env' token).run (keyRun codec.crypto w₁ later) =
        (.ok v, w') ∧ (v.isValid = true ↔ env'.now ≤ env.now + 3600000)

theorem isExpired_finite {env : Env} {t : InspectionToken} {n : Nat}
    (h : t.expiresOn = .finite (n : Int)) (hn : n ≤ 8640000000000000) :
    isExpired env t = decide (n < env.now) := by
  unfold isExpired
  rw [h, JsNumber.timeValue, if_pos (by omega), Option.any_some]
  exact decide_eq_decide.mpr (by omega)

section Fields

variable {codec : TokenCodec} (hdec : codec.crypto.Decimal) (hdigest : codec.Digests)
  (hdecodes : Decodes codec)

include hdec hdigest hdecodes

/-- The fields of a token that was generated. -/
theorem fields_generated {serialNumber externalId data : String} {now : Nat} {key : SigningKey}
    (hclock : now + 3600000 ≤ 8640000000000000) :
    fieldsOf '.' (codec.crypto.base64UrlDecode (codec.base64UrlEncode (tokenText codec.crypto
        serialNumber externalId (now + 3600000) now codec.crypto.defaultSigningKeyId
        (AuthService.signatureOf codec.crypto key data (.finite now) sigLength))).text) =
      fieldsOf '.' serialNumber ++ (fieldsOf '.' externalId ++ toString (now + 3600000) ::
        toString now :: (fieldsOf '.' codec.crypto.defaultSigningKeyId ++
          [AuthService.signatureOf codec.crypto key data (.finite now) sigLength])) := by
  rw [hdecodes]
  apply fieldsOf_tokenText hdec (by omega) (by omega)
  intro h
  exact absurd (AuthService.signatureOf_alphabet hdigest _ _ _ _ '.' h) (by decide)

/-- Where the texts of the tag hold no dot, the first five fields come back, of the key id the first
    of its own. -/
theorem parseInspectionToken_generated {serialNumber externalId data : String} {now : Nat}
    {key : SigningKey} {keyId : String} {more : List String}
    (hclock : now + 3600000 ≤ 8640000000000000)
    (hserial : '.' ∉ serialNumber.toList) (hext : '.' ∉ externalId.toList)
    (hkid : fieldsOf '.' codec.crypto.defaultSigningKeyId = keyId :: more) :
    parseInspectionToken codec.crypto (codec.base64UrlEncode (tokenText codec.crypto
        serialNumber externalId (now + 3600000) now codec.crypto.defaultSigningKeyId
        (AuthService.signatureOf codec.crypto key data (.finite now) sigLength))).text =
      { serialNumber
        tagExternalId := some externalId
        expiresOn := .finite (now + 3600000 : Nat)
        timestamp := .finite now
        keyId := some keyId
        signature := (more ++
          [AuthService.signatureOf codec.crypto key data (.finite now) sigLength])[0]? } := by
  have hexpires : parseInt (some (toString (now + 3600000))) = .finite (now + 3600000 : Nat) :=
    parseInt_toString (by omega)
  have htime : parseInt (some (toString now)) = .finite now := parseInt_toString (by omega)
  unfold parseInspectionToken
  rw [show ∀ t : String, (t.toList.splitOn '.').map String.ofList = fieldsOf '.' t from fun _ => rfl,
    fields_generated hdec hdigest hdecodes hclock, fieldsOf_of_not_mem hserial,
    fieldsOf_of_not_mem hext, hkid]
  simp only [List.cons_append, List.nil_append, List.getElem?_cons_zero, List.getElem?_cons_succ,
    Option.getD_some, hexpires, htime]

/-- A token that comes back is valid as long as its hour lasts. -/
theorem roundTrips_of_undotted {serialNumber externalId : String}
    (hserial : '.' ∉ serialNumber.toList) (hext : '.' ∉ externalId.toList)
    (hkid : '.' ∉ codec.crypto.defaultSigningKeyId.toList) :
    RoundTrips codec serialNumber externalId := by
  intro w env token w₁ hheld hclock h
  obtain ⟨key, hstored, hlive, hheld₁, -, rfl⟩ := generateInspectionToken_ok hheld hclock h
  have hparsed := fun data => @parseInspectionToken_generated codec hdec hdigest hdecodes
    serialNumber externalId data env.now key _ [] hclock hserial hext (fieldsOf_of_not_mem hkid)
  refine ⟨by rw [hparsed], by rw [hparsed], fun later env' => ?_⟩
  obtain ⟨hkeys, hkept⟩ := keyRun_keeps codec.crypto later hheld₁
  -- it is signed again under the key it was signed with
  obtain ⟨w', hsign⟩ : ∃ w', (AuthService.generateSignature codec.crypto
      (serialNumber ++ "." ++ externalId ++ "." ++
        codec.crypto.intToString (env.now + 3600000 : Nat))
      (.finite env.now) (some codec.crypto.defaultSigningKeyId) sigLength).run
        (keyRun codec.crypto w₁ later) = (.ok _, w') :=
    AuthService.generateSignature_of_stored hkeys (hkept _ key hstored) hlive
  unfold validateInspectionToken
  rw [hparsed]
  dsimp only
  rw [isExpired_finite rfl hclock]
  by_cases hpast : env.now + 3600000 < env'.now
  · rw [decide_eq_true hpast, if_pos rfl]
    refine ⟨_, _, rfl, ?_⟩
    simp only [Option.isNone_some, Bool.false_eq_true, false_iff]
    omega
  · rw [decide_eq_false hpast, if_neg Bool.false_ne_true]
    refine ⟨_, w', (run_bind_ok hsign).trans ((run_bind_ok (safeEqualStrings_self _ w')).trans rfl),
      ?_⟩
    simp only [if_true, Option.isNone_none, true_iff]
    omega

/-- The texts of a tag come back only if they hold no dot. -/
theorem undotted_of_parse {serialNumber externalId data : String} {now : Nat} {key : SigningKey}
    {token : String} (hclock : now + 3600000 ≤ 8640000000000000)
    (htoken : token = (codec.base64UrlEncode (tokenText codec.crypto
        serialNumber externalId (now + 3600000) now codec.crypto.defaultSigningKeyId
        (AuthService.signatureOf codec.crypto key data (.finite now) sigLength))).text)
    (hserial : (parseInspectionToken codec.crypto token).serialNumber = serialNumber)
    (hext : (parseInspectionToken codec.crypto token).tagExternalId = some externalId) :
    '.' ∉ serialNumber.toList ∧ '.' ∉ externalId.toList := by
  have hfields := @fields_generated codec hdec hdigest hdecodes serialNumber externalId data now key
    hclock
  rw [← htoken] at hfields
  have hfirst : (fieldsOf '.' (codec.crypto.base64UrlDecode token))[0]?.getD "" = serialNumber :=
    hserial
  have hsecond : (fieldsOf '.' (codec.crypto.base64UrlDecode token))[1]? = some externalId := hext
  have hserial' : '.' ∉ serialNumber.toList := by
    rw [hfields, fieldsOf_append_zero] at hfirst
    apply fieldsOf_zero_eq_self_iff.mp
    cases hfs : fieldsOf '.' serialNumber with
    | nil => exact absurd hfs (fieldsOf_ne_nil _ _)
    | cons f fs =>
      rw [hfs] at hfirst
      exact congrArg some hfirst
  refine ⟨hserial', fieldsOf_zero_eq_self_iff.mp ?_⟩
  rw [hfields, fieldsOf_of_not_mem hserial', List.singleton_append, List.getElem?_cons_succ,
    fieldsOf_append_zero] at hsecond
  exact hsecond

end Fields

/-! ## 4. A key id with a dot -/

/-- A key that had expired before anybody scanned anything. -/
def retiredKey (codec : TokenCodec) (keyId : String) : SigningKey :=
  { keyId, keySecret := codec.crypto.createSecret ++ ".", expiredOn := some 0 }

/-- A store with nothing but that key. -/
def retiredWorld (codec : TokenCodec) (keyId : String) : AssetWorld :=
  { signingKeys := ⟨[retiredKey codec keyId], List.nodup_singleton _⟩ }

theorem retiredWorld_find (codec : TokenCodec) {keyId : String} (k : String) :
    (retiredWorld codec keyId).signingKeys.find? k =
      if keyId = k then some (retiredKey codec keyId) else none := by
  unfold Table.find? retiredWorld
  rw [List.find?_singleton, show (retiredKey codec keyId).keyId = keyId from rfl]
  by_cases hk : keyId = k
  · rw [if_pos hk, if_pos (decide_eq_true hk)]
  · rw [if_neg hk, if_neg (mt of_decide_eq_true hk)]

theorem retiredWorld_held (codec : TokenCodec) (keyId : String) :
    KeysHeld (retiredWorld codec keyId) := fun _ _ h => nomatch h

theorem retiredKey_secret (codec : TokenCodec) (keyId : String) :
    (retiredKey codec keyId).keySecret ≠ codec.crypto.createSecret := by
  intro h
  have hlength := congrArg (fun s => s.toList.length) h
  have hdot : ".".toList.length = 1 := rfl
  simp only [retiredKey, String.toList_append, List.length_append, hdot] at hlength
  omega

theorem retiredKey_expired (codec : TokenCodec) (keyId : String) :
    AuthService.isExpiredKey (retiredKey codec keyId) (.finite (1 : Nat)) = true := by
  have htime : (JsNumber.finite (1 : Nat)).toMillis.timeValue = some 1000 := by decide
  unfold AuthService.isExpiredKey
  rw [htime]
  rfl

/-- The token is validated under the first field of the key id, and that key may be another one. -/
theorem undotted_keyId_of_roundTrips {codec : TokenCodec} (hdec : codec.crypto.Decimal)
    (hdigest : codec.Digests) (hdecodes : Decodes codec) {serialNumber externalId : String}
    (hserial : '.' ∉ serialNumber.toList) (hext : '.' ∉ externalId.toList)
    (h : RoundTrips codec serialNumber externalId) :
    '.' ∉ codec.crypto.defaultSigningKeyId.toList := by
  cases hkid : fieldsOf '.' codec.crypto.defaultSigningKeyId with
  | nil => exact absurd hkid (fieldsOf_ne_nil _ _)
  | cons keyId more =>
    by_contra hdot
    have hne : keyId ≠ codec.crypto.defaultSigningKeyId := by
      intro heq
      exact fieldsOf_zero_eq_self_iff.mp (by rw [hkid, ← heq]; rfl) hdot
    let env : Env := { now := 1 }
    have hclock : env.now + 3600000 ≤ 8640000000000000 := by decide
    have hheld := retiredWorld_held codec keyId
    obtain ⟨token, w₁, hrun⟩ := @generateInspectionToken_returns codec env serialNumber externalId
      (retiredWorld codec keyId) rfl (by rw [retiredWorld_find, if_neg hne]) (by
        intro key hkey
        obtain rfl := List.mem_singleton.mp hkey
        exact retiredKey_secret codec keyId)
    obtain ⟨-, -, hvalid⟩ := h _ env token w₁ hheld hclock hrun
    obtain ⟨v, w', hvalidate, hiff⟩ := hvalid [] env
    obtain ⟨key, -, -, hheld₁, hkept, rfl⟩ := generateInspectionToken_ok hheld hclock hrun
    have hretired := hkept keyId _ ((retiredWorld_find codec keyId).trans (if_pos rfl))
    unfold validateInspectionToken at hvalidate
    rw [parseInspectionToken_generated hdec hdigest hdecodes hclock hserial hext hkid] at hvalidate
    dsimp only at hvalidate
    rw [isExpired_finite rfl hclock, decide_eq_false (by omega), if_neg Bool.false_ne_true,
      bind_eq_ok] at hvalidate
    obtain ⟨signature, w₂, hsign, -⟩ := hvalidate
    obtain ⟨found, hfound, hlive, -⟩ := AuthService.generateSignature_ok hheld₁ hsign
    have hretired' := (AuthService.generateSignature_keeps hheld₁ hsign).2 _ _ hretired
    obtain rfl : retiredKey codec keyId = found := Option.some.inj (hretired'.symm.trans hfound)
    exact absurd (hlive.symm.trans (retiredKey_expired codec keyId)) Bool.false_ne_true

/-- **A tag has a token it can use exactly if no text of the token holds a dot.** -/
theorem inspectionToken_roundTrips_iff {codec : TokenCodec} (hdec : codec.crypto.Decimal)
    (hdigest : codec.Digests) (hdecodes : Decodes codec) (serialNumber externalId : String) :
    RoundTrips codec serialNumber externalId ↔
      '.' ∉ serialNumber.toList ∧ '.' ∉ externalId.toList ∧
        '.' ∉ codec.crypto.defaultSigningKeyId.toList := by
  constructor
  · intro h
    -- the first token of an empty store says enough of the tag's texts
    have hheld : KeysHeld {} := fun _ _ hkey => nomatch hkey
    have hclock : (0 : Nat) + 3600000 ≤ 8640000000000000 := by decide
    obtain ⟨token, w₁, hrun⟩ := @generateInspectionToken_returns codec { now := 0 } serialNumber
      externalId {} rfl rfl fun _ hkey => nomatch hkey
    obtain ⟨hserial, hext, -⟩ := h {} { now := 0 } token w₁ hheld hclock hrun
    obtain ⟨key, -, -, -, -, htoken⟩ := generateInspectionToken_ok hheld hclock hrun
    obtain ⟨hserial', hext'⟩ := undotted_of_parse hdec hdigest hdecodes hclock htoken hserial hext
    exact ⟨hserial', hext', undotted_keyId_of_roundTrips hdec hdigest hdecodes hserial' hext' h⟩
  · rintro ⟨hserial, hext, hkid⟩
    exact roundTrips_of_undotted hdec hdigest hdecodes hserial hext hkid

/-! ### Tags with and without a dot -/

/-- Node's own base64url, and a digest of the right alphabet. -/
def scanCodec : TokenCodec where
  crypto :=
    { base64UrlDecode := Base64.decode
      hmacSha256 := fun secret data => Base64.encode (secret ++ data)
      defaultSigningKeyId := "default"
      createSecret := "c2VjcmV0" }
  base64UrlEncode := fun s => ⟨Base64.encode s, Base64.encode_alphabet s⟩
  stringify := fun _ => "null"
  parse := fun _ => some .null

theorem scanCodec_laws :
    scanCodec.crypto.Decimal ∧ scanCodec.Digests ∧ Decodes scanCodec := by
  refine ⟨fun _ _ => rfl, fun secret data => ?_, fun s => ?_⟩
  · exact Base64.encode_alphabet (secret ++ data)
  · dsimp only [scanCodec]
    exact Base64.decode_encode s

theorem scannedTag_roundTrips_iff :
    RoundTrips scanCodec "FE-001" "x" ↔ '.' ∉ "FE-001".toList ∧ '.' ∉ "x".toList ∧
      '.' ∉ "default".toList :=
  inspectionToken_roundTrips_iff scanCodec_laws.1 scanCodec_laws.2.1 scanCodec_laws.2.2 "FE-001" "x"

/-- The token of a tag with a dot in its serial number is of another tag. -/
theorem dottedTag_lost : ¬ RoundTrips scanCodec "FE-1.5" "x" := by
  intro h
  have hheld : KeysHeld {} := fun _ _ hkey => nomatch hkey
  have hclock : (0 : Nat) + 3600000 ≤ 8640000000000000 := by decide
  obtain ⟨token, w₁, hrun⟩ := @generateInspectionToken_returns scanCodec { now := 0 } "FE-1.5" "x"
    {} rfl rfl fun _ hkey => nomatch hkey
  obtain ⟨hserial, hext, -⟩ := h {} { now := 0 } token w₁ hheld hclock hrun
  obtain ⟨key, -, -, -, -, htoken⟩ := generateInspectionToken_ok hheld hclock hrun
  obtain ⟨hserial', -⟩ := undotted_of_parse scanCodec_laws.1 scanCodec_laws.2.1 scanCodec_laws.2.2
    hclock htoken hserial hext
  exact absurd (show '.' ∈ "FE-1.5".toList by decide) hserial'

end TagsService

end ShieldApi
