import ShieldApi.Assets.ValidatorErrors
import ShieldApi.Lib.Entries

/-!
# What a validation writes

To check a signature is to make it once more, under the key that the signature names, and a key
that nobody has is created when it is asked for. So whoever sends a token or the address of a tag
can have a key stored under an id of their choice.

**A validation leaves the keys alone exactly where the key it asks for is there**
(`validation_writesNothing_iff`), and then a right address asks for the default key besides. In the
states that the services reach, there means stored (`found_iff_of_keysHeld`).
-/

set_option autoImplicit false

namespace ShieldApi

open Effect

/-! ## 1. The address of a tag -/

namespace TokenRuntime

/-- What `new URL` throws. -/
def invalidUrl : ApiError := .error "Invalid URL"

/-- What `ValidateSignedUrlSchema.parse` throws. -/
def invalidParams : ApiError := .error "Invalid input"

/-- `ValidateSignedUrlSchema`: four texts and a number. A number that is not finite is none. -/
def parseSignedUrl (rt : TokenRuntime) (urlParams : List (String × String)) :
    Option ValidateSignedUrlDto := do
  let sn ← Entries.get? urlParams "sn"
  let id ← Entries.get? urlParams "id"
  let t ← Entries.get? urlParams "t"
  let sig ← Entries.get? urlParams "sig"
  let kid ← Entries.get? urlParams "kid"
  match rt.stringToNumber t with
  | .finite q => some { sn, id, t := .finite q, sig, kid }
  | _ => none

/-- What the address of a tag says, if it is one. -/
def signedUrl (rt : TokenRuntime) (searchParams : String → Option (List (String × String)))
    (tagUrl : String) : Option ValidateSignedUrlDto :=
  (searchParams tagUrl).bind rt.parseSignedUrl

/-- `searchParams` are the parameters of an address, if it is one. -/
def validateTagUrl (rt : TokenRuntime) (searchParams : String → Option (List (String × String)))
    (env : Env) (tagUrl : String) : AssetApi TagUrlValidation := do
  let urlParams ← orRaise invalidUrl (searchParams tagUrl)
  let validateSignedUrlDto ← orRaise invalidParams (rt.parseSignedUrl urlParams)
  rt.validateTagSignature env validateSignedUrlDto

end TokenRuntime

/-! ## 2. Keys that are there -/

/-- The key of an id, in the cache or in the store. -/
def AssetWorld.foundKey (w : AssetWorld) (keyId : String) : Option SigningKey :=
  (w.keyCache keyId).or (w.signingKeys.find? keyId)

/-- Whoever asks for the key has it created. -/
def AddsKey (crypto : TokenCrypto) (keyId : String) (w : AssetWorld) : Prop :=
  w.foundKey keyId = none ∧ ∀ key ∈ w.signingKeys, key.keySecret ≠ crypto.createSecret

/-- The cache holds only what is stored: a key is there if it is stored. -/
theorem found_iff_of_keysHeld {w : AssetWorld} (h : KeysHeld w) {keyId : String}
    {key : SigningKey} :
    w.foundKey keyId = some key ↔ w.signingKeys.find? keyId = some key := by
  unfold AssetWorld.foundKey
  cases hcache : w.keyCache keyId with
  | none => rfl
  | some cached => rw [h keyId cached hcache, Option.some_or]

namespace AuthService

variable {crypto : TokenCrypto} {keyId : String} {key : SigningKey} {w : AssetWorld}

/-- A key that is there is handed out, and nothing is stored. -/
theorem getSigningKey_of_found (crypto : TokenCrypto) (h : w.foundKey keyId = some key) :
    ∃ w', (getSigningKey crypto keyId).run w = (.ok key, w') ∧ w'.signingKeys = w.signingKeys ∧
      ∀ k, w'.foundKey k = w.foundKey k := by
  unfold AssetWorld.foundKey at h
  rcases getSigningKey_cases crypto keyId w with ⟨cached, hcache, hrun⟩ |
      ⟨stored, hcache, hstored, hrun⟩ | ⟨_, _, hcache, hnone, -⟩ | ⟨_, hcache, hnone, -⟩
  · rw [hcache, Option.some_or] at h
    obtain rfl := Option.some.inj h
    exact ⟨w, hrun, rfl, fun _ => rfl⟩
  · rw [hcache, hstored, Option.none_or] at h
    obtain rfl := Option.some.inj h
    refine ⟨_, hrun, rfl, fun k => ?_⟩
    unfold AssetWorld.foundKey
    rw [AssetWorld.cacheKey_keyCache, AssetWorld.cacheKey_signingKeys]
    by_cases hk : k = keyId
    · rw [if_pos hk, hk, hcache, hstored]
      rfl
    · rw [if_neg hk]
  · rw [hcache, hnone] at h
    exact nomatch h
  · rw [hcache, hnone] at h
    exact nomatch h

/-- A key that is there no more than its secret is free: asking for it fails. -/
theorem getSigningKey_of_taken (hfound : w.foundKey keyId = none) (h : ¬ AddsKey crypto keyId w) :
    ∃ e, (getSigningKey crypto keyId).run w = (.error e, w) := by
  have hnone := Option.or_eq_none_iff.mp hfound
  rcases getSigningKey_cases crypto keyId w with ⟨_, hcache, -⟩ | ⟨_, -, hstored, -⟩ |
      ⟨added, t, -, -, -, hinsert, hrun⟩ | ⟨e, -, -, hrun⟩
  · exact absurd (hnone.1.symm.trans hcache) nofun
  · exact absurd (hnone.2.symm.trans hstored) nofun
  · -- a key that was made has a secret of its own
    have hof := getSigningKey_eq_ok.mp ⟨_, hrun⟩
    unfold signingKeyOf at hof
    rw [hnone.1, hnone.2, Option.none_or, Option.none_or] at hof
    split at hof
    · exact nomatch hof
    · next hfree =>
      refine absurd ⟨hfound, fun other hother hsecret => hfree ?_⟩ h
      exact List.any_eq_true.mpr ⟨other, hother, decide_eq_true hsecret⟩
  · exact ⟨e, hrun⟩

/-- A key that nobody has is stored. -/
theorem getSigningKey_of_adds (h : AddsKey crypto keyId w) :
    ((getSigningKey crypto keyId).after w).signingKeys.find? keyId ≠ none := by
  have hnone := Option.or_eq_none_iff.mp h.1
  obtain ⟨w', hcreated⟩ := getSigningKey_creates hnone.1 hnone.2 h.2
  rcases getSigningKey_cases crypto keyId w with ⟨_, hcache, -⟩ | ⟨_, -, hstored, -⟩ |
      ⟨added, t, -, -, rfl, hinsert, hrun⟩ | ⟨e, -, -, hrun⟩
  · exact absurd (hnone.1.symm.trans hcache) nofun
  · exact absurd (hnone.2.symm.trans hstored) nofun
  · rw [after_of_run hrun, AssetWorld.cacheKey_signingKeys, Table.find?_inserted hinsert]
    exact Option.some_ne_none _
  · exact absurd (hcreated.symm.trans hrun) nofun

/-- **Asking for a key leaves the stored ones alone unless it adds one.** -/
theorem getSigningKey_signingKeys :
    ((getSigningKey crypto keyId).after w).signingKeys = w.signingKeys ↔
      ¬ AddsKey crypto keyId w := by
  constructor
  · intro h hadds
    have hstored := getSigningKey_of_adds hadds
    rw [h] at hstored
    exact hstored (Option.or_eq_none_iff.mp hadds.1).2
  · intro h
    cases hfound : w.foundKey keyId with
    | some key =>
      obtain ⟨w', hrun, hkeys, -⟩ := getSigningKey_of_found crypto hfound
      rw [after_of_run hrun, hkeys]
    | none =>
      obtain ⟨e, hrun⟩ := getSigningKey_of_taken hfound h
      rw [after_of_run hrun]

/-- What is stored stays stored. -/
theorem getSigningKey_stays (crypto : TokenCrypto) (keyId : String) {k : String}
    (h : w.signingKeys.find? k ≠ none) :
    ((getSigningKey crypto keyId).after w).signingKeys.find? k ≠ none := by
  rcases getSigningKey_cases crypto keyId w with ⟨_, -, hrun⟩ | ⟨_, -, -, hrun⟩ |
      ⟨_, t, -, -, -, hinsert, hrun⟩ | ⟨_, -, -, hrun⟩ <;> rw [after_of_run hrun]
  · exact h
  · exact h
  · obtain ⟨stored, hstored⟩ := Option.ne_none_iff_exists'.mp h
    rw [AssetWorld.cacheKey_signingKeys, find?_insertKey hinsert hstored]
    exact Option.some_ne_none _
  · exact h

end AuthService

/-! ## 3. Validations -/

/-- The keys are as they were, and a key id that is not stored is reported as invalid. -/
structure WritesNothing {V : Type} (isValid : V → Bool) (x : AssetApi V) (named : Option String)
    (w : AssetWorld) : Prop where
  keys : (x.after w).signingKeys = w.signingKeys
  invalid : ∀ keyId, named = some keyId → w.signingKeys.find? keyId = none →
    ∃ v w', x.run w = (.ok v, w') ∧ isValid v = false

/-- The token has expired. Or the key it asks for is stored; or it is only in the cache, and lives,
    and the signature is another one; or the token names no key, and the default key cannot be
    made. -/
def TokenKeyThere (crypto : TokenCrypto) (env : Env) (token : String) (w : AssetWorld) : Prop :=
  let t := TagsService.parseInspectionToken crypto token
  TagsService.isExpired env t = true ∨
    ¬ AddsKey crypto (t.keyId.getD crypto.defaultSigningKeyId) w ∧
      ∀ keyId, t.keyId = some keyId → w.signingKeys.find? keyId = none →
        ∃ key, w.keyCache keyId = some key ∧ AuthService.isExpiredKey key t.timestamp = false ∧
          ∃ signature, t.signature = some signature ∧ signature ≠
            AuthService.signatureOf crypto key (TagsService.InspectionToken.signatureData crypto t)
              t.timestamp TagsService.sigLength

namespace TokenRuntime

/-- The key the address names is in the cache or stored. The signature is another one, and the key
    had not expired; or the key is stored, and if the signature is right, the default key is there
    too. -/
def UrlKeyThere (rt : TokenRuntime) (dto : ValidateSignedUrlDto) (w : AssetWorld) : Prop :=
  ∃ key, w.foundKey dto.kid = some key ∧
    let expired := rt.keyExpired (.number dto.t) key
    let signature :=
      rt.signatureOf key (dto.sn ++ "." ++ dto.id) (.number dto.t) TagsService.sigLength
    (expired = false ∧ dto.sig ≠ signature ∨
      w.signingKeys.find? dto.kid ≠ none ∧
        (expired = true ∨ ¬ AddsKey rt.again.crypto rt.codec.crypto.defaultSigningKeyId w))

end TokenRuntime

/-! ## 4. What they ask for -/

section Writes

variable {crypto : TokenCrypto} {rt : TokenRuntime} {env : Env} {token : String} {w : AssetWorld}
  {keyId : String} {key : SigningKey}

/-- Where no key is added, what is got is what is there. -/
theorem getSigningKey_of_not_adds (h : ¬ AddsKey crypto keyId w) :
    (∃ w', (AuthService.getSigningKey crypto keyId).run w = (.ok key, w')) ↔
      w.foundKey keyId = some key := by
  cases hfound : w.foundKey keyId with
  | none =>
    obtain ⟨e, hrun⟩ := AuthService.getSigningKey_of_taken hfound h
    rw [hrun]
    exact iff_of_false nofun nofun
  | some found =>
    obtain ⟨w', hrun, -, -⟩ := AuthService.getSigningKey_of_found crypto hfound
    rw [hrun]
    constructor
    · intro h
      obtain ⟨_, h⟩ := h
      rw [Except.ok.inj (Prod.mk.inj h).1]
    · intro h
      obtain rfl := Option.some.inj h
      exact ⟨w', rfl⟩

theorem foundKey_of_not_stored (h : w.signingKeys.find? keyId = none) :
    w.foundKey keyId = w.keyCache keyId := by
  rw [AssetWorld.foundKey, h, Option.or_none]

/-! ### Inspection tokens -/

theorem generateSignature_after_eq (signatureData : String) (timestamp : JsNumber)
    (keyId : Option String) (sigLength : Nat) :
    (AuthService.generateSignature crypto signatureData timestamp keyId sigLength).after w =
      (AuthService.getSigningKey crypto (keyId.getD crypto.defaultSigningKeyId)).after w :=
  after_bind_readOnly (fun _ => (readOnly_raiseIf _ _).bind fun _ => readOnly_pure _) w

/-- A token that has not expired is reported as invalid if its key can be had and it has another
    signature. -/
theorem validateInspectionToken_invalid
    (hexpired : TagsService.isExpired env (TagsService.parseInspectionToken crypto token) = false) :
    let t := TagsService.parseInspectionToken crypto token
    (∃ v w', (TagsService.validateInspectionToken crypto env token).run w = (.ok v, w') ∧
      v.isValid = false) ↔
      ∃ key, (∃ w', (AuthService.getSigningKey crypto
          (t.keyId.getD crypto.defaultSigningKeyId)).run w = (.ok key, w')) ∧
        AuthService.isExpiredKey key t.timestamp = false ∧
        ∃ signature, t.signature = some signature ∧ signature ≠
          AuthService.signatureOf crypto key (TagsService.InspectionToken.signatureData crypto t)
            t.timestamp TagsService.sigLength := by
  intro t
  unfold TagsService.validateInspectionToken TagsService.safeEqualStrings
  simp only [hexpired, Bool.false_eq_true, if_false, bind_eq_ok, orRaise_eq_ok, run_pure,
    AuthService.generateSignature_eq_ok, Prod.mk.injEq, Except.ok.injEq]
  constructor
  · rintro ⟨v, w', ⟨made, _, ⟨key, hget, hlive, rfl⟩, equal, _,
      ⟨signature, _, ⟨hsignature, -⟩, rfl, -⟩, rfl, -⟩, hv⟩
    refine ⟨key, ⟨_, hget⟩, hlive, signature, hsignature, fun hsame => ?_⟩
    rw [hsame] at hv
    simp [t] at hv
  · rintro ⟨key, ⟨w', hget⟩, hlive, signature, hsignature, hne⟩
    refine ⟨_, w', ⟨_, w', ⟨key, hget, hlive, rfl⟩, false, w', ⟨signature, w', ⟨hsignature, rfl⟩,
      decide_eq_false hne.symm, rfl⟩, rfl, rfl⟩, rfl⟩

theorem writesNothing_inspectionToken :
    WritesNothing (·.isValid) (TagsService.validateInspectionToken crypto env token)
        (TagsService.parseInspectionToken crypto token).keyId w ↔
      TokenKeyThere crypto env token w := by
  unfold TokenKeyThere
  cases hexpired : TagsService.isExpired env (TagsService.parseInspectionToken crypto token) with
  | true =>
    have hrun : ∃ v, (TagsService.validateInspectionToken crypto env token).run w = (.ok v, w) ∧
        v.isValid = false := by
      unfold TagsService.validateInspectionToken
      simp only [hexpired, if_true]
      exact ⟨_, rfl, rfl⟩
    obtain ⟨v, hrun, hv⟩ := hrun
    refine iff_of_true ⟨by rw [after_of_run hrun], fun _ _ _ => ⟨v, w, hrun, hv⟩⟩ (.inl hexpired)
  | false =>
    have hafter : (TagsService.validateInspectionToken crypto env token).after w =
        (AuthService.getSigningKey crypto
          ((TagsService.parseInspectionToken crypto token).keyId.getD
            crypto.defaultSigningKeyId)).after w := by
      unfold TagsService.validateInspectionToken
      simp only [hexpired, Bool.false_eq_true, if_false]
      rw [after_bind_readOnly, generateSignature_after_eq]
      exact fun _ => ((readOnly_orRaise _ _).bind fun _ => readOnly_pure _).bind
        fun _ => readOnly_pure _
    simp only [hexpired, Bool.false_eq_true, false_or]
    constructor
    · intro h
      have hadds := AuthService.getSigningKey_signingKeys.mp (hafter ▸ h.keys)
      refine ⟨hadds, fun keyId hnamed hnot => ?_⟩
      obtain ⟨key, hget, hlive, hother⟩ :=
        (validateInspectionToken_invalid hexpired).mp (h.invalid keyId hnamed hnot)
      rw [getSigningKey_of_not_adds hadds, hnamed, Option.getD_some,
        foundKey_of_not_stored hnot] at hget
      exact ⟨key, hget, hlive, hother⟩
    · intro h
      obtain ⟨hadds, hcached⟩ := h
      refine ⟨by rw [hafter]; exact AuthService.getSigningKey_signingKeys.mpr hadds,
        fun keyId hnamed hnot => (validateInspectionToken_invalid hexpired).mpr ?_⟩
      obtain ⟨key, hkey, hlive, hother⟩ := hcached keyId hnamed hnot
      refine ⟨key, (getSigningKey_of_not_adds hadds).mpr ?_, hlive, hother⟩
      rw [hnamed, Option.getD_some, foundKey_of_not_stored hnot, hkey]

/-! ### Addresses of tags -/

section Signatures

variable {dto : TokenRuntime.ValidateSignedUrlDto} {signature : String} {w' : AssetWorld}

/-- An expired key ends the validation. -/
theorem validateTagSignature_of_expired (env : Env)
    (hget : (AuthService.getSigningKey rt.codec.crypto dto.kid).run w = (.ok key, w'))
    (hexpired : rt.keyExpired (.number dto.t) key = true) :
    (rt.validateTagSignature env dto).run w = (.error AuthService.signingKeyExpired, w') := by
  have hsign : (rt.generateSignature (dto.sn ++ "." ++ dto.id) (.number dto.t) (some dto.kid)
      TagsService.sigLength).run w = (.error AuthService.signingKeyExpired, w') := by
    unfold TokenRuntime.keyExpired at hexpired
    unfold TokenRuntime.generateSignature
    simp only [TokenRuntime.toNumber, Option.any_some] at hexpired ⊢
    rw [Option.getD_some, run_bind_ok hget, orRaise_some, run_pure_bind, hexpired, raiseIf_true,
      run_raise_bind]
  exact run_bind_error hsign

/-- Another signature is reported, and no more is done. -/
theorem validateTagSignature_of_other (env : Env)
    (hsign : (rt.generateSignature (dto.sn ++ "." ++ dto.id) (.number dto.t) (some dto.kid)
      TagsService.sigLength).run w = (.ok signature, w')) (hother : dto.sig ≠ signature) :
    ∃ v, (rt.validateTagSignature env dto).run w = (.ok v, w') ∧ v.isValid = false := by
  unfold TokenRuntime.validateTagSignature TagsService.safeEqualStrings
  simp only
  rw [run_bind_ok hsign, orRaise_some, bind_bind, run_pure_bind, run_pure_bind,
    decide_eq_false hother.symm]
  exact ⟨_, rfl, rfl⟩

/-- The right signature is answered with an inspection token. -/
theorem validateTagSignature_of_same (env : Env)
    (hsign : (rt.generateSignature (dto.sn ++ "." ++ dto.id) (.number dto.t) (some dto.kid)
      TagsService.sigLength).run w = (.ok dto.sig, w')) :
    ((rt.validateTagSignature env dto).after w).signingKeys =
        ((AuthService.getSigningKey rt.again.crypto
          rt.codec.crypto.defaultSigningKeyId).after w').signingKeys ∧
      ∀ v u, (rt.validateTagSignature env dto).run w = (.ok v, u) → v.isValid = true := by
  have hrun : (rt.validateTagSignature env dto).run w =
      (TagsService.generateInspectionToken rt.again env dto.sn dto.id >>= fun token =>
        pure { isValid := true, serialNumber := dto.sn, id := dto.id, timestamp := dto.t,
               keyId := dto.kid, inspectionToken := some token }).run w' := by
    unfold TokenRuntime.validateTagSignature TagsService.safeEqualStrings
    simp only
    rw [run_bind_ok hsign, orRaise_some, bind_bind, run_pure_bind, run_pure_bind,
      decide_eq_true rfl, if_pos rfl]
    show ((TagsService.generateInspectionToken rt.again env dto.sn dto.id >>= fun token =>
      pure (some token)) >>= _).run w' = _
    rw [bind_bind]
    rfl
  constructor
  · rw [after, hrun]
    show ((_ >>= _ : AssetApi _).after w').signingKeys = _
    rw [after_bind_readOnly fun _ => readOnly_pure _]
    unfold TagsService.generateInspectionToken
    simp only
    rw [after_bind_readOnly fun _ => readOnly_pure _, generateSignature_after_eq]
    rfl
  · intro v u h
    rw [hrun, bind_eq_ok] at h
    obtain ⟨token, _, -, h⟩ := h
    rw [← Except.ok.inj (Prod.mk.inj h).1]

/-- A key that can be had and lives signs. -/
theorem generateSignature_of_key
    (hget : (AuthService.getSigningKey rt.codec.crypto dto.kid).run w = (.ok key, w'))
    (hlive : rt.keyExpired (.number dto.t) key = false) :
    (rt.generateSignature (dto.sn ++ "." ++ dto.id) (.number dto.t) (some dto.kid)
      TagsService.sigLength).run w =
        (.ok (rt.signatureOf key (dto.sn ++ "." ++ dto.id) (.number dto.t) TagsService.sigLength),
          w') :=
  TokenRuntime.generateSignature_eq_ok.mpr
    ⟨key, hget, by simp [ParsedJson.printable], hlive, rfl⟩

/-- What is stored when the key is there stays stored. -/
theorem validateTagSignature_stays (env : Env) {k : String}
    (hget : (AuthService.getSigningKey rt.codec.crypto dto.kid).run w = (.ok key, w'))
    (h : w'.signingKeys.find? k ≠ none) :
    ((rt.validateTagSignature env dto).after w).signingKeys.find? k ≠ none := by
  cases hexpired : rt.keyExpired (.number dto.t) key with
  | true =>
    rw [after_of_run (validateTagSignature_of_expired env hget hexpired)]
    exact h
  | false =>
    have hsign := generateSignature_of_key hget hexpired
    by_cases hsame : dto.sig =
        rt.signatureOf key (dto.sn ++ "." ++ dto.id) (.number dto.t) TagsService.sigLength
    · rw [← hsame] at hsign
      rw [(validateTagSignature_of_same env hsign).1]
      exact AuthService.getSigningKey_stays _ _ h
    · obtain ⟨v, hrun, -⟩ := validateTagSignature_of_other env hsign hsame
      rw [after_of_run hrun]
      exact h

/-- Whether a key is added is a matter of the keys that are there. -/
theorem addsKey_congr {u : AssetWorld} (hkeys : u.signingKeys = w.signingKeys)
    (hfound : ∀ k, u.foundKey k = w.foundKey k) {crypto : TokenCrypto} {keyId : String} :
    AddsKey crypto keyId u ↔ AddsKey crypto keyId w := by
  unfold AddsKey
  rw [hkeys, hfound]

/-- A key that is neither stored nor cached is stored, or the validation fails. -/
theorem not_writesNothing_of_not_found (hfound : w.foundKey dto.kid = none) :
    ¬ WritesNothing (·.isValid) (rt.validateTagSignature env dto) (some dto.kid) w := by
  intro h
  have hnot := (Option.or_eq_none_iff.mp hfound).2
  obtain ⟨v, u, hrun, -⟩ := h.invalid dto.kid rfl hnot
  obtain ⟨_, w', hsign, -⟩ := bind_eq_ok.mp hrun
  obtain ⟨key, hget, -⟩ := TokenRuntime.generateSignature_eq_ok.mp hsign
  have hget : (AuthService.getSigningKey rt.codec.crypto dto.kid).run w = (.ok key, w') := hget
  have hadds : AddsKey rt.codec.crypto dto.kid w := by
    by_contra hadds
    obtain ⟨e, herror⟩ := AuthService.getSigningKey_of_taken hfound hadds
    cases hget.symm.trans herror
  have hstored := AuthService.getSigningKey_of_adds hadds
  rw [after_of_run hget] at hstored
  have hstays := validateTagSignature_stays env hget hstored
  rw [h.keys] at hstays
  exact hstays hnot

theorem writesNothing_tagSignature :
    WritesNothing (·.isValid) (rt.validateTagSignature env dto) (some dto.kid) w ↔
      rt.UrlKeyThere dto w := by
  unfold TokenRuntime.UrlKeyThere
  cases hfound : w.foundKey dto.kid with
  | none =>
    refine iff_of_false (not_writesNothing_of_not_found hfound) fun h => ?_
    obtain ⟨_, h, -⟩ := h
    cases h
  | some key =>
    obtain ⟨w', hget, hkeys, hsame⟩ :=
      AuthService.getSigningKey_of_found rt.codec.crypto hfound
    simp only [Option.some.injEq, exists_eq_left']
    cases hexpired : rt.keyExpired (.number dto.t) key with
    | true =>
      have hrun := validateTagSignature_of_expired env hget hexpired
      simp only [Bool.true_eq_false, false_and, false_or, true_or, and_true]
      constructor
      · intro h hnot
        obtain ⟨v, u, hok, -⟩ := h.invalid dto.kid rfl hnot
        cases hrun.symm.trans hok
      · intro h
        refine ⟨by rw [after_of_run hrun, hkeys], fun keyId hnamed hnot => ?_⟩
        exact absurd (Option.some.inj hnamed ▸ hnot) h
    | false =>
      have hsign := generateSignature_of_key hget hexpired
      simp only [Bool.false_eq_true, true_and, false_or]
      by_cases hright : dto.sig =
          rt.signatureOf key (dto.sn ++ "." ++ dto.id) (.number dto.t) TagsService.sigLength
      · rw [← hright] at hsign
        obtain ⟨hafter, hvalid⟩ := validateTagSignature_of_same env hsign
        rw [← hright, or_iff_right fun h => h rfl, ← addsKey_congr hkeys hsame,
          ← AuthService.getSigningKey_signingKeys, hkeys, ← hafter]
        constructor
        · intro h
          refine ⟨fun hnot => ?_, h.keys⟩
          obtain ⟨v, u, hok, hinvalid⟩ := h.invalid dto.kid rfl hnot
          cases hinvalid.symm.trans (hvalid v u hok)
        · intro h
          refine ⟨h.2, fun keyId hnamed hnot => ?_⟩
          exact absurd (Option.some.inj hnamed ▸ hnot) h.1
      · obtain ⟨v, hrun, hinvalid⟩ := validateTagSignature_of_other env hsign hright
        refine iff_of_true ⟨by rw [after_of_run hrun, hkeys], fun _ _ _ => ?_⟩ (.inl hright)
        exact ⟨v, w', hrun, hinvalid⟩

variable {searchParams : String → Option (List (String × String))} {tagUrl : String}

theorem writesNothing_tagUrl :
    WritesNothing (·.isValid) (rt.validateTagUrl searchParams env tagUrl)
        ((rt.signedUrl searchParams tagUrl).map (·.kid)) w ↔
      ∀ dto, rt.signedUrl searchParams tagUrl = some dto → rt.UrlKeyThere dto w := by
  unfold TokenRuntime.validateTagUrl TokenRuntime.signedUrl
  cases hparams : searchParams tagUrl with
  | none => exact iff_of_true ⟨rfl, nofun⟩ nofun
  | some urlParams =>
    rw [orRaise_some, pure_bind_self, Option.bind_some]
    cases hdto : rt.parseSignedUrl urlParams with
    | none => exact iff_of_true ⟨rfl, nofun⟩ nofun
    | some dto =>
      rw [orRaise_some, pure_bind_self, Option.map_some, writesNothing_tagSignature]
      simp only [Option.some.injEq, forall_eq']

/-- **Which validations leave the keys alone.** -/
theorem validation_writesNothing_iff :
    (WritesNothing (·.isValid) (TagsService.validateInspectionToken crypto env token)
        (TagsService.parseInspectionToken crypto token).keyId w ↔
        TokenKeyThere crypto env token w) ∧
      (WritesNothing (·.isValid) (rt.validateTagSignature env dto) (some dto.kid) w ↔
        rt.UrlKeyThere dto w) ∧
      (WritesNothing (·.isValid) (rt.validateTagUrl searchParams env tagUrl)
          ((rt.signedUrl searchParams tagUrl).map (·.kid)) w ↔
        ∀ dto, rt.signedUrl searchParams tagUrl = some dto → rt.UrlKeyThere dto w) :=
  ⟨writesNothing_inspectionToken, writesNothing_tagSignature, writesNothing_tagUrl⟩

end Signatures

end Writes

/-! ## 5. A key of somebody's choice -/

def noKeys : AssetWorld := { core := {} }

def forgedUrl : TokenRuntime.ValidateSignedUrlDto :=
  { sn := "SN-1", id := "tag-1", t := .finite 1767222300000, sig := "forged", kid := "mine" }

/-- A forged token and a forged address: each has a key stored under the id it names. -/
theorem forged_stored :
    (((TagsService.validateInspectionToken SignedArtifact.openCrypto { now := 1767222300000 }
        "SN-1.tag-1.1767225900000.1767222300000.mine.forged").after noKeys).signingKeys.rows.map
          (·.keyId) = ["mine"] ∧
      ((nodeRuntime.validateTagSignature { now := 1767222300000 } forgedUrl).after
        noKeys).signingKeys.rows.map (·.keyId) = ["mine"]) ∧
    ¬ WritesNothing (·.isValid) (TagsService.validateInspectionToken SignedArtifact.openCrypto
        { now := 1767222300000 } "SN-1.tag-1.1767225900000.1767222300000.mine.forged")
        (some "mine") noKeys ∧
      ¬ WritesNothing (·.isValid) (nodeRuntime.validateTagSignature { now := 1767222300000 }
        forgedUrl) (some "mine") noKeys := by
  refine ⟨⟨by decide, by decide⟩, fun h => ?_, fun h => ?_⟩
  · exact absurd (congrArg (·.rows.length) h.keys) (by decide)
  · exact absurd (congrArg (·.rows.length) h.keys) (by decide)

end ShieldApi
