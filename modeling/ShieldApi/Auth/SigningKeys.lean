import ShieldApi.Assets.InspectionToken
import ShieldApi.Lib.Runs

/-!
# Signing keys over time

A signature is made under a key that is looked up by its id, in the cache and then in the store; a
key that is in neither is created. **A key that was stored stays the key of its id**: no call changes
one or deletes one, and the cache holds nothing else. So what was signed once is signed alike
ever after, as long as the key lives.

`KeyCall` is what happens to the keys between two calls of the services. Asking for a key is the
only one of them that writes a key, and it is what every signature starts with.
-/

set_option autoImplicit false

namespace ShieldApi

open Effect

/-! ## 1. Asking for a key -/

/-- The cache holds `key` under `keyId` from now on. -/
def AssetWorld.cacheKey (w : AssetWorld) (keyId : String) (key : SigningKey) : AssetWorld :=
  { w with keyCache := fun k => if k = keyId then some key else w.keyCache k }

@[simp] theorem AssetWorld.cacheKey_keyCache (w : AssetWorld) (keyId : String) (key : SigningKey)
    (k : String) : (w.cacheKey keyId key).keyCache k = if k = keyId then some key else w.keyCache k :=
  rfl

@[simp] theorem AssetWorld.cacheKey_signingKeys (w : AssetWorld) (keyId : String)
    (key : SigningKey) : (w.cacheKey keyId key).signingKeys = w.signingKeys := rfl

namespace AuthService

/-- **All that asking for a key can do.** -/
theorem getSigningKey_cases (crypto : TokenCrypto) (keyId : String) (w : AssetWorld) :
    (∃ key, w.keyCache keyId = some key ∧ (getSigningKey crypto keyId).run w = (.ok key, w)) ∨
    (∃ key, w.keyCache keyId = none ∧ w.signingKeys.find? keyId = some key ∧
      (getSigningKey crypto keyId).run w = (.ok key, w.cacheKey keyId key)) ∨
    (∃ key t, w.keyCache keyId = none ∧ w.signingKeys.find? keyId = none ∧ key.keyId = keyId ∧
      w.signingKeys.insert? key = some t ∧ (getSigningKey crypto keyId).run w =
        (.ok key, { w with signingKeys := t }.cacheKey keyId key)) ∨
    ∃ e, w.keyCache keyId = none ∧ w.signingKeys.find? keyId = none ∧
      (getSigningKey crypto keyId).run w = (.error e, w) := by
  unfold getSigningKey
  cases hcache : w.keyCache keyId with
  | some key =>
    refine .inl ⟨key, rfl, ?_⟩
    rw [attempt_eq_ok]
    simp only [hcache]
  | none =>
    cases hstored : w.signingKeys.find? keyId with
    | some key =>
      refine .inr (.inl ⟨key, rfl, rfl, ?_⟩)
      rw [attempt_eq_ok]
      simp only [hcache, hstored]
      rfl
    | none =>
      by_cases htaken : w.signingKeys.rows.any (·.keySecret = crypto.createSecret) = true
      · refine .inr (.inr (.inr ⟨.uniqueConstraint, rfl, rfl, ?_⟩))
        rw [attempt_eq_error]
        simp only [hcache, hstored, htaken, if_true, and_self]
      · cases hinsert : w.signingKeys.insert?
            ({ keyId, keySecret := crypto.createSecret } : SigningKey) with
        | some t =>
          refine .inr (.inr (.inl ⟨_, t, rfl, rfl, rfl, hinsert, ?_⟩))
          rw [attempt_eq_ok]
          simp only [hcache, hstored, if_neg htaken, hinsert]
          rfl
        | none =>
          refine .inr (.inr (.inr ⟨.uniqueConstraint, rfl, rfl, ?_⟩))
          rw [attempt_eq_error]
          simp only [hcache, hstored, if_neg htaken, hinsert, and_self]

end AuthService

/-! ## 2. What happens to the keys -/

inductive KeyCall
  /-- A signature is asked for under a key. -/
  | sign (keyId : String)
  /-- The cache loses an entry, as it does when the server is started again. -/
  | forget (keyId : String)
  /-- What no key has a part in. `w` is what the rest of the world is then. -/
  | elsewhere (w : AssetWorld)

def KeyCall.step (crypto : TokenCrypto) (w : AssetWorld) : KeyCall → AssetWorld
  | .sign keyId => (AuthService.getSigningKey crypto keyId).after w
  | .forget keyId => { w with keyCache := fun k => if k = keyId then none else w.keyCache k }
  | .elsewhere u => u.withKeys w.signingKeys w.keyCache

/-- The cache holds nothing that is not stored. -/
def KeysHeld (w : AssetWorld) : Prop :=
  ∀ keyId key, w.keyCache keyId = some key → w.signingKeys.find? keyId = some key

theorem KeysHeld.cacheKey {w : AssetWorld} {keyId : String} {key : SigningKey} (h : KeysHeld w)
    (hstored : w.signingKeys.find? keyId = some key) : KeysHeld (w.cacheKey keyId key) := by
  intro k found hfound
  by_cases hk : k = keyId
  · subst hk
    rw [AssetWorld.cacheKey_keyCache, if_pos rfl] at hfound
    exact Option.some.inj hfound ▸ hstored
  · rw [AssetWorld.cacheKey_keyCache, if_neg hk] at hfound
    exact h k found hfound

/-- A stored key is found by its id after another one was stored. -/
theorem find?_insertKey {w : AssetWorld} {key added : SigningKey} {keyId : String}
    {t : Table SigningKey String SigningKey.keyId}
    (hinsert : w.signingKeys.insert? added = some t)
    (hstored : w.signingKeys.find? keyId = some key) : t.find? keyId = some key := by
  rw [Table.find?_eq_some] at hstored ⊢
  exact ⟨(Table.mem_insert? hinsert).mpr (.inl hstored.1), hstored.2⟩

namespace AuthService

variable {crypto : TokenCrypto}

/-- What asking for a key keeps: the cache holds only what is stored, and what is stored stays. -/
theorem getSigningKey_keeps (crypto : TokenCrypto) {w : AssetWorld} (keyId : String) (h : KeysHeld w) :
    KeysHeld ((getSigningKey crypto keyId).after w) ∧
      ∀ k key, w.signingKeys.find? k = some key →
        ((getSigningKey crypto keyId).after w).signingKeys.find? k = some key := by
  rcases getSigningKey_cases crypto keyId w with ⟨key, -, hrun⟩ | ⟨key, -, hstored, hrun⟩ |
      ⟨key, t, -, -, rfl, hinsert, hrun⟩ | ⟨e, -, -, hrun⟩ <;> rw [after_of_run hrun]
  · exact ⟨h, fun _ _ hk => hk⟩
  · exact ⟨h.cacheKey hstored, fun _ _ hk => hk⟩
  · refine ⟨KeysHeld.cacheKey ?_ (Table.find?_inserted hinsert), fun k found hk => ?_⟩
    · exact fun k found hfound => find?_insertKey hinsert (h k found hfound)
    · exact find?_insertKey hinsert hk
  · exact ⟨h, fun _ _ hk => hk⟩

/-- A key that was got is stored. -/
theorem getSigningKey_stored {w w' : AssetWorld} {keyId : String} {key : SigningKey}
    (h : KeysHeld w) (hget : (getSigningKey crypto keyId).run w = (.ok key, w')) :
    w'.signingKeys.find? keyId = some key := by
  rcases getSigningKey_cases crypto keyId w with ⟨found, hcache, hrun⟩ | ⟨found, -, hstored, hrun⟩ |
      ⟨found, t, -, -, rfl, hinsert, hrun⟩ | ⟨e, -, -, hrun⟩ <;> rw [hget] at hrun <;>
      obtain ⟨hkey, rfl⟩ := Prod.mk.inj hrun
  · exact Except.ok.inj hkey ▸ h keyId found hcache
  · exact Except.ok.inj hkey ▸ hstored
  · obtain rfl := Except.ok.inj hkey
    exact Table.find?_inserted hinsert
  · exact nomatch hkey

/-- A key nobody has yet is created, if its secret is new. -/
theorem getSigningKey_creates {w : AssetWorld} {keyId : String} (hcache : w.keyCache keyId = none)
    (hnone : w.signingKeys.find? keyId = none)
    (hsecret : ∀ key ∈ w.signingKeys, key.keySecret ≠ crypto.createSecret) :
    ∃ w', (getSigningKey crypto keyId).run w =
      (.ok { keyId, keySecret := crypto.createSecret }, w') := by
  have hfresh : ¬ w.signingKeys.rows.any (·.keySecret = crypto.createSecret) = true := by
    intro hany
    obtain ⟨key, hkey, heq⟩ := List.any_eq_true.mp hany
    exact hsecret key hkey (of_decide_eq_true heq)
  obtain ⟨t, hinsert⟩ := Option.isSome_iff_exists.mp (Table.insert?_isSome.mpr hnone :
    (w.signingKeys.insert? { keyId, keySecret := crypto.createSecret }).isSome = true)
  refine ⟨({ w with signingKeys := t } : AssetWorld).cacheKey keyId
    { keyId, keySecret := crypto.createSecret }, ?_⟩
  unfold getSigningKey
  rw [attempt_eq_ok]
  simp only [hcache, hnone, if_neg hfresh, hinsert]
  rfl

/-- A key that is stored, and not cached yet, is got and cached. -/
theorem getSigningKey_of_uncached {w : AssetWorld} {keyId : String} {key : SigningKey}
    (hcache : w.keyCache keyId = none) (hstored : w.signingKeys.find? keyId = some key) :
    (getSigningKey crypto keyId).run w = (.ok key, w.cacheKey keyId key) := by
  unfold getSigningKey
  rw [attempt_eq_ok]
  simp only [hcache, hstored]
  rfl

/-- A key that is stored is got. -/
theorem getSigningKey_of_stored {w : AssetWorld} {keyId : String} {key : SigningKey}
    (h : KeysHeld w) (hstored : w.signingKeys.find? keyId = some key) :
    ∃ w', (getSigningKey crypto keyId).run w = (.ok key, w') := by
  rcases getSigningKey_cases crypto keyId w with ⟨found, hcache, hrun⟩ | ⟨found, -, hfound, hrun⟩ |
      ⟨_, _, -, hnone, -⟩ | ⟨_, -, hnone, -⟩
  · obtain rfl : found = key := Option.some.inj ((h keyId found hcache).symm.trans hstored)
    exact ⟨w, hrun⟩
  · obtain rfl : found = key := Option.some.inj (hfound.symm.trans hstored)
    exact ⟨_, hrun⟩
  · exact absurd (hnone.symm.trans hstored) (by simp)
  · exact absurd (hnone.symm.trans hstored) (by simp)

end AuthService

theorem KeyCall.step_keeps (crypto : TokenCrypto) {w : AssetWorld} (call : KeyCall)
    (h : KeysHeld w) : KeysHeld (call.step crypto w) ∧
      ∀ k key, w.signingKeys.find? k = some key →
        (call.step crypto w).signingKeys.find? k = some key := by
  cases call with
  | sign keyId => exact AuthService.getSigningKey_keeps crypto keyId h
  | forget keyId =>
    refine ⟨fun k key hk => ?_, fun _ _ hk => hk⟩
    have hkept : (if k = keyId then none else w.keyCache k) = some key := hk
    split at hkept
    · exact nomatch hkept
    · exact h k key hkept
  | elsewhere u => exact ⟨h, fun _ _ hk => hk⟩

/-- The state a list of calls ends in. -/
def keyRun (crypto : TokenCrypto) (w : AssetWorld) (calls : List KeyCall) : AssetWorld :=
  calls.foldl (KeyCall.step crypto) w

/-- **Keys are for good.** -/
theorem keyRun_keeps (crypto : TokenCrypto) {w : AssetWorld} (calls : List KeyCall)
    (h : KeysHeld w) : KeysHeld (keyRun crypto w calls) ∧
      ∀ k key, w.signingKeys.find? k = some key →
        (keyRun crypto w calls).signingKeys.find? k = some key := by
  induction calls generalizing w with
  | nil => exact ⟨h, fun _ _ hk => hk⟩
  | cons call calls ih =>
    obtain ⟨hheld, hkeys⟩ := call.step_keeps crypto h
    obtain ⟨hheld', hkeys'⟩ := ih hheld
    exact ⟨hheld', fun k key hk => hkeys' k key (hkeys k key hk)⟩

/-! ## 3. Signatures -/

namespace AuthService

variable {crypto : TokenCrypto} {signatureData : String} {timestamp : JsNumber}
  {keyId : Option String} {sigLength : Nat}

/-- The signature of a text under a key. -/
def signatureOf (crypto : TokenCrypto) (key : SigningKey) (signatureData : String)
    (timestamp : JsNumber) (sigLength : Nat) : String :=
  String.ofList ((crypto.hmacSha256 key.keySecret
    (signatureData ++ "." ++ timestamp.text crypto)).toList.take sigLength)

theorem generateSignature_eq_ok {signature : String} {w w' : AssetWorld} :
    (generateSignature crypto signatureData timestamp keyId sigLength).run w =
      (.ok signature, w') ↔
        ∃ key, (getSigningKey crypto (keyId.getD crypto.defaultSigningKeyId)).run w =
          (.ok key, w') ∧ isExpiredKey key timestamp = false ∧
            signature = signatureOf crypto key signatureData timestamp sigLength := by
  unfold generateSignature
  rw [bind_eq_ok]
  constructor
  · intro h
    obtain ⟨key, w₁, hget, h⟩ := h
    rw [bind_eq_ok] at h
    obtain ⟨_, w₂, hraise, h⟩ := h
    obtain ⟨hlive, rfl⟩ := raiseIf_eq_ok.mp hraise
    obtain ⟨hsig, rfl⟩ := Prod.mk.inj h
    exact ⟨key, hget, hlive, (Except.ok.inj hsig).symm⟩
  · intro h
    obtain ⟨key, hget, hlive, rfl⟩ := h
    refine ⟨key, w', hget, ?_⟩
    rw [hlive, raiseIf_false, run_pure_bind]
    rfl

/-- What a signature that was made says of the key it was made with: it is stored, and lives. -/
theorem generateSignature_ok {signature : String} {w w' : AssetWorld} (hheld : KeysHeld w)
    (h : (generateSignature crypto signatureData timestamp keyId sigLength).run w =
      (.ok signature, w')) :
    ∃ key, w'.signingKeys.find? (keyId.getD crypto.defaultSigningKeyId) = some key ∧
      isExpiredKey key timestamp = false ∧
        signature = signatureOf crypto key signatureData timestamp sigLength := by
  obtain ⟨key, hget, hlive, hsig⟩ := generateSignature_eq_ok.1 h
  exact ⟨key, getSigningKey_stored hheld hget, hlive, hsig⟩

/-- What a signature keeps of the keys. -/
theorem generateSignature_keeps {signature : String} {w w' : AssetWorld} (hheld : KeysHeld w)
    (h : (generateSignature crypto signatureData timestamp keyId sigLength).run w =
      (.ok signature, w')) :
    KeysHeld w' ∧ ∀ k key, w.signingKeys.find? k = some key →
      w'.signingKeys.find? k = some key := by
  obtain ⟨key, hget, -, -⟩ := generateSignature_eq_ok.1 h
  have hkeeps := getSigningKey_keeps crypto (keyId.getD crypto.defaultSigningKeyId) hheld
  rw [after_of_run hget] at hkeeps
  exact hkeeps

theorem generateSignature_of_key {w w' : AssetWorld} {key : SigningKey}
    (hget : (getSigningKey crypto (keyId.getD crypto.defaultSigningKeyId)).run w = (.ok key, w'))
    (hlive : isExpiredKey key timestamp = false) :
    (generateSignature crypto signatureData timestamp keyId sigLength).run w =
      (.ok (signatureOf crypto key signatureData timestamp sigLength), w') :=
  generateSignature_eq_ok.2 ⟨key, hget, hlive, rfl⟩

/-- A stored key that lives signs. -/
theorem generateSignature_of_stored {w : AssetWorld} {key : SigningKey} (h : KeysHeld w)
    (hstored : w.signingKeys.find? (keyId.getD crypto.defaultSigningKeyId) = some key)
    (hlive : isExpiredKey key timestamp = false) :
    ∃ w', (generateSignature crypto signatureData timestamp keyId sigLength).run w =
      (.ok (signatureOf crypto key signatureData timestamp sigLength), w') := by
  obtain ⟨w', hget⟩ := getSigningKey_of_stored h hstored
  exact ⟨w', generateSignature_of_key hget hlive⟩

end AuthService

end ShieldApi
