import ShieldApi.Auth.CustomTokens

/-!
# What a custom token is good for

A custom token of one service is a custom token of the other. This file says **exactly when it
is refused there**: when it has expired, and never before. In between it does not matter what
becomes of the keys, since the one it was signed with stays.

The endpoint that hands out a token for the migration socket is for system administrators only.
The one for the event stream is for everybody with an access grant, and its token opens the
socket too.
-/

set_option autoImplicit false

namespace ShieldApi

open Effect

/-! ## 1. The two services, side by side -/

inductive TokenService
  | events
  | legacyMigration

namespace TokenService

def other : TokenService → TokenService
  | .events => .legacyMigration
  | .legacyMigration => .events

/-- A token of the service, for the caller `cls`. -/
def generateToken (codec : TokenCodec) (cls : Cls) (env : Env) : TokenService → AssetApi String
  | .events => EventsService.generateToken codec cls env
  | .legacyMigration => LegacyMigrationService.getWsToken codec env

def expiresInSeconds : TokenService → Nat
  | .events => EventsService.expiresInSeconds
  | .legacyMigration => LegacyMigrationService.authTokenExpiresInSeconds

/-- What the service signs for a caller with the grant `grant`. -/
def payload (grant : AccessGrant) : TokenService → Json
  | .events => grant.data
  | .legacyMigration => .obj []

/-- The service takes the token for one of its own. -/
def Accepts (codec : TokenCodec) (env : Env) (token : String) (w : AssetWorld) :
    TokenService → Prop
  | .events => ∃ payload w', (EventsService.validateToken codec env token).run w = (.ok payload, w')
  | .legacyMigration => ∃ payload w',
      (LegacyMigrationService.validateWsToken codec env (some token)).run w =
        (.ok (.valid payload), w')

end TokenService

/-- The gateway lets a connection in on the word of the service. -/
theorem handleConnection_accepted_iff {codec : TokenCodec} {env : Env} {token : String}
    {w : AssetWorld} :
    (∃ w', (LegacyMigrationGateway.handleConnection codec env (some token)).run w =
      (.ok .accepted, w')) ↔ TokenService.legacyMigration.Accepts codec env token w := by
  constructor
  · rintro ⟨w', h⟩
    unfold LegacyMigrationGateway.handleConnection at h
    rw [bind_eq_ok] at h
    obtain ⟨validation, w₁, hvalidate, h⟩ := h
    cases validation with
    | valid payload => exact ⟨payload, w₁, hvalidate⟩
    | invalid error => exact nomatch (Prod.mk.inj h).1
  · rintro ⟨payload, w', h⟩
    exact ⟨w', by unfold LegacyMigrationGateway.handleConnection; rw [run_bind_ok h]; rfl⟩

/-- **Neither service asks anything the other does not ask.** -/
theorem TokenService.accepts_iff {codec : TokenCodec} {env : Env} {token : String}
    {w : AssetWorld} (service : TokenService) (hne : token ≠ "") :
    service.Accepts codec env token w ↔ ∃ payload w',
      (AuthService.validateCustomToken codec env token).run w = (.ok (.valid payload), w') := by
  cases service with
  | events =>
    constructor
    · rintro ⟨payload, w', h⟩
      unfold EventsService.validateToken at h
      rw [bind_eq_ok] at h
      obtain ⟨validation, w₁, hvalidate, h⟩ := h
      cases validation with
      | valid payload => exact ⟨payload, w₁, hvalidate⟩
      | invalid error => exact nomatch (Prod.mk.inj h).1
    · rintro ⟨payload, w', h⟩
      exact ⟨payload, w', by unfold EventsService.validateToken; rw [run_bind_ok h]; rfl⟩
  | legacyMigration =>
    have htoken : truthy (some token) = some token := if_neg hne
    have hvalidate : LegacyMigrationService.validateWsToken codec env (some token) =
        AuthService.validateCustomToken codec env token := by
      unfold LegacyMigrationService.validateWsToken
      rw [htoken]
    show (∃ payload w', (LegacyMigrationService.validateWsToken codec env (some token)).run w =
      (.ok (.valid payload), w')) ↔ _
    rw [hvalidate]

/-! ## 2. A token in a URL -/

theorem encodeURIComponent_eq_self {s : String} (h : ∀ c ∈ s.toList, isUriUnreserved c = true) :
    encodeURIComponent s = s := by
  have hchars : ∀ l : List Char, (∀ c ∈ l, isUriUnreserved c = true) →
      (l.flatMap fun c => if isUriUnreserved c then [c] else percentEncode c) = l := by
    intro l hl
    induction l with
    | nil => rfl
    | cons c l ih =>
      rw [List.flatMap_cons, if_pos (hl c (List.mem_cons_self ..)),
        ih fun d hd => hl d (List.mem_cons_of_mem _ hd), List.singleton_append]
  unfold encodeURIComponent
  rw [hchars s.toList h, String.ofList_toList]

theorem isUriUnreserved_of_isBase64Url {c : Char} (h : isBase64Url c = true) :
    isUriUnreserved c = true := by
  unfold isBase64Url at h
  simp only [Bool.or_eq_true, decide_eq_true_eq] at h
  rcases h with (h | rfl) | rfl
  · rw [isUriUnreserved, h, Bool.true_or]
  · decide
  · decide

/-- A token that was made is no empty text, and stays as it is in a URL. -/
theorem generateCustomToken_token {codec : TokenCodec} (hdigest : codec.Digests) {env : Env}
    {payload : Json} {expiresInSeconds : Nat} {w w' : AssetWorld} {token : String}
    (h : (AuthService.generateCustomToken codec env payload expiresInSeconds).run w =
      (.ok token, w')) : token ≠ "" ∧ encodeURIComponent token = token := by
  unfold AuthService.generateCustomToken at h
  rw [bind_eq_ok] at h
  obtain ⟨signature, w₁, hsignature, h⟩ := h
  obtain rfl := Except.ok.inj (Prod.mk.inj h).1
  have hsig : ∀ c ∈ signature.toList, isBase64Url c = true := by
    unfold AuthService.generateSignature at hsignature
    rw [bind_eq_ok] at hsignature
    obtain ⟨key, w₂, -, hsignature⟩ := hsignature
    rw [bind_eq_ok] at hsignature
    obtain ⟨_, w₃, -, hsignature⟩ := hsignature
    obtain rfl := Except.ok.inj (Prod.mk.inj hsignature).1
    exact AuthService.signatureOf_alphabet hdigest key _ _ _
  constructor
  · intro hempty
    have hlength := congrArg (fun s => s.toList.length) hempty
    have hdot : ".".toList.length = 1 := rfl
    simp only [String.toList_append, List.length_append, hdot, String.toList_empty,
      List.length_nil] at hlength
    omega
  · apply encodeURIComponent_eq_self
    intro c hc
    simp only [String.toList_append, List.mem_append] at hc
    rcases hc with (((hc | hc) | hc) | hc) | hc
    · exact isUriUnreserved_of_isBase64Url (Base64Url.alphabet _ c hc)
    · obtain rfl := List.mem_singleton.mp hc
      decide
    · exact isUriUnreserved_of_isBase64Url (Base64Url.alphabet _ c hc)
    · obtain rfl := List.mem_singleton.mp hc
      decide
    · exact isUriUnreserved_of_isBase64Url (hsig c hc)

/-! ## 3. At the other service -/

/-- A service's token is the custom token of its payload. -/
theorem TokenService.generateToken_issued {codec : TokenCodec} (hdigest : codec.Digests)
    (service : TokenService) {cls : Cls} {grant : AccessGrant}
    (hgrant : cls.accessGrant = some grant) {env : Env} {w w' : AssetWorld} {token : String}
    (h : (service.generateToken codec cls env).run w = (.ok token, w')) :
    (AuthService.generateCustomToken codec env (service.payload grant)
      service.expiresInSeconds).run w = (.ok token, w') := by
  cases service with
  | events =>
    unfold TokenService.generateToken EventsService.generateToken Cls.requireAccessGrant at h
    rw [hgrant, orRaise_some, run_pure_bind, bind_eq_ok] at h
    obtain ⟨made, w₁, hmade, h⟩ := h
    obtain ⟨htoken, rfl⟩ := Prod.mk.inj h
    obtain rfl := Except.ok.inj htoken
    rw [(generateCustomToken_token hdigest hmade).2]
    exact hmade
  | legacyMigration => exact h

/-- A caller with a grant gets a token, if the key is there and lives. -/
theorem TokenService.generateToken_returns {codec : TokenCodec} (service : TokenService) {cls : Cls}
    {grant : AccessGrant} (hgrant : cls.accessGrant = some grant) {env : Env} {w w' : AssetWorld}
    {key : SigningKey}
    (hget : (AuthService.getSigningKey codec.crypto codec.crypto.defaultSigningKeyId).run w =
      (.ok key, w'))
    (hlive : AuthService.isExpiredKey key (.finite (env.now / 1000 : Nat)) = false) :
    ∃ token, (service.generateToken codec cls env).run w = (.ok token, w') := by
  have hmade : ∀ payload secs, ∃ token,
      (AuthService.generateCustomToken codec env payload secs).run w = (.ok token, w') := by
    intro payload secs
    have hget' : (AuthService.getSigningKey codec.crypto ((none : Option String).getD
      codec.crypto.defaultSigningKeyId)).run w = (.ok key, w') := hget
    exact ⟨_, by
      unfold AuthService.generateCustomToken
      rw [run_bind_ok (AuthService.generateSignature_of_key hget' hlive)]
      rfl⟩
  cases service with
  | events =>
    obtain ⟨token, htoken⟩ := hmade grant.data EventsService.expiresInSeconds
    refine ⟨encodeURIComponent token, ?_⟩
    unfold TokenService.generateToken EventsService.generateToken Cls.requireAccessGrant
    rw [hgrant, orRaise_some, run_pure_bind, run_bind_ok htoken]
    rfl
  | legacyMigration => exact hmade _ _

/-- What the other service sees of a token. -/
theorem TokenService.presented {codec : TokenCodec} (hdigest : codec.Digests) {w : AssetWorld}
    (hheld : KeysHeld w) (later : List KeyCall) (service : TokenService) {cls : Cls}
    {grant : AccessGrant} (hgrant : cls.accessGrant = some grant) {env : Env} (env' : Env)
    {token : String} {w₁ : AssetWorld}
    (hissue : (service.generateToken codec cls env).run w = (.ok token, w₁))
    (hhead : codec.Reads
      (tokenHead (env.now / 1000) (env.now / 1000 + service.expiresInSeconds)))
    (hpayload : codec.Reads (service.payload grant)) :
    service.other.Accepts codec env' token (keyRun codec.crypto w₁ later) ↔
      ¬ 1000 * (env.now / 1000 + service.expiresInSeconds) < env'.now := by
  have hmade := service.generateToken_issued hdigest hgrant hissue
  obtain ⟨w', hpresented⟩ : ∃ w', (AuthService.validateCustomToken codec env' token).run
      (keyRun codec.crypto w₁ later) = (.ok _, w') :=
    AuthService.validateCustomToken_issued hdigest hheld hmade hhead hpayload later
  rw [service.other.accepts_iff (generateCustomToken_token hdigest hmade).1]
  constructor
  · rintro ⟨payload, w'', haccepted⟩ hexpired
    rw [hpresented, if_pos hexpired] at haccepted
    exact nomatch (Prod.mk.inj haccepted).1
  · intro hfresh
    rw [if_neg hfresh] at hpresented
    exact ⟨_, _, hpresented⟩

/-- **A token of one service is refused by the other exactly once it has expired**, whatever was
    signed before it was made and before it is presented. -/
theorem customToken_refused_iff {codec : TokenCodec} (hdigest : codec.Digests) {w₀ : AssetWorld}
    (hstart : ∀ keyId, w₀.keyCache keyId = none) (earlier later : List KeyCall)
    (service : TokenService) {cls : Cls} {grant : AccessGrant}
    (hgrant : cls.accessGrant = some grant) {env env' : Env} {token : String} {w₁ : AssetWorld}
    (hissue : (service.generateToken codec cls env).run (keyRun codec.crypto w₀ earlier) =
      (.ok token, w₁))
    (hhead : codec.Reads
      (tokenHead (env.now / 1000) (env.now / 1000 + service.expiresInSeconds)))
    (hpayload : codec.Reads (service.payload grant)) :
    ¬ service.other.Accepts codec env' token (keyRun codec.crypto w₁ later) ↔
      1000 * (env.now / 1000 + service.expiresInSeconds) < env'.now := by
  have hheld : KeysHeld w₀ := fun keyId key hkey => nomatch (hstart keyId).symm.trans hkey
  have hearlier := (keyRun_keeps codec.crypto earlier hheld).1
  rw [service.presented hdigest hearlier later hgrant env' hissue hhead hpayload, not_not]

/-! ### A token for the event stream -/

/-- An inspector at one site. -/
def streamGrant : AccessGrant where
  roleId := "r1"
  scope := .site
  capabilities := []
  clientId := "acme"
  siteId := "hq"

def streamCls : Cls := { accessGrant := some streamGrant }

def streamEnv : Env := { now := 1700000000000 }

def streamHead : String := "\x7b\"iat\":1700000000,\"exp\":1700086400\x7d"

def socketHead : String := "\x7b\"iat\":1700000000,\"exp\":1700014400\x7d"

def streamPayload : String :=
  "\x7b\"scope\":\"SITE\",\"capabilities\":[],\"clientId\":\"acme\",\"siteId\":\"hq\"," ++
    "\"roleId\":\"r1\"\x7d"

/-- What Node makes of the parts of the tokens of `streamCls` at `streamEnv`. -/
def streamCodec : TokenCodec where
  crypto :=
    { base64UrlDecode := fun s =>
        if s = "e30" then "\x7b\x7d"
        else if s = "eyJpYXQiOjE3MDAwMDAwMDAsImV4cCI6MTcwMDA4NjQwMH0" then streamHead
        else if s = "eyJpYXQiOjE3MDAwMDAwMDAsImV4cCI6MTcwMDAxNDQwMH0" then socketHead
        else streamPayload
      hmacSha256 := fun _ _ => "q83vEjRWeJASNFZ4kBI0VniQEjRWeJASNFZ4kBI0Vng"
      defaultSigningKeyId := "default"
      createSecret := "c2VjcmV0" }
  base64UrlEncode := fun s =>
    if s = "\x7b\x7d" then .ofAlphabet "e30" rfl
    else if s = streamHead then
      .ofAlphabet "eyJpYXQiOjE3MDAwMDAwMDAsImV4cCI6MTcwMDA4NjQwMH0" rfl
    else if s = socketHead then
      .ofAlphabet "eyJpYXQiOjE3MDAwMDAwMDAsImV4cCI6MTcwMDAxNDQwMH0" rfl
    else
      .ofAlphabet ("eyJzY29wZSI6IlNJVEUiLCJjYXBhYmlsaXRpZXMiOltdLCJjbGllbnRJZCI6ImFjbWUi" ++
        "LCJzaXRlSWQiOiJocSIsInJvbGVJZCI6InIxIn0") rfl
  stringify := fun
    | .obj [] => "\x7b\x7d"
    | .obj [_, (_, .num (.finite exp))] => if exp = 1700086400 then streamHead else socketHead
    | _ => streamPayload
  parse := fun s =>
    if s = "\x7b\x7d" then some (.obj [])
    else if s = streamHead then some (tokenHead 1700000000 1700086400)
    else if s = socketHead then some (tokenHead 1700000000 1700014400)
    else some streamGrant.data

theorem streamCodec_digests : streamCodec.Digests := by
  intro secret data c hc
  have halphabet : "q83vEjRWeJASNFZ4kBI0VniQEjRWeJASNFZ4kBI0Vng".toList.all isBase64Url = true :=
    all_toList_ofList rfl
  exact List.all_eq_true.mp halphabet c hc

theorem streamCodec_reads :
    streamCodec.Reads (tokenHead 1700000000 1700086400) ∧
      streamCodec.Reads (tokenHead 1700000000 1700014400) ∧
        streamCodec.Reads streamGrant.data ∧ streamCodec.Reads (.obj []) :=
  ⟨rfl, rfl, rfl, rfl⟩

/-- The signing key the first signature creates. -/
theorem streamKey_created : ∃ key w₁,
    (AuthService.getSigningKey streamCodec.crypto streamCodec.crypto.defaultSigningKeyId).run {} =
      (.ok key, w₁) ∧ AuthService.isExpiredKey key (.finite (streamEnv.now / 1000 : Nat)) = false :=
  ⟨_, _, rfl, rfl⟩

/-- The stream's token is refused at the socket after a day, and not a moment before. -/
theorem streamToken_refused_iff :
    ∃ token w₁, (EventsService.generateToken streamCodec streamCls streamEnv).run {} =
        (.ok token, w₁) ∧ ∀ env' : Env,
      (¬ TokenService.legacyMigration.Accepts streamCodec env' token w₁ ↔
        1700086400000 < env'.now) := by
  obtain ⟨key, w₁, hget, hlive⟩ := streamKey_created
  have hgrant : streamCls.accessGrant = some streamGrant := rfl
  have hdeadline :
      1000 * (streamEnv.now / 1000 + TokenService.events.expiresInSeconds) = 1700086400000 := rfl
  obtain ⟨token, hissue⟩ := TokenService.events.generateToken_returns hgrant hget hlive
  refine ⟨token, w₁, hissue, fun env' => ?_⟩
  rw [← hdeadline]
  exact customToken_refused_iff streamCodec_digests (fun _ => rfl) [] [] .events hgrant hissue
    streamCodec_reads.1 streamCodec_reads.2.2.1

/-- It opens the socket as soon as it is made, and a token for the socket passes for an access
    grant at the stream. -/
theorem customTokens_crossOver :
    (∃ token w₁, (EventsService.generateToken streamCodec streamCls streamEnv).run {} =
        (.ok token, w₁) ∧
      ∃ w', (LegacyMigrationGateway.handleConnection streamCodec streamEnv (some token)).run w₁ =
        (.ok .accepted, w')) ∧
    ∃ token w₁, (LegacyMigrationService.getWsToken streamCodec streamEnv).run {} =
        (.ok token, w₁) ∧
      TokenService.events.Accepts streamCodec streamEnv token w₁ := by
  obtain ⟨key, w₁, hget, hlive⟩ := streamKey_created
  have hgrant : streamCls.accessGrant = some streamGrant := rfl
  have hheld : KeysHeld {} := fun _ _ hkey => nomatch hkey
  obtain ⟨stream, hstream⟩ := TokenService.events.generateToken_returns hgrant hget hlive
  obtain ⟨socket, hsocket⟩ := TokenService.legacyMigration.generateToken_returns hgrant hget hlive
  refine ⟨⟨stream, w₁, hstream, handleConnection_accepted_iff.mpr ?_⟩, socket, w₁, hsocket, ?_⟩
  · exact (TokenService.events.presented streamCodec_digests hheld [] hgrant streamEnv hstream
      streamCodec_reads.1 streamCodec_reads.2.2.1).mpr (by decide)
  · exact (TokenService.legacyMigration.presented streamCodec_digests hheld [] hgrant streamEnv
      hsocket streamCodec_reads.2.1 streamCodec_reads.2.2.2).mpr (by decide)

end ShieldApi
