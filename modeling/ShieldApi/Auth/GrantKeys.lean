import ShieldApi.Lib.Separators
import ShieldApi.Auth.AuthService

/-!
# Can two requests share a cached access grant?

The key of a cached grant is the user's id, the two headers and the intent, put between
fixed words: `access-grant:idpId:…|client:…|site:…|intent:…`. The headers are the caller's
own strings, they go in **as they are**, and a header that is not there is written `default`.
So a key can be read in more than one way: `default` may have been sent, and a header (or an
identity) that holds `|client:` or `|site:` moves the boundary between the parts.

`sharedKey_iff` says when neither happens: a key belongs to one identity and one context
precisely if both headers are there, neither is `default`, and no part holds the separator
that comes before or after it.
-/

set_option autoImplicit false

namespace ShieldApi

open Separator

/-! ## 1. The words between the parts of a key -/

def clientSep : Separator Char := ⟨'|', ['c', 'l', 'i', 'e', 'n', 't', ':'], by decide⟩

def siteSep : Separator Char := ⟨'|', ['s', 'i', 't', 'e', ':'], by decide⟩

def intentSep : Separator Char := ⟨'|', ['i', 'n', 't', 'e', 'n', 't', ':'], by decide⟩

theorem clientSep_word : "|client:".toList = clientSep.word := rfl

theorem siteSep_word : "|site:".toList = siteSep.word := rfl

theorem intentSep_word : "|intent:".toList = intentSep.word := rfl

/-- What stands in a key for a header. -/
def keyPart (header : Option String) : List Char := (header.getD "default").toList

/-- What stands in a key before the intent. -/
def keyBody (idpId : String) (ctx : AccessContext) : List Char :=
  idpId.toList ++ (clientSep.word ++ (keyPart ctx.requestedClientId ++
    (siteSep.word ++ keyPart ctx.requestedSiteId)))

theorem toList_cacheKey (idpId : String) (ctx : AccessContext) :
    (buildAccessGrantResponseCacheKey idpId ctx).toList =
      "access-grant:idpId:".toList ++ (keyBody idpId ctx ++
        (intentSep.word ++ (ctx.accessIntent.getD .user).text.toList)) := by
  unfold buildAccessGrantResponseCacheKey keyBody keyPart
  rw [← clientSep_word, ← siteSep_word, ← intentSep_word]
  generalize ctx.requestedClientId.getD "default" = client
  generalize ctx.requestedSiteId.getD "default" = site
  repeat rw [String.toList_append]
  repeat rw [List.append_assoc]

theorem not_in_intentText (intent : AccessIntent) : ¬ intentSep.In intent.text.toList := by
  intro h
  have hmem : '|' ∈ intent.text.toList := h.subset (List.mem_cons_self ..)
  revert hmem
  cases intent <;> decide

theorem text_toList_inj {i j : AccessIntent} (h : i.text.toList = j.text.toList) : i = j := by
  revert h
  cases i <;> cases j <;> decide

/-- The intent of a key can be read off; the rest of it is the body. -/
theorem cacheKey_eq_iff {idpId idpId' : String} {ctx ctx' : AccessContext} :
    buildAccessGrantResponseCacheKey idpId ctx = buildAccessGrantResponseCacheKey idpId' ctx' ↔
      keyBody idpId ctx = keyBody idpId' ctx' ∧
        ctx.accessIntent.getD .user = ctx'.accessIntent.getD .user := by
  rw [← String.toList_inj, toList_cacheKey, toList_cacheKey, List.append_cancel_left_eq]
  constructor
  · intro h
    rcases append_sep_append_eq_iff.mp h with ⟨hbody, hintent⟩ | ⟨z, -, hz⟩ | ⟨z, -, hz⟩
    · exact ⟨hbody, text_toList_inj hintent⟩
    · exact absurd (hz ▸ in_append intentSep z _) (not_in_intentText _)
    · exact absurd (hz ▸ in_append intentSep z _) (not_in_intentText _)
  · intro h
    rw [h.1, h.2]

/-! ## 2. The parts that keep their boundaries -/

/-- The text holds the separator. -/
def Holds (sep : Separator Char) (s : String) : Prop := sep.In s.toList

/-- **The key is read in one way.** -/
structure Delimited (idpId : String) (ctx : AccessContext) : Prop where
  idpId : ¬ Holds clientSep idpId
  client : ∃ clientId, ctx.requestedClientId = some clientId ∧ clientId ≠ "default" ∧
    ¬ Holds clientSep clientId ∧ ¬ Holds siteSep clientId
  site : ∃ siteId, ctx.requestedSiteId = some siteId ∧ siteId ≠ "default" ∧
    ¬ Holds siteSep siteId

/-- A header that is there and not `default` is what its part of the key says. -/
theorem eq_of_keyPart {s : String} {header : Option String} (hs : s ≠ "default")
    (h : s.toList = keyPart header) : header = some s := by
  rw [keyPart, String.toList_inj] at h
  cases header with
  | none => exact absurd h hs
  | some t => rw [h]; rfl

/-- The body of a delimited key has the parts of every context it is the body of. -/
theorem Delimited.keyBody_inj {idpId idpId' : String} {ctx ctx' : AccessContext}
    (h : Delimited idpId ctx) (hbody : keyBody idpId ctx = keyBody idpId' ctx') :
    idpId' = idpId ∧ ctx'.requestedClientId = ctx.requestedClientId ∧
      ctx'.requestedSiteId = ctx.requestedSiteId := by
  obtain ⟨hid, ⟨clientId, hclient, hcd, hcc, hcs⟩, siteId, hsite, hsd, hss⟩ := h
  unfold keyBody at hbody
  rw [hclient, hsite] at hbody ⊢
  rcases append_sep_append_eq_iff.mp hbody with ⟨hidp, hrest⟩ | ⟨z, -, hz⟩ | ⟨z, hz, -⟩
  · obtain ⟨hc, hs⟩ := append_inj hcs hss hrest
    exact ⟨(String.toList_inj.mp hidp).symm, eq_of_keyPart hcd hc, eq_of_keyPart hsd hs⟩
  · -- the other identity reaches past this one, so the client header holds `|client:`
    have hz' : keyPart (some clientId) ++ (siteSep.word ++ keyPart (some siteId)) =
        (z ++ (clientSep.word ++ keyPart ctx'.requestedClientId)) ++
          (siteSep.word ++ keyPart ctx'.requestedSiteId) := by
      rw [hz]
      simp only [List.append_assoc]
    obtain ⟨hc, -⟩ := append_inj hcs hss hz'
    exact absurd (show clientSep.In clientId.toList from hc ▸ in_append clientSep z _) hcc
  · exact absurd (show clientSep.In idpId.toList from hz ▸ in_append clientSep _ z) hid

/-! ## 3. Two requests -/

/-- A request with these organization headers. -/
def requestWith (clientId siteId : Option String) (intent : AccessIntent) : Request :=
  { headers := ("x-access-intent", .one intent.text) ::
      ((clientId.map fun c => ("x-client-id", HeaderValue.one c)).toList ++
        (siteId.map fun s => ("x-site-id", HeaderValue.one s)).toList) }

theorem extract_requestWith (clientId siteId : Option String) (intent : AccessIntent) :
    AuthService.extractOrganizationContextFromRequest (requestWith clientId siteId intent) =
      { requestedClientId := clientId, requestedSiteId := siteId, accessIntent := some intent } := by
  cases clientId <;> cases siteId <;> cases intent <;> rfl

/-- The key of the request's access grant is of no other identity and of no other context. -/
def OwnKey (user : StatelessUser) (request : Request) : Prop :=
  ∀ (user' : StatelessUser) (request' : Request),
    buildAccessGrantResponseCacheKey user'.idpId
        (AuthService.extractOrganizationContextFromRequest request') =
      buildAccessGrantResponseCacheKey user.idpId
        (AuthService.extractOrganizationContextFromRequest request) →
    user'.idpId = user.idpId ∧
      AuthService.extractOrganizationContextFromRequest request' =
        AuthService.extractOrganizationContextFromRequest request

section Reading

variable {user : StatelessUser} {request : Request}

/-- Every other way to read the body is a request that can be sent. -/
theorem OwnKey.keyBody_inj (h : OwnKey user request) {idpId : String}
    {clientId siteId : Option String}
    (hbody : keyBody idpId { requestedClientId := clientId, requestedSiteId := siteId } =
      keyBody user.idpId (AuthService.extractOrganizationContextFromRequest request)) :
    idpId = user.idpId ∧
      clientId =
        (AuthService.extractOrganizationContextFromRequest request).requestedClientId ∧
      siteId = (AuthService.extractOrganizationContextFromRequest request).requestedSiteId := by
  obtain ⟨hid, hctx⟩ := h { user with idpId }
    (requestWith clientId siteId (getAccessIntent request)) (by
      rw [extract_requestWith]
      exact cacheKey_eq_iff.mpr ⟨hbody, rfl⟩)
  rw [extract_requestWith] at hctx
  exact ⟨hid, by rw [← hctx], by rw [← hctx]⟩

theorem OwnKey.delimited (h : OwnKey user request) :
    Delimited user.idpId (AuthService.extractOrganizationContextFromRequest request) := by
  have hread := fun idpId clientId siteId => @OwnKey.keyBody_inj _ _ h idpId clientId siteId
  generalize AuthService.extractOrganizationContextFromRequest request = ctx at hread ⊢
  obtain ⟨clientId, siteId, intent⟩ := ctx
  refine ⟨fun hidp => ?_, ?_, ?_⟩
  · -- the identity is cut: what comes after goes to the client header
    obtain ⟨p, q, hpq⟩ := hidp.cut
    obtain ⟨hid, -⟩ := hread (String.ofList p)
      (some (String.ofList (q ++ (clientSep.word ++ keyPart clientId)))) siteId
      (by simp [keyBody, keyPart, hpq])
    rw [← hid, String.toList_ofList] at hpq
    exact ne_append_sep clientSep p q hpq
  · cases clientId with
    | none =>
      obtain ⟨-, hclient, -⟩ := hread user.idpId (some "default") siteId rfl
      exact absurd hclient (by simp)
    | some clientId =>
      refine ⟨clientId, rfl, fun hdef => ?_, fun hin => ?_, fun hin => ?_⟩
      · obtain ⟨-, hclient, -⟩ := hread user.idpId none siteId (by rw [hdef]; rfl)
        exact absurd hclient (by simp)
      · obtain ⟨p, q, hpq⟩ := hin.cut
        obtain ⟨hid, -⟩ := hread (String.ofList (user.idpId.toList ++ (clientSep.word ++ p)))
          (some (String.ofList q)) siteId (by simp [keyBody, keyPart, hpq])
        have hid := congrArg String.toList hid
        rw [String.toList_ofList] at hid
        exact ne_append_sep clientSep _ p hid.symm
      · obtain ⟨p, q, hpq⟩ := hin.cut
        obtain ⟨-, hclient, -⟩ := hread user.idpId (some (String.ofList p))
          (some (String.ofList (q ++ (siteSep.word ++ keyPart siteId))))
          (by simp [keyBody, keyPart, hpq])
        rw [← Option.some.inj hclient, String.toList_ofList] at hpq
        exact ne_append_sep siteSep p q hpq
  · cases siteId with
    | none =>
      obtain ⟨-, -, hsite⟩ := hread user.idpId clientId (some "default") rfl
      exact absurd hsite (by simp)
    | some siteId =>
      refine ⟨siteId, rfl, fun hdef => ?_, fun hin => ?_⟩
      · obtain ⟨-, -, hsite⟩ := hread user.idpId clientId none (by rw [hdef]; rfl)
        exact absurd hsite (by simp)
      · obtain ⟨p, q, hpq⟩ := hin.cut
        obtain ⟨-, -, hsite⟩ := hread user.idpId
          (some (String.ofList (keyPart clientId ++ (siteSep.word ++ p)))) (some (String.ofList q))
          (by simp [keyBody, keyPart, hpq])
        rw [← Option.some.inj hsite, String.toList_ofList] at hpq
        -- the suffix after the cut is shorter than the whole
        have hlen := congrArg List.length hpq
        simp only [Separator.word, List.length_append, List.length_cons] at hlen
        omega

/-- **When a cached grant is served for no other context:** the headers are both there and not
    `default`, and no part of the key holds the separator next to it. -/
theorem ownKey_iff :
    OwnKey user request ↔
      Delimited user.idpId (AuthService.extractOrganizationContextFromRequest request) := by
  refine ⟨OwnKey.delimited, fun h user' request' hkey => ?_⟩
  obtain ⟨hbody, hintent⟩ := cacheKey_eq_iff.mp hkey
  obtain ⟨hid, hclient, hsite⟩ := h.keyBody_inj hbody.symm
  refine ⟨hid, ?_⟩
  unfold AuthService.extractOrganizationContextFromRequest at hclient hsite hintent ⊢
  dsimp only [Option.getD_some] at hclient hsite hintent
  rw [hclient, hsite, hintent]

end Reading

/-- No organization header, and a client header that says `default`. -/
def plainRequest : Request := requestWith none none .user

def defaultRequest : Request := requestWith (some "default") none .user

/-- The two requests are told apart by the database: the first gets the user's primary grant,
    the second asks for a client the user has no row at. Their key is the same. -/
theorem defaultHeader_sharesKey :
    buildAccessGrantResponseCacheKey userP.idpId
          (AuthService.extractOrganizationContextFromRequest plainRequest) =
        buildAccessGrantResponseCacheKey userP.idpId
          (AuthService.extractOrganizationContextFromRequest defaultRequest) ∧
      (AuthService.extractOrganizationContextFromRequest plainRequest).requestedClientId ≠
        (AuthService.extractOrganizationContextFromRequest defaultRequest).requestedClientId ∧
      (∃ g, AuthService.getAccessGrantForUserFromDatabase {} {} userP
        (AuthService.extractOrganizationContextFromRequest plainRequest) twoSites =
          .ok (.granted g)) ∧
      ∃ message details, AuthService.getAccessGrantForUserFromDatabase {} {} userP
        (AuthService.extractOrganizationContextFromRequest defaultRequest) twoSites =
          .ok (.denied .accessGrantRequestDenied message details) := by
  unfold plainRequest defaultRequest
  rw [extract_requestWith, extract_requestWith]
  refine ⟨rfl, by decide, ⟨_, rfl⟩, ⟨_, _, rfl⟩⟩

end ShieldApi
