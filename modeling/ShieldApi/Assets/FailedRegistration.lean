import ShieldApi.Assets.TagTenant
import ShieldApi.Assets.TokenGate

/-!
# What a registration that fails leaves

A tag without a client or a site is in nobody's sight, so that `registerTag` gives it the caller's
with the policies off, and **then** lets the caller's own update take effect. These are two
queries and no transaction. **Is the tag as it was when the second one is refused?**

It is not: nothing undoes the assignment. `failsCleanly_iff` is when there is nothing to undo. An
assigned tag is in the caller's sight, whoever the caller is (`seesTag_assigned`), so that the
second query is refused for what the caller names and for nothing else: the site, the asset, or an
asset out of sight that holds the tag.
-/

set_option autoImplicit false

namespace ShieldApi

open Effect TagsService

/-! ## 1. The caller's own place -/

/-- Whatever the scope, the place of the context is in sight. -/
theorem sees_context {px : PrimaryExtension} {context : RlsContext} {rls : Settings}
    (hcontext : px.rlsContext = some context) (hrls : px.settings = .ok rls) :
    rls.shouldBypassRls = true ∨
      rls.validateClient context.clientId = true ∧ rls.validateSite context.siteId = true := by
  unfold PrimaryExtension.settings buildRLSContextStatements at hrls
  rw [hcontext] at hrls
  cases hbypass : px.bypassRLS with
  | true =>
    rw [hbypass] at hrls
    obtain rfl := Except.ok.inj hrls
    exact .inl rfl
  | false =>
    rw [hbypass] at hrls
    obtain rfl := Except.ok.inj hrls
    refine .inr ⟨?_, ?_⟩
    · simp [Settings.validateClient, Settings.current, List.lookup_cons]
    · obtain ⟨personId, clientId, siteId, ids, idsStr, scope⟩ := context
      cases scope <;>
        simp [Settings.validateSite, Settings.current, List.lookup_cons, RoleScope.text, truthy]

section Place

variable {px : PrimaryExtension} {context : RlsContext} {rls : Settings}

theorem seesTag_assigned (hcontext : px.rlsContext = some context) (hrls : px.settings = .ok rls)
    (tag : Tag) : rls.seesTag (tag.setPlace (some context.clientId) (some context.siteId)) = true := by
  rcases sees_context hcontext hrls with hbypass | ⟨hclient, hsite⟩
  · simp [Settings.seesTag, hbypass]
  · simp [Settings.seesTag, Tag.setPlace, hclient, hsite]

/-- And so is every site the caller may connect. -/
theorem seesTag_connected (hcontext : px.rlsContext = some context) (hrls : px.settings = .ok rls)
    {dto : RegisterTagDto} {w : AssetWorld} (hconnect : canConnect rls none dto.site w = true)
    (tag : Tag) : rls.seesTag
      ((tag.setPlace (some context.clientId) (some context.siteId)).updated none dto) = true := by
  cases hsite : dto.site with
  | none =>
    have h := seesTag_assigned hcontext hrls tag
    simpa [Tag.updated, Tag.setPlace, hsite] using h
  | some siteId =>
    rcases sees_context hcontext hrls with hbypass | ⟨hclient, -⟩
    · simp [Settings.seesTag, hbypass]
    · simp only [canConnect, hsite, Option.all_none, Option.all_some, Bool.true_and] at hconnect
      obtain ⟨site, hfind, hsees⟩ := (Option.any_eq_true _ _).mp hconnect
      obtain ⟨-, rfl⟩ := Table.find?_eq_some.mp hfind
      unfold Settings.seesSite at hsees
      simp [Settings.seesTag, Tag.updated, Tag.setPlace, hsite, hclient]
      grind

end Place

/-! ## 2. What is left of the tag -/

/-- The tag is as it was, and so are the assets that hold it. -/
structure TagKept (tag : Tag) (w w' : AssetWorld) : Prop where
  row : tag ∈ w'.tags
  holders : ∀ a, a.tagId = some tag.id → (a ∈ w'.assets ↔ a ∈ w.assets)

theorem tagKept_refl {tag : Tag} {w : AssetWorld} (htag : tag ∈ w.tags) : TagKept tag w w :=
  ⟨htag, fun _ _ => Iff.rfl⟩

/-- If the call throws, the token's tag is as it was. -/
def FailsCleanly (crypto : TokenCrypto) (cls : Cls) (env : Env) (token : String)
    (dto : RegisterTagDto) (w : AssetWorld) : Prop :=
  ∀ e, ((registerTag crypto cls env token dto).run w).1 = .error e →
    ∀ tag ∈ w.tags, (parseInspectionToken crypto token).tagExternalId = some tag.externalId →
      TagKept tag w ((registerTag crypto cls env token dto).after w)

/-- The call assigns the tag to the place of its context. -/
structure Assigns (crypto : TokenCrypto) (cls : Cls) (env : Env) (token : String)
    (dto : RegisterTagDto) (w : AssetWorld) (tag : Tag) (context : RlsContext) (rls : Settings) :
    Prop where
  caller : ∃ g, cls.accessGrant = some g ∧
    (if actingAsSystemAdmin cls g then dto.client else none) = none
  found : ∃ externalId, (parseInspectionToken crypto token).tagExternalId = some externalId ∧
    w.tags.rows.find? (·.externalId = externalId) = some tag
  unassigned : tag.clientId = none ∨ tag.siteId = none
  known : (buildPrimaryExtension cls env.allowedSiteIdsForSite {}).rlsContext = some context
  settings : (buildPrimaryExtension cls env.allowedSiteIdsForSite {}).settings = .ok rls
  refs : AssignRefs w context.clientId context.siteId

/-- The update is allowed what the caller names: the site is in sight, and so are the asset and
    every asset that holds the tag. -/
structure UpdateAllowed (rls : Settings) (tag : Tag) (dto : RegisterTagDto) (w : AssetWorld) :
    Prop where
  site : canConnect rls none dto.site w = true
  asset : ConnectGoes rls tag.id dto.asset w

section Registration

variable {crypto : TokenCrypto} {cls : Cls} {env : Env} {token : String} {dto : RegisterTagDto}
  {w : AssetWorld} {tag : Tag} {context : RlsContext} {rls : Settings}

/-- The update of a tag that was just assigned. -/
theorem updateTag_assigned_goes (htag : w.tags.find? tag.id = some tag)
    (hcontext : (buildPrimaryExtension cls env.allowedSiteIdsForSite {}).rlsContext = some context)
    (hrls : (buildPrimaryExtension cls env.allowedSiteIdsForSite {}).settings = .ok rls) :
    (∃ tag' w', (updateTag rls tag.id none dto).run
        (assignedWorld tag context.clientId context.siteId w) = (.ok tag', w')) ↔
      UpdateAllowed rls tag dto w := by
  have hfind : (assignedWorld tag context.clientId context.siteId w).tags.find?
      (tag.setPlace (some context.clientId) (some context.siteId)).id = _ :=
    find?_assignedWorld context.clientId context.siteId htag
  constructor
  · rintro ⟨tag', w', h⟩
    obtain ⟨-, hconnect, -, hgo, -, -⟩ := (updateTag_eq_ok hfind).mp h
    exact ⟨hconnect, connectGoes_withTags.mp hgo⟩
  · intro h
    exact ⟨_, _, (updateTag_eq_ok hfind).mpr ⟨seesTag_assigned hcontext hrls tag, h.site,
      seesTag_connected hcontext hrls h.site tag, connectGoes_withTags.mpr h.asset, rfl, rfl⟩⟩

theorem Assigns.find? (h : Assigns crypto cls env token dto w tag context rls) :
    w.tags.find? tag.id = some tag := by
  obtain ⟨externalId, -, hfound⟩ := h.found
  exact tag_of_find hfound

/-- A call that assigns the tag is the update of the assigned tag. -/
theorem Assigns.run (h : Assigns crypto cls env token dto w tag context rls) :
    (registerTag crypto cls env token dto).run w =
      (updateTag rls tag.id none dto).run
        (assignedWorld tag context.clientId context.siteId w) := by
  obtain ⟨g, hg, hclient⟩ := h.caller
  obtain ⟨externalId, hid, hfound⟩ := h.found
  have hassign := assignTag_run context.clientId context.siteId h.find?
  rw [if_pos (Bool.and_eq_true_iff.mpr h.refs)] at hassign
  rw [registerTag_nonAdmin hg hclient, run_bind_ok (registerLookup_run hid h.known h.settings),
    hfound]
  simp only [if_pos h.unassigned]
  exact run_bind_ok hassign

theorem atomic_updateTag (client : Option String) (id : String) :
    (updateTag rls id client dto).Atomic :=
  atomic_attempt _

theorem atomic_upsertAsSystemAdmin (t : InspectionToken) (client : String) :
    (upsertAsSystemAdmin env t client dto).Atomic := by
  unfold upsertAsSystemAdmin
  refine ((readOnly_orRaise _ _).bind fun _ => readOnly_query _).bind_atomic fun found => ?_
  cases found with
  | some tag => exact atomic_updateTag _ _
  | none =>
    exact (readOnly_query _).bind_atomic fun _ => (readOnly_raiseIf _ _).bind_atomic fun _ =>
      atomic_attempt _

/-- A lookup that goes through. -/
theorem registerLookup_eq_ok {t : InspectionToken} {begun : Registration × RegisterPhase}
    {w' : AssetWorld} (h : (registerLookup cls env t dto).run w = (.ok begun, w')) :
    ∃ externalId context rls, t.tagExternalId = some externalId ∧
      (buildPrimaryExtension cls env.allowedSiteIdsForSite {}).rlsContext = some context ∧
      (buildPrimaryExtension cls env.allowedSiteIdsForSite {}).settings = .ok rls ∧
      begun = ({ rls, context, externalId, serialNumber := t.serialNumber, dto },
        match w.tags.rows.find? (·.externalId = externalId) with
        | some tag => if tag.clientId = none ∨ tag.siteId = none then .assign tag else .update tag
        | none => .create) := by
  have hrun := h
  unfold registerLookup findTagByExternalId at h
  obtain ⟨found, w₁, hfound, h⟩ := bind_eq_ok.mp h
  obtain ⟨externalId, w₂, hid, -⟩ := bind_eq_ok.mp hfound
  obtain ⟨context, w₃, hcontext, h⟩ := bind_eq_ok.mp h
  obtain ⟨rls, w₄, hrls, -⟩ := bind_eq_ok.mp h
  have hid := (orRaise_eq_ok.mp hid).1
  have hcontext := (orRaise_eq_ok.mp hcontext).1
  have hrls := prismaBuild_eq_ok hrls
  refine ⟨externalId, context, rls, hid, hcontext, hrls, ?_⟩
  rw [registerLookup_run hid hcontext hrls] at hrun
  exact (Except.ok.inj (Prod.mk.inj hrun).1).symm

/-- Everywhere else a call that throws has written nothing. -/
theorem registerTag_unwritten
    (h : ∀ tag context rls, ¬ Assigns crypto cls env token dto w tag context rls)
    {e : ApiError} {w' : AssetWorld}
    (hrun : (registerTag crypto cls env token dto).run w = (.error e, w')) : w' = w := by
  cases hg : cls.accessGrant with
  | none =>
    unfold registerTag registerBegin Cls.requireAccessGrant at hrun
    rw [hg] at hrun
    exact (Prod.mk.inj hrun).2.symm
  | some g =>
    cases hclient : (if actingAsSystemAdmin cls g then dto.client else none) with
    | some client =>
      rw [registerTag_admin hg hclient] at hrun
      exact atomic_upsertAsSystemAdmin _ _ w e w' hrun
    | none =>
      rw [registerTag_nonAdmin hg hclient] at hrun
      have hread := readOnly_registerLookup cls env (parseInspectionToken crypto token) dto w
      rcases hlookup : (registerLookup cls env (parseInspectionToken crypto token) dto).run w
        with ⟨begun, w₁⟩
      rw [after_of_run hlookup] at hread
      subst hread
      cases begun with
      | error e' =>
        rw [run_bind_error hlookup] at hrun
        exact (Prod.mk.inj hrun).2.symm
      | ok begun =>
        rw [run_bind_ok hlookup] at hrun
        obtain ⟨externalId, context, rls, hid, hcontext, hrls, rfl⟩ := registerLookup_eq_ok hlookup
        cases hfound : w₁.tags.rows.find? (·.externalId = externalId) with
        | none =>
          rw [hfound] at hrun
          exact atomic_attempt _ w₁ e w' hrun
        | some tag =>
          rw [hfound] at hrun
          by_cases hneeds : tag.clientId = none ∨ tag.siteId = none
          · simp only [if_pos hneeds] at hrun
            have hrefs : ¬ AssignRefs w₁ context.clientId context.siteId := fun hrefs =>
              h tag context rls ⟨⟨g, hg, hclient⟩, ⟨externalId, hid, hfound⟩, hneeds, hcontext,
                hrls, hrefs⟩
            have hassign := assignTag_run context.clientId context.siteId (tag_of_find hfound)
            rw [if_neg (mt Bool.and_eq_true_iff.mp hrefs)] at hassign
            exact (Prod.mk.inj ((run_bind_error hassign).symm.trans hrun)).2.symm
          · simp only [if_neg hneeds] at hrun
            exact atomic_updateTag _ _ w₁ e w' hrun

/-- **A failed registration leaves the tag as it was exactly where it had not assigned it, or is
    none.** -/
theorem failsCleanly_iff : FailsCleanly crypto cls env token dto w ↔
    ∀ tag context rls, Assigns crypto cls env token dto w tag context rls →
      UpdateAllowed rls tag dto w := by
  constructor
  · intro h tag context rls hassigns
    rw [← updateTag_assigned_goes hassigns.find? hassigns.known hassigns.settings]
    rcases hupdate : (updateTag rls tag.id none dto).run
      (assignedWorld tag context.clientId context.siteId w) with ⟨res, w'⟩
    cases res with
    | ok tag' => exact ⟨tag', w', rfl⟩
    | error e =>
      -- the assignment stands, and the tag has a client and a site
      exfalso
      obtain rfl := atomic_updateTag _ _ _ e w' hupdate
      have hrun := hassigns.run.trans hupdate
      obtain ⟨externalId, hid, hfound⟩ := hassigns.found
      have hexternal : externalId = tag.externalId := by
        have := List.find?_some hfound
        exact (of_decide_eq_true this).symm
      have hkept := h e (congrArg Prod.fst hrun) tag (List.mem_of_find?_eq_some hfound)
        (hexternal ▸ hid)
      rw [after_of_run hrun] at hkept
      have hassigned := find?_assignedWorld context.clientId context.siteId hassigns.find?
      rw [Table.find?_eq_some.mpr ⟨hkept.row, rfl⟩] at hassigned
      have hsame := Option.some.inj hassigned
      rcases hassigns.unassigned with hclient | hsite
      · exact absurd (hclient.symm.trans (congrArg Tag.clientId hsame)) (by simp [Tag.setPlace])
      · exact absurd (hsite.symm.trans (congrArg Tag.siteId hsame)) (by simp [Tag.setPlace])
  · intro h e he tag htag hid
    by_cases hassigns : ∃ tag context rls, Assigns crypto cls env token dto w tag context rls
    · obtain ⟨tag, context, rls, hassigns⟩ := hassigns
      obtain ⟨tag', w', hgoes⟩ := (updateTag_assigned_goes hassigns.find? hassigns.known
        hassigns.settings).mpr (h tag context rls hassigns)
      rw [hassigns.run, hgoes] at he
      cases he
    · have hnone : ∀ tag context rls, ¬ Assigns crypto cls env token dto w tag context rls :=
        fun tag context rls hassigns' => hassigns ⟨tag, context, rls, hassigns'⟩
      rcases hrun : (registerTag crypto cls env token dto).run w with ⟨res, w'⟩
      rw [hrun] at he
      obtain rfl : res = .error e := he
      obtain rfl := registerTag_unwritten hnone hrun
      rw [after_of_run hrun]
      exact tagKept_refl htag

end Registration

/-! ## 3. An asset that is not there -/

/-- Carol names an asset that is not there. The call fails, and the tag is hers. -/
theorem missingAsset_assigned :
    (∃ e, ((registerTag tagCrypto carolAtBolt gateEnv "U04tMS50YWctMQ"
      { asset := "nowhere" }).run unregisteredTag).1 = .error e) ∧
    ((registerTag tagCrypto carolAtBolt gateEnv "U04tMS50YWctMQ"
      { asset := "nowhere" }).after unregisteredTag).tags.rows =
        [{ id := "t", externalId := "tag-1", serialNumber := "SN-1",
           clientId := some "bolt", siteId := some "bolt-1" }] ∧
    ¬ FailsCleanly tagCrypto carolAtBolt gateEnv "U04tMS50YWctMQ" { asset := "nowhere" }
      unregisteredTag := by
  refine ⟨⟨.recordNotFound, rfl⟩, by decide, fun h => ?_⟩
  have hkept := h .recordNotFound rfl { id := "t", externalId := "tag-1", serialNumber := "SN-1" }
    (List.mem_singleton_self _) (by decide)
  exact absurd hkept.row (by decide)

end ShieldApi
