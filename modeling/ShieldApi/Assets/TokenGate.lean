import ShieldApi.Assets.Inspections
import ShieldApi.Assets.Tags

/-!
# Do the token-gated operations honour the token?

Three operations are given an inspection token and nothing else that says who is asking about
which tag: `registerTag` writes, `checkRegistration` and `getInspectionHistory` answer. **Do they
do so only for a token that `validateInspectionToken` would call valid?**

None of them looks at a verdict. Two split the token and believe what they find, the third
validates it and takes the tag's id out of the result whatever its verdict. `tokenGate_iff` says
what that leaves: a token that is not valid is honoured exactly where there is something to
write or to show.
-/

set_option autoImplicit false

namespace ShieldApi

open Effect TagsService InspectionsPublicService

/-- `validateInspectionToken` would report the token as valid. -/
def ValidToken (crypto : TokenCrypto) (env : Env) (token : String) (w : AssetWorld) : Prop :=
  ∃ v, Accepts crypto env token w v

/-! ## 1. When a registration writes

One predicate for each query of `registerTag`: it goes through, and what it writes is not there
already. -/

/-- The asset is in sight, and so is every asset that holds the tag. -/
structure ConnectGoes (rls : Settings) (tagId assetId : String) (w : AssetWorld) : Prop where
  asset : ((w.assets.find? assetId).any fun a => rls.seesPlace a.clientId a.siteId) = true
  holders : ∀ a ∈ w.assets, a.tagId = some tagId → rls.seesPlace a.clientId a.siteId = true

/-- The asset holds the tag, and no other does. -/
def Connected (tagId assetId : String) (w : AssetWorld) : Prop :=
  ∀ a ∈ w.assets, a.tagId = some tagId ↔ a.id = assetId

/-- The place an update leaves a tag at. -/
def Tag.updated (client : Option String) (dto : RegisterTagDto) (t : Tag) : Tag :=
  t.setPlace (client.or t.clientId) (dto.site.or t.siteId)

structure UpdateWrites (rls : Settings) (tag : Tag) (client : Option String)
    (dto : RegisterTagDto) (w : AssetWorld) : Prop where
  sees : rls.seesTag tag = true
  connects : canConnect rls client dto.site w = true
  seesUpdated : rls.seesTag (tag.updated client dto) = true
  asset : ConnectGoes rls tag.id dto.asset w
  changes : ¬ (tag.updated client dto = tag ∧ Connected tag.id dto.asset w)

structure CreateWrites (rls : Settings) (tag : Tag) (assetId : String) (w : AssetWorld) :
    Prop where
  externalId : ∀ t ∈ w.tags, t.externalId ≠ tag.externalId
  id : w.tags.find? tag.id = none
  client : (tag.clientId.all fun c => (w.core.clients.find? c).isSome) = true
  site : (tag.siteId.all fun s => (w.core.sites.find? s).isSome) = true
  sees : rls.seesTag tag = true
  asset : ConnectGoes rls tag.id assetId w

theorem Asset.id_setTag_none (asset : Asset) : (asset.setTag none).id = asset.id := rfl

theorem Asset.id_setTag_some (tagId : String) (asset : Asset) :
    (asset.setTag (some tagId)).id = asset.id := rfl

/-- The assets after a connection. -/
def connectedAssets (rls : Settings) (tagId assetId : String) (w : AssetWorld) :
    Table Asset String Asset.id :=
  (w.assets.updateMany (fun a => a.tagId = some tagId && rls.seesPlace a.clientId a.siteId)
    (.setTag none) Asset.id_setTag_none).updateMany (·.id = assetId) (.setTag (some tagId))
    (Asset.id_setTag_some tagId)

theorem connectAsset_of_goes {rls : Settings} {tagId assetId : String} {w : AssetWorld}
    (h : ConnectGoes rls tagId assetId w) :
    connectAsset rls tagId assetId w = .ok (w.withAssets (connectedAssets rls tagId assetId w)) := by
  obtain ⟨a, ha, hsees⟩ := (Option.any_eq_true _ _).mp h.asset
  unfold connectAsset
  rw [ha, Option.filter_some, if_pos hsees]
  simp only
  rw [if_neg]
  · rfl
  · rw [List.any_eq_true]
    rintro ⟨b, hb, htag⟩
    obtain ⟨c, hc, rfl⟩ := Table.mem_updateMany.mp hb
    by_cases hheld : c.tagId = some tagId
    · simp [hheld, h.holders c hc hheld, Asset.setTag] at htag
    · simp [hheld] at htag

theorem connectAsset_goes {rls : Settings} {tagId assetId : String} {w w' : AssetWorld}
    (h : connectAsset rls tagId assetId w = .ok w') : ConnectGoes rls tagId assetId w := by
  unfold connectAsset at h
  split at h
  · exact absurd h (by simp)
  · rename_i a hfound
    obtain ⟨hfind, hsees⟩ := Option.filter_eq_some_iff.mp hfound
    simp only at h
    split at h
    · exact absurd h (by simp)
    · rename_i hnone
      refine ⟨by rw [hfind]; exact hsees, fun b hb htag => ?_⟩
      by_contra hout
      refine hnone (List.any_eq_true.mpr ⟨b, Table.mem_updateMany.mpr ⟨b, hb, ?_⟩, ?_⟩)
      · simp [hout]
      · simp [htag]

/-- A connection that goes through leaves the assets as they are when the asset has the tag. -/
theorem connectedAssets_eq_self {rls : Settings} {tagId assetId : String} {w : AssetWorld}
    (h : ConnectGoes rls tagId assetId w) :
    connectedAssets rls tagId assetId w = w.assets ↔ Connected tagId assetId w := by
  rw [Table.eq_iff_of_rows_eq_map (by
    unfold connectedAssets Table.updateMany
    exact List.map_map)]
  apply forall₂_congr
  intro a ha
  have hsees := h.holders a ha
  obtain ⟨id, tag, site, client⟩ := a
  by_cases htag : tag = some tagId
  · have hsees := hsees htag
    by_cases hid : id = assetId <;> simp [htag, hid, hsees, Asset.setTag]
  · by_cases hid : id = assetId <;> simp [htag, hid, Asset.setTag, Ne.symm htag]

/-- The store after an update of a tag. -/
def updatedWorld (rls : Settings) (tag : Tag) (client : Option String) (dto : RegisterTagDto)
    (w : AssetWorld) : AssetWorld :=
  (w.withTags (w.tags.updateMany (·.id = tag.id) (.setPlace (tag.updated client dto).clientId
    (tag.updated client dto).siteId) (Tag.id_setPlace _ _))).withAssets
      (connectedAssets rls tag.id dto.asset w)

section Queries

variable {rls : Settings} {tag : Tag} {client : Option String} {dto : RegisterTagDto}
  {w : AssetWorld}

theorem connectGoes_withTags {tagId assetId : String} {t : Table Tag String Tag.id} :
    ConnectGoes rls tagId assetId (w.withTags t) ↔ ConnectGoes rls tagId assetId w :=
  ⟨fun h => ⟨h.asset, h.holders⟩, fun h => ⟨h.asset, h.holders⟩⟩

theorem updateTag_eq_ok {tag' : Tag} {w' : AssetWorld} (htag : w.tags.find? tag.id = some tag) :
    (updateTag rls tag.id client dto).run w = (.ok tag', w') ↔
      rls.seesTag tag = true ∧ canConnect rls client dto.site w = true ∧
        rls.seesTag (tag.updated client dto) = true ∧ ConnectGoes rls tag.id dto.asset w ∧
        tag' = tag.updated client dto ∧ w' = updatedWorld rls tag client dto w := by
  unfold updateTag
  rw [attempt_eq_ok, htag]
  by_cases hsees : rls.seesTag tag = true
  case neg => simp [hsees, Option.filter]
  rw [Option.filter_some, if_pos hsees]
  simp only [hsees, true_and]
  by_cases hconnect : canConnect rls client dto.site w = true
  case neg => simp [hconnect]
  rw [if_pos hconnect]
  simp only [hconnect, true_and]
  show (if rls.seesTag (tag.updated client dto) = true then
    (connectAsset rls tag.id dto.asset (w.withTags (w.tags.updateMany (·.id = tag.id)
      (.setPlace (tag.updated client dto).clientId (tag.updated client dto).siteId)
      (Tag.id_setPlace _ _)))).map (tag.updated client dto, ·)
    else .error (.rowLevelSecurity "Tag")) = _ ↔ _
  by_cases hupdated : rls.seesTag (tag.updated client dto) = true
  case neg => simp [hupdated]
  rw [if_pos hupdated]
  simp only [hupdated, true_and]
  constructor
  · intro h
    cases hconn : connectAsset rls tag.id dto.asset (w.withTags (w.tags.updateMany (·.id = tag.id)
        (.setPlace (tag.updated client dto).clientId (tag.updated client dto).siteId)
        (Tag.id_setPlace _ _))) with
    | error e =>
      rw [hconn] at h
      exact absurd h (by simp [Except.map])
    | ok w₁ =>
      have hgo := connectAsset_goes hconn
      rw [hconn] at h
      obtain ⟨rfl, rfl⟩ := Prod.mk.inj (Except.ok.inj h)
      rw [connectAsset_of_goes hgo] at hconn
      exact ⟨connectGoes_withTags.mp hgo, rfl, (Except.ok.inj hconn).symm⟩
  · intro h
    obtain ⟨hgo, htag', hw'⟩ := h
    rw [connectAsset_of_goes (connectGoes_withTags.mpr hgo), htag', hw']
    rfl

/-- An update of a tag changes the store exactly when it writes something. -/
theorem updateTag_changes (htag : w.tags.find? tag.id = some tag) :
    (updateTag rls tag.id client dto).after w ≠ w ↔ UpdateWrites rls tag client dto w := by
  have hsame : ConnectGoes rls tag.id dto.asset w → (updatedWorld rls tag client dto w = w ↔
      tag.updated client dto = tag ∧ Connected tag.id dto.asset w) := by
    intro hgo
    rw [← connectedAssets_eq_self hgo]
    have htags : w.tags.updateMany (·.id = tag.id) (.setPlace (tag.updated client dto).clientId
        (tag.updated client dto).siteId) (Tag.id_setPlace _ _) = w.tags ↔
        tag.updated client dto = tag := by
      rw [Table.updateMany_eq_self]
      constructor
      · intro h
        exact h tag (Table.find?_eq_some.mp htag).1 (by simp)
      · intro h t ht hid
        rw [Table.eq_of_key_eq ht (Table.find?_eq_some.mp htag).1 (by simpa using hid)]
        exact h
    rw [← htags]
    constructor
    · intro h
      exact ⟨congrArg AssetWorld.tags h, congrArg AssetWorld.assets h⟩
    · intro h
      obtain ⟨ht, ha⟩ := h
      unfold updatedWorld
      rw [ht, ha]
      rfl
  constructor
  · intro hne
    rcases (atomic_attempt _).cases w with h | ⟨tag', h⟩
    · exact absurd h hne
    · obtain ⟨hsees, hconnect, hupdated, hgo, -, hw⟩ := (updateTag_eq_ok htag).mp h
      exact ⟨hsees, hconnect, hupdated, hgo, fun hno => hne (hw.trans ((hsame hgo).mpr hno))⟩
  · intro h heq
    have hrun := (updateTag_eq_ok htag).mpr
      ⟨h.sees, h.connects, h.seesUpdated, h.asset, rfl, rfl⟩
    rw [after_of_run hrun] at heq
    exact h.changes ((hsame h.asset).mp heq)

theorem createTag_goes {assetId : String} {tag' : Tag} {w' : AssetWorld}
    (h : (createTag rls tag assetId).run w = (.ok tag', w')) :
    CreateWrites rls tag assetId w := by
  unfold createTag at h
  rw [attempt_eq_ok] at h
  split at h
  · exact absurd h (by simp)
  rename_i hexternal
  split at h
  · exact absurd h (by simp)
  rename_i t ht
  split at h
  case isFalse => exact absurd h (by simp)
  rename_i hrefs
  split at h
  case isFalse => exact absurd h (by simp)
  rename_i hsees
  cases hconn : connectAsset rls tag.id assetId (w.withTags t) with
  | error e =>
    rw [hconn] at h
    exact absurd h (by simp [Except.map])
  | ok w₁ =>
    obtain ⟨hclient, hsite⟩ := Bool.and_eq_true_iff.mp hrefs
    refine ⟨fun t' ht' he => hexternal ?_, ?_, hclient, hsite, hsees,
      connectGoes_withTags.mp (connectAsset_goes hconn)⟩
    · exact List.any_eq_true.mpr ⟨t', ht', by simpa using he⟩
    · exact Table.insert?_isSome.mp (by rw [ht]; rfl)

/-- A creation changes the store exactly when it goes through. -/
theorem createTag_changes {assetId : String} :
    (createTag rls tag assetId).after w ≠ w ↔ CreateWrites rls tag assetId w := by
  constructor
  · intro hne
    rcases (atomic_attempt _).cases w with h | ⟨tag', h⟩
    · exact absurd h hne
    · exact createTag_goes h
  · intro h heq
    obtain ⟨t, ht⟩ := Option.isSome_iff_exists.mp (Table.insert?_isSome.mpr h.id)
    have hexternal : ¬ (w.tags.rows.any (·.externalId = tag.externalId)) = true := by
      rw [List.any_eq_true]
      intro h
      obtain ⟨t', ht', he⟩ := h
      exact h.externalId t' ht' (by simpa using he)
    have hgo : ConnectGoes rls tag.id assetId (w.withTags t) := connectGoes_withTags.mpr h.asset
    have hrun : (createTag rls tag assetId).run w =
        (.ok tag, (w.withTags t).withAssets (connectedAssets rls tag.id assetId (w.withTags t))) := by
      unfold createTag
      rw [attempt_eq_ok, if_neg hexternal, ht]
      simp only
      rw [if_pos (Bool.and_eq_true_iff.mpr ⟨h.client, h.site⟩), if_pos h.sees,
        connectAsset_of_goes hgo]
      rfl
    rw [after_of_run hrun] at heq
    have htags : t = w.tags := congrArg AssetWorld.tags heq
    have hmem : tag ∈ t := (Table.mem_insert? ht).mpr (.inr rfl)
    rw [htags] at hmem
    exact Table.find?_eq_none.mp h.id tag hmem rfl

theorem Tag.id_setPlace_some (clientId siteId : String) (tag : Tag) :
    (tag.setPlace (some clientId) (some siteId)).id = tag.id := rfl

/-- The store after an assignment. -/
def assignedWorld (tag : Tag) (clientId siteId : String) (w : AssetWorld) : AssetWorld :=
  w.withTags (w.tags.updateMany (·.id = tag.id) (.setPlace (some clientId) (some siteId))
    (Tag.id_setPlace_some clientId siteId))

theorem assignTag_run (clientId siteId : String) (htag : w.tags.find? tag.id = some tag) :
    (assignTag tag.id clientId siteId).run w =
      if (w.core.clients.find? clientId).isSome && (w.core.sites.find? siteId).isSome then
        (.ok (), assignedWorld tag clientId siteId w)
      else (.error .foreignKeyConstraint, w) := by
  by_cases hrefs : ((w.core.clients.find? clientId).isSome &&
      (w.core.sites.find? siteId).isSome) = true
  · simp only [assignTag, attempt, Effect.run, htag, Option.isNone_some, Bool.false_eq_true,
      if_false, hrefs, if_true]
    rfl
  · simp only [assignTag, attempt, Effect.run, htag, Option.isNone_some, Bool.false_eq_true,
      if_false, hrefs]

theorem find?_assignedWorld (clientId siteId : String) (htag : w.tags.find? tag.id = some tag) :
    (assignedWorld tag clientId siteId w).tags.find? tag.id =
      some (tag.setPlace (some clientId) (some siteId)) := by
  unfold assignedWorld
  rw [AssetWorld.withTags_tags, Table.find?_updateMany, htag]
  simp

theorem find?_updatedWorld (htag : w.tags.find? tag.id = some tag) :
    (updatedWorld rls tag client dto w).tags.find? tag.id =
      some (tag.setPlace (tag.updated client dto).clientId (tag.updated client dto).siteId) := by
  unfold updatedWorld
  rw [AssetWorld.withAssets_tags, AssetWorld.withTags_tags, Table.find?_updateMany, htag]
  simp

/-- A tag that is assigned because it had no client or no site has both in the end. -/
theorem assign_update_changes {clientId siteId : String}
    (htag : w.tags.find? tag.id = some tag) (hnone : tag.clientId = none ∨ tag.siteId = none) :
    (assignTag tag.id clientId siteId >>= fun _ => updateTag rls tag.id none dto).after w ≠ w ↔
      AssignRefs w clientId siteId := by
  have hassign := assignTag_run clientId siteId htag
  by_cases hrefs : AssignRefs w clientId siteId
  · refine iff_of_true (fun heq => ?_) hrefs
    rw [if_pos (Bool.and_eq_true_iff.mpr hrefs)] at hassign
    rw [Effect.after, run_bind_ok hassign] at heq
    have hboth : ∀ u : AssetWorld, (∃ c s, u.tags.find? tag.id =
        some (tag.setPlace (some c) (some s))) → u ≠ w := by
      intro u h huw
      obtain ⟨c, s, hu⟩ := h
      rw [huw, htag] at hu
      have hplace := Option.some.inj hu
      rcases hnone with hclient | hsite
      · exact absurd (hclient.symm.trans (congrArg Tag.clientId hplace)) (by simp [Tag.setPlace])
      · exact absurd (hsite.symm.trans (congrArg Tag.siteId hplace)) (by simp [Tag.setPlace])
    have hfind : (assignedWorld tag clientId siteId w).tags.find?
        (tag.setPlace (some clientId) (some siteId)).id = _ :=
      find?_assignedWorld clientId siteId htag
    have hatomic : (updateTag rls tag.id none dto).Atomic := atomic_attempt _
    rcases hatomic.cases (assignedWorld tag clientId siteId w) with h | ⟨tag', h⟩
    · exact hboth _ ⟨clientId, siteId, hfind⟩ (h.symm.trans heq)
    · obtain ⟨-, -, -, -, -, hw⟩ := (updateTag_eq_ok hfind).mp h
      refine hboth _ ⟨clientId, dto.site.getD siteId, ?_⟩ (hw.symm.trans heq)
      refine (find?_updatedWorld hfind).trans ?_
      unfold Tag.updated
      cases dto.site <;> rfl
  · refine iff_of_false (fun hne => hne ?_) hrefs
    rw [if_neg (fun h => hrefs (Bool.and_eq_true_iff.mp h))] at hassign
    exact after_of_run (run_bind_error hassign)

end Queries

/-! ## 2. The three operations -/

/-- What `registerTag` would write on the strength of a token's external id. -/
def RegistrationWrites (crypto : TokenCrypto) (cls : Cls) (env : Env) (token : String)
    (dto : RegisterTagDto) (w : AssetWorld) : Prop :=
  ∃ g externalId, cls.accessGrant = some g ∧
    (parseInspectionToken crypto token).tagExternalId = some externalId ∧
    match (if actingAsSystemAdmin cls g then dto.client else none),
      w.tags.rows.find? (·.externalId = externalId) with
    | some client, some tag => UpdateWrites bypassRLS tag (some client) dto w
    | some client, none =>
      canConnect bypassRLS (some client) dto.site w = true ∧
        CreateWrites bypassRLS
          { id := env.cuid 0
            externalId
            serialNumber := (parseInspectionToken crypto token).serialNumber
            clientId := some client
            siteId := dto.site }
          dto.asset w
    | none, found =>
      ∃ context rls,
        (buildPrimaryExtension cls env.allowedSiteIdsForSite {}).rlsContext = some context ∧
        (buildPrimaryExtension cls env.allowedSiteIdsForSite {}).settings = .ok rls ∧
        match found with
        | some tag =>
          if tag.clientId = none ∨ tag.siteId = none then
            AssignRefs w context.clientId context.siteId
          else UpdateWrites rls tag none dto w
        | none =>
          CreateWrites rls
            { id := env.cuid 0
              externalId
              serialNumber := (parseInspectionToken crypto token).serialNumber
              clientId := some context.clientId
              siteId := some (dto.site.getD context.siteId) }
            dto.asset w

theorem findTag_run {externalId : String} {w : AssetWorld} :
    (findTagByExternalId (some externalId)).run w =
      (.ok (w.tags.rows.find? (·.externalId = externalId)), w) := rfl

theorem tag_of_find {externalId : String} {w : AssetWorld} {tag : Tag}
    (h : w.tags.rows.find? (·.externalId = externalId) = some tag) :
    w.tags.find? tag.id = some tag :=
  Table.find?_eq_some.mpr ⟨List.mem_of_find?_eq_some h, rfl⟩

section Operations

variable {crypto : TokenCrypto} {cls : Cls} {env : Env} {token : String} {dto : RegisterTagDto}
  {w : AssetWorld}

theorem registerTag_admin {g : AccessGrant} {client : String} (hg : cls.accessGrant = some g)
    (hclient : (if actingAsSystemAdmin cls g then dto.client else none) = some client) :
    registerTag crypto cls env token dto =
      upsertAsSystemAdmin env (parseInspectionToken crypto token) client dto := by
  unfold registerTag registerBegin Cls.requireAccessGrant
  rw [hg, orRaise_some, bind_bind, pure_bind_self]
  simp only [hclient]
  rw [bind_bind]
  exact bind_pure_self _

theorem registerTag_nonAdmin {g : AccessGrant} (hg : cls.accessGrant = some g)
    (hclient : (if actingAsSystemAdmin cls g then dto.client else none) = none) :
    registerTag crypto cls env token dto =
      (registerLookup cls env (parseInspectionToken crypto token) dto >>= fun begun =>
        registerFrom env begun.1 begun.2) := by
  unfold registerTag registerBegin Cls.requireAccessGrant
  rw [hg, orRaise_some, bind_bind, pure_bind_self]
  simp only [hclient]
  rw [bind_bind]
  rfl

/-- The lookup of a call that may go on. -/
theorem registerLookup_run {t : InspectionToken} {externalId : String} {context : RlsContext}
    {rls : Settings} (hid : t.tagExternalId = some externalId)
    (hcontext : (buildPrimaryExtension cls env.allowedSiteIdsForSite {}).rlsContext = some context)
    (hrls : (buildPrimaryExtension cls env.allowedSiteIdsForSite {}).settings = .ok rls) :
    (registerLookup cls env t dto).run w =
      (.ok ({ rls, context, externalId, serialNumber := t.serialNumber, dto },
        match w.tags.rows.find? (·.externalId = externalId) with
        | some tag => if tag.clientId = none ∨ tag.siteId = none then .assign tag else .update tag
        | none => .create), w) := by
  unfold registerLookup
  rw [hid, run_bind_ok findTag_run, hcontext, orRaise_some, run_pure_bind,
    prismaBuild_of_settings hrls, run_pure_bind]
  cases w.tags.rows.find? (·.externalId = externalId) with
  | none => rfl
  | some tag =>
    simp only [Bool.or_eq_true, decide_eq_true_eq]
    rfl

/-- **`registerTag` changes the store exactly when it has something to write.** -/
theorem registerTag_changes :
    (registerTag crypto cls env token dto).after w ≠ w ↔
      RegistrationWrites crypto cls env token dto w := by
  unfold RegistrationWrites
  cases hg : cls.accessGrant with
  | none =>
    refine iff_of_false (fun h => h ?_) (by simp)
    unfold registerTag registerBegin Cls.requireAccessGrant
    rw [hg]
    rfl
  | some g =>
    simp only [Option.some.injEq, exists_and_left, exists_eq_left']
    cases hclient : (if actingAsSystemAdmin cls g then dto.client else none) with
    | some client =>
      rw [registerTag_admin hg hclient]
      unfold upsertAsSystemAdmin
      cases hid : (parseInspectionToken crypto token).tagExternalId with
      | none => exact iff_of_false (fun h => h rfl) (by simp)
      | some externalId =>
        simp only [Option.some.injEq, exists_eq_left']
        rw [Effect.after, run_bind_ok findTag_run]
        cases hfound : w.tags.rows.find? (·.externalId = externalId) with
        | some tag => exact updateTag_changes (tag_of_find hfound)
        | none =>
          simp only [run_query_bind]
          by_cases hconnect : canConnect bypassRLS (some client) dto.site w = true
          · rw [hconnect, Bool.not_true, raiseIf_false, run_pure_bind]
            exact createTag_changes.trans ⟨fun h => ⟨rfl, h⟩, fun h => h.2⟩
          · rw [Bool.not_eq_true] at hconnect
            rw [hconnect]
            exact iff_of_false (fun h => h rfl) (by simp)
    | none =>
      rw [registerTag_nonAdmin hg hclient]
      cases hid : (parseInspectionToken crypto token).tagExternalId with
      | none =>
        refine iff_of_false (fun h => h ?_) (by simp)
        unfold registerLookup
        rw [hid]
        rfl
      | some externalId =>
        simp only [Option.some.injEq, exists_eq_left']
        cases hcontext : (buildPrimaryExtension cls env.allowedSiteIdsForSite {}).rlsContext with
        | none =>
          refine iff_of_false (fun h => h ?_) (by simp)
          unfold registerLookup
          rw [hid, bind_bind, Effect.after, run_bind_ok findTag_run, hcontext]
          rfl
        | some context =>
          cases hrls : (buildPrimaryExtension cls env.allowedSiteIdsForSite {}).settings with
          | error e =>
            refine iff_of_false (fun h => h ?_) (by simp)
            unfold registerLookup prismaBuild
            rw [hid, bind_bind, Effect.after, run_bind_ok findTag_run, hcontext, hrls]
            rfl
          | ok rls =>
            simp only [Option.some.injEq, Except.ok.injEq, exists_eq_left']
            rw [Effect.after, run_bind_ok (registerLookup_run hid hcontext hrls)]
            cases hfound : w.tags.rows.find? (·.externalId = externalId) with
            | none => exact createTag_changes
            | some tag =>
              have htag := tag_of_find hfound
              by_cases hneeds : tag.clientId = none ∨ tag.siteId = none
              · simp only [if_pos hneeds]
                exact assign_update_changes htag hneeds
              · simp only [if_neg hneeds]
                exact updateTag_changes htag

/-- What `checkRegistration` would show on the strength of a token's external id: a tag with
    that id, if it has no client or the caller has access there. -/
def CheckReveals (crypto : TokenCrypto) (cls : Cls) (env : Env) (token : String)
    (w : AssetWorld) : Prop :=
  (∃ v w', (validateInspectionToken crypto env token).run w = (.ok v, w')) ∧
    ∃ externalId tag, (parseInspectionToken crypto token).tagExternalId = some externalId ∧
      w.tags.rows.find? (·.externalId = externalId) = some tag ∧
      ∀ c, tag.clientId = some c →
        (resolveAccessForClient cls env c tag.siteId w.core).isSome = true

/-- The rest of `checkRegistration`, for a tag that was found. -/
theorem checkAccess_run {tag : Tag} {found : Option TagWithRelations}
    (hfound : found.isSome = true) :
    (∃ r w', (match tag.clientId with
      | none => (pure { tag := found, accessContext := none } : AssetApi RegistrationCheck)
      | some clientId => do
        let accessContext ← query fun w : AssetWorld =>
          resolveAccessForClient cls env clientId tag.siteId w.core
        raiseIf accessContext.isNone noTagAccess
        pure { tag := found, accessContext }).run w = (.ok r, w') ∧ r.tag.isSome = true) ↔
      ∀ c, tag.clientId = some c →
        (resolveAccessForClient cls env c tag.siteId w.core).isSome = true := by
  cases tag.clientId with
  | none => exact iff_of_true ⟨_, _, rfl, hfound⟩ (by simp)
  | some c =>
    simp only [run_query_bind, Option.some.injEq, forall_eq']
    cases resolveAccessForClient cls env c tag.siteId w.core with
    | none => simp
    | some access => exact iff_of_true ⟨_, _, rfl, hfound⟩ rfl

theorem checkRegistration_reveals :
    (∃ r w', (checkRegistration crypto cls env token).run w = (.ok r, w') ∧
        r.tag.isSome = true) ↔
      CheckReveals crypto cls env token w := by
  unfold checkRegistration CheckReveals
  rcases hrun : (validateInspectionToken crypto env token).run w with ⟨res, w₁⟩
  cases res with
  | error e =>
    rw [run_bind_error hrun]
    exact iff_of_false (by simp) (by simp)
  | ok v =>
    obtain ⟨keys, cache, hafter⟩ := validateInspectionToken_after crypto env token w
    rw [after_of_run hrun] at hafter
    subst hafter
    have hid := validateInspectionToken_tagExternalId hrun
    rw [run_bind_ok hrun, hid]
    cases hext : (parseInspectionToken crypto token).tagExternalId with
    | none =>
      have hraise : (findTagByExternalId none).run (w.withKeys keys cache) =
          (.error (.emptyWhere "Tag"), w.withKeys keys cache) := rfl
      rw [run_bind_error hraise]
      exact iff_of_false (by simp) (by simp)
    | some externalId =>
      have hkeys : (w.withKeys keys cache).tags = w.tags := rfl
      rw [run_bind_ok findTag_run, run_query_bind, hkeys]
      cases hfound : w.tags.rows.find? (·.externalId = externalId) with
      | none =>
        refine iff_of_false (fun ⟨r, w', h, hsome⟩ => ?_) (fun ⟨_, _, _, hext, htag, _⟩ => ?_)
        · obtain rfl := Except.ok.inj (Prod.mk.inj h).1
          exact absurd hsome (by simp)
        · obtain rfl := Option.some.inj hext
          rw [hfound] at htag
          exact absurd htag (by simp)
      | some tag =>
        rw [Option.map_some]
        refine (checkAccess_run rfl).trans ⟨fun h => ?_, fun ⟨_, _, tag', hext, htag, h⟩ => ?_⟩
        · exact ⟨⟨v, _, rfl⟩, externalId, tag, rfl, hfound, h⟩
        · obtain rfl := Option.some.inj hext
          obtain rfl := Option.some.inj (hfound.symm.trans htag)
          exact h

/-- What `getInspectionHistory` would show on the strength of a token's external id. -/
def HistoryReveals (crypto : TokenCrypto) (token : String) (w : AssetWorld) : Prop :=
  ∃ a ∈ w.assets, hasTag (parseInspectionToken crypto token).tagExternalId w a = true

/-- There is something in it. -/
def InspectionHistory.Shows (h : InspectionHistory) : Prop :=
  h.asset.isSome = true ∨ h.unresolvedAlerts ≠ [] ∨ h.inspections ≠ []

theorem getInspectionHistory_reveals {order : HistoryOrder} :
    (∃ r w', (getInspectionHistory crypto order token).run w = (.ok r, w') ∧ r.Shows) ↔
      HistoryReveals crypto token w := by
  have hasset : ∀ id, assetHasTag (parseInspectionToken crypto token).tagExternalId w id = true →
      HistoryReveals crypto token w := by
    intro id hid
    obtain ⟨a, ha, htag⟩ := (Option.any_eq_true _ _).mp hid
    exact ⟨a, (Table.find?_eq_some.mp ha).1, htag⟩
  constructor
  · intro h
    obtain ⟨r, w', hrun, hshows⟩ := h
    obtain rfl := Except.ok.inj (Prod.mk.inj hrun).1
    rcases hshows with h | h | h
    · obtain ⟨a, ha⟩ := Option.isSome_iff_exists.mp h
      obtain ⟨hmem, htag⟩ := RowOrder.findFirst_mem ha
      exact ⟨a, hmem, htag⟩
    · obtain ⟨a, ha⟩ := List.exists_mem_of_ne_nil _ h
      exact hasset a.assetId (Bool.and_eq_true_iff.mp (RowOrder.mem_findMany.mp ha).2).1
    · obtain ⟨i, hi⟩ := List.exists_mem_of_ne_nil _ h
      obtain ⟨i, hi, -⟩ := List.mem_map.mp hi
      exact hasset i.assetId (RowOrder.mem_findMany.mp hi).2
  · intro h
    obtain ⟨a, ha, htag⟩ := h
    refine ⟨_, _, rfl, .inl ?_⟩
    by_contra hnone
    rw [Bool.not_eq_true, Option.isSome_eq_false_iff, Option.isNone_iff_eq_none] at hnone
    have hno := RowOrder.findFirst_eq_none.mp hnone a ha
    rw [htag] at hno
    exact absurd hno (by simp)

/-! ## 3. The gate -/

/-- None of the three operations does anything for a token that is not valid. -/
structure TokenGated (crypto : TokenCrypto) (cls : Cls) (env : Env) (order : HistoryOrder)
    (token : String) (dto : RegisterTagDto) (w : AssetWorld) : Prop where
  registerTag : (registerTag crypto cls env token dto).after w ≠ w → ValidToken crypto env token w
  checkRegistration : ∀ r w', (checkRegistration crypto cls env token).run w = (.ok r, w') →
    r.tag.isSome = true → ValidToken crypto env token w
  getInspectionHistory : ∀ r w', (getInspectionHistory crypto order token).run w = (.ok r, w') →
    r.Shows → ValidToken crypto env token w

/-- **They honour a token exactly when it is valid, or there is nothing to write and nothing to
    show for it.** -/
theorem tokenGate_iff {order : HistoryOrder} :
    TokenGated crypto cls env order token dto w ↔
      ValidToken crypto env token w ∨
        ¬ RegistrationWrites crypto cls env token dto w ∧ ¬ CheckReveals crypto cls env token w ∧
          ¬ HistoryReveals crypto token w := by
  constructor
  · intro h
    refine or_iff_not_imp_left.mpr fun hvalid => ⟨fun hw => ?_, fun hc => ?_, fun hh => ?_⟩
    · exact hvalid (h.registerTag (registerTag_changes.mpr hw))
    · obtain ⟨r, w', hrun, hsome⟩ := checkRegistration_reveals.mpr hc
      exact hvalid (h.checkRegistration r w' hrun hsome)
    · obtain ⟨r, w', hrun, hshows⟩ := getInspectionHistory_reveals.mpr hh
      exact hvalid (h.getInspectionHistory r w' hrun hshows)
  · intro h
    rcases h with hvalid | ⟨hwrites, hcheck, hhistory⟩
    · exact ⟨fun _ => hvalid, fun _ _ _ _ => hvalid, fun _ _ _ _ => hvalid⟩
    · constructor
      case registerTag => exact fun hne => absurd (registerTag_changes.mp hne) hwrites
      case checkRegistration =>
        exact fun r w' hrun hsome =>
          absurd (checkRegistration_reveals.mp ⟨r, w', hrun, hsome⟩) hcheck
      case getInspectionHistory =>
        exact fun r w' hrun hshows =>
          absurd (getInspectionHistory_reveals.mp ⟨r, w', hrun, hshows⟩) hhistory

end Operations

/-! ## 4. A token nobody signed -/

/-- `SN-1.tag-1.1`: no signature, and an expiry in 1970. -/
def expiredToken : String := "U04tMS50YWctMS4x"

def expiredCrypto : TokenCrypto where
  base64UrlDecode := fun s => if s = expiredToken then "SN-1.tag-1.1" else ""
  hmacSha256 := fun _ _ => ""
  defaultSigningKeyId := "default"
  createSecret := "secret"

def carolAtBolt : Cls where
  user := some { idpId := "idp-carol", email := "carol@x.org", username := "carol" }
  person := some { id := "carol", firstName := "", lastName := "", email := "carol@x.org" }
  accessGrant := some { roleId := "inspector", scope := .site, capabilities := [],
                        clientId := "bolt", siteId := "bolt-1" }

def gateEnv : Env := { now := 1767222300000 }

/-- A tag nobody has registered, on an asset of `bolt`. -/
def unregisteredTag : AssetWorld where
  core :=
    { clients := ⟨[{ id := "bolt", externalId := "x-bolt" }], List.nodup_singleton _⟩
      sites := ⟨[{ id := "bolt-1", externalId := "x-1", createdOn := 0, clientId := "bolt" }],
        List.nodup_singleton _⟩ }
  tags := ⟨[{ id := "t", externalId := "tag-1", serialNumber := "SN-1" }], by decide⟩
  assets := ⟨[{ id := "extinguisher", tagId := some "t", siteId := "bolt-1", clientId := "bolt" }],
    by decide⟩

theorem expiredToken_invalid :
    ¬ ValidToken expiredCrypto gateEnv expiredToken unregisteredTag := by
  intro h
  obtain ⟨v, hvalid, w', hrun⟩ := h
  have hexpired : isExpired gateEnv (parseInspectionToken expiredCrypto expiredToken) = true := by
    decide
  unfold validateInspectionToken at hrun
  simp only [hexpired, if_true, run_pure, Prod.mk.injEq, Except.ok.injEq] at hrun
  rw [← hrun.1] at hvalid
  exact absurd hvalid (by simp)

/-- It registers the tag, and it shows the tag and its asset. -/
theorem expiredToken_honoured :
    ¬ ValidToken expiredCrypto gateEnv expiredToken unregisteredTag ∧
      ¬ TokenGated expiredCrypto carolAtBolt gateEnv {} expiredToken
        { asset := "extinguisher" } unregisteredTag ∧
      (registerTag expiredCrypto carolAtBolt gateEnv expiredToken
        { asset := "extinguisher" }).after unregisteredTag ≠ unregisteredTag ∧
      CheckReveals expiredCrypto carolAtBolt gateEnv expiredToken unregisteredTag ∧
      HistoryReveals expiredCrypto expiredToken unregisteredTag := by
  have hwrites : (registerTag expiredCrypto carolAtBolt gateEnv expiredToken
      { asset := "extinguisher" }).after unregisteredTag ≠ unregisteredTag := by
    intro h
    have htags : ((registerTag expiredCrypto carolAtBolt gateEnv expiredToken
      { asset := "extinguisher" }).after unregisteredTag).tags.rows = unregisteredTag.tags.rows := by
      rw [h]
    revert htags
    decide
  refine ⟨expiredToken_invalid, fun h => expiredToken_invalid (h.registerTag hwrites), hwrites,
    ⟨⟨_, _, rfl⟩, _, _, rfl, rfl, ?_⟩, _, List.mem_singleton_self _, ?_⟩
  · simp
  · decide

end ShieldApi
