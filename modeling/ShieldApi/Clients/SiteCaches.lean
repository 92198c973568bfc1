import ShieldApi.Clients.Sites
import ShieldApi.Lib.ReadThrough

/-!
# What is kept of the sites

Two answers about a site stay in the memory cache for an hour: whether it is active
(`getSiteStatus` of `clients/sites/sites.service.ts`), and which sites are at most three levels below
it (`getAllowedSiteIdsForSite` of the Prisma service, which `build` asks for the site of every
grant). `update` and `remove` drop an entry afterwards. **It is the entry under the external id of
the site, and the answers are kept under its id**; and of the second kind no entry is ever dropped.

So the answers follow the table exactly as long as nothing is written that a kept one depends on
(`siteCaches_follow_iff`). The entry of a key has no other use, so the two kinds are two maps here.
-/

set_option autoImplicit false

namespace ShieldApi

open Effect Forest SitesService

/-! ## 1. The calls -/

def buildSiteStatusCacheKey (siteExternalId : String) : String :=
  "siteStatus:externalId=" ++ siteExternalId

def allowedSiteIdsCacheKey (siteId : String) : String := "allowed-site-ids:siteId=" ++ siteId

theorem buildSiteStatusCacheKey_inj {a b : String} :
    buildSiteStatusCacheKey a = buildSiteStatusCacheKey b ↔ a = b := by
  unfold buildSiteStatusCacheKey
  rw [← String.toList_inj, String.toList_append, String.toList_append, List.append_cancel_left_eq,
    String.toList_inj]

theorem allowedSiteIdsCacheKey_inj {a b : String} :
    allowedSiteIdsCacheKey a = allowedSiteIdsCacheKey b ↔ a = b := by
  unfold allowedSiteIdsCacheKey
  rw [← String.toList_inj, String.toList_append, String.toList_append, List.append_cancel_left_eq,
    String.toList_inj]

/-- The world, and the entries of the memory cache that are about sites. -/
structure SiteCaches where
  world : World
  siteStatus : String → Option Bool := fun _ => none
  allowedSiteIds : String → Option (List String) := fun _ => none

abbrev CachedApi (α : Type) : Type := Effect SiteCaches ApiError α

/-- What knows nothing of the entries leaves them alone. -/
def onWorld {α : Type} (x : Api α) : CachedApi α := fun s =>
  ((x.run s.world).1, { s with world := (x.run s.world).2 })

def SiteCaches.setSiteStatus (s : SiteCaches) (key : String) (value : Option Bool) : SiteCaches :=
  { s with siteStatus := fun k => if k = key then value else s.siteStatus k }

def SiteCaches.setAllowedSiteIds (s : SiteCaches) (key : String) (value : List String) :
    SiteCaches :=
  { s with allowedSiteIds := fun k => if k = key then some value else s.allowedSiteIds k }

def World.withoutSite (w : World) (id : String) : World :=
  { w with db := { w.db with
    sites := w.db.sites.deleteMany (·.id = id)
    accesses := w.db.accesses.deleteMany (·.siteId = id)
    invitations := w.db.invitations.deleteMany (·.siteId = id) } }

namespace SitesService

/-- Access rows and invitations go with the site; a subsite keeps it, and so does whatever is `held`
    in the tables that are not here. -/
def remove (cls : Cls) (env : Env) (held : Bool) (id : String) : Api Site := do
  let rls ← prismaBuild cls env {}
  attempt fun w => do
    let site ← findSite rls id w
    if held || w.db.sites.rows.any (·.parentSiteId = some id) then .error .foreignKeyConstraint
    else .ok (site, w.withoutSite id)

end SitesService

namespace SiteCaches

def invalidateSiteStatusCache (siteId : String) : CachedApi Unit :=
  write (·.setSiteStatus (buildSiteStatusCacheKey siteId) none)

def getSiteStatus (siteId : String) : CachedApi (Option Bool) := do
  let cacheKey := buildSiteStatusCacheKey siteId
  match ← query (·.siteStatus cacheKey) with
  | some cachedValue => pure (some cachedValue)
  | none =>
    match ← query (·.world.db.sites.find? siteId) with
    | some siteResult =>
      write (·.setSiteStatus cacheKey (some siteResult.active))
      pure (some siteResult.active)
    | none => pure none

def getAllowedSiteIdsForSite (order : RowOrder Site) (siteId : String) :
    CachedApi (List String) := do
  let cacheKey := allowedSiteIdsCacheKey siteId
  match ← query (·.allowedSiteIds cacheKey) with
  | some ids => pure ids
  | none =>
    let ids ← query fun s => PrismaService.getAllowedSiteIdsForSite order s.world.db siteId
    write (·.setAllowedSiteIds cacheKey ids)
    pure ids

/-- What `build` does before there is a client: with a grant, it asks for its sites. -/
def build (cls : Cls) (env : Env) : CachedApi Env :=
  match cls.accessGrant, cls.person with
  | some accessGrant, some _ => do
    let allowedSiteIds ← getAllowedSiteIdsForSite env.siteOrder accessGrant.siteId
    pure { env with allowedSiteIdsForSite := fun _ => allowedSiteIds }
  | _, _ => pure env

def create (cls : Cls) (env : Env) (dto : CreateSiteDto) : CachedApi Site := do
  let env ← build cls env
  onWorld (SitesService.create cls env dto)

def update (cls : Cls) (env : Env) (id : String) (dto : UpdateSiteDto) : CachedApi Site := do
  let env ← build cls env
  let result ← onWorld (SitesService.update cls env id dto)
  invalidateSiteStatusCache result.externalId
  pure result

def remove (cls : Cls) (env : Env) (held : Bool) (id : String) : CachedApi Site := do
  let env ← build cls env
  let result ← onWorld (SitesService.remove cls env held id)
  invalidateSiteStatusCache result.externalId
  pure result

end SiteCaches

/-! ## 2. When the answers are those of the table -/

/-- Whether the site is active, where there is one. -/
def activeIn (t : SiteTable) (id : String) : Option Bool := (t.find? id).map (·.active)

/-- The site itself, or one that is at most three levels below. -/
def WithinIn (t : SiteTable) (siteId c : String) : Prop :=
  c = siteId ∨ (t.find? siteId).isSome ∧ ∃ n ≤ 3, Steps (ChildOf (parentIn t)) n siteId c

theorem mem_allowedSiteIds {order : RowOrder Site} {db : Db} {siteId c : String} :
    c ∈ PrismaService.getAllowedSiteIdsForSite order db siteId ↔ WithinIn db.sites siteId c := by
  unfold WithinIn
  cases hfind : db.sites.find? siteId with
  | none =>
    unfold PrismaService.getAllowedSiteIdsForSite
    rw [hfind]
    simp
  | some site =>
    obtain ⟨hsite, hid⟩ := Table.find?_eq_some.mp hfind
    have hself : c = siteId → ∃ n ≤ 3, Steps (ChildOf db.parentOf) n siteId c :=
      fun h => ⟨0, by omega, h.symm⟩
    rw [mem_getAllowedSiteIdsForSite hsite hid, Option.isSome_some]
    constructor
    · intro h
      exact .inr ⟨rfl, h⟩
    · intro h
      exact h.elim hself And.right

/-- **Whoever asks now is told what the table says.** The list of the sites is read as a set. -/
structure FollowsTable (s : SiteCaches) : Prop where
  siteStatus : ∀ id, ((SiteCaches.getSiteStatus id).run s).1 = .ok (activeIn s.world.db.sites id)
  allowedSiteIds : ∀ order siteId, ∃ ids,
    ((SiteCaches.getAllowedSiteIdsForSite order siteId).run s).1 = .ok ids ∧
      ∀ c, c ∈ ids ↔ c ∈ PrismaService.getAllowedSiteIdsForSite order s.world.db siteId

namespace SiteCaches

/-- The two questions, as caches are read through for them. -/
def statusAnswer (id : String) (t : SiteTable) : Except Unit Bool :=
  match activeIn t id with
  | some active => .ok active
  | none => .error ()

def withinAnswer (siteId : String) (t : SiteTable) : Except Unit (Set String) :=
  .ok {c | WithinIn t siteId c}

theorem statusAnswer_inj {t t' : SiteTable} {id : String} :
    statusAnswer id t' = statusAnswer id t ↔ activeIn t' id = activeIn t id := by
  unfold statusAnswer
  cases activeIn t' id <;> cases activeIn t id <;> simp

theorem withinAnswer_inj {t t' : SiteTable} {siteId : String} :
    withinAnswer siteId t' = withinAnswer siteId t ↔
      ∀ c, WithinIn t' siteId c ↔ WithinIn t siteId c := by
  unfold withinAnswer
  rw [Except.ok.injEq, Set.ext_iff]
  rfl

def allowedSets (s : SiteCaches) (k : String) : Option (Set String) :=
  (s.allowedSiteIds k).map fun ids => {c | c ∈ ids}

theorem isSome_allowedSets {s : SiteCaches} {k : String} :
    (s.allowedSets k).isSome = (s.allowedSiteIds k).isSome := Option.isSome_map

/-- The entries are right. -/
structure Coherent (s : SiteCaches) : Prop where
  siteStatus : ReadThrough.Coherent buildSiteStatusCacheKey statusAnswer (fun _ => True)
    s.siteStatus s.world.db.sites
  allowedSiteIds : ReadThrough.Coherent allowedSiteIdsCacheKey withinAnswer (fun _ => True)
    s.allowedSets s.world.db.sites

theorem getSiteStatus_run (id : String) (s : SiteCaches) : (getSiteStatus id).run s =
    match s.siteStatus (buildSiteStatusCacheKey id) with
    | some cached => (.ok (some cached), s)
    | none =>
      match activeIn s.world.db.sites id with
      | some active => (.ok (some active), s.setSiteStatus (buildSiteStatusCacheKey id) (some active))
      | none => (.ok none, s) := by
  unfold getSiteStatus activeIn
  dsimp only
  rw [run_query_bind]
  cases s.siteStatus (buildSiteStatusCacheKey id) with
  | some cached => rfl
  | none =>
    dsimp only
    rw [run_query_bind]
    cases s.world.db.sites.find? id with
    | some site => rfl
    | none => rfl

theorem getAllowedSiteIdsForSite_run (order : RowOrder Site) (siteId : String) (s : SiteCaches) :
    (getAllowedSiteIdsForSite order siteId).run s =
      match s.allowedSiteIds (allowedSiteIdsCacheKey siteId) with
      | some ids => (.ok ids, s)
      | none =>
        let ids := PrismaService.getAllowedSiteIdsForSite order s.world.db siteId
        (.ok ids, s.setAllowedSiteIds (allowedSiteIdsCacheKey siteId) ids) := by
  unfold getAllowedSiteIdsForSite
  dsimp only
  rw [run_query_bind]
  cases s.allowedSiteIds (allowedSiteIdsCacheKey siteId) with
  | some ids => rfl
  | none => rfl

/-- **Everybody is told what the table says exactly if the entries are right.** -/
theorem followsTable_iff {s : SiteCaches} : FollowsTable s ↔ s.Coherent := by
  have hstatus : ∀ id, ((getSiteStatus id).run s).1 = .ok (activeIn s.world.db.sites id) ↔
      ReadThrough.read buildSiteStatusCacheKey statusAnswer s.siteStatus s.world.db.sites id =
        statusAnswer id s.world.db.sites := by
    intro id
    unfold ReadThrough.read statusAnswer
    rw [getSiteStatus_run]
    cases s.siteStatus (buildSiteStatusCacheKey id) <;>
      cases activeIn s.world.db.sites id <;> simp
  have hallowed : ∀ siteId, (∀ order, ∃ ids,
      ((getAllowedSiteIdsForSite order siteId).run s).1 = .ok ids ∧
        ∀ c, c ∈ ids ↔ c ∈ PrismaService.getAllowedSiteIdsForSite order s.world.db siteId) ↔
      ReadThrough.read allowedSiteIdsCacheKey withinAnswer s.allowedSets s.world.db.sites siteId =
        withinAnswer siteId s.world.db.sites := by
    intro siteId
    unfold ReadThrough.read withinAnswer allowedSets
    simp only [getAllowedSiteIdsForSite_run, mem_allowedSiteIds]
    cases s.allowedSiteIds (allowedSiteIdsCacheKey siteId) with
    | none => simp [mem_allowedSiteIds]
    | some ids =>
      simp only [Option.map_some, Except.ok.injEq, Set.ext_iff, Set.mem_ofPred_eq, exists_eq_left']
      exact ⟨fun h => h (.insertion _), fun h _ => h⟩
  constructor
  · intro h
    refine ⟨ReadThrough.coherent_iff_read_eq.mpr fun id _ => ?_,
      ReadThrough.coherent_iff_read_eq.mpr fun siteId _ => ?_⟩
    · exact (hstatus id).mp (h.siteStatus id)
    · exact (hallowed siteId).mp fun order => h.allowedSiteIds order siteId
  · intro h
    refine ⟨fun id => (hstatus id).mpr (h.siteStatus.read_eq trivial), fun order siteId => ?_⟩
    exact (hallowed siteId).mpr (h.allowedSiteIds.read_eq trivial) order

/-! ## 3. Reading keeps the entries right -/

theorem Coherent.getSiteStatus {s : SiteCaches} (h : s.Coherent) (id : String) :
    ((getSiteStatus id).after s).Coherent := by
  unfold after
  rw [getSiteStatus_run]
  cases s.siteStatus (buildSiteStatusCacheKey id) with
  | some cached => exact h
  | none =>
    cases hactive : activeIn s.world.db.sites id with
    | none => exact h
    | some active =>
      have hanswer : statusAnswer id s.world.db.sites = .ok active := by
        unfold statusAnswer
        rw [hactive]
      refine ⟨h.siteStatus.keep hanswer (fun _ => rfl) fun q _ hq => ?_, h.allowedSiteIds⟩
      rw [buildSiteStatusCacheKey_inj.mp hq]

theorem Coherent.getAllowedSiteIdsForSite {s : SiteCaches} (h : s.Coherent)
    (order : RowOrder Site) (siteId : String) :
    ((getAllowedSiteIdsForSite order siteId).after s).Coherent := by
  unfold after
  rw [getAllowedSiteIdsForSite_run]
  cases s.allowedSiteIds (allowedSiteIdsCacheKey siteId) with
  | some ids => exact h
  | none =>
    have hanswer : withinAnswer siteId s.world.db.sites = .ok
        {c | c ∈ PrismaService.getAllowedSiteIdsForSite order s.world.db siteId} := by
      unfold withinAnswer
      simp only [mem_allowedSiteIds]
    refine ⟨h.siteStatus, h.allowedSiteIds.keep hanswer (fun k => ?_) fun q _ hq => ?_⟩
    · show Option.map _ (if k = allowedSiteIdsCacheKey siteId then _ else _) = _
      by_cases hk : k = allowedSiteIdsCacheKey siteId
      · rw [if_pos hk, if_pos hk]
        rfl
      · rw [if_neg hk, if_neg hk]
        rfl
    · rw [allowedSiteIdsCacheKey_inj.mp hq]

/-- `build` does not throw, and all it may do is keep an answer. -/
theorem build_run (cls : Cls) (env : Env) (s : SiteCaches) :
    ∃ env' u, (build cls env).run s = (.ok env', u) ∧ (s.Coherent → u.Coherent) ∧
      u.world = s.world := by
  unfold build
  cases cls.accessGrant with
  | none => exact ⟨env, s, rfl, id, rfl⟩
  | some g =>
    cases cls.person with
    | none => exact ⟨env, s, rfl, id, rfl⟩
    | some p =>
      have hread : ∃ ids u, (getAllowedSiteIdsForSite env.siteOrder g.siteId).run s = (.ok ids, u) ∧
          u.world = s.world := by
        rw [getAllowedSiteIdsForSite_run]
        cases s.allowedSiteIds (allowedSiteIdsCacheKey g.siteId) with
        | some ids => exact ⟨ids, s, rfl, rfl⟩
        | none => exact ⟨_, _, rfl, rfl⟩
      obtain ⟨ids, u, hrun, hworld⟩ := hread
      refine ⟨{ env with allowedSiteIdsForSite := fun _ => ids }, u, ?_, fun h => ?_, hworld⟩
      · exact run_bind_ok hrun
      · rw [← after_of_run hrun]
        exact h.getAllowedSiteIdsForSite env.siteOrder g.siteId

end SiteCaches

/-! ## 4. What a call writes -/

namespace SitesService

variable {cls : Cls} {env : Env} {w w' : World} {result : Site}

/-- The site is there and in sight, and nothing keeps it. -/
structure RemoveGoes (rls : Settings) (held : Bool) (id : String) (site : Site) (w : World) :
    Prop where
  found : findSite rls id w = .ok site
  held : held = false
  subsites : ∀ s ∈ w.db.sites, s.parentSiteId ≠ some id

theorem remove_eq_ok {held : Bool} {id : String} :
    (SitesService.remove cls env held id).run w = (.ok result, w') ↔ ∃ rls,
      (buildPrimaryExtension cls env.allowedSiteIdsForSite {}).settings = .ok rls ∧
      RemoveGoes rls held id result w ∧ w' = w.withoutSite id := by
  refine prismaBuild_attempt_eq_ok.trans (exists_congr fun rls => and_congr_right fun _ => ?_)
  have hkept : (held || w.db.sites.rows.any (·.parentSiteId = some id)) = false ↔
      held = false ∧ ∀ s ∈ w.db.sites, s.parentSiteId ≠ some id := by
    simp [Bool.or_eq_false_iff, List.any_eq_false, Table.mem_rows]
  rw [bind_except_eq_ok]
  constructor
  · intro h
    obtain ⟨site, hfound, hrun⟩ := h
    by_cases hk : (held || w.db.sites.rows.any (·.parentSiteId = some id)) = true
    · rw [if_pos hk] at hrun
      exact (nomatch hrun)
    · rw [if_neg hk] at hrun
      obtain ⟨rfl, rfl⟩ := Prod.mk.inj (Except.ok.inj hrun)
      obtain ⟨hheld, hsubsites⟩ := hkept.mp (Bool.not_eq_true _ ▸ hk)
      exact ⟨⟨hfound, hheld, hsubsites⟩, rfl⟩
  · intro h
    obtain ⟨⟨hfound, hheld, hsubsites⟩, rfl⟩ := h
    refine ⟨result, hfound, ?_⟩
    rw [hkept.mpr ⟨hheld, hsubsites⟩]
    rfl

end SitesService

/-! ### The columns that no parent changes -/

section Columns

variable {β : Type} {g : Site → β} {rls : Settings} {t : SiteTable}

theorem map_find?_updateMany {p : Site → Bool} {f : Site → Site} {hf : ∀ s, (f s).id = s.id}
    (hg : ∀ s, g (f s) = g s) (k : String) :
    ((t.updateMany p f hf).find? k).map g = (t.find? k).map g := by
  rw [Table.find?_updateMany, Option.map_map]
  apply Option.map_congr
  intro s _
  by_cases hp : p s = true
  · simp [hp, hg]
  · simp [hp]

theorem map_find?_attach (hset : ∀ p s, g (Site.setParent p s) = g s) (siteId k : String)
    (ids : List String) : ((attach rls siteId ids t).find? k).map g = (t.find? k).map g :=
  map_find?_updateMany (hset siteId) k

theorem map_find?_updatedSites (hset : ∀ p s, g (Site.setParent p s) = g s)
    (hclear : ∀ s, g s.clearParent = g s) (id k : String) (dto : UpdateSiteDto) :
    ((updatedSites rls id dto t).find? k).map g =
      (t.find? k).map fun s => g (if s.id = id then s.edit dto else s) := by
  have hedit : ((editSite id dto t).find? k).map g =
      (t.find? k).map fun s => g (if s.id = id then s.edit dto else s) := by
    unfold editSite
    rw [map_find?_updateMany hclear, Table.find?_updateMany, Option.map_map]
    apply Option.map_congr
    intro s _
    simp
  unfold updatedSites
  cases dto.subsites with
  | none => exact hedit
  | some ids =>
    dsimp only
    unfold setSubsites
    rw [map_find?_attach hset, map_find?_updateMany hclear, hedit]

end Columns

/-- What a call that goes through writes, and the external id whose entry it drops. -/
structure SiteWrite where
  sites : SiteTable
  cleared : Option String

inductive SiteCacheCall
  | create (cls : Cls) (env : Env) (dto : CreateSiteDto)
  | update (cls : Cls) (env : Env) (id : String) (dto : UpdateSiteDto)
  | remove (cls : Cls) (env : Env) (held : Bool) (id : String)
  | getSiteStatus (siteId : String)
  | getAllowedSiteIdsForSite (order : RowOrder Site) (siteId : String)

namespace SiteCacheCall

def step (s : SiteCaches) : SiteCacheCall → SiteCaches
  | create cls env dto => (SiteCaches.create cls env dto).after s
  | update cls env id dto => (SiteCaches.update cls env id dto).after s
  | remove cls env held id => (SiteCaches.remove cls env held id).after s
  | getSiteStatus siteId => (SiteCaches.getSiteStatus siteId).after s
  | getAllowedSiteIdsForSite order siteId =>
    (SiteCaches.getAllowedSiteIdsForSite order siteId).after s

/-- The call goes through. `build` has left `u`, with the sites of the caller's own grant kept, and
    `write` is what the query writes there. -/
def Writes (s u : SiteCaches) (write : SiteWrite) : SiteCacheCall → Prop
  | create cls env dto => ∃ env' rls t, (SiteCaches.build cls env).run s = (.ok env', u) ∧
      (buildPrimaryExtension cls env'.allowedSiteIdsForSite {}).settings = .ok rls ∧
      CreateGoes rls env' dto u.world ∧ u.world.db.sites.insert? (newSite env' dto) = some t ∧
      write = ⟨createdSites rls env' dto t, none⟩
  | update cls env id dto => ∃ env' rls site, (SiteCaches.build cls env).run s = (.ok env', u) ∧
      (buildPrimaryExtension cls env'.allowedSiteIdsForSite {}).settings = .ok rls ∧
      UpdateGoes rls id dto site u.world ∧
      write = ⟨updatedSites rls id dto u.world.db.sites, some (dto.externalId.getD site.externalId)⟩
  | remove cls env held id => ∃ env' rls site, (SiteCaches.build cls env).run s = (.ok env', u) ∧
      (buildPrimaryExtension cls env'.allowedSiteIdsForSite {}).settings = .ok rls ∧
      RemoveGoes rls held id site u.world ∧
      write = ⟨u.world.db.sites.deleteMany (·.id = id), some site.externalId⟩
  | getSiteStatus _ => False
  | getAllowedSiteIdsForSite _ _ => False

/-- What is written changes no answer that stays in the cache. -/
structure LeavesKept (u : SiteCaches) (write : SiteWrite) : Prop where
  siteStatus : ∀ id, (u.siteStatus (buildSiteStatusCacheKey id)).isSome = true →
    write.cleared ≠ some id → activeIn write.sites id = activeIn u.world.db.sites id
  allowedSiteIds : ∀ siteId, (u.allowedSiteIds (allowedSiteIdsCacheKey siteId)).isSome = true →
    ∀ c, WithinIn write.sites siteId c ↔ WithinIn u.world.db.sites siteId c

def Covered (s : SiteCaches) (call : SiteCacheCall) : Prop :=
  ∀ u write, call.Writes s u write → LeavesKept u write

/-- The state a call that goes through leaves. -/
structure Written (u v : SiteCaches) (write : SiteWrite) : Prop where
  sites : v.world.db.sites = write.sites
  siteStatus : ∀ k, v.siteStatus k =
    if some k = write.cleared.map buildSiteStatusCacheKey then none else u.siteStatus k
  allowedSiteIds : v.allowedSiteIds = u.allowedSiteIds

theorem onWorld_run {α : Type} {x : Api α} {u : SiteCaches} {r : Except ApiError α} {w' : World}
    (h : x.run u.world = (r, w')) : (onWorld x).run u = (r, { u with world := w' }) := by
  show ((x.run u.world).1, _) = _
  rw [h]

/-- What `update` and `remove` have in common. -/
theorem run_invalidate {cls : Cls} {env env' : Env} {s u : SiteCaches} {w' : World} {result : Site}
    {x : Env → Api Site} (hbuild : (SiteCaches.build cls env).run s = (.ok env', u))
    (h : (x env').run u.world = (.ok result, w')) :
    (SiteCaches.build cls env >>= fun env => onWorld (x env) >>= fun result =>
      SiteCaches.invalidateSiteStatusCache result.externalId >>= fun _ => pure result).run s =
      (.ok result, ({ u with world := w' } : SiteCaches).setSiteStatus
        (buildSiteStatusCacheKey result.externalId) none) := by
  rw [run_bind_ok hbuild, run_bind_ok (onWorld_run h)]
  rfl

theorem written_of_writes {s u : SiteCaches} {write : SiteWrite} {call : SiteCacheCall}
    (h : call.Writes s u write) : Written u (step s call) write := by
  cases call with
  | create cls env dto =>
    obtain ⟨env', rls, t, hbuild, hrls, hgoes, ht, rfl⟩ := h
    have hrun := create_eq_ok.mpr ⟨rls, t, hrls, hgoes, ht, rfl, rfl⟩
    have hafter : (SiteCaches.create cls env dto).run s = _ :=
      (run_bind_ok hbuild).trans (onWorld_run hrun)
    have hstep : step s (.create cls env dto) = _ := after_of_run hafter
    rw [hstep]
    exact ⟨rfl, fun k => rfl, rfl⟩
  | update cls env id dto =>
    obtain ⟨env', rls, site, hbuild, hrls, hgoes, rfl⟩ := h
    have hrun := update_eq_ok.mpr ⟨rls, site, hrls, hgoes, rfl, rfl⟩
    have hafter : (SiteCaches.update cls env id dto).run s = _ := run_invalidate hbuild hrun
    have hstep : step s (.update cls env id dto) = _ := after_of_run hafter
    rw [hstep]
    -- the row that comes back has the external id of the edited one
    have hexternal : ((updatedSites rls id dto u.world.db.sites).find? id).map (·.externalId) =
        some (dto.externalId.getD site.externalId) := by
      obtain ⟨hfound, -⟩ := findSite_eq_ok.mp hgoes.found
      rw [map_find?_updatedSites (fun _ _ => rfl) (fun _ => rfl), hfound, Option.map_some,
        if_pos (Table.find?_eq_some.mp hfound).2]
      rfl
    obtain ⟨result, hresult, hid⟩ := Option.map_eq_some_iff.mp hexternal
    refine ⟨rfl, fun k => ?_, rfl⟩
    rw [hresult, Option.getD_some, hid]
    simp only [Option.map_some, Option.some.injEq]
    rfl
  | remove cls env held id =>
    obtain ⟨env', rls, site, hbuild, hrls, hgoes, rfl⟩ := h
    have hrun := remove_eq_ok.mpr ⟨rls, hrls, hgoes, rfl⟩
    have hafter : (SiteCaches.remove cls env held id).run s = _ := run_invalidate hbuild hrun
    have hstep : step s (.remove cls env held id) = _ := after_of_run hafter
    rw [hstep]
    refine ⟨rfl, fun k => ?_, rfl⟩
    simp only [Option.map_some, Option.some.injEq]
    rfl
  | getSiteStatus siteId => exact h.elim
  | getAllowedSiteIdsForSite order siteId => exact h.elim

theorem run_invalidate_error {cls : Cls} {env env' : Env} {s u : SiteCaches} {e : ApiError}
    {x : Env → Api Site} (hbuild : (SiteCaches.build cls env).run s = (.ok env', u))
    (h : (x env').run u.world = (.error e, u.world)) :
    (SiteCaches.build cls env >>= fun env => onWorld (x env) >>= fun result =>
      SiteCaches.invalidateSiteStatusCache result.externalId >>= fun _ => pure result).run s =
      (.error e, u) := by
  rw [run_bind_ok hbuild, run_bind_error (onWorld_run h)]

/-- An atomic call that did not return did nothing. -/
theorem error_of_atomic {x : Api Site} (hx : x.Atomic) {w : World}
    (h : ∀ result w', x.run w ≠ (.ok result, w')) : ∃ e, x.run w = (.error e, w) := by
  rcases hrun : x.run w with ⟨r, w'⟩
  cases r with
  | ok result => exact absurd hrun (h result w')
  | error e => exact ⟨e, by rw [hx w e w' hrun]⟩

/-- A call that writes nothing keeps the entries right. -/
theorem coherent_of_not_writes {s : SiteCaches} {call : SiteCacheCall}
    (h : ∀ u write, ¬ call.Writes s u write) (hs : s.Coherent) : (step s call).Coherent := by
  cases call with
  | create cls env dto =>
    obtain ⟨env', u, hbuild, hkeeps, hworld⟩ := SiteCaches.build_run cls env s
    obtain ⟨e, hrun⟩ := error_of_atomic (x := SitesService.create cls env' dto) (w := u.world)
      (atomic_prismaBuild_attempt cls env' {} _) fun result w' hrun => by
        obtain ⟨rls, t, hrls, hgoes, ht, -⟩ := create_eq_ok.mp hrun
        exact h u _ ⟨env', rls, t, hbuild, hrls, hgoes, ht, rfl⟩
    have hstep : step s (.create cls env dto) = _ :=
      after_of_run ((run_bind_ok hbuild).trans (onWorld_run hrun))
    rw [hstep]
    exact hkeeps hs
  | update cls env id dto =>
    obtain ⟨env', u, hbuild, hkeeps, hworld⟩ := SiteCaches.build_run cls env s
    obtain ⟨e, hrun⟩ := error_of_atomic (x := SitesService.update cls env' id dto) (w := u.world)
      (atomic_prismaBuild_attempt cls env' {} _) fun result w' hrun => by
        obtain ⟨rls, site, hrls, hgoes, -⟩ := update_eq_ok.mp hrun
        exact h u _ ⟨env', rls, site, hbuild, hrls, hgoes, rfl⟩
    have hstep : step s (.update cls env id dto) = _ :=
      after_of_run (run_invalidate_error hbuild hrun)
    rw [hstep]
    exact hkeeps hs
  | remove cls env held id =>
    obtain ⟨env', u, hbuild, hkeeps, hworld⟩ := SiteCaches.build_run cls env s
    obtain ⟨e, hrun⟩ := error_of_atomic (x := SitesService.remove cls env' held id) (w := u.world)
      (atomic_prismaBuild_attempt cls env' {} _) fun result w' hrun => by
        obtain ⟨rls, hrls, hgoes, -⟩ := remove_eq_ok.mp hrun
        exact h u _ ⟨env', rls, result, hbuild, hrls, hgoes, rfl⟩
    have hstep : step s (.remove cls env held id) = _ :=
      after_of_run (run_invalidate_error hbuild hrun)
    rw [hstep]
    exact hkeeps hs
  | getSiteStatus siteId => exact hs.getSiteStatus siteId
  | getAllowedSiteIdsForSite order siteId => exact hs.getAllowedSiteIdsForSite order siteId

theorem coherent_of_writes {s u : SiteCaches} {write : SiteWrite} {call : SiteCacheCall}
    (h : call.Writes s u write) (hs : s.Coherent) : u.Coherent := by
  obtain ⟨cls, env, env', hbuild⟩ : ∃ cls env env', (SiteCaches.build cls env).run s = (.ok env', u) := by
    cases call with
    | create cls env dto =>
      obtain ⟨env', -, -, hbuild, -⟩ := h
      exact ⟨cls, env, env', hbuild⟩
    | update cls env id dto =>
      obtain ⟨env', -, -, hbuild, -⟩ := h
      exact ⟨cls, env, env', hbuild⟩
    | remove cls env held id =>
      obtain ⟨env', -, -, hbuild, -⟩ := h
      exact ⟨cls, env, env', hbuild⟩
    | getSiteStatus siteId => exact h.elim
    | getAllowedSiteIdsForSite order siteId => exact h.elim
  obtain ⟨env'', u', hbuild', hkeeps, -⟩ := SiteCaches.build_run cls env s
  obtain rfl : u' = u := (Prod.mk.inj (hbuild'.symm.trans hbuild)).2
  exact hkeeps hs

/-- A write keeps the entries right exactly if it leaves the answers that stay. -/
theorem Written.coherent_iff {u v : SiteCaches} {write : SiteWrite} (h : Written u v write)
    (hu : u.Coherent) : v.Coherent ↔ LeavesKept u write := by
  have hfewer : ∀ k value, v.siteStatus k = some value → u.siteStatus k = some value := by
    intro k value hk
    rw [h.siteStatus] at hk
    exact (Option.ite_none_left_eq_some.mp hk).2
  have hsame : ∀ k value, v.allowedSets k = some value → u.allowedSets k = some value := by
    intro k value hk
    unfold SiteCaches.allowedSets at hk ⊢
    rwa [h.allowedSiteIds] at hk
  have hstatus : ReadThrough.Coherent buildSiteStatusCacheKey SiteCaches.statusAnswer
      (fun _ => True) v.siteStatus v.world.db.sites ↔ _ := hu.siteStatus.write_iff hfewer
  have hallowed : ReadThrough.Coherent allowedSiteIdsCacheKey SiteCaches.withinAnswer
      (fun _ => True) v.allowedSets v.world.db.sites ↔ _ := hu.allowedSiteIds.write_iff hsame
  have hkept : ∀ id, (v.siteStatus (buildSiteStatusCacheKey id)).isSome = true ↔
      (u.siteStatus (buildSiteStatusCacheKey id)).isSome = true ∧ write.cleared ≠ some id := by
    intro id
    rw [h.siteStatus]
    cases write.cleared with
    | none => simp
    | some id' =>
      simp only [Option.map_some, Option.some.injEq, buildSiteStatusCacheKey_inj]
      by_cases hid : id = id'
      · simp [hid]
      · simp [hid, Ne.symm hid]
  simp only [SiteCaches.statusAnswer_inj, hkept, h.sites, true_implies, and_imp] at hstatus
  simp only [SiteCaches.withinAnswer_inj, SiteCaches.isSome_allowedSets, h.allowedSiteIds, h.sites,
    true_implies] at hallowed
  constructor
  · intro hv
    exact ⟨hstatus.mp (h.sites ▸ hv.siteStatus), hallowed.mp (h.sites ▸ hv.allowedSiteIds)⟩
  · intro hkept
    exact ⟨h.sites ▸ hstatus.mpr hkept.siteStatus, h.sites ▸ hallowed.mpr hkept.allowedSiteIds⟩

/-- **One call.** -/
theorem coherent_step_iff {s : SiteCaches} (hs : s.Coherent) (call : SiteCacheCall) :
    (step s call).Coherent ↔ call.Covered s := by
  by_cases hwrites : ∃ u write, call.Writes s u write
  · obtain ⟨u, write, hw⟩ := hwrites
    constructor
    · intro hafter u' write' hw'
      exact ((written_of_writes hw').coherent_iff (coherent_of_writes hw' hs)).mp hafter
    · intro hcov
      exact ((written_of_writes hw).coherent_iff (coherent_of_writes hw hs)).mpr (hcov u write hw)
  · have hnot : ∀ u write, ¬ call.Writes s u write :=
      fun u write hw => hwrites ⟨u, write, hw⟩
    exact iff_of_true (coherent_of_not_writes hnot hs) fun u write hw => absurd hw (hnot u write)

end SiteCacheCall

/-! ## 5. Any run -/

/-- **When the caches follow the table:** exactly if no call that goes through changes an answer
    that stays. -/
theorem siteCaches_follow_iff {s : SiteCaches} (hs : FollowsTable s) (calls : List SiteCacheCall) :
    (∀ t, Reached SiteCacheCall.step s calls t → FollowsTable t) ↔
      ∀ u call, Fired SiteCacheCall.step s calls u call → call.Covered u := by
  refine reached_iff_fired (I := fun _ => True) trivial hs (fun _ _ _ _ => trivial)
    fun u call _ _ hu => ?_
  rw [SiteCaches.followsTable_iff] at hu ⊢
  exact SiteCacheCall.coherent_step_iff hu call

theorem followsTable_nothingKept (w : World) : FollowsTable { world := w } :=
  SiteCaches.followsTable_iff.mpr ⟨ReadThrough.coherent_empty, ReadThrough.coherent_empty⟩

theorem withinIn_congr {t t' : SiteTable} (hfound : ∀ k, (t'.find? k).isSome = (t.find? k).isSome)
    (hparent : parentIn t' = parentIn t) (siteId c : String) :
    WithinIn t' siteId c ↔ WithinIn t siteId c := by
  unfold WithinIn
  rw [hfound, hparent]

/-- No kept answer depends on the other columns. -/
theorem SiteCacheCall.update_covered {cls : Cls} {env : Env} {id : String} {dto : UpdateSiteDto}
    (hactive : dto.active = none) (hparent : dto.parentSite = {}) (hsubsites : dto.subsites = none)
    (s : SiteCaches) : (SiteCacheCall.update cls env id dto).Covered s := by
  intro u write hwrite
  obtain ⟨env', rls, site, -, -, hgoes, rfl⟩ := hwrite
  obtain ⟨hfound, -⟩ := findSite_eq_ok.mp hgoes.found
  constructor
  case siteStatus =>
    intro k _ _
    unfold activeIn
    rw [map_find?_updatedSites (fun _ _ => rfl) (fun _ => rfl)]
    apply Option.map_congr
    intro s _
    by_cases hs : s.id = id
    · rw [if_pos hs, Site.edit, hactive]
      rfl
    · rw [if_neg hs]
  case allowedSiteIds =>
    intro siteId _ c
    refine withinIn_congr (fun k => ?_) (funext fun k => ?_) siteId c
    · have hunit : ((updatedSites rls id dto u.world.db.sites).find? k).map (fun _ => ()) = _ :=
        map_find?_updatedSites (fun _ _ => rfl) (fun _ => rfl) id k dto
      simpa using congrArg Option.isSome hunit
    · unfold updatedSites
      rw [hsubsites]
      have hown : ownParent dto = none := by
        unfold ownParent
        rw [hparent]
        rfl
      rw [parentIn_editSite hfound, hown, Option.getD_none, ite_self]

/-! ## 6. A wing that is closed -/

/-- The tower, with nothing kept. -/
def tower : SiteCaches := { world := { db := fiveStoreys } }

/-- Somebody asks for the wing before it is closed. -/
def wingCloses : List SiteCacheCall :=
  [.getSiteStatus "wing", .update builder {} "wing" { active := some false }]

/-- Somebody's sites are those of the wing when the desk, four levels down, comes to hang right
    under it. -/
def deskMoves : List SiteCacheCall :=
  [.getAllowedSiteIdsForSite (.insertion _) "hq",
   .update builder {} "desk" { parentSite := { connect := some "wing" } }]

/-- Both updates go through, and the wing is told to be open, and the desk not to be among them. -/
theorem wingCloses_staysOpen :
    (∃ t, Reached SiteCacheCall.step tower wingCloses t ∧
      activeIn t.world.db.sites "wing" = some false ∧
      ((SiteCaches.getSiteStatus "wing").run t).1 = .ok (some true)) ∧
    ∃ t, Reached SiteCacheCall.step tower deskMoves t ∧
      "desk" ∈ PrismaService.getAllowedSiteIdsForSite (.insertion _) t.world.db "hq" ∧
      ((SiteCaches.getAllowedSiteIdsForSite (.insertion _) "hq").run t).1 =
        .ok ["hq", "wing", "floor", "hall"] := by
  refine ⟨⟨_, reached_end tower wingCloses, ?_⟩, ⟨_, reached_end tower deskMoves, ?_⟩⟩
  · decide
  · decide

/-- Somebody asks for the wing, and it gets another name. -/
def wingRenamed : List SiteCacheCall :=
  [.getSiteStatus "wing", .update builder {} "wing" { name := some "West wing" }]

theorem wingRenamed_follows : (∃ t, Reached SiteCacheCall.step tower wingRenamed t ∧
      (t.world.db.sites.find? "wing").map (·.name) = some "West wing") ∧
    ∀ t, Reached SiteCacheCall.step tower wingRenamed t → FollowsTable t := by
  refine ⟨⟨_, reached_end tower wingRenamed, by decide⟩, ?_⟩
  apply (siteCaches_follow_iff (followsTable_nothingKept _) _).mpr
  intro u call hf
  rcases hf with ⟨rfl, rfl⟩ | ⟨rfl, rfl⟩ | h
  · intro u write hwrite
    exact hwrite.elim
  · exact SiteCacheCall.update_covered rfl rfl rfl _
  · exact h.elim

end ShieldApi
