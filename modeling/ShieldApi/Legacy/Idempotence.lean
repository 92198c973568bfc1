import ShieldApi.Legacy.Migration

/-!
# Migrating a client once more

After a migration, every lookup of a second one finds what it looks for: the client, the site groups
and the sites by their external ids, the assets likewise, and where no asset came of a legacy one, the
lookups on the way to that have nothing left to write (`AssetSettled`). So the second run should
write nothing.

**But the first asset with a place in the order gets a new one**: whether it has one is looked up in
a map that is not loaded yet. The second run writes nothing exactly if there is no such asset, and the
caller gives no name to a site that was left out for want of one (`migration_idempotent_iff`).
-/

set_option autoImplicit false

namespace ShieldApi

namespace LegacyMigrationService

open GetOrCreate

variable {legacy : LegacyDb} {legacyClient : LegacyModels.Client} {run : MigrationRun}

/-! ## 1. The client -/

theorem isLegacyClients_of_mem {clients : Table ClientBasic String ClientBasic.id}
    {newClient : ClientBasic} (hmem : newClient ∈ clients)
    (hid : newClient.legacyClientId = legacyClient.c_id) :
    isLegacyClients legacyClient clients newClient.id = true := by
  rw [isLegacyClients, Table.find?_eq_some.mpr ⟨hmem, rfl⟩]
  simpa using hid

/-- The client that was migrated is the one that is found from then on. -/
theorem migrateClient_eq_some {db db₁ : MigrationDb} {newClient : ClientBasic}
    (h : migrateClient legacyClient run db = some (db₁, newClient)) :
    db₁.clients.rows.find? (·.legacyClientId = legacyClient.c_id) = some newClient := by
  unfold migrateClient at h
  cases hfound : db.clients.rows.find? (·.legacyClientId = legacyClient.c_id) with
  | some c =>
    simp only [hfound] at h
    split at h
    · obtain ⟨rfl, rfl⟩ := Prod.mk.inj (Option.some.inj h)
      exact hfound
    · exact absurd h (by simp)
  | none =>
    simp only [hfound] at h
    obtain ⟨rfl, rfl⟩ := Prod.mk.inj (Option.some.inj h)
    rw [Table.rows_create, List.find?_append, hfound]
    simp [Table.create]

/-! ## 2. Sites -/

section

variable {newClient : ClientBasic} {alreadyMigrated : List SiteBasic}

theorem siteOf_append (l l' : List SiteBasic) (loc_id : String) :
    siteOf (l ++ l') loc_id = (siteOf l' loc_id).or (siteOf l loc_id) := by
  rw [siteOf, List.reverse_append, List.find?_append]
  rfl

theorem siteOf_eq_none {l : List SiteBasic} {loc_id : String} :
    siteOf l loc_id = none ↔ ∀ s ∈ l, truthyString s.legacySiteId ≠ some loc_id := by
  rw [siteOf, List.find?_eq_none]
  simp only [List.mem_reverse, decide_eq_true_eq, ne_eq]

theorem siteGroupOf_isSome {l : List SiteBasic} {group_id : String} :
    (siteGroupOf l group_id).isSome = true ↔
      ∃ s ∈ l, truthyString s.legacyGroupId = some group_id := by
  rw [siteGroupOf, List.find?_isSome]
  simp only [List.mem_reverse, decide_eq_true_eq]

/-- One group: it is there, or it is added. -/
theorem migrateSiteGroup_rows (st : SitesState) (g : LegacyModels.Group) :
    ∃ new, (migrateSiteGroup run newClient alreadyMigrated st g).sites.rows =
        st.sites.rows ++ new ∧
      (migrateSiteGroup run newClient alreadyMigrated st g).legacyPrimaryKeyToNewSiteMap =
        st.legacyPrimaryKeyToNewSiteMap ∧
      (∀ s ∈ new, s.clientId = newClient.id ∧ s.legacySiteId = none) ∧
      ∀ group_id, g.group_id = some group_id → group_id ≠ "" →
        (siteGroupOf (alreadyMigrated ++ new) group_id).isSome = true := by
  cases hid : g.group_id with
  | none =>
    simp only [migrateSiteGroup, hid]
    exact ⟨[], by simp, trivial, by simp, by simp⟩
  | some group_id =>
    cases hfound : siteGroupOf alreadyMigrated group_id with
    | some s =>
      simp only [migrateSiteGroup, hid, hfound]
      refine ⟨[], by simp, trivial, by simp, fun id h _ => ?_⟩
      rw [List.append_nil, ← Option.some.inj h, hfound]
      rfl
    | none =>
      simp only [migrateSiteGroup, hid, hfound]
      refine ⟨[_], Table.rows_create _ _ _ _, trivial, fun s hs => ?_, fun id h hne => ?_⟩
      · rw [List.mem_singleton.mp hs]
        exact ⟨rfl, rfl⟩
      · rw [siteGroupOf_isSome]
        refine ⟨_, List.mem_append_right _ (List.mem_singleton_self _), ?_⟩
        exact truthyString_eq_some.mpr ⟨h, hne⟩

variable (run newClient alreadyMigrated) in
/-- The loop over the groups: what it adds are the client's, and then every group is there. -/
theorem foldl_migrateSiteGroup (groups : List LegacyModels.Group) (st : SitesState) :
    ∃ new, (groups.foldl (migrateSiteGroup run newClient alreadyMigrated) st).sites.rows =
        st.sites.rows ++ new ∧
      (groups.foldl (migrateSiteGroup run newClient alreadyMigrated)
        st).legacyPrimaryKeyToNewSiteMap = st.legacyPrimaryKeyToNewSiteMap ∧
      (∀ s ∈ new, s.clientId = newClient.id ∧ s.legacySiteId = none) ∧
      ∀ g ∈ groups, ∀ group_id, g.group_id = some group_id → group_id ≠ "" →
        (siteGroupOf (alreadyMigrated ++ new) group_id).isSome = true := by
  induction groups generalizing st with
  | nil => exact ⟨[], by simp, rfl, by simp, by simp⟩
  | cons g groups ih =>
    obtain ⟨rest, hrows', hmap', hrest, hfound'⟩ :=
      ih (migrateSiteGroup run newClient alreadyMigrated st g)
    obtain ⟨new, hrows, hmap, hnew, hfound⟩ := migrateSiteGroup_rows st g
    refine ⟨new ++ rest, ?_, ?_, fun s hs => ?_, fun h hh group_id hid hne => ?_⟩
    · rw [List.foldl_cons, hrows', hrows, List.append_assoc]
    · rw [List.foldl_cons, hmap', hmap]
    · rcases List.mem_append.mp hs with hs | hs
      · exact hnew s hs
      · exact hrest s hs
    · rw [siteGroupOf_isSome]
      rcases List.mem_cons.mp hh with rfl | hh
      · obtain ⟨s, hs, hsid⟩ := siteGroupOf_isSome.mp (hfound group_id hid hne)
        refine ⟨s, ?_, hsid⟩
        rw [← List.append_assoc]
        exact List.mem_append_left _ hs
      · obtain ⟨s, hs, hsid⟩ := siteGroupOf_isSome.mp (hfound' h hh group_id hid hne)
        refine ⟨s, ?_, hsid⟩
        rcases List.mem_append.mp hs with hs | hs
        · exact List.mem_append_left _ hs
        · exact List.mem_append_right _ (List.mem_append_right _ hs)

variable (run newClient) in
/-- Where every group is there, none is added. -/
theorem foldl_migrateSiteGroup_of_found {groups : List LegacyModels.Group}
    (hfound : ∀ g ∈ groups, ∀ group_id, g.group_id = some group_id →
      (siteGroupOf alreadyMigrated group_id).isSome = true) (st : SitesState) :
    (groups.foldl (migrateSiteGroup run newClient alreadyMigrated) st).sites = st.sites ∧
      (groups.foldl (migrateSiteGroup run newClient alreadyMigrated)
        st).legacyPrimaryKeyToNewSiteMap = st.legacyPrimaryKeyToNewSiteMap := by
  induction groups generalizing st with
  | nil => exact ⟨rfl, rfl⟩
  | cons g groups ih =>
    obtain ⟨hsites, hmap⟩ := ih (fun h hh => hfound h (List.mem_cons_of_mem _ hh))
      (migrateSiteGroup run newClient alreadyMigrated st g)
    have hstep : (migrateSiteGroup run newClient alreadyMigrated st g).sites = st.sites ∧
        (migrateSiteGroup run newClient alreadyMigrated st g).legacyPrimaryKeyToNewSiteMap =
          st.legacyPrimaryKeyToNewSiteMap := by
      unfold migrateSiteGroup
      cases hid : g.group_id with
      | none => exact ⟨rfl, rfl⟩
      | some group_id =>
        obtain ⟨s, hs⟩ := Option.isSome_iff_exists.mp
          (hfound g List.mem_cons_self group_id hid)
        simp [hs]
    rw [List.foldl_cons, hsites, hmap]
    exact hstep

variable (alreadyMigrated) in
/-- The site of a location among those that are there. -/
def siteAt (loc : LegacyModels.Location) : Option SiteBasic :=
  (truthyString loc.loc_id).bind (siteOf alreadyMigrated)

/-- What a location adds to the map of the sites, if its site is there. -/
def setSite (alreadyMigrated : List SiteBasic) (sites : List (Int × SiteBasic))
    (loc : LegacyModels.Location) : List (Int × SiteBasic) :=
  match siteAt alreadyMigrated loc with
  | some s => (loc.loc_no, s) :: sites
  | none => sites

theorem foldl_setSite_congr {l l' : List SiteBasic} {locs : List LegacyModels.Location}
    (h : ∀ loc ∈ locs, siteAt l loc = siteAt l' loc) (sites : List (Int × SiteBasic)) :
    locs.foldl (setSite l) sites = locs.foldl (setSite l') sites :=
  List.foldl_ext _ _ _ fun sites loc hloc => by rw [setSite, setSite, h loc hloc]

theorem siteAt_append {l l' : List SiteBasic} {loc : LegacyModels.Location} :
    siteAt (l ++ l') loc = (siteAt l' loc).or (siteAt l loc) := by
  unfold siteAt
  cases truthyString loc.loc_id with
  | none => rfl
  | some loc_id => exact siteOf_append l l' loc_id

theorem siteAt_eq_none_of_ne {l : List SiteBasic} {loc : LegacyModels.Location}
    (h : ∀ s ∈ l, ∀ loc_id, loc.loc_id = some loc_id → s.legacySiteId ≠ some loc_id) :
    siteAt l loc = none := by
  unfold siteAt
  cases hid : truthyString loc.loc_id with
  | none => rfl
  | some loc_id =>
    apply siteOf_eq_none.mpr
    intro s hs heq
    exact h s hs loc_id (truthyString_eq_some.mp hid).1 (truthyString_eq_some.mp heq).1

theorem siteAt_append_singleton {l : List SiteBasic} {s : SiteBasic} {loc : LegacyModels.Location}
    {loc_id : String} (hid : truthyString loc.loc_id = some loc_id)
    (hs : s.legacySiteId = some loc_id) : siteAt (l ++ [s]) loc = some s := by
  have hsite : truthyString s.legacySiteId = some loc_id :=
    truthyString_eq_some.mpr ⟨hs, (truthyString_eq_some.mp hid).2⟩
  simp [siteAt, siteOf, hid, hsite]

variable (legacy run newClient alreadyMigrated) in
/-- One location: its site is there, or it is added, or it is left out. -/
theorem migrateSite_rows (st : SitesState) (loc : LegacyModels.Location) :
    ∃ new, (migrateSite legacy run newClient alreadyMigrated st loc).sites.rows =
        st.sites.rows ++ new ∧
      (∀ s ∈ new, s.clientId = newClient.id ∧ s.legacySiteId = loc.loc_id ∧
        loc.loc_id.isSome = true ∧ siteAt alreadyMigrated loc = none) ∧
      (migrateSite legacy run newClient alreadyMigrated st loc).legacyPrimaryKeyToNewSiteMap =
        setSite (alreadyMigrated ++ new) st.legacyPrimaryKeyToNewSiteMap loc ∧
      ((truthyString loc.loc_id).isSome = true → siteAt (alreadyMigrated ++ new) loc = none →
        isLeftOut legacy run loc = true) := by
  cases hid : truthyString loc.loc_id with
  | none =>
    simp only [migrateSite, setSite, siteAt, hid]
    exact ⟨[], by simp, by simp, rfl, by simp⟩
  | some loc_id =>
    cases hfound : siteOf alreadyMigrated loc_id with
    | some s =>
      simp only [migrateSite, setSite, siteAt, hid, hfound]
      refine ⟨[], by simp, by simp, ?_, ?_⟩
      · simp [hfound]
      · simp [hfound]
    | none =>
      have hnone : siteAt alreadyMigrated loc = none := by rw [siteAt, hid]; exact hfound
      by_cases hleft : isLeftOut legacy run loc = true
      · simp only [migrateSite, hid, hfound, if_pos hleft]
        refine ⟨[], by simp, by simp, ?_, fun _ _ => hleft⟩
        rw [List.append_nil, setSite, hnone]
      · obtain ⟨hloc, -⟩ := truthyString_eq_some.mp hid
        simp only [migrateSite, hid, hfound, if_neg hleft]
        refine ⟨[_], Table.rows_create _ _ _ _, fun s hs => ?_, ?_, fun _ hnot => ?_⟩
        · rw [List.mem_singleton.mp hs, hloc]
          exact ⟨rfl, rfl, rfl, hnone⟩
        · rw [setSite, siteAt_append_singleton hid ?_]
          rfl
        · rw [siteAt_append_singleton hid ?_] at hnot
          · exact absurd hnot (by simp)
          · rfl

variable (legacy run newClient alreadyMigrated) in
/-- The loop over the locations: what it adds are sites of the client at locations that had none, the
    map has the site of every location that has one in the end, and the others are left out. -/
theorem foldl_migrateSite {locs : List LegacyModels.Location}
    (hids : (locs.filterMap (·.loc_id)).Nodup) (st : SitesState) :
    ∃ new, (locs.foldl (migrateSite legacy run newClient alreadyMigrated) st).sites.rows =
        st.sites.rows ++ new ∧
      (∀ s ∈ new, s.clientId = newClient.id ∧ ∃ loc ∈ locs,
        s.legacySiteId = loc.loc_id ∧ loc.loc_id.isSome = true ∧
          siteAt alreadyMigrated loc = none) ∧
      (locs.foldl (migrateSite legacy run newClient alreadyMigrated)
          st).legacyPrimaryKeyToNewSiteMap =
        locs.foldl (setSite (alreadyMigrated ++ new)) st.legacyPrimaryKeyToNewSiteMap ∧
      ∀ loc ∈ locs, (truthyString loc.loc_id).isSome = true →
        siteAt (alreadyMigrated ++ new) loc = none → isLeftOut legacy run loc = true := by
  induction locs generalizing st with
  | nil => exact ⟨[], by simp, by simp, rfl, by simp⟩
  | cons loc locs ih =>
    have hrestIds : (locs.filterMap (·.loc_id)).Nodup :=
      hids.sublist ((List.sublist_cons_self loc locs).filterMap _)
    -- no other location has this one's external id
    have hother : ∀ x ∈ locs, ∀ loc_id, loc.loc_id = some loc_id → x.loc_id ≠ some loc_id := by
      intro x hx loc_id hloc hxid
      rw [List.filterMap_cons_some hloc, List.nodup_cons] at hids
      exact hids.1 (List.mem_filterMap.mpr ⟨x, hx, hxid⟩)
    obtain ⟨rest, hrows', hrest, hmap', hleft'⟩ :=
      ih hrestIds (migrateSite legacy run newClient alreadyMigrated st loc)
    obtain ⟨new, hrows, hnew, hmap, hleft⟩ :=
      migrateSite_rows legacy run newClient alreadyMigrated st loc
    have hhere :
        siteAt (alreadyMigrated ++ (new ++ rest)) loc = siteAt (alreadyMigrated ++ new) loc := by
      have hnone : siteAt rest loc = none := by
        apply siteAt_eq_none_of_ne
        intro s hs loc_id hid
        obtain ⟨-, x, hx, hsx, -, -⟩ := hrest s hs
        rw [hsx]
        exact hother x hx loc_id hid
      rw [← List.append_assoc, siteAt_append, hnone, Option.none_or]
    have hthere : ∀ x ∈ locs,
        siteAt (alreadyMigrated ++ (new ++ rest)) x = siteAt (alreadyMigrated ++ rest) x := by
      intro x hx
      have hnone : siteAt new x = none := by
        apply siteAt_eq_none_of_ne
        intro s hs loc_id hid hsame
        obtain ⟨-, hsid, -, -⟩ := hnew s hs
        exact hother x hx loc_id (hsid.symm.trans hsame) hid
      rw [siteAt_append, siteAt_append, siteAt_append, hnone, Option.or_none]
    refine ⟨new ++ rest, ?_, fun s hs => ?_, ?_, fun x hx hid hnone => ?_⟩
    · rw [List.foldl_cons, hrows', hrows, List.append_assoc]
    · rcases List.mem_append.mp hs with hs | hs
      · obtain ⟨hclient, hsid⟩ := hnew s hs
        exact ⟨hclient, loc, List.mem_cons_self, hsid⟩
      · obtain ⟨hclient, x, hx, hsid⟩ := hrest s hs
        exact ⟨hclient, x, List.mem_cons_of_mem _ hx, hsid⟩
    · rw [List.foldl_cons, List.foldl_cons, hmap', hmap, foldl_setSite_congr hthere, setSite, setSite,
        hhere]
    · rcases List.mem_cons.mp hx with rfl | hx
      · rw [hhere] at hnone
        exact hleft hid hnone
      · rw [hthere x hx] at hnone
        exact hleft' x hx hid hnone

variable (newClient) in
/-- Where the locations without a site are left out, none is added. -/
theorem foldl_migrateSite_of_leftOut {locs : List LegacyModels.Location}
    (hleft : ∀ loc ∈ locs, (truthyString loc.loc_id).isSome = true →
      siteAt alreadyMigrated loc = none → isLeftOut legacy run loc = true) (st : SitesState) :
    (locs.foldl (migrateSite legacy run newClient alreadyMigrated) st).sites = st.sites ∧
      (locs.foldl (migrateSite legacy run newClient alreadyMigrated)
          st).legacyPrimaryKeyToNewSiteMap =
        locs.foldl (setSite alreadyMigrated) st.legacyPrimaryKeyToNewSiteMap := by
  induction locs generalizing st with
  | nil => exact ⟨rfl, rfl⟩
  | cons loc locs ih =>
    obtain ⟨hsites, hmap⟩ := ih (fun x hx => hleft x (List.mem_cons_of_mem _ hx))
      (migrateSite legacy run newClient alreadyMigrated st loc)
    rw [List.foldl_cons, List.foldl_cons, hsites, hmap]
    have hstep : (migrateSite legacy run newClient alreadyMigrated st loc).sites = st.sites ∧
        (migrateSite legacy run newClient alreadyMigrated st loc).legacyPrimaryKeyToNewSiteMap =
          setSite alreadyMigrated st.legacyPrimaryKeyToNewSiteMap loc := by
      cases hid : truthyString loc.loc_id with
      | none => simp [migrateSite, setSite, siteAt, hid]
      | some loc_id =>
        cases hfound : siteOf alreadyMigrated loc_id with
        | some s => simp [migrateSite, setSite, siteAt, hid, hfound]
        | none =>
          have hnone : siteAt alreadyMigrated loc = none := by rw [siteAt, hid]; exact hfound
          have hout := hleft loc List.mem_cons_self (by rw [hid]; rfl) hnone
          simp [migrateSite, setSite, hid, hfound, hnone, hout]
    exact ⟨hstep.1, by rw [hstep.2]⟩

end

theorem legacySites_ids : ((legacySites legacy legacyClient).filterMap (·.loc_id)).Nodup :=
  legacy.locationIds.1.sublist (List.filter_sublist.filterMap _)

section

variable {newClient : ClientBasic} {db : MigrationDb}

theorem alreadyMigratedSites_append {sites : Table SiteBasic String SiteBasic.id}
    {new : List SiteBasic} (hrows : sites.rows = db.sites.rows ++ new)
    (hnew : ∀ s ∈ new, isLegacyClients legacyClient db.clients s.clientId = true) :
    alreadyMigratedSites legacyClient { db with sites } =
      alreadyMigratedSites legacyClient db ++ new := by
  unfold alreadyMigratedSites
  rw [hrows, List.filter_append, List.filter_eq_self.mpr hnew]

variable (legacy run) in
/-- **After the sites are migrated**, every group is there, the map has the sites that are there, and
    a location without one was left out. -/
theorem migrateSites_spec (hclient : isLegacyClients legacyClient db.clients newClient.id = true) :
    ∃ sites, (migrateSites legacy legacyClient run newClient db).1 = { db with sites } ∧
      (∃ new, sites.rows = db.sites.rows ++ new) ∧
      (migrateSites legacy legacyClient run newClient db).2 =
        (legacySites legacy legacyClient).foldl
          (setSite (alreadyMigratedSites legacyClient { db with sites })) [] ∧
      (∀ g ∈ legacySiteGroups legacy legacyClient, ∀ group_id, g.group_id = some group_id →
        (siteGroupOf (alreadyMigratedSites legacyClient { db with sites }) group_id).isSome =
          true) ∧
      ∀ loc ∈ legacySites legacy legacyClient, (truthyString loc.loc_id).isSome = true →
        siteAt (alreadyMigratedSites legacyClient { db with sites }) loc = none →
          isLeftOut legacy run loc = true := by
  let alreadyMigrated := alreadyMigratedSites legacyClient db
  obtain ⟨groups, hrows, hmap, hgroups, hfound⟩ :=
    foldl_migrateSiteGroup run newClient alreadyMigrated (legacySiteGroups legacy legacyClient)
      { sites := db.sites }
  have hids : ((legacySites legacy legacyClient).filterMap (·.loc_id)).Nodup := legacySites_ids
  obtain ⟨new, hrows', hnew, hmap', hleft⟩ :=
    foldl_migrateSite legacy run newClient alreadyMigrated hids
      ((legacySiteGroups legacy legacyClient).foldl
        (migrateSiteGroup run newClient alreadyMigrated) { sites := db.sites })
  rw [hrows, List.append_assoc] at hrows'
  -- a group is nobody's site
  have hsame (loc : LegacyModels.Location) :
      siteAt (alreadyMigrated ++ (groups ++ new)) loc = siteAt (alreadyMigrated ++ new) loc := by
    have hnone : siteAt groups loc = none :=
      siteAt_eq_none_of_ne fun s hs _ _ => by simp [(hgroups s hs).2]
    rw [siteAt_append, siteAt_append, siteAt_append, hnone, Option.or_none]
  have hclients : ∀ s ∈ groups ++ new,
      isLegacyClients legacyClient db.clients s.clientId = true := by
    intro s hs
    rcases List.mem_append.mp hs with hs | hs
    · rw [(hgroups s hs).1]
      exact hclient
    · rw [(hnew s hs).1]
      exact hclient
  refine ⟨_, rfl, ⟨groups ++ new, hrows'⟩, ?_, fun g hg group_id hid => ?_,
    fun loc hloc hid hnone => ?_⟩
  · rw [hmap] at hmap'
    rw [alreadyMigratedSites_append hrows' hclients, foldl_setSite_congr fun loc _ => hsame loc]
    exact hmap'
  · have hne : group_id ≠ "" := by
      rintro rfl
      exact legacy.groupIds.2 g (List.mem_of_mem_filter hg) hid
    obtain ⟨s, hs, hsid⟩ := siteGroupOf_isSome.mp (hfound g hg group_id hid hne)
    rw [alreadyMigratedSites_append hrows' hclients]
    refine siteGroupOf_isSome.mpr ⟨s, ?_, hsid⟩
    rw [← List.append_assoc]
    exact List.mem_append_left _ hs
  · rw [alreadyMigratedSites_append hrows' hclients, hsame] at hnone
    exact hleft loc hloc hid hnone

/-- **Once more, no site is added** if what was left out is left out again. -/
theorem migrateSites_again
    (hfound : ∀ g ∈ legacySiteGroups legacy legacyClient, ∀ group_id, g.group_id = some group_id →
      (siteGroupOf (alreadyMigratedSites legacyClient db) group_id).isSome = true)
    (hleft : ∀ loc ∈ legacySites legacy legacyClient, (truthyString loc.loc_id).isSome = true →
      siteAt (alreadyMigratedSites legacyClient db) loc = none → isLeftOut legacy run loc = true) :
    migrateSites legacy legacyClient run newClient db =
      (db, (legacySites legacy legacyClient).foldl
        (setSite (alreadyMigratedSites legacyClient db)) []) := by
  obtain ⟨hsites, hmap⟩ := foldl_migrateSiteGroup_of_found run newClient hfound
    { sites := db.sites }
  obtain ⟨hsites', hmap'⟩ := foldl_migrateSite_of_leftOut newClient hleft
    ((legacySiteGroups legacy legacyClient).foldl (migrateSiteGroup run newClient
      (alreadyMigratedSites legacyClient db)) { sites := db.sites })
  rw [hsites] at hsites'
  rw [hmap] at hmap'
  refine Prod.ext ?_ hmap'
  show { db with sites := _ } = db
  rw [hsites']

end

/-! ## 3. What an asset writes -/

/-- What happens to the database while assets are migrated: clients and sites stay as they are, and
    assets and points are added to. -/
structure Grows (db db' : MigrationDb) : Prop where
  clients : db'.clients = db.clients
  sites : db'.sites = db.sites
  assets : ∃ new, db'.assets.rows = db.assets.rows ++ new
  points : ∃ new, db'.inspectionRoutePoints.rows = db.inspectionRoutePoints.rows ++ new

theorem Grows.refl (db : MigrationDb) : Grows db db := ⟨rfl, rfl, ⟨[], by simp⟩, ⟨[], by simp⟩⟩

theorem Grows.trans {db db' db'' : MigrationDb} (h : Grows db db') (h' : Grows db' db'') :
    Grows db db'' := by
  obtain ⟨assets, hassets⟩ := h.assets
  obtain ⟨assets', hassets'⟩ := h'.assets
  obtain ⟨points, hpoints⟩ := h.points
  obtain ⟨points', hpoints'⟩ := h'.points
  exact ⟨h'.clients.trans h.clients, h'.sites.trans h.sites,
    ⟨assets ++ assets', by rw [hassets', hassets, List.append_assoc]⟩,
    ⟨points ++ points', by rw [hpoints', hpoints, List.append_assoc]⟩⟩

section

variable {newClient : ClientBasic} {sites : List (Int × SiteBasic)} {st : AssetsState}

theorem db_foldl_loadDefaultInspectionRoute (routes : List InspectionRouteBasic)
    (st : AssetsState) : (routes.foldl loadDefaultInspectionRoute st).db = st.db := by
  induction routes generalizing st with
  | nil => rfl
  | cons route routes ih => exact ih (loadDefaultInspectionRoute st route)

variable (run newClient sites) in
/-- To have a default route takes a new route at most. -/
theorem db_getOrCreateDefaultInspectionRoute (st : AssetsState) (siteId : String) :
    ∃ inspectionRoutes, (getOrCreateDefaultInspectionRoute run newClient sites st siteId).1.db =
      { st.db with inspectionRoutes } := by
  unfold getOrCreateDefaultInspectionRoute
  cases hfound : st.defaultInspectionRoutesBySiteId.lookup siteId with
  | some route => exact ⟨_, rfl⟩
  | none =>
    have hloaded : (if st.defaultInspectionRoutesBySiteId.isEmpty then
        (st.db.inspectionRoutes.rows.filter fun route =>
          route.clientId = newClient.id && includesDefault route.name).foldl
            loadDefaultInspectionRoute st
        else st).db = st.db := by
      split
      · exact db_foldl_loadDefaultInspectionRoute _ _
      · rfl
    dsimp only
    generalize (if st.defaultInspectionRoutesBySiteId.isEmpty then _ else st) = loaded at hloaded ⊢
    cases loaded.defaultInspectionRoutesBySiteId.lookup siteId with
    | some route => exact ⟨_, hloaded⟩
    | none =>
      dsimp only
      rw [hloaded]
      exact ⟨_, rfl⟩

variable (run newClient sites) in
/-- **With the map not loaded yet, the asset gets a point**, whatever points it has. -/
theorem points_migrateRouteAssignment {assetId : String} (siteId : String) (order : Int)
    (h : st.assetIdToInspectionRoutePointMap.lookup assetId = none) :
    ∃ point inspectionRoutes inspectionRoutePoints,
      (migrateRouteAssignment run newClient sites st assetId siteId order).db =
          { st.db with inspectionRoutes, inspectionRoutePoints } ∧
        inspectionRoutePoints.rows = st.db.inspectionRoutePoints.rows ++ [point] := by
  obtain ⟨inspectionRoutes, hdb⟩ := db_getOrCreateDefaultInspectionRoute run newClient sites st
    siteId
  unfold migrateRouteAssignment
  rw [h]
  dsimp only
  rw [hdb]
  exact ⟨_, inspectionRoutes, _, rfl, Table.rows_create _ _ _ _⟩

variable (run newClient sites) in
theorem db_migratePlace (legacyAsset : LegacyModels.Asset) (asset : AssetBasic)
    (st : AssetsState) :
    ∃ inspectionRoutes inspectionRoutePoints,
      (migratePlace run newClient sites legacyAsset asset st).db =
          { st.db with inspectionRoutes, inspectionRoutePoints } ∧
        ∃ new, inspectionRoutePoints.rows = st.db.inspectionRoutePoints.rows ++ new := by
  unfold migratePlace
  cases legacyAsset.a_sort with
  | none => exact ⟨_, _, rfl, [], by simp⟩
  | some order =>
    cases hpoint : st.assetIdToInspectionRoutePointMap.lookup asset.id with
    | some point =>
      dsimp only
      rw [migrateRouteAssignment, hpoint]
      exact ⟨_, _, rfl, [], by simp⟩
    | none =>
      obtain ⟨point, routes, points, hdb, hrows⟩ := points_migrateRouteAssignment run
        newClient sites asset.siteId order hpoint
      exact ⟨routes, points, hdb, [point], hrows⟩

variable (legacy legacyClient run newClient sites) in
/-- What an asset that is not there writes: its product and its tag are looked up, and if there is a
    product then the asset is there. -/
theorem db_createAsset (equalsInsensitive : String → String → Bool) (st : AssetsState)
    (legacyAsset : LegacyModels.Asset) (a_id : String) (newSite : SiteBasic) :
    ∃ assets inspectionRoutes inspectionRoutePoints,
      (createAsset legacy legacyClient run equalsInsensitive newClient sites st legacyAsset a_id
          newSite).db =
        { st.db with
          catalog := (getOrMigrateProduct legacy legacyClient newClient equalsInsensitive run.ids
            (productSource legacy legacyAsset.a_p_no legacyAsset.a_cat_no) st.db.catalog).1
          tags := migrateTagOf legacy run legacyAsset newSite st.db.tags
          assets
          inspectionRoutes
          inspectionRoutePoints } ∧
      (∃ new, assets.rows = st.db.assets.rows ++ new) ∧
      (∃ new, inspectionRoutePoints.rows = st.db.inspectionRoutePoints.rows ++ new) ∧
      ((getOrMigrateProduct legacy legacyClient newClient equalsInsensitive run.ids
            (productSource legacy legacyAsset.a_p_no legacyAsset.a_cat_no)
            st.db.catalog).2 = none ∨
        ∃ x ∈ assets, x.legacyAssetId = some a_id ∧ x.clientId = newSite.clientId) := by
  cases hproduct : (getOrMigrateProduct legacy legacyClient newClient equalsInsensitive run.ids
      (productSource legacy legacyAsset.a_p_no legacyAsset.a_cat_no) st.db.catalog).2 with
  | none =>
    simp only [createAsset, hproduct]
    exact ⟨_, _, _, rfl, ⟨[], by simp⟩, ⟨[], by simp⟩, .inl trivial⟩
  | some product =>
    let created := st.db.assets.create run.ids
      (fun id => ({
        id
        legacyAssetId := some a_id
        productId := product.id
        siteId := newSite.id
        clientId := newSite.clientId } : AssetBasic)) fun _ => rfl
    obtain ⟨inspectionRoutes, inspectionRoutePoints, hdb, hpoints⟩ :=
      db_migratePlace run newClient sites legacyAsset created.2 { st with db := { st.db with
        catalog := (getOrMigrateProduct legacy legacyClient newClient equalsInsensitive run.ids
          (productSource legacy legacyAsset.a_p_no legacyAsset.a_cat_no) st.db.catalog).1
        tags := migrateTagOf legacy run legacyAsset newSite st.db.tags
        assets := created.1 } }
    have hrows : created.1.rows = st.db.assets.rows ++ [created.2] := Table.rows_create _ _ _ _
    simp only [createAsset, hproduct]
    refine ⟨created.1, inspectionRoutes, inspectionRoutePoints, hdb, ⟨_, hrows⟩, hpoints, .inr ?_⟩
    refine ⟨created.2, ?_, rfl, rfl⟩
    rw [← Table.mem_rows, hrows]
    exact List.mem_append_right _ (List.mem_singleton_self _)

/-- What an asset writes: places on routes, and where it is not there yet, also its product and its
    tag. -/
theorem db_migrateAsset {equalsInsensitive : String → String → Bool}
    {alreadyMigrated : List AssetBasic} (st : AssetsState) (legacyAsset : LegacyModels.Asset) :
    ∃ catalog tags assets inspectionRoutes inspectionRoutePoints,
      (migrateAsset legacy legacyClient run equalsInsensitive newClient sites alreadyMigrated st
          legacyAsset).db =
        { st.db with catalog, tags, assets, inspectionRoutes, inspectionRoutePoints } ∧
      (∃ new, assets.rows = st.db.assets.rows ++ new) ∧
      (∃ new, inspectionRoutePoints.rows = st.db.inspectionRoutePoints.rows ++ new) ∧
      (catalog = st.db.catalog ∧ tags = st.db.tags ∨
        ∃ newSite,
          catalog = (getOrMigrateProduct legacy legacyClient newClient equalsInsensitive run.ids
            (productSource legacy legacyAsset.a_p_no legacyAsset.a_cat_no) st.db.catalog).1 ∧
          tags = migrateTagOf legacy run legacyAsset newSite st.db.tags) := by
  have hnothing : ∃ new, st.db.assets.rows = st.db.assets.rows ++ new := ⟨[], by simp⟩
  unfold migrateAsset
  cases legacyAsset.a_id with
  | none => exact ⟨_, _, _, _, _, rfl, hnothing, ⟨[], by simp⟩, .inl ⟨rfl, rfl⟩⟩
  | some a_id =>
    cases hfound : assetOf alreadyMigrated a_id with
    | some newAsset =>
      obtain ⟨_, _, hdb, hpoints⟩ := db_migratePlace run newClient sites legacyAsset newAsset st
      simp only [hfound]
      exact ⟨_, _, _, _, _, hdb, hnothing, hpoints, .inl ⟨rfl, rfl⟩⟩
    | none =>
      cases hsite : legacyAsset.a_loc_no.bind (sites.lookup ·) with
      | none =>
        simp only [hfound]
        exact ⟨_, _, _, _, _, rfl, hnothing, ⟨[], by simp⟩, .inl ⟨rfl, rfl⟩⟩
      | some newSite =>
        obtain ⟨_, _, _, hdb, hassets, hpoints, -⟩ := db_createAsset legacy legacyClient run
          newClient sites equalsInsensitive st legacyAsset a_id newSite
        simp only [hfound]
        exact ⟨_, _, _, _, _, hdb, hassets, hpoints, .inr ⟨newSite, rfl, rfl⟩⟩

/-- An asset adds to the database. -/
theorem grows_migrateAsset {equalsInsensitive : String → String → Bool}
    {alreadyMigrated : List AssetBasic} (st : AssetsState) (legacyAsset : LegacyModels.Asset) :
    Grows st.db (migrateAsset legacy legacyClient run equalsInsensitive newClient sites
      alreadyMigrated st legacyAsset).db := by
  obtain ⟨_, _, _, _, _, hdb, hassets, hpoints, -⟩ := db_migrateAsset st legacyAsset
  rw [hdb]
  exact ⟨rfl, rfl, hassets, hpoints⟩

theorem alreadyMigratedSites_of_grows {db db' : MigrationDb} (h : Grows db db') :
    alreadyMigratedSites legacyClient db' = alreadyMigratedSites legacyClient db := by
  rw [alreadyMigratedSites, h.clients, h.sites]
  rfl

theorem alreadyMigratedAssets_mono {db db' : MigrationDb} (h : Grows db db') {x : AssetBasic}
    (hx : x ∈ alreadyMigratedAssets legacyClient db) : x ∈ alreadyMigratedAssets legacyClient db' := by
  obtain ⟨new, hrows⟩ := h.assets
  obtain ⟨hmem, hclient⟩ := List.mem_filter.mp hx
  refine List.mem_filter.mpr ⟨?_, by rwa [h.clients]⟩
  rw [hrows]
  exact List.mem_append_left _ hmem

end

/-! ## 4. An asset that there is nothing left to do about -/

section

variable {equalsInsensitive : String → String → Bool} {newClient : ClientBasic}
  {sites : List (Int × SiteBasic)} {alreadyMigrated : List AssetBasic} {st : AssetsState}

variable (legacy legacyClient newClient equalsInsensitive sites) in
/-- It is there, or there is no site for it, or no product comes of it and its tag has been looked
    up. -/
def AssetSettled (db : MigrationDb) (a : LegacyModels.Asset) : Prop :=
  ∀ a_id, a.a_id = some a_id →
    (∃ x ∈ alreadyMigratedAssets legacyClient db, x.legacyAssetId = some a_id) ∨
      ∀ newSite, a.a_loc_no.bind (sites.lookup ·) = some newSite →
        Skipped legacy legacyClient newClient equalsInsensitive
          (productSource legacy a.a_p_no a.a_cat_no) db.catalog ∧
        ∀ a_t_no, a.a_t_no = some a_t_no →
          ∃ tag, Done (tagOf legacy newSite a_t_no) db.tags.rows tag

/-- **What is settled stays so** while other assets are migrated. -/
theorem AssetSettled.migrateAsset {a : LegacyModels.Asset}
    (h : AssetSettled legacy legacyClient equalsInsensitive newClient sites st.db a)
    (b : LegacyModels.Asset) :
    AssetSettled legacy legacyClient equalsInsensitive newClient sites
      (LegacyMigrationService.migrateAsset legacy legacyClient run equalsInsensitive newClient sites
        alreadyMigrated st b).db a := by
  intro a_id hid
  rcases h a_id hid with ⟨x, hx, hxid⟩ | hskipped
  · exact .inl ⟨x, alreadyMigratedAssets_mono (grows_migrateAsset st b) hx, hxid⟩
  · refine .inr fun newSite hsite => ?_
    obtain ⟨hproduct, htag⟩ := hskipped newSite hsite
    obtain ⟨_, _, _, _, _, hdb, -, -, hwrites⟩ := db_migrateAsset st b
    rw [hdb]
    rcases hwrites with ⟨rfl, rfl⟩ | ⟨otherSite, rfl, rfl⟩
    · exact ⟨hproduct, htag⟩
    · refine ⟨hproduct.getOrMigrateProduct (productSource_of _ _) (productSource_of _ _),
        fun a_t_no hno => ?_⟩
      obtain ⟨tag, hdone⟩ := htag a_t_no hno
      refine ⟨tag, ?_⟩
      unfold migrateTagOf
      cases b.a_t_no with
      | none => exact hdone
      | some b_t_no => exact hdone.runOption tagOf_apart run.ids

/-- **An asset is settled once it was migrated.** -/
theorem assetSettled_migrateAsset
    (halready : ∀ x ∈ alreadyMigrated, x ∈ alreadyMigratedAssets legacyClient st.db)
    (hsites : ∀ no s, sites.lookup no = some s →
      isLegacyClients legacyClient st.db.clients s.clientId = true) (a : LegacyModels.Asset) :
    AssetSettled legacy legacyClient equalsInsensitive newClient sites
      (migrateAsset legacy legacyClient run equalsInsensitive newClient sites alreadyMigrated st
        a).db a := by
  intro a_id hid
  have hgrows : Grows st.db (migrateAsset legacy legacyClient run equalsInsensitive newClient sites
      alreadyMigrated st a).db := grows_migrateAsset st a
  cases hfound : assetOf alreadyMigrated a_id with
  | some newAsset =>
    have hmem := List.mem_reverse.mp (List.mem_of_find?_eq_some hfound)
    exact .inl ⟨newAsset, alreadyMigratedAssets_mono hgrows (halready newAsset hmem),
      by simpa using List.find?_some hfound⟩
  | none =>
    cases hsite : a.a_loc_no.bind (sites.lookup ·) with
    | none => exact .inr fun newSite h => absurd h (by simp)
    | some newSite =>
      have hstep : migrateAsset legacy legacyClient run equalsInsensitive newClient sites
          alreadyMigrated st a =
        createAsset legacy legacyClient run equalsInsensitive newClient sites st a a_id newSite := by
        simp only [migrateAsset, hid, hfound, hsite]
      obtain ⟨assets, _, _, hdb, -, -, hresult⟩ := db_createAsset legacy legacyClient run newClient
        sites equalsInsensitive st a a_id newSite
      rw [hstep, hdb] at hgrows ⊢
      rcases hresult with hnone | ⟨x, hx, hxid, hclient⟩
      · refine .inr fun s hs => ?_
        obtain rfl := Option.some.inj hs
        have hout := getOrMigrateProduct_outcome legacy legacyClient newClient equalsInsensitive
          run.ids (productSource legacy a.a_p_no a.a_cat_no) st.db.catalog
        rw [hnone] at hout
        refine ⟨hout.skipped, fun a_t_no hno => ?_⟩
        rw [migrateTagOf, hno]
        exact ⟨_, done_runOption _ _ _⟩
      · obtain ⟨no, -, hlookup⟩ := Option.bind_eq_some_iff.mp hsite
        refine .inl ⟨x, List.mem_filter.mpr ⟨hx, ?_⟩, hxid⟩
        rw [hclient]
        exact hsites no newSite hlookup

variable (legacy run equalsInsensitive newClient) in
/-- The loop over the assets leaves all of them settled. -/
theorem foldl_migrateAsset_settled (done assets : List LegacyModels.Asset) (st : AssetsState)
    (halready : ∀ x ∈ alreadyMigrated, x ∈ alreadyMigratedAssets legacyClient st.db)
    (hsites : ∀ no s, sites.lookup no = some s →
      isLegacyClients legacyClient st.db.clients s.clientId = true)
    (hdone : ∀ a ∈ done,
      AssetSettled legacy legacyClient equalsInsensitive newClient sites st.db a) :
    Grows st.db (assets.foldl (migrateAsset legacy legacyClient run equalsInsensitive newClient
        sites alreadyMigrated) st).db ∧
      ∀ a ∈ done ++ assets, AssetSettled legacy legacyClient equalsInsensitive newClient sites
        (assets.foldl (migrateAsset legacy legacyClient run equalsInsensitive newClient sites
          alreadyMigrated) st).db a := by
  induction assets generalizing done st with
  | nil => exact ⟨.refl _, by simpa using hdone⟩
  | cons b assets ih =>
    have hgrows : Grows st.db (migrateAsset legacy legacyClient run equalsInsensitive newClient sites
        alreadyMigrated st b).db := grows_migrateAsset st b
    have hdone' : ∀ a ∈ done ++ [b],
        AssetSettled legacy legacyClient equalsInsensitive newClient sites
          (migrateAsset legacy legacyClient run equalsInsensitive newClient sites alreadyMigrated st
            b).db a := by
      intro a ha
      rcases List.mem_append.mp ha with ha | ha
      · exact (hdone a ha).migrateAsset b
      · rw [List.mem_singleton.mp ha]
        exact assetSettled_migrateAsset halready hsites b
    obtain ⟨hrest, hsettled⟩ := ih (done ++ [b]) _
      (fun x hx => alreadyMigratedAssets_mono hgrows (halready x hx))
      (fun no s hs => by rw [hgrows.clients]; exact hsites no s hs) hdone'
    refine ⟨hgrows.trans hrest, fun a ha => hsettled a ?_⟩
    simpa [or_assoc] using ha

/-- An asset that is there, and has a place in the order. -/
def IsOrdered (legacyClient : LegacyModels.Client) (db : MigrationDb) (a : LegacyModels.Asset) :
    Prop :=
  a.a_sort.isSome = true ∧
    ∃ a_id, a.a_id = some a_id ∧ (assetOf (alreadyMigratedAssets legacyClient db) a_id).isSome = true

/-- **There is nothing left to do about an asset that is settled**, unless it has a place in the
    order. -/
theorem migrateAsset_of_settled {a : LegacyModels.Asset}
    (h : AssetSettled legacy legacyClient equalsInsensitive newClient sites st.db a)
    (hordered : ¬ IsOrdered legacyClient st.db a) :
    migrateAsset legacy legacyClient run equalsInsensitive newClient sites
      (alreadyMigratedAssets legacyClient st.db) st a = st := by
  unfold migrateAsset
  cases hid : a.a_id with
  | none => rfl
  | some a_id =>
    cases hfound : assetOf (alreadyMigratedAssets legacyClient st.db) a_id with
    | some newAsset =>
      cases hsort : a.a_sort with
      | none => simp only [hfound, migratePlace, hsort]
      | some order => exact absurd ⟨by rw [hsort]; rfl, a_id, hid, by rw [hfound]; rfl⟩ hordered
    | none =>
      cases hsite : a.a_loc_no.bind (sites.lookup ·) with
      | none => simp only [hfound]
      | some newSite =>
        rcases h a_id hid with ⟨x, hx, hxid⟩ | hskipped
        · exact absurd (by simpa using hxid)
            (List.find?_eq_none.mp hfound x (List.mem_reverse.mpr hx))
        · obtain ⟨hproduct, htag⟩ := hskipped newSite hsite
          have htags : migrateTagOf legacy run a newSite st.db.tags = st.db.tags := by
            unfold migrateTagOf
            cases hno : a.a_t_no with
            | none => rfl
            | some a_t_no =>
              obtain ⟨tag, hdone⟩ := htag a_t_no hno
              dsimp only
              rw [getOrMigrateTag, runOption_of_done hdone]
          simp only [hfound, createAsset, htags, getOrMigrateProduct_of_skipped hproduct]

/-! ## 5. The second run -/

variable (st) in
/-- Over settled assets, the loop writes nothing if none has a place in the order. -/
theorem foldl_migrateAsset_of_settled {assets : List LegacyModels.Asset}
    (h : ∀ a ∈ assets,
      AssetSettled legacy legacyClient equalsInsensitive newClient sites st.db a)
    (hordered : ∀ a ∈ assets, ¬ IsOrdered legacyClient st.db a) :
    assets.foldl (migrateAsset legacy legacyClient run equalsInsensitive newClient sites
      (alreadyMigratedAssets legacyClient st.db)) st = st := by
  induction assets with
  | nil => rfl
  | cons a assets ih =>
    rw [List.foldl_cons, migrateAsset_of_settled (h a List.mem_cons_self)
      (hordered a List.mem_cons_self)]
    exact ih (fun b hb => h b (List.mem_cons_of_mem _ hb)) fun b hb =>
      hordered b (List.mem_cons_of_mem _ hb)

variable (legacy legacyClient run equalsInsensitive newClient sites alreadyMigrated) in
theorem grows_foldl_migrateAsset (assets : List LegacyModels.Asset) (st : AssetsState) :
    Grows st.db (assets.foldl (migrateAsset legacy legacyClient run equalsInsensitive newClient
      sites alreadyMigrated) st).db := by
  induction assets generalizing st with
  | nil => exact .refl _
  | cons a assets ih => exact (grows_migrateAsset st a).trans (ih _)

/-- **The first of them that has one gets a point.** -/
theorem foldl_migrateAsset_of_ordered {db : MigrationDb} {assets : List LegacyModels.Asset}
    (h : ∀ a ∈ assets, AssetSettled legacy legacyClient equalsInsensitive newClient sites db a)
    {a : LegacyModels.Asset} (ha : a ∈ assets) (hordered : IsOrdered legacyClient db a) :
    (assets.foldl (migrateAsset legacy legacyClient run equalsInsensitive newClient sites
      (alreadyMigratedAssets legacyClient db)) { db }).db ≠ db := by
  induction assets with
  | nil => exact absurd ha List.not_mem_nil
  | cons b assets ih =>
    rw [List.foldl_cons]
    by_cases hb : IsOrdered legacyClient db b
    · -- its point is one more than there were, and none is ever taken away
      obtain ⟨hsort, a_id, hid, hfound⟩ := hb
      obtain ⟨order, hsort⟩ := Option.isSome_iff_exists.mp hsort
      obtain ⟨newAsset, hfound⟩ := Option.isSome_iff_exists.mp hfound
      have hstep : migrateAsset legacy legacyClient run equalsInsensitive newClient sites
          (alreadyMigratedAssets legacyClient db) { db } b =
            migrateRouteAssignment run newClient sites { db } newAsset.id newAsset.siteId order := by
        simp only [migrateAsset, hid, hfound, migratePlace, hsort]
      have hempty : ({ db } : AssetsState).assetIdToInspectionRoutePointMap.lookup newAsset.id =
          none := rfl
      obtain ⟨point, routes, points, hdb, hpoints⟩ :=
        points_migrateRouteAssignment run newClient sites newAsset.siteId order hempty
      obtain ⟨new, hnew⟩ := (grows_foldl_migrateAsset legacy legacyClient run
        equalsInsensitive newClient sites (alreadyMigratedAssets legacyClient db) assets
        (migrateRouteAssignment run newClient sites { db } newAsset.id newAsset.siteId order)).points
      rw [hdb] at hnew
      intro heq
      rw [hstep] at heq
      rw [heq] at hnew
      have hlength := congrArg List.length (hnew.trans (congrArg (· ++ new) hpoints))
      simp at hlength
    · have hrest : a ∈ assets := by
        rcases List.mem_cons.mp ha with rfl | ha
        · exact absurd hordered hb
        · exact ha
      have hstep : migrateAsset legacy legacyClient run equalsInsensitive newClient sites
          (alreadyMigratedAssets legacyClient db) { db } b = { db } :=
        migrateAsset_of_settled (h b List.mem_cons_self) hb
      rw [hstep]
      exact ih (fun x hx => h x (List.mem_cons_of_mem _ hx)) hrest

end

/-- The map has sites that are there. -/
theorem mem_foldl_setSite {l : List SiteBasic} {locs : List LegacyModels.Location}
    {sites : List (Int × SiteBasic)} {p : Int × SiteBasic}
    (hp : p ∈ locs.foldl (setSite l) sites) : p ∈ sites ∨ p.2 ∈ l := by
  induction locs generalizing sites with
  | nil => exact .inl hp
  | cons loc locs ih =>
    rcases ih hp with hp | hp
    · unfold setSite at hp
      cases hsite : siteAt l loc with
      | none =>
        rw [hsite] at hp
        exact .inl hp
      | some s =>
        rw [hsite] at hp
        rcases List.mem_cons.mp hp with rfl | hp
        · obtain ⟨loc_id, -, hfound⟩ := Option.bind_eq_some_iff.mp hsite
          exact .inr (List.mem_reverse.mp (List.mem_of_find?_eq_some hfound))
        · exact .inl hp
    · exact .inr hp

/-- They are the client's. -/
theorem isLegacyClients_of_lookup {db : MigrationDb} {locs : List LegacyModels.Location} {no : Int}
    {s : SiteBasic}
    (hs : (locs.foldl (setSite (alreadyMigratedSites legacyClient db)) []).lookup no = some s) :
    isLegacyClients legacyClient db.clients s.clientId = true := by
  obtain ⟨before, after, heq, -⟩ := List.lookup_eq_some_iff.mp hs
  have hp : (no, s) ∈ locs.foldl (setSite (alreadyMigratedSites legacyClient db)) [] := by
    rw [heq]
    exact List.mem_append_right _ List.mem_cons_self
  rcases mem_foldl_setSite hp with hp | hp
  · exact absurd hp List.not_mem_nil
  · exact (List.mem_filter.mp hp).2

section

variable {equalsInsensitive : String → String → Bool} {run' : MigrationRun}
  {db db₁ : MigrationDb}

variable (legacy legacyClient) in
/-- Whoever runs the migration gives no name to a site that was left out. -/
def LeavesOutAgain (run : MigrationRun) (db : MigrationDb) : Prop :=
  ∀ loc ∈ legacySites legacy legacyClient, (truthyString loc.loc_id).isSome = true →
    siteAt (alreadyMigratedSites legacyClient db) loc = none → isLeftOut legacy run loc = true

/-- **What a run leaves behind**: a client that is found, every site group, every site it did not
    leave out, and nothing left to do about any asset. -/
theorem processMigration_spec
    (h : processMigration legacy legacyClient run equalsInsensitive db = some db₁) :
    ∃ newClient, newClient ∈ db₁.clients ∧
      db₁.clients.rows.find? (·.legacyClientId = legacyClient.c_id) = some newClient ∧
      (∀ g ∈ legacySiteGroups legacy legacyClient, ∀ group_id, g.group_id = some group_id →
        (siteGroupOf (alreadyMigratedSites legacyClient db₁) group_id).isSome = true) ∧
      LeavesOutAgain legacy legacyClient run db₁ ∧
      ∀ a ∈ legacyAssets legacy legacyClient,
        AssetSettled legacy legacyClient equalsInsensitive newClient
          ((legacySites legacy legacyClient).foldl
            (setSite (alreadyMigratedSites legacyClient db₁)) []) db₁ a := by
  obtain ⟨⟨dbClient, newClient⟩, hclient, rfl⟩ := Option.map_eq_some_iff.mp h
  have hfound := migrateClient_eq_some hclient
  have hmem : newClient ∈ dbClient.clients := List.mem_of_find?_eq_some hfound
  have hbelongs : isLegacyClients legacyClient dbClient.clients newClient.id = true :=
    isLegacyClients_of_mem hmem (by simpa using List.find?_some hfound)
  obtain ⟨sites, hdb, -, hmap, hgroups, hleft⟩ :=
    migrateSites_spec legacy run hbelongs
  dsimp only
  rw [hdb, hmap]
  obtain ⟨hgrows, hsettled⟩ := foldl_migrateAsset_settled legacy run equalsInsensitive newClient []
    (legacyAssets legacy legacyClient) { db := { dbClient with sites } } (fun x hx => hx)
    (fun _ _ hs => isLegacyClients_of_lookup hs) fun a ha => absurd ha List.not_mem_nil
  have hclients : (migrateAssets legacy legacyClient run equalsInsensitive newClient
      ((legacySites legacy legacyClient).foldl
        (setSite (alreadyMigratedSites legacyClient { dbClient with sites })) [])
      { dbClient with sites }).clients = dbClient.clients := hgrows.clients
  have hsites : alreadyMigratedSites legacyClient (migrateAssets legacy legacyClient run
      equalsInsensitive newClient ((legacySites legacy legacyClient).foldl
        (setSite (alreadyMigratedSites legacyClient { dbClient with sites })) [])
      { dbClient with sites }) = alreadyMigratedSites legacyClient { dbClient with sites } :=
    alreadyMigratedSites_of_grows hgrows
  rw [LeavesOutAgain, hsites, hclients]
  exact ⟨newClient, hmem, hfound, hgroups, hleft, hsettled⟩

/-- **With the same answers, nothing else is left out.** -/
theorem leavesOutAgain_of_same_answers
    (h : processMigration legacy legacyClient run equalsInsensitive db = some db₁)
    (hanswers : run'.siteName = run.siteName) : LeavesOutAgain legacy legacyClient run' db₁ := by
  obtain ⟨-, -, -, -, hleft, -⟩ := processMigration_spec h
  intro loc hloc hid hnone
  rw [isLeftOut, siteName, hanswers]
  exact hleft loc hloc hid hnone

/-- What a second run does, client and sites being there. -/
theorem processMigration_again
    (h : processMigration legacy legacyClient run equalsInsensitive db = some db₁)
    (hcontinues : run'.continues = true) :
    ∃ newClient sites,
      processMigration legacy legacyClient run' equalsInsensitive db₁ =
        some (migrateAssets legacy legacyClient run' equalsInsensitive newClient
          (migrateSites legacy legacyClient run' newClient db₁).2 { db₁ with sites }) ∧
      (sites = db₁.sites ↔ LeavesOutAgain legacy legacyClient run' db₁) ∧
      (LeavesOutAgain legacy legacyClient run' db₁ →
        ∀ a ∈ legacyAssets legacy legacyClient,
          AssetSettled legacy legacyClient equalsInsensitive newClient
            (migrateSites legacy legacyClient run' newClient db₁).2 db₁ a) := by
  obtain ⟨newClient, hmem, hfound, hgroups, -, hsettled⟩ := processMigration_spec h
  have hbelongs : isLegacyClients legacyClient db₁.clients newClient.id = true :=
    isLegacyClients_of_mem hmem (by simpa using List.find?_some hfound)
  have hclient : migrateClient legacyClient run' db₁ = some (db₁, newClient) := by
    rw [migrateClient, hfound]
    exact if_pos hcontinues
  obtain ⟨sites, hdb, -, -, -, hleft⟩ :=
    migrateSites_spec legacy run' hbelongs
  refine ⟨newClient, sites, ?_, ⟨fun hsites => ?_, fun hagain => ?_⟩, fun hagain => ?_⟩
  · rw [processMigration, hclient, ← hdb]
    rfl
  · rw [hsites] at hleft
    exact hleft
  · rw [migrateSites_again hgroups hagain] at hdb
    exact (congrArg MigrationDb.sites hdb).symm
  · rw [migrateSites_again hgroups hagain]
    exact hsettled

end

end LegacyMigrationService

open LegacyMigrationService in
/-- **A second run writes nothing exactly if** it gives no name to a site that was left out, and no
    asset that is there has a place in the order. -/
theorem migration_idempotent_iff {legacy : LegacyDb} {legacyClient : LegacyModels.Client}
    {equalsInsensitive : String → String → Bool} {run run' : MigrationRun} {db db₁ : MigrationDb}
    (h : processMigration legacy legacyClient run equalsInsensitive db = some db₁)
    (hcontinues : run'.continues = true) :
    processMigration legacy legacyClient run' equalsInsensitive db₁ = some db₁ ↔
      LeavesOutAgain legacy legacyClient run' db₁ ∧
        ∀ a ∈ legacyAssets legacy legacyClient, ¬ IsOrdered legacyClient db₁ a := by
  obtain ⟨newClient, sites, hrun, hsites, hsettled⟩ := processMigration_again h hcontinues
  rw [hrun, Option.some.injEq]
  constructor
  · intro heq
    have hgrows := grows_foldl_migrateAsset legacy legacyClient run' equalsInsensitive newClient
      (migrateSites legacy legacyClient run' newClient db₁).2
      (alreadyMigratedAssets legacyClient { db₁ with sites }) (legacyAssets legacy legacyClient)
      { db := { db₁ with sites } }
    have hsame : sites = db₁.sites := by
      have hout : (migrateAssets legacy legacyClient run' equalsInsensitive newClient
        (migrateSites legacy legacyClient run' newClient db₁).2 { db₁ with sites }).sites = sites :=
          hgrows.sites
      rw [← hout, heq]
    have hagain := hsites.mp hsame
    refine ⟨hagain, fun a ha hordered => ?_⟩
    subst hsame
    exact foldl_migrateAsset_of_ordered (hsettled hagain) ha hordered heq
  · rintro ⟨hagain, hordered⟩
    obtain rfl := hsites.mpr hagain
    have hloop : (legacyAssets legacy legacyClient).foldl
        (migrateAsset legacy legacyClient run' equalsInsensitive newClient
          (migrateSites legacy legacyClient run' newClient db₁).2
          (alreadyMigratedAssets legacyClient db₁)) { db := db₁ } = { db := db₁ } :=
      foldl_migrateAsset_of_settled { db := db₁ } (hsettled hagain) hordered
    exact congrArg AssetsState.db hloop

/-! ## 6. Two clients with one asset -/

/-- An asset with a place in the order. -/
def orderedAsset : LegacyDb where
  locations := [{ loc_no := 1, loc_id := some "l", loc_c_no := some 7, loc_name := some "Plant" }]
  assets := [{ a_no := 1, a_id := some "a", a_loc_no := some 1, a_p_no := some 1, a_sort := some 1 }]
  products := [{ p_no := 1, p_id := some "p", p_mfg_no := some 1, p_cat_no := some 1 }]
  category := [{ cat_no := 1, cat_id := some "c" }]
  manufacturers := [{ mfg_no := 1, mfg_id := some "m" }]

/-- An asset without one. -/
def unorderedAsset : LegacyDb where
  locations := [{ loc_no := 1, loc_id := some "l", loc_c_no := some 7, loc_name := some "Depot" }]
  assets := [{ a_no := 1, a_id := some "b", a_loc_no := some 1, a_p_no := some 1 }]
  products := [{ p_no := 1, p_id := some "q", p_mfg_no := some 1, p_cat_no := some 1 }]
  category := [{ cat_no := 1, cat_id := some "d" }]
  manufacturers := [{ mfg_no := 1, mfg_id := some "n" }]

/-- Whoever runs it goes on, and leaves nameless sites without a name. -/
def plainRun : MigrationRun where
  ids := .longer
  continues := true
  siteName _ := ""

def migrateSeven (legacy : LegacyDb) (db : MigrationDb) : Option MigrationDb :=
  LegacyMigrationService.processMigration legacy { c_no := 7, c_id := some "seven" } plainRun
    (fun s t => s = t) db

/-- The second run gives the asset a second point on its route. -/
theorem secondMigration_addsPoint :
    ∃ db₁, migrateSeven orderedAsset {} = some db₁ ∧
      migrateSeven orderedAsset db₁ ≠ some db₁ := by
  have hfirst : (migrateSeven orderedAsset {}).map (·.inspectionRoutePoints.rows.length) = some 1 :=
    by decide
  have hsecond : ((migrateSeven orderedAsset {}).bind (migrateSeven orderedAsset)).map
      (·.inspectionRoutePoints.rows.length) = some 2 := by
    decide
  obtain ⟨db₁, hrun, hpoints⟩ := Option.map_eq_some_iff.mp hfirst
  rw [hrun, Option.bind_some] at hsecond
  refine ⟨db₁, hrun, fun hagain => ?_⟩
  rw [hagain, Option.map_some, hpoints] at hsecond
  exact absurd hsecond (by decide)

open LegacyMigrationService in
theorem unorderedAsset_idempotent :
    ∃ db₁, migrateSeven unorderedAsset {} = some db₁ ∧
      migrateSeven unorderedAsset db₁ = some db₁ := by
  have hdone : (migrateSeven unorderedAsset {}).isSome = true := by decide
  have hunordered : ∀ a ∈ unorderedAsset.assets, a.a_sort = none := by decide
  obtain ⟨db₁, hrun⟩ := Option.isSome_iff_exists.mp hdone
  refine ⟨db₁, hrun, (migration_idempotent_iff hrun rfl).mpr
    ⟨leavesOutAgain_of_same_answers hrun rfl, ?_⟩⟩
  rintro a ha ⟨hsort, -⟩
  rw [hunordered a (List.mem_of_mem_filter ha)] at hsort
  cases hsort

end ShieldApi
