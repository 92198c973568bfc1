import ShieldApi.Clients.AccessCommits
import ShieldApi.Lib.Paging

/-!
# Whole runs of the access import

`runSync` of `auth/keycloak/keycloak-access-sync.service.ts` imports every user of Keycloak, page
by page, and passes over one whose import throws. What it amounts to can be said without the
loop: `Synced wants db db'`, **the rows there were, then the rows Keycloak wants**, primary for a
person who had none. Two imports compose (`Synced.trans`) because no two users are one person.

Keycloak answers from one list of users all through a run, and the ids of new persons are new.
-/

set_option autoImplicit false

namespace ShieldApi

open Effect

/-! ## 1. The run -/

/-- A subgroup of the managed group, with the first value of its `shield_role_id`. -/
structure RoleSubgroup where
  id : Option String := none
  shieldRoleId : Option String := none

structure KeycloakRealm where
  managedRoleSubgroups : List RoleSubgroup
  users : List KeycloakUser
  /-- `none` where the request fails. -/
  listUserGroups : String → Option (List (Option String))
  userIds : (users.filterMap fun user => truthy user.id).Nodup

namespace KeycloakAccessSyncService

/-- `Map.set`: of two entries for a group the later one counts. -/
def buildRoleMap (db : Db) (subgroups : List RoleSubgroup) : List (String × String) :=
  subgroups.foldl (fun roleMap group =>
    match truthy group.shieldRoleId, truthy group.id with
    | some shieldRoleId, some groupId =>
      match db.roles.find? shieldRoleId with
      | some dbRole => (groupId, dbRole.id) :: roleMap
      | none => roleMap
    | _, _ => roleMap) []

def buildSyncMaps (realm : KeycloakRealm) (db : Db) : SyncMaps where
  roleMap := buildRoleMap db realm.managedRoleSubgroups
  clientMap := (db.clients.rows.map fun c => (c.externalId, c.id)).reverse
  siteMap := (db.sites.rows.map fun s => (s.externalId, s.id)).reverse

/-- A round of the loop: `syncUser` in its `try`. A user without an id belongs to no group that
    anybody asks for. -/
def syncRound (realm : KeycloakRealm) (maps : SyncMaps) (env : KeycloakUser → Env) (w : World)
    (user : KeycloakUser) : World :=
  match (truthy user.id).bind realm.listUserGroups with
  | some userGroups => (syncUser (env user) user maps userGroups).after w
  | none => w

def runSync (realm : KeycloakRealm) (env : KeycloakUser → Env) : Api Unit := do
  let maps ← query fun w => buildSyncMaps realm w.db
  if maps.roleMap.isEmpty then pure ()
  else write fun w =>
    foldPages 100 (Nat.succ_pos 99) (syncRound realm maps env) realm.users 0 w

variable {realm : KeycloakRealm} {maps : SyncMaps} {env : KeycloakUser → Env}
  {user : KeycloakUser} {userId clientId siteId : String} {roleIds : List String}

/-- The import of the user comes to its transaction, with these. -/
structure Arrives (realm : KeycloakRealm) (maps : SyncMaps) (user : KeycloakUser)
    (userId clientId siteId : String) (roleIds : List String) : Prop where
  named : Named user maps userId clientId siteId
  groups : ∃ userGroups, realm.listUserGroups userId = some userGroups ∧
    matchingRoleIds maps userGroups = roleIds
  some_role : roleIds ≠ []

theorem Arrives.unique {userId' clientId' siteId' : String} {roleIds' : List String}
    (h : Arrives realm maps user userId clientId siteId roleIds)
    (h' : Arrives realm maps user userId' clientId' siteId' roleIds') :
    userId' = userId ∧ clientId' = clientId ∧ siteId' = siteId ∧ roleIds' = roleIds := by
  obtain ⟨rfl, rfl, rfl⟩ := h.named.unique h'.named
  obtain ⟨groups, hgroups, rfl⟩ := h.groups
  obtain ⟨groups', hgroups', rfl⟩ := h'.groups
  rw [hgroups] at hgroups'
  exact ⟨rfl, rfl, rfl, by rw [Option.some.inj hgroups']⟩

theorem syncRound_of_arrives (h : Arrives realm maps user userId clientId siteId roleIds)
    (w : World) : syncRound realm maps env w user =
      (transaction (syncTransaction (env user) user userId clientId siteId roleIds)).after w := by
  obtain ⟨groups, hgroups, rfl⟩ := h.groups
  have hne : (matchingRoleIds maps groups).isEmpty = false := by
    rw [List.isEmpty_eq_false_iff]
    exact h.some_role
  rw [syncRound, h.named.identified, Option.bind_some, hgroups]
  dsimp only
  rw [syncUser_named h.named, hne, if_neg Bool.false_ne_true]

theorem syncRound_of_not (h : ∀ userId clientId siteId roleIds,
    ¬ Arrives realm maps user userId clientId siteId roleIds) (w : World) :
    syncRound realm maps env w user = w := by
  unfold syncRound
  cases hgroups : (truthy user.id).bind realm.listUserGroups with
  | none => rfl
  | some groups =>
    obtain ⟨userId, huser, hgroups⟩ := Option.bind_eq_some_iff.mp hgroups
    by_cases hnamed : ∃ userId clientId siteId, Named user maps userId clientId siteId
    · obtain ⟨userId', clientId, siteId, hnamed⟩ := hnamed
      obtain rfl := Option.some.inj (huser.symm.trans hnamed.identified)
      have hempty : matchingRoleIds maps groups = [] := by
        by_contra hne
        exact h userId clientId siteId _ ⟨hnamed, ⟨groups, hgroups, rfl⟩, hne⟩
      dsimp only
      rw [syncUser_named hnamed, hempty]
      rfl
    · push Not at hnamed
      dsimp only
      rw [syncUser_unnamed hnamed]
      rfl

/-! ## 2. The person of a user -/

/-- The person who has the identity. -/
def personOf (db : Db) (idpId : String) : Option Person :=
  db.persons.rows.find? (·.idpId = some idpId)

/-- A person, with what Keycloak gives of them. -/
def refreshed (user : KeycloakUser) (p : Person) : Person :=
  { p with
    firstName := user.firstName.getD p.firstName
    lastName := user.lastName.getD p.lastName
    email := user.email.getD p.email }

theorem refreshed_id (user : KeycloakUser) (p : Person) : (refreshed user p).id = p.id := rfl

theorem refreshed_refreshed (user : KeycloakUser) (p : Person) :
    refreshed user (refreshed user p) = refreshed user p := by
  unfold refreshed
  cases user.firstName <;> cases user.lastName <;> cases user.email <;> rfl

/-- The person as an import leaves them. -/
def importedAs (env : Env) (userId : String) (user : KeycloakUser) (db : Db) : Person :=
  ((personOf db userId).map (refreshed user)).getD (importedPerson env userId user)

theorem importedAs_of_some {env : Env} {db : Db} {p : Person} (h : personOf db userId = some p) :
    importedAs env userId user db = refreshed user p := by
  rw [importedAs, h, Option.map_some, Option.getD_some]

theorem importedAs_of_none {env : Env} {db : Db} (h : personOf db userId = none) :
    importedAs env userId user db = importedPerson env userId user := by
  rw [importedAs, h, Option.map_none, Option.getD_none]

/-- Somebody who is there, or whose id is free. -/
theorem isImported_importedAs {env : Env} {db : Db}
    (h : personOf db userId = none → db.persons.find? (env.cuid 0) = none) :
    IsImported env userId db (importedAs env userId user db).id := by
  unfold IsImported
  cases hp : personOf db userId with
  | some p =>
    have hfind : db.persons.rows.find? (·.idpId = some userId) = some p := hp
    rw [importedAs_of_some hp, hfind]
    rfl
  | none =>
    have hfind : db.persons.rows.find? (·.idpId = some userId) = none := hp
    rw [importedAs_of_none hp, hfind]
    exact ⟨rfl, h hp⟩

theorem personOf_mem {db : Db} {p : Person} (h : personOf db userId = some p) :
    p ∈ db.persons ∧ p.idpId = some userId :=
  ⟨List.mem_of_find?_eq_some h, by simpa using List.find?_some h⟩

/-- Whoever has an identity has no other. -/
theorem personOf_inj {db : Db} {p q : Person} {userId' : String}
    (hp : personOf db userId = some p) (hq : personOf db userId' = some q) (h : p.id = q.id) :
    userId = userId' := by
  obtain ⟨hmem, hidp⟩ := personOf_mem hp
  obtain ⟨hmem', hidp'⟩ := personOf_mem hq
  obtain rfl : p = q := Table.eq_of_key_eq hmem hmem' h
  exact Option.some.inj (hidp.symm.trans hidp')

/-- A refresh of a person leaves the others as they are. -/
theorem find?_refresh {db : Db} {q : Person} (hq : personOf db userId = some q) (x : String) :
    (db.persons.updateMany (·.id = q.id) (refreshed user) (refreshed_id user)).rows.find?
        (·.idpId = some x) =
      Function.update (personOf db) userId (some (refreshed user q)) x := by
  have hmap : (db.persons.updateMany (·.id = q.id) (refreshed user) (refreshed_id user)).rows.find?
      (·.idpId = some x) = (personOf db x).map fun p =>
        if p.id = q.id then refreshed user p else p := by
    unfold Table.updateMany
    simp only [decide_eq_true_eq]
    rw [List.find?_map, personOf]
    congr 2
    funext p
    simp only [Function.comp_apply]
    split
    · rfl
    · rfl
  rw [hmap, Function.update_apply]
  split
  · next heq => rw [heq, hq, Option.map_some, if_pos rfl]
  · next hne =>
    cases hp : personOf db x with
    | none => rfl
    | some p => rw [Option.map_some, if_neg fun hid => hne (personOf_inj hp hq hid)]

theorem upsertPerson_imports {env : Env} {p : Person} {w w' : World}
    (h : (upsertPerson env userId user).run w = (.ok p, w')) :
    p = importedAs env userId user w.db ∧
      personOf w'.db = Function.update (personOf w.db) userId (some p) := by
  unfold upsertPerson at h
  rw [attempt_eq_ok] at h
  cases hf : w.db.persons.rows.find? (·.idpId = some userId) with
  | some q =>
    rw [hf] at h
    obtain ⟨rfl, rfl⟩ := Prod.mk.inj (Except.ok.inj h)
    exact ⟨(importedAs_of_some hf).symm, funext (find?_refresh hf)⟩
  | none =>
    rw [hf] at h
    simp only at h
    split at h
    · next t ht =>
      obtain ⟨rfl, rfl⟩ := Prod.mk.inj (Except.ok.inj h)
      refine ⟨(importedAs_of_none hf).symm, funext fun x => ?_⟩
      unfold personOf
      simp only [(Table.insert?_eq_some.mp ht).1, List.find?_append]
      rw [Function.update_apply]
      split
      · next heq => simp [heq, hf]
      · next hne => simp [Ne.symm hne]
    · exact absurd h (by simp)

/-- With nothing to refresh nobody changes. -/
theorem upsertPerson_idle {env : Env} {p q : Person} {w w' : World}
    (h : (upsertPerson env userId user).run w = (.ok p, w')) (hq : personOf w.db userId = some q)
    (hidle : refreshed user q = q) : w'.db.persons = w.db.persons := by
  unfold upsertPerson at h
  have hfind : w.db.persons.rows.find? (·.idpId = some userId) = some q := hq
  rw [attempt_eq_ok, hfind] at h
  obtain ⟨rfl, rfl⟩ := Prod.mk.inj (Except.ok.inj h)
  have hkept : w.db.persons.updateMany (·.id = q.id) (refreshed user) (refreshed_id user) =
      w.db.persons := by
    refine Table.updateMany_eq_self.mpr fun a ha hid => ?_
    obtain rfl : a = q := Table.eq_of_key_eq ha (personOf_mem hq).1 (of_decide_eq_true hid)
    exact hidle
  exact hkept

end KeycloakAccessSyncService

/-! ## 3. What imports add -/

/-- The person has no access row. -/
def Db.Without (db : Db) (personId : String) : Prop := ∀ a ∈ db.accesses, a.personId ≠ personId

theorem Db.without_iff {db : Db} {personId : String} :
    db.Without personId ↔ ∀ k : AccessKey, k.personId = personId → db.primaryFlag k = none := by
  constructor
  · intro h k hk
    refine primaryFlag_eq_none.mpr fun a ha hkey => h a ha ?_
    exact (congrArg AccessKey.personId hkey).trans hk
  · intro h a ha hperson
    exact primaryFlag_eq_none.mp (h a.key hperson) a ha rfl

/-- `db'` is `db` with the access rows that are wanted: every row there was stands as it did, the
    others are the wanted ones, and they are primary exactly for a person who had none. -/
structure Synced (wants : AccessKey → Prop) (db db' : Db) : Prop where
  rest : ∃ persons accesses, db' = { db with persons := persons, accesses := accesses }
  rows : db.accesses.rows <+: db'.accesses.rows
  flags : ∀ k b, db'.primaryFlag k = some b ↔ db.primaryFlag k = some b ∨
    db.primaryFlag k = none ∧ wants k ∧ (b = true ↔ db.Without k.personId)

namespace Synced

variable {wants wants' : AccessKey → Prop} {db db₁ db₂ : Db}

theorem refl (hnone : ∀ k, ¬ wants k) (db : Db) : Synced wants db db := by
  refine ⟨⟨db.persons, db.accesses, rfl⟩, List.prefix_rfl, fun k b => ?_⟩
  simp [hnone k]

theorem congr (h : Synced wants db db₁) (heq : ∀ k, wants k ↔ wants' k) :
    Synced wants' db db₁ := by
  refine ⟨h.rest, h.rows, fun k b => ?_⟩
  rw [h.flags, heq]

theorem none_iff (h : Synced wants db db₁) (k : AccessKey) :
    db₁.primaryFlag k = none ↔ db.primaryFlag k = none ∧ ¬ wants k := by
  classical
  constructor
  · intro hnone
    have hno : ∀ b, db₁.primaryFlag k ≠ some b := fun b hb => by
      rw [hnone] at hb
      exact absurd hb (by simp)
    have hfree : db.primaryFlag k = none := by
      cases hflag : db.primaryFlag k with
      | none => rfl
      | some b => exact absurd ((h.flags k b).mpr (.inl hflag)) (hno b)
    refine ⟨hfree, fun hwants => ?_⟩
    exact hno (decide (db.Without k.personId))
      ((h.flags k _).mpr (.inr ⟨hfree, hwants, decide_eq_true_iff⟩))
  · rintro ⟨hfree, hnot⟩
    cases hflag : db₁.primaryFlag k with
    | none => rfl
    | some b =>
      rcases (h.flags k b).mp hflag with hold | ⟨-, hwants, -⟩
      · rw [hfree] at hold
        exact absurd hold (by simp)
      · exact absurd hwants hnot

/-- Whom nothing was wanted for has the rows they had. -/
theorem without_iff (h : Synced wants db db₁) {personId : String}
    (hnot : ∀ k, wants k → k.personId ≠ personId) :
    db₁.Without personId ↔ db.Without personId := by
  rw [Db.without_iff, Db.without_iff]
  refine forall₂_congr fun k hk => ?_
  rw [h.none_iff]
  exact and_iff_left fun hwants => hnot k hwants hk

/-- **Imports compose**, if nobody is in both. -/
theorem trans (h : Synced wants db db₁) (h' : Synced wants' db₁ db₂)
    (hapart : ∀ k k', wants k → wants' k' → k.personId ≠ k'.personId) :
    Synced (fun k => wants k ∨ wants' k) db db₂ := by
  refine ⟨?_, h.rows.trans h'.rows, fun k b => ?_⟩
  · obtain ⟨persons, accesses, rfl⟩ := h.rest
    obtain ⟨persons', accesses', rfl⟩ := h'.rest
    exact ⟨persons', accesses', rfl⟩
  · have hsame : wants' k → (db₁.Without k.personId ↔ db.Without k.personId) := fun hwants' =>
      h.without_iff fun k₀ hwants => hapart k₀ k hwants hwants'
    rw [h'.flags, h.flags, h.none_iff]
    constructor
    · rintro ((hold | ⟨hfree, hwants, hb⟩) | ⟨⟨hfree, -⟩, hwants', hb⟩)
      · exact .inl hold
      · exact .inr ⟨hfree, .inl hwants, hb⟩
      · exact .inr ⟨hfree, .inr hwants', hb.trans (hsame hwants')⟩
    · rintro (hold | ⟨hfree, hwants | hwants', hb⟩)
      · exact .inl (.inl hold)
      · exact .inl (.inr ⟨hfree, hwants, hb⟩)
      · refine .inr ⟨⟨hfree, fun hwants => hapart k k hwants hwants' rfl⟩, hwants', ?_⟩
        exact hb.trans (hsame hwants').symm

/-- Where everything wanted is there, nothing is added. -/
theorem accesses_eq (h : Synced wants db db₁)
    (hthere : ∀ k, wants k → db.primaryFlag k ≠ none) : db₁.accesses = db.accesses := by
  obtain ⟨new, hnew⟩ := h.rows
  refine Table.eq_of_rows_eq ?_
  suffices hnil : new = [] by rw [← hnew, hnil, List.append_nil]
  refine List.eq_nil_iff_forall_not_mem.mpr fun a ha => ?_
  have hmem : a ∈ db₁.accesses := by
    rw [← Table.mem_rows, ← hnew]
    exact List.mem_append_right _ ha
  -- A new row would have the key of a row that was there.
  rcases (h.flags a.key a.isPrimary).mp (mem_primaryFlag hmem) with hold | ⟨hfree, hwants, -⟩
  · obtain ⟨b, hb, hkey, -⟩ := primaryFlag_eq_some.mp hold
    have hunique := db₁.accesses.unique
    rw [← hnew, List.map_append, List.nodup_append] at hunique
    exact hunique.2.2 b.key (List.mem_map_of_mem hb) a.key (List.mem_map_of_mem ha) hkey
  · exact hthere a.key hwants hfree

end Synced

/-! ## 4. One round -/

namespace KeycloakAccessSyncService

/-- Whatever the maps lead to is there. -/
structure LeadTo (maps : SyncMaps) (db : Db) : Prop where
  roles : ∀ g id, maps.roleMap.lookup g = some id → (db.roles.find? id).isSome = true
  clients : ∀ x id, maps.clientMap.lookup x = some id → (db.clients.find? id).isSome = true
  sites : ∀ x id, maps.siteMap.lookup x = some id → (db.sites.find? id).isSome = true

theorem mem_of_lookup {α β : Type} [BEq α] [LawfulBEq α] {l : List (α × β)} {a : α} {b : β}
    (h : l.lookup a = some b) : (a, b) ∈ l := by
  obtain ⟨front, back, rfl, -⟩ := List.lookup_eq_some_iff.mp h
  simp

theorem buildRoleMap_found {db : Db} (subgroups : List RoleSubgroup) :
    ∀ e ∈ buildRoleMap db subgroups, (db.roles.find? e.2).isSome = true := by
  have hround : ∀ roleMap : List (String × String),
      (∀ e ∈ roleMap, (db.roles.find? e.2).isSome = true) → ∀ group ∈ subgroups,
      ∀ e ∈ (match truthy group.shieldRoleId, truthy group.id with
        | some shieldRoleId, some groupId =>
          match db.roles.find? shieldRoleId with
          | some dbRole => (groupId, dbRole.id) :: roleMap
          | none => roleMap
        | _, _ => roleMap), (db.roles.find? e.2).isSome = true := by
    intro roleMap hmap group _ e he
    split at he
    · split at he
      · next dbRole hrole =>
        rcases List.mem_cons.mp he with rfl | he
        · exact Table.find?_isSome.mpr ⟨dbRole, (Table.find?_eq_some.mp hrole).1, rfl⟩
        · exact hmap e he
      · exact hmap e he
    · exact hmap e he
  exact List.foldlRecOn subgroups _ (fun e he => absurd he List.not_mem_nil) hround

theorem buildSyncMaps_leadTo (realm : KeycloakRealm) (db : Db) :
    LeadTo (buildSyncMaps realm db) db := by
  refine ⟨fun g id h => buildRoleMap_found _ _ (mem_of_lookup h), fun x id h => ?_,
    fun x id h => ?_⟩
  · obtain ⟨c, hc, heq⟩ := List.mem_map.mp (List.mem_reverse.mp (mem_of_lookup h))
    exact Table.find?_isSome.mpr ⟨c, hc, congrArg Prod.snd heq⟩
  · obtain ⟨c, hc, heq⟩ := List.mem_map.mp (List.mem_reverse.mp (mem_of_lookup h))
    exact Table.find?_isSome.mpr ⟨c, hc, congrArg Prod.snd heq⟩

variable {realm : KeycloakRealm} {maps : SyncMaps} {env : KeycloakUser → Env}
  {user : KeycloakUser} {userId clientId siteId personId : String} {roleIds : List String}
  {w w' : World}

theorem Arrives.upserts (h : Arrives realm maps user userId clientId siteId roleIds)
    (hmaps : LeadTo maps w.db) : Upserts roleIds w.db clientId siteId personId := by
  intro roleId hrole
  obtain ⟨groups, -, rfl⟩ := h.groups
  obtain ⟨g, -, hlookup⟩ := List.mem_filterMap.mp hrole
  obtain ⟨id, -, hlookup⟩ := Option.bind_eq_some_iff.mp hlookup
  obtain ⟨x, -, hclient⟩ := Option.bind_eq_some_iff.mp h.named.client
  obtain ⟨y, -, hsite⟩ := Option.bind_eq_some_iff.mp h.named.site
  exact .inr ⟨hmaps.clients x _ (truthy_eq_some.mp hclient).1,
    hmaps.sites y _ (truthy_eq_some.mp hsite).1, hmaps.roles id _ hlookup⟩

/-- The loop of upserts that update nothing puts its rows behind those there are. -/
theorem forEach_upsertAccess_prefix {row : String → PersonClientAccess}
    {rs : List PersonClientAccess}
    (h : (forEach roleIds fun roleId => upsertAccess (row roleId) id key_id).run w = (.ok rs, w')) :
    w.db.accesses.rows <+: w'.db.accesses.rows := by
  induction roleIds generalizing w rs with
  | nil =>
    obtain ⟨-, rfl⟩ := Prod.mk.inj h
    exact List.prefix_rfl
  | cons roleId roleIds ih =>
    obtain ⟨r, w₁, rs', hr, hrs, -⟩ := forEach_cons_eq_ok.mp h
    refine List.IsPrefix.trans ?_ (ih hrs)
    rw [upsertAccess_run] at hr
    cases hf : w.db.accesses.find? (row roleId).key with
    | some b =>
      rw [hf] at hr
      obtain ⟨-, rfl⟩ := Prod.mk.inj hr
      have hsame : w.db.accesses.updateMany (·.key = (row roleId).key) id key_id =
          w.db.accesses := Table.updateMany_eq_self.mpr fun _ _ _ => rfl
      rw [World.withAccesses_accesses]
      exact ⟨[], (List.append_nil _).trans (congrArg Table.rows hsame.symm)⟩
    | none =>
      rw [hf] at hr
      obtain ⟨-, -, t, ht, rfl⟩ := createAccess_eq_ok.mp hr
      rw [World.withAccesses_accesses, (Table.insert?_eq_some.mp ht).1]
      exact List.prefix_append _ _

/-- What a round with an import does: its person has the identity and the rows, and nobody else has
    changed. -/
structure Imported (env : Env) (user : KeycloakUser) (userId clientId siteId : String)
    (roleIds : List String) (w w' : World) : Prop where
  synced : Synced (fun k => ∃ roleId ∈ roleIds,
    ⟨(importedAs env userId user w.db).id, clientId, siteId, roleId⟩ = k) w.db w'.db
  person : personOf w'.db =
    Function.update (personOf w.db) userId (some (importedAs env userId user w.db))
  known : ∀ id, (w'.db.persons.find? id).isSome = true ↔
    id = (importedAs env userId user w.db).id ∨ (w.db.persons.find? id).isSome = true
  idle : ∀ q, personOf w.db userId = some q → refreshed user q = q →
    w'.db.persons = w.db.persons

theorem syncTransaction_imported {env : Env} {b : Bool}
    (h : (syncTransaction env user userId clientId siteId roleIds).run w = (.ok b, w')) :
    Imported env user userId clientId siteId roleIds w w' := by
  unfold syncTransaction at h
  rw [bind_eq_ok] at h
  obtain ⟨person, w₁, hperson, h⟩ := h
  rw [run_query_bind, bind_eq_ok] at h
  obtain ⟨rs, w₂, hloop, h⟩ := h
  obtain ⟨-, rfl⟩ := Prod.mk.inj h
  obtain ⟨-, t, rfl, -, -⟩ := upsertPerson_ok hperson
  obtain ⟨rfl, howner⟩ := upsertPerson_imports hperson
  have hknown := upsertPerson_persons hperson
  have hidle := fun q => upsertPerson_idle (q := q) hperson
  generalize hfirst :
    decide ((List.filter (fun a => decide (a.personId = (importedAs env userId user w.db).id))
      (w.withPersons t).db.accesses.rows).length = 0) = first at hloop
  obtain ⟨⟨ta, rfl⟩, -, -⟩ := forEach_upsertAccess_rows hloop
  have hrows : (w.withPersons t).db.accesses.rows <+: ta.rows := forEach_upsertAccess_prefix hloop
  have hflag := @forEach_upsertAccess_flag _
    (syncedRow env (importedAs env userId user w.db).id clientId siteId first) first
    (fun _ => rfl) rs _ _ hloop
  have hwithout : first = true ↔ w.db.Without (importedAs env userId user w.db).id := by
    rw [← hfirst, decide_eq_true_iff, List.length_eq_zero_iff, List.filter_eq_nil_iff]
    simp only [decide_eq_true_eq]
    exact Iff.rfl
  refine ⟨⟨⟨t, ta, rfl⟩, hrows, fun k b => ?_⟩, howner, hknown, hidle⟩
  have hold : (w.withPersons t).db.primaryFlag k = w.db.primaryFlag k := rfl
  rw [hflag, hold]
  constructor
  · intro hnew
    split at hnew
    · next hboth =>
      obtain ⟨hnone, roleId, hrole, rfl⟩ := hboth
      obtain rfl := Option.some.inj hnew
      exact .inr ⟨Option.isNone_iff_eq_none.mp hnone, ⟨roleId, hrole, rfl⟩, hwithout⟩
    · exact .inl hnew
  · rintro (hold | ⟨hnone, ⟨roleId, hrole, rfl⟩, hb⟩)
    · rw [hold, if_neg fun hboth => absurd hboth.1 (by simp)]
    · rw [if_pos ⟨Option.isNone_iff_eq_none.mpr hnone, roleId, hrole, rfl⟩]
      exact congrArg some (Bool.eq_iff_iff.mpr (hwithout.trans hb.symm))

/-- The import of a user who arrives goes through. -/
theorem syncRound_imported (h : Arrives realm maps user userId clientId siteId roleIds)
    (hmaps : LeadTo maps w.db)
    (hfree : personOf w.db userId = none → w.db.persons.find? ((env user).cuid 0) = none) :
    Imported (env user) user userId clientId siteId roleIds w
      (syncRound realm maps env w user) := by
  rw [syncRound_of_arrives h]
  have himported : IsImported (env user) userId w.db
      (importedAs (env user) userId user w.db).id := isImported_importedAs hfree
  obtain ⟨b, w', hrun⟩ := syncTransaction_run user himported (h.upserts hmaps)
  have hdone : (transaction (syncTransaction (env user) user userId clientId siteId
      roleIds)).Leaves (Imported (env user) user userId clientId siteId roleIds w) w :=
    leaves_transaction_of_run hrun (syncTransaction_imported hrun)
  exact hdone

/-! ## 5. All rounds -/

/-- The import of the user has to make a person. -/
def New (realm : KeycloakRealm) (maps : SyncMaps) (db : Db) (user : KeycloakUser) : Prop :=
  ∃ userId clientId siteId roleIds,
    Arrives realm maps user userId clientId siteId roleIds ∧ personOf db userId = none

/-- The rows Keycloak wants for the users. -/
def Wants (realm : KeycloakRealm) (maps : SyncMaps) (env : KeycloakUser → Env)
    (users : List KeycloakUser) (db : Db) (k : AccessKey) : Prop :=
  ∃ user ∈ users, ∃ userId roleIds, Arrives realm maps user userId k.clientId k.siteId roleIds ∧
    (importedAs (env user) userId user db).id = k.personId ∧ k.roleId ∈ roleIds

/-- New persons get ids of their own. -/
structure FreshFor (realm : KeycloakRealm) (maps : SyncMaps) (env : KeycloakUser → Env)
    (users : List KeycloakUser) (db : Db) : Prop where
  free : ∀ user ∈ users, New realm maps db user → db.persons.find? ((env user).cuid 0) = none
  apart : users.Pairwise fun u v => New realm maps db u → New realm maps db v →
    (env u).cuid 0 ≠ (env v).cuid 0

/-- No two of the users have one id. -/
def Distinct (users : List KeycloakUser) : Prop :=
  users.Pairwise fun u v => ∀ x, truthy u.id = some x → truthy v.id ≠ some x

theorem distinct_users (realm : KeycloakRealm) : Distinct realm.users := by
  refine (List.pairwise_filterMap.mp realm.userIds).imp fun h x hu hv => ?_
  exact h x hu x hv rfl

theorem importedAs_apart {env env' : Env} {user user' : KeycloakUser} {userId userId' : String}
    {db : Db} (hne : userId ≠ userId')
    (hfree : personOf db userId = none → db.persons.find? (env.cuid 0) = none)
    (hfree' : personOf db userId' = none → db.persons.find? (env'.cuid 0) = none)
    (hapart : personOf db userId = none → personOf db userId' = none →
      env.cuid 0 ≠ env'.cuid 0) :
    (importedAs env userId user db).id ≠ (importedAs env' userId' user' db).id := by
  cases hp : personOf db userId with
  | some p =>
    rw [importedAs_of_some hp]
    cases hq : personOf db userId' with
    | some q =>
      rw [importedAs_of_some hq]
      exact fun hid => hne (personOf_inj hp hq hid)
    | none =>
      rw [importedAs_of_none hq]
      exact Table.find?_eq_none.mp (hfree' hq) p (personOf_mem hp).1
  | none =>
    rw [importedAs_of_none hp]
    cases hq : personOf db userId' with
    | some q =>
      rw [importedAs_of_some hq]
      exact (Table.find?_eq_none.mp (hfree hp) q (personOf_mem hq).1).symm
    | none =>
      rw [importedAs_of_none hq]
      exact hapart hp hq

section Rounds

variable {users : List KeycloakUser}

theorem New.of_arrives {db : Db} (h : Arrives realm maps user userId clientId siteId roleIds)
    (hnone : personOf db userId = none) : New realm maps db user :=
  ⟨userId, clientId, siteId, roleIds, h, hnone⟩

theorem FreshFor.tail (h : FreshFor realm maps env (user :: users) w.db) :
    FreshFor realm maps env users w.db :=
  ⟨fun v hv => h.free v (List.mem_cons_of_mem _ hv), (List.pairwise_cons.mp h.apart).2⟩

/-- The first round goes through. -/
theorem FreshFor.imported (h : FreshFor realm maps env (user :: users) w.db)
    (hmaps : LeadTo maps w.db) (harr : Arrives realm maps user userId clientId siteId roleIds) :
    Imported (env user) user userId clientId siteId roleIds w (syncRound realm maps env w user) :=
  syncRound_imported harr hmaps fun hnone =>
    h.free user List.mem_cons_self (.of_arrives harr hnone)

theorem LeadTo.of_synced {wants : AccessKey → Prop} (h : LeadTo maps w.db)
    (hsync : Synced wants w.db w'.db) : LeadTo maps w'.db := by
  obtain ⟨persons, accesses, heq⟩ := hsync.rest
  rw [heq]
  exact ⟨h.roles, h.clients, h.sites⟩

/-- Of the others a round says nothing. -/
theorem Imported.personOf_other {env : Env}
    (h : Imported env user userId clientId siteId roleIds w w') {x : String} (hx : x ≠ userId) :
    personOf w'.db x = personOf w.db x := by
  rw [h.person, Function.update_of_ne hx]

theorem Imported.importedAs_other {env env' : Env} {user' : KeycloakUser}
    (h : Imported env user userId clientId siteId roleIds w w') {x : String} (hx : x ≠ userId) :
    importedAs env' x user' w'.db = importedAs env' x user' w.db := by
  rw [importedAs, importedAs, h.personOf_other hx]

theorem other_arrives (hids : Distinct (user :: users))
    (harr : Arrives realm maps user userId clientId siteId roleIds) {v : KeycloakUser}
    (hv : v ∈ users) {x clientId' siteId' : String} {roleIds' : List String}
    (harr' : Arrives realm maps v x clientId' siteId' roleIds') : x ≠ userId := by
  rintro rfl
  exact (List.pairwise_cons.mp hids).1 v hv x harr.named.identified harr'.named.identified

theorem Imported.wants_iff (hids : Distinct (user :: users))
    (harr : Arrives realm maps user userId clientId siteId roleIds)
    (h : Imported (env user) user userId clientId siteId roleIds w w') (k : AccessKey) :
    Wants realm maps env users w'.db k ↔ Wants realm maps env users w.db k := by
  unfold Wants
  constructor
  · rintro ⟨v, hv, x, roleIds', harr', hid, hrole⟩
    rw [h.importedAs_other (other_arrives hids harr hv harr')] at hid
    exact ⟨v, hv, x, roleIds', harr', hid, hrole⟩
  · rintro ⟨v, hv, x, roleIds', harr', hid, hrole⟩
    rw [← h.importedAs_other (other_arrives hids harr hv harr')] at hid
    exact ⟨v, hv, x, roleIds', harr', hid, hrole⟩

theorem Imported.new_iff (hids : Distinct (user :: users))
    (harr : Arrives realm maps user userId clientId siteId roleIds)
    (h : Imported (env user) user userId clientId siteId roleIds w w') {v : KeycloakUser}
    (hv : v ∈ users) : New realm maps w'.db v ↔ New realm maps w.db v := by
  unfold New
  constructor
  · rintro ⟨x, c, s, rs, harr', hnone⟩
    rw [h.personOf_other (other_arrives hids harr hv harr')] at hnone
    exact ⟨x, c, s, rs, harr', hnone⟩
  · rintro ⟨x, c, s, rs, harr', hnone⟩
    rw [← h.personOf_other (other_arrives hids harr hv harr')] at hnone
    exact ⟨x, c, s, rs, harr', hnone⟩

theorem FreshFor.round (hids : Distinct (user :: users))
    (hfresh : FreshFor realm maps env (user :: users) w.db)
    (harr : Arrives realm maps user userId clientId siteId roleIds)
    (h : Imported (env user) user userId clientId siteId roleIds w w') :
    FreshFor realm maps env users w'.db := by
  have hapart := List.pairwise_cons.mp hfresh.apart
  refine ⟨fun v hv hnew => ?_, ?_⟩
  · have hold := (h.new_iff hids harr hv).mp hnew
    have hfree := hfresh.free v (List.mem_cons_of_mem _ hv) hold
    rw [← Option.not_isSome_iff_eq_none, h.known, not_or]
    refine ⟨fun hid => ?_, by simp [hfree]⟩
    -- The id is neither that of somebody who was there nor the one just drawn.
    cases hp : personOf w.db userId with
    | some p =>
      rw [importedAs_of_some hp] at hid
      exact Table.find?_eq_none.mp hfree p (personOf_mem hp).1 hid.symm
    | none =>
      rw [importedAs_of_none hp] at hid
      exact hapart.1 v hv (.of_arrives harr hp) hold hid.symm
  · refine hapart.2.imp_of_mem fun hu hv hne hu' hv' => ?_
    exact hne ((h.new_iff hids harr hu).mp hu') ((h.new_iff hids harr hv).mp hv')

theorem wants_cons (harr : Arrives realm maps user userId clientId siteId roleIds) (db : Db)
    (k : AccessKey) : Wants realm maps env (user :: users) db k ↔
      (∃ roleId ∈ roleIds,
        ⟨(importedAs (env user) userId user db).id, clientId, siteId, roleId⟩ = k) ∨
        Wants realm maps env users db k := by
  unfold Wants
  simp only [List.mem_cons, or_and_right, exists_or, exists_eq_left]
  refine or_congr_left ⟨?_, ?_⟩
  · rintro ⟨userId', roleIds', harr', hid, hrole⟩
    obtain ⟨rfl, hclient, hsite, rfl⟩ := harr.unique harr'
    exact ⟨k.roleId, hrole, by rw [hid, ← hclient, ← hsite]⟩
  · rintro ⟨roleId, hrole, rfl⟩
    exact ⟨userId, roleIds, harr, rfl, hrole⟩

theorem wants_cons_of_not (hnot : ∀ userId clientId siteId roleIds,
    ¬ Arrives realm maps user userId clientId siteId roleIds) (db : Db) (k : AccessKey) :
    Wants realm maps env (user :: users) db k ↔ Wants realm maps env users db k := by
  unfold Wants
  simp only [List.mem_cons, or_and_right, exists_or, exists_eq_left]
  refine or_iff_right ?_
  rintro ⟨userId, roleIds, harr, -, -⟩
  exact hnot _ _ _ _ harr

/-- **All rounds together** add what Keycloak wants. -/
theorem rounds_synced (hids : Distinct users) (hmaps : LeadTo maps w.db)
    (hfresh : FreshFor realm maps env users w.db) :
    Synced (Wants realm maps env users w.db) w.db
      (users.foldl (syncRound realm maps env) w).db := by
  induction users generalizing w with
  | nil => exact .refl (fun k h => by simp [Wants] at h) w.db
  | cons user users ih =>
    rw [List.foldl_cons]
    by_cases harr : ∃ userId clientId siteId roleIds,
        Arrives realm maps user userId clientId siteId roleIds
    · obtain ⟨userId, clientId, siteId, roleIds, harr⟩ := harr
      have hround := hfresh.imported hmaps harr
      have hrest := ih (List.pairwise_cons.mp hids).2 (hmaps.of_synced hround.synced)
        (hfresh.round hids harr hround)
      refine (hround.synced.trans hrest fun k k' hk hk' => ?_).congr fun k => ?_
      · obtain ⟨roleId, -, rfl⟩ := hk
        obtain ⟨v, hv, x, rs, harr', hid, -⟩ := (hround.wants_iff hids harr k').mp hk'
        rw [← hid]
        refine importedAs_apart (other_arrives hids harr hv harr').symm (fun hnone => ?_)
          (fun hnone => ?_) fun hnone hnone' => ?_
        · exact hfresh.free user List.mem_cons_self (.of_arrives harr hnone)
        · exact hfresh.free v (List.mem_cons_of_mem _ hv) (.of_arrives harr' hnone)
        · exact (List.pairwise_cons.mp hfresh.apart).1 v hv (.of_arrives harr hnone)
            (.of_arrives harr' hnone')
      · rw [hround.wants_iff hids harr, wants_cons harr]
    · push Not at harr
      rw [syncRound_of_not harr]
      exact (ih (List.pairwise_cons.mp hids).2 hmaps hfresh.tail).congr fun k =>
        (wants_cons_of_not harr w.db k).symm

theorem rounds_personOf_other (hmaps : LeadTo maps w.db) (hids : Distinct users)
    (hfresh : FreshFor realm maps env users w.db) {x : String}
    (hx : ∀ user ∈ users, ∀ userId clientId siteId roleIds,
      Arrives realm maps user userId clientId siteId roleIds → x ≠ userId) :
    personOf (users.foldl (syncRound realm maps env) w).db x = personOf w.db x := by
  induction users generalizing w with
  | nil => rfl
  | cons user users ih =>
    rw [List.foldl_cons]
    have hx' := fun v hv => hx v (List.mem_cons_of_mem user hv)
    by_cases harr : ∃ userId clientId siteId roleIds,
        Arrives realm maps user userId clientId siteId roleIds
    · obtain ⟨userId, clientId, siteId, roleIds, harr⟩ := harr
      have hround := hfresh.imported hmaps harr
      rw [ih (hmaps.of_synced hround.synced) (List.pairwise_cons.mp hids).2
        (hfresh.round hids harr hround) hx',
        hround.personOf_other (hx user List.mem_cons_self _ _ _ _ harr)]
    · push Not at harr
      rw [syncRound_of_not harr]
      exact ih hmaps (List.pairwise_cons.mp hids).2 hfresh.tail hx'

/-- The persons afterwards. -/
theorem rounds_personOf (hmaps : LeadTo maps w.db) (hids : Distinct users)
    (hfresh : FreshFor realm maps env users w.db) (huser : user ∈ users)
    (harr : Arrives realm maps user userId clientId siteId roleIds) :
    personOf (users.foldl (syncRound realm maps env) w).db userId =
      some (importedAs (env user) userId user w.db) := by
  induction users generalizing w with
  | nil => exact absurd huser List.not_mem_nil
  | cons first users ih =>
    rw [List.foldl_cons]
    rcases List.mem_cons.mp huser with rfl | hmem
    · have hround := hfresh.imported hmaps harr
      rw [rounds_personOf_other (hmaps.of_synced hround.synced) (List.pairwise_cons.mp hids).2
        (hfresh.round hids harr hround) fun v hv x _ _ _ harr' =>
          (other_arrives hids harr hv harr').symm, hround.person, Function.update_self]
    · by_cases hfirst : ∃ userId clientId siteId roleIds,
          Arrives realm maps first userId clientId siteId roleIds
      · obtain ⟨userId', clientId', siteId', roleIds', hfirst⟩ := hfirst
        have hround := hfresh.imported hmaps hfirst
        rw [ih (hmaps.of_synced hround.synced) (List.pairwise_cons.mp hids).2
          (hfresh.round hids hfirst hround) hmem,
          hround.importedAs_other (other_arrives hids hfirst hmem harr)]
      · push Not at hfirst
        rw [syncRound_of_not hfirst]
        exact ih hmaps (List.pairwise_cons.mp hids).2 hfresh.tail hmem

/-- Nothing is left to import: who arrives is there, as Keycloak has them, with the rows. -/
def Idle (realm : KeycloakRealm) (maps : SyncMaps) (users : List KeycloakUser) (db : Db) : Prop :=
  ∀ user ∈ users, ∀ userId clientId siteId roleIds,
    Arrives realm maps user userId clientId siteId roleIds →
    ∃ p, personOf db userId = some p ∧ refreshed user p = p ∧
      ∀ roleId ∈ roleIds, db.primaryFlag ⟨p.id, clientId, siteId, roleId⟩ ≠ none

theorem rounds_idle (hmaps : LeadTo maps w.db) (hidle : Idle realm maps users w.db) :
    (users.foldl (syncRound realm maps env) w).db = w.db := by
  induction users generalizing w with
  | nil => rfl
  | cons user users ih =>
    rw [List.foldl_cons]
    have hrest : Idle realm maps users w.db := fun v hv => hidle v (List.mem_cons_of_mem _ hv)
    by_cases harr : ∃ userId clientId siteId roleIds,
        Arrives realm maps user userId clientId siteId roleIds
    · obtain ⟨userId, clientId, siteId, roleIds, harr⟩ := harr
      obtain ⟨p, hp, hsame, hthere⟩ := hidle user List.mem_cons_self _ _ _ _ harr
      have hround : Imported (env user) user userId clientId siteId roleIds w
          (syncRound realm maps env w user) := syncRound_imported harr hmaps fun hnone => by
        rw [hp] at hnone
        exact absurd hnone (by simp)
      have hrows : (syncRound realm maps env w user).db.accesses = w.db.accesses := by
        refine hround.synced.accesses_eq fun k hk => ?_
        obtain ⟨roleId, hrole, rfl⟩ := hk
        rw [importedAs_of_some hp]
        exact hthere roleId hrole
      have hpersons := hround.idle p hp hsame
      have hdb : (syncRound realm maps env w user).db = w.db := by
        obtain ⟨persons, accesses, heq⟩ := hround.synced.rest
        rw [heq] at hrows hpersons ⊢
        dsimp only at hrows hpersons
        rw [hrows, hpersons]
      rw [ih (hdb.symm ▸ hmaps) (hdb.symm ▸ hrest), hdb]
    · push Not at harr
      rw [syncRound_of_not harr]
      exact ih hmaps hrest

end Rounds

/-! ## 6. One run, and further ones -/

theorem not_arrives_of_empty (h : maps.roleMap = []) :
    ¬ Arrives realm maps user userId clientId siteId roleIds := by
  intro harr
  obtain ⟨groups, -, hroles⟩ := harr.groups
  refine harr.some_role (hroles.symm.trans (List.filterMap_eq_nil_iff.mpr fun g _ => ?_))
  simp [h]

/-- The page loop comes by every user, and the early return skips rounds that do nothing. -/
theorem runSync_after (realm : KeycloakRealm) (env : KeycloakUser → Env) (w : World) :
    (runSync realm env).after w =
      realm.users.foldl (syncRound realm (buildSyncMaps realm w.db) env) w := by
  unfold runSync after
  rw [run_query_bind]
  split
  · next hempty =>
    have hround : ∀ user, syncRound realm (buildSyncMaps realm w.db) env w user = w := fun user =>
      syncRound_of_not (fun _ _ _ _ => not_arrives_of_empty (List.isEmpty_iff.mp hempty)) w
    rw [run_pure]
    exact (List.foldlRecOn (motive := fun v => v = w) realm.users _ rfl fun v hv user _ => by
      rw [hv, hround]).symm
  · rw [run_write, foldPages_eq, List.drop_zero]

theorem buildSyncMaps_of_synced {wants : AccessKey → Prop} {db db' : Db}
    (h : Synced wants db db') : buildSyncMaps realm db' = buildSyncMaps realm db := by
  obtain ⟨persons, accesses, rfl⟩ := h.rest
  rfl

/-- One run after the other. -/
def afterRuns (realm : KeycloakRealm) (envs : List (KeycloakUser → Env)) (w : World) : World :=
  envs.foldl (fun w env => (runSync realm env).after w) w

theorem afterRuns_idle {w : World} (h : Idle realm (buildSyncMaps realm w.db) realm.users w.db)
    (envs : List (KeycloakUser → Env)) : (afterRuns realm envs w).db = w.db := by
  unfold afterRuns
  induction envs generalizing w with
  | nil => rfl
  | cons env envs ih =>
    have hrun : ((runSync realm env).after w).db = w.db := by
      rw [runSync_after]
      exact rounds_idle (buildSyncMaps_leadTo realm w.db) h
    rw [List.foldl_cons, ih (hrun.symm ▸ h), hrun]

/-- `o || d` and then `o ?? ..` of it: an empty text is replaced by the one and kept by the other. -/
theorem getD_truthy_getD {o : Option String} {d : String} :
    o.getD ((truthy o).getD d) = (truthy o).getD d ↔ (o = some "" → d = "") := by
  cases o with
  | none => simp [truthy]
  | some x =>
    by_cases hx : x = ""
    · simp [truthy, hx, eq_comm]
    · simp [truthy, hx]

theorem refreshed_importedPerson {env : Env} :
    refreshed user (importedPerson env userId user) = importedPerson env userId user ↔
      user.firstName ≠ some "" ∧ user.lastName ≠ some "" := by
  unfold refreshed importedPerson
  simp only [Person.mk.injEq, true_and, and_true, getD_truthy_getD, implies_true,
    String.reduceEq, imp_false, ne_eq]

/-- A second refresh finds nothing to do, except for somebody new whose name Keycloak has empty. -/
theorem refreshed_importedAs {env : Env} {db : Db} :
    refreshed user (importedAs env userId user db) = importedAs env userId user db ↔
      (personOf db userId = none → user.firstName ≠ some "" ∧ user.lastName ≠ some "") := by
  cases hp : personOf db userId with
  | some p =>
    rw [importedAs_of_some hp]
    simp [refreshed_refreshed]
  | none =>
    rw [importedAs_of_none hp, refreshed_importedPerson]
    simp

section Runs

variable {env' : KeycloakUser → Env}

/-- What a first run leaves for the next one. -/
theorem runSync_first (hfresh : FreshFor realm (buildSyncMaps realm w.db) env realm.users w.db) :
    buildSyncMaps realm ((runSync realm env).after w).db = buildSyncMaps realm w.db ∧
      Synced (Wants realm (buildSyncMaps realm w.db) env realm.users w.db) w.db
        ((runSync realm env).after w).db ∧
      ∀ user ∈ realm.users, ∀ userId clientId siteId roleIds,
        Arrives realm (buildSyncMaps realm w.db) user userId clientId siteId roleIds →
        personOf ((runSync realm env).after w).db userId =
          some (importedAs (env user) userId user w.db) ∧
        ∀ roleId ∈ roleIds, ((runSync realm env).after w).db.primaryFlag
          ⟨(importedAs (env user) userId user w.db).id, clientId, siteId, roleId⟩ ≠ none := by
  have hmaps := buildSyncMaps_leadTo realm w.db
  rw [runSync_after]
  have hsync := rounds_synced (distinct_users realm) hmaps hfresh
  refine ⟨buildSyncMaps_of_synced hsync, hsync, fun user huser userId clientId siteId roleIds harr =>
    ⟨rounds_personOf hmaps (distinct_users realm) hfresh huser harr, fun roleId hrole hnone => ?_⟩⟩
  exact ((hsync.none_iff _).mp hnone).2 ⟨user, huser, userId, roleIds, harr, rfl, hrole⟩

end Runs

/-- Ada, whom Keycloak has without a first name, keeps the light. -/
def lightRealm : KeycloakRealm where
  managedRoleSubgroups := [{ id := some "g-keeper", shieldRoleId := some "light-keeper" }]
  users := [{ id := some "kc-ada", email := some "ada@light.org", firstName := some ""
              lastName := some "L.", clientId := some "x-light", siteId := some "x-rock" }]
  listUserGroups := fun _ => some [some "g-keeper"]
  userIds := by decide

def lightWorld : World where
  db :=
    { clients := ⟨[{ id := "light", externalId := "x-light" }], by decide⟩
      sites := ⟨[{ id := "rock", externalId := "x-rock", createdOn := 0, clientId := "light" }],
        by decide⟩
      roles := ⟨[{ id := "light-keeper", name := "Keeper" }], by decide⟩ }

end KeycloakAccessSyncService

end ShieldApi
