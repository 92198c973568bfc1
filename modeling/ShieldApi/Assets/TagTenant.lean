import ShieldApi.Assets.Tags
import ShieldApi.Lib.Runs

/-!
# Can registration move a tag to another client?

Any number of `registerTag` calls run at once. Each one is its lookup, its assignment (for a tag
without a client or without a site) and its update, and between these anything may happen.
**Once a tag has a client, does it keep it?**

The update runs under the caller's policies and never writes the client; a creation makes a new
tag. The assignment writes the client of whoever assigns, with the policies off, to a tag that
had no client *or no site* when it was looked up. `tagTenant_iff` is what is left: the client of
a tag changes exactly where an assignment finds it at a client that is not the caller's.
-/

set_option autoImplicit false

namespace ShieldApi

open Effect TagsService

/-! ## 1. What the queries do to a tag's client -/

/-- Every tag of `w` that has a client is a tag of `w'` with that client. -/
def TenantKept (w w' : AssetWorld) : Prop :=
  ∀ t ∈ w.tags, ∀ c, t.clientId = some c → ∃ t' ∈ w'.tags, t'.id = t.id ∧ t'.clientId = some c

theorem TenantKept.refl (w : AssetWorld) : TenantKept w w :=
  fun t ht _ hc => ⟨t, ht, rfl, hc⟩

theorem TenantKept.trans {w w' w'' : AssetWorld} (h : TenantKept w w') (h' : TenantKept w' w'') :
    TenantKept w w'' := by
  intro t ht c hc
  obtain ⟨t', ht', hid, hc'⟩ := h t ht c hc
  obtain ⟨t'', ht'', hid', hc''⟩ := h' t' ht' c hc'
  exact ⟨t'', ht'', hid'.trans hid, hc''⟩

theorem TenantKept.of_tags_eq {w w' : AssetWorld} (h : w'.tags = w.tags) : TenantKept w w' := by
  intro t ht c hc
  exact ⟨t, h ▸ ht, rfl, hc⟩

/-- An update of one tag keeps the clients if it keeps that tag's. -/
theorem tenantKept_update {w : AssetWorld} {id : String} {f : Tag → Tag}
    {hf : ∀ t, (f t).id = t.id}
    (h : ∀ t ∈ w.tags, t.id = id → ∀ c, t.clientId = some c → (f t).clientId = some c) :
    TenantKept w (w.withTags (w.tags.updateMany (·.id = id) f hf)) := by
  intro t ht c hc
  rw [AssetWorld.withTags_tags]
  simp only [Table.mem_updateMany]
  by_cases hid : t.id = id
  · exact ⟨f t, ⟨t, ht, by simp [hid]⟩, hf t, h t ht hid c hc⟩
  · exact ⟨t, ⟨t, ht, by simp [hid]⟩, rfl, hc⟩

theorem connectAsset_tags {rls : Settings} {tagId assetId : String} {w w' : AssetWorld}
    (h : connectAsset rls tagId assetId w = .ok w') : w'.tags = w.tags := by
  unfold connectAsset at h
  split at h
  · exact absurd h (by simp)
  · simp only at h
    split at h
    · exact absurd h (by simp)
    · obtain rfl := Except.ok.inj h
      rfl

/-- The update under the caller's policies does not write the client. -/
theorem updateTag_keeps {rls : Settings} {id : String} {dto : RegisterTagDto} {w w' : AssetWorld}
    {tag : Tag} (h : (updateTag rls id none dto).run w = (.ok tag, w')) : TenantKept w w' := by
  unfold updateTag at h
  rw [attempt_eq_ok] at h
  split at h
  · exact absurd h (by simp)
  rename_i old hold
  split at h
  · simp only at h
    split at h
    · cases hconn : connectAsset rls id dto.asset (w.withTags (w.tags.updateMany (·.id = id)
          (.setPlace (none.or old.clientId) (dto.site.or old.siteId)) (Tag.id_setPlace _ _))) with
      | error e =>
        simp only [Tag.setPlace] at h
        rw [show connectAsset rls id dto.asset _ = .error e from hconn] at h
        exact absurd h (by simp [Except.map])
      | ok w₁ =>
        simp only [Tag.setPlace] at h
        rw [show connectAsset rls id dto.asset _ = .ok w₁ from hconn] at h
        obtain ⟨-, rfl⟩ := Prod.mk.inj (Except.ok.inj h)
        refine TenantKept.trans (tenantKept_update fun t ht hid c hc => ?_)
          (.of_tags_eq (connectAsset_tags hconn))
        -- the row that was read is the row that is updated
        have hrow := (Option.filter_eq_some_iff.mp hold).1
        have hmem := Table.find?_eq_some.mp hrow
        rw [Table.eq_of_key_eq ht hmem.1 (hid.trans hmem.2.symm)] at hc
        exact hc
    · exact absurd h (by simp)
  · exact absurd h (by simp)

theorem createTag_keeps {rls : Settings} {tag tag' : Tag} {assetId : String} {w w' : AssetWorld}
    (h : (createTag rls tag assetId).run w = (.ok tag', w')) : TenantKept w w' := by
  unfold createTag at h
  rw [attempt_eq_ok] at h
  split at h
  · exact absurd h (by simp)
  split at h
  · exact absurd h (by simp)
  rename_i t ht
  split at h
  · split at h
    · cases hconn : connectAsset rls tag.id assetId (w.withTags t) with
      | error e =>
        rw [hconn] at h
        exact absurd h (by simp [Except.map])
      | ok w₁ =>
        rw [hconn] at h
        obtain ⟨-, rfl⟩ := Prod.mk.inj (Except.ok.inj h)
        refine TenantKept.trans (fun t₀ ht₀ c hc => ?_) (.of_tags_eq (connectAsset_tags hconn))
        exact ⟨t₀, (Table.mem_insert? ht).mpr (.inl ht₀), rfl, hc⟩
    · exact absurd h (by simp)
  · exact absurd h (by simp)

/-- **An assignment keeps the tag's client only where it finds none, or the same.** -/
theorem assignTag_keeps_iff {id clientId siteId : String} {w : AssetWorld} :
    TenantKept w ((assignTag id clientId siteId).after w) ↔
      (AssignRefs w clientId siteId →
        ∀ t ∈ w.tags, t.id = id → t.clientId = none ∨ t.clientId = some clientId) := by
  by_cases hfound : (w.tags.find? id).isNone = true
  · have hrun : (assignTag id clientId siteId).after w = w := by
      simp [assignTag, attempt, Effect.after, Effect.run, hfound]
    rw [hrun]
    apply iff_of_true (.refl w)
    intro _ t ht hid
    rw [Option.isNone_iff_eq_none, Table.find?_eq_none] at hfound
    exact absurd hid (hfound t ht)
  · by_cases hrefs : AssignRefs w clientId siteId
    · have hrun : (assignTag id clientId siteId).after w =
          w.withTags (w.tags.updateMany (·.id = id) (.setPlace (some clientId) (some siteId))
            (Tag.id_setPlace _ _)) := by
        simp [assignTag, attempt, Effect.after, Effect.run, hfound, hrefs.1, hrefs.2]
      rw [hrun]
      constructor
      · intro hkept _ t ht hid
        cases hc : t.clientId with
        | none => exact .inl rfl
        | some c =>
          obtain ⟨t', ht', hid', hc'⟩ := hkept t ht c hc
          rw [AssetWorld.withTags_tags, Table.mem_updateMany] at ht'
          obtain ⟨t₀, ht₀, rfl⟩ := ht'
          have hid₀ : t₀.id = id := by
            by_contra hne
            simp only [hne, decide_false, Bool.false_eq_true, if_false] at hid'
            exact hne (hid'.trans hid)
          simp only [hid₀, decide_true, if_true, Tag.setPlace] at hc'
          exact .inr hc'.symm
      · intro hcond
        apply tenantKept_update
        intro t ht hid c hc
        rcases hcond hrefs t ht hid with hnone | hsame
        · rw [hnone] at hc
          exact absurd hc (by simp)
        · exact hsame.symm.trans hc
    · have hrun : (assignTag id clientId siteId).after w = w := by
        unfold AssignRefs at hrefs
        simp only [assignTag, attempt, Effect.after, Effect.run, hfound, Bool.false_eq_true,
          if_false, Bool.and_eq_true, hrefs]
      rw [hrun]
      exact iff_of_true (.refl w) fun h => absurd h hrefs

/-! ## 2. Calls that run at once -/

/-- The store, and the calls that are past their lookup. -/
structure Registering where
  world : AssetWorld
  calls : Nat → Option (Registration × RegisterPhase) := fun _ => none

inductive RegisterLabel
  /-- Call `i` is made, and does its lookup. -/
  | lookup (i : Nat) (crypto : TokenCrypto) (cls : Cls) (env : Env) (token : String)
      (dto : RegisterTagDto)
  /-- Call `i` does its next query. -/
  | next (i : Nat) (env : Env)

namespace Registering

def setCall (s : Registering) (i : Nat) (call : Option (Registration × RegisterPhase))
    (w : AssetWorld) : Registering :=
  { world := w, calls := fun j => if j = i then call else s.calls j }

@[simp] theorem setCall_world (s : Registering) (i : Nat)
    (call : Option (Registration × RegisterPhase)) (w : AssetWorld) :
    (s.setCall i call w).world = w := rfl

def step (s : Registering) : RegisterLabel → Registering
  | .lookup i crypto cls env token dto =>
    match s.calls i with
    | some _ => s
    | none =>
      match (registerBegin crypto cls env token dto).run s.world with
      | (.ok (.inl call), w) => s.setCall i (some call) w
      | (_, w) => s.setCall i none w
  | .next i env =>
    match s.calls i with
    | none => s
    | some (r, phase) =>
      match (registerStep env r phase).run s.world with
      | (.ok (.inl phase), w) => s.setCall i (some (r, phase)) w
      | (_, w) => s.setCall i none w

end Registering

namespace RegisterLabel

/-- The caller has a system grant and acts on it. -/
def AsSystemAdmin : RegisterLabel → Prop
  | .lookup _ _ cls _ _ _ => cls.accessGrant.any (actingAsSystemAdmin cls) = true
  | .next _ _ => False

/-- If the label is an assignment that goes through, the tag has no client, or already the
    caller's. -/
def KeepsTenant (s : Registering) : RegisterLabel → Prop
  | .lookup .. => True
  | .next i _ => ∀ r tag, s.calls i = some (r, .assign tag) →
      AssignRefs s.world r.context.clientId r.context.siteId →
        ∀ t ∈ s.world.tags, t.id = tag.id →
          t.clientId = none ∨ t.clientId = some r.context.clientId

end RegisterLabel

theorem readOnly_findTagByExternalId (externalId : Option String) :
    (findTagByExternalId externalId).ReadOnly :=
  (readOnly_orRaise _ _).bind fun _ => readOnly_query _

theorem readOnly_registerLookup (cls : Cls) (env : Env) (t : InspectionToken)
    (dto : RegisterTagDto) : (registerLookup cls env t dto).ReadOnly :=
  (readOnly_findTagByExternalId _).bind fun _ => (readOnly_orRaise _ _).bind fun _ =>
    (readOnly_prismaBuild _ _ _).bind fun _ => readOnly_pure _

/-- Nobody but a system admin writes before the lookup. -/
theorem registerBegin_after (crypto : TokenCrypto) {cls : Cls} (env : Env) (token : String)
    (dto : RegisterTagDto) (hcaller : ¬ cls.accessGrant.any (actingAsSystemAdmin cls) = true)
    (w : AssetWorld) : (registerBegin crypto cls env token dto).after w = w := by
  cases hg : cls.accessGrant with
  | none =>
    unfold registerBegin Cls.requireAccessGrant
    rw [hg]
    rfl
  | some g =>
    rw [hg, Option.any_some] at hcaller
    have hrun : registerBegin crypto cls env token dto =
        (registerLookup cls env (parseInspectionToken crypto token) dto >>= fun begun =>
          pure (.inl begun)) := by
      unfold registerBegin Cls.requireAccessGrant
      rw [hg]
      funext w
      show (_ : Effect AssetWorld ApiError _).run w = _
      rw [orRaise_some, run_pure_bind]
      simp only [hcaller, Bool.false_eq_true, if_false]
      rfl
    rw [hrun]
    exact ReadOnly.bind (readOnly_registerLookup _ _ _ _) (fun _ => readOnly_pure _) w

theorem registerStep_after_assign (env : Env) (r : Registration) (tag : Tag) (w : AssetWorld) :
    (registerStep env r (.assign tag)).after w =
      (assignTag tag.id r.context.clientId r.context.siteId).after w := by
  unfold registerStep
  rcases h : (assignTag tag.id r.context.clientId r.context.siteId).run w with ⟨res, w'⟩
  cases res with
  | error e => rw [after_of_run h, after_of_run (run_bind_error h)]
  | ok u => rw [after_of_run h, Effect.after, run_bind_ok h]; rfl

/-- The two queries under the caller's policies keep every client. -/
theorem registerStep_keeps {env : Env} {r : Registration} {phase : RegisterPhase}
    (hphase : ∀ tag, phase ≠ .assign tag) (w : AssetWorld) :
    TenantKept w ((registerStep env r phase).after w) := by
  have hquery : ∀ {x : AssetApi Tag}, x.Atomic →
      (∀ tag w', x.run w = (.ok tag, w') → TenantKept w w') →
      TenantKept w ((x >>= fun tag => (pure (.inr tag) : AssetApi (RegisterPhase ⊕ Tag))).after w) :=
    fun hatomic hok => Atomic.leaves (I := TenantKept w)
      (hatomic.bind_total fun _ => total_pure _) (.refl w) fun _ w' h => by
        obtain ⟨tag, w'', hx, hret⟩ := bind_eq_ok.mp h
        rw [run_pure] at hret
        obtain rfl : w'' = w' := (Prod.mk.inj hret).2
        exact hok tag _ hx
  cases phase with
  | assign tag => exact absurd rfl (hphase tag)
  | update tag => exact hquery (atomic_attempt _) fun _ _ => updateTag_keeps
  | create => exact hquery (atomic_attempt _) fun _ _ => createTag_keeps

theorem Registering.step_lookup_world {s : Registering} {i : Nat} {crypto : TokenCrypto}
    {cls : Cls} {env : Env} {token : String} {dto : RegisterTagDto}
    (hcaller : ¬ (RegisterLabel.lookup i crypto cls env token dto).AsSystemAdmin) :
    (s.step (.lookup i crypto cls env token dto)).world = s.world := by
  have hafter := registerBegin_after crypto env token dto hcaller s.world
  cases hcall : s.calls i with
  | some call => simp only [step, hcall]
  | none =>
    rcases hrun : (registerBegin crypto cls env token dto).run s.world with ⟨res, w⟩
    rw [after_of_run hrun] at hafter
    simp only [step, hcall, hrun]
    split <;> simp_all

theorem Registering.step_next_world {s : Registering} {i : Nat} {env : Env} {r : Registration}
    {phase : RegisterPhase} (hcall : s.calls i = some (r, phase)) :
    (s.step (.next i env)).world = (registerStep env r phase).after s.world := by
  rcases hrun : (registerStep env r phase).run s.world with ⟨res, w⟩
  rw [after_of_run hrun]
  simp only [step, hcall, hrun]
  split <;> simp_all

/-- **One step keeps every client exactly when it meets its condition.** -/
theorem Registering.step_keeps_iff {s : Registering} {l : RegisterLabel}
    (hcaller : ¬ l.AsSystemAdmin) : TenantKept s.world (s.step l).world ↔ l.KeepsTenant s := by
  cases l with
  | lookup i crypto cls env token dto =>
    rw [step_lookup_world hcaller]
    exact iff_of_true (.refl _) trivial
  | next i env =>
    cases hcall : s.calls i with
    | none =>
      have hstep : s.step (.next i env) = s := by
        unfold step
        simp only [hcall]
      rw [hstep]
      apply iff_of_true (.refl _)
      intro r tag h
      rw [hcall] at h
      exact absurd h (by simp)
    | some call =>
      obtain ⟨r, phase⟩ := call
      rw [step_next_world hcall]
      cases phase with
      | assign tag =>
        rw [registerStep_after_assign, assignTag_keeps_iff]
        constructor
        · intro hcond r' tag' h
          rw [hcall] at h
          obtain ⟨rfl, hphase⟩ := Prod.mk.inj (Option.some.inj h)
          obtain rfl := RegisterPhase.assign.inj hphase
          exact hcond
        · exact fun hcond => hcond r tag hcall
      | update tag =>
        apply iff_of_true (registerStep_keeps (fun _ => by simp) _)
        intro r' tag' h
        rw [hcall] at h
        exact absurd h (by simp)
      | create =>
        apply iff_of_true (registerStep_keeps (fun _ => by simp) _)
        intro r' tag' h
        rw [hcall] at h
        exact absurd h (by simp)

/-! ## 3. Runs -/

/-- **In a run of calls by callers who do not act as system admins, no client changes exactly
    when every assignment that goes through finds its tag without a client, or at the
    caller's.** -/
theorem tagTenant_iff {s : Registering} {ls : List RegisterLabel}
    (hcallers : ∀ l ∈ ls, ¬ l.AsSystemAdmin) :
    (∀ u v, Earlier Registering.step s ls u v → TenantKept u.world v.world) ↔
      ∀ u l, Fired Registering.step s ls u l → l.KeepsTenant u := by
  rw [earlier_iff_fired (R := fun u v : Registering => TenantKept u.world v.world)
    (fun s => .refl s.world) (fun _ _ _ => TenantKept.trans)]
  apply fired_iff_fired (I := fun _ => True) trivial (fun _ _ _ _ => trivial)
  intro u l hl _
  exact Registering.step_keeps_iff (hcallers l hl)

/-! ## 4. A tag of another client -/

def aliceAtBolt : Cls where
  user := some { idpId := "idp-alice", email := "alice@x.org", username := "alice" }
  person := some { id := "alice", firstName := "", lastName := "", email := "alice@x.org" }
  accessGrant := some { roleId := "inspector", scope := .site, capabilities := [],
                        clientId := "bolt", siteId := "bolt-1" }

/-- A tag that was given its client before its site. -/
def tagOfAcme : Tag :=
  { id := "t", externalId := "tag-1", serialNumber := "SN-1", clientId := some "acme" }

def acmeWorld : AssetWorld where
  core :=
    { clients := ⟨[{ id := "acme", externalId := "x-acme" }, { id := "bolt", externalId := "x-bolt" }],
        by decide⟩
      sites := ⟨[{ id := "bolt-1", externalId := "x-1", createdOn := 0, clientId := "bolt" }],
        by decide⟩ }
  tags := ⟨[tagOfAcme], by decide⟩
  assets := ⟨[{ id := "extinguisher", siteId := "bolt-1", clientId := "bolt" }], by decide⟩

def tagCrypto : TokenCrypto where
  base64UrlDecode := fun s => if s = "U04tMS50YWctMQ" then "SN-1.tag-1" else ""
  hmacSha256 := fun _ _ => ""
  defaultSigningKeyId := "default"
  createSecret := "secret"

/-- Alice registers the tag, with nobody else around. -/
def aliceRegisters : List RegisterLabel :=
  [.lookup 0 tagCrypto aliceAtBolt {} "U04tMS50YWctMQ" { asset := "extinguisher" },
   .next 0 {}, .next 0 {}]

theorem aliceRegisters_notAsSystemAdmin : ∀ l ∈ aliceRegisters, ¬ l.AsSystemAdmin := by
  intro l hl
  simp only [aliceRegisters, List.mem_cons, List.not_mem_nil, or_false] at hl
  rcases hl with rfl | rfl | rfl
  · simp [RegisterLabel.AsSystemAdmin, aliceAtBolt, actingAsSystemAdmin]
  · exact id
  · exact id

/-- At its end the tag is a tag of `bolt`. -/
theorem aliceRegisters_tags :
    (aliceRegisters.foldl Registering.step { world := acmeWorld }).world.tags.rows =
      [tagOfAcme.setPlace (some "bolt") (some "bolt-1")] := by
  decide

theorem aliceRegisters_movesTag :
    (∀ l ∈ aliceRegisters, ¬ l.AsSystemAdmin) ∧
      ¬ ∀ u v, Earlier Registering.step { world := acmeWorld } aliceRegisters u v →
        TenantKept u.world v.world := by
  refine ⟨aliceRegisters_notAsSystemAdmin, fun h => ?_⟩
  have hkept := h _ (aliceRegisters.foldl Registering.step { world := acmeWorld })
    (.inl ⟨rfl, .inr (.inr (.inr rfl))⟩)
  obtain ⟨t, ht, -, hc⟩ := hkept tagOfAcme (List.mem_singleton_self _) "acme" rfl
  rw [← Table.mem_rows, aliceRegisters_tags, List.mem_singleton] at ht
  rw [ht] at hc
  exact absurd hc (by decide)

theorem tagTenant_iff_aliceRegisters :
    (∀ u v, Earlier Registering.step { world := acmeWorld } aliceRegisters u v →
        TenantKept u.world v.world) ↔
      ∀ u l, Fired Registering.step { world := acmeWorld } aliceRegisters u l → l.KeepsTenant u :=
  tagTenant_iff aliceRegisters_notAsSystemAdmin

end ShieldApi
