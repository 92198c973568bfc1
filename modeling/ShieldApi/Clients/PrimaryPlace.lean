import ShieldApi.Clients.AccessCommits

/-!
# Is a person's primary access one place?

`getAccessGrantForUser` merges the primary rows of a person into one grant. It can do so if they
are at one client and site, and the grant is complete if they are all the rows that
there are at it. The services say that they mean this ("isPrimary matches existing primary
status for this client + site", "All roles for same first client/site are primary"), but **each
decides on the flag by a query of its own, and writes it to its own rows only**.

`Commit.Fits` is what each of them owes to the rows it does not write, at the moment it commits.
`primaryIsOnePlace_iff` says that this is all: along any interleaving of the calls, primary access
is one place throughout precisely if every commit that takes effect fits.
-/

set_option autoImplicit false

namespace ShieldApi

open Effect InvitationsService

/-! ## 1. One place -/

/-- **If a row of a person is primary, the primary rows of the person are those at its place.** -/
def PrimaryIsOnePlace (db : Db) : Prop :=
  ∀ a ∈ db.accesses, a.isPrimary = true → ∀ b ∈ db.accesses, b.personId = a.personId →
    (b.isPrimary = true ↔ b.clientId = a.clientId ∧ b.siteId = a.siteId)

def AccessKey.place (k : AccessKey) : String × String := (k.clientId, k.siteId)

/-- The flags of the table, as a selection among places. -/
abbrev SelectsOnePlace (flags : AccessKey → Option Bool) : Prop :=
  OneSelected AccessKey.personId AccessKey.place flags

theorem primaryIsOnePlace_iff_selects {db : Db} :
    PrimaryIsOnePlace db ↔ SelectsOnePlace db.primaryFlag := by
  constructor
  · intro h k hk k' v hk' ho
    obtain ⟨a, ha, rfl, hprimary⟩ := primaryFlag_eq_some.mp hk
    obtain ⟨b, hb, rfl, rfl⟩ := primaryFlag_eq_some.mp hk'
    rw [h a ha hprimary b hb ho]
    unfold AccessKey.place
    rw [Prod.mk.injEq]
    rfl
  · intro h a ha hprimary b hb ho
    have hflag := mem_primaryFlag ha
    rw [hprimary] at hflag
    rw [h a.key hflag b.key b.isPrimary (mem_primaryFlag hb) ho]
    unfold AccessKey.place
    rw [Prod.mk.injEq]
    rfl

/-! ## 2. What a commit has to fit to -/

/-- The person's rows that are not written: those at the place are primary, and no others. -/
def Db.FitsPrimary (db : Db) (written : List AccessKey) (personId clientId siteId : String) :
    Prop :=
  ∀ a ∈ db.accesses, a.key ∉ written → a.personId = personId →
    (a.isPrimary = true ↔ a.clientId = clientId ∧ a.siteId = siteId)

/-- The person's rows that are not written: none at the place is primary. -/
def Db.FitsOther (db : Db) (written : List AccessKey) (personId clientId siteId : String) : Prop :=
  ∀ a ∈ db.accesses, a.key ∉ written → a.personId = personId →
    a.clientId = clientId ∧ a.siteId = siteId → a.isPrimary = false

/-- What rows at a place have to fit to, if they are written with this flag. -/
def Db.FitsFlag (db : Db) (written : List AccessKey) (personId clientId siteId : String)
    (isPrimary : Bool) : Prop :=
  if isPrimary then db.FitsPrimary written personId clientId siteId
  else db.FitsOther written personId clientId siteId

theorem admits_iff_fitsFlag {db : Db} {written : List AccessKey}
    {personId clientId siteId : String} {v : Bool} :
    Admits AccessKey.personId AccessKey.place db.primaryFlag (· ∈ written) personId
        (clientId, siteId) v ↔
      db.FitsFlag written personId clientId siteId v := by
  unfold Admits Db.FitsFlag Db.FitsPrimary Db.FitsOther AccessKey.place
  simp only [Prod.mk.injEq]
  cases v with
  | true =>
    simp only [if_true]
    constructor
    · intro h a ha hw hp
      exact h a.key a.isPrimary hw (mem_primaryFlag ha) hp
    · intro h k u hw hk hp
      obtain ⟨a, ha, rfl, rfl⟩ := primaryFlag_eq_some.mp hk
      exact h a ha hw hp
  | false =>
    simp only [Bool.false_eq_true, if_false]
    constructor
    · intro h a ha hw hp
      exact h a.key a.isPrimary hw (mem_primaryFlag ha) hp
    · intro h k u hw hk hp
      obtain ⟨a, ha, rfl, rfl⟩ := primaryFlag_eq_some.mp hk
      exact h a ha hw hp

namespace Commit

/-- **The commit fits the rows that are there.** An accept that makes its clicked invitation
    primary needs to have no other role at that place in the group; an import that creates nothing,
    and a removal that promotes nothing, needs nothing. -/
def Fits (db : Db) : Commit → Prop
  | .accept _ personId code existingPrimaryAccess invitationsToAccept =>
    let written := invitationsToAccept.map (accessKey personId)
    (∀ inv, BecomesPrimary personId code existingPrimaryAccess invitationsToAccept inv →
      db.FitsPrimary written personId inv.clientId inv.siteId ∧
        ∀ i ∈ invitationsToAccept, i.clientId = inv.clientId → i.siteId = inv.siteId →
          i.roleId = inv.roleId) ∧
    ((∀ inv, ¬ BecomesPrimary personId code existingPrimaryAccess invitationsToAccept inv) →
      ∀ i ∈ invitationsToAccept, db.FitsOther written personId i.clientId i.siteId)
  | .usersAddRole personId dto existingPrimaryAccess =>
    db.FitsFlag [⟨personId, dto.clientId, dto.siteId, dto.roleId⟩] personId dto.clientId dto.siteId
      (mayBePrimary existingPrimaryAccess dto.clientId dto.siteId)
  | .membersAddRole personId clientId dto primaryHere =>
    db.FitsFlag [⟨personId, clientId, dto.siteId, dto.roleId⟩] personId clientId dto.siteId
      primaryHere.isSome
  | .syncUser _ _ personId clientId siteId isFirstAccess roleIds =>
    (∃ roleId ∈ roleIds, db.primaryFlag ⟨personId, clientId, siteId, roleId⟩ = none) →
      db.FitsFlag [] personId clientId siteId isFirstAccess
  | .remove _ none => True
  | .remove deleted (some promotion) =>
    (∃ k ∈ promotion.keys, k ∉ deleted ∧ (db.primaryFlag k).isSome = true) →
      db.FitsPrimary (deleted ++ promotion.keys) promotion.personId promotion.clientId
        promotion.siteId

/-! ## 3. …and that this is exact -/

section Keeps

variable {db : Db}

theorem upsert_selects_iff (h : SelectsOnePlace db.primaryFlag) (k : AccessKey) (v : Bool) :
    SelectsOnePlace (Function.update db.primaryFlag k (some v)) ↔
      db.FitsFlag [k] k.personId k.clientId k.siteId v := by
  rw [← admits_iff_fitsFlag]
  refine OneSelected.write_iff h (fun k' hk' => ?_) (fun k' hk' => ?_) ⟨k, ?_, ?_⟩
  · exact Function.update_of_ne (fun he => hk' (List.mem_singleton.mpr he)) ..
  · obtain rfl := List.mem_singleton.mp hk'
    refine ⟨rfl, rfl, fun u hu => ?_⟩
    rw [Function.update_self] at hu
    exact (Option.some.inj hu).symm
  · exact List.mem_singleton_self k
  · rw [Function.update_self]
    rfl

/-- The flags an accept writes, in order. -/
def acceptedFlags (env : Env) (personId code : String) (existing : Option PersonClientAccess)
    (invs : List Invitation) : List (AccessKey × Option Bool) :=
  (acceptedRows env personId code existing invs).map fun a => (a.key, some a.isPrimary)

theorem acceptedFlags_keys (env : Env) (personId code : String)
    (existing : Option PersonClientAccess) (invs : List Invitation) :
    (acceptedFlags env personId code existing invs).map Prod.fst =
      invs.map (accessKey personId) := by
  unfold acceptedFlags
  rw [List.map_map]
  exact map_key_acceptedRows ..

/-- A row an accept writes is primary if it is that of a clicked invitation that becomes primary. -/
theorem acceptedFlags_at {env : Env} {personId code : String}
    {existing : Option PersonClientAccess} {invs : List Invitation}
    {flags : AccessKey → Option Bool} {k : AccessKey} (hk : k ∈ invs.map (accessKey personId))
    {v : Bool} :
    overwrite flags (acceptedFlags env personId code existing invs) k = some v ↔
      (v = true ↔ ∃ inv, BecomesPrimary personId code existing invs inv ∧
        accessKey personId inv = k) := by
  obtain ⟨b, hb, hlast⟩ : ∃ b,
      overwrite flags (acceptedFlags env personId code existing invs) k = some b ∧
        (b = true ↔ ∃ inv, BecomesPrimary personId code existing invs inv ∧
          accessKey personId inv = k) := by
    rcases overwrite_eq_iff.mp (Eq.refl (overwrite flags
      (acceptedFlags env personId code existing invs) k)) with ⟨hno, -⟩ | ⟨pre, post, hsplit, hpost⟩
    · rw [acceptedFlags_keys] at hno
      exact absurd hk hno
    · have hwritten := List.mem_append_right pre (List.mem_cons_self
        (a := (k, overwrite flags (acceptedFlags env personId code existing invs) k)) (l := post))
      rw [← hsplit] at hwritten
      obtain ⟨a, -, ha⟩ := List.mem_map.mp hwritten
      obtain ⟨-, hvalue⟩ := Prod.mk.inj ha
      refine ⟨a.isPrimary, hvalue.symm, ?_⟩
      rw [← hvalue] at hsplit
      constructor
      · intro hprimary
        rw [hprimary] at hsplit
        exact acceptedRows_last_primary.mp ⟨pre, post, hsplit, hpost⟩
      · intro hclicked
        obtain ⟨pre', post', hsplit', hpost'⟩ := acceptedRows_last_primary.mpr hclicked
        have htrue : overwrite flags (acceptedFlags env personId code existing invs) k = some true :=
          overwrite_eq_iff.mpr (.inr ⟨pre', post', hsplit', hpost'⟩)
        exact Option.some.inj (hvalue.trans htrue)
  rw [hb, Option.some.injEq, eq_comm, Bool.eq_iff_iff, hlast]

theorem acceptedFlags_off {env : Env} {personId code : String}
    {existing : Option PersonClientAccess} {invs : List Invitation}
    {flags : AccessKey → Option Bool} (k : AccessKey) (hk : k ∉ invs.map (accessKey personId)) :
    overwrite flags (acceptedFlags env personId code existing invs) k = flags k := by
  rw [← acceptedFlags_keys env personId code existing invs] at hk
  exact overwrite_eq_iff.mpr (.inl ⟨hk, rfl⟩)

theorem accessKey_owner {personId : String} {invs : List Invitation} (k : AccessKey)
    (hk : k ∈ invs.map (accessKey personId)) : k.personId = personId := by
  obtain ⟨i, -, rfl⟩ := List.mem_map.mp hk
  rfl

/-- Where the clicked invitation becomes primary. -/
theorem accept_selects_iff_of_primary (h : SelectsOnePlace db.primaryFlag) (env : Env)
    {personId code : String} {existing : Option PersonClientAccess} {invs : List Invitation}
    {inv : Invitation} (hinv : BecomesPrimary personId code existing invs inv) :
    SelectsOnePlace (overwrite db.primaryFlag (acceptedFlags env personId code existing invs)) ↔
      db.FitsPrimary (invs.map (accessKey personId)) personId inv.clientId inv.siteId ∧
        ∀ i ∈ invs, i.clientId = inv.clientId → i.siteId = inv.siteId → i.roleId = inv.roleId := by
  have hmem : accessKey personId inv ∈ invs.map (accessKey personId) :=
    List.mem_map_of_mem (List.mem_of_getElem? hinv.1)
  have hone : overwrite db.primaryFlag (acceptedFlags env personId code existing invs)
      (accessKey personId inv) = some true :=
    (acceptedFlags_at hmem).mpr (iff_of_true rfl ⟨inv, hinv, rfl⟩)
  have hothers : ∀ k ∈ invs.map (accessKey personId), k ≠ accessKey personId inv →
      overwrite db.primaryFlag (acceptedFlags env personId code existing invs) k =
        some false := by
    intro k hk hne
    refine (acceptedFlags_at hk).mpr (iff_of_false Bool.false_ne_true ?_)
    rintro ⟨inv', hinv', rfl⟩
    exact hne (congrArg (accessKey personId) (Option.some.inj (hinv'.1.symm.trans hinv.1)))
  have halone : (∀ k ∈ invs.map (accessKey personId), k.place = (accessKey personId inv).place →
        k = accessKey personId inv) ↔
      ∀ i ∈ invs, i.clientId = inv.clientId → i.siteId = inv.siteId → i.roleId = inv.roleId := by
    rw [List.forall_mem_map]
    simp only [AccessKey.place, accessKey, Prod.mk.injEq, AccessKey.mk.injEq, true_and, and_imp]
    constructor
    · intro hk i hi hclient hsite
      exact (hk i hi hclient hsite).2.2
    · intro hrole i hi hclient hsite
      exact ⟨hclient, hsite, hrole i hi hclient hsite⟩
  exact (h.write_one_iff acceptedFlags_off accessKey_owner hmem hone hothers).trans
    (and_congr admits_iff_fitsFlag halone)

/-- Where none of the invitations does. -/
theorem accept_selects_iff_of_other (h : SelectsOnePlace db.primaryFlag) (env : Env)
    {personId code : String} {existing : Option PersonClientAccess} {invs : List Invitation}
    (hno : ∀ inv, ¬ BecomesPrimary personId code existing invs inv) :
    SelectsOnePlace (overwrite db.primaryFlag (acceptedFlags env personId code existing invs)) ↔
      ∀ i ∈ invs, db.FitsOther (invs.map (accessKey personId)) personId i.clientId i.siteId := by
  have hnone : ∀ k ∈ invs.map (accessKey personId), k.personId = personId ∧
      overwrite db.primaryFlag (acceptedFlags env personId code existing invs) k =
        some false := by
    intro k hk
    refine ⟨accessKey_owner k hk, (acceptedFlags_at hk).mpr (iff_of_false Bool.false_ne_true ?_)⟩
    rintro ⟨inv, hinv, -⟩
    exact hno inv hinv
  refine (h.write_none_iff acceptedFlags_off hnone).trans ?_
  rw [List.forall_mem_map]
  exact forall₂_congr fun i _ => admits_iff_fitsFlag

theorem accept_selects_iff (h : SelectsOnePlace db.primaryFlag) (env : Env)
    (personId code : String) (existing : Option PersonClientAccess) (invs : List Invitation) :
    SelectsOnePlace ((Commit.accept env personId code existing invs).apply db.primaryFlag) ↔
      (Commit.accept env personId code existing invs).Fits db := by
  unfold Commit.apply Commit.Fits
  by_cases hclicked : ∃ inv, BecomesPrimary personId code existing invs inv
  · obtain ⟨inv, hinv⟩ := hclicked
    refine (accept_selects_iff_of_primary h env hinv).trans ?_
    constructor
    · intro hfits
      refine ⟨fun inv' hinv' => ?_, fun hno => absurd hinv (hno inv)⟩
      obtain rfl := Option.some.inj (hinv.1.symm.trans hinv'.1)
      exact hfits
    · intro hfits
      exact hfits.1 inv hinv
  · push Not at hclicked
    refine (accept_selects_iff_of_other h env hclicked).trans ?_
    constructor
    · intro hfits
      exact ⟨fun inv hinv => absurd hinv (hclicked inv), fun _ => hfits⟩
    · intro hfits
      exact hfits.2 hclicked

theorem syncUser_selects_iff (h : SelectsOnePlace db.primaryFlag) (env : Env)
    (userId personId clientId siteId : String) (isFirstAccess : Bool) (roleIds : List String) :
    SelectsOnePlace ((Commit.syncUser env userId personId clientId siteId isFirstAccess
        roleIds).apply db.primaryFlag) ↔
      (Commit.syncUser env userId personId clientId siteId isFirstAccess roleIds).Fits db := by
  simp only [Commit.apply, Commit.Fits]
  by_cases hnew : ∃ roleId ∈ roleIds,
      db.primaryFlag ⟨personId, clientId, siteId, roleId⟩ = none
  · refine (OneSelected.write_iff h (o := personId) (p := (clientId, siteId)) (v := isFirstAccess)
      (fun k hk => if_neg hk) (fun k hk => ?_) ?_).trans ?_
    · obtain ⟨hnone, roleId, hrole, rfl⟩ := hk
      refine ⟨rfl, rfl, fun u hu => ?_⟩
      rw [if_pos ⟨hnone, roleId, hrole, rfl⟩] at hu
      exact (Option.some.inj hu).symm
    · obtain ⟨roleId, hrole, hnone⟩ := hnew
      have hk : (db.primaryFlag ⟨personId, clientId, siteId, roleId⟩).isNone = true ∧
          ∃ roleId' ∈ roleIds, AccessKey.mk personId clientId siteId roleId' =
            ⟨personId, clientId, siteId, roleId⟩ :=
        ⟨Option.isNone_iff_eq_none.mpr hnone, roleId, hrole, rfl⟩
      refine ⟨_, hk, ?_⟩
      rw [if_pos hk]
      rfl
    · -- a row that is there is not written
      simp only [hnew, true_implies]
      rw [← admits_iff_fitsFlag]
      refine forall₂_congr fun k u => ⟨fun hk _ hu => hk (fun hw => ?_) hu, fun hk _ hu =>
        hk List.not_mem_nil hu⟩
      obtain ⟨hnone, -⟩ := hw
      rw [hu] at hnone
      exact absurd hnone (by simp)
  · have hsame : (fun k => if (db.primaryFlag k).isNone ∧
        ∃ roleId ∈ roleIds, ⟨personId, clientId, siteId, roleId⟩ = k then some isFirstAccess
        else db.primaryFlag k) = db.primaryFlag := by
      funext k
      refine if_neg fun hk => hnew ?_
      obtain ⟨hnone, roleId, hrole, rfl⟩ := hk
      exact ⟨roleId, hrole, Option.isNone_iff_eq_none.mp hnone⟩
    rw [hsame]
    exact iff_of_true h fun hrole => absurd hrole hnew

theorem withoutRows_selects (h : SelectsOnePlace db.primaryFlag) (p : AccessKey → Bool) :
    SelectsOnePlace (withoutRows p db.primaryFlag) := by
  apply h.of_deleted
  intro k
  unfold withoutRows
  split
  · exact .inl rfl
  · exact .inr rfl

theorem remove_selects_iff (h : SelectsOnePlace db.primaryFlag) (deleted : List AccessKey)
    (promotion : Promotion) :
    SelectsOnePlace ((Commit.remove deleted (some promotion)).apply db.primaryFlag) ↔
      (Commit.remove deleted (some promotion)).Fits db := by
  have hrest := withoutRows_selects h (deleted.contains ·)
  have hleft : ∀ k, k ∉ deleted →
      withoutRows (deleted.contains ·) db.primaryFlag k = db.primaryFlag k := by
    intro k hk
    exact if_neg fun hc => hk (List.contains_iff_mem.mp hc)
  have hgone : ∀ k, k ∈ deleted → withoutRows (deleted.contains ·) db.primaryFlag k = none := by
    intro k hk
    exact if_pos (List.contains_iff_mem.mpr hk)
  have hoff : ∀ k, k ∉ promotion.keys →
      withPrimary (promotion.keys.contains ·) (withoutRows (deleted.contains ·) db.primaryFlag) k =
        withoutRows (deleted.contains ·) db.primaryFlag k := by
    intro k hk
    exact if_neg fun hc => hk (List.contains_iff_mem.mp hc)
  have hon : ∀ k, k ∈ promotion.keys →
      withPrimary (promotion.keys.contains ·) (withoutRows (deleted.contains ·) db.primaryFlag) k =
        (withoutRows (deleted.contains ·) db.primaryFlag k).map fun _ => true := by
    intro k hk
    exact if_pos (List.contains_iff_mem.mpr hk)
  simp only [Commit.apply, Commit.Fits]
  by_cases hsome : ∃ k ∈ promotion.keys, k ∉ deleted ∧ (db.primaryFlag k).isSome = true
  · refine (OneSelected.write_iff hrest (o := promotion.personId)
      (p := (promotion.clientId, promotion.siteId)) (v := true) hoff (fun k hk => ?_) ?_).trans ?_
    · have howner : k.personId = promotion.personId ∧
          k.place = (promotion.clientId, promotion.siteId) := by
        obtain ⟨roleId, -, rfl⟩ := List.mem_map.mp hk
        exact ⟨rfl, rfl⟩
      refine ⟨howner.1, howner.2, fun u hu => ?_⟩
      rw [hon k hk] at hu
      obtain ⟨-, -, rfl⟩ := Option.map_eq_some_iff.mp hu
      rfl
    · obtain ⟨k, hk, hnot, hflag⟩ := hsome
      refine ⟨k, hk, ?_⟩
      rw [hon k hk, hleft k hnot, Option.isSome_map]
      exact hflag
    · simp only [hsome, true_implies]
      refine Iff.trans ?_ (admits_iff_fitsFlag (v := true))
      refine forall₂_congr fun k u => ⟨fun hk hw hu => ?_, fun hk hw hu => ?_⟩
      · have hw : k ∉ deleted ++ promotion.keys := hw
        rw [List.mem_append, not_or] at hw
        exact hk hw.2 ((hleft k hw.1).trans hu)
      · have hnot : k ∉ deleted := by
          intro hd
          rw [hgone k hd] at hu
          exact absurd hu (by simp)
        rw [hleft k hnot] at hu
        refine hk (fun hmem => ?_) hu
        rcases List.mem_append.mp hmem with hd | hp
        · exact hnot hd
        · exact hw hp
  · refine iff_of_true (hrest.of_deleted fun k => ?_) fun hp => absurd hp hsome
    by_cases hk : k ∈ promotion.keys
    · refine .inl ?_
      rw [hon k hk]
      by_cases hd : k ∈ deleted
      · rw [hgone k hd]
        rfl
      · rw [hleft k hd, Option.map_eq_none_iff]
        by_contra hflag
        exact hsome ⟨k, hk, hd, Option.isSome_iff_ne_none.mpr hflag⟩
    · exact .inr (hoff k hk)

/-- **A commit that goes through keeps primary access one place precisely if it fits.** -/
theorem selects_iff (h : SelectsOnePlace db.primaryFlag) (commit : Commit) :
    SelectsOnePlace (commit.apply db.primaryFlag) ↔ commit.Fits db := by
  cases commit with
  | accept env personId code existing invs => exact accept_selects_iff h env personId code _ _
  | usersAddRole personId dto existing => exact upsert_selects_iff h _ _
  | membersAddRole personId clientId dto primaryHere => exact upsert_selects_iff h _ _
  | syncUser env userId personId clientId siteId isFirstAccess roleIds =>
    exact syncUser_selects_iff h env userId personId clientId siteId isFirstAccess roleIds
  | remove deleted promotion =>
    cases promotion with
    | none => exact iff_of_true (withoutRows_selects h _) trivial
    | some promotion => exact remove_selects_iff h deleted promotion

end Keeps

end Commit

/-! ## 4. Any interleaving -/

/-- What a step owes to the property. -/
def StepFits (tag : Option Commit) (db : Db) : Prop :=
  ∀ commit, tag = some commit → commit.GoesThrough db → commit.Fits db

theorem CommitStep.keeps_iff {tag : Option Commit} {write : World → World} {w : World}
    (hstep : CommitStep tag write) (h : PrimaryIsOnePlace w.db) :
    PrimaryIsOnePlace (write w).db ↔ StepFits tag w.db := by
  have hselects := primaryIsOnePlace_iff_selects.mp h
  rw [primaryIsOnePlace_iff_selects]
  cases tag with
  | none =>
    rw [hstep w]
    exact iff_of_true hselects fun commit hcommit => nomatch hcommit
  | some commit =>
    obtain ⟨hgoes, hno⟩ := hstep w
    by_cases hcommit : commit.GoesThrough w.db
    · rw [hgoes hcommit, Commit.selects_iff hselects]
      constructor
      · intro hfits commit' heq _
        obtain rfl := Option.some.inj heq
        exact hfits
      · intro hall
        exact hall commit rfl hcommit
    · rw [hno hcommit]
      apply iff_of_true hselects
      intro commit' heq hgoes'
      obtain rfl := Option.some.inj heq
      exact absurd hgoes' hcommit

/-- Any number of calls on one store. -/
def accessPool {C : Type} (cfg : Config) (w : World) (calls : C → AccessCall) :
    Pool C World (Option Commit) ApiError Unit :=
  { store := w, process := fun c => (calls c).commitSteps cfg }

/-- **When primary access is one place:** along a run of any calls, in any order of their statements,
    it is so throughout precisely if every commit that goes through fits the rows that are there. -/
theorem primaryIsOnePlace_iff {C : Type} [DecidableEq C] {cfg : Config} {w : World}
    (hstart : PrimaryIsOnePlace w.db) (calls : C → AccessCall) {run : List C} :
    (∀ u, Reached Pool.step (accessPool cfg w calls) run u → PrimaryIsOnePlace u.store.db) ↔
      ∀ u c commit, Fired Pool.step (accessPool cfg w calls) run u c →
        u.tag? c = some (some commit) → commit.GoesThrough u.store.db →
          commit.Fits u.store.db := by
  refine (Pool.invariant_iff (I := fun w : World => PrimaryIsOnePlace w.db)
    (G := fun tag w _ => StepFits tag w.db) (fun tag write w hstep h => hstep.keeps_iff h)
    (fun c => (calls c).commitSteps_every cfg) hstart).trans ?_
  constructor
  · intro h u c commit hf htag
    exact h u c hf (some commit) htag commit rfl
  · intro h u c hf tag htag commit hcommit
    exact h u c commit hf (htag.trans (congrArg some hcommit))

/-! ## 5. Two roles at one site

Zoe is invited to a mill, for two roles, and accepts. She has no access anywhere, so the invitation
she clicked becomes primary, and the other one does not. -/

def zoe : Cls where
  user := some { idpId := "idp-zoe", email := "zoe@mill.org", username := "zoe" }
  person := some { id := "zoe", firstName := "Zoe", lastName := "Z.", email := "zoe@mill.org" }

def millInvitation (id code roleId : String) : Invitation where
  id := id
  code := code
  clientId := "mill"
  createdById := "may"
  email := "zoe@mill.org"
  roleId := roleId
  siteId := "mill-1"
  groupId := some "for-zoe"
  expiresOn := 14
  createdOn := 0

def mill : World where
  db :=
    { clients := ⟨[{ id := "mill", externalId := "mill-ltd" }], List.nodup_singleton _⟩
      sites := ⟨[{ id := "mill-1", externalId := "race", createdOn := 0, clientId := "mill" }],
        List.nodup_singleton _⟩
      roles := ⟨[{ id := "miller", name := "Miller", clientAssignable := true },
        { id := "warden", name := "Warden", clientAssignable := true }],
        (by decide : ["miller", "warden"].Nodup)⟩
      persons := ⟨[{ id := "zoe", firstName := "Zoe", lastName := "Z.", email := "zoe@mill.org" },
        { id := "may", firstName := "May", lastName := "M.", email := "may@mill.org" }],
        (by decide : ["zoe", "may"].Nodup)⟩
      invitations := ⟨[millInvitation "mill-inv-1" "race-1" "miller",
        millInvitation "mill-inv-2" "race-2" "warden"],
        (by decide : ["mill-inv-1", "mill-inv-2"].Nodup)⟩ }

theorem mill_onePlace : PrimaryIsOnePlace mill.db := fun _ ha => absurd ha List.not_mem_nil

def zoeAccepts (_ : Unit) : AccessCall := .accept zoe {} "race-1"

/-- All of its steps. -/
def acceptRun : List Unit := List.replicate 7 ()

theorem acceptRun_rows :
    (acceptRun.foldl Pool.step (accessPool {} mill zoeAccepts)).store.db.accesses.rows.map
      (fun a => (a.personId, a.clientId, a.siteId, a.roleId, a.isPrimary)) =
      [("zoe", "mill", "mill-1", "miller", true), ("zoe", "mill", "mill-1", "warden", false)] := by
  decide

theorem acceptRun_splits :
    PrimaryIsOnePlace mill.db ∧
      ∃ u, Reached Pool.step (accessPool {} mill zoeAccepts) acceptRun u ∧
        ¬ PrimaryIsOnePlace u.store.db := by
  refine ⟨mill_onePlace, _, reached_end _ _, fun h => ?_⟩
  have hrows := acceptRun_rows
  obtain ⟨a, ha, hclicked⟩ := List.mem_map.mp (hrows ▸ List.mem_cons_self ..)
  obtain ⟨b, hb, hsibling⟩ := List.mem_map.mp
    (hrows ▸ List.mem_cons_of_mem _ (List.mem_singleton_self _))
  simp only [Prod.mk.injEq] at hclicked hsibling
  obtain ⟨hperson, hclient, hsite, -, hprimary⟩ := hclicked
  obtain ⟨hperson', hclient', hsite', -, hother⟩ := hsibling
  have hiff := h a ha hprimary b hb (hperson'.trans hperson.symm)
  rw [hother] at hiff
  exact Bool.false_ne_true
    (hiff.mpr ⟨hclient'.trans hclient.symm, hsite'.trans hsite.symm⟩)

/-- An administrator gives her one of the roles. -/
def zoeIsAdded (_ : Unit) : AccessCall := .usersAddRole {} "zoe" ⟨"mill", "mill-1", "miller"⟩

theorem zoeIsAdded_onePlace :
    PrimaryIsOnePlace
      ([(), (), (), (), ()].foldl Pool.step (accessPool {} mill zoeIsAdded)).store.db := by
  refine (primaryIsOnePlace_iff mill_onePlace zoeIsAdded).mpr (fun u c commit hf htag _ => ?_) _
    (reached_end _ [(), (), (), (), ()])
  simp only [Fired, or_false] at hf
  cases c
  rcases hf with ⟨rfl, -⟩ | ⟨rfl, -⟩ | ⟨rfl, -⟩ | ⟨rfl, -⟩ | ⟨rfl, -⟩
  · exact absurd (Option.some.inj htag) (by simp)
  · exact absurd (Option.some.inj htag) (by simp)
  · exact absurd (Option.some.inj htag) (by simp)
  · exact absurd (Option.some.inj htag) (by simp)
  · -- there is no row yet
    obtain rfl := Option.some.inj (Option.some.inj htag)
    exact fun a ha => absurd ha List.not_mem_nil

end ShieldApi
