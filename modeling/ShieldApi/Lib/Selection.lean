import Mathlib.Tactic.ByContra

/-!
# A selected place

Entries have an owner and a place, and each has a flag. The flags are meant to **select** one place
of every owner: the entries with the flag are those at that place, and all of those. The flags are
a partial function of the entry's key, `none` where there is no entry.

`OneSelected` looks from one flagged entry at all the others. What a proof about a write wants is
the symmetric form: any two entries of one owner `Agree`. Two entries neither of which was written
agree as they did before, so the exact condition of a write is about the written ones.
-/

set_option autoImplicit false

namespace ShieldApi

variable {κ ω π : Type}

section Definitions

variable (owner : κ → ω) (place : κ → π)

/-- If an entry has the flag, the entries of its owner that have it are those at its place. -/
def OneSelected (f : κ → Option Bool) : Prop :=
  ∀ k, f k = some true → ∀ k' v, f k' = some v → owner k' = owner k →
    (v = true ↔ place k' = place k)

/-- At one place the flags are the same; of two places only one has any. -/
def Agree (k : κ) (u : Bool) (k' : κ) (v : Bool) : Prop :=
  (place k = place k' → u = v) ∧ (place k ≠ place k' → u = true → v = true → False)

/-- The entries of `o` that are not `written` leave room for entries at `p` with the flag `v`. -/
def Admits (f : κ → Option Bool) (written : κ → Prop) (o : ω) (p : π) (v : Bool) : Prop :=
  ∀ k u, ¬ written k → f k = some u → owner k = o →
    if v then (u = true ↔ place k = p) else (place k = p → u = false)

end Definitions

variable {owner : κ → ω} {place : κ → π} {f f' : κ → Option Bool} {written : κ → Prop}

theorem Agree.symm {k k' : κ} {u v : Bool} (h : Agree place k u k' v) : Agree place k' v k u := by
  obtain ⟨hsame, hother⟩ := h
  exact ⟨fun hp => (hsame hp.symm).symm, fun hp hv hu => hother (Ne.symm hp) hu hv⟩

theorem agree_iff_admits {k k' : κ} {u v : Bool} :
    Agree place k u k' v ↔
      if u then (v = true ↔ place k' = place k) else (place k' = place k → v = false) := by
  unfold Agree
  cases u with
  | true =>
    rw [if_pos rfl]
    constructor
    · rintro ⟨hsame, hother⟩
      refine ⟨fun hv => ?_, fun hp => (hsame hp.symm).symm⟩
      by_contra hp
      exact hother (Ne.symm hp) rfl hv
    · intro h
      exact ⟨fun hp => (h.mpr hp.symm).symm, fun hp _ hv => hp (h.mp hv).symm⟩
  | false =>
    rw [if_neg Bool.false_ne_true]
    constructor
    · rintro ⟨hsame, -⟩ hp
      exact (hsame hp.symm).symm
    · intro h
      exact ⟨fun hp => (h hp.symm).symm, fun _ hu => absurd hu Bool.false_ne_true⟩

theorem oneSelected_iff_agree :
    OneSelected owner place f ↔
      ∀ k u k' v, f k = some u → f k' = some v → owner k = owner k' → Agree place k u k' v := by
  constructor
  · intro h k u k' v hk hk' ho
    cases u with
    | true => exact agree_iff_admits.mpr (h k hk k' v hk' ho.symm)
    | false =>
      cases v with
      | true =>
        have hagree : Agree place k' true k false := agree_iff_admits.mpr (h k' hk' k false hk ho)
        exact hagree.symm
      | false => exact ⟨fun _ => rfl, fun _ hu => absurd hu Bool.false_ne_true⟩
  · intro h k hk k' v hk' ho
    exact agree_iff_admits.mp (h k true k' v hk hk' ho.symm)

/-! ## Writes -/

/-- **The exact condition of a write**, of entries of one owner: what stands admits each of them,
    and they agree with each other. -/
theorem OneSelected.writes_iff (hf : OneSelected owner place f)
    (hoff : ∀ k, ¬ written k → f' k = f k) {o : ω} (howner : ∀ k, written k → owner k = o) :
    OneSelected owner place f' ↔
      (∀ k u, written k → f' k = some u → Admits owner place f written o (place k) u) ∧
        ∀ k u k' v, written k → written k' → f' k = some u → f' k' = some v →
          Agree place k u k' v := by
  rw [oneSelected_iff_agree]
  rw [oneSelected_iff_agree] at hf
  constructor
  · intro h
    refine ⟨fun k u hw hk k' v hk'w hk' ho => ?_, fun k u k' v hw hw' hk hk' => ?_⟩
    · rw [← hoff k' hk'w] at hk'
      exact agree_iff_admits.mp (h k u k' v hk hk' ((howner k hw).trans ho.symm))
    · exact h k u k' v hk hk' ((howner k hw).trans (howner k' hw').symm)
  · rintro ⟨hadmits, hagree⟩ k u k' v hk hk' ho
    by_cases hw : written k
    · by_cases hw' : written k'
      · exact hagree k u k' v hw hw' hk hk'
      · rw [hoff k' hw'] at hk'
        exact agree_iff_admits.mpr
          (hadmits k u hw hk k' v hw' hk' (ho.symm.trans (howner k hw)))
    · rw [hoff k hw] at hk
      by_cases hw' : written k'
      · exact (agree_iff_admits.mpr
          (hadmits k' v hw' hk' k u hw hk (ho.trans (howner k' hw')))).symm
      · rw [hoff k' hw'] at hk'
        exact hf k u k' v hk hk' ho

/-- Entries may go. -/
theorem OneSelected.of_deleted (hf : OneSelected owner place f)
    (hoff : ∀ k, f' k = none ∨ f' k = f k) : OneSelected owner place f' := by
  have hold : ∀ k v, f' k = some v → f k = some v := by
    intro k v hk
    rcases hoff k with hnone | hsame
    · rw [hnone] at hk
      exact absurd hk (by simp)
    · rwa [← hsame]
  exact fun k hk k' v hk' ho => hf k (hold k true hk) k' v (hold k' v hk') ho

/-- Entries at one place, with one flag. -/
theorem OneSelected.write_iff (hf : OneSelected owner place f)
    (hoff : ∀ k, ¬ written k → f' k = f k) {o : ω} {p : π} {v : Bool}
    (hon : ∀ k, written k → owner k = o ∧ place k = p ∧ ∀ u, f' k = some u → u = v)
    (hsome : ∃ k, written k ∧ (f' k).isSome = true) :
    OneSelected owner place f' ↔ Admits owner place f written o p v := by
  rw [hf.writes_iff hoff fun k hw => (hon k hw).1]
  constructor
  · rintro ⟨hadmits, -⟩
    obtain ⟨k, hw, hk⟩ := hsome
    obtain ⟨u, hu⟩ := Option.isSome_iff_exists.mp hk
    obtain ⟨-, hp, hflag⟩ := hon k hw
    rw [← hp, ← hflag u hu]
    exact hadmits k u hw hu
  · intro hadmits
    refine ⟨fun k u hw hu => ?_, fun k u k' u' hw hw' hu hu' => ?_⟩
    · obtain ⟨-, hp, hflag⟩ := hon k hw
      rw [hp, hflag u hu]
      exact hadmits
    · obtain ⟨-, hp, hflag⟩ := hon k hw
      obtain ⟨-, hp', hflag'⟩ := hon k' hw'
      rw [hflag u hu, hflag' u' hu']
      exact ⟨fun _ => rfl, fun hne => absurd (hp.trans hp'.symm) hne⟩

/-- Entries none of which has the flag. -/
theorem OneSelected.write_none_iff (hf : OneSelected owner place f)
    (hoff : ∀ k, ¬ written k → f' k = f k) {o : ω}
    (hon : ∀ k, written k → owner k = o ∧ f' k = some false) :
    OneSelected owner place f' ↔
      ∀ k, written k → Admits owner place f written o (place k) false := by
  rw [hf.writes_iff hoff fun k hw => (hon k hw).1]
  constructor
  · rintro ⟨hadmits, -⟩ k hw
    exact hadmits k false hw (hon k hw).2
  · intro hadmits
    have hfalse : ∀ k u, written k → f' k = some u → u = false := fun k u hw hk =>
      Option.some.inj (hk.symm.trans (hon k hw).2)
    refine ⟨fun k u hw hk => ?_, fun k u k' v hw hw' hk hk' => ?_⟩
    · rw [hfalse k u hw hk]
      exact hadmits k hw
    · rw [hfalse k u hw hk, hfalse k' v hw' hk']
      exact ⟨fun _ => rfl, fun _ hu => absurd hu Bool.false_ne_true⟩

/-- Entries exactly one of which has the flag: it has to be alone at its place. -/
theorem OneSelected.write_one_iff (hf : OneSelected owner place f)
    (hoff : ∀ k, ¬ written k → f' k = f k) {o : ω} (howner : ∀ k, written k → owner k = o) {c : κ}
    (hc : written c) (hone : f' c = some true)
    (hothers : ∀ k, written k → k ≠ c → f' k = some false) :
    OneSelected owner place f' ↔
      Admits owner place f written o (place c) true ∧
        ∀ k, written k → place k = place c → k = c := by
  rw [hf.writes_iff hoff howner]
  constructor
  · rintro ⟨hadmits, hagree⟩
    refine ⟨hadmits c true hc hone, fun k hw hp => ?_⟩
    by_contra hne
    have hsame := (hagree k false c true hw hc (hothers k hw hne) hone).1 hp
    exact Bool.false_ne_true hsame
  · rintro ⟨hadmits, halone⟩
    have hflag : ∀ k u, written k → f' k = some u → (u = true ↔ k = c) := by
      intro k u hw hk
      by_cases hkc : k = c
      · subst hkc
        exact iff_of_true (Option.some.inj (hk.symm.trans hone)) rfl
      · obtain rfl := Option.some.inj (hk.symm.trans (hothers k hw hkc))
        exact iff_of_false Bool.false_ne_true hkc
    refine ⟨fun k u hw hk => ?_, fun k u k' v hw hw' hk hk' => ?_⟩
    · cases u with
      | true =>
        obtain rfl := (hflag k true hw hk).mp rfl
        exact hadmits
      | false =>
        -- what is elsewhere does not have the flag
        intro k' v hw' hk' ho
        rw [if_neg Bool.false_ne_true]
        intro hp
        have hnot : place k' ≠ place c := fun hpc =>
          Bool.false_ne_true ((hflag k false hw hk).mpr (halone k hw (hp.symm.trans hpc)))
        have hiff := hadmits k' v hw' hk' ho
        rw [if_pos rfl] at hiff
        exact Bool.eq_false_iff.mpr fun hv => hnot (hiff.mp hv)
    · refine ⟨fun hp => ?_, fun hp hu hv => ?_⟩
      · rw [Bool.eq_iff_iff, hflag k u hw hk, hflag k' v hw' hk']
        constructor
        · intro hkc
          exact halone k' hw' (hp.symm.trans (congrArg place hkc))
        · intro hkc
          exact halone k hw (hp.trans (congrArg place hkc))
      · exact hp (congrArg place (((hflag k u hw hk).mp hu).trans ((hflag k' v hw' hk').mp hv).symm))

end ShieldApi
