import Mathlib.Data.List.Perm.Subperm
import Mathlib.Logic.Relation

/-!
# Forests of keys

A forest is a relation between keys: `r a b` where `b` hangs under `a`. It is one if no key is below
itself (`Acyclic`). **Over finitely many keys that is what makes a walk down the forest end**: a
path of `n` steps passes `n` different keys.

The walk (`descendants`) is bounded by a number of levels, and has no result where the bound cuts
it short. What it returns does not depend on the bound (`mem_descendants`), and has no key twice
where each has one parent (`descendants_nodup`).

The rest is about forests that are given by their parents, and what it takes to move keys under
another one: one step of it (`acyclic_reparent_iff`), and then all that a single call may do to a
key and the keys around it (`Relinking.acyclic_after_iff`).
-/

set_option autoImplicit false

namespace ShieldApi

namespace Forest

open Relation

variable {κ : Type} {r : κ → κ → Prop} {a b c : κ}

/-! ## 1. Steps -/

/-- `b` is `n` steps below `a`. -/
def Steps (r : κ → κ → Prop) : Nat → κ → κ → Prop
  | 0, a, b => a = b
  | n + 1, a, b => ∃ c, r a c ∧ Steps r n c b

theorem reflTransGen_iff_steps : ReflTransGen r a b ↔ ∃ n, Steps r n a b := by
  constructor
  · intro h
    induction h using ReflTransGen.head_induction_on with
    | refl => exact ⟨0, rfl⟩
    | head hstep _ ih =>
      obtain ⟨n, hn⟩ := ih
      exact ⟨n + 1, _, hstep, hn⟩
  · intro h
    obtain ⟨n, hn⟩ := h
    induction n generalizing a with
    | zero =>
      obtain rfl : a = b := hn
      exact .refl
    | succ n ih =>
      obtain ⟨c, hstep, hn⟩ := hn
      exact .head hstep (ih hn)

/-- No key is below itself. -/
def Acyclic (r : κ → κ → Prop) : Prop := ∀ a, ¬ TransGen r a a

theorem Acyclic.mono {r' : κ → κ → Prop} (h : Acyclic r) (hsub : ∀ a b, r' a b → r a b) :
    Acyclic r' :=
  fun a ha => h a (TransGen.mono hsub a a ha)

theorem acyclic_of_rank (rank : κ → Nat) (h : ∀ a b, r a b → rank a < rank b) : Acyclic r := by
  intro a ha
  have hlt : ∀ b, TransGen r a b → rank a < rank b := by
    intro b hb
    induction hb with
    | single hstep => exact h _ _ hstep
    | tail _ hstep ih => exact Nat.lt_trans ih (h _ _ hstep)
  exact Nat.lt_irrefl _ (hlt a ha)

/-- A path passes as many keys as it has steps. -/
theorem Steps.passes (h : Acyclic r) {n : Nat} (hn : Steps r n a b) :
    ∃ l : List κ, l.length = n ∧ l.Nodup ∧ ∀ k ∈ l, TransGen r a k := by
  induction n generalizing a with
  | zero => exact ⟨[], rfl, List.nodup_nil, fun _ hk => absurd hk List.not_mem_nil⟩
  | succ n ih =>
    obtain ⟨c, hstep, hn⟩ := hn
    obtain ⟨l, hlength, hnodup, hbelow⟩ := ih hn
    refine ⟨c :: l, by rw [List.length_cons, hlength], ?_, fun k hk => ?_⟩
    · exact List.nodup_cons.mpr ⟨fun hc => h c (hbelow c hc), hnodup⟩
    · rcases List.mem_cons.mp hk with rfl | hk
      · exact .single hstep
      · exact .head hstep (hbelow k hk)

/-- No path is longer than there are keys to hang under others. -/
theorem Steps.le_length (h : Acyclic r) {keys : List κ} (hkeys : ∀ a b, r a b → b ∈ keys) {n : Nat}
    (hn : Steps r n a b) : n ≤ keys.length := by
  obtain ⟨l, rfl, hnodup, hbelow⟩ := hn.passes h
  refine (hnodup.subperm fun k hk => ?_).length_le
  obtain ⟨p, -, hp⟩ := TransGen.tail'_iff.mp (hbelow k hk)
  exact hkeys p k hp

/-- From a key on a cycle there are paths of every length. -/
theorem steps_of_cycle (n : Nat) (h : TransGen r a a) : ∃ b, Steps r n a b := by
  induction n generalizing a with
  | zero => exact ⟨a, rfl⟩
  | succ n ih =>
    obtain ⟨c, hstep, hrest⟩ := TransGen.head'_iff.mp h
    obtain ⟨b, hb⟩ := ih (TransGen.tail' hrest hstep)
    exact ⟨b, c, hstep, hb⟩

/-! ## 2. The walk -/

section Walk

variable {α β : Type}

/-- `flatMap` of a function that may have no result. -/
def flatMap? (f : α → Option (List β)) : List α → Option (List β)
  | [] => some []
  | a :: as => do
    let bs ← f a
    let rest ← flatMap? f as
    return bs ++ rest

theorem flatMap?_eq_none {f : α → Option (List β)} {as : List α} :
    flatMap? f as = none ↔ ∃ a ∈ as, f a = none := by
  induction as with
  | nil => simp [flatMap?]
  | cons a as ih =>
    rw [List.exists_mem_cons_iff, ← ih]
    cases hf : f a with
    | none => simp [flatMap?, hf]
    | some bs => cases hrest : flatMap? f as <;> simp [flatMap?, hf, hrest]

theorem mem_flatMap? {f : α → Option (List β)} {as : List α} {l : List β}
    (h : flatMap? f as = some l) {b : β} : b ∈ l ↔ ∃ a ∈ as, ∃ bs, f a = some bs ∧ b ∈ bs := by
  induction as generalizing l with
  | nil =>
    obtain rfl := Option.some.inj h
    simp
  | cons a as ih =>
    obtain ⟨bs, hf, h⟩ := Option.bind_eq_some_iff.mp h
    obtain ⟨rest, hrest, h⟩ := Option.bind_eq_some_iff.mp h
    obtain rfl := Option.some.inj h
    rw [List.mem_append, List.exists_mem_cons_iff, ih hrest, hf]
    simp only [Option.some.injEq, exists_eq_left']

/-- No element twice, if no two of the lists share one. -/
theorem nodup_flatMap? {f : α → Option (List β)} {as : List α} {l : List β}
    (h : flatMap? f as = some l) (has : as.Nodup) (heach : ∀ a ∈ as, ∀ bs, f a = some bs → bs.Nodup)
    (hapart : ∀ a ∈ as, ∀ a' ∈ as, ∀ bs bs', f a = some bs → f a' = some bs' →
      ∀ b ∈ bs, b ∈ bs' → a = a') : l.Nodup := by
  induction as generalizing l with
  | nil =>
    obtain rfl := Option.some.inj h
    exact List.nodup_nil
  | cons a as ih =>
    obtain ⟨bs, hf, h⟩ := Option.bind_eq_some_iff.mp h
    obtain ⟨rest, hrest, h⟩ := Option.bind_eq_some_iff.mp h
    obtain rfl := Option.some.inj h
    obtain ⟨ha, has⟩ := List.nodup_cons.mp has
    have hnodup : rest.Nodup := ih hrest has (fun c hc => heach c (List.mem_cons_of_mem _ hc))
      fun c hc d hd => hapart c (List.mem_cons_of_mem _ hc) d (List.mem_cons_of_mem _ hd)
    refine List.nodup_append.mpr ⟨heach a List.mem_cons_self bs hf, hnodup, ?_⟩
    intro b hb b' hb' hbb'
    subst hbb'
    obtain ⟨c, hc, cs, hg, hbc⟩ := (mem_flatMap? hrest).mp hb'
    obtain rfl := hapart a List.mem_cons_self c (List.mem_cons_of_mem _ hc) bs cs hf hg b hb hbc
    exact ha hc

end Walk

/-- All keys below `a`, each before those below it, if there are less than `n` levels of them. -/
def descendants (children : κ → List κ) : Nat → κ → Option (List κ)
  | 0, _ => none
  | n + 1, a => flatMap? (fun c => (descendants children n c).map (c :: ·)) (children a)

section Descendants

variable {children : κ → List κ}

/-- **What the walk returns**, whatever the bound. -/
theorem mem_descendants {n : Nat} {l : List κ} (h : descendants children n a = some l) :
    b ∈ l ↔ TransGen (fun p c => c ∈ children p) a b := by
  induction n generalizing a l b with
  | zero => exact (nomatch h)
  | succ n ih =>
    rw [mem_flatMap? h, TransGen.head'_iff]
    constructor
    · intro hb
      obtain ⟨c, hc, bs, hbs, hb⟩ := hb
      obtain ⟨below, hbelow, rfl⟩ := Option.map_eq_some_iff.mp hbs
      refine ⟨c, hc, reflTransGen_iff_eq_or_transGen.mpr ?_⟩
      exact (List.mem_cons.mp hb).imp id (ih hbelow).mp
    · intro hb
      obtain ⟨c, hc, hrest⟩ := hb
      cases hbelow : descendants children n c with
      | none =>
        have hnone : descendants children (n + 1) a = none :=
          flatMap?_eq_none.2 ⟨c, hc, Option.map_eq_none_iff.mpr hbelow⟩
        exact absurd (hnone.symm.trans h) (by simp)
      | some below =>
        refine ⟨c, hc, c :: below, by rw [hbelow]; rfl, List.mem_cons.mpr ?_⟩
        exact (reflTransGen_iff_eq_or_transGen.mp hrest).imp id (ih hbelow).mpr

/-- The bound cuts the walk short exactly if a path reaches it. -/
theorem descendants_eq_none {n : Nat} : descendants children n a = none ↔
    ∃ b, Steps (fun p c => c ∈ children p) n a b := by
  induction n generalizing a with
  | zero => exact iff_of_true rfl ⟨a, rfl⟩
  | succ n ih =>
    rw [descendants, flatMap?_eq_none]
    constructor
    · intro h
      obtain ⟨c, hc, hnone⟩ := h
      obtain ⟨b, hb⟩ := ih.mp (Option.map_eq_none_iff.mp hnone)
      exact ⟨b, c, hc, hb⟩
    · intro h
      obtain ⟨b, c, hc, hb⟩ := h
      exact ⟨c, hc, Option.map_eq_none_iff.mpr (ih.mpr ⟨b, hb⟩)⟩

/-- **The walk down a forest ends.** -/
theorem descendants_of_acyclic (h : Acyclic fun p c => c ∈ children p) {keys : List κ}
    (hkeys : ∀ p, ∀ c ∈ children p, c ∈ keys) (a : κ) :
    ∃ l, descendants children (keys.length + 1) a = some l := by
  apply Option.ne_none_iff_exists'.mp
  intro hnone
  obtain ⟨b, hb⟩ := descendants_eq_none.1 hnone
  have hle := hb.le_length h fun p c => hkeys p c
  omega

/-- The walk from a key on a cycle does not. -/
theorem descendants_of_cycle (h : TransGen (fun p c => c ∈ children p) a a) (n : Nat) :
    descendants children n a = none :=
  descendants_eq_none.2 (steps_of_cycle n h)

/-- Two keys under one that are both above a third are the same. -/
theorem eq_of_common_below (hacyclic : Acyclic r) (hparent : ∀ p q c, r p c → r q c → p = q)
    {c d : κ} (hc : r a c) (hd : r a d) (hcb : ReflTransGen r c b) (hdb : ReflTransGen r d b) :
    c = d := by
  -- one of them is above the other, and then the key is below itself
  have hnot : ∀ {c d : κ}, r a c → r a d → ¬ TransGen r c d := by
    intro c d hc hd hcd
    obtain ⟨q, hcq, hqd⟩ := TransGen.tail'_iff.mp hcd
    obtain rfl := hparent a q d hd hqd
    exact hacyclic a (.head' hc hcq)
  have hswap : Relator.RightUnique (Function.swap r) := fun c p q => hparent p q c
  have htotal : ReflTransGen r d c ∨ ReflTransGen r c d :=
    (ReflTransGen.total_of_right_unique hswap (reflTransGen_swap.mpr hcb)
      (reflTransGen_swap.mpr hdb)).imp reflTransGen_swap.mp reflTransGen_swap.mp
  rcases htotal with hdc | hcd
  · exact (reflTransGen_iff_eq_or_transGen.mp hdc).resolve_right (hnot hd hc)
  · exact ((reflTransGen_iff_eq_or_transGen.mp hcd).resolve_right (hnot hc hd)).symm

/-- **The walk down a forest passes every key once.** -/
theorem descendants_nodup (hacyclic : Acyclic fun p c => c ∈ children p)
    (hparent : ∀ p q c, c ∈ children p → c ∈ children q → p = q)
    (hchildren : ∀ p, (children p).Nodup) {n : Nat} {l : List κ}
    (h : descendants children n a = some l) : l.Nodup := by
  induction n generalizing a l with
  | zero => exact (nomatch h)
  | succ n ih =>
    refine nodup_flatMap? h (hchildren a) ?_ ?_
    · intro c _ bs hbs
      obtain ⟨below, hbelow, rfl⟩ := Option.map_eq_some_iff.mp hbs
      exact List.nodup_cons.mpr ⟨fun hc => hacyclic c ((mem_descendants hbelow).mp hc), ih hbelow⟩
    · intro c hc d hd bs bs' hbs hbs' b hb hb'
      obtain ⟨below, hbelow, rfl⟩ := Option.map_eq_some_iff.mp hbs
      obtain ⟨below', hbelow', rfl⟩ := Option.map_eq_some_iff.mp hbs'
      refine eq_of_common_below hacyclic hparent hc hd (b := b) ?_ ?_
      · exact reflTransGen_iff_eq_or_transGen.mpr
          ((List.mem_cons.mp hb).imp id (mem_descendants hbelow).mp)
      · exact reflTransGen_iff_eq_or_transGen.mpr
          ((List.mem_cons.mp hb').imp id (mem_descendants hbelow').mp)

end Descendants

/-! ## 3. Moving keys -/

/-- `c` hangs under `p`. -/
def ChildOf (parent : κ → Option κ) (p c : κ) : Prop := parent c = some p

/-- Some keys are moved under another one, or made roots. -/
def reparent (parent : κ → Option κ) (moved : κ → Prop) [DecidablePred moved] (p : Option κ) :
    κ → Option κ :=
  fun k => if moved k then p else parent k

section Reparent

variable {parent : κ → Option κ} {moved : κ → Prop} [DecidablePred moved] {p : κ}

theorem childOf_reparent_moved (hb : moved b) :
    ChildOf (reparent parent moved (some p)) a b ↔ a = p := by
  unfold ChildOf reparent
  rw [if_pos hb, Option.some.injEq]
  exact eq_comm

theorem childOf_reparent_other {q : Option κ} (hb : ¬ moved b) :
    ChildOf (reparent parent moved q) a b ↔ ChildOf parent a b := by
  unfold ChildOf reparent
  rw [if_neg hb]

theorem childOf_of_reparent_none (h : ChildOf (reparent parent moved none) a b) :
    ChildOf parent a b := by
  by_cases hb : moved b
  · unfold ChildOf reparent at h
    rw [if_pos hb] at h
    exact (nomatch h)
  · exact (childOf_reparent_other hb).mp h

theorem acyclic_reparent_none (h : Acyclic (ChildOf parent)) :
    Acyclic (ChildOf (reparent parent moved none)) :=
  h.mono fun _ _ => childOf_of_reparent_none

/-- Where two relations differ on moved keys only, a path of one is a path of the other, at least
    from the last moved key on. -/
theorem path_from_moved {r r' : κ → κ → Prop} (hr : ∀ a b, ¬ moved b → r a b → r' a b)
    (h : ReflTransGen r a p) :
    ReflTransGen r' a p ∨ ∃ c, moved c ∧ ReflTransGen r' c p := by
  induction h using ReflTransGen.head_induction_on with
  | refl => exact .inl .refl
  | @head a b hab _ ih =>
    rcases ih with hb | hc
    · by_cases hmoved : moved b
      · exact .inr ⟨b, hmoved, hb⟩
      · exact .inl (.head (hr a b hmoved hab) hb)
    · exact .inr hc

/-- A path in the new forest is an old one, or passes `p`. -/
theorem path_through (h : TransGen (ChildOf (reparent parent moved (some p))) a b) :
    TransGen (ChildOf parent) a b ∨
      ReflTransGen (ChildOf (reparent parent moved (some p))) a p ∧
        ∃ c, moved c ∧ ReflTransGen (ChildOf (reparent parent moved (some p))) c b := by
  induction h with
  | @single b hab =>
    by_cases hmoved : moved b
    · obtain rfl := (childOf_reparent_moved hmoved).mp hab
      exact .inr ⟨.refl, b, hmoved, .refl⟩
    · exact .inl (.single ((childOf_reparent_other hmoved).mp hab))
  | @tail b c hab hbc ih =>
    by_cases hmoved : moved c
    · obtain rfl := (childOf_reparent_moved hmoved).mp hbc
      exact .inr ⟨hab.to_reflTransGen, c, hmoved, .refl⟩
    · rcases ih with hold | ⟨hp, d, hd, hdb⟩
      · exact .inl (.tail hold ((childOf_reparent_other hmoved).mp hbc))
      · exact .inr ⟨hp, d, hd, hdb.tail hbc⟩

/-- **Moving keys under `p` keeps the forest one exactly if `p` is none of them, nor below one.** -/
theorem acyclic_reparent_iff (h : Acyclic (ChildOf parent)) :
    Acyclic (ChildOf (reparent parent moved (some p))) ↔
      ∀ c, moved c → ¬ ReflTransGen (ChildOf parent) c p := by
  constructor
  · intro hnew c hc hpath
    -- the last moved key on the way to `p` hangs under `p` now
    have hlast : ∃ d, moved d ∧ ReflTransGen (ChildOf (reparent parent moved (some p))) d p :=
      (path_from_moved (fun _ _ hb => (childOf_reparent_other hb).mpr) hpath).elim
        (fun hcp => ⟨c, hc, hcp⟩) id
    obtain ⟨d, hd, hdp⟩ := hlast
    exact hnew p (.head' ((childOf_reparent_moved hd).mpr rfl) hdp)
  · intro hno a ha
    rcases path_through ha with hold | ⟨hap, c, hc, hca⟩
    · exact h a hold
    · have hold := path_from_moved (fun _ _ hb => (childOf_reparent_other hb).mp) (hca.trans hap)
      rcases hold with hcp | ⟨d, hd, hdp⟩
      · exact hno c hc hcp
      · exact hno d hd hdp

end Reparent

/-! ## 4. A call that moves keys -/

/-- What one call does to a key and those under it: it may hang the key itself elsewhere, lets go of
    some that hang under it, and hangs others there. What is let go and hung there again stays. -/
structure Relinking (κ : Type) where
  key : κ
  /-- The new parent of the key, or `none` where the call says nothing of it. -/
  parent : Option (Option κ) := none
  detached : κ → Bool := fun _ => false
  attached : κ → Bool := fun _ => false

namespace Relinking

variable [DecidableEq κ] (c : Relinking κ) (parent : κ → Option κ)

/-- The call moves the key itself. -/
def Moves (k : κ) : Prop := k = c.key ∧ c.parent.isSome = true

instance : DecidablePred c.Moves := fun k => inferInstanceAs (Decidable (k = c.key ∧ _))

/-- The links the call leaves alone. -/
def kept : κ → Option κ :=
  reparent parent (fun k => c.Moves k ∨ c.detached k = true ∨ c.attached k = true) none

/-- And with the key under its new parent. -/
def moved : κ → Option κ := reparent (c.kept parent) c.Moves (c.parent.getD none)

def after : κ → Option κ := reparent (c.moved parent) (c.attached · = true) (some c.key)

/-- The key does not get a parent that is the key itself or below it, and no key is hung under it
    that is the key itself or above it. -/
structure StaysForest : Prop where
  key : ∀ p, c.parent = some (some p) → ¬ ReflTransGen (ChildOf (c.kept parent)) c.key p
  attached : ∀ k, c.attached k = true → ¬ ReflTransGen (ChildOf (c.moved parent)) k c.key

variable {c parent}

theorem after_apply (k : κ) : c.after parent k =
    if c.attached k = true then some c.key
    else if c.Moves k then c.parent.getD none
    else if c.detached k = true then none
    else parent k := by
  unfold after moved kept reparent
  by_cases hattached : c.attached k = true
  · rw [if_pos hattached, if_pos hattached]
  · rw [if_neg hattached, if_neg hattached]
    by_cases hmoves : c.Moves k
    · rw [if_pos hmoves, if_pos hmoves]
    · rw [if_neg hmoves, if_neg hmoves]
      by_cases hdetached : c.detached k = true
      · rw [if_pos (.inr (.inl hdetached)), if_pos hdetached]
      · rw [if_neg hdetached, if_neg (by simp [hattached, hmoves, hdetached])]

theorem acyclic_moved_iff (h : Acyclic (ChildOf parent)) : Acyclic (ChildOf (c.moved parent)) ↔
    ∀ p, c.parent = some (some p) → ¬ ReflTransGen (ChildOf (c.kept parent)) c.key p := by
  have hkept : Acyclic (ChildOf (c.kept parent)) := acyclic_reparent_none h
  unfold moved
  cases hparent : c.parent.getD none with
  | none =>
    apply iff_of_true (acyclic_reparent_none hkept)
    intro p hp
    rw [hp] at hparent
    exact (nomatch hparent)
  | some q =>
    have hq : c.parent = some (some q) := by
      cases hc : c.parent with
      | none =>
        rw [hc] at hparent
        exact (nomatch hparent)
      | some p =>
        rw [hc] at hparent
        exact congrArg some hparent
    rw [acyclic_reparent_iff hkept]
    constructor
    · intro hno p hp
      obtain rfl := Option.some.inj (Option.some.inj (hp.symm.trans hq))
      exact hno c.key ⟨rfl, by rw [hq]; rfl⟩
    · intro hno k hk
      rw [hk.1]
      exact hno q hq

/-- If the key hangs under itself in the end, it was hung there last. -/
theorem acyclic_moved_of_after (h : Acyclic (ChildOf (c.after parent))) :
    Acyclic (ChildOf (c.moved parent)) := by
  have hkey : ¬ c.attached c.key = true := by
    intro hattached
    have hself : c.after parent c.key = some c.key := by rw [after_apply, if_pos hattached]
    exact h c.key (.single hself)
  apply h.mono
  intro a b hab
  by_cases hb : c.attached b = true
  · -- a key that is hung under this one has no other parent before
    have hmoves : ¬ c.Moves b := fun hmoves => hkey (hmoves.1 ▸ hb)
    unfold ChildOf moved kept reparent at hab
    rw [if_neg hmoves, if_pos (.inr (.inr hb))] at hab
    exact (nomatch hab)
  · unfold ChildOf after reparent
    rw [if_neg hb]
    exact hab

/-- **What the call must not do to a forest.** -/
theorem acyclic_after_iff (h : Acyclic (ChildOf parent)) :
    Acyclic (ChildOf (c.after parent)) ↔ c.StaysForest parent := by
  constructor
  · intro hafter
    -- each of the two moves has its half of the condition
    have hmoved : Acyclic (ChildOf (c.moved parent)) := acyclic_moved_of_after hafter
    exact ⟨(acyclic_moved_iff h).mp hmoved, (acyclic_reparent_iff hmoved).mp hafter⟩
  · intro hstays
    have hmoved : Acyclic (ChildOf (c.moved parent)) := (acyclic_moved_iff h).mpr hstays.key
    exact (acyclic_reparent_iff hmoved).mpr hstays.attached

end Relinking

end Forest

end ShieldApi
