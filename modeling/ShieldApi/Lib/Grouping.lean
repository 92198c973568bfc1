import Mathlib.Data.List.Induction

/-!
# Grouping by a key

A loop that pushes every element onto the group of its key, in a map that remembers the order
in which keys first came. `mem_grouped` is what the loop computes: there is a group for every
key that occurs, and it holds the elements with that key, in their order.
-/

set_option autoImplicit false

namespace ShieldApi

variable {α κ : Type} [DecidableEq κ] {key : α → κ}

/-- One round of the loop. -/
def addToGroup (key : α → κ) (a : α) : List (κ × List α) → List (κ × List α)
  | [] => [(key a, [a])]
  | (k, group) :: groups =>
    if k = key a then (k, group ++ [a]) :: groups else (k, group) :: addToGroup key a groups

def grouped (key : α → κ) (as : List α) : List (κ × List α) :=
  as.foldl (fun groups a => addToGroup key a groups) []

/-- The groups of `as`. -/
structure GroupsOf (key : α → κ) (as : List α) (groups : List (κ × List α)) : Prop where
  keys : (groups.map Prod.fst).Nodup
  mem : ∀ k group, (k, group) ∈ groups ↔ group = as.filter (key · = k) ∧ group ≠ []

theorem mem_addToGroup_of_ne {a : α} {k : κ} {group : List α} (hk : k ≠ key a)
    (groups : List (κ × List α)) :
    (k, group) ∈ addToGroup key a groups ↔ (k, group) ∈ groups := by
  induction groups with
  | nil => simp [addToGroup, hk]
  | cons g groups ih =>
    unfold addToGroup
    by_cases hg : g.1 = key a
    · rw [if_pos hg, List.mem_cons, List.mem_cons]
      have hne : ∀ group', (k, group) ≠ (g.1, group') :=
        fun group' h => hk ((congrArg Prod.fst h).trans hg)
      exact ⟨fun h => .inr (h.resolve_left (hne _)), fun h => .inr (h.resolve_left (hne _))⟩
    · rw [if_neg hg, List.mem_cons, List.mem_cons, ih]

theorem keys_addToGroup (a : α) (groups : List (κ × List α)) :
    (addToGroup key a groups).map Prod.fst =
      if key a ∈ groups.map Prod.fst then groups.map Prod.fst
      else groups.map Prod.fst ++ [key a] := by
  induction groups with
  | nil => rfl
  | cons g groups ih =>
    unfold addToGroup
    by_cases hg : g.1 = key a
    · rw [if_pos hg, if_pos (by simp [hg])]
      rfl
    · rw [if_neg hg, List.map_cons, ih, List.map_cons]
      have hne : key a ≠ g.1 := fun h => hg h.symm
      by_cases hin : key a ∈ groups.map Prod.fst
      · rw [if_pos hin, if_pos (List.mem_cons_of_mem _ hin)]
      · rw [if_neg hin, if_neg (List.not_mem_cons_of_ne_of_not_mem hne hin), List.cons_append]

/-- The element joins the group of its key, or starts it. -/
theorem mem_addToGroup_self {a : α} {group : List α} {groups : List (κ × List α)}
    (hkeys : (groups.map Prod.fst).Nodup) :
    (key a, group) ∈ addToGroup key a groups ↔
      (∃ old, (key a, old) ∈ groups ∧ group = old ++ [a]) ∨
        (key a ∉ groups.map Prod.fst ∧ group = [a]) := by
  induction groups with
  | nil => simp [addToGroup]
  | cons g groups ih =>
    obtain ⟨k, old⟩ := g
    rw [List.map_cons, List.nodup_cons] at hkeys
    unfold addToGroup
    by_cases hk : k = key a
    · obtain rfl := hk
      rw [if_pos rfl, List.mem_cons, List.map_cons]
      have hnone : ∀ old', (key a, old') ∉ groups :=
        fun old' h => hkeys.1 (List.mem_map.mpr ⟨_, h, rfl⟩)
      constructor
      · intro h
        rcases h with h | h
        · exact .inl ⟨old, List.mem_cons_self .., congrArg Prod.snd h⟩
        · exact absurd h (hnone _)
      · intro h
        rcases h with ⟨old', hold, hgroup⟩ | ⟨hnot, -⟩
        · rcases List.mem_cons.mp hold with hold | hold
          · obtain rfl : old' = old := congrArg Prod.snd hold
            exact .inl (by rw [hgroup])
          · exact absurd hold (hnone _)
        · exact absurd (List.mem_cons_self ..) hnot
    · rw [if_neg hk, List.mem_cons, ih hkeys.2, List.map_cons]
      have hne : ∀ group', (key a, group') ≠ (k, old) := fun group' h => hk (congrArg Prod.fst h).symm
      have hk' : key a ≠ k := fun h => hk h.symm
      simp only [List.mem_cons, hne, false_or, hk']

/-- One round extends the groups by one element. -/
theorem GroupsOf.add {as : List α} {groups : List (κ × List α)} (h : GroupsOf key as groups)
    (a : α) : GroupsOf key (as ++ [a]) (addToGroup key a groups) := by
  refine ⟨?_, fun k group => ?_⟩
  · rw [keys_addToGroup]
    split
    · exact h.keys
    · next hnot =>
        refine List.nodup_append.mpr ⟨h.keys, List.pairwise_singleton _ _, fun x hx y hy hxy => ?_⟩
        rw [hxy, List.mem_singleton.mp hy] at hx
        exact hnot hx
  · by_cases hk : k = key a
    · obtain rfl := hk
      rw [mem_addToGroup_self h.keys, List.filter_append, List.filter_cons_of_pos (by simp),
        List.filter_nil]
      constructor
      · intro hmem
        rcases hmem with ⟨old, hold, rfl⟩ | ⟨hnot, rfl⟩
        · exact ⟨by rw [((h.mem _ _).mp hold).1], by simp⟩
        · have hnil : as.filter (key · = key a) = [] := by
            by_contra hne
            exact hnot (List.mem_map_of_mem ((h.mem _ _).mpr ⟨rfl, hne⟩))
          exact ⟨by rw [hnil, List.nil_append], by simp⟩
      · intro hgroup
        obtain ⟨hgroup, -⟩ := hgroup
        by_cases hnil : as.filter (key · = key a) = []
        · refine .inr ⟨fun hin => ?_, by rw [hgroup, hnil, List.nil_append]⟩
          obtain ⟨⟨k', old⟩, hold, hk'⟩ := List.mem_map.mp hin
          obtain rfl : k' = key a := hk'
          obtain ⟨hold, hne⟩ := (h.mem _ _).mp hold
          exact hne (hold.trans hnil)
        · exact .inl ⟨_, (h.mem _ _).mpr ⟨rfl, hnil⟩, hgroup⟩
    · rw [mem_addToGroup_of_ne hk, h.mem, List.filter_append,
        List.filter_cons_of_neg (by simp [Ne.symm hk]), List.filter_nil, List.append_nil]

theorem groupsOf_grouped (as : List α) : GroupsOf key as (grouped key as) := by
  induction as using List.reverseRecOn with
  | nil => exact ⟨List.nodup_nil, fun k group => by simp [grouped]⟩
  | append_singleton as a ih =>
    unfold grouped at ih ⊢
    rw [List.foldl_append]
    exact ih.add a

/-- **What the loop computes.** -/
theorem mem_grouped {as : List α} {k : κ} {group : List α} :
    (k, group) ∈ grouped key as ↔ group = as.filter (key · = k) ∧ group ≠ [] :=
  (groupsOf_grouped as).mem k group

theorem flatMap_addToGroup_perm (a : α) (groups : List (κ × List α)) :
    ((addToGroup key a groups).flatMap Prod.snd).Perm (a :: groups.flatMap Prod.snd) := by
  induction groups with
  | nil => exact .refl _
  | cons g groups ih =>
    unfold addToGroup
    split
    · simp only [List.flatMap_cons, List.append_assoc, List.singleton_append]
      exact List.perm_middle
    · simp only [List.flatMap_cons]
      exact (ih.append_left _).trans List.perm_middle

/-- Taken together, the groups are what was grouped. -/
theorem flatMap_grouped_perm (as : List α) : ((grouped key as).flatMap Prod.snd).Perm as := by
  induction as using List.reverseRecOn with
  | nil => exact .refl _
  | append_singleton as a ih =>
    unfold grouped at ih ⊢
    rw [List.foldl_append]
    exact (flatMap_addToGroup_perm a _).trans ((ih.cons a).trans
      (List.perm_append_singleton a as).symm)

end ShieldApi
