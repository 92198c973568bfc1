import ShieldApi.Lib.Separators

/-!
# Texts split at a character

What `split` makes of a text that was put together from parts. The fields of `x ++ sep ++ y` are
the fields of `x` and then those of `y`, whatever they hold. So a part comes back as the field it was
put in as **exactly if neither it nor a part before it holds the separator**, and a list of parts
comes back from `join` if none of them does.

The other half is about two texts that were put together from two parts each. They are the same
where the parts are, or where one pair is the other `Recut`.
-/

set_option autoImplicit false

namespace ShieldApi

/-- `split(c)`. -/
def fieldsOf (c : Char) (s : String) : List String := (s.toList.splitOn c).map String.ofList

variable {c : Char} {sep s x y : String}

theorem fieldsOf_of_not_mem (h : c ∉ s.toList) : fieldsOf c s = [s] := by
  unfold fieldsOf
  rw [List.splitOn_eq_singleton h, List.map_singleton, String.ofList_toList]

theorem fieldsOf_append (hsep : sep.toList = [c]) :
    fieldsOf c (x ++ sep ++ y) = fieldsOf c x ++ fieldsOf c y := by
  unfold fieldsOf
  rw [String.toList_append, String.toList_append, hsep, List.append_assoc, List.singleton_append,
    List.splitOn_append_cons_self, List.map_append]

theorem fieldsOf_ne_nil (c : Char) (s : String) : fieldsOf c s ≠ [] := by
  unfold fieldsOf
  rw [ne_eq, List.map_eq_nil_iff]
  exact List.splitOn_ne_nil c s.toList

theorem fieldsOf_append_zero (c : Char) (s : String) (l : List String) :
    (fieldsOf c s ++ l)[0]? = (fieldsOf c s)[0]? :=
  List.getElem?_append_left (List.length_pos_iff.mpr (fieldsOf_ne_nil c s))

/-- The first field of a text is the whole text only where there is nothing to split at. -/
theorem fieldsOf_zero_eq_self_iff : (fieldsOf c s)[0]? = some s ↔ c ∉ s.toList := by
  constructor
  · intro h hmem
    obtain ⟨pre, post, hcut, hpre⟩ := List.eq_append_cons_of_mem hmem
    have hfirst : (fieldsOf c s)[0]? = some (String.ofList pre) := by
      unfold fieldsOf
      rw [hcut, List.splitOn_append_cons_self_of_not_mem hpre]
      rfl
    have hwhole := congrArg String.toList (Option.some.inj (hfirst.symm.trans h))
    rw [String.toList_ofList, hcut] at hwhole
    have hlength := congrArg List.length hwhole
    rw [List.length_append, List.length_cons] at hlength
    omega
  · intro h
    rw [fieldsOf_of_not_mem h]
    rfl

/-- A list of parts comes back from `join` if no part holds the separator. -/
theorem fieldsOf_intercalate {parts : List String} (hsep : sep.toList = [c])
    (hparts : ∀ p ∈ parts, c ∉ p.toList) (hne : parts ≠ []) :
    fieldsOf c (sep.intercalate parts) = parts := by
  unfold fieldsOf
  rw [String.toList_intercalate, hsep, List.splitOn_intercalate]
  · rw [List.map_map]
    exact List.map_id'' (fun p => String.ofList_toList) parts
  · intro l hl
    obtain ⟨p, hp, rfl⟩ := List.mem_map.mp hl
    exact hparts p hp
  · rw [ne_eq, List.map_eq_nil_iff]
    exact hne

/-! ## The characters of a text -/

/-- A literal is looked at as the characters it is made of. -/
theorem all_toList_ofList {p : Char → Bool} {cs : List Char} (h : cs.all p = true) :
    (String.ofList cs).toList.all p = true := by
  rwa [String.toList_ofList]

/-! ## Two parts -/

/-- The pair `x', y'` is the pair `x, y` cut at a separator that `y` holds. -/
def Recut (sep x y x' y' : String) : Prop := ∃ z, x' = x ++ sep ++ z ∧ y = z ++ sep ++ y'

theorem Recut.join_eq {x' y' : String} (h : Recut sep x y x' y') :
    x ++ sep ++ y = x' ++ sep ++ y' := by
  obtain ⟨z, rfl, rfl⟩ := h
  simp only [String.append_assoc]

theorem Recut.ne {x' y' : String} (hsep : sep.toList = [c]) (h : Recut sep x y x' y') : x ≠ x' := by
  obtain ⟨z, rfl, -⟩ := h
  intro heq
  have hlength := congrArg (fun s => s.toList.length) heq
  simp only [String.toList_append, List.length_append, hsep, List.length_singleton] at hlength
  omega

/-- The part that is cut holds the separator. -/
theorem Recut.mem {x' y' : String} (hsep : sep.toList = [c]) (h : Recut sep x y x' y') :
    c ∈ y.toList ∧ c ∈ x'.toList := by
  obtain ⟨z, rfl, rfl⟩ := h
  simp only [String.toList_append, hsep]
  exact ⟨by simp, by simp⟩

theorem join_eq_iff {x' y' : String} (hsep : sep.toList = [c]) :
    x ++ sep ++ y = x' ++ sep ++ y' ↔
      (x = x' ∧ y = y') ∨ Recut sep x y x' y' ∨ Recut sep x' y' x y := by
  constructor
  · intro h
    have hword : (⟨c, [], List.not_mem_nil⟩ : Separator Char).word = sep.toList := hsep.symm
    have hlist := congrArg String.toList h
    simp only [String.toList_append, List.append_assoc, ← hword] at hlist
    rcases Separator.append_sep_append_eq_iff.mp hlist with ⟨hx, hy⟩ | ⟨z, hx, hy⟩ | ⟨z, hx, hy⟩
    · exact .inl ⟨String.toList_inj.mp hx, String.toList_inj.mp hy⟩
    · refine .inr (.inl ⟨String.ofList z, String.toList_inj.mp ?_, String.toList_inj.mp ?_⟩)
      · simp only [String.toList_append, String.toList_ofList, hx, hword, List.append_assoc]
      · simp only [String.toList_append, String.toList_ofList, hy, hword, List.append_assoc]
    · refine .inr (.inr ⟨String.ofList z, String.toList_inj.mp ?_, String.toList_inj.mp ?_⟩)
      · simp only [String.toList_append, String.toList_ofList, hx, hword, List.append_assoc]
      · simp only [String.toList_append, String.toList_ofList, hy, hword, List.append_assoc]
  · rintro (⟨rfl, rfl⟩ | h | h)
    · rfl
    · exact h.join_eq
    · exact h.join_eq.symm

/-- The last separator is where a text is cut whose last part holds none. -/
theorem join_inj_right {x' y' : String} (hsep : sep.toList = [c]) (hy : c ∉ y.toList)
    (hy' : c ∉ y'.toList) : x ++ sep ++ y = x' ++ sep ++ y' ↔ x = x' ∧ y = y' := by
  rw [join_eq_iff hsep]
  constructor
  · rintro (h | h | h)
    · exact h
    · exact absurd (h.mem hsep).1 hy
    · exact absurd (h.mem hsep).1 hy'
  · exact .inl

end ShieldApi
