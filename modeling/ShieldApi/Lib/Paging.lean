import Mathlib.Data.List.Nodup
import Mathlib.Data.List.Perm.Basic
import ShieldApi.Lib.Table

/-!
# Reading a table page by page

A caller reads a sorted table in pages, each in a query of its own. Two rows that the order
does not tell apart come out either way round, and not the same way in every query. So whether
the pages, put together, are the table is a question about **ties at the page boundaries**, and
`readPages_perm_iff` is the answer: they are, however the ties fall, exactly when no boundary
runs through one. `foldPages` is the loop of a caller whose source always answers from one list.
-/

set_option autoImplicit false

namespace ShieldApi

variable {α : Type}

/-- `take: limit, skip: offset`. -/
def pageOf (limit offset : Nat) (l : List α) : List α := (l.drop offset).take limit

/-- The first `n` pages, the `k`-th as its own query happened to see the rows. -/
def readPages (le : α → α → Bool) (p : α → Bool) (rows : List α) (limit : Nat)
    (orders : Nat → RowOrder α) (n : Nat) : List α :=
  (List.range n).flatMap fun k => pageOf limit (k * limit) ((orders k).findManyBy le p rows)

/-- Place `b` of a sorted list is in the middle of a tie. -/
def TieAt (le : α → α → Bool) (s : List α) (b : Nat) : Prop :=
  ∃ a c, 0 < b ∧ s[b - 1]? = some a ∧ s[b]? = some c ∧ le c a = true

/-! ## 1. Prefixes of sorted lists -/

theorem take_countP {q : α → Bool} : ∀ {l : List α},
    (l.Pairwise fun a b => q b = true → q a = true) → l.take (l.countP q) = l.filter q
  | [], _ => rfl
  | a :: l, h => by
    obtain ⟨hhead, htail⟩ := List.pairwise_cons.mp h
    cases ha : q a with
    | true => simp [ha, take_countP htail]
    | false =>
      have hnone : l.filter q = [] := by
        apply List.filter_eq_nil_iff.mpr
        intro b hb hqb
        rw [hhead b hb hqb] at ha
        exact absurd ha (by decide)
      have hcount : l.countP q = 0 := by rw [List.countP_eq_length_filter, hnone]; rfl
      simp [ha, hnone, hcount]

section
variable {le : α → α → Bool} (htrans : ∀ a b c, le a b = true → le b c = true → le a c = true)
include htrans

/-- Where no tie is cut, every way to sort the rows has the same rows in front. -/
theorem take_perm {s s' : List α} (hs : s.Pairwise fun a b => le a b = true)
    (hs' : s'.Pairwise fun a b => le a b = true) (hrefl : ∀ a, le a a = true)
    (hperm : s'.Perm s) {b : Nat} (hb : ¬ TieAt le s b) : (s'.take b).Perm (s.take b) := by
  rcases Nat.eq_zero_or_pos b with rfl | hpos
  · exact .refl _
  · rcases Nat.lt_or_ge b s.length with hlt | hge
    · -- The rows in front are those strictly before the first row behind the cut.
      have hprev : b - 1 < s.length := by omega
      have hcut : le s[b] s[b - 1] = false := by
        rw [← Bool.not_eq_true]
        intro hle
        exact hb ⟨s[b - 1], s[b], hpos, List.getElem?_eq_getElem hprev,
          List.getElem?_eq_getElem hlt, hle⟩
      have hmono : ∀ {l : List α}, (l.Pairwise fun a c => le a c = true) →
          l.Pairwise fun a c => (!le s[b] c) = true → (!le s[b] a) = true := by
        intro l hl
        refine hl.imp fun {a c} hac hc => ?_
        rw [Bool.not_eq_true'] at hc ⊢
        rw [← Bool.not_eq_true]
        intro ha
        rw [htrans _ _ _ ha hac] at hc
        exact absurd hc (by decide)
      have hfront : s.filter (fun a => !le s[b] a) = s.take b := by
        have hsplit : s.filter (fun a => !le s[b] a) =
            (s.take b).filter (fun a => !le s[b] a) ++ (s.drop b).filter (fun a => !le s[b] a) := by
          rw [← List.filter_append, List.take_append_drop]
        have hin : (s.take b).filter (fun a => !le s[b] a) = s.take b := by
          apply List.filter_eq_self.mpr
          intro a ha
          obtain ⟨i, hi, rfl⟩ := List.mem_take_iff_getElem.mp ha
          rw [Bool.not_eq_true', ← Bool.not_eq_true]
          intro hle
          have hup : le s[i] s[b - 1] = true := by
            rcases Nat.lt_or_ge i (b - 1) with h | h
            · exact List.pairwise_iff_getElem.mp hs i (b - 1) (by omega) hprev h
            · obtain rfl : i = b - 1 := by omega
              exact hrefl _
          rw [htrans _ _ _ hle hup] at hcut
          exact absurd hcut (by decide)
        have hout : (s.drop b).filter (fun a => !le s[b] a) = [] := by
          apply List.filter_eq_nil_iff.mpr
          intro a ha
          obtain ⟨i, hi, rfl⟩ := List.mem_drop_iff_getElem.mp ha
          rw [Bool.not_eq_true', Bool.not_eq_false]
          rcases Nat.eq_zero_or_pos i with rfl | hipos
          · exact hrefl _
          · exact List.pairwise_iff_getElem.mp hs b (b + i) hlt (by omega) (by omega)
        rw [hsplit, hin, hout, List.append_nil]
      have hcount : s.countP (fun a => !le s[b] a) = b := by
        rw [List.countP_eq_length_filter, hfront, List.length_take]
        omega
      have htake : s'.take b = s'.filter (fun a => !le s[b] a) := by
        rw [← take_countP (hmono hs'), hperm.countP_eq, hcount]
      rw [htake, ← hfront]
      exact hperm.filter _
    · have hlen := hperm.length_eq
      rw [List.take_of_length_le (by omega), List.take_of_length_le hge]
      exact hperm

end

/-! ## 2. Pages -/

theorem take_eq_append_pageOf (limit k : Nat) (l : List α) :
    l.take ((k + 1) * limit) = l.take (k * limit) ++ pageOf limit (k * limit) l := by
  rw [Nat.succ_mul, List.take_add]
  rfl

/-- The pages of one list are the list. -/
theorem flatMap_pageOf (limit : Nat) (l : List α) (n : Nat) :
    ((List.range n).flatMap fun k => pageOf limit (k * limit) l) = l.take (n * limit) := by
  induction n with
  | zero => simp
  | succ n ih =>
    rw [List.range_succ, List.flatMap_append, ih, List.flatMap_singleton, take_eq_append_pageOf]

section
variable {le : α → α → Bool} {p : α → Bool} {rows : List α} {limit n : Nat}

/-- The rows as one query sorts them. -/
def sorted (le : α → α → Bool) (p : α → Bool) (rows : List α) : List α :=
  (RowOrder.insertion α).findManyBy le p rows

theorem sorted_perm : (sorted le p rows).Perm (rows.filter p) := RowOrder.findManyBy_perm

variable (htrans : ∀ a b c, le a b = true → le b c = true → le a c = true)
  (htotal : ∀ a b, le a b = true ∨ le b a = true)
include htrans htotal

theorem sorted_pairwise : (sorted le p rows).Pairwise fun a b => le a b = true :=
  RowOrder.pairwise_findManyBy htrans htotal p rows

theorem readPages_perm (hn : (rows.filter p).length ≤ n * limit)
    (hties : ∀ k, ¬ TieAt le (sorted le p rows) (k * limit)) (orders : Nat → RowOrder α) :
    (readPages le p rows limit orders n).Perm (rows.filter p) := by
  have hrefl : ∀ a, le a a = true := fun a => (htotal a a).elim id id
  have hfront : ∀ k j, (((orders k).findManyBy le p rows).take (j * limit)).Perm
      ((sorted le p rows).take (j * limit)) := fun k j =>
    take_perm htrans (sorted_pairwise htrans htotal)
      (RowOrder.pairwise_findManyBy htrans htotal p rows) hrefl
      (RowOrder.findManyBy_perm.trans sorted_perm.symm) (hties j)
  have hpage : ∀ k, (pageOf limit (k * limit) ((orders k).findManyBy le p rows)).Perm
      (pageOf limit (k * limit) (sorted le p rows)) := by
    intro k
    have h := hfront k (k + 1)
    rw [take_eq_append_pageOf, take_eq_append_pageOf] at h
    exact (List.perm_append_left_iff _).mp
      (h.trans ((hfront k k).symm.append_right _))
  have hall : (readPages le p rows limit orders n).Perm
      ((List.range n).flatMap fun k => pageOf limit (k * limit) (sorted le p rows)) :=
    List.Perm.flatMap_left _ fun k _ => hpage k
  rw [flatMap_pageOf, List.take_of_length_le (by rw [sorted_perm.length_eq]; exact hn)] at hall
  exact hall.trans sorted_perm

end

/-- A query that happens to see the matching rows as `l`. -/
noncomputable def seeing (p : α → Bool) (rows l : List α) (hl : l.Perm (rows.filter p)) :
    RowOrder α where
  scan := open Classical in fun m => if m = rows.filter p then l else m
  perm := by
    intro m
    split_ifs with h
    · rw [h]
      exact hl
    · exact .refl m

theorem findManyBy_seeing {le : α → α → Bool} {p : α → Bool} {rows l : List α}
    (hl : l.Perm (rows.filter p)) (hsorted : l.Pairwise fun a b => le a b = true) :
    (seeing p rows l hl).findManyBy le p rows = l := by
  have hscan : (seeing p rows l hl).findMany p rows = l := by
    simp [RowOrder.findMany, seeing]
  rw [RowOrder.findManyBy, hscan, hsorted.insertionSort_eq]

/-- A sorted list with a tie in it can be sorted the other way round there. -/
theorem exchanged_of_tie {le : α → α → Bool} {s : List α} {b : Nat}
    (hs : s.Pairwise fun a b => le a b = true) (htie : TieAt le s b) :
    ∃ front a c back, s = front ++ a :: c :: back ∧ front.length + 1 = b ∧
      (front ++ c :: a :: back).Pairwise fun a b => le a b = true := by
  obtain ⟨a, c, hpos, ha, hc, hle⟩ := htie
  obtain ⟨hb1, rfl⟩ := List.getElem?_eq_some_iff.mp ha
  obtain ⟨hb, rfl⟩ := List.getElem?_eq_some_iff.mp hc
  have hdrop : s.drop (b - 1) = s[b - 1] :: s[b] :: s.drop (b + 1) := by
    have h := List.drop_eq_getElem_cons hb1
    rw [Nat.sub_add_cancel hpos, List.drop_eq_getElem_cons hb] at h
    exact h
  have hsplit : s = s.take (b - 1) ++ s[b - 1] :: s[b] :: s.drop (b + 1) := by
    rw [← hdrop, List.take_append_drop]
  refine ⟨s.take (b - 1), s[b - 1], s[b], s.drop (b + 1), hsplit, ?_, ?_⟩
  · rw [List.length_take]
    omega
  · rw [hsplit] at hs
    simp only [List.pairwise_append, List.pairwise_cons, List.mem_cons, forall_eq_or_imp] at hs ⊢
    obtain ⟨hfront, ⟨⟨-, haback⟩, hcback, hback⟩, hbetween⟩ := hs
    exact ⟨hfront, ⟨⟨hle, hcback⟩, haback, hback⟩,
      fun x hx => ⟨(hbetween x hx).2.1, (hbetween x hx).1, (hbetween x hx).2.2⟩⟩

/-- **Pages put together.** Whichever way the ties fall in each query, the pages hold every matching
    row once, if and only if no page boundary cuts a tie. -/
theorem readPages_perm_iff {le : α → α → Bool} {p : α → Bool} {rows : List α} {limit n : Nat}
    (htrans : ∀ a b c, le a b = true → le b c = true → le a c = true)
    (htotal : ∀ a b, le a b = true ∨ le b a = true) (hlimit : 0 < limit)
    (hn : (rows.filter p).length ≤ n * limit) (hnodup : rows.Nodup) :
    (∀ orders, (readPages le p rows limit orders n).Perm (rows.filter p)) ↔
      ∀ k, ¬ TieAt le (sorted le p rows) (k * limit) := by
  refine ⟨fun h k htie => ?_, fun hties orders => readPages_perm htrans htotal hn hties orders⟩
  have hs : (sorted le p rows).Pairwise fun a b => le a b = true :=
    sorted_pairwise htrans htotal
  obtain ⟨front, a, c, back, hsplit, hlen, hs'⟩ := exchanged_of_tie hs htie
  have hperm : (front ++ a :: c :: back).Perm (rows.filter p) := hsplit ▸ sorted_perm
  have hperm' : (front ++ c :: a :: back).Perm (rows.filter p) :=
    ((List.Perm.swap a c back).append_left front).trans hperm
  -- Page `k` is read in a query that sees the tie the other way round.
  let orders : Nat → RowOrder α := fun j =>
    if j = k then seeing p rows _ hperm' else seeing p rows _ hperm
  have hpages := ((h orders).nodup_iff.mpr (hnodup.filter p))
  rw [readPages, List.nodup_flatMap] at hpages
  have hkpos : 0 < k := by
    rcases Nat.eq_zero_or_pos k with rfl | hk
    · omega
    · exact hk
  have hkn : k < n := by
    have hlength := hperm.length_eq
    simp only [List.length_append, List.length_cons] at hlength
    exact Nat.lt_of_mul_lt_mul_right (a := limit) (by omega)
  have hdisjoint := List.pairwise_iff_getElem.mp hpages.2 (k - 1) k (by simp; omega)
    (by simpa using hkn) (by omega)
  simp only [List.getElem_range, Function.onFun] at hdisjoint
  have hprevious : (orders (k - 1)).findManyBy le p rows = front ++ a :: c :: back := by
    have hne : k - 1 ≠ k := by omega
    simp only [orders, if_neg hne]
    exact findManyBy_seeing hperm (hsplit ▸ hs)
  have hthis : (orders k).findManyBy le p rows = front ++ c :: a :: back := by
    simp only [orders, if_pos]
    exact findManyBy_seeing hperm' hs'
  rw [hprevious, hthis] at hdisjoint
  have hmul : k * limit = (k - 1) * limit + limit := by
    rw [← Nat.succ_mul]
    congr 1
    omega
  refine hdisjoint (a := a) ?_ ?_
  · rw [pageOf, List.mem_take_iff_getElem]
    refine ⟨limit - 1, by simp; omega, ?_⟩
    have hplace : (k - 1) * limit + (limit - 1) = front.length := by omega
    simp [List.getElem_drop, hplace]
  · have hfront : (front ++ c :: a :: back).drop (k * limit) = a :: back := by
      have hcut : front ++ c :: a :: back = (front ++ [c]) ++ a :: back := by simp
      rw [hcut, List.drop_left' (by simpa using hlen)]
    rw [pageOf, hfront]
    obtain ⟨m, rfl⟩ : ∃ m, limit = m + 1 := ⟨limit - 1, by omega⟩
    rw [List.take_succ_cons]
    exact List.mem_cons_self

/-! ## 3. A loop over pages -/

section
variable {σ : Type}

/-- A page, then the next one, until the offset has passed the count. -/
def foldPages (limit : Nat) (hlimit : 0 < limit) (f : σ → α → σ) (l : List α) (offset : Nat)
    (s : σ) : σ :=
  if l.length ≤ offset + limit then (pageOf limit offset l).foldl f s
  else foldPages limit hlimit f l (offset + limit) ((pageOf limit offset l).foldl f s)
termination_by l.length - offset

/-- The loop comes by every element, in order and once. -/
theorem foldPages_eq {limit : Nat} (hlimit : 0 < limit) (f : σ → α → σ) (l : List α) (offset : Nat)
    (s : σ) : foldPages limit hlimit f l offset s = (l.drop offset).foldl f s := by
  have hpage : ∀ offset, l.drop offset = pageOf limit offset l ++ l.drop (offset + limit) := by
    intro offset
    rw [pageOf, ← List.drop_drop, List.take_append_drop]
  fun_induction foldPages limit hlimit f l offset s with
  | case1 offset s hlast => rw [hpage, List.drop_of_length_le hlast, List.append_nil]
  | case2 offset s hmore ih => rw [ih, hpage offset, List.foldl_append]

end

end ShieldApi
