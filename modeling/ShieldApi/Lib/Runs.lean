/-!
# Runs of a deterministic system

A system is a state, a set of labels, and what each label does. Everything a call could
have been told by its surroundings (its arguments, the clock, the order in which a table
hands out its rows) is part of the label, so `step` is a function and a run is a list of
labels.

`Reached` and `Fired` are the two things one says about a run: which states it passes
through, and which label fires in which state. The theorem this file exists for is
`reached_iff_fired`. It turns "the property holds in every state reached" into "every step
that fires meets its condition" for a property no single step is bound to keep, **in both
directions**. The condition of a step is then exactly what the property needs of it.
-/

set_option autoImplicit false

namespace ShieldApi

variable {S L : Type}

/-- `t` is the state before, between or after the labels of the run from `s`. -/
def Reached (step : S → L → S) (s : S) : List L → S → Prop
  | [], t => t = s
  | l :: ls, t => t = s ∨ Reached step (step s l) ls t

/-- In the run from `s`, some label `l` fires in state `u`. -/
def Fired (step : S → L → S) (s : S) : List L → S → L → Prop
  | [], _, _ => False
  | k :: ks, u, l => (u = s ∧ l = k) ∨ Fired step (step s k) ks u l

/-- In the run from `s`, some label `l` fires in state `u`, and `rest` is the run still to
    come. -/
def FiredThen (step : S → L → S) (s : S) : List L → S → L → List L → Prop
  | [], _, _, _ => False
  | k :: ks, u, l, rest => (u = s ∧ l = k ∧ rest = ks) ∨ FiredThen step (step s k) ks u l rest

variable {step : S → L → S}

theorem reached_start (s : S) (ls : List L) : Reached step s ls s := by
  cases ls with
  | nil => rfl
  | cons l ls => exact .inl rfl

theorem reached_end (s : S) (ls : List L) : Reached step s ls (ls.foldl step s) := by
  induction ls generalizing s with
  | nil => rfl
  | cons l ls ih => exact .inr (ih (step s l))

theorem Fired.mem {s u : S} {l : L} : ∀ {ls : List L}, Fired step s ls u l → l ∈ ls
  | [], h => h.elim
  | _ :: _, .inl ⟨_, hl⟩ => hl ▸ List.mem_cons_self ..
  | _ :: _, .inr h => List.mem_cons_of_mem _ h.mem

theorem Fired.reached {u : S} {l : L} :
    ∀ {s : S} {ls : List L}, Fired step s ls u l → Reached step s ls u
  | _, [], h => h.elim
  | _, _ :: _, .inl ⟨hu, _⟩ => .inl hu
  | _, _ :: _, .inr h => .inr h.reached

/-- What every step that fires preserves holds in every state the run reaches. -/
theorem Reached.invariant_fired {I : S → Prop} {ls : List L} {t : S} :
    ∀ {s : S}, I s → (∀ u l, Fired step s ls u l → I u → I (step u l)) →
      Reached step s ls t → I t := by
  induction ls with
  | nil =>
    intro s hs _ h
    obtain rfl : t = s := h
    exact hs
  | cons k ks ih =>
    intro s hs hstep h
    rcases h with rfl | h
    · exact hs
    · exact ih (hstep s k (.inl ⟨rfl, rfl⟩) hs) (fun u l hf => hstep u l (.inr hf)) h

/-- What every label of the run preserves holds in every state it reaches. -/
theorem Reached.invariant {I : S → Prop} {ls : List L} {t : S} :
    ∀ {s : S}, I s → (∀ u, ∀ l ∈ ls, I u → I (step u l)) → Reached step s ls t → I t := by
  induction ls with
  | nil => rintro s hs - rfl; exact hs
  | cons l ls ih =>
    rintro s hs hstep (rfl | h)
    · exact hs
    · exact ih (hstep s l (List.mem_cons_self ..) hs)
        (fun u k hk => hstep u k (List.mem_cons_of_mem _ hk)) h

/-- What a step brought about holds at the end, if no step undoes it. -/
theorem Fired.at_end {P : S → Prop} {s u : S} {l : L} {ls : List L} (h : Fired step s ls u l)
    (hkeep : ∀ v k, Fired step s ls v k → P v → P (step v k)) (hp : P (step u l)) :
    P (ls.foldl step s) := by
  induction ls generalizing s with
  | nil => exact h.elim
  | cons k ks ih =>
    have hrest := fun v m hf => hkeep v m (.inr hf)
    rcases h with ⟨rfl, rfl⟩ | h
    · exact (reached_end _ ks).invariant_fired hp hrest
    · exact ih h hrest

/-- **The step condition of a property.** If a step from a state with the property ends in
    one with the property exactly when the label meets `G`, then the property holds in
    every state of a run exactly when every label that fires meets `G`. `I` is what the
    comparison may assume of the states in between. -/
theorem reached_iff_fired {I P : S → Prop} {G : S → L → Prop} {s : S} {ls : List L}
    (hI : I s) (hP : P s) (hstep : ∀ u, ∀ l ∈ ls, I u → I (step u l))
    (hG : ∀ u, ∀ l ∈ ls, I u → P u → (P (step u l) ↔ G u l)) :
    (∀ t, Reached step s ls t → P t) ↔ ∀ u l, Fired step s ls u l → G u l := by
  induction ls generalizing s with
  | nil => exact ⟨fun _ _ _ h => h.elim, fun _ t h => h ▸ hP⟩
  | cons k ks ih =>
    have hk := List.mem_cons_self (a := k) (l := ks)
    have ih := fun (hP' : P (step s k)) => ih (hstep s k hk hI) hP'
      (fun u l hl => hstep u l (List.mem_cons_of_mem _ hl))
      (fun u l hl => hG u l (List.mem_cons_of_mem _ hl))
    constructor
    · intro h u l hf
      have hP' : P (step s k) := h _ (.inr (reached_start _ ks))
      rcases hf with ⟨rfl, rfl⟩ | hf
      · exact (hG u l hk hI hP).mp hP'
      · exact (ih hP').mp (fun t ht => h t (.inr ht)) u l hf
    · intro h t ht
      have hP' : P (step s k) := (hG s k hk hI hP).mpr (h s k (.inl ⟨rfl, rfl⟩))
      rcases ht with rfl | ht
      · exact hP
      · exact (ih hP').mpr (fun u l hf => h u l (.inr hf)) t ht

theorem fired_iff_firedThen {u : S} {l : L} :
    ∀ {s : S} {ls : List L}, Fired step s ls u l ↔ ∃ rest, FiredThen step s ls u l rest
  | _, [] => ⟨fun h => h.elim, fun ⟨_, h⟩ => h.elim⟩
  | s, k :: ks => by
    have ih : Fired step (step s k) ks u l ↔ ∃ rest, FiredThen step (step s k) ks u l rest :=
      fired_iff_firedThen
    constructor
    · intro h
      rcases h with ⟨hu, hl⟩ | h
      · exact ⟨ks, .inl ⟨hu, hl, rfl⟩⟩
      · obtain ⟨rest, h⟩ := ih.mp h
        exact ⟨rest, .inr h⟩
    · intro h
      obtain ⟨rest, ⟨hu, hl, -⟩ | h⟩ := h
      · exact .inl ⟨hu, hl⟩
      · exact .inr (ih.mpr ⟨rest, h⟩)

/-- **An invariant that looks ahead.** `I ls u` may speak of the labels `ls` still to come; it
    holds whenever a label fires if every step that fires preserves it. -/
theorem FiredThen.invariant {I : List L → S → Prop} {u : S} {l : L} {rest : List L} :
    ∀ {s : S} {ls : List L}, I ls s →
      (∀ u l rest, FiredThen step s ls u l rest → I (l :: rest) u → I rest (step u l)) →
      FiredThen step s ls u l rest → I (l :: rest) u
  | _, [], _, _, h => h.elim
  | s, k :: ks, hs, hstep, h => by
    rcases h with ⟨hu, hl, hrest⟩ | h
    · rw [hu, hl, hrest]
      exact hs
    · exact h.invariant (hstep s k ks (.inl ⟨rfl, rfl, rfl⟩) hs)
        fun u l rest hf => hstep u l rest (.inr hf)

/-- In the run from `s`, `u` is reached and `v` is reached then or later. -/
def Earlier (step : S → L → S) (s : S) : List L → S → S → Prop
  | [], u, v => u = s ∧ v = s
  | l :: ls, u, v => (u = s ∧ Reached step s (l :: ls) v) ∨ Earlier step (step s l) ls u v

theorem earlier_start {s v : S} {ls : List L} (h : Reached step s ls v) : Earlier step s ls s v := by
  cases ls with
  | nil => exact ⟨rfl, h⟩
  | cons l ls => exact .inl ⟨rfl, h⟩

theorem earlier_foldl (s : S) (ls ms : List L) :
    Earlier step s (ls ++ ms) (ls.foldl step s) (ms.foldl step (ls.foldl step s)) := by
  induction ls generalizing s with
  | nil => exact earlier_start (reached_end s ms)
  | cons l ls ih => exact .inr (ih (step s l))

theorem Fired.earlier {u : S} {l : L} :
    ∀ {s : S} {ls : List L}, Fired step s ls u l → Earlier step s ls u (step u l)
  | _, [], h => h.elim
  | _, _ :: ks, .inl ⟨hu, hl⟩ => by subst hu hl; exact .inl ⟨rfl, .inr (reached_start _ ks)⟩
  | _, _ :: _, .inr h => .inr h.earlier

/-- What is reflexive and transitive holds between every state and every later one exactly when
    it holds over every step. -/
theorem earlier_iff_fired {R : S → S → Prop} (refl : ∀ s, R s s)
    (trans : ∀ s t u, R s t → R t u → R s u) {s : S} {ls : List L} :
    (∀ u v, Earlier step s ls u v → R u v) ↔ ∀ u l, Fired step s ls u l → R u (step u l) := by
  refine ⟨fun h u l hf => h u _ hf.earlier, fun h => ?_⟩
  induction ls generalizing s with
  | nil =>
    intro u v huv
    obtain ⟨rfl, rfl⟩ := huv
    exact refl _
  | cons k ks ih =>
    have ih := ih fun u l hf => h u l (.inr hf)
    intro u v huv
    rcases huv with ⟨rfl, hv⟩ | huv
    · rcases hv with rfl | hv
      · exact refl _
      · exact trans _ _ _ (h _ k (.inl ⟨rfl, rfl⟩)) (ih _ _ (earlier_start hv))
    · exact ih u v huv

/-- The same for a property of the steps themselves. -/
theorem fired_iff_fired {I : S → Prop} {Q G : S → L → Prop} {s : S} {ls : List L} (hI : I s)
    (hstep : ∀ u, ∀ l ∈ ls, I u → I (step u l)) (hG : ∀ u, ∀ l ∈ ls, I u → (Q u l ↔ G u l)) :
    (∀ u l, Fired step s ls u l → Q u l) ↔ ∀ u l, Fired step s ls u l → G u l := by
  have inv : ∀ u l, Fired step s ls u l → I u := fun u l hf => hf.reached.invariant hI hstep
  exact ⟨fun h u l hf => (hG u l hf.mem (inv u l hf)).mp (h u l hf),
    fun h u l hf => (hG u l hf.mem (inv u l hf)).mpr (h u l hf)⟩

end ShieldApi
