import ShieldApi.Lib.Process

/-!
# Waiting for all

`Promise.all` over the processes of a pool: whoever is next makes a step, and **the first that
fails fails the whole**. Where it goes through, nobody has failed (`all_eq_ok_iff`), and whoever is
named often enough is done (`within_round`).
-/

set_option autoImplicit false

namespace ShieldApi

variable {C σ τ ε α : Type}

namespace Process

/-- The process is done after at most so many steps. -/
def Within : Nat → Process σ τ ε α → Prop
  | _, .done _ => True
  | 0, .step .. => False
  | n + 1, .step _ _ next => ∀ s, (next s).Within n

theorem within_done (n : Nat) (result : Except ε α) :
    (Process.done result : Process σ τ ε α).Within n := by
  cases n <;> trivial

theorem Within.succ {n : Nat} {p : Process σ τ ε α} (h : p.Within n) : p.Within (n + 1) := by
  induction n generalizing p with
  | zero =>
    cases p with
    | done _ => trivial
    | step _ _ _ => exact h.elim
  | succ n ih =>
    cases p with
    | done _ => trivial
    | step _ _ next => exact fun s => ih (h s)

theorem Within.done {p : Process σ τ ε α} (h : p.Within 0) : ∃ result, p = .done result := by
  cases p with
  | done result => exact ⟨result, rfl⟩
  | step _ _ _ => exact h.elim

/-- The process has ended with an error. -/
def Failed (p : Process σ τ ε α) : Prop := ∃ e, p = .done (.error e)

end Process

namespace Pool

variable [DecidableEq C]

theorem step_process_of_ne (p : Pool C σ τ ε α) {c d : C} (h : d ≠ c) :
    (p.step c).process d = p.process d := by
  unfold step
  cases p.process c with
  | done _ => rfl
  | step _ _ _ => exact Function.update_of_ne h ..

theorem step_of_done {p : Pool C σ τ ε α} {c : C} {result : Except ε α}
    (h : p.process c = .done result) : p.step c = p := by
  unfold step
  rw [h]

theorem step_of_step {p : Pool C σ τ ε α} {c : C} {tag : τ} {write : σ → σ}
    {next : σ → Process σ τ ε α} (h : p.process c = .step tag write next) :
    p.step c = ⟨write p.store, Function.update p.process c (next p.store)⟩ := by
  unfold step
  rw [h]

theorem step_process_of_step {p : Pool C σ τ ε α} {c : C} {tag : τ} {write : σ → σ}
    {next : σ → Process σ τ ε α} (h : p.process c = .step tag write next) :
    (p.step c).process c = next p.store := by
  rw [step_of_step h]
  exact Function.update_self ..

/-- Who is done stays done. -/
theorem done_step {p : Pool C σ τ ε α} {c : C} {result : Except ε α}
    (h : p.process c = .done result) (d : C) : (p.step d).process c = .done result := by
  by_cases hcd : c = d
  · rw [← hcd, step_of_done h, h]
  · rw [step_process_of_ne p hcd, h]

theorem done_foldl {p : Pool C σ τ ε α} {c : C} {result : Except ε α}
    (h : p.process c = .done result) (run : List C) :
    (run.foldl step p).process c = .done result := by
  induction run generalizing p with
  | nil => exact h
  | cons d run ih => exact ih (done_step h d)

theorem foldl_process_of_not_mem (p : Pool C σ τ ε α) {c : C} {run : List C} (h : c ∉ run) :
    (run.foldl step p).process c = p.process c := by
  induction run generalizing p with
  | nil => rfl
  | cons d run ih =>
    rw [List.mem_cons, not_or] at h
    rw [List.foldl_cons, ih _ h.2, step_process_of_ne p h.1]

theorem within_step {p : Pool C σ τ ε α} {c : C} {n : Nat} (h : (p.process c).Within n) (d : C) :
    ((p.step d).process c).Within n := by
  by_cases hcd : c = d
  · subst hcd
    cases hc : p.process c with
    | done result =>
      rw [done_step hc]
      exact Process.within_done ..
    | step tag write next =>
      rw [step_process_of_step hc]
      rw [hc] at h
      cases n with
      | zero => exact h.elim
      | succ n => exact (h p.store).succ
  · rw [step_process_of_ne p hcd]
    exact h

theorem within_foldl {p : Pool C σ τ ε α} {c : C} {n : Nat} (h : (p.process c).Within n)
    (run : List C) : ((run.foldl step p).process c).Within n := by
  induction run generalizing p with
  | nil => exact h
  | cons d run ih => exact ih (within_step h d)

/-- Whoever is named has a step less to make. -/
theorem within_round {p : Pool C σ τ ε α} {c : C} {n : Nat} (h : (p.process c).Within (n + 1))
    {run : List C} (hc : c ∈ run) : ((run.foldl step p).process c).Within n := by
  induction run generalizing p with
  | nil => exact absurd hc List.not_mem_nil
  | cons d run ih =>
    by_cases hcd : c = d
    · subst hcd
      refine within_foldl ?_ run
      cases hp : p.process c with
      | done result =>
        rw [done_step hp]
        exact Process.within_done ..
      | step tag write next =>
        rw [step_process_of_step hp]
        rw [hp] at h
        exact h p.store
    · exact ih (within_step h d) ((List.mem_cons.1 hc).resolve_left hcd)

/-- `Promise.all`, with the steps in the order of a run. -/
def all (p : Pool C σ τ ε α) : List C → Except ε σ
  | [] => .ok p.store
  | c :: run =>
    match (p.step c).process c with
    | .done (.error e) => .error e
    | _ => (p.step c).all run

theorem all_eq_ok_iff {p : Pool C σ τ ε α} {run : List C} {s : σ} :
    p.all run = .ok s ↔
      (run.foldl step p).store = s ∧ ∀ c ∈ run, ¬ ((run.foldl step p).process c).Failed := by
  induction run generalizing p with
  | nil => simp [all]
  | cons c run ih =>
    rw [List.foldl_cons, all]
    split
    · rename_i e he
      refine iff_of_false (fun h => by cases h) ?_
      intro h
      exact h.2 c (List.mem_cons_self ..) ⟨e, done_foldl he run⟩
    · rename_i hok
      rw [ih, List.forall_mem_cons]
      refine and_congr_right fun _ => ⟨fun h => ⟨?_, h⟩, And.right⟩
      by_cases hc : c ∈ run
      · exact h c hc
      · rw [foldl_process_of_not_mem _ hc]
        rintro ⟨e, he⟩
        exact hok e he

end Pool

end ShieldApi
