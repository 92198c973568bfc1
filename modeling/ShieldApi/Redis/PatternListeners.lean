import Mathlib.Data.List.Basic
import ShieldApi.Lib.Runs

/-!
# The listeners of a pattern

`RedisService.addPatternListener` and `removePatternListener`, on one pattern. Listeners are counted
on the event manager, and the client is subscribed while there are any: the first one issues
`PSUBSCRIBE`, the last one to go `PUNSUBSCRIBE`. The commands complete in the order they were issued,
and each may fail.

The set of subscribed patterns says `yes` from the moment the command is issued. **A listener that
comes while the command is under way is told that all is well, and when the command fails it is
the first listener that is taken back and told so** (`secondListener_lost`). So what has to be asked of
a failing command is that it leaves listeners exactly if the commands behind it still subscribe
(`Tolerates`). Nothing else can go wrong: not by removing while adding, nor by adding while removing
(`patternListeners_kept`).
-/

set_option autoImplicit false

namespace ShieldApi

variable {L : Type} [DecidableEq L]

/-! ## 1. The service -/

/-- A command on its way. A subscription knows whose call awaits it, and whether that listener was
    removed in the meantime. -/
inductive RedisCommand (L : Type)
  | pSubscribe (listener : L) (removed : Bool)
  | pUnsubscribe
  deriving DecidableEq, Repr

def RedisCommand.subscribes : RedisCommand L → Bool
  | .pSubscribe _ _ => true
  | .pUnsubscribe => false

/-- The call of the listener is told nothing about it being there. -/
def RedisCommand.remove (l : L) : RedisCommand L → RedisCommand L
  | .pSubscribe listener removed => .pSubscribe listener (removed || listener = l)
  | .pUnsubscribe => .pUnsubscribe

/-- All there is of one pattern. -/
structure PatternState (L : Type) where
  /-- On the event manager, the last one added last. -/
  listeners : List L := []
  /-- The pattern is in `subscribedPatterns`. -/
  subscribed : Bool := false
  /-- The Redis client is subscribed to it. -/
  client : Bool := false
  pending : List (RedisCommand L) := []
  /-- Those whose call of `addPatternListener` resolved, and who were not removed since. -/
  owed : List L := []
  deriving DecidableEq, Repr

/-- `EventEmitter.off`: of a listener that was added more than once the last one goes. -/
def off (l : L) (listeners : List L) : List L := (listeners.reverse.erase l).reverse

namespace RedisService

def addPatternListener (s : PatternState L) (l : L) : PatternState L :=
  if s.subscribed then { s with listeners := s.listeners ++ [l], owed := s.owed ++ [l] }
  else
    { s with
      listeners := s.listeners ++ [l]
      subscribed := true
      pending := s.pending ++ [.pSubscribe l false] }

def removePatternListener (s : PatternState L) (l : L) : PatternState L :=
  let removed : PatternState L :=
    { s with
      listeners := off l s.listeners
      owed := s.owed.filter (· ≠ l)
      pending := s.pending.map (·.remove l) }
  if removed.listeners.isEmpty then
    { removed with subscribed := false, pending := removed.pending ++ [.pUnsubscribe] }
  else removed

/-- The first of the pending commands completes. -/
def complete (s : PatternState L) (succeeds : Bool) : PatternState L :=
  match s.pending with
  | [] => s
  | .pSubscribe l removed :: rest =>
    if succeeds then
      { s with
        client := true
        pending := rest
        owed := if removed then s.owed else s.owed ++ [l] }
    else
      { s with listeners := off l s.listeners, subscribed := false, pending := rest }
  | .pUnsubscribe :: rest =>
    { s with client := !succeeds && s.client, pending := rest }

end RedisService

inductive PatternStep (L : Type)
  | add (l : L)
  | remove (l : L)
  | complete (succeeds : Bool)
  deriving DecidableEq, Repr

namespace PatternState

def step (s : PatternState L) : PatternStep L → PatternState L
  | .add l => RedisService.addPatternListener s l
  | .remove l => RedisService.removePatternListener s l
  | .complete succeeds => RedisService.complete s succeeds

/-- No listener is lost, and none that is gone keeps the subscription. -/
structure Kept (s : PatternState L) : Prop where
  registered : ∀ l ∈ s.owed, l ∈ s.listeners
  heard : s.owed ≠ [] → s.client = true
  quiet : s.listeners = [] → s.client = false

/-! ## 2. Where the commands lead -/

/-- Whether the client is subscribed behind these commands, if they succeed. -/
def aimedBy (commands : List (RedisCommand L)) (client : Bool) : Bool :=
  (commands.getLast?.map RedisCommand.subscribes).getD client

def aimed (s : PatternState L) : Bool := aimedBy s.pending s.client

omit [DecidableEq L] in
@[simp] theorem aimedBy_nil (client : Bool) :
    aimedBy ([] : List (RedisCommand L)) client = client := rfl

omit [DecidableEq L] in
@[simp] theorem aimedBy_append (commands : List (RedisCommand L)) (c : RedisCommand L)
    (client : Bool) : aimedBy (commands ++ [c]) client = c.subscribes := by
  simp [aimedBy]

omit [DecidableEq L] in
/-- The first of the commands has a say only where it is the only one. -/
theorem aimedBy_cons (c : RedisCommand L) (rest : List (RedisCommand L)) (client : Bool) :
    aimedBy (c :: rest) client = aimedBy rest c.subscribes := by
  cases rest with
  | nil => rfl
  | cons d ds =>
    unfold aimedBy
    rw [List.getLast?_cons_cons, List.getLast?_cons]
    rfl

omit [DecidableEq L] in
theorem aimedBy_of_ne_nil {commands : List (RedisCommand L)} (h : commands ≠ [])
    (client client' : Bool) : aimedBy commands client = aimedBy commands client' := by
  cases commands with
  | nil => exact absurd rfl h
  | cons c rest => rw [aimedBy_cons, aimedBy_cons]

theorem aimedBy_remove (l : L) (commands : List (RedisCommand L)) (client : Bool) :
    aimedBy (commands.map (·.remove l)) client = aimedBy commands client := by
  have hsubscribes : ∀ c : RedisCommand L, (c.remove l).subscribes = c.subscribes := by
    intro c
    cases c <;> rfl
  induction commands generalizing client with
  | nil => rfl
  | cons c rest ih => rw [List.map_cons, aimedBy_cons, aimedBy_cons, hsubscribes, ih]

theorem mem_off_of_ne {l x : L} {listeners : List L} (h : x ≠ l) :
    x ∈ off l listeners ↔ x ∈ listeners := by
  unfold off
  rw [List.mem_reverse, List.mem_erase_of_ne h, List.mem_reverse]

/-! ## 3. The invariant -/

/-- What is true of a pattern as long as no command fails: it is headed for a subscription exactly
    while there are listeners, and who was or will be told so is one of them. -/
structure Consistent (s : PatternState L) : Prop where
  aimed : s.aimed = true ↔ s.listeners ≠ []
  subscribed : s.subscribed = true → s.listeners ≠ []
  owed : ∀ l ∈ s.owed, l ∈ s.listeners
  awaited : ∀ l, .pSubscribe l false ∈ s.pending → l ∈ s.listeners

/-- The step may fail: what it takes back leaves listeners exactly if the commands behind it
    subscribe, and does not take the listener from another call. -/
def Tolerates (s : PatternState L) : PatternStep L → Prop
  | .complete false =>
    match s.pending with
    | [] => True
    | .pSubscribe l _ :: rest =>
      (aimedBy rest s.client = true ↔ off l s.listeners ≠ []) ∧
        (l ∈ s.owed ∨ .pSubscribe l false ∈ rest → l ∈ off l s.listeners)
    | .pUnsubscribe :: rest => rest = [] → s.client = false
  | _ => True

omit [DecidableEq L] in
theorem consistent_start : Consistent ({} : PatternState L) :=
  ⟨by simp [PatternState.aimed], by simp, by simp, by simp⟩

omit [DecidableEq L] in
theorem Consistent.kept {s : PatternState L} (h : s.Consistent) (hdone : s.pending = []) :
    s.Kept := by
  have haimed : s.client = true ↔ s.listeners ≠ [] := by
    have haimed := h.aimed
    rwa [PatternState.aimed, hdone, aimedBy_nil] at haimed
  refine ⟨h.owed, fun howed => ?_, fun hnone => ?_⟩
  · obtain ⟨l, hl⟩ := List.exists_mem_of_ne_nil _ howed
    exact haimed.mpr (List.ne_nil_of_mem (h.owed l hl))
  · exact Bool.eq_false_iff.mpr fun hclient => haimed.mp hclient hnone

/-! ## 4. Each step -/

variable {s : PatternState L}

omit [DecidableEq L] in
theorem Consistent.add (h : s.Consistent) (l : L) :
    (RedisService.addPatternListener s l).Consistent := by
  unfold RedisService.addPatternListener
  by_cases hsubscribed : s.subscribed = true
  · -- nothing is issued, and what was issued before subscribes
    have haimed := h.aimed.mpr (h.subscribed hsubscribed)
    rw [if_pos hsubscribed]
    refine ⟨iff_of_true haimed (by simp), fun _ => by simp, fun x hx => ?_, fun x hx => ?_⟩
    · rw [List.mem_append] at hx ⊢
      exact hx.imp_left (h.owed x)
    · exact List.mem_append_left _ (h.awaited x hx)
  · rw [if_neg hsubscribed]
    refine ⟨iff_of_true (aimedBy_append _ _ _) (by simp), fun _ => by simp, fun x hx => ?_,
      fun x hx => ?_⟩
    · exact List.mem_append_left _ (h.owed x hx)
    · rw [List.mem_append, List.mem_singleton] at hx ⊢
      rcases hx with hx | hx
      · exact .inl (h.awaited x hx)
      · exact .inr (RedisCommand.pSubscribe.inj hx).1

/-- A call that still awaits its command, and was not told its listener is gone, has another one. -/
theorem awaited_of_remove {l x : L} {commands : List (RedisCommand L)}
    (h : .pSubscribe x false ∈ commands.map (·.remove l)) :
    x ≠ l ∧ .pSubscribe x false ∈ commands := by
  obtain ⟨c, hc, hremove⟩ := List.mem_map.mp h
  cases c with
  | pUnsubscribe => cases hremove
  | pSubscribe y removed =>
    obtain ⟨rfl, hflag⟩ := RedisCommand.pSubscribe.inj hremove
    rw [Bool.or_eq_false_iff, decide_eq_false_iff_not] at hflag
    obtain ⟨rfl, hother⟩ := hflag
    exact ⟨hother, hc⟩

theorem Consistent.remove (h : s.Consistent) (l : L) :
    (RedisService.removePatternListener s l).Consistent := by
  have howed : ∀ x ∈ s.owed.filter (· ≠ l), x ∈ off l s.listeners := by
    intro x hx
    obtain ⟨hmem, hother⟩ := List.mem_filter.mp hx
    exact (mem_off_of_ne (of_decide_eq_true hother)).mpr (h.owed x hmem)
  have hawaited : ∀ x, .pSubscribe x false ∈ s.pending.map (·.remove l) → x ∈ off l s.listeners := by
    intro x hx
    obtain ⟨hother, hmem⟩ := awaited_of_remove hx
    exact (mem_off_of_ne hother).mpr (h.awaited x hmem)
  unfold RedisService.removePatternListener
  by_cases hlast : off l s.listeners = []
  · -- the last one goes: what is issued now has the last word
    simp only [hlast, List.isEmpty_nil, if_true]
    refine ⟨?_, fun hset => (by cases hset), fun x hx => ?_, fun x hx => ?_⟩
    · rw [PatternState.aimed, aimedBy_append]
      exact iff_of_false (by simp [RedisCommand.subscribes]) fun hne => hne rfl
    · exact hlast ▸ howed x hx
    · rw [List.mem_append, List.mem_singleton] at hx
      rcases hx with hx | hx
      · exact hlast ▸ hawaited x hx
      · cases hx
  · have hbefore : s.listeners ≠ [] := by
      rintro hnone
      exact hlast (by rw [off, hnone]; rfl)
    simp only [List.isEmpty_iff, hlast, if_false]
    refine ⟨?_, fun _ => hlast, howed, hawaited⟩
    rw [PatternState.aimed, aimedBy_remove]
    exact iff_of_true (h.aimed.mpr hbefore) hlast

theorem Consistent.succeed (h : s.Consistent) : (RedisService.complete s true).Consistent := by
  unfold RedisService.complete
  have haimed := h.aimed
  unfold PatternState.aimed at haimed
  cases hpending : s.pending with
  | nil => exact h
  | cons c rest =>
    rw [hpending, aimedBy_cons] at haimed
    have hawaited : ∀ x, .pSubscribe x false ∈ rest → x ∈ s.listeners :=
      fun x hx => h.awaited x (hpending ▸ List.mem_cons_of_mem _ hx)
    cases c with
    | pSubscribe l removed =>
      refine ⟨haimed, h.subscribed, fun x hx => ?_, hawaited⟩
      cases removed with
      | true => exact h.owed x hx
      | false =>
        rcases List.mem_append.mp hx with hx | hx
        · exact h.owed x hx
        · obtain rfl := List.mem_singleton.mp hx
          exact h.awaited x (hpending ▸ List.mem_cons_self ..)
    | pUnsubscribe => exact ⟨haimed, h.subscribed, h.owed, hawaited⟩

/-- **What a failing command keeps**, and exactly when. -/
theorem Consistent.fail_iff (h : s.Consistent) :
    (RedisService.complete s false).Consistent ↔ s.Tolerates (.complete false) := by
  unfold RedisService.complete Tolerates
  have haimed := h.aimed
  unfold PatternState.aimed at haimed
  cases hpending : s.pending with
  | nil => exact iff_of_true h trivial
  | cons c rest =>
    rw [hpending, aimedBy_cons] at haimed
    have hawaited : ∀ x, .pSubscribe x false ∈ rest → x ∈ s.listeners :=
      fun x hx => h.awaited x (hpending ▸ List.mem_cons_of_mem _ hx)
    cases c with
    | pSubscribe l removed =>
      constructor
      · intro h'
        exact ⟨h'.aimed, fun hl => hl.elim (h'.owed l) (h'.awaited l)⟩
      · intro htolerates
        obtain ⟨hleft, hother⟩ := htolerates
        refine ⟨hleft, fun hset => (by cases hset), fun x hx => ?_, fun x hx => ?_⟩
        · by_cases hxl : x = l
          · exact hxl ▸ hother (.inl (hxl ▸ hx))
          · exact (mem_off_of_ne hxl).mpr (h.owed x hx)
        · by_cases hxl : x = l
          · exact hxl ▸ hother (.inr (hxl ▸ hx))
          · exact (mem_off_of_ne hxl).mpr (hawaited x hx)
    | pUnsubscribe =>
      show (PatternState.Consistent { s with client := s.client, pending := rest }) ↔ _
      constructor
      · intro h' hrest
        have hnone : aimedBy rest false = true ↔ s.listeners ≠ [] := haimed
        have hleft : aimedBy rest s.client = true ↔ s.listeners ≠ [] := h'.aimed
        rw [hrest, aimedBy_nil] at hnone hleft
        exact Bool.eq_false_iff.mpr fun hclient => absurd (hnone.mpr (hleft.mp hclient)) (by simp)
      · intro htolerates
        refine ⟨?_, h.subscribed, h.owed, hawaited⟩
        show aimedBy rest s.client = true ↔ s.listeners ≠ []
        rw [← haimed]
        by_cases hrest : rest = []
        · rw [hrest, aimedBy_nil, aimedBy_nil, htolerates hrest]
          rfl
        · rw [aimedBy_of_ne_nil hrest s.client]

/-- A step keeps the invariant exactly if it is no failure, or one that is tolerated. -/
theorem consistent_step_iff (h : s.Consistent) (l : PatternStep L) :
    (s.step l).Consistent ↔ s.Tolerates l := by
  cases l with
  | add l => exact iff_of_true (h.add l) trivial
  | remove l => exact iff_of_true (h.remove l) trivial
  | complete succeeds =>
    cases succeeds with
    | true => exact iff_of_true h.succeed trivial
    | false => exact h.fail_iff

/-- In every state of a run the pattern is headed where its listeners are, exactly if every command
    that fails is tolerated. -/
theorem consistent_run_iff (run : List (PatternStep L)) :
    (∀ s, Reached step {} run s → s.Consistent) ↔
      ∀ s l, Fired step ({} : PatternState L) run s l → s.Tolerates l :=
  reached_iff_fired (I := fun _ => True) trivial consistent_start (fun _ _ _ _ => trivial)
    fun _ l _ _ h => consistent_step_iff h l

end PatternState

/-- **With every command completed, whoever was told it listens does so, and a pattern without
    listeners is not subscribed**: in every run of calls and completions in which each failing
    command is tolerated. -/
theorem patternListeners_kept {run : List (PatternStep L)}
    (htolerated : ∀ s l, Fired PatternState.step ({} : PatternState L) run s l → s.Tolerates l)
    {s : PatternState L} (hs : Reached PatternState.step {} run s) (hdone : s.pending = []) :
    s.Kept :=
  ((PatternState.consistent_run_iff run).mpr htolerated s hs).kept hdone

/-! ## 5. Three runs -/

/-- The first listener's subscription fails, before anybody else comes. -/
def retriedRun : List (PatternStep Nat) := [.add 0, .complete false, .add 1, .complete true]

theorem retriedRun_kept :
    ((retriedRun.foldl PatternState.step {}).owed = [1]) ∧
      (retriedRun.foldl PatternState.step {}).Kept := by
  refine ⟨by decide, patternListeners_kept (fun s l hfired => ?_) (reached_end _ retriedRun)
    (by decide)⟩
  simp only [retriedRun, Fired] at hfired
  rcases hfired with ⟨rfl, rfl⟩ | ⟨rfl, rfl⟩ | ⟨rfl, rfl⟩ | ⟨rfl, rfl⟩ | hfired
  · trivial
  · exact ⟨by decide, by decide⟩
  · trivial
  · trivial
  · exact hfired.elim

/-- The second listener comes while the subscription is under way, and then it fails. -/
def secondRun : List (PatternStep Nat) := [.add 0, .add 1, .complete false]

/-- The second listener was told it listens, and nobody is subscribed. -/
theorem secondListener_lost :
    ∃ s, Reached PatternState.step {} secondRun s ∧ s.pending = [] ∧ ¬ s.Kept ∧
      s.owed = [1] ∧ s.listeners = [1] ∧ s.client = false := by
  refine ⟨secondRun.foldl PatternState.step {}, reached_end _ secondRun, by decide, fun h => ?_,
    by decide, by decide, by decide⟩
  exact absurd (h.heard (by decide)) (by decide)

end ShieldApi
