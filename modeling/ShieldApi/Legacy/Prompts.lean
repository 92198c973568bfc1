import ShieldApi.Lib.Runs

/-!
# The prompts of a socket

`LegacyMigrationGateway` asks the user at the other end of a socket what the migration wants to
know. It has **one slot for a pending prompt**, and what is in it gets the next response, or is
rejected when the socket is disconnected. A migration waits for its prompt meanwhile.

Here is what happens to one socket, in any order. Nothing keeps a second migration from starting on
it, and then the prompt of the one takes the slot from that of the other, which nobody answers any
more: no response and no disconnect settles it, and the migration waits for good. No prompt is
orphaned exactly if no migration asks, or frees the slot, while another waits, and none asks a
socket that was disconnected, as happens where that comes before the validation of the token
(`promptsKept_iff`). With one migration at a time, and no disconnect before its time, that is so
(`promptsKept_of_oneAtATime`).
-/

set_option autoImplicit false

namespace ShieldApi

namespace MigrationSocket

/-! ## 1. A socket -/

inductive Connection
  | none | open | closed
  deriving DecidableEq, Repr

variable {ρ : Type}

/-- The promise of a prompt. It is settled once. -/
inductive Promise (ρ : Type)
  | pending
  | resolved (data : ρ)
  | rejected
  deriving DecidableEq, Repr

/-- A call of `migrate`. What it does other than to ask does not matter here. -/
inductive MigrationTask (ρ : Type)
  | running
  /-- It awaits the promise of a prompt, and `again` if an answer failed validation before. -/
  | waiting (prompt : Nat) (schema : Option (ρ → Bool)) (again : Bool)
  | ended

/-- A socket, and the `clientData` for it: one object, that `initPrompt` holds on to when it is no
    longer in the map. What is emitted to the user is left out. -/
structure SocketState (ρ : Type) where
  connection : Connection := .none
  /-- `handleConnection` awaits the validation of the token. -/
  validating : Bool := false
  /-- The object is in the map. -/
  stored : Bool := false
  pendingPrompt : Option Nat := none
  prompts : List (Promise ρ) := []
  migrations : List (MigrationTask ρ) := []

namespace SocketState

variable (s : SocketState ρ)

def settle (p : Nat) (result : Promise ρ) : List (Promise ρ) :=
  match s.prompts[p]? with
  | some .pending => s.prompts.set p result
  | _ => s.prompts

/-- A new promise, in the slot of the object. -/
def ask (migration : Nat) (schema : Option (ρ → Bool)) (again : Bool) : SocketState ρ :=
  { s with
    pendingPrompt := some s.prompts.length
    prompts := s.prompts ++ [.pending]
    migrations := s.migrations.set migration (.waiting s.prompts.length schema again) }

/-- `safeParse` does not succeed. -/
def fails (schema : Option (ρ → Bool)) (data : ρ) : Bool := schema.any fun accepts => !accepts data

/-- The slot is freed after the first answer only. -/
def answered (again : Bool) : SocketState ρ := if again then s else { s with pendingPrompt := none }

@[simp] theorem answered_connection (again : Bool) :
    (s.answered again).connection = s.connection := by
  cases again <;> rfl

@[simp] theorem answered_stored (again : Bool) :
    (s.answered again).stored = s.stored := by
  cases again <;> rfl

@[simp] theorem answered_prompts (again : Bool) :
    (s.answered again).prompts = s.prompts := by
  cases again <;> rfl

@[simp] theorem answered_migrations (again : Bool) :
    (s.answered again).migrations = s.migrations := by
  cases again <;> rfl

end SocketState

open SocketState

section

variable (s : SocketState ρ)

/-- Up to the validation of the token. A socket connects once. -/
def handleConnection : SocketState ρ :=
  if s.connection = .none then { s with connection := .open, validating := true } else s

def validated (isValid : Bool) : SocketState ρ :=
  if s.validating then
    if isValid then { s with validating := false, stored := true, pendingPrompt := none }
    else { s with validating := false }
  else s

def handleDisconnect : SocketState ρ :=
  if s.connection = .open then
    { s with
      connection := .closed
      stored := false
      prompts :=
        match s.stored, s.pendingPrompt with
        | true, some p => s.settle p .rejected
        | _, _ => s.prompts }
  else s

/-- A message comes while the socket is open. -/
def migrate : SocketState ρ :=
  if s.connection = .open then { s with migrations := s.migrations ++ [.running] } else s

def promptResponse (data : ρ) : SocketState ρ :=
  if s.connection = .open ∧ s.stored then
    match s.pendingPrompt with
    | some p => { s with prompts := s.settle p (.resolved data) }
    | none => s
  else s

def initPrompt (migration : Nat) (schema : Option (ρ → Bool)) : SocketState ρ :=
  match s.migrations[migration]? with
  | some .running =>
    if s.stored then s.ask migration schema false
    else
      -- "Client data not found, likely due to an initialization error."
      { s with migrations := s.migrations.set migration .ended }
  | _ => s

/-- The rest of `initPrompt`, after its `await`. -/
def goOn (migration : Nat) : SocketState ρ :=
  match s.migrations[migration]? with
  | some (.waiting p schema again) =>
    match s.prompts[p]? with
    | some (.resolved data) =>
      if fails schema data then (s.answered again).ask migration schema true
      else
        { s.answered again with migrations := s.migrations.set migration .running }
    | some .rejected => { s with migrations := s.migrations.set migration .ended }
    | _ => s
  | _ => s

def finish (migration : Nat) : SocketState ρ :=
  match s.migrations[migration]? with
  | some .running => { s with migrations := s.migrations.set migration .ended }
  | _ => s

end

/-- What happens next. A migration goes on in a step of its own, since a second response may come
    before that. -/
inductive SocketEvent (ρ : Type)
  | connect
  | validated (isValid : Bool)
  | disconnect
  /-- The message `process-migration`. -/
  | migrate
  /-- The message `prompt-response`. -/
  | promptResponse (data : ρ)
  /-- A migration asks, and takes an answer that the schema accepts, if there is one. -/
  | initPrompt (migration : Nat) (schema : Option (ρ → Bool))
  | goOn (migration : Nat)
  | finish (migration : Nat)

def step (s : SocketState ρ) : SocketEvent ρ → SocketState ρ
  | .connect => handleConnection s
  | .validated isValid => validated s isValid
  | .disconnect => handleDisconnect s
  | .migrate => migrate s
  | .promptResponse data => promptResponse s data
  | .initPrompt migration schema => initPrompt s migration schema
  | .goOn migration => goOn s migration
  | .finish migration => finish s migration

/-! ## 2. What is claimed -/

def SocketState.Unsettled (s : SocketState ρ) (p : Nat) : Prop := s.prompts[p]? = some .pending

/-- The `pendingPrompt` of the socket, if the map has an object for it. -/
def SocketState.current (s : SocketState ρ) : Option Nat :=
  if s.stored then s.pendingPrompt else none

/-- What is not settled is the pending prompt, and the next response and the disconnect settle
    it. -/
structure NoOrphan (s : SocketState ρ) : Prop where
  current : ∀ p, s.Unsettled p → s.current = some p
  response : ∀ p data, s.Unsettled p → ¬(step s (.promptResponse data)).Unsettled p
  disconnect : ∀ p, s.Unsettled p → ¬(step s .disconnect).Unsettled p

/-- The step settles the prompt. -/
def Settles (s : SocketState ρ) (e : SocketEvent ρ) (p : Nat) : Prop :=
  s.Unsettled p ∧ ¬(step s e).Unsettled p

/-- **The claim about a run:** no prompt is orphaned, and no response settles two. -/
structure PromptsKept (events : List (SocketEvent ρ)) : Prop where
  noOrphan : ∀ s, Reached step {} events s → NoOrphan s
  once : ∀ s data, Fired step {} events s (.promptResponse data) →
    ∀ p q, Settles s (.promptResponse data) p → Settles s (.promptResponse data) q → p = q

/-! ## 3. When it holds -/

/-- A migration asks: it has something to ask and the map has an object, or an answer failed. -/
def asks (s : SocketState ρ) : SocketEvent ρ → Prop
  | .initPrompt migration _ => s.migrations[migration]? = some .running ∧ s.stored = true
  | .goOn migration =>
    ∃ p schema again data, s.migrations[migration]? = some (.waiting p schema again) ∧
      s.prompts[p]? = some (.resolved data) ∧ fails schema data = true
  | _ => False

/-- A migration goes on after its first answer to a question. -/
def frees (s : SocketState ρ) : SocketEvent ρ → Prop
  | .goOn migration =>
    ∃ p schema data, s.migrations[migration]? = some (.waiting p schema false) ∧
      s.prompts[p]? = some (.resolved data)
  | _ => False

/-- Nobody asks a socket that is not there, and nobody asks or frees the slot while another
    migration waits for an answer. -/
structure Undisturbed (s : SocketState ρ) (e : SocketEvent ρ) : Prop where
  connected : asks s e → s.connection = .open
  alone : asks s e ∨ frees s e → ∀ p, ¬s.Unsettled p

/-! ## 4. What is unsettled after a step -/

variable {s : SocketState ρ} {p q : Nat}

variable (s p q) in
theorem getElem?_settle (result : Promise ρ) :
    (q = p ∧ s.Unsettled p) ∧ (s.settle p result)[q]? = some result ∨
      ¬(q = p ∧ s.Unsettled p) ∧ (s.settle p result)[q]? = s.prompts[q]? := by
  unfold settle Unsettled
  by_cases hpending : s.prompts[p]? = some .pending
  · rw [hpending]
    by_cases hsame : q = p
    · subst hsame
      exact .inl ⟨⟨rfl, rfl⟩, List.getElem?_set_self (List.getElem?_eq_some_iff.mp hpending).1⟩
    · exact .inr ⟨fun h => hsame h.1, List.getElem?_set_ne (Ne.symm hsame)⟩
  · refine .inr ⟨fun h => hpending h.2, ?_⟩
    split
    · rename_i h
      exact absurd h hpending
    · rfl

theorem unsettled_settle {result : Promise ρ} (hresult : result ≠ .pending) :
    (s.settle p result)[q]? = some .pending ↔ s.Unsettled q ∧ q ≠ p := by
  rcases getElem?_settle s p q result with ⟨⟨rfl, -⟩, heq⟩ | ⟨hother, heq⟩
  · simp [heq, hresult]
  · rw [heq]
    exact ⟨fun hq => ⟨hq, fun hsame => hother ⟨hsame, hsame ▸ hq⟩⟩, fun hq => hq.1⟩

theorem unsettled_ask {migration : Nat} {schema : Option (ρ → Bool)} {again : Bool} :
    (s.ask migration schema again).Unsettled q ↔ s.Unsettled q ∨ q = s.prompts.length := by
  unfold ask Unsettled
  rcases Nat.lt_trichotomy q s.prompts.length with hlt | rfl | hlt
  · rw [List.getElem?_append_left hlt]
    simp [Nat.ne_of_lt hlt]
  · simp
  · rw [List.getElem?_eq_none (by simp; omega), List.getElem?_eq_none (by omega)]
    simp [Nat.ne_of_gt hlt]

theorem lt_of_unsettled (h : s.Unsettled p) : p < s.prompts.length :=
  (List.getElem?_eq_some_iff.mp h).1

theorem step_promptResponse_of_current {data : ρ} (hopen : s.connection = .open)
    (h : s.current = some p) :
    step s (.promptResponse data) = { s with prompts := s.settle p (.resolved data) } := by
  unfold SocketState.current at h
  split at h
  · rename_i hstored
    simp [step, promptResponse, hopen, hstored, h]
  · exact absurd h (by simp)

theorem step_disconnect_of_current (hopen : s.connection = .open) (h : s.current = some p) :
    step s .disconnect =
      { s with connection := .closed, stored := false, prompts := s.settle p .rejected } := by
  unfold SocketState.current at h
  split at h
  · rename_i hstored
    simp [step, handleDisconnect, hopen, hstored, h]
  · exact absurd h (by simp)

/-- The socket has to be there still. -/
theorem noOrphan_iff :
    NoOrphan s ↔ ∀ p, s.Unsettled p → s.connection = .open ∧ s.current = some p := by
  constructor
  · intro h p hp
    refine ⟨Decidable.byContradiction fun hclosed => ?_, h.current p hp⟩
    have hsame : step s .disconnect = s := if_neg hclosed
    exact h.disconnect p hp (hsame.symm ▸ hp)
  · intro h
    refine ⟨fun p hp => (h p hp).2, fun p data hp => ?_, fun p hp => ?_⟩
    · rw [step_promptResponse_of_current (h p hp).1 (h p hp).2]
      exact fun hstill => ((unsettled_settle (by simp)).mp hstill).2 rfl
    · rw [step_disconnect_of_current (h p hp).1 (h p hp).2]
      exact fun hstill => ((unsettled_settle (by simp)).mp hstill).2 rfl

/-- Where all is settled, nothing is orphaned. -/
theorem noOrphan_of_settled (h : ∀ p, ¬s.Unsettled p) : NoOrphan s :=
  noOrphan_iff.2 fun p hp => absurd hp (h p)

/-- A new prompt is orphaned at once, or orphans another, or does neither. -/
theorem noOrphan_ask {migration : Nat} {schema : Option (ρ → Bool)} {again : Bool} :
    NoOrphan (s.ask migration schema again) ↔
      s.connection = .open ∧ s.stored = true ∧ ∀ p, ¬s.Unsettled p := by
  rw [noOrphan_iff]
  have hcurrent : (s.ask migration schema again).current =
      if s.stored then some s.prompts.length else none := rfl
  constructor
  · intro h
    obtain ⟨hopen, hnew⟩ := h _ (unsettled_ask.2 (.inr rfl))
    have hstored : s.stored = true := by
      rw [hcurrent] at hnew
      exact (Option.ite_none_right_eq_some.mp hnew).1
    refine ⟨hopen, hstored, fun p hp => ?_⟩
    obtain ⟨-, hp'⟩ := h p (unsettled_ask.2 (.inl hp))
    rw [hcurrent, if_pos hstored] at hp'
    exact absurd (lt_of_unsettled hp) (by simp [Option.some.inj hp'])
  · rintro ⟨hopen, hstored, hnone⟩ p hp
    refine ⟨hopen, ?_⟩
    rw [hcurrent, if_pos hstored]
    rcases unsettled_ask.1 hp with hp | rfl
    · exact absurd hp (hnone p)
    · rfl

/-! ## 5. Steps -/

/-- The object is in the map from the validation of the token to the disconnect, and a migration
    that waits has seen it there. -/
structure Linked (s : SocketState ρ) : Prop where
  unconnected : s.connection = .none →
    s.stored = false ∧ s.validating = false ∧ s.migrations = []
  validating : s.validating = true → s.stored = false
  waiting : ∀ p schema again, .waiting p schema again ∈ s.migrations → s.connection = .open →
    s.stored = true

theorem linked_start : Linked ({} : SocketState ρ) where
  unconnected _ := ⟨rfl, rfl, rfl⟩
  validating h := absurd h (by simp)
  waiting _ _ _ h := absurd h List.not_mem_nil

/-- A migration that waits for nothing new. -/
theorem Linked.set {migration : Nat} {t : MigrationTask ρ} (h : Linked s)
    (ht : ∀ p schema again, t ≠ .waiting p schema again) :
    Linked { s with migrations := s.migrations.set migration t } where
  unconnected hnone := by
    obtain ⟨hstored, hvalidating, hmigrations⟩ := h.unconnected hnone
    exact ⟨hstored, hvalidating, by simp [hmigrations]⟩
  validating := h.validating
  waiting p schema again hmem hopen := by
    rcases List.mem_or_eq_of_mem_set hmem with hmem | heq
    · exact h.waiting p schema again hmem hopen
    · exact absurd heq.symm (ht p schema again)

theorem Linked.ask {migration : Nat} {schema : Option (ρ → Bool)} {again : Bool} (h : Linked s)
    (hstored : s.connection = .open → s.stored = true) :
    Linked (s.ask migration schema again) where
  unconnected hnone := by
    obtain ⟨hstored, hvalidating, hmigrations⟩ := h.unconnected hnone
    exact ⟨hstored, hvalidating, by simp [SocketState.ask, hmigrations]⟩
  validating := h.validating
  waiting _ _ _ _ hopen := hstored hopen

/-- What happens when a migration goes on: it has no answer, or it has one. -/
theorem goOn_cases (s : SocketState ρ) (migration : Nat) :
    (∀ p schema again data, s.migrations[migration]? = some (.waiting p schema again) →
        s.prompts[p]? ≠ some (.resolved data)) ∧
        (goOn s migration = s ∨
          ∃ p schema again, s.migrations[migration]? = some (.waiting p schema again) ∧
            s.prompts[p]? = some .rejected ∧
            goOn s migration = { s with migrations := s.migrations.set migration .ended }) ∨
      ∃ p schema again data, s.migrations[migration]? = some (.waiting p schema again) ∧
        s.prompts[p]? = some (.resolved data) ∧
        (fails schema data = true ∧
            goOn s migration = (s.answered again).ask migration schema true ∨
          fails schema data = false ∧
            goOn s migration =
              { s.answered again with migrations := s.migrations.set migration .running }) := by
  unfold goOn
  cases hwaits : s.migrations[migration]? with
  | none => exact .inl ⟨by simp, .inl rfl⟩
  | some t =>
    cases t with
    | running | ended => exact .inl ⟨by simp, .inl rfl⟩
    | waiting p schema again =>
      dsimp only
      cases hp : s.prompts[p]? with
      | none => exact .inl ⟨fun _ _ _ _ heq => by cases heq; simp [hp], .inl rfl⟩
      | some r =>
        cases r with
        | pending => exact .inl ⟨fun _ _ _ _ heq => by cases heq; simp [hp], .inl rfl⟩
        | rejected =>
          exact .inl ⟨fun _ _ _ _ heq => by cases heq; simp [hp],
            .inr ⟨p, schema, again, rfl, hp, rfl⟩⟩
        | resolved data =>
          refine .inr ⟨p, schema, again, data, rfl, hp, ?_⟩
          cases hfails : fails schema data with
          | true => exact .inl ⟨rfl, if_pos hfails⟩
          | false => exact .inr ⟨rfl, if_neg (by simp [hfails])⟩

theorem Linked.answered {again : Bool} (h : Linked s) : Linked (s.answered again) := by
  unfold SocketState.answered
  split
  · exact h
  · exact ⟨h.unconnected, h.validating, h.waiting⟩

theorem Linked.goOn {migration : Nat} (h : Linked s) : Linked (goOn s migration) := by
  rcases goOn_cases s migration with
    ⟨-, heq | ⟨_, _, _, -, -, heq⟩⟩ | ⟨p, schema, again, data, hwaits, -, ⟨-, heq⟩ | ⟨-, heq⟩⟩
  · rwa [heq]
  · rw [heq]
    exact h.set (by simp)
  · rw [heq]
    refine h.answered.ask fun hopen => ?_
    rw [answered_stored]
    rw [answered_connection] at hopen
    exact h.waiting p schema again (List.mem_of_getElem? hwaits) hopen
  · rw [heq, ← answered_migrations]
    exact h.answered.set (by simp)

theorem linked_step (e : SocketEvent ρ) (h : Linked s) : Linked (step s e) := by
  cases e with
  | connect =>
    show Linked (handleConnection s)
    unfold handleConnection
    split
    · rename_i hnone
      obtain ⟨hstored, -, hmigrations⟩ := h.unconnected hnone
      exact ⟨by simp, fun _ => hstored, by simp [hmigrations]⟩
    · exact h
  | validated isValid =>
    show Linked (MigrationSocket.validated s isValid)
    unfold MigrationSocket.validated
    split
    · rename_i hvalidating
      have hnone : s.connection ≠ .none := fun hnone =>
        absurd hvalidating (by simp [(h.unconnected hnone).2.1])
      split
      · exact ⟨fun hc => absurd hc hnone, by simp, fun _ _ _ _ _ => rfl⟩
      · exact ⟨fun hc => absurd hc hnone, by simp, h.waiting⟩
    · exact h
  | disconnect =>
    show Linked (handleDisconnect s)
    unfold handleDisconnect
    split
    · exact ⟨by simp, fun _ => rfl, by simp⟩
    · exact h
  | migrate =>
    show Linked (MigrationSocket.migrate s)
    unfold MigrationSocket.migrate
    split
    · rename_i hopen
      refine ⟨fun hc => absurd (hopen.symm.trans hc) (by simp), h.validating, ?_⟩
      intro p schema again hmem hopen
      rcases List.mem_append.mp hmem with hmem | hmem
      · exact h.waiting p schema again hmem hopen
      · exact absurd (List.mem_singleton.mp hmem) (by simp)
    · exact h
  | promptResponse data =>
    show Linked (MigrationSocket.promptResponse s data)
    unfold MigrationSocket.promptResponse
    split
    · split
      · exact ⟨h.unconnected, h.validating, h.waiting⟩
      · exact h
    · exact h
  | initPrompt migration schema =>
    show Linked (MigrationSocket.initPrompt s migration schema)
    unfold MigrationSocket.initPrompt
    split
    · split
      · rename_i hstored
        exact h.ask fun _ => hstored
      · exact h.set (by simp)
    · exact h
  | goOn migration => exact h.goOn
  | finish migration =>
    show Linked (MigrationSocket.finish s migration)
    unfold MigrationSocket.finish
    split
    · exact h.set (by simp)
    · exact h

/-! ### What a step does to the property -/

theorem NoOrphan.settled (h : NoOrphan s) (hcurrent : s.current = none) : ∀ p, ¬s.Unsettled p :=
  fun p hp => absurd ((h.current p hp).symm.trans hcurrent) (by simp)

theorem current_of_not_stored (h : s.stored = false) : s.current = none := by
  simp [SocketState.current, h]

theorem NoOrphan.congr {s' : SocketState ρ} (h : NoOrphan s) (hprompts : s'.prompts = s.prompts)
    (hconnection : s'.connection = s.connection) (hcurrent : s'.current = s.current) :
    NoOrphan s' := by
  rw [noOrphan_iff] at h ⊢
  unfold Unsettled at h ⊢
  rw [hprompts, hconnection, hcurrent]
  exact h

/-- A response and a disconnect make no prompt. -/
theorem unsettled_of_promptResponse {data : ρ} (h : (promptResponse s data).Unsettled p) :
    s.Unsettled p := by
  unfold promptResponse at h
  split at h
  · split at h
    · exact ((unsettled_settle (by simp)).mp h).1
    · exact h
  · exact h

theorem unsettled_of_handleDisconnect (h : (handleDisconnect s).Unsettled p) : s.Unsettled p := by
  unfold handleDisconnect at h
  split at h
  · change (match s.stored, s.pendingPrompt with
      | true, some p => s.settle p .rejected
      | _, _ => s.prompts)[p]? = _ at h
    split at h
    · exact ((unsettled_settle (by simp)).mp h).1
    · exact h
  · exact h

theorem undisturbed_of_not {e : SocketEvent ρ} (hasks : ¬asks s e) (hfrees : ¬frees s e) :
    Undisturbed s e where
  connected h := absurd h hasks
  alone h := h.elim (absurd · hasks) (absurd · hfrees)

theorem noOrphan_initPrompt {migration : Nat} {schema : Option (ρ → Bool)} (h : NoOrphan s) :
    NoOrphan (initPrompt s migration schema) ↔ Undisturbed s (.initPrompt migration schema) := by
  by_cases hasks : asks s (.initPrompt migration schema)
  · obtain ⟨hruns, hstored⟩ := hasks
    have hstep : initPrompt s migration schema = s.ask migration schema false := by
      simp [initPrompt, hruns, hstored]
    rw [hstep, noOrphan_ask]
    exact ⟨fun h => ⟨fun _ => h.1, fun _ => h.2.2⟩,
      fun h => ⟨h.connected ⟨hruns, hstored⟩, hstored, h.alone (.inl ⟨hruns, hstored⟩)⟩⟩
  · refine ⟨fun _ => undisturbed_of_not hasks fun h => h, fun _ => ?_⟩
    unfold initPrompt
    split
    · rename_i hruns
      rw [if_neg fun hstored => hasks ⟨hruns, hstored⟩]
      exact h.congr rfl rfl rfl
    · exact h

theorem asks_goOn {migration : Nat} {schema : Option (ρ → Bool)} {again : Bool} {data : ρ}
    (hwaits : s.migrations[migration]? = some (.waiting p schema again))
    (hp : s.prompts[p]? = some (.resolved data)) :
    asks s (.goOn migration) ↔ fails schema data = true := by
  constructor
  · rintro ⟨p', schema', again', data', hwaits', hp', hfails⟩
    cases hwaits.symm.trans hwaits'
    cases hp.symm.trans hp'
    exact hfails
  · exact fun hfails => ⟨p, schema, again, data, hwaits, hp, hfails⟩

theorem frees_goOn {migration : Nat} {schema : Option (ρ → Bool)} {again : Bool} {data : ρ}
    (hwaits : s.migrations[migration]? = some (.waiting p schema again))
    (hp : s.prompts[p]? = some (.resolved data)) :
    frees s (.goOn migration) ↔ again = false := by
  constructor
  · rintro ⟨p', schema', data', hwaits', -⟩
    cases hwaits.symm.trans hwaits'
    rfl
  · rintro rfl
    exact ⟨p, schema, data, hwaits, hp⟩

theorem noOrphan_goOn {migration : Nat} (hlinked : Linked s) (h : NoOrphan s) :
    NoOrphan (goOn s migration) ↔ Undisturbed s (.goOn migration) := by
  rcases goOn_cases s migration with
    ⟨hno, heq⟩ | ⟨p, schema, again, data, hwaits, hp, ⟨hfails, heq⟩ | ⟨hfits, heq⟩⟩
  · refine ⟨fun _ => undisturbed_of_not ?_ ?_, fun _ => ?_⟩
    · rintro ⟨p, schema, again, data, hwaits, hp, -⟩
      exact hno p schema again data hwaits hp
    · rintro ⟨p, schema, data, hwaits, hp⟩
      exact hno p schema false data hwaits hp
    · rcases heq with heq | ⟨_, _, _, -, -, heq⟩
      · rwa [heq]
      · rw [heq]
        exact h.congr rfl rfl rfl
  · have hasks := (asks_goOn hwaits hp).mpr hfails
    rw [heq, noOrphan_ask]
    unfold Unsettled
    rw [answered_connection, answered_stored, answered_prompts]
    exact ⟨fun h => ⟨fun _ => h.1, fun _ => h.2.2⟩, fun h => ⟨h.connected hasks,
      hlinked.waiting p schema again (List.mem_of_getElem? hwaits) (h.connected hasks),
      h.alone (.inl hasks)⟩⟩
  · have hasks : ¬asks s (.goOn migration) := by
      rw [asks_goOn hwaits hp, hfits]
      simp
    rw [heq]
    cases again with
    | true =>
      have hfrees : ¬frees s (.goOn migration) := by
        rw [frees_goOn hwaits hp]
        simp
      exact ⟨fun _ => undisturbed_of_not hasks hfrees,
        fun _ => h.congr rfl rfl rfl⟩
    | false =>
      have hfrees := (frees_goOn hwaits hp).mpr rfl
      constructor
      · intro hstep
        refine ⟨fun h => absurd h hasks, fun _ => ?_⟩
        apply hstep.settled
        simp [SocketState.current, SocketState.answered]
      · intro h
        exact noOrphan_of_settled (h.alone (.inr hfrees))

/-- **A step keeps every prompt in reach exactly if it is undisturbed.** -/
theorem noOrphan_step_iff (e : SocketEvent ρ) (hlinked : Linked s) (h : NoOrphan s) :
    NoOrphan (step s e) ↔ Undisturbed s e := by
  cases e with
  | connect =>
    refine ⟨fun _ => undisturbed_of_not (fun h => h) fun h => h, fun _ => ?_⟩
    show NoOrphan (handleConnection s)
    unfold handleConnection
    split
    · rename_i hnone
      exact noOrphan_of_settled
        (h.settled (current_of_not_stored (hlinked.unconnected hnone).1))
    · exact h
  | validated isValid =>
    refine ⟨fun _ => undisturbed_of_not (fun h => h) fun h => h, fun _ => ?_⟩
    show NoOrphan (MigrationSocket.validated s isValid)
    unfold MigrationSocket.validated
    split
    · rename_i hvalidating
      have hsettled := h.settled (current_of_not_stored (hlinked.validating hvalidating))
      split <;> exact noOrphan_of_settled hsettled
    · exact h
  | disconnect =>
    refine ⟨fun _ => undisturbed_of_not (fun h => h) fun h => h, fun _ => ?_⟩
    exact noOrphan_of_settled fun p hp => h.disconnect p (unsettled_of_handleDisconnect hp) hp
  | migrate =>
    refine ⟨fun _ => undisturbed_of_not (fun h => h) fun h => h, fun _ => ?_⟩
    show NoOrphan (MigrationSocket.migrate s)
    unfold MigrationSocket.migrate
    split
    · exact h.congr rfl rfl rfl
    · exact h
  | promptResponse data =>
    refine ⟨fun _ => undisturbed_of_not (fun h => h) fun h => h, fun _ => ?_⟩
    exact noOrphan_of_settled fun p hp => h.response p data (unsettled_of_promptResponse hp) hp
  | initPrompt migration schema => exact noOrphan_initPrompt h
  | goOn migration => exact noOrphan_goOn hlinked h
  | finish migration =>
    refine ⟨fun _ => undisturbed_of_not (fun h => h) fun h => h, fun _ => ?_⟩
    show NoOrphan (MigrationSocket.finish s migration)
    unfold MigrationSocket.finish
    split
    · exact h.congr rfl rfl rfl
    · exact h

/-! ## 6. Runs -/

/-- A response settles the pending prompt, if any. -/
theorem eq_of_settles {data : ρ} (hp : Settles s (.promptResponse data) p)
    (hq : Settles s (.promptResponse data) q) : p = q := by
  have hpending : ∀ r, Settles s (.promptResponse data) r → s.pendingPrompt = some r := by
    rintro r ⟨hr, hsettled⟩
    change ¬(promptResponse s data).Unsettled r at hsettled
    unfold promptResponse at hsettled
    split at hsettled
    · split at hsettled
      · rename_i p hcurrent
        by_cases hsame : r = p
        · rw [hcurrent, hsame]
        · exact absurd ((unsettled_settle (by simp)).mpr ⟨hr, hsame⟩) hsettled
      · exact absurd hr hsettled
    · exact absurd hr hsettled
  exact Option.some.inj ((hpending p hp).symm.trans (hpending q hq))

theorem noOrphan_reached_iff (events : List (SocketEvent ρ)) :
    (∀ s, Reached step {} events s → NoOrphan s) ↔
      ∀ s e, Fired step {} events s e → Undisturbed s e :=
  reached_iff_fired linked_start
    (noOrphan_of_settled (s := ({} : SocketState ρ)) (by simp [Unsettled]))
    (fun _ e _ hlinked => linked_step e hlinked)
    (fun _ e _ hlinked h => noOrphan_step_iff e hlinked h)

/-- **No prompt is orphaned exactly if no migration asks or frees the slot while another waits, and
    none asks a socket that is not there.** -/
theorem promptsKept_iff (events : List (SocketEvent ρ)) :
    PromptsKept events ↔ ∀ s e, Fired step {} events s e → Undisturbed s e := by
  rw [← noOrphan_reached_iff]
  exact ⟨fun h => h.noOrphan, fun h => ⟨h, fun _ _ _ _ _ => eq_of_settles⟩⟩

/-- Two migrations on one socket, and each asks. -/
def twoMigrations : List (SocketEvent String) :=
  [.connect, .validated true, .migrate, .migrate, .initPrompt 0 none, .initPrompt 1 none]

/-- The second takes the slot, and the first waits for good. -/
theorem twoMigrations_orphan : ¬PromptsKept twoMigrations := by
  intro h
  have hend : Reached step ({} : SocketState String) twoMigrations _ := reached_end _ _
  have hlost := (h.noOrphan _ hend).current 0 rfl
  exact absurd hlost (by decide)

/-! ## 7. One migration at a time -/

/-- Each migration starts when those before have ended. The socket is not disconnected while the
    token is validated, or a migration is about to go on. -/
def OneAtATime (s : SocketState ρ) : SocketEvent ρ → Prop
  | .migrate => ∀ t ∈ s.migrations, t = .ended
  | .disconnect => s.validating = false ∧
      ∀ p schema again, .waiting p schema again ∈ s.migrations → s.Unsettled p
  | _ => True

structure Serial (s : SocketState ρ) : Prop where
  one : ∀ (m m' : Nat) (t t' : MigrationTask ρ), s.migrations[m]? = some t →
    s.migrations[m']? = some t' → t ≠ .ended → t' ≠ .ended → m = m'
  awaited : ∀ p, s.Unsettled p →
    ∃ (m : Nat) (schema : _) (again : Bool), s.migrations[m]? = some (.waiting p schema again)
  stored : s.stored = true → s.connection = .open
  validating : s.validating = true → s.connection = .open
  answered : ∀ p schema again data, .waiting p schema again ∈ s.migrations →
    s.prompts[p]? = some (.resolved data) → s.connection = .open

theorem serial_start : Serial ({} : SocketState ρ) where
  one _ _ _ _ h := absurd h (by simp)
  awaited _ h := absurd h (by simp [Unsettled])
  stored h := absurd h (by simp)
  validating h := absurd h (by simp)
  answered _ _ _ _ h := absurd h List.not_mem_nil

section

variable {migration : Nat} {t t' : MigrationTask ρ}

/-- A migration that waits for nothing unsettled leaves the others as they are. -/
theorem Serial.alone (h : Serial s) (ht : s.migrations[migration]? = some t) (hlive : t ≠ .ended)
    (hwaits : ∀ p schema again, t = .waiting p schema again → ¬s.Unsettled p) :
    ∀ p, ¬s.Unsettled p := by
  intro p hp
  obtain ⟨m, schema, again, hm⟩ := h.awaited p hp
  obtain rfl := h.one _ _ _ _ ht hm hlive (by simp)
  exact hwaits p schema again (Option.some.inj (ht.symm.trans hm)) hp

theorem one_set (h : Serial s) (ht : s.migrations[migration]? = some t) (hlive : t ≠ .ended) :
    ∀ (m m' : Nat) (r r' : MigrationTask ρ), (s.migrations.set migration t')[m]? = some r →
      (s.migrations.set migration t')[m']? = some r' → r ≠ .ended → r' ≠ .ended → m = m' := by
  -- who is live was live before
  have hbefore : ∀ (m : Nat) (r : MigrationTask ρ), (s.migrations.set migration t')[m]? = some r →
      r ≠ .ended → ∃ r₀, s.migrations[m]? = some r₀ ∧ r₀ ≠ .ended := by
    intro m r hr hne
    by_cases hsame : migration = m
    · exact ⟨t, hsame ▸ ht, hlive⟩
    · rw [List.getElem?_set_ne hsame] at hr
      exact ⟨r, hr, hne⟩
  intro m m' r r' hr hr' hne hne'
  obtain ⟨r₀, hr₀, hlive₀⟩ := hbefore m r hr hne
  obtain ⟨r₁, hr₁, hlive₁⟩ := hbefore m' r' hr' hne'
  exact h.one m m' r₀ r₁ hr₀ hr₁ hlive₀ hlive₁

theorem Serial.set (h : Serial s) (ht : s.migrations[migration]? = some t) (hlive : t ≠ .ended)
    (hwaits : ∀ p schema again, t = .waiting p schema again → ¬s.Unsettled p)
    (ht' : ∀ p schema again, t' ≠ .waiting p schema again) :
    Serial { s with migrations := s.migrations.set migration t' } where
  one := one_set h ht hlive
  awaited p hp := absurd hp (h.alone ht hlive hwaits p)
  stored := h.stored
  validating := h.validating
  answered p schema again data hmem hp := by
    rcases List.mem_or_eq_of_mem_set hmem with hmem | heq
    · exact h.answered p schema again data hmem hp
    · exact absurd heq.symm (ht' p schema again)

theorem Serial.ask {schema : Option (ρ → Bool)} {again : Bool} (h : Serial s)
    (ht : s.migrations[migration]? = some t) (hlive : t ≠ .ended)
    (hwaits : ∀ p schema again, t = .waiting p schema again → ¬s.Unsettled p)
    (hopen : s.connection = .open) : Serial (s.ask migration schema again) where
  one := one_set h ht hlive
  awaited p hp := by
    rcases unsettled_ask.mp hp with hp | rfl
    · exact absurd hp (h.alone ht hlive hwaits p)
    · refine ⟨migration, schema, again, ?_⟩
      exact List.getElem?_set_self (List.getElem?_eq_some_iff.mp ht).1
  stored := h.stored
  validating := h.validating
  answered _ _ _ _ _ _ := hopen

end

theorem Serial.freed {again : Bool} (h : Serial s) : Serial (s.answered again) := by
  cases again with
  | true => exact h
  | false => exact ⟨h.one, h.awaited, h.stored, h.validating, h.answered⟩

theorem Serial.undisturbed {e : SocketEvent ρ} (h : Serial s) : Undisturbed s e := by
  cases e with
  | initPrompt migration schema =>
    refine ⟨fun hasks => h.stored hasks.2, fun hasks => ?_⟩
    obtain ⟨hruns, -⟩ := hasks.resolve_right fun h => h
    exact h.alone hruns (by simp) (by simp)
  | goOn migration =>
    refine ⟨?_, fun hgoes => ?_⟩
    · rintro ⟨p, schema, again, data, hwaits, hp, -⟩
      exact h.answered p schema again data (List.mem_of_getElem? hwaits) hp
    · have hanswer : ∃ p schema again data,
          s.migrations[migration]? = some (.waiting p schema again) ∧
            s.prompts[p]? = some (.resolved data) := by
        rcases hgoes with ⟨p, schema, again, data, hwaits, hp, -⟩ | ⟨p, schema, data, hwaits, hp⟩
        · exact ⟨p, schema, again, data, hwaits, hp⟩
        · exact ⟨p, schema, false, data, hwaits, hp⟩
      obtain ⟨p, schema, again, data, hwaits, hp⟩ := hanswer
      refine h.alone hwaits (by simp) fun q _ _ heq hq => ?_
      cases heq
      exact absurd (hp.symm.trans hq) (by simp)
  | connect | validated | disconnect | migrate | promptResponse | finish =>
    exact undisturbed_of_not (fun h => h) fun h => h

theorem serial_handleDisconnect (h : Serial s) (hvalidating : s.validating = false)
    (hunsettled : ∀ p schema again, .waiting p schema again ∈ s.migrations → s.Unsettled p) :
    Serial (handleDisconnect s) := by
  by_cases hopen : s.connection = .open
  · have hawaited := fun p (hp : (handleDisconnect s).Unsettled p) =>
      h.awaited p (unsettled_of_handleDisconnect hp)
    unfold handleDisconnect at hawaited ⊢
    rw [if_pos hopen] at hawaited ⊢
    refine ⟨h.one, hawaited, by simp, fun hc => absurd (hvalidating.symm.trans hc) (by simp), ?_⟩
    intro p schema again data hmem hp
    -- it was not settled before, and it is rejected if at all
    have hwas := hunsettled p schema again hmem
    dsimp only at hp
    split at hp
    · rename_i q _ _
      rcases getElem?_settle s q p .rejected with ⟨-, heq⟩ | ⟨-, heq⟩
      · exact absurd (heq.symm.trans hp) (by simp)
      · exact absurd (hwas.symm.trans (heq.symm.trans hp)) (by simp)
    · exact absurd (hwas.symm.trans hp) (by simp)
  · unfold handleDisconnect
    rwa [if_neg hopen]

theorem serial_migrate (h : Serial s) (hone : ∀ t ∈ s.migrations, t = .ended) :
    Serial (migrate s) := by
  unfold migrate
  split
  · have hlast : ∀ (m : Nat) (t : MigrationTask ρ), (s.migrations ++ [.running])[m]? = some t →
        t ≠ .ended → m = s.migrations.length := by
      intro m t ht hlive
      rcases Nat.lt_trichotomy m s.migrations.length with hlt | heq | hlt
      · rw [List.getElem?_append_left hlt] at ht
        exact absurd (hone t (List.mem_of_getElem? ht)) hlive
      · exact heq
      · rw [List.getElem?_eq_none (by simp; omega)] at ht
        exact absurd ht (by simp)
    refine ⟨fun m m' t t' ht ht' hlive hlive' => ?_, fun p hp => ?_, h.stored, h.validating, ?_⟩
    · rw [hlast m t ht hlive, hlast m' t' ht' hlive']
    · obtain ⟨m, schema, again, hm⟩ := h.awaited p hp
      exact absurd (hone _ (List.mem_of_getElem? hm)) (by simp)
    · intro p schema again data hmem
      rcases List.mem_append.mp hmem with hmem | hmem
      · exact absurd (hone _ hmem) (by simp)
      · exact absurd (List.mem_singleton.mp hmem) (by simp)
  · exact h

theorem serial_goOn {migration : Nat} (h : Serial s) : Serial (goOn s migration) := by
  -- what it waited for is settled
  have hwaited : ∀ {p schema again r}, s.prompts[p]? = some r → r ≠ .pending →
      ∀ q schema' again', (.waiting p schema again : MigrationTask ρ) = .waiting q schema' again' →
        ¬s.Unsettled q := by
    intro p schema again r hp hr q _ _ heq hq
    cases heq
    exact hr (Option.some.inj (hp.symm.trans hq))
  rcases goOn_cases s migration with
    ⟨-, heq | ⟨p, schema, again, hwaits, hp, heq⟩⟩ |
    ⟨p, schema, again, data, hwaits, hp, ⟨-, heq⟩ | ⟨-, heq⟩⟩
  · rwa [heq]
  · rw [heq]
    exact h.set hwaits (by simp) (hwaited hp (by simp)) (by simp)
  · have hopen := h.answered p schema again data (List.mem_of_getElem? hwaits) hp
    rw [heq]
    apply h.freed.ask (t := .waiting p schema again)
    · rwa [answered_migrations]
    · simp
    · unfold Unsettled
      rw [answered_prompts]
      exact hwaited hp (by simp)
    · rwa [answered_connection]
  · rw [heq, ← answered_migrations s again]
    apply h.freed.set (t := .waiting p schema again)
    · rwa [answered_migrations]
    · simp
    · unfold Unsettled
      rw [answered_prompts]
      exact hwaited hp (by simp)
    · simp

theorem serial_step (e : SocketEvent ρ) (h : Serial s) (hone : OneAtATime s e) :
    Serial (step s e) := by
  cases e with
  | connect =>
    show Serial (handleConnection s)
    unfold handleConnection
    split
    · exact ⟨h.one, h.awaited, fun _ => rfl, fun _ => rfl, fun _ _ _ _ _ _ => rfl⟩
    · exact h
  | validated isValid =>
    show Serial (MigrationSocket.validated s isValid)
    unfold MigrationSocket.validated
    split
    · rename_i hvalidating
      have hopen := h.validating hvalidating
      split
      · exact ⟨h.one, h.awaited, fun _ => hopen, fun _ => hopen, h.answered⟩
      · exact ⟨h.one, h.awaited, h.stored, fun _ => hopen, h.answered⟩
    · exact h
  | disconnect => exact serial_handleDisconnect h hone.1 hone.2
  | migrate => exact serial_migrate h hone
  | promptResponse data =>
    have hawaited := fun p (hp : (MigrationSocket.promptResponse s data).Unsettled p) =>
      h.awaited p (unsettled_of_promptResponse hp)
    show Serial (MigrationSocket.promptResponse s data)
    unfold MigrationSocket.promptResponse at hawaited ⊢
    split at hawaited
    · rename_i hopen
      rw [if_pos hopen]
      split at hawaited
      · exact ⟨h.one, hawaited, h.stored, h.validating, fun _ _ _ _ _ _ => hopen.1⟩
      · exact h
    · rename_i hclosed
      rwa [if_neg hclosed]
  | initPrompt migration schema =>
    show Serial (MigrationSocket.initPrompt s migration schema)
    unfold MigrationSocket.initPrompt
    split
    · rename_i hruns
      split
      · rename_i hstored
        exact h.ask hruns (by simp) (by simp) (h.stored hstored)
      · exact h.set hruns (by simp) (by simp) (by simp)
    · exact h
  | goOn migration => exact serial_goOn h
  | finish migration =>
    show Serial (MigrationSocket.finish s migration)
    unfold MigrationSocket.finish
    split
    · rename_i hruns
      exact h.set hruns (by simp) (by simp) (by simp)
    · exact h

/-- **With one migration at a time, no prompt is orphaned.** -/
theorem promptsKept_of_oneAtATime {events : List (SocketEvent ρ)}
    (h : ∀ s e, Fired step {} events s e → OneAtATime s e) : PromptsKept events := by
  have hserial : ∀ s, Reached step {} events s → Serial s := fun s hs =>
    hs.invariant_fired serial_start fun u e he hu => serial_step e hu (h u e he)
  refine ⟨?_, fun _ _ _ _ _ => eq_of_settles⟩
  exact (noOrphan_reached_iff events).mpr fun s e he => (hserial s he.reached).undisturbed

end MigrationSocket

end ShieldApi
