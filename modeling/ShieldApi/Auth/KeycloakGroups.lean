import Mathlib.Logic.Function.Basic
import ShieldApi.Lib.Settled

/-!
# Changing the groups of a Keycloak user

`addUserToGroupsTransactional` and `removeUserFromGroupsTransactional` of
`auth/keycloak/keycloak.service.ts`. Keycloak has no transactions. The two methods make one: where a
call fails, those that did not are undone, each by its opposite.

**A call that changed nothing is undone as well** (`groupsTransactional_restores_iff`). Adding a user to a
group they are in succeeds, and its rollback takes them out of it; removing them from a group they
are not in succeeds, and its rollback puts them there.
-/

set_option autoImplicit false

namespace ShieldApi

open Effect Settling

/-- The groups each user is in, as Keycloak has them. -/
abbrev Memberships := String → Finset String

inductive GroupCall
  | addToGroup | delFromGroup
  deriving DecidableEq, Repr

namespace GroupCall

/-- What a call does to the groups of its user, where it succeeds. -/
def change : GroupCall → String → Finset String → Finset String
  | addToGroup, groupId, groups => insert groupId groups
  | delFromGroup, groupId, groups => groups.erase groupId

def apply (call : GroupCall) (id groupId : String) (m : Memberships) : Memberships :=
  Function.update m id (call.change groupId (m id))

/-- What a batch does. -/
def changeAll : GroupCall → List String → Finset String → Finset String
  | addToGroup, groupIds, groups => groups ∪ groupIds.toFinset
  | delFromGroup, groupIds, groups => groups \ groupIds.toFinset

end GroupCall

/-- What the methods throw. The errors of the calls come from Keycloak. -/
structure GroupsError (ε : Type) where
  message : String
  failures : List (String × ε)
  rollbackFailures : List (String × ε)
  userId : String
  groupIds : List String
  deriving DecidableEq, Repr

namespace KeycloakService

variable {ε : Type}

/-- The lines of the message; `doing` is what was being done to whom. -/
def errorMessage (doing : String) (failures rollbackFailures : List (String × ε))
    (successes : List String) : String :=
  "\n".intercalate
    [s!"Transaction failed: {failures.length} operations failed while {doing} groups.",
     s!"Failed operations: " ++ ", ".intercalate (failures.map (·.1)),
     if rollbackFailures.length > 0 then
       s!"CRITICAL: Rollback failed for {rollbackFailures.length} groups: " ++
         ", ".intercalate (rollbackFailures.map (·.1)) ++ ". Manual intervention required!"
     else s!"Successfully rolled back {successes.length} operations."]

/-- The body of both methods: the calls, and those that undo them. How Keycloak answers is in
    `attempts` and `rollbacks`. -/
def groupsTransactional (call undo : GroupCall) (doing : String) (userId : String)
    (groupIds : List String) (attempts rollbacks : Settling ε) :
    Effect Memberships (GroupsError ε) Unit :=
  if groupIds.length = 0 then pure () else do
    let results ← allSettled (groupIds.map (call.apply userId)) attempts
    let successes := fulfilled groupIds results
    let failures := rejected groupIds results
    if failures.length = 0 then pure () else do
      let rollbackResults ← allSettled (successes.map (undo.apply userId)) rollbacks
      let rollbackFailures := rejected successes rollbackResults
      raise
        { message := errorMessage doing failures rollbackFailures successes
          failures := failures
          rollbackFailures := rollbackFailures
          userId := userId
          groupIds := groupIds }

def addUserToGroupsTransactional (userId : String) (groupIds : List String)
    (attempts rollbacks : Settling ε) : Effect Memberships (GroupsError ε) Unit :=
  groupsTransactional .addToGroup .delFromGroup s!"adding user {userId} to" userId groupIds
    attempts rollbacks

def removeUserFromGroupsTransactional (userId : String) (groupIds : List String)
    (attempts rollbacks : Settling ε) : Effect Memberships (GroupsError ε) Unit :=
  groupsTransactional .delFromGroup .addToGroup s!"removing user {userId} from" userId groupIds
    attempts rollbacks

/-- The groups whose call succeeds. These are the calls that are rolled back. -/
def succeeded (groupIds : List String) (attempts : Settling ε) : List String :=
  fulfilled groupIds (attempts.results groupIds.length)

/-- What a method promises its caller: where it throws, and no rollback call failed, the user is in
    the groups they were in. -/
def Restores (x : Effect Memberships (GroupsError ε) Unit) (userId : String)
    (successes : List String) (rollbacks : Settling ε) (m : Memberships) : Prop :=
  (∃ e, (x.run m).1 = .error e) → rollbacks.AllFulfilled successes.length →
    x.after m userId = m userId

/-! ## 1. A batch of calls -/

theorem foldl_apply (call : GroupCall) (id : String) (groupIds : List String) (m : Memberships) :
    groupIds.foldl (fun m g => call.apply id g m) m
      = Function.update m id (groupIds.foldl (fun gs g => call.change g gs) (m id)) := by
  induction groupIds generalizing m with
  | nil => exact (Function.update_eq_self id m).symm
  | cons g gs ih =>
    rw [List.foldl_cons, ih, GroupCall.apply, Function.update_self, Function.update_idem]
    rfl

theorem foldl_change (call : GroupCall) (groupIds : List String) (groups : Finset String) :
    groupIds.foldl (fun gs g => call.change g gs) groups = call.changeAll groupIds groups := by
  cases call with
  | addToGroup => exact foldl_insert groupIds groups
  | delFromGroup => exact foldl_erase groupIds groups

theorem changeAll_perm (call : GroupCall) {gs hs : List String} (h : gs.Perm hs) :
    call.changeAll gs = call.changeAll hs := by
  funext groups
  cases call with
  | addToGroup => exact congrArg (groups ∪ ·) (List.toFinset_eq_of_perm gs hs h)
  | delFromGroup => exact congrArg (groups \ ·) (List.toFinset_eq_of_perm gs hs h)

/-- Whatever the order, a batch changes the groups of its user by the calls that succeed, and no
    other user's. -/
theorem takeEffect_apply (call : GroupCall) (userId : String) (groupIds : List String)
    (p : Settling ε) (m : Memberships) :
    p.takeEffect (groupIds.map (call.apply userId)) m = Function.update m userId
      (call.changeAll (fulfilled groupIds (p.results groupIds.length)) (m userId)) := by
  obtain ⟨order, hperm, heq⟩ := p.takeEffect_eq_foldl (call.apply userId) groupIds m
  rw [heq, foldl_apply, foldl_change, changeAll_perm call hperm]

/-! ## 2. A transaction -/

section

variable {call undo : GroupCall} {doing userId : String} {groupIds : List String}
  {attempts rollbacks : Settling ε} {m : Memberships}

theorem run_groupsTransactional_of_fulfilled (h : attempts.AllFulfilled groupIds.length) :
    ((groupsTransactional call undo doing userId groupIds attempts rollbacks).run m).1 = .ok () := by
  unfold groupsTransactional
  split
  · rfl
  · rw [run_bind_ok (run_allSettled ..), List.length_map,
      if_pos (List.length_eq_zero_iff.2 (rejected_eq_nil_iff.2 h))]
    rfl

/-- Where a call fails, the method throws, and what it leaves is the calls that succeeded and
    the rollback calls that did. -/
theorem run_groupsTransactional_of_rejected (call undo : GroupCall) (doing : String)
    (rollbacks : Settling ε) (m : Memberships)
    (h : ¬ attempts.AllFulfilled groupIds.length) :
    let successes := succeeded groupIds attempts
    (∃ e, ((groupsTransactional call undo doing userId groupIds attempts rollbacks).run m).1
        = .error e ∧ e.failures = rejected groupIds (attempts.results groupIds.length) ∧
        e.rollbackFailures = rejected successes (rollbacks.results successes.length)) ∧
      (groupsTransactional call undo doing userId groupIds attempts rollbacks).after m
        = Function.update m userId
            (undo.changeAll (fulfilled successes (rollbacks.results successes.length))
              (call.changeAll successes (m userId))) := by
  intro successes
  have hne : groupIds.length ≠ 0 := fun h0 => h fun i hi => absurd hi (by omega)
  have hrej : rejected groupIds (attempts.results groupIds.length) ≠ [] :=
    fun h0 => h (rejected_eq_nil_iff.1 h0)
  have hrun : ∃ e, (groupsTransactional call undo doing userId groupIds attempts rollbacks).run m
      = (.error e, rollbacks.takeEffect (successes.map (undo.apply userId))
          (attempts.takeEffect (groupIds.map (call.apply userId)) m)) ∧
      e.failures = rejected groupIds (attempts.results groupIds.length) ∧
      e.rollbackFailures = rejected successes (rollbacks.results successes.length) := by
    unfold groupsTransactional
    rw [if_neg hne, run_bind_ok (run_allSettled ..), List.length_map,
      if_neg (mt List.length_eq_zero_iff.1 hrej), run_bind_ok (run_allSettled ..),
      List.length_map]
    exact ⟨_, rfl, rfl, rfl⟩
  obtain ⟨e, hrun, hf, hr⟩ := hrun
  refine ⟨⟨e, congrArg Prod.fst hrun, hf, hr⟩, ?_⟩
  rw [after_of_run hrun, takeEffect_apply, takeEffect_apply, Function.update_self,
    Function.update_idem]
  rfl

theorem restores_iff :
    Restores (groupsTransactional call undo doing userId groupIds attempts rollbacks) userId
        (succeeded groupIds attempts) rollbacks m ↔
      attempts.AllFulfilled groupIds.length ∨
        ¬ rollbacks.AllFulfilled (succeeded groupIds attempts).length ∨
        undo.changeAll (succeeded groupIds attempts)
          (call.changeAll (succeeded groupIds attempts) (m userId)) = m userId := by
  by_cases hall : attempts.AllFulfilled groupIds.length
  · refine iff_of_true ?_ (.inl hall)
    rintro ⟨e, he⟩
    rw [run_groupsTransactional_of_fulfilled hall] at he
    cases he
  · obtain ⟨⟨e, he, -⟩, hafter⟩ :=
      run_groupsTransactional_of_rejected call undo doing rollbacks m hall
    rw [Restores, hafter, Function.update_self]
    constructor
    · intro h
      by_cases hback : rollbacks.AllFulfilled (succeeded groupIds attempts).length
      · have := h ⟨e, he⟩ hback
        rw [fulfilled_of_allFulfilled hback] at this
        exact .inr (.inr this)
      · exact .inr (.inl hback)
    · rintro (h | h | h) _ hback
      · exact absurd h hall
      · exact absurd hback h
      · rw [fulfilled_of_allFulfilled hback]
        exact h

end

theorem removed_after_added_eq_iff {successes : List String} {groups : Finset String} :
    GroupCall.delFromGroup.changeAll successes (GroupCall.addToGroup.changeAll successes groups)
        = groups ↔ ∀ g ∈ successes, g ∉ groups := by
  show (groups ∪ successes.toFinset) \ successes.toFinset = groups ↔ _
  rw [Finset.union_sdiff_right, Finset.sdiff_eq_self_iff_disjoint, Finset.disjoint_right]
  simp only [List.mem_toFinset]

theorem added_after_removed_eq_iff {successes : List String} {groups : Finset String} :
    GroupCall.addToGroup.changeAll successes (GroupCall.delFromGroup.changeAll successes groups)
        = groups ↔ ∀ g ∈ successes, g ∈ groups := by
  show (groups \ successes.toFinset) ∪ successes.toFinset = groups ↔ _
  rw [Finset.sdiff_union_self_eq_union, Finset.union_eq_left]
  simp only [Finset.subset_iff, List.mem_toFinset]

/-- A method restores the groups of its user exactly where each call that succeeded changed
    something: the user was in none of the groups they were added to, or in all of those they were
    removed from. -/
theorem groupsTransactional_restores_iff (userId : String) (groupIds : List String)
    (attempts rollbacks : Settling ε) (m : Memberships) :
    (Restores (addUserToGroupsTransactional userId groupIds attempts rollbacks) userId
        (succeeded groupIds attempts) rollbacks m ↔
      attempts.AllFulfilled groupIds.length ∨
        ¬ rollbacks.AllFulfilled (succeeded groupIds attempts).length ∨
        ∀ g ∈ succeeded groupIds attempts, g ∉ m userId) ∧
    (Restores (removeUserFromGroupsTransactional userId groupIds attempts rollbacks) userId
        (succeeded groupIds attempts) rollbacks m ↔
      attempts.AllFulfilled groupIds.length ∨
        ¬ rollbacks.AllFulfilled (succeeded groupIds attempts).length ∨
        ∀ g ∈ succeeded groupIds attempts, g ∈ m userId) := by
  constructor
  · rw [← removed_after_added_eq_iff]
    exact restores_iff
  · rw [← added_after_removed_eq_iff]
    exact restores_iff

/-- Calls that take effect in the order of their indices; the one with index `i` fails. -/
def failingAt (i : Nat) : Settling String where
  outcome j := if j = i then .error "Request failed with status code 404" else .ok ()
  order := List.range
  order_perm _ := .refl _

/-- All of a batch of two are fulfilled. -/
def twoFulfilled : Settling String := failingAt 2

/-- A user in `g1` is added to `g1` and to `g2`, and the second fails: they are in no group. A user
    in no group is removed from both, and the second fails: they are in `g1`. -/
theorem groups_not_restored :
    ¬ Restores (addUserToGroupsTransactional "u" ["g1", "g2"] (failingAt 1) twoFulfilled) "u"
        (succeeded ["g1", "g2"] (failingAt 1)) twoFulfilled (fun _ => {"g1"}) ∧
    ¬ Restores (removeUserFromGroupsTransactional "u" ["g1", "g2"] (failingAt 1) twoFulfilled) "u"
        (succeeded ["g1", "g2"] (failingAt 1)) twoFulfilled (fun _ => ∅) := by
  constructor
  · intro h
    exact absurd (h ⟨_, rfl⟩ (by decide)) (by decide)
  · intro h
    exact absurd (h ⟨_, rfl⟩ (by decide)) (by decide)

end KeycloakService

end ShieldApi
