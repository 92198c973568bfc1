import ShieldApi.Schema

/-!
# Role scopes

`auth/utils/scope.ts`. A role's scope says **how much** data its holder may see, and the six
scopes form one chain. The source writes the chain as an array and compares two scopes by
their indices in it; so does this file, and what the rest of the development uses is that
the comparison is a linear order (`isScopeAtLeast_refl`, `_trans`, `_total`, `_antisymm`)
with `SYSTEM` at one end and `SELF` at the other.
-/

set_option autoImplicit false

namespace ShieldApi

/-- Scope hierarchy ordered from most to least permissive. -/
def scopeHierarchy : List RoleScope := [.system, .global, .client, .siteGroup, .site, .self]

/-- A scope is at least as permissive as the required scope. -/
def isScopeAtLeast (scope required : RoleScope) : Bool :=
  scopeHierarchy.idxOf scope ≤ scopeHierarchy.idxOf required

def getScopesAtLeast (scope : RoleScope) : List RoleScope :=
  scopeHierarchy.take (scopeHierarchy.idxOf scope + 1)

theorem isScopeAtLeast_iff {a b : RoleScope} :
    isScopeAtLeast a b = true ↔ scopeHierarchy.idxOf a ≤ scopeHierarchy.idxOf b := by
  unfold isScopeAtLeast
  exact decide_eq_true_iff

@[simp] theorem isScopeAtLeast_refl (a : RoleScope) : isScopeAtLeast a a = true :=
  isScopeAtLeast_iff.mpr (Nat.le_refl _)

theorem isScopeAtLeast_trans {a b c : RoleScope} (hab : isScopeAtLeast a b = true)
    (hbc : isScopeAtLeast b c = true) : isScopeAtLeast a c = true :=
  isScopeAtLeast_iff.mpr
    (Nat.le_trans (isScopeAtLeast_iff.mp hab) (isScopeAtLeast_iff.mp hbc))

theorem isScopeAtLeast_total (a b : RoleScope) :
    isScopeAtLeast a b = true ∨ isScopeAtLeast b a = true := by
  simp only [isScopeAtLeast_iff]
  exact Nat.le_total _ _

theorem isScopeAtLeast_antisymm {a b : RoleScope} (hab : isScopeAtLeast a b = true)
    (hba : isScopeAtLeast b a = true) : a = b := by
  revert hab hba
  cases a <;> cases b <;> decide

@[simp] theorem isScopeAtLeast_self (a : RoleScope) : isScopeAtLeast a .self = true := by
  cases a <;> rfl

theorem isScopeAtLeast_system {a : RoleScope} (h : isScopeAtLeast a .system = true) :
    a = .system :=
  isScopeAtLeast_antisymm h (by cases a <;> rfl)

theorem mem_getScopesAtLeast {a b : RoleScope} :
    a ∈ getScopesAtLeast b ↔ isScopeAtLeast a b = true := by
  cases a <;> cases b <;> decide

/-- The one list of scopes `getMostPermissiveRole` is ever asked for. -/
theorem mem_getScopesAtLeast_system {a : RoleScope} :
    a ∈ getScopesAtLeast .system ↔ a = .system := by
  rw [mem_getScopesAtLeast]
  exact ⟨isScopeAtLeast_system, fun h => h ▸ isScopeAtLeast_refl _⟩

end ShieldApi
