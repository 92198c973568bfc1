/-!
# Read-through caches

A store answers questions, and a cache in front of it keeps answers under the questions'
keys: a hit is answered from the cache, a miss from the store and then kept. Reading through
is the same as asking the store exactly as long as **every entry a question would hit is the
answer the store gives now** (`Coherent`). Three things can happen to that:

* a miss is kept (`Coherent.keep`): harmless, if the questions that share its key share its
  answer;
* the store changes and entries are dropped (`Coherent.write`): harmless, if the entries that
  stay are those of questions whose answers stay;
* a question is not asked any more (`Coherent.mono`).

Which questions still matter is a parameter (`asked`), so that an entry nobody reads again
need not be right.
-/

set_option autoImplicit false

namespace ShieldApi

namespace ReadThrough

variable {Q K V ε D : Type} (key : Q → K) (answer : Q → D → Except ε V)

/-- What reading through the cache returns. -/
def read (cache : K → Option V) (d : D) (q : Q) : Except ε V :=
  match cache (key q) with
  | some v => .ok v
  | none => answer q d

def Coherent (asked : Q → Prop) (cache : K → Option V) (d : D) : Prop :=
  ∀ q, asked q → ∀ v, cache (key q) = some v → answer q d = .ok v

variable {key answer} {asked asked' : Q → Prop} {cache cache' : K → Option V} {d d' : D}

theorem coherent_empty : Coherent key answer asked (fun _ => none) d :=
  fun _ _ _ h => absurd h (by simp)

/-- **Reading through a coherent cache is asking the store.** -/
theorem Coherent.read_eq (h : Coherent key answer asked cache d) {q : Q} (hq : asked q) :
    read key answer cache d q = answer q d := by
  unfold read
  cases hc : cache (key q) with
  | none => rfl
  | some v => exact (h q hq v hc).symm

/-- …and reading through one that is not is sometimes something else. -/
theorem coherent_iff_read_eq :
    Coherent key answer asked cache d ↔ ∀ q, asked q → read key answer cache d q = answer q d := by
  refine ⟨fun h q hq => h.read_eq hq, fun h q hq v hv => ?_⟩
  rw [← h q hq, read, hv]

theorem Coherent.mono (h : Coherent key answer asked cache d) (hasked : ∀ q, asked' q → asked q) :
    Coherent key answer asked' cache d :=
  fun q hq => h q (hasked q hq)

theorem Coherent.write (h : Coherent key answer asked cache d)
    (hcache : ∀ k v, cache' k = some v → cache k = some v)
    (hanswer : ∀ q, asked q → (cache' (key q)).isSome = true → answer q d' = answer q d) :
    Coherent key answer asked cache' d' := by
  intro q hq v hv
  rw [hanswer q hq (Option.isSome_of_eq_some hv)]
  exact h q hq v (hcache _ v hv)

/-- A write that drops the entries under some keys leaves the cache coherent exactly if it leaves
    the answers that stay in it. -/
theorem Coherent.write_iff (h : Coherent key answer asked cache d)
    (hcache : ∀ k v, cache' k = some v → cache k = some v) :
    Coherent key answer asked cache' d' ↔
      ∀ q, asked q → (cache' (key q)).isSome = true → answer q d' = answer q d := by
  refine ⟨fun h' q hq hsome => ?_, h.write hcache⟩
  obtain ⟨v, hv⟩ := Option.isSome_iff_exists.mp hsome
  rw [h' q hq v hv, h q hq v (hcache _ v hv)]

theorem Coherent.keep [DecidableEq K] (h : Coherent key answer asked cache d) {q : Q} {v : V}
    (hv : answer q d = .ok v)
    (hcache : ∀ k, cache' k = if k = key q then some v else cache k)
    (hsame : ∀ q', asked q' → key q' = key q → answer q' d = answer q d) :
    Coherent key answer asked cache' d := by
  intro q' hq' v' hv'
  rw [hcache] at hv'
  by_cases hk : key q' = key q
  · rw [if_pos hk] at hv'
    rw [hsame q' hq' hk, hv, Option.some.inj hv']
  · rw [if_neg hk] at hv'
    exact h q' hq' v' hv'

end ReadThrough

end ShieldApi
