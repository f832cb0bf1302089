import Mathlib.Tactic

/-!
A mutex of threads that each stand in a phase, where the phase tells whether a thread holds it.

* `passOn`: the owner after a thread has moved to a phase in which it holds the mutex or not.
* `Guards`: the owner is the thread whose phase holds the mutex.
* `Guards.passOn`, `Guards.map`: this stays so when a thread moves on, taking a free mutex only, and
  when all threads move without taking it or giving it back. `Guards.unique`: at most one thread
  holds it.
-/

namespace StreamFs

namespace Mutex

variable {ι π : Type*}

/-- The owner after thread `i` has moved to a phase in which it holds the mutex or not. -/
def passOn [DecidableEq ι] (m : Option ι) (i : ι) (holds : Bool) : Option ι :=
  if holds then some i else if m = some i then none else m

/-- The owner `m` of the mutex is the thread whose phase says that it holds it. -/
def Guards (holds : π → Bool) (phase : ι → π) (m : Option ι) : Prop :=
  ∀ i, holds (phase i) = true ↔ m = some i

variable {holds : π → Bool} {phase : ι → π} {m : Option ι}

/-- Where no thread holds the mutex it has no owner. -/
lemma guards_none (h : ∀ i, holds (phase i) = false) : Guards holds phase none := by
  intro i
  simp [h i]

/-- **Mutual exclusion**: two threads that hold the mutex are one. -/
lemma Guards.unique (h : Guards holds phase m) {i j : ι} (hi : holds (phase i) = true)
    (hj : holds (phase j) = true) : i = j :=
  Option.some_injective _ (((h i).mp hi).symm.trans ((h j).mp hj))

/-- A move of all threads that leaves alone who holds the mutex. -/
lemma Guards.map (h : Guards holds phase m) {f : π → π} (hf : ∀ p, holds (f p) = holds p) :
    Guards holds (fun i => f (phase i)) m := by
  intro i
  dsimp only
  rw [hf, h i]

/-- **A thread moves on**: it takes the mutex only if it is free, and keeps it or gives it back. -/
lemma Guards.passOn [DecidableEq ι] (h : Guards holds phase m) {i : ι} {p : π}
    (hfree : holds p = true → m = none ∨ holds (phase i) = true) :
    Guards holds (Function.update phase i p) (Mutex.passOn m i (holds p)) := by
  intro k
  rw [Mutex.passOn]
  cases hp : holds p with
  | true =>
      have hown : m = none ∨ m = some i := (hfree hp).imp_right (h i).mp
      by_cases hk : k = i
      · simp [hk, hp]
      · have hkm : m ≠ some k := by
          rcases hown with hown | hown <;> simp [hown, Ne.symm hk]
        simp [Function.update_of_ne hk, h k, hkm, Ne.symm hk]
  | false =>
      by_cases hk : k = i
      · subst hk
        by_cases hkm : m = some k <;> simp [hp, hkm]
      · by_cases him : m = some i
        · simp [Function.update_of_ne hk, h k, him, Ne.symm hk]
        · simp [Function.update_of_ne hk, h k, him]

end Mutex

end StreamFs
