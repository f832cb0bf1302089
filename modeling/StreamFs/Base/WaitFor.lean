import Mathlib.Data.Set.Basic
import Mathlib.Tactic

/-!
Deadlocks as closed sets of the wait-for relation.

* `Deadlocked W`: some nonempty set of processes each of which waits for a member of the set.
* `deadlocked_of_cycle`: two processes that wait for each other.
* `not_deadlocked_of_rank`: no deadlock where every process that waits, waits for one that does
  not wait or has a smaller rank.
-/

namespace StreamFs

variable {ι : Type*}

/-- Some processes wait, each for another one of them: `W i k` says that `i` waits for `k`. -/
def Deadlocked (W : ι → ι → Prop) : Prop :=
  ∃ S : Set ι, S.Nonempty ∧ ∀ i ∈ S, ∃ k ∈ S, W i k

/-- Two processes that wait for each other. -/
lemma deadlocked_of_cycle {W : ι → ι → Prop} {i k : ι} (hik : W i k) (hki : W k i) :
    Deadlocked W := by
  refine ⟨{i, k}, ⟨i, Or.inl rfl⟩, ?_⟩
  rintro j (rfl | rfl)
  · exact ⟨k, Or.inr rfl, hik⟩
  · exact ⟨i, Or.inl rfl, hki⟩

/-- **Ranks exclude deadlocks**: a member of least rank would wait for one that waits too, and so
has a smaller rank. -/
theorem not_deadlocked_of_rank {W : ι → ι → Prop} (rank : ι → ℕ)
    (h : ∀ i k l, W i k → W k l → rank k < rank i) : ¬ Deadlocked W := by
  rintro ⟨S, ⟨i, hi⟩, hS⟩
  induction hr : rank i using Nat.strong_induction_on generalizing i with
  | _ r ih =>
      obtain ⟨k, hk, hik⟩ := hS i hi
      obtain ⟨l, -, hkl⟩ := hS k hk
      exact ih (rank k) (hr ▸ h i k l hik hkl) k hk rfl

end StreamFs
