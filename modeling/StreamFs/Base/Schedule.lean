import StreamFs.Base.Machine

/-!
Runs of a machine that do not end, and what fairness brings about.

* `Machine.stateAt`: the state after the first events of a schedule.
* `Recurs`, `RecursIn`: an event, or one of a kind, comes again and again in a schedule.
* `cycle`, `precede`: a schedule that takes turns, and one that starts with given events.
* `sum_update_add`: a measure of all threads, one of which moves.
* `Machine.eventually_next`: what lasts until a recurring event comes is there when it comes.
* `Machine.eventually_of_rank_in`: if each event leaves the state alone or lowers a rank, and away
  from the goal some recurring events do not leave the state alone, the goal is reached.
  `Machine.eventually_of_rank`: the same for a recurring event.
-/

namespace StreamFs

variable {σ ε ω : Type*}

/-- Events of a kind come again and again. -/
def RecursIn (f : ℕ → ε) (P : ε → Prop) : Prop := ∀ n, ∃ k, n ≤ k ∧ P (f k)

/-- The event comes again and again. -/
def Recurs (f : ℕ → ε) (e : ε) : Prop := ∀ n, ∃ k, n ≤ k ∧ f k = e

lemma RecursIn.shift {f : ℕ → ε} {P : ε → Prop} (h : RecursIn f P) (n : ℕ) :
    RecursIn (fun i => f (n + i)) P := by
  intro i
  obtain ⟨k, hk, hP⟩ := h (n + i)
  refine ⟨k - n, by omega, ?_⟩
  show P (f (n + (k - n)))
  rwa [Nat.add_sub_cancel' (by omega)]

lemma Recurs.shift {f : ℕ → ε} {e : ε} (h : Recurs f e) (n : ℕ) :
    Recurs (fun i => f (n + i)) e :=
  RecursIn.shift (P := (· = e)) h n

/-- Some events, and then a schedule. -/
def precede (es : List ε) (f : ℕ → ε) (n : ℕ) : ε := (es[n]?).getD (f (n - es.length))

lemma precede_add (es : List ε) (f : ℕ → ε) (n : ℕ) : precede es f (es.length + n) = f n := by
  rw [precede, List.getElem?_eq_none (Nat.le_add_right _ _), Nat.add_sub_cancel_left]
  rfl

lemma RecursIn.precede {f : ℕ → ε} {P : ε → Prop} (h : RecursIn f P) (es : List ε) :
    RecursIn (precede es f) P := by
  intro n
  obtain ⟨k, hk, hP⟩ := h n
  exact ⟨es.length + k, by omega, by rwa [precede_add]⟩

lemma Recurs.precede {f : ℕ → ε} {e : ε} (h : Recurs f e) (es : List ε) :
    Recurs (precede es f) e :=
  RecursIn.precede (P := (· = e)) h es

/-- A sum over all threads, one of which moves. -/
lemma sum_update_add {ι π : Type*} [Fintype ι] [DecidableEq ι] (g : π → ℕ) (phase : ι → π) (i : ι)
    (p : π) :
    (∑ j, g (Function.update phase i p j)) + g (phase i) = (∑ j, g (phase j)) + g p := by
  have hrest : ∑ j ∈ Finset.univ.erase i, g (Function.update phase i p j)
      = ∑ j ∈ Finset.univ.erase i, g (phase j) := by
    refine Finset.sum_congr rfl fun j hj => ?_
    rw [Function.update_of_ne (Finset.ne_of_mem_erase hj)]
  rw [← Finset.add_sum_erase _ _ (Finset.mem_univ i), hrest, Function.update_self,
    ← Finset.add_sum_erase Finset.univ (fun j => g (phase j)) (Finset.mem_univ i)]
  omega

namespace Machine

variable (m : Machine σ ε ω)

/-- The state after the first `n` events of a schedule. -/
def stateAt (s : σ) (f : ℕ → ε) : ℕ → σ
  | 0 => s
  | n + 1 => m.next (stateAt s f n) (f n)

lemma stateAt_eq_run (s : σ) (f : ℕ → ε) (n : ℕ) :
    m.stateAt s f n = m.run s ((List.range n).map f) := by
  induction n with
  | zero => rfl
  | succ n ih => rw [stateAt, ih, List.range_succ, List.map_append, run_append]; rfl

lemma stateAt_add (s : σ) (f : ℕ → ε) (n k : ℕ) :
    m.stateAt s f (n + k) = m.stateAt (m.stateAt s f n) (fun i => f (n + i)) k := by
  induction k with
  | zero => rfl
  | succ k ih => rw [← Nat.add_assoc, stateAt, ih, stateAt]

variable {m} {s : σ} {f : ℕ → ε}

/-- What every event keeps holds at all times. -/
lemma invariant_stateAt {I : σ → Prop} (hI : ∀ s e, I s → I (m.next s e)) (hs : I s) (n : ℕ) :
    I (m.stateAt s f n) := by
  induction n with
  | zero => exact hs
  | succ n ih => exact hI _ _ ih

/-- **The waiting rule**: what holds, and lasts until the recurring event comes, holds when it
comes. -/
theorem eventually_next (I : σ → Prop) {e : ε} (hI : ∀ s e', e' ≠ e → I s → I (m.next s e'))
    (hs : I s) (hrecurs : Recurs f e) : ∃ n, I (m.stateAt s f n) ∧ f n = e := by
  classical
  have hex : ∃ n, f n = e := (hrecurs 0).imp fun _ h => h.2
  refine ⟨Nat.find hex, ?_, Nat.find_spec hex⟩
  suffices h : ∀ n ≤ Nat.find hex, I (m.stateAt s f n) from h _ le_rfl
  intro n hn
  induction n with
  | zero => exact hs
  | succ n ih => exact hI _ _ (Nat.find_min hex hn) (ih (Nat.le_of_succ_le hn))

/-- **The rank rule**: each event leaves the state alone or lowers the rank, and where the goal has
not been reached some events come again and again that do not leave the state alone. Then the goal
is reached. -/
theorem eventually_of_rank_in (I goal : σ → Prop) (A : ε → Prop) (rank : σ → ℕ)
    (hI : ∀ s e, I s → A e → I (m.next s e))
    (hrank : ∀ s e, I s → A e → m.next s e = s ∨ rank (m.next s e) < rank s)
    (hgoal : ∀ s, I s → ¬ goal s → ∃ P, RecursIn f P ∧ ∀ e, P e → m.next s e ≠ s)
    (hs : I s) (hA : ∀ n, A (f n)) : ∃ n, goal (m.stateAt s f n) := by
  classical
  -- by induction on the rank: the state stays the same until an event lowers it
  induction hr : rank s using Nat.strong_induction_on generalizing s f with
  | _ r ih =>
    by_cases hdone : goal s
    · exact ⟨0, hdone⟩
    obtain ⟨P, hrecurs, hne⟩ := hgoal s hs hdone
    have hex : ∃ n, m.stateAt s f n ≠ s := by
      by_contra hall
      push Not at hall
      obtain ⟨k, -, hk⟩ := hrecurs 0
      refine hne (f k) hk ?_
      conv_lhs => rw [← hall k]
      exact hall (k + 1)
    obtain ⟨n, hn⟩ : ∃ n, Nat.find hex = n + 1 :=
      Nat.exists_eq_succ_of_ne_zero fun h0 => Nat.find_spec hex (by rw [h0]; rfl)
    have hbefore : m.stateAt s f n = s := not_not.mp (Nat.find_min hex (by omega))
    have hafter : m.stateAt s f (n + 1) = m.next s (f n) := by rw [stateAt, hbefore]
    have hchanged : m.next s (f n) ≠ s := by
      rw [← hafter, ← hn]
      exact Nat.find_spec hex
    have hlt := (hrank s (f n) hs (hA n)).resolve_left hchanged
    obtain ⟨k, hk⟩ := ih _ (hr ▸ hlt) (fun s hs hd => by
        obtain ⟨P, hrecurs, hne⟩ := hgoal s hs hd
        exact ⟨P, hrecurs.shift (n + 1), hne⟩)
      (hI s _ hs (hA n)) (fun i => hA (n + 1 + i)) rfl
    refine ⟨n + 1 + k, ?_⟩
    rw [stateAt_add, hafter]
    exact hk

/-- The rank rule where a single event comes again and again. -/
theorem eventually_of_rank (I goal : σ → Prop) (A : ε → Prop) (rank : σ → ℕ)
    (hI : ∀ s e, I s → A e → I (m.next s e))
    (hrank : ∀ s e, I s → A e → m.next s e = s ∨ rank (m.next s e) < rank s)
    (hgoal : ∀ s, I s → ¬ goal s → ∃ e, Recurs f e ∧ m.next s e ≠ s)
    (hs : I s) (hA : ∀ n, A (f n)) : ∃ n, goal (m.stateAt s f n) := by
  refine eventually_of_rank_in I goal A rank hI hrank (fun s hs hd => ?_) hs hA
  obtain ⟨e, hrecurs, hne⟩ := hgoal s hs hd
  exact ⟨(· = e), hrecurs, fun _ he => he ▸ hne⟩

end Machine

end StreamFs
