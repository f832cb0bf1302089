import StreamFs.Base.Schedule
import StreamFs.Base.WaitFor

/-!
Threads that lock mutexes for nested scopes.

* `Scoped`: code as the mutexes it locks, each to the end of a scope. `Scoped.ops`: its steps.
* `Scoped.Ascending`: inside the scope of a mutex only mutexes of larger rank are locked.
* `LockThreads`, `machine`: any number of threads run such code, one piece after the other.
* `Ordered`: a thread has left what gives back the mutexes it holds, and locks larger ones only.
  `Disciplined`: this holds of all threads. `disciplined_run`.
* `Disciplined.not_deadlocked`: no threads wait for each other. `all_return`: when no more code is
  started, every fair schedule brings all threads to the end of theirs, with all mutexes given back.
-/

namespace StreamFs

/-- Code that locks mutexes for scopes. -/
inductive Scoped (L : Type*) where
  | skip
  | guard (l : L) (body : Scoped L)
  | seq (a b : Scoped L)

/-- A mutex is locked or unlocked. -/
inductive LockOp (L : Type*) where
  | lock (l : L)
  | unlock (l : L)
deriving DecidableEq

variable {ι L : Type*}

namespace Scoped

/-- The steps of the code. -/
def ops : Scoped L → List (LockOp L)
  | skip => []
  | guard l body => .lock l :: (body.ops ++ [.unlock l])
  | seq a b => a.ops ++ b.ops

/-- One piece of code after the other. -/
def all (cs : List (Scoped L)) : Scoped L := cs.foldr seq skip

/-- Only mutexes of rank `k` on are locked, and inside a scope only those of larger rank. -/
def Ascending (rank : L → ℕ) (k : ℕ) : Scoped L → Prop
  | skip => True
  | guard l body => k ≤ rank l ∧ body.Ascending rank (rank l + 1)
  | seq a b => a.Ascending rank k ∧ b.Ascending rank k

variable {rank : L → ℕ} {k k' : ℕ}

lemma Ascending.mono {c : Scoped L} (h : c.Ascending rank k) (hk : k' ≤ k) :
    c.Ascending rank k' := by
  induction c with
  | skip => trivial
  | guard l body => exact ⟨hk.trans h.1, h.2⟩
  | seq a b iha ihb => exact ⟨iha h.1, ihb h.2⟩

lemma ascending_all {cs : List (Scoped L)} (h : ∀ c ∈ cs, c.Ascending rank k) :
    (all cs).Ascending rank k := by
  induction cs with
  | nil => trivial
  | cons c cs ih =>
      exact ⟨h c List.mem_cons_self, ih fun c' hc' => h c' (List.mem_cons_of_mem c hc')⟩

end Scoped

/-- What is left of the code of a thread that holds the mutexes `held`, the last one first. -/
def Ordered (rank : L → ℕ) : List (LockOp L) → List L → Prop
  | [], held => held = []
  | .lock l :: rest, held => (∀ h ∈ held, rank h < rank l) ∧ Ordered rank rest (l :: held)
  | .unlock l :: rest, held => ∃ outer, held = l :: outer ∧ Ordered rank rest outer

/-- Code in front of what is left. -/
lemma Scoped.Ascending.ordered {rank : L → ℕ} {c : Scoped L} {k : ℕ} (h : c.Ascending rank k)
    {held : List L} (hheld : ∀ l ∈ held, rank l < k) {rest : List (LockOp L)}
    (hrest : Ordered rank rest held) : Ordered rank (c.ops ++ rest) held := by
  induction c generalizing k held rest with
  | skip => exact hrest
  | guard l body ih =>
      rw [ops, List.cons_append, List.append_assoc]
      refine ⟨fun h' hh' => (hheld h' hh').trans_le h.1, ?_⟩
      refine ih h.2 (fun l' hl' => ?_) ⟨held, rfl, hrest⟩
      rcases List.mem_cons.mp hl' with rfl | hl'
      · exact Nat.lt_succ_self _
      · exact ((hheld l' hl').trans_le h.1).trans (Nat.lt_succ_self _)
  | seq a b iha ihb =>
      rw [ops, List.append_assoc]
      exact iha h.1 hheld (ihb h.2 hheld hrest)

/-- The code that the threads have left, and the owners of the mutexes. -/
structure LockThreads (ι L : Type*) where
  program : ι → List (LockOp L)
  owner : L → Option ι

/-- A thread starts code where it has none left, or takes its next step. -/
inductive LockEvent (ι L : Type*) where
  | call (i : ι) (c : Scoped L)
  | step (i : ι)

namespace LockThreads

/-- All threads are outside. -/
def idle : LockThreads ι L := ⟨fun _ => [], fun _ => none⟩

variable [DecidableEq ι] [DecidableEq L]

/-- Thread `i` takes its next step, if it can. -/
def step (s : LockThreads ι L) (i : ι) : LockThreads ι L :=
  match s.program i with
  | [] => s
  | .lock l :: rest =>
      if s.owner l = none then
        ⟨Function.update s.program i rest, Function.update s.owner l (some i)⟩
      else s
  | .unlock l :: rest => ⟨Function.update s.program i rest, Function.update s.owner l none⟩

/-- The threads as a machine. -/
def machine : Machine (LockThreads ι L) (LockEvent ι L) Unit where
  step s
    | .call i c =>
        let s' := { s with program := Function.update s.program i c.ops }
        (if s.program i = [] then s' else s, ())
    | .step i => (s.step i, ())

/-- Thread `i` waits for a mutex that thread `k` has locked. -/
def Waits (s : LockThreads ι L) (i k : ι) : Prop :=
  ∃ l rest, s.program i = .lock l :: rest ∧ s.owner l = some k

/-- The threads hold what they own, and have left what gives it back. -/
structure Disciplined (rank : L → ℕ) (s : LockThreads ι L) (held : ι → List L) : Prop where
  ordered : ∀ i, Ordered rank (s.program i) (held i)
  nodup : ∀ i, (held i).Nodup
  owner_iff : ∀ l i, s.owner l = some i ↔ l ∈ held i

variable {rank : L → ℕ} {s : LockThreads ι L} {held : ι → List L}

omit [DecidableEq ι] [DecidableEq L] in
lemma disciplined_idle : (idle : LockThreads ι L).Disciplined rank fun _ => [] where
  ordered _ := rfl
  nodup _ := List.nodup_nil
  owner_iff l i := iff_of_false (fun h => by cases h) List.not_mem_nil

/-- A thread locks a mutex that is free. -/
lemma Disciplined.lock (h : s.Disciplined rank held) {i : ι} {l : L} {rest : List (LockOp L)}
    (hprogram : s.program i = .lock l :: rest) (hfree : s.owner l = none) :
    Disciplined rank ⟨Function.update s.program i rest, Function.update s.owner l (some i)⟩
      (Function.update held i (l :: held i)) where
  ordered j := by
    have hi := h.ordered i
    rw [hprogram] at hi
    by_cases hj : j = i
    · subst hj
      simpa using hi.2
    · simpa [Function.update_of_ne hj] using h.ordered j
  nodup j := by
    by_cases hj : j = i
    · subst hj
      have hnot : l ∉ held j := fun hmem => by
        rw [(h.owner_iff l j).mpr hmem] at hfree
        cases hfree
      simpa using ⟨hnot, h.nodup j⟩
    · simpa [Function.update_of_ne hj] using h.nodup j
  owner_iff l' j := by
    dsimp only
    by_cases hl : l' = l
    · subst hl
      have hnone : ∀ k, l' ∉ held k := fun k hmem => by
        rw [(h.owner_iff l' k).mpr hmem] at hfree
        cases hfree
      by_cases hj : j = i
      · simp [hj]
      · simp [Function.update_of_ne hj, hnone j, Ne.symm hj]
    · rw [Function.update_of_ne hl, h.owner_iff]
      by_cases hj : j = i
      · simp [hj, hl]
      · rw [Function.update_of_ne hj]

/-- A thread unlocks the mutex it has locked last. -/
lemma Disciplined.unlock (h : s.Disciplined rank held) {i : ι} {l : L} {rest : List (LockOp L)}
    (hprogram : s.program i = .unlock l :: rest) :
    ∃ outer, Disciplined rank ⟨Function.update s.program i rest, Function.update s.owner l none⟩
      (Function.update held i outer) := by
  have hi := h.ordered i
  rw [hprogram] at hi
  obtain ⟨outer, hheld, hrest⟩ := hi
  have hnodup := h.nodup i
  rw [hheld, List.nodup_cons] at hnodup
  refine ⟨outer, fun j => ?_, fun j => ?_, fun l' j => ?_⟩
  · by_cases hj : j = i
    · subst hj
      simpa using hrest
    · simpa [Function.update_of_ne hj] using h.ordered j
  · by_cases hj : j = i
    · subst hj
      simpa using hnodup.2
    · simpa [Function.update_of_ne hj] using h.nodup j
  · dsimp only
    by_cases hl : l' = l
    · subst hl
      have howner : s.owner l' = some i := (h.owner_iff l' i).mpr (by simp [hheld])
      by_cases hj : j = i
      · simp [hj, hnodup.1]
      · have hnot : l' ∉ held j := fun hmem =>
          hj (Option.some_injective _ (((h.owner_iff l' j).mpr hmem).symm.trans howner))
        simp [Function.update_of_ne hj, hnot]
    · rw [Function.update_of_ne hl, h.owner_iff]
      by_cases hj : j = i
      · simp [hj, hheld, hl]
      · rw [Function.update_of_ne hj]

/-- The code that is started locks mutexes in ascending order. -/
def StartsAscending (rank : L → ℕ) (e : LockEvent ι L) : Prop :=
  ∀ i c, e = .call i c → c.Ascending rank 0

/-- **One event.** -/
lemma Disciplined.next (h : s.Disciplined rank held) {e : LockEvent ι L}
    (he : StartsAscending rank e) : ∃ held', (machine.next s e).Disciplined rank held' := by
  cases e with
  | call i c =>
      show ∃ held', Disciplined rank (if s.program i = [] then _ else s) held'
      split_ifs with hidle
      · refine ⟨held, fun j => ?_, h.nodup, h.owner_iff⟩
        by_cases hj : j = i
        · subst hj
          have hheld := h.ordered j
          rw [hidle] at hheld
          have hstart : Ordered rank (c.ops ++ []) [] := (he j c rfl).ordered (by simp) rfl
          rw [List.append_nil] at hstart
          simpa [show held j = [] from hheld] using hstart
        · simpa [Function.update_of_ne hj] using h.ordered j
      · exact ⟨held, h⟩
  | step i =>
      show ∃ held', (s.step i).Disciplined rank held'
      rw [step]
      cases hprogram : s.program i with
      | nil => exact ⟨held, h⟩
      | cons op rest =>
          cases op with
          | lock l =>
              dsimp only
              split_ifs with hfree
              · exact ⟨_, h.lock hprogram hfree⟩
              · exact ⟨held, h⟩
          | unlock l =>
              obtain ⟨outer, houter⟩ := h.unlock hprogram
              exact ⟨_, houter⟩

/-- **The discipline lasts.** -/
theorem disciplined_run {es : List (LockEvent ι L)} (hes : ∀ e ∈ es, StartsAscending rank e) :
    ∃ held, (machine.run (idle : LockThreads ι L) es).Disciplined rank held :=
  Machine.invariant_run_of_events (I := fun s : LockThreads ι L => ∃ held, s.Disciplined rank held)
    (K := StartsAscending rank) (fun _ _ ⟨_, h⟩ he => h.next he) ⟨_, disciplined_idle⟩ hes

/-- How far below the bound the mutex is that comes next. -/
def toBound (rank : L → ℕ) (bound : ℕ) : List (LockOp L) → ℕ
  | .lock l :: _ => bound - rank l
  | _ => 0

omit [DecidableEq ι] [DecidableEq L] in
/-- **No deadlock**: a thread that others wait for waits for a mutex of larger rank. -/
theorem Disciplined.not_deadlocked (h : s.Disciplined rank held) {bound : ℕ}
    (hbound : ∀ l, rank l ≤ bound) : ¬ Deadlocked s.Waits := by
  refine not_deadlocked_of_rank (fun i => toBound rank bound (s.program i)) fun i k m hik hkm => ?_
  obtain ⟨l, rest, hi, howner⟩ := hik
  obtain ⟨l', rest', hk, -⟩ := hkm
  have hordered := h.ordered k
  rw [hk] at hordered
  have hlt := hordered.1 l ((h.owner_iff l k).mp howner)
  have hle := hbound l'
  rw [hi, hk, toBound, toBound]
  omega

/-! ### When no more code is started -/

/-- All threads are outside. -/
def Finished (s : LockThreads ι L) : Prop := ∀ i, s.program i = []

/-- All threads are outside, and all mutexes have been given back. -/
structure Settled (s : LockThreads ι L) : Prop where
  finished : s.Finished
  free : ∀ l, s.owner l = none

omit [DecidableEq ι] [DecidableEq L] in
/-- A thread that is outside holds nothing. -/
lemma Disciplined.owner_ne (h : s.Disciplined rank held) {k : ι} (hnil : s.program k = [])
    (l : L) : s.owner l ≠ some k := by
  intro howner
  have hheld := h.ordered k
  rw [hnil] at hheld
  have hmem := (h.owner_iff l k).mp howner
  rw [show held k = [] from hheld] at hmem
  cases hmem

omit [DecidableEq ι] [DecidableEq L] in
/-- When all threads are outside, all mutexes have been given back. -/
lemma Disciplined.settled (h : s.Disciplined rank held) (hs : s.Finished) : s.Settled :=
  ⟨hs, fun l => Option.eq_none_iff_forall_ne_some.mpr fun k => h.owner_ne (hs k) l⟩

omit [DecidableEq ι] [DecidableEq L] in
/-- Some thread in the middle of its code does not wait. -/
lemma Disciplined.exists_not_waiting (h : s.Disciplined rank held) {bound : ℕ}
    (hbound : ∀ l, rank l ≤ bound) (hs : ¬ s.Finished) :
    ∃ i, s.program i ≠ [] ∧ ∀ k, ¬ s.Waits i k := by
  by_contra hall
  push Not at hall
  rw [Finished, not_forall] at hs
  refine h.not_deadlocked hbound ⟨{i | s.program i ≠ []}, hs, fun i hi => ?_⟩
  obtain ⟨k, hk⟩ := hall i hi
  refine ⟨k, fun hnil => ?_, hk⟩
  obtain ⟨l, rest, -, howner⟩ := hk
  exact h.owner_ne hnil l howner

variable [Fintype ι]

/-- The steps that all threads have left. -/
def work (s : LockThreads ι L) : ℕ := ∑ i, (s.program i).length

omit [DecidableEq L] in
lemma work_update_lt {i : ι} {op : LockOp L} {rest : List (LockOp L)}
    (hprogram : s.program i = op :: rest) (owner : L → Option ι) :
    work ⟨Function.update s.program i rest, owner⟩ < s.work := by
  have hsum := sum_update_add List.length s.program i rest
  rw [hprogram, List.length_cons] at hsum
  show ∑ j, (Function.update s.program i rest j).length < ∑ j, (s.program j).length
  omega

/-- A step has no effect, or less is left to do; it has an effect where the thread does not wait. -/
lemma step_cases (s : LockThreads ι L) (i : ι) :
    s.step i = s ∧ (s.program i = [] ∨ ∃ k, s.Waits i k) ∨ (s.step i).work < s.work := by
  rw [step]
  cases hprogram : s.program i with
  | nil => exact .inl ⟨rfl, .inl rfl⟩
  | cons op rest =>
      cases op with
      | lock l =>
          dsimp only
          split_ifs with hfree
          · exact .inr (work_update_lt hprogram _)
          · obtain ⟨k, hk⟩ := Option.ne_none_iff_exists'.mp hfree
            exact .inl ⟨rfl, .inr ⟨k, l, rest, hprogram, hk⟩⟩
      | unlock l => exact .inr (work_update_lt hprogram _)

/-- The event starts code. -/
def Starts (e : LockEvent ι L) : Prop := ∃ i c, e = .call i c

/-- **All threads return**: after any run, if no more code is started, every schedule that goes on
with each thread brings all of them to the end of their code, with all mutexes given back. -/
theorem all_return {bound : ℕ} (hbound : ∀ l, rank l ≤ bound) {es : List (LockEvent ι L)}
    (hes : ∀ e ∈ es, StartsAscending rank e) {f : ℕ → LockEvent ι L} (hf : ∀ n, ¬ Starts (f n))
    (hsteps : ∀ i, Recurs f (.step i)) :
    ∃ n, (machine.stateAt (machine.run (idle : LockThreads ι L) es) f n).Settled := by
  refine Machine.eventually_of_rank (fun s : LockThreads ι L => ∃ held, s.Disciplined rank held)
    Settled (fun e => ¬ Starts e) work ?_ ?_ ?_ (disciplined_run hes) hf
  · rintro s e ⟨held, h⟩ he
    exact h.next fun i c hc => absurd ⟨i, c, hc⟩ he
  · rintro s e - he
    cases e with
    | call i c => exact absurd ⟨i, c, rfl⟩ he
    | step i => exact (step_cases s i).imp_left And.left
  · rintro s ⟨held, h⟩ hs
    obtain ⟨i, hi, hwaits⟩ := h.exists_not_waiting hbound fun hfinished => hs (h.settled hfinished)
    refine ⟨.step i, hsteps i, fun heq => ?_⟩
    rcases step_cases s i with ⟨-, hnil | ⟨k, hk⟩⟩ | hlt
    · exact hi hnil
    · exact hwaits k hk
    · exact hlt.ne (congrArg work heq)

end LockThreads

end StreamFs
