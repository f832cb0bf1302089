import StreamFs.Base.WaitFor
import StreamFs.Pool.Threads

/-!
Deadlocks of the pool.

`abortAllOperations` joins the thread of the producer while it holds `m_w_mutex`, which the
producer locks in every push. The destructor joins first and locks afterwards.

* `WaitsFor`: a thread waits for the owner of the mutex it locks, or for the producer to exit.
* `deadlocked_iff`: the threads are in a deadlock exactly when an abort waits for a producer that
  waits for `m_w_mutex`. Otherwise the ranks of the phases go down along every wait
  (`ThreadPhase.rank`).
* `KeepsApart`: no abort locks `m_w_mutex` before a waiting push of the producer, and the producer
  calls no push behind an abort.
* `not_deadlocked_trace_iff`: a run meets no deadlock exactly if all its steps keep the two apart.
-/

namespace StreamFs

/-- What a thread can wait for. -/
inductive Awaited where
  | mMutex
  | mWMutex
  | exit
  deriving DecidableEq

namespace ThreadPhase

/-- What a thread waits for before it can take its next step. -/
def awaits : ThreadPhase → Option Awaited
  | readLock _ | waitRelock _ _ | rewindLock => some .mMutex
  | copyLock _ | pushLock _ | clearLock | rewindLockWrite | abortLock | destroyLock => some .mWMutex
  | abortJoin | destroyJoin => some .exit
  | _ => none

/-- The ranks of the waiting phases: the join of an abort, the locks of `m_w_mutex`, those of
`m_mutex`, the join of the destructor. -/
def rank : ThreadPhase → ℕ
  | abortJoin => 1
  | copyLock _ | pushLock _ | clearLock | rewindLockWrite | abortLock | destroyLock => 2
  | readLock _ | waitRelock _ _ | rewindLock => 3
  | destroyJoin => 4
  | _ => 0

lemma rank_of_awaits_mMutex {p : ThreadPhase} (h : p.awaits = some .mMutex) : p.rank = 3 := by
  cases p <;> simp_all [awaits, rank]

lemma rank_of_awaits_mWMutex {p : ThreadPhase} (h : p.awaits = some .mWMutex) : p.rank = 2 := by
  cases p <;> simp_all [awaits, rank]

lemma eq_of_awaits_exit {p : ThreadPhase} (h : p.awaits = some .exit) :
    p = .abortJoin ∨ p = .destroyJoin := by
  cases p <;> simp_all [awaits]

lemma rank_le_of_holdsMutex {p : ThreadPhase} (h : p.holdsMutex) : p.rank ≤ 2 := by
  cases p <;> simp_all [holdsMutex, rank]

lemma rank_le_of_holdsWMutex {p : ThreadPhase} (h : p.holdsWMutex) : p.rank ≤ 1 := by
  cases p <;> simp_all [holdsWMutex, rank]

lemma rank_of_pushes {p : ThreadPhase} (h : p.pushes) :
    p.rank = 0 ∨ p.rank = 2 ∧ ∃ b, p = .pushLock b := by
  cases p <;> simp_all [pushes, rank]

end ThreadPhase

namespace Threads

variable {ι : Type*} {producer : ι} {s : Threads ι}

/-- Thread `k` is the one to give what is awaited. -/
def Owes (producer : ι) (s : Threads ι) (k : ι) : Option Awaited → Prop
  | some .mMutex => s.mMutex = some k
  | some .mWMutex => s.mWMutex = some k
  | some .exit => k = producer ∧ s.phase producer ≠ .exited
  | none => False

instance [DecidableEq ι] (k : ι) : ∀ w, Decidable (s.Owes producer k w)
  | some .mMutex | some .mWMutex => inferInstanceAs (Decidable (_ = _))
  | some .exit => inferInstanceAs (Decidable (_ ∧ _))
  | none => .isFalse id

/-- Thread `i` waits for thread `k`: for the mutex it holds, or for it to exit. -/
def WaitsFor (producer : ι) (s : Threads ι) (i k : ι) : Prop :=
  s.Owes producer k (s.phase i).awaits

instance [DecidableEq ι] (i k : ι) : Decidable (s.WaitsFor producer i k) :=
  inferInstanceAs (Decidable (s.Owes producer k _))

/-- An abort waits for the producer, and the producer for `m_w_mutex`. -/
def AbortMeetsPush (producer : ι) (s : Threads ι) : Prop :=
  (∃ j, s.phase j = .abortJoin) ∧ ∃ b, s.phase producer = .pushLock b

/-- Where no abort waits for a push, the ranks go down along every wait. -/
lemma rank_lt (hs : s.WellLocked producer) (h : ¬ s.AbortMeetsPush producer) {i k : ι}
    (hik : s.WaitsFor producer i k) : (s.phase k).rank < (s.phase i).rank := by
  rw [WaitsFor] at hik
  cases hi : (s.phase i).awaits with
  | none => simp [hi, Owes] at hik
  | some w =>
      cases w with
      | mMutex =>
          have hk := ThreadPhase.rank_le_of_holdsMutex
            ((hs.mutex k).mpr (by simpa [hi, Owes] using hik))
          rw [ThreadPhase.rank_of_awaits_mMutex hi]
          omega
      | mWMutex =>
          have hk := ThreadPhase.rank_le_of_holdsWMutex
            ((hs.wMutex k).mpr (by simpa [hi, Owes] using hik))
          rw [ThreadPhase.rank_of_awaits_mWMutex hi]
          omega
      | exit =>
          obtain ⟨rfl, -⟩ : k = producer ∧ s.phase producer ≠ .exited := by
            simpa [hi, Owes] using hik
          rcases ThreadPhase.eq_of_awaits_exit hi with hi | hi <;>
            rcases ThreadPhase.rank_of_pushes hs.producer_pushes with hk | ⟨hk, b, hb⟩
          · rw [hk, hi, ThreadPhase.rank]
            omega
          · exact absurd ⟨⟨i, hi⟩, b, hb⟩ h
          · rw [hk, hi, ThreadPhase.rank]
            omega
          · rw [hk, hi, ThreadPhase.rank]
            omega

/-- **The only deadlock is that of an abort with a push of the producer.** -/
theorem deadlocked_iff (hs : s.WellLocked producer) :
    Deadlocked (s.WaitsFor producer) ↔ s.AbortMeetsPush producer := by
  constructor
  · intro hdead
    by_contra h
    exact not_deadlocked_of_rank (fun i => (s.phase i).rank)
      (fun _ _ _ hik _ => rank_lt hs h hik) hdead
  · rintro ⟨⟨j, hj⟩, b, hproducer⟩
    have howner : s.mWMutex = some j := (hs.wMutex j).mp (by rw [hj]; rfl)
    refine deadlocked_of_cycle (i := j) (k := producer) ?_ ?_
    · simp [WaitsFor, Owes, hj, hproducer, ThreadPhase.awaits]
    · simpa [WaitsFor, Owes, hproducer, ThreadPhase.awaits] using howner

/-! ### Every run -/

section

variable [DecidableEq ι]

/-- The step keeps the aborts apart from the pushes of the producer: no abort locks `m_w_mutex`
where a push of the producer waits for it, and the producer calls no push behind such an abort. -/
def KeepsApart (producer : ι)
    (t : Transition (Threads ι) (ThreadEvent ι) (Option ReadResult)) : Prop :=
  match t.event with
  | .step j _ => t.before.phase j = .abortLock → t.before.mWMutex = none →
      ∀ b, t.before.phase producer ≠ .pushLock b
  | .call i (.pushBuffer _ _) => i = producer → t.before.phase i = .idle →
      t.before.pool.exitPending = false → ∀ j, t.before.phase j ≠ .abortJoin
  | _ => True

/-- A thread comes to the join of an abort, and to the lock of a push, by going on. -/
lemma Moves.phase_eq {e : ThreadEvent ι} {s' : Threads ι} (h : s.Moves producer e s') {k : ι}
    {p : ThreadPhase} (hk : s'.phase k = p) (hp : p = .abortJoin ∨ ∃ b, p = .pushLock b) :
    s.phase k = p ∨ ∃ q, s.Goes producer e k p q := by
  have hother : ∀ {r : Threads ι} {i p'}, (r.moveTo i p').phase k = p →
      p' ≠ .abortJoin ∧ (∀ b, p' ≠ .pushLock b) → r.phase k = p := by
    intro r i p' h hne
    rw [phase_moveTo] at h
    split_ifs at h
    · rcases hp with rfl | ⟨b, rfl⟩
      · exact absurd h hne.1
      · exact absurd h (hne.2 b)
    · exact h
  cases h with
  | stay => exact .inl hk
  | go i p' q h =>
      rw [phase_moveTo] at hk
      split_ifs at hk with hki
      · subst hki hk
        exact .inr ⟨q, h⟩
      · exact .inl hk
  | wake i timedOut a h =>
      rw [Threads.wake, h] at hk
      exact .inl (hother hk (by simp))
  | notifyOne i c h =>
      have hnotified := hother hk (by simp)
      rcases s.notifyOne_cases c.sleeper with ⟨hsame, -⟩ | ⟨m, a, -, -, hwoken⟩
      · exact .inl (by rwa [hsame] at hnotified)
      · rw [hwoken] at hnotified
        exact .inl (hother hnotified (by simp))
  | notifyAll i c h =>
      refine .inl (woken_eq (hother hk (by simp)) fun a => ?_)
      rcases hp with rfl | ⟨b, rfl⟩ <;> simp
  | park | leave | store | settle | clear | rewind | raise | finish =>
      exact .inl (hother hk (by simp))

/-- A step that keeps aborts and pushes apart leads into no deadlock, and any other one does. -/
lemma abortMeetsPush_next_iff (hs : s.WellLocked producer) (h : ¬ s.AbortMeetsPush producer)
    (e : ThreadEvent ι) :
    ¬ ((threadMachine producer).next s e).AbortMeetsPush producer ↔
      KeepsApart producer ((threadMachine producer).transition s e) := by
  constructor
  · intro hsafe
    cases e with
    | step j c =>
        intro hj hfree b hb
        have hne : producer ≠ j := by
          rintro rfl
          simp_all [Machine.transition]
        have hnext : (threadMachine producer).next s (.step j c) = s.moveTo j .abortJoin := by
          simp_all [Machine.next, Machine.transition, threadMachine, act, step, stepFrom,
            lockWMutex]
        rw [hnext] at hsafe
        exact hsafe ⟨⟨j, phase_moveTo_self ..⟩, b, (phase_moveTo_of_ne _ hne _).trans hb⟩
    | call i c =>
        cases c with
        | pushBuffer b now =>
            rintro rfl hidle hexit j hj
            have hne : j ≠ i := by
              rintro rfl
              simp_all [Machine.transition]
            apply hsafe
            have hnext : (threadMachine i).next s (.call i (.pushBuffer b now)) = { s with
                pool := { s.pool with
                  mThrottle := s.pool.mThrottle.registerTimePeriod now } }.moveTo i
                    (.pushLock b) := by
              simp_all [Machine.next, Machine.transition, threadMachine, act, MayCall, call,
                PoolCall.isPush]
            rw [hnext]
            exact ⟨⟨j, (phase_moveTo_of_ne _ hne _).trans hj⟩, b, phase_moveTo_self ..⟩
        | _ => trivial
    | _ => trivial
  · rintro hkeep ⟨⟨j, hj⟩, b, hb⟩
    have hmoves := hs.moves_next e
    rcases hmoves.phase_eq hj (.inl rfl) with hj' | ⟨q, hgo⟩ <;>
      rcases hmoves.phase_eq hb (.inr ⟨b, rfl⟩) with hb' | ⟨q', hgo'⟩
    · exact h ⟨⟨j, hj'⟩, b, hb'⟩
    · obtain ⟨⟨now, rfl⟩, hidle, hexit⟩ := hgo'.push b rfl
      exact hkeep rfl hidle hexit j hj'
    · obtain ⟨⟨c, rfl⟩, hlock, hfree⟩ := hgo.join rfl
      exact hkeep hlock hfree b hb'
    · obtain ⟨⟨c, rfl⟩, -⟩ := hgo.join rfl
      obtain ⟨⟨now, he⟩, -⟩ := hgo'.push b rfl
      exact absurd he (by simp)

/-- **A run meets no deadlock exactly if it keeps the aborts apart from the pushes.** -/
theorem not_deadlocked_trace_iff (producer : ι) (C : PoolCapacity) (es : List (ThreadEvent ι)) :
    (∀ t ∈ (threadMachine producer).trace (fresh C) es,
      ¬ Deadlocked (t.after.WaitsFor producer)) ↔
    ∀ t ∈ (threadMachine producer).trace (fresh C) es, KeepsApart producer t := by
  refine Machine.forall_trace_iff
    (I := fun s => WellLocked producer s ∧ ¬ s.AbortMeetsPush producer) ?_ ?_
    ⟨wellLocked_fresh producer C, by simp [AbortMeetsPush, fresh]⟩ es
  · rintro s e ⟨hs, h⟩
    rw [← abortMeetsPush_next_iff hs h]
    exact (deadlocked_iff (hs.next e)).not
  · rintro s e ⟨hs, h⟩ hsafe
    exact ⟨hs.next e, (deadlocked_iff (hs.next e)).not.mp hsafe⟩

/-- The producer is at the lock of its push when an abort takes `m_w_mutex` and joins it. -/
theorem deadlocked_abort_push : Deadlocked (WaitsFor 0
    ((threadMachine (0 : Fin 2)).run (fresh (.ofNat 4))
      (.call 0 (.pushBuffer (.filled 7) 0) :: .call 1 .abortAllOperations :: steps 1 2))) := by
  refine deadlocked_of_cycle (i := 0) (k := 1) ?_ ?_
  · decide
  · decide

end

end Threads

end StreamFs
