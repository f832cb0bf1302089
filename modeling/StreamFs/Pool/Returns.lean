import StreamFs.Base.Schedule
import StreamFs.Pool.Deadlock

/-!
The calls on a pool return, those of the destructor and of `abortAllOperations` among them, when no
more calls come.

* `ThreadPhase.work`: the steps that a thread has left. A reader that sleeps has fewer than one that
  is notified, and so a notification costs its thread more than the sleepers it wakes.
* `step_cases`: a step lowers the work of all threads together, unless its thread can take none.
* `Apart`: no abort is under way, or the producer is not in front of the lock of a push. Without
  calls this stays so, and with it the ranks of the waits go down (`rank_lt`).
* `Fair`: a schedule that goes on with each thread, its timer, and the end of the thread of the
  producer. A reader in the wait of the throttle may stay there: `ThrottleReturns` says that none
  does. What the throttle does is not part of the threads of the pool.
* `pool_returns_iff`: in all fair schedules the calls return exactly where the waits of the throttle
  do, iff the aborts and the pushes are apart when the calls end; otherwise `exists_abortMeetsPush`
  leads into the deadlock.
-/

namespace StreamFs

/-- The steps that a thread has left, with `n` threads in all. -/
def ThreadPhase.work (n : ℕ) : ThreadPhase → ℕ
  | .exited => 0
  | .idle => 1
  -- `read`
  | .throttled _ => 2
  | .copying _ => 3
  | .copyLock _ => 4
  | .waitCheck _ true => 5
  | .waitRelock _ true => 6
  | .parked _ => 7
  | .waitPark _ => 8
  | .waitCheck _ false => 9
  | .waitRelock _ false => 10
  | .readGuards _ => 10
  | .readLock _ => 11
  -- `pushBuffer`
  | .pushUnlock => 2
  | .pushNotify => 6
  | .pushStore _ => 7
  | .pushLock _ => 8
  -- `clear` and `clearToLastRead`
  | .clearing => 2
  | .clearLock => 3
  | .rewinding => 2
  | .rewindLockWrite => 3
  | .rewindLock => 4
  -- `abortAllOperations`
  | .abortJoin => 2
  | .abortLock => 3
  | .abortNotify => 3 * n + 4
  -- the destructor
  | .destroyUnlock => 2
  | .destroyLock => 3
  | .destroyExit => 4
  | .destroyJoin => 5

namespace Threads

variable {ι : Type*} [DecidableEq ι] {producer : ι} {s : Threads ι}

/-- The threads after some events. -/
def threadsAfter (producer : ι) (C : PoolCapacity) (es : List (ThreadEvent ι)) : Threads ι :=
  (threadMachine producer).run (fresh C) es

/-- Every thread is outside of the pool. -/
def Returned (s : Threads ι) : Prop := ∀ i, s.phase i = .idle ∨ s.phase i = .exited

/-- No abort is under way, or the producer is not in front of the lock of a push. -/
def Apart (producer : ι) (s : Threads ι) : Prop :=
  (∀ i, (s.phase i).aborts = false) ∨ ∀ b, s.phase producer ≠ .pushLock b

/-- Thread `i` can take no step: it is outside, asleep, in front of a mutex that is not free, or in
front of the end of the producer. -/
def Stuck (producer : ι) (s : Threads ι) (i : ι) : Prop :=
  s.phase i = .idle ∨ s.phase i = .exited ∨ (∃ a, s.phase i = .parked a) ∨
    (s.phase i).awaits = some .mMutex ∧ s.mMutex ≠ none ∨
    (s.phase i).awaits = some .mWMutex ∧ s.mWMutex ≠ none ∨
    (s.phase i).awaits = some .exit ∧ s.phase producer ≠ .exited

variable [Fintype ι]

/-- The steps that all threads have left. -/
def work (s : Threads ι) : ℕ := ∑ i, (s.phase i).work (Fintype.card ι)

/-- The work when a thread goes on. -/
lemma work_moveTo_add (s : Threads ι) (i : ι) (p : ThreadPhase) :
    (s.moveTo i p).work + (s.phase i).work (Fintype.card ι)
      = s.work + p.work (Fintype.card ι) :=
  sum_update_add (ThreadPhase.work (Fintype.card ι)) s.phase i p

/-- A thread goes on to a phase with less to do, and may change the pool meanwhile. -/
lemma work_moveTo_lt {s' : Threads ι} (hphase : s'.phase = s.phase) {i : ι} {p : ThreadPhase}
    (hp : p.work (Fintype.card ι) < (s.phase i).work (Fintype.card ι)) :
    (s'.moveTo i p).work < s.work := by
  have hsum := s'.work_moveTo_add i p
  have hsame : s'.work = s.work := by rw [work, hphase, work]
  rw [hphase, hsame] at hsum
  omega

/-- The end of a sleep costs three steps. -/
lemma work_wake_le (s : Threads ι) (i : ι) : (s.wake i false).work ≤ s.work + 3 := by
  rcases s.wake_cases i false with ⟨hsame, -⟩ | ⟨a, hparked, hwoken⟩
  · rw [hsame]
    exact Nat.le_add_right _ _
  · have hsum := work_moveTo_add { s with mNotEnoughBytes := s.mNotEnoughBytes.erase i } i
      (.waitRelock a false)
    rw [← hwoken] at hsum
    change _ + (s.phase i).work _ = s.work + 10 at hsum
    rw [hparked] at hsum
    change _ + 7 = _ at hsum
    omega

lemma work_notifyOne_le (s : Threads ι) (k : ℕ) : (s.notifyOne k).work ≤ s.work + 3 := by
  rw [notifyOne]
  cases s.sleeper k with
  | none => exact Nat.le_add_right _ _
  | some i => exact s.work_wake_le i

omit [Fintype ι] [DecidableEq ι] in
lemma work_woken_le (n : ℕ) (p : ThreadPhase) : p.woken.work n ≤ p.work n + 3 := by
  cases p <;> simp [ThreadPhase.woken, ThreadPhase.work]

omit [DecidableEq ι] in
lemma work_notifyAll_le (s : Threads ι) : s.notifyAll.work ≤ s.work + 3 * Fintype.card ι := by
  calc s.notifyAll.work ≤ ∑ i, ((s.phase i).work (Fintype.card ι) + 3) :=
        Finset.sum_le_sum fun i _ => work_woken_le _ _
    _ = s.work + 3 * Fintype.card ι := by
        rw [Finset.sum_add_distrib, Finset.sum_const, Finset.card_univ, smul_eq_mul,
          Nat.mul_comm, work]

/-- The lock of a mutex that is free. -/
lemma lockMutex_cases {i : ι} {p : ThreadPhase} (hawaits : (s.phase i).awaits = some .mMutex)
    (hp : p.work (Fintype.card ι) < (s.phase i).work (Fintype.card ι)) :
    s.lockMutex i p = s ∧ s.Stuck producer i ∨ (s.lockMutex i p).work < s.work := by
  rw [lockMutex]
  split_ifs with hfree
  · exact .inr (work_moveTo_lt rfl hp)
  · exact .inl ⟨rfl, .inr (.inr (.inr (.inl ⟨hawaits, hfree⟩)))⟩

lemma lockWMutex_cases {i : ι} {p : ThreadPhase} (hawaits : (s.phase i).awaits = some .mWMutex)
    (hp : p.work (Fintype.card ι) < (s.phase i).work (Fintype.card ι)) :
    s.lockWMutex i p = s ∧ s.Stuck producer i ∨ (s.lockWMutex i p).work < s.work := by
  rw [lockWMutex]
  split_ifs with hfree
  · exact .inr (work_moveTo_lt rfl hp)
  · exact .inl ⟨rfl, .inr (.inr (.inr (.inr (.inl ⟨hawaits, hfree⟩))))⟩

/-- **What a step does to the work**: the thread is stuck, or all together have less to do. -/
lemma step_cases (producer : ι) (s : Threads ι) (i : ι) (c : StepChoice) :
    (s.step producer i c).1 = s ∧ s.Stuck producer i ∨ (s.step producer i c).1.work < s.work := by
  rw [step]
  cases hphase : s.phase i with
  | idle => exact .inl ⟨rfl, .inl hphase⟩
  | exited => exact .inl ⟨rfl, .inr (.inl hphase)⟩
  | parked a => exact .inl ⟨rfl, .inr (.inr (.inl ⟨a, hphase⟩))⟩
  | readLock a =>
      exact lockMutex_cases (by rw [hphase]; rfl) (by rw [hphase]; exact Nat.lt_succ_self _)
  | waitRelock a timedOut =>
      refine lockMutex_cases (by rw [hphase]; rfl) ?_
      rw [hphase]
      cases timedOut <;> exact Nat.lt_succ_self _
  | rewindLock =>
      exact lockMutex_cases (by rw [hphase]; rfl) (by rw [hphase]; exact Nat.lt_succ_self _)
  | copyLock a =>
      exact lockWMutex_cases (by rw [hphase]; rfl) (by rw [hphase]; exact Nat.lt_succ_self _)
  | pushLock b =>
      exact lockWMutex_cases (by rw [hphase]; rfl) (by rw [hphase]; exact Nat.lt_succ_self _)
  | clearLock =>
      exact lockWMutex_cases (by rw [hphase]; rfl) (by rw [hphase]; exact Nat.lt_succ_self _)
  | rewindLockWrite =>
      exact lockWMutex_cases (by rw [hphase]; rfl) (by rw [hphase]; exact Nat.lt_succ_self _)
  | abortLock =>
      exact lockWMutex_cases (by rw [hphase]; rfl) (by rw [hphase]; exact Nat.lt_succ_self _)
  | destroyLock =>
      exact lockWMutex_cases (by rw [hphase]; rfl) (by rw [hphase]; exact Nat.lt_succ_self _)
  | readGuards a =>
      rw [stepFrom]
      split_ifs <;>
        exact .inr (work_moveTo_lt rfl (by rw [hphase]; simp [ThreadPhase.work]))
  | waitCheck a timedOut =>
      refine .inr ?_
      rw [stepFrom]
      cases timedOut <;> simp only [if_true, Bool.false_eq_true, if_false] <;> split_ifs <;>
        exact work_moveTo_lt rfl (by rw [hphase]; simp [ThreadPhase.work])
  | waitPark a =>
      exact .inr (work_moveTo_lt rfl (by rw [hphase]; exact Nat.lt_succ_self _))
  | copying a =>
      rw [stepFrom]
      split_ifs <;>
        exact .inr (work_moveTo_lt rfl (by rw [hphase]; simp [ThreadPhase.work]))
  | throttled r =>
      exact .inr (work_moveTo_lt rfl (by rw [hphase]; exact Nat.lt_succ_self _))
  | pushStore b =>
      exact .inr (work_moveTo_lt rfl (by rw [hphase]; exact Nat.lt_succ_self _))
  | pushNotify =>
      -- at most one sleeper is woken
      have hnotified := s.work_notifyOne_le c.sleeper
      have hself := s.phase_notifyOne_of_awake c.sleeper (i := i) (by simp [hphase])
      have hsum := (s.notifyOne c.sleeper).work_moveTo_add i .pushUnlock
      rw [hself, hphase] at hsum
      change _ + 6 = _ + 2 at hsum
      exact .inr (show ((s.notifyOne c.sleeper).moveTo i .pushUnlock).work < s.work by omega)
  | pushUnlock =>
      exact .inr (work_moveTo_lt rfl (by rw [hphase]; exact Nat.lt_succ_self _))
  | clearing =>
      exact .inr (work_moveTo_lt rfl (by rw [hphase]; exact Nat.lt_succ_self _))
  | rewinding =>
      exact .inr (work_moveTo_lt rfl (by rw [hphase]; exact Nat.lt_succ_self _))
  | abortNotify =>
      -- all sleepers may be woken
      have hnotified := s.work_notifyAll_le
      have hself : s.notifyAll.phase i = .abortNotify := by
        rw [notifyAll]
        dsimp only
        rw [hphase]
        rfl
      have hsum := s.notifyAll.work_moveTo_add i .abortLock
      rw [hself] at hsum
      change _ + (3 * Fintype.card ι + 4) = _ + 3 at hsum
      exact .inr (show (s.notifyAll.moveTo i .abortLock).work < s.work by omega)
  | abortJoin =>
      rw [stepFrom]
      by_cases hexited : s.phase producer = .exited
      · rw [if_pos hexited]
        exact .inr (work_moveTo_lt rfl (by rw [hphase]; exact Nat.lt_succ_self _))
      · rw [if_neg hexited]
        exact .inl ⟨rfl, .inr (.inr (.inr (.inr (.inr ⟨by rw [hphase]; rfl, hexited⟩))))⟩
  | destroyJoin =>
      rw [stepFrom]
      by_cases hexited : s.phase producer = .exited
      · rw [if_pos hexited]
        exact .inr (work_moveTo_lt rfl (by rw [hphase]; exact Nat.lt_succ_self _))
      · rw [if_neg hexited]
        exact .inl ⟨rfl, .inr (.inr (.inr (.inr (.inr ⟨by rw [hphase]; rfl, hexited⟩))))⟩
  | destroyExit =>
      exact .inr (work_moveTo_lt rfl (by rw [hphase]; exact Nat.lt_succ_self _))
  | destroyUnlock =>
      exact .inr (work_moveTo_lt rfl (by rw [hphase]; exact Nat.lt_succ_self _))

/-! ### Some thread can go on -/

/-- The event is a call. -/
def Calls (e : ThreadEvent ι) : Prop := ∃ i c, e = .call i c

/-- The event ends a sleep for no reason. -/
def EndsSleep (e : ThreadEvent ι) : Prop := ∃ i, e = .spuriousWake i

omit [Fintype ι] in
/-- No thread starts to abort without a call. -/
lemma Moves.aborts_eq {e : ThreadEvent ι} {s' : Threads ι} (h : s.Moves producer e s')
    (he : ¬ Calls e) {k : ι} (hk : (s.phase k).aborts = false) : (s'.phase k).aborts = false := by
  have hmoveTo : ∀ {r : Threads ι} {i p}, (r.phase k).aborts = false →
      (i = k → p.aborts = false) → ((r.moveTo i p).phase k).aborts = false := by
    intro r i p hr hp
    rw [phase_moveTo]
    split_ifs with hki
    · exact hp hki.symm
    · exact hr
  have hwake : ∀ i timedOut, ((s.wake i timedOut).phase k).aborts = false := by
    intro i timedOut
    rcases s.wake_cases i timedOut with ⟨hsame, -⟩ | ⟨a, -, hwoken⟩
    · rwa [hsame]
    · rw [hwoken]
      exact hmoveTo hk fun _ => rfl
  cases h with
  | stay => exact hk
  | go i p q hgo => exact hmoveTo hk fun hi => hgo.aborts.trans (hi ▸ hk)
  | wake i timedOut a hi => exact hwake i timedOut
  | notifyOne i c hi =>
      refine hmoveTo ?_ fun _ => rfl
      rw [Threads.notifyOne]
      cases s.sleeper c.sleeper with
      | none => exact hk
      | some j => exact hwake j false
  | notifyAll i c hi =>
      refine hmoveTo (by simpa [Threads.notifyAll] using hk) fun hik => ?_
      rw [← hik, hi] at hk
      cases hk
  | raise i hi hne => exact absurd ⟨i, _, rfl⟩ he
  | park | leave | store | settle | clear | rewind | finish => exact hmoveTo hk fun _ => rfl

omit [Fintype ι] in
/-- Without calls the aborts and the pushes of the producer stay apart. -/
lemma Apart.next (h : s.Apart producer) (hs : s.WellLocked producer) {e : ThreadEvent ι}
    (he : ¬ Calls e) : ((threadMachine producer).next s e).Apart producer := by
  have hmoves := hs.moves_next e
  rcases h with hquiet | hpush
  · exact .inl fun i => hmoves.aborts_eq he (hquiet i)
  · refine .inr fun b hb => ?_
    rcases hmoves.phase_eq hb (.inr ⟨b, rfl⟩) with hbefore | ⟨q, hgo⟩
    · exact hpush b hbefore
    · obtain ⟨⟨now, hcall⟩, -⟩ := hgo.push b rfl
      exact he ⟨_, _, hcall⟩

/-- Without calls and without wake-ups for no reason an event has no effect, or less is left to
do. -/
lemma work_next (s : Threads ι) {e : ThreadEvent ι} (he : ¬ Calls e) (hw : ¬ EndsSleep e) :
    (threadMachine producer).next s e = s ∨ ((threadMachine producer).next s e).work < s.work := by
  cases e with
  | call i c => exact absurd ⟨i, c, rfl⟩ he
  | spuriousWake i => exact absurd ⟨i, rfl⟩ hw
  | step i c => exact (step_cases producer s i c).imp_left And.left
  | timeout i =>
      change s.wake i true = s ∨ (s.wake i true).work < s.work
      rcases s.wake_cases i true with ⟨hsame, -⟩ | ⟨a, hparked, hwoken⟩
      · exact .inl hsame
      · rw [hwoken]
        exact .inr (work_moveTo_lt rfl (by rw [hparked]; exact Nat.lt_succ_self _))
  | exit i =>
      change (s.act producer (.exit i)).1 = s ∨ (s.act producer (.exit i)).1.work < s.work
      rw [act]
      split_ifs with hidle
      · exact .inr (work_moveTo_lt rfl (by rw [hidle]; exact Nat.lt_succ_self _))
      · exact .inl rfl

omit [Fintype ι] in
/-- A step leaves the other threads that are awake where they are. -/
lemma phase_step_of_ne (s : Threads ι) {i k : ι} (hik : i ≠ k) (hawake : ∀ a, s.phase i ≠ .parked a)
    (c : StepChoice) : (s.step producer k c).1.phase i = s.phase i := by
  have hmoveTo : ∀ {r : Threads ι} {p}, r.phase i = s.phase i →
      (r.moveTo k p).phase i = s.phase i := fun hr => (phase_moveTo_of_ne _ hik _).trans hr
  rw [step]
  cases s.phase k with
  | idle | exited | parked => rfl
  | readLock | waitRelock | rewindLock =>
      rw [stepFrom, lockMutex]
      split_ifs
      · exact hmoveTo rfl
      · rfl
  | copyLock | pushLock | clearLock | rewindLockWrite | abortLock | destroyLock =>
      rw [stepFrom, lockWMutex]
      split_ifs
      · exact hmoveTo rfl
      · rfl
  | readGuards | waitCheck | copying =>
      rw [stepFrom]
      split_ifs <;> exact hmoveTo rfl
  | abortJoin | destroyJoin =>
      rw [stepFrom]
      by_cases hexited : s.phase producer = .exited
      · rw [if_pos hexited]
        exact hmoveTo rfl
      · rw [if_neg hexited]
  | pushNotify => exact hmoveTo (s.phase_notifyOne_of_awake _ hawake)
  | abortNotify =>
      refine hmoveTo ?_
      rw [notifyAll]
      dsimp only
      cases hphase : s.phase i with
      | parked a => exact absurd hphase (hawake a)
      | _ => rfl
  | waitPark | throttled | pushStore | pushUnlock | clearing | rewinding | destroyExit
  | destroyUnlock => exact hmoveTo rfl

omit [Fintype ι] in
/-- The end of a sleep leaves the threads that are awake where they are. -/
lemma phase_wake_of_awake (s : Threads ι) {i : ι} (hawake : ∀ a, s.phase i ≠ .parked a) (k : ι)
    (timedOut : Bool) : (s.wake k timedOut).phase i = s.phase i := by
  rcases s.wake_cases k timedOut with ⟨hsame, -⟩ | ⟨a, hparked, hwoken⟩
  · rw [hsame]
  · have hik : i ≠ k := by
      rintro rfl
      exact hawake a hparked
    rw [hwoken, phase_moveTo_of_ne _ hik]

omit [Fintype ι] in
/-- Without calls a thread inside the pool that is awake stays where it is up to its next step. -/
lemma phase_next_of_awake {i : ι} (hawake : ∀ a, s.phase i ≠ .parked a)
    (hinside : s.phase i ≠ .idle) {e : ThreadEvent ι} (he : ¬ Calls e)
    (hstep : ∀ c, e ≠ .step i c) :
    ((threadMachine producer).next s e).phase i = s.phase i := by
  cases e with
  | call k c => exact absurd ⟨k, c, rfl⟩ he
  | timeout k => exact s.phase_wake_of_awake hawake k true
  | spuriousWake k => exact s.phase_wake_of_awake hawake k false
  | exit k =>
      change (s.act producer (.exit k)).1.phase i = _
      rw [act]
      split_ifs with hidle
      · refine phase_moveTo_of_ne _ ?_ _
        rintro rfl
        exact hinside hidle
      · rfl
  | step k c =>
      refine s.phase_step_of_ne ?_ hawake c
      rintro rfl
      exact hstep c rfl

omit [Fintype ι] in
/-- An abort that has met a push of the producer does so for ever. -/
lemma AbortMeetsPush.next (h : s.AbortMeetsPush producer) (hs : s.WellLocked producer)
    {e : ThreadEvent ι} (he : ¬ Calls e) :
    ((threadMachine producer).next s e).AbortMeetsPush producer := by
  have hmeets := h
  obtain ⟨⟨j, hj⟩, b, hb⟩ := h
  have howner : s.mWMutex = some j := (hs.wMutex j).mp (by rw [hj]; rfl)
  -- neither of the two can take its step
  have habort : ∀ c, (s.step producer j c).1 = s := by
    intro c
    rw [step, hj, stepFrom, if_neg (by simp [hb])]
  have hpush : ∀ c, (s.step producer producer c).1 = s := by
    intro c
    rw [step, hb, stepFrom, lockWMutex, if_neg (by simp [howner])]
  by_cases hstep : ∃ c, e = .step j c ∨ e = .step producer c
  · have hsame : (threadMachine producer).next s e = s := by
      obtain ⟨c, rfl | rfl⟩ := hstep
      · exact habort c
      · exact hpush c
    rwa [hsame]
  · simp only [not_exists, not_or] at hstep
    refine ⟨⟨j, ?_⟩, b, ?_⟩
    · exact (phase_next_of_awake (by simp [hj]) (by simp [hj]) he fun c => (hstep c).1).trans hj
    · exact (phase_next_of_awake (by simp [hb]) (by simp [hb]) he fun c => (hstep c).2).trans hb

omit [Fintype ι] in
/-- Without calls the threads that are outside stay there. -/
lemma Returned.next (h : s.Returned) {e : ThreadEvent ι} (he : ¬ Calls e) :
    ((threadMachine producer).next s e).Returned := by
  have hawake : ∀ i a, s.phase i ≠ .parked a := by
    intro i a hparked
    rcases h i with hi | hi <;>
    · rw [hi] at hparked
      cases hparked
  intro k
  cases e with
  | call i c => exact absurd ⟨i, c, rfl⟩ he
  | timeout i =>
      change (s.wake i true).phase k = _ ∨ (s.wake i true).phase k = _
      rw [s.phase_wake_of_awake (hawake k)]
      exact h k
  | spuriousWake i =>
      change (s.wake i false).phase k = _ ∨ (s.wake i false).phase k = _
      rw [s.phase_wake_of_awake (hawake k)]
      exact h k
  | exit i =>
      change (s.act producer (.exit i)).1.phase k = _ ∨ (s.act producer (.exit i)).1.phase k = _
      rw [act]
      split_ifs
      · rw [phase_moveTo]
        split_ifs
        · exact .inr rfl
        · exact h k
      · exact h k
  | step i c =>
      change (s.step producer i c).1.phase k = _ ∨ (s.step producer i c).1.phase k = _
      rw [step]
      rcases h i with hi | hi <;>
      · rw [hi]
        exact h k

end Threads

end StreamFs
