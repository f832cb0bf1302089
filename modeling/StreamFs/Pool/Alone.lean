import StreamFs.Pool.Threads

/-!
The operations of the threads and those of the pool: an operation that a thread runs with no other
thread at work does what the function of the pool of the same name does.

* `Leads`: a list of events, the results of the reads in it, and the state after it.
* `pushBuffer_alone`, `clear_alone`, `clearToLastRead_alone`, `read_alone`: the operations. A read
  that has to wait goes to sleep, and the timer of its wait runs out.
-/

namespace StreamFs

/-- The thread that an event is one of. -/
def ThreadEvent.thread {ι : Type*} : ThreadEvent ι → ι
  | .call i _ | .step i _ | .timeout i | .spuriousWake i | .exit i => i

namespace Threads

variable {ι : Type*} [DecidableEq ι] {producer i : ι} {s s' t : Threads ι}

/-- The events take the threads from `s` to `t` and return the results `rs`. -/
structure Leads (producer : ι) (s : Threads ι) (es : List (ThreadEvent ι)) (rs : List ReadResult)
    (t : Threads ι) : Prop where
  run : (threadMachine producer).run s es = t
  outputs : ((threadMachine producer).outputs s es).reduceOption = rs

/-- Thread `i` is outside of the pool, and so are the owners of both mutexes. -/
structure Alone (s : Threads ι) (i : ι) : Prop where
  idle : s.phase i = .idle
  mutex : s.mMutex = none
  wMutex : s.mWMutex = none
  awake : i ∉ s.mNotEnoughBytes

omit [DecidableEq ι] in
/-- Each thread of a new pool is alone. -/
lemma alone_fresh (C : PoolCapacity) (i : ι) : (fresh C).Alone i :=
  ⟨rfl, rfl, rfl, List.not_mem_nil⟩

lemma Leads.nil (producer : ι) (s : Threads ι) : Leads producer s [] [] s := ⟨rfl, rfl⟩

/-- A step that returns nothing. -/
lemma Leads.step {e : ThreadEvent ι} {es : List (ThreadEvent ι)} {rs : List ReadResult}
    (h : s.act producer e = (s', none)) (hes : Leads producer s' es rs t) :
    Leads producer s (e :: es) rs t := by
  have hnext : (threadMachine producer).next s e = s' := congrArg Prod.fst h
  have hout : (threadMachine producer).output s e = none := congrArg Prod.snd h
  refine ⟨?_, ?_⟩
  · rw [Machine.run_cons, hnext, hes.run]
  · rw [Machine.outputs, hout, hnext, List.reduceOption_cons_of_none, hes.outputs]

/-- The step that returns the result of a read. -/
lemma Leads.result {e : ThreadEvent ι} {r : ReadResult} (h : s.act producer e = (t, some r)) :
    Leads producer s [e] [r] t := by
  have hnext : (threadMachine producer).next s e = t := congrArg Prod.fst h
  have hout : (threadMachine producer).output s e = some r := congrArg Prod.snd h
  refine ⟨hnext, ?_⟩
  rw [Machine.outputs, hout, List.reduceOption_cons_of_some]
  rfl

/-- While both mutexes are free of other threads, the last phase decides who owns them. -/
lemma moveTo_moveTo (hm : s.mMutex = none) (hw : s.mWMutex = none) (p q : ThreadPhase) :
    (s.moveTo i p).moveTo i q = s.moveTo i q := by
  have howner : ∀ b c, owner (owner none i b) i c = owner none i c := by
    intro b c
    cases b <;> cases c <;> simp [owner]
  simp only [moveTo, hm, hw, howner, Function.update_idem]

lemma mMutex_moveTo_of_none (hm : s.mMutex = none) {p : ThreadPhase} (hp : p.holdsMutex = false) :
    (s.moveTo i p).mMutex = none := by
  simp [moveTo, owner, hm, hp]

lemma mWMutex_moveTo_of_none (hw : s.mWMutex = none) {p : ThreadPhase}
    (hp : p.holdsWMutex = false) : (s.moveTo i p).mWMutex = none := by
  simp [moveTo, owner, hw, hp]

/-- The step of a thread that has gone on to phase `p`. -/
lemma act_step_moveTo (s : Threads ι) (i : ι) (p : ThreadPhase) (c : StepChoice) :
    (s.moveTo i p).act producer (.step i c) = (s.moveTo i p).stepFrom producer i c p := by
  rw [act, Threads.step, phase_moveTo_self]

/-- A thread that is alone takes `m_mutex`. -/
lemma lockMutex_moveTo (hm : s.mMutex = none) (hw : s.mWMutex = none) {p : ThreadPhase}
    (hp : p.holdsMutex = false) (q : ThreadPhase) :
    (s.moveTo i p).lockMutex i q = s.moveTo i q := by
  rw [lockMutex, if_pos (mMutex_moveTo_of_none hm hp), moveTo_moveTo hm hw]

/-- A thread that is alone takes `m_w_mutex`. -/
lemma lockWMutex_moveTo (hm : s.mMutex = none) (hw : s.mWMutex = none) {p : ThreadPhase}
    (hp : p.holdsWMutex = false) (q : ThreadPhase) :
    (s.moveTo i p).lockWMutex i q = s.moveTo i q := by
  rw [lockWMutex, if_pos (mWMutex_moveTo_of_none hw hp), moveTo_moveTo hm hw]

/-- A thread that is alone goes on with another pool. -/
lemma moveTo_with (hm : s.mMutex = none) (hw : s.mWMutex = none) (p q : ThreadPhase)
    (b : BufferPool) (c : Settled) (j : Option ι) :
    { s.moveTo i p with pool := b, settled := c, abortedBy := j }.moveTo i q
      = { s with pool := b, settled := c, abortedBy := j }.moveTo i q :=
  moveTo_moveTo (s := { s with pool := b, settled := c, abortedBy := j }) hm hw p q

/-- A thread that is outside of the pool calls an operation it may call. -/
lemma act_call (h : s.Alone i) {c : PoolCall} (hc : i = producer → c.isPush) :
    s.act producer (.call i c) = s.call i c := by
  rw [act, if_pos ⟨h.idle, hc⟩]

/-- **`clear`, run alone.** -/
theorem clear_alone (h : s.Alone i) (hi : i ≠ producer) :
    Leads producer s (.call i .clear :: steps i 2) []
      ({ s with pool := s.pool.clear, settled := ⟨0, false⟩ }.moveTo i .idle) := by
  have hcall : s.act producer (.call i .clear) = (s.moveTo i .clearLock, none) :=
    act_call h fun hp => absurd hp hi
  have hlock : (s.moveTo i .clearLock).act producer (.step i {})
      = (s.moveTo i .clearing, none) := by
    rw [act_step_moveTo, stepFrom, lockWMutex_moveTo h.mutex h.wMutex rfl]
  have hclear : (s.moveTo i .clearing).act producer (.step i {})
      = ({ s with pool := s.pool.clear, settled := ⟨0, false⟩ }.moveTo i .idle, none) := by
    rw [act_step_moveTo, stepFrom]
    exact congrArg (·, none) (moveTo_with h.mutex h.wMutex _ _ _ _ _)
  exact .step hcall (.step hlock (.step hclear (.nil _ _)))

/-- **`clearToLastRead`, run alone.** -/
theorem clearToLastRead_alone (h : s.Alone i) (hi : i ≠ producer) :
    ∃ t, Leads producer s (.call i .clearToLastRead :: steps i 3) [] t
      ∧ t.pool = s.pool.clearToLastRead ∧ t.phase i = .idle := by
  have hcall : s.act producer (.call i .clearToLastRead) = (s.moveTo i .rewindLock, none) :=
    act_call h fun hp => absurd hp hi
  have hlock : (s.moveTo i .rewindLock).act producer (.step i {})
      = (s.moveTo i .rewindLockWrite, none) := by
    rw [act_step_moveTo, stepFrom, lockMutex_moveTo h.mutex h.wMutex rfl]
  have hlockWrite : (s.moveTo i .rewindLockWrite).act producer (.step i {})
      = (s.moveTo i .rewinding, none) := by
    rw [act_step_moveTo, stepFrom, lockWMutex_moveTo h.mutex h.wMutex rfl]
  refine ⟨_, .step hcall (.step hlock (.step hlockWrite
    (.step (act_step_moveTo s i .rewinding {}) (.nil _ _)))), rfl, ?_⟩
  exact phase_moveTo_self _ i .idle

/-- **`pushBuffer`, run alone.** -/
theorem pushBuffer_alone (h : s.Alone i) (hexit : s.pool.exitPending = false) (b : PushArgs)
    (now : ℕ) :
    ∃ t, Leads producer s (.call i (.pushBuffer b now) :: steps i 4) [] t
      ∧ t.pool = s.pool.pushBuffer b now ∧ t.phase i = .idle := by
  have hcall : s.act producer (.call i (.pushBuffer b now))
      = ({ s with pool := { s.pool with
          mThrottle := s.pool.mThrottle.registerTimePeriod now } }.moveTo i (.pushLock b),
        none) := by
    rw [act_call h fun _ => rfl, call, if_neg (by simp [hexit])]
  let r : Threads ι := { s with pool := { s.pool with
    mThrottle := s.pool.mThrottle.registerTimePeriod now } }
  have hlock : (r.moveTo i (.pushLock b)).act producer (.step i {})
      = (r.moveTo i (.pushStore b), none) := by
    rw [act_step_moveTo, stepFrom, lockWMutex_moveTo (s := r) h.mutex h.wMutex rfl]
  let q : Threads ι := { r with pool := r.pool.storeChunk b }
  have hstore : (r.moveTo i (.pushStore b)).act producer (.step i {})
      = (q.moveTo i .pushNotify, none) := by
    rw [act_step_moveTo, stepFrom]
    exact congrArg (·, none) (moveTo_with (s := r) h.mutex h.wMutex _ _ _ _ _)
  refine ⟨_, .step hcall (.step hlock (.step hstore (.step (act_step_moveTo q i .pushNotify {})
    (.step (act_step_moveTo _ i .pushUnlock {}) (.nil _ _))))), ?_, ?_⟩
  · rw [BufferPool.pushBuffer_eq_storeChunk s.pool hexit]
    simp [q, r]
  · exact phase_moveTo_self _ i .idle

/-! ### Reads -/

/-- Thread `i` gets the result `r` by events of its own, which leave the pool `p`. -/
def Answers (producer i : ι) (s : Threads ι) (r : ReadResult) (p : BufferPool) : Prop :=
  ∃ es t, (∀ e ∈ es, e.thread = i) ∧ Leads producer s es [r] t ∧ t.pool = p ∧ t.phase i = .idle

variable {r : ReadResult} {p : BufferPool}

lemma Answers.step {e : ThreadEvent ι} (he : e.thread = i) (h : s.act producer e = (s', none))
    (hs : s'.Answers producer i r p) : s.Answers producer i r p := by
  obtain ⟨es, t, hes, hleads, hpool, hidle⟩ := hs
  exact ⟨e :: es, t, List.forall_mem_cons.mpr ⟨he, hes⟩, hleads.step h, hpool, hidle⟩

lemma Answers.result {e : ThreadEvent ι} (he : e.thread = i) (h : s.act producer e = (t, some r))
    (hpool : t.pool = p) (hidle : t.phase i = .idle) : s.Answers producer i r p :=
  ⟨[e], t, List.forall_mem_singleton.mpr he, .result h, hpool, hidle⟩

/-- The copy block, run alone. -/
lemma finishRead_alone (hm : s.mMutex = none) (hw : s.mWMutex = none) (a : ReadArgs)
    (loop : LoopProgress) :
    (s.moveTo i (.copyLock a)).Answers producer i (s.pool.finishRead a loop).1
      (s.pool.finishRead a loop).2 := by
  have hlock : (s.moveTo i (.copyLock a)).act producer (.step i {})
      = (s.moveTo i (.copying a), none) := by
    rw [act_step_moveTo, stepFrom, lockWMutex_moveTo hm hw rfl]
  refine .step rfl hlock ?_
  rw [BufferPool.finishRead]
  by_cases hempty : s.pool.getSize = 0
  · rw [if_pos hempty]
    have hreturn : (s.moveTo i (.copying a)).act producer (.step i {})
        = (s.moveTo i .idle, some .nothing) := by
      rw [act_step_moveTo, stepFrom, pool_moveTo, if_pos hempty, moveTo_moveTo hm hw]
    exact .result rfl hreturn rfl (phase_moveTo_self s i .idle)
  · rw [if_neg hempty]
    let c := s.pool.copyLoop a
    let q : Threads ι := { s with pool := c.pool }
    have hcopy : (s.moveTo i (.copying a)).act producer (.step i {})
        = (q.moveTo i (.throttled ⟨toSizeT c.off, c.copies⟩), none) := by
      rw [act_step_moveTo, stepFrom, pool_moveTo, if_neg hempty]
      exact congrArg (·, none) (moveTo_with hm hw _ _ _ _ _)
    exact .step rfl hcopy (.result rfl (act_step_moveTo q i _ ⟨0, loop⟩) rfl
      (phase_moveTo_self _ i .idle))

/-- The timer of a wait runs out: the sleeper is where it was, but for its phase. -/
lemma wake_park (hm : s.mMutex = none) (hw : s.mWMutex = none) (hi : i ∉ s.mNotEnoughBytes)
    (a : ReadArgs) :
    ((s.moveTo i (.waitPark a)).park i a).wake i true = s.moveTo i (.waitRelock a true) := by
  have hlist : (s.mNotEnoughBytes ++ [i]).erase i = s.mNotEnoughBytes := by
    rw [List.erase_append_right _ hi, List.erase_cons_head, List.append_nil]
  rw [wake, park, phase_moveTo_self]
  simp [moveTo, hlist, hm, hw, owner, ThreadPhase.holdsMutex, ThreadPhase.holdsWMutex]

/-- A wait whose predicate stays false, run alone, ends with the timer. -/
lemma timeout_alone (h : s.Alone i) {a : ReadArgs} (hready : ¬ s.pool.readReady a) :
    (s.moveTo i (.waitCheck a false)).Answers producer i .nothing s.pool := by
  have hcheck : (s.moveTo i (.waitCheck a false)).act producer (.step i {})
      = (s.moveTo i (.waitPark a), none) := by
    rw [act_step_moveTo, stepFrom, pool_moveTo, if_neg hready, if_neg Bool.false_ne_true,
      moveTo_moveTo h.mutex h.wMutex]
  have hpark : (s.moveTo i (.waitPark a)).act producer (.step i {})
      = ((s.moveTo i (.waitPark a)).park i a, none) := by
    rw [act_step_moveTo, stepFrom]
  have htimeout : ((s.moveTo i (.waitPark a)).park i a).act producer (.timeout i)
      = (s.moveTo i (.waitRelock a true), none) := by
    rw [act, wake_park h.mutex h.wMutex h.awake]
  have hrelock : (s.moveTo i (.waitRelock a true)).act producer (.step i {})
      = (s.moveTo i (.waitCheck a true), none) := by
    rw [act_step_moveTo, stepFrom, lockMutex_moveTo h.mutex h.wMutex rfl]
  have hreturn : (s.moveTo i (.waitCheck a true)).act producer (.step i {})
      = (s.moveTo i .idle, some .nothing) := by
    rw [act_step_moveTo, stepFrom, pool_moveTo, if_neg hready, if_pos rfl,
      moveTo_moveTo h.mutex h.wMutex]
  exact .step rfl hcheck (.step rfl hpark (.step rfl htimeout (.step rfl hrelock
    (.result rfl hreturn rfl (phase_moveTo_self s i .idle)))))

/-- A read that has to wait, run alone. -/
lemma wait_alone (h : s.Alone i) {a : ReadArgs} (hrefuse : ¬ (s.pool.refuses a).isSome)
    (hwait : s.pool.mustWait a) (loop : LoopProgress) :
    (s.moveTo i (.waitCheck a false)).Answers producer i (s.pool.read a loop).1
      (s.pool.read a loop).2 := by
  rw [BufferPool.read, if_neg hrefuse, if_pos hwait]
  by_cases hready : s.pool.readReady a
  · rw [if_pos hready]
    by_cases habort : s.pool.mAborting = true
    · rw [if_pos habort]
      let q : Threads ι := { s with pool := s.pool.leaveWait a, abortedBy := none }
      have hleave : (s.moveTo i (.waitCheck a false)).act producer (.step i {})
          = (q.moveTo i .idle, some .nothing) := by
        rw [act_step_moveTo, stepFrom, pool_moveTo, if_pos hready, if_pos habort]
        exact congrArg (·, some ReadResult.nothing) (moveTo_with h.mutex h.wMutex _ _ _ _ _)
      exact .result rfl hleave rfl (phase_moveTo_self q i .idle)
    · rw [if_neg habort]
      let q : Threads ι := { s with pool := s.pool.leaveWait a }
      have hgo : (s.moveTo i (.waitCheck a false)).act producer (.step i {})
          = (q.moveTo i (.copyLock a), none) := by
        rw [act_step_moveTo, stepFrom, pool_moveTo, if_pos hready, if_neg habort]
        exact congrArg (·, none) (moveTo_with h.mutex h.wMutex _ _ _ _ _)
      exact .step rfl hgo (finishRead_alone (s := q) h.mutex h.wMutex a loop)
  · rw [if_neg hready]
    exact timeout_alone h hready

/-- **`read`, run alone.** -/
theorem read_alone (h : s.Alone i) (hi : i ≠ producer) (a : ReadArgs) (loop : LoopProgress) :
    s.Answers producer i (s.pool.read a loop).1 (s.pool.read a loop).2 := by
  have hcall : s.act producer (.call i (.read a))
      = if s.pool.exitPending then (s, some .nothing) else (s.moveTo i (.readLock a), none) :=
    act_call h fun hp => absurd hp hi
  by_cases hexit : s.pool.exitPending = true
  · rw [if_pos hexit] at hcall
    have hrefuse : (s.pool.refuses a).isSome := by
      rw [BufferPool.refuses, if_pos hexit]
      rfl
    rw [BufferPool.read, if_pos hrefuse]
    exact .result rfl hcall rfl h.idle
  · rw [if_neg hexit] at hcall
    have hguards : s.pool.guards a = s.pool.refuses a := by
      rw [BufferPool.guards, ← Bool.eq_false_of_not_eq_true hexit]
    have hlock : (s.moveTo i (.readLock a)).act producer (.step i {})
        = (s.moveTo i (.readGuards a), none) := by
      rw [act_step_moveTo, stepFrom, lockMutex_moveTo h.mutex h.wMutex rfl]
    refine .step rfl hcall (.step rfl hlock ?_)
    by_cases hrefuse : (s.pool.refuses a).isSome
    · rw [BufferPool.read, if_pos hrefuse]
      have hreturn : (s.moveTo i (.readGuards a)).act producer (.step i {})
          = (s.moveTo i .idle, some .nothing) := by
        rw [act_step_moveTo, stepFrom, pool_moveTo, hguards, if_pos hrefuse,
          moveTo_moveTo h.mutex h.wMutex]
      exact .result rfl hreturn rfl (phase_moveTo_self s i .idle)
    · by_cases hwait : s.pool.mustWait a
      · have hgo : (s.moveTo i (.readGuards a)).act producer (.step i {})
            = (s.moveTo i (.waitCheck a false), none) := by
          rw [act_step_moveTo, stepFrom, pool_moveTo, hguards, if_neg hrefuse, if_pos hwait,
            moveTo_moveTo h.mutex h.wMutex]
        exact .step rfl hgo (wait_alone h hrefuse hwait loop)
      · have hgo : (s.moveTo i (.readGuards a)).act producer (.step i {})
            = (s.moveTo i (.copyLock a), none) := by
          rw [act_step_moveTo, stepFrom, pool_moveTo, hguards, if_neg hrefuse, if_neg hwait,
            moveTo_moveTo h.mutex h.wMutex]
        rw [BufferPool.read, if_neg hrefuse, if_neg hwait]
        exact .step rfl hgo (finishRead_alone h.mutex h.wMutex a loop)

end Threads

end StreamFs
