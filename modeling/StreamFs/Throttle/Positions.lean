import StreamFs.Throttle.Atomics

/-!
The bounds of the positions `mPos` and `mThrottleIndex`.

A registration that rotates a full ring tests each position for `0 <` and decrements it in a
separate step. It holds `mMutexTimePeriodBuffer`, and the reader stores the positions under
`mMutexSetReadPosition`: a store of `0` between the test and the decrement makes the decrement wrap
around.

* `PositionPhase.carries`: the position a reader has loaded, or been given, and will store.
* `KeepsPositive`: the step does not store `0` where a registration is about to decrement.
* `Bounded`: the positions, and the ones the reader carries, are inside of the ring, the index one
  further at most; a position about to be decremented is positive.
* `positions_le_run`: in a run of such steps the positions never leave the ring.
-/

namespace StreamFs

/-- The position the reader stores next, or has loaded to store. -/
def PositionPhase.carries : PositionPhase → Option ℕ
  | setPos pos | startStore pos | seekStore pos | aheadStore pos => some pos
  | _ => none

/-- The reader stores `mThrottleIndex` next. -/
def PositionPhase.storesIndex : PositionPhase → Option ℕ
  | startStore pos | seekStore pos | aheadStore pos => some pos
  | _ => none

/-- The registration decrements `mThrottleIndex` next. -/
def BufferPhase.decIndex : BufferPhase → Bool
  | indexDec _ => true
  | _ => false

/-- The registration decrements `mPos` next. -/
def BufferPhase.decPos : BufferPhase → Bool
  | posDec _ => true
  | _ => false

/-- The loop has fetched the period at `mThrottleIndex`, and will increment it. -/
def LoopPhase.advances : LoopPhase → Bool
  | fetchRead | sleeping _ => true
  | _ => false

namespace ThrottleThreads

/-- The step does not store `0` to a position between its test and its decrement. -/
def KeepsPositive (t : Transition ThrottleThreads ThrottleEvent (Option ℕ)) : Prop :=
  match t.event with
  | .stepReader =>
      (t.before.reader = .setPos 0 → t.before.buffer.decPos = false) ∧
        (t.before.reader.storesIndex = some 0 → t.before.buffer.decIndex = false)
  | _ => True

instance (t : Transition ThrottleThreads ThrottleEvent (Option ℕ)) : Decidable (KeepsPositive t) :=
  match t with
  | ⟨_, .stepReader, _, _⟩ => inferInstanceAs (Decidable (_ ∧ _))
  | ⟨_, .setReadPosition _, _, _⟩ | ⟨_, .wait, _, _⟩ | ⟨_, .registerTimePeriod _, _, _⟩
  | ⟨_, .clear, _, _⟩ | ⟨_, .clearToLastRead, _, _⟩ | ⟨_, .enableThrottling _, _, _⟩
  | ⟨_, .stepBuffer, _, _⟩ | ⟨_, .stepLoop, _, _⟩ | ⟨_, .wakeReader, _, _⟩
  | ⟨_, .wakeLoop, _, _⟩ | ⟨_, .timeoutLoop, _, _⟩ => .isTrue trivial

/-- The positions are inside of the ring of capacity `C`. -/
structure Bounded (C : ℕ) (s : ThrottleThreads) : Prop where
  capacity : s.throttle.mTimePeriodBuffer.capacity = C
  pos_lt : s.throttle.mPos < C
  index_le : s.throttle.mThrottleIndex ≤ C
  carried_lt : ∀ pos ∈ s.reader.carries, pos < C
  advances_lt : s.loop.advances → s.throttle.mThrottleIndex < C
  index_pos : s.buffer.decIndex → 0 < s.throttle.mThrottleIndex
  pos_pos : s.buffer.decPos → 0 < s.throttle.mPos

variable {s s' : ThrottleThreads} {C : ℕ}

lemma bounded_create (C : PoolCapacity) : (create C.val).Bounded C.val where
  capacity := rfl
  pos_lt := C.one_le
  index_le := Nat.zero_le _
  carried_lt := by simp [create, PositionPhase.carries]
  advances_lt := by simp [create, LoopPhase.advances]
  index_pos := by simp [create, BufferPhase.decIndex]
  pos_pos := by simp [create, BufferPhase.decPos]

/-- A step that stores no position. -/
lemma Bounded.of_same (hs : s.Bounded C)
    (hring : s'.throttle.mTimePeriodBuffer.capacity = s.throttle.mTimePeriodBuffer.capacity)
    (hpos : s'.throttle.mPos = s.throttle.mPos)
    (hindex : s'.throttle.mThrottleIndex = s.throttle.mThrottleIndex)
    (hcarried : ∀ pos ∈ s'.reader.carries, pos = s.throttle.mPos ∨ pos ∈ s.reader.carries)
    (hadvances : s'.loop.advances → s.throttle.mThrottleIndex < C)
    (hdecIndex : s'.buffer.decIndex → 0 < s.throttle.mThrottleIndex)
    (hdecPos : s'.buffer.decPos → 0 < s.throttle.mPos) : s'.Bounded C where
  capacity := hring.trans hs.capacity
  pos_lt := hpos ▸ hs.pos_lt
  index_le := hindex ▸ hs.index_le
  carried_lt pos h := (hcarried pos h).elim (fun h => h ▸ hs.pos_lt) (hs.carried_lt pos)
  advances_lt h := hindex ▸ hadvances h
  index_pos h := hindex ▸ hdecIndex h
  pos_pos h := hpos ▸ hdecPos h

/-- The reader stores `mThrottleIndex`. -/
lemma Bounded.storeIndex (hs : s.Bounded C) {pos : ℕ} {p : PositionPhase}
    (hpos : s.reader.storesIndex = some pos) (hp : p.carries = none)
    (hkeeps : s.reader.storesIndex = some 0 → s.buffer.decIndex = false) :
    Bounded C { s with
      throttle := { s.throttle with mThrottleIndex := pos }, reader := p } := by
  have hlt : pos < C := hs.carried_lt pos (by
    cases h : s.reader <;> simp_all [PositionPhase.storesIndex, PositionPhase.carries])
  refine ⟨hs.capacity, hs.pos_lt, hlt.le, by simp [hp], fun _ => hlt, fun h => ?_, hs.pos_pos⟩
  rcases Nat.eq_zero_or_pos pos with rfl | hpositive
  · exact absurd (hkeeps hpos) (by simp [h])
  · exact hpositive

theorem Bounded.stepReader (hs : s.Bounded C)
    (hkeeps : KeepsPositive (throttleMachine.transition s .stepReader)) :
    s.stepReader.Bounded C := by
  obtain ⟨hkeepsPos, hkeepsIndex⟩ := hkeeps
  rw [ThrottleThreads.stepReader]
  cases h : s.reader with
  | idle => exact hs
  | asleep => exact hs
  | setPos pos =>
      refine ⟨hs.capacity, hs.carried_lt pos (by rw [h]; rfl), hs.index_le,
        by simp [PositionPhase.carries], hs.advances_lt, hs.index_pos, fun hdec => ?_⟩
      rcases Nat.eq_zero_or_pos pos with rfl | hpositive
      · exact absurd (hkeepsPos h) (by simpa [Machine.transition] using hdec)
      · exact hpositive
  | startStore pos => exact hs.storeIndex (by rw [h]; rfl) rfl hkeepsIndex
  | seekStore pos => exact hs.storeIndex (by rw [h]; rfl) rfl hkeepsIndex
  | aheadStore pos => exact hs.storeIndex (by rw [h]; rfl) rfl hkeepsIndex
  | countAhead =>
      have hkept : s.throttle.countReadAhead.mTimePeriodBuffer.capacity
          = s.throttle.mTimePeriodBuffer.capacity ∧
        s.throttle.countReadAhead.mPos = s.throttle.mPos ∧
        s.throttle.countReadAhead.mThrottleIndex = s.throttle.mThrottleIndex := by
        rw [BufferPoolThrottle.countReadAhead]
        split <;> exact ⟨rfl, rfl, rfl⟩
      obtain ⟨hring, hpos, hindex⟩ := hkept
      dsimp only
      split_ifs <;>
        exact hs.of_same hring hpos hindex (by simp [PositionPhase.carries]) hs.advances_lt
          hs.index_pos hs.pos_pos
  | startNotify =>
      dsimp only
      split_ifs
      · exact hs
      · exact hs.of_same rfl rfl rfl (by simp [PositionPhase.carries]) hs.advances_lt hs.index_pos
          hs.pos_pos
  | startSignal =>
      refine hs.of_same rfl rfl rfl (by simp [PositionPhase.carries]) (fun hadvances => ?_)
        hs.index_pos hs.pos_pos
      by_cases hasleep : s.loop = .startAsleep
      · simp [hasleep, LoopPhase.advances] at hadvances
      · exact hs.advances_lt (by simpa [hasleep] using hadvances)
  | check status =>
      dsimp only
      split_ifs <;>
        exact hs.of_same rfl rfl rfl (by simp [PositionPhase.carries]) hs.advances_lt hs.index_pos
          hs.pos_pos
  | _ =>
      dsimp only
      exact hs.of_same rfl rfl rfl (by (repeat' split) <;> simp [PositionPhase.carries])
        hs.advances_lt hs.index_pos hs.pos_pos

/-- The holder of the period buffer goes on and stores no position. -/
lemma Bounded.buffer (hs : s.Bounded C) {p : BufferPhase}
    (hindex : p.decIndex → 0 < s.throttle.mThrottleIndex) (hpos : p.decPos → 0 < s.throttle.mPos)
    (registered : Bool) :
    Bounded C { s with buffer := p, mCvTimePeriodRegistered := registered } :=
  hs.of_same rfl rfl rfl (fun _ h => .inr h) hs.advances_lt hindex hpos

theorem Bounded.stepBuffer (hs : s.Bounded C) (hC : 0 < C) : s.stepBuffer.Bounded C := by
  rw [ThrottleThreads.stepBuffer]
  cases h : s.buffer with
  | free => exact hs
  | indexTest time =>
      dsimp only
      split_ifs with hpositive
      · exact hs.buffer (fun _ => hpositive) (by simp [BufferPhase.decPos]) _
      · exact hs.buffer (by simp [BufferPhase.decIndex]) (by simp [BufferPhase.decPos]) _
  | indexDec time =>
      have hpositive := hs.index_pos (by rw [h]; rfl)
      have hdec : subU64 s.throttle.mThrottleIndex 1 = s.throttle.mThrottleIndex - 1 :=
        subU64_of_le hpositive
      have hle := hs.index_le
      refine ⟨hs.capacity, hs.pos_lt, ?_, hs.carried_lt, fun hadvances => ?_,
        by simp [BufferPhase.decIndex], by simp [BufferPhase.decPos]⟩
      · simp only [hdec]
        omega
      · have hlt := hs.advances_lt hadvances
        simp only [hdec]
        omega
  | posTest time =>
      dsimp only
      split_ifs with hpositive
      · exact hs.buffer (by simp [BufferPhase.decIndex]) (fun _ => hpositive) _
      · exact hs.buffer (by simp [BufferPhase.decIndex]) (by simp [BufferPhase.decPos]) _
  | posDec time =>
      have hpositive := hs.pos_pos (by rw [h]; rfl)
      have hdec : subU64 s.throttle.mPos 1 = s.throttle.mPos - 1 := subU64_of_le hpositive
      have hlt := hs.pos_lt
      refine ⟨hs.capacity, ?_, hs.index_le, hs.carried_lt, hs.advances_lt,
        by simp [BufferPhase.decIndex], by simp [BufferPhase.decPos]⟩
      simp only [hdec]
      omega
  | push time =>
      exact hs.of_same rfl rfl rfl (fun _ h => .inr h) hs.advances_lt
        (by simp [BufferPhase.decIndex]) (by simp [BufferPhase.decPos])
  | notify =>
      dsimp only
      split_ifs
      · exact hs
      · exact hs.buffer (by simp [BufferPhase.decIndex]) (by simp [BufferPhase.decPos]) _
  | signal =>
      refine hs.of_same rfl rfl rfl (fun _ h => .inr h) (fun hadvances => ?_)
        (by simp [BufferPhase.decIndex]) (by simp [BufferPhase.decPos])
      by_cases hasleep : s.loop = .dataAsleep
      · simp [hasleep, LoopPhase.advances] at hadvances
      · exact hs.advances_lt (by simpa [hasleep] using hadvances)
  | storeIndex b =>
      refine ⟨hs.capacity, hs.pos_lt, hC.le, hs.carried_lt, fun _ => hC, fun hdec => ?_,
        fun hdec => ?_⟩ <;>
        cases b <;> simp [BufferPhase.decIndex, BufferPhase.decPos] at hdec
  | storePos =>
      exact ⟨hs.capacity, hC, hs.index_le, hs.carried_lt, hs.advances_lt,
        by simp [BufferPhase.decIndex], by simp [BufferPhase.decPos]⟩
  | _ =>
      exact hs.of_same rfl rfl rfl (fun _ h => .inr h) hs.advances_lt
        (by simp [BufferPhase.decIndex]) (by simp [BufferPhase.decPos])

/-- The loop goes on and stores no position. -/
lemma Bounded.loop (hs : s.Bounded C) {p : LoopPhase} {t : BufferPoolThrottle} {n k : ℕ}
    {changed registered start : Bool} (ht : t.mTimePeriodBuffer = s.throttle.mTimePeriodBuffer ∧
      t.mPos = s.throttle.mPos ∧ t.mThrottleIndex = s.throttle.mThrottleIndex)
    (hp : p.advances → s.throttle.mThrottleIndex < C) :
    Bounded C { s with
      throttle := t, loop := p, mIdleCount := n, mLastPosIdle := k, mCvStartThrottle := start
      mCvThrottleChanged := changed, mCvTimePeriodRegistered := registered } :=
  hs.of_same (by rw [ht.1]) ht.2.1 ht.2.2 (fun _ h => .inr h) hp hs.index_pos hs.pos_pos

/-- The loop notifies the reader. -/
lemma Bounded.notifyChanged (hs : s.Bounded C) {p : LoopPhase} (hp : p.advances = false) :
    (s.notifyChanged p).Bounded C := by
  rw [ThrottleThreads.notifyChanged]
  split_ifs
  · exact hs
  · exact hs.loop ⟨rfl, rfl, rfl⟩ (by simp [hp])

/-- The loop signals the reader. -/
lemma Bounded.signalChanged (hs : s.Bounded C) {p : LoopPhase} (hp : p.advances = false) :
    (s.signalChanged p).Bounded C := by
  refine hs.of_same rfl rfl rfl (fun pos hpos => .inr ?_)
    (by simp [ThrottleThreads.signalChanged, hp])
    hs.index_pos hs.pos_pos
  by_cases hasleep : s.reader = .asleep
  · simp [ThrottleThreads.signalChanged, hasleep, PositionPhase.carries] at hpos
  · simpa [ThrottleThreads.signalChanged, hasleep] using hpos

theorem Bounded.stepLoop (hs : s.Bounded C) (hC : C < 2 ^ 64) : s.stepLoop.1.Bounded C := by
  rw [ThrottleThreads.stepLoop]
  cases h : s.loop with
  | startAsleep => exact hs
  | dataAsleep => exact hs
  | fetchTest =>
      dsimp only
      split_ifs with hfree hindex
      · have hsize := s.throttle.mTimePeriodBuffer.size_le
        rw [hs.capacity] at hsize
        exact hs.loop ⟨rfl, rfl, rfl⟩ (fun _ => hindex.trans_le hsize)
      · exact hs.loop ⟨rfl, rfl, rfl⟩ (by simp [LoopPhase.advances])
      · exact hs
  | fetchRead => exact hs.loop ⟨rfl, rfl, rfl⟩ (fun _ => hs.advances_lt (by rw [h]; rfl))
  | sleeping time =>
      have hlt := hs.advances_lt (by rw [h]; rfl)
      have hinc : addU64 s.throttle.mThrottleIndex 1 = s.throttle.mThrottleIndex + 1 :=
        addU64_of_lt (by omega)
      refine ⟨hs.capacity, hs.pos_lt, ?_, hs.carried_lt, by simp [LoopPhase.advances], fun _ => ?_,
        hs.pos_pos⟩ <;>
        simp only [hinc] <;> omega
  | startCheck =>
      dsimp only
      split_ifs <;> exact hs.loop ⟨rfl, rfl, rfl⟩ (by simp [LoopPhase.advances])
  | changedNotify => exact hs.notifyChanged rfl
  | changedSignal => exact hs.signalChanged rfl
  | dataCheck status timedOut =>
      dsimp only
      split_ifs <;> exact hs.loop ⟨rfl, rfl, rfl⟩ (by simp [LoopPhase.advances])
  | dataStop =>
      exact hs.loop (t := { s.throttle with mThrottleRunning := false }) ⟨rfl, rfl, rfl⟩
        (by simp [LoopPhase.advances])
  | dataNotify => exact hs.notifyChanged rfl
  | dataSignal => exact hs.signalChanged rfl
  | idleTest =>
      dsimp only
      split_ifs
      · exact hs.loop (t := { s.throttle with mThrottleRunning := false }) ⟨rfl, rfl, rfl⟩
          (by simp [LoopPhase.advances])
      · exact hs.loop ⟨rfl, rfl, rfl⟩ (by simp [LoopPhase.advances])
  | idleNotify => exact hs.notifyChanged rfl
  | idleSignal => exact hs.signalChanged rfl
  | _ => exact hs.loop ⟨rfl, rfl, rfl⟩ (by (repeat' split) <;> simp [LoopPhase.advances])

lemma Bounded.wakeReader (hs : s.Bounded C) : s.wakeReader.Bounded C := by
  rw [ThrottleThreads.wakeReader]
  split_ifs
  · exact hs.of_same rfl rfl rfl (by simp [PositionPhase.carries]) hs.advances_lt hs.index_pos
      hs.pos_pos
  · exact hs

lemma Bounded.wakeLoop (hs : s.Bounded C) (timedOut : Bool) :
    (s.wakeLoop timedOut).Bounded C := by
  rw [ThrottleThreads.wakeLoop]
  cases h : s.loop with
  | startAsleep =>
      dsimp only
      split_ifs
      · exact hs
      · exact hs.loop ⟨rfl, rfl, rfl⟩ (by simp [LoopPhase.advances])
  | dataAsleep => exact hs.loop ⟨rfl, rfl, rfl⟩ (by simp [LoopPhase.advances])
  | _ => exact hs

/-- **Where no `0` is stored between a test and its decrement, the positions stay inside of the
ring.** -/
theorem Bounded.next (hs : s.Bounded C) (hC : 0 < C ∧ C < 2 ^ 64) (e : ThrottleEvent)
    (hpos : ∀ pos, e = .setReadPosition pos → pos < C)
    (hkeeps : KeepsPositive (throttleMachine.transition s e)) :
    (throttleMachine.next s e).Bounded C := by
  rw [Machine.next, throttleMachine]
  cases e with
  | setReadPosition pos =>
      simp only [act]
      split_ifs with h
      · refine ⟨hs.capacity, hs.pos_lt, hs.index_le, fun pos' hpos' => ?_, hs.advances_lt,
          hs.index_pos, hs.pos_pos⟩
        obtain rfl : pos = pos' := by simpa [PositionPhase.carries] using hpos'
        exact hpos pos rfl
      · exact hs
  | wait =>
      simp only [act]
      split_ifs with h
      · exact hs.of_same rfl rfl rfl (by simp [PositionPhase.carries]) hs.advances_lt hs.index_pos
          hs.pos_pos
      · exact hs
  | registerTimePeriod now =>
      simp only [act]
      split_ifs
      · exact hs.of_same rfl rfl rfl (fun _ h => .inr h) hs.advances_lt
          (by dsimp only [callRegister]; split <;> simp [BufferPhase.decIndex])
          (by dsimp only [callRegister]; split <;> simp [BufferPhase.decPos])
      · exact hs
  | clear =>
      simp only [act]
      split_ifs with h
      · exact hs.of_same rfl rfl rfl (fun _ h => .inr h) hs.advances_lt
          (by simp [callClear, BufferPhase.decIndex]) (by simp [callClear, BufferPhase.decPos])
      · exact hs
  | clearToLastRead =>
      simp only [act, callClearToLastRead]
      split_ifs with h
      · exact hs
      · exact hs.of_same rfl rfl rfl (fun _ h => .inr h) hs.advances_lt
          (by simp [BufferPhase.decIndex]) (by simp [BufferPhase.decPos])
      · exact hs.of_same rfl rfl rfl (fun _ h => .inr h) hs.advances_lt
          (by simp [BufferPhase.decIndex]) (by simp [BufferPhase.decPos])
      · exact hs
  | enableThrottling enable =>
      exact hs.of_same rfl rfl rfl (fun _ h => .inr h) hs.advances_lt hs.index_pos hs.pos_pos
  | stepReader => exact hs.stepReader hkeeps
  | stepBuffer => exact hs.stepBuffer hC.1
  | stepLoop => exact hs.stepLoop hC.2
  | wakeReader => exact hs.wakeReader
  | wakeLoop => exact hs.wakeLoop false
  | timeoutLoop => exact hs.wakeLoop true

/-- **In a run that stores no `0` between a test and its decrement, the positions never leave the
ring.** -/
theorem positions_le_run (C : PoolCapacity) (es : List ThrottleEvent)
    (hpos : ∀ pos, .setReadPosition pos ∈ es → pos < C.val)
    (hkeeps : ∀ t ∈ throttleMachine.trace (create C.val) es, KeepsPositive t) :
    (throttleMachine.run (create C.val) es).throttle.mPos ≤ C.val ∧
      (throttleMachine.run (create C.val) es).throttle.mThrottleIndex ≤ C.val := by
  have hrun := Machine.invariant_run_of (I := Bounded C.val)
    (Q := fun t =>
      (∀ pos, t.event = ThrottleEvent.setReadPosition pos → pos < C.val) ∧ KeepsPositive t)
    (fun _ e hs hstep => hs.next ⟨C.one_le, C.lt⟩ e hstep.1 hstep.2) (bounded_create C) es
    fun t ht => ⟨fun pos h => hpos pos (h ▸ throttleMachine.event_mem_of_mem_trace ht), hkeeps t ht⟩
  exact ⟨hrun.pos_lt.le, hrun.index_le⟩

/-- A registration that finds the ring not full. -/
def registration (now : ℕ) : List ThrottleEvent :=
  .registerTimePeriod now :: List.replicate 3 .stepBuffer

theorem positions_le_run_rotation :
    (throttleMachine.run (create 2) (registration 0 ++ registration 900 ++
      [.setReadPosition 1, .stepReader, .registerTimePeriod 1800, .stepBuffer, .stepBuffer,
        .stepBuffer, .setReadPosition 0, .stepReader])).throttle.mPos ≤ 2 ∧
    (throttleMachine.run (create 2) (registration 0 ++ registration 900 ++
      [.setReadPosition 1, .stepReader, .registerTimePeriod 1800, .stepBuffer, .stepBuffer,
        .stepBuffer, .setReadPosition 0, .stepReader])).throttle.mThrottleIndex ≤ 2 :=
  positions_le_run (.ofNat 2) _
    (fun pos h => by
      simp [registration] at h
      obtain rfl | rfl := h <;> decide)
    (by decide +kernel)

/-- A full ring of two periods, read at its newest chunk: a registration finds `mPos` positive, a
seek to the oldest chunk stores `0`, and the registration decrements it. -/
theorem mPos_wraps_seek_to_oldest :
    (throttleMachine.run (create 2) (registration 0 ++ registration 900 ++
      [.setReadPosition 1, .stepReader, .registerTimePeriod 1800, .stepBuffer, .stepBuffer,
        .setReadPosition 0, .stepReader, .stepBuffer])).throttle.mPos = 2 ^ 64 - 1 := by
  decide +kernel

end ThrottleThreads

end StreamFs
