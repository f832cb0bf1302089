import StreamFs.Throttle.Positions

/-!
The order in which the loop plays the periods back.

The loop fetches the period at `mThrottleIndex`, sleeps it, and increments the index. A registration
that rotates the full ring decrements the index, to keep it at the same chunk, but not below `0`: at
`0` the index comes to designate the next chunk, and the increment behind a sleep passes that chunk
by.

* `designated`: the chunk that `mThrottleIndex` designates.
* `nextChunk`: the chunk whose period the loop fetches next. A registration that has decremented the
  index but not yet rotated the ring, and a sleep that ends with the increment, count one each.
* `Reinitialises`: the step stores a new index, or is a clear.
* `StartsClean`, `KeepsDesignated`: the state after a store of the index outside of a sleep and of
  a rotation; a rotation that finds the index positive.
* `nextChunk_next`: the loop fetches `nextChunk` and raises it by one, and no other step changes it.
* `playsInOrder_run`: between two stores of the index the loop fetches consecutive chunks.
-/

namespace StreamFs

/-- The registration has found the ring full and not yet rotated it. -/
def BufferPhase.rotates : BufferPhase → Bool
  | indexTest _ | indexDec _ | posTest _ | posDec _ => true
  | _ => false

/-- The registration has not yet pushed its period. -/
def BufferPhase.registers : BufferPhase → Bool
  | indexTest _ | indexDec _ | posTest _ | posDec _ | push _ => true
  | _ => false

/-- The registration tests `mThrottleIndex` next. -/
def BufferPhase.testsIndex : BufferPhase → Bool
  | indexTest _ => true
  | _ => false

/-- The phases of the clears before their store of the index. -/
def BufferPhase.storesIndex : BufferPhase → Bool
  | storeIndex _ => true
  | _ => false

namespace ThrottleThreads

/-- The chunk that `mThrottleIndex` designates. -/
def designated (s : ThrottleThreads) : ℕ := s.evicted + s.throttle.mThrottleIndex

/-- `1` where a registration has decremented the index and will rotate the ring. -/
def pending (s : ThrottleThreads) : ℕ :=
  match s.buffer with
  | .posTest _ | .posDec _ => 1
  | .push _ =>
      if s.throttle.mTimePeriodBuffer.size = s.throttle.mTimePeriodBuffer.capacity then 1 else 0
  | _ => 0

/-- `1` where the loop sleeps, or is about to increment the index. -/
def slept (s : ThrottleThreads) : ℕ :=
  match s.loop with
  | .sleeping _ => 1
  | _ => 0

/-- The chunk whose period the loop fetches next. -/
def nextChunk (s : ThrottleThreads) : ℕ := s.designated + s.pending + s.slept

/-- The periods that the loop fetches are those of consecutive chunks, from the one that the index
designates on. -/
def PlaysInOrder (s : ThrottleThreads) (es : List ThrottleEvent) : Prop :=
  ∃ n, (throttleMachine.outputs s es).reduceOption = List.range' s.designated n

/-- The step (re)initialises the index. -/
def Reinitialises (t : Transition ThrottleThreads ThrottleEvent (Option ℕ)) : Prop :=
  match t.event with
  | .stepReader => t.before.reader.storesIndex ≠ none
  | .stepBuffer => t.before.buffer.storesIndex
  | .clear | .clearToLastRead => True
  | _ => False

instance (t : Transition ThrottleThreads ThrottleEvent (Option ℕ)) : Decidable (Reinitialises t) :=
  match t with
  | ⟨_, .stepReader, _, _⟩ => inferInstanceAs (Decidable (_ ≠ _))
  | ⟨_, .stepBuffer, _, _⟩ => inferInstanceAs (Decidable (_ = true))
  | ⟨_, .clear, _, _⟩ | ⟨_, .clearToLastRead, _, _⟩ => .isTrue trivial
  | ⟨_, .setReadPosition _, _, _⟩ | ⟨_, .wait, _, _⟩ | ⟨_, .registerTimePeriod _, _, _⟩
  | ⟨_, .enableThrottling _, _, _⟩ | ⟨_, .stepLoop, _, _⟩ | ⟨_, .wakeReader, _, _⟩
  | ⟨_, .wakeLoop, _, _⟩ | ⟨_, .timeoutLoop, _, _⟩ => .isFalse id

/-- The state is not one inside of a sleep of the loop or between the decrement and the rotation of
a registration; an index about to be read is inside of the ring, and one about to be decremented is
positive. -/
structure StartsClean (s : ThrottleThreads) : Prop where
  slept : s.slept = 0
  pending : s.pending = 0
  fetch : s.loop = .fetchRead → s.throttle.mThrottleIndex < s.throttle.mTimePeriodBuffer.size
  dec : s.buffer.decIndex → 0 < s.throttle.mThrottleIndex

/-- A rotation finds the index positive. -/
def KeepsDesignated (t : Transition ThrottleThreads ThrottleEvent (Option ℕ)) : Prop :=
  t.event = .stepBuffer → t.before.buffer.testsIndex → 0 < t.before.throttle.mThrottleIndex

instance (t : Transition ThrottleThreads ThrottleEvent (Option ℕ)) :
    Decidable (KeepsDesignated t) :=
  inferInstanceAs (Decidable (_ → _))

/-! ### What a step can do -/

/-- The states agree on the ring, and on the phases that turn it or read it. -/
structure SameTurn (s s' : ThrottleThreads) : Prop where
  ring : s'.throttle.mTimePeriodBuffer = s.throttle.mTimePeriodBuffer
  evicted : s'.evicted = s.evicted
  buffer : s'.buffer = s.buffer ∨
    s.buffer ≠ .free ∧ s.buffer.registers = false ∧ s'.buffer.registers = false
  loop : s'.loop = s.loop ∨ s.loop.advances = false ∧ s'.loop.advances = false

/-- The states agree on the index as well. -/
structure Quiet (s s' : ThrottleThreads) : Prop extends SameTurn s s' where
  index : s'.throttle.mThrottleIndex = s.throttle.mThrottleIndex

variable {s s' : ThrottleThreads} {C : ℕ}

lemma Quiet.refl (s : ThrottleThreads) : s.Quiet s := ⟨⟨rfl, rfl, .inl rfl, .inl rfl⟩, rfl⟩

/-- A step of the reader does not touch the ring. -/
lemma sameTurn_stepReader (s : ThrottleThreads) : s.SameTurn s.stepReader := by
  rw [stepReader]
  cases hr : s.reader with
  | countAhead =>
      have hkept : s.throttle.countReadAhead.mTimePeriodBuffer = s.throttle.mTimePeriodBuffer := by
        rw [BufferPoolThrottle.countReadAhead]
        split <;> rfl
      dsimp only
      split_ifs <;> exact ⟨hkept, rfl, .inl rfl, .inl rfl⟩
  | startNotify =>
      dsimp only
      split_ifs <;> exact ⟨rfl, rfl, .inl rfl, .inl rfl⟩
  | startSignal =>
      refine ⟨rfl, rfl, .inl rfl, ?_⟩
      by_cases hasleep : s.loop = .startAsleep
      · exact .inr (by simp [hasleep, LoopPhase.advances])
      · exact .inl (by simp [hasleep])
  | check status =>
      dsimp only
      split_ifs <;> exact ⟨rfl, rfl, .inl rfl, .inl rfl⟩
  | _ =>
      dsimp only
      exact ⟨rfl, rfl, .inl rfl, .inl rfl⟩

/-- A step of the reader stores the index in the phases that say so. -/
lemma quiet_stepReader (h : s.reader.storesIndex = none) : s.Quiet s.stepReader := by
  refine ⟨sameTurn_stepReader s, ?_⟩
  rw [stepReader]
  cases hr : s.reader with
  | startStore pos => simp [hr, PositionPhase.storesIndex] at h
  | seekStore pos => simp [hr, PositionPhase.storesIndex] at h
  | aheadStore pos => simp [hr, PositionPhase.storesIndex] at h
  | countAhead =>
      have hkept : s.throttle.countReadAhead.mThrottleIndex = s.throttle.mThrottleIndex := by
        rw [BufferPoolThrottle.countReadAhead]
        split <;> rfl
      dsimp only
      split_ifs <;> exact hkept
  | startNotify | check =>
      dsimp only
      split_ifs <;> rfl
  | jumpLast pos =>
      -- the test of the jump stays folded: it is one of large numbers
      have hkept : ∀ p, ({ s with reader := p } : ThrottleThreads).throttle.mThrottleIndex
          = s.throttle.mThrottleIndex := fun _ => rfl
      exact hkept _
  | _ => dsimp only

/-- The loop notifies or signals the reader. -/
lemma quiet_notifyChanged (h : s.loop.advances = false) {p : LoopPhase} (hp : p.advances = false) :
    s.Quiet (s.notifyChanged p) := by
  rw [notifyChanged]
  split_ifs
  · exact .refl s
  · exact ⟨⟨rfl, rfl, .inl rfl, .inr ⟨h, hp⟩⟩, rfl⟩

/-- **What a step of the loop can do to the playback.** -/
lemma stepLoop_cases (s : ThrottleThreads) :
    (s.Quiet s.stepLoop.1 ∧ s.stepLoop.2 = none) ∨
    (s.loop = .fetchTest ∧ s.buffer = .free ∧
      s.throttle.mThrottleIndex < s.throttle.mTimePeriodBuffer.size ∧
      s.stepLoop = ({ s with loop := .fetchRead }, none)) ∨
    (s.loop = .fetchRead ∧ ∃ time,
      s.stepLoop = ({ s with loop := .sleeping time }, some s.designated)) ∨
    ∃ time, s.loop = .sleeping time ∧ s.stepLoop = ({ s with
      throttle := { s.throttle with mThrottleIndex := addU64 s.throttle.mThrottleIndex 1 }
      loop := .changedNotify }, none) := by
  cases h : s.loop with
  | fetchTest =>
      by_cases hfree : s.buffer = .free
      · by_cases hindex : s.throttle.mThrottleIndex < s.throttle.mTimePeriodBuffer.size
        · exact .inr (.inl ⟨rfl, hfree, hindex, by simp [stepLoop, h, hfree, hindex]⟩)
        · refine .inl ?_
          simp only [stepLoop, h, if_pos hfree, if_neg hindex]
          exact ⟨⟨⟨rfl, rfl, .inl rfl, .inr ⟨by rw [h]; rfl, rfl⟩⟩, rfl⟩, trivial⟩
      · refine .inl ?_
        simp only [stepLoop, h, if_neg hfree]
        exact ⟨.refl s, trivial⟩
  | fetchRead => exact .inr (.inr (.inl ⟨rfl, _, by rw [stepLoop, h]; rfl⟩))
  | sleeping time => exact .inr (.inr (.inr ⟨time, rfl, by rw [stepLoop, h]⟩))
  | changedNotify | dataNotify | idleNotify =>
      refine .inl ?_
      simp only [stepLoop, h]
      exact ⟨quiet_notifyChanged (by rw [h]; rfl) rfl, trivial⟩
  | startCheck | dataCheck | idleTest =>
      refine .inl ?_
      simp only [stepLoop, h]
      split_ifs <;> exact ⟨⟨⟨rfl, rfl, .inl rfl, .inr ⟨by rw [h]; rfl, rfl⟩⟩, rfl⟩, trivial⟩
  | startAsleep | dataAsleep =>
      refine .inl ?_
      simp only [stepLoop, h]
      exact ⟨.refl s, trivial⟩
  | _ =>
      refine .inl ?_
      simp only [stepLoop, h, signalChanged]
      exact ⟨⟨⟨rfl, rfl, .inl rfl, .inr ⟨by rw [h]; rfl, by (repeat' split) <;> rfl⟩⟩, rfl⟩,
        trivial⟩

/-! ### What holds in every state -/

/-- The ring has its capacity, a registration that rotates it has found it full, and the loop reads
it with nobody else at work. -/
structure Locked (C : ℕ) (s : ThrottleThreads) : Prop where
  capacity : s.throttle.mTimePeriodBuffer.capacity = C
  full : s.buffer.rotates → s.throttle.mTimePeriodBuffer.size = C
  apart : s.loop = .fetchRead → s.buffer = .free

lemma locked_create (C : ℕ) : (create C).Locked C where
  capacity := rfl
  full := by simp [create, BufferPhase.rotates]
  apart := by simp [create]

lemma BufferPhase.registers_of_rotates {p : BufferPhase} (h : p.rotates) : p.registers := by
  cases p <;> simp_all [BufferPhase.rotates, BufferPhase.registers]

lemma Locked.of_sameTurn (hs : s.Locked C) (h : s.SameTurn s') : s'.Locked C where
  capacity := by rw [h.ring]; exact hs.capacity
  full hrotates := by
    rw [h.ring]
    rcases h.buffer with hbuffer | ⟨-, -, hout⟩
    · exact hs.full (hbuffer ▸ hrotates)
    · exact absurd (BufferPhase.registers_of_rotates hrotates) (by simp [hout])
  apart hfetch := by
    have hloop : s.loop = .fetchRead := by
      rcases h.loop with hloop | ⟨-, hout⟩
      · rw [← hloop, hfetch]
      · simp [hfetch, LoopPhase.advances] at hout
    rcases h.buffer with hbuffer | ⟨hheld, -⟩
    · rw [hbuffer, hs.apart hloop]
    · exact absurd (hs.apart hloop) hheld

/-- The holder of the period buffer goes on. -/
lemma Locked.buffer (hs : s.Locked C) {p : BufferPhase} {t : BufferPoolThrottle} {n : ℕ}
    (hloop : s.loop ≠ .fetchRead)
    (hcapacity : t.mTimePeriodBuffer.capacity = s.throttle.mTimePeriodBuffer.capacity)
    (hfull : p.rotates → t.mTimePeriodBuffer.size = C) (registered : Bool) :
    Locked C { s with
      throttle := t, buffer := p, evicted := n, mCvTimePeriodRegistered := registered } :=
  ⟨hcapacity.trans hs.capacity, hfull, fun h => absurd h hloop⟩

lemma Locked.stepBuffer (hs : s.Locked C) : s.stepBuffer.Locked C := by
  have hloop : s.buffer ≠ .free → s.loop ≠ .fetchRead := fun h hfetch => h (hs.apart hfetch)
  rw [ThrottleThreads.stepBuffer]
  cases h : s.buffer with
  | free => exact hs
  | indexTest time =>
      exact hs.buffer (hloop (by simp [h])) rfl (fun _ => hs.full (by rw [h]; rfl)) _
  | indexDec time =>
      exact hs.buffer (t := { s.throttle with
        mThrottleIndex := subU64 s.throttle.mThrottleIndex 1 }) (hloop (by simp [h])) rfl
        (fun _ => hs.full (by rw [h]; rfl)) _
  | posTest time =>
      exact hs.buffer (hloop (by simp [h])) rfl (fun _ => hs.full (by rw [h]; rfl)) _
  | signal =>
      refine ⟨hs.capacity, by simp [BufferPhase.rotates], fun hfetch => ?_⟩
      by_cases hasleep : s.loop = .dataAsleep
      · simp [hasleep] at hfetch
      · exact absurd (by simpa [hasleep] using hfetch) (hloop (by simp [h]))
  | notify =>
      dsimp only
      split_ifs
      · exact hs
      · exact hs.buffer (hloop (by simp [h])) rfl (by simp [BufferPhase.rotates]) _
  | posDec time =>
      exact hs.buffer (t := { s.throttle with mPos := subU64 s.throttle.mPos 1 })
        (hloop (by simp [h])) rfl (by simp [BufferPhase.rotates]) _
  | push time =>
      exact hs.buffer (t := { s.throttle with
        mTimePeriodBuffer := s.throttle.mTimePeriodBuffer.pushBack time }) (hloop (by simp [h])) rfl
        (by simp [BufferPhase.rotates]) _
  | storeAhead b =>
      exact hs.buffer (t := { s.throttle with mReadAheadCount := 0 }) (hloop (by simp [h])) rfl
        (by simp [BufferPhase.rotates]) _
  | storeIndex b =>
      exact hs.buffer (t := { s.throttle with mThrottleIndex := 0 }) (hloop (by simp [h])) rfl
        (by cases b <;> simp [BufferPhase.rotates]) _
  | storePos =>
      exact hs.buffer (t := { s.throttle with mPos := 0 }) (hloop (by simp [h])) rfl
        (by simp [BufferPhase.rotates]) _
  | storeLastPos =>
      exact hs.buffer (t := { s.throttle with mLastPos := 0 }) (hloop (by simp [h])) rfl
        (by simp [BufferPhase.rotates]) _
  | storeRunning =>
      exact hs.buffer (t := { s.throttle with mThrottleRunning := false }) (hloop (by simp [h])) rfl
        (by simp [BufferPhase.rotates]) _

lemma Locked.stepLoop (hs : s.Locked C) : s.stepLoop.1.Locked C := by
  rcases s.stepLoop_cases with ⟨h, -⟩ | ⟨-, hfree, -, h⟩ | ⟨-, time, h⟩ | ⟨time, -, h⟩
  · exact hs.of_sameTurn h.toSameTurn
  · rw [h]
    exact ⟨hs.capacity, hs.full, fun _ => hfree⟩
  · rw [h]
    exact ⟨hs.capacity, hs.full, by simp⟩
  · rw [h]
    exact ⟨hs.capacity, hs.full, by simp⟩

/-- A call of `registerTimePeriod`. -/
lemma Locked.callRegister (hs : s.Locked C) (hfree : s.BufferFree) (now : ℕ) :
    (s.callRegister now).Locked C := by
  refine hs.buffer (t := { s.throttle with
    mStopWatchTimer := (s.throttle.mStopWatchTimer.getLapTime now).2 }) hfree.2 rfl ?_ _
  by_cases hfull : s.throttle.mTimePeriodBuffer.size = s.throttle.mTimePeriodBuffer.capacity
  · exact fun _ => hfull.trans hs.capacity
  · simp [hfull, BufferPhase.rotates]

lemma Locked.callClear (hs : s.Locked C) (hfree : s.BufferFree) : s.callClear.Locked C :=
  hs.buffer (t := { s.throttle with
    mTimePeriodBuffer := s.throttle.mTimePeriodBuffer.clear
    mStopWatchTimer := s.throttle.mStopWatchTimer.resetTimer }) hfree.2 rfl
    (by simp [BufferPhase.rotates]) _

lemma Locked.callClearToLastRead (hs : s.Locked C) (hfree : s.BufferFree) :
    s.callClearToLastRead.Locked C := by
  rw [ThrottleThreads.callClearToLastRead]
  split_ifs <;>
    first
      | exact hs
      | exact ⟨hs.capacity, by simp [BufferPhase.rotates], fun h => absurd h hfree.2⟩

/-- The calls and the wakes that touch neither the ring nor the index. -/
lemma quiet_next (s : ThrottleThreads) {e : ThrottleEvent}
    (h : (∃ pos, e = .setReadPosition pos) ∨ e = .wait ∨ (∃ b, e = .enableThrottling b) ∨
      e = .wakeReader ∨ e = .wakeLoop ∨ e = .timeoutLoop) :
    s.Quiet (throttleMachine.next s e) ∧ throttleMachine.output s e = none := by
  have hwake : ∀ timedOut, s.Quiet (s.wakeLoop timedOut) := by
    intro timedOut
    rw [wakeLoop]
    cases hloop : s.loop with
    | startAsleep =>
        dsimp only
        split_ifs
        · exact .refl s
        · exact ⟨⟨rfl, rfl, .inl rfl, .inr ⟨by rw [hloop]; rfl, rfl⟩⟩, rfl⟩
    | dataAsleep => exact ⟨⟨rfl, rfl, .inl rfl, .inr ⟨by rw [hloop]; rfl, rfl⟩⟩, rfl⟩
    | _ => exact .refl s
  simp only [Machine.next, Machine.output, throttleMachine]
  rcases h with ⟨pos, rfl⟩ | rfl | ⟨b, rfl⟩ | rfl | rfl | rfl <;> simp only [act, and_true]
  · split_ifs
    · exact ⟨⟨rfl, rfl, .inl rfl, .inl rfl⟩, rfl⟩
    · exact .refl s
  · split_ifs
    · exact ⟨⟨rfl, rfl, .inl rfl, .inl rfl⟩, rfl⟩
    · exact .refl s
  · exact ⟨⟨rfl, rfl, .inl rfl, .inl rfl⟩, rfl⟩
  · rw [wakeReader]
    split_ifs
    · exact ⟨⟨rfl, rfl, .inl rfl, .inl rfl⟩, rfl⟩
    · exact .refl s
  · exact hwake false
  · exact hwake true

theorem Locked.next (hs : s.Locked C) (e : ThrottleEvent) :
    (throttleMachine.next s e).Locked C := by
  cases e with
  | registerTimePeriod now =>
      simp only [Machine.next, throttleMachine, act]
      split_ifs with hfree
      · exact hs.callRegister hfree now
      · exact hs
  | clear =>
      simp only [Machine.next, throttleMachine, act]
      split_ifs with hfree
      · exact hs.callClear hfree.1
      · exact hs
  | clearToLastRead =>
      simp only [Machine.next, throttleMachine, act]
      split_ifs with hfree
      · exact hs.callClearToLastRead hfree.1
      · exact hs
  | stepReader => exact hs.of_sameTurn (sameTurn_stepReader s)
  | stepBuffer => exact hs.stepBuffer
  | stepLoop => exact hs.stepLoop
  | _ => exact hs.of_sameTurn (s.quiet_next (by simp)).1.toSameTurn

/-! ### Between two stores of the index -/

/-- The index is inside of the ring while the loop is about to increment it, and positive while a
registration is about to decrement it. -/
structure Steady (C : ℕ) (s : ThrottleThreads) : Prop extends Locked C s where
  index_lt : s.loop.advances → s.throttle.mThrottleIndex < C
  index_pos : s.buffer.decIndex → 0 < s.throttle.mThrottleIndex

/-- The step gives out the next chunk and goes on to the one behind it, or neither. -/
def Counts (s s' : ThrottleThreads) (chunk : Option ℕ) : Prop :=
  chunk = none ∧ s'.nextChunk = s.nextChunk ∨
    chunk = some s.nextChunk ∧ s'.nextChunk = s.nextChunk + 1

lemma BufferPhase.registers_of_decIndex {p : BufferPhase} (h : p.decIndex) : p.registers := by
  cases p <;> simp_all [BufferPhase.decIndex, BufferPhase.registers]

lemma pending_of_not_registers (h : s.buffer.registers = false) : s.pending = 0 := by
  rw [pending]
  cases hbuffer : s.buffer <;> simp_all [BufferPhase.registers]

lemma slept_of_not_advances (h : s.loop.advances = false) : s.slept = 0 := by
  rw [slept]
  cases hloop : s.loop <;> simp_all [LoopPhase.advances]

lemma Quiet.nextChunk (h : s.Quiet s') : s'.nextChunk = s.nextChunk := by
  have hpending : s'.pending = s.pending := by
    rcases h.buffer with hbuffer | ⟨-, hout, hout'⟩
    · rw [pending, pending, hbuffer, h.ring]
    · rw [pending_of_not_registers hout, pending_of_not_registers hout']
  have hslept : s'.slept = s.slept := by
    rcases h.loop with hloop | ⟨hout, hout'⟩
    · rw [slept, slept, hloop]
    · rw [slept_of_not_advances hout, slept_of_not_advances hout']
  rw [ThrottleThreads.nextChunk, ThrottleThreads.nextChunk, designated, designated, h.evicted,
    h.index, hpending, hslept]

lemma Steady.of_quiet (hs : s.Steady C) (h : s.Quiet s') : s'.Steady C where
  toLocked := hs.toLocked.of_sameTurn h.toSameTurn
  index_lt hadvances := by
    rw [h.index]
    rcases h.loop with hloop | ⟨-, hout⟩
    · exact hs.index_lt (hloop ▸ hadvances)
    · exact absurd hadvances (by simp [hout])
  index_pos hdec := by
    rw [h.index]
    rcases h.buffer with hbuffer | ⟨-, -, hout⟩
    · exact hs.index_pos (hbuffer ▸ hdec)
    · exact absurd (BufferPhase.registers_of_decIndex hdec) (by simp [hout])

/-- A step of the loop. -/
lemma Steady.stepLoop (hs : s.Steady C) (hC : C < 2 ^ 64) :
    s.stepLoop.1.Steady C ∧ s.Counts s.stepLoop.1 s.stepLoop.2 := by
  have hlocked := hs.toLocked.stepLoop
  rcases s.stepLoop_cases with ⟨h, hout⟩ | ⟨hloop, -, hindex, h⟩ | ⟨hloop, time, h⟩ |
    ⟨time, hloop, h⟩
  · exact ⟨hs.of_quiet h, .inl ⟨hout, h.nextChunk⟩⟩
  · have hsize := s.throttle.mTimePeriodBuffer.size_le
    rw [hs.capacity] at hsize
    rw [h] at hlocked ⊢
    refine ⟨⟨hlocked, fun _ => hindex.trans_le hsize, hs.index_pos⟩, .inl ⟨rfl, ?_⟩⟩
    simp [nextChunk, designated, pending, slept, hloop]
  · have hlt := hs.index_lt (by rw [hloop]; rfl)
    have hfree := hs.apart hloop
    rw [h] at hlocked ⊢
    refine ⟨⟨hlocked, fun _ => hlt, hs.index_pos⟩, .inr ?_⟩
    simp [nextChunk, designated, pending, slept, hloop, hfree]
  · have hlt := hs.index_lt (by rw [hloop]; rfl)
    have hinc : addU64 s.throttle.mThrottleIndex 1 = s.throttle.mThrottleIndex + 1 :=
      addU64_of_lt (by omega)
    rw [h] at hlocked ⊢
    refine ⟨⟨hlocked, by simp [LoopPhase.advances], fun _ => ?_⟩, .inl ⟨rfl, ?_⟩⟩
    · simp [hinc]
    · simp only [nextChunk, designated, pending, slept, hloop, hinc]
      omega

/-- A step of the holder of the period buffer. -/
lemma Steady.stepBuffer (hs : s.Steady C) (hreinit : s.buffer.storesIndex = false)
    (hkeeps : s.buffer.testsIndex → 0 < s.throttle.mThrottleIndex) :
    s.stepBuffer.Steady C ∧ s.stepBuffer.nextChunk = s.nextChunk := by
  have hlocked := hs.toLocked.stepBuffer
  have hquiet : s.Quiet s.stepBuffer →
      s.stepBuffer.Steady C ∧ s.stepBuffer.nextChunk = s.nextChunk :=
    fun h => ⟨hs.of_quiet h, h.nextChunk⟩
  cases h : s.buffer with
  | free => exact hquiet (by simp only [ThrottleThreads.stepBuffer, h]; exact .refl s)
  | indexTest time =>
      have hpositive := hkeeps (by rw [h]; rfl)
      have hstep : s.stepBuffer = { s with buffer := .indexDec time } := by
        simp [ThrottleThreads.stepBuffer, h, hpositive]
      rw [hstep] at hlocked ⊢
      refine ⟨⟨hlocked, hs.index_lt, fun _ => hpositive⟩, ?_⟩
      simp [nextChunk, designated, pending, slept, h]
  | indexDec time =>
      have hpositive := hs.index_pos (by rw [h]; rfl)
      have hdec : subU64 s.throttle.mThrottleIndex 1 = s.throttle.mThrottleIndex - 1 :=
        subU64_of_le hpositive
      simp only [ThrottleThreads.stepBuffer, h] at hlocked ⊢
      refine ⟨⟨hlocked, fun hadvances => ?_, by simp [BufferPhase.decIndex]⟩, ?_⟩
      · have hlt := hs.index_lt hadvances
        simp only [hdec]
        omega
      · simp only [nextChunk, designated, pending, slept, h, hdec]
        omega
  | posTest time =>
      have hfull := (hs.full (by rw [h]; rfl)).trans hs.capacity.symm
      simp only [ThrottleThreads.stepBuffer, h] at hlocked ⊢
      split_ifs at hlocked ⊢ <;>
        refine ⟨⟨hlocked, hs.index_lt, by simp [BufferPhase.decIndex]⟩, ?_⟩ <;>
        simp [nextChunk, designated, pending, slept, h, hfull]
  | posDec time =>
      have hfull := (hs.full (by rw [h]; rfl)).trans hs.capacity.symm
      simp only [ThrottleThreads.stepBuffer, h] at hlocked ⊢
      refine ⟨⟨hlocked, hs.index_lt, by simp [BufferPhase.decIndex]⟩, ?_⟩
      simp [nextChunk, designated, pending, slept, h, hfull]
  | push time =>
      simp only [ThrottleThreads.stepBuffer, h] at hlocked ⊢
      refine ⟨⟨hlocked, hs.index_lt, by simp [BufferPhase.decIndex]⟩, ?_⟩
      simp only [nextChunk, designated, pending, slept, h]
      split_ifs <;> omega
  | notify =>
      refine hquiet ?_
      simp only [ThrottleThreads.stepBuffer, h]
      split_ifs
      · exact .refl s
      · exact ⟨⟨rfl, rfl, .inr ⟨by simp [h], by rw [h]; rfl, rfl⟩, .inl rfl⟩, rfl⟩
  | signal =>
      refine hquiet ?_
      simp only [ThrottleThreads.stepBuffer, h]
      refine ⟨⟨rfl, rfl, .inr ⟨by simp [h], by rw [h]; rfl, rfl⟩, ?_⟩, rfl⟩
      by_cases hasleep : s.loop = .dataAsleep
      · exact .inr (by simp [hasleep, LoopPhase.advances])
      · exact .inl (by simp [hasleep])
  | storeIndex b => simp [h, BufferPhase.storesIndex] at hreinit
  | _ =>
      refine hquiet ?_
      simp only [ThrottleThreads.stepBuffer, h]
      exact ⟨⟨rfl, rfl, .inr ⟨by simp [h], by rw [h]; rfl, rfl⟩, .inl rfl⟩, rfl⟩

/-- A call of `registerTimePeriod`. -/
lemma Steady.callRegister (hs : s.Steady C) (hfree : s.BufferFree) (now : ℕ) :
    (s.callRegister now).Steady C ∧ (s.callRegister now).nextChunk = s.nextChunk := by
  have hlocked := hs.toLocked.callRegister hfree now
  by_cases hfull : s.throttle.mTimePeriodBuffer.size = s.throttle.mTimePeriodBuffer.capacity
  · simp only [ThrottleThreads.callRegister, if_pos hfull] at hlocked ⊢
    refine ⟨⟨hlocked, hs.index_lt, by simp [BufferPhase.decIndex]⟩, ?_⟩
    simp [nextChunk, designated, pending, slept, hfree.1]
  · simp only [ThrottleThreads.callRegister, if_neg hfull] at hlocked ⊢
    refine ⟨⟨hlocked, hs.index_lt, by simp [BufferPhase.decIndex]⟩, ?_⟩
    simp [nextChunk, designated, pending, slept, hfree.1, hfull]

/-- The calls and the wakes that touch neither the ring nor the index. -/
lemma Steady.quiet_next (hs : s.Steady C) {e : ThrottleEvent}
    (h : (∃ pos, e = .setReadPosition pos) ∨ e = .wait ∨ (∃ b, e = .enableThrottling b) ∨
      e = .wakeReader ∨ e = .wakeLoop ∨ e = .timeoutLoop) :
    (throttleMachine.next s e).Steady C ∧
      s.Counts (throttleMachine.next s e) (throttleMachine.output s e) := by
  obtain ⟨hquiet, hout⟩ := ThrottleThreads.quiet_next s h
  exact ⟨hs.of_quiet hquiet, .inl ⟨hout, hquiet.nextChunk⟩⟩

/-- **Between two stores of the index the loop fetches `nextChunk` and raises it by one, and no
other step changes it.** -/
theorem Steady.next (hs : s.Steady C) (hC : C < 2 ^ 64) {e : ThrottleEvent}
    (hsame : ¬ Reinitialises (throttleMachine.transition s e))
    (hkeeps : KeepsDesignated (throttleMachine.transition s e)) :
    (throttleMachine.next s e).Steady C ∧
      s.Counts (throttleMachine.next s e) (throttleMachine.output s e) := by
  cases e with
  | stepReader =>
      have hquiet := s.quiet_stepReader (not_not.mp hsame)
      exact ⟨hs.of_quiet hquiet, .inl ⟨rfl, hquiet.nextChunk⟩⟩
  | stepBuffer =>
      have hstep := hs.stepBuffer (Bool.eq_false_of_not_eq_true hsame) (hkeeps rfl)
      exact ⟨hstep.1, .inl ⟨rfl, hstep.2⟩⟩
  | stepLoop => exact hs.stepLoop hC
  | registerTimePeriod now =>
      simp only [Machine.next, Machine.output, throttleMachine, act]
      split_ifs with hfree
      · have hcall := hs.callRegister hfree now
        exact ⟨hcall.1, .inl ⟨rfl, hcall.2⟩⟩
      · exact ⟨hs, .inl ⟨rfl, rfl⟩⟩
  | clear => exact absurd trivial hsame
  | clearToLastRead => exact absurd trivial hsame
  | _ => exact hs.quiet_next (by simp)

/-- **Between two stores of the index, of which the first falls neither into a sleep nor into a
rotation, the loop plays consecutive chunks, where every rotation finds the index positive.** -/
theorem playsInOrder_run (C : PoolCapacity) (es₁ es₂ : List ThrottleEvent)
    (hstart : (throttleMachine.run (create C.val) es₁).StartsClean)
    (hsame : ∀ t ∈ throttleMachine.trace (throttleMachine.run (create C.val) es₁) es₂,
      ¬ Reinitialises t)
    (hkeeps : ∀ t ∈ throttleMachine.trace (throttleMachine.run (create C.val) es₁) es₂,
      KeepsDesignated t) :
    (throttleMachine.run (create C.val) es₁).PlaysInOrder es₂ := by
  have hlocked := Machine.invariant_run (I := Locked C.val) (fun _ e hs => hs.next e)
    (locked_create C.val) es₁
  have hsteady : (throttleMachine.run (create C.val) es₁).Steady C.val := by
    refine ⟨hlocked, fun hadvances => ?_, hstart.dec⟩
    have hsize := Ring.size_le
      (throttleMachine.run (create C.val) es₁).throttle.mTimePeriodBuffer
    rw [hlocked.capacity] at hsize
    have hslept := hstart.slept
    cases hloop : (throttleMachine.run (create C.val) es₁).loop with
    | fetchRead => exact (hstart.fetch hloop).trans_le hsize
    | sleeping time => simp [slept, hloop] at hslept
    | _ => simp [hloop, LoopPhase.advances] at hadvances
  have hnext : (throttleMachine.run (create C.val) es₁).nextChunk
      = (throttleMachine.run (create C.val) es₁).designated := by
    rw [nextChunk, hstart.pending, hstart.slept]
    rfl
  rw [PlaysInOrder, ← hnext]
  exact Machine.exists_reduceOption_eq_range' (I := Steady C.val)
    (Q := fun t => ¬ Reinitialises t ∧ KeepsDesignated t) nextChunk
    (fun s e hs hstep => (hs.next C.lt hstep.1 hstep.2).1)
    (fun s e hs hstep => (hs.next C.lt hstep.1 hstep.2).2) hsteady es₂
    fun t ht => ⟨hsame t ht, hkeeps t ht⟩

/-- Eleven registrations fill a ring, the loop goes to sleep, and the 31st `wait` of a reader at the
oldest chunk stores the index to start the loop. -/
def untilStart : List ThrottleEvent :=
  (List.range 11).flatMap (fun k => registration (1000 * k)) ++ List.replicate 3 .stepLoop ++
    (List.replicate 29 (.wait :: List.replicate 6 .stepReader)).flatten ++
    .wait :: List.replicate 8 .stepReader ++ .wait :: List.replicate 7 .stepReader

theorem playsInOrder_run_rotation :
    (throttleMachine.run (create 11) untilStart).PlaysInOrder
      (List.replicate 3 .stepReader ++ List.replicate 5 .stepLoop ++
        .registerTimePeriod 11000 :: List.replicate 5 .stepBuffer ++ List.replicate 10 .stepLoop) :=
  playsInOrder_run (.ofNat 11) untilStart _
    ⟨by decide +kernel, by decide +kernel, by decide +kernel, by decide +kernel⟩
    (by decide +kernel) (by decide +kernel)

/-- A registration rotates the ring while the loop sleeps the period of its oldest chunk, the chunk
`0`. The increment behind the sleep passes chunk `1` by, the oldest one in the ring. -/
theorem playsInOrder_fails_rotation_at_zero :
    ∃ s : ThrottleThreads, s = throttleMachine.run (create 11) untilStart ∧ s.StartsClean ∧
      ∃ es : List ThrottleEvent, (∀ t ∈ throttleMachine.trace s es, ¬ Reinitialises t) ∧
        (throttleMachine.run s es).evicted = 1 ∧ ¬ s.PlaysInOrder es := by
  refine ⟨_, rfl, ⟨by decide +kernel, by decide +kernel, by decide +kernel, by decide +kernel⟩,
    List.replicate 3 ThrottleEvent.stepReader ++ List.replicate 4 ThrottleEvent.stepLoop ++
      ThrottleEvent.registerTimePeriod 11000 :: List.replicate 5 ThrottleEvent.stepBuffer ++
        List.replicate 9 ThrottleEvent.stepLoop,
    by decide +kernel, by decide +kernel, ?_⟩
  rintro ⟨n, hn⟩
  have hout : (throttleMachine.outputs (throttleMachine.run (create 11) untilStart)
      (List.replicate 3 ThrottleEvent.stepReader ++ List.replicate 4 ThrottleEvent.stepLoop ++
        ThrottleEvent.registerTimePeriod 11000 :: List.replicate 5 ThrottleEvent.stepBuffer ++
          List.replicate 9 ThrottleEvent.stepLoop)).reduceOption = [0, 2] := by decide +kernel
  have hzero : (throttleMachine.run (create 11) untilStart).designated = 0 := by decide +kernel
  rw [hout, hzero] at hn
  obtain rfl : 2 = n := by simpa using congrArg List.length hn
  exact absurd hn (by decide)

end ThrottleThreads

end StreamFs
