import StreamFs.Throttle.Atomics

/-!
The operations of the throttle step by step and as a whole: an operation on the period buffer that
no other thread interrupts does what the method of `BufferPoolThrottle` of the same name does.

* `Settles`: steps of the holder of the period buffer alone, up to its release.
* `registerTimePeriod_alone`, `clear_alone`, `clearToLastRead_alone`, `setReadPosition_alone`: the
  operations.
-/

namespace StreamFs

namespace ThrottleThreads

variable {s : ThrottleThreads} {t : BufferPoolThrottle}

/-- Steps of the holder of the period buffer alone release it and leave the throttle `t`. -/
def Settles (s : ThrottleThreads) (t : BufferPoolThrottle) : Prop :=
  ∃ n, (throttleMachine.run s (List.replicate n .stepBuffer)).throttle = t
    ∧ (throttleMachine.run s (List.replicate n .stepBuffer)).buffer = .free

lemma settles_of_free (h : s.buffer = .free) : s.Settles s.throttle := ⟨0, rfl, h⟩

lemma Settles.step (h : s.stepBuffer.Settles t) : s.Settles t := by
  obtain ⟨n, hthrottle, hfree⟩ := h
  exact ⟨n + 1, hthrottle, hfree⟩

/-! ### Registrations, from the last step to the first -/

lemma settles_signal (h : s.buffer = .signal) : s.Settles s.throttle := by
  refine .step ?_
  rw [stepBuffer, h]
  exact settles_of_free rfl

/-- The loop is not in the way of the notification. -/
lemma settles_notify (h : s.buffer = .notify) (hloop : s.loop.holdsRegistered = false) :
    s.Settles s.throttle := by
  refine .step ?_
  rw [stepBuffer, h]
  dsimp only
  rw [if_neg (by simp [hloop])]
  exact settles_signal rfl

lemma settles_push {time : ℕ} (h : s.buffer = .push time)
    (hloop : s.loop.holdsRegistered = false) :
    s.Settles { s.throttle with
      mTimePeriodBuffer := s.throttle.mTimePeriodBuffer.pushBack time } := by
  refine .step ?_
  rw [stepBuffer, h]
  exact settles_notify rfl hloop

lemma settles_posTest {time : ℕ} (h : s.buffer = .posTest time)
    (hloop : s.loop.holdsRegistered = false) :
    s.Settles { s.throttle with
      mPos := if 0 < s.throttle.mPos then s.throttle.mPos - 1 else s.throttle.mPos
      mTimePeriodBuffer := s.throttle.mTimePeriodBuffer.pushBack time } := by
  refine .step ?_
  rw [stepBuffer, h]
  dsimp only
  by_cases hpos : 0 < s.throttle.mPos
  · rw [if_pos hpos, if_pos hpos]
    refine .step ?_
    rw [stepBuffer]
    dsimp only
    rw [subU64_of_le hpos]
    exact settles_push rfl hloop
  · rw [if_neg hpos, if_neg hpos]
    exact settles_push rfl hloop

lemma settles_indexTest {time : ℕ} (h : s.buffer = .indexTest time)
    (hloop : s.loop.holdsRegistered = false) :
    s.Settles { s.throttle with
      mThrottleIndex := if 0 < s.throttle.mThrottleIndex then s.throttle.mThrottleIndex - 1
        else s.throttle.mThrottleIndex
      mPos := if 0 < s.throttle.mPos then s.throttle.mPos - 1 else s.throttle.mPos
      mTimePeriodBuffer := s.throttle.mTimePeriodBuffer.pushBack time } := by
  refine .step ?_
  rw [stepBuffer, h]
  dsimp only
  by_cases hindex : 0 < s.throttle.mThrottleIndex
  · rw [if_pos hindex, if_pos hindex]
    refine .step ?_
    rw [stepBuffer]
    dsimp only
    rw [subU64_of_le hindex]
    exact settles_posTest rfl hloop
  · rw [if_neg hindex, if_neg hindex]
    exact settles_posTest rfl hloop

/-- **`registerTimePeriod`, run alone.** -/
theorem registerTimePeriod_alone (hfree : s.BufferFree) (hloop : s.loop.holdsRegistered = false)
    (now : ℕ) :
    (throttleMachine.next s (.registerTimePeriod now)).Settles
      (s.throttle.registerTimePeriod now) := by
  have hcall : throttleMachine.next s (.registerTimePeriod now) = s.callRegister now :=
    if_pos hfree
  rw [hcall, callRegister, BufferPoolThrottle.registerTimePeriod,
    BufferPoolThrottle.compensateRotation]
  by_cases hfull : s.throttle.mTimePeriodBuffer.size = s.throttle.mTimePeriodBuffer.capacity
  · rw [if_pos hfull, if_pos hfull]
    exact settles_indexTest rfl hloop
  · rw [if_neg hfull, if_neg hfull]
    exact settles_push rfl hloop

/-! ### Clearing -/

lemma settles_storeRunning (h : s.buffer = .storeRunning) :
    s.Settles { s.throttle with mThrottleRunning := false } := by
  refine .step ?_
  rw [stepBuffer, h]
  exact settles_of_free rfl

/-- **`clear`, run alone.** -/
theorem clear_alone (hfree : s.BufferFree) (hreader : s.reader.inWait = false) :
    (throttleMachine.next s .clear).Settles s.throttle.clear := by
  have hcall : throttleMachine.next s .clear = s.callClear := if_pos ⟨hfree, hreader⟩
  rw [hcall]
  exact .step (.step (.step (.step (settles_storeRunning rfl))))

/-- **`clearToLastRead`, run alone.** -/
theorem clearToLastRead_alone (hfree : s.BufferFree) (hreader : s.reader.inWait = false) :
    (throttleMachine.next s .clearToLastRead).Settles s.throttle.clearToLastRead := by
  have hcall : throttleMachine.next s .clearToLastRead = s.callClearToLastRead :=
    if_pos ⟨hfree, hreader⟩
  rw [hcall, callClearToLastRead, BufferPoolThrottle.clearToLastRead]
  dsimp only
  by_cases hempty : s.throttle.mTimePeriodBuffer.size = 0
  · rw [if_pos hempty, if_pos hempty]
    exact settles_of_free hfree.1
  · rw [if_neg hempty, if_neg hempty]
    exact .step (.step (settles_storeRunning rfl))

/-- **`setReadPosition`, run alone.** -/
theorem setReadPosition_alone (hreader : s.reader = .idle) (pos : ℕ) :
    throttleMachine.run s [.setReadPosition pos, .stepReader]
      = { s with throttle := s.throttle.setReadPosition pos } := by
  have hcall : throttleMachine.next s (.setReadPosition pos) = { s with reader := .setPos pos } :=
    if_pos hreader
  have hstep : throttleMachine.next { s with reader := .setPos pos } .stepReader
      = { s with throttle := s.throttle.setReadPosition pos, reader := .idle } := rfl
  rw [Machine.run_cons, hcall, Machine.run_singleton, hstep, ← hreader]

end ThrottleThreads

end StreamFs
