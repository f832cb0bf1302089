import StreamFs.Base.Unsigned
import StreamFs.Base.Ring

/-!
The read throttle (`BufferPoolThrottle.cpp`, `StopWatchTimer.h`): a ring of the periods
between the arrivals of the chunks, kept in step with the ring of the chunks, and the
positions a reader is throttled by.

* `StopWatchTimer.getLapTime`: the time since the previous lap in microseconds, read from a
  clock value `now`.
* `registerTimePeriod`, `setReadPosition`, `wait`, `clear`, `clearToLastRead`: the methods,
  each as a function of the fields it reads and writes. The periods are numbers below `2^32`.
* `LoopProgress`: `throttleLoop` runs on a thread of its own and moves `mThrottleIndex` and
  `mThrottleRunning` while `wait` blocks. `wait` takes their values at the moment the
  blocking ends as an argument; nothing else of the throttle changes under it.
-/

namespace StreamFs

/-! ### The stop watch -/

/-- `StopWatchTimer`: the time of the last lap, in microseconds, and the reset flag. -/
structure StopWatchTimer where
  mResetTimer : Bool
  mLastTime : ℕ
  deriving DecidableEq

namespace StopWatchTimer

/-- A new stop watch. -/
def create : StopWatchTimer := ⟨true, 0⟩

/-- `resetTimer`: the next lap counts as zero. -/
def resetTimer (t : StopWatchTimer) : StopWatchTimer := { t with mResetTimer := true }

/-- `getLapTime`: the lap that ends at `now`, stored in a `uint32_t`. -/
def getLapTime (t : StopWatchTimer) (now : ℕ) : ℕ × StopWatchTimer :=
  let lapTime := if t.mResetTimer then 0 else (((now : ℤ) - t.mLastTime) % 2 ^ 32).toNat
  (lapTime, ⟨false, now⟩)

end StopWatchTimer

/-! ### The throttle -/

/-- `TIME_PERIOD_TRUNCATION_THRESHOLD_US`. -/
def timePeriodTruncationThresholdUs : ℕ := 500

/-- `READ_AHEAD_COUNT`. -/
def readAheadCount : ℕ := 30

/-- `LIVE_POSITION_THRESHOLD_INDEX`. -/
def livePositionThresholdIndex : ℕ := 10

/-- The state of `BufferPoolThrottle` that the calling threads read and write. -/
structure BufferPoolThrottle where
  mTimePeriodBuffer : Ring ℕ
  mStopWatchTimer : StopWatchTimer
  mPos : ℕ
  mLastPos : ℕ
  mEnableThrottling : Bool
  mThrottleRunning : Bool
  mThrottleIndex : ℕ
  mReadAheadCount : ℕ

/-- What `throttleLoop` has left in the fields it shares with a blocked `wait`. -/
structure LoopProgress where
  mThrottleIndex : ℕ
  mThrottleRunning : Bool
  deriving DecidableEq

namespace BufferPoolThrottle

/-- The constructor. -/
def create (preAllocBufSize : ℕ) : BufferPoolThrottle where
  mTimePeriodBuffer := Ring.empty preAllocBufSize
  mStopWatchTimer := StopWatchTimer.create
  mPos := 0
  mLastPos := 0
  mEnableThrottling := true
  mThrottleRunning := false
  mThrottleIndex := 0
  mReadAheadCount := 0

/-- The period registered for a chunk that arrives at `now`: the lap time, reduced by the
truncation threshold and never negative. -/
def timePeriod (t : BufferPoolThrottle) (now : ℕ) : ℕ :=
  let time := (t.mStopWatchTimer.getLapTime now).1
  if time < timePeriodTruncationThresholdUs then 0 else time - timePeriodTruncationThresholdUs

/-- The compensation of a rotation: `mThrottleIndex` and `mPos` move down with the entries,
`mLastPos` does not. -/
def compensateRotation (t : BufferPoolThrottle) : BufferPoolThrottle :=
  if t.mTimePeriodBuffer.size = t.mTimePeriodBuffer.capacity then
    { t with
      mThrottleIndex := if 0 < t.mThrottleIndex then t.mThrottleIndex - 1 else t.mThrottleIndex
      mPos := if 0 < t.mPos then t.mPos - 1 else t.mPos }
  else t

/-- `registerTimePeriod`, called at `now`. -/
def registerTimePeriod (t : BufferPoolThrottle) (now : ℕ) : BufferPoolThrottle :=
  { t.compensateRotation with
    mTimePeriodBuffer := t.mTimePeriodBuffer.pushBack (t.timePeriod now)
    mStopWatchTimer := (t.mStopWatchTimer.getLapTime now).2 }

/-- `setReadPosition`. -/
def setReadPosition (t : BufferPoolThrottle) (pos : ℕ) : BufferPoolThrottle :=
  { t with mPos := pos }

/-- The test of `wait` for a reader that is not throttled: throttling is off, or the read
position is at most the live threshold behind the newest period. -/
def playsLive (t : BufferPoolThrottle) : Bool :=
  !t.mEnableThrottling ||
    subU64 t.mTimePeriodBuffer.size t.mPos ≤ livePositionThresholdIndex

/-- The start of the throttle loop, or the restart of the read-ahead after a jump of the read
position; `abs` is the one on `int`. -/
def startOrSeek (t : BufferPoolThrottle) : BufferPoolThrottle :=
  if !t.mThrottleRunning then
    { t with mThrottleIndex := t.mPos, mThrottleRunning := true }
  else if 10 < (toInt32 (subU64 t.mPos t.mLastPos)).natAbs then
    { t with mReadAheadCount := 0, mThrottleIndex := t.mPos }
  else t

/-- The blocking loop of `wait`: it is entered while the position is not below the index of a
running loop, and left with the progress the loop has made. -/
def blockUntil (t : BufferPoolThrottle) (loop : LoopProgress) : BufferPoolThrottle :=
  if t.mThrottleIndex ≤ t.mPos ∧ t.mThrottleRunning then
    { t with mThrottleIndex := loop.mThrottleIndex, mThrottleRunning := loop.mThrottleRunning }
  else t

/-- `++mReadAheadCount`, up to the read-ahead count. -/
def countReadAhead (t : BufferPoolThrottle) : BufferPoolThrottle :=
  if t.mReadAheadCount < readAheadCount then
    { t with mReadAheadCount := t.mReadAheadCount + 1 }
  else t

/-- The part of `wait` behind the read-ahead counter. -/
def throttle (t : BufferPoolThrottle) (loop : LoopProgress) : BufferPoolThrottle :=
  if readAheadCount < t.mReadAheadCount then t.startOrSeek.blockUntil loop
  else if t.mReadAheadCount = readAheadCount then
    { t with mReadAheadCount := t.mReadAheadCount + 1, mThrottleIndex := t.mPos }
  else t

/-- `wait`. -/
def wait (t : BufferPoolThrottle) (loop : LoopProgress) : BufferPoolThrottle :=
  if t.playsLive then { t with mLastPos := t.mPos, mThrottleRunning := false }
  else
    let t := t.countReadAhead.throttle loop
    { t with mLastPos := t.mPos }

/-- `clear`. -/
def clear (t : BufferPoolThrottle) : BufferPoolThrottle :=
  { t with
    mTimePeriodBuffer := t.mTimePeriodBuffer.clear
    mStopWatchTimer := t.mStopWatchTimer.resetTimer
    mReadAheadCount := 0
    mThrottleIndex := 0
    mPos := 0
    mLastPos := 0
    mThrottleRunning := false }

/-- `clearToLastRead`: the periods behind `mLastPos` are erased. -/
def clearToLastRead (t : BufferPoolThrottle) : BufferPoolThrottle :=
  if t.mTimePeriodBuffer.size = 0 then t
  else
    let numElements := t.mTimePeriodBuffer.size
    { t with
      mTimePeriodBuffer :=
        if t.mLastPos < numElements then
          t.mTimePeriodBuffer.eraseEnd (numElements - t.mLastPos - 1)
        else t.mTimePeriodBuffer
      mStopWatchTimer := t.mStopWatchTimer.resetTimer
      mReadAheadCount := 0
      mThrottleIndex := 0
      mThrottleRunning := false }

/-! ### What the operations do to the positions and the ring -/

section Frames

variable (t : BufferPoolThrottle)

/-- A registration moves the read position down by one exactly where it rotates the ring and
the position is not already `0`. -/
lemma mPos_registerTimePeriod (now : ℕ) :
    (t.registerTimePeriod now).mPos
      = if t.mTimePeriodBuffer.size = t.mTimePeriodBuffer.capacity then t.mPos - 1 else t.mPos := by
  simp only [registerTimePeriod, compensateRotation]
  split
  · by_cases h : 0 < t.mPos
    · simp [h]
    · simp only [h, if_false]; omega
  · rfl

@[simp] lemma mLastPos_registerTimePeriod (now : ℕ) :
    (t.registerTimePeriod now).mLastPos = t.mLastPos := by
  simp only [registerTimePeriod, compensateRotation]
  split <;> rfl

/-- The throttling part of `wait` keeps the ring and the read position. -/
lemma throttle_frame (loop : LoopProgress) :
    (t.throttle loop).mTimePeriodBuffer = t.mTimePeriodBuffer
      ∧ (t.throttle loop).mPos = t.mPos := by
  simp only [throttle, blockUntil, startOrSeek]
  split_ifs <;> exact ⟨rfl, rfl⟩

lemma countReadAhead_frame :
    t.countReadAhead.mTimePeriodBuffer = t.mTimePeriodBuffer
      ∧ t.countReadAhead.mPos = t.mPos := by
  simp only [countReadAhead]
  split_ifs <;> exact ⟨rfl, rfl⟩

/-- `wait` keeps the ring and the read position, and records the position as the last one,
whether it throttles or not. -/
lemma wait_frame (loop : LoopProgress) :
    (t.wait loop).mTimePeriodBuffer = t.mTimePeriodBuffer
      ∧ (t.wait loop).mPos = t.mPos ∧ (t.wait loop).mLastPos = t.mPos := by
  obtain ⟨hb, hp⟩ := t.countReadAhead.throttle_frame loop
  obtain ⟨hb', hp'⟩ := t.countReadAhead_frame
  simp only [wait]
  split
  · exact ⟨rfl, rfl, rfl⟩
  · exact ⟨hb.trans hb', hp.trans hp', hp.trans hp'⟩

/-- `clearToLastRead` in terms of the number of periods it erases. -/
lemma mTimePeriodBuffer_clearToLastRead :
    t.clearToLastRead.mTimePeriodBuffer
      = t.mTimePeriodBuffer.eraseEnd (t.mTimePeriodBuffer.size - t.mLastPos - 1) := by
  simp only [clearToLastRead]
  split_ifs with h0 hlt
  · rw [h0, Nat.zero_sub, Nat.zero_sub, Ring.eraseEnd_zero]
  · rfl
  · have hzero : t.mTimePeriodBuffer.size - t.mLastPos - 1 = 0 := by omega
    rw [hzero, Ring.eraseEnd_zero]

/-- `clearToLastRead` keeps both positions. -/
lemma clearToLastRead_frame :
    t.clearToLastRead.mPos = t.mPos ∧ t.clearToLastRead.mLastPos = t.mLastPos := by
  simp only [clearToLastRead]
  split_ifs <;> exact ⟨rfl, rfl⟩

end Frames

end BufferPoolThrottle

end StreamFs
