import StreamFs.Base.Machine
import StreamFs.Pool.BufferPool

/-!
The throttle at the granularity of its atomics: every load and store of `mPos`, `mThrottleIndex`
and `mThrottleRunning` is a step, and so is every access to the flag `mNotified` of the three
`ConditionVariableHelper` objects (`BufferPoolThrottle.cpp`, `ConditionVariableHelper.h`).

* `PositionPhase`: the holder of `mMutexSetReadPosition`, in `setReadPosition` or in `wait`.
* `BufferPhase`: the holder of `mMutexTimePeriodBuffer`, in `registerTimePeriod`, `clear` or
  `clearToLastRead`. What only the holder reads and writes is done in one step with the lock.
* `LoopPhase`: the thread of `throttleLoop`. It holds `mMutexTimePeriodBuffer` at `fetchRead`.
* `ThrottleThreads`: the fields of the throttle, those of the loop, the three flags, and the three
  phases. `evicted` is a record of the model: the number of periods the ring has given up at its
  old end, so that the period at position `k` is the one of chunk `evicted + k`.
* `ThrottleEvent`, `ThrottleThreads.act`, `throttleMachine`: any number of threads call the
  operations, at most one of each lock at a time. `clear` and `clearToLastRead` run only while no
  `wait` does, and nothing is destroyed. The output of a step is the chunk whose period the loop
  fetches.

`notifyOne` is two steps, the store of the flag under the mutex of the helper and the signal. A
thread that waits holds that mutex from the start of its predicate until it is asleep or through.
-/

namespace StreamFs

/-- `IDLE_LIMIT_COUNT`. -/
def idleLimitCount : ℕ := 100

/-- The holder of `mMutexSetReadPosition`, named after its next step. -/
inductive PositionPhase where
  | idle
  -- `setReadPosition`
  | setPos (pos : ℕ)
  -- `wait`: the tests for live playback
  | enableTest
  | liveSize
  | livePos (size : ℕ)
  | liveLoad
  | liveStore (pos : ℕ)
  | liveStop
  | countAhead
  -- the start of the loop
  | runTest
  | startLoad
  | startStore (pos : ℕ)
  | startRun
  | startNotify
  | startSignal
  -- a jump of the read position
  | jumpPos
  | jumpLast (pos : ℕ)
  | seekReset
  | seekLoad
  | seekStore (pos : ℕ)
  -- the blocking loop, with the wait on `mCvThrottleChanged`
  | whilePos
  | whileIndex (pos : ℕ)
  | whileRunning
  | predPos
  | predIndex (pos : ℕ)
  | predRunning
  | check (status : Bool)
  | asleep
  -- the end of the read-ahead
  | aheadLoad
  | aheadStore (pos : ℕ)
  -- the end of `wait`
  | lastLoad
  | lastStore (pos : ℕ)
  deriving DecidableEq

/-- The holder of `mMutexTimePeriodBuffer` other than the loop, named after its next step. -/
inductive BufferPhase where
  | free
  -- `registerTimePeriod`
  | indexTest (time : ℕ)
  | indexDec (time : ℕ)
  | posTest (time : ℕ)
  | posDec (time : ℕ)
  | push (time : ℕ)
  | notify
  | signal
  -- the stores of `clear` and `clearToLastRead`
  | storeAhead (toLastRead : Bool)
  | storeIndex (toLastRead : Bool)
  | storePos
  | storeLastPos
  | storeRunning
  deriving DecidableEq

/-- The thread of `throttleLoop`, named after its next step. -/
inductive LoopPhase where
  | outer
  | outerTest
  -- the wait on `mCvStartThrottle`
  | startCheck
  | startAsleep
  | innerTest
  | fetchTest
  | fetchRead
  | sleeping (time : Option ℕ)
  | changedNotify
  | changedSignal
  | idleCount
  -- the wait on `mCvTimePeriodRegistered`
  | dataPred (timedOut : Bool)
  | dataCheck (status timedOut : Bool)
  | dataAsleep
  | dataStop
  | dataNotify
  | dataSignal
  -- the end of an iteration
  | idleStore
  | idleTest
  | idleNotify
  | idleSignal
  deriving DecidableEq

/-- The phases of `wait`. -/
def PositionPhase.inWait : PositionPhase → Bool
  | idle | setPos _ => false
  | _ => true

/-- The reader holds the mutex of `mCvThrottleChanged`. -/
def PositionPhase.holdsChanged : PositionPhase → Bool
  | predPos | predIndex _ | predRunning | check _ => true
  | _ => false

/-- The phases of `clear` and `clearToLastRead`. -/
def BufferPhase.clears : BufferPhase → Bool
  | storeAhead _ | storeIndex _ | storePos | storeLastPos | storeRunning => true
  | _ => false

/-- The loop holds the mutex of `mCvTimePeriodRegistered`. -/
def LoopPhase.holdsRegistered : LoopPhase → Bool
  | dataPred _ | dataCheck _ _ => true
  | _ => false

/-- The fields of the throttle and its threads. -/
structure ThrottleThreads where
  throttle : BufferPoolThrottle
  mIdleCount : ℕ
  mLastPosIdle : ℕ
  mCvStartThrottle : Bool
  mCvThrottleChanged : Bool
  mCvTimePeriodRegistered : Bool
  reader : PositionPhase
  buffer : BufferPhase
  loop : LoopPhase
  evicted : ℕ

/-- The events of the threads. -/
inductive ThrottleEvent where
  | setReadPosition (pos : ℕ)
  | wait
  | registerTimePeriod (now : ℕ)
  | clear
  | clearToLastRead
  | enableThrottling (enable : Bool)
  | stepReader
  | stepBuffer
  | stepLoop
  | wakeReader
  | wakeLoop
  | timeoutLoop
  deriving DecidableEq

namespace ThrottleThreads

/-- A new throttle, its loop started. -/
def create (preAllocBufSize : ℕ) : ThrottleThreads where
  throttle := .create preAllocBufSize
  mIdleCount := 0
  mLastPosIdle := 0
  mCvStartThrottle := false
  mCvThrottleChanged := false
  mCvTimePeriodRegistered := false
  reader := .idle
  buffer := .free
  loop := .outer
  evicted := 0

/-! ### Sleepers -/

/-- The reader, if it is asleep, evaluates its predicate again. -/
def wakeReader (s : ThrottleThreads) : ThrottleThreads :=
  if s.reader = .asleep then { s with reader := .predPos } else s

/-- The loop, if it is asleep, checks again what it waits for. -/
def wakeLoop (s : ThrottleThreads) (timedOut : Bool) : ThrottleThreads :=
  match s.loop with
  | .startAsleep => if timedOut then s else { s with loop := .startCheck }
  | .dataAsleep => { s with loop := .dataPred timedOut }
  | _ => s

/-! ### The reader -/

/-- The next step of the holder of `mMutexSetReadPosition`. -/
def stepReader (s : ThrottleThreads) : ThrottleThreads :=
  let t := s.throttle
  match s.reader with
  | .idle | .asleep => s
  | .setPos pos => { s with throttle := { t with mPos := pos }, reader := .idle }
  | .enableTest => { s with reader := if t.mEnableThrottling then .liveSize else .liveLoad }
  | .liveSize => { s with reader := .livePos t.mTimePeriodBuffer.size }
  | .livePos size =>
      { s with reader :=
          if subU64 size t.mPos ≤ livePositionThresholdIndex then .liveLoad else .countAhead }
  | .liveLoad => { s with reader := .liveStore t.mPos }
  | .liveStore pos => { s with throttle := { t with mLastPos := pos }, reader := .liveStop }
  | .liveStop => { s with throttle := { t with mThrottleRunning := false }, reader := .idle }
  | .countAhead =>
      let t := t.countReadAhead
      if readAheadCount < t.mReadAheadCount then { s with throttle := t, reader := .runTest }
      else if t.mReadAheadCount = readAheadCount then
        { s with
          throttle := { t with mReadAheadCount := t.mReadAheadCount + 1 }
          reader := .aheadLoad }
      else { s with throttle := t, reader := .lastLoad }
  | .runTest => { s with reader := if t.mThrottleRunning then .jumpPos else .startLoad }
  | .startLoad => { s with reader := .startStore t.mPos }
  | .startStore pos => { s with throttle := { t with mThrottleIndex := pos }, reader := .startRun }
  | .startRun => { s with throttle := { t with mThrottleRunning := true }, reader := .startNotify }
  | .startNotify =>
      -- the loop holds the mutex of the helper while it checks the flag
      if s.loop = .startCheck then s
      else { s with mCvStartThrottle := true, reader := .startSignal }
  | .startSignal =>
      { s with
        loop := if s.loop = .startAsleep then .startCheck else s.loop
        reader := .whilePos }
  | .jumpPos => { s with reader := .jumpLast t.mPos }
  | .jumpLast pos =>
      { s with reader :=
          if 10 < (toInt32 (subU64 pos t.mLastPos)).natAbs then .seekReset else .whilePos }
  | .seekReset => { s with throttle := { t with mReadAheadCount := 0 }, reader := .seekLoad }
  | .seekLoad => { s with reader := .seekStore t.mPos }
  | .seekStore pos => { s with throttle := { t with mThrottleIndex := pos }, reader := .whilePos }
  | .whilePos => { s with reader := .whileIndex t.mPos }
  | .whileIndex pos =>
      { s with reader := if t.mThrottleIndex ≤ pos then .whileRunning else .lastLoad }
  | .whileRunning => { s with reader := if t.mThrottleRunning then .predPos else .lastLoad }
  | .predPos => { s with reader := .predIndex t.mPos }
  | .predIndex pos =>
      { s with reader := if pos < t.mThrottleIndex then .check true else .predRunning }
  | .predRunning => { s with reader := .check (!t.mThrottleRunning) }
  | .check status =>
      if s.mCvThrottleChanged || status then
        { s with mCvThrottleChanged := false, reader := .whilePos }
      else { s with reader := .asleep }
  | .aheadLoad => { s with reader := .aheadStore t.mPos }
  | .aheadStore pos => { s with throttle := { t with mThrottleIndex := pos }, reader := .lastLoad }
  | .lastLoad => { s with reader := .lastStore t.mPos }
  | .lastStore pos => { s with throttle := { t with mLastPos := pos }, reader := .idle }

/-! ### The holder of the period buffer -/

/-- The call of `registerTimePeriod` at `now`, up to its test of `mThrottleIndex`. -/
def callRegister (s : ThrottleThreads) (now : ℕ) : ThrottleThreads :=
  let t := s.throttle
  let time := t.timePeriod now
  { s with
    throttle := { t with mStopWatchTimer := (t.mStopWatchTimer.getLapTime now).2 }
    buffer := if t.mTimePeriodBuffer.size = t.mTimePeriodBuffer.capacity then .indexTest time
      else .push time }

/-- The call of `clear`, up to its first store. -/
def callClear (s : ThrottleThreads) : ThrottleThreads :=
  let t := s.throttle
  { s with
    throttle := { t with
      mTimePeriodBuffer := t.mTimePeriodBuffer.clear
      mStopWatchTimer := t.mStopWatchTimer.resetTimer }
    buffer := .storeAhead false
    evicted := s.evicted + t.mTimePeriodBuffer.size }

/-- The call of `clearToLastRead`, up to its first store. -/
def callClearToLastRead (s : ThrottleThreads) : ThrottleThreads :=
  let t := s.throttle
  let numElements := t.mTimePeriodBuffer.size
  if numElements = 0 then s
  else
    { s with
      throttle := { t with
        mTimePeriodBuffer :=
          if t.mLastPos < numElements then
            t.mTimePeriodBuffer.eraseEnd (numElements - t.mLastPos - 1)
          else t.mTimePeriodBuffer
        mStopWatchTimer := t.mStopWatchTimer.resetTimer }
      buffer := .storeAhead true }

/-- The next step of the holder of `mMutexTimePeriodBuffer`. -/
def stepBuffer (s : ThrottleThreads) : ThrottleThreads :=
  let t := s.throttle
  match s.buffer with
  | .free => s
  | .indexTest time =>
      { s with buffer := if 0 < t.mThrottleIndex then .indexDec time else .posTest time }
  | .indexDec time =>
      { s with
        throttle := { t with mThrottleIndex := subU64 t.mThrottleIndex 1 }
        buffer := .posTest time }
  | .posTest time => { s with buffer := if 0 < t.mPos then .posDec time else .push time }
  | .posDec time =>
      { s with throttle := { t with mPos := subU64 t.mPos 1 }, buffer := .push time }
  | .push time =>
      { s with
        throttle := { t with mTimePeriodBuffer := t.mTimePeriodBuffer.pushBack time }
        buffer := .notify
        evicted := if t.mTimePeriodBuffer.size = t.mTimePeriodBuffer.capacity then s.evicted + 1
          else s.evicted }
  | .notify =>
      if s.loop.holdsRegistered then s
      else { s with mCvTimePeriodRegistered := true, buffer := .signal }
  | .signal =>
      { s with
        loop := if s.loop = .dataAsleep then .dataPred false else s.loop
        buffer := .free }
  | .storeAhead toLastRead =>
      { s with throttle := { t with mReadAheadCount := 0 }, buffer := .storeIndex toLastRead }
  | .storeIndex toLastRead =>
      { s with
        throttle := { t with mThrottleIndex := 0 }
        buffer := if toLastRead then .storeRunning else .storePos }
  | .storePos => { s with throttle := { t with mPos := 0 }, buffer := .storeLastPos }
  | .storeLastPos => { s with throttle := { t with mLastPos := 0 }, buffer := .storeRunning }
  | .storeRunning => { s with throttle := { t with mThrottleRunning := false }, buffer := .free }

/-! ### The loop -/

/-- The loop stores the flag of `mCvThrottleChanged`, unless the reader holds its mutex. -/
def notifyChanged (s : ThrottleThreads) (next : LoopPhase) : ThrottleThreads :=
  if s.reader.holdsChanged then s else { s with mCvThrottleChanged := true, loop := next }

/-- The loop signals `mCvThrottleChanged`. -/
def signalChanged (s : ThrottleThreads) (next : LoopPhase) : ThrottleThreads :=
  { s with reader := if s.reader = .asleep then .predPos else s.reader, loop := next }

/-- The next step of `throttleLoop`, with the chunk whose period it fetches. -/
def stepLoop (s : ThrottleThreads) : ThrottleThreads × Option ℕ :=
  let t := s.throttle
  match s.loop with
  | .startAsleep | .dataAsleep => (s, none)
  | .outer => ({ s with mIdleCount := 0, loop := .outerTest }, none)
  | .outerTest =>
      ({ s with loop := if t.mThrottleRunning then .innerTest else .startCheck }, none)
  | .startCheck =>
      (if s.mCvStartThrottle then { s with mCvStartThrottle := false, loop := .innerTest }
        else { s with loop := .startAsleep }, none)
  | .innerTest => ({ s with loop := if t.mThrottleRunning then .fetchTest else .outer }, none)
  | .fetchTest =>
      -- the lock of `mMutexTimePeriodBuffer` comes first
      (if s.buffer = .free then
        { s with loop :=
            if t.mThrottleIndex < t.mTimePeriodBuffer.size then .fetchRead else .dataPred false }
        else s, none)
  | .fetchRead =>
      ({ s with loop := .sleeping t.mTimePeriodBuffer.items[t.mThrottleIndex]? },
        some (s.evicted + t.mThrottleIndex))
  | .sleeping _ =>
      ({ s with
        throttle := { t with mThrottleIndex := addU64 t.mThrottleIndex 1 }
        loop := .changedNotify }, none)
  | .changedNotify => (s.notifyChanged .changedSignal, none)
  | .changedSignal => (s.signalChanged .idleCount, none)
  | .idleCount =>
      ({ s with
        mIdleCount := if t.mLastPos = s.mLastPosIdle then (s.mIdleCount + 1) % 2 ^ 16 else 0
        loop := .idleStore }, none)
  | .dataPred timedOut =>
      ({ s with loop :=
          .dataCheck (t.mThrottleIndex < t.mTimePeriodBuffer.size) timedOut }, none)
  | .dataCheck status timedOut =>
      (if s.mCvTimePeriodRegistered || status then
        { s with mCvTimePeriodRegistered := false, loop := .idleStore }
      else if timedOut then { s with mCvTimePeriodRegistered := false, loop := .dataStop }
      else { s with loop := .dataAsleep }, none)
  | .dataStop =>
      ({ s with throttle := { t with mThrottleRunning := false }, loop := .dataNotify }, none)
  | .dataNotify => (s.notifyChanged .dataSignal, none)
  | .dataSignal => (s.signalChanged .idleStore, none)
  | .idleStore => ({ s with mLastPosIdle := t.mLastPos, loop := .idleTest }, none)
  | .idleTest =>
      (if idleLimitCount < s.mIdleCount then
        { s with throttle := { t with mThrottleRunning := false }, loop := .idleNotify }
      else { s with loop := .innerTest }, none)
  | .idleNotify => (s.notifyChanged .idleSignal, none)
  | .idleSignal => (s.signalChanged .innerTest, none)

/-! ### The events -/

/-- `mMutexTimePeriodBuffer` is free. -/
def BufferFree (s : ThrottleThreads) : Prop := s.buffer = .free ∧ s.loop ≠ .fetchRead

instance (s : ThrottleThreads) : Decidable s.BufferFree := inferInstanceAs (Decidable (_ ∧ _))

/-- One event, with the chunk whose period the loop fetches. -/
def act (s : ThrottleThreads) : ThrottleEvent → ThrottleThreads × Option ℕ
  | .setReadPosition pos =>
      (if s.reader = .idle then { s with reader := .setPos pos } else s, none)
  | .wait =>
      (if s.reader = .idle ∧ s.buffer.clears = false then { s with reader := .enableTest } else s,
        none)
  | .registerTimePeriod now => (if s.BufferFree then s.callRegister now else s, none)
  | .clear => (if s.BufferFree ∧ s.reader.inWait = false then s.callClear else s, none)
  | .clearToLastRead =>
      (if s.BufferFree ∧ s.reader.inWait = false then s.callClearToLastRead else s, none)
  | .enableThrottling enable =>
      ({ s with throttle := { s.throttle with mEnableThrottling := enable } }, none)
  | .stepReader => (s.stepReader, none)
  | .stepBuffer => (s.stepBuffer, none)
  | .stepLoop => s.stepLoop
  | .wakeReader => (s.wakeReader, none)
  | .wakeLoop => (s.wakeLoop false, none)
  | .timeoutLoop => (s.wakeLoop true, none)

/-- The throttle as a machine. -/
def throttleMachine : Machine ThrottleThreads ThrottleEvent (Option ℕ) := ⟨act⟩

end ThrottleThreads

end StreamFs
