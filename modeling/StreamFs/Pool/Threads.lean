import StreamFs.Base.Machine
import StreamFs.Base.Mutex
import StreamFs.Pool.Stream

/-!
The buffer pool under any number of threads, at the granularity of its locks.

* `ThreadPhase`: where a thread stands in an operation, named after the step that comes next. The
  phase tells which of `m_mutex` and `m_w_mutex` the thread holds (`holdsMutex`, `holdsWMutex`).
* `Threads`: the pool, the owners of the two mutexes, the threads asleep on `mNotEnoughBytes`, and
  the phase of every thread. `settled` and `abortedBy` are a record of the model, not of the code:
  what the completed pushes have made of the count and the end marker, and whose call of
  `abortAllOperations` raised `mAborting`, as long as it has not returned.
* `ThreadEvent`, `Threads.act`, `threadMachine`: a thread calls an operation or takes its next
  step, a timer of `wait_for` runs out, a thread wakes up spuriously, or one ends. A step that is
  not enabled, such as the lock of a mutex with an owner, changes nothing. The thread `producer`
  is the one that `stop` joins; it only pushes. A throttled reader is in `BufferPoolThrottle::wait`
  with `m_mutex` locked: its step is the return from there, which may never come.
* `WellLocked`, `wellLocked_run`: the owners are the threads whose phase says so, at most one for
  each mutex, in every reachable state.
-/

namespace StreamFs

deriving instance DecidableEq for PushArgs

/-- Where a thread stands: outside of the pool, or before a step of an operation. -/
inductive ThreadPhase where
  | idle
  | exited
  -- `read`
  | readLock (a : ReadArgs)
  | readGuards (a : ReadArgs)
  | waitCheck (a : ReadArgs) (timedOut : Bool)
  | waitPark (a : ReadArgs)
  | parked (a : ReadArgs)
  | waitRelock (a : ReadArgs) (timedOut : Bool)
  | copyLock (a : ReadArgs)
  | copying (a : ReadArgs)
  | throttled (r : ReadResult)
  -- `pushBuffer`
  | pushLock (b : PushArgs)
  | pushStore (b : PushArgs)
  | pushNotify
  | pushUnlock
  -- `clear`
  | clearLock
  | clearing
  -- `clearToLastRead`
  | rewindLock
  | rewindLockWrite
  | rewinding
  -- `abortAllOperations`
  | abortNotify
  | abortLock
  | abortJoin
  -- the destructor
  | destroyJoin
  | destroyExit
  | destroyLock
  | destroyUnlock
  deriving DecidableEq

namespace ThreadPhase

/-- The phases in which a thread holds `m_mutex`: `read` holds it from its guards to its return,
but for the sleep in the wait, and `clearToLastRead` from its first lock on. -/
def holdsMutex : ThreadPhase → Bool
  | readGuards _ | waitCheck _ _ | waitPark _ | copyLock _ | copying _ | throttled _
  | rewindLockWrite | rewinding => true
  | _ => false

/-- The phases in which a thread holds `m_w_mutex`: the copy loop, `pushBuffer` behind its lock up
to its return, `clear`, `clearToLastRead`, and `abortAllOperations` while it stops the producer. -/
def holdsWMutex : ThreadPhase → Bool
  | copying _ | pushStore _ | pushNotify | pushUnlock | clearing | rewinding | abortJoin
  | destroyUnlock => true
  | _ => false

/-- The phases of the thread that pushes. -/
def pushes : ThreadPhase → Bool
  | idle | exited | pushLock _ | pushStore _ | pushNotify | pushUnlock => true
  | _ => false

/-- The phases of the wait of `read`. -/
def inWait : ThreadPhase → Bool
  | waitCheck _ _ | waitPark _ | parked _ | waitRelock _ _ => true
  | _ => false

/-- The read of a thread that is at its guards. -/
def guarding : ThreadPhase → Option ReadArgs
  | readGuards a => some a
  | _ => none

/-- The thread checks the predicate of its wait next. -/
def atCheck : ThreadPhase → Bool
  | waitCheck _ _ => true
  | _ => false

/-- The read of a thread that is on its way to sleep. -/
def parking : ThreadPhase → Option ReadArgs
  | waitPark a => some a
  | _ => none

/-- The read of a thread that is asleep. -/
def sleeping : ThreadPhase → Option ReadArgs
  | parked a => some a
  | _ => none

/-- The phases of `abortAllOperations`. -/
def aborts : ThreadPhase → Bool
  | abortNotify | abortLock | abortJoin => true
  | _ => false

/-- The phases of a thread that no other thread waits for. -/
def plain : ThreadPhase → Bool
  | pushLock _ | pushNotify | pushUnlock => false
  | p => !p.inWait && !p.aborts

/-- The phase after `notify_all`. -/
def woken : ThreadPhase → ThreadPhase
  | parked a => waitRelock a false
  | p => p

end ThreadPhase

/-- What the completed pushes have made of the chunk count and the end marker. -/
structure Settled where
  mTotalBufCount : ℕ
  mGotLastBuffer : Bool
  deriving DecidableEq

/-- The pool and its threads. -/
structure Threads (ι : Type*) where
  pool : BufferPool
  mMutex : Option ι
  mWMutex : Option ι
  mNotEnoughBytes : List ι
  phase : ι → ThreadPhase
  settled : Settled
  abortedBy : Option ι

/-- The operations a thread can call. -/
inductive PoolCall where
  | read (a : ReadArgs)
  | pushBuffer (b : PushArgs) (now : ℕ)
  | clear
  | clearToLastRead
  | abortAllOperations
  | destroy

/-- The call is one of `pushBuffer`. -/
def PoolCall.isPush : PoolCall → Bool
  | .pushBuffer _ _ => true
  | _ => false

/-- What a step leaves open: the sleeper that `notify_one` wakes, and what `throttleLoop` has done
while a reader is throttled. -/
structure StepChoice where
  sleeper : ℕ := 0
  loop : LoopProgress := ⟨0, false⟩

/-- The events of the threads. -/
inductive ThreadEvent (ι : Type*) where
  | call (i : ι) (c : PoolCall)
  | step (i : ι) (c : StepChoice)
  | timeout (i : ι)
  | spuriousWake (i : ι)
  | exit (i : ι)

namespace BufferPool

/-- The guards of `read` under `m_mutex`; `exitPending` is tested before the lock. -/
def guards (p : BufferPool) (a : ReadArgs) : Option Refusal :=
  ({ p with exitPending := false }).refuses a

/-- The part of `pushBuffer` under `m_w_mutex`, up to the notification. -/
def storeChunk (p : BufferPool) (b : PushArgs) : BufferPool :=
  { p with
    mCircBuf := p.mCircBuf.pushBack b.buffer
    mTotalBufCount := p.mTotalBufCount + 1
    mGotLastBuffer := if b.lastBuffer then true else p.mGotLastBuffer
    mLastBufferSize := if b.lastBuffer then b.lastBufferSize else p.mLastBufferSize }

/-- A push is the registration of its period and the store of its chunk. -/
lemma pushBuffer_eq_storeChunk (p : BufferPool) (h : p.exitPending = false) (b : PushArgs)
    (now : ℕ) : p.pushBuffer b now
      = ({ p with mThrottle := p.mThrottle.registerTimePeriod now }).storeChunk b := by
  rw [pushBuffer, if_neg (by simp [h])]
  rfl

/-- `clearToLastRead` raises no flag. -/
lemma mAborting_of_clearToLastRead {p : BufferPool}
    (h : p.clearToLastRead.mAborting = true) : p.mAborting = true := by
  rw [clearToLastRead] at h
  split_ifs at h
  exact h

end BufferPool

namespace Threads

variable {ι : Type*} [DecidableEq ι]

/-- All threads outside of a new pool. -/
def fresh (C : PoolCapacity) : Threads ι where
  pool := .create C
  mMutex := none
  mWMutex := none
  mNotEnoughBytes := []
  phase _ := .idle
  settled := ⟨0, false⟩
  abortedBy := none

/-! ### Locks and the condition variable -/

/-- The owner of a mutex after thread `i` has moved to a phase in which it holds it or not. -/
def owner (m : Option ι) (i : ι) (holds : Bool) : Option ι :=
  if holds then some i else if m = some i then none else m

/-- Thread `i` goes on to phase `p`: it takes and gives back the mutexes as the phase says. -/
def moveTo (s : Threads ι) (i : ι) (p : ThreadPhase) : Threads ι :=
  { s with
    phase := Function.update s.phase i p
    mMutex := owner s.mMutex i p.holdsMutex
    mWMutex := owner s.mWMutex i p.holdsWMutex }

/-- Thread `i` locks `m_mutex` where it is free. -/
def lockMutex (s : Threads ι) (i : ι) (p : ThreadPhase) : Threads ι :=
  if s.mMutex = none then s.moveTo i p else s

/-- Thread `i` locks `m_w_mutex` where it is free. -/
def lockWMutex (s : Threads ι) (i : ι) (p : ThreadPhase) : Threads ι :=
  if s.mWMutex = none then s.moveTo i p else s

/-- Thread `i` goes to sleep on `mNotEnoughBytes` and gives back `m_mutex`. -/
def park (s : Threads ι) (i : ι) (a : ReadArgs) : Threads ι :=
  { s with mNotEnoughBytes := s.mNotEnoughBytes ++ [i] }.moveTo i (.parked a)

/-- Thread `i` ends its sleep, if it is asleep. -/
def wake (s : Threads ι) (i : ι) (timedOut : Bool) : Threads ι :=
  match s.phase i with
  | .parked a =>
      { s with mNotEnoughBytes := s.mNotEnoughBytes.erase i }.moveTo i (.waitRelock a timedOut)
  | _ => s

/-- The sleeper that `notify_one` wakes: the one chosen, or the first one. -/
def sleeper (s : Threads ι) (k : ℕ) : Option ι :=
  (s.mNotEnoughBytes[k]?).or s.mNotEnoughBytes.head?

/-- `notify_one`. -/
def notifyOne (s : Threads ι) (k : ℕ) : Threads ι :=
  match s.sleeper k with
  | some i => s.wake i false
  | none => s

/-- `notify_all`. -/
def notifyAll (s : Threads ι) : Threads ι :=
  { s with mNotEnoughBytes := [], phase := fun i => (s.phase i).woken }

/-! The pool and the record of the model know nothing of locks and sleepers. -/

@[simp] lemma phase_moveTo_self (s : Threads ι) (i : ι) (p : ThreadPhase) :
    (s.moveTo i p).phase i = p := Function.update_self ..

lemma phase_moveTo_of_ne (s : Threads ι) {i k : ι} (h : k ≠ i) (p : ThreadPhase) :
    (s.moveTo i p).phase k = s.phase k := Function.update_of_ne h ..

lemma phase_moveTo (s : Threads ι) (i k : ι) (p : ThreadPhase) :
    (s.moveTo i p).phase k = if k = i then p else s.phase k := Function.update_apply ..

@[simp] lemma pool_moveTo (s : Threads ι) (i : ι) (p : ThreadPhase) :
    (s.moveTo i p).pool = s.pool := rfl

@[simp] lemma settled_moveTo (s : Threads ι) (i : ι) (p : ThreadPhase) :
    (s.moveTo i p).settled = s.settled := rfl

@[simp] lemma abortedBy_moveTo (s : Threads ι) (i : ι) (p : ThreadPhase) :
    (s.moveTo i p).abortedBy = s.abortedBy := rfl

/-- What `wake` does: the record stays, and of the phases only that of a sleeper changes. -/
lemma wake_cases (s : Threads ι) (i : ι) (timedOut : Bool) :
    (s.wake i timedOut = s ∧ ∀ a, s.phase i ≠ .parked a) ∨
      ∃ a, s.phase i = .parked a ∧ s.wake i timedOut
        = { s with mNotEnoughBytes := s.mNotEnoughBytes.erase i }.moveTo i
            (.waitRelock a timedOut) := by
  cases h : s.phase i with
  | parked a => exact .inr ⟨a, rfl, by rw [wake, h]⟩
  | _ => exact .inl ⟨by rw [wake, h], fun _ => by simp⟩

/-- What `notify_one` does. -/
lemma notifyOne_cases (s : Threads ι) (k : ℕ) :
    (s.notifyOne k = s ∧ ∀ i a, s.phase i = .parked a → s.sleeper k ≠ some i) ∨
      ∃ i a, s.sleeper k = some i ∧ s.phase i = .parked a ∧ s.notifyOne k
        = { s with mNotEnoughBytes := s.mNotEnoughBytes.erase i }.moveTo i
            (.waitRelock a false) := by
  rw [notifyOne]
  cases hk : s.sleeper k with
  | none => exact .inl ⟨rfl, by simp⟩
  | some i =>
      rcases s.wake_cases i false with ⟨h, hawake⟩ | ⟨a, hi, h⟩
      · refine .inl ⟨h, fun j a hj hij => ?_⟩
        rw [← Option.some_injective _ hij] at hj
        exact hawake a hj
      · exact .inr ⟨i, a, rfl, hi, h⟩

@[simp] lemma pool_notifyOne (s : Threads ι) (k : ℕ) : (s.notifyOne k).pool = s.pool := by
  rcases s.notifyOne_cases k with ⟨h, -⟩ | ⟨i, a, -, -, h⟩ <;> simp [h]

@[simp] lemma settled_notifyOne (s : Threads ι) (k : ℕ) :
    (s.notifyOne k).settled = s.settled := by
  rcases s.notifyOne_cases k with ⟨h, -⟩ | ⟨i, a, -, -, h⟩ <;> simp [h]

@[simp] lemma abortedBy_notifyOne (s : Threads ι) (k : ℕ) :
    (s.notifyOne k).abortedBy = s.abortedBy := by
  rcases s.notifyOne_cases k with ⟨h, -⟩ | ⟨i, a, -, -, h⟩ <;> simp [h]

/-- `notify_one` leaves a thread that is not asleep where it is. -/
lemma phase_notifyOne_of_awake (s : Threads ι) (k : ℕ) {i : ι} (h : ∀ a, s.phase i ≠ .parked a) :
    (s.notifyOne k).phase i = s.phase i := by
  rcases s.notifyOne_cases k with ⟨hk, -⟩ | ⟨j, a, -, hj, hk⟩
  · rw [hk]
  · have hij : i ≠ j := by
      rintro rfl
      exact h a hj
    rw [hk, phase_moveTo_of_ne _ hij]

/-! ### The steps -/

/-- The call of an operation, up to its first lock. -/
def call (s : Threads ι) (i : ι) : PoolCall → Threads ι × Option ReadResult
  | .read a => if s.pool.exitPending then (s, some .nothing) else (s.moveTo i (.readLock a), none)
  | .pushBuffer b now =>
      if s.pool.exitPending then (s, none)
      else ({ s with pool := { s.pool with
          mThrottle := s.pool.mThrottle.registerTimePeriod now } }.moveTo i (.pushLock b), none)
  | .clear => (s.moveTo i .clearLock, none)
  | .clearToLastRead => (s.moveTo i .rewindLock, none)
  | .abortAllOperations =>
      ({ s with
        pool := s.pool.abortAllOperations
        abortedBy := if s.pool.mAborting then s.abortedBy else some i }.moveTo i .abortNotify, none)
  | .destroy => (s.moveTo i .destroyJoin, none)

/-- The step of thread `i` from phase `p`. The record of the model follows the pool where an
operation gives `m_w_mutex` back. -/
def stepFrom (producer : ι) (s : Threads ι) (i : ι) (c : StepChoice) :
    ThreadPhase → Threads ι × Option ReadResult
  | .idle | .exited | .parked _ => (s, none)
  -- `read`
  | .readLock a => (s.lockMutex i (.readGuards a), none)
  | .readGuards a =>
      if (s.pool.guards a).isSome then (s.moveTo i .idle, some .nothing)
      else if s.pool.mustWait a then (s.moveTo i (.waitCheck a false), none)
      else (s.moveTo i (.copyLock a), none)
  | .waitCheck a timedOut =>
      if s.pool.readReady a then
        if s.pool.mAborting then
          ({ s with pool := s.pool.leaveWait a, abortedBy := none }.moveTo i .idle, some .nothing)
        else ({ s with pool := s.pool.leaveWait a }.moveTo i (.copyLock a), none)
      else if timedOut then (s.moveTo i .idle, some .nothing)
      else (s.moveTo i (.waitPark a), none)
  | .waitPark a => (s.park i a, none)
  | .waitRelock a timedOut => (s.lockMutex i (.waitCheck a timedOut), none)
  | .copyLock a => (s.lockWMutex i (.copying a), none)
  | .copying a =>
      if s.pool.getSize = 0 then (s.moveTo i .idle, some .nothing)
      else
        let t := s.pool.copyLoop a
        ({ s with pool := t.pool }.moveTo i (.throttled ⟨toSizeT t.off, t.copies⟩), none)
  | .throttled r =>
      -- the wait of the throttle has returned
      ({ s with pool := { s.pool with
          mThrottle := s.pool.mThrottle.wait c.loop } }.moveTo i .idle, some r)
  -- `pushBuffer`
  | .pushLock b => (s.lockWMutex i (.pushStore b), none)
  | .pushStore b => ({ s with pool := s.pool.storeChunk b }.moveTo i .pushNotify, none)
  | .pushNotify => ((s.notifyOne c.sleeper).moveTo i .pushUnlock, none)
  | .pushUnlock =>
      ({ s with settled := ⟨s.pool.mTotalBufCount, s.pool.mGotLastBuffer⟩ }.moveTo i .idle, none)
  -- `clear`
  | .clearLock => (s.lockWMutex i .clearing, none)
  | .clearing => ({ s with pool := s.pool.clear, settled := ⟨0, false⟩ }.moveTo i .idle, none)
  -- `clearToLastRead`
  | .rewindLock => (s.lockMutex i .rewindLockWrite, none)
  | .rewindLockWrite => (s.lockWMutex i .rewinding, none)
  | .rewinding =>
      let p := s.pool.clearToLastRead
      ({ s with
        pool := p
        settled := ⟨p.mTotalBufCount, p.mGotLastBuffer⟩
        abortedBy := if p.mAborting then s.abortedBy else none }.moveTo i .idle, none)
  -- `abortAllOperations`
  | .abortNotify => (s.notifyAll.moveTo i .abortLock, none)
  | .abortLock => (s.lockWMutex i .abortJoin, none)
  | .abortJoin =>
      if s.phase producer = .exited then
        ({ s with
          abortedBy := if s.abortedBy = some i then none else s.abortedBy }.moveTo i .idle, none)
      else (s, none)
  -- the destructor
  | .destroyJoin =>
      if s.phase producer = .exited then (s.moveTo i .destroyExit, none) else (s, none)
  | .destroyExit =>
      ({ s with pool := { s.pool with exitPending := true } }.moveTo i .destroyLock, none)
  | .destroyLock => (s.lockWMutex i .destroyUnlock, none)
  | .destroyUnlock => (s.moveTo i .idle, none)

/-- The next step of thread `i`. -/
def step (producer : ι) (s : Threads ι) (i : ι) (c : StepChoice) : Threads ι × Option ReadResult :=
  s.stepFrom producer i c (s.phase i)

/-- The thread may call the operation: it is outside of the pool, and the producer only pushes. -/
def MayCall (producer : ι) (s : Threads ι) (i : ι) (c : PoolCall) : Prop :=
  s.phase i = .idle ∧ (i = producer → c.isPush)

instance (producer : ι) (s : Threads ι) (i : ι) (c : PoolCall) :
    Decidable (s.MayCall producer i c) :=
  inferInstanceAs (Decidable (_ ∧ _))

/-- One event, with the result of the read it ends. -/
def act (producer : ι) (s : Threads ι) : ThreadEvent ι → Threads ι × Option ReadResult
  | .call i c => if s.MayCall producer i c then s.call i c else (s, none)
  | .step i c => s.step producer i c
  | .timeout i => (s.wake i true, none)
  | .spuriousWake i => (s.wake i false, none)
  | .exit i => if s.phase i = .idle then (s.moveTo i .exited, none) else (s, none)

/-- The next `n` steps of a thread. -/
def steps {ι : Type*} (i : ι) (n : ℕ) : List (ThreadEvent ι) := List.replicate n (.step i {})

/-- The threads as a machine. -/
def threadMachine (producer : ι) : Machine (Threads ι) (ThreadEvent ι) (Option ReadResult) :=
  ⟨act producer⟩

/-! ### What a step can do -/

/-- The pools agree on the size, the count and the end marker. -/
structure SameData (p q : BufferPool) : Prop where
  getSize : q.getSize = p.getSize
  mTotalBufCount : q.mTotalBufCount = p.mTotalBufCount
  mGotLastBuffer : q.mGotLastBuffer = p.mGotLastBuffer

/-- The pools agree on what a waiting reader looks at, and on the size. -/
structure SameWait (p q : BufferPool) : Prop extends SameData p q where
  mAborting : q.mAborting = p.mAborting

/-- Thread `i` goes on to phase `p`, leaving the pool `q`: it takes free mutexes only, and comes
to the phases that matter to others from the right ones. -/
structure Goes (producer : ι) (s : Threads ι) (e : ThreadEvent ι) (i : ι) (p : ThreadPhase)
    (q : BufferPool) : Prop where
  pool : SameWait s.pool q
  awake : ∀ a, s.phase i ≠ .parked a
  mutex : p.holdsMutex → s.mMutex = none ∨ (s.phase i).holdsMutex
  wMutex : p.holdsWMutex → s.mWMutex = none ∨ (s.phase i).holdsWMutex
  producer : i = producer → p.pushes
  check : ∀ a b, p = .waitCheck a b → s.phase i = .waitRelock a b ∨
    (∃ c, e = .step i c) ∧ s.phase i = .readGuards a ∧ s.pool.guards a = none ∧ s.pool.mustWait a
  checked : ∀ a b, s.phase i = .waitCheck a b → ∃ c, e = .step i c
  park : ∀ a, p = .waitPark a → ¬ s.pool.readReady a
  join : p = .abortJoin → (∃ c, e = .step i c) ∧ s.phase i = .abortLock ∧ s.mWMutex = none
  push : ∀ b, p = .pushLock b →
    (∃ now, e = .call i (.pushBuffer b now)) ∧ s.phase i = .idle ∧ s.pool.exitPending = false
  relock : ∀ a b, s.phase i = .waitRelock a b → p = .waitCheck a b
  aborts : p.aborts = (s.phase i).aborts
  leaves : s.phase i ≠ .pushNotify ∧ s.phase i ≠ .pushUnlock ∧ s.phase i ≠ .abortNotify
  pushNotify : p ≠ .pushNotify
  pushUnlock : p ≠ .pushUnlock
  abortNotify : p ≠ .abortNotify
  abortLock : p ≠ .abortLock
  parked : ∀ a, p ≠ .parked a
  waitRelock : ∀ a b, p ≠ .waitRelock a b

/-- The moves of the threads: steps that matter to no waiting reader, and those that do. -/
inductive Moves (producer : ι) (s : Threads ι) : ThreadEvent ι → Threads ι → Prop
  | stay (e : ThreadEvent ι) : Moves producer s e s
  | go {e : ThreadEvent ι} (i : ι) (p : ThreadPhase) (q : BufferPool)
      (h : s.Goes producer e i p q) : Moves producer s e ({ s with pool := q }.moveTo i p)
  | park (i : ι) (c : StepChoice) (a : ReadArgs) (h : s.phase i = .waitPark a) :
      Moves producer s (.step i c) (s.park i a)
  | wake {e : ThreadEvent ι} (i : ι) (timedOut : Bool) (a : ReadArgs) (h : s.phase i = .parked a) :
      Moves producer s e (s.wake i timedOut)
  | leave (i : ι) (c : StepChoice) (a : ReadArgs) (timedOut : Bool)
      (h : s.phase i = .waitCheck a timedOut) (habort : s.pool.mAborting = true) :
      Moves producer s (.step i c)
        ({ s with pool := s.pool.leaveWait a, abortedBy := none }.moveTo i .idle)
  | store (i : ι) (c : StepChoice) (b : PushArgs) (h : s.phase i = .pushStore b) :
      Moves producer s (.step i c) ({ s with pool := s.pool.storeChunk b }.moveTo i .pushNotify)
  | notifyOne (i : ι) (c : StepChoice) (h : s.phase i = .pushNotify) :
      Moves producer s (.step i c) ((s.notifyOne c.sleeper).moveTo i .pushUnlock)
  | settle (i : ι) (c : StepChoice) (h : s.phase i = .pushUnlock) :
      Moves producer s (.step i c)
        ({ s with settled := ⟨s.pool.mTotalBufCount, s.pool.mGotLastBuffer⟩ }.moveTo i .idle)
  | clear (i : ι) (c : StepChoice) (h : s.phase i = .clearing) :
      Moves producer s (.step i c)
        ({ s with pool := s.pool.clear, settled := ⟨0, false⟩ }.moveTo i .idle)
  | rewind (i : ι) (c : StepChoice) (h : s.phase i = .rewinding) :
      Moves producer s (.step i c)
        ({ s with
          pool := s.pool.clearToLastRead
          settled := ⟨s.pool.clearToLastRead.mTotalBufCount, s.pool.clearToLastRead.mGotLastBuffer⟩
          abortedBy := if s.pool.clearToLastRead.mAborting then s.abortedBy else none }.moveTo i
            .idle)
  | raise (i : ι) (h : s.phase i = .idle) (hne : i ≠ producer) :
      Moves producer s (.call i .abortAllOperations)
        ({ s with
          pool := s.pool.abortAllOperations
          abortedBy := if s.pool.mAborting then s.abortedBy else some i }.moveTo i .abortNotify)
  | notifyAll (i : ι) (c : StepChoice) (h : s.phase i = .abortNotify) :
      Moves producer s (.step i c) (s.notifyAll.moveTo i .abortLock)
  | finish (i : ι) (c : StepChoice) (h : s.phase i = .abortJoin) :
      Moves producer s (.step i c)
        ({ s with abortedBy := if s.abortedBy = some i then none else s.abortedBy }.moveTo i .idle)

section Moves

variable {producer : ι} {s : Threads ι}

lemma SameWait.refl (p : BufferPool) : SameWait p p := ⟨⟨rfl, rfl, rfl⟩, rfl⟩

lemma sameData_leaveWait (p : BufferPool) (a : ReadArgs) : SameData p (p.leaveWait a) := by
  rw [BufferPool.leaveWait]
  split <;> exact ⟨rfl, rfl, rfl⟩

lemma sameWait_leaveWait (p : BufferPool) (a : ReadArgs) (h : p.mAborting = false) :
    SameWait p (p.leaveWait a) where
  toSameData := sameData_leaveWait p a
  mAborting := by rw [BufferPool.leaveWait, if_neg (by simp [h])]

lemma sameWait_copyLoop (p : BufferPool) (a : ReadArgs) : SameWait p (p.copyLoop a).pool := by
  rw [BufferPool.copyLoop_eq]
  cases a.length <;> exact ⟨⟨rfl, rfl, rfl⟩, rfl⟩

lemma ne_of_plain {p r : ThreadPhase} (hp : p.plain = true) (hr : r.plain = false) : p ≠ r := by
  rintro rfl
  exact Bool.false_ne_true (hr.symm.trans hp)

lemma aborts_of_plain {p : ThreadPhase} (hp : p.plain = true) : p.aborts = false := by
  cases p with
  | abortNotify => exact Bool.noConfusion hp
  | abortLock => exact Bool.noConfusion hp
  | abortJoin => exact Bool.noConfusion hp
  | _ => rfl

omit [DecidableEq ι] in
/-- Steps between plain phases change nothing but the mutexes. -/
lemma goes_of_plain {e : ThreadEvent ι} {i : ι} {p : ThreadPhase} {q : BufferPool}
    (hq : SameWait s.pool q) (hi : (s.phase i).plain = true) (hp : p.plain = true)
    (hmutex : p.holdsMutex → s.mMutex = none ∨ (s.phase i).holdsMutex)
    (hwMutex : p.holdsWMutex → s.mWMutex = none ∨ (s.phase i).holdsWMutex)
    (hproducer : i = producer → p.pushes) : s.Goes producer e i p q where
  pool := hq
  awake _ := ne_of_plain hi rfl
  mutex := hmutex
  wMutex := hwMutex
  producer := hproducer
  check _ _ h := absurd h (ne_of_plain hp rfl)
  checked _ _ h := absurd h (ne_of_plain hi rfl)
  park _ h := absurd h (ne_of_plain hp rfl)
  join h := absurd h (ne_of_plain hp rfl)
  push _ h := absurd h (ne_of_plain hp rfl)
  relock _ _ h := absurd h (ne_of_plain hi rfl)
  aborts := by rw [aborts_of_plain hi, aborts_of_plain hp]
  leaves := ⟨ne_of_plain hi rfl, ne_of_plain hi rfl, ne_of_plain hi rfl⟩
  pushNotify := ne_of_plain hp rfl
  pushUnlock := ne_of_plain hp rfl
  abortNotify := ne_of_plain hp rfl
  abortLock := ne_of_plain hp rfl
  parked _ := ne_of_plain hp rfl
  waitRelock _ _ := ne_of_plain hp rfl

open ThreadPhase in
/-- **What a step of a thread can do.** -/
theorem moves_step (hp : (s.phase producer).pushes) (i : ι) (c : StepChoice) :
    s.Moves producer (.step i c) (s.step producer i c).1 := by
  have hproducer : ∀ p : ThreadPhase, s.phase i = p → i = producer → p.pushes := by
    rintro p h rfl
    rw [← h]
    exact hp
  clear hp
  have hself := SameWait.refl s.pool
  rw [step]
  cases h : s.phase i with
  | idle => exact .stay _
  | exited => exact .stay _
  | parked a => exact .stay _
  | readLock a =>
      simp only [stepFrom, lockMutex]
      split_ifs with hfree
      · exact .go i _ s.pool (goes_of_plain hself (by rw [h]; rfl) rfl (fun _ => .inl hfree)
          (fun hw => Bool.noConfusion hw) (hproducer (.readLock a) h))
      · exact .stay _
  | readGuards a =>
      simp only [stepFrom]
      split_ifs with hrefuse hwait
      · exact .go i _ s.pool (goes_of_plain hself (by rw [h]; rfl) rfl
          (fun hm => Bool.noConfusion hm) (fun hw => Bool.noConfusion hw) fun _ => rfl)
      · have hguards : s.pool.guards a = none := Option.not_isSome_iff_eq_none.mp hrefuse
        have hne : i ≠ producer := fun hi => Bool.noConfusion (hproducer _ h hi)
        exact .go i _ s.pool (by constructor <;> simp [*, holdsMutex, holdsWMutex, pushes, aborts])
      · exact .go i _ s.pool (goes_of_plain hself (by rw [h]; rfl) rfl
          (fun _ => .inr (by rw [h]; rfl)) (fun hw => Bool.noConfusion hw)
          (hproducer (.readGuards a) h))
  | waitCheck a timedOut =>
      have hne : i ≠ producer := fun hi => Bool.noConfusion (hproducer _ h hi)
      simp only [stepFrom]
      split_ifs with hready habort htimedOut
      · exact .leave i c a timedOut h habort
      · have hleave := sameWait_leaveWait s.pool a (Bool.eq_false_of_not_eq_true habort)
        exact .go i _ (s.pool.leaveWait a)
          (by constructor <;> simp [*, holdsMutex, holdsWMutex, pushes, aborts])
      · exact .go i _ s.pool (by constructor <;> simp [*, holdsMutex, holdsWMutex, pushes, aborts])
      · exact .go i _ s.pool (by constructor <;> simp [*, holdsMutex, holdsWMutex, pushes, aborts])
  | waitPark a => exact .park i c a h
  | waitRelock a timedOut =>
      have hne : i ≠ producer := fun hi => Bool.noConfusion (hproducer _ h hi)
      simp only [stepFrom, lockMutex]
      split
      · exact .go i _ s.pool (by constructor <;> simp [*, holdsMutex, holdsWMutex, pushes, aborts])
      · exact .stay _
  | copyLock a =>
      simp only [stepFrom, lockWMutex]
      split_ifs with hfree
      · exact .go i _ s.pool (goes_of_plain hself (by rw [h]; rfl) rfl
          (fun _ => .inr (by rw [h]; rfl)) (fun _ => .inl hfree) (hproducer (.copyLock a) h))
      · exact .stay _
  | copying a =>
      have hcopy := sameWait_copyLoop s.pool a
      simp only [stepFrom]
      split
      · exact .go i _ s.pool (goes_of_plain hself (by rw [h]; rfl) rfl
          (fun hm => Bool.noConfusion hm) (fun hw => Bool.noConfusion hw) fun _ => rfl)
      · exact .go i _ (s.pool.copyLoop a).pool (goes_of_plain hcopy (by rw [h]; rfl) rfl
          (fun _ => .inr (by rw [h]; rfl)) (fun hw => Bool.noConfusion hw)
          (hproducer (.copying a) h))
  | throttled r =>
      have hthrottle : SameWait s.pool
          { s.pool with mThrottle := s.pool.mThrottle.wait c.loop } :=
        ⟨⟨rfl, rfl, rfl⟩, rfl⟩
      exact .go i _ _ (goes_of_plain hthrottle (by rw [h]; rfl) rfl
        (fun hm => Bool.noConfusion hm) (fun hw => Bool.noConfusion hw) fun _ => rfl)
  | pushLock b =>
      simp only [stepFrom, lockWMutex]
      split
      · exact .go i _ s.pool (by constructor <;> simp [*, holdsMutex, holdsWMutex, pushes, aborts])
      · exact .stay _
  | pushStore b => exact .store i c b h
  | pushNotify => exact .notifyOne i c h
  | pushUnlock => exact .settle i c h
  | clearLock =>
      simp only [stepFrom, lockWMutex]
      split_ifs with hfree
      · exact .go i _ s.pool (goes_of_plain hself (by rw [h]; rfl) rfl
          (fun hm => Bool.noConfusion hm) (fun _ => .inl hfree) (hproducer .clearLock h))
      · exact .stay _
  | clearing => exact .clear i c h
  | rewindLock =>
      simp only [stepFrom, lockMutex]
      split_ifs with hfree
      · exact .go i _ s.pool (goes_of_plain hself (by rw [h]; rfl) rfl (fun _ => .inl hfree)
          (fun hw => Bool.noConfusion hw) (hproducer .rewindLock h))
      · exact .stay _
  | rewindLockWrite =>
      simp only [stepFrom, lockWMutex]
      split_ifs with hfree
      · exact .go i _ s.pool (goes_of_plain hself (by rw [h]; rfl) rfl
          (fun _ => .inr (by rw [h]; rfl)) (fun _ => .inl hfree) (hproducer .rewindLockWrite h))
      · exact .stay _
  | rewinding => exact .rewind i c h
  | abortNotify => exact .notifyAll i c h
  | abortLock =>
      have hne : i ≠ producer := fun hi => Bool.noConfusion (hproducer _ h hi)
      simp only [stepFrom, lockWMutex]
      split
      · exact .go i _ s.pool (by constructor <;> simp [*, holdsMutex, holdsWMutex, pushes, aborts])
      · exact .stay _
  | abortJoin =>
      simp only [stepFrom]
      split
      · exact .finish i c h
      · exact .stay _
  | destroyJoin =>
      simp only [stepFrom]
      split
      · exact .go i _ s.pool (goes_of_plain hself (by rw [h]; rfl) rfl
          (fun hm => Bool.noConfusion hm) (fun hw => Bool.noConfusion hw)
          (hproducer .destroyJoin h))
      · exact .stay _
  | destroyExit =>
      have hexit : SameWait s.pool { s.pool with exitPending := true } :=
        ⟨⟨rfl, rfl, rfl⟩, rfl⟩
      exact .go i _ _ (goes_of_plain hexit (by rw [h]; rfl) rfl
        (fun hm => Bool.noConfusion hm) (fun hw => Bool.noConfusion hw) (hproducer .destroyExit h))
  | destroyLock =>
      simp only [stepFrom, lockWMutex]
      split_ifs with hfree
      · exact .go i _ s.pool (goes_of_plain hself (by rw [h]; rfl) rfl
          (fun hm => Bool.noConfusion hm) (fun _ => .inl hfree) (hproducer .destroyLock h))
      · exact .stay _
  | destroyUnlock =>
      exact .go i _ s.pool (goes_of_plain hself (by rw [h]; rfl) rfl
        (fun hm => Bool.noConfusion hm) (fun hw => Bool.noConfusion hw) fun _ => rfl)

open ThreadPhase in
/-- **What an event can do.** -/
theorem moves_act (hp : (s.phase producer).pushes) (e : ThreadEvent ι) :
    s.Moves producer e (s.act producer e).1 := by
  have hself := SameWait.refl s.pool
  cases e with
  | call i c =>
      rw [act]
      split_ifs with hcall
      · obtain ⟨hidle, hpush⟩ := hcall
        clear hp
        cases c with
        | read a =>
            rw [call]
            split
            · exact .stay _
            · exact .go i _ s.pool (goes_of_plain hself (by rw [hidle]; rfl) rfl
                (fun hm => Bool.noConfusion hm) (fun hw => Bool.noConfusion hw) hpush)
        | pushBuffer b now =>
            rw [call]
            split
            · exact .stay _
            · have hregister : SameWait s.pool { s.pool with
                  mThrottle := s.pool.mThrottle.registerTimePeriod now } :=
                ⟨⟨rfl, rfl, rfl⟩, rfl⟩
              exact .go i _ _ (by
                constructor <;> simp_all [holdsMutex, holdsWMutex, pushes, aborts])
        | clear =>
            exact .go i _ s.pool (goes_of_plain hself (by rw [hidle]; rfl) rfl
              (fun hm => Bool.noConfusion hm) (fun hw => Bool.noConfusion hw) hpush)
        | clearToLastRead =>
            exact .go i _ s.pool (goes_of_plain hself (by rw [hidle]; rfl) rfl
              (fun hm => Bool.noConfusion hm) (fun hw => Bool.noConfusion hw) hpush)
        | abortAllOperations =>
            exact .raise i hidle fun h => Bool.false_ne_true (hpush h)
        | destroy =>
            exact .go i _ s.pool (goes_of_plain hself (by rw [hidle]; rfl) rfl
              (fun hm => Bool.noConfusion hm) (fun hw => Bool.noConfusion hw) hpush)
      · exact .stay _
  | step i c => exact moves_step hp i c
  | timeout i =>
      rw [act]
      cases h : s.phase i with
      | parked a => exact .wake i true a h
      | _ => rw [wake, h]; exact .stay _
  | spuriousWake i =>
      rw [act]
      cases h : s.phase i with
      | parked a => exact .wake i false a h
      | _ => rw [wake, h]; exact .stay _
  | exit i =>
      rw [act]
      split_ifs with hidle
      · exact .go i _ s.pool (goes_of_plain hself (by rw [hidle]; rfl) rfl
          (fun hm => Bool.noConfusion hm) (fun hw => Bool.noConfusion hw) fun _ => rfl)
      · exact .stay _

end Moves

/-! ### The owners of the mutexes -/

/-- The owners and the sleepers are the threads whose phase says so. -/
structure WellLocked (producer : ι) (s : Threads ι) : Prop where
  mutex : ∀ i, (s.phase i).holdsMutex = true ↔ s.mMutex = some i
  wMutex : ∀ i, (s.phase i).holdsWMutex = true ↔ s.mWMutex = some i
  asleep : ∀ i, i ∈ s.mNotEnoughBytes ↔ ∃ a, s.phase i = .parked a
  nodup : s.mNotEnoughBytes.Nodup
  producer_pushes : (s.phase producer).pushes

section WellLocked

variable {producer : ι} {s : Threads ι}

omit [DecidableEq ι] in
lemma wellLocked_fresh (producer : ι) (C : PoolCapacity) : WellLocked producer (fresh C) where
  mutex i := by simp [fresh, ThreadPhase.holdsMutex]
  wMutex i := by simp [fresh, ThreadPhase.holdsWMutex]
  asleep i := by simp [fresh]
  nodup := List.nodup_nil
  producer_pushes := rfl

omit [DecidableEq ι] in
/-- The owner of `m_mutex` is the thread whose phase holds it. -/
lemma WellLocked.guards (hs : s.WellLocked producer) :
    Mutex.Guards ThreadPhase.holdsMutex s.phase s.mMutex := hs.mutex

omit [DecidableEq ι] in
/-- The owner of `m_w_mutex` is the thread whose phase holds it. -/
lemma WellLocked.guardsW (hs : s.WellLocked producer) :
    Mutex.Guards ThreadPhase.holdsWMutex s.phase s.mWMutex := hs.wMutex

omit [DecidableEq ι] in
/-- Two threads that hold `m_w_mutex` are one. -/
lemma WellLocked.wMutex_unique (hs : s.WellLocked producer) {i k : ι}
    (hi : (s.phase i).holdsWMutex) (hk : (s.phase k).holdsWMutex) : i = k :=
  hs.guardsW.unique hi hk

/-- A thread goes on to a phase, taking free mutexes only. -/
lemma WellLocked.moveTo (hs : s.WellLocked producer) {i : ι} {p : ThreadPhase} {l : List ι}
    (hl : ∀ k, k ≠ i → (k ∈ l ↔ k ∈ s.mNotEnoughBytes)) (hi : i ∈ l ↔ ∃ a, p = .parked a)
    (hnodup : l.Nodup) (hmutex : p.holdsMutex → s.mMutex = none ∨ (s.phase i).holdsMutex)
    (hwMutex : p.holdsWMutex → s.mWMutex = none ∨ (s.phase i).holdsWMutex)
    (hpush : i = producer → p.pushes) (q : BufferPool) (c : Settled) (j : Option ι) :
    WellLocked producer ({ s with
      pool := q, mNotEnoughBytes := l, settled := c, abortedBy := j }.moveTo i p) where
  mutex := hs.guards.passOn hmutex
  wMutex := hs.guardsW.passOn hwMutex
  asleep k := by
    by_cases hk : k = i
    · subst hk
      simpa [Threads.moveTo] using hi
    · simpa [Threads.moveTo, Function.update_of_ne hk, hl k hk] using hs.asleep k
  nodup := hnodup
  producer_pushes := by
    by_cases hi : i = producer
    · subst hi
      simpa [Threads.moveTo] using hpush rfl
    · simpa [Threads.moveTo, Function.update_of_ne (Ne.symm hi)] using hs.producer_pushes

/-- A thread that is awake, and stays so, goes on to a phase. -/
lemma WellLocked.go (hs : s.WellLocked producer) {i : ι} {p : ThreadPhase}
    (hawake : ∀ a, s.phase i ≠ .parked a) (hp : ∀ a, p ≠ .parked a)
    (hmutex : p.holdsMutex → s.mMutex = none ∨ (s.phase i).holdsMutex)
    (hwMutex : p.holdsWMutex → s.mWMutex = none ∨ (s.phase i).holdsWMutex)
    (hpush : i = producer → p.pushes) (q : BufferPool) (c : Settled) (j : Option ι) :
    WellLocked producer ({ s with pool := q, settled := c, abortedBy := j }.moveTo i p) :=
  hs.moveTo (fun _ _ => Iff.rfl) (by rw [hs.asleep]; simp [hawake, hp]) hs.nodup hmutex hwMutex
    hpush q c j

/-- A sleep ends. -/
lemma WellLocked.wake (hs : s.WellLocked producer) (i : ι) (timedOut : Bool) :
    WellLocked producer (s.wake i timedOut) := by
  cases h : s.phase i with
  | parked a =>
      have hne : i ≠ producer := by
        rintro rfl
        simpa [h, ThreadPhase.pushes] using hs.producer_pushes
      rw [Threads.wake, h]
      refine hs.moveTo (fun k hk => List.mem_erase_of_ne hk) ?_ (hs.nodup.erase i)
        (by simp [ThreadPhase.holdsMutex]) (by simp [ThreadPhase.holdsWMutex])
        (fun hi => absurd hi hne) _ _ _
      simp [hs.nodup.not_mem_erase]
  | _ => rw [Threads.wake, h]; exact hs

lemma WellLocked.notifyOne (hs : s.WellLocked producer) (k : ℕ) :
    WellLocked producer (s.notifyOne k) := by
  rw [Threads.notifyOne]
  cases s.sleeper k with
  | none => exact hs
  | some i => exact hs.wake i false

@[simp] lemma holdsMutex_woken (p : ThreadPhase) : p.woken.holdsMutex = p.holdsMutex := by
  cases p <;> rfl

@[simp] lemma holdsWMutex_woken (p : ThreadPhase) : p.woken.holdsWMutex = p.holdsWMutex := by
  cases p <;> rfl

@[simp] lemma aborts_woken (p : ThreadPhase) : p.woken.aborts = p.aborts := by
  cases p <;> rfl

@[simp] lemma pushes_woken (p : ThreadPhase) : p.woken.pushes = p.pushes := by
  cases p <;> rfl

/-- The phases that `notify_all` leaves as they are. -/
lemma woken_eq {p q : ThreadPhase} (h : p.woken = q) (hq : ∀ a, q ≠ .waitRelock a false) :
    p = q := by
  cases p with
  | parked a => exact absurd h.symm (hq a)
  | _ => exact h

lemma woken_ne_parked (p : ThreadPhase) (a : ReadArgs) : p.woken ≠ .parked a := by
  cases p <;> simp [ThreadPhase.woken]

omit [DecidableEq ι] in
lemma WellLocked.notifyAll (hs : s.WellLocked producer) : WellLocked producer s.notifyAll where
  mutex := hs.guards.map holdsMutex_woken
  wMutex := hs.guardsW.map holdsWMutex_woken
  asleep i := by simp [Threads.notifyAll, woken_ne_parked]
  nodup := List.nodup_nil
  producer_pushes := by simpa [Threads.notifyAll] using hs.producer_pushes

open ThreadPhase in
/-- Every move keeps the owners and the sleepers in step with the phases. -/
theorem WellLocked.moves (hs : s.WellLocked producer) {e : ThreadEvent ι} {s' : Threads ι}
    (h : s.Moves producer e s') : s'.WellLocked producer := by
  have hproducer : ∀ {i p}, s.phase i = p → i = producer → p.pushes := by
    rintro i p rfl rfl
    exact hs.producer_pushes
  cases h with
  | stay => exact hs
  | go i p q h =>
      exact hs.go h.awake h.parked h.mutex h.wMutex h.producer q _ _
  | park i c a h =>
      have hout : i ∉ s.mNotEnoughBytes := by simp [hs.asleep, h]
      refine hs.moveTo (fun k hk => by simp [hk]) (by simp) ?_ (by simp [holdsMutex])
        (by simp [holdsWMutex]) (fun hi => by simpa [pushes] using hproducer h hi) _ _ _
      rw [List.nodup_append_comm]
      exact List.nodup_cons.mpr ⟨hout, hs.nodup⟩
  | wake i timedOut => exact hs.wake i timedOut
  | leave i c a timedOut h =>
      exact hs.go (by simp [h]) (by simp) (by simp [holdsMutex]) (by simp [holdsWMutex])
        (by simp [pushes]) _ _ _
  | store i c b h =>
      exact hs.go (by simp [h]) (by simp) (by simp [holdsMutex]) (by simp [h, holdsWMutex])
        (by simp [pushes]) _ _ _
  | notifyOne i c h =>
      have hi := s.phase_notifyOne_of_awake c.sleeper (i := i) (by simp [h])
      exact (hs.notifyOne c.sleeper).go (by simp [hi, h]) (by simp) (by simp [holdsMutex])
        (by simp [hi, h, holdsWMutex]) (by simp [pushes]) _ _ _
  | settle i c h =>
      exact hs.go (by simp [h]) (by simp) (by simp [holdsMutex]) (by simp [holdsWMutex])
        (by simp [pushes]) _ _ _
  | clear i c h =>
      exact hs.go (by simp [h]) (by simp) (by simp [holdsMutex]) (by simp [holdsWMutex])
        (by simp [pushes]) _ _ _
  | rewind i c h =>
      exact hs.go (by simp [h]) (by simp) (by simp [holdsMutex]) (by simp [holdsWMutex])
        (by simp [pushes]) _ _ _
  | raise i h hne =>
      exact hs.go (by simp [h]) (by simp) (by simp [holdsMutex]) (by simp [holdsWMutex])
        (fun hi => absurd hi hne) _ _ _
  | notifyAll i c h =>
      exact hs.notifyAll.go (fun a => woken_ne_parked _ a) (by simp) (by simp [holdsMutex])
        (by simp [holdsWMutex]) (fun hi => by simpa [pushes] using hproducer h hi) _ _ _
  | finish i c h =>
      exact hs.go (by simp [h]) (by simp) (by simp [holdsMutex]) (by simp [holdsWMutex])
        (by simp [pushes]) _ _ _

lemma WellLocked.moves_next (hs : s.WellLocked producer) (e : ThreadEvent ι) :
    s.Moves producer e ((threadMachine producer).next s e) :=
  moves_act hs.producer_pushes e

lemma WellLocked.next (hs : s.WellLocked producer) (e : ThreadEvent ι) :
    WellLocked producer ((threadMachine producer).next s e) :=
  hs.moves (hs.moves_next e)

/-- **The owners of the mutexes are the threads whose phase says so**, in every reachable state. -/
theorem wellLocked_run (producer : ι) (C : PoolCapacity) (es : List (ThreadEvent ι)) :
    WellLocked producer ((threadMachine producer).run (fresh C) es) :=
  Machine.invariant_run (I := WellLocked producer) (fun _ e hs => hs.next e)
    (wellLocked_fresh producer C) es

end WellLocked

end Threads

end StreamFs
