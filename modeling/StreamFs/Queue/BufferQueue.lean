import StreamFs.Base.LoggedQueue
import StreamFs.Base.Machine
import StreamFs.Base.Mutex
import StreamFs.Base.Unsigned

/-!
`BufferQueue` under any number of threads, at the granularity of its locks (`BufferQueue.h`).

* `QueueSide`: the side `fill` is `consumerQueue` with `fillM` and `fillBuffCond`, the side `empty`
  is `producerQueue` with `emptyM` and `emptyBuffCond`.
* `Access`: an operation on one side, which puts an element in or takes one. `queue`, `consume`,
  `consumeFor`, `acquire` and `release` are the ones there are. `clear` works on both sides.
* `QueuePhase`: where a thread stands in an operation, named after the step that comes next.
  `QueuePhase.holds`: the mutexes it holds.
* `BufferQueue`: the two queues with their logs, the owners of the mutexes, and the phases of the
  threads. `step`, `machine`: the threads take their steps in any order.
-/

namespace StreamFs

/-- The two queues. -/
inductive QueueSide where
  | fill
  | empty
deriving DecidableEq

/-- What an operation is for. -/
inductive Purpose (α : Type*) where
  | put (req : α)
  | take (timed : Bool)
deriving DecidableEq

/-- An operation on one side. -/
structure Access (α : Type*) where
  side : QueueSide
  purpose : Purpose α
deriving DecidableEq

namespace Access

variable {α : Type*}

/-- `queue`. -/
def queue (req : α) : Access α := ⟨.fill, .put req⟩

/-- `acquire`. -/
def acquire : Access α := ⟨.empty, .take false⟩

/-- `consume`. -/
def consume : Access α := ⟨.fill, .take false⟩

/-- `consume` with a timeout. -/
def consumeFor : Access α := ⟨.fill, .take true⟩

/-- `release`. -/
def release (req : α) : Access α := ⟨.empty, .put req⟩

end Access

/-- What an operation gives back: nothing, an element, or that the time is up. -/
inductive QueueReply (α : Type*) where
  | done
  | got (req : α)
  | timedOut
deriving DecidableEq

/-- Where a thread stands: outside, or before a step of an operation. -/
inductive QueuePhase (α : Type*) where
  | idle
  -- an operation on one side
  | lock (a : Access α)
  | check (a : Access α) (timedOut : Bool)
  | asleep (a : Access α)
  | relock (a : Access α) (timedOut : Bool)
  | act (a : Access α)
  | pop (a : Access α) (req : α)
  | unlock (a : Access α) (reply : QueueReply α)
  | notify (a : Access α) (reply : QueueReply α)
  | giveUp (a : Access α)
  -- `clear`
  | clearLock
  | clearCheck (side : QueueSide)
  | clearPop (side : QueueSide)
  | clearNotify
  | clearUnlock
  | clearLast
deriving DecidableEq

namespace QueuePhase

variable {α : Type*}

/-- The phases in which a thread holds the mutex of a side. `clear` holds `fillM` only. -/
def holds (side : QueueSide) : QueuePhase α → Bool
  | check a _ | act a | pop a _ | unlock a _ | giveUp a => a.side = side
  | clearCheck _ | clearPop _ | clearNotify | clearUnlock => side = .fill
  | _ => false

/-- The phase after `notify_all` on the condition variable of a side. -/
def woken (side : QueueSide) : QueuePhase α → QueuePhase α
  | asleep a => if a.side = side then relock a false else asleep a
  | p => p

end QueuePhase

/-- The calls of a thread. -/
inductive QueueCall (α : Type*) where
  | queue (req : α)
  | acquire
  | consume
  | consumeFor
  | release (req : α)
  | clear
deriving DecidableEq

/-- The first step of a call. -/
def QueueCall.start {α : Type*} : QueueCall α → QueuePhase α
  | queue req => .lock (.queue req)
  | acquire => .lock .acquire
  | consume => .lock .consume
  | consumeFor => .lock .consumeFor
  | release req => .lock (.release req)
  | clear => .clearLock

/-- The events of the threads. A sleep ends by `notify_all`, by its timeout, or for no reason. -/
inductive QueueEvent (ι α : Type*) where
  | call (i : ι) (c : QueueCall α)
  | step (i : ι)
  | timeout (i : ι)
  | spuriousWake (i : ι)
deriving DecidableEq

/-- The thread that takes a step of an operation. -/
def QueueEvent.stepper {ι α : Type*} : QueueEvent ι α → Option ι
  | step i => some i
  | _ => none

/-- The queues and the threads. -/
structure BufferQueue (ι α : Type*) where
  mMaxDepth : ℤ
  queue : QueueSide → LoggedQueue α
  mutex : QueueSide → Option ι
  phase : ι → QueuePhase α

namespace BufferQueue

variable {ι α : Type*}

/-- A new queue, with all threads outside. -/
def create (queueSize : ℕ) : BufferQueue ι α where
  mMaxDepth := toInt32 queueSize
  queue _ := .empty
  mutex _ := none
  phase _ := .idle

/-- What a queue of a side holds. -/
def contents (s : BufferQueue ι α) (side : QueueSide) : List α := (s.queue side).contents

/-- `isConsumerQueueFull` and `isProducerQueueFull`. The size is unsigned, and so the depth is
converted. -/
def isFull (s : BufferQueue ι α) (side : QueueSide) : Bool :=
  toSizeT s.mMaxDepth ≤ (s.contents side).length

/-- `isConsumerQueueEmpty` and `isProducerQueueEmpty`. -/
def isEmpty (s : BufferQueue ι α) (side : QueueSide) : Bool := (s.contents side).length = 0

def isConsumerQueueFull (s : BufferQueue ι α) : Bool := s.isFull .fill

def isConsumerQueueEmpty (s : BufferQueue ι α) : Bool := s.isEmpty .fill

def isProducerQueueFull (s : BufferQueue ι α) : Bool := s.isFull .empty

def isProducerQueueEmpty (s : BufferQueue ι α) : Bool := s.isEmpty .empty

/-- What an operation waits for. -/
def ready (s : BufferQueue ι α) : Access α → Bool
  | ⟨.fill, .put _⟩ => !s.isConsumerQueueFull
  | ⟨.fill, .take _⟩ => !s.isConsumerQueueEmpty
  | ⟨.empty, .put _⟩ => !s.isProducerQueueFull
  | ⟨.empty, .take _⟩ => !s.isProducerQueueEmpty

/-- The queue of a side changes. -/
def setQueue (s : BufferQueue ι α) (side : QueueSide) (q : LoggedQueue α) : BufferQueue ι α :=
  { s with queue := Function.update s.queue side q }

/-- `notify_all` on the condition variable of a side. -/
def notifyAll (s : BufferQueue ι α) (side : QueueSide) : BufferQueue ι α :=
  { s with phase := fun i => (s.phase i).woken side }

variable [DecidableEq ι]

/-- Thread `i` goes on to phase `p`: it takes and gives back the mutexes as the phase says. -/
def moveTo (s : BufferQueue ι α) (i : ι) (p : QueuePhase α) : BufferQueue ι α :=
  { s with
    phase := Function.update s.phase i p
    mutex := fun side => Mutex.passOn (s.mutex side) i (p.holds side) }

/-- Thread `i` locks the mutex of a side where it is free. -/
def lock (s : BufferQueue ι α) (i : ι) (side : QueueSide) (p : QueuePhase α) : BufferQueue ι α :=
  if s.mutex side = none then s.moveTo i p else s

/-- The timer of thread `i` runs out, if it sleeps in the `consume` that has one. -/
def timeout (s : BufferQueue ι α) (i : ι) : BufferQueue ι α :=
  match s.phase i with
  | .asleep ⟨side, .take true⟩ => s.moveTo i (.relock ⟨side, .take true⟩ true)
  | _ => s

/-- Thread `i` ends its sleep for no reason, if it is asleep. -/
def spuriousWake (s : BufferQueue ι α) (i : ι) : BufferQueue ι α :=
  match s.phase i with
  | .asleep a => s.moveTo i (.relock a false)
  | _ => s

/-- Thread `i` takes its next step, if it can. -/
def step (s : BufferQueue ι α) (i : ι) : BufferQueue ι α × Option (QueueReply α) :=
  match s.phase i with
  | .idle | .asleep _ => (s, none)
  | .lock a => (s.lock i a.side (.check a false), none)
  | .check a timedOut =>
      (s.moveTo i (if s.ready a then .act a else if timedOut then .giveUp a else .asleep a), none)
  | .relock a timedOut => (s.lock i a.side (.check a timedOut), none)
  | .act ⟨side, .put req⟩ =>
      ((s.setQueue side ((s.queue side).push req)).moveTo i (.unlock ⟨side, .put req⟩ .done), none)
  | .act ⟨side, .take timed⟩ =>
      -- the `front` of an empty queue is undefined: nothing is read
      let s' := s.setQueue side (s.queue side).readFront
      (match (s.contents side).head? with
        | some req => s'.moveTo i (.pop ⟨side, .take timed⟩ req)
        | none => s', none)
  | .pop a req =>
      ((s.setQueue a.side ((s.queue a.side).pop fun _ => .taken req)).moveTo i
        (.unlock a (.got req)), none)
  | .unlock a reply => (s.moveTo i (.notify a reply), none)
  | .notify a reply => ((s.notifyAll a.side).moveTo i .idle, some reply)
  | .giveUp _ => (s.moveTo i .idle, some .timedOut)
  | .clearLock => (s.lock i .fill (.clearCheck .fill), none)
  | .clearCheck .fill =>
      (s.moveTo i (if s.isConsumerQueueEmpty then .clearNotify else .clearPop .fill), none)
  | .clearCheck .empty =>
      (s.moveTo i (if s.isProducerQueueEmpty then .clearUnlock else .clearPop .empty), none)
  | .clearPop side =>
      ((s.setQueue side ((s.queue side).pop .dropped)).moveTo i (.clearCheck side), none)
  | .clearNotify => ((s.notifyAll .fill).moveTo i (.clearCheck .empty), none)
  | .clearUnlock => (s.moveTo i .clearLast, none)
  | .clearLast => ((s.notifyAll .empty).moveTo i .idle, some .done)

/-- The queues under any number of threads. The output is what an operation gives back. -/
def machine : Machine (BufferQueue ι α) (QueueEvent ι α) (Option (QueueReply α)) where
  step s
    | .call i c =>
        match s.phase i with
        | .idle => (s.moveTo i c.start, none)
        | _ => (s, none)
    | .step i => s.step i
    | .timeout i => (s.timeout i, none)
    | .spuriousWake i => (s.spuriousWake i, none)

end BufferQueue

end StreamFs
