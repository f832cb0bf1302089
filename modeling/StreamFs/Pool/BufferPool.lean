import StreamFs.Base.Blocks
import StreamFs.Pool.Throttle

/-!
The buffer pool (`BufferPool.h`, `BufferPool.cpp`, in the build with
`BUFFER_CHUNK_READ_THROTTLING`): a ring of chunks, the count of chunks ever pushed, and the
operations of the producer and the reader.

* `BufferChunk`, `ReadArgs`, `BufferPool`: a chunk of exactly `BUFFER_CHUNK_SIZE` bytes, the
  arguments of `read`, and the fields of the pool.
* `refuses`, `mustWait`, `readReady`, `leaveWait`, `finishRead`: `read` cut at its lock
  operations: the guards under `m_mutex`, the wait on `mNotEnoughBytes`, and the copy loop
  under `m_w_mutex` with the throttle behind it.
* `copyLoop`: the copy loop, as a fold of its body over the indices. Each `memcpy` is recorded
  as a `Copy`, with the ring position it reads and the bytes it finds there, none where the
  position or the bytes are out of bounds.
* `read`, `readRandomAccess`, `pushBuffer`, `clear`, `clearToLastRead`, `abortAllOperations`.

The chunk count is a natural number: it is not reduced modulo `2^64`, a number of pushes out
of reach.
-/

namespace StreamFs

/-- `TS_PACKAGE_SIZE`. -/
def tsPackageSize : ℕ := 188

/-- `BUFFER_CHUNK_SIZE`. -/
def bufferChunkSize : ℕ := 8 * 6 * tsPackageSize

lemma bufferChunkSize_eq : bufferChunkSize = 9024 := rfl

/-- The largest capacity a ring of chunks can have: beyond it the chunks do not fit in the
address space and the constructor of the ring throws. -/
def maxCapacity : ℕ := (2 ^ 64 - 1) / bufferChunkSize

/-- A capacity the pool can be constructed with. -/
structure PoolCapacity where
  val : ℕ
  one_le : 1 ≤ val
  le_max : val ≤ maxCapacity

namespace PoolCapacity

/-- A capacity given as a number. -/
def ofNat (n : ℕ) (h : 1 ≤ n ∧ n ≤ maxCapacity := by decide) : PoolCapacity := ⟨n, h.1, h.2⟩

/-- The chunks of a pool fit in the address space. -/
lemma mul_lt (C : PoolCapacity) : C.val * bufferChunkSize < 2 ^ 64 := by
  have h := C.le_max
  rw [maxCapacity, bufferChunkSize_eq] at h
  rw [bufferChunkSize_eq]
  omega

lemma lt (C : PoolCapacity) : C.val < 2 ^ 64 := by
  have h := C.mul_lt
  rw [bufferChunkSize_eq] at h
  omega

end PoolCapacity

/-- `buffer_chunk`: an array of exactly `BUFFER_CHUNK_SIZE` bytes. -/
structure BufferChunk where
  data : List UInt8
  length_eq : data.length = bufferChunkSize
  deriving DecidableEq

/-- The chunk filled with one byte. -/
def BufferChunk.filled (b : UInt8) : BufferChunk :=
  ⟨List.replicate bufferChunkSize b, List.length_replicate⟩

/-- The `n` bytes from position `skip` of a chunk, none where they pass its end. -/
def BufferChunk.bytes (c : BufferChunk) (skip n : ℕ) : Option (List UInt8) :=
  if skip + n ≤ bufferChunkSize then some (slice c.data skip n) else none

/-- The arguments of `pushBuffer`, with its defaults. -/
structure PushArgs where
  buffer : BufferChunk
  lastBuffer : Bool := false
  lastBufferSize : ℕ := 0

/-- The push of a chunk filled with one byte. -/
def PushArgs.filled (b : UInt8) : PushArgs := { buffer := .filled b }

/-- The arguments of `read`, in chunks (`length`, `offset`) and bytes (the paddings). -/
structure ReadArgs where
  length : ℕ
  offset : ℕ
  leftPadding : ℕ
  rightPadding : ℕ
  deriving DecidableEq

/-- The chunk number a read ends before. -/
def ReadArgs.readEnd (a : ReadArgs) : ℕ := a.offset + a.length

/-- The fields of `BufferPool<buffer_chunk>`. -/
structure BufferPool where
  mCircBuf : Ring BufferChunk
  mTotalBufCount : ℕ
  mLastReadLocation : ℕ
  mReadEnd : ℕ
  mGotLastBuffer : Bool
  mLastBufferSize : ℕ
  exitPending : Bool
  mAborting : Bool
  mThrottle : BufferPoolThrottle

/-- One `memcpy` of the copy loop: the destination relative to `bufferChunks`, the ring
position, the offset in the chunk, the number of bytes, and the bytes found. -/
structure Copy where
  dst : ℤ
  startPos : ℕ
  leftSkip : ℕ
  size : ℕ
  bytes : Option (List UInt8)
  deriving DecidableEq

/-- What a read gives its caller: the return value and the copies made into the buffer. -/
structure ReadResult where
  ret : ℕ
  copies : List Copy
  deriving DecidableEq

/-- The result of a read that returns `0` without copying. -/
def ReadResult.nothing : ReadResult := ⟨0, []⟩

/-- The reasons for which the guards of `read` return `0`, in their order. -/
inductive Refusal where
  | exitPending | endOfStream | badPadding | outOfWindow
  deriving DecidableEq

namespace BufferPool

/-- The constructor. -/
def create (C : PoolCapacity) : BufferPool where
  mCircBuf := Ring.empty C.val
  mTotalBufCount := 0
  mLastReadLocation := 0
  mReadEnd := 0
  mGotLastBuffer := false
  mLastBufferSize := 0
  exitPending := false
  mAborting := false
  mThrottle := BufferPoolThrottle.create C.val

/-- `getCapacity`. -/
def getCapacity (p : BufferPool) : ℕ := p.mCircBuf.capacity

/-- `getSize`. -/
def getSize (p : BufferPool) : ℕ := p.mCircBuf.size

/-- `getTotalBufferCount`. -/
def getTotalBufferCount (p : BufferPool) : ℕ := p.mTotalBufCount

/-! ### The guards and the wait of `read` -/

/-- The guards of `read`. The third test of the paddings is one of an unsigned value. -/
def refuses (p : BufferPool) (a : ReadArgs) : Option Refusal :=
  if p.exitPending then some .exitPending
  else if p.mGotLastBuffer ∧ p.mTotalBufCount ≤ a.offset then some .endOfStream
  else if bufferChunkSize ≤ a.leftPadding ∨ bufferChunkSize ≤ a.rightPadding ∨
      subU64 (subU64 a.length a.leftPadding) a.rightPadding < 0 then some .badPadding
  else if p.getCapacity < subU64 p.mTotalBufCount a.offset ∨ p.mTotalBufCount < a.offset ∨
      p.getCapacity < a.length then some .outOfWindow
  else none

/-- The chunks asked for have not all arrived in a stream that still runs. -/
def mustWait (p : BufferPool) (a : ReadArgs) : Prop :=
  p.mTotalBufCount < a.readEnd ∧ p.mGotLastBuffer = false

instance (p : BufferPool) (a : ReadArgs) : Decidable (p.mustWait a) :=
  inferInstanceAs (Decidable (_ ∧ _))

/-- The predicate of the wait on `mNotEnoughBytes`. -/
def readReady (p : BufferPool) (a : ReadArgs) : Prop :=
  a.readEnd ≤ p.mTotalBufCount ∨ p.mGotLastBuffer = true ∨ p.mAborting = true

instance (p : BufferPool) (a : ReadArgs) : Decidable (p.readReady a) :=
  inferInstanceAs (Decidable (_ ∨ _ ∨ _))

/-- The pool after a wait that ended with its predicate true: an aborted reader takes the
abort with it, any other one notes its end. -/
def leaveWait (p : BufferPool) (a : ReadArgs) : BufferPool :=
  if p.mAborting then { p with mAborting := false } else { p with mReadEnd := a.readEnd }

/-! ### The copy loop -/

/-- `leftSkip` of iteration `i`. -/
def leftSkip (a : ReadArgs) (i : ℕ) : ℕ := if i = 0 then a.leftPadding else 0

/-- `rightSkip` of iteration `i`. -/
def rightSkip (a : ReadArgs) (i : ℕ) : ℕ := if i = subU64 a.length 1 then a.rightPadding else 0

/-- `lastItemCopySize` of iteration `i`. The test for the final chunk compares the index of the
iteration with the count of chunks. -/
def lastItemCopySize (p : BufferPool) (a : ReadArgs) (i : ℕ) : ℕ :=
  let lastItemCopySize := subU64 (subU64 bufferChunkSize (leftSkip a i)) (rightSkip a i)
  if p.mGotLastBuffer ∧ i = subU64 p.mTotalBufCount 1 then
    min p.mLastBufferSize lastItemCopySize
  else lastItemCopySize

/-- `startPos` of iteration `i`. -/
def startPos (p : BufferPool) (a : ReadArgs) (i : ℕ) : ℕ :=
  let endPos := min p.getSize p.getCapacity
  addU64 (subU64 endPos (subU64 p.mTotalBufCount a.offset)) i

/-- The state of the copy loop: the pool, the accumulator `off` of type `int`, and the copies
made so far. -/
structure CopyState where
  pool : BufferPool
  off : ℤ
  copies : List Copy

/-- The body of the copy loop. -/
def copyBody (a : ReadArgs) (s : CopyState) (i : ℕ) : CopyState :=
  let p := s.pool
  let n := p.lastItemCopySize a i
  let pos := p.startPos a i
  { pool := { p with
      mLastReadLocation := pos
      mThrottle := p.mThrottle.setReadPosition pos }
    off := toInt32 (s.off + n)
    copies := s.copies ++ [{
      dst := s.off
      startPos := pos
      leftSkip := leftSkip a i
      size := n
      bytes := p.mCircBuf.items[pos]?.bind fun c => c.bytes (leftSkip a i) n }] }

/-- The copy loop. -/
def copyLoop (p : BufferPool) (a : ReadArgs) : CopyState :=
  (List.range a.length).foldl (copyBody a) ⟨p, 0, []⟩

/-- The copy block of `read` with the throttle behind it. An empty ring ends the read before
both. -/
def finishRead (p : BufferPool) (a : ReadArgs) (loop : LoopProgress) : ReadResult × BufferPool :=
  if p.getSize = 0 then (.nothing, p)
  else
    let s := p.copyLoop a
    (⟨toSizeT s.off, s.copies⟩, { s.pool with mThrottle := s.pool.mThrottle.wait loop })

/-! ### The operations -/

/-- `read`, run with no other thread at work: a wait that does not find its predicate true
ends by the timeout. -/
def read (p : BufferPool) (a : ReadArgs) (loop : LoopProgress) : ReadResult × BufferPool :=
  if (p.refuses a).isSome then (.nothing, p)
  else if p.mustWait a then
    if p.readReady a then
      if p.mAborting then (.nothing, p.leaveWait a) else (p.leaveWait a).finishRead a loop
    else (.nothing, p)
  else p.finishRead a loop

/-- The chunk arguments `readRandomAccess` computes from byte arguments. -/
def randomAccessArgs (size offsetBytes : ℕ) : ReadArgs :=
  let leftPadding := offsetBytes % bufferChunkSize
  let rightPadding :=
    subU64 bufferChunkSize (addU64 leftPadding size % bufferChunkSize) % bufferChunkSize
  { length := addU64 (addU64 leftPadding rightPadding) size / bufferChunkSize
    offset := offsetBytes / bufferChunkSize
    leftPadding
    rightPadding }

/-- `readRandomAccess`. -/
def readRandomAccess (p : BufferPool) (size offsetBytes : ℕ) (loop : LoopProgress) :
    ReadResult × BufferPool :=
  p.read (randomAccessArgs size offsetBytes) loop

/-- `pushBuffer`, called at `now`. -/
def pushBuffer (p : BufferPool) (b : PushArgs) (now : ℕ) : BufferPool :=
  if p.exitPending then p
  else
    { p with
      mThrottle := p.mThrottle.registerTimePeriod now
      mCircBuf := p.mCircBuf.pushBack b.buffer
      mTotalBufCount := p.mTotalBufCount + 1
      mGotLastBuffer := if b.lastBuffer then true else p.mGotLastBuffer
      mLastBufferSize := if b.lastBuffer then b.lastBufferSize else p.mLastBufferSize }

/-- `clear`. -/
def clear (p : BufferPool) : BufferPool :=
  { p with
    mGotLastBuffer := false
    mTotalBufCount := 0
    mReadEnd := 0
    mLastBufferSize := 0
    mCircBuf := p.mCircBuf.clear
    mThrottle := p.mThrottle.clear }

/-- `clearToLastRead`: erases the chunks behind the last read location. -/
def clearToLastRead (p : BufferPool) : BufferPool :=
  if p.getSize = 0 then p
  else
    let numElements := p.getSize
    let eraseCount := numElements - p.mLastReadLocation - 1
    { p with
      mCircBuf :=
        if p.mLastReadLocation < numElements then p.mCircBuf.eraseEnd eraseCount else p.mCircBuf
      mTotalBufCount :=
        if p.mLastReadLocation < numElements then subU64 p.mTotalBufCount eraseCount
        else p.mTotalBufCount
      mAborting := false
      mThrottle := p.mThrottle.clearToLastRead }

/-- `abortAllOperations`, up to the call of the producer's `stop`. -/
def abortAllOperations (p : BufferPool) : BufferPool := { p with mAborting := true }

end BufferPool

end StreamFs
