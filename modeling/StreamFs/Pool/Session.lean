import StreamFs.Base.Machine
import StreamFs.Pool.RandomAccess

/-!
Runs of a pool with one reader, interleaved with the producer at the lock operations of
`read`.

* `Session`: the pool, the phase of the reader, and the stream, a record of the chunks in the
  current numbering that the code does not keep. `Session.window` is the part of it the ring
  holds.
* `Event`, `Session.act`, `machine`: a `read` is the event `read` (the guards under `m_mutex`),
  then `wake` or `timeout` where it waits, then `copy` (the copy loop under `m_w_mutex` and the
  throttle). `clear` and `clearToLastRead` belong to the thread that reads; they are enabled
  while no read is under way. A disabled event changes nothing.
* `Session.Moves`: what one event can do to a session, the inversion of `act` on which every
  invariant rests.
* `Session.WellFormed`, `wellFormed_run`: the ring shows the newest part of the stream in every
  reachable session, and an admitted read has its range within the stream.
-/

namespace StreamFs

/-- A chunk of the stream: the push it came with, and the period registered for it. -/
structure StreamEntry where
  push : PushArgs
  period : ℕ

/-- The bytes of the chunk. -/
def StreamEntry.chunk (e : StreamEntry) : BufferChunk := e.push.buffer

/-- Where a reader stands: outside `read`, in the wait on `mNotEnoughBytes`, or between the
guards (or the wait) and the copy loop. -/
inductive ReaderPhase where
  | idle
  | waiting (a : ReadArgs)
  | admitted (a : ReadArgs)
  deriving DecidableEq

/-- A pool, its reader, and the stream of chunks in the current numbering. -/
structure Session where
  pool : BufferPool
  reader : ReaderPhase
  stream : List StreamEntry

/-- The steps of the threads, each atomic under the mutexes it holds. -/
inductive Event where
  | pushBuffer (b : PushArgs) (now : ℕ)
  | read (a : ReadArgs)
  | wake
  | timeout
  | copy (loop : LoopProgress)
  | clear
  | clearToLastRead
  | abortAllOperations
  | throttleLoop (loop : LoopProgress)

/-- What can be observed of a step: the result of a read that ends with it, and the sizes after
it. -/
structure Observation where
  result : Option ReadResult
  getSize : ℕ
  getTotalBufferCount : ℕ
  deriving DecidableEq

namespace Session

/-- A session on a new pool. -/
def fresh (C : PoolCapacity) : Session := ⟨.create C, .idle, []⟩

/-- The part of the stream the ring should hold. -/
def window (s : Session) : LogWindow StreamEntry :=
  ⟨s.stream, s.stream.length - s.pool.getSize, Nat.sub_le _ _⟩

/-! ### The steps -/

/-- `pushBuffer`. -/
def pushBuffer (s : Session) (b : PushArgs) (now : ℕ) : Session :=
  { s with
    pool := s.pool.pushBuffer b now
    stream :=
      if s.pool.exitPending then s.stream
      else s.stream ++ [⟨b, s.pool.mThrottle.timePeriod now⟩] }

/-- The guards of `read`. -/
def read (s : Session) (a : ReadArgs) : Session × Option ReadResult :=
  if (s.pool.refuses a).isSome then (s, some .nothing)
  else if s.pool.mustWait a then ({ s with reader := .waiting a }, none)
  else ({ s with reader := .admitted a }, none)

/-- The end of a wait whose predicate is true. -/
def wake (s : Session) (a : ReadArgs) : Session × Option ReadResult :=
  if s.pool.readReady a then
    if s.pool.mAborting then
      ({ s with pool := s.pool.leaveWait a, reader := .idle }, some .nothing)
    else ({ s with pool := s.pool.leaveWait a, reader := .admitted a }, none)
  else (s, none)

/-- The end of a wait whose predicate is false. -/
def timeout (s : Session) (a : ReadArgs) : Session × Option ReadResult :=
  if s.pool.readReady a then (s, none) else ({ s with reader := .idle }, some .nothing)

/-- The copy block of `read`. -/
def copy (s : Session) (a : ReadArgs) (loop : LoopProgress) : Session × Option ReadResult :=
  ({ s with pool := (s.pool.finishRead a loop).2, reader := .idle },
    some (s.pool.finishRead a loop).1)

/-- `clear`. -/
def clear (s : Session) : Session := { s with pool := s.pool.clear, stream := [] }

/-- `clearToLastRead`. The numbers of the chunks it erases are given to later chunks. -/
def clearToLastRead (s : Session) : Session :=
  { s with
    pool := s.pool.clearToLastRead
    stream := s.stream.take s.pool.clearToLastRead.mTotalBufCount }

/-- The progress of `throttleLoop` between the steps of the other threads. -/
def throttleLoop (s : Session) (loop : LoopProgress) : Session :=
  { s with
    pool := { s.pool with
      mThrottle := { s.pool.mThrottle with
        mThrottleIndex := loop.mThrottleIndex
        mThrottleRunning := loop.mThrottleRunning } } }

/-- One event, with the result of the read it ends. -/
def act (s : Session) : Event → Session × Option ReadResult
  | .pushBuffer b now => (s.pushBuffer b now, none)
  | .read a => if s.reader = .idle then s.read a else (s, none)
  | .wake =>
      match s.reader with
      | .waiting a => s.wake a
      | _ => (s, none)
  | .timeout =>
      match s.reader with
      | .waiting a => s.timeout a
      | _ => (s, none)
  | .copy loop =>
      match s.reader with
      | .admitted a => s.copy a loop
      | _ => (s, none)
  | .clear => if s.reader = .idle then (s.clear, none) else (s, none)
  | .clearToLastRead => if s.reader = .idle then (s.clearToLastRead, none) else (s, none)
  | .abortAllOperations => ({ s with pool := s.pool.abortAllOperations }, none)
  | .throttleLoop loop => (s.throttleLoop loop, none)

/-- The observation after a step. -/
def observe (r : Session × Option ReadResult) : Observation :=
  ⟨r.2, r.1.pool.getSize, r.1.pool.getTotalBufferCount⟩

/-- The sessions as a machine. -/
def machine : Machine Session Event Observation where
  step s e := ((s.act e).1, observe (s.act e))

/-! ### What a step can do -/

/-- The chunks, the count, the end marker and the periods of two pools agree. -/
structure SameChunks (p q : BufferPool) : Prop where
  mCircBuf : q.mCircBuf = p.mCircBuf
  mTotalBufCount : q.mTotalBufCount = p.mTotalBufCount
  mGotLastBuffer : q.mGotLastBuffer = p.mGotLastBuffer
  mLastBufferSize : q.mLastBufferSize = p.mLastBufferSize
  exitPending : q.exitPending = p.exitPending
  mTimePeriodBuffer : q.mThrottle.mTimePeriodBuffer = p.mThrottle.mTimePeriodBuffer

/-- The positions that `clearToLastRead` goes by agree. -/
structure SamePositions (p q : BufferPool) : Prop where
  mLastReadLocation : q.mLastReadLocation = p.mLastReadLocation
  mPos : q.mThrottle.mPos = p.mThrottle.mPos
  mLastPos : q.mThrottle.mLastPos = p.mThrottle.mLastPos

/-- The range of a read under way fits in the ring and lies within the stream: it starts there,
and once admitted it also ends there unless the stream is finished. -/
def ReaderInRange (p : BufferPool) : ReaderPhase → Prop
  | .idle => True
  | .waiting a => a.offset ≤ p.mTotalBufCount ∧ a.length ≤ p.getCapacity
  | .admitted a => (a.offset ≤ p.mTotalBufCount ∧ a.length ≤ p.getCapacity)
      ∧ (p.mGotLastBuffer = false → a.readEnd ≤ p.mTotalBufCount)

/-- The event reaches the chunks or the positions. -/
def Touches (s : Session) : Event → Prop
  | .pushBuffer _ _ => True
  | .copy _ => ∃ a, s.reader = .admitted a
  | .clear | .clearToLastRead => s.reader = .idle
  | _ => False

/-- The moves of a session: the four events that touch the chunks or the positions, and all
others, which move at most the reader. -/
inductive Moves (s : Session) : Event → Session → Prop
  | keep {e : Event} {s' : Session} (hquiet : ¬ s.Touches e) (hchunks : SameChunks s.pool s'.pool)
      (hpositions : SamePositions s.pool s'.pool) (hstream : s'.stream = s.stream)
      (hreader : ReaderInRange s'.pool s'.reader) : Moves s e s'
  | pushBuffer (b : PushArgs) (now : ℕ) : Moves s (.pushBuffer b now) (s.pushBuffer b now)
  | copy (a : ReadArgs) (loop : LoopProgress) (hreader : s.reader = .admitted a) :
      Moves s (.copy loop) (s.copy a loop).1
  | clear (hreader : s.reader = .idle) : Moves s .clear s.clear
  | clearToLastRead (hreader : s.reader = .idle) : Moves s .clearToLastRead s.clearToLastRead

lemma SameChunks.refl (p : BufferPool) : SameChunks p p := ⟨rfl, rfl, rfl, rfl, rfl, rfl⟩

lemma SamePositions.refl (p : BufferPool) : SamePositions p p := ⟨rfl, rfl, rfl⟩

lemma sameChunks_leaveWait (p : BufferPool) (a : ReadArgs) : SameChunks p (p.leaveWait a) := by
  rw [BufferPool.leaveWait]
  split <;> exact ⟨rfl, rfl, rfl, rfl, rfl, rfl⟩

lemma samePositions_leaveWait (p : BufferPool) (a : ReadArgs) :
    SamePositions p (p.leaveWait a) := by
  rw [BufferPool.leaveWait]
  split <;> exact ⟨rfl, rfl, rfl⟩

section Moves

variable {s : Session}

/-- A step that leaves the session as it is. -/
lemma moves_self {e : Event} (hquiet : ¬ s.Touches e) (hreader : ReaderInRange s.pool s.reader) :
    s.Moves e s :=
  .keep hquiet (.refl _) (.refl _) rfl hreader

lemma moves_read (a : ReadArgs) (hreader : ReaderInRange s.pool s.reader) :
    s.Moves (.read a) (s.read a).1 := by
  rw [read]
  split_ifs with hrefuse hwait
  · exact moves_self id hreader
  · obtain ⟨-, -, -, hoff, -, hlen⟩ :=
      BufferPool.of_refuses_eq_none (Option.not_isSome_iff_eq_none.mp hrefuse)
    exact .keep id (.refl _) (.refl _) rfl ⟨hoff, hlen⟩
  · obtain ⟨-, -, -, hoff, -, hlen⟩ :=
      BufferPool.of_refuses_eq_none (Option.not_isSome_iff_eq_none.mp hrefuse)
    refine .keep id (.refl _) (.refl _) rfl ⟨⟨hoff, hlen⟩, fun hlive => ?_⟩
    by_contra hend
    exact hwait ⟨not_le.mp hend, hlive⟩

lemma moves_wake (a : ReadArgs) (hwaiting : s.reader = .waiting a)
    (hreader : ReaderInRange s.pool s.reader) : s.Moves .wake (s.wake a).1 := by
  have hself := moves_self (e := .wake) id hreader
  rw [hwaiting] at hreader
  rw [wake]
  split_ifs with hready habort
  · exact .keep id (sameChunks_leaveWait _ _) (samePositions_leaveWait _ _) rfl trivial
  · have hsame := sameChunks_leaveWait s.pool a
    refine .keep id hsame (samePositions_leaveWait _ _) rfl ⟨?_, fun hlive => ?_⟩
    · rw [hsame.mTotalBufCount, BufferPool.getCapacity, hsame.mCircBuf]
      exact hreader
    · rw [hsame.mGotLastBuffer] at hlive
      rw [hsame.mTotalBufCount]
      rcases hready with h | h | h
      · exact h
      · simp [hlive] at h
      · exact absurd h habort
  · exact hself

lemma moves_timeout (a : ReadArgs) (hreader : ReaderInRange s.pool s.reader) :
    s.Moves .timeout (s.timeout a).1 := by
  rw [timeout]
  split_ifs
  · exact moves_self id hreader
  · exact .keep id (.refl _) (.refl _) rfl trivial

/-- **What one event can do.** -/
theorem moves_act (hreader : ReaderInRange s.pool s.reader) (e : Event) :
    s.Moves e (s.act e).1 := by
  cases e with
  | pushBuffer b now => exact .pushBuffer b now
  | read a =>
      rw [act]
      split
      · exact moves_read a hreader
      · exact moves_self id hreader
  | wake =>
      rw [act]
      split
      · exact moves_wake _ ‹_› hreader
      · exact moves_self id hreader
  | timeout =>
      rw [act]
      split
      · exact moves_timeout _ hreader
      · exact moves_self id hreader
  | copy loop =>
      rw [act]
      split
      · exact .copy _ loop ‹_›
      · rename_i hnot
        exact moves_self (fun ⟨a, ha⟩ => hnot a ha) hreader
  | clear =>
      rw [act]
      split_ifs with hidle
      · exact .clear hidle
      · exact moves_self hidle hreader
  | clearToLastRead =>
      rw [act]
      split_ifs with hidle
      · exact .clearToLastRead hidle
      · exact moves_self hidle hreader
  | abortAllOperations => exact .keep id ⟨rfl, rfl, rfl, rfl, rfl, rfl⟩ ⟨rfl, rfl, rfl⟩ rfl hreader
  | throttleLoop loop => exact .keep id ⟨rfl, rfl, rfl, rfl, rfl, rfl⟩ ⟨rfl, rfl, rfl⟩ rfl hreader

lemma next_copy {a : ReadArgs} (h : s.reader = .admitted a) (loop : LoopProgress) :
    machine.next s (.copy loop) = (s.copy a loop).1 := by
  simp only [Machine.next, machine, act, h]

lemma next_clear (h : s.reader = .idle) : machine.next s .clear = s.clear := by
  simp only [Machine.next, machine, act, if_pos h]

lemma next_clearToLastRead (h : s.reader = .idle) :
    machine.next s .clearToLastRead = s.clearToLastRead := by
  simp only [Machine.next, machine, act, if_pos h]

end Moves

/-! ### The copy block -/

section Copy

variable (p : BufferPool) (a : ReadArgs) (loop : LoopProgress)

/-- The copy block keeps the chunks. -/
lemma sameChunks_finishRead : SameChunks p (p.finishRead a loop).2 := by
  rcases Nat.eq_zero_or_pos p.getSize with h0 | hpos
  · rw [p.finishRead_of_empty a loop h0]
    exact .refl p
  · obtain ⟨hring, -, -⟩ := (p.poolAt a a.length).mThrottle.wait_frame loop
    rw [p.finishRead_of_pos a loop hpos]
    cases hn : a.length with
    | zero => rw [hn] at hring; exact ⟨rfl, rfl, rfl, rfl, rfl, hring⟩
    | succ n => rw [hn] at hring; exact ⟨rfl, rfl, rfl, rfl, rfl, hring⟩

/-- The positions after a copy block: those of its copy loop, where `wait` records the read
position as the last one. -/
lemma positions_finishRead (hpos : 0 < p.getSize) :
    (p.finishRead a loop).2.mLastReadLocation = (p.poolAt a a.length).mLastReadLocation
      ∧ (p.finishRead a loop).2.mThrottle.mPos = (p.poolAt a a.length).mThrottle.mPos
      ∧ (p.finishRead a loop).2.mThrottle.mLastPos = (p.poolAt a a.length).mThrottle.mPos := by
  obtain ⟨-, hmpos, hmlast⟩ := (p.poolAt a a.length).mThrottle.wait_frame loop
  rw [p.finishRead_of_pos a loop hpos]
  exact ⟨rfl, hmpos, hmlast⟩

end Copy

/-! ### Reachable sessions -/

/-- What holds of every reachable session on a pool of capacity `C`. -/
structure WellFormed (C : PoolCapacity) (s : Session) : Prop where
  capacity : s.pool.getCapacity = C.val
  running : s.pool.exitPending = false
  tracks : s.pool.Tracks StreamEntry.chunk s.window
  reader : ReaderInRange s.pool s.reader

variable {C : PoolCapacity} {s : Session}

/-- The window of a session is the only one its pool can track. -/
lemma window_eq {w : LogWindow StreamEntry} (h : s.pool.Tracks StreamEntry.chunk w)
    (hlog : w.log = s.stream) : s.window = w := by
  ext1
  · exact hlog.symm
  · rw [window, h.first_eq, h.count, hlog]

lemma tracks_window {w : LogWindow StreamEntry} (h : s.pool.Tracks StreamEntry.chunk w)
    (hlog : w.log = s.stream) : s.pool.Tracks StreamEntry.chunk s.window := by
  rw [window_eq h hlog]
  exact h

namespace WellFormed

lemma fresh (C : PoolCapacity) : (fresh C).WellFormed C :=
  ⟨rfl, rfl, tracks_window (BufferPool.Tracks.create C _) rfl, trivial⟩

/-- The stream is as long as the chunk count says. -/
lemma length_stream (h : s.WellFormed C) : s.stream.length = s.pool.mTotalBufCount :=
  h.tracks.count.symm

lemma getSize_le (h : s.WellFormed C) : s.pool.getSize ≤ C.val := by
  rw [← h.capacity]
  exact s.pool.mCircBuf.size_le

/-- Position `k` of the ring holds the chunk numbered `mTotalBufCount - size + k`. -/
lemma chunk_eq (h : s.WellFormed C) (k : ℕ) :
    s.pool.mCircBuf.items[k]?
      = (s.stream[s.pool.mTotalBufCount - s.pool.getSize + k]?).map StreamEntry.chunk := by
  rw [h.tracks.shows.getElem?, h.tracks.first_eq]
  rfl

lemma pushBuffer (h : s.WellFormed C) (b : PushArgs) (now : ℕ) :
    (s.pushBuffer b now).WellFormed C := by
  obtain ⟨hcap, hexit, -, -⟩ := s.pool.pushBuffer_frame b now
  have hpush := h.tracks.pushBuffer h.running
    (x := ⟨b, s.pool.mThrottle.timePeriod now⟩) (b := b) rfl now
  refine ⟨hcap.trans h.capacity, hexit.trans h.running, tracks_window hpush ?_, ?_⟩
  · simp [LogWindow.append, window, Session.pushBuffer, h.running]
  · have hreader := h.reader
    have hcount : (s.pool.pushBuffer b now).mTotalBufCount = s.pool.mTotalBufCount + 1 := by
      simp [BufferPool.pushBuffer, h.running]
    have hgot : (s.pool.pushBuffer b now).mGotLastBuffer = false →
        s.pool.mGotLastBuffer = false := by
      simp [BufferPool.pushBuffer, h.running]
    simp only [Session.pushBuffer]
    cases hr : s.reader with
    | idle => trivial
    | waiting a =>
        rw [hr] at hreader
        simp only [ReaderInRange, hcount, hcap] at hreader ⊢
        omega
    | admitted a =>
        rw [hr] at hreader
        simp only [ReaderInRange, hcount, hcap] at hreader ⊢
        exact ⟨by omega, fun hlive => by have := hreader.2 (hgot hlive); omega⟩

lemma of_sameChunks (h : s.WellFormed C) {s' : Session} (hchunks : SameChunks s.pool s'.pool)
    (hstream : s'.stream = s.stream) (hreader : ReaderInRange s'.pool s'.reader) :
    s'.WellFormed C := by
  refine ⟨?_, hchunks.exitPending.trans h.running, ?_, hreader⟩
  · rw [BufferPool.getCapacity, hchunks.mCircBuf]
    exact h.capacity
  · exact tracks_window (h.tracks.of_eq hchunks.mCircBuf hchunks.mTotalBufCount) hstream.symm

lemma clear (h : s.WellFormed C) (hreader : s.reader = .idle) : s.clear.WellFormed C := by
  refine ⟨h.capacity, h.running, tracks_window (BufferPool.Tracks.clear s.pool _) rfl, ?_⟩
  show ReaderInRange _ s.reader
  rw [hreader]
  trivial

lemma clearToLastRead (h : s.WellFormed C) (hreader : s.reader = .idle) :
    s.clearToLastRead.WellFormed C := by
  have htracks := h.tracks.clearToLastRead
  obtain ⟨hring, hcount⟩ := h.tracks.clearToLastRead_eq
  refine ⟨?_, ?_, tracks_window htracks ?_, ?_⟩
  · show s.pool.clearToLastRead.mCircBuf.capacity = C.val
    rw [hring]
    exact h.capacity
  · show s.pool.clearToLastRead.exitPending = false
    rw [BufferPool.clearToLastRead]
    split_ifs <;> exact h.running
  · show s.stream.take _ = s.stream.take _
    rw [hcount, ← h.length_stream]
    rfl
  · show ReaderInRange _ s.reader
    rw [hreader]
    trivial

/-- Every move keeps a session well formed. -/
lemma moves (h : s.WellFormed C) {e : Event} {s' : Session} (hm : s.Moves e s') :
    s'.WellFormed C := by
  cases hm with
  | keep hquiet hchunks hpositions hstream hreader => exact h.of_sameChunks hchunks hstream hreader
  | pushBuffer b now => exact h.pushBuffer b now
  | copy a loop hreader => exact h.of_sameChunks (sameChunks_finishRead _ _ _) rfl trivial
  | clear hreader => exact h.clear hreader
  | clearToLastRead hreader => exact h.clearToLastRead hreader

lemma next (h : s.WellFormed C) (e : Event) : (machine.next s e).WellFormed C :=
  h.moves (moves_act h.reader e)

lemma run (h : s.WellFormed C) (es : List Event) : (machine.run s es).WellFormed C :=
  Machine.invariant_run (fun _ e hs => hs.next e) h es

end WellFormed

/-- **Every reachable session is well formed.** -/
theorem wellFormed_run (C : PoolCapacity) (es : List Event) :
    (machine.run (fresh C) es).WellFormed C :=
  (WellFormed.fresh C).run es

end Session

end StreamFs
