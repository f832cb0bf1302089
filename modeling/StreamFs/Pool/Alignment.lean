import StreamFs.Pool.Rewind

/-!
The pool and its throttle: two rings, cut back by positions kept in two places.

* `Aligned`: the ring of periods is as long as the ring of chunks, and holds at each position
  the period registered for the chunk there. `WaitsInRange`: the position waited on is inside
  the ring of periods.
* `KeepsAligned`: a read finds the last chunk asked for in the ring, and `clearToLastRead`
  finds the last read location of the pool and the last position of the throttle equal, or
  nothing behind either. Reads set both and rotations move neither, but `clear` resets only
  the position of the throttle.
* `aligned_run`: a run whose steps all do so keeps the rings aligned and waits in range.
-/

namespace StreamFs

namespace Session

variable {C : PoolCapacity} {s : Session}

/-- The ring of periods has, position by position, the periods of the chunks in the ring of
chunks. -/
structure Aligned (s : Session) : Prop where
  size_eq : s.pool.mThrottle.mTimePeriodBuffer.size = s.pool.getSize
  entry : ∀ k < s.pool.getSize, ∃ e,
    s.stream[s.pool.mTotalBufCount - s.pool.getSize + k]? = some e
      ∧ s.pool.mCircBuf.items[k]? = some e.chunk
      ∧ s.pool.mThrottle.mTimePeriodBuffer.items[k]? = some e.period

/-- The `wait` behind a copy loop finds the read position inside the ring of periods. -/
def WaitsInRange (t : Transition Session Event Observation) : Prop :=
  ∀ loop a, t.event = .copy loop → t.before.reader = .admitted a → 0 < t.before.pool.getSize →
    (t.before.pool.copyLoop a).pool.mThrottle.mPos
      < (t.before.pool.copyLoop a).pool.mThrottle.mTimePeriodBuffer.size

/-- A copy asks for nothing, meets an empty ring, or finds the last chunk asked for in the ring;
`clearToLastRead` erases behind the same position in both rings, or nothing in either. -/
def KeepsAligned (t : Transition Session Event Observation) : Prop :=
  (∀ loop a, t.event = .copy loop → t.before.reader = .admitted a →
    a.length = 0 ∨ t.before.pool.getSize = 0 ∨
      (t.before.pool.mTotalBufCount < a.readEnd + t.before.pool.getSize
        ∧ a.readEnd ≤ t.before.pool.mTotalBufCount))
  ∧ (t.event = .clearToLastRead → t.before.reader = .idle →
      t.before.pool.mLastReadLocation = t.before.pool.mThrottle.mLastPos ∨
        (t.before.pool.getSize ≤ t.before.pool.mLastReadLocation + 1
          ∧ t.before.pool.getSize ≤ t.before.pool.mThrottle.mLastPos + 1))

/-- The invariant that carries the alignment: the ring of periods shows the periods of the
window, and the read position is neither behind the last one nor outside the ring, where it is
`0` in an empty one. -/
structure Paired (C : PoolCapacity) (s : Session) : Prop where
  wellFormed : s.WellFormed C
  capacity : s.pool.mThrottle.mTimePeriodBuffer.capacity = C.val
  periods : s.pool.mThrottle.mTimePeriodBuffer.Shows StreamEntry.period s.window
  pos_le : s.pool.mThrottle.mPos ≤ s.pool.mThrottle.mLastPos
  pos_le_size : s.pool.mThrottle.mPos ≤ s.pool.getSize - 1

namespace Paired

lemma fresh (C : PoolCapacity) : (fresh C).Paired C :=
  ⟨WellFormed.fresh C, rfl, rfl, le_rfl, le_rfl⟩

lemma size_eq (h : s.Paired C) : s.pool.mThrottle.mTimePeriodBuffer.size = s.pool.getSize := by
  rw [h.periods.size_eq, ← h.wellFormed.tracks.getSize_eq]

lemma aligned (h : s.Paired C) : Aligned s := by
  refine ⟨h.size_eq, fun k hk => ?_⟩
  have hle := h.wellFormed.tracks.getSize_le
  have hlen := h.wellFormed.length_stream
  have hlt : s.pool.mTotalBufCount - s.pool.getSize + k < s.stream.length := by omega
  have hperiod := h.periods.getElem? k
  have hfirst : s.window.first + k = s.pool.mTotalBufCount - s.pool.getSize + k := by
    rw [← hlen]
    rfl
  rw [hfirst] at hperiod
  refine ⟨_, List.getElem?_eq_getElem hlt, ?_, ?_⟩
  · rw [h.wellFormed.chunk_eq, List.getElem?_eq_getElem hlt, Option.map_some]
  · rw [hperiod]
    show (s.stream[_]?).map _ = _
    rw [List.getElem?_eq_getElem hlt, Option.map_some]

/-! ### The steps -/

/-- Steps that keep the chunks and the stream keep the window. -/
lemma window_of_sameChunks {s' : Session} (hchunks : SameChunks s.pool s'.pool)
    (hstream : s'.stream = s.stream) : s'.window = s.window := by
  simp only [window, hstream, BufferPool.getSize, hchunks.mCircBuf]

lemma pushBuffer (h : s.Paired C) (b : PushArgs) (now : ℕ) : (s.pushBuffer b now).Paired C := by
  have hrun := h.wellFormed.running
  have hthrottle : (s.pushBuffer b now).pool.mThrottle
      = s.pool.mThrottle.registerTimePeriod now := by
    simp [Session.pushBuffer, BufferPool.pushBuffer, hrun]
  have hsize : (s.pushBuffer b now).pool.getSize
      = min (s.pool.getSize + 1) s.pool.getCapacity :=
    BufferPool.getSize_pushBuffer hrun b now
  have htracks := h.wellFormed.tracks.pushBuffer hrun
    (x := ⟨b, s.pool.mThrottle.timePeriod now⟩) (b := b) rfl now
  have hwindow : (s.pushBuffer b now).window
      = s.window.append C.val ⟨b, s.pool.mThrottle.timePeriod now⟩ := by
    rw [← h.wellFormed.capacity]
    exact window_eq htracks (by simp [LogWindow.append, window, Session.pushBuffer, hrun])
  have hcap := h.wellFormed.capacity
  have hfull := h.size_eq
  have hone := C.one_le
  refine ⟨h.wellFormed.pushBuffer b now, ?_, ?_, ?_, ?_⟩
  · rw [hthrottle]
    exact h.capacity
  · have hpush := h.periods.pushBack ⟨b, s.pool.mThrottle.timePeriod now⟩
    rw [h.capacity] at hpush
    rw [hthrottle, hwindow]
    exact hpush
  · have hpos := h.pos_le
    rw [hthrottle, BufferPoolThrottle.mPos_registerTimePeriod,
      BufferPoolThrottle.mLastPos_registerTimePeriod]
    split <;> omega
  · -- a rotation moves the position with the ring, unless it is `0` already
    have hpos := h.pos_le_size
    have hle := h.wellFormed.getSize_le
    rw [hthrottle, BufferPoolThrottle.mPos_registerTimePeriod, hsize, hcap, hfull, h.capacity]
    split <;> omega

lemma clear (h : s.Paired C) (hidle : s.reader = .idle) : s.clear.Paired C := by
  refine ⟨h.wellFormed.clear hidle, h.capacity, ?_, le_rfl, Nat.zero_le _⟩
  have hwindow : s.clear.window = LogWindow.reset :=
    window_eq (BufferPool.Tracks.clear s.pool _) rfl
  rw [hwindow]
  exact Ring.Shows.clear _ _

/-- The throttle after `clearToLastRead`. -/
lemma throttle_clearToLastRead (h : s.Paired C) :
    s.pool.clearToLastRead.mThrottle.mTimePeriodBuffer
        = s.pool.mThrottle.mTimePeriodBuffer.eraseEnd
            (s.pool.getSize - s.pool.mThrottle.mLastPos - 1)
      ∧ s.pool.clearToLastRead.mThrottle.mPos = s.pool.mThrottle.mPos
      ∧ s.pool.clearToLastRead.mThrottle.mLastPos = s.pool.mThrottle.mLastPos := by
  have hsize := h.size_eq
  obtain ⟨hpos, hlast⟩ := s.pool.mThrottle.clearToLastRead_frame
  rw [BufferPool.clearToLastRead]
  split_ifs with h0
  · rw [h0, Nat.zero_sub, Nat.zero_sub, Ring.eraseEnd_zero]
    exact ⟨rfl, rfl, rfl⟩
  · rw [← hsize]
    exact ⟨s.pool.mThrottle.mTimePeriodBuffer_clearToLastRead, hpos, hlast⟩

lemma clearToLastRead (h : s.Paired C) (hidle : s.reader = .idle)
    (hkeep : s.pool.mLastReadLocation = s.pool.mThrottle.mLastPos ∨
      (s.pool.getSize ≤ s.pool.mLastReadLocation + 1
        ∧ s.pool.getSize ≤ s.pool.mThrottle.mLastPos + 1)) : s.clearToLastRead.Paired C := by
  obtain ⟨hring, hpos, hlast⟩ := h.throttle_clearToLastRead
  have hwf := h.wellFormed.clearToLastRead hidle
  have hsize : s.clearToLastRead.pool.getSize = _ :=
    h.wellFormed.tracks.getSize_clearToLastRead
  have hwindow : s.clearToLastRead.window
      = s.window.rewind (s.window.log.length - BufferPool.Tracks.erased s.pool) := by
    refine window_eq h.wellFormed.tracks.clearToLastRead ?_
    show s.stream.take _ = s.stream.take _
    rw [h.wellFormed.tracks.clearToLastRead_eq.2, ← h.wellFormed.length_stream]
    rfl
  have hsame : s.pool.getSize - s.pool.mThrottle.mLastPos - 1
      = BufferPool.Tracks.erased s.pool := by
    rw [BufferPool.Tracks.erased]
    omega
  rw [hsame] at hring
  have hpos_le := h.pos_le
  have hpos_size := h.pos_le_size
  refine ⟨hwf, ?_, ?_, ?_, ?_⟩
  · show s.pool.clearToLastRead.mThrottle.mTimePeriodBuffer.capacity = C.val
    rw [hring]
    exact h.capacity
  · rw [hwindow]
    show s.pool.clearToLastRead.mThrottle.mTimePeriodBuffer.Shows _ _
    rw [hring]
    refine h.periods.eraseEnd ?_
    rw [h.size_eq, BufferPool.Tracks.erased]
    omega
  · show s.pool.clearToLastRead.mThrottle.mPos ≤ s.pool.clearToLastRead.mThrottle.mLastPos
    omega
  · show s.pool.clearToLastRead.mThrottle.mPos ≤ _
    omega

/-- The position that `wait` finds behind a copy loop. -/
lemma mPos_copyLoop (h : s.Paired C) {a : ReadArgs} (ha : s.reader = .admitted a)
    (hpos : 0 < s.pool.getSize)
    (hkeep : a.length = 0 ∨ s.pool.getSize = 0 ∨
      (s.pool.mTotalBufCount < a.readEnd + s.pool.getSize
        ∧ a.readEnd ≤ s.pool.mTotalBufCount)) :
    (s.pool.poolAt a a.length).mThrottle.mPos < s.pool.getSize := by
  have hreader := h.wellFormed.reader
  rw [ha] at hreader
  obtain ⟨⟨-, hlen⟩, -⟩ := hreader
  have hcap := h.wellFormed.capacity
  have hC := C.lt
  have hsize := h.wellFormed.getSize_le
  have hpos_size := h.pos_le_size
  rw [ReadArgs.readEnd] at hkeep
  rcases Nat.eq_zero_or_pos a.length with h0 | hlt
  · rw [h0]
    show s.pool.mThrottle.mPos < s.pool.getSize
    omega
  · rw [s.pool.mPos_poolAt a hlt,
      s.pool.startPos_of_resident a (by omega) (by omega) (by omega) (by omega)]
    omega

lemma copy (h : s.Paired C) {a : ReadArgs} (loop : LoopProgress) (ha : s.reader = .admitted a)
    (hkeep : a.length = 0 ∨ s.pool.getSize = 0 ∨
      (s.pool.mTotalBufCount < a.readEnd + s.pool.getSize
        ∧ a.readEnd ≤ s.pool.mTotalBufCount)) : (s.copy a loop).1.Paired C := by
  have hchunks : SameChunks s.pool (s.copy a loop).1.pool := sameChunks_finishRead s.pool a loop
  have hwindow : (s.copy a loop).1.window = s.window := window_of_sameChunks hchunks rfl
  have hsize : (s.copy a loop).1.pool.getSize = s.pool.getSize :=
    congrArg Ring.size hchunks.mCircBuf
  have hpositions : (s.copy a loop).1.pool.mThrottle.mPos
        ≤ (s.copy a loop).1.pool.mThrottle.mLastPos
      ∧ (s.copy a loop).1.pool.mThrottle.mPos ≤ s.pool.getSize - 1 := by
    show (s.pool.finishRead a loop).2.mThrottle.mPos
        ≤ (s.pool.finishRead a loop).2.mThrottle.mLastPos
      ∧ (s.pool.finishRead a loop).2.mThrottle.mPos ≤ s.pool.getSize - 1
    rcases Nat.eq_zero_or_pos s.pool.getSize with h0 | hpos
    · rw [s.pool.finishRead_of_empty a loop h0]
      exact ⟨h.pos_le, h.pos_le_size⟩
    · obtain ⟨-, hmpos, hmlast⟩ := positions_finishRead s.pool a loop hpos
      have hlt := h.mPos_copyLoop ha hpos hkeep
      rw [hmpos, hmlast]
      exact ⟨le_rfl, by omega⟩
  refine ⟨h.wellFormed.of_sameChunks hchunks rfl trivial, ?_, ?_, hpositions.1, ?_⟩
  · rw [hchunks.mTimePeriodBuffer]
    exact h.capacity
  · rw [hwindow, hchunks.mTimePeriodBuffer]
    exact h.periods
  · rw [hsize]
    exact hpositions.2

/-- A step that keeps the alignment keeps the rings paired. -/
lemma moves (h : s.Paired C) {e : Event} {s' : Session} (hm : s.Moves e s')
    (hcopy : ∀ loop a, e = .copy loop → s.reader = .admitted a →
      a.length = 0 ∨ s.pool.getSize = 0 ∨
        (s.pool.mTotalBufCount < a.readEnd + s.pool.getSize
          ∧ a.readEnd ≤ s.pool.mTotalBufCount))
    (hclear : e = .clearToLastRead → s.reader = .idle →
      s.pool.mLastReadLocation = s.pool.mThrottle.mLastPos ∨
        (s.pool.getSize ≤ s.pool.mLastReadLocation + 1
          ∧ s.pool.getSize ≤ s.pool.mThrottle.mLastPos + 1)) : s'.Paired C := by
  cases hm with
  | keep hquiet hchunks hpositions hstream hreader =>
      refine ⟨h.wellFormed.of_sameChunks hchunks hstream hreader, ?_, ?_, ?_, ?_⟩
      · rw [hchunks.mTimePeriodBuffer]
        exact h.capacity
      · rw [window_of_sameChunks hchunks hstream, hchunks.mTimePeriodBuffer]
        exact h.periods
      · rw [hpositions.mPos, hpositions.mLastPos]
        exact h.pos_le
      · rw [hpositions.mPos, BufferPool.getSize, hchunks.mCircBuf]
        exact h.pos_le_size
  | pushBuffer b now => exact h.pushBuffer b now
  | copy a loop hreader => exact h.copy loop hreader (hcopy loop a rfl hreader)
  | clear hreader => exact h.clear hreader
  | clearToLastRead hreader => exact h.clearToLastRead hreader (hclear rfl hreader)

end Paired

/-- **The rings stay aligned.** In a run whose steps keep the alignment, the ring of periods
matches the ring of chunks in every state, and every `wait` finds its position in the ring. -/
theorem aligned_run (C : PoolCapacity) (es : List Event)
    (h : ∀ t ∈ machine.trace (fresh C) es, KeepsAligned t) :
    ∀ t ∈ machine.trace (fresh C) es, Aligned t.after ∧ WaitsInRange t := by
  refine Machine.forall_trace (I := Paired C) (fun s e hs hkeep => ?_) (Paired.fresh C) es h
  have hnext := hs.moves (moves_act hs.wellFormed.reader e) hkeep.1 hkeep.2
  refine ⟨⟨hnext.aligned, fun loop a he ha hpos => ?_⟩, hnext⟩
  simp only [Machine.transition] at he ha hpos ⊢
  rw [BufferPool.copyLoop_eq]
  have hring : (s.pool.poolAt a a.length).mThrottle.mTimePeriodBuffer
      = s.pool.mThrottle.mTimePeriodBuffer := by cases a.length <;> rfl
  dsimp only
  rw [hring, hs.size_eq]
  exact hs.mPos_copyLoop ha hpos (hkeep.1 loop a he ha)

/-- A chunk, a read of it, another chunk, and a rewind to the first. -/
theorem aligned_run_rewind :
    Aligned (machine.run (fresh (.ofNat 2))
      [.pushBuffer (.filled 1) 0, .read ⟨1, 0, 0, 0⟩, .copy ⟨0, false⟩,
        .pushBuffer (.filled 2) 700, .clearToLastRead]) := by
  let es : List Event := [.pushBuffer (.filled 1) 0, .read ⟨1, 0, 0, 0⟩, .copy ⟨0, false⟩,
    .pushBuffer (.filled 2) 700]
  refine (aligned_run (.ofNat 2) (es ++ [.clearToLastRead]) (fun t ht => ?_) _
    (machine.mem_trace_append _ es .clearToLastRead)).1
  simp only [es, List.cons_append, List.nil_append, Machine.trace, List.mem_cons,
    List.not_mem_nil, or_false] at ht
  rcases ht with rfl | rfl | rfl | rfl | rfl
  · exact ⟨fun loop a he => by simp [Machine.transition] at he, fun he => by
      simp [Machine.transition] at he⟩
  · exact ⟨fun loop a he => by simp [Machine.transition] at he, fun he => by
      simp [Machine.transition] at he⟩
  · refine ⟨fun loop a he ha => ?_, fun he => by simp [Machine.transition] at he⟩
    obtain rfl := ReaderPhase.admitted.inj ha
    exact Or.inr (Or.inr (by decide +kernel))
  · exact ⟨fun loop a he => by simp [Machine.transition] at he, fun he => by
      simp [Machine.transition] at he⟩
  · exact ⟨fun loop a he => by simp [Machine.transition] at he, fun _ _ =>
      Or.inl (by decide +kernel)⟩

/-- After a read of the chunk `1` and a `clear`, the pool remembers the position and the throttle
does not: the next `clearToLastRead` erases one period and no chunk. -/
theorem not_forall_aligned :
    ¬ ∀ (C : PoolCapacity) (es : List Event),
        ∀ t ∈ machine.trace (fresh C) es, Aligned t.after ∧ WaitsInRange t := by
  intro h
  let es : List Event :=
    [.pushBuffer (.filled 1) 0, .pushBuffer (.filled 2) 0, .read ⟨1, 1, 0, 0⟩, .copy ⟨0, false⟩,
      .clear, .pushBuffer (.filled 3) 0, .pushBuffer (.filled 4) 0]
  have hsize := (h (.ofNat 2) _ _
    (machine.mem_trace_append (fresh (.ofNat 2)) es .clearToLastRead)).1.size_eq
  revert hsize
  decide +kernel

end Session

end StreamFs
