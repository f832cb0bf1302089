import StreamFs.Pool.CopyLoop

/-!
What the pool is for: a window on a stream of chunks, in which every chunk has an absolute
number.

* `BufferPool.Tracks`: the ring shows a window on a log of pushes, and the chunk count is the
  length of the log. `Tracks.pushBuffer`, `Tracks.clear` and `Tracks.clearToLastRead` say that
  the operations of the pool append to the log, reset it, and rewind it.
* `Tracks.chunk`: the copy loop finds the chunk with the right number at each position, as
  long as the chunks are held.
* `Tracks.finishRead_delivers`: reading a live stream delivers a slice of its bytes.
* `pushAll`: the pool after a sequence of pushes, which holds the latest chunks
  (`pushAll_tracks`).
-/

namespace StreamFs

variable {α : Type*}

/-- The bytes of a log of chunks. -/
def streamBytes (f : α → BufferChunk) (log : List α) : List UInt8 :=
  (log.map fun x => (f x).data).flatten

/-- The chunk numbered `k`, as a slice of the bytes. -/
lemma slice_streamBytes (f : α → BufferChunk) {log : List α} {k : ℕ} (hk : k < log.length) :
    slice (streamBytes f log) (k * bufferChunkSize) bufferChunkSize = (f log[k]).data := by
  rw [streamBytes, slice_flatten (by simp [BufferChunk.length_eq]) (by simpa using hk),
    List.getElem_map]

lemma length_streamBytes (f : α → BufferChunk) (log : List α) :
    (streamBytes f log).length = log.length * bufferChunkSize := by
  rw [streamBytes, length_flatten_uniform (B := bufferChunkSize) (by simp [BufferChunk.length_eq]),
    List.length_map]

namespace BufferPool

/-- The ring of the pool shows the window `w` on a log of pushes, and the chunk count is the
length of the log. -/
structure Tracks (p : BufferPool) (f : α → BufferChunk) (w : LogWindow α) : Prop where
  shows : p.mCircBuf.Shows f w
  count : p.mTotalBufCount = w.log.length

namespace Tracks

variable {p : BufferPool} {f : α → BufferChunk} {w : LogWindow α}

lemma create (C : PoolCapacity) (f : α → BufferChunk) :
    (create C).Tracks f (LogWindow.latest [] C.val) :=
  ⟨by simp [Ring.Shows, BufferPool.create, LogWindow.latest], rfl⟩

lemma getSize_eq (h : p.Tracks f w) : p.getSize = w.held := h.shows.size_eq

lemma first_eq (h : p.Tracks f w) : w.first = p.mTotalBufCount - p.getSize := by
  have hsize := h.getSize_eq
  have hcount := h.count
  have hle := w.first_le
  rw [LogWindow.held] at hsize
  omega

lemma getSize_le (h : p.Tracks f w) : p.getSize ≤ p.mTotalBufCount := by
  rw [h.getSize_eq, h.count, LogWindow.held]
  omega

/-! ### The operations on the log -/

/-- A push appends to the log. -/
lemma pushBuffer (h : p.Tracks f w) (hexit : p.exitPending = false) {b : PushArgs} {x : α}
    (hx : f x = b.buffer) (now : ℕ) :
    (p.pushBuffer b now).Tracks f (w.append p.getCapacity x) := by
  rw [BufferPool.pushBuffer, if_neg (by simp [hexit])]
  refine ⟨?_, ?_⟩
  · rw [← hx]
    exact h.shows.pushBack x
  · simp [LogWindow.append, h.count]

/-- `clear` resets the log. -/
lemma clear (p : BufferPool) (f : α → BufferChunk) : p.clear.Tracks f LogWindow.reset :=
  ⟨Ring.Shows.clear p.mCircBuf f, rfl⟩

/-- The number of chunks `clearToLastRead` erases. -/
def erased (p : BufferPool) : ℕ := p.getSize - p.mLastReadLocation - 1

/-- `clearToLastRead` in terms of the number of chunks it erases. -/
lemma clearToLastRead_eq (h : p.Tracks f w) :
    p.clearToLastRead.mCircBuf = p.mCircBuf.eraseEnd (erased p)
      ∧ p.clearToLastRead.mTotalBufCount = p.mTotalBufCount - erased p := by
  have hle := h.getSize_le
  simp only [clearToLastRead]
  split_ifs with h0 hlt
  · have hz : erased p = 0 := by rw [erased]; omega
    rw [hz, Ring.eraseEnd_zero]
    exact ⟨rfl, rfl⟩
  · exact ⟨rfl, subU64_of_le (by omega)⟩
  · have hz : erased p = 0 := by rw [erased]; omega
    rw [hz, Ring.eraseEnd_zero]
    exact ⟨rfl, rfl⟩

/-- `clearToLastRead` rewinds the log. -/
lemma clearToLastRead (h : p.Tracks f w) :
    p.clearToLastRead.Tracks f (w.rewind (w.log.length - erased p)) := by
  obtain ⟨hring, hcount⟩ := h.clearToLastRead_eq
  refine ⟨?_, ?_⟩
  · rw [hring]
    exact h.shows.eraseEnd (by rw [erased]; exact le_trans (Nat.sub_le _ _) (Nat.sub_le _ _))
  · rw [hcount, LogWindow.rewind, List.length_take, h.count]
    omega

/-- Every other step of a reader keeps the ring and the count. -/
lemma of_eq {q : BufferPool} (h : p.Tracks f w) (hring : q.mCircBuf = p.mCircBuf)
    (hcount : q.mTotalBufCount = p.mTotalBufCount) : q.Tracks f w :=
  ⟨by rw [hring]; exact h.shows, by rw [hcount, h.count]⟩

/-! ### Reading -/

variable {a : ReadArgs}

/-- **The copy loop finds the right chunks**: iteration `i` reads the chunk numbered
`offset + i`, as long as the chunks of the read are held. -/
lemma chunk (h : p.Tracks f w) (hsize : p.getSize < 2 ^ 64)
    (hheld : p.mTotalBufCount ≤ a.offset + p.getSize) {i : ℕ}
    (hi : a.offset + i < p.mTotalBufCount) :
    p.mCircBuf.items[p.startPos a i]? = (w.log[a.offset + i]?).map f := by
  have hfirst := h.first_eq
  have hle := h.getSize_le
  rw [p.startPos_of_held a hsize hheld hi, h.shows.getElem?]
  congr 2
  omega

end Tracks

/-! ### Reading a live stream -/

variable {p : BufferPool} {a : ReadArgs}

/-- In a live stream every iteration copies what the skips leave of its chunk. -/
lemma lastItemCopySize_live (hlive : p.mGotLastBuffer = false) {i : ℕ}
    (hl : leftSkip a i + rightSkip a i ≤ bufferChunkSize) :
    p.lastItemCopySize a i = bufferChunkSize - leftSkip a i - rightSkip a i := by
  simp only [lastItemCopySize, hlive, Bool.false_eq_true, false_and, if_false]
  rw [subU64_of_le (show leftSkip a i ≤ bufferChunkSize by omega), subU64_of_le (by omega)]

/-- The skips of an iteration fit in its chunk where the paddings fit in the request. -/
lemma skips_le (hl : a.leftPadding < bufferChunkSize) (hr : a.rightPadding < bufferChunkSize)
    (hfit : a.leftPadding + a.rightPadding ≤ a.length * bufferChunkSize) {i : ℕ}
    (hi : i < a.length) : leftSkip a i + rightSkip a i ≤ bufferChunkSize := by
  rw [leftSkip, rightSkip, subU64_of_le (by omega)]
  split_ifs with h1 h2
  · rw [show a.length = 1 by omega] at hfit
    omega
  all_goals omega

/-- The bytes copied by a loop that copies every chunk but the last to its end. -/
lemma bytesBefore_length (hl : a.leftPadding ≤ bufferChunkSize) (hlen : 0 < a.length)
    (hfull : ∀ i, i + 1 < a.length → p.lastItemCopySize a i = bufferChunkSize - leftSkip a i) :
    a.leftPadding + p.bytesBefore a a.length
      = (a.length - 1) * bufferChunkSize + leftSkip a (a.length - 1)
        + p.lastItemCopySize a (a.length - 1) := by
  have hfull' := bytesBefore_of_full (i := a.length - 1) hl fun j hj => hfull j (by omega)
  have hsucc := p.bytesBefore_succ a (a.length - 1)
  rw [Nat.sub_add_cancel hlen] at hsucc
  rw [Nat.add_mul] at hfull'
  omega

/-- In a live stream every iteration but the last copies its chunk to the end. -/
lemma full_of_live (hlive : p.mGotLastBuffer = false) (hl : a.leftPadding < bufferChunkSize)
    {i : ℕ} (hi : i + 1 < a.length) :
    p.lastItemCopySize a i = bufferChunkSize - leftSkip a i := by
  have hr : rightSkip a i = 0 := by
    rw [rightSkip, subU64_of_le (by omega), if_neg (by omega)]
  have hskip : leftSkip a i ≤ bufferChunkSize := by
    rw [leftSkip]; split <;> omega
  rw [lastItemCopySize_live hlive (by omega), hr, Nat.sub_zero]

/-- The number of bytes a read of a live stream copies. -/
lemma bytesBefore_live (hlive : p.mGotLastBuffer = false) (hl : a.leftPadding < bufferChunkSize)
    (hr : a.rightPadding < bufferChunkSize)
    (hfit : a.leftPadding + a.rightPadding ≤ a.length * bufferChunkSize) :
    p.bytesBefore a a.length = a.length * bufferChunkSize - a.leftPadding - a.rightPadding := by
  rcases Nat.eq_zero_or_pos a.length with h0 | hpos
  · simp [bytesBefore, h0]
  · have htotal := bytesBefore_length (p := p) hl.le hpos fun i hi => full_of_live hlive hl hi
    have hskips := skips_le hl hr hfit (i := a.length - 1) (by omega)
    have hlast := lastItemCopySize_live hlive hskips
    have hright : rightSkip a (a.length - 1) = a.rightPadding := by
      rw [rightSkip, subU64_of_le hpos, if_pos rfl]
    have hmul : (a.length - 1) * bufferChunkSize + bufferChunkSize
        = a.length * bufferChunkSize := by
      calc (a.length - 1) * bufferChunkSize + bufferChunkSize
          = (a.length - 1 + 1) * bufferChunkSize := (Nat.succ_mul _ _).symm
        _ = a.length * bufferChunkSize := by rw [Nat.sub_add_cancel hpos]
    omega

/-- **A read of a live stream delivers its bytes**: with the chunks of the read held and less
than `2^31` bytes asked for, the copy block delivers one slice of the stream. -/
theorem Tracks.finishRead_delivers {f : α → BufferChunk} {w : LogWindow α} (h : p.Tracks f w)
    (hsize : p.getSize < 2 ^ 64) (hpos : 0 < p.getSize) (hlive : p.mGotLastBuffer = false)
    (hl : a.leftPadding < bufferChunkSize) (hr : a.rightPadding < bufferChunkSize)
    (hfit : a.leftPadding + a.rightPadding ≤ a.length * bufferChunkSize)
    (hheld : p.mTotalBufCount ≤ a.offset + p.getSize) (hend : a.readEnd ≤ p.mTotalBufCount)
    (hbytes : a.length * bufferChunkSize - a.leftPadding - a.rightPadding < 2 ^ 31)
    (loop : LoopProgress) :
    (p.finishRead a loop).1.Delivers
      (slice (streamBytes f w.log) (a.offset * bufferChunkSize + a.leftPadding)
        (a.length * bufferChunkSize - a.leftPadding - a.rightPadding)) := by
  have htotal := bytesBefore_live hlive hl hr hfit
  rw [p.finishRead_of_pos a loop hpos, ← htotal]
  refine delivers_of_slices hl.le (fun i hi => ?_) (fun i hi => ?_)
    (fun i hi => full_of_live hlive hl hi) (by rw [htotal]; exact hbytes)
  · have hi' : a.offset + i < p.mTotalBufCount := by rw [ReadArgs.readEnd] at hend; omega
    have hlog : a.offset + i < w.log.length := by rw [← h.count]; exact hi'
    refine ⟨f w.log[a.offset + i], ?_, (slice_streamBytes f hlog).symm⟩
    rw [h.chunk hsize hheld hi', List.getElem?_eq_getElem hlog, Option.map_some]
  · have hskips := skips_le hl hr hfit hi
    rw [lastItemCopySize_live hlive hskips]
    omega

/-! ### Pushing on a fresh pool -/

/-- The pool after the pushes `bs`, each with the time of its call. -/
def pushAll (p : BufferPool) (bs : List (PushArgs × ℕ)) : BufferPool :=
  bs.foldl (fun p b => p.pushBuffer b.1 b.2) p

/-- The chunk of a push. -/
def pushedChunk (b : PushArgs × ℕ) : BufferChunk := b.1.buffer

/-- The fields a push leaves alone. -/
lemma pushBuffer_frame (p : BufferPool) (b : PushArgs) (now : ℕ) :
    (p.pushBuffer b now).getCapacity = p.getCapacity
      ∧ (p.pushBuffer b now).exitPending = p.exitPending
      ∧ (p.pushBuffer b now).mAborting = p.mAborting
      ∧ (p.pushBuffer b now).mLastReadLocation = p.mLastReadLocation := by
  rw [pushBuffer]
  split <;> exact ⟨rfl, rfl, rfl, rfl⟩

/-- **The pool after a sequence of pushes** tracks the pushes and holds the latest ones. -/
theorem pushAll_tracks (C : PoolCapacity) (bs : List (PushArgs × ℕ)) :
    ((create C).pushAll bs).Tracks pushedChunk (LogWindow.latest bs C.val)
      ∧ ((create C).pushAll bs).getCapacity = C.val
      ∧ ((create C).pushAll bs).exitPending = false
      ∧ ((create C).pushAll bs).mAborting = false := by
  induction bs using List.reverseRecOn with
  | nil => exact ⟨Tracks.create C pushedChunk, rfl, rfl, rfl⟩
  | append_singleton bs b ih =>
      obtain ⟨htracks, hcap, hexit, habort⟩ := ih
      obtain ⟨hcap', hexit', habort', -⟩ := ((create C).pushAll bs).pushBuffer_frame b.1 b.2
      have hpush := htracks.pushBuffer hexit (x := b) rfl b.2
      rw [hcap, LogWindow.append_latest _ C.one_le] at hpush
      rw [pushAll, List.foldl_append, List.foldl_cons, List.foldl_nil, ← pushAll]
      exact ⟨hpush, hcap'.trans hcap, hexit'.trans hexit, habort'.trans habort⟩

/-- The size of a pool that holds the latest pushes. -/
lemma Tracks.getSize_latest {f : α → BufferChunk} {log : List α} {c : ℕ}
    (h : p.Tracks f (LogWindow.latest log c)) : p.getSize = min log.length c := by
  rw [h.getSize_eq, LogWindow.held, LogWindow.latest]
  dsimp only
  omega

end BufferPool

end StreamFs
