import StreamFs.Pool.Session

/-!
`clearToLastRead`: erasing the chunks behind the last one read.

* `WindowExact`: the ring holds the newest chunks of the stream, and every chunk the window
  check of `read` admits. The check goes by the capacity, so it relies on a ring that holds as
  much as fits. `windowExact_iff`: a run keeps its window exact throughout iff each
  `clearToLastRead` that erases something does so before the ring has given up any chunk.
* `RewindsTo`: after `clearToLastRead` the stream goes on behind the chunk `n`.
  `clearToLastRead_rewinds_iff`: the last chunk read is the chunk rewound to iff the pushes
  since then have not rotated the ring, since the place of that chunk is remembered as a ring
  position.
-/

namespace StreamFs

namespace BufferPool

/-- The chunk numbered `k`, where the ring holds it. -/
def chunkAt (p : BufferPool) (k : ℕ) : Option BufferChunk :=
  if p.mTotalBufCount - p.getSize ≤ k then
    p.mCircBuf.items[k - (p.mTotalBufCount - p.getSize)]?
  else none

/-- After `clearToLastRead` the chunks up to `n` are held as before and no later ones, and the
next chunk pushed is the one numbered `n + 1`. -/
structure RewindsTo (p : BufferPool) (n : ℕ) : Prop where
  count : p.clearToLastRead.getTotalBufferCount = n + 1
  kept : ∀ k, p.clearToLastRead.chunkAt k = if k ≤ n then p.chunkAt k else none
  next : ∀ b now loop, ((p.clearToLastRead.pushBuffer b now).read ⟨1, n + 1, 0, 0⟩ loop).1.Delivers
    b.buffer.data

section Sizes

variable {p : BufferPool}

lemma getSize_pushBuffer (hexit : p.exitPending = false) (b : PushArgs) (now : ℕ) :
    (p.pushBuffer b now).getSize = min (p.getSize + 1) p.getCapacity := by
  rw [pushBuffer, if_neg (by simp [hexit])]
  exact p.mCircBuf.size_pushBack b.buffer

lemma mTotalBufCount_pushBuffer (hexit : p.exitPending = false) (b : PushArgs) (now : ℕ) :
    (p.pushBuffer b now).mTotalBufCount = p.mTotalBufCount + 1 := by
  rw [pushBuffer, if_neg (by simp [hexit])]

variable {α : Type*} {f : α → BufferChunk} {w : LogWindow α}

lemma Tracks.getSize_clearToLastRead (h : p.Tracks f w) :
    p.clearToLastRead.getSize = p.getSize - (p.getSize - p.mLastReadLocation - 1) := by
  rw [getSize, h.clearToLastRead_eq.1, Ring.size_eraseEnd]
  rfl

lemma Tracks.mTotalBufCount_clearToLastRead (h : p.Tracks f w) :
    p.clearToLastRead.mTotalBufCount
      = p.mTotalBufCount - (p.getSize - p.mLastReadLocation - 1) :=
  h.clearToLastRead_eq.2

/-- `clearToLastRead` keeps the numbers of the chunks it keeps. -/
lemma Tracks.chunkAt_clearToLastRead (h : p.Tracks f w) (k : ℕ) :
    p.clearToLastRead.chunkAt k
      = if k < p.clearToLastRead.mTotalBufCount then p.chunkAt k else none := by
  have hsize := h.getSize_clearToLastRead
  have hcount := h.mTotalBufCount_clearToLastRead
  have hle := h.getSize_le
  have hitems : p.clearToLastRead.mCircBuf.items
      = p.mCircBuf.items.take p.clearToLastRead.getSize := by
    rw [hsize, h.clearToLastRead_eq.1]
    rfl
  have hfirst : p.clearToLastRead.mTotalBufCount - p.clearToLastRead.getSize
      = p.mTotalBufCount - p.getSize := by omega
  rw [chunkAt, chunkAt, hfirst, hitems, List.getElem?_take]
  split_ifs <;> first | rfl | omega

end Sizes

/-! ### Reading one chunk -/

/-- A read of one whole chunk that the ring holds delivers it; a stream whose only chunk is
the final one is excepted. -/
lemma Tracks.read_chunk {α : Type*} {p : BufferPool} {f : α → BufferChunk} {w : LogWindow α}
    (h : p.Tracks f w) (hexit : p.exitPending = false) (hcap : p.getCapacity < 2 ^ 64) {k : ℕ}
    {x : α} (hx : w.log[k]? = some x) (hheld : p.mTotalBufCount ≤ k + p.getSize)
    (hone : p.mTotalBufCount ≠ 1) (loop : LoopProgress) :
    (p.read ⟨1, k, 0, 0⟩ loop).1.Delivers (f x).data := by
  have hle : p.getSize ≤ p.getCapacity := p.mCircBuf.size_le
  obtain ⟨hk, rfl⟩ := List.getElem?_eq_some_iff.mp hx
  have hcount := h.count
  have hB : 0 < bufferChunkSize := by decide
  have hnone : p.refuses ⟨1, k, 0, 0⟩ = none :=
    refuses_eq_none hexit (fun _ => by dsimp only; omega) hB hB (by dsimp only; omega)
      (by dsimp only; omega) (by dsimp only; omega)
  have hready : ¬ p.mustWait ⟨1, k, 0, 0⟩ := by
    rintro ⟨hw, -⟩
    simp only [ReadArgs.readEnd] at hw
    omega
  have hfull : p.lastItemCopySize ⟨1, k, 0, 0⟩ 0 = bufferChunkSize := by
    have hindex : ¬ (0 = subU64 p.mTotalBufCount 1) := by
      rw [subU64_of_le (by omega)]
      omega
    have hleft : leftSkip ⟨1, k, 0, 0⟩ 0 = 0 := rfl
    have hright : rightSkip ⟨1, k, 0, 0⟩ 0 = 0 := by simp [rightSkip]
    simp only [lastItemCopySize, hindex, and_false, if_false, hleft, hright]
    rw [subU64_of_le (Nat.zero_le _), subU64_of_le (Nat.zero_le _), Nat.sub_zero, Nat.sub_zero]
  have htotal : p.bytesBefore ⟨1, k, 0, 0⟩ 1 = bufferChunkSize := by
    rw [bytesBefore, Finset.sum_range_one, hfull]
  have hdel := delivers_of_slices (p := p) (a := ⟨1, k, 0, 0⟩) (s := streamBytes f w.log) hB.le
    (fun i hi => ?_) (fun i hi => ?_) (fun i hi => by dsimp only at hi; omega)
    (by rw [htotal]; decide)
  · rw [read_of_admitted loop hnone hready, p.finishRead_of_pos _ loop (by omega)]
    rw [htotal] at hdel ⊢
    rwa [Nat.add_zero, slice_streamBytes f hk] at hdel
  · obtain rfl : i = 0 := by dsimp only at hi; omega
    refine ⟨f w.log[k], ?_, (slice_streamBytes f hk).symm⟩
    rw [h.chunk (by omega) hheld (by dsimp only; omega)]
    simp [hk]
  · obtain rfl : i = 0 := by dsimp only at hi; omega
    simp [hfull, leftSkip]

end BufferPool

namespace Session

variable {C : PoolCapacity} {s : Session}

/-! ### The window check -/

/-- The ring holds the newest chunks of the stream, and every chunk of it that the window check
of `read` admits. -/
structure WindowExact (s : Session) : Prop where
  chunk : ∀ k < s.pool.getSize, ∃ e,
    s.stream[s.pool.mTotalBufCount - s.pool.getSize + k]? = some e
      ∧ s.pool.mCircBuf.items[k]? = some e.chunk
  size_le : s.pool.getSize ≤ s.pool.mTotalBufCount
  resident : ∀ offset < s.pool.mTotalBufCount,
    s.pool.mTotalBufCount - offset ≤ s.pool.getCapacity →
      s.pool.mTotalBufCount - s.pool.getSize ≤ offset

/-- A `clearToLastRead` erases nothing, or comes before the ring has given up a chunk. -/
def KeepsWindow (t : Transition Session Event Observation) : Prop :=
  t.event = .clearToLastRead → t.before.reader = .idle →
    t.before.pool.getSize ≤ t.before.pool.mLastReadLocation + 1
      ∨ t.before.pool.getSize = t.before.pool.mTotalBufCount

/-- The window is exact where the ring holds as much as fits. -/
lemma windowExact_iff_getSize (hs : s.WellFormed C) :
    WindowExact s ↔ s.pool.getSize = min s.pool.mTotalBufCount C.val := by
  have hle := hs.tracks.getSize_le
  have hcap := hs.getSize_le
  constructor
  · intro h
    by_contra hne
    have hres := h.resident (s.pool.mTotalBufCount - min s.pool.mTotalBufCount C.val)
      (by have := C.one_le; omega) (by rw [hs.capacity]; omega)
    omega
  · intro hsize
    refine ⟨fun k hk => ?_, hle, fun offset hoff hadmit => ?_⟩
    · have hlt : s.pool.mTotalBufCount - s.pool.getSize + k < s.stream.length := by
        rw [hs.length_stream]
        omega
      refine ⟨_, List.getElem?_eq_getElem hlt, ?_⟩
      rw [hs.chunk_eq, List.getElem?_eq_getElem hlt, Option.map_some]
    · rw [hs.capacity] at hadmit
      omega

/-- One move keeps an exact window exact iff it does not erase from a ring that has given up a
chunk. -/
lemma windowExact_moves_iff (hs : s.WellFormed C) (hexact : WindowExact s) {e : Event}
    {s' : Session} (hm : s.Moves e s') :
    WindowExact s' ↔ (e = .clearToLastRead → s.reader = .idle →
      s.pool.getSize ≤ s.pool.mLastReadLocation + 1 ∨ s.pool.getSize = s.pool.mTotalBufCount) := by
  have hs' := hs.moves hm
  have hsize := (windowExact_iff_getSize hs).mp hexact
  rw [windowExact_iff_getSize hs']
  cases hm with
  | keep hquiet hchunks hpositions hstream hreader =>
      refine iff_of_true ?_ fun he hidle => absurd hidle (by subst he; exact hquiet)
      rw [BufferPool.getSize, hchunks.mCircBuf, hchunks.mTotalBufCount]
      exact hsize
  | pushBuffer b now =>
      refine iff_of_true ?_ (by simp)
      show (s.pool.pushBuffer b now).getSize = min (s.pool.pushBuffer b now).mTotalBufCount C.val
      rw [BufferPool.getSize_pushBuffer hs.running, BufferPool.mTotalBufCount_pushBuffer hs.running,
        hs.capacity]
      omega
  | copy a loop hreader =>
      have hchunks := sameChunks_finishRead s.pool a loop
      refine iff_of_true ?_ (by simp)
      show (s.pool.finishRead a loop).2.mCircBuf.size = _
      rw [hchunks.mCircBuf]
      show _ = min (s.pool.finishRead a loop).2.mTotalBufCount _
      rw [hchunks.mTotalBufCount]
      exact hsize
  | clear hreader =>
      exact iff_of_true (by simp [clear, BufferPool.clear, BufferPool.getSize]) (by simp)
  | clearToLastRead hreader =>
      have hone := C.one_le
      show s.pool.clearToLastRead.getSize = min s.pool.clearToLastRead.mTotalBufCount C.val ↔ _
      rw [hs.tracks.getSize_clearToLastRead, hs.tracks.mTotalBufCount_clearToLastRead]
      simp only [true_implies, hreader]
      have hle := hs.tracks.getSize_le
      omega

/-- **The window stays exact.** The window check admits exactly what the ring holds in every
state of a run, if and only if each `clearToLastRead` of the run erases nothing or comes before
the ring has given up a chunk. -/
theorem windowExact_iff (C : PoolCapacity) (es : List Event) :
    (∀ t ∈ machine.trace (fresh C) es, WindowExact t.after)
      ↔ ∀ t ∈ machine.trace (fresh C) es, KeepsWindow t := by
  have hfresh : WindowExact (fresh C) :=
    (windowExact_iff_getSize (WellFormed.fresh C)).mpr (Nat.zero_min _).symm
  refine Machine.forall_trace_iff (I := fun s => s.WellFormed C ∧ WindowExact s)
    (fun s e hs => windowExact_moves_iff hs.1 hs.2 (moves_act hs.1.reader e))
    (fun s e hs hexact => ⟨hs.1.next e, hexact⟩) ⟨WellFormed.fresh C, hfresh⟩ es

/-- After four pushes on a pool of three chunks and a read of the chunk `1`, `clearToLastRead`
leaves that chunk alone, but the chunk `0`, overwritten long ago, counts as one of the newest
three. -/
theorem not_forall_windowExact :
    ¬ ∀ (C : PoolCapacity) (es : List Event),
        ∀ t ∈ machine.trace (fresh C) es, WindowExact t.after := by
  intro h
  let es : List Event :=
    [.pushBuffer (.filled 1) 0, .pushBuffer (.filled 2) 0, .pushBuffer (.filled 3) 0,
      .pushBuffer (.filled 4) 0, .read ⟨1, 1, 0, 0⟩, .copy ⟨0, false⟩]
  have hexact := h (.ofNat 3) _ _
    (machine.mem_trace_append (fresh (.ofNat 3)) es .clearToLastRead)
  have hres := hexact.resident 0 (by decide +kernel) (by decide +kernel)
  revert hres
  decide +kernel

/-! ### The rewind -/

/-- **What a rewind comes to**: with no read under way, everything else follows from the chunk
count. -/
lemma rewindsTo_iff (hs : s.WellFormed C) (hidle : s.reader = .idle) (n : ℕ) :
    s.pool.RewindsTo n ↔ s.pool.clearToLastRead.mTotalBufCount = n + 1 := by
  refine ⟨BufferPool.RewindsTo.count, fun hcount => ⟨hcount, fun k => ?_, fun b now loop => ?_⟩⟩
  · rw [hs.tracks.chunkAt_clearToLastRead, hcount]
    simp only [Nat.lt_succ_iff]
  · have hq := hs.clearToLastRead hidle
    have hnext := hq.pushBuffer b now
    have hone := C.one_le
    have hsize : (s.clearToLastRead.pushBuffer b now).pool.getSize
        = min (s.clearToLastRead.pool.getSize + 1) s.clearToLastRead.pool.getCapacity :=
      BufferPool.getSize_pushBuffer hq.running b now
    have htotal : (s.clearToLastRead.pushBuffer b now).pool.mTotalBufCount = n + 1 + 1 := by
      rw [← hcount]
      exact BufferPool.mTotalBufCount_pushBuffer hq.running b now
    have hlen := hnext.length_stream
    rw [hq.capacity] at hsize
    have hentry : (s.clearToLastRead.pushBuffer b now).stream[n + 1]?
        = some ⟨b, s.clearToLastRead.pool.mThrottle.timePeriod now⟩ := by
      have hlength : s.clearToLastRead.stream.length = n + 1 := hq.length_stream.trans hcount
      simp [Session.pushBuffer, hq.running, ← hlength]
    exact hnext.tracks.read_chunk hnext.running (by rw [hnext.capacity]; exact C.lt) hentry
      (by omega) (by omega) loop

/-- The session after pushes: sizes, positions and the reader. -/
lemma run_pushes (hs : s.WellFormed C) (pushes : List (PushArgs × ℕ)) :
    (machine.run s (pushes.map fun b => .pushBuffer b.1 b.2)).pool.getSize
        = min (s.pool.getSize + pushes.length) C.val
      ∧ (machine.run s (pushes.map fun b => .pushBuffer b.1 b.2)).pool.mTotalBufCount
        = s.pool.mTotalBufCount + pushes.length
      ∧ (machine.run s (pushes.map fun b => .pushBuffer b.1 b.2)).pool.mLastReadLocation
        = s.pool.mLastReadLocation
      ∧ (machine.run s (pushes.map fun b => .pushBuffer b.1 b.2)).reader = s.reader := by
  induction pushes generalizing s with
  | nil => exact ⟨(Nat.min_eq_left hs.getSize_le).symm, rfl, rfl, rfl⟩
  | cons b pushes ih =>
      have hpush := hs.pushBuffer b.1 b.2
      obtain ⟨hsize, hcount, hloc, hreader⟩ := ih hpush
      have hsize' : (s.pushBuffer b.1 b.2).pool.getSize
          = min (s.pool.getSize + 1) s.pool.getCapacity :=
        BufferPool.getSize_pushBuffer hs.running b.1 b.2
      have hcount' : (s.pushBuffer b.1 b.2).pool.mTotalBufCount = s.pool.mTotalBufCount + 1 :=
        BufferPool.mTotalBufCount_pushBuffer hs.running b.1 b.2
      have hframe := s.pool.pushBuffer_frame b.1 b.2
      rw [hs.capacity] at hsize'
      rw [List.map_cons, Machine.run_cons]
      show (machine.run (s.pushBuffer b.1 b.2) _).pool.getSize = _ ∧
        (machine.run (s.pushBuffer b.1 b.2) _).pool.mTotalBufCount = _ ∧
        (machine.run (s.pushBuffer b.1 b.2) _).pool.mLastReadLocation = _ ∧
        (machine.run (s.pushBuffer b.1 b.2) _).reader = _
      rw [List.length_cons]
      exact ⟨by omega, by omega, hloc.trans hframe.2.2.2, hreader⟩

/-- The events of a read's copy block and the pushes that follow it. -/
def readThenPush (loop : LoopProgress) (pushes : List (PushArgs × ℕ)) : List Event :=
  .copy loop :: pushes.map fun b => .pushBuffer b.1 b.2

/-- **The rewind names the last chunk read.** In every run, after a read whose range was in the
ring and any pushes, `clearToLastRead` rewinds to the last chunk of that read if and only if
the ring had room for the pushes. -/
theorem clearToLastRead_rewinds_iff (C : PoolCapacity) (es : List Event) (a : ReadArgs)
    (loop : LoopProgress) (pushes : List (PushArgs × ℕ))
    (ha : (machine.run (fresh C) es).reader = .admitted a) (hlen : 0 < a.length)
    (hheld : (machine.run (fresh C) es).pool.mTotalBufCount
      ≤ a.offset + (machine.run (fresh C) es).pool.getSize)
    (hend : a.readEnd ≤ (machine.run (fresh C) es).pool.mTotalBufCount) :
    (machine.run (fresh C) (es ++ readThenPush loop pushes)).pool.RewindsTo (a.readEnd - 1)
      ↔ (machine.run (fresh C) es).pool.getSize + pushes.length ≤ C.val := by
  have hs := wellFormed_run C es
  rw [Machine.run_append, readThenPush, Machine.run_cons]
  set s := machine.run (fresh C) es
  rw [ReadArgs.readEnd] at hend ⊢
  have hsize : s.pool.getSize < 2 ^ 64 := lt_of_le_of_lt hs.getSize_le C.lt
  have hle := hs.tracks.getSize_le
  -- the copy block remembers the position of its last chunk
  have hs' := hs.next (.copy loop)
  rw [next_copy ha] at hs' ⊢
  have hchunks := sameChunks_finishRead s.pool a loop
  have hloc := (positions_finishRead s.pool a loop (by omega)).1
  rw [s.pool.mLastReadLocation_poolAt a hlen, s.pool.startPos_of_held a hsize hheld (by omega)]
    at hloc
  have hsize' : (s.copy a loop).1.pool.getSize = s.pool.getSize := by
    show (s.pool.finishRead a loop).2.mCircBuf.size = s.pool.mCircBuf.size
    rw [hchunks.mCircBuf]
  have hcount' : (s.copy a loop).1.pool.mTotalBufCount = s.pool.mTotalBufCount :=
    hchunks.mTotalBufCount
  have hloc' : (s.copy a loop).1.pool.mLastReadLocation
      = a.offset + (a.length - 1) + s.pool.getSize - s.pool.mTotalBufCount := hloc
  -- the pushes move the window, but not that position
  obtain ⟨hsizeN, hcountN, hlocN, hreaderN⟩ := run_pushes hs' pushes
  have hcap := hs.getSize_le
  have hwf := hs'.run (pushes.map fun b => .pushBuffer b.1 b.2)
  rw [rewindsTo_iff hwf hreaderN, hwf.tracks.mTotalBufCount_clearToLastRead, hsizeN, hcountN, hlocN,
    hsize', hcount', hloc']
  omega

/-- A rewind on a pool of three chunks, after a read of the chunk `0` and two more pushes. -/
theorem clearToLastRead_rewinds_with_room :
    (machine.run (fresh (.ofNat 3))
      ([.pushBuffer (.filled 1) 0, .read ⟨1, 0, 0, 0⟩] ++
        readThenPush ⟨0, false⟩ [(.filled 2, 0), (.filled 3, 0)])
      ).pool.RewindsTo 0 :=
  (clearToLastRead_rewinds_iff _ _ ⟨1, 0, 0, 0⟩ _ _ (by decide +kernel) (by decide)
    (by decide +kernel) (by decide +kernel)).mpr (by decide +kernel)

/-- One push rotates a ring of two chunks after a read of the newest chunk; the rewind then
keeps the chunk behind it. -/
theorem not_forall_rewindsTo :
    ¬ ∀ (C : PoolCapacity) (es : List Event) (a : ReadArgs) (loop : LoopProgress)
        (pushes : List (PushArgs × ℕ)),
        (machine.run (fresh C) es).reader = .admitted a → 0 < a.length →
        (machine.run (fresh C) es).pool.mTotalBufCount
          ≤ a.offset + (machine.run (fresh C) es).pool.getSize →
        a.readEnd ≤ (machine.run (fresh C) es).pool.mTotalBufCount →
        (machine.run (fresh C) (es ++ readThenPush loop pushes)).pool.mTotalBufCount
          ≤ a.readEnd - 1
            + (machine.run (fresh C) (es ++ readThenPush loop pushes)).pool.getSize →
        (machine.run (fresh C) (es ++ readThenPush loop pushes)).pool.RewindsTo (a.readEnd - 1) := by
  intro h
  have hcount := (h (.ofNat 2)
    [.pushBuffer (.filled 1) 0, .pushBuffer (.filled 2) 0, .read ⟨1, 1, 0, 0⟩] ⟨1, 1, 0, 0⟩
    ⟨0, false⟩ [(.filled 3, 0)]
    (by decide +kernel) (by decide) (by decide +kernel) (by decide +kernel)
    (by decide +kernel)).count
  revert hcount
  decide +kernel

end Session

end StreamFs
