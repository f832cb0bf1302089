import StreamFs.Pool.BufferPool

/-!
The copy loop of `BufferPool::read`, in closed form.

* `copyLoop_eq`: iteration `i` makes the copy `copyAt`, at the accumulated offset `offAt`, and
  the pool changes in the last read location and the read position of the throttle only.
* `offAt_eq`: the accumulator is the number of bytes copied so far, stored in an `int`.
* `finishRead_of_pos`: the copy block on a ring that holds a chunk.
* `ReadResult.Delivers`: the return value is the number of bytes delivered, no copy is out of
  bounds, and the caller's buffer holds the bytes and nothing else.
* `delivers_of_slices`: a loop whose iterations read consecutive slices of a byte stream, less
  than `2^31` bytes in all, delivers the slice they make up.
-/

namespace StreamFs

/-! ### Results -/

/-- The writes into the caller's buffer. -/
def ReadResult.writes (r : ReadResult) : List (ℤ × List UInt8) :=
  r.copies.map fun c => (c.dst, c.bytes.getD [])

/-- The read delivers exactly the bytes `bs`: it returns their number, every copy stays within
the ring and its chunk, and the caller's buffer is written with `bs` from its start on and
nowhere else. -/
structure ReadResult.Delivers (r : ReadResult) (bs : List UInt8) : Prop where
  ret_eq : r.ret = bs.length
  inBounds : ∀ c ∈ r.copies, c.bytes.isSome
  image_eq : ∀ k, image r.writes k = place 0 bs k

/-- A read that returns `0` without copying delivers nothing. -/
lemma ReadResult.nothing_delivers : ReadResult.nothing.Delivers [] :=
  ⟨rfl, by simp [ReadResult.nothing], fun k => by simp [writes, nothing, image]⟩

namespace BufferPool

variable (p : BufferPool) (a : ReadArgs)

/-! ### The closed form -/

/-- The value of `off` before iteration `i`. -/
def offAt : ℕ → ℤ
  | 0 => 0
  | i + 1 => toInt32 (offAt i + p.lastItemCopySize a i)

/-- The copy of iteration `i`. -/
def copyAt (i : ℕ) : Copy where
  dst := p.offAt a i
  startPos := p.startPos a i
  leftSkip := leftSkip a i
  size := p.lastItemCopySize a i
  bytes := p.mCircBuf.items[p.startPos a i]?.bind fun c =>
    c.bytes (leftSkip a i) (p.lastItemCopySize a i)

/-- The pool after a loop whose last iteration reads position `pos`. -/
def readUpTo (pos : ℕ) : BufferPool :=
  { p with mLastReadLocation := pos, mThrottle := p.mThrottle.setReadPosition pos }

/-- The pool after `n` iterations. -/
def poolAt : ℕ → BufferPool
  | 0 => p
  | n + 1 => p.readUpTo (p.startPos a n)

/-- The number of bytes the first `n` iterations copy. -/
def bytesBefore (n : ℕ) : ℕ := ∑ i ∈ Finset.range n, p.lastItemCopySize a i

lemma lastItemCopySize_poolAt (n i : ℕ) :
    (p.poolAt a n).lastItemCopySize a i = p.lastItemCopySize a i := by cases n <;> rfl

lemma startPos_poolAt (n i : ℕ) : (p.poolAt a n).startPos a i = p.startPos a i := by
  cases n <;> rfl

/-- A nonempty copy loop leaves the position of its last chunk. -/
lemma mLastReadLocation_poolAt {n : ℕ} (hn : 0 < n) :
    (p.poolAt a n).mLastReadLocation = p.startPos a (n - 1) := by
  cases n with
  | zero => exact absurd hn (lt_irrefl 0)
  | succ n => rfl

lemma mPos_poolAt {n : ℕ} (hn : 0 < n) :
    (p.poolAt a n).mThrottle.mPos = p.startPos a (n - 1) := by
  cases n with
  | zero => exact absurd hn (lt_irrefl 0)
  | succ n => rfl

lemma mCircBuf_poolAt (n : ℕ) : (p.poolAt a n).mCircBuf = p.mCircBuf := by cases n <;> rfl

lemma readUpTo_poolAt (n pos : ℕ) : (p.poolAt a n).readUpTo pos = p.readUpTo pos := by
  cases n <;> rfl

lemma copyBody_poolAt (n i : ℕ) (off : ℤ) (cs : List Copy) :
    copyBody a ⟨p.poolAt a n, off, cs⟩ i
      = ⟨p.readUpTo (p.startPos a i), toInt32 (off + p.lastItemCopySize a i),
          cs ++ [{ p.copyAt a i with dst := off }]⟩ := by
  have hbody : ∀ q : BufferPool, copyBody a ⟨q, off, cs⟩ i
      = ⟨q.readUpTo (q.startPos a i), toInt32 (off + q.lastItemCopySize a i),
          cs ++ [{ q.copyAt a i with dst := off }]⟩ := fun _ => rfl
  rw [hbody, readUpTo_poolAt]
  simp only [copyAt, lastItemCopySize_poolAt, startPos_poolAt, mCircBuf_poolAt]

/-- The closed form of the first `n` iterations. -/
lemma foldl_copyBody (n : ℕ) :
    (List.range n).foldl (copyBody a) ⟨p, 0, []⟩
      = ⟨p.poolAt a n, p.offAt a n, (List.range n).map (p.copyAt a)⟩ := by
  induction n with
  | zero => rfl
  | succ n ih =>
      rw [List.range_succ, List.foldl_append, ih, List.foldl_cons, List.foldl_nil,
        copyBody_poolAt, List.map_append]
      simp only [poolAt, offAt, copyAt, List.map_cons, List.map_nil]

/-- **The copy loop in closed form.** -/
theorem copyLoop_eq :
    p.copyLoop a
      = ⟨p.poolAt a a.length, p.offAt a a.length, (List.range a.length).map (p.copyAt a)⟩ :=
  p.foldl_copyBody a a.length

lemma bytesBefore_succ (n : ℕ) :
    p.bytesBefore a (n + 1) = p.bytesBefore a n + p.lastItemCopySize a n :=
  Finset.sum_range_succ _ _

/-- The accumulator is the byte count, stored in an `int`. -/
lemma offAt_eq (n : ℕ) : p.offAt a n = toInt32 (p.bytesBefore a n) := by
  induction n with
  | zero => simp [offAt, bytesBefore, toInt32]
  | succ n ih =>
      calc p.offAt a (n + 1)
          = toInt32 (toInt32 (p.bytesBefore a n) + p.lastItemCopySize a n) := by rw [offAt, ih]
        _ = toInt32 ((p.bytesBefore a n : ℤ) + p.lastItemCopySize a n) := toInt32_toInt32_add _ _
        _ = toInt32 (p.bytesBefore a (n + 1)) := by rw [bytesBefore_succ, Nat.cast_add]

lemma bytesBefore_mono {m n : ℕ} (h : m ≤ n) : p.bytesBefore a m ≤ p.bytesBefore a n :=
  Finset.sum_le_sum_of_subset (Finset.range_subset_range.mpr h)

/-- The copy block on a ring that holds no chunk. -/
lemma finishRead_of_empty (loop : LoopProgress) (h : p.getSize = 0) :
    p.finishRead a loop = (.nothing, p) := by
  rw [finishRead, if_pos h]

/-- **The copy block on a ring that holds a chunk.** -/
theorem finishRead_of_pos (loop : LoopProgress) (h : 0 < p.getSize) :
    p.finishRead a loop
      = (⟨toSizeT (toInt32 (p.bytesBefore a a.length)), (List.range a.length).map (p.copyAt a)⟩,
          { p.poolAt a a.length with
            mThrottle := (p.poolAt a a.length).mThrottle.wait loop }) := by
  rw [finishRead, if_neg (by omega), copyLoop_eq, offAt_eq]

/-! ### Positions -/

/-- The position of iteration `i` where its chunk is in the ring: the distance of the chunk from
the oldest one held. The subtraction may wrap around on the way, the sum then wraps back. -/
lemma startPos_of_resident {i : ℕ} (hsize : p.getSize < 2 ^ 64) (hi64 : i < 2 ^ 64)
    (hheld : p.mTotalBufCount ≤ a.offset + i + p.getSize) (hi : a.offset + i < p.mTotalBufCount) :
    p.startPos a i = a.offset + i + p.getSize - p.mTotalBufCount := by
  have hle : p.getSize ≤ p.getCapacity := p.mCircBuf.size_le
  rw [startPos, Nat.min_eq_left hle, subU64_of_le (by omega : a.offset ≤ p.mTotalBufCount)]
  rcases Nat.lt_or_ge p.getSize (p.mTotalBufCount - a.offset) with hlt | hge
  · rw [subU64_of_lt hlt, addU64]
    omega
  · rw [subU64_of_le hge, addU64_of_lt (by omega)]
    omega

/-- The position of iteration `i` where the first chunk asked for is in the ring. -/
lemma startPos_of_held {i : ℕ} (hsize : p.getSize < 2 ^ 64)
    (hheld : p.mTotalBufCount ≤ a.offset + p.getSize) (hi : a.offset + i < p.mTotalBufCount) :
    p.startPos a i = a.offset + i + p.getSize - p.mTotalBufCount :=
  p.startPos_of_resident a hsize (by omega) (by omega) hi

/-! ### Delivery -/

/-- The copy of an iteration that reads inside a chunk. -/
lemma copyAt_bytes {i : ℕ} {c : BufferChunk} (hc : p.mCircBuf.items[p.startPos a i]? = some c)
    (hin : leftSkip a i + p.lastItemCopySize a i ≤ bufferChunkSize) :
    (p.copyAt a i).bytes = some (slice c.data (leftSkip a i) (p.lastItemCopySize a i)) := by
  simp only [copyAt, hc, Option.bind_some, BufferChunk.bytes, if_pos hin]

variable {p a}

/-- Full copies in a row read consecutive bytes of the stream: before iteration `i` of a loop
that has copied every chunk to its end, the next byte is at `leftSkip` in the chunk
`offset + i`. -/
lemma bytesBefore_of_full {i : ℕ} (hl : a.leftPadding ≤ bufferChunkSize)
    (hfull : ∀ j < i, p.lastItemCopySize a j = bufferChunkSize - leftSkip a j) :
    a.offset * bufferChunkSize + a.leftPadding + p.bytesBefore a i
      = (a.offset + i) * bufferChunkSize + leftSkip a i := by
  induction i with
  | zero => simp [bytesBefore, leftSkip]
  | succ i ih =>
      have hprev := ih fun j hj => hfull j (by omega)
      have hskip : leftSkip a i ≤ bufferChunkSize := by
        rw [leftSkip]; split <;> omega
      have hnext : leftSkip a (i + 1) = 0 := by simp [leftSkip]
      calc a.offset * bufferChunkSize + a.leftPadding + p.bytesBefore a (i + 1)
          = a.offset * bufferChunkSize + a.leftPadding + p.bytesBefore a i
              + (bufferChunkSize - leftSkip a i) := by
            rw [bytesBefore_succ, hfull i (by omega), ← Nat.add_assoc]
        _ = (a.offset + i) * bufferChunkSize + leftSkip a i
              + (bufferChunkSize - leftSkip a i) := by rw [hprev]
        _ = (a.offset + i) * bufferChunkSize + bufferChunkSize := by
            rw [Nat.add_assoc, Nat.add_sub_cancel' hskip]
        _ = (a.offset + (i + 1)) * bufferChunkSize + leftSkip a (i + 1) := by
            rw [hnext, ← Nat.add_assoc, Nat.succ_mul, Nat.add_zero]

/-- **Delivery of a byte range.** If iteration `i` finds the bytes of the chunk `offset + i`
of the stream `s` and copies within it, every iteration but the last to the chunk's end, and
less than `2^31` bytes are copied, then the read delivers one slice of the stream. -/
theorem delivers_of_slices {s : List UInt8} (hl : a.leftPadding ≤ bufferChunkSize)
    (hchunk : ∀ i < a.length, ∃ c, p.mCircBuf.items[p.startPos a i]? = some c
      ∧ c.data = slice s ((a.offset + i) * bufferChunkSize) bufferChunkSize)
    (hin : ∀ i < a.length, leftSkip a i + p.lastItemCopySize a i ≤ bufferChunkSize)
    (hfull : ∀ i, i + 1 < a.length → p.lastItemCopySize a i = bufferChunkSize - leftSkip a i)
    (htotal : p.bytesBefore a a.length < 2 ^ 31) :
    (ReadResult.mk (toSizeT (toInt32 (p.bytesBefore a a.length)))
        ((List.range a.length).map (p.copyAt a))).Delivers
      (slice s (a.offset * bufferChunkSize + a.leftPadding) (p.bytesBefore a a.length)) := by
  set start := a.offset * bufferChunkSize + a.leftPadding with hstart
  set n := p.lastItemCopySize a with hn
  -- what each copy finds, as a slice of the stream
  have hbytes : ∀ i < a.length, (p.copyAt a i).bytes
      = some (slice s (start + p.bytesBefore a i) (n i)) ∧
      (slice s (start + p.bytesBefore a i) (n i)).length = n i := by
    intro i hi
    obtain ⟨c, hc, hdata⟩ := hchunk i hi
    have hpos := bytesBefore_of_full hl (i := i) fun j hj => hfull j (by omega)
    have hslice :
        slice c.data (leftSkip a i) (n i) = slice s (start + p.bytesBefore a i) (n i) := by
      rw [hdata, slice_slice s (hin i hi), hstart, hpos]
    refine ⟨by rw [p.copyAt_bytes a hc (hin i hi), hslice], ?_⟩
    rw [← hslice]
    exact length_slice_of_le (by rw [c.length_eq]; exact hin i hi)
  have hwrites : ∀ i ∈ List.range a.length,
      ((p.copyAt a i).dst, (p.copyAt a i).bytes.getD [])
        = (((p.bytesBefore a i : ℕ) : ℤ), slice s (start + p.bytesBefore a i) (n i)) := by
    intro i hi
    have hi' : i < a.length := List.mem_range.mp hi
    have hmono := p.bytesBefore_mono a hi'.le
    rw [(hbytes i hi').1, Option.getD_some, copyAt, offAt_eq, toInt32_of_lt (by omega)]
  have hcontig : Contiguous 0 ((List.range a.length).map fun i =>
      (((p.bytesBefore a i : ℕ) : ℤ), slice s (start + p.bytesBefore a i) (n i))) := by
    refine contiguous_map_range rfl fun i hi => ?_
    rw [(hbytes i (by omega)).2, bytesBefore_succ]
    push_cast
    rfl
  have hjoin : (List.range a.length).flatMap
      (fun i => slice s (start + p.bytesBefore a i) (n i))
        = slice s start (p.bytesBefore a a.length) := flatMap_slice s start n a.length
  refine ⟨?_, ?_, fun k => ?_⟩
  · -- the length of the slice is the sum of the lengths of the pieces
    rw [toSizeT_toInt32_of_lt htotal, ← hjoin, length_flatMap_range, bytesBefore]
    exact Finset.sum_congr rfl fun i hi => ((hbytes i (Finset.mem_range.mp hi)).2).symm
  · intro c hc
    obtain ⟨i, hi, rfl⟩ := List.mem_map.mp hc
    rw [(hbytes i (List.mem_range.mp hi)).1]
    rfl
  · rw [ReadResult.writes, List.map_map, List.map_congr_left (f := _ ∘ _) hwrites,
      hcontig.image_eq, List.flatMap_map, hjoin]

end BufferPool

end StreamFs
