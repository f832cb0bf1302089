import StreamFs.Pool.RandomAccess

/-!
Reads of a finished stream: `m` full chunks and a final one of which `s` bytes count.

* `finishedPool`, `finishedLength`: the pool after the final push, and the length of the stream
  in bytes.
* `ReadsRest`: the read returns and delivers exactly what the stream has left of the range.
* `finishedCopied`: what the copies of a read come to. `finishedCopied_eq_iff` says when it is
  what is left, `count_of_delivers` that a result can be right only then.
* `truncationFits`: the requests the code serves so. The copy loop cuts the final chunk off by
  comparing its index `i`, counted from the first chunk of the read, with the count of all
  chunks, so it does so for reads from the chunk `0` only, and it cuts without regard to the
  left padding. `readsRest_iff`: a read in the window is served exactly if it fits.
-/

namespace StreamFs

namespace BufferPool

/-- The pool after the chunks `body` and a final chunk of which `s` bytes count. -/
def finishedPool (C : PoolCapacity) (body : List (PushArgs × ℕ)) (final : BufferChunk) (s : ℕ)
    (now : ℕ) : BufferPool :=
  ((create C).pushAll body).pushBuffer ⟨final, true, s⟩ now

/-- The bytes of the finished stream, its final chunk with the padding. -/
def finishedBytes (body : List (PushArgs × ℕ)) (final : BufferChunk) : List UInt8 :=
  streamBytes pushedChunk body ++ final.data

/-- The length of a finished stream of `m` full chunks and `s` bytes. -/
def finishedLength (m s : ℕ) : ℕ := m * bufferChunkSize + s

/-- The read returns the number of bytes left in the stream, at most `size`, and delivers
exactly these. -/
def ReadsRest (C : PoolCapacity) (body : List (PushArgs × ℕ)) (final : BufferChunk)
    (s now size offsetBytes : ℕ) (loop : LoopProgress) : Prop :=
  let N := finishedLength body.length s
  let r := ((finishedPool C body final s now).readRandomAccess size offsetBytes loop).1
  r.ret = (if offsetBytes < N then min size (N - offsetBytes) else 0)
    ∧ r.Delivers (slice ((finishedBytes body final).take N) offsetBytes size)

/-- The requests that the code cuts off correctly: reads that start behind the chunks, and
reads of less than `2^31` bytes that ask for nothing, end within the stream, or ask for all of
its chunks and none behind them, where a stream of a single chunk is read from its start or
is empty. -/
def truncationFits (m s size offsetBytes : ℕ) : Prop :=
  m + 1 ≤ offsetBytes / bufferChunkSize ∨
    (min size (finishedLength m s - offsetBytes) < 2 ^ 31 ∧
      (size = 0 ∨ offsetBytes + size ≤ finishedLength m s ∨
        (offsetBytes / bufferChunkSize = 0 ∧ coveredChunks size offsetBytes = m + 1 ∧
          (0 < m ∨ offsetBytes = 0 ∨ s = 0))))

/-! ### The finished pool -/

variable {C : PoolCapacity} {body : List (PushArgs × ℕ)} {final : BufferChunk} {s now : ℕ}

/-- What the final push leaves. -/
lemma finishedPool_facts :
    (finishedPool C body final s now).Tracks pushedChunk
        (LogWindow.latest (body ++ [(⟨final, true, s⟩, now)]) C.val)
      ∧ (finishedPool C body final s now).getCapacity = C.val
      ∧ (finishedPool C body final s now).exitPending = false
      ∧ (finishedPool C body final s now).mGotLastBuffer = true
      ∧ (finishedPool C body final s now).mLastBufferSize = s := by
  have hpush : finishedPool C body final s now
      = (create C).pushAll (body ++ [(⟨final, true, s⟩, now)]) := by
    rw [pushAll, List.foldl_append, List.foldl_cons, List.foldl_nil]
    rfl
  obtain ⟨htracks, hcap, hexit, -⟩ := pushAll_tracks C (body ++ [(⟨final, true, s⟩, now)])
  rw [← hpush] at htracks hcap hexit
  have hexit' := (pushAll_tracks C body).2.2.1
  refine ⟨htracks, hcap, hexit, ?_, ?_⟩ <;> simp [finishedPool, pushBuffer, hexit']

lemma streamBytes_append_final (args : ℕ) :
    streamBytes pushedChunk (body ++ [(⟨final, true, s⟩, args)]) = finishedBytes body final := by
  simp [streamBytes, finishedBytes, pushedChunk]

lemma length_finishedBytes :
    (finishedBytes body final).length = (body.length + 1) * bufferChunkSize := by
  rw [finishedBytes, List.length_append, length_streamBytes, final.length_eq, Nat.succ_mul]

variable {p : BufferPool} {a : ReadArgs} {m : ℕ}

/-- The sizes copied from a finished stream: the final chunk is cut off where the index of the
iteration happens to be the number of the full chunks. -/
lemma lastItemCopySize_finished (hgot : p.mGotLastBuffer = true) (hsize : p.mLastBufferSize = s)
    (hcount : p.mTotalBufCount = m + 1) {i : ℕ}
    (hskips : leftSkip a i + rightSkip a i ≤ bufferChunkSize) :
    p.lastItemCopySize a i
      = if i = m then min s (bufferChunkSize - leftSkip a i - rightSkip a i)
        else bufferChunkSize - leftSkip a i - rightSkip a i := by
  simp only [lastItemCopySize, hgot, hsize, hcount, true_and]
  rw [subU64_of_le (show leftSkip a i ≤ bufferChunkSize by omega), subU64_of_le (by omega),
    subU64_of_le (by omega), Nat.add_sub_cancel]

/-- Before the last iteration of a read that stays within the chunks, every chunk is copied to
its end. -/
lemma full_of_finished (hgot : p.mGotLastBuffer = true) (hsize : p.mLastBufferSize = s)
    (hcount : p.mTotalBufCount = m + 1) (hl : a.leftPadding < bufferChunkSize)
    (hlen : a.length ≤ m + 1) {i : ℕ} (hi : i + 1 < a.length) :
    p.lastItemCopySize a i = bufferChunkSize - leftSkip a i := by
  have hr : rightSkip a i = 0 := by
    rw [rightSkip, subU64_of_le (by omega), if_neg (by omega)]
  have hskip : leftSkip a i ≤ bufferChunkSize := by
    rw [leftSkip]; split <;> omega
  rw [lastItemCopySize_finished hgot hsize hcount (by omega), if_neg (by omega), hr, Nat.sub_zero]

/-- The number of bytes copied for a byte range within the chunks of a finished stream: all of
them, or, where the read has exactly as many chunks as the stream, those left after the cut. -/
def finishedCopied (m s size : ℕ) (a : ReadArgs) : ℕ :=
  let left := if m = 0 then a.leftPadding else 0
  if a.length = m + 1 then
    m * bufferChunkSize + left - a.leftPadding + min s (bufferChunkSize - left - a.rightPadding)
  else size

lemma bytesBefore_finished {size offsetBytes : ℕ} (hpads : Pads size offsetBytes a)
    (hgot : p.mGotLastBuffer = true) (hsize : p.mLastBufferSize = s)
    (hcount : p.mTotalBufCount = m + 1) (hlen : a.length ≤ m + 1) :
    p.bytesBefore a a.length = finishedCopied m s size a := by
  have hl := hpads.left_lt
  have hr := hpads.right_lt
  have hfills := hpads.fills
  rw [finishedCopied]
  rcases Nat.eq_zero_or_pos a.length with h0 | hpos
  · rw [h0] at hfills
    rw [bytesBefore, h0, Finset.sum_range_zero, if_neg (by omega)]
    omega
  · have htotal := bytesBefore_length (p := p) hl.le hpos
      fun i hi => full_of_finished hgot hsize hcount hl hlen hi
    have hskips := skips_le hl hr (by omega) (i := a.length - 1) (by omega)
    have hlast := lastItemCopySize_finished hgot hsize hcount hskips
    have hright : rightSkip a (a.length - 1) = a.rightPadding := by
      rw [rightSkip, subU64_of_le hpos, if_pos rfl]
    have hleft : leftSkip a (a.length - 1) = if a.length - 1 = 0 then a.leftPadding else 0 := rfl
    rw [hright] at hlast hskips
    by_cases hm : a.length = m + 1
    · rw [show a.length - 1 = m by omega] at *
      rw [if_pos rfl] at hlast
      rw [if_pos hm]
      rw [hlast, hleft] at htotal
      have : a.leftPadding ≤ m * bufferChunkSize + (if m = 0 then a.leftPadding else 0) := by
        rw [bufferChunkSize_eq] at *
        split <;> omega
      omega
    · rw [if_neg (by omega)] at hlast
      rw [if_neg hm]
      have hmul : (a.length - 1) * bufferChunkSize + bufferChunkSize
          = a.length * bufferChunkSize := by
        rw [← Nat.succ_mul, Nat.succ_eq_add_one, Nat.sub_add_cancel hpos]
      omega

/-- The copies come to what is left of the range exactly for the requests named. -/
lemma finishedCopied_eq_iff {size offsetBytes : ℕ} (hpads : Pads size offsetBytes a)
    (hs : s ≤ bufferChunkSize) (hoff : a.offset ≤ m) (hend : a.readEnd ≤ m + 1) :
    finishedCopied m s size a = min size (finishedLength m s - offsetBytes)
      ↔ size = 0 ∨ offsetBytes + size ≤ finishedLength m s ∨
        (a.offset = 0 ∧ a.length = m + 1 ∧ (0 < m ∨ offsetBytes = 0 ∨ s = 0)) := by
  have hl := hpads.left_lt
  have hr := hpads.right_lt
  have hfills := hpads.fills
  have hstart := hpads.start_eq
  rw [ReadArgs.readEnd] at hend
  rw [finishedCopied, finishedLength]
  rw [bufferChunkSize_eq] at *
  by_cases hlength : a.length = m + 1
  · rw [if_pos hlength]
    have hoffset : a.offset = 0 := by omega
    rcases Nat.eq_zero_or_pos m with rfl | hm
    · rw [if_pos rfl]
      omega
    · rw [if_neg (by omega)]
      omega
  · rw [if_neg hlength]
    omega

/-- They are off by at most a chunk. -/
lemma finishedCopied_close {size offsetBytes : ℕ} (hpads : Pads size offsetBytes a)
    (hs : s ≤ bufferChunkSize) (hoff : a.offset ≤ m) (hend : a.readEnd ≤ m + 1) :
    finishedCopied m s size a ≤ min size (finishedLength m s - offsetBytes) + bufferChunkSize
      ∧ min size (finishedLength m s - offsetBytes)
        ≤ finishedCopied m s size a + bufferChunkSize := by
  have hl := hpads.left_lt
  have hr := hpads.right_lt
  have hfills := hpads.fills
  have hstart := hpads.start_eq
  rw [ReadArgs.readEnd] at hend
  rw [finishedCopied, finishedLength]
  rw [bufferChunkSize_eq] at *
  split_ifs <;> omega

/-! ### The delivered bytes -/

/-- The bytes left of a range in a finished stream, as a slice of its chunks. -/
lemma slice_finished (body : List (PushArgs × ℕ)) (final : BufferChunk) (N size offsetBytes : ℕ) :
    slice ((finishedBytes body final).take N) offsetBytes size
      = slice (finishedBytes body final) offsetBytes (min size (N - offsetBytes)) :=
  slice_take _ _ _ _

lemma length_slice_finished (hs : s ≤ bufferChunkSize) (size offsetBytes : ℕ) :
    (slice ((finishedBytes body final).take (finishedLength body.length s)) offsetBytes size).length
      = min size (finishedLength body.length s - offsetBytes) := by
  have hN : finishedLength body.length s ≤ (body.length + 1) * bufferChunkSize := by
    rw [finishedLength, Nat.succ_mul]
    omega
  rw [slice_finished, length_slice, length_finishedBytes]
  omega

/-- The number of bytes returned is the number delivered. -/
lemma readsRest_iff_delivers (hs : s ≤ bufferChunkSize) {size offsetBytes : ℕ}
    {loop : LoopProgress} :
    ReadsRest C body final s now size offsetBytes loop
      ↔ ((finishedPool C body final s now).readRandomAccess size offsetBytes loop).1.Delivers
          (slice ((finishedBytes body final).take (finishedLength body.length s)) offsetBytes
            size) := by
  refine ⟨And.right, fun h => ⟨?_, h⟩⟩
  rw [h.ret_eq, length_slice_finished hs]
  split <;> omega

/-- Nothing is left behind the last chunk. -/
lemma slice_of_past {size offsetBytes : ℕ} (hpads : Pads size offsetBytes a)
    (hs : s ≤ bufferChunkSize) (hpast : body.length + 1 ≤ a.offset) :
    slice ((finishedBytes body final).take (finishedLength body.length s)) offsetBytes size
      = [] := by
  have hstart := hpads.start_eq
  refine List.eq_nil_of_length_eq_zero ((length_slice_finished hs size offsetBytes).trans ?_)
  rw [finishedLength]
  rw [bufferChunkSize_eq] at *
  omega

/-- A request that goes past the last chunk reads a position behind the ring. -/
lemma not_delivers_of_past {bs : List UInt8} (hsize : p.getSize < 2 ^ 64)
    (hheld : p.mTotalBufCount ≤ a.offset + p.getSize) (hoff : a.offset ≤ p.mTotalBufCount)
    (hpast : p.mTotalBufCount < a.readEnd) (ret : ℕ) :
    ¬ (ReadResult.mk ret ((List.range a.length).map (p.copyAt a))).Delivers bs := by
  intro h
  rw [ReadArgs.readEnd] at hpast
  have hmem : p.copyAt a (p.mTotalBufCount - a.offset)
      ∈ (List.range a.length).map (p.copyAt a) :=
    List.mem_map_of_mem (List.mem_range.mpr (by omega))
  have hle : p.getSize ≤ p.getCapacity := p.mCircBuf.size_le
  have hpos : p.startPos a (p.mTotalBufCount - a.offset) = p.getSize := by
    rw [startPos, Nat.min_eq_left hle, subU64_of_le hoff, subU64_of_le (by omega),
      addU64_of_lt (by omega)]
    omega
  have hnone : p.mCircBuf.items[p.getSize]? = none := List.getElem?_eq_none le_rfl
  have hsome := h.inBounds _ hmem
  rw [copyAt, hpos, hnone] at hsome
  simp at hsome

/-- No copy reaches the address `2^32`: the accumulator is an `int` and a copy is at most a
chunk long. -/
lemma image_copies_eq_none (cs : List ℕ) (hin : ∀ i ∈ cs, p.lastItemCopySize a i ≤ bufferChunkSize)
    (ret : ℕ) : image (ReadResult.mk ret (cs.map (p.copyAt a))).writes (2 ^ 32) = none := by
  refine image_eq_none fun w hw => ?_
  obtain ⟨c, hc, rfl⟩ := List.mem_map.mp hw
  obtain ⟨i, hi, rfl⟩ := List.mem_map.mp hc
  have hdst : p.offAt a i < 2 ^ 31 := by rw [offAt_eq]; exact toInt32_lt _
  have hlen : ((p.copyAt a i).bytes.getD []).length ≤ bufferChunkSize := by
    rw [copyAt]
    cases hget : p.mCircBuf.items[p.startPos a i]? with
    | none => simp
    | some c =>
        simp only [Option.bind_some, BufferChunk.bytes]
        split
        · rw [Option.getD_some, length_slice]
          exact le_trans (Nat.min_le_left _ _) (hin i hi)
        · simp
  rw [bufferChunkSize_eq] at hlen
  show p.offAt a i + (((p.copyAt a i).bytes.getD []).length : ℤ) ≤ 2 ^ 32
  omega

/-- A result of this length is right only if the count has not wrapped around: a longer stretch
would have to reach the address `2^32`. -/
lemma count_of_delivers {n : ℕ} {bs : List UInt8} (cs : List ℕ)
    (hin : ∀ i ∈ cs, p.lastItemCopySize a i ≤ bufferChunkSize)
    (hclose : n ≤ bs.length + bufferChunkSize ∧ bs.length ≤ n + bufferChunkSize)
    (h : (ReadResult.mk (toSizeT (toInt32 n)) (cs.map (p.copyAt a))).Delivers bs) :
    n = bs.length ∧ bs.length < 2 ^ 31 := by
  have hret := h.ret_eq
  dsimp only at hret
  have hmod := toSizeT_toInt32_mod n
  rw [hret] at hmod
  rw [bufferChunkSize_eq] at hclose
  refine ⟨by omega, ?_⟩
  rcases toSizeT_toInt32_cases n with hlow | hhigh
  · rwa [hret] at hlow
  · have himage := h.image_eq (2 ^ 32)
    rw [image_copies_eq_none cs hin, place, if_pos (by norm_num), eq_comm,
      List.getElem?_eq_none_iff] at himage
    omega

/-- The copy block of a finished stream, for a byte range within its chunks of which less than
`2^31` bytes are copied. -/
lemma finished_delivers {size offsetBytes : ℕ} (hpads : Pads size offsetBytes a)
    (htracks : p.Tracks pushedChunk (LogWindow.latest (body ++ [(⟨final, true, s⟩, now)]) C.val))
    (hgot : p.mGotLastBuffer = true) (hlast : p.mLastBufferSize = s)
    (hheld : p.mTotalBufCount ≤ a.offset + p.getSize) (hend : a.readEnd ≤ p.mTotalBufCount)
    (hbytes : p.bytesBefore a a.length < 2 ^ 31) :
    (ReadResult.mk (toSizeT (toInt32 (p.bytesBefore a a.length)))
        ((List.range a.length).map (p.copyAt a))).Delivers
      (slice (finishedBytes body final) offsetBytes (p.bytesBefore a a.length)) := by
  have hcount : p.mTotalBufCount = body.length + 1 := by
    rw [htracks.count, LogWindow.latest, List.length_append, List.length_singleton]
  have hsize := htracks.getSize_latest
  have hC := C.lt
  have hl := hpads.left_lt
  have hr := hpads.right_lt
  have hfills := hpads.fills
  rw [ReadArgs.readEnd] at hend
  rw [← hpads.start_eq, ← streamBytes_append_final (s := s) now]
  refine delivers_of_slices hl.le (fun i hi => ?_) (fun i hi => ?_)
    (fun i hi => full_of_finished hgot hlast hcount hl (by omega) hi) hbytes
  · have hi' : a.offset + i < p.mTotalBufCount := by omega
    have hlog := hi'
    rw [htracks.count] at hlog
    refine ⟨_, ?_, (slice_streamBytes pushedChunk hlog).symm⟩
    rw [htracks.chunk (by omega) hheld hi', List.getElem?_eq_getElem hlog, Option.map_some]
  · have hskips := skips_le hl hr (by omega) hi
    rw [lastItemCopySize_finished hgot hlast hcount hskips]
    split <;> omega

/-- One read within the chunks of a finished stream. -/
lemma finished_delivers_iff {size offsetBytes : ℕ} (hpads : Pads size offsetBytes a)
    (htracks : p.Tracks pushedChunk (LogWindow.latest (body ++ [(⟨final, true, s⟩, now)]) C.val))
    (hgot : p.mGotLastBuffer = true) (hlast : p.mLastBufferSize = s) (hs : s ≤ bufferChunkSize)
    (hheld : p.mTotalBufCount ≤ a.offset + p.getSize) (hoff : a.offset ≤ body.length)
    (hend : a.readEnd ≤ body.length + 1) :
    (ReadResult.mk (toSizeT (toInt32 (p.bytesBefore a a.length)))
        ((List.range a.length).map (p.copyAt a))).Delivers
      (slice ((finishedBytes body final).take (finishedLength body.length s)) offsetBytes size)
      ↔ min size (finishedLength body.length s - offsetBytes) < 2 ^ 31 ∧
        (size = 0 ∨ offsetBytes + size ≤ finishedLength body.length s ∨
          (a.offset = 0 ∧ a.length = body.length + 1 ∧
            (0 < body.length ∨ offsetBytes = 0 ∨ s = 0))) := by
  have hcount : p.mTotalBufCount = body.length + 1 := by
    rw [htracks.count, LogWindow.latest, List.length_append, List.length_singleton]
  have hlength := @length_slice_finished body final s hs size offsetBytes
  have hlen : a.length ≤ body.length + 1 := by rw [ReadArgs.readEnd] at hend; omega
  have hbytes := bytesBefore_finished hpads hgot hlast hcount hlen
  have hexact := finishedCopied_eq_iff hpads hs hoff hend
  constructor
  · intro hdel
    have hcopied := count_of_delivers _ (fun i hi => ?_)
      (by rw [hlength, hbytes]; exact finishedCopied_close hpads hs hoff hend) hdel
    · rw [hlength, hbytes] at hcopied
      exact ⟨hcopied.2, hexact.mp hcopied.1⟩
    · have hfills := hpads.fills
      have hskips := skips_le hpads.left_lt hpads.right_lt (by omega) (List.mem_range.mp hi)
      rw [lastItemCopySize_finished hgot hlast hcount hskips]
      split <;> omega
  · rintro ⟨hlow, hfits⟩
    have hcopied := hbytes.trans (hexact.mpr hfits)
    have hdel := finished_delivers hpads htracks hgot hlast hheld (by omega) (by omega)
    rwa [slice_finished, ← hcopied]

/-- **The exact condition for reads of a finished stream.** For every stream of full chunks
and a final chunk, every offset whose chunk has not left the window and every size covering at
most `C` chunks, the read returns and delivers exactly what is left of the range if and only
if the request fits the truncation of the code. -/
theorem readsRest_iff (C : PoolCapacity) (body : List (PushArgs × ℕ)) (final : BufferChunk)
    (s now size offsetBytes : ℕ) (loop : LoopProgress) (hs : s ≤ bufferChunkSize)
    (hwindow : body.length + 1 - C.val ≤ offsetBytes / bufferChunkSize)
    (hcover : coveredChunks size offsetBytes ≤ C.val) :
    ReadsRest C body final s now size offsetBytes loop
      ↔ truncationFits body.length s size offsetBytes := by
  obtain ⟨htracks, hcap, hexit, hgot, hlast⟩ := @finishedPool_facts C body final s now
  have hpads := randomAccessArgs_pads size offsetBytes
    (lt_of_le_of_lt (Nat.mul_le_mul_right _ hcover) C.mul_lt)
  have hsize := htracks.getSize_latest
  have hcount : (finishedPool C body final s now).mTotalBufCount = body.length + 1 := by
    rw [htracks.count, LogWindow.latest, List.length_append, List.length_singleton]
  have hC := C.lt
  have hone := C.one_le
  rw [List.length_append, List.length_singleton] at hsize
  rw [readsRest_iff_delivers hs, truncationFits, readRandomAccess]
  simp only [← hpads.length_eq, ← hpads.offset_eq] at *
  set p := finishedPool C body final s now
  set a := randomAccessArgs size offsetBytes
  by_cases hpast : body.length + 1 ≤ a.offset
  · -- the end of the stream is reported
    have hrefuse : p.refuses a = some .endOfStream := by
      rw [refuses, if_neg (by simp [hexit]), if_pos ⟨hgot, by omega⟩]
    rw [read_of_refused loop hrefuse, slice_of_past hpads hs hpast]
    exact iff_of_true ReadResult.nothing_delivers (Or.inl hpast)
  have hnone : p.refuses a = none := refuses_eq_none hexit (fun _ => by omega) hpads.left_lt
    hpads.right_lt (by omega) (by omega) (by omega)
  have hready : ¬ p.mustWait a := by
    rintro ⟨-, hw⟩
    simp [hgot] at hw
  rw [read_of_admitted loop hnone hready, p.finishRead_of_pos a loop (by omega)]
  by_cases hend : a.readEnd ≤ body.length + 1
  · rw [finished_delivers_iff hpads htracks hgot hlast hs (by omega) (by omega) hend]
    exact ⟨Or.inr, fun h => h.resolve_left hpast⟩
  · -- the request goes past the last chunk
    refine iff_of_false (not_delivers_of_past (by omega) (by omega) (by omega) (by omega) _) ?_
    have hl := hpads.left_lt
    have hr := hpads.right_lt
    have hfills := hpads.fills
    have hstart := hpads.start_eq
    rw [ReadArgs.readEnd] at hend
    rw [finishedLength]
    rw [bufferChunkSize_eq] at *
    rintro (h | ⟨-, h | h | ⟨h1, h2, -⟩⟩) <;> omega

/-- A read of two chunks from the start of a stream of one chunk and `20` bytes. -/
theorem readsRest_from_start :
    ReadsRest (.ofNat 2) [(.filled 1, 0)] (.filled 2) 20 0 18048 0 ⟨0, false⟩ :=
  (readsRest_iff _ _ _ 20 0 18048 0 _ (by decide) (by decide) (by decide)).mpr
    (Or.inr (by decide +kernel))

/-- A read of `30` bytes from the chunk `1` of the same stream returns `30`, ten of them
padding. -/
theorem not_forall_readsRest :
    ¬ ∀ (C : PoolCapacity) (body : List (PushArgs × ℕ)) (final : BufferChunk)
        (s now size offsetBytes : ℕ) (loop : LoopProgress), s ≤ bufferChunkSize →
        body.length + 1 - C.val ≤ offsetBytes / bufferChunkSize →
        coveredChunks size offsetBytes ≤ C.val →
        ReadsRest C body final s now size offsetBytes loop := by
  intro h
  have hret := (h (.ofNat 2) [(.filled 1, 0)] (.filled 2) 20 0 30 9024 ⟨0, false⟩
    (by decide) (by decide) (by decide)).1
  revert hret
  decide +kernel

end BufferPool

end StreamFs
