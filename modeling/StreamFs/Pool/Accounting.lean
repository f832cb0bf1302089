import StreamFs.Pool.RandomAccess

/-!
The numbers `read` computes with: the sizes of its copies, the offsets it copies to, and the sum it
returns.

* `ReadRequest`, `serve`: a read in chunks or in bytes.
* `Resident`: the chunks of a read are in the ring.
* `ExactAccounting`: each copy starts behind the bytes copied so far, and their total is returned.
  `exactAccounting_iff`: it does so up to the largest value of the accumulator, an `int`.
* `PaddingsRespected`: the copies stay inside of their chunks and of the caller's buffer, and
  paddings that leave less than no bytes are refused. `paddingsRespected_iff`: the guards do not
  refuse two paddings that overlap in one chunk.
-/

namespace StreamFs

/-- The sizes of the copies made, in order. -/
def ReadResult.sizes (r : ReadResult) : List ℕ := r.copies.map Copy.size

/-- A call of `read` or of `readRandomAccess`. -/
inductive ReadRequest where
  | read (a : ReadArgs)
  | readRandomAccess (size offsetBytes : ℕ)

namespace BufferPool

/-- The arguments of the `read` that a request comes to. -/
def requestArgs : ReadRequest → ReadArgs
  | .read a => a
  | .readRandomAccess size offsetBytes => randomAccessArgs size offsetBytes

/-- A request. -/
def serve (p : BufferPool) (loop : LoopProgress) : ReadRequest → ReadResult × BufferPool
  | .read a => p.read a loop
  | .readRandomAccess size offsetBytes => p.readRandomAccess size offsetBytes loop

/-- The chunks of the read are in the ring. -/
structure Resident (p : BufferPool) (a : ReadArgs) : Prop where
  held : p.mTotalBufCount ≤ a.offset + p.getSize
  pushed : a.readEnd ≤ p.mTotalBufCount

/-- Each copy goes to the offset that is the number of bytes copied before it, the accumulator ends
as the number of all bytes copied, and this number is returned. -/
structure ExactAccounting (p : BufferPool) (a : ReadArgs) (r : ReadResult) : Prop where
  dst_eq : ∀ (i : ℕ) (c : Copy), r.copies[i]? = some c → c.dst = (r.sizes.take i).sum
  off_eq : (p.copyLoop a).off = r.sizes.sum
  ret_eq : r.ret = r.sizes.sum

/-- The bytes that the paddings leave of the chunks: the size of the caller's buffer. -/
def requestedBytes (a : ReadArgs) : ℕ :=
  a.length * bufferChunkSize - a.leftPadding - a.rightPadding

/-- The copy sizes are what the skips leave of a chunk, every copy stays inside of its chunk and of
the caller's buffer, and the copies fill the buffer. -/
structure StaysInside (p : BufferPool) (a : ReadArgs) (r : ReadResult) : Prop where
  noWrap : ∀ i < a.length,
    leftSkip a i + p.lastItemCopySize a i + rightSkip a i = bufferChunkSize
  inChunk : ∀ c ∈ r.copies, c.bytes.isSome
  inBuffer : ∀ c ∈ r.copies, 0 ≤ c.dst ∧ c.dst + c.size ≤ requestedBytes a
  total : r.sizes.sum = requestedBytes a

/-- A read stays inside, or is refused where the paddings leave less than no bytes. -/
def PaddingsRespected (p : BufferPool) (a : ReadArgs) (r : ReadResult) : Prop :=
  if a.length * bufferChunkSize < a.leftPadding + a.rightPadding then r = .nothing
  else StaysInside p a r

variable {p : BufferPool} {a : ReadArgs}

/-! ### The copy loop -/

/-- An admitted read of resident chunks is its copy block. -/
lemma read_of_resident (loop : LoopProgress) (hadmitted : p.refuses a = none)
    (hresident : p.Resident a) : p.read a loop = p.finishRead a loop :=
  read_of_admitted loop hadmitted fun hwait => absurd hwait.1 (not_lt.mpr hresident.pushed)

/-- The ring is not empty where a chunk is resident. -/
lemma Resident.getSize_pos (hresident : p.Resident a) (hlen : 0 < a.length) : 0 < p.getSize := by
  have hheld := hresident.held
  have hpushed := hresident.pushed
  rw [ReadArgs.readEnd] at hpushed
  omega

/-- The sizes of the first copies of the loop add up to the bytes copied. -/
lemma sum_sizes (n : ℕ) : (((List.range n).map (p.copyAt a)).map Copy.size).sum
    = p.bytesBefore a n := by
  induction n with
  | zero => rfl
  | succ n ih =>
      rw [List.range_succ, List.map_append, List.map_append, List.sum_append, ih, bytesBefore_succ]
      simp [copyAt]

/-- The size of one copy. -/
lemma lastItemCopySize_le (hlive : p.mGotLastBuffer = false) {i : ℕ}
    (hskips : leftSkip a i + rightSkip a i ≤ bufferChunkSize) :
    p.lastItemCopySize a i ≤ bufferChunkSize := by
  rw [lastItemCopySize_live hlive hskips]
  omega

/-- Paddings that overlap in one chunk make the copy size wrap around. -/
lemma bytesBefore_of_overlap (hlive : p.mGotLastBuffer = false)
    (hl : a.leftPadding < bufferChunkSize) (hr : a.rightPadding < bufferChunkSize)
    (hlen : 0 < a.length)
    (hoverlap : a.length * bufferChunkSize < a.leftPadding + a.rightPadding) :
    a.length = 1 ∧ 2 ^ 31 ≤ p.bytesBefore a a.length := by
  have hone : a.length = 1 := by
    by_contra hne
    have htwo : 2 * bufferChunkSize ≤ a.length * bufferChunkSize :=
      Nat.mul_le_mul_right _ (by omega)
    omega
  refine ⟨hone, ?_⟩
  rw [hone, Nat.one_mul] at hoverlap
  have hleft : leftSkip a 0 = a.leftPadding := if_pos rfl
  have hright : rightSkip a 0 = a.rightPadding := by
    rw [rightSkip, hone, subU64_of_le le_rfl, if_pos (Nat.sub_self 1).symm]
  have hsize : p.lastItemCopySize a 0
      = subU64 (subU64 bufferChunkSize a.leftPadding) a.rightPadding := by
    simp only [lastItemCopySize, hlive, hleft, hright, Bool.false_eq_true, false_and, if_false]
  have hwrap : subU64 (subU64 bufferChunkSize a.leftPadding) a.rightPadding
      = bufferChunkSize - a.leftPadding + 2 ^ 64 - a.rightPadding := by
    rw [subU64_of_le hl.le, subU64_of_lt (by omega)]
  rw [hone, bytesBefore_succ, hsize, hwrap]
  rw [bufferChunkSize_eq] at hr ⊢
  omega

/-! ### Byte accounting -/

/-- A loop accounts exactly for its copies iff an `int` holds the number of bytes copied. -/
lemma exactAccounting_loop_iff : ExactAccounting p a
      ⟨toSizeT (toInt32 (p.bytesBefore a a.length)), (List.range a.length).map (p.copyAt a)⟩
    ↔ p.bytesBefore a a.length < 2 ^ 31 := by
  have htotal : (((List.range a.length).map (p.copyAt a)).map Copy.size).sum
      = p.bytesBefore a a.length := sum_sizes a.length
  constructor
  · intro h
    have hoff := h.off_eq
    rw [copyLoop_eq] at hoff
    dsimp only [ReadResult.sizes] at hoff
    rw [htotal, offAt_eq] at hoff
    exact toInt32_eq_natCast_iff.mp hoff
  · intro hlt
    refine ⟨fun i c hc => ?_, ?_, ?_⟩
    · rw [List.getElem?_map, Option.map_eq_some_iff] at hc
      obtain ⟨j, hj, rfl⟩ := hc
      obtain ⟨hi, hij⟩ := List.getElem?_eq_some_iff.mp hj
      rw [List.length_range] at hi
      rw [List.getElem_range] at hij
      subst hij
      have hmono := p.bytesBefore_mono a hi.le
      dsimp only [ReadResult.sizes, copyAt]
      rw [← List.map_take, ← List.map_take, List.take_range, Nat.min_eq_left hi.le, sum_sizes,
        offAt_eq, toInt32_of_lt (by omega)]
    · rw [copyLoop_eq]
      dsimp only [ReadResult.sizes]
      rw [htotal, offAt_eq, toInt32_of_lt hlt]
    · dsimp only [ReadResult.sizes]
      rw [htotal, toSizeT_toInt32_of_lt hlt]

/-- The requests whose bytes an `int` can count. -/
def CountsInInt (a : ReadArgs) : Prop :=
  a.length = 0 ∨ (a.leftPadding + a.rightPadding ≤ a.length * bufferChunkSize
    ∧ a.length * bufferChunkSize < 2 ^ 31 + a.leftPadding + a.rightPadding)

/-- A read of resident chunks of a live stream accounts exactly for its bytes iff an `int` can count
them. -/
lemma exactAccounting_read_iff (loop : LoopProgress) (hadmitted : p.refuses a = none)
    (hlive : p.mGotLastBuffer = false) (hresident : p.Resident a) :
    ExactAccounting p a (p.read a loop).1 ↔ CountsInInt a := by
  obtain ⟨-, hl, hr, -⟩ := of_refuses_eq_none hadmitted
  rw [read_of_resident loop hadmitted hresident]
  rcases Nat.eq_zero_or_pos a.length with h0 | hlen
  · refine iff_of_true ?_ (Or.inl h0)
    have hloop : (p.copyLoop a).off = 0 := by rw [copyLoop_eq, h0]; rfl
    have hnothing : (p.finishRead a loop).1 = .nothing := by
      rw [finishRead]
      split_ifs
      · rfl
      · rw [copyLoop_eq, h0]
        rfl
    rw [hnothing]
    exact ⟨fun i c hc => by simp [ReadResult.nothing] at hc, hloop, rfl⟩
  · rw [p.finishRead_of_pos a loop (hresident.getSize_pos hlen), exactAccounting_loop_iff,
      CountsInInt]
    by_cases hfit : a.leftPadding + a.rightPadding ≤ a.length * bufferChunkSize
    · rw [bytesBefore_live hlive hl hr hfit]
      omega
    · obtain ⟨-, hwrap⟩ := bytesBefore_of_overlap hlive hl hr hlen (by omega)
      omega

/-- **Byte accounting is exact** for the reads of a live stream, in chunks or in bytes, whose bytes
an `int` can count, and for no others. -/
theorem exactAccounting_iff (p : BufferPool) (q : ReadRequest) (loop : LoopProgress)
    (hadmitted : p.refuses (requestArgs q) = none) (hlive : p.mGotLastBuffer = false)
    (hresident : p.Resident (requestArgs q)) :
    ExactAccounting p (requestArgs q) (p.serve loop q).1 ↔ CountsInInt (requestArgs q) := by
  cases q with
  | read a => exact exactAccounting_read_iff loop hadmitted hlive hresident
  | readRandomAccess size offsetBytes =>
      exact exactAccounting_read_iff loop hadmitted hlive hresident

theorem exactAccounting_pads :
    let p := (create (.ofNat 2)).pushAll [(.filled 1, 0), (.filled 2, 0)]
    ExactAccounting p (requestArgs (.readRandomAccess 20 9014))
      (p.serve ⟨0, false⟩ (.readRandomAccess 20 9014)).1 :=
  (exactAccounting_iff _ (.readRandomAccess 20 9014) ⟨0, false⟩ (by decide +kernel) rfl
    ⟨by decide +kernel, by decide +kernel⟩).mpr (Or.inr (by decide +kernel))

/-- A pool of capacity `C` filled by its first pushes admits a read of all of it. -/
lemma filled_admits (C : PoolCapacity) :
    let p := (create C).pushAll (List.replicate C.val (.filled 0, 0))
    p.refuses ⟨C.val, 0, 0, 0⟩ = none ∧ p.mGotLastBuffer = false
      ∧ p.Resident ⟨C.val, 0, 0, 0⟩ := by
  obtain ⟨htracks, hcap, hexit, -⟩ :=
    pushAll_tracks C (List.replicate C.val (PushArgs.filled 0, 0))
  have hone := C.one_le
  have hcount := htracks.count
  have hsize := htracks.getSize_latest
  have hlive : ((create C).pushAll (List.replicate C.val (.filled 0, 0))).mGotLastBuffer = false :=
    pushAll_live C fun b hb => by rw [List.eq_of_mem_replicate hb]; rfl
  rw [LogWindow.latest, List.length_replicate] at hcount
  rw [List.length_replicate] at hsize
  dsimp only
  have hpos : 0 < bufferChunkSize := by decide
  refine ⟨refuses_eq_none hexit (by simp [hlive]) hpos hpos (Nat.zero_le _)
    (by omega) hcap.ge, hlive, ?_, ?_⟩ <;> simp only [ReadArgs.readEnd] <;> omega

/-- A read of `237975` chunks is one of more than `2^31` bytes. -/
theorem not_forall_exactAccounting :
    ¬ ∀ (p : BufferPool) (q : ReadRequest) (loop : LoopProgress),
        p.refuses (requestArgs q) = none → p.mGotLastBuffer = false → p.Resident (requestArgs q) →
          ExactAccounting p (requestArgs q) (p.serve loop q).1 := by
  intro h
  obtain ⟨hadmitted, hlive, hresident⟩ := filled_admits (.ofNat 237975)
  have hexact := h _ (.read ⟨237975, 0, 0, 0⟩) ⟨0, false⟩ hadmitted hlive hresident
  have hshort := (exactAccounting_read_iff ⟨0, false⟩ hadmitted hlive hresident).mp hexact
  rcases hshort with h0 | ⟨-, hlt⟩
  · exact absurd h0 (by decide)
  · exact absurd hlt (by decide)

/-! ### Paddings -/

/-- The bytes copied before the last chunk. -/
lemma bytesBefore_last (hlive : p.mGotLastBuffer = false) (hl : a.leftPadding < bufferChunkSize)
    (hlen : 0 < a.length) :
    a.leftPadding + p.bytesBefore a (a.length - 1)
      = (a.length - 1) * bufferChunkSize + leftSkip a (a.length - 1) := by
  have hfull := bytesBefore_of_full (p := p) (i := a.length - 1) hl.le
    fun j hj => full_of_live hlive hl (by omega)
  rw [Nat.add_mul] at hfull
  omega

/-- A loop of copies that fit in their chunks leaves the caller's buffer iff the bytes before one of
the copies are more than an `int` counts. -/
lemma inBuffer_iff (hlen : 0 < a.length)
    (hsize : ∀ i < a.length, p.lastItemCopySize a i ≤ bufferChunkSize) :
    (∀ i < a.length, 0 ≤ p.offAt a i
        ∧ p.offAt a i + p.lastItemCopySize a i ≤ p.bytesBefore a a.length)
      ↔ p.bytesBefore a (a.length - 1) < 2 ^ 31 := by
  constructor
  · intro h
    have hstep : ∀ i < a.length, p.bytesBefore a i < 2 ^ 31 := by
      intro i
      induction i with
      | zero => intro _; simp [bytesBefore]
      | succ i ih =>
          intro hi
          -- the first offset that an `int` does not hold is stored as a negative one
          have hprev := ih (by omega)
          have hcopy := hsize i (by omega)
          have hnonneg := (h (i + 1) hi).1
          rw [offAt_eq, bytesBefore_succ, toInt32, Int.bmod_def] at hnonneg
          rw [bufferChunkSize_eq] at hcopy
          rw [bytesBefore_succ]
          split at hnonneg <;> omega
    exact hstep (a.length - 1) (by omega)
  · intro hlast i hi
    have hmono := p.bytesBefore_mono a (show i ≤ a.length - 1 by omega)
    have hend := p.bytesBefore_mono a (show i + 1 ≤ a.length by omega)
    rw [bytesBefore_succ] at hend
    rw [offAt_eq, toInt32_of_lt (by omega)]
    omega

/-- A copy of a resident chunk finds its bytes. -/
lemma bytes_copyAt (hcap : p.getCapacity ≤ maxCapacity) (hlive : p.mGotLastBuffer = false)
    (hresident : p.Resident a) {i : ℕ} (hi : i < a.length)
    (hskips : leftSkip a i + rightSkip a i ≤ bufferChunkSize) : (p.copyAt a i).bytes.isSome := by
  have hheld := hresident.held
  have hpushed := hresident.pushed
  have hsize : p.getSize ≤ p.getCapacity := p.mCircBuf.size_le
  have hmax : maxCapacity < 2 ^ 64 := by decide
  rw [ReadArgs.readEnd] at hpushed
  have hpos := p.startPos_of_held a (by omega) hheld (show a.offset + i < p.mTotalBufCount by omega)
  have hlt : p.startPos a i < p.mCircBuf.items.length := by
    rw [hpos]
    show _ < p.getSize
    omega
  have hcopy := lastItemCopySize_live hlive hskips
  rw [p.copyAt_bytes a (List.getElem?_eq_getElem hlt) (by omega)]
  rfl

/-- A loop with paddings that fit stays inside iff the bytes before its last copy are less than
`2^31`. -/
lemma staysInside_loop_iff (hcap : p.getCapacity ≤ maxCapacity) (hlive : p.mGotLastBuffer = false)
    (hresident : p.Resident a) (hlen : 0 < a.length) (hl : a.leftPadding < bufferChunkSize)
    (hr : a.rightPadding < bufferChunkSize)
    (hfit : a.leftPadding + a.rightPadding ≤ a.length * bufferChunkSize) (ret : ℕ) :
    StaysInside p a ⟨ret, (List.range a.length).map (p.copyAt a)⟩
      ↔ p.bytesBefore a (a.length - 1) < 2 ^ 31 := by
  have hskips : ∀ i < a.length, leftSkip a i + rightSkip a i ≤ bufferChunkSize :=
    fun i hi => skips_le hl hr hfit hi
  have htotal : p.bytesBefore a a.length = requestedBytes a := bytesBefore_live hlive hl hr hfit
  rw [← inBuffer_iff hlen fun i hi => lastItemCopySize_le hlive (hskips i hi), htotal]
  constructor
  · intro h i hi
    exact h.inBuffer (p.copyAt a i) (List.mem_map_of_mem (List.mem_range.mpr hi))
  · intro h
    refine ⟨fun i hi => ?_, fun c hc => ?_, fun c hc => ?_, ?_⟩
    · have hcopy := lastItemCopySize_live hlive (hskips i hi)
      have hfits := hskips i hi
      omega
    · obtain ⟨i, hi, rfl⟩ := List.mem_map.mp hc
      rw [List.mem_range] at hi
      exact bytes_copyAt hcap hlive hresident hi (hskips i hi)
    · obtain ⟨i, hi, rfl⟩ := List.mem_map.mp hc
      exact h i (List.mem_range.mp hi)
    · rw [← htotal]
      exact sum_sizes a.length

/-- The paddings fit in the chunks asked for, and an `int` counts the bytes before the last one. -/
def PaddingsFit (a : ReadArgs) : Prop :=
  a.leftPadding + a.rightPadding ≤ a.length * bufferChunkSize
    ∧ (a.length - 1) * bufferChunkSize < 2 ^ 31 + a.leftPadding

/-- The copies of overlapping paddings are made. -/
lemma not_paddingsRespected_of_overlap (loop : LoopProgress) (hresident : p.Resident a)
    (hlen : 0 < a.length) (hadmitted : p.refuses a = none)
    (hover : a.length * bufferChunkSize < a.leftPadding + a.rightPadding) :
    ¬ PaddingsRespected p a (p.read a loop).1 := by
  rw [read_of_resident loop hadmitted hresident,
    p.finishRead_of_pos a loop (hresident.getSize_pos hlen), PaddingsRespected, if_pos hover]
  intro h
  have hcopies := congrArg (fun r => r.copies.length) h
  dsimp only [ReadResult.nothing] at hcopies
  rw [List.length_map, List.length_range, List.length_nil] at hcopies
  omega

/-- The bytes before the last copy, in terms of the paddings. -/
lemma bytesBefore_last_lt_iff (hlive : p.mGotLastBuffer = false)
    (hl : a.leftPadding < bufferChunkSize) (hlen : 0 < a.length) :
    p.bytesBefore a (a.length - 1) < 2 ^ 31
      ↔ (a.length - 1) * bufferChunkSize < 2 ^ 31 + a.leftPadding := by
  have hlast := bytesBefore_last hlive hl hlen
  rcases Nat.eq_or_lt_of_le hlen with hone | htwo
  · rw [← hone]
    simp [bytesBefore]
  · have hskip : leftSkip a (a.length - 1) = 0 := if_neg (by omega)
    omega

/-- **The paddings of a read are respected** where they fit in the chunks asked for and an `int`
counts the bytes before the last copy, and nowhere else. -/
theorem paddingsRespected_iff (p : BufferPool) (a : ReadArgs) (loop : LoopProgress)
    (hcap : p.getCapacity ≤ maxCapacity) (hlive : p.mGotLastBuffer = false)
    (hresident : p.Resident a) (hlen : 1 ≤ a.length) (hadmitted : p.refuses a = none) :
    PaddingsRespected p a (p.read a loop).1 ↔ PaddingsFit a := by
  obtain ⟨-, hl, hr, -⟩ := of_refuses_eq_none hadmitted
  by_cases hover : a.length * bufferChunkSize < a.leftPadding + a.rightPadding
  · refine iff_of_false (not_paddingsRespected_of_overlap loop hresident hlen hadmitted hover) ?_
    exact fun h => absurd h.1 (not_le.mpr hover)
  · rw [read_of_resident loop hadmitted hresident,
      p.finishRead_of_pos a loop (hresident.getSize_pos hlen), PaddingsRespected, if_neg hover,
      staysInside_loop_iff hcap hlive hresident hlen hl hr (not_lt.mp hover),
      bytesBefore_last_lt_iff hlive hl hlen]
    exact ⟨fun h => ⟨not_lt.mp hover, h⟩, fun h => h.2⟩

theorem paddingsRespected_twoChunks :
    let p := (create (.ofNat 2)).pushAll [(.filled 1, 0), (.filled 2, 0)]
    PaddingsRespected p ⟨2, 0, 9000, 9010⟩ (p.read ⟨2, 0, 9000, 9010⟩ ⟨0, false⟩).1 :=
  (paddingsRespected_iff _ _ ⟨0, false⟩ (by decide +kernel) rfl
    ⟨by decide +kernel, by decide +kernel⟩ (by decide) (by decide +kernel)).mpr
      ⟨by decide +kernel, by decide +kernel⟩

/-- Two paddings of `5000` bytes overlap in a chunk of `9024`, and the guards admit them. -/
theorem not_forall_paddingsRespected :
    ¬ ∀ (p : BufferPool) (a : ReadArgs) (loop : LoopProgress), p.getCapacity ≤ maxCapacity →
        p.mGotLastBuffer = false → p.Resident a → 1 ≤ a.length → p.refuses a = none →
          PaddingsRespected p a (p.read a loop).1 := by
  intro h
  let p := (create (.ofNat 1)).pushAll [(.filled 1, 0)]
  have hadmitted : p.refuses ⟨1, 0, 5000, 5000⟩ = none := by decide +kernel
  have hresident : p.Resident ⟨1, 0, 5000, 5000⟩ := ⟨by decide +kernel, by decide +kernel⟩
  have hcap : p.getCapacity ≤ maxCapacity := by decide +kernel
  exact not_paddingsRespected_of_overlap ⟨0, false⟩ hresident (by decide) hadmitted (by decide)
    (h p ⟨1, 0, 5000, 5000⟩ ⟨0, false⟩ hcap rfl hresident le_rfl hadmitted)

end BufferPool

end StreamFs
