import StreamFs.Pool.Stream

/-!
`BufferPool::readRandomAccess`: reads addressed in bytes.

* `randomAccessArgs_pads`: the chunk arguments are the chunk and the position of the first byte,
  the number of chunks the byte range meets, and what is left of the last of them.
* `read_of_admitted`: a read that the guards admit and that need not wait is its copy block.
* `readRandomAccess_faithful`: on a live stream, a read of bytes whose chunks are all in the
  window delivers these bytes.
-/

namespace StreamFs

namespace BufferPool

/-! ### The arguments -/

/-- The number of chunks the byte range meets, read off its padding to whole chunks. -/
def coveredChunks (size offsetBytes : ℕ) : ℕ :=
  (offsetBytes % bufferChunkSize + size + (bufferChunkSize - 1)) / bufferChunkSize

/-- The byte range of `size` bytes from `offsetBytes` on has a byte in the chunk `k`. -/
def MeetsChunk (size offsetBytes k : ℕ) : Prop :=
  ∃ j < size, (offsetBytes + j) / bufferChunkSize = k

/-- What the chunk arguments of a byte range say about it: where it starts, and that with its
paddings it fills whole chunks. -/
structure Pads (size offsetBytes : ℕ) (a : ReadArgs) : Prop where
  length_eq : a.length = coveredChunks size offsetBytes
  offset_eq : a.offset = offsetBytes / bufferChunkSize
  left_lt : a.leftPadding < bufferChunkSize
  right_lt : a.rightPadding < bufferChunkSize
  start_eq : a.offset * bufferChunkSize + a.leftPadding = offsetBytes
  fills : a.leftPadding + size + a.rightPadding = a.length * bufferChunkSize

/-- The byte range and less than a chunk more fill the chunks covered. -/
lemma coveredChunks_le (size offsetBytes : ℕ) :
    coveredChunks size offsetBytes * bufferChunkSize < size + 2 * bufferChunkSize := by
  rw [coveredChunks, bufferChunkSize_eq]
  omega

/-- The chunk arguments of a byte range, where its padding does not wrap around. -/
lemma randomAccessArgs_pads (size offsetBytes : ℕ)
    (h : coveredChunks size offsetBytes * bufferChunkSize < 2 ^ 64) :
    Pads size offsetBytes (randomAccessArgs size offsetBytes) := by
  have hq : coveredChunks size offsetBytes
      = (offsetBytes % bufferChunkSize + size + (bufferChunkSize - 1)) / bufferChunkSize := rfl
  rw [bufferChunkSize_eq] at h hq
  have hsum : addU64 (offsetBytes % 9024) size = offsetBytes % 9024 + size :=
    addU64_of_lt (by omega)
  have hright : subU64 9024 ((offsetBytes % 9024 + size) % 9024) % 9024
      = coveredChunks size offsetBytes * 9024 - (offsetBytes % 9024 + size) := by
    rw [subU64_of_le (by omega)]
    omega
  have hfill : addU64 (addU64 (offsetBytes % 9024)
      (coveredChunks size offsetBytes * 9024 - (offsetBytes % 9024 + size))) size
        = coveredChunks size offsetBytes * 9024 := by
    rw [addU64_of_lt (by omega : offsetBytes % 9024 + _ < 2 ^ 64), addU64_of_lt (by omega)]
    omega
  constructor <;> simp only [randomAccessArgs, bufferChunkSize_eq, hsum, hright, hfill] <;> omega

/-- The chunks a nonempty byte range meets: the first one, and the one before its end. -/
lemma meetsChunk_ends {size : ℕ} (offsetBytes : ℕ) (h : 0 < size) :
    MeetsChunk size offsetBytes (offsetBytes / bufferChunkSize)
      ∧ MeetsChunk size offsetBytes
          (offsetBytes / bufferChunkSize + coveredChunks size offsetBytes - 1) := by
  refine ⟨⟨0, h, rfl⟩, size - 1, by omega, ?_⟩
  rw [coveredChunks, bufferChunkSize_eq]
  omega

/-! ### Admitted reads -/

variable {p : BufferPool} {a : ReadArgs}

/-- The guards admit a read with proper paddings inside the window. -/
lemma refuses_eq_none (hexit : p.exitPending = false)
    (hend : p.mGotLastBuffer = true → a.offset < p.mTotalBufCount)
    (hl : a.leftPadding < bufferChunkSize) (hr : a.rightPadding < bufferChunkSize)
    (hoff : a.offset ≤ p.mTotalBufCount) (hwin : p.mTotalBufCount ≤ a.offset + p.getCapacity)
    (hlen : a.length ≤ p.getCapacity) : p.refuses a = none := by
  have h1 : ¬ (p.mGotLastBuffer = true ∧ p.mTotalBufCount ≤ a.offset) := by
    rintro ⟨hgot, hle⟩
    have := hend hgot
    omega
  have h2 : ¬ (bufferChunkSize ≤ a.leftPadding ∨ bufferChunkSize ≤ a.rightPadding ∨
      subU64 (subU64 a.length a.leftPadding) a.rightPadding < 0) := by omega
  have h3 : ¬ (p.getCapacity < subU64 p.mTotalBufCount a.offset ∨ p.mTotalBufCount < a.offset ∨
      p.getCapacity < a.length) := by
    rw [subU64_of_le hoff]
    omega
  rw [refuses, if_neg (by simp [hexit]), if_neg h1, if_neg h2, if_neg h3]

/-- What the guards leave through. -/
lemma of_refuses_eq_none (h : p.refuses a = none) :
    (p.mGotLastBuffer = true → a.offset < p.mTotalBufCount)
      ∧ a.leftPadding < bufferChunkSize ∧ a.rightPadding < bufferChunkSize
      ∧ a.offset ≤ p.mTotalBufCount ∧ p.mTotalBufCount ≤ a.offset + p.getCapacity
      ∧ a.length ≤ p.getCapacity := by
  rw [refuses] at h
  split_ifs at h with h0 h1 h2 h3
  have hoff : a.offset ≤ p.mTotalBufCount := by omega
  rw [subU64_of_le hoff] at h3
  refine ⟨fun hgot => ?_, by omega, by omega, hoff, by omega, by omega⟩
  by_contra hle
  exact h1 ⟨hgot, by omega⟩

/-- A read that is refused gives nothing and changes nothing. -/
lemma read_of_refused (loop : LoopProgress) {r : Refusal} (h : p.refuses a = some r) :
    p.read a loop = (.nothing, p) := by
  rw [read, if_pos (by simp [h])]

/-- An admitted read that need not wait is its copy block. -/
lemma read_of_admitted (loop : LoopProgress) (h : p.refuses a = none) (hwait : ¬ p.mustWait a) :
    p.read a loop = p.finishRead a loop := by
  rw [read, if_neg (by simp [h]), if_neg hwait]

/-- An admitted read that has to wait, with nobody at work to end the wait. -/
lemma read_of_timeout (loop : LoopProgress) (h : p.refuses a = none) (hwait : p.mustWait a)
    (habort : p.mAborting = false) : p.read a loop = (.nothing, p) := by
  have hready : ¬ p.readReady a := by
    rintro (hr | hr | hr)
    · exact absurd hwait.1 (by omega)
    · simp [hwait.2] at hr
    · simp [habort] at hr
  rw [read, if_neg (by simp [h]), if_pos hwait, if_neg hready]

/-! ### A live stream -/

/-- A stream no push of which was a last one is live. -/
lemma pushAll_live (C : PoolCapacity) {bs : List (PushArgs × ℕ)}
    (h : ∀ b ∈ bs, b.1.lastBuffer = false) :
    ((create C).pushAll bs).mGotLastBuffer = false := by
  induction bs using List.reverseRecOn with
  | nil => rfl
  | append_singleton bs b ih =>
      have hb := h b (by simp)
      have hbs := ih fun c hc => h c (by simp [hc])
      rw [pushAll, List.foldl_append, List.foldl_cons, List.foldl_nil, ← pushAll, pushBuffer]
      split
      · exact hbs
      · simp [hb, hbs]

/-- An admitted byte read of a live stream that need not wait delivers its bytes. -/
lemma readRandomAccess_of_admitted {C : PoolCapacity} {pushes : List (PushArgs × ℕ)}
    (hlive : ∀ b ∈ pushes, b.1.lastBuffer = false) {size offsetBytes : ℕ} (hsize : size < 2 ^ 31)
    (ha : ((create C).pushAll pushes).refuses (randomAccessArgs size offsetBytes) = none)
    (hwait : ¬ ((create C).pushAll pushes).mustWait (randomAccessArgs size offsetBytes))
    (loop : LoopProgress) :
    (((create C).pushAll pushes).readRandomAccess size offsetBytes loop).1.Delivers
      (slice (streamBytes pushedChunk pushes) offsetBytes size) := by
  obtain ⟨htracks, hcap, -, -⟩ := pushAll_tracks C pushes
  have hgot := pushAll_live C hlive
  have hpads := randomAccessArgs_pads size offsetBytes
    (by have := coveredChunks_le size offsetBytes; rw [bufferChunkSize_eq] at *; omega)
  rw [readRandomAccess, read_of_admitted loop ha hwait]
  set p := (create C).pushAll pushes
  set a := randomAccessArgs size offsetBytes
  have hheld := htracks.getSize_latest
  have hT : p.mTotalBufCount = pushes.length := htracks.count
  have hC := C.lt
  have hone := C.one_le
  have hfills := hpads.fills
  obtain ⟨-, -, -, hoff, hwin, hlen⟩ := of_refuses_eq_none ha
  have hend : a.readEnd ≤ p.mTotalBufCount := by
    by_contra hcon
    exact hwait ⟨by omega, hgot⟩
  rcases Nat.eq_zero_or_pos p.getSize with h0 | hpos
  · -- nothing was pushed, so the request is empty
    have hzero : a.length = 0 := by rw [ReadArgs.readEnd] at hend; omega
    have hnil : size = 0 := by rw [hzero] at hfills; omega
    rw [p.finishRead_of_empty a loop h0, hnil, slice_zero]
    exact ReadResult.nothing_delivers
  · have hbytes : a.length * bufferChunkSize - a.leftPadding - a.rightPadding = size := by omega
    have h := htracks.finishRead_delivers (a := a) (by omega) hpos hgot hpads.left_lt
      hpads.right_lt (by omega) (by omega) hend (by omega) loop
    rwa [hpads.start_eq, hbytes] at h

/-- A read of no bytes delivers none, whether it is admitted, refused or left waiting. -/
lemma readRandomAccess_of_zero {C : PoolCapacity} {pushes : List (PushArgs × ℕ)}
    (hlive : ∀ b ∈ pushes, b.1.lastBuffer = false) (offsetBytes : ℕ) (loop : LoopProgress) :
    (((create C).pushAll pushes).readRandomAccess 0 offsetBytes loop).1.Delivers
      (slice (streamBytes pushedChunk pushes) offsetBytes 0) := by
  obtain ⟨-, -, -, habort⟩ := pushAll_tracks C pushes
  have hadmit := @readRandomAccess_of_admitted C _ hlive 0 offsetBytes (by norm_num)
  set p := (create C).pushAll pushes
  cases hr : p.refuses (randomAccessArgs 0 offsetBytes) with
  | some r =>
      rw [readRandomAccess, read_of_refused loop hr, slice_zero]
      exact ReadResult.nothing_delivers
  | none =>
      by_cases hw : p.mustWait (randomAccessArgs 0 offsetBytes)
      · rw [readRandomAccess, read_of_timeout loop hr hw habort, slice_zero]
        exact ReadResult.nothing_delivers
      · exact hadmit hr hw loop

/-- A read of bytes whose chunks all lie in the window is admitted, and does not wait. -/
lemma admitted_of_window {C : PoolCapacity} {pushes : List (PushArgs × ℕ)} {size offsetBytes : ℕ}
    {a : ReadArgs} (hpads : Pads size offsetBytes a) (hpos : 0 < size)
    (hwindow : ∀ k, MeetsChunk size offsetBytes k →
      pushes.length - C.val ≤ k ∧ k < pushes.length) :
    ((create C).pushAll pushes).refuses a = none ∧ ¬ ((create C).pushAll pushes).mustWait a
      ∧ offsetBytes + size ≤ pushes.length * bufferChunkSize := by
  obtain ⟨htracks, hcap, hexit, -⟩ := pushAll_tracks C pushes
  have hT : ((create C).pushAll pushes).mTotalBufCount = pushes.length := htracks.count
  obtain ⟨hfirst, hlast⟩ := meetsChunk_ends offsetBytes hpos
  rw [← hpads.offset_eq] at hfirst hlast
  rw [← hpads.length_eq] at hlast
  have h1 := hwindow _ hfirst
  have h2 := hwindow _ hlast
  have hfills := hpads.fills
  have hlen : 0 < a.length := by
    by_contra h0
    rw [show a.length = 0 by omega] at hfills
    omega
  refine ⟨refuses_eq_none hexit (fun _ => by omega) hpads.left_lt hpads.right_lt (by omega)
    (by omega) (by omega), ?_, ?_⟩
  · rintro ⟨hw, -⟩
    rw [ReadArgs.readEnd] at hw
    omega
  · have hmul : (a.offset + a.length) * bufferChunkSize ≤ pushes.length * bufferChunkSize :=
      Nat.mul_le_mul_right _ (by omega)
    have hstart := hpads.start_eq
    rw [Nat.add_mul] at hmul
    omega

/-- **Random-access reads are faithful to the pushed bytes.** After any pushes on a fresh
pool, none of them a last one, a read of less than `2^31` bytes whose chunks all lie in the
window returns `size` and delivers exactly the bytes from `offsetBytes` on. The chunks of a
window are at most `C` many, so no bound on their number is needed. -/
theorem readRandomAccess_faithful (C : PoolCapacity) (pushes : List (PushArgs × ℕ))
    (hlive : ∀ b ∈ pushes, b.1.lastBuffer = false) (size offsetBytes : ℕ) (hsize : size < 2 ^ 31)
    (hwindow : ∀ k, MeetsChunk size offsetBytes k →
      ((create C).pushAll pushes).getTotalBufferCount - C.val ≤ k
        ∧ k < ((create C).pushAll pushes).getTotalBufferCount)
    (loop : LoopProgress) :
    (((create C).pushAll pushes).readRandomAccess size offsetBytes loop).1.ret = size
      ∧ (((create C).pushAll pushes).readRandomAccess size offsetBytes loop).1.Delivers
          (slice (streamBytes pushedChunk pushes) offsetBytes size) := by
  rw [getTotalBufferCount, (pushAll_tracks C pushes).1.count] at hwindow
  rcases Nat.eq_zero_or_pos size with rfl | hpos
  · have hdel := @readRandomAccess_of_zero C _ hlive offsetBytes loop
    exact ⟨by rw [hdel.ret_eq, slice_zero, List.length_nil], hdel⟩
  · have hpads := randomAccessArgs_pads size offsetBytes
      (by have := coveredChunks_le size offsetBytes; rw [bufferChunkSize_eq] at *; omega)
    obtain ⟨hnone, hready, hfill⟩ := admitted_of_window hpads hpos hwindow
    have hdel := readRandomAccess_of_admitted hlive hsize hnone hready loop
    refine ⟨?_, hdel⟩
    rw [hdel.ret_eq, length_slice_of_le (by rw [length_streamBytes]; exact hfill)]

/-- A read across two chunks of a pool that has wrapped. -/
theorem readRandomAccess_faithful_wrapped :
    let pushes : List (PushArgs × ℕ) := [(.filled 1, 0), (.filled 2, 0), (.filled 3, 0)]
    let r := ((create (.ofNat 2)).pushAll pushes).readRandomAccess 10 18044 ⟨0, false⟩
    r.1.ret = 10 ∧ r.1.Delivers (slice (streamBytes pushedChunk pushes) 18044 10) := by
  refine readRandomAccess_faithful _ _ (by simp [PushArgs.filled]) 10 18044 (by norm_num) ?_ _
  rintro k ⟨j, hj, rfl⟩
  rw [bufferChunkSize_eq]
  show 3 - 2 ≤ (18044 + j) / 9024 ∧ (18044 + j) / 9024 < 3
  omega

end BufferPool

end StreamFs
