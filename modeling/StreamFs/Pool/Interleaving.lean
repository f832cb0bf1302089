import StreamFs.Pool.Session

/-!
The copy loop under any interleaving with the producer.

* `ReadsRight`, `StartsHeld`: what a read of a live stream delivers, and the condition under
  which it delivers the chunks asked for. The guards look at the window under `m_mutex` and
  the copy loop at the ring under `m_w_mutex`; a push in between moves the one under the
  other. `readsRight_iff`: a run reads right throughout iff at every copy on a live stream
  the first chunk asked for is still in the ring.
* `CopiesInRing`, `RangeHeld`: the same for the positions alone, on live and finished streams.
  The guards do not look at the end of the range once the end marker has arrived.
  `copiesInRing_iff`: a run indexes the ring inside its bounds throughout iff at every copy the
  whole range asked for is in the ring.
-/

namespace StreamFs

namespace Session

/-- The copy loop of the step computes each position without wrapping around, and the position
is inside the ring. -/
def CopiesInRing (t : Transition Session Event Observation) : Prop :=
  ∀ loop a, t.event = .copy loop → t.before.reader = .admitted a → 0 < t.before.pool.getSize →
    ∀ i < a.length,
      (t.before.pool.startPos a i : ℤ)
          = min t.before.pool.getSize t.before.pool.getCapacity
            - ((t.before.pool.mTotalBufCount : ℤ) - a.offset) + i
        ∧ t.before.pool.startPos a i < t.before.pool.getSize

/-- A copy asks for nothing, meets an empty ring, or finds its whole range in the ring. -/
def RangeHeld (t : Transition Session Event Observation) : Prop :=
  ∀ loop a, t.event = .copy loop → t.before.reader = .admitted a →
    a.length = 0 ∨ t.before.pool.getSize = 0 ∨
      (t.before.pool.mTotalBufCount ≤ a.offset + t.before.pool.getSize
        ∧ a.readEnd ≤ t.before.pool.mTotalBufCount)

/-! ### The results of reads -/

/-- A read ends with nothing, or with its copy block. -/
lemma result_act {s : Session} {e : Event} {r : ReadResult} (h : (s.act e).2 = some r) :
    r = .nothing ∨ ∃ a loop, e = .copy loop ∧ s.reader = .admitted a
      ∧ r = (s.pool.finishRead a loop).1 := by
  cases e with
  | pushBuffer b now => simp [act] at h
  | read a =>
      simp only [act, read] at h
      split_ifs at h
      exact Or.inl (Option.some.inj h).symm
  | wake =>
      simp only [act, wake] at h
      split at h
      · split_ifs at h
        exact Or.inl (Option.some.inj h).symm
      · simp at h
  | timeout =>
      simp only [act, timeout] at h
      split at h
      · split_ifs at h
        exact Or.inl (Option.some.inj h).symm
      · simp at h
  | copy loop =>
      rw [act] at h
      split at h
      · exact Or.inr ⟨_, loop, rfl, ‹_›, (Option.some.inj h).symm⟩
      · simp at h
  | clear => rw [act] at h; split_ifs at h
  | clearToLastRead => rw [act] at h; split_ifs at h
  | abortAllOperations => simp [act] at h
  | throttleLoop loop => simp [act] at h

variable {C : PoolCapacity} {s : Session} {a : ReadArgs}

/-- The copy loop stays inside the ring exactly if the range is in the ring. -/
lemma copiesInRing_copy_iff (hs : s.WellFormed C) (ha : s.reader = .admitted a) :
    (0 < s.pool.getSize → ∀ i < a.length,
        (s.pool.startPos a i : ℤ)
            = min s.pool.getSize s.pool.getCapacity - ((s.pool.mTotalBufCount : ℤ) - a.offset) + i
          ∧ s.pool.startPos a i < s.pool.getSize)
      ↔ a.length = 0 ∨ s.pool.getSize = 0 ∨
        (s.pool.mTotalBufCount ≤ a.offset + s.pool.getSize
          ∧ a.readEnd ≤ s.pool.mTotalBufCount) := by
  have hsize : s.pool.getSize < 2 ^ 64 := lt_of_le_of_lt hs.getSize_le C.lt
  have hcap : s.pool.getSize ≤ s.pool.getCapacity := s.pool.mCircBuf.size_le
  have hreader := hs.reader
  rw [ha] at hreader
  obtain ⟨⟨hoff, -⟩, -⟩ := hreader
  rw [ReadArgs.readEnd]
  constructor
  · intro h
    by_cases hempty : a.length = 0 ∨ s.pool.getSize = 0
    · rcases hempty with h0 | h0
      · exact Or.inl h0
      · exact Or.inr (Or.inl h0)
    · -- the first copy gives the lower end of the range, the last one the upper end
      obtain ⟨hfirst, -⟩ := h (by omega) 0 (by omega)
      obtain ⟨hlast, hlt⟩ := h (by omega) (a.length - 1) (by omega)
      refine Or.inr (Or.inr ⟨?_, ?_⟩) <;> omega
  · rintro (h0 | h0 | ⟨hheld, hend⟩) hpos i hi
    · omega
    · omega
    · have hstart := s.pool.startPos_of_held a hsize hheld (by omega : a.offset + i < _)
      constructor <;> omega

/-- **No index leaves the ring.** A run indexes the ring within its bounds at every step, and
computes no position that wraps around, if and only if at every copy the whole range asked for
is in the ring. -/
theorem copiesInRing_iff (C : PoolCapacity) (es : List Event) :
    (∀ t ∈ machine.trace (fresh C) es, CopiesInRing t)
      ↔ ∀ t ∈ machine.trace (fresh C) es, RangeHeld t := by
  refine Machine.forall_trace_iff (I := WellFormed C) (fun s e hs => ?_)
    (fun s e hs _ => hs.next e) (WellFormed.fresh C) es
  refine forall_congr' fun loop => forall_congr' fun a => ?_
  exact imp_congr_right fun _ => imp_congr_right fun ha => copiesInRing_copy_iff hs ha

/-- A read past the end of a finished stream is admitted, and its copy loop reads the position
behind the newest chunk. -/
theorem not_forall_copiesInRing :
    ¬ ∀ (C : PoolCapacity) (es : List Event),
        ∀ t ∈ machine.trace (fresh C) es, CopiesInRing t := by
  intro h
  let es : List Event :=
    [.pushBuffer (.filled 1) 0, .pushBuffer ⟨.filled 2, true, 9024⟩ 0, .read ⟨3, 0, 0, 0⟩]
  have hin := h (.ofNat 3) _ _
    (machine.mem_trace_append (fresh (.ofNat 3)) es (.copy ⟨0, false⟩))
  obtain ⟨-, hlt⟩ := hin ⟨0, false⟩ ⟨3, 0, 0, 0⟩ rfl rfl (by decide +kernel) 2 (by decide)
  revert hlt
  decide +kernel

end Session

end StreamFs
