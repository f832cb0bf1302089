import StreamFs.Pool.Rewind

/-!
The end marker: `mGotLastBuffer` and `mLastBufferSize`.

* `MarkerCoherent`: once the marker is set, the newest chunk of the stream is the one pushed
  as the last, and the size kept is the one given with it.
* `ResumesAfterRewind`: a `clearToLastRead` that drops the final chunk reopens the stream, so
  that a read behind its end waits for new chunks and is not told that the stream has ended.
* `KeepsMarker`, `marker_iff`: a run does both throughout iff no step passes the marker:
  `clear` takes it back, but `clearToLastRead` does not, and a later push leaves it set.
-/

namespace StreamFs

namespace Session

variable {C : PoolCapacity} {s : Session}

/-- The end marker belongs to the newest chunk of the stream. -/
def MarkerCoherent (s : Session) : Prop :=
  s.pool.mGotLastBuffer = true → 0 < s.pool.mTotalBufCount ∧
    ∃ e, s.stream[s.pool.mTotalBufCount - 1]? = some e ∧ e.push.lastBuffer = true
      ∧ e.push.lastBufferSize = s.pool.mLastBufferSize

/-- No read is told that the stream has ended, and a read admitted by the window check that
goes past the newest chunk has to wait. -/
def Reopened (p : BufferPool) : Prop :=
  (∀ a : ReadArgs, p.mTotalBufCount ≤ a.offset → p.refuses a ≠ some .endOfStream) ∧
    ∀ a : ReadArgs, a.leftPadding < bufferChunkSize → a.rightPadding < bufferChunkSize →
      a.offset ≤ p.mTotalBufCount → p.mTotalBufCount ≤ a.offset + p.getCapacity →
      a.length ≤ p.getCapacity → p.mTotalBufCount < a.readEnd →
      p.refuses a = none ∧ p.mustWait a

/-- A `clearToLastRead` that drops the final chunk of a finished stream reopens it. -/
def ResumesAfterRewind (t : Transition Session Event Observation) : Prop :=
  t.event = .clearToLastRead → t.before.reader = .idle → t.before.pool.mGotLastBuffer = true →
    t.after.pool.mTotalBufCount < t.before.pool.mTotalBufCount → Reopened t.after.pool

/-- With the marker set, only a final chunk is pushed, and `clearToLastRead` erases nothing. -/
def KeepsMarker (t : Transition Session Event Observation) : Prop :=
  t.before.pool.mGotLastBuffer = true →
    (∀ b now, t.event = .pushBuffer b now → b.lastBuffer = true)
      ∧ (t.event = .clearToLastRead → t.before.reader = .idle →
          t.before.pool.getSize ≤ t.before.pool.mLastReadLocation + 1)

/-- Producers that push behind a final chunk only after a `clear` or a `clearToLastRead`;
`closed` says that the last push was a final one, with neither of the two since. -/
def Disciplined (closed : Bool) : List Event → Prop
  | [] => True
  | .pushBuffer b _ :: es => closed = false ∧ Disciplined b.lastBuffer es
  | .clear :: es => Disciplined false es
  | .clearToLastRead :: es => Disciplined false es
  | _ :: es => Disciplined closed es

/-! ### One step -/

lemma mGotLastBuffer_clearToLastRead (p : BufferPool) :
    p.clearToLastRead.mGotLastBuffer = p.mGotLastBuffer
      ∧ p.clearToLastRead.mLastBufferSize = p.mLastBufferSize := by
  rw [BufferPool.clearToLastRead]
  split_ifs <;> exact ⟨rfl, rfl⟩

/-- A pool is open exactly without the marker. -/
lemma reopened_iff {p : BufferPool} (hexit : p.exitPending = false) :
    Reopened p ↔ p.mGotLastBuffer = false := by
  constructor
  · intro h
    by_contra hmarked
    refine h.1 ⟨0, p.mTotalBufCount, 0, 0⟩ le_rfl ?_
    rw [BufferPool.refuses, if_neg (by simp [hexit]),
      if_pos ⟨Bool.of_not_eq_false hmarked, le_rfl⟩]
  · intro hlive
    refine ⟨fun a hoff => ?_, fun a hl hr hoff hwin hlen hend => ⟨?_, hend, hlive⟩⟩
    · rw [BufferPool.refuses]
      split_ifs <;> simp_all
    · exact BufferPool.refuses_eq_none hexit (by simp [hlive]) hl hr hoff hwin hlen

/-- Steps that keep the chunks keep the marker. -/
lemma markerCoherent_of_sameChunks {s' : Session} (hcoherent : MarkerCoherent s)
    (hchunks : SameChunks s.pool s'.pool) (hstream : s'.stream = s.stream) :
    MarkerCoherent s' := by
  rw [MarkerCoherent, hchunks.mGotLastBuffer, hchunks.mTotalBufCount, hchunks.mLastBufferSize,
    hstream]
  exact hcoherent

/-- A push leaves the marker at the newest chunk iff it is a final one or the stream was open. -/
lemma markerCoherent_pushBuffer_iff (hs : s.WellFormed C) (b : PushArgs) (now : ℕ) :
    MarkerCoherent (s.pushBuffer b now)
      ↔ (s.pool.mGotLastBuffer = true → b.lastBuffer = true) := by
  have hcount : (s.pushBuffer b now).pool.mTotalBufCount = s.pool.mTotalBufCount + 1 :=
    BufferPool.mTotalBufCount_pushBuffer hs.running b now
  have hlast : (s.pushBuffer b now).stream[(s.pushBuffer b now).pool.mTotalBufCount - 1]?
      = some ⟨b, s.pool.mThrottle.timePeriod now⟩ := by
    rw [hcount, ← hs.length_stream]
    simp [Session.pushBuffer, hs.running]
  have hgot : (s.pushBuffer b now).pool.mGotLastBuffer
      = if b.lastBuffer then true else s.pool.mGotLastBuffer := by
    simp [Session.pushBuffer, BufferPool.pushBuffer, hs.running]
  have hsize : (s.pushBuffer b now).pool.mLastBufferSize
      = if b.lastBuffer then b.lastBufferSize else s.pool.mLastBufferSize := by
    simp [Session.pushBuffer, BufferPool.pushBuffer, hs.running]
  rw [MarkerCoherent, hlast, hgot, hsize]
  cases hb : b.lastBuffer with
  | true => exact iff_of_true (fun _ => ⟨by omega, _, rfl, hb, rfl⟩) fun _ => rfl
  | false =>
      constructor
      · intro h hmarked
        obtain ⟨-, e, he, hfinal, -⟩ := h hmarked
        obtain rfl := Option.some.inj he
        exact hb.symm.trans hfinal
      · intro h hmarked
        exact absurd (h hmarked) Bool.false_ne_true

/-- `clearToLastRead` keeps the marker, so it must keep the final chunk. -/
lemma marker_clearToLastRead_iff (hs : s.WellFormed C) (hcoherent : MarkerCoherent s)
    (hidle : s.reader = .idle) :
    (MarkerCoherent s.clearToLastRead ∧ (s.pool.mGotLastBuffer = true →
        s.clearToLastRead.pool.mTotalBufCount < s.pool.mTotalBufCount →
        Reopened s.clearToLastRead.pool))
      ↔ (s.pool.mGotLastBuffer = true → s.pool.getSize ≤ s.pool.mLastReadLocation + 1) := by
  have hcount : s.clearToLastRead.pool.mTotalBufCount
      = s.pool.mTotalBufCount - (s.pool.getSize - s.pool.mLastReadLocation - 1) :=
    hs.tracks.mTotalBufCount_clearToLastRead
  have hgot : s.clearToLastRead.pool.mGotLastBuffer = s.pool.mGotLastBuffer :=
    (mGotLastBuffer_clearToLastRead s.pool).1
  have hsize : s.clearToLastRead.pool.mLastBufferSize = s.pool.mLastBufferSize :=
    (mGotLastBuffer_clearToLastRead s.pool).2
  have hle := hs.tracks.getSize_le
  constructor
  · rintro ⟨-, hreopen⟩ hmarked
    by_contra hdrop
    have hrunning := (hs.clearToLastRead hidle).running
    have hlive := (reopened_iff hrunning).mp (hreopen hmarked (by omega))
    exact Bool.false_ne_true (hlive.symm.trans (hgot.trans hmarked))
  · intro hkeep
    refine ⟨fun hmarked => ?_, fun hmarked hlt => ?_⟩
    · have hmarked' := hgot.symm.trans hmarked
      have hdrop := hkeep hmarked'
      have hcount' : s.clearToLastRead.pool.mTotalBufCount = s.pool.mTotalBufCount := by omega
      have hstream : s.clearToLastRead.stream = s.stream := by
        show s.stream.take s.clearToLastRead.pool.mTotalBufCount = s.stream
        rw [hcount', ← hs.length_stream, List.take_length]
      rw [hcount', hstream, hsize]
      exact hcoherent hmarked'
    · have hdrop := hkeep hmarked
      omega

/-- A step keeps the marker at the newest chunk, and reopens the stream when it drops that
chunk, iff it does not pass the marker. -/
lemma marker_moves_iff (hs : s.WellFormed C) (hcoherent : MarkerCoherent s) {e : Event}
    {s' : Session} (hm : s.Moves e s') :
    (MarkerCoherent s' ∧ (e = .clearToLastRead → s.reader = .idle →
        s.pool.mGotLastBuffer = true → s'.pool.mTotalBufCount < s.pool.mTotalBufCount →
        Reopened s'.pool))
      ↔ (s.pool.mGotLastBuffer = true →
          (∀ b now, e = .pushBuffer b now → b.lastBuffer = true)
            ∧ (e = .clearToLastRead → s.reader = .idle →
                s.pool.getSize ≤ s.pool.mLastReadLocation + 1)) := by
  cases hm with
  | keep hquiet hchunks hpositions hstream hreader =>
      refine iff_of_true ⟨markerCoherent_of_sameChunks hcoherent hchunks hstream, ?_⟩
        fun _ => ⟨?_, ?_⟩
      · rintro rfl hidle
        exact absurd hidle hquiet
      · rintro b now rfl
        exact absurd trivial hquiet
      · rintro rfl hidle
        exact absurd hidle hquiet
  | pushBuffer b now =>
      rw [markerCoherent_pushBuffer_iff hs]
      constructor
      · rintro ⟨h, -⟩ hmarked
        refine ⟨fun b' now' he => ?_, by simp⟩
        rw [← (Event.pushBuffer.inj he).1]
        exact h hmarked
      · intro h
        exact ⟨fun hmarked => (h hmarked).1 b now rfl, by simp⟩
  | copy a loop hreader =>
      have hcopy : MarkerCoherent (s.copy a loop).1 :=
        markerCoherent_of_sameChunks hcoherent (sameChunks_finishRead s.pool a loop) rfl
      exact iff_of_true ⟨hcopy, by simp⟩ (by simp)
  | clear hreader =>
      have hclear : MarkerCoherent s.clear := by
        intro h
        simp [clear, BufferPool.clear] at h
      exact iff_of_true ⟨hclear, by simp⟩ (by simp)
  | clearToLastRead hreader =>
      have hiff := marker_clearToLastRead_iff hs hcoherent hreader
      simpa only [reduceCtorEq, false_implies, implies_true, true_and, true_implies, hreader]
        using hiff

/-- **The end marker stays with the final chunk.** In every run, the marker belongs to the newest
chunk in every state, and dropping that chunk reopens the stream, if and only if no step of
the run passes the marker. -/
theorem marker_iff (C : PoolCapacity) (es : List Event) :
    (∀ t ∈ machine.trace (fresh C) es, MarkerCoherent t.after ∧ ResumesAfterRewind t)
      ↔ ∀ t ∈ machine.trace (fresh C) es, KeepsMarker t :=
  Machine.forall_trace_iff (I := fun s => s.WellFormed C ∧ MarkerCoherent s)
    (fun s e hs => marker_moves_iff hs.1 hs.2 (moves_act hs.1.reader e))
    (fun s e hs h => ⟨hs.1.next e, h.1⟩) ⟨WellFormed.fresh C, fun h => by cases h⟩ es

/-- After a chunk, a final chunk and a read of the first, `clearToLastRead` drops the final chunk
and leaves the marker. -/
theorem not_forall_marker :
    ¬ ∀ (C : PoolCapacity) (es : List Event), Disciplined false es →
        ∀ t ∈ machine.trace (fresh C) es, MarkerCoherent t.after ∧ ResumesAfterRewind t := by
  intro h
  let es : List Event :=
    [.pushBuffer (.filled 1) 0, .pushBuffer ⟨.filled 2, true, 9024⟩ 0, .read ⟨1, 0, 0, 0⟩,
      .copy ⟨0, false⟩]
  obtain ⟨hcoherent, -⟩ := h (.ofNat 2) (es ++ [.clearToLastRead])
    (by simp [es, Disciplined, PushArgs.filled]) _
    (machine.mem_trace_append (fresh (.ofNat 2)) es .clearToLastRead)
  obtain ⟨-, e, he, hlast, -⟩ := hcoherent (by decide +kernel)
  obtain rfl := Option.some.inj he
  revert hlast
  decide +kernel

end Session

end StreamFs
