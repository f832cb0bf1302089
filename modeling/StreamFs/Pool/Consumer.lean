import StreamFs.Pool.Session

/-!
What the consumer of a pool is given: `pushBuffer` calls `newBufferAvailable` with the front of the
ring, behind each push (`BufferPool.cpp`).

* `newBufferAvailable`, `given`: the argument of the call, and those of the calls since the pool
  was new or cleared.
* `InTurn`: the arguments are chunks of the stream from the first one on, each the same as the one
  before or the next one, and all chunks that the ring has given up at its front are among them.
  Those that `clearToLastRead` erases at its back are no longer in the stream, and the consumer may
  never be given them.
* `consumer_in_turn`: this holds after every run.
-/

namespace StreamFs

namespace Session

/-- The argument of the call of `newBufferAvailable` in `pushBuffer`. -/
def newBufferAvailable (p : BufferPool) : List BufferChunk := p.mCircBuf.items.head?.toList

/-- The calls of the consumer since the pool was cleared. -/
def consume (calls : List BufferChunk) (t : Transition Session Event Observation) :
    List BufferChunk :=
  match t.event with
  | .pushBuffer _ _ =>
      if t.before.pool.exitPending then calls else calls ++ newBufferAvailable t.after.pool
  | .clear => if t.before.reader = .idle then [] else calls
  | _ => calls

/-- What the consumer is given during the events `es`, from the last `clear` on. -/
def given (C : PoolCapacity) (es : List Event) : List BufferChunk :=
  machine.noted consume [] (fresh C) es

/-- The chunk numbered `i`. -/
def chunkAt (s : Session) (i : ℕ) : Option BufferChunk := (s.stream[i]?).map StreamEntry.chunk

/-- The calls were made with chunks of the stream: with the first one first, each with the one of
the call before it or with the next one, and with every chunk that has been rotated out of the
ring. -/
structure InTurn (s : Session) (calls : List BufferChunk) (numbers : List ℕ) : Prop where
  chunks : calls.map some = numbers.map s.chunkAt
  starts : ∀ n ∈ numbers.head?, n = 0
  steps : numbers.IsChain fun i j => j = i ∨ j = i + 1
  none_skipped : ∀ i < s.window.first, i ∈ numbers

/-- What is kept from step to step: nothing has been pushed, or the last call was made with the
oldest chunk held. -/
structure Consumed (C : PoolCapacity) (s : Session) (calls : List BufferChunk) : Prop where
  session : s.WellFormed C
  calls : ∃ numbers, s.InTurn calls numbers ∧
    (s.stream = [] ∧ numbers = [] ∨
      0 < s.pool.getSize ∧ (∀ n ∈ numbers, n ≤ s.window.first) ∧
        numbers.getLast? = some s.window.first)

variable {C : PoolCapacity} {s s' : Session} {calls : List BufferChunk}

lemma first_eq (s : Session) : s.window.first = s.stream.length - s.pool.getSize := rfl

lemma getSize_le_length (hs : s.WellFormed C) : s.pool.getSize ≤ s.stream.length :=
  hs.tracks.getSize_eq.trans_le (Nat.sub_le _ _)

/-- The oldest chunk is at the front of the ring. -/
lemma newBufferAvailable_eq (hs : s.WellFormed C) (hpos : 0 < s.pool.getSize) :
    (newBufferAvailable s.pool).map some = [s.chunkAt s.window.first] := by
  have hfront := hs.chunk_eq 0
  rw [Nat.add_zero, ← hs.length_stream] at hfront
  obtain ⟨c, hc⟩ : ∃ c, s.pool.mCircBuf.items[0]? = some c :=
    ⟨_, List.getElem?_eq_getElem hpos⟩
  rw [newBufferAvailable, List.head?_eq_getElem?, hc, chunkAt, first_eq, ← hfront, hc]
  rfl

/-- A step that leaves the chunks alone. -/
lemma Consumed.of_same (h : s.Consumed C calls) (hs' : s'.WellFormed C)
    (hstream : s'.stream = s.stream) (hsize : s'.pool.getSize = s.pool.getSize) :
    s'.Consumed C calls := by
  obtain ⟨numbers, hturn, hlast⟩ := h.calls
  have hfirst : s'.window.first = s.window.first := by rw [first_eq, first_eq, hstream, hsize]
  refine ⟨hs', numbers, ⟨?_, hturn.starts, hturn.steps, ?_⟩, ?_⟩
  · rw [hturn.chunks]
    exact List.map_congr_left fun n _ => by rw [chunkAt, chunkAt, hstream]
  · rw [hfirst]
    exact hturn.none_skipped
  · rw [hfirst, hstream, hsize]
    exact hlast

/-- A push gives the consumer the chunk it was given before, or the next one. -/
lemma Consumed.pushBuffer (h : s.Consumed C calls) (b : PushArgs) (now : ℕ) :
    (s.pushBuffer b now).Consumed C
      (calls ++ newBufferAvailable (s.pushBuffer b now).pool) := by
  obtain ⟨numbers, hturn, hlast⟩ := h.calls
  have hs' := h.session.pushBuffer b now
  have hrunning := h.session.running
  have hcapacity := h.session.capacity
  have hone := C.one_le
  have hsize : (s.pushBuffer b now).pool.getSize = min (s.pool.getSize + 1) C.val := by
    show (s.pool.pushBuffer b now).getSize = _
    rw [BufferPool.getCapacity] at hcapacity
    rw [BufferPool.pushBuffer, if_neg (by simp [hrunning]), ← hcapacity]
    exact Ring.size_pushBack _ _
  have hstream : (s.pushBuffer b now).stream
      = s.stream ++ [⟨b, s.pool.mThrottle.timePeriod now⟩] := if_neg (by simp [hrunning])
  have hheld := getSize_le_length h.session
  have hle := h.session.getSize_le
  have hfirst' : (s.pushBuffer b now).window.first
      = s.stream.length + 1 - min (s.pool.getSize + 1) C.val := by
    rw [first_eq, hstream, hsize, List.length_append, List.length_singleton]
  have hfirst := first_eq s
  set first' := (s.pushBuffer b now).window.first with hdef
  refine ⟨hs', numbers ++ [first'], ⟨?_, ?_, ?_, ?_⟩, .inr ⟨by omega, ?_, List.getLast?_concat⟩⟩
  · rw [List.map_append, List.map_append, hturn.chunks, List.map_singleton,
      newBufferAvailable_eq hs' (by omega)]
    refine congrArg₂ _ (List.map_congr_left fun n hn => ?_) rfl
    rcases hlast with ⟨-, rfl⟩ | ⟨hpos, hmax, -⟩
    · cases hn
    · have hn' := hmax n hn
      rw [chunkAt, chunkAt, hstream, List.getElem?_append_left (by omega)]
  · rcases hlast with ⟨hnil, rfl⟩ | ⟨-, -, hget⟩
    · intro n hn
      rw [hnil] at hfirst' hheld
      simp only [List.length_nil] at hfirst' hheld
      obtain rfl := Option.some.inj hn
      omega
    · cases numbers with
      | nil => cases hget
      | cons n numbers => exact hturn.starts
  · refine List.isChain_append.mpr ⟨hturn.steps, List.isChain_singleton _, fun i hi j hj => ?_⟩
    obtain rfl := Option.some.inj hj
    rcases hlast with ⟨-, rfl⟩ | ⟨-, -, hget⟩
    · cases hi
    · obtain rfl := Option.some.inj (hget.symm.trans hi)
      omega
  · intro i hi
    rw [List.mem_append]
    rcases hlast with ⟨hnil, -⟩ | ⟨-, -, hget⟩
    · rw [hnil] at hfirst' hheld
      simp only [List.length_nil] at hfirst' hheld
      omega
    · rcases Nat.lt_or_ge i s.window.first with hold | hnew
      · exact .inl (hturn.none_skipped i hold)
      · obtain rfl : i = s.window.first := by omega
        exact .inl (List.mem_of_getLast? hget)
  · intro n hn
    rcases List.mem_append.mp hn with hn | hn
    · rcases hlast with ⟨-, rfl⟩ | ⟨-, hmax, -⟩
      · cases hn
      · have hn' := hmax n hn
        omega
    · exact (List.mem_singleton.mp hn).le

/-- Going back to the chunk read last takes newer chunks away. -/
lemma Consumed.clearToLastRead (h : s.Consumed C calls) (hreader : s.reader = .idle) :
    s.clearToLastRead.Consumed C calls := by
  obtain ⟨numbers, hturn, hlast⟩ := h.calls
  obtain ⟨hring, hcount⟩ := h.session.tracks.clearToLastRead_eq
  have hheld := getSize_le_length h.session
  have hsize : s.clearToLastRead.pool.getSize
      = s.pool.getSize - BufferPool.Tracks.erased s.pool := by
    show s.pool.clearToLastRead.mCircBuf.size = _
    rw [hring, Ring.size_eraseEnd]
    rfl
  have hstream : s.clearToLastRead.stream
      = s.stream.take (s.stream.length - BufferPool.Tracks.erased s.pool) := by
    show s.stream.take s.pool.clearToLastRead.mTotalBufCount = _
    rw [hcount, h.session.length_stream]
  have hfirst : s.clearToLastRead.window.first = s.window.first := by
    rw [first_eq, first_eq, hstream, hsize, List.length_take, BufferPool.Tracks.erased]
    omega
  have hkept : ∀ n ≤ s.window.first, 0 < s.pool.getSize →
      s.clearToLastRead.chunkAt n = s.chunkAt n := by
    intro n hn hpos
    rw [first_eq] at hn
    rw [chunkAt, chunkAt, hstream, List.getElem?_take_of_lt]
    rw [BufferPool.Tracks.erased]
    omega
  refine ⟨h.session.clearToLastRead hreader, numbers,
    ⟨?_, hturn.starts, hturn.steps, hfirst.symm ▸ hturn.none_skipped⟩, ?_⟩
  · rw [hturn.chunks]
    refine List.map_congr_left fun n hn => ?_
    rcases hlast with ⟨-, rfl⟩ | ⟨hpos, hmax, -⟩
    · cases hn
    · exact (hkept n (hmax n hn) hpos).symm
  · rw [hfirst, hstream, hsize]
    rcases hlast with ⟨hnil, hnumbers⟩ | ⟨hpos, hmax, hget⟩
    · exact .inl ⟨by rw [hnil, List.take_nil], hnumbers⟩
    · refine .inr ⟨?_, hmax, hget⟩
      rw [BufferPool.Tracks.erased]
      omega

/-- Behind `clear` the consumer starts again. -/
lemma consumed_nil (hs : s.WellFormed C) (hnil : s.stream = []) : s.Consumed C [] := by
  refine ⟨hs, [], ⟨rfl, by simp, List.isChain_nil, fun i hi => ?_⟩, .inl ⟨hnil, rfl⟩⟩
  rw [first_eq, hnil] at hi
  exact absurd hi (by simp)

/-- **One step.** -/
theorem Consumed.next (h : s.Consumed C calls) (e : Event) :
    (machine.next s e).Consumed C (consume calls (machine.transition s e)) := by
  have hmoves := moves_act h.session.reader e
  have hnext := h.session.next e
  change (s.act e).1.WellFormed C at hnext
  show (s.act e).1.Consumed C (consume calls ⟨s, e, machine.output s e, (s.act e).1⟩)
  generalize (s.act e).1 = s' at hmoves hnext
  cases hmoves with
  | keep hquiet hchunks hpositions hstream hreader =>
      have hsame : consume calls ⟨s, e, machine.output s e, s'⟩ = calls := by
        cases e with
        | pushBuffer b now => exact absurd trivial hquiet
        | clear => exact if_neg hquiet
        | read a => rfl
        | wake => rfl
        | timeout => rfl
        | copy loop => rfl
        | clearToLastRead => rfl
        | abortAllOperations => rfl
        | throttleLoop loop => rfl
      rw [hsame]
      exact h.of_same hnext hstream (by rw [BufferPool.getSize, hchunks.mCircBuf]; rfl)
  | pushBuffer b now =>
      rw [consume, if_neg (by simp [h.session.running])]
      exact h.pushBuffer b now
  | copy a loop hreader =>
      have hchunks := sameChunks_finishRead s.pool a loop
      exact h.of_same hnext rfl (by
        show (s.pool.finishRead a loop).2.mCircBuf.size = _
        rw [hchunks.mCircBuf]
        rfl)
  | clear hreader =>
      rw [consume, if_pos hreader]
      exact consumed_nil hnext rfl
  | clearToLastRead hreader => exact h.clearToLastRead hreader

/-- **The consumer is given the stream in turn.** In every run of pushes, reads and resets of any
kind, the calls since the last `clear` are made with the chunks of the stream from the first one
on, each with the chunk of the call before it or with the next one, and no chunk of the stream is
rotated out of the ring before a call has been made with it. -/
theorem consumer_in_turn (C : PoolCapacity) (es : List Event) :
    ∃ numbers, (machine.run (fresh C) es).InTurn (given C es) numbers := by
  have hrun := Machine.invariant_run_noted consume (I := Consumed C)
    (Q := fun _ => True) (fun s calls e h _ => h.next e)
    (consumed_nil (.fresh C) rfl) es (fun _ _ => trivial)
  obtain ⟨numbers, hturn, -⟩ := hrun.calls
  exact ⟨numbers, hturn⟩

end Session

end StreamFs
