import StreamFs.Pool.EndOfStream
import StreamFs.Pool.Interleaving
import StreamFs.Sample.Download

/-!
Reads of a download, while it runs and when it is over.

* `Served`, `Fits`: what a read gives, and the condition on the state before its copy loop.
  `reads_served_iff`: a run serves all reads iff all of them fit.
* `handedOver`: the bytes `curl` has handed over along a run. `handedOver_eq`: what the producer has
  received are these, up to the rest of the call under way.
* `read_completes`: a read that is not refused, and fits when its chunks are there, delivers.
-/

namespace StreamFs

open BufferPool (pushedChunk coveredChunks randomAccessArgs Pads)

namespace Download

variable {C : PoolCapacity} {d : Download}

/-! ### Reads of a download -/

/-- A read that ends with the step returns nothing, or delivers the bytes received at its offset. -/
def Served (t : Transition Download DownloadEvent (Option ReadResult)) : Prop :=
  ∀ r, t.output = some r → r = .nothing ∨
    r.Delivers (slice t.before.received t.before.request.2 t.before.request.1)

/-- The first chunk of the range is still in the ring. -/
def FirstHeld (C : PoolCapacity) (d : Download) (offsetBytes : ℕ) : Prop :=
  d.session.pool.getTotalBufferCount ≤ offsetBytes / bufferChunkSize + C.val

/-- The end of the download does not cut the range, or the range starts in the chunk `0` and meets
all chunks, where a download of a single chunk is read from its start or is empty. -/
def EndsWell (d : Download) (size offsetBytes : ℕ) : Prop :=
  size = 0 ∧ offsetBytes / bufferChunkSize < d.session.pool.getTotalBufferCount ∨
    offsetBytes + size ≤ d.received.length ∨
    offsetBytes / bufferChunkSize = 0 ∧
      coveredChunks size offsetBytes = d.session.pool.getTotalBufferCount ∧
      (1 < d.session.pool.getTotalBufferCount ∨ offsetBytes = 0 ∨ d.received = [])

/-- The read meets no chunk, or finds its first chunk and is not cut off wrongly. -/
def ReadFits (C : PoolCapacity) (d : Download) (size offsetBytes : ℕ) : Prop :=
  coveredChunks size offsetBytes = 0 ∨
    d.FirstHeld C offsetBytes ∧ (d.lastPush ≠ [] → d.EndsWell size offsetBytes)

/-- The copy loop of the step is that of a read that fits. -/
def Fits (C : PoolCapacity) (t : Transition Download DownloadEvent (Option ReadResult)) : Prop :=
  ∀ loop a, t.event = .copy loop → t.before.session.reader = .admitted a →
    t.before.ReadFits C t.before.request.1 t.before.request.2

/-- A window of the newest entries, seen through a map of the entries. -/
lemma tracks_map {α β : Type*} {p : BufferPool} {f : α → BufferChunk} {g : β → BufferChunk}
    {h : α → β} {entries : List α} {c : ℕ} (hfg : ∀ x, g (h x) = f x)
    (htracks : p.Tracks f (LogWindow.latest entries c)) :
    p.Tracks g (LogWindow.latest (entries.map h) c) := by
  refine ⟨?_, by rw [htracks.count]; simp [LogWindow.latest]⟩
  have hshows := htracks.shows
  simp only [Ring.Shows, LogWindow.latest, List.length_map, ← List.map_drop, List.map_map]
    at hshows ⊢
  rw [hshows]
  exact List.map_congr_left fun x _ => (hfg x).symm

/-- The bytes of pushes of full chunks. -/
lemma streamBytes_of_map {pushes : List (PushArgs × ℕ)} {chunks : List BufferChunk}
    (h : pushes.map Prod.fst = chunks.map SampleProducer.fullChunk) :
    streamBytes pushedChunk pushes = streamBytes id chunks := by
  have hdata := congrArg (List.map fun b : PushArgs => b.buffer.data) h
  rw [List.map_map, List.map_map] at hdata
  exact congrArg List.flatten hdata

namespace Carries

variable (hd : d.Carries C)

include hd

lemma tracks : d.session.pool.Tracks pushedChunk (LogWindow.latest d.log C.val) := by
  have hwindow : d.session.window = LogWindow.latest d.session.stream C.val := by
    ext1
    · rfl
    · show d.session.stream.length - d.session.pool.getSize = d.session.stream.length - C.val
      rw [hd.full]
      omega
  exact tracks_map (fun _ => rfl) (hwindow ▸ hd.session.tracks)

lemma count_eq : d.session.pool.mTotalBufCount = d.log.length := hd.tracks.count

/-- The chunks queued before the last one hold a beginning of the bytes received. -/
lemma received_eq (hlive : d.lastPush = []) : ∃ rest,
    d.received = streamBytes pushedChunk d.log ++ rest ∧ rest.length < bufferChunkSize := by
  obtain ⟨chunks, hqueued, hbytes⟩ := hd.holds
  have hpushed := hd.pushed
  rw [hlive, List.append_nil, hqueued] at hpushed
  refine ⟨_, by rw [streamBytes_of_map hpushed]; exact hbytes.symm, ?_⟩
  have hlt := d.producer.offset_lt
  rw [List.length_take]
  omega

/-- The bytes received are those of the chunks up to the end of the last one. -/
lemma received_eq_take (hended : d.lastPush ≠ []) : ∃ body period,
    d.log = body ++ [(⟨d.producer.tempBuffer, true, d.producer.mCurrentOffset⟩, period)] ∧
      d.received = (BufferPool.finishedBytes body d.producer.tempBuffer).take
        (BufferPool.finishedLength body.length d.producer.mCurrentOffset) := by
  obtain ⟨chunks, hqueued, hbytes⟩ := hd.holds
  have hlast : d.lastPush = [⟨d.producer.tempBuffer, true, d.producer.mCurrentOffset⟩] := by
    rw [lastPush] at hended ⊢
    split at hended
    · rfl
    · exact absurd rfl hended
  have hpushed := hd.pushed
  rw [hqueued, hlast] at hpushed
  obtain ⟨body, final, hlog, hbody, hfinal⟩ := List.map_eq_append_iff.mp hpushed
  obtain ⟨⟨push, period⟩, rfl⟩ : ∃ x, final = [x] := by
    rw [← List.length_eq_one_iff, ← List.length_map (f := Prod.fst), hfinal]
    rfl
  obtain rfl : push = _ := (List.cons.inj hfinal).1
  refine ⟨body, period, hlog, ?_⟩
  have hlength : (streamBytes id chunks).length = body.length * bufferChunkSize := by
    rw [length_streamBytes, ← List.length_map (f := Prod.fst), hbody, List.length_map]
  have hfull : (streamBytes id chunks).take
      (body.length * bufferChunkSize + d.producer.mCurrentOffset) = streamBytes id chunks :=
    List.take_of_length_le (by omega)
  rw [BufferPool.finishedBytes, BufferPool.finishedLength, streamBytes_of_map hbody,
    List.take_append, hfull, hlength, Nat.add_sub_cancel_left, hbytes]

end Carries

/-- A read of which the first chunk is lost reads a position outside the ring. -/
lemma not_delivers_of_lost {p : BufferPool} {a : ReadArgs} (hoff : a.offset ≤ p.mTotalBufCount)
    (hcount : p.mTotalBufCount ≤ 2 ^ 64) (hlost : a.offset + p.getSize < p.mTotalBufCount)
    (hlen : 0 < a.length) (ret : ℕ) (bs : List UInt8) :
    ¬ (ReadResult.mk ret ((List.range a.length).map (p.copyAt a))).Delivers bs := by
  intro h
  have hle : p.getSize ≤ p.getCapacity := p.mCircBuf.size_le
  have hpos : p.getSize ≤ p.startPos a 0 := by
    rw [BufferPool.startPos, Nat.min_eq_left hle, subU64_of_le hoff,
      subU64_of_lt (show p.getSize < p.mTotalBufCount - a.offset by omega), addU64]
    omega
  have hsome := h.inBounds _ (List.mem_map_of_mem (List.mem_range.mpr hlen))
  have hnone : p.mCircBuf.items[p.startPos a 0]? = none := List.getElem?_eq_none hpos
  rw [BufferPool.copyAt, hnone] at hsome
  simp at hsome

section Copy

variable {a : ReadArgs} (hd : d.Carries C) (ha : d.session.reader = .admitted a)

include hd ha

/-- The range of the read under way in chunks. -/
lemma Carries.pads : Pads d.request.1 d.request.2 a := by
  obtain rfl := hd.requested a (by rw [ha]; rfl)
  refine BufferPool.randomAccessArgs_pads _ _ ?_
  have hcovered := BufferPool.coveredChunks_le d.request.1 d.request.2
  have hsmall := hd.small
  rw [bufferChunkSize_eq] at *
  omega

/-- A read of a running download, of which the first chunk is there. -/
lemma Carries.delivers_live (hlive : d.lastPush = []) (hlen : 0 < a.length)
    (hheld : d.FirstHeld C d.request.2) (loop : LoopProgress) :
    (d.session.pool.finishRead a loop).1.Delivers
      (slice d.received d.request.2 d.request.1) := by
  have hpads := hd.pads ha
  have hgot : d.session.pool.mGotLastBuffer = false := by
    have hgot := hd.got
    rw [hlive] at hgot
    simpa using hgot
  have hreader := hd.session.reader
  rw [ha] at hreader
  have hend := hreader.2 hgot
  have hcount := hd.count_eq
  have hsize := hd.tracks.getSize_latest
  have hone := C.one_le
  have hC := C.lt
  have hsmall := hd.small
  have hfills := hpads.fills
  have hstart := hpads.start_eq
  rw [FirstHeld, BufferPool.getTotalBufferCount, ← hpads.offset_eq] at hheld
  rw [ReadArgs.readEnd] at hend
  have hbytes : a.length * bufferChunkSize - a.leftPadding - a.rightPadding = d.request.1 := by
    omega
  have hdelivers := hd.tracks.finishRead_delivers (a := a) (by omega) (by omega) hgot
    hpads.left_lt hpads.right_lt (by omega) (by omega) (by rw [ReadArgs.readEnd]; omega)
    (by omega) loop
  rw [hstart, hbytes] at hdelivers
  obtain ⟨rest, hreceived, -⟩ := hd.received_eq hlive
  rw [hreceived, slice_append_left]
  · exact hdelivers
  · have hmul : (a.offset + a.length) * bufferChunkSize ≤ d.log.length * bufferChunkSize :=
      Nat.mul_le_mul_right _ (by omega)
    rw [length_streamBytes]
    rw [Nat.add_mul] at hmul
    omega

/-- A read of a finished download, of which the first chunk is there. -/
lemma Carries.delivers_ended_iff (hended : d.lastPush ≠ []) (hlen : 0 < a.length)
    (hheld : d.FirstHeld C d.request.2) (loop : LoopProgress) :
    (d.session.pool.finishRead a loop).1.Delivers (slice d.received d.request.2 d.request.1)
      ↔ d.EndsWell d.request.1 d.request.2 := by
  have hpads := hd.pads ha
  obtain ⟨body, period, hlog, hreceived⟩ := hd.received_eq_take hended
  have htracks := hd.tracks
  have hcount := hd.count_eq
  have hsize := hd.tracks.getSize_latest
  have hone := C.one_le
  have hC := C.lt
  have hsmall := hd.small
  have hs := d.producer.offset_lt
  have hlength : d.received.length = body.length * bufferChunkSize + d.producer.mCurrentOffset := by
    rw [hreceived, List.length_take, BufferPool.length_finishedBytes, BufferPool.finishedLength,
      Nat.succ_mul]
    omega
  rw [hlog] at htracks hcount hsize
  rw [List.length_append, List.length_singleton] at hcount hsize
  have hreader := hd.session.reader
  rw [ha] at hreader
  obtain ⟨⟨hoff, -⟩, -⟩ := hreader
  have hnil : d.received = [] ↔ d.received.length = 0 := List.length_eq_zero_iff.symm
  have hl := hpads.left_lt
  have hr := hpads.right_lt
  have hfills := hpads.fills
  have hstart := hpads.start_eq
  rw [FirstHeld, BufferPool.getTotalBufferCount] at hheld
  rw [d.session.pool.finishRead_of_pos a loop (by omega), EndsWell, hnil, hlength,
    BufferPool.getTotalBufferCount]
  simp only [← hpads.offset_eq, ← hpads.length_eq] at hheld ⊢
  by_cases hend : a.readEnd ≤ body.length + 1
  · rw [ReadArgs.readEnd] at hend
    rw [hreceived, BufferPool.finished_delivers_iff hpads htracks (hd.got.mpr hended)
      (hd.lastSize hended) hs.le (by omega) (by omega) (by rw [ReadArgs.readEnd]; omega),
      BufferPool.finishedLength]
    rw [bufferChunkSize_eq] at *
    omega
  · refine iff_of_false (BufferPool.not_delivers_of_past (by omega) (by omega) (by omega)
      (by omega) _) ?_
    rw [ReadArgs.readEnd] at hend
    rw [bufferChunkSize_eq] at *
    omega

/-- A read that meets a chunk finds the ring filled. -/
lemma Carries.getSize_pos (hlen : 0 < a.length) : 0 < d.session.pool.getSize := by
  have hreader := hd.session.reader
  rw [ha] at hreader
  have hcount := hd.count_eq
  have hsize := hd.tracks.getSize_latest
  have hone := C.one_le
  by_cases hlive : d.session.pool.mGotLastBuffer = false
  · have hend := hreader.2 hlive
    rw [ReadArgs.readEnd] at hend
    omega
  · have hended := hd.got.mp (by simpa using hlive)
    obtain ⟨body, period, hlog, -⟩ := hd.received_eq_take hended
    rw [hlog, List.length_append, List.length_singleton] at hcount hsize
    omega

/-- **One copy loop** of a download. -/
lemma Carries.delivers_iff (hbound : d.session.pool.mTotalBufCount ≤ 2 ^ 64)
    (loop : LoopProgress) :
    (d.session.pool.finishRead a loop).1.Delivers (slice d.received d.request.2 d.request.1)
      ↔ d.ReadFits C d.request.1 d.request.2 := by
  have hpads := hd.pads ha
  have hreader := hd.session.reader
  rw [ha] at hreader
  obtain ⟨⟨hoff, -⟩, -⟩ := hreader
  have hcount := hd.count_eq
  have hsize := hd.tracks.getSize_latest
  rw [ReadFits, ← hpads.length_eq]
  rcases Nat.eq_zero_or_pos a.length with hzero | hlen
  · -- no chunk is copied
    have hfills := hpads.fills
    have hrequest : d.request.1 = 0 := by
      rw [hzero] at hfills
      omega
    refine iff_of_true ?_ (.inl hzero)
    rw [hrequest, slice_zero, BufferPool.finishRead, BufferPool.copyLoop_eq, hzero]
    split <;> exact ReadResult.nothing_delivers
  · rw [or_iff_right (by omega : ¬ a.length = 0)]
    by_cases hheld : d.FirstHeld C d.request.2
    · rw [and_iff_right hheld]
      by_cases hlive : d.lastPush = []
      · exact iff_of_true (hd.delivers_live ha hlive hlen hheld loop) fun h => absurd hlive h
      · rw [hd.delivers_ended_iff ha hlive hlen hheld loop]
        exact ⟨fun h _ => h, fun h => h hlive⟩
    · refine iff_of_false ?_ fun h => hheld h.1
      rw [FirstHeld, BufferPool.getTotalBufferCount, ← hpads.offset_eq] at hheld
      rw [d.session.pool.finishRead_of_pos a loop (hd.getSize_pos ha hlen)]
      exact not_delivers_of_lost hoff hbound (by omega) hlen _ _

/-- A copy loop copies nothing only if there is nothing to copy. -/
lemma Carries.readFits_of_nothing {loop : LoopProgress}
    (h : (d.session.pool.finishRead a loop).1 = .nothing) :
    d.ReadFits C d.request.1 d.request.2 := by
  refine .inl ?_
  rw [← (hd.pads ha).length_eq]
  by_contra hlen
  have hpos := hd.getSize_pos ha (Nat.pos_of_ne_zero hlen)
  have hcopies := congrArg (fun r => r.copies.length) h
  rw [d.session.pool.finishRead_of_pos a loop hpos] at hcopies
  simp only [List.length_map, List.length_range, ReadResult.nothing, List.length_nil] at hcopies
  exact hlen hcopies

/-- The bytes a read asks for have been received when the read is admitted. -/
lemma Carries.slice_received (rest : List UInt8) (hrest : d.lastPush ≠ [] → rest = []) :
    slice (d.received ++ rest) d.request.2 d.request.1
      = slice d.received d.request.2 d.request.1 := by
  by_cases hlive : d.lastPush = []
  · have hpads := hd.pads ha
    have hgot : d.session.pool.mGotLastBuffer = false := by
      have hgot := hd.got
      rw [hlive] at hgot
      simpa using hgot
    have hreader := hd.session.reader
    rw [ha] at hreader
    have hend := hreader.2 hgot
    rw [ReadArgs.readEnd, hd.count_eq] at hend
    obtain ⟨begun, hreceived, -⟩ := hd.received_eq hlive
    have hmul : (a.offset + a.length) * bufferChunkSize ≤ d.log.length * bufferChunkSize :=
      Nat.mul_le_mul_right _ hend
    have hfills := hpads.fills
    have hstart := hpads.start_eq
    refine slice_append_left _ ?_
    rw [hreceived, List.length_append, length_streamBytes]
    rw [Nat.add_mul] at hmul
    omega
  · rw [hrest hlive, List.append_nil]

end Copy

/-! ### Runs -/

lemma length_queueBuffer (now : ℕ) (s : Session) (b : PushArgs) :
    (queueBuffer now s b).stream.length ≤ s.stream.length + 1 := by
  rw [queueBuffer, Session.pushBuffer]
  dsimp only
  split
  · omega
  · rw [List.length_append, List.length_singleton]

/-- A step queues at most one chunk. -/
lemma Carries.length_next (hd : d.Carries C) (e : DownloadEvent) :
    (machine.next d e).session.stream.length ≤ d.session.stream.length + 1 := by
  have hreader : ∀ (d' : Download) (e' : Event), d'.session = d.session → IsReader e' →
      (d'.sessionStep e').1.session.stream.length ≤ d.session.stream.length + 1 := by
    intro d' e' hsession he
    have hstream := (act_of_isReader hd.session he).2
    rw [Download.sessionStep, hsession]
    dsimp only
    rw [hstream]
    omega
  cases e with
  | write w =>
      show (d.act (.write w)).1.session.stream.length ≤ _
      rw [act]
      split <;> exact Nat.le_succ _
  | round now =>
      show (d.act (.round now)).1.session.stream.length ≤ _
      rw [act]
      split
      · rename_i w remaining_data hphase
        rw [Download.writeRound]
        split_ifs
        · dsimp only
          rcases queued_writeBody d.producer w.ptr (mulU64 w.nmemb w.size) remaining_data with
            h | ⟨c, h⟩
          · rw [h, List.drop_length, List.foldl_nil]
            exact Nat.le_succ _
          · rw [h, List.drop_left, List.foldl_cons, List.foldl_nil]
            exact length_queueBuffer _ _ _
        · exact Nat.le_succ _
      · exact Nat.le_succ _
  | finish now =>
      show (d.act (.finish now)).1.session.stream.length ≤ _
      rw [act]
      split
      · exact length_queueBuffer _ _ _
      · exact Nat.le_succ _
  | readRandomAccess size offsetBytes =>
      show (d.readStep size offsetBytes).1.session.stream.length ≤ _
      rw [readStep]
      split_ifs
      · exact hreader _ _ rfl trivial
      · exact Nat.le_succ _
  | wake => exact hreader d _ rfl trivial
  | timeout => exact hreader d _ rfl trivial
  | copy loop => exact hreader d _ rfl trivial
  | throttleLoop loop => exact hreader d _ rfl trivial

/-- There are no more chunks than events. -/
lemma count_run_le (C : PoolCapacity) (tempBuffer : BufferChunk) {es : List DownloadEvent}
    (hes : ∀ e ∈ es, SmallRead e) :
    (machine.run (create C tempBuffer) es).session.pool.mTotalBufCount ≤ es.length := by
  rw [← (carries_run C tempBuffer hes).session.length_stream]
  induction es using List.reverseRecOn with
  | nil => exact le_rfl
  | append_singleton es e ih =>
      have hbefore : ∀ e ∈ es, SmallRead e := fun e he => hes e (List.mem_append_left _ he)
      have hnext := (carries_run C tempBuffer hbefore).length_next e
      rw [Machine.run_append, Machine.run_singleton, List.length_append, List.length_singleton]
      exact hnext.trans (Nat.add_le_add_right (ih hbefore) 1)

/-- The result of a step is that of the reader. -/
lemma output_cases {e : DownloadEvent} {r : ReadResult} (h : machine.output d e = some r) :
    r = .nothing ∨ ∃ a loop, e = .copy loop ∧ d.session.reader = .admitted a
      ∧ r = (d.session.pool.finishRead a loop).1 := by
  have hsession : ∀ e' : Event, (d.session.act e').2 = some r →
      (∀ loop, e' = .copy loop → e = .copy loop) →
      r = .nothing ∨ ∃ a loop, e = .copy loop ∧ d.session.reader = .admitted a
        ∧ r = (d.session.pool.finishRead a loop).1 := by
    intro e' h' hcopy
    rcases Session.result_act h' with hnothing | ⟨a, loop, hevent, hreader, hresult⟩
    · exact .inl hnothing
    · exact .inr ⟨a, loop, hcopy loop hevent, hreader, hresult⟩
  change (d.act e).2 = some r at h
  cases e with
  | write w => rw [act] at h; split at h <;> cases h
  | round now => rw [act] at h; split at h <;> cases h
  | finish now => rw [act] at h; split at h <;> cases h
  | readRandomAccess size offsetBytes =>
      rw [act, readStep] at h
      split_ifs at h
      exact hsession _ h fun loop hloop => by cases hloop
  | wake => exact hsession _ h fun loop hloop => by cases hloop
  | timeout => exact hsession _ h fun loop hloop => by cases hloop
  | copy loop => exact hsession _ h fun loop' hloop => by cases hloop; rfl
  | throttleLoop loop => exact hsession _ h fun loop' hloop => by cases hloop

/-- A copy gives its result. -/
lemma output_copy {a : ReadArgs} (ha : d.session.reader = .admitted a) (loop : LoopProgress) :
    machine.output d (.copy loop) = some (d.session.pool.finishRead a loop).1 := by
  show (d.session.act (.copy loop)).2 = _
  rw [Session.act, ha]
  rfl

/-- **One step.** -/
lemma Carries.served_iff_fits (hd : d.Carries C)
    (hbound : d.session.pool.mTotalBufCount ≤ 2 ^ 64) (e : DownloadEvent) :
    Served (machine.transition d e) ↔ Fits C (machine.transition d e) := by
  constructor
  · intro hserved loop a he ha
    simp only [Machine.transition] at he ha
    subst he
    rcases hserved _ (output_copy ha loop) with hnothing | hdelivers
    · exact hd.readFits_of_nothing ha hnothing
    · exact (hd.delivers_iff ha hbound loop).mp hdelivers
  · intro hfits r hr
    rcases output_cases hr with hnothing | ⟨a, loop, rfl, ha, rfl⟩
    · exact .inl hnothing
    · exact .inr ((hd.delivers_iff ha hbound loop).mpr (hfits loop a rfl ha))

/-- **What was downloaded is what is read.** Let the bytes come in calls of any sizes, and let a
reader read at any offsets meanwhile and afterwards, with every step of the two interleaved in any
way. Then every read returns nothing or the bytes received at its offset, and exactly these, if and
only if at the copy loop of every read its first chunk is still in the ring, and the read fits the
way the end of the download is cut off. The reads are of less than `2^31` bytes each, as many as the
`int` of the copy loop counts, and the run has at most `2^64` events. -/
theorem reads_served_iff (C : PoolCapacity) (tempBuffer : BufferChunk) (es : List DownloadEvent)
    (hsmall : ∀ e ∈ es, SmallRead e) (hlength : es.length ≤ 2 ^ 64) :
    (∀ t ∈ machine.trace (create C tempBuffer) es, Served t)
      ↔ ∀ t ∈ machine.trace (create C tempBuffer) es, Fits C t := by
  refine forall₂_congr fun t ht => ?_
  obtain ⟨pre, e, post, rfl, rfl⟩ := machine.exists_of_mem_trace ht
  have hpre : ∀ e ∈ pre, SmallRead e := fun e he => hsmall e (List.mem_append_left _ he)
  have hcount := count_run_le C tempBuffer hpre
  rw [List.length_append] at hlength
  exact (carries_run C tempBuffer hpre).served_iff_fits (by omega) e

/-- A call of `write` that hands over one byte many times. -/
def writeFilled (b : UInt8) (n : ℕ) (h : n < 2 ^ 64 := by decide) : WriteArgs where
  ptr := List.replicate n b
  size := 1
  nmemb := n
  length_eq := by rw [List.length_replicate, Nat.one_mul]
  length_lt := by rwa [List.length_replicate]

/-- A chunk and a half come in one call, and ten bytes of the chunk are read between the two rounds
of its loop. -/
theorem reads_served_between :
    (∀ t ∈ machine.trace (create (.ofNat 2) (.filled 0)) [.write (writeFilled 1 13536), .round 0,
      .readRandomAccess 10 5, .copy ⟨0, false⟩, .round 0], Served t) ∧
      (machine.outputs (create (.ofNat 2) (.filled 0)) [.write (writeFilled 1 13536), .round 0,
        .readRandomAccess 10 5, .copy ⟨0, false⟩, .round 0]).reduceOption.map ReadResult.ret
          = [10] := by
  refine ⟨(reads_served_iff (.ofNat 2) (.filled 0) _ (fun e he size offsetBytes h => ?_)
    (by decide)).mpr (fun t ht loop a he ha => ?_), by decide +kernel⟩
  · subst h
    simp only [List.mem_cons, DownloadEvent.readRandomAccess.injEq, reduceCtorEq, List.not_mem_nil,
      or_false, false_or] at he
    omega
  · simp only [Machine.trace, List.mem_cons, List.not_mem_nil, or_false] at ht
    rcases ht with rfl | rfl | rfl | rfl | rfl
    · cases he
    · cases he
    · cases he
    · refine .inr ⟨?_, fun h => absurd rfl h⟩
      show BufferPool.getTotalBufferCount _ ≤ _
      decide +kernel
    · cases he

/-! ### A read from its call to its end -/

/-- The bytes that `curl` has handed over along a run. -/
def handOver (B : List UInt8) (t : Transition Download DownloadEvent (Option ReadResult)) :
    List UInt8 :=
  match t.event, t.before.phase with
  | .write w, .between => B ++ w.ptr
  | _, _ => B

/-- The bytes that `curl` hands over during the events `es`. -/
def handedOver (C : PoolCapacity) (tempBuffer : BufferChunk) (es : List DownloadEvent) :
    List UInt8 :=
  machine.noted handOver [] (create C tempBuffer) es

/-- What the call of `write` under way has still to copy. -/
def rest (d : Download) : List UInt8 :=
  match d.phase with
  | .writing w remaining_data => w.ptr.drop (w.ptr.length - remaining_data)
  | _ => []

/-- A piece and what is behind it. -/
lemma piece_append_drop (p : SampleProducer) (ptr : List UInt8) {remaining_data : ℕ}
    (h : remaining_data ≤ ptr.length) :
    p.piece ptr ptr.length remaining_data
        ++ ptr.drop (ptr.length - (remaining_data - p.writeLength remaining_data))
      = ptr.drop (ptr.length - remaining_data) := by
  have hle : p.writeLength remaining_data ≤ remaining_data := Nat.min_le_right _ _
  have hnext : ptr.length - (remaining_data - p.writeLength remaining_data)
      = ptr.length - remaining_data + p.writeLength remaining_data := by omega
  rw [SampleProducer.piece, slice, hnext, ← List.drop_drop, List.take_append_drop]

/-- One step copies what it takes from the call. -/
lemma Carries.handOver_eq (hd : d.Carries C) (e : DownloadEvent) :
    handOver (d.received ++ d.rest) (machine.transition d e)
      = (machine.next d e).received ++ (machine.next d e).rest := by
  cases e with
  | write w =>
      show handOver _ ⟨d, .write w, _, (d.act (.write w)).1⟩
        = (d.act (.write w)).1.received ++ (d.act (.write w)).1.rest
      rw [handOver, act]
      cases hphase : d.phase with
      | between =>
          dsimp only [rest]
          rw [hphase, totalSize_eq, Nat.sub_self, List.drop_zero, List.append_nil]
      | writing v n => rfl
      | ended => rfl
  | round now =>
      show d.received ++ d.rest = (d.act (.round now)).1.received ++ (d.act (.round now)).1.rest
      rw [act]
      cases hphase : d.phase with
      | between => rfl
      | ended => rfl
      | writing w remaining_data =>
          dsimp only
          rw [Download.writeRound]
          split_ifs with hpos
          · dsimp only [rest]
            rw [hphase, totalSize_eq, List.append_assoc,
              piece_append_drop _ _ (hd.writing w remaining_data hphase)]
          · obtain rfl : remaining_data = 0 := by omega
            simp [rest, hphase]
  | finish now =>
      show d.received ++ d.rest = (d.act (.finish now)).1.received ++ (d.act (.finish now)).1.rest
      rw [act]
      cases hphase : d.phase with
      | between =>
          dsimp only [rest, Download.finish]
          rw [hphase]
      | writing v n => rfl
      | ended => rfl
  | readRandomAccess size offsetBytes =>
      show d.received ++ d.rest = (d.readStep size offsetBytes).1.received
        ++ (d.readStep size offsetBytes).1.rest
      rw [readStep]
      split_ifs <;> rfl
  | wake => rfl
  | timeout => rfl
  | copy loop => rfl
  | throttleLoop loop => rfl

/-- **Nothing is lost on the way**: what has been received is what has been handed over, up to the
rest of the call under way. -/
theorem handedOver_eq (C : PoolCapacity) (tempBuffer : BufferChunk) {es : List DownloadEvent}
    (hsmall : ∀ e ∈ es, SmallRead e) :
    handedOver C tempBuffer es = (machine.run (create C tempBuffer) es).received
      ++ (machine.run (create C tempBuffer) es).rest := by
  refine (Machine.invariant_run_noted handOver
    (I := fun d B => d.Carries C ∧ B = d.received ++ d.rest) (Q := fun t => SmallRead t.event)
    (fun d B e hd he => ⟨hd.1.next he, ?_⟩) ⟨carries_create C tempBuffer, rfl⟩ es
    fun t ht => hsmall _ (machine.event_mem_of_mem_trace ht)).2
  rw [hd.2, hd.1.handOver_eq]

/-- The guards admit the read. -/
structure Admits (C : PoolCapacity) (d : Download) (size offsetBytes : ℕ) : Prop where
  covered : coveredChunks size offsetBytes ≤ C.val
  firstHeld : d.FirstHeld C offsetBytes
  begun : offsetBytes / bufferChunkSize ≤ d.session.pool.getTotalBufferCount
  notOver : d.lastPush ≠ [] → offsetBytes / bufferChunkSize < d.session.pool.getTotalBufferCount

/-- The chunks of the read have been pushed, or there will be no more. -/
def Arrived (d : Download) (size offsetBytes : ℕ) : Prop :=
  offsetBytes / bufferChunkSize + coveredChunks size offsetBytes
      ≤ d.session.pool.getTotalBufferCount
    ∨ d.lastPush ≠ []

/-- The events that the reader has no part in. -/
def OfProducer : DownloadEvent → Prop
  | .write _ | .round _ | .finish _ | .throttleLoop _ => True
  | _ => False

/-- The call of a read that is admitted does not end it. -/
lemma Carries.read_admitted (hd : d.Carries C) (hidle : d.session.reader = .idle)
    {size offsetBytes : ℕ} (hsize : size < 2 ^ 31) (hadmits : d.Admits C size offsetBytes) :
    underway (machine.next d (.readRandomAccess size offsetBytes)).session.reader
        = some (randomAccessArgs size offsetBytes)
      ∧ (machine.next d (.readRandomAccess size offsetBytes)).request = (size, offsetBytes) := by
  have hpads : Pads size offsetBytes (randomAccessArgs size offsetBytes) := by
    refine BufferPool.randomAccessArgs_pads _ _ ?_
    have hcovered := BufferPool.coveredChunks_le size offsetBytes
    rw [bufferChunkSize_eq] at *
    omega
  obtain ⟨hcovered, hheld, hbegun, hover⟩ := hadmits
  rw [FirstHeld] at hheld
  rw [← hpads.length_eq] at hcovered
  rw [← hpads.offset_eq] at hheld hbegun hover
  rw [BufferPool.getTotalBufferCount] at hheld hbegun hover
  have hcapacity := hd.session.capacity
  have hpass : d.session.pool.refuses (randomAccessArgs size offsetBytes) = none :=
    BufferPool.refuses_eq_none hd.session.running (fun hgot => hover (hd.got.mp hgot))
      hpads.left_lt hpads.right_lt hbegun (by omega) (by omega)
  show underway (d.readStep size offsetBytes).1.session.reader = _ ∧
    (d.readStep size offsetBytes).1.request = _
  rw [readStep, if_pos hidle, Download.sessionStep, Session.act]
  dsimp only
  rw [if_pos hidle, Session.read, if_neg (by simp [hpass])]
  split_ifs <;> exact ⟨rfl, rfl⟩

/-- The producer leaves the read under way alone. -/
lemma request_next {e : DownloadEvent} (he : OfProducer e) :
    (machine.next d e).session.reader = d.session.reader
      ∧ (machine.next d e).request = d.request := by
  have hqueue : ∀ (now : ℕ) (bs : List PushArgs) (s : Session),
      (bs.foldl (queueBuffer now) s).reader = s.reader := by
    intro now bs
    induction bs with
    | nil => exact fun s => rfl
    | cons b bs ih => exact fun s => (ih _).trans rfl
  cases e with
  | write w =>
      show (d.act (.write w)).1.session.reader = _ ∧ (d.act (.write w)).1.request = _
      rw [act]
      split <;> exact ⟨rfl, rfl⟩
  | round now =>
      show (d.act (.round now)).1.session.reader = _ ∧ (d.act (.round now)).1.request = _
      rw [act]
      split
      · rw [Download.writeRound]
        split_ifs
        · exact ⟨hqueue _ _ _, rfl⟩
        · exact ⟨rfl, rfl⟩
      · exact ⟨rfl, rfl⟩
  | finish now =>
      show (d.act (.finish now)).1.session.reader = _ ∧ (d.act (.finish now)).1.request = _
      rw [act]
      split <;> exact ⟨rfl, rfl⟩
  | throttleLoop loop => exact ⟨rfl, rfl⟩
  | readRandomAccess size offsetBytes => exact absurd he id
  | wake => exact absurd he id
  | timeout => exact absurd he id
  | copy loop => exact absurd he id

/-- A read of which the chunks have arrived goes on to its copy loop. -/
lemma Carries.wake_admitted (hd : d.Carries C) {a : ReadArgs}
    (ha : underway d.session.reader = some a) (harrived : d.Arrived d.request.1 d.request.2) :
    machine.output d .wake = none ∧ (machine.next d .wake).session.reader = .admitted a
      ∧ (machine.next d .wake).session.pool.mTotalBufCount = d.session.pool.mTotalBufCount := by
  show (d.session.act .wake).2 = none ∧ (d.session.act .wake).1.reader = .admitted a
    ∧ (d.session.act .wake).1.pool.mTotalBufCount = d.session.pool.mTotalBufCount
  have hargs := hd.requested a ha
  rw [Session.act]
  cases hreader : d.session.reader with
  | idle =>
      rw [hreader] at ha
      cases ha
  | admitted b =>
      rw [hreader] at ha
      obtain rfl := Option.some.inj ha
      exact ⟨rfl, hreader, rfl⟩
  | waiting b =>
      rw [hreader] at ha
      obtain rfl : b = a := Option.some.inj ha
      have hpads : Pads d.request.1 d.request.2 b := by
        rw [hargs]
        refine BufferPool.randomAccessArgs_pads _ _ ?_
        have hcovered := BufferPool.coveredChunks_le d.request.1 d.request.2
        have hsmall := hd.small
        rw [bufferChunkSize_eq] at *
        omega
      have hready : d.session.pool.readReady b := by
        rcases harrived with h | h
        · refine .inl ?_
          rw [← hpads.offset_eq, ← hpads.length_eq] at h
          exact h
        · exact .inr (.inl (hd.got.mpr h))
      dsimp only
      rw [Session.wake, if_pos hready, if_neg (by simp [hd.calm])]
      exact ⟨rfl, rfl, (Session.sameChunks_leaveWait _ _).mTotalBufCount⟩

/-- Behind the last chunk nothing is left to copy. -/
lemma rest_of_ended (hended : d.lastPush ≠ []) : d.rest = [] := by
  rw [lastPush] at hended
  rw [rest]
  cases hphase : d.phase with
  | ended => rfl
  | between => rfl
  | writing w n => simp [hphase] at hended

/-- A read under way of which the chunks have arrived, and that fits. -/
lemma Carries.completes (hd : d.Carries C) {a : ReadArgs}
    (ha : underway d.session.reader = some a)
    (hbound : d.session.pool.mTotalBufCount ≤ 2 ^ 64)
    (harrived : d.Arrived d.request.1 d.request.2) (hfits : d.ReadFits C d.request.1 d.request.2)
    (loop : LoopProgress) :
    ∃ r, machine.outputs d [.wake, .copy loop] = [none, some r] ∧
      r.Delivers (slice (d.received ++ d.rest) d.request.2 d.request.1) := by
  obtain ⟨hwake, hadmitted, hkept⟩ := hd.wake_admitted ha harrived
  have hd' : (machine.next d .wake).Carries C := hd.next fun _ _ h => by cases h
  refine ⟨((machine.next d .wake).session.pool.finishRead a loop).1, ?_, ?_⟩
  · rw [Machine.outputs, Machine.outputs, Machine.outputs, hwake, output_copy hadmitted]
  · have hfits' : (machine.next d .wake).ReadFits C d.request.1 d.request.2 := by
      rw [ReadFits, FirstHeld, EndsWell, BufferPool.getTotalBufferCount, hkept]
      exact hfits
    have hdelivers := (hd'.delivers_iff hadmitted (by rw [hkept]; exact hbound) loop).mpr hfits'
    rwa [← hd'.slice_received hadmitted d.rest rest_of_ended] at hdelivers

/-- The events from a read on, of which the others are those of the producer. -/
lemma smallRead_of_producer {size : ℕ} (hsize : size < 2 ^ 31) (offsetBytes : ℕ)
    {es es' : List DownloadEvent} (hsmall : ∀ e ∈ es, SmallRead e)
    (hproducer : ∀ e ∈ es', OfProducer e) :
    ∀ e ∈ es ++ .readRandomAccess size offsetBytes :: es', SmallRead e := by
  intro e he
  rw [List.mem_append, List.mem_cons] at he
  rcases he with he | rfl | he
  · exact hsmall e he
  · intro size' offsetBytes' heq
    cases heq
    exact hsize
  · rintro size' offsetBytes' rfl
    exact absurd (hproducer _ he) id

/-- **A read that is not refused delivers.** Let a download have come to any point, let the guards
admit a read there, and let the producer go on for any number of steps until the chunks of the read
have arrived. If the read fits then, it goes through its wait, and delivers the bytes that `curl`
has handed over at its offset. The reads are of less than `2^31` bytes each, and the run has at
most `2^64` events. -/
theorem read_completes (C : PoolCapacity) (tempBuffer : BufferChunk) (es es' : List DownloadEvent)
    (size offsetBytes : ℕ) (loop : LoopProgress) (hsmall : ∀ e ∈ es, SmallRead e)
    (hsize : size < 2 ^ 31) (hproducer : ∀ e ∈ es', OfProducer e)
    (hlength : es.length + es'.length < 2 ^ 64)
    (hidle : (machine.run (create C tempBuffer) es).session.reader = .idle)
    (hadmits : (machine.run (create C tempBuffer) es).Admits C size offsetBytes)
    (harrived : (machine.run (create C tempBuffer)
      (es ++ .readRandomAccess size offsetBytes :: es')).Arrived size offsetBytes)
    (hfits : (machine.run (create C tempBuffer)
      (es ++ .readRandomAccess size offsetBytes :: es')).ReadFits C size offsetBytes) :
    ∃ r, machine.outputs (machine.run (create C tempBuffer)
          (es ++ .readRandomAccess size offsetBytes :: es')) [.wake, .copy loop] = [none, some r] ∧
      r.Delivers (slice (handedOver C tempBuffer (es ++ .readRandomAccess size offsetBytes :: es'))
        offsetBytes size) := by
  have hsmall' := smallRead_of_producer hsize offsetBytes hsmall hproducer
  have hcount := count_run_le C tempBuffer hsmall'
  rw [List.length_append, List.length_cons] at hcount
  -- the read is under way when the producer is done
  have hcall := (carries_run C tempBuffer hsmall).read_admitted hidle hsize hadmits
  have hunderway := Machine.invariant_run_of_events (K := OfProducer)
    (I := fun d : Download => underway d.session.reader = some (randomAccessArgs size offsetBytes)
      ∧ d.request = (size, offsetBytes))
    (fun d e h he => by rwa [(request_next (d := d) he).1, (request_next (d := d) he).2])
    hcall hproducer
  rw [← Machine.run_cons, ← Machine.run_append] at hunderway
  obtain ⟨hreader, hrequest⟩ := hunderway
  obtain ⟨r, hout, hdelivers⟩ := (carries_run C tempBuffer hsmall').completes hreader (by omega)
    (by rw [hrequest]; exact harrived) (by rw [hrequest]; exact hfits) loop
  rw [hrequest, ← handedOver_eq C tempBuffer hsmall'] at hdelivers
  exact ⟨r, hout, hdelivers⟩

/-- A read waits for the chunk that the call under way is about to fill. -/
theorem read_completes_after_wait :
    ∃ r, machine.outputs (machine.run (create (.ofNat 2) (.filled 0))
          ([.write (writeFilled 1 13536)] ++ .readRandomAccess 10 5 :: [.round 0]))
        [.wake, .copy ⟨0, false⟩] = [none, some r] ∧
      r.Delivers (slice (handedOver (.ofNat 2) (.filled 0) ([.write (writeFilled 1 13536)]
        ++ .readRandomAccess 10 5 :: [.round 0])) 5 10) := by
  refine read_completes (.ofNat 2) (.filled 0) [.write (writeFilled 1 13536)] [.round 0] 10 5
    ⟨0, false⟩ (fun e he size offsetBytes h => ?_) (by norm_num) (by simp [OfProducer]) (by decide)
    rfl ⟨by decide, ?_, ?_, fun h => absurd rfl h⟩ (.inl ?_) (.inr ⟨?_, fun _ => .inr (.inl ?_)⟩)
  · subst h
    cases List.mem_singleton.mp he
  · show BufferPool.getTotalBufferCount _ ≤ _
    decide +kernel
  · decide +kernel
  · decide +kernel
  · show BufferPool.getTotalBufferCount _ ≤ _
    decide +kernel
  · decide +kernel

end Download

end StreamFs
