import StreamFs.Pool.Session
import StreamFs.Sample.Producer

/-!
A download on its way to a reader: the producer of the sample plugin cuts what `curl` hands over
into chunks and pushes them into the pool, while a reader reads bytes from there
(`SamplePlugin.cpp`, `BufferPool.cpp`).

* `Download`: the pool with its reader, the producer, where its thread stands in `write`, and the
  read under way. `received` is a record of the model: the bytes the producer has copied so far.
* `DownloadEvent`, `Download.act`, `machine`: a round of the loop of `write` is a step, with the
  push of the chunk that it fills, and a read is the steps of `Session`.
* `Carries`: the pool holds the newest of the chunks queued, which hold the bytes received.
  `carries_run`: this is so at every point of every download.
-/

namespace StreamFs

/-- Where the thread of the producer stands: between two calls of `write`, in the loop of a call, or
behind the last chunk. -/
inductive DownloadPhase where
  | between
  | writing (w : WriteArgs) (remaining_data : ℕ)
  | ended

/-- A download, with the size and the offset of the last read. -/
structure Download where
  session : Session
  producer : SampleProducer
  phase : DownloadPhase
  request : ℕ × ℕ
  received : List UInt8

/-- The steps of the producer and of the reader. -/
inductive DownloadEvent where
  | write (w : WriteArgs)
  | round (now : ℕ)
  | finish (now : ℕ)
  | readRandomAccess (size offsetBytes : ℕ)
  | wake
  | timeout
  | copy (loop : LoopProgress)
  | throttleLoop (loop : LoopProgress)

open BufferPool (randomAccessArgs)

namespace Download

/-- A new pool and a new producer. -/
def create (C : PoolCapacity) (tempBuffer : BufferChunk) : Download where
  session := .fresh C
  producer := .create tempBuffer
  phase := .between
  request := (0, 0)
  received := []

/-- `queueBuffer`. -/
def queueBuffer (now : ℕ) (s : Session) (b : PushArgs) : Session := s.pushBuffer b now

/-- A round of the loop of `write`, with the chunk that it queues if it fills one. -/
def writeRound (d : Download) (w : WriteArgs) (remaining_data now : ℕ) : Download :=
  if 0 < remaining_data then
    let total_size := mulU64 w.nmemb w.size
    let producer := d.producer.writeBody w.ptr total_size remaining_data
    { d with
      session := (producer.queued.drop d.producer.queued.length).foldl (queueBuffer now) d.session
      producer
      phase := .writing w (remaining_data - d.producer.writeLength remaining_data)
      received := d.received ++ d.producer.piece w.ptr total_size remaining_data }
  else { d with phase := .between }

/-- The last chunk. -/
def finish (d : Download) (now : ℕ) : Download :=
  { d with
    session := queueBuffer now d.session ⟨d.producer.tempBuffer, true, d.producer.mCurrentOffset⟩
    phase := .ended }

/-- A step of the reader or of the throttle. -/
def sessionStep (d : Download) (e : Event) : Download × Option ReadResult :=
  ({ d with session := (d.session.act e).1 }, (d.session.act e).2)

/-- The call of `readRandomAccess`, up to the end of its guards. -/
def readStep (d : Download) (size offsetBytes : ℕ) : Download × Option ReadResult :=
  if d.session.reader = .idle then
    { d with request := (size, offsetBytes) }.sessionStep
      (.read (randomAccessArgs size offsetBytes))
  else (d, none)

/-- One event, with the result of the read it ends. -/
def act (d : Download) : DownloadEvent → Download × Option ReadResult
  | .write w =>
      match d.phase with
      | .between => ({ d with phase := .writing w (mulU64 w.nmemb w.size) }, none)
      | _ => (d, none)
  | .round now =>
      match d.phase with
      | .writing w remaining_data => (d.writeRound w remaining_data now, none)
      | _ => (d, none)
  | .finish now =>
      match d.phase with
      | .between => (d.finish now, none)
      | _ => (d, none)
  | .readRandomAccess size offsetBytes => d.readStep size offsetBytes
  | .wake => d.sessionStep .wake
  | .timeout => d.sessionStep .timeout
  | .copy loop => d.sessionStep (.copy loop)
  | .throttleLoop loop => d.sessionStep (.throttleLoop loop)

/-- The downloads as a machine. -/
def machine : Machine Download DownloadEvent (Option ReadResult) := ⟨act⟩

/-- The pushes so far, each with the period registered for it. -/
def log (d : Download) : List (PushArgs × ℕ) := d.session.stream.map fun e => (e.push, e.period)

/-- The call of `queueBuffer` behind the transfer, once it has been made. -/
def lastPush (d : Download) : List PushArgs :=
  match d.phase with
  | .ended => [⟨d.producer.tempBuffer, true, d.producer.mCurrentOffset⟩]
  | _ => []

/-! ### The steps of the reader -/

/-- The steps of a read and of the throttle. -/
def IsReader : Event → Prop
  | .read _ | .wake | .timeout | .copy _ | .throttleLoop _ => True
  | _ => False

/-- The arguments of the read under way. -/
def underway : ReaderPhase → Option ReadArgs
  | .idle => none
  | .waiting a | .admitted a => some a

/-- A reader leaves the chunks alone. -/
lemma act_of_isReader {C : PoolCapacity} {s : Session} (hs : s.WellFormed C) {e : Event}
    (he : IsReader e) :
    Session.SameChunks s.pool (s.act e).1.pool ∧ (s.act e).1.stream = s.stream := by
  have hmoves := Session.moves_act hs.reader e
  generalize (s.act e).1 = s' at hmoves
  cases hmoves with
  | keep hquiet hchunks hpositions hstream hreader => exact ⟨hchunks, hstream⟩
  | pushBuffer b now => exact absurd he id
  | copy a loop hreader => exact ⟨Session.sameChunks_finishRead _ _ _, rfl⟩
  | clear hreader => exact absurd he id
  | clearToLastRead hreader => exact absurd he id

/-- The copy block does not abort. -/
lemma mAborting_finishRead (p : BufferPool) (a : ReadArgs) (loop : LoopProgress) :
    (p.finishRead a loop).2.mAborting = p.mAborting := by
  rcases Nat.eq_zero_or_pos p.getSize with h0 | hpos
  · rw [p.finishRead_of_empty a loop h0]
  · rw [p.finishRead_of_pos a loop hpos]
    cases a.length <;> rfl

/-- A reader does not abort. -/
lemma mAborting_act {s : Session} {e : Event} (he : IsReader e) (h : s.pool.mAborting = false) :
    (s.act e).1.pool.mAborting = false := by
  have hleave : ∀ a, (s.pool.leaveWait a).mAborting = false := by
    intro a
    rw [BufferPool.leaveWait]
    split
    · rfl
    · exact h
  cases e with
  | read a =>
      rw [Session.act, Session.read]
      split_ifs <;> exact h
  | wake =>
      simp only [Session.act, Session.wake]
      split
      · split_ifs
        · exact hleave _
        · exact hleave _
        · exact h
      · exact h
  | timeout =>
      simp only [Session.act, Session.timeout]
      split
      · split_ifs <;> exact h
      · exact h
  | copy loop =>
      rw [Session.act]
      split
      · exact (mAborting_finishRead _ _ _).trans h
      · exact h
  | throttleLoop loop => exact h
  | pushBuffer b now => exact absurd he id
  | clear => exact absurd he id
  | clearToLastRead => exact absurd he id
  | abortAllOperations => exact absurd he id

/-- The read under way goes on, or has just been called. -/
lemma underway_act {s : Session} {e : Event} (he : IsReader e) {a : ReadArgs}
    (h : underway (s.act e).1.reader = some a) :
    underway s.reader = some a ∨ e = .read a ∧ s.reader = .idle := by
  cases e with
  | read b =>
      rw [Session.act] at h
      split_ifs at h with hidle
      · rw [Session.read] at h
        split_ifs at h
        · exact .inl h
        · exact .inr ⟨congrArg Event.read (Option.some.inj h), hidle⟩
        · exact .inr ⟨congrArg Event.read (Option.some.inj h), hidle⟩
      · exact .inl h
  | wake =>
      simp only [Session.act, Session.wake] at h
      split at h
      · rename_i b hwaiting
        rw [hwaiting]
        split_ifs at h
        · cases h
        · exact .inl h
        · rw [hwaiting] at h
          exact .inl h
      · exact .inl h
  | timeout =>
      simp only [Session.act, Session.timeout] at h
      split at h
      · rename_i b hwaiting
        rw [hwaiting]
        split_ifs at h
        · rw [hwaiting] at h
          exact .inl h
        · cases h
      · exact .inl h
  | copy loop =>
      rw [Session.act] at h
      split at h
      · cases h
      · exact .inl h
  | throttleLoop loop => exact .inl h
  | pushBuffer b now => exact absurd he id
  | clear => exact absurd he id
  | clearToLastRead => exact absurd he id
  | abortAllOperations => exact absurd he id

/-! ### What a download carries -/

/-- The pool holds the newest of the chunks queued, which hold the bytes received, and the end
marker is that of the last chunk. -/
structure Carries (C : PoolCapacity) (d : Download) : Prop where
  session : d.session.WellFormed C
  full : d.session.pool.getSize = min d.session.stream.length C.val
  calm : d.session.pool.mAborting = false
  requested : ∀ a, underway d.session.reader = some a →
    a = randomAccessArgs d.request.1 d.request.2
  small : d.request.1 < 2 ^ 31
  pushed : d.log.map Prod.fst = d.producer.queued ++ d.lastPush
  holds : d.producer.Holds d.received
  got : d.session.pool.mGotLastBuffer = true ↔ d.lastPush ≠ []
  lastSize : d.lastPush ≠ [] → d.session.pool.mLastBufferSize = d.producer.mCurrentOffset
  writing : ∀ w remaining_data, d.phase = .writing w remaining_data →
    remaining_data ≤ w.ptr.length

variable {C : PoolCapacity} {d : Download}

lemma carries_create (C : PoolCapacity) (tempBuffer : BufferChunk) :
    (create C tempBuffer).Carries C where
  session := .fresh C
  full := rfl
  calm := rfl
  requested := by simp [create, Session.fresh, underway]
  small := by simp [create]
  pushed := rfl
  holds := SampleProducer.holds_create tempBuffer
  got := by simp [create, Session.fresh, BufferPool.create, lastPush]
  lastSize := by simp [create, lastPush]
  writing := by simp [create]

/-- A step of the reader. -/
lemma Carries.sessionStep (hd : d.Carries C) {e : Event} (he : IsReader e)
    (hread : ∀ a, e = .read a → d.session.reader = .idle →
      a = randomAccessArgs d.request.1 d.request.2) :
    (d.sessionStep e).1.Carries C := by
  obtain ⟨hchunks, hstream⟩ := act_of_isReader hd.session he
  have hlog : (d.sessionStep e).1.log = d.log := by
    rw [log, log, Download.sessionStep, hstream]
  exact {
    session := hd.session.next e
    full := by
      rw [Download.sessionStep]
      dsimp only
      rw [BufferPool.getSize, hchunks.mCircBuf, hstream]
      exact hd.full
    calm := mAborting_act he hd.calm
    requested := by
      intro a ha
      rcases underway_act he ha with hbefore | ⟨hcall, hidle⟩
      · exact hd.requested a hbefore
      · exact hread a hcall hidle
    small := hd.small
    pushed := hlog ▸ hd.pushed
    holds := hd.holds
    got := by
      rw [Download.sessionStep]
      dsimp only
      rw [hchunks.mGotLastBuffer]
      exact hd.got
    lastSize := by
      rw [Download.sessionStep]
      dsimp only
      rw [hchunks.mLastBufferSize]
      exact hd.lastSize
    writing := hd.writing }

lemma map_fst_log (d : Download) : d.log.map Prod.fst = d.session.stream.map StreamEntry.push := by
  rw [log, List.map_map]
  rfl

/-- What a push leaves in the session. -/
structure Pushed (C : PoolCapacity) (s s' : Session) (b : PushArgs) : Prop where
  session : s'.WellFormed C
  full : s'.pool.getSize = min s'.stream.length C.val
  calm : s'.pool.mAborting = s.pool.mAborting
  reader : s'.reader = s.reader
  stream : s'.stream.map StreamEntry.push = s.stream.map StreamEntry.push ++ [b]
  got : s'.pool.mGotLastBuffer = (b.lastBuffer || s.pool.mGotLastBuffer)
  lastSize : s'.pool.mLastBufferSize
    = if b.lastBuffer then b.lastBufferSize else s.pool.mLastBufferSize

lemma pushed_queueBuffer {s : Session} (hs : s.WellFormed C)
    (hfull : s.pool.getSize = min s.stream.length C.val) (now : ℕ) (b : PushArgs) :
    Pushed C s (queueBuffer now s b) b := by
  have hrunning := hs.running
  have hcapacity := hs.capacity
  have hpool : (s.pool.pushBuffer b now).getSize = min (s.pool.getSize + 1) C.val := by
    rw [BufferPool.getCapacity] at hcapacity
    rw [BufferPool.pushBuffer, if_neg (by simp [hrunning]), ← hcapacity]
    exact Ring.size_pushBack _ _
  have hstream : (s.pushBuffer b now).stream = s.stream ++ [⟨b, s.pool.mThrottle.timePeriod now⟩] :=
    if_neg (by simp [hrunning])
  have hfields : (s.pool.pushBuffer b now).mGotLastBuffer = (b.lastBuffer || s.pool.mGotLastBuffer)
      ∧ (s.pool.pushBuffer b now).mLastBufferSize
        = if b.lastBuffer then b.lastBufferSize else s.pool.mLastBufferSize := by
    rw [BufferPool.pushBuffer, if_neg (by simp [hrunning])]
    refine ⟨?_, rfl⟩
    cases b.lastBuffer <;> rfl
  refine ⟨hs.pushBuffer b now, ?_, (s.pool.pushBuffer_frame b now).2.2.1, rfl, ?_, hfields.1,
    hfields.2⟩
  · show (s.pool.pushBuffer b now).getSize = min (s.pushBuffer b now).stream.length C.val
    rw [hpool, hstream, List.length_append, List.length_singleton]
    omega
  · rw [queueBuffer, hstream, List.map_append, List.map_singleton]

/-- A round of the loop queues a full chunk or none. -/
lemma queued_writeBody (p : SampleProducer) (ptr : List UInt8) (total_size remaining_data : ℕ) :
    (p.writeBody ptr total_size remaining_data).queued = p.queued
      ∨ ∃ c, (p.writeBody ptr total_size remaining_data).queued
          = p.queued ++ [SampleProducer.fullChunk c] := by
  rw [SampleProducer.writeBody]
  split
  · exact .inr ⟨_, rfl⟩
  · exact .inl rfl

/-- The size of a call is that of its bytes. -/
lemma totalSize_eq (w : WriteArgs) : mulU64 w.nmemb w.size = w.ptr.length := by
  have hlt := w.length_lt
  rw [w.length_eq, Nat.mul_comm] at hlt
  rw [mulU64_of_lt hlt, w.length_eq, Nat.mul_comm]

/-- The producer copies a piece and may queue a full chunk. -/
lemma Carries.producerStep (hd : d.Carries C) (hlive : d.lastPush = []) {d' : Download}
    (hrequest : d'.request = d.request) (hlive' : d'.lastPush = [])
    (hwriting : ∀ w remaining_data, d'.phase = .writing w remaining_data →
      remaining_data ≤ w.ptr.length)
    (hholds : d'.producer.Holds d'.received)
    (hpush : d'.session = d.session ∧ d'.producer.queued = d.producer.queued ∨
      ∃ c, Pushed C d.session d'.session (SampleProducer.fullChunk c) ∧
        d'.producer.queued = d.producer.queued ++ [SampleProducer.fullChunk c]) :
    d'.Carries C := by
  have hgot : d.session.pool.mGotLastBuffer = false := by
    have hgot := hd.got
    rw [hlive] at hgot
    simpa using hgot
  have hpushed := hd.pushed
  rw [map_fst_log, hlive, List.append_nil] at hpushed
  rcases hpush with ⟨hsession, hqueued⟩ | ⟨c, hsession, hqueued⟩
  · exact {
      session := hsession ▸ hd.session
      full := hsession ▸ hd.full
      calm := hsession ▸ hd.calm
      requested := by rw [hsession, hrequest]; exact hd.requested
      small := hrequest ▸ hd.small
      pushed := by rw [map_fst_log, hsession, hqueued, hlive', List.append_nil, hpushed]
      holds := hholds
      got := by simp [hsession, hgot, hlive']
      lastSize := fun h => absurd hlive' h
      writing := hwriting }
  · exact {
      session := hsession.session
      full := hsession.full
      calm := hsession.calm.trans hd.calm
      requested := by rw [hsession.reader, hrequest]; exact hd.requested
      small := hrequest ▸ hd.small
      pushed := by
        rw [map_fst_log, hsession.stream, hqueued, hlive', List.append_nil, hpushed]
      holds := hholds
      got := by simp [hsession.got, hgot, hlive', SampleProducer.fullChunk]
      lastSize := fun h => absurd hlive' h
      writing := hwriting }

/-- A round of the loop. -/
lemma Carries.writeRound (hd : d.Carries C) {w : WriteArgs} {remaining_data : ℕ}
    (hphase : d.phase = .writing w remaining_data) (now : ℕ) :
    (d.writeRound w remaining_data now).Carries C := by
  have hle := hd.writing w remaining_data hphase
  have hlive : d.lastPush = [] := by rw [lastPush, hphase]
  rw [Download.writeRound]
  split_ifs with hpos
  · refine hd.producerStep hlive rfl rfl (fun v n hv => ?_) ?_ ?_
    · cases hv
      exact (Nat.sub_le _ _).trans hle
    · dsimp only
      rw [totalSize_eq]
      exact hd.holds.writeBody hle
    · dsimp only
      rcases queued_writeBody d.producer w.ptr (mulU64 w.nmemb w.size) remaining_data with
        h | ⟨c, h⟩
      · refine .inl ⟨?_, h⟩
        rw [h, List.drop_length, List.foldl_nil]
      · refine .inr ⟨c, ?_, h⟩
        rw [h, List.drop_left, List.foldl_cons, List.foldl_nil]
        exact pushed_queueBuffer hd.session hd.full now _
  · exact hd.producerStep hlive rfl rfl (fun v n hv => by cases hv) hd.holds (.inl ⟨rfl, rfl⟩)

/-- The last chunk. -/
lemma Carries.finish (hd : d.Carries C) (hlive : d.lastPush = []) (now : ℕ) :
    (d.finish now).Carries C := by
  have hpush := pushed_queueBuffer hd.session hd.full now
    ⟨d.producer.tempBuffer, true, d.producer.mCurrentOffset⟩
  have hpushed := hd.pushed
  rw [map_fst_log, hlive, List.append_nil] at hpushed
  rw [Download.finish]
  exact {
    session := hpush.session
    full := hpush.full
    calm := hpush.calm.trans hd.calm
    requested := by rw [hpush.reader]; exact hd.requested
    small := hd.small
    pushed := by rw [map_fst_log, hpush.stream, hpushed]; rfl
    holds := hd.holds
    got := by simp [hpush.got, lastPush]
    lastSize := fun _ => by rw [hpush.lastSize, if_pos rfl]
    writing := fun w n hw => by cases hw }

/-- The event asks for less than `2^31` bytes. -/
def SmallRead (e : DownloadEvent) : Prop :=
  ∀ size offsetBytes, e = .readRandomAccess size offsetBytes → size < 2 ^ 31

/-- **One step** of a download. -/
theorem Carries.next (hd : d.Carries C) {e : DownloadEvent} (he : SmallRead e) :
    (machine.next d e).Carries C := by
  cases e with
  | write w =>
      show (d.act (.write w)).1.Carries C
      rw [act]
      split
      · rename_i hphase
        refine hd.producerStep (by rw [lastPush, hphase]) rfl rfl (fun v n hv => ?_) hd.holds
          (.inl ⟨rfl, rfl⟩)
        cases hv
        exact (totalSize_eq w).le
      · exact hd
  | round now =>
      show (d.act (.round now)).1.Carries C
      rw [act]
      split
      · exact hd.writeRound ‹_› now
      · exact hd
  | finish now =>
      show (d.act (.finish now)).1.Carries C
      rw [act]
      split
      · rename_i hphase
        exact hd.finish (by rw [lastPush, hphase]) now
      · exact hd
  | readRandomAccess size offsetBytes =>
      show (d.readStep size offsetBytes).1.Carries C
      rw [readStep]
      split_ifs with hidle
      · have hcall : Carries C { d with request := (size, offsetBytes) } :=
          { hd with
            requested := by
              intro a ha
              rw [show d.session.reader = .idle from hidle] at ha
              cases ha
            small := he size offsetBytes rfl }
        exact hcall.sessionStep trivial fun a ha _ => (Event.read.inj ha).symm
      · exact hd
  | wake => exact hd.sessionStep trivial fun a ha => by cases ha
  | timeout => exact hd.sessionStep trivial fun a ha => by cases ha
  | copy loop => exact hd.sessionStep trivial fun a ha => by cases ha
  | throttleLoop loop => exact hd.sessionStep trivial fun a ha => by cases ha

/-- **Every download carries what it has received**, whatever the division of the bytes into calls
and the interleaving. -/
theorem carries_run (C : PoolCapacity) (tempBuffer : BufferChunk) {es : List DownloadEvent}
    (hes : ∀ e ∈ es, SmallRead e) : (machine.run (create C tempBuffer) es).Carries C :=
  Machine.invariant_run_of_events (K := SmallRead) (fun _ _ hd he => hd.next he)
    (carries_create C tempBuffer) hes

end Download

end StreamFs
