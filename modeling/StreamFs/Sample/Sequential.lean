import StreamFs.Sample.Delivery

/-!
A client that reads a download from its start on: each of its reads asks for the bytes behind those
it has already (`SamplePlugin.cpp`, `BufferPool.cpp`).

* `SequentialReader`: the download and the bytes that the client has put together from the results
  of its reads.
* `got_prefix_received`: they are a beginning of what was received, at every point of every run of
  which the reads fit.
* `got_of_overrun`: a client of which the next chunk has left the ring gets nothing any more.
-/

namespace StreamFs

/-- What the client finds in its buffer, with `0` where nothing was written. -/
def ReadResult.buffer (r : ReadResult) : List UInt8 :=
  (List.range r.ret).map fun k : ℕ => (image r.writes k).getD 0

@[simp] lemma ReadResult.buffer_nothing : ReadResult.nothing.buffer = [] := rfl

/-- The buffer after a read that delivers. -/
lemma ReadResult.Delivers.buffer_eq {r : ReadResult} {bs : List UInt8} (h : r.Delivers bs) :
    r.buffer = bs := by
  rw [ReadResult.buffer, h.ret_eq]
  refine List.ext_getElem (by simp) fun k hk hk' => ?_
  rw [List.getElem_map, List.getElem_range, h.image_eq, place, if_pos (by omega)]
  simp [hk']

/-- A download, and the bytes a client has put together. -/
structure SequentialReader where
  download : Download
  got : List UInt8

namespace SequentialReader

open BufferPool (coveredChunks randomAccessArgs leftSkip rightSkip)
open Download (Carries SmallRead OfProducer Admits underway)

/-- Before the download. -/
def create (C : PoolCapacity) (tempBuffer : BufferChunk) : SequentialReader :=
  ⟨.create C tempBuffer, []⟩

/-- The client reads from where it has come to. -/
def placed (s : SequentialReader) : DownloadEvent → DownloadEvent
  | .readRandomAccess size _ => .readRandomAccess size s.got.length
  | e => e

/-- One event. The client keeps what a read gives it. -/
def act (s : SequentialReader) (e : DownloadEvent) : SequentialReader × Option ReadResult :=
  let result := (s.download.act (s.placed e)).2
  (⟨(s.download.act (s.placed e)).1, s.got ++ (result.map ReadResult.buffer).getD []⟩, result)

/-- The client and the download as a machine. -/
def machine : Machine SequentialReader DownloadEvent (Option ReadResult) := ⟨act⟩

/-- The copy loop of the step, if there is one, is that of a read that fits. -/
def Fits (C : PoolCapacity) (t : Transition SequentialReader DownloadEvent (Option ReadResult)) :
    Prop :=
  Download.Fits C (Download.machine.transition t.before.download (t.before.placed t.event))

/-- The client has a beginning of what was received, and reads behind it. -/
structure InOrder (C : PoolCapacity) (s : SequentialReader) : Prop where
  carries : s.download.Carries C
  beginning : s.got <+: s.download.received
  placed : ∀ a, underway s.download.session.reader = some a →
    s.download.request.2 = s.got.length

/-- No read is under way, and the chunk that the client comes to next has left the ring. -/
structure Overrun (C : PoolCapacity) (s : SequentialReader) : Prop where
  session : s.download.session.WellFormed C
  idle : s.download.session.reader = .idle
  lost : ¬ s.download.FirstHeld C s.got.length

variable {C : PoolCapacity} {s : SequentialReader} {d : Download}

lemma next_download (s : SequentialReader) (e : DownloadEvent) :
    (machine.next s e).download = Download.machine.next s.download (s.placed e) := rfl

lemma got_next (s : SequentialReader) (e : DownloadEvent) : (machine.next s e).got
    = s.got ++ ((machine.output s e).map ReadResult.buffer).getD [] := rfl

lemma output_eq (s : SequentialReader) (e : DownloadEvent) :
    machine.output s e = Download.machine.output s.download (s.placed e) := rfl

lemma smallRead_placed {e : DownloadEvent} (he : SmallRead e) : SmallRead (s.placed e) := by
  cases e with
  | readRandomAccess size offsetBytes =>
      intro size' offsetBytes' heq
      cases heq
      exact he size offsetBytes rfl
  | write w => exact he
  | round now => exact he
  | finish now => exact he
  | wake => exact he
  | timeout => exact he
  | copy loop => exact he
  | throttleLoop loop => exact he

/-! ### Steps of the download -/

/-- What has been received stays received. -/
lemma received_prefix_next (d : Download) (e : DownloadEvent) :
    d.received <+: (Download.machine.next d e).received := by
  show d.received <+: (d.act e).1.received
  cases e with
  | write w =>
      rw [Download.act]
      split <;> exact List.prefix_rfl
  | round now =>
      rw [Download.act]
      split
      · rw [Download.writeRound]
        split_ifs
        · exact List.prefix_append _ _
        · exact List.prefix_rfl
      · exact List.prefix_rfl
  | finish now =>
      rw [Download.act]
      split <;> exact List.prefix_rfl
  | readRandomAccess size offsetBytes =>
      rw [Download.act, Download.readStep]
      split_ifs <;> exact List.prefix_rfl
  | wake => exact List.prefix_rfl
  | timeout => exact List.prefix_rfl
  | copy loop => exact List.prefix_rfl
  | throttleLoop loop => exact List.prefix_rfl

/-- While a read is under way it has no result. -/
lemma result_of_underway {s : Session} {e : Event} {a : ReadArgs}
    (h : underway (s.act e).1.reader = some a) : (s.act e).2 = none := by
  cases e with
  | read b =>
      rw [Session.act] at h ⊢
      split_ifs at h ⊢ with hidle
      · rw [Session.read] at h ⊢
        split_ifs at h ⊢
        · rw [hidle] at h
          cases h
        · rfl
        · rfl
      · rfl
  | wake =>
      simp only [Session.act, Session.wake] at h ⊢
      split
      · rename_i hwaiting
        rw [hwaiting] at h
        dsimp only at h
        split_ifs at h ⊢ <;> first | rfl | cases h
      · rfl
  | timeout =>
      simp only [Session.act, Session.timeout] at h ⊢
      split
      · rename_i hwaiting
        rw [hwaiting] at h
        dsimp only at h
        split_ifs at h ⊢ <;> first | rfl | cases h
      · rfl
  | copy loop =>
      rw [Session.act] at h ⊢
      split at h
      · cases h
      · rfl
  | pushBuffer b now => rfl
  | throttleLoop loop => rfl
  | clear => rw [Session.act]; split_ifs <;> rfl
  | clearToLastRead => rw [Session.act]; split_ifs <;> rfl
  | abortAllOperations => rfl

/-- While a read is under way, nothing is given to the client. -/
lemma underway_next {e : DownloadEvent} {a : ReadArgs}
    (h : underway (Download.machine.next d e).session.reader = some a) :
    Download.machine.output d e = none ∧
      (underway d.session.reader = some a ∧ (Download.machine.next d e).request = d.request ∨
        ∃ size offsetBytes, e = .readRandomAccess size offsetBytes ∧
          (Download.machine.next d e).request = (size, offsetBytes)) := by
  have hproducer : OfProducer e → Download.machine.output d e = none →
      Download.machine.output d e = none ∧
        underway d.session.reader = some a ∧ (Download.machine.next d e).request = d.request := by
    intro he hout
    obtain ⟨hreader, hrequest⟩ := Download.request_next (d := d) he
    exact ⟨hout, hreader ▸ h, hrequest⟩
  have hsession : ∀ e' : Event, Download.IsReader e' → (∀ b, e' ≠ .read b) →
      underway (d.session.act e').1.reader = some a →
        (d.session.act e').2 = none ∧ underway d.session.reader = some a := by
    intro e' he' hread h'
    refine ⟨result_of_underway h', ?_⟩
    rcases Download.underway_act he' h' with hbefore | ⟨hcall, -⟩
    · exact hbefore
    · exact absurd hcall (hread a)
  cases e with
  | write w =>
      refine (hproducer trivial ?_).imp_right .inl
      show (d.act _).2 = none
      rw [Download.act]
      split <;> rfl
  | round now =>
      refine (hproducer trivial ?_).imp_right .inl
      show (d.act _).2 = none
      rw [Download.act]
      split <;> rfl
  | finish now =>
      refine (hproducer trivial ?_).imp_right .inl
      show (d.act _).2 = none
      rw [Download.act]
      split <;> rfl
  | throttleLoop loop => exact (hproducer trivial rfl).imp_right .inl
  | readRandomAccess size offsetBytes =>
      change underway (d.readStep size offsetBytes).1.session.reader = some a at h
      show (d.readStep size offsetBytes).2 = none ∧ (_ ∧ (d.readStep size offsetBytes).1.request = _
        ∨ ∃ size' offsetBytes', _ ∧ (d.readStep size offsetBytes).1.request = _)
      rw [Download.readStep] at h ⊢
      split_ifs at h ⊢ with hidle
      · exact ⟨result_of_underway h, .inr ⟨size, offsetBytes, rfl, rfl⟩⟩
      · exact ⟨rfl, .inl ⟨h, rfl⟩⟩
  | wake =>
      obtain ⟨hout, hbefore⟩ := hsession .wake trivial (fun b hb => by cases hb) h
      exact ⟨hout, .inl ⟨hbefore, rfl⟩⟩
  | timeout =>
      obtain ⟨hout, hbefore⟩ := hsession .timeout trivial (fun b hb => by cases hb) h
      exact ⟨hout, .inl ⟨hbefore, rfl⟩⟩
  | copy loop =>
      obtain ⟨hout, hbefore⟩ := hsession (.copy loop) trivial (fun b hb => by cases hb) h
      exact ⟨hout, .inl ⟨hbefore, rfl⟩⟩

/-! ### Reads that fit -/

/-- A read of which the result comes at the end of what the client has keeps it in order. -/
lemma append_slice_isPrefix {got received : List UInt8} (h : got <+: received) (n : ℕ) :
    got ++ slice received got.length n <+: received := by
  obtain ⟨rest, rfl⟩ := h
  rw [slice, List.drop_left]
  exact (List.prefix_append_right_inj _).mpr (List.take_prefix _ _)

/-- **One step** of which the read fits, if it ends one. -/
theorem InOrder.next (hs : s.InOrder C) {e : DownloadEvent} (he : SmallRead e)
    (hbound : s.download.session.pool.mTotalBufCount ≤ 2 ^ 64)
    (hfits : Fits C (machine.transition s e)) : (machine.next s e).InOrder C where
  carries := hs.carries.next (smallRead_placed he)
  beginning := by
    rw [got_next, next_download]
    refine List.IsPrefix.trans ?_ (received_prefix_next s.download (s.placed e))
    rw [output_eq]
    cases hout : Download.machine.output s.download (s.placed e) with
    | none => simpa using hs.beginning
    | some r =>
        have hserved := (hs.carries.served_iff_fits hbound (s.placed e)).mpr hfits r hout
        rcases Download.output_cases hout with rfl | ⟨a, loop, -, ha, -⟩
        · simpa using hs.beginning
        · have hrequest := hs.placed a (by rw [ha]; rfl)
          rcases hserved with rfl | hdelivers
          · simpa using hs.beginning
          · rw [Option.map_some, Option.getD_some, hdelivers.buffer_eq]
            show s.got ++ slice s.download.received s.download.request.2 s.download.request.1 <+: _
            rw [hrequest]
            exact append_slice_isPrefix hs.beginning _
  placed := by
    intro a ha
    rw [next_download] at ha
    obtain ⟨hout, hrequest⟩ := underway_next ha
    rw [got_next, output_eq, hout, Option.map_none, Option.getD_none, List.append_nil,
      next_download]
    rcases hrequest with ⟨hbefore, hsame⟩ | ⟨size, offsetBytes, hcall, hnew⟩
    · rw [hsame]
      exact hs.placed a hbefore
    · rw [hnew]
      cases e with
      | readRandomAccess size' offsetBytes' => cases hcall; rfl
      | write w => cases hcall
      | round now => cases hcall
      | finish now => cases hcall
      | wake => cases hcall
      | timeout => cases hcall
      | copy loop => cases hcall
      | throttleLoop loop => cases hcall

lemma inOrder_create (C : PoolCapacity) (tempBuffer : BufferChunk) :
    (create C tempBuffer).InOrder C where
  carries := Download.carries_create C tempBuffer
  beginning := List.prefix_rfl
  placed := fun a ha => by cases ha

/-- The client makes the download take as many steps as it takes itself. -/
lemma exists_download_run (s : SequentialReader) {es : List DownloadEvent}
    (hes : ∀ e ∈ es, SmallRead e) :
    ∃ fs, fs.length = es.length ∧ (∀ e ∈ fs, SmallRead e) ∧
      (machine.run s es).download = Download.machine.run s.download fs := by
  induction es generalizing s with
  | nil => exact ⟨[], rfl, by simp, rfl⟩
  | cons e es ih =>
      obtain ⟨he, hrest⟩ := List.forall_mem_cons.mp hes
      obtain ⟨fs, hlength, hsmall, hrun⟩ := ih (machine.next s e) hrest
      refine ⟨s.placed e :: fs, by simp [hlength],
        List.forall_mem_cons.mpr ⟨smallRead_placed he, hsmall⟩, ?_⟩
      rw [Machine.run_cons, hrun, next_download, Machine.run_cons]

/-- The download that the client reads, at every point. -/
lemma carries_run (C : PoolCapacity) (tempBuffer : BufferChunk) {es : List DownloadEvent}
    (hes : ∀ e ∈ es, SmallRead e) :
    (machine.run (create C tempBuffer) es).download.Carries C ∧
      (machine.run (create C tempBuffer) es).download.session.pool.mTotalBufCount ≤ es.length := by
  obtain ⟨fs, hlength, hsmall, hrun⟩ := exists_download_run (create C tempBuffer) hes
  rw [hrun, ← hlength]
  exact ⟨Download.carries_run C tempBuffer hsmall, Download.count_run_le C tempBuffer hsmall⟩

/-- **Nothing is left out or doubled**: at every point of every run of which the reads fit at their
copy loops, what the client has put together is a beginning of what was received. The reads are of
less than `2^31` bytes each, and the run has at most `2^64` events. -/
theorem got_prefix_received (C : PoolCapacity) (tempBuffer : BufferChunk) (es : List DownloadEvent)
    (hsmall : ∀ e ∈ es, SmallRead e) (hlength : es.length ≤ 2 ^ 64)
    (hfits : ∀ t ∈ machine.trace (create C tempBuffer) es, Fits C t) :
    (machine.run (create C tempBuffer) es).got
      <+: (machine.run (create C tempBuffer) es).download.received := by
  refine (Machine.invariant_run_of (I := InOrder C) (Q := fun t => Fits C t ∧ SmallRead t.event ∧
    t.before.download.session.pool.mTotalBufCount ≤ 2 ^ 64)
    (fun s e hs hQ => hs.next hQ.2.1 hQ.2.2 hQ.1) (inOrder_create C tempBuffer) es ?_).beginning
  intro t ht
  refine ⟨hfits t ht, hsmall _ (machine.event_mem_of_mem_trace ht), ?_⟩
  obtain ⟨pre, e, post, rfl, rfl⟩ := machine.exists_of_mem_trace ht
  have hcount := (carries_run C tempBuffer fun e he => hsmall e (List.mem_append_left _ he)).2
  rw [List.length_append] at hlength
  exact hcount.trans (by omega)

/-- A client reads twice ten bytes of a chunk. -/
theorem got_prefix_received_twice :
    (machine.run (create (.ofNat 2) (.filled 0)) [.write (Download.writeFilled 1 13536), .round 0,
      .readRandomAccess 10 0, .copy ⟨0, false⟩, .readRandomAccess 10 0, .copy ⟨0, false⟩]).got
        <+: (machine.run (create (.ofNat 2) (.filled 0)) [.write (Download.writeFilled 1 13536),
          .round 0, .readRandomAccess 10 0, .copy ⟨0, false⟩, .readRandomAccess 10 0,
          .copy ⟨0, false⟩]).download.received ∧
      (machine.run (create (.ofNat 2) (.filled 0)) [.write (Download.writeFilled 1 13536), .round 0,
        .readRandomAccess 10 0, .copy ⟨0, false⟩, .readRandomAccess 10 0,
        .copy ⟨0, false⟩]).got.length = 20 := by
  refine ⟨got_prefix_received (.ofNat 2) (.filled 0) _ (fun e he size offsetBytes h => ?_)
    (by decide) (fun t ht loop a he ha => ?_), by decide +kernel⟩
  · subst h
    simp only [List.mem_cons, DownloadEvent.readRandomAccess.injEq, reduceCtorEq, List.not_mem_nil,
      or_false, false_or] at he
    omega
  · simp only [Machine.trace, List.mem_cons, List.not_mem_nil, or_false] at ht
    rcases ht with rfl | rfl | rfl | rfl | rfl | rfl
    · cases he
    · cases he
    · cases he
    · refine .inr ⟨?_, fun h => absurd rfl h⟩
      show BufferPool.getTotalBufferCount _ ≤ _
      decide +kernel
    · cases he
    · refine .inr ⟨?_, fun h => absurd rfl h⟩
      show BufferPool.getTotalBufferCount _ ≤ _
      decide +kernel

/-! ### A client that is too slow -/

/-- The session is well formed again, and the chunks pushed have not been taken back. -/
structure Grows (C : PoolCapacity) (t t' : Session) : Prop where
  session : t'.WellFormed C
  count : t.pool.mTotalBufCount ≤ t'.pool.mTotalBufCount

section Grows

variable {t : Session}

lemma Grows.refl (ht : t.WellFormed C) : Grows C t t := ⟨ht, le_rfl⟩

lemma grows_queueBuffer (ht : t.WellFormed C) (now : ℕ) (b : PushArgs) :
    Grows C t (Download.queueBuffer now t b) := by
  have hcount : (t.pool.pushBuffer b now).mTotalBufCount = t.pool.mTotalBufCount + 1 := by
    simp [BufferPool.pushBuffer, ht.running]
  exact ⟨ht.pushBuffer b now, (Nat.le_succ _).trans hcount.ge⟩

lemma grows_foldl_queueBuffer (ht : t.WellFormed C) (now : ℕ) (bs : List PushArgs) :
    Grows C t (bs.foldl (Download.queueBuffer now) t) := by
  induction bs generalizing t with
  | nil => exact .refl ht
  | cons b bs ih =>
      obtain ⟨hpushed, hle⟩ := grows_queueBuffer ht now b
      exact ⟨(ih hpushed).session, hle.trans (ih hpushed).count⟩

lemma grows_act (ht : t.WellFormed C) {e : Event} (he : Download.IsReader e) :
    Grows C t (t.act e).1 :=
  ⟨ht.next e, (Download.act_of_isReader ht he).1.mTotalBufCount.ge⟩

end Grows

/-- **One step of a download**, whatever is read. -/
lemma grows_next (hd : d.session.WellFormed C) (e : DownloadEvent) :
    Grows C d.session (Download.machine.next d e).session := by
  show Grows C d.session (d.act e).1.session
  cases e with
  | write w =>
      rw [Download.act]
      split <;> exact .refl hd
  | round now =>
      rw [Download.act]
      split
      · rw [Download.writeRound]
        split_ifs
        · exact grows_foldl_queueBuffer hd now _
        · exact .refl hd
      · exact .refl hd
  | finish now =>
      rw [Download.act]
      split
      · exact grows_queueBuffer hd now _
      · exact .refl hd
  | readRandomAccess size offsetBytes =>
      rw [Download.act, Download.readStep]
      split_ifs
      · exact grows_act hd (e := .read (randomAccessArgs size offsetBytes)) trivial
      · exact .refl hd
  | wake => exact grows_act hd (e := .wake) trivial
  | timeout => exact grows_act hd (e := .timeout) trivial
  | copy loop => exact grows_act hd (e := .copy loop) trivial
  | throttleLoop loop => exact grows_act hd (e := .throttleLoop loop) trivial

/-- The session of a run in which anything is read. -/
lemma session_run (C : PoolCapacity) (tempBuffer : BufferChunk) (es : List DownloadEvent) :
    (machine.run (create C tempBuffer) es).download.session.WellFormed C :=
  Machine.invariant_run (m := machine)
    (I := fun s : SequentialReader => s.download.session.WellFormed C)
    (fun s e hs => (grows_next hs (s.placed e)).session) (.fresh C) es

/-- A read that the guards refuse ends with nothing. -/
lemma read_of_refuses (hidle : d.session.reader = .idle) {size offsetBytes : ℕ}
    (hguards : (d.session.pool.refuses (randomAccessArgs size offsetBytes)).isSome) :
    (Download.machine.next d (.readRandomAccess size offsetBytes)).session.reader = .idle ∧
      Download.machine.output d (.readRandomAccess size offsetBytes) = some .nothing := by
  show (d.readStep size offsetBytes).1.session.reader = .idle ∧
    (d.readStep size offsetBytes).2 = some .nothing
  rw [Download.readStep, if_pos hidle, Download.sessionStep, Session.act]
  dsimp only
  rw [if_pos hidle, Session.read, if_pos hguards]
  exact ⟨hidle, rfl⟩

/-- A read that the guards do not admit ends with nothing. -/
lemma read_of_not_admits (hd : d.Carries C) (hidle : d.session.reader = .idle)
    {size offsetBytes : ℕ} (hsize : size < 2 ^ 31) (hrefused : ¬ d.Admits C size offsetBytes) :
    (Download.machine.next d (.readRandomAccess size offsetBytes)).session.reader = .idle ∧
      Download.machine.output d (.readRandomAccess size offsetBytes) = some .nothing := by
  have hpads : BufferPool.Pads size offsetBytes (randomAccessArgs size offsetBytes) := by
    refine BufferPool.randomAccessArgs_pads _ _ ?_
    have hcovered := BufferPool.coveredChunks_le size offsetBytes
    rw [bufferChunkSize_eq] at *
    omega
  have hguards : (d.session.pool.refuses (randomAccessArgs size offsetBytes)).isSome := by
    rw [← Option.ne_none_iff_isSome]
    intro hpass
    obtain ⟨hend, -, -, hbegun, hheld, hcovered⟩ := BufferPool.of_refuses_eq_none hpass
    rw [hpads.offset_eq] at hend hbegun hheld
    rw [hpads.length_eq, hd.session.capacity] at hcovered
    rw [hd.session.capacity] at hheld
    exact hrefused ⟨hcovered, hheld, hbegun, fun hended => hend (hd.got.mpr hended)⟩
  exact read_of_refuses hidle hguards

/-- The guards refuse a read of which the first chunk has left the ring, whatever its size. -/
lemma refuses_of_lost (hd : d.session.WellFormed C) {offsetBytes : ℕ}
    (hlost : ¬ d.FirstHeld C offsetBytes) (size : ℕ) :
    (d.session.pool.refuses (randomAccessArgs size offsetBytes)).isSome := by
  rw [← Option.ne_none_iff_isSome]
  intro hpass
  obtain ⟨-, -, -, -, hheld, -⟩ := BufferPool.of_refuses_eq_none hpass
  rw [hd.capacity] at hheld
  exact hlost hheld

/-- **One step** leaves a client that was overrun where it is. -/
lemma Overrun.next (hs : s.Overrun C) (e : DownloadEvent) :
    (machine.next s e).Overrun C ∧ (machine.next s e).got = s.got ∧
      ∀ r, machine.output s e = some r → r = .nothing := by
  have hidle := hs.idle
  have hquiet : (Download.machine.next s.download (s.placed e)).session.reader = .idle ∧
      ∀ r, Download.machine.output s.download (s.placed e) = some r → r = .nothing := by
    by_cases hproducer : OfProducer (s.placed e)
    · refine ⟨(Download.request_next hproducer).1.trans hidle, fun r hr => ?_⟩
      rcases Download.output_cases hr with hnothing | ⟨a, loop, -, hreader, -⟩
      · exact hnothing
      · exact absurd (hidle.symm.trans hreader) (by simp)
    · cases e with
      | readRandomAccess size offsetBytes =>
          obtain ⟨hreader, hout⟩ :=
            read_of_refuses hidle (refuses_of_lost hs.session hs.lost size)
          exact ⟨hreader, fun r hr => (Option.some.inj (hout.symm.trans hr)).symm⟩
      | wake =>
          show (s.download.session.act .wake).1.reader = .idle ∧
            ∀ r, (s.download.session.act .wake).2 = some r → r = .nothing
          rw [Session.act, hidle]
          exact ⟨hidle, fun r hr => by cases hr⟩
      | timeout =>
          show (s.download.session.act .timeout).1.reader = .idle ∧
            ∀ r, (s.download.session.act .timeout).2 = some r → r = .nothing
          rw [Session.act, hidle]
          exact ⟨hidle, fun r hr => by cases hr⟩
      | copy loop =>
          show (s.download.session.act (.copy loop)).1.reader = .idle ∧
            ∀ r, (s.download.session.act (.copy loop)).2 = some r → r = .nothing
          rw [Session.act, hidle]
          exact ⟨hidle, fun r hr => by cases hr⟩
      | write w => exact absurd trivial hproducer
      | round now => exact absurd trivial hproducer
      | finish now => exact absurd trivial hproducer
      | throttleLoop loop => exact absurd trivial hproducer
  have hgot : (machine.next s e).got = s.got := by
    rw [got_next, output_eq]
    cases hout : Download.machine.output s.download (s.placed e) with
    | none => simp
    | some r => simp [hquiet.2 r hout]
  have hgrows := grows_next hs.session (s.placed e)
  refine ⟨⟨hgrows.session, hquiet.1, ?_⟩, hgot, hquiet.2⟩
  rw [hgot, next_download]
  exact fun hheld => hs.lost (hgrows.count.trans hheld)

/-- **A client that was overrun stays behind for ever.** Let a run have come to a point where no
read is under way, and the chunk that the client comes to next has left the ring. Then the client
gets nothing any more, whatever it asks for, and had asked for before, and whatever happens. -/
theorem got_of_overrun (C : PoolCapacity) (tempBuffer : BufferChunk) (es es' : List DownloadEvent)
    (hidle : (machine.run (create C tempBuffer) es).download.session.reader = .idle)
    (hlost : ¬ (machine.run (create C tempBuffer) es).download.FirstHeld C
      (machine.run (create C tempBuffer) es).got.length) :
    (machine.run (create C tempBuffer) (es ++ es')).got
        = (machine.run (create C tempBuffer) es).got ∧
      ∀ r ∈ (machine.outputs (machine.run (create C tempBuffer) es) es').reduceOption,
        r = .nothing := by
  rw [Machine.run_append]
  have hover : (machine.run (create C tempBuffer) es).Overrun C :=
    ⟨session_run C tempBuffer es, hidle, hlost⟩
  generalize machine.run (create C tempBuffer) es = s at hover
  clear hidle hlost
  induction es' generalizing s with
  | nil => exact ⟨rfl, by simp [Machine.outputs]⟩
  | cons e es' ih =>
      obtain ⟨hnext, hgot, hnothing⟩ := hover.next e
      obtain ⟨hgot', hnothing'⟩ := ih _ hnext
      refine ⟨hgot'.trans hgot, fun r hr => ?_⟩
      rw [List.reduceOption_mem_iff, Machine.outputs, List.mem_cons] at hr
      rcases hr with hr | hr
      · exact hnothing r hr.symm
      · exact hnothing' r (List.reduceOption_mem_iff.mpr hr)

/-- Two chunks come before the client reads from a ring for one. -/
theorem got_of_overrun_twoChunks :
    (machine.run (create (.ofNat 1) (.filled 0)) ([.write (Download.writeFilled 1 27072),
      .round 0, .round 0] ++ [.readRandomAccess 10 0, .copy ⟨0, false⟩])).got = [] := by
  refine (got_of_overrun (.ofNat 1) (.filled 0) [.write (Download.writeFilled 1 27072), .round 0,
    .round 0] [.readRandomAccess 10 0, .copy ⟨0, false⟩] (by decide +kernel) ?_).1.trans
    (by decide +kernel)
  show ¬ BufferPool.getTotalBufferCount _ ≤ _
  decide +kernel

/-! ### The end of the file -/

/-- The chunks of a download that is over, and its length. -/
lemma exists_count_of_ended (hd : d.Carries C) (hended : d.lastPush ≠ []) :
    ∃ m, d.session.pool.mTotalBufCount = m + 1 ∧
      d.received.length = m * bufferChunkSize + d.producer.mCurrentOffset := by
  obtain ⟨body, period, hlog, hreceived⟩ := hd.received_eq_take hended
  refine ⟨body.length, ?_, ?_⟩
  · rw [hd.count_eq, hlog, List.length_append, List.length_singleton]
  · have hlt := d.producer.offset_lt
    rw [hreceived, List.length_take, BufferPool.length_finishedBytes, BufferPool.finishedLength,
      Nat.succ_mul]
    omega

/-- A read of at least one byte of a download that is over, and that was not empty, gives at least
one byte at its copy loop. -/
lemma ret_pos_of_ended (hd : d.Carries C) {a : ReadArgs}
    (ha : d.session.reader = .admitted a) (hended : d.lastPush ≠ []) (hne : d.received ≠ [])
    (hsize : 0 < d.request.1) (loop : LoopProgress) :
    0 < (d.session.pool.finishRead a loop).1.ret := by
  have hpads := hd.pads ha
  have hfills := hpads.fills
  have hl := hpads.left_lt
  have hr := hpads.right_lt
  have hsmall := hd.small
  have hgot := hd.got.mpr hended
  obtain ⟨m, hcount, hlength⟩ := exists_count_of_ended hd hended
  have hlen : 0 < a.length := by
    rcases Nat.eq_zero_or_pos a.length with h0 | hpos
    · rw [h0] at hfills
      omega
    · exact hpos
  have hskips : ∀ i < a.length, leftSkip a i + rightSkip a i ≤ bufferChunkSize := fun i hi =>
    BufferPool.skips_le hl hr (by omega) hi
  have hitem : ∀ i < a.length, d.session.pool.lastItemCopySize a i
      = if i = m then min d.producer.mCurrentOffset (bufferChunkSize - leftSkip a i - rightSkip a i)
        else bufferChunkSize - leftSkip a i - rightSkip a i := fun i hi =>
    BufferPool.lastItemCopySize_finished hgot (hd.lastSize hended) hcount (hskips i hi)
  have hupper : d.session.pool.bytesBefore a a.length ≤ a.length * bufferChunkSize := by
    refine (Finset.sum_le_card_nsmul _ _ bufferChunkSize fun i hi => ?_).trans_eq (by simp)
    rw [hitem i (Finset.mem_range.mp hi)]
    split_ifs <;> omega
  -- the first chunk alone gives a byte
  have hfirst : 0 < d.session.pool.lastItemCopySize a 0 := by
    have hright : leftSkip a 0 + rightSkip a 0 < bufferChunkSize := by
      rw [leftSkip, if_pos rfl, rightSkip, subU64_of_le hlen]
      split_ifs with hone
      · rw [show a.length = 1 by omega] at hfills
        omega
      · omega
    rw [hitem 0 hlen]
    split_ifs with hm
    · have hpos := List.length_pos_iff.mpr hne
      rw [hlength, ← hm] at hpos
      omega
    · omega
  have hlower : 0 < d.session.pool.bytesBefore a a.length := by
    have hone := d.session.pool.bytesBefore_mono a (Nat.succ_le_of_lt hlen)
    rw [BufferPool.bytesBefore_succ] at hone
    omega
  rw [BufferPool.finishRead_of_pos _ _ _ (hd.getSize_pos ha hlen)]
  have hmod := toSizeT_toInt32_mod (d.session.pool.bytesBefore a a.length)
  dsimp only
  rw [bufferChunkSize_eq] at *
  omega

/-- The call of a read on a download that is over. -/
lemma read_of_ended (hd : d.Carries C) (hidle : d.session.reader = .idle) (hended : d.lastPush ≠ [])
    {size offsetBytes : ℕ} (hsize : size < 2 ^ 31)
    (hadmits : d.Admits C size offsetBytes) :
    (Download.machine.next d (.readRandomAccess size offsetBytes)).session.reader
        = .admitted (randomAccessArgs size offsetBytes) ∧
      (Download.machine.next d (.readRandomAccess size offsetBytes)).request = (size, offsetBytes)
      ∧ (Download.machine.next d (.readRandomAccess size offsetBytes)).lastPush = d.lastPush
      ∧ (Download.machine.next d (.readRandomAccess size offsetBytes)).received = d.received := by
  obtain ⟨hunderway, hrequest⟩ := hd.read_admitted hidle hsize hadmits
  have hgot := hd.got.mpr hended
  change underway (d.readStep size offsetBytes).1.session.reader = _ at hunderway
  show (d.readStep size offsetBytes).1.session.reader = _ ∧ _ ∧
    (d.readStep size offsetBytes).1.lastPush = _ ∧ (d.readStep size offsetBytes).1.received = _
  refine ⟨?_, hrequest, ?_, ?_⟩
  · rw [Download.readStep, if_pos hidle, Download.sessionStep, Session.act] at hunderway ⊢
    dsimp only at hunderway ⊢
    rw [if_pos hidle, Session.read] at hunderway ⊢
    split_ifs at hunderway ⊢ with hrefused hwait
    · rw [hidle] at hunderway
      cases hunderway
    · exact absurd hwait.2 (by simp [hgot])
    · rfl
  · rw [Download.readStep, if_pos hidle]
    rfl
  · rw [Download.readStep, if_pos hidle]
    rfl

/-- Where the last chunk ends. -/
def lastEnd (s : SequentialReader) : ℕ :=
  s.download.session.pool.getTotalBufferCount * bufferChunkSize

/-- The client has come to the end of the last chunk, or its next chunk has left the ring, or it
asks for more chunks than the ring takes. -/
def PastEnd (C : PoolCapacity) (s : SequentialReader) (size : ℕ) : Prop :=
  s.lastEnd ≤ s.got.length ∨ ¬ s.download.FirstHeld C s.got.length ∨
    C.val < coveredChunks size s.got.length

/-- The next read of the client gives it no byte. -/
def ToldEnd (s : SequentialReader) (size : ℕ) : Prop :=
  ∀ loop, ∀ r ∈ (machine.outputs s [.readRandomAccess size 0, .copy loop]).reduceOption, r.ret = 0

/-- A client that has read a download that is over up to some point. -/
lemma toldEnd_iff_pastEnd (hd : s.download.Carries C) (hidle : s.download.session.reader = .idle)
    (hended : s.download.lastPush ≠ []) (hne : s.download.received ≠ []) {size : ℕ}
    (hsize : 0 < size ∧ size < 2 ^ 31) : s.ToldEnd size ↔ s.PastEnd C size := by
  have hpos : 0 < bufferChunkSize := by decide
  refine ⟨fun htold => ?_, fun hrefused => ?_⟩
  · by_contra hcon
    rw [PastEnd] at hcon
    push Not at hcon
    obtain ⟨hbefore, hheld, hcovered⟩ := hcon
    have hover : s.got.length / bufferChunkSize < s.download.session.pool.getTotalBufferCount :=
      (Nat.div_lt_iff_lt_mul hpos).mpr hbefore
    obtain ⟨hreader, hrequest, hpush, hreceived⟩ := read_of_ended hd hidle hended hsize.2
      ⟨hcovered, hheld, hover.le, fun _ => hover⟩
    have hd' : (Download.machine.next s.download
        (.readRandomAccess size s.got.length)).Carries C := hd.next fun size' offsetBytes' heq => by
      cases heq
      exact hsize.2
    have hout : machine.output (machine.next s (.readRandomAccess size 0)) (.copy ⟨0, false⟩) = _ :=
      Download.output_copy hreader ⟨0, false⟩
    have hret := ret_pos_of_ended hd' hreader (by rwa [hpush]) (by rwa [hreceived])
      (by rw [hrequest]; exact hsize.1) ⟨0, false⟩
    refine hret.ne' (htold ⟨0, false⟩ _ ?_)
    rw [List.reduceOption_mem_iff, Machine.outputs, Machine.outputs, Machine.outputs, hout]
    exact List.mem_cons_of_mem _ (List.mem_singleton_self _)
  · have hguards : ¬ s.download.Admits C size s.got.length := by
      rintro ⟨hcovered, hheld, -, hover⟩
      rcases hrefused with hafter | hlost | hmany
      · exact Nat.not_lt.mpr hafter ((Nat.div_lt_iff_lt_mul hpos).mp (hover hended))
      · exact hlost hheld
      · omega
    obtain ⟨hreader, hout⟩ := read_of_not_admits hd hidle hsize.2 hguards
    intro loop r hr
    have hcopy : machine.output (machine.next s (.readRandomAccess size 0)) (.copy loop)
        = none := by
      show (Session.act (Download.machine.next s.download
        (.readRandomAccess size s.got.length)).session (.copy loop)).2 = none
      rw [Session.act, hreader]
    rw [List.reduceOption_mem_iff, Machine.outputs, Machine.outputs, Machine.outputs, hcopy,
      output_eq, List.mem_cons] at hr
    rcases hr with hr | hr
    · rw [Option.some.inj (hr.trans hout)]
      rfl
    · simp at hr

/-- **The end of the file is told where the last chunk ends**, and not where the bytes end. When a
download that was not empty is over and no read is under way, a client that asks for at least one
byte is told that there are no more if and only if the guards have nothing for it, and all that was
received ends before the last chunk does. All reads are of less than `2^31` bytes each. -/
theorem toldEnd_iff (C : PoolCapacity) (tempBuffer : BufferChunk) (es : List DownloadEvent)
    (size : ℕ) (hsmall : ∀ e ∈ es, SmallRead e) (hsize : 0 < size ∧ size < 2 ^ 31)
    (hidle : (machine.run (create C tempBuffer) es).download.session.reader = .idle)
    (hended : (machine.run (create C tempBuffer) es).download.lastPush ≠ [])
    (hne : (machine.run (create C tempBuffer) es).download.received ≠ []) :
    ((machine.run (create C tempBuffer) es).ToldEnd size
        ↔ (machine.run (create C tempBuffer) es).PastEnd C size) ∧
      (machine.run (create C tempBuffer) es).download.received.length
        < (machine.run (create C tempBuffer) es).lastEnd := by
  have hd := (carries_run C tempBuffer hsmall).1
  refine ⟨toldEnd_iff_pastEnd hd hidle hended hne hsize, ?_⟩
  obtain ⟨m, hcount, hlength⟩ := exists_count_of_ended hd hended
  have hlt := (machine.run (create C tempBuffer) es).download.producer.offset_lt
  rw [lastEnd, BufferPool.getTotalBufferCount, hcount, hlength, Nat.succ_mul]
  omega

/-- A client that has all ten bytes of a download is given five more. -/
theorem not_toldEnd_of_all :
    ¬ (machine.run (create (.ofNat 2) (.filled 0)) [.write (Download.writeFilled 1 10), .round 0,
      .round 0, .finish 0, .readRandomAccess 10 0, .copy ⟨0, false⟩]).ToldEnd 5 := by
  intro htold
  have hpast := (toldEnd_iff (.ofNat 2) (.filled 0) _ 5 (fun e he size offsetBytes h => by
    subst h
    simp only [List.mem_cons, DownloadEvent.readRandomAccess.injEq, reduceCtorEq, List.not_mem_nil,
      or_false, false_or] at he
    omega) ⟨by decide, by norm_num⟩ rfl (by decide) (by decide +kernel)).1.mp htold
  rcases hpast with hafter | hlost | hmany
  · revert hafter
    decide +kernel
  · refine hlost ?_
    show BufferPool.getTotalBufferCount _ ≤ _
    decide +kernel
  · revert hmany
    decide +kernel

end SequentialReader

end StreamFs
