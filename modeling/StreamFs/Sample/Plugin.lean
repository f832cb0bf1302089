import StreamFs.Base.Component
import StreamFs.Sample.Delivery

/-!
The sample plugin: one pool and one producer for each stream that has been opened
(`SamplePlugin.cpp`).

* `SamplePlugin`: the pools by their `uri`, and the path of the read that holds `mFopMutex`.
  `open` and the call of `read` wait for the mutex, and `read` keeps it until it returns.
* `machine`: any number of readers call, one of them is served at a time, and the producers of all
  streams go on meanwhile.
* `StreamEvent`, `streamMachine`: one stream by itself. `component`: it is a component of the
  plugin, so that what a stream goes through is a run of its own (`streams_apart`).
* `plugin_served_iff`: a run of the plugin serves all reads of all streams iff all of them fit.
-/

namespace StreamFs

/-- `BUFFER_POOL_SIZE`. -/
def bufferPoolSize : PoolCapacity := .ofNat (100 * 1024)

/-- The pools, and the path of the read under way. -/
structure SamplePlugin where
  mBufferPool : String → Option Download
  reading : Option String

/-- The steps of a producer, and of the loop of its throttle. -/
inductive ProducerEvent where
  | write (w : WriteArgs)
  | round (now : ℕ)
  | finish (now : ℕ)
  | throttleLoop (loop : LoopProgress)

/-- The steps of a read behind its call. -/
inductive ReaderEvent where
  | wake
  | timeout
  | copy (loop : LoopProgress)

/-- The step of the download. -/
def ProducerEvent.toDownload : ProducerEvent → DownloadEvent
  | write w => .write w
  | round now => .round now
  | finish now => .finish now
  | throttleLoop loop => .throttleLoop loop

/-- The step of the download. -/
def ReaderEvent.toDownload : ReaderEvent → DownloadEvent
  | wake => .wake
  | timeout => .timeout
  | copy loop => .copy loop

/-- The events of the plugin. A new producer finds any memory in its chunk. -/
inductive PluginEvent where
  | openStream (uri : String) (tempBuffer : BufferChunk)
  | read (path : String) (size offset : ℕ)
  | reader (e : ReaderEvent)
  | producer (uri : String) (e : ProducerEvent)

/-- The events of one stream. -/
inductive StreamEvent where
  | create (tempBuffer : BufferChunk)
  | step (e : DownloadEvent)

namespace SamplePlugin

/-- No stream has been opened. -/
def create : SamplePlugin := ⟨fun _ => none, none⟩

/-- The stream of a path takes a step. -/
def stepStream (s : SamplePlugin) (path : String) (d : Download) (e : DownloadEvent) :
    SamplePlugin × Option ReadResult :=
  ({ s with mBufferPool := Function.update s.mBufferPool path (some (d.act e).1) }, (d.act e).2)

/-- `open`: a stream that is there already is left alone. -/
def openStream (s : SamplePlugin) (uri : String) (tempBuffer : BufferChunk) : SamplePlugin :=
  if (s.mBufferPool uri).isSome then s
  else
    { s with mBufferPool :=
        Function.update s.mBufferPool uri (some (.create bufferPoolSize tempBuffer)) }

/-- The call of `read`. The mutex is kept where the read does not return at once. -/
def read (s : SamplePlugin) (path : String) (size offset : ℕ) :
    SamplePlugin × Option (String × ReadResult) :=
  match s.mBufferPool path with
  | none => (s, some (path, .nothing))
  | some d =>
      let (s', result) := s.stepStream path d (.readRandomAccess size offset)
      ({ s' with reading := if result.isSome then none else some path }, result.map (path, ·))

/-- A step of the read under way. -/
def readerStep (s : SamplePlugin) (e : ReaderEvent) : SamplePlugin × Option (String × ReadResult) :=
  match s.reading with
  | none => (s, none)
  | some path =>
      match s.mBufferPool path with
      | none => (s, none)
      | some d =>
          let (s', result) := s.stepStream path d e.toDownload
          ({ s' with reading := if result.isSome then none else some path }, result.map (path, ·))

/-- One event, with the result of the read it ends. -/
def act (s : SamplePlugin) : PluginEvent → SamplePlugin × Option (String × ReadResult)
  | .openStream uri tempBuffer =>
      (if s.reading = none then s.openStream uri tempBuffer else s, none)
  | .read path size offset => if s.reading = none then s.read path size offset else (s, none)
  | .reader e => s.readerStep e
  | .producer uri e =>
      match s.mBufferPool uri with
      | none => (s, none)
      | some d => ((s.stepStream uri d e.toDownload).1, none)

/-- The plugin as a machine. -/
def machine : Machine SamplePlugin PluginEvent (Option (String × ReadResult)) := ⟨act⟩

/-- One stream, which is there from the first call of `open` on. -/
def streamMachine : Machine (Option Download) StreamEvent (Option ReadResult) where
  step
    | none, .create tempBuffer => (some (.create bufferPoolSize tempBuffer), none)
    | some d, .create _ => (some d, none)
    | none, .step _ => (none, none)
    | some d, .step e => (some (d.act e).1, (d.act e).2)

/-- The event of the stream that an event of the plugin amounts to. -/
def route (uri : String) (s : SamplePlugin) : PluginEvent → Option StreamEvent
  | .openStream uri' tempBuffer =>
      if s.reading = none ∧ uri' = uri then some (.create tempBuffer) else none
  | .read path size offset =>
      if s.reading = none ∧ path = uri then some (.step (.readRandomAccess size offset)) else none
  | .reader e => if s.reading = some uri then some (.step e.toDownload) else none
  | .producer uri' e => if uri' = uri then some (.step e.toDownload) else none

variable {s : SamplePlugin} {uri : String}

/-! ### One stream -/

/-- A step of a stream, seen from a stream. -/
lemma stepStream_apply (s : SamplePlugin) {path : String} {d : Download}
    (h : s.mBufferPool path = some d) (e : DownloadEvent) (uri : String) :
    (s.stepStream path d e).1.mBufferPool uri
      = if path = uri then streamMachine.next (s.mBufferPool uri) (.step e)
        else s.mBufferPool uri := by
  rw [stepStream]
  dsimp only
  split_ifs with hpath
  · subst hpath
    rw [Function.update_self, h]
    rfl
  · rw [Function.update_of_ne (Ne.symm hpath)]

lemma openStream_apply (s : SamplePlugin) (path : String) (tempBuffer : BufferChunk)
    (uri : String) : (s.openStream path tempBuffer).mBufferPool uri
      = if path = uri then streamMachine.next (s.mBufferPool uri) (.create tempBuffer)
        else s.mBufferPool uri := by
  rw [openStream]
  by_cases hpath : path = uri
  · subst hpath
    rw [if_pos rfl]
    cases h : s.mBufferPool path with
    | none => simp [streamMachine, Machine.next]
    | some d => simp [h, streamMachine, Machine.next]
  · rw [if_neg hpath]
    split_ifs
    · rfl
    · dsimp only
      rw [Function.update_of_ne (Ne.symm hpath)]

/-- **One event**, seen from a stream. -/
theorem next_apply (s : SamplePlugin) (e : PluginEvent) (uri : String) :
    (machine.next s e).mBufferPool uri
      = match route uri s e with
        | some e' => streamMachine.next (s.mBufferPool uri) e'
        | none => s.mBufferPool uri := by
  show (s.act e).1.mBufferPool uri = _
  cases e with
  | openStream path tempBuffer =>
      rw [act, route]
      by_cases hreading : s.reading = none
      · simp only [hreading, if_true, true_and]
        rw [openStream_apply]
        split_ifs <;> rfl
      · simp [hreading]
  | read path size offset =>
      rw [act, route]
      by_cases hreading : s.reading = none
      · simp only [hreading, if_true, true_and]
        rw [read]
        cases h : s.mBufferPool path with
        | none =>
            dsimp only
            split_ifs with hpath
            · rw [← hpath, h]
              rfl
            · rfl
        | some d =>
            dsimp only
            rw [stepStream_apply s h]
            split_ifs <;> rfl
      · simp [hreading]
  | reader e =>
      rw [act, readerStep, route]
      cases hreading : s.reading with
      | none => simp
      | some path =>
          simp only [Option.some.injEq]
          cases h : s.mBufferPool path with
          | none =>
              dsimp only
              split_ifs with hpath
              · rw [← hpath, h]
                rfl
              · rfl
          | some d =>
              dsimp only
              rw [stepStream_apply s h]
              split_ifs <;> rfl
  | producer path e =>
      rw [act, route]
      cases h : s.mBufferPool path with
      | none =>
          dsimp only
          split_ifs with hpath
          · rw [← hpath, h]
            rfl
          · rfl
      | some d =>
          dsimp only
          rw [stepStream_apply s h]
          split_ifs <;> rfl

/-- **Each stream is a component** of the plugin. -/
theorem component (uri : String) :
    machine.Component streamMachine (fun s => s.mBufferPool uri) (route uri) where
  next_of_some s e e' h := by rw [next_apply, h]
  next_of_none s e h := by rw [next_apply, h]

/-- A read that returns is one of a path that has not been opened, or a step of its stream gives the
result. -/
lemma output_cases {e : PluginEvent} {path : String} {r : ReadResult}
    (h : machine.output s e = some (path, r)) :
    (s.mBufferPool path = none ∧ r = .nothing) ∨
      ∃ d e', s.mBufferPool path = some d ∧ route path s e = some (.step e') ∧
        (d.act e').2 = some r := by
  change (s.act e).2 = some (path, r) at h
  cases e with
  | openStream uri tempBuffer => cases h
  | read path' size offset =>
      rw [act] at h
      split_ifs at h with hreading
      rw [read] at h
      cases hd : s.mBufferPool path' with
      | none =>
          rw [hd] at h
          cases h
          exact .inl ⟨hd, rfl⟩
      | some d =>
          rw [hd] at h
          obtain ⟨r', hr, heq⟩ := Option.map_eq_some_iff.mp h
          cases heq
          exact .inr ⟨d, _, hd, if_pos ⟨hreading, rfl⟩, hr⟩
  | reader e =>
      rw [act, readerStep] at h
      cases hreading : s.reading with
      | none => simp [hreading] at h
      | some path' =>
          rw [hreading] at h
          cases hd : s.mBufferPool path' with
          | none => simp [hd] at h
          | some d =>
              simp only [hd] at h
              obtain ⟨r', hr, heq⟩ := Option.map_eq_some_iff.mp h
              cases heq
              exact .inr ⟨d, _, hd, if_pos hreading, hr⟩
  | producer uri e =>
      rw [act] at h
      split at h <;> cases h

/-- **Streams are apart.** Whatever happens to the other streams, each stream is in the state it
would be in by itself after the events that concern it, and each result of a read is one of the
stream of its path by itself, or nothing where the path has not been opened. -/
theorem streams_apart (es : List PluginEvent) (uri : String) :
    (machine.run create es).mBufferPool uri
        = streamMachine.run none (machine.routed (route uri) create es) ∧
      ∀ t ∈ machine.trace create es, ∀ r, t.output = some (uri, r) →
        (t.before.mBufferPool uri = none ∧ r = .nothing) ∨
          ∃ u ∈ streamMachine.trace none (machine.routed (route uri) create es),
            u.before = t.before.mBufferPool uri ∧ u.output = some r := by
  refine ⟨(component uri).view_run create es, fun t ht r hr => ?_⟩
  obtain ⟨pre, e, post, rfl, rfl⟩ := machine.exists_of_mem_trace ht
  rcases output_cases hr with h | ⟨d, e', hd, hroute, hout⟩
  · exact .inl h
  · refine .inr ⟨_, (component uri).transition_mem_trace ht hroute, rfl, ?_⟩
    show streamMachine.output ((machine.run create pre).mBufferPool uri) _ = some r
    rw [hd]
    exact hout

/-! ### The reads of all streams -/

/-- An open stream is a download. -/
lemma run_some (d : Download) (es : List StreamEvent) :
    ∃ steps, streamMachine.run (some d) es = some (Download.machine.run d steps) ∧
      steps.length ≤ es.length ∧ ∀ e ∈ steps, .step e ∈ es := by
  induction es generalizing d with
  | nil => exact ⟨[], rfl, le_rfl, by simp⟩
  | cons e es ih =>
      cases e with
      | create tempBuffer =>
          obtain ⟨steps, hrun, hlength, hsteps⟩ := ih d
          exact ⟨steps, hrun, hlength.trans (Nat.le_succ _),
            fun e he => List.mem_cons_of_mem _ (hsteps e he)⟩
      | step e =>
          obtain ⟨steps, hrun, hlength, hsteps⟩ := ih (d.act e).1
          refine ⟨e :: steps, hrun, Nat.succ_le_succ hlength, fun e' he => ?_⟩
          rcases List.mem_cons.mp he with rfl | he
          · exact List.mem_cons_self ..
          · exact List.mem_cons_of_mem _ (hsteps e' he)

/-- A stream is a download from its first call of `open` on. -/
lemma run_none {es : List StreamEvent} {d : Download} (h : streamMachine.run none es = some d) :
    ∃ tempBuffer steps, d = Download.machine.run (.create bufferPoolSize tempBuffer) steps ∧
      steps.length ≤ es.length ∧ ∀ e ∈ steps, .step e ∈ es := by
  induction es with
  | nil => cases h
  | cons e es ih =>
      cases e with
      | create tempBuffer =>
          obtain ⟨steps, hrun, hlength, hsteps⟩ := run_some (.create bufferPoolSize tempBuffer) es
          exact ⟨tempBuffer, steps, Option.some.inj (h.symm.trans hrun),
            hlength.trans (Nat.le_succ _), fun e he => List.mem_cons_of_mem _ (hsteps e he)⟩
      | step e =>
          obtain ⟨tempBuffer, steps, hrun, hlength, hsteps⟩ := ih h
          exact ⟨tempBuffer, steps, hrun, hlength.trans (Nat.le_succ _),
            fun e he => List.mem_cons_of_mem _ (hsteps e he)⟩

/-- The event asks for less than `2^31` bytes. -/
def SmallRead (e : PluginEvent) : Prop :=
  ∀ path size offset, e = .read path size offset → size < 2 ^ 31

/-- What is routed to a stream asks for less than `2^31` bytes. -/
lemma smallRead_of_route {e : PluginEvent} (he : SmallRead e) {e' : DownloadEvent}
    (h : route uri s e = some (.step e')) : Download.SmallRead e' := by
  intro size offsetBytes heq
  cases e with
  | openStream path tempBuffer =>
      rw [route] at h
      split_ifs at h
      cases h
  | read path size' offset =>
      rw [route] at h
      split_ifs at h
      cases h
      cases heq
      exact he path size offsetBytes rfl
  | reader e =>
      rw [route] at h
      split_ifs at h
      cases h
      cases e <;> cases heq
  | producer path e =>
      rw [route] at h
      split_ifs at h
      cases h
      cases e <;> cases heq

/-- Every open stream carries what it has received, and has queued no more chunks than there were
events. -/
lemma carries_stream {es : List PluginEvent} (hsmall : ∀ e ∈ es, SmallRead e) {d : Download}
    (hd : (machine.run create es).mBufferPool uri = some d) :
    d.Carries bufferPoolSize ∧ d.session.pool.mTotalBufCount ≤ es.length := by
  have hview := (component uri).view_run create es
  rw [hd] at hview
  obtain ⟨tempBuffer, steps, rfl, hlength, hsteps⟩ := run_none hview.symm
  have hrouted := machine.length_routed_le (route uri) create es
  have hsteps' : ∀ e ∈ steps, Download.SmallRead e := by
    intro e he
    obtain ⟨t, ht, hroute⟩ := Machine.exists_of_mem_routed (hsteps e he)
    exact smallRead_of_route (hsmall _ (machine.event_mem_of_mem_trace ht)) hroute
  exact ⟨Download.carries_run bufferPoolSize tempBuffer hsteps',
    (Download.count_run_le bufferPoolSize tempBuffer hsteps').trans (hlength.trans hrouted)⟩

/-- A read that returns with the step returns nothing, or delivers the bytes of its stream. -/
def PluginServed (t : Transition SamplePlugin PluginEvent (Option (String × ReadResult))) : Prop :=
  ∀ path r, t.output = some (path, r) → r = .nothing ∨
    ∃ d, t.before.mBufferPool path = some d ∧
      r.Delivers (slice d.received d.request.2 d.request.1)

/-- The copy loop of the step is that of a read that fits. -/
def PluginFits (t : Transition SamplePlugin PluginEvent (Option (String × ReadResult))) : Prop :=
  ∀ path d loop a, t.event = .reader (.copy loop) → t.before.reading = some path →
    t.before.mBufferPool path = some d → d.session.reader = .admitted a →
      d.ReadFits bufferPoolSize d.request.1 d.request.2

/-- The copy of the read under way. -/
lemma output_copy {path : String} {d : Download} {a : ReadArgs} (loop : LoopProgress)
    (hreading : s.reading = some path) (hd : s.mBufferPool path = some d)
    (ha : d.session.reader = .admitted a) :
    machine.output s (.reader (.copy loop))
      = some (path, (d.session.pool.finishRead a loop).1) := by
  show (s.readerStep (.copy loop)).2 = _
  simp only [readerStep, hreading, hd]
  show (d.act (.copy loop)).2.map _ = _
  rw [show (d.act (.copy loop)).2 = _ from Download.output_copy ha loop]
  rfl

/-- A result that a copy loop has given belongs to the copy of the read under way. -/
lemma event_of_route {e : PluginEvent} {path : String} {loop : LoopProgress}
    (h : route path s e = some (.step (.copy loop))) :
    e = .reader (.copy loop) ∧ s.reading = some path := by
  cases e with
  | openStream uri tempBuffer =>
      rw [route] at h
      split_ifs at h
      cases h
  | read path' size offset =>
      rw [route] at h
      split_ifs at h
      cases h
  | reader e =>
      rw [route] at h
      split_ifs at h with hreading
      cases e <;> cases h
      exact ⟨rfl, hreading⟩
  | producer uri e =>
      rw [route] at h
      split_ifs at h
      cases e <;> cases h

/-- **All streams are served.** For any number of streams and readers, with the producers of all
streams at work: every read of an open stream returns nothing or the bytes that were received for
this stream at its offset, if and only if every copy loop is that of a read that fits. The reads are
of less than `2^31` bytes each, and the run has at most `2^64` events. -/
theorem plugin_served_iff (es : List PluginEvent) (hsmall : ∀ e ∈ es, SmallRead e)
    (hlength : es.length ≤ 2 ^ 64) :
    (∀ t ∈ machine.trace create es, PluginServed t)
      ↔ ∀ t ∈ machine.trace create es, PluginFits t := by
  refine forall₂_congr fun t ht => ?_
  obtain ⟨pre, e, post, rfl, rfl⟩ := machine.exists_of_mem_trace ht
  rw [List.length_append] at hlength
  have hcarries : ∀ path d, (machine.run create pre).mBufferPool path = some d →
      d.Carries bufferPoolSize ∧ d.session.pool.mTotalBufCount ≤ 2 ^ 64 := by
    intro path d hd
    obtain ⟨hcarries, hcount⟩ :=
      carries_stream (fun e he => hsmall e (List.mem_append_left _ he)) hd
    exact ⟨hcarries, by omega⟩
  constructor
  · intro hserved path d loop a he hreading hd ha
    simp only [Machine.transition] at he hreading hd
    subst he
    obtain ⟨hcarries, hcount⟩ := hcarries path d hd
    rcases hserved path _ (output_copy loop hreading hd ha) with hnothing | ⟨d', hd', hdelivers⟩
    · exact hcarries.readFits_of_nothing ha hnothing
    · obtain rfl : d = d' := Option.some.inj (hd.symm.trans hd')
      exact (hcarries.delivers_iff ha hcount loop).mp hdelivers
  · intro hfits path r hr
    rcases output_cases hr with ⟨-, hnothing⟩ | ⟨d, e', hd, hroute, hout⟩
    · exact .inl hnothing
    · obtain ⟨hcarries, hcount⟩ := hcarries path d hd
      rcases Download.output_cases (d := d) hout with hnothing | ⟨a, loop, rfl, ha, rfl⟩
      · exact .inl hnothing
      · obtain ⟨rfl, hreading⟩ := event_of_route hroute
        exact .inr ⟨d, hd, (hcarries.delivers_iff ha hcount loop).mpr
          (hfits path d loop a rfl hreading hd ha)⟩

/-- Two streams are open, a chunk of each is on its way, and the first of them is read. -/
def twoStreams : List PluginEvent :=
  [.openStream "test1.tst" (.filled 0), .openStream "test2.tst" (.filled 0),
    .producer "test1.tst" (.write (Download.writeFilled 1 9024)),
    .producer "test2.tst" (.write (Download.writeFilled 2 9024)),
    .producer "test1.tst" (.round 0), .read "test1.tst" 10 5, .producer "test2.tst" (.round 0)]

/-- The read of the first stream is served. -/
theorem plugin_served_two :
    (∀ t ∈ machine.trace create (twoStreams ++ [.reader (.copy ⟨0, false⟩)]), PluginServed t) ∧
      ((machine.outputs create (twoStreams ++ [.reader (.copy ⟨0, false⟩)])).reduceOption.map
        fun r => (r.1, r.2.ret)) = [("test1.tst", 10)] := by
  refine ⟨(plugin_served_iff _ (fun e he path size offset h => ?_) (by decide)).mpr
    (fun t ht path d loop a he hreading hd ha => ?_), by decide +kernel⟩
  · subst h
    simp only [twoStreams, List.cons_append, List.nil_append, List.mem_cons,
      PluginEvent.read.injEq, reduceCtorEq, List.not_mem_nil, or_false, false_or] at he
    omega
  · rw [Machine.trace_append, List.mem_append] at ht
    rcases ht with ht | ht
    · have hevent := machine.event_mem_of_mem_trace ht
      rw [he] at hevent
      simp [twoStreams] at hevent
    · rw [List.mem_singleton.mp ht] at hreading hd
      obtain rfl : "test1.tst" = path :=
        Option.some.inj ((show _ = _ by decide +kernel).symm.trans hreading)
      have hfacts : ((machine.run create twoStreams).mBufferPool "test1.tst").map
          (fun d => (d.session.pool.getTotalBufferCount, d.request, d.received.length))
            = some (1, (10, 5), 9024) := by decide +kernel
      change (machine.run create twoStreams).mBufferPool "test1.tst" = some d at hd
      rw [hd] at hfacts
      simp only [Option.map_some, Option.some.injEq, Prod.mk.injEq] at hfacts
      obtain ⟨hcount, hrequest, hreceived⟩ := hfacts
      refine .inr ⟨?_, fun _ => .inr (.inl ?_)⟩
      · rw [Download.FirstHeld, hcount, hrequest]
        decide
      · rw [hrequest, hreceived]
        decide

end SamplePlugin

end StreamFs
