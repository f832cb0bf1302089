import StreamFs.Fuse.Poll

/-!
The readiness of one file and the callbacks on the others.

* `ReadinessIndependent`: all along a history, a poll of the file reports what it would have
  reported had the callbacks on other files not taken place.
* `Harmless`: a callback that leaves the end-of-file flag of every client as it is.
* `readiness_independent_iff`: the readiness is independent of other files exactly along the
  histories of which the callbacks on other files are harmless.  The flag belongs to the client and
  not to the file, so every other callback on another file is seen by the next poll.
-/

namespace StreamFs

namespace IFuse

instance (f : IFuse) (id : PluginFilePair) : DecidablePred (f.OnFile id)
  | .readCallback _ path _ _ _ => inferInstanceAs (Decidable (f.pollId path = some id))
  | .poll _ path _ => inferInstanceAs (Decidable (f.pollId path = some id))
  | .notifyPoll provider filename => inferInstanceAs (Decidable ((provider, filename) = id))

/-- Polls of the file `id` report the same after each part of the history `es` as after the
callbacks of it that are on the file. -/
def ReadinessIndependent (f : IFuse) (id : PluginFilePair) (es : List FuseEvent) : Prop :=
  ∀ fs, fs <+: es → ∀ ctx path ph, f.pollId path = some id →
    ((machine.run f fs).poll ctx path ph).1.pollin
      = ((machine.run f (fs.filter (f.OnFile id))).poll ctx path ph).1.pollin

/-- A read that is short if and only if the flag of the client is up already; a notification of a
file on which no client with its flag up has a handle. -/
def Harmless (f : IFuse) : FuseEvent → Prop
  | .readCallback ctx path size _ read =>
      path = debugFilePath ∨ path = tsDumpFilePath ∨ ∀ client, ctx = some client →
        (toSizeT (nodeRead (findProvider f.fsProviders path) path read) < size
          ↔ f.mEofReached.lookup (fuseContextToId client) = some true)
  | .poll _ _ _ => True
  | .notifyPoll provider filename => ∀ client : FuseContext,
      (f.handleOf (provider, filename) (fuseContextToId client)).isSome →
        f.mEofReached.lookup (fuseContextToId client) ≠ some true

/-- The two states have the files of `f` and the same handles for the file `id`. -/
structure SameFile (f : IFuse) (id : PluginFilePair) (s t : IFuse) : Prop where
  left : s.fsProviders = f.fsProviders
  right : t.fsProviders = f.fsProviders
  handles : s.mPollHandles.lookup id = t.mPollHandles.lookup id

/-- The flags of the same clients are up. -/
def SameReadiness (s t : IFuse) : Prop :=
  ∀ client : FuseContext, s.mEofReached.lookup (fuseContextToId client) = some true
    ↔ t.mEofReached.lookup (fuseContextToId client) = some true

variable {f s t : IFuse} {id : PluginFilePair}

lemma pollId_congr (h : s.fsProviders = f.fsProviders) (path : Path) :
    s.pollId path = f.pollId path := by
  rw [pollId, h, pollId]

/-! ### The handles of a file -/

lemma mPollHandles_readCallback (f : IFuse) (ctx : Option FuseContext) (path : Path) (size : ℕ)
    (offset read : ℤ) :
    (f.readCallback ctx path size offset read).2.mPollHandles = f.mPollHandles := by
  rw [readCallback]
  split_ifs
  · rfl
  · rfl
  · cases ctx <;> rfl

/-- A registration changes the handles of its own file only. -/
lemma lookup_registerPoll_of_ne {p : VirtualFSProvider} {fileName : String}
    (h : (p.getName, fileName) ≠ id) (ctx : Option FuseContext) (ph : Option PollHandle) :
    (f.registerPoll fileName p ctx ph).2.mPollHandles.lookup id = f.mPollHandles.lookup id := by
  cases ctx with
  | none => rfl
  | some ctx =>
      cases ph with
      | none => rfl
      | some ph => exact AList.lookup_insert_ne h.symm

/-- A notification changes the handles of its own file only. -/
lemma lookup_notifyPoll_of_ne {provider filename : String} (h : (provider, filename) ≠ id) :
    (f.notifyPoll provider filename).2.mPollHandles.lookup id = f.mPollHandles.lookup id := by
  rw [notifyPoll]
  split
  · rfl
  · exact AList.lookup_insert_ne h.symm

/-- The handles of the file that a registration leaves are given by those before it. -/
lemma lookup_registerPoll_congr (h : s.mPollHandles.lookup id = t.mPollHandles.lookup id)
    {p q : VirtualFSProvider} (hp : p.getName = id.1) (hq : q.getName = id.1)
    (ctx : Option FuseContext) (ph : Option PollHandle) :
    (s.registerPoll id.2 p ctx ph).2.mPollHandles.lookup id
      = (t.registerPoll id.2 q ctx ph).2.mPollHandles.lookup id := by
  have hpid : (p.getName, id.2) = id := Prod.ext hp rfl
  have hqid : (q.getName, id.2) = id := Prod.ext hq rfl
  cases ctx with
  | none => exact h
  | some ctx =>
      cases ph with
      | none => exact h
      | some ph =>
          dsimp only [registerPoll]
          rw [hpid, hqid, AList.lookup_insert, AList.lookup_insert, h]

/-- The handles of the file that its notification leaves are given by those before it. -/
lemma lookup_notifyPoll_congr (h : s.mPollHandles.lookup id = t.mPollHandles.lookup id) :
    (s.notifyPoll id.1 id.2).2.mPollHandles.lookup id
      = (t.notifyPoll id.1 id.2).2.mPollHandles.lookup id := by
  simp only [notifyPoll, h]
  cases ht : t.mPollHandles.lookup id with
  | none => rw [h, ht]
  | some ctxMap => simp only [AList.lookup_insert]

/-- Callbacks on other files leave the handles of the file alone. -/
lemma lookup_next_of_not_onFile {e : FuseEvent} (he : ¬ f.OnFile id e) :
    (machine.next f e).mPollHandles.lookup id = f.mPollHandles.lookup id := by
  cases e with
  | readCallback ctx path size offset read =>
      exact congrArg (AList.lookup id) (mPollHandles_readCallback f ctx path size offset read)
  | poll ctx path ph =>
      show (f.poll ctx path ph).2.mPollHandles.lookup id = _
      cases hpath : f.pollId path with
      | none => rw [poll_of_pollId_none hpath]
      | some g =>
          obtain ⟨p, hname, hpoll⟩ := poll_of_pollId_some hpath ctx ph
          have hne : (p.getName, g.2) ≠ id := by
            rintro rfl
            exact he (by rw [OnFile, hpath, hname])
          rw [hpoll, lookup_registerPoll_of_ne hne]
  | notifyPoll provider filename => exact lookup_notifyPoll_of_ne he

/-- Callbacks on the file do the same to its handles in both states. -/
lemma lookup_next_congr {e : FuseEvent} (he : f.OnFile id e) (h : SameFile f id s t) :
    (machine.next s e).mPollHandles.lookup id = (machine.next t e).mPollHandles.lookup id := by
  cases e with
  | readCallback ctx path size offset read =>
      show (s.readCallback ctx path size offset read).2.mPollHandles.lookup id
        = (t.readCallback ctx path size offset read).2.mPollHandles.lookup id
      rw [mPollHandles_readCallback, mPollHandles_readCallback, h.handles]
  | poll ctx path ph =>
      obtain ⟨p, hp, hs⟩ := poll_of_pollId_some ((pollId_congr h.left path).trans he) ctx ph
      obtain ⟨q, hq, ht⟩ := poll_of_pollId_some ((pollId_congr h.right path).trans he) ctx ph
      show (s.poll ctx path ph).2.mPollHandles.lookup id
        = (t.poll ctx path ph).2.mPollHandles.lookup id
      rw [hs, ht]
      exact lookup_registerPoll_congr h.handles hp hq ctx ph
  | notifyPoll provider filename =>
      obtain rfl : (provider, filename) = id := he
      exact lookup_notifyPoll_congr h.handles

/-- Both states take a callback on the file. -/
lemma SameFile.next {e : FuseEvent} (he : f.OnFile id e) (h : SameFile f id s t) :
    SameFile f id (machine.next s e) (machine.next t e) where
  left := (fsProviders_next s e).trans h.left
  right := (fsProviders_next t e).trans h.right
  handles := lookup_next_congr he h

lemma onFile_congr (h : s.fsProviders = f.fsProviders) (e : FuseEvent) :
    s.OnFile id e ↔ f.OnFile id e := by
  cases e with
  | readCallback ctx path size offset read => rw [OnFile, OnFile, pollId_congr h]
  | poll ctx path ph => rw [OnFile, OnFile, pollId_congr h]
  | notifyPoll provider filename => rw [OnFile, OnFile]

/-- Only the first state takes a callback on another file. -/
lemma SameFile.next_left {e : FuseEvent} (he : ¬ f.OnFile id e) (h : SameFile f id s t) :
    SameFile f id (machine.next s e) t where
  left := (fsProviders_next s e).trans h.left
  right := h.right
  handles :=
    (lookup_next_of_not_onFile fun hs => he ((onFile_congr h.left e).mp hs)).trans h.handles

/-! ### The flags of the clients -/

/-- Callbacks on the file do the same to the flags in both states. -/
lemma SameReadiness.next {e : FuseEvent} (he : f.OnFile id e) (h : SameFile f id s t)
    (hr : SameReadiness s t) : SameReadiness (machine.next s e) (machine.next t e) := by
  intro client
  cases e with
  | readCallback ctx path size offset read =>
      show (s.readCallback ctx path size offset read).2.mEofReached.lookup _ = _
        ↔ (t.readCallback ctx path size offset read).2.mEofReached.lookup _ = _
      rw [lookup_eof_readCallback, lookup_eof_readCallback, h.left, h.right]
      split_ifs
      · exact Iff.rfl
      · exact hr client
  | poll ctx path ph =>
      show (s.poll ctx path ph).2.mEofReached.lookup _ = _
        ↔ (t.poll ctx path ph).2.mEofReached.lookup _ = _
      rw [eof_poll, eof_poll]
      exact hr client
  | notifyPoll provider filename =>
      obtain rfl : (provider, filename) = id := he
      show (s.notifyPoll provider filename).2.mEofReached.lookup _ = _
        ↔ (t.notifyPoll provider filename).2.mEofReached.lookup _ = _
      rw [lookup_eof_notifyPoll, lookup_eof_notifyPoll, handleOf, handleOf, h.handles]
      split_ifs
      · exact Iff.rfl
      · exact hr client

/-- **One callback on another file** leaves the readiness alone iff it is harmless. -/
lemma sameReadiness_next_iff (e : FuseEvent) :
    SameReadiness (machine.next f e) f ↔ f.Harmless e := by
  cases e with
  | readCallback ctx path size offset read =>
      show (∀ client : FuseContext,
        (f.readCallback ctx path size offset read).2.mEofReached.lookup _ = _ ↔ _) ↔ _
      simp only [lookup_eof_readCallback, Harmless]
      by_cases hdebug : path = debugFilePath
      · simp [hdebug]
      · by_cases hdump : path = tsDumpFilePath
        · simp [hdump]
        · simp only [hdebug, hdump, ne_eq, not_false_eq_true, and_true, false_or]
          constructor
          · rintro h client rfl
            simpa using h client
          · intro h client
            split_ifs with hctx
            · obtain ⟨client', rfl, hid⟩ := Option.map_eq_some_iff.mp hctx
              rw [← hid]
              simpa using h client' rfl
            · exact Iff.rfl
  | poll ctx path ph =>
      refine ⟨fun _ => trivial, fun _ client => ?_⟩
      show (f.poll ctx path ph).2.mEofReached.lookup _ = _ ↔ _
      rw [eof_poll]
  | notifyPoll provider filename =>
      show (∀ client : FuseContext,
        (f.notifyPoll provider filename).2.mEofReached.lookup _ = _ ↔ _) ↔ _
      simp only [lookup_eof_notifyPoll, Harmless]
      refine forall_congr' fun client => ?_
      by_cases h : (f.handleOf (provider, filename) (fuseContextToId client)).isSome
      · simp [h]
      · simp [h]

lemma SameReadiness.symm (h : SameReadiness s t) : SameReadiness t s :=
  fun client => (h client).symm

lemma SameReadiness.trans {u : IFuse} (h : SameReadiness s t) (h' : SameReadiness t u) :
    SameReadiness s u := fun client => (h client).trans (h' client)

/-- Polls of the file report the same in states of the same readiness, and in no others. -/
lemma pollin_eq_iff {path : Path} (hs : s.pollId path = some id) (ht : t.pollId path = some id)
    (client : FuseContext) (ph : PollHandle) :
    (s.poll (some client) path (some ph)).1.pollin = (t.poll (some client) path (some ph)).1.pollin
      ↔ (s.mEofReached.lookup (fuseContextToId client) = some true
          ↔ t.mEofReached.lookup (fuseContextToId client) = some true) := by
  rw [Bool.eq_iff_iff, pollin_iff hs, pollin_iff ht, not_iff_not]

/-- A poll without context or handle reports nothing. -/
lemma pollin_of_incomplete (f : IFuse) {ctx : Option FuseContext} {ph : Option PollHandle}
    (h : ctx = none ∨ ph = none) (path : Path) : (f.poll ctx path ph).1.pollin = false := by
  cases hpath : f.pollId path with
  | none => rw [poll_of_pollId_none hpath]
  | some id =>
      obtain ⟨p, -, hpoll⟩ := poll_of_pollId_some hpath ctx ph
      rw [hpoll]
      rcases h with rfl | rfl
      · rfl
      · cases ctx <;> rfl

lemma fsProviders_run (f : IFuse) (es : List FuseEvent) :
    (machine.run f es).fsProviders = f.fsProviders :=
  Machine.invariant_run (I := fun s => s.fsProviders = f.fsProviders)
    (fun s e hs => (fsProviders_next s e).trans hs) rfl es

/-- Independence of other files is equal readiness with and without the callbacks on them. -/
lemma readinessIndependent_iff_sameReadiness {path : Path} (h : f.pollId path = some id)
    (es : List FuseEvent) :
    f.ReadinessIndependent id es ↔ ∀ fs, fs <+: es →
      SameReadiness (machine.run f fs) (machine.run f (fs.filter (f.OnFile id))) := by
  refine forall₂_congr fun fs _ => ?_
  have hid : ∀ gs path', f.pollId path' = some id → (machine.run f gs).pollId path' = some id :=
    fun gs path' hpath => (pollId_congr (fsProviders_run f gs) path').trans hpath
  constructor
  · intro hpolls client
    exact (pollin_eq_iff (hid _ path h) (hid _ path h) client 0).mp
      (hpolls (some client) path (some 0) h)
  · intro hready ctx path' ph hpath
    cases ctx with
    | none => rw [pollin_of_incomplete _ (Or.inl rfl), pollin_of_incomplete _ (Or.inl rfl)]
    | some client =>
        cases ph with
        | none => rw [pollin_of_incomplete _ (Or.inr rfl), pollin_of_incomplete _ (Or.inr rfl)]
        | some ph =>
            exact (pollin_eq_iff (hid _ path' hpath) (hid _ path' hpath) client ph).mpr
              (hready client)

/-- **The readiness of a file is independent of the other files** along a history, if and only if
each callback of the history on another file is harmless. -/
theorem readiness_independent_iff (f : IFuse) {path : Path} {id : PluginFilePair}
    (h : f.pollId path = some id) (es : List FuseEvent) :
    f.ReadinessIndependent id es
      ↔ ∀ t ∈ machine.trace f es, ¬ f.OnFile id t.event → t.before.Harmless t.event := by
  rw [readinessIndependent_iff_sameReadiness h]
  refine Machine.forall_filter_iff (F := SameFile f id) (A := SameReadiness)
    (Q := fun t => t.before.Harmless t.event) (fun s t e he hF => hF.next he)
    (fun s t e he hF => hF.next_left he) (fun s t e he hF hA => hA.next he hF)
    (fun s t e _ _ hA => ?_) ⟨rfl, rfl, rfl⟩ (fun _ => Iff.rfl) es
  show SameReadiness (machine.next s e) t ↔ s.Harmless e
  rw [← sameReadiness_next_iff]
  exact ⟨fun h => h.trans hA.symm, fun h => h.trans hA⟩

/-- Two files `p/f` and `p/g`, before any callback has run. -/
def twoFiles : IFuse := ⟨AList.insert "p" ⟨"p", some ["f", "g"], []⟩ ∅, ⟨0, false⟩, ∅, ∅⟩

/-- A client reads part of one file before it polls the other. -/
theorem readiness_independent_part :
    twoFiles.ReadinessIndependent ("p", "f")
      [.readCallback (some ⟨1, 2⟩) ["p", "g"] 10 0 10] := by
  have hpath : twoFiles.pollId ["p", "f"] = some ("p", "f") := by decide
  refine (readiness_independent_iff twoFiles hpath _).mpr fun t ht _ => ?_
  rw [Machine.trace, Machine.trace, List.mem_singleton] at ht
  subst ht
  refine Or.inr (Or.inr fun client hclient => ?_)
  obtain rfl := Option.some.inj hclient
  decide

/-- A client reads one file to its end: a poll of the other, which it has not read, reports
nothing. -/
theorem not_forall_pollin_eq :
    ¬ ∀ (f : IFuse) (id : PluginFilePair) (path : Path) (es : List FuseEvent)
        (ctx : Option FuseContext) (ph : Option PollHandle), f.mPollHandles = ∅ →
        f.mEofReached = ∅ → f.pollId path = some id →
        ((machine.run f es).poll ctx path ph).1.pollin
          = ((machine.run f (es.filter (f.OnFile id))).poll ctx path ph).1.pollin := by
  intro h
  have hpoll := h twoFiles ("p", "f") ["p", "f"]
    [.readCallback (some ⟨1, 2⟩) ["p", "g"] 10 0 3] (some ⟨1, 2⟩) (some 7) rfl rfl (by decide)
  revert hpoll
  decide +kernel

end IFuse

end StreamFs
