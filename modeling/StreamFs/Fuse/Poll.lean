import StreamFs.Base.Machine
import StreamFs.Base.Unsigned
import StreamFs.Fuse.Provider

/-!
`select()` on the files of the providers: `readCallback`, `poll` and `notifyPoll` of
`IFuse.cpp`.

* `IFuse`: the static state of the callbacks. The maps are association lists without repeated
  keys. Their order, which is not the one of the keys that `std::map` has, is left open: nothing is
  said about the order in which `notifyPoll` and `readDirCallback` go through a map.
* `readCallback`, `registerPoll`, `poll`, `notifyPoll`: the callbacks, with the handles they
  destroy and notify. What the provider's `read` returns is an argument.
* `UpdateKept`: a notification reaches a client through a poll handle, or its next poll reports
  data. `updateKept_iff`: it does so iff the client has a handle registered for the file or its
  end-of-file flag is down, since `notifyPoll` takes back the flag of registered clients only.
-/

namespace StreamFs

/-- The fields of `fuse_context` that a client is known by. -/
structure FuseContext where
  gid : ℕ
  pid : ℤ
  deriving DecidableEq

/-- `ctx_id_t`. -/
abbrev CtxId := String

/-- `fuseContextToId`. -/
def fuseContextToId (ctx : FuseContext) : CtxId := toString ctx.gid ++ "_" ++ toString ctx.pid

/-- A `fuse_pollhandle *`. -/
abbrev PollHandle := ℕ

/-- `plugin_file_pair_t`. -/
abbrev PluginFilePair := String × String

/-- `contextMapType`. -/
abbrev ContextMapType := AList fun _ : CtxId => PollHandle

/-- `debug_options_t`. -/
structure DebugOptions where
  debugLevel : UInt32
  tsDumpEnable : Bool
  deriving DecidableEq

/-- The static state of the callbacks. -/
structure IFuse where
  fsProviders : FsProviderMapType
  mDebugOptions : DebugOptions
  mPollHandles : AList fun _ : PluginFilePair => ContextMapType
  mEofReached : AList fun _ : CtxId => Bool

/-- What `readCallback` returns, and the text it writes itself. -/
structure ReadReply where
  result : ℤ
  text : Option String
  deriving DecidableEq

/-- What `poll` reports, and the handles destroyed by it. -/
structure PollReply where
  pollin : Bool
  destroyed : List PollHandle
  deriving DecidableEq

/-- The handles notified and destroyed by `notifyPoll`. -/
structure NotifyReply where
  notified : List PollHandle
  destroyed : List PollHandle
  deriving DecidableEq

/-- `intToHex`. -/
def intToHex (val : UInt32) : String := "0x" ++ String.ofList (Nat.toDigits 16 val.toNat)

/-- The text of `mDebugOptions.tsDumpEnable`. -/
def tsDumpText (enable : Bool) : String := if enable then "1" else "0"

namespace IFuse

/-! ### The callbacks -/

/-- The text of a control file of which the option takes `width` bytes. -/
def controlRead (text : String) (width size : ℕ) (offset : ℤ) : ReadReply :=
  if 0 < offset ∨ size < width then ⟨0, none⟩ else ⟨text.length, some text⟩

/-- The result of the loop over the nodes of the provider, where `read` is what the provider's
`read` returns, the last time it is called. -/
def nodeRead (provider : Option VirtualFSProvider) (path : Path) (read : ℤ) : ℤ :=
  match provider with
  | none => 0
  | some p =>
      p.getNodes.foldl (fun result node => if node.name = element path 1 then read else result) 0

/-- `readCallback`. The comparison of the result with the size is one of unsigned values. -/
def readCallback (f : IFuse) (ctx : Option FuseContext) (path : Path) (size : ℕ) (offset : ℤ)
    (read : ℤ) : ReadReply × IFuse :=
  if path = debugFilePath then
    (controlRead (intToHex f.mDebugOptions.debugLevel) 4 size offset, f)
  else if path = tsDumpFilePath then
    (controlRead (tsDumpText f.mDebugOptions.tsDumpEnable) 1 size offset, f)
  else
    let result := nodeRead (findProvider f.fsProviders path) path read
    match ctx with
    | none => (⟨result, none⟩, f)
    | some ctx =>
        (⟨result, none⟩, { f with
          mEofReached := f.mEofReached.insert (fuseContextToId ctx) (toSizeT result < size) })

/-- `registerPoll`. The handle it replaces is destroyed; it is erased from a copy of the map
only, where the new one overwrites it. -/
def registerPoll (f : IFuse) (fileName : String) (pProvider : VirtualFSProvider)
    (ctx : Option FuseContext) (ph : Option PollHandle) : PollReply × IFuse :=
  let id := (pProvider.getName, fileName)
  match ctx, ph with
  | some ctx, some ph =>
      let contextMap := (f.mPollHandles.lookup id).getD ∅
      (⟨f.mEofReached.lookup (fuseContextToId ctx) ≠ some true,
          (contextMap.lookup (fuseContextToId ctx)).toList⟩,
        { f with
          mPollHandles := f.mPollHandles.insert id (contextMap.insert (fuseContextToId ctx) ph) })
  | _, _ => (⟨false, []⟩, f)

/-- `poll`. -/
def poll (f : IFuse) (ctx : Option FuseContext) (path : Path) (ph : Option PollHandle) :
    PollReply × IFuse :=
  let provider := findProvider f.fsProviders path
  let node := findNode provider path
  match provider with
  | none => (⟨false, []⟩, f)
  | some p => if node = "" then (⟨false, []⟩, f) else f.registerPoll node p ctx ph

/-- `notifyPoll`. The loop takes back the flag of each client of the file, notifies and destroys
its handle, and erases it. It takes the clients in the order of the list, where the source takes
them in the order of their identifiers. -/
def notifyPoll (f : IFuse) (provider filename : String) : NotifyReply × IFuse :=
  match f.mPollHandles.lookup (provider, filename) with
  | none => (⟨[], []⟩, f)
  | some ctxMap =>
      (⟨ctxMap.entries.map Sigma.snd, ctxMap.entries.map Sigma.snd⟩,
        { f with
          mEofReached := ctxMap.keys.foldl (fun eof ctx_id => eof.insert ctx_id false) f.mEofReached
          mPollHandles := f.mPollHandles.insert (provider, filename) ∅ })

end IFuse

/-! ### Histories of the callbacks -/

/-- The callbacks that concern the readiness of files. -/
inductive FuseEvent where
  | readCallback (ctx : Option FuseContext) (path : Path) (size : ℕ) (offset : ℤ) (read : ℤ)
  | poll (ctx : Option FuseContext) (path : Path) (ph : Option PollHandle)
  | notifyPoll (provider filename : String)

/-- What a callback gives back. -/
inductive FuseReply where
  | read (r : ReadReply)
  | poll (r : PollReply)
  | notify (r : NotifyReply)
  deriving DecidableEq

namespace IFuse

/-- One callback. -/
def act (f : IFuse) : FuseEvent → IFuse × FuseReply
  | .readCallback ctx path size offset read =>
      ((f.readCallback ctx path size offset read).2,
        .read (f.readCallback ctx path size offset read).1)
  | .poll ctx path ph => ((f.poll ctx path ph).2, .poll (f.poll ctx path ph).1)
  | .notifyPoll provider filename =>
      ((f.notifyPoll provider filename).2, .notify (f.notifyPoll provider filename).1)

/-- The callbacks as a machine. -/
def machine : Machine IFuse FuseEvent FuseReply := ⟨act⟩

/-- The file a path is polled as. -/
def pollId (f : IFuse) (path : Path) : Option PluginFilePair :=
  (findProvider f.fsProviders path).bind fun p =>
    if findNode (some p) path = "" then none else some (p.getName, findNode (some p) path)

/-- The poll handle of a client on a file. -/
def handleOf (f : IFuse) (id : PluginFilePair) (c : CtxId) : Option PollHandle :=
  (f.mPollHandles.lookup id).bind fun ctxMap => ctxMap.lookup c

/-- A read by the client `c` that returns less than it asked for. -/
def ShortRead (c : CtxId) (t : Transition IFuse FuseEvent FuseReply) : Prop :=
  ∃ ctx path size offset read r, t.event = .readCallback (some ctx) path size offset read
    ∧ fuseContextToId ctx = c ∧ t.output = .read r ∧ toSizeT r.result < size

/-- A poll of the client `c` on the file `id`. -/
def PollsFile (c : CtxId) (id : PluginFilePair) (t : Transition IFuse FuseEvent FuseReply) : Prop :=
  ∃ ctx path ph, t.event = .poll (some ctx) path (some ph) ∧ fuseContextToId ctx = c
    ∧ t.before.pollId path = some id

/-- The callback reads, polls or notifies the file `id`. -/
def OnFile (f : IFuse) (id : PluginFilePair) : FuseEvent → Prop
  | .readCallback _ path _ _ _ => f.pollId path = some id
  | .poll _ path _ => f.pollId path = some id
  | .notifyPoll provider filename => (provider, filename) = id

/-- After a notification of the file, the client neither reads to an end nor polls the file
during the callbacks `es`. -/
def Quiet (f : IFuse) (c : CtxId) (id : PluginFilePair) (es : List FuseEvent) : Prop :=
  ∀ t ∈ machine.trace (f.notifyPoll id.1 id.2).2 es, ¬ ShortRead c t ∧ ¬ PollsFile c id t

/-- A notification of the file notifies a handle of the client on it, or the poll of the client
that follows the callbacks `es` reports data. -/
def Heard (f : IFuse) (client : FuseContext) (id : PluginFilePair) (es : List FuseEvent)
    (path : Path) (ph : PollHandle) : Prop :=
  (∃ h, f.handleOf id (fuseContextToId client) = some h
      ∧ h ∈ (f.notifyPoll id.1 id.2).1.notified)
    ∨ ((machine.run (f.notifyPoll id.1 id.2).2 es).poll (some client) path
        (some ph)).1.pollin = true

/-- A notification of the file is not lost to the client, whatever happens before its next poll
of the file, as long as it does not read to an end before. -/
def UpdateKept (f : IFuse) (client : FuseContext) (id : PluginFilePair) : Prop :=
  ∀ es, Quiet f (fuseContextToId client) id es → ∀ path ph,
    (machine.run (f.notifyPoll id.1 id.2).2 es).pollId path = some id →
      Heard f client id es path ph

/-- The client has a handle on the file, or its end-of-file flag is down. -/
def Notifiable (f : IFuse) (c : CtxId) (id : PluginFilePair) : Prop :=
  (f.handleOf id c).isSome ∨ f.mEofReached.lookup c ≠ some true

/-! ### The end-of-file flag -/

variable {f : IFuse} {c : CtxId} {id : PluginFilePair}

/-- A loop over keys, each round of which sets what is seen at its key to `v`. -/
lemma foldl_set_apply {σ α β : Type*} [DecidableEq α] {round : σ → α → σ} (look : σ → α → β)
    {v : β} (hround : ∀ s a c, look (round s a) c = if c = a then v else look s c) (as : List α)
    (s : σ) (c : α) : look (as.foldl round s) c = if c ∈ as then v else look s c := by
  induction as generalizing s with
  | nil => rfl
  | cons a as ih =>
      rw [List.foldl_cons, ih, hround]
      by_cases has : c ∈ as
      · rw [if_pos has, if_pos (List.mem_cons_of_mem a has)]
      · by_cases hc : c = a
        · rw [if_neg has, if_pos hc, if_pos (List.mem_cons.mpr (Or.inl hc))]
        · rw [if_neg has, if_neg hc, if_neg (by simp [hc, has])]

/-- The flags after the loop of `notifyPoll` over the clients `cs`. -/
lemma lookup_foldl_insert (cs : List CtxId) (eof : AList fun _ : CtxId => Bool) :
    (cs.foldl (fun eof ctx_id => eof.insert ctx_id false) eof).lookup c
      = if c ∈ cs then some false else eof.lookup c := by
  refine foldl_set_apply (fun (eof : AList fun _ : CtxId => Bool) c => eof.lookup c)
    (fun eof d c => ?_) cs eof c
  split_ifs with hc
  · rw [hc, AList.lookup_insert]
  · rw [AList.lookup_insert_ne hc]

/-- The flags after a notification: those of the clients with a handle on the file are down. -/
lemma lookup_eof_notifyPoll (f : IFuse) (provider filename : String) (c : CtxId) :
    (f.notifyPoll provider filename).2.mEofReached.lookup c
      = if (f.handleOf (provider, filename) c).isSome then some false
        else f.mEofReached.lookup c := by
  rw [notifyPoll, handleOf]
  cases h : f.mPollHandles.lookup (provider, filename) with
  | none => rfl
  | some ctxMap =>
      dsimp only [Option.bind_some]
      rw [lookup_foldl_insert]
      exact if_congr (AList.mem_keys.symm.trans AList.lookup_isSome.symm) rfl rfl

/-- The flags after a read: that of the client tells whether the read was short, unless it was one
of a control file. -/
lemma lookup_eof_readCallback (f : IFuse) (ctx : Option FuseContext) (path : Path) (size : ℕ)
    (offset read : ℤ) (c : CtxId) :
    (f.readCallback ctx path size offset read).2.mEofReached.lookup c
      = if ctx.map fuseContextToId = some c ∧ path ≠ debugFilePath ∧ path ≠ tsDumpFilePath then
          some (decide (toSizeT (nodeRead (findProvider f.fsProviders path) path read) < size))
        else f.mEofReached.lookup c := by
  rw [readCallback]
  by_cases hdebug : path = debugFilePath
  · rw [if_pos hdebug, if_neg (fun h => h.2.1 hdebug)]
  · by_cases hdump : path = tsDumpFilePath
    · rw [if_neg hdebug, if_pos hdump, if_neg (fun h => h.2.2 hdump)]
    · rw [if_neg hdebug, if_neg hdump]
      cases ctx with
      | none => rw [if_neg (by simp)]
      | some ctx =>
          dsimp only [Option.map_some]
          by_cases hc : c = fuseContextToId ctx
          · rw [hc, AList.lookup_insert, if_pos ⟨rfl, hdebug, hdump⟩]
          · rw [AList.lookup_insert_ne hc, if_neg (fun h => hc (Option.some.inj h.1).symm)]

/-- A read that does not end short leaves the flag of the client down. -/
lemma eof_readCallback (h : f.mEofReached.lookup c ≠ some true) (ctx : Option FuseContext)
    (path : Path) (size : ℕ) (offset read : ℤ)
    (hread : ¬ ShortRead c (machine.transition f (.readCallback ctx path size offset read))) :
    (f.readCallback ctx path size offset read).2.mEofReached.lookup c ≠ some true := by
  have hresult : ∀ ctx', ctx = some ctx' → fuseContextToId ctx' = c →
      ¬ toSizeT (f.readCallback ctx path size offset read).1.result < size := by
    rintro ctx' rfl hc hlt
    exact hread ⟨ctx', path, size, offset, read, _, rfl, hc, rfl, hlt⟩
  rw [readCallback] at hresult ⊢
  split_ifs at hresult ⊢
  · exact h
  · exact h
  · cases ctx with
    | none => exact h
    | some ctx =>
        dsimp only at hresult ⊢
        by_cases hc : c = fuseContextToId ctx
        · rw [hc, AList.lookup_insert, decide_eq_false (hresult ctx rfl hc.symm)]
          simp
        · rw [AList.lookup_insert_ne hc]
          exact h

/-- Polls leave the flags alone. -/
lemma eof_poll (ctx : Option FuseContext) (path : Path) (ph : Option PollHandle) :
    (f.poll ctx path ph).2.mEofReached = f.mEofReached := by
  simp only [poll, registerPoll]
  split
  · rfl
  · split_ifs
    · rfl
    · split <;> rfl

/-- Notifications take flags back, and raise none. -/
lemma eof_notifyPoll (h : f.mEofReached.lookup c ≠ some true) (provider filename : String) :
    (f.notifyPoll provider filename).2.mEofReached.lookup c ≠ some true := by
  rw [lookup_eof_notifyPoll]
  split_ifs
  · simp
  · exact h

/-- **The flag stays down** while the client reads no file to its end. -/
lemma eof_run (h : f.mEofReached.lookup c ≠ some true) (es : List FuseEvent)
    (hes : ∀ t ∈ machine.trace f es, ¬ ShortRead c t) :
    (machine.run f es).mEofReached.lookup c ≠ some true := by
  refine Machine.invariant_run_of (I := fun f => f.mEofReached.lookup c ≠ some true)
    (fun f e hf hread => ?_) h es hes
  cases e with
  | readCallback ctx path size offset read =>
      exact eof_readCallback hf ctx path size offset read hread
  | poll ctx path ph =>
      show (f.poll ctx path ph).2.mEofReached.lookup c ≠ some true
      rw [eof_poll]
      exact hf
  | notifyPoll provider filename => exact eof_notifyPoll hf provider filename

/-! ### Polls and notifications -/

/-- A poll of a path that names no file does nothing. -/
lemma poll_of_pollId_none {path : Path} (h : f.pollId path = none) (ctx : Option FuseContext)
    (ph : Option PollHandle) : f.poll ctx path ph = (⟨false, []⟩, f) := by
  rw [pollId] at h
  cases hp : findProvider f.fsProviders path with
  | none => simp [poll, hp]
  | some p =>
      simp only [hp, Option.bind_some] at h
      split_ifs at h with hnode
      simp [poll, hp, hnode]

/-- A poll registers its handle for the file the path names. -/
lemma poll_of_pollId_some {path : Path} (h : f.pollId path = some id) (ctx : Option FuseContext)
    (ph : Option PollHandle) :
    ∃ p : VirtualFSProvider, p.getName = id.1
      ∧ f.poll ctx path ph = f.registerPoll id.2 p ctx ph := by
  rw [pollId] at h
  cases hp : findProvider f.fsProviders path with
  | none => simp [hp] at h
  | some p =>
      simp only [hp, Option.bind_some] at h
      split_ifs at h with hnode
      obtain rfl := Option.some.inj h
      exact ⟨p, rfl, by simp [poll, hp, hnode]⟩

/-- A poll with context and handle reports data iff the flag of the client is not up. -/
lemma pollin_iff {path : Path} (h : f.pollId path = some id) (client : FuseContext)
    (ph : PollHandle) : (f.poll (some client) path (some ph)).1.pollin = true
      ↔ f.mEofReached.lookup (fuseContextToId client) ≠ some true := by
  obtain ⟨p, -, hpoll⟩ := poll_of_pollId_some h (some client) (some ph)
  simp [hpoll, registerPoll]

/-- No callback changes the files. -/
lemma fsProviders_next (f : IFuse) (e : FuseEvent) :
    (machine.next f e).fsProviders = f.fsProviders := by
  cases e with
  | readCallback ctx path size offset read =>
      show (f.readCallback ctx path size offset read).2.fsProviders = _
      rw [readCallback]
      split_ifs
      · rfl
      · rfl
      · cases ctx <;> rfl
  | poll ctx path ph =>
      show (f.poll ctx path ph).2.fsProviders = _
      simp only [poll, registerPoll]
      split
      · rfl
      · split_ifs
        · rfl
        · split <;> rfl
  | notifyPoll provider filename =>
      show (f.notifyPoll provider filename).2.fsProviders = _
      rw [notifyPoll]
      split <;> rfl

lemma pollId_next (f : IFuse) (e : FuseEvent) (path : Path) :
    (machine.next f e).pollId path = f.pollId path := by
  rw [pollId, fsProviders_next, pollId]

/-- `notifyPoll` notifies the handles of all clients of the file. -/
lemma mem_notified {h : PollHandle} (hh : f.handleOf id c = some h) :
    h ∈ (f.notifyPoll id.1 id.2).1.notified := by
  rw [handleOf, Option.bind_eq_some_iff] at hh
  obtain ⟨ctxMap, hmap, hlookup⟩ := hh
  rw [notifyPoll, show (id.1, id.2) = id from rfl, hmap]
  exact List.mem_map.mpr ⟨⟨c, h⟩, AList.mem_lookup_iff.mp hlookup, rfl⟩

/-- Without a handle on the file the client keeps its flag. -/
lemma eof_notifyPoll_of_none (h : f.handleOf id c = none) :
    (f.notifyPoll id.1 id.2).2.mEofReached.lookup c = f.mEofReached.lookup c := by
  rw [lookup_eof_notifyPoll, if_neg (by simp [h])]

/-- **One notification.** -/
lemma updateKept_iff {path : Path} (h : f.pollId path = some id) (client : FuseContext) :
    UpdateKept f client id ↔ f.Notifiable (fuseContextToId client) id := by
  constructor
  · intro hkept
    -- the next poll may come at once
    have hpath : (f.notifyPoll id.1 id.2).2.pollId path = some id :=
      (pollId_next f (.notifyPoll id.1 id.2) path).trans h
    rcases hkept [] (by simp [Quiet, Machine.trace]) path 0 hpath with ⟨ph, hph, -⟩ | hnow
    · exact Or.inl (by rw [hph]; rfl)
    · rw [Machine.run_nil, pollin_iff hpath] at hnow
      cases hhandle : f.handleOf id (fuseContextToId client) with
      | some ph => exact Or.inl (by rw [hhandle]; rfl)
      | none =>
          rw [eof_notifyPoll_of_none hhandle] at hnow
          exact Or.inr hnow
  · rintro (hhandle | heof) es hes path ph hpath
    · obtain ⟨h, hh⟩ := Option.isSome_iff_exists.mp hhandle
      exact Or.inl ⟨h, hh, mem_notified hh⟩
    · refine Or.inr ?_
      rw [pollin_iff hpath]
      exact eof_run (eof_notifyPoll heof id.1 id.2) es fun t ht => (hes t ht).1

/-- **No update is lost to a client** of a file along a run, if and only if at each notification
of the file the client has a handle registered for it or its end-of-file flag is down. -/
theorem updates_kept_iff (f : IFuse) {path : Path} {id : PluginFilePair}
    (h : f.pollId path = some id) (client : FuseContext) (es : List FuseEvent) :
    (∀ t ∈ machine.trace f es, t.event = .notifyPoll id.1 id.2 → UpdateKept t.before client id)
      ↔ ∀ t ∈ machine.trace f es, t.event = .notifyPoll id.1 id.2 →
          t.before.Notifiable (fuseContextToId client) id :=
  Machine.forall_trace_iff (I := fun f => f.pollId path = some id)
    (fun _ _ hf => imp_congr_right fun _ => updateKept_iff hf client)
    (fun f e hf _ => (pollId_next f e path).trans hf) h es

/-- One file `p/f`, before any callback has run. -/
def oneFile : IFuse := ⟨AList.insert "p" ⟨"p", some ["f"], []⟩ ∅, ⟨0, false⟩, ∅, ∅⟩

/-- A client that polls the file after it has read it to the end hears of the update. -/
theorem updates_kept_registered :
    Heard (machine.run oneFile [.readCallback (some ⟨1, 2⟩) ["p", "f"] 10 0 3,
        .poll (some ⟨1, 2⟩) ["p", "f"] (some 7)]) ⟨1, 2⟩ ("p", "f") [] ["p", "f"] 8 := by
  let es : List FuseEvent := [.readCallback (some ⟨1, 2⟩) ["p", "f"] 10 0 3,
    .poll (some ⟨1, 2⟩) ["p", "f"] (some 7)]
  refine (@updates_kept_iff oneFile ["p", "f"] ("p", "f") (by decide) ⟨1, 2⟩
    (es ++ [.notifyPoll "p" "f"])).mpr (fun t ht he => ?_) _
    (machine.mem_trace_append oneFile es (.notifyPoll "p" "f")) rfl []
    (by simp [Quiet, Machine.trace]) ["p", "f"] 8 (by decide +kernel)
  simp only [es, List.cons_append, List.nil_append, Machine.trace, List.mem_cons,
    List.not_mem_nil, or_false] at ht
  rcases ht with rfl | rfl | rfl
  · simp [Machine.transition] at he
  · simp [Machine.transition] at he
  · exact Or.inl (by decide +kernel)

/-- A client reads the file to its end, and the file is updated before the client polls it: no
handle is notified, and the poll reports nothing to read. -/
theorem not_forall_heard :
    ¬ ∀ (f : IFuse) (client : FuseContext) (id : PluginFilePair) (path : Path) (size : ℕ)
        (offset read : ℤ) (ph : PollHandle) (es es' es'' : List FuseEvent),
        f.mPollHandles = ∅ → f.mEofReached = ∅ → f.pollId path = some id →
        (∀ e ∈ es ++ es' ++ es'', OnFile f id e) → 0 ≤ read → read < size →
        (∀ t ∈ machine.trace
            (machine.run f (es ++ [.readCallback (some client) path size offset read])) es',
          ¬ ShortRead (fuseContextToId client) t) →
        Quiet (machine.run f (es ++ [.readCallback (some client) path size offset read] ++ es'))
          (fuseContextToId client) id es'' →
        Heard (machine.run f (es ++ [.readCallback (some client) path size offset read] ++ es'))
          client id es'' path ph := by
  intro h
  have hheard := h oneFile ⟨1, 2⟩ ("p", "f") ["p", "f"] 10 0 3 7 [] [] [] rfl rfl (by decide)
    (by simp) (by decide) (by decide) (by simp [Machine.trace]) (by simp [Quiet, Machine.trace])
  rcases hheard with ⟨ph, hph, -⟩ | hpollin
  · have hnone : (machine.run oneFile ([] ++ [.readCallback (some ⟨1, 2⟩) ["p", "f"] 10 0 3]
        ++ [])).handleOf ("p", "f") (fuseContextToId ⟨1, 2⟩) = none := by decide +kernel
    exact Option.some_ne_none ph (hph.symm.trans hnone)
  · revert hpollin
    decide +kernel

end IFuse

end StreamFs
