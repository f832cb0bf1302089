import StreamFs.Base.LockOrder
import StreamFs.Fuse.Namespace

/-!
The mutexes of the file system and of the plugin interface (`IFuse.cpp`, `VirtualFSProvider.cpp`,
`PluginCbImpl.cpp`, `StreamPluginManager.cpp`).

* `FuseMutex`: the mutexes, with those that plugins have of their own. `FuseMutex.rank`: the order
  in which they are locked.
* `PluginCode`: what a plugin does when it is called. It may lock its own mutexes in order, and call
  back through the interface it was given while it holds them.
* `notifyPoll`, .., `loadPlugins`: each function as the mutexes it locks, for how long, and what it
  calls meanwhile. `FuseCall`: the functions that libfuse, a thread of a plugin or `main` enters.
* `FuseCall.ascending`: every one of them locks in ascending order.
* `no_deadlock`, `calls_return`: any number of threads in any of the functions never wait for each
  other, and all of them come back.
-/

namespace StreamFs

/-- The mutexes. A plugin is known by its name, and has at most `n` mutexes of its own. -/
inductive FuseMutex (n : ℕ) where
  | mPluginMtx
  | mStateMtx
  | mFileListLock (provider : String)
  | own (plugin : String) (k : Fin n)
  | guard (plugin : String)
  | mPollConfigMtx
deriving DecidableEq

namespace FuseMutex

variable {n : ℕ}

/-- The order in which the mutexes are locked. -/
def rank : FuseMutex n → ℕ
  | mPluginMtx => 0
  | mStateMtx => 1
  | mFileListLock _ => 2
  | own _ k => 3 + k
  | guard _ => 3 + n
  | mPollConfigMtx => 4 + n

lemma rank_le (l : FuseMutex n) : l.rank ≤ 4 + n := by
  cases l <;> simp only [rank] <;> omega

end FuseMutex

/-- The mutexes that a piece of code locks. -/
abbrev Locks (n : ℕ) := Scoped (FuseMutex n)

/-- What a plugin does in a method that returns by itself: it locks mutexes of its own, in order, or
calls back. -/
structure PluginCode (n : ℕ) where
  code : Locks n
  ascending : code.Ascending FuseMutex.rank 3

/-- `PluginCallbackInterface`. -/
inductive CallbackCall where
  | setAvailableStreams
  | updateConfig
  | getAvailableStreams
  | notifyUpdate
deriving DecidableEq

namespace FuseLocks

variable {n : ℕ}

/-! ### The callback interface of plugins -/

/-- `IFuse::notifyPoll`. -/
def notifyPoll : Locks n := .guard .mPollConfigMtx .skip

/-- `PluginCbImpl::setAvailableStreams`. -/
def setAvailableStreams (plugin : String) : Locks n := .guard (.guard plugin) .skip

/-- `PluginCbImpl::updateConfig`. -/
def updateConfig (plugin : String) : Locks n := .guard (.guard plugin) .skip

/-- `PluginCbImpl::getAvailableStreams`. -/
def getAvailableStreams (plugin : String) : Locks n := .guard (.guard plugin) .skip

/-- `PluginCbImpl::notifyUpdate`, with `VirtualFSProvider::notifyUpdate`. -/
def notifyUpdate (plugin : String) : Locks n := .guard (.guard plugin) notifyPoll

/-- A call of a plugin. -/
def callback (plugin : String) : CallbackCall → Locks n
  | .setAvailableStreams => setAvailableStreams plugin
  | .updateConfig => updateConfig plugin
  | .getAvailableStreams => getAvailableStreams plugin
  | .notifyUpdate => notifyUpdate plugin

/-! ### Providers -/

/-- `VirtualFSProvider::getNodes`. -/
def getNodes (p : VirtualFSProvider) : Locks n :=
  .guard (.mFileListLock p.getName)
    (if p.mCb.isSome then getAvailableStreams p.getName else .skip)

/-- `open`, `read`, `write`, `release` and `getSize` of the provider: the method of the plugin of
the same name, as long as the plugin is there. -/
def forward (p : VirtualFSProvider) (method : PluginCode n) : Locks n :=
  if p.mCb.isSome then method.code else .skip

/-- The loop over the nodes that calls the plugin for each one of the name that it looks for. -/
def forwardNodes (p : VirtualFSProvider) (nodes : List FileNode) (method : ℕ → PluginCode n) :
    Locks n :=
  .all (nodes.mapIdx fun i _ => forward p (method i))

/-- `findNode`. -/
def findNode : Option VirtualFSProvider → Locks n
  | none => .skip
  | some p => getNodes p

/-! ### The callbacks of libfuse -/

/-- `getAttrCallback`. -/
def getAttrCallback (f : IFuse) (path : Path) (getSize : ℕ → PluginCode n) : Locks n :=
  if path = [] then .skip
  else if element path 0 ≠ "" ∧ (f.fsProviders.lookup (element path 0)).isSome ∧ path.length ≤ 1
    then .skip
  else if path = debugFilePath then .skip
  else if path = tsDumpFilePath then .skip
  else
    match findProvider f.fsProviders path with
    | none => .skip
    | some p =>
        .seq (getNodes p) (forwardNodes p
          (p.getNodes.filter fun node => node.name = element path 1 ∧ node.type = .fileType)
          getSize)

/-- `readDirCallback`. -/
def readDirCallback (f : IFuse) (path : Path) : Locks n :=
  if path = [] then .skip
  else
    match findProvider f.fsProviders path with
    | none => .skip
    | some p => getNodes p

/-- `openCallback`. The mutex is held while the plugin opens the stream. -/
def openCallback (f : IFuse) (path : Path) (openStream : PluginCode n) : Locks n :=
  .guard .mStateMtx
    (if path = debugFilePath ∨ path = tsDumpFilePath then .skip
    else
      match findProvider f.fsProviders path with
      | none => .skip
      | some p =>
          .seq (getNodes p)
            (match p.getNodes.find? fun node => node.name = element path 1 with
            | none => .skip
            | some _ => forward p openStream))

/-- `readCallback`. -/
def readCallback (f : IFuse) (ctx : Option FuseContext) (path : Path) (read : ℕ → PluginCode n) :
    Locks n :=
  if path = debugFilePath then .skip
  else if path = tsDumpFilePath then .skip
  else
    .seq
      (match findProvider f.fsProviders path with
      | none => .skip
      | some p =>
          .seq (getNodes p)
            (forwardNodes p (p.getNodes.filter fun node => node.name = element path 1) read))
      (match ctx with
      | none => .skip
      | some _ => .guard .mPollConfigMtx .skip)

/-- `writeFileCallback`. -/
def writeFileCallback (f : IFuse) (path : Path) (write : PluginCode n) : Locks n :=
  if path = debugFilePath then .skip
  else if path = tsDumpFilePath then .skip
  else
    .seq (findNode (findProvider f.fsProviders path))
      (match findProvider f.fsProviders path with
      | none => .skip
      | some p => if StreamFs.findNode (some p) path = "" then .skip else forward p write)

/-- `registerPoll`. -/
def registerPoll : Locks n := .guard .mPollConfigMtx .skip

/-- `poll`. -/
def poll (f : IFuse) (path : Path) : Locks n :=
  .seq (findNode (findProvider f.fsProviders path))
    (if StreamFs.findNode (findProvider f.fsProviders path) path = "" then .skip else registerPoll)

/-- `release`. -/
def release (f : IFuse) (path : Path) (method : ℕ → PluginCode n) : Locks n :=
  match findProvider f.fsProviders path with
  | none => .skip
  | some p =>
      .seq (getNodes p)
        (forwardNodes p (p.getNodes.filter fun node => node.name = element path 1) method)

/-! ### The plugin manager -/

/-- `loadPlugins`: what the libraries do when they are loaded and create their plugins. -/
def loadPlugins (libraries : List (PluginCode n)) : Locks n :=
  .guard .mPluginMtx (.all (libraries.map PluginCode.code))

/-- `initPlugins`. -/
def initPlugins : Locks n := .guard .mPluginMtx .skip

/-- `unloadPlugins`. -/
def unloadPlugins (libraries : List (PluginCode n)) : Locks n :=
  .all (libraries.map PluginCode.code)

end FuseLocks

open FuseLocks

/-- What libfuse, a thread of a plugin and `main` call. The state of the file system is the one at
the call, and each method of a plugin does what it likes each time it is called. -/
inductive FuseCall (n : ℕ) where
  | getAttrCallback (f : IFuse) (path : Path) (getSize : ℕ → PluginCode n)
  | readDirCallback (f : IFuse) (path : Path)
  | openCallback (f : IFuse) (path : Path) (openStream : PluginCode n)
  | readCallback (f : IFuse) (ctx : Option FuseContext) (path : Path) (read : ℕ → PluginCode n)
  | writeFileCallback (f : IFuse) (path : Path) (write : PluginCode n)
  | poll (f : IFuse) (path : Path)
  | release (f : IFuse) (path : Path) (method : ℕ → PluginCode n)
  | pluginThread (method : PluginCode n)
  | loadPlugins (libraries : List (PluginCode n))
  | initPlugins
  | unloadPlugins (libraries : List (PluginCode n))

/-- The mutexes that a call locks. -/
def FuseCall.code {n : ℕ} : FuseCall n → Locks n
  | getAttrCallback f path getSize => FuseLocks.getAttrCallback f path getSize
  | readDirCallback f path => FuseLocks.readDirCallback f path
  | openCallback f path openStream => FuseLocks.openCallback f path openStream
  | readCallback f ctx path read => FuseLocks.readCallback f ctx path read
  | writeFileCallback f path write => FuseLocks.writeFileCallback f path write
  | poll f path => FuseLocks.poll f path
  | release f path method => FuseLocks.release f path method
  | pluginThread method => method.code
  | loadPlugins libraries => FuseLocks.loadPlugins libraries
  | initPlugins => FuseLocks.initPlugins
  | unloadPlugins libraries => FuseLocks.unloadPlugins libraries

namespace FuseLocks

variable {n : ℕ}

/-! ### The callback interface may be used from plugins -/

lemma ascending_callback (plugin : String) (c : CallbackCall) :
    (callback plugin c : Locks n).Ascending FuseMutex.rank (3 + n) := by
  cases c with
  | notifyUpdate => exact ⟨le_rfl, show 3 + n + 1 ≤ 4 + n by omega, trivial⟩
  | _ => exact ⟨le_rfl, trivial⟩

/-- A method that calls back while it holds a mutex of the plugin. -/
def underOwn (plugin : String) (k : Fin n) (cs : List CallbackCall) : PluginCode n where
  code := .guard (.own plugin k) (.all (cs.map (callback plugin)))
  ascending := by
    refine ⟨Nat.le_add_right 3 k, Scoped.ascending_all fun c hc => ?_⟩
    obtain ⟨call, -, rfl⟩ := List.mem_map.mp hc
    exact (ascending_callback plugin call).mono (show 3 + (k : ℕ) + 1 ≤ 3 + n by omega)

/-! ### Every call locks in ascending order -/

lemma ascending_getNodes (p : VirtualFSProvider) :
    (getNodes p : Locks n).Ascending FuseMutex.rank 2 := by
  refine ⟨le_rfl, ?_⟩
  split_ifs
  · exact (ascending_callback p.getName .getAvailableStreams).mono (Nat.le_add_right 3 n)
  · trivial

lemma ascending_forward (p : VirtualFSProvider) (method : PluginCode n) :
    (forward p method).Ascending FuseMutex.rank 3 := by
  rw [forward]
  split_ifs
  · exact method.ascending
  · trivial

lemma ascending_forwardNodes (p : VirtualFSProvider) (nodes : List FileNode)
    (method : ℕ → PluginCode n) : (forwardNodes p nodes method).Ascending FuseMutex.rank 3 := by
  refine Scoped.ascending_all fun c hc => ?_
  obtain ⟨i, -, rfl⟩ := List.mem_mapIdx.mp hc
  exact ascending_forward p (method i)

lemma ascending_findNode (provider : Option VirtualFSProvider) :
    (findNode provider : Locks n).Ascending FuseMutex.rank 2 := by
  cases provider with
  | none => trivial
  | some p => exact ascending_getNodes p

/-- The nodes are listed, and then the plugin is called. -/
lemma ascending_nodes_seq (p : VirtualFSProvider) {c : Locks n}
    (hc : c.Ascending FuseMutex.rank 3) : (Scoped.seq (getNodes p) c).Ascending FuseMutex.rank 2 :=
  ⟨ascending_getNodes p, hc.mono (by omega)⟩

lemma ascending_libraries (libraries : List (PluginCode n)) :
    (Scoped.all (libraries.map PluginCode.code)).Ascending FuseMutex.rank 3 := by
  refine Scoped.ascending_all fun c hc => ?_
  obtain ⟨library, -, rfl⟩ := List.mem_map.mp hc
  exact library.ascending

end FuseLocks

/-- **Every call** locks the mutexes in ascending order. -/
lemma FuseCall.ascending {n : ℕ} (c : FuseCall n) : c.code.Ascending FuseMutex.rank 0 := by
  cases c with
  | getAttrCallback f path getSize =>
      show (FuseLocks.getAttrCallback f path getSize).Ascending FuseMutex.rank 0
      rw [FuseLocks.getAttrCallback]
      split_ifs
      all_goals try trivial
      cases findProvider f.fsProviders path with
      | none => trivial
      | some p =>
          exact (ascending_nodes_seq p (ascending_forwardNodes p _ getSize)).mono (Nat.zero_le 2)
  | readDirCallback f path =>
      show (FuseLocks.readDirCallback f path).Ascending FuseMutex.rank 0
      rw [FuseLocks.readDirCallback]
      split_ifs
      · trivial
      · cases findProvider f.fsProviders path with
        | none => trivial
        | some p => exact (ascending_getNodes p).mono (Nat.zero_le 2)
  | openCallback f path openStream =>
      refine ⟨Nat.zero_le _, ?_⟩
      split_ifs
      · trivial
      · cases findProvider f.fsProviders path with
        | none => trivial
        | some p =>
            refine ⟨ascending_getNodes p, ?_⟩
            cases p.getNodes.find? fun node => node.name = element path 1 with
            | none => trivial
            | some node => exact (ascending_forward p openStream).mono (show 2 ≤ 3 by omega)
  | readCallback f ctx path read =>
      show (FuseLocks.readCallback f ctx path read).Ascending FuseMutex.rank 0
      unfold FuseLocks.readCallback
      split_ifs
      · trivial
      · trivial
      · refine ⟨?_, ?_⟩
        · cases findProvider f.fsProviders path with
          | none => trivial
          | some p =>
              exact (ascending_nodes_seq p (ascending_forwardNodes p _ read)).mono (Nat.zero_le 2)
        · cases ctx with
          | none => trivial
          | some ctx => exact ⟨Nat.zero_le _, trivial⟩
  | writeFileCallback f path write =>
      show (FuseLocks.writeFileCallback f path write).Ascending FuseMutex.rank 0
      rw [FuseLocks.writeFileCallback]
      split_ifs
      · trivial
      · trivial
      · refine ⟨(ascending_findNode _).mono (Nat.zero_le 2), ?_⟩
        cases findProvider f.fsProviders path with
        | none => trivial
        | some p =>
            dsimp only
            split_ifs
            · trivial
            · exact (ascending_forward p write).mono (Nat.zero_le 3)
  | poll f path =>
      refine ⟨(ascending_findNode _).mono (Nat.zero_le 2), ?_⟩
      split_ifs
      · trivial
      · exact ⟨Nat.zero_le _, trivial⟩
  | release f path method =>
      show (FuseLocks.release f path method).Ascending FuseMutex.rank 0
      rw [FuseLocks.release]
      cases findProvider f.fsProviders path with
      | none => trivial
      | some p =>
          exact (ascending_nodes_seq p (ascending_forwardNodes p _ method)).mono (Nat.zero_le 2)
  | pluginThread method => exact method.ascending.mono (Nat.zero_le 3)
  | loadPlugins libraries =>
      exact ⟨le_rfl, (ascending_libraries libraries).mono (show 0 + 1 ≤ 3 by omega)⟩
  | initPlugins => exact ⟨le_rfl, trivial⟩
  | unloadPlugins libraries => exact (ascending_libraries libraries).mono (Nat.zero_le 3)

/-- A thread makes a call, or takes the next step of the one it is in. -/
inductive FuseLockEvent (ι : Type*) (n : ℕ) where
  | call (i : ι) (c : FuseCall n)
  | step (i : ι)

namespace FuseLocks

variable {ι : Type*} {n : ℕ}

/-- The event at the mutexes. -/
def toLockEvent : FuseLockEvent ι n → LockEvent ι (FuseMutex n)
  | .call i c => .call i c.code
  | .step i => .step i

lemma startsAscending (e : FuseLockEvent ι n) :
    LockThreads.StartsAscending FuseMutex.rank (toLockEvent e) := by
  cases e with
  | call i c =>
      rintro i' c' ⟨⟩
      exact c.ascending
  | step i =>
      rintro i' c' ⟨⟩

lemma startsAscending_map (es : List (FuseLockEvent ι n)) :
    ∀ e ∈ es.map toLockEvent, LockThreads.StartsAscending FuseMutex.rank e := by
  intro e he
  obtain ⟨e', -, rfl⟩ := List.mem_map.mp he
  exact startsAscending e'

/-- The event is a call. -/
def Calls (e : FuseLockEvent ι n) : Prop := ∃ i c, e = .call i c

variable [DecidableEq ι]

/-- The threads after the events. -/
def threadsAfter (es : List (FuseLockEvent ι n)) : LockThreads ι (FuseMutex n) :=
  LockThreads.machine.run .idle (es.map toLockEvent)

/-- **No deadlock.** Any number of threads call any callbacks of libfuse, any methods of the
callback interface and the plugin manager, at any time and interleaved in any way, and the plugins
call back from their methods while they hold mutexes of their own: no threads ever wait for each
other. -/
theorem no_deadlock (es : List (FuseLockEvent ι n)) : ¬ Deadlocked (threadsAfter es).Waits := by
  obtain ⟨held, h⟩ := LockThreads.disciplined_run (startsAscending_map es)
  exact h.not_deadlocked FuseMutex.rank_le

/-- **All calls return.** After any calls of any number of threads, once no more calls are made,
every schedule that goes on with each thread brings all of them back, with all mutexes given
back. -/
theorem calls_return [Fintype ι] (es : List (FuseLockEvent ι n)) (f : ℕ → FuseLockEvent ι n)
    (hcalls : ∀ k, ¬ Calls (f k)) (hsteps : ∀ i, Recurs f (.step i)) :
    ∃ k, (LockThreads.machine.stateAt (threadsAfter es)
      (fun k => toLockEvent (f k)) k).Settled := by
  refine LockThreads.all_return FuseMutex.rank_le (startsAscending_map es) (fun k => ?_)
    fun i m => ?_
  · rintro ⟨i, c, h⟩
    cases hf : f k with
    | call i' c' => exact hcalls k ⟨i', c', hf⟩
    | step i' =>
        rw [hf] at h
        cases h
  · obtain ⟨k, hk, hf⟩ := hsteps i m
    exact ⟨k, hk, by rw [hf]; rfl⟩

/-- A stream is opened, and its plugin lists its streams anew from the method that opens it and from
a thread of its own. -/
theorem calls_return_open :
    ∃ k, (LockThreads.machine.stateAt (threadsAfter
      [.call 0 (.openCallback ⟨AList.singleton "sample" ⟨"sample", some ["a.ts"], []⟩,
          ⟨0, false⟩, ∅, ∅⟩ ["sample", "a.ts"]
          (underOwn "sample" 0 [.setAvailableStreams, .notifyUpdate])),
        .step 0, .call 1 (.pluginThread (underOwn "sample" 0 [.notifyUpdate])), .step 1] :
          LockThreads (Fin 2) (FuseMutex 1))
      (fun k => toLockEvent (.step (Fin.ofNat 2 k))) k).Settled := by
  refine calls_return _ (fun k => .step (Fin.ofNat 2 k)) (fun k => ?_) fun i m => ?_
  · rintro ⟨i, c, h⟩
    cases h
  · refine ⟨2 * m + i, by omega, congrArg FuseLockEvent.step (Fin.ext ?_)⟩
    simp [Fin.ofNat, Nat.mod_eq_of_lt i.isLt]

end FuseLocks

end StreamFs
