import StreamFs.Fuse.Handles
import StreamFs.Plugin.Libraries

/-!
The way of an update from a plugin to the clients that wait for it: `notifyUpdate` of
`PluginCbImpl.cpp` and `VirtualFSProvider.cpp`, with the names that `loadPlugins` gives to the two
ends.

* `loadedLibs`: the libraries of which the plugins are loaded. The object that a plugin calls back
  is made with the identifier that its library exports, and its provider with the one it returns.
* `PluginHost`: the loaded plugins and the callbacks. `HostEvent`, `machine`: clients read and poll
  files while plugins list their streams anew and notify updates.
* `Reached`: an update notifies the clients that have a handle on the file, and these alone, and
  takes down their end-of-file flags.
* `updates_reach_iff`: updates reach the clients in all runs iff every loaded library exports the
  identifier that its plugin returns.
-/

namespace StreamFs

open StreamPluginManager (loopMachine NewId MountsAgree Mounted)

/-- The libraries that `loadPlugins` loads, from an empty manager. -/
def loadedLibs (libs : List SharedLib) : List SharedLib :=
  ((loopMachine.trace .init libs).filter fun t => t.output = .loaded).map Transition.event

/-- What is mounted, with no streams listed yet. -/
def mountedProviders (m : StreamPluginManager) : FsProviderMapType :=
  (m.fsProviders.entries.map (.map id fun name provider =>
    ⟨(m.providers.lookup provider).getD name, some [], []⟩)).toAList

/-- The callbacks, and the libraries of the loaded plugins. -/
structure PluginHost where
  fuse : IFuse
  plugins : List SharedLib

/-- A client reads or polls a file, or plugin `i` lists its streams or notifies an update. -/
inductive HostEvent where
  | readCallback (ctx : Option FuseContext) (path : Path) (size : ℕ) (offset read : ℤ)
  | poll (ctx : Option FuseContext) (path : Path) (ph : Option PollHandle)
  | setAvailableStreams (i : ℕ) (streamIds : List String)
  | notifyUpdate (i : ℕ) (path : String)

namespace PluginHost

/-- After `loadPlugins`. -/
def start (libs : List SharedLib) (options : DebugOptions) : PluginHost :=
  ⟨⟨mountedProviders (loopMachine.run .init libs), options, ∅, ∅⟩, loadedLibs libs⟩

/-- `setAvailableStreams`, as the provider of the plugin sees it. -/
def setAvailableStreams (f : IFuse) (lib : SharedLib) (streamIds : List String) : IFuse :=
  match lib.plugin with
  | none => f
  | some plugin =>
      match f.fsProviders.lookup plugin.getId with
      | none => f
      | some p =>
          { f with
            fsProviders := f.fsProviders.insert plugin.getId { p with mCb := some streamIds } }

/-- `notifyUpdate`: the object that the plugin calls has been made with the identifier that the
library exports. -/
def notifyUpdate (f : IFuse) (lib : SharedLib) (path : String) : NotifyReply × IFuse :=
  match lib.pluginId with
  | none => (⟨[], []⟩, f)
  | some mId => f.notifyPoll mId path

/-- One event. -/
def act (s : PluginHost) : HostEvent → PluginHost × Option NotifyReply
  | .readCallback ctx path size offset read =>
      ({ s with fuse := (s.fuse.readCallback ctx path size offset read).2 }, none)
  | .poll ctx path ph => ({ s with fuse := (s.fuse.poll ctx path ph).2 }, none)
  | .setAvailableStreams i streamIds =>
      match s.plugins[i]? with
      | none => (s, none)
      | some lib => ({ s with fuse := setAvailableStreams s.fuse lib streamIds }, none)
  | .notifyUpdate i path =>
      match s.plugins[i]? with
      | none => (s, none)
      | some lib =>
          ({ s with fuse := (notifyUpdate s.fuse lib path).2 }, (notifyUpdate s.fuse lib path).1)

/-- The host as a machine. The output is what a notification does. -/
def machine : Machine PluginHost HostEvent (Option NotifyReply) := ⟨act⟩

/-- An update of a file of a plugin notifies the handles that clients have on it and no others, and
each of these clients finds data at its next poll. -/
def Reached (t : Transition PluginHost HostEvent (Option NotifyReply)) : Prop :=
  ∀ i path lib plugin, t.event = .notifyUpdate i path → t.before.plugins[i]? = some lib →
    lib.plugin = some plugin → ∃ reply, t.output = some reply ∧
      (∀ h, h ∈ reply.notified ↔ ∃ c, t.before.fuse.handleOf (plugin.getId, path) c = some h) ∧
      ∀ c, (t.before.fuse.handleOf (plugin.getId, path) c).isSome →
        t.after.fuse.mEofReached.lookup c = some false

/-- The library exports the identifier that its plugin returns. -/
def ExportsOwnId (lib : SharedLib) : Prop := lib.pluginId = lib.plugin.map PluginInstance.getId

variable {libs : List SharedLib} {options : DebugOptions}

/-! ### What is loaded is mounted -/

/-- A library is loaded where it creates a plugin, and the plugin is among the plugins then. -/
lemma loaded_cases {m : StreamPluginManager} {lib : SharedLib}
    (h : (m.loadPlugin lib).2 = .loaded) : ∃ plugin, m.Creates lib plugin
      ∧ plugin.getId ∈ (m.loadPlugin lib).1.mPlugins := by
  rcases StreamPluginManager.loadPlugin_cases m lib with ⟨-, hnone⟩ | ⟨plugin, hcreates, heq⟩
  · have hout := PluginLoader.outcome_of_not_creates hnone
    simp [h] at hout
  · refine ⟨plugin, hcreates, ?_⟩
    rw [heq] at h ⊢
    rcases PluginLoader.mountPlugin_cases m plugin lib.soFile with
      ⟨-, hwrong, -⟩ | ⟨-, -, hplugins⟩
    · rw [hwrong] at h
      cases h
    · rw [hplugins]
      split_ifs with hmem
      · exact hmem
      · exact (AList.mem_insert _).mpr (Or.inl rfl)

/-- A plugin that is loaded stays loaded. -/
lemma mem_mPlugins_loadPlugin {m : StreamPluginManager} {name : String} (h : name ∈ m.mPlugins)
    (lib : SharedLib) : name ∈ (loopMachine.next m lib).mPlugins := by
  show name ∈ (m.loadPlugin lib).1.mPlugins
  rcases StreamPluginManager.loadPlugin_cases m lib with ⟨hsame, -⟩ | ⟨plugin, -, heq⟩
  · rw [hsame]
    exact h
  · rw [heq]
    rcases PluginLoader.mountPlugin_cases m plugin lib.soFile with
      ⟨-, -, hplugins⟩ | ⟨-, -, hplugins⟩
    · rwa [hplugins]
    · rw [hplugins]
      split_ifs
      · exact h
      · exact (AList.mem_insert _).mpr (Or.inr h)

/-- The plugin of a loaded library is loaded at the end. -/
lemma mem_mPlugins_of_mem_loadedLibs {lib : SharedLib} (h : lib ∈ loadedLibs libs) :
    ∃ mId plugin, lib.pluginId = some mId ∧ lib.plugin = some plugin
      ∧ plugin.getId ∈ (loopMachine.run .init libs).mPlugins := by
  obtain ⟨t, ht, rfl⟩ := List.mem_map.mp h
  obtain ⟨hmem, hloaded⟩ := List.mem_filter.mp ht
  obtain ⟨pre, lib, post, rfl, rfl⟩ := loopMachine.exists_of_mem_trace hmem
  obtain ⟨plugin, hcreates, hin⟩ := loaded_cases (of_decide_eq_true hloaded)
  obtain ⟨mId, hid, -⟩ := hcreates.notLoaded
  refine ⟨mId, plugin, hid, hcreates.created, ?_⟩
  rw [Machine.run_append, Machine.run_cons]
  exact Machine.invariant_run (I := fun m : StreamPluginManager => plugin.getId ∈ m.mPlugins)
    (fun _ lib hm => mem_mPlugins_loadPlugin hm lib) hin post

/-- A plugin that is loaded has its provider mounted, under its name. -/
lemma lookup_mountedProviders {m : StreamPluginManager} (h : m.MountsAgree) {name : String}
    (hname : name ∈ m.mPlugins) :
    (mountedProviders m).lookup name = some ⟨name, some [], []⟩ := by
  obtain ⟨state, hstate⟩ := Option.isSome_iff_exists.mp (AList.lookup_isSome.mpr hname)
  have hmounted : m.fsProviders.lookup name = some state.provider := by
    rw [h.mounted, hstate]
    rfl
  rw [mountedProviders, AList.lookup_to_alist, List.dlookup_map₂]
  rw [AList.lookup] at hmounted
  rw [hmounted, Option.map_some, h.live name state hstate]
  rfl

/-! ### Updates -/

/-- No event changes the loaded plugins. -/
lemma plugins_next (s : PluginHost) (e : HostEvent) : (machine.next s e).plugins = s.plugins := by
  show (s.act e).1.plugins = s.plugins
  cases e with
  | readCallback ctx path size offset read => rfl
  | poll ctx path ph => rfl
  | setAvailableStreams i streamIds =>
      rw [act]
      cases s.plugins[i]? <;> rfl
  | notifyUpdate i path =>
      rw [act]
      cases s.plugins[i]? <;> rfl

/-- **One update** of a plugin that returns the identifier its library exports. -/
lemma reached_transition {s : PluginHost} (h : ∀ lib ∈ s.plugins, ExportsOwnId lib)
    (e : HostEvent) : Reached (machine.transition s e) := by
  rintro i path lib plugin rfl hlib hplugin
  replace hlib : s.plugins[i]? = some lib := hlib
  have hid : lib.pluginId = some plugin.getId := by
    rw [h lib (List.mem_of_getElem? hlib), hplugin]
    rfl
  have hact : s.act (.notifyUpdate i path)
      = ({ s with fuse := (s.fuse.notifyPoll plugin.getId path).2 },
          some (s.fuse.notifyPoll plugin.getId path).1) := by
    simp only [act, hlib, notifyUpdate, hid]
  refine ⟨(s.fuse.notifyPoll plugin.getId path).1, congrArg Prod.snd hact,
    fun ph => IFuse.mem_notified_iff, fun c hc => ?_⟩
  show (s.act (.notifyUpdate i path)).1.fuse.mEofReached.lookup c = some false
  rw [hact]
  rw [IFuse.lookup_eof_notifyPoll]
  exact if_pos hc

/-- The events by which a client comes to wait for a file of plugin `i`, which is then updated. -/
def pollThenUpdate (i : ℕ) (name : String) : List HostEvent :=
  [.setAvailableStreams i ["f"], .poll (some ⟨0, 0⟩) [name, "f"] (some 0), .notifyUpdate i "f"]

/-- The handles after a client has polled the first stream that a plugin lists. -/
lemma handleOf_poll_setAvailableStreams {f : IFuse} {lib : SharedLib} {plugin : PluginInstance}
    (hplugin : lib.plugin = some plugin)
    (hmounted : f.fsProviders.lookup plugin.getId = some ⟨plugin.getId, some [], []⟩)
    (ctx : FuseContext) (ph : PollHandle) (id : PluginFilePair) (c : CtxId) :
    ((setAvailableStreams f lib ["f"]).poll (some ctx) [plugin.getId, "f"]
        (some ph)).2.handleOf id c
      = if id = (plugin.getId, "f") ∧ c = fuseContextToId ctx then some ph
        else f.handleOf id c := by
  have hstreams : setAvailableStreams f lib ["f"]
      = { f with fsProviders :=
            f.fsProviders.insert plugin.getId ⟨plugin.getId, some ["f"], []⟩ } := by
    simp only [setAvailableStreams, hplugin, hmounted]
  have hprovider : findProvider (setAvailableStreams f lib ["f"]).fsProviders [plugin.getId, "f"]
      = some ⟨plugin.getId, some ["f"], []⟩ := by
    rw [hstreams]
    exact AList.lookup_insert _
  have hnode : findNode (some ⟨plugin.getId, some ["f"], []⟩) [plugin.getId, "f"] = "f" := by
    simp [findNode, VirtualFSProvider.getNodes, element]
  rw [IFuse.poll, hprovider]
  dsimp only
  rw [hnode, if_neg (by decide), IFuse.handleOf_registerPoll, hstreams]
  rfl

/-- **An update under another identifier** than the one the plugin returns reaches no client. -/
lemma not_reached_of_not_exportsOwnId {s : PluginHost} {i : ℕ} {lib : SharedLib} {mId : String}
    {plugin : PluginInstance} (hfuse : s.fuse.mPollHandles = ∅) (hlib : s.plugins[i]? = some lib)
    (hid : lib.pluginId = some mId) (hplugin : lib.plugin = some plugin)
    (hmounted : s.fuse.fsProviders.lookup plugin.getId = some ⟨plugin.getId, some [], []⟩)
    (hne : mId ≠ plugin.getId) :
    ∃ t ∈ machine.trace s (pollThenUpdate i plugin.getId), ¬ Reached t := by
  let f := ((setAvailableStreams s.fuse lib ["f"]).poll (some ⟨0, 0⟩) [plugin.getId, "f"]
    (some 0)).2
  have hrun : machine.run s [.setAvailableStreams i ["f"],
      .poll (some ⟨0, 0⟩) [plugin.getId, "f"] (some 0)] = ⟨f, s.plugins⟩ := by
    simp only [Machine.run, List.foldl_cons, List.foldl_nil, Machine.next, machine, act, hlib, f]
  have hhandle : ∀ id c, f.handleOf id c
      = if id = (plugin.getId, "f") ∧ c = fuseContextToId ⟨0, 0⟩ then some 0 else none := by
    intro id c
    rw [handleOf_poll_setAvailableStreams hplugin hmounted, IFuse.handleOf_of_empty hfuse]
  have hlast := machine.mem_trace_append s [.setAvailableStreams i ["f"],
    .poll (some ⟨0, 0⟩) [plugin.getId, "f"] (some 0)] (.notifyUpdate i "f")
  rw [hrun] at hlast
  refine ⟨_, hlast, fun hreached => ?_⟩
  obtain ⟨reply, hreply, hnotified, -⟩ := hreached i "f" lib plugin rfl hlib hplugin
  have hact : act ⟨f, s.plugins⟩ (.notifyUpdate i "f")
      = (⟨(f.notifyPoll mId "f").2, s.plugins⟩, some (f.notifyPoll mId "f").1) := by
    simp only [act, hlib, notifyUpdate, hid]
  obtain rfl := Option.some.inj ((congrArg Prod.snd hact).symm.trans hreply)
  -- the client has a handle on the file, but none under the identifier that is notified
  have hmem := (hnotified 0).mpr ⟨fuseContextToId ⟨0, 0⟩, by
    show f.handleOf _ _ = some 0
    rw [hhandle, if_pos ⟨rfl, rfl⟩]⟩
  obtain ⟨c, hc⟩ := IFuse.mem_notified_iff.mp hmem
  rw [hhandle, if_neg (fun h => hne (congrArg Prod.fst h.1))] at hc
  cases hc

/-- **Updates reach the clients** that wait for the file, in all runs of clients and plugins, if and
only if every loaded library exports the identifier that its plugin returns. Identifiers of plugins
are new when they are loaded. -/
theorem updates_reach_iff (libs : List SharedLib) (options : DebugOptions)
    (hnew : ∀ t ∈ loopMachine.trace .init libs, NewId t) :
    (∀ es, ∀ t ∈ machine.trace (start libs options) es, Reached t)
      ↔ ∀ lib ∈ loadedLibs libs, ExportsOwnId lib := by
  constructor
  · intro hreached lib hlib
    obtain ⟨mId, plugin, hid, hplugin, hin⟩ := mem_mPlugins_of_mem_loadedLibs hlib
    by_contra hown
    have hne : mId ≠ plugin.getId := by
      rintro rfl
      exact hown (by rw [ExportsOwnId, hid, hplugin]; rfl)
    have hmounted : (loopMachine.run .init libs).Mounted :=
      Machine.invariant_run_of (fun m lib hm hid =>
        (StreamPluginManager.mounted_loadPlugin hm lib hid).2) StreamPluginManager.mounted_init
        libs hnew
    obtain ⟨i, hi⟩ := List.mem_iff_getElem?.mp hlib
    obtain ⟨t, ht, hnot⟩ := not_reached_of_not_exportsOwnId (s := start libs options) rfl hi hid
      hplugin (lookup_mountedProviders hmounted.agree hin) hne
    exact hnot (hreached _ t ht)
  · intro hown es t ht
    obtain ⟨pre, e, post, -, rfl⟩ := machine.exists_of_mem_trace ht
    have hplugins : (machine.run (start libs options) pre).plugins = loadedLibs libs :=
      Machine.invariant_run (I := fun s : PluginHost => s.plugins = loadedLibs libs)
        (fun s e hs => (plugins_next s e).trans hs) rfl pre
    exact reached_transition (fun lib hlib => hown lib (hplugins ▸ hlib)) e

/-- A library that exports an identifier of its own, beside the one of the plugin. -/
theorem not_updates_reach_otherId : ¬ ∀ es, ∀ t ∈ machine.trace
    (start [⟨"a.so", true, true, true, some "a", some ⟨"x", by decide, 4⟩⟩] ⟨0, false⟩) es,
      Reached t := by
  intro h
  have hown := (updates_reach_iff _ ⟨0, false⟩ (by
    intro t ht plugin hcreates
    obtain rfl := List.mem_singleton.mp ht
    exact AList.notMem_empty _)).mp h _ List.mem_cons_self
  exact absurd (Option.some.inj hown) (by decide)

end PluginHost

end StreamFs
