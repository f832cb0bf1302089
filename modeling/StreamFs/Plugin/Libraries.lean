import StreamFs.Plugin.Manager

/-!
The handles of the libraries (`StreamPluginManager.cpp`).

* `PluginLibrary`: a library, with whether it has `UNLOAD_STREAMFS_PLUGIN`. `LibraryCall`: what the
  manager does with a handle. An interface is named by the provider that is made with it.
* `loadLibrary`: one round of the loop of `loadPlugins`, with the handle. `unloadPlugins`: the loop
  over the handles that `loadPlugins` has recorded.
* `loadsMachine`, `calls`: the rounds of any number of calls of `loadPlugins`, followed by
  `unloadPlugins`.
* `Balanced`: each handle that is opened is closed once, and for each plugin that is recorded its
  own library is told to unload it, once.
* `balanced_iff`: exactly when they balance. A reload forgets the handles of the plugins it drops,
  a library of a wrong version is not closed, and `unloadPlugins` passes over a library without
  `UNLOAD_STREAMFS_PLUGIN`, and one whose plugin is recorded under another name than it exports.
-/

namespace StreamFs

/-- What `dlopen` returns, numbered by the calls: each of them is to be closed by its own
`dlclose`. -/
abbrev LibraryHandle := ℕ

/-- A shared library, with what `dlsym` finds for `unloadPlugins`. -/
structure PluginLibrary extends SharedLib where
  hasUnload : Bool

/-- What is done with a handle: it is opened and closed, a plugin of it is inserted into `mPlugins`,
and its `UNLOAD_STREAMFS_PLUGIN` is called with an interface. -/
inductive LibraryCall where
  | dlopen (hndl : LibraryHandle)
  | insert (hndl : LibraryHandle) (pluginInt : ProviderPtr)
  | unload (hndl : LibraryHandle) (pluginInt : ProviderPtr)
  | dlclose (hndl : LibraryHandle)
  deriving DecidableEq

/-- The handle that a call is about. -/
def LibraryCall.hndl : LibraryCall → LibraryHandle
  | dlopen hndl | insert hndl _ | unload hndl _ | dlclose hndl => hndl

/-- The rounds of the loop, and the start of `loadPlugins`. -/
inductive LoadEvent where
  | reload
  | library (lib : PluginLibrary)

/-- The plugin manager with its handles, and the number of the next `dlopen`. -/
structure PluginLoader where
  manager : StreamPluginManager
  mHandleArray : List (LibraryHandle × PluginLibrary)
  nextHandle : LibraryHandle

namespace PluginLoader

/-- Before the first call. -/
def init : PluginLoader := ⟨.init, [], 0⟩

/-- The interface that `mPlugins.insert` records for a library that has been loaded. An identifier
that is there keeps its entry. -/
def recorded (s : PluginLoader) (lib : PluginLibrary) : Option ProviderPtr :=
  match lib.plugin with
  | none => none
  | some plugin =>
      if plugin.getId ∈ s.manager.mPlugins then none else some s.manager.nextProvider

/-- The round of the loop for one library, with what is done with its handle. -/
def loadLibrary (s : PluginLoader) (lib : PluginLibrary) : PluginLoader × List LibraryCall :=
  let hndl := s.nextHandle
  let manager := (s.manager.loadPlugin lib.toSharedLib).1
  match (s.manager.loadPlugin lib.toSharedLib).2 with
  | .notOpened => ({ s with manager := manager }, [])
  | .noInit | .noGetId | .duplicate | .notCreated =>
      ({ s with manager := manager, nextHandle := hndl + 1 }, [.dlopen hndl, .dlclose hndl])
  | .wrongVersion => ({ s with manager := manager, nextHandle := hndl + 1 }, [.dlopen hndl])
  | .loaded =>
      (⟨manager, s.mHandleArray ++ [(hndl, lib)], hndl + 1⟩,
        .dlopen hndl :: (s.recorded lib).toList.map (.insert hndl))

/-- One event. `loadPlugins` starts with the plugins dropped and a new `mHandleArray`. -/
def act (s : PluginLoader) : LoadEvent → PluginLoader × List LibraryCall
  | .reload => ({ s with manager := s.manager.clearPlugins, mHandleArray := [] }, [])
  | .library lib => s.loadLibrary lib

/-- The rounds as a machine. -/
def loadsMachine : Machine PluginLoader LoadEvent (List LibraryCall) := ⟨act⟩

/-- The events of calls of `loadPlugins`. -/
def loads (loadCalls : List (List PluginLibrary)) : List LoadEvent :=
  loadCalls.flatMap fun sharedLibs => .reload :: sharedLibs.map .library

/-- The round of `unloadPlugins` for one handle. -/
def unloadLibrary (s : PluginLoader) (hndl : LibraryHandle) (lib : PluginLibrary) :
    List LibraryCall :=
  if ¬ lib.hasUnload then []
  else if ¬ lib.hasGetId then []
  else
    match lib.pluginId with
    | none => []
    | some pluginStr =>
        match s.manager.mPlugins.lookup pluginStr with
        | none => []
        | some res => [.unload hndl res.provider, .dlclose hndl]

/-- `unloadPlugins`. -/
def unloadPlugins (s : PluginLoader) : List LibraryCall :=
  s.mHandleArray.flatMap fun entry => s.unloadLibrary entry.1 entry.2

/-- What calls of `loadPlugins`, and `unloadPlugins` behind them, do with the handles. -/
def calls (es : List LoadEvent) : List LibraryCall :=
  (loadsMachine.outputs init es).flatten ++ (loadsMachine.run init es).unloadPlugins

/-- Each handle is closed once, and the plugins that are recorded are unloaded once, by their own
library. -/
structure Balanced (cs : List LibraryCall) : Prop where
  closed : ∀ hndl, .dlopen hndl ∈ cs → cs.count (.dlclose hndl) = 1
  unloaded : ∀ hndl pluginInt, .insert hndl pluginInt ∈ cs → cs.count (.unload hndl pluginInt) = 1
  own : ∀ hndl pluginInt, .unload hndl pluginInt ∈ cs → .insert hndl pluginInt ∈ cs

/-- The plugin that a library creates is kept to the end, and unloaded there. -/
structure Unloads (lib : PluginLibrary) (plugin : PluginInstance) : Prop where
  version : plugin.getInterfaceVersion = streamfsInterfaceVersion
  hasUnload : lib.hasUnload
  pluginId : lib.pluginId = some plugin.getId

variable {s : PluginLoader} {lib : PluginLibrary}

lemma manager_loadLibrary (s : PluginLoader) (lib : PluginLibrary) :
    (s.loadLibrary lib).1.manager = (s.manager.loadPlugin lib.toSharedLib).1 := by
  rw [loadLibrary]
  split <;> rfl

/-- The rounds of one call are those of `loadPlugins`. -/
lemma manager_run (s : PluginLoader) (sharedLibs : List PluginLibrary) :
    (loadsMachine.run s (.reload :: sharedLibs.map .library)).manager
      = s.manager.loadPlugins (sharedLibs.map PluginLibrary.toSharedLib) := by
  have hloop : ∀ s : PluginLoader, (loadsMachine.run s (sharedLibs.map .library)).manager
      = StreamPluginManager.loopMachine.run s.manager
        (sharedLibs.map PluginLibrary.toSharedLib) := by
    induction sharedLibs with
    | nil => exact fun s => rfl
    | cons lib sharedLibs ih =>
        intro s
        rw [List.map_cons, List.map_cons, Machine.run_cons, Machine.run_cons, ih]
        exact congrArg (StreamPluginManager.loopMachine.run · _) (s.manager_loadLibrary lib)
  exact hloop _

/-! ### One round -/

/-- A library that creates no plugin is not opened, or closed again. -/
lemma outcome_of_not_creates {manager : StreamPluginManager} {lib : SharedLib}
    (h : ∀ plugin, ¬ StreamPluginManager.Creates manager lib plugin) :
    (manager.loadPlugin lib).2 = .notOpened ∨ (manager.loadPlugin lib).2 = .noInit ∨
      (manager.loadPlugin lib).2 = .noGetId ∨ (manager.loadPlugin lib).2 = .duplicate ∨
        (manager.loadPlugin lib).2 = .notCreated := by
  rw [StreamPluginManager.loadPlugin]
  by_cases hopened : lib.opened
  swap
  · exact .inl (by rw [if_pos hopened])
  by_cases hinit : lib.hasInit
  swap
  · exact .inr (.inl (by rw [if_neg (not_not_intro hopened), if_pos hinit]))
  by_cases hgetId : lib.hasGetId
  swap
  · exact .inr (.inr (.inl (by
      rw [if_neg (not_not_intro hopened), if_neg (not_not_intro hinit), if_pos hgetId])))
  rw [if_neg (not_not_intro hopened), if_neg (not_not_intro hinit),
    if_neg (not_not_intro hgetId)]
  refine .inr (.inr (.inr ?_))
  cases hid : lib.pluginId with
  | none => exact .inl rfl
  | some pluginIdTmp =>
      by_cases hdup : pluginIdTmp ∈ manager.mPlugins
      · exact .inl (by simp only [if_pos hdup])
      · cases hplugin : lib.plugin with
        | none => exact .inr (by simp only [if_neg hdup])
        | some plugin =>
            exact absurd ⟨hopened, hinit, hgetId, ⟨_, hid, hdup⟩, hplugin⟩ (h plugin)

/-- A library that creates no plugin leaves nothing behind. -/
lemma loadLibrary_of_not_creates
    (h : ∀ plugin, ¬ StreamPluginManager.Creates s.manager lib.toSharedLib plugin) :
    ((s.loadLibrary lib).2 = [] ∧ (s.loadLibrary lib).1 = s ∨
      (s.loadLibrary lib).2 = [.dlopen s.nextHandle, .dlclose s.nextHandle] ∧
        (s.loadLibrary lib).1 = { s with nextHandle := s.nextHandle + 1 }) := by
  have hmanager : (s.manager.loadPlugin lib.toSharedLib).1 = s.manager := by
    rcases StreamPluginManager.loadPlugin_cases s.manager lib.toSharedLib with
      ⟨hsame, -⟩ | ⟨plugin, hcreates, -⟩
    · exact hsame
    · exact absurd hcreates (h plugin)
  rw [loadLibrary]
  rcases outcome_of_not_creates h with hout | hout | hout | hout | hout <;>
    simp only [hout, hmanager, and_self, or_true, true_or]

/-- The plugins after the creation of one. -/
lemma mountPlugin_cases (manager : StreamPluginManager) (plugin : PluginInstance)
    (soFile : String) :
    plugin.getInterfaceVersion ≠ streamfsInterfaceVersion ∧
        (manager.mountPlugin plugin soFile).2 = .wrongVersion ∧
        (manager.mountPlugin plugin soFile).1.mPlugins = manager.mPlugins ∨
      plugin.getInterfaceVersion = streamfsInterfaceVersion ∧
        (manager.mountPlugin plugin soFile).2 = .loaded ∧
        (manager.mountPlugin plugin soFile).1.mPlugins
          = if plugin.getId ∈ manager.mPlugins then manager.mPlugins
            else manager.mPlugins.insert plugin.getId ⟨manager.nextProvider, soFile⟩ := by
  rw [StreamPluginManager.mountPlugin]
  by_cases hversion : plugin.getInterfaceVersion = streamfsInterfaceVersion
  · refine .inr ⟨hversion, ?_⟩
    simp only [hversion, ne_eq, not_true_eq_false, if_false,
      StreamPluginManager.mPlugins_constructProvider]
    split
    · exact ⟨rfl, by simp⟩
    · exact ⟨rfl, rfl⟩
  · refine .inl ⟨hversion, ?_⟩
    rw [if_pos hversion]
    exact ⟨rfl, by simp⟩

/-- A library that creates a plugin is left open, and recorded unless it is of a wrong version. -/
lemma loadLibrary_of_creates {plugin : PluginInstance}
    (h : StreamPluginManager.Creates s.manager lib.toSharedLib plugin) :
    plugin.getInterfaceVersion ≠ streamfsInterfaceVersion ∧
        (s.loadLibrary lib).2 = [.dlopen s.nextHandle] ∧
        (s.loadLibrary lib).1.mHandleArray = s.mHandleArray ∧
        (s.loadLibrary lib).1.manager.mPlugins = s.manager.mPlugins ∨
      plugin.getInterfaceVersion = streamfsInterfaceVersion ∧
        (s.loadLibrary lib).2
          = .dlopen s.nextHandle :: (s.recorded lib).toList.map (.insert s.nextHandle) ∧
        (s.loadLibrary lib).1.mHandleArray = s.mHandleArray ++ [(s.nextHandle, lib)] ∧
        (s.loadLibrary lib).1.manager.mPlugins
          = if plugin.getId ∈ s.manager.mPlugins then s.manager.mPlugins
            else s.manager.mPlugins.insert plugin.getId ⟨s.manager.nextProvider, lib.soFile⟩ := by
  rcases StreamPluginManager.loadPlugin_cases s.manager lib.toSharedLib with
    ⟨-, hnone⟩ | ⟨plugin', hcreates, heq⟩
  · exact absurd h (hnone plugin)
  obtain rfl := Option.some.inj (hcreates.created.symm.trans h.created)
  rw [loadLibrary]
  rcases mountPlugin_cases s.manager plugin' lib.soFile with
    ⟨hversion, hout, hplugins⟩ | ⟨hversion, hout, hplugins⟩
  · simp only [heq, hout]
    exact .inl ⟨hversion, trivial, trivial, hplugins⟩
  · simp only [heq, hout]
    exact .inr ⟨hversion, trivial, trivial, hplugins⟩

/-! ### One handle -/

/-- A round is about its own handle. -/
lemma hndl_of_mem_loadLibrary {c : LibraryCall} (hc : c ∈ (s.loadLibrary lib).2) :
    c.hndl = s.nextHandle := by
  by_cases h : ∃ plugin, StreamPluginManager.Creates s.manager lib.toSharedLib plugin
  · obtain ⟨plugin, hcreates⟩ := h
    rcases loadLibrary_of_creates hcreates with ⟨-, hout, -⟩ | ⟨-, hout, -⟩
    · rw [hout, List.mem_singleton] at hc
      rw [hc]
      rfl
    · rw [hout, List.mem_cons, List.mem_map] at hc
      rcases hc with rfl | ⟨pluginInt, -, rfl⟩ <;> rfl
  · rcases loadLibrary_of_not_creates (not_exists.mp h) with ⟨hout, -⟩ | ⟨hout, -⟩
    · simp [hout] at hc
    · simp only [hout, List.mem_cons, List.not_mem_nil, or_false] at hc
      rcases hc with rfl | rfl <;> rfl

lemma nextHandle_loadLibrary (s : PluginLoader) (lib : PluginLibrary) :
    (s.loadLibrary lib).1.nextHandle
      = if (s.loadLibrary lib).2 = [] then s.nextHandle else s.nextHandle + 1 := by
  rw [loadLibrary]
  split <;> rfl

/-- The handles are numbered. -/
lemma tagged_loadsMachine :
    loadsMachine.Tagged LibraryCall.hndl PluginLoader.nextHandle where
  tag_eq s e c hc := by
    cases e with
    | reload => exact absurd hc List.not_mem_nil
    | library lib => exact hndl_of_mem_loadLibrary hc
  le s e := by
    cases e with
    | reload => exact le_rfl
    | library lib =>
        show s.nextHandle ≤ (s.loadLibrary lib).1.nextHandle
        rw [nextHandle_loadLibrary]
        split
        · exact le_rfl
        · exact Nat.le_succ _
  lt s e hout := by
    cases e with
    | reload => exact absurd rfl hout
    | library lib =>
        have hout : (s.loadLibrary lib).2 ≠ [] := hout
        show s.nextHandle < (s.loadLibrary lib).1.nextHandle
        rw [nextHandle_loadLibrary, if_neg hout]
        exact Nat.lt_succ_self _

/-- A round of another library leaves the entries of the handles given out before alone. -/
lemma mem_mHandleArray_loadLibrary {hndl : LibraryHandle} (h : hndl < s.nextHandle)
    (lib lib' : PluginLibrary) :
    (hndl, lib') ∈ (s.loadLibrary lib).1.mHandleArray ↔ (hndl, lib') ∈ s.mHandleArray := by
  have hne : (hndl, lib') ≠ (s.nextHandle, lib) := fun heq => h.ne (Prod.mk.injEq .. ▸ heq).1
  rw [loadLibrary]
  split <;> simp only [List.mem_append, List.mem_singleton, hne, or_false]

/-- The recorded handles have been given out, each of them once. -/
structure Numbered (s : PluginLoader) : Prop where
  lt : ∀ entry ∈ s.mHandleArray, entry.1 < s.nextHandle
  nodup : (s.mHandleArray.map Prod.fst).Nodup

lemma numbered_init : init.Numbered := ⟨by simp [init], by simp [init]⟩

lemma Numbered.next (h : s.Numbered) (e : LoadEvent) : (loadsMachine.next s e).Numbered := by
  cases e with
  | reload => exact ⟨fun _ hentry => absurd hentry List.not_mem_nil, List.nodup_nil⟩
  | library lib =>
      show (s.loadLibrary lib).1.Numbered
      have hlt : ∀ entry ∈ s.mHandleArray, entry.1 < s.nextHandle + 1 := fun entry hentry =>
        Nat.lt_succ_of_lt (h.lt entry hentry)
      rw [loadLibrary]
      split
      · exact ⟨h.lt, h.nodup⟩
      · exact ⟨hlt, h.nodup⟩
      · exact ⟨hlt, h.nodup⟩
      · exact ⟨hlt, h.nodup⟩
      · exact ⟨hlt, h.nodup⟩
      · exact ⟨hlt, h.nodup⟩
      · constructor
        · simp only [List.mem_append, List.mem_singleton]
          rintro entry (hentry | rfl)
          · exact hlt entry hentry
          · exact Nat.lt_succ_self _
        · rw [List.map_append, List.nodup_append']
          refine ⟨h.nodup, List.nodup_singleton _, ?_⟩
          simp only [List.map_cons, List.map_nil, List.disjoint_singleton, List.mem_map, not_exists,
            not_and]
          intro entry hentry heq
          exact absurd (h.lt entry hentry) (heq ▸ Nat.lt_irrefl _)

/-- The round of `unloadPlugins` passes over the library, or unloads the plugin found under the
identifier that it exports. -/
lemma unloadLibrary_cases (s : PluginLoader) (hndl : LibraryHandle) (lib : PluginLibrary) :
    s.unloadLibrary hndl lib = [] ∨
      ∃ pluginStr res, lib.hasUnload ∧ lib.pluginId = some pluginStr ∧
        s.manager.mPlugins.lookup pluginStr = some res ∧
        s.unloadLibrary hndl lib = [.unload hndl res.provider, .dlclose hndl] := by
  rw [unloadLibrary]
  by_cases hunload : lib.hasUnload
  swap
  · exact .inl (if_pos hunload)
  by_cases hgetId : lib.hasGetId
  swap
  · exact .inl (by rw [if_neg (not_not_intro hunload), if_pos hgetId])
  rw [if_neg (not_not_intro hunload), if_neg (not_not_intro hgetId)]
  cases hid : lib.pluginId with
  | none => exact .inl rfl
  | some pluginStr =>
      cases hres : s.manager.mPlugins.lookup pluginStr with
      | none => exact .inl (by simp only [hres])
      | some res => exact .inr ⟨pluginStr, res, hunload, rfl, hres, by simp only [hres]⟩

/-- The library is unloaded whose plugin is there under the identifier that it exports. -/
lemma unloadLibrary_of_lookup (hndl : LibraryHandle) (hunload : lib.hasUnload)
    (hgetId : lib.hasGetId) {pluginStr : String} (hid : lib.pluginId = some pluginStr)
    {res : PluginState} (hres : s.manager.mPlugins.lookup pluginStr = some res) :
    s.unloadLibrary hndl lib = [.unload hndl res.provider, .dlclose hndl] := by
  rw [unloadLibrary, if_neg (not_not_intro hunload), if_neg (not_not_intro hgetId)]
  simp only [hid, hres]

lemma hndl_of_mem_unloadLibrary {hndl : LibraryHandle} {c : LibraryCall}
    (hc : c ∈ s.unloadLibrary hndl lib) : c.hndl = hndl := by
  rcases s.unloadLibrary_cases hndl lib with hnil | ⟨pluginStr, res, -, -, -, hcalls⟩
  · exact absurd (hnil ▸ hc) List.not_mem_nil
  · simp only [hcalls, List.mem_cons, List.not_mem_nil, or_false] at hc
    rcases hc with rfl | rfl <;> rfl

/-- The rounds of other handles. -/
lemma filter_unloadLibrary_eq_nil (s : PluginLoader) {hndl : LibraryHandle}
    {entries : List (LibraryHandle × PluginLibrary)} (hnot : hndl ∉ entries.map Prod.fst) :
    (entries.flatMap fun entry => s.unloadLibrary entry.1 entry.2).filter
      (fun c => c.hndl = hndl) = [] := by
  rw [List.filter_eq_nil_iff]
  intro c hc
  obtain ⟨entry, hentry, hc⟩ := List.mem_flatMap.mp hc
  rw [decide_eq_true_eq, hndl_of_mem_unloadLibrary hc]
  rintro rfl
  exact hnot (List.mem_map_of_mem hentry)

/-- Among the calls of `unloadPlugins`, those about a recorded handle are those of its round. -/
lemma Numbered.filter_unloadPlugins (h : s.Numbered) {hndl : LibraryHandle}
    (hmem : (hndl, lib) ∈ s.mHandleArray) :
    s.unloadPlugins.filter (fun c => c.hndl = hndl) = s.unloadLibrary hndl lib := by
  obtain ⟨before, behind, hsplit⟩ := List.append_of_mem hmem
  have hnodup := h.nodup
  rw [hsplit, List.map_append, List.map_cons, List.nodup_append', List.nodup_cons] at hnodup
  obtain ⟨-, ⟨hbehind, -⟩, hdisjoint⟩ := hnodup
  have hbefore : hndl ∉ before.map Prod.fst := fun hin => hdisjoint hin List.mem_cons_self
  have hself : (s.unloadLibrary hndl lib).filter (fun c => c.hndl = hndl)
      = s.unloadLibrary hndl lib :=
    List.filter_eq_self.mpr fun c hc => decide_eq_true (hndl_of_mem_unloadLibrary hc)
  rw [unloadPlugins, hsplit, List.flatMap_append, List.flatMap_cons, List.filter_append,
    List.filter_append, s.filter_unloadLibrary_eq_nil hbefore,
    s.filter_unloadLibrary_eq_nil hbehind, hself, List.nil_append, List.append_nil]

/-! ### The plugins -/

/-- The recorded plugins have providers of their own, made before the next one. -/
structure Distinct (s : StreamPluginManager) : Prop where
  lt : ∀ name state, s.mPlugins.lookup name = some state → state.provider < s.nextProvider
  inj : ∀ name name' state state', s.mPlugins.lookup name = some state →
    s.mPlugins.lookup name' = some state' → state.provider = state'.provider → name = name'

lemma distinct_of_empty {manager : StreamPluginManager} (h : manager.mPlugins = ∅) :
    Distinct manager := by
  have hnone : ∀ name state, manager.mPlugins.lookup name ≠ some state := by
    intro name state hstate
    rw [h] at hstate
    cases hstate
  exact ⟨fun name state hstate => absurd hstate (hnone name state),
    fun name _ state _ hstate => absurd hstate (hnone name state)⟩

/-- A round of the loop makes at most one provider, the next one, and records at most that one,
under a new name. -/
lemma lookup_loadPlugin (manager : StreamPluginManager) (lib : SharedLib) :
    manager.nextProvider ≤ (manager.loadPlugin lib).1.nextProvider ∧
      ((manager.loadPlugin lib).1.mPlugins = manager.mPlugins ∨
        ∃ name soFile, manager.nextProvider < (manager.loadPlugin lib).1.nextProvider ∧
          name ∉ manager.mPlugins ∧ (manager.loadPlugin lib).1.mPlugins
            = manager.mPlugins.insert name ⟨manager.nextProvider, soFile⟩) := by
  rcases StreamPluginManager.loadPlugin_cases manager lib with ⟨hsame, -⟩ | ⟨plugin, -, heq⟩
  · rw [hsame]
    exact ⟨le_rfl, .inl rfl⟩
  have hnext : (manager.mountPlugin plugin lib.soFile).1.nextProvider
      = manager.nextProvider + 1 := by
    rw [StreamPluginManager.mountPlugin]
    split_ifs <;> simp
  rw [heq, hnext]
  refine ⟨Nat.le_succ _, ?_⟩
  rcases mountPlugin_cases manager plugin lib.soFile with ⟨-, -, hplugins⟩ | ⟨-, -, hplugins⟩
  · exact .inl hplugins
  · by_cases hmem : plugin.getId ∈ manager.mPlugins
    · exact .inl (hplugins.trans (if_pos hmem))
    · exact .inr ⟨_, _, Nat.lt_succ_self _, hmem, hplugins.trans (if_neg hmem)⟩

lemma Distinct.loadPlugin {manager : StreamPluginManager} (h : Distinct manager) (lib : SharedLib) :
    Distinct (manager.loadPlugin lib).1 := by
  obtain ⟨hle, hsame | ⟨name, soFile, hlt, hnew, hplugins⟩⟩ := lookup_loadPlugin manager lib
  · refine ⟨fun name state hstate => ?_, ?_⟩
    · exact (h.lt name state (hsame ▸ hstate)).trans_le hle
    · rw [hsame]
      exact h.inj
  · have hcases : ∀ other state, (manager.loadPlugin lib).1.mPlugins.lookup other = some state →
        other = name ∧ state.provider = manager.nextProvider ∨
          manager.mPlugins.lookup other = some state := by
      intro other state hstate
      rw [hplugins] at hstate
      by_cases hother : other = name
      · rw [hother, AList.lookup_insert, Option.some.injEq] at hstate
        exact .inl ⟨hother, hstate ▸ rfl⟩
      · rw [AList.lookup_insert_ne hother] at hstate
        exact .inr hstate
    constructor
    · intro other state hstate
      rcases hcases other state hstate with ⟨-, heq⟩ | hold
      · exact heq ▸ hlt
      · exact (h.lt other state hold).trans hlt
    · intro other other' state state' hstate hstate' heq
      rcases hcases other state hstate with ⟨hother, hprov⟩ | hold <;>
        rcases hcases other' state' hstate' with ⟨hother', hprov'⟩ | hold'
      · exact hother.trans hother'.symm
      · exact absurd (heq ▸ hprov) (h.lt other' state' hold').ne
      · exact absurd (heq.symm ▸ hprov') (h.lt other state hold).ne
      · exact h.inj other other' state state' hold hold' heq

/-- What is recorded stays recorded. -/
lemma lookup_loadPlugin_of_lookup {manager : StreamPluginManager} {name : String}
    {state : PluginState} (h : manager.mPlugins.lookup name = some state) (lib : SharedLib) :
    (manager.loadPlugin lib).1.mPlugins.lookup name = some state := by
  obtain ⟨-, hsame | ⟨name', soFile, -, hnew, hplugins⟩⟩ := lookup_loadPlugin manager lib
  · rw [hsame]
    exact h
  · have hne : name ≠ name' := by
      rintro rfl
      rw [AList.lookup_eq_none.mpr hnew] at h
      cases h
    rw [hplugins, AList.lookup_insert_ne hne]
    exact h

/-! ### The rounds behind a round -/

lemma distinct_run (es : List LoadEvent) : Distinct (loadsMachine.run init es).manager := by
  refine Machine.invariant_run (I := fun s : PluginLoader => Distinct s.manager) (fun s e hs => ?_)
    (distinct_of_empty rfl) es
  cases e with
  | reload => exact distinct_of_empty rfl
  | library lib =>
      show Distinct (s.loadLibrary lib).1.manager
      rw [manager_loadLibrary]
      exact hs.loadPlugin lib.toSharedLib

/-- The rounds of the same call keep a plugin that is recorded. -/
lemma lookup_run {name : String} {state : PluginState}
    (h : s.manager.mPlugins.lookup name = some state) {es : List LoadEvent}
    (hes : .reload ∉ es) :
    (loadsMachine.run s es).manager.mPlugins.lookup name = some state := by
  refine Machine.invariant_run_of_events (m := loadsMachine)
    (I := fun s' : PluginLoader => s'.manager.mPlugins.lookup name = some state)
    (fun s e hs hne => ?_) h fun e he => ne_of_mem_of_not_mem he hes
  cases e with
  | reload => exact absurd rfl hne
  | library lib =>
      show (s.loadLibrary lib).1.manager.mPlugins.lookup name = some state
      rw [manager_loadLibrary]
      exact lookup_loadPlugin_of_lookup hs lib.toSharedLib

/-- The rounds of the same call keep the entry of a handle given out before. -/
lemma mem_mHandleArray_run {hndl : LibraryHandle} (h : hndl < s.nextHandle) {es : List LoadEvent}
    (hes : .reload ∉ es) (lib : PluginLibrary) :
    (hndl, lib) ∈ (loadsMachine.run s es).mHandleArray ↔ (hndl, lib) ∈ s.mHandleArray := by
  refine (Machine.invariant_run_of_events (m := loadsMachine)
    (I := fun s' => hndl < s'.nextHandle ∧
      ((hndl, lib) ∈ s'.mHandleArray ↔ (hndl, lib) ∈ s.mHandleArray))
    (fun s' e hs' hne => ?_) ⟨h, Iff.rfl⟩ fun e he => ne_of_mem_of_not_mem he hes).2
  cases e with
  | reload => exact absurd rfl hne
  | library lib' =>
      exact ⟨hs'.1.trans_le (tagged_loadsMachine.le s' (.library lib')),
        (mem_mHandleArray_loadLibrary hs'.1 lib' lib).trans hs'.2⟩

/-- A handle that is not recorded never will be, and a reload forgets all of them. -/
lemma not_mem_mHandleArray_run {hndl : LibraryHandle} (h : hndl < s.nextHandle)
    {es : List LoadEvent}
    (hes : .reload ∈ es ∨ hndl ∉ s.mHandleArray.map Prod.fst) :
    hndl ∉ (loadsMachine.run s es).mHandleArray.map Prod.fst := by
  induction es generalizing s with
  | nil => exact hes.resolve_left List.not_mem_nil
  | cons e es ih =>
      have hlt : hndl < (loadsMachine.next s e).nextHandle :=
        h.trans_le (tagged_loadsMachine.le s e)
      cases e with
      | reload => exact ih hlt (.inr List.not_mem_nil)
      | library lib =>
          refine ih hlt (hes.imp (fun hmem => ?_) fun hnot hin => ?_)
          · exact (List.mem_cons.mp hmem).resolve_left nofun
          · obtain ⟨⟨_, lib'⟩, hentry, rfl⟩ := List.mem_map.mp hin
            exact hnot (List.mem_map_of_mem
              ((mem_mHandleArray_loadLibrary h lib lib').mp hentry))

lemma numbered_run (es : List LoadEvent) : (loadsMachine.run init es).Numbered :=
  Machine.invariant_run (I := Numbered) (fun _ e hs => hs.next e) numbered_init es

/-! ### Balance -/

lemma count_filter_hndl (cs : List LibraryCall) (c : LibraryCall) :
    (cs.filter fun c' => c'.hndl = c.hndl).count c = cs.count c :=
  List.count_filter (decide_eq_true rfl)

/-- What is said about one handle is said of the calls about it. -/
lemma balanced_iff_filter (cs : List LibraryCall) :
    Balanced cs ↔ ∀ hndl, Balanced (cs.filter fun c => c.hndl = hndl) := by
  constructor
  · intro h hndl
    constructor
    · intro hndl' hmem
      obtain ⟨hmem, heq⟩ := List.mem_filter.mp hmem
      rw [List.count_filter (by exact heq)]
      exact h.closed hndl' hmem
    · intro hndl' pluginInt hmem
      obtain ⟨hmem, heq⟩ := List.mem_filter.mp hmem
      rw [List.count_filter (by exact heq)]
      exact h.unloaded hndl' pluginInt hmem
    · intro hndl' pluginInt hmem
      obtain ⟨hmem, heq⟩ := List.mem_filter.mp hmem
      exact List.mem_filter.mpr ⟨h.own hndl' pluginInt hmem, heq⟩
  · intro h
    have hin : ∀ {c}, c ∈ cs → c ∈ cs.filter fun c' => c'.hndl = c.hndl := fun hmem =>
      List.mem_filter.mpr ⟨hmem, decide_eq_true rfl⟩
    constructor
    · intro hndl hmem
      exact (count_filter_hndl cs (.dlclose hndl)).symm.trans ((h hndl).closed hndl (hin hmem))
    · intro hndl pluginInt hmem
      exact (count_filter_hndl cs (.unload hndl pluginInt)).symm.trans
        ((h hndl).unloaded hndl pluginInt (hin hmem))
    · intro hndl pluginInt hmem
      exact (List.mem_filter.mp ((h hndl).own hndl pluginInt (hin hmem))).1

lemma balanced_nil : Balanced [] := ⟨by simp, by simp, by simp⟩

lemma balanced_closed (hndl : LibraryHandle) : Balanced [.dlopen hndl, .dlclose hndl] where
  closed hndl' h := by
    simp only [List.mem_cons, LibraryCall.dlopen.injEq, reduceCtorEq, List.not_mem_nil,
      or_false] at h
    subst h
    simp
  unloaded _ _ h := by simp at h
  own _ _ h := by simp at h

/-- A handle that stays open. -/
lemma not_balanced_of_open {cs : List LibraryCall} (hndl : LibraryHandle)
    (hopen : .dlopen hndl ∈ cs) (hclose : .dlclose hndl ∉ cs) : ¬ Balanced cs := by
  intro h
  have hcount := h.closed hndl hopen
  rw [List.count_eq_zero_of_not_mem hclose] at hcount
  exact absurd hcount zero_ne_one

/-- A library whose plugin is unloaded balances iff it is its own plugin. -/
lemma balanced_unloaded_iff (hndl : LibraryHandle) (pluginInt? : Option ProviderPtr)
    (pluginInt : ProviderPtr) :
    Balanced (.dlopen hndl :: pluginInt?.toList.map (.insert hndl) ++
        [.unload hndl pluginInt, .dlclose hndl]) ↔ pluginInt? = some pluginInt := by
  constructor
  · intro h
    have hown := h.own hndl pluginInt (by simp)
    simpa using hown
  · rintro rfl
    constructor
    · intro hndl' h
      obtain rfl : hndl' = hndl := by simpa using h
      simp
    · intro hndl' pluginInt' h
      obtain ⟨rfl, rfl⟩ : hndl' = hndl ∧ pluginInt' = pluginInt := by simpa [eq_comm] using h
      simp
    · intro hndl' pluginInt' h
      obtain ⟨rfl, rfl⟩ : hndl' = hndl ∧ pluginInt' = pluginInt := by simpa using h
      simp

/-- The calls about the handle of a round: those of the round, and those of `unloadPlugins`. -/
lemma filter_calls (pre post : List LoadEvent) (lib : PluginLibrary)
    (hout : ((loadsMachine.run init pre).loadLibrary lib).2 ≠ []) :
    (calls (pre ++ .library lib :: post)).filter
        (fun c => c.hndl = (loadsMachine.run init pre).nextHandle)
      = ((loadsMachine.run init pre).loadLibrary lib).2 ++
        (loadsMachine.run init (pre ++ .library lib :: post)).unloadPlugins.filter
          (fun c => c.hndl = (loadsMachine.run init pre).nextHandle) := by
  have hround := tagged_loadsMachine.filter_outputs_eq init pre (.library lib) post hout
  rw [calls, List.filter_append, hround]
  rfl

/-- The calls of `unloadPlugins` about the handle of a round that has not recorded it, or that a
reload follows. -/
lemma filter_unloadPlugins_run_eq_nil {pre post : List LoadEvent}
    (hout : ((loadsMachine.run init pre).loadLibrary lib).2 ≠ [])
    (h : .reload ∈ post ∨ ((loadsMachine.run init pre).loadLibrary lib).1.mHandleArray
      = (loadsMachine.run init pre).mHandleArray) :
    (loadsMachine.run init (pre ++ .library lib :: post)).unloadPlugins.filter
      (fun c => c.hndl = (loadsMachine.run init pre).nextHandle) = [] := by
  have hnot : (loadsMachine.run init pre).nextHandle
      ∉ (loadsMachine.run init pre).mHandleArray.map Prod.fst := by
    intro hin
    obtain ⟨entry, hentry, heq⟩ := List.mem_map.mp hin
    exact absurd ((numbered_run pre).lt entry hentry) (heq ▸ Nat.lt_irrefl _)
  have hlt : (loadsMachine.run init pre).nextHandle
      < (loadsMachine.next (loadsMachine.run init pre) (.library lib)).nextHandle :=
    tagged_loadsMachine.lt _ (.library lib) hout
  rw [Machine.run_append, Machine.run_cons]
  refine filter_unloadLibrary_eq_nil _ (not_mem_mHandleArray_run hlt (h.imp_right fun hsame => ?_))
  show _ ∉ ((loadsMachine.run init pre).loadLibrary lib).1.mHandleArray.map Prod.fst
  rw [hsame]
  exact hnot

/-- The calls of `unloadPlugins` about the handle of the last call that has recorded it. -/
lemma filter_unloadPlugins_run {pre post : List LoadEvent}
    (hout : ((loadsMachine.run init pre).loadLibrary lib).2 ≠ []) (hpost : .reload ∉ post)
    (hrecorded : ((loadsMachine.run init pre).loadLibrary lib).1.mHandleArray
      = (loadsMachine.run init pre).mHandleArray
        ++ [((loadsMachine.run init pre).nextHandle, lib)]) :
    (loadsMachine.run init (pre ++ .library lib :: post)).unloadPlugins.filter
        (fun c => c.hndl = (loadsMachine.run init pre).nextHandle)
      = (loadsMachine.run init (pre ++ .library lib :: post)).unloadLibrary
        (loadsMachine.run init pre).nextHandle lib := by
  refine (numbered_run _).filter_unloadPlugins ?_
  have hlt : (loadsMachine.run init pre).nextHandle
      < (loadsMachine.next (loadsMachine.run init pre) (.library lib)).nextHandle :=
    tagged_loadsMachine.lt _ (.library lib) hout
  rw [Machine.run_append, Machine.run_cons, mem_mHandleArray_run hlt hpost]
  show _ ∈ ((loadsMachine.run init pre).loadLibrary lib).1.mHandleArray
  rw [hrecorded]
  exact List.mem_append_right _ (List.mem_singleton_self _)

/-- **One handle** that has been loaded in the last call balances iff its library unloads its
plugin. -/
lemma balanced_loaded_iff {pre post : List LoadEvent} {plugin : PluginInstance}
    (hcreates : StreamPluginManager.Creates (loadsMachine.run init pre).manager lib.toSharedLib
      plugin)
    (hpost : .reload ∉ post)
    (hplugins : ((loadsMachine.run init pre).loadLibrary lib).1.manager.mPlugins
      = if plugin.getId ∈ (loadsMachine.run init pre).manager.mPlugins
        then (loadsMachine.run init pre).manager.mPlugins
        else (loadsMachine.run init pre).manager.mPlugins.insert plugin.getId
          ⟨(loadsMachine.run init pre).manager.nextProvider, lib.soFile⟩) :
    Balanced (.dlopen (loadsMachine.run init pre).nextHandle ::
        ((loadsMachine.run init pre).recorded lib).toList.map
          (.insert (loadsMachine.run init pre).nextHandle) ++
        (loadsMachine.run init (pre ++ .library lib :: post)).unloadLibrary
          (loadsMachine.run init pre).nextHandle lib)
      ↔ lib.hasUnload ∧ lib.pluginId = some plugin.getId := by
  have hrecorded : (loadsMachine.run init pre).recorded lib
      = if plugin.getId ∈ (loadsMachine.run init pre).manager.mPlugins then none
        else some (loadsMachine.run init pre).manager.nextProvider := by
    rw [recorded, hcreates.created]
  have hlookup : plugin.getId ∉ (loadsMachine.run init pre).manager.mPlugins →
      (loadsMachine.run init (pre ++ .library lib :: post)).manager.mPlugins.lookup plugin.getId
        = some ⟨(loadsMachine.run init pre).manager.nextProvider, lib.soFile⟩ := by
    intro hnew
    rw [Machine.run_append, Machine.run_cons]
    refine lookup_run ?_ hpost
    show ((loadsMachine.run init pre).loadLibrary lib).1.manager.mPlugins.lookup _ = _
    rw [hplugins, if_neg hnew, AList.lookup_insert]
  rw [hrecorded]
  constructor
  · intro h
    rcases unloadLibrary_cases (loadsMachine.run init (pre ++ .library lib :: post))
      (loadsMachine.run init pre).nextHandle lib with
      hnil | ⟨pluginStr, res, hunload, hid, hres, hcalls⟩
    · rw [hnil] at h
      exact absurd h (not_balanced_of_open (loadsMachine.run init pre).nextHandle (by simp)
        (by simp))
    · -- the plugin that is unloaded is the one that this library has recorded
      rw [hcalls, balanced_unloaded_iff] at h
      split_ifs at h with hmem
      have hprovider : (loadsMachine.run init pre).manager.nextProvider = res.provider :=
        Option.some.inj h
      have hsame := (distinct_run (pre ++ .library lib :: post)).inj _ _ _ _ hres (hlookup hmem)
        hprovider.symm
      exact ⟨hunload, hid.trans (congrArg some hsame)⟩
  · rintro ⟨hunload, hid⟩
    obtain ⟨pluginIdTmp, hsome, hnew⟩ := hcreates.notLoaded
    obtain rfl := Option.some.inj (hid.symm.trans hsome)
    rw [unloadLibrary_of_lookup _ hunload hcreates.hasGetId hid (hlookup hnew),
      balanced_unloaded_iff, if_neg hnew]

/-- **The round of a library balances** iff it creates no plugin, or creates it in the last call and
unloads it in the end. -/
lemma balanced_round_iff (pre post : List LoadEvent) (lib : PluginLibrary)
    (hout : ((loadsMachine.run init pre).loadLibrary lib).2 ≠ []) :
    Balanced ((calls (pre ++ .library lib :: post)).filter
        (fun c => c.hndl = (loadsMachine.run init pre).nextHandle))
      ↔ ∀ plugin, StreamPluginManager.Creates (loadsMachine.run init pre).manager lib.toSharedLib
          plugin → .reload ∉ post ∧ Unloads lib plugin := by
  rw [filter_calls pre post lib hout]
  by_cases hnone : ∀ plugin,
      ¬ StreamPluginManager.Creates (loadsMachine.run init pre).manager lib.toSharedLib plugin
  · refine iff_of_true ?_ fun plugin h => absurd h (hnone plugin)
    rcases loadLibrary_of_not_creates hnone with ⟨hnil, -⟩ | ⟨hclosed, hsame⟩
    · exact absurd hnil hout
    · rw [filter_unloadPlugins_run_eq_nil hout (.inr (by rw [hsame])), hclosed, List.append_nil]
      exact balanced_closed _
  push Not at hnone
  obtain ⟨plugin, hcreates⟩ := hnone
  have hthis : (∀ plugin', StreamPluginManager.Creates (loadsMachine.run init pre).manager
      lib.toSharedLib plugin' → .reload ∉ post ∧ Unloads lib plugin')
        ↔ .reload ∉ post ∧ Unloads lib plugin := by
    refine ⟨fun h => h plugin hcreates, fun h plugin' hcreates' => ?_⟩
    obtain rfl := Option.some.inj (hcreates.created.symm.trans hcreates'.created)
    exact h
  rw [hthis]
  rcases loadLibrary_of_creates hcreates with
    ⟨hversion, hcalls, hsame, -⟩ | ⟨hversion, hcalls, hrecorded, hplugins⟩
  · refine iff_of_false ?_ fun h => hversion h.2.version
    rw [filter_unloadPlugins_run_eq_nil hout (.inr hsame), hcalls]
    exact not_balanced_of_open (loadsMachine.run init pre).nextHandle (by simp) (by simp)
  · by_cases hpost : .reload ∈ post
    · refine iff_of_false ?_ fun h => h.1 hpost
      rw [filter_unloadPlugins_run_eq_nil hout (.inl hpost), hcalls]
      exact not_balanced_of_open (loadsMachine.run init pre).nextHandle (by simp) (by simp)
    · rw [filter_unloadPlugins_run hout hpost hrecorded, hcalls,
        balanced_loaded_iff hcreates hpost hplugins]
      exact ⟨fun h => ⟨hpost, hversion, h.1, h.2⟩, fun h => ⟨h.2.hasUnload, h.2.pluginId⟩⟩

/-- A handle that a round records has been opened in it. -/
lemma dlopen_of_mem_loadLibrary {entry : LibraryHandle × PluginLibrary}
    (hentry : entry ∈ (s.loadLibrary lib).1.mHandleArray) :
    entry ∈ s.mHandleArray ∨ .dlopen entry.1 ∈ (s.loadLibrary lib).2 := by
  by_cases h : ∃ plugin, StreamPluginManager.Creates s.manager lib.toSharedLib plugin
  · obtain ⟨plugin, hcreates⟩ := h
    rcases loadLibrary_of_creates hcreates with ⟨-, -, hsame, -⟩ | ⟨-, hcalls, hrecorded, -⟩
    · exact .inl (hsame ▸ hentry)
    · rw [hrecorded, List.mem_append, List.mem_singleton] at hentry
      refine hentry.imp_right ?_
      rintro rfl
      rw [hcalls]
      exact List.mem_cons_self
  · rcases loadLibrary_of_not_creates (not_exists.mp h) with ⟨-, hsame⟩ | ⟨-, hsame⟩
    · rw [hsame] at hentry
      exact .inl hentry
    · rw [hsame] at hentry
      exact .inl hentry

/-- A recorded handle has been opened in a round before. -/
lemma dlopen_of_mem_mHandleArray (es : List LoadEvent) :
    ∀ entry ∈ (loadsMachine.run init es).mHandleArray,
      .dlopen entry.1 ∈ (loadsMachine.outputs init es).flatten := by
  induction es using List.reverseRecOn with
  | nil => exact fun entry hentry => absurd hentry List.not_mem_nil
  | append_singleton es e ih =>
      intro entry hentry
      rw [Machine.run_append, Machine.run_singleton] at hentry
      rw [Machine.outputs_append, List.flatten_append, List.mem_append]
      cases e with
      | reload => exact absurd hentry List.not_mem_nil
      | library lib =>
          refine (dlopen_of_mem_loadLibrary hentry).imp (ih entry) fun hmem => ?_
          rw [Machine.outputs, Machine.outputs, List.flatten_cons, List.flatten_nil,
            List.append_nil]
          exact hmem

/-- Each call is about the handle of a round. -/
lemma exists_round_of_mem {es : List LoadEvent} {c : LibraryCall} (hc : c ∈ calls es) :
    ∃ pre lib post, es = pre ++ .library lib :: post ∧
      ((loadsMachine.run init pre).loadLibrary lib).2 ≠ [] ∧
        c.hndl = (loadsMachine.run init pre).nextHandle := by
  have hround : ∀ c' ∈ (loadsMachine.outputs init es).flatten, ∃ pre lib post,
      es = pre ++ .library lib :: post ∧ ((loadsMachine.run init pre).loadLibrary lib).2 ≠ [] ∧
        c'.hndl = (loadsMachine.run init pre).nextHandle := by
    intro c' hc'
    obtain ⟨pre, e, post, rfl, hmem, htag⟩ := tagged_loadsMachine.exists_step hc'
    cases e with
    | reload => exact absurd hmem List.not_mem_nil
    | library lib => exact ⟨pre, lib, post, rfl, List.ne_nil_of_mem hmem, htag⟩
  rcases List.mem_append.mp hc with hc | hc
  · exact hround c hc
  · obtain ⟨entry, hentry, hc⟩ := List.mem_flatMap.mp hc
    rw [hndl_of_mem_unloadLibrary hc]
    exact hround (.dlopen entry.1) (dlopen_of_mem_mHandleArray es entry hentry)

/-- **The handles balance** iff each library that creates a plugin does so in the last call of
`loadPlugins`, is of the interface version that is asked for, has `UNLOAD_STREAMFS_PLUGIN`, and
exports the identifier of its plugin. -/
theorem balanced_iff (loadCalls : List (List PluginLibrary)) :
    Balanced (calls (loads loadCalls))
      ↔ ∀ pre lib post, loads loadCalls = pre ++ .library lib :: post →
          ∀ plugin, StreamPluginManager.Creates (loadsMachine.run init pre).manager lib.toSharedLib
            plugin → .reload ∉ post ∧ Unloads lib plugin := by
  rw [balanced_iff_filter]
  constructor
  · intro h pre lib post hsplit plugin hcreates
    have hout : ((loadsMachine.run init pre).loadLibrary lib).2 ≠ [] := by
      rcases loadLibrary_of_creates hcreates with ⟨-, hcalls, -⟩ | ⟨-, hcalls, -⟩ <;> simp [hcalls]
    have hbalanced := h (loadsMachine.run init pre).nextHandle
    rw [hsplit] at hbalanced
    exact (balanced_round_iff pre post lib hout).mp hbalanced plugin hcreates
  · intro h hndl
    by_cases hmem : ∃ c ∈ calls (loads loadCalls), c.hndl = hndl
    · obtain ⟨c, hc, rfl⟩ := hmem
      obtain ⟨pre, lib, post, hsplit, hout, hround⟩ := exists_round_of_mem hc
      rw [hround, hsplit, balanced_round_iff pre post lib hout]
      exact h pre lib post hsplit
    · have hnil : (calls (loads loadCalls)).filter (fun c => c.hndl = hndl) = [] :=
        List.filter_eq_nil_iff.mpr fun c hc heq => hmem ⟨c, hc, of_decide_eq_true heq⟩
      rw [hnil]
      exact balanced_nil

/-- A library with everything in its place. -/
def wholeLib : PluginLibrary :=
  ⟨⟨"a.so", true, true, true, some "a", some ⟨"a", by decide, 4⟩⟩, true⟩

/-- It is loaded, and loaded again after a change of the configuration. -/
theorem not_forall_balanced :
    ¬ ∀ loadCalls : List (List PluginLibrary), Balanced (calls (loads loadCalls)) := by
  intro h
  have hclosed := (h [[wholeLib], [wholeLib]]).closed 0 (by decide +kernel)
  exact absurd hclosed (by decide +kernel)

end PluginLoader

end StreamFs
