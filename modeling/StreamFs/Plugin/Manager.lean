import Mathlib.Data.List.AList
import StreamFs.Base.Machine

/-!
Loading plugins and mounting their providers (`StreamPluginManager.cpp`, `VirtualFSProvider.cpp`,
`IFuse.cpp`).

* `constructProvider`, `destroyProvider`: the constructor of a provider registers it under its name
  unless the name is taken, the destructor removes whatever is registered under the name.
* `loadPlugin`, `loadPlugins`: one library, and all libraries after the plugins of the last time
  have been dropped.  What a library answers is an argument.
* `MountsAgree`: the mounted providers are those of the loaded plugins.
* `mounts_agree_iff`: the mounts and the plugins agree all along if and only if no library that
  creates a plugin has one with the identifier of a plugin loaded before.  The test for duplicates
  looks at the identifier that the library exports instead.
-/

namespace StreamFs

/-- `STREAMFS_INTERFACE_VERSION`. -/
def streamfsInterfaceVersion : UInt32 := 4

/-- What `INIT_STREAMFS_PLUGIN` creates: a plugin that is not called by the empty name. -/
structure PluginInstance where
  getId : String
  getId_ne : getId ≠ ""
  getInterfaceVersion : UInt32

/-- A shared library: what `dlopen`, `dlsym`, `GET_STREAMFS_PLUGIN_ID` and `INIT_STREAMFS_PLUGIN`
give for it. -/
structure SharedLib where
  soFile : String
  opened : Bool
  hasInit : Bool
  hasGetId : Bool
  pluginId : Option String
  plugin : Option PluginInstance

/-- Where the loading of a library ends. -/
inductive LoadOutcome where
  | notOpened | noInit | noGetId | duplicate | notCreated | wrongVersion | loaded
  deriving DecidableEq

/-- A `VirtualFSProvider *`. -/
abbrev ProviderPtr := ℕ

/-- `PluginState`. -/
structure PluginState where
  provider : ProviderPtr
  libraryPath : String
  deriving DecidableEq

/-- The loaded plugins, the mounted providers, the providers that live with their names, and the
address of the next one. -/
structure StreamPluginManager where
  mPlugins : AList fun _ : String => PluginState
  fsProviders : AList fun _ : String => ProviderPtr
  providers : AList fun _ : ProviderPtr => String
  nextProvider : ProviderPtr

namespace StreamPluginManager

/-- `registerFsProvider`: `insert` leaves an entry that is there already. -/
def registerFsProvider (s : StreamPluginManager) (name : String) (provider : ProviderPtr) :
    StreamPluginManager :=
  if name ∈ s.fsProviders then s
  else { s with fsProviders := s.fsProviders.insert name provider }

/-- `removeFsProvider`. -/
def removeFsProvider (s : StreamPluginManager) (id : String) : StreamPluginManager :=
  { s with fsProviders := s.fsProviders.erase id }

/-- The constructor of the provider of a plugin. -/
def constructProvider (s : StreamPluginManager) (name : String) : StreamPluginManager :=
  registerFsProvider
    { s with
      providers := s.providers.insert s.nextProvider name
      nextProvider := s.nextProvider + 1 } name s.nextProvider

/-- The destructor of the provider of a plugin. -/
def destroyProvider (s : StreamPluginManager) (provider : ProviderPtr) : StreamPluginManager :=
  match s.providers.lookup provider with
  | none => s
  | some name =>
      removeFsProvider { s with providers := s.providers.erase provider } name

/-- `mPlugins.clear()`. -/
def clearPlugins (s : StreamPluginManager) : StreamPluginManager :=
  { s.mPlugins.entries.foldl (fun s entry => s.destroyProvider entry.2.provider) s with
    mPlugins := ∅ }

/-- The round of the loop for one library from the creation of the plugin on. The state of a plugin
that is not inserted is dropped at the end of the round, and its provider with it. -/
def mountPlugin (s : StreamPluginManager) (plugin : PluginInstance) (soFile : String) :
    StreamPluginManager × LoadOutcome :=
  let provider := s.nextProvider
  let s := s.constructProvider plugin.getId
  if plugin.getInterfaceVersion ≠ streamfsInterfaceVersion then
    (s.destroyProvider provider, .wrongVersion)
  else if plugin.getId ∈ s.mPlugins then (s.destroyProvider provider, .loaded)
  else ({ s with mPlugins := s.mPlugins.insert plugin.getId ⟨provider, soFile⟩ }, .loaded)

/-- The round of the loop for one library. -/
def loadPlugin (s : StreamPluginManager) (lib : SharedLib) : StreamPluginManager × LoadOutcome :=
  if ¬ lib.opened then (s, .notOpened)
  else if ¬ lib.hasInit then (s, .noInit)
  else if ¬ lib.hasGetId then (s, .noGetId)
  else
    match lib.pluginId with
    | none => (s, .duplicate)
    | some pluginIdTmp =>
        if pluginIdTmp ∈ s.mPlugins then (s, .duplicate)
        else
          match lib.plugin with
          | none => (s, .notCreated)
          | some plugin => s.mountPlugin plugin lib.soFile

/-- The loop over the libraries as a machine. -/
def loopMachine : Machine StreamPluginManager SharedLib LoadOutcome := ⟨loadPlugin⟩

/-- `loadPlugins`. -/
def loadPlugins (s : StreamPluginManager) (sharedLibs : List SharedLib) : StreamPluginManager :=
  loopMachine.run s.clearPlugins sharedLibs

/-- The calls of `loadPlugins` as a machine. -/
def machine : Machine StreamPluginManager (List SharedLib) Unit :=
  ⟨fun s sharedLibs => (s.loadPlugins sharedLibs, ())⟩

/-- Before the first call. -/
def init : StreamPluginManager := ⟨∅, ∅, ∅, 0⟩

/-- The mounted providers are those of the plugins, each alive under the name of its plugin. -/
structure MountsAgree (s : StreamPluginManager) : Prop where
  mounted : ∀ name, s.fsProviders.lookup name = (s.mPlugins.lookup name).map PluginState.provider
  live : ∀ name state, s.mPlugins.lookup name = some state →
    s.providers.lookup state.provider = some name

/-- A library that is not loaded leaves the mounts of the plugins alone. -/
def KeepsMounts (t : Transition StreamPluginManager SharedLib LoadOutcome) : Prop :=
  t.output ≠ .loaded →
    ∀ name ∈ t.before.mPlugins, t.after.fsProviders.lookup name = t.before.fsProviders.lookup name

/-- After a call the mounts and the plugins agree, and no library that is not loaded has changed the
mount of a plugin loaded before it. -/
def LoadsWell (t : Transition StreamPluginManager (List SharedLib) Unit) : Prop :=
  MountsAgree t.after ∧ ∀ u ∈ loopMachine.trace t.before.clearPlugins t.event, KeepsMounts u

/-- The library passes all tests that come before the creation of the plugin, and creates it. -/
structure Creates (s : StreamPluginManager) (lib : SharedLib) (plugin : PluginInstance) : Prop where
  opened : lib.opened
  hasInit : lib.hasInit
  hasGetId : lib.hasGetId
  notLoaded : ∃ pluginIdTmp, lib.pluginId = some pluginIdTmp ∧ pluginIdTmp ∉ s.mPlugins
  created : lib.plugin = some plugin

/-- The plugin that a library creates has a new identifier. -/
def NewId (t : Transition StreamPluginManager SharedLib LoadOutcome) : Prop :=
  ∀ plugin, Creates t.before t.event plugin → plugin.getId ∉ t.before.mPlugins

variable {s : StreamPluginManager} {name : String}

/-! ### Providers -/

/-- The addresses of the providers have been given out. -/
def Bounded (s : StreamPluginManager) : Prop := ∀ provider ∈ s.providers, provider < s.nextProvider

lemma Bounded.lookup_next (h : s.Bounded) : s.providers.lookup s.nextProvider = none :=
  AList.lookup_eq_none.mpr fun hmem => Nat.lt_irrefl _ (h _ hmem)

@[simp] lemma mPlugins_constructProvider (s : StreamPluginManager) (name : String) :
    (s.constructProvider name).mPlugins = s.mPlugins := by
  rw [constructProvider, registerFsProvider]
  split_ifs <;> rfl

@[simp] lemma providers_constructProvider (s : StreamPluginManager) (name : String) :
    (s.constructProvider name).providers = s.providers.insert s.nextProvider name := by
  rw [constructProvider, registerFsProvider]
  split_ifs <;> rfl

@[simp] lemma nextProvider_constructProvider (s : StreamPluginManager) (name : String) :
    (s.constructProvider name).nextProvider = s.nextProvider + 1 := by
  rw [constructProvider, registerFsProvider]
  split_ifs <;> rfl

/-- A new provider is mounted where its name is free. -/
lemma lookup_constructProvider (s : StreamPluginManager) (name other : String) :
    (s.constructProvider name).fsProviders.lookup other
      = if other = name ∧ name ∉ s.fsProviders then some s.nextProvider
        else s.fsProviders.lookup other := by
  rw [constructProvider, registerFsProvider]
  dsimp only
  by_cases hmem : name ∈ s.fsProviders
  · rw [if_pos hmem, if_neg (fun h => h.2 hmem)]
  · rw [if_neg hmem]
    by_cases hother : other = name
    · rw [hother, AList.lookup_insert, if_pos ⟨rfl, hmem⟩]
    · rw [AList.lookup_insert_ne hother, if_neg (fun h => hother h.1)]

@[simp] lemma mPlugins_destroyProvider (s : StreamPluginManager) (provider : ProviderPtr) :
    (s.destroyProvider provider).mPlugins = s.mPlugins := by
  rw [destroyProvider]
  split <;> rfl

@[simp] lemma nextProvider_destroyProvider (s : StreamPluginManager) (provider : ProviderPtr) :
    (s.destroyProvider provider).nextProvider = s.nextProvider := by
  rw [destroyProvider]
  split <;> rfl

/-- A provider that is destroyed lives no more. -/
lemma lookup_providers_destroyProvider (s : StreamPluginManager) (provider other : ProviderPtr) :
    (s.destroyProvider provider).providers.lookup other
      = if other = provider then none else s.providers.lookup other := by
  rw [destroyProvider]
  split
  · rename_i hnone
    split_ifs with hother
    · rw [hother, hnone]
    · rfl
  · dsimp only [removeFsProvider]
    split_ifs with hother
    · rw [hother, AList.lookup_erase]
    · rw [AList.lookup_erase_ne hother]

/-- A provider that is destroyed takes away what is mounted under its name. -/
lemma lookup_destroyProvider {provider : ProviderPtr}
    (h : s.providers.lookup provider = some name) (other : String) :
    (s.destroyProvider provider).fsProviders.lookup other
      = if other = name then none else s.fsProviders.lookup other := by
  rw [destroyProvider, h]
  dsimp only [removeFsProvider]
  split_ifs with hother
  · rw [hother, AList.lookup_erase]
  · rw [AList.lookup_erase_ne hother]

lemma Bounded.constructProvider (h : s.Bounded) (name : String) :
    (s.constructProvider name).Bounded := by
  intro provider hmem
  rw [providers_constructProvider, AList.mem_insert] at hmem
  rw [nextProvider_constructProvider]
  rcases hmem with rfl | hmem
  · exact Nat.lt_succ_self _
  · exact Nat.lt_succ_of_lt (h provider hmem)

lemma Bounded.destroyProvider (h : s.Bounded) (provider : ProviderPtr) :
    (s.destroyProvider provider).Bounded := by
  intro other hmem
  rw [← AList.lookup_isSome, lookup_providers_destroyProvider] at hmem
  split_ifs at hmem
  · cases hmem
  · rw [nextProvider_destroyProvider]
    exact h other (AList.lookup_isSome.mp hmem)

/-- A provider that is dropped at once leaves nothing mounted under its name. -/
lemma lookup_dropped (s : StreamPluginManager) (name other : String) :
    ((s.constructProvider name).destroyProvider s.nextProvider).fsProviders.lookup other
      = if other = name then none else s.fsProviders.lookup other := by
  have hname : (s.constructProvider name).providers.lookup s.nextProvider = some name := by
    rw [providers_constructProvider, AList.lookup_insert]
  rw [lookup_destroyProvider hname, lookup_constructProvider]
  split_ifs with hother hnew
  · rfl
  · exact absurd hnew.1 hother
  · rfl

/-! ### One library -/

/-- A library ends the round before a plugin is created, or goes on to mount it. -/
lemma loadPlugin_cases (s : StreamPluginManager) (lib : SharedLib) :
    ((s.loadPlugin lib).1 = s ∧ ∀ plugin, ¬ Creates s lib plugin)
      ∨ ∃ plugin, Creates s lib plugin ∧ s.loadPlugin lib = s.mountPlugin plugin lib.soFile := by
  rw [loadPlugin]
  by_cases hopened : lib.opened
  · by_cases hinit : lib.hasInit
    · by_cases hgetId : lib.hasGetId
      · rw [if_neg (not_not_intro hopened), if_neg (not_not_intro hinit),
          if_neg (not_not_intro hgetId)]
        cases hid : lib.pluginId with
        | none =>
            refine Or.inl ⟨rfl, fun plugin h => ?_⟩
            obtain ⟨pluginIdTmp, hsome, -⟩ := h.notLoaded
            exact Option.some_ne_none _ (hsome.symm.trans hid)
        | some pluginIdTmp =>
            dsimp only
            by_cases hdup : pluginIdTmp ∈ s.mPlugins
            · rw [if_pos hdup]
              refine Or.inl ⟨rfl, fun plugin h => ?_⟩
              obtain ⟨pluginIdTmp', hsome, hnew⟩ := h.notLoaded
              rw [Option.some.inj (hid.symm.trans hsome)] at hdup
              exact hnew hdup
            · rw [if_neg hdup]
              cases hplugin : lib.plugin with
              | none =>
                  refine Or.inl ⟨rfl, fun plugin h => ?_⟩
                  exact Option.some_ne_none _ (h.created.symm.trans hplugin)
              | some plugin =>
                  exact Or.inr ⟨plugin, ⟨hopened, hinit, hgetId, ⟨_, hid, hdup⟩, hplugin⟩, rfl⟩
      · rw [if_neg (not_not_intro hopened), if_neg (not_not_intro hinit), if_pos hgetId]
        exact Or.inl ⟨rfl, fun plugin h => hgetId h.hasGetId⟩
    · rw [if_neg (not_not_intro hopened), if_pos hinit]
      exact Or.inl ⟨rfl, fun plugin h => hinit h.hasInit⟩
  · rw [if_pos hopened]
    exact Or.inl ⟨rfl, fun plugin h => hopened h.opened⟩

lemma MountsAgree.mem_iff (h : s.MountsAgree) : name ∈ s.fsProviders ↔ name ∈ s.mPlugins := by
  rw [← AList.lookup_isSome, ← AList.lookup_isSome, h.mounted, Option.isSome_map]

/-- The provider of a plugin is not the next one. -/
lemma MountsAgree.ne_next (h : s.MountsAgree) (hb : s.Bounded) {state : PluginState}
    (hstate : s.mPlugins.lookup name = some state) : state.provider ≠ s.nextProvider := by
  intro heq
  have hlive := h.live name state hstate
  rw [heq, hb.lookup_next] at hlive
  cases hlive

/-- A provider that is dropped at once does no harm if its name was free. -/
lemma MountsAgree.dropped (h : s.MountsAgree) (hb : s.Bounded) (hname : name ∉ s.mPlugins) :
    ((s.constructProvider name).destroyProvider s.nextProvider).MountsAgree where
  mounted := by
    intro other
    rw [lookup_dropped, mPlugins_destroyProvider, mPlugins_constructProvider]
    split_ifs with hother
    · rw [hother, AList.lookup_eq_none.mpr hname]
      rfl
    · exact h.mounted other
  live := by
    intro other state hstate
    rw [mPlugins_destroyProvider, mPlugins_constructProvider] at hstate
    have hne := h.ne_next hb hstate
    rw [lookup_providers_destroyProvider, if_neg hne, providers_constructProvider,
      AList.lookup_insert_ne hne]
    exact h.live other state hstate

/-- A plugin with a new identifier is mounted. -/
lemma MountsAgree.inserted (h : s.MountsAgree) (hb : s.Bounded) (hname : name ∉ s.mPlugins)
    (soFile : String) :
    MountsAgree { s.constructProvider name with
      mPlugins := (s.constructProvider name).mPlugins.insert name ⟨s.nextProvider, soFile⟩ } where
  mounted := by
    intro other
    have hfree : name ∉ s.fsProviders := fun hmem => hname (h.mem_iff.mp hmem)
    dsimp only
    rw [lookup_constructProvider, mPlugins_constructProvider]
    by_cases hother : other = name
    · rw [hother, if_pos ⟨rfl, hfree⟩, AList.lookup_insert]
      rfl
    · rw [if_neg (fun hand => hother hand.1), AList.lookup_insert_ne hother, h.mounted]
  live := by
    intro other state hstate
    dsimp only at hstate ⊢
    rw [mPlugins_constructProvider] at hstate
    rw [providers_constructProvider]
    by_cases hother : other = name
    · rw [hother, AList.lookup_insert] at hstate
      obtain rfl := Option.some.inj hstate
      rw [hother, AList.lookup_insert]
    · rw [AList.lookup_insert_ne hother] at hstate
      rw [AList.lookup_insert_ne (h.ne_next hb hstate)]
      exact h.live other state hstate

/-- What is kept from library to library. -/
structure Mounted (s : StreamPluginManager) : Prop where
  agree : s.MountsAgree
  bounded : s.Bounded

/-- **One library** with a new identifier keeps the mounts and the plugins in agreement, and
changes no mount unless it is loaded. -/
lemma mounted_loadPlugin (h : s.Mounted) (lib : SharedLib)
    (hnew : NewId (loopMachine.transition s lib)) :
    KeepsMounts (loopMachine.transition s lib) ∧ (loopMachine.next s lib).Mounted := by
  show ((s.loadPlugin lib).2 ≠ .loaded → ∀ name ∈ s.mPlugins,
    (s.loadPlugin lib).1.fsProviders.lookup name = s.fsProviders.lookup name)
      ∧ (s.loadPlugin lib).1.Mounted
  rcases loadPlugin_cases s lib with ⟨hsame, -⟩ | ⟨plugin, hcreates, heq⟩
  · rw [hsame]
    exact ⟨fun _ _ _ => rfl, h⟩
  · have hid : plugin.getId ∉ s.mPlugins := hnew plugin hcreates
    rw [heq, mountPlugin]
    split_ifs with hversion hmem
    · refine ⟨fun _ name hname => ?_, h.agree.dropped h.bounded hid,
        (h.bounded.constructProvider _).destroyProvider _⟩
      rw [lookup_dropped, if_neg]
      rintro rfl
      exact hid hname
    · exact absurd (mPlugins_constructProvider s plugin.getId ▸ hmem) hid
    · exact ⟨fun hout => absurd rfl hout, h.agree.inserted h.bounded hid lib.soFile,
        h.bounded.constructProvider plugin.getId⟩

/-! ### A plugin that has lost its mount -/

/-- The plugin is loaded, and nothing is mounted under its name. -/
structure Unmounted (s : StreamPluginManager) (name : String) : Prop where
  loaded : name ∈ s.mPlugins
  free : name ∉ s.fsProviders

lemma Unmounted.not_mountsAgree (h : s.Unmounted name) : ¬ s.MountsAgree := fun hs =>
  h.free (hs.mem_iff.mpr h.loaded)

/-- A second plugin of the same identifier takes away the mount of the first. -/
lemma unmounted_dropped (h : name ∈ s.mPlugins) (other : String)
    (hfree : name = other ∨ name ∉ s.fsProviders) :
    ((s.constructProvider other).destroyProvider s.nextProvider).Unmounted name where
  loaded := by rwa [mPlugins_destroyProvider, mPlugins_constructProvider]
  free := by
    rw [← AList.lookup_eq_none, lookup_dropped]
    split_ifs with hother
    · rfl
    · exact AList.lookup_eq_none.mpr (hfree.resolve_left hother)

/-- A library with the identifier of a plugin loaded before. -/
lemma unmounted_of_not_newId {lib : SharedLib} (h : ¬ NewId (loopMachine.transition s lib)) :
    ∃ name, (loopMachine.next s lib).Unmounted name := by
  simp only [NewId, not_forall, not_not] at h
  obtain ⟨plugin, hcreates, hmem⟩ := h
  replace hmem : plugin.getId ∈ s.mPlugins := hmem
  refine ⟨plugin.getId, ?_⟩
  rcases loadPlugin_cases s lib with ⟨-, hnone⟩ | ⟨plugin', hcreates', heq⟩
  · exact absurd hcreates (hnone plugin)
  · obtain rfl := Option.some.inj (hcreates'.created.symm.trans hcreates.created)
    show (s.loadPlugin lib).1.Unmounted plugin'.getId
    rw [heq, mountPlugin]
    split_ifs with hversion hin
    · exact unmounted_dropped hmem _ (Or.inl rfl)
    · exact unmounted_dropped hmem _ (Or.inl rfl)
    · exact absurd (by rwa [mPlugins_constructProvider]) hin

/-- No library gives the mount back. -/
lemma Unmounted.loadPlugin (h : s.Unmounted name) (lib : SharedLib) :
    (loopMachine.next s lib).Unmounted name := by
  show (s.loadPlugin lib).1.Unmounted name
  rcases loadPlugin_cases s lib with ⟨hsame, -⟩ | ⟨plugin, -, heq⟩
  · rw [hsame]
    exact h
  · rw [heq, mountPlugin]
    split_ifs with hversion hin
    · exact unmounted_dropped h.loaded _ (Or.inr h.free)
    · exact unmounted_dropped h.loaded _ (Or.inr h.free)
    · rw [mPlugins_constructProvider] at hin
      have hne : name ≠ plugin.getId := fun heq => hin (heq ▸ h.loaded)
      refine ⟨?_, ?_⟩
      · rw [mPlugins_constructProvider]
        exact (AList.mem_insert _).mpr (Or.inr h.loaded)
      · rw [← AList.lookup_eq_none, lookup_constructProvider, if_neg (fun hand => hne hand.1)]
        exact AList.lookup_eq_none.mpr h.free

/-! ### One call -/

/-- If the mounts and the plugins agree after the loop, all identifiers were new. -/
lemma newId_of_mountsAgree (h : s.Mounted) (sharedLibs : List SharedLib)
    (hend : (loopMachine.run s sharedLibs).MountsAgree) :
    ∀ u ∈ loopMachine.trace s sharedLibs, NewId u := by
  induction sharedLibs generalizing s with
  | nil => exact fun u hu => absurd hu List.not_mem_nil
  | cons lib sharedLibs ih =>
      have hnew : NewId (loopMachine.transition s lib) := by
        by_contra hold
        obtain ⟨name, hlost⟩ := unmounted_of_not_newId hold
        have hstill : (loopMachine.run (loopMachine.next s lib) sharedLibs).Unmounted name :=
          Machine.invariant_run (I := (Unmounted · name))
            (fun _ lib hs => hs.loadPlugin lib) hlost sharedLibs
        exact hstill.not_mountsAgree hend
      intro u hu
      rcases (loopMachine.mem_trace_cons s lib sharedLibs u).mp hu with rfl | hu
      · exact hnew
      · exact ih (mounted_loadPlugin h lib hnew).2 hend u hu

/-- The providers of some of the plugins are destroyed. -/
lemma lookup_foldl_destroyProvider (entries : List (Σ _ : String, PluginState))
    (hlive : ∀ entry ∈ entries, s.providers.lookup entry.2.provider = some entry.1)
    (hnodup : (entries.map Sigma.fst).Nodup) (other : String) :
    (entries.foldl (fun s entry => s.destroyProvider entry.2.provider) s).fsProviders.lookup other
      = if other ∈ entries.map Sigma.fst then none else s.fsProviders.lookup other := by
  induction entries generalizing s with
  | nil => rfl
  | cons entry entries ih =>
      obtain ⟨hentry, hrest⟩ := List.forall_mem_cons.mp hlive
      rw [List.map_cons, List.nodup_cons] at hnodup
      rw [List.foldl_cons, ih ?_ hnodup.2, lookup_destroyProvider hentry, List.map_cons]
      · by_cases hmem : other ∈ entries.map Sigma.fst
        · rw [if_pos hmem, if_pos (List.mem_cons_of_mem _ hmem)]
        · by_cases hother : other = entry.1
          · rw [if_neg hmem, if_pos hother, if_pos (by simp [hother])]
          · rw [if_neg hmem, if_neg hother, if_neg (by simp [hother, hmem])]
      · intro entry' hentry'
        -- a provider has one name only
        have hne : entry'.2.provider ≠ entry.2.provider := by
          intro heq
          have hsame := hrest entry' hentry'
          rw [heq, hentry] at hsame
          exact hnodup.1 (Option.some.inj hsame ▸ List.mem_map_of_mem hentry')
        rw [lookup_providers_destroyProvider, if_neg hne]
        exact hrest entry' hentry'

/-- Dropping all plugins removes all mounts. -/
lemma mounted_clearPlugins (h : s.Mounted) : s.clearPlugins.Mounted where
  agree := by
    have hlive : ∀ entry ∈ s.mPlugins.entries,
        s.providers.lookup entry.2.provider = some entry.1 := fun entry hentry =>
      h.agree.live entry.1 entry.2 (AList.mem_lookup_iff.mpr hentry)
    refine ⟨fun name => ?_, fun name state hstate => ?_⟩
    · rw [clearPlugins]
      dsimp only
      rw [lookup_foldl_destroyProvider _ hlive s.mPlugins.nodupKeys]
      split_ifs with hmem
      · rfl
      · have hnone : s.mPlugins.lookup name = none :=
          AList.lookup_eq_none.mpr fun hin => hmem (AList.mem_keys.mp hin)
        rw [h.agree.mounted, hnone]
        rfl
    · cases hstate
  bounded := by
    have hfold : ∀ entries : List (Σ _ : String, PluginState),
        (entries.foldl (fun s entry => s.destroyProvider entry.2.provider) s).Bounded := by
      intro entries
      induction entries using List.reverseRecOn with
      | nil => exact h.bounded
      | append_singleton entries entry ih =>
          rw [List.foldl_append]
          exact ih.destroyProvider entry.2.provider
    exact hfold s.mPlugins.entries

/-- **One call** of `loadPlugins` loads well iff all identifiers are new. -/
lemma loadsWell_iff (h : s.Mounted) (sharedLibs : List SharedLib) :
    LoadsWell (machine.transition s sharedLibs)
      ↔ ∀ u ∈ loopMachine.trace s.clearPlugins sharedLibs, NewId u := by
  have hclear := mounted_clearPlugins h
  constructor
  · intro hwell
    exact newId_of_mountsAgree hclear sharedLibs hwell.1
  · intro hnew
    have hend : (loopMachine.run s.clearPlugins sharedLibs).Mounted :=
      Machine.invariant_run_of (fun s lib hs hid => (mounted_loadPlugin hs lib hid).2) hclear
        sharedLibs hnew
    exact ⟨hend.agree, Machine.forall_trace
      (fun s lib hs hid => mounted_loadPlugin hs lib hid) hclear sharedLibs hnew⟩

lemma mounted_init : init.Mounted where
  agree := ⟨fun _ => rfl, fun _ _ hstate => by cases hstate⟩
  bounded := fun _ hmem => absurd hmem List.not_mem_nil

/-- **Mounted providers and loaded plugins agree** after every call of `loadPlugins`, and libraries
that are not loaded change no mount, if and only if each plugin that is created has an identifier
that no plugin loaded before it has. -/
theorem mounts_agree_iff (calls : List (List SharedLib)) :
    (∀ t ∈ machine.trace init calls, LoadsWell t)
      ↔ ∀ t ∈ machine.trace init calls,
          ∀ u ∈ loopMachine.trace t.before.clearPlugins t.event, NewId u := by
  refine Machine.forall_trace_iff (I := Mounted)
    (fun s sharedLibs hs => loadsWell_iff hs sharedLibs)
    (fun s sharedLibs hs hwell => ?_) mounted_init calls
  have hnew := (loadsWell_iff hs sharedLibs).mp hwell
  exact Machine.invariant_run_of (fun s lib hs hid => (mounted_loadPlugin hs lib hid).2)
    (mounted_clearPlugins hs) sharedLibs hnew

/-- A library with the plugin `x`, and one of another exported identifier whose plugin is called `x`
too and is of an old version. -/
def sameIdLibs : List SharedLib :=
  [⟨"a.so", true, true, true, some "a", some ⟨"x", by decide, 4⟩⟩,
    ⟨"b.so", true, true, true, some "b", some ⟨"x", by decide, 3⟩⟩]

/-- The second library is rejected, and takes the mount of the plugin loaded before it away. -/
theorem not_forall_loadsWell :
    ¬ ∀ calls : List (List SharedLib), ∀ t ∈ machine.trace init calls, LoadsWell t := by
  intro h
  have hwell := h [sameIdLibs] (machine.transition init sameIdLibs) List.mem_cons_self
  have hmounted := hwell.1.mounted "x"
  revert hmounted
  decide +kernel

end StreamPluginManager

end StreamFs
