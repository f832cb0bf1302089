import Mathlib.Data.List.Sort
import StreamFs.Fuse.Poll

/-!
The names that the file system shows: `getAttrCallback`, `readDirCallback` and `openCallback` of
`IFuse.cpp`, each of which resolves the path by itself.

* `InTree`: the files and directories that are to be shown, with their types.
* `PathAgrees`: the three callbacks agree on a path.
* `BelowNode`, `AttachedRoot`: the paths on which they do not. `getAttrCallback` looks for a node
  without a look at the rest of the path, and the nodes of sub-providers keep the empty name, which
  is what `openCallback` reads behind the end of the path of a provider.
* `pathAgrees_iff`: the callbacks agree on all other paths.
-/

namespace StreamFs

/-- `S_IFMT`. -/
def sIfmt : ℕ := 0o170000

/-- `S_IFDIR`. -/
def sIfdir : ℕ := 0o040000

/-- `S_IFREG`. -/
def sIfreg : ℕ := 0o100000

/-- `ENOENT`. -/
def enoent : ℤ := 2

/-- The fields of `struct stat` that are written. -/
structure Stat where
  st_mode : ℕ
  st_nlink : ℕ
  st_size : ℕ
  deriving DecidableEq

/-- What a plugin answers, by the name of the node. -/
structure PluginInterface where
  openNode : String → ℤ
  getSize : String → ℕ

namespace VirtualFSProvider

/-- `getSize`. -/
def getSize (p : VirtualFSProvider) (inf : PluginInterface) (nodeName : String) : ℕ :=
  match p.mCb with
  | none => 0
  | some _ => inf.getSize nodeName

/-- `open`. -/
def openNode (p : VirtualFSProvider) (inf : PluginInterface) (nodeName : String) : ℤ :=
  match p.mCb with
  | none => -enoent
  | some _ => inf.openNode nodeName

/-- `attachProvider`: the set of sub-providers is in the order of their addresses, where the new
one gets the place `i`. -/
def attachProvider (p : VirtualFSProvider) (provider : Option String) (i : ℕ) :
    ℤ × VirtualFSProvider :=
  match provider, p.mCb with
  | some name, some fileList =>
      if name ∈ fileList then (-2, p)
      else (0, { p with mSubProviders := p.mSubProviders.insertIdx i name })
  | _, _ => (-1, p)

end VirtualFSProvider

/-- What `openCallback` returns, the node it opens at the provider, and the handle it gives out. -/
structure OpenReply where
  result : ℤ
  opened : Option String
  fh : Option UInt64
  deriving DecidableEq

namespace IFuse

/-! ### The callbacks -/

/-- The attributes of a directory. -/
def directoryStat : Stat := ⟨sIfdir ||| 0o755, 2, 0⟩

/-- One round of the loop over the nodes in `getAttrCallback`: whether the node is found, and its
attributes. -/
def nodeAttr (p : VirtualFSProvider) (inf : PluginInterface) (path : Path) (found : Bool × Stat)
    (node : FileNode) : Bool × Stat :=
  if node.name = element path 1 then
    match node.type with
    | .fileType =>
        (true, { found.2 with
          st_nlink := 2, st_size := p.getSize inf node.name, st_mode := sIfreg ||| 0o777 })
    | .directoryType => (true, { found.2 with st_mode := sIfdir ||| 0o755, st_nlink := 2 })
  else found

/-- `getAttrCallback`, where `inf` is the plugin of the provider. -/
def getAttrCallback (f : IFuse) (inf : PluginInterface) (path : Path) : ℤ × Stat :=
  if path = [] then (0, directoryStat)
  else if element path 0 ≠ "" ∧ (f.fsProviders.lookup (element path 0)).isSome ∧ path.length ≤ 1
    then (0, directoryStat)
  else if path = debugFilePath then
    (0, ⟨sIfreg ||| 0o777, 0, (intToHex f.mDebugOptions.debugLevel).length⟩)
  else if path = tsDumpFilePath then
    (0, ⟨sIfreg ||| 0o777, 0, (tsDumpText f.mDebugOptions.tsDumpEnable).length⟩)
  else
    match findProvider f.fsProviders path with
    | none => (-enoent, ⟨0, 0, 0⟩)
    | some p =>
        let found := p.getNodes.foldl (nodeAttr p inf path) (false, ⟨0, 0, 0⟩)
        (if found.1 then 0 else -enoent, found.2)

/-- `readDirCallback`: the names passed to `filler`. The map is in the order of its keys. -/
def readDirCallback (f : IFuse) (path : Path) : List String :=
  [".", ".."] ++
    if path = [] then f.fsProviders.keys.insertionSort (· ≤ ·) ++ ["ts_dump", "debug"]
    else
      match findProvider f.fsProviders path with
      | none => []
      | some p => p.getNodes.map FileNode.name

/-- `openCallback`, with the counter of the handles. -/
def openCallback (f : IFuse) (inf : PluginInterface) (fh_counter_g : UInt64) (path : Path) :
    OpenReply × UInt64 :=
  if path = debugFilePath ∨ path = tsDumpFilePath then (⟨0, none, none⟩, fh_counter_g)
  else
    match findProvider f.fsProviders path with
    | none => (⟨-enoent, none, none⟩, fh_counter_g)
    | some p =>
        match p.getNodes.find? fun node => node.name = element path 1 with
        | none => (⟨-enoent, none, none⟩, fh_counter_g)
        | some node =>
            let res := p.openNode inf node.name
            if 0 ≤ res then (⟨res, some node.name, some fh_counter_g⟩, fh_counter_g + 1)
            else (⟨res, some node.name, none⟩, fh_counter_g)

/-! ### What is to be shown -/

/-- The files and directories: the root, one directory for each provider with its nodes, and the
control files where no provider has their name. -/
inductive InTree (f : IFuse) : Path → NodeTypes → Prop where
  | root : InTree f [] .directoryType
  | provider {p : String} (hp : p ∈ f.fsProviders) : InTree f [p] .directoryType
  | debug (h : "debug" ∉ f.fsProviders) : InTree f debugFilePath .fileType
  | tsDump (h : "ts_dump" ∉ f.fsProviders) : InTree f tsDumpFilePath .fileType
  | node {p : String} {provider : VirtualFSProvider} {node : FileNode}
      (hp : f.fsProviders.lookup p = some provider) (hnode : node ∈ provider.getNodes) :
      InTree f [p, node.name] node.type

/-- `S_ISDIR` and `S_ISREG`. -/
def modeType (st_mode : ℕ) : Option NodeTypes :=
  if st_mode &&& sIfmt = sIfdir then some .directoryType
  else if st_mode &&& sIfmt = sIfreg then some .fileType
  else none

/-- `getAttrCallback` succeeds and reports the type. -/
def Reports (f : IFuse) (inf : PluginInterface) (path : Path) (type : NodeTypes) : Prop :=
  (f.getAttrCallback inf path).1 = 0 ∧ modeType (f.getAttrCallback inf path).2.st_mode = some type

/-- The last component is listed at the parent of the path, which is reported as a directory. -/
def Listed (f : IFuse) (inf : PluginInterface) (path : Path) : Prop :=
  ∃ parent name, path = parent ++ [name] ∧ name ∈ f.readDirCallback parent
    ∧ f.Reports inf parent .directoryType

/-- The names of providers and streams are not empty. -/
structure WellNamed (f : IFuse) : Prop where
  providers : "" ∉ f.fsProviders
  streams : ∀ p provider, f.fsProviders.lookup p = some provider → "" ∉ provider.mCb.getD []

/-- A path of proper names. -/
def Normalised (path : Path) : Prop := ∀ name ∈ path, name ≠ "" ∧ name ≠ "." ∧ name ≠ ".."

/-- The callbacks agree on the path. -/
structure PathAgrees (f : IFuse) (inf : PluginInterface) (fh_counter_g : UInt64) (path : Path) :
    Prop where
  listed : (f.getAttrCallback inf path).1 = 0 ↔ path = [] ∨ f.Listed inf path
  type : ∀ type, f.InTree path type → (f.getAttrCallback inf path).1 = 0 → f.Reports inf path type
  opened : (f.openCallback inf fh_counter_g path).1.opened.isSome
    ↔ f.Reports inf path .fileType ∧ path ≠ debugFilePath ∧ path ≠ tsDumpFilePath

/-- A path of which the first two components name a node, and that goes on behind it. -/
def BelowNode (f : IFuse) (path : Path) : Prop :=
  ∃ p name rest provider, path = p :: name :: rest ∧ rest ≠ []
    ∧ f.fsProviders.lookup p = some provider ∧ name ∈ provider.getNodes.map FileNode.name

/-- The directory of a provider with sub-providers, unless it has the name of a control file. -/
def AttachedRoot (f : IFuse) (path : Path) : Prop :=
  ∃ p provider, path = [p] ∧ path ≠ debugFilePath ∧ path ≠ tsDumpFilePath
    ∧ f.fsProviders.lookup p = some provider ∧ provider.mSubProviders ≠ []

variable {f : IFuse} {inf : PluginInterface} {fh_counter_g : UInt64} {path : Path}

/-! ### The nodes of a provider -/

lemma mem_getNodes {p : VirtualFSProvider} {node : FileNode} : node ∈ p.getNodes
    ↔ (node.type = .fileType ∧ node.name ∈ p.mCb.getD [])
      ∨ (node.type = .directoryType ∧ node.name = "" ∧ p.mSubProviders ≠ []) := by
  obtain ⟨name, type⟩ := node
  rw [VirtualFSProvider.getNodes, List.mem_append, List.mem_map, List.mem_map]
  refine or_congr ?_ ?_
  · constructor
    · rintro ⟨_, hname, heq⟩
      cases heq
      exact ⟨rfl, hname⟩
    · rintro ⟨rfl, hname⟩
      exact ⟨name, hname, rfl⟩
  · constructor
    · rintro ⟨sub, hsub, heq⟩
      cases heq
      exact ⟨rfl, rfl, List.ne_nil_of_mem hsub⟩
    · rintro ⟨rfl, rfl, hsub⟩
      obtain ⟨sub, hsub⟩ := List.exists_mem_of_ne_nil _ hsub
      exact ⟨sub, hsub, rfl⟩

/-- A node with a name is a stream. -/
lemma type_of_mem_getNodes {p : VirtualFSProvider} {node : FileNode} (h : node ∈ p.getNodes)
    (hname : node.name ≠ "") : node.type = .fileType := by
  rcases mem_getNodes.mp h with h | h
  · exact h.1
  · exact absurd h.2.1 hname

/-- A provider has a node without a name iff it has sub-providers. -/
lemma exists_unnamed_iff {p : VirtualFSProvider} (h : "" ∉ p.mCb.getD []) :
    (∃ node ∈ p.getNodes, node.name = "") ↔ p.mSubProviders ≠ [] := by
  constructor
  · rintro ⟨node, hnode, hname⟩
    rcases mem_getNodes.mp hnode with hstream | hsub
    · exact absurd (hname ▸ hstream.2) h
    · exact hsub.2.2
  · intro hsub
    exact ⟨⟨"", .directoryType⟩, mem_getNodes.mpr (Or.inr ⟨rfl, rfl, hsub⟩), rfl⟩

/-- A provider that another one has been attached to has a sub-provider. -/
lemma subProviders_attachProvider {p p' : VirtualFSProvider} {provider : Option String} {i : ℕ}
    (hi : i ≤ p.mSubProviders.length) (h : p.attachProvider provider i = (0, p')) :
    p'.mSubProviders ≠ [] := by
  unfold VirtualFSProvider.attachProvider at h
  split at h
  · rename_i name fileList hcb
    split_ifs at h with hname
    · simp at h
    · obtain rfl := (Prod.mk.inj h).2
      exact List.ne_nil_of_mem ((List.mem_insertIdx hi).mpr (Or.inl rfl))
  · simp at h

/-! ### One callback at a time -/

lemma modeType_file : modeType (sIfreg ||| 0o777) = some .fileType := by decide

lemma modeType_directory : modeType (sIfdir ||| 0o755) = some .directoryType := by decide

/-- The loop over nodes of which the sought ones are all files. -/
lemma foldl_nodeAttr (p : VirtualFSProvider) (inf : PluginInterface) (path : Path)
    (nodes : List FileNode)
    (hfile : ∀ node ∈ nodes, node.name = element path 1 → node.type = .fileType)
    (found : Bool × Stat) :
    nodes.foldl (nodeAttr p inf path) found
      = if element path 1 ∈ nodes.map FileNode.name then
          (true, ⟨sIfreg ||| 0o777, 2, p.getSize inf (element path 1)⟩)
        else found := by
  induction nodes generalizing found with
  | nil => rfl
  | cons node nodes ih =>
      rw [List.foldl_cons, ih fun n hn => hfile n (List.mem_cons_of_mem _ hn), List.map_cons]
      by_cases hrest : element path 1 ∈ nodes.map FileNode.name
      · rw [if_pos hrest, if_pos (List.mem_cons_of_mem _ hrest)]
      · rw [if_neg hrest, nodeAttr]
        by_cases hname : node.name = element path 1
        · rw [if_pos hname, hfile node List.mem_cons_self hname, hname, if_pos List.mem_cons_self]
        · rw [if_neg hname, if_neg (by simp [Ne.symm hname, hrest])]

/-- The attributes of a path of one component. -/
lemma getAttrCallback_singleton {p : String} (hp : p ≠ "") :
    f.getAttrCallback inf [p]
      = if p ∈ f.fsProviders then (0, directoryStat)
        else if p = "debug" then
          (0, ⟨sIfreg ||| 0o777, 0, (intToHex f.mDebugOptions.debugLevel).length⟩)
        else if p = "ts_dump" then
          (0, ⟨sIfreg ||| 0o777, 0, (tsDumpText f.mDebugOptions.tsDumpEnable).length⟩)
        else (-enoent, ⟨0, 0, 0⟩) := by
  have helement : element [p] 0 = p := rfl
  have hfind : findProvider f.fsProviders [p] = f.fsProviders.lookup p := rfl
  rw [getAttrCallback, if_neg (List.cons_ne_nil p []), helement]
  by_cases hmem : p ∈ f.fsProviders
  · rw [if_pos ⟨hp, AList.lookup_isSome.mpr hmem, Nat.le_refl 1⟩, if_pos hmem]
  · have hnone : f.fsProviders.lookup p = none := AList.lookup_eq_none.mpr hmem
    rw [if_neg (by simp [hnone]), if_neg hmem]
    simp only [debugFilePath, tsDumpFilePath, List.cons.injEq, and_true, hfind, hnone]

/-- The attributes of a path of several components are those of the node named by the first two. -/
lemma getAttrCallback_cons_cons (p : String) {name : String} (hname : name ≠ "")
    (rest : Path) :
    f.getAttrCallback inf (p :: name :: rest)
      = match f.fsProviders.lookup p with
        | none => (-enoent, ⟨0, 0, 0⟩)
        | some provider =>
            if name ∈ provider.getNodes.map FileNode.name then
              (0, ⟨sIfreg ||| 0o777, 2, provider.getSize inf name⟩)
            else (-enoent, ⟨0, 0, 0⟩) := by
  have hfind : findProvider f.fsProviders (p :: name :: rest) = f.fsProviders.lookup p := rfl
  rw [getAttrCallback, if_neg (List.cons_ne_nil p _), if_neg (by simp),
    if_neg (by simp [debugFilePath]), if_neg (by simp [tsDumpFilePath]), hfind]
  cases f.fsProviders.lookup p with
  | none => rfl
  | some provider =>
      dsimp only
      rw [foldl_nodeAttr]
      · have helement : element (p :: name :: rest) 1 = name := rfl
        rw [helement]
        by_cases hmem : name ∈ provider.getNodes.map FileNode.name
        · rw [if_pos hmem, if_pos hmem]
          rfl
        · rw [if_neg hmem, if_neg hmem]
          rfl
      · intro node hnode hsame
        exact type_of_mem_getNodes hnode (hsame ▸ hname)

/-- `openCallback` opens the node that the element at the second place names. -/
lemma opened_openCallback :
    (f.openCallback inf fh_counter_g path).1.opened.isSome
      ↔ path ≠ debugFilePath ∧ path ≠ tsDumpFilePath ∧ ∃ provider,
          findProvider f.fsProviders path = some provider
            ∧ ∃ node ∈ provider.getNodes, node.name = element path 1 := by
  rw [openCallback]
  by_cases hcontrol : path = debugFilePath ∨ path = tsDumpFilePath
  · rw [if_pos hcontrol]
    exact ⟨fun h => absurd h (by simp), fun h => absurd hcontrol (not_or.mpr ⟨h.1, h.2.1⟩)⟩
  · rw [if_neg hcontrol]
    obtain ⟨hdebug, hdump⟩ := not_or.mp hcontrol
    simp only [ne_eq, hdebug, hdump, not_false_eq_true, true_and]
    cases findProvider f.fsProviders path with
    | none => simp
    | some provider =>
        dsimp only
        cases hfind : provider.getNodes.find? fun node => node.name = element path 1 with
        | none =>
            simp only [List.find?_eq_none, decide_eq_true_eq] at hfind
            simpa using hfind
        | some node =>
            have hmem := List.mem_of_find?_eq_some hfind
            have hname := List.find?_some hfind
            simp only [decide_eq_true_eq] at hname
            refine iff_of_true ?_ ⟨provider, rfl, node, hmem, hname⟩
            dsimp only
            split_ifs <;> rfl

/-- The names listed at the root. -/
lemma mem_readDirCallback_nil {name : String} (hdot : name ≠ "." ∧ name ≠ "..") :
    name ∈ f.readDirCallback [] ↔ name ∈ f.fsProviders ∨ name = "ts_dump" ∨ name = "debug" := by
  rw [readDirCallback, if_pos rfl]
  simp [hdot.1, hdot.2, AList.mem_keys]

/-- The names listed at a provider. -/
lemma mem_readDirCallback_singleton {p name : String} (hdot : name ≠ "." ∧ name ≠ "..") :
    name ∈ f.readDirCallback [p] ↔ ∃ provider, f.fsProviders.lookup p = some provider
      ∧ name ∈ provider.getNodes.map FileNode.name := by
  have hfind : findProvider f.fsProviders [p] = f.fsProviders.lookup p := rfl
  rw [readDirCallback, if_neg (List.cons_ne_nil p []), hfind]
  cases f.fsProviders.lookup p with
  | none => simp [hdot.1, hdot.2]
  | some provider => simp [hdot.1, hdot.2]

/-! ### Directories and files -/

/-- The root and the providers are the directories. -/
lemma reports_directory_iff (hpath : Normalised path) :
    f.Reports inf path .directoryType ↔ path = [] ∨ ∃ p, path = [p] ∧ p ∈ f.fsProviders := by
  rw [Reports]
  cases path with
  | nil =>
      refine iff_of_true ?_ (Or.inl rfl)
      rw [getAttrCallback, if_pos rfl]
      exact ⟨rfl, modeType_directory⟩
  | cons p rest =>
      cases rest with
      | nil =>
          rw [getAttrCallback_singleton (hpath p List.mem_cons_self).1]
          by_cases hmem : p ∈ f.fsProviders
          · rw [if_pos hmem]
            exact iff_of_true ⟨rfl, modeType_directory⟩ (Or.inr ⟨p, rfl, hmem⟩)
          · rw [if_neg hmem]
            refine iff_of_false ?_ (by simp [hmem])
            split_ifs
            · simp [modeType_file]
            · simp [modeType_file]
            · simp [enoent]
      | cons name rest =>
          rw [getAttrCallback_cons_cons p (hpath name (by simp)).1]
          refine iff_of_false ?_ (by simp)
          cases f.fsProviders.lookup p with
          | none => simp [enoent]
          | some provider =>
              dsimp only
              split_ifs
              · simp [modeType_file]
              · simp [enoent]

/-- A path of one component is found iff it is listed at the root. -/
lemma getAttrCallback_singleton_eq_zero_iff {p : String} (hp : p ≠ "") :
    (f.getAttrCallback inf [p]).1 = 0 ↔ p ∈ f.fsProviders ∨ p = "ts_dump" ∨ p = "debug" := by
  rw [getAttrCallback_singleton hp]
  split_ifs with hmem hdebug hdump
  · simp [hmem]
  · simp [hdebug]
  · simp [hdump]
  · simp [hmem, hdebug, hdump, enoent]

/-- A path of several components is found iff the first two name a node, which is a file. -/
lemma getAttrCallback_cons_cons_eq_zero_iff (inf : PluginInterface) (p : String) {name : String}
    (hname : name ≠ "") (rest : Path) : (f.getAttrCallback inf (p :: name :: rest)).1 = 0
      ↔ ∃ provider, f.fsProviders.lookup p = some provider
          ∧ name ∈ provider.getNodes.map FileNode.name := by
  rw [getAttrCallback_cons_cons p hname]
  cases f.fsProviders.lookup p with
  | none => simp [enoent]
  | some provider =>
      dsimp only
      split_ifs with hmem
      · simpa using hmem
      · simpa [enoent] using hmem

lemma reports_file_cons_cons_iff (p : String) {name : String} (hname : name ≠ "")
    (rest : Path) : f.Reports inf (p :: name :: rest) .fileType
      ↔ ∃ provider, f.fsProviders.lookup p = some provider
          ∧ name ∈ provider.getNodes.map FileNode.name := by
  rw [← getAttrCallback_cons_cons_eq_zero_iff inf p hname rest, Reports,
    getAttrCallback_cons_cons p hname]
  cases f.fsProviders.lookup p with
  | none => simp [enoent]
  | some provider =>
      dsimp only
      split_ifs
      · simp [modeType_file]
      · simp [enoent]

/-! ### Where the callbacks agree -/

lemma listed_singleton_iff {p : String} (hp : Normalised [p]) :
    f.Listed inf [p] ↔ p ∈ f.fsProviders ∨ p = "ts_dump" ∨ p = "debug" := by
  obtain ⟨-, hdot⟩ := hp p (List.mem_singleton_self p)
  rw [← mem_readDirCallback_nil hdot]
  constructor
  · rintro ⟨parent, name, heq, hlist, -⟩
    obtain ⟨rfl, hlast⟩ := List.append_inj' (show [] ++ [p] = parent ++ [name] from heq) rfl
    obtain rfl := List.singleton_inj.mp hlast
    exact hlist
  · intro hlist
    refine ⟨[], p, rfl, hlist, ?_⟩
    rw [reports_directory_iff (by simp [Normalised])]
    exact Or.inl rfl

lemma listed_pair_iff {p name : String} (hpath : Normalised [p, name]) :
    f.Listed inf [p, name] ↔ ∃ provider, f.fsProviders.lookup p = some provider
      ∧ name ∈ provider.getNodes.map FileNode.name := by
  obtain ⟨-, hdot⟩ := hpath name (by simp)
  have hparent : Normalised [p] := fun q hq => hpath q (List.mem_append_left [name] hq)
  constructor
  · rintro ⟨parent, last, heq, hlist, -⟩
    obtain ⟨rfl, hlast⟩ := List.append_inj' (show [p] ++ [name] = parent ++ [last] from heq) rfl
    obtain rfl := List.singleton_inj.mp hlast
    exact (mem_readDirCallback_singleton hdot).mp hlist
  · rintro ⟨provider, hp, hnode⟩
    refine ⟨[p], name, rfl, (mem_readDirCallback_singleton hdot).mpr ⟨provider, hp, hnode⟩, ?_⟩
    rw [reports_directory_iff hparent]
    exact Or.inr ⟨p, rfl, AList.lookup_isSome.mp (by rw [hp]; rfl)⟩

/-- Nothing is listed below the nodes. -/
lemma not_listed_of_length (f : IFuse) (inf : PluginInterface) (hpath : Normalised path)
    (h : 2 < path.length) :
    ¬ f.Listed inf path := by
  rintro ⟨parent, name, rfl, -, hdir⟩
  rw [List.length_append, List.length_singleton] at h
  rw [reports_directory_iff fun q hq => hpath q (List.mem_append_left _ hq)] at hdir
  rcases hdir with rfl | ⟨p, rfl, -⟩
  · simp at h
  · simp at h

/-- `getAttrCallback` finds what `readDirCallback` lists, but below a node. -/
lemma listed_iff (inf : PluginInterface) (hpath : Normalised path) :
    ((f.getAttrCallback inf path).1 = 0 ↔ path = [] ∨ f.Listed inf path) ↔ ¬ f.BelowNode path := by
  match path with
  | [] =>
      refine iff_of_true (iff_of_true ?_ (Or.inl rfl)) ?_
      · rw [getAttrCallback, if_pos rfl]
      · rintro ⟨p, name, rest, provider, heq, -⟩
        exact List.cons_ne_nil _ _ heq.symm
  | [p] =>
      refine iff_of_true ?_ ?_
      · rw [getAttrCallback_singleton_eq_zero_iff (hpath p List.mem_cons_self).1,
          listed_singleton_iff hpath]
        simp
      · rintro ⟨q, name, rest, provider, heq, -⟩
        simp at heq
  | [p, name] =>
      refine iff_of_true ?_ ?_
      · rw [getAttrCallback_cons_cons_eq_zero_iff inf p (hpath name (by simp)).1,
          listed_pair_iff hpath]
        simp
      · rintro ⟨q, name', rest, provider, heq, hrest, -⟩
        simp only [List.cons.injEq] at heq
        exact hrest heq.2.2.symm
  | p :: name :: next :: rest =>
      have hnot := not_listed_of_length f inf hpath (by simp)
      rw [getAttrCallback_cons_cons_eq_zero_iff inf p (hpath name (by simp)).1]
      simp only [hnot, List.cons_ne_nil, or_false, iff_false, not_iff_not]
      constructor
      · rintro ⟨provider, hp, hnode⟩
        exact ⟨p, name, next :: rest, provider, rfl, List.cons_ne_nil _ _, hp, hnode⟩
      · rintro ⟨q, name', rest', provider, heq, -, hp, hnode⟩
        simp only [List.cons.injEq] at heq
        obtain ⟨rfl, rfl, -⟩ := heq
        exact ⟨provider, hp, hnode⟩

/-- What is to be shown is reported with its type. -/
lemma reports_of_inTree (hpath : Normalised path) {type : NodeTypes} (h : f.InTree path type) :
    f.Reports inf path type := by
  cases h with
  | root => exact (reports_directory_iff hpath).mpr (Or.inl rfl)
  | provider hp => exact (reports_directory_iff hpath).mpr (Or.inr ⟨_, rfl, hp⟩)
  | debug h =>
      rw [Reports, debugFilePath, getAttrCallback_singleton (by decide), if_neg h, if_pos rfl]
      exact ⟨rfl, modeType_file⟩
  | tsDump h =>
      rw [Reports, tsDumpFilePath, getAttrCallback_singleton (by decide), if_neg h,
        if_neg (by decide), if_pos rfl]
      exact ⟨rfl, modeType_file⟩
  | @node p provider node hp hnode =>
      have hname : node.name ≠ "" := (hpath node.name (by simp)).1
      rw [type_of_mem_getNodes hnode hname, reports_file_cons_cons_iff p hname]
      exact ⟨provider, hp, List.mem_map_of_mem hnode⟩

/-- `openCallback` opens the files of the providers, and the directories of those that have
sub-providers. -/
lemma opened_iff (inf : PluginInterface) (fh_counter_g : UInt64) (hf : f.WellNamed)
    (hpath : Normalised path) :
    ((f.openCallback inf fh_counter_g path).1.opened.isSome
        ↔ f.Reports inf path .fileType ∧ path ≠ debugFilePath ∧ path ≠ tsDumpFilePath)
      ↔ ¬ f.AttachedRoot path := by
  rw [opened_openCallback]
  match path with
  | [] =>
      have hnone : findProvider f.fsProviders [] = none := AList.lookup_eq_none.mpr hf.providers
      refine iff_of_true (iff_of_false ?_ ?_) ?_
      · simp [hnone]
      · simp [Reports, getAttrCallback, directoryStat, modeType_directory]
      · rintro ⟨p, provider, heq, -⟩
        exact List.cons_ne_nil _ _ heq.symm
  | [p] =>
      have hp := (hpath p List.mem_cons_self).1
      have hfile :
          ¬ (f.Reports inf [p] .fileType ∧ [p] ≠ debugFilePath ∧ [p] ≠ tsDumpFilePath) := by
        rintro ⟨hreport, hdebug, hdump⟩
        simp only [debugFilePath, tsDumpFilePath, ne_eq, List.cons.injEq, and_true] at hdebug hdump
        rw [Reports, getAttrCallback_singleton hp, if_neg hdebug, if_neg hdump] at hreport
        split_ifs at hreport
        · simp [directoryStat, modeType_directory] at hreport
        · simp [enoent] at hreport
      rw [iff_false_right hfile, not_iff_not]
      constructor
      · rintro ⟨hdebug, hdump, provider, hlookup, hnode⟩
        exact ⟨p, provider, rfl, hdebug, hdump, hlookup,
          (exists_unnamed_iff (hf.streams p provider hlookup)).mp hnode⟩
      · rintro ⟨q, provider, heq, hdebug, hdump, hlookup, hsub⟩
        obtain rfl := List.singleton_inj.mp heq
        exact ⟨hdebug, hdump, provider, hlookup,
          (exists_unnamed_iff (hf.streams p provider hlookup)).mpr hsub⟩
  | p :: name :: rest =>
      have hdebug : p :: name :: rest ≠ debugFilePath := by simp [debugFilePath]
      have hdump : p :: name :: rest ≠ tsDumpFilePath := by simp [tsDumpFilePath]
      refine iff_of_true ?_ ?_
      · rw [reports_file_cons_cons_iff p (hpath name (by simp)).1]
        simp only [hdebug, hdump, ne_eq, not_false_eq_true, and_true, true_and]
        refine exists_congr fun provider => and_congr Iff.rfl ?_
        rw [List.mem_map]
        rfl
      · rintro ⟨q, provider, heq, -⟩
        simp at heq

/-- Attaching a provider to another one makes the callbacks disagree on the directory of the
latter. -/
theorem not_pathAgrees_attachProvider (hf : f.WellNamed) {name : String} (hpath : Normalised [name])
    (hdebug : [name] ≠ debugFilePath) (hdump : [name] ≠ tsDumpFilePath) {p p' : VirtualFSProvider}
    {provider : Option String} {i : ℕ} (hi : i ≤ p.mSubProviders.length)
    (h : p.attachProvider provider i = (0, p')) (hp : f.fsProviders.lookup name = some p') :
    ¬ f.PathAgrees inf fh_counter_g [name] := by
  intro hagrees
  have hnot := (opened_iff inf fh_counter_g hf hpath).mp hagrees.opened
  exact hnot ⟨name, p', rfl, hdebug, hdump, hp, subProviders_attachProvider hi h⟩

/-- **The namespace callbacks agree on a path**, if and only if the path does not go on behind a
node and is not the directory of a provider with sub-providers. -/
theorem pathAgrees_iff (hf : f.WellNamed) (inf : PluginInterface) (fh_counter_g : UInt64)
    (hpath : Normalised path) :
    f.PathAgrees inf fh_counter_g path ↔ ¬ f.BelowNode path ∧ ¬ f.AttachedRoot path := by
  rw [← listed_iff inf hpath, ← opened_iff inf fh_counter_g hf hpath]
  constructor
  · intro h
    exact ⟨h.listed, h.opened⟩
  · rintro ⟨hlisted, hopened⟩
    exact ⟨hlisted, fun type htype _ => reports_of_inTree hpath htype, hopened⟩

lemma wellNamed_oneFile : oneFile.WellNamed := by
  refine ⟨by decide, fun p provider hp => ?_⟩
  obtain rfl : provider = ⟨"p", some ["f"], []⟩ := by
    by_cases hpp : p = "p"
    · subst hpp
      exact (Option.some.inj hp).symm
    · rw [oneFile, AList.lookup_insert_ne hpp] at hp
      cases hp
  decide

/-- The callbacks agree on a stream of a provider. -/
theorem pathAgrees_stream :
    oneFile.PathAgrees ⟨fun _ => 0, fun _ => 0⟩ 0 ["p", "f"] := by
  refine (pathAgrees_iff wellNamed_oneFile _ 0 (by unfold Normalised; decide)).mpr ⟨?_, ?_⟩
  · rintro ⟨p, name, rest, provider, heq, hrest, -⟩
    simp only [List.cons.injEq] at heq
    exact hrest heq.2.2.symm
  · rintro ⟨p, provider, heq, -⟩
    simp at heq

/-- `getAttrCallback` finds the stream under any longer path, which is listed nowhere. -/
theorem not_forall_pathAgrees :
    ¬ ∀ (f : IFuse) (inf : PluginInterface) (fh_counter_g : UInt64) (path : Path), f.WellNamed →
        Normalised path → f.PathAgrees inf fh_counter_g path := by
  intro h
  have hpath : Normalised ["p", "f", "x"] := by
    unfold Normalised
    decide
  have hagrees := h oneFile ⟨fun _ => 0, fun _ => 0⟩ 0 ["p", "f", "x"] wellNamed_oneFile hpath
  rcases hagrees.listed.mp (by decide +kernel) with hnil | hlisted
  · exact List.cons_ne_nil _ _ hnil
  · exact not_listed_of_length _ _ hpath (by decide) hlisted

end IFuse

end StreamFs
