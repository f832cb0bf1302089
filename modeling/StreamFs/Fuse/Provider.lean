import Mathlib.Data.List.AList

/-!
The tree of files that the file system shows: providers, their nodes, and the resolution of a
path to a node (`VirtualFSProvider.cpp`, `IFuse.cpp`).

* `VirtualFSProvider.getNodes`: the streams of the plugin, then one directory for each
  sub-provider.
* `Path`, `findProvider`, `findNode`: a path is the list of its components behind the root; the
  first one names the provider, the second one the node, and further ones are not looked at.
-/

namespace StreamFs

/-- `NodeTypes`. -/
inductive NodeTypes where
  | fileType | directoryType
  deriving DecidableEq

/-- `VirtualFSProvider::FileNode`. -/
structure FileNode where
  name : String
  type : NodeTypes
  deriving DecidableEq

/-- A provider: its name, the available streams of its plugin, none once the plugin is gone,
and the names of its sub-providers in the order of `mSubProviders`. -/
structure VirtualFSProvider where
  mName : String
  mCb : Option (List String)
  mSubProviders : List String
  deriving DecidableEq

namespace VirtualFSProvider

/-- `getName`. -/
def getName (p : VirtualFSProvider) : String := p.mName

/-- `getNodes`. The nodes of sub-providers keep the empty name they are created with. -/
def getNodes (p : VirtualFSProvider) : List FileNode :=
  (p.mCb.getD []).map (fun name => ⟨name, .fileType⟩)
    ++ p.mSubProviders.map fun _ => ⟨"", .directoryType⟩

end VirtualFSProvider

/-- `fsProviderMapType`. -/
abbrev FsProviderMapType := AList fun _ : String => VirtualFSProvider

/-- An absolute normalised path, as its components behind the root. -/
abbrev Path := List String

/-- `DEBUG_FILE_PATH`. -/
def debugFilePath : Path := ["debug"]

/-- `TS_DUMP_FILE_PATH`. -/
def tsDumpFilePath : Path := ["ts_dump"]

/-- What the iterator of a path reads as, `i` components behind the root: past the last component
it reads as the empty string. -/
def element (path : Path) (i : ℕ) : String := path.getD i ""

/-- `findProvider`. -/
def findProvider (fsProviders : FsProviderMapType) (path : Path) : Option VirtualFSProvider :=
  fsProviders.lookup (element path 0)

/-- `findNode`: the name of the node, empty where there is none. -/
def findNode (provider : Option VirtualFSProvider) (path : Path) : String :=
  match provider with
  | none => ""
  | some p =>
      ((p.getNodes.find? fun node => node.name = element path 1).map FileNode.name).getD ""

end StreamFs
