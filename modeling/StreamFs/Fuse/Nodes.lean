import StreamFs.Base.Machine
import StreamFs.Fuse.Namespace

/-!
The nodes of a provider against its streams and sub-providers (`VirtualFSProvider.cpp`,
`VirtualFSProvider.h`, `PluginCbImpl.cpp`).

* `StreamIds`, `ProviderName`: a list of streams without duplicates and empty names, and the name of
  a provider.
* `ProviderCall`, `providerMachine`: the streams are published, and sub-providers attached, in any
  order.
* `NodesAgree`: one node for each stream and each sub-provider, under its name, and no name twice.
* `nodesAgree_iff`: the nodes agree all along iff no sub-provider is attached. `getNodes` leaves the
  node of a sub-provider without a name.
-/

namespace StreamFs

/-- A list of streams: no name is empty or comes twice. -/
structure StreamIds where
  names : List String
  nodup : names.Nodup
  ne_empty : "" ∉ names

/-- The name of a provider. -/
structure ProviderName where
  name : String
  ne_empty : name ≠ ""

/-- The calls that change the nodes of a provider. The new sub-provider gets the place `i` among the
others. -/
inductive ProviderCall where
  | setAvailableStreams (streamIds : StreamIds)
  | attachProvider (provider : ProviderName) (i : ℕ)

namespace VirtualFSProvider

/-- The provider of a plugin that has published nothing. -/
def create (name : String) : VirtualFSProvider := ⟨name, some [], []⟩

/-- One call, with what `attachProvider` returns. A place behind the last one is the last one. -/
def act (p : VirtualFSProvider) : ProviderCall → VirtualFSProvider × Option ℤ
  | .setAvailableStreams streamIds => ({ p with mCb := some streamIds.names }, none)
  | .attachProvider provider i =>
      let res := p.attachProvider (some provider.name) (min i p.mSubProviders.length)
      (res.2, some res.1)

/-- The calls as a machine. -/
def providerMachine : Machine VirtualFSProvider ProviderCall (Option ℤ) := ⟨act⟩

/-- One file for each stream, one directory for each sub-provider. -/
def expectedNodes (p : VirtualFSProvider) : List FileNode :=
  (p.mCb.getD []).map (fun name => ⟨name, .fileType⟩)
    ++ p.mSubProviders.map fun name => ⟨name, .directoryType⟩

/-- The nodes are the expected ones, and a name denotes at most one of them. -/
structure NodesAgree (p : VirtualFSProvider) : Prop where
  complete : p.getNodes.Perm p.expectedNodes
  unique : (p.getNodes.map FileNode.name).Nodup

/-- A call that attaches a sub-provider. -/
def Attaches (t : Transition VirtualFSProvider ProviderCall (Option ℤ)) : Prop := t.output = some 0

/-- The streams are a list of streams, and there are no sub-providers. -/
structure Flat (p : VirtualFSProvider) : Prop where
  streams : ∃ streamIds : StreamIds, p.mCb = some streamIds.names
  subProviders : p.mSubProviders = []

variable {p : VirtualFSProvider}

/-- The names of the nodes. -/
lemma map_name_getNodes (p : VirtualFSProvider) :
    p.getNodes.map FileNode.name
      = p.mCb.getD [] ++ List.replicate p.mSubProviders.length "" := by
  simp only [getNodes, List.map_append, List.map_map]
  congr 1
  · exact List.map_id _
  · exact List.map_const'

lemma Flat.nodesAgree (hp : p.Flat) : p.NodesAgree := by
  obtain ⟨streamIds, hstreams⟩ := hp.streams
  constructor
  · rw [getNodes, expectedNodes, hp.subProviders]
    exact List.Perm.refl _
  · rw [map_name_getNodes, hstreams, hp.subProviders]
    simpa using streamIds.nodup

/-- The node of a sub-provider does not carry its name. -/
lemma not_nodesAgree (name : String) (hmem : name ∈ p.mSubProviders) (hname : name ≠ "") :
    ¬ p.NodesAgree := by
  intro h
  have hexpected : (⟨name, .directoryType⟩ : FileNode) ∈ p.expectedNodes :=
    List.mem_append_right _ (List.mem_map_of_mem hmem)
  rcases List.mem_append.mp (h.complete.mem_iff.mpr hexpected) with hnode | hnode
  · obtain ⟨stream, -, heq⟩ := List.mem_map.mp hnode
    exact absurd (FileNode.mk.inj heq).2 nofun
  · obtain ⟨sub, -, heq⟩ := List.mem_map.mp hnode
    exact hname (FileNode.mk.inj heq).1.symm

lemma flat_create (name : String) : (create name).Flat :=
  ⟨⟨⟨[], List.nodup_nil, List.not_mem_nil⟩, rfl⟩, rfl⟩

/-- A sub-provider is attached unless a stream has its name. -/
lemma Flat.attachProvider_cases (hp : p.Flat) (provider : ProviderName) (i : ℕ) :
    providerMachine.output p (.attachProvider provider i) = some (-2) ∧
        providerMachine.next p (.attachProvider provider i) = p ∨
      providerMachine.output p (.attachProvider provider i) = some 0 ∧
        provider.name ∈ (providerMachine.next p (.attachProvider provider i)).mSubProviders := by
  obtain ⟨streamIds, hstreams⟩ := hp.streams
  simp only [Machine.output, Machine.next, providerMachine, act, attachProvider, hstreams]
  split_ifs with hfile
  · exact .inl ⟨rfl, rfl⟩
  · exact .inr ⟨rfl, List.mem_insertIdx (Nat.min_le_right _ _) |>.mpr (.inl rfl)⟩

/-- **One call** on a provider without sub-providers leaves its nodes in agreement iff it attaches
none. -/
lemma Flat.nodesAgree_next_iff (hp : p.Flat) (e : ProviderCall) :
    (providerMachine.next p e).NodesAgree ↔ ¬ Attaches (providerMachine.transition p e) := by
  cases e with
  | setAvailableStreams streamIds =>
      exact iff_of_true (Flat.nodesAgree ⟨⟨streamIds, rfl⟩, hp.subProviders⟩) nofun
  | attachProvider provider i =>
      rcases hp.attachProvider_cases provider i with ⟨hout, hsame⟩ | ⟨hout, hmem⟩
      · refine iff_of_true (by rw [hsame]; exact hp.nodesAgree) fun hattaches => ?_
        exact absurd (Option.some.inj (hout.symm.trans hattaches)) (by norm_num)
      · exact iff_of_false (not_nodesAgree _ hmem provider.ne_empty) fun hnot => hnot hout

lemma Flat.next (hp : p.Flat) {e : ProviderCall} (h : (providerMachine.next p e).NodesAgree) :
    (providerMachine.next p e).Flat := by
  cases e with
  | setAvailableStreams streamIds => exact ⟨⟨streamIds, rfl⟩, hp.subProviders⟩
  | attachProvider provider i =>
      rcases hp.attachProvider_cases provider i with ⟨-, hsame⟩ | ⟨-, hmem⟩
      · rw [hsame]
        exact hp
      · exact absurd h (not_nodesAgree _ hmem provider.ne_empty)

/-- **The nodes agree with the streams and the sub-providers** after every call, iff no call
attaches a sub-provider. -/
theorem nodesAgree_iff (name : ProviderName) (es : List ProviderCall) :
    (∀ t ∈ providerMachine.trace (create name.name) es, NodesAgree t.after)
      ↔ ∀ t ∈ providerMachine.trace (create name.name) es, ¬ Attaches t :=
  Machine.forall_trace_iff (I := Flat) (fun _ e hp => hp.nodesAgree_next_iff e)
    (fun _ _ hp h => hp.next h) (flat_create name.name) es

/-- One sub-provider is attached. -/
theorem not_forall_nodesAgree : ¬ ∀ (name : ProviderName) (es : List ProviderCall),
    ∀ t ∈ providerMachine.trace (create name.name) es, NodesAgree t.after := by
  intro h
  have hagree := h ⟨"plugin", by decide⟩ [.attachProvider ⟨"sub", by decide⟩ 0] _
    List.mem_cons_self
  exact not_nodesAgree "sub" (by decide) (by decide) hagree

end VirtualFSProvider

end StreamFs
