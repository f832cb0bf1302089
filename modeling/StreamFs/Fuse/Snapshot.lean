import StreamFs.Base.Machine
import StreamFs.Base.Unsigned
import StreamFs.Fuse.Nodes

/-!
A listing of the nodes against publications of the streams (`VirtualFSProvider.cpp`,
`PluginCbImpl.cpp`).

* `NodesPhase`: `getNodes` after it has the reference to the list of streams: it sizes the result,
  starts the loop over the list, copies the entries, and adds the sub-providers. `offset` is an
  `int`.
* `Listing`: the list of streams with the number of its storage, which each publication replaces,
  the result so far, and the phase. `published` is a record of the model.
* `stepNodes`: a step reads through the iterators of the loop, and writes to the result. A read of a
  storage that has been replaced, and a write outside of the result, is a `fault`.
* `Snapshot`: a call that returns gives the streams of a publication, and there is no fault.
* `KeepsList`: the loop starts on a list of the size of the result, which an `int` can count, and
  the list is not published anew before its last entry is copied.
* `snapshot_run`: in a run of such steps all listings are snapshots.
* `outputs_getNodes`: a call by itself returns `VirtualFSProvider.getNodes`.
-/

namespace StreamFs

/-- `getNodes`, named after its next step. The iterators of the loop are `it` and `stop`, in the
storage numbered `storage`. -/
inductive NodesPhase where
  | idle
  | resize
  | start
  | copy (storage it stop : ℕ)
  | attach (k : ℕ)
  | fault
  deriving DecidableEq

/-- Entries of the list are still to be copied. -/
def NodesPhase.copies : NodesPhase → Bool
  | copy _ it stop => it ≠ stop
  | _ => false

/-- The list of streams of a plugin, and a listing of its nodes. -/
structure Listing where
  mStreamIds : List String
  storage : ℕ
  published : List (List String)
  mSubProviders : List String
  nodes : List FileNode
  offset : ℤ
  phase : NodesPhase

/-- The events: a publication, a call of `getNodes`, up to the reference it gets, and its steps. -/
inductive ListingEvent where
  | setAvailableStreams (streamIds : List String)
  | getNodes
  | stepNodes
  deriving DecidableEq

namespace Listing

/-- A plugin that has published nothing, and the sub-providers of its provider. -/
def create (mSubProviders : List String) : Listing :=
  ⟨[], 0, [[]], mSubProviders, [], 0, .idle⟩

/-- A node as `resize` makes it, with the type zeroed. -/
def blankNode : FileNode := ⟨"", .fileType⟩

/-- The node of a sub-provider. -/
def dirNode : FileNode := ⟨"", .directoryType⟩

/-- The assignments to `nodes[offset]`, followed by `offset++`. -/
def write (s : Listing) (assign : FileNode → FileNode) (next : NodesPhase) : Listing :=
  if toSizeT s.offset < s.nodes.length then
    { s with
      nodes := s.nodes.modify (toSizeT s.offset) assign
      offset := toInt32 (s.offset + 1)
      phase := next }
  else { s with phase := .fault }

/-- The next step of `getNodes`, with what it returns. -/
def stepNodes (s : Listing) : Listing × Option (List FileNode) :=
  match s.phase with
  | .idle | .fault => (s, none)
  | .resize =>
      ({ s with
        nodes := List.replicate (s.mStreamIds.length + s.mSubProviders.length) blankNode
        offset := 0
        phase := .start }, none)
  | .start => ({ s with phase := .copy s.storage 0 s.mStreamIds.length }, none)
  | .copy storage it stop =>
      if it = stop then ({ s with phase := .attach 0 }, none)
      else if s.storage = storage then
        (s.write (fun _ => ⟨s.mStreamIds.getD it "", .fileType⟩) (.copy storage (it + 1) stop),
          none)
      else ({ s with phase := .fault }, none)
  | .attach k =>
      if k = s.mSubProviders.length then ({ s with phase := .idle }, some s.nodes)
      else (s.write (fun node => { node with type := .directoryType }) (.attach (k + 1)), none)

/-- One event. A call waits for the one before it. -/
def act (s : Listing) : ListingEvent → Listing × Option (List FileNode)
  | .setAvailableStreams streamIds =>
      ({ s with
        mStreamIds := streamIds
        storage := s.storage + 1
        published := s.published ++ [streamIds] }, none)
  | .getNodes => (if s.phase = .idle then { s with phase := .resize } else s, none)
  | .stepNodes => s.stepNodes

/-- The events as a machine. -/
def listingMachine : Machine Listing ListingEvent (Option (List FileNode)) := ⟨act⟩

/-- The names of the files among the nodes. -/
def streamNames (nodes : List FileNode) : List String :=
  (nodes.filter fun node => node.type = .fileType).map FileNode.name

/-- What is returned names the streams of a publication, and nothing is written outside of the
result, or read where the list is no more. -/
def Snapshot (t : Transition Listing ListingEvent (Option (List FileNode))) : Prop :=
  (∀ nodes, t.output = some nodes → streamNames nodes ∈ t.before.published) ∧
    t.after.phase ≠ .fault

/-- The loop starts on a list of the size of the result, and nothing is published before the last
entry is copied. -/
def KeepsList (t : Transition Listing ListingEvent (Option (List FileNode))) : Prop :=
  match t.event with
  | .setAvailableStreams _ => t.before.phase.copies = false
  | .getNodes => True
  | .stepNodes =>
      t.before.phase = .start →
        t.before.mStreamIds.length + t.before.mSubProviders.length = t.before.nodes.length ∧
          t.before.nodes.length ≤ 2 ^ 31

/-- The files of a list of streams. -/
def fileNodes (streams : List String) : List FileNode :=
  streams.map fun name => ⟨name, .fileType⟩

/-- What the phase says about the result. `streams` is the list that the loop has started on. -/
def Progress (s : Listing) : NodesPhase → Prop
  | .idle | .resize => True
  | .start => s.nodes = List.replicate s.nodes.length blankNode ∧ s.offset = 0
  | .copy storage it stop =>
      ∃ streams ∈ s.published, stop = streams.length ∧ it ≤ stop ∧
        s.nodes = fileNodes (streams.take it)
          ++ List.replicate (stop - it + s.mSubProviders.length) blankNode ∧
        s.offset = toInt32 it ∧ stop + s.mSubProviders.length ≤ 2 ^ 31 ∧
        (it ≠ stop → s.storage = storage ∧ s.mStreamIds = streams)
  | .attach k =>
      ∃ streams ∈ s.published, k ≤ s.mSubProviders.length ∧
        s.nodes = fileNodes streams ++ List.replicate k dirNode
          ++ List.replicate (s.mSubProviders.length - k) blankNode ∧
        s.offset = toInt32 (streams.length + k : ℕ) ∧
        streams.length + s.mSubProviders.length ≤ 2 ^ 31
  | .fault => False

/-- The list of streams is the last one published, and the result is as far as the phase says. -/
structure Consistent (s : Listing) : Prop where
  published : s.mStreamIds ∈ s.published
  progress : s.Progress s.phase

variable {s : Listing}

lemma consistent_create (mSubProviders : List String) : (create mSubProviders).Consistent :=
  ⟨List.mem_singleton_self _, trivial⟩

/-! ### The result -/

@[simp] lemma length_fileNodes (streams : List String) :
    (fileNodes streams).length = streams.length := List.length_map _

/-- The node behind the ones that are done. -/
lemma modify_append_cons (done : List FileNode) (assign : FileNode → FileNode) (node : FileNode)
    (rest : List FileNode) :
    (done ++ node :: rest).modify done.length assign = done ++ assign node :: rest := by
  induction done with
  | nil => rfl
  | cons head done ih => simp [ih]

/-- A write to the first blank node. -/
lemma write_eq {done : List FileNode} {m : ℕ} (assign : FileNode → FileNode) (next : NodesPhase)
    (hnodes : s.nodes = done ++ List.replicate (m + 1) blankNode)
    (hoffset : s.offset = toInt32 done.length) (hlt : done.length < 2 ^ 31) :
    s.write assign next = { s with
      nodes := done ++ assign blankNode :: List.replicate m blankNode
      offset := toInt32 (done.length + 1 : ℕ)
      phase := next } := by
  have hindex : toSizeT s.offset = done.length := by
    rw [hoffset, toSizeT_toInt32_of_lt hlt]
  have hinside : toSizeT s.offset < s.nodes.length := by
    rw [hindex, hnodes, List.length_append, List.length_replicate]
    omega
  have hmodify : s.nodes.modify done.length assign
      = done ++ assign blankNode :: List.replicate m blankNode := by
    rw [hnodes, List.replicate_succ, modify_append_cons]
  rw [write, if_pos hinside, hindex, hmodify, hoffset, toInt32_toInt32_add]
  norm_cast

/-- A list of files is the streams it is made of. -/
lemma streamNames_nodes (streams : List String) (n : ℕ) :
    streamNames (fileNodes streams ++ List.replicate n dirNode) = streams := by
  have hfiles : (fileNodes streams).filter (fun node => node.type = .fileType)
      = fileNodes streams := by
    rw [List.filter_eq_self]
    intro node hnode
    obtain ⟨name, -, rfl⟩ := List.mem_map.mp hnode
    rfl
  have hdirs : (List.replicate n dirNode).filter
      (fun node => node.type = .fileType) = [] := by
    rw [List.filter_eq_nil_iff]
    intro node hnode
    rw [List.eq_of_mem_replicate hnode]
    decide
  rw [streamNames, List.filter_append, hfiles, hdirs, List.append_nil, fileNodes, List.map_map]
  exact List.map_id _

/-! ### One step -/

/-- What a call returns. -/
lemma Consistent.nodes_eq (hs : s.Consistent) {nodes : List FileNode}
    (hout : s.stepNodes.2 = some nodes) :
    ∃ streams ∈ s.published, nodes = fileNodes streams
      ++ List.replicate s.mSubProviders.length dirNode := by
  have hprogress := hs.progress
  rw [Listing.stepNodes] at hout
  cases hphase : s.phase with
  | attach k =>
      simp only [hphase] at hout
      split at hout
      · rename_i hk
        rw [hphase] at hprogress
        obtain ⟨streams, hmem, -, hnodes, -, -⟩ := hprogress
        rw [hk, Nat.sub_self, List.replicate_zero, List.append_nil] at hnodes
        exact ⟨streams, hmem, (Option.some.inj hout).symm.trans hnodes⟩
      · exact absurd hout nofun
  | copy storage it stop =>
      simp only [hphase] at hout
      split at hout
      · exact absurd hout nofun
      · split at hout <;> exact absurd hout nofun
  | _ => simp [hphase] at hout

/-- An entry is copied. -/
lemma stepNodes_copy {streams : List String} {storage it : ℕ}
    (hphase : s.phase = .copy storage it streams.length) (hlt : it < streams.length)
    (hstorage : s.storage = storage) (hstreams : s.mStreamIds = streams)
    (hnodes : s.nodes = fileNodes (streams.take it)
      ++ List.replicate (streams.length - it + s.mSubProviders.length) blankNode)
    (hoffset : s.offset = toInt32 it) (hlen : streams.length + s.mSubProviders.length ≤ 2 ^ 31) :
    s.stepNodes = ({ s with
      nodes := fileNodes (streams.take (it + 1))
        ++ List.replicate (streams.length - (it + 1) + s.mSubProviders.length) blankNode
      offset := toInt32 (it + 1 : ℕ)
      phase := .copy storage (it + 1) streams.length }, none) := by
  have hdone : (fileNodes (streams.take it)).length = it := by
    rw [length_fileNodes, List.length_take]
    omega
  have hblank : streams.length - it + s.mSubProviders.length
      = streams.length - (it + 1) + s.mSubProviders.length + 1 := by omega
  have hentry : fileNodes (streams.take (it + 1))
      = fileNodes (streams.take it) ++ [⟨s.mStreamIds.getD it "", .fileType⟩] := by
    rw [hstreams, List.getD_eq_getElem?_getD, List.getElem?_eq_getElem hlt, Option.getD_some,
      List.take_succ_eq_append_getElem hlt, fileNodes, List.map_append]
    rfl
  simp only [Listing.stepNodes, hphase]
  rw [if_neg hlt.ne, if_pos hstorage,
    write_eq _ _ (hblank ▸ hnodes) (by rw [hdone]; exact hoffset) (by omega), hentry, hdone,
    List.append_assoc]
  rfl

/-- The node of a sub-provider is added. -/
lemma stepNodes_attach {streams : List String} {k : ℕ} (hphase : s.phase = .attach k)
    (hlt : k < s.mSubProviders.length)
    (hnodes : s.nodes = fileNodes streams ++ List.replicate k dirNode
      ++ List.replicate (s.mSubProviders.length - k) blankNode)
    (hoffset : s.offset = toInt32 (streams.length + k : ℕ))
    (hlen : streams.length + s.mSubProviders.length ≤ 2 ^ 31) :
    s.stepNodes = ({ s with
      nodes := fileNodes streams ++ List.replicate (k + 1) dirNode
        ++ List.replicate (s.mSubProviders.length - (k + 1)) blankNode
      offset := toInt32 (streams.length + (k + 1) : ℕ)
      phase := .attach (k + 1) }, none) := by
  have hdone : (fileNodes streams ++ List.replicate k dirNode).length = streams.length + k := by
    rw [List.length_append, length_fileNodes, List.length_replicate]
  have hblank : s.mSubProviders.length - k = s.mSubProviders.length - (k + 1) + 1 := by omega
  simp only [Listing.stepNodes, hphase]
  rw [if_neg hlt.ne, write_eq _ _ (hblank ▸ hnodes) (by rw [hdone]; exact hoffset) (by omega),
    hdone, List.replicate_succ', Nat.add_assoc, ← List.append_assoc,
    List.append_assoc _ [dirNode]]
  rfl

/-- The copy of an entry. -/
lemma Consistent.copy (hs : s.Consistent) {storage it stop : ℕ}
    (hphase : s.phase = .copy storage it stop) : s.stepNodes.1.Consistent := by
  have hprogress := hs.progress
  rw [hphase] at hprogress
  obtain ⟨streams, hmem, rfl, hle, hnodes, hoffset, hlen, hkept⟩ := hprogress
  by_cases hstop : it = streams.length
  · -- all entries are copied
    subst hstop
    simp only [Listing.stepNodes, hphase, if_true]
    refine ⟨hs.published, streams, hmem, Nat.zero_le _, ?_, ?_, hlen⟩
    · simpa using hnodes
    · simpa using hoffset
  · obtain ⟨hstorage, hstreams⟩ := hkept hstop
    have hlt : it < streams.length := lt_of_le_of_ne hle hstop
    rw [stepNodes_copy hphase hlt hstorage hstreams hnodes hoffset hlen]
    refine ⟨hs.published, ?_⟩
    dsimp only [Progress]
    exact ⟨streams, hmem, rfl, hlt, rfl, rfl, hlen, fun _ => ⟨hstorage, hstreams⟩⟩

/-- The node of a sub-provider. -/
lemma Consistent.attach (hs : s.Consistent) {k : ℕ} (hphase : s.phase = .attach k) :
    s.stepNodes.1.Consistent := by
  have hprogress := hs.progress
  rw [hphase] at hprogress
  obtain ⟨streams, hmem, hle, hnodes, hoffset, hlen⟩ := hprogress
  by_cases hk : k = s.mSubProviders.length
  · simp only [Listing.stepNodes, hphase]
    rw [if_pos hk]
    exact ⟨hs.published, trivial⟩
  · have hlt : k < s.mSubProviders.length := lt_of_le_of_ne hle hk
    rw [stepNodes_attach hphase hlt hnodes hoffset hlen]
    refine ⟨hs.published, ?_⟩
    dsimp only [Progress]
    exact ⟨streams, hmem, hlt, rfl, rfl, hlen⟩

/-- **One step** of a call. -/
lemma Consistent.stepNodes (hs : s.Consistent)
    (hkeeps : KeepsList (listingMachine.transition s .stepNodes)) :
    s.stepNodes.1.Consistent := by
  have hprogress := hs.progress
  cases hphase : s.phase with
  | idle =>
      simp only [Listing.stepNodes, hphase]
      exact hs
  | resize =>
      simp only [Listing.stepNodes, hphase]
      exact ⟨hs.published, by simp, rfl⟩
  | start =>
      have hkept : s.mStreamIds.length + s.mSubProviders.length = s.nodes.length ∧
          s.nodes.length ≤ 2 ^ 31 := hkeeps hphase
      rw [hphase] at hprogress
      obtain ⟨hnodes, hoffset⟩ := hprogress
      simp only [Listing.stepNodes, hphase]
      refine ⟨hs.published, s.mStreamIds, hs.published, rfl, Nat.zero_le _, ?_, ?_, ?_,
        fun _ => ⟨rfl, rfl⟩⟩
      · rw [Nat.sub_zero, hkept.1]
        exact hnodes
      · exact hoffset
      · exact hkept.1.trans_le hkept.2
  | copy storage it stop => exact hs.copy hphase
  | attach k => exact hs.attach hphase
  | fault =>
      rw [hphase] at hprogress
      exact hprogress.elim

/-- A publication does not take back the progress of a call that copies nothing. -/
lemma Consistent.setAvailableStreams (hs : s.Consistent) {streamIds : List String}
    (hkeeps : s.phase.copies = false) :
    (listingMachine.next s (.setAvailableStreams streamIds)).Consistent := by
  have hprogress := hs.progress
  have hold : ∀ {streams}, streams ∈ s.published → streams ∈ s.published ++ [streamIds] :=
    fun h => List.mem_append_left _ h
  refine ⟨List.mem_append_right _ (List.mem_singleton_self _), ?_⟩
  show Progress { s with
    mStreamIds := streamIds, storage := s.storage + 1, published := s.published ++ [streamIds] }
      s.phase
  cases hphase : s.phase with
  | idle => trivial
  | resize => trivial
  | start =>
      rw [hphase] at hprogress
      exact hprogress
  | copy storage it stop =>
      rw [hphase] at hprogress hkeeps
      obtain ⟨streams, hmem, hstop, hle, hnodes, hoffset, hlen, -⟩ := hprogress
      have hend : it = stop := by simpa [NodesPhase.copies] using hkeeps
      exact ⟨streams, hold hmem, hstop, hle, hnodes, hoffset, hlen, fun hne => absurd hend hne⟩
  | attach k =>
      rw [hphase] at hprogress
      obtain ⟨streams, hmem, hrest⟩ := hprogress
      exact ⟨streams, hold hmem, hrest⟩
  | fault =>
      rw [hphase] at hprogress
      exact hprogress

/-! ### All interleavings -/

/-- **One event** that keeps the list of the loop gives a snapshot. -/
lemma Consistent.next (hs : s.Consistent) (e : ListingEvent)
    (hkeeps : KeepsList (listingMachine.transition s e)) :
    Snapshot (listingMachine.transition s e) ∧ (listingMachine.next s e).Consistent := by
  have hnext : (listingMachine.next s e).Consistent := by
    cases e with
    | setAvailableStreams streamIds => exact hs.setAvailableStreams hkeeps
    | getNodes =>
        show Consistent (if s.phase = .idle then { s with phase := .resize } else s)
        split
        · exact ⟨hs.published, trivial⟩
        · exact hs
    | stepNodes => exact hs.stepNodes hkeeps
  refine ⟨⟨fun nodes hout => ?_, fun hfault => ?_⟩, hnext⟩
  · cases e with
    | setAvailableStreams streamIds => exact absurd hout nofun
    | getNodes => exact absurd hout nofun
    | stepNodes =>
        obtain ⟨streams, hmem, rfl⟩ := hs.nodes_eq hout
        rw [streamNames_nodes]
        exact hmem
  · have hprogress := hnext.progress
    rw [show (listingMachine.next s e).phase = .fault from hfault] at hprogress
    exact hprogress

/-- **In a run whose loops start on lists of the size of the result, and copy them before the next
publication, every listing is a snapshot.** -/
theorem snapshot_run (mSubProviders : List String) (es : List ListingEvent)
    (hkeeps : ∀ t ∈ listingMachine.trace (create mSubProviders) es, KeepsList t) :
    ∀ t ∈ listingMachine.trace (create mSubProviders) es, Snapshot t :=
  Machine.forall_trace (I := Consistent) (fun _ e hs h => hs.next e h)
    (consistent_create mSubProviders) es hkeeps

instance (t : Transition Listing ListingEvent (Option (List FileNode))) : Decidable (KeepsList t) :=
  match t with
  | ⟨_, .setAvailableStreams _, _, _⟩ => inferInstanceAs (Decidable (_ = _))
  | ⟨_, .getNodes, _, _⟩ => .isTrue trivial
  | ⟨_, .stepNodes, _, _⟩ => inferInstanceAs (Decidable (_ → _))

/-- The list is published anew in each of the places where that does no harm. -/
def republished : List ListingEvent :=
  [.setAvailableStreams ["a", "b"], .getNodes, .setAvailableStreams ["c"], .stepNodes,
    .setAvailableStreams ["d"], .stepNodes, .stepNodes, .setAvailableStreams ["e", "f"],
    .stepNodes, .stepNodes]

theorem snapshot_run_republished :
    Snapshot (listingMachine.transition (listingMachine.run (create ["sub"]) republished)
      .stepNodes) :=
  snapshot_run ["sub"] (republished ++ [.stepNodes]) (by decide) _
    (listingMachine.mem_trace_append (create ["sub"]) republished .stepNodes)

/-- A shorter list is published between the sizing and the start of the loop. -/
theorem not_forall_snapshot : ¬ ∀ (mSubProviders : List String) (es : List ListingEvent),
    ∀ t ∈ listingMachine.trace (create mSubProviders) es, Snapshot t := by
  intro h
  have hnames := (h [] _ _ (listingMachine.mem_trace_append (create [])
    [.setAvailableStreams ["a"], .getNodes, .stepNodes, .setAvailableStreams [], .stepNodes,
      .stepNodes] .stepNodes)).1 [blankNode] (by decide)
  exact absurd hnames (by decide)

/-! ### A call by itself -/

/-- The nodes of a provider with these streams. -/
lemma getNodes_eq (name : String) (streams mSubProviders : List String) :
    VirtualFSProvider.getNodes ⟨name, some streams, mSubProviders⟩
      = fileNodes streams ++ List.replicate mSubProviders.length dirNode := by
  rw [VirtualFSProvider.getNodes, ← List.map_const']
  rfl

/-- A call by itself that has copied `it` entries. -/
def copied (streams : List String) (s : Listing) (it : ℕ) : Listing :=
  { s with
    nodes := fileNodes (streams.take it)
      ++ List.replicate (streams.length - it + s.mSubProviders.length) blankNode
    offset := toInt32 it
    phase := .copy s.storage it streams.length }

/-- A call by itself that has copied all entries and added `k` sub-providers. -/
def attached (streams : List String) (s : Listing) (k : ℕ) : Listing :=
  { s with
    nodes := fileNodes streams ++ List.replicate k dirNode
      ++ List.replicate (s.mSubProviders.length - k) blankNode
    offset := toInt32 (streams.length + k : ℕ)
    phase := .attach k }

/-- A step that returns nothing. -/
lemma reduceOption_outputs_cons {s' : Listing} (h : s.stepNodes = (s', none))
    (es : List ListingEvent) :
    (listingMachine.outputs s (.stepNodes :: es)).reduceOption
      = (listingMachine.outputs s' es).reduceOption := by
  have hstep : listingMachine.step s .stepNodes = (s', none) := h
  rw [Machine.outputs, Machine.output, Machine.next, hstep, List.reduceOption_cons_of_none]

/-- The rest of the copies. -/
lemma outputs_copied {streams : List String} (hstreams : s.mStreamIds = streams)
    (hlen : streams.length + s.mSubProviders.length ≤ 2 ^ 31) (n : ℕ) {it : ℕ}
    (hn : it + n = streams.length) (es : List ListingEvent) :
    (listingMachine.outputs (copied streams s it)
        (List.replicate (n + 1) .stepNodes ++ es)).reduceOption
      = (listingMachine.outputs (attached streams s 0) es).reduceOption := by
  induction n generalizing it with
  | zero =>
      obtain rfl : it = streams.length := hn
      exact reduceOption_outputs_cons (by simp [Listing.stepNodes, copied, attached]) es
  | succ n ih =>
      have hstep : (copied streams s it).stepNodes = (copied streams s (it + 1), none) := by
        have hlt : it < streams.length := by omega
        exact stepNodes_copy rfl hlt rfl hstreams rfl (by rw [copied]) hlen
      rw [List.replicate_succ, List.cons_append, reduceOption_outputs_cons hstep, ih (by omega)]

/-- The rest of the sub-providers, and the return. -/
lemma outputs_attached {streams : List String}
    (hlen : streams.length + s.mSubProviders.length ≤ 2 ^ 31) (n : ℕ) {k : ℕ}
    (hn : k + n = s.mSubProviders.length) :
    (listingMachine.outputs (attached streams s k)
        (List.replicate (n + 1) .stepNodes)).reduceOption
      = [fileNodes streams ++ List.replicate s.mSubProviders.length dirNode] := by
  induction n generalizing k with
  | zero =>
      obtain rfl : k = s.mSubProviders.length := hn
      have hstep : (attached streams s s.mSubProviders.length).stepNodes.2
          = some (fileNodes streams ++ List.replicate s.mSubProviders.length dirNode) := by
        simp [Listing.stepNodes, attached]
      exact congrArg (fun out => List.reduceOption [out]) hstep
  | succ n ih =>
      have hstep : (attached streams s k).stepNodes = (attached streams s (k + 1), none) := by
        have hlt : k < s.mSubProviders.length := by omega
        exact stepNodes_attach rfl hlt rfl (by rw [attached]) hlen
      rw [List.replicate_succ, reduceOption_outputs_cons hstep, ih (by omega)]

/-- **A call by itself** returns the nodes of the provider. -/
theorem outputs_getNodes (hidle : s.phase = .idle) (name : String)
    (hlen : s.mStreamIds.length + s.mSubProviders.length ≤ 2 ^ 31) :
    (listingMachine.outputs s (.getNodes :: .stepNodes :: .stepNodes ::
        (List.replicate (s.mStreamIds.length + 1) .stepNodes
          ++ List.replicate (s.mSubProviders.length + 1) .stepNodes))).reduceOption
      = [VirtualFSProvider.getNodes ⟨name, some s.mStreamIds, s.mSubProviders⟩] := by
  have hcall : listingMachine.step s .getNodes = ({ s with phase := .resize }, none) := by
    show ((if s.phase = .idle then { s with phase := .resize } else s), none) = _
    rw [if_pos hidle]
  have hresize : Listing.stepNodes { s with phase := .resize } = ({ s with
      nodes := List.replicate (s.mStreamIds.length + s.mSubProviders.length) blankNode
      offset := 0
      phase := .start }, none) := rfl
  have hstart : Listing.stepNodes { s with
      nodes := List.replicate (s.mStreamIds.length + s.mSubProviders.length) blankNode
      offset := 0
      phase := .start } = (copied s.mStreamIds s 0, none) := by
    simp [Listing.stepNodes, copied, fileNodes, toInt32]
  rw [Machine.outputs, Machine.output, Machine.next, hcall, List.reduceOption_cons_of_none,
    reduceOption_outputs_cons hresize, reduceOption_outputs_cons hstart,
    outputs_copied rfl hlen _ (Nat.zero_add _), outputs_attached hlen _ (Nat.zero_add _),
    getNodes_eq]

end Listing

end StreamFs
