import StreamFs.Base.Ownership
import StreamFs.Fuse.Readiness

/-!
The poll handles of `IFuse.cpp`: what libfuse passes to `registerPoll` is kept in `mPollHandles`
until it is destroyed.

* `notifyLoop`: the loop of `notifyPoll`, one handle after the other, with the calls of libfuse
  that it makes; `handleAct_notifyPoll` says what it comes to. The clients come in any order.
* `handleMachine`: the calls of `registerPoll` and `notifyPoll` as a machine of which the outputs
  are what happens to the handles.
* `Registered`: the last handle that a client has registered for a file, with no notification of
  the file behind it.
* `handles_owned`: along every run with distinct handles, the stored handles are the ones received
  and not destroyed, each under the one key it is registered for, and no handle is used after it has
  been destroyed.
-/

namespace StreamFs

open Ownership

/-- The calls with a context and a handle. -/
inductive PollCall where
  | registerPoll (fileName : String) (pProvider : VirtualFSProvider) (ctx : FuseContext)
      (ph : PollHandle)
  | notifyPoll (provider filename : String)

/-- The call takes away what is registered for the client `c` on the file `id`: it registers the
client anew, or notifies the file. -/
def PollCall.Ends (id : PluginFilePair) (c : CtxId) : PollCall → Prop
  | .registerPoll fileName pProvider ctx _ =>
      (pProvider.getName, fileName) = id ∧ fuseContextToId ctx = c
  | .notifyPoll provider filename => (provider, filename) = id

/-- The variables of the loop of `notifyPoll`, and the calls of libfuse so far:
`fuse_notify_poll` uses a handle, `fuse_pollhandle_destroy` gives it up. -/
structure NotifyLoop where
  mEofReached : AList fun _ : CtxId => Bool
  ctxMap : ContextMapType
  calls : List (Ownership PollHandle)

/-- The loop of `notifyPoll` over the rest of the map. -/
def notifyLoop : List (Σ _ : CtxId, PollHandle) → NotifyLoop → NotifyLoop
  | [], l => l
  | ⟨ctx_id, pHandle⟩ :: ctxPairs, l =>
      notifyLoop ctxPairs
        ⟨l.mEofReached.insert ctx_id false, l.ctxMap.erase ctx_id,
          l.calls ++ [.use pHandle, .release pHandle]⟩

namespace IFuse

/-- One call, and what happens to the handles: the one passed by libfuse is received. -/
def handleAct (f : IFuse) : PollCall → IFuse × List (Ownership PollHandle)
  | .registerPoll fileName pProvider ctx ph =>
      ((f.registerPoll fileName pProvider (some ctx) (some ph)).2,
        .acquire ph
          :: (f.registerPoll fileName pProvider (some ctx) (some ph)).1.destroyed.map .release)
  | .notifyPoll provider filename =>
      match f.mPollHandles.lookup (provider, filename) with
      | none => (f, [])
      | some ctxMap =>
          let l := notifyLoop ctxMap.entries ⟨f.mEofReached, ctxMap, []⟩
          ({ f with
            mEofReached := l.mEofReached
            mPollHandles := f.mPollHandles.insert (provider, filename) l.ctxMap }, l.calls)

/-- The calls as a machine. -/
def handleMachine : Machine IFuse PollCall (List (Ownership PollHandle)) := ⟨handleAct⟩

/-- The handles received from libfuse. -/
def received : List PollCall → List PollHandle
  | [] => []
  | .registerPoll _ _ _ ph :: es => ph :: received es
  | .notifyPoll _ _ :: es => received es

/-- What happens to the handles along a run. -/
def handleCalls (f : IFuse) (es : List PollCall) : List (Ownership PollHandle) :=
  (handleMachine.outputs f es).flatten

/-- The stored handles. -/
def stored (f : IFuse) : Set PollHandle := {h | ∃ id c, f.handleOf id c = some h}

/-- The handle `h` is registered for the client `c` on the file `id` after the calls `es`: one of
them registers it, and none behind it takes it away. -/
def Registered (es : List PollCall) (id : PluginFilePair) (c : CtxId) (h : PollHandle) : Prop :=
  ∃ pre fileName pProvider ctx post, es = pre ++ .registerPoll fileName pProvider ctx h :: post ∧
    (pProvider.getName, fileName) = id ∧ fuseContextToId ctx = c ∧ ∀ e ∈ post, ¬ e.Ends id c

/-- No handle is stored for two clients or files. -/
def KeyUnique (f : IFuse) : Prop :=
  ∀ h id c id' c', f.handleOf id c = some h → f.handleOf id' c' = some h → id = id' ∧ c = c'

/-- The handles are owned along the calls `es`. -/
structure HandlesOwned (f : IFuse) (es : List PollCall) : Prop where
  stored_iff : ∀ h, h ∈ stored (handleMachine.run f es)
    ↔ h ∈ received es ∧ .release h ∉ handleCalls f es
  key_unique : KeyUnique (handleMachine.run f es)
  kept_iff : ∀ id c h, (handleMachine.run f es).handleOf id c = some h ↔ Registered es id c h
  destroyed_once : ∀ h, (handleCalls f es).count (.release h) ≤ 1
  not_notified_after : ∀ h pre post, handleCalls f es = pre ++ .release h :: post → .use h ∉ post
  notified_once : ∀ provider filename c h,
    (handleMachine.run f es).handleOf (provider, filename) c = some h →
      (handleCalls f (es ++ [.notifyPoll provider filename])).count (.use h) = 1
        ∧ (handleCalls f (es ++ [.notifyPoll provider filename])).count (.release h) = 1
  removed : ∀ provider filename c,
    (handleMachine.run f (es ++ [.notifyPoll provider filename])).handleOf (provider, filename) c
      = none
  others_kept : ∀ provider filename id c, id ≠ (provider, filename) →
    (handleMachine.run f (es ++ [.notifyPoll provider filename])).handleOf id c
        = (handleMachine.run f es).handleOf id c
      ∧ ∀ h, (handleMachine.run f es).handleOf id c = some h →
          .use h ∉ handleMachine.output (handleMachine.run f es) (.notifyPoll provider filename)
            ∧ .release h
              ∉ handleMachine.output (handleMachine.run f es) (.notifyPoll provider filename)

variable {f : IFuse} {id : PluginFilePair} {c : CtxId}

/-! ### The loop -/

/-- The loop takes back the flags, erases the entries, and notifies and destroys the handles. -/
lemma notifyLoop_eq (ctxPairs : List (Σ _ : CtxId, PollHandle)) (l : NotifyLoop) :
    notifyLoop ctxPairs l
      = ⟨(ctxPairs.map Sigma.fst).foldl (fun eof ctx_id => eof.insert ctx_id false) l.mEofReached,
          (ctxPairs.map Sigma.fst).foldl (fun ctxMap ctx_id => ctxMap.erase ctx_id) l.ctxMap,
          l.calls ++ (ctxPairs.map Sigma.snd).flatMap fun h => [.use h, .release h]⟩ := by
  induction ctxPairs generalizing l with
  | nil => simp [notifyLoop]
  | cons ctxPair ctxPairs ih =>
      obtain ⟨ctx_id, pHandle⟩ := ctxPair
      rw [notifyLoop, ih]
      simp

lemma lookup_foldl_erase (cs : List CtxId) (ctxMap : ContextMapType) :
    (cs.foldl (fun ctxMap ctx_id => ctxMap.erase ctx_id) ctxMap).lookup c
      = if c ∈ cs then none else ctxMap.lookup c := by
  refine foldl_set_apply (fun (ctxMap : ContextMapType) c => ctxMap.lookup c)
    (fun ctxMap d c => ?_) cs ctxMap c
  split_ifs with hc
  · rw [hc, AList.lookup_erase]
  · rw [AList.lookup_erase_ne hc]

/-- Nothing is left when all entries have been erased. -/
lemma foldl_erase_keys (ctxMap : ContextMapType) :
    ctxMap.keys.foldl (fun ctxMap ctx_id => ctxMap.erase ctx_id) ctxMap = ∅ := by
  refine AList.ext (List.eq_nil_iff_forall_not_mem.mpr fun e he => ?_)
  have hlookup := AList.mem_lookup_iff.mpr he
  rw [lookup_foldl_erase] at hlookup
  split_ifs at hlookup with hc
  · exact Option.some_ne_none _ hlookup.symm
  · exact hc (AList.mem_keys.mp (AList.lookup_isSome.mp (Option.isSome_of_mem hlookup)))

/-- **A notification** does what `notifyPoll` does, and each of its handles is notified and then
destroyed. -/
lemma handleAct_notifyPoll (f : IFuse) (provider filename : String) :
    f.handleAct (.notifyPoll provider filename)
      = ((f.notifyPoll provider filename).2,
          (f.notifyPoll provider filename).1.notified.flatMap fun h => [.use h, .release h]) := by
  rw [handleAct, notifyPoll]
  cases f.mPollHandles.lookup (provider, filename) with
  | none => rfl
  | some ctxMap =>
      dsimp only
      rw [notifyLoop_eq, ← foldl_erase_keys ctxMap]
      rfl

lemma next_notifyPoll (f : IFuse) (provider filename : String) :
    handleMachine.next f (.notifyPoll provider filename) = (f.notifyPoll provider filename).2 :=
  congrArg Prod.fst (handleAct_notifyPoll f provider filename)

lemma output_notifyPoll (f : IFuse) (provider filename : String) :
    handleMachine.output f (.notifyPoll provider filename)
      = (f.notifyPoll provider filename).1.notified.flatMap fun h => [.use h, .release h] :=
  congrArg Prod.snd (handleAct_notifyPoll f provider filename)

/-! ### The handles after one call -/

/-- A registration stores its handle for its file and client. -/
lemma handleOf_registerPoll (f : IFuse) (fileName : String) (p : VirtualFSProvider)
    (ctx : FuseContext) (ph : PollHandle) (id : PluginFilePair) (c : CtxId) :
    (f.registerPoll fileName p (some ctx) (some ph)).2.handleOf id c
      = if id = (p.getName, fileName) ∧ c = fuseContextToId ctx then some ph
        else f.handleOf id c := by
  by_cases hid : id = (p.getName, fileName)
  · subst hid
    rw [handleOf, registerPoll]
    dsimp only
    rw [AList.lookup_insert, Option.bind_some]
    by_cases hc : c = fuseContextToId ctx
    · rw [hc, AList.lookup_insert, if_pos ⟨rfl, rfl⟩]
    · rw [AList.lookup_insert_ne hc, if_neg (fun h => hc h.2), handleOf]
      cases f.mPollHandles.lookup (p.getName, fileName) <;> rfl
  · rw [handleOf, lookup_registerPoll_of_ne (Ne.symm hid), if_neg (fun h => hid h.1), handleOf]

/-- A registration destroys the handle it replaces. -/
lemma destroyed_registerPoll (f : IFuse) (fileName : String) (p : VirtualFSProvider)
    (ctx : FuseContext) (ph : PollHandle) :
    (f.registerPoll fileName p (some ctx) (some ph)).1.destroyed
      = (f.handleOf (p.getName, fileName) (fuseContextToId ctx)).toList := by
  rw [registerPoll, handleOf]
  cases f.mPollHandles.lookup (p.getName, fileName) <;> rfl

/-- A notification removes the handles of its file. -/
lemma handleOf_notifyPoll (f : IFuse) (provider filename : String) (id : PluginFilePair)
    (c : CtxId) : (f.notifyPoll provider filename).2.handleOf id c
      = if id = (provider, filename) then none else f.handleOf id c := by
  by_cases hid : id = (provider, filename)
  · subst hid
    rw [if_pos rfl, notifyPoll]
    cases h : f.mPollHandles.lookup (provider, filename) with
    | none => rw [handleOf, h]; rfl
    | some ctxMap =>
        rw [handleOf, AList.lookup_insert]
        rfl
  · rw [if_neg hid, handleOf, lookup_notifyPoll_of_ne (Ne.symm hid), handleOf]

/-- The handles a notification notifies are the ones stored for its file. -/
lemma mem_notified_iff {provider filename : String} {h : PollHandle} :
    h ∈ (f.notifyPoll provider filename).1.notified
      ↔ ∃ c, f.handleOf (provider, filename) c = some h := by
  constructor
  · rw [notifyPoll]
    intro hh
    cases hmap : f.mPollHandles.lookup (provider, filename) with
    | none => simp [hmap] at hh
    | some ctxMap =>
        rw [hmap] at hh
        obtain ⟨e, he, rfl⟩ := List.mem_map.mp hh
        exact ⟨e.1, by rw [handleOf, hmap]; exact AList.mem_lookup_iff.mpr he⟩
  · rintro ⟨c, hc⟩
    exact mem_notified hc

/-- No handle is notified twice by one notification. -/
lemma nodup_notified (hu : KeyUnique f) (provider filename : String) :
    (f.notifyPoll provider filename).1.notified.Nodup := by
  rw [notifyPoll]
  cases hmap : f.mPollHandles.lookup (provider, filename) with
  | none => exact List.nodup_nil
  | some ctxMap =>
      have hof : ∀ e ∈ ctxMap.entries, f.handleOf (provider, filename) e.1 = some e.2 := by
        intro e he
        rw [handleOf, hmap]
        exact AList.mem_lookup_iff.mpr he
      refine List.Nodup.map_on (fun e he e' he' heq => ?_) ctxMap.nodupKeys.nodup
      have hkey := (hu e.2 _ _ _ _ (hof e he) (heq ▸ hof e' he')).2
      exact Sigma.ext hkey (heq_of_eq heq)

/-- A new handle takes the place of the one destroyed. -/
lemma stored_registerPoll (hu : KeyUnique f) (fileName : String) (p : VirtualFSProvider)
    (ctx : FuseContext) {ph : PollHandle} (hph : ph ∉ stored f) :
    stored (f.registerPoll fileName p (some ctx) (some ph)).2
      = insert ph (stored f)
        \ {h | f.handleOf (p.getName, fileName) (fuseContextToId ctx) = some h} := by
  ext h
  simp only [stored, handleOf_registerPoll]
  constructor
  · rintro ⟨id, c, hkey⟩
    split_ifs at hkey with hsame
    · obtain rfl := Option.some.inj hkey
      exact ⟨Set.mem_insert _ _, fun hold => hph ⟨_, _, hold⟩⟩
    · refine ⟨Set.mem_insert_of_mem _ ⟨id, c, hkey⟩, fun hold => hsame ?_⟩
      exact hu h id c _ _ hkey hold
  · rintro ⟨hmem, hold⟩
    rcases Set.mem_insert_iff.mp hmem with rfl | ⟨id, c, hkey⟩
    · exact ⟨_, _, if_pos ⟨rfl, rfl⟩⟩
    · refine ⟨id, c, ?_⟩
      rw [if_neg]
      · exact hkey
      · rintro ⟨rfl, rfl⟩
        exact hold hkey

lemma keyUnique_registerPoll (hu : KeyUnique f) (fileName : String) (p : VirtualFSProvider)
    (ctx : FuseContext) {ph : PollHandle} (hph : ph ∉ stored f) :
    KeyUnique (f.registerPoll fileName p (some ctx) (some ph)).2 := by
  intro h id c id' c' hkey hkey'
  rw [handleOf_registerPoll] at hkey hkey'
  split_ifs at hkey hkey' with hsame hsame' hsame'
  · exact ⟨hsame.1.trans hsame'.1.symm, hsame.2.trans hsame'.2.symm⟩
  · obtain rfl := Option.some.inj hkey
    exact absurd ⟨_, _, hkey'⟩ hph
  · obtain rfl := Option.some.inj hkey'
    exact absurd ⟨_, _, hkey⟩ hph
  · exact hu h id c id' c' hkey hkey'

lemma stored_notifyPoll (hu : KeyUnique f) (provider filename : String) :
    stored (f.notifyPoll provider filename).2
      = stored f \ {h | h ∈ (f.notifyPoll provider filename).1.notified} := by
  ext h
  simp only [stored, handleOf_notifyPoll, mem_notified_iff]
  constructor
  · rintro ⟨id, c, hkey⟩
    split_ifs at hkey with hid
    refine ⟨⟨id, c, hkey⟩, ?_⟩
    rintro ⟨c', hkey'⟩
    exact hid (hu h id c _ _ hkey hkey').1
  · rintro ⟨⟨id, c, hkey⟩, hnot⟩
    refine ⟨id, c, ?_⟩
    rw [if_neg]
    · exact hkey
    · rintro rfl
      exact hnot ⟨c, hkey⟩

lemma keyUnique_notifyPoll (hu : KeyUnique f) (provider filename : String) :
    KeyUnique (f.notifyPoll provider filename).2 := by
  intro h id c id' c' hkey hkey'
  rw [handleOf_notifyPoll] at hkey hkey'
  split_ifs at hkey hkey'
  exact hu h id c id' c' hkey hkey'

/-! ### One call and a run -/

/-- **One call** with a new handle respects ownership and keeps the keys unique. -/
lemma owns_handleAct (hu : KeyUnique f) (e : PollCall)
    (hfresh : Fresh (stored f) (handleMachine.output f e)) :
    Owns (stored f) (handleMachine.output f e) (stored (handleMachine.next f e))
      ∧ KeyUnique (handleMachine.next f e) := by
  cases e with
  | registerPoll fileName p ctx ph =>
      have hph : ph ∉ stored f := hfresh.not_mem ph List.mem_cons_self
      refine ⟨?_, keyUnique_registerPoll hu fileName p ctx hph⟩
      show Owns _ (.acquire ph :: (f.registerPoll fileName p (some ctx) (some ph)).1.destroyed.map
        Ownership.release) (stored (f.registerPoll fileName p (some ctx) (some ph)).2)
      rw [stored_registerPoll hu fileName p ctx hph, destroyed_registerPoll]
      cases hold : f.handleOf (p.getName, fileName) (fuseContextToId ctx) with
      | none => simpa using Owns.acquire (Owns.nil _)
      | some old =>
          have hset : {h | some old = some h} = {old} := by
            ext h
            simp [eq_comm]
          rw [hset]
          exact Owns.acquire
            (Owns.release (Set.mem_insert_of_mem ph ⟨_, _, hold⟩) (Owns.nil _))
  | notifyPoll provider filename =>
      rw [next_notifyPoll, output_notifyPoll]
      refine ⟨?_, keyUnique_notifyPoll hu provider filename⟩
      rw [stored_notifyPoll hu]
      refine Owns.flatMap_use_release (nodup_notified hu provider filename) fun h hh => ?_
      obtain ⟨c, hc⟩ := mem_notified_iff.mp hh
      exact ⟨_, c, hc⟩

/-- The handles received along a run are the ones passed by libfuse. -/
lemma acquired_handleCalls (f : IFuse) (es : List PollCall) :
    acquired (handleCalls f es) = received es := by
  have hdestroyed : ∀ hs : List PollHandle, acquired (hs.map Ownership.release) = [] := by
    intro hs
    induction hs with
    | nil => rfl
    | cons h hs ih => simpa using ih
  have hnotified : ∀ hs : List PollHandle,
      acquired (hs.flatMap fun h => [.use h, .release h]) = [] := by
    intro hs
    induction hs with
    | nil => rfl
    | cons h hs ih => simpa using ih
  induction es generalizing f with
  | nil => rfl
  | cons e es ih =>
      have hrest := ih (handleMachine.next f e)
      rw [handleCalls] at hrest ⊢
      rw [Machine.outputs, List.flatten_cons, acquired_append, hrest]
      cases e with
      | registerPoll fileName p ctx ph =>
          show acquired (.acquire ph :: _) ++ _ = _
          rw [acquired_acquire, hdestroyed]
          rfl
      | notifyPoll provider filename =>
          rw [output_notifyPoll, hnotified]
          rfl

/-- A handle is notified no more often than it is destroyed. -/
lemma count_use_le (f : IFuse) (es : List PollCall) (h : PollHandle) :
    (handleCalls f es).count (.use h) ≤ (handleCalls f es).count (.release h) := by
  induction es generalizing f with
  | nil => exact Nat.le_refl 0
  | cons e es ih =>
      have hrest := ih (handleMachine.next f e)
      rw [handleCalls] at hrest ⊢
      rw [Machine.outputs, List.flatten_cons, List.count_append, List.count_append]
      refine Nat.add_le_add ?_ hrest
      cases e with
      | registerPoll fileName p ctx ph =>
          have hnone : .use h ∉ handleMachine.output f (.registerPoll fileName p ctx ph) := by
            show .use h ∉ Ownership.acquire ph :: _
            simp
          rw [List.count_eq_zero_of_not_mem hnone]
          exact Nat.zero_le _
      | notifyPoll provider filename =>
          rw [output_notifyPoll, count_use_flatMap, count_release_flatMap]

/-- Without poll handles nothing is owned. -/
lemma handleOf_of_empty (hf : f.mPollHandles = ∅) (id : PluginFilePair) (c : CtxId) :
    f.handleOf id c = none := by
  rw [handleOf, hf]
  rfl

lemma stored_of_empty (hf : f.mPollHandles = ∅) : stored f = ∅ := by
  ext h
  simp [stored, handleOf_of_empty hf]

/-- A run with distinct handles from the empty map respects ownership. -/
lemma owns_handleCalls (hf : f.mPollHandles = ∅) {es : List PollCall} (hes : (received es).Nodup) :
    Fresh ∅ (handleCalls f es) ∧ Owns ∅ (handleCalls f es) (stored (handleMachine.run f es))
      ∧ KeyUnique (handleMachine.run f es) := by
  have hfresh : Fresh (stored f) (handleCalls f es) := by
    rw [stored_of_empty hf]
    exact ⟨by rwa [acquired_handleCalls], fun _ _ => Set.notMem_empty _⟩
  have hu : KeyUnique f := by
    intro h id c id' c' hkey
    simp [handleOf_of_empty hf] at hkey
  have hrun := Machine.owns_run stored (fun _ e hI => owns_handleAct hI e) hu es hfresh
  rw [stored_of_empty hf] at hfresh hrun
  exact ⟨hfresh, hrun⟩

lemma handleCalls_append_singleton (f : IFuse) (es : List PollCall) (e : PollCall) :
    handleCalls f (es ++ [e])
      = handleCalls f es ++ handleMachine.output (handleMachine.run f es) e := by
  induction es generalizing f with
  | nil => simp [handleCalls, Machine.outputs]
  | cons d es ih =>
      have hrest := ih (handleMachine.next f d)
      simp only [handleCalls, Machine.run_cons, List.cons_append, Machine.outputs,
        List.flatten_cons, List.append_assoc] at hrest ⊢
      rw [hrest]

/-- One more call registers its own handle, or leaves what it does not take away. -/
lemma registered_append_singleton {es : List PollCall} {e : PollCall} {h : PollHandle} :
    Registered (es ++ [e]) id c h ↔
      (∃ fileName p ctx, e = .registerPoll fileName p ctx h ∧ e.Ends id c) ∨
        Registered es id c h ∧ ¬ e.Ends id c := by
  constructor
  · rintro ⟨pre, fileName, p, ctx, post, hes, hid, hc, hpost⟩
    rcases List.eq_nil_or_concat post with rfl | ⟨post, e', rfl⟩
    · obtain ⟨-, he⟩ := List.append_inj' hes rfl
      obtain rfl := List.singleton_inj.mp he
      exact .inl ⟨fileName, p, ctx, rfl, hid, hc⟩
    · rw [List.concat_eq_append, ← List.cons_append, ← List.append_assoc] at hes
      obtain ⟨rfl, he⟩ := List.append_inj' hes rfl
      obtain rfl := List.singleton_inj.mp he
      rw [List.concat_eq_append] at hpost
      obtain ⟨hpost, hlast⟩ := List.forall_mem_append.mp hpost
      exact .inr ⟨⟨pre, fileName, p, ctx, post, rfl, hid, hc, hpost⟩,
        hlast e (List.mem_singleton_self e)⟩
  · rintro (⟨fileName, p, ctx, rfl, hid, hc⟩ | ⟨⟨pre, fileName, p, ctx, post, rfl, hid, hc, hpost⟩,
      hlast⟩)
    · exact ⟨es, fileName, p, ctx, [], rfl, hid, hc, by simp⟩
    · refine ⟨pre, fileName, p, ctx, post ++ [e], by simp, hid, hc, ?_⟩
      exact List.forall_mem_append.mpr ⟨hpost, List.forall_mem_singleton.mpr hlast⟩

/-- **The stored handles are the registered ones**, each under the file and the client it came
with. -/
lemma handleOf_run_iff (hf : f.mPollHandles = ∅) (es : List PollCall) {h : PollHandle} :
    (handleMachine.run f es).handleOf id c = some h ↔ Registered es id c h := by
  induction es using List.reverseRecOn with
  | nil =>
      rw [Machine.run_nil, handleOf_of_empty hf]
      exact iff_of_false (by simp) (by rintro ⟨pre, _, _, _, _, hes, -⟩; simp at hes)
  | append_singleton es e ih =>
      rw [registered_append_singleton, ← ih, Machine.run_append, Machine.run_singleton]
      generalize handleMachine.run f es = g
      cases e with
      | registerPoll fileName p ctx ph =>
          show (g.registerPoll fileName p (some ctx) (some ph)).2.handleOf id c = some h ↔ _
          rw [handleOf_registerPoll]
          by_cases hends : (p.getName, fileName) = id ∧ fuseContextToId ctx = c
          · have hkey : id = (p.getName, fileName) ∧ c = fuseContextToId ctx :=
              ⟨hends.1.symm, hends.2.symm⟩
            rw [if_pos hkey, Option.some_inj]
            constructor
            · rintro rfl
              exact .inl ⟨fileName, p, ctx, rfl, hends⟩
            · rintro (⟨_, _, _, heq, -⟩ | ⟨-, hnot⟩)
              · exact (PollCall.registerPoll.inj heq).2.2.2
              · exact absurd hends hnot
          · rw [if_neg fun hkey => hends ⟨hkey.1.symm, hkey.2.symm⟩]
            constructor
            · exact fun hg => .inr ⟨hg, hends⟩
            · rintro (⟨_, _, _, -, hnow⟩ | ⟨hg, -⟩)
              · exact absurd hnow hends
              · exact hg
      | notifyPoll provider filename =>
          rw [next_notifyPoll, handleOf_notifyPoll]
          by_cases hid : id = (provider, filename)
          · rw [if_pos hid]
            refine iff_of_false (by simp) ?_
            rintro (⟨_, _, _, heq, -⟩ | ⟨-, hnot⟩)
            · cases heq
            · exact hnot hid.symm
          · rw [if_neg hid]
            constructor
            · exact fun hg => .inr ⟨hg, fun hends => hid hends.symm⟩
            · rintro (⟨_, _, _, heq, -⟩ | ⟨hg, -⟩)
              · cases heq
              · exact hg

/-- What the notification of a file does to a stored handle, of this file or another. -/
lemma count_output_notifyPoll (hu : KeyUnique f) (provider filename : String) {h : PollHandle}
    (hkey : f.handleOf id c = some h) :
    (handleMachine.output f (.notifyPoll provider filename)).count (.use h)
        = (if id = (provider, filename) then 1 else 0)
      ∧ (handleMachine.output f (.notifyPoll provider filename)).count (.release h)
        = if id = (provider, filename) then 1 else 0 := by
  have hcount : (f.notifyPoll provider filename).1.notified.count h
      = if id = (provider, filename) then 1 else 0 := by
    split_ifs with hid
    · subst hid
      exact List.count_eq_one_of_mem (nodup_notified hu provider filename) (mem_notified hkey)
    · refine List.count_eq_zero_of_not_mem fun hmem => hid ?_
      obtain ⟨c', hkey'⟩ := mem_notified_iff.mp hmem
      exact (hu h id c _ _ hkey hkey').1
  rw [output_notifyPoll, count_use_flatMap, count_release_flatMap]
  exact ⟨hcount, hcount⟩

/-- **The poll handles are owned** along every sequence of calls to which libfuse passes distinct
handles, whatever the files and the clients. -/
theorem handles_owned (f : IFuse) (hf : f.mPollHandles = ∅) (es : List PollCall)
    (hes : (received es).Nodup) : HandlesOwned f es := by
  obtain ⟨hfresh, howns, hu⟩ := owns_handleCalls hf hes
  have hstored : ∀ h, h ∈ stored (handleMachine.run f es)
      ↔ h ∈ received es ∧ .release h ∉ handleCalls f es := by
    intro h
    rw [howns.mem_iff hfresh, acquired_handleCalls]
    simp
  refine ⟨hstored, hu, fun _ _ _ => handleOf_run_iff hf es, howns.count_release_le hfresh, ?_, ?_,
    ?_, ?_⟩
  · intro h pre post hcalls
    rw [hcalls] at howns hfresh
    exact (howns.not_mem_of_release hfresh).2.1
  · intro provider filename c h hkey
    -- a stored handle has not been destroyed, and so not been notified
    have hrelease : (handleCalls f es).count (.release h) = 0 :=
      List.count_eq_zero_of_not_mem ((hstored h).mp ⟨_, c, hkey⟩).2
    have huse : (handleCalls f es).count (.use h) = 0 :=
      Nat.le_zero.mp (hrelease ▸ count_use_le f es h)
    obtain ⟨hnow, hnow'⟩ := count_output_notifyPoll hu provider filename hkey
    rw [if_pos rfl] at hnow hnow'
    rw [handleCalls_append_singleton, List.count_append, List.count_append, huse, hrelease, hnow,
      hnow']
    exact ⟨rfl, rfl⟩
  · intro provider filename c
    rw [Machine.run_append, Machine.run_singleton, next_notifyPoll, handleOf_notifyPoll, if_pos rfl]
  · intro provider filename id c hid
    rw [Machine.run_append, Machine.run_singleton, next_notifyPoll, handleOf_notifyPoll, if_neg hid]
    refine ⟨rfl, fun h hkey => ?_⟩
    obtain ⟨huse, hrelease⟩ := count_output_notifyPoll hu provider filename hkey
    rw [if_neg hid] at huse hrelease
    exact ⟨List.count_eq_zero.mp huse, List.count_eq_zero.mp hrelease⟩

/-- Two clients poll a file, one of them twice, and the file is notified. -/
theorem handles_owned_twoClients : HandlesOwned oneFile
    [.registerPoll "f" ⟨"p", some ["f"], []⟩ ⟨1, 2⟩ 7,
      .registerPoll "f" ⟨"p", some ["f"], []⟩ ⟨1, 3⟩ 8,
      .registerPoll "f" ⟨"p", some ["f"], []⟩ ⟨1, 2⟩ 9, .notifyPoll "p" "f"] :=
  handles_owned oneFile rfl _ (by decide)

end IFuse

end StreamFs
