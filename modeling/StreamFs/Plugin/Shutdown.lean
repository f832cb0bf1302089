import StreamFs.Base.Mutex
import StreamFs.Base.Schedule
import StreamFs.Plugin.Libraries

/-!
The end of the program: `sigterm_handler` of `main.cpp` in any threads, any number of times.

* `ShutdownPhase`: where a thread stands in the handler. The mutex is only tried, so that no thread
  waits in a handler, and `isSigtermTriggered` lets the first thread through only.
* `Shutdown`: the plugins that have been loaded, what the handlers share, and the threads with their
  pending signals. `step`, `machine`. A thread that is in the handler keeps a signal pending.
* `left`: what is to be done before the program ends. `left_run`: what has been done and what is
  left is the same all along.
* `cleaned_once`: in every run the plugins are unloaded and the file system unmounted at most once,
  without gaps, and the program ends only after that.
* `sigterm_terminates`: once a signal has come, every fair schedule brings the program to its end,
  where what the handler calls returns.
-/

namespace StreamFs

/-- Where a thread stands: outside, or before a step of `sigterm_handler`. -/
inductive ShutdownPhase where
  | outside
  | tryLock
  | check
  | set
  | unload (i : ℕ)
  | umount
  | reset
  | raise
  | unlock
deriving DecidableEq

/-- What the handler does to the outside. -/
inductive ShutdownCall where
  | library (c : LibraryCall)
  | free
  | umount2
deriving DecidableEq

namespace ShutdownPhase

/-- The thread holds `sighandler_mutex`. -/
def holds : ShutdownPhase → Bool
  | outside | tryLock => false
  | _ => true

/-- The thread is the one that cleans up. -/
def cleans : ShutdownPhase → Bool
  | unload _ | umount | reset | raise => true
  | _ => false

/-- The steps left in the handler, with at most `n` libraries. -/
def work (n : ℕ) : ShutdownPhase → ℕ
  | outside => 0
  | unlock => 1
  | raise => 4
  | reset => 5
  | umount => 6
  | unload i => 7 + (n + 1 - i)
  | set => n + 9
  | check => n + 10
  | tryLock => n + 11

end ShutdownPhase

/-- A thread, and whether a signal has been sent to it that it has not received yet. -/
structure SignalThread where
  phase : ShutdownPhase
  pending : Bool
deriving DecidableEq

/-- A signal is sent to a thread, or a thread takes its next step. -/
inductive ShutdownEvent (ι : Type*) where
  | signal (i : ι)
  | step (i : ι)
deriving DecidableEq

/-- The program when signals come. `sigDfl` says that the action of the signal is the default one,
which ends the program. -/
structure Shutdown (ι : Type*) where
  loader : PluginLoader
  fuseMountPoint : Option String
  isSigtermTriggered : Bool
  sighandler_mutex : Option ι
  sigDfl : Bool
  thread : ι → SignalThread
  terminated : Bool

namespace Shutdown

variable {ι : Type*}

/-- The plugins have been loaded, and no signal has come. -/
def create (loader : PluginLoader) (fuseMountPoint : Option String) : Shutdown ι :=
  ⟨loader, fuseMountPoint, false, none, false, fun _ => ⟨.outside, false⟩, false⟩

/-- What `unloadPlugins` does for a recorded handle. -/
def unloadEntry (s : Shutdown ι) (entry : LibraryHandle × PluginLibrary) : List ShutdownCall :=
  (s.loader.unloadLibrary entry.1 entry.2).map .library

/-- The call of `umount2`. -/
def umountCalls (s : Shutdown ι) : List ShutdownCall :=
  if s.fuseMountPoint.isSome then [.umount2] else []

variable [DecidableEq ι]

/-- Thread `i` changes: it takes and gives back the mutex as its phase says. -/
def setThread (s : Shutdown ι) (i : ι) (t : SignalThread) : Shutdown ι :=
  { s with
    thread := Function.update s.thread i t
    sighandler_mutex := Mutex.passOn s.sighandler_mutex i t.phase.holds }

/-- Thread `i` goes on to phase `p`. -/
def goTo (s : Shutdown ι) (i : ι) (p : ShutdownPhase) : Shutdown ι :=
  s.setThread i ⟨p, (s.thread i).pending⟩

/-- Thread `i` takes its next step. -/
def step (s : Shutdown ι) (i : ι) : Shutdown ι × List ShutdownCall :=
  if s.terminated then (s, [])
  else
    match (s.thread i).phase with
    | .outside =>
        if (s.thread i).pending then
          if s.sigDfl then ({ s with terminated := true }, [])
          else (s.setThread i ⟨.tryLock, false⟩, [])
        else (s, [])
    | .tryLock => (s.goTo i (if s.sighandler_mutex = none then .check else .outside), [])
    | .check => (s.goTo i (if s.isSigtermTriggered then .unlock else .set), [])
    | .set => ({ s with isSigtermTriggered := true }.goTo i (.unload 0), [])
    | .unload k =>
        match s.loader.mHandleArray[k]? with
        | some entry => (s.goTo i (.unload (k + 1)), s.unloadEntry entry)
        | none =>
            ({ s with loader := { s.loader with mHandleArray := [] } }.goTo i .umount, [.free])
    | .umount => (s.goTo i .reset, s.umountCalls)
    | .reset => ({ s with sigDfl := true }.goTo i .raise, [])
    | .raise => (s.setThread i ⟨.unlock, true⟩, [])
    | .unlock => (s.goTo i .outside, [])

/-- The program as a machine. The output is what the handler does to the outside. -/
def machine : Machine (Shutdown ι) (ShutdownEvent ι) (List ShutdownCall) where
  step s
    | .signal i => (if s.terminated then s else s.setThread i ⟨(s.thread i).phase, true⟩, [])
    | .step i => s.step i

/-- What the handlers do along a run. -/
def done (s : Shutdown ι) (es : List (ShutdownEvent ι)) : List ShutdownCall :=
  (machine.outputs s es).flatten

/-- What is left to be done by the thread that cleans up. -/
def leftFrom (s : Shutdown ι) : ShutdownPhase → List ShutdownCall
  | .unload k => (s.loader.mHandleArray.drop k).flatMap s.unloadEntry ++ .free :: s.umountCalls
  | .umount => s.umountCalls
  | _ => []

/-- What is left to be done before the program ends. -/
def left (s : Shutdown ι) : List ShutdownCall :=
  if s.isSigtermTriggered then
    match s.sighandler_mutex with
    | none => []
    | some i => s.leftFrom (s.thread i).phase
  else s.leftFrom (.unload 0)

/-- All that is to be done: the plugins are unloaded, the array of their handles is freed, and the
file system is unmounted where it has been mounted. -/
def cleanup (loader : PluginLoader) (fuseMountPoint : Option String) : List ShutdownCall :=
  loader.unloadPlugins.map .library ++ .free :: if fuseMountPoint.isSome then [.umount2] else []

/-- One thread at most is behind the mutex, the one that cleans up has set the flag, and behind the
clean-up a thread has the signal that ends the program. -/
structure Sound (s : Shutdown ι) : Prop where
  guards : Mutex.Guards (fun t : SignalThread => t.phase.holds) s.thread s.sighandler_mutex
  set : ∀ i, (s.thread i).phase = .set → s.isSigtermTriggered = false
  cleans : ∀ i, (s.thread i).phase.cleans = true → s.isSigtermTriggered = true
  sigDfl : s.sigDfl = true → s.isSigtermTriggered = true ∧ s.left = []
  raise : ∀ i, (s.thread i).phase = .raise → s.sigDfl = true
  unlock : ∀ i, (s.thread i).phase = .unlock → s.isSigtermTriggered = true
  terminated : s.terminated = true → s.sigDfl = true
  raised : s.isSigtermTriggered = true →
    ∃ i, (s.thread i).phase.cleans = true ∨ s.sigDfl = true ∧ (s.thread i).pending = true

variable {s : Shutdown ι}

/-! ### What is left to be done -/

@[simp] lemma leftFrom_setThread (s : Shutdown ι) (i : ι) (t : SignalThread) (p : ShutdownPhase) :
    (s.setThread i t).leftFrom p = s.leftFrom p := by cases p <;> rfl

omit [DecidableEq ι] in
/-- The thread behind the mutex is the one that cleans up. -/
lemma Sound.left_of_holds (h : s.Sound) {i : ι} (hi : (s.thread i).phase.holds = true) :
    s.left = if s.isSigtermTriggered then s.leftFrom (s.thread i).phase
      else s.leftFrom (.unload 0) := by
  rw [left, (h.guards i).mp hi]

/-- A thread goes on behind the mutex. -/
lemma left_setThread_of_holds (s : Shutdown ι) {i : ι} {t : SignalThread}
    (ht : t.phase.holds = true) :
    (s.setThread i t).left = if s.isSigtermTriggered then s.leftFrom t.phase
      else s.leftFrom (.unload 0) := by
  have howner : (s.setThread i t).sighandler_mutex = some i := by
    show Mutex.passOn _ _ _ = _
    rw [Mutex.passOn, ht]
    rfl
  have hthread : (s.setThread i t).thread i = t := Function.update_self ..
  rw [left, howner]
  dsimp only
  rw [hthread, leftFrom_setThread, leftFrom_setThread]
  rfl

/-- A thread goes on outside the mutex, or gives it back. -/
lemma Sound.left_setThread (h : s.Sound) {i : ι} {t : SignalThread} (ht : t.phase.holds = false) :
    (s.setThread i t).left
      = if (s.thread i).phase.holds ∧ s.isSigtermTriggered then [] else s.left := by
  have howner : (s.setThread i t).sighandler_mutex
      = if s.sighandler_mutex = some i then none else s.sighandler_mutex := by
    show Mutex.passOn _ _ _ = _
    rw [Mutex.passOn, ht]
    rfl
  have hflag : (s.setThread i t).isSigtermTriggered = s.isSigtermTriggered := rfl
  rw [left, howner, hflag, left, leftFrom_setThread]
  by_cases hi : (s.thread i).phase.holds = true
  · rw [if_pos ((h.guards i).mp hi)]
    by_cases htriggered : s.isSigtermTriggered = true
    · simp [hi, htriggered]
    · simp [htriggered]
  · rw [if_neg fun hm => hi ((h.guards i).mpr hm)]
    simp only [hi, Bool.false_eq_true, false_and, if_false]
    split_ifs
    · cases hm : s.sighandler_mutex with
      | none => rfl
      | some j =>
          have hne : j ≠ i := fun hji => hi ((h.guards i).mpr (hji ▸ hm))
          have hthread : (s.setThread i t).thread j = s.thread j := Function.update_of_ne hne ..
          dsimp only
          rw [hthread, leftFrom_setThread]
    · rfl

/-- **What an event does** is what is left to be done no more. -/
lemma Sound.output_append_left (h : s.Sound) (e : ShutdownEvent ι) :
    machine.output s e ++ (machine.next s e).left = s.left := by
  cases e with
  | signal i =>
      show [] ++ Shutdown.left (if s.terminated then s else _) = _
      rw [List.nil_append]
      split_ifs
      · rfl
      · cases hholds : (s.thread i).phase.holds with
        | true =>
            rw [left_setThread_of_holds (t := ⟨(s.thread i).phase, true⟩) s hholds,
              h.left_of_holds hholds]
        | false =>
            rw [h.left_setThread (t := ⟨(s.thread i).phase, true⟩) hholds, hholds]
            simp
  | step i =>
      show (s.step i).2 ++ (s.step i).1.left = s.left
      rw [step]
      by_cases hterminated : s.terminated = true
      · rw [if_pos hterminated]
        rfl
      rw [if_neg hterminated]
      cases hphase : (s.thread i).phase with
      | outside =>
          have hholds : (s.thread i).phase.holds = false := by rw [hphase]; rfl
          dsimp only
          split_ifs
          · rfl
          · rw [h.left_setThread rfl, hholds]
            simp
          · rfl
      | tryLock =>
          have hholds : (s.thread i).phase.holds = false := by rw [hphase]; rfl
          dsimp only
          rw [List.nil_append]
          split_ifs with hfree
          · rw [goTo, left_setThread_of_holds s rfl, left, hfree]
            rfl
          · rw [goTo, h.left_setThread rfl, hholds]
            simp
      | check =>
          have hholds : (s.thread i).phase.holds = true := by rw [hphase]; rfl
          dsimp only
          rw [List.nil_append, goTo, left_setThread_of_holds s (by split_ifs <;> rfl),
            h.left_of_holds hholds, hphase]
          split_ifs <;> rfl
      | set =>
          have hholds : (s.thread i).phase.holds = true := by rw [hphase]; rfl
          dsimp only
          rw [List.nil_append, goTo, left_setThread_of_holds _ rfl, h.left_of_holds hholds,
            h.set i hphase]
          rfl
      | unload k =>
          have hholds : (s.thread i).phase.holds = true := by rw [hphase]; rfl
          have hflag := h.cleans i (by rw [hphase]; rfl)
          dsimp only
          cases hentry : s.loader.mHandleArray[k]? with
          | none =>
              dsimp only
              rw [goTo, left_setThread_of_holds _ rfl, h.left_of_holds hholds, hphase]
              simp only [hflag, if_true, leftFrom]
              rw [List.drop_eq_nil_of_le (List.getElem?_eq_none_iff.mp hentry)]
              rfl
          | some entry =>
              obtain ⟨hlt, hget⟩ := List.getElem?_eq_some_iff.mp hentry
              dsimp only
              rw [goTo, left_setThread_of_holds _ rfl, h.left_of_holds hholds, hphase]
              simp only [hflag, if_true, leftFrom]
              rw [List.drop_eq_getElem_cons hlt, hget, List.flatMap_cons, List.append_assoc]
      | umount =>
          have hholds : (s.thread i).phase.holds = true := by rw [hphase]; rfl
          have hflag := h.cleans i (by rw [hphase]; rfl)
          dsimp only
          rw [goTo, left_setThread_of_holds _ rfl, h.left_of_holds hholds, hphase]
          simp only [hflag, if_true, leftFrom, List.append_nil]
      | reset =>
          have hholds : (s.thread i).phase.holds = true := by rw [hphase]; rfl
          have hflag := h.cleans i (by rw [hphase]; rfl)
          dsimp only
          rw [goTo, left_setThread_of_holds _ rfl, h.left_of_holds hholds, hphase]
          simp only [hflag, if_true, leftFrom, List.append_nil]
      | raise =>
          have hholds : (s.thread i).phase.holds = true := by rw [hphase]; rfl
          have hflag := h.cleans i (by rw [hphase]; rfl)
          dsimp only
          rw [left_setThread_of_holds _ rfl, h.left_of_holds hholds, hphase]
          simp only [hflag, if_true, leftFrom, List.append_nil]
      | unlock =>
          have hholds : (s.thread i).phase.holds = true := by rw [hphase]; rfl
          dsimp only
          rw [List.nil_append, goTo, h.left_setThread rfl, h.left_of_holds hholds, hphase]
          by_cases hflag : s.isSigtermTriggered = true
          · simp [hflag, ShutdownPhase.holds, leftFrom]
          · simp [hflag]

/-! ### Every step -/

omit [DecidableEq ι] in
lemma sound_create (loader : PluginLoader) (fuseMountPoint : Option String) :
    (create loader fuseMountPoint : Shutdown ι).Sound where
  guards := Mutex.guards_none fun _ => rfl
  set i h := by cases h
  cleans i h := by cases h
  sigDfl h := by cases h
  raise i h := by cases h
  unlock i h := by cases h
  terminated h := by cases h
  raised h := by cases h

omit [DecidableEq ι] in
lemma left_create (loader : PluginLoader) (fuseMountPoint : Option String) :
    (create loader fuseMountPoint : Shutdown ι).left = cleanup loader fuseMountPoint := by
  show (loader.mHandleArray.drop 0).flatMap _ ++ _ = _
  rw [List.drop_zero, cleanup, PluginLoader.unloadPlugins, List.map_flatMap]
  rfl

/-- What holds of all threads and of a thread that changes. -/
lemma forall_update {P : SignalThread → Prop} (h : ∀ j, P (s.thread j)) {i : ι} {t : SignalThread}
    (ht : P t) (j : ι) : P (Function.update s.thread i t j) := by
  by_cases hj : j = i
  · rwa [hj, Function.update_self]
  · rw [Function.update_of_ne hj]
    exact h j

/-- A thread changes, and the clean-up goes on. -/
lemma Sound.setThread (h : s.Sound) {i : ι} {t : SignalThread}
    (hfree : t.phase.holds = true → s.sighandler_mutex = none ∨ (s.thread i).phase.holds = true)
    (hset : t.phase = .set → s.isSigtermTriggered = false)
    (hcleans : t.phase.cleans = true → s.isSigtermTriggered = true)
    (hraise : t.phase = .raise → s.sigDfl = true)
    (hunlock : t.phase = .unlock → s.isSigtermTriggered = true)
    (hleft : s.sigDfl = true → (s.setThread i t).left = [])
    (hraised : (s.thread i).phase.cleans = true ∨ s.sigDfl = true ∧ (s.thread i).pending = true →
      t.phase.cleans = true ∨ s.sigDfl = true ∧ t.pending = true) : (s.setThread i t).Sound where
  guards := h.guards.passOn hfree
  set := forall_update (P := fun t => t.phase = .set → s.isSigtermTriggered = false) h.set hset
  cleans := forall_update (P := fun t => t.phase.cleans = true → s.isSigtermTriggered = true)
    h.cleans hcleans
  sigDfl hdfl := ⟨(h.sigDfl hdfl).1, hleft hdfl⟩
  raise := forall_update (P := fun t => t.phase = .raise → s.sigDfl = true) h.raise hraise
  unlock := forall_update (P := fun t => t.phase = .unlock → s.isSigtermTriggered = true)
    h.unlock hunlock
  terminated := h.terminated
  raised hflag := by
    obtain ⟨j, hj⟩ := h.raised hflag
    refine ⟨j, ?_⟩
    show (Function.update s.thread i t j).phase.cleans = true ∨
      s.sigDfl = true ∧ (Function.update s.thread i t j).pending = true
    by_cases hji : j = i
    · rw [hji, Function.update_self]
      exact hraised (hji ▸ hj)
    · rwa [Function.update_of_ne hji]

/-- The first thread behind the mutex sets the flag and cleans up. -/
lemma Sound.trigger (h : s.Sound) {i : ι} (hphase : (s.thread i).phase = .set) :
    ({ s with isSigtermTriggered := true }.goTo i (.unload 0) : Shutdown ι).Sound where
  guards := h.guards.passOn fun _ => .inr (by rw [hphase]; rfl)
  set j hj := by
    change (Function.update s.thread i ⟨.unload 0, (s.thread i).pending⟩ j).phase = .set at hj
    by_cases hji : j = i
    · rw [hji, Function.update_self] at hj
      cases hj
    · rw [Function.update_of_ne hji] at hj
      exact absurd (h.guards.unique (by rw [hj]; rfl) (by rw [hphase]; rfl)) hji
  cleans _ _ := rfl
  sigDfl hdfl := by
    have hflag := (h.sigDfl hdfl).1
    rw [h.set i hphase] at hflag
    cases hflag
  raise := forall_update (P := fun t => t.phase = .raise → s.sigDfl = true) h.raise
    fun hp => by cases hp
  unlock _ _ := rfl
  terminated := h.terminated
  raised _ := by
    refine ⟨i, .inl ?_⟩
    show (Function.update s.thread i ⟨.unload 0, (s.thread i).pending⟩ i).phase.cleans = true
    rw [Function.update_self]
    rfl

/-- The array of the handles is freed. -/
lemma Sound.free (h : s.Sound) {i : ι} {k : ℕ} (hphase : (s.thread i).phase = .unload k) :
    ({ s with loader := { s.loader with mHandleArray := [] } }.goTo i .umount : Shutdown ι).Sound
    where
  guards := h.guards.passOn fun _ => .inr (by rw [hphase]; rfl)
  set := forall_update (P := fun t => t.phase = .set → s.isSigtermTriggered = false) h.set
    fun hp => by cases hp
  cleans := forall_update (P := fun t => t.phase.cleans = true → s.isSigtermTriggered = true)
    h.cleans fun _ => h.cleans i (by rw [hphase]; rfl)
  sigDfl hdfl := by
    -- the array is still there
    have hleft := (h.sigDfl hdfl).2
    rw [h.left_of_holds (i := i) (by rw [hphase]; rfl), h.cleans i (by rw [hphase]; rfl), hphase]
      at hleft
    simp [leftFrom] at hleft
  raise := forall_update (P := fun t => t.phase = .raise → s.sigDfl = true) h.raise
    fun hp => by cases hp
  unlock := forall_update (P := fun t => t.phase = .unlock → s.isSigtermTriggered = true)
    h.unlock fun hp => by cases hp
  terminated := h.terminated
  raised _ := by
    refine ⟨i, .inl ?_⟩
    show (Function.update s.thread i ⟨.umount, (s.thread i).pending⟩ i).phase.cleans = true
    rw [Function.update_self]
    rfl

/-- After the clean-up the signal has its default action. -/
lemma Sound.reset (h : s.Sound) {i : ι} (hphase : (s.thread i).phase = .reset) :
    ({ s with sigDfl := true }.goTo i .raise : Shutdown ι).Sound where
  guards := h.guards.passOn fun _ => .inr (by rw [hphase]; rfl)
  set := forall_update (P := fun t => t.phase = .set → s.isSigtermTriggered = false) h.set
    fun hp => by cases hp
  cleans := forall_update (P := fun t => t.phase.cleans = true → s.isSigtermTriggered = true)
    h.cleans fun _ => h.cleans i (by rw [hphase]; rfl)
  sigDfl _ := by
    refine ⟨h.cleans i (by rw [hphase]; rfl), ?_⟩
    rw [goTo, left_setThread_of_holds _ rfl]
    simp only [h.cleans i (by rw [hphase]; rfl), if_true, leftFrom]
  raise _ _ := rfl
  unlock := forall_update (P := fun t => t.phase = .unlock → s.isSigtermTriggered = true)
    h.unlock fun hp => by cases hp
  terminated _ := rfl
  raised _ := by
    refine ⟨i, .inl ?_⟩
    show (Function.update s.thread i ⟨.raise, (s.thread i).pending⟩ i).phase.cleans = true
    rw [Function.update_self]
    rfl

/-- **An event.** -/
lemma Sound.next (h : s.Sound) (e : ShutdownEvent ι) : (machine.next s e).Sound := by
  -- nothing is left where the action is the default one
  have hleft : s.sigDfl = true → (machine.next s e).left = [] := fun hdfl => by
    have hnil := h.output_append_left e
    rw [(h.sigDfl hdfl).2] at hnil
    exact (List.append_eq_nil_iff.mp hnil).2
  cases e with
  | signal i =>
      by_cases hterminated : s.terminated = true
      · have hsame : machine.next s (.signal i) = s := if_pos hterminated
        rw [hsame]
        exact h
      · have hnext : machine.next s (.signal i) = s.setThread i ⟨(s.thread i).phase, true⟩ :=
          if_neg hterminated
        rw [hnext] at hleft ⊢
        exact h.setThread .inr (h.set i) (h.cleans i) (h.raise i) (h.unlock i) hleft
          fun hr => hr.imp_right fun hr => ⟨hr.1, rfl⟩
  | step i =>
      change s.sigDfl = true → (s.step i).1.left = [] at hleft
      show (s.step i).1.Sound
      rw [step] at hleft ⊢
      by_cases hterminated : s.terminated = true
      · rw [if_pos hterminated]
        exact h
      rw [if_neg hterminated] at hleft ⊢
      cases hphase : (s.thread i).phase with
      | outside =>
          rw [hphase] at hleft
          dsimp only at hleft ⊢
          by_cases hpending : (s.thread i).pending = true
          swap
          · rw [if_neg hpending]
            exact h
          rw [if_pos hpending] at hleft ⊢
          by_cases hdfl : s.sigDfl = true
          · rw [if_pos hdfl]
            exact ⟨h.guards, h.set, h.cleans, h.sigDfl, h.raise, h.unlock, fun _ => hdfl, h.raised⟩
          · rw [if_neg hdfl]
            refine h.setThread (fun hp => by cases hp) (fun hp => by cases hp)
              (fun hp => by cases hp) (fun hp => by cases hp) (fun hp => by cases hp)
              (fun hd => absurd hd hdfl) ?_
            rintro (hcleans | ⟨hd, -⟩)
            · rw [hphase] at hcleans
              cases hcleans
            · exact absurd hd hdfl
      | tryLock =>
          rw [hphase] at hleft
          refine h.setThread (fun hp => .inl ?_) (fun hp => ?_) (fun hp => ?_) (fun hp => ?_)
            (fun hp => ?_) hleft fun hr => .inr ?_
          · by_contra hheld
            rw [if_neg hheld] at hp
            cases hp
          · split_ifs at hp
          · split_ifs at hp <;> cases hp
          · split_ifs at hp
          · split_ifs at hp
          · rw [hphase] at hr
            exact hr.resolve_left fun hc => by cases hc
      | check =>
          rw [hphase] at hleft
          refine h.setThread (fun _ => .inr (by rw [hphase]; rfl)) (fun hp => ?_) (fun hp => ?_)
            (fun hp => ?_) (fun hp => ?_) hleft fun hr => .inr ?_
          · by_contra hflag
            rw [if_pos (Bool.eq_true_of_not_eq_false hflag)] at hp
            cases hp
          · split_ifs at hp <;> cases hp
          · split_ifs at hp
          · by_contra hflag
            rw [if_neg hflag] at hp
            cases hp
          · rw [hphase] at hr
            exact hr.resolve_left fun hc => by cases hc
      | set => exact h.trigger hphase
      | unload k =>
          rw [hphase] at hleft
          dsimp only at hleft ⊢
          cases hentry : s.loader.mHandleArray[k]? with
          | none => exact h.free hphase
          | some entry =>
              rw [hentry] at hleft
              exact h.setThread (fun _ => .inr (by rw [hphase]; rfl)) (fun hp => by cases hp)
                (fun _ => h.cleans i (by rw [hphase]; rfl)) (fun hp => by cases hp)
                (fun hp => by cases hp) hleft fun _ => .inl rfl
      | umount =>
          rw [hphase] at hleft
          exact h.setThread (fun _ => .inr (by rw [hphase]; rfl)) (fun hp => by cases hp)
            (fun _ => h.cleans i (by rw [hphase]; rfl)) (fun hp => by cases hp)
            (fun hp => by cases hp) hleft fun _ => .inl rfl
      | reset => exact h.reset hphase
      | raise =>
          rw [hphase] at hleft
          exact h.setThread (fun _ => .inr (by rw [hphase]; rfl)) (fun hp => by cases hp)
            (fun hp => by cases hp) (fun hp => by cases hp)
            (fun _ => h.cleans i (by rw [hphase]; rfl)) hleft
            fun _ => .inr ⟨h.raise i hphase, rfl⟩
      | unlock =>
          rw [hphase] at hleft
          refine h.setThread (fun hp => by cases hp) (fun hp => by cases hp)
            (fun hp => by cases hp) (fun hp => by cases hp) (fun hp => by cases hp) hleft
            fun hr => .inr ?_
          rw [hphase] at hr
          exact hr.resolve_left fun hc => by cases hc

lemma sound_run (loader : PluginLoader) (fuseMountPoint : Option String)
    (es : List (ShutdownEvent ι)) : (machine.run (create loader fuseMountPoint) es).Sound :=
  Machine.invariant_run (fun _ e h => h.next e) (sound_create loader fuseMountPoint) es

/-- **What has been done and what is left to be done** is the whole clean-up. -/
lemma done_append_left (loader : PluginLoader) (fuseMountPoint : Option String)
    (es : List (ShutdownEvent ι)) :
    done (create loader fuseMountPoint) es ++ (machine.run (create loader fuseMountPoint) es).left
      = cleanup loader fuseMountPoint := by
  induction es using List.reverseRecOn with
  | nil => exact left_create loader fuseMountPoint
  | append_singleton es e ih =>
      have hstep := (sound_run loader fuseMountPoint es).output_append_left e
      rw [Machine.run_append, done, Machine.outputs_append, List.flatten_append, List.append_assoc]
      show _ ++ ([machine.output _ e].flatten ++ (machine.next _ e).left) = _
      rw [List.flatten_singleton, hstep]
      exact ih

/-- **One clean-up.** However many signals come to however many threads, the plugins are unloaded,
the array of their handles is freed and the file system is unmounted in this order and at most once,
and the program does not end before that has been done. -/
theorem cleaned_once (loader : PluginLoader) (fuseMountPoint : Option String)
    (es : List (ShutdownEvent ι)) :
    done (create loader fuseMountPoint) es <+: cleanup loader fuseMountPoint ∧
      ((machine.run (create loader fuseMountPoint) es).terminated = true →
        done (create loader fuseMountPoint) es = cleanup loader fuseMountPoint) := by
  have hsum := done_append_left loader fuseMountPoint es
  have hsound := sound_run loader fuseMountPoint es
  refine ⟨⟨_, hsum⟩, fun hterminated => ?_⟩
  rw [← hsum, (hsound.sigDfl (hsound.terminated hterminated)).2, List.append_nil]

/-! ### The end of the program -/

/-- A signal has come that has not been dealt with, or the program has ended. -/
def Alerted (s : Shutdown ι) : Prop :=
  s.terminated = true ∨ ∃ i, (s.thread i).pending = true ∨ (s.thread i).phase ≠ .outside

/-- A thread that stays alerted. -/
lemma alerted_setThread {i : ι} {t : SignalThread}
    (ht : t.pending = true ∨ t.phase ≠ .outside) : (s.setThread i t).Alerted := by
  refine .inr ⟨i, ?_⟩
  show (Function.update s.thread i t i).pending = true ∨ (Function.update s.thread i t i).phase ≠ _
  rwa [Function.update_self]

/-- Another thread is alerted. -/
lemma alerted_setThread_of_ne {i j : ι}
    (hj : (s.thread j).pending = true ∨ (s.thread j).phase ≠ .outside) (hji : j ≠ i)
    (t : SignalThread) : (s.setThread i t).Alerted := by
  refine .inr ⟨j, ?_⟩
  show (Function.update s.thread i t j).pending = true ∨ (Function.update s.thread i t j).phase ≠ _
  rwa [Function.update_of_ne hji]

/-- A thread that comes back with nothing to do has been passed by, or the one that has cleaned up
has a signal. -/
lemma Sound.alerted_step (h : s.Sound) (hs : s.Alerted) (i : ι) : (s.step i).1.Alerted := by
  rw [step]
  by_cases hterminated : s.terminated = true
  · rw [if_pos hterminated]
    exact hs
  rw [if_neg hterminated]
  cases hphase : (s.thread i).phase with
  | outside =>
      dsimp only
      split_ifs
      · exact .inl rfl
      · exact alerted_setThread (.inr (by simp))
      · exact hs
  | tryLock =>
      dsimp only
      split_ifs with hfree
      · exact alerted_setThread (.inr (by simp))
      · obtain ⟨k, hk⟩ := Option.ne_none_iff_exists'.mp hfree
        have hholds : (s.thread k).phase.holds = true := (h.guards k).mpr hk
        refine alerted_setThread_of_ne (j := k) (.inr fun hout => ?_) ?_ _
        · rw [hout] at hholds
          cases hholds
        · rintro rfl
          rw [hphase] at hholds
          cases hholds
  | check => exact alerted_setThread (.inr (by dsimp only; split_ifs <;> simp))
  | unload k =>
      dsimp only
      split <;> exact alerted_setThread (.inr (by simp))
  | unlock =>
      obtain ⟨j, hcleans | ⟨-, hpending⟩⟩ := h.raised (h.unlock i hphase)
      · have hholds : (s.thread j).phase.holds = true := by
          cases hj : (s.thread j).phase <;> rw [hj] at hcleans <;> first | rfl | cases hcleans
        obtain rfl : j = i := h.guards.unique hholds (by rw [hphase]; rfl)
        rw [hphase] at hcleans
        cases hcleans
      · by_cases hji : j = i
        · exact alerted_setThread (.inl (hji ▸ hpending))
        · exact alerted_setThread_of_ne (.inl hpending) hji _
  | raise => exact alerted_setThread (.inl rfl)
  | _ => exact alerted_setThread (.inr (by simp))

lemma Sound.alerted_next (h : s.Sound) (hs : s.Alerted) (e : ShutdownEvent ι) :
    (machine.next s e).Alerted := by
  cases e with
  | step i => exact h.alerted_step hs i
  | signal i =>
      show Alerted (if s.terminated then s else _)
      split_ifs
      · exact hs
      · exact alerted_setThread (.inl rfl)

/-- A signal alerts the program. -/
lemma alerted_signal (s : Shutdown ι) (i : ι) : (machine.next s (.signal i)).Alerted := by
  show Alerted (if s.terminated then s else _)
  split_ifs with hterminated
  · exact .inl hterminated
  · exact alerted_setThread (.inl rfl)

lemma alerted_run {loader : PluginLoader} {fuseMountPoint : Option String}
    {es : List (ShutdownEvent ι)} (hsignal : ∃ i, .signal i ∈ es) :
    (machine.run (create loader fuseMountPoint) es).Alerted := by
  obtain ⟨i, hi⟩ := hsignal
  obtain ⟨pre, post, rfl⟩ := List.append_of_mem hi
  rw [Machine.run_append, Machine.run_cons]
  have hrun := Machine.invariant_run (m := machine)
    (I := fun s : Shutdown ι => s.Sound ∧ s.Alerted)
    (fun _ e h => ⟨h.1.next e, h.1.alerted_next h.2 e⟩)
    ⟨(sound_run loader fuseMountPoint pre).next _, alerted_signal _ i⟩ post
  exact hrun.2

/-- There are at most `n` handles. -/
def Small (n : ℕ) (s : Shutdown ι) : Prop := s.loader.mHandleArray.length ≤ n

lemma Small.next {n : ℕ} (h : s.Small n) (e : ShutdownEvent ι) : (machine.next s e).Small n := by
  cases e with
  | signal i =>
      show Small n (if s.terminated then s else _)
      split_ifs <;> exact h
  | step i =>
      show (s.step i).1.Small n
      rw [step]
      by_cases hterminated : s.terminated = true
      · rw [if_pos hterminated]
        exact h
      rw [if_neg hterminated]
      cases (s.thread i).phase with
      | outside =>
          dsimp only
          split_ifs <;> exact h
      | unload k =>
          dsimp only
          split
          · exact h
          · exact Nat.zero_le n
      | _ => exact h

/-- The steps that a thread has left, those for its pending signal included. -/
def threadWork (n : ℕ) (sigDfl : Bool) (t : SignalThread) : ℕ :=
  t.phase.work n + if t.pending then (if sigDfl then 1 else n + 12) else 0

lemma threadWork_sigDfl_le (n : ℕ) (sigDfl : Bool) (t : SignalThread) :
    threadWork n true t ≤ threadWork n sigDfl t := by
  rw [threadWork, threadWork]
  cases t.pending <;> cases sigDfl <;> simp

variable [Fintype ι]

/-- The steps that are left to the end of the program. -/
def work (n : ℕ) (s : Shutdown ι) : ℕ :=
  (∑ i, threadWork n s.sigDfl (s.thread i)) + if s.terminated then 0 else 1

/-- A thread goes on to where it has less to do. -/
lemma work_setThread_lt {n : ℕ} {i : ι} {t : SignalThread}
    (ht : threadWork n s.sigDfl t < threadWork n s.sigDfl (s.thread i)) :
    (s.setThread i t).work n < s.work n := by
  have hsum := sum_update_add (threadWork n s.sigDfl) s.thread i t
  show (∑ j, threadWork n s.sigDfl (Function.update s.thread i t j))
    + (if s.terminated then 0 else 1) < _
  rw [work]
  omega

lemma work_goTo_lt {n : ℕ} {i : ι} {p : ShutdownPhase}
    (hp : p.work n < (s.thread i).phase.work n) : (s.goTo i p).work n < s.work n :=
  work_setThread_lt (Nat.add_lt_add_right hp _)

/-- **A step before the end** has an effect where there is something to do: less is left. -/
lemma Sound.work_step_lt (h : s.Sound) {n : ℕ} (hn : s.Small n) (hterminated : s.terminated ≠ true)
    {i : ι} (hi : (s.thread i).pending = true ∨ (s.thread i).phase ≠ .outside) :
    (s.step i).1.work n < s.work n := by
  rw [step, if_neg hterminated]
  cases hphase : (s.thread i).phase with
  | outside =>
      have hpending : (s.thread i).pending = true := hi.resolve_right (not_not_intro hphase)
      dsimp only
      rw [if_pos hpending]
      split_ifs with hdfl
      · simp [work, hterminated]
      · refine work_setThread_lt ?_
        simp [threadWork, hphase, hpending, hdfl, ShutdownPhase.work]
  | tryLock =>
      refine work_goTo_lt ?_
      rw [hphase]
      split_ifs <;> simp [ShutdownPhase.work]
  | check =>
      refine work_goTo_lt ?_
      rw [hphase]
      split_ifs <;> simp [ShutdownPhase.work]
  | set =>
      refine work_goTo_lt (s := { s with isSigtermTriggered := true }) ?_
      show _ < (s.thread i).phase.work n
      rw [hphase]
      simp only [ShutdownPhase.work]
      omega
  | unload k =>
      dsimp only
      cases hentry : s.loader.mHandleArray[k]? with
      | none =>
          refine work_goTo_lt (s := { s with loader := { s.loader with mHandleArray := [] } }) ?_
          show _ < (s.thread i).phase.work n
          rw [hphase]
          simp only [ShutdownPhase.work]
          omega
      | some entry =>
          obtain ⟨hlt, -⟩ := List.getElem?_eq_some_iff.mp hentry
          have hk : k < n := hlt.trans_le hn
          refine work_goTo_lt ?_
          rw [hphase]
          simp only [ShutdownPhase.work]
          omega
  | umount =>
      refine work_goTo_lt ?_
      rw [hphase]
      exact Nat.lt_succ_self _
  | reset =>
      have hlt : ({ s with sigDfl := true }.goTo i .raise : Shutdown ι).work n
          < work n { s with sigDfl := true } := by
        refine work_goTo_lt ?_
        show _ < (s.thread i).phase.work n
        rw [hphase]
        exact Nat.lt_succ_self _
      refine hlt.trans_le (Nat.add_le_add_right (Finset.sum_le_sum fun j _ => ?_) _)
      exact threadWork_sigDfl_le n s.sigDfl (s.thread j)
  | raise =>
      refine work_setThread_lt ?_
      simp only [threadWork, hphase, h.raise i hphase, ShutdownPhase.work, if_true]
      split_ifs <;> omega
  | unlock =>
      refine work_goTo_lt ?_
      rw [hphase]
      exact Nat.lt_succ_self _

omit [Fintype ι] in
/-- A step with nothing to do. -/
lemma step_eq_self (hterminated : s.terminated ≠ true) {i : ι}
    (hi : ¬ ((s.thread i).pending = true ∨ (s.thread i).phase ≠ .outside)) : (s.step i).1 = s := by
  rw [not_or, not_not] at hi
  rw [step, if_neg hterminated, hi.2]
  simp [hi.1]

/-- **The program ends.** Once a signal has come to some thread, and when no more come, every
schedule that goes on with each thread brings the program to its end, with the clean-up done.

`UNLOAD_STREAMFS_PLUGIN`, `dlclose`, `free` and `umount2` are taken to return, as steps of the
handler that are always enabled: a signal that interrupts code with a lock that they need is left
out. So is the return of `fuse_main` in `main` behind the `umount2`, which may end the program
before the signal does. -/
theorem sigterm_terminates (loader : PluginLoader) (fuseMountPoint : Option String)
    (es : List (ShutdownEvent ι)) (hsignal : ∃ i, .signal i ∈ es) (f : ℕ → ShutdownEvent ι)
    (hf : ∀ k i, f k ≠ .signal i) (hsteps : ∀ i, Recurs f (.step i)) :
    ∃ k, (machine.run (create loader fuseMountPoint)
        (es ++ (List.range k).map f)).terminated = true ∧
      done (create loader fuseMountPoint) (es ++ (List.range k).map f)
        = cleanup loader fuseMountPoint := by
  have hsmall : (machine.run (create loader fuseMountPoint : Shutdown ι) es).Small
      loader.mHandleArray.length :=
    Machine.invariant_run (I := fun s : Shutdown ι => s.Small loader.mHandleArray.length)
      (fun _ e h => h.next e) (show Small _ _ from le_rfl) es
  obtain ⟨k, hk⟩ := Machine.eventually_of_rank (m := machine) (f := f)
    (fun s : Shutdown ι => s.Sound ∧ s.Alerted ∧ s.Small loader.mHandleArray.length)
    (fun s => s.terminated = true) (fun e => ∃ i, e = .step i) (work loader.mHandleArray.length)
    (fun s e h _ => ⟨h.1.next e, h.1.alerted_next h.2.1 e, h.2.2.next e⟩)
    (fun s e h he => by
      obtain ⟨i, rfl⟩ := he
      by_cases hterminated : s.terminated = true
      · exact .inl (congrArg Prod.fst (if_pos hterminated))
      by_cases hi : (s.thread i).pending = true ∨ (s.thread i).phase ≠ .outside
      · exact .inr (h.1.work_step_lt h.2.2 hterminated hi)
      · exact .inl (step_eq_self hterminated hi))
    (fun s h hterminated => by
      obtain ⟨i, hi⟩ := h.2.1.resolve_left hterminated
      exact ⟨.step i, hsteps i, fun heq =>
        (h.1.work_step_lt h.2.2 hterminated hi).ne (congrArg (work _) heq)⟩)
    ⟨sound_run loader fuseMountPoint es, alerted_run hsignal, hsmall⟩
    (fun k => by
      cases hk : f k with
      | signal i => exact absurd hk (hf k i)
      | step i => exact ⟨i, rfl⟩)
  have hterminated : (machine.run (create loader fuseMountPoint)
      (es ++ (List.range k).map f)).terminated = true := by
    rw [Machine.run_append, ← Machine.stateAt_eq_run]
    exact hk
  have hsound := sound_run loader fuseMountPoint (es ++ (List.range k).map f)
  have hsum := done_append_left loader fuseMountPoint (es ++ (List.range k).map f)
  rw [(hsound.sigDfl (hsound.terminated hterminated)).2, List.append_nil] at hsum
  exact ⟨k, hterminated, hsum⟩

/-- Two threads get a signal, with one plugin loaded. -/
theorem sigterm_terminates_two :
    (∃ k, (machine.run (create (PluginLoader.loadsMachine.run .init
          [.library ⟨⟨"sample.so", true, true, true, some "sample",
            some ⟨"sample", by decide, streamfsInterfaceVersion⟩⟩, true⟩]) (some "/mnt"))
        ([.signal 0, .signal 1] ++ (List.range k).map fun n => .step (Fin.ofNat 2 n))).terminated
          = true ∧
      done (create (PluginLoader.loadsMachine.run .init
          [.library ⟨⟨"sample.so", true, true, true, some "sample",
            some ⟨"sample", by decide, streamfsInterfaceVersion⟩⟩, true⟩]) (some "/mnt"))
        ([.signal 0, .signal 1] ++ (List.range k).map fun n => .step (Fin.ofNat 2 n))
        = cleanup (PluginLoader.loadsMachine.run .init
          [.library ⟨⟨"sample.so", true, true, true, some "sample",
            some ⟨"sample", by decide, streamfsInterfaceVersion⟩⟩, true⟩]) (some "/mnt")) ∧
    cleanup (PluginLoader.loadsMachine.run .init
        [.library ⟨⟨"sample.so", true, true, true, some "sample",
          some ⟨"sample", by decide, streamfsInterfaceVersion⟩⟩, true⟩]) (some "/mnt")
      = [.library (.unload 0 0), .library (.dlclose 0), .free, .umount2] := by
  refine ⟨sigterm_terminates _ _ [.signal 0, .signal 1] ⟨0, by simp⟩
    (fun n => .step (Fin.ofNat 2 n)) (fun k i h => by cases h) fun i m => ?_, by decide +kernel⟩
  refine ⟨2 * m + i, by omega, congrArg ShutdownEvent.step (Fin.ext ?_)⟩
  simp [Fin.ofNat, Nat.mod_eq_of_lt i.isLt]

end Shutdown

end StreamFs
