import StreamFs.Base.Machine

/-!
The service loop of a plugin and the queue of requests it reads (`PluginService.cpp`,
`MessageQueue.h`, `ServiceRequest.h`).

* `MessageQueue`: `pushMessage`, and `getMessage`, which does not wait.
* `PluginService`: the queue and the loop, with the requests that the loop has removed and the
  actions that it has taken. `handle`: the `switch` of the loop.
* `machine`: other threads push requests while the loop runs. An iteration is two steps, the call of
  `getMessage` and the `switch`.
* `HandledOnce`: an iteration that finds the queue empty does nothing, and the requests whose
  iteration is over have been handled once each.
* `handledOnce_iff`: this holds as long as every iteration that finds the queue empty finds a
  `START` in `msg`.
-/

namespace StreamFs

/-- A queue of messages of any type. -/
structure MessageQueue (T : Type*) where
  mQueue : List T

namespace MessageQueue

variable {T : Type*}

/-- `pushMessage`. -/
def pushMessage (q : MessageQueue T) (msg : T) : MessageQueue T := ⟨q.mQueue ++ [msg]⟩

/-- `getMessage`: what it returns, what `msg` refers to afterwards, and the queue. -/
def getMessage (q : MessageQueue T) (msg : T) : ℤ × T × MessageQueue T :=
  match q.mQueue with
  | [] => (0, msg, q)
  | front :: rest => (-1, front, ⟨rest⟩)

end MessageQueue

/-- The kinds of requests. -/
inductive ServiceRequestEnum where
  | START
  | STOP
  | PAUSE
  | RELOAD
  | RECONFIGURE
  | ABOUT_TO_KILL
  | CUSTOM_REQUEST
deriving DecidableEq

/-- A request to a plugin. -/
structure ServiceRequest where
  seekLocation : UInt64
  customRequest : String
  type : ServiceRequestEnum
  uri : String

/-- What the loop does about a request: it stops the playback, or warns that requests of the type
are not in use. -/
inductive ServiceAction where
  | stopPlayback
  | notInUse (type : ServiceRequestEnum)
deriving DecidableEq

/-- The service of a plugin. `polled` is what the call of `getMessage` in the present iteration has
returned, if it has been made: the loop does not keep it. -/
structure PluginService where
  mServReq : MessageQueue ServiceRequest
  msg : ServiceRequest
  polled : Option ℤ
  removed : List ServiceRequest
  actions : List ServiceAction

/-- A step of the system: another thread pushes a request, or the loop moves on. -/
inductive ServiceEvent where
  | pushMessage (msg : ServiceRequest)
  | loop

namespace PluginService

/-- The service before its first iteration. The `msg` of the loop is not initialised. -/
def create (msg : ServiceRequest) : PluginService := ⟨⟨[]⟩, msg, none, [], []⟩

/-- The `switch` of the loop. -/
def handle (msg : ServiceRequest) : List ServiceAction :=
  match msg.type with
  | .START => []
  | .STOP => [.stopPlayback, .notInUse .STOP] -- there is no `break`
  | type => [.notInUse type]

/-- The call of `getMessage`. -/
def pollStep (s : PluginService) : PluginService :=
  let (result, msg, mServReq) := s.mServReq.getMessage s.msg
  { s with
    mServReq := mServReq
    msg := msg
    polled := some result
    removed := if result = 0 then s.removed else s.removed ++ [msg] }

/-- The `switch`, and the way back to the call. -/
def switchStep (s : PluginService) : PluginService :=
  { s with polled := none, actions := s.actions ++ handle s.msg }

/-- A service and what happens to it. The output is what the loop does. -/
def machine : Machine PluginService ServiceEvent (List ServiceAction) where
  step s
    | .pushMessage msg => ({ s with mServReq := s.mServReq.pushMessage msg }, [])
    | .loop =>
        match s.polled with
        | none => (s.pollStep, [])
        | some _ => (s.switchStep, handle s.msg)

/-- The requests removed whose iteration is over. -/
def settled (s : PluginService) : List ServiceRequest :=
  if s.polled = some (-1) then s.removed.dropLast else s.removed

/-- An iteration that finds the queue empty does nothing, and what the loop has done is what the
requests removed ask for, in order. In particular it has stopped the playback as often as it has
removed a `STOP`. -/
def HandledOnce (t : Transition PluginService ServiceEvent (List ServiceAction)) : Prop :=
  (t.before.polled = some 0 → t.output = []) ∧
    t.after.actions = t.after.settled.flatMap handle ∧
    t.after.actions.count .stopPlayback
      = t.after.settled.countP (fun msg => msg.type = .STOP)

instance : DecidablePred HandledOnce := fun _ => inferInstanceAs (Decidable (_ ∧ _ ∧ _))

/-- An iteration that has found the queue empty finds a `START` in `msg`. -/
def EmptyPollFindsStart (t : Transition PluginService ServiceEvent (List ServiceAction)) : Prop :=
  t.before.polled = some 0 → t.event = .loop → t.before.msg.type = .START

/-- What the loop has done is what the requests removed ask for, and the last of them is in `msg`
while it waits for its turn. -/
structure UpToDate (s : PluginService) : Prop where
  actions_eq : s.actions = s.settled.flatMap handle
  polled_cases : s.polled = none ∨ s.polled = some 0 ∨
    s.polled = some (-1) ∧ ∃ removed, s.removed = removed ++ [s.msg]

variable {s : PluginService}

lemma upToDate_create (msg : ServiceRequest) : (create msg).UpToDate := ⟨rfl, .inl rfl⟩

/-- Nothing is done about a request iff it is a `START`. -/
lemma handle_eq_nil_iff (msg : ServiceRequest) : handle msg = [] ↔ msg.type = .START := by
  rw [handle]
  cases msg.type <;> simp

/-- Handling requests stops the playback once for each `STOP`. -/
lemma count_stopPlayback (msgs : List ServiceRequest) :
    (msgs.flatMap handle).count .stopPlayback = msgs.countP (fun msg => msg.type = .STOP) := by
  induction msgs with
  | nil => rfl
  | cons msg msgs ih =>
      have hone : (handle msg).count .stopPlayback = if msg.type = .STOP then 1 else 0 := by
        rw [handle]
        cases msg.type <;> rfl
      rw [List.flatMap_cons, List.count_append, ih, hone, List.countP_cons, Nat.add_comm]
      simp only [decide_eq_true_eq]

/-! ### The steps -/

/-- **The call of `getMessage`** keeps a request that it removes for the `switch`. -/
lemma UpToDate.pollStep (hs : s.UpToDate) (hpolled : s.polled = none) : s.pollStep.UpToDate := by
  have hactions := hs.actions_eq
  rw [settled, hpolled, if_neg (by decide)] at hactions
  rw [PluginService.pollStep, MessageQueue.getMessage]
  cases hqueue : s.mServReq.mQueue with
  | nil => exact ⟨by simpa [settled] using hactions, .inr (.inl rfl)⟩
  | cons front rest =>
      refine ⟨?_, .inr (.inr ⟨rfl, s.removed, rfl⟩)⟩
      simpa [settled] using hactions

/-- The `switch` after an empty poll repeats what is in `msg`. -/
lemma switchStep_of_empty (hs : s.UpToDate) (hpolled : s.polled = some 0) :
    s.switchStep.actions = s.switchStep.settled.flatMap handle ++ handle s.msg := by
  have hactions := hs.actions_eq
  rw [settled, hpolled, if_neg (by decide)] at hactions
  rw [switchStep, hactions]
  rfl

/-- **The `switch` after a request has been removed** settles it. -/
lemma UpToDate.switchStep (hs : s.UpToDate) (hpolled : s.polled = some (-1)) :
    s.switchStep.UpToDate := by
  have hactions := hs.actions_eq
  obtain hnone | hzero | ⟨-, removed, hremoved⟩ := hs.polled_cases
  · rw [hpolled] at hnone
    cases hnone
  · rw [hpolled] at hzero
    cases hzero
  · rw [settled, if_pos hpolled, hremoved, List.dropLast_concat] at hactions
    refine ⟨?_, .inl rfl⟩
    simp [PluginService.switchStep, settled, hactions, hremoved]

/-- Where the actions are those asked for, the count is right. -/
lemma handledOnce_iff_actions
    (t : Transition PluginService ServiceEvent (List ServiceAction)) :
    HandledOnce t ↔ (t.before.polled = some 0 → t.output = []) ∧
      t.after.actions = t.after.settled.flatMap handle := by
  refine ⟨fun h => ⟨h.1, h.2.1⟩, fun h => ⟨h.1, h.2, ?_⟩⟩
  rw [h.2, count_stopPlayback]

lemma next_loop_of_none (hpolled : s.polled = none) : machine.next s .loop = s.pollStep := by
  simp [Machine.next, machine, hpolled]

lemma next_loop_of_some {result : ℤ} (hpolled : s.polled = some result) :
    machine.next s .loop = s.switchStep ∧ machine.output s .loop = handle s.msg := by
  simp [Machine.next, Machine.output, machine, hpolled]

/-- Where no empty poll comes before, a step that keeps the loop up to date handles each
request once. -/
lemma handledOnce_of_upToDate {e : ServiceEvent} (hpolled : s.polled ≠ some 0)
    (hafter : (machine.next s e).UpToDate) :
    HandledOnce (machine.transition s e) ↔ EmptyPollFindsStart (machine.transition s e) :=
  ⟨fun _ hzero => absurd hzero hpolled,
    fun _ => (handledOnce_iff_actions _).mpr ⟨fun hzero => absurd hzero hpolled, hafter.1⟩⟩

/-- A step handles each request once iff an empty poll finds a `START`. -/
lemma handledOnce_transition (hs : s.UpToDate) (e : ServiceEvent) :
    HandledOnce (machine.transition s e) ↔ EmptyPollFindsStart (machine.transition s e) := by
  cases e with
  | pushMessage msg =>
      refine ⟨fun _ _ he => (by cases he), fun _ => ?_⟩
      exact (handledOnce_iff_actions _).mpr ⟨fun _ => rfl, hs.1⟩
  | loop =>
      obtain hnone | hzero | ⟨hone, -⟩ := hs.polled_cases
      · refine handledOnce_of_upToDate (by simp [hnone]) ?_
        rw [next_loop_of_none hnone]
        exact hs.pollStep hnone
      · -- only here the request in `msg` is not a new one
        obtain ⟨hafter, houtput⟩ := next_loop_of_some hzero
        have hrepeat := switchStep_of_empty hs hzero
        rw [handledOnce_iff_actions]
        simp only [Machine.transition, hafter, houtput, hrepeat, EmptyPollFindsStart, hzero,
          forall_const, List.append_right_eq_self, handle_eq_nil_iff, and_self]
      · refine handledOnce_of_upToDate (by simp [hone]) ?_
        rw [(next_loop_of_some hone).1]
        exact hs.switchStep hone

/-- What happens once keeps the loop up to date. -/
lemma UpToDate.next (hs : s.UpToDate) (e : ServiceEvent)
    (h : HandledOnce (machine.transition s e)) : (machine.next s e).UpToDate := by
  refine ⟨h.2.1, ?_⟩
  cases e with
  | pushMessage msg => exact hs.polled_cases
  | loop =>
      cases hpolled : s.polled with
      | none =>
          rw [next_loop_of_none hpolled]
          exact (hs.pollStep hpolled).polled_cases
      | some result =>
          rw [(next_loop_of_some hpolled).1]
          exact .inl rfl

/-! ### All runs -/

/-- **Each request is handled once, and nothing is done without one**, exactly as long as every
iteration that finds the queue empty finds a `START` in `msg`. -/
theorem handledOnce_iff (msg : ServiceRequest) (es : List ServiceEvent) :
    (∀ t ∈ machine.trace (create msg) es, HandledOnce t)
      ↔ ∀ t ∈ machine.trace (create msg) es, EmptyPollFindsStart t :=
  Machine.forall_trace_iff (fun _ e hs => handledOnce_transition hs e)
    (fun _ e hs h => hs.next e h) (upToDate_create msg) es

/-- Nothing ensures that: after a single `STOP`, an iteration that finds the queue empty stops the
playback a second time. -/
theorem not_forall_handledOnce :
    ¬ ∀ (msg : ServiceRequest) (es : List ServiceEvent),
      ∀ t ∈ machine.trace (create msg) es, HandledOnce t := by
  intro h
  have hstop := h ⟨0, "", .START, ""⟩
    [.pushMessage ⟨0, "", .STOP, ""⟩, .loop, .loop, .loop, .loop]
  exact absurd hstop (by decide)

end PluginService

end StreamFs
