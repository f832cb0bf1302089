import StreamFs.Base.LoggedQueue
import StreamFs.Base.Mutex
import StreamFs.Base.Schedule

/-!
`MessageQueue` under any number of threads, at the granularity of its mutex (`MessageQueue.h`).

`pushMessage` wakes one waiting thread for each message, and a woken thread can find that another
one has been faster. So a notification goes to a thread that sleeps again, and what keeps messages
from being stranded is a count.

* `MessagePhase`: where a thread stands in `waitForMessage`, `pushMessage` or `getMessage`, named
  after the step that comes next. `takes`: it will take a message, or wake a thread that will.
* `MessageThreads`: the queue with its log, the mutex, the threads asleep on the condition variable,
  and the phases. `step`, `machine`: a notification wakes any of the sleepers.
* `Delivered`: the messages have been given back once each in the order they were put in, and while
  a thread sleeps there are no more messages than threads that will take one. `delivered_run`.
* `messages_settle`: when the calls end, every fair schedule brings all threads back but for those
  that sleep in front of an empty queue.
-/

namespace StreamFs

/-- The calls of a thread. -/
inductive MessageCall (T : Type*) where
  | waitForMessage
  | pushMessage (msg : T)
  | getMessage
deriving DecidableEq

/-- What a call gives back. -/
inductive MessageReply (T : Type*) where
  | pushed
  | message (msg : T)
  | noMessage
deriving DecidableEq

/-- Where a thread stands: outside, or before a step of a call. -/
inductive MessagePhase (T : Type*) where
  | idle
  -- `pushMessage`
  | pushLock (msg : T)
  | push (msg : T)
  | notify
  -- `waitForMessage`
  | waitLock
  | waitCheck
  | asleep
  | relock
  -- `getMessage`
  | getLock
  | getCheck
  -- both
  | front
  | pop (msg : T)
  | unlock (reply : MessageReply T)
deriving DecidableEq

/-- The message that a call gives back. -/
def MessageReply.message? {T : Type*} : MessageReply T → Option T
  | message msg => some msg
  | _ => none

namespace MessagePhase

variable {T : Type*}

/-- The thread holds the mutex. -/
def holds : MessagePhase T → Bool
  | push _ | notify | waitCheck | getCheck | front | pop _ | unlock _ => true
  | _ => false

/-- The thread will take a message where there is one, or wakes a thread that will. -/
def takes : MessagePhase T → Bool
  | notify | waitLock | waitCheck | relock | getLock | getCheck | front | pop _ => true
  | _ => false

/-- The message that the thread has taken and not given back yet. -/
def inHand : MessagePhase T → Option T
  | unlock reply => reply.message?
  | _ => none

/-- The steps left, those of the thread that a notification wakes included. -/
def work : MessagePhase T → ℕ
  | pushLock _ => 10
  | push _ => 9
  | notify => 8
  | waitLock | relock | getLock => 5
  | waitCheck | getCheck => 4
  | front => 3
  | pop _ => 2
  | unlock _ => 1
  | _ => 0

end MessagePhase

/-- The first step of a call. -/
def MessageCall.start {T : Type*} : MessageCall T → MessagePhase T
  | waitForMessage => .waitLock
  | pushMessage msg => .pushLock msg
  | getMessage => .getLock

/-- The events of the threads. A notification in the step of a thread wakes the sleeper that `pick`
says. -/
inductive MessageEvent (ι T : Type*) where
  | call (i : ι) (c : MessageCall T)
  | step (i : ι) (pick : ℕ)
  | spuriousWake (i : ι)
deriving DecidableEq

/-- The queue and the threads. -/
structure MessageThreads (ι T : Type*) where
  mQueue : LoggedQueue T
  mMtx : Option ι
  mCond : List ι
  phase : ι → MessagePhase T

namespace MessageThreads

variable {ι T : Type*}

/-- A new queue, with all threads outside. -/
def create : MessageThreads ι T := ⟨.empty, none, [], fun _ => .idle⟩

variable [DecidableEq ι]

/-- Thread `i` goes on to phase `p`: it takes and gives back the mutex as the phase says. -/
def moveTo (s : MessageThreads ι T) (i : ι) (p : MessagePhase T) : MessageThreads ι T :=
  { s with phase := Function.update s.phase i p, mMtx := Mutex.passOn s.mMtx i p.holds }

/-- Thread `i` locks the mutex where it is free. -/
def lock (s : MessageThreads ι T) (i : ι) (p : MessagePhase T) : MessageThreads ι T :=
  if s.mMtx = none then s.moveTo i p else s

/-- Thread `i` goes to sleep on the condition variable. -/
def sleep (s : MessageThreads ι T) (i : ι) : MessageThreads ι T :=
  { s.moveTo i .asleep with mCond := s.mCond ++ [i] }

/-- The sleep of thread `i` ends. -/
def wake (s : MessageThreads ι T) (i : ι) : MessageThreads ι T :=
  { s.moveTo i .relock with mCond := s.mCond.erase i }

/-- `notify_one`. -/
def notifyOne (s : MessageThreads ι T) (pick : ℕ) : MessageThreads ι T :=
  match s.mCond[pick % s.mCond.length]? with
  | none => s
  | some i => s.wake i

/-- Thread `i` takes its next step, if it can. -/
def step (s : MessageThreads ι T) (i : ι) (pick : ℕ) :
    MessageThreads ι T × Option (MessageReply T) :=
  match s.phase i with
  | .idle | .asleep => (s, none)
  | .pushLock msg => (s.lock i (.push msg), none)
  | .push msg => ({ s with mQueue := s.mQueue.push msg }.moveTo i .notify, none)
  | .notify => ((s.notifyOne pick).moveTo i (.unlock .pushed), none)
  | .waitLock | .relock => (s.lock i .waitCheck, none)
  | .waitCheck => (if s.mQueue.contents.isEmpty then s.sleep i else s.moveTo i .front, none)
  | .getLock => (s.lock i .getCheck, none)
  | .getCheck =>
      (s.moveTo i (if s.mQueue.contents.isEmpty then .unlock .noMessage else .front), none)
  | .front =>
      -- the `front` of an empty queue is undefined: nothing is read
      let s' := { s with mQueue := s.mQueue.readFront }
      (match s.mQueue.contents.head? with
        | some msg => s'.moveTo i (.pop msg)
        | none => s', none)
  | .pop msg =>
      let s' := { s with mQueue := s.mQueue.pop fun _ => .taken msg }
      (s'.moveTo i (.unlock (.message msg)), none)
  | .unlock reply => (s.moveTo i .idle, some reply)

/-- The queue under any number of threads. The output is what a call gives back. -/
def machine : Machine (MessageThreads ι T) (MessageEvent ι T) (Option (MessageReply T)) where
  step s
    | .call i c =>
        match s.phase i with
        | .idle => (s.moveTo i c.start, none)
        | _ => (s, none)
    | .step i pick => s.step i pick
    | .spuriousWake i =>
        match s.phase i with
        | .asleep => (s.wake i, none)
        | _ => (s, none)

/-! ### The mutex, the sleepers and the queue -/

/-- The queue is intact, the phases fit the mutex and the sleepers, and what is read and removed is
there. -/
structure Sound (s : MessageThreads ι T) : Prop where
  intact : s.mQueue.Intact
  guards : Mutex.Guards MessagePhase.holds s.phase s.mMtx
  nodup : s.mCond.Nodup
  mem_mCond : ∀ i, i ∈ s.mCond ↔ s.phase i = .asleep
  front : ∀ i, s.phase i = .front → s.mQueue.contents ≠ []
  pop : ∀ i msg, s.phase i = .pop msg → s.mQueue.contents.head? = some msg

variable {s : MessageThreads ι T}

omit [DecidableEq ι] in
lemma sound_create : (create : MessageThreads ι T).Sound where
  intact := LoggedQueue.intact_empty
  guards := Mutex.guards_none fun _ => rfl
  nodup := List.nodup_nil
  mem_mCond i := iff_of_false List.not_mem_nil fun h => by cases h
  front i h := by cases h
  pop i msg h := by cases h

@[simp] lemma phase_moveTo (s : MessageThreads ι T) (i : ι) (p : MessagePhase T) :
    (s.moveTo i p).phase = Function.update s.phase i p := rfl

@[simp] lemma mQueue_moveTo (s : MessageThreads ι T) (i : ι) (p : MessagePhase T) :
    (s.moveTo i p).mQueue = s.mQueue := rfl

@[simp] lemma mCond_moveTo (s : MessageThreads ι T) (i : ι) (p : MessagePhase T) :
    (s.moveTo i p).mCond = s.mCond := rfl

/-- A thread goes on, and the sleepers are those in the phase `asleep`. -/
lemma Sound.change (h : s.Sound) {i : ι} {p : MessagePhase T} {cond : List ι}
    (hfree : p.holds = true → s.mMtx = none ∨ (s.phase i).holds = true) (hnodup : cond.Nodup)
    (hcond : ∀ j, j ∈ cond ↔ Function.update s.phase i p j = .asleep)
    (hfront : p = .front → s.mQueue.contents ≠ [])
    (hpop : ∀ msg, p = .pop msg → s.mQueue.contents.head? = some msg) :
    ({ s.moveTo i p with mCond := cond } : MessageThreads ι T).Sound where
  intact := h.intact
  guards := h.guards.passOn hfree
  nodup := hnodup
  mem_mCond := hcond
  front j hj := by
    change Function.update s.phase i p j = .front at hj
    by_cases hji : j = i
    · rw [hji, Function.update_self] at hj
      exact hfront hj
    · rw [Function.update_of_ne hji] at hj
      exact h.front j hj
  pop j msg hj := by
    change Function.update s.phase i p j = .pop msg at hj
    by_cases hji : j = i
    · rw [hji, Function.update_self] at hj
      exact hpop msg hj
    · rw [Function.update_of_ne hji] at hj
      exact h.pop j msg hj

/-- A thread goes on, awake before and after. -/
lemma Sound.moveTo (h : s.Sound) {i : ι} {p : MessagePhase T}
    (hfree : p.holds = true → s.mMtx = none ∨ (s.phase i).holds = true)
    (hbefore : s.phase i ≠ .asleep) (hafter : p ≠ .asleep)
    (hfront : p = .front → s.mQueue.contents ≠ [])
    (hpop : ∀ msg, p = .pop msg → s.mQueue.contents.head? = some msg) :
    (s.moveTo i p).Sound := by
  refine h.change hfree h.nodup (fun j => ?_) hfront hpop
  rw [h.mem_mCond]
  by_cases hj : j = i
  · rw [hj, Function.update_self]
    exact iff_of_false hbefore hafter
  · rw [Function.update_of_ne hj]

/-- A thread that holds the mutex changes the queue. No other thread is about to read it. -/
lemma Sound.setQueue (h : s.Sound) {i : ι} {q : LoggedQueue T} {p : MessagePhase T}
    (hi : (s.phase i).holds = true) (hq : q.Intact) (hp : p.holds = true) (hfront : p ≠ .front)
    (hpop : ∀ msg, p = .pop msg → q.contents.head? = some msg) :
    ({ s with mQueue := q }.moveTo i p : MessageThreads ι T).Sound where
  intact := hq
  guards := h.guards.passOn fun _ => .inr hi
  nodup := h.nodup
  mem_mCond j := by
    show j ∈ s.mCond ↔ Function.update s.phase i p j = .asleep
    rw [h.mem_mCond]
    by_cases hj : j = i
    · rw [hj, Function.update_self]
      exact iff_of_false (fun h => by rw [h] at hi; cases hi) (fun h => by rw [h] at hp; cases hp)
    · rw [Function.update_of_ne hj]
  front j hj := by
    change Function.update s.phase i p j = .front at hj
    by_cases hji : j = i
    · rw [hji, Function.update_self] at hj
      exact absurd hj hfront
    · rw [Function.update_of_ne hji] at hj
      exact absurd (h.guards.unique (by rw [hj]; rfl) hi) hji
  pop j msg hj := by
    change Function.update s.phase i p j = .pop msg at hj
    by_cases hji : j = i
    · rw [hji, Function.update_self] at hj
      exact hpop msg hj
    · rw [Function.update_of_ne hji] at hj
      exact absurd (h.guards.unique (by rw [hj]; rfl) hi) hji

/-- A thread locks the mutex if it can. -/
lemma Sound.lock (h : s.Sound) {i : ι} {p : MessagePhase T} (hbefore : s.phase i ≠ .asleep)
    (hp : p = .waitCheck ∨ p = .getCheck ∨ ∃ msg, p = .push msg) : (s.lock i p).Sound := by
  rw [MessageThreads.lock]
  split_ifs with hfree
  · rcases hp with rfl | rfl | ⟨msg, rfl⟩ <;>
    exact h.moveTo (fun _ => .inl hfree) hbefore (by simp) (by simp) (by simp)
  · exact h

/-- A thread goes to sleep. -/
lemma Sound.sleep (h : s.Sound) {i : ι} (hbefore : s.phase i ≠ .asleep) : (s.sleep i).Sound := by
  have hnot : i ∉ s.mCond := fun hi => hbefore ((h.mem_mCond i).mp hi)
  refine h.change (fun hp => by cases hp) ?_ (fun j => ?_) (by simp) (by simp)
  · exact List.nodup_append'.mpr ⟨h.nodup, List.nodup_singleton i, by simpa using hnot⟩
  · rw [List.mem_append, List.mem_singleton, h.mem_mCond]
    by_cases hj : j = i
    · simp [hj]
    · simp [hj]

/-- A sleep ends. -/
lemma Sound.wake (h : s.Sound) (i : ι) : (s.wake i).Sound := by
  refine h.change (fun hp => by cases hp) (h.nodup.erase i) (fun j => ?_) (by simp) (by simp)
  rw [h.nodup.mem_erase_iff, h.mem_mCond]
  by_cases hj : j = i
  · simp [hj]
  · simp [hj]

/-- `notify_one` finds no sleeper, or wakes one. -/
lemma Sound.notifyOne_cases (h : s.Sound) (pick : ℕ) :
    s.mCond = [] ∧ s.notifyOne pick = s ∨
      ∃ i, s.phase i = .asleep ∧ s.notifyOne pick = s.wake i := by
  rw [notifyOne]
  cases hcond : s.mCond with
  | nil => exact .inl ⟨rfl, rfl⟩
  | cons j rest =>
      have hlt : pick % (j :: rest).length < (j :: rest).length :=
        Nat.mod_lt _ (Nat.succ_pos _)
      rw [List.getElem?_eq_getElem hlt]
      refine .inr ⟨_, (h.mem_mCond _).mp ?_, rfl⟩
      rw [hcond]
      exact List.getElem_mem hlt

/-- **A step of a thread.** -/
lemma Sound.step (h : s.Sound) (i : ι) (pick : ℕ) : (s.step i pick).1.Sound := by
  rw [MessageThreads.step]
  cases hphase : s.phase i with
  | idle | asleep => exact h
  | pushLock msg => exact h.lock (by simp [hphase]) (.inr (.inr ⟨msg, rfl⟩))
  | waitLock | relock => exact h.lock (by simp [hphase]) (.inl rfl)
  | getLock => exact h.lock (by simp [hphase]) (.inr (.inl rfl))
  | push msg =>
      exact h.setQueue (by rw [hphase]; rfl) (h.intact.push msg) rfl (by simp) (by simp)
  | notify =>
      have hholds : (s.phase i).holds = true := by rw [hphase]; rfl
      rcases h.notifyOne_cases pick with ⟨-, heq⟩ | ⟨w, hw, heq⟩
      · dsimp only
        rw [heq]
        exact h.moveTo (fun _ => .inr hholds) (by simp [hphase]) (by simp) (by simp) (by simp)
      · dsimp only
        rw [heq]
        have hne : i ≠ w := fun hiw => by
          rw [hiw, hw] at hphase
          cases hphase
        have hsame : (s.wake w).phase i = s.phase i := Function.update_of_ne hne _ _
        exact (h.wake w).moveTo (fun _ => .inr (hsame ▸ hholds)) (by rw [hsame, hphase]; simp)
          (by simp) (by simp) (by simp)
  | waitCheck =>
      dsimp only
      split_ifs with hempty
      · exact h.sleep (by simp [hphase])
      · refine h.moveTo (fun _ => .inr (by rw [hphase]; rfl)) (by simp [hphase]) (by simp)
          (fun _ hnil => hempty ?_) (by simp)
        rw [hnil, List.isEmpty_nil]
  | getCheck =>
      dsimp only
      split_ifs with hempty
      · exact h.moveTo (fun _ => .inr (by rw [hphase]; rfl)) (by simp [hphase]) (by simp) (by simp)
          (by simp)
      · refine h.moveTo (fun _ => .inr (by rw [hphase]; rfl)) (by simp [hphase]) (by simp)
          (fun _ hnil => hempty ?_) (by simp)
        rw [hnil, List.isEmpty_nil]
  | front =>
      have hne := h.front i hphase
      cases hhead : s.mQueue.contents.head? with
      | none => exact absurd (List.head?_eq_none_iff.mp hhead) hne
      | some msg =>
          refine h.setQueue (by rw [hphase]; rfl) (h.intact.readFront_iff.mpr hne) rfl (by simp)
            fun msg' hmsg => ?_
          cases hmsg
          exact hhead
  | pop msg =>
      exact h.setQueue (by rw [hphase]; rfl)
        (h.intact.pop_iff.mpr ⟨msg, h.pop i msg hphase, rfl⟩) rfl (by simp) (by simp)
  | unlock reply =>
      exact h.moveTo (fun hp => by cases hp) (by simp [hphase]) (by simp) (by simp) (by simp)

/-- **An event.** -/
lemma Sound.next (h : s.Sound) (e : MessageEvent ι T) : (machine.next s e).Sound := by
  cases e with
  | step i pick => exact h.step i pick
  | call i c =>
      rw [Machine.next, machine]
      dsimp only
      split
      · rename_i hphase
        refine h.moveTo (fun hp => ?_) (by simp [hphase]) ?_ ?_ ?_
        · cases c <;> cases hp
        · cases c <;> simp [MessageCall.start]
        · cases c <;> simp [MessageCall.start]
        · cases c <;> simp [MessageCall.start]
      · exact h
  | spuriousWake i =>
      rw [Machine.next, machine]
      dsimp only
      split
      · exact h.wake i
      · exact h

lemma sound_run (es : List (MessageEvent ι T)) :
    (machine.run (create : MessageThreads ι T) es).Sound :=
  Machine.invariant_run (fun _ e h => h.next e) sound_create es

/-! ### What the threads give back -/

/-- The messages that calls have given back, in order. -/
def given (s : MessageThreads ι T) (es : List (MessageEvent ι T)) : List T :=
  (machine.outputs s es).filterMap fun reply => reply.bind MessageReply.message?

/-- The message in the hand of the thread that holds the mutex. -/
def inHand (s : MessageThreads ι T) : List T :=
  (s.mMtx.bind fun i => (s.phase i).inHand).toList

/-- A thread goes on without the mutex. -/
lemma Sound.inHand_moveTo_of_not_holds (h : s.Sound) {i : ι} {p : MessagePhase T}
    (hp : p.holds = false) :
    (s.moveTo i p).inHand = if (s.phase i).holds then [] else s.inHand := by
  have howner := h.guards i
  rw [inHand, inHand]
  show (Option.bind (Mutex.passOn s.mMtx i p.holds)
    fun j => (Function.update s.phase i p j).inHand).toList = _
  rw [Mutex.passOn, hp]
  simp only [Bool.false_eq_true, if_false]
  by_cases hi : (s.phase i).holds = true
  · rw [if_pos (howner.mp hi), if_pos hi]
    rfl
  · rw [if_neg fun hm => hi (howner.mpr hm), if_neg hi]
    cases hm : s.mMtx with
    | none => rfl
    | some j =>
        have hne : j ≠ i := fun hji => hi (howner.mpr (hji ▸ hm))
        simp only [Option.bind_some, Function.update_of_ne hne]

omit [DecidableEq ι] in
lemma Sound.inHand_of_holds (h : s.Sound) {i : ι} (hi : (s.phase i).holds = true) :
    s.inHand = (s.phase i).inHand.toList := by
  rw [inHand, (h.guards i).mp hi]
  rfl

/-- A thread goes on with the mutex. -/
lemma inHand_moveTo_of_holds (s : MessageThreads ι T) {i : ι} {p : MessagePhase T}
    (hp : p.holds = true) : (s.moveTo i p).inHand = p.inHand.toList := by
  show (Option.bind (Mutex.passOn s.mMtx i p.holds)
    fun j => (Function.update s.phase i p j).inHand).toList = _
  rw [Mutex.passOn, hp]
  simp

/-- A thread locks the mutex with nothing in its hand. -/
lemma inHand_lock (s : MessageThreads ι T) {i : ι} {p : MessagePhase T} (hp : p.holds = true)
    (hnone : p.inHand = none) : (s.lock i p).inHand = s.inHand := by
  rw [MessageThreads.lock]
  split_ifs with hfree
  · rw [inHand_moveTo_of_holds s hp, hnone, inHand, hfree]
    rfl
  · rfl

@[simp] lemma mQueue_lock (s : MessageThreads ι T) (i : ι) (p : MessagePhase T) :
    (s.lock i p).mQueue = s.mQueue := by
  rw [MessageThreads.lock]
  split_ifs <;> rfl

@[simp] lemma mQueue_notifyOne (s : MessageThreads ι T) (pick : ℕ) :
    (s.notifyOne pick).mQueue = s.mQueue := by
  rw [notifyOne]
  split <;> rfl

/-- What leaves the queue goes through the hand of the thread that has taken it. -/
lemma Sound.left_next (h : s.Sound) (e : MessageEvent ι T) :
    ∃ new, (machine.next s e).mQueue.left.map Departure.value
        = s.mQueue.left.map Departure.value ++ new ∧
      s.inHand ++ new = ((machine.output s e).bind MessageReply.message?).toList
        ++ (machine.next s e).inHand := by
  have hquiet : ∀ s' : MessageThreads ι T, s'.mQueue.left = s.mQueue.left →
      s'.inHand = s.inHand → ∃ new, s'.mQueue.left.map Departure.value
        = s.mQueue.left.map Departure.value ++ new ∧ s.inHand ++ new = [] ++ s'.inHand :=
    fun s' hleft hhand => ⟨[], by rw [hleft, List.append_nil], by simp [hhand]⟩
  cases e with
  | call i c =>
      rw [Machine.next, Machine.output, machine]
      dsimp only
      split
      · rename_i hphase
        refine hquiet (s.moveTo i c.start) rfl ?_
        rw [h.inHand_moveTo_of_not_holds (by cases c <;> rfl), hphase]
        rfl
      · exact hquiet s rfl rfl
  | spuriousWake i =>
      rw [Machine.next, Machine.output, machine]
      dsimp only
      split
      · rename_i hphase
        refine hquiet (s.wake i) rfl ?_
        show (s.moveTo i .relock).inHand = _
        rw [h.inHand_moveTo_of_not_holds rfl, hphase]
        rfl
      · exact hquiet s rfl rfl
  | step i pick =>
      show ∃ new, (s.step i pick).1.mQueue.left.map Departure.value = _ ∧
        _ = ((s.step i pick).2.bind MessageReply.message?).toList ++ (s.step i pick).1.inHand
      rw [MessageThreads.step]
      cases hphase : s.phase i with
      | idle | asleep => exact hquiet s rfl rfl
      | pushLock msg => exact hquiet _ (by simp) (inHand_lock s rfl rfl)
      | waitLock | relock => exact hquiet _ (by simp) (inHand_lock s rfl rfl)
      | getLock => exact hquiet _ (by simp) (inHand_lock s rfl rfl)
      | push msg =>
          have hholds : (s.phase i).holds = true := by rw [hphase]; rfl
          refine hquiet _ rfl ?_
          rw [inHand_moveTo_of_holds _ rfl, h.inHand_of_holds hholds, hphase]
          rfl
      | notify =>
          have hholds : (s.phase i).holds = true := by rw [hphase]; rfl
          refine hquiet _ (by simp) ?_
          rw [inHand_moveTo_of_holds _ rfl, h.inHand_of_holds hholds, hphase]
          rfl
      | waitCheck =>
          have hhand : s.inHand = [] := by
            rw [h.inHand_of_holds (i := i) (by rw [hphase]; rfl), hphase]
            rfl
          dsimp only
          split_ifs
          · refine hquiet (s.sleep i) rfl ?_
            show (s.moveTo i .asleep).inHand = _
            rw [h.inHand_moveTo_of_not_holds rfl, hphase, hhand]
            rfl
          · refine hquiet _ rfl ?_
            rw [inHand_moveTo_of_holds _ rfl, hhand]
            rfl
      | getCheck =>
          have hhand : s.inHand = [] := by
            rw [h.inHand_of_holds (i := i) (by rw [hphase]; rfl), hphase]
            rfl
          refine hquiet _ rfl ?_
          rw [inHand_moveTo_of_holds _ (by split_ifs <;> rfl), hhand]
          split_ifs <;> rfl
      | front =>
          have hhand : s.inHand = [] := by
            rw [h.inHand_of_holds (i := i) (by rw [hphase]; rfl), hphase]
            rfl
          dsimp only
          split
          · refine hquiet _ rfl ?_
            rw [inHand_moveTo_of_holds _ rfl, hhand]
            rfl
          · exact hquiet _ rfl rfl
      | pop msg =>
          have hhand : s.inHand = [] := by
            rw [h.inHand_of_holds (i := i) (by rw [hphase]; rfl), hphase]
            rfl
          refine ⟨[msg], ?_, ?_⟩
          · have hhead := h.pop i msg hphase
            show (s.mQueue.pop fun _ => .taken msg).left.map Departure.value = _
            rw [LoggedQueue.pop]
            cases hcontents : s.mQueue.contents with
            | nil =>
                rw [hcontents] at hhead
                cases hhead
            | cons x rest => exact List.map_append
          · rw [inHand_moveTo_of_holds _ rfl, hhand]
            rfl
      | unlock reply =>
          refine ⟨[], by simp, ?_⟩
          have hholds : (s.phase i).holds = true := by rw [hphase]; rfl
          rw [List.append_nil, h.inHand_of_holds hholds, h.inHand_moveTo_of_not_holds rfl,
            if_pos hholds, hphase, List.append_nil]
          rfl

/-- What has left the queue has been given back, but for what a thread has in its hand. -/
lemma left_run (es : List (MessageEvent ι T)) :
    (machine.run (create : MessageThreads ι T) es).mQueue.left.map Departure.value
      = given create es ++ (machine.run create es).inHand := by
  induction es using List.reverseRecOn with
  | nil => rfl
  | append_singleton es e ih =>
      obtain ⟨new, hleft, hhand⟩ := (sound_run es).left_next e
      rw [Machine.run_append, given, Machine.outputs_append, List.filterMap_append]
      show (machine.next _ e).mQueue.left.map Departure.value = _
      rw [hleft, ih, List.append_assoc, hhand, ← List.append_assoc]
      congr 2

/-! ### No message is stranded -/

variable [Fintype ι]

/-- The threads that will take a message, or wake a thread that will. -/
def takers (s : MessageThreads ι T) : ℕ :=
  (Finset.univ.filter fun i => (s.phase i).takes = true).card

/-- While a thread sleeps there are no more messages than threads that will take one. -/
def Covered (s : MessageThreads ι T) : Prop :=
  (∃ i, s.phase i = .asleep) → s.mQueue.contents.length ≤ s.takers

lemma takers_moveTo (s : MessageThreads ι T) (i : ι) (p : MessagePhase T) :
    (s.moveTo i p).takers + (s.phase i).takes.toNat = s.takers + p.takes.toNat := by
  have hcard : ∀ s : MessageThreads ι T, s.takers = ∑ j, (s.phase j).takes.toNat := fun s => by
    rw [takers, Finset.card_filter]
    refine Finset.sum_congr rfl fun j _ => ?_
    cases (s.phase j).takes <;> rfl
  rw [hcard, hcard]
  exact sum_update_add (fun p : MessagePhase T => p.takes.toNat) s.phase i p

omit [Fintype ι] in
/-- Who sleeps after a thread has gone on awake has slept before. -/
lemma asleep_of_update {i j : ι} {p : MessagePhase T} (hp : p ≠ .asleep)
    (hj : Function.update s.phase i p j = .asleep) : s.phase j = .asleep := by
  by_cases hji : j = i
  · rw [hji, Function.update_self] at hj
    exact absurd hj hp
  · rwa [Function.update_of_ne hji] at hj

/-- A thread goes on that takes a message afterwards if it did before. -/
lemma Covered.moveTo (h : s.Covered) {i : ι} {p : MessagePhase T} (hafter : p ≠ .asleep)
    (htakes : (s.phase i).takes = true → p.takes = true) : (s.moveTo i p).Covered := by
  rintro ⟨j, hj⟩
  have hcount := takers_moveTo s i p
  have hle : (s.phase i).takes.toNat ≤ p.takes.toNat := Bool.toNat_le_toNat htakes
  have hbefore := h ⟨j, asleep_of_update hafter hj⟩
  show s.mQueue.contents.length ≤ _
  omega

omit [DecidableEq ι] in
/-- An empty queue is covered. -/
lemma covered_of_nil (h : s.mQueue.contents = []) : s.Covered := fun _ => by
  rw [h]
  exact Nat.zero_le _

lemma Covered.lock (h : s.Covered) {i : ι} {p : MessagePhase T} (hafter : p ≠ .asleep)
    (htakes : (s.phase i).takes = true → p.takes = true) : (s.lock i p).Covered := by
  rw [MessageThreads.lock]
  split_ifs
  · exact h.moveTo hafter htakes
  · exact h

/-- A sleep ends, and there is one more thread that will take a message. -/
lemma takers_wake {i : ι} (hi : s.phase i = .asleep) : (s.wake i).takers = s.takers + 1 := by
  have hcount := takers_moveTo s i .relock
  rw [hi] at hcount
  exact hcount

lemma Covered.wake (h : s.Covered) {i : ι} (hi : s.phase i = .asleep) : (s.wake i).Covered := by
  rintro -
  have hbefore := h ⟨i, hi⟩
  rw [takers_wake hi]
  exact hbefore.trans (Nat.le_succ _)

/-- **A step of a thread.** -/
lemma Covered.step (h : s.Covered) (hs : s.Sound) (i : ι) (pick : ℕ) :
    (s.step i pick).1.Covered := by
  rw [MessageThreads.step]
  cases hphase : s.phase i with
  | idle | asleep => exact h
  | pushLock msg => exact h.lock (by simp) (by rw [hphase]; exact fun h => by cases h)
  | waitLock | relock | getLock => exact h.lock (by simp) (fun _ => rfl)
  | push msg =>
      -- one more message, and one more thread that wakes another for it
      rintro ⟨j, hj⟩
      have hcount := takers_moveTo s i .notify
      have hbefore := h ⟨j, asleep_of_update (by simp) hj⟩
      rw [hphase] at hcount
      show (s.mQueue.push msg).contents.length ≤ (s.moveTo i .notify).takers
      rw [LoggedQueue.contents_push, List.length_append, List.length_singleton]
      simp only [MessagePhase.takes, Bool.toNat_false, Bool.toNat_true] at hcount
      omega
  | notify =>
      dsimp only
      rcases hs.notifyOne_cases pick with ⟨hcond, heq⟩ | ⟨w, hw, heq⟩
      · rintro ⟨j, hj⟩
        rw [heq] at hj
        have hmem := (hs.mem_mCond j).mpr (asleep_of_update (by simp) hj)
        rw [hcond] at hmem
        cases hmem
      · rw [heq]
        rintro -
        have hne : i ≠ w := fun hiw => by
          rw [hiw, hw] at hphase
          cases hphase
        have hcount := takers_moveTo (s.wake w) i (.unlock .pushed)
        rw [takers_wake hw, show (s.wake w).phase i = s.phase i from Function.update_of_ne hne _ _,
          hphase] at hcount
        have hbefore := h ⟨w, hw⟩
        simp only [MessagePhase.takes, Bool.toNat_false, Bool.toNat_true] at hcount
        show s.mQueue.contents.length ≤ _
        omega
  | waitCheck =>
      dsimp only
      split_ifs with hempty
      · exact covered_of_nil (s := s.sleep i) (List.isEmpty_iff.mp hempty)
      · exact h.moveTo (by simp) (fun _ => rfl)
  | getCheck =>
      dsimp only
      split_ifs with hempty
      · exact covered_of_nil (s := s.moveTo i _) (List.isEmpty_iff.mp hempty)
      · exact h.moveTo (by simp) (fun _ => rfl)
  | front =>
      have hread : ({ s with mQueue := s.mQueue.readFront } : MessageThreads ι T).Covered := h
      dsimp only
      split
      · exact hread.moveTo (by simp) (fun _ => rfl)
      · exact hread
  | pop msg =>
      -- one message less, and one thread less
      rintro ⟨j, hj⟩
      have hcount := takers_moveTo s i (.unlock (.message msg))
      have hbefore := h ⟨j, asleep_of_update (by simp) hj⟩
      rw [hphase] at hcount
      show (s.mQueue.pop fun _ => .taken msg).contents.length
        ≤ (s.moveTo i (.unlock (.message msg))).takers
      rw [LoggedQueue.contents_pop, List.length_tail]
      simp only [MessagePhase.takes, Bool.toNat_false, Bool.toNat_true] at hcount
      omega
  | unlock reply => exact h.moveTo (by simp) (by rw [hphase]; exact fun h => by cases h)

/-- **An event.** -/
lemma Covered.next (h : s.Covered) (hs : s.Sound) (e : MessageEvent ι T) :
    (machine.next s e).Covered := by
  cases e with
  | step i pick => exact h.step hs i pick
  | call i c =>
      rw [Machine.next, machine]
      dsimp only
      split
      · rename_i hphase
        refine h.moveTo ?_ (by rw [hphase]; exact fun h => by cases h)
        cases c <;> simp [MessageCall.start]
      · exact h
  | spuriousWake i =>
      rw [Machine.next, machine]
      dsimp only
      split
      · rename_i hphase
        exact h.wake hphase
      · exact h

lemma covered_run (es : List (MessageEvent ι T)) :
    (machine.run (create : MessageThreads ι T) es).Covered := by
  have hrun := Machine.invariant_run (m := machine)
    (I := fun s : MessageThreads ι T => s.Sound ∧ s.Covered)
    (fun _ e h => ⟨h.1.next e, h.2.next h.1 e⟩) ⟨sound_create, covered_of_nil rfl⟩ es
  exact hrun.2

/-- What has been put in is what has been given back, in the same order, and at most one message in
the hand of a thread, and what is there; and while a thread sleeps, there are no more messages than
threads that will take one. -/
structure Delivered (s : MessageThreads ι T) (es : List (MessageEvent ι T)) : Prop where
  inOrder : ∃ hand : List T, hand.length ≤ 1 ∧
    (machine.run s es).mQueue.put = given s es ++ hand ++ (machine.run s es).mQueue.contents
  covered : (machine.run s es).Covered

/-- **Every message is delivered once.** In every run of any number of threads, the calls give back
the messages in the order they were put in, each once, and no thread sleeps while there are more
messages than threads that will take one. -/
theorem delivered_run (es : List (MessageEvent ι T)) :
    Delivered (create : MessageThreads ι T) es where
  inOrder := by
    refine ⟨(machine.run create es).inHand, ?_, ?_⟩
    · rw [inHand, Option.length_toList]
      split <;> simp
    · rw [(sound_run es).intact.put_eq, left_run]
  covered := covered_run es

/-! ### When the calls end -/

/-- Every thread is outside, or sleeps because there is no message. -/
def Settled (s : MessageThreads ι T) : Prop :=
  ∀ i, s.phase i = .idle ∨ s.phase i = .asleep ∧ s.mQueue.contents = []

/-- Thread `i` can take no step: it is outside, asleep, or in front of the mutex of another. -/
def Stuck (s : MessageThreads ι T) (i : ι) : Prop :=
  s.phase i = .idle ∨ s.phase i = .asleep ∨ (s.phase i).holds = false ∧ s.mMtx ≠ none

/-- The steps that all threads have left. -/
def work (s : MessageThreads ι T) : ℕ := ∑ i, (s.phase i).work

lemma work_moveTo (s : MessageThreads ι T) (i : ι) (p : MessagePhase T) :
    (s.moveTo i p).work + (s.phase i).work = s.work + p.work :=
  sum_update_add MessagePhase.work s.phase i p

/-- A thread goes on to a phase with less to do. -/
lemma work_moveTo_lt {i : ι} {p : MessagePhase T} (hp : p.work < (s.phase i).work) :
    (s.moveTo i p).work < s.work := by
  have hsum := work_moveTo s i p
  omega

/-- **What a step does to the work**: the thread is stuck, or all together have less to do. -/
lemma Sound.step_cases (h : s.Sound) (i : ι) (pick : ℕ) :
    (s.step i pick).1 = s ∧ s.Stuck i ∨ (s.step i pick).1.work < s.work := by
  have hlock : ∀ p : MessagePhase T, (s.phase i).holds = false → p.work < (s.phase i).work →
      s.lock i p = s ∧ s.Stuck i ∨ (s.lock i p).work < s.work := by
    intro p hholds hlt
    rw [MessageThreads.lock]
    split_ifs with hfree
    · exact .inr (work_moveTo_lt hlt)
    · exact .inl ⟨rfl, .inr (.inr ⟨hholds, hfree⟩)⟩
  rw [MessageThreads.step]
  cases hphase : s.phase i with
  | idle => exact .inl ⟨rfl, .inl hphase⟩
  | asleep => exact .inl ⟨rfl, .inr (.inl hphase)⟩
  | pushLock msg => exact hlock _ (by rw [hphase]; rfl) (by rw [hphase]; exact Nat.lt_succ_self _)
  | waitLock | relock | getLock =>
      exact hlock _ (by rw [hphase]; rfl) (by rw [hphase]; exact Nat.lt_succ_self _)
  | push msg =>
      refine .inr (work_moveTo_lt (s := { s with mQueue := s.mQueue.push msg }) ?_)
      show _ < (s.phase i).work
      rw [hphase]
      exact Nat.lt_succ_self _
  | notify =>
      refine .inr ?_
      dsimp only
      rcases h.notifyOne_cases pick with ⟨-, heq⟩ | ⟨w, hw, heq⟩
      · rw [heq]
        refine work_moveTo_lt ?_
        rw [hphase]
        simp [MessagePhase.work]
      · rw [heq]
        have hne : i ≠ w := fun hiw => by
          rw [hiw, hw] at hphase
          cases hphase
        have hwoken : (s.wake w).work + (s.phase w).work = s.work + _ := work_moveTo s w .relock
        have hsum := work_moveTo (s.wake w) i (.unlock .pushed)
        rw [show (s.wake w).phase i = s.phase i from Function.update_of_ne hne _ _, hphase] at hsum
        rw [hw] at hwoken
        simp only [MessagePhase.work] at hwoken hsum
        omega
  | waitCheck =>
      refine .inr ?_
      dsimp only
      split_ifs
      · refine (work_moveTo_lt (i := i) (p := .asleep) ?_ : (s.moveTo i .asleep).work < s.work)
        rw [hphase]
        simp [MessagePhase.work]
      · refine work_moveTo_lt ?_
        rw [hphase]
        exact Nat.lt_succ_self _
  | getCheck =>
      refine .inr (work_moveTo_lt ?_)
      rw [hphase]
      split_ifs <;> simp [MessagePhase.work]
  | front =>
      cases hhead : s.mQueue.contents.head? with
      | none => exact absurd (List.head?_eq_none_iff.mp hhead) (h.front i hphase)
      | some msg =>
          refine .inr (work_moveTo_lt (s := { s with mQueue := s.mQueue.readFront }) ?_)
          show _ < (s.phase i).work
          rw [hphase]
          exact Nat.lt_succ_self _
  | pop msg =>
      refine .inr (work_moveTo_lt (s := { s with mQueue := s.mQueue.pop fun _ => .taken msg }) ?_)
      show _ < (s.phase i).work
      rw [hphase]
      exact Nat.lt_succ_self _
  | unlock reply =>
      refine .inr (work_moveTo_lt ?_)
      rw [hphase]
      exact Nat.lt_succ_self _

lemma Sound.step_ne (h : s.Sound) {i : ι} (hi : ¬ s.Stuck i) (pick : ℕ) :
    machine.next s (.step i pick) ≠ s := by
  intro heq
  rcases h.step_cases i pick with ⟨-, hstuck⟩ | hlt
  · exact hi hstuck
  · exact hlt.ne (congrArg work (show (s.step i pick).1 = s from heq))

omit [Fintype ι] [DecidableEq ι] in
/-- The holder of the mutex goes on. -/
lemma not_stuck_of_holds {i : ι} (hi : (s.phase i).holds = true) : ¬ s.Stuck i := by
  rintro (hphase | hphase | ⟨hholds, -⟩)
  · rw [hphase] at hi
    cases hi
  · rw [hphase] at hi
    cases hi
  · rw [hholds] at hi
    cases hi

omit [DecidableEq ι] in
/-- Where the queue is not settled, some thread can take a step. -/
lemma Sound.exists_not_stuck (h : s.Sound) (hcovered : s.Covered) (hs : ¬ s.Settled) :
    ∃ i, ¬ s.Stuck i := by
  rw [Settled, not_forall] at hs
  obtain ⟨i, hi⟩ := hs
  rw [not_or, not_and] at hi
  by_contra hall
  push Not at hall
  have hmutex : s.mMtx = none := by
    by_contra hmutex
    obtain ⟨k, hk⟩ := Option.ne_none_iff_exists'.mp hmutex
    exact not_stuck_of_holds ((h.guards k).mpr hk) (hall k)
  rcases hall i with hidle | hasleep | ⟨-, hheld⟩
  · exact hi.1 hidle
  · -- a message is there, and so a thread that will take it, which neither sleeps nor is outside
    have hpos := List.length_pos_of_ne_nil (hi.2 hasleep)
    have hcount := hcovered ⟨i, hasleep⟩
    obtain ⟨j, hj⟩ := Finset.card_pos.mp (hpos.trans_le hcount)
    have htakes := (Finset.mem_filter.mp hj).2
    rcases hall j with hphase | hphase | ⟨-, hheld⟩
    · rw [hphase] at htakes
      cases htakes
    · rw [hphase] at htakes
      cases htakes
    · exact hheld hmutex
  · exact hheld hmutex

/-- The event ends a sleep for no reason. -/
def EndsSleep (e : MessageEvent ι T) : Prop := ∃ i, e = .spuriousWake i

/-- The event is a call. -/
def Calls (e : MessageEvent ι T) : Prop := ∃ i c, e = .call i c

/-- **The queue settles.** Let any number of threads have called `waitForMessage`, `pushMessage` and
`getMessage` in any run, and let no more calls come. In every schedule that goes on with each
thread, wakes any of the sleepers at each notification and has finitely many wake-ups for no reason,
all calls return but for those that wait in front of an empty queue. -/
theorem messages_settle (es : List (MessageEvent ι T)) (f : ℕ → MessageEvent ι T)
    (hcalls : ∀ n, ¬ Calls (f n)) (hsteps : ∀ i, RecursIn f fun e => ∃ pick, e = .step i pick)
    (hwakes : ∃ n, ∀ k, n ≤ k → ¬ EndsSleep (f k)) :
    ∃ n, (machine.stateAt (machine.run create es) f n).Settled := by
  have hstart : (machine.run (create : MessageThreads ι T) es).Sound ∧
      (machine.run (create : MessageThreads ι T) es).Covered := ⟨sound_run es, covered_run es⟩
  have hkept : ∀ (s : MessageThreads ι T) e, s.Sound ∧ s.Covered →
      (machine.next s e).Sound ∧ (machine.next s e).Covered :=
    fun s e h => ⟨h.1.next e, h.2.next h.1 e⟩
  obtain ⟨w, hw⟩ := hwakes
  have hlater := Machine.invariant_stateAt (f := f) hkept hstart w
  obtain ⟨k, hk⟩ := Machine.eventually_of_rank_in (m := machine) (f := fun i => f (w + i))
    (fun s : MessageThreads ι T => s.Sound ∧ s.Covered) Settled
    (fun e => ¬ Calls e ∧ ¬ EndsSleep e) work (fun s e h _ => hkept s e h)
    (fun s e h he => by
      cases e with
      | step i pick => exact (h.1.step_cases i pick).imp_left And.left
      | call i c => exact absurd ⟨i, c, rfl⟩ he.1
      | spuriousWake i => exact absurd ⟨i, rfl⟩ he.2)
    (fun s h hs => by
      obtain ⟨i, hi⟩ := h.1.exists_not_stuck h.2 hs
      refine ⟨_, (hsteps i).shift w, ?_⟩
      rintro e ⟨pick, rfl⟩
      exact h.1.step_ne hi pick)
    hlater (fun i => ⟨hcalls _, hw _ (Nat.le_add_right ..)⟩)
  exact ⟨w + k, by rwa [Machine.stateAt_add]⟩

/-- Two threads wait, and one message is pushed: one of them sleeps on. -/
theorem messages_settle_twoWaiters :
    ∃ n, (machine.stateAt (machine.run create
      [.call 0 .waitForMessage, .step 0 0, .step 0 0, .call 1 .waitForMessage, .step 1 0,
        .step 1 0, .call 2 (.pushMessage 7)] : MessageThreads (Fin 3) ℕ)
      (fun n => .step (Fin.ofNat 3 n) 0) n).Settled := by
  refine messages_settle [.call 0 .waitForMessage, .step 0 0, .step 0 0, .call 1 .waitForMessage,
    .step 1 0, .step 1 0, .call 2 (.pushMessage 7)] _ (fun n => ?_) (fun i n => ?_)
    ⟨0, fun k _ => ?_⟩
  · rintro ⟨i, c, h⟩
    cases h
  · refine ⟨3 * n + i, by omega, 0, ?_⟩
    congr 1
    ext
    simp [Fin.ofNat, Nat.mod_eq_of_lt i.isLt]
  · rintro ⟨i, h⟩
    cases h

end MessageThreads

end StreamFs
