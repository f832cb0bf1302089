import StreamFs.Base.Schedule
import StreamFs.Queue.Conservation

/-!
Nobody waits in vain on a `BufferQueue`.

The operations of a side share one condition variable, and each of them notifies all its sleepers
after it has changed the queue, when it has given the mutex back. Between the change and the
notification a sleeper can stand in front of what it waits for.

* `QueuePhase.announces`: a thread that is on its way to `notify_all`.
* `Heard`: a sleeper in front of what it waits for has such a thread. `heard_run`: this holds for
  `consumerQueue` in every run, and for `producerQueue` in runs without `clear`, which changes it
  without its mutex.
* `Settled`: every thread is outside, or sleeps because what it waits for is not there.
* `work`: the steps that all threads have left, where a notification costs each sleeper a look.
* `settles`: when the calls end, every fair schedule settles the queues.
-/

namespace StreamFs

namespace QueuePhase

variable {α : Type*}

/-- A step of `clear`. -/
def clears : QueuePhase α → Bool
  | clearLock | clearCheck _ | clearPop _ | clearNotify | clearUnlock | clearLast => true
  | _ => false

/-- The thread notifies the sleepers of a side before it does anything else there. -/
def announces (side : QueueSide) : QueuePhase α → Bool
  | unlock a _ | notify a _ => a.side = side
  | clearCheck .fill | clearPop .fill | clearNotify => side = .fill
  | _ => false

/-- The steps left, if every notification sends each of `n` threads back for a look. -/
def work (n : ℕ) : QueuePhase α → ℕ
  | giveUp _ => 1
  | notify _ _ => 2 * n + 1
  | unlock _ _ => 2 * n + 2
  | pop _ _ => 2 * n + 3
  | act _ => 2 * n + 4
  | check _ true => 2 * n + 5
  | relock _ true => 2 * n + 6
  | asleep _ => 2 * n + 7
  | check _ false => 2 * n + 8
  | relock _ false => 2 * n + 9
  | lock _ => 2 * n + 9
  | _ => 0

lemma announces_woken (side side' : QueueSide) (p : QueuePhase α) :
    (p.woken side).announces side' = p.announces side' := by
  cases p with
  | asleep a =>
      rw [woken]
      split <;> rfl
  | _ => rfl

lemma clears_woken (side : QueueSide) (p : QueuePhase α) : (p.woken side).clears = p.clears := by
  cases p with
  | asleep a =>
      rw [woken]
      split <;> rfl
  | _ => rfl

/-- The sleepers that a notification of a side leaves asleep are those of the other side. -/
lemma woken_eq_asleep {side : QueueSide} {p : QueuePhase α} {a : Access α}
    (h : p.woken side = .asleep a) : p = .asleep a ∧ a.side ≠ side := by
  cases p with
  | asleep b =>
      rw [woken] at h
      split at h
      · cases h
      · cases h
        exact ⟨rfl, ‹_›⟩
  | _ => cases h

/-- Being woken costs at most two steps. -/
lemma work_woken_le (n : ℕ) (side : QueueSide) (p : QueuePhase α) :
    (p.woken side).work n ≤ p.work n + 2 := by
  cases p with
  | asleep a =>
      rw [woken]
      split
      · exact le_rfl
      · exact Nat.le_add_right ..
  | _ => exact Nat.le_add_right ..

end QueuePhase

namespace BufferQueue

variable {ι α : Type*}

/-- A sleeper of a side in front of what it waits for is about to be notified. -/
def Heard (s : BufferQueue ι α) (side : QueueSide) : Prop :=
  ∀ i a, s.phase i = .asleep a → a.side = side → s.ready a = true →
    ∃ j, (s.phase j).announces side = true

/-- No thread is in `clear`. -/
def NoClear (s : BufferQueue ι α) : Prop := ∀ i, (s.phase i).clears = false

variable {s : BufferQueue ι α} {side : QueueSide}

lemma heard_create (queueSize : ℕ) (side : QueueSide) :
    (create queueSize : BufferQueue ι α).Heard side :=
  fun _ _ h => by cases h

lemma heard_of_announces {j : ι} (h : (s.phase j).announces side = true) : s.Heard side :=
  fun _ _ _ _ _ => ⟨j, h⟩

/-- What an operation waits for depends on the queue of its side. -/
lemma ready_congr {s' : BufferQueue ι α} (hdepth : s'.mMaxDepth = s.mMaxDepth) {a : Access α}
    (hcontents : s'.contents a.side = s.contents a.side) : s'.ready a = s.ready a := by
  obtain ⟨side, purpose⟩ := a
  cases side <;> cases purpose <;>
    simp [ready, isConsumerQueueFull, isConsumerQueueEmpty, isProducerQueueFull,
      isProducerQueueEmpty, isFull, isEmpty, hdepth, show _ = _ from hcontents]

lemma Heard.notifyAll (h : s.Heard side) (side' : QueueSide) : (s.notifyAll side').Heard side := by
  intro i a hasleep hside hready
  obtain ⟨hbefore, -⟩ := QueuePhase.woken_eq_asleep hasleep
  obtain ⟨j, hj⟩ := h i a hbefore hside hready
  exact ⟨j, (QueuePhase.announces_woken side' side _).trans hj⟩

variable [DecidableEq ι]

/-- A thread goes on, and takes a notification it owes along. -/
lemma Heard.moveTo (h : s.Heard side) {i : ι} {p : QueuePhase α}
    (hasleep : ∀ a, p = .asleep a → s.ready a = false)
    (howes : (s.phase i).announces side = true → p.announces side = true) :
    (s.moveTo i p).Heard side := by
  intro j a hj hside hready
  have hready' : s.ready a = true := hready
  change Function.update s.phase i p j = .asleep a at hj
  by_cases hji : j = i
  · rw [hji, Function.update_self] at hj
    rw [hasleep a hj] at hready'
    cases hready'
  · rw [Function.update_of_ne hji] at hj
    obtain ⟨k, hk⟩ := h j a hj hside hready'
    refine ⟨k, ?_⟩
    change (Function.update s.phase i p k).announces side = true
    by_cases hki : k = i
    · rw [hki, Function.update_self]
      exact howes (hki ▸ hk)
    · rwa [Function.update_of_ne hki]

/-- A thread locks a mutex if it can. -/
lemma Heard.lock (h : s.Heard side) {i : ι} {side' : QueueSide} {p : QueuePhase α}
    (hasleep : ∀ a, p ≠ .asleep a) (howes : (s.phase i).announces side = false) :
    (s.lock i side' p).Heard side := by
  rw [BufferQueue.lock]
  split
  · exact h.moveTo (fun a ha => absurd ha (hasleep a)) (by simp [howes])
  · exact h

/-- The queue of a side changes, and the thread owes the notification. -/
lemma heard_moveTo {i : ι} {p : QueuePhase α} (hp : p.announces side = true) :
    (s.moveTo i p).Heard side :=
  heard_of_announces (j := i) (by
    change (Function.update s.phase i p i).announces side = true
    rwa [Function.update_self])

omit [DecidableEq ι] in
/-- The queue of the other side does not matter. -/
lemma Heard.setQueue (h : s.Heard side) {side' : QueueSide} {q : LoggedQueue α}
    (hq : side' = side → q.contents = s.contents side) : (s.setQueue side' q).Heard side := by
  intro i a hasleep hside hready
  have hsame : (s.setQueue side' q).ready a = s.ready a := by
    refine ready_congr ?_ ?_
    · rfl
    rw [contents_setQueue]
    by_cases hs : a.side = side'
    · subst hside
      rw [← hs, Function.update_self, hq hs.symm]
    · rw [Function.update_of_ne hs]
  exact h i a hasleep hside (hsame ▸ hready)

/-- Nobody sleeps on a side that has just been notified. -/
lemma heard_notifyAll_moveTo {i : ι} {p : QueuePhase α} (hp : ∀ a, p ≠ .asleep a) :
    ((s.notifyAll side).moveTo i p).Heard side := by
  intro j a hj hside
  change Function.update (s.notifyAll side).phase i p j = .asleep a at hj
  by_cases hji : j = i
  · rw [hji, Function.update_self] at hj
    exact absurd hj (hp a)
  · rw [Function.update_of_ne hji] at hj
    exact absurd hside (QueuePhase.woken_eq_asleep hj).2

/-- A thread changes the queue of a side and owes the notification there. -/
lemma Heard.change (h : s.Heard side) {i : ι} {p : QueuePhase α} {side' : QueueSide}
    {q : LoggedQueue α} (hp : p.announces side' = true) (hasleep : ∀ a, p ≠ .asleep a)
    (howes : side' ≠ side → (s.phase i).announces side = false) :
    ((s.setQueue side' q).moveTo i p).Heard side := by
  by_cases hside : side' = side
  · subst hside
    exact heard_moveTo hp
  · exact (h.setQueue fun heq => absurd heq hside).moveTo (fun a ha => absurd ha (hasleep a))
      (fun ho => absurd ((howes hside).symm.trans ho) Bool.false_ne_true)

/-- A thread notifies the sleepers of a side. -/
lemma Heard.notify (h : s.Heard side) {i : ι} {p : QueuePhase α} {side' : QueueSide}
    (hasleep : ∀ a, p ≠ .asleep a) (howes : side' ≠ side → (s.phase i).announces side = false) :
    ((s.notifyAll side').moveTo i p).Heard side := by
  by_cases hside : side' = side
  · subst hside
    exact heard_notifyAll_moveTo hasleep
  · refine (h.notifyAll side').moveTo (fun a ha => absurd ha (hasleep a)) fun ho => ?_
    have hbefore := (QueuePhase.announces_woken side' side (s.phase i)).symm.trans ho
    exact absurd ((howes hside).symm.trans hbefore) Bool.false_ne_true

/-! ### Every step -/

/-- **A step of a thread.** -/
lemma Heard.step (h : s.Heard side) {i : ι} (hclear : side = .fill ∨ (s.phase i).clears = false) :
    (s.step i).1.Heard side := by
  rw [BufferQueue.step]
  cases hphase : s.phase i with
  | idle => exact h
  | asleep a => exact h
  | lock a => exact h.lock (by simp) (by rw [hphase]; rfl)
  | relock a timedOut => exact h.lock (by simp) (by rw [hphase]; rfl)
  | clearLock => exact h.lock (by simp) (by rw [hphase]; rfl)
  | check a timedOut =>
      refine h.moveTo (fun b hb => ?_) (by rw [hphase]; exact fun h => by cases h)
      split_ifs at hb with hready
      · cases hb
        exact Bool.eq_false_of_not_eq_true hready
  | act a =>
      obtain ⟨side', purpose⟩ := a
      cases purpose with
      | put req =>
          exact h.change (by simp [QueuePhase.announces]) (by simp) (fun _ => by rw [hphase]; rfl)
      | take timed =>
          have hread : (s.setQueue side' (s.queue side').readFront).Heard side :=
            h.setQueue fun heq => by rw [heq]; rfl
          dsimp only
          split
          · refine hread.moveTo (by simp) fun ho => ?_
            change (s.phase i).announces side = true at ho
            rw [hphase] at ho
            cases ho
          · exact hread
  | pop a req =>
      exact h.change (by simp [QueuePhase.announces]) (by simp) (fun _ => by rw [hphase]; rfl)
  | unlock a reply =>
      refine h.moveTo (by simp) fun ho => ?_
      rw [hphase] at ho
      exact ho
  | notify a reply =>
      refine h.notify (by simp) fun hne => ?_
      rw [hphase]
      exact decide_eq_false hne
  | giveUp a => exact h.moveTo (by simp) (by rw [hphase]; exact fun h => by cases h)
  | clearCheck side' =>
      cases side' with
      | fill =>
          refine h.moveTo (by split_ifs <;> simp) fun ho => ?_
          rw [hphase] at ho
          split_ifs <;> exact ho
      | empty =>
          refine h.moveTo (by split_ifs <;> simp) fun ho => ?_
          rw [hphase] at ho
          cases ho
  | clearPop side' =>
      cases side' with
      | fill =>
          refine h.change (by simp [QueuePhase.announces]) (by simp) fun hne => ?_
          rw [hphase]
          exact decide_eq_false fun heq => hne heq.symm
      | empty =>
          obtain rfl : side = .fill :=
            hclear.resolve_right (by rw [hphase]; simp [QueuePhase.clears])
          refine (h.setQueue fun heq => by cases heq).moveTo (by simp) fun ho => ?_
          change (s.phase i).announces .fill = true at ho
          rw [hphase] at ho
          cases ho
  | clearNotify =>
      refine h.notify (by simp) fun hne => ?_
      rw [hphase]
      exact decide_eq_false fun heq => hne heq.symm
  | clearUnlock => exact h.moveTo (by simp) (by rw [hphase]; exact fun h => by cases h)
  | clearLast => exact h.notify (by simp) (fun _ => by rw [hphase]; rfl)

/-- A step of a thread that is not in `clear`. -/
lemma NoClear.moveTo (h : s.NoClear) {i : ι} {p : QueuePhase α} (hp : p.clears = false) :
    (s.moveTo i p).NoClear := by
  intro j
  change (Function.update s.phase i p j).clears = false
  by_cases hji : j = i
  · rw [hji, Function.update_self]
    exact hp
  · rw [Function.update_of_ne hji]
    exact h j

omit [DecidableEq ι] in
lemma NoClear.notifyAll (h : s.NoClear) (side : QueueSide) : (s.notifyAll side).NoClear :=
  fun i => (QueuePhase.clears_woken side _).trans (h i)

lemma NoClear.lock (h : s.NoClear) {i : ι} {side : QueueSide} {p : QueuePhase α}
    (hp : p.clears = false) : (s.lock i side p).NoClear := by
  rw [BufferQueue.lock]
  split
  · exact h.moveTo hp
  · exact h

lemma NoClear.step (h : s.NoClear) (i : ι) : (s.step i).1.NoClear := by
  have hi := h i
  rw [BufferQueue.step]
  cases hphase : s.phase i with
  | idle | asleep a => exact h
  | lock a | relock a timedOut => exact h.lock rfl
  | check a timedOut => exact h.moveTo (by split_ifs <;> rfl)
  | act a =>
      obtain ⟨side', purpose⟩ := a
      cases purpose with
      | put req => exact NoClear.moveTo (s := s.setQueue side' _) h rfl
      | take timed =>
          dsimp only
          split
          · exact NoClear.moveTo (s := s.setQueue side' _) h rfl
          · exact h
  | pop a req => exact NoClear.moveTo (s := s.setQueue a.side _) h rfl
  | unlock a reply => exact h.moveTo rfl
  | notify a reply => exact (h.notifyAll a.side).moveTo rfl
  | giveUp a => exact h.moveTo rfl
  | _ =>
      rw [hphase] at hi
      cases hi

/-- The event calls `clear`. -/
def CallsClear (e : QueueEvent ι α) : Prop := ∃ i, e = .call i .clear

lemma NoClear.next (h : s.NoClear) {e : QueueEvent ι α} (he : ¬ CallsClear e) :
    (machine.next s e).NoClear := by
  cases e with
  | step i => exact h.step i
  | call i c =>
      rw [Machine.next, machine]
      dsimp only
      split
      · refine h.moveTo ?_
        cases c with
        | clear => exact absurd ⟨i, rfl⟩ he
        | _ => rfl
      · exact h
  | timeout i =>
      change (s.timeout i).NoClear
      rw [timeout]
      split
      · exact h.moveTo rfl
      · exact h
  | spuriousWake i =>
      change (s.spuriousWake i).NoClear
      rw [spuriousWake]
      split
      · exact h.moveTo rfl
      · exact h

/-- **An event.** -/
lemma Heard.next (h : s.Heard side) (hclear : side = .fill ∨ s.NoClear) (e : QueueEvent ι α) :
    (machine.next s e).Heard side := by
  cases e with
  | step i => exact h.step (hclear.imp_right fun h => h i)
  | call i c =>
      rw [Machine.next, machine]
      dsimp only
      split
      · rename_i hphase
        refine h.moveTo (fun a ha => ?_) (by rw [hphase]; exact fun h => by cases h)
        cases c <;> cases ha
      · exact h
  | timeout i =>
      change (s.timeout i).Heard side
      rw [timeout]
      split
      · rename_i hphase
        exact h.moveTo (by simp) (by rw [hphase]; exact fun h => by cases h)
      · exact h
  | spuriousWake i =>
      change (s.spuriousWake i).Heard side
      rw [spuriousWake]
      split
      · rename_i hphase
        exact h.moveTo (by simp) (by rw [hphase]; exact fun h => by cases h)
      · exact h

/-- **Nobody waits in vain.** In every run, a thread that sleeps on a side although what it waits
for is there has another thread on its way to notify it: on `consumerQueue` always, and on
`producerQueue` where nobody calls `clear`. -/
theorem heard_run (queueSize : ℕ) (es : List (QueueEvent ι α)) (side : QueueSide)
    (hclear : side = .fill ∨ ∀ e ∈ es, ¬ CallsClear e) :
    (machine.run (create queueSize) es).Heard side := by
  rcases hclear with rfl | hclear
  · exact Machine.invariant_run (I := fun s : BufferQueue ι α => s.Heard .fill)
      (fun _ e h => h.next (.inl rfl) e) (heard_create queueSize .fill) es
  · have hrun := Machine.invariant_run_of_events (m := machine)
      (I := fun s : BufferQueue ι α => s.Heard side ∧ s.NoClear) (K := fun e => ¬ CallsClear e)
      (fun _ e h he => ⟨h.1.next (.inr h.2) e, h.2.next he⟩)
      ⟨heard_create queueSize side, fun _ => rfl⟩ hclear
    exact hrun.1

/-- A consumer sleeps, and an element is put in that it has not been notified of. -/
theorem heard_run_consumer :
    (machine.run (create 2) [.call 0 .consume, .step 0, .step 0, .call 1 (.queue 7), .step 1,
      .step 1, .step 1] : BufferQueue (Fin 2) ℕ).Heard .fill :=
  heard_run 2 [.call 0 .consume, .step 0, .step 0, .call 1 (.queue 7), .step 1, .step 1, .step 1]
    .fill (.inl rfl)

/-! ### When the calls end -/

/-- Every thread is outside, or sleeps because what it waits for is not there. -/
def Settled (s : BufferQueue ι α) : Prop :=
  ∀ i, s.phase i = .idle ∨ ∃ a, s.phase i = .asleep a ∧ s.ready a = false

/-- Thread `i` can take no step: it is outside, asleep, or in front of a mutex of another. -/
def Stuck (s : BufferQueue ι α) (i : ι) : Prop :=
  s.phase i = .idle ∨ (∃ a, s.phase i = .asleep a) ∨
    ∃ a, (s.phase i = .lock a ∨ ∃ timedOut, s.phase i = .relock a timedOut) ∧
      s.mutex a.side ≠ none

variable [Fintype ι]

/-- The steps that all threads have left. -/
def work (s : BufferQueue ι α) : ℕ := ∑ i, (s.phase i).work (Fintype.card ι)

/-- A thread goes on to a phase with less to do. -/
lemma work_moveTo_lt {i : ι} {p : QueuePhase α}
    (hp : p.work (Fintype.card ι) < (s.phase i).work (Fintype.card ι)) :
    (s.moveTo i p).work < s.work := by
  refine Finset.sum_lt_sum (fun j _ => ?_) ⟨i, Finset.mem_univ i, ?_⟩
  · change (Function.update s.phase i p j).work _ ≤ _
    by_cases hji : j = i
    · rw [hji, Function.update_self]
      exact hp.le
    · rw [Function.update_of_ne hji]
  · change (Function.update s.phase i p i).work _ < _
    rwa [Function.update_self]

/-- A notification costs each other thread two steps at most, and its thread had more left. -/
lemma work_notify_lt {i : ι} {a : Access α} {reply : QueueReply α}
    (hphase : s.phase i = .notify a reply) :
    ((s.notifyAll a.side).moveTo i .idle).work < s.work := by
  have hrest : ∀ j ∈ Finset.univ.erase i,
      (((s.notifyAll a.side).moveTo i .idle).phase j).work (Fintype.card ι)
        ≤ (s.phase j).work (Fintype.card ι) + 2 := by
    intro j hj
    change (Function.update (s.notifyAll a.side).phase i .idle j).work _ ≤ _
    rw [Function.update_of_ne (Finset.ne_of_mem_erase hj)]
    exact QueuePhase.work_woken_le _ _ _
  have hself : (((s.notifyAll a.side).moveTo i .idle).phase i).work (Fintype.card ι) = 0 := by
    change (Function.update (s.notifyAll a.side).phase i .idle i).work _ = 0
    rw [Function.update_self]
    rfl
  have hcard : (Finset.univ.erase i).card ≤ Fintype.card ι := Finset.card_erase_le
  rw [work, work, ← Finset.add_sum_erase _ _ (Finset.mem_univ i), hself, zero_add,
    ← Finset.add_sum_erase _ (fun j => (s.phase j).work (Fintype.card ι)) (Finset.mem_univ i),
    hphase]
  calc ∑ j ∈ Finset.univ.erase i,
        (((s.notifyAll a.side).moveTo i .idle).phase j).work (Fintype.card ι)
      ≤ ∑ j ∈ Finset.univ.erase i, ((s.phase j).work (Fintype.card ι) + 2) :=
        Finset.sum_le_sum hrest
    _ = (∑ j ∈ Finset.univ.erase i, (s.phase j).work (Fintype.card ι))
          + (Finset.univ.erase i).card * 2 := by
        rw [Finset.sum_add_distrib, Finset.sum_const, smul_eq_mul]
    _ < (QueuePhase.notify a reply).work (Fintype.card ι)
          + ∑ j ∈ Finset.univ.erase i, (s.phase j).work (Fintype.card ι) := by
        rw [QueuePhase.work]
        omega

/-- **What a step does to the work**: the thread is stuck, or all together have less to do. -/
lemma Sound.step_cases (hs : s.Sound) {i : ι} (hclear : (s.phase i).clears = false) :
    (s.step i).1 = s ∧ s.Stuck i ∨ (s.step i).1.work < s.work := by
  rw [BufferQueue.step]
  cases hphase : s.phase i with
  | idle => exact .inl ⟨rfl, .inl hphase⟩
  | asleep a => exact .inl ⟨rfl, .inr (.inl ⟨a, hphase⟩)⟩
  | lock a =>
      dsimp only
      rw [BufferQueue.lock]
      split_ifs with hfree
      · refine .inr (work_moveTo_lt ?_)
        rw [hphase]
        exact Nat.lt_succ_self _
      · exact .inl ⟨rfl, .inr (.inr ⟨a, .inl hphase, hfree⟩)⟩
  | relock a timedOut =>
      dsimp only
      rw [BufferQueue.lock]
      split_ifs with hfree
      · refine .inr (work_moveTo_lt ?_)
        rw [hphase]
        cases timedOut <;> exact Nat.lt_succ_self _
      · exact .inl ⟨rfl, .inr (.inr ⟨a, .inr ⟨timedOut, hphase⟩, hfree⟩)⟩
  | check a timedOut =>
      refine .inr (work_moveTo_lt ?_)
      rw [hphase]
      cases timedOut <;> split_ifs <;> simp [QueuePhase.work] at *
  | act a =>
      obtain ⟨side', purpose⟩ := a
      cases purpose with
      | put req =>
          refine .inr ((work_moveTo_lt (s := s.setQueue side' _) ?_).trans_eq rfl)
          change _ < (s.phase i).work _
          rw [hphase]
          simp [QueuePhase.work]
      | take timed =>
          obtain ⟨req, hreq, -⟩ := hs.readFront hphase
          simp only [hreq]
          refine .inr ((work_moveTo_lt (s := s.setQueue side' _) ?_).trans_eq rfl)
          change _ < (s.phase i).work _
          rw [hphase]
          simp [QueuePhase.work]
  | pop a req =>
      refine .inr ((work_moveTo_lt (s := s.setQueue a.side _) ?_).trans_eq rfl)
      change _ < (s.phase i).work _
      rw [hphase]
      simp [QueuePhase.work]
  | unlock a reply =>
      refine .inr (work_moveTo_lt ?_)
      rw [hphase]
      simp [QueuePhase.work]
  | notify a reply => exact .inr (work_notify_lt hphase)
  | giveUp a =>
      refine .inr (work_moveTo_lt ?_)
      rw [hphase]
      simp [QueuePhase.work]
  | _ =>
      rw [hphase] at hclear
      cases hclear

/-- The queues are sound, nobody clears them, and nobody waits in vain. -/
structure Orderly (s : BufferQueue ι α) : Prop where
  sound : s.Sound
  noClear : s.NoClear
  heard : ∀ side, s.Heard side

omit [Fintype ι] in
lemma Orderly.next (h : s.Orderly) {e : QueueEvent ι α} (he : ¬ CallsClear e) :
    (machine.next s e).Orderly where
  sound := h.sound.next fun i _ j => by
    have hi : (s.phase i).atClearPop = false := by
      refine Bool.eq_false_of_not_eq_true fun hclear => ?_
      have hno := h.noClear i
      rw [QueuePhase.eq_of_atClearPop hclear] at hno
      cases hno
    have hj : (s.phase j).atClearPop = false := by
      refine Bool.eq_false_of_not_eq_true fun hclear => ?_
      have hno := h.noClear j
      rw [QueuePhase.eq_of_atClearPop hclear] at hno
      cases hno
    exact ⟨fun hclear => absurd (hi.symm.trans hclear) Bool.false_ne_true,
      fun _ hclear => absurd (hj.symm.trans hclear) Bool.false_ne_true⟩
  noClear := h.noClear.next he
  heard side := (h.heard side).next (.inr h.noClear) e

/-- A thread that owes a notification, or holds a mutex, is not stuck. -/
lemma Orderly.step_ne (h : s.Orderly) {i : ι} (hi : ¬ s.Stuck i) :
    machine.next s (.step i) ≠ s := by
  intro heq
  rcases h.sound.step_cases (h.noClear i) with ⟨-, hstuck⟩ | hlt
  · exact hi hstuck
  · exact hlt.ne (congrArg work (show (s.step i).1 = s from heq))

omit [Fintype ι] [DecidableEq ι] in
lemma not_stuck_of_holds {i : ι} (h : (s.phase i).holds side = true) : ¬ s.Stuck i := by
  rintro (hphase | ⟨a, hphase⟩ | ⟨a, hphase | ⟨timedOut, hphase⟩, -⟩) <;>
  · rw [hphase] at h
    cases h

omit [Fintype ι] [DecidableEq ι] in
lemma not_stuck_of_announces {i : ι} (h : (s.phase i).announces side = true) : ¬ s.Stuck i := by
  rintro (hphase | ⟨a, hphase⟩ | ⟨a, hphase | ⟨timedOut, hphase⟩, -⟩) <;>
  · rw [hphase] at h
    cases h

/-- Where the queues are not settled, some thread can take a step. -/
lemma Orderly.exists_step (h : s.Orderly) (hs : ¬ s.Settled) :
    ∃ i, machine.next s (.step i) ≠ s := by
  rw [Settled, not_forall] at hs
  obtain ⟨i, hi⟩ := hs
  rw [not_or] at hi
  by_cases hstuck : s.Stuck i
  swap
  · exact ⟨i, h.step_ne hstuck⟩
  rcases hstuck with hidle | ⟨a, hasleep⟩ | ⟨a, -, hmutex⟩
  · exact absurd hidle hi.1
  · -- what the sleeper waits for is there, so that somebody owes it a notification
    have hready : s.ready a = true := by
      by_contra hready
      exact hi.2 ⟨a, hasleep, Bool.eq_false_of_not_eq_true hready⟩
    obtain ⟨j, hj⟩ := h.heard a.side i a hasleep rfl hready
    exact ⟨j, h.step_ne (not_stuck_of_announces hj)⟩
  · -- the holder of the mutex goes on
    obtain ⟨k, hk⟩ := Option.ne_none_iff_exists'.mp hmutex
    exact ⟨k, h.step_ne (not_stuck_of_holds ((h.sound.guards a.side k).mpr hk))⟩

/-- The event ends a sleep for no reason. -/
def EndsSleep (e : QueueEvent ι α) : Prop := ∃ i, e = .spuriousWake i

/-- The event is a call. -/
def Calls (e : QueueEvent ι α) : Prop := ∃ i c, e = .call i c

/-- Without calls and without wake-ups for no reason an event has no effect, or less is left to
do. -/
lemma Orderly.work_next (h : s.Orderly) {e : QueueEvent ι α} (he : ¬ Calls e) (hw : ¬ EndsSleep e) :
    machine.next s e = s ∨ (machine.next s e).work < s.work := by
  cases e with
  | step i => exact (h.sound.step_cases (h.noClear i)).imp_left And.left
  | call i c => exact absurd ⟨i, c, rfl⟩ he
  | spuriousWake i => exact absurd ⟨i, rfl⟩ hw
  | timeout i =>
      change s.timeout i = s ∨ (s.timeout i).work < s.work
      rw [timeout]
      split
      · rename_i hphase
        refine .inr (work_moveTo_lt ?_)
        rw [hphase]
        simp [QueuePhase.work]
      · exact .inl rfl

/-- **The queues settle.** Let any number of threads have called any of `queue`, `acquire`,
`consume` and `release` in any run, and let no more calls come. In every schedule that goes on with
each thread, and has finitely many wake-ups for no reason, all calls return but for those that wait
for an element of an empty queue or for room in a full one. The size of the queues is one that an
`int` takes. -/
theorem settles (queueSize : ℕ) (hsize : queueSize % 2 ^ 32 < 2 ^ 31) (es : List (QueueEvent ι α))
    (hclear : ∀ e ∈ es, ¬ CallsClear e) (f : ℕ → QueueEvent ι α) (hcalls : ∀ n, ¬ Calls (f n))
    (hsteps : ∀ i, Recurs f (.step i)) (hwakes : ∃ n, ∀ k, n ≤ k → ¬ EndsSleep (f k)) :
    ∃ n, (machine.stateAt (machine.run (create queueSize) es) f n).Settled := by
  have hcallsClear : ∀ e : QueueEvent ι α, ¬ Calls e → ¬ CallsClear e := fun e he ⟨i, hi⟩ =>
    he ⟨i, .clear, hi⟩
  have hcreate : (create queueSize : BufferQueue ι α).Orderly :=
    ⟨sound_create hsize, fun _ => rfl, heard_create queueSize⟩
  have hstart : (machine.run (create queueSize) es).Orderly :=
    Machine.invariant_run_of_events (K := fun e => ¬ CallsClear e) (fun _ _ h he => h.next he)
      hcreate hclear
  obtain ⟨w, hw⟩ := hwakes
  have hlater : (machine.stateAt (machine.run (create queueSize) es) f w).Orderly := by
    rw [Machine.stateAt_eq_run]
    refine Machine.invariant_run_of_events (K := fun e => ¬ CallsClear e)
      (fun _ _ h he => h.next he) hstart fun e he => ?_
    obtain ⟨k, -, rfl⟩ := List.mem_map.mp he
    exact hcallsClear _ (hcalls k)
  obtain ⟨k, hk⟩ := Machine.eventually_of_rank (m := machine) (f := fun i => f (w + i)) Orderly
    Settled (fun e => ¬ Calls e ∧ ¬ EndsSleep e) work
    (fun _ _ h he => h.next (hcallsClear _ he.1)) (fun _ _ h he => h.work_next he.1 he.2)
    (fun s h hs => (h.exists_step hs).elim fun i hi => ⟨_, (hsteps i).shift w, hi⟩) hlater
    (fun i => ⟨hcalls _, hw _ (Nat.le_add_right ..)⟩)
  exact ⟨w + k, by rwa [Machine.stateAt_add]⟩

/-- Two consumers wait, and one element is put in: one of them sleeps on. -/
theorem settles_twoConsumers :
    ∃ n, (machine.stateAt (machine.run (create 2)
      [.call 0 .consume, .step 0, .step 0, .call 1 .consume, .step 1, .step 1,
        .call 2 (.queue 7), .step 2] : BufferQueue (Fin 3) ℕ)
      (fun n => .step (Fin.ofNat 3 n)) n).Settled := by
  refine settles 2 (by decide) [.call 0 .consume, .step 0, .step 0, .call 1 .consume, .step 1,
    .step 1, .call 2 (.queue 7), .step 2] (fun e he => ?_) _ (fun n => ?_) (fun i n => ?_)
    ⟨0, fun k _ => ?_⟩
  · rintro ⟨i, rfl⟩
    simp at he
  · rintro ⟨i, c, h⟩
    cases h
  · refine ⟨3 * n + i, by omega, ?_⟩
    congr 1
    ext
    simp [Fin.ofNat, Nat.mod_eq_of_lt i.isLt]
  · rintro ⟨i, h⟩
    cases h

end BufferQueue

end StreamFs
