import StreamFs.Queue.BufferQueue

/-!
What `BufferQueue` conserves, and what `clear` does to it.

* `Conserved`: no queue is too long, what leaves a queue is what was put in, in order, and no
  `front` or `pop` is executed on an empty queue.
* `KeepsApart`: a step of `clear` in `producerQueue`, for which it does not hold `emptyM`, and a
  step of `acquire` keep out of each other's way.
* `QueuePhase.Expects`: what a thread relies on between its check and its next step. It goes on
  being so when another thread puts in, takes or clears (`Expects.push`, `Expects.pop`,
  `Expects.clearPop`).
* `Sound`: everything is conserved and every thread finds what it relies on. `Sound.step`: a step
  that keeps apart leaves it so. `Sound.exists_not_conserved`: one that does not goes wrong.
* `conserved_iff`: in runs of steps that keep apart everything is conserved, for the queue sizes
  that an `int` can hold.
-/

namespace StreamFs

namespace QueuePhase

variable {α : Type*}

/-- An `acquire` that has found an element reads it next. -/
def atFront : QueuePhase α → Bool
  | act ⟨.empty, .take _⟩ => true
  | _ => false

/-- An `acquire` that has read its element removes it next. -/
def atPop : QueuePhase α → Bool
  | pop ⟨.empty, _⟩ _ => true
  | _ => false

/-- A `clear` removes an element of `producerQueue` next. -/
def atClearPop : QueuePhase α → Bool
  | clearPop .empty => true
  | _ => false

/-- What a thread relies on from its check to its next step. -/
def Expects (mMaxDepth : ℤ) (contents : QueueSide → List α) : QueuePhase α → Prop
  | act ⟨side, .put _⟩ => ((contents side).length : ℤ) < mMaxDepth
  | act ⟨side, .take _⟩ => contents side ≠ []
  | pop a req => (contents a.side).head? = some req
  | clearPop side => contents side ≠ []
  | _ => True

variable {p : QueuePhase α} {mMaxDepth : ℤ} {contents : QueueSide → List α} {side : QueueSide}

lemma exists_of_atFront (h : p.atFront = true) : ∃ timed, p = .act ⟨.empty, .take timed⟩ := by
  cases p with
  | act a =>
      obtain ⟨side, purpose⟩ := a
      cases side with
      | fill => cases h
      | empty =>
          cases purpose with
          | put req => cases h
          | take timed => exact ⟨timed, rfl⟩
  | _ => cases h

lemma exists_of_atPop (h : p.atPop = true) : ∃ purpose req, p = .pop ⟨.empty, purpose⟩ req := by
  cases p with
  | pop a req =>
      obtain ⟨side, purpose⟩ := a
      cases side with
      | fill => cases h
      | empty => exact ⟨purpose, req, rfl⟩
  | _ => cases h

lemma eq_of_atClearPop (h : p.atClearPop = true) : p = .clearPop .empty := by
  cases p with
  | clearPop side =>
      cases side with
      | fill => cases h
      | empty => rfl
  | _ => cases h

/-- `clear` holds `fillM` while it empties `producerQueue`. -/
lemma holds_fill_of_atClearPop (h : p.atClearPop = true) : p.holds .fill = true := by
  rw [eq_of_atClearPop h]
  rfl

/-- A thread without the mutex of a side does not rely on its queue, but for `clear`. -/
lemma Expects.update (h : p.Expects mMaxDepth contents) (hholds : p.holds side = false)
    (hclear : p ≠ .clearPop side) (l : List α) :
    p.Expects mMaxDepth (Function.update contents side l) := by
  cases p with
  | act a =>
      obtain ⟨side', purpose⟩ := a
      have hne : side' ≠ side := by simpa [holds] using hholds
      cases purpose <;> simpa [Expects, Function.update_of_ne hne] using h
  | pop a req =>
      have hne : a.side ≠ side := by simpa [holds] using hholds
      simpa [Expects, Function.update_of_ne hne] using h
  | clearPop side' =>
      have hne : side' ≠ side := by
        rintro rfl
        exact hclear rfl
      simpa [Expects, Function.update_of_ne hne] using h
  | _ => trivial

/-- It does not mind what another thread puts in. -/
lemma Expects.push (h : p.Expects mMaxDepth contents) (hholds : p.holds side = false) (req : α) :
    p.Expects mMaxDepth (Function.update contents side (contents side ++ [req])) := by
  by_cases hclear : p = .clearPop side
  · rw [hclear]
    simp [Expects]
  · exact h.update hholds hclear _

/-- It does not mind what another thread takes, as long as an element is left for `clear`. -/
lemma Expects.pop (h : p.Expects mMaxDepth contents) (hholds : p.holds side = false)
    (hleft : p.atClearPop → 1 < (contents .empty).length) :
    p.Expects mMaxDepth (Function.update contents side (contents side).tail) := by
  by_cases hclear : p = .clearPop side
  · subst hclear
    cases side with
    | fill => cases hholds
    | empty => simpa [Expects] using LoggedQueue.tail_ne_nil (hleft rfl)
  · exact h.update hholds hclear _

/-- It does not mind what `clear` removes from `producerQueue`, as long as this is not the element
that it is about to take. -/
lemma Expects.clearPop (h : p.Expects mMaxDepth contents) (hholds : p.holds .fill = false)
    (hpop : p.atPop = false) (hfront : p.atFront → 1 < (contents .empty).length) :
    p.Expects mMaxDepth (Function.update contents .empty (contents .empty).tail) := by
  cases hempty : p.holds .empty with
  | false =>
      refine h.pop hempty fun hclear => ?_
      rw [holds_fill_of_atClearPop hclear] at hholds
      cases hholds
  | true =>
      cases p with
      | act a =>
          obtain ⟨side, purpose⟩ := a
          obtain rfl : side = .empty := by simpa [holds] using hempty
          cases purpose with
          | put req =>
              have hroom : ((contents .empty).length : ℤ) < mMaxDepth := h
              simp only [Expects, Function.update_self, List.length_tail]
              omega
          | take timed =>
              simpa [Expects] using LoggedQueue.tail_ne_nil (hfront rfl)
      | pop a req =>
          obtain ⟨side, purpose⟩ := a
          obtain rfl : side = .empty := by simpa [holds] using hempty
          cases hpop
      | clearPop side => cases hholds
      | _ => trivial

end QueuePhase

namespace BufferQueue

variable {ι α : Type*}

/-- No queue is longer than `mMaxDepth`, what has been put in is what has left and what is there, in
order, and no `front` or `pop` has been executed on an empty queue. -/
def Conserved (s : BufferQueue ι α) : Prop :=
  ∀ side, ((s.contents side).length : ℤ) ≤ s.mMaxDepth ∧ (s.queue side).Intact

/-- A step of `clear` that removes an element of `producerQueue` leaves alone the element that an
`acquire` has read, and another one for an `acquire` that is about to read. A step of `acquire` that
removes an element leaves another one for a `clear` that is about to remove it. -/
def KeepsApart (t : Transition (BufferQueue ι α) (QueueEvent ι α) (Option (QueueReply α))) : Prop :=
  ∀ i, t.event.stepper = some i → ∀ j,
    ((t.before.phase i).atClearPop → (t.before.phase j).atPop = false ∧
      ((t.before.phase j).atFront → 1 < (t.before.contents .empty).length)) ∧
    ((t.before.phase i).atPop → (t.before.phase j).atClearPop →
      1 < (t.before.contents .empty).length)

instance [Fintype ι] : DecidablePred (@KeepsApart ι α) :=
  fun _ => inferInstanceAs (Decidable (∀ _, _ = some _ → ∀ _, _))

/-- Where nothing has gone wrong: the owners are the threads whose phase says so, everything is
conserved, and every thread finds what it relies on. -/
structure Sound (s : BufferQueue ι α) : Prop where
  guards : ∀ side, Mutex.Guards (QueuePhase.holds side) s.phase (s.mutex side)
  conserved : s.Conserved
  expects : ∀ i, (s.phase i).Expects s.mMaxDepth s.contents

variable {s : BufferQueue ι α}

/-- Everything is conserved at first iff an `int` holds the queue size as a depth. -/
lemma conserved_create_iff {queueSize : ℕ} :
    (create queueSize : BufferQueue ι α).Conserved ↔ queueSize % 2 ^ 32 < 2 ^ 31 := by
  have hmod : toInt32 queueSize % 2 ^ 32 = queueSize % 2 ^ 32 := toInt32_emod _
  have hlow := neg_le_toInt32 queueSize
  have hlt := toInt32_lt queueSize
  constructor
  · intro h
    have hdepth : 0 ≤ toInt32 queueSize := by
      simpa [contents, create, LoggedQueue.empty] using (h .fill).1
    omega
  · intro h side
    have hdepth : 0 ≤ toInt32 queueSize := by omega
    exact ⟨by simpa [contents, create, LoggedQueue.empty] using hdepth, LoggedQueue.intact_empty⟩

lemma sound_create {queueSize : ℕ} (h : queueSize % 2 ^ 32 < 2 ^ 31) :
    (create queueSize : BufferQueue ι α).Sound where
  guards _ := Mutex.guards_none fun _ => rfl
  conserved := conserved_create_iff.mpr h
  expects _ := trivial

lemma contents_setQueue (s : BufferQueue ι α) (side : QueueSide) (q : LoggedQueue α) :
    (s.setQueue side q).contents = Function.update s.contents side q.contents := by
  funext side'
  by_cases h : side' = side
  · subst h
    simp [contents, setQueue]
  · simp [contents, setQueue, Function.update_of_ne h]

/-- `notify_all` changes only where the sleepers stand. -/
lemma Sound.notifyAll (hs : s.Sound) (side : QueueSide) : (s.notifyAll side).Sound where
  guards side' := by
    refine Mutex.Guards.map (f := QueuePhase.woken side) (hs.guards side') fun p => ?_
    cases p with
    | asleep a =>
        rw [QueuePhase.woken]
        split <;> rfl
    | _ => rfl
  conserved := hs.conserved
  expects i := by
    have hi := hs.expects i
    simp only [BufferQueue.notifyAll]
    cases hphase : s.phase i with
    | asleep a =>
        rw [QueuePhase.woken]
        split <;> trivial
    | _ => rwa [hphase] at hi

variable [DecidableEq ι]

/-- **A thread goes on** from one phase to another and changes the queue of a side. -/
lemma Sound.setQueue_go (hs : s.Sound) {i : ι} {p p' : QueuePhase α} {side : QueueSide}
    {q : LoggedQueue α} (hphase : s.phase i = p)
    (hholds : ∀ side', p'.holds side' = true → p.holds side' = true)
    (hintact : q.Intact) (hle : (q.contents.length : ℤ) ≤ s.mMaxDepth)
    (hexpects : p'.Expects s.mMaxDepth (Function.update s.contents side q.contents))
    (hothers : ∀ j, j ≠ i →
      (s.phase j).Expects s.mMaxDepth (Function.update s.contents side q.contents)) :
    ((s.setQueue side q).moveTo i p').Sound where
  guards side' := (hs.guards side').passOn fun h => .inr (by
    rw [hphase]
    exact hholds side' h)
  conserved side' := by
    change (((s.setQueue side q).contents side').length : ℤ) ≤ s.mMaxDepth ∧
      (Function.update s.queue side q side').Intact
    rw [contents_setQueue]
    by_cases h : side' = side
    · subst h
      simpa using ⟨hle, hintact⟩
    · rw [Function.update_of_ne h, Function.update_of_ne h]
      exact hs.conserved side'
  expects j := by
    change (Function.update s.phase i p' j).Expects s.mMaxDepth (s.setQueue side q).contents
    rw [contents_setQueue]
    by_cases h : j = i
    · subst h
      rwa [Function.update_self]
    · rw [Function.update_of_ne h]
      exact hothers j h

/-- A thread goes on and leaves the queues alone. -/
lemma Sound.moveTo (hs : s.Sound) {i : ι} {p : QueuePhase α}
    (hfree : ∀ side, p.holds side = true → s.mutex side = none ∨ (s.phase i).holds side = true)
    (hexpects : p.Expects s.mMaxDepth s.contents) : (s.moveTo i p).Sound where
  guards side := (hs.guards side).passOn (hfree side)
  conserved := hs.conserved
  expects j := by
    change (Function.update s.phase i p j).Expects s.mMaxDepth s.contents
    by_cases h : j = i
    · subst h
      rwa [Function.update_self]
    · rw [Function.update_of_ne h]
      exact hs.expects j

/-- A thread locks a mutex if it can. -/
lemma Sound.lock (hs : s.Sound) {i : ι} {side : QueueSide} {p : QueuePhase α}
    (hholds : ∀ side', p.holds side' = true → side' = side)
    (hexpects : p.Expects s.mMaxDepth s.contents) : (s.lock i side p).Sound := by
  rw [BufferQueue.lock]
  split
  · rename_i hfree
    refine hs.moveTo (fun side' h => .inl ?_) hexpects
    rw [hholds side' h, hfree]
  · exact hs

omit [DecidableEq ι] in
/-- The mutex of a side is held once. -/
lemma Sound.holds_eq_false (hs : s.Sound) {i j : ι} {side : QueueSide}
    (hi : (s.phase i).holds side = true) (hne : j ≠ i) : (s.phase j).holds side = false := by
  rw [Bool.eq_false_iff]
  exact fun hj => hne ((hs.guards side).unique hj hi)

omit [DecidableEq ι] in
lemma Sound.length_pop_le (hs : s.Sound) (side : QueueSide) (departure : α → Departure α) :
    (((s.queue side).pop departure).contents.length : ℤ) ≤ s.mMaxDepth := by
  have hle : ((s.queue side).contents.length : ℤ) ≤ s.mMaxDepth := (hs.conserved side).1
  rw [LoggedQueue.contents_pop, List.length_tail]
  omega

/-! ### The steps -/

/-- An element is put in. -/
lemma Sound.put (hs : s.Sound) {i : ι} {side : QueueSide} {req : α}
    (hphase : s.phase i = .act ⟨side, .put req⟩) :
    ((s.setQueue side ((s.queue side).push req)).moveTo i
      (.unlock ⟨side, .put req⟩ .done)).Sound := by
  have hi := hs.expects i
  rw [hphase] at hi
  have hroom : ((s.contents side).length : ℤ) < s.mMaxDepth := hi
  have hholds : (s.phase i).holds side = true := by simp [hphase, QueuePhase.holds]
  refine hs.setQueue_go hphase (fun side' h => h) ((hs.conserved side).2.push req) ?_ trivial
    fun j hne => (hs.expects j).push (hs.holds_eq_false hholds hne) req
  rw [LoggedQueue.contents_push, List.length_append, List.length_singleton]
  change ((((s.contents side).length + 1 : ℕ)) : ℤ) ≤ s.mMaxDepth
  omega

/-- The front is read, and there is one. -/
lemma Sound.readFront (hs : s.Sound) {i : ι} {side : QueueSide} {timed : Bool}
    (hphase : s.phase i = .act ⟨side, .take timed⟩) :
    ∃ req, (s.contents side).head? = some req ∧
      ((s.setQueue side (s.queue side).readFront).moveTo i
        (.pop ⟨side, .take timed⟩ req)).Sound := by
  have hi := hs.expects i
  rw [hphase] at hi
  have hne : s.contents side ≠ [] := hi
  obtain ⟨req, rest, hcontents⟩ := List.exists_cons_of_ne_nil hne
  have hkept : Function.update s.contents side (s.queue side).readFront.contents = s.contents :=
    Function.update_eq_self ..
  refine ⟨req, by rw [hcontents]; rfl, hs.setQueue_go hphase (fun side' h => h)
    ((hs.conserved side).2.readFront_iff.mpr hne) (hs.conserved side).1 ?_ fun j _ => ?_⟩
  · rw [hkept]
    exact congrArg List.head? hcontents
  · rw [hkept]
    exact hs.expects j

/-- An element that has been read is removed. -/
lemma Sound.pop (hs : s.Sound) {i : ι} {a : Access α} {req : α} (hphase : s.phase i = .pop a req)
    (hleft : a.side = .empty → ∀ j, (s.phase j).atClearPop → 1 < (s.contents .empty).length) :
    ((s.setQueue a.side ((s.queue a.side).pop fun _ => .taken req)).moveTo i
      (.unlock a (.got req))).Sound := by
  have hi := hs.expects i
  rw [hphase] at hi
  have hhead : (s.contents a.side).head? = some req := hi
  have hholds : (s.phase i).holds a.side = true := by simp [hphase, QueuePhase.holds]
  refine hs.setQueue_go hphase (fun side' h => h)
    ((hs.conserved a.side).2.pop_iff.mpr ⟨req, hhead, rfl⟩) (hs.length_pop_le a.side _) trivial
    fun j hne => ?_
  rw [LoggedQueue.contents_pop]
  refine (hs.expects j).pop (hs.holds_eq_false hholds hne) fun hclear => ?_
  cases hside : a.side with
  | fill =>
      rw [hside] at hholds
      have hfill := hs.holds_eq_false hholds hne
      rw [QueuePhase.holds_fill_of_atClearPop hclear] at hfill
      cases hfill
  | empty => exact hleft hside j hclear

/-- `clear` removes an element. -/
lemma Sound.clearPop (hs : s.Sound) {i : ι} {side : QueueSide} (hphase : s.phase i = .clearPop side)
    (hapart : side = .empty → ∀ j, (s.phase j).atPop = false ∧
      ((s.phase j).atFront → 1 < (s.contents .empty).length)) :
    ((s.setQueue side ((s.queue side).pop .dropped)).moveTo i (.clearCheck side)).Sound := by
  have hi := hs.expects i
  rw [hphase] at hi
  have hne : s.contents side ≠ [] := hi
  obtain ⟨req, rest, hcontents⟩ := List.exists_cons_of_ne_nil hne
  have hhead : (s.contents side).head? = some req := by rw [hcontents]; rfl
  have hholds : (s.phase i).holds .fill = true := by simp [hphase, QueuePhase.holds]
  refine hs.setQueue_go hphase (fun side' h => h)
    ((hs.conserved side).2.pop_iff.mpr ⟨req, hhead, rfl⟩) (hs.length_pop_le side _) trivial
    fun j hne => ?_
  have hfill := hs.holds_eq_false hholds hne
  rw [LoggedQueue.contents_pop]
  cases side with
  | fill =>
      refine (hs.expects j).pop hfill fun hclear => ?_
      rw [QueuePhase.holds_fill_of_atClearPop hclear] at hfill
      cases hfill
  | empty =>
      obtain ⟨hpop, hfront⟩ := hapart rfl j
      exact (hs.expects j).clearPop hfill hpop hfront

/-- A thread goes on from one phase to another and leaves the queues alone. -/
lemma Sound.go (hs : s.Sound) {i : ι} {p p' : QueuePhase α} (hphase : s.phase i = p)
    (hholds : ∀ side, p'.holds side = true → p.holds side = true)
    (hexpects : p'.Expects s.mMaxDepth s.contents) : (s.moveTo i p').Sound :=
  hs.moveTo (fun side h => .inr (by rw [hphase]; exact hholds side h)) hexpects

omit [DecidableEq ι] in
lemma lt_of_not_isFull {side : QueueSide} (h : s.isFull side = false) :
    (s.contents side).length < toSizeT s.mMaxDepth :=
  Nat.not_le.mp (of_decide_eq_false h)

omit [DecidableEq ι] in
lemma ne_nil_of_not_isEmpty {side : QueueSide} (h : s.isEmpty side = false) :
    s.contents side ≠ [] :=
  fun hnil => of_decide_eq_false h (by rw [hnil]; rfl)

omit [DecidableEq ι] in
/-- What an operation has waited for is what it relies on. -/
lemma Sound.expects_act (hs : s.Sound) {a : Access α} (h : s.ready a = true) :
    (QueuePhase.act a).Expects s.mMaxDepth s.contents := by
  obtain ⟨side, purpose⟩ := a
  cases purpose with
  | put req =>
      have hfull : s.isFull side = false := by
        cases side <;> exact Bool.not_eq_true' _ |>.mp h
      have hroom := lt_of_not_isFull hfull
      have hle : ((s.contents side).length : ℤ) ≤ s.mMaxDepth := (hs.conserved side).1
      rw [toSizeT] at hroom
      change ((s.contents side).length : ℤ) < s.mMaxDepth
      omega
  | take timed =>
      have hempty : s.isEmpty side = false := by
        cases side <;> exact Bool.not_eq_true' _ |>.mp h
      exact ne_nil_of_not_isEmpty hempty

/-- **A step of a thread.** -/
lemma Sound.step (hs : s.Sound) {i : ι} (hkeeps : KeepsApart (machine.transition s (.step i))) :
    (s.step i).1.Sound := by
  have hapart := hkeeps i rfl
  rw [BufferQueue.step]
  cases hphase : s.phase i with
  | idle => exact hs
  | asleep a => exact hs
  | lock a => exact hs.lock (by simp [QueuePhase.holds, eq_comm]) trivial
  | relock a timedOut => exact hs.lock (by simp [QueuePhase.holds, eq_comm]) trivial
  | check a timedOut =>
      dsimp only
      split
      · rename_i hready
        exact hs.go hphase (fun side h => h) (hs.expects_act hready)
      · split
        · exact hs.go hphase (fun side h => h) trivial
        · exact hs.go hphase (fun side h => Bool.noConfusion h) trivial
  | act a =>
      obtain ⟨side, purpose⟩ := a
      cases purpose with
      | put req => exact hs.put hphase
      | take timed =>
          obtain ⟨req, hreq, hread⟩ := hs.readFront hphase
          simp only [hreq]
          exact hread
  | pop a req =>
      obtain ⟨side, purpose⟩ := a
      refine hs.pop hphase fun hside j hclear => (hapart j).2 ?_ hclear
      obtain rfl : side = .empty := hside
      simp [Machine.transition, hphase, QueuePhase.atPop]
  | unlock a reply => exact hs.go hphase (fun side h => Bool.noConfusion h) trivial
  | notify a reply =>
      exact (hs.notifyAll a.side).go (p := .notify a reply)
        (by simp [BufferQueue.notifyAll, hphase, QueuePhase.woken])
        (fun side h => Bool.noConfusion h) trivial
  | giveUp a => exact hs.go hphase (fun side h => Bool.noConfusion h) trivial
  | clearLock => exact hs.lock (by simp [QueuePhase.holds]) trivial
  | clearCheck side =>
      cases side <;>
      · dsimp only
        split
        · exact hs.go hphase (fun side h => h) trivial
        · rename_i hempty
          exact hs.go hphase (fun side h => h)
            (ne_nil_of_not_isEmpty (Bool.eq_false_iff.mpr hempty))
  | clearPop side =>
      refine hs.clearPop hphase fun hside j => (hapart j).1 ?_
      rw [hside] at hphase
      simp [Machine.transition, hphase, QueuePhase.atClearPop]
  | clearNotify =>
      exact (hs.notifyAll .fill).go (p := .clearNotify)
        (by simp [BufferQueue.notifyAll, hphase, QueuePhase.woken]) (fun side h => h) trivial
  | clearUnlock => exact hs.go hphase (fun side h => Bool.noConfusion h) trivial
  | clearLast =>
      exact (hs.notifyAll .empty).go (p := .clearLast)
        (by simp [BufferQueue.notifyAll, hphase, QueuePhase.woken])
        (fun side h => Bool.noConfusion h) trivial

/-- **A step of the system.** -/
lemma Sound.next (hs : s.Sound) {e : QueueEvent ι α}
    (hkeeps : KeepsApart (machine.transition s e)) : (machine.next s e).Sound := by
  cases e with
  | step i => exact hs.step hkeeps
  | call i c =>
      rw [Machine.next, machine]
      dsimp only
      cases hphase : s.phase i with
      | idle => cases c <;> exact hs.go hphase (fun side h => Bool.noConfusion h) trivial
      | _ => exact hs
  | timeout i =>
      change (s.timeout i).Sound
      rw [timeout]
      split
      · rename_i side hphase
        exact hs.go hphase (fun side' h => Bool.noConfusion h) trivial
      · exact hs
  | spuriousWake i =>
      change (s.spuriousWake i).Sound
      rw [spuriousWake]
      split
      · rename_i a hphase
        exact hs.go hphase (fun side h => Bool.noConfusion h) trivial
      · exact hs

/-! ### Steps that do not keep apart -/

lemma step_pop {i : ι} {a : Access α} {req : α} (hphase : s.phase i = .pop a req) :
    (s.step i).1 = (s.setQueue a.side ((s.queue a.side).pop fun _ => .taken req)).moveTo i
      (.unlock a (.got req)) := by
  rw [step, hphase]

lemma step_clearPop {i : ι} {side : QueueSide} (hphase : s.phase i = .clearPop side) :
    (s.step i).1 = (s.setQueue side ((s.queue side).pop .dropped)).moveTo i (.clearCheck side) := by
  rw [step, hphase]

lemma queue_setQueue_moveTo (s : BufferQueue ι α) (side : QueueSide) (q : LoggedQueue α) (i : ι)
    (p : QueuePhase α) : ((s.setQueue side q).moveTo i p).queue side = q :=
  Function.update_self ..

lemma phase_setQueue_moveTo (s : BufferQueue ι α) (side : QueueSide) (q : LoggedQueue α) {i j : ι}
    (hne : j ≠ i) (p : QueuePhase α) : ((s.setQueue side q).moveTo i p).phase j = s.phase j :=
  Function.update_of_ne hne ..

/-- The front of an empty `producerQueue` is read. -/
lemma not_intact_of_atFront {j : ι} (hphase : (s.phase j).atFront) (hnil : s.contents .empty = []) :
    ¬ ((s.step j).1.queue .empty).Intact := by
  obtain ⟨timed, hact⟩ := QueuePhase.exists_of_atFront hphase
  have hqueue : (s.step j).1.queue .empty = (s.queue .empty).readFront := by
    simp [step, hact, hnil, setQueue]
  intro h
  have hfound := h.foundEmpty_eq
  rw [hqueue, LoggedQueue.readFront, show (s.queue .empty).contents = [] from hnil,
    List.isEmpty_nil, Bool.or_true] at hfound
  cases hfound

/-- `clear` removes the element that another thread has read, or the only one that it is about to
read. -/
lemma Sound.not_intact_of_atClearPop (hs : s.Sound) (hnodup : (s.queue .empty).put.Nodup) {i j : ι}
    (hi : (s.phase i).atClearPop) (hj : ¬ ((s.phase j).atPop = false ∧
      ((s.phase j).atFront → 1 < (s.contents .empty).length))) :
    ¬ (((s.step i).1.step j).1.queue .empty).Intact := by
  have hphase := QueuePhase.eq_of_atClearPop hi
  have hexpects := hs.expects i
  rw [hphase] at hexpects
  obtain ⟨x, rest, hcontents⟩ := List.exists_cons_of_ne_nil hexpects
  have hintact : (s.queue .empty).Intact := (hs.conserved .empty).2
  have hdropped : ((s.queue .empty).pop .dropped).Intact :=
    hintact.pop_iff.mpr ⟨x, congrArg List.head? hcontents, rfl⟩
  have hrest : ((s.queue .empty).pop .dropped).contents = rest := by
    rw [LoggedQueue.contents_pop]
    exact congrArg List.tail hcontents
  have hne : j ≠ i := by
    rintro rfl
    simp [hphase, QueuePhase.atPop, QueuePhase.atFront] at hj
  rw [step_clearPop hphase]
  cases hpop : (s.phase j).atPop with
  | true =>
      -- the element read is gone, and another one leaves in its place
      obtain ⟨purpose, req, hjphase⟩ := QueuePhase.exists_of_atPop hpop
      have hjexpects := hs.expects j
      rw [hjphase] at hjexpects
      obtain rfl : x = req := Option.some_injective _ (by
        rw [← hjexpects, hcontents, List.head?_cons])
      rw [step_pop ((phase_setQueue_moveTo s _ _ hne _).trans hjphase), queue_setQueue_moveTo,
        queue_setQueue_moveTo, hdropped.pop_iff, hrest]
      rintro ⟨y, hy, rfl⟩
      rw [hintact.put_eq, show (s.queue .empty).contents = _ from hcontents] at hnodup
      have hnotin := (List.nodup_cons.mp hnodup.of_append_right).1
      exact hnotin (List.mem_of_mem_head? hy)
  | false =>
      have hfront : (s.phase j).atFront ∧ ¬ 1 < (s.contents .empty).length := by
        simpa [hpop] using hj
      refine not_intact_of_atFront (by rw [phase_setQueue_moveTo s _ _ hne]; exact hfront.1) ?_
      have hnil : rest = [] := by
        have hlength := hfront.2
        rw [hcontents, List.length_cons] at hlength
        exact List.eq_nil_of_length_eq_zero (by omega)
      rw [contents, queue_setQueue_moveTo, hrest, hnil]

/-- An operation takes the only element before `clear` removes it. -/
lemma Sound.not_intact_of_atPop (hs : s.Sound) {i j : ι} (hi : (s.phase i).atPop)
    (hj : (s.phase j).atClearPop) (hlength : ¬ 1 < (s.contents .empty).length) :
    ¬ (((s.step i).1.step j).1.queue .empty).Intact := by
  obtain ⟨purpose, req, hphase⟩ := QueuePhase.exists_of_atPop hi
  have hjphase := QueuePhase.eq_of_atClearPop hj
  have hhead := hs.expects i
  rw [hphase] at hhead
  have hne : j ≠ i := by
    rintro rfl
    rw [hphase] at hjphase
    cases hjphase
  have htaken : ((s.queue .empty).pop fun _ => .taken req).Intact :=
    (hs.conserved .empty).2.pop_iff.mpr ⟨req, hhead, rfl⟩
  have hnil : ((s.queue .empty).pop fun _ => .taken req).contents = [] := by
    rw [LoggedQueue.contents_pop]
    refine List.eq_nil_of_length_eq_zero ?_
    rw [List.length_tail]
    change (s.contents .empty).length - 1 = 0
    omega
  rw [step_pop hphase, step_clearPop ((phase_setQueue_moveTo s _ _ hne _).trans hjphase),
    queue_setQueue_moveTo, queue_setQueue_moveTo, htaken.pop_iff, hnil]
  rintro ⟨x, hx, -⟩
  cases hx

/-- **A step that does not keep apart goes wrong** with the next step of another thread, where no
element has been put into `producerQueue` twice. -/
theorem Sound.exists_not_conserved (hs : s.Sound) {e : QueueEvent ι α}
    (h : ¬ KeepsApart (machine.transition s e)) (hnodup : (s.queue .empty).put.Nodup) :
    ∃ j, ¬ (machine.run s [e, .step j]).Conserved := by
  simp only [KeepsApart, not_forall] at h
  obtain ⟨i, hi, j, happart⟩ := h
  obtain rfl : e = .step i := by
    cases e with
    | step i' => exact congrArg _ (Option.some_injective _ hi)
    | _ => cases hi
  refine ⟨j, fun hconserved => ?_⟩
  have hintact : (((s.step i).1.step j).1.queue .empty).Intact := (hconserved .empty).2
  rcases not_and_or.mp happart with hclear | htake
  · obtain ⟨hiclear, hj⟩ := Classical.not_imp.mp hclear
    exact hs.not_intact_of_atClearPop hnodup hiclear hj hintact
  · obtain ⟨hipop, hj⟩ := Classical.not_imp.mp htake
    obtain ⟨hjclear, hlength⟩ := Classical.not_imp.mp hj
    exact hs.not_intact_of_atPop hipop hjclear hlength hintact

/-! ### All runs -/

/-- Runs of steps that keep apart go wrong nowhere. -/
lemma sound_run {queueSize : ℕ} (hsize : queueSize % 2 ^ 32 < 2 ^ 31) {es : List (QueueEvent ι α)}
    (hkeeps : ∀ t ∈ machine.trace (create queueSize) es, KeepsApart t) :
    (machine.run (create queueSize) es).Sound :=
  Machine.invariant_run_of (fun _ _ hs h => hs.next h) (sound_create hsize) es hkeeps

/-- **The queues are conserved** all along every run in which the steps of `clear` and of `acquire`
keep apart, for exactly the queue sizes that an `int` holds as a depth. -/
theorem conserved_iff (queueSize : ℕ) (es : List (QueueEvent ι α))
    (hkeeps : ∀ t ∈ machine.trace (create queueSize) es, KeepsApart t) :
    (∀ fs, fs <+: es → (machine.run (create queueSize) fs).Conserved)
      ↔ queueSize % 2 ^ 32 < 2 ^ 31 := by
  refine ⟨fun h => conserved_create_iff.mp (h [] List.nil_prefix), ?_⟩
  rintro hsize fs ⟨gs, rfl⟩
  refine (sound_run hsize fun t ht => hkeeps t ?_).conserved
  rw [Machine.trace_append]
  exact List.mem_append_left _ ht

/-- A run in which an `acquire` is over before `clear` reaches `producerQueue`. -/
theorem conserved_acquire_clear :
    (machine.run (create 2)
      ([.call false (.release 7), .step false, .step false, .step false, .step false, .step false,
        .call false (.release 8), .step false, .step false, .step false, .step false, .step false,
        .call true .acquire, .call false .clear, .step true, .step false, .step true, .step false,
        .step true, .step false, .step true, .step false, .step true, .step false, .step false]
        : List (QueueEvent Bool ℕ))).Conserved :=
  (conserved_iff 2 _ (by decide +kernel)).mpr (by decide) _ List.prefix_rfl

/-- Nothing keeps them apart: `clear` removes the element that an `acquire` has found, which then
reads the front of an empty queue. -/
theorem not_forall_conserved :
    ¬ ∀ (queueSize : ℕ) (es : List (QueueEvent Bool ℕ)),
      (machine.run (create queueSize) es).Conserved := by
  intro h
  have hempty := (h 2
    [.call false (.release 7), .step false, .step false, .step false, .step false, .step false,
      .call true .acquire, .step true, .step true, .call false .clear, .step false, .step false,
      .step false, .step false, .step false, .step true] .empty).2.foundEmpty_eq
  exact absurd hempty (by decide +kernel)

end BufferQueue

end StreamFs
