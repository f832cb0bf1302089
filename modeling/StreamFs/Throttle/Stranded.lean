import StreamFs.Throttle.Atomics

/-!
A throttled reader always has somebody to wake it.

The reader sleeps on `mCvThrottleChanged` while the loop runs, and the loop sleeps on
`mCvStartThrottle` while it does not. The flag `mThrottleRunning` is stored by both of them and by
the clears. Two facts keep them from sleeping on each other:

* the loop, on its way to sleep or asleep while `mThrottleRunning` is up, has a notification
  waiting or the reader about to give one (`Unstranded.start`);
* the reader, on its way to sleep or asleep without a notification waiting, has `mThrottleRunning`
  up or the loop about to notify it that it has stopped (`Unstranded.changed`).

* `Stranded`: both are asleep, and neither has a notification waiting.
* `not_stranded_run`: no run comes to such a state.
-/

namespace StreamFs

/-- The reader has found its predicate false, or is asleep. -/
def PositionPhase.sleeps : PositionPhase → Bool
  | check false | asleep => true
  | _ => false

/-- The loop has found `mThrottleRunning` down, or is asleep. -/
def LoopPhase.awaitsStart : LoopPhase → Bool
  | startCheck | startAsleep => true
  | _ => false

/-- The loop has taken `mThrottleRunning` down and notifies of it next. -/
def LoopPhase.stopped : LoopPhase → Bool
  | dataNotify | idleNotify => true
  | _ => false

namespace ThrottleThreads

/-- The reader and the loop are both asleep, and no notification waits for either. -/
def Stranded (s : ThrottleThreads) : Prop :=
  s.reader = .asleep ∧ s.mCvThrottleChanged = false ∧
    s.loop = .startAsleep ∧ s.mCvStartThrottle = false

/-- Neither the loop nor the reader goes to sleep with nobody to wake it. -/
structure Unstranded (s : ThrottleThreads) : Prop where
  start : s.loop.awaitsStart → s.throttle.mThrottleRunning →
    s.mCvStartThrottle ∨ s.reader = .startNotify
  changed : s.reader.sleeps → s.mCvThrottleChanged = false →
    s.throttle.mThrottleRunning ∨ s.loop.stopped
  apart : s.reader.inWait → s.buffer.clears = false

variable {s : ThrottleThreads}

lemma Unstranded.not_stranded (hs : s.Unstranded) : ¬ s.Stranded := by
  rintro ⟨hreader, hchanged, hloop, hstart⟩
  have hrunning := hs.changed (by rw [hreader]; rfl) hchanged
  rw [hloop] at hrunning
  rcases hs.start (by rw [hloop]; rfl) (hrunning.resolve_right Bool.false_ne_true) with h | h
  · exact Bool.false_ne_true (hstart.symm.trans h)
  · rw [hreader] at h
    exact absurd h (by simp)

lemma unstranded_create (n : ℕ) : (create n).Unstranded where
  start := by simp [create, LoopPhase.awaitsStart]
  changed := by simp [create, PositionPhase.sleeps]
  apart := by simp [create, BufferPhase.clears]

/-- The reader goes on, without sleeping, and `mThrottleRunning` is not raised. -/
lemma Unstranded.reader (hs : s.Unstranded) {t : BufferPoolThrottle} {p : PositionPhase}
    (ht : t.mThrottleRunning → s.throttle.mThrottleRunning) (hreader : s.reader ≠ .startNotify)
    (hp : p.sleeps = false) (hwait : p.inWait → s.buffer.clears = false) :
    Unstranded { s with throttle := t, reader := p } where
  start h hrunning := (hs.start h (ht hrunning)).imp_right fun h => absurd h hreader
  changed h := by simp [hp] at h
  apart := hwait

theorem Unstranded.stepReader (hs : s.Unstranded) : s.stepReader.Unstranded := by
  have hwait := hs.apart
  rw [ThrottleThreads.stepReader]
  cases h : s.reader with
  | idle => exact hs
  | asleep => exact hs
  | setPos pos => exact hs.reader id (by simp [h]) rfl (by simp [PositionPhase.inWait])
  | liveStop => exact hs.reader (by simp) (by simp [h]) rfl (by simp [PositionPhase.inWait])
  | countAhead =>
      have hkept : s.throttle.countReadAhead.mThrottleRunning = s.throttle.mThrottleRunning := by
        rw [BufferPoolThrottle.countReadAhead]
        split <;> rfl
      rw [h] at hwait
      dsimp only
      split_ifs <;> exact hs.reader (by simp [hkept]) (by simp [h]) rfl (fun _ => hwait rfl)
  | startRun =>
      rw [h] at hwait
      exact ⟨fun _ _ => .inr rfl, by simp [PositionPhase.sleeps], fun _ => hwait rfl⟩
  | startNotify =>
      rw [h] at hwait
      dsimp only
      split_ifs with hloop
      · exact hs
      · exact ⟨fun _ _ => .inl rfl, by simp [PositionPhase.sleeps], fun _ => hwait rfl⟩
  | startSignal =>
      rw [h] at hwait
      refine ⟨fun hloop hrunning => ?_, by simp [PositionPhase.sleeps], fun _ => hwait rfl⟩
      refine .inl ((hs.start ?_ hrunning).resolve_right (by simp [h]))
      by_cases hasleep : s.loop = .startAsleep
      · simp [hasleep, LoopPhase.awaitsStart]
      · simpa [hasleep] using hloop
  | predRunning =>
      rw [h] at hwait
      refine ⟨fun hloop hrunning => ?_, fun hsleeps _ => .inl ?_, fun _ => hwait rfl⟩
      · exact .inl ((hs.start hloop hrunning).resolve_right (by simp [h]))
      · cases hrunning : s.throttle.mThrottleRunning with
        | true => rfl
        | false => simp [hrunning, PositionPhase.sleeps] at hsleeps
  | check status =>
      rw [h] at hwait
      dsimp only
      split_ifs with hnotified
      · exact ⟨fun hloop hrunning => .inl ((hs.start hloop hrunning).resolve_right (by simp [h])),
          by simp [PositionPhase.sleeps], fun _ => hwait rfl⟩
      · refine ⟨fun hloop hrunning => ?_, fun _ => hs.changed ?_, fun _ => hwait rfl⟩
        · exact .inl ((hs.start hloop hrunning).resolve_right (by simp [h]))
        · have hstatus : status = false := by simp_all
          rw [h, hstatus]
          rfl
  | _ =>
      rw [h] at hwait
      exact hs.reader id (by simp [h]) (by (repeat' split) <;> rfl) (fun _ => hwait rfl)

/-- The holder of the period buffer goes on without raising `mThrottleRunning`, and takes it down
only while no `wait` is in progress. -/
lemma Unstranded.buffer (hs : s.Unstranded) {t : BufferPoolThrottle} {p : BufferPhase} {n : ℕ}
    {registered : Bool} (ht : t.mThrottleRunning = s.throttle.mThrottleRunning ∨
      t.mThrottleRunning = false ∧ s.reader.inWait = false)
    (hp : p.clears → s.reader.inWait = false) :
    Unstranded { s with
      throttle := t, buffer := p, evicted := n, mCvTimePeriodRegistered := registered } where
  start h hrunning := by
    rcases ht with ht | ⟨ht, -⟩
    · exact hs.start h (ht ▸ hrunning)
    · exact absurd hrunning (by simp [ht])
  changed h hnone := by
    rcases ht with ht | ⟨-, hout⟩
    · exact (hs.changed h hnone).imp_left fun h => ht ▸ h
    · cases hr : s.reader <;> simp_all [PositionPhase.sleeps, PositionPhase.inWait]
  apart h := Bool.eq_false_of_not_eq_true fun hclears =>
    Bool.false_ne_true ((hp hclears).symm.trans h)

/-- The loop goes on without stopping: it is not on its way to sleep, or finds itself stopped or
without a notification there. -/
lemma Unstranded.loop (hs : s.Unstranded) {t : BufferPoolThrottle} {p : LoopPhase} {n k : ℕ}
    (ht : t.mThrottleRunning = s.throttle.mThrottleRunning) (hloop : s.loop.stopped = false)
    (hp : p.awaitsStart → s.loop.awaitsStart ∨ s.throttle.mThrottleRunning = false)
    (registered : Bool) :
    Unstranded { s with
      throttle := t, loop := p, mIdleCount := n, mLastPosIdle := k,
      mCvTimePeriodRegistered := registered } where
  start h hrunning := by
    rw [ht] at hrunning
    rcases hp h with hawaits | hstopped
    · exact hs.start hawaits hrunning
    · exact absurd hrunning (by simp [hstopped])
  changed h hnone := by
    rw [ht]
    exact .inl ((hs.changed h hnone).resolve_right (by simp [hloop]))
  apart := hs.apart

/-- The loop notifies the reader. -/
lemma Unstranded.notifyChanged (hs : s.Unstranded) {p : LoopPhase} (hp : p.awaitsStart = false) :
    (s.notifyChanged p).Unstranded := by
  rw [ThrottleThreads.notifyChanged]
  split
  · exact hs
  · exact ⟨by simp [hp], by simp, hs.apart⟩

theorem Unstranded.stepBuffer (hs : s.Unstranded) : s.stepBuffer.Unstranded := by
  have hout : s.buffer.clears → s.reader.inWait = false := fun h =>
    Bool.eq_false_of_not_eq_true fun hwait => Bool.false_ne_true ((hs.apart hwait).symm.trans h)
  rw [ThrottleThreads.stepBuffer]
  cases h : s.buffer with
  | free => exact hs
  | notify =>
      dsimp only
      split_ifs
      · exact hs
      · exact hs.buffer (.inl rfl) (by simp [BufferPhase.clears])
  | signal =>
      have hfree : Unstranded { s with buffer := .free } :=
        hs.buffer (.inl rfl) (by simp [BufferPhase.clears])
      by_cases hloop : s.loop = .dataAsleep
      · simp only [hloop, if_true]
        exact hfree.loop rfl (by simp [hloop, LoopPhase.stopped])
          (by simp [LoopPhase.awaitsStart]) _
      · simp only [hloop, if_false]
        exact hfree
  | storeAhead b => exact hs.buffer (.inl rfl) (fun _ => hout (by rw [h]; rfl))
  | storeIndex b => exact hs.buffer (.inl rfl) (fun _ => hout (by rw [h]; rfl))
  | storePos => exact hs.buffer (.inl rfl) (fun _ => hout (by rw [h]; rfl))
  | storeLastPos => exact hs.buffer (.inl rfl) (fun _ => hout (by rw [h]; rfl))
  | storeRunning =>
      exact hs.buffer (.inr ⟨rfl, hout (by rw [h]; rfl)⟩) (by simp [BufferPhase.clears])
  | _ => exact hs.buffer (.inl rfl) (by (repeat' split) <;> simp [BufferPhase.clears])

/-- The loop signals the reader. -/
lemma Unstranded.signalChanged (hs : s.Unstranded) {p : LoopPhase} (hloop : s.loop.stopped = false)
    (hp : p.awaitsStart = false) : (s.signalChanged p).Unstranded := by
  have hrunning : s.reader.sleeps → s.mCvThrottleChanged = false → s.throttle.mThrottleRunning :=
    fun h hnone => (hs.changed h hnone).resolve_right (by simp [hloop])
  rw [ThrottleThreads.signalChanged]
  by_cases hasleep : s.reader = .asleep
  · simp only [hasleep, if_true]
    exact ⟨by simp [hp], by simp [PositionPhase.sleeps], fun _ => hs.apart (by rw [hasleep]; rfl)⟩
  · simp only [hasleep, if_false]
    exact ⟨by simp [hp], fun h hnone => .inl (hrunning h hnone), hs.apart⟩

theorem Unstranded.stepLoop (hs : s.Unstranded) : s.stepLoop.1.Unstranded := by
  rw [ThrottleThreads.stepLoop]
  cases h : s.loop with
  | startAsleep => exact hs
  | dataAsleep => exact hs
  | outerTest =>
      refine hs.loop rfl (by simp [h, LoopPhase.stopped]) (fun hawaits => .inr ?_) _
      cases hrunning : s.throttle.mThrottleRunning with
      | true => simp [hrunning, LoopPhase.awaitsStart] at hawaits
      | false => rfl
  | startCheck =>
      dsimp only
      split_ifs
      · exact ⟨by simp [LoopPhase.awaitsStart], fun hsleeps hnone =>
          .inl ((hs.changed hsleeps hnone).resolve_right (by simp [h, LoopPhase.stopped])),
          hs.apart⟩
      · exact hs.loop rfl (by simp [h, LoopPhase.stopped]) (fun _ => .inl (by rw [h]; rfl)) _
  | changedNotify => exact hs.notifyChanged rfl
  | changedSignal => exact hs.signalChanged (by rw [h]; rfl) rfl
  | dataCheck status timedOut =>
      dsimp only
      split_ifs <;>
        exact hs.loop rfl (by simp [h, LoopPhase.stopped]) (by simp [LoopPhase.awaitsStart]) _
  | dataStop => exact ⟨by simp [LoopPhase.awaitsStart], fun _ _ => .inr rfl, hs.apart⟩
  | dataNotify => exact hs.notifyChanged rfl
  | dataSignal => exact hs.signalChanged (by rw [h]; rfl) rfl
  | idleTest =>
      dsimp only
      split_ifs
      · exact ⟨by simp [LoopPhase.awaitsStart], fun _ _ => .inr rfl, hs.apart⟩
      · exact hs.loop rfl (by simp [h, LoopPhase.stopped]) (by simp [LoopPhase.awaitsStart]) _
  | idleNotify => exact hs.notifyChanged rfl
  | idleSignal => exact hs.signalChanged (by rw [h]; rfl) rfl
  | fetchTest =>
      dsimp only
      split_ifs
      · exact hs.loop rfl (by simp [h, LoopPhase.stopped]) (by simp [LoopPhase.awaitsStart]) _
      · exact hs.loop rfl (by simp [h, LoopPhase.stopped]) (by simp [LoopPhase.awaitsStart]) _
      · exact hs
  | sleeping time =>
      exact hs.loop (p := .changedNotify)
        (t := { s.throttle with mThrottleIndex := addU64 s.throttle.mThrottleIndex 1 }) rfl
        (by simp [h, LoopPhase.stopped]) (by simp [LoopPhase.awaitsStart]) _
  | _ =>
      exact hs.loop rfl (by simp [h, LoopPhase.stopped])
        (by (repeat' split) <;> simp [LoopPhase.awaitsStart]) _

lemma Unstranded.wakeReader (hs : s.Unstranded) : s.wakeReader.Unstranded := by
  rw [ThrottleThreads.wakeReader]
  split_ifs with h
  · exact hs.reader id (by simp [h]) rfl (fun _ => hs.apart (by rw [h]; rfl))
  · exact hs

lemma Unstranded.wakeLoop (hs : s.Unstranded) (timedOut : Bool) :
    (s.wakeLoop timedOut).Unstranded := by
  rw [ThrottleThreads.wakeLoop]
  cases h : s.loop with
  | startAsleep =>
      dsimp only
      split_ifs
      · exact hs
      · exact hs.loop rfl (by simp [h, LoopPhase.stopped]) (fun _ => .inl (by rw [h]; rfl)) _
  | dataAsleep =>
      exact hs.loop rfl (by simp [h, LoopPhase.stopped]) (by simp [LoopPhase.awaitsStart]) _
  | _ => exact hs

/-- **Every event keeps the reader and the loop from sleeping on each other.** -/
theorem Unstranded.next (hs : s.Unstranded) (e : ThrottleEvent) :
    (throttleMachine.next s e).Unstranded := by
  rw [Machine.next, throttleMachine]
  cases e with
  | setReadPosition pos =>
      simp only [act]
      split_ifs with h
      · exact hs.reader id (by simp [h]) rfl (by simp [PositionPhase.inWait])
      · exact hs
  | wait =>
      simp only [act]
      split_ifs with h
      · exact hs.reader id (by simp [h.1]) rfl (fun _ => h.2)
      · exact hs
  | registerTimePeriod now =>
      simp only [act]
      split_ifs
      · exact hs.buffer (.inl rfl) (by split <;> simp [BufferPhase.clears])
      · exact hs
  | clear =>
      simp only [act]
      split_ifs with h
      · exact hs.buffer (.inl rfl) (fun _ => h.2)
      · exact hs
  | clearToLastRead =>
      simp only [act, callClearToLastRead]
      split_ifs with h
      · exact hs
      · exact hs.buffer (.inl rfl) (fun _ => h.2)
      · exact hs.buffer (.inl rfl) (fun _ => h.2)
      · exact hs
  | enableThrottling enable => exact ⟨hs.start, hs.changed, hs.apart⟩
  | stepReader => exact hs.stepReader
  | stepBuffer => exact hs.stepBuffer
  | stepLoop => exact hs.stepLoop
  | wakeReader => exact hs.wakeReader
  | wakeLoop => exact hs.wakeLoop false
  | timeoutLoop => exact hs.wakeLoop true

/-- **No throttled reader is ever stranded.** -/
theorem not_stranded_run (preAllocBufSize : ℕ) (es : List ThrottleEvent) :
    ¬ (throttleMachine.run (create preAllocBufSize) es).Stranded :=
  (Machine.invariant_run (I := Unstranded) (fun _ e hs => hs.next e)
    (unstranded_create preAllocBufSize) es).not_stranded

end ThrottleThreads

end StreamFs
