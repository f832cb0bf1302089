import StreamFs.Base.Schedule
import StreamFs.Throttle.Atomics

/-!
The end of a throttle (`BufferPoolThrottle::~BufferPoolThrottle`).

The destructor raises `mExitRequested`, takes `mThrottleRunning` down, notifies all three helpers
and joins the thread of `throttleLoop`. Nobody calls the throttle any more, so the loop and the
destructor are alone, and each has to get past the other: the loop sleeps until it is notified, and
the destructor waits for the mutex of a helper and at last for the loop.

* `DestructorPhase`, `ExitPhase`: the destructor, and the places of the loop that depend on
  `mExitRequested`. Elsewhere the loop does what it did before (`ThrottleThreads.stepLoop`).
* `ThrottleExit.Exiting`: what keeps the loop from sleeping once the destructor has been by.
* `rank`: after `mExitRequested` each step lowers it, unless a thread wakes up by itself.
* `destructor_returns`: whatever the throttle was used for and wherever its loop is, the destructor
  returns, in every schedule that goes on with both threads and has finitely many spurious wake-ups.
-/

namespace StreamFs

/-- The destructor, named after its next step. -/
inductive DestructorPhase where
  | requestExit
  | stopRunning
  | registeredNotify
  | registeredSignal
  | startNotify
  | startSignal
  | changedNotify
  | changedSignal
  | join
  | done
  deriving DecidableEq

/-- The loop, where it reads `mExitRequested`. -/
inductive ExitPhase where
  | running
  -- behind the predicate of the wait on `mCvStartThrottle`
  | startTest (status : Bool)
  -- behind the first operand of the test of the inner loop
  | innerExit
  | completed
  deriving DecidableEq

/-- A throttle under destruction. -/
structure ThrottleExit where
  threads : ThrottleThreads
  mExitRequested : Bool
  destructor : DestructorPhase
  exit : ExitPhase

/-- The events: a step of the destructor or of the loop, and a loop that wakes up, without a
notification or because of the time. -/
inductive ExitEvent where
  | stepDestructor
  | stepLoop
  | wakeLoop
  | timeoutLoop
  deriving DecidableEq

/-- The thread signalled is awake. -/
def LoopPhase.signalled (p asleep awake : LoopPhase) : LoopPhase := if p = asleep then awake else p

open ThrottleThreads (create throttleMachine)

namespace ThrottleExit

/-- The call of the destructor. -/
def destroy (s : ThrottleThreads) : ThrottleExit := ⟨s, false, .requestExit, .running⟩

/-- The loop goes on at `p`. -/
def moveLoop (s : ThrottleExit) (p : LoopPhase) : ThrottleExit :=
  { s with threads := { s.threads with loop := p }, exit := .running }

/-- The next step of the destructor. -/
def stepDestructor (s : ThrottleExit) : ThrottleExit :=
  let t := s.threads
  match s.destructor with
  | .requestExit => { s with mExitRequested := true, destructor := .stopRunning }
  | .stopRunning =>
      { s with
        threads := { t with throttle := { t.throttle with mThrottleRunning := false } }
        destructor := .registeredNotify }
  | .registeredNotify =>
      if t.loop.holdsRegistered then s
      else
        { s with
          threads := { t with mCvTimePeriodRegistered := true }
          destructor := .registeredSignal }
  | .registeredSignal =>
      { s with
        threads := { t with loop := t.loop.signalled .dataAsleep (.dataPred false) }
        destructor := .startNotify }
  | .startNotify =>
      if t.loop = .startCheck then s
      else { s with threads := { t with mCvStartThrottle := true }, destructor := .startSignal }
  | .startSignal =>
      { s with
        threads := { t with loop := t.loop.signalled .startAsleep .startCheck }
        destructor := .changedNotify }
  | .changedNotify =>
      if t.reader.holdsChanged then s
      else { s with threads := { t with mCvThrottleChanged := true }, destructor := .changedSignal }
  | .changedSignal =>
      { s with
        threads := { t with reader := if t.reader = .asleep then .predPos else t.reader }
        destructor := .join }
  | .join => if s.exit = .completed then { s with destructor := .done } else s
  | .done => s

/-- The next step of the loop. -/
def stepLoop (s : ThrottleExit) : ThrottleExit :=
  let t := s.threads
  match s.exit with
  | .completed => s
  | .startTest status =>
      if t.mCvStartThrottle || status then
        { s with
          threads := { t with mCvStartThrottle := false, loop := .innerTest }
          exit := .running }
      else s.moveLoop .startAsleep
  | .innerExit => s.moveLoop (if s.mExitRequested then .outer else .fetchTest)
  | .running =>
      match t.loop with
      | .outer =>
          if s.mExitRequested then { s with exit := .completed }
          else { s with threads := t.stepLoop.1 }
      | .startCheck => { s with exit := .startTest s.mExitRequested }
      | .innerTest =>
          if t.throttle.mThrottleRunning then { s with exit := .innerExit } else s.moveLoop .outer
      | _ => { s with threads := t.stepLoop.1 }

/-- The loop, if it is asleep, checks again what it waits for. -/
def wakeLoop (s : ThrottleExit) (timedOut : Bool) : ThrottleExit :=
  { s with threads := s.threads.wakeLoop timedOut }

/-- One event. -/
def act (s : ThrottleExit) : ExitEvent → ThrottleExit
  | .stepDestructor => s.stepDestructor
  | .stepLoop => s.stepLoop
  | .wakeLoop => s.wakeLoop false
  | .timeoutLoop => s.wakeLoop true

/-- The destruction as a machine. -/
def exitMachine : Machine ThrottleExit ExitEvent Unit := ⟨fun s e => (s.act e, ())⟩

end ThrottleExit

/-! ### What keeps the loop awake -/

/-- The steps the destructor has left. -/
def DestructorPhase.left : DestructorPhase → ℕ
  | requestExit => 9
  | stopRunning => 8
  | registeredNotify => 7
  | registeredSignal => 6
  | startNotify => 5
  | startSignal => 4
  | changedNotify => 3
  | changedSignal => 2
  | join => 1
  | done => 0

/-- The loop is on its way to the wait on `mCvTimePeriodRegistered`, or in it. -/
def LoopPhase.awaitsData : LoopPhase → Bool
  | fetchTest | dataPred _ | dataCheck _ _ | dataAsleep => true
  | _ => false

/-- The most steps the loop has left once `mExitRequested` is up, if it is not woken up without
reason. -/
def LoopPhase.left : LoopPhase → ℕ
  | outer => 1
  | innerTest => 3
  | startAsleep => 4
  | startCheck => 6
  | outerTest => 7
  | idleSignal => 4
  | idleNotify => 5
  | idleTest => 6
  | idleStore => 7
  | dataSignal => 8
  | dataNotify => 9
  | dataStop => 10
  | dataCheck _ true => 11
  | dataPred true => 12
  | dataAsleep => 13
  | dataCheck _ false => 14
  | dataPred false => 15
  | fetchTest => 16
  | idleCount => 8
  | changedSignal => 9
  | changedNotify => 10
  | sleeping _ => 11
  | fetchRead => 12

/-- The step of the loop does not depend on `mExitRequested`, and the loop is not asleep. -/
def LoopPhase.plain : LoopPhase → Bool
  | outer | startCheck | innerTest | startAsleep | dataAsleep => false
  | _ => true

namespace ThrottleExit

/-- The steps the loop has left. -/
def loopLeft (s : ThrottleExit) : ℕ :=
  match s.exit with
  | .completed => 0
  | .innerExit => 2
  | .startTest _ => 5
  | .running => s.threads.loop.left

/-- Nobody calls the throttle, and the loop is where its two phases say. -/
structure Quiet (s : ThrottleExit) : Prop where
  reader : s.threads.reader = .idle
  buffer : s.threads.buffer = .free
  startTest : ∀ status, s.exit = .startTest status → s.threads.loop = .startCheck
  innerExit : s.exit = .innerExit → s.threads.loop = .innerTest
  completed : s.exit = .completed → s.threads.loop = .outer

/-- With `n` steps of the destructor left, what it has notified finds its flag or is awake. -/
structure Notified (n : ℕ) (t : ThrottleThreads) (exit : ExitPhase) : Prop where
  data : n < 7 → t.loop.awaitsData → t.mCvTimePeriodRegistered
  dataWoken : n < 6 → t.loop ≠ .dataAsleep
  start : n < 5 → exit = .startTest false → t.mCvStartThrottle
  startWoken : n < 4 → t.loop ≠ .startAsleep

/-- `mExitRequested` is up, and the loop has been notified as far as the destructor has come. -/
structure Exiting (s : ThrottleExit) : Prop extends Quiet s where
  requested : s.mExitRequested = true
  left_lt : s.destructor.left < 9
  notified : Notified s.destructor.left s.threads s.exit

variable {s : ThrottleExit}

/-- A step of the loop that does not depend on `mExitRequested` brings it nearer to its end. -/
lemma left_stepLoop_lt {t : ThrottleThreads} (hreader : t.reader = .idle)
    (hbuffer : t.buffer = .free) (hloop : t.loop.plain) : t.stepLoop.1.loop.left < t.loop.left := by
  have hheld : t.reader.holdsChanged = false := by rw [hreader]; rfl
  rw [ThrottleThreads.stepLoop]
  cases h : t.loop with
  | outer | startCheck | innerTest | startAsleep | dataAsleep =>
      rw [h] at hloop
      exact absurd hloop Bool.false_ne_true
  | outerTest | fetchTest | idleTest =>
      dsimp only
      split_ifs <;> simp [LoopPhase.left]
  | dataCheck status timedOut =>
      cases timedOut <;> dsimp only <;> split_ifs <;> simp_all [LoopPhase.left]
  | dataPred timedOut => cases timedOut <;> simp [LoopPhase.left]
  | changedNotify | dataNotify | idleNotify =>
      simp [ThrottleThreads.notifyChanged, hheld, LoopPhase.left]
  | changedSignal | dataSignal | idleSignal =>
      simp [ThrottleThreads.signalChanged, LoopPhase.left]
  | _ => simp [LoopPhase.left]

/-- What a step of the loop does after `mExitRequested`: it is done, asleep, or nearer to its
end. -/
lemma Quiet.stepLoop_cases (hs : s.Quiet) (hrequested : s.mExitRequested = true) :
    (s.stepLoop = s ∧ (s.exit = .completed ∨ s.exit = .running ∧
      (s.threads.loop = .startAsleep ∨ s.threads.loop = .dataAsleep))) ∨
      s.stepLoop.loopLeft < s.loopLeft := by
  rw [stepLoop]
  cases hexit : s.exit with
  | completed => exact .inl ⟨rfl, .inl rfl⟩
  | innerExit =>
      refine .inr ?_
      simp [hrequested, moveLoop, loopLeft, hexit, LoopPhase.left]
  | startTest status =>
      refine .inr ?_
      dsimp only
      split_ifs <;> simp [moveLoop, loopLeft, hexit, LoopPhase.left]
  | running =>
      cases hloop : s.threads.loop with
      | startAsleep =>
          refine .inl ⟨?_, .inr ⟨rfl, .inl rfl⟩⟩
          simp only [ThrottleThreads.stepLoop, hloop, ← hexit]
      | dataAsleep =>
          refine .inl ⟨?_, .inr ⟨rfl, .inr rfl⟩⟩
          simp only [ThrottleThreads.stepLoop, hloop, ← hexit]
      | outer => exact .inr (by simp [hrequested, loopLeft, hexit, hloop, LoopPhase.left])
      | startCheck => exact .inr (by simp [loopLeft, hexit, hloop, LoopPhase.left])
      | innerTest =>
          refine .inr ?_
          dsimp only
          split_ifs <;> simp [moveLoop, loopLeft, hexit, hloop, LoopPhase.left]
      | _ =>
          have hlt := left_stepLoop_lt hs.reader hs.buffer (by rw [hloop]; rfl)
          rw [hloop] at hlt
          refine .inr ?_
          simpa only [loopLeft, hexit, hloop] using hlt

/-! ### Nobody calls the throttle -/

/-- The loop does not touch the other threads while nobody is in a call. -/
lemma frame_stepLoop {t : ThrottleThreads} (hreader : t.reader = .idle) :
    t.stepLoop.1.reader = .idle ∧ t.stepLoop.1.buffer = t.buffer := by
  rw [ThrottleThreads.stepLoop]
  cases t.loop with
  | changedNotify | dataNotify | idleNotify =>
      dsimp only
      rw [ThrottleThreads.notifyChanged]
      split_ifs <;> exact ⟨hreader, rfl⟩
  | changedSignal | dataSignal | idleSignal =>
      simp [ThrottleThreads.signalChanged, hreader]
  | startCheck | fetchTest | idleTest =>
      dsimp only
      split_ifs <;> exact ⟨hreader, rfl⟩
  | dataCheck status timedOut =>
      dsimp only
      split_ifs <;> exact ⟨hreader, rfl⟩
  | _ => exact ⟨hreader, rfl⟩

lemma frame_wakeLoop (t : ThrottleThreads) (timedOut : Bool) :
    (t.wakeLoop timedOut).reader = t.reader ∧ (t.wakeLoop timedOut).buffer = t.buffer := by
  rw [ThrottleThreads.wakeLoop]
  split
  · split_ifs <;> exact ⟨rfl, rfl⟩
  · exact ⟨rfl, rfl⟩
  · exact ⟨rfl, rfl⟩

/-- A loop that is not asleep does not wake up. -/
lemma wakeLoop_of_awake {t : ThrottleThreads} (hstart : t.loop ≠ .startAsleep)
    (hdata : t.loop ≠ .dataAsleep) (timedOut : Bool) : t.wakeLoop timedOut = t := by
  rw [ThrottleThreads.wakeLoop]
  split
  · exact absurd ‹_› hstart
  · exact absurd ‹_› hdata
  · rfl

/-- The loop is at the place that its second phase says. -/
lemma Quiet.awake (hs : s.Quiet) (h : s.exit ≠ .running) :
    s.threads.loop ≠ .startAsleep ∧ s.threads.loop ≠ .dataAsleep := by
  cases hexit : s.exit with
  | running => exact absurd hexit h
  | startTest status => simp [hs.startTest status hexit]
  | innerExit => simp [hs.innerExit hexit]
  | completed => simp [hs.completed hexit]

/-- The threads change while the loop stays at a place that only it leaves. -/
lemma Quiet.setThreads (hs : s.Quiet) {t : ThrottleThreads} (hreader : t.reader = .idle)
    (hbuffer : t.buffer = .free) (hloop : s.exit ≠ .running → t.loop = s.threads.loop)
    (requested : Bool) (d : DestructorPhase) : Quiet ⟨t, requested, d, s.exit⟩ where
  reader := hreader
  buffer := hbuffer
  startTest status h := (hloop (by simp [show s.exit = _ from h])).trans (hs.startTest status h)
  innerExit h := (hloop (by simp [show s.exit = _ from h])).trans (hs.innerExit h)
  completed h := (hloop (by simp [show s.exit = _ from h])).trans (hs.completed h)

/-- A loop that runs is where it is. -/
lemma quiet_running (hexit : s.exit = .running) (hreader : s.threads.reader = .idle)
    (hbuffer : s.threads.buffer = .free) : s.Quiet :=
  ⟨hreader, hbuffer, by simp [hexit], by simp [hexit], by simp [hexit]⟩

lemma signalled_of_ne {p asleep : LoopPhase} (awake : LoopPhase) (h : p ≠ asleep) :
    p.signalled asleep awake = p := if_neg h

lemma Quiet.stepDestructor (hs : s.Quiet) : s.stepDestructor.Quiet := by
  have hreader := hs.reader
  have hbuffer := hs.buffer
  have hkeep : s.exit ≠ .running → s.threads.loop = s.threads.loop := fun _ => rfl
  rw [ThrottleExit.stepDestructor]
  cases s.destructor with
  | registeredSignal =>
      refine hs.setThreads ?_ ?_ ?_ _ _
      · exact hreader
      · exact hbuffer
      · exact fun h => signalled_of_ne _ (hs.awake h).2
  | startSignal =>
      refine hs.setThreads ?_ ?_ ?_ _ _
      · exact hreader
      · exact hbuffer
      · exact fun h => signalled_of_ne _ (hs.awake h).1
  | changedSignal =>
      refine hs.setThreads ?_ ?_ ?_ _ _
      · simp [hreader]
      · exact hbuffer
      · exact hkeep
  | registeredNotify | startNotify | changedNotify =>
      dsimp only
      split_ifs
      · exact hs
      · refine hs.setThreads ?_ ?_ ?_ _ _ <;> assumption
  | join =>
      dsimp only
      split_ifs
      · exact hs.setThreads hreader hbuffer hkeep _ _
      · exact hs
  | done => exact hs
  | requestExit | stopRunning => refine hs.setThreads ?_ ?_ ?_ _ _ <;> assumption

lemma Quiet.stepLoop (hs : s.Quiet) : s.stepLoop.Quiet := by
  have hreader := hs.reader
  have hbuffer := hs.buffer
  have hframe := frame_stepLoop hreader
  rw [hbuffer] at hframe
  rw [ThrottleExit.stepLoop]
  cases hexit : s.exit with
  | completed => exact hs
  | innerExit => exact quiet_running rfl hreader hbuffer
  | startTest status =>
      dsimp only
      split_ifs <;> exact quiet_running rfl hreader hbuffer
  | running =>
      cases hloop : s.threads.loop with
      | outer =>
          dsimp only
          split_ifs
          · exact ⟨hreader, hbuffer, by simp, by simp, fun _ => hloop⟩
          · exact quiet_running rfl hframe.1 hframe.2
      | startCheck => exact ⟨hreader, hbuffer, fun _ _ => hloop, by simp, by simp⟩
      | innerTest =>
          dsimp only
          split_ifs
          · exact ⟨hreader, hbuffer, by simp, fun _ => hloop, by simp⟩
          · exact quiet_running rfl hreader hbuffer
      | _ => exact quiet_running rfl hframe.1 hframe.2

lemma Quiet.wakeLoop (hs : s.Quiet) (timedOut : Bool) : (s.wakeLoop timedOut).Quiet := by
  obtain ⟨hreader, hbuffer⟩ := frame_wakeLoop s.threads timedOut
  refine hs.setThreads (hreader.trans hs.reader) (hbuffer.trans hs.buffer) (fun h => ?_) _ _
  rw [wakeLoop_of_awake (hs.awake h).1 (hs.awake h).2]

lemma Quiet.next (hs : s.Quiet) (e : ExitEvent) : (exitMachine.next s e).Quiet := by
  cases e with
  | stepDestructor => exact hs.stepDestructor
  | stepLoop => exact hs.stepLoop
  | wakeLoop => exact hs.wakeLoop false
  | timeoutLoop => exact hs.wakeLoop true

/-! ### After `mExitRequested` -/

/-- A loop on its way out needs no notification. -/
lemma notified_of_away {t : ThrottleThreads} {exit : ExitPhase} (n : ℕ)
    (hdata : t.loop.awaitsData = false) (hstart : t.loop ≠ .startAsleep)
    (hexit : exit ≠ .startTest false) : Notified n t exit where
  data _ h := absurd h (by simp [hdata])
  dataWoken _ h := by simp [h, LoopPhase.awaitsData] at hdata
  start _ h := absurd h hexit
  startWoken _ := hstart

/-- The destructor has requested the exit. -/
lemma Quiet.requestExit (hs : s.Quiet) (h : s.destructor = .requestExit) :
    s.stepDestructor.Exiting := by
  have hquiet := hs.stepDestructor
  rw [ThrottleExit.stepDestructor, h] at hquiet ⊢
  refine ⟨hquiet, rfl, ?_, ?_, ?_, ?_, ?_⟩ <;> simp [DestructorPhase.left]

/-- A loop that heads for the wait on `mCvTimePeriodRegistered` came that way before. -/
lemma awaitsData_of_stepLoop {t : ThrottleThreads} (hplain : t.loop ≠ .innerTest)
    (h : t.stepLoop.1.loop.awaitsData) :
    t.loop.awaitsData ∧ t.stepLoop.1.mCvTimePeriodRegistered = t.mCvTimePeriodRegistered ∧
      (t.stepLoop.1.loop = .dataAsleep → t.loop = .dataAsleep ∨
        t.mCvTimePeriodRegistered = false) := by
  rw [ThrottleThreads.stepLoop] at h ⊢
  cases hloop : t.loop with
  | innerTest => exact absurd hloop hplain
  | outerTest | startCheck | idleTest =>
      rw [hloop] at h
      dsimp only at h
      split_ifs at h <;> simp [LoopPhase.awaitsData] at h
  | fetchTest =>
      dsimp only
      refine ⟨rfl, ?_, ?_⟩ <;> split_ifs <;> simp [hloop]
  | dataCheck status timedOut =>
      rw [hloop] at h
      dsimp only at h ⊢
      split_ifs at h ⊢ with hnotified
      · simp [LoopPhase.awaitsData] at h
      · simp [LoopPhase.awaitsData] at h
      · simp_all [LoopPhase.awaitsData]
  | dataPred timedOut => simp [LoopPhase.awaitsData]
  | dataAsleep => simp [LoopPhase.awaitsData]
  | changedNotify | dataNotify | idleNotify =>
      rw [hloop] at h
      dsimp only at h
      rw [ThrottleThreads.notifyChanged] at h
      split_ifs at h <;> simp [hloop, LoopPhase.awaitsData] at h
  | _ =>
      rw [hloop] at h
      simp [hloop, ThrottleThreads.signalChanged, LoopPhase.awaitsData] at h

/-- A loop that goes to sleep on `mCvStartThrottle` has found its flag down. -/
lemma startAsleep_of_stepLoop {t : ThrottleThreads} (hcheck : t.loop ≠ .startCheck)
    (h : t.stepLoop.1.loop = .startAsleep) : t.loop = .startAsleep := by
  rw [ThrottleThreads.stepLoop] at h
  cases hloop : t.loop with
  | startCheck => exact absurd hloop hcheck
  | startAsleep => rfl
  | changedNotify | dataNotify | idleNotify =>
      rw [hloop] at h
      dsimp only at h
      rw [ThrottleThreads.notifyChanged] at h
      split_ifs at h
      exact absurd (hloop.symm.trans h) (by simp)
  | outerTest | innerTest | fetchTest | idleTest | dataCheck status timedOut =>
      rw [hloop] at h
      dsimp only at h
      split_ifs at h <;> first | cases h | exact absurd (hloop.symm.trans h) (by simp)
  | dataAsleep =>
      rw [hloop] at h
      exact absurd (hloop.symm.trans h) (by simp)
  | _ =>
      rw [hloop] at h
      cases h

/-- The signal of a helper. -/
lemma signalled_cases (p asleep awake : LoopPhase) :
    p ≠ asleep ∧ p.signalled asleep awake = p ∨ p = asleep ∧ p.signalled asleep awake = awake := by
  rw [LoopPhase.signalled]
  split_ifs with h
  · exact .inr ⟨h, rfl⟩
  · exact .inl ⟨h, rfl⟩

lemma Notified.registeredSignal {t : ThrottleThreads} {exit : ExitPhase} (h : Notified 6 t exit) :
    Notified 5 { t with loop := t.loop.signalled .dataAsleep (.dataPred false) } exit := by
  rcases signalled_cases t.loop .dataAsleep (.dataPred false) with ⟨hne, heq⟩ | ⟨hasleep, heq⟩
  · rw [heq]
    exact ⟨fun _ => h.data (by omega), fun _ => hne, by simp, by simp⟩
  · rw [heq]
    exact ⟨fun _ _ => h.data (by omega) (by rw [hasleep]; rfl), fun _ => by simp, by simp, by simp⟩

lemma Notified.startSignal {t : ThrottleThreads} {exit : ExitPhase} (h : Notified 4 t exit) :
    Notified 3 { t with loop := t.loop.signalled .startAsleep .startCheck } exit := by
  rcases signalled_cases t.loop .startAsleep .startCheck with ⟨hne, heq⟩ | ⟨hasleep, heq⟩
  · rw [heq]
    exact ⟨fun _ => h.data (by omega), fun _ => h.dataWoken (by omega), fun _ => h.start (by omega),
      fun _ => hne⟩
  · rw [heq]
    refine ⟨fun _ hdata => ?_, fun _ => ?_, fun _ => h.start (by omega), fun _ => ?_⟩
    · cases hdata
    · simp
    · simp

/-- Once the loop has been notified of everything it stays so. -/
lemma Notified.of_lt {t t' : ThrottleThreads} {exit : ExitPhase} {n : ℕ} (h : Notified n t exit)
    (hn : n < 4) (hloop : t'.loop = t.loop)
    (hdata : t'.mCvTimePeriodRegistered = t.mCvTimePeriodRegistered)
    (hstart : t'.mCvStartThrottle = t.mCvStartThrottle) (k : ℕ) : Notified k t' exit where
  data _ := by
    rw [hloop, hdata]
    exact h.data (by omega)
  dataWoken _ := by
    rw [hloop]
    exact h.dataWoken (by omega)
  start _ := by
    rw [hstart]
    exact h.start (by omega)
  startWoken _ := by
    rw [hloop]
    exact h.startWoken hn

theorem Exiting.stepDestructor (hs : s.Exiting) : s.stepDestructor.Exiting := by
  have hquiet := hs.toQuiet.stepDestructor
  have hnotified := hs.notified
  have hrequested := hs.requested
  rw [ThrottleExit.stepDestructor] at hquiet ⊢
  cases hd : s.destructor with
  | requestExit =>
      have hlt := hs.left_lt
      rw [hd] at hlt
      exact absurd hlt (lt_irrefl _)
  | stopRunning =>
      rw [hd] at hquiet
      refine ⟨hquiet, hrequested, ?_, ?_, ?_, ?_, ?_⟩ <;> simp [DestructorPhase.left]
  | registeredNotify =>
      rw [hd] at hquiet
      dsimp only at hquiet ⊢
      split_ifs at hquiet ⊢
      · exact hs
      · exact ⟨hquiet, hrequested, by simp [DestructorPhase.left], fun _ _ => rfl,
          by simp [DestructorPhase.left], by simp [DestructorPhase.left],
          by simp [DestructorPhase.left]⟩
  | registeredSignal =>
      rw [hd] at hquiet hnotified
      exact ⟨hquiet, hrequested, by simp [DestructorPhase.left], hnotified.registeredSignal⟩
  | startNotify =>
      rw [hd] at hquiet hnotified
      dsimp only at hquiet ⊢
      split_ifs at hquiet ⊢
      · exact hs
      · exact ⟨hquiet, hrequested, by simp [DestructorPhase.left],
          fun _ => hnotified.data (by decide), fun _ => hnotified.dataWoken (by decide),
          fun _ _ => rfl, by simp [DestructorPhase.left]⟩
  | startSignal =>
      rw [hd] at hquiet hnotified
      exact ⟨hquiet, hrequested, by simp [DestructorPhase.left], hnotified.startSignal⟩
  | changedNotify =>
      rw [hd] at hquiet hnotified
      dsimp only at hquiet ⊢
      split_ifs at hquiet ⊢
      · exact hs
      · refine ⟨hquiet, hrequested, by simp [DestructorPhase.left],
          hnotified.of_lt ?_ ?_ ?_ ?_ _⟩
        · decide
        all_goals rfl
  | changedSignal =>
      rw [hd] at hquiet hnotified
      refine ⟨hquiet, hrequested, by simp [DestructorPhase.left], hnotified.of_lt ?_ ?_ ?_ ?_ _⟩
      · decide
      all_goals rfl
  | join =>
      rw [hd] at hquiet hnotified
      dsimp only at hquiet ⊢
      split_ifs at hquiet ⊢
      · exact ⟨hquiet, hrequested, by simp [DestructorPhase.left],
          hnotified.of_lt (by decide) rfl rfl rfl _⟩
      · exact hs
  | done => exact hs

/-- A plain step of the loop. -/
lemma Notified.stepLoop {t : ThrottleThreads} {n : ℕ} (h : Notified n t .running)
    (hinner : t.loop ≠ .innerTest) (hcheck : t.loop ≠ .startCheck) :
    Notified n t.stepLoop.1 .running where
  data hn hawaits := by
    obtain ⟨hbefore, hflag, -⟩ := awaitsData_of_stepLoop hinner hawaits
    exact hflag ▸ h.data hn hbefore
  dataWoken hn hloop := by
    obtain ⟨hbefore, -, hasleep⟩ := awaitsData_of_stepLoop hinner (by rw [hloop]; rfl)
    rcases hasleep hloop with hasleep | hflag
    · exact h.dataWoken hn hasleep
    · exact Bool.false_ne_true (hflag.symm.trans (h.data (by omega) hbefore))
  start _ hexit := by cases hexit
  startWoken hn hloop := h.startWoken hn (startAsleep_of_stepLoop hcheck hloop)

theorem Exiting.stepLoop (hs : s.Exiting) : s.stepLoop.Exiting := by
  have hquiet := hs.toQuiet.stepLoop
  have hrequested := hs.requested
  have hnotified := hs.notified
  rw [ThrottleExit.stepLoop] at hquiet ⊢
  cases hexit : s.exit with
  | completed => exact hs
  | innerExit =>
      rw [hexit] at hquiet
      refine ⟨hquiet, hrequested, hs.left_lt, notified_of_away _ ?_ ?_ ?_⟩ <;>
        simp [moveLoop, hrequested, LoopPhase.awaitsData]
  | startTest status =>
      rw [hexit] at hquiet hnotified
      dsimp only at hquiet ⊢
      split_ifs at hquiet ⊢ with hflag
      · exact ⟨hquiet, hrequested, hs.left_lt, notified_of_away _ rfl (by simp) (by simp)⟩
      · rw [Bool.or_eq_true, not_or] at hflag
        have hstatus := Bool.eq_false_of_not_eq_true hflag.2
        refine ⟨hquiet, hrequested, hs.left_lt, fun _ h => ?_, fun _ => ?_, fun _ h => ?_,
          fun hn => ?_⟩
        · cases h
        · simp [moveLoop]
        · cases h
        · have hn' : s.destructor.left < 4 := hn
          exact absurd (hnotified.start (by omega) (by rw [hstatus])) hflag.1
  | running =>
      rw [hexit] at hquiet hnotified
      cases hloop : s.threads.loop with
      | outer =>
          rw [hloop] at hquiet
          simp only [hrequested, if_true] at hquiet ⊢
          exact ⟨hquiet, rfl, hs.left_lt, notified_of_away _ (by simp [hloop, LoopPhase.awaitsData])
            (by simp [hloop]) (by simp)⟩
      | startCheck =>
          rw [hloop] at hquiet
          simp only [hrequested] at hquiet ⊢
          exact ⟨hquiet, rfl, hs.left_lt, notified_of_away _ (by simp [hloop, LoopPhase.awaitsData])
            (by simp [hloop]) (by simp)⟩
      | innerTest =>
          rw [hloop] at hquiet
          dsimp only at hquiet ⊢
          split_ifs at hquiet ⊢
          · exact ⟨hquiet, hrequested, hs.left_lt,
              notified_of_away _ (by simp [hloop, LoopPhase.awaitsData]) (by simp [hloop])
                (by simp)⟩
          · exact ⟨hquiet, hrequested, hs.left_lt, notified_of_away _ rfl (by simp [moveLoop])
              (by simp [moveLoop])⟩
      | _ =>
          rw [hloop] at hquiet
          exact ⟨hquiet, hrequested, hs.left_lt,
            hnotified.stepLoop (by simp [hloop]) (by simp [hloop])⟩

/-- A loop that wakes up without reason still finds what it has been notified of. -/
lemma Notified.wakeLoop {t : ThrottleThreads} {exit : ExitPhase} {n : ℕ} (h : Notified n t exit)
    (timedOut : Bool) : Notified n (t.wakeLoop timedOut) exit := by
  by_cases hstart : t.loop = .startAsleep
  · rw [ThrottleThreads.wakeLoop, hstart]
    cases timedOut
    · refine ⟨fun _ hdata => ?_, fun _ => ?_, h.start, fun _ => ?_⟩
      · cases hdata
      · simp
      · simp
    · exact h
  by_cases hdata : t.loop = .dataAsleep
  · rw [ThrottleThreads.wakeLoop, hdata]
    exact ⟨fun hn _ => h.data hn (by rw [hdata]; rfl), fun _ => by simp, h.start, fun _ => by simp⟩
  · rwa [wakeLoop_of_awake hstart hdata]

/-- **One event** after `mExitRequested`. -/
theorem Exiting.next (hs : s.Exiting) (e : ExitEvent) : (exitMachine.next s e).Exiting := by
  cases e with
  | stepDestructor => exact hs.stepDestructor
  | stepLoop => exact hs.stepLoop
  | wakeLoop => exact ⟨hs.toQuiet.wakeLoop false, hs.requested, hs.left_lt, hs.notified.wakeLoop _⟩
  | timeoutLoop =>
      exact ⟨hs.toQuiet.wakeLoop true, hs.requested, hs.left_lt, hs.notified.wakeLoop _⟩

/-! ### The destructor returns -/

/-- The steps left, where a signal of the destructor may cost the loop two more. -/
def rank (s : ThrottleExit) : ℕ := 3 * s.destructor.left + s.loopLeft

/-- What a step of the destructor does: it has to wait, or is nearer to its end. -/
lemma Quiet.stepDestructor_cases (hs : s.Quiet) :
    (s.stepDestructor = s ∧ (s.destructor = .done ∨ s.destructor = .join ∧ s.exit ≠ .completed ∨
      s.threads.loop.holdsRegistered ∨ s.threads.loop = .startCheck)) ∨
      s.stepDestructor.rank < s.rank := by
  have hheld : s.threads.reader.holdsChanged = false := by rw [hs.reader]; rfl
  have hsignal : ∀ asleep awake : LoopPhase, awake.left ≤ asleep.left + 2 →
      ∀ d : DestructorPhase, d.left < s.destructor.left →
        ThrottleExit.rank { s with
          threads := { s.threads with loop := s.threads.loop.signalled asleep awake }
          destructor := d } < s.rank := by
    intro asleep awake hle d hd
    have hloop : (s.threads.loop.signalled asleep awake).left ≤ s.threads.loop.left + 2 := by
      rcases signalled_cases s.threads.loop asleep awake with ⟨-, heq⟩ | ⟨hasleep, heq⟩
      · rw [heq]
        exact Nat.le_add_right ..
      · rw [heq, hasleep]
        exact hle
    rw [rank, rank, loopLeft, loopLeft]
    cases s.exit <;> dsimp only <;> omega
  rw [ThrottleExit.stepDestructor]
  cases hd : s.destructor with
  | done => exact .inl ⟨rfl, .inl rfl⟩
  | join =>
      dsimp only
      split_ifs with hexit
      · exact .inr (by simp [rank, loopLeft, hd, DestructorPhase.left])
      · exact .inl ⟨rfl, .inr (.inl ⟨rfl, hexit⟩)⟩
  | registeredNotify =>
      dsimp only
      split_ifs with hholds
      · exact .inl ⟨rfl, .inr (.inr (.inl hholds))⟩
      · exact .inr (by simp [rank, loopLeft, hd, DestructorPhase.left])
  | startNotify =>
      dsimp only
      split_ifs with hcheck
      · exact .inl ⟨rfl, .inr (.inr (.inr hcheck))⟩
      · exact .inr (by simp [rank, loopLeft, hd, DestructorPhase.left])
  | registeredSignal => exact .inr (hsignal _ _ (by decide) _ (by rw [hd]; decide))
  | startSignal => exact .inr (hsignal _ _ (by decide) _ (by rw [hd]; decide))
  | changedNotify =>
      refine .inr ?_
      simp [hheld, rank, loopLeft, hd, DestructorPhase.left]
  | _ => exact .inr (by simp [rank, loopLeft, hd, DestructorPhase.left])

/-- A step of the loop leaves the destructor where it is. -/
lemma destructor_stepLoop (s : ThrottleExit) : s.stepLoop.destructor = s.destructor := by
  rw [ThrottleExit.stepLoop]
  cases s.exit with
  | running => cases s.threads.loop <;> dsimp only <;> split_ifs <;> rfl
  | startTest status => dsimp only; split_ifs <;> rfl
  | _ => rfl

lemma destructor_next {e : ExitEvent} (he : e ≠ .stepDestructor) :
    (exitMachine.next s e).destructor = s.destructor := by
  cases e with
  | stepDestructor => exact absurd rfl he
  | stepLoop => exact destructor_stepLoop s
  | wakeLoop => rfl
  | timeoutLoop => rfl

/-- After `mExitRequested` each event lowers the rank or has no effect, unless the loop wakes up
without reason. -/
lemma Exiting.rank_next (hs : s.Exiting) {e : ExitEvent} (he : e ≠ .wakeLoop) :
    exitMachine.next s e = s ∨ (exitMachine.next s e).rank < s.rank := by
  cases e with
  | stepDestructor => exact hs.toQuiet.stepDestructor_cases.imp_left And.left
  | stepLoop =>
      refine (hs.toQuiet.stepLoop_cases hs.requested).imp And.left fun h => ?_
      have hd := destructor_stepLoop s
      show s.stepLoop.rank < s.rank
      rw [rank, rank, hd]
      omega
  | wakeLoop => exact absurd rfl he
  | timeoutLoop =>
      show s.wakeLoop true = s ∨ (s.wakeLoop true).rank < s.rank
      rw [ThrottleExit.wakeLoop]
      by_cases hdata : s.threads.loop = .dataAsleep
      · have hexit : s.exit = .running :=
          by_contra fun h => (hs.toQuiet.awake h).2 hdata
        refine .inr ?_
        simp [ThrottleThreads.wakeLoop, hdata, rank, loopLeft, hexit, LoopPhase.left]
      by_cases hstart : s.threads.loop = .startAsleep
      · exact .inl (by simp [ThrottleThreads.wakeLoop, hstart])
      · exact .inl (by rw [wakeLoop_of_awake hstart hdata])

/-- Until the destructor has returned, it or the loop can take a step. -/
lemma Exiting.exists_step (hs : s.Exiting) (hd : s.destructor ≠ .done) :
    ∃ e, (e = .stepDestructor ∨ e = .stepLoop) ∧ exitMachine.next s e ≠ s := by
  have hne : ∀ {s' : ThrottleExit}, s'.rank < s.rank → s' ≠ s := fun hlt heq =>
    lt_irrefl _ (heq ▸ hlt)
  rcases hs.toQuiet.stepDestructor_cases with ⟨-, hwaits⟩ | hlt
  swap
  · exact ⟨.stepDestructor, .inl rfl, hne hlt⟩
  -- the destructor waits for the loop, which is not asleep
  rcases hs.toQuiet.stepLoop_cases hs.requested with ⟨-, hblocked⟩ | hlt
  swap
  · refine ⟨.stepLoop, .inr rfl, hne ?_⟩
    have hd := destructor_stepLoop s
    show s.stepLoop.rank < s.rank
    rw [rank, rank, hd]
    omega
  exfalso
  rcases hwaits with hdone | ⟨hjoin, hexit⟩ | hholds | hcheck
  · exact hd hdone
  · rcases hblocked with hcompleted | ⟨-, hstart | hdata⟩
    · exact hexit hcompleted
    · exact hs.notified.startWoken (by rw [hjoin]; decide) hstart
    · exact hs.notified.dataWoken (by rw [hjoin]; decide) hdata
  · rcases hblocked with hcompleted | ⟨-, hstart | hdata⟩
    · rw [hs.completed hcompleted] at hholds
      cases hholds
    · rw [hstart] at hholds
      cases hholds
    · rw [hdata] at hholds
      cases hholds
  · rcases hblocked with hcompleted | ⟨-, hstart | hdata⟩
    · exact absurd ((hs.completed hcompleted).symm.trans hcheck) (by simp)
    · exact absurd (hstart.symm.trans hcheck) (by simp)
    · exact absurd (hdata.symm.trans hcheck) (by simp)

/-- A destructor that has returned has joined the loop. -/
def Joined (s : ThrottleExit) : Prop := s.destructor = .done → s.exit = .completed

lemma Joined.next (h : s.Joined) (e : ExitEvent) : (exitMachine.next s e).Joined := by
  intro hd
  cases e with
  | stepDestructor =>
      change s.stepDestructor.destructor = .done at hd
      show s.stepDestructor.exit = .completed
      rw [ThrottleExit.stepDestructor] at hd ⊢
      cases hphase : s.destructor with
      | done => exact h hphase
      | join =>
          rw [hphase] at hd
          dsimp only at hd ⊢
          split_ifs at hd ⊢ with hexit
          · exact hexit
          · exact absurd (hphase.symm.trans hd) (by simp)
      | registeredNotify | startNotify | changedNotify =>
          rw [hphase] at hd
          dsimp only at hd
          split_ifs at hd
          exact absurd (hphase.symm.trans hd) (by simp)
      | _ =>
          rw [hphase] at hd
          cases hd
  | stepLoop =>
      change s.stepLoop.destructor = .done at hd
      rw [destructor_stepLoop] at hd
      show s.stepLoop.exit = .completed
      rw [ThrottleExit.stepLoop, h hd]
      exact h hd
  | wakeLoop => exact h hd
  | timeoutLoop => exact h hd

/-- **The destructor returns.** Let the throttle have been used in any way, with its loop wherever
it is, until nobody is in a call. In every schedule that goes on with the destructor and with the
loop, and has finitely many wake-ups without reason, the destructor returns, after the end of the
loop. -/
theorem destructor_returns (preAllocBufSize : ℕ) (es : List ThrottleEvent) (f : ℕ → ExitEvent)
    (hreader : (throttleMachine.run (create preAllocBufSize) es).reader = .idle)
    (hbuffer : (throttleMachine.run (create preAllocBufSize) es).buffer = .free)
    (hdestructor : Recurs f .stepDestructor) (hloop : Recurs f .stepLoop)
    (hwakes : ∃ n, ∀ k, n ≤ k → f k ≠ .wakeLoop) :
    ∃ n, (exitMachine.stateAt (destroy (throttleMachine.run (create preAllocBufSize) es)) f
        n).destructor = .done ∧
      (exitMachine.stateAt (destroy (throttleMachine.run (create preAllocBufSize) es)) f
        n).exit = .completed := by
  set s := destroy (throttleMachine.run (create preAllocBufSize) es) with hs
  have hquiet : s.Quiet := quiet_running rfl hreader hbuffer
  -- the destructor gets to request the exit
  obtain ⟨n, ⟨hquiet', hphase⟩, hn⟩ := Machine.eventually_next
    (fun s : ThrottleExit => s.Quiet ∧ s.destructor = .requestExit)
    (fun s e he hI => ⟨hI.1.next e, (destructor_next he).trans hI.2⟩) ⟨hquiet, rfl⟩ hdestructor
  have hexiting : (exitMachine.stateAt s f (n + 1)).Exiting := by
    rw [Machine.stateAt, hn]
    exact hquiet'.requestExit hphase
  -- from there on the rank leads to the end, once the wake-ups without reason are over
  obtain ⟨w, hw⟩ := hwakes
  have hlater : (exitMachine.stateAt s f (n + 1 + w)).Exiting := by
    rw [Machine.stateAt_add]
    exact Machine.invariant_stateAt (fun _ e h => h.next e) hexiting w
  set g : ℕ → ExitEvent := fun i => f (n + 1 + w + i)
  have hprogress : ∀ s : ThrottleExit, s.Exiting → ¬ s.destructor = .done →
      ∃ e, Recurs g e ∧ exitMachine.next s e ≠ s := by
    intro s h hd
    obtain ⟨e, rfl | rfl, hne⟩ := h.exists_step hd
    · exact ⟨_, hdestructor.shift _, hne⟩
    · exact ⟨_, hloop.shift _, hne⟩
  obtain ⟨k, hk⟩ := Machine.eventually_of_rank Exiting (fun s => s.destructor = .done)
    (· ≠ .wakeLoop) rank (fun _ e h _ => h.next e) (fun _ _ h he => h.rank_next he) hprogress hlater
    (fun i => hw _ (by omega))
  rw [← Machine.stateAt_add] at hk
  have hjoined : s.Joined := fun hd => by cases hd
  exact ⟨_, hk, Machine.invariant_stateAt (fun _ e h => h.next e) hjoined (n + 1 + w + k) hk⟩

/-- The two threads take turns. -/
def takeTurns (n : ℕ) : ExitEvent := if n % 2 = 0 then .stepDestructor else .stepLoop

/-- The destructor returns while the loop sleeps and waits to be started. -/
theorem destructor_returns_asleep :
    ∃ n, (exitMachine.stateAt (destroy (throttleMachine.run (create 4)
        [.stepLoop, .stepLoop, .stepLoop])) takeTurns n).destructor = .done ∧
      (exitMachine.stateAt (destroy (throttleMachine.run (create 4)
        [.stepLoop, .stepLoop, .stepLoop])) takeTurns n).exit = .completed := by
  refine destructor_returns 4 [.stepLoop, .stepLoop, .stepLoop] takeTurns rfl rfl
    (fun n => ⟨2 * n, by omega, ?_⟩) (fun n => ⟨2 * n + 1, by omega, ?_⟩) ⟨0, fun k _ => ?_⟩
  · rw [takeTurns, if_pos (by omega)]
  · rw [takeTurns, if_neg (by omega)]
  · rw [takeTurns]
    split_ifs <;> simp

end ThrottleExit

end StreamFs
