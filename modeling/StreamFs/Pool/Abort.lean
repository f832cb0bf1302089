import StreamFs.Pool.Threads

/-!
Which reads an abort ends.

All readers share one flag. `abortAllOperations` raises it, the first reader that checks its
predicate takes it down again, and so does `clearToLastRead`. It is up to the order of the steps
whether a reader that slept when the flag was raised still finds it, and whether a raised flag
that no reader took is left over for a later read.

* `Ending`: a read that slept at the call of an abort is awake as soon as the abort has notified,
  and its check ends it.
* `EndsSleepers`, `SparesLater`: what an abort is for, over the parts of a run.
* `AbortsAlone`: a reader asleep at a call of `abortAllOperations` is the only one in the wait; a
  read comes to wait under a raised flag only while an abort is under way and no other read waits;
  no read waits when `clearToLastRead` takes a raised flag down.
* `aborts_run`: in a run of such steps every abort ends the reads that sleep, and no later one.
-/

namespace StreamFs

namespace Threads

variable {ι : Type*} [DecidableEq ι]

/-- The read of thread `i` slept when thread `j` called `abortAllOperations`, and now it ends: it
is awake as soon as `j` has notified, and its check returns `0`. -/
def Ending (producer : ι) (s : Threads ι) (j i : ι) (a : ReadArgs) : Prop :=
  s.phase i = .parked a ∧ s.phase j = .abortNotify ∨
  (∃ b, s.phase i = .waitRelock a b) ∨
  ∃ b, s.phase i = .waitCheck a b ∧ ∀ c,
    (s.step producer i c).2 = some .nothing ∧ (s.step producer i c).1.phase i = .idle

/-- The thread checks the predicate of its wait in this step. -/
def ChecksWait (i : ι) (t : Transition (Threads ι) (ThreadEvent ι) (Option ReadResult)) : Prop :=
  match t.event with
  | .step k _ => k = i ∧ (t.before.phase i).atCheck
  | _ => False

instance (i : ι) (t : Transition (Threads ι) (ThreadEvent ι) (Option ReadResult)) :
    Decidable (ChecksWait i t) :=
  match t with
  | ⟨_, .step _ _, _, _⟩ => inferInstanceAs (Decidable (_ ∧ _))
  | ⟨_, .call _ _, _, _⟩ | ⟨_, .timeout _, _, _⟩ | ⟨_, .spuriousWake _, _, _⟩
  | ⟨_, .exit _, _, _⟩ =>
      .isFalse id

/-- Every abort of the run ends every read that sleeps when it is called. -/
def EndsSleepers (producer : ι) (s : Threads ι) (es : List (ThreadEvent ι)) : Prop :=
  ∀ es₁ j es₂ i a, es = es₁ ++ .call j .abortAllOperations :: es₂ →
    ((threadMachine producer).run s es₁).MayCall producer j .abortAllOperations →
    ((threadMachine producer).run s es₁).phase i = .parked a →
    (∀ t ∈ (threadMachine producer).trace
      ((threadMachine producer).run s (es₁ ++ [.call j .abortAllOperations])) es₂,
      ¬ ChecksWait i t) →
    ((threadMachine producer).run s es).Ending producer j i a

/-- No abort of the run ends a read that starts after it has returned: where no abort is under way
when a thread is outside of the pool, and none is called from there on, the thread finds the flag
down whenever it checks the predicate of its wait. -/
def SparesLater (producer : ι) (s : Threads ι) (es : List (ThreadEvent ι)) : Prop :=
  ∀ es₁ es₂ i, es = es₁ ++ es₂ →
    ((threadMachine producer).run s es₁).phase i = .idle →
    (∀ k, (((threadMachine producer).run s es₁).phase k).aborts = false) →
    (∀ k, .call k .abortAllOperations ∉ es₂) →
    ∀ a b, ((threadMachine producer).run s es).phase i = .waitCheck a b →
      ((threadMachine producer).run s es).pool.mAborting = false

/-- No reader is in the wait. -/
def NoneWaits (s : Threads ι) : Prop := ∀ k, (s.phase k).inWait = false

instance [Fintype ι] (s : Threads ι) : Decidable s.NoneWaits :=
  inferInstanceAs (Decidable (∀ _, _))

/-- A reader that is asleep is the only one in the wait. -/
def SleepsAlone (s : Threads ι) : Prop :=
  ∀ i, (s.phase i).sleeping.isSome → ∀ k, (s.phase k).inWait → k = i

instance [Fintype ι] (s : Threads ι) : Decidable s.SleepsAlone :=
  inferInstanceAs (Decidable (∀ _, _))

/-- The step of thread `i` leaves a raised flag to the one it is meant for: a read that comes to
wait does so while an abort is under way and no other read waits, and `clearToLastRead` does not
take the flag down under a read that waits. -/
def LeavesFlag (s : Threads ι) (i : ι) : Prop :=
  (∀ a ∈ (s.phase i).guarding, s.pool.guards a = none → s.pool.mustWait a →
    (∃ k, (s.phase k).aborts) ∧ s.NoneWaits) ∧
  (s.phase i = .rewinding → s.pool.getSize ≠ 0 → s.NoneWaits)

instance [Fintype ι] (s : Threads ι) (i : ι) : Decidable (s.LeavesFlag i) :=
  inferInstanceAs (Decidable (_ ∧ _))

/-- A step in which the flag meets one read at a time. -/
def AbortsAlone (t : Transition (Threads ι) (ThreadEvent ι) (Option ReadResult)) : Prop :=
  match t.event with
  | .call j .abortAllOperations => t.before.phase j = .idle → t.before.SleepsAlone
  | .step i _ => t.before.pool.mAborting = true → t.before.LeavesFlag i
  | _ => True

instance [Fintype ι] (t : Transition (Threads ι) (ThreadEvent ι) (Option ReadResult)) :
    Decidable (AbortsAlone t) :=
  match t with
  | ⟨_, .call _ .abortAllOperations, _, _⟩ => inferInstanceAs (Decidable (_ → SleepsAlone _))
  | ⟨_, .step _ _, _, _⟩ => inferInstanceAs (Decidable (_ → LeavesFlag _ _))
  | ⟨_, .call _ (.read _), _, _⟩ | ⟨_, .call _ (.pushBuffer _ _), _, _⟩ | ⟨_, .call _ .clear, _, _⟩
  | ⟨_, .call _ .clearToLastRead, _, _⟩ | ⟨_, .call _ .destroy, _, _⟩ | ⟨_, .timeout _, _, _⟩
  | ⟨_, .spuriousWake _, _, _⟩ | ⟨_, .exit _, _, _⟩ => .isTrue trivial

section

variable {producer : ι} {s : Threads ι}

omit [DecidableEq ι] in
/-- A thread that goes on comes to the wait at its check or on its way to sleep. -/
lemma Goes.inWait {e : ThreadEvent ι} {i : ι} {p : ThreadPhase} {q : BufferPool}
    (h : s.Goes producer e i p q) (hp : p.inWait) :
    (∃ a b, p = .waitCheck a b) ∨ ∃ a, p = .waitPark a := by
  cases p with
  | waitCheck a b => exact .inl ⟨a, b, rfl⟩
  | waitPark a => exact .inr ⟨a, rfl⟩
  | parked a => exact absurd rfl (h.parked a)
  | waitRelock a b => exact absurd rfl (h.waitRelock a b)
  | _ => simp [ThreadPhase.inWait] at hp

omit [DecidableEq ι] in
/-- A read comes to wait under a raised flag. -/
lemma LeavesFlag.enters {i : ι} {a : ReadArgs} (h : s.LeavesFlag i) (hi : s.phase i = .readGuards a)
    (hguards : s.pool.guards a = none) (hmust : s.pool.mustWait a) :
    (∃ k, (s.phase k).aborts) ∧ s.NoneWaits :=
  h.1 a (by rw [hi]; rfl) hguards hmust

/-! ### The reads an abort ends -/

/-- Thread `j` has raised the flag while the read of thread `i` slept: the flag is up, no other
read is in the wait, and the read is on its way to its check. -/
structure Aborting (s : Threads ι) (j i : ι) (a : ReadArgs) : Prop where
  flag : s.pool.mAborting = true
  alone : ∀ k, (s.phase k).inWait → k = i
  ending : s.phase i = .parked a ∧ s.phase j = .abortNotify ∨
    (∃ b, s.phase i = .waitRelock a b) ∨ ∃ b, s.phase i = .waitCheck a b

namespace Aborting

variable {j i : ι} {a : ReadArgs}

omit [DecidableEq ι] in
lemma inWait (hs : s.Aborting j i a) : (s.phase i).inWait := by
  rcases hs.ending with ⟨h, -⟩ | ⟨b, h⟩ | ⟨b, h⟩ <;> simp [h, ThreadPhase.inWait]

omit [DecidableEq ι] in
lemma not_noneWaits (hs : s.Aborting j i a) : ¬ s.NoneWaits := fun h =>
  Bool.false_ne_true ((h i).symm.trans hs.inWait)

/-- Another thread goes on and stays out of the wait. -/
lemma moveTo (hs : s.Aborting j i a) {k : ι} {p : ThreadPhase} {q : BufferPool}
    (hq : q.mAborting = true) (hk : (s.phase k).inWait = false) (hp : p.inWait = false)
    (hj : s.phase k = .abortNotify → ∀ b, s.phase i ≠ .parked b) (l : List ι) (c : Settled)
    (o : Option ι) : Aborting ({ s with
      pool := q, mNotEnoughBytes := l, settled := c, abortedBy := o }.moveTo k p) j i a := by
  have hki : i ≠ k := by
    rintro rfl
    exact Bool.false_ne_true (hk.symm.trans hs.inWait)
  refine ⟨hq, fun n hn => hs.alone n ?_, ?_⟩
  · by_cases hnk : n = k
    · simp [hnk, hp] at hn
    · rwa [phase_moveTo_of_ne _ hnk] at hn
  · rw [phase_moveTo_of_ne _ hki]
    rcases hs.ending with ⟨hi, hnotify⟩ | h
    · have hjk : j ≠ k := by
        rintro rfl
        exact hj hnotify a hi
      exact .inl ⟨hi, by rwa [phase_moveTo_of_ne _ hjk]⟩
    · exact .inr h

/-- The read itself goes on, towards its check. -/
lemma moveTo_self (hs : s.Aborting j i a) {p : ThreadPhase} {q : BufferPool}
    (hq : q.mAborting = true) {b : Bool} (hp : p = .waitRelock a b ∨ p = .waitCheck a b)
    (l : List ι) :
    Aborting ({ s with pool := q, mNotEnoughBytes := l }.moveTo i p) j i a := by
  refine ⟨hq, fun n hn => ?_, ?_⟩
  · by_cases hni : n = i
    · exact hni
    · rw [phase_moveTo_of_ne _ hni] at hn
      exact hs.alone n hn
  · rw [phase_moveTo_self]
    exact .inr (hp.imp (fun h => ⟨b, h⟩) fun h => ⟨b, h⟩)

/-- A sleep ends: it is the one of the read. -/
lemma wake (hs : s.Aborting j i a) {k : ι} {a' : ReadArgs} (hk : s.phase k = .parked a')
    (timedOut : Bool) : (s.wake k timedOut).Aborting j i a := by
  obtain rfl := hs.alone k (by simp [hk, ThreadPhase.inWait])
  obtain rfl : a' = a := by
    rcases hs.ending with ⟨h, -⟩ | ⟨b, h⟩ | ⟨b, h⟩ <;> simp_all
  rw [Threads.wake, hk]
  exact hs.moveTo_self hs.flag (.inl rfl) _

lemma notifyOne (hs : s.Aborting j i a) (n : ℕ) : (s.notifyOne n).Aborting j i a := by
  rw [Threads.notifyOne]
  cases s.sleeper n with
  | none => exact hs
  | some k =>
      rcases s.wake_cases k false with ⟨h, -⟩ | ⟨a', hk, -⟩
      · simpa only [h] using hs
      · exact hs.wake hk false

omit [DecidableEq ι] in
lemma notifyAll (hs : s.Aborting j i a) : s.notifyAll.Aborting j i a := by
  refine ⟨hs.flag, fun n hn => hs.alone n ?_, .inr ?_⟩
  · rcases hp : s.phase n <;> simp_all [Threads.notifyAll, ThreadPhase.woken, ThreadPhase.inWait]
  · rcases hs.ending with ⟨h, -⟩ | ⟨b, h⟩ | ⟨b, h⟩ <;>
      simp [Threads.notifyAll, ThreadPhase.woken, h]

/-- **Where aborts meet one read at a time, the read that slept when the flag was raised finds it
up at its check.** -/
theorem moves (hs : s.Aborting j i a) {e : ThreadEvent ι} {s' : Threads ι}
    (h : s.Moves producer e s') (halone : AbortsAlone ((threadMachine producer).transition s e))
    (hcheck : ¬ ChecksWait i ((threadMachine producer).transition s e)) :
    s'.Aborting j i a := by
  cases h with
  | stay => exact hs
  | go k p q h =>
      have hflag : q.mAborting = true := h.pool.mAborting.trans hs.flag
      by_cases hk : k = i
      · subst hk
        rcases hs.ending with ⟨hi, -⟩ | ⟨b, hi⟩ | ⟨b, hi⟩
        · exact absurd hi (h.awake a)
        · exact hs.moveTo_self hflag (.inr (h.relock a b hi)) _
        · obtain ⟨c, rfl⟩ := h.checked a b hi
          exact absurd ⟨rfl, congrArg ThreadPhase.atCheck hi⟩ hcheck
      · have hout : (s.phase k).inWait = false :=
          Bool.eq_false_of_not_eq_true fun hw => hk (hs.alone k hw)
        refine hs.moveTo hflag hout (Bool.eq_false_of_not_eq_true fun hp => ?_)
          (fun hn => absurd hn h.leaves.2.2) _ _ _
        rcases h.inWait hp with ⟨a', b, rfl⟩ | ⟨a', rfl⟩
        · rcases h.check a' b rfl with hk' | ⟨⟨c, rfl⟩, hk', hguards, hmust⟩
          · simp [hk', ThreadPhase.inWait] at hout
          · have hleaves : s.LeavesFlag k := halone hs.flag
            exact hs.not_noneWaits (hleaves.enters hk' hguards hmust).2
        · exact h.park a' rfl (.inr (.inr hs.flag))
  | park k c a' h =>
      obtain rfl := hs.alone k (by simp [h, ThreadPhase.inWait])
      rcases hs.ending with ⟨hi, -⟩ | ⟨b, hi⟩ | ⟨b, hi⟩ <;> simp [h] at hi
  | wake k timedOut a' h => exact hs.wake h timedOut
  | leave k c a' timedOut h =>
      obtain rfl := hs.alone k (by simp [h, ThreadPhase.inWait])
      exact absurd ⟨rfl, congrArg ThreadPhase.atCheck h⟩ hcheck
  | store k c b h =>
      exact hs.moveTo (k := k) (p := .pushNotify) (q := s.pool.storeChunk b) hs.flag
        (by simp [h, ThreadPhase.inWait]) rfl (by simp [h]) _ _ _
  | notifyOne k c h =>
      have hk := s.phase_notifyOne_of_awake c.sleeper (i := k) (by simp [h])
      exact (hs.notifyOne c.sleeper).moveTo (hs.notifyOne c.sleeper).flag
        (by simp [hk, h, ThreadPhase.inWait]) rfl (by simp [hk, h]) _ _ _
  | settle k c h =>
      exact hs.moveTo hs.flag (by simp [h, ThreadPhase.inWait]) rfl (by simp [h]) _ _ _
  | clear k c h =>
      exact hs.moveTo (k := k) (p := .idle) (q := s.pool.clear) hs.flag
        (by simp [h, ThreadPhase.inWait]) rfl (by simp [h]) _ _ _
  | rewind k c h =>
      have hempty : s.pool.getSize = 0 := by
        by_contra hsize
        exact hs.not_noneWaits ((halone hs.flag).2 h hsize)
      refine hs.moveTo (k := k) (p := .idle) (q := s.pool.clearToLastRead) ?_
        (by simp [h, ThreadPhase.inWait]) rfl (by simp [h]) _ _ _
      rw [BufferPool.clearToLastRead, if_pos hempty]
      exact hs.flag
  | raise k h hne =>
      exact hs.moveTo (k := k) (p := .abortNotify) (q := s.pool.abortAllOperations) rfl
        (by simp [h, ThreadPhase.inWait]) rfl (by simp [h]) _ _ _
  | notifyAll k c h =>
      exact hs.notifyAll.moveTo hs.flag
        (by simp [Threads.notifyAll, h, ThreadPhase.woken, ThreadPhase.inWait]) rfl
        (fun _ => woken_ne_parked _) _ _ _
  | finish k c h =>
      exact hs.moveTo hs.flag (by simp [h, ThreadPhase.inWait]) rfl (by simp [h]) _ _ _

end Aborting

/-! ### The reads an abort spares -/

/-- No abort is under way, and thread `i` does not wait under a raised flag. -/
structure Spared (s : Threads ι) (i : ι) : Prop where
  quiet : ∀ k, (s.phase k).aborts = false
  flag : (s.phase i).inWait → s.pool.mAborting = false

namespace Spared

variable {i : ι}

/-- A thread goes on outside of `abortAllOperations` without raising the flag, and does not come to
wait under it. -/
lemma moveTo (hs : s.Spared i) {k : ι} {p : ThreadPhase} {q : BufferPool}
    (hq : q.mAborting = true → s.pool.mAborting = true) (hp : p.aborts = false)
    (hwait : p.inWait → (s.phase k).inWait ∨ s.pool.mAborting = false) (l : List ι) (c : Settled)
    (o : Option ι) : Spared ({ s with
      pool := q, mNotEnoughBytes := l, settled := c, abortedBy := o }.moveTo k p) i := by
  have hdown : s.pool.mAborting = false → q.mAborting = false := fun h =>
    Bool.eq_false_of_not_eq_true fun hup => Bool.false_ne_true (h.symm.trans (hq hup))
  refine ⟨fun n => ?_, fun hi => hdown ?_⟩
  · by_cases hn : n = k
    · simpa [hn] using hp
    · simpa [phase_moveTo_of_ne _ hn] using hs.quiet n
  · by_cases hik : i = k
    · subst hik
      exact (hwait (by simpa using hi)).elim hs.flag id
    · exact hs.flag (by simpa [phase_moveTo_of_ne _ hik] using hi)

lemma wake (hs : s.Spared i) (k : ι) (timedOut : Bool) : (s.wake k timedOut).Spared i := by
  rcases s.wake_cases k timedOut with ⟨h, -⟩ | ⟨a, hk, h⟩
  · rwa [h]
  · rw [h]
    exact hs.moveTo id rfl (fun _ => .inl (by rw [hk]; rfl)) _ _ _

lemma notifyOne (hs : s.Spared i) (n : ℕ) : (s.notifyOne n).Spared i := by
  rw [Threads.notifyOne]
  cases s.sleeper n with
  | none => exact hs
  | some k => exact hs.wake k false

/-- **Where aborts meet one read at a time, and none is called, a read finds the flag down.** -/
theorem moves (hs : s.Spared i) {e : ThreadEvent ι} {s' : Threads ι}
    (h : s.Moves producer e s') (halone : AbortsAlone ((threadMachine producer).transition s e))
    (hcall : ∀ k, e ≠ .call k .abortAllOperations) : s'.Spared i := by
  have haborts : ∀ {k p}, s.phase k = p → p.aborts = false := fun h => h ▸ hs.quiet _
  cases h with
  | stay => exact hs
  | go k p q h =>
      refine hs.moveTo (fun hup => h.pool.mAborting.symm.trans hup) (h.aborts.trans (hs.quiet k))
        (fun hp => ?_) _ _ _
      rcases h.inWait hp with ⟨a, b, rfl⟩ | ⟨a, rfl⟩
      · rcases h.check a b rfl with hk | ⟨⟨c, rfl⟩, hk, hguards, hmust⟩
        · exact .inl (by rw [hk]; rfl)
        · refine .inr (Bool.eq_false_of_not_eq_true fun hup => ?_)
          have hleaves : s.LeavesFlag k := halone hup
          obtain ⟨⟨n, hn⟩, -⟩ := hleaves.enters hk hguards hmust
          exact Bool.false_ne_true ((hs.quiet n).symm.trans hn)
      · exact .inr (Bool.eq_false_of_not_eq_true fun hup => h.park a rfl (.inr (.inr hup)))
  | park k c a h => exact hs.moveTo id rfl (fun _ => .inl (by rw [h]; rfl)) _ _ _
  | wake k timedOut => exact hs.wake k timedOut
  | leave k c a timedOut h habort =>
      exact hs.moveTo (fun _ => habort) rfl (by simp [ThreadPhase.inWait]) _ _ _
  | store k c b h =>
      exact hs.moveTo (k := k) (p := .pushNotify) (q := s.pool.storeChunk b) id rfl
        (by simp [ThreadPhase.inWait]) _ _ _
  | notifyOne k c h =>
      exact (hs.notifyOne c.sleeper).moveTo id rfl (by simp [ThreadPhase.inWait]) _ _ _
  | settle k c h => exact hs.moveTo id rfl (by simp [ThreadPhase.inWait]) _ _ _
  | clear k c h =>
      exact hs.moveTo (k := k) (p := .idle) (q := s.pool.clear) id rfl
        (by simp [ThreadPhase.inWait]) _ _ _
  | rewind k c h =>
      exact hs.moveTo (k := k) (p := .idle) (q := s.pool.clearToLastRead)
        BufferPool.mAborting_of_clearToLastRead rfl (by simp [ThreadPhase.inWait]) _ _ _
  | raise k h => exact absurd rfl (hcall k)
  | notifyAll k c h => simpa [ThreadPhase.aborts] using haborts h
  | finish k c h => simpa [ThreadPhase.aborts] using haborts h

end Spared

/-! ### Every run -/

/-- The call of an abort, where each read that sleeps is alone. -/
lemma aborting_call {j i : ι} {a : ReadArgs}
    (halone : AbortsAlone ((threadMachine producer).transition s (.call j .abortAllOperations)))
    (hcall : s.MayCall producer j .abortAllOperations) (hi : s.phase i = .parked a) :
    ((threadMachine producer).next s (.call j .abortAllOperations)).Aborting j i a := by
  have hij : i ≠ j := by
    rintro rfl
    simp [hcall.1] at hi
  have hsleeps : s.SleepsAlone := halone hcall.1
  have hnext : (threadMachine producer).next s (.call j .abortAllOperations)
      = (s.call j .abortAllOperations).1 := by
    simp [Machine.next, threadMachine, act, hcall]
  rw [hnext]
  refine ⟨rfl, fun k hk => hsleeps i (by simp [hi, ThreadPhase.sleeping]) k ?_, .inl ?_⟩
  · by_cases hkj : k = j
    · simp [hkj, Threads.call, ThreadPhase.inWait] at hk
    · simpa [Threads.call, phase_moveTo_of_ne _ hkj] using hk
  · simpa [Threads.call, phase_moveTo_of_ne _ hij] using hi

/-- The check of a read that finds the flag up ends it. -/
lemma Aborting.ends {j i : ι} {a : ReadArgs} (hs : s.Aborting j i a) :
    s.Ending producer j i a := by
  refine hs.ending.imp_right (Or.imp_right ?_)
  rintro ⟨b, hb⟩
  have hready : s.pool.readReady a := .inr (.inr hs.flag)
  refine ⟨b, hb, fun c => ?_⟩
  simp [step, hb, stepFrom, hready, hs.flag]

/-- **In a run in which the flag meets one read at a time, every abort ends the reads that sleep
when it is called, and no read that starts after it has returned.** -/
theorem aborts_run (producer : ι) (C : PoolCapacity) (es : List (ThreadEvent ι))
    (halone : ∀ t ∈ (threadMachine producer).trace (fresh C) es, AbortsAlone t) :
    EndsSleepers producer (fresh C) es ∧ SparesLater producer (fresh C) es := by
  constructor
  · rintro es₁ j es₂ i a rfl hcall hi hchecks
    have hlocked := wellLocked_run producer C (es₁ ++ [.call j .abortAllOperations])
    rw [List.append_cons, Machine.trace_append] at halone
    rw [List.append_cons, Machine.run_append]
    have hstart : ((threadMachine producer).run (fresh C)
        (es₁ ++ [.call j .abortAllOperations])).Aborting j i a := by
      rw [Machine.run_append]
      exact aborting_call
        (halone _ (List.mem_append_left _ (Machine.mem_trace_append ..))) hcall hi
    have hrun := Machine.invariant_run_of
      (I := fun s => WellLocked producer s ∧ s.Aborting j i a)
      (Q := fun t => AbortsAlone t ∧ ¬ ChecksWait i t)
      (fun s e hs hstep => ⟨hs.1.next e, hs.2.moves (hs.1.moves_next e) hstep.1 hstep.2⟩)
      ⟨hlocked, hstart⟩ es₂
      fun t ht => ⟨halone t (List.mem_append_right _ ht), hchecks t ht⟩
    exact hrun.2.ends
  · rintro es₁ es₂ i rfl hidle hquiet hcalls a b hi
    rw [Machine.trace_append] at halone
    rw [Machine.run_append] at hi ⊢
    have hrun := Machine.invariant_run_of
      (I := fun s => WellLocked producer s ∧ s.Spared i)
      (Q := fun t => AbortsAlone t ∧ ∀ k, t.event ≠ .call k .abortAllOperations)
      (fun s e hs hstep => ⟨hs.1.next e, hs.2.moves (hs.1.moves_next e) hstep.1 hstep.2⟩)
      ⟨wellLocked_run producer C es₁, hquiet, by simp [hidle, ThreadPhase.inWait]⟩ es₂
      fun t ht => ⟨halone t (List.mem_append_right _ ht),
        fun k hk => hcalls k (hk ▸ Machine.event_mem_of_mem_trace _ ht)⟩
    exact hrun.2.flag (by simp [hi, ThreadPhase.inWait])

theorem aborts_run_one_reader :
    EndsSleepers (0 : Fin 3) (fresh (.ofNat 4))
      (.call 1 (.read ⟨1, 0, 0, 0⟩) :: steps 1 4 ++ .call 2 .abortAllOperations :: steps 2 1
        ++ steps 1 2 ++ .exit 0 :: steps 2 2 ++ .call 1 (.read ⟨1, 0, 0, 0⟩) :: steps 1 2) ∧
    SparesLater (0 : Fin 3) (fresh (.ofNat 4))
      (.call 1 (.read ⟨1, 0, 0, 0⟩) :: steps 1 4 ++ .call 2 .abortAllOperations :: steps 2 1
        ++ steps 1 2 ++ .exit 0 :: steps 2 2 ++ .call 1 (.read ⟨1, 0, 0, 0⟩) :: steps 1 2) :=
  aborts_run 0 (.ofNat 4) _ (by decide)

/-- Of two readers that sleep when an abort is called, the first one to check takes the flag down,
and the second one goes on waiting. An abort called while nobody reads leaves the flag up, and it
ends the next read that has to wait. -/
theorem aborts_miss_reader_and_end_later_read :
    ¬ EndsSleepers (0 : Fin 4) (fresh (.ofNat 4))
      ((.call 1 (.read ⟨1, 0, 0, 0⟩) :: steps 1 4 ++ .call 2 (.read ⟨1, 0, 0, 0⟩) :: steps 2 4)
        ++ .call 3 .abortAllOperations :: (steps 3 1 ++ steps 1 2 ++ steps 2 1)) ∧
    ¬ SparesLater (0 : Fin 4) (fresh (.ofNat 4))
      ((.call 3 .abortAllOperations :: steps 3 1 ++ .exit 0 :: steps 3 2)
        ++ .call 1 (.read ⟨1, 0, 0, 0⟩) :: steps 1 2) := by
  constructor
  · intro h
    rcases h _ 3 _ 2 ⟨1, 0, 0, 0⟩ rfl (by decide) (by decide) (by decide) with
      ⟨hi, -⟩ | ⟨b, hi⟩ | ⟨b, -, hc⟩
    · exact absurd hi (by decide)
    · revert hi b
      decide
    · exact absurd (hc {}).1 (by decide)
  · intro h
    have hdown := h _ _ 1 rfl (by decide) (by decide) (by simp [steps]) ⟨1, 0, 0, 0⟩ false
      (by decide)
    exact absurd hdown (by decide)

end

end Threads

end StreamFs
