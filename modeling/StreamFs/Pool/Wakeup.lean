import StreamFs.Pool.Threads

/-!
Whether a reader can sleep through the data it waits for.

A push stores its chunk and notifies under `m_w_mutex`, and `abortAllOperations` raises its flag
under no mutex at all, while the wait of `read` checks its predicate and goes to sleep under
`m_mutex`. A notification that falls between the check and the sleep is lost, and `notify_one`
may wake a reader that waits for more than has come.

* `SleepsThrough`: a reader asleep although completed operations have made its predicate true.
* `NotifiesReaders`: no notification of a step misses a reader it is meant for.
* `WatchesData`, `WatchesAbort`: the invariants. No reader waits for what a completed push has
  brought, nor under a raised flag, once the thread that raised it has notified.
* `not_sleepsThrough_run`: in a run whose notifications miss no reader, no reader sleeps through
  its data.
-/

namespace StreamFs

/-- The data a waiting reader asked for has come, or the stream has ended. -/
def BufferPool.dataReady (p : BufferPool) (a : ReadArgs) : Prop :=
  a.readEnd ≤ p.mTotalBufCount ∨ p.mGotLastBuffer = true

instance (p : BufferPool) (a : ReadArgs) : Decidable (p.dataReady a) :=
  inferInstanceAs (Decidable (_ ∨ _))

lemma BufferPool.getSize_storeChunk_le {p : BufferPool} (h : p.getSize ≤ p.mTotalBufCount)
    (b : PushArgs) : (p.storeChunk b).getSize ≤ p.mTotalBufCount + 1 := by
  have hsize := p.mCircBuf.size_pushBack b.buffer
  simp only [storeChunk, getSize] at *
  omega

/-- `clearToLastRead` takes from the size what it takes from the count, and leaves the marker. -/
lemma BufferPool.clearToLastRead_le {p : BufferPool} (h : p.getSize ≤ p.mTotalBufCount) :
    p.clearToLastRead.getSize ≤ p.clearToLastRead.mTotalBufCount ∧
      p.clearToLastRead.mTotalBufCount ≤ p.mTotalBufCount ∧
        p.clearToLastRead.mGotLastBuffer = p.mGotLastBuffer := by
  rw [clearToLastRead]
  split_ifs with hempty
  · exact ⟨h, le_rfl, rfl⟩
  · by_cases hlast : p.mLastReadLocation < p.getSize
    · have herase : (p.mCircBuf.eraseEnd (p.getSize - p.mLastReadLocation - 1)).size
          = p.getSize - (p.getSize - p.mLastReadLocation - 1) := Ring.size_eraseEnd ..
      simp only [if_pos hlast]
      rw [getSize, herase, subU64_of_le (by omega)]
      refine ⟨?_, ?_, trivial⟩ <;> omega
    · simp only [if_neg hlast]
      exact ⟨h, le_rfl, trivial⟩

namespace Threads

variable {ι : Type*}

/-- Completed pushes have brought what the reader asked for, or ended the stream. -/
def DataSettled (s : Threads ι) (a : ReadArgs) : Prop :=
  a.readEnd ≤ s.settled.mTotalBufCount ∨ s.settled.mGotLastBuffer = true

/-- An abort that has returned raised the flag. -/
def AbortSettled (s : Threads ι) : Prop := s.pool.mAborting = true ∧ s.abortedBy = none

/-- A reader is asleep, its predicate holds, and the push or the abort that made it true has
completed: nothing but a timeout or a later operation will wake it. -/
def SleepsThrough (s : Threads ι) : Prop :=
  ∃ i a, s.phase i = .parked a ∧ s.pool.readReady a ∧ (s.DataSettled a ∨ s.AbortSettled)

/-- The thread has found the predicate of its wait false, and will be asleep or is so. -/
def Waits (s : Threads ι) (i : ι) (a : ReadArgs) : Prop :=
  s.phase i = .waitPark a ∨ s.phase i = .parked a

section

variable [DecidableEq ι]

/-- The notification of a push reaches a reader: a reader whose data has come is not on its way to
sleep, and it is the one woken if it is asleep. -/
def Heard (s : Threads ι) (n : ℕ) (k : ι) : Prop :=
  (∀ a ∈ (s.phase k).parking, ¬ s.pool.dataReady a) ∧
    ∀ a ∈ (s.phase k).sleeping, s.pool.dataReady a → s.sleeper n = some k

instance (s : Threads ι) (n : ℕ) (k : ι) : Decidable (s.Heard n k) :=
  inferInstanceAs (Decidable (_ ∧ _))

/-- The notification of a step misses no reader: `notify_one` reaches every reader, and when
`notify_all` runs for a raised flag, no reader is on its way to sleep. -/
def NotifiesReaders (t : Transition (Threads ι) (ThreadEvent ι) (Option ReadResult)) : Prop :=
  match t.event with
  | .step i c =>
      (t.before.phase i = .pushNotify → ∀ k, t.before.Heard c.sleeper k) ∧
        (t.before.phase i = .abortNotify → t.before.pool.mAborting = true →
          ∀ k, (t.before.phase k).parking = none)
  | _ => True

instance [Fintype ι] (t : Transition (Threads ι) (ThreadEvent ι) (Option ReadResult)) :
    Decidable (NotifiesReaders t) :=
  match t with
  | ⟨_, .step _ _, _, _⟩ => inferInstanceAs (Decidable (_ ∧ _))
  | ⟨_, .call _ _, _, _⟩ | ⟨_, .timeout _, _, _⟩ | ⟨_, .spuriousWake _, _, _⟩
  | ⟨_, .exit _, _, _⟩ =>
      .isTrue trivial

/-! ### The readers that wait for data -/

/-- The pool holds no more chunks than have come, the completed pushes account for all of them but
those of a push under way, and no reader waits for what a completed push has brought, nor behind
the notification of a push for what it brings. -/
structure WatchesData (s : Threads ι) : Prop where
  size_le : s.pool.getSize ≤ s.pool.mTotalBufCount
  count_le : s.settled.mTotalBufCount ≤ s.pool.mTotalBufCount
  last_imp : s.settled.mGotLastBuffer = true → s.pool.mGotLastBuffer = true
  settled_eq : (∀ i, s.phase i ≠ .pushNotify ∧ s.phase i ≠ .pushUnlock) →
    s.settled = ⟨s.pool.mTotalBufCount, s.pool.mGotLastBuffer⟩
  waits : ∀ i a, s.Waits i a → ¬ s.DataSettled a
  unlock : ∀ j, s.phase j = .pushUnlock → ∀ i a, s.Waits i a → ¬ s.pool.dataReady a

/-- No reader waits under a raised flag, once the thread that raised it has notified. -/
def WatchesAbort (s : Threads ι) : Prop :=
  s.pool.mAborting = true → (∀ j, s.abortedBy = some j → s.phase j ≠ .abortNotify) →
    ∀ i a, ¬ s.Waits i a

variable {s : Threads ι} {producer : ι}

omit [DecidableEq ι] in
lemma watchesData_fresh (C : PoolCapacity) : WatchesData (fresh C : Threads ι) where
  size_le := by simp [fresh, BufferPool.create, BufferPool.getSize, Ring.size]
  count_le := le_rfl
  last_imp := id
  settled_eq _ := rfl
  waits i a h := by simp [Waits, fresh] at h
  unlock j h := by simp [fresh] at h

omit [DecidableEq ι] in
lemma watchesAbort_fresh (C : PoolCapacity) : WatchesAbort (fresh C : Threads ι) := fun h => by
  simp [fresh, BufferPool.create] at h

/-- A thread that goes on to a phase outside of the wait makes no other reader wait. -/
lemma Waits.of_moveTo {i k : ι} {p : ThreadPhase} {a : ReadArgs} (h : (s.moveTo i p).Waits k a)
    (hp : p ≠ .waitPark a ∧ p ≠ .parked a) : s.Waits k a := by
  by_cases hk : k = i
  · subst hk
    simp [Waits, hp.1, hp.2] at h
  · simpa only [Waits, phase_moveTo_of_ne s hk] using h

/-- A thread that waits after another one has gone on waited before, or has found its data missing
just now. -/
lemma Waits.cases_moveTo {i k : ι} {p : ThreadPhase} {a : ReadArgs}
    (h : (s.moveTo i p).Waits k a)
    (hwait : ∀ a, p = .waitPark a ∨ p = .parked a → s.Waits i a ∨ ¬ s.pool.dataReady a) :
    s.Waits k a ∨ ¬ s.pool.dataReady a := by
  by_cases hk : k = i
  · subst hk
    exact hwait a (by simpa only [Waits, phase_moveTo_self] using h)
  · exact .inl (by simpa only [Waits, phase_moveTo_of_ne s hk] using h)

/-- A reader that still waits behind `notify_one` is not the one woken. -/
lemma Waits.of_notifyOne {c : ℕ} {k : ι} {a : ReadArgs} (h : (s.notifyOne c).Waits k a) :
    s.Waits k a ∧ (s.phase k = .parked a → s.sleeper c ≠ some k) := by
  rcases s.notifyOne_cases c with ⟨hc, hmiss⟩ | ⟨i, b, hsleeper, hi, hc⟩
  · rw [hc] at h
    exact ⟨h, hmiss k a⟩
  · rw [hc] at h
    by_cases hk : k = i
    · subst hk
      simp [Waits] at h
    · refine ⟨by simpa only [Waits, phase_moveTo_of_ne _ hk] using h, fun _ hk' => hk ?_⟩
      rw [hsleeper] at hk'
      exact (Option.some_injective _ hk').symm

omit [DecidableEq ι] in
/-- Behind `notify_all` nobody is asleep. -/
lemma Waits.of_notifyAll {k : ι} {a : ReadArgs} (h : s.notifyAll.Waits k a) :
    s.phase k = .waitPark a := by
  simp only [Waits, notifyAll, woken_ne_parked, or_false] at h
  cases hk : s.phase k <;> simp_all [ThreadPhase.woken]

omit [DecidableEq ι] in
lemma WatchesData.dataReady_of_settled (hs : s.WatchesData) {a : ReadArgs} (h : s.DataSettled a) :
    s.pool.dataReady a :=
  h.imp (fun h => h.trans hs.count_le) hs.last_imp

/-- A thread goes on, leaves the data alone, and neither comes from a push nor goes to one. If it
comes to wait, it has not found its data. -/
lemma WatchesData.moveTo (hs : s.WatchesData) {i : ι} {p : ThreadPhase} {q : BufferPool}
    (hq : SameData s.pool q) (hi : s.phase i ≠ .pushNotify ∧ s.phase i ≠ .pushUnlock)
    (hp : p ≠ .pushNotify ∧ p ≠ .pushUnlock)
    (hwait : ∀ a, p = .waitPark a ∨ p = .parked a → s.Waits i a ∨ ¬ s.pool.dataReady a)
    (l : List ι) (o : Option ι) :
    WatchesData ({ s with pool := q, mNotEnoughBytes := l, abortedBy := o }.moveTo i p) := by
  have hpush : ∀ {j p'}, ({ s with pool := q, mNotEnoughBytes := l, abortedBy := o }.moveTo i
      p).phase j = p' → p' = .pushNotify ∨ p' = .pushUnlock → s.phase j = p' := by
    intro j p' hj hp'
    rw [phase_moveTo] at hj
    split_ifs at hj with hji
    · subst hj
      exact absurd hp' (not_or.mpr hp)
    · exact hj
  have hready : ∀ a, q.dataReady a ↔ s.pool.dataReady a := fun a => by
    rw [BufferPool.dataReady, BufferPool.dataReady, hq.mTotalBufCount, hq.mGotLastBuffer]
  have hcases : ∀ {k a}, ({ s with pool := q, mNotEnoughBytes := l, abortedBy := o }.moveTo i
      p).Waits k a → s.Waits k a ∨ ¬ s.pool.dataReady a := by
    intro k a h
    rcases h.cases_moveTo (fun a ha => (hwait a ha).imp_right (mt (hready a).mp)) with h | h
    · exact .inl h
    · exact .inr (mt (hready _).mpr h)
  constructor
  · simpa [hq.getSize, hq.mTotalBufCount] using hs.size_le
  · simpa [hq.mTotalBufCount] using hs.count_le
  · simpa [hq.mGotLastBuffer] using hs.last_imp
  · intro h
    have hsettled := hs.settled_eq fun j => by
      by_cases hji : j = i
      · exact hji ▸ hi
      · simpa [phase_moveTo_of_ne _ hji] using h j
    simpa [hq.mTotalBufCount, hq.mGotLastBuffer] using hsettled
  · intro k a h
    rcases hcases h with hk | hdata
    · exact hs.waits k a hk
    · exact fun hsettled => hdata (hs.dataReady_of_settled hsettled)
  · intro j hj k a h
    rw [pool_moveTo, hready]
    rcases hcases h with hk | hdata
    · exact hs.unlock j (hpush hj (.inr rfl)) k a hk
    · exact hdata

omit [DecidableEq ι] in
/-- A thread that holds `m_w_mutex` is the only one that can be behind the store of a push. -/
lemma WellLocked.not_pushing (hs : s.WellLocked producer) {i k : ι}
    (hi : (s.phase i).holdsWMutex) (hk : k ≠ i) :
    s.phase k ≠ .pushNotify ∧ s.phase k ≠ .pushUnlock := by
  constructor <;> exact fun h => hk (hs.wMutex_unique (by simp [h, ThreadPhase.holdsWMutex]) hi)

/-- A thread gives `m_w_mutex` back, and the completed pushes account for what it leaves: no reader
waits for that. -/
lemma WatchesData.release (hlocked : s.WellLocked producer) {i : ι}
    (hi : (s.phase i).holdsWMutex) {q : BufferPool} (hsize : q.getSize ≤ q.mTotalBufCount)
    (hwait : ∀ k a, s.Waits k a → ¬ q.dataReady a) (o : Option ι) :
    WatchesData ({ s with
      pool := q
      settled := ⟨q.mTotalBufCount, q.mGotLastBuffer⟩
      abortedBy := o }.moveTo i .idle) where
  size_le := hsize
  count_le := le_rfl
  last_imp := id
  settled_eq _ := rfl
  waits k a h := hwait k a (h.of_moveTo (by simp))
  unlock j hj := by
    by_cases hji : j = i
    · subst hji
      simp at hj
    · rw [phase_moveTo_of_ne _ hji] at hj
      exact absurd hj (hlocked.not_pushing hi hji).2

/-- A push stores its chunk. -/
lemma WatchesData.store (hlocked : s.WellLocked producer) (hs : s.WatchesData) {i : ι}
    (hi : (s.phase i).holdsWMutex) (b : PushArgs) :
    WatchesData ({ s with pool := s.pool.storeChunk b }.moveTo i .pushNotify) where
  size_le := BufferPool.getSize_storeChunk_le hs.size_le b
  count_le := hs.count_le.trans (Nat.le_succ _)
  last_imp h := by
    have hlast := hs.last_imp h
    simp [BufferPool.storeChunk, hlast]
  settled_eq h := absurd (phase_moveTo_self ..) (h i).1
  waits k a h := hs.waits k a (h.of_moveTo (by simp))
  unlock j hj := by
    by_cases hji : j = i
    · subst hji
      simp at hj
    · rw [phase_moveTo_of_ne _ hji] at hj
      exact absurd hj (hlocked.not_pushing hi hji).2

/-- A push notifies, and the reader woken is the only one whose data has come. -/
lemma WatchesData.notifyOne (hs : s.WatchesData) (i : ι) {n : ℕ}
    (hnotify : ∀ k, s.Heard n k) :
    WatchesData ((s.notifyOne n).moveTo i .pushUnlock) where
  size_le := by simpa using hs.size_le
  count_le := by simpa using hs.count_le
  last_imp := by simpa using hs.last_imp
  settled_eq h := absurd (phase_moveTo_self ..) (h i).2
  waits k a h := by
    have hk := (h.of_moveTo (by simp)).of_notifyOne.1
    simpa [DataSettled] using hs.waits k a hk
  unlock j _ k a h hdata := by
    obtain ⟨hwait, hmiss⟩ := (h.of_moveTo (by simp)).of_notifyOne
    rw [pool_moveTo, pool_notifyOne] at hdata
    rcases hwait with hk | hk
    · exact (hnotify k).1 a (by rw [hk]; rfl) hdata
    · exact hmiss hk ((hnotify k).2 a (by rw [hk]; rfl) hdata)

omit [DecidableEq ι] in
/-- `notify_all` only wakes readers. -/
lemma WatchesData.notifyAll (hs : s.WatchesData) : s.notifyAll.WatchesData where
  size_le := hs.size_le
  count_le := hs.count_le
  last_imp := hs.last_imp
  settled_eq h := hs.settled_eq fun j => by
    constructor <;> intro hj <;> simpa [Threads.notifyAll, hj, ThreadPhase.woken] using h j
  waits k a h := hs.waits k a (.inl h.of_notifyAll)
  unlock j hj k a h := hs.unlock j (woken_eq hj (by simp)) k a (.inl h.of_notifyAll)

/-- **Where the notifications miss no reader, the readers that wait have not what they wait
for.** -/
theorem WatchesData.moves (hlocked : s.WellLocked producer) (hs : s.WatchesData)
    {e : ThreadEvent ι} {s' : Threads ι} (h : s.Moves producer e s')
    (hnotify : NotifiesReaders ((threadMachine producer).transition s e)) : s'.WatchesData := by
  cases h with
  | stay => exact hs
  | go i p q h =>
      refine hs.moveTo h.pool.toSameData ⟨h.leaves.1, h.leaves.2.1⟩ ⟨h.pushNotify, h.pushUnlock⟩
        (fun a ha => .inr fun hdata => ?_) _ _
      rcases ha with ha | ha
      · exact h.park a ha (hdata.imp_right .inl)
      · exact h.parked a ha
  | park i c a h =>
      refine hs.moveTo ⟨rfl, rfl, rfl⟩ (by simp [h]) (by simp) (fun b hb => .inl ?_) _ _
      obtain rfl : a = b := by simpa using hb
      exact .inl h
  | wake i timedOut a h =>
      rw [wake, h]
      exact hs.moveTo ⟨rfl, rfl, rfl⟩ (by simp [h]) (by simp) (by simp) _ _
  | leave i c a timedOut h =>
      exact hs.moveTo (sameData_leaveWait _ a) (by simp [h]) (by simp) (by simp) _ _
  | raise i h hne =>
      exact hs.moveTo (i := i) (p := .abortNotify) (q := s.pool.abortAllOperations)
        ⟨rfl, rfl, rfl⟩ (by simp [h]) (by simp) (by simp) _ _
  | finish i c h =>
      exact hs.moveTo ⟨rfl, rfl, rfl⟩ (by simp [h]) (by simp) (by simp) _ _
  | store i c b h => exact hs.store hlocked (by simp [h, ThreadPhase.holdsWMutex]) b
  | notifyOne i c h => exact hs.notifyOne i (hnotify.1 h)
  | settle i c h =>
      exact .release hlocked (by simp [h, ThreadPhase.holdsWMutex]) hs.size_le
        (fun k a => hs.unlock i h k a) _
  | clear i c h =>
      refine .release hlocked (by simp [h, ThreadPhase.holdsWMutex]) (Nat.zero_le _)
        (fun k a hk hready => hs.waits k a hk (.inl ?_)) _
      have hzero : a.readEnd ≤ 0 := by simpa [BufferPool.dataReady, BufferPool.clear] using hready
      omega
  | rewind i c h =>
      have hwrite : (s.phase i).holdsWMutex := by simp [h, ThreadPhase.holdsWMutex]
      obtain ⟨hsize, hcount, hlast⟩ := BufferPool.clearToLastRead_le hs.size_le
      have hsettled := hs.settled_eq fun k => by
        by_cases hk : k = i
        · simp [hk, h]
        · exact hlocked.not_pushing hwrite hk
      refine .release hlocked hwrite hsize (fun k a hk hready => hs.waits k a hk ?_) _
      rw [DataSettled, hsettled]
      exact hready.imp (fun h => h.trans hcount) (fun h => hlast ▸ h)
  | notifyAll i c h =>
      exact hs.notifyAll.moveTo ⟨rfl, rfl, rfl⟩ (by simp [Threads.notifyAll, h, ThreadPhase.woken])
        (by simp) (by simp) _ _

/-! ### The readers under a raised flag -/

/-- A thread goes on that was not to notify of the flag, the flag stays as it is, and no reader
comes to wait under it. -/
lemma WatchesAbort.moveTo (hs : s.WatchesAbort) {i : ι} {p : ThreadPhase} {q : BufferPool}
    (hq : q.mAborting = s.pool.mAborting) (hi : s.phase i ≠ .abortNotify)
    (hwait : ∀ a, p = .waitPark a ∨ p = .parked a → s.Waits i a ∨ s.pool.mAborting = false)
    (l : List ι) (c : Settled) :
    WatchesAbort ({ s with pool := q, mNotEnoughBytes := l, settled := c }.moveTo i p) := by
  intro hraised hnotified k a hk
  have hflag : s.pool.mAborting = true := by rwa [pool_moveTo, hq] at hraised
  have hnone := hs hflag fun j hj => by
    by_cases hji : j = i
    · exact hji ▸ hi
    · simpa [phase_moveTo_of_ne _ hji] using hnotified j hj
  by_cases hki : k = i
  · subst hki
    rcases hwait a (by simpa [Waits] using hk) with hwait | hdown
    · exact hnone k a hwait
    · exact Bool.false_ne_true (hdown.symm.trans hflag)
  · exact hnone k a (by simpa [Waits, phase_moveTo_of_ne _ hki] using hk)

/-- The flag is down. -/
lemma watchesAbort_lower {i : ι} {q : BufferPool} (hq : q.mAborting = false) (c : Settled)
    (o : Option ι) :
    WatchesAbort ({ s with pool := q, settled := c, abortedBy := o }.moveTo i .idle) := fun h => by
  simp [hq] at h

lemma WatchesAbort.notifyOne (hs : s.WatchesAbort) (n : ℕ) : (s.notifyOne n).WatchesAbort := by
  rcases s.notifyOne_cases n with ⟨h, -⟩ | ⟨i, a, -, hi, h⟩
  · rwa [h]
  · rw [h]
    exact hs.moveTo rfl (by simp [hi]) (by simp) _ _

/-- A thread raises the flag. -/
lemma WatchesAbort.raise (hs : s.WatchesAbort) {i : ι} (h : s.phase i = .idle) :
    WatchesAbort ({ s with
      pool := s.pool.abortAllOperations
      abortedBy := if s.pool.mAborting then s.abortedBy else some i }.moveTo i .abortNotify) := by
  cases hflag : s.pool.mAborting with
  | true =>
      simp only [if_true]
      exact hs.moveTo hflag.symm (by simp [h]) (by simp) _ _
  | false =>
      intro _ hnotified
      exact absurd (phase_moveTo_self ..) (hnotified i (by simp))

/-- An abort notifies, and no reader is on its way to sleep. -/
lemma watchesAbort_notifyAll {i : ι}
    (hnotify : s.pool.mAborting = true → ∀ k, (s.phase k).parking = none) :
    WatchesAbort (s.notifyAll.moveTo i .abortLock) := by
  intro hflag _ k a hk
  have hpark := hnotify hflag k
  rw [(hk.of_moveTo (by simp)).of_notifyAll] at hpark
  exact Option.some_ne_none a hpark

/-- An abort returns. -/
lemma WatchesAbort.finish (hs : s.WatchesAbort) {i : ι} (h : s.phase i = .abortJoin) :
    WatchesAbort ({ s with
      abortedBy := if s.abortedBy = some i then none else s.abortedBy }.moveTo i .idle) := by
  intro hflag hnotified k a hk
  refine hs hflag (fun j hj => ?_) k a (hk.of_moveTo (by simp))
  by_cases hji : j = i
  · simp [hji, h]
  · have hj' : (if s.abortedBy = some i then none else s.abortedBy) = some j := by
      rw [if_neg (by simpa [hj] using hji), hj]
    simpa [phase_moveTo_of_ne _ hji] using hnotified j hj'

/-- **Where the notifications miss no reader, no reader waits under a raised flag of which the
readers have been notified.** -/
theorem WatchesAbort.moves (hs : s.WatchesAbort) {e : ThreadEvent ι} {s' : Threads ι}
    (h : s.Moves producer e s')
    (hnotify : NotifiesReaders ((threadMachine producer).transition s e)) : s'.WatchesAbort := by
  cases h with
  | stay => exact hs
  | go i p q h =>
      refine hs.moveTo h.pool.mAborting h.leaves.2.2 (fun a ha => .inr ?_) _ _
      rcases ha with ha | ha
      · exact Bool.eq_false_of_not_eq_true fun hflag => h.park a ha (.inr (.inr hflag))
      · exact absurd ha (h.parked a)
  | park i c a h =>
      refine hs.moveTo rfl (by simp [h]) (fun b hb => .inl ?_) _ _
      obtain rfl : a = b := by simpa using hb
      exact .inl h
  | wake i timedOut a h =>
      rw [wake, h]
      exact hs.moveTo rfl (by simp [h]) (by simp) _ _
  | leave i c a timedOut h habort =>
      exact watchesAbort_lower (by rw [BufferPool.leaveWait, if_pos habort]) _ _
  | store i c b h =>
      exact hs.moveTo (i := i) (p := .pushNotify) (q := s.pool.storeChunk b) rfl
        (by simp [h]) (by simp) _ _
  | notifyOne i c h =>
      have hi := s.phase_notifyOne_of_awake c.sleeper (i := i) (by simp [h])
      exact (hs.notifyOne c.sleeper).moveTo rfl (by simp [hi, h]) (by simp) _ _
  | settle i c h =>
      exact hs.moveTo rfl (by simp [h]) (by simp) _ _
  | clear i c h =>
      exact hs.moveTo (i := i) (p := .idle) (q := s.pool.clear) rfl
        (by simp [h]) (by simp) _ _
  | rewind i c h =>
      cases hflag : s.pool.clearToLastRead.mAborting with
      | true =>
          have hkept := hflag.trans (BufferPool.mAborting_of_clearToLastRead hflag).symm
          exact hs.moveTo (i := i) (p := .idle) (q := s.pool.clearToLastRead) hkept
            (by simp [h]) (by simp) _ _
      | false => exact watchesAbort_lower hflag _ _
  | raise i h hne => exact hs.raise h
  | notifyAll i c h => exact watchesAbort_notifyAll (hnotify.2 h)
  | finish i c h => exact hs.finish h

/-! ### Every run -/

/-- **In a run whose notifications miss no reader, no reader ever sleeps through what it waits
for.** -/
theorem not_sleepsThrough_run (producer : ι) (C : PoolCapacity) (es : List (ThreadEvent ι))
    (hnotify : ∀ t ∈ (threadMachine producer).trace (fresh C) es, NotifiesReaders t) :
    ¬ ((threadMachine producer).run (fresh C) es).SleepsThrough := by
  have hrun := Machine.invariant_run_of
    (I := fun s => WellLocked producer s ∧ s.WatchesData ∧ s.WatchesAbort)
    (fun s e hs hstep => ⟨hs.1.next e, hs.2.1.moves hs.1 (hs.1.moves_next e) hstep,
      hs.2.2.moves (hs.1.moves_next e) hstep⟩)
    ⟨wellLocked_fresh producer C, watchesData_fresh C, watchesAbort_fresh C⟩ es hnotify
  obtain ⟨-, hdata, habort⟩ := hrun
  rintro ⟨i, a, hi, -, hsettled | ⟨hflag, hdone⟩⟩
  · exact hdata.waits i a (.inr hi) hsettled
  · exact habort hflag (by simp [hdone]) i a (.inr hi)

theorem not_sleepsThrough_run_pushed : ¬ ((threadMachine (0 : Fin 2)).run (fresh (.ofNat 4))
    (.call 1 (.read ⟨1, 0, 0, 0⟩) :: steps 1 4
      ++ .call 0 (.pushBuffer (.filled 7) 0) :: steps 0 4)).SleepsThrough :=
  not_sleepsThrough_run 0 (.ofNat 4) _ (by decide)

/-- A reader finds the stream empty, the producer pushes the chunk it waits for and returns, and
the reader goes to sleep. -/
theorem sleepsThrough_pushed_before_sleep : ∃ s : Threads (Fin 2),
    s = (threadMachine 0).run (fresh (.ofNat 4))
      (.call 1 (.read ⟨1, 0, 0, 0⟩) :: steps 1 3
        ++ .call 0 (.pushBuffer (.filled 7) 0) :: steps 0 4 ++ steps 1 1) ∧
      s.phase 0 = .idle ∧ s.SleepsThrough :=
  ⟨_, rfl, by decide, 1, ⟨1, 0, 0, 0⟩, by decide, by decide, .inl (.inl (by decide))⟩

end

end Threads

end StreamFs
