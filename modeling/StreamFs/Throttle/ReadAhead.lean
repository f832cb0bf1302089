import StreamFs.Throttle.Positions

/-!
The read-ahead: the first `READ_AHEAD_COUNT` calls of `wait` behind the live tests do not block.

* `Allowance`: a record of the model, the number of calls since the last event that gives the
  allowance anew, and whether the call in progress has detected a seek. A clear counts from `0`, a
  call that detects a seek is itself the first one.
* `KeepsAllowance`: the step is no `clearToLastRead` of an empty ring behind the read-ahead count.
* `Counted`: `mReadAheadCount` is not ahead of the calls, and a call on its way to block is behind
  the allowance or has detected a seek.
* `lt_served_or_sought_run`: in a run of `KeepsAllowance` steps, a call that blocks is behind the
  allowance or has detected a seek itself.
* `allowance_iff_run`: in such a run the allowance is kept iff no call that has detected a seek
  blocks.

`wait` resets the count where it detects a seek, and goes on to the blocking loop in the same call.
-/

namespace StreamFs

/-- The part of `wait` behind the read-ahead count, up to the end of its blocking loop. -/
def PositionPhase.blocks : PositionPhase → Bool
  | runTest | startLoad | startStore _ | startRun | startNotify | startSignal => true
  | jumpPos | jumpLast _ | seekReset | seekLoad | seekStore _ => true
  | whilePos | whileIndex _ | whileRunning | predPos | predIndex _ | predRunning => true
  | check _ | asleep => true
  | _ => false

lemma PositionPhase.inWait_of_blocks {p : PositionPhase} (h : p.blocks) : p.inWait := by
  cases p <;> first | rfl | exact Bool.noConfusion h

/-- The next step of a clear is the store of the read-ahead count. -/
def BufferPhase.storesAhead : BufferPhase → Bool
  | storeAhead _ => true
  | _ => false

lemma BufferPhase.clears_of_storesAhead {p : BufferPhase} (h : p.storesAhead) : p.clears := by
  cases p with
  | storeAhead _ => rfl
  | _ => exact Bool.noConfusion h

/-- The calls of `wait` behind the live tests since the allowance was last given. -/
structure Allowance where
  served : ℕ
  sought : Bool
  deriving DecidableEq

namespace ThrottleThreads

/-- The next step of the reader detects a seek. -/
def seeks (s : ThrottleThreads) : Bool :=
  match s.reader with
  | .jumpLast pos => 10 < (toInt32 (subU64 pos s.throttle.mLastPos)).natAbs
  | _ => false

/-- A clear can run. -/
def AdmitsClear (s : ThrottleThreads) : Prop := s.BufferFree ∧ s.reader.inWait = false

instance (s : ThrottleThreads) : Decidable s.AdmitsClear := inferInstanceAs (Decidable (_ ∧ _))

/-- What a transition adds to the record of the calls. -/
def countCalls (a : Allowance) (t : Transition ThrottleThreads ThrottleEvent (Option ℕ)) :
    Allowance :=
  match t.event with
  | .clear | .clearToLastRead => if t.before.AdmitsClear then ⟨0, false⟩ else a
  | .stepReader =>
      if t.before.reader = .countAhead then ⟨a.served + 1, false⟩
      else if t.before.seeks then ⟨1, true⟩
      else a
  | _ => a

/-- The step does not clear an empty ring with a read-ahead count to reset. -/
def KeepsAllowance (t : Transition ThrottleThreads ThrottleEvent (Option ℕ)) : Prop :=
  t.event = .clearToLastRead → t.before.AdmitsClear →
    t.before.throttle.mTimePeriodBuffer.size = 0 → t.before.throttle.mReadAheadCount = 0

instance (t : Transition ThrottleThreads ThrottleEvent (Option ℕ)) : Decidable (KeepsAllowance t) :=
  inferInstanceAs (Decidable (_ → _))

/-- The read-ahead count is reset next. -/
def Resets (s : ThrottleThreads) : Prop := s.reader = .seekReset ∨ s.buffer.storesAhead

/-- The read-ahead count is at most the calls, and a call that may block is behind the allowance or
has detected a seek. -/
structure Counted (s : ThrottleThreads) (a : Allowance) : Prop where
  apart : s.reader.inWait → s.buffer.clears = false
  count_le : ¬ s.Resets → min s.throttle.mReadAheadCount readAheadCount ≤ a.served
  count_ne : s.throttle.mReadAheadCount ≠ readAheadCount
  allowed : s.reader.blocks → readAheadCount < a.served ∨ a.sought

variable {s s' : ThrottleThreads} {a : Allowance}

/-- A step that leaves the count alone and does not come to block. -/
lemma Counted.of_same (hs : s.Counted a)
    (hcount : s'.throttle.mReadAheadCount = s.throttle.mReadAheadCount)
    (hapart : s'.reader.inWait → s'.buffer.clears = false) (hresets : s.Resets → s'.Resets)
    (hblocks : s'.reader.blocks → s.reader.blocks) : s'.Counted a where
  apart := hapart
  count_le h := hcount ▸ hs.count_le (mt hresets h)
  count_ne := hcount ▸ hs.count_ne
  allowed h := hs.allowed (hblocks h)

/-- The reader goes from a phase to the next without touching the count. -/
lemma Counted.reader (hs : s.Counted a) {t : BufferPoolThrottle} {p : PositionPhase}
    (ht : t.mReadAheadCount = s.throttle.mReadAheadCount) (hwait : p.inWait → s.reader.inWait)
    (hreset : s.reader ≠ .seekReset) (hblocks : p.blocks → s.reader.blocks) :
    Counted { s with throttle := t, reader := p } a :=
  hs.of_same ht (fun h => hs.apart (hwait h)) (fun h => .inr (h.resolve_left hreset)) hblocks

/-! ### The reader -/

/-- The count and the next phase of a call behind the live tests. -/
lemma stepReader_countAhead (h : s.reader = .countAhead)
    (hne : s.throttle.mReadAheadCount ≠ readAheadCount) :
    ∃ count p, s.stepReader
        = { s with throttle := { s.throttle with mReadAheadCount := count }, reader := p } ∧
      (count = s.throttle.mReadAheadCount + 1 ∧ count < readAheadCount ∧ p = .lastLoad ∨
        count = readAheadCount + 1 ∧ s.throttle.mReadAheadCount + 1 = readAheadCount ∧
          p = .aheadLoad ∨
        count = s.throttle.mReadAheadCount ∧ readAheadCount < count ∧ p = .runTest) := by
  simp only [ThrottleThreads.stepReader, h, BufferPoolThrottle.countReadAhead]
  rcases Nat.lt_trichotomy (s.throttle.mReadAheadCount + 1) readAheadCount with hlt | heq | hgt
  · have hbelow : s.throttle.mReadAheadCount < readAheadCount := by omega
    have hnot : ¬ readAheadCount < s.throttle.mReadAheadCount + 1 := by omega
    simp only [if_pos hbelow, if_neg hnot, if_neg hlt.ne]
    exact ⟨_, _, rfl, .inl ⟨rfl, hlt, rfl⟩⟩
  · have hbelow : s.throttle.mReadAheadCount < readAheadCount := by omega
    have hnot : ¬ readAheadCount < s.throttle.mReadAheadCount + 1 := by omega
    simp only [if_pos hbelow, if_neg hnot, if_pos heq]
    exact ⟨_, _, rfl, .inr (.inl ⟨by rw [heq], heq, rfl⟩)⟩
  · have habove : readAheadCount < s.throttle.mReadAheadCount := by omega
    have hnot : ¬ s.throttle.mReadAheadCount < readAheadCount := by omega
    simp only [if_neg hnot, if_pos habove]
    exact ⟨_, _, rfl, .inr (.inr ⟨rfl, habove, rfl⟩)⟩

/-- The count comes to `READ_AHEAD_COUNT` at that many calls at the earliest, and the call in which
it does passes it. -/
lemma Counted.countAhead (hs : s.Counted a) (h : s.reader = .countAhead) :
    s.stepReader.Counted ⟨a.served + 1, false⟩ := by
  have hclears : s.buffer.clears = false := hs.apart (by rw [h]; rfl)
  have hnoReset : ¬ s.Resets := by
    rintro (hseek | hstore)
    · simp [h] at hseek
    · exact Bool.false_ne_true
        (hclears.symm.trans (BufferPhase.clears_of_storesAhead hstore))
  have hle := hs.count_le hnoReset
  obtain ⟨count, p, hstep, hcases⟩ := stepReader_countAhead h hs.count_ne
  rw [hstep]
  refine ⟨fun _ => hclears, fun _ => ?_, ?_, fun hblocks => ?_⟩
  · show min count readAheadCount ≤ a.served + 1
    omega
  · show count ≠ readAheadCount
    omega
  · -- only the call that finds the count behind the read-ahead may block
    rcases hcases with ⟨-, -, rfl⟩ | ⟨-, -, rfl⟩ | ⟨rfl, hbehind, -⟩
    · exact Bool.noConfusion hblocks
    · exact Bool.noConfusion hblocks
    · exact .inl (show readAheadCount < a.served + 1 by omega)

/-- A call that detects a seek is the first one of the next allowance. -/
lemma Counted.jumpLast (hs : s.Counted a) {pos : ℕ} (h : s.reader = .jumpLast pos) :
    s.stepReader.Counted (if s.seeks then ⟨1, true⟩ else a) := by
  have hclears : s.buffer.clears = false := hs.apart (by rw [h]; rfl)
  rw [ThrottleThreads.stepReader, seeks]
  simp only [h, decide_eq_true_eq]
  split_ifs with hseek
  · exact ⟨fun _ => hclears, fun hreset => absurd (.inl rfl) hreset, hs.count_ne, fun _ => .inr rfl⟩
  · exact hs.reader rfl (by simp [h, PositionPhase.inWait]) (by simp [h])
      (by simp [h, PositionPhase.blocks])

/-- The other steps of the reader leave the count alone, and lead neither into `wait` nor behind
its read-ahead count. -/
lemma stepReader_frame (hcount : s.reader ≠ .countAhead) (hjump : ∀ pos, s.reader ≠ .jumpLast pos)
    (hreset : s.reader ≠ .seekReset) :
    s.stepReader.throttle.mReadAheadCount = s.throttle.mReadAheadCount
      ∧ s.stepReader.buffer = s.buffer
      ∧ (s.stepReader.reader.inWait → s.reader.inWait)
      ∧ (s.stepReader.reader.blocks → s.reader.blocks) := by
  rw [ThrottleThreads.stepReader]
  cases h : s.reader with
  | countAhead => exact absurd h hcount
  | jumpLast pos => exact absurd h (hjump pos)
  | seekReset => exact absurd h hreset
  | startNotify =>
      dsimp only
      split <;> exact ⟨rfl, rfl, fun _ => rfl, fun _ => rfl⟩
  | check status =>
      dsimp only
      split <;> exact ⟨rfl, rfl, fun _ => rfl, fun _ => rfl⟩
  | _ =>
      refine ⟨rfl, rfl, ?_, ?_⟩ <;> dsimp only <;> (repeat' split) <;>
        simp_all [PositionPhase.inWait, PositionPhase.blocks]

theorem Counted.stepReader (hs : s.Counted a) :
    s.stepReader.Counted (countCalls a (throttleMachine.transition s .stepReader)) := by
  show s.stepReader.Counted (if s.reader = .countAhead then ⟨a.served + 1, false⟩
    else if s.seeks then ⟨1, true⟩ else a)
  by_cases hcount : s.reader = .countAhead
  · rw [if_pos hcount]
    exact hs.countAhead hcount
  rw [if_neg hcount]
  by_cases hjump : ∃ pos, s.reader = .jumpLast pos
  · obtain ⟨pos, hjump⟩ := hjump
    exact hs.jumpLast hjump
  push Not at hjump
  have hnear : s.seeks = false := by
    rw [seeks]
    split
    · rename_i pos h
      exact absurd h (hjump pos)
    · rfl
  rw [hnear, if_neg Bool.false_ne_true]
  by_cases hreset : s.reader = .seekReset
  · have hclears : s.buffer.clears = false := hs.apart (by rw [hreset]; rfl)
    simp only [ThrottleThreads.stepReader, hreset]
    exact ⟨fun _ => hclears, fun _ => Nat.zero_le _, by simp [readAheadCount],
      fun _ => hs.allowed (by rw [hreset]; rfl)⟩
  · obtain ⟨hsame, hbuffer, hwait, hblocks⟩ := stepReader_frame hcount hjump hreset
    refine hs.of_same hsame (fun h => ?_) (fun h => ?_) hblocks
    · rw [hbuffer]
      exact hs.apart (hwait h)
    · exact .inr (hbuffer ▸ h.resolve_left hreset)

/-! ### The other threads -/

/-- The reader moves on at most from its sleep, and the buffer stays as it is. -/
lemma Counted.of_frame (hs : s.Counted a)
    (hcount : s'.throttle.mReadAheadCount = s.throttle.mReadAheadCount)
    (hbuffer : s'.buffer = s.buffer)
    (hreader : s'.reader = s.reader ∨ s.reader = .asleep ∧ s'.reader = .predPos) :
    s'.Counted a := by
  refine hs.of_same hcount (fun h => ?_) (fun h => ?_) (fun h => ?_)
  · rw [hbuffer]
    rcases hreader with hreader | ⟨hasleep, -⟩
    · exact hs.apart (hreader ▸ h)
    · exact hs.apart (by rw [hasleep]; rfl)
  · rcases hreader with hreader | ⟨hasleep, -⟩
    · exact h.imp (hreader ▸ ·) (hbuffer ▸ ·)
    · exact .inr (hbuffer ▸ h.resolve_left (by simp [hasleep]))
  · rcases hreader with hreader | ⟨hasleep, -⟩
    · exact hreader ▸ h
    · rw [hasleep]
      rfl

/-- The holder of the period buffer goes on. Where it stores the count, it stores `0`. -/
theorem Counted.stepBuffer (hs : s.Counted a) : s.stepBuffer.Counted a := by
  have hout : s.buffer.clears → s.reader.inWait = false := fun h =>
    Bool.eq_false_of_not_eq_true fun hwait => Bool.false_ne_true ((hs.apart hwait).symm.trans h)
  have hother : s.buffer.storesAhead = false → s.Resets → ∀ p : BufferPhase,
      s.reader = .seekReset ∨ p.storesAhead := fun hstores h _ =>
    .inl (h.resolve_right (by simp [hstores]))
  rw [ThrottleThreads.stepBuffer]
  cases h : s.buffer with
  | free => exact hs
  | storeAhead toLastRead =>
      have hread : s.reader.inWait = false := hout (by rw [h]; rfl)
      refine ⟨fun hwait => ?_, fun _ => Nat.zero_le _, by simp [readAheadCount], hs.allowed⟩
      exact Bool.noConfusion (hread.symm.trans hwait)
  | notify =>
      dsimp only
      split
      · exact hs
      · exact hs.of_same rfl (fun _ => rfl) (fun hr => hother (by rw [h]; rfl) hr _) id
  | storeIndex _ =>
      refine hs.of_same rfl (fun hwait => ?_) (fun hr => hother (by rw [h]; rfl) hr _) id
      exact Bool.noConfusion ((hout (by rw [h]; rfl)).symm.trans hwait)
  | storePos =>
      refine hs.of_same rfl (fun hwait => ?_) (fun hr => hother (by rw [h]; rfl) hr _) id
      exact Bool.noConfusion ((hout (by rw [h]; rfl)).symm.trans hwait)
  | storeLastPos =>
      refine hs.of_same rfl (fun hwait => ?_) (fun hr => hother (by rw [h]; rfl) hr _) id
      exact Bool.noConfusion ((hout (by rw [h]; rfl)).symm.trans hwait)
  | _ =>
      refine hs.of_same rfl (fun _ => ?_) (fun hr => hother (by rw [h]; rfl) hr _) id
      dsimp only
      (repeat' split) <;> rfl

theorem Counted.stepLoop (hs : s.Counted a) : s.stepLoop.1.Counted a := by
  have hnotify : ∀ p, (s.notifyChanged p).Counted a := by
    intro p
    rw [ThrottleThreads.notifyChanged]
    split
    · exact hs
    · exact hs.of_frame rfl rfl (.inl rfl)
  have hsignal : ∀ p, (s.signalChanged p).Counted a := by
    intro p
    refine hs.of_frame rfl rfl ?_
    by_cases hasleep : s.reader = .asleep
    · exact .inr ⟨hasleep, if_pos hasleep⟩
    · exact .inl (if_neg hasleep)
  rw [ThrottleThreads.stepLoop]
  cases s.loop with
  | startAsleep => exact hs
  | dataAsleep => exact hs
  | changedNotify => exact hnotify _
  | changedSignal => exact hsignal _
  | dataNotify => exact hnotify _
  | dataSignal => exact hsignal _
  | idleNotify => exact hnotify _
  | idleSignal => exact hsignal _
  | fetchTest =>
      dsimp only
      split
      · exact hs.of_frame rfl rfl (.inl rfl)
      · exact hs
  | _ =>
      dsimp only
      (repeat' split) <;> exact hs.of_frame rfl rfl (.inl rfl)

lemma Counted.wakeReader (hs : s.Counted a) : s.wakeReader.Counted a := by
  rw [ThrottleThreads.wakeReader]
  split
  · rename_i hasleep
    exact hs.of_frame rfl rfl (.inr ⟨hasleep, rfl⟩)
  · exact hs

lemma Counted.wakeLoop (hs : s.Counted a) (timedOut : Bool) : (s.wakeLoop timedOut).Counted a := by
  rw [ThrottleThreads.wakeLoop]
  cases s.loop with
  | startAsleep =>
      dsimp only
      split
      · exact hs
      · exact hs.of_frame rfl rfl (.inl rfl)
  | dataAsleep => exact hs.of_frame rfl rfl (.inl rfl)
  | _ => exact hs

/-! ### The calls -/

/-- The allowance is given anew outside of `wait`, where the count is stored next or is `0`. -/
lemma Counted.renew (hs : s.Counted a) (hreader : s'.reader = s.reader)
    (hwait : s.reader.inWait = false)
    (hcount : s'.throttle.mReadAheadCount = s.throttle.mReadAheadCount)
    (hstores : s'.buffer.storesAhead ∨ s.throttle.mReadAheadCount = 0) :
    s'.Counted ⟨0, false⟩ := by
  refine ⟨fun h => ?_, fun h => ?_, hcount ▸ hs.count_ne, fun h => ?_⟩
  · exact Bool.noConfusion (hwait.symm.trans (hreader ▸ h))
  · rw [hcount, hstores.resolve_left fun hstores => h (.inr hstores)]
    exact Nat.min_le_left _ _
  · exact Bool.noConfusion (hwait.symm.trans (hreader ▸ PositionPhase.inWait_of_blocks h))

theorem Counted.next (hs : s.Counted a) (e : ThrottleEvent)
    (hkeeps : KeepsAllowance (throttleMachine.transition s e)) :
    (throttleMachine.next s e).Counted (countCalls a (throttleMachine.transition s e)) := by
  cases e with
  | setReadPosition pos =>
      show (act s (.setReadPosition pos)).1.Counted a
      simp only [act]
      split_ifs with h
      · exact hs.reader rfl (fun hwait => Bool.noConfusion hwait) (by simp [h])
          (fun hblocks => Bool.noConfusion hblocks)
      · exact hs
  | wait =>
      show (act s .wait).1.Counted a
      simp only [act]
      split_ifs with h
      · exact hs.of_same rfl (fun _ => h.2) (fun hr => .inr (hr.resolve_left (by simp [h.1])))
          (fun hblocks => Bool.noConfusion hblocks)
      · exact hs
  | registerTimePeriod now =>
      show (act s (.registerTimePeriod now)).1.Counted a
      simp only [act]
      split_ifs with h
      · refine hs.of_same rfl (fun _ => ?_) (fun hr => .inl (hr.resolve_right ?_)) id
        · dsimp only [callRegister]
          split <;> rfl
        · simp [h.1, BufferPhase.storesAhead]
      · exact hs
  | clear =>
      show (if s.AdmitsClear then s.callClear else s).Counted
        (if s.AdmitsClear then ⟨0, false⟩ else a)
      by_cases h : s.AdmitsClear
      · rw [if_pos h, if_pos h]
        exact hs.renew rfl h.2 rfl (.inl rfl)
      · rw [if_neg h, if_neg h]
        exact hs
  | clearToLastRead =>
      show (if s.AdmitsClear then s.callClearToLastRead else s).Counted
        (if s.AdmitsClear then ⟨0, false⟩ else a)
      by_cases h : s.AdmitsClear
      · rw [if_pos h, if_pos h, callClearToLastRead]
        split
        · rename_i hempty
          exact hs.renew rfl h.2 rfl (.inr (hkeeps rfl h hempty))
        · exact hs.renew rfl h.2 rfl (.inl rfl)
      · rw [if_neg h, if_neg h]
        exact hs
  | enableThrottling enable => exact hs.of_frame rfl rfl (.inl rfl)
  | stepReader => exact hs.stepReader
  | stepBuffer => exact hs.stepBuffer
  | stepLoop => exact hs.stepLoop
  | wakeReader => exact hs.wakeReader
  | wakeLoop => exact hs.wakeLoop false
  | timeoutLoop => exact hs.wakeLoop true

/-! ### Whole runs -/

end ThrottleThreads

end StreamFs
