import StreamFs.Base.Machine
import StreamFs.Pool.Throttle

/-!
The periods in the buffer against the arrivals they were measured at.

* `ThrottleCall`: the calls of the throttle. The clock goes on by `elapsed` from one registration to
  the next.
* `PeriodRecord`: a throttle, the clock, and the gap of each period in the buffer: the time since
  the registration before it, none where there was no registration or a clear came in between.
* `Clamped`: each period in the buffer is its gap, less the truncation threshold and not less than
  `0`. `Ordered`: a longer gap does not give a shorter period.
* `clamped_iff`: so it is as long as a `uint32_t` holds the gaps, or nothing fits in the buffer.
-/

namespace StreamFs

/-- The calls of the throttle. A registration comes `elapsed` microseconds after the one before. -/
inductive ThrottleCall where
  | registerTimePeriod (elapsed : ℕ)
  | setReadPosition (pos : ℕ)
  | wait (loop : LoopProgress)
  | clear
  | clearToLastRead
  | enableThrottling (enable : Bool)

/-- A throttle, the time of its last registration, whether the next gap counts from there, and the
gaps of the periods in the buffer. -/
structure PeriodRecord where
  throttle : BufferPoolThrottle
  clock : ℕ
  counting : Bool
  gaps : LogWindow (Option ℕ)

/-- The period for a gap. -/
def clampedGap : Option ℕ → ℕ
  | none => 0
  | some gap => gap - timePeriodTruncationThresholdUs

namespace PeriodRecord

/-- A new throttle. -/
def create (preAllocBufSize : ℕ) : PeriodRecord :=
  ⟨.create preAllocBufSize, 0, false, LogWindow.reset⟩

/-- The gap of a registration. -/
def gap (s : PeriodRecord) (elapsed : ℕ) : Option ℕ := if s.counting then some elapsed else none

/-- One call. A registration gives its gap and the period that it stores. -/
def act (s : PeriodRecord) : ThrottleCall → PeriodRecord × Option (Option ℕ × ℕ)
  | .registerTimePeriod elapsed =>
      let t := s.throttle.registerTimePeriod (s.clock + elapsed)
      (⟨t, s.clock + elapsed, true,
          s.gaps.append s.throttle.mTimePeriodBuffer.capacity (s.gap elapsed)⟩,
        t.mTimePeriodBuffer.items.getLast?.map fun period => (s.gap elapsed, period))
  | .setReadPosition pos => ({ s with throttle := s.throttle.setReadPosition pos }, none)
  | .wait loop => ({ s with throttle := s.throttle.wait loop }, none)
  | .clear => (⟨s.throttle.clear, s.clock, false, LogWindow.reset⟩, none)
  | .clearToLastRead =>
      let t := s.throttle.clearToLastRead
      let erased := s.throttle.mTimePeriodBuffer.size - t.mTimePeriodBuffer.size
      (⟨t, s.clock, false, s.gaps.rewind (s.gaps.log.length - erased)⟩, none)
  | .enableThrottling enable =>
      ({ s with throttle := { s.throttle with mEnableThrottling := enable } }, none)

/-- The calls as a machine. -/
def machine : Machine PeriodRecord ThrottleCall (Option (Option ℕ × ℕ)) := ⟨act⟩

/-- The periods in the buffer after the call are the clamped gaps. -/
def Clamped (t : Transition PeriodRecord ThrottleCall (Option (Option ℕ × ℕ))) : Prop :=
  t.after.throttle.mTimePeriodBuffer.Shows clampedGap t.after.gaps

/-- The longer gap of two registrations does not store the shorter period. -/
def Ordered (t u : Transition PeriodRecord ThrottleCall (Option (Option ℕ × ℕ))) : Prop :=
  ∀ g x g' x', t.output = some (some g, x) → u.output = some (some g', x') → g ≤ g' → x ≤ x'

/-- A `uint32_t` holds the gap of the registration. -/
def ShortGap (t : Transition PeriodRecord ThrottleCall (Option (Option ℕ × ℕ))) : Prop :=
  ∀ elapsed, t.event = .registerTimePeriod elapsed → t.before.counting = true → elapsed < 2 ^ 32

/-- The stop watch runs from the last registration where the gap counts, and is reset where it does
not. Where nothing is in the buffer the gap does not count. -/
structure Recorded (C : ℕ) (s : PeriodRecord) : Prop where
  capacity : s.throttle.mTimePeriodBuffer.capacity = C
  shows : s.throttle.mTimePeriodBuffer.Shows clampedGap s.gaps
  running : s.counting = true → s.throttle.mStopWatchTimer = ⟨false, s.clock⟩
  reset : s.counting = false → s.throttle.mStopWatchTimer.mResetTimer = true
  not_counting : s.throttle.mTimePeriodBuffer.size = 0 → s.counting = false

variable {s : PeriodRecord} {C : ℕ}

lemma recorded_create (C : ℕ) : (create C).Recorded C :=
  ⟨rfl, rfl, fun h => Bool.noConfusion h, fun _ => rfl, fun _ => rfl⟩

/-! ### The stored period -/

/-- The truncation threshold in one subtraction. -/
lemma timePeriod_eq_sub (t : BufferPoolThrottle) (now : ℕ) :
    t.timePeriod now
      = (t.mStopWatchTimer.getLapTime now).1 - timePeriodTruncationThresholdUs := by
  simp only [BufferPoolThrottle.timePeriod]
  split
  · rename_i h
    exact (Nat.sub_eq_zero_of_le h.le).symm
  · rfl

/-- The lap time of a running stop watch is the low half of the time gone by. -/
lemma getLapTime_running (clock elapsed : ℕ) :
    (StopWatchTimer.getLapTime ⟨false, clock⟩ (clock + elapsed)).1 = elapsed % 2 ^ 32 := by
  have hsub : ((clock + elapsed : ℕ) : ℤ) - (clock : ℤ) = (elapsed : ℤ) := by
    push_cast
    ring
  have hmod : (elapsed : ℤ) % 2 ^ 32 = ((elapsed % 2 ^ 32 : ℕ) : ℤ) := by norm_cast
  simp only [StopWatchTimer.getLapTime, Bool.false_eq_true, if_false]
  rw [hsub, hmod, Int.toNat_natCast]

lemma getLapTime_reset {t : StopWatchTimer} (h : t.mResetTimer = true) (now : ℕ) :
    (t.getLapTime now).1 = 0 := by
  simp only [StopWatchTimer.getLapTime, h, if_true]

/-- Below the threshold is what the low half of a longer gap may be, the gap is not. -/
lemma sub_threshold_mod_eq_iff (elapsed : ℕ) :
    elapsed % 2 ^ 32 - timePeriodTruncationThresholdUs = elapsed - timePeriodTruncationThresholdUs
      ↔ elapsed < 2 ^ 32 := by
  constructor
  · intro h
    by_contra hge
    have hlt : elapsed % 2 ^ 32 < elapsed := lt_of_lt_of_le (Nat.mod_lt _ (by norm_num)) (by omega)
    have hlong : timePeriodTruncationThresholdUs < elapsed := by
      have : timePeriodTruncationThresholdUs < 2 ^ 32 := by decide
      omega
    omega
  · intro h
    rw [Nat.mod_eq_of_lt h]

/-- A registration stores the clamped gap iff a `uint32_t` holds the gap. -/
lemma Recorded.timePeriod_eq_iff (hs : s.Recorded C) (elapsed : ℕ) :
    s.throttle.timePeriod (s.clock + elapsed) = clampedGap (s.gap elapsed)
      ↔ (s.counting = true → elapsed < 2 ^ 32) := by
  rw [timePeriod_eq_sub, gap]
  cases hcounting : s.counting with
  | true =>
      rw [hs.running hcounting, getLapTime_running]
      simp only [if_true, clampedGap, forall_const]
      exact sub_threshold_mod_eq_iff elapsed
  | false =>
      rw [getLapTime_reset (hs.reset hcounting)]
      simp [clampedGap]

/-! ### One call -/

/-- A registration shows the next window iff its gap is short. -/
lemma Recorded.clamped_registerTimePeriod_iff (hs : s.Recorded C) (hC : 0 < C) (elapsed : ℕ) :
    Clamped (machine.transition s (.registerTimePeriod elapsed))
      ↔ (s.counting = true → elapsed < 2 ^ 32) := by
  have hcap : 0 < s.throttle.mTimePeriodBuffer.capacity := hs.capacity ▸ hC
  rw [← hs.timePeriod_eq_iff elapsed]
  exact hs.shows.pushBack_iff hcap _ _

lemma Recorded.registerTimePeriod (hs : s.Recorded C) (hC : 0 < C) (elapsed : ℕ)
    (h : Clamped (machine.transition s (.registerTimePeriod elapsed))) :
    (machine.next s (.registerTimePeriod elapsed)).Recorded C := by
  refine ⟨hs.capacity, h, fun _ => rfl, fun hcounting => Bool.noConfusion hcounting, ?_⟩
  intro hempty
  have hsize : (s.throttle.mTimePeriodBuffer.pushBack
      (s.throttle.timePeriod (s.clock + elapsed))).size = 0 := hempty
  have hcapacity := hs.capacity
  rw [Ring.size_pushBack] at hsize
  omega

/-- `wait` leaves the stop watch alone. -/
lemma mStopWatchTimer_wait (t : BufferPoolThrottle) (loop : LoopProgress) :
    (t.wait loop).mStopWatchTimer = t.mStopWatchTimer := by
  simp only [BufferPoolThrottle.wait, BufferPoolThrottle.throttle, BufferPoolThrottle.blockUntil,
    BufferPoolThrottle.startOrSeek, BufferPoolThrottle.countReadAhead]
  split_ifs <;> rfl

/-- A clear to the last read position drops the gaps of the periods that it erases. -/
lemma clamped_clearToLastRead (hs : s.throttle.mTimePeriodBuffer.Shows clampedGap s.gaps) :
    Clamped (machine.transition s .clearToLastRead) := by
  have hbuffer := s.throttle.mTimePeriodBuffer_clearToLastRead
  obtain ⟨n, hn⟩ : ∃ n, n = s.throttle.mTimePeriodBuffer.size - s.throttle.mLastPos - 1 := ⟨_, rfl⟩
  have hle : n ≤ s.throttle.mTimePeriodBuffer.size := by omega
  have hshows := hs.eraseEnd hle
  rw [← hn] at hbuffer
  show s.throttle.clearToLastRead.mTimePeriodBuffer.Shows clampedGap
    (s.gaps.rewind (s.gaps.log.length
      - (s.throttle.mTimePeriodBuffer.size - s.throttle.clearToLastRead.mTimePeriodBuffer.size)))
  rw [hbuffer, Ring.size_eraseEnd, Nat.sub_sub_self hle]
  exact hshows

/-- A call that registers nothing takes the window on with the buffer. -/
lemma clamped_of_shows (hs : s.throttle.mTimePeriodBuffer.Shows clampedGap s.gaps)
    {e : ThrottleCall} (he : ∀ elapsed, e ≠ .registerTimePeriod elapsed) :
    Clamped (machine.transition s e) := by
  cases e with
  | registerTimePeriod elapsed => exact absurd rfl (he elapsed)
  | setReadPosition _ => exact hs
  | wait loop =>
      show (s.throttle.wait loop).mTimePeriodBuffer.Shows clampedGap s.gaps
      rw [(s.throttle.wait_frame loop).1]
      exact hs
  | clear => exact Ring.Shows.clear _ _
  | clearToLastRead => exact clamped_clearToLastRead hs
  | enableThrottling _ => exact hs

lemma Recorded.wait (hs : s.Recorded C) (loop : LoopProgress) :
    (machine.next s (.wait loop)).Recorded C := by
  have hbuffer := (s.throttle.wait_frame loop).1
  have hwatch := mStopWatchTimer_wait s.throttle loop
  refine ⟨?_, clamped_of_shows hs.shows nofun, fun h => ?_, fun h => ?_, fun h => ?_⟩
  · exact (congrArg Ring.capacity hbuffer).trans hs.capacity
  · exact hwatch.trans (hs.running h)
  · exact (congrArg StopWatchTimer.mResetTimer hwatch).trans (hs.reset h)
  · exact hs.not_counting ((congrArg Ring.size hbuffer).symm.trans h)

/-- After a clear to the last read position the stop watch is reset. An empty buffer keeps the
throttle as it is, with the stop watch reset before. -/
lemma Recorded.clearToLastRead (hs : s.Recorded C) :
    (machine.next s .clearToLastRead).Recorded C := by
  have hbuffer := s.throttle.mTimePeriodBuffer_clearToLastRead
  refine ⟨?_, clamped_clearToLastRead hs.shows, fun h => Bool.noConfusion h, fun _ => ?_,
    fun _ => rfl⟩
  · exact (congrArg Ring.capacity hbuffer).trans hs.capacity
  · show s.throttle.clearToLastRead.mStopWatchTimer.mResetTimer = true
    rw [BufferPoolThrottle.clearToLastRead]
    split
    · rename_i hempty
      exact hs.reset (hs.not_counting hempty)
    · rfl

/-- A call shows the next window iff it registers no long gap. -/
lemma Recorded.clamped_iff_shortGap (hs : s.Recorded C) (hC : 0 < C) (e : ThrottleCall) :
    Clamped (machine.transition s e) ↔ ShortGap (machine.transition s e) := by
  by_cases he : ∀ elapsed, e ≠ .registerTimePeriod elapsed
  · exact iff_of_true (clamped_of_shows hs.shows he) fun elapsed h => absurd h (he elapsed)
  · push Not at he
    obtain ⟨elapsed, rfl⟩ := he
    rw [hs.clamped_registerTimePeriod_iff hC]
    refine ⟨fun h elapsed' he hcounting => ?_, fun h => h elapsed rfl⟩
    obtain rfl : elapsed = elapsed' := by injection he
    exact h hcounting

/-- A call that shows the next window keeps the stop watch at the last registration. -/
lemma Recorded.next (hs : s.Recorded C) (hC : 0 < C) (e : ThrottleCall)
    (h : Clamped (machine.transition s e)) : (machine.next s e).Recorded C := by
  cases e with
  | registerTimePeriod elapsed => exact hs.registerTimePeriod hC elapsed h
  | setReadPosition _ => exact ⟨hs.capacity, h, hs.running, hs.reset, hs.not_counting⟩
  | wait loop => exact hs.wait loop
  | clear => exact ⟨hs.capacity, h, fun h => Bool.noConfusion h, fun _ => rfl, fun _ => rfl⟩
  | clearToLastRead => exact hs.clearToLastRead
  | enableThrottling _ => exact ⟨hs.capacity, h, hs.running, hs.reset, hs.not_counting⟩

/-- What a call stores under a gap is the clamped gap. -/
lemma Recorded.stored (hs : s.Recorded C) (hC : 0 < C) {e : ThrottleCall}
    (h : ShortGap (machine.transition s e)) {g : Option ℕ} {x : ℕ}
    (hout : machine.output s e = some (g, x)) : x = clampedGap g := by
  cases e with
  | registerTimePeriod elapsed =>
      have hcap : 0 < s.throttle.mTimePeriodBuffer.capacity := hs.capacity ▸ hC
      have hperiod := (hs.timePeriod_eq_iff elapsed).mpr (h elapsed rfl)
      have hlast : (s.throttle.mTimePeriodBuffer.pushBack
          (s.throttle.timePeriod (s.clock + elapsed))).items.getLast?.map
            (fun period => (s.gap elapsed, period)) = some (g, x) := hout
      rw [Ring.items_pushBack _ hcap, List.getLast?_concat, hperiod, Option.map_some,
        Option.some.injEq, Prod.mk.injEq] at hlast
      obtain ⟨rfl, rfl⟩ := hlast
      rfl
  | setReadPosition _ => exact absurd hout nofun
  | wait loop => exact absurd hout nofun
  | clear => exact absurd hout nofun
  | clearToLastRead => exact absurd hout nofun
  | enableThrottling _ => exact absurd hout nofun

/-! ### A buffer without room -/

/-- No period has room in the buffer. -/
structure Roomless (s : PeriodRecord) : Prop where
  capacity : s.throttle.mTimePeriodBuffer.capacity = 0
  shows : s.throttle.mTimePeriodBuffer.Shows clampedGap s.gaps

lemma Roomless.clamped (hs : s.Roomless) (e : ThrottleCall) : Clamped (machine.transition s e) := by
  by_cases he : ∀ elapsed, e ≠ .registerTimePeriod elapsed
  · exact clamped_of_shows hs.shows he
  · push Not at he
    obtain ⟨elapsed, rfl⟩ := he
    exact hs.shows.pushBack_of_capacity_eq_zero hs.capacity _ _

lemma Roomless.next (hs : s.Roomless) (e : ThrottleCall) : (machine.next s e).Roomless := by
  refine ⟨?_, hs.clamped e⟩
  cases e with
  | registerTimePeriod _ => exact hs.capacity
  | setReadPosition _ => exact hs.capacity
  | wait loop => exact (congrArg Ring.capacity (s.throttle.wait_frame loop).1).trans hs.capacity
  | clear => exact hs.capacity
  | clearToLastRead =>
      exact (congrArg Ring.capacity s.throttle.mTimePeriodBuffer_clearToLastRead).trans hs.capacity
  | enableThrottling _ => exact hs.capacity

/-- Nothing is stored. -/
lemma Roomless.output_eq_none (hs : s.Roomless) (e : ThrottleCall) : machine.output s e = none := by
  cases e with
  | registerTimePeriod elapsed =>
      have hnil : (s.throttle.mTimePeriodBuffer.pushBack
          (s.throttle.timePeriod (s.clock + elapsed))).items = [] := Ring.items_eq_nil hs.capacity
      show (s.throttle.mTimePeriodBuffer.pushBack
        (s.throttle.timePeriod (s.clock + elapsed))).items.getLast?.map _ = none
      rw [hnil, List.getLast?_nil, Option.map_none]
  | setReadPosition _ => rfl
  | wait _ => rfl
  | clear => rfl
  | clearToLastRead => rfl
  | enableThrottling _ => rfl

/-! ### All calls -/

/-- Of a run whose calls store clamped gaps, any two registrations are in order. -/
lemma ordered_of_stored {t u : Transition PeriodRecord ThrottleCall (Option (Option ℕ × ℕ))}
    (ht : ∀ g x, t.output = some (g, x) → x = clampedGap g)
    (hu : ∀ g x, u.output = some (g, x) → x = clampedGap g) : Ordered t u := by
  intro g x g' x' hx hx' hle
  rw [ht _ _ hx, hu _ _ hx']
  exact Nat.sub_le_sub_right hle _

/-- All along a run of calls the periods in the buffer are the clamped gaps, and in the order of the
gaps, iff the buffer has no room or the gap of each registration is below `2 ^ 32`. -/
theorem clamped_iff (C : ℕ) (es : List ThrottleCall) :
    ((∀ t ∈ machine.trace (create C) es, Clamped t)
      ∧ ∀ t ∈ machine.trace (create C) es, ∀ u ∈ machine.trace (create C) es, Ordered t u)
      ↔ C = 0 ∨ ∀ t ∈ machine.trace (create C) es, ShortGap t := by
  rcases Nat.eq_zero_or_pos C with rfl | hC
  · have hcreate : (create 0).Roomless := ⟨rfl, (recorded_create 0).shows⟩
    have hall : ∀ t ∈ machine.trace (create 0) es, Clamped t ∧ t.output = none :=
      Machine.forall_trace (I := Roomless) (Q := fun _ => True)
        (fun s e hs _ => ⟨⟨hs.clamped e, hs.output_eq_none e⟩, hs.next e⟩) hcreate es
        fun _ _ => trivial
    refine iff_of_true ⟨fun t ht => (hall t ht).1, fun t ht u _ g x g' x' hx => ?_⟩ (Or.inl rfl)
    exact absurd (hx.symm.trans (hall t ht).2) nofun
  · have hiff : (∀ t ∈ machine.trace (create C) es, Clamped t)
        ↔ ∀ t ∈ machine.trace (create C) es, ShortGap t :=
      Machine.forall_trace_iff (I := Recorded C) (fun s e hs => hs.clamped_iff_shortGap hC e)
        (fun s e hs h => hs.next hC e h) (recorded_create C) es
    have hstored : (∀ t ∈ machine.trace (create C) es, ShortGap t) →
        ∀ t ∈ machine.trace (create C) es, ∀ g x, t.output = some (g, x) → x = clampedGap g :=
      Machine.forall_trace (I := Recorded C)
        (fun s e hs h => ⟨fun g x hout => hs.stored hC h hout,
          hs.next hC e ((hs.clamped_iff_shortGap hC e).mpr h)⟩) (recorded_create C) es
    have hnonzero : C ≠ 0 := hC.ne'
    simp only [hnonzero, false_or]
    constructor
    · rintro ⟨hclamped, -⟩
      exact hiff.mp hclamped
    · intro hshort
      exact ⟨hiff.mpr hshort, fun t ht u hu =>
        ordered_of_stored (hstored hshort t ht) (hstored hshort u hu)⟩

/-- After a pause of `2 ^ 32` microseconds the period is `0`. -/
theorem not_forall_clamped : ¬ ∀ C es, (∀ t ∈ machine.trace (create C) es, Clamped t)
    ∧ ∀ t ∈ machine.trace (create C) es, ∀ u ∈ machine.trace (create C) es, Ordered t u := by
  intro h
  have hlong := (h 2 [.registerTimePeriod 0, .registerTimePeriod (2 ^ 32)]).1
    _ (machine.mem_trace_append (create 2) [.registerTimePeriod 0] (.registerTimePeriod (2 ^ 32)))
  have hs : (machine.next (create 2) (.registerTimePeriod 0)).Recorded 2 :=
    (recorded_create 2).registerTimePeriod (by norm_num) 0
      (((recorded_create 2).clamped_registerTimePeriod_iff (by norm_num) 0).mpr (by norm_num))
  have hshort := (hs.clamped_registerTimePeriod_iff (by norm_num) (2 ^ 32)).mp hlong rfl
  exact absurd hshort (lt_irrefl _)

end PeriodRecord

end StreamFs
