import StreamFs.Pool.Rewind

/-!
`clear`: whether the pool is as good as new.

* `Alike`: two pools that differ at most in fields no result depends on, and in the last read
  location where no ring has two chunks. `Alike.act`: alike pools give the same results and
  stay alike.
* `clear_asNew_iff`: after `clear` every run goes as on a new pool iff no abort was pending and
  the last read location was the first one, since `clear` resets neither of the two fields.
-/

namespace StreamFs

namespace Session

/-- The two pools differ at most in the end of the last read, the throttle and, where no ring
has room for two chunks, the last read location. -/
def Alike (p q : BufferPool) : Prop :=
  ∃ loc readEnd throttle,
    q = { p with mLastReadLocation := loc, mReadEnd := readEnd, mThrottle := throttle }
      ∧ (loc = p.mLastReadLocation ∨ p.getCapacity ≤ 1)

/-- Sessions on alike pools with the reader at the same place. -/
def AlikeSession (s t : Session) : Prop := Alike s.pool t.pool ∧ t.reader = s.reader

namespace Alike

variable {p q : BufferPool}

lemma refuses (h : Alike p q) (a : ReadArgs) : q.refuses a = p.refuses a := by
  obtain ⟨loc, readEnd, throttle, rfl, -⟩ := h
  rfl

lemma mustWait (h : Alike p q) (a : ReadArgs) : q.mustWait a ↔ p.mustWait a := by
  obtain ⟨loc, readEnd, throttle, rfl, -⟩ := h
  exact Iff.rfl

lemma readReady (h : Alike p q) (a : ReadArgs) : q.readReady a ↔ p.readReady a := by
  obtain ⟨loc, readEnd, throttle, rfl, -⟩ := h
  exact Iff.rfl

lemma mAborting (h : Alike p q) : q.mAborting = p.mAborting := by
  obtain ⟨loc, readEnd, throttle, rfl, -⟩ := h
  rfl

lemma getSize (h : Alike p q) : q.getSize = p.getSize := by
  obtain ⟨loc, readEnd, throttle, rfl, -⟩ := h
  rfl

lemma getTotalBufferCount (h : Alike p q) : q.getTotalBufferCount = p.getTotalBufferCount := by
  obtain ⟨loc, readEnd, throttle, rfl, -⟩ := h
  rfl

lemma leaveWait (h : Alike p q) (a : ReadArgs) : Alike (p.leaveWait a) (q.leaveWait a) := by
  obtain ⟨loc, readEnd, throttle, rfl, hloc⟩ := h
  simp only [BufferPool.leaveWait]
  split_ifs
  · exact ⟨loc, readEnd, throttle, rfl, hloc⟩
  · exact ⟨loc, a.readEnd, throttle, rfl, hloc⟩

lemma copyAt (h : Alike p q) (a : ReadArgs) (i : ℕ) : q.copyAt a i = p.copyAt a i := by
  obtain ⟨loc, readEnd, throttle, rfl, -⟩ := h
  simp only [BufferPool.copyAt, BufferPool.offAt_eq]
  rfl

/-- The copy block gives the same result and sets the same location. -/
lemma finishRead (h : Alike p q) (a : ReadArgs) (loop : LoopProgress) :
    (q.finishRead a loop).1 = (p.finishRead a loop).1
      ∧ Alike (p.finishRead a loop).2 (q.finishRead a loop).2 := by
  have hsize := h.getSize
  rcases Nat.eq_zero_or_pos p.getSize with h0 | hpos
  · rw [p.finishRead_of_empty a loop h0, q.finishRead_of_empty a loop (hsize.trans h0)]
    exact ⟨rfl, h⟩
  · rw [p.finishRead_of_pos a loop hpos, q.finishRead_of_pos a loop (hsize ▸ hpos)]
    have hcopies : q.copyAt a = p.copyAt a := funext (h.copyAt a)
    obtain ⟨loc, readEnd, throttle, rfl, hloc⟩ := h
    refine ⟨by simp only [hcopies]; rfl, ?_⟩
    cases a.length with
    | zero => exact ⟨loc, readEnd, _, rfl, hloc⟩
    | succ n => exact ⟨_, readEnd, _, rfl, Or.inl rfl⟩

lemma pushBuffer (h : Alike p q) (b : PushArgs) (now : ℕ) :
    Alike (p.pushBuffer b now) (q.pushBuffer b now) := by
  obtain ⟨loc, readEnd, throttle, rfl, hloc⟩ := h
  simp only [BufferPool.pushBuffer]
  split_ifs
  · exact ⟨loc, readEnd, throttle, rfl, hloc⟩
  all_goals exact ⟨loc, readEnd, _, rfl, hloc⟩

lemma clear (h : Alike p q) : Alike p.clear q.clear := by
  obtain ⟨loc, readEnd, throttle, rfl, hloc⟩ := h
  exact ⟨loc, 0, _, rfl, hloc⟩

/-- In a ring of one chunk there is nothing behind any location. -/
lemma clearToLastRead_of_one (hpos : 0 < p.getSize) (hcap : p.getCapacity ≤ 1) :
    p.clearToLastRead
      = { p with mAborting := false, mThrottle := p.mThrottle.clearToLastRead } := by
  have hle : p.getSize ≤ p.getCapacity := p.mCircBuf.size_le
  have hzero : p.getSize - p.mLastReadLocation - 1 = 0 := by omega
  rw [BufferPool.clearToLastRead, if_neg hpos.ne']
  dsimp only
  rw [hzero, Ring.eraseEnd_zero, subU64_of_le (Nat.zero_le _), Nat.sub_zero, ite_self, ite_self]

lemma clearToLastRead (h : Alike p q) : Alike p.clearToLastRead q.clearToLastRead := by
  have hsize := h.getSize
  rcases Nat.eq_zero_or_pos p.getSize with h0 | hpos
  · rw [BufferPool.clearToLastRead, if_pos h0, BufferPool.clearToLastRead, if_pos (hsize.trans h0)]
    exact h
  · have hpos' : 0 < q.getSize := hsize ▸ hpos
    obtain ⟨loc, readEnd, throttle, rfl, rfl | hcap⟩ := h
    · rw [BufferPool.clearToLastRead, if_neg hpos.ne', BufferPool.clearToLastRead,
        if_neg hpos'.ne']
      exact ⟨_, readEnd, _, rfl, Or.inl rfl⟩
    · rw [clearToLastRead_of_one hpos hcap, clearToLastRead_of_one hpos' hcap]
      exact ⟨loc, readEnd, _, rfl, Or.inr hcap⟩

/-- The throttles of alike pools may move apart. -/
lemma of_throttle (h : Alike p q) (t u : BufferPoolThrottle) :
    Alike { p with mThrottle := t } { q with mThrottle := u } := by
  obtain ⟨loc, readEnd, throttle, rfl, hloc⟩ := h
  exact ⟨loc, readEnd, u, rfl, hloc⟩

lemma abortAllOperations (h : Alike p q) : Alike p.abortAllOperations q.abortAllOperations := by
  obtain ⟨loc, readEnd, throttle, rfl, hloc⟩ := h
  exact ⟨loc, readEnd, throttle, rfl, hloc⟩

end Alike

namespace AlikeSession

variable {s t : Session}

/-- Alike sessions give the same result on every event and stay alike. -/
lemma act (h : AlikeSession s t) (e : Event) :
    (t.act e).2 = (s.act e).2 ∧ AlikeSession (s.act e).1 (t.act e).1 := by
  obtain ⟨hpool, hreader⟩ := h
  cases e with
  | pushBuffer b now => exact ⟨rfl, hpool.pushBuffer b now, hreader⟩
  | read a =>
      simp only [Session.act, Session.read, hreader, hpool.refuses, hpool.mustWait]
      split_ifs
      · exact ⟨rfl, hpool, hreader⟩
      · exact ⟨rfl, hpool, rfl⟩
      · exact ⟨rfl, hpool, rfl⟩
      · exact ⟨rfl, hpool, hreader⟩
  | wake =>
      simp only [Session.act, hreader]
      cases hr : s.reader with
      | idle => exact ⟨rfl, hpool, hreader⟩
      | admitted a => exact ⟨rfl, hpool, hreader⟩
      | waiting a =>
          simp only [Session.wake, hpool.readReady, hpool.mAborting]
          split_ifs
          · exact ⟨rfl, hpool.leaveWait a, rfl⟩
          · exact ⟨rfl, hpool.leaveWait a, rfl⟩
          · exact ⟨rfl, hpool, hreader⟩
  | timeout =>
      simp only [Session.act, hreader]
      cases hr : s.reader with
      | idle => exact ⟨rfl, hpool, hreader⟩
      | admitted a => exact ⟨rfl, hpool, hreader⟩
      | waiting a =>
          simp only [Session.timeout, hpool.readReady]
          split_ifs
          · exact ⟨rfl, hpool, hreader⟩
          · exact ⟨rfl, hpool, rfl⟩
  | copy loop =>
      simp only [Session.act, hreader]
      cases hr : s.reader with
      | idle => exact ⟨rfl, hpool, hreader⟩
      | waiting a => exact ⟨rfl, hpool, hreader⟩
      | admitted a =>
          obtain ⟨hresult, hpool'⟩ := hpool.finishRead a loop
          exact ⟨congrArg some hresult, hpool', rfl⟩
  | clear =>
      simp only [Session.act, hreader]
      split_ifs
      · exact ⟨rfl, hpool.clear, hreader⟩
      · exact ⟨rfl, hpool, hreader⟩
  | clearToLastRead =>
      simp only [Session.act, hreader]
      split_ifs
      · exact ⟨rfl, hpool.clearToLastRead, hreader⟩
      · exact ⟨rfl, hpool, hreader⟩
  | abortAllOperations => exact ⟨rfl, hpool.abortAllOperations, hreader⟩
  | throttleLoop loop => exact ⟨rfl, hpool.of_throttle _ _, hreader⟩

/-- Alike sessions cannot be told apart. -/
lemma outputs (h : AlikeSession s t) (es : List Event) :
    machine.outputs s es = machine.outputs t es := by
  refine Machine.outputs_eq_of_bisim (fun s t e h => ?_) h es
  obtain ⟨hresult, hnext⟩ := h.act e
  refine ⟨?_, hnext⟩
  simp only [Machine.output, machine, observe, hresult, hnext.1.getSize,
    hnext.1.getTotalBufferCount]

end AlikeSession

/-! ### After `clear` -/

variable {C : PoolCapacity} {s t : Session}

/-- A session that `clear` has made as good as new, but for the location. -/
lemma alikeSession_clear (hs : s.WellFormed C) (hidle : s.reader = .idle)
    (habort : s.pool.mAborting = false) (hloc : s.pool.mLastReadLocation = 0 ∨ C.val = 1) :
    AlikeSession (fresh C) s.clear := by
  refine ⟨⟨s.pool.mLastReadLocation, 0, s.pool.mThrottle.clear, ?_, ?_⟩, hidle⟩
  · have hcap : s.pool.mCircBuf.capacity = C.val := hs.capacity
    simp only [Session.clear, BufferPool.clear, Session.fresh, BufferPool.create, Ring.clear, hcap,
      hs.running, habort]
  · rcases hloc with h | h
    · exact Or.inl h
    · exact Or.inr h.le

/-- A read of the first chunk on an empty pool, and the end of its wait: it ends at once exactly
where an abort is pending. -/
lemma read_then_wake (ht : t.WellFormed C) (hidle : t.reader = .idle)
    (hempty : t.pool.mTotalBufCount = 0) (hopen : t.pool.mGotLastBuffer = false) :
    (machine.output (machine.next t (.read ⟨1, 0, 0, 0⟩)) .wake).result
      = if t.pool.mAborting then some .nothing else none := by
  have hone := C.one_le
  have hnone : t.pool.refuses ⟨1, 0, 0, 0⟩ = none :=
    BufferPool.refuses_eq_none ht.running (by simp [hopen]) (by decide) (by decide)
      (Nat.zero_le _) (by omega) (by rw [ht.capacity]; exact hone)
  have hwait : t.pool.mustWait ⟨1, 0, 0, 0⟩ := ⟨by rw [hempty]; decide, hopen⟩
  have hnext : machine.next t (.read ⟨1, 0, 0, 0⟩)
      = { t with reader := .waiting ⟨1, 0, 0, 0⟩ } := by
    simp [Machine.next, machine, act, read, hidle, hnone, hwait]
  rw [hnext]
  simp only [Machine.output, machine, observe, act, wake, BufferPool.readReady, hempty, hopen,
    ReadArgs.readEnd]
  cases habort : t.pool.mAborting <;> simp

/-- Two pushes and a `clearToLastRead` on an empty pool. -/
lemma pushes_then_clearToLastRead (ht : t.WellFormed C) (hidle : t.reader = .idle)
    (hempty : t.pool.getSize = 0) (b : PushArgs) :
    (machine.run t [.pushBuffer b 0, .pushBuffer b 0, .clearToLastRead]).pool.getSize
      = min 2 C.val - (min 2 C.val - t.pool.mLastReadLocation - 1) := by
  obtain ⟨hsize, -, hloc, hreader⟩ := run_pushes ht [(b, 0), (b, 0)]
  have hwf := ht.run ([(b, 0), (b, 0)].map fun b => .pushBuffer b.1 b.2)
  simp only [List.map_cons, List.map_nil, List.length_cons, List.length_nil, hempty] at *
  have hrun : machine.run t [.pushBuffer b 0, .pushBuffer b 0, .clearToLastRead]
      = (machine.run t [.pushBuffer b 0, .pushBuffer b 0]).clearToLastRead := by
    rw [← next_clearToLastRead (hreader.trans hidle), ← Machine.run_singleton,
      ← Machine.run_append]
    rfl
  rw [hrun]
  show (machine.run t [.pushBuffer b 0, .pushBuffer b 0]).pool.clearToLastRead.getSize = _
  rw [hwf.tracks.getSize_clearToLastRead, hsize, hloc]

/-- An abort left pending shows in a read that finds nothing. -/
lemma mAborting_of_asNew (ht : t.WellFormed C) (hidle : t.reader = .idle)
    (hempty : t.pool.mTotalBufCount = 0) (hopen : t.pool.mGotLastBuffer = false)
    (h : ∀ fs, machine.outputs t fs = machine.outputs (fresh C) fs) :
    t.pool.mAborting = false := by
  have hwake := h [.read ⟨1, 0, 0, 0⟩, .wake]
  simp only [Machine.outputs, List.cons.injEq] at hwake
  have hresult := congrArg Observation.result hwake.2.1
  rw [read_then_wake ht hidle hempty hopen, read_then_wake (WellFormed.fresh C) rfl rfl rfl]
    at hresult
  cases hb : t.pool.mAborting with
  | false => rfl
  | true =>
      rw [hb] at hresult
      simp [fresh, BufferPool.create] at hresult

/-- A location left behind shows in a rewind without a read. -/
lemma mLastReadLocation_of_asNew (ht : t.WellFormed C) (hidle : t.reader = .idle)
    (hempty : t.pool.getSize = 0)
    (h : ∀ fs, machine.outputs t fs = machine.outputs (fresh C) fs) :
    t.pool.mLastReadLocation = 0 ∨ C.val = 1 := by
  have hrewind := h [.pushBuffer (.filled 0) 0, .pushBuffer (.filled 0) 0, .clearToLastRead]
  simp only [Machine.outputs, List.cons.injEq] at hrewind
  have hsize := congrArg Observation.getSize hrewind.2.2.1
  have hleft := pushes_then_clearToLastRead ht hidle hempty (.filled 0)
  have hright := pushes_then_clearToLastRead (WellFormed.fresh C) rfl rfl (.filled 0)
  have heq := hleft.symm.trans (hsize.trans hright)
  have hzero : (fresh C).pool.mLastReadLocation = 0 := rfl
  have hone := C.one_le
  rw [hzero] at heq
  omega

/-- **`clear` makes the pool as good as new** in a reachable session with no read under way, so
that no further run tells it from a new pool, if and only if no abort is pending and the last
read location is the first one, or there is no other. -/
theorem clear_asNew_iff (C : PoolCapacity) (es : List Event)
    (hidle : (machine.run (fresh C) es).reader = .idle) :
    (∀ fs, machine.outputs (machine.next (machine.run (fresh C) es) .clear) fs
        = machine.outputs (fresh C) fs)
      ↔ (machine.run (fresh C) es).pool.mAborting = false
        ∧ ((machine.run (fresh C) es).pool.mLastReadLocation = 0 ∨ C.val = 1) := by
  have hs := wellFormed_run C es
  have hclear := hs.clear hidle
  rw [next_clear hidle]
  constructor
  · intro h
    have habort := mAborting_of_asNew hclear hidle rfl rfl h
    have hloc := mLastReadLocation_of_asNew hclear hidle rfl h
    exact ⟨habort, hloc⟩
  · rintro ⟨habort, hloc⟩ fs
    exact ((alikeSession_clear hs hidle habort hloc).outputs fs).symm

/-- A rewind after a read of the first chunk and a `clear`, as on a new pool. -/
theorem clear_asNew_after_first :
    machine.outputs (machine.next (machine.run (fresh (.ofNat 2))
        [.pushBuffer (.filled 1) 0, .pushBuffer (.filled 2) 0, .read ⟨1, 0, 0, 0⟩,
          .copy ⟨0, false⟩]) .clear)
        [.pushBuffer (.filled 3) 0, .pushBuffer (.filled 4) 0, .clearToLastRead]
      = machine.outputs (fresh (.ofNat 2))
        [.pushBuffer (.filled 3) 0, .pushBuffer (.filled 4) 0, .clearToLastRead] :=
  (clear_asNew_iff _ _ (by decide +kernel)).mpr ⟨by decide +kernel, Or.inl (by decide +kernel)⟩ _

/-- After a read of the chunk `1` and a `clear`, two pushes and a `clearToLastRead` keep both
chunks; on a new pool they keep one. -/
theorem not_forall_clear_asNew :
    ¬ ∀ (C : PoolCapacity) (es : List Event), (machine.run (fresh C) es).reader = .idle →
        ∀ fs, machine.outputs (machine.next (machine.run (fresh C) es) .clear) fs
          = machine.outputs (fresh C) fs := by
  intro h
  have hsame := h (.ofNat 2)
    [.pushBuffer (.filled 1) 0, .pushBuffer (.filled 2) 0, .read ⟨1, 1, 0, 0⟩, .copy ⟨0, false⟩]
    (by decide +kernel)
    [.pushBuffer (.filled 3) 0, .pushBuffer (.filled 4) 0, .clearToLastRead]
  revert hsame
  decide +kernel

end Session

end StreamFs
