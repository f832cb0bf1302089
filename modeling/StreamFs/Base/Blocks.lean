import Mathlib.Tactic
import Mathlib.Algebra.BigOperators.Group.Finset.Basic

/-!
Sequences cut into blocks, and memory written piece by piece.

* `slice s a n`: the `n` elements of `s` from position `a`. Consecutive slices join
  (`slice_append`, `flatMap_slice`), a slice of a slice is a slice (`slice_slice`), and the
  blocks of a uniform concatenation are slices of it (`slice_flatten`). Blocks of one length and a
  shorter rest are determined by their concatenation (`flatten_append_inj`).
* `image ws`: what a memory with integer addresses holds after the writes `ws`, `none` where
  nothing was written. Writes that follow each other without a gap act as one write of the
  concatenation (`Contiguous.image_eq`).
-/

namespace StreamFs

variable {β : Type*}

/-! ### Slices -/

/-- The `n` elements of `s` from position `a` on, fewer where `s` ends earlier. -/
def slice (s : List β) (a n : ℕ) : List β := (s.drop a).take n

@[simp] lemma slice_zero (s : List β) (a : ℕ) : slice s a 0 = [] := by simp [slice]

lemma length_slice (s : List β) (a n : ℕ) : (slice s a n).length = min n (s.length - a) := by
  simp [slice]

lemma length_slice_of_le {s : List β} {a n : ℕ} (h : a + n ≤ s.length) :
    (slice s a n).length = n := by
  rw [length_slice]
  omega

/-- Two consecutive slices join to one. -/
lemma slice_append (s : List β) (a m n : ℕ) :
    slice s a m ++ slice s (a + m) n = slice s a (m + n) := by
  rw [slice, slice, slice, List.take_add, List.drop_drop]

/-- A slice inside a slice. -/
lemma slice_slice (s : List β) {a n l m : ℕ} (h : l + m ≤ n) :
    slice (slice s a n) l m = slice s (a + l) m := by
  rw [slice, slice, slice, List.drop_take, List.take_take, List.drop_drop]
  congr 1
  omega

/-- A slice of the beginning. -/
lemma slice_append_left {s : List β} (t : List β) {a n : ℕ} (h : a + n ≤ s.length) :
    slice (s ++ t) a n = slice s a n := by
  rw [slice, slice, List.drop_append_of_le_length (by omega),
    List.take_append_of_le_length (by rw [List.length_drop]; omega)]

/-- A slice of a list cut off at `N` ends there. -/
lemma slice_take (s : List β) (N a n : ℕ) : slice (s.take N) a n = slice s a (min n (N - a)) := by
  rw [slice, slice, List.drop_take, List.take_take]

/-- Consecutive slices of the lengths `n 0, …, n (L - 1)` join to one. -/
lemma flatMap_slice (s : List β) (a : ℕ) (n : ℕ → ℕ) (L : ℕ) :
    (List.range L).flatMap (fun i => slice s (a + ∑ j ∈ Finset.range i, n j) (n i))
      = slice s a (∑ j ∈ Finset.range L, n j) := by
  induction L with
  | zero => simp
  | succ L ih =>
      rw [List.range_succ, List.flatMap_append, List.flatMap_singleton]
      calc (List.range L).flatMap (fun i => slice s (a + ∑ j ∈ Finset.range i, n j) (n i))
            ++ slice s (a + ∑ j ∈ Finset.range L, n j) (n L)
          = slice s a (∑ j ∈ Finset.range L, n j)
              ++ slice s (a + ∑ j ∈ Finset.range L, n j) (n L) := by rw [ih]
        _ = slice s a (∑ j ∈ Finset.range L, n j + n L) := slice_append s a _ _
        _ = slice s a (∑ j ∈ Finset.range (L + 1), n j) := by rw [Finset.sum_range_succ]

/-- The length of a concatenation of pieces numbered `0, …, L - 1`. -/
lemma length_flatMap_range (f : ℕ → List β) (L : ℕ) :
    ((List.range L).flatMap f).length = ∑ i ∈ Finset.range L, (f i).length := by
  induction L with
  | zero => simp
  | succ L ih =>
      rw [List.range_succ, List.flatMap_append, List.length_append, ih, List.flatMap_singleton,
        Finset.sum_range_succ]

/-- The blocks of a concatenation of blocks of length `B` are its slices at the multiples
of `B`. -/
lemma slice_flatten {B : ℕ} {blocks : List (List β)} (hB : ∀ b ∈ blocks, b.length = B) {k : ℕ}
    (hk : k < blocks.length) : slice blocks.flatten (k * B) B = blocks[k] := by
  induction blocks generalizing k with
  | nil => simp at hk
  | cons b bs ih =>
      have hb : b.length = B := hB b (by simp)
      cases k with
      | zero =>
          simp only [slice, List.flatten_cons, Nat.zero_mul, List.drop_zero, List.getElem_cons_zero]
          rw [List.take_append_of_le_length (by omega), List.take_of_length_le (by omega)]
      | succ k =>
          have hrest := ih (fun c hc => hB c (by simp [hc])) (k := k) (by simpa using hk)
          simp only [slice, List.flatten_cons, List.getElem_cons_succ] at hrest ⊢
          rw [← hrest, Nat.succ_mul, List.drop_append, List.drop_of_length_le (by omega)]
          simp [hb]

/-- The length of a concatenation of blocks of length `B`. -/
lemma length_flatten_uniform {B : ℕ} {blocks : List (List β)} (hB : ∀ b ∈ blocks, b.length = B) :
    blocks.flatten.length = blocks.length * B := by
  induction blocks with
  | nil => simp
  | cons b bs ih =>
      have hb : b.length = B := hB b (by simp)
      have hbs : bs.flatten.length = bs.length * B := ih fun c hc => hB c (by simp [hc])
      calc (b :: bs).flatten.length = b.length + bs.flatten.length := by
            rw [List.flatten_cons, List.length_append]
        _ = B + bs.length * B := by rw [hb, hbs]
        _ = (b :: bs).length * B := by rw [List.length_cons, Nat.succ_mul, Nat.add_comm]

/-- A sequence is cut into blocks of length `B` and a shorter rest in one way. -/
lemma flatten_append_inj {B : ℕ} {blocks blocks' : List (List β)} {rest rest' : List β}
    (hB : ∀ b ∈ blocks, b.length = B) (hB' : ∀ b ∈ blocks', b.length = B)
    (hrest : rest.length < B) (hrest' : rest'.length < B)
    (h : blocks.flatten ++ rest = blocks'.flatten ++ rest') :
    blocks = blocks' ∧ rest = rest' := by
  induction blocks generalizing blocks' with
  | nil =>
      cases blocks' with
      | nil => exact ⟨rfl, h⟩
      | cons b' bs' =>
          have hb' : b'.length = B := hB' b' (by simp)
          have hlength := congrArg List.length h
          simp only [List.flatten_nil, List.flatten_cons, List.nil_append,
            List.length_append] at hlength
          omega
  | cons b bs ih =>
      have hb : b.length = B := hB b (by simp)
      cases blocks' with
      | nil =>
          have hlength := congrArg List.length h
          simp only [List.flatten_nil, List.flatten_cons, List.nil_append,
            List.length_append] at hlength
          omega
      | cons b' bs' =>
          have hb' : b'.length = B := hB' b' (by simp)
          rw [List.flatten_cons, List.flatten_cons, List.append_assoc, List.append_assoc] at h
          obtain ⟨hhead, htail⟩ := List.append_inj h (hb.trans hb'.symm)
          obtain ⟨hbs, hrests⟩ := ih (fun c hc => hB c (by simp [hc]))
            (fun c hc => hB' c (by simp [hc])) htail
          exact ⟨by rw [hhead, hbs], hrests⟩

/-! ### Memory images -/

/-- The content of address `k` after the elements `bs` are laid down from address `dst` on. -/
def place (dst : ℤ) (bs : List β) (k : ℤ) : Option β :=
  if dst ≤ k then bs[(k - dst).toNat]? else none

/-- The content of address `k` after the writes `ws`, of which later ones win. -/
def image : List (ℤ × List β) → ℤ → Option β
  | [], _ => none
  | w :: ws, k => (image ws k).or (place w.1 w.2 k)

/-- The writes follow each other without a gap, the first one starting at `start`. -/
def Contiguous : ℤ → List (ℤ × List β) → Prop
  | _, [] => True
  | start, w :: ws => w.1 = start ∧ Contiguous (start + w.2.length) ws

@[simp] lemma place_nil (dst k : ℤ) : place dst ([] : List β) k = none := by simp [place]

/-- Laying down two lists in a row. -/
lemma place_append (dst : ℤ) (bs cs : List β) (k : ℤ) :
    place dst (bs ++ cs) k = (place (dst + bs.length) cs k).or (place dst bs k) := by
  unfold place
  by_cases h1 : dst ≤ k
  · by_cases h2 : dst + bs.length ≤ k
    · have hle : bs.length ≤ (k - dst).toNat := by omega
      have hpos : (k - dst).toNat - bs.length = (k - (dst + bs.length)).toNat := by omega
      rw [if_pos h1, if_pos h2, List.getElem?_append_right hle, hpos]
      simp [List.getElem?_eq_none hle]
    · have hlt : (k - dst).toNat < bs.length := by omega
      simp only [if_pos h1, if_neg h2, List.getElem?_append_left hlt, Option.none_or]
  · have h2 : ¬ dst + bs.length ≤ k := by omega
    simp [if_neg h1, if_neg h2]

/-- **Contiguous writes act as one.** -/
theorem Contiguous.image_eq {start : ℤ} {ws : List (ℤ × List β)} (h : Contiguous start ws)
    (k : ℤ) : image ws k = place start (ws.flatMap Prod.snd) k := by
  induction ws generalizing start with
  | nil => simp [image]
  | cons w ws ih =>
      obtain ⟨hw, hrest⟩ := h
      rw [image, ih hrest, List.flatMap_cons, place_append, hw]

/-- An address beyond the end of every write is untouched. -/
lemma image_eq_none {ws : List (ℤ × List β)} {k : ℤ} (h : ∀ w ∈ ws, w.1 + w.2.length ≤ k) :
    image ws k = none := by
  induction ws with
  | nil => rfl
  | cons w ws ih =>
      have hw := h w (by simp)
      rw [image, ih fun v hv => h v (by simp [hv]), Option.none_or, place]
      split
      · exact List.getElem?_eq_none (by omega)
      · rfl

/-- Contiguity of writes given by their starts and contents at `0, …, L - 1`. -/
lemma contiguous_map_range {start : ℤ} {dst : ℕ → ℤ} {bs : ℕ → List β} {L : ℕ}
    (hstart : dst 0 = start) (hnext : ∀ i, i + 1 < L → dst (i + 1) = dst i + (bs i).length) :
    Contiguous start ((List.range L).map fun i => (dst i, bs i)) := by
  induction L generalizing start dst bs with
  | zero => trivial
  | succ L ih =>
      rw [List.range_succ_eq_map, List.map_cons, List.map_map]
      refine ⟨hstart, ?_⟩
      cases L with
      | zero => trivial
      | succ L =>
          exact @ih _ (fun i => dst (i + 1)) (fun i => bs (i + 1))
            (by rw [hnext 0 (by omega), hstart]) (fun i hi => hnext (i + 1) (by omega))

end StreamFs
