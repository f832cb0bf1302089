import Mathlib.Tactic

/-!
Fixed-width arithmetic on natural numbers and integers: the `size_t` (64 bit unsigned)
and `int` (32 bit two's complement) operations a C++ program computes with.

* `subU64`, `addU64`, `mulU64`: the unsigned operations, with the two cases of the subtraction,
  `subU64_of_le` and `subU64_of_lt`.
* `toInt32`, `toSizeT`: storing into an `int` and widening an `int` to `size_t`.
  `toSizeT_toInt32_of_lt` says that the round trip is the identity below `2^31`,
  `toSizeT_toInt32_mod` that it never changes the value modulo `2^32`, and
  `toSizeT_toInt32_cases` that its values keep out of the middle of the range.
-/

namespace StreamFs

/-! ### Unsigned 64 bit operations -/

/-- `a - b` on 64 bit unsigned operands: below zero it wraps around at `2^64`. -/
def subU64 (a b : ℕ) : ℕ := if b ≤ a then a - b else a + 2 ^ 64 - b

/-- `a + b` on 64 bit unsigned operands. -/
def addU64 (a b : ℕ) : ℕ := (a + b) % 2 ^ 64

/-- `a * b` on 64 bit unsigned operands. -/
def mulU64 (a b : ℕ) : ℕ := a * b % 2 ^ 64

lemma subU64_of_le {a b : ℕ} (h : b ≤ a) : subU64 a b = a - b := by
  rw [subU64, if_pos h]

lemma subU64_of_lt {a b : ℕ} (h : a < b) : subU64 a b = a + 2 ^ 64 - b := by
  rw [subU64, if_neg (by omega)]

lemma addU64_of_lt {a b : ℕ} (h : a + b < 2 ^ 64) : addU64 a b = a + b := by
  rw [addU64, Nat.mod_eq_of_lt h]

lemma mulU64_of_lt {a b : ℕ} (h : a * b < 2 ^ 64) : mulU64 a b = a * b := by
  rw [mulU64, Nat.mod_eq_of_lt h]

/-! ### The `int` accumulator -/

/-- Storing an integer in an `int`. -/
def toInt32 (z : ℤ) : ℤ := z.bmod (2 ^ 32)

/-- Converting an `int` to `size_t`. -/
def toSizeT (z : ℤ) : ℕ := (z % 2 ^ 64).toNat

lemma toInt32_lt (z : ℤ) : toInt32 z < 2 ^ 31 := by
  rw [toInt32, Int.bmod_def]
  split <;> omega

lemma neg_le_toInt32 (z : ℤ) : -2 ^ 31 ≤ toInt32 z := by
  rw [toInt32, Int.bmod_def]
  split <;> omega

lemma toInt32_of_lt {n : ℕ} (h : n < 2 ^ 31) : toInt32 n = n := by
  rw [toInt32, Int.bmod_def]
  split <;> omega

/-- An `int` holds the numbers below `2^31` as they are, and no others. -/
lemma toInt32_eq_natCast_iff {n : ℕ} : toInt32 n = n ↔ n < 2 ^ 31 := by
  refine ⟨fun h => ?_, toInt32_of_lt⟩
  have hlt := toInt32_lt n
  omega

/-- Storing in an `int` keeps the residue modulo `2^32`. -/
lemma toInt32_emod (z : ℤ) : toInt32 z % 2 ^ 32 = z % 2 ^ 32 := by
  rw [toInt32, Int.bmod_def]
  split <;> omega

/-- Adding to a stored value stores the sum. -/
lemma toInt32_toInt32_add (z w : ℤ) : toInt32 (toInt32 z + w) = toInt32 (z + w) := by
  have h := toInt32_emod z
  simp only [toInt32, Int.bmod_def] at *
  split <;> split <;> omega

lemma toSizeT_natCast {n : ℕ} (h : n < 2 ^ 64) : toSizeT n = n := by
  rw [toSizeT]
  omega

lemma toSizeT_toInt32_of_lt {n : ℕ} (h : n < 2 ^ 31) : toSizeT (toInt32 n) = n := by
  rw [toInt32_of_lt h, toSizeT_natCast (by omega)]

/-- Widening a stored value keeps its residue modulo `2^32`. -/
lemma toSizeT_toInt32_mod (z : ℤ) : (toSizeT (toInt32 z) : ℤ) % 2 ^ 32 = z % 2 ^ 32 := by
  have h := toInt32_emod z
  rw [toSizeT]
  omega

/-- Widening a stored value gives a number below `2^31` or one of the `2^31` largest. -/
lemma toSizeT_toInt32_cases (z : ℤ) :
    toSizeT (toInt32 z) < 2 ^ 31 ∨ 2 ^ 64 - 2 ^ 31 ≤ toSizeT (toInt32 z) := by
  have h1 := toInt32_lt z
  have h2 := neg_le_toInt32 z
  rw [toSizeT]
  omega

end StreamFs
