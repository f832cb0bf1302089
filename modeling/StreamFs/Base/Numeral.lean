import Mathlib.Tactic

/-!
Numerals in strings of bytes, as `std::stoul` and `std::stoi` read them in the C locale.

* `digits`, `value`: the digits at the front of a string, and the number they stand for.
* `numeral`: the sign and the number behind white space, a sign and, in base 16, a prefix `0x`. The
  prefix is one only in front of a digit. What follows the digits is not looked at.
* `stoul`, `stoi`: the number in 64 unsigned bits, and in 32 signed ones.
* `value_digits_toDigits`, `stoul_toDigits`: the digits of a number are read back.
-/

namespace StreamFs

namespace Numeral

/-- `isspace`. -/
def isSpace (c : UInt8) : Bool := c = 32 ∨ 9 ≤ c ∧ c ≤ 13

/-- The value of a digit or a letter. -/
def digitValue (c : UInt8) : Option ℕ :=
  if 48 ≤ c ∧ c ≤ 57 then some (c.toNat - 48)
  else if 97 ≤ c ∧ c ≤ 122 then some (c.toNat - 87)
  else if 65 ≤ c ∧ c ≤ 90 then some (c.toNat - 55)
  else none

/-- The value of a digit in a base. -/
def digitIn (base : ℕ) (c : UInt8) : Option ℕ := (digitValue c).filter (· < base)

/-- The digits at the front of a string. -/
def digits (base : ℕ) : List UInt8 → List ℕ
  | [] => []
  | c :: str =>
      match digitIn base c with
      | none => []
      | some d => d :: digits base str

/-- The number that digits stand for, the highest one first. -/
def value (base : ℕ) (ds : List ℕ) : ℕ := ds.foldl (fun n d => base * n + d) 0

/-- The sign in front of a string, whether it is a minus, and the rest. -/
def sign (str : List UInt8) : Bool × List UInt8 :=
  match str with
  | [] => (false, [])
  | c :: rest => if c = 45 then (true, rest) else if c = 43 then (false, rest) else (false, str)

/-- Without the prefix `0x` or `0X` of a number in base 16. -/
def dropPrefix (base : ℕ) (str : List UInt8) : List UInt8 :=
  match str with
  | zero :: x :: c :: rest =>
      if base = 16 ∧ zero = 48 ∧ (x = 120 ∨ x = 88) ∧ (digitIn 16 c).isSome then c :: rest else str
  | _ => str

/-- The sign and the number at the front of a string, none where there is no digit. -/
def numeral (base : ℕ) (str : List UInt8) : Option (Bool × ℕ) :=
  let (minus, rest) := sign (str.dropWhile isSpace)
  let ds := digits base (dropPrefix base rest)
  if ds = [] then none else some (minus, value base ds)

/-- `std::stoul`, none where it throws. A minus negates in 64 bits. -/
def stoul (base : ℕ) (str : List UInt8) : Option ℕ :=
  match numeral base str with
  | none => none
  | some (minus, n) =>
      if 2 ^ 64 ≤ n then none else some (if minus then (2 ^ 64 - n) % 2 ^ 64 else n)

/-- `std::stoi`, none where it throws. -/
def stoi (base : ℕ) (str : List UInt8) : Option ℤ :=
  match numeral base str with
  | none => none
  | some (minus, n) =>
      let z : ℤ := if minus then -n else n
      if -2 ^ 31 ≤ z ∧ z < 2 ^ 31 then some z else none

/-- The bytes of characters. -/
def bytes (cs : List Char) : List UInt8 := cs.map fun c => UInt8.ofNat c.toNat

variable {base : ℕ}

/-- Digits in a row. -/
lemma digits_append {str : List UInt8} (h : ∀ c ∈ str, (digitIn base c).isSome)
    (rest : List UInt8) : digits base (str ++ rest) = digits base str ++ digits base rest := by
  induction str with
  | nil => rfl
  | cons c str ih =>
      obtain ⟨hc, hstr⟩ := List.forall_mem_cons.mp h
      obtain ⟨d, hd⟩ := Option.isSome_iff_exists.mp hc
      simp only [List.cons_append, digits, hd, ih hstr]

lemma value_append_singleton (ds : List ℕ) (d : ℕ) :
    value base (ds ++ [d]) = base * value base ds + d := by
  rw [value, List.foldl_append]
  rfl

/-- The character of a digit is read as the digit. -/
lemma digitIn_digitChar (hbase : base ≤ 16) {d : ℕ} (hd : d < base) :
    digitIn base (UInt8.ofNat d.digitChar.toNat) = some d := by
  have hvalue : ∀ d < 16, digitValue (UInt8.ofNat (Nat.digitChar d).toNat) = some d := by decide
  rw [digitIn, hvalue d (hd.trans_le hbase), Option.filter_some, if_pos (decide_eq_true hd)]

/-- **The digits of a number are read back.** -/
theorem value_digits_toDigits (hone : 1 < base) (hbase : base ≤ 16) (n : ℕ) :
    (∀ c ∈ bytes (Nat.toDigits base n), (digitIn base c).isSome) ∧
      value base (digits base (bytes (Nat.toDigits base n))) = n := by
  have hdigit : ∀ d < base, digits base (bytes [d.digitChar]) = [d] := by
    intro d hd
    simp only [bytes, List.map_cons, List.map_nil, digits, digitIn_digitChar hbase hd]
  have hsome : ∀ d < base, ∀ c ∈ bytes [d.digitChar], (digitIn base c).isSome := by
    intro d hd c hc
    rw [bytes, List.map_cons, List.map_nil, List.mem_singleton] at hc
    rw [hc, digitIn_digitChar hbase hd]
    rfl
  induction n using Nat.strong_induction_on with
  | _ n ih =>
      rw [Nat.toDigits_eq_if hone]
      split
      · rename_i hlt
        refine ⟨hsome n hlt, ?_⟩
        rw [hdigit n hlt]
        simp [value]
      · rename_i hge
        have hpos : 0 < n := by omega
        obtain ⟨hall, hval⟩ := ih (n / base) (Nat.div_lt_self hpos hone)
        have hmod : n % base < base := Nat.mod_lt _ (by omega)
        rw [bytes, List.map_append, ← bytes, ← bytes]
        constructor
        · intro c hc
          exact (List.mem_append.mp hc).elim (hall c) (hsome _ hmod c)
        · rw [digits_append hall, hdigit _ hmod, value_append_singleton, hval]
          exact Nat.div_add_mod n base

/-- No digit is white space or a sign. -/
lemma numeral_of_digits {str : List UInt8} (hstr : str ≠ [])
    (h : ∀ c ∈ str, (digitIn 16 c).isSome) :
    numeral 16 (48 :: 120 :: str) = some (false, value 16 (digits 16 str)) := by
  obtain ⟨c, rest, rfl⟩ := List.exists_cons_of_ne_nil hstr
  obtain ⟨hc, -⟩ := List.forall_mem_cons.mp h
  have hdrop : dropPrefix 16 (48 :: 120 :: c :: rest) = c :: rest := by
    simp [dropPrefix, hc]
  have hne : digits 16 (c :: rest) ≠ [] := by
    obtain ⟨d, hd⟩ := Option.isSome_iff_exists.mp hc
    simp [digits, hd]
  simp [numeral, isSpace, sign, hdrop, hne]

/-- **A number in base 16, with its prefix, is read back.** -/
theorem stoul_toDigits {n : ℕ} (hn : n < 2 ^ 64) :
    stoul 16 (48 :: 120 :: bytes (Nat.toDigits 16 n)) = some n := by
  obtain ⟨hall, hval⟩ := @value_digits_toDigits 16 (by norm_num) le_rfl n
  have hne : bytes (Nat.toDigits 16 n) ≠ [] := by
    simp [bytes, Nat.toDigits_ne_nil]
  rw [stoul, numeral_of_digits hne hall, hval]
  exact (if_neg (Nat.not_le.mpr hn)).trans rfl

end Numeral

end StreamFs
