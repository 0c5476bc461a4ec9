import Mathlib.Data.Nat.Digits.Defs
import Mathlib.Tactic.LinearCombination
import Mathlib.Tactic.Linarith
import Mathlib.Tactic.Ring

/-!
# Carry chains

Numerals added digit by digit from the least significant one, each step passing its carry to the
next.  The digits, the last carry and the last step determine the sum of the numbers, read without
a sign or in complement form.
-/

namespace System6502
namespace Lib
namespace CarryChain

/-- One step: two digits and a carry give a digit and the next carry. -/
structure Adds (base first second carry digit next : Nat) : Prop where
  /-- The first digit. -/
  first_lt : first < base
  /-- The second digit. -/
  second_lt : second < base
  /-- The digit of the sum. -/
  digit_lt : digit < base
  /-- The sum. -/
  sum_eq : first + second + carry = digit + base * next

/-- The last step of a chain. -/
structure Last where
  /-- The most significant digit of the first number. -/
  first : Nat
  /-- The most significant digit of the second number. -/
  second : Nat
  /-- The carry into the last step. -/
  carry : Nat

/-- A chain of one or more steps, from the first carry to the last. -/
inductive Chain (base : Nat) : Nat → List (Nat × Nat) → List Nat → Nat → Last → Prop
  | single {first second carry digit next : Nat} (adds : Adds base first second carry digit next) :
      Chain base carry [(first, second)] [digit] next { first, second, carry }
  | cons {first second carry digit next final : Nat} {rest : List (Nat × Nat)} {digits : List Nat}
      {last : Last} (adds : Adds base first second carry digit next)
      (chain : Chain base next rest digits final last) :
      Chain base carry ((first, second) :: rest) (digit :: digits) final last

variable {base carry final : Nat} {pairs : List (Nat × Nat)} {digits : List Nat} {last : Last}

/-- The number of the first digits of the pairs. -/
def firsts (base : Nat) (pairs : List (Nat × Nat)) : Nat := Nat.ofDigits base (pairs.map Prod.fst)

/-- The number of the second digits of the pairs. -/
def seconds (base : Nat) (pairs : List (Nat × Nat)) : Nat := Nat.ofDigits base (pairs.map Prod.snd)

theorem Chain.length_eq (chain : Chain base carry pairs digits final last) :
    digits.length = pairs.length := by
  induction chain with
  | single => rfl
  | cons adds chain ih => rw [List.length_cons, List.length_cons, ih]

/-- The sum of the numbers. -/
theorem Chain.sum_eq (chain : Chain base carry pairs digits final last) :
    firsts base pairs + seconds base pairs + carry =
      Nat.ofDigits base digits + base ^ pairs.length * final := by
  induction chain with
  | single adds =>
      have := adds.sum_eq
      simp only [firsts, seconds, List.map_cons, List.map_nil, Nat.ofDigits_singleton,
        List.length_cons, List.length_nil, Nat.zero_add, pow_one]
      linarith
  | @cons first second carry digit next final rest digits last adds chain ih =>
      have step := adds.sum_eq
      simp only [firsts, seconds, List.map_cons, Nat.ofDigits_cons, List.length_cons] at ih ⊢
      rw [pow_succ]
      linear_combination base * ih + step

theorem Chain.digits_lt (chain : Chain base carry pairs digits final last) :
    ∀ digit ∈ digits, digit < base := by
  induction chain with
  | single adds => simpa using adds.digit_lt
  | cons adds chain ih =>
      intro digit digit_mem
      rcases List.mem_cons.mp digit_mem with rfl | later
      · exact adds.digit_lt
      · exact ih digit later

/-- The digits and the last carry of a chain. -/
theorem Chain.value_eq (chain : Chain base carry pairs digits final last) (proper : 1 < base) :
    Nat.ofDigits base digits =
        (firsts base pairs + seconds base pairs + carry) % base ^ pairs.length ∧
      final = (firsts base pairs + seconds base pairs + carry) / base ^ pairs.length := by
  have below : Nat.ofDigits base digits < base ^ pairs.length :=
    chain.length_eq ▸ Nat.ofDigits_lt_base_pow_length proper chain.digits_lt
  have powers : 0 < base ^ pairs.length := Nat.pow_pos (Nat.zero_lt_of_lt proper)
  rw [chain.sum_eq, Nat.add_mul_mod_self_left, Nat.mod_eq_of_lt below,
    Nat.add_mul_div_left _ _ powers, Nat.div_eq_of_lt below, Nat.zero_add]
  exact ⟨rfl, rfl⟩

/-! ## Differences -/

/-- Pairs with their second digits complemented. -/
def complemented (base : Nat) (pairs : List (Nat × Nat)) : List (Nat × Nat) :=
  pairs.map fun pair => (pair.1, base - 1 - pair.2)

theorem firsts_complemented (pairs : List (Nat × Nat)) :
    firsts base (complemented base pairs) = firsts base pairs := by
  rw [firsts, firsts, complemented, List.map_map]
  rfl

/-- A number and its digit-wise complement add up to the largest number of as many digits. -/
theorem seconds_complemented (proper : ∀ pair ∈ pairs, pair.2 < base) :
    seconds base (complemented base pairs) + seconds base pairs + 1 = base ^ pairs.length := by
  induction pairs with
  | nil => rfl
  | cons pair pairs ih =>
      have digit_lt := proper pair List.mem_cons_self
      have rest := ih fun later later_mem => proper later (List.mem_cons_of_mem pair later_mem)
      have digit_eq : base - 1 - pair.2 + pair.2 + 1 = base := by omega
      simp only [seconds, complemented, List.map_cons, Nat.ofDigits_cons, List.length_cons]
        at rest ⊢
      rw [pow_succ]
      linear_combination base * rest + digit_eq

theorem Chain.firsts_lt (chain : Chain base carry pairs digits final last) (proper : 1 < base) :
    firsts base pairs < base ^ pairs.length := by
  have digit_lt : ∀ digit ∈ pairs.map Prod.fst, digit < base := by
    induction chain with
    | single adds => simpa using adds.first_lt
    | cons adds chain ih =>
        intro digit digit_mem
        rcases List.mem_cons.mp digit_mem with rfl | later
        · exact adds.first_lt
        · exact ih digit later
  have below := Nat.ofDigits_lt_base_pow_length proper digit_lt
  rwa [List.length_map] at below

/-- A chain that adds complemented digits and ends with a carry unless the first number and the
first carry are too small gives the difference. -/
theorem Chain.difference_eq (chain : Chain base carry (complemented base pairs) digits final last)
    (proper : 1 < base) (seconds_lt : ∀ pair ∈ pairs, pair.2 < base) (carry_le : carry ≤ 1) :
    ((Nat.ofDigits base digits : Nat) : Int) =
        ((firsts base pairs : Int) - seconds base pairs - (1 - carry)) % base ^ pairs.length ∧
      (final = 1 ↔ seconds base pairs + 1 ≤ firsts base pairs + carry) := by
  have length_eq : (complemented base pairs).length = pairs.length := List.length_map _
  have first_lt := chain.firsts_lt proper
  have below : Nat.ofDigits base digits < base ^ pairs.length :=
    length_eq ▸ chain.length_eq ▸ Nat.ofDigits_lt_base_pow_length proper chain.digits_lt
  have powers : 0 < base ^ pairs.length := Nat.pow_pos (Nat.zero_lt_of_lt proper)
  have complement_eq := seconds_complemented seconds_lt
  have sum_eq := chain.sum_eq
  obtain ⟨-, final_eq⟩ := chain.value_eq proper
  rw [length_eq, firsts_complemented] at sum_eq final_eq first_lt
  constructor
  · have difference :
        (firsts base pairs : Int) - seconds base pairs - (1 - carry) =
          (Nat.ofDigits base digits : Nat) + base ^ pairs.length * ((final : Int) - 1) := by
      have complement_eq : (seconds base (complemented base pairs) : Int) + seconds base pairs + 1 =
          base ^ pairs.length := by exact_mod_cast complement_eq
      have sum_eq : (firsts base pairs : Int) + seconds base (complemented base pairs) + carry =
          (Nat.ofDigits base digits : Nat) + base ^ pairs.length * final := by exact_mod_cast sum_eq
      linear_combination sum_eq - complement_eq
    rw [difference, Int.add_mul_emod_self_left, Int.emod_eq_of_lt]
    · exact Int.natCast_nonneg _
    · exact_mod_cast below
  · rw [final_eq, Nat.div_eq_iff powers]
    omega

/-! ## Complement form -/

/-- A number of some digits read in complement form. -/
def signed (base length value : Nat) : Int :=
  if 2 * value < base ^ length then value else value - base ^ length

/-- A number has a complement form of some digits. -/
def Fits (base length : Nat) (value : Int) : Prop :=
  -(base ^ length : Int) ≤ 2 * value ∧ 2 * value < base ^ length

section Even

variable {half : Nat}

variable (half) in
/-- Half of a power of an even base. -/
theorem pow_eq_two_mul {length : Nat} (positive : 0 < length) :
    ∃ middle, (2 * half) ^ length = 2 * middle := by
  obtain ⟨before, rfl⟩ := Nat.exists_eq_succ_of_ne_zero (Nat.pos_iff_ne_zero.mp positive)
  exact ⟨(2 * half) ^ before * half, by rw [pow_succ]; ring⟩

theorem signed_cons {digit length value : Nat} (digit_lt : digit < 2 * half)
    (positive : 0 < length) :
    signed (2 * half) (length + 1) (digit + 2 * half * value) =
      digit + 2 * half * signed (2 * half) length value := by
  obtain ⟨middle, middle_eq⟩ := pow_eq_two_mul half positive
  have below_iff : 2 * (digit + 2 * half * value) < (2 * half) ^ (length + 1) ↔
      2 * value < (2 * half) ^ length := by
    rw [pow_succ, middle_eq]
    constructor
    · intro below
      by_contra above
      have : middle ≤ value := by omega
      nlinarith
    · intro below
      have : value + 1 ≤ middle := by omega
      nlinarith
  unfold signed
  rw [if_congr below_iff rfl rfl]
  split_ifs
  · push_cast
    ring
  · push_cast
    ring

theorem fits_cons {digit length : Nat} {value : Int} (digit_lt : digit < 2 * half)
    (positive : 0 < length) :
    Fits (2 * half) (length + 1) (digit + 2 * half * value) ↔ Fits (2 * half) length value := by
  obtain ⟨middle, middle_eq⟩ := pow_eq_two_mul half positive
  have power_eq : ((2 * half : Nat) : Int) ^ length = 2 * middle := by exact_mod_cast middle_eq
  have digit_lt : (digit : Int) < 2 * half := by exact_mod_cast digit_lt
  unfold Fits
  rw [pow_succ, power_eq]
  push_cast
  constructor
  · rintro ⟨above, below⟩
    constructor
    · by_contra far
      have : value + 1 ≤ -middle := by omega
      nlinarith
    · by_contra far
      have : (middle : Int) ≤ value := by omega
      nlinarith
  · rintro ⟨above, below⟩
    have : -(middle : Int) ≤ value := by omega
    have : value + 1 ≤ (middle : Int) := by omega
    constructor
    · nlinarith
    · nlinarith

theorem Chain.positive (chain : Chain base carry pairs digits final last) : 0 < pairs.length := by
  cases chain with
  | single => exact Nat.one_pos
  | cons => exact Nat.succ_pos _

variable (half) in
/-- The sum of the numbers in complement form fits exactly when that of their most significant
digits and the carry into the last step does. -/
theorem Chain.fits_iff (chain : Chain (2 * half) carry pairs digits final last) :
    Fits (2 * half) pairs.length
        (signed (2 * half) pairs.length (firsts (2 * half) pairs) +
          signed (2 * half) pairs.length (seconds (2 * half) pairs) + carry) ↔
      Fits (2 * half) 1
        (signed (2 * half) 1 last.first + signed (2 * half) 1 last.second + last.carry) := by
  induction chain with
  | single => simp [firsts, seconds]
  | @cons first second carry digit next final rest digits last adds chain ih =>
      rw [← ih]
      have step : (first + second + carry : Int) = digit + 2 * half * next := by
        exact_mod_cast adds.sum_eq
      simp only [firsts, seconds, List.map_cons, Nat.ofDigits_cons, List.length_cons]
      rw [signed_cons adds.first_lt chain.positive, signed_cons adds.second_lt chain.positive,
        ← fits_cons adds.digit_lt chain.positive]
      refine iff_of_eq (congrArg (Fits (2 * half) (rest.length + 1)) ?_)
      linear_combination step

end Even

end CarryChain
end Lib
end System6502
