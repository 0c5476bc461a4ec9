import System6502.Isa.Subtraction

/-!
# Decimal arithmetic

Addition and subtraction of binary-coded decimal numbers of any length with the staged `ADC` and
`SBC` of the base dialect, two digits at a time.
-/

namespace System6502

open Lib Lib.CarryChain System6502.Frame

/-! ## Binary-coded decimal -/

/-- Both nibbles of a byte are decimal digits. -/
def Byte.IsBCD (byte : Byte) : Prop := byte.toNat / 16 ≤ 9 ∧ byte.toNat % 16 ≤ 9

/-- The number of the two decimal digits of a byte. -/
def Byte.decimal (byte : Byte) : Nat := 10 * (byte.toNat / 16) + byte.toNat % 16

/-- The number that binary-coded decimal bytes denote, the least significant one first. -/
def decimalNumber (bytes : List Byte) : Nat := Nat.ofDigits 100 (bytes.map Byte.decimal)

theorem Byte.IsBCD.decimal_lt {byte : Byte} (isBCD : byte.IsBCD) : byte.decimal < 100 := by
  obtain ⟨high, low⟩ := isBCD
  rw [Byte.decimal]
  omega

theorem Word.toNat_lowNibble (value : Word) : (value &&& 0x000F).toNat = value.toNat % 16 := by
  rw [BitVec.toNat_and]
  exact Nat.and_two_pow_sub_one_eq_mod _ 4

theorem Byte.toNat_lowNibble (byte : Byte) : (byte &&& 0x0F).toNat = byte.toNat % 16 := by
  rw [BitVec.toNat_and]
  exact Nat.and_two_pow_sub_one_eq_mod _ 4

theorem Byte.toNat_highNibble : ∀ byte : Byte,
    (byte &&& 0xF0).toNat = 16 * (byte.toNat / 16) ∧
      (byte.toWord &&& 0x00F0).toNat = 16 * (byte.toNat / 16) ∧
      (~~~byte.toWord &&& 0x00F0).toNat = 240 - 16 * (byte.toNat / 16) := by
  decide +kernel

theorem toNat_not_toWord (byte : Byte) : (~~~byte.toWord).toNat = 65535 - byte.toNat := by
  rw [BitVec.toNat_not, toNat_toWord]

theorem toNat_bitC (registers : Registers) :
    (registers.bitValue Registers.bitC).toNat = registers.carry := by
  rw [Registers.bitValue, Registers.carry]
  cases registers.getBit Registers.bitC with
  | false | true => rfl

/-! ## One byte -/

section Digits

variable {registers : Registers} {summand digit : Word} {high low : Nat}

/-- The sum of the high nibbles, with the carry and the digit that the low nibbles give. -/
theorem toNat_highNibbles (high_eq : (summand &&& 0x00F0).toNat = high) (high_le : high ≤ 240) :
    ((summand &&& 0x00F0) + (registers.A &&& 0xF0).toWord +
        (if digit > 0x000F then 0x0010 else 0x0000) + (digit &&& 0x000F)).toNat =
      high + 16 * (registers.A.toNat / 16) + (if 15 < digit.toNat then 16 else 0) +
        digit.toNat % 16 := by
  have A_lt := registers.A.isLt
  obtain ⟨A_high, -, -⟩ := Byte.toNat_highNibble registers.A
  have carried : (if digit > 0x000F then (0x0010 : Word) else 0x0000).toNat =
      if 15 < digit.toNat then 16 else 0 := by
    rw [apply_ite BitVec.toNat]
    rfl
  have carried_le : (if 15 < digit.toNat then 16 else 0) ≤ 16 := by
    split_ifs
    · exact Nat.le_refl _
    · exact Nat.zero_le _
  rw [BitVec.toNat_add, BitVec.toNat_add, BitVec.toNat_add, carried, Word.toNat_lowNibble,
    toNat_toWord, A_high, high_eq]
  omega

variable (registers) in
/-- The sum of the low nibbles and the carry. -/
theorem toNat_lowNibbles (low_eq : summand.toNat % 16 = low) :
    ((summand &&& 0x000F) + (registers.A &&& 0x0F).toWord +
        registers.bitValue Registers.bitC).toNat =
      low + registers.A.toNat % 16 + registers.carry := by
  have carry_le := registers.carry_le
  rw [BitVec.toNat_add, BitVec.toNat_add, Word.toNat_lowNibble, toNat_toWord,
    Byte.toNat_lowNibble, toNat_bitC, low_eq]
  omega

end Digits

section Byte

variable (registers : Registers) (operand : Byte)

/-- A decimal adjustment of `ADC`. -/
theorem toNat_addAbove {sum limit extra : Word} (no_overflow : sum.toNat + extra.toNat < 65536) :
    (if sum > limit then sum + extra else sum).toNat =
      if limit.toNat < sum.toNat then sum.toNat + extra.toNat else sum.toNat := by
  rw [apply_ite BitVec.toNat, BitVec.toNat_add_of_lt no_overflow]
  rfl

/-- A decimal adjustment of `SBC`. -/
theorem toNat_subUpTo {sum limit extra : Word} (no_borrow : extra.toNat ≤ sum.toNat) :
    (if sum ≤ limit then sum - extra else sum).toNat =
      if sum.toNat ≤ limit.toNat then sum.toNat - extra.toNat else sum.toNat := by
  rw [apply_ite BitVec.toNat, BitVec.toNat_sub_of_le no_borrow]
  rfl

/-- The sum of `ADC` before its final adjustment. -/
theorem toNat_adcALU_decimal :
    (adcALU registers operand.toWord true).toNat =
      let digit := operand.toNat % 16 + registers.A.toNat % 16 + registers.carry
      let digit := if 9 < digit then digit + 6 else digit
      16 * (operand.toNat / 16) + 16 * (registers.A.toNat / 16) +
        (if 15 < digit then 16 else 0) + digit % 16 := by
  have operand_lt := operand.isLt
  have carry_le := registers.carry_le
  obtain ⟨-, high_eq, -⟩ := Byte.toNat_highNibble operand
  have low_eq : operand.toWord.toNat % 16 = operand.toNat % 16 := by rw [toNat_toWord]
  have digit_eq := toNat_lowNibbles registers low_eq
  have digit_le : operand.toNat % 16 + registers.A.toNat % 16 + registers.carry ≤ 31 := by omega
  rw [adcALU, if_pos rfl, toNat_highNibbles high_eq (by omega), toNat_addAbove, digit_eq]
  · rfl
  · rw [digit_eq]
    exact Nat.lt_of_le_of_lt (Nat.add_le_add_right digit_le _) (by decide)

/-- The sum of `SBC` before its final adjustment, for a decimal operand. -/
theorem toNat_sbcALU_decimal (isBCD : operand.IsBCD) :
    (sbcALU registers (~~~operand.toWord) true).toNat =
      let digit := 15 - operand.toNat % 16 + registers.A.toNat % 16 + registers.carry
      let digit := if digit ≤ 15 then digit - 6 else digit
      240 - 16 * (operand.toNat / 16) + 16 * (registers.A.toNat / 16) +
        (if 15 < digit then 16 else 0) + digit % 16 := by
  obtain ⟨-, low_le⟩ := isBCD
  have operand_lt := operand.isLt
  obtain ⟨-, -, high_eq⟩ := Byte.toNat_highNibble operand
  have low_eq : (~~~operand.toWord).toNat % 16 = 15 - operand.toNat % 16 := by
    rw [toNat_not_toWord]
    omega
  have digit_eq := toNat_lowNibbles registers low_eq
  have six_le : 6 ≤ 15 - operand.toNat % 16 + registers.A.toNat % 16 + registers.carry := by
    omega
  rw [sbcALU, if_pos rfl, toNat_highNibbles high_eq (by omega), toNat_subUpTo, digit_eq]
  · rfl
  · rw [digit_eq]
    exact six_le

/-- The digits and the carry of a decimal instruction, from its adjusted sum. -/
structure DecimalTotal (first second carry total : Nat) : Prop where
  /-- The high digit. -/
  high_le : total % 256 / 16 ≤ 9
  /-- The low digit. -/
  low_le : total % 16 ≤ 9
  /-- The sum. -/
  sum_eq : first + second + carry =
    10 * (total % 256 / 16) + total % 16 + 100 * (total / 256 ⊓ 1)

/-- Two digits of which the high one is adjusted when it is no decimal digit. -/
theorem decimalTotal_adjusted {first second carry high low total : Nat} (high_le : high ≤ 19)
    (low_le : low ≤ 9) (sum_eq : first + second + carry = 10 * high + low)
    (total_eq : total = if 9 < high then 16 * (high + 6) + low else 16 * high + low) :
    DecimalTotal first second carry total := by
  rcases Nat.lt_or_ge 9 high with above | within
  · rw [if_pos above] at total_eq
    have low_eq : total % 16 = low := by omega
    have high_eq : total % 256 / 16 = high - 10 := by omega
    have carries : total / 256 ⊓ 1 = 1 := Nat.min_eq_right (by omega)
    constructor
    · rw [high_eq]
      omega
    · rwa [low_eq]
    · rw [sum_eq, low_eq, high_eq, carries]
      omega
  · rw [if_neg (Nat.not_lt_of_le within)] at total_eq
    have low_eq : total % 16 = low := by omega
    have high_eq : total % 256 / 16 = high := by omega
    have carries : total / 256 ⊓ 1 = 0 := by
      rw [Nat.div_eq_of_lt (by omega), Nat.zero_min]
    constructor
    · rwa [high_eq]
    · rwa [low_eq]
    · rw [sum_eq, low_eq, high_eq, carries, Nat.mul_zero, Nat.add_zero]

variable {registers operand}

theorem addition_decimalTotal (first_isBCD : registers.A.IsBCD) (second_isBCD : operand.IsBCD) :
    DecimalTotal registers.A.decimal operand.decimal registers.carry
      (Arithmetic.addition.adjusted registers operand true).toNat := by
  have carry_le := registers.carry_le
  obtain ⟨first_high, first_low⟩ := first_isBCD
  obtain ⟨second_high, second_low⟩ := second_isBCD
  obtain ⟨digit, digit_eq⟩ : ∃ digit, digit =
      operand.toNat % 16 + registers.A.toNat % 16 + registers.carry := ⟨_, rfl⟩
  obtain ⟨high, high_eq⟩ : ∃ high, high =
      operand.toNat / 16 + registers.A.toNat / 16 + digit / 10 := ⟨_, rfl⟩
  have digit_le : digit ≤ 19 := by omega
  have digits_eq : (adcALU registers operand.toWord true).toNat = 16 * high + digit % 10 := by
    rw [toNat_adcALU_decimal]
    dsimp only
    split_ifs <;> omega
  have adjusted_eq : Arithmetic.addition.adjusted registers operand true =
      if adcALU registers operand.toWord true > 0x009F then
        adcALU registers operand.toWord true + 0x0060
      else adcALU registers operand.toWord true := by
    simp only [Arithmetic.adjusted, Arithmetic.sum, Bool.true_and]
    exact if_congr decide_eq_true_iff rfl rfl
  have total_eq : (Arithmetic.addition.adjusted registers operand true).toNat =
      if 159 < 16 * high + digit % 10 then 16 * high + digit % 10 + 96
      else 16 * high + digit % 10 := by
    rw [adjusted_eq, ← digits_eq]
    refine toNat_addAbove (Nat.lt_of_le_of_lt (Nat.add_le_add_right digits_eq.le 96) ?_)
    omega
  refine decimalTotal_adjusted (by omega : high ≤ 19) (by omega : digit % 10 ≤ 9) ?_
    (total_eq.trans ?_)
  · rw [Byte.decimal, Byte.decimal]
    omega
  · split_ifs <;> omega

theorem subtraction_decimalTotal (first_isBCD : registers.A.IsBCD)
    (second_isBCD : operand.IsBCD) :
    DecimalTotal registers.A.decimal (99 - operand.decimal) registers.carry
      (Arithmetic.subtraction.adjusted registers operand true).toNat := by
  have carry_le := registers.carry_le
  have sum_eq := toNat_sbcALU_decimal registers operand second_isBCD
  obtain ⟨first_high, first_low⟩ := first_isBCD
  obtain ⟨second_high, second_low⟩ := second_isBCD
  obtain ⟨digit, digit_eq⟩ : ∃ digit, digit =
      9 - operand.toNat % 16 + registers.A.toNat % 16 + registers.carry := ⟨_, rfl⟩
  obtain ⟨high, high_eq⟩ : ∃ high, high =
      9 - operand.toNat / 16 + registers.A.toNat / 16 + digit / 10 := ⟨_, rfl⟩
  have digit_le : digit ≤ 19 := by omega
  have digits_eq : (sbcALU registers (~~~operand.toWord) true).toNat =
      16 * (high + 6) + digit % 10 := by
    rw [sum_eq]
    dsimp only
    split_ifs <;> omega
  have adjusted_eq : Arithmetic.subtraction.adjusted registers operand true =
      if sbcALU registers (~~~operand.toWord) true ≤ 0x00FF then
        sbcALU registers (~~~operand.toWord) true - 0x0060
      else sbcALU registers (~~~operand.toWord) true := by
    simp only [Arithmetic.adjusted, Arithmetic.sum, Bool.true_and]
    exact if_congr decide_eq_true_iff rfl rfl
  have total_eq : (Arithmetic.subtraction.adjusted registers operand true).toNat =
      if 16 * (high + 6) + digit % 10 ≤ 255 then 16 * (high + 6) + digit % 10 - 96
      else 16 * (high + 6) + digit % 10 := by
    rw [adjusted_eq, ← digits_eq]
    refine toNat_subUpTo (Nat.le_trans ?_ digits_eq.ge)
    change 96 ≤ 16 * (high + 6) + digit % 10
    omega
  refine decimalTotal_adjusted (by omega : high ≤ 19) (by omega : digit % 10 ≤ 9) ?_
    (total_eq.trans ?_)
  · rw [Byte.decimal, Byte.decimal]
    omega
  · split_ifs <;> omega

end Byte

namespace ArithmeticStep

variable {operation : Arithmetic} {calls : Nat} {after : Frame (Traced Ram)}

theorem outcome_decimalTotal (step : ArithmeticStep operation true)
    (executes : step.outcome = some (calls, after)) {first second : Nat} (first_lt : first < 100)
    (second_lt : second < 100)
    (total : DecimalTotal first second step.core.registers.carry step.total) :
    after.registers.A.IsBCD ∧
      Adds 100 first second step.core.registers.carry after.registers.A.decimal
        after.registers.carry := by
  obtain ⟨A_eq, carry_eq⟩ := step.outcome_total executes
  obtain ⟨high_le, low_le, sum_eq⟩ := total
  have isBCD : after.registers.A.IsBCD := by
    rw [Byte.IsBCD, A_eq]
    omega
  refine ⟨isBCD, first_lt, second_lt, isBCD.decimal_lt, ?_⟩
  rw [Byte.decimal, A_eq, carry_eq, sum_eq]
  omega

/-- A decimal `ADC` adds the operand and the carry. -/
theorem outcome_decimalSum (step : ArithmeticStep .addition true)
    (executes : step.outcome = some (calls, after)) (first_isBCD : step.first.IsBCD)
    (second_isBCD : step.second.IsBCD) :
    after.registers.A.IsBCD ∧
      Adds 100 step.first.decimal step.second.decimal step.core.registers.carry
        after.registers.A.decimal after.registers.carry :=
  step.outcome_decimalTotal executes first_isBCD.decimal_lt second_isBCD.decimal_lt
    (addition_decimalTotal first_isBCD second_isBCD)

/-- A decimal `SBC` adds the complement of the operand and the carry. -/
theorem outcome_decimalDifference (step : ArithmeticStep .subtraction true)
    (executes : step.outcome = some (calls, after)) (first_isBCD : step.first.IsBCD)
    (second_isBCD : step.second.IsBCD) :
    after.registers.A.IsBCD ∧
      Adds 100 step.first.decimal (100 - 1 - step.second.decimal) step.core.registers.carry
        after.registers.A.decimal after.registers.carry :=
  step.outcome_decimalTotal executes first_isBCD.decimal_lt
    (Nat.lt_of_le_of_lt (Nat.sub_le _ _) (by decide))
    (subtraction_decimalTotal first_isBCD second_isBCD)

end ArithmeticStep

/-! ## Any number of digits -/

namespace Calculation

variable {operation : Arithmetic} {carry : Nat} {steps : List (ArithmeticStep operation true)}
  {results : List Byte} {final : Registers}

/-- The decimal operands of the steps. -/
def decimals (steps : List (ArithmeticStep operation true)) : List (Nat × Nat) :=
  steps.map fun step => (step.first.decimal, step.second.decimal)

theorem firsts_decimals (steps : List (ArithmeticStep operation true)) :
    firsts 100 (decimals steps) = decimalNumber (steps.map ArithmeticStep.first) := by
  rw [firsts, decimals, decimalNumber, List.map_map, List.map_map]
  rfl

theorem seconds_decimals (steps : List (ArithmeticStep operation true)) :
    seconds 100 (decimals steps) = decimalNumber (steps.map ArithmeticStep.second) := by
  rw [seconds, decimals, decimalNumber, List.map_map, List.map_map]
  rfl

/-- A run of instructions each of which adds its operands, or what `second` makes of the second,
is a chain. -/
theorem decimalChain (second : Nat → Nat)
    (adds : ∀ (step : ArithmeticStep operation true) {calls : Nat} {after : Frame (Traced Ram)},
      step.outcome = some (calls, after) → step.first.IsBCD → step.second.IsBCD →
      after.registers.A.IsBCD ∧
        Adds 100 step.first.decimal (second step.second.decimal) step.core.registers.carry
          after.registers.A.decimal after.registers.carry)
    (calculation : Calculation operation true carry steps results final)
    (areBCD : ∀ step ∈ steps, step.first.IsBCD ∧ step.second.IsBCD) :
    (∀ byte ∈ results, byte.IsBCD) ∧
      ∃ last, Chain 100 carry ((decimals steps).map fun pair => (pair.1, second pair.2))
        (results.map Byte.decimal) final.carry last := by
  induction calculation with
  | @single step calls after executes =>
      obtain ⟨first_isBCD, second_isBCD⟩ := areBCD step List.mem_cons_self
      obtain ⟨isBCD, added⟩ := adds step executes first_isBCD second_isBCD
      exact ⟨by simpa using isBCD, _, .single added⟩
  | @cons step calls after steps results final executes rest ih =>
      obtain ⟨first_isBCD, second_isBCD⟩ := areBCD step List.mem_cons_self
      obtain ⟨isBCD, added⟩ := adds step executes first_isBCD second_isBCD
      obtain ⟨laterBCD, last, chain⟩ :=
        ih fun later later_mem => areBCD later (List.mem_cons_of_mem step later_mem)
      refine ⟨?_, last, .cons added chain⟩
      intro byte byte_mem
      rcases List.mem_cons.mp byte_mem with rfl | later
      · exact isBCD
      · exact laterBCD byte later

end Calculation

open Calculation in
/-- Decimal addition and subtraction of any number of digits with `ADC` and `SBC` are exact: every
step completes, and on decimal operands the bytes of the result are decimal, and they and the final
carry are those of the sum or the difference. -/
theorem decimal_exact :
    (∀ operation, ∀ step : ArithmeticStep operation true, step.outcome.isSome) ∧
    (∀ {carry : Nat} {steps : List (ArithmeticStep .addition true)} {results : List Byte}
      {final : Registers}, Calculation .addition true carry steps results final →
      (∀ step ∈ steps, step.first.IsBCD ∧ step.second.IsBCD) →
      let a := decimalNumber (steps.map ArithmeticStep.first)
      let b := decimalNumber (steps.map ArithmeticStep.second)
      let n := steps.length
      (∀ byte ∈ results, byte.IsBCD) ∧
        decimalNumber results = (a + b + carry) % 100 ^ n ∧
        final.carry = (a + b + carry) / 100 ^ n) ∧
    ∀ {carry : Nat} {steps : List (ArithmeticStep .subtraction true)} {results : List Byte}
      {final : Registers}, Calculation .subtraction true carry steps results final →
      (∀ step ∈ steps, step.first.IsBCD ∧ step.second.IsBCD) →
      let a := decimalNumber (steps.map ArithmeticStep.first)
      let b := decimalNumber (steps.map ArithmeticStep.second)
      let n := steps.length
      (∀ byte ∈ results, byte.IsBCD) ∧
        (decimalNumber results : Int) = ((a : Int) - b - (1 - carry)) % 100 ^ n ∧
        (final.carry = 1 ↔ b + 1 ≤ a + carry) := by
  refine ⟨?_, ?_, ?_⟩
  · intro operation step
    obtain ⟨_, completes⟩ := step.completes
    rw [completes]
    rfl
  · intro carry steps results final calculation areBCD
    obtain ⟨resultsBCD, last, chain⟩ :=
      decimalChain id (fun step _ _ => step.outcome_decimalSum) calculation areBCD
    have pairs_eq : ((decimals steps).map fun pair => (pair.1, id pair.2)) = decimals steps :=
      List.map_id _
    have length_eq : (decimals steps).length = steps.length := List.length_map _
    rw [pairs_eq] at chain
    have value_eq := chain.value_eq (by decide)
    rw [length_eq, firsts_decimals, seconds_decimals] at value_eq
    exact ⟨resultsBCD, value_eq⟩
  · intro carry steps results final calculation areBCD
    obtain ⟨resultsBCD, last, chain⟩ :=
      decimalChain (100 - 1 - ·) (fun step _ _ => step.outcome_decimalDifference) calculation
        areBCD
    have length_eq : (decimals steps).length = steps.length := List.length_map _
    have seconds_lt : ∀ pair ∈ decimals steps, pair.2 < 100 := by
      intro pair pair_mem
      obtain ⟨step, step_mem, rfl⟩ := List.mem_map.mp pair_mem
      exact (areBCD step step_mem).2.decimal_lt
    obtain ⟨_, _, _, _, _, _, rfl, _⟩ := calculation.head
    have difference_eq := Chain.difference_eq chain (by decide) seconds_lt (Registers.carry_le _)
    rw [length_eq, firsts_decimals, seconds_decimals] at difference_eq
    exact ⟨resultsBCD, difference_eq⟩

/-- An immediate instruction in decimal mode. -/
def ArithmeticStep.immediate (operation : Arithmetic) (A operand : Byte) (carry : Bool) :
    ArithmeticStep operation true where
  core :=
    { memory :=
        { bus := fun address =>
            if address = 0x0200 then
              match operation with
              | .addition => 0x69
              | .subtraction => 0xE9
            else operand
          log := [] }
      registers :=
        { Registers.reset with PC := 0x0200, A, SR := if carry then 0x09 else 0x08 } }
  retained := Locals.zero
  mode := .immediate
  decoded := by
    cases operation with
    | addition => exact (rfl : Dialect.base.lookup 0x69 = _)
    | subtraction => exact (rfl : Dialect.base.lookup 0xE9 = _)
  bitD_eq := by
    cases carry with
    | false => exact (by decide : ((0x08 : Byte) &&& 0x08 != 0) = true)
    | true => exact (by decide : ((0x09 : Byte) &&& 0x08 != 0) = true)

/-- `5612 - 2834` borrows into its high digits. -/
theorem decimal_5612 :
    ∃ final, Calculation .subtraction true 1
        [.immediate _ 0x12 0x34 true, .immediate _ 0x56 0x28 false] [0x78, 0x27] final ∧
      (decimalNumber [0x78, 0x27] : Int) = 5612 - 2834 ∧ final.carry = 1 := by
  obtain ⟨_, low⟩ := (ArithmeticStep.immediate .subtraction 0x12 0x34 true).completes
  obtain ⟨_, high⟩ := (ArithmeticStep.immediate .subtraction 0x56 0x28 false).completes
  have calculation : Calculation .subtraction true 1
      [.immediate _ 0x12 0x34 true, .immediate _ 0x56 0x28 false] [0x78, 0x27] _ :=
    Calculation.cons low (Calculation.single high)
  obtain ⟨-, value_eq, carry_iff⟩ := decimal_exact.2.2 calculation (by
    intro step step_mem
    simp only [List.mem_cons, List.not_mem_nil, or_false] at step_mem
    rcases step_mem with rfl | rfl
    · exact ⟨⟨by decide, by decide⟩, by decide, by decide⟩
    · exact ⟨⟨by decide, by decide⟩, by decide, by decide⟩)
  exact ⟨_, calculation, value_eq.trans (by decide), carry_iff.mpr (by decide)⟩

end System6502
