import System6502.Isa.Addressing
import System6502.Lib.CarryChain

/-!
# Multi-byte addition

Binary addition of numbers of any length with the staged `ADC` of the base dialect, a byte at a
time.
-/

namespace System6502

open Lib Lib.CarryChain System6502.Frame

/-! ## One byte -/

/-- The carry bit as a number. -/
def Registers.carry (registers : Registers) : Nat := (registers.getBit Registers.bitC).toNat

section Byte

variable (registers : Registers) (operand : Byte)

theorem toNat_adcALU :
    (adcALU registers operand.toWord false).toNat =
      registers.A.toNat + operand.toNat + registers.carry := by
  have := registers.A.isLt
  have := operand.isLt
  unfold adcALU Registers.bitValue Registers.carry
  cases registers.getBit Registers.bitC <;>
    simp [Byte.toWord] <;> omega

/-- The flag accumulator of `ADC` and `SBC` from four conditions. -/
theorem flagBits_bits : ∀ overflow zero negative carry : Bool,
    let flagBits := if overflow then 0 ||| Registers.bitV else 0
    let flagBits := if zero then flagBits ||| Registers.bitZ else flagBits
    let flagBits := if negative then flagBits ||| Registers.bitN else flagBits
    let flagBits := if carry then flagBits ||| Registers.bitC else flagBits
    (flagBits &&& Registers.bitC != 0) = carry ∧ (flagBits &&& Registers.bitV != 0) = overflow := by
  decide +kernel

theorem setArithmetic_bits (OPERAND sum adjusted : Word) :
    (setArithmetic 0 OPERAND sum adjusted registers).getBit Registers.bitC =
        (adjusted &&& 0xFF00 != 0) ∧
      (setArithmetic 0 OPERAND sum adjusted registers).getBit Registers.bitV =
        (~~~(registers.A.toWord ^^^ OPERAND) &&& (registers.A.toWord ^^^ sum) &&& 0x0080 != 0) := by
  obtain ⟨carry_eq, overflow_eq⟩ := flagBits_bits
    (~~~(registers.A.toWord ^^^ OPERAND) &&& (registers.A.toWord ^^^ sum) &&& 0x0080 != 0)
    (adjusted &&& 0x00FF == 0) (adjusted &&& 0x0080 != 0) (adjusted &&& 0xFF00 != 0)
  constructor
  · exact (congrArg (· != 0) (replaced_and (by decide) registers.SR _)).trans carry_eq
  · exact (congrArg (· != 0) (replaced_and (by decide) registers.SR _)).trans overflow_eq

theorem carryOut_iff (sum : Word) : (sum &&& 0xFF00 != 0) = decide (256 ≤ sum.toNat) := by
  have page_eq := Word.toNat_page sum
  have zero_iff : sum &&& 0xFF00 = 0 ↔ sum.toNat < 256 := by
    rw [← BitVec.toNat_inj, page_eq]
    simp
  rw [Bool.eq_iff_iff]
  simp only [bne_iff_ne, ne_eq, zero_iff, decide_eq_true_eq]
  omega

theorem setArithmetic_carry (OPERAND sum adjusted : Word) :
    (setArithmetic 0 OPERAND sum adjusted registers).carry = adjusted.toNat / 256 ⊓ 1 := by
  obtain ⟨bitC_eq, -⟩ := setArithmetic_bits registers OPERAND sum adjusted
  rw [Registers.carry, bitC_eq, carryOut_iff]
  rcases Nat.lt_or_ge adjusted.toNat 256 with below | above
  · rw [decide_eq_false (Nat.not_le_of_lt below)]
    exact (Nat.div_eq_of_lt below).symm ▸ rfl
  · rw [decide_eq_true above]
    have : 1 ≤ adjusted.toNat / 256 := Nat.div_pos above (by decide)
    exact (Nat.min_eq_right this).symm

theorem setArithmetic_A (OPERAND sum adjusted : Word) :
    (setArithmetic 0 OPERAND sum adjusted registers).A.toNat = adjusted.toNat % 256 := by
  have masked : adjusted.toNat &&& 255 = adjusted.toNat % 256 :=
    Nat.and_two_pow_sub_one_eq_mod _ 8
  change ((adjusted &&& 0x00FF).toByte).toNat = _
  rw [Word.toByte, BitVec.toNat_setWidth, BitVec.toNat_and]
  exact (congrArg (· % 256) masked).trans (Nat.mod_mod _ _)

/-- The sign bit of a sum that fits in nine bits. -/
theorem sign_eq (value : Word) : value.getLsbD 7 = decide (128 ≤ value.toNat % 256) := by
  rw [BitVec.getLsbD, Nat.testBit_eq_decide_div_mod_eq, Bool.eq_iff_iff]
  simp only [decide_eq_true_eq]
  omega

theorem bit7_eq (value : Word) : (value &&& 0x0080 != 0) = value.getLsbD 7 := by
  rw [show (0x0080 : Word) = BitVec.twoPow 16 7 from rfl, BitVec.and_twoPow]
  split
  · rename_i set
    rw [set]
    rfl
  · rename_i clear
    rw [Bool.eq_false_of_not_eq_true clear]
    rfl

theorem overflow_eq (A OPERAND sum : Word) :
    (~~~(A ^^^ OPERAND) &&& (A ^^^ sum) &&& 0x0080 != 0) =
      (A.getLsbD 7 == OPERAND.getLsbD 7 && A.getLsbD 7 != sum.getLsbD 7) := by
  rw [bit7_eq, BitVec.getLsbD_and, BitVec.getLsbD_not, BitVec.getLsbD_xor, BitVec.getLsbD_xor]
  cases A.getLsbD 7 <;> cases OPERAND.getLsbD 7 <;> cases sum.getLsbD 7 <;> rfl

/-- The sum of two bytes and a carry in complement form fits a byte unless the summands have one
sign and the sum has the other. -/
theorem fits_iff_signs {first second carry : Nat} (first_lt : first < 256)
    (second_lt : second < 256) (carry_le : carry ≤ 1) :
    Fits 256 1 (signed 256 1 first + signed 256 1 second + carry) ↔
      ¬ ((128 ≤ first ↔ 128 ≤ second) ∧
        ¬ (128 ≤ first ↔ 128 ≤ (first + second + carry) % 256)) := by
  unfold Fits signed
  split_ifs <;> omega

end Byte

/-- The registers after a binary addition. -/
structure Summed (before : Registers) (operand : Byte) (after : Registers) : Prop where
  /-- The sum and the carry. -/
  adds : Adds 256 before.A.toNat operand.toNat before.carry after.A.toNat after.carry
  /-- The signed overflow. -/
  overflow_iff : after.getBit Registers.bitV = true ↔
    ¬ Fits 256 1 (signed 256 1 before.A.toNat + signed 256 1 operand.toNat + before.carry)

theorem Registers.carry_le (registers : Registers) : registers.carry ≤ 1 :=
  Bool.toNat_le _

theorem toNat_toWord (value : Byte) : value.toWord.toNat = value.toNat :=
  BitVec.toNat_setWidth_of_le (by decide)

theorem setArithmetic_summed (registers : Registers) (operand : Byte) {sum : Word}
    (sum_eq : sum.toNat = registers.A.toNat + operand.toNat + registers.carry) :
    Summed registers operand (setArithmetic 0 operand.toWord sum sum registers) := by
  have first_lt := registers.A.isLt
  have second_lt := operand.isLt
  have carry_le := registers.carry_le
  obtain ⟨-, bitV_eq⟩ := setArithmetic_bits registers operand.toWord sum sum
  have carries_le : sum.toNat / 256 ≤ 1 := by omega
  have carry_eq := (setArithmetic_carry registers operand.toWord sum sum).trans
    (Nat.min_eq_left carries_le)
  have A_eq := setArithmetic_A registers operand.toWord sum sum
  refine ⟨⟨first_lt, second_lt, ?_, ?_⟩, ?_⟩
  · omega
  · omega
  · have A_sign : registers.A.toWord.getLsbD 7 = decide (128 ≤ registers.A.toNat) := by
      rw [sign_eq, toNat_toWord, Nat.mod_eq_of_lt first_lt]
    have operand_sign : operand.toWord.getLsbD 7 = decide (128 ≤ operand.toNat) := by
      rw [sign_eq, toNat_toWord, Nat.mod_eq_of_lt second_lt]
    rw [bitV_eq, overflow_eq, fits_iff_signs first_lt second_lt carry_le, A_sign, operand_sign,
      sign_eq, sum_eq]
    simp

theorem addToA_summed {frame : Frame (Traced Ram)} {operand : Byte}
    (operand_eq : frame.locals.OPERAND = operand.toWord) (binary : frame.locals.isBCD = false) :
    Summed frame.registers operand (addToA 0 frame).registers := by
  have after_eq : (addToA 0 frame).registers =
      setArithmetic 0 operand.toWord (adcALU frame.registers operand.toWord false)
        (adcALU frame.registers operand.toWord false) frame.registers := by
    simp [addToA, onRegisters, binary, operand_eq]
  rw [after_eq]
  exact setArithmetic_summed _ _ (toNat_adcALU _ _)

/-! ## One instruction -/

/-- Reading the operand moves the program counter only. -/
theorem loadStaticAccess_keeps {mode : AddressingMode} (assigned : mode ∈ operandModes)
    (frame : Frame (Traced Ram)) :
    ∃ PC, (loadStaticAccess mode frame).1.registers = { frame.registers with PC } ∧
      (loadStaticAccess mode frame).1.locals.isBCD = frame.locals.isBCD := by
  cases mode with
  | immediate | zeropage | zeropageXIndexed | absolute | absoluteXIndexed | absoluteYIndexed
  | xIndexedIndirect | indirectYIndexed => exact ⟨_, rfl, rfl⟩
  | _ => simp [operandModes] at assigned

/-- A binary `ADC` of the base dialect about to be executed. -/
structure AdditionStep where
  /-- The registers and the memory. -/
  core : Core (Traced Ram)
  /-- What the static variables hold. -/
  retained : Locals
  /-- The addressing mode. -/
  mode : AddressingMode
  /-- The opcode at the program counter. -/
  decoded : Dialect.base.lookup core.opcode = Dispatch.slot .ADC mode
  /-- Decimal mode is off. -/
  binary : core.registers.getBit Registers.bitD = false

namespace AdditionStep

variable (step : AdditionStep)

/-- The accumulator. -/
def augend : Byte := step.core.registers.A

/-- The byte at the effective address. -/
def addend : Byte := step.core.memory.bus (step.core.address step.mode)

/-- The staged execution of the instruction. -/
def outcome : Option (Nat × Frame (Traced Ram)) :=
  Dialect.base.execute step.core.opcode (step.core.fetched step.retained)

theorem completes :
    step.outcome = some ((Routine.ADC.straight step.mode (step.core.fetched step.retained)).2,
      (Routine.ADC.straight step.mode (step.core.fetched step.retained)).1) := by
  have formed := Dialect.base.lookup_wellFormed step.core.opcode
  rw [step.decoded] at formed
  exact Dialect.execute_of_slot step.decoded formed.2.1 List.not_mem_nil _

/-- An `ADC` adds the byte at its effective address and the carry to the accumulator. -/
theorem outcome_summed {calls : Nat} {after : Frame (Traced Ram)}
    (executes : step.outcome = some (calls, after)) :
    Summed step.core.registers step.addend after.registers := by
  have formed := Dialect.base.lookup_wellFormed step.core.opcode
  rw [step.decoded] at formed
  have assigned : step.mode ∈ operandModes := formed.2.1
  obtain ⟨-, rfl⟩ := Prod.mk.inj (Option.some.inj (step.completes.symm.trans executes))
  let latched := (step.core.fetched step.retained).latchBCD
  obtain ⟨operand_eq, -⟩ := loadStaticAccess_leavesOperand assigned latched
  obtain ⟨PC, registers_eq, isBCD_eq⟩ := loadStaticAccess_keeps assigned latched
  have summed := addToA_summed operand_eq (isBCD_eq.trans step.binary)
  rw [registers_eq] at summed
  exact ⟨summed.adds, summed.overflow_iff⟩

end AdditionStep

/-! ## Any number of bytes -/

/-- Additions from the least significant byte, each starting with the carry that the one before
left: the carry before the first, the steps, the bytes of the result and the registers after the
last. -/
inductive Addition : Nat → List AdditionStep → List Byte → Registers → Prop
  | single {step : AdditionStep} {calls : Nat} {after : Frame (Traced Ram)}
      (executes : step.outcome = some (calls, after)) :
      Addition step.core.registers.carry [step] [after.registers.A] after.registers
  | cons {step : AdditionStep} {calls : Nat} {after : Frame (Traced Ram)}
      {steps : List AdditionStep} {results : List Byte} {final : Registers}
      (executes : step.outcome = some (calls, after))
      (rest : Addition after.registers.carry steps results final) :
      Addition step.core.registers.carry (step :: steps) (after.registers.A :: results) final

/-- The number that bytes denote, the least significant one first. -/
def number (bytes : List Byte) : Nat := Nat.ofDigits 256 (bytes.map BitVec.toNat)

namespace Addition

variable {carry : Nat} {steps : List AdditionStep} {results : List Byte} {final : Registers}

/-- The summands of the steps. -/
def summands (steps : List AdditionStep) : List (Nat × Nat) :=
  steps.map fun step => (step.augend.toNat, step.addend.toNat)

theorem chain (addition : Addition carry steps results final) :
    ∃ last, Chain 256 carry (summands steps) (results.map BitVec.toNat) final.carry last ∧
      (final.getBit Registers.bitV = true ↔
        ¬ Fits 256 1 (signed 256 1 last.first + signed 256 1 last.second + last.carry)) := by
  induction addition with
  | @single step calls after executes =>
      have summed := step.outcome_summed executes
      exact ⟨_, .single summed.adds, summed.overflow_iff⟩
  | @cons step calls after steps results final executes rest ih =>
      obtain ⟨last, chain, overflow_iff⟩ := ih
      exact ⟨last, .cons (step.outcome_summed executes).adds chain, overflow_iff⟩

end Addition

/-- Addition of any number of bytes with `ADC` is exact: every step completes, the bytes of the
result and the final carry are those of the sum, and the final overflow bit tells whether the sum
in two's complement has no representation. -/
theorem addition_exact : (∀ step : AdditionStep, step.outcome.isSome) ∧
    ∀ {carry : Nat} {steps : List AdditionStep} {results : List Byte} {final : Registers},
      Addition carry steps results final →
      let a := number (steps.map AdditionStep.augend)
      let b := number (steps.map AdditionStep.addend)
      let n := steps.length
      number results = (a + b + carry) % 256 ^ n ∧
        final.carry = (a + b + carry) / 256 ^ n ∧
        (final.getBit Registers.bitV = true ↔
          ¬ Fits 256 n (signed 256 n a + signed 256 n b + carry)) := by
  constructor
  · intro step
    rw [step.completes]
    rfl
  · intro carry steps results final addition
    obtain ⟨last, chain, overflow_iff⟩ := addition.chain
    have length_eq : (Addition.summands steps).length = steps.length := List.length_map _
    have firsts_eq :
        firsts 256 (Addition.summands steps) = number (steps.map AdditionStep.augend) := by
      simp [firsts, number, Addition.summands]
      rfl
    have seconds_eq :
        seconds 256 (Addition.summands steps) = number (steps.map AdditionStep.addend) := by
      simp [seconds, number, Addition.summands]
      rfl
    obtain ⟨value_eq, final_eq⟩ := chain.value_eq (by decide)
    have fits_iff := Chain.fits_iff 128 chain
    rw [length_eq, firsts_eq, seconds_eq] at value_eq final_eq fits_iff
    exact ⟨value_eq, final_eq, overflow_iff.trans (not_congr fits_iff.symm)⟩

/-- `ADC #` in memory filled with its opcode. -/
def AdditionStep.filled (A : Byte) (carry : Bool) : AdditionStep where
  core :=
    { Core.filled 0x69 with
      registers := { (Core.filled 0x69).registers with A, SR := if carry then 0x01 else 0x00 } }
  retained := Locals.zero
  mode := .immediate
  decoded := (rfl : Dialect.base.lookup 0x69 = _)
  binary := by
    cases carry with
    | false => exact (by decide : ((0x00 : Byte) &&& 0x08 != 0) = false)
    | true => exact (by decide : ((0x01 : Byte) &&& 0x08 != 0) = false)

/-- `$3097 + $6969` passes a carry to its second byte and overflows. -/
theorem addition_69 :
    ∃ final, Addition 0 [.filled 0x97 false, .filled 0x30 true] [0x00, 0x9A] final ∧
      number [0x00, 0x9A] = (0x3097 + 0x6969) % 256 ^ 2 ∧ final.carry = 0 ∧
      final.getBit Registers.bitV = true := by
  have low := (AdditionStep.filled 0x97 false).completes
  have high := (AdditionStep.filled 0x30 true).completes
  have addition : Addition 0 [.filled 0x97 false, .filled 0x30 true] [0x00, 0x9A] _ :=
    Addition.cons low (Addition.single high)
  obtain ⟨value_eq, carry_eq, overflow_iff⟩ := addition_exact.2 addition
  exact ⟨_, addition, value_eq, carry_eq.trans (by decide),
    overflow_iff.mpr fun fits => absurd fits.2 (by decide)⟩

end System6502
