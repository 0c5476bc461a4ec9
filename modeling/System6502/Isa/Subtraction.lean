import System6502.Isa.Addition

/-!
# Multi-byte subtraction

Runs of `ADC` or `SBC` of the base dialect over numbers of any length, a byte at a time, and the
carry with which the binary `SBC` ends.
-/

namespace System6502

open Lib Lib.CarryChain System6502.Frame

/-! ## Arithmetic instructions -/

/-- The arithmetic instructions. -/
inductive Arithmetic
  /-- `ADC`. -/
  | addition
  /-- `SBC`. -/
  | subtraction

namespace Arithmetic

/-- The staged function of the base dialect. -/
def routine : Arithmetic → Routine
  | addition => .ADC
  | subtraction => .SBC

/-- The operand that is added: `SBC` has complemented it as a word. -/
def summand (operand : Byte) : Arithmetic → Word
  | addition => operand.toWord
  | subtraction => ~~~operand.toWord

/-- The sum before the final decimal adjustment. -/
def sum (registers : Registers) (operand : Byte) (decimal : Bool) : Arithmetic → Word
  | addition => adcALU registers operand.toWord decimal
  | subtraction => sbcALU registers (~~~operand.toWord) decimal

/-- The sum after the final decimal adjustment. -/
def adjusted (registers : Registers) (operand : Byte) (decimal : Bool) : Arithmetic → Word
  | addition =>
      let sum := addition.sum registers operand decimal
      if decimal && sum > 0x009F then sum + 0x0060 else sum
  | subtraction =>
      let sum := subtraction.sum registers operand decimal
      if decimal && sum ≤ 0x00FF then sum - 0x0060 else sum

theorem adjusted_binary (operation : Arithmetic) (registers : Registers) (operand : Byte) :
    operation.adjusted registers operand false = operation.sum registers operand false := by
  cases operation with
  | addition | subtraction => simp [adjusted]

/-- The part of the staged function after its switch. -/
def finish {μ : Type*} : Arithmetic → Frame μ → Frame μ
  | addition => addToA 0
  | subtraction => subtractFromA 0

theorem finish_registers {μ : Type*} (operation : Arithmetic) {frame : Frame μ} {operand : Byte}
    (operand_eq : frame.locals.OPERAND = operand.toWord) {decimal : Bool}
    (isBCD_eq : frame.locals.isBCD = decimal) :
    (operation.finish frame).registers =
      setArithmetic 0 (operation.summand operand)
        (operation.sum frame.registers operand decimal)
        (operation.adjusted frame.registers operand decimal) frame.registers := by
  subst isBCD_eq
  cases operation with
  | addition =>
      simp only [finish, addToA, onRegisters, operand_eq]
      rfl
  | subtraction =>
      simp only [finish, subtractFromA, onRegisters, onLocals, operand_eq]
      rfl

end Arithmetic

/-! ## One instruction -/

/-- An arithmetic instruction of the base dialect about to be executed. -/
structure ArithmeticStep (operation : Arithmetic) (decimal : Bool) where
  /-- The registers and the memory. -/
  core : Core (Traced Ram)
  /-- What the static variables hold. -/
  retained : Locals
  /-- The addressing mode. -/
  mode : AddressingMode
  /-- The opcode at the program counter. -/
  decoded : Dialect.base.lookup core.opcode = Dispatch.slot operation.routine mode
  /-- Whether decimal mode is on. -/
  bitD_eq : core.registers.getBit Registers.bitD = decimal

namespace ArithmeticStep

variable {operation : Arithmetic} {decimal : Bool} (step : ArithmeticStep operation decimal)

/-- The accumulator. -/
def first : Byte := step.core.registers.A

/-- The byte at the effective address. -/
def second : Byte := step.core.memory.bus (step.core.address step.mode)

/-- The staged execution of the instruction. -/
def outcome : Option (Nat × Frame (Traced Ram)) :=
  Dialect.base.execute step.core.opcode (step.core.fetched step.retained)

theorem assigned : step.mode ∈ operandModes := by
  have formed := Dialect.base.lookup_wellFormed step.core.opcode
  rw [step.decoded] at formed
  cases operation with
  | addition | subtraction => exact formed.2.1

theorem completes : ∃ calls, step.outcome =
    some (calls, operation.finish
      (loadStaticAccess step.mode (step.core.fetched step.retained).latchBCD).1) := by
  have formed := Dialect.base.lookup_wellFormed step.core.opcode
  have decoded := step.decoded
  rw [decoded] at formed
  cases operation with
  | addition | subtraction =>
      exact ⟨_, Dialect.execute_of_slot decoded formed.2.1 List.not_mem_nil _⟩

/-- The sum of the instruction. -/
def total : Nat := (operation.adjusted step.core.registers step.second decimal).toNat

/-- The accumulator and the carry that the instruction leaves. -/
theorem outcome_total {calls : Nat} {after : Frame (Traced Ram)}
    (executes : step.outcome = some (calls, after)) :
    after.registers.A.toNat = step.total % 256 ∧
      after.registers.carry = step.total / 256 ⊓ 1 := by
  obtain ⟨_, completes⟩ := step.completes
  obtain ⟨-, rfl⟩ := Prod.mk.inj (Option.some.inj (completes.symm.trans executes))
  let latched := (step.core.fetched step.retained).latchBCD
  obtain ⟨operand_eq, -⟩ := loadStaticAccess_leavesOperand step.assigned latched
  obtain ⟨PC, registers_eq, isBCD_eq⟩ := loadStaticAccess_keeps step.assigned latched
  have after_eq := operation.finish_registers operand_eq (isBCD_eq.trans step.bitD_eq)
  rw [after_eq, setArithmetic_A, setArithmetic_carry, registers_eq]
  cases operation with
  | addition | subtraction => exact ⟨rfl, rfl⟩

end ArithmeticStep

/-! ## Any number of bytes -/

/-- Instructions from the least significant byte, each starting with the carry that the one before
left: the carry before the first, the steps, the bytes of the result and the registers after the
last. -/
inductive Calculation (operation : Arithmetic) (decimal : Bool) :
    Nat → List (ArithmeticStep operation decimal) → List Byte → Registers → Prop
  | single {step : ArithmeticStep operation decimal} {calls : Nat} {after : Frame (Traced Ram)}
      (executes : step.outcome = some (calls, after)) :
      Calculation operation decimal step.core.registers.carry [step] [after.registers.A]
        after.registers
  | cons {step : ArithmeticStep operation decimal} {calls : Nat} {after : Frame (Traced Ram)}
      {steps : List (ArithmeticStep operation decimal)} {results : List Byte} {final : Registers}
      (executes : step.outcome = some (calls, after))
      (rest : Calculation operation decimal after.registers.carry steps results final) :
      Calculation operation decimal step.core.registers.carry (step :: steps)
        (after.registers.A :: results) final

theorem Calculation.head {operation : Arithmetic} {decimal : Bool} {carry : Nat}
    {steps : List (ArithmeticStep operation decimal)} {results : List Byte} {final : Registers}
    (calculation : Calculation operation decimal carry steps results final) :
    ∃ step calls after, ∃ laterSteps laterResults,
      step.outcome = some (calls, after) ∧ carry = step.core.registers.carry ∧
        steps = step :: laterSteps ∧ results = after.registers.A :: laterResults := by
  cases calculation with
  | single executes => exact ⟨_, _, _, _, _, executes, rfl, rfl, rfl⟩
  | cons executes rest => exact ⟨_, _, _, _, _, executes, rfl, rfl, rfl⟩

theorem number_cons (byte : Byte) (bytes : List Byte) :
    number (byte :: bytes) = byte.toNat + 256 * number bytes := by
  rw [number, List.map_cons, Nat.ofDigits_cons]
  rfl

/-! ## Binary subtraction -/

theorem toNat_sbcALU (registers : Registers) (operand : Byte) :
    (sbcALU registers (~~~operand.toWord) false).toNat =
      (65535 - operand.toNat + registers.A.toNat + registers.carry) % 65536 := by
  have := registers.A.isLt
  have := operand.isLt
  rw [sbcALU, Registers.bitValue, Registers.carry]
  cases registers.getBit Registers.bitC <;>
    simp [Byte.toWord] <;> omega

namespace ArithmeticStep

variable (step : ArithmeticStep .subtraction false)

/-- A binary `SBC` leaves the byte of the difference, and a carry exactly when there was a
borrow. -/
theorem outcome_difference {calls : Nat} {after : Frame (Traced Ram)}
    (executes : step.outcome = some (calls, after)) :
    after.registers.A.toNat =
        (step.first.toNat + 255 - step.second.toNat + step.core.registers.carry) % 256 ∧
      after.registers.carry =
        if step.first.toNat + step.core.registers.carry < step.second.toNat + 1 then 1 else 0 := by
  have first_lt := step.first.isLt
  have second_lt := step.second.isLt
  have carry_le := step.core.registers.carry_le
  have total_eq : step.total =
      (65535 - step.second.toNat + step.first.toNat + step.core.registers.carry) % 65536 := by
    rw [total, Arithmetic.adjusted_binary]
    exact toNat_sbcALU step.core.registers step.second
  obtain ⟨A_eq, carry_eq⟩ := step.outcome_total executes
  rw [A_eq, carry_eq, total_eq]
  constructor
  · omega
  · split_ifs
    · omega
    · omega

end ArithmeticStep

/-- Whether a binary subtraction has the bytes, the final carry and the final overflow bit of the
difference. -/
def Calculation.Subtracts {decimal : Bool} (carry : Nat)
    (steps : List (ArithmeticStep .subtraction decimal)) (results : List Byte)
    (final : Registers) : Prop :=
  let a := number (steps.map ArithmeticStep.first)
  let b := number (steps.map ArithmeticStep.second)
  let n := steps.length
  (number results : Int) = ((a : Int) - b - (1 - carry)) % 256 ^ n ∧
    (final.carry = 1 ↔ b + 1 ≤ a + carry) ∧
    (final.getBit Registers.bitV = true ↔
      ¬ Fits 256 n (signed 256 n a - signed 256 n b - (1 - carry)))

/-- Two or more bytes of a difference include its lowest two. -/
theorem mod_two_bytes {value difference : Int} {more : Nat}
    (value_eq : value = difference % 256 ^ (more + 2)) : value % 65536 = difference % 65536 := by
  have divides : (65536 : Int) ∣ 256 ^ (more + 2) := ⟨256 ^ more, by rw [pow_add]; ring⟩
  rw [value_eq, Int.emod_emod_of_dvd _ divides]

/-- The staged `SBC` subtracts numbers of no length: every step completes, but the carry it leaves
tells the opposite of what the next step and the caller take it for. -/
theorem subtraction_inexact {carry : Nat} {steps : List (ArithmeticStep .subtraction false)}
    {results : List Byte} {final : Registers}
    (calculation : Calculation .subtraction false carry steps results final) :
    (∀ step : ArithmeticStep .subtraction false, step.outcome.isSome) ∧
      ¬ Calculation.Subtracts carry steps results final := by
  constructor
  · intro step
    obtain ⟨_, completes⟩ := step.completes
    rw [completes]
    rfl
  · rintro ⟨value_eq, carry_iff, -⟩
    cases calculation with
    | @single step calls after executes =>
        obtain ⟨-, carry_eq⟩ := step.outcome_difference executes
        have first_eq : number ([step].map ArithmeticStep.first) = step.first.toNat :=
          number_cons _ []
        have second_eq : number ([step].map ArithmeticStep.second) = step.second.toNat :=
          number_cons _ []
        rw [first_eq, second_eq] at carry_iff
        rcases Nat.lt_or_ge (step.first.toNat + step.core.registers.carry)
          (step.second.toNat + 1) with borrows | exact
        · rw [if_pos borrows] at carry_eq
          exact absurd (carry_iff.mp carry_eq) (Nat.not_le_of_lt borrows)
        · rw [if_neg (Nat.not_lt_of_le exact)] at carry_eq
          exact absurd (carry_eq.symm.trans (carry_iff.mpr exact)) (by decide)
    | @cons step calls after steps results final executes rest =>
        obtain ⟨next, _, nextAfter, later, laterResults, nextExecutes, carries, rfl, rfl⟩ :=
          rest.head
        obtain ⟨A_eq, carry_eq⟩ := step.outcome_difference executes
        obtain ⟨nextA_eq, -⟩ := next.outcome_difference nextExecutes
        have carry_le := step.core.registers.carry_le
        have low := mod_two_bytes value_eq
        simp only [List.map_cons, number_cons] at low
        rw [← carries, carry_eq] at nextA_eq
        have := step.second.isLt
        have := next.second.isLt
        push_cast at low
        split_ifs at nextA_eq
        · omega
        · omega

/-- `SBC #` in memory filled with its opcode. -/
def ArithmeticStep.filled (A : Byte) (carry : Bool) : ArithmeticStep .subtraction false where
  core :=
    { Core.filled 0xE9 with
      registers := { (Core.filled 0xE9).registers with A, SR := if carry then 0x01 else 0x00 } }
  retained := Locals.zero
  mode := .immediate
  decoded := (rfl : Dialect.base.lookup 0xE9 = _)
  bitD_eq := by
    cases carry with
    | false => exact (by decide : ((0x00 : Byte) &&& 0x08 != 0) = false)
    | true => exact (by decide : ((0x01 : Byte) &&& 0x08 != 0) = false)

/-- `$30EA - $E9E9`: the low bytes need no borrow, and the high byte comes out one too small. -/
theorem subtraction_inexact_E9 :
    ∃ final, Calculation .subtraction false 1 [.filled 0xEA true, .filled 0x30 false] [0x01, 0x46]
        final ∧
      ¬ Calculation.Subtracts 1 [ArithmeticStep.filled 0xEA true, .filled 0x30 false] [0x01, 0x46]
        final := by
  obtain ⟨_, low⟩ := (ArithmeticStep.filled 0xEA true).completes
  obtain ⟨_, high⟩ := (ArithmeticStep.filled 0x30 false).completes
  have calculation : Calculation .subtraction false 1
      [.filled 0xEA true, .filled 0x30 false] [0x01, 0x46] _ :=
    Calculation.cons low (Calculation.single high)
  exact ⟨_, calculation, (subtraction_inexact calculation).2⟩

/-- `$EA - $E9` needs no borrow and leaves the carry clear. -/
theorem borrowless_carry_lost :
    ∃ final, Calculation .subtraction false 1 [.filled 0xEA true] [0x01] final ∧
      final.carry = 0 ∧
      ¬ Calculation.Subtracts 1 [ArithmeticStep.filled 0xEA true] [0x01] final := by
  obtain ⟨_, executes⟩ := (ArithmeticStep.filled 0xEA true).completes
  obtain ⟨-, carry_eq⟩ := (ArithmeticStep.filled 0xEA true).outcome_difference executes
  have clear := carry_eq.trans (if_neg (by decide))
  have calculation : Calculation .subtraction false 1 [.filled 0xEA true] [0x01] _ :=
    Calculation.single executes
  refine ⟨_, calculation, clear, ?_⟩
  rintro ⟨-, carry_iff, -⟩
  exact absurd (clear.symm.trans (carry_iff.mpr (by decide))) (by decide)

end System6502
