import System6502.Isa.Addition
import System6502.Isa.Counterpart
import System6502.Isa.InstructionStream

/-!
# Comparisons

When `CMP`, `CPX` and `CPY` leave the flags of the subtraction of their operand from a register,
in both dialects and both modes.
-/

namespace System6502

open System6502.Frame

/-! ## Flags -/

/-- A comparison sets the flags of the subtraction of its operand from a register, and nothing
else than the status and the program counter changes. -/
structure Registers.Compares (register operand : Byte) (before after : Registers) : Prop where
  /-- The carry bit is set exactly when the subtraction needs no borrow. -/
  bitC_iff : after.getBit Registers.bitC = true ↔ operand.toNat ≤ register.toNat
  /-- The zero bit is set exactly when the difference is zero. -/
  bitZ_iff : after.getBit Registers.bitZ = true ↔ register = operand
  /-- The negative bit is that of the difference. -/
  bitN_eq : after.getBit Registers.bitN = (register - operand).getLsbD 7
  /-- The other registers. -/
  keeps : after = { before with SR := after.SR, PC := after.PC }

/-- The difference of two bytes fits a byte in two's complement. -/
def DifferenceFits (register operand : Byte) : Prop :=
  operand.toNat ≤ register.toNat + 128 ∧ register.toNat < operand.toNat + 128

/-- The status bits that a comparison replaces. -/
theorem comparison_bits : ∀ (SR : Byte) (below equal : Bool),
    let flags := if below then Registers.bitC
      else if equal then Registers.bitC ||| Registers.bitZ
      else Registers.bitN
    let after :=
      (SR &&& ~~~(Registers.bitC ||| Registers.bitZ ||| Registers.bitN)) ||| flags
    ((after &&& Registers.bitC != 0) = (below || equal)) ∧
      ((after &&& Registers.bitZ != 0) = (!below && equal)) ∧
      ((after &&& Registers.bitN != 0) = !(below || equal)) := by
  decide +kernel

section Flags

variable (register used operand : Byte)

theorem setCompareFlags_bits (registers : Registers) :
    let after := setCompareFlags (compareFlags register.toWord used.toWord) registers
    (after.getBit Registers.bitC = true ↔ used.toNat ≤ register.toNat) ∧
      (after.getBit Registers.bitZ = true ↔ used.toNat = register.toNat) ∧
      (after.getBit Registers.bitN = true ↔ register.toNat < used.toNat) := by
  have flags_eq : compareFlags register.toWord used.toWord =
      if decide (used.toNat < register.toNat) then Registers.bitC
      else if decide (used.toNat = register.toNat) then Registers.bitC ||| Registers.bitZ
      else Registers.bitN := by
    rw [compareFlags_toWord]
    simp only [decide_eq_true_eq, BitVec.lt_def, ← BitVec.toNat_inj]
  obtain ⟨bitC_eq, bitZ_eq, bitN_eq⟩ := comparison_bits registers.SR
    (decide (used.toNat < register.toNat)) (decide (used.toNat = register.toNat))
  simp only [setCompareFlags, Registers.getBit, flags_eq, bitC_eq, bitZ_eq, bitN_eq]
  simp only [Bool.or_eq_true, Bool.and_eq_true, Bool.not_eq_true', Bool.or_eq_false_iff,
    decide_eq_true_eq, decide_eq_false_iff_not]
  omega

/-- The sign of a difference of two bytes. -/
theorem differenceSign_iff : (register - operand).getLsbD 7 = true ↔
    128 ≤ (256 - operand.toNat + register.toNat) % 256 := by
  rw [BitVec.getLsbD, Nat.testBit_eq_decide_div_mod_eq, decide_eq_true_eq, BitVec.toNat_sub]
  omega

variable {register used operand}

/-- A comparison with a byte sets the flags of the subtraction of another exactly when both stand
in the same order to the register and the difference fits a byte. -/
theorem compares_iff_alike {before after : Registers}
    (after_eq : ∃ PC, after = setCompareFlags (compareFlags register.toWord used.toWord)
      { before with PC }) :
    Registers.Compares register operand before after ↔
      ComparesAlike register used operand ∧ DifferenceFits register operand := by
  obtain ⟨PC, rfl⟩ := after_eq
  obtain ⟨bitC_iff, bitZ_iff, bitN_iff⟩ := setCompareFlags_bits register used { before with PC }
  have sign_iff := differenceSign_iff register operand
  have := register.isLt
  have := operand.isLt
  simp only [ComparesAlike, DifferenceFits, BitVec.lt_def, ← BitVec.toNat_inj]
  constructor
  · rintro ⟨carry, zero, negative, -⟩
    rw [bitC_iff] at carry
    rw [bitZ_iff, ← BitVec.toNat_inj] at zero
    rw [Bool.eq_iff_iff, bitN_iff, sign_iff] at negative
    omega
  · rintro ⟨⟨below_iff, equal_iff⟩, fits⟩
    refine ⟨bitC_iff.trans (by omega), bitZ_iff.trans ?_, ?_, rfl⟩
    · rw [← BitVec.toNat_inj]
      omega
    · rw [Bool.eq_iff_iff, bitN_iff, sign_iff]
      omega

end Flags

/-! ## Instructions -/

/-- The register that a comparison reads. -/
def Routine.compared : Routine → Option (Registers → Byte)
  | .CMP | .CMP65C02 => some Registers.A
  | .CPX => some Registers.X
  | .CPY => some Registers.Y
  | _ => none

/-- The byte that a comparison compares with: the staged `CMP` may take a stale operand or the byte
at a stale address. -/
def Routine.comparand (static : Bool) (mode : AddressingMode) (frame : Frame (Traced Ram)) :
    Routine → Byte
  | .CMP | .CMP65C02 =>
      if static then frame.memory.bus (frame.address mode) else frame.cmpOperand mode
  | _ => frame.memory.bus (frame.address mode)

theorem loadStaticAccess65C02_keeps {mode : AddressingMode} (assigned : mode ∈ operandModes65C02)
    (frame : Frame (Traced Ram)) :
    ∃ PC, (loadStaticAccess65C02 mode frame).1.registers = { frame.registers with PC } := by
  rcases List.mem_cons.mp assigned with rfl | assigned
  · exact ⟨_, rfl⟩
  · obtain ⟨PC, registers_eq, -⟩ := loadStaticAccess_keeps assigned frame
    cases mode with
    | zeropageIndirect => simp [operandModes] at assigned
    | _ => exact ⟨PC, registers_eq⟩

theorem cmpStraight_keeps {mode : AddressingMode} (assigned : mode ∈ operandModes65C02)
    (frame : Frame (Traced Ram)) :
    ∃ PC, (cmpStraight mode frame).1.registers = { frame.registers with PC } := by
  cases mode with
  | immediate | zeropage | zeropageXIndexed | xIndexedIndirect | indirectYIndexed
  | zeropageIndirect | absolute | absoluteXIndexed | absoluteYIndexed => exact ⟨_, rfl⟩
  | _ => simp [operandModes65C02, operandModes] at assigned

/-- The static `CPX` and `CPY` read as the other loads do. -/
theorem indexCompareStaticAccess_eq {mode : AddressingMode}
    (assigned : mode ∈ Routine.CPX.modes) (frame : Frame (Traced Ram)) :
    (indexCompareStaticAccess mode frame).1 = (loadStaticAccess mode frame).1 := by
  cases mode with
  | immediate | zeropage | absolute => rfl
  | _ => simp [Routine.modes] at assigned

/-- A comparison after a program that leaves its operand and the other registers. -/
theorem compareIndex_registers {frame after : Frame (Traced Ram)} (index : Registers → Byte)
    (keepsIndex : ∀ registers PC, index { registers with PC } = index registers) {value : Byte}
    (operand_eq : after.locals.OPERAND = value.toWord)
    (keeps : ∃ PC, after.registers = { frame.registers with PC }) :
    ∃ PC, (compareIndex index after).registers =
      setCompareFlags (compareFlags (index frame.registers).toWord value.toWord)
        { frame.registers with PC } := by
  obtain ⟨PC, registers_eq⟩ := keeps
  refine ⟨PC, ?_⟩
  rw [compareIndex, onRegisters, operand_eq, registers_eq, keepsIndex]

theorem compareA_registers {frame after : Frame (Traced Ram)} {value : Byte}
    (operand_eq : after.locals.OPERAND.toByte = value)
    (keeps : ∃ PC, after.registers = { frame.registers with PC }) :
    ∃ PC, (compareA after).registers =
      setCompareFlags (compareFlags frame.registers.A.toWord value.toWord)
        { frame.registers with PC } := by
  obtain ⟨PC, registers_eq⟩ := keeps
  refine ⟨PC, ?_⟩
  rw [compareA, onRegisters, operand_eq, registers_eq]

/-- What a comparison does in either mode. -/
theorem Routine.program_compares {routine : Routine} {register : Registers → Byte}
    (compared : register ∈ routine.compared) (static : Bool) {mode : AddressingMode}
    (assigned : mode ∈ routine.modes) (frame : Frame (Traced Ram)) :
    ∃ PC, (routine.program static mode frame).1.registers =
      setCompareFlags (compareFlags (register frame.registers).toWord
        (routine.comparand static mode frame).toWord) { frame.registers with PC } := by
  cases routine with
  | CMP =>
      obtain rfl := Option.some.inj compared
      cases static with
      | false =>
          have assigned : mode ∈ operandModes65C02 := List.mem_cons_of_mem _ assigned
          exact compareA_registers (cmpStraight_leavesByte assigned frame).1
            (cmpStraight_keeps assigned frame)
      | true =>
          obtain ⟨operand_eq, -⟩ := loadStaticAccess_leavesOperand assigned frame
          obtain ⟨PC, registers_eq, -⟩ := loadStaticAccess_keeps assigned frame
          refine compareA_registers ?_ ⟨PC, registers_eq⟩
          rw [operand_eq]
          exact Word.toByte_toWord _
  | CMP65C02 =>
      obtain rfl := Option.some.inj compared
      cases static with
      | false =>
          exact compareA_registers (cmpStraight_leavesByte assigned frame).1
            (cmpStraight_keeps assigned frame)
      | true =>
          obtain ⟨operand_eq, -⟩ := loadStaticAccess65C02_leavesOperand assigned frame
          refine compareA_registers ?_ (loadStaticAccess65C02_keeps assigned frame)
          rw [operand_eq]
          exact Word.toByte_toWord _
  | CPX | CPY =>
      obtain rfl := Option.some.inj compared
      have loaded : mode ∈ operandModes := modes_subset_operandModes _ (by decide) assigned
      obtain ⟨operand_eq, -⟩ := loadStaticAccess_leavesOperand loaded frame
      obtain ⟨PC, registers_eq, -⟩ := loadStaticAccess_keeps loaded frame
      cases static with
      | false => exact compareIndex_registers _ (fun _ _ => rfl) operand_eq ⟨PC, registers_eq⟩
      | true =>
          rw [← indexCompareStaticAccess_eq assigned] at operand_eq registers_eq
          exact compareIndex_registers _ (fun _ _ => rfl) operand_eq ⟨PC, registers_eq⟩
  | _ => cases compared

/-- A comparison that completes sets the flags of the subtraction of the byte at its effective
address exactly when the byte it takes stands in the same order to the register and the difference
fits a byte. -/
theorem Dialect.compares_iff {dialect : Dialect} {routine : Routine} {mode : AddressingMode}
    {register : Registers → Byte} (static : Bool) (core : Core (Traced Ram)) (retained : Locals)
    (decoded : dialect.lookup core.opcode = Dispatch.slot routine mode)
    (compared : register ∈ routine.compared) {after : Frame (Traced Ram)}
    (completes : dialect.complete static core.opcode (core.fetched retained) = some after) :
    Registers.Compares (register core.registers) (core.memory.bus (core.address mode))
        core.registers after.registers ↔
      ComparesAlike (register core.registers)
          (routine.comparand static mode (core.fetched retained))
          (core.memory.bus (core.address mode)) ∧
        DifferenceFits (register core.registers) (core.memory.bus (core.address mode)) := by
  have formed := dialect.lookup_wellFormed core.opcode
  rw [decoded] at formed
  have assigned : mode ∈ routine.modes := formed.2.1
  have ends := ends_of_complete decoded (Option.isSome_of_eq_some completes)
  rw [complete_of_slot decoded assigned ends] at completes
  obtain rfl := Option.some.inj completes
  obtain ⟨PC, registers_eq⟩ :=
    routine.program_compares compared static assigned (core.fetched retained)
  have register_eq : register (core.fetched retained).registers = register core.registers := by
    cases routine with
    | CMP | CMP65C02 | CPX | CPY =>
        obtain rfl := Option.some.inj compared
        rfl
    | _ => cases compared
  rw [register_eq] at registers_eq
  exact compares_iff_alike ⟨PC, registers_eq⟩

/-- `CMP #` of equal bytes in memory filled with its opcode. -/
theorem compares_C9 :
    ∃ after, Dialect.base.complete false 0xC9
        (({ Core.filled 0xC9 with registers := { (Core.filled 0xC9).registers with A := 0xC9 } }
          : Core (Traced Ram)).fetched Locals.zero) = some after ∧
      Registers.Compares 0xC9 0xC9
        { (Core.filled 0xC9).registers with A := 0xC9 } after.registers :=
  ⟨_, rfl, (Dialect.compares_iff false
    { Core.filled 0xC9 with registers := { (Core.filled 0xC9).registers with A := 0xC9 } }
    Locals.zero (rfl : Dialect.base.lookup 0xC9 = _) rfl rfl).mpr ⟨by decide, by decide, by decide⟩⟩

/-- `CPX #` in memory filled with its opcode takes a negative difference for a borrow. -/
theorem not_compares_E0 :
    Dialect.base.lookup (Core.filled 0xE0).opcode = Dispatch.slot .CPX .immediate ∧
      ∃ after, Dialect.base.complete true 0xE0 ((Core.filled 0xE0).fetched Locals.zero) =
          some after ∧
        after.registers.getBit Registers.bitN = true ∧
        ¬ Registers.Compares 0x00 0xE0 (Core.filled 0xE0).registers after.registers := by
  refine ⟨rfl, _, rfl, rfl, ?_⟩
  rintro ⟨-, -, bitN_eq, -⟩
  exact absurd bitN_eq (by decide)

end System6502
