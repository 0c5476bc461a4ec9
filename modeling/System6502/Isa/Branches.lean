import System6502.Isa.Disassembly
import System6502.Isa.Timing

/-!
# Branches

Where the staged branches of both dialects go, in how many cycles, and the target that the static
disassembly prints for them.
-/

namespace System6502

open System6502.Frame

/-- The condition of a branch of either dialect. -/
def Routine.condition : Routine → Option (Registers → Bool)
  | .BRA65C02 => some fun _ => true
  | routine => routine.branches

namespace Core

variable (core : Core Ram)

/-- The target of the branch at the program counter. -/
def branchTarget : Word :=
  core.registers.PC + 2 + (core.memory (core.registers.PC + 1)).signExtend 16

/-- What a staged branch does, from the number of its calls, and the target printed for it. -/
structure Branches (dialect : Dialect) (taken : Bool) (calls : Nat) (after : Registers) : Prop where
  /-- The program counter moves and nothing else. -/
  registers_eq : after = { core.registers with
    PC := if taken then core.branchTarget else core.registers.PC + 2 }
  /-- The opcode fetch and the calls take two cycles, and one or two more for a branch taken. -/
  cycles_eq : 1 + calls =
    if taken then if core.branchTarget.SamePage (core.registers.PC + 2) then 3 else 4 else 2
  /-- The disassembly prints the target. -/
  printed : ∀ stale, ∃ operand,
    (dialect.disassembleAt core.memory core.registers.PC stale).1 =
      .instruction core.registers.PC (core.memory core.registers.PC) .relative operand
        core.branchTarget

end Core

section Straight

variable (taken : Registers → Bool) (core : Core Ram) (retained : Locals)

theorem branchStraight_registers
    (pcFree : ∀ registers PC, taken (assignPC PC registers) = taken registers) :
    (branchStraight taken (core.fetched retained)).1.registers = { core.registers with
      PC := if taken core.registers then core.branchTarget else core.registers.PC + 2 } := by
  have next_eq : core.registers.PC + 1 + 1 = core.registers.PC + 2 := add_assoc _ 1 1
  have taken_eq : taken (core.fetched retained).registers = taken core.registers :=
    pcFree core.registers _
  rw [branchStraight, taken_eq, Core.branchTarget, ← next_eq]
  cases taken core.registers with
  | false | true => rfl

end Straight

/-- The condition of a branch does not look at the program counter. -/
theorem Routine.condition_pcFree {routine : Routine} {taken : Registers → Bool}
    (condition : taken ∈ routine.condition) (registers : Registers) (PC : Word) :
    taken (assignPC PC registers) = taken registers := by
  cases routine with
  | BCC | BCS | BEQ | BMI | BNE | BPL | BVC | BVS | BRA65C02 =>
      obtain rfl := Option.some.inj condition
      rfl
  | _ => cases condition

/-- A branch has the relative mode only, and performs its straight-line program. -/
theorem Routine.straight_of_condition {routine : Routine} {taken : Registers → Bool}
    (condition : taken ∈ routine.condition) (mode : AddressingMode) :
    routine.straight (μ := Ram) mode = branchStraight taken ∧ routine.modes = [.relative] ∧
      routine.endlessModes = [] := by
  cases routine with
  | BCC | BCS | BEQ | BMI | BNE | BPL | BVC | BVS | BRA65C02 =>
      obtain rfl := Option.some.inj condition
      exact ⟨rfl, rfl, rfl⟩
  | _ => cases condition

/-- Every branch of both dialects goes where the disassembly says exactly when its condition holds,
in two, three or four cycles. -/
theorem Dialect.branches {dialect : Dialect} {routine : Routine} {mode : AddressingMode}
    {taken : Registers → Bool} (core : Core Ram) (retained : Locals)
    (decoded : dialect.lookup core.opcode = Dispatch.slot routine mode)
    (condition : taken ∈ routine.condition) :
    ∃ calls after, dialect.execute core.opcode (core.fetched retained) = some (calls, after) ∧
      core.Branches dialect (taken core.registers) calls after.registers := by
  have formed := dialect.lookup_wellFormed core.opcode
  rw [decoded] at formed
  obtain ⟨straight_eq, modes_eq, endless_eq⟩ := Routine.straight_of_condition condition mode
  have assigned : mode ∈ routine.modes := formed.2.1
  have ends : mode ∉ routine.endlessModes := endless_eq ▸ List.not_mem_nil
  have pcFree := Routine.condition_pcFree condition
  obtain rfl : mode = .relative := List.mem_singleton.mp (modes_eq ▸ assigned)
  refine ⟨_, _, execute_of_slot decoded assigned ends _, ?_⟩
  rw [straight_eq]
  refine ⟨branchStraight_registers taken core retained pcFree, ?_, fun stale => ?_⟩
  · rw [branchStraight_cycles taken core retained pcFree, Core.branchCycles]
    cases taken core.registers with
    | false => rfl
    | true =>
        rcases Decidable.em (core.branchTarget.SamePage (core.registers.PC + 2)) with same | crosses
        · rw [if_pos rfl, if_pos rfl, if_pos same]
          exact congrArg (2 + ·) (if_pos same)
        · rw [if_pos rfl, if_pos rfl, if_neg crosses]
          exact congrArg (2 + ·) (if_neg crosses)
  · have mode_eq : (dialect.lookup (core.memory core.registers.PC)).addressingMode = .relative :=
      congrArg Dispatch.addressingMode decoded
    have next_eq : core.registers.PC + 1 + BitVec.ofNat 16 1 = core.registers.PC + 2 :=
      add_assoc _ 1 1
    rw [disassembleAt, mode_eq]
    refine ⟨_, congrArg (DisassemblyLine.instruction _ _ _ _) ?_⟩
    rw [next_eq]
    exact congrArg (fun low : Byte => core.registers.PC + 2 + low.signExtend 16)
      (Word.toByte_toWord _)

/-- `BCC` in memory filled with its opcode goes back to the page before. -/
theorem branches_90 :
    ∃ calls after, Dialect.base.execute 0x90
        (({ memory := fun _ => 0x90, registers := { Registers.reset with PC := 0x0200 } }
          : Core Ram).fetched Locals.zero) = some (calls, after) ∧
      Core.Branches { memory := fun _ => 0x90, registers := { Registers.reset with PC := 0x0200 } }
        .base true calls after.registers :=
  Dialect.branches
    { memory := fun _ => 0x90, registers := { Registers.reset with PC := 0x0200 } } Locals.zero
    (rfl : Dialect.base.lookup 0x90 = _) rfl

end System6502
