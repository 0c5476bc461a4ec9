import System6502.Isa.Straight

/-!
# The stack pointer

Which instructions move the stack pointer; all the others leave it alone.
-/

namespace System6502

open System6502.Frame

variable {μ : Type*} [Membus μ]

/-- The instructions that push, pull or move the stack pointer. -/
def Routine.touchesStack : Routine → Bool
  | .PHA | .PHP | .PHX65C02 | .PHY65C02 | .PLA | .PLP | .PLX65C02 | .PLY65C02 | .JSR | .RTS
  | .BRK | .BRK65C02 | .RTI | .TXS => true
  | _ => false

/-- A program that leaves the stack pointer alone. -/
def KeepsSP (program : StaticHandler μ) : Prop :=
  ∀ frame, (program frame).1.registers.SP = frame.registers.SP

omit [Membus μ] in
theorem KeepsSP.completing {program : StaticHandler μ} (keeps : KeepsSP program)
    {finish : Frame μ → Frame μ}
    (finishes : ∀ frame, (finish frame).registers.SP = frame.registers.SP) :
    KeepsSP (completingStatic program finish) := fun frame =>
  (finishes _).trans (keeps frame)

theorem loadStaticAccess_keepsSP (mode : AddressingMode) :
    KeepsSP (μ := μ) (loadStaticAccess mode) := by
  cases mode <;> exact fun _ => rfl

theorem loadStaticAccess65C02_keepsSP (mode : AddressingMode) :
    KeepsSP (μ := μ) (loadStaticAccess65C02 mode) := by
  cases mode <;> exact fun _ => rfl

theorem ldaStraight_keepsSP (mode : AddressingMode) : KeepsSP (μ := μ) (ldaStraight mode) := by
  cases mode <;> exact fun _ => rfl

theorem cmpStraight_keepsSP (mode : AddressingMode) : KeepsSP (μ := μ) (cmpStraight mode) := by
  cases mode <;> exact fun _ => rfl

theorem decimalStraight_keepsSP (mode : AddressingMode) :
    KeepsSP (μ := μ) (decimalStraight mode) := by
  cases mode <;> exact fun _ => rfl

theorem storeStraight_keepsSP (mode : AddressingMode) :
    KeepsSP (μ := μ) (storeStraight mode) := by
  cases mode <;> exact fun _ => rfl

theorem stzStraight_keepsSP (mode : AddressingMode) : KeepsSP (μ := μ) (stzStraight mode) := by
  cases mode <;> exact fun _ => rfl

omit [Membus μ] in
@[simp]
theorem SP_statusWithValue (registers : Registers) (value : Byte) (carry : Carry) :
    (registers.statusWithValue value carry).SP = registers.SP := by
  cases carry <;> rfl

omit [Membus μ] in
theorem SP_shiftOPERAND (shift : Registers → Word → ShiftResult) (frame : Frame μ) :
    (shiftOPERAND shift frame).registers.SP = frame.registers.SP :=
  SP_statusWithValue _ _ _

omit [Membus μ] in
theorem SP_shiftTwice (shift : Registers → Word → ShiftResult) {settle : Frame μ → Frame μ}
    (settles : ∀ frame, (settle frame).registers.SP = frame.registers.SP) (read : Frame μ) :
    (shiftTwice shift settle read).registers.SP = read.registers.SP := by
  rw [shiftTwice, SP_shiftOPERAND, settles, SP_shiftOPERAND]
  rfl

omit [Membus μ] in
theorem SP_shiftAccumulator (shift : Registers → Word → ShiftResult) (frame : Frame μ) :
    (shiftAccumulator shift frame).registers.SP = frame.registers.SP :=
  SP_statusWithValue _ _ _

omit [Membus μ] in
theorem SP_shiftAccumulatorThrough (shift : Registers → Word → ShiftResult) (frame : Frame μ) :
    (shiftAccumulatorThrough shift frame).registers.SP = frame.registers.SP :=
  SP_shiftAccumulator shift frame

theorem shiftStraight_keepsSP {accumulator : Frame μ → Frame μ}
    {shift : Registers → Word → ShiftResult}
    (keeps : ∀ frame, (accumulator frame).registers.SP = frame.registers.SP)
    (mode : AddressingMode) : KeepsSP (shiftStraight accumulator shift mode) := by
  intro frame
  cases mode with
  | accumulator => exact keeps _
  | zeropage | zeropageXIndexed | absolute | absoluteXIndexed =>
      exact SP_shiftTwice shift (fun _ => rfl) _
  | _ => rfl

theorem shiftStraight65C02_keepsSP {accumulator : Frame μ → Frame μ}
    {shift : Registers → Word → ShiftResult}
    (keeps : ∀ frame, (accumulator frame).registers.SP = frame.registers.SP)
    (mode : AddressingMode) : KeepsSP (shiftStraight65C02 accumulator shift mode) := by
  have base : KeepsSP (shiftStraight accumulator shift mode) := shiftStraight_keepsSP keeps mode
  intro frame
  cases mode with
  | absoluteXIndexed => exact SP_shiftTwice shift (fun _ => rfl) _
  | _ => exact base frame

theorem modifyStaticAccess_keepsSP (mode : AddressingMode) :
    KeepsSP (μ := μ) (modifyStaticAccess mode) := by
  cases mode <;> exact fun _ => rfl

theorem staticAdjust_keepsSP (step : Word) (mode : AddressingMode) :
    KeepsSP (μ := μ) (staticAdjust step mode) :=
  (modifyStaticAccess_keepsSP mode).completing fun _ => SP_statusWithValue _ _ _

theorem staticAdjust65C02_keepsSP (step : Word) (mode : AddressingMode) :
    KeepsSP (μ := μ) (staticAdjust65C02 step mode) := by
  intro frame
  rw [staticAdjust65C02]
  split_ifs with accumulator
  · rfl
  · exact staticAdjust_keepsSP step mode frame

theorem testModifyStraight_keepsSP (operation : Byte → Byte → Byte) (mode : AddressingMode) :
    KeepsSP (μ := μ) (testModifyStraight operation mode) := by
  cases mode <;> exact fun _ => rfl

theorem jmpStaticAccess_keepsSP (mode : AddressingMode) :
    KeepsSP (μ := μ) (jmpStaticAccess mode) := by
  cases mode <;> exact fun _ => rfl

theorem jmpStaticAccess65C02_keepsSP (mode : AddressingMode) :
    KeepsSP (μ := μ) (jmpStaticAccess65C02 mode) := by
  cases mode <;> exact fun _ => rfl

theorem branchStraight_keepsSP (taken : Registers → Bool) :
    KeepsSP (μ := μ) (branchStraight taken) := by
  intro frame
  unfold branchStraight
  dsimp only
  split <;> rfl

/-- Only the stack instructions move the stack pointer. -/
theorem Routine.straight_keepsSP (routine : Routine) (neutral : routine.touchesStack = false)
    (mode : AddressingMode) : KeepsSP (μ := μ) (routine.straight mode) := by
  cases routine with
  | AND | ORA | EOR | LDX | LDY | CPX | CPY | BIT | BIT65C02 =>
      exact (loadStaticAccess_keepsSP mode).completing fun _ => rfl
  | ADC | SBC => exact fun frame => loadStaticAccess_keepsSP mode frame.latchBCD
  | AND65C02 | ORA65C02 | EOR65C02 =>
      exact (loadStaticAccess65C02_keepsSP mode).completing fun _ => rfl
  | ADC65C02 | SBC65C02 => exact (decimalStraight_keepsSP mode).completing fun _ => rfl
  | LDA | LDA65C02 => exact (ldaStraight_keepsSP mode).completing fun _ => rfl
  | CMP | CMP65C02 => exact (cmpStraight_keepsSP mode).completing fun _ => rfl
  | STA | STA65C02 | STX | STY => exact (storeStraight_keepsSP mode).completing fun _ => rfl
  | STZ65C02 => exact (stzStraight_keepsSP mode).completing fun _ => rfl
  | ASL | ROL => exact shiftStraight_keepsSP (SP_shiftAccumulatorThrough _) mode
  | LSR | ROR => exact shiftStraight_keepsSP (SP_shiftAccumulator _) mode
  | ASL65C02 | ROL65C02 | ROR65C02 =>
      exact shiftStraight65C02_keepsSP (SP_shiftAccumulatorThrough _) mode
  | LSR65C02 => exact shiftStraight65C02_keepsSP (SP_shiftAccumulator _) mode
  | INC | DEC => exact staticAdjust_keepsSP _ mode
  | INC65C02 | DEC65C02 => exact staticAdjust65C02_keepsSP _ mode
  | TSB65C02 | TRB65C02 => exact testModifyStraight_keepsSP _ mode
  | JMP => exact (jmpStaticAccess_keepsSP mode).completing fun _ => rfl
  | JMP65C02 => exact (jmpStaticAccess65C02_keepsSP mode).completing fun _ => rfl
  | BCC | BCS | BEQ | BMI | BNE | BPL | BVC | BVS | BRA65C02 => exact branchStraight_keepsSP _
  | CLC | CLD | CLI | CLV | DEX | DEY | INX | INY | NOP | SEC | SED | SEI | TAX | TAY | TSX | TXA
  | TYA => exact fun _ => rfl
  | PHA | PHP | PHX65C02 | PHY65C02 | PLA | PLP | PLX65C02 | PLY65C02 | JSR | RTS | BRK | BRK65C02
  | RTI | TXS => cases neutral

end System6502
