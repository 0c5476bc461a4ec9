import System6502.Isa.Straight

/-!
# Cycle counts of the two modes

From the same bus and registers a staged function takes no more calls than its static-mode twin
adds cycles.  The exceptions are `SED` and the `($zp),Y` mode of `LDA`.
-/

namespace System6502

open System6502.Frame

variable {μ : Type*} [Membus μ]

/-- The first program takes at most the cycles of the second, whatever their locals hold. -/
def NoLonger (program other : StaticHandler μ) : Prop :=
  ∀ memory registers retained stack,
    (program { memory, registers, locals := retained }).2 ≤
      (other { memory, registers, locals := stack }).2

omit [Membus μ] in
theorem NoLonger.completing {program other : StaticHandler μ} (noLonger : NoLonger program other)
    (finish otherFinish : Frame μ → Frame μ) :
    NoLonger (completingStatic program finish) (completingStatic other otherFinish) :=
  noLonger

omit [Membus μ] in
/-- Programs with constant cycle counts. -/
theorem noLonger_of_le {program other : StaticHandler μ} {cycles otherCycles : Nat}
    (program_eq : ∀ frame, (program frame).2 = cycles)
    (other_eq : ∀ frame, (other frame).2 = otherCycles) (le : cycles ≤ otherCycles) :
    NoLonger program other := by
  intro memory registers retained stack
  rw [program_eq, other_eq]
  exact le

/-! ## Addressing -/

theorem based_pageCycle (memory : μ) (registers : Registers) (index : Registers → Byte)
    (retained stack : Locals) :
    ((Frame.mk memory registers retained).fetchLow.fetchHigh.indexADDR16 index).pageCycle =
      ((Frame.mk memory registers stack).fetchLow.fetchHigh.indexADDR16 index).pageCycle := rfl

theorem pointed_pageCycle (memory : μ) (registers : Registers) (index : Registers → Byte)
    (retained stack : Locals) :
    ((Frame.mk memory registers retained).fetchADDR8.pointerLow.pointerHigh.indexADDR16
        index).pageCycle =
      ((Frame.mk memory registers stack).fetchADDR8.pointerLow.pointerHigh.indexADDR16
        index).pageCycle := rfl

theorem loadStaticAccess_noLonger_alu {mode : AddressingMode} (assigned : mode ∈ operandModes) :
    NoLonger (μ := μ) (loadStaticAccess mode) (aluStaticAccess mode) := by
  intro memory registers retained stack
  cases mode with
  | absoluteXIndexed | absoluteYIndexed =>
      simp only [loadStaticAccess, aluStaticAccess,
        based_pageCycle memory registers _ retained stack, le_refl]
  | indirectYIndexed =>
      simp only [loadStaticAccess, aluStaticAccess,
        pointed_pageCycle memory registers _ retained stack, le_refl]
  | immediate | zeropage | zeropageXIndexed | absolute | xIndexedIndirect => exact le_rfl
  | _ => simp [operandModes] at assigned

theorem loadStaticAccess65C02_noLonger_alu {mode : AddressingMode}
    (assigned : mode ∈ operandModes65C02) :
    NoLonger (μ := μ) (loadStaticAccess65C02 mode) (aluStaticAccess65C02 mode) := by
  rcases List.mem_cons.mp assigned with rfl | assigned
  · exact fun _ _ _ _ => le_rfl
  · have noLonger := loadStaticAccess_noLonger_alu (μ := μ) assigned
    cases mode with
    | zeropageIndirect => simp [operandModes] at assigned
    | _ => exact noLonger

/-- Latching decimal mode first changes only the locals. -/
theorem loadStaticAccess_noLonger_arithmetic {mode : AddressingMode}
    (assigned : mode ∈ operandModes) (finish : Frame μ → Frame μ)
    (otherFinish : Frame μ → Frame μ → Frame μ) :
    NoLonger (completingStatic (fun frame => loadStaticAccess mode frame.latchBCD) finish)
      (fun frame => completingStatic (aluStaticAccess mode) (otherFinish frame) frame.latchBCD) :=
  fun memory registers _ _ =>
    loadStaticAccess_noLonger_alu assigned memory registers _ _

theorem decimalStraight_noLonger {mode : AddressingMode} (assigned : mode ∈ operandModes)
    (finish : Frame μ → Frame μ) (otherFinish : Frame μ → Frame μ → Frame μ) :
    NoLonger (completingStatic (decimalStraight mode) finish)
      (fun frame =>
        let (after, cycles) :=
          completingStatic (aluStaticAccess65C02 mode) (otherFinish frame) frame.latchBCD
        (after, cycles + decimalCycle frame.latchBCD)) := by
  intro memory registers retained stack
  have noLonger := loadStaticAccess_noLonger_alu (μ := μ) assigned memory registers
    (Frame.mk memory registers retained).latchBCD.locals
    (Frame.mk memory registers stack).latchBCD.locals
  have cycle_eq : decimalCycle (Frame.mk memory registers retained).latchBCD =
      decimalCycle (Frame.mk memory registers stack).latchBCD := rfl
  cases mode with
  | immediate | zeropage | zeropageXIndexed | absolute | xIndexedIndirect | absoluteXIndexed
  | absoluteYIndexed | indirectYIndexed =>
      refine Nat.add_le_add noLonger cycle_eq.le
  | _ => simp [operandModes] at assigned

theorem ldaStraight_noLonger {mode : AddressingMode} (assigned : mode ∈ operandModes65C02)
    (other : mode ≠ .indirectYIndexed) :
    NoLonger (μ := μ) (ldaStraight mode) (loadStaticAccess65C02 mode) := by
  intro memory registers retained stack
  cases mode with
  | absoluteXIndexed | absoluteYIndexed =>
      simp only [ldaStraight, loadStaticAccess65C02, loadStaticAccess,
        based_pageCycle memory registers _ retained stack, le_refl]
  | indirectYIndexed => exact absurd rfl other
  | immediate | zeropage | zeropageXIndexed | absolute | xIndexedIndirect | zeropageIndirect =>
      exact le_rfl
  | _ => simp [operandModes65C02, operandModes] at assigned

theorem cmpStraight_noLonger {mode : AddressingMode} (assigned : mode ∈ operandModes65C02) :
    NoLonger (μ := μ) (cmpStraight mode) (loadStaticAccess65C02 mode) := by
  intro memory registers retained stack
  cases mode with
  | absoluteXIndexed | absoluteYIndexed =>
      simp only [cmpStraight, loadStaticAccess65C02, loadStaticAccess,
        based_pageCycle memory registers _ retained stack, le_refl]
  | indirectYIndexed => exact le_trans (show 1 ≤ 4 by decide) (Nat.le_add_right 4 _)
  | zeropage | zeropageXIndexed | xIndexedIndirect | zeropageIndirect =>
      exact Nat.le_of_ble_eq_true rfl
  | immediate | absolute => exact le_rfl
  | _ => simp [operandModes65C02, operandModes] at assigned

theorem loadStaticAccess_noLonger_indexLoad {mode : AddressingMode}
    (assigned : mode ∈ [AddressingMode.immediate, .zeropage, .zeropageXIndexed, .absolute,
      .absoluteXIndexed]) :
    NoLonger (μ := μ) (loadStaticAccess mode) (indexLoadStaticAccess mode) := by
  intro memory registers retained stack
  cases mode with
  | absoluteXIndexed =>
      simp only [loadStaticAccess, indexLoadStaticAccess,
        based_pageCycle memory registers _ retained stack]
      omega
  | immediate | zeropage | zeropageXIndexed | absolute => exact Nat.le_of_ble_eq_true rfl
  | _ => simp at assigned

theorem loadStaticAccess_noLonger_bit65C02 {mode : AddressingMode}
    (assigned : mode ∈ [AddressingMode.immediate, .zeropage, .zeropageXIndexed, .absolute,
      .absoluteXIndexed]) :
    NoLonger (μ := μ) (loadStaticAccess mode) (bitStaticAccess65C02 mode) := by
  intro memory registers retained stack
  cases mode with
  | absoluteXIndexed =>
      simp only [loadStaticAccess, bitStaticAccess65C02,
        based_pageCycle memory registers _ retained stack]
      omega
  | immediate | zeropage | zeropageXIndexed | absolute => exact le_rfl
  | _ => simp at assigned

theorem loadStaticAccess_noLonger_indexCompare {mode : AddressingMode}
    (assigned : mode ∈ [AddressingMode.immediate, .zeropage, .absolute]) :
    NoLonger (μ := μ) (loadStaticAccess mode) (indexCompareStaticAccess mode) := by
  intro memory registers retained stack
  cases mode with
  | immediate | zeropage | absolute => exact le_rfl
  | _ => simp at assigned

theorem loadStaticAccess_noLonger_bit {mode : AddressingMode}
    (assigned : mode ∈ [AddressingMode.zeropage, .absolute]) :
    NoLonger (μ := μ) (loadStaticAccess mode) (bitStaticAccess mode) := by
  intro memory registers retained stack
  cases mode with
  | zeropage | absolute => exact le_rfl
  | _ => simp at assigned

theorem storeStraight_noLonger_sta {mode : AddressingMode}
    (assigned : mode ∈ [AddressingMode.zeropage, .zeropageXIndexed, .absolute, .absoluteXIndexed,
      .absoluteYIndexed, .zeropageIndirect]) :
    NoLonger (μ := μ) (storeStraight mode) (staStaticAccess65C02 mode) := by
  intro memory registers retained stack
  cases mode with
  | zeropage | zeropageXIndexed | absolute | absoluteXIndexed | absoluteYIndexed
  | zeropageIndirect => exact le_rfl
  | _ => simp at assigned

theorem storeStraight_noLonger_stx {mode : AddressingMode}
    (assigned : mode ∈ [AddressingMode.zeropage, .zeropageYIndexed, .absolute]) :
    NoLonger (μ := μ) (storeStraight mode)
      (indexStoreStaticAccess .zeropageYIndexed Registers.Y mode) := by
  intro memory registers retained stack
  cases mode with
  | zeropage | zeropageYIndexed | absolute => exact le_rfl
  | _ => simp at assigned

theorem storeStraight_noLonger_sty {mode : AddressingMode}
    (assigned : mode ∈ [AddressingMode.zeropage, .zeropageXIndexed, .absolute]) :
    NoLonger (μ := μ) (storeStraight mode)
      (indexStoreStaticAccess .zeropageXIndexed Registers.X mode) := by
  intro memory registers retained stack
  cases mode with
  | zeropage | zeropageXIndexed | absolute => exact le_rfl
  | _ => simp at assigned

theorem stzStraight_noLonger {mode : AddressingMode} (assigned : mode ∈ adjustModes) :
    NoLonger (μ := μ) (stzStraight mode) (stzStaticAccess mode) := by
  intro memory registers retained stack
  cases mode with
  | zeropage | zeropageXIndexed | absolute | absoluteXIndexed => exact le_rfl
  | _ => simp [adjustModes] at assigned

/-! ## Read-modify-write instructions -/

theorem shiftStraight_noLonger (accumulator : Frame μ → Frame μ)
    (shift : Registers → Word → ShiftResult) {mode : AddressingMode}
    (assigned : mode ∈ shiftModes) :
    NoLonger (shiftStraight accumulator shift mode)
      (staticShift modifyStaticAccess shift mode) := by
  intro memory registers retained stack
  cases mode with
  | accumulator | zeropage | zeropageXIndexed | absolute | absoluteXIndexed => exact le_rfl
  | _ => simp [shiftModes] at assigned

theorem shiftStraight65C02_noLonger (accumulator : Frame μ → Frame μ)
    (shift : Registers → Word → ShiftResult) {mode : AddressingMode}
    (assigned : mode ∈ shiftModes) :
    NoLonger (shiftStraight65C02 accumulator shift mode)
      (staticShift shiftStaticAccess65C02 shift mode) := by
  intro memory registers retained stack
  cases mode with
  | absoluteXIndexed =>
      have cycle_eq := based_pageCycle memory registers Registers.X
        (markPenultimate false (Frame.mk memory registers retained)).locals stack
      exact Nat.add_le_add_left cycle_eq.le 5
  | accumulator | zeropage | zeropageXIndexed | absolute => exact le_rfl
  | _ => simp [shiftModes] at assigned

theorem staticAdjust_noLonger (step : Word) {mode : AddressingMode}
    (assigned : mode ∈ adjustModes) :
    NoLonger (μ := μ) (staticAdjust step mode) (staticAdjust step mode) := by
  intro memory registers retained stack
  cases mode with
  | zeropage | zeropageXIndexed | absolute | absoluteXIndexed => exact le_rfl
  | _ => simp [adjustModes] at assigned

theorem staticAdjust65C02_noLonger (step : Word) {mode : AddressingMode}
    (assigned : mode ∈ shiftModes) :
    NoLonger (μ := μ) (staticAdjust65C02 step mode) (staticAdjust65C02 step mode) := by
  intro memory registers retained stack
  cases mode with
  | accumulator | zeropage | zeropageXIndexed | absolute | absoluteXIndexed => exact le_rfl
  | _ => simp [shiftModes] at assigned

theorem testModifyStraight_noLonger (operation : Byte → Byte → Byte) {mode : AddressingMode}
    (assigned : mode ∈ [AddressingMode.zeropage, .absolute]) :
    NoLonger (μ := μ) (testModifyStraight operation mode) (staticTestModify operation mode) := by
  intro memory registers retained stack
  cases mode with
  | zeropage | absolute => exact Nat.le_of_ble_eq_true rfl
  | _ => simp at assigned

/-! ## Control flow -/

theorem branchStraight_noLonger (taken : Registers → Bool)
    (pcFree : ∀ registers PC, taken (assignPC PC registers) = taken registers) :
    NoLonger (μ := μ) (branchStraight taken) (staticBranch taken) := by
  intro memory registers retained stack
  have still : taken (Frame.mk memory registers stack).fetchDELTA.registers = taken registers :=
    pcFree registers _
  have count_eq : branchCycleCount (branchTarget (Frame.mk memory registers retained).fetchDELTA) =
      branchCycleCount (branchTarget (Frame.mk memory registers stack).fetchDELTA) := rfl
  simp only [branchStraight, staticBranch, still]
  by_cases holds : taken registers
  · simp only [if_pos holds, count_eq, le_refl]
  · simp only [if_neg holds, le_refl]

theorem jmpStaticAccess_noLonger {mode : AddressingMode}
    (assigned : mode ∈ [AddressingMode.absolute, .indirect]) :
    NoLonger (μ := μ) (jmpStaticAccess mode) (jmpStaticAccess mode) := by
  intro memory registers retained stack
  cases mode with
  | absolute | indirect => exact le_rfl
  | _ => simp at assigned

theorem jmpStaticAccess65C02_noLonger {mode : AddressingMode}
    (assigned : mode ∈ [AddressingMode.absolute, .indirect, .absoluteXIndexedIndirect]) :
    NoLonger (μ := μ) (jmpStaticAccess65C02 mode) (jmpStaticAccess65C02 mode) := by
  intro memory registers retained stack
  cases mode with
  | absolute | indirect | absoluteXIndexedIndirect => exact le_rfl
  | _ => simp at assigned

/-! ## All routines -/

namespace Routine

/-- The routines and modes in which static mode may add fewer cycles than staged mode calls. -/
def Hasty (routine : Routine) (mode : AddressingMode) : Prop :=
  routine = .SED ∨ (routine = .LDA ∨ routine = .LDA65C02) ∧ mode = .indirectYIndexed

instance (routine : Routine) (mode : AddressingMode) : Decidable (routine.Hasty mode) :=
  inferInstanceAs (Decidable (_ ∨ _ ∧ _))

/-- Apart from the hasty ones a staged instruction takes no more calls than its static-mode twin
adds cycles. -/
theorem straight_noLonger_static (routine : Routine) {mode : AddressingMode}
    (assigned : mode ∈ routine.modes) (ends : mode ∉ routine.endlessModes)
    (steady : ¬ routine.Hasty mode) :
    NoLonger (μ := μ) (routine.straight mode) (routine.static mode) := by
  cases routine with
  | AND | ORA | EOR => exact (loadStaticAccess_noLonger_alu assigned).completing _ _
  | ADC | SBC => exact loadStaticAccess_noLonger_arithmetic assigned _ _
  | AND65C02 | ORA65C02 | EOR65C02 =>
      exact (loadStaticAccess65C02_noLonger_alu assigned).completing _ _
  | ADC65C02 | SBC65C02 =>
      refine decimalStraight_noLonger ?_ _ _
      simp_all [modes, endlessModes, operandModes65C02]
  | LDA =>
      have other : mode ≠ .indirectYIndexed := fun mode_eq => steady (.inr ⟨.inl rfl, mode_eq⟩)
      have noLonger := ldaStraight_noLonger (μ := μ) (List.mem_cons_of_mem _ assigned) other
      cases mode with
      | zeropageIndirect => simp [modes, operandModes] at assigned
      | _ => exact noLonger.completing _ _
  | LDA65C02 =>
      have other : mode ≠ .indirectYIndexed := fun mode_eq => steady (.inr ⟨.inr rfl, mode_eq⟩)
      exact (ldaStraight_noLonger assigned other).completing _ _
  | CMP =>
      have noLonger := cmpStraight_noLonger (μ := μ) (List.mem_cons_of_mem _ assigned)
      cases mode with
      | zeropageIndirect => simp [modes, operandModes] at assigned
      | _ => exact noLonger.completing _ _
  | CMP65C02 => exact (cmpStraight_noLonger assigned).completing _ _
  | LDX =>
      refine (loadStaticAccess_noLonger_indexLoad ?_).completing _ _
      simp_all [modes, endlessModes]
      tauto
  | LDY => exact (loadStaticAccess_noLonger_indexLoad assigned).completing _ _
  | CPX | CPY => exact (loadStaticAccess_noLonger_indexCompare assigned).completing _ _
  | BIT => exact (loadStaticAccess_noLonger_bit assigned).completing _ _
  | BIT65C02 => exact (loadStaticAccess_noLonger_bit65C02 assigned).completing _ _
  | STA =>
      have noLonger : NoLonger (μ := μ) (storeStraight mode) (staStaticAccess65C02 mode) := by
        refine storeStraight_noLonger_sta ?_
        simp_all [modes, endlessModes]
        tauto
      cases mode with
      | zeropageIndirect => simp [modes] at assigned
      | _ => exact noLonger.completing _ _
  | STA65C02 =>
      refine (storeStraight_noLonger_sta ?_).completing _ _
      simp_all [modes, endlessModes]
  | STX => exact (storeStraight_noLonger_stx assigned).completing _ _
  | STY => exact (storeStraight_noLonger_sty assigned).completing _ _
  | STZ65C02 => exact (stzStraight_noLonger assigned).completing _ _
  | ASL | LSR | ROL | ROR => exact shiftStraight_noLonger _ _ assigned
  | ASL65C02 | LSR65C02 | ROL65C02 | ROR65C02 => exact shiftStraight65C02_noLonger _ _ assigned
  | INC | DEC => exact staticAdjust_noLonger _ assigned
  | INC65C02 | DEC65C02 => exact staticAdjust65C02_noLonger _ assigned
  | TSB65C02 | TRB65C02 => exact testModifyStraight_noLonger _ assigned
  | JMP => exact (jmpStaticAccess_noLonger assigned).completing _ _
  | JMP65C02 => exact (jmpStaticAccess65C02_noLonger assigned).completing _ _
  | JSR | RTS | RTI => exact noLonger_of_le (fun _ => rfl) (fun _ => rfl) (le_refl 5)
  | BRK | BRK65C02 => exact noLonger_of_le (fun _ => rfl) (fun _ => rfl) (le_refl 6)
  | PHA | PHP | PHX65C02 | PHY65C02 =>
      exact noLonger_of_le (fun _ => rfl) (fun _ => rfl) (le_refl 2)
  | PLA | PLX65C02 | PLY65C02 | PLP =>
      exact noLonger_of_le (fun _ => rfl) (fun _ => rfl) (le_refl 3)
  | BCC | BCS | BEQ | BMI | BNE | BPL | BVC | BVS | BRA65C02 =>
      exact branchStraight_noLonger _ fun _ _ => rfl
  | SED => exact absurd (.inl rfl) steady
  | CLC | CLD | CLI | CLV | DEX | DEY | INX | INY | NOP | SEC | SEI | TAX | TAY | TSX | TXA | TXS
  | TYA => exact noLonger_of_le (fun _ => rfl) (fun _ => rfl) (le_refl 1)

end Routine
end System6502
