import System6502.Isa.Addressing

/-!
# Documented timing

The cycles of the NMOS 6502's instructions, and when the calls of the base dialect's staged
functions take as many.
-/

namespace System6502

open System6502.Frame

namespace AddressingMode

/-- The cycles of an instruction that reads its operand. -/
def readCycles : AddressingMode → Nat
  | immediate => 2
  | zeropage => 3
  | zeropageXIndexed | zeropageYIndexed | absolute | absoluteXIndexed | absoluteYIndexed => 4
  | indirectYIndexed => 5
  | _ => 6

/-- The cycles of a store. -/
def storeCycles : AddressingMode → Nat
  | zeropage => 3
  | zeropageXIndexed | zeropageYIndexed | absolute => 4
  | absoluteXIndexed | absoluteYIndexed => 5
  | _ => 6

/-- The cycles of a read-modify-write instruction. -/
def modifyCycles : AddressingMode → Nat
  | accumulator => 2
  | zeropage => 5
  | zeropageXIndexed | absolute => 6
  | _ => 7

end AddressingMode

namespace Routine

/-- The documented cycles of an instruction that crosses no page and takes no branch. -/
def documentedCycles : Routine → AddressingMode → Nat
  | ADC, mode | AND, mode | ORA, mode | EOR, mode | SBC, mode | LDA, mode | CMP, mode | LDX, mode
  | LDY, mode | CPX, mode | CPY, mode | BIT, mode => mode.readCycles
  | STA, mode | STX, mode | STY, mode => mode.storeCycles
  | ASL, mode | LSR, mode | ROL, mode | ROR, mode | INC, mode | DEC, mode => mode.modifyCycles
  | JMP, mode => if mode = .absolute then 3 else 5
  | JSR, _ | RTS, _ | RTI, _ => 6
  | BRK, _ => 7
  | PHA, _ | PHP, _ => 3
  | PLA, _ | PLP, _ => 4
  | _, _ => 2

/-- The condition of a branch. -/
def branches : Routine → Option (Registers → Bool)
  | BCC => some fun registers => !registers.getBit Registers.bitC
  | BCS => some fun registers => registers.getBit Registers.bitC
  | BEQ => some fun registers => registers.getBit Registers.bitZ
  | BMI => some fun registers => registers.getBit Registers.bitN
  | BNE => some fun registers => !registers.getBit Registers.bitZ
  | BPL => some fun registers => !registers.getBit Registers.bitN
  | BVC => some fun registers => !registers.getBit Registers.bitV
  | BVS => some fun registers => registers.getBit Registers.bitV
  | _ => none

end Routine

namespace Core

/-- The pointer in the zero page that the operand of an indirect instruction selects. -/
def pointer (core : Core Ram) : Byte := core.memory (core.registers.PC + 1)

/-- The address that an indexed mode adds its index to. -/
def base (core : Core Ram) : AddressingMode → Word
  | .indirectYIndexed =>
      Word.littleEndian (core.memory core.pointer.toWord) (core.memory (core.pointer + 1).toWord)
  | _ =>
      Word.littleEndian (core.memory (core.registers.PC + 1)) (core.memory (core.registers.PC + 2))

/-- The register that an indexed mode adds. -/
def index (core : Core Ram) : AddressingMode → Byte
  | .absoluteXIndexed => core.registers.X
  | .absoluteYIndexed | .indirectYIndexed => core.registers.Y
  | _ => 0

/-- The cycle that an indexed read takes to cross a page. -/
def crossingCycles (core : Core Ram) (mode : AddressingMode) : Nat :=
  if (core.base mode).SamePage (core.base mode + (core.index mode).toWord) then 0 else 1

/-- The cycles that a branch takes to go elsewhere. -/
def branchCycles (core : Core Ram) (taken : Registers → Bool) : Nat :=
  let next := core.registers.PC + 2
  let target := next + (core.memory (core.registers.PC + 1)).signExtend 16
  if taken core.registers then (if target.SamePage next then 1 else 2) else 0

/-- The documented cycles of the instruction at the program counter. -/
def documentedCycles (core : Core Ram) (routine : Routine) (mode : AddressingMode) : Nat :=
  routine.documentedCycles mode +
    match routine.branches with
    | some taken => core.branchCycles taken
    | none => if routine.loads then core.crossingCycles mode else 0

/-- The staged function of the opcode at the program counter ends its instruction, and with the
cycle of the opcode fetch it has taken the documented number of cycles. -/
def Timely (core : Core Ram) (retained : Locals) : Prop :=
  ∃ routine mode, Dialect.base.lookup core.opcode = Dispatch.slot routine mode ∧
    ∃ limit calls after,
      runCalls (routine.staged mode) limit 1 (core.fetched retained) = some (calls, after) ∧
        1 + calls = core.documentedCycles routine mode

/-- The opcodes of `CMP` whose staged function ends in its first call. -/
def hastyOpcodes : List Byte := [0xC1, 0xC5, 0xD1, 0xD5]

/-- The table has an instruction function for the opcode, which ends and is none of the hasty
ones; and the pointer that `LDA ($zp),Y` misreads crosses a page exactly when the pointer does. -/
def KeepsTime (core : Core Ram) : Prop :=
  ¬ Dialect.Blank core.opcode ∧ core.opcode ∉ Dialect.base.endlessOpcodes ∧
    core.opcode ∉ hastyOpcodes ∧
    (core.opcode = 0xB1 →
      let low := core.memory core.pointer.toWord
      let high := core.memory (core.pointer + 1).toWord
      ((low ||| high).toNat + core.registers.Y.toNat < 256 ↔
        low.toNat + core.registers.Y.toNat < 256))

end Core

/-! ## Programs -/

theorem crossingCycles_of_index (core : Core Ram) {mode : AddressingMode}
    (unindexed : core.index mode = 0) : core.crossingCycles mode = 0 := by
  rw [Core.crossingCycles, unindexed, if_pos]
  simp [Word.SamePage, Byte.toWord]

/-- An indexed program assembles its address from the base that the reference gives. -/
theorem pageCycle_indexADDR16 (core : Core Ram) (mode : AddressingMode) (frame : Frame Ram)
    (index : Registers → Byte) (base_eq : frame.locals.ADDR16 = core.base mode)
    (index_eq : index frame.registers = core.index mode) :
    (frame.indexADDR16 index).pageCycle = core.crossingCycles mode := by
  rw [pageCycle_eq, Core.crossingCycles, ← base_eq, ← index_eq]
  rfl

theorem fetchHigh_ADDR16 (core : Core Ram) (retained : Locals) :
    (core.fetched retained).fetchLow.fetchHigh.locals.ADDR16 =
      Word.littleEndian (core.memory (core.registers.PC + 1))
        (core.memory (core.registers.PC + 2)) := by
  rw [show core.registers.PC + 2 = core.registers.PC + 1 + 1 by bv_omega]
  rfl

/-- The programs of the loads take the documented cycles. -/
theorem loadStaticAccess_cycles {mode : AddressingMode} (assigned : mode ∈ operandModes)
    (core : Core Ram) (retained : Locals) :
    1 + (loadStaticAccess mode (core.fetched retained)).2 =
      mode.readCycles + core.crossingCycles mode := by
  cases mode with
  | immediate | zeropage | zeropageXIndexed | absolute | xIndexedIndirect =>
      rw [crossingCycles_of_index core rfl]
      rfl
  | absoluteXIndexed =>
      rw [← pageCycle_indexADDR16 core .absoluteXIndexed _ Registers.X
        (fetchHigh_ADDR16 core retained) rfl]
      exact (Nat.add_assoc 1 3 _).symm
  | absoluteYIndexed =>
      rw [← pageCycle_indexADDR16 core .absoluteYIndexed _ Registers.Y
        (fetchHigh_ADDR16 core retained) rfl]
      exact (Nat.add_assoc 1 3 _).symm
  | indirectYIndexed =>
      rw [← pageCycle_indexADDR16 core .indirectYIndexed
        (core.fetched retained).fetchADDR8.pointerLow.pointerHigh Registers.Y rfl rfl]
      exact (Nat.add_assoc 1 4 _).symm
  | _ => simp [operandModes] at assigned

/-- The crossing that the misread pointer of `LDA ($zp),Y` shows. -/
theorem misread_pageCycle (core : Core Ram) (retained : Locals) :
    (((core.fetched retained).fetchADDR8.pointerLow.pointerHighUnshifted).indexADDR16
        Registers.Y).pageCycle =
      if (core.memory core.pointer.toWord ||| core.memory (core.pointer + 1).toWord).toNat +
        core.registers.Y.toNat < 256 then 0 else 1 := by
  rw [pageCycle_eq]
  refine if_congr ?_ rfl rfl
  let misread := (core.memory core.pointer.toWord).toWord |||
    (core.memory (core.pointer + 1).toWord).toWord
  change misread.SamePage (misread + core.registers.Y.toWord) ↔ _
  rw [Word.samePage_add_iff, Word.low_toWord_or]

theorem crossingCycles_indirectYIndexed (core : Core Ram) :
    core.crossingCycles .indirectYIndexed =
      if (core.memory core.pointer.toWord).toNat + core.registers.Y.toNat < 256 then 0 else 1 := by
  refine if_congr ?_ rfl rfl
  rw [Word.samePage_add_iff, Core.base, Word.low_littleEndian]
  rfl

/-- A branch takes the documented cycles. -/
theorem branchStraight_cycles (taken : Registers → Bool) (core : Core Ram) (retained : Locals)
    (pcFree : ∀ registers PC, taken (assignPC PC registers) = taken registers) :
    1 + (branchStraight taken (core.fetched retained)).2 = 2 + core.branchCycles taken := by
  let next := core.registers.PC + 1 + 1
  let target := next + (core.memory (core.registers.PC + 1)).signExtend 16
  have count_eq : branchStraight taken (core.fetched retained) =
      if taken core.registers then
        (loadPC (branchTarget (core.fetched retained).fetchDELTA),
          2 + if target.SamePage next then 0 else 1)
      else ((core.fetched retained).fetchDELTA, 1) :=
    if_congr (by rw [Core.fetched, ← pcFree core.registers]; rfl) rfl rfl
  have reference_eq : core.branchCycles taken =
      if taken core.registers then (if target.SamePage next then 1 else 2) else 0 := by
    rw [Core.branchCycles, show core.registers.PC + 2 = next from (add_assoc _ 1 1).symm]
  rw [count_eq, reference_eq]
  split_ifs
  all_goals rfl

namespace Routine

/-- The modes in which the program of a routine takes the documented cycles. -/
def TimesWell (routine : Routine) (mode : AddressingMode) (core : Core Ram) : Prop :=
  match routine, mode with
  | CMP, .zeropage | CMP, .zeropageXIndexed | CMP, .xIndexedIndirect | CMP, .indirectYIndexed =>
      False
  | LDA, .indirectYIndexed =>
      let low := core.memory core.pointer.toWord
      let high := core.memory (core.pointer + 1).toWord
      ((low ||| high).toNat + core.registers.Y.toNat < 256 ↔
        low.toNat + core.registers.Y.toNat < 256)
  | _, _ => True

/-- The routines of the base table. -/
def nmos : Routine → Bool
  | ADC65C02 | AND65C02 | ASL65C02 | BIT65C02 | BRA65C02 | BRK65C02 | CMP65C02 | DEC65C02
  | EOR65C02 | INC65C02 | JMP65C02 | LDA65C02 | LSR65C02 | ORA65C02 | PHX65C02 | PHY65C02
  | PLX65C02 | PLY65C02 | ROL65C02 | ROR65C02 | SBC65C02 | STA65C02 | STZ65C02 | TRB65C02
  | TSB65C02 => false
  | _ => true

theorem ldaStraight_cycles_iff (core : Core Ram) (retained : Locals) :
    1 + (LDA.straight .indirectYIndexed (core.fetched retained)).2 =
        core.documentedCycles LDA .indirectYIndexed ↔
      LDA.TimesWell .indirectYIndexed core := by
  have differ : ∀ misread crossed : Prop, [Decidable misread] → [Decidable crossed] →
      (1 + (4 + if misread then 0 else 1) = 5 + (if crossed then 0 else 1) ↔
        (misread ↔ crossed)) := by
    intro misread crossed _ _
    by_cases first : misread <;> by_cases second : crossed <;> simp [first, second]
  refine Iff.trans ?_ (differ _ _)
  rw [← misread_pageCycle core retained, ← crossingCycles_indirectYIndexed]
  rfl

/-- The program of a base routine takes the documented cycles exactly in the modes in which its
addressing does not end early or misread a page. -/
theorem straight_cycles_iff {routine : Routine} (nmos : routine.nmos = true)
    {mode : AddressingMode} (assigned : mode ∈ routine.modes)
    (ends : mode ∉ routine.endlessModes) (core : Core Ram) (retained : Locals) :
    1 + (routine.straight mode (core.fetched retained)).2 = core.documentedCycles routine mode ↔
      routine.TimesWell mode core := by
  cases routine with
  | AND | ORA | EOR =>
      exact iff_of_true (loadStaticAccess_cycles assigned core retained) trivial
  | ADC | SBC =>
      exact iff_of_true (loadStaticAccess_cycles assigned core _) trivial
  | LDA =>
      cases mode with
      | indirectYIndexed => exact ldaStraight_cycles_iff core retained
      | xIndexedIndirect =>
          have crossing : core.crossingCycles .xIndexedIndirect = 0 :=
            crossingCycles_of_index core rfl
          exact iff_of_true (congrArg (6 + ·) crossing.symm) trivial
      | zeropageIndirect => simp [modes, operandModes] at assigned
      | _ => exact iff_of_true (loadStaticAccess_cycles assigned core retained) trivial
  | CMP =>
      cases mode with
      | zeropage | zeropageXIndexed | xIndexedIndirect | indirectYIndexed =>
          refine iff_of_false (fun cycles_eq => ?_) id
          change 2 = _ + _ at cycles_eq
          simp [documentedCycles, AddressingMode.readCycles] at cycles_eq
          omega
      | absolute =>
          have crossing : core.crossingCycles .absolute = 0 := crossingCycles_of_index core rfl
          exact iff_of_true (congrArg (4 + ·) crossing.symm) trivial
      | zeropageIndirect => simp [modes, operandModes] at assigned
      | _ => exact iff_of_true (loadStaticAccess_cycles assigned core retained) trivial
  | LDX =>
      refine iff_of_true (loadStaticAccess_cycles ?_ core retained) trivial
      simp_all [modes, endlessModes, operandModes]
      tauto
  | LDY | CPX | CPY | BIT =>
      have loads : mode ∈ operandModes := modes_subset_operandModes _ (by decide) assigned
      exact iff_of_true (loadStaticAccess_cycles loads core retained) trivial
  | BCC | BCS | BEQ | BMI | BNE | BPL | BVC | BVS =>
      exact iff_of_true (branchStraight_cycles _ core retained fun _ _ => rfl) trivial
  | STA | STX | STY | ASL | LSR | ROL | ROR | INC | DEC | JMP =>
      simp only [modes, adjustModes, shiftModes, List.mem_cons, List.not_mem_nil, or_false]
        at assigned
      simp only [endlessModes, List.mem_cons, List.not_mem_nil, or_false] at ends
      cases mode <;> first | exact iff_of_true rfl trivial | simp_all
  | _ =>
      first
      | exact iff_of_true rfl trivial
      | cases nmos

end Routine

/-! ## The dispatch table -/

namespace Core

theorem lookup_nmos :
    ∀ opcode, ∀ routine ∈ (Dialect.base.lookup opcode).staged, routine.nmos = true := by
  decide +kernel

/-- The opcodes of the modes in which a program may miss the documented cycles. -/
theorem lookup_hasty :
    ∀ opcode, ∀ routine ∈ (Dialect.base.lookup opcode).staged,
      (opcode ∈ hastyOpcodes ↔ routine = .CMP ∧ (Dialect.base.lookup opcode).addressingMode ∈
        [AddressingMode.zeropage, .zeropageXIndexed, .xIndexedIndirect, .indirectYIndexed]) ∧
      (opcode = 0xB1 ↔ routine = .LDA ∧
        (Dialect.base.lookup opcode).addressingMode = .indirectYIndexed) := by
  decide +kernel

theorem timesWell_iff {core : Core Ram} {routine : Routine} {mode : AddressingMode}
    (decoded : Dialect.base.lookup core.opcode = Dispatch.slot routine mode) :
    routine.TimesWell mode core ↔
      core.opcode ∉ hastyOpcodes ∧
        (core.opcode = 0xB1 →
          let low := core.memory core.pointer.toWord
          let high := core.memory (core.pointer + 1).toWord
          ((low ||| high).toNat + core.registers.Y.toNat < 256 ↔
            low.toNat + core.registers.Y.toNat < 256)) := by
  obtain ⟨hasty, misreads⟩ := lookup_hasty core.opcode routine (by rw [decoded]; rfl)
  rw [hasty, misreads, decoded]
  unfold Routine.TimesWell Dispatch.slot
  split
  case h_5 => simp
  case h_6 zeropage indexed pointerX pointerY misread =>
    refine iff_of_true trivial ⟨?_, fun reads => (misread reads.1 reads.2).elim⟩
    rintro ⟨routine_eq, mode_mem⟩
    simp only [List.mem_cons, List.not_mem_nil, or_false] at mode_mem
    rcases mode_mem with mode_eq | mode_eq | mode_eq | mode_eq
    · exact zeropage routine_eq mode_eq
    · exact indexed routine_eq mode_eq
    · exact pointerX routine_eq mode_eq
    · exact pointerY routine_eq mode_eq
  all_goals simp

/-- A staged instruction of the base dialect takes the documented cycles exactly when it ends, does
not end early, and a misread pointer crosses a page when the pointer does. -/
theorem timely_iff (core : Core Ram) (retained : Locals)
    (defined : (Dialect.base.lookup core.opcode).addressingMode ≠ .undefined) :
    core.Timely retained ↔ core.KeepsTime := by
  rcases Dialect.base.lookup_cases core.opcode defined with
    ⟨blank, zero_eq⟩ | ⟨routine, solid, decoded, assigned⟩
  · refine iff_of_false ?_ fun keeps => keeps.1 blank
    rintro ⟨routine, mode, decoded, -⟩
    rw [zero_eq] at decoded
    cases decoded
  · generalize (Dialect.base.lookup core.opcode).addressingMode = mode at decoded assigned
    have staged_mem : routine ∈ (Dialect.base.lookup core.opcode).staged := by
      rw [decoded]
      rfl
    have endless := Dialect.base.lookup_endless core.opcode
    simp only [decoded, Dispatch.slot, Option.mem_def, Option.some.injEq, exists_eq_left']
      at endless
    rw [KeepsTime, endless, ← timesWell_iff decoded]
    constructor
    · rintro ⟨other, otherMode, other_eq, limit, calls, after, ended, cycles_eq⟩
      obtain ⟨rfl, rfl⟩ : routine = other ∧ mode = otherMode := by
        simpa [Dispatch.slot] using decoded.symm.trans other_eq
      have ends : mode ∉ routine.endlessModes := by
        intro mode_endless
        rw [routine.runCalls_of_endless mode_endless] at ended
        cases ended
      have performed := routine.staged_performs assigned ends (core.fetched retained)
      obtain ⟨rfl, -⟩ := Prod.mk.inj (runCalls_unique ended performed)
      exact ⟨solid, ends,
        (Routine.straight_cycles_iff (lookup_nmos _ _ staged_mem) assigned ends core retained).mp
          cycles_eq⟩
    · rintro ⟨-, ends, well⟩
      refine ⟨routine, mode, decoded, 7, _, _,
        routine.staged_performs assigned ends (core.fetched retained), ?_⟩
      exact (Routine.straight_cycles_iff (lookup_nmos _ _ staged_mem) assigned ends core
        retained).mpr well

/-- Memory filled with `LDA #` keeps time. -/
theorem timely_A9 :
    Timely { memory := fun _ => 0xA9, registers := Registers.reset } Locals.zero :=
  (timely_iff { memory := fun _ => 0xA9, registers := Registers.reset } Locals.zero
    (by decide)).mpr ⟨by decide, by decide, by decide, by decide⟩

/-- `CMP` of the zero page ends in its first call. -/
theorem not_timely_C5 :
    (Dialect.base.lookup 0xC5).addressingMode = .zeropage ∧
      ¬ Timely { memory := fun _ => 0xC5, registers := Registers.reset } Locals.zero := by
  refine ⟨by decide, ?_⟩
  rintro ⟨routine, mode, decoded, limit, calls, after, ended, cycles_eq⟩
  obtain ⟨rfl, rfl⟩ : Routine.CMP = routine ∧ AddressingMode.zeropage = mode := by
    have named := congrArg Dispatch.staged decoded
    exact ⟨Option.some.inj named, congrArg Dispatch.addressingMode decoded⟩
  have assigned : AddressingMode.zeropage ∈ Routine.CMP.modes := by decide
  have performed := Routine.CMP.staged_performs assigned (by decide)
    (Core.fetched { memory := fun _ => 0xC5, registers := Registers.reset } Locals.zero : Frame Ram)
  obtain ⟨rfl, -⟩ := Prod.mk.inj (runCalls_unique ended performed)
  exact absurd cycles_eq (by decide)

end Core
end System6502
