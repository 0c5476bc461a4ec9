import System6502.Isa.Decode

/-!
# Effective addresses

The reference address of an operand in each addressing mode, and when the staged functions that
load, combine, compare or store one operand use it.
-/

namespace System6502

open System6502.Frame

/-- The address of the operand of an instruction whose first byte after the opcode lies at
`operand`. -/
def effectiveAddress (memory : Ram) (registers : Registers) (operand : Word) :
    AddressingMode → Word
  | .zeropage => (memory operand).toWord
  | .zeropageXIndexed => (memory operand + registers.X).toWord
  | .zeropageYIndexed => (memory operand + registers.Y).toWord
  | .absolute => Word.littleEndian (memory operand) (memory (operand + 1))
  | .absoluteXIndexed =>
      Word.littleEndian (memory operand) (memory (operand + 1)) + registers.X.toWord
  | .absoluteYIndexed =>
      Word.littleEndian (memory operand) (memory (operand + 1)) + registers.Y.toWord
  | .xIndexedIndirect =>
      let pointer := memory operand + registers.X
      Word.littleEndian (memory pointer.toWord) (memory (pointer + 1).toWord)
  | .indirectYIndexed =>
      let pointer := memory operand
      Word.littleEndian (memory pointer.toWord) (memory (pointer + 1).toWord) +
        registers.Y.toWord
  | .zeropageIndirect =>
      let pointer := memory operand
      Word.littleEndian (memory pointer.toWord) (memory (pointer + 1).toWord)
  | _ => operand

namespace Routine

/-- The operand a load, an arithmetic instruction or a comparison has used, from the locals it
leaves: `SBC` has complemented it in place, and a byte-wide variable has its low byte only. -/
def operandUsed (locals : Locals) : Routine → Word
  | ADC | ADC65C02 | CPX | CPY => locals.OPERAND
  | SBC | SBC65C02 => ~~~locals.OPERAND
  | _ => locals.OPERAND.toByte.toWord

/-- The loads, arithmetic instructions and comparisons. -/
def loads : Routine → Bool
  | LDA | LDA65C02 | LDX | LDY | ADC | ADC65C02 | SBC | SBC65C02 | AND | AND65C02 | ORA | ORA65C02
  | EOR | EOR65C02 | CMP | CMP65C02 | CPX | CPY | BIT | BIT65C02 => true
  | _ => false

/-- The value a store writes. -/
def stored : Routine → Option (Registers → Byte)
  | STA | STA65C02 => some Registers.A
  | STX => some Registers.X
  | STY => some Registers.Y
  | STZ65C02 => some fun _ => 0x00
  | _ => none

end Routine

namespace Frame

/-- The effective address, from the frame after the opcode fetch. -/
def address (frame : Frame (Traced Ram)) (mode : AddressingMode) : Word :=
  effectiveAddress frame.memory.bus frame.registers frame.registers.PC mode

/-- The address at which `LDA` reads. -/
def ldaAddress (frame : Frame (Traced Ram)) : AddressingMode → Word
  | .xIndexedIndirect =>
      (frame.memory.bus
        (frame.memory.bus frame.registers.PC + frame.registers.X).toWord).toWord
  | .indirectYIndexed =>
      let pointer := frame.memory.bus frame.registers.PC
      (frame.memory.bus pointer.toWord ||| frame.memory.bus (pointer + 1).toWord).toWord +
        frame.registers.Y.toWord
  | .zeropageIndirect =>
      let pointer := frame.memory.bus frame.registers.PC
      (frame.memory.bus pointer.toWord ||| frame.memory.bus (pointer + 1).toWord).toWord
  | mode => frame.address mode

/-- What `CMP` compares with. -/
def cmpOperand (frame : Frame (Traced Ram)) : AddressingMode → Byte
  | .zeropage | .zeropageXIndexed | .xIndexedIndirect | .indirectYIndexed | .zeropageIndirect =>
      frame.locals.OPERAND.toByte
  | .absolute => frame.memory.bus frame.locals.ADDR8.toWord
  | mode => frame.memory.bus (frame.address mode)

end Frame

namespace Core

/-- The effective address of the instruction at the program counter. -/
def address (core : Core (Traced Ram)) (mode : AddressingMode) : Word :=
  effectiveAddress core.memory.bus core.registers (core.registers.PC + 1) mode

end Core

namespace Routine

/-- The instruction at the program counter uses the operand at its effective address or makes its
single write there, and goes on after its operand bytes. -/
structure Addresses (routine : Routine) (mode : AddressingMode) (core : Core (Traced Ram))
    (after : Frame (Traced Ram)) : Prop where
  /-- The operand used is the byte at the effective address. -/
  reads : routine.loads → routine.operandUsed after.locals =
    (core.memory.bus (core.address mode)).toWord
  /-- The single write goes to the effective address. -/
  writes : ∀ value ∈ routine.stored, Traced.writes after.memory.log =
    (core.address mode, value core.registers) :: Traced.writes core.memory.log
  /-- The program counter ends after the operand bytes. -/
  PC_eq : ∃ count ∈ mode.operandCount,
    after.registers.PC = core.registers.PC + 1 + BitVec.ofNat 16 count

/-- The misread addresses and the stale locals with which the addressing switches of `LDA`, `CMP`
and `STZ` do no harm. -/
def AddressesWell (routine : Routine) (mode : AddressingMode) (frame : Frame (Traced Ram)) :
    Prop :=
  match routine with
  | LDA | LDA65C02 =>
      frame.memory.bus (frame.ldaAddress mode) = frame.memory.bus (frame.address mode)
  | CMP | CMP65C02 => frame.cmpOperand mode = frame.memory.bus (frame.address mode)
  | STZ65C02 => mode = .zeropage → frame.locals.ADDR16 = frame.address mode
  | _ => True

end Routine

/-! ## Addressing programs -/

/-- A program leaves a byte in `OPERAND` and ends after the operand bytes. -/
def LeavesOperand (program : StaticHandler (Traced Ram)) (mode : AddressingMode)
    (frame : Frame (Traced Ram)) (value : Byte) : Prop :=
  (program frame).1.locals.OPERAND = value.toWord ∧
    ∃ count ∈ mode.operandCount,
      (program frame).1.registers.PC = frame.registers.PC + BitVec.ofNat 16 count

theorem loadStaticAccess_leavesOperand {mode : AddressingMode} (assigned : mode ∈ operandModes)
    (frame : Frame (Traced Ram)) :
    LeavesOperand (loadStaticAccess mode) mode frame (frame.memory.bus (frame.address mode)) := by
  cases mode with
  | immediate | zeropage | zeropageXIndexed | xIndexedIndirect | indirectYIndexed =>
      exact ⟨rfl, 1, rfl, rfl⟩
  | absolute | absoluteXIndexed | absoluteYIndexed =>
      exact ⟨rfl, 2, rfl, by change frame.registers.PC + 1 + 1 = _; bv_omega⟩
  | _ => simp [operandModes] at assigned

theorem loadStaticAccess65C02_leavesOperand {mode : AddressingMode}
    (assigned : mode ∈ operandModes65C02) (frame : Frame (Traced Ram)) :
    LeavesOperand (loadStaticAccess65C02 mode) mode frame
      (frame.memory.bus (frame.address mode)) := by
  rcases List.mem_cons.mp assigned with rfl | assigned
  · exact ⟨rfl, 1, rfl, rfl⟩
  · have leaves := loadStaticAccess_leavesOperand assigned frame
    cases mode with
    | zeropageIndirect => simp [operandModes] at assigned
    | _ => exact leaves

theorem decimalStraight_leavesOperand {mode : AddressingMode} (assigned : mode ∈ operandModes)
    (frame : Frame (Traced Ram)) :
    LeavesOperand (decimalStraight mode) mode frame (frame.memory.bus (frame.address mode)) := by
  have leaves := loadStaticAccess_leavesOperand assigned frame.latchBCD
  cases mode with
  | immediate | zeropage | zeropageXIndexed | xIndexedIndirect | indirectYIndexed | absolute
  | absoluteXIndexed | absoluteYIndexed => exact leaves
  | _ => simp [operandModes] at assigned

theorem ldaStraight_leavesOperand {mode : AddressingMode} (assigned : mode ∈ operandModes65C02)
    (frame : Frame (Traced Ram)) :
    LeavesOperand (ldaStraight mode) mode frame (frame.memory.bus (frame.ldaAddress mode)) := by
  cases mode with
  | immediate | zeropage | zeropageXIndexed | xIndexedIndirect =>
      exact ⟨rfl, 1, rfl, rfl⟩
  | indirectYIndexed | zeropageIndirect =>
      refine ⟨?_, 1, rfl, rfl⟩
      rw [ldaAddress, ← Byte.toWord_or]
      rfl
  | absolute | absoluteXIndexed | absoluteYIndexed =>
      exact ⟨rfl, 2, rfl, by change frame.registers.PC + 1 + 1 = _; bv_omega⟩
  | _ => simp [operandModes65C02, operandModes] at assigned

/-- A store assembles its address and ends after the operand bytes, without a write. -/
def LeavesAddress (program : StaticHandler (Traced Ram)) (mode : AddressingMode)
    (frame : Frame (Traced Ram)) (address : Word) : Prop :=
  (program frame).1.locals.ADDR16 = address ∧
    Traced.writes (program frame).1.memory.log = Traced.writes frame.memory.log ∧
    ∃ count ∈ mode.operandCount,
      (program frame).1.registers =
        { frame.registers with PC := frame.registers.PC + BitVec.ofNat 16 count }

/-- The addressing modes of the stores that end. -/
def storeModes : List AddressingMode :=
  [.zeropage, .zeropageXIndexed, .zeropageYIndexed, .absolute, .absoluteXIndexed,
    .absoluteYIndexed, .zeropageIndirect]

theorem storeStraight_leavesAddress {mode : AddressingMode} (assigned : mode ∈ storeModes)
    (frame : Frame (Traced Ram)) :
    LeavesAddress (storeStraight mode) mode frame (frame.address mode) := by
  cases mode with
  | zeropage | zeropageXIndexed | zeropageYIndexed | zeropageIndirect =>
      exact ⟨rfl, rfl, 1, rfl, rfl⟩
  | absolute | absoluteXIndexed | absoluteYIndexed =>
      refine ⟨rfl, rfl, 2, rfl, ?_⟩
      have PC_eq : frame.registers.PC + 1 + 1 = frame.registers.PC + BitVec.ofNat 16 2 := by
        bv_omega
      rw [← PC_eq]
      rfl
  | _ => simp [storeModes] at assigned

/-- The zero-page `STZ` writes at the stale `ADDR16`. -/
theorem stzStraight_leavesADDR16 (frame : Frame (Traced Ram)) :
    LeavesAddress (stzStraight .zeropage) .zeropage frame frame.locals.ADDR16 :=
  ⟨rfl, rfl, 1, rfl, rfl⟩

theorem cmpStraight_leavesByte {mode : AddressingMode} (assigned : mode ∈ operandModes65C02)
    (frame : Frame (Traced Ram)) :
    (cmpStraight mode frame).1.locals.OPERAND.toByte = frame.cmpOperand mode ∧
      ∃ count ∈ mode.operandCount, (cmpStraight mode frame).1.registers.PC =
        frame.registers.PC + BitVec.ofNat 16 count := by
  cases mode with
  | immediate => exact ⟨Word.toByte_toWord _, 1, rfl, rfl⟩
  | zeropage | zeropageXIndexed | xIndexedIndirect | indirectYIndexed | zeropageIndirect =>
      exact ⟨rfl, 1, rfl, rfl⟩
  | absolute | absoluteXIndexed | absoluteYIndexed =>
      exact ⟨Word.toByte_toWord _, 2, rfl, by change frame.registers.PC + 1 + 1 = _; bv_omega⟩
  | _ => simp [operandModes65C02, operandModes] at assigned

/-! ## All routines -/

namespace Routine

theorem addresses_iff_of_used {routine : Routine} {mode : AddressingMode}
    {core : Core (Traced Ram)} {after : Frame (Traced Ram)} {value : Byte}
    (loads : routine.loads = true) (unstored : routine.stored = none)
    (used : routine.operandUsed after.locals = value.toWord)
    (PC_eq : ∃ count ∈ mode.operandCount,
      after.registers.PC = core.registers.PC + 1 + BitVec.ofNat 16 count) :
    routine.Addresses mode core after ↔ value = core.memory.bus (core.address mode) := by
  constructor
  · intro addresses
    exact Word.toWord_inj.mp (used.symm.trans (addresses.reads loads))
  · rintro rfl
    refine ⟨fun _ => used, fun stored stored_mem => ?_, PC_eq⟩
    rw [unstored] at stored_mem
    cases stored_mem

theorem addresses_iff_of_stored {routine : Routine} {mode : AddressingMode}
    {core : Core (Traced Ram)} {value : Registers → Byte} {address : Word}
    {program : StaticHandler (Traced Ram)} {retained : Locals}
    (loads : routine.loads = false) (stored : routine.stored = some value)
    (value_eq : ∀ registers PC, value (assignPC PC registers) = value registers)
    (leaves : LeavesAddress program mode (core.fetched retained) address) :
    routine.Addresses mode core
        (completingStatic program (storeAtADDR16 value) (core.fetched retained)).1 ↔
      address = core.address mode := by
  obtain ⟨address_eq, writes_eq, count, count_mem, registers_eq⟩ := leaves
  have written : Traced.writes (completingStatic program (storeAtADDR16 value)
      (core.fetched retained)).1.memory.log =
        (address, value core.registers) :: Traced.writes core.memory.log := by
    change ((program (core.fetched retained)).1.locals.ADDR16,
      value (program (core.fetched retained)).1.registers) ::
        Traced.writes (program (core.fetched retained)).1.memory.log = _
    rw [address_eq, writes_eq, registers_eq]
    exact congrArg (fun byte => (address, byte) :: _) (value_eq core.registers _)
  constructor
  · intro addresses
    have writes := addresses.writes value stored
    rw [written] at writes
    exact (Prod.mk.inj (List.cons.inj writes).1).1
  · rintro rfl
    refine ⟨fun reads => absurd (loads.symm.trans reads) Bool.false_ne_true, ?_, count,
      count_mem, congrArg Registers.PC registers_eq⟩
    intro other other_mem
    obtain rfl : value = other := Option.some.inj (stored.symm.trans other_mem)
    exact written

theorem addresses_of_leavesOperand {routine : Routine} {mode : AddressingMode}
    {core : Core (Traced Ram)} {retained : Locals} {program : StaticHandler (Traced Ram)}
    {finish : Frame (Traced Ram) → Frame (Traced Ram)} (loads : routine.loads = true)
    (unstored : routine.stored = none)
    (leaves : LeavesOperand program mode (core.fetched retained)
      (core.memory.bus (core.address mode)))
    (used : ∀ frame : Frame (Traced Ram), ∀ value : Byte, frame.locals.OPERAND = value.toWord →
      routine.operandUsed (finish frame).locals = value.toWord)
    (keeps : ∀ frame, (finish frame).registers.PC = frame.registers.PC) :
    routine.Addresses mode core
      (completingStatic program finish (core.fetched retained)).1 := by
  obtain ⟨operand_eq, count, count_mem, PC_eq⟩ := leaves
  refine (addresses_iff_of_used loads unstored (used _ _ operand_eq) ?_).mpr rfl
  exact ⟨count, count_mem, (keeps _).trans PC_eq⟩

theorem modes_subset_operandModes :
    ∀ routine ∈ [LDY, BIT, BIT65C02, CPX, CPY], routine.modes ⊆ operandModes := by
  decide

theorem modes_subset_storeModes :
    ∀ routine ∈ [STX, STY, STZ65C02], routine.modes ⊆ storeModes := by
  decide

theorem byteUsed {locals : Locals} {value : Byte} (operand_eq : locals.OPERAND = value.toWord) :
    locals.OPERAND.toByte.toWord = value.toWord := by
  rw [operand_eq, Word.toByte_toWord]

/-- In every mode in which it ends, a load, arithmetic instruction, comparison or store uses its
effective address exactly when its misread address or stale locals do no harm. -/
theorem straight_addresses_iff (routine : Routine) {mode : AddressingMode}
    (operates : routine.loads = true ∨ routine.stored.isSome)
    (assigned : mode ∈ routine.modes) (ends : mode ∉ routine.endlessModes)
    (core : Core (Traced Ram)) (retained : Locals) :
    routine.Addresses mode core (routine.straight mode (core.fetched retained)).1 ↔
      routine.AddressesWell mode (core.fetched retained) := by
  cases routine with
  | AND | ORA | EOR =>
      refine iff_of_true (addresses_of_leavesOperand rfl rfl
        (loadStaticAccess_leavesOperand assigned _) ?_ ?_) trivial
      · exact fun _ _ operand_eq => byteUsed operand_eq
      · exact fun _ => rfl
  | AND65C02 | ORA65C02 | EOR65C02 =>
      refine iff_of_true (addresses_of_leavesOperand rfl rfl
        (loadStaticAccess65C02_leavesOperand assigned _) ?_ ?_) trivial
      · exact fun _ _ operand_eq => byteUsed operand_eq
      · exact fun _ => rfl
  | ADC =>
      refine iff_of_true (addresses_of_leavesOperand rfl rfl
        (loadStaticAccess_leavesOperand assigned (core.fetched retained).latchBCD) ?_ ?_) trivial
      · exact fun _ _ operand_eq => operand_eq
      · exact fun _ => rfl
  | SBC =>
      refine iff_of_true (addresses_of_leavesOperand rfl rfl
        (loadStaticAccess_leavesOperand assigned (core.fetched retained).latchBCD) ?_ ?_) trivial
      · exact fun _ _ operand_eq => (BitVec.not_not).trans operand_eq
      · exact fun _ => rfl
  | ADC65C02 =>
      have indexed : mode ∈ operandModes := by
        simp_all [modes, endlessModes, operandModes65C02]
      refine iff_of_true (addresses_of_leavesOperand rfl rfl
        (decimalStraight_leavesOperand indexed _) ?_ ?_) trivial
      · exact fun _ _ operand_eq => operand_eq
      · exact fun _ => rfl
  | SBC65C02 =>
      have indexed : mode ∈ operandModes := by
        simp_all [modes, endlessModes, operandModes65C02]
      refine iff_of_true (addresses_of_leavesOperand rfl rfl
        (decimalStraight_leavesOperand indexed _) ?_ ?_) trivial
      · exact fun _ _ operand_eq => (BitVec.not_not).trans operand_eq
      · exact fun _ => rfl
  | LDX =>
      have loaded : mode ∈ operandModes := by
        simp_all [modes, endlessModes, operandModes]
        tauto
      refine iff_of_true (addresses_of_leavesOperand rfl rfl
        (loadStaticAccess_leavesOperand loaded _) ?_ ?_) trivial
      · exact fun _ _ operand_eq => byteUsed operand_eq
      · exact fun _ => rfl
  | LDY | BIT | BIT65C02 =>
      refine iff_of_true (addresses_of_leavesOperand rfl rfl
        (loadStaticAccess_leavesOperand (modes_subset_operandModes _ (by decide) assigned) _)
        ?_ ?_) trivial
      · exact fun _ _ operand_eq => byteUsed operand_eq
      · exact fun _ => rfl
  | CPX | CPY =>
      refine iff_of_true (addresses_of_leavesOperand rfl rfl
        (loadStaticAccess_leavesOperand (modes_subset_operandModes _ (by decide) assigned) _)
        ?_ ?_) trivial
      · exact fun _ _ operand_eq => operand_eq
      · exact fun _ => rfl
  | LDA =>
      have assigned : mode ∈ operandModes65C02 := List.mem_cons_of_mem _ assigned
      obtain ⟨operand_eq, PC_eq⟩ := ldaStraight_leavesOperand assigned (core.fetched retained)
      exact addresses_iff_of_used rfl rfl (byteUsed operand_eq) PC_eq
  | LDA65C02 =>
      obtain ⟨operand_eq, PC_eq⟩ := ldaStraight_leavesOperand assigned (core.fetched retained)
      exact addresses_iff_of_used rfl rfl (byteUsed operand_eq) PC_eq
  | CMP =>
      have assigned : mode ∈ operandModes65C02 := List.mem_cons_of_mem _ assigned
      obtain ⟨operand_eq, PC_eq⟩ := cmpStraight_leavesByte assigned (core.fetched retained)
      exact addresses_iff_of_used rfl rfl (congrArg Byte.toWord operand_eq) PC_eq
  | CMP65C02 =>
      obtain ⟨operand_eq, PC_eq⟩ := cmpStraight_leavesByte assigned (core.fetched retained)
      exact addresses_iff_of_used rfl rfl (congrArg Byte.toWord operand_eq) PC_eq
  | STA =>
      have stores : mode ∈ storeModes := by
        simp_all [modes, endlessModes, storeModes]
        tauto
      exact iff_of_true ((addresses_iff_of_stored rfl rfl (fun _ _ => rfl)
        (storeStraight_leavesAddress stores _)).mpr rfl) trivial
  | STA65C02 =>
      have stores : mode ∈ storeModes := by
        simp_all [modes, endlessModes, storeModes]
        tauto
      exact iff_of_true ((addresses_iff_of_stored rfl rfl (fun _ _ => rfl)
        (storeStraight_leavesAddress stores _)).mpr rfl) trivial
  | STX | STY =>
      have stores := modes_subset_storeModes _ (by decide) assigned
      exact iff_of_true ((addresses_iff_of_stored rfl rfl (fun _ _ => rfl)
        (storeStraight_leavesAddress stores _)).mpr rfl) trivial
  | STZ65C02 =>
      by_cases zeropage : mode = .zeropage
      · subst zeropage
        exact (addresses_iff_of_stored rfl rfl (fun _ _ => rfl)
          (stzStraight_leavesADDR16 _)).trans ⟨fun eq _ => eq, fun well => well rfl⟩
      · refine iff_of_true ((addresses_iff_of_stored rfl rfl (fun _ _ => rfl)
          (?_ : LeavesAddress (stzStraight mode) mode _ _)).mpr rfl) (fun eq => absurd eq zeropage)
        have stores := modes_subset_storeModes _ (by decide) assigned
        have leaves := storeStraight_leavesAddress stores (core.fetched retained)
        cases mode with
        | zeropage => exact absurd rfl zeropage
        | _ => exact leaves
  | _ => simp [loads, stored] at operates

end Routine

/-! ## The dispatch tables -/

/-- A load, arithmetic instruction, comparison or store that completes uses its effective address
exactly when its misread address or stale locals do no harm. -/
theorem Dialect.addresses_iff {dialect : Dialect} {routine : Routine} {mode : AddressingMode}
    (core : Core (Traced Ram)) (retained : Locals)
    (decoded : dialect.lookup core.opcode = Dispatch.slot routine mode)
    (operates : routine.loads = true ∨ routine.stored.isSome) {calls : Nat}
    {after : Frame (Traced Ram)}
    (completes : dialect.execute core.opcode (core.fetched retained) = some (calls, after)) :
    routine.Addresses mode core after ↔ routine.AddressesWell mode (core.fetched retained) := by
  have formed := dialect.lookup_wellFormed core.opcode
  rw [decoded] at formed
  have assigned : mode ∈ routine.modes := formed.2.1
  have ends : mode ∉ routine.endlessModes := by
    intro endless
    rw [execute, decoded] at completes
    cases (routine.runCalls_of_endless endless 7 1 _).symm.trans completes
  rw [execute_of_slot decoded assigned ends] at completes
  obtain ⟨-, rfl⟩ := Prod.mk.inj (Option.some.inj completes)
  exact routine.straight_addresses_iff operates assigned ends core retained

/-- Memory filled with one byte, with the program counter at `$0200`. -/
def Core.filled (byte : Byte) : Core (Traced Ram) where
  memory := { bus := fun _ => byte, log := [] }
  registers := { Registers.reset with PC := 0x0200 }

/-- `LDA #` in memory filled with its opcode. -/
theorem addresses_A9 :
    Routine.LDA.Addresses .immediate (Core.filled 0xA9)
      (Routine.LDA.straight .immediate ((Core.filled 0xA9).fetched Locals.zero)).1 :=
  (Dialect.addresses_iff (Core.filled 0xA9) Locals.zero (rfl : Dialect.base.lookup 0xA9 = _)
    (.inl rfl) rfl).mpr rfl

/-- `CMP` of the zero page in memory filled with its opcode compares with its stale operand. -/
theorem not_addresses_C5 :
    Dialect.base.lookup (Core.filled 0xC5).opcode = Dispatch.slot .CMP .zeropage ∧
      ∃ calls after,
        Dialect.base.execute 0xC5 ((Core.filled 0xC5).fetched Locals.zero) = some (calls, after) ∧
          ¬ Routine.CMP.Addresses .zeropage (Core.filled 0xC5) after := by
  refine ⟨rfl, _, _, rfl, fun addresses => ?_⟩
  exact absurd (addresses.reads rfl) (by decide)

end System6502
