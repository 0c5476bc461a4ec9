import System6502.Executor.Instruction
import System6502.Isa.Counterpart

/-!
# The 65C02 as a refinement of the base dialect

Whether an instruction of the base table ends with the same registers and the same memory when the
table of the 65C02 executes it, but for the differences that the two processors document.
-/

namespace System6502

open Lib System6502.Frame

theorem Dialect.lookup_counterpart :
    ∀ opcode, ∀ routine ∈ (Dialect.base.lookup opcode).staged,
      Dialect.cmos.lookup opcode =
        Dispatch.slot routine.counterpart (Dialect.base.lookup opcode).addressingMode := by
  decide +kernel

theorem Routine.endless_plain (routine : Routine) : ∀ mode ∈ routine.endlessModes,
    mode ∉ routine.revisedModes ∧ mode ∉ routine.residueModes := by
  cases routine <;> decide

namespace Run

/-- The run under the table of a dialect. -/
def speaking {μ : Type*} (run : Run μ) (dialect : Dialect) : Run μ :=
  run.onExecutor fun executor => { executor with dialect }

theorem Undisturbed.speaking {μ : Type*} {run : Run μ} (undisturbed : run.Undisturbed)
    (dialect : Dialect) : (run.speaking dialect).Undisturbed :=
  ⟨undisturbed.noRequest, undisturbed.noTransfer⟩

theorem Fetching.speaking {μ : Type*} {run : Run μ} (fetching : run.Fetching)
    (dialect : Dialect) : (run.speaking dialect).Fetching := fetching

/-- The registers without what the documented differences leave open: the program counter after an
indirect jump through a pointer at a page end, the D flag after `BRK`, and the N, V and Z flags of
`ADC` and `SBC` in decimal mode. -/
def settle (start : Run Ram) :
    Routine → AddressingMode → Registers → Registers
  | .JMP, .indirect, registers =>
      if start.executor.memory (start.executor.registers.PC + 1) = 0xFF then
        { registers with PC := 0 }
      else registers
  | .BRK, _, registers => registers.setBit Registers.bitD false
  | .ADC, _, registers | .SBC, _, registers =>
      if start.executor.registers.getBit Registers.bitD then
        { registers with
          SR := registers.SR &&& ~~~(Registers.bitN ||| Registers.bitV ||| Registers.bitZ) }
      else registers
  | _, _, registers => registers

/-- If the instruction ends under the base table, it ends under the table of the 65C02 with the same
memory and, but for the documented differences, the same registers. -/
def Refines (start : Run Ram) : Prop :=
  let decoded := Dialect.base.lookup start.nextOpcode
  ∀ final, Executes .staged (start.speaking .base) final →
    ∃ other, Executes .staged (start.speaking .cmos) other ∧
      other.executor.memory = final.executor.memory ∧
      ∀ routine ∈ decoded.staged,
        start.settle routine decoded.addressingMode other.executor.registers =
          start.settle routine decoded.addressingMode final.executor.registers

/-- The registers and leftover variables with which a routine and its counterpart agree: `ASL A`
rotates to the left on the 65C02, so the carry must be clear; `ROR A` rotates to the left, so the
accumulator and the carry must be uniform; `CMP` compares with an operand that an earlier `CMP` of
the same dialect has left, or in the absolute mode with the byte at an address it has left. -/
def AgreesOn (start : Run Ram) : Routine → AddressingMode → Prop
  | .ASL, .accumulator => start.executor.registers.getBit Registers.bitC = false
  | .ROR, .accumulator =>
      (start.executor.registers.A = 0x00 ∧
          start.executor.registers.getBit Registers.bitC = false) ∨
        (start.executor.registers.A = 0xFF ∧
          start.executor.registers.getBit Registers.bitC = true)
  | .CMP, .zeropage | .CMP, .zeropageXIndexed | .CMP, .xIndexedIndirect
  | .CMP, .indirectYIndexed =>
      ComparesAlike start.executor.registers.A
        (start.executor.statics .CMP65C02).OPERAND.toByte
        (start.executor.statics .CMP).OPERAND.toByte
  | .CMP, .absolute =>
      ComparesAlike start.executor.registers.A
        (start.executor.memory (start.executor.statics .CMP65C02).ADDR8.toWord)
        (start.executor.memory (start.executor.statics .CMP).ADDR8.toWord)
  | _, _ => True

/-- The instruction at the program counter finds registers and leftover variables with which both
dialects agree. -/
def DialectsAgree (start : Run Ram) : Prop :=
  ∀ routine ∈ (Dialect.base.lookup start.nextOpcode).staged,
    start.AgreesOn routine (Dialect.base.lookup start.nextOpcode).addressingMode

theorem agreesOn_of_kept (start : Run Ram) {routine : Routine} {mode : AddressingMode}
    (kept : mode ∉ routine.revisedModes) (fresh : mode ∉ routine.residueModes) :
    start.AgreesOn routine mode := by
  unfold AgreesOn
  split
  · exact absurd List.mem_cons_self kept
  · exact absurd List.mem_cons_self kept
  · exact absurd (by decide) fresh
  · exact absurd (by decide) fresh
  · exact absurd (by decide) fresh
  · exact absurd (by decide) fresh
  · exact absurd (by decide) fresh
  · trivial

section Decoded

variable {routine : Routine} {mode : AddressingMode} {start : Run Ram}

/-- The dialects agree on an instruction that ends when the straight-line programs of both routines
leave the same. -/
theorem refines_iff_programs (fetching : start.Fetching) (undisturbed : start.Undisturbed)
    (decoded : Dialect.base.lookup start.nextOpcode = Dispatch.slot routine mode)
    (defined : mode ≠ .undefined) (assigned : mode ∈ routine.modes)
    (ends : mode ∉ routine.endlessModes) :
    start.Refines ↔
      let base := routine.straight mode (start.fetched (start.executor.statics routine))
      let cmos := routine.counterpart.straight mode
        (start.fetched (start.executor.statics routine.counterpart))
      cmos.1.memory = base.1.memory ∧
        start.settle routine mode cmos.1.registers =
          start.settle routine mode base.1.registers := by
  have named : (Dialect.base.lookup start.nextOpcode).staged = some routine := by rw [decoded]; rfl
  have mode_eq : (Dialect.base.lookup start.nextOpcode).addressingMode = mode := by
    rw [decoded]
    rfl
  have decodedCmos := Dialect.lookup_counterpart start.nextOpcode routine named
  rw [mode_eq] at decodedCmos
  obtain ⟨assignedCmos, endsCmos, -⟩ := routine.counterpart_modes mode assigned
  obtain ⟨⟨baseFinal, baseExecutes⟩, baseOutcome⟩ :=
    executes_straight (fetching.speaking .base) (undisturbed.speaking .base) decoded defined
      assigned ends
  obtain ⟨⟨cmosFinal, cmosExecutes⟩, cmosOutcome⟩ :=
    executes_straight (fetching.speaking .cmos) (undisturbed.speaking .cmos) decodedCmos defined
      assignedCmos fun endless => ends (endsCmos endless)
  have baseCore : ∀ final, Executes .staged (start.speaking .base) final → final.executor.core =
      (routine.straight mode (start.fetched (start.executor.statics routine))).1.core :=
    fun final executes => congrArg Frame.core (baseOutcome final executes).1
  have cmosCore : ∀ final, Executes .staged (start.speaking .cmos) final → final.executor.core =
      (routine.counterpart.straight mode
        (start.fetched (start.executor.statics routine.counterpart))).1.core :=
    fun final executes => congrArg Frame.core (cmosOutcome final executes).1
  constructor
  · intro refines
    obtain ⟨other, otherExecutes, memory_eq, settle_eq⟩ := refines baseFinal baseExecutes
    obtain ⟨baseMemory, baseRegisters⟩ := Core.mk.inj (baseCore baseFinal baseExecutes)
    obtain ⟨cmosMemory, cmosRegisters⟩ := Core.mk.inj (cmosCore other otherExecutes)
    have settled := settle_eq routine named
    rw [mode_eq, cmosRegisters, baseRegisters] at settled
    exact ⟨cmosMemory.symm.trans (memory_eq.trans baseMemory), settled⟩
  · rintro ⟨memory_eq, settled⟩ final executes
    obtain ⟨baseMemory, baseRegisters⟩ := Core.mk.inj (baseCore final executes)
    obtain ⟨cmosMemory, cmosRegisters⟩ := Core.mk.inj (cmosCore cmosFinal cmosExecutes)
    refine ⟨cmosFinal, cmosExecutes, ?_, fun other other_eq => ?_⟩
    · rw [cmosMemory, baseMemory]
      exact memory_eq
    · obtain rfl : routine = other := Option.some.inj (named.symm.trans other_eq)
      rw [mode_eq, cmosRegisters, baseRegisters]
      exact settled

theorem refines_iff_registers (fetching : start.Fetching) (undisturbed : start.Undisturbed)
    (decoded : Dialect.base.lookup start.nextOpcode = Dispatch.slot routine mode)
    (defined : mode ≠ .undefined) (assigned : mode ∈ routine.modes)
    (ends : mode ∉ routine.endlessModes)
    (settles : ∀ registers, start.settle routine mode registers = registers)
    (memory_eq :
      (routine.counterpart.straight mode
          (start.fetched (start.executor.statics routine.counterpart))).1.memory =
        (routine.straight mode (start.fetched (start.executor.statics routine))).1.memory) :
    start.Refines ↔
      (routine.counterpart.straight mode
          (start.fetched (start.executor.statics routine.counterpart))).1.registers =
        (routine.straight mode (start.fetched (start.executor.statics routine))).1.registers := by
  rw [refines_iff_programs fetching undisturbed decoded defined assigned ends]
  dsimp only
  rw [settles, settles]
  exact and_iff_right memory_eq

/-- A routine that forgets what it retains, in a mode that the 65C02 does not revise, refines. -/
theorem refines_of_kept (fetching : start.Fetching) (undisturbed : start.Undisturbed)
    (decoded : Dialect.base.lookup start.nextOpcode = Dispatch.slot routine mode)
    (defined : mode ≠ .undefined) (assigned : mode ∈ routine.modes)
    (ends : mode ∉ routine.endlessModes) (kept : mode ∉ routine.revisedModes)
    (fresh : mode ∉ routine.residueModes) : start.Refines := by
  obtain ⟨assignedCmos, endsCmos, freshCmos⟩ := routine.counterpart_modes mode assigned
  have core_eq :
      (routine.counterpart.straight mode
          (start.fetched (start.executor.statics routine.counterpart))).1.core =
        (routine.straight mode (start.fetched (start.executor.statics routine))).1.core :=
    (routine.counterpart.straight_core_of_fresh assignedCmos
      (fun endless => ends (endsCmos endless)) (fun residue => fresh (freshCmos residue))
      _ _ _ _).trans
        (routine.counterpart_core assigned kept _)
  obtain ⟨memory_eq, registers_eq⟩ := Core.mk.inj core_eq
  exact (refines_iff_programs fetching undisturbed decoded defined assigned ends).mpr
    ⟨memory_eq, congrArg _ registers_eq⟩

theorem pointer_low_iff (start : Run Ram) (locals : Locals) :
    (start.fetched locals).fetchLow.fetchHigh.locals.ADDR16 &&& 0x00FF = 0x00FF ↔
      start.executor.memory (start.executor.registers.PC + 1) = 0xFF := by
  have masked : ∀ low high : Byte, Word.littleEndian low high &&& 0x00FF = low.toWord := by
    intro low high
    have mask : ∀ index : Fin 16, (0x00FF : Word)[index] = decide (index.val < 8) := by decide
    ext index index_lt
    have here := mask ⟨index, index_lt⟩
    simp only [Fin.getElem_fin] at here
    simp only [Word.littleEndian, Byte.toWord, BitVec.getElem_and, here]
    grind
  change Word.littleEndian (start.executor.memory (start.executor.registers.PC + 1)) _ &&& 0x00FF =
    Byte.toWord 0xFF ↔ _
  rw [masked, Word.toWord_inj]

theorem refines_JMP_indirect (fetching : start.Fetching) (undisturbed : start.Undisturbed)
    (decoded : Dialect.base.lookup start.nextOpcode = Dispatch.slot .JMP .indirect) :
    start.Refines := by
  rw [refines_iff_programs fetching undisturbed decoded nofun (by decide) (by decide)]
  dsimp only
  by_cases pageEnd : start.executor.memory (start.executor.registers.PC + 1) = 0xFF
  · refine ⟨rfl, ?_⟩
    simp only [settle, if_pos pageEnd]
    rfl
  · have within :
        ¬ (start.fetched (start.executor.statics .JMP65C02)).fetchLow.fetchHigh.locals.ADDR16 &&&
          0x00FF = 0x00FF := fun ends => pageEnd ((pointer_low_iff start _).mp ends)
    have core_eq := (jmp_indirect_core within).trans
      (Routine.JMP.straight_core_of_fresh (by decide) (by decide) (by decide) _ _ _
        (start.executor.statics .JMP))
    obtain ⟨memory_eq, registers_eq⟩ := Core.mk.inj core_eq
    exact ⟨memory_eq, congrArg _ registers_eq⟩

theorem refines_BRK (fetching : start.Fetching) (undisturbed : start.Undisturbed)
    (decoded : Dialect.base.lookup start.nextOpcode = Dispatch.slot .BRK .implied) :
    start.Refines := by
  rw [refines_iff_programs fetching undisturbed decoded nofun (by decide) (by decide)]
  obtain ⟨memory_eq, registers_eq⟩ := brk_core (start.fetched (start.executor.statics .BRK65C02))
  have core_eq :
      (Routine.BRK.straight .implied (start.fetched (start.executor.statics .BRK65C02))).1.core =
        (Routine.BRK.straight .implied (start.fetched (start.executor.statics .BRK))).1.core :=
    Routine.BRK.straight_core_of_fresh (by decide) (by decide) (by decide) _ _ _ _
  obtain ⟨memory_eq', registers_eq'⟩ := Core.mk.inj core_eq
  exact ⟨memory_eq.trans memory_eq',
    registers_eq.trans (congrArg (start.settle .BRK .implied) registers_eq')⟩

/-- An instruction that ends refines exactly when the registers and the leftover variables suit. -/
theorem refines_iff_agreesOn (fetching : start.Fetching) (undisturbed : start.Undisturbed)
    (decoded : Dialect.base.lookup start.nextOpcode = Dispatch.slot routine mode)
    (defined : mode ≠ .undefined) (assigned : mode ∈ routine.modes)
    (ends : mode ∉ routine.endlessModes) : start.Refines ↔ start.AgreesOn routine mode := by
  by_cases revised : mode ∈ routine.revisedModes
  · cases routine with
    | ASL =>
        obtain rfl : mode = .accumulator := by simpa [Routine.revisedModes] using revised
        rw [refines_iff_registers fetching undisturbed decoded defined assigned ends
          (fun _ => rfl) rfl]
        exact rotateLeft_shiftLeft_iff (start.fetched Locals.zero)
    | ROR =>
        obtain rfl : mode = .accumulator := by simpa [Routine.revisedModes] using revised
        rw [refines_iff_registers fetching undisturbed decoded defined assigned ends
          (fun _ => rfl) rfl]
        exact rotateLeft_rotateRight_iff (start.fetched Locals.zero)
    | BRK =>
        obtain rfl : mode = .implied := by simpa [Routine.revisedModes] using revised
        exact iff_of_true (refines_BRK fetching undisturbed decoded) trivial
    | JMP =>
        obtain rfl : mode = .indirect := by simpa [Routine.revisedModes] using revised
        exact iff_of_true (refines_JMP_indirect fetching undisturbed decoded) trivial
    | _ => exact absurd revised List.not_mem_nil
  · by_cases residue : mode ∈ routine.residueModes
    · cases routine with
      | CMP =>
          cases mode with
          | absolute =>
              rw [refines_iff_registers fetching undisturbed decoded defined assigned ends
                (fun _ => rfl) rfl]
              exact cmp_absolute_registers_iff _ _ _ _
          | zeropage | zeropageXIndexed | xIndexedIndirect | indirectYIndexed =>
              rw [refines_iff_registers fetching undisturbed decoded defined assigned ends
                (fun _ => rfl) rfl]
              exact compareA_registers_eq_iff rfl
          | zeropageIndirect => exact absurd assigned (by decide)
          | _ => exact absurd residue (by decide)
      | CMP65C02 | STZ65C02 =>
          refine iff_of_true ?_ (by cases mode <;> trivial)
          rw [refines_iff_registers fetching undisturbed decoded defined assigned ends
            (fun _ => by cases mode <;> rfl) rfl]
          rfl
      | _ => exact absurd residue List.not_mem_nil
    · exact iff_of_true (refines_of_kept fetching undisturbed decoded defined assigned ends revised
        residue) (start.agreesOn_of_kept revised residue)

end Decoded

/-- An instruction of the base dialect does the same under the table of the 65C02 exactly when it
finds registers and leftover variables with which both dialects agree. -/
theorem refines_iff (start : Run Ram) (fetching : start.Fetching) (undisturbed : start.Undisturbed)
    (defined : (Dialect.base.lookup start.nextOpcode).addressingMode ≠ .undefined) :
    start.Refines ↔ start.DialectsAgree := by
  have never : (∀ final, ¬ Executes .staged (start.speaking .base) final) → start.Refines :=
    fun never final executes => absurd executes (never final)
  rcases Dialect.base.lookup_cases start.nextOpcode defined with
    ⟨-, zero_eq⟩ | ⟨routine, -, slot_eq, assigned⟩
  · refine iff_of_true (never ?_) fun routine named => ?_
    · exact not_executes_of_null (fetching.speaking .base) (undisturbed.speaking .base) zero_eq
    · rw [zero_eq] at named
      cases named
  · have agree_iff : start.DialectsAgree ↔
        start.AgreesOn routine (Dialect.base.lookup start.nextOpcode).addressingMode := by
      have named : (Dialect.base.lookup start.nextOpcode).staged = some routine := by
        rw [slot_eq]
        rfl
      simp only [DialectsAgree, named, Option.mem_def, Option.some.injEq, forall_eq']
    rw [agree_iff]
    by_cases endless :
        (Dialect.base.lookup start.nextOpcode).addressingMode ∈ routine.endlessModes
    · refine iff_of_true (never ?_) ?_
      · exact not_executes_of_endless (fetching.speaking .base) (undisturbed.speaking .base) slot_eq
          defined endless
      · obtain ⟨kept, fresh⟩ := routine.endless_plain _ endless
        exact start.agreesOn_of_kept kept fresh
    · exact refines_iff_agreesOn fetching undisturbed slot_eq defined assigned endless

/-- A launch on a memory filled with `ASL A`, with the given status register. -/
def shiftingA (SR : Byte) : Run Ram :=
  Run.launch (Executor.alloc { Registers.reset with SR } (fun _ => 0x0A) .base)
    { addrLo := 0, addrLen := 0xFFFF } 0x0200 Loop.zero

theorem shiftingA_decoded (SR : Byte) :
    Dialect.base.lookup (shiftingA SR).nextOpcode = Dispatch.slot .ASL .accumulator := by
  change Dialect.base.lookup 0x0A = _
  decide

/-- With the carry clear the rotation of the 65C02 is the shift of the base dialect. -/
theorem refines_0A : (shiftingA 0x00).Refines :=
  (refines_iff (shiftingA 0x00) ⟨rfl, rfl, by decide⟩ ⟨rfl, rfl⟩ (by
    rw [shiftingA_decoded]
    decide)).mpr fun routine named => by
      rw [shiftingA_decoded] at named ⊢
      obtain rfl : Routine.ASL = routine := Option.some.inj named
      rfl

/-- With the carry set the 65C02 shifts it into the accumulator. -/
theorem not_refines_0A : ¬ (shiftingA Registers.bitC).Refines := by
  rw [refines_iff_agreesOn ⟨rfl, rfl, by decide⟩ ⟨rfl, rfl⟩ (shiftingA_decoded Registers.bitC)
    (by decide) (by decide) (by decide)]
  exact Bool.noConfusion

end Run
end System6502
