import System6502.Isa.Addition
import System6502.Programs.Processor

/-!
# The rules of the instructions

What each instruction of the sample programs does to the processor, as a rule that puts it in front
of the rest of a run.  The costs are those of the staged functions of the base dialect.
-/

namespace System6502
namespace Programs

open Lib System6502.Frame

/-- The operand of an instruction, as it is written in a listing. -/
inductive Operand
  | immediate (value : Byte)
  /-- An immediate operand that the program writes itself. -/
  | patched
  | zeropage (address : Byte)
  | absolute (address : Word)
  | absoluteX (address : Word)
  deriving DecidableEq, Repr

namespace Operand

/-- Its addressing mode. -/
def mode : Operand → AddressingMode
  | immediate _ | patched => .immediate
  | zeropage _ => .zeropage
  | absolute _ => .absolute
  | absoluteX _ => .absoluteXIndexed

/-- The addressing modes of operands. -/
def modes : List AddressingMode := [.immediate, .zeropage, .absolute, .absoluteXIndexed]

theorem mode_mem (operand : Operand) : operand.mode ∈ modes := by
  cases operand <;> simp [mode, modes]

/-- Its bytes after the opcode. -/
def bytes : Operand → List Byte
  | immediate value => [value]
  | patched => []
  | zeropage address => [address]
  | absolute address => [address.low, address.high]
  | absoluteX address => [address.low, address.high]

/-- The address it stands for; an immediate operand has its place in the code. -/
def address (processor : Processor) : Operand → Word
  | immediate _ | patched => processor.PC + 1
  | zeropage address => address.toWord
  | absolute address => address
  | absoluteX address => address + processor.X.toWord

/-- Its value. -/
def value (image : Image) (processor : Processor) : Operand → Byte
  | immediate value => value
  | operand => image.laidOver processor.data (operand.address processor)

/-- The program counter after the instruction. -/
def next (PC : Word) : Operand → Word
  | immediate _ | patched | zeropage _ => PC + 2
  | absolute _ | absoluteX _ => PC + 3

/-- The calls that read it. -/
def calls (processor : Processor) : Operand → Nat
  | immediate _ | patched => 1
  | zeropage _ => 2
  | absolute _ => 3
  | absoluteX address =>
      3 + if address.SamePage (address + processor.X.toWord) then 0 else 1

/-- The calls of a store. -/
def storeCalls : Operand → Nat
  | immediate _ | patched => 0
  | zeropage _ => 2
  | absolute _ => 3
  | absoluteX _ => 4

/-- A store to it reaches no code. -/
def spares (image : Image) : Operand → Bool
  | immediate _ | patched => false
  | zeropage address => decide (image.Clear address.toWord)
  | absolute address => decide (image.Clear address)
  | absoluteX address => decide (∀ X : Byte, image.Clear (address + X.toWord))

theorem spares_iff {image : Image} {operand : Operand} (spares : operand.spares image = true)
    (processor : Processor) :
    operand.mode ≠ .immediate ∧ image.Clear (operand.address processor) := by
  cases operand with
  | immediate | patched => cases spares
  | zeropage | absolute => exact ⟨AddressingMode.noConfusion, of_decide_eq_true spares⟩
  | absoluteX => exact ⟨AddressingMode.noConfusion, of_decide_eq_true spares processor.X⟩

end Operand

variable {image : Image} {processor : Processor} {spent : Nat} {post : Nat → Processor → Prop}

/-! ## Operands -/

theorem advance_two (PC : Word) : PC + 1 + 1 = PC + 2 := by
  rw [BitVec.add_assoc]
  rfl

theorem advance_three (PC : Word) : PC + 1 + 1 + 1 = PC + 3 := by
  rw [BitVec.add_assoc, BitVec.add_assoc]
  rfl

/-- The bytes of an operand. -/
theorem holds_one {PC : Word} {byte : Byte} (bytes : image.holds PC [byte] = true) (data : Ram) :
    image.laidOver data PC = byte :=
  (Image.holds_cons bytes data).1

theorem holds_two {PC address : Word} (bytes : image.holds PC [address.low, address.high] = true)
    (data : Ram) :
    Word.littleEndian (image.laidOver data PC) (image.laidOver data (PC + 1)) = address := by
  obtain ⟨low_eq, further⟩ := Image.holds_cons bytes data
  rw [low_eq, (Image.holds_cons further data).1, Word.littleEndian_low_high]

/-- Reading an operand leaves its value in `OPERAND`. -/
theorem loadStaticAccess_operand (operand : Operand) (locals : Locals)
    (bytes : image.holds (processor.PC + 1) operand.bytes = true) :
    ∃ left,
      loadStaticAccess operand.mode
          { memory := image.laidOver processor.data
            registers := { processor with PC := processor.PC + 1 }.registers
            locals } =
          ({ memory := image.laidOver processor.data
             registers := { processor with PC := operand.next processor.PC }.registers
             locals := left }, operand.calls processor) ∧
        left.OPERAND = (operand.value image processor).toWord ∧ left.isBCD = locals.isBCD := by
  cases operand with
  | immediate value =>
      have value_eq := holds_one bytes processor.data
      refine ⟨{ locals with OPERAND := value.toWord }, ?_, rfl, rfl⟩
      rw [Operand.next, ← advance_two, ← value_eq]
      rfl
  | patched =>
      refine ⟨{ locals with OPERAND := (image.laidOver processor.data (processor.PC + 1)).toWord },
        ?_, rfl, rfl⟩
      rw [Operand.next, ← advance_two]
      rfl
  | zeropage address =>
      have address_eq := holds_one bytes processor.data
      refine ⟨{ locals with
        ADDR8 := address
        OPERAND := (image.laidOver processor.data address.toWord).toWord }, ?_, rfl, rfl⟩
      rw [Operand.next, ← advance_two, ← address_eq]
      rfl
  | absolute address =>
      have address_eq := holds_two bytes processor.data
      refine ⟨{ locals with
        ADDR16 := address
        OPERAND := (image.laidOver processor.data address).toWord }, ?_, rfl, rfl⟩
      rw [Operand.next, ← advance_three, ← address_eq]
      rfl
  | absoluteX address =>
      have address_eq := holds_two bytes processor.data
      refine ⟨{ locals with
        ADDR16PreIndex := address
        ADDR16 := address + processor.X.toWord
        OPERAND := (image.laidOver processor.data (address + processor.X.toWord)).toWord },
        ?_, rfl, rfl⟩
      rw [Operand.next, Operand.calls, ← advance_three, ← address_eq]
      refine Prod.ext rfl ?_
      exact congrArg (3 + ·) (pageCycle_eq _)

/-- So does a store leave its address in `ADDR16`. -/
theorem storeStraight_operand {operand : Operand} (locals : Locals)
    (proper : operand.mode ≠ .immediate)
    (bytes : image.holds (processor.PC + 1) operand.bytes = true) :
    ∃ left,
      storeStraight operand.mode
          { memory := image.laidOver processor.data
            registers := { processor with PC := processor.PC + 1 }.registers
            locals } =
          ({ memory := image.laidOver processor.data
             registers := { processor with PC := operand.next processor.PC }.registers
             locals := left }, operand.storeCalls) ∧
        left.ADDR16 = operand.address processor := by
  cases operand with
  | immediate | patched => exact absurd rfl proper
  | zeropage address =>
      refine ⟨{ locals with ADDR8 := address, ADDR16 := address.toWord }, ?_, rfl⟩
      rw [Operand.next, ← advance_two, ← holds_one bytes processor.data]
      rfl
  | absolute address =>
      refine ⟨{ locals with ADDR16 := address }, ?_, rfl⟩
      rw [Operand.next, ← advance_three, ← holds_two bytes processor.data]
      rfl
  | absoluteX address =>
      refine ⟨{ locals with ADDR16 := address + processor.X.toWord }, ?_, rfl⟩
      rw [Operand.next, ← advance_three, ← holds_two bytes processor.data]
      rfl

namespace Processor.Runs

/-- An instruction of a listing has a mode that its routine implements. -/
theorem mode_mem {routine : Routine} {mode : AddressingMode} {operand : List Byte}
    (fetch : image.fetches processor.PC routine mode operand = true) : mode ∈ routine.modes := by
  obtain ⟨-, ⟨opcode, -, decoded⟩, -⟩ := Image.fetches_iff.mp fetch
  have formed := Dialect.base.lookup_wellFormed opcode
  rw [decoded] at formed
  exact formed.mode_mem rfl

/-! ## Loads, logic and addition -/

/-- The rule of an instruction that reads its operand. -/
theorem read {routine : Routine} (finish : Frame Ram → Frame Ram) {next : Processor}
    (operand : Operand)
    (fetch : image.fetches processor.PC routine operand.mode operand.bytes = true)
    (settled : ∀ mode ∈ Operand.modes, mode ∉ routine.endlessModes ∧ mode ∉ routine.residueModes)
    (straight_eq : routine.straight operand.mode =
      completingStatic (μ := Ram) (loadStaticAccess operand.mode) finish)
    (finish_eq : ∀ locals : Locals, locals.OPERAND.toByte = operand.value image processor →
      (finish { memory := image.laidOver processor.data
                registers := { processor with PC := operand.next processor.PC }.registers
                locals }).core = next.core image)
    (further : next.Runs image (spent + (operand.calls processor + 1)) post) :
    processor.Runs image spent post := by
  obtain ⟨left, access_eq, operand_eq, -⟩ := loadStaticAccess_operand operand Locals.zero
    (Image.fetches_iff.mp fetch).2.2
  have straight : routine.straight operand.mode ((processor.core image).fetched Locals.zero) = _ :=
    (congrFun straight_eq _).trans
      (congrArg (fun access => (finish access.1, access.2)) access_eq)
  refine .step fetch ⟨mode_mem fetch, settled _ operand.mode_mem⟩ ?_ ?_ further
  · rw [straight]
    refine finish_eq left ?_
    rw [operand_eq, Word.toByte_toWord]
  · rw [straight]

/-- The rule of an instruction that combines its operand with the accumulator. -/
theorem readA {routine : Routine} (operation : Byte → Byte → Byte) (operand : Operand)
    (fetch : image.fetches processor.PC routine operand.mode operand.bytes = true)
    (settled : ∀ mode ∈ Operand.modes, mode ∉ routine.endlessModes ∧ mode ∉ routine.residueModes)
    (straight_eq : routine.straight operand.mode =
      completingStatic (μ := Ram) (loadStaticAccess operand.mode) (combineA operation))
    (further : Runs image
      { processor with
        A := operation processor.A (operand.value image processor)
        PC := operand.next processor.PC
        status :=
          processor.status.settle (operation processor.A (operand.value image processor)) }
      (spent + (operand.calls processor + 1)) post) :
    processor.Runs image spent post := by
  refine read _ operand fetch settled straight_eq (fun locals operand_eq => ?_) further
  refine congrArg (Core.mk (image.laidOver processor.data)) ?_
  change ({ processor.registers with
    A := operation processor.A locals.OPERAND.toByte
    PC := operand.next processor.PC } : Registers).didSetA .ignore = _
  rw [operand_eq]
  exact statusWithValue
    { processor with
      A := operation processor.A (operand.value image processor)
      PC := operand.next processor.PC } _ .ignore

theorem LDA (operand : Operand)
    (fetch : image.fetches processor.PC .LDA operand.mode operand.bytes = true)
    (further : Runs image
      { processor with
        A := operand.value image processor
        PC := operand.next processor.PC
        status := processor.status.settle (operand.value image processor) }
      (spent + (operand.calls processor + 1)) post) :
    processor.Runs image spent post := by
  refine readA (fun _ value => value) operand fetch (by decide) ?_ further
  cases operand <;> rfl

theorem AND (operand : Operand)
    (fetch : image.fetches processor.PC .AND operand.mode operand.bytes = true)
    (further : Runs image
      { processor with
        A := processor.A &&& operand.value image processor
        PC := operand.next processor.PC
        status := processor.status.settle (processor.A &&& operand.value image processor) }
      (spent + (operand.calls processor + 1)) post) :
    processor.Runs image spent post :=
  readA (· &&& ·) operand fetch (by decide) rfl further

theorem ORA (operand : Operand)
    (fetch : image.fetches processor.PC .ORA operand.mode operand.bytes = true)
    (further : Runs image
      { processor with
        A := processor.A ||| operand.value image processor
        PC := operand.next processor.PC
        status := processor.status.settle (processor.A ||| operand.value image processor) }
      (spent + (operand.calls processor + 1)) post) :
    processor.Runs image spent post :=
  readA (· ||| ·) operand fetch (by decide) rfl further

theorem LDX (operand : Operand)
    (fetch : image.fetches processor.PC .LDX operand.mode operand.bytes = true)
    (further : Runs image
      { processor with
        X := operand.value image processor
        PC := operand.next processor.PC
        status := processor.status.settle (operand.value image processor) }
      (spent + (operand.calls processor + 1)) post) :
    processor.Runs image spent post := by
  refine read loadX operand fetch (by decide) rfl
    (fun locals operand_eq => ?_) further
  refine congrArg (Core.mk (image.laidOver processor.data)) ?_
  change ({ processor.registers with
    X := locals.OPERAND.toByte
    PC := operand.next processor.PC } : Registers).didSetX .ignore = _
  rw [operand_eq]
  exact statusWithValue
    { processor with
      X := operand.value image processor
      PC := operand.next processor.PC } _ .ignore

theorem LDY (operand : Operand)
    (fetch : image.fetches processor.PC .LDY operand.mode operand.bytes = true)
    (further : Runs image
      { processor with
        Y := operand.value image processor
        PC := operand.next processor.PC
        status := processor.status.settle (operand.value image processor) }
      (spent + (operand.calls processor + 1)) post) :
    processor.Runs image spent post := by
  refine read loadY operand fetch (by decide) rfl
    (fun locals operand_eq => ?_) further
  refine congrArg (Core.mk (image.laidOver processor.data)) ?_
  change ({ processor.registers with
    Y := locals.OPERAND.toByte
    PC := operand.next processor.PC } : Registers).didSetY .ignore = _
  rw [operand_eq]
  exact statusWithValue
    { processor with
      Y := operand.value image processor
      PC := operand.next processor.PC } _ .ignore

/-! ## Implied instructions -/

/-- The rule of an instruction that changes registers only. -/
theorem implied {routine : Routine} {change : Registers → Registers} {next : Processor}
    (fetch : image.fetches processor.PC routine .implied [] = true)
    (settled : AddressingMode.implied ∉ routine.endlessModes ∧
      AddressingMode.implied ∉ routine.residueModes)
    (straight_eq : routine.straight .implied = staticImplied (μ := Ram) change)
    (change_eq : change { processor with PC := processor.PC + 1 }.registers = next.registers)
    (data_eq : next.data = processor.data) (further : next.Runs image (spent + 2) post) :
    processor.Runs image spent post := by
  refine .step fetch ⟨mode_mem fetch, settled⟩ ?_ ?_ further
  · rw [straight_eq]
    change Core.mk (image.laidOver processor.data)
      (change { processor with PC := processor.PC + 1 }.registers) = _
    rw [change_eq, ← data_eq]
    rfl
  · rw [straight_eq]
    rfl

/-- The registers after a result that sets the flags. -/
theorem settled_registers (next : Processor) (value : Byte) :
    next.registers.statusWithValue value .ignore =
      { next with status := next.status.settle value }.registers :=
  next.statusWithValue value .ignore

theorem TAX (fetch : image.fetches processor.PC .TAX .implied [] = true)
    (further : Runs image
      { processor with
        X := processor.A
        PC := processor.PC + 1
        status := processor.status.settle processor.A } (spent + 2) post) :
    processor.Runs image spent post :=
  implied fetch (by decide) rfl
    (settled_registers { processor with X := processor.A, PC := processor.PC + 1 } _) rfl further

theorem TAY (fetch : image.fetches processor.PC .TAY .implied [] = true)
    (further : Runs image
      { processor with
        Y := processor.A
        PC := processor.PC + 1
        status := processor.status.settle processor.A } (spent + 2) post) :
    processor.Runs image spent post :=
  implied fetch (by decide) rfl
    (settled_registers { processor with Y := processor.A, PC := processor.PC + 1 } _) rfl further

theorem TXA (fetch : image.fetches processor.PC .TXA .implied [] = true)
    (further : Runs image
      { processor with
        A := processor.X
        PC := processor.PC + 1
        status := processor.status.settle processor.X } (spent + 2) post) :
    processor.Runs image spent post :=
  implied fetch (by decide) rfl
    (settled_registers { processor with A := processor.X, PC := processor.PC + 1 } _) rfl further

theorem TYA (fetch : image.fetches processor.PC .TYA .implied [] = true)
    (further : Runs image
      { processor with
        A := processor.Y
        PC := processor.PC + 1
        status := processor.status.settle processor.Y } (spent + 2) post) :
    processor.Runs image spent post :=
  implied fetch (by decide) rfl
    (settled_registers { processor with A := processor.Y, PC := processor.PC + 1 } _) rfl further

theorem DEX (fetch : image.fetches processor.PC .DEX .implied [] = true)
    (further : Runs image
      { processor with
        X := processor.X - 1
        PC := processor.PC + 1
        status := processor.status.settle (processor.X - 1) } (spent + 2) post) :
    processor.Runs image spent post := by
  rw [BitVec.sub_eq_add_neg] at further
  exact implied fetch (by decide) rfl
    (settled_registers { processor with X := processor.X + -1, PC := processor.PC + 1 } _) rfl
    further

theorem CLC (fetch : image.fetches processor.PC .CLC .implied [] = true)
    (further : Runs image
      { processor with
        PC := processor.PC + 1
        status := { processor.status with C := false } } (spent + 2) post) :
    processor.Runs image spent post :=
  implied fetch (by decide) rfl
    (setBit_C { processor with PC := processor.PC + 1 } false) rfl further

theorem NOP (fetch : image.fetches processor.PC .NOP .implied [] = true)
    (further : Runs image { processor with PC := processor.PC + 1 } (spent + 2) post) :
    processor.Runs image spent post :=
  implied fetch (by decide) rfl rfl rfl further

/-! ## Shifts of the accumulator -/

/-- The rule of a shift of the accumulator. -/
theorem accumulator {routine : Routine} (shift : Registers → Word → ShiftResult)
    (result : Byte) (carry : Bool)
    (fetch : image.fetches processor.PC routine .accumulator [] = true)
    (settled : AddressingMode.accumulator ∉ routine.endlessModes ∧
      AddressingMode.accumulator ∉ routine.residueModes)
    (straight_eq : ∀ frame : Frame Ram, (routine.straight .accumulator frame).1.core =
        (shiftAccumulator shift frame).core ∧ (routine.straight .accumulator frame).2 = 1)
    (result_eq : Word.toByte (shift processor.registers processor.A.toWord).1 = result)
    (carry_eq : (shift processor.registers processor.A.toWord).2 = carry)
    (shift_eq : ∀ PC, shift { processor.registers with PC } = shift processor.registers)
    (further : Runs image
      { processor with
        A := result
        PC := processor.PC + 1
        status := { processor.status.settle result with C := carry } } (spent + 2) post) :
    processor.Runs image spent post := by
  refine .step fetch ⟨mode_mem fetch, settled⟩ ?_ (straight_eq _).2 further
  rw [(straight_eq _).1]
  refine congrArg (Core.mk (image.laidOver processor.data)) ?_
  change ({ processor.registers with
    A := Word.toByte (shift { processor.registers with PC := processor.PC + 1 }
      processor.A.toWord).1
    PC := processor.PC + 1 } : Registers).didSetA (Carry.ofBool
      (shift { processor.registers with PC := processor.PC + 1 } processor.A.toWord).2) = _
  rw [shift_eq, result_eq, carry_eq]
  have settled := statusWithValue { processor with A := result, PC := processor.PC + 1 } result
    (Carry.ofBool carry)
  rw [Status.carry_ofBool] at settled
  exact settled

theorem rotateRight_byte : ∀ (A : Byte) (C : Bool),
    Word.toByte (((A.toWord >>> 1) ||| ((if C then 1 else 0 : Word) <<< 7)) &&& 0x00FF) =
        (A >>> 1) ||| (if C then 0x80 else 0) ∧
      (A.toWord &&& 0x0001 != 0) = A.getLsbD 0 := by decide +kernel

theorem rotateLeft_byte : ∀ (A : Byte) (C : Bool),
    Word.toByte ((A.toWord <<< 1) ||| (if C then 1 else 0 : Word)) =
        (A <<< 1) ||| (if C then 0x01 else 0) ∧
      (((A.toWord <<< 1) ||| (if C then 1 else 0 : Word)) &&& 0xFF00 != 0) = A.getLsbD 7 := by
  decide +kernel

theorem ROR (fetch : image.fetches processor.PC .ROR .accumulator [] = true)
    (further : Runs image
      { processor with
        A := (processor.A >>> 1) ||| (if processor.status.C then 0x80 else 0)
        PC := processor.PC + 1
        status :=
          { processor.status.settle
              ((processor.A >>> 1) ||| (if processor.status.C then 0x80 else 0)) with
            C := processor.A.getLsbD 0 } } (spent + 2) post) :
    processor.Runs image spent post := by
  have bytes := rotateRight_byte processor.A processor.status.C
  refine accumulator rotateRight _ _ fetch (by decide) (fun _ => ⟨rfl, rfl⟩) ?_ ?_ (fun _ => rfl)
    further
  · rw [← bytes.1, ← processor.getBit_C]
    rfl
  · exact bytes.2

theorem ROL (fetch : image.fetches processor.PC .ROL .accumulator [] = true)
    (further : Runs image
      { processor with
        A := (processor.A <<< 1) ||| (if processor.status.C then 0x01 else 0)
        PC := processor.PC + 1
        status :=
          { processor.status.settle
              ((processor.A <<< 1) ||| (if processor.status.C then 0x01 else 0)) with
            C := processor.A.getLsbD 7 } } (spent + 2) post) :
    processor.Runs image spent post := by
  have bytes := rotateLeft_byte processor.A processor.status.C
  refine accumulator rotateLeft _ _ fetch (by decide) (fun _ => ⟨rfl, rfl⟩) ?_ ?_ (fun _ => rfl)
    further
  · rw [← bytes.1, ← processor.getBit_C]
    rfl
  · rw [← bytes.2, ← processor.getBit_C]
    rfl

theorem shift_byte : ∀ A : Byte,
    Word.toByte (A.toWord <<< 1) = A <<< 1 ∧ (A.toWord <<< 1 &&& 0xFF00 != 0) = A.getLsbD 7 ∧
      Word.toByte (A.toWord >>> 1) = A >>> 1 ∧ (A.toWord &&& 0x0001 != 0) = A.getLsbD 0 := by
  decide +kernel

theorem ASL (fetch : image.fetches processor.PC .ASL .accumulator [] = true)
    (further : Runs image
      { processor with
        A := processor.A <<< 1
        PC := processor.PC + 1
        status := { processor.status.settle (processor.A <<< 1) with C := processor.A.getLsbD 7 } }
      (spent + 2) post) : processor.Runs image spent post :=
  accumulator shiftLeft _ _ fetch (by decide) (fun _ => ⟨rfl, rfl⟩) (shift_byte _).1
    (shift_byte _).2.1 (fun _ => rfl) further

theorem LSR (fetch : image.fetches processor.PC .LSR .accumulator [] = true)
    (further : Runs image
      { processor with
        A := processor.A >>> 1
        PC := processor.PC + 1
        status := { processor.status.settle (processor.A >>> 1) with C := processor.A.getLsbD 0 } }
      (spent + 2) post) : processor.Runs image spent post :=
  accumulator shiftRight _ _ fetch (by decide) (fun _ => ⟨rfl, rfl⟩) (shift_byte _).2.2.1
    (shift_byte _).2.2.2 (fun _ => rfl) further

/-! ## Stores -/

/-- The rule of a store. -/
theorem store {routine : Routine} (value : Registers → Byte) (operand : Operand)
    (fetch : image.fetches processor.PC routine operand.mode operand.bytes = true)
    (settled : ∀ mode ∈ Operand.modes, mode ∉ routine.endlessModes ∧ mode ∉ routine.residueModes)
    (straight_eq : routine.straight operand.mode =
      completingStatic (μ := Ram) (storeStraight operand.mode) (storeAtADDR16 value))
    (value_eq : ∀ PC, value { processor with PC }.registers = value processor.registers)
    (spares : operand.spares image = true)
    (further : Runs image
      { processor with
        PC := operand.next processor.PC
        data := Function.update processor.data (operand.address processor)
          (value processor.registers) } (spent + (operand.storeCalls + 1)) post) :
    processor.Runs image spent post := by
  obtain ⟨proper, clear⟩ := Operand.spares_iff spares processor
  obtain ⟨left, access_eq, address_eq⟩ :=
    storeStraight_operand Locals.zero proper (Image.fetches_iff.mp fetch).2.2
  have straight : routine.straight operand.mode ((processor.core image).fetched Locals.zero) = _ :=
    (congrFun straight_eq _).trans
      (congrArg (fun access => (storeAtADDR16 value access.1, access.2)) access_eq)
  refine .step fetch ⟨mode_mem fetch, settled _ operand.mode_mem⟩ ?_ (by rw [straight]) further
  rw [straight]
  change Core.mk (Function.update (image.laidOver processor.data) left.ADDR16
    (value { processor with PC := operand.next processor.PC }.registers)) _ = _
  rw [address_eq, value_eq, Image.update_laidOver clear]
  rfl

theorem STA (operand : Operand)
    (fetch : image.fetches processor.PC .STA operand.mode operand.bytes = true)
    (spares : operand.spares image = true)
    (further : Runs image
      { processor with
        PC := operand.next processor.PC
        data := Function.update processor.data (operand.address processor) processor.A }
      (spent + (operand.storeCalls + 1)) post) : processor.Runs image spent post :=
  store Registers.A operand fetch (by decide) rfl (fun _ => rfl) spares further

theorem STX (operand : Operand)
    (fetch : image.fetches processor.PC .STX operand.mode operand.bytes = true)
    (spares : operand.spares image = true)
    (further : Runs image
      { processor with
        PC := operand.next processor.PC
        data := Function.update processor.data (operand.address processor) processor.X }
      (spent + (operand.storeCalls + 1)) post) : processor.Runs image spent post :=
  store Registers.X operand fetch (by decide) rfl (fun _ => rfl) spares further

/-! ## Branches and jumps -/

/-- The rule of a branch that is taken within its page. -/
theorem taken {routine : Routine} (condition : Registers → Bool) (delta : Byte)
    (fetch : image.fetches processor.PC routine .relative [delta] = true)
    (settled : AddressingMode.relative ∉ routine.endlessModes ∧
      AddressingMode.relative ∉ routine.residueModes)
    (straight_eq : routine.straight .relative = branchStraight (μ := Ram) condition)
    (holds : condition { processor with PC := processor.PC + 1 }.registers = true)
    (page : (processor.PC + 2 + delta.signExtend 16).SamePage (processor.PC + 2))
    (further : Runs image { processor with PC := processor.PC + 2 + delta.signExtend 16 }
      (spent + 3) post) : processor.Runs image spent post := by
  have delta_eq := holds_one (Image.fetches_iff.mp fetch).2.2 processor.data
  have holds' : condition ((processor.core image).fetched Locals.zero).registers = true := holds
  refine .step fetch ⟨mode_mem fetch, settled⟩ ?_ ?_ further
  · rw [straight_eq, branchStraight, if_pos holds', ← advance_two, ← delta_eq]
    rfl
  · rw [← advance_two, ← delta_eq] at page
    rw [straight_eq, branchStraight, if_pos holds']
    exact congrArg (2 + ·) (if_pos page)

/-- The rule of a branch that is not taken. -/
theorem passed {routine : Routine} (condition : Registers → Bool) (delta : Byte)
    (fetch : image.fetches processor.PC routine .relative [delta] = true)
    (settled : AddressingMode.relative ∉ routine.endlessModes ∧
      AddressingMode.relative ∉ routine.residueModes)
    (straight_eq : routine.straight .relative = branchStraight (μ := Ram) condition)
    (fails : condition { processor with PC := processor.PC + 1 }.registers = false)
    (further : Runs image { processor with PC := processor.PC + 2 } (spent + 2) post) :
    processor.Runs image spent post := by
  have fails' : ¬ condition ((processor.core image).fetched Locals.zero).registers = true := by
    rw [Bool.not_eq_true]
    exact fails
  refine .step fetch ⟨mode_mem fetch, settled⟩ ?_ ?_ further
  · rw [straight_eq, branchStraight, if_neg fails', ← advance_two]
    rfl
  · rw [straight_eq, branchStraight, if_neg fails']

theorem BNE_taken (delta : Byte)
    (fetch : image.fetches processor.PC .BNE .relative [delta] = true)
    (page : (processor.PC + 2 + delta.signExtend 16).SamePage (processor.PC + 2))
    (nonzero : processor.status.Z = false)
    (further : Runs image { processor with PC := processor.PC + 2 + delta.signExtend 16 }
      (spent + 3) post) : processor.Runs image spent post := by
  refine taken (fun registers => !registers.getBit Registers.bitZ) delta fetch (by decide) rfl ?_
    page further
  rw [getBit_Z, nonzero]
  rfl

theorem BNE_passed (delta : Byte)
    (fetch : image.fetches processor.PC .BNE .relative [delta] = true)
    (zero : processor.status.Z = true)
    (further : Runs image { processor with PC := processor.PC + 2 } (spent + 2) post) :
    processor.Runs image spent post := by
  refine passed (fun registers => !registers.getBit Registers.bitZ) delta fetch (by decide) rfl ?_
    further
  rw [getBit_Z, zero]
  rfl

theorem BEQ_taken (delta : Byte)
    (fetch : image.fetches processor.PC .BEQ .relative [delta] = true)
    (page : (processor.PC + 2 + delta.signExtend 16).SamePage (processor.PC + 2))
    (zero : processor.status.Z = true)
    (further : Runs image { processor with PC := processor.PC + 2 + delta.signExtend 16 }
      (spent + 3) post) : processor.Runs image spent post := by
  refine taken (fun registers => registers.getBit Registers.bitZ) delta fetch (by decide) rfl ?_
    page further
  rw [getBit_Z, zero]

theorem BCS_taken (delta : Byte)
    (fetch : image.fetches processor.PC .BCS .relative [delta] = true)
    (page : (processor.PC + 2 + delta.signExtend 16).SamePage (processor.PC + 2))
    (carry : processor.status.C = true)
    (further : Runs image { processor with PC := processor.PC + 2 + delta.signExtend 16 }
      (spent + 3) post) : processor.Runs image spent post := by
  refine taken (fun registers => registers.getBit Registers.bitC) delta fetch (by decide) rfl ?_
    page further
  rw [getBit_C, carry]

theorem BCS_passed (delta : Byte)
    (fetch : image.fetches processor.PC .BCS .relative [delta] = true)
    (clear : processor.status.C = false)
    (further : Runs image { processor with PC := processor.PC + 2 } (spent + 2) post) :
    processor.Runs image spent post := by
  refine passed (fun registers => registers.getBit Registers.bitC) delta fetch (by decide) rfl ?_
    further
  rw [getBit_C, clear]

theorem JMP (target : Word)
    (fetch : image.fetches processor.PC .JMP .absolute [target.low, target.high] = true)
    (further : Runs image { processor with PC := target } (spent + 3) post) :
    processor.Runs image spent post := by
  refine .step fetch ⟨mode_mem fetch, by decide⟩ ?_ rfl further
  have target_eq := holds_two (Image.fetches_iff.mp fetch).2.2 processor.data
  rw [← target_eq]
  rfl

/-! ## The stack -/

end Processor.Runs

namespace Processor

/-- The processor after a push. -/
def push (processor : Processor) (value : Byte) : Processor :=
  { processor with
    data := Function.update processor.data (stackAddress processor.SP) value
    SP := processor.SP - 1 }

theorem core_push (clear : image.StackClear) (processor : Processor) (value : Byte)
    (locals : Locals) :
    ({ memory := image.laidOver processor.data, registers := processor.registers, locals } :
      Frame Ram).push value =
        { memory := image.laidOver (processor.push value).data
          registers := (processor.push value).registers
          locals } := by
  unfold Frame.push Frame.write Frame.onRegisters
  change Frame.mk
    (Function.update (image.laidOver processor.data) (stackAddress processor.SP) value) _ _ = _
  rw [Image.update_laidOver (clear processor.SP)]
  rfl

/-- The byte on top of the stack. -/
def top (processor : Processor) : Byte := processor.data (stackAddress (processor.SP + 1))

/-- The processor after a pull. -/
def pull (processor : Processor) : Processor := { processor with SP := processor.SP + 1 }

section Stack

variable (processor : Processor) (value : Byte)

/-- The byte that has been pushed is on top. -/
theorem top_push : (processor.push value).top = value := by
  change Function.update processor.data (stackAddress processor.SP) value
    (stackAddress (processor.SP - 1 + 1)) = value
  rw [BitVec.sub_add_cancel, Function.update_self]

@[simp] theorem push_A : (processor.push value).A = processor.A := rfl
@[simp] theorem push_X : (processor.push value).X = processor.X := rfl
@[simp] theorem push_Y : (processor.push value).Y = processor.Y := rfl
@[simp] theorem push_SP : (processor.push value).SP = processor.SP - 1 := rfl
@[simp] theorem push_PC : (processor.push value).PC = processor.PC := rfl
@[simp] theorem push_status : (processor.push value).status = processor.status := rfl
@[simp] theorem pull_A : processor.pull.A = processor.A := rfl
@[simp] theorem pull_X : processor.pull.X = processor.X := rfl
@[simp] theorem pull_Y : processor.pull.Y = processor.Y := rfl
@[simp] theorem pull_SP : processor.pull.SP = processor.SP + 1 := rfl
@[simp] theorem pull_PC : processor.pull.PC = processor.PC := rfl
@[simp] theorem pull_status : processor.pull.status = processor.status := rfl
@[simp] theorem pull_data : processor.pull.data = processor.data := rfl

end Stack

end Processor

namespace Processor.Runs

theorem PHA (clear : image.StackClear)
    (fetch : image.fetches processor.PC .PHA .implied [] = true)
    (further : Runs image ({ processor with PC := processor.PC + 1 }.push processor.A)
      (spent + 3) post) :
    processor.Runs image spent post := by
  refine .step fetch ⟨mode_mem fetch, by decide⟩ ?_ rfl further
  exact congrArg Frame.core (core_push clear { processor with PC := processor.PC + 1 } processor.A
    { Locals.zero with latch := processor.A })

theorem PLA (clear : image.StackClear)
    (fetch : image.fetches processor.PC .PLA .implied [] = true)
    (further : Runs image
      { processor.pull with
        A := processor.top
        PC := processor.PC + 1
        status := processor.status.settle processor.top } (spent + 4) post) :
    processor.Runs image spent post := by
  refine .step fetch ⟨mode_mem fetch, by decide⟩ ?_ rfl further
  have top_eq : image.laidOver processor.data (stackAddress (processor.SP + 1)) = processor.top :=
    Image.laidOver_clear (clear _) _
  refine congrArg (Core.mk (image.laidOver processor.data)) ?_
  rw [← top_eq]
  exact settled_registers
    { processor.pull with
      A := image.laidOver processor.data (stackAddress (processor.SP + 1))
      PC := processor.PC + 1 } _

theorem JSR (clear : image.StackClear) (target : Word)
    (fetch : image.fetches processor.PC .JSR .absolute [target.low, target.high] = true)
    (further : Runs image
      { (processor.push (processor.PC + 3).high).push (processor.PC + 3).low with PC := target }
      (spent + 6) post) : processor.Runs image spent post := by
  refine .step fetch ⟨mode_mem fetch, by decide⟩ ?_ rfl further
  let called : Processor := { processor with PC := processor.PC + 3 }
  have fetched : ((processor.core image).fetched Locals.zero).fetchLow.fetchHigh =
      { memory := image.laidOver called.data
        registers := called.registers
        locals := { Locals.zero with ADDR16 := target } } := by
    rw [← holds_two (Image.fetches_iff.mp fetch).2.2 processor.data]
    refine congrArg (Frame.mk _ · _) ?_
    exact congrArg (fun PC => { called.registers with PC }) (advance_three processor.PC)
  have pushed :
      (((processor.core image).fetched Locals.zero).fetchLow.fetchHigh.pushPCHigh).pushPCLow =
      { memory := image.laidOver ((called.push called.PC.high).push called.PC.low).data
        registers := ((called.push called.PC.high).push called.PC.low).registers
        locals := { Locals.zero with ADDR16 := target } } := by
    rw [fetched]
    unfold pushPCHigh pushPCLow
    rw [core_push clear]
    exact core_push clear (called.push called.PC.high) called.PC.low _
  exact congrArg (fun frame => (loadPC frame).core) pushed

theorem RTS (clear : image.StackClear)
    (fetch : image.fetches processor.PC .RTS .implied [] = true)
    (further : Runs image
      { processor.pull.pull with PC := Word.littleEndian processor.top processor.pull.top }
      (spent + 6) post) : processor.Runs image spent post := by
  refine .step fetch ⟨mode_mem fetch, by decide⟩ ?_ rfl further
  have low_eq : image.laidOver processor.data (stackAddress (processor.SP + 1)) = processor.top :=
    Image.laidOver_clear (clear _) _
  have high_eq : image.laidOver processor.data (stackAddress (processor.SP + 1 + 1)) =
      processor.pull.top := Image.laidOver_clear (clear _) _
  rw [← low_eq, ← high_eq]
  rfl

/-! ## Addition -/

/-- The bits of the status register that an addition sets. -/
theorem summed_byte : ∀ (status : Status) (overflow zero negative carry : Bool),
    let flagBits : Byte := if overflow then 0 ||| Registers.bitV else 0
    let flagBits := if zero then flagBits ||| Registers.bitZ else flagBits
    let flagBits := if negative then flagBits ||| Registers.bitN else flagBits
    let flagBits := if carry then flagBits ||| Registers.bitC else flagBits
    (status.byte &&& ~~~(Registers.bitC ||| Registers.bitZ ||| Registers.bitV ||| Registers.bitN))
        ||| flagBits =
      { status with N := negative, V := overflow, Z := zero, C := carry }.byte := by
  rintro ⟨N, V, IGN, B, D, I, Z, C⟩
  revert N V IGN B D I Z C
  decide +kernel

/-- The low byte of a sum and its flags. -/
theorem low_sum (sum : Word) :
    (sum &&& 0x00FF).toByte = sum.toByte ∧ (sum &&& 0x00FF == 0) = (sum.toByte == 0) ∧
      (sum &&& 0x0080 != 0) = (sum.toByte &&& 0x80 == 0x80) := by
  have bytes : ∀ byte : Byte, byte.toWord.toByte = byte ∧ (byte.toWord == 0) = (byte == 0) ∧
      (byte.toWord &&& 0x0080 != 0) = (byte &&& 0x80 == 0x80) := by decide +kernel
  have low : sum &&& 0x00FF = sum.toByte.toWord := by
    apply BitVec.eq_of_toNat_eq
    rw [toNat_toWord]
    exact Nat.and_two_pow_sub_one_eq_mod _ 8
  have masked : sum &&& 0x0080 = sum.toByte.toWord &&& 0x0080 := by
    rw [← low, BitVec.and_assoc]
    rfl
  rw [low, masked]
  exact bytes _

/-- The registers after a binary addition. -/
theorem summed_registers (processor : Processor) (value : Byte) :
    ∃ V, setArithmetic 0 value.toWord (adcALU processor.registers value.toWord false)
        (adcALU processor.registers value.toWord false) processor.registers =
      { processor with
        A := processor.A + value + (if processor.status.C then 1 else 0)
        status :=
          { processor.status.settle
              (processor.A + value + (if processor.status.C then 1 else 0)) with
            V
            C := 256 ≤ processor.A.toNat + value.toNat + processor.status.C.toNat }
        }.registers := by
  obtain ⟨byte_eq, zero_eq, sign_eq⟩ := low_sum (adcALU processor.registers value.toWord false)
  have sum_eq := toNat_adcALU processor.registers value
  rw [Registers.carry, getBit_C] at sum_eq
  have carry_eq := carryOut_iff (adcALU processor.registers value.toWord false)
  rw [sum_eq] at carry_eq
  have value_eq : (adcALU processor.registers value.toWord false).toByte =
      processor.A + value + (if processor.status.C then 1 else 0) := by
    apply BitVec.eq_of_toNat_eq
    rw [Word.toByte, BitVec.toNat_setWidth, sum_eq, BitVec.toNat_add, BitVec.toNat_add]
    change (processor.A.toNat + _ + _) % _ = _
    cases processor.status.C <;> simp
  let overflow := ~~~(processor.registers.A.toWord ^^^ value.toWord) &&&
    (processor.registers.A.toWord ^^^ adcALU processor.registers value.toWord false) &&& 0x0080 != 0
  refine ⟨overflow, ?_⟩
  unfold setArithmetic
  dsimp only
  rw [byte_eq, zero_eq, sign_eq, carry_eq, value_eq]
  exact congrArg (fun SR => { processor.registers with
    A := processor.A + value + (if processor.status.C then 1 else 0)
    SR }) (summed_byte processor.status overflow _ _ _)

/-- The rule of a binary `ADC`. -/
theorem ADC (operand : Operand)
    (fetch : image.fetches processor.PC .ADC operand.mode operand.bytes = true)
    (binary : processor.status.D = false)
    (further : ∀ V, Runs image
      { processor with
        A := processor.A + operand.value image processor + (if processor.status.C then 1 else 0)
        PC := operand.next processor.PC
        status :=
          { processor.status.settle (processor.A + operand.value image processor +
              (if processor.status.C then 1 else 0)) with
            V
            C := 256 ≤ processor.A.toNat + (operand.value image processor).toNat +
              processor.status.C.toNat } } (spent + (operand.calls processor + 1)) post) :
    processor.Runs image spent post := by
  let next : Processor := { processor with PC := operand.next processor.PC }
  obtain ⟨V, registers_eq⟩ := summed_registers next (operand.value image processor)
  obtain ⟨left, access_eq, operand_eq, isBCD_eq⟩ := loadStaticAccess_operand operand
    { Locals.zero with isBCD := processor.registers.getBit Registers.bitD }
    (Image.fetches_iff.mp fetch).2.2
  rw [getBit_D, binary] at isBCD_eq
  have straight : Routine.ADC.straight operand.mode ((processor.core image).fetched Locals.zero) =
      _ := congrArg (fun access => (addToA 0 access.1, access.2)) access_eq
  have settled : ∀ mode ∈ Operand.modes,
      mode ∉ Routine.ADC.endlessModes ∧ mode ∉ Routine.ADC.residueModes := by decide
  refine .step fetch ⟨mode_mem fetch, settled _ operand.mode_mem⟩ ?_ (by rw [straight])
    (further V)
  rw [straight]
  refine congrArg (Core.mk (image.laidOver processor.data)) (Eq.trans ?_ registers_eq)
  change setArithmetic 0 left.OPERAND (adcALU next.registers left.OPERAND left.isBCD)
    (if left.isBCD && _ then _ else adcALU next.registers left.OPERAND left.isBCD) _ = _
  rw [isBCD_eq, operand_eq]
  rfl

end Processor.Runs
end Programs
end System6502
