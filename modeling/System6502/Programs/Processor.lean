import System6502.Executor.Stepping

/-!
# A processor with a program

The processor as its programmer sees it: the bits of the status register apart, and the code apart
from the memory around it.  A step of the machine code is one of the rules of this view.
-/

namespace System6502
namespace Programs

open Lib System6502.Frame

/-! ## The status register -/

/-- The bits of the status register, the highest one first. -/
structure Status where
  /-- Sign. -/
  N : Bool
  /-- Overflow. -/
  V : Bool
  /-- The ignored bit. -/
  IGN : Bool
  /-- Break. -/
  B : Bool
  /-- Decimal mode. -/
  D : Bool
  /-- Interrupts inhibited. -/
  I : Bool
  /-- Zero. -/
  Z : Bool
  /-- Carry. -/
  C : Bool
  deriving DecidableEq, Repr

namespace Status

/-- The status register. -/
def byte (status : Status) : Byte :=
  (bif status.N then Registers.bitN else 0) ||| (bif status.V then Registers.bitV else 0) |||
    (bif status.IGN then Registers.bitIGN else 0) ||| (bif status.B then Registers.bitB else 0) |||
    (bif status.D then Registers.bitD else 0) ||| (bif status.I then Registers.bitI else 0) |||
    (bif status.Z then Registers.bitZ else 0) ||| (bif status.C then Registers.bitC else 0)

/-- The bits of a status register. -/
def ofByte (SR : Byte) : Status where
  N := SR &&& Registers.bitN != 0
  V := SR &&& Registers.bitV != 0
  IGN := SR &&& Registers.bitIGN != 0
  B := SR &&& Registers.bitB != 0
  D := SR &&& Registers.bitD != 0
  I := SR &&& Registers.bitI != 0
  Z := SR &&& Registers.bitZ != 0
  C := SR &&& Registers.bitC != 0

@[simp]
theorem byte_ofByte : ∀ SR : Byte, (ofByte SR).byte = SR := by decide +kernel

/-- The bits after an instruction whose result is a value. -/
def settle (status : Status) (value : Byte) : Status :=
  { status with N := value &&& 0x80 == 0x80, Z := value == 0 }

/-- The carry after an instruction. -/
def carry (status : Status) : Carry → Status
  | .clear => { status with C := false }
  | .set => { status with C := true }
  | .ignore => status

@[simp]
theorem carry_ofBool (status : Status) (value : Bool) :
    status.carry (Carry.ofBool value) = { status with C := value } := by
  cases value <;> rfl

theorem getBit_byte : ∀ N V IGN B D I Z C : Bool,
    let SR := (⟨N, V, IGN, B, D, I, Z, C⟩ : Status).byte
    (SR &&& Registers.bitN != 0) = N ∧ (SR &&& Registers.bitV != 0) = V ∧
      (SR &&& Registers.bitD != 0) = D ∧ (SR &&& Registers.bitI != 0) = I ∧
      (SR &&& Registers.bitZ != 0) = Z ∧ (SR &&& Registers.bitC != 0) = C := by
  decide +kernel

theorem setBit_byte : ∀ N V IGN B D I Z C value : Bool,
    let status : Status := ⟨N, V, IGN, B, D, I, Z, C⟩
    (if value then status.byte ||| Registers.bitN else status.byte &&& ~~~Registers.bitN) =
        { status with N := value }.byte ∧
      (if value then status.byte ||| Registers.bitZ else status.byte &&& ~~~Registers.bitZ) =
        { status with Z := value }.byte ∧
      (if value then status.byte ||| Registers.bitC else status.byte &&& ~~~Registers.bitC) =
        { status with C := value }.byte := by
  decide +kernel

end Status

/-! ## The registers -/

/-- The registers of the processor, with the bits of its status register. -/
structure Processor where
  /-- Accumulator. -/
  A : Byte
  /-- X-index. -/
  X : Byte
  /-- Y-index. -/
  Y : Byte
  /-- Stack pointer. -/
  SP : Byte
  /-- Program counter. -/
  PC : Word
  /-- The bits of the status register. -/
  status : Status
  /-- The memory around the program. -/
  data : Ram

namespace Processor

/-- The register file. -/
def registers (processor : Processor) : Registers where
  A := processor.A
  X := processor.X
  Y := processor.Y
  SP := processor.SP
  PC := processor.PC
  SR := processor.status.byte

/-- The processor with the registers and the memory given. -/
def of (registers : Registers) (data : Ram) : Processor where
  A := registers.A
  X := registers.X
  Y := registers.Y
  SP := registers.SP
  PC := registers.PC
  status := Status.ofByte registers.SR
  data

@[simp]
theorem registers_of (registers : Registers) (data : Ram) :
    (of registers data).registers = registers := by
  simp [of, Processor.registers]

variable (processor : Processor)

@[simp]
theorem getBit_C : processor.registers.getBit Registers.bitC = processor.status.C :=
  (Status.getBit_byte _ _ _ _ _ _ _ _).2.2.2.2.2

@[simp]
theorem getBit_Z : processor.registers.getBit Registers.bitZ = processor.status.Z :=
  (Status.getBit_byte _ _ _ _ _ _ _ _).2.2.2.2.1

@[simp]
theorem getBit_N : processor.registers.getBit Registers.bitN = processor.status.N :=
  (Status.getBit_byte _ _ _ _ _ _ _ _).1

@[simp]
theorem getBit_D : processor.registers.getBit Registers.bitD = processor.status.D :=
  (Status.getBit_byte _ _ _ _ _ _ _ _).2.2.1

theorem setBit_N (value : Bool) : processor.registers.setBit Registers.bitN value =
    { processor with status := { processor.status with N := value } }.registers :=
  congrArg (fun SR => { processor.registers with SR }) (Status.setBit_byte _ _ _ _ _ _ _ _ value).1

theorem setBit_Z (value : Bool) : processor.registers.setBit Registers.bitZ value =
    { processor with status := { processor.status with Z := value } }.registers :=
  congrArg (fun SR => { processor.registers with SR })
    (Status.setBit_byte _ _ _ _ _ _ _ _ value).2.1

theorem setBit_C (value : Bool) : processor.registers.setBit Registers.bitC value =
    { processor with status := { processor.status with C := value } }.registers :=
  congrArg (fun SR => { processor.registers with SR })
    (Status.setBit_byte _ _ _ _ _ _ _ _ value).2.2

/-- The bits that an update of the status register sets. -/
theorem statusWithValue (value : Byte) (carry : Carry) :
    processor.registers.statusWithValue value carry =
      { processor with status := (processor.status.settle value).carry carry }.registers := by
  unfold Registers.statusWithValue
  dsimp only
  rw [setBit_Z, setBit_N]
  cases carry with
  | clear => exact setBit_C _ false
  | set => exact setBit_C _ true
  | ignore => rfl

end Processor

/-! ## The program -/

/-- A program, loaded at an address and executed from there to its last byte. -/
structure Image where
  /-- The address of its first byte. -/
  start : Word
  /-- Its bytes. -/
  bytes : List Byte
  /-- The places in its code that it writes itself. -/
  holes : List Word := []

namespace Image

/-- Where it is. -/
def range (image : Image) : MemoryAddrRange where
  addrLo := image.start
  addrLen := BitVec.ofNat 16 image.bytes.length

/-- The address at which it ends. -/
def limit (image : Image) : Nat := image.range.addrLo.toNat + image.range.addrLen.toNat

/-- The program is in memory, byte for byte. -/
def InMemory (image : Image) (memory : Ram) : Prop :=
  ∀ index, ∀ byte ∈ image.bytes[index]?, memory (image.start + BitVec.ofNat 16 index) = byte

/-- The byte of the program at an address, unless the program writes it. -/
def get? (image : Image) (address : Word) : Option Byte :=
  if address ∈ image.holes then none else image.bytes[(address - image.start).toNat]?

/-- The memory with the program in it. -/
def laidOver (image : Image) (data : Ram) : Ram := fun address =>
  (image.get? address).getD (data address)

/-- Bytes of the program from an address on. -/
def holds (image : Image) (address : Word) : List Byte → Bool
  | [] => true
  | byte :: rest => image.get? address == some byte && image.holds (address + 1) rest

/-- An instruction of the program, from its opcode to the last byte of its operand. -/
def fetches (image : Image) (PC : Word) (routine : Routine) (mode : AddressingMode)
    (operand : List Byte) : Bool :=
  decide (PC.toNat < image.limit) &&
    ((image.get? PC).any fun opcode =>
      decide (Dialect.base.lookup opcode = Dispatch.slot routine mode)) &&
    image.holds (PC + 1) operand

/-- A program in memory is the memory. -/
theorem InMemory.laidOver_eq {image : Image} {memory : Ram} (inMemory : image.InMemory memory) :
    image.laidOver memory = memory := by
  funext address
  unfold laidOver
  cases found : image.get? address with
  | none => rfl
  | some byte =>
      have place : image.bytes[(address - image.start).toNat]? = some byte := by
        rw [get?] at found
        split at found
        · cases found
        · exact found
      have held := inMemory _ byte place
      rw [BitVec.ofNat_toNat, BitVec.setWidth_eq, BitVec.add_comm, BitVec.sub_add_cancel] at held
      exact held.symm

/-- An address outside the code. -/
def Clear (image : Image) (address : Word) : Prop := image.get? address = none

instance (image : Image) (address : Word) : Decidable (image.Clear address) :=
  inferInstanceAs (Decidable (_ = _))

/-- The stack page is free of code. -/
def StackClear (image : Image) : Prop := ∀ SP, image.Clear (stackAddress SP)

instance (image : Image) : Decidable image.StackClear :=
  inferInstanceAs (Decidable (∀ SP, image.Clear (stackAddress SP)))

theorem laidOver_clear {image : Image} {address : Word} (clear : image.Clear address) (data : Ram) :
    image.laidOver data address = data address := by
  rw [laidOver, clear]
  rfl

theorem update_laidOver {image : Image} {address : Word} (clear : image.Clear address) (data : Ram)
    (value : Byte) :
    Function.update (image.laidOver data) address value =
      image.laidOver (Function.update data address value) := by
  funext other
  by_cases same : other = address
  · subst same
    rw [Function.update_self, laidOver_clear clear, Function.update_self]
  · rw [Function.update_of_ne same, laidOver, laidOver, Function.update_of_ne same]

theorem holds_cons {image : Image} {address : Word} {byte : Byte} {rest : List Byte}
    (holds : image.holds address (byte :: rest) = true) (data : Ram) :
    image.laidOver data address = byte ∧ image.holds (address + 1) rest = true := by
  rw [Image.holds, Bool.and_eq_true, beq_iff_eq] at holds
  exact ⟨by rw [laidOver, holds.1]; rfl, holds.2⟩

end Image

namespace Processor

/-- The registers and the memory. -/
def core (image : Image) (processor : Processor) : Core Ram where
  memory := image.laidOver processor.data
  registers := processor.registers

/-- Some cycles into a run, the program takes the processor to a state with a property of the cycles
spent and the state. -/
def Runs (image : Image) (processor : Processor) (spent : Nat)
    (post : Nat → Processor → Prop) : Prop :=
  ∃ cycles final, (machineCode Ram .base image.limit).Leads (processor.core image) cycles
    (final.core image) ∧ post (spent + cycles) final

end Processor

variable {image : Image} {processor : Processor} {spent : Nat} {post : Nat → Processor → Prop}

theorem Processor.Runs.here (holds : post spent processor) : processor.Runs image spent post :=
  ⟨0, processor, .refl _, holds⟩

/-- A run goes on from every state that its first part can come to. -/
theorem Processor.Runs.bind {middle : Nat → Processor → Prop}
    (front : processor.Runs image spent middle)
    (back : ∀ cycles next, middle cycles next → next.Runs image cycles post) :
    processor.Runs image spent post := by
  obtain ⟨cycles, next, leads, holds⟩ := front
  obtain ⟨further, final, leadsFurther, ends⟩ := back _ next holds
  exact ⟨cycles + further, final, leads.trans leadsFurther, by rwa [← Nat.add_assoc]⟩

theorem Image.fetches_iff {PC : Word} {routine : Routine} {mode : AddressingMode}
    {operand : List Byte} : image.fetches PC routine mode operand = true ↔
      PC.toNat < image.limit ∧
        (∃ opcode, image.get? PC = some opcode ∧
          Dialect.base.lookup opcode = Dispatch.slot routine mode) ∧
        image.holds (PC + 1) operand = true := by
  rw [fetches, Bool.and_eq_true, Bool.and_eq_true, decide_eq_true_iff, Option.any_eq_true]
  simp only [decide_eq_true_eq, and_assoc]

/-- The rule of one instruction. -/
theorem Processor.Runs.step {routine : Routine} {mode : AddressingMode} {operand : List Byte}
    {next : Processor} {calls : Nat}
    (fetch : image.fetches processor.PC routine mode operand = true)
    (settled : mode ∈ routine.modes ∧ mode ∉ routine.endlessModes ∧ mode ∉ routine.residueModes)
    (core_eq : (routine.straight mode ((processor.core image).fetched Locals.zero)).1.core =
      next.core image)
    (calls_eq : (routine.straight mode ((processor.core image).fetched Locals.zero)).2 = calls)
    (further : next.Runs image (spent + (calls + 1)) post) :
    processor.Runs image spent post := by
  obtain ⟨below, ⟨opcode, found, decoded⟩, -⟩ := Image.fetches_iff.mp fetch
  obtain ⟨assigned, ends, fresh⟩ := settled
  have opcode_eq : (processor.core image).opcode = opcode := by
    change (image.get? processor.PC).getD _ = opcode
    rw [found]
    rfl
  have known : (processor.core image).opcode ∉ Dialect.base.unassignedOpcodes .staged := by
    rw [Dialect.lookup_unassigned, opcode_eq, decoded]
    rintro ⟨other, other_eq, residue⟩
    cases other_eq
    exact fresh residue
  have executed := Dialect.execute_of_slot (opcode_eq ▸ decoded) assigned ends
    ((processor.core image).fetched Locals.zero)
  have moves : (machineCode Ram .base image.limit).step (processor.core image) =
      some (calls + 1, next.core image) := by
    change Core.instruct .base image.limit _ = _
    rw [Core.instruct, if_pos ⟨below, known⟩, executed, Option.map_some, core_eq, calls_eq]
  obtain ⟨cycles, final, leads, holds⟩ := further
  exact ⟨calls + 1 + cycles, final, .step moves leads, by rwa [← Nat.add_assoc]⟩

end Programs
end System6502
