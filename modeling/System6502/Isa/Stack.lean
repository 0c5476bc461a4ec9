import System6502.Isa.Straight
import System6502.Lib.RingStack

/-!
# The stack in page one

Buses that back page one with RAM, and what the instructions that push or pull do to it.
-/

namespace System6502

open Lib System6502.Frame

/-- The address of a stack cell. -/
def stackAddress (cell : Byte) : Word := 0x0100 + cell.toWord

theorem stackAddress_inj {cell other : Byte} :
    stackAddress cell = stackAddress other ↔ cell = other := by
  refine ⟨fun address_eq => ?_, fun cell_eq => by rw [cell_eq]⟩
  rw [← Word.toByte_toWord cell, ← Word.toByte_toWord other]
  exact congrArg Word.toByte (add_left_cancel address_eq)

/-- The stack pointer goes through all 256 cells before it comes back to one. -/
theorem spacious_byte : RingStack.Spacious Byte 256 := by
  intro step positive bounded zero_eq
  have value_eq := congrArg BitVec.toNat zero_eq
  rw [BitVec.natCast_eq_ofNat, BitVec.toNat_ofNat] at value_eq
  rw [Nat.mod_eq_of_lt bounded] at value_eq
  exact absurd value_eq positive.ne'

/-- A bus whose page one is RAM: a cell answers with the byte last written to it, and neither a
read nor a write elsewhere changes it. -/
class PageOneRam (μ : Type*) extends Membus μ where
  /-- The content of a stack cell. -/
  cell : μ → Byte → Byte
  /-- Reading a cell obtains its content. -/
  readAddr_stackAddress : ∀ memory which,
    (readAddr memory (stackAddress which)).1 = cell memory which
  /-- Reading does not change a cell. -/
  cell_readAddr : ∀ memory address which,
    cell (readAddr memory address).2 which = cell memory which
  /-- Writing changes the cell at the address only. -/
  cell_writeAddr : ∀ memory address value which,
    cell (writeAddr memory address value) which =
      if address = stackAddress which then value else cell memory which

instance : PageOneRam Ram where
  cell ram which := ram (stackAddress which)
  readAddr_stackAddress _ _ := rfl
  cell_readAddr _ _ _ := rfl
  cell_writeAddr ram address value which := by
    simp only [Ram.writeAddr_eq, Function.update_apply, eq_comm]

variable {μ : Type*} [PageOneRam μ]

namespace Frame

/-- The content of the stack cells. -/
def cells (frame : Frame μ) : Byte → Byte := PageOneRam.cell frame.memory

@[simp]
theorem cells_onRegisters (frame : Frame μ) (change : Registers → Registers) :
    (frame.onRegisters change).cells = frame.cells := rfl

@[simp]
theorem cells_onLocals (frame : Frame μ) (change : Locals → Locals) :
    (frame.onLocals change).cells = frame.cells := rfl

@[simp]
theorem cells_readInto (frame : Frame μ) (address : Word) (store : Byte → Locals → Locals) :
    (frame.readInto address store).cells = frame.cells :=
  funext fun which => PageOneRam.cell_readAddr frame.memory address which

@[simp]
theorem cells_fetchInto (frame : Frame μ) (store : Byte → Locals → Locals) :
    (frame.fetchInto store).cells = frame.cells := cells_readInto frame _ store

@[simp]
theorem cells_push (frame : Frame μ) (value : Byte) :
    (frame.push value).cells = Function.update frame.cells frame.registers.SP value := by
  funext which
  rw [Function.update_apply]
  refine (PageOneRam.cell_writeAddr frame.memory _ value which).trans ?_
  change (if stackAddress frame.registers.SP = stackAddress which then _ else _) = _
  rw [if_congr (stackAddress_inj.trans eq_comm) rfl rfl]
  rfl

@[simp]
theorem registers_push (frame : Frame μ) (value : Byte) :
    (frame.push value).registers =
      { frame.registers with SP := frame.registers.SP - 1 } := rfl

@[simp]
theorem locals_push (frame : Frame μ) (value : Byte) :
    (frame.push value).locals = frame.locals := rfl

@[simp]
theorem cells_popInto (frame : Frame μ) (store : Byte → Locals → Locals) :
    (frame.popInto store).cells = frame.cells :=
  funext fun which => PageOneRam.cell_readAddr frame.memory _ which

@[simp]
theorem registers_popInto (frame : Frame μ) (store : Byte → Locals → Locals) :
    (frame.popInto store).registers =
      { frame.registers with SP := frame.registers.SP + 1 } := rfl

/-- A pull obtains the cell above the stack pointer. -/
@[simp]
theorem locals_popInto (frame : Frame μ) (store : Byte → Locals → Locals) :
    (frame.popInto store).locals =
      store (frame.cells (frame.registers.SP + 1)) frame.locals := by
  rw [cells, ← PageOneRam.readAddr_stackAddress]
  rfl

@[simp]
theorem cells_popReturn (frame : Frame μ) : (popReturn frame).cells = frame.cells :=
  funext fun which => PageOneRam.cell_readAddr frame.memory _ which

@[simp]
theorem registers_popReturn (frame : Frame μ) :
    (popReturn frame).registers =
      { frame.registers with
        SP := frame.registers.SP + 1
        PC := frame.locals.ADDR16 |||
          ((frame.cells (frame.registers.SP + 1)).toWord <<< 8) } := by
  rw [cells, ← PageOneRam.readAddr_stackAddress]
  rfl

end Frame

/-! ## Vectors -/

/-- The little-endian word that two reads at a vector obtain. -/
def vectorWord {μ : Type*} [Membus μ] (memory : μ) (vector : Word) : Word :=
  Word.littleEndian (Membus.readAddr memory vector).1
    (Membus.readAddr (Membus.readAddr memory vector).2 (vector + 1)).1

/-- The bus with the program counter and a status byte on its stack. -/
def pushedBus {μ : Type*} [Membus μ] (memory : μ) (registers : Registers) (status : Byte) : μ :=
  let high := Membus.writeAddr memory (stackAddress registers.SP) registers.PC.high
  let low := Membus.writeAddr high (stackAddress (registers.SP - 1)) registers.PC.low
  Membus.writeAddr low (stackAddress (registers.SP - 1 - 1)) status

/-- The three pushed bytes lie on the stack, the status on top. -/
theorem holds_pushedBus (memory : μ) (registers : Registers) (status : Byte) :
    RingStack.Holds (PageOneRam.cell (pushedBus memory registers status))
      (registers.SP - 1 - 1 - 1) [status, registers.PC.low, registers.PC.high] := by
  have written : ∀ (bus : μ) which value,
      PageOneRam.cell (Membus.writeAddr bus (stackAddress which) value) =
        Function.update (PageOneRam.cell bus) which value := by
    intro bus which value
    funext other
    rw [PageOneRam.cell_writeAddr, Function.update_apply]
    exact if_congr (stackAddress_inj.trans eq_comm) rfl rfl
  have empty : RingStack.Holds (PageOneRam.cell memory) registers.SP [] := trivial
  have one := empty.push spacious_byte (show 0 < 256 by decide) registers.PC.high
  have two := one.push spacious_byte (show 1 < 256 by decide) registers.PC.low
  have three := two.push spacious_byte (show 2 < 256 by decide) status
  simp only [pushedBus, written]
  exact three

/-! ## Returns -/

theorem cells_isa6502StaticRTS (frame : Frame μ) :
    (isa6502StaticRTS frame).1.cells = frame.cells := by
  simp [isa6502StaticRTS, popLow, popHigh, loadPC]

/-- `RTS` takes the program counter from the two cells above the pointer. -/
theorem registers_isa6502StaticRTS (frame : Frame μ) :
    (isa6502StaticRTS frame).1.registers =
      { frame.registers with
        SP := frame.registers.SP + 1 + 1
        PC := Word.littleEndian (frame.cells (frame.registers.SP + 1))
          (frame.cells (frame.registers.SP + 1 + 1)) } := by
  simp [isa6502StaticRTS, popLow, popHigh, loadPC, assignPC, Word.littleEndian]


theorem cells_isa6502StaticRTI (frame : Frame μ) :
    (isa6502StaticRTI frame).1.cells = frame.cells := by
  simp [isa6502StaticRTI, popLow, loadSR, maskLatch, popLatch]

/-- `RTI` takes the status and the program counter from the three cells above the pointer. -/
theorem registers_isa6502StaticRTI (frame : Frame μ) :
    (isa6502StaticRTI frame).1.registers =
      { frame.registers with
        SP := frame.registers.SP + 1 + 1 + 1
        SR := pulledStatus (frame.cells (frame.registers.SP + 1))
        PC := Word.littleEndian (frame.cells (frame.registers.SP + 1 + 1))
          (frame.cells (frame.registers.SP + 1 + 1 + 1)) } := by
  simp [isa6502StaticRTI, popLow, loadSR, maskLatch, popLatch, assignSR, Word.littleEndian]

end System6502
