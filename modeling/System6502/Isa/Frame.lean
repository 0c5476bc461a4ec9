import System6502.Bus
import Mathlib.Order.Basic

/-!
# Instruction contexts

An instruction function works on the bus, the registers and its own local variables.  In a staged
function the locals are `static` and keep their contents between calls; in a static-mode function
they start with whatever the stack held.  Both are one record here, so a theorem that quantifies
over the initial record covers every retained and every uninitialised value.
-/

namespace System6502

/-- The 6502 operand addressing modes. -/
inductive AddressingMode
  | undefined
  | accumulator
  | absolute
  | absoluteXIndexed
  | absoluteYIndexed
  | immediate
  | implied
  | indirect
  | xIndexedIndirect
  | indirectYIndexed
  | relative
  | zeropage
  | zeropageXIndexed
  | zeropageYIndexed
  | zeropageIndirect
  | absoluteXIndexedIndirect
  deriving DecidableEq, Repr

namespace AddressingMode

/-- `isa_6502_addressing_operand_counts`; the source's array has no entry for `undefined`. -/
def operandCount : AddressingMode → Option Nat
  | undefined => none
  | accumulator | implied => some 0
  | absolute | absoluteXIndexed | absoluteYIndexed | indirect | absoluteXIndexedIndirect => some 2
  | immediate | xIndexedIndirect | indirectYIndexed | relative | zeropage | zeropageXIndexed
  | zeropageYIndexed | zeropageIndirect => some 1

end AddressingMode

/-- The dispatch stages the executor and the instruction functions exchange; `other` is any
further content of the stage variable. -/
inductive Stage
  | nextCycle
  | instrEnd
  | execDMA
  | other (bits : BitVec 32)
  deriving DecidableEq, Repr

/-- Local variables of an instruction function, under the names the source declares.  `OPERAND`
is held in a word; a function that declares it `uint8_t` uses its low byte only. -/
structure Locals where
  /-- The assembled operand address. -/
  ADDR16 : Word
  /-- The operand address before indexing. -/
  ADDR16PreIndex : Word
  /-- The zero-page operand address. -/
  ADDR8 : Byte
  /-- The operand. -/
  OPERAND : Word
  /-- The displacement of a branch. -/
  DELTA : Byte
  /-- Low byte of an indirect jump target. -/
  INDIRECT : Word
  /-- The register copy of a stack instruction (`A`, `X`, `Y` or `SR` in the source). -/
  latch : Byte
  /-- Decimal mode at the first cycle. -/
  isBCD : Bool
  /-- Whether a 65C02 function has already read its operand. -/
  isOperandSet : Bool
  /-- Whether a read-modify-write function has reached its penultimate cycle. -/
  isPenultimate : Bool
  /-- The flag accumulator of a static-mode arithmetic function. -/
  flagBits : Byte
  /-- The cycle counter of a static-mode function. -/
  cycleCount : Nat
  deriving DecidableEq, Repr

/-- The zero initialisation of static variables. -/
def Locals.zero : Locals where
  ADDR16 := 0
  ADDR16PreIndex := 0
  ADDR8 := 0
  OPERAND := 0
  DELTA := 0
  INDIRECT := 0
  latch := 0
  isBCD := false
  isOperandSet := false
  isPenultimate := false
  flagBits := 0
  cycleCount := 0

/-- Everything an instruction function can read or change. -/
structure Frame (μ : Type*) where
  /-- The bus. -/
  memory : μ
  /-- The register file. -/
  registers : Registers
  /-- The function's local variables. -/
  locals : Locals

namespace Frame

variable {μ : Type*}

/-- Change the registers. -/
def onRegisters (frame : Frame μ) (change : Registers → Registers) : Frame μ :=
  { frame with registers := change frame.registers }

/-- Change the local variables. -/
def onLocals (frame : Frame μ) (change : Locals → Locals) : Frame μ :=
  { frame with locals := change frame.locals }

@[simp]
theorem registers_onRegisters (frame : Frame μ) (change : Registers → Registers) :
    (frame.onRegisters change).registers = change frame.registers := rfl

@[simp]
theorem locals_onRegisters (frame : Frame μ) (change : Registers → Registers) :
    (frame.onRegisters change).locals = frame.locals := rfl

@[simp]
theorem registers_onLocals (frame : Frame μ) (change : Locals → Locals) :
    (frame.onLocals change).registers = frame.registers := rfl

@[simp]
theorem locals_onLocals (frame : Frame μ) (change : Locals → Locals) :
    (frame.onLocals change).locals = change frame.locals := rfl

/-- Return from a staged function with further cycles to come. -/
def next (frame : Frame μ) : Frame μ × Stage := (frame, .nextCycle)

/-- Return from a staged function at the end of its instruction. -/
def done (frame : Frame μ) : Frame μ × Stage := (frame, .instrEnd)

/-- Whether indexing left the page of the base address. -/
def crossed (frame : Frame μ) : Bool :=
  !decide (frame.locals.ADDR16PreIndex.SamePage frame.locals.ADDR16)

/-- The cycle a static-mode function adds when indexing left the page of the base address. -/
def pageCycle (frame : Frame μ) : Nat := if frame.crossed then 1 else 0

theorem pageCycle_eq (frame : Frame μ) :
    frame.pageCycle =
      if frame.locals.ADDR16PreIndex.SamePage frame.locals.ADDR16 then 0 else 1 := by
  by_cases same : frame.locals.ADDR16PreIndex.SamePage frame.locals.ADDR16 <;>
    simp [pageCycle, crossed, same]

/-- `ADDR8 += index`. -/
def indexADDR8 (index : Registers → Byte) (frame : Frame μ) : Frame μ :=
  frame.onLocals fun locals => { locals with ADDR8 := locals.ADDR8 + index frame.registers }

/-- `ADDR16_pre_index = ADDR16; ADDR16 += index`. -/
def indexADDR16 (index : Registers → Byte) (frame : Frame μ) : Frame μ :=
  frame.onLocals fun locals =>
    { locals with
      ADDR16PreIndex := locals.ADDR16
      ADDR16 := locals.ADDR16 + (index frame.registers).toWord }

/-- `ADDR16 += index`, without keeping the address before indexing. -/
def offsetADDR16 (index : Registers → Byte) (frame : Frame μ) : Frame μ :=
  frame.onLocals fun locals =>
    { locals with ADDR16 := locals.ADDR16 + (index frame.registers).toWord }

/-- `ADDR16 = ADDR8`. -/
def widenADDR8 (frame : Frame μ) : Frame μ :=
  frame.onLocals fun locals => { locals with ADDR16 := locals.ADDR8.toWord }

/-- `is_BCD = registers_SR_get_bit(registers, register_SR_Bit_D)`. -/
def latchBCD (frame : Frame μ) : Frame μ :=
  frame.onLocals fun locals => { locals with isBCD := frame.registers.getBit Registers.bitD }

section Access

variable [Membus μ]

/-- Read an address and go on with the byte. -/
def readThen (frame : Frame μ) (address : Word) (use : Byte → Frame μ → Frame μ) : Frame μ :=
  let result := Membus.readAddr frame.memory address
  use result.1 { frame with memory := result.2 }

/-- Read an address and store the byte in a local variable. -/
def readInto (frame : Frame μ) (address : Word) (store : Byte → Locals → Locals) : Frame μ :=
  frame.readThen address fun value after => after.onLocals (store value)

/-- Read at `PC++` and store the byte in a local variable. -/
def fetchInto (frame : Frame μ) (store : Byte → Locals → Locals) : Frame μ :=
  (frame.readInto frame.registers.PC store).onRegisters fun registers =>
    { registers with PC := registers.PC + 1 }

/-- `ADDR8 = membus_read_addr(memory, PC++)`. -/
def fetchADDR8 (frame : Frame μ) : Frame μ :=
  frame.fetchInto fun value locals => { locals with ADDR8 := value }

/-- `ADDR16 = membus_read_addr(memory, PC++)`. -/
def fetchLow (frame : Frame μ) : Frame μ :=
  frame.fetchInto fun value locals => { locals with ADDR16 := value.toWord }

/-- `ADDR16 |= membus_read_addr(memory, PC++) << 8`. -/
def fetchHigh (frame : Frame μ) : Frame μ :=
  frame.fetchInto fun value locals =>
    { locals with ADDR16 := locals.ADDR16 ||| (value.toWord <<< 8) }

/-- `OPERAND = membus_read_addr(memory, PC++)`. -/
def fetchOPERAND (frame : Frame μ) : Frame μ :=
  frame.fetchInto fun value locals => { locals with OPERAND := value.toWord }

/-- `DELTA = membus_read_addr(memory, PC++)`. -/
def fetchDELTA (frame : Frame μ) : Frame μ :=
  frame.fetchInto fun value locals => { locals with DELTA := value }

/-- `OPERAND = membus_read_addr(memory, ADDR8)`. -/
def readAtADDR8 (frame : Frame μ) : Frame μ :=
  frame.readInto frame.locals.ADDR8.toWord fun value locals =>
    { locals with OPERAND := value.toWord }

/-- `OPERAND = membus_read_addr(memory, ADDR16)`. -/
def readAtADDR16 (frame : Frame μ) : Frame μ :=
  frame.readInto frame.locals.ADDR16 fun value locals => { locals with OPERAND := value.toWord }

/-- `ADDR16 = membus_read_addr(memory, ADDR8++)`. -/
def pointerLow (frame : Frame μ) : Frame μ :=
  frame.readInto frame.locals.ADDR8.toWord fun value locals =>
    { locals with ADDR16 := value.toWord, ADDR8 := locals.ADDR8 + 1 }

/-- `ADDR16 |= membus_read_addr(memory, ADDR8) << 8`. -/
def pointerHigh (frame : Frame μ) : Frame μ :=
  frame.readInto frame.locals.ADDR8.toWord fun value locals =>
    { locals with ADDR16 := locals.ADDR16 ||| (value.toWord <<< 8) }

/-- `ADDR16 |= membus_read_addr(memory, ADDR8)`, a high byte merged without its shift. -/
def pointerHighUnshifted (frame : Frame μ) : Frame μ :=
  frame.readInto frame.locals.ADDR8.toWord fun value locals =>
    { locals with ADDR16 := locals.ADDR16 ||| value.toWord }

/-- Read the operand in this cycle unless indexing left the page. -/
def readUnlessCrossed (frame : Frame μ) : Frame μ × Stage :=
  if frame.locals.ADDR16PreIndex.SamePage frame.locals.ADDR16 then frame.readAtADDR16.done
  else frame.next

/-- `membus_write_addr(memory, address, value)`. -/
def write (frame : Frame μ) (address : Word) (value : Byte) : Frame μ :=
  { frame with memory := Membus.writeAddr frame.memory address value }

/-- `__isa_6502_push`. -/
def push (frame : Frame μ) (value : Byte) : Frame μ :=
  (frame.write (0x0100 + frame.registers.SP.toWord) value).onRegisters fun registers =>
    { registers with SP := registers.SP - 1 }

/-- `__isa_6502_pop`, going on with the byte. -/
def popThen (frame : Frame μ) (use : Byte → Frame μ → Frame μ) : Frame μ :=
  let raised := frame.onRegisters fun registers => { registers with SP := registers.SP + 1 }
  raised.readThen (0x0100 + raised.registers.SP.toWord) use

/-- `__isa_6502_pop`, storing the byte in a local variable. -/
def popInto (frame : Frame μ) (store : Byte → Locals → Locals) : Frame μ :=
  frame.popThen fun value after => after.onLocals (store value)

/-- Push the high byte of the program counter. -/
def pushPCHigh (frame : Frame μ) : Frame μ := frame.push frame.registers.PC.high

/-- Push the low byte of the program counter. -/
def pushPCLow (frame : Frame μ) : Frame μ := frame.push frame.registers.PC.low

end Access
end Frame

/-- The part of the machine that a program sees. -/
structure Core (μ : Type*) where
  /-- The bus. -/
  memory : μ
  /-- The register file. -/
  registers : Registers

/-- The bus and the registers of a frame. -/
def Frame.core (frame : Frame μ) : Core μ :=
  { memory := frame.memory, registers := frame.registers }

namespace Core

variable {μ : Type*} [Membus μ]

/-- The byte at the program counter. -/
def opcode (core : Core μ) : Byte := (Membus.readAddr core.memory core.registers.PC).1

/-- The frame after the opcode fetch. -/
def fetched (core : Core μ) (locals : Locals) : Frame μ where
  memory := (Membus.readAddr core.memory core.registers.PC).2
  registers := { core.registers with PC := core.registers.PC + 1 }
  locals

end Core

/-- A staged instruction function: one call for each value of `cycle_count`. -/
abbrev Handler (μ : Type*) := Nat → Frame μ → Frame μ × Stage

/-- A static-mode instruction function: one call, with the cycles it adds to `cycle_count`. -/
abbrev StaticHandler (μ : Type*) := Frame μ → Frame μ × Nat

/-- The part of a staged function after its switch: run `finish` when the switch has ended the
instruction. -/
def completing {μ : Type*} (access : Handler μ) (finish : Frame μ → Frame μ) : Handler μ :=
  fun cycle frame =>
    match access cycle frame with
    | (after, .instrEnd) => (finish after, .instrEnd)
    | (after, stage) => (after, stage)

/-- The part of a static-mode function after its switch. -/
def completingStatic {μ : Type*} (access : StaticHandler μ) (finish : Frame μ → Frame μ) :
    StaticHandler μ :=
  fun frame => (finish (access frame).1, (access frame).2)

/-- Calls of a staged function with successive values of `cycle_count`, from `cycle` on and at
most `fuel` of them: the value at which the function ended its instruction and the frame then. -/
def runCalls {μ : Type*} (handler : Handler μ) : Nat → Nat → Frame μ → Option (Nat × Frame μ)
  | 0, _, _ => none
  | fuel + 1, cycle, frame =>
      match handler cycle frame with
      | (after, .instrEnd) => some (cycle, after)
      | (after, _) => runCalls handler fuel (cycle + 1) after

section Calls

variable {μ : Type*}

theorem runCalls_next {handler : Handler μ} {fuel cycle : Nat} {before after : Frame μ}
    (call : handler cycle before = after.next) :
    runCalls handler (fuel + 1) cycle before = runCalls handler fuel (cycle + 1) after := by
  simp only [runCalls, call, Frame.next]

theorem runCalls_done {handler : Handler μ} {fuel cycle : Nat} {before after : Frame μ}
    (call : handler cycle before = after.done) :
    runCalls handler (fuel + 1) cycle before = some (cycle, after) := by
  simp only [runCalls, call, Frame.done]

/-- Further calls do not change the outcome of a function that has ended. -/
theorem runCalls_mono {handler : Handler μ} {fuel cycle : Nat} {frame : Frame μ}
    {outcome : Nat × Frame μ} (ended : runCalls handler fuel cycle frame = some outcome)
    (extra : Nat) : runCalls handler (fuel + extra) cycle frame = some outcome := by
  induction fuel generalizing cycle frame with
  | zero => cases ended
  | succ fuel ih =>
      rw [Nat.succ_add]
      rw [runCalls] at ended ⊢
      split at ended
      · simpa only using ended
      · exact ih ended

theorem runCalls_unique {handler : Handler μ} {fuel other cycle : Nat} {frame : Frame μ}
    {first second : Nat × Frame μ} (ended : runCalls handler fuel cycle frame = some first)
    (otherEnded : runCalls handler other cycle frame = some second) : first = second := by
  have longer := runCalls_mono ended other
  rw [Nat.add_comm fuel, runCalls_mono otherEnded fuel] at longer
  exact (Option.some.inj longer).symm

/-- A function whose every further call asks for one more never ends its instruction. -/
theorem runCalls_eq_none {handler : Handler μ} {cycle : Nat}
    (asks : ∀ later frame, cycle ≤ later → (handler later frame).2 = .nextCycle)
    (fuel : Nat) (frame : Frame μ) : runCalls handler fuel cycle frame = none := by
  induction fuel generalizing cycle frame with
  | zero => rfl
  | succ fuel ih =>
      have step : handler cycle frame = (handler cycle frame).1.next :=
        Prod.ext rfl (asks cycle frame le_rfl)
      rw [runCalls_next step]
      exact ih (fun later frame later_le => asks later frame (by omega)) _

/-- The tail of a staged function runs once, on the frame its switch ended with. -/
theorem runCalls_completing (access : Handler μ) (finish : Frame μ → Frame μ)
    (fuel cycle : Nat) (frame : Frame μ) :
    runCalls (completing access finish) fuel cycle frame =
      (runCalls access fuel cycle frame).map fun outcome => (outcome.1, finish outcome.2) := by
  induction fuel generalizing cycle frame with
  | zero => rfl
  | succ fuel ih =>
      rcases access_eq : access cycle frame with ⟨after, stage⟩
      cases stage <;> simp only [runCalls, completing, access_eq, Option.map_some, ih]

/-- A staged function performs a straight-line program when its calls end, within seven, with the
frame and the number of calls of the program. -/
def Performs (handler : Handler μ) (program : StaticHandler μ) : Prop :=
  ∀ frame, runCalls handler 7 1 frame = some ((program frame).2, (program frame).1)

theorem Performs.completing {access : Handler μ} {program : StaticHandler μ}
    (performs : Performs access program) (finish : Frame μ → Frame μ) :
    Performs (completing access finish) (completingStatic program finish) := by
  intro frame
  rw [runCalls_completing, performs frame]
  rfl

end Calls

end System6502
