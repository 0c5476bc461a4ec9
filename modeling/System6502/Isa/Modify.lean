import System6502.Isa.Frame

/-!
# Read-modify-write instructions

Shifts, rotates, increments, decrements and the 65C02's test-and-modify pair.  The staged shifts
carry `is_penultimate` in a static variable that only the first cycle clears, so the tail of the
last cycle sees it still set.
-/

namespace System6502

open System6502.Frame

variable {μ : Type*} [Membus μ]

/-! ## Shifts and rotates -/

/-- The result of a shift on a sixteen-bit operand and the carry it leaves. -/
abbrev ShiftResult := Word × Bool

/-- `OPERAND <<= 1`. -/
def shiftLeft (_registers : Registers) (OPERAND : Word) : ShiftResult :=
  let shifted := OPERAND <<< 1
  (shifted, shifted &&& 0xFF00 != 0)

/-- `OPERAND = (OPERAND << 1) | C`. -/
def rotateLeft (registers : Registers) (OPERAND : Word) : ShiftResult :=
  let shifted := (OPERAND <<< 1) ||| registers.bitValue Registers.bitC
  (shifted, shifted &&& 0xFF00 != 0)

/-- `OPERAND >>= 1`. -/
def shiftRight (_registers : Registers) (OPERAND : Word) : ShiftResult :=
  (OPERAND >>> 1, OPERAND &&& 0x0001 != 0)

/-- `OPERAND = ((OPERAND >> 1) | (C << 7)) & 0x00FF`. -/
def rotateRight (registers : Registers) (OPERAND : Word) : ShiftResult :=
  (((OPERAND >>> 1) ||| (registers.bitValue Registers.bitC <<< 7)) &&& 0x00FF,
    OPERAND &&& 0x0001 != 0)

/-- Shift the accumulator in place. -/
def shiftAccumulator (shift : Registers → Word → ShiftResult) (frame : Frame μ) : Frame μ :=
  let (shifted, carry) := shift frame.registers frame.registers.A.toWord
  frame.onRegisters fun registers =>
    ({ registers with A := shifted.toByte } : Registers).didSetA (Carry.ofBool carry)

/-- Shift the accumulator through `OPERAND`, as the left shifts of the source do. -/
def shiftAccumulatorThrough (shift : Registers → Word → ShiftResult) (frame : Frame μ) :
    Frame μ :=
  (shiftAccumulator shift frame).onLocals fun locals =>
    { locals with OPERAND := (shift frame.registers frame.registers.A.toWord).1 }

/-- Shift the operand and set the flags from the result. -/
def shiftOPERAND (shift : Registers → Word → ShiftResult) (frame : Frame μ) : Frame μ :=
  let (shifted, carry) := shift frame.registers frame.locals.OPERAND
  (frame.onLocals fun locals => { locals with OPERAND := shifted }).onRegisters fun registers =>
    registers.statusWithValue shifted.toByte (Carry.ofBool carry)

/-- `is_penultimate = value`. -/
def markPenultimate (value : Bool) (frame : Frame μ) : Frame μ :=
  frame.onLocals fun locals => { locals with isPenultimate := value }

/-- Write the low byte of the operand at `ADDR16`. -/
def writeOPERAND (frame : Frame μ) : Frame μ :=
  frame.write frame.locals.ADDR16 frame.locals.OPERAND.toByte

/-- The memory cycles of a base-dialect shift. -/
def shiftAccess (mode : AddressingMode) : Handler μ := fun cycle frame =>
  match cycle with
  | 1 =>
      let frame := markPenultimate false frame
      match mode with
      | .zeropage | .zeropageXIndexed => frame.fetchADDR8.next
      | .absolute | .absoluteXIndexed => frame.fetchLow.next
      | _ => frame.next
  | 2 =>
      match mode with
      | .zeropage => frame.readAtADDR8.next
      | .zeropageXIndexed => (frame.indexADDR8 Registers.X).next
      | .absolute | .absoluteXIndexed => frame.fetchHigh.next
      | _ => frame.next
  | 3 =>
      match mode with
      | .zeropage => (markPenultimate true frame).next
      | .zeropageXIndexed => frame.readAtADDR8.next
      | .absolute => frame.readAtADDR16.next
      | .absoluteXIndexed => (frame.offsetADDR16 Registers.X).next
      | _ => frame.next
  | 4 =>
      match mode with
      | .zeropage => frame.widenADDR8.done
      | .zeropageXIndexed | .absolute => (markPenultimate true frame).next
      | .absoluteXIndexed => frame.readAtADDR16.next
      | _ => frame.next
  | 5 =>
      match mode with
      | .zeropageXIndexed => frame.widenADDR8.done
      | .absolute => frame.done
      | .absoluteXIndexed => (markPenultimate true frame).next
      | _ => frame.next
  | 6 => frame.done
  | _ => frame.next

/-- The memory cycles of a 65C02 shift: an indexed access inside one page is a cycle shorter. -/
def shiftAccess65C02 : AddressingMode → Handler μ
  | .absoluteXIndexed => fun cycle frame =>
      match cycle with
      | 1 => (markPenultimate false frame).fetchLow.next
      | 2 => frame.fetchHigh.next
      | 3 => (frame.indexADDR16 Registers.X).next
      | 4 =>
          if frame.locals.ADDR16PreIndex.SamePage frame.locals.ADDR16 then
            (markPenultimate true frame.readAtADDR16).next
          else frame.next
      | 5 =>
          if frame.locals.isPenultimate then frame.done
          else (markPenultimate true frame.readAtADDR16).next
      | 6 => frame.done
      | _ => frame.next
  | mode => shiftAccess mode

/-- The tail of a shift: the operand is written only where `is_penultimate` is clear. -/
def shiftTail (shift : Registers → Word → ShiftResult) :
    Frame μ × Stage → Frame μ × Stage
  | (frame, stage) =>
      if frame.locals.isPenultimate then (shiftOPERAND shift frame, stage)
      else if stage = .instrEnd then (writeOPERAND frame, stage)
      else (frame, stage)

/-- A staged shift, from its accumulator case, its memory cycles and its operation. -/
def stagedShift (accumulator : Frame μ → Frame μ)
    (access : AddressingMode → Handler μ) (shift : Registers → Word → ShiftResult)
    (mode : AddressingMode) : Handler μ := fun cycle frame =>
  if cycle = 1 ∧ mode = .accumulator then
    (accumulator (markPenultimate false frame)).done
  else shiftTail shift (access mode cycle frame)

/-- Straight-line addressing of a base-dialect memory shift, increment or decrement. -/
def modifyStaticAccess (mode : AddressingMode) : StaticHandler μ := fun frame =>
  match mode with
  | .zeropage => (frame.fetchADDR8.readAtADDR8.widenADDR8, 4)
  | .zeropageXIndexed => ((frame.fetchADDR8.indexADDR8 Registers.X).readAtADDR8.widenADDR8, 5)
  | .absolute => (frame.fetchLow.fetchHigh.readAtADDR16, 5)
  | .absoluteXIndexed => ((frame.fetchLow.fetchHigh.offsetADDR16 Registers.X).readAtADDR16, 6)
  | _ => (frame, frame.locals.cycleCount)

/-- Straight-line addressing of a 65C02 memory shift. -/
def shiftStaticAccess65C02 : AddressingMode → StaticHandler μ
  | .absoluteXIndexed => fun frame =>
      let indexed := frame.fetchLow.fetchHigh.indexADDR16 Registers.X
      (indexed.readAtADDR16, 5 + indexed.pageCycle)
  | mode => modifyStaticAccess mode

/-- A static-mode shift. -/
def staticShift (access : AddressingMode → StaticHandler μ)
    (shift : Registers → Word → ShiftResult) (mode : AddressingMode) : StaticHandler μ :=
  fun frame =>
    if mode = .accumulator then (shiftAccumulator shift frame, 1)
    else completingStatic (access mode) (fun after => writeOPERAND (shiftOPERAND shift after)) frame

/-- `__isa_6502_ASL`. -/
def isa6502ASL : AddressingMode → Handler μ :=
  stagedShift (shiftAccumulatorThrough shiftLeft) shiftAccess shiftLeft

/-- `__isa_6502_static_ASL`. -/
def isa6502StaticASL : AddressingMode → StaticHandler μ := staticShift modifyStaticAccess shiftLeft

/-- `__isa_6502_LSR`. -/
def isa6502LSR : AddressingMode → Handler μ :=
  stagedShift (shiftAccumulator shiftRight) shiftAccess shiftRight

/-- `__isa_6502_static_LSR`. -/
def isa6502StaticLSR : AddressingMode → StaticHandler μ := staticShift modifyStaticAccess shiftRight

/-- `__isa_6502_ROL`. -/
def isa6502ROL : AddressingMode → Handler μ :=
  stagedShift (shiftAccumulatorThrough rotateLeft) shiftAccess rotateLeft

/-- `__isa_6502_static_ROL`. -/
def isa6502StaticROL : AddressingMode → StaticHandler μ := staticShift modifyStaticAccess rotateLeft

/-- `__isa_6502_ROR`. -/
def isa6502ROR : AddressingMode → Handler μ :=
  stagedShift (shiftAccumulator rotateRight) shiftAccess rotateRight

/-- `__isa_6502_static_ROR`. -/
def isa6502StaticROR : AddressingMode → StaticHandler μ :=
  staticShift modifyStaticAccess rotateRight

/-- `__isa_65C02_ASL`; its accumulator case rotates the carry in. -/
def isa65C02ASL : AddressingMode → Handler μ :=
  stagedShift (shiftAccumulatorThrough rotateLeft) shiftAccess65C02 shiftLeft

/-- `__isa_65C02_static_ASL`. -/
def isa65C02StaticASL : AddressingMode → StaticHandler μ :=
  staticShift shiftStaticAccess65C02 shiftLeft

/-- `__isa_65C02_LSR`. -/
def isa65C02LSR : AddressingMode → Handler μ :=
  stagedShift (shiftAccumulator shiftRight) shiftAccess65C02 shiftRight

/-- `__isa_65C02_static_LSR`. -/
def isa65C02StaticLSR : AddressingMode → StaticHandler μ :=
  staticShift shiftStaticAccess65C02 shiftRight

/-- `__isa_65C02_ROL`. -/
def isa65C02ROL : AddressingMode → Handler μ :=
  stagedShift (shiftAccumulatorThrough rotateLeft) shiftAccess65C02 rotateLeft

/-- `__isa_65C02_static_ROL`. -/
def isa65C02StaticROL : AddressingMode → StaticHandler μ :=
  staticShift shiftStaticAccess65C02 rotateLeft

/-- `__isa_65C02_ROR`; its accumulator case rotates left. -/
def isa65C02ROR : AddressingMode → Handler μ :=
  stagedShift (shiftAccumulatorThrough rotateLeft) shiftAccess65C02 rotateRight

/-- `__isa_65C02_static_ROR`. -/
def isa65C02StaticROR : AddressingMode → StaticHandler μ :=
  staticShift shiftStaticAccess65C02 rotateRight

/-! ## Increments and decrements -/

/-- `OPERAND++` or `OPERAND--`. -/
def adjustOPERAND (step : Word) (frame : Frame μ) : Frame μ :=
  frame.onLocals fun locals => { locals with OPERAND := locals.OPERAND + step }

/-- The cycles of `INC` and `DEC` in memory. -/
def adjustAccess (step : Word) (mode : AddressingMode) : Handler μ := fun cycle frame =>
  match cycle with
  | 1 =>
      match mode with
      | .zeropage | .zeropageXIndexed => frame.fetchADDR8.next
      | .absolute | .absoluteXIndexed => frame.fetchLow.next
      | _ => frame.next
  | 2 =>
      match mode with
      | .zeropage => frame.readAtADDR8.widenADDR8.next
      | .zeropageXIndexed => (frame.indexADDR8 Registers.X).next
      | .absolute | .absoluteXIndexed => frame.fetchHigh.next
      | _ => frame.next
  | 3 =>
      match mode with
      | .zeropage => (adjustOPERAND step frame).next
      | .zeropageXIndexed => frame.readAtADDR8.widenADDR8.next
      | .absolute => frame.readAtADDR16.next
      | .absoluteXIndexed => (frame.offsetADDR16 Registers.X).next
      | _ => frame.next
  | 4 =>
      match mode with
      | .zeropage => frame.done
      | .zeropageXIndexed | .absolute => (adjustOPERAND step frame).next
      | .absoluteXIndexed => frame.readAtADDR16.next
      | _ => frame.next
  | 5 =>
      match mode with
      | .zeropageXIndexed | .absolute => frame.done
      | .absoluteXIndexed => (adjustOPERAND step frame).next
      | _ => frame.next
  | 6 => frame.done
  | _ => frame.next

/-- The tail of `INC` and `DEC`: write the operand and set the flags from it. -/
def storeAdjusted (frame : Frame μ) : Frame μ :=
  (writeOPERAND frame).onRegisters fun registers =>
    registers.statusWithValue frame.locals.OPERAND.toByte .ignore

/-- The accumulator case of the 65C02's `INC` and, as the source has it, of its `DEC`. -/
def incrementA (registers : Registers) : Registers :=
  ({ registers with A := registers.A + 1 } : Registers).didSetA .ignore

/-- A staged 65C02 increment or decrement. -/
def stagedAdjust65C02 (step : Word) (mode : AddressingMode) : Handler μ := fun cycle frame =>
  if cycle = 1 ∧ mode = .accumulator then (frame.onRegisters incrementA).done
  else completing (adjustAccess step mode) storeAdjusted cycle frame

/-- A static-mode increment or decrement. -/
def staticAdjust (step : Word) (mode : AddressingMode) : StaticHandler μ :=
  completingStatic (modifyStaticAccess mode) fun frame => storeAdjusted (adjustOPERAND step frame)

/-- A static-mode 65C02 increment or decrement. -/
def staticAdjust65C02 (step : Word) (mode : AddressingMode) : StaticHandler μ := fun frame =>
  if mode = .accumulator then (frame.onRegisters incrementA, 1) else staticAdjust step mode frame

/-- `__isa_6502_INC`. -/
def isa6502INC (mode : AddressingMode) : Handler μ :=
  completing (adjustAccess 1 mode) storeAdjusted

/-- `__isa_6502_static_INC`. -/
def isa6502StaticINC : AddressingMode → StaticHandler μ := staticAdjust 1

/-- `__isa_6502_DEC`. -/
def isa6502DEC (mode : AddressingMode) : Handler μ :=
  completing (adjustAccess (-1) mode) storeAdjusted

/-- `__isa_6502_static_DEC`. -/
def isa6502StaticDEC : AddressingMode → StaticHandler μ := staticAdjust (-1)

/-- `__isa_65C02_INC`. -/
def isa65C02INC : AddressingMode → Handler μ := stagedAdjust65C02 1

/-- `__isa_65C02_static_INC`. -/
def isa65C02StaticINC : AddressingMode → StaticHandler μ := staticAdjust65C02 1

/-- `__isa_65C02_DEC`; its accumulator case increments. -/
def isa65C02DEC : AddressingMode → Handler μ := stagedAdjust65C02 (-1)

/-- `__isa_65C02_static_DEC`; its accumulator case increments. -/
def isa65C02StaticDEC : AddressingMode → StaticHandler μ := staticAdjust65C02 (-1)

/-! ## Test and modify -/

/-- Set the zero flag from `A & OPERAND`. -/
def testAgainstA (frame : Frame μ) : Frame μ :=
  frame.onRegisters fun registers =>
    { registers with
      SR := (registers.SR &&& ~~~Registers.bitZ) |||
        if registers.A &&& frame.locals.OPERAND.toByte != 0 then 0 else Registers.bitZ }

/-- Write the operand combined with the accumulator. -/
def writeCombined (operation : Byte → Byte → Byte) (frame : Frame μ) : Frame μ :=
  frame.write frame.locals.ADDR16 (operation frame.locals.OPERAND.toByte frame.registers.A)

/-- A staged test-and-modify, from the stage it starts with.  The absolute case of the fourth
cycle falls through to the fifth. -/
def stagedTestModify (operation : Byte → Byte → Byte) (atStage : Stage)
    (mode : AddressingMode) : Handler μ := fun cycle frame =>
  match cycle with
  | 1 =>
      match mode with
      | .zeropage => (frame.fetchADDR8, atStage)
      | .absolute => (frame.fetchLow, atStage)
      | _ => (frame, atStage)
  | 2 =>
      match mode with
      | .zeropage => (frame.readAtADDR8, atStage)
      | .absolute => (frame.fetchHigh, atStage)
      | _ => (frame, atStage)
  | 3 =>
      match mode with
      | .zeropage => (testAgainstA frame.widenADDR8, atStage)
      | .absolute => (frame.readAtADDR16, atStage)
      | _ => (frame, atStage)
  | 4 =>
      match mode with
      | .absolute => (writeCombined operation (testAgainstA frame)).done
      | _ => (writeCombined operation frame).done
  | 5 => (writeCombined operation frame).done
  | _ => (frame, atStage)

/-- Straight-line addressing of a test-and-modify. -/
def testModifyStaticAccess (mode : AddressingMode) : StaticHandler μ := fun frame =>
  match mode with
  | .zeropage => (frame.fetchADDR8.readAtADDR8.widenADDR8, 4)
  | .absolute => (frame.fetchLow.fetchHigh.readAtADDR16, 5)
  | _ => (frame, frame.locals.cycleCount)

/-- A static-mode test-and-modify. -/
def staticTestModify (operation : Byte → Byte → Byte) (mode : AddressingMode) :
    StaticHandler μ :=
  completingStatic (testModifyStaticAccess mode) fun frame =>
    writeCombined operation (testAgainstA frame)

/-- `__isa_65C02_TSB`; it starts from the stage the caller passes, which is `nextCycle`. -/
def isa65C02TSB (atStage : Stage) : AddressingMode → Handler μ :=
  stagedTestModify (· ||| ·) atStage

/-- `__isa_65C02_static_TSB`. -/
def isa65C02StaticTSB : AddressingMode → StaticHandler μ := staticTestModify (· ||| ·)

/-- `__isa_65C02_TRB`. -/
def isa65C02TRB : AddressingMode → Handler μ :=
  stagedTestModify (fun OPERAND A => OPERAND &&& ~~~A) .nextCycle

/-- `__isa_65C02_static_TRB`. -/
def isa65C02StaticTRB : AddressingMode → StaticHandler μ :=
  staticTestModify fun OPERAND A => OPERAND &&& ~~~A

end System6502
