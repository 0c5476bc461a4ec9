import System6502.Isa.Frame

/-!
# Loads, arithmetic and comparisons

The instruction functions that read one operand and leave their result in the registers.  Each
staged function is its addressing switch followed by the common tail the source runs at the end
of the instruction; functions with the same switch share its definition here.
-/

namespace System6502

open System6502.Frame

variable {μ : Type*} [Membus μ]

/-! ## Addressing switches -/

/-- The cycles of `AND`, `ORA`, `EOR`, `ADC` and `SBC` in the base dialect. -/
def aluAccess (mode : AddressingMode) : Handler μ := fun cycle frame =>
  match cycle with
  | 1 =>
      match mode with
      | .immediate => frame.fetchOPERAND.done
      | .zeropage | .zeropageXIndexed | .xIndexedIndirect | .indirectYIndexed =>
          frame.fetchADDR8.next
      | .absolute | .absoluteXIndexed | .absoluteYIndexed => frame.fetchLow.next
      | _ => frame.next
  | 2 =>
      match mode with
      | .zeropage => frame.readAtADDR8.done
      | .zeropageXIndexed | .xIndexedIndirect => (frame.indexADDR8 Registers.X).next
      | .absolute | .absoluteXIndexed | .absoluteYIndexed => frame.fetchHigh.next
      | .indirectYIndexed => frame.pointerLow.next
      | _ => frame.next
  | 3 =>
      match mode with
      | .zeropageXIndexed => frame.readAtADDR8.done
      | .absolute => frame.readAtADDR16.done
      | .absoluteXIndexed => (frame.indexADDR16 Registers.X).readUnlessCrossed
      | .absoluteYIndexed => (frame.indexADDR16 Registers.Y).readUnlessCrossed
      | .xIndexedIndirect => frame.pointerLow.next
      | .indirectYIndexed => frame.pointerHigh.next
      | _ => frame.next
  | 4 =>
      match mode with
      | .absoluteXIndexed | .absoluteYIndexed => frame.readAtADDR16.done
      | .xIndexedIndirect => frame.pointerHigh.next
      | .indirectYIndexed => (frame.indexADDR16 Registers.Y).readUnlessCrossed
      | _ => frame.next
  | 5 => frame.readAtADDR16.done
  | _ => frame.next

/-- The cycles of the 65C02's `AND`, `ORA` and `EOR`: the base switch with `($zp)` added. -/
def aluAccess65C02 : AddressingMode → Handler μ
  | .zeropageIndirect => fun cycle frame =>
      match cycle with
      | 1 => frame.fetchADDR8.next
      | 2 => frame.pointerLow.next
      | 3 => frame.pointerHigh.next
      | 4 | 5 => frame.readAtADDR16.done
      | _ => frame.next
  | mode => aluAccess mode

/-- Straight-line addressing of `AND`, `ORA`, `EOR`, `ADC` and `SBC` in static mode.  The two
indexed absolute cases read their operand at the uninitialised `ADDR8`. -/
def aluStaticAccess (mode : AddressingMode) : StaticHandler μ := fun frame =>
  match mode with
  | .immediate => (frame.fetchOPERAND, 1)
  | .zeropage => (frame.fetchADDR8.readAtADDR8, 2)
  | .zeropageXIndexed => ((frame.fetchADDR8.indexADDR8 Registers.X).readAtADDR8, 3)
  | .absolute => (frame.fetchLow.fetchHigh.readAtADDR16, 3)
  | .absoluteXIndexed =>
      let indexed := frame.fetchLow.fetchHigh.indexADDR16 Registers.X
      (indexed.readAtADDR8, 3 + indexed.pageCycle)
  | .absoluteYIndexed =>
      let indexed := frame.fetchLow.fetchHigh.indexADDR16 Registers.Y
      (indexed.readAtADDR8, 3 + indexed.pageCycle)
  | .xIndexedIndirect =>
      ((frame.fetchADDR8.indexADDR8 Registers.X).pointerLow.pointerHigh.readAtADDR16, 5)
  | .indirectYIndexed =>
      let indexed := frame.fetchADDR8.pointerLow.pointerHigh.indexADDR16 Registers.Y
      (indexed.readAtADDR16, 4 + indexed.pageCycle)
  | _ => (frame, 0)

/-- Static-mode addressing of the same functions on the 65C02. -/
def aluStaticAccess65C02 : AddressingMode → StaticHandler μ
  | .zeropageIndirect => fun frame =>
      (frame.fetchADDR8.pointerLow.pointerHigh.readAtADDR16, 4)
  | mode => aluStaticAccess mode

/-- End the instruction in this cycle unless decimal mode asks for one more. -/
def doneUnlessBCD (frame : Frame μ) : Frame μ × Stage :=
  if frame.locals.isBCD then frame.next else frame.done

/-- Read the operand in this cycle if indexing stayed in the page, and remember whether it was
read. -/
def readTrackingCrossing (frame : Frame μ) : Frame μ × Stage :=
  if frame.locals.ADDR16PreIndex.SamePage frame.locals.ADDR16 then
    doneUnlessBCD
      (frame.readAtADDR16.onLocals fun locals => { locals with isOperandSet := true })
  else (frame.onLocals fun locals => { locals with isOperandSet := false }).next

/-- The cycle after `readTrackingCrossing`. -/
def readIfStillUnset (frame : Frame μ) : Frame μ × Stage :=
  if frame.locals.isOperandSet then frame.done else doneUnlessBCD frame.readAtADDR16

/-- The cycles of the 65C02's `ADC` and `SBC`, with the extra cycle of decimal mode.  There is no
case for `($zp)`. -/
def decimalAccess (mode : AddressingMode) : Handler μ := fun cycle frame =>
  match cycle with
  | 1 =>
      match mode with
      | .immediate => doneUnlessBCD frame.latchBCD.fetchOPERAND
      | .zeropage | .zeropageXIndexed | .xIndexedIndirect | .indirectYIndexed =>
          frame.latchBCD.fetchADDR8.next
      | .absolute | .absoluteXIndexed | .absoluteYIndexed => frame.latchBCD.fetchLow.next
      | _ => frame.latchBCD.next
  | 2 =>
      match mode with
      | .immediate => frame.done
      | .zeropage => doneUnlessBCD frame.readAtADDR8
      | .zeropageXIndexed | .xIndexedIndirect => (frame.indexADDR8 Registers.X).next
      | .absolute | .absoluteXIndexed | .absoluteYIndexed => frame.fetchHigh.next
      | .indirectYIndexed => frame.pointerLow.next
      | _ => frame.next
  | 3 =>
      match mode with
      | .zeropage => frame.done
      | .zeropageXIndexed => doneUnlessBCD frame.readAtADDR8
      | .absolute => doneUnlessBCD frame.readAtADDR16
      | .absoluteXIndexed => readTrackingCrossing (frame.indexADDR16 Registers.X)
      | .absoluteYIndexed => readTrackingCrossing (frame.indexADDR16 Registers.Y)
      | .xIndexedIndirect => frame.pointerLow.next
      | .indirectYIndexed => frame.pointerHigh.next
      | _ => frame.next
  | 4 =>
      match mode with
      | .zeropageXIndexed | .absolute => frame.done
      | .absoluteXIndexed | .absoluteYIndexed => readIfStillUnset frame
      | .xIndexedIndirect => frame.pointerHigh.next
      | .indirectYIndexed => readTrackingCrossing (frame.indexADDR16 Registers.Y)
      | _ => frame.next
  | 5 =>
      match mode with
      | .absoluteXIndexed | .absoluteYIndexed => frame.done
      | .xIndexedIndirect => doneUnlessBCD frame.readAtADDR16
      | .indirectYIndexed => readIfStillUnset frame
      | _ => frame.next
  | 6 =>
      match mode with
      | .xIndexedIndirect | .indirectYIndexed => frame.done
      | _ => frame.next
  | _ => frame.next

/-- The cycles of `LDA` in the base dialect.  The `($zp,X)` case reads its operand before it has
fetched the high byte of the pointer, and the `($zp),Y` case merges that byte unshifted. -/
def ldaAccess (mode : AddressingMode) : Handler μ := fun cycle frame =>
  match cycle with
  | 1 =>
      match mode with
      | .immediate => frame.fetchOPERAND.done
      | .zeropage | .zeropageXIndexed | .xIndexedIndirect | .indirectYIndexed =>
          frame.fetchADDR8.next
      | .absolute | .absoluteXIndexed | .absoluteYIndexed => frame.fetchLow.next
      | _ => frame.next
  | 2 =>
      match mode with
      | .zeropage => frame.readAtADDR8.done
      | .zeropageXIndexed => (frame.indexADDR8 Registers.X).next
      | .absolute | .absoluteXIndexed | .absoluteYIndexed => frame.fetchHigh.next
      | _ => frame.next
  | 3 =>
      match mode with
      | .zeropageXIndexed => frame.readAtADDR8.done
      | .absolute => frame.readAtADDR16.done
      | .absoluteXIndexed => (frame.indexADDR16 Registers.X).readUnlessCrossed
      | .absoluteYIndexed => (frame.indexADDR16 Registers.Y).readUnlessCrossed
      | .xIndexedIndirect => (frame.indexADDR8 Registers.X).next
      | .indirectYIndexed => frame.pointerLow.next
      | _ => frame.next
  | 4 =>
      match mode with
      | .absoluteXIndexed | .absoluteYIndexed => frame.readAtADDR16.done
      | .xIndexedIndirect => frame.pointerLow.next
      | .indirectYIndexed =>
          (frame.pointerHighUnshifted.indexADDR16 Registers.Y).readUnlessCrossed
      | _ => frame.next
  | 5 => frame.readAtADDR16.done
  | _ => frame.next

/-- The cycles of `LDA` on the 65C02; the added `($zp)` case merges the high byte unshifted. -/
def ldaAccess65C02 : AddressingMode → Handler μ
  | .zeropageIndirect => fun cycle frame =>
      match cycle with
      | 1 => frame.fetchADDR8.next
      | 2 => frame.pointerLow.next
      | 3 => frame.pointerHighUnshifted.next
      | 4 | 5 => frame.readAtADDR16.done
      | _ => frame.next
  | mode => ldaAccess mode

/-- Straight-line addressing of `LDA` and `CMP` in static mode. -/
def loadStaticAccess (mode : AddressingMode) : StaticHandler μ := fun frame =>
  match mode with
  | .immediate => (frame.fetchOPERAND, 1)
  | .zeropage => (frame.fetchADDR8.readAtADDR8, 2)
  | .zeropageXIndexed => ((frame.fetchADDR8.indexADDR8 Registers.X).readAtADDR8, 3)
  | .absolute => (frame.fetchLow.fetchHigh.readAtADDR16, 3)
  | .absoluteXIndexed =>
      let indexed := frame.fetchLow.fetchHigh.indexADDR16 Registers.X
      (indexed.readAtADDR16, 3 + indexed.pageCycle)
  | .absoluteYIndexed =>
      let indexed := frame.fetchLow.fetchHigh.indexADDR16 Registers.Y
      (indexed.readAtADDR16, 3 + indexed.pageCycle)
  | .xIndexedIndirect =>
      ((frame.fetchADDR8.indexADDR8 Registers.X).pointerLow.pointerHigh.readAtADDR16, 5)
  | .indirectYIndexed =>
      let indexed := frame.fetchADDR8.pointerLow.pointerHigh.indexADDR16 Registers.Y
      (indexed.readAtADDR16, 4 + indexed.pageCycle)
  | _ => (frame, frame.locals.cycleCount)

/-- Static-mode addressing of `LDA` and `CMP` on the 65C02. -/
def loadStaticAccess65C02 : AddressingMode → StaticHandler μ
  | .zeropageIndirect => fun frame =>
      (frame.fetchADDR8.pointerLow.pointerHigh.readAtADDR16, 4)
  | mode => loadStaticAccess mode

/-- The cycles of `CMP` in the base dialect.  The four zero-page modes end in the first cycle,
so their later cases are never reached, and the absolute case reads at the stale `ADDR8`. -/
def cmpAccess (mode : AddressingMode) : Handler μ := fun cycle frame =>
  match cycle with
  | 1 =>
      match mode with
      | .immediate => frame.fetchOPERAND.done
      | .zeropage | .zeropageXIndexed | .xIndexedIndirect | .indirectYIndexed =>
          frame.fetchADDR8.done
      | .absolute | .absoluteXIndexed | .absoluteYIndexed => frame.fetchLow.next
      | _ => frame.next
  | 2 =>
      match mode with
      | .zeropage => frame.readAtADDR8.done
      | .zeropageXIndexed | .xIndexedIndirect => (frame.indexADDR8 Registers.X).next
      | .indirectYIndexed => frame.pointerLow.next
      | .absolute | .absoluteXIndexed | .absoluteYIndexed => frame.fetchHigh.next
      | _ => frame.next
  | 3 =>
      match mode with
      | .zeropageXIndexed | .absolute => frame.readAtADDR8.done
      | .xIndexedIndirect => frame.pointerLow.next
      | .indirectYIndexed => frame.pointerHighUnshifted.next
      | .absoluteXIndexed => (frame.indexADDR16 Registers.X).readUnlessCrossed
      | .absoluteYIndexed => (frame.indexADDR16 Registers.Y).readUnlessCrossed
      | _ => frame.next
  | 4 =>
      match mode with
      | .absoluteXIndexed | .absoluteYIndexed => frame.readAtADDR16.done
      | .xIndexedIndirect => frame.pointerHighUnshifted.next
      | .indirectYIndexed => (frame.indexADDR16 Registers.Y).readUnlessCrossed
      | _ => frame.next
  | 5 => frame.readAtADDR16.done
  | _ => frame.next

/-- The cycles of `CMP` on the 65C02. -/
def cmpAccess65C02 : AddressingMode → Handler μ
  | .zeropageIndirect => fun cycle frame =>
      match cycle with
      | 1 => frame.fetchADDR8.done
      | 2 => frame.pointerLow.next
      | 3 => frame.pointerHighUnshifted.next
      | 4 | 5 => frame.readAtADDR16.done
      | _ => frame.next
  | mode => cmpAccess mode

/-- The cycles of `LDX` and `LDY`.  Only X-indexed modes have a case. -/
def indexLoadAccess (mode : AddressingMode) : Handler μ := fun cycle frame =>
  match cycle with
  | 1 =>
      match mode with
      | .immediate => frame.fetchOPERAND.done
      | .zeropage | .zeropageXIndexed => frame.fetchADDR8.next
      | .absolute | .absoluteXIndexed => frame.fetchLow.next
      | _ => frame.next
  | 2 =>
      match mode with
      | .zeropage => frame.readAtADDR8.done
      | .zeropageXIndexed => (frame.indexADDR8 Registers.X).next
      | .absolute | .absoluteXIndexed => frame.fetchHigh.next
      | _ => frame.next
  | 3 =>
      match mode with
      | .zeropageXIndexed => frame.readAtADDR8.done
      | .absolute => frame.readAtADDR16.done
      | .absoluteXIndexed => (frame.indexADDR16 Registers.X).readUnlessCrossed
      | _ => frame.next
  | 4 =>
      match mode with
      | .absoluteXIndexed => frame.readAtADDR16.done
      | _ => frame.next
  | _ => frame.next

/-- Straight-line addressing of `LDX` and `LDY` in static mode. -/
def indexLoadStaticAccess (mode : AddressingMode) : StaticHandler μ := fun frame =>
  match mode with
  | .immediate => (frame.fetchOPERAND, 1)
  | .zeropage => (frame.fetchADDR8.readAtADDR8, 2)
  | .zeropageXIndexed => ((frame.fetchADDR8.indexADDR8 Registers.X).readAtADDR8, 4)
  | .absolute => (frame.fetchLow.fetchHigh.readAtADDR16, 4)
  | .absoluteXIndexed =>
      let indexed := frame.fetchLow.fetchHigh.indexADDR16 Registers.X
      (indexed.readAtADDR16, 4 + indexed.pageCycle)
  | _ => (frame, frame.locals.cycleCount)

/-- The cycles of `CPX` and `CPY`. -/
def indexCompareAccess (mode : AddressingMode) : Handler μ := fun cycle frame =>
  match cycle with
  | 1 =>
      match mode with
      | .immediate => frame.fetchOPERAND.done
      | .zeropage => frame.fetchADDR8.next
      | .absolute => frame.fetchLow.next
      | _ => frame.next
  | 2 =>
      match mode with
      | .zeropage => frame.readAtADDR8.done
      | .absolute => frame.fetchHigh.next
      | _ => frame.next
  | 3 => frame.readAtADDR16.done
  | _ => frame.next

/-- Straight-line addressing of `CPX` and `CPY` in static mode. -/
def indexCompareStaticAccess (mode : AddressingMode) : StaticHandler μ := fun frame =>
  match mode with
  | .immediate => (frame.fetchOPERAND, 1)
  | .zeropage => (frame.fetchADDR8.readAtADDR8, 2)
  | .absolute => (frame.fetchLow.fetchHigh.readAtADDR16, 3)
  | _ => (frame, frame.locals.cycleCount)

/-- The cycles of `BIT` in the base dialect. -/
def bitAccess (mode : AddressingMode) : Handler μ := fun cycle frame =>
  match cycle with
  | 1 =>
      match mode with
      | .zeropage => frame.fetchADDR8.next
      | .absolute => frame.fetchLow.next
      | _ => frame.next
  | 2 =>
      match mode with
      | .zeropage => frame.readAtADDR8.done
      | .absolute => frame.fetchHigh.next
      | _ => frame.next
  | 3 => frame.readAtADDR16.done
  | _ => frame.next

/-- Straight-line addressing of `BIT` in the base dialect. -/
def bitStaticAccess (mode : AddressingMode) : StaticHandler μ := fun frame =>
  match mode with
  | .zeropage => (frame.fetchADDR8.readAtADDR8, 2)
  | .absolute => (frame.fetchLow.fetchHigh.readAtADDR16, 3)
  | _ => (frame, frame.locals.cycleCount)

/-- The cycles of `BIT` on the 65C02. -/
def bitAccess65C02 (mode : AddressingMode) : Handler μ := fun cycle frame =>
  match cycle with
  | 1 =>
      match mode with
      | .immediate => frame.fetchOPERAND.done
      | .zeropage | .zeropageXIndexed => frame.fetchADDR8.next
      | .absolute | .absoluteXIndexed => frame.fetchLow.next
      | _ => frame.next
  | 2 =>
      match mode with
      | .zeropage => frame.readAtADDR8.done
      | .zeropageXIndexed => (frame.indexADDR8 Registers.X).next
      | .absolute | .absoluteXIndexed => frame.fetchHigh.next
      | _ => frame.next
  | 3 =>
      match mode with
      | .zeropageXIndexed => frame.readAtADDR8.done
      | .absolute => frame.readAtADDR16.done
      | .absoluteXIndexed => (frame.indexADDR16 Registers.X).readUnlessCrossed
      | _ => frame.next
  | 4 => frame.readAtADDR16.done
  | _ => frame.next

/-- Straight-line addressing of `BIT` on the 65C02. -/
def bitStaticAccess65C02 (mode : AddressingMode) : StaticHandler μ := fun frame =>
  match mode with
  | .immediate => (frame.fetchOPERAND, 1)
  | .zeropage => (frame.fetchADDR8.readAtADDR8, 2)
  | .zeropageXIndexed => ((frame.fetchADDR8.indexADDR8 Registers.X).readAtADDR8, 3)
  | .absolute => (frame.fetchLow.fetchHigh.readAtADDR16, 3)
  | .absoluteXIndexed =>
      let indexed := frame.fetchLow.fetchHigh.indexADDR16 Registers.X
      (indexed.readAtADDR16, 4 + indexed.pageCycle)
  | _ => (frame, frame.locals.cycleCount)

/-! ## Instruction tails -/

/-- `A = OPERAND`. -/
def loadA (frame : Frame μ) : Frame μ :=
  frame.onRegisters fun registers =>
    ({ registers with A := frame.locals.OPERAND.toByte } : Registers).didSetA .ignore

/-- `X = OPERAND`. -/
def loadX (frame : Frame μ) : Frame μ :=
  frame.onRegisters fun registers =>
    ({ registers with X := frame.locals.OPERAND.toByte } : Registers).didSetX .ignore

/-- `Y = OPERAND`. -/
def loadY (frame : Frame μ) : Frame μ :=
  frame.onRegisters fun registers =>
    ({ registers with Y := frame.locals.OPERAND.toByte } : Registers).didSetY .ignore

/-- The tail of `AND`, `ORA` and `EOR`. -/
def combineA (operation : Byte → Byte → Byte) (frame : Frame μ) : Frame μ :=
  frame.onRegisters fun registers =>
    ({ registers with
        A := operation registers.A frame.locals.OPERAND.toByte } : Registers).didSetA .ignore

/-- The comparison of a register with the operand, as the flags it sets. -/
def compareFlags (register operand : Word) : Byte :=
  if register > operand then Registers.bitC
  else if register = operand then Registers.bitC ||| Registers.bitZ
  else Registers.bitN

/-- Replace the flags of a comparison. -/
def setCompareFlags (flags : Byte) (registers : Registers) : Registers :=
  { registers with
    SR := (registers.SR &&& ~~~(Registers.bitC ||| Registers.bitZ ||| Registers.bitN)) ||| flags }

/-- The tail of `CMP`, whose operand is a byte. -/
def compareA (frame : Frame μ) : Frame μ :=
  frame.onRegisters fun registers =>
    setCompareFlags
      (compareFlags registers.A.toWord frame.locals.OPERAND.toByte.toWord) registers

/-- The tail of `CPX` and `CPY`, whose operand is a word. -/
def compareIndex (index : Registers → Byte) (frame : Frame μ) : Frame μ :=
  frame.onRegisters fun registers =>
    setCompareFlags (compareFlags (index registers).toWord frame.locals.OPERAND) registers

/-- The tail of `BIT`. -/
def testBits (frame : Frame μ) : Frame μ :=
  frame.onRegisters fun registers =>
    let OPERAND := frame.locals.OPERAND.toByte
    let cleared := registers.SR &&& ~~~(Registers.bitV ||| Registers.bitZ ||| Registers.bitN)
    { registers with
      SR := cleared |||
        ((OPERAND &&& 0xC0) ||| if registers.A &&& OPERAND != 0 then 0 else Registers.bitZ) }

/-- The sum of `ADC` before the final decimal adjustment. -/
def adcALU (registers : Registers) (OPERAND : Word) (isBCD : Bool) : Word :=
  if isBCD then
    let digit := (OPERAND &&& 0x000F) + (registers.A &&& 0x0F).toWord +
      registers.bitValue Registers.bitC
    let digit := if digit > 0x0009 then digit + 0x0006 else digit
    (OPERAND &&& 0x00F0) + (registers.A &&& 0xF0).toWord +
      (if digit > 0x000F then 0x0010 else 0x0000) + (digit &&& 0x000F)
  else OPERAND + registers.A.toWord + registers.bitValue Registers.bitC

/-- The sum of `SBC` before the final decimal adjustment, from the complemented operand. -/
def sbcALU (registers : Registers) (OPERAND : Word) (isBCD : Bool) : Word :=
  if isBCD then
    let digit := (OPERAND &&& 0x000F) + (registers.A &&& 0x0F).toWord +
      registers.bitValue Registers.bitC
    let digit := if digit ≤ 0x000F then digit - 0x0006 else digit
    (OPERAND &&& 0x00F0) + (registers.A &&& 0xF0).toWord +
      (if digit > 0x000F then 0x0010 else 0x0000) + (digit &&& 0x000F)
  else OPERAND + registers.A.toWord + registers.bitValue Registers.bitC

/-- The register update that ends `ADC` and `SBC`, from the sum and the adjusted sum. -/
def setArithmetic (flagBits : Byte) (OPERAND sum adjusted : Word) (registers : Registers) :
    Registers :=
  let A := registers.A.toWord
  let overflow := ~~~(A ^^^ OPERAND) &&& (A ^^^ sum) &&& 0x0080 != 0
  let flagBits := if overflow then flagBits ||| Registers.bitV else flagBits
  let flagBits := if adjusted &&& 0x00FF == 0 then flagBits ||| Registers.bitZ else flagBits
  let flagBits := if adjusted &&& 0x0080 != 0 then flagBits ||| Registers.bitN else flagBits
  let flagBits := if adjusted &&& 0xFF00 != 0 then flagBits ||| Registers.bitC else flagBits
  { registers with
    SR := (registers.SR &&&
      ~~~(Registers.bitC ||| Registers.bitZ ||| Registers.bitV ||| Registers.bitN)) ||| flagBits
    A := (adjusted &&& 0x00FF).toByte }

/-- Bits of a replaced part of the status register are those that replace it. -/
theorem replaced_and {mask bits : Byte} (replaced : ~~~mask &&& bits = 0) (SR flagBits : Byte) :
    ((SR &&& ~~~mask) ||| flagBits) &&& bits = flagBits &&& bits := by
  have kept : SR &&& ~~~mask &&& bits = 0 := by
    rw [BitVec.and_assoc, replaced]
    exact BitVec.and_zero
  rw [BitVec.and_or_distrib_right, kept]
  exact BitVec.zero_or

/-- The tail of `ADC`, from the initial content of its flag accumulator. -/
def addToA (flagBits : Byte) (frame : Frame μ) : Frame μ :=
  frame.onRegisters fun registers =>
    let OPERAND := frame.locals.OPERAND
    let sum := adcALU registers OPERAND frame.locals.isBCD
    let adjusted := if frame.locals.isBCD && sum > 0x009F then sum + 0x0060 else sum
    setArithmetic flagBits OPERAND sum adjusted registers

/-- The tail of `SBC`, which first complements its operand in place. -/
def subtractFromA (flagBits : Byte) (frame : Frame μ) : Frame μ :=
  let frame := frame.onLocals fun locals => { locals with OPERAND := ~~~locals.OPERAND }
  frame.onRegisters fun registers =>
    let OPERAND := frame.locals.OPERAND
    let sum := sbcALU registers OPERAND frame.locals.isBCD
    let adjusted := if frame.locals.isBCD && sum ≤ 0x00FF then sum - 0x0060 else sum
    setArithmetic flagBits OPERAND sum adjusted registers

/-! ## Instruction functions -/

/-- `__isa_6502_AND`. -/
def isa6502AND (mode : AddressingMode) : Handler μ :=
  completing (aluAccess mode) (combineA (· &&& ·))

/-- `__isa_6502_static_AND`. -/
def isa6502StaticAND (mode : AddressingMode) : StaticHandler μ :=
  completingStatic (aluStaticAccess mode) (combineA (· &&& ·))

/-- `__isa_6502_ORA`. -/
def isa6502ORA (mode : AddressingMode) : Handler μ :=
  completing (aluAccess mode) (combineA (· ||| ·))

/-- `__isa_6502_static_ORA`. -/
def isa6502StaticORA (mode : AddressingMode) : StaticHandler μ :=
  completingStatic (aluStaticAccess mode) (combineA (· ||| ·))

/-- `__isa_6502_EOR`. -/
def isa6502EOR (mode : AddressingMode) : Handler μ :=
  completing (aluAccess mode) (combineA (· ^^^ ·))

/-- `__isa_6502_static_EOR`. -/
def isa6502StaticEOR (mode : AddressingMode) : StaticHandler μ :=
  completingStatic (aluStaticAccess mode) (combineA (· ^^^ ·))

/-- The switch of `ADC` and `SBC`: decimal mode is latched in the first cycle. -/
def arithmeticAccess (mode : AddressingMode) : Handler μ := fun cycle frame =>
  aluAccess mode cycle (if cycle = 1 then frame.latchBCD else frame)

/-- `__isa_6502_ADC`. -/
def isa6502ADC (mode : AddressingMode) : Handler μ :=
  completing (arithmeticAccess mode) (addToA 0)

/-- `__isa_6502_static_ADC`; its flag accumulator is uninitialised. -/
def isa6502StaticADC (mode : AddressingMode) : StaticHandler μ := fun frame =>
  completingStatic (aluStaticAccess mode) (addToA frame.locals.flagBits) frame.latchBCD

/-- `__isa_6502_SBC`. -/
def isa6502SBC (mode : AddressingMode) : Handler μ :=
  completing (arithmeticAccess mode) (subtractFromA 0)

/-- `__isa_6502_static_SBC`; its flag accumulator is uninitialised. -/
def isa6502StaticSBC (mode : AddressingMode) : StaticHandler μ := fun frame =>
  completingStatic (aluStaticAccess mode) (subtractFromA frame.locals.flagBits) frame.latchBCD

/-- `__isa_6502_LDA`. -/
def isa6502LDA (mode : AddressingMode) : Handler μ := completing (ldaAccess mode) loadA

/-- `__isa_6502_static_LDA`. -/
def isa6502StaticLDA (mode : AddressingMode) : StaticHandler μ :=
  completingStatic (loadStaticAccess mode) loadA

/-- `__isa_6502_LDX`. -/
def isa6502LDX (mode : AddressingMode) : Handler μ := completing (indexLoadAccess mode) loadX

/-- `__isa_6502_static_LDX`. -/
def isa6502StaticLDX (mode : AddressingMode) : StaticHandler μ :=
  completingStatic (indexLoadStaticAccess mode) loadX

/-- `__isa_6502_LDY`. -/
def isa6502LDY (mode : AddressingMode) : Handler μ := completing (indexLoadAccess mode) loadY

/-- `__isa_6502_static_LDY`. -/
def isa6502StaticLDY (mode : AddressingMode) : StaticHandler μ :=
  completingStatic (indexLoadStaticAccess mode) loadY

/-- `__isa_6502_CMP`. -/
def isa6502CMP (mode : AddressingMode) : Handler μ := completing (cmpAccess mode) compareA

/-- `__isa_6502_static_CMP`. -/
def isa6502StaticCMP (mode : AddressingMode) : StaticHandler μ :=
  completingStatic (loadStaticAccess mode) compareA

/-- `__isa_6502_CPX`. -/
def isa6502CPX (mode : AddressingMode) : Handler μ :=
  completing (indexCompareAccess mode) (compareIndex Registers.X)

/-- `__isa_6502_static_CPX`. -/
def isa6502StaticCPX (mode : AddressingMode) : StaticHandler μ :=
  completingStatic (indexCompareStaticAccess mode) (compareIndex Registers.X)

/-- `__isa_6502_CPY`. -/
def isa6502CPY (mode : AddressingMode) : Handler μ :=
  completing (indexCompareAccess mode) (compareIndex Registers.Y)

/-- `__isa_6502_static_CPY`. -/
def isa6502StaticCPY (mode : AddressingMode) : StaticHandler μ :=
  completingStatic (indexCompareStaticAccess mode) (compareIndex Registers.Y)

/-- `__isa_6502_BIT`. -/
def isa6502BIT (mode : AddressingMode) : Handler μ := completing (bitAccess mode) testBits

/-- `__isa_6502_static_BIT`. -/
def isa6502StaticBIT (mode : AddressingMode) : StaticHandler μ :=
  completingStatic (bitStaticAccess mode) testBits

/-- `__isa_65C02_AND`. -/
def isa65C02AND (mode : AddressingMode) : Handler μ :=
  completing (aluAccess65C02 mode) (combineA (· &&& ·))

/-- `__isa_65C02_static_AND`. -/
def isa65C02StaticAND (mode : AddressingMode) : StaticHandler μ :=
  completingStatic (aluStaticAccess65C02 mode) (combineA (· &&& ·))

/-- `__isa_65C02_ORA`. -/
def isa65C02ORA (mode : AddressingMode) : Handler μ :=
  completing (aluAccess65C02 mode) (combineA (· ||| ·))

/-- `__isa_65C02_static_ORA`. -/
def isa65C02StaticORA (mode : AddressingMode) : StaticHandler μ :=
  completingStatic (aluStaticAccess65C02 mode) (combineA (· ||| ·))

/-- `__isa_65C02_EOR`. -/
def isa65C02EOR (mode : AddressingMode) : Handler μ :=
  completing (aluAccess65C02 mode) (combineA (· ^^^ ·))

/-- `__isa_65C02_static_EOR`. -/
def isa65C02StaticEOR (mode : AddressingMode) : StaticHandler μ :=
  completingStatic (aluStaticAccess65C02 mode) (combineA (· ^^^ ·))

/-- `__isa_65C02_ADC`. -/
def isa65C02ADC (mode : AddressingMode) : Handler μ :=
  completing (decimalAccess mode) (addToA 0)

/-- The cycle the 65C02's static arithmetic adds in decimal mode. -/
def decimalCycle (frame : Frame μ) : Nat := if frame.locals.isBCD then 1 else 0

/-- `__isa_65C02_static_ADC`. -/
def isa65C02StaticADC (mode : AddressingMode) : StaticHandler μ := fun frame =>
  let (after, cycles) :=
    completingStatic (aluStaticAccess65C02 mode) (addToA frame.locals.flagBits) frame.latchBCD
  (after, cycles + decimalCycle frame.latchBCD)

/-- `__isa_65C02_SBC`. -/
def isa65C02SBC (mode : AddressingMode) : Handler μ :=
  completing (decimalAccess mode) (subtractFromA 0)

/-- `__isa_65C02_static_SBC`. -/
def isa65C02StaticSBC (mode : AddressingMode) : StaticHandler μ := fun frame =>
  let (after, cycles) :=
    completingStatic (aluStaticAccess65C02 mode) (subtractFromA frame.locals.flagBits)
      frame.latchBCD
  (after, cycles + decimalCycle frame.latchBCD)

/-- `__isa_65C02_LDA`. -/
def isa65C02LDA (mode : AddressingMode) : Handler μ := completing (ldaAccess65C02 mode) loadA

/-- `__isa_65C02_static_LDA`. -/
def isa65C02StaticLDA (mode : AddressingMode) : StaticHandler μ :=
  completingStatic (loadStaticAccess65C02 mode) loadA

/-- `__isa_65C02_CMP`. -/
def isa65C02CMP (mode : AddressingMode) : Handler μ := completing (cmpAccess65C02 mode) compareA

/-- `__isa_65C02_static_CMP`. -/
def isa65C02StaticCMP (mode : AddressingMode) : StaticHandler μ :=
  completingStatic (loadStaticAccess65C02 mode) compareA

/-- `__isa_65C02_BIT`. -/
def isa65C02BIT (mode : AddressingMode) : Handler μ := completing (bitAccess65C02 mode) testBits

/-- `__isa_65C02_static_BIT`. -/
def isa65C02StaticBIT (mode : AddressingMode) : StaticHandler μ :=
  completingStatic (bitStaticAccess65C02 mode) testBits

end System6502
