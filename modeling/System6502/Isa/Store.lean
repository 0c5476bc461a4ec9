import System6502.Isa.Frame

/-!
# Stores

`STA`, `STX`, `STY` and the 65C02's `STZ`.  A staged store assembles `ADDR16` and writes it when
its switch ends the instruction; the two pointer modes of `STA` assemble the address in the fifth
cycle but never end.
-/

namespace System6502

open System6502.Frame

variable {μ : Type*} [Membus μ]

/-- The cycles of `STA` in the base dialect. -/
def staAccess (mode : AddressingMode) : Handler μ := fun cycle frame =>
  match cycle with
  | 1 =>
      match mode with
      | .zeropage | .zeropageXIndexed | .xIndexedIndirect | .indirectYIndexed =>
          frame.fetchADDR8.next
      | .absolute | .absoluteXIndexed | .absoluteYIndexed => frame.fetchLow.next
      | _ => frame.next
  | 2 =>
      match mode with
      | .zeropage => frame.widenADDR8.done
      | .zeropageXIndexed => (frame.indexADDR8 Registers.X).next
      | .absolute | .absoluteXIndexed | .absoluteYIndexed => frame.fetchHigh.next
      | _ => frame.next
  | 3 =>
      match mode with
      | .zeropageXIndexed => frame.widenADDR8.done
      | .absolute => frame.done
      | .absoluteXIndexed => (frame.offsetADDR16 Registers.X).next
      | .absoluteYIndexed => (frame.offsetADDR16 Registers.Y).next
      | .xIndexedIndirect => (frame.indexADDR8 Registers.X).next
      | .indirectYIndexed => frame.pointerLow.next
      | _ => frame.next
  | 4 =>
      match mode with
      | .absoluteXIndexed | .absoluteYIndexed => frame.done
      | .xIndexedIndirect => frame.pointerLow.next
      | .indirectYIndexed => frame.pointerHigh.next
      | _ => frame.next
  | 5 =>
      match mode with
      | .xIndexedIndirect => frame.pointerHigh.next
      | .indirectYIndexed => (frame.offsetADDR16 Registers.Y).next
      | _ => frame.next
  | _ => frame.next

/-- The cycles of `STA` on the 65C02: the base switch with `($zp)` added. -/
def staAccess65C02 : AddressingMode → Handler μ
  | .zeropageIndirect => fun cycle frame =>
      match cycle with
      | 1 => frame.fetchADDR8.next
      | 2 => frame.pointerLow.next
      | 3 => frame.pointerHigh.next
      | 4 => frame.done
      | _ => frame.next
  | mode => staAccess mode

/-- Straight-line addressing of `STA` in the base dialect. -/
def staStaticAccess (mode : AddressingMode) : StaticHandler μ := fun frame =>
  match mode with
  | .zeropage => (frame.fetchLow, 2)
  | .zeropageXIndexed => ((frame.fetchADDR8.indexADDR8 Registers.X).widenADDR8, 3)
  | .xIndexedIndirect => ((frame.fetchADDR8.indexADDR8 Registers.X).pointerLow.pointerHigh, 5)
  | .indirectYIndexed =>
      (frame.fetchADDR8.pointerLow.pointerHigh.offsetADDR16 Registers.Y, 5)
  | .absolute => (frame.fetchLow.fetchHigh, 3)
  | .absoluteXIndexed => (frame.fetchLow.fetchHigh.offsetADDR16 Registers.X, 4)
  | .absoluteYIndexed => (frame.fetchLow.fetchHigh.offsetADDR16 Registers.Y, 4)
  | _ => (frame, frame.locals.cycleCount)

/-- Straight-line addressing of `STA` on the 65C02. -/
def staStaticAccess65C02 : AddressingMode → StaticHandler μ
  | .zeropageIndirect => fun frame => (frame.fetchADDR8.pointerLow.pointerHigh, 4)
  | mode => staStaticAccess mode

/-- The cycles of `STX` and `STY`, which differ in their indexed mode and its register. -/
def indexStoreAccess (indexed : AddressingMode) (index : Registers → Byte)
    (mode : AddressingMode) : Handler μ := fun cycle frame =>
  match cycle with
  | 1 =>
      if mode = .zeropage ∨ mode = indexed then frame.fetchADDR8.next
      else if mode = .absolute then frame.fetchLow.next
      else frame.next
  | 2 =>
      if mode = .zeropage then frame.widenADDR8.done
      else if mode = indexed then (frame.indexADDR8 index).next
      else if mode = .absolute then frame.fetchHigh.next
      else frame.next
  | 3 => if mode = indexed then frame.widenADDR8.done else frame.done
  | _ => frame.next

/-- Straight-line addressing of `STX` and `STY`. -/
def indexStoreStaticAccess (indexed : AddressingMode) (index : Registers → Byte)
    (mode : AddressingMode) : StaticHandler μ := fun frame =>
  if mode = .zeropage then (frame.fetchLow, 2)
  else if mode = indexed then ((frame.fetchADDR8.indexADDR8 index).widenADDR8, 3)
  else if mode = .absolute then (frame.fetchLow.fetchHigh, 3)
  else (frame, frame.locals.cycleCount)

/-- The cycles of `STZ`.  The zero-page case ends without moving `ADDR8` to `ADDR16`. -/
def stzAccess (mode : AddressingMode) : Handler μ := fun cycle frame =>
  match cycle with
  | 1 =>
      match mode with
      | .zeropage | .zeropageXIndexed => frame.fetchADDR8.next
      | .absolute | .absoluteXIndexed => frame.fetchLow.next
      | _ => frame.next
  | 2 =>
      match mode with
      | .zeropage => frame.done
      | .zeropageXIndexed => (frame.indexADDR8 Registers.X).widenADDR8.next
      | .absolute | .absoluteXIndexed => frame.fetchHigh.next
      | _ => frame.next
  | 3 =>
      match mode with
      | .zeropageXIndexed => frame.widenADDR8.done
      | .absolute => frame.done
      | .absoluteXIndexed => (frame.offsetADDR16 Registers.X).next
      | _ => frame.next
  | 4 => frame.done
  | _ => frame.next

/-- Straight-line addressing of `STZ`. -/
def stzStaticAccess (mode : AddressingMode) : StaticHandler μ := fun frame =>
  match mode with
  | .zeropage => (frame.fetchLow, 2)
  | .zeropageXIndexed => ((frame.fetchADDR8.indexADDR8 Registers.X).widenADDR8, 3)
  | .absolute => (frame.fetchLow.fetchHigh, 3)
  | .absoluteXIndexed => (frame.fetchLow.fetchHigh.offsetADDR16 Registers.X, 4)
  | _ => (frame, frame.locals.cycleCount)

/-- The tail of a store: write a value of the registers at `ADDR16`. -/
def storeAtADDR16 (value : Registers → Byte) (frame : Frame μ) : Frame μ :=
  frame.write frame.locals.ADDR16 (value frame.registers)

/-- `__isa_6502_STA`. -/
def isa6502STA (mode : AddressingMode) : Handler μ :=
  completing (staAccess mode) (storeAtADDR16 Registers.A)

/-- `__isa_6502_static_STA`. -/
def isa6502StaticSTA (mode : AddressingMode) : StaticHandler μ :=
  completingStatic (staStaticAccess mode) (storeAtADDR16 Registers.A)

/-- `__isa_65C02_STA`. -/
def isa65C02STA (mode : AddressingMode) : Handler μ :=
  completing (staAccess65C02 mode) (storeAtADDR16 Registers.A)

/-- `__isa_65C02_static_STA`. -/
def isa65C02StaticSTA (mode : AddressingMode) : StaticHandler μ :=
  completingStatic (staStaticAccess65C02 mode) (storeAtADDR16 Registers.A)

/-- `__isa_6502_STX`. -/
def isa6502STX (mode : AddressingMode) : Handler μ :=
  completing (indexStoreAccess .zeropageYIndexed Registers.Y mode) (storeAtADDR16 Registers.X)

/-- `__isa_6502_static_STX`. -/
def isa6502StaticSTX (mode : AddressingMode) : StaticHandler μ :=
  completingStatic (indexStoreStaticAccess .zeropageYIndexed Registers.Y mode)
    (storeAtADDR16 Registers.X)

/-- `__isa_6502_STY`. -/
def isa6502STY (mode : AddressingMode) : Handler μ :=
  completing (indexStoreAccess .zeropageXIndexed Registers.X mode) (storeAtADDR16 Registers.Y)

/-- `__isa_6502_static_STY`. -/
def isa6502StaticSTY (mode : AddressingMode) : StaticHandler μ :=
  completingStatic (indexStoreStaticAccess .zeropageXIndexed Registers.X mode)
    (storeAtADDR16 Registers.Y)

/-- `__isa_65C02_STZ`. -/
def isa65C02STZ (mode : AddressingMode) : Handler μ :=
  completing (stzAccess mode) (storeAtADDR16 fun _ => 0x00)

/-- `__isa_65C02_static_STZ`. -/
def isa65C02StaticSTZ (mode : AddressingMode) : StaticHandler μ :=
  completingStatic (stzStaticAccess mode) (storeAtADDR16 fun _ => 0x00)

end System6502
