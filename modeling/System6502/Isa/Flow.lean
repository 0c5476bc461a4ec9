import System6502.Isa.Frame

/-!
# Implied instructions, the stack and control flow

Register transfers and flag instructions, pushes and pulls, branches and jumps, and the three
interrupt sequences.
-/

namespace System6502

open System6502.Frame

variable {μ : Type*} [Membus μ]

/-! ## Implied instructions -/

/-- A staged instruction that ends in its only cycle. -/
def stagedImplied (change : Registers → Registers) : Handler μ := fun _ frame =>
  (frame.onRegisters change).done

/-- A static-mode instruction that changes only registers and adds one cycle. -/
def staticImplied (change : Registers → Registers) : StaticHandler μ := fun frame =>
  (frame.onRegisters change, 1)

/-- The register change of `TAX`. -/
def transferAX (registers : Registers) : Registers :=
  ({ registers with X := registers.A } : Registers).didSetX .ignore

/-- The register change of `TAY`. -/
def transferAY (registers : Registers) : Registers :=
  ({ registers with Y := registers.A } : Registers).didSetY .ignore

/-- The register change of `TSX`. -/
def transferSX (registers : Registers) : Registers :=
  ({ registers with X := registers.SP } : Registers).didSetX .ignore

/-- The register change of `TXA`. -/
def transferXA (registers : Registers) : Registers :=
  ({ registers with A := registers.X } : Registers).didSetA .ignore

/-- The register change of `TXS`. -/
def transferXS (registers : Registers) : Registers := { registers with SP := registers.X }

/-- The register change of `TYA`. -/
def transferYA (registers : Registers) : Registers :=
  ({ registers with A := registers.Y } : Registers).didSetA .ignore

/-- The register change of `INX` and `DEX`. -/
def stepX (step : Byte) (registers : Registers) : Registers :=
  ({ registers with X := registers.X + step } : Registers).didSetX .ignore

/-- The register change of `INY` and `DEY`. -/
def stepY (step : Byte) (registers : Registers) : Registers :=
  ({ registers with Y := registers.Y + step } : Registers).didSetY .ignore

/-- The register change of a flag instruction. -/
def assignBit (whichBit : Byte) (value : Bool) (registers : Registers) : Registers :=
  registers.setBit whichBit value

/-- `__isa_6502_TAX`. -/
def isa6502TAX : Handler μ := stagedImplied transferAX

/-- `__isa_6502_static_TAX`. -/
def isa6502StaticTAX : StaticHandler μ := staticImplied transferAX

/-- `__isa_6502_TAY`. -/
def isa6502TAY : Handler μ := stagedImplied transferAY

/-- `__isa_6502_static_TAY`. -/
def isa6502StaticTAY : StaticHandler μ := staticImplied transferAY

/-- `__isa_6502_TSX`. -/
def isa6502TSX : Handler μ := stagedImplied transferSX

/-- `__isa_6502_static_TSX`. -/
def isa6502StaticTSX : StaticHandler μ := staticImplied transferSX

/-- `__isa_6502_TXA`. -/
def isa6502TXA : Handler μ := stagedImplied transferXA

/-- `__isa_6502_static_TXA`. -/
def isa6502StaticTXA : StaticHandler μ := staticImplied transferXA

/-- `__isa_6502_TXS`. -/
def isa6502TXS : Handler μ := stagedImplied transferXS

/-- `__isa_6502_static_TXS`. -/
def isa6502StaticTXS : StaticHandler μ := staticImplied transferXS

/-- `__isa_6502_TYA`. -/
def isa6502TYA : Handler μ := stagedImplied transferYA

/-- `__isa_6502_static_TYA`. -/
def isa6502StaticTYA : StaticHandler μ := staticImplied transferYA

/-- `__isa_6502_INX`. -/
def isa6502INX : Handler μ := stagedImplied (stepX 1)

/-- `__isa_6502_static_INX`. -/
def isa6502StaticINX : StaticHandler μ := staticImplied (stepX 1)

/-- `__isa_6502_INY`. -/
def isa6502INY : Handler μ := stagedImplied (stepY 1)

/-- `__isa_6502_static_INY`. -/
def isa6502StaticINY : StaticHandler μ := staticImplied (stepY 1)

/-- `__isa_6502_DEX`. -/
def isa6502DEX : Handler μ := stagedImplied (stepX (-1))

/-- `__isa_6502_static_DEX`. -/
def isa6502StaticDEX : StaticHandler μ := staticImplied (stepX (-1))

/-- `__isa_6502_DEY`. -/
def isa6502DEY : Handler μ := stagedImplied (stepY (-1))

/-- `__isa_6502_static_DEY`. -/
def isa6502StaticDEY : StaticHandler μ := staticImplied (stepY (-1))

/-- `__isa_6502_CLC`. -/
def isa6502CLC : Handler μ := stagedImplied (assignBit Registers.bitC false)

/-- `__isa_6502_static_CLC`. -/
def isa6502StaticCLC : StaticHandler μ := staticImplied (assignBit Registers.bitC false)

/-- `__isa_6502_CLD`. -/
def isa6502CLD : Handler μ := stagedImplied (assignBit Registers.bitD false)

/-- `__isa_6502_static_CLD`. -/
def isa6502StaticCLD : StaticHandler μ := staticImplied (assignBit Registers.bitD false)

/-- `__isa_6502_CLI`. -/
def isa6502CLI : Handler μ := stagedImplied (assignBit Registers.bitI false)

/-- `__isa_6502_static_CLI`. -/
def isa6502StaticCLI : StaticHandler μ := staticImplied (assignBit Registers.bitI false)

/-- `__isa_6502_CLV`. -/
def isa6502CLV : Handler μ := stagedImplied (assignBit Registers.bitV false)

/-- `__isa_6502_static_CLV`. -/
def isa6502StaticCLV : StaticHandler μ := staticImplied (assignBit Registers.bitV false)

/-- `__isa_6502_SEC`. -/
def isa6502SEC : Handler μ := stagedImplied (assignBit Registers.bitC true)

/-- `__isa_6502_static_SEC`. -/
def isa6502StaticSEC : StaticHandler μ := staticImplied (assignBit Registers.bitC true)

/-- `__isa_6502_SEI`. -/
def isa6502SEI : Handler μ := stagedImplied (assignBit Registers.bitI true)

/-- `__isa_6502_static_SEI`. -/
def isa6502StaticSEI : StaticHandler μ := staticImplied (assignBit Registers.bitI true)

/-- `__isa_6502_SED`. -/
def isa6502SED : Handler μ := stagedImplied (assignBit Registers.bitD true)

/-- `__isa_6502_static_SED`, the one static-mode function that adds no cycle. -/
def isa6502StaticSED : StaticHandler μ := fun frame =>
  (frame.onRegisters (assignBit Registers.bitD true), 0)

/-- `__isa_6502_NOP`. -/
def isa6502NOP : Handler μ := stagedImplied id

/-- `__isa_6502_static_NOP`. -/
def isa6502StaticNOP : StaticHandler μ := staticImplied id

/-! ## Pushes and pulls -/

/-- A staged push: copy a value of the registers, then push the copy. -/
def stagedPush (value : Registers → Byte) : Handler μ := fun cycle frame =>
  match cycle with
  | 1 => (frame.onLocals fun locals => { locals with latch := value frame.registers }).next
  | 2 => (frame.push frame.locals.latch).done
  | _ => frame.next

/-- A static-mode push. -/
def staticPush (value : Registers → Byte) : StaticHandler μ := fun frame =>
  (frame.push (value frame.registers), 2)

/-- Pop a byte into the register copy. -/
def popLatch (frame : Frame μ) : Frame μ :=
  frame.popInto fun value locals => { locals with latch := value }

/-- A staged pull, from the assignment of the register and the update of the flags. -/
def stagedPull (assign : Byte → Registers → Registers) (didSet : Registers → Registers) :
    Handler μ := fun cycle frame =>
  match cycle with
  | 1 => (popLatch frame).next
  | 2 => (frame.onRegisters (assign frame.locals.latch)).next
  | 3 => (frame.onRegisters didSet).done
  | _ => frame.next

/-- A static-mode pull. -/
def staticPull (assign : Byte → Registers → Registers) (didSet : Registers → Registers) :
    StaticHandler μ := fun frame =>
  let popped := popLatch frame
  ((popped.onRegisters (assign popped.locals.latch)).onRegisters didSet, 3)

/-- The status byte that `PHP` pushes. -/
def pushedStatus (registers : Registers) : Byte :=
  registers.SR ||| Registers.bitB ||| Registers.bitIGN

/-- A pulled status byte without its break and ignored bits. -/
def pulledStatus (value : Byte) : Byte := value &&& ~~~(Registers.bitB ||| Registers.bitIGN)

/-- Assign the accumulator. -/
def assignA (value : Byte) (registers : Registers) : Registers := { registers with A := value }

/-- Assign the X-index. -/
def assignX (value : Byte) (registers : Registers) : Registers := { registers with X := value }

/-- Assign the Y-index. -/
def assignY (value : Byte) (registers : Registers) : Registers := { registers with Y := value }

/-- Assign the status register. -/
def assignSR (value : Byte) (registers : Registers) : Registers := { registers with SR := value }

/-- Assign the program counter. -/
def assignPC (value : Word) (registers : Registers) : Registers := { registers with PC := value }

/-- `__isa_6502_PHA`. -/
def isa6502PHA : Handler μ := stagedPush Registers.A

/-- `__isa_6502_static_PHA`. -/
def isa6502StaticPHA : StaticHandler μ := staticPush Registers.A

/-- `__isa_6502_PHP`. -/
def isa6502PHP : Handler μ := stagedPush pushedStatus

/-- `__isa_6502_static_PHP`. -/
def isa6502StaticPHP : StaticHandler μ := staticPush pushedStatus

/-- `__isa_65C02_PHX`. -/
def isa65C02PHX : Handler μ := stagedPush Registers.X

/-- `__isa_65C02_static_PHX`. -/
def isa65C02StaticPHX : StaticHandler μ := staticPush Registers.X

/-- `__isa_65C02_PHY`. -/
def isa65C02PHY : Handler μ := stagedPush Registers.Y

/-- `__isa_65C02_static_PHY`. -/
def isa65C02StaticPHY : StaticHandler μ := staticPush Registers.Y

/-- `__isa_6502_PLA`. -/
def isa6502PLA : Handler μ := stagedPull assignA (Registers.didSetA · .ignore)

/-- `__isa_6502_static_PLA`. -/
def isa6502StaticPLA : StaticHandler μ := staticPull assignA (Registers.didSetA · .ignore)

/-- `__isa_65C02_PLX`. -/
def isa65C02PLX : Handler μ := stagedPull assignX (Registers.didSetX · .ignore)

/-- `__isa_65C02_static_PLX`. -/
def isa65C02StaticPLX : StaticHandler μ := staticPull assignX (Registers.didSetX · .ignore)

/-- `__isa_65C02_PLY`. -/
def isa65C02PLY : Handler μ := stagedPull assignY (Registers.didSetY · .ignore)

/-- `__isa_65C02_static_PLY`. -/
def isa65C02StaticPLY : StaticHandler μ := staticPull assignY (Registers.didSetY · .ignore)

/-- Drop the break and ignored bits of the status copy. -/
def maskLatch (frame : Frame μ) : Frame μ :=
  frame.onLocals fun locals => { locals with latch := pulledStatus locals.latch }

/-- Load the status register from its copy. -/
def loadSR (frame : Frame μ) : Frame μ := frame.onRegisters (assignSR frame.locals.latch)

/-- `__isa_6502_PLP`. -/
def isa6502PLP : Handler μ := fun cycle frame =>
  match cycle with
  | 1 => (popLatch frame).next
  | 2 => (maskLatch frame).next
  | 3 => (loadSR frame).done
  | _ => frame.next

/-- `__isa_6502_static_PLP`. -/
def isa6502StaticPLP : StaticHandler μ := fun frame => (loadSR (maskLatch (popLatch frame)), 3)

/-! ## Branches and jumps -/

/-- `PC = ADDR16`. -/
def loadPC (frame : Frame μ) : Frame μ := frame.onRegisters (assignPC frame.locals.ADDR16)

/-- `ADDR16 = PC + *((int8_t*)&DELTA)`. -/
def branchTarget (frame : Frame μ) : Frame μ :=
  frame.onLocals fun locals =>
    { locals with ADDR16 := frame.registers.PC + locals.DELTA.signExtend 16 }

/-- The cycles of a taken branch. -/
def branchCycles : Handler μ := fun cycle frame =>
  match cycle with
  | 1 => frame.fetchDELTA.next
  | 2 =>
      let target := branchTarget frame
      if target.locals.ADDR16.SamePage target.registers.PC then (loadPC target).done
      else target.next
  | 3 => (loadPC frame).done
  | _ => frame.next

/-- A staged conditional branch; its condition is tested again in every call. -/
def stagedBranch (taken : Registers → Bool) : Handler μ := fun cycle frame =>
  if taken frame.registers then branchCycles cycle frame else frame.fetchDELTA.done

/-- The cycles of a taken static-mode branch. -/
def branchCycleCount (target : Frame μ) : Nat :=
  2 + if target.locals.ADDR16.SamePage target.registers.PC then 0 else 1

/-- A static-mode conditional branch, which computes its target only to count cycles. -/
def staticBranch (taken : Registers → Bool) : StaticHandler μ := fun frame =>
  let fetched := frame.fetchDELTA
  if taken fetched.registers then (fetched, branchCycleCount (branchTarget fetched))
  else (fetched, 1)

/-- `__isa_6502_BCC`. -/
def isa6502BCC : Handler μ := stagedBranch fun registers => !registers.getBit Registers.bitC

/-- `__isa_6502_static_BCC`. -/
def isa6502StaticBCC : StaticHandler μ :=
  staticBranch fun registers => !registers.getBit Registers.bitC

/-- `__isa_6502_BCS`. -/
def isa6502BCS : Handler μ := stagedBranch fun registers => registers.getBit Registers.bitC

/-- `__isa_6502_static_BCS`. -/
def isa6502StaticBCS : StaticHandler μ :=
  staticBranch fun registers => registers.getBit Registers.bitC

/-- `__isa_6502_BEQ`. -/
def isa6502BEQ : Handler μ := stagedBranch fun registers => registers.getBit Registers.bitZ

/-- `__isa_6502_static_BEQ`. -/
def isa6502StaticBEQ : StaticHandler μ :=
  staticBranch fun registers => registers.getBit Registers.bitZ

/-- `__isa_6502_BMI`. -/
def isa6502BMI : Handler μ := stagedBranch fun registers => registers.getBit Registers.bitN

/-- `__isa_6502_static_BMI`. -/
def isa6502StaticBMI : StaticHandler μ :=
  staticBranch fun registers => registers.getBit Registers.bitN

/-- `__isa_6502_BNE`. -/
def isa6502BNE : Handler μ := stagedBranch fun registers => !registers.getBit Registers.bitZ

/-- `__isa_6502_static_BNE`. -/
def isa6502StaticBNE : StaticHandler μ :=
  staticBranch fun registers => !registers.getBit Registers.bitZ

/-- `__isa_6502_BPL`. -/
def isa6502BPL : Handler μ := stagedBranch fun registers => !registers.getBit Registers.bitN

/-- `__isa_6502_static_BPL`. -/
def isa6502StaticBPL : StaticHandler μ :=
  staticBranch fun registers => !registers.getBit Registers.bitN

/-- `__isa_6502_BVC`. -/
def isa6502BVC : Handler μ := stagedBranch fun registers => !registers.getBit Registers.bitV

/-- `__isa_6502_static_BVC`. -/
def isa6502StaticBVC : StaticHandler μ :=
  staticBranch fun registers => !registers.getBit Registers.bitV

/-- `__isa_6502_BVS`. -/
def isa6502BVS : Handler μ := stagedBranch fun registers => registers.getBit Registers.bitV

/-- `__isa_6502_static_BVS`. -/
def isa6502StaticBVS : StaticHandler μ :=
  staticBranch fun registers => registers.getBit Registers.bitV

/-- `__isa_65C02_BRA`. -/
def isa65C02BRA : Handler μ := branchCycles

/-- `__isa_65C02_static_BRA`. -/
def isa65C02StaticBRA : StaticHandler μ := staticBranch fun _ => true

/-- `INDIRECT = membus_read_addr(memory, ADDR16)`. -/
def readINDIRECT (frame : Frame μ) : Frame μ :=
  frame.readInto frame.locals.ADDR16 fun value locals => { locals with INDIRECT := value.toWord }

/-- `ADDR16++`. -/
def advanceADDR16 (frame : Frame μ) : Frame μ :=
  frame.onLocals fun locals => { locals with ADDR16 := locals.ADDR16 + 1 }

/-- `ADDR16++` within its page, the page-boundary bug the base dialect reproduces. -/
def advanceWithinPage (frame : Frame μ) : Frame μ :=
  frame.onLocals fun locals =>
    { locals with
      ADDR16 :=
        if locals.ADDR16 &&& 0x00FF = 0x00FF then locals.ADDR16 &&& 0xFF00
        else locals.ADDR16 + 1 }

/-- `ADDR16 = (membus_read_addr(memory, ADDR16) << 8) | INDIRECT`. -/
def readTargetHigh (frame : Frame μ) : Frame μ :=
  frame.readInto frame.locals.ADDR16 fun value locals =>
    { locals with ADDR16 := (value.toWord <<< 8) ||| locals.INDIRECT }

/-- The cycles of `JMP` in the base dialect. -/
def jmpAccess (mode : AddressingMode) : Handler μ := fun cycle frame =>
  match cycle with
  | 1 => frame.fetchLow.next
  | 2 => if mode = .absolute then frame.fetchHigh.done else frame.fetchHigh.next
  | 3 => (advanceWithinPage (readINDIRECT frame)).next
  | 4 => (readTargetHigh frame).done
  | _ => frame.next

/-- The cycles of `JMP` on the 65C02. -/
def jmpAccess65C02 (mode : AddressingMode) : Handler μ := fun cycle frame =>
  match cycle with
  | 1 => frame.fetchLow.next
  | 2 => if mode = .absolute then frame.fetchHigh.done else frame.fetchHigh.next
  | 3 =>
      match mode with
      | .indirect => (advanceADDR16 (readINDIRECT frame)).next
      | .absoluteXIndexedIndirect => (frame.offsetADDR16 Registers.X).next
      | _ => frame.next
  | 4 =>
      match mode with
      | .indirect => (readTargetHigh frame).done
      | .absoluteXIndexedIndirect => (advanceADDR16 (readINDIRECT frame)).next
      | _ => frame.next
  | 5 =>
      match mode with
      | .absoluteXIndexedIndirect => (readTargetHigh frame).done
      | _ => frame.next
  | _ => frame.next

/-- Straight-line addressing of `JMP` in the base dialect. -/
def jmpStaticAccess (mode : AddressingMode) : StaticHandler μ := fun frame =>
  match mode with
  | .absolute => (frame.fetchLow.fetchHigh, 2)
  | .indirect =>
      (readTargetHigh (advanceWithinPage (readINDIRECT frame.fetchLow.fetchHigh)), 4)
  | _ => (frame, frame.locals.cycleCount)

/-- Straight-line addressing of `JMP` on the 65C02. -/
def jmpStaticAccess65C02 (mode : AddressingMode) : StaticHandler μ := fun frame =>
  match mode with
  | .absolute => (frame.fetchLow.fetchHigh, 2)
  | .indirect => (readTargetHigh (advanceADDR16 (readINDIRECT frame.fetchLow.fetchHigh)), 4)
  | .absoluteXIndexedIndirect =>
      let indexed := frame.fetchLow.fetchHigh.offsetADDR16 Registers.X
      (readTargetHigh (advanceADDR16 (readINDIRECT indexed)), 5)
  | _ => (frame, frame.locals.cycleCount)

/-- `__isa_6502_JMP`. -/
def isa6502JMP (mode : AddressingMode) : Handler μ := completing (jmpAccess mode) loadPC

/-- `__isa_6502_static_JMP`. -/
def isa6502StaticJMP (mode : AddressingMode) : StaticHandler μ :=
  completingStatic (jmpStaticAccess mode) loadPC

/-- `__isa_65C02_JMP`. -/
def isa65C02JMP (mode : AddressingMode) : Handler μ := completing (jmpAccess65C02 mode) loadPC

/-- `__isa_65C02_static_JMP`. -/
def isa65C02StaticJMP (mode : AddressingMode) : StaticHandler μ :=
  completingStatic (jmpStaticAccess65C02 mode) loadPC

/-! ## Subroutines and interrupts -/

/-- Pop the low byte of an address. -/
def popLow (frame : Frame μ) : Frame μ :=
  frame.popInto fun value locals => { locals with ADDR16 := value.toWord }

/-- Pop the high byte of an address. -/
def popHigh (frame : Frame μ) : Frame μ :=
  frame.popInto fun value locals => { locals with ADDR16 := locals.ADDR16 ||| (value.toWord <<< 8) }

/-- `__isa_6502_JSR`. -/
def isa6502JSR : Handler μ := fun cycle frame =>
  match cycle with
  | 1 => frame.fetchLow.next
  | 2 => frame.fetchHigh.next
  | 3 => frame.pushPCHigh.next
  | 4 => frame.pushPCLow.next
  | 5 => (loadPC frame).done
  | _ => frame.next

/-- `__isa_6502_static_JSR`. -/
def isa6502StaticJSR : StaticHandler μ := fun frame =>
  (loadPC frame.fetchLow.fetchHigh.pushPCHigh.pushPCLow, 5)

/-- `__isa_6502_RTS`. -/
def isa6502RTS : Handler μ := fun cycle frame =>
  match cycle with
  | 1 => (popLow frame).next
  | 3 => (popHigh frame).next
  | 5 => (loadPC frame).done
  | _ => frame.next

/-- `__isa_6502_static_RTS`. -/
def isa6502StaticRTS : StaticHandler μ := fun frame => (loadPC (popHigh (popLow frame)), 5)

/-- Pop the high byte of the return address straight into the program counter. -/
def popReturn (frame : Frame μ) : Frame μ :=
  frame.popThen fun value after =>
    after.onRegisters (assignPC (after.locals.ADDR16 ||| (value.toWord <<< 8)))

/-- `__isa_6502_RTI`. -/
def isa6502RTI : Handler μ := fun cycle frame =>
  match cycle with
  | 1 => (popLatch frame).next
  | 2 => (maskLatch frame).next
  | 3 => (loadSR frame).next
  | 4 => (popLow frame).next
  | 5 => (popReturn frame).done
  | _ => frame.next

/-- `__isa_6502_static_RTI`. -/
def isa6502StaticRTI : StaticHandler μ := fun frame =>
  (popReturn (popLow (loadSR (maskLatch (popLatch frame)))), 5)

/-- `ADDR16 = membus_read_addr(memory, vector)`. -/
def vectorLow (vector : Word) (frame : Frame μ) : Frame μ :=
  frame.readInto vector fun value locals => { locals with ADDR16 := value.toWord }

/-- `ADDR16 |= membus_read_addr(memory, vector + 1) << 8`. -/
def vectorHigh (vector : Word) (frame : Frame μ) : Frame μ :=
  frame.readInto (vector + 1) fun value locals =>
    { locals with ADDR16 := locals.ADDR16 ||| (value.toWord <<< 8) }

/-- The status change of an interrupt: inhibit further requests. -/
def inhibit (registers : Registers) : Registers := registers.setBit Registers.bitI true

/-- The status change of an interrupt on the 65C02, which also leaves decimal mode. -/
def inhibit65C02 (registers : Registers) : Registers :=
  (registers.setBit Registers.bitI true).setBit Registers.bitD false

/-- Fetch and discard the byte after the `BRK` opcode. -/
def fetchDummy (frame : Frame μ) : Frame μ := frame.fetchInto fun _ locals => locals

/-- Push the status register with the break bit set. -/
def pushBreakStatus (frame : Frame μ) : Frame μ :=
  frame.push (frame.registers.SR ||| Registers.bitB)

/-- `PC = membus_read_addr(memory, MEMORY_ADDR_NMI_VECTOR)`. -/
def breakVectorLow (frame : Frame μ) : Frame μ :=
  frame.readThen memoryAddrNMIVector fun value after =>
    after.onRegisters (assignPC value.toWord)

/-- `PC |= membus_read_addr(memory, MEMORY_ADDR_NMI_VECTOR+1) << 8`. -/
def breakVectorHigh (frame : Frame μ) : Frame μ :=
  frame.readThen (memoryAddrNMIVector + 1) fun value after =>
    after.onRegisters (assignPC (after.registers.PC ||| (value.toWord <<< 8)))

/-- A staged `BRK`, from the status change of its dialect. -/
def stagedBRK (inhibit : Registers → Registers) : Handler μ := fun cycle frame =>
  match cycle with
  | 1 => (fetchDummy frame).pushPCHigh.next
  | 2 => frame.pushPCLow.next
  | 3 => (pushBreakStatus frame).next
  | 4 => (frame.onRegisters inhibit).next
  | 5 => (breakVectorLow frame).next
  | 6 => (breakVectorHigh frame).done
  | _ => frame.next

/-- A static-mode `BRK`. -/
def staticBRK (inhibit : Registers → Registers) : StaticHandler μ := fun frame =>
  let pushed := pushBreakStatus (fetchDummy frame).pushPCHigh.pushPCLow
  (breakVectorHigh (breakVectorLow (pushed.onRegisters inhibit)), 6)

/-- `__isa_6502_BRK`. -/
def isa6502BRK : Handler μ := stagedBRK inhibit

/-- `__isa_6502_static_BRK`. -/
def isa6502StaticBRK : StaticHandler μ := staticBRK inhibit

/-- `__isa_65C02_BRK`. -/
def isa65C02BRK : Handler μ := stagedBRK inhibit65C02

/-- `__isa_65C02_static_BRK`. -/
def isa65C02StaticBRK : StaticHandler μ := staticBRK inhibit65C02

/-- Push the status register as it stands. -/
def pushStatus (frame : Frame μ) : Frame μ := frame.push frame.registers.SR

/-- The five calls of an interrupt sequence through a vector. -/
def interruptCycles (vector : Word) (inhibit : Registers → Registers) : Handler μ :=
  fun cycle frame =>
    match cycle with
    | 1 => frame.pushPCHigh.next
    | 2 => frame.pushPCLow.next
    | 3 => ((pushStatus frame).onRegisters inhibit).next
    | 4 => (vectorLow vector frame).next
    | 5 => (loadPC (vectorHigh vector frame)).done
    | _ => frame.next

/-- A staged IRQ sequence, which ends at once in any call that finds the I bit set. -/
def stagedIRQ (inhibit : Registers → Registers) : Handler μ := fun cycle frame =>
  if frame.registers.getBit Registers.bitI then frame.done
  else interruptCycles memoryAddrIRQVector inhibit cycle frame

/-- `__isa_6502_IRQ`. -/
def isa6502IRQ : Handler μ := stagedIRQ inhibit

/-- `__isa_65C02_IRQ`. -/
def isa65C02IRQ : Handler μ := stagedIRQ inhibit65C02

/-- `__isa_6502_NMI`. -/
def isa6502NMI : Handler μ := interruptCycles memoryAddrNMIVector inhibit

/-- `__isa_65C02_NMI`. -/
def isa65C02NMI : Handler μ := interruptCycles memoryAddrNMIVector inhibit65C02

end System6502
