import System6502.Isa.Table

/-!
# Staged functions as straight-line programs

Each staged function that ends its instruction does so with the frame and the number of calls of
a straight-line program.  For most routines that program is the static-mode function; the others
are given here.
-/

namespace System6502

open System6502.Frame

variable {μ : Type*} [Membus μ]

/-! ## Programs that differ from static mode -/

/-- What `LDA` performs: the pointer modes lose or misplace the high byte of the pointer. -/
def ldaStraight (mode : AddressingMode) : StaticHandler μ := fun frame =>
  match mode with
  | .xIndexedIndirect =>
      ((frame.fetchADDR8.indexADDR8 Registers.X).pointerLow.readAtADDR16, 5)
  | .indirectYIndexed =>
      let indexed := frame.fetchADDR8.pointerLow.pointerHighUnshifted.indexADDR16 Registers.Y
      (indexed.readAtADDR16, 4 + indexed.pageCycle)
  | .zeropageIndirect => (frame.fetchADDR8.pointerLow.pointerHighUnshifted.readAtADDR16, 4)
  | mode => loadStaticAccess mode frame

/-- What `CMP` performs: the zero-page modes keep the stale operand, and the absolute mode reads
at the stale `ADDR8`. -/
def cmpStraight (mode : AddressingMode) : StaticHandler μ := fun frame =>
  match mode with
  | .zeropage | .zeropageXIndexed | .xIndexedIndirect | .indirectYIndexed | .zeropageIndirect =>
      (frame.fetchADDR8, 1)
  | .absolute => (frame.fetchLow.fetchHigh.readAtADDR8, 3)
  | mode => loadStaticAccess mode frame

/-- What the 65C02's `ADC` and `SBC` perform. -/
def decimalStraight (mode : AddressingMode) : StaticHandler μ := fun frame =>
  let latched := frame.latchBCD
  let (after, cycles) := loadStaticAccess mode latched
  match mode with
  | .absoluteXIndexed | .absoluteYIndexed | .indirectYIndexed =>
      (after.onLocals fun locals => { locals with isOperandSet := !after.crossed },
        cycles + decimalCycle latched)
  | _ => (after, cycles + decimalCycle latched)

/-- What the stores perform in the modes in which they end. -/
def storeStraight (mode : AddressingMode) : StaticHandler μ := fun frame =>
  match mode with
  | .zeropage => (frame.fetchADDR8.widenADDR8, 2)
  | .zeropageXIndexed => ((frame.fetchADDR8.indexADDR8 Registers.X).widenADDR8, 3)
  | .zeropageYIndexed => ((frame.fetchADDR8.indexADDR8 Registers.Y).widenADDR8, 3)
  | .absolute => (frame.fetchLow.fetchHigh, 3)
  | .absoluteXIndexed => (frame.fetchLow.fetchHigh.offsetADDR16 Registers.X, 4)
  | .absoluteYIndexed => (frame.fetchLow.fetchHigh.offsetADDR16 Registers.Y, 4)
  | .zeropageIndirect => (frame.fetchADDR8.pointerLow.pointerHigh, 4)
  | _ => (frame, 0)

/-- What `STZ` performs: the zero-page mode leaves `ADDR16` as it was. -/
def stzStraight (mode : AddressingMode) : StaticHandler μ := fun frame =>
  match mode with
  | .zeropage => (frame.fetchADDR8, 2)
  | mode => storeStraight mode frame

/-- A read operand, shifted in the penultimate cycle and once more in the last. -/
def shiftTwice (shift : Registers → Word → ShiftResult) (settle : Frame μ → Frame μ)
    (read : Frame μ) : Frame μ :=
  shiftOPERAND shift (settle (shiftOPERAND shift (markPenultimate true read)))

/-- What the base-dialect shifts perform. -/
def shiftStraight (accumulator : Frame μ → Frame μ) (shift : Registers → Word → ShiftResult)
    (mode : AddressingMode) : StaticHandler μ := fun frame =>
  let frame := markPenultimate false frame
  match mode with
  | .accumulator => (accumulator frame, 1)
  | .zeropage => (shiftTwice shift widenADDR8 frame.fetchADDR8.readAtADDR8, 4)
  | .zeropageXIndexed =>
      (shiftTwice shift widenADDR8 (frame.fetchADDR8.indexADDR8 Registers.X).readAtADDR8, 5)
  | .absolute => (shiftTwice shift id frame.fetchLow.fetchHigh.readAtADDR16, 5)
  | .absoluteXIndexed =>
      (shiftTwice shift id (frame.fetchLow.fetchHigh.offsetADDR16 Registers.X).readAtADDR16, 6)
  | _ => (frame, 0)

/-- What the 65C02's shifts perform. -/
def shiftStraight65C02 (accumulator : Frame μ → Frame μ)
    (shift : Registers → Word → ShiftResult) (mode : AddressingMode) : StaticHandler μ :=
  fun frame =>
    match mode with
    | .absoluteXIndexed =>
        let indexed := (markPenultimate false frame).fetchLow.fetchHigh.indexADDR16 Registers.X
        (shiftTwice shift id indexed.readAtADDR16, 5 + indexed.pageCycle)
    | mode => shiftStraight accumulator shift mode frame

/-- What the test-and-modify instructions perform: the absolute mode takes four calls. -/
def testModifyStraight (operation : Byte → Byte → Byte) (mode : AddressingMode) :
    StaticHandler μ := fun frame =>
  ((staticTestModify operation mode frame).1, 4)

/-- What a push performs. -/
def pushStraight (value : Registers → Byte) : StaticHandler μ := fun frame =>
  ((frame.onLocals fun locals => { locals with latch := value frame.registers }).push
    (value frame.registers), 2)

/-- What a conditional branch performs. -/
def branchStraight (taken : Registers → Bool) : StaticHandler μ := fun frame =>
  let fetched := frame.fetchDELTA
  if taken frame.registers then
    (loadPC (branchTarget fetched), branchCycleCount (branchTarget fetched))
  else (fetched, 1)

/-- The straight-line program of a routine in the modes in which it ends. -/
def Routine.straight : Routine → AddressingMode → StaticHandler μ
  | .AND, mode => completingStatic (loadStaticAccess mode) (combineA (· &&& ·))
  | .ORA, mode => completingStatic (loadStaticAccess mode) (combineA (· ||| ·))
  | .EOR, mode => completingStatic (loadStaticAccess mode) (combineA (· ^^^ ·))
  | .ADC, mode => completingStatic (fun frame => loadStaticAccess mode frame.latchBCD) (addToA 0)
  | .SBC, mode =>
      completingStatic (fun frame => loadStaticAccess mode frame.latchBCD) (subtractFromA 0)
  | .AND65C02, mode => completingStatic (loadStaticAccess65C02 mode) (combineA (· &&& ·))
  | .ORA65C02, mode => completingStatic (loadStaticAccess65C02 mode) (combineA (· ||| ·))
  | .EOR65C02, mode => completingStatic (loadStaticAccess65C02 mode) (combineA (· ^^^ ·))
  | .ADC65C02, mode => completingStatic (decimalStraight mode) (addToA 0)
  | .SBC65C02, mode => completingStatic (decimalStraight mode) (subtractFromA 0)
  | .LDA, mode | .LDA65C02, mode => completingStatic (ldaStraight mode) loadA
  | .CMP, mode | .CMP65C02, mode => completingStatic (cmpStraight mode) compareA
  | .LDX, mode => completingStatic (loadStaticAccess mode) loadX
  | .LDY, mode => completingStatic (loadStaticAccess mode) loadY
  | .CPX, mode => completingStatic (loadStaticAccess mode) (compareIndex Registers.X)
  | .CPY, mode => completingStatic (loadStaticAccess mode) (compareIndex Registers.Y)
  | .BIT, mode | .BIT65C02, mode => completingStatic (loadStaticAccess mode) testBits
  | .STA, mode | .STA65C02, mode =>
      completingStatic (storeStraight mode) (storeAtADDR16 Registers.A)
  | .STX, mode => completingStatic (storeStraight mode) (storeAtADDR16 Registers.X)
  | .STY, mode => completingStatic (storeStraight mode) (storeAtADDR16 Registers.Y)
  | .STZ65C02, mode => completingStatic (stzStraight mode) (storeAtADDR16 fun _ => 0x00)
  | .ASL, mode => shiftStraight (shiftAccumulatorThrough shiftLeft) shiftLeft mode
  | .LSR, mode => shiftStraight (shiftAccumulator shiftRight) shiftRight mode
  | .ROL, mode => shiftStraight (shiftAccumulatorThrough rotateLeft) rotateLeft mode
  | .ROR, mode => shiftStraight (shiftAccumulator rotateRight) rotateRight mode
  | .ASL65C02, mode => shiftStraight65C02 (shiftAccumulatorThrough rotateLeft) shiftLeft mode
  | .LSR65C02, mode => shiftStraight65C02 (shiftAccumulator shiftRight) shiftRight mode
  | .ROL65C02, mode => shiftStraight65C02 (shiftAccumulatorThrough rotateLeft) rotateLeft mode
  | .ROR65C02, mode => shiftStraight65C02 (shiftAccumulatorThrough rotateLeft) rotateRight mode
  | .TSB65C02, mode => testModifyStraight (· ||| ·) mode
  | .TRB65C02, mode => testModifyStraight (fun OPERAND A => OPERAND &&& ~~~A) mode
  | .PHA, _ => pushStraight Registers.A
  | .PHP, _ => pushStraight pushedStatus
  | .PHX65C02, _ => pushStraight Registers.X
  | .PHY65C02, _ => pushStraight Registers.Y
  | .BCC, _ => branchStraight fun registers => !registers.getBit Registers.bitC
  | .BCS, _ => branchStraight fun registers => registers.getBit Registers.bitC
  | .BEQ, _ => branchStraight fun registers => registers.getBit Registers.bitZ
  | .BMI, _ => branchStraight fun registers => registers.getBit Registers.bitN
  | .BNE, _ => branchStraight fun registers => !registers.getBit Registers.bitZ
  | .BPL, _ => branchStraight fun registers => !registers.getBit Registers.bitN
  | .BVC, _ => branchStraight fun registers => !registers.getBit Registers.bitV
  | .BVS, _ => branchStraight fun registers => registers.getBit Registers.bitV
  | .BRA65C02, _ => branchStraight fun _ => true
  | .SED, _ => staticImplied (assignBit Registers.bitD true)
  | routine, mode => routine.static mode

/-! ## Addressing switches -/

/-- A call that reads unless the page was left, followed by a call that reads in any case. -/
theorem runCalls_readUnlessCrossed {handler : Handler μ} (fuel cycle : Nat) (before : Frame μ)
    {indexed : Frame μ} (first : handler cycle before = indexed.readUnlessCrossed)
    (second : handler (cycle + 1) indexed = indexed.readAtADDR16.done) :
    runCalls handler (fuel + 2) cycle before =
      some (cycle + indexed.pageCycle, indexed.readAtADDR16) := by
  by_cases same : indexed.locals.ADDR16PreIndex.SamePage indexed.locals.ADDR16
  · have call : handler cycle before = indexed.readAtADDR16.done := by
      rw [first, readUnlessCrossed, if_pos same]
    rw [runCalls_done call]
    simp [pageCycle, crossed, same]
  · have call : handler cycle before = indexed.next := by
      rw [first, readUnlessCrossed, if_neg same]
    rw [runCalls_next call, runCalls_done second]
    simp [pageCycle, crossed, same]

/-- The addressing modes of the base dialect's accumulator instructions. -/
def operandModes : List AddressingMode :=
  [.immediate, .zeropage, .zeropageXIndexed, .absolute, .absoluteXIndexed, .absoluteYIndexed,
    .xIndexedIndirect, .indirectYIndexed]

/-- The addressing modes of the 65C02's accumulator instructions. -/
def operandModes65C02 : List AddressingMode := .zeropageIndirect :: operandModes

theorem aluAccess_performs {mode : AddressingMode} (assigned : mode ∈ operandModes) :
    Performs (μ := μ) (aluAccess mode) (loadStaticAccess mode) := by
  intro frame
  cases mode with
  | absoluteXIndexed | absoluteYIndexed =>
      exact runCalls_readUnlessCrossed 3 3 frame.fetchLow.fetchHigh rfl rfl
  | indirectYIndexed =>
      exact runCalls_readUnlessCrossed 2 4 frame.fetchADDR8.pointerLow.pointerHigh rfl rfl
  | immediate | zeropage | zeropageXIndexed | absolute | xIndexedIndirect => rfl
  | _ => simp [operandModes] at assigned

theorem aluAccess65C02_performs {mode : AddressingMode} (assigned : mode ∈ operandModes65C02) :
    Performs (μ := μ) (aluAccess65C02 mode) (loadStaticAccess65C02 mode) := by
  rcases List.mem_cons.mp assigned with rfl | assigned
  · intro frame
    rfl
  · have performs := aluAccess_performs (μ := μ) assigned
    cases mode with
    | zeropageIndirect => simp [operandModes] at assigned
    | _ => exact performs

theorem arithmeticAccess_performs {mode : AddressingMode} (assigned : mode ∈ operandModes) :
    Performs (μ := μ) (arithmeticAccess mode)
      (fun frame => loadStaticAccess mode frame.latchBCD) := by
  intro frame
  cases mode with
  | absoluteXIndexed | absoluteYIndexed =>
      exact runCalls_readUnlessCrossed 3 3 frame.latchBCD.fetchLow.fetchHigh rfl rfl
  | indirectYIndexed =>
      exact runCalls_readUnlessCrossed 2 4 frame.latchBCD.fetchADDR8.pointerLow.pointerHigh
        rfl rfl
  | immediate | zeropage | zeropageXIndexed | absolute | xIndexedIndirect => rfl
  | _ => simp [operandModes] at assigned

theorem ldaAccess_performs {mode : AddressingMode} (assigned : mode ∈ operandModes) :
    Performs (μ := μ) (ldaAccess mode) (ldaStraight mode) := by
  intro frame
  cases mode with
  | absoluteXIndexed | absoluteYIndexed =>
      exact runCalls_readUnlessCrossed 3 3 frame.fetchLow.fetchHigh rfl rfl
  | indirectYIndexed =>
      exact runCalls_readUnlessCrossed 2 4 frame.fetchADDR8.pointerLow rfl rfl
  | immediate | zeropage | zeropageXIndexed | absolute | xIndexedIndirect => rfl
  | _ => simp [operandModes] at assigned

theorem ldaAccess65C02_performs {mode : AddressingMode} (assigned : mode ∈ operandModes65C02) :
    Performs (μ := μ) (ldaAccess65C02 mode) (ldaStraight mode) := by
  rcases List.mem_cons.mp assigned with rfl | assigned
  · intro frame
    rfl
  · have performs := ldaAccess_performs (μ := μ) assigned
    cases mode with
    | zeropageIndirect => simp [operandModes] at assigned
    | _ => exact performs

theorem cmpAccess_performs {mode : AddressingMode} (assigned : mode ∈ operandModes) :
    Performs (μ := μ) (cmpAccess mode) (cmpStraight mode) := by
  intro frame
  cases mode with
  | absoluteXIndexed | absoluteYIndexed =>
      exact runCalls_readUnlessCrossed 3 3 frame.fetchLow.fetchHigh rfl rfl
  | immediate | zeropage | zeropageXIndexed | absolute | xIndexedIndirect | indirectYIndexed => rfl
  | _ => simp [operandModes] at assigned

theorem cmpAccess65C02_performs {mode : AddressingMode} (assigned : mode ∈ operandModes65C02) :
    Performs (μ := μ) (cmpAccess65C02 mode) (cmpStraight mode) := by
  rcases List.mem_cons.mp assigned with rfl | assigned
  · intro frame
    rfl
  · have performs := cmpAccess_performs (μ := μ) assigned
    cases mode with
    | zeropageIndirect => simp [operandModes] at assigned
    | _ => exact performs

omit [Membus μ] in
theorem runCalls_doneUnlessBCD {handler : Handler μ} (fuel cycle : Nat) (before after : Frame μ)
    (first : handler cycle before = doneUnlessBCD after)
    (second : handler (cycle + 1) after = after.done) :
    runCalls handler (fuel + 2) cycle before = some (cycle + decimalCycle after, after) := by
  by_cases decimal : after.locals.isBCD
  · have call : handler cycle before = after.next := by
      rw [first, doneUnlessBCD, if_pos decimal]
    rw [runCalls_next call, runCalls_done second]
    simp [decimalCycle, decimal]
  · have call : handler cycle before = after.done := by
      rw [first, doneUnlessBCD, if_neg decimal]
    rw [runCalls_done call]
    simp [decimalCycle, decimal]

/-- The three last cycles of an indexed access on the 65C02's arithmetic functions. -/
theorem runCalls_readTrackingCrossing {handler : Handler μ} (fuel cycle : Nat)
    (before : Frame μ) {indexed : Frame μ}
    (first : handler cycle before = readTrackingCrossing indexed)
    (second : ∀ frame, handler (cycle + 1) frame = readIfStillUnset frame)
    (third : ∀ frame, handler (cycle + 2) frame = frame.done) :
    runCalls handler (fuel + 3) cycle before =
      some (cycle + indexed.pageCycle + decimalCycle indexed,
        indexed.readAtADDR16.onLocals fun locals =>
          { locals with isOperandSet := !indexed.crossed }) := by
  by_cases same : indexed.locals.ADDR16PreIndex.SamePage indexed.locals.ADDR16
  · have call : handler cycle before = doneUnlessBCD
        (indexed.readAtADDR16.onLocals fun locals => { locals with isOperandSet := true }) := by
      rw [first, readTrackingCrossing, if_pos same]
    rw [runCalls_doneUnlessBCD (fuel + 1) cycle before _ call (second _)]
    simp [pageCycle, crossed, same]
    rfl
  · have call : handler cycle before =
        (indexed.onLocals fun locals => { locals with isOperandSet := false }).next := by
      rw [first, readTrackingCrossing, if_neg same]
    rw [runCalls_next call,
      runCalls_doneUnlessBCD fuel (cycle + 1) _ _ (second _) (third _)]
    simp [pageCycle, crossed, same]
    exact ⟨rfl, rfl⟩

theorem decimalAccess_performs {mode : AddressingMode} (assigned : mode ∈ operandModes) :
    Performs (μ := μ) (decimalAccess mode) (decimalStraight mode) := by
  intro frame
  let pointer := frame.latchBCD.fetchADDR8.indexADDR8 Registers.X
  let based := frame.latchBCD.fetchLow.fetchHigh
  cases mode with
  | immediate => exact runCalls_doneUnlessBCD 5 1 frame frame.latchBCD.fetchOPERAND rfl rfl
  | zeropage =>
      exact runCalls_doneUnlessBCD 4 2 frame.latchBCD.fetchADDR8
        frame.latchBCD.fetchADDR8.readAtADDR8 rfl rfl
  | zeropageXIndexed => exact runCalls_doneUnlessBCD 3 3 pointer pointer.readAtADDR8 rfl rfl
  | absolute => exact runCalls_doneUnlessBCD 3 3 based based.readAtADDR16 rfl rfl
  | absoluteXIndexed | absoluteYIndexed =>
      exact runCalls_readTrackingCrossing 2 3 based rfl (fun _ => rfl) (fun _ => rfl)
  | xIndexedIndirect =>
      exact runCalls_doneUnlessBCD 1 5 pointer.pointerLow.pointerHigh
        pointer.pointerLow.pointerHigh.readAtADDR16 rfl rfl
  | indirectYIndexed =>
      exact runCalls_readTrackingCrossing 1 4 frame.latchBCD.fetchADDR8.pointerLow.pointerHigh rfl
        (fun _ => rfl) (fun _ => rfl)
  | _ => simp [operandModes] at assigned

theorem indexLoadAccess_performs {mode : AddressingMode}
    (assigned : mode ∈ [AddressingMode.immediate, .zeropage, .zeropageXIndexed, .absolute,
      .absoluteXIndexed]) :
    Performs (μ := μ) (indexLoadAccess mode) (loadStaticAccess mode) := by
  intro frame
  cases mode with
  | absoluteXIndexed => exact runCalls_readUnlessCrossed 3 3 frame.fetchLow.fetchHigh rfl rfl
  | immediate | zeropage | zeropageXIndexed | absolute => rfl
  | _ => simp at assigned

theorem indexCompareAccess_performs {mode : AddressingMode}
    (assigned : mode ∈ [AddressingMode.immediate, .zeropage, .absolute]) :
    Performs (μ := μ) (indexCompareAccess mode) (loadStaticAccess mode) := by
  intro frame
  cases mode with
  | immediate | zeropage | absolute => rfl
  | _ => simp at assigned

theorem bitAccess_performs {mode : AddressingMode}
    (assigned : mode ∈ [AddressingMode.zeropage, .absolute]) :
    Performs (μ := μ) (bitAccess mode) (loadStaticAccess mode) := by
  intro frame
  cases mode with
  | zeropage | absolute => rfl
  | _ => simp at assigned

theorem bitAccess65C02_performs {mode : AddressingMode}
    (assigned : mode ∈ [AddressingMode.immediate, .zeropage, .zeropageXIndexed, .absolute,
      .absoluteXIndexed]) :
    Performs (μ := μ) (bitAccess65C02 mode) (loadStaticAccess mode) := by
  intro frame
  cases mode with
  | absoluteXIndexed => exact runCalls_readUnlessCrossed 3 3 frame.fetchLow.fetchHigh rfl rfl
  | immediate | zeropage | zeropageXIndexed | absolute => rfl
  | _ => simp at assigned

theorem staAccess_performs {mode : AddressingMode}
    (assigned : mode ∈ [AddressingMode.zeropage, .zeropageXIndexed, .absolute, .absoluteXIndexed,
      .absoluteYIndexed]) :
    Performs (μ := μ) (staAccess mode) (storeStraight mode) := by
  intro frame
  cases mode with
  | zeropage | zeropageXIndexed | absolute | absoluteXIndexed | absoluteYIndexed => rfl
  | _ => simp at assigned

theorem staAccess65C02_performs {mode : AddressingMode}
    (assigned : mode ∈ [AddressingMode.zeropage, .zeropageXIndexed, .absolute, .absoluteXIndexed,
      .absoluteYIndexed, .zeropageIndirect]) :
    Performs (μ := μ) (staAccess65C02 mode) (storeStraight mode) := by
  intro frame
  cases mode with
  | zeropage | zeropageXIndexed | absolute | absoluteXIndexed | absoluteYIndexed
  | zeropageIndirect => rfl
  | _ => simp at assigned

theorem stxAccess_performs {mode : AddressingMode}
    (assigned : mode ∈ [AddressingMode.zeropage, .zeropageYIndexed, .absolute]) :
    Performs (μ := μ) (indexStoreAccess .zeropageYIndexed Registers.Y mode)
      (storeStraight mode) := by
  intro frame
  cases mode with
  | zeropage | zeropageYIndexed | absolute => rfl
  | _ => simp at assigned

theorem styAccess_performs {mode : AddressingMode}
    (assigned : mode ∈ [AddressingMode.zeropage, .zeropageXIndexed, .absolute]) :
    Performs (μ := μ) (indexStoreAccess .zeropageXIndexed Registers.X mode)
      (storeStraight mode) := by
  intro frame
  cases mode with
  | zeropage | zeropageXIndexed | absolute => rfl
  | _ => simp at assigned

theorem stzAccess_performs {mode : AddressingMode}
    (assigned : mode ∈ [AddressingMode.zeropage, .zeropageXIndexed, .absolute,
      .absoluteXIndexed]) :
    Performs (μ := μ) (stzAccess mode) (stzStraight mode) := by
  intro frame
  cases mode with
  | zeropage | zeropageXIndexed | absolute | absoluteXIndexed => rfl
  | _ => simp at assigned

/-! ## Read-modify-write instructions -/

/-- The addressing modes of the shifts. -/
def shiftModes : List AddressingMode :=
  [.accumulator, .zeropage, .zeropageXIndexed, .absolute, .absoluteXIndexed]

/-- The addressing modes of memory increments and decrements. -/
def adjustModes : List AddressingMode :=
  [.zeropage, .zeropageXIndexed, .absolute, .absoluteXIndexed]

theorem stagedShift_performs (accumulator : Frame μ → Frame μ)
    (shift : Registers → Word → ShiftResult) {mode : AddressingMode}
    (assigned : mode ∈ shiftModes) :
    Performs (μ := μ) (stagedShift accumulator shiftAccess shift mode)
      (shiftStraight accumulator shift mode) := by
  intro frame
  cases mode with
  | accumulator | zeropage | zeropageXIndexed | absolute | absoluteXIndexed => rfl
  | _ => simp [shiftModes] at assigned

/-- The last cycles of an indexed 65C02 shift, from a frame whose mark is clear. -/
theorem runCalls_shiftIndexed (accumulator : Frame μ → Frame μ)
    (shift : Registers → Word → ShiftResult) (indexed : Frame μ)
    (unmarked : indexed.locals.isPenultimate = false) :
    runCalls (stagedShift accumulator shiftAccess65C02 shift .absoluteXIndexed) 4 4 indexed =
      some (5 + indexed.pageCycle, shiftTwice shift id indexed.readAtADDR16) := by
  let handler := stagedShift accumulator shiftAccess65C02 shift .absoluteXIndexed
  let shifted := shiftOPERAND shift (markPenultimate true indexed.readAtADDR16)
  have last : ∀ cycle, cycle = 5 ∨ cycle = 6 →
      handler cycle shifted = (shiftTwice shift id indexed.readAtADDR16).done := by
    rintro cycle (rfl | rfl) <;> rfl
  by_cases same : indexed.locals.ADDR16PreIndex.SamePage indexed.locals.ADDR16
  · have fourth : handler 4 indexed = shifted.next := by
      change shiftTail shift (if _ then _ else _) = _
      rw [if_pos same]
      rfl
    rw [runCalls_next fourth, runCalls_done (last 5 (.inl rfl))]
    simp [pageCycle, crossed, same]
  · have fourth : handler 4 indexed = indexed.next := by
      change shiftTail shift (if _ then _ else _) = _
      rw [if_neg same]
      simp [shiftTail, next, unmarked]
    have fifth : handler 5 indexed = shifted.next := by
      change shiftTail shift (if _ then _ else _) = _
      rw [if_neg (by simp [unmarked])]
      rfl
    rw [runCalls_next fourth, runCalls_next fifth, runCalls_done (last 6 (.inr rfl))]
    simp [pageCycle, crossed, same]

theorem stagedShift65C02_performs (accumulator : Frame μ → Frame μ)
    (shift : Registers → Word → ShiftResult) {mode : AddressingMode}
    (assigned : mode ∈ shiftModes) :
    Performs (μ := μ) (stagedShift accumulator shiftAccess65C02 shift mode)
      (shiftStraight65C02 accumulator shift mode) := by
  intro frame
  cases mode with
  | accumulator | zeropage | zeropageXIndexed | absolute => rfl
  | absoluteXIndexed =>
      exact runCalls_shiftIndexed accumulator shift _ rfl
  | _ => simp [shiftModes] at assigned

theorem adjust_performs (step : Word) {mode : AddressingMode} (assigned : mode ∈ adjustModes) :
    Performs (μ := μ) (completing (adjustAccess step mode) storeAdjusted)
      (staticAdjust step mode) := by
  intro frame
  cases mode with
  | zeropage | zeropageXIndexed | absolute | absoluteXIndexed => rfl
  | _ => simp [adjustModes] at assigned

theorem adjust65C02_performs (step : Word) {mode : AddressingMode}
    (assigned : mode ∈ shiftModes) :
    Performs (μ := μ) (stagedAdjust65C02 step mode) (staticAdjust65C02 step mode) := by
  intro frame
  cases mode with
  | accumulator | zeropage | zeropageXIndexed | absolute | absoluteXIndexed => rfl
  | _ => simp [shiftModes] at assigned

theorem testModify_performs (operation : Byte → Byte → Byte) {mode : AddressingMode}
    (assigned : mode ∈ [AddressingMode.zeropage, .absolute]) :
    Performs (μ := μ) (stagedTestModify operation .nextCycle mode)
      (testModifyStraight operation mode) := by
  intro frame
  cases mode with
  | zeropage | absolute => rfl
  | _ => simp at assigned

/-! ## Implied instructions, the stack and control flow -/

omit [Membus μ] in
theorem stagedImplied_performs (change : Registers → Registers) :
    Performs (μ := μ) (stagedImplied change) (staticImplied change) := fun _ => rfl

theorem stagedPush_performs (value : Registers → Byte) :
    Performs (μ := μ) (stagedPush value) (pushStraight value) := fun _ => rfl

theorem stagedPull_performs (assign : Byte → Registers → Registers)
    (didSet : Registers → Registers) :
    Performs (μ := μ) (stagedPull assign didSet) (staticPull assign didSet) := fun _ => rfl

theorem isa6502PLP_performs : Performs (μ := μ) isa6502PLP isa6502StaticPLP := fun _ => rfl

theorem isa6502JSR_performs : Performs (μ := μ) isa6502JSR isa6502StaticJSR := fun _ => rfl

theorem isa6502RTS_performs : Performs (μ := μ) isa6502RTS isa6502StaticRTS := fun _ => rfl

theorem isa6502RTI_performs : Performs (μ := μ) isa6502RTI isa6502StaticRTI := fun _ => rfl

theorem stagedBRK_performs (inhibit : Registers → Registers) :
    Performs (μ := μ) (stagedBRK inhibit) (staticBRK inhibit) := fun _ => rfl

theorem jmpAccess_performs {mode : AddressingMode}
    (assigned : mode ∈ [AddressingMode.absolute, .indirect]) :
    Performs (μ := μ) (jmpAccess mode) (jmpStaticAccess mode) := by
  intro frame
  cases mode with
  | absolute | indirect => rfl
  | _ => simp at assigned

theorem jmpAccess65C02_performs {mode : AddressingMode}
    (assigned : mode ∈ [AddressingMode.absolute, .indirect, .absoluteXIndexedIndirect]) :
    Performs (μ := μ) (jmpAccess65C02 mode) (jmpStaticAccess65C02 mode) := by
  intro frame
  cases mode with
  | absolute | indirect | absoluteXIndexedIndirect => rfl
  | _ => simp at assigned

/-- A conditional branch whose condition does not read the program counter. -/
theorem stagedBranch_performs (taken : Registers → Bool)
    (pcFree : ∀ registers PC, taken (assignPC PC registers) = taken registers) :
    Performs (μ := μ) (stagedBranch taken) (branchStraight taken) := by
  intro frame
  by_cases holds : taken frame.registers
  · let target := branchTarget frame.fetchDELTA
    have still : taken frame.fetchDELTA.registers := by
      rw [← holds]
      exact pcFree frame.registers _
    have stillTarget : taken target.registers := still
    have first : stagedBranch taken 1 frame = frame.fetchDELTA.next := if_pos holds
    have straight : branchStraight taken frame = (loadPC target, branchCycleCount target) :=
      if_pos holds
    rw [runCalls_next first, straight, branchCycleCount]
    by_cases same : target.locals.ADDR16.SamePage target.registers.PC
    · have second : stagedBranch taken 2 frame.fetchDELTA = (loadPC target).done :=
        (if_pos still).trans (if_pos same)
      rw [runCalls_done second, if_pos same]
    · have second : stagedBranch taken 2 frame.fetchDELTA = target.next :=
        (if_pos still).trans (if_neg same)
      have third : stagedBranch taken 3 target = (loadPC target).done := if_pos stillTarget
      rw [runCalls_next second, runCalls_done third, if_neg same]
  · have first : stagedBranch taken 1 frame = frame.fetchDELTA.done := if_neg holds
    have straight : branchStraight taken frame = (frame.fetchDELTA, 1) := if_neg holds
    rw [runCalls_done first, straight]

theorem branchOnSet_performs (whichBit : Byte) :
    Performs (μ := μ) (stagedBranch fun registers => registers.getBit whichBit)
      (branchStraight fun registers => registers.getBit whichBit) :=
  stagedBranch_performs _ fun _ _ => rfl

theorem branchOnClear_performs (whichBit : Byte) :
    Performs (μ := μ) (stagedBranch fun registers => !registers.getBit whichBit)
      (branchStraight fun registers => !registers.getBit whichBit) :=
  stagedBranch_performs _ fun _ _ => rfl

theorem isa65C02BRA_performs :
    Performs (μ := μ) isa65C02BRA (branchStraight fun _ => true) :=
  stagedBranch_performs (fun _ => true) fun _ _ => rfl

/-! ## All routines -/

namespace Routine

/-- The addressing modes a dispatch table assigns to a routine. -/
def modes : Routine → List AddressingMode
  | ADC | AND | ORA | EOR | SBC | LDA | CMP => operandModes
  | ADC65C02 | AND65C02 | ORA65C02 | EOR65C02 | SBC65C02 | LDA65C02 | CMP65C02 =>
      operandModes65C02
  | LDX => [.immediate, .zeropage, .zeropageYIndexed, .absolute, .absoluteYIndexed]
  | LDY | BIT65C02 => [.immediate, .zeropage, .zeropageXIndexed, .absolute, .absoluteXIndexed]
  | CPX | CPY => [.immediate, .zeropage, .absolute]
  | BIT | TSB65C02 | TRB65C02 => [.zeropage, .absolute]
  | STA =>
      [.zeropage, .zeropageXIndexed, .absolute, .absoluteXIndexed, .absoluteYIndexed,
        .xIndexedIndirect, .indirectYIndexed]
  | STA65C02 =>
      [.zeropage, .zeropageXIndexed, .absolute, .absoluteXIndexed, .absoluteYIndexed,
        .xIndexedIndirect, .indirectYIndexed, .zeropageIndirect]
  | STX => [.zeropage, .zeropageYIndexed, .absolute]
  | STY => [.zeropage, .zeropageXIndexed, .absolute]
  | STZ65C02 | INC | DEC => adjustModes
  | ASL | LSR | ROL | ROR | ASL65C02 | LSR65C02 | ROL65C02 | ROR65C02 | INC65C02 | DEC65C02 =>
      shiftModes
  | JSR => [.absolute]
  | JMP => [.absolute, .indirect]
  | JMP65C02 => [.absolute, .indirect, .absoluteXIndexedIndirect]
  | BCC | BCS | BEQ | BMI | BNE | BPL | BVC | BVS | BRA65C02 => [.relative]
  | _ => [.implied]

/-- The assigned modes for which a staged function has no case that ends the instruction. -/
def endlessModes : Routine → List AddressingMode
  | STA | STA65C02 => [.xIndexedIndirect, .indirectYIndexed]
  | LDX => [.zeropageYIndexed, .absoluteYIndexed]
  | ADC65C02 | SBC65C02 => [.zeropageIndirect]
  | _ => []

/-- Every staged function performs its straight-line program in each assigned mode for which it
has an ending case. -/
theorem staged_performs (routine : Routine) {mode : AddressingMode}
    (assigned : mode ∈ routine.modes) (ends : mode ∉ routine.endlessModes) :
    Performs (μ := μ) (routine.staged mode) (routine.straight mode) := by
  cases routine with
  | AND | ORA | EOR => exact (aluAccess_performs assigned).completing _
  | ADC | SBC => exact (arithmeticAccess_performs assigned).completing _
  | AND65C02 | ORA65C02 | EOR65C02 => exact (aluAccess65C02_performs assigned).completing _
  | ADC65C02 | SBC65C02 =>
      refine (decimalAccess_performs ?_).completing _
      simp_all [modes, endlessModes, operandModes65C02]
  | LDA => exact (ldaAccess_performs assigned).completing _
  | LDA65C02 => exact (ldaAccess65C02_performs assigned).completing _
  | CMP => exact (cmpAccess_performs assigned).completing _
  | CMP65C02 => exact (cmpAccess65C02_performs assigned).completing _
  | LDX =>
      refine (indexLoadAccess_performs ?_).completing _
      simp_all [modes, endlessModes]
      tauto
  | LDY => exact (indexLoadAccess_performs assigned).completing _
  | CPX | CPY => exact (indexCompareAccess_performs assigned).completing _
  | BIT => exact (bitAccess_performs assigned).completing _
  | BIT65C02 => exact (bitAccess65C02_performs assigned).completing _
  | STA =>
      refine (staAccess_performs ?_).completing _
      simp_all [modes, endlessModes]
  | STA65C02 =>
      refine (staAccess65C02_performs ?_).completing _
      simp_all [modes, endlessModes]
  | STX => exact (stxAccess_performs assigned).completing _
  | STY => exact (styAccess_performs assigned).completing _
  | STZ65C02 => exact (stzAccess_performs assigned).completing _
  | ASL | LSR | ROL | ROR => exact stagedShift_performs _ _ assigned
  | ASL65C02 | LSR65C02 | ROL65C02 | ROR65C02 => exact stagedShift65C02_performs _ _ assigned
  | INC | DEC => exact adjust_performs _ assigned
  | INC65C02 | DEC65C02 => exact adjust65C02_performs _ assigned
  | TSB65C02 | TRB65C02 => exact testModify_performs _ assigned
  | JMP => exact (jmpAccess_performs assigned).completing _
  | JMP65C02 => exact (jmpAccess65C02_performs assigned).completing _
  | JSR => exact isa6502JSR_performs
  | RTS => exact isa6502RTS_performs
  | RTI => exact isa6502RTI_performs
  | BRK | BRK65C02 => exact stagedBRK_performs _
  | PHA | PHP | PHX65C02 | PHY65C02 => exact stagedPush_performs _
  | PLA | PLX65C02 | PLY65C02 => exact stagedPull_performs _ _
  | PLP => exact isa6502PLP_performs
  | BCS | BEQ | BMI | BVS => exact branchOnSet_performs _
  | BCC | BNE | BPL | BVC => exact branchOnClear_performs _
  | BRA65C02 => exact isa65C02BRA_performs
  | CLC | CLD | CLI | CLV | DEX | DEY | INX | INY | NOP | SEC | SED | SEI | TAX | TAY | TSX | TXA
  | TXS | TYA => exact stagedImplied_performs _

end Routine
end System6502
