import System6502.Isa.Table
import Mathlib.Data.Set.Piecewise

/-!
# Memory that an instruction does not touch

A staged function that makes no access in a region of memory does the same, call by call, whatever
the region holds.
-/

namespace System6502

open System6502.Frame

/-- The address of an access. -/
def Access.address : Access → Word
  | read address _ => address
  | write address _ => address

/-- No access of a log falls into a region. -/
def Traced.Avoids {μ : Type*} (region : Set Word) (traced : Traced μ) : Prop :=
  ∀ access ∈ traced.log, access.address ∉ region

/-- The frame on a memory array that holds other bytes in a region, and without the log. -/
def Frame.overlaid (region : Set Word) [DecidablePred (· ∈ region)] (other : Ram)
    (frame : Frame (Traced Ram)) : Frame Ram where
  memory := region.piecewise other frame.memory.bus
  registers := frame.registers
  locals := frame.locals

section Overlay

variable (region : Set Word) [DecidablePred (· ∈ region)] (other : Ram)

/-- A call that avoids a region comes after calls that did, and does the same whatever the region
holds. -/
def Overlays (call : Frame (Traced Ram) → Frame (Traced Ram) × Stage)
    (replayed : Frame Ram → Frame Ram × Stage) : Prop :=
  ∀ frame, (call frame).1.memory.Avoids region →
    frame.memory.Avoids region ∧
      replayed (frame.overlaid region other) =
        ((call frame).1.overlaid region other, (call frame).2)

/-- The same for the part of a function after its switch. -/
def Settles (finish : Frame (Traced Ram) → Frame (Traced Ram))
    (replayed : Frame Ram → Frame Ram) : Prop :=
  ∀ frame, (finish frame).memory.Avoids region →
    frame.memory.Avoids region ∧
      replayed (frame.overlaid region other) = (finish frame).overlaid region other

variable {region other}

/-! ## Accesses -/

section Accesses

variable (frame : Frame (Traced Ram))

@[simp]
theorem registers_overlaid : (frame.overlaid region other).registers = frame.registers := rfl

@[simp]
theorem locals_overlaid : (frame.overlaid region other).locals = frame.locals := rfl

@[simp]
theorem onLocals_overlaid (change : Locals → Locals) :
    (frame.overlaid region other).onLocals change =
      (frame.onLocals change).overlaid region other := rfl

@[simp]
theorem onRegisters_overlaid (change : Registers → Registers) :
    (frame.overlaid region other).onRegisters change =
      (frame.onRegisters change).overlaid region other := rfl

theorem readThen_overlaid {address : Word} (use : Byte → Frame Ram → Frame Ram)
    (outside : address ∉ region) :
    (frame.overlaid region other).readThen address use =
      use (frame.memory.bus address) (frame.overlaid region other) := by
  change use (region.piecewise other frame.memory.bus address) _ = _
  rw [Set.piecewise_eq_of_notMem _ _ _ outside]
  rfl

@[simp]
theorem readInto_overlaid {address : Word} (store : Byte → Locals → Locals)
    (outside : address ∉ region) :
    (frame.overlaid region other).readInto address store =
      (frame.readInto address store).overlaid region other :=
  readThen_overlaid frame _ outside

@[simp]
theorem fetchInto_overlaid (store : Byte → Locals → Locals)
    (outside : frame.registers.PC ∉ region) :
    (frame.overlaid region other).fetchInto store =
      (frame.fetchInto store).overlaid region other := by
  unfold fetchInto
  rw [registers_overlaid, readInto_overlaid frame store outside]
  rfl

@[simp]
theorem write_overlaid {address : Word} (value : Byte) (outside : address ∉ region) :
    (frame.overlaid region other).write address value =
      (frame.write address value).overlaid region other := by
  have memory_eq : Function.update (region.piecewise other frame.memory.bus) address value =
      region.piecewise other (Function.update frame.memory.bus address value) := by
    funext index
    by_cases same : index = address
    · subst same
      rw [Function.update_self, Set.piecewise_eq_of_notMem _ _ _ outside, Function.update_self]
    · rw [Function.update_of_ne same]
      by_cases inside : index ∈ region
      · rw [Set.piecewise_eq_of_mem _ _ _ inside, Set.piecewise_eq_of_mem _ _ _ inside]
      · rw [Set.piecewise_eq_of_notMem _ _ _ inside, Set.piecewise_eq_of_notMem _ _ _ inside,
          Function.update_of_ne same]
  exact congrArg (fun memory => Frame.mk memory frame.registers frame.locals) memory_eq

@[simp]
theorem push_overlaid (value : Byte)
    (outside : 0x0100 + frame.registers.SP.toWord ∉ region) :
    (frame.overlaid region other).push value = (frame.push value).overlaid region other := by
  unfold push
  rw [registers_overlaid, write_overlaid frame value outside]
  rfl

@[simp]
theorem popInto_overlaid (store : Byte → Locals → Locals)
    (outside : 0x0100 + (frame.registers.SP + 1).toWord ∉ region) :
    (frame.overlaid region other).popInto store = (frame.popInto store).overlaid region other :=
  readInto_overlaid (frame.onRegisters fun registers => { registers with SP := registers.SP + 1 })
    store outside

@[simp]
theorem popReturn_overlaid (outside : 0x0100 + (frame.registers.SP + 1).toWord ∉ region) :
    popReturn (frame.overlaid region other) = (popReturn frame).overlaid region other :=
  readThen_overlaid (frame.onRegisters fun registers => { registers with SP := registers.SP + 1 })
    (fun value after => after.onRegisters
      (assignPC (after.locals.ADDR16 ||| (value.toWord <<< 8)))) outside

@[simp]
theorem breakVectorLow_overlaid (outside : memoryAddrNMIVector ∉ region) :
    breakVectorLow (frame.overlaid region other) = (breakVectorLow frame).overlaid region other :=
  readThen_overlaid frame (fun value after => after.onRegisters (assignPC value.toWord)) outside

@[simp]
theorem breakVectorHigh_overlaid (outside : memoryAddrNMIVector + 1 ∉ region) :
    breakVectorHigh (frame.overlaid region other) = (breakVectorHigh frame).overlaid region other :=
  readThen_overlaid frame (fun value after => after.onRegisters
    (assignPC (after.registers.PC ||| (value.toWord <<< 8)))) outside

omit [DecidablePred (· ∈ region)]

@[simp]
theorem avoids_onLocals (change : Locals → Locals) :
    (frame.onLocals change).memory.Avoids region ↔ frame.memory.Avoids region := Iff.rfl

@[simp]
theorem avoids_onRegisters (change : Registers → Registers) :
    (frame.onRegisters change).memory.Avoids region ↔ frame.memory.Avoids region := Iff.rfl

@[simp]
theorem avoids_readInto (address : Word) (store : Byte → Locals → Locals) :
    (frame.readInto address store).memory.Avoids region ↔
      address ∉ region ∧ frame.memory.Avoids region := List.forall_mem_cons

@[simp]
theorem avoids_fetchInto (store : Byte → Locals → Locals) :
    (frame.fetchInto store).memory.Avoids region ↔
      frame.registers.PC ∉ region ∧ frame.memory.Avoids region := List.forall_mem_cons

@[simp]
theorem avoids_write (address : Word) (value : Byte) :
    (frame.write address value).memory.Avoids region ↔
      address ∉ region ∧ frame.memory.Avoids region := List.forall_mem_cons

@[simp]
theorem avoids_push (value : Byte) :
    (frame.push value).memory.Avoids region ↔
      0x0100 + frame.registers.SP.toWord ∉ region ∧ frame.memory.Avoids region :=
  List.forall_mem_cons

@[simp]
theorem avoids_popInto (store : Byte → Locals → Locals) :
    (frame.popInto store).memory.Avoids region ↔
      0x0100 + (frame.registers.SP + 1).toWord ∉ region ∧ frame.memory.Avoids region :=
  List.forall_mem_cons

@[simp]
theorem avoids_popReturn :
    (popReturn frame).memory.Avoids region ↔
      0x0100 + (frame.registers.SP + 1).toWord ∉ region ∧ frame.memory.Avoids region :=
  List.forall_mem_cons

@[simp]
theorem avoids_breakVectorLow :
    (breakVectorLow frame).memory.Avoids region ↔
      memoryAddrNMIVector ∉ region ∧ frame.memory.Avoids region := List.forall_mem_cons

@[simp]
theorem avoids_breakVectorHigh :
    (breakVectorHigh frame).memory.Avoids region ↔
      memoryAddrNMIVector + 1 ∉ region ∧ frame.memory.Avoids region := List.forall_mem_cons

end Accesses

/-! ## Addressing switches -/

attribute [local simp] next done fetchADDR8 fetchLow fetchHigh fetchOPERAND fetchDELTA fetchDummy
  readAtADDR8 readAtADDR16 pointerLow pointerHigh pointerHighUnshifted readINDIRECT readTargetHigh
  indexADDR8 indexADDR16 offsetADDR16 widenADDR8 latchBCD advanceADDR16 advanceWithinPage
  markPenultimate adjustOPERAND pushPCHigh pushPCLow pushStatus pushBreakStatus popLatch popLow
  popHigh maskLatch loadSR loadPC branchTarget vectorLow vectorHigh

theorem aluAccess_overlays (mode : AddressingMode) (cycle : Nat) :
    Overlays region other (aluAccess mode cycle) (aluAccess mode cycle) := by
  intro frame avoids
  unfold aluAccess readUnlessCrossed at avoids ⊢
  repeat' split at avoids
  all_goals simp_all

theorem aluAccess65C02_overlays (mode : AddressingMode) (cycle : Nat) :
    Overlays region other (aluAccess65C02 mode cycle) (aluAccess65C02 mode cycle) := by
  have base : Overlays region other (aluAccess mode cycle) (aluAccess mode cycle) :=
    aluAccess_overlays mode cycle
  cases mode with
  | zeropageIndirect =>
      intro frame avoids
      simp only [aluAccess65C02] at avoids ⊢
      split at avoids <;> simp_all
  | _ => exact base

theorem arithmeticAccess_overlays (mode : AddressingMode) (cycle : Nat) :
    Overlays region other (arithmeticAccess mode cycle) (arithmeticAccess mode cycle) := by
  intro frame avoids
  unfold arithmeticAccess at avoids ⊢
  by_cases first : cycle = 1
  · simp only [if_pos first] at avoids ⊢
    exact aluAccess_overlays mode cycle frame.latchBCD avoids
  · simp only [if_neg first] at avoids ⊢
    exact aluAccess_overlays mode cycle frame avoids

theorem decimalAccess_overlays (mode : AddressingMode) (cycle : Nat) :
    Overlays region other (decimalAccess mode cycle) (decimalAccess mode cycle) := by
  intro frame avoids
  unfold decimalAccess readTrackingCrossing readIfStillUnset doneUnlessBCD at avoids ⊢
  repeat' split at avoids
  all_goals simp_all

theorem ldaAccess_overlays (mode : AddressingMode) (cycle : Nat) :
    Overlays region other (ldaAccess mode cycle) (ldaAccess mode cycle) := by
  intro frame avoids
  unfold ldaAccess readUnlessCrossed at avoids ⊢
  repeat' split at avoids
  all_goals simp_all

theorem ldaAccess65C02_overlays (mode : AddressingMode) (cycle : Nat) :
    Overlays region other (ldaAccess65C02 mode cycle) (ldaAccess65C02 mode cycle) := by
  have base : Overlays region other (ldaAccess mode cycle) (ldaAccess mode cycle) :=
    ldaAccess_overlays mode cycle
  cases mode with
  | zeropageIndirect =>
      intro frame avoids
      simp only [ldaAccess65C02] at avoids ⊢
      split at avoids <;> simp_all
  | _ => exact base

theorem cmpAccess_overlays (mode : AddressingMode) (cycle : Nat) :
    Overlays region other (cmpAccess mode cycle) (cmpAccess mode cycle) := by
  intro frame avoids
  unfold cmpAccess readUnlessCrossed at avoids ⊢
  repeat' split at avoids
  all_goals simp_all

theorem cmpAccess65C02_overlays (mode : AddressingMode) (cycle : Nat) :
    Overlays region other (cmpAccess65C02 mode cycle) (cmpAccess65C02 mode cycle) := by
  have base : Overlays region other (cmpAccess mode cycle) (cmpAccess mode cycle) :=
    cmpAccess_overlays mode cycle
  cases mode with
  | zeropageIndirect =>
      intro frame avoids
      simp only [cmpAccess65C02] at avoids ⊢
      split at avoids <;> simp_all
  | _ => exact base

theorem indexLoadAccess_overlays (mode : AddressingMode) (cycle : Nat) :
    Overlays region other (indexLoadAccess mode cycle) (indexLoadAccess mode cycle) := by
  intro frame avoids
  unfold indexLoadAccess readUnlessCrossed at avoids ⊢
  repeat' split at avoids
  all_goals simp_all

theorem indexCompareAccess_overlays (mode : AddressingMode) (cycle : Nat) :
    Overlays region other (indexCompareAccess mode cycle) (indexCompareAccess mode cycle) := by
  intro frame avoids
  unfold indexCompareAccess at avoids ⊢
  repeat' split at avoids
  all_goals simp_all

theorem bitAccess_overlays (mode : AddressingMode) (cycle : Nat) :
    Overlays region other (bitAccess mode cycle) (bitAccess mode cycle) := by
  intro frame avoids
  unfold bitAccess at avoids ⊢
  repeat' split at avoids
  all_goals simp_all

theorem bitAccess65C02_overlays (mode : AddressingMode) (cycle : Nat) :
    Overlays region other (bitAccess65C02 mode cycle) (bitAccess65C02 mode cycle) := by
  intro frame avoids
  unfold bitAccess65C02 readUnlessCrossed at avoids ⊢
  repeat' split at avoids
  all_goals simp_all

theorem staAccess_overlays (mode : AddressingMode) (cycle : Nat) :
    Overlays region other (staAccess mode cycle) (staAccess mode cycle) := by
  intro frame avoids
  unfold staAccess at avoids ⊢
  repeat' split at avoids
  all_goals simp_all

theorem staAccess65C02_overlays (mode : AddressingMode) (cycle : Nat) :
    Overlays region other (staAccess65C02 mode cycle) (staAccess65C02 mode cycle) := by
  have base : Overlays region other (staAccess mode cycle) (staAccess mode cycle) :=
    staAccess_overlays mode cycle
  cases mode with
  | zeropageIndirect =>
      intro frame avoids
      simp only [staAccess65C02] at avoids ⊢
      split at avoids <;> simp_all
  | _ => exact base

theorem indexStoreAccess_overlays (indexed : AddressingMode) (index : Registers → Byte)
    (mode : AddressingMode) (cycle : Nat) :
    Overlays region other (indexStoreAccess indexed index mode cycle)
      (indexStoreAccess indexed index mode cycle) := by
  intro frame avoids
  unfold indexStoreAccess at avoids ⊢
  repeat' split at avoids
  all_goals simp_all

theorem stzAccess_overlays (mode : AddressingMode) (cycle : Nat) :
    Overlays region other (stzAccess mode cycle) (stzAccess mode cycle) := by
  intro frame avoids
  unfold stzAccess at avoids ⊢
  repeat' split at avoids
  all_goals simp_all

theorem shiftAccess_overlays (mode : AddressingMode) (cycle : Nat) :
    Overlays region other (shiftAccess mode cycle) (shiftAccess mode cycle) := by
  intro frame avoids
  unfold shiftAccess at avoids ⊢
  dsimp only at avoids ⊢
  repeat' split at avoids
  all_goals simp_all

theorem shiftAccess65C02_overlays (mode : AddressingMode) (cycle : Nat) :
    Overlays region other (shiftAccess65C02 mode cycle) (shiftAccess65C02 mode cycle) := by
  have base : Overlays region other (shiftAccess mode cycle) (shiftAccess mode cycle) :=
    shiftAccess_overlays mode cycle
  cases mode with
  | absoluteXIndexed =>
      intro frame avoids
      simp only [shiftAccess65C02] at avoids ⊢
      repeat' split at avoids
      all_goals simp_all
  | _ => exact base

theorem adjustAccess_overlays (step : Word) (mode : AddressingMode) (cycle : Nat) :
    Overlays region other (adjustAccess step mode cycle) (adjustAccess step mode cycle) := by
  intro frame avoids
  unfold adjustAccess at avoids ⊢
  repeat' split at avoids
  all_goals simp_all

theorem jmpAccess_overlays (mode : AddressingMode) (cycle : Nat) :
    Overlays region other (jmpAccess mode cycle) (jmpAccess mode cycle) := by
  intro frame avoids
  unfold jmpAccess at avoids ⊢
  repeat' split at avoids
  all_goals simp_all

theorem jmpAccess65C02_overlays (mode : AddressingMode) (cycle : Nat) :
    Overlays region other (jmpAccess65C02 mode cycle) (jmpAccess65C02 mode cycle) := by
  intro frame avoids
  unfold jmpAccess65C02 at avoids ⊢
  repeat' split at avoids
  all_goals simp_all

/-! ## Tails -/

theorem Overlays.completing {access : Handler (Traced Ram)} {replayed : Handler Ram} {cycle : Nat}
    {finish : Frame (Traced Ram) → Frame (Traced Ram)} {finishReplayed : Frame Ram → Frame Ram}
    (overlays : Overlays region other (access cycle) (replayed cycle))
    (settles : Settles region other finish finishReplayed) :
    Overlays region other (completing access finish cycle)
      (completing replayed finishReplayed cycle) := by
  intro frame avoids
  unfold System6502.completing at avoids ⊢
  rcases access_eq : access cycle frame with ⟨after, stage⟩
  have call := overlays frame
  rw [access_eq] at avoids call
  cases stage with
  | instrEnd =>
      obtain ⟨afterAvoids, finish_eq⟩ := settles after avoids
      obtain ⟨before, replayed_eq⟩ := call afterAvoids
      refine ⟨before, ?_⟩
      rw [replayed_eq]
      exact congrArg (fun frame => (frame, Stage.instrEnd)) finish_eq
  | _ =>
      obtain ⟨before, replayed_eq⟩ := call avoids
      refine ⟨before, ?_⟩
      rw [replayed_eq]

theorem storeAtADDR16_overlays (value : Registers → Byte) :
    Settles region other (storeAtADDR16 value) (storeAtADDR16 value) := by
  intro frame avoids
  simp_all [storeAtADDR16]

theorem storeAdjusted_overlays : Settles region other storeAdjusted storeAdjusted := by
  intro frame avoids
  simp_all [storeAdjusted, writeOPERAND]

theorem shiftAccumulator_overlays (shift : Registers → Word → ShiftResult) :
    Settles region other (shiftAccumulator shift) (shiftAccumulator shift) :=
  fun _ avoids => ⟨avoids, rfl⟩

theorem shiftAccumulatorThrough_overlays (shift : Registers → Word → ShiftResult) :
    Settles region other (shiftAccumulatorThrough shift) (shiftAccumulatorThrough shift) :=
  fun _ avoids => ⟨avoids, rfl⟩

theorem shiftTail_overlays (shift : Registers → Word → ShiftResult) (stage : Stage) :
    Overlays region other (fun frame => shiftTail shift (frame, stage))
      (fun frame => shiftTail shift (frame, stage)) := by
  intro frame avoids
  unfold shiftTail writeOPERAND shiftOPERAND at avoids ⊢
  dsimp only at avoids ⊢
  repeat' split at avoids
  all_goals simp_all

theorem stagedShift_overlays {accumulator : Frame (Traced Ram) → Frame (Traced Ram)}
    {accumulatorReplayed : Frame Ram → Frame Ram}
    (settles : Settles region other accumulator accumulatorReplayed)
    {access : AddressingMode → Handler (Traced Ram)} {replayed : AddressingMode → Handler Ram}
    (shift : Registers → Word → ShiftResult) (mode : AddressingMode) (cycle : Nat)
    (overlays : Overlays region other (access mode cycle) (replayed mode cycle)) :
    Overlays region other (stagedShift accumulator access shift mode cycle)
      (stagedShift accumulatorReplayed replayed shift mode cycle) := by
  intro frame avoids
  unfold stagedShift at avoids ⊢
  by_cases onA : cycle = 1 ∧ mode = .accumulator
  · simp only [if_pos onA] at avoids ⊢
    obtain ⟨before, accumulator_eq⟩ := settles _ avoids
    refine ⟨before, ?_⟩
    exact congrArg (fun frame => Frame.done frame) accumulator_eq
  · simp only [if_neg onA] at avoids ⊢
    rcases access_eq : access mode cycle frame with ⟨after, stage⟩
    have call := overlays frame
    rw [access_eq] at avoids call
    obtain ⟨afterAvoids, tail_eq⟩ := shiftTail_overlays shift stage after avoids
    obtain ⟨before, replayed_eq⟩ := call afterAvoids
    rw [replayed_eq]
    exact ⟨before, tail_eq⟩

theorem stagedAdjust65C02_overlays (step : Word) (mode : AddressingMode) (cycle : Nat) :
    Overlays region other (stagedAdjust65C02 step mode cycle)
      (stagedAdjust65C02 step mode cycle) := by
  intro frame avoids
  by_cases onA : cycle = 1 ∧ mode = .accumulator
  · unfold stagedAdjust65C02 at avoids ⊢
    simp only [if_pos onA] at avoids ⊢
    exact ⟨avoids, rfl⟩
  · have tail : Overlays region other
        (completing (adjustAccess step mode) storeAdjusted cycle)
        (completing (adjustAccess step mode) storeAdjusted cycle) :=
      (adjustAccess_overlays step mode cycle).completing storeAdjusted_overlays
    unfold stagedAdjust65C02 at avoids ⊢
    simp only [if_neg onA] at avoids ⊢
    exact tail frame avoids

theorem stagedTestModify_overlays (operation : Byte → Byte → Byte) (stage : Stage)
    (mode : AddressingMode) (cycle : Nat) :
    Overlays region other (stagedTestModify operation stage mode cycle)
      (stagedTestModify operation stage mode cycle) := by
  intro frame avoids
  unfold stagedTestModify testAgainstA writeCombined at avoids ⊢
  repeat' split at avoids
  all_goals simp_all

/-! ## The stack and control flow -/

theorem stagedPush_overlays (value : Registers → Byte) (cycle : Nat) :
    Overlays region other (stagedPush value cycle) (stagedPush value cycle) := by
  intro frame avoids
  unfold stagedPush at avoids ⊢
  split at avoids <;> simp_all

theorem stagedPull_overlays (assign : Byte → Registers → Registers)
    (didSet : Registers → Registers) (cycle : Nat) :
    Overlays region other (stagedPull assign didSet cycle) (stagedPull assign didSet cycle) := by
  intro frame avoids
  unfold stagedPull at avoids ⊢
  split at avoids <;> simp_all

theorem isa6502PLP_overlays (cycle : Nat) :
    Overlays region other (isa6502PLP cycle) (isa6502PLP cycle) := by
  intro frame avoids
  unfold isa6502PLP at avoids ⊢
  split at avoids <;> simp_all

theorem isa6502JSR_overlays (cycle : Nat) :
    Overlays region other (isa6502JSR cycle) (isa6502JSR cycle) := by
  intro frame avoids
  unfold isa6502JSR at avoids ⊢
  split at avoids <;> simp_all

theorem isa6502RTS_overlays (cycle : Nat) :
    Overlays region other (isa6502RTS cycle) (isa6502RTS cycle) := by
  intro frame avoids
  unfold isa6502RTS at avoids ⊢
  split at avoids <;> simp_all

theorem isa6502RTI_overlays (cycle : Nat) :
    Overlays region other (isa6502RTI cycle) (isa6502RTI cycle) := by
  intro frame avoids
  unfold isa6502RTI at avoids ⊢
  split at avoids <;> simp_all

theorem stagedBRK_overlays (inhibit : Registers → Registers) (cycle : Nat) :
    Overlays region other (stagedBRK inhibit cycle) (stagedBRK inhibit cycle) := by
  intro frame avoids
  unfold stagedBRK at avoids ⊢
  split at avoids <;> simp_all

theorem branchCycles_overlays (cycle : Nat) :
    Overlays region other (branchCycles cycle) (branchCycles cycle) := by
  intro frame avoids
  unfold branchCycles at avoids ⊢
  dsimp only at avoids ⊢
  repeat' split at avoids
  all_goals simp_all

theorem stagedBranch_overlays (taken : Registers → Bool) (cycle : Nat) :
    Overlays region other (stagedBranch taken cycle) (stagedBranch taken cycle) := by
  intro frame avoids
  by_cases holds : taken frame.registers
  · have call : stagedBranch taken cycle frame = branchCycles cycle frame := if_pos holds
    have replayed : stagedBranch taken cycle (frame.overlaid region other) =
        branchCycles cycle (frame.overlaid region other) := if_pos holds
    rw [call] at avoids ⊢
    rw [replayed]
    exact branchCycles_overlays cycle frame avoids
  · unfold stagedBranch at avoids ⊢
    simp_all

theorem interruptCycles_overlays (vector : Word) (inhibit : Registers → Registers) (cycle : Nat) :
    Overlays region other (interruptCycles vector inhibit cycle)
      (interruptCycles vector inhibit cycle) := by
  intro frame avoids
  unfold interruptCycles at avoids ⊢
  split at avoids <;> simp_all

theorem stagedIRQ_overlays (inhibit : Registers → Registers) (cycle : Nat) :
    Overlays region other (stagedIRQ inhibit cycle) (stagedIRQ inhibit cycle) := by
  intro frame avoids
  by_cases inhibited : frame.registers.getBit Registers.bitI
  · unfold stagedIRQ at avoids ⊢
    simp_all
  · have call : stagedIRQ inhibit cycle frame =
        interruptCycles memoryAddrIRQVector inhibit cycle frame := if_neg inhibited
    have replayed : stagedIRQ inhibit cycle (frame.overlaid region other) =
        interruptCycles memoryAddrIRQVector inhibit cycle (frame.overlaid region other) :=
      if_neg inhibited
    rw [call] at avoids ⊢
    rw [replayed]
    exact interruptCycles_overlays memoryAddrIRQVector inhibit cycle frame avoids

/-! ## All routines -/

/-- A staged function does the same whatever a region holds in which it makes no access. -/
theorem Routine.staged_overlays (routine : Routine) (mode : AddressingMode) (cycle : Nat) :
    Overlays region other (routine.staged mode cycle) (routine.staged mode cycle) := by
  cases routine with
  | AND | ORA | EOR =>
      exact (aluAccess_overlays mode cycle).completing fun _ avoids => ⟨avoids, rfl⟩
  | ADC | SBC =>
      exact (arithmeticAccess_overlays mode cycle).completing fun _ avoids => ⟨avoids, rfl⟩
  | AND65C02 | ORA65C02 | EOR65C02 =>
      exact (aluAccess65C02_overlays mode cycle).completing fun _ avoids => ⟨avoids, rfl⟩
  | ADC65C02 | SBC65C02 =>
      exact (decimalAccess_overlays mode cycle).completing fun _ avoids => ⟨avoids, rfl⟩
  | LDA => exact (ldaAccess_overlays mode cycle).completing fun _ avoids => ⟨avoids, rfl⟩
  | LDA65C02 => exact (ldaAccess65C02_overlays mode cycle).completing fun _ avoids => ⟨avoids, rfl⟩
  | CMP => exact (cmpAccess_overlays mode cycle).completing fun _ avoids => ⟨avoids, rfl⟩
  | CMP65C02 => exact (cmpAccess65C02_overlays mode cycle).completing fun _ avoids => ⟨avoids, rfl⟩
  | LDX | LDY =>
      exact (indexLoadAccess_overlays mode cycle).completing fun _ avoids => ⟨avoids, rfl⟩
  | CPX | CPY =>
      exact (indexCompareAccess_overlays mode cycle).completing fun _ avoids => ⟨avoids, rfl⟩
  | BIT => exact (bitAccess_overlays mode cycle).completing fun _ avoids => ⟨avoids, rfl⟩
  | BIT65C02 => exact (bitAccess65C02_overlays mode cycle).completing fun _ avoids => ⟨avoids, rfl⟩
  | STA => exact (staAccess_overlays mode cycle).completing (storeAtADDR16_overlays _)
  | STA65C02 => exact (staAccess65C02_overlays mode cycle).completing (storeAtADDR16_overlays _)
  | STX | STY =>
      exact (indexStoreAccess_overlays _ _ mode cycle).completing (storeAtADDR16_overlays _)
  | STZ65C02 => exact (stzAccess_overlays mode cycle).completing (storeAtADDR16_overlays _)
  | ASL | ROL =>
      exact stagedShift_overlays (shiftAccumulatorThrough_overlays _) _ mode cycle
        (shiftAccess_overlays mode cycle)
  | LSR | ROR =>
      exact stagedShift_overlays (shiftAccumulator_overlays _) _ mode cycle
        (shiftAccess_overlays mode cycle)
  | ASL65C02 | ROL65C02 | ROR65C02 =>
      exact stagedShift_overlays (shiftAccumulatorThrough_overlays _) _ mode cycle
        (shiftAccess65C02_overlays mode cycle)
  | LSR65C02 =>
      exact stagedShift_overlays (shiftAccumulator_overlays _) _ mode cycle
        (shiftAccess65C02_overlays mode cycle)
  | INC | DEC => exact (adjustAccess_overlays _ mode cycle).completing storeAdjusted_overlays
  | INC65C02 | DEC65C02 => exact stagedAdjust65C02_overlays _ mode cycle
  | TSB65C02 | TRB65C02 => exact stagedTestModify_overlays _ _ mode cycle
  | JMP => exact (jmpAccess_overlays mode cycle).completing fun _ avoids => ⟨avoids, rfl⟩
  | JMP65C02 => exact (jmpAccess65C02_overlays mode cycle).completing fun _ avoids => ⟨avoids, rfl⟩
  | JSR => exact isa6502JSR_overlays cycle
  | RTS => exact isa6502RTS_overlays cycle
  | RTI => exact isa6502RTI_overlays cycle
  | BRK | BRK65C02 => exact stagedBRK_overlays _ cycle
  | PHA | PHP | PHX65C02 | PHY65C02 => exact stagedPush_overlays _ cycle
  | PLA | PLX65C02 | PLY65C02 => exact stagedPull_overlays _ _ cycle
  | PLP => exact isa6502PLP_overlays cycle
  | BCS | BEQ | BMI | BVS | BCC | BNE | BPL | BVC => exact stagedBranch_overlays _ cycle
  | BRA65C02 => exact branchCycles_overlays cycle
  | CLC | CLD | CLI | CLV | DEX | DEY | INX | INY | NOP | SEC | SED | SEI | TAX | TAY | TSX | TXA
  | TXS | TYA => exact fun _ avoids => ⟨avoids, rfl⟩

/-- So does an interrupt sequence. -/
theorem Interrupt.staged_overlays (interrupt : Interrupt) (cycle : Nat) :
    Overlays region other (interrupt.staged cycle) (interrupt.staged cycle) := by
  cases interrupt with
  | IRQ | IRQ65C02 => exact stagedIRQ_overlays _ cycle
  | NMI | NMI65C02 => exact interruptCycles_overlays _ _ cycle

/-- Successive calls that avoid a region end alike whatever the region holds. -/
theorem runCalls_overlaid {handler : Handler (Traced Ram)} {replayed : Handler Ram}
    (overlays : ∀ cycle, Overlays region other (handler cycle) (replayed cycle))
    {fuel cycle calls : Nat} {frame after : Frame (Traced Ram)}
    (ended : runCalls handler fuel cycle frame = some (calls, after))
    (avoids : after.memory.Avoids region) :
    frame.memory.Avoids region ∧
      runCalls replayed fuel cycle (frame.overlaid region other) =
        some (calls, after.overlaid region other) := by
  induction fuel generalizing cycle frame with
  | zero => cases ended
  | succ fuel ih =>
      rw [runCalls] at ended ⊢
      rcases call_eq : handler cycle frame with ⟨middle, stage⟩
      have call := overlays cycle frame
      rw [call_eq] at ended call
      cases stage with
      | instrEnd =>
          obtain ⟨rfl, rfl⟩ := Prod.mk.inj (Option.some.inj ended)
          obtain ⟨before, replayed_eq⟩ := call avoids
          rw [replayed_eq]
          exact ⟨before, rfl⟩
      | _ =>
          obtain ⟨middleAvoids, further⟩ := ih ended
          obtain ⟨before, replayed_eq⟩ := call middleAvoids
          rw [replayed_eq]
          exact ⟨before, further⟩

end Overlay
end System6502
