import System6502.Isa.Table

/-!
# Projections of the bus

A map between buses that keeps what reads return, and commutes with what accesses do, commutes with
every instruction function.
-/

namespace System6502

open System6502.Frame

/-- A map between buses that keeps what reads return and commutes with accesses. -/
class BusProjection {μ ν : Type*} [Membus μ] [Membus ν] (project : μ → ν) : Prop where
  /-- Reads. -/
  readAddr : ∀ memory address, Membus.readAddr (project memory) address =
    ((Membus.readAddr memory address).1, project (Membus.readAddr memory address).2)
  /-- Writes. -/
  writeAddr : ∀ memory address value, Membus.writeAddr (project memory) address value =
    project (Membus.writeAddr memory address value)

/-- A frame with its bus projected. -/
def Frame.project {μ ν : Type*} (project : μ → ν) (frame : Frame μ) : Frame ν where
  memory := project frame.memory
  registers := frame.registers
  locals := frame.locals

section Projection

variable {μ ν γ : Type*} (project : μ → ν)

/-- A function of frames and the same function on the other bus agree on projected frames. -/
def Projects (call : Frame μ → Frame μ × γ) (projected : Frame ν → Frame ν × γ) : Prop :=
  ∀ frame, projected (frame.project project) = ((call frame).1.project project, (call frame).2)

/-- The same for the part of a function after its switch. -/
def ProjectsTail (finish : Frame μ → Frame μ) (projected : Frame ν → Frame ν) : Prop :=
  ∀ frame, projected (frame.project project) = (finish frame).project project

variable {project} (frame : Frame μ)

/-! ## Accesses -/

@[simp]
theorem registers_project : (frame.project project).registers = frame.registers := rfl

@[simp]
theorem locals_project : (frame.project project).locals = frame.locals := rfl

@[simp]
theorem onLocals_project (change : Locals → Locals) :
    (frame.project project).onLocals change = (frame.onLocals change).project project := rfl

@[simp]
theorem onRegisters_project (change : Registers → Registers) :
    (frame.project project).onRegisters change = (frame.onRegisters change).project project := rfl

@[simp]
theorem pageCycle_project : (frame.project project).pageCycle = frame.pageCycle := rfl

variable [Membus μ] [Membus ν] [BusProjection project]

theorem readThen_project (address : Word) {use : Byte → Frame μ → Frame μ}
    {projected : Byte → Frame ν → Frame ν}
    (projects : ∀ value, ProjectsTail project (use value) (projected value)) :
    (frame.project project).readThen address projected =
      (frame.readThen address use).project project := by
  have read : Membus.readAddr (project frame.memory) address = _ :=
    BusProjection.readAddr frame.memory address
  rw [readThen, readThen, ← projects]
  simp only [Frame.project, read]

@[simp]
theorem readInto_project (address : Word) (store : Byte → Locals → Locals) :
    (frame.project project).readInto address store =
      (frame.readInto address store).project project :=
  readThen_project frame address fun _ _ => rfl

@[simp]
theorem fetchInto_project (store : Byte → Locals → Locals) :
    (frame.project project).fetchInto store = (frame.fetchInto store).project project := by
  rw [fetchInto, registers_project, readInto_project]
  rfl

@[simp]
theorem write_project (address : Word) (value : Byte) :
    (frame.project project).write address value = (frame.write address value).project project :=
  congrArg (Frame.mk · frame.registers frame.locals)
    (BusProjection.writeAddr frame.memory address value)

@[simp]
theorem push_project (value : Byte) :
    (frame.project project).push value = (frame.push value).project project := by
  rw [push, registers_project, write_project]
  rfl

theorem popThen_project {use : Byte → Frame μ → Frame μ} {projected : Byte → Frame ν → Frame ν}
    (projects : ∀ value, ProjectsTail project (use value) (projected value)) :
    (frame.project project).popThen projected = (frame.popThen use).project project := by
  rw [popThen, popThen]
  exact readThen_project
    (frame.onRegisters fun registers => { registers with SP := registers.SP + 1 }) _ projects

@[simp]
theorem popInto_project (store : Byte → Locals → Locals) :
    (frame.project project).popInto store = (frame.popInto store).project project :=
  popThen_project frame fun _ _ => rfl

@[simp]
theorem popReturn_project :
    popReturn (frame.project project) = (popReturn frame).project project :=
  popThen_project frame fun _ _ => rfl

@[simp]
theorem breakVectorLow_project :
    breakVectorLow (frame.project project) = (breakVectorLow frame).project project :=
  readThen_project frame _ fun _ _ => rfl

@[simp]
theorem breakVectorHigh_project :
    breakVectorHigh (frame.project project) = (breakVectorHigh frame).project project :=
  readThen_project frame _ fun _ _ => rfl

/-! ## Addressing switches -/

attribute [local simp] next done fetchADDR8 fetchLow fetchHigh fetchOPERAND fetchDELTA fetchDummy
  readAtADDR8 readAtADDR16 pointerLow pointerHigh pointerHighUnshifted readINDIRECT readTargetHigh
  indexADDR8 indexADDR16 offsetADDR16 widenADDR8 latchBCD advanceADDR16 advanceWithinPage
  markPenultimate adjustOPERAND pushPCHigh pushPCLow pushStatus pushBreakStatus popLatch popLow
  popHigh maskLatch loadSR loadPC branchTarget vectorLow vectorHigh

theorem aluAccess_projects (mode : AddressingMode) (cycle : Nat) :
    Projects project (aluAccess mode cycle) (aluAccess mode cycle) := by
  intro frame
  unfold aluAccess readUnlessCrossed
  repeat' split
  all_goals simp_all

theorem aluAccess65C02_projects (mode : AddressingMode) (cycle : Nat) :
    Projects project (aluAccess65C02 mode cycle) (aluAccess65C02 mode cycle) := by
  have base : Projects project (aluAccess mode cycle) (aluAccess mode cycle) :=
    aluAccess_projects mode cycle
  cases mode with
  | zeropageIndirect =>
      intro frame
      simp only [aluAccess65C02]
      split <;> simp_all
  | _ => exact base

theorem aluStaticAccess_projects (mode : AddressingMode) :
    Projects project (aluStaticAccess mode) (aluStaticAccess mode) := by
  intro frame
  unfold aluStaticAccess
  repeat' split
  all_goals simp_all

theorem aluStaticAccess65C02_projects (mode : AddressingMode) :
    Projects project (aluStaticAccess65C02 mode) (aluStaticAccess65C02 mode) := by
  have base : Projects project (aluStaticAccess mode) (aluStaticAccess mode) :=
    aluStaticAccess_projects mode
  cases mode with
  | zeropageIndirect =>
      intro frame
      simp [aluStaticAccess65C02]
  | _ => exact base

theorem arithmeticAccess_projects (mode : AddressingMode) (cycle : Nat) :
    Projects project (arithmeticAccess mode cycle) (arithmeticAccess mode cycle) := by
  intro frame
  unfold arithmeticAccess
  split
  case isTrue => exact aluAccess_projects mode cycle frame.latchBCD
  case isFalse => exact aluAccess_projects mode cycle frame

theorem decimalAccess_projects (mode : AddressingMode) (cycle : Nat) :
    Projects project (decimalAccess mode cycle) (decimalAccess mode cycle) := by
  intro frame
  unfold decimalAccess readTrackingCrossing readIfStillUnset doneUnlessBCD
  repeat' split
  all_goals simp_all

theorem ldaAccess_projects (mode : AddressingMode) (cycle : Nat) :
    Projects project (ldaAccess mode cycle) (ldaAccess mode cycle) := by
  intro frame
  unfold ldaAccess readUnlessCrossed
  repeat' split
  all_goals simp_all

theorem ldaAccess65C02_projects (mode : AddressingMode) (cycle : Nat) :
    Projects project (ldaAccess65C02 mode cycle) (ldaAccess65C02 mode cycle) := by
  have base : Projects project (ldaAccess mode cycle) (ldaAccess mode cycle) :=
    ldaAccess_projects mode cycle
  cases mode with
  | zeropageIndirect =>
      intro frame
      simp only [ldaAccess65C02]
      split <;> simp_all
  | _ => exact base

theorem loadStaticAccess_projects (mode : AddressingMode) :
    Projects project (loadStaticAccess mode) (loadStaticAccess mode) := by
  intro frame
  unfold loadStaticAccess
  repeat' split
  all_goals simp_all

theorem loadStaticAccess65C02_projects (mode : AddressingMode) :
    Projects project (loadStaticAccess65C02 mode) (loadStaticAccess65C02 mode) := by
  have base : Projects project (loadStaticAccess mode) (loadStaticAccess mode) :=
    loadStaticAccess_projects mode
  cases mode with
  | zeropageIndirect =>
      intro frame
      simp [loadStaticAccess65C02]
  | _ => exact base

theorem cmpAccess_projects (mode : AddressingMode) (cycle : Nat) :
    Projects project (cmpAccess mode cycle) (cmpAccess mode cycle) := by
  intro frame
  unfold cmpAccess readUnlessCrossed
  repeat' split
  all_goals simp_all

theorem cmpAccess65C02_projects (mode : AddressingMode) (cycle : Nat) :
    Projects project (cmpAccess65C02 mode cycle) (cmpAccess65C02 mode cycle) := by
  have base : Projects project (cmpAccess mode cycle) (cmpAccess mode cycle) :=
    cmpAccess_projects mode cycle
  cases mode with
  | zeropageIndirect =>
      intro frame
      simp only [cmpAccess65C02]
      split <;> simp_all
  | _ => exact base

theorem indexLoadAccess_projects (mode : AddressingMode) (cycle : Nat) :
    Projects project (indexLoadAccess mode cycle) (indexLoadAccess mode cycle) := by
  intro frame
  unfold indexLoadAccess readUnlessCrossed
  repeat' split
  all_goals simp_all

theorem indexLoadStaticAccess_projects (mode : AddressingMode) :
    Projects project (indexLoadStaticAccess mode) (indexLoadStaticAccess mode) := by
  intro frame
  unfold indexLoadStaticAccess
  repeat' split
  all_goals simp_all

theorem indexCompareAccess_projects (mode : AddressingMode) (cycle : Nat) :
    Projects project (indexCompareAccess mode cycle) (indexCompareAccess mode cycle) := by
  intro frame
  unfold indexCompareAccess
  repeat' split
  all_goals simp_all

theorem indexCompareStaticAccess_projects (mode : AddressingMode) :
    Projects project (indexCompareStaticAccess mode) (indexCompareStaticAccess mode) := by
  intro frame
  unfold indexCompareStaticAccess
  repeat' split
  all_goals simp_all

theorem bitAccess_projects (mode : AddressingMode) (cycle : Nat) :
    Projects project (bitAccess mode cycle) (bitAccess mode cycle) := by
  intro frame
  unfold bitAccess
  repeat' split
  all_goals simp_all

theorem bitStaticAccess_projects (mode : AddressingMode) :
    Projects project (bitStaticAccess mode) (bitStaticAccess mode) := by
  intro frame
  unfold bitStaticAccess
  repeat' split
  all_goals simp_all

theorem bitAccess65C02_projects (mode : AddressingMode) (cycle : Nat) :
    Projects project (bitAccess65C02 mode cycle) (bitAccess65C02 mode cycle) := by
  intro frame
  unfold bitAccess65C02 readUnlessCrossed
  repeat' split
  all_goals simp_all

theorem bitStaticAccess65C02_projects (mode : AddressingMode) :
    Projects project (bitStaticAccess65C02 mode) (bitStaticAccess65C02 mode) := by
  intro frame
  unfold bitStaticAccess65C02
  repeat' split
  all_goals simp_all

theorem staAccess_projects (mode : AddressingMode) (cycle : Nat) :
    Projects project (staAccess mode cycle) (staAccess mode cycle) := by
  intro frame
  unfold staAccess
  repeat' split
  all_goals simp_all

theorem staAccess65C02_projects (mode : AddressingMode) (cycle : Nat) :
    Projects project (staAccess65C02 mode cycle) (staAccess65C02 mode cycle) := by
  have base : Projects project (staAccess mode cycle) (staAccess mode cycle) :=
    staAccess_projects mode cycle
  cases mode with
  | zeropageIndirect =>
      intro frame
      simp only [staAccess65C02]
      split <;> simp_all
  | _ => exact base

theorem staStaticAccess_projects (mode : AddressingMode) :
    Projects project (staStaticAccess mode) (staStaticAccess mode) := by
  intro frame
  unfold staStaticAccess
  repeat' split
  all_goals simp_all

theorem staStaticAccess65C02_projects (mode : AddressingMode) :
    Projects project (staStaticAccess65C02 mode) (staStaticAccess65C02 mode) := by
  have base : Projects project (staStaticAccess mode) (staStaticAccess mode) :=
    staStaticAccess_projects mode
  cases mode with
  | zeropageIndirect =>
      intro frame
      simp [staStaticAccess65C02]
  | _ => exact base

theorem indexStoreAccess_projects (indexed : AddressingMode) (index : Registers → Byte)
    (mode : AddressingMode) (cycle : Nat) :
    Projects project (indexStoreAccess indexed index mode cycle)
      (indexStoreAccess indexed index mode cycle) := by
  intro frame
  unfold indexStoreAccess
  repeat' split
  all_goals simp_all

theorem indexStoreStaticAccess_projects (indexed : AddressingMode) (index : Registers → Byte)
    (mode : AddressingMode) :
    Projects project (indexStoreStaticAccess indexed index mode)
      (indexStoreStaticAccess indexed index mode) := by
  intro frame
  unfold indexStoreStaticAccess
  repeat' split
  all_goals simp_all

theorem stzAccess_projects (mode : AddressingMode) (cycle : Nat) :
    Projects project (stzAccess mode cycle) (stzAccess mode cycle) := by
  intro frame
  unfold stzAccess
  repeat' split
  all_goals simp_all

theorem stzStaticAccess_projects (mode : AddressingMode) :
    Projects project (stzStaticAccess mode) (stzStaticAccess mode) := by
  intro frame
  unfold stzStaticAccess
  repeat' split
  all_goals simp_all

theorem shiftAccess_projects (mode : AddressingMode) (cycle : Nat) :
    Projects project (shiftAccess mode cycle) (shiftAccess mode cycle) := by
  intro frame
  unfold shiftAccess
  dsimp only
  repeat' split
  all_goals simp_all

theorem shiftAccess65C02_projects (mode : AddressingMode) (cycle : Nat) :
    Projects project (shiftAccess65C02 mode cycle) (shiftAccess65C02 mode cycle) := by
  have base : Projects project (shiftAccess mode cycle) (shiftAccess mode cycle) :=
    shiftAccess_projects mode cycle
  cases mode with
  | absoluteXIndexed =>
      intro frame
      simp only [shiftAccess65C02]
      repeat' split
      all_goals simp_all
  | _ => exact base

theorem modifyStaticAccess_projects (mode : AddressingMode) :
    Projects project (modifyStaticAccess mode) (modifyStaticAccess mode) := by
  intro frame
  unfold modifyStaticAccess
  repeat' split
  all_goals simp_all

theorem shiftStaticAccess65C02_projects (mode : AddressingMode) :
    Projects project (shiftStaticAccess65C02 mode) (shiftStaticAccess65C02 mode) := by
  have base : Projects project (modifyStaticAccess mode) (modifyStaticAccess mode) :=
    modifyStaticAccess_projects mode
  cases mode with
  | absoluteXIndexed =>
      intro frame
      simp [shiftStaticAccess65C02]
  | _ => exact base

theorem adjustAccess_projects (step : Word) (mode : AddressingMode) (cycle : Nat) :
    Projects project (adjustAccess step mode cycle)
      (adjustAccess step mode cycle) := by
  intro frame
  unfold adjustAccess
  repeat' split
  all_goals simp_all

theorem testModifyStaticAccess_projects (mode : AddressingMode) :
    Projects project (testModifyStaticAccess mode) (testModifyStaticAccess mode) := by
  intro frame
  unfold testModifyStaticAccess
  repeat' split
  all_goals simp_all

theorem jmpAccess_projects (mode : AddressingMode) (cycle : Nat) :
    Projects project (jmpAccess mode cycle) (jmpAccess mode cycle) := by
  intro frame
  unfold jmpAccess
  repeat' split
  all_goals simp_all

theorem jmpAccess65C02_projects (mode : AddressingMode) (cycle : Nat) :
    Projects project (jmpAccess65C02 mode cycle) (jmpAccess65C02 mode cycle) := by
  intro frame
  unfold jmpAccess65C02
  repeat' split
  all_goals simp_all

theorem jmpStaticAccess_projects (mode : AddressingMode) :
    Projects project (jmpStaticAccess mode) (jmpStaticAccess mode) := by
  intro frame
  unfold jmpStaticAccess
  repeat' split
  all_goals simp_all

theorem jmpStaticAccess65C02_projects (mode : AddressingMode) :
    Projects project (jmpStaticAccess65C02 mode) (jmpStaticAccess65C02 mode) := by
  intro frame
  unfold jmpStaticAccess65C02
  repeat' split
  all_goals simp_all

/-! ## Tails -/

omit [Membus μ] [Membus ν] [BusProjection project] in
theorem Projects.completing {access : Handler μ} {projected : Handler ν} {cycle : Nat}
    {finish : Frame μ → Frame μ} {finishProjected : Frame ν → Frame ν}
    (projects : Projects project (access cycle) (projected cycle))
    (tail : ProjectsTail project finish finishProjected) :
    Projects project (completing access finish cycle)
      (completing projected finishProjected cycle) := by
  intro frame
  unfold System6502.completing
  rw [projects frame]
  rcases access cycle frame with ⟨after, stage⟩
  cases stage with
  | instrEnd => exact congrArg (fun frame => (frame, Stage.instrEnd)) (tail after)
  | _ => rfl

omit [Membus μ] [Membus ν] [BusProjection project] in
theorem Projects.completingStatic {access : StaticHandler μ} {projected : StaticHandler ν}
    {finish : Frame μ → Frame μ} {finishProjected : Frame ν → Frame ν}
    (projects : Projects project access projected)
    (tail : ProjectsTail project finish finishProjected) :
    Projects project (completingStatic access finish)
      (completingStatic projected finishProjected) := by
  intro frame
  unfold System6502.completingStatic
  rw [projects frame, tail]

omit [Membus μ] [Membus ν] [BusProjection project] in
theorem addToA_projects (flagBits : Byte) :
    ProjectsTail project (addToA flagBits) (addToA flagBits) := fun _ => rfl

omit [Membus μ] [Membus ν] [BusProjection project] in
theorem subtractFromA_projects (flagBits : Byte) :
    ProjectsTail project (subtractFromA flagBits) (subtractFromA flagBits) := fun _ => rfl

theorem storeAtADDR16_projects (value : Registers → Byte) :
    ProjectsTail project (storeAtADDR16 value) (storeAtADDR16 value) := by
  intro frame
  simp [storeAtADDR16]

theorem storeAdjusted_projects : ProjectsTail project storeAdjusted storeAdjusted := by
  intro frame
  simp [storeAdjusted, writeOPERAND]

omit [Membus μ] [Membus ν] [BusProjection project] in
theorem shiftAccumulator_projects (shift : Registers → Word → ShiftResult) :
    ProjectsTail project (shiftAccumulator shift) (shiftAccumulator shift) := fun _ => rfl

omit [Membus μ] [Membus ν] [BusProjection project] in
theorem shiftAccumulatorThrough_projects (shift : Registers → Word → ShiftResult) :
    ProjectsTail project (shiftAccumulatorThrough shift) (shiftAccumulatorThrough shift) :=
  fun _ => rfl

theorem shiftTail_projects (shift : Registers → Word → ShiftResult) (stage : Stage) :
    Projects project (fun frame => shiftTail shift (frame, stage))
      (fun frame => shiftTail shift (frame, stage)) := by
  intro frame
  unfold shiftTail writeOPERAND shiftOPERAND
  dsimp only
  repeat' split
  all_goals simp_all

theorem stagedShift_projects {accumulator : Frame μ → Frame μ}
    {accumulatorProjected : Frame ν → Frame ν}
    (tail : ProjectsTail project accumulator accumulatorProjected)
    {access : AddressingMode → Handler μ} {projected : AddressingMode → Handler ν}
    (shift : Registers → Word → ShiftResult) (mode : AddressingMode) (cycle : Nat)
    (projects : Projects project (access mode cycle) (projected mode cycle)) :
    Projects project (stagedShift accumulator access shift mode cycle)
      (stagedShift accumulatorProjected projected shift mode cycle) := by
  intro frame
  unfold stagedShift
  split
  case isTrue => exact congrArg Frame.done (tail (markPenultimate false frame))
  case isFalse =>
    rw [projects frame]
    exact shiftTail_projects shift _ _

theorem staticShift_projects {access : AddressingMode → StaticHandler μ}
    {projected : AddressingMode → StaticHandler ν} (shift : Registers → Word → ShiftResult)
    (mode : AddressingMode) (projects : Projects project (access mode) (projected mode)) :
    Projects project (staticShift access shift mode) (staticShift projected shift mode) := by
  intro frame
  unfold staticShift
  split
  case isTrue => rfl
  case isFalse =>
    refine projects.completingStatic (fun frame => ?_) frame
    simp [shiftOPERAND, writeOPERAND]

theorem stagedAdjust65C02_projects (step : Word) (mode : AddressingMode) (cycle : Nat) :
    Projects project (stagedAdjust65C02 step mode cycle)
      (stagedAdjust65C02 step mode cycle) := by
  intro frame
  unfold stagedAdjust65C02
  split
  case isTrue => rfl
  case isFalse =>
    exact (adjustAccess_projects step mode cycle).completing storeAdjusted_projects frame

theorem staticAdjust_projects (step : Word) (mode : AddressingMode) :
    Projects project (staticAdjust step mode) (staticAdjust step mode) :=
  (modifyStaticAccess_projects mode).completingStatic fun frame =>
    storeAdjusted_projects (adjustOPERAND step frame)

theorem staticAdjust65C02_projects (step : Word) (mode : AddressingMode) :
    Projects project (staticAdjust65C02 step mode) (staticAdjust65C02 step mode) := by
  intro frame
  unfold staticAdjust65C02
  split
  case isTrue => rfl
  case isFalse => exact staticAdjust_projects step mode frame

theorem stagedTestModify_projects (operation : Byte → Byte → Byte) (stage : Stage)
    (mode : AddressingMode) (cycle : Nat) :
    Projects project (stagedTestModify operation stage mode cycle)
      (stagedTestModify operation stage mode cycle) := by
  intro frame
  unfold stagedTestModify testAgainstA writeCombined
  repeat' split
  all_goals simp_all

theorem staticTestModify_projects (operation : Byte → Byte → Byte) (mode : AddressingMode) :
    Projects project (staticTestModify operation mode) (staticTestModify operation mode) := by
  refine (testModifyStaticAccess_projects mode).completingStatic fun frame => ?_
  simp [testAgainstA, writeCombined]

/-! ## The stack and control flow -/

theorem stagedPush_projects (value : Registers → Byte) (cycle : Nat) :
    Projects project (stagedPush value cycle) (stagedPush value cycle) := by
  intro frame
  unfold stagedPush
  split <;> simp_all

theorem stagedPull_projects (assign : Byte → Registers → Registers)
    (didSet : Registers → Registers) (cycle : Nat) :
    Projects project (stagedPull assign didSet cycle) (stagedPull assign didSet cycle) := by
  intro frame
  unfold stagedPull
  split <;> simp_all

theorem isa6502PLP_projects (cycle : Nat) :
    Projects project (isa6502PLP cycle) (isa6502PLP cycle) := by
  intro frame
  unfold isa6502PLP
  split <;> simp_all

theorem isa6502JSR_projects (cycle : Nat) :
    Projects project (isa6502JSR cycle) (isa6502JSR cycle) := by
  intro frame
  unfold isa6502JSR
  split <;> simp_all

theorem isa6502RTS_projects (cycle : Nat) :
    Projects project (isa6502RTS cycle) (isa6502RTS cycle) := by
  intro frame
  unfold isa6502RTS
  split <;> simp_all

theorem isa6502RTI_projects (cycle : Nat) :
    Projects project (isa6502RTI cycle) (isa6502RTI cycle) := by
  intro frame
  unfold isa6502RTI
  split <;> simp_all

theorem stagedBRK_projects (inhibit : Registers → Registers) (cycle : Nat) :
    Projects project (stagedBRK inhibit cycle) (stagedBRK inhibit cycle) := by
  intro frame
  unfold stagedBRK
  split <;> simp_all

theorem branchCycles_projects (cycle : Nat) :
    Projects project (branchCycles cycle) (branchCycles cycle) := by
  intro frame
  unfold branchCycles
  dsimp only
  repeat' split
  all_goals simp_all

theorem stagedBranch_projects (taken : Registers → Bool) (cycle : Nat) :
    Projects project (stagedBranch taken cycle) (stagedBranch taken cycle) := by
  intro frame
  unfold stagedBranch
  rw [registers_project]
  split
  case isTrue => exact branchCycles_projects cycle frame
  case isFalse => simp

theorem staticBranch_projects (taken : Registers → Bool) :
    Projects project (staticBranch taken) (staticBranch taken) := by
  intro frame
  have fetched : (frame.project project).fetchDELTA = frame.fetchDELTA.project project :=
    fetchInto_project frame _
  by_cases holds : taken frame.fetchDELTA.registers = true
  · have call : staticBranch taken frame =
        (frame.fetchDELTA, branchCycleCount (branchTarget frame.fetchDELTA)) := if_pos holds
    have projected : staticBranch taken (frame.project project) =
        ((frame.project project).fetchDELTA,
          branchCycleCount (branchTarget (frame.project project).fetchDELTA)) :=
      if_pos (by rw [fetched]; exact holds)
    rw [call, projected, fetched]
    rfl
  · have call : staticBranch taken frame = (frame.fetchDELTA, 1) := if_neg holds
    have projected : staticBranch taken (frame.project project) =
        ((frame.project project).fetchDELTA, 1) := if_neg (by rw [fetched]; exact holds)
    rw [call, projected, fetched]

theorem interruptCycles_projects (vector : Word) (inhibit : Registers → Registers) (cycle : Nat) :
    Projects project (interruptCycles vector inhibit cycle)
      (interruptCycles vector inhibit cycle) := by
  intro frame
  unfold interruptCycles
  split <;> simp_all

theorem stagedIRQ_projects (inhibit : Registers → Registers) (cycle : Nat) :
    Projects project (stagedIRQ inhibit cycle) (stagedIRQ inhibit cycle) := by
  intro frame
  unfold stagedIRQ
  rw [registers_project]
  split
  case isTrue => rfl
  case isFalse => exact interruptCycles_projects memoryAddrIRQVector inhibit cycle frame

/-! ## All routines -/

/-- A staged function commutes with a projection. -/
theorem Routine.staged_projects (routine : Routine) (mode : AddressingMode) (cycle : Nat) :
    Projects project (routine.staged mode cycle) (routine.staged mode cycle) := by
  cases routine with
  | AND | ORA | EOR => exact (aluAccess_projects mode cycle).completing fun _ => rfl
  | ADC | SBC => exact (arithmeticAccess_projects mode cycle).completing fun _ => rfl
  | AND65C02 | ORA65C02 | EOR65C02 =>
      exact (aluAccess65C02_projects mode cycle).completing fun _ => rfl
  | ADC65C02 | SBC65C02 => exact (decimalAccess_projects mode cycle).completing fun _ => rfl
  | LDA => exact (ldaAccess_projects mode cycle).completing fun _ => rfl
  | LDA65C02 => exact (ldaAccess65C02_projects mode cycle).completing fun _ => rfl
  | CMP => exact (cmpAccess_projects mode cycle).completing fun _ => rfl
  | CMP65C02 => exact (cmpAccess65C02_projects mode cycle).completing fun _ => rfl
  | LDX | LDY => exact (indexLoadAccess_projects mode cycle).completing fun _ => rfl
  | CPX | CPY => exact (indexCompareAccess_projects mode cycle).completing fun _ => rfl
  | BIT => exact (bitAccess_projects mode cycle).completing fun _ => rfl
  | BIT65C02 => exact (bitAccess65C02_projects mode cycle).completing fun _ => rfl
  | STA => exact (staAccess_projects mode cycle).completing (storeAtADDR16_projects _)
  | STA65C02 => exact (staAccess65C02_projects mode cycle).completing (storeAtADDR16_projects _)
  | STX | STY =>
      exact (indexStoreAccess_projects _ _ mode cycle).completing (storeAtADDR16_projects _)
  | STZ65C02 => exact (stzAccess_projects mode cycle).completing (storeAtADDR16_projects _)
  | ASL | ROL =>
      exact stagedShift_projects (shiftAccumulatorThrough_projects _) _ mode cycle
        (shiftAccess_projects mode cycle)
  | LSR | ROR =>
      exact stagedShift_projects (shiftAccumulator_projects _) _ mode cycle
        (shiftAccess_projects mode cycle)
  | ASL65C02 | ROL65C02 | ROR65C02 =>
      exact stagedShift_projects (shiftAccumulatorThrough_projects _) _ mode cycle
        (shiftAccess65C02_projects mode cycle)
  | LSR65C02 =>
      exact stagedShift_projects (shiftAccumulator_projects _) _ mode cycle
        (shiftAccess65C02_projects mode cycle)
  | INC | DEC => exact (adjustAccess_projects _ mode cycle).completing storeAdjusted_projects
  | INC65C02 | DEC65C02 => exact stagedAdjust65C02_projects _ mode cycle
  | TSB65C02 | TRB65C02 => exact stagedTestModify_projects _ _ mode cycle
  | JMP => exact (jmpAccess_projects mode cycle).completing fun _ => rfl
  | JMP65C02 => exact (jmpAccess65C02_projects mode cycle).completing fun _ => rfl
  | JSR => exact isa6502JSR_projects cycle
  | RTS => exact isa6502RTS_projects cycle
  | RTI => exact isa6502RTI_projects cycle
  | BRK | BRK65C02 => exact stagedBRK_projects _ cycle
  | PHA | PHP | PHX65C02 | PHY65C02 => exact stagedPush_projects _ cycle
  | PLA | PLX65C02 | PLY65C02 => exact stagedPull_projects _ _ cycle
  | PLP => exact isa6502PLP_projects cycle
  | BCS => exact stagedBranch_projects (fun registers => registers.getBit Registers.bitC) cycle
  | BEQ => exact stagedBranch_projects (fun registers => registers.getBit Registers.bitZ) cycle
  | BMI => exact stagedBranch_projects (fun registers => registers.getBit Registers.bitN) cycle
  | BVS => exact stagedBranch_projects (fun registers => registers.getBit Registers.bitV) cycle
  | BCC => exact stagedBranch_projects (fun registers => !registers.getBit Registers.bitC) cycle
  | BNE => exact stagedBranch_projects (fun registers => !registers.getBit Registers.bitZ) cycle
  | BPL => exact stagedBranch_projects (fun registers => !registers.getBit Registers.bitN) cycle
  | BVC => exact stagedBranch_projects (fun registers => !registers.getBit Registers.bitV) cycle
  | BRA65C02 => exact branchCycles_projects cycle
  | CLC | CLD | CLI | CLV | DEX | DEY | INX | INY | NOP | SEC | SED | SEI | TAX | TAY | TSX | TXA
  | TXS | TYA => exact fun _ => rfl

/-- So does a static-mode function. -/
theorem Routine.static_projects (routine : Routine) (mode : AddressingMode) :
    Projects project (routine.static mode) (routine.static mode) := by
  cases routine with
  | AND | ORA | EOR => exact (aluStaticAccess_projects mode).completingStatic fun _ => rfl
  | ADC =>
      intro frame
      exact (aluStaticAccess_projects mode).completingStatic (addToA_projects _) frame.latchBCD
  | SBC =>
      intro frame
      exact (aluStaticAccess_projects mode).completingStatic (subtractFromA_projects _)
        frame.latchBCD
  | AND65C02 | ORA65C02 | EOR65C02 =>
      exact (aluStaticAccess65C02_projects mode).completingStatic fun _ => rfl
  | ADC65C02 =>
      intro frame
      have alu : Projects project (aluStaticAccess65C02 mode) (aluStaticAccess65C02 mode) :=
        aluStaticAccess65C02_projects mode
      exact congrArg (fun outcome => (outcome.1, outcome.2 + decimalCycle frame.latchBCD))
        (alu.completingStatic (addToA_projects frame.locals.flagBits) frame.latchBCD)
  | SBC65C02 =>
      intro frame
      have alu : Projects project (aluStaticAccess65C02 mode) (aluStaticAccess65C02 mode) :=
        aluStaticAccess65C02_projects mode
      exact congrArg (fun outcome => (outcome.1, outcome.2 + decimalCycle frame.latchBCD))
        (alu.completingStatic (subtractFromA_projects frame.locals.flagBits) frame.latchBCD)
  | LDA | CMP => exact (loadStaticAccess_projects mode).completingStatic fun _ => rfl
  | LDA65C02 | CMP65C02 => exact (loadStaticAccess65C02_projects mode).completingStatic fun _ => rfl
  | LDX | LDY => exact (indexLoadStaticAccess_projects mode).completingStatic fun _ => rfl
  | CPX | CPY => exact (indexCompareStaticAccess_projects mode).completingStatic fun _ => rfl
  | BIT => exact (bitStaticAccess_projects mode).completingStatic fun _ => rfl
  | BIT65C02 => exact (bitStaticAccess65C02_projects mode).completingStatic fun _ => rfl
  | STA => exact (staStaticAccess_projects mode).completingStatic (storeAtADDR16_projects _)
  | STA65C02 =>
      exact (staStaticAccess65C02_projects mode).completingStatic (storeAtADDR16_projects _)
  | STX | STY =>
      exact (indexStoreStaticAccess_projects _ _ mode).completingStatic (storeAtADDR16_projects _)
  | STZ65C02 => exact (stzStaticAccess_projects mode).completingStatic (storeAtADDR16_projects _)
  | ASL | ROL | LSR | ROR => exact staticShift_projects _ mode (modifyStaticAccess_projects mode)
  | ASL65C02 | ROL65C02 | ROR65C02 | LSR65C02 =>
      exact staticShift_projects _ mode (shiftStaticAccess65C02_projects mode)
  | INC | DEC => exact staticAdjust_projects _ mode
  | INC65C02 | DEC65C02 => exact staticAdjust65C02_projects _ mode
  | TSB65C02 | TRB65C02 => exact staticTestModify_projects _ mode
  | JMP => exact (jmpStaticAccess_projects mode).completingStatic fun _ => rfl
  | JMP65C02 => exact (jmpStaticAccess65C02_projects mode).completingStatic fun _ => rfl
  | JSR =>
      intro frame
      simp [Routine.static, isa6502StaticJSR]
  | RTS =>
      intro frame
      simp [Routine.static, isa6502StaticRTS]
  | RTI =>
      intro frame
      simp [Routine.static, isa6502StaticRTI]
  | BRK | BRK65C02 =>
      intro frame
      simp [Routine.static, isa6502StaticBRK, isa65C02StaticBRK, staticBRK]
  | PHA | PHP | PHX65C02 | PHY65C02 => exact fun frame => congrArg (·, 2) (push_project frame _)
  | PLA | PLX65C02 | PLY65C02 =>
      intro frame
      simp [Routine.static, isa6502StaticPLA, isa65C02StaticPLX, isa65C02StaticPLY, staticPull]
  | PLP =>
      intro frame
      simp [Routine.static, isa6502StaticPLP]
  | BCS => exact staticBranch_projects fun registers => registers.getBit Registers.bitC
  | BEQ => exact staticBranch_projects fun registers => registers.getBit Registers.bitZ
  | BMI => exact staticBranch_projects fun registers => registers.getBit Registers.bitN
  | BVS => exact staticBranch_projects fun registers => registers.getBit Registers.bitV
  | BCC => exact staticBranch_projects fun registers => !registers.getBit Registers.bitC
  | BNE => exact staticBranch_projects fun registers => !registers.getBit Registers.bitZ
  | BPL => exact staticBranch_projects fun registers => !registers.getBit Registers.bitN
  | BVC => exact staticBranch_projects fun registers => !registers.getBit Registers.bitV
  | BRA65C02 => exact staticBranch_projects fun _ => true
  | CLC | CLD | CLI | CLV | DEX | DEY | INX | INY | NOP | SEC | SED | SEI | TAX | TAY | TSX | TXA
  | TXS | TYA => exact fun _ => rfl

/-- So does an interrupt sequence. -/
theorem Interrupt.staged_projects (interrupt : Interrupt) (cycle : Nat) :
    Projects project (interrupt.staged cycle) (interrupt.staged cycle) := by
  cases interrupt with
  | IRQ | IRQ65C02 => exact stagedIRQ_projects _ cycle
  | NMI | NMI65C02 => exact interruptCycles_projects _ _ cycle

omit [Membus μ] [Membus ν] [BusProjection project] in
/-- Successive calls commute with a projection. -/
theorem runCalls_project {handler : Handler μ} {projected : Handler ν}
    (projects : ∀ cycle, Projects project (handler cycle) (projected cycle))
    (fuel cycle : Nat) (frame : Frame μ) :
    runCalls projected fuel cycle (frame.project project) =
      (runCalls handler fuel cycle frame).map fun outcome =>
        (outcome.1, outcome.2.project project) := by
  induction fuel generalizing cycle frame with
  | zero => rfl
  | succ fuel ih =>
      rw [runCalls, runCalls, projects cycle frame]
      rcases handler cycle frame with ⟨after, stage⟩
      cases stage with
      | instrEnd => rfl
      | _ => exact ih (cycle + 1) after

end Projection

end System6502
