import System6502.Executor.Entry
import System6502.Isa.StackPointer

/-!
# Stack discipline

Runs whose pushes and pulls are well nested: every pull finds what its push has left.
-/

namespace System6502

open Lib System6502.Frame

variable {μ : Type*} [PageOneRam μ]

/-! ## What a push leaves to be pulled -/

/-- What waits on the stack for the operation that matches its push. -/
inductive Pending
  /-- The accumulator that `PHA` pushed. -/
  | accumulator (A : Byte)
  /-- The X-index that `PHX` pushed. -/
  | indexX (X : Byte)
  /-- The Y-index that `PHY` pushed. -/
  | indexY (Y : Byte)
  /-- The status register that `PHP` pushed. -/
  | status (SR : Byte)
  /-- The address after a `JSR`. -/
  | subroutine (PC : Word)
  /-- The address two bytes past a `BRK` and the status register. -/
  | brk (PC : Word) (SR : Byte)
  /-- The interrupted program counter and status register. -/
  | interrupt (PC : Word) (SR : Byte)

namespace Pending

/-- The bytes on the stack, the one to be pulled first in front. -/
def bytes : Pending → List Byte
  | accumulator A => [A]
  | indexX X => [X]
  | indexY Y => [Y]
  | status SR => [SR ||| Registers.bitB ||| Registers.bitIGN]
  | subroutine PC => [PC.low, PC.high]
  | brk PC SR => [SR ||| Registers.bitB, PC.low, PC.high]
  | interrupt PC SR => [SR, PC.low, PC.high]

/-- The instruction that matches the push. -/
def pull : Pending → Routine
  | accumulator _ => .PLA
  | indexX _ => .PLX65C02
  | indexY _ => .PLY65C02
  | status _ => .PLP
  | subroutine _ => .RTS
  | brk _ _ | interrupt _ _ => .RTI

/-- The registers after the matching pull hold what the push has left. -/
def Restored (registers : Registers) : Pending → Prop
  | accumulator A => registers.A = A
  | indexX X => registers.X = X
  | indexY Y => registers.Y = Y
  | status SR => registers.SR = pulledStatus SR
  | subroutine PC => registers.PC = PC
  | brk PC SR | interrupt PC SR => registers.PC = PC ∧ registers.SR = pulledStatus SR

end Pending

/-- What an instruction pushes, from the registers before its fetch. -/
def Routine.pushes (registers : Registers) : Routine → Option Pending
  | .PHA => some (.accumulator registers.A)
  | .PHX65C02 => some (.indexX registers.X)
  | .PHY65C02 => some (.indexY registers.Y)
  | .PHP => some (.status registers.SR)
  | .JSR => some (.subroutine (registers.PC + 3))
  | .BRK | .BRK65C02 => some (.brk (registers.PC + 2) registers.SR)
  | _ => none

/-- The bytes of everything that waits on the stack, the top in front. -/
def stackBytes (pending : List Pending) : List Byte := pending.flatMap Pending.bytes

@[simp]
theorem stackBytes_cons (record : Pending) (pending : List Pending) :
    stackBytes (record :: pending) = record.bytes ++ stackBytes pending := rfl

/-! ## Runs of instructions -/

namespace Core

/-- The content of the stack cells. -/
def cells (core : Core μ) : Byte → Byte := PageOneRam.cell core.memory

/-- An instruction is executed from its fetch to its end, whatever its function had retained. -/
def Performs (dialect : Dialect) (before : Core μ) (routine : Routine) (after : Core μ) : Prop :=
  ∃ mode locals calls frame,
    dialect.lookup before.opcode = Dispatch.slot routine mode ∧
      dialect.execute before.opcode (before.fetched locals) = some (calls, frame) ∧
      after = frame.core

/-- An NMI is entered, whatever its function had retained. -/
def EntersNMI (dialect : Dialect) (before after : Core μ) : Prop :=
  ∃ locals calls frame,
    runCalls dialect.nmi.staged 6 1
        { memory := before.memory, registers := before.registers, locals } =
      some (calls, frame) ∧
      after = frame.core

end Core

/-- Runs from a start whose stack operations are a prefix of a well-nested word of at most 256
bytes, with what waits on the stack at their end.  Other instructions and other parties leave
the live stack cells as they are. -/
inductive WellNested (dialect : Dialect) (start : Core μ) : Core μ → List Pending → Prop
  /-- The empty run. -/
  | start : WellNested dialect start start []
  /-- A push. -/
  | push {before after : Core μ} {pending : List Pending} {routine : Routine} {record : Pending}
      (nested : WellNested dialect start before pending)
      (performs : before.Performs dialect routine after)
      (pushes : routine.pushes before.registers = some record)
      (room : (stackBytes (record :: pending)).length ≤ 256) :
      WellNested dialect start after (record :: pending)
  /-- The entry of an NMI. -/
  | enter {before after : Core μ} {pending : List Pending}
      (nested : WellNested dialect start before pending)
      (enters : before.EntersNMI dialect after)
      (room : (stackBytes (.interrupt before.registers.PC before.registers.SR ::
        pending)).length ≤ 256) :
      WellNested dialect start after
        (.interrupt before.registers.PC before.registers.SR :: pending)
  /-- A pull that matches the last push. -/
  | pull {before after : Core μ} {pending : List Pending} {record : Pending}
      (nested : WellNested dialect start before (record :: pending))
      (performs : before.Performs dialect record.pull after) :
      WellNested dialect start after pending
  /-- Any other instruction. -/
  | other {before after : Core μ} {pending : List Pending} {routine : Routine}
      (nested : WellNested dialect start before pending)
      (performs : before.Performs dialect routine after)
      (neutral : routine.touchesStack = false)
      (spares : ∀ cell, RingStack.Live before.registers.SP (stackBytes pending).length cell →
        after.cells cell = before.cells cell) :
      WellNested dialect start after pending
  /-- A change of memory by another party. -/
  | foreign {before after : Core μ} {pending : List Pending}
      (nested : WellNested dialect start before pending)
      (registers_eq : after.registers = before.registers)
      (spares : ∀ cell, RingStack.Live before.registers.SP (stackBytes pending).length cell →
        after.cells cell = before.cells cell) :
      WellNested dialect start after pending

/-! ## Single instructions -/

theorem pulledStatus_pushed (SR : Byte) :
    pulledStatus (SR ||| Registers.bitB ||| Registers.bitIGN) = pulledStatus SR := by
  revert SR
  decide +kernel

theorem pulledStatus_broken (SR : Byte) :
    pulledStatus (SR ||| Registers.bitB) = pulledStatus SR := by
  revert SR
  decide +kernel

theorem Frame.holds_push {frame : Frame μ} {values : List Byte}
    (holds : RingStack.Holds frame.cells frame.registers.SP values) (room : values.length < 256)
    (value : Byte) :
    RingStack.Holds (frame.push value).cells (frame.push value).registers.SP
      (value :: values) := by
  rw [cells_push]
  exact holds.push spacious_byte room value

namespace Core

theorem cells_fetched (core : Core μ) (locals : Locals) :
    (core.fetched locals).cells = core.cells :=
  funext fun which => PageOneRam.cell_readAddr core.memory core.registers.PC which

/-- An executed instruction performs its straight-line program in one of its modes. -/
theorem Performs.straight {dialect : Dialect} {before after : Core μ} {routine : Routine}
    (performs : before.Performs dialect routine after) :
    ∃ mode locals, after = (routine.straight mode (before.fetched locals)).1.core := by
  obtain ⟨mode, locals, calls, frame, decoded, executed, rfl⟩ := performs
  have formed := dialect.lookup_wellFormed before.opcode
  rw [decoded] at formed
  obtain ⟨-, assigned, -⟩ : Dispatch.slot routine mode = _ ∧ mode ∈ routine.modes ∧ _ := formed
  by_cases endless : mode ∈ routine.endlessModes
  · rw [Dialect.execute, decoded] at executed
    have never := routine.runCalls_of_endless endless 7 1 (before.fetched locals)
    exact absurd (never.symm.trans executed) (by simp)
  · rw [dialect.execute_of_slot decoded assigned endless] at executed
    obtain ⟨-, rfl⟩ := Prod.mk.inj (Option.some.inj executed)
    exact ⟨mode, locals, rfl⟩

/-- A push puts its bytes on the stack. -/
theorem Performs.holds_push {dialect : Dialect} {before after : Core μ} {routine : Routine}
    {record : Pending} {values : List Byte} (performs : before.Performs dialect routine after)
    (pushes : routine.pushes before.registers = some record)
    (holds : RingStack.Holds before.cells before.registers.SP values)
    (room : record.bytes.length + values.length ≤ 256) :
    RingStack.Holds after.cells after.registers.SP (record.bytes ++ values) ∧
      after.registers.SP = before.registers.SP - BitVec.ofNat 8 record.bytes.length := by
  obtain ⟨mode, locals, rfl⟩ := performs.straight
  rw [← cells_fetched before locals] at holds
  cases routine with
  | PHA | PHX65C02 | PHY65C02 | PHP =>
      obtain rfl := Option.some.inj pushes
      simp only [Pending.bytes, List.length_singleton] at room
      refine ⟨?_, rfl⟩
      exact Frame.holds_push holds (by omega) _
  | JSR =>
      obtain rfl := Option.some.inj pushes
      simp only [Pending.bytes, List.length_cons, List.length_nil] at room
      let operand := (before.fetched locals).fetchLow.fetchHigh
      have PC_eq : operand.registers.PC = before.registers.PC + 3 := by
        change before.registers.PC + 1 + 1 + 1 = _
        bv_omega
      have cells_eq : operand.cells = (before.fetched locals).cells := by
        simp only [operand, fetchLow, fetchHigh, cells_fetchInto]
      rw [← cells_eq] at holds
      have one := Frame.holds_push holds (by omega) operand.registers.PC.high
      have two := Frame.holds_push one (by simp only [List.length_cons]; omega)
        operand.registers.PC.low
      rw [← PC_eq]
      refine ⟨two, ?_⟩
      change before.registers.SP - 1 - 1 = before.registers.SP - BitVec.ofNat 8 2
      bv_omega
  | BRK | BRK65C02 =>
      obtain rfl := Option.some.inj pushes
      simp only [Pending.bytes, List.length_cons, List.length_nil] at room
      let dummy := fetchDummy (before.fetched locals)
      have PC_eq : dummy.registers.PC = before.registers.PC + 2 := by
        change before.registers.PC + 1 + 1 = _
        bv_omega
      have cells_eq : dummy.cells = (before.fetched locals).cells := by
        simp only [dummy, fetchDummy, cells_fetchInto]
      rw [← cells_eq] at holds
      have one := Frame.holds_push holds (by omega) dummy.registers.PC.high
      have two := Frame.holds_push one (by simp only [List.length_cons]; omega)
        dummy.registers.PC.low
      have three := Frame.holds_push two (by simp only [List.length_cons]; omega)
        (before.registers.SR ||| Registers.bitB)
      rw [← PC_eq]
      refine ⟨three.congr fun cell _ => ?_, ?_⟩
      · exact (PageOneRam.cell_readAddr _ _ cell).trans (PageOneRam.cell_readAddr _ _ cell)
      · change before.registers.SP - 1 - 1 - 1 = before.registers.SP - BitVec.ofNat 8 3
        bv_omega
  | _ => cases pushes

/-- A pull that matches the top of the stack restores what was pushed and takes it off. -/
theorem Performs.restores {dialect : Dialect} {before after : Core μ} {record : Pending}
    {values : List Byte} (performs : before.Performs dialect record.pull after)
    (holds : RingStack.Holds before.cells before.registers.SP (record.bytes ++ values)) :
    Pending.Restored after.registers record ∧
      RingStack.Holds after.cells after.registers.SP values ∧
      after.registers.SP = before.registers.SP + BitVec.ofNat 8 record.bytes.length := by
  obtain ⟨mode, locals, rfl⟩ := performs.straight
  rw [← cells_fetched before locals] at holds
  change RingStack.Holds _ (before.fetched locals).registers.SP _ at holds
  cases record with
  | accumulator A | indexX X | indexY Y =>
      obtain ⟨value_eq, rest⟩ := holds
      have latch_eq := locals_popInto (before.fetched locals)
        fun value locals => { locals with latch := value }
      refine ⟨?_, ?_, rfl⟩
      · exact (congrArg Locals.latch latch_eq).trans value_eq
      · exact rest.congr fun cell _ => PageOneRam.cell_readAddr _ _ cell
  | status SR =>
      obtain ⟨value_eq, rest⟩ := holds
      have latch_eq := locals_popInto (before.fetched locals)
        fun value locals => { locals with latch := value }
      refine ⟨?_, ?_, rfl⟩
      · refine (congrArg pulledStatus ((congrArg Locals.latch latch_eq).trans value_eq)).trans ?_
        exact pulledStatus_pushed SR
      · exact rest.congr fun cell _ => PageOneRam.cell_readAddr _ _ cell
  | subroutine PC =>
      obtain ⟨low_eq, high_eq, rest⟩ := holds
      have registers_eq := registers_isa6502StaticRTS (before.fetched locals)
      have cells_eq := cells_isa6502StaticRTS (before.fetched locals)
      rw [low_eq, high_eq, Word.littleEndian_low_high] at registers_eq
      refine ⟨congrArg Registers.PC registers_eq, ?_, ?_⟩
      · exact rest.congr fun cell _ => congrFun cells_eq cell
      exact (congrArg Registers.SP registers_eq).trans (add_assoc _ _ _)
  | brk PC SR | interrupt PC SR =>
      obtain ⟨status_eq, low_eq, high_eq, rest⟩ := holds
      have registers_eq := registers_isa6502StaticRTI (before.fetched locals)
      have cells_eq := cells_isa6502StaticRTI (before.fetched locals)
      rw [status_eq, low_eq, high_eq, Word.littleEndian_low_high] at registers_eq
      refine ⟨⟨congrArg Registers.PC registers_eq, ?_⟩,
        rest.congr fun cell _ => congrFun cells_eq cell, ?_⟩
      · refine (congrArg Registers.SR registers_eq).trans ?_
        first | exact pulledStatus_broken SR | rfl
      · exact (congrArg Registers.SP registers_eq).trans
          ((add_assoc _ _ _).trans (add_assoc _ _ _))

/-- The entry of an NMI puts the program counter and the status register on the stack. -/
theorem EntersNMI.holds_push {dialect : Dialect} {before after : Core μ} {values : List Byte}
    (enters : before.EntersNMI dialect after)
    (holds : RingStack.Holds before.cells before.registers.SP values)
    (room : 3 + values.length ≤ 256) :
    RingStack.Holds after.cells after.registers.SP
        (before.registers.SR :: before.registers.PC.low :: before.registers.PC.high :: values) ∧
      after.registers.SP = before.registers.SP - BitVec.ofNat 8 3 := by
  obtain ⟨locals, calls, frame, entered_eq, rfl⟩ := enters
  rw [Dialect.nmi_staged, runCalls_interruptCycles _ _ 1] at entered_eq
  obtain ⟨-, rfl⟩ := Prod.mk.inj (Option.some.inj entered_eq)
  let frame : Frame μ := { memory := before.memory, registers := before.registers, locals }
  have start : RingStack.Holds frame.cells frame.registers.SP values := holds
  have one := Frame.holds_push start (by omega) before.registers.PC.high
  have two := Frame.holds_push one (by simp only [List.length_cons]; omega)
    before.registers.PC.low
  have three := Frame.holds_push two (by simp only [List.length_cons]; omega)
    before.registers.SR
  have SP_eq : (entered memoryAddrNMIVector dialect.inhibit frame).core.registers.SP =
      before.registers.SP - 1 - 1 - 1 := dialect.inhibit_SP _
  refine ⟨?_, ?_⟩
  · rw [SP_eq]
    refine RingStack.Holds.congr three fun cell _ => ?_
    exact (PageOneRam.cell_readAddr _ _ cell).trans (PageOneRam.cell_readAddr _ _ cell)
  · rw [SP_eq]
    bv_omega

theorem Performs.keepsSP {dialect : Dialect} {before after : Core μ} {routine : Routine}
    (performs : before.Performs dialect routine after) (neutral : routine.touchesStack = false) :
    after.registers.SP = before.registers.SP := by
  obtain ⟨mode, locals, rfl⟩ := performs.straight
  exact routine.straight_keepsSP neutral mode (before.fetched locals)

end Core

/-! ## The loop -/

namespace Run

/-- An instruction that the staged loop takes to the next boundary is performed. -/
theorem performs_of_executes {routine : Routine} {mode : AddressingMode} {start final : Run μ}
    (fetching : start.Fetching) (undisturbed : start.Undisturbed)
    (decoded : start.executor.dialect.lookup start.nextOpcode = Dispatch.slot routine mode)
    (defined : mode ≠ .undefined) (executes : Executes .staged start final) :
    start.executor.core.Performs start.executor.dialect routine final.executor.core := by
  obtain ⟨fuel, calls, ended, -⟩ :=
    executes_staged fetching undisturbed decoded defined executes
  have formed := start.executor.dialect.lookup_wellFormed start.nextOpcode
  rw [decoded] at formed
  obtain ⟨-, assigned, -⟩ : Dispatch.slot routine mode = _ ∧ mode ∈ routine.modes ∧ _ := formed
  have ends : mode ∉ routine.endlessModes := fun endless =>
    not_executes_of_endless fetching undisturbed decoded defined endless final executes
  refine ⟨mode, start.executor.statics routine, calls, final.retained routine, decoded, ?_, rfl⟩
  have performed := routine.staged_performs assigned ends
    (start.fetched (start.executor.statics routine))
  rw [runCalls_unique ended performed]
  exact Dialect.execute_of_slot decoded assigned ends _

/-- A boundary at which only an NMI waits enters it. -/
theorem entersNMI_of_boundary {run : Run μ} (here : run.location = .boundary) (input : Input)
    (noIRQ : (run.executor.requests input.requests).flags.irq = false)
    (pending : (run.executor.requests input.requests).flags.nmi = true) :
    run.executor.core.EntersNMI run.executor.dialect
      (run.step .staged input).1.executor.core := by
  let admitted := run.onExecutor fun executor => executor.requests input.requests
  have dialect_eq : admitted.executor.dialect = run.executor.dialect :=
    Executor.requests_dialect run.executor input.requests
  have core_eq : admitted.executor.core = run.executor.core :=
    Executor.requests_core run.executor input.requests
  have skipped : admitted.serviceIRQ = (admitted, []) := by
    rw [serviceIRQ, if_neg]
    simp [admitted, onExecutor, noIRQ]
  have served : admitted.serviceNMI = _ := serviceNMI_of_pending pending
  have step_eq : (run.step .staged input).1 =
      admitted.serviceNMI.1.clearInterrupts.goto .fetch := by
    simp only [step, here, boundaryStep]
    rw [show run.onExecutor _ = admitted from rfl, skipped, if_neg]
    rw [served]
    exact fun hung => Location.noConfusion (here.symm.trans hung)
  rw [step_eq, served, ← dialect_eq, ← core_eq]
  refine ⟨admitted.executor.interruptStatics admitted.executor.dialect.nmi, 5, _, ?_, rfl⟩
  rw [Dialect.nmi_staged]
  exact runCalls_interruptCycles _ _ 1 _

end Run

/-! ## Runs -/

/-- Along a well-nested run the cells above the stack pointer hold what waits, and the stack
pointer is as far below its start as what waits is long. -/
theorem WellNested.invariant {dialect : Dialect} {start current : Core μ} {pending : List Pending}
    (nested : WellNested dialect start current pending) :
    RingStack.Holds current.cells current.registers.SP (stackBytes pending) ∧
      current.registers.SP =
        start.registers.SP - BitVec.ofNat 8 (stackBytes pending).length := by
  induction nested with
  | start => exact ⟨trivial, by simp [stackBytes]⟩
  | @push before after pending routine record nested performs pushes room ih =>
      rw [stackBytes_cons, List.length_append] at room ⊢
      obtain ⟨holds, SP_eq⟩ := performs.holds_push pushes ih.1 room
      refine ⟨holds, ?_⟩
      rw [SP_eq, ih.2, BitVec.ofNat_add, sub_sub, add_comm]
  | @enter before after pending nested enters room ih =>
      rw [stackBytes_cons, List.length_append] at room ⊢
      obtain ⟨holds, SP_eq⟩ := enters.holds_push ih.1 room
      refine ⟨holds, ?_⟩
      rw [SP_eq, ih.2, BitVec.ofNat_add, sub_sub, add_comm]
      rfl
  | @pull before after pending record nested performs ih =>
      rw [stackBytes_cons, List.length_append] at ih
      obtain ⟨-, holds, SP_eq⟩ := performs.restores ih.1
      refine ⟨holds, ?_⟩
      rw [SP_eq, ih.2, BitVec.ofNat_add, ← sub_sub, sub_right_comm, sub_add_cancel]
  | other nested performs neutral spares ih =>
      rw [performs.keepsSP neutral]
      exact ⟨ih.1.congr spares, ih.2⟩
  | foreign nested registers_eq spares ih =>
      rw [registers_eq]
      exact ⟨ih.1.congr spares, ih.2⟩

/-- The stack discipline is sound: in a well-nested run every pull restores what its matching push
has left, and at the end of a well-nested word the stack pointer is back at its start. -/
theorem wellNested_sound (dialect : Dialect) (start : Core μ) :
    (∀ current after pending record, WellNested dialect start current (record :: pending) →
        current.Performs dialect record.pull after → Pending.Restored after.registers record) ∧
      ∀ final, WellNested dialect start final [] → final.registers.SP = start.registers.SP := by
  refine ⟨fun current after pending record nested performs => ?_, fun final nested => ?_⟩
  · exact (performs.restores nested.invariant.1).1
  · have SP_eq := nested.invariant.2
    simpa [stackBytes] using SP_eq

/-! ## A run -/

/-- An opcode with a function that ends performs its straight-line program. -/
theorem Core.performs_of_lookup {dialect : Dialect} {before : Core μ} {routine : Routine}
    {mode : AddressingMode} (decoded : dialect.lookup before.opcode = Dispatch.slot routine mode)
    (assigned : mode ∈ routine.modes) (ends : mode ∉ routine.endlessModes) :
    before.Performs dialect routine
      (routine.straight mode (before.fetched Locals.zero)).1.core :=
  ⟨mode, Locals.zero, _, _, decoded, Dialect.execute_of_slot decoded assigned ends _, rfl⟩

/-- `JSR $0300` at `$0200`, and there a subroutine that keeps the accumulator on the stack. -/
def callAndKeep : Core Ram where
  memory := fun address =>
    if address = 0x0200 then 0x20 else if address = 0x0201 then 0x00
    else if address = 0x0202 then 0x03 else if address = 0x0300 then 0x48
    else if address = 0x0301 then 0x8A else if address = 0x0302 then 0x68 else 0x60
  registers := { Registers.reset with A := 0x42, X := 0x07, PC := 0x0200 }

/-- A `PHA` and its `PLA` inside a `JSR` and its `RTS`, with a `TXA` between them, across the wrap
of the stack pointer. -/
theorem wellNested_sound_callAndKeep :
    ∃ kept pulled returned : Core Ram,
      WellNested .base callAndKeep kept [.accumulator 0x42, .subroutine 0x0203] ∧
        kept.registers.A = 0x07 ∧ kept.registers.SP = callAndKeep.registers.SP - 3 ∧
        WellNested .base callAndKeep pulled [.subroutine 0x0203] ∧
        pulled.registers.A = 0x42 ∧
        WellNested .base callAndKeep returned [] ∧ returned.registers.PC = 0x0203 ∧
        returned.registers.SP = callAndKeep.registers.SP := by
  let called := (Routine.JSR.straight .absolute (callAndKeep.fetched Locals.zero)).1.core
  let pushed := (Routine.PHA.straight .implied (called.fetched Locals.zero)).1.core
  let kept := (Routine.TXA.straight .implied (pushed.fetched Locals.zero)).1.core
  let pulled := (Routine.PLA.straight .implied (kept.fetched Locals.zero)).1.core
  let returned := (Routine.RTS.straight .implied (pulled.fetched Locals.zero)).1.core
  have calls : callAndKeep.Performs .base .JSR called :=
    Core.performs_of_lookup (by decide) (by decide) (by decide)
  have pushes : called.Performs .base .PHA pushed :=
    Core.performs_of_lookup (by decide) (by decide) (by decide)
  have changes : pushed.Performs .base .TXA kept :=
    Core.performs_of_lookup (by decide) (by decide) (by decide)
  have pulls : kept.Performs .base .PLA pulled :=
    Core.performs_of_lookup (by decide) (by decide) (by decide)
  have returns : pulled.Performs .base .RTS returned :=
    Core.performs_of_lookup (by decide) (by decide) (by decide)
  have nested : WellNested .base callAndKeep kept [.accumulator 0x42, .subroutine 0x0203] :=
    ((WellNested.start.push calls rfl (by decide)).push pushes rfl (by decide)).other changes rfl
      fun _ _ => rfl
  have inner : WellNested .base callAndKeep pulled [.subroutine 0x0203] := nested.pull pulls
  have closed : WellNested .base callAndKeep returned [] := inner.pull returns
  obtain ⟨restored, balanced⟩ := wellNested_sound .base callAndKeep
  exact ⟨kept, pulled, returned, nested, rfl, nested.invariant.2, inner,
    restored _ _ _ _ nested pulls, closed, restored _ _ _ _ inner returns, balanced returned closed⟩

end System6502
