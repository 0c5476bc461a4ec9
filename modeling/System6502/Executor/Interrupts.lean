import System6502.Executor.Instruction
import System6502.Isa.Stack

/-!
# Interrupt requests

Which requests a staged launch serves before it drops them, and where the entry sequences lead.
-/

namespace System6502

open Lib System6502.Frame

variable {μ : Type*}

/-! ## Entry sequences -/

namespace Dialect

/-- The status change of a dialect's interrupt sequences. -/
def inhibit : Dialect → Registers → Registers
  | base => System6502.inhibit
  | cmos => inhibit65C02

@[simp]
theorem inhibit_bitI (dialect : Dialect) (registers : Registers) :
    (dialect.inhibit registers).getBit Registers.bitI = true := by
  cases dialect with
  | base =>
      have set : ∀ SR : Byte, ((SR ||| 0x04) &&& 0x04 != 0) = true := by decide +kernel
      exact set registers.SR
  | cmos =>
      have set : ∀ SR : Byte, ((SR ||| 0x04) &&& ~~~0x08 &&& 0x04 != 0) = true := by
        decide +kernel
      exact set registers.SR

@[simp]
theorem inhibit_PC (dialect : Dialect) (registers : Registers) :
    (dialect.inhibit registers).PC = registers.PC := by
  cases dialect <;> rfl

@[simp]
theorem inhibit_SP (dialect : Dialect) (registers : Registers) :
    (dialect.inhibit registers).SP = registers.SP := by
  cases dialect <;> rfl

variable [Membus μ]

theorem irq_staged (dialect : Dialect) :
    dialect.irq.staged (μ := μ) = stagedIRQ dialect.inhibit := by
  cases dialect <;> rfl

theorem nmi_staged (dialect : Dialect) :
    dialect.nmi.staged (μ := μ) = interruptCycles memoryAddrNMIVector dialect.inhibit := by
  cases dialect <;> rfl

end Dialect

section Sequences

variable [Membus μ]

/-- The first three calls of an interrupt sequence. -/
def stacked (inhibit : Registers → Registers) (frame : Frame μ) : Frame μ :=
  (pushStatus frame.pushPCHigh.pushPCLow).onRegisters inhibit

/-- A complete interrupt sequence. -/
def entered (vector : Word) (inhibit : Registers → Registers) (frame : Frame μ) : Frame μ :=
  loadPC (vectorHigh vector (vectorLow vector (stacked inhibit frame)))

/-- Without a test of the I bit the sequence takes five calls. -/
theorem runCalls_interruptCycles (vector : Word) (inhibit : Registers → Registers) (fuel : Nat)
    (frame : Frame μ) :
    runCalls (interruptCycles vector inhibit) (fuel + 5) 1 frame =
      some (5, entered vector inhibit frame) := rfl

/-- The IRQ sequence ends in its fourth call, which finds the I bit the third has set. -/
theorem runCalls_stagedIRQ (inhibit : Registers → Registers)
    (inhibits : ∀ registers, (inhibit registers).getBit Registers.bitI = true) (fuel : Nat)
    (frame : Frame μ) (clear : frame.registers.getBit Registers.bitI = false) :
    runCalls (stagedIRQ inhibit) (fuel + 4) 1 frame = some (4, stacked inhibit frame) := by
  have unset : ¬ frame.registers.getBit Registers.bitI = true := by
    rw [clear]
    exact Bool.false_ne_true
  have first : stagedIRQ inhibit 1 frame = frame.pushPCHigh.next := if_neg unset
  have second : stagedIRQ inhibit 2 frame.pushPCHigh = frame.pushPCHigh.pushPCLow.next :=
    if_neg unset
  have third : stagedIRQ inhibit 3 frame.pushPCHigh.pushPCLow = (stacked inhibit frame).next :=
    if_neg unset
  have fourth : stagedIRQ inhibit 4 (stacked inhibit frame) = (stacked inhibit frame).done :=
    if_pos (inhibits _)
  rw [runCalls_next first, runCalls_next second, runCalls_next third, runCalls_done fourth]

end Sequences

/-! ## Requests -/

namespace Executor

/-- What no single request changes, no list of requests changes. -/
theorem requests_view {view : Type*} (look : Executor μ → view)
    (kept : ∀ executor request, look (Executor.request executor request) = look executor)
    (executor : Executor μ) (pending : List Request) :
    look (executor.requests pending) = look executor := by
  induction pending generalizing executor with
  | nil => rfl
  | cons first rest ih => exact (ih (executor.request first)).trans (kept executor first)

@[simp]
theorem requests_dialect (executor : Executor μ) (pending : List Request) :
    (executor.requests pending).dialect = executor.dialect := by
  refine requests_view Executor.dialect (fun executor request => ?_) executor pending
  cases request with
  | setIRQ | setNMI | setExecStop => rfl
  | setDMACopyin | setDMACopyout =>
      unfold Executor.request
      dsimp only
      split <;> rfl

@[simp]
theorem requests_core (executor : Executor μ) (pending : List Request) :
    (executor.requests pending).core = executor.core := by
  refine requests_view Executor.core (fun executor request => ?_) executor pending
  cases request with
  | setIRQ | setNMI | setExecStop => rfl
  | setDMACopyin | setDMACopyout =>
      unfold Executor.request
      dsimp only
      split <;> rfl

end Executor

namespace Run

/-- The flags of the two interrupt requests. -/
def requestFlags (run : Run μ) : Bool × Bool := (run.executor.flags.irq, run.executor.flags.nmi)

@[simp]
theorem requestFlags_goto (run : Run μ) (location : Location) :
    (run.goto location).requestFlags = run.requestFlags := rfl

@[simp]
theorem requestFlags_onLoop (run : Run μ) (change : Loop → Loop) :
    (run.onLoop change).requestFlags = run.requestFlags := rfl

@[simp]
theorem requestFlags_leave (run : Run μ) : run.leave.requestFlags = run.requestFlags := rfl

@[simp]
theorem requestFlags_endDMA (run : Run μ) : run.endDMA.requestFlags = run.requestFlags := rfl

@[simp]
theorem requestFlags_beginDMA (run : Run μ) : run.beginDMA.requestFlags = run.requestFlags := rfl

@[simp]
theorem requestFlags_tick (run : Run μ) : run.tick.requestFlags = run.requestFlags := rfl

@[simp]
theorem requestFlags_advanceRange (run : Run μ) :
    run.advanceRange.requestFlags = run.requestFlags := rfl

@[simp]
theorem requestFlags_advanceIndex (run : Run μ) :
    run.advanceIndex.requestFlags = run.requestFlags := rfl

@[simp]
theorem requestFlags_endDMAAtRangeEnd (run : Run μ) :
    run.endDMAAtRangeEnd.requestFlags = run.requestFlags := by
  unfold endDMAAtRangeEnd
  split <;> rfl

@[simp]
theorem requestFlags_afterCycle (mode : ExecMode) (run : Run μ) :
    (run.afterCycle mode).requestFlags = run.requestFlags := by
  unfold afterCycle
  split
  · rfl
  · split
    · split <;> rfl
    · rfl

variable [Membus μ]

theorem requestFlags_dmaCycle (input : Input) (run : Run μ) :
    (run.dmaCycle input).1.requestFlags = run.requestFlags := by
  unfold dmaCycle dmaWrite dmaRead
  split
  · split <;> split
    · split
      · rfl
      · dsimp only
        split <;> simp
    · simp
      rfl
    · rfl
    · split
      · rfl
      · dsimp only
        split <;> simp
  · simp

theorem requestFlags_fetchStep (input : Input) (run : Run μ) :
    (run.fetchStep input).1.requestFlags = run.requestFlags := by
  unfold fetchStep
  dsimp only
  split
  · split <;> rfl
  · rfl

theorem requestFlags_stagedCall (run : Run μ) :
    run.stagedCall.1.requestFlags = run.requestFlags := by
  unfold stagedCall
  split <;> rfl

/-- The points at which a step of the staged loop lets other threads in. -/
def ReleasesLock (run : Run μ) : Prop :=
  run.location = .boundary ∨ run.location = .cycle ∧ run.loop.isInDMA = false

instance (run : Run μ) : Decidable run.ReleasesLock :=
  inferInstanceAs (Decidable (_ ∨ _ ∧ _))

/-- The executor after the requests that obtain the lock in a step. -/
def admitted (run : Run μ) (input : Input) : Executor μ :=
  if run.ReleasesLock then run.executor.requests input.requests else run.executor

/-- Between two boundaries a request flag is only raised. -/
theorem requestFlags_step {run : Run μ} (inside : run.location ≠ .boundary) (input : Input) :
    (run.step .staged input).1.requestFlags =
      ((run.admitted input).flags.irq, (run.admitted input).flags.nmi) := by
  rcases location_eq : run.location with _ | _ | _ | _ | _ | _
  case boundary => exact absurd location_eq inside
  case cycle =>
    simp only [step, location_eq, cycleStep, requestFlags_afterCycle]
    by_cases transferring : run.loop.isInDMA
    · have closed : ¬ run.ReleasesLock := by
        simp [ReleasesLock, location_eq, transferring]
      rw [if_pos transferring, requestFlags_dmaCycle, admitted, if_neg closed]
      rfl
    · have opened : run.ReleasesLock := by
        simp [ReleasesLock, location_eq, transferring]
      rw [if_neg transferring, admitted, if_pos opened]
      unfold dispatchCycle
      dsimp only
      split
      · rw [requestFlags_dmaCycle]
        rfl
      · rw [requestFlags_stagedCall]
        rfl
  all_goals
    have closed : ¬ run.ReleasesLock := by simp [ReleasesLock, location_eq]
    rw [admitted, if_neg closed]
    simp only [step, location_eq, requestFlags_fetchStep]
    rfl

/-! ## The boundary between two instructions -/

/-- A pending IRQ that the I bit lets through runs four calls of its sequence. -/
theorem serviceIRQ_of_pending {run : Run μ} (pending : run.executor.flags.irq = true)
    (clear : run.executor.registers.getBit Registers.bitI = false) :
    run.serviceIRQ =
      ({ run with
          executor := run.executor.absorbInterrupt run.executor.dialect.irq
            (stacked run.executor.dialect.inhibit
              (run.executor.frame (run.executor.interruptStatics run.executor.dialect.irq)))
          loop :=
            { run.loop with
              opcode := 0
              cycleCount := 5
              totalCycles := run.loop.totalCycles + 4
              nextStage := .instrEnd } },
        [.service run.executor.dialect.irq 4]) := by
  have calls_eq := runCalls_stagedIRQ run.executor.dialect.inhibit
    run.executor.dialect.inhibit_bitI 2
    (run.executor.frame (run.executor.interruptStatics run.executor.dialect.irq)) clear
  rw [← Dialect.irq_staged] at calls_eq
  simp only [serviceIRQ, pending, clear, Bool.not_false, Bool.and_self, if_true, service,
    calls_eq]

/-- A pending NMI runs its complete sequence. -/
theorem serviceNMI_of_pending {run : Run μ} (pending : run.executor.flags.nmi = true) :
    run.serviceNMI =
      ({ run with
          executor := run.executor.absorbInterrupt run.executor.dialect.nmi
            (entered memoryAddrNMIVector run.executor.dialect.inhibit
              (run.executor.frame (run.executor.interruptStatics run.executor.dialect.nmi)))
          loop :=
            { run.loop with
              opcode := 0
              cycleCount := 6
              totalCycles := run.loop.totalCycles + 5
              nextStage := .instrEnd } },
        [.service run.executor.dialect.nmi 5]) := by
  have calls_eq := runCalls_interruptCycles memoryAddrNMIVector run.executor.dialect.inhibit 1
    (run.executor.frame (run.executor.interruptStatics run.executor.dialect.nmi))
  rw [← Dialect.nmi_staged] at calls_eq
  simp only [serviceNMI, pending, if_true, service, calls_eq]

theorem serviceIRQ_spec (run : Run μ) :
    run.serviceIRQ.1.location = run.location ∧
      run.serviceIRQ.1.executor.flags = run.executor.flags ∧
      run.serviceIRQ.1.executor.dialect = run.executor.dialect ∧
      ∀ event ∈ run.serviceIRQ.2, event = .service run.executor.dialect.irq 4 := by
  by_cases serviced : run.executor.flags.irq = true ∧
      run.executor.registers.getBit Registers.bitI = false
  · rw [serviceIRQ_of_pending serviced.1 serviced.2]
    exact ⟨rfl, rfl, rfl, fun event event_mem => List.mem_singleton.mp event_mem⟩
  · have skipped : run.serviceIRQ = (run, []) := by
      rw [serviceIRQ, if_neg]
      simpa using serviced
    rw [skipped]
    exact ⟨rfl, rfl, rfl, by simp⟩

theorem serviceNMI_spec (run : Run μ) :
    run.serviceNMI.1.location = run.location ∧
      run.serviceNMI.2 =
        if run.executor.flags.nmi then [.service run.executor.dialect.nmi 5] else [] := by
  by_cases pending : run.executor.flags.nmi = true
  · rw [serviceNMI_of_pending pending, if_pos pending]
    exact ⟨rfl, rfl⟩
  · have skipped : run.serviceNMI = (run, []) := by rw [serviceNMI, if_neg pending]
    rw [skipped, if_neg pending]
    exact ⟨rfl, rfl⟩

/-- A boundary check drops both request flags and goes on to the next fetch; it runs four calls
of an IRQ sequence at most, and all five of a pending NMI's. -/
theorem boundaryStep_spec {run : Run μ} (here : run.location = .boundary) (input : Input) :
    (run.boundaryStep input).1.location = .fetch ∧
      (run.boundaryStep input).1.requestFlags = (false, false) ∧
      Event.service run.executor.dialect.irq 5 ∉ (run.boundaryStep input).2 ∧
      ((run.executor.requests input.requests).flags.nmi = true →
        Event.service run.executor.dialect.nmi 5 ∈ (run.boundaryStep input).2) := by
  let admitted := run.onExecutor fun executor => executor.requests input.requests
  have dialect_eq : admitted.executor.dialect = run.executor.dialect :=
    Executor.requests_dialect run.executor input.requests
  obtain ⟨firstLocation, firstFlags, firstDialect, irqEvents⟩ := serviceIRQ_spec admitted
  obtain ⟨secondLocation, nmiEvents⟩ := serviceNMI_spec admitted.serviceIRQ.1
  have running : admitted.serviceIRQ.1.serviceNMI.1.location ≠ .hung := by
    rw [secondLocation, firstLocation, show admitted.location = .boundary from here]
    exact Location.noConfusion
  have step_eq : run.boundaryStep input =
      (admitted.serviceIRQ.1.serviceNMI.1.clearInterrupts.goto .fetch,
        [.unlock, .lock] ++ admitted.serviceIRQ.2 ++ admitted.serviceIRQ.1.serviceNMI.2) := by
    simp only [boundaryStep]
    rw [if_neg running]
  rw [step_eq]
  refine ⟨rfl, rfl, ?_, fun pending => ?_⟩
  · intro complete
    simp only [List.cons_append, List.nil_append, List.mem_cons, List.mem_append, reduceCtorEq,
      false_or] at complete
    rcases complete with fromIRQ | fromNMI
    · have calls_eq := irqEvents _ fromIRQ
      simp at calls_eq
    · rw [nmiEvents, firstDialect, dialect_eq] at fromNMI
      cases dialect : run.executor.dialect <;> split at fromNMI <;>
        simp [dialect, Dialect.irq, Dialect.nmi] at fromNMI
  · have raised : admitted.executor.flags.nmi = true := pending
    rw [nmiEvents, firstFlags, firstDialect, dialect_eq, if_pos raised]
    simp

/-! ## Lost requests -/

/-- A step drops an interrupt request only if it runs the complete five calls of its
sequence. -/
def KeepsRequests (run : Run μ) (input : Input) : Prop :=
  ((run.admitted input).flags.irq = true →
      (run.step .staged input).1.executor.flags.irq = false →
        Event.service run.executor.dialect.irq 5 ∈ (run.step .staged input).2) ∧
    ((run.admitted input).flags.nmi = true →
      (run.step .staged input).1.executor.flags.nmi = false →
        Event.service run.executor.dialect.nmi 5 ∈ (run.step .staged input).2)

/-- A step that checks for interrupts finds no IRQ request. -/
def ChecksWithoutIRQ (run : Run μ) (input : Input) : Prop :=
  run.location = .boundary → (run.admitted input).flags.irq = false

/-- A step keeps the interrupt requests exactly when it is not a boundary check that finds an
IRQ request. -/
theorem keepsRequests_iff (run : Run μ) (input : Input) :
    run.KeepsRequests input ↔ run.ChecksWithoutIRQ input := by
  by_cases here : run.location = .boundary
  · have step_eq : run.step .staged input = run.boundaryStep input := by simp only [step, here]
    have admitted_eq : run.admitted input = run.executor.requests input.requests :=
      if_pos (.inl here)
    obtain ⟨-, flags_eq, noIRQ, fullNMI⟩ := boundaryStep_spec here input
    rw [KeepsRequests, ChecksWithoutIRQ, step_eq, admitted_eq]
    constructor
    · rintro ⟨kept, -⟩ -
      by_contra pending
      exact noIRQ (kept (by simpa using pending) (congrArg Prod.fst flags_eq))
    · intro absent
      refine ⟨fun pending => ?_, fun pending _ => fullNMI pending⟩
      rw [absent here] at pending
      cases pending
  · obtain ⟨irq_eq, nmi_eq⟩ := Prod.mk.inj (requestFlags_step here input)
    refine iff_of_true ⟨fun pending dropped => ?_, fun pending dropped => ?_⟩
      fun there => absurd there here
    · rw [← irq_eq, dropped] at pending
      cases pending
    · rw [← nmi_eq, dropped] at pending
      cases pending

end Run
/-- A staged launch loses no interrupt request exactly when no boundary check of the run finds an
IRQ request. -/
theorem keepsRequests_run_iff [Membus μ] (executor : Executor μ) (range : MemoryAddrRange)
    (PC : Word) (residue : Loop) (inputs : List Input) :
    (loopMachine μ .staged).Meets Run.KeepsRequests (Run.launch executor range PC residue)
        inputs ↔
      (loopMachine μ .staged).Meets Run.ChecksWithoutIRQ (Run.launch executor range PC residue)
        inputs :=
  (loopMachine μ .staged).meets_iff (fun run input => run.keepsRequests_iff input) _ inputs

/-- An IRQ raised while the I bit is set is dropped at the next boundary. -/
theorem not_keepsRequests_masked :
    ¬ (loopMachine Ram .staged).Meets Run.KeepsRequests
        (Run.launch
          (Executor.alloc { Registers.reset with SR := Registers.bitI } (fun _ => 0xEA) .base)
          { addrLo := 0, addrLen := 0xFFFF } 0x0200 Loop.zero)
        [Input.quiet .nextCycle Locals.zero,
          { Input.quiet .nextCycle Locals.zero with requests := [.setIRQ] },
          Input.quiet .nextCycle Locals.zero] := by
  rintro ⟨-, -, ⟨kept, -⟩, -⟩
  have dropped := kept (by decide) (by decide)
  revert dropped
  decide

end System6502
