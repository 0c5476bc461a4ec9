import System6502.Executor.Transfers
import System6502.Isa.Projection

/-!
# Projections of a run

A projection of the bus commutes with every part of a step of a run loop.
-/

namespace System6502

/-- An executor with its bus projected. -/
def Executor.project {μ ν : Type*} (project : μ → ν) (executor : Executor μ) : Executor ν where
  flags := executor.flags
  registers := executor.registers
  memory := project executor.memory
  dialect := executor.dialect
  dmaRange := executor.dmaRange
  dmaProvider := executor.dmaProvider
  dmaConsumer := executor.dmaConsumer
  dmaContext := executor.dmaContext
  cacheDisable := executor.cacheDisable
  statics := executor.statics
  interruptStatics := executor.interruptStatics

/-- A run with its bus projected. -/
def Run.project {μ ν : Type*} (project : μ → ν) (run : Run μ) : Run ν where
  executor := run.executor.project project
  loop := run.loop
  location := run.location

section Projection

variable {μ ν : Type*} {project : μ → ν}

/-- A run and what happened on the way to it, with the bus of the run projected. -/
def projectOutcome {γ : Type*} (project : μ → ν) (outcome : Run μ × γ) : Run ν × γ :=
  (outcome.1.project project, outcome.2)

theorem Executor.request_project (executor : Executor μ) (request : Request) :
    (executor.project project).request request = (executor.request request).project project := by
  have flags_eq : (executor.project project).flags = executor.flags := rfl
  cases request with
  | setIRQ | setNMI | setExecStop => rfl
  | setDMACopyin | setDMACopyout =>
      unfold Executor.request
      dsimp only
      rw [flags_eq]
      split <;> rfl

@[simp]
theorem Executor.requests_project (executor : Executor μ) (pending : List Request) :
    (executor.project project).requests pending = (executor.requests pending).project project := by
  induction pending generalizing executor with
  | nil => rfl
  | cons first rest ih =>
      change ((executor.project project).request first).requests rest = _
      rw [executor.request_project]
      exact ih (executor.request first)

namespace Run

theorem admitRequests_project (input : Input) (run : Run μ) :
    (run.project project).admitRequests input = (run.admitRequests input).project project :=
  congrArg (Run.mk · run.loop run.location) (run.executor.requests_project input.requests)

/-! ## Transfers -/

theorem endDMAAtRangeEnd_project (run : Run μ) :
    (run.project project).endDMAAtRangeEnd = run.endDMAAtRangeEnd.project project := by
  unfold endDMAAtRangeEnd
  change (if run.executor.dmaRange.addrLo ≥ run.loop.dmaAddrHi then _ else _) = _
  split <;> rfl

theorem afterCycle_project (mode : ExecMode) (run : Run μ) :
    (run.project project).afterCycle mode = (run.afterCycle mode).project project := by
  have location_eq : (run.project project).location = run.location := rfl
  have stage_eq : (run.project project).loop.nextStage = run.loop.nextStage := rfl
  unfold afterCycle
  rw [location_eq]
  split
  · rfl
  · cases mode with
    | staged =>
        dsimp only
        rw [stage_eq]
        split <;> rfl
    | static => rfl

variable [Membus μ] [Membus ν] [BusProjection project]

theorem dmaWrite_project (input : Input) (run : Run μ) :
    (run.project project).dmaWrite input = projectOutcome project (run.dmaWrite input) := by
  have consumer_eq : (run.project project).executor.dmaConsumer = run.executor.dmaConsumer := rfl
  have copyout_eq : (run.project project).loop.isDMACopyout = run.loop.isDMACopyout := rfl
  unfold dmaWrite
  rw [consumer_eq, copyout_eq]
  split
  · split
    · rfl
    · dsimp only
      split
      · exact congrArg (fun ended => (tick ended, _)) (endDMAAtRangeEnd_project run.advanceIndex)
      · exact congrArg (fun ended => (tick ended, _))
          (endDMAAtRangeEnd_project run.advanceIndex.endDMA)
  · have write_eq : Membus.writeAddr (run.project project).executor.memory
        (run.project project).executor.dmaRange.addrLo (run.project project).loop.dmaNextByte = _ :=
      BusProjection.writeAddr run.executor.memory run.executor.dmaRange.addrLo
        run.loop.dmaNextByte
    let written := (run.onExecutor fun executor =>
      { executor with
        memory := Membus.writeAddr executor.memory run.executor.dmaRange.addrLo
          run.loop.dmaNextByte }).advanceRange
    have ended : (written.project project).endDMAAtRangeEnd = _ :=
      endDMAAtRangeEnd_project written
    simp only [onExecutor, write_eq]
    exact congrArg (fun last => (tick last, _)) ended

theorem dmaRead_project (input : Input) (run : Run μ) :
    (run.project project).dmaRead input = projectOutcome project (run.dmaRead input) := by
  have provider_eq : (run.project project).executor.dmaProvider = run.executor.dmaProvider := rfl
  have copyout_eq : (run.project project).loop.isDMACopyout = run.loop.isDMACopyout := rfl
  have read_eq : Membus.readAddr (run.project project).executor.memory
      (run.project project).executor.dmaRange.addrLo = _ :=
    BusProjection.readAddr run.executor.memory run.executor.dmaRange.addrLo
  unfold dmaRead
  rw [provider_eq, copyout_eq]
  split
  · dsimp only
    rw [read_eq]
    rfl
  · split
    · rfl
    · dsimp only
      split <;> rfl

theorem dmaCycle_project (input : Input) (run : Run μ) :
    (run.project project).dmaCycle input = projectOutcome project (run.dmaCycle input) := by
  have started_eq : (run.project project).loop.isDMAStarted = run.loop.isDMAStarted := rfl
  have cycles_eq : (run.project project).loop.totalCycles = run.loop.totalCycles := rfl
  unfold dmaCycle
  rw [started_eq, cycles_eq]
  split
  · split
    · exact dmaWrite_project input run
    · exact dmaRead_project input run
  · rfl

/-! ## Instructions -/

theorem fetchStep_project (input : Input) (run : Run μ) :
    (run.project project).fetchStep input = projectOutcome project (run.fetchStep input) := by
  have read_eq : Membus.readAddr (run.project project).executor.memory
      (run.project project).executor.registers.PC = _ :=
    BusProjection.readAddr run.executor.memory run.executor.registers.PC
  have stop_eq : (run.project project).executor.flags = run.executor.flags := rfl
  have dialect_eq : (run.project project).executor.dialect = run.executor.dialect := rfl
  have end_eq : (run.project project).loop.PCEnd = run.loop.PCEnd := rfl
  have PC_eq : (run.project project).executor.registers = run.executor.registers := rfl
  unfold fetchStep
  dsimp only
  rw [read_eq, stop_eq, dialect_eq, end_eq, PC_eq]
  split
  · dsimp only
    split <;> rfl
  · rfl

theorem stagedCall_project (run : Run μ) :
    (run.project project).stagedCall = projectOutcome project run.stagedCall := by
  have dispatch_eq : (run.project project).loop.dispatch = run.loop.dispatch := rfl
  unfold stagedCall
  rw [dispatch_eq]
  split
  · rfl
  · rename_i routine _
    have projects : Projects project
        (routine.staged run.loop.dispatch.addressingMode run.loop.cycleCount)
        (routine.staged run.loop.dispatch.addressingMode run.loop.cycleCount) :=
      routine.staged_projects _ _
    have call : routine.staged _ _ ((run.project project).executor.frame
        ((run.project project).executor.statics routine)) = _ :=
      projects (run.executor.frame (run.executor.statics routine))
    have cycle_eq : (run.project project).loop.cycleCount = run.loop.cycleCount := rfl
    rw [cycle_eq, call]
    rfl

theorem staticCall_project (input : Input) (run : Run μ) :
    (run.project project).staticCall input = projectOutcome project (run.staticCall input) := by
  have dispatch_eq : (run.project project).loop.dispatch = run.loop.dispatch := rfl
  unfold staticCall
  rw [dispatch_eq]
  split
  · rfl
  · rename_i routine _
    have projects : Projects project (routine.static run.loop.dispatch.addressingMode)
        (routine.static run.loop.dispatch.addressingMode) := routine.static_projects _
    have call : routine.static _ ((run.project project).executor.frame input.locals) = _ :=
      projects (run.executor.frame input.locals)
    rw [call]
    rfl

theorem callStep_project (mode : ExecMode) (input : Input) (run : Run μ) :
    (run.project project).callStep mode input =
      projectOutcome project (run.callStep mode input) := by
  cases mode with
  | staged => exact stagedCall_project run
  | static => exact staticCall_project input run

/-! ## Interrupts -/

theorem service_project (interrupt : Interrupt) (run : Run μ) :
    (run.project project).service interrupt = projectOutcome project (run.service interrupt) := by
  have projects : ∀ cycle, Projects project (interrupt.staged cycle) (interrupt.staged cycle) :=
    interrupt.staged_projects
  have calls : runCalls interrupt.staged 6 1 ((run.project project).executor.frame
      ((run.project project).executor.interruptStatics interrupt)) = _ :=
    runCalls_project projects 6 1
      (run.executor.frame (run.executor.interruptStatics interrupt))
  unfold service
  rw [calls]
  cases runCalls interrupt.staged 6 1
    (run.executor.frame (run.executor.interruptStatics interrupt)) <;> rfl

end Run
end Projection

end System6502
