import System6502.Executor.Transfers
import System6502.Isa.Retention

/-!
# Two executors in one process

The static variables of the instruction functions exist once in a process, so two executors that
take turns at their resting points work on the same copy.  This file compares each of two staged
runs with the run that its own inputs give when it is alone.
-/

namespace System6502

open Lib System6502.Frame

variable {μ : Type*}

/-- The static variables of a process. -/
structure Statics where
  /-- Static variables of the instruction functions. -/
  routines : Routine → Locals
  /-- Static variables of the interrupt functions. -/
  interrupts : Interrupt → Locals

/-- The executor on other static variables. -/
def Executor.sharing (statics : Statics) (executor : Executor μ) : Executor μ :=
  { executor with statics := statics.routines, interruptStatics := statics.interrupts }

theorem Executor.request_sharing (executor : Executor μ) (statics : Statics) (request : Request) :
    (executor.sharing statics).request request = (executor.request request).sharing statics := by
  cases request with
  | setIRQ | setNMI | setExecStop => rfl
  | setDMACopyin range provider context =>
      unfold request
      rw [apply_ite (Executor.sharing statics)]
      rfl
  | setDMACopyout range consumer context =>
      unfold request
      rw [apply_ite (Executor.sharing statics)]
      rfl

theorem Executor.requests_sharing (executor : Executor μ) (statics : Statics)
    (pending : List Request) :
    (executor.sharing statics).requests pending = (executor.requests pending).sharing statics :=
  List.foldl_hom (Executor.sharing statics) fun executor request =>
    executor.request_sharing statics request

namespace Run

/-- The static variables a run works on. -/
def statics (run : Run μ) : Statics where
  routines := run.executor.statics
  interrupts := run.executor.interruptStatics

/-- The run on other static variables. -/
def sharing (run : Run μ) (statics : Statics) : Run μ :=
  run.onExecutor (Executor.sharing statics)

@[simp]
theorem sharing_statics (run : Run μ) : run.sharing run.statics = run := rfl

@[simp]
theorem statics_sharing (run : Run μ) (statics : Statics) :
    (run.sharing statics).statics = statics := rfl

@[simp]
theorem sharing_sharing (run : Run μ) (first second : Statics) :
    (run.sharing first).sharing second = run.sharing second := rfl

/-- The result of a step on other static variables. -/
def share (statics : Statics) (result : Run μ × List Event) : Run μ × List Event :=
  (result.1.sharing statics, result.2)

theorem admitRequests_sharing (input : Input) (run : Run μ) (statics : Statics) :
    (run.sharing statics).admitRequests input = (run.admitRequests input).sharing statics := by
  exact congrArg (fun executor => { run with executor })
    (run.executor.requests_sharing statics input.requests)

theorem endDMAAtRangeEnd_sharing (run : Run μ) (statics : Statics) :
    (run.sharing statics).endDMAAtRangeEnd = run.endDMAAtRangeEnd.sharing statics := by
  unfold endDMAAtRangeEnd
  rw [apply_ite fun run : Run μ => run.sharing statics]
  rfl

theorem afterCycle_sharing (run : Run μ) (statics : Statics) :
    (run.sharing statics).afterCycle .staged = (run.afterCycle .staged).sharing statics := by
  unfold afterCycle
  dsimp only
  rw [apply_ite fun run : Run μ => run.sharing statics,
    apply_ite fun run : Run μ => run.sharing statics]
  rfl

variable [Membus μ]

/-! ## Steps that leave the static variables alone -/

theorem fetchStep_sharing (input : Input) (run : Run μ) (statics : Statics) :
    (run.sharing statics).fetchStep input = share statics (run.fetchStep input) := by
  unfold fetchStep
  dsimp only
  rw [apply_ite (share statics), apply_ite (share statics)]
  rfl

omit [Membus μ] in
theorem answered_sharing (kept : Bool) (run : Run μ) (statics : Statics) :
    (if kept then run.sharing statics else (run.sharing statics).endDMA) =
      (if kept then run else run.endDMA).sharing statics := by
  cases kept <;> rfl

theorem dmaWrite_sharing (input : Input) (run : Run μ) (statics : Statics) :
    (run.sharing statics).dmaWrite input = share statics (run.dmaWrite input) := by
  have answered := (congrArg endDMAAtRangeEnd
    (answered_sharing input.consumed run.advanceIndex statics)).trans
      (endDMAAtRangeEnd_sharing _ statics)
  have written := endDMAAtRangeEnd_sharing run.writeNextByte.advanceRange statics
  obtain ⟨⟨_, _, _, _, _, _, consumer, _, _, _, _⟩, loop, location⟩ := run
  unfold dmaWrite
  rw [apply_ite (share statics)]
  refine ite_congr rfl (fun _ => ?_) fun _ => ?_
  · cases consumer with
    | none => rfl
    | some consumer => exact Prod.ext (congrArg tick answered) rfl
  · exact Prod.ext (congrArg tick written) rfl

theorem dmaRead_sharing (input : Input) (run : Run μ) (statics : Statics) :
    (run.sharing statics).dmaRead input = share statics (run.dmaRead input) := by
  have answered := answered_sharing input.provided.1 (run.takeProvided input) statics
  obtain ⟨⟨_, _, _, _, _, provider, _, _, _, _, _⟩, loop, location⟩ := run
  unfold dmaRead
  rw [apply_ite (share statics)]
  refine ite_congr rfl (fun _ => rfl) fun _ => ?_
  cases provider with
  | none => rfl
  | some provider =>
      exact Prod.ext (congrArg tick answered) rfl

theorem dmaCycle_sharing (input : Input) (run : Run μ) (statics : Statics) :
    (run.sharing statics).dmaCycle input = share statics (run.dmaCycle input) := by
  unfold dmaCycle
  rw [apply_ite (share statics), apply_ite (share statics), ← dmaWrite_sharing, ← dmaRead_sharing]
  rfl

/-- How far the current instruction has come, and the static variables. -/
def progress (run : Run μ) : Dispatch × Nat × Statics :=
  (run.loop.dispatch, run.loop.cycleCount, run.statics)

omit [Membus μ] in
theorem endDMAAtRangeEnd_progress (run : Run μ) :
    run.endDMAAtRangeEnd.progress = run.progress := by
  unfold endDMAAtRangeEnd
  split <;> rfl

theorem dmaCycle_progress (input : Input) (run : Run μ) :
    (run.dmaCycle input).1.progress = run.progress := by
  unfold dmaCycle dmaWrite dmaRead
  split
  · split
    · split
      · split
        · rfl
        · refine (endDMAAtRangeEnd_progress _).trans ?_
          split <;> rfl
      · exact endDMAAtRangeEnd_progress _
    · split
      · rfl
      · split
        · rfl
        · dsimp only
          split <;> rfl
  · rfl

omit [Membus μ] in
theorem admitRequests_progress (input : Input) (run : Run μ) :
    (run.admitRequests input).progress = run.progress := by
  have admitted_eq : run.admitRequests input = (run.admitRequests input).sharing run.statics :=
    admitRequests_sharing input run run.statics
  refine Prod.ext rfl (Prod.ext rfl ?_)
  calc
    (run.admitRequests input).statics = ((run.admitRequests input).sharing run.statics).statics :=
      congrArg statics admitted_eq
    _ = run.statics := rfl

omit [Membus μ] in
theorem afterCycle_progress (run : Run μ) : (run.afterCycle .staged).progress = run.progress := by
  unfold afterCycle
  split
  · rfl
  · dsimp only
    split <;> rfl

/-! ## Calls and interrupt sequences -/

/-- The next step calls the staged function of the current instruction. -/
def Calling (input : Input) (run : Run μ) : Prop :=
  run.location = .cycle ∧ run.loop.isInDMA = false ∧
    (run.admitRequests input).executor.flags.dma = false

instance (input : Input) (run : Run μ) : Decidable (run.Calling input) :=
  inferInstanceAs (Decidable (_ ∧ _ ∧ _))

/-- The calls of the current instruction from now on are the same from both contents of the static
variables of its function. -/
def CallsAlike (run : Run μ) (first second : Statics) : Prop :=
  ∀ routine ∈ run.loop.dispatch.staged,
    Alike (fun _ => ()) (routine.staged (μ := μ) run.loop.dispatch.addressingMode)
      run.loop.cycleCount (first.routines routine) (second.routines routine)

theorem stagedCall_of_none (run : Run μ) (null : run.loop.dispatch.staged = none) :
    run.stagedCall = (run.goto .nullCall, [.call none]) := by
  unfold stagedCall
  split
  · rfl
  · rename_i named
    cases null.symm.trans named

theorem stagedCall_of_some (run : Run μ) {routine : Routine}
    (named : run.loop.dispatch.staged = some routine) {after : Frame μ} {stage : Stage}
    (call : routine.staged run.loop.dispatch.addressingMode run.loop.cycleCount
      (run.executor.frame (run.executor.statics routine)) = (after, stage)) :
    run.stagedCall =
      ({ run with
          executor := run.executor.absorbRoutine routine after
          loop :=
            { run.loop with
              nextStage := stage
              cycleCount := run.loop.cycleCount + 1
              totalCycles := run.loop.totalCycles + 1 } },
        [.call (some routine)]) := by
  unfold stagedCall
  split
  · rename_i null
    cases null.symm.trans named
  · rename_i other other_eq
    obtain rfl : other = routine := Option.some.inj (other_eq.symm.trans named)
    rw [call]

/-- A call from two contents of the static variables that make no difference to it. -/
theorem stagedCall_sharing {run : Run μ} {first second : Statics}
    (alike : run.CallsAlike first second) :
    ∃ after : Run μ, ∃ firstAfter secondAfter,
      (run.sharing first).stagedCall.1 = after.sharing firstAfter ∧
        (run.sharing second).stagedCall.1 = after.sharing secondAfter ∧
        (after.loop.nextStage ≠ .instrEnd → after.CallsAlike firstAfter secondAfter) ∧
        ∀ routine,
          (run.loop.dispatch.staged ≠ some routine →
            firstAfter.routines routine = first.routines routine) ∧
          (first.routines routine = second.routines routine →
            firstAfter.routines routine = secondAfter.routines routine) := by
  cases named : run.loop.dispatch.staged with
  | none =>
      refine ⟨run.goto .nullCall, first, second, ?_, ?_, fun _ routine other => ?_,
        fun _ => ⟨fun _ => rfl, id⟩⟩
      · rw [stagedCall_of_none (run.sharing first) named]
        rfl
      · rw [stagedCall_of_none (run.sharing second) named]
        rfl
      · cases named.symm.trans other
  | some routine =>
      obtain ⟨core_eq, stage_eq, -, further⟩ :=
        (alike routine named).calls run.executor.memory run.executor.registers
      rcases first_eq : routine.staged run.loop.dispatch.addressingMode run.loop.cycleCount
        (run.executor.frame (first.routines routine)) with ⟨⟨memory, registers, locals⟩, stage⟩
      rcases second_eq : routine.staged run.loop.dispatch.addressingMode run.loop.cycleCount
        (run.executor.frame (second.routines routine)) with ⟨⟨_, _, others⟩, _⟩
      unfold Executor.frame at first_eq second_eq
      rw [first_eq, second_eq] at core_eq stage_eq further
      cases core_eq
      cases stage_eq
      let executor : Executor μ := { run.executor with memory, registers }
      let loop : Loop :=
        { run.loop with
          nextStage := stage
          cycleCount := run.loop.cycleCount + 1
          totalCycles := run.loop.totalCycles + 1 }
      refine ⟨{ run with executor, loop },
        { first with routines := Function.update first.routines routine locals },
        { second with routines := Function.update second.routines routine others }, ?_, ?_, ?_, ?_⟩
      · rw [stagedCall_of_some (run.sharing first) named first_eq]
        rfl
      · rw [stagedCall_of_some (run.sharing second) named second_eq]
        rfl
      · intro asks other other_eq
        obtain rfl : routine = other := Option.some.inj (named.symm.trans other_eq)
        simpa using further asks
      · intro other
        by_cases same : other = routine
        · subst same
          refine ⟨fun other_ne => absurd rfl other_ne, fun locals_eq => ?_⟩
          rw [locals_eq, second_eq] at first_eq
          cases first_eq
          simp only [Function.update_self]
        · refine ⟨fun _ => Function.update_of_ne same _ _, fun locals_eq => ?_⟩
          simp only [Function.update_of_ne same, locals_eq]

theorem service_of_none (run : Run μ) {interrupt : Interrupt}
    (hangs : runCalls interrupt.staged 6 1
      (run.executor.frame (run.executor.interruptStatics interrupt)) = none) :
    (run.service interrupt).1 = run.goto .hung := by
  simp only [service, hangs]

theorem service_of_some (run : Run μ) {interrupt : Interrupt} {calls : Nat} {after : Frame μ}
    (ended : runCalls interrupt.staged 6 1
      (run.executor.frame (run.executor.interruptStatics interrupt)) = some (calls, after)) :
    (run.service interrupt).1 =
      { run with
        executor := run.executor.absorbInterrupt interrupt after
        loop :=
          { run.loop with
            opcode := 0
            cycleCount := calls + 1
            totalCycles := run.loop.totalCycles + calls
            nextStage := .instrEnd } } := by
  simp only [service, ended]

/-- An interrupt sequence does the same from any contents of the static variables. -/
theorem service_sharing (interrupt : Interrupt) (run : Run μ) (first second : Statics) :
    ∃ after : Run μ, ∃ firstAfter secondAfter,
      ((run.sharing first).service interrupt).1 = after.sharing firstAfter ∧
        ((run.sharing second).service interrupt).1 = after.sharing secondAfter ∧
        firstAfter.routines = first.routines ∧ secondAfter.routines = second.routines := by
  have same := (interrupt.staged_forgets (first.interrupts interrupt)
    (second.interrupts interrupt)).runCalls 6 run.executor.memory run.executor.registers
  rcases first_eq : runCalls interrupt.staged 6 1
    (run.executor.frame (first.interrupts interrupt)) with _ | outcome
  · have second_eq : runCalls interrupt.staged 6 1
        (run.executor.frame (second.interrupts interrupt)) = none := by
      unfold Executor.frame at first_eq ⊢
      rwa [first_eq, Option.map_none, eq_comm, Option.map_eq_none_iff] at same
    exact ⟨run.goto .hung, first, second, service_of_none (run.sharing first) first_eq,
      service_of_none (run.sharing second) second_eq, rfl, rfl⟩
  · obtain ⟨calls, memory, registers, locals⟩ := outcome
    obtain ⟨⟨count, memory', registers', others⟩, second_eq, outcome_eq⟩ :
        ∃ outcome, runCalls interrupt.staged 6 1
            (run.executor.frame (second.interrupts interrupt)) = some outcome ∧
          (outcome.1, outcome.2.core, ()) = (calls, (⟨memory, registers⟩ : Core μ), ()) := by
      refine Option.map_eq_some_iff.mp (same.symm.trans ?_)
      exact congrArg (Option.map _) first_eq
    cases outcome_eq
    let executor : Executor μ :=
      { run.executor with memory := memory', registers := registers' }
    let loop : Loop :=
      { run.loop with
        opcode := 0
        cycleCount := count + 1
        totalCycles := run.loop.totalCycles + count
        nextStage := .instrEnd }
    exact ⟨{ run with executor, loop },
      { first with interrupts := Function.update first.interrupts interrupt locals },
      { second with interrupts := Function.update second.interrupts interrupt others },
      service_of_some (run.sharing first) first_eq, service_of_some (run.sharing second) second_eq,
      rfl, rfl⟩

theorem serviceIRQ_sharing (run : Run μ) (first second : Statics) :
    ∃ after : Run μ, ∃ firstAfter secondAfter,
      (run.sharing first).serviceIRQ.1 = after.sharing firstAfter ∧
        (run.sharing second).serviceIRQ.1 = after.sharing secondAfter ∧
        firstAfter.routines = first.routines ∧ secondAfter.routines = second.routines := by
  by_cases pending :
      (run.executor.flags.irq && !run.executor.registers.getBit Registers.bitI) = true
  · have first_eq : (run.sharing first).serviceIRQ =
        (run.sharing first).service run.executor.dialect.irq := if_pos pending
    have second_eq : (run.sharing second).serviceIRQ =
        (run.sharing second).service run.executor.dialect.irq := if_pos pending
    rw [first_eq, second_eq]
    exact service_sharing _ run first second
  · have first_eq : (run.sharing first).serviceIRQ = (run.sharing first, []) := if_neg pending
    have second_eq : (run.sharing second).serviceIRQ = (run.sharing second, []) := if_neg pending
    rw [first_eq, second_eq]
    exact ⟨run, first, second, rfl, rfl, rfl, rfl⟩

theorem serviceNMI_sharing (run : Run μ) (first second : Statics) :
    ∃ after : Run μ, ∃ firstAfter secondAfter,
      (run.sharing first).serviceNMI.1 = after.sharing firstAfter ∧
        (run.sharing second).serviceNMI.1 = after.sharing secondAfter ∧
        firstAfter.routines = first.routines ∧ secondAfter.routines = second.routines := by
  by_cases pending : run.executor.flags.nmi = true
  · have first_eq : (run.sharing first).serviceNMI =
        (run.sharing first).service run.executor.dialect.nmi := if_pos pending
    have second_eq : (run.sharing second).serviceNMI =
        (run.sharing second).service run.executor.dialect.nmi := if_pos pending
    rw [first_eq, second_eq]
    exact service_sharing _ run first second
  · have first_eq : (run.sharing first).serviceNMI = (run.sharing first, []) := if_neg pending
    have second_eq : (run.sharing second).serviceNMI = (run.sharing second, []) := if_neg pending
    rw [first_eq, second_eq]
    exact ⟨run, first, second, rfl, rfl, rfl, rfl⟩

/-- A boundary does the same from any contents of the static variables. -/
theorem boundaryStep_sharing (input : Input) (run : Run μ) (first second : Statics) :
    ∃ after : Run μ, ∃ firstAfter secondAfter,
      ((run.sharing first).boundaryStep input).1 = after.sharing firstAfter ∧
        ((run.sharing second).boundaryStep input).1 = after.sharing secondAfter ∧
        firstAfter.routines = first.routines ∧ secondAfter.routines = second.routines := by
  obtain ⟨afterIRQ, firstIRQ, secondIRQ, firstIRQ_eq, secondIRQ_eq, firstKept, secondKept⟩ :=
    serviceIRQ_sharing (run.admitRequests input) first second
  obtain ⟨afterNMI, firstNMI, secondNMI, firstNMI_eq, secondNMI_eq, firstStill, secondStill⟩ :=
    serviceNMI_sharing afterIRQ firstIRQ secondIRQ
  have settle : ∀ statics : Statics,
      (if (afterNMI.sharing statics).location = .hung then afterNMI.sharing statics
        else (afterNMI.sharing statics).clearInterrupts.goto .fetch) =
      (if afterNMI.location = .hung then afterNMI
        else afterNMI.clearInterrupts.goto .fetch).sharing statics := by
    intro statics
    rw [apply_ite fun run : Run μ => run.sharing statics]
    rfl
  have boundary_eq : ∀ statics middle last,
      ((run.admitRequests input).sharing statics).serviceIRQ.1 = afterIRQ.sharing middle →
      (afterIRQ.sharing middle).serviceNMI.1 = afterNMI.sharing last →
      ((run.sharing statics).boundaryStep input).1 =
        (if afterNMI.location = .hung then afterNMI
          else afterNMI.clearInterrupts.goto .fetch).sharing last := by
    intro statics middle last irq_eq nmi_eq
    have admitted_eq := admitRequests_sharing input run statics
    unfold admitRequests at admitted_eq irq_eq
    simp only [boundaryStep, admitted_eq, irq_eq, nmi_eq, settle]
  exact ⟨_, firstNMI, secondNMI, boundary_eq first _ _ firstIRQ_eq firstNMI_eq,
    boundary_eq second _ _ secondIRQ_eq secondNMI_eq, firstStill.trans firstKept,
    secondStill.trans secondKept⟩

/-! ## Steps -/

/-- A step that makes no call does the same from any contents of the static variables, and leaves
those of the instruction functions alone. -/
theorem step_sharing (input : Input) {run : Run μ} (quiet : ¬ run.Calling input)
    (first second : Statics) :
    ∃ after : Run μ, ∃ firstAfter secondAfter,
      ((run.sharing first).step .staged input).1 = after.sharing firstAfter ∧
        ((run.sharing second).step .staged input).1 = after.sharing secondAfter ∧
        firstAfter.routines = first.routines ∧ secondAfter.routines = second.routines := by
  have of_eq : ∀ result : Run μ × List Event,
      (∀ statics, (run.sharing statics).step .staged input = share statics result) →
      ∃ after : Run μ, ∃ firstAfter secondAfter,
        ((run.sharing first).step .staged input).1 = after.sharing firstAfter ∧
          ((run.sharing second).step .staged input).1 = after.sharing secondAfter ∧
          firstAfter.routines = first.routines ∧ secondAfter.routines = second.routines := by
    intro result step_eq
    refine ⟨result.1, first, second, ?_, ?_, rfl, rfl⟩
    · rw [step_eq]
      rfl
    · rw [step_eq]
      rfl
  rcases location_eq : run.location with _ | _ | _ | _ | _ | _
  · refine of_eq (run.fetchStep input) fun statics => ?_
    have here : (run.sharing statics).location = .fetch := location_eq
    rw [step, here]
    exact fetchStep_sharing input run statics
  · have here : ∀ statics, (run.sharing statics).step .staged input =
        (run.sharing statics).cycleStep .staged input := by
      intro statics
      have inside : (run.sharing statics).location = .cycle := location_eq
      rw [step, inside]
    by_cases active : run.loop.isInDMA = true
    · refine of_eq (run.cycleStep .staged input) fun statics => ?_
      have activeHere : (run.sharing statics).loop.isInDMA = true := active
      rw [here, cycleStep_of_active .staged input active,
        cycleStep_of_active .staged input activeHere, dmaCycle_sharing]
      exact Prod.ext (afterCycle_sharing _ statics) rfl
    · have idle : run.loop.isInDMA = false := by simpa using active
      have requested : (run.admitRequests input).executor.flags.dma = true := by
        by_contra none
        exact quiet ⟨location_eq, idle, by simpa using none⟩
      refine of_eq (run.cycleStep .staged input) fun statics => ?_
      have idleHere : (run.sharing statics).loop.isInDMA = false := idle
      have requestedHere :
          ((run.sharing statics).admitRequests input).executor.flags.dma = true := by
        rw [admitRequests_sharing]
        exact requested
      rw [here, cycleStep_of_requested .staged input idle requested,
        cycleStep_of_requested .staged input idleHere requestedHere, admitRequests_sharing]
      have cycle_eq := dmaCycle_sharing input (run.admitRequests input).beginDMA statics
      refine Prod.ext ?_ (congrArg (fun result => _ ++ result.2) cycle_eq)
      exact (congrArg (fun result => result.1.afterCycle .staged) cycle_eq).trans
        (afterCycle_sharing _ statics)
  · have here : ∀ statics, (run.sharing statics).step .staged input =
        (run.sharing statics).boundaryStep input := by
      intro statics
      have inside : (run.sharing statics).location = .boundary := location_eq
      rw [step, inside]
    rw [here, here]
    exact boundaryStep_sharing input run first second
  all_goals
    refine of_eq (run, []) fun statics => ?_
    simp only [step, sharing, onExecutor, location_eq, share]

/-- A step that makes a call does the same from two contents of the static variables that make no
difference to the rest of the instruction. -/
theorem step_sharing_of_calling {input : Input} {run : Run μ} (calling : run.Calling input)
    {first second : Statics} (alike : run.CallsAlike first second) :
    ∃ after : Run μ, ∃ firstAfter secondAfter,
      ((run.sharing first).step .staged input).1 = after.sharing firstAfter ∧
        ((run.sharing second).step .staged input).1 = after.sharing secondAfter ∧
        (after.location = .cycle → after.CallsAlike firstAfter secondAfter) ∧
        ∀ routine,
          (run.loop.dispatch.staged ≠ some routine →
            firstAfter.routines routine = first.routines routine) ∧
          (first.routines routine = second.routines routine →
            firstAfter.routines routine = secondAfter.routines routine) := by
  obtain ⟨location_eq, idle, quiet⟩ := calling
  have step_eq : ∀ statics, ((run.sharing statics).step .staged input).1 =
      (((run.admitRequests input).sharing statics).stagedCall.1).afterCycle .staged := by
    intro statics
    have here : (run.sharing statics).location = .cycle := location_eq
    have quietHere : ((run.sharing statics).admitRequests input).executor.flags.dma = false := by
      rw [admitRequests_sharing]
      exact quiet
    rw [step, here]
    dsimp only
    rw [cycleStep_of_idle .staged input (show (run.sharing statics).loop.isInDMA = false from idle)
      quietHere, admitRequests_sharing]
    rfl
  have admittedAlike : (run.admitRequests input).CallsAlike first second := alike
  obtain ⟨after, firstAfter, secondAfter, first_eq, second_eq, further, kept⟩ :=
    stagedCall_sharing admittedAlike
  refine ⟨after.afterCycle .staged, firstAfter, secondAfter, ?_, ?_, fun inside => ?_, kept⟩
  · rw [step_eq, first_eq, afterCycle_sharing]
  · rw [step_eq, second_eq, afterCycle_sharing]
  · have asks : after.loop.nextStage ≠ .instrEnd := by
      intro ended
      unfold afterCycle at inside
      split at inside
      · rename_i null
        cases null.symm.trans inside
      · cases inside
    have progress_eq := afterCycle_progress after
    have loop_eq : (after.afterCycle .staged).loop.dispatch = after.loop.dispatch ∧
        (after.afterCycle .staged).loop.cycleCount = after.loop.cycleCount :=
      ⟨congrArg (fun progress => progress.1) progress_eq,
        congrArg (fun progress => progress.2.1) progress_eq⟩
    unfold CallsAlike
    rw [loop_eq.1, loop_eq.2]
    exact further asks

/-- The function that the next step calls. -/
def called (input : Input) (run : Run μ) : Option Routine :=
  if run.Calling input then run.loop.dispatch.staged else none

omit [Membus μ] in
theorem calling_sharing (input : Input) (run : Run μ) (statics : Statics) :
    (run.sharing statics).Calling input ↔ run.Calling input := by
  unfold Calling
  rw [admitRequests_sharing]
  rfl

theorem step_dispatch_of_calling {input : Input} {run : Run μ} (calling : run.Calling input) :
    (run.step .staged input).1.loop.dispatch = run.loop.dispatch := by
  rw [step, calling.1]
  exact cycleStep_dispatch .staged input run

/-- A step that makes no call and stands before one has just decoded an opcode or has suspended the
instruction for a transfer. -/
theorem step_of_quiet {input : Input} {run : Run μ} (quiet : ¬ run.Calling input)
    (inside : (run.step .staged input).1.location = .cycle) :
    ((run.step .staged input).1.loop.dispatch.WellFormed ∧
        (run.step .staged input).1.loop.cycleCount = 1) ∨
      (run.location = .cycle ∧ (run.step .staged input).1.progress = run.progress) := by
  rcases location_eq : run.location with _ | _ | _ | _ | _ | _
  · have step_eq : run.step .staged input = run.fetchStep input := by rw [step, location_eq]
    rw [step_eq] at inside ⊢
    unfold fetchStep at inside ⊢
    dsimp only at inside ⊢
    split at inside
    · rename_i goes
      rw [if_pos goes]
      split at inside
      · cases inside
      · rename_i defined
        rw [if_neg defined]
        exact .inl ⟨run.executor.dialect.lookup_wellFormed _, rfl⟩
    · cases inside
  · have step_eq : run.step .staged input = run.cycleStep .staged input := by rw [step, location_eq]
    rw [step_eq]
    refine .inr ⟨rfl, ?_⟩
    by_cases active : run.loop.isInDMA = true
    · rw [cycleStep_of_active .staged input active]
      exact (afterCycle_progress _).trans (dmaCycle_progress input run)
    · have idle : run.loop.isInDMA = false := by simpa using active
      have requested : (run.admitRequests input).executor.flags.dma = true := by
        by_contra none
        exact quiet ⟨location_eq, idle, by simpa using none⟩
      rw [cycleStep_of_requested .staged input idle requested]
      calc
        (((run.admitRequests input).beginDMA.dmaCycle input).1.afterCycle .staged).progress
        _ = ((run.admitRequests input).beginDMA.dmaCycle input).1.progress := afterCycle_progress _
        _ = (run.admitRequests input).beginDMA.progress := dmaCycle_progress input _
        _ = run.progress := admitRequests_progress input run
  · rw [step, location_eq] at inside
    exact absurd inside (boundaryStep_location_ne_cycle input run)
  all_goals
    rw [step, location_eq] at inside
    cases location_eq.symm.trans inside

/-- A step changes the static variables of no function but the one it calls. -/
theorem step_routines {input : Input} {run : Run μ} {routine : Routine}
    (uncalled : run.called input ≠ some routine) :
    (run.step .staged input).1.statics.routines routine = run.statics.routines routine := by
  by_cases calling : run.Calling input
  · have same : run.CallsAlike run.statics run.statics := fun _ _ => .refl _ _ _ _
    obtain ⟨after, firstAfter, secondAfter, step_eq, -, -, kept⟩ :=
      step_sharing_of_calling calling same
    rw [called, if_pos calling] at uncalled
    rw [sharing_statics] at step_eq
    rw [step_eq]
    exact (kept routine).1 uncalled
  · obtain ⟨after, firstAfter, secondAfter, step_eq, -, kept, -⟩ :=
      step_sharing input calling run.statics run.statics
    rw [sharing_statics] at step_eq
    rw [step_eq]
    exact congrFun kept routine

end Run

/-! ## Processes -/

/-- Executors that take turns in one process. -/
structure Process (party μ : Type*) where
  /-- The run of each executor, with its own registers and its own bus. -/
  runs : party → Run μ
  /-- The static variables, which all executors share. -/
  statics : Statics
  /-- The calls of instruction functions made so far, most recent first. -/
  calls : List (party × Routine)

namespace Process

variable {party : Type*} [DecidableEq party] [Membus μ]

omit [DecidableEq party] [Membus μ] in
/-- The run of an executor on the static variables of the process. -/
def running (process : Process party μ) (side : party) : Run μ :=
  (process.runs side).sharing process.statics

/-- One executor goes on to its next resting point. -/
def step (process : Process party μ) (turn : party × Input) :
    Process party μ × List (party × Event) :=
  let result := (process.running turn.1).step .staged turn.2
  ({  runs := Function.update process.runs turn.1 result.1
      statics := result.1.statics
      calls :=
        ((process.running turn.1).called turn.2).toList.map (turn.1, ·) ++ process.calls },
    result.2.map (turn.1, ·))

/-- The machine of a process. -/
def machine (party μ : Type*) [DecidableEq party] [Membus μ] :
    Lib.Machine (Process party μ) (party × Input) (party × Event) where
  step := step

/-- No other executor has called a routine. -/
def Untouched (process : Process party μ) (side : party) (routine : Routine) : Prop :=
  ∀ call ∈ process.calls, call.2 = routine → call.1 = side

/-- The last call of a routine was made by an executor. -/
def LastCaller (process : Process party μ) (side : party) (routine : Routine) : Prop :=
  (process.calls.find? fun call => call.2 = routine).map Prod.fst = some side

/-- A call finds in the static variables of its function nothing that another executor left there:
no other executor has ever called the function, or the function reads only what the instruction has
assigned and, after the first call of the instruction, no other executor has called it since. -/
def CallsPrivately (process : Process party μ) (turn : party × Input) : Prop :=
  ∀ routine ∈ (process.running turn.1).called turn.2,
    process.Untouched turn.1 routine ∨
      (process.runs turn.1).loop.dispatch.addressingMode ∉ routine.residueModes ∧
        ((process.runs turn.1).loop.cycleCount = 1 ∨ process.LastCaller turn.1 routine)

instance (process : Process party μ) (side : party) (routine : Routine) :
    Decidable (process.Untouched side routine) :=
  inferInstanceAs (Decidable (∀ call ∈ process.calls, call.2 = routine → call.1 = side))

instance (process : Process party μ) (side : party) (routine : Routine) :
    Decidable (process.LastCaller side routine) :=
  inferInstanceAs (Decidable (_ = _))

instance (process : Process party μ) (turn : party × Input) :
    Decidable (process.CallsPrivately turn) :=
  inferInstanceAs (Decidable (∀ routine ∈ (process.running turn.1).called turn.2, _ ∨ _ ∧ (_ ∨ _)))

/-- The inputs of one executor's turns. -/
def turns (side : party) (schedule : List (party × Input)) : List Input :=
  schedule.filterMap fun turn => if turn.1 = side then some turn.2 else none

/-- At every moment each executor has the registers, the memory and the cycle count that it has
after the same turns when it runs alone. -/
def Independent (process : Process party μ) (schedule : List (party × Input)) : Prop :=
  ∀ front back, schedule = front ++ back → ∀ side,
    let together := ((machine party μ).run process front).runs side
    let alone := (loopMachine μ .staged).run (process.running side) (turns side front)
    together.executor.registers = alone.executor.registers ∧
      together.executor.memory = alone.executor.memory ∧
      together.loop.totalCycles = alone.loop.totalCycles

/-! ## Each executor beside its lonely run -/

/-- What ties the run of an executor in a process to the run it makes alone. -/
structure Linked (process : Process party μ) (side : party) (alone : Run μ) : Prop where
  /-- The runs differ at most in the static variables. -/
  agrees : alone = (process.runs side).sharing alone.statics
  /-- The current instruction was decoded by a table. -/
  decoded : (process.runs side).location = .cycle →
    (process.runs side).loop.dispatch.WellFormed
  /-- Functions that no other executor has called retain the same. -/
  untouched : ∀ routine, process.Untouched side routine →
    process.statics.routines routine = alone.statics.routines routine
  /-- The calls still to come of an instruction agree as long as no other executor calls its
  function. -/
  resumed : (process.runs side).location = .cycle →
    ∀ routine ∈ (process.runs side).loop.dispatch.staged,
      (process.runs side).loop.dispatch.addressingMode ∉ routine.residueModes →
        (process.runs side).loop.cycleCount ≠ 1 → process.LastCaller side routine →
          Alike (fun _ => ())
            (routine.staged (μ := μ) (process.runs side).loop.dispatch.addressingMode)
            (process.runs side).loop.cycleCount (process.statics.routines routine)
            (alone.statics.routines routine)

omit [DecidableEq party] in
/-- A private call does the same in the process and alone. -/
theorem Linked.callsAlike {process : Process party μ} {side : party} {alone : Run μ}
    (linked : process.Linked side alone) {input : Input}
    (calling : (process.running side).Calling input)
    (isPrivate : process.CallsPrivately (side, input)) :
    (process.runs side).CallsAlike process.statics alone.statics := by
  intro routine named
  have called_eq : (process.running side).called input = some routine :=
    (if_pos calling).trans named
  rcases isPrivate routine called_eq with untouched | ⟨fresh, first | last⟩
  · rw [linked.untouched routine untouched]
    exact .refl _ _ _ _
  all_goals
    have inside : (process.runs side).location = .cycle := calling.1
    have assigned := (linked.decoded inside).mode_mem named
    have forgets := routine.staged_forgets (μ := μ) assigned fresh
  · have first' : (process.runs side).loop.cycleCount = 1 := first
    rw [first']
    exact forgets _ _
  · by_cases first : (process.runs side).loop.cycleCount = 1
    · rw [first]
      exact forgets _ _
    · exact linked.resumed inside routine named fresh first last

theorem Untouched.of_step {process : Process party μ} {turn : party × Input} {side : party}
    {routine : Routine} (untouched : (process.step turn).1.Untouched side routine) :
    process.Untouched side routine :=
  fun call call_mem => untouched call (List.mem_append_right _ call_mem)

theorem Untouched.uncalled {process : Process party μ} {turn : party × Input} {side : party}
    {routine : Routine} (untouched : (process.step turn).1.Untouched side routine)
    (other : turn.1 ≠ side) : (process.running turn.1).called turn.2 ≠ some routine := by
  intro called_eq
  have call_mem : (turn.1, routine) ∈ (process.step turn).1.calls := by
    refine List.mem_append_left _ ?_
    rw [called_eq]
    exact List.mem_cons_self
  exact other (untouched _ call_mem rfl)

theorem LastCaller.of_step {process : Process party μ} {turn : party × Input} {side : party}
    {routine : Routine} (last : (process.step turn).1.LastCaller side routine)
    (other : turn.1 ≠ side) :
    (process.running turn.1).called turn.2 ≠ some routine ∧ process.LastCaller side routine := by
  unfold LastCaller step at last
  cases called_eq : (process.running turn.1).called turn.2 with
  | none =>
      rw [called_eq] at last
      exact ⟨nofun, last⟩
  | some callee =>
      rw [called_eq] at last
      by_cases same : callee = routine
      · subst same
        simp only [Option.toList_some, List.map_cons, List.map_nil, List.cons_append,
          List.find?_cons, decide_true, Option.map_some] at last
        exact absurd (Option.some.inj last) other
      · refine ⟨fun callee_eq => same (Option.some.inj callee_eq), ?_⟩
        simpa [LastCaller, same] using last

theorem Linked.step_own {process : Process party μ} {side : party} {alone : Run μ}
    (linked : process.Linked side alone) {input : Input}
    (isPrivate : process.CallsPrivately (side, input)) :
    (process.step (side, input)).1.Linked side (alone.step .staged input).1 := by
  have runs_eq : (process.step (side, input)).1.runs side =
      ((process.running side).step .staged input).1 := Function.update_self ..
  have statics_eq : (process.step (side, input)).1.statics =
      ((process.running side).step .staged input).1.statics := rfl
  by_cases calling : (process.running side).Calling input
  · have alike := linked.callsAlike calling isPrivate
    have callingHere := (Run.calling_sharing input (process.runs side) process.statics).mp calling
    obtain ⟨after, firstAfter, secondAfter, first_eq, second_eq, further, kept⟩ :=
      Run.step_sharing_of_calling callingHere alike
    have running_eq : ((process.running side).step .staged input).1 = after.sharing firstAfter :=
      first_eq
    have alone_eq : (alone.step .staged input).1 = after.sharing secondAfter := by
      rw [linked.agrees]
      exact second_eq
    have dispatch_eq := Run.step_dispatch_of_calling calling
    rw [running_eq] at runs_eq statics_eq dispatch_eq
    refine ⟨?_, fun _ => ?_, fun routine untouched => ?_, fun inside routine named _ _ _ => ?_⟩
    · rw [runs_eq, alone_eq]
      rfl
    · rw [runs_eq, dispatch_eq]
      exact linked.decoded calling.1
    · rw [statics_eq, alone_eq]
      exact (kept routine).2 (linked.untouched routine untouched.of_step)
    · rw [runs_eq] at inside named ⊢
      rw [statics_eq, alone_eq]
      exact further inside routine named
  · have quiet : ¬ (process.runs side).Calling input :=
      fun calls =>
        calling ((Run.calling_sharing input (process.runs side) process.statics).mpr calls)
    obtain ⟨after, firstAfter, secondAfter, first_eq, second_eq, firstKept, secondKept⟩ :=
      Run.step_sharing input quiet process.statics alone.statics
    have running_eq : ((process.running side).step .staged input).1 = after.sharing firstAfter :=
      first_eq
    have alone_eq : (alone.step .staged input).1 = after.sharing secondAfter := by
      rw [linked.agrees]
      exact second_eq
    have calls_eq : (process.step (side, input)).1.calls = process.calls := by
      unfold step Run.called
      rw [if_neg calling]
      rfl
    have decoding := Run.step_of_quiet calling
    rw [running_eq] at runs_eq statics_eq decoding
    refine ⟨?_, fun inside => ?_, fun routine untouched => ?_,
      fun inside routine named fresh later last => ?_⟩
    · rw [runs_eq, alone_eq]
      rfl
    · rw [runs_eq] at inside ⊢
      rcases decoding inside with ⟨formed, -⟩ | ⟨before, progress_eq⟩
      · exact formed
      · have dispatch_eq := congrArg Prod.fst progress_eq
        change after.loop.dispatch.WellFormed
        rw [show after.loop.dispatch = _ from dispatch_eq]
        exact linked.decoded before
    · rw [statics_eq, alone_eq]
      change firstAfter.routines routine = secondAfter.routines routine
      rw [firstKept, secondKept]
      exact linked.untouched routine untouched.of_step
    · rw [runs_eq] at inside named fresh later ⊢
      rw [statics_eq, alone_eq]
      rcases decoding inside with ⟨-, first⟩ | ⟨before, progress_eq⟩
      · exact absurd first later
      · have dispatch_eq : after.loop.dispatch = (process.runs side).loop.dispatch :=
          congrArg Prod.fst progress_eq
        have count_eq : after.loop.cycleCount = (process.runs side).loop.cycleCount :=
          congrArg (fun progress => progress.2.1) progress_eq
        have lastBefore : process.LastCaller side routine := by
          unfold LastCaller at last ⊢
          rwa [calls_eq] at last
        change routine ∈ after.loop.dispatch.staged at named
        change after.loop.dispatch.addressingMode ∉ routine.residueModes at fresh
        change after.loop.cycleCount ≠ 1 at later
        change Alike _ (routine.staged after.loop.dispatch.addressingMode) after.loop.cycleCount
          (firstAfter.routines routine) (secondAfter.routines routine)
        rw [dispatch_eq] at named fresh ⊢
        rw [count_eq] at later ⊢
        rw [firstKept, secondKept]
        exact linked.resumed before routine named fresh later lastBefore

theorem Linked.step_other {process : Process party μ} {side : party} {alone : Run μ}
    (linked : process.Linked side alone) {turn : party × Input} (other : turn.1 ≠ side) :
    (process.step turn).1.Linked side alone := by
  have runs_eq : (process.step turn).1.runs side = process.runs side :=
    Function.update_of_ne (Ne.symm other) _ _
  have routine_eq : ∀ routine, (process.running turn.1).called turn.2 ≠ some routine →
      (process.step turn).1.statics.routines routine = process.statics.routines routine :=
    fun routine uncalled => Run.step_routines uncalled
  refine ⟨?_, ?_, fun routine untouched => ?_, fun inside routine named fresh later last => ?_⟩
  · rw [runs_eq]
    exact linked.agrees
  · rw [runs_eq]
    exact linked.decoded
  · rw [routine_eq routine (untouched.uncalled other)]
    exact linked.untouched routine untouched.of_step
  · obtain ⟨uncalled, lastBefore⟩ := last.of_step other
    rw [runs_eq] at inside named fresh later ⊢
    rw [routine_eq routine uncalled]
    exact linked.resumed inside routine named fresh later lastBefore

theorem linked_run {process : Process party μ} {alone : party → Run μ}
    (schedule : List (party × Input)) (linked : ∀ side, process.Linked side (alone side))
    (meets : (machine party μ).Meets CallsPrivately process schedule) (side : party) :
    ((machine party μ).run process schedule).Linked side
      ((loopMachine μ .staged).run (alone side) (turns side schedule)) := by
  induction schedule generalizing process alone with
  | nil => exact linked side
  | cons turn rest ih =>
      have after : ∀ side, (process.step turn).1.Linked side
          (if turn.1 = side then ((alone side).step .staged turn.2).1 else alone side) := by
        intro side
        by_cases own : turn.1 = side
        · rw [if_pos own]
          subst own
          exact (linked turn.1).step_own meets.1
        · rw [if_neg own]
          exact (linked side).step_other own
      have further := ih after meets.2
      by_cases own : turn.1 = side
      · have turns_eq : turns side (turn :: rest) = turn.2 :: turns side rest := by
          simp [turns, own]
        rw [if_pos own] at further
        rw [turns_eq]
        exact further
      · have turns_eq : turns side (turn :: rest) = turns side rest := by
          simp [turns, own]
        rw [if_neg own] at further
        rw [turns_eq]
        exact further

/-- Executors launched in one process. -/
def launch (executors : party → Executor μ) (ranges : party → MemoryAddrRange)
    (PCs : party → Word) (residues : party → Loop) (statics : Statics) : Process party μ where
  runs side := Run.launch (executors side) (ranges side) (PCs side) (residues side)
  statics
  calls := []

/-- As long as every call finds nothing in the static variables of its function that another
executor left there, each executor runs as it does alone. -/
theorem independent_of_callsPrivately (executors : party → Executor μ)
    (ranges : party → MemoryAddrRange) (PCs : party → Word) (residues : party → Loop)
    (statics : Statics) (schedule : List (party × Input))
    (isPrivate : (machine party μ).Meets CallsPrivately
      (launch executors ranges PCs residues statics) schedule) :
    (launch executors ranges PCs residues statics).Independent schedule := by
  rintro front back rfl side
  have initial : ∀ side, (launch executors ranges PCs residues statics).Linked side
      ((launch executors ranges PCs residues statics).running side) :=
    fun side => ⟨rfl, nofun, fun _ _ => rfl, nofun⟩
  have linked := linked_run front initial ((Machine.meets_append _ _ _ _ _).mp isPrivate).1 side
  dsimp only
  rw [linked.agrees]
  exact ⟨rfl, rfl, rfl⟩

/-- Two executors that both start with `LDA 0x10` or `LDA 0x20`, each from its own memory. -/
def twoLoads : Process Bool Ram :=
  launch
    (fun side =>
      Executor.alloc Registers.reset
        (fun address =>
          if address = 0x0200 then 0xA5
          else if address = 0x0201 then if side then 0x10 else 0x20
          else if address = 0x0010 then 0x01
          else 0x02)
        .base)
    (fun _ => { addrLo := 0x0000, addrLen := 0xFFFF }) (fun _ => 0x0200) (fun _ => Loop.zero)
    { routines := fun _ => Locals.zero, interrupts := fun _ => Locals.zero }

/-- Turns without requests from other threads. -/
def quietly (sides : List Bool) : List (Bool × Input) :=
  sides.map fun side => (side, Input.quiet .nextCycle Locals.zero)

/-- The two loads one after the other. -/
theorem independent_A5 : twoLoads.Independent (quietly [true, false, true, true, false, false]) :=
  independent_of_callsPrivately _ _ _ _ _ (quietly [true, false, true, true, false, false])
    (by decide)

/-- Each load between the two calls of the other: the first one loads from the address of the
second. -/
theorem not_independent_A5 :
    ¬ twoLoads.Independent (quietly [true, true, false, false, true, false]) := by
  intro independent
  have registers_eq :=
    (independent (quietly [true, true, false, false, true, false]) [] rfl true).1
  have loaded_eq := congrArg Registers.A registers_eq
  revert loaded_eq
  decide

end Process
end System6502
