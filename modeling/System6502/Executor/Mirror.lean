import System6502.Executor.Exclusion
import System6502.Executor.Interleaving
import System6502.Isa.Overlay

/-!
# What a program can tell

The part of a run that decides how its program goes on.  Two runs that agree in this part, and in
memory outside a region that the program does not touch, keep agreeing from step to step.
-/

namespace System6502

open Lib System6502.Frame

/-- What the program of a run depends on, its memory aside. -/
structure View where
  /-- Register file. -/
  registers : Registers
  /-- Dispatch table. -/
  dialect : Dialect
  /-- Static variables of the instruction functions. -/
  statics : Routine → Locals
  /-- Static variables of the interrupt functions. -/
  interruptStatics : Interrupt → Locals
  /-- `executor_flags_nmi_is_set`. -/
  nmi : Bool
  /-- `executor_flags_irq_is_set`. -/
  irq : Bool
  /-- `executor_flags_exec_stop`. -/
  execStop : Bool
  /-- `PC_end`. -/
  PCEnd : Nat
  /-- `dispatch`. -/
  dispatch : Dispatch
  /-- `instr_context.cycle_count`. -/
  cycleCount : Nat
  /-- Where the loop rests. -/
  location : Location

/-- The view of a run. -/
def Run.view {μ : Type*} (run : Run μ) : View where
  registers := run.executor.registers
  dialect := run.executor.dialect
  statics := run.executor.statics
  interruptStatics := run.executor.interruptStatics
  nmi := run.executor.flags.nmi
  irq := run.executor.flags.irq
  execStop := run.executor.flags.execStop
  PCEnd := run.loop.PCEnd
  dispatch := run.loop.dispatch
  cycleCount := run.loop.cycleCount
  location := run.location

/-- A request for anything but a transfer changes a flag. -/
def View.request (view : View) : Request → View
  | .setIRQ => { view with irq := true }
  | .setNMI => { view with nmi := true }
  | .setExecStop => { view with execStop := true }
  | .setDMACopyin .. | .setDMACopyout .. => view

instance : DecidablePred Request.IsTransfer
  | .setDMACopyin .. | .setDMACopyout .. => isTrue trivial
  | .setIRQ | .setNMI | .setExecStop => isFalse id

/-- The requests that are not for transfers. -/
def signals (pending : List Request) : List Request :=
  pending.filter fun request => ¬ request.IsTransfer

theorem not_isTransfer_of_mem_signals {pending : List Request} :
    ∀ request ∈ signals pending, ¬ request.IsTransfer := by
  intro request signal
  simpa using (List.mem_filter.mp signal).2

@[simp]
theorem signals_append (front back : List Request) :
    signals (front ++ back) = signals front ++ signals back := List.filter_append ..

namespace Run

variable {μ : Type*}

/-- The run after some requests. -/
def afterRequests (pending : List Request) (run : Run μ) : Run μ :=
  run.onExecutor fun executor => executor.requests pending

theorem afterRequests_append (front back : List Request) (run : Run μ) :
    run.afterRequests (front ++ back) = (run.afterRequests front).afterRequests back := by
  simp only [afterRequests, onExecutor, Executor.requests, List.foldl_append]

theorem view_request (run : Run μ) (request : Request) :
    (run.onExecutor fun executor => executor.request request).view = run.view.request request := by
  cases request with
  | setIRQ | setNMI | setExecStop => rfl
  | setDMACopyin | setDMACopyout =>
      unfold onExecutor Executor.request
      dsimp only
      split <;> rfl

theorem view_afterRequests (pending : List Request) (run : Run μ) :
    (run.afterRequests pending).view = pending.foldl View.request run.view := by
  induction pending generalizing run with
  | nil => rfl
  | cons first rest ih =>
      calc
        (run.afterRequests (first :: rest)).view =
            ((run.onExecutor fun executor => executor.request first).afterRequests rest).view := rfl
        _ = rest.foldl View.request
              (run.onExecutor fun executor => executor.request first).view := ih _
        _ = (first :: rest).foldl View.request run.view := by
              rw [view_request, List.foldl_cons]

theorem foldl_request_signals (pending : List Request) (view : View) :
    (signals pending).foldl View.request view = pending.foldl View.request view := by
  induction pending generalizing view with
  | nil => rfl
  | cons first rest ih =>
      cases first with
      | setIRQ | setNMI | setExecStop => exact ih _
      | setDMACopyin | setDMACopyout => exact ih view

@[simp]
theorem afterRequests_memory (pending : List Request) (run : Run μ) :
    (run.afterRequests pending).executor.memory = run.executor.memory :=
  congrArg Core.memory (run.executor.requests_core pending)

@[simp]
theorem afterRequests_registers (pending : List Request) (run : Run μ) :
    (run.afterRequests pending).executor.registers = run.executor.registers :=
  congrArg Core.registers (run.executor.requests_core pending)

end Run

/-! ## Runs that mirror each other -/

/-- The first run has the view of the second, and the same memory outside a region. -/
structure Mirrors (region : Set Word) (run : Run Ram) (alone : Run (Traced Ram)) : Prop where
  /-- The same view. -/
  view_eq : run.view = alone.view
  /-- The same memory outside the region. -/
  memory_eq : Set.EqOn run.executor.memory alone.executor.memory.bus (regionᶜ)

/-- A step whose accesses stay outside a region comes after steps whose accesses did; a run that
mirrors the one before it has a step that mirrors it. -/
def Accompanies (region : Set Word) (step : Run Ram → Run Ram × List Event)
    (aloneStep : Run (Traced Ram) → Run (Traced Ram) × List Event) : Prop :=
  ∀ alone, (aloneStep alone).1.executor.memory.Avoids region →
    alone.executor.memory.Avoids region ∧
      ∀ run, Mirrors region run alone →
        Mirrors region (step run).1 (aloneStep alone).1 ∧ (step run).2 = (aloneStep alone).2

namespace Run

variable {region : Set Word}

/-- Requests for transfers make no difference to what a program can tell. -/
theorem mirrors_afterRequests {run : Run Ram} {alone : Run (Traced Ram)}
    (mirrors : Mirrors region run alone) (pending : List Request) :
    Mirrors region (run.afterRequests pending) (alone.afterRequests (signals pending)) := by
  refine ⟨?_, ?_⟩
  · rw [view_afterRequests, view_afterRequests, foldl_request_signals, mirrors.view_eq]
  · rw [afterRequests_memory, afterRequests_memory]
    exact mirrors.memory_eq

theorem fetchStep_accompanies (input other : Input) :
    Accompanies region (fetchStep input) (fetchStep other) := by
  intro alone avoids
  by_cases goes : alone.executor.flags.execStop = false ∧
      alone.executor.registers.PC.toNat < alone.loop.PCEnd
  · have outside : alone.executor.registers.PC ∉ region ∧
        alone.executor.memory.Avoids region := by
      unfold fetchStep at avoids
      dsimp only at avoids
      rw [if_pos goes] at avoids
      split at avoids <;> exact List.forall_mem_cons.mp avoids
    refine ⟨outside.2, fun run mirrors => ?_⟩
    have byte_eq := mirrors.memory_eq outside.1
    obtain ⟨view_eq, memory_eq⟩ := mirrors
    obtain ⟨⟨_, registers, memory, dialect, _, _, _, _, _, _, _⟩, loop, _⟩ := run
    obtain ⟨⟨_, _, ⟨bus, log⟩, _, _, _, _, _, _, _, _⟩, _, _⟩ := alone
    simp only [view, View.mk.injEq] at view_eq
    obtain ⟨rfl, rfl, rfl, rfl, nmi_eq, irq_eq, stop_eq, PCEnd_eq, -, -, -⟩ := view_eq
    dsimp only at goes byte_eq memory_eq
    have goesToo := goes
    rw [← stop_eq, ← PCEnd_eq] at goesToo
    have read_eq : Membus.readAddr (Traced.mk bus log) registers.PC =
        (bus registers.PC, Traced.mk bus (.read registers.PC (bus registers.PC) :: log)) := rfl
    unfold fetchStep
    simp only [if_pos goes, if_pos goesToo, Ram.readAddr_eq, read_eq, byte_eq]
    by_cases undefined : (dialect.lookup (bus registers.PC)).addressingMode = .undefined
    · simp only [if_pos undefined]
      refine ⟨⟨?_, memory_eq⟩, trivial⟩
      simp [view, leave, goto, onExecutor, nmi_eq, irq_eq, PCEnd_eq]
    · simp only [if_neg undefined]
      refine ⟨⟨?_, memory_eq⟩, trivial⟩
      simp [view, goto, nmi_eq, irq_eq, PCEnd_eq, stop_eq]
  · have alone_eq : alone.fetchStep other = (alone.leave, [.leave]) := if_neg goes
    rw [alone_eq] at avoids ⊢
    refine ⟨avoids, fun run mirrors => ?_⟩
    obtain ⟨view_eq, memory_eq⟩ := mirrors
    have stays : ¬ (run.executor.flags.execStop = false ∧
        run.executor.registers.PC.toNat < run.loop.PCEnd) := by
      intro goesToo
      apply goes
      rwa [show run.executor.flags.execStop = alone.executor.flags.execStop from
        congrArg View.execStop view_eq, show run.executor.registers = alone.executor.registers from
        congrArg View.registers view_eq, show run.loop.PCEnd = alone.loop.PCEnd from
        congrArg View.PCEnd view_eq] at goesToo
    have run_eq : run.fetchStep input = (run.leave, [.leave]) := if_neg stays
    rw [run_eq]
    have left_eq := congrArg (fun view : View =>
      { view with execStop := false, location := .returned }) view_eq
    exact ⟨⟨left_eq, memory_eq⟩, rfl⟩

theorem goto_mirrors {run : Run Ram} {alone : Run (Traced Ram)}
    (mirrors : Mirrors region run alone) (location : Location) :
    Mirrors region (run.goto location) (alone.goto location) :=
  ⟨congrArg (fun view : View => { view with location }) mirrors.view_eq, mirrors.memory_eq⟩

/-- Two runs that mirror each other call a function with frames that differ in the region. -/
theorem frame_overlaid [DecidablePred (· ∈ region)] {run : Run Ram} {alone : Run (Traced Ram)}
    (mirrors : Mirrors region run alone) (locals : Locals) :
    run.executor.frame locals =
      (alone.executor.frame locals).overlaid region run.executor.memory := by
  have memory_eq : run.executor.memory =
      region.piecewise run.executor.memory alone.executor.memory.bus := by
    funext address
    by_cases inside : address ∈ region
    · exact (Set.piecewise_eq_of_mem _ _ _ inside).symm
    · rw [Set.piecewise_eq_of_notMem _ _ _ inside]
      exact mirrors.memory_eq inside
  have registers_eq : run.executor.registers = alone.executor.registers :=
    congrArg View.registers mirrors.view_eq
  calc
    run.executor.frame locals =
        { memory := region.piecewise run.executor.memory alone.executor.memory.bus
          registers := alone.executor.registers
          locals } := by rw [← memory_eq, ← registers_eq]; rfl
    _ = (alone.executor.frame locals).overlaid region run.executor.memory := rfl

theorem afterCycle_mirrors {run : Run Ram} {alone : Run (Traced Ram)}
    (mirrors : Mirrors region run alone) (stage_eq : run.loop.nextStage = alone.loop.nextStage) :
    Mirrors region (run.afterCycle .staged) (alone.afterCycle .staged) := by
  have location_eq : run.location = alone.location := congrArg View.location mirrors.view_eq
  unfold afterCycle
  rw [location_eq, stage_eq]
  by_cases null : alone.location = .nullCall
  · rw [if_pos null, if_pos null]
    exact mirrors
  · rw [if_neg null, if_neg null]
    by_cases ended : alone.loop.nextStage = .instrEnd
    · simp only [if_pos ended]
      exact goto_mirrors mirrors .boundary
    · simp only [if_neg ended]
      exact goto_mirrors mirrors .cycle

theorem afterCycle_executor {μ : Type*} (run : Run μ) :
    (run.afterCycle .staged).executor = run.executor := by
  unfold afterCycle
  split
  · rfl
  · dsimp only
    split <;> rfl

/-- One pass through the inner loop that calls the function of the current instruction. -/
def callCycle {μ : Type*} [Membus μ] (run : Run μ) : Run μ × List Event :=
  (run.stagedCall.1.afterCycle .staged, run.stagedCall.2)

theorem callCycle_accompanies : Accompanies region callCycle callCycle := by
  classical
  intro alone avoids
  unfold callCycle at avoids ⊢
  cases named : alone.loop.dispatch.staged with
  | none =>
      rw [stagedCall_of_none alone named] at avoids ⊢
      refine ⟨avoids, fun run mirrors => ?_⟩
      have dispatch_eq : run.loop.dispatch = alone.loop.dispatch :=
        congrArg View.dispatch mirrors.view_eq
      rw [← dispatch_eq] at named
      rw [stagedCall_of_none run named]
      exact ⟨goto_mirrors mirrors .nullCall, rfl⟩
  | some routine =>
      rcases call_eq : routine.staged alone.loop.dispatch.addressingMode alone.loop.cycleCount
        (alone.executor.frame (alone.executor.statics routine)) with ⟨after, stage⟩
      rw [stagedCall_of_some alone named call_eq] at avoids ⊢
      rw [afterCycle_executor] at avoids
      have overlays : ∀ other : Ram, Overlays region other
          (routine.staged alone.loop.dispatch.addressingMode alone.loop.cycleCount)
          (routine.staged alone.loop.dispatch.addressingMode alone.loop.cycleCount) :=
        fun _ => routine.staged_overlays _ _
      have calledAvoids : (routine.staged alone.loop.dispatch.addressingMode alone.loop.cycleCount
          (alone.executor.frame (alone.executor.statics routine))).1.memory.Avoids region := by
        rw [call_eq]
        exact avoids
      refine ⟨(overlays (fun _ => 0) _ calledAvoids).1, fun run mirrors => ?_⟩
      obtain ⟨-, replayed_eq⟩ := overlays run.executor.memory _ calledAvoids
      rw [← frame_overlaid mirrors, call_eq] at replayed_eq
      have dispatch_eq : run.loop.dispatch = alone.loop.dispatch :=
        congrArg View.dispatch mirrors.view_eq
      have cycle_eq : run.loop.cycleCount = alone.loop.cycleCount :=
        congrArg View.cycleCount mirrors.view_eq
      have statics_eq : run.executor.statics = alone.executor.statics :=
        congrArg View.statics mirrors.view_eq
      rw [← dispatch_eq] at named
      rw [← dispatch_eq, ← cycle_eq, ← statics_eq] at replayed_eq
      rw [stagedCall_of_some run named replayed_eq]
      have called_eq := congrArg (fun view : View =>
        { view with
          registers := after.registers
          statics := Function.update view.statics routine after.locals
          cycleCount := view.cycleCount + 1 }) mirrors.view_eq
      refine ⟨afterCycle_mirrors ⟨called_eq, ?_⟩ rfl, rfl⟩
      exact Set.piecewise_eqOn_compl _ _ _

/-! ## Interrupts -/

theorem service_accompanies {interrupt : Interrupt} {alone : Run (Traced Ram)} {calls : Nat}
    {after : Frame (Traced Ram)}
    (ended : runCalls interrupt.staged 6 1
      (alone.executor.frame (alone.executor.interruptStatics interrupt)) = some (calls, after))
    (avoids : (alone.service interrupt).1.executor.memory.Avoids region) :
    alone.executor.memory.Avoids region ∧
      ∀ run, Mirrors region run alone →
        Mirrors region (run.service interrupt).1 (alone.service interrupt).1 ∧
          (run.service interrupt).2 = (alone.service interrupt).2 := by
  classical
  rw [service_of_some alone ended] at avoids ⊢
  have overlays : ∀ (other : Ram) (cycle : Nat),
      Overlays region other (interrupt.staged cycle) (interrupt.staged cycle) :=
    fun _ => interrupt.staged_overlays
  refine ⟨(runCalls_overlaid (overlays fun _ => 0) ended avoids).1, fun run mirrors => ?_⟩
  obtain ⟨-, replayed_eq⟩ := runCalls_overlaid (overlays run.executor.memory) ended avoids
  have statics_eq : run.executor.interruptStatics = alone.executor.interruptStatics :=
    congrArg View.interruptStatics mirrors.view_eq
  rw [← frame_overlaid mirrors, ← statics_eq] at replayed_eq
  rw [service_of_some run replayed_eq]
  have serviced_eq := congrArg (fun view : View =>
    { view with
      registers := after.registers
      interruptStatics := Function.update view.interruptStatics interrupt after.locals
      cycleCount := calls + 1 }) mirrors.view_eq
  refine ⟨⟨serviced_eq, Set.piecewise_eqOn_compl _ _ _⟩, ?_⟩
  simp only [service, ended, replayed_eq]

theorem serviceIRQ_accompanies : Accompanies region serviceIRQ serviceIRQ := by
  intro alone avoids
  by_cases serviced :
      (alone.executor.flags.irq && !alone.executor.registers.getBit Registers.bitI) = true
  · have clear : alone.executor.registers.getBit Registers.bitI = false := by
      simpa using (Bool.and_eq_true_iff.mp serviced).2
    have ended := runCalls_stagedIRQ alone.executor.dialect.inhibit
      alone.executor.dialect.inhibit_bitI 2
      (alone.executor.frame (alone.executor.interruptStatics alone.executor.dialect.irq)) clear
    rw [← Dialect.irq_staged] at ended
    have alone_eq : alone.serviceIRQ = alone.service alone.executor.dialect.irq := if_pos serviced
    rw [alone_eq] at avoids ⊢
    obtain ⟨before, follows⟩ := service_accompanies ended avoids
    refine ⟨before, fun run mirrors => ?_⟩
    have run_eq : run.serviceIRQ = run.service alone.executor.dialect.irq := by
      have flag_eq := congrArg (fun view : View =>
        view.irq && !view.registers.getBit Registers.bitI) mirrors.view_eq
      have dialect_eq : run.executor.dialect = alone.executor.dialect :=
        congrArg View.dialect mirrors.view_eq
      rw [← dialect_eq]
      exact if_pos (flag_eq.trans serviced)
    rw [run_eq]
    exact follows run mirrors
  · have alone_eq : alone.serviceIRQ = (alone, []) := if_neg serviced
    rw [alone_eq] at avoids ⊢
    refine ⟨avoids, fun run mirrors => ?_⟩
    have flag_eq := congrArg (fun view : View =>
      view.irq && !view.registers.getBit Registers.bitI) mirrors.view_eq
    have run_eq : run.serviceIRQ = (run, []) :=
      if_neg fun flag => serviced (flag_eq.symm.trans flag)
    rw [run_eq]
    exact ⟨mirrors, rfl⟩

theorem serviceNMI_accompanies : Accompanies region serviceNMI serviceNMI := by
  intro alone avoids
  by_cases pending : alone.executor.flags.nmi = true
  · have ended := runCalls_interruptCycles memoryAddrNMIVector alone.executor.dialect.inhibit 1
      (alone.executor.frame (alone.executor.interruptStatics alone.executor.dialect.nmi))
    rw [← Dialect.nmi_staged] at ended
    have alone_eq : alone.serviceNMI = alone.service alone.executor.dialect.nmi := if_pos pending
    rw [alone_eq] at avoids ⊢
    obtain ⟨before, follows⟩ := service_accompanies ended avoids
    refine ⟨before, fun run mirrors => ?_⟩
    have run_eq : run.serviceNMI = run.service alone.executor.dialect.nmi := by
      have flag_eq : run.executor.flags.nmi = alone.executor.flags.nmi :=
        congrArg View.nmi mirrors.view_eq
      have dialect_eq : run.executor.dialect = alone.executor.dialect :=
        congrArg View.dialect mirrors.view_eq
      rw [← dialect_eq]
      exact if_pos (flag_eq.trans pending)
    rw [run_eq]
    exact follows run mirrors
  · have alone_eq : alone.serviceNMI = (alone, []) := if_neg pending
    rw [alone_eq] at avoids ⊢
    refine ⟨avoids, fun run mirrors => ?_⟩
    have flag_eq : run.executor.flags.nmi = alone.executor.flags.nmi :=
      congrArg View.nmi mirrors.view_eq
    have run_eq : run.serviceNMI = (run, []) :=
      if_neg fun flag => pending (flag_eq.symm.trans flag)
    rw [run_eq]
    exact ⟨mirrors, rfl⟩

theorem boundaryStep_eq {μ : Type*} [Membus μ] {run : Run μ} (here : run.location = .boundary)
    (input : Input) :
    run.boundaryStep input =
      ((run.afterRequests input.requests).serviceIRQ.1.serviceNMI.1.clearInterrupts.goto .fetch,
        [.unlock, .lock] ++ (run.afterRequests input.requests).serviceIRQ.2 ++
          (run.afterRequests input.requests).serviceIRQ.1.serviceNMI.2) := by
  have running : (run.afterRequests input.requests).serviceIRQ.1.serviceNMI.1.location ≠ .hung := by
    rw [(serviceNMI_spec _).1, (serviceIRQ_spec _).1]
    intro hung
    cases here.symm.trans hung
  unfold afterRequests at running ⊢
  simp only [boundaryStep]
  rw [if_neg running]

theorem boundaryStep_accompanies {input other : Input}
    (same : other.requests = signals input.requests) {alone : Run (Traced Ram)}
    (here : alone.location = .boundary)
    (avoids : (alone.boundaryStep other).1.executor.memory.Avoids region) :
    alone.executor.memory.Avoids region ∧
      ∀ run, Mirrors region run alone →
        Mirrors region (run.boundaryStep input).1 (alone.boundaryStep other).1 ∧
          (run.boundaryStep input).2 = (alone.boundaryStep other).2 := by
  rw [boundaryStep_eq here, same] at avoids ⊢
  obtain ⟨between, nmiFollows⟩ := serviceNMI_accompanies _ avoids
  obtain ⟨admitted, irqFollows⟩ := serviceIRQ_accompanies _ between
  rw [afterRequests_memory] at admitted
  refine ⟨admitted, fun run mirrors => ?_⟩
  have hereToo : run.location = .boundary :=
    (congrArg View.location mirrors.view_eq).trans here
  obtain ⟨irqMirrors, irqEvents⟩ := irqFollows _ (mirrors_afterRequests mirrors input.requests)
  obtain ⟨nmiMirrors, nmiEvents⟩ := nmiFollows _ irqMirrors
  rw [boundaryStep_eq hereToo, irqEvents, nmiEvents]
  have cleared_eq := congrArg (fun view : View =>
    { view with irq := false, nmi := false, location := .fetch }) nmiMirrors.view_eq
  exact ⟨⟨cleared_eq, nmiMirrors.memory_eq⟩, rfl⟩

end Run
end System6502
