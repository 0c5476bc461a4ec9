import System6502.Executor.CacheSwitch
import System6502.Executor.Verbose
import System6502.Membus.Composition

/-!
# The eight run loops in step

The copies of a run loop differ in the lock, in the calls of their callback and in the caches of
the bus.  They go through the same registers, flags, cycles, devices and accesses.
-/

namespace System6502

open Lib

/-- What the devices and the DMA callbacks see of a notice. -/
def Notice.observed : Notice → Option Event
  | .event .lock | .event .unlock | .stage _ => none
  | .event happened => some happened

/-- What they see of a list of notices. -/
def observed (notices : List Notice) : List Event := notices.filterMap Notice.observed

@[simp]
theorem observed_nil : observed [] = [] := rfl

@[simp]
theorem observed_append (front back : List Notice) :
    observed (front ++ back) = observed front ++ observed back :=
  List.filterMap_append

namespace RunLoop

@[simp]
theorem observed_notify (loop : RunLoop) (call : StageCall) : observed (loop.notify call) = [] := by
  unfold notify
  split
  · rfl
  · rfl

@[simp]
theorem observed_release (loop : RunLoop) : observed loop.release = [] := by
  unfold release
  split <;> rfl

@[simp]
theorem observed_complete {μ : Type*} (loop : RunLoop) (run : Run μ) :
    observed (loop.complete run) = [] :=
  loop.observed_notify _

end RunLoop

/-! ## One step -/

section Erasure

variable {μ ν : Type*} [CachedMembus μ] [Membus ν] (project : μ → ν) [CacheErasure project]

/-- A step of a loop and a step of the plain loop on the projected bus end alike and show the same
to the outside. -/
structure Shows (outcome : Run μ × List Notice) (plain : Run ν × List Event) : Prop where
  /-- The runs. -/
  project_eq : outcome.1.project project = plain.1
  /-- The events. -/
  observed_eq : observed outcome.2 = observed (plain.2.map .event)

variable {project}

@[simp]
theorem Run.setCacheDisable_project (run : Run μ) :
    run.setCacheDisable.project project = run.project project := by
  have memory_eq : project (CachedMembus.setCacheDisable run.executor.memory
      run.executor.cacheDisable) = project run.executor.memory :=
    CacheErasure.setCacheDisable _ _
  unfold Run.setCacheDisable Run.onExecutor Run.project Executor.project
  rw [memory_eq]

theorem CachePop.runAll_project (pops : List CachePop) (memory : μ) :
    project (runAll pops memory).2 = project memory := by
  induction pops generalizing memory with
  | nil => rfl
  | cons first rest ih =>
      have first_eq : project (first.run memory).2 = project memory := by
        cases first with
        | read => exact CacheErasure.rcachePop memory
        | write => exact CacheErasure.wcachePop memory
      exact (ih (first.run memory).2).trans first_eq

namespace RunLoop

variable (project)

theorem disassemble_shows (loop : RunLoop) (run : Run μ) :
    Shows project (loop.disassemble run) (run.project project, []) := by
  unfold disassemble
  split
  · exact ⟨rfl, rfl⟩
  · rename_i pops _
    split
    · have memory_eq : project (CachePop.runAll pops run.executor.memory).2 =
          project run.executor.memory := CachePop.runAll_project pops run.executor.memory
      refine ⟨?_, rfl⟩
      dsimp only
      unfold Run.onExecutor Run.project Executor.project
      rw [memory_eq]
    · exact ⟨rfl, rfl⟩

theorem dmaCycle_shows (input : Input) (run : Run μ) :
    Shows project (dmaCycle input run) ((run.project project).dmaCycle input) := by
  rw [Run.dmaCycle_project]
  exact ⟨Run.setCacheDisable_project _, rfl⟩

theorem fetchStep_shows (loop : RunLoop) (input : Input) (run : Run μ) :
    Shows project (loop.fetchStep input run) ((run.project project).fetchStep input) := by
  rw [Run.fetchStep_project]
  unfold fetchStep
  dsimp only
  by_cases continues : run.executor.flags.execStop = false ∧
      run.executor.registers.PC.toNat < run.loop.PCEnd
  · rw [if_pos continues]
    unfold Run.fetchStep
    dsimp only
    rw [if_pos continues]
    by_cases undefined : (run.executor.dialect.lookup
        (Membus.readAddr run.executor.memory run.executor.registers.PC).1).addressingMode =
          .undefined
    · rw [if_pos undefined]
      split
      · refine ⟨rfl, ?_⟩
        simp only [observed_append, observed_notify, observed_complete, List.nil_append,
          List.append_nil]
        rfl
      · rename_i defined
        exact absurd undefined defined
    · rw [if_neg undefined]
      split
      · rename_i other
        exact absurd other undefined
      · refine ⟨rfl, ?_⟩
        simp only [observed_append, observed_notify, List.nil_append, List.append_nil]
        rfl
  · rw [if_neg continues]
    unfold Run.fetchStep
    dsimp only
    rw [if_neg continues]
    refine ⟨rfl, ?_⟩
    rw [observed_append, observed_complete, List.append_nil]
    rfl

theorem dispatchCycle_shows (loop : RunLoop) (input : Input) {run : Run μ}
    (idle : run.loop.isInDMA = false) :
    let passed := loop.dispatchCycle input run
    Shows project (passed.1.afterCycle loop.mode, passed.2)
      ((run.project project).cycleStep loop.mode input) := by
  have admitted_eq : (run.project project).admitRequests input = _ :=
    Run.admitRequests_project input run
  unfold dispatchCycle
  dsimp only
  split
  · rename_i requested
    have shown := dmaCycle_shows project input
      (run.admitRequests input).beginDMA.setCacheDisable
    have requested' : ((run.project project).admitRequests input).executor.flags.dma = true := by
      rw [admitted_eq]
      exact requested
    rw [Run.setCacheDisable_project] at shown
    have idle' : (run.project project).loop.isInDMA = false := idle
    rw [Run.cycleStep_of_requested loop.mode input idle' requested', admitted_eq]
    refine ⟨?_, ?_⟩
    · dsimp only
      rw [← Run.afterCycle_project]
      exact congrArg (Run.afterCycle loop.mode) shown.project_eq
    · rw [observed_append, observed_append, observed_release, observed_notify, shown.observed_eq]
      rfl
  · rename_i quiet
    have idle' : (run.project project).loop.isInDMA = false := idle
    have quiet' : ((run.project project).admitRequests input).executor.flags.dma = false := by
      rw [admitted_eq]
      exact Bool.eq_false_of_not_eq_true quiet
    rw [Run.cycleStep_of_idle loop.mode input idle' quiet', admitted_eq, Run.callStep_project]
    refine ⟨(Run.afterCycle_project _ _).symm, ?_⟩
    rw [Run.callStep_events]
    dsimp only
    rw [observed_append, observed_append, observed_append, observed_release, observed_notify]
    split
    · rfl
    · rw [observed_notify]
      rfl

theorem cycleStep_shows (loop : RunLoop) (input : Input) (run : Run μ) :
    Shows project (loop.cycleStep input run) ((run.project project).cycleStep loop.mode input) := by
  have passed : ∃ passed, (if run.loop.isInDMA then dmaCycle input run
      else loop.dispatchCycle input run) = passed ∧ Shows project
        (passed.1.afterCycle loop.mode, passed.2)
        ((run.project project).cycleStep loop.mode input) := by
    split
    · rename_i active
      have active' : (run.project project).loop.isInDMA = true := active
      have shown := dmaCycle_shows project input run
      refine ⟨_, rfl, ?_⟩
      rw [Run.cycleStep_of_active loop.mode input active']
      refine ⟨?_, shown.observed_eq⟩
      dsimp only
      rw [← Run.afterCycle_project]
      exact congrArg (Run.afterCycle loop.mode) shown.project_eq
    · rename_i idle
      exact ⟨_, rfl, loop.dispatchCycle_shows project input (Bool.eq_false_of_not_eq_true idle)⟩
  obtain ⟨passed, passed_eq, shown⟩ := passed
  unfold cycleStep
  rw [passed_eq]
  dsimp only
  split
  · have disassembled := loop.disassemble_shows project (passed.1.afterCycle loop.mode)
    refine ⟨disassembled.project_eq.trans shown.project_eq, ?_⟩
    rw [observed_append, observed_append, observed_notify, disassembled.observed_eq,
      shown.observed_eq]
    exact (List.append_nil _).trans (List.append_nil _)
  · exact shown

theorem service_shows (loop : RunLoop) (interrupt : Interrupt) (enter leave : CallbackStage)
    (run : Run μ) :
    Shows project (loop.service interrupt enter leave run)
      ((run.project project).service interrupt) := by
  rw [Run.service_project]
  refine ⟨rfl, ?_⟩
  unfold service
  dsimp only
  rw [observed_append, observed_append, observed_notify]
  split
  · exact List.append_nil _
  · rw [observed_notify]
    exact List.append_nil _

theorem serviceIRQ_shows (loop : RunLoop) (run : Run μ) :
    Shows project (loop.serviceIRQ run) (run.project project).serviceIRQ := by
  have flags_eq : (run.project project).executor.flags = run.executor.flags := rfl
  have registers_eq : (run.project project).executor.registers = run.executor.registers := rfl
  unfold serviceIRQ Run.serviceIRQ
  rw [flags_eq, registers_eq]
  split
  · exact loop.service_shows project _ _ _ run
  · exact ⟨rfl, rfl⟩

theorem serviceNMI_shows (loop : RunLoop) (run : Run μ) :
    Shows project (loop.serviceNMI run) (run.project project).serviceNMI := by
  have flags_eq : (run.project project).executor.flags = run.executor.flags := rfl
  unfold serviceNMI Run.serviceNMI
  rw [flags_eq]
  split
  · exact loop.service_shows project _ _ _ run
  · exact ⟨rfl, rfl⟩

theorem boundaryStep_shows (loop : RunLoop) (input : Input) (run : Run μ) :
    Shows project (loop.boundaryStep input run) ((run.project project).boundaryStep input) := by
  have irq := loop.serviceIRQ_shows project (run.admitRequests input)
  have nmi := loop.serviceNMI_shows project (loop.serviceIRQ (run.admitRequests input)).1
  rw [← Run.admitRequests_project] at irq
  rw [irq.project_eq] at nmi
  have location_eq : (loop.serviceNMI (loop.serviceIRQ (run.admitRequests input)).1).1.location =
      ((run.project project).admitRequests input).serviceIRQ.1.serviceNMI.1.location :=
    congrArg Run.location nmi.project_eq
  unfold boundaryStep Run.boundaryStep
  dsimp only
  rw [location_eq]
  refine ⟨?_, ?_⟩
  · split
    · rename_i hung
      exact nmi.project_eq.trans (if_pos hung).symm
    · rename_i ended
      have cleared := congrArg (fun last => last.clearInterrupts.goto .fetch) nmi.project_eq
      exact cleared.trans (if_neg ended).symm
  · rw [observed_append, observed_append, observed_release, irq.observed_eq, nmi.observed_eq]
    change _ = observed (List.map _ (_ ++ _ ++ _))
    rw [List.map_append, List.map_append, observed_append, observed_append]
    rfl

theorem step_shows (loop : RunLoop) (run : Run μ) (input : Input) :
    Shows project (loop.step run input) ((run.project project).step loop.mode input) := by
  have location_eq : (run.project project).location = run.location := rfl
  unfold step Run.step
  rw [location_eq]
  cases run.location with
  | fetch => exact loop.fetchStep_shows project input run
  | cycle => exact loop.cycleStep_shows project input run
  | boundary => exact loop.boundaryStep_shows project input run
  | returned | nullCall | hung => exact ⟨rfl, rfl⟩

/-- A run of a loop and the run of the plain loop on the projected bus. -/
theorem run_shows (loop : RunLoop) (run : Run μ) (inputs : List Input) :
    Shows project ((machine μ loop).run run inputs, (machine μ loop).trace run inputs)
      ((loopMachine ν loop.mode).run (run.project project) inputs,
        (loopMachine ν loop.mode).trace (run.project project) inputs) := by
  induction inputs generalizing run with
  | nil => exact ⟨rfl, rfl⟩
  | cons first rest ih =>
      have shown : Shows project ((machine μ loop).step run first)
          ((loopMachine ν loop.mode).step (run.project project) first) :=
        loop.step_shows project run first
      have further := ih ((machine μ loop).step run first).1
      rw [shown.project_eq] at further
      refine ⟨further.project_eq, ?_⟩
      simp only [Machine.trace, List.map_append, observed_append]
      rw [shown.observed_eq, further.observed_eq]

end RunLoop
end Erasure

/-! ## The switch of the caches -/

section Switch

variable {μ : Type*} [CachedMembus μ]

/-- The switch of the bus is the one the loop has settled on. -/
def Run.Settled (run : Run μ) : Prop :=
  CachedMembus.getCacheDisable run.executor.memory = run.executor.cacheDisable

variable [LawfulCachedMembus μ]

/-- A bus whose switch has a given value. -/
abbrev Switched (μ : Type*) [CachedMembus μ] (value : Bool) : Type _ :=
  { memory : μ // CachedMembus.getCacheDisable memory = value }

instance (value : Bool) : Membus (Switched μ value) where
  readAddr memory address :=
    let result := Membus.readAddr memory.val address
    (result.1, ⟨result.2,
      (LawfulCachedMembus.getCacheDisable_readAddr memory.val address).trans memory.property⟩)
  writeAddr memory address byte :=
    ⟨Membus.writeAddr memory.val address byte,
      (LawfulCachedMembus.getCacheDisable_writeAddr memory.val address byte).trans
        memory.property⟩

instance (value : Bool) : BusProjection (Subtype.val : Switched μ value → μ) where
  readAddr _ _ := rfl
  writeAddr _ _ _ := rfl

omit [LawfulCachedMembus μ] in
/-- What commutes with projections keeps the switch. -/
theorem Run.switch_of_commutes {γ : Type*} {value : Bool} {call : Run μ → Run μ × γ}
    {lifted : Run (Switched μ value) → Run (Switched μ value) × γ}
    (commutes : ∀ run, call (run.project Subtype.val) =
      projectOutcome Subtype.val (lifted run))
    {run : Run μ} (switched : CachedMembus.getCacheDisable run.executor.memory = value) :
    CachedMembus.getCacheDisable (call run).1.executor.memory = value := by
  let lift : Run (Switched μ value) :=
    { executor := { run.executor with memory := ⟨run.executor.memory, switched⟩ }
      loop := run.loop
      location := run.location }
  have call_eq : call run = projectOutcome Subtype.val (lifted lift) := commutes lift
  rw [call_eq]
  exact (lifted lift).1.executor.memory.property

namespace Run

theorem settled_setCacheDisable (run : Run μ) : run.setCacheDisable.Settled :=
  LawfulCachedMembus.getCacheDisable_setCacheDisable _ _

omit [LawfulCachedMembus μ] in
theorem Settled.admitRequests {run : Run μ} (settled : run.Settled) (input : Input) :
    (run.admitRequests input).Settled := by
  have memory_eq : (run.admitRequests input).executor.memory = run.executor.memory :=
    congrArg Core.memory (run.executor.requests_core input.requests)
  have switch_eq : (run.admitRequests input).executor.cacheDisable = run.executor.cacheDisable :=
    requests_cacheDisable run.executor input.requests
  rw [Settled, memory_eq, switch_eq]
  exact settled

omit [LawfulCachedMembus μ] in
theorem Settled.afterCycle {run : Run μ} (settled : run.Settled) (mode : ExecMode) :
    (run.afterCycle mode).Settled := by
  have executor_eq : (run.afterCycle mode).executor = run.executor := by
    unfold Run.afterCycle
    repeat' split
    all_goals rfl
  rw [Settled, executor_eq]
  exact settled

omit [LawfulCachedMembus μ] in
/-- What commutes with projections and leaves the DMA state alone keeps the switch settled. -/
theorem Settled.of_commutes {γ : Type*} {call : Run μ → Run μ × γ}
    {lifted : ∀ value, Run (Switched μ value) → Run (Switched μ value) × γ}
    (commutes : ∀ value run, call (run.project Subtype.val) =
      projectOutcome Subtype.val (lifted value run))
    {run : Run μ} (same : (call run).1.transfer = run.transfer) (settled : run.Settled) :
    (call run).1.Settled :=
  (switch_of_commutes (commutes run.executor.cacheDisable) settled).trans
    (congrArg Transfer.cacheDisable same).symm

theorem Settled.service {run : Run μ} (settled : run.Settled) (interrupt : Interrupt) :
    (run.service interrupt).1.Settled :=
  settled.of_commutes (fun _ => service_project interrupt) (service_transfer interrupt run)

theorem Settled.callStep {run : Run μ} (settled : run.Settled) (mode : ExecMode) (input : Input) :
    (run.callStep mode input).1.Settled :=
  settled.of_commutes (fun _ => callStep_project mode input) (callStep_transfer mode input run)

theorem Settled.fetchStep {run : Run μ} (settled : run.Settled) (input : Input) :
    (run.fetchStep input).1.Settled :=
  settled.of_commutes (fun _ => fetchStep_project input) (fetchStep_transfer input run)

end Run

theorem CachePop.getCacheDisable_runAll (pops : List CachePop) (memory : μ) :
    CachedMembus.getCacheDisable (runAll pops memory).2 = CachedMembus.getCacheDisable memory := by
  induction pops generalizing memory with
  | nil => rfl
  | cons first rest ih =>
      have first_eq : CachedMembus.getCacheDisable (first.run memory).2 =
          CachedMembus.getCacheDisable memory := by
        cases first with
        | read => exact LawfulCachedMembus.getCacheDisable_rcachePop memory
        | write => exact LawfulCachedMembus.getCacheDisable_wcachePop memory
      exact (ih (first.run memory).2).trans first_eq

namespace RunLoop

omit [LawfulCachedMembus μ] in
theorem fetchStep_fst (loop : RunLoop) (input : Input) (run : Run μ) :
    (loop.fetchStep input run).1 = (run.fetchStep input).1 := by
  unfold fetchStep
  dsimp only
  repeat' split
  all_goals rfl

theorem settled_disassemble (loop : RunLoop) {run : Run μ} (settled : run.Settled) :
    (loop.disassemble run).1.Settled := by
  unfold disassemble
  split
  · exact settled
  · split
    · exact (CachePop.getCacheDisable_runAll _ _).trans settled
    · exact settled

theorem settled_cycleStep (loop : RunLoop) (input : Input) {run : Run μ} (settled : run.Settled) :
    (loop.cycleStep input run).1.Settled := by
  have passed : (if run.loop.isInDMA then dmaCycle input run
      else loop.dispatchCycle input run).1.Settled := by
    split
    · exact Run.settled_setCacheDisable _
    · unfold dispatchCycle
      dsimp only
      split
      · exact Run.settled_setCacheDisable _
      · exact (settled.admitRequests input).callStep loop.mode input
  have after := passed.afterCycle loop.mode
  unfold cycleStep
  generalize (if run.loop.isInDMA then dmaCycle input run
    else loop.dispatchCycle input run) = outcome at after ⊢
  dsimp only
  split
  · exact loop.settled_disassemble after
  · exact after

theorem settled_boundaryStep (loop : RunLoop) (input : Input) {run : Run μ}
    (settled : run.Settled) : (loop.boundaryStep input run).1.Settled := by
  have admitted := settled.admitRequests input
  have first : (loop.serviceIRQ (run.admitRequests input)).1.Settled := by
    unfold serviceIRQ
    split
    · exact admitted.service _
    · exact admitted
  have second :
      (loop.serviceNMI (loop.serviceIRQ (run.admitRequests input)).1).1.Settled := by
    unfold serviceNMI
    split
    · exact first.service _
    · exact first
  unfold boundaryStep
  dsimp only
  split <;> exact second

/-- Every step keeps the switch of the bus and the loop's idea of it together. -/
theorem settled_step (loop : RunLoop) (input : Input) {run : Run μ} (settled : run.Settled) :
    (loop.step run input).1.Settled := by
  unfold step
  cases run.location with
  | fetch =>
      dsimp only
      rw [fetchStep_fst]
      exact settled.fetchStep input
  | cycle => exact loop.settled_cycleStep input settled
  | boundary => exact loop.settled_boundaryStep input settled
  | returned | nullCall | hung => exact settled

/-- So does every run of a launch. -/
theorem settled_run (loop : RunLoop) (executor : Executor μ) (range : MemoryAddrRange)
    (PC : Word) (residue : Loop) (inputs : List Input) :
    ((machine μ loop).run (loop.launch executor range PC residue).1 inputs).Settled := by
  apply Machine.invariant_run (machine μ loop) (fun _ input settled =>
    loop.settled_step input settled)
  rfl

end RunLoop
end Switch

/-! ## Whole launches -/

namespace RunLoop

variable {δ σ : Type*} {modules : δ → MembusModule σ}

/-- The run of a launch, and what it does on the way. -/
def execute {μ : Type*} [CachedMembus μ] (loop : RunLoop) (executor : Executor μ)
    (range : MemoryAddrRange) (PC : Word) (residue : Loop) (inputs : List Input) :
    Run μ × List Notice :=
  let (start, entry) := loop.launch executor range PC residue
  ((machine μ loop).run start inputs, entry ++ (machine μ loop).trace start inputs)

/-- Two loops go through the same runs but for the caches of the bus, and the modules, the DMA
callbacks and the interrupt functions see the same. -/
def Agrees (loop other : RunLoop) (modules : δ → MembusModule σ) : Prop :=
  ∀ (executor : Executor (DeviceBus modules)) (range : MemoryAddrRange) (PC : Word)
    (residue : Loop) (inputs : List Input),
    (loop.execute executor range PC residue inputs).1.project DeviceBus.withoutCaches =
        (other.execute executor range PC residue inputs).1.project DeviceBus.withoutCaches ∧
      observed (loop.execute executor range PC residue inputs).2 =
        observed (other.execute executor range PC residue inputs).2

/-- A launch ends as the plain loop does on the devices behind a bus with empty caches. -/
theorem execute_shows (loop : RunLoop) (executor : Executor (DeviceBus modules))
    (range : MemoryAddrRange) (PC : Word) (residue : Loop) (inputs : List Input) :
    let start := (loop.launch executor range PC residue).1.project DeviceBus.muted
    Shows DeviceBus.muted (loop.execute executor range PC residue inputs)
      ((loopMachine (DeviceBus modules) loop.mode).run start inputs,
        (loopMachine (DeviceBus modules) loop.mode).trace start inputs) := by
  have shown := loop.run_shows DeviceBus.muted (loop.launch executor range PC residue).1 inputs
  have entry : observed (loop.launch executor range PC residue).2 = [] := by
    unfold launch
    dsimp only
    rw [observed_append, observed_append, observed_notify, observed_notify]
    split <;> rfl
  refine ⟨shown.project_eq, ?_⟩
  unfold execute
  dsimp only
  rw [observed_append, entry]
  exact shown.observed_eq

/-- Runs that differ in the caches only. -/
theorem project_withoutCaches_eq {run other : Run (DeviceBus modules)}
    (muted_eq : run.project DeviceBus.muted = other.project DeviceBus.muted)
    (settled : run.Settled) (otherSettled : other.Settled) :
    run.project DeviceBus.withoutCaches = other.project DeviceBus.withoutCaches := by
  have rebuilt : ∀ run : Run (DeviceBus modules), run.project DeviceBus.withoutCaches =
      (run.project DeviceBus.muted).onExecutor fun executor =>
        { executor with memory := run.executor.memory.withoutCaches } := fun _ => rfl
  have executor_eq : run.executor.project DeviceBus.muted =
      other.executor.project DeviceBus.muted := congrArg Run.executor muted_eq
  have switch_eq : run.executor.cacheDisable = other.executor.cacheDisable := by
    have projected := congrArg Executor.cacheDisable executor_eq
    exact projected
  have memory_eq : run.executor.memory.withoutCaches = other.executor.memory.withoutCaches := by
    apply DeviceBus.withoutCaches_eq
    · exact congrArg Executor.memory executor_eq
    · exact settled.trans (switch_eq.trans otherSettled.symm)
  rw [rebuilt, rebuilt, muted_eq, memory_eq]

/-- Two copies of the loop for one function of the dispatch records agree. -/
theorem agrees_of_mode {loop other : RunLoop} (mode_eq : loop.mode = other.mode) :
    loop.Agrees other modules := by
  intro executor range PC residue inputs
  have shown := loop.execute_shows executor range PC residue inputs
  have otherShown := other.execute_shows executor range PC residue inputs
  rw [← mode_eq] at otherShown
  constructor
  · apply project_withoutCaches_eq
    · exact shown.project_eq.trans otherShown.project_eq.symm
    · exact loop.settled_run executor range PC residue inputs
    · exact other.settled_run executor range PC residue inputs
  · exact shown.observed_eq.trans otherShown.observed_eq.symm

/-- The four staged loops agree, and so do the four static ones: with any callbacks, any residue in
their uninitialised variables and any requests, they go through the same registers, flags, cycles,
devices and accesses, and their buses differ in the caches only. -/
theorem loops_agree (callback other : Option (BitVec 32)) (modules : δ → MembusModule σ) :
    ((executorLaunchStagedVerbose callback).Agrees (executorLaunchStaged other) modules ∧
        (executorLaunchStagedNolock callback).Agrees (executorLaunchStaged other) modules ∧
        (executorLaunchStagedVerboseNolock callback).Agrees (executorLaunchStaged other) modules) ∧
      (executorLaunchStaticVerbose callback).Agrees (executorLaunchStatic other) modules ∧
        (executorLaunchStaticNolock callback).Agrees (executorLaunchStatic other) modules ∧
        (executorLaunchStaticVerboseNolock callback).Agrees (executorLaunchStatic other)
          modules :=
  ⟨⟨agrees_of_mode rfl, agrees_of_mode rfl, agrees_of_mode rfl⟩, agrees_of_mode rfl,
    agrees_of_mode rfl, agrees_of_mode rfl⟩

/-- The instructions `LDA #$01` and `LDA #$02` at `$0000`. -/
def loadTwice (address : Word) : Byte :=
  if address = 0 ∨ address = 2 then 0xA9
  else if address = 1 then 0x01
  else if address = 3 then 0x02
  else 0

/-- A reset executor on a bus with a std64k module that holds the two instructions. -/
def loadTwiceExecutor : Executor (DeviceBus (Bus.storageModule fun _ : Unit => .std64k)) :=
  Executor.alloc Registers.reset
    { bus := (StorageBus.std64k MembusCache.blank loadTwice).bus
      state := (StorageBus.std64k MembusCache.blank loadTwice).contents
      stuck := none }
    .base

/-- Disassembly moves the index of the read cache, so the bytes of a second instruction go to other
slots: the buses of the loops differ in more than the indices of their caches. -/
theorem loops_differ_beyond_indices :
    ¬ ∀ (executor : Executor (DeviceBus (Bus.storageModule fun _ : Unit => .std64k)))
      (range : MemoryAddrRange) (PC : Word) (residue : Loop) (inputs : List Input),
      ((executorLaunchStagedVerbose (some 0xFFFFFFFF)).execute executor range PC residue
          inputs).1.project DeviceBus.withoutIndices =
        ((executorLaunchStaged none).execute executor range PC residue inputs).1.project
          DeviceBus.withoutIndices := by
  intro same
  have slot_eq := congrArg (fun run => run.executor.memory.bus.cache.rcache 1)
    (same loadTwiceExecutor { addrLo := 0, addrLen := 0xFFFF } 0 Loop.zero
      (List.replicate 4 (Input.quiet .nextCycle Locals.zero)))
  revert slot_eq
  decide +kernel

end RunLoop

end System6502
