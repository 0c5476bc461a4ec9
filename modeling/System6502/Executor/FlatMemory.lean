import System6502.Executor.Lockstep
import System6502.Membus.Composition

/-!
# Processors on flat memory

A bus of storage modules that backs every address, with an empty pre-op tier, is an array of bytes
to the processor.  The launch functions on such a bus, whatever else its lists and caches are, do
what the plain loop does on the array.
-/

namespace System6502

open Lib

/-! ## Runs on a projected bus -/

section Projection

variable {μ ν : Type*} {project : μ → ν} [Membus μ] [Membus ν] [BusProjection project]

namespace Run

theorem cycleStep_project (mode : ExecMode) (input : Input) (run : Run μ) :
    (run.project project).cycleStep mode input =
      projectOutcome project (run.cycleStep mode input) := by
  have admitted_eq : (run.project project).admitRequests input =
      (run.admitRequests input).project project := run.admitRequests_project input
  by_cases active : run.loop.isInDMA = true
  · have active' : (run.project project).loop.isInDMA = true := active
    rw [cycleStep_of_active mode input active', cycleStep_of_active mode input active,
      dmaCycle_project]
    exact Prod.ext (afterCycle_project mode _) rfl
  · have idle := Bool.eq_false_of_not_eq_true active
    have idle' : (run.project project).loop.isInDMA = false := idle
    cases requested : (run.admitRequests input).executor.flags.dma with
    | true =>
        have requested' :
            ((run.project project).admitRequests input).executor.flags.dma = true := by
          rw [admitted_eq]
          exact requested
        have begun : ((run.project project).admitRequests input).beginDMA.dmaCycle input =
            projectOutcome project ((run.admitRequests input).beginDMA.dmaCycle input) := by
          rw [admitted_eq]
          exact dmaCycle_project input (run.admitRequests input).beginDMA
        rw [cycleStep_of_requested mode input idle' requested',
          cycleStep_of_requested mode input idle requested, begun]
        exact Prod.ext (afterCycle_project mode _) rfl
    | false =>
        have quiet' :
            ((run.project project).admitRequests input).executor.flags.dma = false := by
          rw [admitted_eq]
          exact requested
        have called : ((run.project project).admitRequests input).callStep mode input =
            projectOutcome project ((run.admitRequests input).callStep mode input) := by
          rw [admitted_eq]
          exact callStep_project mode input (run.admitRequests input)
        rw [cycleStep_of_idle mode input idle' quiet', cycleStep_of_idle mode input idle requested,
          called]
        exact Prod.ext (afterCycle_project mode _) rfl

theorem serviceIRQ_project (run : Run μ) :
    (run.project project).serviceIRQ = projectOutcome project run.serviceIRQ := by
  have flags_eq : (run.project project).executor.flags = run.executor.flags := rfl
  have registers_eq : (run.project project).executor.registers = run.executor.registers := rfl
  unfold serviceIRQ
  rw [flags_eq, registers_eq]
  split
  · exact service_project _ run
  · rfl

theorem serviceNMI_project (run : Run μ) :
    (run.project project).serviceNMI = projectOutcome project run.serviceNMI := by
  have flags_eq : (run.project project).executor.flags = run.executor.flags := rfl
  unfold serviceNMI
  rw [flags_eq]
  split
  · exact service_project _ run
  · rfl

theorem boundaryStep_project (input : Input) (run : Run μ) :
    (run.project project).boundaryStep input =
      projectOutcome project (run.boundaryStep input) := by
  have irq : ((run.project project).admitRequests input).serviceIRQ =
      projectOutcome project (run.admitRequests input).serviceIRQ := by
    rw [admitRequests_project]
    exact serviceIRQ_project _
  have nmi : ((run.project project).admitRequests input).serviceIRQ.1.serviceNMI =
      projectOutcome project (run.admitRequests input).serviceIRQ.1.serviceNMI := by
    rw [irq]
    exact serviceNMI_project _
  have location_eq :
      ((run.project project).admitRequests input).serviceIRQ.1.serviceNMI.1.location =
      (run.admitRequests input).serviceIRQ.1.serviceNMI.1.location := by
    rw [nmi]
    rfl
  unfold admitRequests at irq nmi location_eq
  unfold boundaryStep
  dsimp only
  rw [location_eq, nmi, irq]
  split <;> rfl

/-- A step commutes with a projection of the bus. -/
theorem step_project (mode : ExecMode) (run : Run μ) (input : Input) :
    (run.project project).step mode input = projectOutcome project (run.step mode input) := by
  have location_eq : (run.project project).location = run.location := rfl
  unfold step
  rw [location_eq]
  cases run.location with
  | fetch => exact fetchStep_project input run
  | cycle => exact cycleStep_project mode input run
  | boundary => exact boundaryStep_project input run
  | returned => rfl
  | nullCall => rfl
  | hung => rfl

variable (project) in
/-- So does a run. -/
theorem run_project (mode : ExecMode) (run : Run μ) (inputs : List Input) :
    (loopMachine ν mode).run (run.project project) inputs =
        ((loopMachine μ mode).run run inputs).project project ∧
      (loopMachine ν mode).trace (run.project project) inputs =
        (loopMachine μ mode).trace run inputs := by
  induction inputs generalizing run with
  | nil => exact ⟨rfl, rfl⟩
  | cons first rest ih =>
      have stepped : (loopMachine ν mode).step (run.project project) first =
          projectOutcome project ((loopMachine μ mode).step run first) :=
        step_project mode run first
      obtain ⟨run_eq, trace_eq⟩ := ih ((loopMachine μ mode).step run first).1
      constructor
      · rw [Machine.run_cons, Machine.run_cons, stepped]
        exact run_eq
      · rw [Machine.trace, Machine.trace, stepped]
        exact congrArg (_ ++ ·) trace_eq

end Run
end Projection

/-! ## Storage buses as arrays -/

variable {δ : Type*} [DecidableEq δ] {kinds : δ → StorageKind}

/-- A bus of storage modules that backs every address. -/
abbrev FullBus (kinds : δ → StorageKind) :=
  { memory : StorageBus kinds // ∀ addr, memory.bus.Backed kinds addr }

namespace StorageBus

theorem backed_transact {memory : StorageBus kinds} {addr : Word}
    (backed : memory.bus.Backed kinds addr) (given : Bus.Transaction) :
    (memory.transact given).2.bus.Backed kinds addr := by
  obtain ⟨value, after, last, done, -, ordinary_eq, -⟩ := memory.stores.step given
  rw [memory.transact_eq] at done
  cases done
  unfold Bus.Backed
  rw [ordinary_eq]
  exact backed

theorem byteAt_transact {memory : StorageBus kinds} {addr : Word}
    (backed : memory.bus.Backed kinds addr) (given : Bus.Transaction) :
    (memory.transact given).2.bus.byteAt kinds (memory.transact given).2.contents addr =
      (Bus.lastWritten addr [given]).getD (memory.bus.byteAt kinds memory.contents addr) := by
  obtain ⟨value, after, last, done, -, -, byte_eq⟩ := memory.stores.step given
  rw [memory.transact_eq] at done
  cases done
  exact byte_eq addr backed

end StorageBus

namespace FullBus

/-- A transaction. -/
def transact (memory : FullBus kinds) (given : Bus.Transaction) : FullBus kinds :=
  ⟨(memory.val.transact given).2, fun addr =>
    StorageBus.backed_transact (memory.property addr) given⟩

instance : Membus (FullBus kinds) where
  readAddr memory addr :=
    ((memory.val.transact { operation := .read, addr }).1,
      memory.transact { operation := .read, addr })
  writeAddr memory addr value := memory.transact { operation := .write value, addr }

/-- The bus with its modules as devices. -/
def devices (memory : FullBus kinds) : DeviceBus (Bus.storageModule kinds) where
  bus := memory.val.bus
  state := memory.val.contents
  stuck := none

end FullBus

namespace DeviceBus

/-- The byte at every address. -/
def bytes (memory : DeviceBus (Bus.storageModule kinds)) : Ram :=
  memory.bus.byteAt kinds memory.state

/-- A working bus with no module in the pre-op tier, whose modules are in read-write mode and back
every address. -/
structure Full (memory : DeviceBus (Bus.storageModule kinds)) : Prop where
  /-- No module holds the bus up. -/
  free : memory.stuck = none
  /-- The lists, the empty pre-op tier and the modes. -/
  stores : memory.bus.Stores memory.state
  /-- Every address has a module or a vector. -/
  backed : ∀ addr, memory.bus.Backed kinds addr

theorem Full.exists_fullBus {memory : DeviceBus (Bus.storageModule kinds)} (full : memory.Full) :
    ∃ lifted : FullBus kinds, lifted.devices = memory := by
  obtain ⟨free, stores, backed⟩ := full
  refine ⟨⟨⟨memory.bus, memory.state, stores⟩, backed⟩, ?_⟩
  cases memory
  cases free
  rfl

/-- The caches have no part in it. -/
theorem full_muted {memory : DeviceBus (Bus.storageModule kinds)} :
    memory.muted.Full ↔ memory.Full := by
  constructor
  · rintro ⟨free, ⟨sorted, noPreOp, allReadWrite⟩, backed⟩
    exact ⟨free, ⟨sorted.of_layout rfl, noPreOp, allReadWrite⟩, backed⟩
  · rintro ⟨free, ⟨sorted, noPreOp, allReadWrite⟩, backed⟩
    exact ⟨free, ⟨sorted.of_layout rfl, noPreOp, allReadWrite⟩, backed⟩

end DeviceBus

namespace FullBus

theorem full_devices (memory : FullBus kinds) : memory.devices.Full where
  free := rfl
  stores := memory.val.stores
  backed := memory.property

theorem transact_devices (memory : FullBus kinds) (given : Bus.Transaction) :
    memory.devices.transact given.operation given.addr =
      ((memory.val.transact given).1, (memory.transact given).devices) := by
  have done := memory.val.transact_eq given
  simp only [DeviceBus.transact, devices, done]
  rfl

instance : BusProjection (fun memory : FullBus kinds => memory.devices) where
  readAddr memory addr := memory.transact_devices { operation := .read, addr }
  writeAddr memory addr value :=
    congrArg Prod.snd (memory.transact_devices { operation := .write value, addr })

theorem bytes_transact (memory : FullBus kinds) (given : Bus.Transaction) (addr : Word) :
    (memory.transact given).devices.bytes addr =
      (Bus.lastWritten addr [given]).getD (memory.devices.bytes addr) :=
  StorageBus.byteAt_transact (memory.property addr) given

/-- A bus that backs every address is an array. -/
instance : BusProjection (fun memory : FullBus kinds => memory.devices.bytes) where
  readAddr memory addr := by
    refine Prod.ext (memory.val.readAddr_fst addr).symm (funext fun other => ?_)
    exact (memory.bytes_transact { operation := .read, addr } other).symm
  writeAddr memory addr value := by
    refine funext fun other => ?_
    refine Eq.trans ?_ (memory.bytes_transact { operation := .write value, addr } other).symm
    by_cases same : other = addr
    · subst same
      simp [Bus.lastWritten]
    · simp [Bus.lastWritten, same]

end FullBus

/-! ## The default components -/

namespace DeviceBus

/-- The bus of `executor_alloc_with_default_components`, with what its memory module holds. -/
def default (uninitialised : MembusCache) (content : Word → Byte) :
    DeviceBus (Bus.storageModule fun _ : Unit => .std64k) where
  bus := (StorageBus.std64k uninitialised content).bus
  state := (StorageBus.std64k uninitialised content).contents
  stuck := none

theorem includes_std64k (addr : Word) (device : Unit) :
    Bus.Includes (fun _ => .std64k) addr device = decide (addr ≠ 0xFFFF) := by
  have bounded := addr.isLt
  have last : addr = 0xFFFF ↔ addr.toNat = 65535 := by
    rw [← BitVec.toNat_inj]
    rfl
  have reads : Bus.Includes (fun _ => .std64k) addr device = decide (addr.toNat < 65535) := by
    have first : 0#16 ≤ addr := by bv_omega
    simp [Bus.Includes, StorageKind.addrRange, MembusModuleStd64k.addrRange,
      MemoryAddrRange.doesInclude, first]
  rw [reads, decide_eq_decide, Ne, last]
  omega

theorem ordinary_default (uninitialised : MembusCache) (content : Word → Byte) :
    (default uninitialised content).bus.ordinary = [()] := rfl

theorem full_default (uninitialised : MembusCache) (content : Word → Byte) :
    (default uninitialised content).Full where
  free := rfl
  stores := (StorageBus.std64k uninitialised content).stores
  backed addr := by
    by_cases last : addr = 0xFFFF
    · subst last
      exact .inr (by decide)
    · refine .inl ⟨(), ?_, ?_⟩
      · rw [ordinary_default]
        exact List.mem_singleton_self _
      · rw [includes_std64k]
        exact decide_eq_true last

/-- The module holds every byte but the last, which is that of the IRQ vector. -/
theorem bytes_default (uninitialised : MembusCache) (content : Word → Byte) (addr : Word) :
    (default uninitialised content).bytes addr =
      if addr = 0xFFFF then 0xCA else content addr := by
  have owner_eq : (default uninitialised content).bus.owner (fun _ => .std64k) addr =
      if addr = 0xFFFF then none else some () := by
    rw [Bus.owner, ordinary_default, List.find?_singleton, includes_std64k]
    by_cases last : addr = 0xFFFF <;> simp [last]
  unfold bytes Bus.byteAt
  rw [owner_eq]
  by_cases last : addr = 0xFFFF
  · have vector : (default uninitialised content).bus.irqVector = 0xCAFE := rfl
    have high : (default uninitialised content).bus.irqVector.high = 0xCA := by
      rw [vector]
      decide
    rw [if_pos last, if_pos last, last]
    simpa [Bus.vectorByte, memoryAddrNMIVector, memoryAddrRESVector, memoryAddrIRQVector]
      using high
  · rw [if_neg last, if_neg last]
    rfl

end DeviceBus

/-! ## Launches -/

namespace Executor

/-- The executor with its bus as an array, once a launch has asked for the state of the caches. -/
def flattened (executor : Executor (DeviceBus (Bus.storageModule kinds))) : Executor Ram :=
  { executor.project DeviceBus.bytes with
    cacheDisable := CachedMembus.getCacheDisable executor.memory }

end Executor

namespace RunLoop

/-- On storage modules outside the pre-op tier that back every address, each of the eight loops goes
through the registers, flags, cycles and events of the plain loop on an array of bytes, and leaves
the bytes that the array holds, whatever else the lists and the caches of the bus are.  The events
are opcode fetches, calls, interrupt services and transfers; what an instruction function reads and
writes on the bus is not among them. -/
theorem execute_flat (loop : RunLoop) (executor : Executor (DeviceBus (Bus.storageModule kinds)))
    (full : executor.memory.Full) (range : MemoryAddrRange) (PC : Word) (residue : Loop)
    (inputs : List Input) :
    let start := Run.launch executor.flattened range PC residue
    (loop.execute executor range PC residue inputs).1.project DeviceBus.bytes =
        (loopMachine Ram loop.mode).run start inputs ∧
      observed (loop.execute executor range PC residue inputs).2 =
        observed (((loopMachine Ram loop.mode).trace start inputs).map .event) ∧
      (loop.execute executor range PC residue inputs).1.executor.memory.Full := by
  intro start
  obtain ⟨memory, memory_eq⟩ := full.exists_fullBus
  let lifted : Executor (FullBus kinds) :=
    { executor.project fun _ => memory with
      cacheDisable := CachedMembus.getCacheDisable executor.memory }
  let startLifted := Run.launch lifted range PC residue
  let final := (loopMachine (FullBus kinds) loop.mode).run startLifted inputs
  have entry : (loop.launch executor range PC residue).1 =
      startLifted.project FullBus.devices := by
    unfold launch
    dsimp only [startLifted, lifted, Run.launch, Run.project, Executor.project]
    rw [memory_eq]
  have flat_start : startLifted.project (fun memory => memory.devices.bytes) = start := by
    dsimp only [start, startLifted, lifted, Run.launch, Run.project, Executor.project,
      Executor.flattened]
    rw [memory_eq]
  have shown := loop.execute_shows executor range PC residue inputs
  have muted := Run.run_project (fun memory : DeviceBus (Bus.storageModule kinds) => memory.muted)
    loop.mode (loop.launch executor range PC residue).1 inputs
  have device := Run.run_project (fun memory : FullBus kinds => memory.devices)
    loop.mode startLifted inputs
  have flat := Run.run_project (fun memory : FullBus kinds => memory.devices.bytes)
    loop.mode startLifted inputs
  rw [flat_start] at flat
  have muted_eq : (loop.execute executor range PC residue inputs).1.project DeviceBus.muted =
      (final.project FullBus.devices).project DeviceBus.muted := by
    rw [shown.project_eq, muted.1, entry, device.1]
  refine ⟨?_, ?_, ?_⟩
  · calc (loop.execute executor range PC residue inputs).1.project DeviceBus.bytes
        = ((loop.execute executor range PC residue inputs).1.project
            DeviceBus.muted).project DeviceBus.bytes := rfl
      _ = ((final.project FullBus.devices).project DeviceBus.muted).project
            DeviceBus.bytes := by rw [muted_eq]
      _ = (loopMachine Ram loop.mode).run start inputs := flat.1.symm
  · rw [shown.observed_eq, muted.2, entry, device.2, flat.2]
  · have memory_eq : (loop.execute executor range PC residue inputs).1.executor.memory.muted =
        final.executor.memory.devices.muted :=
      congrArg (fun run => run.executor.memory) muted_eq
    rw [← DeviceBus.full_muted, memory_eq, DeviceBus.full_muted]
    exact final.executor.memory.full_devices

/-- The verbose loop has loaded `$02` after two instructions on the default components. -/
theorem execute_flat_loadTwice :
    loadTwiceExecutor.memory.Full ∧
      ((executorLaunchStagedVerbose (some 0xFFFFFFFF)).execute loadTwiceExecutor
        { addrLo := 0, addrLen := 4 } 0 Loop.zero
        (List.replicate 6 (Input.quiet .nextCycle Locals.zero))).1.executor.registers.A =
          0x02 := by
  have full : loadTwiceExecutor.memory.Full := DeviceBus.full_default MembusCache.blank loadTwice
  refine ⟨full, ?_⟩
  have flat := (execute_flat (executorLaunchStagedVerbose (some 0xFFFFFFFF)) loadTwiceExecutor full
    { addrLo := 0, addrLen := 4 } 0 Loop.zero
    (List.replicate 6 (Input.quiet .nextCycle Locals.zero))).1
  have loaded : loadTwiceExecutor.memory.bytes = fun addr =>
      if addr = 0xFFFF then 0xCA else loadTwice addr :=
    funext (DeviceBus.bytes_default MembusCache.blank loadTwice)
  refine (congrArg (fun run => run.executor.registers.A) flat).trans ?_
  simp only [Executor.flattened, Executor.project, loaded]
  rfl

end RunLoop
end System6502
