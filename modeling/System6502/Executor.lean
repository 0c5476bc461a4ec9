import System6502.Isa.Table
import System6502.Lib.Machine
import System6502.Membus.Range

/-!
# The executor loops

`__executor_launch_staged` and `__executor_launch_static` as one step machine.  A step runs the
loop from one of its resting points to the next: the loop condition, the top of the inner loop and
the boundary between two instructions.  The loop releases `state_lock` only at the last two, so
the requests of other threads are inputs of those steps.
-/

namespace System6502

/-- The request flags of an executor. -/
structure Flags where
  /-- `executor_flags_nmi_is_set`. -/
  nmi : Bool
  /-- `executor_flags_irq_is_set`. -/
  irq : Bool
  /-- `executor_flags_dma_is_set`. -/
  dma : Bool
  /-- `executor_flags_exec_stop`. -/
  execStop : Bool
  deriving DecidableEq, Repr

/-- `executor_t`, its bus and the retained locals of the instruction functions.  A DMA callback is
represented by its identity. -/
structure Executor (μ : Type*) where
  /-- Request flags. -/
  flags : Flags
  /-- Register file. -/
  registers : Registers
  /-- Memory bus. -/
  memory : μ
  /-- Dispatch table. -/
  dialect : Dialect
  /-- The remaining range of the DMA transfer. -/
  dmaRange : MemoryAddrRange
  /-- `dma_provider`, or a null pointer. -/
  dmaProvider : Option Nat
  /-- `dma_consumer`, or a null pointer. -/
  dmaConsumer : Option Nat
  /-- `dma_context`. -/
  dmaContext : Nat
  /-- The cache switch of the bus. -/
  cacheDisable : Bool
  /-- Static variables of the instruction functions. -/
  statics : Routine → Locals
  /-- Static variables of the interrupt functions. -/
  interruptStatics : Interrupt → Locals

/-- A call from another thread. -/
inductive Request
  | setIRQ
  | setNMI
  | setExecStop
  | setDMACopyin (range : MemoryAddrRange) (provider : Option Nat) (context : Nat)
  | setDMACopyout (range : MemoryAddrRange) (consumer : Option Nat) (context : Nat)
  deriving DecidableEq, Repr

namespace Executor

variable {μ : Type*}

/-- `executor_alloc_with_components`, with zeros where the source leaves the DMA fields to
`malloc`. -/
def alloc (registers : Registers) (memory : μ) (dialect : Dialect) : Executor μ where
  flags := { nmi := false, irq := false, dma := false, execStop := false }
  registers
  memory
  dialect
  dmaRange := { addrLo := 0, addrLen := 0 }
  dmaProvider := none
  dmaConsumer := none
  dmaContext := 0
  cacheDisable := false
  statics := fun _ => Locals.zero
  interruptStatics := fun _ => Locals.zero

/-- `executor_set_irq`, `executor_set_nmi`, `executor_set_exec_stop`, `executor_set_dma_copyin`
and `executor_set_dma_copyout`. -/
def request (executor : Executor μ) : Request → Executor μ
  | .setIRQ => { executor with flags := { executor.flags with irq := true } }
  | .setNMI => { executor with flags := { executor.flags with nmi := true } }
  | .setExecStop => { executor with flags := { executor.flags with execStop := true } }
  | .setDMACopyin range provider context =>
      if executor.flags.dma then executor
      else
        { executor with
          flags := { executor.flags with dma := true }
          dmaRange := range
          dmaProvider := provider
          dmaConsumer := none
          dmaContext := context }
  | .setDMACopyout range consumer context =>
      if executor.flags.dma then executor
      else
        { executor with
          flags := { executor.flags with dma := true }
          dmaRange := range
          dmaProvider := none
          dmaConsumer := consumer
          dmaContext := context }

/-- Requests in the order in which they obtain the lock. -/
def requests (executor : Executor μ) (pending : List Request) : Executor μ :=
  pending.foldl request executor

/-- The frame of a call with the given locals. -/
def frame (executor : Executor μ) (locals : Locals) : Frame μ :=
  { memory := executor.memory, registers := executor.registers, locals }

/-- Take over the bus and the registers of a frame. -/
def absorb (executor : Executor μ) (frame : Frame μ) : Executor μ :=
  { executor with memory := frame.memory, registers := frame.registers }

/-- Take over a frame and retain its locals for a routine. -/
def absorbRoutine (executor : Executor μ) (routine : Routine) (frame : Frame μ) : Executor μ :=
  { executor.absorb frame with
    statics := Function.update executor.statics routine frame.locals }

/-- Take over a frame and retain its locals for an interrupt function. -/
def absorbInterrupt (executor : Executor μ) (interrupt : Interrupt) (frame : Frame μ) :
    Executor μ :=
  { executor.absorb frame with
    interruptStatics := Function.update executor.interruptStatics interrupt frame.locals }

end Executor

/-- Local variables of a run loop. -/
structure Loop where
  /-- `total_cycles`. -/
  totalCycles : Nat
  /-- `PC_end`. -/
  PCEnd : Nat
  /-- `is_in_dma`. -/
  isInDMA : Bool
  /-- `is_dma_started`. -/
  isDMAStarted : Bool
  /-- `is_dma_copyout`. -/
  isDMACopyout : Bool
  /-- `saved_membus_cache_state`. -/
  savedCacheState : Bool
  /-- `dma_addr_hi`. -/
  dmaAddrHi : Word
  /-- `dma_byte_index`. -/
  dmaByteIndex : Word
  /-- `dma_next_byte`. -/
  dmaNextByte : Byte
  /-- `instr_context.opcode`. -/
  opcode : Byte
  /-- `instr_context.cycle_count`. -/
  cycleCount : Nat
  /-- `dispatch`. -/
  dispatch : Dispatch
  /-- `next_stage`. -/
  nextStage : Stage
  /-- `saved_stage`. -/
  savedStage : Stage
  deriving Repr

/-- The locals of a loop on a zeroed stack. -/
def Loop.zero : Loop where
  totalCycles := 0
  PCEnd := 0
  isInDMA := false
  isDMAStarted := false
  isDMACopyout := false
  savedCacheState := false
  dmaAddrHi := 0
  dmaByteIndex := 0
  dmaNextByte := 0
  opcode := 0
  cycleCount := 0
  dispatch := Dispatch.zero
  nextStage := .other 0
  savedStage := .other 0

/-- A resting point of a run loop, or the way it ended. -/
inductive Location
  /-- At the condition of the outer loop. -/
  | fetch
  /-- At the top of the inner loop. -/
  | cycle
  /-- Between two instructions. -/
  | boundary
  /-- The launch has returned. -/
  | returned
  /-- A null function pointer was called. -/
  | nullCall
  /-- An interrupt sequence did not end. -/
  | hung
  deriving DecidableEq, Repr

/-- A launch in progress. -/
structure Run (μ : Type*) where
  /-- The executor. -/
  executor : Executor μ
  /-- The locals of the loop. -/
  loop : Loop
  /-- Where the loop rests. -/
  location : Location

/-- What a step obtains from outside the loop. -/
structure Input where
  /-- Requests that obtain the lock while the loop has released it. -/
  requests : List Request
  /-- Result and byte of a call of the DMA provider. -/
  provided : Bool × Byte
  /-- Result of a call of the DMA consumer. -/
  consumed : Bool
  /-- Content of the uninitialised `next_stage`. -/
  stage : Stage
  /-- Content of the uninitialised locals of a static-mode function. -/
  locals : Locals

/-- A step without requests from other threads. -/
def Input.quiet (stage : Stage) (locals : Locals) : Input where
  requests := []
  provided := (false, 0)
  consumed := false
  stage
  locals

/-- What a step does that is visible from outside. -/
inductive Event
  | lock
  | unlock
  | fetch (address : Word) (opcode : Byte)
  | illegal (opcode : Byte)
  | leave
  | call (routine : Option Routine)
  | service (interrupt : Interrupt) (calls : Nat)
  | provide (callback context : Nat) (index : Word) (accepted : Bool) (value : Byte)
  | consume (callback context : Nat) (index : Word) (value : Byte) (accepted : Bool)
  | transferRead (address : Word) (value : Byte)
  | transferWrite (address : Word) (value : Byte)
  deriving DecidableEq, Repr

/-- The two execution modes of a loop. -/
inductive ExecMode
  | staged
  | static
  deriving DecidableEq, Repr

namespace Run

variable {μ : Type*}

/-- Change the executor of a run. -/
def onExecutor (run : Run μ) (change : Executor μ → Executor μ) : Run μ :=
  { run with executor := change run.executor }

/-- Change the loop variables of a run. -/
def onLoop (run : Run μ) (change : Loop → Loop) : Run μ := { run with loop := change run.loop }

/-- Continue at another resting point. -/
def goto (run : Run μ) (location : Location) : Run μ := { run with location }

/-- Clear `executor_flags_exec_stop` and return. -/
def leave (run : Run μ) : Run μ :=
  (run.onExecutor fun executor =>
    { executor with flags := { executor.flags with execStop := false } }).goto .returned

/-- The entry of a launch, from the content of the loop's uninitialised variables. -/
def launch (executor : Executor μ) (range : MemoryAddrRange) (PC : Word) (residue : Loop) :
    Run μ where
  executor :=
    { executor with
      flags := { nmi := false, irq := false, dma := false, execStop := false }
      registers := { executor.registers with PC } }
  loop :=
    { residue with
      totalCycles := 0
      PCEnd := range.addrLo.toNat + range.addrLen.toNat
      isInDMA := false }
  location := .fetch

/-- Leave a DMA transfer. -/
def endDMA (run : Run μ) : Run μ :=
  { run with
    executor :=
      { run.executor with
        flags := { run.executor.flags with dma := false }
        cacheDisable := run.loop.savedCacheState }
    loop :=
      { run.loop with isDMAStarted := false, isInDMA := false, nextStage := run.loop.savedStage } }

/-- Enter a DMA transfer. -/
def beginDMA (run : Run μ) : Run μ :=
  { run with
    executor := { run.executor with cacheDisable := true }
    loop :=
      { run.loop with
        isInDMA := true
        isDMAStarted := run.loop.totalCycles % 2 == 0
        isDMACopyout := run.executor.dmaConsumer.isSome
        dmaByteIndex := 0
        dmaAddrHi := run.executor.dmaRange.getEnd
        savedStage := run.loop.nextStage
        nextStage := .execDMA
        savedCacheState := run.executor.cacheDisable } }

/-- Count one cycle. -/
def tick (run : Run μ) : Run μ :=
  run.onLoop fun loop => { loop with totalCycles := loop.totalCycles + 1 }

/-- `dma_range.addr_lo++`. -/
def advanceRange (run : Run μ) : Run μ :=
  run.onExecutor fun executor =>
    { executor with
      dmaRange := { executor.dmaRange with addrLo := executor.dmaRange.addrLo + 1 } }

/-- `dma_byte_index++`. -/
def advanceIndex (run : Run μ) : Run μ :=
  run.onLoop fun loop => { loop with dmaByteIndex := loop.dmaByteIndex + 1 }

/-- End the transfer when its range is used up. -/
def endDMAAtRangeEnd (run : Run μ) : Run μ :=
  if run.executor.dmaRange.addrLo ≥ run.loop.dmaAddrHi then run.endDMA else run

section Loops

variable [Membus μ]

/-- The odd half of a started transfer: hand the byte on. -/
def dmaWrite (input : Input) (run : Run μ) : Run μ × List Event :=
  if run.loop.isDMACopyout then
    match run.executor.dmaConsumer with
    | none => (run.goto .nullCall, [])
    | some consumer =>
        let event := Event.consume consumer run.executor.dmaContext run.loop.dmaByteIndex
          run.loop.dmaNextByte input.consumed
        let called := run.advanceIndex
        let answered := if input.consumed then called else called.endDMA
        (answered.endDMAAtRangeEnd.tick, [event])
  else
    let address := run.executor.dmaRange.addrLo
    let written := run.onExecutor fun executor =>
      { executor with memory := Membus.writeAddr executor.memory address run.loop.dmaNextByte }
    (written.advanceRange.endDMAAtRangeEnd.tick, [.transferWrite address run.loop.dmaNextByte])

/-- The even half of a started transfer: obtain the byte. -/
def dmaRead (input : Input) (run : Run μ) : Run μ × List Event :=
  if run.loop.isDMACopyout then
    let address := run.executor.dmaRange.addrLo
    let result := Membus.readAddr run.executor.memory address
    let read := (run.onExecutor fun executor => { executor with memory := result.2 }).onLoop
      fun loop => { loop with dmaNextByte := result.1 }
    (read.advanceRange.tick, [.transferRead address result.1])
  else
    match run.executor.dmaProvider with
    | none => (run.goto .nullCall, [])
    | some provider =>
        let event := Event.provide provider run.executor.dmaContext run.loop.dmaByteIndex
          input.provided.1 input.provided.2
        let called := run.advanceIndex.onLoop fun loop =>
          { loop with dmaNextByte := input.provided.2 }
        ((if input.provided.1 then called else called.endDMA).tick, [event])

/-- The block `if ( is_in_dma )`. -/
def dmaCycle (input : Input) (run : Run μ) : Run μ × List Event :=
  if run.loop.isDMAStarted then
    if run.loop.totalCycles % 2 = 1 then run.dmaWrite input else run.dmaRead input
  else
    (run.tick.onLoop fun loop => { loop with isDMAStarted := loop.totalCycles % 2 == 0 }, [])

/-- The condition of the outer loop, the opcode fetch and its decoding. -/
def fetchStep (input : Input) (run : Run μ) : Run μ × List Event :=
  let address := run.executor.registers.PC
  if run.executor.flags.execStop = false ∧ address.toNat < run.loop.PCEnd then
    let result := Membus.readAddr run.executor.memory address
    let dispatch := run.executor.dialect.lookup result.1
    let fetched : Run μ :=
      { run with
        executor :=
          { run.executor with
            memory := result.2
            registers := { run.executor.registers with PC := address + 1 } }
        loop :=
          { run.loop with
            opcode := result.1
            cycleCount := 1
            totalCycles := run.loop.totalCycles + 1
            dispatch
            nextStage := input.stage } }
    if dispatch.addressingMode = .undefined then
      (fetched.leave, [.fetch address result.1, .illegal result.1])
    else (fetched.goto .cycle, [.fetch address result.1])
  else (run.leave, [.leave])

/-- One call of `exec_fn[isa_6502_opcode_exec_mode_staged]`. -/
def stagedCall (run : Run μ) : Run μ × List Event :=
  match run.loop.dispatch.staged with
  | none => (run.goto .nullCall, [.call none])
  | some routine =>
      let (after, stage) := routine.staged run.loop.dispatch.addressingMode run.loop.cycleCount
        (run.executor.frame (run.executor.statics routine))
      ({ run with
          executor := run.executor.absorbRoutine routine after
          loop :=
            { run.loop with
              nextStage := stage
              cycleCount := run.loop.cycleCount + 1
              totalCycles := run.loop.totalCycles + 1 } },
        [.call (some routine)])

/-- The call of `exec_fn[isa_6502_opcode_exec_mode_static]`, whose cycles come on top of the
fetch that `cycle_count` already holds. -/
def staticCall (input : Input) (run : Run μ) : Run μ × List Event :=
  match run.loop.dispatch.static with
  | none => (run.goto .nullCall, [.call none])
  | some routine =>
      let (after, cycles) := routine.static run.loop.dispatch.addressingMode
        (run.executor.frame input.locals)
      let cycleCount := run.loop.cycleCount + cycles
      ({ run with
          executor := run.executor.absorb after
          loop :=
            { run.loop with cycleCount, totalCycles := run.loop.totalCycles + cycleCount } },
        [.call (some routine)])

/-- The top of the inner loop: let other threads in, then notice a DMA request or make a call. -/
def dispatchCycle (call : Run μ → Run μ × List Event) (input : Input) (run : Run μ) :
    Run μ × List Event :=
  let admitted := run.onExecutor fun executor => executor.requests input.requests
  if admitted.executor.flags.dma then
    let (after, events) := admitted.beginDMA.dmaCycle input
    (after, [.unlock, .lock] ++ events)
  else
    let (after, events) := call admitted
    (after, [.unlock, .lock] ++ events)

/-- Continue after one pass through the inner loop. -/
def afterCycle (mode : ExecMode) (run : Run μ) : Run μ :=
  if run.location = .nullCall then run
  else
    match mode with
    | .staged => if run.loop.nextStage = .instrEnd then run.goto .boundary else run.goto .cycle
    | .static => run.goto .boundary

/-- One pass through the inner loop of a mode. -/
def cycleStep (mode : ExecMode) (input : Input) (run : Run μ) : Run μ × List Event :=
  let call := match mode with
    | .staged => stagedCall
    | .static => staticCall input
  let (after, events) :=
    if run.loop.isInDMA then run.dmaCycle input else run.dispatchCycle call input
  (after.afterCycle mode, events)

/-- Run an interrupt sequence to its end. -/
def service (interrupt : Interrupt) (run : Run μ) : Run μ × List Event :=
  match runCalls interrupt.staged 6 1
      (run.executor.frame (run.executor.interruptStatics interrupt)) with
  | none => (run.goto .hung, [])
  | some (calls, after) =>
      ({ run with
          executor := run.executor.absorbInterrupt interrupt after
          loop :=
            { run.loop with
              opcode := 0
              cycleCount := calls + 1
              totalCycles := run.loop.totalCycles + calls
              nextStage := .instrEnd } },
        [.service interrupt calls])

/-- Service a pending IRQ unless the I bit inhibits it. -/
def serviceIRQ (run : Run μ) : Run μ × List Event :=
  if run.executor.flags.irq && !run.executor.registers.getBit Registers.bitI then
    run.service run.executor.dialect.irq
  else (run, [])

/-- Service a pending NMI. -/
def serviceNMI (run : Run μ) : Run μ × List Event :=
  if run.executor.flags.nmi then run.service run.executor.dialect.nmi else (run, [])

/-- `flags &= ~(executor_flags_irq_is_set | executor_flags_nmi_is_set)`. -/
def clearInterrupts (run : Run μ) : Run μ :=
  run.onExecutor fun executor =>
    { executor with flags := { executor.flags with irq := false, nmi := false } }

/-- The boundary between two instructions. -/
def boundaryStep (input : Input) (run : Run μ) : Run μ × List Event :=
  let admitted := run.onExecutor fun executor => executor.requests input.requests
  let (first, irqEvents) := admitted.serviceIRQ
  let (second, nmiEvents) := first.serviceNMI
  let after := if second.location = .hung then second else second.clearInterrupts.goto .fetch
  (after, [.unlock, .lock] ++ irqEvents ++ nmiEvents)

/-- One step of a loop; a run that has ended stays as it is. -/
def step (mode : ExecMode) (run : Run μ) (input : Input) : Run μ × List Event :=
  match run.location with
  | .fetch => run.fetchStep input
  | .cycle => run.cycleStep mode input
  | .boundary => run.boundaryStep input
  | .returned | .nullCall | .hung => (run, [])

end Loops
end Run

/-- The machine of a run loop. -/
def loopMachine (μ : Type*) [Membus μ] (mode : ExecMode) :
    Lib.Machine (Run μ) Input Event where
  step := Run.step mode

end System6502
