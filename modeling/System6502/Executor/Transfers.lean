import System6502.Executor.Dispatch

/-!
# DMA state of a run

Which steps of the executor loops touch the state of a DMA transfer, and what a half-step of a
transfer leaves of it.
-/

namespace System6502

open Lib

variable {μ : Type*}

/-- The part of a run that belongs to DMA. -/
structure Transfer where
  /-- `executor_flags_dma_is_set`. -/
  requested : Bool
  /-- `dma_range`. -/
  range : MemoryAddrRange
  /-- `dma_provider`. -/
  provider : Option Nat
  /-- `dma_consumer`. -/
  consumer : Option Nat
  /-- `dma_context`. -/
  context : Nat
  /-- The cache switch of the bus. -/
  cacheDisable : Bool
  /-- `is_in_dma`. -/
  active : Bool
  /-- `is_dma_started`. -/
  started : Bool
  /-- `is_dma_copyout`. -/
  copyout : Bool
  /-- `saved_membus_cache_state`. -/
  savedCacheState : Bool
  /-- `dma_addr_hi`. -/
  addrHi : Word
  /-- `dma_byte_index`. -/
  byteIndex : Word
  /-- `dma_next_byte`. -/
  nextByte : Byte

/-- The DMA state of a run. -/
def Run.transfer (run : Run μ) : Transfer where
  requested := run.executor.flags.dma
  range := run.executor.dmaRange
  provider := run.executor.dmaProvider
  consumer := run.executor.dmaConsumer
  context := run.executor.dmaContext
  cacheDisable := run.executor.cacheDisable
  active := run.loop.isInDMA
  started := run.loop.isDMAStarted
  copyout := run.loop.isDMACopyout
  savedCacheState := run.loop.savedCacheState
  addrHi := run.loop.dmaAddrHi
  byteIndex := run.loop.dmaByteIndex
  nextByte := run.loop.dmaNextByte

namespace Run

/-- Let other threads make their requests. -/
def admitRequests (input : Input) (run : Run μ) : Run μ :=
  run.onExecutor fun executor => executor.requests input.requests

@[simp]
theorem goto_transfer (run : Run μ) (location : Location) :
    (run.goto location).transfer = run.transfer := rfl

@[simp]
theorem afterCycle_transfer (mode : ExecMode) (run : Run μ) :
    (run.afterCycle mode).transfer = run.transfer := by
  unfold afterCycle
  split
  · rfl
  · split
    · split <;> rfl
    · rfl

theorem afterCycle_loop (mode : ExecMode) (run : Run μ) :
    (run.afterCycle mode).loop = run.loop := by
  unfold afterCycle
  split
  · rfl
  · split
    · split <;> rfl
    · rfl

@[simp]
theorem clearInterrupts_transfer (run : Run μ) : run.clearInterrupts.transfer = run.transfer := rfl

variable [Membus μ]

@[simp]
theorem fetchStep_transfer (input : Input) (run : Run μ) :
    (run.fetchStep input).1.transfer = run.transfer := by
  unfold fetchStep
  dsimp only
  split
  · split <;> rfl
  · rfl

@[simp]
theorem stagedCall_transfer (run : Run μ) : run.stagedCall.1.transfer = run.transfer := by
  unfold stagedCall
  split <;> rfl

@[simp]
theorem staticCall_transfer (input : Input) (run : Run μ) :
    (run.staticCall input).1.transfer = run.transfer := by
  unfold staticCall
  split <;> rfl

@[simp]
theorem service_transfer (interrupt : Interrupt) (run : Run μ) :
    (run.service interrupt).1.transfer = run.transfer := by
  unfold service
  split <;> rfl

@[simp]
theorem serviceIRQ_transfer (run : Run μ) : run.serviceIRQ.1.transfer = run.transfer := by
  unfold serviceIRQ
  split
  · exact service_transfer _ run
  · rfl

@[simp]
theorem serviceNMI_transfer (run : Run μ) : run.serviceNMI.1.transfer = run.transfer := by
  unfold serviceNMI
  split
  · exact service_transfer _ run
  · rfl

theorem boundaryStep_transfer (input : Input) (run : Run μ) :
    (run.boundaryStep input).1.transfer = (run.admitRequests input).transfer := by
  simp only [boundaryStep]
  split <;> simp only [clearInterrupts_transfer, goto_transfer, serviceNMI_transfer,
    serviceIRQ_transfer, admitRequests]

theorem cycleStep_of_active (mode : ExecMode) (input : Input) {run : Run μ}
    (active : run.loop.isInDMA = true) :
    run.cycleStep mode input =
      ((run.dmaCycle input).1.afterCycle mode, (run.dmaCycle input).2) := by
  simp only [cycleStep, active, if_true]

theorem cycleStep_of_requested (mode : ExecMode) (input : Input) {run : Run μ}
    (idle : run.loop.isInDMA = false)
    (requested : (run.admitRequests input).executor.flags.dma = true) :
    run.cycleStep mode input =
      (((run.admitRequests input).beginDMA.dmaCycle input).1.afterCycle mode,
        [.unlock, .lock] ++ ((run.admitRequests input).beginDMA.dmaCycle input).2) := by
  unfold admitRequests at requested ⊢
  simp only [cycleStep, idle, dispatchCycle, requested, if_true, Bool.false_eq_true, if_false]

/-- A call of an instruction function. -/
def callStep (mode : ExecMode) (input : Input) (run : Run μ) : Run μ × List Event :=
  match mode with
  | .staged => run.stagedCall
  | .static => run.staticCall input

theorem callStep_transfer (mode : ExecMode) (input : Input) (run : Run μ) :
    (run.callStep mode input).1.transfer = run.transfer := by
  cases mode with
  | staged => exact stagedCall_transfer run
  | static => exact staticCall_transfer input run

theorem callStep_events (mode : ExecMode) (input : Input) (run : Run μ) :
    (run.callStep mode input).2 = [.call (run.callee mode)] := by
  cases mode with
  | staged => exact stagedCall_events run
  | static => exact staticCall_events input run

theorem cycleStep_of_idle (mode : ExecMode) (input : Input) {run : Run μ}
    (idle : run.loop.isInDMA = false)
    (quiet : (run.admitRequests input).executor.flags.dma = false) :
    run.cycleStep mode input =
      (((run.admitRequests input).callStep mode input).1.afterCycle mode,
        [.unlock, .lock, .call (run.callee mode)]) := by
  have events := callStep_events mode input (run.admitRequests input)
  unfold admitRequests at quiet events ⊢
  simp only [cycleStep, idle, dispatchCycle, quiet, Bool.false_eq_true, if_false]
  cases mode with
  | staged => exact congrArg (Prod.mk _) (congrArg ([Event.unlock, .lock] ++ ·) events)
  | static => exact congrArg (Prod.mk _) (congrArg ([Event.unlock, .lock] ++ ·) events)

/-! ## Half-steps of a transfer -/

theorem dmaWrite_of_copyout (input : Input) {run : Run μ} {consumer : Nat}
    (copyout : run.loop.isDMACopyout = true)
    (consumes : run.executor.dmaConsumer = some consumer) :
    run.dmaWrite input =
      ((if input.consumed then run.advanceIndex else run.advanceIndex.endDMA).endDMAAtRangeEnd.tick,
        [.consume consumer run.executor.dmaContext run.loop.dmaByteIndex run.loop.dmaNextByte
          input.consumed]) := by
  unfold dmaWrite
  rw [if_pos copyout]
  split
  · rename_i null
    cases null.symm.trans consumes
  · rename_i other other_eq
    obtain rfl : other = consumer := Option.some.inj (other_eq.symm.trans consumes)
    rfl

/-- The byte of a copy-in is written to memory. -/
def writeNextByte (run : Run μ) : Run μ :=
  run.onExecutor fun executor =>
    { executor with
      memory :=
        Membus.writeAddr executor.memory run.executor.dmaRange.addrLo run.loop.dmaNextByte }

theorem dmaWrite_of_copyin (input : Input) {run : Run μ}
    (copyin : run.loop.isDMACopyout = false) :
    run.dmaWrite input =
      (run.writeNextByte.advanceRange.endDMAAtRangeEnd.tick,
        [.transferWrite run.executor.dmaRange.addrLo run.loop.dmaNextByte]) := by
  simp only [dmaWrite, copyin, Bool.false_eq_true, if_false]
  rfl

/-- The byte of a copy-out is read from memory. -/
def readNextByte (run : Run μ) : Run μ :=
  let result := Membus.readAddr run.executor.memory run.executor.dmaRange.addrLo
  (run.onExecutor fun executor => { executor with memory := result.2 }).onLoop
    fun loop => { loop with dmaNextByte := result.1 }

theorem dmaRead_of_copyout (input : Input) {run : Run μ}
    (copyout : run.loop.isDMACopyout = true) :
    run.dmaRead input =
      (run.readNextByte.advanceRange.tick,
        [.transferRead run.executor.dmaRange.addrLo run.readNextByte.loop.dmaNextByte]) := by
  simp only [dmaRead, copyout, if_true]
  rfl

/-- The byte of a copy-in comes from the provider. -/
def takeProvided (input : Input) (run : Run μ) : Run μ :=
  run.advanceIndex.onLoop fun loop => { loop with dmaNextByte := input.provided.2 }

theorem dmaRead_of_copyin (input : Input) {run : Run μ} {provider : Nat}
    (copyin : run.loop.isDMACopyout = false)
    (provides : run.executor.dmaProvider = some provider) :
    run.dmaRead input =
      ((if input.provided.1 then run.takeProvided input else (run.takeProvided input).endDMA).tick,
        [.provide provider run.executor.dmaContext run.loop.dmaByteIndex input.provided.1
          input.provided.2]) := by
  unfold dmaRead
  rw [if_neg (by rw [copyin]; exact Bool.false_ne_true)]
  split
  · rename_i null
    cases null.symm.trans provides
  · rename_i other other_eq
    obtain rfl : other = provider := Option.some.inj (other_eq.symm.trans provides)
    rfl

/-! ## Where a step leads -/

omit [Membus μ] in
theorem afterCycle_location (mode : ExecMode) (run : Run μ) :
    (run.afterCycle mode).location = .nullCall ∨ (run.afterCycle mode).location = .cycle ∨
      (run.afterCycle mode).location = .boundary := by
  unfold afterCycle
  split
  · rename_i null
    exact .inl null
  · split
    · split
      · exact .inr (.inr rfl)
      · exact .inr (.inl rfl)
    · exact .inr (.inr rfl)

/-- The next step leaves the launch. -/
def Leaves (run : Run μ) : Prop :=
  run.location = .fetch ∧
    (run.Fetching → (run.executor.dialect.lookup run.nextOpcode).addressingMode = .undefined)

theorem step_returned_iff (mode : ExecMode) (input : Input) {run : Run μ}
    (inside : run.location ≠ .returned) :
    (run.step mode input).1.location = .returned ↔ run.Leaves := by
  unfold step Leaves
  cases location_eq : run.location with
  | fetch =>
      simp only [true_and]
      by_cases fetching : run.Fetching
      · by_cases undefined :
          (run.executor.dialect.lookup run.nextOpcode).addressingMode = .undefined
        · exact iff_of_true (fetchStep_of_undefined input fetching undefined).2 fun _ => undefined
        · refine iff_of_false ?_ fun leaves => undefined (leaves fetching)
          rw [(fetchStep_of_defined input fetching undefined).2.1]
          exact Location.noConfusion
      · refine iff_of_true ?_ fun goes => absurd goes fetching
        rw [fetchStep_of_not_fetching input location_eq fetching]
        rfl
  | cycle =>
      refine iff_of_false ?_ fun leaves => Location.noConfusion leaves.1
      intro returned
      rcases afterCycle_location mode _ with null | cycle | boundary
      · cases null.symm.trans returned
      · cases cycle.symm.trans returned
      · cases boundary.symm.trans returned
  | boundary =>
      refine iff_of_false ?_ fun leaves => Location.noConfusion leaves.1
      simp only [boundaryStep]
      split
      · rename_i hung
        rw [hung]
        exact Location.noConfusion
      · exact Location.noConfusion
  | returned => exact absurd location_eq inside
  | nullCall | hung =>
      exact iff_of_false (fun returned => by cases location_eq.symm.trans returned)
        fun leaves => Location.noConfusion leaves.1

/-- A launch that leaves keeps its DMA state. -/
theorem step_transfer_of_leaves (mode : ExecMode) (input : Input) {run : Run μ}
    (leaves : run.Leaves) : (run.step mode input).1.transfer = run.transfer := by
  simp only [step, leaves.1, fetchStep_transfer]

theorem run_of_ended (mode : ExecMode) {run : Run μ} (inputs : List Input)
    (ended : run.location = .returned) : (loopMachine μ mode).run run inputs = run := by
  induction inputs with
  | nil => rfl
  | cons first rest ih =>
      have step_eq : (run.step mode first).1 = run := by simp only [step, ended]
      rw [Machine.run_cons]
      change (loopMachine μ mode).run (run.step mode first).1 rest = run
      rw [step_eq, ih]

end Run
end System6502
