import System6502.Executor
import System6502.Isa.Decode

/-!
# Dispatch safety

Which runs of the executor loops call only non-null instruction functions and stop at every byte
without an instruction.
-/

namespace System6502

open Lib

variable {μ : Type*}

/-- The events of a DMA transfer. -/
def Event.IsTransfer : Event → Prop
  | .provide .. | .consume .. | .transferRead .. | .transferWrite .. => True
  | _ => False

namespace Run

/-! ## What a step leaves alone -/

@[simp]
theorem endDMA_dispatch (run : Run μ) : run.endDMA.loop.dispatch = run.loop.dispatch := rfl

@[simp]
theorem endDMAAtRangeEnd_dispatch (run : Run μ) :
    run.endDMAAtRangeEnd.loop.dispatch = run.loop.dispatch := by
  unfold endDMAAtRangeEnd
  split <;> rfl

variable [Membus μ]

theorem dmaWrite_dispatch (input : Input) (run : Run μ) :
    (run.dmaWrite input).1.loop.dispatch = run.loop.dispatch := by
  unfold dmaWrite
  split
  · split
    · rfl
    · dsimp only
      split <;> exact endDMAAtRangeEnd_dispatch _
  · exact endDMAAtRangeEnd_dispatch _

theorem dmaRead_dispatch (input : Input) (run : Run μ) :
    (run.dmaRead input).1.loop.dispatch = run.loop.dispatch := by
  unfold dmaRead
  split
  · rfl
  · split
    · rfl
    · dsimp only
      split <;> rfl

theorem dmaCycle_dispatch (input : Input) (run : Run μ) :
    (run.dmaCycle input).1.loop.dispatch = run.loop.dispatch := by
  unfold dmaCycle
  split
  · split
    · exact dmaWrite_dispatch input run
    · exact dmaRead_dispatch input run
  · rfl

theorem dmaCycle_events (input : Input) (run : Run μ) :
    ∀ event ∈ (run.dmaCycle input).2, event.IsTransfer := by
  intro event event_mem
  unfold dmaCycle dmaWrite dmaRead at event_mem
  split at event_mem
  · split at event_mem <;> split at event_mem
    · split at event_mem
      · cases event_mem
      · obtain rfl := List.mem_singleton.mp event_mem
        trivial
    · obtain rfl := List.mem_singleton.mp event_mem
      trivial
    · obtain rfl := List.mem_singleton.mp event_mem
      trivial
    · split at event_mem
      · cases event_mem
      · obtain rfl := List.mem_singleton.mp event_mem
        trivial
  · cases event_mem

theorem stagedCall_dispatch (run : Run μ) :
    run.stagedCall.1.loop.dispatch = run.loop.dispatch := by
  unfold stagedCall
  split <;> rfl

theorem staticCall_dispatch (input : Input) (run : Run μ) :
    (run.staticCall input).1.loop.dispatch = run.loop.dispatch := by
  unfold staticCall
  split <;> rfl

theorem stagedCall_events (run : Run μ) : run.stagedCall.2 = [.call run.loop.dispatch.staged] := by
  unfold stagedCall
  split <;> simp_all

theorem staticCall_events (input : Input) (run : Run μ) :
    (run.staticCall input).2 = [.call run.loop.dispatch.static] := by
  unfold staticCall
  split <;> simp_all

/-- The function pointer a mode calls. -/
def callee (mode : ExecMode) (run : Run μ) : Option Routine :=
  match mode with
  | .staged => run.loop.dispatch.staged
  | .static => run.loop.dispatch.static

omit [Membus μ] in
@[simp]
theorem afterCycle_dispatch (mode : ExecMode) (run : Run μ) :
    (run.afterCycle mode).loop.dispatch = run.loop.dispatch := by
  unfold afterCycle
  split
  · rfl
  · split
    · split <;> rfl
    · rfl

theorem cycleStep_dispatch (mode : ExecMode) (input : Input) (run : Run μ) :
    (run.cycleStep mode input).1.loop.dispatch = run.loop.dispatch := by
  simp only [cycleStep, afterCycle_dispatch]
  split
  · exact dmaCycle_dispatch input run
  · unfold dispatchCycle
    dsimp only
    split
    · exact dmaCycle_dispatch input _
    · cases mode
      · exact stagedCall_dispatch _
      · exact staticCall_dispatch input _

/-- The inner loop calls the function pointer of its dispatch record and fetches nothing. -/
theorem cycleStep_events (mode : ExecMode) (input : Input) (run : Run μ) :
    ∀ event ∈ (run.cycleStep mode input).2,
      event.IsTransfer ∨ event = .lock ∨ event = .unlock ∨ event = .call (run.callee mode) := by
  intro event event_mem
  simp only [cycleStep] at event_mem
  split at event_mem
  · exact .inl (dmaCycle_events input run event event_mem)
  · unfold dispatchCycle at event_mem
    dsimp only at event_mem
    split at event_mem
    · simp only [List.cons_append, List.nil_append, List.mem_cons] at event_mem
      rcases event_mem with rfl | rfl | event_mem
      · exact .inr (.inr (.inl rfl))
      · exact .inr (.inl rfl)
      · exact .inl (dmaCycle_events input _ event event_mem)
    · cases mode <;>
        simp only [stagedCall_events, staticCall_events, List.cons_append, List.nil_append,
          List.mem_cons, List.not_mem_nil, or_false] at event_mem <;>
        rcases event_mem with rfl | rfl | rfl <;> simp [callee, onExecutor]

theorem service_events (interrupt : Interrupt) (run : Run μ) :
    ∀ event ∈ (run.service interrupt).2, ∃ calls, event = .service interrupt calls := by
  intro event event_mem
  unfold service at event_mem
  split at event_mem
  · cases event_mem
  · exact ⟨_, List.mem_singleton.mp event_mem⟩

theorem serviceIRQ_events (run : Run μ) :
    ∀ event ∈ run.serviceIRQ.2, ∃ interrupt calls, event = .service interrupt calls := by
  intro event event_mem
  unfold serviceIRQ at event_mem
  split at event_mem
  · exact ⟨_, service_events _ _ event event_mem⟩
  · cases event_mem

theorem serviceNMI_events (run : Run μ) :
    ∀ event ∈ run.serviceNMI.2, ∃ interrupt calls, event = .service interrupt calls := by
  intro event event_mem
  unfold serviceNMI at event_mem
  split at event_mem
  · exact ⟨_, service_events _ _ event event_mem⟩
  · cases event_mem

/-- The boundary between two instructions only services interrupts. -/
theorem boundaryStep_events (input : Input) (run : Run μ) :
    ∀ event ∈ (run.boundaryStep input).2,
      event = .lock ∨ event = .unlock ∨ ∃ interrupt calls, event = .service interrupt calls := by
  intro event event_mem
  simp only [boundaryStep, List.cons_append, List.nil_append, List.mem_cons,
    List.mem_append] at event_mem
  rcases event_mem with rfl | rfl | event_mem | event_mem
  · exact .inr (.inl rfl)
  · exact .inl rfl
  · exact .inr (.inr (serviceIRQ_events _ event event_mem))
  · exact .inr (.inr (serviceNMI_events _ event event_mem))

theorem boundaryStep_location_ne_cycle (input : Input) (run : Run μ) :
    (run.boundaryStep input).1.location ≠ .cycle := by
  simp only [boundaryStep]
  split
  · rename_i hung_eq
    rw [hung_eq]
    exact Location.noConfusion
  · exact Location.noConfusion

/-! ## Safety of one step -/

/-- The loop goes on to fetch an opcode. -/
def Fetching (run : Run μ) : Prop :=
  run.location = .fetch ∧ run.executor.flags.execStop = false ∧
    run.executor.registers.PC.toNat < run.loop.PCEnd

/-- The byte at the program counter. -/
def nextOpcode (run : Run μ) : Byte :=
  (Membus.readAddr run.executor.memory run.executor.registers.PC).1

/-- A step that fetches does not fetch from the blank block. -/
def FetchesSolid (run : Run μ) (_input : Input) : Prop :=
  run.Fetching → ¬ Dialect.Blank run.nextOpcode

/-- A step calls no null pointer and stops at a fetched byte without an instruction. -/
def DispatchesSafely (mode : ExecMode) (run : Run μ) (input : Input) : Prop :=
  (∀ routine, Event.call routine ∈ (run.step mode input).2 → routine ≠ none) ∧
    ∀ address opcode, Event.fetch address opcode ∈ (run.step mode input).2 →
      ¬ run.executor.dialect.Implements opcode →
        Event.illegal opcode ∈ (run.step mode input).2 ∧
          (run.step mode input).1.location = .returned

/-- Inside an instruction the loop holds a record with both functions. -/
def Decoded (run : Run μ) : Prop :=
  run.location = .cycle → ∀ mode, run.callee mode ≠ none

theorem fetchStep_of_not_fetching (input : Input) {run : Run μ} (here : run.location = .fetch)
    (stops : ¬ run.Fetching) : run.fetchStep input = (run.leave, [.leave]) := by
  unfold fetchStep
  exact if_neg fun goes => stops ⟨here, goes⟩

theorem fetchStep_of_undefined (input : Input) {run : Run μ} (fetching : run.Fetching)
    (undefined : (run.executor.dialect.lookup run.nextOpcode).addressingMode = .undefined) :
    (run.fetchStep input).2 =
        [.fetch run.executor.registers.PC run.nextOpcode, .illegal run.nextOpcode] ∧
      (run.fetchStep input).1.location = .returned := by
  unfold nextOpcode at undefined
  unfold fetchStep
  dsimp only
  rw [if_pos fetching.2, if_pos undefined]
  exact ⟨rfl, rfl⟩

theorem fetchStep_of_defined (input : Input) {run : Run μ} (fetching : run.Fetching)
    (defined : (run.executor.dialect.lookup run.nextOpcode).addressingMode ≠ .undefined) :
    (run.fetchStep input).2 = [.fetch run.executor.registers.PC run.nextOpcode] ∧
      (run.fetchStep input).1.location = .cycle ∧
        (run.fetchStep input).1.loop.dispatch = run.executor.dialect.lookup run.nextOpcode := by
  unfold nextOpcode at defined
  unfold fetchStep
  dsimp only
  rw [if_pos fetching.2, if_neg defined]
  exact ⟨rfl, rfl, rfl⟩

/-- Outside the blank block an opcode without a defined mode is one without an instruction. -/
theorem implements_iff_of_solid (dialect : Dialect) {opcode : Byte}
    (solid : ¬ Dialect.Blank opcode) :
    dialect.Implements opcode ↔ (dialect.lookup opcode).addressingMode ≠ .undefined := by
  constructor
  · intro implemented undefined
    have formed := dialect.lookup_wellFormed opcode
    unfold Dispatch.WellFormed at formed
    split at formed
    · exact formed.2.2 undefined
    · rename_i staged_eq
      rw [Dialect.Implements, staged_eq] at implemented
      cases implemented
  · intro defined
    rcases dialect.lookup_cases opcode defined with ⟨blank, -⟩ | ⟨routine, -, slot_eq, -⟩
    · exact absurd blank solid
    · rw [Dialect.Implements, slot_eq]
      rfl

theorem dispatchesSafely_fetch (mode : ExecMode) (input : Input) {run : Run μ}
    (fetching : run.Fetching) :
    run.DispatchesSafely mode input ↔ ¬ Dialect.Blank run.nextOpcode := by
  have step_eq : run.step mode input = run.fetchStep input := by
    simp only [step, fetching.1]
  rw [DispatchesSafely, step_eq]
  by_cases undefined : (run.executor.dialect.lookup run.nextOpcode).addressingMode = .undefined
  · obtain ⟨events_eq, location_eq⟩ := fetchStep_of_undefined input fetching undefined
    rw [events_eq, location_eq]
    refine iff_of_true ⟨?_, ?_⟩ fun blank => ?_
    · simp
    · intro address opcode fetch_mem absent
      obtain ⟨-, rfl⟩ : address = _ ∧ opcode = run.nextOpcode := by simpa using fetch_mem
      exact ⟨by simp, rfl⟩
    · rw [(run.executor.dialect.lookup_blank run.nextOpcode).mp blank] at undefined
      cases undefined
  · obtain ⟨events_eq, location_eq, -⟩ := fetchStep_of_defined input fetching undefined
    rw [events_eq, location_eq]
    constructor
    · rintro ⟨-, stops⟩ blank
      have absent : ¬ run.executor.dialect.Implements run.nextOpcode := by
        rw [Dialect.Implements, (run.executor.dialect.lookup_blank run.nextOpcode).mp blank]
        exact Bool.false_ne_true
      cases (stops _ _ List.mem_cons_self absent).2
    · intro solid
      refine ⟨by simp, fun address opcode fetch_mem absent => ?_⟩
      obtain ⟨-, rfl⟩ : address = _ ∧ opcode = run.nextOpcode := by simpa using fetch_mem
      exact absurd ((implements_iff_of_solid _ solid).mpr undefined) absent

/-- Under the decoding invariant a step is safe exactly when it does not fetch from the blank
block. -/
theorem dispatchesSafely_iff (mode : ExecMode) (run : Run μ) (input : Input)
    (decoded : run.Decoded) : run.DispatchesSafely mode input ↔ run.FetchesSolid input := by
  by_cases fetching : run.Fetching
  · rw [dispatchesSafely_fetch mode input fetching, FetchesSolid]
    exact ⟨fun solid _ => solid, fun solid => solid fetching⟩
  · refine iff_of_true ?_ fun goes => absurd goes fetching
    rcases location_eq : run.location with _ | _ | _ | _ | _ | _
    · have step_eq : run.step mode input = (run.leave, [.leave]) := by
        rw [step, location_eq]
        exact fetchStep_of_not_fetching input location_eq fetching
      rw [DispatchesSafely, step_eq]
      simp
    · have step_eq : run.step mode input = run.cycleStep mode input := by
        simp only [step, location_eq]
      rw [DispatchesSafely, step_eq]
      have events := cycleStep_events mode input run
      refine ⟨fun routine call_mem => ?_, fun address opcode fetch_mem => ?_⟩
      · rcases events _ call_mem with transfer | lock | unlock | call
        · exact transfer.elim
        · cases lock
        · cases unlock
        · rw [Event.call.inj call]
          exact decoded location_eq mode
      · rcases events _ fetch_mem with transfer | lock | unlock | call
        · exact transfer.elim
        · cases lock
        · cases unlock
        · cases call
    · have step_eq : run.step mode input = run.boundaryStep input := by
        simp only [step, location_eq]
      rw [DispatchesSafely, step_eq]
      have events := boundaryStep_events input run
      refine ⟨fun routine call_mem => ?_, fun address opcode fetch_mem => ?_⟩
      · rcases events _ call_mem with lock | unlock | ⟨interrupt, calls, service⟩
        · cases lock
        · cases unlock
        · cases service
      · rcases events _ fetch_mem with lock | unlock | ⟨interrupt, calls, service⟩
        · cases lock
        · cases unlock
        · cases service
    all_goals
      have step_eq : run.step mode input = (run, []) := by simp only [step, location_eq]
      rw [DispatchesSafely, step_eq]
      simp

/-- The decoding invariant survives every step that does not fetch from the blank block. -/
theorem decoded_step (mode : ExecMode) (run : Run μ) (input : Input) (decoded : run.Decoded)
    (solid : run.FetchesSolid input) : (run.step mode input).1.Decoded := by
  intro inside
  rcases location_eq : run.location with _ | _ | _ | _ | _ | _
  · have step_eq : run.step mode input = run.fetchStep input := by simp only [step, location_eq]
    rw [step_eq] at inside ⊢
    by_cases fetching : run.Fetching
    · have defined : (run.executor.dialect.lookup run.nextOpcode).addressingMode ≠
          .undefined := by
        intro undefined
        rw [(fetchStep_of_undefined input fetching undefined).2] at inside
        cases inside
      have dispatch_eq := (fetchStep_of_defined input fetching defined).2.2
      rcases run.executor.dialect.lookup_cases run.nextOpcode defined with
        ⟨blank, -⟩ | ⟨routine, -, slot_eq, -⟩
      · exact absurd blank (solid fetching)
      · rw [slot_eq] at dispatch_eq
        intro callMode
        cases callMode <;> rw [callee, dispatch_eq] <;> exact Option.some_ne_none routine
    · rw [fetchStep_of_not_fetching input location_eq fetching] at inside
      cases inside
  · have step_eq : run.step mode input = run.cycleStep mode input := by
      simp only [step, location_eq]
    intro callMode
    rw [step_eq]
    have kept := cycleStep_dispatch mode input run
    have before := decoded location_eq callMode
    cases callMode <;> simpa only [callee, kept] using before
  · have step_eq : run.step mode input = run.boundaryStep input := by
      simp only [step, location_eq]
    rw [step_eq] at inside
    exact absurd inside (boundaryStep_location_ne_cycle input run)
  all_goals
    have step_eq : run.step mode input = (run, []) := by simp only [step, location_eq]
    rw [step_eq, location_eq] at inside
    cases inside

end Run

/-- A run calls only non-null functions and stops at every byte without an instruction exactly
when it fetches no byte whose low two bits are both set. -/
theorem dispatchesSafely_run_iff [Membus μ] (mode : ExecMode) (executor : Executor μ)
    (range : MemoryAddrRange) (PC : Word) (residue : Loop) (inputs : List Input) :
    (loopMachine μ mode).Meets (Run.DispatchesSafely mode)
        (Run.launch executor range PC residue) inputs ↔
      (loopMachine μ mode).Meets Run.FetchesSolid (Run.launch executor range PC residue)
        inputs := by
  have initial : (Run.launch executor range PC residue).Decoded := by
    intro location_eq
    cases location_eq
  exact (loopMachine μ mode).meets_congr
    (fun run input decoded => run.dispatchesSafely_iff mode input decoded)
    (fun run input decoded solid => run.decoded_step mode input decoded solid) _ inputs initial

/-- A staged launch on memory filled with `$03` calls a null pointer. -/
theorem not_dispatchesSafely_on_03 :
    ¬ (loopMachine Ram .staged).Meets (Run.DispatchesSafely .staged)
        (Run.launch (Executor.alloc Registers.reset (fun _ => 0x03) .base)
          { addrLo := 0, addrLen := 0xFFFF } 0x0200 Loop.zero)
        [Input.quiet .nextCycle Locals.zero, Input.quiet .nextCycle Locals.zero] := by
  rintro ⟨-, ⟨solid, -⟩, -⟩
  exact solid none (by decide) rfl

end System6502
