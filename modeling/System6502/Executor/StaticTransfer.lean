import System6502.Executor.StagedTransfer

/-!
# Transfers in static mode

The static loop carries out one half-step of a transfer in the place of each instruction it has
fetched, so every half-step costs the program an instruction.
-/

namespace System6502

open Lib

variable {μ : Type*}

/-- The callbacks of a transfer as functions of what they are called with. -/
structure TransferCallbacks where
  /-- The provider: its result and its byte at an index. -/
  provide : Word → Bool × Byte
  /-- The consumer: its result for a byte at an index. -/
  consume : Word → Byte → Bool

/-- In a trace of transfer events every byte is obtained before it is handed on. -/
def ObtainsFirst : List Event → Prop
  | [] => True
  | .provide .. :: .transferWrite .. :: rest | .transferRead .. :: .consume .. :: rest =>
      ObtainsFirst rest
  | [.provide ..] | [.transferRead ..] => True
  | _ => False

namespace Run

variable [Membus μ]

/-- The callbacks answer the step. -/
def Answers (callbacks : TransferCallbacks) (run : Run μ) (input : Input) : Prop :=
  input.provided = callbacks.provide run.loop.dmaByteIndex ∧
    input.consumed = callbacks.consume run.loop.dmaByteIndex run.loop.dmaNextByte

/-- A pass of the static loop that reaches the boundary has called the function of the instruction
it fetched. -/
def CallsFetched (run : Run μ) (input : Input) : Prop :=
  run.location = .cycle → (run.step .static input).1.location = .boundary →
    ∃ routine, Event.call routine ∈ (run.step .static input).2

/-- From the step that notices a request on, a static run does what a staged run does with the
transfer, obtains every byte before it hands it on, and executes every instruction it fetches. -/
structure TransfersLikeStaged (callbacks : TransferCallbacks) (run : Run μ) (first : Input)
    (later : List Input) : Prop where
  /-- The static run has the transfer events of every staged run that completes the transfer. -/
  same : ∀ rest final,
    (loopMachine μ .staged).Meets (Answers callbacks) run (first :: rest) →
      (loopMachine μ .staged).Arrives Idle (run.step .staged first).1 rest final →
        ((loopMachine μ .static).trace run (first :: later)).filter Event.IsTransfer =
          ((loopMachine μ .staged).trace run (first :: rest)).filter Event.IsTransfer
  /-- No byte is handed on that was not obtained first. -/
  obtainsFirst :
    ObtainsFirst (((loopMachine μ .static).trace run (first :: later)).filter Event.IsTransfer)
  /-- No instruction is fetched and then skipped. -/
  callsFetched : (loopMachine μ .static).Meets CallsFetched run (first :: later)

/-! ## Half-steps in the place of instructions -/

omit [Membus μ] in
theorem afterCycle_static_location {run : Run μ} (here : run.location ≠ .nullCall) :
    (run.afterCycle .static).location = .boundary := by
  rw [afterCycle, if_neg here]
  rfl

omit [Membus μ] in
theorem endDMAAtRangeEnd_location (run : Run μ) :
    run.endDMAAtRangeEnd.location = run.location := by
  unfold endDMAAtRangeEnd
  split <;> rfl

/-- With a callback a half-step does not leave the loop. -/
theorem dmaCycle_location {order : ServedOrder} {moved : Nat} {run : Run μ} (input : Input)
    (carried : order.Carried moved run.transfer) (active : run.loop.isInDMA = true) :
    (run.dmaCycle input).1.location = run.location := by
  have direction_eq : run.loop.isDMACopyout = order.copyout :=
    (carried.latched active).1.trans order.latchedCopyout_eq
  have provider_eq : run.executor.dmaProvider = _ := carried.provider_eq
  have consumer_eq : run.executor.dmaConsumer = _ := carried.consumer_eq
  unfold dmaCycle
  split
  · cases direction : order.copyout with
    | true =>
        rw [direction, if_pos rfl, order.callback_eq] at consumer_eq
        split
        · rw [dmaWrite_of_copyout input (direction_eq.trans direction) consumer_eq]
          refine (endDMAAtRangeEnd_location _).trans ?_
          split <;> rfl
        · rw [dmaRead_of_copyout input (direction_eq.trans direction)]
          rfl
    | false =>
        rw [direction, if_neg Bool.false_ne_true, order.callback_eq] at provider_eq
        split
        · rw [dmaWrite_of_copyin input (direction_eq.trans direction)]
          exact endDMAAtRangeEnd_location _
        · rw [dmaRead_of_copyin input (direction_eq.trans direction) provider_eq]
          dsimp only
          split <;> rfl
  · rfl

/-- The step that notices a request skips the instruction it was about to execute. -/
theorem not_callsFetched_of_notice {order : ServedOrder} {run : Run μ} {input : Input}
    (here : run.location = .cycle) (idle : run.Idle)
    (carried : order.Carried 0 (run.admitRequests input).transfer) : ¬ run.CallsFetched input := by
  have step_eq : run.step .static input = run.cycleStep .static input := by
    simp only [step, here]
  intro calls
  unfold CallsFetched at calls
  rw [step_eq, cycleStep_of_requested .static input idle carried.requested] at calls
  have location_eq : ((run.admitRequests input).beginDMA.dmaCycle input).1.location = .cycle :=
    (dmaCycle_location input (carried_beginDMA carried) rfl).trans here
  have boundary :
      (((run.admitRequests input).beginDMA.dmaCycle input).1.afterCycle .static).location =
        .boundary :=
    afterCycle_static_location (by rw [location_eq]; exact Location.noConfusion)
  obtain ⟨routine, call_mem⟩ := calls here boundary
  rcases List.mem_append.mp call_mem with released | transfer
  · simp at released
  · exact dmaCycle_events input _ _ transfer

/-- So does every further half-step. -/
theorem not_callsFetched_of_active {order : ServedOrder} {moved : Nat} {run : Run μ}
    {input : Input} (here : run.location = .cycle) (active : run.loop.isInDMA = true)
    (carried : order.Carried moved run.transfer) : ¬ run.CallsFetched input := by
  have step_eq : run.step .static input = run.cycleStep .static input := by
    simp only [step, here]
  intro calls
  unfold CallsFetched at calls
  rw [step_eq, cycleStep_of_active .static input active] at calls
  have location_eq := (dmaCycle_location input carried active).trans here
  have boundary : ((run.dmaCycle input).1.afterCycle .static).location = .boundary :=
    afterCycle_static_location (by rw [location_eq]; exact Location.noConfusion)
  obtain ⟨routine, call_mem⟩ := calls here boundary
  exact dmaCycle_events input run _ call_mem

/-- No static run that notices a request carries out the transfer as staged mode does: whatever
the request, the callbacks and the program are, the instruction at which it notices the request is
skipped. -/
theorem not_transfersLikeStaged {order : ServedOrder} {run : Run μ}
    (callbacks : TransferCallbacks) {first : Input} (later : List Input)
    (here : run.location = .cycle) (idle : run.Idle)
    (carried : order.Carried 0 (run.admitRequests first).transfer) :
    ¬ run.TransfersLikeStaged callbacks first later := by
  intro transfers
  exact not_callsFetched_of_notice here idle carried transfers.callsFetched.1

end Run

open ServedOrder

/-- A provider of the byte `$55`. -/
def constantProvider : TransferCallbacks where
  provide := fun _ => (true, 0x55)
  consume := fun _ _ => true

/-- A request for two bytes at `$3000`. -/
theorem not_transfersLikeStaged_3000 :
    ¬ releasingStatic.TransfersLikeStaged constantProvider (copyinOf 0x3000 0x0002).asking [] := by
  have carried : (copyinOf 0x3000 0x0002).Carried 0
      (releasingStatic.admitRequests (copyinOf 0x3000 0x0002).asking).transfer :=
    ⟨rfl, rfl, rfl, rfl, rfl, fun _ => rfl, fun active => absurd active Bool.false_ne_true⟩
  exact Run.not_transfersLikeStaged constantProvider [] rfl rfl carried

/-- Three steps later the loop writes a byte that no provider was asked for. -/
theorem not_transfersLikeStaged_unread :
    ¬ releasingStatic.TransfersLikeStaged constantProvider (copyinOf 0x3000 0x0002).asking
        (List.replicate 3 (copyinOf 0x3000 0x0002).asking) := by
  rintro ⟨-, obtainsFirst, -⟩
  have events_eq : ((loopMachine Ram .static).trace releasingStatic
      (List.replicate 4 (copyinOf 0x3000 0x0002).asking)).filter Event.IsTransfer =
        [.transferWrite 0x3000 0x00] := by
    decide
  change ObtainsFirst (((loopMachine Ram .static).trace releasingStatic
    (List.replicate 4 (copyinOf 0x3000 0x0002).asking)).filter Event.IsTransfer) at obtainsFirst
  rw [events_eq] at obtainsFirst
  exact obtainsFirst

end System6502
