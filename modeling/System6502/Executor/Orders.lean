import System6502.Executor.Interrupts
import System6502.Executor.Transfers

/-!
# Orders

A request for a transfer as the loops carry it out.  From the step that accepts it until the flag
is cleared the DMA state of a run is that of the request, with the bytes moved so far counted off
its range.
-/

namespace System6502

open Lib

variable {μ : Type*}

/-! ## Orders -/

/-- A request for a transfer. -/
structure TransferOrder where
  /-- The transfer moves bytes out of memory. -/
  copyout : Bool
  /-- The range in memory. -/
  range : MemoryAddrRange
  /-- The provider or the consumer, or a null pointer. -/
  callback : Option Nat
  /-- The context of the callback. -/
  context : Nat

/-- The request asks for a transfer. -/
def Request.IsTransfer : Request → Prop
  | .setDMACopyin .. | .setDMACopyout .. => True
  | .setIRQ | .setNMI | .setExecStop => False

theorem MemoryAddrRange.toNat_getEnd (range : MemoryAddrRange) :
    range.getEnd.toNat = min (range.addrLo.toNat + range.addrLen.toNat) 0xFFFF := by
  unfold MemoryAddrRange.getEnd
  split <;> bv_omega

/-- The address that a transfer accesses. -/
def Event.busAddress : Event → Option Word
  | .transferRead address _ | .transferWrite address _ => some address
  | _ => none

namespace TransferOrder

/-- The call of `executor_set_dma_copyin` or `executor_set_dma_copyout`. -/
def request (order : TransferOrder) : Request :=
  if order.copyout then .setDMACopyout order.range order.callback order.context
  else .setDMACopyin order.range order.callback order.context

/-- `is_dma_copyout`, which the loops set to `dma_consumer != NULL`. -/
def latchedCopyout (order : TransferOrder) : Bool := order.copyout && order.callback.isSome

/-- A copy-out with a null pointer for its consumer, which the loops take for a copy-in. -/
def Misread (order : TransferOrder) : Prop := order.copyout = true ∧ order.callback = none

instance (order : TransferOrder) : Decidable order.Misread :=
  inferInstanceAs (Decidable (_ ∧ _))

theorem latchedCopyout_eq_iff (order : TransferOrder) :
    order.latchedCopyout = order.copyout ↔ ¬ order.Misread := by
  unfold latchedCopyout Misread
  cases order.copyout <;> cases order.callback <;> simp

/-- The content of `dma_range` after a number of bytes. -/
def remaining (order : TransferOrder) (moved : Nat) : MemoryAddrRange where
  addrLo := order.range.addrLo + BitVec.ofNat 16 moved
  addrLen := order.range.addrLen

@[simp]
theorem remaining_zero (order : TransferOrder) : order.remaining 0 = order.range := by
  simp [remaining]

theorem remaining_succ (order : TransferOrder) (moved : Nat) :
    { order.remaining moved with addrLo := (order.remaining moved).addrLo + 1 } =
      order.remaining (moved + 1) := by
  simp only [remaining, BitVec.ofNat_add, BitVec.add_assoc]
  rfl

theorem toNat_remaining (order : TransferOrder) (moved : Nat) :
    (order.remaining moved).addrLo.toNat = (order.range.addrLo.toNat + moved) % 0x10000 := by
  simp [remaining, BitVec.toNat_add]

/-- A run carries out an order, of which it has moved a number of bytes. -/
structure Carried (order : TransferOrder) (moved : Nat) (state : Transfer) : Prop where
  /-- The flag is set. -/
  requested : state.requested = true
  /-- The range is that of the order, without the bytes moved. -/
  range_eq : state.range = order.remaining moved
  /-- The provider is that of the order. -/
  provider_eq : state.provider = if order.copyout then none else order.callback
  /-- The consumer is that of the order. -/
  consumer_eq : state.consumer = if order.copyout then order.callback else none
  /-- The context is that of the order. -/
  context_eq : state.context = order.context
  /-- Nothing is moved before the transfer begins. -/
  untouched : state.active = false → moved = 0
  /-- The loop has taken the direction and the end address from the order. -/
  latched : state.active = true →
    state.copyout = order.latchedCopyout ∧ state.addrHi = order.range.getEnd

/-- The outcome of a step that carries on with an order, unless it has ended the transfer. -/
def Continues (order : TransferOrder) (moved : Nat) (result : Run μ × List Event) : Prop :=
  ∃ count, result.2.filterMap Event.busAddress =
      consecutive (order.remaining moved).addrLo count ∧
    (result.1.executor.flags.dma = true → order.Carried (moved + count) result.1.transfer)

end TransferOrder

namespace Executor

/-- While the flag is set, requests for transfers change nothing. -/
theorem request_of_dma {executor : Executor μ} {request : Request}
    (busy : executor.flags.dma = true) (transfer : request.IsTransfer) :
    executor.request request = executor := by
  cases request with
  | setIRQ | setNMI | setExecStop => exact transfer.elim
  | setDMACopyin | setDMACopyout => simp only [Executor.request, busy, if_true]

/-- Other requests leave the DMA state alone. -/
theorem transfer_request_of_other (run : Run μ) {request : Request} (other : ¬ request.IsTransfer) :
    (run.onExecutor fun executor => executor.request request).transfer = run.transfer := by
  cases request with
  | setIRQ | setNMI | setExecStop => rfl
  | setDMACopyin | setDMACopyout => exact absurd trivial other

end Executor

namespace Run

theorem transfer_requests_of_dma (run : Run μ) (pending : List Request)
    (busy : run.executor.flags.dma = true) :
    (run.onExecutor fun executor => executor.requests pending).transfer = run.transfer := by
  induction pending generalizing run with
  | nil => rfl
  | cons first rest ih =>
      let asked := run.onExecutor fun executor => executor.request first
      have asked_eq : asked.transfer = run.transfer := by
        by_cases transfer : first.IsTransfer
        · simp only [asked, onExecutor, Executor.request_of_dma busy transfer]
        · exact Executor.transfer_request_of_other run transfer
      have stillBusy : asked.executor.flags.dma = true :=
        (congrArg Transfer.requested asked_eq).trans busy
      exact (ih asked stillBusy).trans asked_eq

theorem transfer_requests_of_others (run : Run μ) (pending : List Request)
    (others : ∀ request ∈ pending, ¬ request.IsTransfer) :
    (run.onExecutor fun executor => executor.requests pending).transfer = run.transfer := by
  induction pending generalizing run with
  | nil => rfl
  | cons first rest ih =>
      rw [List.forall_mem_cons] at others
      exact (ih (run.onExecutor fun executor => executor.request first) others.2).trans
        (Executor.transfer_request_of_other run others.1)

/-- The first request for a transfer that obtains the lock is carried out. -/
theorem carried_of_accepted {run : Run μ} {order : TransferOrder} {input : Input}
    {before after : List Request} (clear : run.executor.flags.dma = false)
    (idle : run.loop.isInDMA = false)
    (requests_eq : input.requests = before ++ order.request :: after)
    (others : ∀ request ∈ before, ¬ request.IsTransfer) :
    order.Carried 0 (run.admitRequests input).transfer := by
  let opened := run.onExecutor fun executor => executor.requests before
  have opened_eq : opened.transfer = run.transfer := transfer_requests_of_others run before others
  let asked := opened.onExecutor fun executor => executor.request order.request
  have free : opened.executor.flags.dma = false :=
    (congrArg Transfer.requested opened_eq).trans clear
  have still : asked.transfer.active = false := (congrArg Transfer.active opened_eq).trans idle
  have carried : order.Carried 0 asked.transfer := by
    have request_eq : asked.executor = opened.executor.request order.request := rfl
    unfold TransferOrder.request at request_eq
    cases copyout : order.copyout with
    | true | false =>
        rw [copyout] at request_eq
        simp only [Executor.request, free, if_true, Bool.false_eq_true, if_false] at request_eq
        refine ⟨?_, ?_, ?_, ?_, ?_, fun _ => rfl, fun active => ?_⟩
        · exact congrArg (fun executor => executor.flags.dma) request_eq
        · exact (congrArg Executor.dmaRange request_eq).trans (by simp)
        · exact (congrArg Executor.dmaProvider request_eq).trans (by simp [copyout])
        · exact (congrArg Executor.dmaConsumer request_eq).trans (by simp [copyout])
        · exact congrArg Executor.dmaContext request_eq
        · exact absurd (still.symm.trans active) Bool.false_ne_true
  have admit_eq : run.admitRequests input =
      asked.onExecutor fun executor => executor.requests after := by
    simp only [admitRequests, onExecutor, requests_eq, Executor.requests, List.foldl_append,
      List.foldl_cons, asked, opened]
  rw [admit_eq, transfer_requests_of_dma asked after carried.requested]
  exact carried

theorem endDMAAtRangeEnd_of_requested {run : Run μ}
    (busy : run.endDMAAtRangeEnd.executor.flags.dma = true) : run.endDMAAtRangeEnd = run := by
  unfold endDMAAtRangeEnd at busy ⊢
  split
  · rename_i ended
    rw [if_pos ended] at busy
    exact absurd busy Bool.false_ne_true
  · rfl

variable [Membus μ]

/-! ## Half-steps -/

omit [Membus μ] in
/-- An order goes on being carried out when a step changes only what a half-step may change. -/
theorem carried_of_kept {order : TransferOrder} {moved : Nat} {run other : Run μ}
    (carried : order.Carried moved run.transfer) (active : run.loop.isInDMA = true)
    (same : other.transfer =
      { run.transfer with
        started := other.loop.isDMAStarted
        byteIndex := other.loop.dmaByteIndex
        nextByte := other.loop.dmaNextByte }) :
    order.Carried moved other.transfer := by
  rw [same]
  exact ⟨carried.requested, carried.range_eq, carried.provider_eq, carried.consumer_eq,
    carried.context_eq, fun idle => absurd (active.symm.trans idle) Bool.noConfusion,
    carried.latched⟩

omit [Membus μ] in
/-- One byte more is moved when it also advances the start of the range. -/
theorem carried_of_advanced {order : TransferOrder} {moved : Nat} {run other : Run μ}
    (carried : order.Carried moved run.transfer) (active : run.loop.isInDMA = true)
    (same : other.transfer =
      { run.transfer with
        range := { run.executor.dmaRange with addrLo := run.executor.dmaRange.addrLo + 1 }
        started := other.loop.isDMAStarted
        byteIndex := other.loop.dmaByteIndex
        nextByte := other.loop.dmaNextByte }) :
    order.Carried (moved + 1) other.transfer := by
  have range_eq : run.executor.dmaRange = order.remaining moved := carried.range_eq
  rw [same]
  refine ⟨carried.requested, ?_, carried.provider_eq, carried.consumer_eq, carried.context_eq,
    fun idle => absurd (active.symm.trans idle) Bool.noConfusion, carried.latched⟩
  dsimp only
  rw [range_eq, order.remaining_succ]

theorem continues_dmaWrite {order : TransferOrder} {moved : Nat} {run : Run μ} (input : Input)
    (carried : order.Carried moved run.transfer) (active : run.loop.isInDMA = true) :
    order.Continues moved (run.dmaWrite input) := by
  have range_eq : run.executor.dmaRange = order.remaining moved := carried.range_eq
  cases direction : run.loop.isDMACopyout with
  | true =>
      cases consumer_eq : run.executor.dmaConsumer with
      | none =>
          have write_eq : run.dmaWrite input = (run.goto .nullCall, []) := by
            simp only [dmaWrite, direction, if_true, consumer_eq]
          rw [write_eq]
          exact ⟨0, rfl, fun _ => carried⟩
      | some consumer =>
          rw [dmaWrite_of_copyout input direction consumer_eq]
          refine ⟨0, rfl, fun busy => ?_⟩
          change order.Carried moved (Run.transfer (tick (endDMAAtRangeEnd _)))
          rw [endDMAAtRangeEnd_of_requested busy]
          have same := endDMAAtRangeEnd_of_requested busy
          cases consumed : input.consumed with
          | true => exact carried_of_kept carried active rfl
          | false =>
              rw [consumed] at busy same
              have cleared := (congrArg (fun run => run.executor.flags.dma) same).symm.trans busy
              exact absurd cleared Bool.false_ne_true
  | false =>
      rw [dmaWrite_of_copyin input direction]
      refine ⟨1, ?_, fun busy => ?_⟩
      · simp only [range_eq, List.filterMap_cons, Event.busAddress, List.filterMap_nil,
          consecutive_one]
      · change order.Carried (moved + 1) (Run.transfer (tick (endDMAAtRangeEnd _)))
        rw [endDMAAtRangeEnd_of_requested busy]
        exact carried_of_advanced carried active rfl

theorem continues_dmaRead {order : TransferOrder} {moved : Nat} {run : Run μ} (input : Input)
    (carried : order.Carried moved run.transfer) (active : run.loop.isInDMA = true) :
    order.Continues moved (run.dmaRead input) := by
  have range_eq : run.executor.dmaRange = order.remaining moved := carried.range_eq
  cases direction : run.loop.isDMACopyout with
  | true =>
      rw [dmaRead_of_copyout input direction]
      refine ⟨1, ?_, fun _ => carried_of_advanced carried active rfl⟩
      simp only [range_eq, List.filterMap_cons, Event.busAddress, List.filterMap_nil,
        consecutive_one]
  | false =>
      cases provider_eq : run.executor.dmaProvider with
      | none =>
          have read_eq : run.dmaRead input = (run.goto .nullCall, []) := by
            simp only [dmaRead, direction, Bool.false_eq_true, if_false, provider_eq]
          rw [read_eq]
          exact ⟨0, rfl, fun _ => carried⟩
      | some provider =>
          rw [dmaRead_of_copyin input direction provider_eq]
          refine ⟨0, rfl, fun busy => ?_⟩
          cases provided : input.provided.1 with
          | true => exact carried_of_kept carried active rfl
          | false =>
              rw [provided] at busy
              exact absurd busy Bool.false_ne_true

theorem continues_dmaCycle {order : TransferOrder} {moved : Nat} {run : Run μ} (input : Input)
    (carried : order.Carried moved run.transfer) (active : run.loop.isInDMA = true) :
    order.Continues moved (run.dmaCycle input) := by
  unfold dmaCycle
  split
  · split
    · exact continues_dmaWrite input carried active
    · exact continues_dmaRead input carried active
  · exact ⟨0, rfl, fun _ => carried_of_kept carried active rfl⟩

omit [Membus μ] in
/-- The loop takes the direction and the end address when it notices the request. -/
theorem carried_beginDMA {order : TransferOrder} {run : Run μ}
    (carried : order.Carried 0 run.transfer) : order.Carried 0 run.beginDMA.transfer := by
  have range_eq : run.executor.dmaRange = order.range :=
    carried.range_eq.trans order.remaining_zero
  have consumer_eq : run.executor.dmaConsumer = _ := carried.consumer_eq
  refine ⟨carried.requested, carried.range_eq, carried.provider_eq, carried.consumer_eq,
    carried.context_eq, fun _ => rfl, fun _ => ⟨?_, congrArg MemoryAddrRange.getEnd range_eq⟩⟩
  change run.executor.dmaConsumer.isSome = _
  rw [consumer_eq, TransferOrder.latchedCopyout]
  cases order.copyout <;> rfl

/-! ## The flag of a transfer -/

/-- A transfer is under way only while its flag is set. -/
def Flagged (run : Run μ) : Prop := run.loop.isInDMA = true → run.executor.flags.dma = true

omit [Membus μ] in
theorem Flagged.congr {run other : Run μ} (flagged : run.Flagged)
    (same : other.transfer = run.transfer) : other.Flagged := by
  intro active
  exact (congrArg Transfer.requested same).trans
    (flagged ((congrArg Transfer.active same).symm.trans active))

omit [Membus μ] in
theorem Flagged.admitRequests {run : Run μ} (flagged : run.Flagged) (input : Input) :
    (run.admitRequests input).Flagged := by
  intro active
  have busy := flagged active
  exact (congrArg Transfer.requested
    (transfer_requests_of_dma run input.requests busy)).trans busy

omit [Membus μ] in
theorem flagged_endDMA (run : Run μ) : run.endDMA.Flagged := fun active =>
  absurd active Bool.false_ne_true

omit [Membus μ] in
theorem Flagged.endDMAAtRangeEnd {run : Run μ} (flagged : run.Flagged) :
    run.endDMAAtRangeEnd.Flagged := by
  unfold Run.endDMAAtRangeEnd
  split
  · exact flagged_endDMA run
  · exact flagged

theorem Flagged.dmaCycle {run : Run μ} (flagged : run.Flagged) (input : Input) :
    (run.dmaCycle input).1.Flagged := by
  unfold Run.dmaCycle dmaWrite dmaRead
  split
  · split <;> split
    · split
      · exact flagged
      · dsimp only
        split
        · have called : run.advanceIndex.Flagged := flagged
          exact called.endDMAAtRangeEnd
        · exact (flagged_endDMA run.advanceIndex).endDMAAtRangeEnd
    · have written : run.writeNextByte.advanceRange.Flagged := flagged
      exact written.endDMAAtRangeEnd
    · exact flagged
    · split
      · exact flagged
      · dsimp only
        split
        · exact flagged
        · exact flagged_endDMA _
  · exact flagged

theorem Flagged.step {run : Run μ} (flagged : run.Flagged) (mode : ExecMode) (input : Input) :
    (run.step mode input).1.Flagged := by
  unfold Run.step
  cases run.location with
  | fetch => exact flagged.congr (fetchStep_transfer input run)
  | cycle =>
      dsimp only
      cases active : run.loop.isInDMA with
      | true =>
          rw [cycleStep_of_active mode input active]
          exact (flagged.dmaCycle input).congr (afterCycle_transfer mode _)
      | false =>
          cases requested : (run.admitRequests input).executor.flags.dma with
          | true =>
              rw [cycleStep_of_requested mode input active requested]
              have begun : (run.admitRequests input).beginDMA.Flagged := fun _ => requested
              exact (begun.dmaCycle input).congr (afterCycle_transfer mode _)
          | false =>
              rw [cycleStep_of_idle mode input active requested]
              refine (flagged.admitRequests input).congr ((afterCycle_transfer mode _).trans ?_)
              exact callStep_transfer mode input _
  | boundary => exact (flagged.admitRequests input).congr (boundaryStep_transfer input run)
  | returned | nullCall | hung => exact flagged

/-! ## Steps -/

/-- The requests of a step bring an order, or leave one that is carried out. -/
structure Admits (order : TransferOrder) (moved : Nat) (run : Run μ) (input : Input) : Prop where
  /-- Once they are admitted, the order is carried out. -/
  carried : order.Carried moved (run.admitRequests input).transfer
  /-- A step that does not release the lock finds it carried out already. -/
  kept : run.location ≠ .cycle → run.location ≠ .boundary →
    run.transfer = (run.admitRequests input).transfer

omit [Membus μ] in
theorem admits_of_carried {order : TransferOrder} {moved : Nat} {run : Run μ}
    (carried : order.Carried moved run.transfer) (input : Input) :
    run.Admits order moved input := by
  have same : (run.admitRequests input).transfer = run.transfer :=
    transfer_requests_of_dma run input.requests carried.requested
  exact ⟨same ▸ carried, fun _ _ => same.symm⟩

omit [Membus μ] in
/-- A transfer that is under way is not touched by the requests of a step. -/
theorem Admits.carried_of_active {order : TransferOrder} {moved : Nat} {run : Run μ}
    {input : Input} (admits : run.Admits order moved input)
    (flagged : run.Flagged)
    (active : run.loop.isInDMA = true) : order.Carried moved run.transfer := by
  have same : (run.admitRequests input).transfer = run.transfer :=
    transfer_requests_of_dma run input.requests (flagged active)
  exact same ▸ admits.carried

omit [Membus μ] in
theorem continues_of_silent {order : TransferOrder} {moved : Nat} {result : Run μ × List Event}
    (silent : ∀ event ∈ result.2, ¬ event.IsTransfer)
    (carried : order.Carried moved result.1.transfer) : order.Continues moved result := by
  refine ⟨0, ?_, fun _ => carried⟩
  rw [consecutive_zero, List.filterMap_eq_nil_iff]
  intro event event_mem
  have other := silent event event_mem
  cases event with
  | transferRead | transferWrite => exact absurd trivial other
  | _ => rfl

omit [Membus μ] in
theorem continues_afterCycle {order : TransferOrder} {moved : Nat} (mode : ExecMode)
    {result : Run μ × List Event} (continues : order.Continues moved result) :
    order.Continues moved (result.1.afterCycle mode, result.2) := by
  obtain ⟨count, addresses, carried⟩ := continues
  refine ⟨count, addresses, fun busy => ?_⟩
  have same := afterCycle_transfer mode result.1
  dsimp only
  rw [same]
  exact carried ((congrArg Transfer.requested same).symm.trans busy)

/-- The events of the step are none of a transfer. -/
theorem step_silent (mode : ExecMode) {run : Run μ} (input : Input)
    (elsewhere : run.location ≠ .cycle) :
    ∀ event ∈ (run.step mode input).2, ¬ event.IsTransfer := by
  intro event event_mem
  unfold step at event_mem
  cases location_eq : run.location with
  | cycle => exact absurd location_eq elsewhere
  | fetch =>
      rw [location_eq] at event_mem
      dsimp only at event_mem
      unfold fetchStep at event_mem
      dsimp only at event_mem
      split at event_mem
      · split at event_mem
        · obtain rfl | rfl : event = _ ∨ event = _ := by simpa using event_mem
          · exact id
          · exact id
        · obtain rfl := List.mem_singleton.mp event_mem
          exact id
      · obtain rfl := List.mem_singleton.mp event_mem
        exact id
  | boundary =>
      rw [location_eq] at event_mem
      rcases boundaryStep_events input run event event_mem with rfl | rfl | ⟨_, _, rfl⟩
      · exact id
      · exact id
      · exact id
  | returned | nullCall | hung =>
      rw [location_eq] at event_mem
      cases event_mem

/-- Away from the top of the inner loop a step changes no DMA state but by its requests. -/
theorem Admits.step_transfer {order : TransferOrder} {moved : Nat} {run : Run μ} {input : Input}
    (admits : run.Admits order moved input) (mode : ExecMode) (elsewhere : run.location ≠ .cycle) :
    (run.step mode input).1.transfer = (run.admitRequests input).transfer := by
  unfold step
  cases location_eq : run.location with
  | cycle => exact absurd location_eq elsewhere
  | fetch =>
      rw [← admits.kept elsewhere (by rw [location_eq]; exact Location.noConfusion)]
      exact fetchStep_transfer input run
  | boundary => exact boundaryStep_transfer input run
  | returned | nullCall | hung =>
      exact admits.kept elsewhere (by rw [location_eq]; exact Location.noConfusion)

/-- Every step that is made with an order continues with it. -/
theorem Admits.continues {order : TransferOrder} {moved : Nat} {run : Run μ} {input : Input}
    (admits : run.Admits order moved input)
    (flagged : run.Flagged) (mode : ExecMode) :
    order.Continues moved (run.step mode input) := by
  by_cases here : run.location = .cycle
  · have step_eq : run.step mode input = run.cycleStep mode input := by
      simp only [step, here]
    rw [step_eq]
    cases active : run.loop.isInDMA with
    | true =>
        rw [cycleStep_of_active mode input active]
        have carried := admits.carried_of_active flagged active
        exact continues_afterCycle mode (continues_dmaCycle input carried active)
    | false =>
        obtain rfl := admits.carried.untouched active
        rw [cycleStep_of_requested mode input active admits.carried.requested]
        have begun := continues_dmaCycle input (carried_beginDMA admits.carried) rfl
        exact continues_afterCycle mode begun
  · refine continues_of_silent (step_silent mode input here) ?_
    rw [admits.step_transfer mode here]
    exact admits.carried

/-! ## Acceptance -/

/-- The step lets other threads in while no request for a transfer is pending, and the order is
the first such request to obtain the lock. -/
structure Accepts (order : TransferOrder) (run : Run μ) (input : Input) : Prop where
  /-- No request for a transfer is pending. -/
  clear : run.executor.flags.dma = false
  /-- The step releases the lock. -/
  releases : run.location = .cycle ∨ run.location = .boundary
  /-- No other request for a transfer comes first. -/
  first : ∃ before after, input.requests = before ++ order.request :: after ∧
    ∀ request ∈ before, ¬ request.IsTransfer

omit [Membus μ] in
theorem Accepts.idle {order : TransferOrder} {run : Run μ} {input : Input}
    (accepts : run.Accepts order input) (flagged : run.Flagged) : run.loop.isInDMA = false := by
  cases active : run.loop.isInDMA with
  | true => exact absurd (accepts.clear.symm.trans (flagged active)) Bool.noConfusion
  | false => rfl

omit [Membus μ] in
theorem Accepts.admits {order : TransferOrder} {run : Run μ} {input : Input}
    (accepts : run.Accepts order input) (flagged : run.Flagged) : run.Admits order 0 input := by
  obtain ⟨before, after, requests_eq, others⟩ := accepts.first
  refine ⟨carried_of_accepted accepts.clear (accepts.idle flagged) requests_eq others, ?_⟩
  intro notCycle notBoundary
  exact absurd accepts.releases (not_or.mpr ⟨notCycle, notBoundary⟩)

/-- A launch begins without a transfer. -/
theorem flagged_run (mode : ExecMode) (executor : Executor μ) (range : MemoryAddrRange)
    (PC : Word) (residue : Loop) (inputs : List Input) :
    ((loopMachine μ mode).run (launch executor range PC residue) inputs).Flagged := by
  refine (loopMachine μ mode).invariant_run (fun run input flagged => ?_) _ inputs ?_
  · exact Flagged.step flagged mode input
  · exact fun active => absurd active Bool.false_ne_true

/-! ## Runs -/

/-- The flag of a request is set. -/
def Busy (run : Run μ) (_input : Input) : Prop := run.executor.flags.dma = true

/-- The accesses of the steps that are made with an order run through its range. -/
theorem Admits.addresses {order : TransferOrder} {moved : Nat} {run : Run μ} {first : Input}
    (admits : run.Admits order moved first) (flagged : run.Flagged) (mode : ExecMode)
    (rest : List Input) (busy : (loopMachine μ mode).Meets Busy (run.step mode first).1 rest) :
    ∃ count, ((loopMachine μ mode).trace run (first :: rest)).filterMap Event.busAddress =
      consecutive (order.remaining moved).addrLo count := by
  obtain ⟨count, addresses, carried⟩ := admits.continues flagged mode
  induction rest generalizing run first moved count with
  | nil =>
      have trace_eq : (loopMachine μ mode).trace run [first] = (run.step mode first).2 :=
        List.append_nil _
      rw [trace_eq]
      exact ⟨count, addresses⟩
  | cons second rest ih =>
      have after := admits_of_carried (carried busy.1) second
      have flaggedAfter := flagged.step mode first
      obtain ⟨next, addressesNext, carriedNext⟩ := after.continues flaggedAfter mode
      obtain ⟨further, addressesLater⟩ :=
        ih after flaggedAfter busy.2 next addressesNext carriedNext
      refine ⟨count + further, ?_⟩
      have base_eq : (order.remaining (moved + count)).addrLo =
          (order.remaining moved).addrLo + BitVec.ofNat 16 count := by
        simp only [TransferOrder.remaining, BitVec.ofNat_add, BitVec.add_assoc]
      rw [consecutive_add, ← base_eq, ← addressesLater, ← addresses]
      exact List.filterMap_append

end Run

/-- A staged launch at its first release point, on memory filled with `NOP`. -/
def releasing : Run Ram :=
  (loopMachine Ram .staged).run
    (Run.launch (Executor.alloc Registers.reset (fun _ => 0xEA) .base)
      { addrLo := 0, addrLen := 0xFFFF } 0x0200 Loop.zero)
    [Input.quiet .nextCycle Locals.zero]

/-- A static one. -/
def releasingStatic : Run Ram :=
  (loopMachine Ram .static).run
    (Run.launch (Executor.alloc Registers.reset (fun _ => 0xEA) .base)
      { addrLo := 0, addrLen := 0xFFFF } 0x0200 Loop.zero)
    [Input.quiet .nextCycle Locals.zero]

/-- The step at which an order obtains the lock, with callbacks that do not refuse. -/
def TransferOrder.asking (order : TransferOrder) : Input :=
  { Input.quiet .nextCycle Locals.zero with
    requests := [order.request], provided := (true, 0x55), consumed := true }

end System6502
