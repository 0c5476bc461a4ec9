import System6502.Executor.Mirror

/-!
# Transfers beside a program

A transfer suspends an instruction in the middle of its calls.  This file compares a staged run
with the run that the same inputs give without their transfers.
-/

namespace System6502

open Lib

/-- The addresses of some ranges. -/
def covered (ranges : List MemoryAddrRange) : Set Word :=
  {address | ∃ range ∈ ranges, range.doesInclude address = true}

instance (ranges : List MemoryAddrRange) : DecidablePred (· ∈ covered ranges) :=
  fun address => inferInstanceAs (Decidable (∃ range ∈ ranges, range.doesInclude address = true))

instance {μ : Type*} (region : Set Word) [DecidablePred (· ∈ region)] (traced : Traced μ) :
    Decidable (traced.Avoids region) :=
  inferInstanceAs (Decidable (∀ access ∈ traced.log, access.address ∉ region))

/-- An event of the program, not of a transfer or of the lock. -/
def Event.IsProgram : Event → Prop
  | .fetch .. | .illegal .. | .leave | .call .. | .service .. => True
  | .lock | .unlock | .provide .. | .consume .. | .transferRead .. | .transferWrite .. => False

instance : DecidablePred Event.IsProgram
  | .fetch .. | .illegal .. | .leave | .call .. | .service .. => isTrue trivial
  | .lock | .unlock | .provide .. | .consume .. | .transferRead .. | .transferWrite .. =>
      isFalse id

/-- The instructions, with their calls, and the interrupt sequences of a trace. -/
def executed (trace : List Event) : List Event := trace.filter Event.IsProgram

/-- The input without its requests for transfers, after requests that are still to be made. -/
def Input.withoutTransfers (pending : List Request) (input : Input) : Input :=
  { input with requests := signals (pending ++ input.requests) }

/-- The executor on a bus that logs its accesses. -/
def Executor.traced {μ : Type*} (executor : Executor μ) : Executor (Traced μ) :=
  { executor with memory := { bus := executor.memory, log := [] } }

namespace Run

variable {μ : Type*}

/-- The next step notices a request for a transfer. -/
def Notices (run : Run μ) (input : Input) : Prop :=
  run.location = .cycle ∧ run.loop.isInDMA = false ∧
    (run.admitRequests input).executor.flags.dma = true

/-- The next step belongs to a transfer. -/
def Transferring (run : Run μ) (input : Input) : Prop :=
  run.location = .cycle ∧
    (run.loop.isInDMA = true ∨ (run.admitRequests input).executor.flags.dma = true)

/-- The next step writes a byte of a transfer to memory. -/
def Storing (run : Run μ) : Prop :=
  run.loop.isInDMA = true ∧ run.loop.isDMAStarted = true ∧ run.loop.isDMACopyout = false ∧
    run.loop.totalCycles % 2 = 1

instance (run : Run μ) (input : Input) : Decidable (run.Notices input) :=
  inferInstanceAs (Decidable (_ ∧ _ ∧ _))

instance (run : Run μ) (input : Input) : Decidable (run.Transferring input) :=
  inferInstanceAs (Decidable (_ ∧ (_ ∨ _)))

instance (run : Run μ) : Decidable run.Storing :=
  inferInstanceAs (Decidable (_ ∧ _ ∧ _ ∧ _))

section Inputs

variable [Membus μ]

/-- The ranges of the transfers that a run notices. -/
def noticed (run : Run μ) : List Input → List MemoryAddrRange
  | [] => []
  | input :: rest =>
      (if run.Notices input then [(run.admitRequests input).executor.dmaRange] else []) ++
        noticed (run.step .staged input).1 rest

/-- The inputs of a run without transfers: the steps of the transfers are left out, and what other
threads ask for when a transfer is noticed comes with the next step that is left. -/
def withoutTransfers (run : Run μ) (pending : List Request) : List Input → List Input
  | [] => []
  | input :: rest =>
      if run.Transferring input then
        withoutTransfers (run.step .staged input).1
          (if run.loop.isInDMA then pending else pending ++ input.requests) rest
      else
        input.withoutTransfers pending ::
          withoutTransfers (run.step .staged input).1 [] rest

end Inputs

/-- When a transfer is noticed, `next_stage` does not hold the stage that ends an instruction and
the transfer has a callback; and no byte is written outside a region. -/
def StaysTransparent (region : Set Word) (run : Run μ) (input : Input) : Prop :=
  (run.Notices input → run.loop.nextStage ≠ .instrEnd ∧
    ((run.admitRequests input).executor.dmaConsumer.isSome ∨
      (run.admitRequests input).executor.dmaProvider.isSome)) ∧
  (run.Storing → run.executor.dmaRange.addrLo ∈ region)

instance (region : Set Word) [DecidablePred (· ∈ region)] (run : Run μ) (input : Input) :
    Decidable (run.StaysTransparent region input) :=
  inferInstanceAs (Decidable ((_ → _ ∧ (_ ∨ _)) ∧ (_ → _)))

/-- If the program without transfers makes no access in the ranges of the transfers, then at every
moment of the run with transfers the registers, the memory outside these ranges and what has been
executed are as they are without the transfers. -/
def Transparent (executor : Executor Ram) (range : MemoryAddrRange) (PC : Word) (residue : Loop)
    (inputs : List Input) : Prop :=
  let start := launch executor range PC residue
  let startAlone := launch executor.traced range PC residue
  let region := covered (start.noticed inputs)
  ((loopMachine (Traced Ram) .staged).run startAlone
      (start.withoutTransfers [] inputs)).executor.memory.Avoids region →
    ∀ front back, inputs = front ++ back →
      let together := (loopMachine Ram .staged).run start front
      let alone := (loopMachine (Traced Ram) .staged).run startAlone
        (start.withoutTransfers [] front)
      together.executor.registers = alone.executor.registers ∧
        Set.EqOn together.executor.memory alone.executor.memory.bus (regionᶜ) ∧
        together.location = alone.location ∧
        executed ((loopMachine Ram .staged).trace start front) =
          executed ((loopMachine (Traced Ram) .staged).trace startAlone
            (start.withoutTransfers [] front))

/-! ## Half-steps of a transfer -/

/-- A transfer will go on with the instruction it has interrupted, and has a callback. -/
structure Suspended (run : Run μ) : Prop where
  /-- The current stage does not end the instruction. -/
  nextStage_ne : run.loop.nextStage ≠ .instrEnd
  /-- Nor does the stage that is restored. -/
  savedStage_ne : run.loop.savedStage ≠ .instrEnd
  /-- The callback for the direction is not null. -/
  callback : if run.loop.isDMACopyout then run.executor.dmaConsumer.isSome
    else run.executor.dmaProvider.isSome

/-- The second run follows the first by a part of a transfer that the program cannot tell. -/
structure Idles (region : Set Word) (before after : Run Ram) : Prop where
  /-- The same view. -/
  view_eq : after.view = before.view
  /-- The same memory outside the region. -/
  memory_eq : Set.EqOn after.executor.memory before.executor.memory (regionᶜ)
  /-- The instruction stays suspended. -/
  suspended : before.Suspended → after.Suspended

variable {region : Set Word}

theorem Idles.refl (run : Run Ram) : Idles region run run := ⟨rfl, Set.eqOn_refl _ _, id⟩

theorem Idles.trans {first second third : Run Ram} (front : Idles region first second)
    (back : Idles region second third) : Idles region first third where
  view_eq := back.view_eq.trans front.view_eq
  memory_eq := back.memory_eq.trans front.memory_eq
  suspended suspended := back.suspended (front.suspended suspended)

theorem tick_idles (run : Run Ram) : Idles region run run.tick :=
  ⟨rfl, Set.eqOn_refl _ _, fun ⟨next, saved, callback⟩ => ⟨next, saved, callback⟩⟩

theorem advanceRange_idles (run : Run Ram) : Idles region run run.advanceRange :=
  ⟨rfl, Set.eqOn_refl _ _, fun ⟨next, saved, callback⟩ => ⟨next, saved, callback⟩⟩

theorem advanceIndex_idles (run : Run Ram) : Idles region run run.advanceIndex :=
  ⟨rfl, Set.eqOn_refl _ _, fun ⟨next, saved, callback⟩ => ⟨next, saved, callback⟩⟩

theorem readNextByte_idles (run : Run Ram) : Idles region run run.readNextByte :=
  ⟨rfl, Set.eqOn_refl _ _, fun ⟨next, saved, callback⟩ => ⟨next, saved, callback⟩⟩

theorem takeProvided_idles (input : Input) (run : Run Ram) :
    Idles region run (run.takeProvided input) :=
  ⟨rfl, Set.eqOn_refl _ _, fun ⟨next, saved, callback⟩ => ⟨next, saved, callback⟩⟩

theorem endDMA_idles (run : Run Ram) : Idles region run run.endDMA :=
  ⟨rfl, Set.eqOn_refl _ _, fun ⟨_, saved, callback⟩ => ⟨saved, saved, callback⟩⟩

theorem endDMAAtRangeEnd_idles (run : Run Ram) : Idles region run run.endDMAAtRangeEnd := by
  unfold endDMAAtRangeEnd
  split
  · exact endDMA_idles run
  · exact Idles.refl run

theorem writeNextByte_idles (run : Run Ram) (inside : run.executor.dmaRange.addrLo ∈ region) :
    Idles region run run.writeNextByte := by
  refine ⟨rfl, fun address outside => ?_, fun ⟨next, saved, callback⟩ => ⟨next, saved, callback⟩⟩
  have other : address ≠ run.executor.dmaRange.addrLo := fun same => outside (same ▸ inside)
  exact Function.update_of_ne other _ _

/-- A half-step of a transfer that stores only in a region. -/
theorem dmaCycle_idles (input : Input) {run : Run Ram} (suspended : run.Suspended)
    (stores : run.loop.isDMAStarted = true → run.loop.isDMACopyout = false →
      run.loop.totalCycles % 2 = 1 → run.executor.dmaRange.addrLo ∈ region) :
    Idles region run (run.dmaCycle input).1 := by
  have callback := suspended.callback
  unfold dmaCycle
  by_cases started : run.loop.isDMAStarted = true
  · rw [if_pos started]
    by_cases odd : run.loop.totalCycles % 2 = 1
    · rw [if_pos odd]
      cases copyout : run.loop.isDMACopyout with
      | true =>
          rw [if_pos copyout] at callback
          obtain ⟨consumer, consumes⟩ := Option.isSome_iff_exists.mp callback
          rw [dmaWrite_of_copyout input copyout consumes]
          have answered : Idles region run
              (if input.consumed then run.advanceIndex else run.advanceIndex.endDMA) := by
            split
            · exact advanceIndex_idles run
            · exact (advanceIndex_idles run).trans (endDMA_idles _)
          exact (answered.trans (endDMAAtRangeEnd_idles _)).trans (tick_idles _)
      | false =>
          rw [dmaWrite_of_copyin input copyout]
          have stored := writeNextByte_idles run (stores started copyout odd)
          exact ((stored.trans (advanceRange_idles _)).trans (endDMAAtRangeEnd_idles _)).trans
            (tick_idles _)
    · rw [if_neg odd]
      cases copyout : run.loop.isDMACopyout with
      | true =>
          rw [dmaRead_of_copyout input copyout]
          exact ((readNextByte_idles run).trans (advanceRange_idles _)).trans (tick_idles _)
      | false =>
          rw [copyout] at callback
          obtain ⟨provider, provides⟩ := Option.isSome_iff_exists.mp callback
          rw [dmaRead_of_copyin input copyout provides]
          have answered : Idles region run
              (if input.provided.1 then run.takeProvided input
                else (run.takeProvided input).endDMA) := by
            split
            · exact takeProvided_idles input run
            · exact (takeProvided_idles input run).trans (endDMA_idles _)
          exact answered.trans (tick_idles _)
  · rw [if_neg started]
    exact ⟨rfl, Set.eqOn_refl _ _, fun ⟨next, saved, callback⟩ => ⟨next, saved, callback⟩⟩

theorem afterCycle_of_suspended {run : Run Ram} (here : run.location = .cycle)
    (suspended : run.Suspended) : run.afterCycle .staged = run := by
  unfold afterCycle
  rw [if_neg (by rw [here]; exact Location.noConfusion)]
  simp only [if_neg suspended.nextStage_ne]
  exact congrArg (fun location => { run with location }) here.symm

/-! ## Runs beside each other -/

/-- A run that no thread has asked for a transfer. -/
structure Quiet (run : Run μ) : Prop where
  /-- The flag is clear. -/
  clear : run.executor.flags.dma = false
  /-- No transfer is in progress. -/
  idle : run.loop.isInDMA = false

/-- A run with transfers beside one without, which some requests have not reached yet. -/
structure Shadows (region : Set Word) (pending : List Request) (run : Run Ram)
    (alone : Run (Traced Ram)) : Prop where
  /-- With these requests the two mirror each other. -/
  mirrors : Mirrors region run (alone.afterRequests (signals pending))
  /-- Nobody has asked the second run for a transfer. -/
  quiet : alone.Quiet
  /-- A transfer of the first run suspends an instruction. -/
  suspended : run.loop.isInDMA = true → run.location = .cycle ∧ run.Suspended
  /-- Requests wait only while an instruction is suspended. -/
  reached : run.location ≠ .cycle → pending = []

theorem Shadows.location_eq {pending : List Request} {run : Run Ram} {alone : Run (Traced Ram)}
    (shadows : Shadows region pending run alone) : run.location = alone.location :=
  congrArg View.location shadows.mirrors.view_eq

theorem Idles.mirrors {before after : Run Ram} {alone : Run (Traced Ram)}
    (idles : Idles region before after) (mirrors : Mirrors region before alone) :
    Mirrors region after alone :=
  ⟨idles.view_eq.trans mirrors.view_eq, idles.memory_eq.trans mirrors.memory_eq⟩

theorem executed_dmaCycle (input : Input) (run : Run Ram) :
    executed (run.dmaCycle input).2 = [] := by
  refine List.filter_eq_nil_iff.mpr fun event event_mem => ?_
  have transfer := dmaCycle_events input run event event_mem
  cases event with
  | provide | consume | transferRead | transferWrite =>
      exact fun program => of_decide_eq_true program
  | lock | unlock | fetch | illegal | leave | call | service => exact transfer.elim

/-- A half-step of a transfer keeps the runs beside each other. -/
theorem shadows_dmaCycle {pending : List Request} {run : Run Ram} {alone : Run (Traced Ram)}
    (input : Input) (mirrors : Mirrors region run (alone.afterRequests (signals pending)))
    (quiet : alone.Quiet) (here : run.location = .cycle) (suspended : run.Suspended)
    (stores : run.loop.isDMAStarted = true → run.loop.isDMACopyout = false →
      run.loop.totalCycles % 2 = 1 → run.executor.dmaRange.addrLo ∈ region) :
    Shadows region pending ((run.dmaCycle input).1.afterCycle .staged) alone := by
  have idles := dmaCycle_idles input suspended stores
  have hereAfter : (run.dmaCycle input).1.location = .cycle :=
    (congrArg View.location idles.view_eq).trans here
  have suspendedAfter := idles.suspended suspended
  rw [afterCycle_of_suspended hereAfter suspendedAfter]
  exact
    { mirrors := idles.mirrors mirrors
      quiet
      suspended := fun _ => ⟨hereAfter, suspendedAfter⟩
      reached := fun away => absurd hereAfter away }

/-- A transfer that is noticed suspends an instruction that has not ended. -/
theorem suspended_beginDMA {run : Run Ram} (unended : run.loop.nextStage ≠ .instrEnd)
    (called : run.executor.dmaConsumer.isSome ∨ run.executor.dmaProvider.isSome) :
    run.beginDMA.Suspended := by
  refine ⟨Stage.noConfusion, unended, ?_⟩
  change if run.executor.dmaConsumer.isSome then run.executor.dmaConsumer.isSome = true
    else run.executor.dmaProvider.isSome = true
  split
  · assumption
  · rename_i null
    exact called.resolve_left null

/-- A step of a transfer. -/
theorem Shadows.step_transferring {pending : List Request} {run : Run Ram}
    {alone : Run (Traced Ram)} {input : Input} (shadows : Shadows region pending run alone)
    (transferring : run.Transferring input) (stays : run.StaysTransparent region input) :
    Shadows region (if run.loop.isInDMA then pending else pending ++ input.requests)
        (run.step .staged input).1 alone ∧
      executed (run.step .staged input).2 = [] := by
  obtain ⟨mirrors, quiet, suspended, -⟩ := shadows
  have here := transferring.1
  have step_eq : run.step .staged input = run.cycleStep .staged input := by
    simp only [step, here]
  rw [step_eq]
  by_cases active : run.loop.isInDMA = true
  · rw [cycleStep_of_active .staged input active, if_pos active]
    refine ⟨?_, executed_dmaCycle input run⟩
    exact shadows_dmaCycle input mirrors quiet here (suspended active).2
      fun started copyin odd => stays.2 ⟨active, started, copyin, odd⟩
  · have waiting : run.loop.isInDMA = false := Bool.eq_false_of_not_eq_true active
    have requested := transferring.2.resolve_left active
    obtain ⟨unended, called⟩ := stays.1 ⟨here, waiting, requested⟩
    rw [cycleStep_of_requested .staged input waiting requested, if_neg active]
    refine ⟨?_, executed_dmaCycle input _⟩
    have admitted : Mirrors region (run.admitRequests input).beginDMA
        (alone.afterRequests (signals (pending ++ input.requests))) := by
      rw [signals_append, afterRequests_append]
      obtain ⟨view_eq, memory_eq⟩ := mirrors_afterRequests mirrors input.requests
      exact ⟨view_eq, memory_eq⟩
    refine shadows_dmaCycle input admitted quiet here (suspended_beginDMA unended called) ?_
    intro started _ odd
    have even : (run.admitRequests input).loop.totalCycles % 2 = 0 := by
      simpa [beginDMA] using started
    change (run.admitRequests input).loop.totalCycles % 2 = 1 at odd
    omega

/-! ## Steps of the program -/

theorem Quiet.afterRequests {run : Run μ} (quiet : run.Quiet) {pending : List Request}
    (others : ∀ request ∈ pending, ¬ request.IsTransfer) : (run.afterRequests pending).Quiet := by
  have transfer_eq := transfer_requests_of_others run pending others
  exact ⟨(congrArg Transfer.requested transfer_eq).trans quiet.clear,
    (congrArg Transfer.active transfer_eq).trans quiet.idle⟩

theorem Quiet.of_transfer {before after : Run μ} (quiet : before.Quiet)
    (transfer_eq : after.transfer = before.transfer) : after.Quiet :=
  ⟨(congrArg Transfer.requested transfer_eq).trans quiet.clear,
    (congrArg Transfer.active transfer_eq).trans quiet.idle⟩

/-- A step that calls the function of the current instruction. -/
theorem step_of_quiet_requests [Membus μ] {run : Run μ} (input : Input)
    (here : run.location = .cycle) (idle : run.loop.isInDMA = false)
    (quiet : (run.admitRequests input).executor.flags.dma = false) :
    run.step .staged input =
      ((run.afterRequests input.requests).callCycle.1,
        [.unlock, .lock] ++ (run.afterRequests input.requests).callCycle.2) := by
  have events := stagedCall_events (run.afterRequests input.requests)
  have step_eq : run.step .staged input = run.cycleStep .staged input := by
    simp only [step, here]
  rw [step_eq, cycleStep_of_idle .staged input idle quiet, callCycle, events]
  rfl

theorem Quiet.step [Membus μ] {run : Run μ} (quiet : run.Quiet) {input : Input}
    (others : ∀ request ∈ input.requests, ¬ request.IsTransfer) :
    (run.step .staged input).1.Quiet := by
  have admitted : (run.afterRequests input.requests).Quiet := quiet.afterRequests others
  rcases location_eq : run.location with _ | _ | _ | _ | _ | _
  case fetch =>
    simp only [Run.step, location_eq]
    exact quiet.of_transfer (fetchStep_transfer input run)
  case cycle =>
    rw [step_of_quiet_requests input location_eq quiet.idle admitted.clear]
    exact admitted.of_transfer ((afterCycle_transfer _ _).trans (stagedCall_transfer _))
  case boundary =>
    simp only [Run.step, location_eq]
    exact admitted.of_transfer (boundaryStep_transfer input run)
  all_goals
    simp only [Run.step, location_eq]
    exact quiet

/-- A step that is not of a transfer, in a run that no thread has asked for one. -/
theorem step_accompanies {pending : List Request} {input : Input} {alone : Run (Traced Ram)}
    (quiet : alone.Quiet)
    (avoids :
      (alone.step .staged (input.withoutTransfers pending)).1.executor.memory.Avoids region) :
    alone.executor.memory.Avoids region ∧
      ∀ run, Mirrors region run (alone.afterRequests (signals pending)) →
        (run.location ≠ .cycle → pending = []) → ¬ run.Transferring input →
          Mirrors region (run.step .staged input).1
              (alone.step .staged (input.withoutTransfers pending)).1 ∧
            (run.step .staged input).2 =
              (alone.step .staged (input.withoutTransfers pending)).2 := by
  have same : ∀ run : Run Ram, Mirrors region run (alone.afterRequests (signals pending)) →
      run.location = alone.location := fun run mirrors => congrArg View.location mirrors.view_eq
  have others : ∀ request ∈ (input.withoutTransfers pending).requests, ¬ request.IsTransfer :=
    not_isTransfer_of_mem_signals
  have admitted : (alone.afterRequests (signals (pending ++ input.requests))).Quiet :=
    quiet.afterRequests not_isTransfer_of_mem_signals
  rcases location_eq : alone.location with _ | _ | _ | _ | _ | _
  case fetch =>
    simp only [step, location_eq] at avoids ⊢
    obtain ⟨before, follows⟩ :=
      fetchStep_accompanies input (input.withoutTransfers pending) _ avoids
    refine ⟨before, fun run mirrors reached _ => ?_⟩
    have here : run.location = .fetch := (same run mirrors).trans location_eq
    obtain rfl := reached (by rw [here]; exact Location.noConfusion)
    rw [here]
    exact follows run mirrors
  case cycle =>
    rw [step_of_quiet_requests (input.withoutTransfers pending) location_eq quiet.idle
      admitted.clear] at avoids ⊢
    obtain ⟨before, follows⟩ := callCycle_accompanies _ avoids
    rw [afterRequests_memory] at before
    refine ⟨before, fun run mirrors _ calling => ?_⟩
    have here : run.location = .cycle := (same run mirrors).trans location_eq
    have free : ¬ (run.loop.isInDMA = true ∨ (run.admitRequests input).executor.flags.dma = true) :=
      fun transferring => calling ⟨here, transferring⟩
    obtain ⟨idle, unasked⟩ := not_or.mp free
    rw [step_of_quiet_requests input here (Bool.eq_false_of_not_eq_true idle)
      (Bool.eq_false_of_not_eq_true unasked)]
    have requested := mirrors_afterRequests mirrors input.requests
    rw [← afterRequests_append, ← signals_append] at requested
    obtain ⟨after, events⟩ := follows _ requested
    exact ⟨after, congrArg ([Event.unlock, .lock] ++ ·) events⟩
  case boundary =>
    simp only [step, location_eq] at avoids ⊢
    have requests_eq : (input.withoutTransfers pending).requests =
        signals ({ input with requests := pending ++ input.requests } : Input).requests := rfl
    obtain ⟨before, follows⟩ := boundaryStep_accompanies requests_eq location_eq avoids
    refine ⟨before, fun run mirrors reached _ => ?_⟩
    have here : run.location = .boundary := (same run mirrors).trans location_eq
    obtain rfl := reached (by rw [here]; exact Location.noConfusion)
    rw [here]
    exact follows run mirrors
  all_goals
    simp only [step, location_eq] at avoids ⊢
    refine ⟨avoids, fun run mirrors reached _ => ?_⟩
    have here := (same run mirrors).trans location_eq
    obtain rfl := reached (by rw [here]; exact Location.noConfusion)
    simp only [here]
    exact ⟨mirrors, trivial⟩

theorem step_idle [Membus μ] {run : Run μ} {input : Input} (idle : run.loop.isInDMA = false)
    (calling : ¬ run.Transferring input) : (run.step .staged input).1.loop.isInDMA = false := by
  rcases location_eq : run.location with _ | _ | _ | _ | _ | _
  case fetch =>
    simp only [step, location_eq]
    exact (congrArg Transfer.active (fetchStep_transfer input run)).trans idle
  case cycle =>
    have unasked : (run.admitRequests input).executor.flags.dma = false :=
      Bool.eq_false_of_not_eq_true fun requested => calling ⟨location_eq, .inr requested⟩
    rw [step_of_quiet_requests input location_eq idle unasked]
    have called_eq := stagedCall_transfer (run.afterRequests input.requests)
    have transfer_eq := (afterCycle_transfer .staged _).trans called_eq
    exact (congrArg Transfer.active transfer_eq).trans idle
  case boundary =>
    simp only [step, location_eq]
    exact (congrArg Transfer.active (boundaryStep_transfer input run)).trans idle
  all_goals
    simp only [step, location_eq]
    exact idle

/-- A step of the program. -/
theorem Shadows.step_program {pending : List Request} {run : Run Ram} {alone : Run (Traced Ram)}
    {input : Input} (shadows : Shadows region pending run alone)
    (calling : ¬ run.Transferring input)
    (avoids :
      (alone.step .staged (input.withoutTransfers pending)).1.executor.memory.Avoids region) :
    Shadows region [] (run.step .staged input).1
        (alone.step .staged (input.withoutTransfers pending)).1 ∧
      (run.step .staged input).2 = (alone.step .staged (input.withoutTransfers pending)).2 := by
  obtain ⟨mirrors, quiet, suspended, reached⟩ := shadows
  obtain ⟨after, events⟩ :=
    (step_accompanies quiet avoids).2 run mirrors reached calling
  have idle : run.loop.isInDMA = false :=
    Bool.eq_false_of_not_eq_true fun active => calling ⟨(suspended active).1, .inl active⟩
  have idleAfter := step_idle idle calling
  exact
    ⟨{ mirrors := after
       quiet := quiet.step not_isTransfer_of_mem_signals
       suspended := fun active => absurd (idleAfter.symm.trans active) Bool.false_ne_true
       reached := fun _ => rfl }, events⟩

/-! ## Runs -/

/-- A run without transfers that ends outside a region has been outside it from the beginning. -/
theorem avoids_of_run (run : Run Ram) {alone : Run (Traced Ram)} (pending : List Request)
    (inputs : List Input) (quiet : alone.Quiet)
    (avoids : ((loopMachine (Traced Ram) .staged).run alone
      (run.withoutTransfers pending inputs)).executor.memory.Avoids region) :
    alone.executor.memory.Avoids region := by
  induction inputs generalizing run alone pending with
  | nil => exact avoids
  | cons input rest ih =>
      rw [withoutTransfers] at avoids
      by_cases transferring : run.Transferring input
      · rw [if_pos transferring] at avoids
        exact ih _ _ quiet avoids
      · rw [if_neg transferring] at avoids
        have quietAfter : (alone.step .staged (input.withoutTransfers pending)).1.Quiet :=
          quiet.step not_isTransfer_of_mem_signals
        exact (step_accompanies quiet (ih _ _ quietAfter avoids)).1

theorem Shadows.run {pending : List Request} {run : Run Ram} {alone : Run (Traced Ram)}
    {inputs : List Input} (shadows : Shadows region pending run alone)
    (meets : (loopMachine Ram .staged).Meets (StaysTransparent region) run inputs)
    (avoids : ((loopMachine (Traced Ram) .staged).run alone
      (run.withoutTransfers pending inputs)).executor.memory.Avoids region)
    {front back : List Input} (split : inputs = front ++ back) :
    (∃ waiting, Shadows region waiting ((loopMachine Ram .staged).run run front)
        ((loopMachine (Traced Ram) .staged).run alone (run.withoutTransfers pending front))) ∧
      executed ((loopMachine Ram .staged).trace run front) =
        executed ((loopMachine (Traced Ram) .staged).trace alone
          (run.withoutTransfers pending front)) := by
  induction front generalizing run alone pending inputs with
  | nil => exact ⟨⟨pending, shadows⟩, rfl⟩
  | cons input rest ih =>
      subst split
      rw [List.cons_append, withoutTransfers] at avoids
      rw [withoutTransfers]
      by_cases transferring : run.Transferring input
      · rw [if_pos transferring] at avoids ⊢
        obtain ⟨after, events⟩ := shadows.step_transferring transferring meets.1
        obtain ⟨further, traces⟩ := ih after meets.2 avoids rfl
        refine ⟨further, ?_⟩
        calc
          executed ((loopMachine Ram .staged).trace run (input :: rest)) =
              executed (run.step .staged input).2 ++
                executed ((loopMachine Ram .staged).trace (run.step .staged input).1 rest) :=
            List.filter_append ..
          _ = _ := by rw [events, List.nil_append, traces]
      · rw [if_neg transferring] at avoids ⊢
        have quietAfter : (alone.step .staged (input.withoutTransfers pending)).1.Quiet :=
          shadows.quiet.step not_isTransfer_of_mem_signals
        have stepAvoids := avoids_of_run _ _ _ quietAfter avoids
        obtain ⟨after, events⟩ := shadows.step_program transferring stepAvoids
        obtain ⟨further, traces⟩ := ih after meets.2 avoids rfl
        refine ⟨further, ?_⟩
        calc
          executed ((loopMachine Ram .staged).trace run (input :: rest)) =
              executed (run.step .staged input).2 ++
                executed ((loopMachine Ram .staged).trace (run.step .staged input).1 rest) :=
            List.filter_append ..
          _ = executed (alone.step .staged (input.withoutTransfers pending)).2 ++ executed
                ((loopMachine (Traced Ram) .staged).trace
                  (alone.step .staged (input.withoutTransfers pending)).1
                  ((run.step .staged input).1.withoutTransfers [] rest)) := by
            rw [events, traces]
          _ = _ := (List.filter_append ..).symm

/-- Transfers that are noticed while the loop holds no ending stage, that have a callback and that
write only to the ranges of the transfers make no difference to the program. -/
theorem transparent_of_staysTransparent (executor : Executor Ram) (range : MemoryAddrRange)
    (PC : Word) (residue : Loop) (inputs : List Input)
    (stays : (loopMachine Ram .staged).Meets
      (StaysTransparent (covered ((launch executor range PC residue).noticed inputs)))
      (launch executor range PC residue) inputs) :
    Transparent executor range PC residue inputs := by
  intro avoids front back split
  have initial : Shadows (covered ((launch executor range PC residue).noticed inputs)) []
      (launch executor range PC residue) (launch executor.traced range PC residue) :=
    { mirrors := ⟨rfl, Set.eqOn_refl _ _⟩
      quiet := ⟨rfl, rfl⟩
      suspended := nofun
      reached := fun _ => rfl }
  obtain ⟨⟨waiting, mirrors, -⟩, traces⟩ := initial.run stays avoids split
  obtain ⟨view_eq, memory_eq⟩ := mirrors
  have registers_eq := congrArg View.registers view_eq
  rw [afterRequests_memory] at memory_eq
  have location_eq := congrArg View.location view_eq
  exact ⟨registers_eq.trans (afterRequests_registers _ _), memory_eq, location_eq, traces⟩

/-- `LDA #$42` followed by an undefined byte. -/
def loadImmediate : Executor Ram :=
  Executor.alloc Registers.reset
    (fun address => if address = 0x0200 then 0xA9 else if address = 0x0201 then 0x42 else 0x00)
    .base

/-- A fetch, the request for a copy-in of one byte at the first cycle of the instruction, the two
half-steps of the transfer and one more step. -/
def copyinAtFirstCycle (stage : Stage) : List Input :=
  let quiet := Input.quiet stage Locals.zero
  [quiet,
    { quiet with requests := [.setDMACopyin { addrLo := 0x3000, addrLen := 1 } (some 0) 0] },
    { quiet with provided := (true, 0x77) }, quiet, quiet]

/-- The transfer goes unnoticed by the program. -/
theorem transparent_nextCycle :
    Transparent loadImmediate { addrLo := 0x0000, addrLen := 0xFFFF } 0x0200 Loop.zero
      (copyinAtFirstCycle .nextCycle) :=
  transparent_of_staysTransparent _ _ _ _ _ (by decide)

/-- With another content of `next_stage` the load is never executed. -/
theorem not_transparent_instrEnd :
    ¬ Transparent loadImmediate { addrLo := 0x0000, addrLen := 0xFFFF } 0x0200 Loop.zero
      (copyinAtFirstCycle .instrEnd) := by
  intro transparent
  have registers_eq := (transparent (by decide) (copyinAtFirstCycle .instrEnd) []
    (List.append_nil _).symm).1
  have loaded_eq := congrArg Registers.A registers_eq
  revert loaded_eq
  decide

end Run
end System6502
