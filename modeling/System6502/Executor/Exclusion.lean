import System6502.Executor.StagedTransfer

/-!
# One DMA request at a time

From the step that accepts a request until the step that clears its flag the loops work for that
request, whatever other threads ask for in between, with two exceptions: a copy-out without a
consumer is carried out as a copy-in, and a half-step may access memory outside the range.
-/

namespace System6502

open Lib

variable {μ : Type*}

/-- An event of a transfer has the range, the direction, the callback and the context of an
order. -/
def Event.Serves (order : TransferOrder) : Event → Prop
  | .provide callback context _ _ _ =>
      order.copyout = false ∧ some callback = order.callback ∧ context = order.context
  | .consume callback context _ _ _ =>
      order.copyout = true ∧ some callback = order.callback ∧ context = order.context
  | .transferRead address _ => order.copyout = true ∧ order.range.doesInclude address = true
  | .transferWrite address _ => order.copyout = false ∧ order.range.doesInclude address = true
  | _ => True

/-- A pass of the inner loop reads the byte of a copy-out or writes that of a copy-in: the
transfer has started, or starts in this pass, and the cycle has the parity of the access. -/
def Run.Accesses (copyout : Bool) (run : Run μ) : Prop :=
  run.location = .cycle ∧
    (if run.loop.isInDMA then run.loop.isDMAStarted else run.loop.totalCycles % 2 == 0) = true ∧
    run.loop.totalCycles % 2 = if copyout then 0 else 1

instance (copyout : Bool) (run : Run μ) : Decidable (run.Accesses copyout) :=
  inferInstanceAs (Decidable (_ ∧ _ ∧ _))

namespace TransferOrder

/-- A step with an order meets neither of the exceptions. -/
structure Sound (order : TransferOrder) (run : Run μ) (input : Input) : Prop where
  /-- A copy-out that the step notices has a consumer. -/
  directed : run.location = .cycle → run.loop.isInDMA = false → ¬ order.Misread
  /-- A half-step that accesses memory finds the start of what remains inside the range. -/
  inside : run.Accesses order.copyout →
    order.range.doesInclude (run.admitRequests input).executor.dmaRange.addrLo = true

/-- A copy-out has a consumer, and the range is neither empty nor begins at the last address. -/
structure Proper (order : TransferOrder) : Prop where
  /-- The loops take the direction from the order. -/
  read : ¬ order.Misread
  /-- There is a byte to move. -/
  nonempty : 0 < order.range.addrLen.toNat
  /-- It lies before the last address. -/
  notLast : order.range.addrLo ≠ 0xFFFF

variable [Membus μ]

/-- A step of a launch works for an order only. -/
structure WorksFor (order : TransferOrder) (mode : ExecMode) (run : Run μ) (input : Input) :
    Prop where
  /-- Its callbacks and its bus accesses are those of the order. -/
  serves : ∀ event ∈ (run.step mode input).2, event.Serves order
  /-- Until the flag is cleared the loop works in the direction of the order and to its end. -/
  latched : let after := (run.step mode input).1
    after.executor.flags.dma = true → after.loop.isInDMA = true →
      after.loop.isDMACopyout = order.copyout ∧ after.loop.dmaAddrHi = order.range.getEnd
  /-- Until then further requests for transfers change nothing. -/
  unchanged : let after := (run.step mode input).1
    after.executor.flags.dma = true → ∀ request : Request, request.IsTransfer →
      after.executor.request request = after.executor

/-- The steps of a launch work for an order only, and access the addresses of its range one after
another. -/
structure Exclusive (order : TransferOrder) (mode : ExecMode) (run : Run μ)
    (inputs : List Input) : Prop where
  /-- Every step works for the order. -/
  works : (loopMachine μ mode).Meets (order.WorksFor mode) run inputs
  /-- The accesses run through the range from its start. -/
  addresses : ∃ count ≤ order.range.addrLen.toNat,
    ((loopMachine μ mode).trace run inputs).filterMap Event.busAddress =
      consecutive order.range.addrLo count

end TransferOrder

/-- Consecutive addresses from the start of a range that the range includes are no more than it
has. -/
theorem le_addrLen_of_doesInclude {range : MemoryAddrRange} {count : Nat}
    (inside : ∀ address ∈ consecutive range.addrLo count, range.doesInclude address = true) :
    count ≤ range.addrLen.toNat := by
  by_contra further
  -- the first address behind the range, or behind the end of memory
  let offset := min range.addrLen.toNat (0x10000 - range.addrLo.toNat)
  have offset_lt : offset < count := by omega
  have included := inside (range.addrLo + BitVec.ofNat 16 offset)
    (List.mem_map.mpr ⟨offset, List.mem_range.mpr offset_lt, rfl⟩)
  simp only [MemoryAddrRange.doesInclude, Bool.and_eq_true, decide_eq_true_eq, BitVec.le_def,
    BitVec.toNat_add, BitVec.toNat_ofNat, bne_iff_ne] at included
  have start_lt := range.addrLo.isLt
  have length_lt := range.addrLen.isLt
  omega

namespace Run

variable [Membus μ]

/-! ## Half-steps -/

/-- The events of a half-step serve an order whose direction the loop has taken, unless it
accesses memory outside the range. -/
theorem serves_dmaCycle_iff {order : TransferOrder} {moved : Nat} {run : Run μ} (input : Input)
    (carried : order.Carried moved run.transfer) (active : run.loop.isInDMA = true)
    (read : ¬ order.Misread) :
    (∀ event ∈ (run.dmaCycle input).2, event.Serves order) ↔
      (run.loop.isDMAStarted = true →
        run.loop.totalCycles % 2 = (if order.copyout then 0 else 1) →
          order.range.doesInclude run.executor.dmaRange.addrLo = true) := by
  have direction_eq : run.loop.isDMACopyout = order.copyout :=
    (carried.latched active).1.trans (order.latchedCopyout_eq_iff.mpr read)
  have provider_eq : run.executor.dmaProvider = _ := carried.provider_eq
  have consumer_eq : run.executor.dmaConsumer = _ := carried.consumer_eq
  have context_eq : run.executor.dmaContext = order.context := carried.context_eq
  cases started : run.loop.isDMAStarted with
  | false =>
      rw [dmaCycle, started, if_neg Bool.false_ne_true]
      exact iff_of_true (by simp) fun absurdly => by cases absurdly
  | true =>
      simp only [dmaCycle, started, if_true, forall_const]
      cases direction : order.copyout with
      | true =>
          rw [direction, if_pos rfl] at consumer_eq
          rcases Nat.mod_two_eq_zero_or_one run.loop.totalCycles with even | odd
          · rw [if_neg (by omega), dmaRead_of_copyout input (direction_eq.trans direction)]
            simp [Event.Serves, direction, even]
          · obtain ⟨consumer, callback_eq⟩ :=
              Option.ne_none_iff_exists'.mp fun null => read ⟨direction, null⟩
            rw [if_pos odd, dmaWrite_of_copyout input (direction_eq.trans direction)
              (consumer_eq.trans callback_eq)]
            simp [Event.Serves, direction, odd, callback_eq, context_eq]
      | false =>
          rw [direction, if_neg Bool.false_ne_true] at provider_eq
          rcases Nat.mod_two_eq_zero_or_one run.loop.totalCycles with even | odd
          · rw [if_neg (by omega)]
            cases callback_eq : order.callback with
            | none =>
                have read_eq : run.dmaRead input = (run.goto .nullCall, []) := by
                  simp only [dmaRead, direction_eq, direction, Bool.false_eq_true, if_false,
                    provider_eq, callback_eq]
                rw [read_eq]
                exact iff_of_true (by simp) fun odd => by simp [even] at odd
            | some provider =>
                rw [dmaRead_of_copyin input (direction_eq.trans direction)
                  (provider_eq.trans callback_eq)]
                simp [Event.Serves, direction, even, callback_eq, context_eq]
          · rw [if_pos odd, dmaWrite_of_copyin input (direction_eq.trans direction)]
            simp [Event.Serves, direction, odd]

/-- A misread order is under way when it has been noticed. -/
theorem dmaCycle_of_misread {order : TransferOrder} {run : Run μ} (input : Input)
    (carried : order.Carried 0 run.transfer) (misread : order.Misread) :
    (run.beginDMA.dmaCycle input).1.executor.flags.dma = true ∧
      (run.beginDMA.dmaCycle input).1.loop.isInDMA = true := by
  have provider_eq : run.beginDMA.executor.dmaProvider = none :=
    carried.provider_eq.trans (if_pos misread.1)
  have consumer_eq : run.executor.dmaConsumer = none :=
    carried.consumer_eq.trans ((if_pos misread.1).trans misread.2)
  have direction_eq : run.beginDMA.loop.isDMACopyout = false :=
    congrArg Option.isSome consumer_eq
  have requested : run.executor.flags.dma = true := carried.requested
  unfold dmaCycle
  split
  · rename_i started
    have even : run.beginDMA.loop.totalCycles % 2 = 0 := by simpa [beginDMA] using started
    have read_eq : run.beginDMA.dmaRead input = (run.beginDMA.goto .nullCall, []) := by
      simp only [dmaRead, direction_eq, Bool.false_eq_true, if_false, provider_eq]
    rw [if_neg (by omega), read_eq]
    exact ⟨requested, rfl⟩
  · exact ⟨requested, rfl⟩

/-! ## Steps -/

omit [Membus μ] in
/-- Until the flag is cleared an order goes on in its own direction exactly if it is not under way
misread. -/
theorem latched_iff {order : TransferOrder} {moved : Nat} {run : Run μ}
    (carried : run.executor.flags.dma = true → order.Carried moved run.transfer) :
    (run.executor.flags.dma = true → run.loop.isInDMA = true →
        run.loop.isDMACopyout = order.copyout ∧ run.loop.dmaAddrHi = order.range.getEnd) ↔
      (run.executor.flags.dma = true → run.loop.isInDMA = true → ¬ order.Misread) := by
  refine forall_congr' fun busy => forall_congr' fun active => ?_
  have latched : run.loop.isDMACopyout = order.latchedCopyout ∧ _ :=
    (carried busy).latched active
  rw [latched.1, order.latchedCopyout_eq_iff]
  exact and_iff_left latched.2

section Works

variable {order : TransferOrder} {moved : Nat} {run : Run μ} {input : Input}

/-- What a step with an order can get wrong. -/
theorem worksFor_iff_serves (admits : run.Admits order moved input) (flagged : run.Flagged)
    (mode : ExecMode) :
    order.WorksFor mode run input ↔
      (∀ event ∈ (run.step mode input).2, event.Serves order) ∧
        ((run.step mode input).1.executor.flags.dma = true →
          (run.step mode input).1.loop.isInDMA = true → ¬ order.Misread) := by
  obtain ⟨count, -, carried⟩ := admits.continues flagged mode
  have latched := latched_iff carried
  exact ⟨fun works => ⟨works.serves, latched.mp works.latched⟩, fun both =>
    ⟨both.1, latched.mpr both.2, fun busy _ => Executor.request_of_dma busy⟩⟩

/-- A pass of the inner loop through a transfer that is under way. -/
theorem worksFor_iff_of_active (admits : run.Admits order moved input) (flagged : run.Flagged)
    (here : run.location = .cycle) (active : run.loop.isInDMA = true) (read : ¬ order.Misread)
    (mode : ExecMode) : order.WorksFor mode run input ↔ order.Sound run input := by
  have step_eq : run.step mode input = run.cycleStep mode input := by
    simp only [step, here]
  have current := admits.carried_of_active flagged active
  have same : (run.admitRequests input).executor.dmaRange = run.executor.dmaRange :=
    congrArg Transfer.range (transfer_requests_of_dma run input.requests current.requested)
  rw [worksFor_iff_serves admits flagged, step_eq, cycleStep_of_active mode input active,
    serves_dmaCycle_iff input current active read]
  constructor
  · rintro ⟨inside, -⟩
    refine ⟨fun _ idle => absurd (active.symm.trans idle) Bool.noConfusion, ?_⟩
    rintro ⟨-, started, parity⟩
    rw [active, if_pos rfl] at started
    rw [same]
    exact inside started parity
  · intro sound
    refine ⟨fun started parity => ?_, fun _ _ => read⟩
    rw [← same]
    exact sound.inside ⟨here, by rwa [active, if_pos rfl], parity⟩

/-- A pass of the inner loop that notices an order. -/
theorem worksFor_iff_of_noticed (admits : run.Admits order 0 input) (flagged : run.Flagged)
    (here : run.location = .cycle) (idle : run.loop.isInDMA = false) (mode : ExecMode) :
    order.WorksFor mode run input ↔ order.Sound run input := by
  have cycle_eq : run.step mode input = run.cycleStep mode input := by
    simp only [step, here]
  have step_eq := cycle_eq.trans
    (cycleStep_of_requested mode input idle admits.carried.requested)
  rw [worksFor_iff_serves admits flagged]
  by_cases misread : order.Misread
  · refine iff_of_false (fun both => ?_) fun sound => sound.directed here idle misread
    have underWay := dmaCycle_of_misread input admits.carried misread
    have same : (run.step mode input).1.transfer =
        ((run.admitRequests input).beginDMA.dmaCycle input).1.transfer := by
      rw [step_eq]
      exact afterCycle_transfer mode _
    exact both.2 ((congrArg Transfer.requested same).trans underWay.1)
      ((congrArg Transfer.active same).trans underWay.2) misread
  · have serves_iff : (∀ event ∈ (run.step mode input).2, event.Serves order) ↔
        ∀ event ∈ ((run.admitRequests input).beginDMA.dmaCycle input).2, event.Serves order := by
      rw [step_eq]
      simp [Event.Serves]
    rw [serves_iff, serves_dmaCycle_iff input (carried_beginDMA admits.carried) rfl misread]
    constructor
    · rintro ⟨inside, -⟩
      refine ⟨fun _ _ => misread, ?_⟩
      rintro ⟨-, started, parity⟩
      rw [idle, if_neg Bool.false_ne_true] at started
      exact inside started parity
    · intro sound
      refine ⟨fun started parity => ?_, fun _ _ => misread⟩
      exact sound.inside ⟨here, by rwa [idle, if_neg Bool.false_ne_true], parity⟩

/-- A step works for an order exactly when it is sound. -/
theorem worksFor_iff (admits : run.Admits order moved input) (flagged : run.Flagged)
    (read : run.loop.isInDMA = true → ¬ order.Misread) (mode : ExecMode) :
    order.WorksFor mode run input ↔ order.Sound run input := by
  by_cases here : run.location = .cycle
  · cases active : run.loop.isInDMA with
    | true => exact worksFor_iff_of_active admits flagged here active (read active) mode
    | false =>
        obtain rfl := admits.carried.untouched active
        exact worksFor_iff_of_noticed admits flagged here active mode
  · rw [worksFor_iff_serves admits flagged]
    refine iff_of_true ⟨fun event event_mem => ?_, fun _ active => read ?_⟩
      ⟨fun cycle => absurd cycle here, fun accesses => absurd accesses.1 here⟩
    · have silent := step_silent mode input here event event_mem
      cases event with
      | provide | consume | transferRead | transferWrite => exact absurd trivial silent
      | _ => trivial
    · exact (congrArg Transfer.active (admits.step_transfer mode here)).symm.trans active

end Works

/-! ## Runs -/

/-- While the flag is set, the steps work for an order exactly when they are sound. -/
theorem meets_worksFor_iff {order : TransferOrder} {moved : Nat} {run : Run μ} {first : Input}
    (admits : run.Admits order moved first) (flagged : run.Flagged)
    (read : run.loop.isInDMA = true → ¬ order.Misread) (mode : ExecMode) (rest : List Input)
    (busy : (loopMachine μ mode).Meets Busy (run.step mode first).1 rest) :
    (loopMachine μ mode).Meets (order.WorksFor mode) run (first :: rest) ↔
      (loopMachine μ mode).Meets order.Sound run (first :: rest) := by
  induction rest generalizing run first moved with
  | nil => exact and_congr_left fun _ => worksFor_iff admits flagged read mode
  | cons second rest ih =>
      simp only [Machine.Meets]
      rw [worksFor_iff admits flagged read mode]
      refine and_congr_right fun sound => ?_
      have works := (worksFor_iff admits flagged read mode).mpr sound
      obtain ⟨count, -, carried⟩ := admits.continues flagged mode
      refine ih (admits_of_carried (carried busy.1) second) (flagged.step mode first) ?_ busy.2
      exact (latched_iff carried).mp works.latched busy.1

/-! ## Requests that are always sound -/

omit [Membus μ] in
/-- The bytes moved so far leave one to be moved, unless the last one read is still to be handed
on. -/
def Before (order : TransferOrder) (moved : Nat) (run : Run μ) : Prop :=
  order.range.addrLo.toNat + moved < order.range.getEnd.toNat ∨
    order.copyout = true ∧ run.loop.isDMAStarted = true ∧ run.loop.totalCycles % 2 = 1 ∧
      order.range.addrLo.toNat + moved ≤ order.range.getEnd.toNat

omit [Membus μ] in
/-- A transfer that is under way has bytes to move; a copy-out is not interrupted. -/
def Ahead (order : TransferOrder) (moved : Nat) (run : Run μ) : Prop :=
  run.loop.isInDMA = true → run.Before order moved ∧
    (order.copyout = true → run.location = .cycle ∧ run.loop.nextStage = .execDMA)

omit [Membus μ] in
/-- A transfer that goes on after a byte has not reached its end. -/
theorem remaining_lt_of_busy {order : TransferOrder} {moved : Nat} {run : Run μ}
    (range_eq : run.executor.dmaRange = order.remaining moved)
    (addrHi_eq : run.loop.dmaAddrHi = order.range.getEnd)
    (within : order.range.addrLo.toNat + moved ≤ order.range.getEnd.toNat)
    (busy : run.endDMAAtRangeEnd.executor.flags.dma = true) :
    order.range.addrLo.toNat + moved < order.range.getEnd.toNat := by
  have further : ¬ run.executor.dmaRange.addrLo ≥ run.loop.dmaAddrHi := fun reached => by
    rw [endDMAAtRangeEnd, if_pos reached] at busy
    exact Bool.false_ne_true busy
  have end_lt := order.range.getEnd.isLt
  rw [range_eq, addrHi_eq, ge_iff_le, BitVec.not_le, BitVec.lt_def, order.toNat_remaining,
    Nat.mod_eq_of_lt (by omega)] at further
  exact further

/-- What a half-step leaves: the order at some place, with bytes to be moved.  A half-step of a
copy-out stays at its resting point. -/
def Remains (order : TransferOrder) (run after : Run μ) : Prop :=
  ∃ later, order.Carried later after.transfer ∧ after.Before order later ∧
    (order.copyout = true → after.location = run.location ∧
      after.loop.nextStage = run.loop.nextStage)

section HalfStep

variable {order : TransferOrder} {moved : Nat} {run : Run μ} (input : Input)

/-- The reading half-step leaves bytes to be moved, unless the provider refuses. -/
theorem remains_dmaRead (carried : order.Carried moved run.transfer)
    (active : run.loop.isInDMA = true) (direction_eq : run.loop.isDMACopyout = order.copyout)
    (started : run.loop.isDMAStarted = true) (even : run.loop.totalCycles % 2 = 0)
    (ahead : order.range.addrLo.toNat + moved < order.range.getEnd.toNat)
    (busy : (run.dmaRead input).1.executor.flags.dma = true) :
    Remains order run (run.dmaRead input).1 := by
  have provider_eq : run.executor.dmaProvider = _ := carried.provider_eq
  cases direction : order.copyout with
  | true =>
      rw [dmaRead_of_copyout input (direction_eq.trans direction)]
      refine ⟨moved + 1, carried_of_advanced carried active rfl, ?_, fun _ => ⟨rfl, rfl⟩⟩
      exact .inr ⟨direction, started, by change (run.loop.totalCycles + 1) % 2 = 1; omega, by omega⟩
  | false =>
      rw [direction, if_neg Bool.false_ne_true] at provider_eq
      cases callback_eq : order.callback with
      | none =>
          have read_eq : run.dmaRead input = (run.goto .nullCall, []) := by
            simp only [dmaRead, direction_eq, direction, Bool.false_eq_true, if_false,
              provider_eq, callback_eq]
          rw [read_eq]
          exact ⟨moved, carried, .inl ahead, fun copyout => by cases direction.symm.trans copyout⟩
      | some provider =>
          have read_eq := dmaRead_of_copyin input (direction_eq.trans direction)
            (provider_eq.trans callback_eq)
          rw [read_eq] at busy ⊢
          refine ⟨moved, ?_, .inl ahead, fun copyout => by cases direction.symm.trans copyout⟩
          cases provided : input.provided.1 with
          | true => exact carried_of_kept carried active rfl
          | false =>
              rw [provided] at busy
              exact absurd busy Bool.false_ne_true

/-- The writing half-step leaves bytes to be moved, unless the consumer refuses or the end is
reached. -/
theorem remains_dmaWrite (carried : order.Carried moved run.transfer)
    (active : run.loop.isInDMA = true) (direction_eq : run.loop.isDMACopyout = order.copyout)
    (read : ¬ order.Misread) (before : run.Before order moved)
    (busy : (run.dmaWrite input).1.executor.flags.dma = true) :
    Remains order run (run.dmaWrite input).1 := by
  have addrHi_eq : run.loop.dmaAddrHi = order.range.getEnd := (carried.latched active).2
  have consumer_eq : run.executor.dmaConsumer = _ := carried.consumer_eq
  cases direction : order.copyout with
  | true =>
      rw [direction, if_pos rfl] at consumer_eq
      obtain ⟨consumer, callback_eq⟩ :=
        Option.ne_none_iff_exists'.mp fun null => read ⟨direction, null⟩
      have write_eq := dmaWrite_of_copyout input (direction_eq.trans direction)
        (consumer_eq.trans callback_eq)
      rw [write_eq] at busy ⊢
      dsimp only at busy ⊢
      cases consumed : input.consumed with
      | false =>
          rw [consumed, if_neg Bool.false_ne_true] at busy
          have same := endDMAAtRangeEnd_of_requested busy
          have cleared := (congrArg (fun run => run.executor.flags.dma) same).symm.trans busy
          exact absurd cleared Bool.false_ne_true
      | true =>
          rw [consumed, if_pos rfl] at busy
          have within : order.range.addrLo.toNat + moved ≤ order.range.getEnd.toNat := by
            rcases before with before | ⟨-, -, -, le⟩
            · exact Nat.le_of_lt before
            · exact le
          have called : run.advanceIndex.executor.dmaRange = order.remaining moved :=
            carried.range_eq
          have further := remaining_lt_of_busy called addrHi_eq within busy
          rw [if_pos rfl, endDMAAtRangeEnd_of_requested busy]
          exact ⟨moved, carried_of_kept carried active rfl, .inl further, fun _ => ⟨rfl, rfl⟩⟩
  | false =>
      have write_eq := dmaWrite_of_copyin input (direction_eq.trans direction)
      rw [write_eq] at busy ⊢
      dsimp only at busy ⊢
      have ahead : order.range.addrLo.toNat + moved < order.range.getEnd.toNat :=
        before.resolve_right fun handing => by cases direction.symm.trans handing.1
      have advanced : order.Carried (moved + 1) run.writeNextByte.advanceRange.transfer :=
        carried_of_advanced carried active rfl
      have further : order.range.addrLo.toNat + (moved + 1) < order.range.getEnd.toNat :=
        remaining_lt_of_busy advanced.range_eq addrHi_eq (by omega) busy
      rw [endDMAAtRangeEnd_of_requested busy]
      refine ⟨moved + 1, ?_, .inl further, fun copyout => by cases direction.symm.trans copyout⟩
      exact carried_of_kept advanced active rfl

/-- A half-step leaves bytes to be moved, or ends the transfer. -/
theorem remains_dmaCycle (carried : order.Carried moved run.transfer)
    (active : run.loop.isInDMA = true) (read : ¬ order.Misread) (before : run.Before order moved)
    (busy : (run.dmaCycle input).1.executor.flags.dma = true) :
    Remains order run (run.dmaCycle input).1 := by
  have direction_eq : run.loop.isDMACopyout = order.copyout :=
    (carried.latched active).1.trans (order.latchedCopyout_eq_iff.mpr read)
  unfold dmaCycle at busy ⊢
  cases started : run.loop.isDMAStarted with
  | false =>
      rw [if_neg Bool.false_ne_true]
      refine ⟨moved, carried_of_kept carried active rfl, ?_, fun _ => ⟨rfl, rfl⟩⟩
      rcases before with before | ⟨-, absurdly, -⟩
      · exact .inl before
      · cases started.symm.trans absurdly
  | true =>
      rw [started, if_pos rfl] at busy
      rw [if_pos rfl]
      rcases Nat.mod_two_eq_zero_or_one run.loop.totalCycles with even | odd
      · rw [if_neg (by omega)] at busy ⊢
        exact remains_dmaRead input carried active direction_eq started even
          (before.resolve_right fun handing => by omega) busy
      · rw [if_pos odd] at busy ⊢
        exact remains_dmaWrite input carried active direction_eq read before busy

end HalfStep

omit [Membus μ] in
/-- A proper order begins with bytes to move. -/
theorem before_zero {order : TransferOrder} (proper : order.Proper) (run : Run μ) :
    run.Before order 0 := by
  have last := proper.notLast
  have nonempty := proper.nonempty
  rw [Ne, ← BitVec.toNat_inj] at last
  have start_lt := order.range.addrLo.isLt
  refine .inl ?_
  rw [MemoryAddrRange.toNat_getEnd]
  change order.range.addrLo.toNat ≠ 0xFFFF at last
  omega

omit [Membus μ] in
/-- Where there are bytes to move, an access is inside the range. -/
theorem doesInclude_of_before {order : TransferOrder} {moved : Nat} {run : Run μ}
    (before : run.Before order moved)
    (parity : run.loop.totalCycles % 2 = if order.copyout then 0 else 1) :
    order.range.doesInclude (order.remaining moved).addrLo = true := by
  have ahead : order.range.addrLo.toNat + moved < order.range.getEnd.toNat := by
    refine before.resolve_right fun handing => ?_
    rw [handing.1, if_pos rfl] at parity
    omega
  rw [MemoryAddrRange.toNat_getEnd] at ahead
  have nonempty : order.range.addrLen ≠ 0 := fun empty => by
    rw [empty] at ahead
    simp only [BitVec.ofNat_eq_ofNat, BitVec.toNat_ofNat] at ahead
    omega
  simp only [MemoryAddrRange.doesInclude, Bool.and_eq_true, decide_eq_true_eq, BitVec.le_def,
    order.toNat_remaining, bne_iff_ne]
  exact ⟨⟨nonempty, by omega⟩, by omega⟩

omit [Membus μ] in
/-- The steps of a proper order are sound as long as there are bytes to move. -/
theorem Ahead.sound {order : TransferOrder} {moved : Nat} {run : Run μ} {input : Input}
    (ahead : run.Ahead order moved) (admits : run.Admits order moved input)
    (proper : order.Proper) : order.Sound run input := by
  refine ⟨fun _ _ => proper.read, ?_⟩
  rintro ⟨-, -, parity⟩
  rw [show (run.admitRequests input).executor.dmaRange = order.remaining moved from
    admits.carried.range_eq]
  cases active : run.loop.isInDMA with
  | true => exact doesInclude_of_before (ahead active).1 parity
  | false =>
      obtain rfl := admits.carried.untouched active
      exact doesInclude_of_before (before_zero proper run) parity

/-- In staged mode, and for a copy-in in static mode, a pass of the inner loop through a half-step
leaves bytes to move or ends the transfer. -/
theorem ahead_afterCycle {order : TransferOrder} {moved : Nat} {run : Run μ} (input : Input)
    (here : run.location = .cycle) (active : run.loop.isInDMA = true)
    (carried : order.Carried moved run.transfer) (ahead : run.Ahead order moved)
    (read : ¬ order.Misread) {mode : ExecMode} (inOrder : mode = .staged ∨ order.copyout = false)
    (busy : ((run.dmaCycle input).1.afterCycle mode).executor.flags.dma = true) :
    ∃ later, order.Carried later ((run.dmaCycle input).1.afterCycle mode).transfer ∧
      ((run.dmaCycle input).1.afterCycle mode).Ahead order later := by
  have same := afterCycle_transfer mode (run.dmaCycle input).1
  obtain ⟨later, carriedLater, beforeLater, kept⟩ := remains_dmaCycle input carried active read
    (ahead active).1 ((congrArg Transfer.requested same).symm.trans busy)
  refine ⟨later, same ▸ carriedLater, fun _ => ⟨?_, fun copyout => ?_⟩⟩
  · unfold Before at beforeLater ⊢
    rwa [afterCycle_loop]
  · have staged : mode = .staged := inOrder.resolve_right fun copyin => by
      cases copyout.symm.trans copyin
    obtain ⟨location_eq, stage_eq⟩ := kept copyout
    have stage := stage_eq.trans ((ahead active).2 copyout).2
    rw [staged, afterCycle_of_stage (location_eq.trans here) stage]
    exact ⟨location_eq.trans here, stage⟩

/-- So does every step. -/
theorem Ahead.step {order : TransferOrder} {moved : Nat} {run : Run μ} {input : Input}
    (ahead : run.Ahead order moved) (admits : run.Admits order moved input)
    (flagged : run.Flagged) (proper : order.Proper) {mode : ExecMode}
    (inOrder : mode = .staged ∨ order.copyout = false)
    (busy : (run.step mode input).1.executor.flags.dma = true) :
    ∃ later, order.Carried later (run.step mode input).1.transfer ∧
      (run.step mode input).1.Ahead order later := by
  by_cases here : run.location = .cycle
  · have step_eq : run.step mode input = run.cycleStep mode input := by
      simp only [Run.step, here]
    rw [step_eq] at busy ⊢
    cases active : run.loop.isInDMA with
    | true =>
        rw [cycleStep_of_active mode input active] at busy ⊢
        exact ahead_afterCycle input here active (admits.carried_of_active flagged active) ahead
          proper.read inOrder busy
    | false =>
        obtain rfl := admits.carried.untouched active
        rw [cycleStep_of_requested mode input active admits.carried.requested] at busy ⊢
        have begun : (run.admitRequests input).beginDMA.Ahead order 0 := fun _ =>
          ⟨before_zero proper _, fun _ => ⟨here, rfl⟩⟩
        have noticed : (run.admitRequests input).beginDMA.location = .cycle := here
        exact ahead_afterCycle input noticed rfl (carried_beginDMA admits.carried) begun
          proper.read inOrder busy
  · have transfer_eq := admits.step_transfer mode here
    refine ⟨moved, transfer_eq ▸ admits.carried, fun activeAfter => ?_⟩
    have active : run.loop.isInDMA = true :=
      (congrArg Transfer.active transfer_eq).symm.trans activeAfter
    have copyin : order.copyout ≠ true := fun copyout => here ((ahead active).2 copyout).1
    exact ⟨.inl ((ahead active).1.resolve_right fun handing => copyin handing.1),
      fun copyout => absurd copyout copyin⟩

/-- In staged mode, and for a copy-in in static mode, all steps of a proper order are sound. -/
theorem meets_sound_of_proper {order : TransferOrder} {moved : Nat} {run : Run μ} {first : Input}
    (admits : run.Admits order moved first) (flagged : run.Flagged)
    (ahead : run.Ahead order moved) (proper : order.Proper) {mode : ExecMode}
    (inOrder : mode = .staged ∨ order.copyout = false) (rest : List Input)
    (busy : (loopMachine μ mode).Meets Busy (run.step mode first).1 rest) :
    (loopMachine μ mode).Meets order.Sound run (first :: rest) := by
  induction rest generalizing run first moved with
  | nil => exact ⟨ahead.sound admits proper, trivial⟩
  | cons second rest ih =>
      obtain ⟨later, carried, aheadLater⟩ := ahead.step admits flagged proper inOrder busy.1
      exact ⟨ahead.sound admits proper,
        ih (admits_of_carried carried second) (flagged.step mode first) aheadLater busy.2⟩

end Run

/-! ## Requests that are not -/

namespace ServedOrder

/-- Every byte is moved by one access. -/
theorem length_filterMap_moves (order : ServedOrder) (moved : Nat) (values : List Byte) :
    ((order.moves moved values).filterMap Event.busAddress).length = values.length := by
  induction values generalizing moved with
  | nil => rfl
  | cons value rest ih =>
      have one : ([order.obtain moved value, order.handOn moved value].filterMap
          Event.busAddress).length = 1 := by
        unfold obtain handOn
        cases order.copyout <;> rfl
      rw [moves, List.filterMap_append, List.length_append, one, ih, List.length_cons,
        Nat.add_comm]

theorem addrLen_lt_count {order : ServedOrder} (improper : ¬ order.Proper) :
    order.range.addrLen.toNat < order.count := by
  have length_lt := order.range.addrLen.isLt
  unfold count
  by_cases last : order.range.addrLo = 0xFFFF
  · rw [if_pos last]
    exact length_lt
  · have empty : order.range.addrLen.toNat = 0 := by
      by_contra nonempty
      refine improper ⟨fun misread => ?_, Nat.pos_of_ne_zero nonempty, last⟩
      cases misread.2.symm.trans order.callback_eq
    have pos := order.count_pos
    unfold count at pos
    omega

end ServedOrder

theorem filterMap_busAddress_filter (events : List Event) :
    (events.filter Event.IsTransfer).filterMap Event.busAddress =
      events.filterMap Event.busAddress := by
  rw [List.filterMap_filter]
  refine congrArg (List.filterMap · events) (funext fun event => ?_)
  cases event <;> rfl

namespace Run

variable [Membus μ]

/-- Before a transfer has ended its flag is set. -/
theorem meets_busy_of_active {run : Run μ} (flagged : run.Flagged) {mode : ExecMode}
    {inputs : List Input}
    (active : (loopMachine μ mode).Meets (fun run _ => ¬ run.Idle) run inputs) :
    (loopMachine μ mode).Meets Busy run inputs := by
  induction inputs generalizing run with
  | nil => trivial
  | cons first rest ih =>
      exact ⟨flagged (by simpa [Idle] using active.1), ih (flagged.step mode first) active.2⟩

/-- A served order that is not proper goes on beyond its range in staged mode, if its callbacks let
it. -/
theorem exists_not_exclusive_of_served {order : ServedOrder} {run : Run μ} {given : Input}
    (here : run.location = .cycle) (flagged : run.Flagged)
    (accepts : run.Accepts order.toTransferOrder given) (accepting : given.Accepting)
    (improper : ¬ order.Proper) :
    ∃ later, (loopMachine μ .staged).Meets Busy (run.step .staged given).1 later ∧
      ¬ order.Exclusive .staged run (given :: later) := by
  obtain ⟨steps, arrives⟩ := ServedOrder.moves_count here (accepts.idle flagged)
    (accepts.admits flagged).carried accepting
  obtain ⟨final, values, values_length, arrived, trace_eq⟩ :=
    arrives (List.replicate steps given) List.length_replicate fun input input_mem =>
      List.eq_of_mem_replicate input_mem ▸ accepting
  refine ⟨List.replicate steps given,
    meets_busy_of_active (flagged.step .staged given) arrived.1, fun exclusive => ?_⟩
  obtain ⟨count, count_le, addresses_eq⟩ := exclusive.addresses
  have lengths := congrArg List.length addresses_eq
  rw [← filterMap_busAddress_filter, trace_eq, order.length_filterMap_moves, values_length,
    consecutive, List.length_map, List.length_range] at lengths
  have beyond := ServedOrder.addrLen_lt_count improper
  omega

/-- A step that notices a copy-out without a consumer does not work for it. -/
theorem not_exclusive_of_misread {order : TransferOrder} {run : Run μ} {given : Input}
    (here : run.location = .cycle) (flagged : run.Flagged) (accepts : run.Accepts order given)
    (misread : order.Misread) (mode : ExecMode) : ¬ order.Exclusive mode run [given] := by
  have idle := accepts.idle flagged
  intro exclusive
  have active_read : run.loop.isInDMA = true → ¬ order.Misread := fun active =>
    Bool.noConfusion (idle.symm.trans active)
  have sound := (worksFor_iff (accepts.admits flagged) flagged active_read mode).mp
    exclusive.works.1
  exact sound.directed here idle misread

end Run

namespace TransferOrder

variable [Membus μ]

/-- A copy-in has a provider. -/
def Provided (order : TransferOrder) : Prop := order.copyout = false → order.callback ≠ none

/-- An order that is not proper is not served exclusively in staged mode, if its callbacks let it
go on. -/
theorem exists_not_exclusive {order : TransferOrder} {run : Run μ} {given : Input}
    (here : run.location = .cycle) (flagged : run.Flagged) (accepts : run.Accepts order given)
    (accepting : given.Accepting) (provided : order.Provided) (improper : ¬ order.Proper) :
    ∃ later, (loopMachine μ .staged).Meets Run.Busy (run.step .staged given).1 later ∧
      ¬ order.Exclusive .staged run (given :: later) := by
  cases callback_eq : order.callback with
  | none =>
      have copyout : order.copyout = true := by
        by_contra copyin
        exact provided (Bool.eq_false_iff.mpr copyin) callback_eq
      exact ⟨[], trivial, Run.not_exclusive_of_misread here flagged accepts ⟨copyout, callback_eq⟩
        .staged⟩
  | some function =>
      let served : ServedOrder := { order with function, callback_eq }
      have goesOn : ¬ served.Proper := improper
      exact Run.exists_not_exclusive_of_served here flagged accepts accepting goesOn

/-- The steps with an accepted order serve it exclusively exactly when they are sound. -/
theorem exclusive_iff {order : TransferOrder} {run : Run μ} {given : Input} {later : List Input}
    (flagged : run.Flagged) (accepts : run.Accepts order given) {mode : ExecMode}
    (busy : (loopMachine μ mode).Meets Run.Busy (run.step mode given).1 later) :
    order.Exclusive mode run (given :: later) ↔
      (loopMachine μ mode).Meets order.Sound run (given :: later) := by
  have admits := accepts.admits flagged
  have works_iff := Run.meets_worksFor_iff admits flagged (fun active =>
    Bool.noConfusion ((accepts.idle flagged).symm.trans active)) mode later busy
  refine ⟨fun exclusive => works_iff.mp exclusive.works, fun sound => ?_⟩
  have works := works_iff.mpr sound
  obtain ⟨count, addresses_eq⟩ := admits.addresses flagged mode later busy
  rw [order.remaining_zero] at addresses_eq
  refine ⟨works, count, le_addrLen_of_doesInclude fun address address_mem => ?_, addresses_eq⟩
  rw [← addresses_eq] at address_mem
  obtain ⟨event, event_mem, event_eq⟩ := List.mem_filterMap.mp address_mem
  have serves : event.Serves order :=
    (loopMachine μ mode).forall_mem_trace
      ((loopMachine μ mode).meets_mono (fun _ _ works => works.serves) works) event event_mem
  cases event with
  | transferRead _ _ | transferWrite _ _ =>
      cases event_eq
      exact serves.2
  | _ => cases event_eq

end TransferOrder

/-- From the step of a launch that accepts a request, for as long as its flag stays set, every
callback and every bus access of the transfer belongs to the request, with its range and its
direction, and further requests for transfers change nothing, if and only if no step notices a
copy-out without a consumer and no half-step accesses memory when the start of what remains has
left the range.  In staged mode, and for a copy-in in static mode, this holds however the run goes
on when a copy-out has a consumer and the range is neither empty nor begins at the last address;
and in staged mode, for a request that the inner loop accepts, only then. -/
theorem transfer_exclusive_iff [Membus μ] (mode : ExecMode) (executor : Executor μ)
    (range : MemoryAddrRange) (PC : Word) (residue : Loop) (earlier : List Input)
    {order : TransferOrder} {given : Input} {run : Run μ}
    (run_eq : (loopMachine μ mode).run (Run.launch executor range PC residue) earlier = run)
    (accepts : run.Accepts order given) :
    (∀ later, (loopMachine μ mode).Meets Run.Busy (run.step mode given).1 later →
        (order.Exclusive mode run (given :: later) ↔
          (loopMachine μ mode).Meets order.Sound run (given :: later))) ∧
      (order.Proper → mode = .staged ∨ order.copyout = false →
        ∀ later, (loopMachine μ mode).Meets Run.Busy (run.step mode given).1 later →
          order.Exclusive mode run (given :: later)) ∧
      (mode = .staged → run.location = .cycle → given.Accepting → order.Provided →
        ¬ order.Proper →
        ∃ later, (loopMachine μ mode).Meets Run.Busy (run.step mode given).1 later ∧
          ¬ order.Exclusive mode run (given :: later)) := by
  have flagged : run.Flagged := run_eq ▸ Run.flagged_run mode executor range PC residue earlier
  refine ⟨fun later busy => TransferOrder.exclusive_iff flagged accepts busy,
    fun proper inOrder later busy => ?_, ?_⟩
  · have ahead : run.Ahead order 0 := fun active =>
      Bool.noConfusion ((accepts.idle flagged).symm.trans active)
    exact (TransferOrder.exclusive_iff flagged accepts busy).mpr
      (Run.meets_sound_of_proper (accepts.admits flagged) flagged ahead proper inOrder later busy)
  · rintro rfl here accepting provided improper
    exact TransferOrder.exists_not_exclusive here flagged accepts accepting provided improper

/-- A copy-in of the byte at `$3000`. -/
def orderedCopyin : TransferOrder where
  copyout := false
  range := { addrLo := 0x3000, addrLen := 0x0001 }
  callback := some 1
  context := 0

/-- A copy-out asked for right after the copy-in. -/
def competingRequests : Input :=
  { Input.quiet .nextCycle Locals.zero with
    requests :=
      [orderedCopyin.request, .setDMACopyout { addrLo := 0x4000, addrLen := 0x0002 } (some 2) 0]
    provided := (true, 0x55) }

/-- The copy-in is carried out to its end. -/
theorem transfer_exclusive_copyin :
    orderedCopyin.Exclusive .staged releasing
      [competingRequests, competingRequests, competingRequests] := by
  have accepts : releasing.Accepts orderedCopyin competingRequests :=
    ⟨rfl, .inl rfl, [], [.setDMACopyout { addrLo := 0x4000, addrLen := 0x0002 } (some 2) 0], rfl,
      by simp⟩
  have proper : orderedCopyin.Proper := ⟨by decide, by decide, by decide⟩
  exact (transfer_exclusive_iff .staged _ _ _ _ _ rfl accepts).2.1 proper (.inl rfl) _
    ⟨rfl, rfl, trivial⟩

/-- A copy-in of the byte at `$FFFF`. -/
def lastByte : TransferOrder where
  copyout := false
  range := { addrLo := 0xFFFF, addrLen := 0x0001 }
  callback := some 1
  context := 0

/-- A copy-out of the byte at `$3000` without a consumer. -/
def unreceived : TransferOrder where
  copyout := true
  range := { addrLo := 0x3000, addrLen := 0x0001 }
  callback := none
  context := 0

/-- After `$FFFF` the first transfer goes on at `$0000`, and the second writes to memory. -/
theorem not_transfer_exclusive :
    (releasing.Accepts lastByte lastByte.asking ∧
        (loopMachine Ram .staged).Meets Run.Busy (releasing.step .staged lastByte.asking).1
          (List.replicate 4 lastByte.asking) ∧
        ¬ lastByte.Exclusive .staged releasing (List.replicate 5 lastByte.asking)) ∧
      releasingStatic.Accepts unreceived unreceived.asking ∧
        (loopMachine Ram .static).Meets Run.Busy (releasingStatic.step .static unreceived.asking).1
          (List.replicate 3 unreceived.asking) ∧
        ¬ unreceived.Exclusive .static releasingStatic (List.replicate 4 unreceived.asking) := by
  have wrapped : ((loopMachine Ram .staged).trace releasing
      (List.replicate 5 lastByte.asking)).filterMap Event.busAddress = [0xFFFF, 0x0000] := by
    decide
  have written : ((loopMachine Ram .static).trace releasingStatic
      (List.replicate 4 unreceived.asking)).filter Event.IsTransfer =
        [.transferWrite 0x3000 0x00] := by
    decide
  refine ⟨⟨?_, ⟨rfl, rfl, rfl, rfl, trivial⟩, fun exclusive => ?_⟩, ?_, ⟨rfl, rfl, rfl, trivial⟩,
    fun exclusive => ?_⟩
  · exact ⟨rfl, .inl rfl, [], [], rfl, by simp⟩
  · obtain ⟨count, count_le, addresses_eq⟩ := exclusive.addresses
    have lengths := congrArg List.length (wrapped.symm.trans addresses_eq)
    rw [consecutive, List.length_map, List.length_range] at lengths
    change 2 = count at lengths
    change count ≤ 1 at count_le
    omega
  · exact ⟨rfl, .inl rfl, [], [], rfl, by simp⟩
  · have serves := (loopMachine Ram .static).forall_mem_trace
      ((loopMachine Ram .static).meets_mono (fun _ _ works => works.serves) exclusive.works)
    have event_mem : Event.transferWrite 0x3000 0x00 ∈ ((loopMachine Ram .static).trace
        releasingStatic (List.replicate 4 unreceived.asking)).filter Event.IsTransfer := by
      rw [written]
      exact List.mem_singleton.mpr rfl
    exact Bool.noConfusion (serves _ (List.mem_of_mem_filter event_mem)).1

end System6502
