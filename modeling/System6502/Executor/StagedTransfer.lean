import System6502.Executor.Orders

/-!
# Transfers in staged mode

A staged transfer reads on even cycles and writes on odd ones until the advanced start of its
range reaches the end the loop has latched.  The number of bytes it moves is that of the range
unless the range is empty or reaches the last address.
-/

namespace System6502

open Lib

variable {μ : Type*}

/-- The event belongs to a transfer. -/
instance : DecidablePred Event.IsTransfer
  | .provide .. | .consume .. | .transferRead .. | .transferWrite .. => isTrue trivial
  | .lock | .unlock | .fetch .. | .illegal .. | .leave | .call .. | .service .. => isFalse id

/-- Neither callback returns false. -/
def Input.Accepting (input : Input) : Prop := input.provided.1 = true ∧ input.consumed = true

/-- A request for a transfer that comes with a callback. -/
structure ServedOrder extends TransferOrder where
  /-- The provider or the consumer. -/
  function : Nat
  /-- It is not a null pointer. -/
  callback_eq : callback = some function

namespace ServedOrder

/-- The loops take the direction of such a request from it. -/
theorem latchedCopyout_eq (order : ServedOrder) : order.latchedCopyout = order.copyout :=
  order.latchedCopyout_eq_iff.mpr fun misread => by
    cases misread.2.symm.trans order.callback_eq

/-- How a byte is obtained. -/
def obtain (order : ServedOrder) (moved : Nat) (value : Byte) : Event :=
  if order.copyout then .transferRead (order.remaining moved).addrLo value
  else .provide order.function order.context (BitVec.ofNat 16 moved) true value

/-- How a byte is handed on. -/
def handOn (order : ServedOrder) (moved : Nat) (value : Byte) : Event :=
  if order.copyout then
    .consume order.function order.context (BitVec.ofNat 16 moved) value true
  else .transferWrite (order.remaining moved).addrLo value

/-- The events that move bytes one after another, each obtained and then handed on, from a place
in the range on. -/
def moves (order : ServedOrder) : Nat → List Byte → List Event
  | _, [] => []
  | moved, value :: rest =>
      [order.obtain moved value, order.handOn moved value] ++ order.moves (moved + 1) rest

/-- The number of bytes after which the advanced start of the range has reached its end. -/
def count (order : ServedOrder) : Nat :=
  if order.range.addrLo = 0xFFFF then 0x10000
  else if order.range.addrLo < order.range.getEnd then
    order.range.getEnd.toNat - order.range.addrLo.toNat
  else 1

theorem moves_length (order : ServedOrder) (moved : Nat) (values : List Byte) :
    (order.moves moved values).length = 2 * values.length := by
  induction values generalizing moved with
  | nil => rfl
  | cons value rest ih =>
      rw [moves, List.length_append, ih]
      simp only [List.length_cons, List.length_nil]
      omega

theorem moves_isTransfer (order : ServedOrder) (moved : Nat) (values : List Byte) :
    ∀ event ∈ order.moves moved values, event.IsTransfer := by
  induction values generalizing moved with
  | nil => simp [moves]
  | cons value rest ih =>
      intro event event_mem
      rcases List.mem_append.mp event_mem with here | later
      · obtain rfl | rfl : event = order.obtain moved value ∨ event = order.handOn moved value := by
          simpa using here
        · unfold ServedOrder.obtain
          split <;> trivial
        · unfold handOn
          split <;> trivial
      · exact ih (moved + 1) event later

/-! ## How many bytes -/

theorem count_pos (order : ServedOrder) : 0 < order.count := by
  unfold count
  split
  · omega
  · split
    · bv_omega
    · omega

theorem remaining_lt_of_lt_count (order : ServedOrder) {moved : Nat} (pos : 0 < moved)
    (lt : moved < order.count) : (order.remaining moved).addrLo < order.range.getEnd := by
  have end_eq := MemoryAddrRange.toNat_getEnd order.range
  rw [BitVec.lt_def, TransferOrder.toNat_remaining]
  unfold count at lt
  split at lt
  · rename_i last
    have start_eq : order.range.addrLo.toNat = 0xFFFF := congrArg BitVec.toNat last
    omega
  · split at lt
    · have := order.range.getEnd.isLt
      omega
    · omega

theorem getEnd_le_remaining_count (order : ServedOrder) :
    order.range.getEnd ≤ (order.remaining order.count).addrLo := by
  have end_eq := MemoryAddrRange.toNat_getEnd order.range
  have start_lt := order.range.addrLo.isLt
  rw [BitVec.le_def, TransferOrder.toNat_remaining]
  unfold count
  split
  · rename_i last
    have start_eq : order.range.addrLo.toNat = 0xFFFF := congrArg BitVec.toNat last
    omega
  · rename_i notLast
    have start_ne : order.range.addrLo.toNat ≠ 0xFFFF := fun same =>
      notLast (BitVec.eq_of_toNat_eq same)
    split
    · rename_i below
      rw [BitVec.lt_def] at below
      omega
    · rename_i above
      rw [BitVec.lt_def] at above
      omega

/-- The transfer moves the bytes of its range exactly when the range is not empty and does not
reach the last address. -/
theorem count_eq_iff (order : ServedOrder) :
    order.count = order.range.addrLen.toNat ↔
      0 < order.range.addrLen.toNat ∧
        order.range.addrLo.toNat + order.range.addrLen.toNat < 0x10000 := by
  have end_eq := MemoryAddrRange.toNat_getEnd order.range
  have start_lt := order.range.addrLo.isLt
  have length_lt := order.range.addrLen.isLt
  unfold count
  split
  · rename_i last
    have start_eq : order.range.addrLo.toNat = 0xFFFF := congrArg BitVec.toNat last
    omega
  · rename_i notLast
    have start_ne : order.range.addrLo.toNat ≠ 0xFFFF := fun same =>
      notLast (BitVec.eq_of_toNat_eq same)
    split
    · rename_i below
      rw [BitVec.lt_def] at below
      omega
    · rename_i above
      rw [BitVec.lt_def] at above
      omega

end ServedOrder

/-! ## The phases of a transfer -/

namespace Run

/-- Inside the loop of a started transfer. -/
structure AtWork (order : ServedOrder) (moved : Nat) (run : Run μ) : Prop where
  /-- The order is carried out. -/
  carried : order.Carried moved run.transfer
  /-- The transfer is under way. -/
  active : run.loop.isInDMA = true
  /-- The transfer has started. -/
  started : run.loop.isDMAStarted = true
  /-- The loop rests at the top of its inner loop. -/
  here : run.location = .cycle
  /-- The stage is that of a transfer. -/
  stage : run.loop.nextStage = .execDMA

/-- About to obtain a byte. -/
structure Reading (order : ServedOrder) (moved : Nat) (run : Run μ) : Prop
    extends run.AtWork order moved where
  /-- The cycle is even. -/
  even : run.loop.totalCycles % 2 = 0
  /-- The byte index counts the bytes moved. -/
  index_eq : run.loop.dmaByteIndex = BitVec.ofNat 16 moved

/-- About to hand a byte on. -/
structure Writing (order : ServedOrder) (moved : Nat) (value : Byte) (run : Run μ) : Prop
    extends run.AtWork order (if order.copyout then moved + 1 else moved) where
  /-- The cycle is odd. -/
  odd : run.loop.totalCycles % 2 = 1
  /-- The byte index is advanced when a callback is called. -/
  index_eq : run.loop.dmaByteIndex =
    BitVec.ofNat 16 (if order.copyout then moved else moved + 1)
  /-- The byte that was obtained. -/
  nextByte_eq : run.loop.dmaNextByte = value

theorem afterCycle_of_stage {run : Run μ} (here : run.location = .cycle)
    (stage : run.loop.nextStage = .execDMA) : run.afterCycle .staged = run := by
  unfold afterCycle
  rw [if_neg (by rw [here]; exact Location.noConfusion)]
  simp only [stage, reduceCtorEq, if_false, goto, ← here]

/-- The end of the range decides whether a byte was the last one. -/
theorem AtWork.endDMAAtRangeEnd {order : ServedOrder} {moved : Nat} {run : Run μ}
    (work : run.AtWork order moved) (odd : run.loop.totalCycles % 2 = 1)
    (index_eq : run.loop.dmaByteIndex = BitVec.ofNat 16 moved) :
    (order.range.getEnd ≤ (order.remaining moved).addrLo →
        run.endDMAAtRangeEnd.tick.loop.isInDMA = false) ∧
      (¬ order.range.getEnd ≤ (order.remaining moved).addrLo →
        run.endDMAAtRangeEnd.tick.Reading order moved) := by
  have carried := work.carried
  have addrLo_eq : run.executor.dmaRange.addrLo = (order.remaining moved).addrLo :=
    congrArg MemoryAddrRange.addrLo carried.range_eq
  have addrHi_eq : run.loop.dmaAddrHi = order.range.getEnd := (carried.latched work.active).2
  unfold Run.endDMAAtRangeEnd
  rw [addrLo_eq, addrHi_eq]
  refine ⟨fun reached => ?_, fun further => ?_⟩
  · rw [if_pos reached]
    rfl
  · rw [if_neg further]
    refine ⟨⟨?_, work.active, work.started, work.here, work.stage⟩, ?_, index_eq⟩
    · exact carried_of_kept carried work.active rfl
    · change (run.loop.totalCycles + 1) % 2 = 0
      omega

variable [Membus μ]

theorem Reading.dmaCycle {order : ServedOrder} {moved : Nat} {run : Run μ}
    (reading : run.Reading order moved) {input : Input} (accepting : input.Accepting) :
    ∃ value, (run.dmaCycle input).2 = [order.obtain moved value] ∧
      (run.dmaCycle input).1.Writing order moved value := by
  have range_eq : run.executor.dmaRange = order.remaining moved := reading.carried.range_eq
  have provider_eq : run.executor.dmaProvider = _ := reading.carried.provider_eq
  have direction_eq : run.loop.isDMACopyout = order.copyout :=
    (reading.carried.latched reading.active).1.trans order.latchedCopyout_eq
  have read_eq : run.dmaCycle input = run.dmaRead input := by
    rw [Run.dmaCycle, if_pos reading.started, if_neg (by rw [reading.even]; decide)]
  have odd_next : (run.loop.totalCycles + 1) % 2 = 1 := by
    rw [Nat.add_mod, reading.even]
  rw [read_eq]
  cases direction : order.copyout with
  | true =>
      rw [dmaRead_of_copyout input (direction_eq.trans direction)]
      refine ⟨_, ?_, ⟨?_, reading.active, reading.started, reading.here, reading.stage⟩, odd_next,
        ?_, rfl⟩
      · rw [ServedOrder.obtain, if_pos direction, range_eq]
        rfl
      · rw [if_pos direction]
        exact carried_of_advanced reading.carried reading.active rfl
      · rw [if_pos direction]
        exact reading.index_eq
  | false =>
      rw [direction, if_neg Bool.false_ne_true, order.callback_eq] at provider_eq
      rw [dmaRead_of_copyin input (direction_eq.trans direction) provider_eq, accepting.1,
        if_pos rfl]
      have carried := reading.carried
      refine ⟨_, ?_, ⟨?_, reading.active, reading.started, reading.here, reading.stage⟩, odd_next,
        ?_, rfl⟩
      · rw [ServedOrder.obtain, direction, if_neg Bool.false_ne_true, ← reading.index_eq,
          ← carried.context_eq]
        rfl
      · rw [direction, if_neg Bool.false_ne_true]
        exact carried_of_kept carried reading.active rfl
      · rw [direction, if_neg Bool.false_ne_true, BitVec.ofNat_add, ← reading.index_eq]
        rfl

theorem Writing.dmaCycle {order : ServedOrder} {moved : Nat} {value : Byte} {run : Run μ}
    (writing : run.Writing order moved value) {input : Input} (accepting : input.Accepting) :
    (run.dmaCycle input).2 = [order.handOn moved value] ∧
      (order.range.getEnd ≤ (order.remaining (moved + 1)).addrLo →
        (run.dmaCycle input).1.loop.isInDMA = false) ∧
      (¬ order.range.getEnd ≤ (order.remaining (moved + 1)).addrLo →
        (run.dmaCycle input).1.Reading order (moved + 1)) := by
  have range_eq : run.executor.dmaRange = _ := writing.carried.range_eq
  have consumer_eq : run.executor.dmaConsumer = _ := writing.carried.consumer_eq
  have direction_eq : run.loop.isDMACopyout = order.copyout :=
    (writing.carried.latched writing.active).1.trans order.latchedCopyout_eq
  have work := writing.toAtWork
  have index_eq := writing.index_eq
  have write_eq : run.dmaCycle input = run.dmaWrite input := by
    rw [Run.dmaCycle, if_pos writing.started, if_pos writing.odd]
  rw [write_eq]
  cases direction : order.copyout with
  | true =>
      rw [direction, if_pos rfl] at consumer_eq work index_eq
      rw [order.callback_eq] at consumer_eq
      rw [dmaWrite_of_copyout input (direction_eq.trans direction) consumer_eq, accepting.2,
        if_pos rfl]
      have handed : run.advanceIndex.AtWork order (moved + 1) :=
        ⟨carried_of_kept work.carried work.active rfl, work.active, work.started, work.here,
          work.stage⟩
      have next_eq : run.advanceIndex.loop.dmaByteIndex = BitVec.ofNat 16 (moved + 1) := by
        rw [BitVec.ofNat_add, ← index_eq]
        rfl
      refine ⟨?_, handed.endDMAAtRangeEnd writing.odd next_eq⟩
      rw [ServedOrder.handOn, if_pos direction, ← index_eq, ← writing.nextByte_eq,
        ← work.carried.context_eq]
      rfl
  | false =>
      rw [direction, if_neg Bool.false_ne_true] at range_eq work index_eq
      rw [dmaWrite_of_copyin input (direction_eq.trans direction)]
      have handed : run.writeNextByte.advanceRange.AtWork order (moved + 1) :=
        ⟨carried_of_advanced work.carried work.active rfl, work.active, work.started, work.here,
          work.stage⟩
      refine ⟨?_, handed.endDMAAtRangeEnd writing.odd index_eq⟩
      rw [ServedOrder.handOn, direction, if_neg Bool.false_ne_true, ← writing.nextByte_eq,
        range_eq]

/-! ## Steps and runs of a transfer -/

theorem step_of_active {run : Run μ} (here : run.location = .cycle)
    (active : run.loop.isInDMA = true) (input : Input) :
    run.step .staged input =
      ((run.dmaCycle input).1.afterCycle .staged, (run.dmaCycle input).2) := by
  unfold step
  rw [here]
  exact cycleStep_of_active .staged input active

theorem Reading.step {order : ServedOrder} {moved : Nat} {run : Run μ}
    (reading : run.Reading order moved) {input : Input} (accepting : input.Accepting) :
    ∃ value, (run.step .staged input).2 = [order.obtain moved value] ∧
      (run.step .staged input).1.Writing order moved value := by
  obtain ⟨value, events_eq, writing⟩ := reading.dmaCycle accepting
  rw [step_of_active reading.here reading.active, afterCycle_of_stage writing.here writing.stage]
  exact ⟨value, events_eq, writing⟩

theorem Writing.step {order : ServedOrder} {moved : Nat} {value : Byte} {run : Run μ}
    (writing : run.Writing order moved value) {input : Input} (accepting : input.Accepting) :
    (run.step .staged input).2 = [order.handOn moved value] ∧
      (order.range.getEnd ≤ (order.remaining (moved + 1)).addrLo →
        (run.step .staged input).1.loop.isInDMA = false) ∧
      (¬ order.range.getEnd ≤ (order.remaining (moved + 1)).addrLo →
        (run.step .staged input).1.Reading order (moved + 1)) := by
  obtain ⟨events_eq, ends, continues⟩ := writing.dmaCycle accepting
  rw [step_of_active writing.here writing.active]
  refine ⟨events_eq, fun reached => ?_, fun further => ?_⟩
  · exact (congrArg Transfer.active (afterCycle_transfer .staged _)).trans (ends reached)
  · have reading := continues further
    rw [afterCycle_of_stage reading.here reading.stage]
    exact reading

/-- No transfer is under way. -/
def Idle (run : Run μ) : Prop := run.loop.isInDMA = false

/-- From a byte in hand on, a transfer moves the given number of bytes if the end of the range is
reached after them and not before. -/
theorem Writing.arrives {order : ServedOrder} {count moved : Nat} {value : Byte} {run : Run μ}
    (writing : run.Writing order moved value) (inputs : List Input)
    (length_eq : inputs.length = 2 * count + 1) (accepting : ∀ input ∈ inputs, input.Accepting)
    (before : ∀ place, moved < place → place < moved + count + 1 →
      ¬ order.range.getEnd ≤ (order.remaining place).addrLo)
    (reached : order.range.getEnd ≤ (order.remaining (moved + count + 1)).addrLo) :
    ∃ final values, values.length = count ∧
      (loopMachine μ .staged).Arrives Idle run inputs final ∧
      (loopMachine μ .staged).trace run inputs =
        order.handOn moved value :: order.moves (moved + 1) values := by
  have busy : ¬ run.Idle := fun idle => Bool.noConfusion (writing.active.symm.trans idle)
  induction count generalizing run moved value inputs with
  | zero =>
      obtain ⟨input, rfl⟩ := List.length_eq_one_iff.mp length_eq
      obtain ⟨events_eq, ends, -⟩ := writing.step (accepting input List.mem_cons_self)
      refine ⟨(run.step .staged input).1, [], rfl, (Machine.arrives_cons _).mpr ⟨busy, ?_⟩, ?_⟩
      · exact (Machine.arrives_nil _).mpr ⟨rfl, ends reached⟩
      · simp only [Machine.trace, loopMachine, events_eq, ServedOrder.moves, List.append_nil]
  | succ count ih =>
      obtain ⟨first, rest, rfl⟩ := List.exists_cons_of_length_eq_add_one length_eq
      obtain ⟨second, rest, rfl⟩ : ∃ second later, rest = second :: later :=
        List.exists_cons_of_length_eq_add_one (by
          simpa only [List.length_cons, Nat.add_right_cancel_iff, Nat.mul_add] using length_eq)
      rw [List.forall_mem_cons, List.forall_mem_cons] at accepting
      obtain ⟨handEvents, -, continues⟩ := writing.step accepting.1
      have reading := continues (before (moved + 1) (by omega) (by omega))
      obtain ⟨next, obtainEvents, writingNext⟩ := reading.step accepting.2.1
      have busyReading : ¬ (run.step .staged first).1.Idle := fun idle =>
        Bool.noConfusion (reading.active.symm.trans idle)
      have busyWriting : ¬ ((run.step .staged first).1.step .staged second).1.Idle := fun idle =>
        Bool.noConfusion (writingNext.active.symm.trans idle)
      obtain ⟨final, values, values_length, arrives, trace_eq⟩ :=
        ih writingNext rest (by simp only [List.length_cons] at length_eq; omega) accepting.2.2
          (fun place above below => before place (by omega) (by omega))
          (by rwa [Nat.add_right_comm moved 1 count, Nat.add_assoc moved count 1]) busyWriting
      refine ⟨final, next :: values, by rw [List.length_cons, values_length], ?_, ?_⟩
      · exact (Machine.arrives_cons _).mpr
          ⟨busy, (Machine.arrives_cons _).mpr ⟨busyReading, arrives⟩⟩
      · change (run.step .staged first).2 ++ (((run.step .staged first).1.step .staged second).2 ++
          (loopMachine μ .staged).trace ((run.step .staged first).1.step .staged second).1 rest) = _
        rw [handEvents, obtainEvents, trace_eq]
        rfl

/-! ## From the notice of a request on -/

omit [Membus μ] in
theorem atWork_beginDMA {order : ServedOrder} {run : Run μ} (here : run.location = .cycle)
    (carried : order.Carried 0 run.transfer) (even : run.loop.totalCycles % 2 = 0) :
    run.beginDMA.Reading order 0 := by
  refine ⟨⟨carried_beginDMA carried, rfl, ?_, here, rfl⟩, even, rfl⟩
  change (run.loop.totalCycles % 2 == 0) = true
  rw [even]
  rfl

/-- In an even cycle the step that notices a request obtains the first byte. -/
theorem notice_even {order : ServedOrder} {run : Run μ} {input : Input}
    (here : run.location = .cycle) (idle : run.Idle)
    (carried : order.Carried 0 (run.admitRequests input).transfer) (accepting : input.Accepting)
    (even : run.loop.totalCycles % 2 = 0) :
    ∃ value, (run.step .staged input).2 = [.unlock, .lock, order.obtain 0 value] ∧
      (run.step .staged input).1.Writing order 0 value := by
  have step_eq : run.step .staged input = run.cycleStep .staged input := by
    simp only [step, here]
  have reading : (run.admitRequests input).beginDMA.Reading order 0 :=
    atWork_beginDMA here carried even
  obtain ⟨value, events_eq, writing⟩ := reading.dmaCycle accepting
  rw [step_eq, cycleStep_of_requested .staged input idle carried.requested, events_eq,
    afterCycle_of_stage writing.here writing.stage]
  exact ⟨value, rfl, writing⟩

/-- In an odd cycle it waits for the next one. -/
theorem notice_odd {order : ServedOrder} {run : Run μ} {input : Input}
    (here : run.location = .cycle) (idle : run.Idle)
    (carried : order.Carried 0 (run.admitRequests input).transfer)
    (odd : run.loop.totalCycles % 2 = 1) :
    (run.step .staged input).2 = [.unlock, .lock] ∧
      (run.step .staged input).1.Reading order 0 := by
  have step_eq : run.step .staged input = run.cycleStep .staged input := by
    simp only [step, here]
  let begun := (run.admitRequests input).beginDMA
  let waited := begun.tick.onLoop fun loop =>
    { loop with isDMAStarted := loop.totalCycles % 2 == 0 }
  have waiting : begun.loop.isDMAStarted = false := by
    change (run.loop.totalCycles % 2 == 0) = false
    rw [odd]
    rfl
  have wait_eq : begun.dmaCycle input = (waited, []) := by
    rw [Run.dmaCycle, waiting, if_neg Bool.false_ne_true]
  have reading : waited.Reading order 0 := by
    have even : (run.loop.totalCycles + 1) % 2 = 0 := by omega
    have begunCarried := carried_beginDMA carried
    refine ⟨⟨?_, rfl, ?_, here, rfl⟩, even, rfl⟩
    · exact carried_of_kept begunCarried rfl rfl
    · change ((run.loop.totalCycles + 1) % 2 == 0) = true
      rw [even]
      rfl
  rw [step_eq, cycleStep_of_requested .staged input idle carried.requested, wait_eq,
    afterCycle_of_stage reading.here reading.stage]
  exact ⟨rfl, reading⟩

theorem Writing.arrives_count {order : ServedOrder} {value : Byte} {run : Run μ}
    (writing : run.Writing order 0 value) (inputs : List Input)
    (length_eq : inputs.length = 2 * (order.count - 1) + 1)
    (accepting : ∀ input ∈ inputs, input.Accepting) :
    ∃ final values, values.length = order.count ∧
      (loopMachine μ .staged).Arrives Idle run inputs final ∧
      order.obtain 0 value :: (loopMachine μ .staged).trace run inputs = order.moves 0 values := by
  have pos := order.count_pos
  obtain ⟨final, values, values_length, arrives, trace_eq⟩ :=
    writing.arrives inputs length_eq accepting
      (fun place above below => by
        rw [BitVec.not_le]
        exact order.remaining_lt_of_lt_count above (by omega))
      (by
        rw [Nat.zero_add, Nat.sub_add_cancel pos]
        exact order.getEnd_le_remaining_count)
  refine ⟨final, value :: values, ?_, arrives, ?_⟩
  · rw [List.length_cons, values_length, Nat.sub_add_cancel pos]
  · rw [trace_eq]
    rfl

end Run

namespace ServedOrder

variable [Membus μ]

/-- After a step that notices its request a transfer ends, having moved a number of bytes one
after another. -/
def Moves (order : ServedOrder) (bytes : Nat) (run : Run μ) (first : Input) : Prop :=
  ∃ steps, ∀ inputs : List Input, inputs.length = steps →
    (∀ input ∈ inputs, input.Accepting) →
      ∃ final values, values.length = bytes ∧
        (loopMachine μ .staged).Arrives Run.Idle (run.step .staged first).1 inputs final ∧
        ((loopMachine μ .staged).trace run (first :: inputs)).filter Event.IsTransfer =
          order.moves 0 values

theorem moves_count {order : ServedOrder} {run : Run μ} {first : Input}
    (here : run.location = .cycle) (idle : run.Idle)
    (carried : order.Carried 0 (run.admitRequests first).transfer) (accepting : first.Accepting) :
    order.Moves order.count run first := by
  have kept : ∀ values, (order.moves 0 values).filter Event.IsTransfer = order.moves 0 values := by
    intro values
    rw [List.filter_eq_self]
    intro event event_mem
    exact decide_eq_true (order.moves_isTransfer 0 values event event_mem)
  rcases Nat.mod_two_eq_zero_or_one run.loop.totalCycles with even | odd
  · obtain ⟨value, events_eq, writing⟩ := Run.notice_even here idle carried accepting even
    refine ⟨2 * (order.count - 1) + 1, fun inputs length_eq acceptingAll => ?_⟩
    obtain ⟨final, values, values_length, arrives, trace_eq⟩ :=
      writing.arrives_count inputs length_eq acceptingAll
    refine ⟨final, values, values_length, arrives, ?_⟩
    rw [← kept, ← trace_eq]
    change ((run.step .staged first).2 ++ _).filter Event.IsTransfer = _
    rw [events_eq]
    rfl
  · obtain ⟨events_eq, reading⟩ := Run.notice_odd here idle carried odd
    refine ⟨2 * (order.count - 1) + 2, fun inputs length_eq acceptingAll => ?_⟩
    obtain ⟨second, rest, rfl⟩ := List.exists_cons_of_length_eq_add_one length_eq
    rw [List.forall_mem_cons] at acceptingAll
    obtain ⟨value, obtainEvents, writing⟩ := reading.step acceptingAll.1
    obtain ⟨final, values, values_length, arrives, trace_eq⟩ :=
      writing.arrives_count rest (by simpa only [List.length_cons, Nat.add_right_cancel_iff]
        using length_eq) acceptingAll.2
    refine ⟨final, values, values_length, (Machine.arrives_cons _).mpr ⟨?_, arrives⟩, ?_⟩
    · exact fun quiet => Bool.noConfusion (reading.active.symm.trans quiet)
    · rw [← kept, ← trace_eq]
      change ((run.step .staged first).2 ++
        (((run.step .staged first).1.step .staged second).2 ++ _)).filter Event.IsTransfer = _
      rw [events_eq, obtainEvents]
      rfl

/-- A transfer moves one number of bytes only. -/
theorem Moves.unique {order : ServedOrder} {bytes other : Nat} {run : Run μ} {first : Input}
    (moves : order.Moves bytes run first) (otherMoves : order.Moves other run first) :
    bytes = other := by
  obtain ⟨steps, arrives⟩ := moves
  obtain ⟨otherSteps, otherArrives⟩ := otherMoves
  let input : Input := { Input.quiet .nextCycle Locals.zero with
    provided := (true, 0), consumed := true }
  have accepting : ∀ count, ∀ given ∈ List.replicate count input, given.Accepting := by
    intro count given given_mem
    rw [List.eq_of_mem_replicate given_mem]
    exact ⟨rfl, rfl⟩
  obtain ⟨final, values, rfl, arrived, trace_eq⟩ :=
    arrives (List.replicate steps input) List.length_replicate (accepting steps)
  obtain ⟨otherFinal, otherValues, rfl, otherArrived, otherTrace_eq⟩ :=
    otherArrives (List.replicate otherSteps input) List.length_replicate (accepting otherSteps)
  have steps_eq : steps = otherSteps := by
    rcases Nat.le_total steps otherSteps with le | le
    · obtain ⟨more, rfl⟩ := Nat.exists_eq_add_of_le le
      rw [List.replicate_add] at otherArrived
      have none := Machine.Arrives.eq_nil_of_append _ arrived otherArrived
      simpa using none
    · obtain ⟨more, rfl⟩ := Nat.exists_eq_add_of_le le
      rw [List.replicate_add] at arrived
      have none := Machine.Arrives.eq_nil_of_append _ otherArrived arrived
      simpa using none
  rw [← steps_eq, trace_eq] at otherTrace_eq
  have lengths := congrArg List.length otherTrace_eq
  rw [moves_length, moves_length] at lengths
  omega

/-- Whatever the parity and the instruction cycle at which it is noticed, a staged transfer whose
callbacks never return false moves exactly the bytes of its range, in order and unaltered, if and
only if the range is not empty and does not reach the last address. -/
theorem moves_addrLen_iff {order : ServedOrder} {run : Run μ} {first : Input}
    (here : run.location = .cycle) (idle : run.Idle)
    (carried : order.Carried 0 (run.admitRequests first).transfer) (accepting : first.Accepting) :
    order.Moves order.range.addrLen.toNat run first ↔
      0 < order.range.addrLen.toNat ∧
        order.range.addrLo.toNat + order.range.addrLen.toNat < 0x10000 := by
  have counted := moves_count here idle carried accepting
  rw [← order.count_eq_iff]
  constructor
  · intro moves
    exact counted.unique moves
  · intro count_eq
    rwa [← count_eq]

/-- A copy-in of a range. -/
def copyinOf (addrLo addrLen : Word) : ServedOrder where
  copyout := false
  range := { addrLo, addrLen }
  callback := some 1
  context := 0
  function := 1
  callback_eq := rfl

theorem carried_asking (addrLo addrLen : Word) :
    (copyinOf addrLo addrLen).Carried 0
      (releasing.admitRequests (copyinOf addrLo addrLen).asking).transfer :=
  ⟨rfl, (copyinOf addrLo addrLen).remaining_zero.symm, rfl, rfl, rfl, fun _ => rfl,
    fun active => absurd active Bool.false_ne_true⟩

/-- Two bytes from `$3000` on. -/
theorem moves_3000 :
    (copyinOf 0x3000 0x0002).Moves 2 releasing (copyinOf 0x3000 0x0002).asking := by
  have here : releasing.location = .cycle := rfl
  have idle : releasing.Idle := rfl
  have carried := carried_asking 0x3000 0x0002
  exact (moves_addrLen_iff here idle carried ⟨rfl, rfl⟩).mpr ⟨by decide, by decide⟩

/-- Of the sixteen bytes up to the end of memory only fifteen are moved. -/
theorem not_moves_FFF0 :
    ¬ (copyinOf 0xFFF0 0x0010).Moves 16 releasing (copyinOf 0xFFF0 0x0010).asking := by
  intro moves
  have count_eq := moves.unique (moves_count rfl rfl (carried_asking 0xFFF0 0x0010) ⟨rfl, rfl⟩)
  revert count_eq
  decide

end ServedOrder
end System6502
