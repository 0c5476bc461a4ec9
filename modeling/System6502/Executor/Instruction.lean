import System6502.Executor.Dispatch
import System6502.Isa.Cycles

/-!
# One instruction in both modes

What an instruction that no DMA transfer disturbs does between its fetch and the next boundary,
and when the staged loop and the static loop do the same.
-/

namespace System6502

open Lib System6502.Frame

variable {μ : Type*}

/-- The bus and the registers of an executor. -/
def Executor.core (executor : Executor μ) : Core μ :=
  { memory := executor.memory, registers := executor.registers }

namespace Run

/-- No DMA transfer is requested or under way. -/
structure Undisturbed (run : Run μ) : Prop where
  /-- No transfer is requested. -/
  noRequest : run.executor.flags.dma = false
  /-- No transfer is under way. -/
  noTransfer : run.loop.isInDMA = false

/-- At the top of the inner loop with a decoded instruction. -/
structure Inside (dispatch : Dispatch) (run : Run μ) : Prop extends run.Undisturbed where
  /-- At the top of the inner loop. -/
  location_eq : run.location = .cycle
  /-- The decoded record. -/
  dispatch_eq : run.loop.dispatch = dispatch

/-- The frame of the next staged call of a routine. -/
def retained (routine : Routine) (run : Run μ) : Frame μ :=
  run.executor.frame (run.executor.statics routine)

variable [Membus μ]

/-! ## Single steps -/

/-- The frame after the opcode fetch. -/
def fetched (run : Run μ) (locals : Locals) : Frame μ := run.executor.core.fetched locals

theorem step_fetch (execMode : ExecMode) (input : Input) {run : Run μ} {dispatch : Dispatch}
    (fetching : run.Fetching) (undisturbed : run.Undisturbed)
    (decoded : run.executor.dialect.lookup run.nextOpcode = dispatch)
    (defined : dispatch.addressingMode ≠ .undefined) :
    (run.step execMode input).1.Inside dispatch ∧
      (run.step execMode input).1.loop.cycleCount = 1 ∧
      (run.step execMode input).1.loop.totalCycles = run.loop.totalCycles + 1 ∧
      (run.step execMode input).1.executor.statics = run.executor.statics ∧
      ∀ locals, (run.step execMode input).1.executor.frame locals = run.fetched locals := by
  have step_eq : run.step execMode input = run.fetchStep input := by
    simp only [step, fetching.1]
  have defined' : (run.executor.dialect.lookup run.nextOpcode).addressingMode ≠ .undefined := by
    rw [decoded]
    exact defined
  unfold nextOpcode at decoded defined'
  rw [step_eq]
  unfold fetchStep
  dsimp only
  rw [if_pos fetching.2, if_neg defined']
  exact ⟨⟨⟨undisturbed.noRequest, undisturbed.noTransfer⟩, rfl, decoded⟩, rfl, rfl, rfl,
    fun _ => rfl⟩

theorem step_staged_inside {routine : Routine} {mode : AddressingMode} {run : Run μ}
    (input : Input) (inside : run.Inside (Dispatch.slot routine mode))
    (quiet : input.requests = []) :
    (run.step .staged input).1.retained routine =
        (routine.staged mode run.loop.cycleCount (run.retained routine)).1 ∧
      (run.step .staged input).1.loop.cycleCount = run.loop.cycleCount + 1 ∧
      (run.step .staged input).1.loop.totalCycles = run.loop.totalCycles + 1 ∧
      (run.step .staged input).1.Undisturbed ∧
      (run.step .staged input).1.loop.dispatch = Dispatch.slot routine mode ∧
      (run.step .staged input).1.location =
        if (routine.staged mode run.loop.cycleCount (run.retained routine)).2 = .instrEnd then
          .boundary
        else .cycle := by
  obtain ⟨⟨noRequest, noTransfer⟩, location_eq, dispatch_eq⟩ := inside
  simp only [step, location_eq, cycleStep, noTransfer, dispatchCycle, onExecutor, quiet,
    Executor.requests, List.foldl_nil, noRequest, stagedCall, dispatch_eq, Dispatch.slot,
    afterCycle, Bool.false_eq_true, if_false, reduceCtorEq]
  split <;> rename_i ended
  · refine ⟨?_, rfl, rfl, ⟨noRequest, rfl⟩, rfl, (if_pos ended).symm⟩
    simp [retained, Executor.frame, Executor.absorbRoutine, Executor.absorb, goto]
  · refine ⟨?_, rfl, rfl, ⟨noRequest, rfl⟩, rfl, (if_neg ended).symm⟩
    simp [retained, Executor.frame, Executor.absorbRoutine, Executor.absorb, goto]

theorem step_static_inside {routine : Routine} {mode : AddressingMode} {run : Run μ}
    (input : Input) (inside : run.Inside (Dispatch.slot routine mode))
    (quiet : input.requests = []) :
    (run.step .static input).1.executor.memory =
        (routine.static mode (run.executor.frame input.locals)).1.memory ∧
      (run.step .static input).1.executor.registers =
        (routine.static mode (run.executor.frame input.locals)).1.registers ∧
      (run.step .static input).1.loop.totalCycles = run.loop.totalCycles +
        (run.loop.cycleCount + (routine.static mode (run.executor.frame input.locals)).2) ∧
      (run.step .static input).1.location = .boundary := by
  obtain ⟨⟨noRequest, noTransfer⟩, location_eq, dispatch_eq⟩ := inside
  simp only [step, location_eq, cycleStep, noTransfer, dispatchCycle, onExecutor, quiet,
    Executor.requests, List.foldl_nil, noRequest, staticCall, dispatch_eq, Dispatch.slot,
    afterCycle, Bool.false_eq_true, if_false, reduceCtorEq]
  exact ⟨rfl, rfl, rfl, rfl⟩

/-! ## Runs to the boundary -/

/-- Without requests from other threads a run goes from one resting point to the next
boundary. -/
def Executes (execMode : ExecMode) (start final : Run μ) : Prop :=
  ∃ inputs : List Input, (∀ input ∈ inputs, input.requests = []) ∧
    (loopMachine μ execMode).Arrives (fun run => run.location = .boundary) start inputs final

/-- The staged loop calls its function until the instruction ends. -/
theorem runCalls_of_arrives {routine : Routine} {mode : AddressingMode} {run final : Run μ}
    {inputs : List Input} (inside : run.Inside (Dispatch.slot routine mode))
    (quiet : ∀ input ∈ inputs, input.requests = [])
    (arrives : (loopMachine μ .staged).Arrives (fun run => run.location = .boundary) run inputs
      final) :
    ∃ calls, runCalls (routine.staged mode) inputs.length run.loop.cycleCount
        (run.retained routine) = some (calls, final.retained routine) ∧
      final.loop.totalCycles + run.loop.cycleCount = run.loop.totalCycles + calls + 1 := by
  induction inputs generalizing run with
  | nil =>
      obtain ⟨rfl, here⟩ := (Machine.arrives_nil _).mp arrives
      rw [inside.location_eq] at here
      cases here
  | cons first rest ih =>
      obtain ⟨frame_eq, cycle_eq, total_eq, undisturbed, dispatch_eq, location_eq⟩ :=
        step_staged_inside first inside (quiet first List.mem_cons_self)
      have further := ((Machine.arrives_cons _).mp arrives).2
      by_cases ended :
          (routine.staged mode run.loop.cycleCount (run.retained routine)).2 = .instrEnd
      · rw [if_pos ended] at location_eq
        obtain ⟨rfl, rfl⟩ := Machine.Arrives.eq_of_goal _ further location_eq
        refine ⟨run.loop.cycleCount, ?_, ?_⟩
        · exact runCalls_done (Prod.ext frame_eq.symm ended)
        · have := total_eq
          change (run.step .staged first).1.loop.totalCycles + _ = _
          omega
      · rw [if_neg ended] at location_eq
        obtain ⟨calls, calls_eq, count_eq⟩ := ih ⟨undisturbed, location_eq, dispatch_eq⟩
          (fun input input_mem => quiet input (List.mem_cons_of_mem _ input_mem)) further
        refine ⟨calls, ?_, ?_⟩
        · rw [List.length_cons, runCalls]
          split
          · rename_i stage_eq
            exact absurd (congrArg Prod.snd stage_eq) ended
          · rename_i after stage _ call_eq
            have after_eq : after = (run.step .staged first).1.retained routine := by
              rw [frame_eq, call_eq]
            rw [after_eq, ← cycle_eq]
            exact calls_eq
        · change _ + (run.step .staged first).1.loop.cycleCount =
            (run.step .staged first).1.loop.totalCycles + _ + 1 at count_eq
          omega

/-- Enough quiet steps of the staged loop reach the end of a function that ends. -/
theorem exists_arrives_of_runCalls {routine : Routine} {mode : AddressingMode} {fuel : Nat}
    {run : Run μ} {outcome : Nat × Frame μ} (inside : run.Inside (Dispatch.slot routine mode))
    (ended : runCalls (routine.staged mode) fuel run.loop.cycleCount (run.retained routine) =
      some outcome) :
    ∃ final, Executes .staged run final := by
  induction fuel generalizing run with
  | zero => cases ended
  | succ fuel ih =>
      let input := Input.quiet .nextCycle Locals.zero
      obtain ⟨frame_eq, cycle_eq, -, undisturbed, dispatch_eq, location_eq⟩ :=
        step_staged_inside input inside rfl
      have away : ¬ run.location = .boundary := by
        rw [inside.location_eq]
        exact Location.noConfusion
      suffices ∃ final, Executes .staged (run.step .staged input).1 final by
        obtain ⟨final, inputs, quiet, arrives⟩ := this
        refine ⟨final, input :: inputs, ?_, (Machine.arrives_cons _).mpr ⟨away, arrives⟩⟩
        exact List.forall_mem_cons.mpr ⟨rfl, quiet⟩
      rw [runCalls] at ended
      split at ended
      · rename_i stage_eq
        rw [stage_eq] at location_eq
        exact ⟨_, [], by simp, (Machine.arrives_nil _).mpr ⟨rfl, location_eq⟩⟩
      · rename_i after stage stage_ne call_eq
        rw [call_eq] at frame_eq location_eq
        rw [if_neg stage_ne] at location_eq
        refine ih ⟨undisturbed, location_eq, dispatch_eq⟩ ?_
        rw [frame_eq, cycle_eq]
        exact ended

/-- The staged loop takes a decoded instruction to the boundary exactly when its function ends,
with one cycle for the fetch and one for each call. -/
theorem executes_staged {routine : Routine} {mode : AddressingMode} {start final : Run μ}
    (fetching : start.Fetching) (undisturbed : start.Undisturbed)
    (decoded : start.executor.dialect.lookup start.nextOpcode = Dispatch.slot routine mode)
    (defined : mode ≠ .undefined) (executes : Executes .staged start final) :
    ∃ fuel calls, runCalls (routine.staged mode) fuel 1
        (start.fetched (start.executor.statics routine)) = some (calls, final.retained routine) ∧
      final.loop.totalCycles = start.loop.totalCycles + (1 + calls) := by
  obtain ⟨inputs, quiet, arrives⟩ := executes
  cases inputs with
  | nil =>
      obtain ⟨rfl, here⟩ := (Machine.arrives_nil _).mp arrives
      rw [fetching.1] at here
      cases here
  | cons first rest =>
      obtain ⟨inside, cycle_eq, total_eq, statics_eq, frame_eq⟩ :=
        step_fetch .staged first fetching undisturbed decoded defined
      obtain ⟨calls, calls_eq, count_eq⟩ := runCalls_of_arrives inside
        (fun input input_mem => quiet input (List.mem_cons_of_mem _ input_mem))
        ((Machine.arrives_cons _).mp arrives).2
      rw [retained, frame_eq, statics_eq, cycle_eq] at calls_eq
      exact ⟨_, calls, calls_eq, by omega⟩

theorem exists_executes_staged {routine : Routine} {mode : AddressingMode} {start : Run μ}
    (fetching : start.Fetching) (undisturbed : start.Undisturbed)
    (decoded : start.executor.dialect.lookup start.nextOpcode = Dispatch.slot routine mode)
    (defined : mode ≠ .undefined) {fuel : Nat} {outcome : Nat × Frame μ}
    (ended : runCalls (routine.staged mode) fuel 1
      (start.fetched (start.executor.statics routine)) = some outcome) :
    ∃ final, Executes .staged start final := by
  let input := Input.quiet .nextCycle Locals.zero
  obtain ⟨inside, cycle_eq, -, statics_eq, frame_eq⟩ :=
    step_fetch .staged input fetching undisturbed decoded defined
  have away : ¬ start.location = .boundary := by
    rw [fetching.1]
    exact Location.noConfusion
  obtain ⟨final, inputs, quiet, arrives⟩ := exists_arrives_of_runCalls inside (by
    rw [retained, frame_eq, statics_eq, cycle_eq]
    exact ended)
  exact ⟨final, input :: inputs, List.forall_mem_cons.mpr ⟨rfl, quiet⟩,
    (Machine.arrives_cons _).mpr ⟨away, arrives⟩⟩

/-- The static loop takes a decoded instruction to the boundary in one call, from locals nobody
initialised, and counts the cycle of the fetch twice. -/
theorem executes_static {routine : Routine} {mode : AddressingMode} {start final : Run μ}
    (fetching : start.Fetching) (undisturbed : start.Undisturbed)
    (decoded : start.executor.dialect.lookup start.nextOpcode = Dispatch.slot routine mode)
    (defined : mode ≠ .undefined) (executes : Executes .static start final) :
    ∃ locals, final.executor.memory = (routine.static mode (start.fetched locals)).1.memory ∧
      final.executor.registers = (routine.static mode (start.fetched locals)).1.registers ∧
      final.loop.totalCycles =
        start.loop.totalCycles + (2 + (routine.static mode (start.fetched locals)).2) := by
  obtain ⟨inputs, quiet, arrives⟩ := executes
  cases inputs with
  | nil =>
      obtain ⟨rfl, here⟩ := (Machine.arrives_nil _).mp arrives
      rw [fetching.1] at here
      cases here
  | cons first rest =>
      obtain ⟨inside, cycle_eq, total_eq, -, frame_eq⟩ :=
        step_fetch .static first fetching undisturbed decoded defined
      have further := ((Machine.arrives_cons _).mp arrives).2
      cases rest with
      | nil =>
          obtain ⟨rfl, here⟩ := (Machine.arrives_nil _).mp further
          exact absurd (inside.location_eq.symm.trans here) Location.noConfusion
      | cons second rest =>
          obtain ⟨memory_eq, registers_eq, count_eq, location_eq⟩ :=
            step_static_inside second inside (quiet second (by simp))
          obtain ⟨-, rfl⟩ := Machine.Arrives.eq_of_goal _
            ((Machine.arrives_cons _).mp further).2 location_eq
          refine ⟨second.locals, ?_, ?_, ?_⟩
          · rw [← frame_eq]
            exact memory_eq
          · rw [← frame_eq]
            exact registers_eq
          · rw [← frame_eq]
            refine count_eq.trans ?_
            omega

theorem exists_executes_static {routine : Routine} {mode : AddressingMode} {start : Run μ}
    (fetching : start.Fetching) (undisturbed : start.Undisturbed)
    (decoded : start.executor.dialect.lookup start.nextOpcode = Dispatch.slot routine mode)
    (defined : mode ≠ .undefined) (locals : Locals) :
    ∃ final, Executes .static start final ∧
      final.executor.memory = (routine.static mode (start.fetched locals)).1.memory ∧
      final.executor.registers = (routine.static mode (start.fetched locals)).1.registers ∧
      final.loop.totalCycles =
        start.loop.totalCycles + (2 + (routine.static mode (start.fetched locals)).2) := by
  let input := Input.quiet .nextCycle locals
  obtain ⟨inside, cycle_eq, total_eq, -, frame_eq⟩ :=
    step_fetch .static input fetching undisturbed decoded defined
  obtain ⟨memory_eq, registers_eq, count_eq, location_eq⟩ :=
    step_static_inside input inside rfl
  have away : ¬ start.location = .boundary := by
    rw [fetching.1]
    exact Location.noConfusion
  have stillAway : ¬ (start.step .static input).1.location = .boundary := by
    rw [inside.location_eq]
    exact Location.noConfusion
  refine ⟨((start.step .static input).1.step .static input).1, ⟨[input, input], ?_, ?_⟩, ?_⟩
  · simp [input, Input.quiet]
  · exact (Machine.arrives_cons _).mpr ⟨away, (Machine.arrives_cons _).mpr ⟨stillAway,
      (Machine.arrives_nil _).mpr ⟨rfl, location_eq⟩⟩⟩
  · rw [← frame_eq]
    change _ = _ + (_ + (routine.static mode
      ((start.step .static input).1.executor.frame locals)).2) at count_eq
    exact ⟨memory_eq, registers_eq, count_eq.trans (by omega)⟩

/-- A record without instruction functions never takes the loop to the boundary. -/
theorem not_executes_of_null {execMode : ExecMode} {start : Run μ} (fetching : start.Fetching)
    (undisturbed : start.Undisturbed)
    (null : start.executor.dialect.lookup start.nextOpcode = Dispatch.zero) (final : Run μ) :
    ¬ Executes execMode start final := by
  rintro ⟨inputs, quiet, arrives⟩
  have stuck : ∀ (run : Run μ) rest, run.location = .nullCall →
      ¬ (loopMachine μ execMode).Arrives (fun run => run.location = .boundary) run rest final := by
    intro run rest here
    induction rest with
    | nil =>
        intro stays
        obtain ⟨rfl, there⟩ := (Machine.arrives_nil _).mp stays
        exact absurd (here.symm.trans there) Location.noConfusion
    | cons first rest ih =>
        intro stays
        have step_eq : (loopMachine μ execMode).step run first = (run, []) := by
          simp only [loopMachine, step, here]
        rw [Machine.arrives_cons, step_eq] at stays
        exact ih stays.2
  have away : ∀ run : Run μ, run.location ≠ .boundary →
      ¬ (loopMachine μ execMode).Arrives (fun run => run.location = .boundary) run [] final := by
    intro run elsewhere stays
    obtain ⟨rfl, there⟩ := (Machine.arrives_nil _).mp stays
    exact elsewhere there
  rcases inputs with _ | ⟨first, _ | ⟨second, rest⟩⟩
  · exact away start (by simp [fetching.1]) arrives
  · have inside := (step_fetch execMode first fetching undisturbed null (by decide)).1
    have elsewhere : (start.step execMode first).1.location ≠ .boundary := by
      rw [inside.location_eq]
      exact Location.noConfusion
    exact away _ elsewhere ((Machine.arrives_cons _).mp arrives).2
  · obtain ⟨⟨noRequest, noTransfer⟩, location_eq, dispatch_eq⟩ :=
      (step_fetch execMode first fetching undisturbed null (by decide)).1
    refine stuck _ rest ?_
      ((Machine.arrives_cons _).mp ((Machine.arrives_cons _).mp arrives).2).2
    change ((start.step execMode first).1.step execMode second).1.location = .nullCall
    rw [step, location_eq]
    cases execMode <;>
      simp [cycleStep, noTransfer, dispatchCycle, onExecutor, quiet second (by simp),
        Executor.requests, noRequest, stagedCall, staticCall, dispatch_eq, Dispatch.zero,
        afterCycle, goto]

/-- An instruction ends in both modes, and every staged execution and every static execution of
it end with the same registers, the same memory and the same number of cycles. -/
def Agree (start : Run μ) : Prop :=
  (∃ staged, Executes .staged start staged) ∧ (∃ static, Executes .static start static) ∧
    ∀ staged static, Executes .staged start staged → Executes .static start static →
      staged.executor.registers = static.executor.registers ∧
        staged.executor.memory = static.executor.memory ∧
        staged.loop.totalCycles = static.loop.totalCycles

/-- A staged function that ends takes a decoded instruction to the boundary with the frame and the
number of calls of its straight-line program. -/
theorem executes_straight {routine : Routine} {mode : AddressingMode} {start : Run μ}
    (fetching : start.Fetching) (undisturbed : start.Undisturbed)
    (decoded : start.executor.dialect.lookup start.nextOpcode = Dispatch.slot routine mode)
    (defined : mode ≠ .undefined) (assigned : mode ∈ routine.modes)
    (ends : mode ∉ routine.endlessModes) :
    let program := routine.straight mode (start.fetched (start.executor.statics routine))
    (∃ final, Executes .staged start final) ∧
      ∀ final, Executes .staged start final →
        final.retained routine = program.1 ∧
          final.loop.totalCycles = start.loop.totalCycles + (1 + program.2) := by
  have ended := routine.staged_performs assigned ends
    (start.fetched (start.executor.statics routine))
  refine ⟨exists_executes_staged fetching undisturbed decoded defined ended,
    fun final executes => ?_⟩
  obtain ⟨fuel, calls, calls_eq, total_eq⟩ :=
    executes_staged fetching undisturbed decoded defined executes
  obtain ⟨count_eq, frame_eq⟩ := Prod.mk.inj (runCalls_unique calls_eq ended)
  exact ⟨frame_eq, by rw [total_eq, count_eq]⟩

/-- Both modes agree on an instruction that ends exactly when the straight-line program of its
staged function and its static-mode function, from whatever its locals hold, leave the same
registers and memory, and the program takes one cycle more than the function adds. -/
theorem agree_iff_programs {routine : Routine} {mode : AddressingMode} {start : Run μ}
    (fetching : start.Fetching) (undisturbed : start.Undisturbed)
    (decoded : start.executor.dialect.lookup start.nextOpcode = Dispatch.slot routine mode)
    (defined : mode ≠ .undefined) (assigned : mode ∈ routine.modes)
    (ends : mode ∉ routine.endlessModes) :
    start.Agree ↔ ∀ locals,
      let staged := routine.straight mode (start.fetched (start.executor.statics routine))
      let static := routine.static mode (start.fetched locals)
      staged.1.registers = static.1.registers ∧ staged.1.memory = static.1.memory ∧
        staged.2 = static.2 + 1 := by
  obtain ⟨stagedEnds, outcome⟩ :=
    executes_straight fetching undisturbed decoded defined assigned ends
  constructor
  · rintro ⟨⟨staged, stagedExecutes⟩, -, agree⟩ locals
    obtain ⟨static, staticExecutes, memory_eq, registers_eq, total_eq⟩ :=
      exists_executes_static fetching undisturbed decoded defined locals
    obtain ⟨frame_eq, count_eq⟩ := outcome staged stagedExecutes
    obtain ⟨registersAgree, memoryAgree, totalsAgree⟩ :=
      agree staged static stagedExecutes staticExecutes
    refine ⟨?_, ?_, by omega⟩
    · rw [← frame_eq, ← registers_eq, ← registersAgree]
      rfl
    · rw [← frame_eq, ← memory_eq, ← memoryAgree]
      rfl
  · intro same
    refine ⟨stagedEnds, ?_, ?_⟩
    · obtain ⟨static, executes, -⟩ :=
        exists_executes_static fetching undisturbed decoded defined Locals.zero
      exact ⟨static, executes⟩
    · intro staged static stagedExecutes staticExecutes
      obtain ⟨locals, memory_eq, registers_eq, total_eq⟩ :=
        executes_static fetching undisturbed decoded defined staticExecutes
      obtain ⟨frame_eq, count_eq⟩ := outcome staged stagedExecutes
      obtain ⟨registersSame, memorySame, countSame⟩ := same locals
      refine ⟨?_, ?_, by omega⟩
      · rw [registers_eq, ← registersSame, ← frame_eq]
        rfl
      · rw [memory_eq, ← memorySame, ← frame_eq]
        rfl

/-- Both modes disagree on an instruction whose staged function takes no more calls than its
static-mode function adds cycles. -/
theorem not_agree_of_noLonger {routine : Routine} {mode : AddressingMode} {start : Run μ}
    (fetching : start.Fetching) (undisturbed : start.Undisturbed)
    (decoded : start.executor.dialect.lookup start.nextOpcode = Dispatch.slot routine mode)
    (defined : mode ≠ .undefined) (assigned : mode ∈ routine.modes)
    (ends : mode ∉ routine.endlessModes)
    (noLonger : NoLonger (μ := μ) (routine.straight mode) (routine.static mode)) :
    ¬ start.Agree := by
  rw [agree_iff_programs fetching undisturbed decoded defined assigned ends]
  intro same
  have count_eq := (same Locals.zero).2.2
  have count_le := noLonger (start.fetched Locals.zero).memory
    (start.fetched Locals.zero).registers (start.executor.statics routine) Locals.zero
  change (routine.straight mode (start.fetched (start.executor.statics routine))).2 ≤
    (routine.static mode (start.fetched Locals.zero)).2 at count_le
  omega

/-- The staged loop never ends an instruction of an endless opcode. -/
theorem not_executes_of_endless {routine : Routine} {mode : AddressingMode} {start : Run μ}
    (fetching : start.Fetching) (undisturbed : start.Undisturbed)
    (decoded : start.executor.dialect.lookup start.nextOpcode = Dispatch.slot routine mode)
    (defined : mode ≠ .undefined) (endless : mode ∈ routine.endlessModes) (final : Run μ) :
    ¬ Executes .staged start final := by
  intro executes
  obtain ⟨fuel, calls, ended, -⟩ :=
    executes_staged fetching undisturbed decoded defined executes
  rw [routine.runCalls_of_endless endless] at ended
  cases ended

/-! ## The two exceptions -/

/-- The registers after a byte was loaded into the accumulator. -/
def loadedA (registers : Registers) (value : Byte) : Registers :=
  ({ registers with A := value } : Registers).didSetA .ignore

omit [Membus μ] in
theorem loadedA_inj {registers : Registers} {value other : Byte} :
    loadedA registers value = loadedA registers other ↔ value = other := by
  refine ⟨fun loaded_eq => ?_, fun value_eq => by rw [value_eq]⟩
  have A_eq := congrArg Registers.A loaded_eq
  simpa [loadedA, Registers.didSetA, Registers.statusWithValue, Registers.setBit] using A_eq

/-- With its high byte merged unshifted, the pointer of `LDA ($zp),Y` leaves its page where the
true pointer does not, and finds there the byte the true pointer finds. -/
def SkewedReadAgrees (memory : Ram) (operand : Word) (Y : Byte) : Prop :=
  let base := memory operand
  let low := memory base.toWord
  let high := memory (base + 1).toWord
  low.toNat + Y.toNat < 256 ∧ 256 ≤ (low ||| high).toNat + Y.toNat ∧
    memory ((low ||| high).toWord + Y.toWord) = memory (Word.littleEndian low high + Y.toWord)

theorem ldaStraight_indirectYIndexed (memory : Ram) (registers : Registers) (locals : Locals) :
    let low := memory (memory registers.PC).toWord
    let high := memory (memory registers.PC + 1).toWord
    let after := completingStatic (ldaStraight .indirectYIndexed) loadA
      { memory, registers, locals }
    after.1.memory = memory ∧
      after.1.registers = loadedA { registers with PC := registers.PC + 1 }
        (memory ((low ||| high).toWord + registers.Y.toWord)) ∧
      after.2 = 4 + if (low ||| high).toNat + registers.Y.toNat < 256 then 0 else 1 := by
  intro low high after
  have same := Word.samePage_add_iff (low.toWord ||| high.toWord) registers.Y
  rw [Word.low_toWord_or] at same
  refine ⟨rfl, ?_, ?_⟩
  · rw [← Byte.toWord_or]
    exact congrArg (loadedA _) (Word.toByte_toWord _)
  · rw [← if_congr same rfl rfl]
    exact congrArg (4 + ·) (pageCycle_eq _)

theorem loadStaticAccess_indirectYIndexed (memory : Ram) (registers : Registers)
    (locals : Locals) :
    let low := memory (memory registers.PC).toWord
    let high := memory (memory registers.PC + 1).toWord
    let after := completingStatic (loadStaticAccess .indirectYIndexed) loadA
      { memory, registers, locals }
    after.1.memory = memory ∧
      after.1.registers = loadedA { registers with PC := registers.PC + 1 }
        (memory (Word.littleEndian low high + registers.Y.toWord)) ∧
      after.2 = 4 + if low.toNat + registers.Y.toNat < 256 then 0 else 1 := by
  intro low high after
  have same := Word.samePage_add_iff (Word.littleEndian low high) registers.Y
  rw [Word.low_littleEndian] at same
  refine ⟨rfl, congrArg (loadedA _) (Word.toByte_toWord _), ?_⟩
  rw [← if_congr same rfl rfl]
  exact congrArg (4 + ·) (pageCycle_eq _)

/-- `LDA ($zp),Y` agrees in both modes exactly when the misread pointer happens to do no harm. -/
theorem agree_iff_of_skewed {routine : Routine} {start : Run Ram}
    (fetching : start.Fetching) (undisturbed : start.Undisturbed)
    (decoded : start.executor.dialect.lookup start.nextOpcode =
      Dispatch.slot routine .indirectYIndexed)
    (load : routine = .LDA ∨ routine = .LDA65C02) :
    start.Agree ↔ SkewedReadAgrees start.executor.memory (start.executor.registers.PC + 1)
      start.executor.registers.Y := by
  have assigned : .indirectYIndexed ∈ routine.modes := by
    rcases load with rfl | rfl <;> decide
  have ends : .indirectYIndexed ∉ routine.endlessModes := by
    rcases load with rfl | rfl <;> decide
  rw [agree_iff_programs fetching undisturbed decoded (by decide) assigned ends]
  let after : Registers :=
    { start.executor.registers with PC := start.executor.registers.PC + 1 }
  have staged_eq := ldaStraight_indirectYIndexed start.executor.memory after
    (start.executor.statics routine)
  have static_eq := loadStaticAccess_indirectYIndexed start.executor.memory after
  have programs : ∀ locals,
      routine.straight .indirectYIndexed (start.fetched (start.executor.statics routine)) =
          completingStatic (ldaStraight .indirectYIndexed) loadA
            { memory := start.executor.memory, registers := after,
              locals := start.executor.statics routine } ∧
        routine.static .indirectYIndexed (start.fetched locals) =
          completingStatic (loadStaticAccess .indirectYIndexed) loadA
            { memory := start.executor.memory, registers := after, locals } := by
    intro locals
    rcases load with rfl | rfl <;> exact ⟨rfl, rfl⟩
  have outcome : ∀ locals,
      (let staged := routine.straight .indirectYIndexed
          (start.fetched (start.executor.statics routine))
        let static := routine.static .indirectYIndexed (start.fetched locals)
        staged.1.registers = static.1.registers ∧ staged.1.memory = static.1.memory ∧
          staged.2 = static.2 + 1) ↔
        SkewedReadAgrees start.executor.memory (start.executor.registers.PC + 1)
          start.executor.registers.Y := by
    intro locals
    rw [(programs locals).1, (programs locals).2]
    dsimp only
    rw [staged_eq.1, staged_eq.2.1, staged_eq.2.2, (static_eq locals).1, (static_eq locals).2.1,
      (static_eq locals).2.2, loadedA_inj]
    unfold SkewedReadAgrees
    dsimp only [after]
    split <;> split <;> simp_all
  exact ⟨fun same => (outcome Locals.zero).mp (same Locals.zero),
    fun harmless locals => (outcome locals).mpr harmless⟩

/-- `SED` agrees in both modes. -/
theorem agree_of_SED {start : Run μ} (fetching : start.Fetching)
    (undisturbed : start.Undisturbed)
    (decoded : start.executor.dialect.lookup start.nextOpcode = Dispatch.slot .SED .implied) :
    start.Agree :=
  (agree_iff_programs fetching undisturbed decoded (by decide) (by decide) (by decide)).mpr
    fun _ => ⟨rfl, rfl, rfl⟩

end Run

theorem Dialect.lookup_F8 (dialect : Dialect) :
    dialect.lookup 0xF8 = Dispatch.slot .SED .implied := by
  cases dialect <;> decide +kernel

theorem Dialect.lookup_B1 (dialect : Dialect) :
    ∃ routine, (routine = .LDA ∨ routine = .LDA65C02) ∧
      dialect.lookup 0xB1 = Dispatch.slot routine .indirectYIndexed := by
  cases dialect
  · exact ⟨.LDA, .inl rfl, by decide +kernel⟩
  · exact ⟨.LDA65C02, .inr rfl, by decide +kernel⟩

/-- Only `SED` and `LDA ($zp),Y` may take fewer cycles in static mode. -/
theorem Dialect.hasty_opcodes (dialect : Dialect) : ∀ opcode, opcode ≠ 0xF8 → opcode ≠ 0xB1 →
    ∀ routine ∈ (dialect.lookup opcode).staged,
      ¬ routine.Hasty (dialect.lookup opcode).addressingMode := by
  cases dialect <;> decide +kernel

namespace Run

/-- The staged loop and the static loop agree on an instruction in memory exactly when it is
`SED`, or an `LDA ($zp),Y` whose misread pointer happens to do no harm. -/
theorem agree_iff (start : Run Ram) (fetching : start.Fetching)
    (undisturbed : start.Undisturbed)
    (defined : (start.executor.dialect.lookup start.nextOpcode).addressingMode ≠ .undefined) :
    start.Agree ↔ start.nextOpcode = 0xF8 ∨ start.nextOpcode = 0xB1 ∧
      SkewedReadAgrees start.executor.memory (start.executor.registers.PC + 1)
        start.executor.registers.Y := by
  by_cases isSED : start.nextOpcode = 0xF8
  · refine iff_of_true (agree_of_SED fetching undisturbed ?_) (.inl isSED)
    rw [isSED, Dialect.lookup_F8]
  by_cases isLoad : start.nextOpcode = 0xB1
  · obtain ⟨routine, load, lookup_eq⟩ := start.executor.dialect.lookup_B1
    rw [← isLoad] at lookup_eq
    rw [agree_iff_of_skewed fetching undisturbed lookup_eq load]
    rw [or_iff_right isSED, and_iff_right isLoad]
  refine iff_of_false ?_ (by simp only [isSED, isLoad, false_or, false_and, not_false_iff])
  rcases start.executor.dialect.lookup_cases start.nextOpcode defined with
    ⟨-, zero_eq⟩ | ⟨routine, -, slot_eq, assigned⟩
  · rintro ⟨⟨staged, executes⟩, -⟩
    exact not_executes_of_null fetching undisturbed zero_eq staged executes
  · have steady := start.executor.dialect.hasty_opcodes start.nextOpcode isSED isLoad routine (by
      rw [slot_eq]
      rfl)
    by_cases endless : (start.executor.dialect.lookup start.nextOpcode).addressingMode ∈
        routine.endlessModes
    · rintro ⟨⟨staged, executes⟩, -⟩
      exact not_executes_of_endless fetching undisturbed slot_eq defined endless staged executes
    · exact not_agree_of_noLonger fetching undisturbed slot_eq defined assigned endless
        (routine.straight_noLonger_static assigned endless steady)

/-- `SED` in memory filled with its opcode. -/
theorem agree_on_F8 :
    (Run.launch (Executor.alloc Registers.reset (fun _ => 0xF8 : Ram) .base)
      { addrLo := 0, addrLen := 0xFFFF } 0x0200 Loop.zero).Agree :=
  (agree_iff _ ⟨rfl, rfl, by decide⟩ ⟨rfl, rfl⟩ (by decide)).mpr (.inl rfl)

/-- A `BCC` that is taken, in memory filled with its opcode: static mode leaves the program
counter behind the branch. -/
theorem not_agree_on_90 :
    ¬ (Run.launch (Executor.alloc Registers.reset (fun _ => 0x90 : Ram) .base)
      { addrLo := 0, addrLen := 0xFFFF } 0x0200 Loop.zero).Agree := by
  let start := Run.launch (Executor.alloc Registers.reset (fun _ => 0x90 : Ram) .base)
    { addrLo := 0, addrLen := 0xFFFF } 0x0200 Loop.zero
  have fetching : start.Fetching := ⟨rfl, rfl, by decide⟩
  have decoded : start.executor.dialect.lookup start.nextOpcode =
      Dispatch.slot .BCC .relative := by decide
  rw [agree_iff_programs fetching ⟨rfl, rfl⟩ decoded (by decide) (by decide) (by decide)]
  intro same
  have registers_eq := (same Locals.zero).1
  revert registers_eq
  decide

end Run
end System6502
