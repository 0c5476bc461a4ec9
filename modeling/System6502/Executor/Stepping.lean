import System6502.Executor.Determinacy
import System6502.Executor.StackDiscipline
import System6502.Executor.Transfers
import System6502.Lib.Program

/-!
# Instructions as steps of a program

The machine code in memory is a program whose steps are whole instructions.  A staged launch that
no other thread disturbs follows it, cycle for cycle, to the state in which it has no step.
-/

namespace System6502

open Lib System6502.Frame

variable {μ : Type*} [Membus μ]

/-! ## The program in memory -/

namespace Core

/-- One instruction below a limit, with its cycles, where neither depends on the static variables of
the functions.  An instruction that no call ends, or that works on what an earlier one has left in
them, is no step. -/
def instruct (dialect : Dialect) (limit : Nat) (core : Core μ) : Option (Nat × Core μ) :=
  if core.registers.PC.toNat < limit ∧ core.opcode ∉ dialect.unassignedOpcodes .staged then
    (dialect.execute core.opcode (core.fetched Locals.zero)).map fun outcome =>
      (outcome.1 + 1, outcome.2.core)
  else none

/-- Where a launch ends that has come to a state without a step: the loop condition fails, or the
opcode under the program counter is illegal, has no function or has one that never ends. -/
def fate (dialect : Dialect) (limit : Nat) (core : Core μ) : Location :=
  if limit ≤ core.registers.PC.toNat then .returned
  else if (dialect.lookup core.opcode).addressingMode = .undefined then .returned
  else if Dialect.Blank core.opcode then .nullCall
  else .cycle

end Core

/-- The program in the memory of a core, up to a limit. -/
def machineCode (μ : Type*) [Membus μ] (dialect : Dialect) (limit : Nat) :
    Lib.Program (Core μ) where
  step := Core.instruct dialect limit

/-- What is kept from one instruction to the next: the core and the static variables of the
instruction functions. -/
structure Resting (μ : Type*) extends Core μ where
  /-- What each function has retained. -/
  statics : Routine → Locals

/-- The bus and the registers of a frame, with what the functions have retained. -/
def Frame.resting (frame : Frame μ) (statics : Routine → Locals) : Resting μ :=
  { toCore := frame.core, statics }

namespace Resting

/-- One instruction below a limit, with its cycles.  An instruction that no call ends is no step. -/
def instruct (dialect : Dialect) (limit : Nat) (resting : Resting μ) :
    Option (Nat × Resting μ) :=
  if resting.registers.PC.toNat < limit then
    (dialect.lookup resting.opcode).staged.bind fun routine =>
      (runCalls (routine.staged (dialect.lookup resting.opcode).addressingMode) 7 1
        (resting.fetched (resting.statics routine))).map fun outcome =>
          (outcome.1 + 1, outcome.2.resting (Function.update resting.statics routine
            outcome.2.locals))
  else none

theorem instruct_of_staged {dialect : Dialect} {limit : Nat} {resting : Resting μ}
    {routine : Routine} (below : resting.registers.PC.toNat < limit)
    (staged_eq : (dialect.lookup resting.opcode).staged = some routine) :
    resting.instruct dialect limit =
      (runCalls (routine.staged (dialect.lookup resting.opcode).addressingMode) 7 1
        (resting.fetched (resting.statics routine))).map fun outcome =>
          (outcome.1 + 1, outcome.2.resting (Function.update resting.statics routine
            outcome.2.locals)) := by
  rw [instruct, if_pos below, staged_eq, Option.bind_some]

end Resting

/-- The program in memory, up to a limit, run by functions that retain their static variables. -/
def retentiveCode (μ : Type*) [Membus μ] (dialect : Dialect) (limit : Nat) :
    Lib.Program (Resting μ) where
  step := Resting.instruct dialect limit

/-- The core of an executor and what its functions retain. -/
def Executor.resting (executor : Executor μ) : Resting μ :=
  { toCore := executor.core, statics := executor.statics }

/-! ## Quiet inputs -/

namespace Run

/-- What a run without requests does not change. -/
def settings (run : Run μ) : Flags × Dialect × Nat :=
  (run.executor.flags, run.executor.dialect, run.loop.PCEnd)

theorem settings_fetch (input : Input) {run : Run μ} (fetching : run.Fetching)
    (defined : (run.executor.dialect.lookup run.nextOpcode).addressingMode ≠ .undefined) :
    (run.step .staged input).1.settings = run.settings := by
  have step_eq : run.step .staged input = run.fetchStep input := by
    simp only [step, fetching.1]
  unfold nextOpcode at defined
  rw [step_eq]
  unfold fetchStep
  dsimp only
  rw [if_pos fetching.2, if_neg defined]
  rfl

theorem settings_inside {dispatch : Dispatch} (input : Input) {run : Run μ}
    (inside : run.Inside dispatch) (quiet : input.requests = []) :
    (run.step .staged input).1.settings = run.settings := by
  have admitted_eq : run.admitRequests input = run := by
    simp [admitRequests, quiet, onExecutor, Executor.requests]
  have step_eq : run.step .staged input = run.cycleStep .staged input := by
    simp only [step, inside.location_eq]
  have idle : (run.admitRequests input).executor.flags.dma = false := by
    rw [admitted_eq]
    exact inside.noRequest
  rw [step_eq, cycleStep_of_idle .staged input inside.noTransfer idle, admitted_eq]
  have called : (run.callStep .staged input).1.settings = run.settings := by
    change run.stagedCall.1.settings = run.settings
    unfold stagedCall
    split <;> rfl
  rw [← called]
  unfold afterCycle
  split
  · rfl
  · dsimp only
    split <;> rfl

/-- Between two instructions, with no request pending. -/
structure Rests (dialect : Dialect) (limit : Nat) (run : Run μ) : Prop where
  /-- At the condition of the outer loop. -/
  location_eq : run.location = .fetch
  /-- No transfer is under way. -/
  noTransfer : run.loop.isInDMA = false
  /-- No flag is set. -/
  settings_eq : run.settings =
    ({ nmi := false, irq := false, dma := false, execStop := false }, dialect, limit)

variable {dialect : Dialect} {limit : Nat}

namespace Rests

variable {run : Run μ}

omit [Membus μ] in
theorem flags_eq (rests : run.Rests dialect limit) :
    run.executor.flags = { nmi := false, irq := false, dma := false, execStop := false } :=
  congrArg Prod.fst rests.settings_eq

omit [Membus μ] in
theorem dialect_eq (rests : run.Rests dialect limit) : run.executor.dialect = dialect :=
  congrArg (fun settings => settings.2.1) rests.settings_eq

omit [Membus μ] in
theorem PCEnd_eq (rests : run.Rests dialect limit) : run.loop.PCEnd = limit :=
  congrArg (fun settings => settings.2.2) rests.settings_eq

omit [Membus μ] in
theorem undisturbed (rests : run.Rests dialect limit) : run.Undisturbed where
  noRequest := by rw [rests.flags_eq]
  noTransfer := rests.noTransfer

omit [Membus μ] in
theorem fetching (rests : run.Rests dialect limit)
    (below : run.executor.registers.PC.toNat < limit) : run.Fetching :=
  ⟨rests.location_eq, by rw [rests.flags_eq], by rw [rests.PCEnd_eq]; exact below⟩

end Rests

/-- A call retains the locals of its own function and no others. -/
theorem statics_inside {routine : Routine} {mode : AddressingMode} {run : Run μ} (input : Input)
    (inside : run.Inside (Dispatch.slot routine mode)) (quiet : input.requests = []) :
    (run.step .staged input).1.executor.statics =
      Function.update run.executor.statics routine
        ((run.step .staged input).1.retained routine).locals := by
  obtain ⟨⟨noRequest, noTransfer⟩, location_eq, dispatch_eq⟩ := inside
  simp only [step, location_eq, cycleStep, noTransfer, dispatchCycle, onExecutor, quiet,
    Executor.requests, List.foldl_nil, noRequest, stagedCall, dispatch_eq, Dispatch.slot,
    afterCycle, Bool.false_eq_true, if_false, reduceCtorEq]
  split <;> simp [retained, Executor.frame, Executor.absorbRoutine, Executor.absorb, goto]

/-- The calls of a staged function and the boundary that follows them. -/
theorem run_inside {routine : Routine} {mode : AddressingMode} {fuel calls : Nat} {run : Run μ}
    {after : Frame μ} {inputs : List Input} (inside : run.Inside (Dispatch.slot routine mode))
    (quiet : ∀ input ∈ inputs, input.requests = [])
    (ended : runCalls (routine.staged mode) fuel run.loop.cycleCount (run.retained routine) =
      some (calls, after))
    (length_eq : inputs.length + run.loop.cycleCount = calls + 1) :
    let final := (loopMachine μ .staged).run run inputs
    final.location = .boundary ∧
      final.executor.resting = after.resting (Function.update run.executor.statics routine
        after.locals) ∧
      final.loop.totalCycles = run.loop.totalCycles + inputs.length ∧
      final.settings = run.settings ∧ final.loop.isInDMA = false := by
  induction fuel generalizing run inputs with
  | zero => cases ended
  | succ fuel ih =>
      have bound := (runCalls_le ended).1
      cases inputs with
      | nil =>
          rw [List.length_nil] at length_eq
          omega
      | cons first rest =>
          have firstQuiet := quiet first List.mem_cons_self
          obtain ⟨frame_eq, cycle_eq, total_eq, undisturbed, dispatch_eq, location_eq⟩ :=
            step_staged_inside first inside firstQuiet
          have settings_eq := settings_inside first inside firstQuiet
          have statics_eq := statics_inside first inside firstQuiet
          rw [runCalls] at ended
          split at ended
          · rename_i outcome call_eq
            rw [call_eq] at frame_eq location_eq
            obtain ⟨rfl, rfl⟩ := Prod.mk.inj (Option.some.inj ended)
            obtain rfl : rest = [] := List.eq_nil_of_length_eq_zero (by
              rw [List.length_cons] at length_eq
              omega)
            refine ⟨location_eq, ?_, total_eq, settings_eq, undisturbed.noTransfer⟩
            rw [frame_eq] at statics_eq
            have core_eq : (run.step .staged first).1.executor.core = outcome.core :=
              congrArg Frame.core frame_eq
            change (run.step .staged first).1.executor.resting = _
            rw [Executor.resting, core_eq, statics_eq, Frame.resting]
          · rename_i outcome stage stage_ne call_eq
            rw [call_eq] at frame_eq location_eq
            rw [if_neg stage_ne] at location_eq
            change (run.step .staged first).1.retained routine = outcome at frame_eq
            rw [← frame_eq, ← cycle_eq] at ended
            rw [List.length_cons] at length_eq
            have restLength : rest.length + (run.step .staged first).1.loop.cycleCount =
                calls + 1 := by
              rw [cycle_eq]
              omega
            obtain ⟨location_eq, resting_eq, count_eq, further_eq, idle⟩ :=
              ih ⟨undisturbed, location_eq, dispatch_eq⟩
                (fun input input_mem => quiet input (List.mem_cons_of_mem _ input_mem)) ended
                restLength
            rw [statics_eq, Function.update_idem] at resting_eq
            refine ⟨location_eq, resting_eq, ?_, further_eq.trans settings_eq, idle⟩
            rw [total_eq] at count_eq
            rw [List.length_cons]
            exact count_eq.trans (by omega)

/-- A boundary at which nothing waits. -/
theorem step_boundary {run : Run μ} (input : Input) (here : run.location = .boundary)
    (quiet : input.requests = []) (noIRQ : run.executor.flags.irq = false)
    (noNMI : run.executor.flags.nmi = false) :
    (run.step .staged input).1 = run.goto .fetch := by
  have admitted_eq : run.admitRequests input = run := by
    simp [admitRequests, quiet, onExecutor, Executor.requests]
  have irq_eq : run.serviceIRQ = (run, []) := by simp [serviceIRQ, noIRQ]
  have nmi_eq : run.serviceNMI = (run, []) := by simp [serviceNMI, noNMI]
  unfold admitRequests at admitted_eq
  simp only [step, here, boundaryStep, admitted_eq, irq_eq, nmi_eq, reduceCtorEq, if_false]
  obtain ⟨⟨flags, _, _, _, _, _, _, _, _, _, _⟩, _, _⟩ := run
  obtain ⟨nmi, irq, dma, execStop⟩ := flags
  obtain rfl : irq = false := noIRQ
  obtain rfl : nmi = false := noNMI
  rfl

/-! ## Steps of the program -/

end Run

/-- A step of the program is an instruction that its staged function ends. -/
theorem Resting.instruct_eq_some {dialect : Dialect} {limit cost : Nat}
    {resting after : Resting μ}
    (moves : resting.instruct dialect limit = some (cost, after)) :
    resting.registers.PC.toNat < limit ∧
      ∃ routine mode calls outcome,
        dialect.lookup resting.opcode = Dispatch.slot routine mode ∧ mode ≠ .undefined ∧
          runCalls (routine.staged mode) 7 1 (resting.fetched (resting.statics routine)) =
            some (calls, outcome) ∧
          cost = calls + 1 ∧
          after = outcome.resting (Function.update resting.statics routine outcome.locals) := by
  unfold instruct at moves
  split at moves
  case isFalse => cases moves
  case isTrue below =>
    refine ⟨below, ?_⟩
    have formed := dialect.lookup_wellFormed resting.opcode
    unfold Dispatch.WellFormed at formed
    split at formed
    · rename_i routine staged_eq
      rw [staged_eq] at moves
      obtain ⟨⟨calls, outcome⟩, executed, done⟩ := Option.map_eq_some_iff.mp moves
      obtain ⟨rfl, rfl⟩ := Prod.mk.inj done
      exact ⟨routine, _, calls, outcome, formed.1, formed.2.2, executed, rfl, rfl⟩
    · rename_i staged_eq
      rw [staged_eq] at moves
      cases moves

/-- A step that depends on no static variable is one whatever they hold. -/
theorem Resting.instruct_of_core {dialect : Dialect} {limit cost : Nat} {after : Core μ}
    {resting : Resting μ} (moves : resting.toCore.instruct dialect limit = some (cost, after)) :
    ∃ next, resting.instruct dialect limit = some (cost, next) ∧ next.toCore = after := by
  unfold Core.instruct at moves
  split at moves
  case isFalse => cases moves
  case isTrue admitted =>
    obtain ⟨below, assigned⟩ := admitted
    obtain ⟨⟨calls, outcome⟩, executed, done⟩ := Option.map_eq_some_iff.mp moves
    obtain ⟨rfl, rfl⟩ := Prod.mk.inj done
    have formed := dialect.lookup_wellFormed resting.opcode
    unfold Dispatch.WellFormed at formed
    unfold Dialect.execute at executed
    split at formed
    · rename_i routine staged_eq
      have fresh : (dialect.lookup resting.opcode).addressingMode ∉ routine.residueModes :=
        fun residue => assigned ((dialect.lookup_unassigned .staged resting.opcode).mpr
          ⟨routine, staged_eq, residue⟩)
      rw [staged_eq] at executed
      have same := (routine.staged_forgets formed.2.1 fresh Locals.zero
        (resting.statics routine)).runCalls 7 (resting.fetched Locals.zero).memory
          (resting.fetched Locals.zero).registers
      obtain ⟨⟨count, left⟩, leftEnded, left_eq⟩ :=
        Option.map_eq_some_iff.mp (same.symm.trans (congrArg (Option.map _) executed))
      obtain ⟨rfl, core_eq⟩ : count = calls ∧ left.core = outcome.core := by simpa using left_eq
      have retained : runCalls (routine.staged (dialect.lookup resting.opcode).addressingMode) 7 1
          (resting.fetched (resting.statics routine)) = some (count, left) := leftEnded
      refine ⟨left.resting (Function.update resting.statics routine left.locals), ?_, core_eq⟩
      rw [instruct_of_staged below staged_eq, retained, Option.map_some]
    · rename_i staged_eq
      rw [staged_eq] at executed
      cases executed

/-- The program leads where it does whatever the functions have retained. -/
theorem Resting.leads_of_core {dialect : Dialect} {limit cost : Nat} {resting : Resting μ}
    {after : Core μ} (leads : (machineCode μ dialect limit).Leads resting.toCore cost after) :
    ∃ next, (retentiveCode μ dialect limit).Leads resting cost next ∧ next.toCore = after := by
  have answers : ∀ before cost after (image : Resting μ),
      (machineCode μ dialect limit).step before = some (cost, after) → image.toCore = before →
        ∃ next, (retentiveCode μ dialect limit).step image = some (cost, next) ∧
          next.toCore = after := by
    rintro _ cost after image moves rfl
    exact image.instruct_of_core moves
  exact leads.simulate answers rfl

namespace Run

variable {dialect : Dialect} {limit : Nat}

/-- The staged loop takes the step of the program, in a step of its own for each cycle and one at
the boundary. -/
theorem Rests.instruct {run : Run μ} {cost : Nat} {after : Resting μ} {inputs : List Input}
    (rests : run.Rests dialect limit)
    (moves : run.executor.resting.instruct dialect limit = some (cost, after))
    (quiet : ∀ input ∈ inputs, input.requests = []) (length_eq : inputs.length = cost + 1) :
    let final := (loopMachine μ .staged).run run inputs
    final.Rests dialect limit ∧ final.executor.resting = after ∧
      final.loop.totalCycles = run.loop.totalCycles + cost := by
  obtain ⟨below, routine, mode, calls, outcome, slot_eq, defined, ended, rfl, rfl⟩ :=
    Resting.instruct_eq_some moves
  have fetching := rests.fetching below
  have decoded : run.executor.dialect.lookup run.nextOpcode = Dispatch.slot routine mode := by
    rw [rests.dialect_eq]
    exact slot_eq
  cases inputs with
  | nil => cases length_eq
  | cons first rest =>
      obtain ⟨inside, cycle_eq, total_eq, statics_eq, frame_eq⟩ :=
        step_fetch .staged first fetching rests.undisturbed decoded defined
      have settings_eq := settings_fetch first fetching (by rw [decoded]; exact defined)
      obtain ⟨middle, last, rfl⟩ : ∃ middle last, rest = middle ++ [last] := by
        rcases List.eq_nil_or_concat rest with rfl | ⟨middle, last, rfl⟩
        · simp at length_eq
        · exact ⟨middle, last, by simp⟩
      simp only [List.length_cons, List.length_append, List.length_nil] at length_eq
      have called : runCalls (routine.staged mode) 7 (run.step .staged first).1.loop.cycleCount
          ((run.step .staged first).1.retained routine) = some (calls, outcome) := by
        rw [retained, frame_eq, statics_eq, cycle_eq]
        exact ended
      have middleLength : middle.length + (run.step .staged first).1.loop.cycleCount =
          calls + 1 := by
        rw [cycle_eq]
        omega
      obtain ⟨location_eq, after_eq, count_eq, same_eq, idle⟩ := run_inside inside
        (fun input input_mem => quiet input (by simp [input_mem])) called middleLength
      rw [statics_eq] at after_eq
      let boundary := (loopMachine μ .staged).run (run.step .staged first).1 middle
      have settled : boundary.settings = run.settings := same_eq.trans settings_eq
      have flags_eq : boundary.executor.flags = _ :=
        (congrArg Prod.fst settled).trans rests.flags_eq
      have step_eq : (boundary.step .staged last).1 = boundary.goto .fetch :=
        step_boundary last location_eq (quiet last (by simp)) (by rw [flags_eq]) (by rw [flags_eq])
      have final_eq : (loopMachine μ .staged).run run (first :: (middle ++ [last])) =
          boundary.goto .fetch := by
        rw [Machine.run_cons, Machine.run_append]
        exact step_eq
      rw [final_eq]
      refine ⟨⟨rfl, idle, settled.trans rests.settings_eq⟩, after_eq, ?_⟩
      change boundary.loop.totalCycles = _
      rw [count_eq, total_eq]
      omega

/-- The staged loop follows the program. -/
theorem exists_run_of_leads {cost : Nat} {resting after : Resting μ}
    (leads : (retentiveCode μ dialect limit).Leads resting cost after) :
    ∃ steps, ∀ run : Run μ, run.Rests dialect limit → run.executor.resting = resting →
      ∀ inputs : List Input, (∀ input ∈ inputs, input.requests = []) → inputs.length = steps →
        let final := (loopMachine μ .staged).run run inputs
        final.Rests dialect limit ∧ final.executor.resting = after ∧
          final.loop.totalCycles = run.loop.totalCycles + cost := by
  induction leads with
  | refl here =>
      refine ⟨0, fun run rests resting_eq inputs _ length_eq => ?_⟩
      obtain rfl := List.eq_nil_of_length_eq_zero length_eq
      exact ⟨rests, resting_eq, rfl⟩
  | step moves further ih =>
      rename_i before middle after cost rest
      obtain ⟨steps, follows⟩ := ih
      refine ⟨cost + 1 + steps, fun run rests resting_eq inputs quiet length_eq => ?_⟩
      subst resting_eq
      obtain ⟨front, back, rfl, front_length⟩ :
          ∃ front back, inputs = front ++ back ∧ front.length = cost + 1 :=
        ⟨inputs.take (cost + 1), inputs.drop (cost + 1), (List.take_append_drop _ _).symm,
          List.length_take_of_le (by omega)⟩
      rw [List.length_append] at length_eq
      obtain ⟨middleRests, middle_eq, middleCycles⟩ := rests.instruct moves
        (fun input input_mem => quiet input (List.mem_append_left _ input_mem)) front_length
      obtain ⟨finalRests, final_eq, finalCycles⟩ := follows _ middleRests middle_eq back
        (fun input input_mem => quiet input (List.mem_append_right _ input_mem)) (by omega)
      rw [Machine.run_append]
      refine ⟨finalRests, final_eq, finalCycles.trans ?_⟩
      rw [middleCycles]
      omega

/-! ## Where a launch ends -/

/-- A run that has called a null pointer stays as it is. -/
theorem run_of_nullCall {run : Run μ} (called : run.location = .nullCall) (inputs : List Input) :
    (loopMachine μ .staged).run run inputs = run := by
  induction inputs with
  | nil => rfl
  | cons first rest ih =>
      have step_eq : (loopMachine μ .staged).step run first = (run, []) := by
        simp only [loopMachine, step, called]
      rw [Machine.run_cons, step_eq]
      exact ih

theorem step_null_inside {run : Run μ} (input : Input) (inside : run.Inside Dispatch.zero)
    (quiet : input.requests = []) : (run.step .staged input).1.location = .nullCall := by
  obtain ⟨⟨noRequest, noTransfer⟩, location_eq, dispatch_eq⟩ := inside
  simp [step, location_eq, cycleStep, noTransfer, dispatchCycle, onExecutor, quiet,
    Executor.requests, noRequest, stagedCall, dispatch_eq, Dispatch.zero, afterCycle, goto]

/-- A function that never ends its instruction keeps the loop inside it. -/
theorem run_of_endless {routine : Routine} {mode : AddressingMode} {run : Run μ}
    {inputs : List Input} (inside : run.Inside (Dispatch.slot routine mode))
    (endless : mode ∈ routine.endlessModes) (quiet : ∀ input ∈ inputs, input.requests = []) :
    ((loopMachine μ .staged).run run inputs).location = .cycle := by
  induction inputs generalizing run with
  | nil => exact inside.location_eq
  | cons first rest ih =>
      obtain ⟨-, -, -, undisturbed, dispatch_eq, location_eq⟩ :=
        step_staged_inside first inside (quiet first List.mem_cons_self)
      rw [routine.staged_asks endless, if_neg (by simp)] at location_eq
      exact ih ⟨undisturbed, location_eq, dispatch_eq⟩
        fun input input_mem => quiet input (List.mem_cons_of_mem _ input_mem)

/-- An opcode that has a function and yet no step has one that never ends. -/
theorem endless_of_final {resting : Resting μ}
    (ends : (retentiveCode μ dialect limit).Final resting)
    (below : resting.registers.PC.toNat < limit)
    {routine : Routine} (decoded : dialect.lookup resting.opcode =
      Dispatch.slot routine (dialect.lookup resting.opcode).addressingMode)
    (mode_mem : (dialect.lookup resting.opcode).addressingMode ∈ routine.modes) :
    (dialect.lookup resting.opcode).addressingMode ∈ routine.endlessModes := by
  by_contra ending
  have staged_eq : (dialect.lookup resting.opcode).staged = some routine := by rw [decoded]; rfl
  have executed := routine.staged_performs mode_mem ending
    (resting.fetched (resting.statics routine))
  have moves : resting.instruct dialect limit ≠ none := by
    rw [Resting.instruct_of_staged below staged_eq, executed]
    exact Option.some_ne_none _
  exact moves ends

/-- The outcome of a run that has come to a state without a step. -/
theorem Rests.fate {run : Run μ} (rests : run.Rests dialect limit)
    (ends : (retentiveCode μ dialect limit).Final run.executor.resting)
    {inputs : List Input} (quiet : ∀ input ∈ inputs, input.requests = [])
    (enough : 2 ≤ inputs.length) :
    let final := (loopMachine μ .staged).run run inputs
    final.location = run.executor.core.fate dialect limit ∧
      (limit ≤ run.executor.registers.PC.toNat →
        final.executor.resting = run.executor.resting ∧
          final.loop.totalCycles = run.loop.totalCycles) := by
  obtain ⟨first, second, rest, rfl⟩ : ∃ first second rest, inputs = first :: second :: rest := by
    rcases inputs with _ | ⟨first, _ | ⟨second, rest⟩⟩
    · simp at enough
    · simp at enough
    · exact ⟨first, second, rest, rfl⟩
  have step_eq : (loopMachine μ .staged).step run first = run.fetchStep first := by
    simp only [loopMachine, step, rests.location_eq]
  have PC_eq : run.executor.core.registers.PC = run.executor.registers.PC := rfl
  have opcode_eq : run.executor.core.opcode = run.nextOpcode := rfl
  unfold Core.fate
  rw [Machine.run_cons, step_eq, PC_eq, opcode_eq]
  by_cases stops : limit ≤ run.executor.registers.PC.toNat
  · have left : run.fetchStep first = (run.leave, [.leave]) :=
      fetchStep_of_not_fetching first rests.location_eq fun fetching => by
        have below := fetching.2.2
        rw [rests.PCEnd_eq] at below
        omega
    rw [left, run_of_ended .staged _ rfl, if_pos stops]
    exact ⟨rfl, fun _ => ⟨rfl, rfl⟩⟩
  · rw [if_neg stops]
    refine ⟨?_, fun returns => absurd returns stops⟩
    have below : run.executor.registers.PC.toNat < limit := by omega
    have fetching := rests.fetching below
    have dialect_eq := rests.dialect_eq
    by_cases undefined : (dialect.lookup run.nextOpcode).addressingMode = .undefined
    · rw [← dialect_eq] at undefined
      have returned := (fetchStep_of_undefined first fetching undefined).2
      rw [run_of_ended .staged _ returned, ← dialect_eq, if_pos undefined]
      exact returned
    · rw [if_neg undefined]
      have fetched := step_fetch .staged first fetching rests.undisturbed
        (by rw [dialect_eq]) undefined
      have inside := fetched.1
      change ((run.step .staged first).1.Inside _) at inside
      have stepped : (run.step .staged first).1 = (run.fetchStep first).1 :=
        congrArg Prod.fst step_eq
      rw [stepped] at inside
      rcases dialect.lookup_cases run.nextOpcode undefined with
        ⟨blank, zero_eq⟩ | ⟨routine, solid, slot_eq, mode_mem⟩
      · rw [zero_eq] at inside
        have null := step_null_inside second inside (quiet second (by simp))
        rw [if_pos blank, Machine.run_cons]
        change ((loopMachine μ .staged).run ((run.fetchStep first).1.step .staged second).1
          rest).location = _
        rw [run_of_nullCall null]
        exact null
      · rw [if_neg solid]
        have endless := endless_of_final ends below slot_eq mode_mem
        rw [slot_eq] at inside
        exact run_of_endless inside endless
          fun input input_mem => quiet input (List.mem_cons_of_mem _ input_mem)

/-- A staged launch that no other thread disturbs ends as the program in its memory does.  When the
program leads to a state without a step, the launch comes to this very state in exactly its cycles,
and is then between two instructions; from there it returns as it is if the program counter has
reached the limit, and otherwise rejects an illegal opcode, calls a null pointer or remains in an
instruction that does not end. -/
theorem launch_fate (executor : Executor μ) (range : MemoryAddrRange) (PC : Word) (residue : Loop)
    {cost : Nat} {after : Resting μ}
    (leads : (retentiveCode μ executor.dialect
      (range.addrLo.toNat + range.addrLen.toNat)).Leads
        (launch executor range PC residue).executor.resting cost after)
    (ends : (retentiveCode μ executor.dialect
      (range.addrLo.toNat + range.addrLen.toNat)).Final after) :
    ∃ steps, ∀ inputs : List Input, (∀ input ∈ inputs, input.requests = []) →
      steps + 2 ≤ inputs.length →
        let limit := range.addrLo.toNat + range.addrLen.toNat
        let arrived := (loopMachine μ .staged).run (launch executor range PC residue)
          (inputs.take steps)
        let final := (loopMachine μ .staged).run (launch executor range PC residue) inputs
        (arrived.Rests executor.dialect limit ∧ arrived.executor.resting = after ∧
            arrived.loop.totalCycles = cost) ∧
          final.location = after.fate executor.dialect limit ∧
          (limit ≤ after.registers.PC.toNat →
            final.executor.resting = after ∧ final.loop.totalCycles = cost) := by
  obtain ⟨steps, follows⟩ := exists_run_of_leads leads
  refine ⟨steps, fun inputs quiet enough => ?_⟩
  obtain ⟨rests, resting_eq, cycles_eq⟩ := follows (launch executor range PC residue)
    ⟨rfl, rfl, rfl⟩ rfl (inputs.take steps)
    (fun input input_mem => quiet input (List.mem_of_mem_take input_mem))
    (List.length_take_of_le (by omega))
  have spent : (launch executor range PC residue).loop.totalCycles + cost = cost := Nat.zero_add _
  rw [spent] at cycles_eq
  refine ⟨⟨rests, resting_eq, cycles_eq⟩, ?_⟩
  rw [← resting_eq] at ends
  obtain ⟨location_eq, returns⟩ := rests.fate ends
    (fun input input_mem => quiet input (List.mem_of_mem_drop input_mem))
    (by rw [List.length_drop]; omega : 2 ≤ (inputs.drop steps).length)
  rw [← Machine.run_append, List.take_append_drop] at location_eq returns
  rw [resting_eq, cycles_eq] at returns
  subst resting_eq
  exact ⟨location_eq, returns⟩

/-- Memory with a `NOP` in front of the `STA` of `$81`, whose staged function never ends. -/
def endlessStore : Ram := fun address => if address = 0 then 0xEA else 0x81

/-- A launch that comes to such a store is at `$0001` after two cycles and never returns. -/
theorem launch_fate_endless : ∃ steps, ∀ inputs : List Input,
    (∀ input ∈ inputs, input.requests = []) → steps + 2 ≤ inputs.length →
      let start := launch (Executor.alloc Registers.reset endlessStore .base)
        { addrLo := 0, addrLen := 0x10 } 0 Loop.zero
      let arrived := (loopMachine Ram .staged).run start (inputs.take steps)
      arrived.location = .fetch ∧ arrived.executor.registers.PC = 1 ∧
        arrived.loop.totalCycles = 2 ∧
        ((loopMachine Ram .staged).run start inputs).location = .cycle := by
  have leads : (retentiveCode Ram .base 16).Leads
      { memory := endlessStore
        registers := { Registers.reset with PC := 0 }
        statics := fun _ => Locals.zero } 2
      { memory := endlessStore
        registers := { Registers.reset with PC := 1 }
        statics := Function.update (fun _ => Locals.zero) .NOP Locals.zero } :=
    .single rfl
  obtain ⟨steps, ends⟩ := launch_fate (Executor.alloc Registers.reset endlessStore .base)
    { addrLo := 0, addrLen := 0x10 } 0 Loop.zero leads rfl
  refine ⟨steps, fun inputs quiet enough => ?_⟩
  obtain ⟨⟨rests, resting_eq, cycles_eq⟩, location_eq, -⟩ := ends inputs quiet enough
  have PC_eq := congrArg (fun resting => resting.registers.PC) resting_eq
  exact ⟨rests.location_eq, PC_eq, cycles_eq, location_eq⟩

end Run
end System6502
