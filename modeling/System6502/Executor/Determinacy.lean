import System6502.Executor.Instruction
import System6502.Isa.Residue

/-!
# Retained and uninitialised locals

Whether the outcome of an instruction depends on what the static variables of its function hold
before its fetch, or on what a static-mode function finds in its uninitialised locals.
-/

namespace System6502

open Lib System6502.Frame

variable {μ : Type*} [Membus μ]

/-- The modes in which an instruction function uses a local that the instruction has not
assigned. -/
def Routine.unassignedModes : ExecMode → Routine → List AddressingMode
  | .staged => residueModes
  | .static => looseModes

/-- The opcodes whose function uses a local that the instruction has not assigned. -/
def Dialect.unassignedOpcodes : ExecMode → Dialect → List Byte
  | .staged, base => [0xC1, 0xC5, 0xCD, 0xD1, 0xD5]
  | .staged, cmos => [0x64, 0xC1, 0xC5, 0xCD, 0xD1, 0xD2, 0xD5]
  | .static, base =>
      [0x19, 0x1D, 0x39, 0x3D, 0x59, 0x5D, 0x61, 0x65, 0x69, 0x6D, 0x71, 0x75, 0x79, 0x7D, 0xB6,
        0xBE, 0xE1, 0xE5, 0xE9, 0xED, 0xF1, 0xF5, 0xF9, 0xFD]
  | .static, cmos =>
      [0x19, 0x1D, 0x39, 0x3D, 0x59, 0x5D, 0x61, 0x65, 0x69, 0x6D, 0x71, 0x72, 0x75, 0x79, 0x7D,
        0xB6, 0xBE, 0xE1, 0xE5, 0xE9, 0xED, 0xF1, 0xF2, 0xF5, 0xF9, 0xFD]

/-- The function a record names for an execution mode. -/
def Dispatch.function (dispatch : Dispatch) : ExecMode → Option Routine
  | .staged => dispatch.staged
  | .static => dispatch.static

theorem Dialect.lookup_unassigned (execMode : ExecMode) (dialect : Dialect) :
    ∀ opcode, opcode ∈ dialect.unassignedOpcodes execMode ↔
      ∃ routine ∈ (dialect.lookup opcode).function execMode,
        (dialect.lookup opcode).addressingMode ∈ routine.unassignedModes execMode := by
  cases execMode <;> cases dialect <;> decide +kernel

namespace Run

/-- The run with other contents of the static variables of the instruction functions. -/
def retaining (run : Run μ) (statics : Routine → Locals) : Run μ :=
  run.onExecutor fun executor => { executor with statics }

/-- Whatever the static variables and the uninitialised locals hold, the next instruction ends, if
it ends, with the same registers, the same memory, the same bus accesses and the same number of
cycles. -/
def Determined (execMode : ExecMode) (start : Run (Traced μ)) : Prop :=
  ∀ first second : Routine → Locals,
    ((∃ final, Executes execMode (start.retaining first) final) ↔
        ∃ final, Executes execMode (start.retaining second) final) ∧
      ∀ left right, Executes execMode (start.retaining first) left →
        Executes execMode (start.retaining second) right →
          left.executor.registers = right.executor.registers ∧
            left.executor.memory.bus = right.executor.memory.bus ∧
            left.executor.memory.log = right.executor.memory.log ∧
            left.loop.totalCycles = right.loop.totalCycles

omit [Membus μ] in
theorem Undisturbed.retaining {run : Run μ} (undisturbed : run.Undisturbed)
    (statics : Routine → Locals) : (run.retaining statics).Undisturbed :=
  ⟨undisturbed.noRequest, undisturbed.noTransfer⟩

omit [Membus μ] in
theorem Fetching.retaining {run : Run μ} (fetching : run.Fetching)
    (statics : Routine → Locals) : (run.retaining statics).Fetching := fetching

section Decoded

variable {routine : Routine} {mode : AddressingMode} {start : Run μ}

/-- A staged function that forgets what it retains ends the instruction alike from any two
contents of the static variables. -/
theorem executes_staged_alike (fetching : start.Fetching) (undisturbed : start.Undisturbed)
    (decoded : start.executor.dialect.lookup start.nextOpcode = Dispatch.slot routine mode)
    (defined : mode ≠ .undefined) (forgets : Forgets (fun _ => ()) (routine.staged (μ := μ) mode))
    {first second : Routine → Locals} {left : Run μ}
    (executes : Executes .staged (start.retaining first) left) :
    (∃ right, Executes .staged (start.retaining second) right) ∧
      ∀ right, Executes .staged (start.retaining second) right →
        left.executor.core = right.executor.core ∧
          left.loop.totalCycles = right.loop.totalCycles := by
  obtain ⟨fuel, calls, ended, total_eq⟩ := executes_staged (fetching.retaining first)
    (undisturbed.retaining first) decoded defined executes
  have same := (forgets (first routine) (second routine)).runCalls fuel
    (start.fetched (first routine)).memory (start.fetched (first routine)).registers
  obtain ⟨⟨count, after⟩, otherEnded, outcome_eq⟩ :
      ∃ outcome, runCalls (routine.staged mode) fuel 1 (start.fetched (second routine)) =
          some outcome ∧
        (outcome.1, outcome.2.core, ()) = (calls, left.executor.core, ()) := by
    refine Option.map_eq_some_iff.mp (same.symm.trans ?_)
    exact congrArg (Option.map _) ended
  obtain ⟨rfl, core_eq⟩ : count = calls ∧ after.core = left.executor.core := by
    simpa using outcome_eq
  refine ⟨exists_executes_staged (fetching.retaining second)
    (undisturbed.retaining second) decoded defined otherEnded, fun right rightExecutes => ?_⟩
  obtain ⟨_, _, rightEnded, rightTotal⟩ := executes_staged (fetching.retaining second)
    (undisturbed.retaining second) decoded defined rightExecutes
  obtain ⟨rfl, rfl⟩ := Prod.mk.inj (runCalls_unique otherEnded rightEnded)
  exact ⟨core_eq.symm, total_eq.trans rightTotal.symm⟩

/-- A static-mode function that forgets what its locals hold ends the instruction alike from any
of their contents. -/
theorem executes_static_alike (fetching : start.Fetching) (undisturbed : start.Undisturbed)
    (decoded : start.executor.dialect.lookup start.nextOpcode = Dispatch.slot routine mode)
    (defined : mode ≠ .undefined)
    (forgets : StaticForgets (fun _ => ()) (routine.static (μ := μ) mode))
    {first second : Routine → Locals} {left right : Run μ}
    (executes : Executes .static (start.retaining first) left)
    (rightExecutes : Executes .static (start.retaining second) right) :
    left.executor.core = right.executor.core ∧ left.loop.totalCycles = right.loop.totalCycles := by
  obtain ⟨locals, memory_eq, registers_eq, total_eq⟩ := executes_static
    (fetching.retaining first) (undisturbed.retaining first) decoded defined executes
  obtain ⟨others, otherMemory_eq, otherRegisters_eq, otherTotal_eq⟩ := executes_static
    (fetching.retaining second) (undisturbed.retaining second) decoded defined
    rightExecutes
  obtain ⟨core_eq, count_eq, -⟩ := forgets (start.fetched locals).memory
    (start.fetched locals).registers locals others
  constructor
  · calc
      left.executor.core = (routine.static mode (start.fetched locals)).1.core :=
        congrArg₂ Core.mk memory_eq registers_eq
      _ = (routine.static mode (start.fetched others)).1.core := core_eq
      _ = right.executor.core := (congrArg₂ Core.mk otherMemory_eq otherRegisters_eq).symm
  · rw [total_eq, otherTotal_eq]
    exact congrArg (fun count => start.loop.totalCycles + (2 + count)) count_eq

end Decoded

/-- A program that distinguishes two contents of its locals makes the outcome depend on them. -/
theorem not_determined_of_distinguishes {execMode : ExecMode} (program : StaticHandler (Traced μ))
    {start : Run (Traced μ)} (base : Nat)
    (outcome : ∀ locals, ∃ final, Executes execMode (start.retaining fun _ => locals) final ∧
      final.executor.core = (program (start.fetched locals)).1.core ∧
      final.loop.totalCycles = base + (program (start.fetched locals)).2)
    (distinguishes : Distinguishes program (start.fetched Locals.zero).memory
      (start.fetched Locals.zero).registers) : ¬ start.Determined execMode := by
  intro determined
  obtain ⟨first, second, differ⟩ := distinguishes
  obtain ⟨left, leftExecutes, leftCore_eq, leftTotal_eq⟩ := outcome first
  obtain ⟨right, rightExecutes, rightCore_eq, rightTotal_eq⟩ := outcome second
  obtain ⟨registers_eq, bus_eq, log_eq, total_eq⟩ :=
    (determined _ _).2 left right leftExecutes rightExecutes
  have memory_eq : left.executor.memory = right.executor.memory :=
    congrArg₂ Traced.mk bus_eq log_eq
  refine differ ⟨?_, ?_⟩
  · exact leftCore_eq.symm.trans ((congrArg₂ Core.mk memory_eq registers_eq).trans rightCore_eq)
  · change (program (start.fetched first)).2 = (program (start.fetched second)).2
    omega

theorem not_determined_of_staged {routine : Routine} {mode : AddressingMode}
    {start : Run (Traced μ)} (fetching : start.Fetching) (undisturbed : start.Undisturbed)
    (decoded : start.executor.dialect.lookup start.nextOpcode = Dispatch.slot routine mode)
    (defined : mode ≠ .undefined) (assigned : mode ∈ routine.modes)
    (residue : mode ∈ routine.residueModes) : ¬ start.Determined .staged := by
  have ends : mode ∉ routine.endlessModes := routine.ends_of_residue residue
  refine not_determined_of_distinguishes (routine.straight mode)
    (start.loop.totalCycles + 1) (fun locals => ?_)
    (routine.straight_distinguishes assigned residue _ _)
  have ended := routine.staged_performs assigned ends (start.fetched locals)
  obtain ⟨final, executes⟩ := exists_executes_staged
    (fetching.retaining fun _ => locals) (undisturbed.retaining _) decoded defined
    ended
  obtain ⟨_, _, finalEnded, total_eq⟩ := executes_staged
    (fetching.retaining fun _ => locals) (undisturbed.retaining _) decoded defined
    executes
  obtain ⟨rfl, frame_eq⟩ := Prod.mk.inj (runCalls_unique ended finalEnded)
  exact ⟨final, executes, congrArg Frame.core frame_eq.symm,
    total_eq.trans (Nat.add_assoc _ _ _).symm⟩

theorem not_determined_of_static {routine : Routine} {mode : AddressingMode}
    {start : Run (Traced μ)} (fetching : start.Fetching) (undisturbed : start.Undisturbed)
    (decoded : start.executor.dialect.lookup start.nextOpcode = Dispatch.slot routine mode)
    (defined : mode ≠ .undefined) (assigned : mode ∈ routine.modes)
    (loose : mode ∈ routine.looseModes) : ¬ start.Determined .static := by
  refine not_determined_of_distinguishes (routine.static mode)
    (start.loop.totalCycles + 2) (fun locals => ?_)
    (routine.static_distinguishes assigned loose _ _)
  obtain ⟨final, executes, memory_eq, registers_eq, total_eq⟩ := exists_executes_static
    (fetching.retaining fun _ => locals) (undisturbed.retaining _) decoded defined
    locals
  exact ⟨final, executes, congrArg₂ Core.mk memory_eq registers_eq,
    total_eq.trans (Nat.add_assoc _ _ _).symm⟩

/-- The outcome of an instruction depends only on the registers and the memory exactly when its
opcode is not one whose function uses a local that the instruction has not assigned. -/
theorem determined_iff (execMode : ExecMode) (start : Run (Traced μ)) (fetching : start.Fetching)
    (undisturbed : start.Undisturbed)
    (defined : (start.executor.dialect.lookup start.nextOpcode).addressingMode ≠ .undefined) :
    start.Determined execMode ↔
      start.nextOpcode ∉ start.executor.dialect.unassignedOpcodes execMode := by
  rw [Dialect.lookup_unassigned]
  rcases start.executor.dialect.lookup_cases start.nextOpcode defined with
    ⟨-, zero_eq⟩ | ⟨routine, -, slot_eq, assigned⟩
  · have never : ∀ statics final, ¬ Executes execMode (start.retaining statics) final :=
      fun statics final => not_executes_of_null (fetching.retaining statics)
        (undisturbed.retaining statics) zero_eq final
    refine iff_of_true (fun first second => ⟨?_, fun left _ executes => ?_⟩) ?_
    · exact iff_of_false (fun ends => never first _ ends.choose_spec)
        fun ends => never second _ ends.choose_spec
    · exact absurd executes (never first left)
    · rw [zero_eq]
      rintro ⟨routine, function_eq, -⟩
      cases execMode <;> cases function_eq
  · rw [slot_eq]
    constructor
    · rintro determined ⟨named, function_eq, unassigned⟩
      cases execMode with
      | staged =>
          obtain rfl : routine = named := Option.some.inj function_eq
          exact not_determined_of_staged fetching undisturbed slot_eq defined assigned unassigned
            determined
      | static =>
          obtain rfl : routine = named := Option.some.inj function_eq
          exact not_determined_of_static fetching undisturbed slot_eq defined assigned unassigned
            determined
    · intro assignedFirst first second
      have fresh : _ ∉ routine.unassignedModes execMode :=
        fun unassigned => assignedFirst ⟨routine, by cases execMode <;> rfl, unassigned⟩
      cases execMode with
      | staged =>
          have forgets := routine.staged_forgets (μ := Traced μ) assigned fresh
          refine ⟨⟨fun ends => ?_, fun ends => ?_⟩, fun left right executes rightExecutes => ?_⟩
          · exact (executes_staged_alike fetching undisturbed slot_eq defined forgets
              ends.choose_spec).1
          · exact (executes_staged_alike fetching undisturbed slot_eq defined forgets
              ends.choose_spec).1
          · obtain ⟨core_eq, total_eq⟩ := (executes_staged_alike fetching undisturbed slot_eq
              defined forgets executes).2 right rightExecutes
            obtain ⟨memory_eq, registers_eq⟩ := Core.mk.inj core_eq
            exact ⟨registers_eq, congrArg _ memory_eq, congrArg _ memory_eq, total_eq⟩
      | static =>
          have ends : ∀ statics, ∃ final, Executes .static (start.retaining statics) final :=
            fun statics => (exists_executes_static (fetching.retaining statics)
              (undisturbed.retaining statics) slot_eq defined Locals.zero).imp
              fun _ ended => ended.1
          refine ⟨iff_of_true (ends first) (ends second), ?_⟩
          intro left right executes rightExecutes
          obtain ⟨core_eq, total_eq⟩ := executes_static_alike fetching undisturbed slot_eq defined
            (routine.static_forgets assigned fresh) executes rightExecutes
          obtain ⟨memory_eq, registers_eq⟩ := Core.mk.inj core_eq
          exact ⟨registers_eq, congrArg _ memory_eq, congrArg _ memory_eq, total_eq⟩

/-- A launch on a memory filled with one byte, with no bus access made so far. -/
def filled (dialect : Dialect) (value : Byte) : Run (Traced Ram) :=
  Run.launch (Executor.alloc Registers.reset { bus := fun _ => value, log := [] } dialect)
    { addrLo := 0, addrLen := 0xFFFF } 0x0200 Loop.zero

/-- `LDA #` forgets what it retains. -/
theorem determined_A9 : (filled .base 0xA9).Determined .staged :=
  (determined_iff .staged (filled .base 0xA9) ⟨rfl, rfl, by decide⟩ ⟨rfl, rfl⟩ (by decide)).mpr
    (by decide)

/-- `STZ` to the zero page writes to the address that an earlier instruction left behind. -/
theorem not_determined_64 :
    (Dialect.cmos.lookup 0x64).addressingMode = .zeropage ∧
      ¬ (filled .cmos 0x64).Determined .staged := by
  have decoded : Dialect.cmos.lookup 0x64 = Dispatch.slot .STZ65C02 .zeropage := by decide
  refine ⟨by rw [decoded]; rfl, ?_⟩
  exact not_determined_of_staged ⟨rfl, rfl, by decide⟩ ⟨rfl, rfl⟩ decoded
    (by decide) (by decide) (by decide)

end Run
end System6502
