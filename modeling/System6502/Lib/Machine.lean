import Mathlib.Data.List.Basic

/-!
# Input-driven machines

A machine takes one step per input and emits the events of that step.  This file gives the runs
of a machine, the rule that carries an invariant along a run, and the rule that turns an exact
condition for one step into an exact condition for a run.
-/

namespace System6502
namespace Lib

/-- A deterministic machine with states, inputs and emitted events. -/
structure Machine (state input event : Type*) where
  /-- One step: the next state and the events it emits. -/
  step : state → input → state × List event

namespace Machine

variable {state input event : Type*} (machine : Machine state input event)

/-- The state after a list of inputs. -/
def run (start : state) : List input → state
  | [] => start
  | first :: rest => run (machine.step start first).1 rest

/-- The events of a run, in order. -/
def trace (start : state) : List input → List event
  | [] => []
  | first :: rest => (machine.step start first).2 ++ trace (machine.step start first).1 rest

/-- A condition on states and inputs that every step of a run meets. -/
def Meets (condition : state → input → Prop) (start : state) : List input → Prop
  | [] => True
  | first :: rest =>
      condition start first ∧ Meets condition (machine.step start first).1 rest

instance decidableMeets (condition : state → input → Prop)
    [decide : ∀ current given, Decidable (condition current given)] (start : state) :
    (inputs : List input) → Decidable (machine.Meets condition start inputs)
  | [] => inferInstanceAs (Decidable True)
  | first :: rest =>
      have := decidableMeets condition (machine.step start first).1 rest
      inferInstanceAs (Decidable (_ ∧ _))

/-- A run that reaches a goal at its end and not before. -/
def Arrives (goal : state → Prop) (start : state) (inputs : List input) (final : state) : Prop :=
  machine.Meets (fun current _ => ¬ goal current) start inputs ∧
    machine.run start inputs = final ∧ goal final

@[simp]
theorem run_nil (start : state) : machine.run start [] = start := rfl

@[simp]
theorem run_cons (start : state) (first : input) (rest : List input) :
    machine.run start (first :: rest) = machine.run (machine.step start first).1 rest := rfl

theorem run_append (start : state) (front back : List input) :
    machine.run start (front ++ back) = machine.run (machine.run start front) back := by
  induction front generalizing start with
  | nil => rfl
  | cons first rest ih => exact ih (machine.step start first).1

theorem trace_append (start : state) (front back : List input) :
    machine.trace start (front ++ back) =
      machine.trace start front ++ machine.trace (machine.run start front) back := by
  induction front generalizing start with
  | nil => rfl
  | cons first rest ih =>
      simp only [List.cons_append, trace, run_cons, List.append_assoc, ih]

theorem meets_append (condition : state → input → Prop) (start : state)
    (front back : List input) :
    machine.Meets condition start (front ++ back) ↔
      machine.Meets condition start front ∧
        machine.Meets condition (machine.run start front) back := by
  induction front generalizing start with
  | nil => simp [Meets]
  | cons first rest ih => simp only [List.cons_append, Meets, run_cons, ih, and_assoc]

theorem arrives_nil {goal : state → Prop} {start final : state} :
    machine.Arrives goal start [] final ↔ start = final ∧ goal final := by
  simp [Arrives, Meets]

theorem arrives_cons {goal : state → Prop} {start final : state} {first : input}
    {rest : List input} :
    machine.Arrives goal start (first :: rest) final ↔
      ¬ goal start ∧ machine.Arrives goal (machine.step start first).1 rest final := by
  simp only [Arrives, Meets, run_cons, and_assoc]

/-- A run that starts at the goal has already arrived. -/
theorem Arrives.eq_of_goal {goal : state → Prop} {start final : state} {inputs : List input}
    (arrives : machine.Arrives goal start inputs final) (here : goal start) :
    inputs = [] ∧ start = final := by
  cases inputs with
  | nil => exact ⟨rfl, (machine.arrives_nil.mp arrives).1⟩
  | cons first rest => exact absurd here (machine.arrives_cons.mp arrives).1

/-- A run that has arrived does not arrive a second time. -/
theorem Arrives.eq_nil_of_append {goal : state → Prop} {start final last : state}
    {front back : List input} (arrives : machine.Arrives goal start front final)
    (again : machine.Arrives goal start (front ++ back) last) : back = [] := by
  obtain ⟨-, rfl, here⟩ := arrives
  obtain ⟨away, run_eq, goal_last⟩ := again
  rw [meets_append] at away
  rw [run_append] at run_eq
  exact (Arrives.eq_of_goal machine ⟨away.2, run_eq, goal_last⟩ here).1

/-- An invariant of every step is an invariant of every run. -/
theorem invariant_run {invariant : state → Prop}
    (preserved : ∀ current given, invariant current → invariant (machine.step current given).1)
    (start : state) (inputs : List input) (initial : invariant start) :
    invariant (machine.run start inputs) := by
  induction inputs generalizing start with
  | nil => exact initial
  | cons first rest ih => exact ih _ (preserved start first initial)

/-- A run meets a condition exactly when every split of it does at the step of the split. -/
theorem meets_iff_forall_split (condition : state → input → Prop) (start : state)
    (inputs : List input) :
    machine.Meets condition start inputs ↔
      ∀ front given back, inputs = front ++ given :: back →
        condition (machine.run start front) given := by
  constructor
  · rintro meets front given back rfl
    rw [meets_append] at meets
    exact meets.2.1
  · intro split
    induction inputs generalizing start with
    | nil => trivial
    | cons first rest ih =>
        refine ⟨split [] first rest rfl, ih _ fun front given back rest_eq => ?_⟩
        exact split (first :: front) given back (by rw [rest_eq, List.cons_append])

theorem meets_of_forall {condition : state → input → Prop}
    (always : ∀ current given, condition current given) (start : state) (inputs : List input) :
    machine.Meets condition start inputs := by
  induction inputs generalizing start with
  | nil => trivial
  | cons first rest ih => exact ⟨always start first, ih _⟩

theorem meets_mono {weak strong : state → input → Prop}
    (weaker : ∀ current given, strong current given → weak current given) {start : state}
    {inputs : List input} (meets : machine.Meets strong start inputs) :
    machine.Meets weak start inputs := by
  induction inputs generalizing start with
  | nil => trivial
  | cons first rest ih => exact ⟨weaker start first meets.1, ih meets.2⟩

/-- What holds of the events of every step of a run holds of all its events. -/
theorem forall_mem_trace {property : event → Prop} {start : state} {inputs : List input}
    (meets : machine.Meets
      (fun current given => ∀ emitted ∈ (machine.step current given).2, property emitted)
      start inputs) :
    ∀ emitted ∈ machine.trace start inputs, property emitted := by
  induction inputs generalizing start with
  | nil => exact fun _ absurdly => nomatch absurdly
  | cons first rest ih =>
      intro emitted emitted_mem
      rcases List.mem_append.mp emitted_mem with here | later
      · exact meets.1 emitted here
      · exact ih meets.2 emitted later

/-- A condition on the inputs alone is met exactly when every input satisfies it. -/
theorem meets_inputs (condition : input → Prop) (start : state) (inputs : List input) :
    machine.Meets (fun _ given => condition given) start inputs ↔
      ∀ given ∈ inputs, condition given := by
  induction inputs generalizing start with
  | nil => simp [Meets]
  | cons first rest ih => simp only [Meets, ih, List.forall_mem_cons]

/-- Two step conditions that agree under an invariant on the steps of a run that meets a third
one are met by the same such runs, when the invariant survives every step that meets one of them. -/
theorem meets_congr_of_meets {invariant : state → Prop} {valid left right : state → input → Prop}
    (agree : ∀ current given, invariant current → valid current given →
      (left current given ↔ right current given))
    (preserved : ∀ current given, invariant current → valid current given →
      right current given → invariant (machine.step current given).1)
    (start : state) (inputs : List input) (initial : invariant start)
    (meets : machine.Meets valid start inputs) :
    machine.Meets left start inputs ↔ machine.Meets right start inputs := by
  induction inputs generalizing start with
  | nil => exact Iff.rfl
  | cons first rest ih =>
      simp only [Meets]
      rw [agree start first initial meets.1]
      refine and_congr_right fun holds => ?_
      exact ih _ (preserved start first initial meets.1 holds) meets.2

/-- Two step conditions that agree under an invariant are met by the same runs, when the
invariant survives every step that meets one of them. -/
theorem meets_congr {invariant : state → Prop} {left right : state → input → Prop}
    (agree : ∀ current given, invariant current → (left current given ↔ right current given))
    (preserved : ∀ current given, invariant current → right current given →
      invariant (machine.step current given).1)
    (start : state) (inputs : List input) (initial : invariant start) :
    machine.Meets left start inputs ↔ machine.Meets right start inputs :=
  machine.meets_congr_of_meets (fun current given holds _ => agree current given holds)
    (fun current given holds _ => preserved current given holds) start inputs initial
    (machine.meets_of_forall (fun _ _ => trivial) start inputs)

/-- Two step conditions that always agree are met by the same runs. -/
theorem meets_iff {left right : state → input → Prop}
    (agree : ∀ current given, left current given ↔ right current given)
    (start : state) (inputs : List input) :
    machine.Meets left start inputs ↔ machine.Meets right start inputs := by
  have same : left = right := funext₂ fun current given => propext (agree current given)
  rw [same]

end Machine
end Lib
end System6502
