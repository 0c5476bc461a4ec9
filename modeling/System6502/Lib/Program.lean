import Mathlib.Tactic.TypeStar

/-!
# Programs whose steps have costs

A deterministic program takes a state to the next one at a cost, or stops.  This file gives the
relation between a state and those it leads to, and puts two stretches of a run together.
-/

namespace System6502
namespace Lib

/-- A deterministic program with costs. -/
structure Program (state : Type*) where
  /-- One step, with its cost; a state without a step is final. -/
  step : state → Option (Nat × state)

namespace Program

variable {state : Type*} {program : Program state}

/-- Some steps lead from one state to another at a total cost. -/
inductive Leads (program : Program state) : state → Nat → state → Prop
  /-- No step. -/
  | refl (here : state) : Leads program here 0 here
  /-- A first step and more. -/
  | step {before middle after : state} {cost rest : Nat}
      (moves : program.step before = some (cost, middle))
      (further : Leads program middle rest after) : Leads program before (cost + rest) after

/-- A state without a step. -/
def Final (program : Program state) (here : state) : Prop := program.step here = none

theorem Leads.single {before after : state} {cost : Nat}
    (moves : program.step before = some (cost, after)) : program.Leads before cost after :=
  .step moves (.refl after)

theorem Leads.trans {first second third : state} {cost rest : Nat}
    (front : program.Leads first cost second) (back : program.Leads second rest third) :
    program.Leads first (cost + rest) third := by
  induction front with
  | refl => rwa [Nat.zero_add]
  | step moves _ ih =>
      rw [Nat.add_assoc]
      exact .step moves (ih back)

/-- A program that answers every step of another by a step of its own at the same cost leads
wherever that one leads. -/
theorem Leads.simulate {other : Type*} {follower : Program other}
    {relation : state → other → Prop}
    (answers : ∀ before cost after image, program.step before = some (cost, after) →
      relation before image →
        ∃ next, follower.step image = some (cost, next) ∧ relation after next)
    {before after : state} {cost : Nat} (leads : program.Leads before cost after)
    {image : other} (related : relation before image) :
    ∃ next, follower.Leads image cost next ∧ relation after next := by
  induction leads generalizing image with
  | refl here => exact ⟨image, .refl image, related⟩
  | step moves _ ih =>
      obtain ⟨middle, answered, kept⟩ := answers _ _ _ image moves related
      obtain ⟨next, further, ends⟩ := ih kept
      exact ⟨next, .step answered further, ends⟩

end Program
end Lib
end System6502
