import Mathlib.Algebra.Group.Basic
import Mathlib.Data.Int.Cast.Defs

/-!
# Descending stacks in a ring of cells

A pointer moves down when a value is pushed and up when one is pulled, and its arithmetic wraps.
The values of the stack lie in the cells above the pointer.  The ring has room for as many values
as it takes steps to come back to a cell.
-/

namespace System6502
namespace Lib
namespace RingStack

variable {index value : Type*} [AddGroupWithOne index]

/-- The cells above a pointer hold a list of values, the first of them nearest. -/
def Holds (cells : index → value) : index → List value → Prop
  | _, [] => True
  | pointer, first :: rest => cells (pointer + 1) = first ∧ Holds cells (pointer + 1) rest

/-- The cells that a stack of a given depth occupies. -/
def Live : index → Nat → index → Prop
  | _, 0, _ => False
  | pointer, depth + 1, cell => cell = pointer + 1 ∨ Live (pointer + 1) depth cell

/-- No fewer steps than `size` lead from a cell back to itself. -/
def Spacious (index : Type*) [AddGroupWithOne index] (size : Nat) : Prop :=
  ∀ step : Nat, 0 < step → step < size → (step : index) ≠ 0

theorem add_one_add_cast (pointer : index) (step : Nat) :
    pointer + 1 + (step : index) = pointer + (step + 1 : Nat) := by
  rw [Nat.add_comm step 1, Nat.cast_add, Nat.cast_one, add_assoc]

theorem live_iff {pointer cell : index} {depth : Nat} :
    Live pointer depth cell ↔ ∃ step : Nat, 0 < step ∧ step ≤ depth ∧ cell = pointer + step := by
  induction depth generalizing pointer with
  | zero =>
      refine iff_of_false id ?_
      rintro ⟨step, positive, step_le, -⟩
      omega
  | succ depth ih =>
      rw [Live, ih]
      constructor
      · rintro (rfl | ⟨step, positive, bounded, rfl⟩)
        · exact ⟨1, by omega, by omega, by rw [Nat.cast_one]⟩
        · exact ⟨step + 1, by omega, by omega, add_one_add_cast pointer step⟩
      · rintro ⟨step, positive, bounded, rfl⟩
        obtain ⟨before, rfl⟩ := Nat.exists_eq_succ_of_ne_zero (Nat.pos_iff_ne_zero.mp positive)
        rcases Nat.eq_zero_or_pos before with rfl | later
        · exact .inl (by simp)
        · exact .inr ⟨before, later, by omega, (add_one_add_cast pointer before).symm⟩

/-- A stack that does not fill the ring leaves the cell at its pointer free. -/
theorem not_live_pointer {size depth : Nat} (spacious : Spacious index size) (room : depth < size)
    (pointer : index) : ¬ Live pointer depth pointer := by
  rw [live_iff]
  rintro ⟨step, positive, bounded, cell_eq⟩
  exact spacious step positive (by omega) (left_eq_add.mp cell_eq)

/-- A stack keeps its values when its cells keep theirs. -/
theorem Holds.congr {cells other : index → value} {pointer : index} {values : List value}
    (holds : Holds cells pointer values)
    (kept : ∀ cell, Live pointer values.length cell → other cell = cells cell) :
    Holds other pointer values := by
  induction values generalizing pointer with
  | nil => trivial
  | cons first rest ih =>
      refine ⟨(kept _ (.inl rfl)).trans holds.1, ih holds.2 fun cell live => ?_⟩
      exact kept cell (.inr live)

/-- Storing a value at the pointer and moving the pointer down pushes the value. -/
theorem Holds.push [DecidableEq index] {cells : index → value} {pointer : index}
    {values : List value} {size : Nat} (spacious : Spacious index size)
    (holds : Holds cells pointer values) (room : values.length < size) (pushed : value) :
    Holds (Function.update cells pointer pushed) (pointer - 1) (pushed :: values) := by
  rw [Holds, sub_add_cancel]
  refine ⟨Function.update_self _ _ _, holds.congr fun cell live => ?_⟩
  refine Function.update_of_ne (fun cell_eq => ?_) _ _
  subst cell_eq
  exact not_live_pointer spacious room cell live

end RingStack
end Lib
end System6502
