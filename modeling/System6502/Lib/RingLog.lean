import Mathlib.Algebra.Group.Basic
import Mathlib.Data.Int.Cast.Defs

/-!
# Rings that keep the last entries of a log

A counter goes up when an entry is pushed and down when one is popped.  The entry lies in the slot
of its counter, so that a slot is used again after as many pushes as it takes to come back to it.
-/

namespace System6502
namespace Lib
namespace RingLog

variable {counter index value : Type*} [AddGroupWithOne counter] (slot : counter → index)

/-- The entry at a depth below a counter, the last one pushed at depth zero. -/
def entry (cells : index → value) (next : counter) (depth : Nat) : value :=
  cells (slot (next - (depth + 1 : Nat)))

/-- Fewer than `size` steps down lead to another slot. -/
def Spacious (size : Nat) : Prop :=
  ∀ (next : counter) (step : Nat), 0 < step → step < size → slot (next - step) ≠ slot next

variable {slot} {cells : index → value} {next : counter}

theorem sub_one_sub_cast (next : counter) (step : Nat) :
    next - 1 - (step : counter) = next - (step + 1 : Nat) := by
  rw [Nat.cast_add, Nat.cast_one, sub_add_eq_sub_sub_swap]

/-- A pop uncovers the entry below. -/
theorem entry_pop (depth : Nat) :
    entry slot cells (next - 1) depth = entry slot cells next (depth + 1) := by
  rw [entry, entry, sub_one_sub_cast]

variable [DecidableEq index]

/-- The entry that is pushed is the topmost one. -/
theorem entry_push_zero (pushed : value) :
    entry slot (Function.update cells (slot next) pushed) (next + 1) 0 = pushed := by
  rw [entry, Nat.zero_add, Nat.cast_one, add_sub_cancel_right, Function.update_self]

/-- A push moves the other entries down; the one at the bottom gives way. -/
theorem entry_push_succ {size : Nat} (spacious : Spacious slot size) (pushed : value)
    {depth : Nat} (kept : depth + 1 < size) :
    entry slot (Function.update cells (slot next) pushed) (next + 1) (depth + 1) =
      entry slot cells next depth := by
  have apart := spacious next (depth + 1) (Nat.succ_pos depth) kept
  rw [entry, entry, ← sub_one_sub_cast, add_sub_cancel_right, Function.update_of_ne apart]

/-- The entry at a depth below a list of pushed entries, the last one first. -/
def entryBelow (pushed : List value) (entries : Nat → value) (depth : Nat) : value :=
  pushed[depth]?.getD (entries (depth - pushed.length))

theorem entryBelow_cons_zero (first : value) (rest : List value) (entries : Nat → value) :
    entryBelow (first :: rest) entries 0 = first := rfl

theorem entryBelow_cons_succ (first : value) (rest : List value) (entries : Nat → value)
    (depth : Nat) :
    entryBelow (first :: rest) entries (depth + 1) = entryBelow rest entries depth := by
  simp [entryBelow]

/-- A push on top of a list of pushed entries extends the list. -/
theorem entry_push {size : Nat} (spacious : Spacious slot size) {pushed : List value}
    {entries : Nat → value}
    (holds : ∀ depth < size, entry slot cells next depth = entryBelow pushed entries depth)
    (first : value) {depth : Nat} (within : depth < size) :
    entry slot (Function.update cells (slot next) first) (next + 1) depth =
      entryBelow (first :: pushed) entries depth := by
  cases depth with
  | zero => rw [entry_push_zero, entryBelow_cons_zero]
  | succ depth =>
      rw [entry_push_succ spacious first within, entryBelow_cons_succ]
      exact holds depth (Nat.lt_of_succ_lt within)

end RingLog
end Lib
end System6502
