import System6502.Executor.Locking
import System6502.Membus.Composition

/-!
# What a hard reset erases

Executors with the default components, whatever they have done before, and the histories after
which `executor_hard_reset` leaves the state that its documentation promises.
-/

namespace System6502

open Lib

/-! ## Histories -/

/-- What happens to an executor: a call of the library, or a byte written through its bus. -/
inductive Deed
  | call (call : LockingCall)
  | write (address : Word) (value : Byte)

namespace Executor

section Histories

variable {μ : Type*} [Membus μ]

/-- The executor after a deed. -/
def perform (executor : Executor μ) : Deed → Executor μ
  | .call call => call.apply executor
  | .write address value =>
      { executor with memory := Membus.writeAddr executor.memory address value }

/-- The executor after a history. -/
def after (executor : Executor μ) (history : List Deed) : Executor μ :=
  history.foldl perform executor

/-- The byte read through the bus. -/
def byteAt (executor : Executor μ) (address : Word) : Byte :=
  (Membus.readAddr executor.memory address).1

@[simp]
theorem byteAt_hardReset (executor : Executor μ) : executor.hardReset.byteAt = executor.byteAt :=
  rfl

end Histories

end Executor

end System6502
