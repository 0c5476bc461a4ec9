import System6502.Registers
import Mathlib.Logic.Function.Basic

/-!
# Memory buses

The instruction functions see memory only through `membus_read_addr` and `membus_write_addr`.
A bus is therefore any state type with these two operations; a plain memory array, a bus that
logs its accesses and the module registry of the library are instances.
-/

namespace System6502

/-- The two bus operations an instruction function may perform. -/
class Membus (μ : Type*) where
  /-- `membus_read_addr`; a read may change the state of a device on the bus. -/
  readAddr : μ → Word → Byte × μ
  /-- `membus_write_addr`. -/
  writeAddr : μ → Word → Byte → μ

/-- A memory array that backs every address. -/
abbrev Ram := Word → Byte

instance : Membus Ram where
  readAddr ram address := (ram address, ram)
  writeAddr ram address value := Function.update ram address value

@[simp]
theorem Ram.readAddr_eq (ram : Ram) (address : Word) :
    Membus.readAddr ram address = (ram address, ram) := rfl

@[simp]
theorem Ram.writeAddr_eq (ram : Ram) (address : Word) (value : Byte) :
    Membus.writeAddr ram address value = Function.update ram address value := rfl

/-- One access made through a bus. -/
inductive Access
  | read (address : Word) (value : Byte)
  | write (address : Word) (value : Byte)
  deriving DecidableEq, Repr

/-- A bus together with the accesses made through it, most recent first. -/
structure Traced (μ : Type*) where
  /-- The underlying bus. -/
  bus : μ
  /-- Accesses made so far, most recent first. -/
  log : List Access

namespace Traced

instance {μ : Type*} [Membus μ] : Membus (Traced μ) where
  readAddr traced address :=
    let result := Membus.readAddr traced.bus address
    (result.1, { bus := result.2, log := .read address result.1 :: traced.log })
  writeAddr traced address value :=
    { bus := Membus.writeAddr traced.bus address value
      log := .write address value :: traced.log }

/-- The writes of an access log, most recent first. -/
def writes : List Access → List (Word × Byte)
  | [] => []
  | .read _ _ :: log => writes log
  | .write address value :: log => (address, value) :: writes log

end Traced

/-- The address of a vector word at the top of memory. -/
def memoryAddrNMIVector : Word := 0xFFFA

/-- The reset vector. -/
def memoryAddrRESVector : Word := 0xFFFC

/-- The interrupt-request vector. -/
def memoryAddrIRQVector : Word := 0xFFFE

end System6502
