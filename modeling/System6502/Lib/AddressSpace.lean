import Mathlib.Logic.Function.Basic
import Mathlib.Data.Option.Basic

/-!
# Address spaces

Memory that is reached through addresses.  Several addresses may lead to one cell, an address may
lead reads and writes to different cells, and it may lead to none.
-/

namespace System6502

namespace Lib

/-- Where the addresses lead. -/
structure AddressSpace (α ι : Type*) where
  /-- The cell that a read of an address is answered from. -/
  readSite : α → Option ι
  /-- The cell that a write to an address changes. -/
  writeSite : α → Option ι

namespace AddressSpace

variable {α ι β : Type*} [DecidableEq ι] (space : AddressSpace α ι)

omit [DecidableEq ι] in
/-- A read; an address that leads nowhere has a byte of its own. -/
def read (contents : ι → β) (floating : β) (addr : α) : β :=
  (space.readSite addr).elim floating contents

/-- A write. -/
def write (contents : ι → β) (addr : α) (value : β) : ι → β :=
  (space.writeSite addr).elim contents fun site => Function.update contents site value

/-- The value last written to a cell, through whatever address. -/
def lastAt (site : ι) : List (α × β) → Option β
  | [] => none
  | (addr, value) :: rest =>
      (lastAt site rest).or (if space.writeSite addr = some site then some value else none)

theorem write_apply (contents : ι → β) (addr : α) (value : β) (site : ι) :
    space.write contents addr value site =
      if space.writeSite addr = some site then value else contents site := by
  rw [write]
  cases target : space.writeSite addr with
  | none => rfl
  | some other =>
      simp only [Option.elim_some, Function.update_apply, Option.some.injEq, eq_comm (a := site)]

/-- After some writes a cell holds the value last written to it. -/
theorem foldl_write (contents : ι → β) (writes : List (α × β)) (site : ι) :
    writes.foldl (fun contents write => space.write contents write.1 write.2) contents site =
      (space.lastAt site writes).getD (contents site) := by
  induction writes generalizing contents with
  | nil => rfl
  | cons first rest ih =>
      rw [List.foldl_cons, ih, write_apply, lastAt]
      cases space.lastAt site rest with
      | some value => rfl
      | none =>
          simp only [Option.getD_none, Option.none_or]
          split <;> rfl

end AddressSpace

end Lib

end System6502
