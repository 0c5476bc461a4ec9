import System6502.Registers

/-!
# Address ranges

`memory_addr_range_t` and the operations on it that the bus and the executor use.  An address
computation that the source carries out in `uint32_t` or `int` is done in `Nat`, where it cannot
wrap.
-/

namespace System6502

/-- `memory_addr_range_t`. -/
structure MemoryAddrRange where
  /-- First address of the range. -/
  addrLo : Word
  /-- Number of addresses in the range. -/
  addrLen : Word
  deriving DecidableEq, Repr

namespace MemoryAddrRange

/-- `memory_addr_range_with_lo_and_hi`, for both ends inclusive. -/
def withLoAndHi (addrLo addrHi : Word) : MemoryAddrRange where
  addrLo
  addrLen := addrHi - addrLo + 1

/-- `memory_addr_range_get_end`, which is cut off at the last address. -/
def getEnd (range : MemoryAddrRange) : Word :=
  if range.addrLo.toNat + range.addrLen.toNat < 0x10000 then range.addrLo + range.addrLen
  else 0xFFFF

/-- `memory_addr_range_does_include`. -/
def doesInclude (range : MemoryAddrRange) (address : Word) : Bool :=
  range.addrLen != 0 && range.addrLo ≤ address &&
    decide (address.toNat < range.addrLo.toNat + range.addrLen.toNat)

/-- Ranges other than all of memory include what lies between their ends. -/
theorem doesInclude_withLoAndHi {addrLo addrHi : Word} (ordered : addrLo ≤ addrHi)
    (proper : ¬ (addrLo = 0 ∧ addrHi = 0xFFFF)) (address : Word) :
    (withLoAndHi addrLo addrHi).doesInclude address = true ↔
      addrLo ≤ address ∧ address ≤ addrHi := by
  have lo_lt := addrLo.isLt
  have hi_lt := addrHi.isLt
  have addrLen_eq : (addrHi - addrLo + 1).toNat = addrHi.toNat - addrLo.toNat + 1 := by
    bv_omega
  have addrLen_ne : addrHi - addrLo + 1 ≠ 0 := by
    rw [Ne, ← BitVec.toNat_inj, addrLen_eq]
    simp
  simp only [doesInclude, withLoAndHi, addrLen_eq, bne_iff_ne.mpr addrLen_ne, Bool.true_and,
    Bool.and_eq_true, decide_eq_true_eq, BitVec.le_def] at ordered ⊢
  omega

end MemoryAddrRange

/-- A number of addresses from the first on, around the end of memory if need be. -/
def consecutive (first : Word) (count : Nat) : List Word :=
  (List.range count).map fun offset => first + BitVec.ofNat 16 offset

theorem consecutive_add (first : Word) (count further : Nat) :
    consecutive first (count + further) =
      consecutive first count ++ consecutive (first + BitVec.ofNat 16 count) further := by
  simp only [consecutive, List.range_add, List.map_append, List.map_map]
  congr 1
  refine List.map_congr_left fun offset _ => ?_
  simp only [Function.comp_apply, BitVec.ofNat_add, BitVec.add_assoc]

@[simp]
theorem consecutive_zero (first : Word) : consecutive first 0 = [] := rfl

@[simp]
theorem consecutive_one (first : Word) : consecutive first 1 = [first] := by
  simp [consecutive]

end System6502
