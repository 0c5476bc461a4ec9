import Mathlib.Data.BitVec

/-!
# The register file

The six registers of the processor and the status-register updates shared by the instruction
functions.  A register is a bit vector of the width the source declares for it, so every wrap
of the hardware is the wrap of the type.
-/

namespace System6502

/-- An eight-bit value, the source's `uint8_t`. -/
abbrev Byte := BitVec 8

/-- A sixteen-bit value, the source's `uint16_t`. -/
abbrev Word := BitVec 16

namespace Byte

/-- The implicit conversion of a `uint8_t` to a `uint16_t`. -/
def toWord (value : Byte) : Word := value.setWidth 16

theorem toWord_or (left right : Byte) :
    left.toWord ||| right.toWord = (left ||| right).toWord := by
  simp [toWord]

end Byte

namespace Word

/-- The implicit conversion of a `uint16_t` to a `uint8_t`. -/
def toByte (value : Word) : Byte := value.setWidth 8

/-- The byte `(value & 0xFF00) >> 8`. -/
def high (value : Word) : Byte := (value >>> 8).setWidth 8

/-- The byte `value & 0x00FF`. -/
def low (value : Word) : Byte := value.setWidth 8

/-- The word `low | (high << 8)`. -/
def littleEndian (low high : Byte) : Word := low.toWord ||| (high.toWord <<< 8)

/-- Two addresses lie in the same page when their high bytes agree. -/
def SamePage (left right : Word) : Prop := left &&& 0xFF00 = right &&& 0xFF00

instance (left right : Word) : Decidable (SamePage left right) :=
  inferInstanceAs (Decidable (left &&& 0xFF00 = right &&& 0xFF00))

@[simp]
theorem toByte_toWord (value : Byte) : value.toWord.toByte = value := by
  simp [Byte.toWord, toByte]

theorem toWord_inj {value other : Byte} : value.toWord = other.toWord ↔ value = other := by
  refine ⟨fun word_eq => ?_, fun value_eq => by rw [value_eq]⟩
  rw [← toByte_toWord value, word_eq, toByte_toWord]

@[simp]
theorem littleEndian_low_high (value : Word) : littleEndian value.low value.high = value := by
  ext index index_lt
  simp [littleEndian, low, high, Byte.toWord]
  grind

@[simp]
theorem low_littleEndian (low high : Byte) : (littleEndian low high).low = low := by
  ext index index_lt
  simp [littleEndian, Word.low, Byte.toWord]

@[simp]
theorem high_littleEndian (low high : Byte) : (littleEndian low high).high = high := by
  ext index index_lt
  simp [littleEndian, Word.high, Byte.toWord]
  grind

@[simp]
theorem low_toWord_or (left right : Byte) :
    (left.toWord ||| right.toWord).low = left ||| right := by
  ext index index_lt
  simp [Word.low, Byte.toWord]

theorem page_mask : ∀ index : Fin 16, (0xFF00 : Word)[index] = decide (8 ≤ index.val) := by
  decide

theorem toNat_page (value : Word) : (value &&& 0xFF00).toNat = value.toNat / 256 * 256 := by
  have shifted : value &&& (0xFF00 : Word) = (value >>> 8) <<< 8 := by
    ext index index_lt
    have mask := page_mask ⟨index, index_lt⟩
    simp only [Fin.getElem_fin] at mask
    rw [BitVec.getElem_and, mask, BitVec.getElem_shiftLeft]
    by_cases below : index < 8
    · simp [below]
    · simp [below, BitVec.getLsbD_eq_getElem index_lt, show 8 ≤ index by omega]
  have := value.isLt
  rw [shifted]
  simp only [BitVec.toNat_shiftLeft, BitVec.toNat_ushiftRight, Nat.shiftRight_eq_div_pow,
    Nat.shiftLeft_eq]
  omega

/-- Indexing stays in the page of its base exactly when the low byte does not overflow. -/
theorem samePage_add_iff (base : Word) (index : Byte) :
    base.SamePage (base + index.toWord) ↔ base.low.toNat + index.toNat < 256 := by
  have := base.isLt
  have := index.isLt
  rw [SamePage, ← BitVec.toNat_inj, toNat_page, toNat_page]
  simp only [BitVec.toNat_add, Byte.toWord, low, BitVec.toNat_setWidth]
  omega

end Word

/-- What an update of the status register does with the carry bit. -/
inductive Carry
  | clear
  | set
  | ignore
  deriving DecidableEq, Repr

namespace Carry

/-- The carry update of a C truth value. -/
def ofBool (carry : Bool) : Carry := if carry then .set else .clear

end Carry

/-- The 6502 registers. -/
structure Registers where
  /-- Accumulator. -/
  A : Byte
  /-- X-index. -/
  X : Byte
  /-- Y-index. -/
  Y : Byte
  /-- Stack pointer into page one. -/
  SP : Byte
  /-- Program counter. -/
  PC : Word
  /-- Status register. -/
  SR : Byte
  deriving DecidableEq, Repr

namespace Registers

/-- Carry bit of the status register. -/
def bitC : Byte := 0x01
/-- Zero bit of the status register. -/
def bitZ : Byte := 0x02
/-- Interrupt-inhibit bit of the status register. -/
def bitI : Byte := 0x04
/-- Decimal-mode bit of the status register. -/
def bitD : Byte := 0x08
/-- Break bit of the status register. -/
def bitB : Byte := 0x10
/-- Ignored bit of the status register. -/
def bitIGN : Byte := 0x20
/-- Overflow bit of the status register. -/
def bitV : Byte := 0x40
/-- Sign bit of the status register. -/
def bitN : Byte := 0x80

/-- `registers_SR_get_bit`. -/
def getBit (registers : Registers) (whichBit : Byte) : Bool :=
  registers.SR &&& whichBit != 0

/-- The numeric value of a status bit, as the arithmetic of the source uses it. -/
def bitValue (registers : Registers) (whichBit : Byte) : Word :=
  if registers.getBit whichBit then 1 else 0

/-- `registers_SR_set_bit`. -/
def setBit (registers : Registers) (whichBit : Byte) (value : Bool) : Registers :=
  { registers with
    SR := if value then registers.SR ||| whichBit else registers.SR &&& ~~~whichBit }

/-- `registers_status_with_value`. -/
def statusWithValue (registers : Registers) (value : Byte) (carry : Carry) : Registers :=
  let updated := (registers.setBit bitZ (value == 0)).setBit bitN (value &&& 0x80 == 0x80)
  match carry with
  | .clear => updated.setBit bitC false
  | .set => updated.setBit bitC true
  | .ignore => updated

/-- `registers_did_set_A`. -/
def didSetA (registers : Registers) (carry : Carry) : Registers :=
  registers.statusWithValue registers.A carry

/-- `registers_did_set_X`. -/
def didSetX (registers : Registers) (carry : Carry) : Registers :=
  registers.statusWithValue registers.X carry

/-- `registers_did_set_Y`. -/
def didSetY (registers : Registers) (carry : Carry) : Registers :=
  registers.statusWithValue registers.Y carry

/-- `registers_reset`. -/
def reset : Registers := { A := 0, X := 0, Y := 0, SP := 0, PC := 0xFFFC, SR := 0 }

end Registers
end System6502
