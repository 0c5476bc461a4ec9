import System6502.Membus.Transaction

/-!
# Modules that hold bytes

The std64k, byte and paged modules as they are registered on a bus.  In read-write mode each of
them is an array of cells, one for every address that it includes.
-/

namespace System6502

/-- A mode that lets reads through. -/
def ReadsMode (mode : BitVec 32) : Prop := mode &&& moduleModeMask ≠ moduleModeWo

/-- A mode that lets writes through. -/
def WritesMode (mode : BitVec 32) : Prop := mode &&& moduleModeMask ≠ moduleModeRo

instance (mode : BitVec 32) : Decidable (ReadsMode mode) := inferInstanceAs (Decidable (¬ _))

instance (mode : BitVec 32) : Decidable (WritesMode mode) := inferInstanceAs (Decidable (¬ _))

/-! ## The modules -/

/-- `membus_module_std64k_t`. -/
structure MembusModuleStd64k where
  /-- `RAM.BYTES`. -/
  bytes : Word → Byte

namespace MembusModuleStd64k

/-- The addresses of the module. -/
def addrRange : MemoryAddrRange where
  addrLo := 0x0000
  addrLen := 0xFFFF

/-- `__membus_module_std64k_read_addr`. -/
def readAddr (addr : Word) (value : Option Byte) (self : MembusModuleStd64k) :
    Option (OpResult × Byte × MembusModuleStd64k) :=
  value.map fun _ => (.accepted, self.bytes addr, self)

/-- `__membus_module_std64k_write_addr`. -/
def writeAddr (addr : Word) (value : Byte) (self : MembusModuleStd64k) :
    Option (OpResult × MembusModuleStd64k) :=
  some (.accepted, { bytes := Function.update self.bytes addr value })

/-- A module as `membus_module_std64k_alloc` sets it up. -/
def module : MembusModule MembusModuleStd64k where
  addrRange := addrRange
  readCallback := some readAddr
  writeCallback := some writeAddr

end MembusModuleStd64k

/-- `membus_module_byte_t`. -/
structure MembusModuleByte where
  /-- `flags_and_byte`. -/
  flagsAndByte : Word

namespace MembusModuleByte

/-- `membus_module_byte_alloc`. -/
def alloc (mode : BitVec 32) : MembusModuleByte where
  flagsAndByte := ((mode <<< 8) ||| 0x000000CA).setWidth 16

/-- The range of a module at an address. -/
def addrRange (addr : Word) : MemoryAddrRange where
  addrLo := addr
  addrLen := 1

/-- The access mode. -/
def mode (self : MembusModuleByte) : BitVec 32 := (self.flagsAndByte >>> 8).setWidth 32

/-- `__membus_module_byte_read_addr`. -/
def readAddr (value : Option Byte) (self : MembusModuleByte) :
    Option (OpResult × Byte × MembusModuleByte) :=
  if ReadsMode self.mode then value.map fun _ => (.accepted, self.flagsAndByte.low, self)
  else some (.notAccepted, value.getD 0, self)

/-- `__membus_module_byte_write_addr`. -/
def writeAddr (value : Byte) (self : MembusModuleByte) : Option (OpResult × MembusModuleByte) :=
  if WritesMode self.mode then
    some (.accepted, { flagsAndByte := Bus.replaceLow self.flagsAndByte value })
  else some (.notAccepted, self)

end MembusModuleByte

/-- `membus_module_paged_t`. -/
structure MembusModulePaged where
  /-- The access mode. -/
  mode : BitVec 32
  /-- The pages. -/
  pages : Byte → Byte → Byte

namespace MembusModulePaged

/-- The number of pages of a module, cut off at the end of memory. -/
def pageCount (basePage nPages : Byte) : Byte :=
  if basePage.toWord + nPages.toWord > 0x0100 then (0x0100 - basePage.toWord).toByte else nPages

/-- The range of a module. -/
def addrRange (basePage nPages : Byte) : MemoryAddrRange where
  addrLo := basePage.toWord <<< 8
  addrLen := (pageCount basePage nPages).toWord <<< 8

/-- `__membus_module_paged_read_addr`. -/
def readAddr (addrLo addr : Word) (value : Option Byte) (self : MembusModulePaged) :
    Option (OpResult × Byte × MembusModulePaged) :=
  if ReadsMode self.mode then
    value.map fun _ => (.accepted, self.pages (addr - addrLo).high (addr - addrLo).low, self)
  else some (.notAccepted, value.getD 0, self)

/-- `__membus_module_paged_write_addr`. -/
def writeAddr (addrLo addr : Word) (value : Byte) (self : MembusModulePaged) :
    Option (OpResult × MembusModulePaged) :=
  if WritesMode self.mode then
    let page := Function.update (self.pages (addr - addrLo).high) (addr - addrLo).low value
    some (.accepted,
      { self with pages := Function.update self.pages (addr - addrLo).high page })
  else some (.notAccepted, self)

end MembusModulePaged

/-- The kinds of modules that hold bytes, with the arguments of their allocation that fix their
ranges. -/
inductive StorageKind
  | std64k
  | byte (addr : Word)
  | paged (basePage nPages : Byte)
  deriving DecidableEq, Repr

namespace StorageKind

/-- The structure that a module allocates. -/
def Storage : StorageKind → Type
  | std64k => MembusModuleStd64k
  | byte _ => MembusModuleByte
  | paged _ _ => MembusModulePaged

/-- The addresses of a module. -/
def addrRange : StorageKind → MemoryAddrRange
  | std64k => MembusModuleStd64k.addrRange
  | byte addr => MembusModuleByte.addrRange addr
  | paged basePage nPages => MembusModulePaged.addrRange basePage nPages

/-- The read callback of a module. -/
def readAddr : (kind : StorageKind) → Word → Option Byte → kind.Storage →
    Option (OpResult × Byte × kind.Storage)
  | std64k, addr => MembusModuleStd64k.readAddr addr
  | byte _, _ => MembusModuleByte.readAddr
  | paged basePage nPages, addr =>
      MembusModulePaged.readAddr (MembusModulePaged.addrRange basePage nPages).addrLo addr

/-- The write callback of a module. -/
def writeAddr : (kind : StorageKind) → Word → Byte → kind.Storage →
    Option (OpResult × kind.Storage)
  | std64k, addr => MembusModuleStd64k.writeAddr addr
  | byte _, _ => MembusModuleByte.writeAddr
  | paged basePage nPages, addr =>
      MembusModulePaged.writeAddr (MembusModulePaged.addrRange basePage nPages).addrLo addr

/-- A module in read-write mode. -/
def ReadWrite : (kind : StorageKind) → kind.Storage → Prop
  | std64k, _ => True
  | byte _, self => ReadsMode (MembusModuleByte.mode self) ∧ WritesMode (MembusModuleByte.mode self)
  | paged _ _, self =>
      ReadsMode (MembusModulePaged.mode self) ∧ WritesMode (MembusModulePaged.mode self)

/-- The byte of a module at an address. -/
def cell : (kind : StorageKind) → kind.Storage → Word → Byte
  | std64k, self, addr => MembusModuleStd64k.bytes self addr
  | byte _, self, _ => (MembusModuleByte.flagsAndByte self).low
  | paged basePage nPages, self, addr =>
      let offset := addr - (MembusModulePaged.addrRange basePage nPages).addrLo
      MembusModulePaged.pages self offset.high offset.low

theorem low_replaceLow (word : Word) (value : Byte) : (Bus.replaceLow word value).low = value := by
  ext index index_lt
  simp [Bus.replaceLow, Word.low, Byte.toWord]

theorem shift_replaceLow (word : Word) (value : Byte) :
    Bus.replaceLow word value >>> 8 = word >>> 8 := by
  ext index index_lt
  simp [Bus.replaceLow, Byte.toWord]
  intro set
  have within : 8 + index < 16 := BitVec.lt_of_getLsbD set
  have mask := Word.page_mask ⟨8 + index, within⟩
  simp only [Fin.getElem_fin] at mask
  rw [BitVec.getLsbD_eq_getElem within]
  exact mask.trans (by simp)

theorem eq_of_doesInclude_one {place addr : Word}
    (includes : (MembusModuleByte.addrRange place).doesInclude addr = true) : addr = place := by
  unfold MembusModuleByte.addrRange MemoryAddrRange.doesInclude at includes
  simp only [Bool.and_eq_true, decide_eq_true_eq, BitVec.le_def] at includes
  bv_omega

variable {kind : StorageKind} {self : kind.Storage} {addr : Word}

/-- A read in read-write mode answers with the cell. -/
theorem readAddr_eq (readWrite : kind.ReadWrite self) (value : Byte) :
    kind.readAddr addr (some value) self = some (.accepted, kind.cell self addr, self) := by
  cases kind with
  | std64k => rfl
  | byte => exact if_pos readWrite.1
  | paged => exact if_pos readWrite.1

/-- A write in read-write mode sets the cell and no other one of the module. -/
theorem writeAddr_eq (readWrite : kind.ReadWrite self) (value : Byte) :
    ∃ after, kind.writeAddr addr value self = some (.accepted, after) ∧ kind.ReadWrite after ∧
      kind.cell after addr = value ∧
      ∀ other, kind.addrRange.doesInclude addr = true → kind.addrRange.doesInclude other = true →
        other ≠ addr → kind.cell after other = kind.cell self other := by
  cases kind with
  | std64k =>
      refine ⟨_, rfl, trivial, Function.update_self .., fun other _ _ other_ne => ?_⟩
      exact Function.update_of_ne other_ne ..
  | byte place =>
      have mode_eq : MembusModuleByte.mode
          { flagsAndByte := Bus.replaceLow (MembusModuleByte.flagsAndByte self) value } =
            MembusModuleByte.mode self := by
        unfold MembusModuleByte.mode
        rw [shift_replaceLow]
      refine ⟨_, if_pos readWrite.2, ?_, low_replaceLow _ _, ?_⟩
      · change ReadsMode (MembusModuleByte.mode
          { flagsAndByte := Bus.replaceLow (MembusModuleByte.flagsAndByte self) value }) ∧
            WritesMode (MembusModuleByte.mode
              { flagsAndByte := Bus.replaceLow (MembusModuleByte.flagsAndByte self) value })
        rw [mode_eq]
        exact readWrite
      · intro other includes others other_ne
        exact absurd ((eq_of_doesInclude_one others).trans (eq_of_doesInclude_one includes).symm)
          other_ne
  | paged basePage nPages =>
      let addrLo := (MembusModulePaged.addrRange basePage nPages).addrLo
      refine ⟨_, if_pos readWrite.2, readWrite, ?_, fun other _ _ other_ne => ?_⟩
      · simp only [cell, Function.update_self]
      · have offset_ne : other - addrLo ≠ addr - addrLo := by
          bv_omega
        simp only [cell]
        by_cases page : (other - addrLo).high = (addr - addrLo).high
        · have low_ne : (other - addrLo).low ≠ (addr - addrLo).low := by
            intro low
            refine offset_ne ?_
            rw [← Word.littleEndian_low_high (other - addrLo), low, page,
              Word.littleEndian_low_high]
          rw [page, Function.update_self, Function.update_of_ne low_ne]
        · rw [Function.update_of_ne page]

end StorageKind

end System6502
