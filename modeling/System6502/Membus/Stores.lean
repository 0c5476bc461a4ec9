import System6502.Membus.Storage

/-!
# Stores

The word module beside the other modules that hold bytes, and when the accesses to one of them, in
any mode, find what was last written.
-/

namespace System6502

/-! ## The word module -/

/-- `membus_module_word_t`. -/
structure MembusModuleWord where
  /-- `flags_and_word`. -/
  flagsAndWord : BitVec 32

namespace MembusModuleWord

/-- `membus_module_word_alloc`. -/
def alloc (mode : BitVec 32) : MembusModuleWord where
  flagsAndWord := (mode <<< 16) ||| 0x0000FACE

/-- The range of a module at an address. -/
def addrRange (addr : Word) : MemoryAddrRange where
  addrLo := addr
  addrLen := 2

/-- The access mode. -/
def mode (self : MembusModuleWord) : BitVec 32 := self.flagsAndWord >>> 16

/-- `(addr - addr_lo) << 3`. -/
def lane (addrLo addr : Word) : Nat := ((addr - addrLo) <<< 3).toNat

/-- The byte of a module at an address. -/
def cell (addrLo : Word) (self : MembusModuleWord) (addr : Word) : Byte :=
  ((self.flagsAndWord &&& ((0x000000FF : BitVec 32) <<< lane addrLo addr)) >>>
    lane addrLo addr).setWidth 8

/-- The module after a write that it takes. -/
def stored (addrLo addr : Word) (value : Byte) (self : MembusModuleWord) : MembusModuleWord where
  flagsAndWord :=
    (self.flagsAndWord &&& 0xFFFF0000) ||| (value.setWidth 32 <<< lane addrLo addr)

/-- `__membus_module_word_read_addr`. -/
def readAddr (addrLo addr : Word) (value : Option Byte) (self : MembusModuleWord) :
    Option (OpResult × Byte × MembusModuleWord) :=
  if ReadsMode self.mode then value.map fun _ => (.accepted, self.cell addrLo addr, self)
  else some (.notAccepted, value.getD 0, self)

/-- `__membus_module_word_write_addr`. -/
def writeAddr (addrLo addr : Word) (value : Byte) (self : MembusModuleWord) :
    Option (OpResult × MembusModuleWord) :=
  if WritesMode self.mode then some (.accepted, self.stored addrLo addr value)
  else some (.notAccepted, self)

theorem high_mask :
    ∀ index : Fin 32, (0xFFFF0000 : BitVec 32).getLsbD index = decide (16 ≤ index.val) := by
  decide

theorem low_mask :
    ∀ index : Fin 32, (0x000000FF : BitVec 32).getLsbD index = decide (index.val < 8) := by
  decide

variable {self : MembusModuleWord} {addrLo addr other : Word} {value : Byte} {index : Nat}

theorem getLsbD_cell (lane_le : lane addrLo addr ≤ 8) (index_lt : index < 8) :
    (self.cell addrLo addr).getLsbD index =
      self.flagsAndWord.getLsbD (lane addrLo addr + index) := by
  have low := low_mask ⟨index, by omega⟩
  rw [cell, BitVec.getLsbD_setWidth, BitVec.getLsbD_ushiftRight, BitVec.getLsbD_and,
    BitVec.getLsbD_shiftLeft, Nat.add_sub_cancel_left, low]
  simp [index_lt]
  omega

theorem getLsbD_stored (index_lt : index < 32) :
    (self.stored addrLo addr value).flagsAndWord.getLsbD index =
      ((decide (16 ≤ index) && self.flagsAndWord.getLsbD index) ||
        (!decide (index < lane addrLo addr) &&
          value.getLsbD (index - lane addrLo addr))) := by
  have high := high_mask ⟨index, index_lt⟩
  have within : index - lane addrLo addr < 32 := by omega
  rw [stored, BitVec.getLsbD_or, BitVec.getLsbD_and, BitVec.getLsbD_shiftLeft, high,
    BitVec.getLsbD_setWidth, decide_eq_true index_lt, decide_eq_true within, Bool.true_and,
    Bool.true_and, Bool.and_comm (self.flagsAndWord.getLsbD index)]

/-- A write sets its byte. -/
theorem cell_stored_self (lane_le : lane addrLo addr ≤ 8) :
    (self.stored addrLo addr value).cell addrLo addr = value := by
  apply BitVec.eq_of_getLsbD_eq
  intro index index_lt
  have below : ¬ 16 ≤ lane addrLo addr + index := by omega
  have above : ¬ lane addrLo addr + index < lane addrLo addr := by omega
  rw [getLsbD_cell lane_le index_lt, getLsbD_stored (by omega), decide_eq_false below,
    decide_eq_false above, Nat.add_sub_cancel_left]
  rfl

/-- A write clears the other byte. -/
theorem cell_stored_other (lane_le : lane addrLo addr ≤ 8) (other_le : lane addrLo other ≤ 8)
    (apart : lane addrLo other + 8 ≤ lane addrLo addr ∨
      lane addrLo addr + 8 ≤ lane addrLo other) :
    (self.stored addrLo addr value).cell addrLo other = 0 := by
  apply BitVec.eq_of_getLsbD_eq
  intro index index_lt
  have below : ¬ 16 ≤ lane addrLo other + index := by omega
  rw [getLsbD_cell other_le index_lt, getLsbD_stored (by omega), decide_eq_false below]
  rcases apart with before | after
  · rw [decide_eq_true (by omega)]
    simp
  · rw [BitVec.getLsbD_of_ge value _ (by omega)]
    simp

/-- A write keeps the access mode. -/
theorem mode_stored (lane_le : lane addrLo addr ≤ 8) :
    (self.stored addrLo addr value).mode = self.mode := by
  apply BitVec.eq_of_getLsbD_eq
  intro index index_lt
  rw [mode, mode, BitVec.getLsbD_ushiftRight, BitVec.getLsbD_ushiftRight]
  rcases Nat.lt_or_ge (16 + index) 32 with within | beyond
  · rw [getLsbD_stored within, decide_eq_true (by omega),
      BitVec.getLsbD_of_ge value _ (by omega)]
    simp
  · rw [BitVec.getLsbD_of_ge _ _ beyond, BitVec.getLsbD_of_ge _ _ beyond]

/-- The addresses of a word have the lanes 0 and 8. -/
theorem lane_cases (includes : (addrRange addrLo).doesInclude addr = true) :
    (addr = addrLo ∧ lane addrLo addr = 0) ∨ (addr = addrLo + 1 ∧ lane addrLo addr = 8) := by
  have place : addr = addrLo ∨ addr = addrLo + 1 := by
    simp only [addrRange, MemoryAddrRange.doesInclude, Bool.and_eq_true] at includes
    obtain ⟨⟨-, above⟩, below⟩ := includes
    have above : addrLo.toNat ≤ addr.toNat := of_decide_eq_true above
    have below : addr.toNat < addrLo.toNat + 2 := of_decide_eq_true below
    rcases Nat.lt_or_eq_of_le above with above | same
    · refine .inr (BitVec.eq_of_toNat_eq ?_)
      have := addr.isLt
      rw [BitVec.toNat_add]
      change addr.toNat = (addrLo.toNat + 1) % 65536
      omega
    · exact .inl (BitVec.eq_of_toNat_eq same.symm)
  rcases place with rfl | rfl
  · refine .inl ⟨rfl, ?_⟩
    rw [lane, BitVec.sub_self]
    rfl
  · refine .inr ⟨rfl, ?_⟩
    rw [lane, show addrLo + 1 - addrLo = 1 by bv_omega]
    rfl

end MembusModuleWord

/-! ## All modules -/

/-- The modules that hold bytes. -/
inductive StoreKind
  /-- A std64k, byte or paged module. -/
  | storage (kind : StorageKind)
  /-- A word module. -/
  | word (addr : Word)

namespace StoreKind

/-- The structure that a module allocates. -/
def Storage : StoreKind → Type
  | storage kind => kind.Storage
  | word _ => MembusModuleWord

/-- The addresses of a module. -/
def addrRange : StoreKind → MemoryAddrRange
  | storage kind => kind.addrRange
  | word addr => MembusModuleWord.addrRange addr

/-- The read callback of a module. -/
def readAddr : (kind : StoreKind) → Word → Option Byte → kind.Storage →
    Option (OpResult × Byte × kind.Storage)
  | storage kind => kind.readAddr
  | word addrLo => MembusModuleWord.readAddr addrLo

/-- The write callback of a module. -/
def writeAddr : (kind : StoreKind) → Word → Byte → kind.Storage →
    Option (OpResult × kind.Storage)
  | storage kind => kind.writeAddr
  | word addrLo => MembusModuleWord.writeAddr addrLo

/-- The byte of a module at an address. -/
def cell : (kind : StoreKind) → kind.Storage → Word → Byte
  | storage kind => kind.cell
  | word addrLo => MembusModuleWord.cell addrLo

/-- The access mode of a module; a std64k module has none. -/
def mode : (kind : StoreKind) → kind.Storage → BitVec 32
  | storage .std64k, _ => moduleModeRw
  | storage (.byte _), self => MembusModuleByte.mode self
  | storage (.paged _ _), self => MembusModulePaged.mode self
  | word _, self => MembusModuleWord.mode self

/-- A module as its allocation leaves it; the bytes of a paged or std64k module are not
initialised. -/
def Allocated (mode : BitVec 32) : (kind : StoreKind) → kind.Storage → Prop
  | storage .std64k, _ => mode = moduleModeRw
  | storage (.byte _), self => self = MembusModuleByte.alloc mode
  | storage (.paged _ _), self => MembusModulePaged.mode self = mode
  | word _, self => self = MembusModuleWord.alloc mode

/-- The index that an access at an address computes lies within the storage of the module. -/
def InBounds (addr : Word) : StoreKind → Prop
  | storage .std64k => addr.toNat < 0x100 * 0x100
  | storage (.byte _) => True
  | storage (.paged basePage nPages) =>
      (addr - (MembusModulePaged.addrRange basePage nPages).addrLo).high.toNat <
        (MembusModulePaged.pageCount basePage nPages).toNat
  | word addrLo => MembusModuleWord.lane addrLo addr + 8 ≤ 16

/-! ## Stores -/

/-- What is remembered after an access. -/
def remembered (mode : BitVec 32) (memory : Word → Byte) (addr : Word) :
    Operation → Word → Byte
  | .read => memory
  | .write value => if WritesMode mode then Function.update memory addr value else memory

/-- The answer of a store to an access at an address, from what it remembers. -/
def Answers (kind : StoreKind) (mode : BitVec 32) (memory : Word → Byte) (self : kind.Storage)
    (addr : Word) (after : kind.Storage) : Operation → Prop
  | .read =>
      (∀ left, kind.readAddr addr (some left) self =
        some (if ReadsMode mode then (.accepted, memory addr, self)
          else (.notAccepted, left, self))) ∧ after = self
  | .write value =>
      if WritesMode mode then
        kind.writeAddr addr value self = some (.accepted, after) ∧
          (ReadsMode mode → ∀ other, kind.addrRange.doesInclude other = true →
            kind.cell after other = Function.update memory addr value other)
      else kind.writeAddr addr value self = some (.notAccepted, self) ∧ after = self

/-- Each of some accesses stays within the storage and is answered as by a store. -/
def Stores (kind : StoreKind) (mode : BitVec 32) :
    (Word → Byte) → kind.Storage → List (Word × Operation) → Prop
  | _, _, [] => True
  | memory, self, (addr, operation) :: later =>
      kind.InBounds addr ∧ ∃ after, kind.Answers mode memory self addr after operation ∧
        kind.Stores mode (remembered mode memory addr operation) after later

/-- The other byte of a word. -/
def companion (addrLo addr : Word) : Word := if addr = addrLo then addrLo + 1 else addrLo

/-- An access does no harm to the other byte of a word. -/
def Spares (mode : BitVec 32) (memory : Word → Byte) (addr : Word) : StoreKind → Operation → Prop
  | word addrLo, .write _ =>
      ReadsMode mode → WritesMode mode → addrLo ≠ 0xFFFF → memory (companion addrLo addr) = 0
  | _, _ => True

/-- None of some accesses does harm to the other byte of a word. -/
def SparesAll (kind : StoreKind) (mode : BitVec 32) :
    (Word → Byte) → List (Word × Operation) → Prop
  | _, [] => True
  | memory, (addr, operation) :: later =>
      kind.Spares mode memory addr operation ∧
        kind.SparesAll mode (remembered mode memory addr operation) later

/-- A module has an access mode and, if it can be read, holds what is remembered. -/
structure Holds (kind : StoreKind) (mode : BitVec 32) (memory : Word → Byte)
    (storage : kind.Storage) : Prop where
  /-- The access mode. -/
  mode_eq : kind.mode storage &&& moduleModeMask = mode &&& moduleModeMask
  /-- The bytes. -/
  cell_eq : ReadsMode mode → ∀ addr, kind.addrRange.doesInclude addr = true →
    kind.cell storage addr = memory addr

theorem moduleModeMask_bits :
    ∀ index : Fin 32, moduleModeMask.getLsbD index = decide (index.val < 2) := by
  decide

/-- Two access modes agree when their low bits do. -/
theorem masked_eq {first second : BitVec 32}
    (bits_eq : ∀ index < 2, first.getLsbD index = second.getLsbD index) :
    first &&& moduleModeMask = second &&& moduleModeMask := by
  apply BitVec.eq_of_getLsbD_eq
  intro index index_lt
  have mask := moduleModeMask_bits ⟨index, index_lt⟩
  rw [BitVec.getLsbD_and, BitVec.getLsbD_and, mask]
  rcases Nat.lt_or_ge index 2 with low | high
  · rw [bits_eq index low]
  · rw [decide_eq_false (Nat.not_lt.mpr high), Bool.and_false, Bool.and_false]

variable {kind : StoreKind} {mode : BitVec 32} {memory : Word → Byte} {self : kind.Storage}
  {addr : Word}

theorem readsMode_iff (holds : kind.Holds mode memory self) :
    ReadsMode (kind.mode self) ↔ ReadsMode mode := by
  rw [ReadsMode, ReadsMode, holds.mode_eq]

theorem writesMode_iff (holds : kind.Holds mode memory self) :
    WritesMode (kind.mode self) ↔ WritesMode mode := by
  rw [WritesMode, WritesMode, holds.mode_eq]

/-- A module that has just been allocated has the mode of its allocation. -/
theorem holds_of_allocated (allocated : kind.Allocated mode self) :
    kind.Holds mode (kind.cell self) self := by
  refine ⟨?_, fun _ _ _ => rfl⟩
  cases kind with
  | storage kind =>
      cases kind with
      | std64k => exact congrArg (· &&& moduleModeMask) allocated.symm
      | byte =>
          subst allocated
          refine masked_eq fun index index_lt => ?_
          change (((((mode <<< 8) ||| 0x000000CA).setWidth 16) >>> 8).setWidth 32).getLsbD index = _
          obtain rfl | rfl : index = 0 ∨ index = 1 := by omega
          · simp
          · simp
      | paged => exact congrArg (· &&& moduleModeMask) allocated
  | word =>
      subst allocated
      refine masked_eq fun index index_lt => ?_
      change (((mode <<< 16) ||| 0x0000FACE) >>> 16).getLsbD index = _
      obtain rfl | rfl : index = 0 ∨ index = 1 := by omega
      · simp
      · simp

theorem toNat_shiftPage (page : Byte) : (page.toWord <<< 8).toNat = 256 * page.toNat := by
  have := page.isLt
  rw [BitVec.toNat_shiftLeft, Byte.toWord, BitVec.toNat_setWidth, Nat.shiftLeft_eq]
  omega

/-- The indices of the accesses in the range of a module lie within its storage. -/
theorem inBounds_of_includes (includes : kind.addrRange.doesInclude addr = true) :
    kind.InBounds addr := by
  cases kind with
  | storage kind =>
      cases kind with
      | std64k => exact addr.isLt
      | byte => trivial
      | paged basePage nPages =>
          have includes :
              (MembusModulePaged.addrRange basePage nPages).doesInclude addr = true := includes
          rw [MemoryAddrRange.doesInclude, Bool.and_eq_true, Bool.and_eq_true] at includes
          obtain ⟨⟨-, above⟩, below⟩ := includes
          have above := BitVec.le_def.mp (of_decide_eq_true above)
          have below := of_decide_eq_true below
          have addr_lt := addr.isLt
          change (addr - basePage.toWord <<< 8).high.toNat < _
          simp only [MembusModulePaged.addrRange, toNat_shiftPage] at above below
          rw [Word.high, BitVec.toNat_setWidth, BitVec.toNat_ushiftRight, BitVec.toNat_sub_of_le,
            toNat_shiftPage, Nat.shiftRight_eq_div_pow]
          · omega
          · rw [BitVec.le_def, toNat_shiftPage]
            exact above
  | word addrLo =>
      change MembusModuleWord.lane addrLo addr + 8 ≤ 16
      rcases MembusModuleWord.lane_cases includes with ⟨-, lane_eq⟩ | ⟨-, lane_eq⟩
      · rw [lane_eq]
        decide
      · rw [lane_eq]

theorem readAddr_eq (left : Byte) :
    kind.readAddr addr (some left) self =
      some (if ReadsMode (kind.mode self) then (.accepted, kind.cell self addr, self)
        else (.notAccepted, left, self)) := by
  cases kind with
  | storage kind =>
      cases kind with
      | std64k => exact (congrArg some (if_pos (by decide : ReadsMode moduleModeRw))).symm
      | byte | paged => exact (apply_ite some _ _ _).symm
  | word => exact (apply_ite some _ _ _).symm

/-- The module after a write that it takes. -/
def stored (addr : Word) (value : Byte) : (kind : StoreKind) → kind.Storage → kind.Storage
  | storage .std64k, self =>
      ({ bytes := Function.update (MembusModuleStd64k.bytes self) addr value }
        : MembusModuleStd64k)
  | storage (.byte _), self =>
      ({ flagsAndByte := Bus.replaceLow (MembusModuleByte.flagsAndByte self) value }
        : MembusModuleByte)
  | storage (.paged basePage nPages), self =>
      let offset := addr - (MembusModulePaged.addrRange basePage nPages).addrLo
      let pages := MembusModulePaged.pages self
      ({ mode := MembusModulePaged.mode self
         pages := Function.update pages offset.high
          (Function.update (pages offset.high) offset.low value) } : MembusModulePaged)
  | word addrLo, self => MembusModuleWord.stored addrLo addr value self

theorem writeAddr_eq (value : Byte) :
    kind.writeAddr addr value self =
      some (if WritesMode (kind.mode self) then (.accepted, kind.stored addr value self)
        else (.notAccepted, self)) := by
  cases kind with
  | storage kind =>
      cases kind with
      | std64k => exact (congrArg some (if_pos (by decide : WritesMode moduleModeRw))).symm
      | byte | paged => exact (apply_ite some _ _ _).symm
  | word => exact (apply_ite some _ _ _).symm

theorem mode_stored (includes : kind.addrRange.doesInclude addr = true) (value : Byte) :
    kind.mode (kind.stored addr value self) = kind.mode self := by
  cases kind with
  | storage kind =>
      cases kind with
      | std64k | paged => rfl
      | byte => exact congrArg (BitVec.setWidth 32) (StorageKind.shift_replaceLow _ _)
  | word addrLo =>
      refine MembusModuleWord.mode_stored ?_
      rcases MembusModuleWord.lane_cases includes with ⟨-, lane_eq⟩ | ⟨-, lane_eq⟩
      · exact lane_eq.symm ▸ Nat.zero_le 8
      · exact lane_eq.symm ▸ Nat.le_refl 8

/-- A write to a module other than a word, in read-write mode, sets its byte and no other one. -/
theorem cell_stored_storage {kind : StorageKind} {self : kind.Storage}
    (includes : kind.addrRange.doesInclude addr = true)
    (reads : ReadsMode ((storage kind).mode self)) (writes : WritesMode ((storage kind).mode self))
    (value : Byte) {other : Word} (others : kind.addrRange.doesInclude other = true) :
    kind.cell ((storage kind).stored addr value self) other =
      Function.update (kind.cell self) addr value other := by
  have readWrite : kind.ReadWrite self := by
    cases kind with
    | std64k => trivial
    | byte | paged => exact ⟨reads, writes⟩
  obtain ⟨after, write_eq, -, cell_eq, frame⟩ :=
    @StorageKind.writeAddr_eq kind self addr readWrite value
  have stored_eq : kind.writeAddr addr value self = _ := (storage kind).writeAddr_eq value
  rw [if_pos writes, write_eq] at stored_eq
  obtain ⟨-, rfl⟩ := Prod.mk.inj (Option.some.inj stored_eq)
  rcases Decidable.em (other = addr) with rfl | other_ne
  · rw [cell_eq, Function.update_self]
  · rw [frame other includes others other_ne, Function.update_of_ne other_ne]

/-- A write to a word module sets its byte and clears the other one. -/
theorem cell_stored_word {addrLo : Word} {self : MembusModuleWord}
    (includes : (MembusModuleWord.addrRange addrLo).doesInclude addr = true) (value : Byte)
    {other : Word} (others : (MembusModuleWord.addrRange addrLo).doesInclude other = true) :
    (self.stored addrLo addr value).cell addrLo other = if other = addr then value else 0 := by
  split_ifs with same
  · subst same
    refine MembusModuleWord.cell_stored_self ?_
    rcases MembusModuleWord.lane_cases includes with ⟨-, lane_eq⟩ | ⟨-, lane_eq⟩
    · exact lane_eq.symm ▸ Nat.zero_le 8
    · exact lane_eq.symm ▸ Nat.le_refl 8
  · rcases MembusModuleWord.lane_cases includes with ⟨rfl, lane_eq⟩ | ⟨rfl, lane_eq⟩
    · rcases MembusModuleWord.lane_cases others with ⟨rfl, -⟩ | ⟨rfl, other_eq⟩
      · exact absurd rfl same
      · exact MembusModuleWord.cell_stored_other (by omega) (by omega) (by omega)
    · rcases MembusModuleWord.lane_cases others with ⟨rfl, other_eq⟩ | ⟨rfl, -⟩
      · exact MembusModuleWord.cell_stored_other (by omega) (by omega) (by omega)
      · exact absurd rfl same

/-! ## Runs -/

theorem companion_cases {addrLo other : Word}
    (includes : (MembusModuleWord.addrRange addrLo).doesInclude addr = true)
    (others : (MembusModuleWord.addrRange addrLo).doesInclude other = true)
    (other_ne : other ≠ addr) : addrLo ≠ 0xFFFF ∧ other = companion addrLo addr := by
  have top : (MembusModuleWord.addrRange 0xFFFF).doesInclude (0xFFFF + 1) = false := by decide
  have next_ne : addrLo + 1 ≠ addrLo := by bv_omega
  rcases MembusModuleWord.lane_cases includes with ⟨rfl, -⟩ | ⟨rfl, -⟩
  · rcases MembusModuleWord.lane_cases others with ⟨rfl, -⟩ | ⟨rfl, -⟩
    · exact absurd rfl other_ne
    · refine ⟨?_, (if_pos rfl).symm⟩
      rintro rfl
      exact Bool.false_ne_true (top.symm.trans others)
  · rcases MembusModuleWord.lane_cases others with ⟨rfl, -⟩ | ⟨rfl, -⟩
    · refine ⟨?_, (if_neg next_ne).symm⟩
      rintro rfl
      exact Bool.false_ne_true (top.symm.trans includes)
    · exact absurd rfl other_ne

theorem includes_companion {addrLo : Word} (proper : addrLo ≠ 0xFFFF)
    (includes : (MembusModuleWord.addrRange addrLo).doesInclude addr = true) :
    (MembusModuleWord.addrRange addrLo).doesInclude (companion addrLo addr) = true ∧
      companion addrLo addr ≠ addr := by
  have next_ne : addrLo + 1 ≠ addrLo := by bv_omega
  have next_eq : (addrLo + 1).toNat = addrLo.toNat + 1 := by bv_omega
  have includes_of : ∀ other : Word, addrLo.toNat ≤ other.toNat → other.toNat < addrLo.toNat + 2 →
      (MembusModuleWord.addrRange addrLo).doesInclude other = true := by
    intro other above below
    rw [MemoryAddrRange.doesInclude, Bool.and_eq_true, Bool.and_eq_true]
    exact ⟨⟨rfl, decide_eq_true (BitVec.le_def.mpr above)⟩, decide_eq_true below⟩
  rcases MembusModuleWord.lane_cases includes with ⟨rfl, -⟩ | ⟨rfl, -⟩
  · rw [companion, if_pos rfl]
    exact ⟨includes_of _ (by omega) (by omega), next_ne⟩
  · rw [companion, if_neg next_ne]
    exact ⟨includes_of _ (by omega) (by omega), next_ne.symm⟩

/-- A write that a module takes in read-write mode sets its byte and no other one exactly when it
does no harm to the other byte of a word. -/
theorem stored_iff_spares (holds : kind.Holds mode memory self)
    (includes : kind.addrRange.doesInclude addr = true) (writes : WritesMode mode) (value : Byte) :
    (ReadsMode mode → ∀ other, kind.addrRange.doesInclude other = true →
      kind.cell (kind.stored addr value self) other = Function.update memory addr value other) ↔
      kind.Spares mode memory addr (.write value) := by
  cases kind with
  | storage kind =>
      refine iff_of_true (fun reads other others => ?_) trivial
      rw [cell, cell_stored_storage includes ((readsMode_iff holds).mpr reads)
        ((writesMode_iff holds).mpr writes) value others]
      rcases Decidable.em (other = addr) with rfl | other_ne
      · rw [Function.update_self, Function.update_self]
      · rw [Function.update_of_ne other_ne, Function.update_of_ne other_ne]
        exact holds.cell_eq reads other others
  | word addrLo =>
      constructor
      · intro law reads _ proper
        obtain ⟨others, other_ne⟩ := includes_companion proper includes
        have cell_eq := law reads _ others
        rw [Function.update_of_ne other_ne] at cell_eq
        exact cell_eq.symm.trans ((cell_stored_word includes value others).trans (if_neg other_ne))
      · intro spares reads other others
        refine (cell_stored_word includes value others).trans ?_
        split_ifs with same
        · rw [same, Function.update_self]
        · obtain ⟨proper, rfl⟩ := companion_cases includes others same
          rw [Function.update_of_ne same]
          exact (spares reads writes proper).symm

theorem answers_write_iff (writes : WritesMode mode) {after : kind.Storage} {value : Byte} :
    kind.Answers mode memory self addr after (.write value) ↔
      kind.writeAddr addr value self = some (.accepted, after) ∧
        (ReadsMode mode → ∀ other, kind.addrRange.doesInclude other = true →
          kind.cell after other = Function.update memory addr value other) := by
  rw [Answers, if_pos writes]

/-- A module answers an access in its range as a store does exactly when the access does no harm to
the other byte of a word, and it then holds what is remembered. -/
theorem answers_iff (holds : kind.Holds mode memory self)
    (includes : kind.addrRange.doesInclude addr = true) (operation : Operation) :
    ((∃ after, kind.Answers mode memory self addr after operation) ↔
      kind.Spares mode memory addr operation) ∧
      ∀ after, kind.Answers mode memory self addr after operation →
        kind.Holds mode (remembered mode memory addr operation) after := by
  cases operation with
  | read =>
      have spares : kind.Spares mode memory addr .read := by
        cases kind with
        | storage | word => trivial
      refine ⟨iff_of_true ⟨self, fun left => ?_, rfl⟩ spares, ?_⟩
      · rw [readAddr_eq, if_congr (readsMode_iff holds) rfl rfl]
        split_ifs with reads
        · rw [holds.cell_eq reads addr includes]
        · rfl
      · rintro after ⟨-, rfl⟩
        exact holds
  | write value =>
      rcases Decidable.em (WritesMode mode) with writes | refuses
      · have taken : kind.writeAddr addr value self =
            some (.accepted, kind.stored addr value self) := by
          rw [writeAddr_eq, if_pos ((writesMode_iff holds).mpr writes)]
        rw [← stored_iff_spares holds includes writes value]
        constructor
        · constructor
          · rintro ⟨after, answers⟩
            rw [answers_write_iff writes, taken] at answers
            obtain ⟨after_eq, law⟩ := answers
            obtain ⟨-, rfl⟩ := Prod.mk.inj (Option.some.inj after_eq)
            exact law
          · intro law
            exact ⟨kind.stored addr value self, (answers_write_iff writes).mpr ⟨taken, law⟩⟩
        · intro after answers
          rw [answers_write_iff writes, taken] at answers
          obtain ⟨after_eq, law⟩ := answers
          obtain ⟨-, rfl⟩ := Prod.mk.inj (Option.some.inj after_eq)
          rw [remembered, if_pos writes]
          exact ⟨(congrArg (· &&& moduleModeMask) (mode_stored includes value)).trans holds.mode_eq,
            law⟩
      · have refused : kind.writeAddr addr value self = some (.notAccepted, self) := by
          rw [writeAddr_eq, if_neg fun writes => refuses ((writesMode_iff holds).mp writes)]
        have spares : kind.Spares mode memory addr (.write value) := by
          cases kind with
          | storage => trivial
          | word => exact fun _ writes => absurd writes refuses
        refine ⟨iff_of_true ⟨self, ?_⟩ spares, fun after answers => ?_⟩
        · rw [Answers, if_neg refuses]
          exact ⟨refused, rfl⟩
        · rw [Answers, if_neg refuses] at answers
          obtain ⟨-, rfl⟩ := answers
          rw [remembered, if_neg refuses]
          exact holds

/-- A module answers all accesses in its range as a store does exactly when none of them does harm
to the other byte of a word. -/
theorem stores_iff_sparesAll (holds : kind.Holds mode memory self)
    {accesses : List (Word × Operation)}
    (inRange : ∀ access ∈ accesses, kind.addrRange.doesInclude access.1 = true) :
    kind.Stores mode memory self accesses ↔ kind.SparesAll mode memory accesses := by
  induction accesses generalizing memory self with
  | nil => exact Iff.rfl
  | cons access later ih =>
      obtain ⟨includes, later_includes⟩ := List.forall_mem_cons.mp inRange
      obtain ⟨exists_iff, holds_after⟩ := answers_iff holds includes access.2
      constructor
      · rintro ⟨-, after, answers, stores⟩
        exact ⟨exists_iff.mp ⟨after, answers⟩,
          (ih (holds_after after answers) later_includes).mp stores⟩
      · rintro ⟨spares, sparesLater⟩
        obtain ⟨after, answers⟩ := exists_iff.mpr spares
        exact ⟨inBounds_of_includes includes, after, answers,
          (ih (holds_after after answers) later_includes).mpr sparesLater⟩

/-- A word module with both of its bytes in memory, in read-write mode. -/
def WritableWord (mode : BitVec 32) : StoreKind → Prop
  | storage _ => False
  | word addrLo => ReadsMode mode ∧ WritesMode mode ∧ addrLo ≠ 0xFFFF

/-- Neither byte of a new word module is zero. -/
theorem cell_alloc_ne {addrLo : Word}
    (includes : (MembusModuleWord.addrRange addrLo).doesInclude addr = true) :
    (MembusModuleWord.alloc mode).cell addrLo addr ≠ 0 := by
  have bit : ((MembusModuleWord.alloc mode).cell addrLo addr).getLsbD 1 = true := by
    rcases MembusModuleWord.lane_cases includes with ⟨-, lane_eq⟩ | ⟨-, lane_eq⟩
    · rw [MembusModuleWord.getLsbD_cell (by omega) (by decide), lane_eq, MembusModuleWord.alloc]
      simp
    · rw [MembusModuleWord.getLsbD_cell (by omega) (by decide), lane_eq, MembusModuleWord.alloc]
      simp
  intro zero
  rw [zero] at bit
  cases bit

/-- Where no byte of a word is zero, only reads do no harm. -/
theorem spares_iff (includes : kind.addrRange.doesInclude addr = true)
    (nonzero : kind.WritableWord mode → ∀ addr, kind.addrRange.doesInclude addr = true →
      memory addr ≠ 0) (operation : Operation) :
    kind.Spares mode memory addr operation ↔ (kind.WritableWord mode → operation = .read) := by
  cases operation with
  | read =>
      refine iff_of_true ?_ fun _ => rfl
      cases kind with
      | storage | word => trivial
  | write value =>
      cases kind with
      | storage => exact iff_of_true trivial fun writable => writable.elim
      | word addrLo =>
          constructor
          · rintro spares ⟨reads, writes, proper⟩
            obtain ⟨others, -⟩ := includes_companion proper includes
            exact absurd (spares reads writes proper) (nonzero ⟨reads, writes, proper⟩ _ others)
          · intro onlyReads reads writes proper
            cases onlyReads ⟨reads, writes, proper⟩

theorem sparesAll_iff {accesses : List (Word × Operation)}
    (inRange : ∀ access ∈ accesses, kind.addrRange.doesInclude access.1 = true)
    (nonzero : kind.WritableWord mode → ∀ addr, kind.addrRange.doesInclude addr = true →
      memory addr ≠ 0) :
    kind.SparesAll mode memory accesses ↔
      (kind.WritableWord mode → ∀ access ∈ accesses, access.2 = .read) := by
  induction accesses generalizing memory with
  | nil => exact iff_of_true trivial fun _ _ access_mem => absurd access_mem List.not_mem_nil
  | cons access later ih =>
      obtain ⟨includes, later_includes⟩ := List.forall_mem_cons.mp inRange
      have first_iff := spares_iff includes nonzero access.2
      simp only [List.forall_mem_cons]
      constructor
      · rintro ⟨spares, sparesLater⟩ writable
        have isRead := first_iff.mp spares writable
        rw [isRead] at sparesLater
        exact ⟨isRead, (ih later_includes nonzero).mp sparesLater writable⟩
      · intro onlyReads
        refine ⟨first_iff.mpr fun writable => (onlyReads writable).1,
          (ih later_includes fun writable => ?_).mpr fun writable => (onlyReads writable).2⟩
        rw [(onlyReads writable).1]
        exact nonzero writable

/-- A module that has been allocated in any mode answers all accesses in its range as a store does,
unless it is a word module in read-write mode and one of the accesses is a write. -/
theorem stores_iff (allocated : kind.Allocated mode self) {accesses : List (Word × Operation)}
    (inRange : ∀ access ∈ accesses, kind.addrRange.doesInclude access.1 = true) :
    kind.Stores mode (kind.cell self) self accesses ↔
      (kind.WritableWord mode → ∀ access ∈ accesses, access.2 = .read) := by
  refine (stores_iff_sparesAll (holds_of_allocated allocated) inRange).trans
    (sparesAll_iff inRange fun writable addr includes => ?_)
  cases kind with
  | storage => cases writable
  | word addrLo =>
      subst allocated
      exact cell_alloc_ne includes

/-- A byte module in read-write mode. -/
theorem stores_byte :
    (storage (.byte 0x4000)).Stores moduleModeRw
      ((storage (.byte 0x4000)).cell (MembusModuleByte.alloc moduleModeRw))
      (MembusModuleByte.alloc moduleModeRw) [(0x4000, .write 0x12), (0x4000, .read)] :=
  (@stores_iff (storage (.byte 0x4000)) moduleModeRw (MembusModuleByte.alloc moduleModeRw) rfl _
    (by decide)).mpr fun writable => writable.elim

/-- A write to the low byte of a new word module in read-write mode clears its high byte. -/
theorem not_stores_word :
    ¬ (word 0x04F0).Stores moduleModeRw
      ((word 0x04F0).cell (MembusModuleWord.alloc moduleModeRw))
      (MembusModuleWord.alloc moduleModeRw) [(0x04F0, .write 0x12), (0x04F1, .read)] := by
  rintro ⟨-, after, answers, -⟩
  obtain ⟨after_eq, law⟩ := (answers_write_iff (by decide)).mp answers
  obtain ⟨-, rfl⟩ := Prod.mk.inj (Option.some.inj after_eq)
  exact absurd (law (by decide) 0x04F1 (by decide)) (by decide)

end StoreKind

end System6502
