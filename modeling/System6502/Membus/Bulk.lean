import System6502.Membus.RangeAlgebra
import System6502.Membus.Loading

/-!
# Bulk transfers

`membus_write_byte_to_range`, `membus_write_word_to_range`, `membus_copy_in_bytes` and
`membus_copy_out_bytes`, four loops over the addresses of a range with the same clamp for a range
that passes the end of memory.
-/

namespace System6502

variable {μ : Type*} [Membus μ]

/-! ## The loops -/

/-- `addr_end` as the four functions clamp it. -/
def MemoryAddrRange.bulkEnd (range : MemoryAddrRange) : Nat :=
  let addrEnd := range.addrLo.toNat + range.addrLen.toNat
  if 0x10000 < addrEnd then 0xFFFF else addrEnd

/-- Write a byte to each address in turn, where a source supplies the bytes. -/
def writeLoop {σ : Type*} (supply : σ → Byte × σ) (addrEnd addr : Nat) (source : σ)
    (memory : μ) : μ :=
  if addr < addrEnd then
    writeLoop supply addrEnd (addr + 1) (supply source).2
      (Membus.writeAddr memory (BitVec.ofNat 16 addr) (supply source).1)
  else memory
termination_by addrEnd - addr

/-- `membus_write_byte_to_range`. -/
def membusWriteByteToRange (memory : μ) (range : MemoryAddrRange) (value : Byte) : μ :=
  writeLoop (fun source : Unit => (value, source)) range.bulkEnd range.addrLo.toNat () memory

/-- `membus_write_word_to_range`; the source is `piece`. -/
def membusWriteWordToRange (memory : μ) (range : MemoryAddrRange) (value : Word) : μ :=
  let lo := Word.toByte (value &&& 0x00FF)
  let hi := Word.toByte (value >>> 8)
  writeLoop (fun piece : Nat => (if piece ≠ 0 then hi else lo, (piece + 1) % 2)) range.bulkEnd
    range.addrLo.toNat 0 memory

/-- `membus_copy_in_bytes`; the source is the offset of `bytes_ptr` in the buffer. -/
def membusCopyInBytes (memory : μ) (bytes : Nat → Byte) (range : MemoryAddrRange) : μ :=
  writeLoop (fun offset => (bytes offset, offset + 1)) range.bulkEnd range.addrLo.toNat 0 memory

/-- Read the byte at each address in turn into a buffer. -/
def readLoop (addrEnd addr : Nat) (memory : μ) : List Byte × μ :=
  if addr < addrEnd then
    let read := Membus.readAddr memory (BitVec.ofNat 16 addr)
    let rest := readLoop addrEnd (addr + 1) read.2
    (read.1 :: rest.1, rest.2)
  else ([], memory)
termination_by addrEnd - addr

/-- `membus_copy_out_bytes`, with the bytes it stores from `bytes_ptr` on. -/
def membusCopyOutBytes (memory : μ) (range : MemoryAddrRange) : List Byte × μ :=
  readLoop range.bulkEnd range.addrLo.toNat memory

/-! ## Runs of writes -/

/-- The writes of a function of the offset to so many addresses from a first one on. -/
def offsetWrites (byteAt : Nat → Byte) (addr count : Nat) : List Access :=
  (List.range count).map fun offset =>
    .write (BitVec.ofNat 16 (addr + offset)) (byteAt offset)

theorem length_offsetWrites (byteAt : Nat → Byte) (addr count : Nat) :
    (offsetWrites byteAt addr count).length = count := by
  rw [offsetWrites, List.length_map, List.length_range]

theorem offsetWrites_succ (byteAt : Nat → Byte) (addr count : Nat) :
    offsetWrites byteAt addr (count + 1) =
      .write (BitVec.ofNat 16 addr) (byteAt 0) ::
        offsetWrites (fun offset => byteAt (offset + 1)) (addr + 1) count := by
  rw [offsetWrites, List.range_succ_eq_map, List.map_cons, List.map_map]
  refine congrArg (List.cons _) (List.map_congr_left fun offset _ => ?_)
  rw [Function.comp_apply, Nat.succ_eq_add_one, Nat.add_assoc addr, Nat.add_comm 1]

/-- A source goes through a sequence of states and supplies a byte at each. -/
def Supplies {σ : Type*} (supply : σ → Byte × σ) (source : σ) (byteAt : Nat → Byte) : Prop :=
  ∃ states : Nat → σ, states 0 = source ∧
    ∀ offset, supply (states offset) = (byteAt offset, states (offset + 1))

theorem Supplies.next {σ : Type*} {supply : σ → Byte × σ} {source : σ} {byteAt : Nat → Byte}
    (supplies : Supplies supply source byteAt) :
    (supply source).1 = byteAt 0 ∧
      Supplies supply (supply source).2 fun offset => byteAt (offset + 1) := by
  obtain ⟨states, rfl, follows⟩ := supplies
  rw [follows 0]
  exact ⟨rfl, fun offset => states (offset + 1), rfl, fun offset => follows (offset + 1)⟩

/-- A loop writes what its source supplies to the addresses in turn, and makes no other access. -/
theorem writeLoop_log {σ : Type*} {supply : σ → Byte × σ} {source : σ} {byteAt : Nat → Byte}
    (supplies : Supplies supply source byteAt) (addrEnd addr : Nat) (traced : Traced μ) :
    (writeLoop supply addrEnd addr source traced).log =
      (offsetWrites byteAt addr (addrEnd - addr)).reverse ++ traced.log := by
  fun_induction writeLoop supply addrEnd addr source traced generalizing byteAt with
  | case1 addr source traced below ih =>
      obtain ⟨byte_eq, later⟩ := supplies.next
      have left_eq : addrEnd - addr = addrEnd - (addr + 1) + 1 := by omega
      rw [ih later, left_eq, offsetWrites_succ, List.reverse_cons, List.append_assoc, ← byte_eq]
      rfl
  | case2 addr source traced above =>
      have nothing : addrEnd - addr = 0 := by omega
      rw [nothing]
      rfl

theorem supplies_value (value : Byte) :
    Supplies (fun source : Unit => (value, source)) () fun _ => value :=
  ⟨fun _ => (), rfl, fun _ => rfl⟩

theorem supplies_pieces (lo hi : Byte) :
    Supplies (fun piece : Nat => (if piece ≠ 0 then hi else lo, (piece + 1) % 2)) 0
      fun offset => if offset % 2 = 0 then lo else hi := by
  refine ⟨fun offset => offset % 2, rfl, fun offset => ?_⟩
  refine Prod.ext ?_ (by simp only [Nat.mod_add_mod])
  by_cases even : offset % 2 = 0
  · simp only [even, ne_eq, not_true_eq_false, if_false, if_true]
  · simp only [even, ne_eq, not_false_eq_true, if_false, if_true]

theorem supplies_buffer (bytes : Nat → Byte) :
    Supplies (fun offset => (bytes offset, offset + 1)) 0 bytes :=
  ⟨id, rfl, fun _ => rfl⟩

/-! ## Buses that behave as memory -/

/-- A bus behaves as memory on a range in a set of states that the accesses to the range do not
leave: each address holds a byte, which reads return and leave and writes replace. -/
structure MemoryView (μ : Type*) [Membus μ] (range : MemoryAddrRange) where
  /-- The states in which the bus behaves so. -/
  Ready : μ → Prop
  /-- The byte that an address holds. -/
  byteAt : μ → Word → Byte
  readAddr_eq : ∀ memory address, Ready memory → range.doesInclude address = true →
    (Membus.readAddr memory address).1 = byteAt memory address
  ready_readAddr : ∀ memory address, Ready memory → range.doesInclude address = true →
    Ready (Membus.readAddr memory address).2
  byteAt_readAddr : ∀ memory address other, Ready memory → range.doesInclude address = true →
    range.doesInclude other = true →
      byteAt (Membus.readAddr memory address).2 other = byteAt memory other
  ready_writeAddr : ∀ memory address value, Ready memory → range.doesInclude address = true →
    Ready (Membus.writeAddr memory address value)
  byteAt_writeAddr : ∀ memory address value other, Ready memory →
    range.doesInclude address = true → range.doesInclude other = true →
      byteAt (Membus.writeAddr memory address value) other =
        Function.update (byteAt memory) address value other

/-- A memory array behaves as memory everywhere. -/
def MemoryView.ram (range : MemoryAddrRange) : MemoryView Ram range where
  Ready _ := True
  byteAt ram := ram
  readAddr_eq _ _ _ _ := rfl
  ready_readAddr _ _ _ _ := trivial
  byteAt_readAddr _ _ _ _ _ _ := rfl
  ready_writeAddr _ _ _ _ _ := trivial
  byteAt_writeAddr _ _ _ _ _ _ _ := rfl

namespace MemoryView

variable {range : MemoryAddrRange} (view : MemoryView μ range)

/-- All addresses of a run lie in the range. -/
def Covers (range : MemoryAddrRange) (addr addrEnd : Nat) : Prop :=
  ∀ place, addr ≤ place → place < addrEnd →
    place < 0x10000 ∧ range.doesInclude (BitVec.ofNat 16 place) = true

theorem Covers.tail {addr addrEnd : Nat} (covers : Covers range addr addrEnd) :
    Covers range (addr + 1) addrEnd :=
  fun place above => covers place (Nat.le_of_succ_le above)

/-- After a loop of writes each address holds what was written there, and the others what they
held. -/
theorem byteAt_writeLoop {σ : Type*} {supply : σ → Byte × σ} {source : σ}
    {bytes : Nat → Byte} (supplies : Supplies supply source bytes) {addrEnd addr : Nat}
    (covers : Covers range addr addrEnd) {memory : μ} (ready : view.Ready memory) :
    view.Ready (writeLoop supply addrEnd addr source memory) ∧
      ∀ place, place < 0x10000 → range.doesInclude (BitVec.ofNat 16 place) = true →
        view.byteAt (writeLoop supply addrEnd addr source memory) (BitVec.ofNat 16 place) =
          if addr ≤ place ∧ place < addrEnd then bytes (place - addr)
          else view.byteAt memory (BitVec.ofNat 16 place) := by
  fun_induction writeLoop supply addrEnd addr source memory generalizing bytes with
  | case1 addr source memory below ih =>
      obtain ⟨byte_eq, later⟩ := supplies.next
      obtain ⟨addr_lt, included⟩ := covers addr (Nat.le_refl _) below
      obtain ⟨stillReady, holds⟩ :=
        ih later covers.tail (view.ready_writeAddr _ _ _ ready included)
      refine ⟨stillReady, fun place place_lt includes => ?_⟩
      rw [holds place place_lt includes, view.byteAt_writeAddr _ _ _ _ ready included includes]
      rcases Nat.lt_trichotomy place addr with before | rfl | after
      · have apart : BitVec.ofNat 16 place ≠ BitVec.ofNat 16 addr := by bv_omega
        rw [if_neg (by omega), if_neg (by omega), Function.update_of_ne apart]
      · rw [if_neg (by omega), if_pos ⟨Nat.le_refl _, below⟩, Function.update_self, Nat.sub_self,
          byte_eq]
      · have apart : BitVec.ofNat 16 place ≠ BitVec.ofNat 16 addr := by bv_omega
        rw [Function.update_of_ne apart]
        by_cases reached : place < addrEnd
        · rw [if_pos (by omega), if_pos (by omega)]
          exact congrArg bytes (by omega)
        · rw [if_neg (by omega), if_neg (by omega)]
  | case2 addr source memory above =>
      refine ⟨ready, fun place _ _ => ?_⟩
      rw [if_neg (by omega)]

/-- A loop of reads stores what the addresses hold. -/
theorem readLoop_eq {addrEnd addr : Nat} (covers : Covers range addr addrEnd) {memory : μ}
    (ready : view.Ready memory) :
    (readLoop addrEnd addr memory).1 = (List.range (addrEnd - addr)).map fun offset =>
      view.byteAt memory (BitVec.ofNat 16 (addr + offset)) := by
  fun_induction readLoop addrEnd addr memory with
  | case1 addr memory below read rest ih =>
      obtain ⟨addr_lt, included⟩ := covers addr (Nat.le_refl _) below
      have left_eq : addrEnd - addr = addrEnd - (addr + 1) + 1 := by omega
      have tail_eq := ih covers.tail (view.ready_readAddr _ _ ready included)
      rw [left_eq, List.range_succ_eq_map, List.map_cons, List.map_map]
      refine congrArg₂ List.cons (view.readAddr_eq _ _ ready included) (tail_eq.trans ?_)
      refine List.map_congr_left fun offset member => ?_
      have offset_lt := List.mem_range.mp member
      have included' := (covers (addr + 1 + offset) (by omega) (by omega)).2
      rw [view.byteAt_readAddr _ _ _ ready included included', Function.comp_apply,
        Nat.succ_eq_add_one, Nat.add_assoc, Nat.add_comm 1]
  | case2 addr memory above =>
      have nothing : addrEnd - addr = 0 := by omega
      rw [nothing]
      rfl

end MemoryView

/-! ## Exact transfers -/

/-- The writes that a function of the offset makes to the addresses of a range that lie in memory,
in order. -/
def rangeWrites (range : MemoryAddrRange) (byteAt : Nat → Byte) : List Access :=
  offsetWrites byteAt range.addrLo.toNat range.capacity

/-- The three writers make exactly the writes of their range, and what has been copied in is copied
out again. -/
structure TransfersExactly (memory : μ) (range : MemoryAddrRange) (value : Byte) (word : Word)
    (bytes : Nat → Byte) : Prop where
  writeByte :
    (membusWriteByteToRange (Traced.mk memory []) range value).log.reverse =
      rangeWrites range fun _ => value
  writeWord :
    (membusWriteWordToRange (Traced.mk memory []) range word).log.reverse =
      rangeWrites range fun offset => if offset % 2 = 0 then word.low else word.high
  copyIn :
    (membusCopyInBytes (Traced.mk memory []) bytes range).log.reverse = rangeWrites range bytes
  copyOut : (membusCopyOutBytes (membusCopyInBytes memory bytes range) range).1 =
    (List.range range.capacity).map bytes

theorem bulkEnd_sub (range : MemoryAddrRange) :
    range.addrLo.toNat ≤ range.bulkEnd ∧
      (range.bulkEnd - range.addrLo.toNat = range.capacity ↔ range.limit ≤ 0x10000) := by
  have addrLo_lt := range.addrLo.isLt
  rw [MemoryAddrRange.bulkEnd, MemoryAddrRange.capacity, MemoryAddrRange.limit]
  split_ifs <;> omega

theorem covers_bulk (range : MemoryAddrRange) :
    MemoryView.Covers range range.addrLo.toNat range.bulkEnd := by
  intro place above below
  have place_lt : place < 0x10000 ∧ place < range.limit := by
    rw [MemoryAddrRange.bulkEnd] at below
    rw [MemoryAddrRange.limit]
    split_ifs at below <;> omega
  refine ⟨place_lt.1, (range.doesInclude_iff _).mpr ?_⟩
  rw [BitVec.toNat_ofNat, Nat.mod_eq_of_lt place_lt.1]
  exact ⟨above, place_lt.2⟩

/-- A loop over a range that makes the writes of the range covers all of it. -/
theorem writeLoop_log_eq_iff {σ : Type*} {supply : σ → Byte × σ} {source : σ}
    {byteAt : Nat → Byte} (supplies : Supplies supply source byteAt) (range : MemoryAddrRange)
    (memory : μ) :
    (writeLoop supply range.bulkEnd range.addrLo.toNat source
        (Traced.mk memory [])).log.reverse = rangeWrites range byteAt ↔
      range.limit ≤ 0x10000 := by
  rw [writeLoop_log supplies, List.append_nil, List.reverse_reverse, ← (bulkEnd_sub range).2,
    rangeWrites]
  constructor
  · intro same
    rw [← length_offsetWrites byteAt range.addrLo.toNat (range.bulkEnd - range.addrLo.toNat), same,
      length_offsetWrites]
  · intro covered
    rw [covered]

theorem toByte_and_low (word : Word) : Word.toByte (word &&& 0x00FF) = word.low := by
  apply BitVec.eq_of_toNat_eq
  have masked : word.toNat &&& 255 = word.toNat % 2 ^ 8 :=
    Nat.and_two_pow_sub_one_eq_mod word.toNat 8
  rw [Word.toByte, Word.low, BitVec.toNat_setWidth, BitVec.toNat_setWidth, BitVec.toNat_and]
  change (word.toNat &&& 255) % 2 ^ 8 = _
  rw [masked, Nat.mod_mod]

theorem supplies_word (word : Word) :
    Supplies (fun piece : Nat =>
        (if piece ≠ 0 then Word.toByte (word >>> 8) else Word.toByte (word &&& 0x00FF),
          (piece + 1) % 2)) 0
      fun offset => if offset % 2 = 0 then word.low else word.high := by
  rw [toByte_and_low]
  exact supplies_pieces word.low word.high

/-- What has been copied in is copied out again, as far as the loops go. -/
theorem copyOut_copyIn {range : MemoryAddrRange} (view : MemoryView μ range) {memory : μ}
    (ready : view.Ready memory) (bytes : Nat → Byte) :
    (membusCopyOutBytes (membusCopyInBytes memory bytes range) range).1 =
      (List.range (range.bulkEnd - range.addrLo.toNat)).map bytes := by
  have covers := covers_bulk range
  obtain ⟨stillReady, holds⟩ := view.byteAt_writeLoop (supplies_buffer bytes) covers ready
  refine (view.readLoop_eq covers stillReady).trans (List.map_congr_left fun offset member => ?_)
  have offset_lt := List.mem_range.mp member
  obtain ⟨place_lt, included⟩ :=
    covers (range.addrLo.toNat + offset) (by omega) (by omega)
  rw [holds _ place_lt included, if_pos (by omega), Nat.add_sub_cancel_left]

/-- The transfers are exact exactly on the ranges that do not pass the end of memory: on the others
they leave out the last address. -/
theorem transfersExactly_iff {range : MemoryAddrRange} (view : MemoryView μ range) (memory : μ)
    (ready : view.Ready memory) (value : Byte) (word : Word) (bytes : Nat → Byte) :
    TransfersExactly memory range value word bytes ↔ range.limit ≤ 0x10000 := by
  constructor
  · intro exactly
    exact (writeLoop_log_eq_iff (supplies_value value) range memory).mp exactly.writeByte
  · intro within
    have covered := (bulkEnd_sub range).2.mpr within
    exact
      { writeByte := (writeLoop_log_eq_iff (supplies_value value) range memory).mpr within
        writeWord := (writeLoop_log_eq_iff (supplies_word word) range memory).mpr within
        copyIn := (writeLoop_log_eq_iff (supplies_buffer bytes) range memory).mpr within
        copyOut := covered ▸ copyOut_copyIn view ready bytes }

/-- A page of a memory array. -/
theorem transfersExactly_page :
    TransfersExactly (fun _ => 0x00 : Ram) { addrLo := 0x0200, addrLen := 0x0100 } 0xEA 0xBEEF
      fun offset => BitVec.ofNat 8 offset :=
  (transfersExactly_iff (.ram _) _ trivial _ _ _).mpr (by decide)

/-- A range that passes the end of memory is not filled to its last address. -/
theorem not_transfersExactly_top :
    ¬ TransfersExactly (fun _ => 0x00 : Ram) { addrLo := 0xFFFF, addrLen := 2 } 0xEA 0xBEEF
      fun _ => 0x00 := by
  intro exactly
  have within :=
    (writeLoop_log_eq_iff (supplies_value 0xEA) _ (fun _ => 0x00 : Ram)).mp exactly.writeByte
  exact absurd within (by decide)

end System6502
