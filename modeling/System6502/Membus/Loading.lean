import System6502.Membus.Range
import System6502.Bus
import Mathlib.Data.List.Basic

/-!
# Loading memory from files

The loops of `membus_load_from_fd` and `membus_load_from_stream`, which write what they read in
chunks to successive addresses, and the reads with which they stay inside their range.
-/

namespace System6502

variable {μ : Type*} [Membus μ]

/-! ## The loops -/

/-- Write bytes to the addresses from a first one on. -/
def writeBytes : Nat → List Byte → μ → μ
  | _, [], memory => memory
  | addr, byte :: bytes, memory =>
      writeBytes (addr + 1) bytes (Membus.writeAddr memory (BitVec.ofNat 16 addr) byte)

/-- The bytes that `read` or `fread` returns when it has so many ready. -/
def readBytes (ready readLen : Nat) (input : List Byte) : List Byte :=
  input.take (min ready readLen)

/-- What a loop leaves. -/
structure LoadOutcome (μ : Type*) where
  /-- The memory. -/
  memory : μ
  /-- The input that has not been taken. -/
  rest : List Byte
  /-- `total_bytes`. -/
  totalBytes : Nat

/-- The loop of `membus_load_from_fd` and `membus_load_from_stream`; `ready` tells how many bytes
each read has ready, and an error counts as the end of the input. -/
def loadLoop (addrEnd : Nat) (ready : Nat → Nat) (addr : Nat) (input : List Byte) (memory : μ)
    (totalBytes : Nat) : LoadOutcome μ :=
  if addr < addrEnd then
    let readLen := addrEnd - addr + 1
    let readLen := if 4096 < readLen then 4096 else readLen
    let bytes := readBytes (ready 0) readLen input
    if _empty : bytes.length = 0 then { memory, rest := input, totalBytes }
    else
      loadLoop addrEnd (fun turn => ready (turn + 1)) (addr + bytes.length)
        (input.drop bytes.length) (writeBytes addr bytes memory) (totalBytes + bytes.length)
  else { memory, rest := input, totalBytes }
termination_by input.length
decreasing_by
  have : bytes.length ≤ input.length := List.length_take_le' _ _
  rw [List.length_drop]
  exact Nat.sub_lt (Nat.lt_of_lt_of_le (Nat.pos_of_ne_zero _empty) this)
    (Nat.pos_of_ne_zero _empty)

/-- The end of a range, cut off at the end of memory. -/
def MemoryAddrRange.loadEnd (range : MemoryAddrRange) : Nat :=
  let addrEnd := range.addrLo.toNat + range.addrLen.toNat
  if 0x10000 < addrEnd then 0x10000 else addrEnd

/-- `membus_load_from_fd`. -/
def membusLoadFromFd (memory : μ) (range : MemoryAddrRange) (ready : Nat → Nat)
    (fd : List Byte) : LoadOutcome μ :=
  loadLoop range.loadEnd ready range.addrLo.toNat fd memory 0

/-- `membus_load_from_stream`. -/
def membusLoadFromStream (memory : μ) (range : MemoryAddrRange) (ready : Nat → Nat)
    (stream : List Byte) : LoadOutcome μ :=
  loadLoop range.loadEnd ready range.addrLo.toNat stream memory 0

/-! ## Chunks -/

theorem writeBytes_append (addr : Nat) (first second : List Byte) (memory : μ) :
    writeBytes addr (first ++ second) memory =
      writeBytes (addr + first.length) second (writeBytes addr first memory) := by
  induction first generalizing addr memory with
  | nil => rfl
  | cons byte bytes ih =>
      rw [List.cons_append, writeBytes, ih, writeBytes, List.length_cons, Nat.add_assoc,
        Nat.add_comm 1]

/-- What a loop leaves after it has written so many bytes of its input. -/
def loaded (addr : Nat) (input : List Byte) (memory : μ) (totalBytes count : Nat) :
    LoadOutcome μ where
  memory := writeBytes addr (input.take count) memory
  rest := input.drop count
  totalBytes := totalBytes + count

theorem loaded_zero (addr : Nat) (input : List Byte) (memory : μ) (totalBytes : Nat) :
    loaded addr input memory totalBytes 0 = { memory, rest := input, totalBytes } := by
  rw [loaded, List.take_zero, List.drop_zero]
  rfl

/-- Writing one chunk and then more of the input is writing both together. -/
theorem loaded_add {bytes input : List Byte} (isPrefix : bytes <+: input) (addr : Nat) (memory : μ)
    (totalBytes count : Nat) :
    loaded (addr + bytes.length) (input.drop bytes.length) (writeBytes addr bytes memory)
        (totalBytes + bytes.length) count =
      loaded addr input memory totalBytes (bytes.length + count) := by
  rw [loaded, loaded, List.take_add, writeBytes_append, ← List.prefix_iff_eq_take.mp isPrefix,
    List.drop_drop, Nat.add_assoc]

/-- The bytes of so many reads, none of which fills less than the buffer for want of room. -/
def readTotal (ready : Nat → Nat) : Nat → Nat
  | 0 => 0
  | turns + 1 => min (ready 0) 4096 + readTotal (fun turn => ready (turn + 1)) turns

/-- Reads that have `left` bytes between them. -/
def LandsOn (ready : Nat → Nat) (left : Nat) : Prop := ∃ turns, readTotal ready turns = left

theorem landsOn_zero (ready : Nat → Nat) : LandsOn ready 0 := ⟨0, rfl⟩

/-- Whether reads land on a place after the first of them. -/
theorem landsOn_iff {ready : Nat → Nat} {left chunk : Nat} (positive : 0 < left)
    (chunk_eq : min (ready 0) 4096 = chunk) :
    LandsOn ready left ↔
      chunk ≤ left ∧ LandsOn (fun turn => ready (turn + 1)) (left - chunk) := by
  constructor
  · rintro ⟨turns, total_eq⟩
    cases turns with
    | zero =>
        rw [readTotal] at total_eq
        omega
    | succ turns =>
        rw [readTotal, chunk_eq] at total_eq
        exact ⟨by omega, turns, by omega⟩
  · rintro ⟨chunk_le, turns, total_eq⟩
    refine ⟨turns + 1, ?_⟩
    rw [readTotal, chunk_eq, total_eq]
    omega

/-! ## What is loaded -/

theorem loadLoop_above {addrEnd addr : Nat} (above : addrEnd ≤ addr) (ready : Nat → Nat)
    (input : List Byte) (memory : μ) (totalBytes : Nat) :
    loadLoop addrEnd ready addr input memory totalBytes =
      loaded addr input memory totalBytes 0 := by
  rw [loadLoop, if_neg (Nat.not_lt.mpr above), loaded_zero]

/-- The loop writes the input up to the end when all of it fits or the reads land on the end, and
one byte more otherwise. -/
theorem loadLoop_eq {addrEnd addr : Nat} (addr_le : addr ≤ addrEnd) (ready : Nat → Nat)
    (positive : ∀ turn, 0 < ready turn) (input : List Byte) (memory : μ) (totalBytes : Nat) :
    (input.length ≤ addrEnd - addr ∨ LandsOn ready (addrEnd - addr) →
      loadLoop addrEnd ready addr input memory totalBytes =
        loaded addr input memory totalBytes (min input.length (addrEnd - addr))) ∧
    (¬ (input.length ≤ addrEnd - addr ∨ LandsOn ready (addrEnd - addr)) →
      loadLoop addrEnd ready addr input memory totalBytes =
        loaded addr input memory totalBytes (addrEnd - addr + 1)) := by
  fun_induction loadLoop addrEnd ready addr input memory totalBytes with
  | case1 ready addr input memory totalBytes below readLen readLen' bytes empty =>
      have ready_pos := positive 0
      have length_eq : bytes.length = min (min (ready 0) readLen') input.length :=
        List.length_take
      have readLen_eq : readLen' = if 4096 < readLen then 4096 else readLen := rfl
      have input_empty : input.length = 0 := by
        split_ifs at readLen_eq <;> omega
      rw [input_empty, Nat.zero_min, loaded_zero]
      exact ⟨fun _ => rfl, fun none => absurd (.inl (Nat.zero_le _)) none⟩
  | case2 ready addr input memory totalBytes below readLen readLen' bytes more ih =>
      have isPrefix : bytes <+: input := List.take_prefix _ _
      have length_eq : bytes.length = min (min (ready 0) readLen') input.length :=
        List.length_take
      have readLen_eq : readLen' = min (addrEnd - addr + 1) 4096 := by
        have : readLen' = if 4096 < readLen then 4096 else readLen := rfl
        split_ifs at this <;> omega
      rcases Nat.lt_or_ge (addrEnd - addr) bytes.length with beyond | within
      · have chunk_eq : bytes.length = addrEnd - addr + 1 := by omega
        have misses : ¬ (input.length ≤ addrEnd - addr ∨ LandsOn ready (addrEnd - addr)) := by
          rintro (short | lands)
          · omega
          · obtain ⟨chunk_le, -⟩ := (landsOn_iff (by omega) rfl).mp lands
            omega
        refine ⟨fun lands => absurd lands misses, fun _ => ?_⟩
        rw [loadLoop_above (by omega), loaded_add isPrefix, chunk_eq]
      · obtain ⟨reaches, passes⟩ := ih (by omega) fun turn => positive (turn + 1)
        have left_eq : addrEnd - (addr + bytes.length) = addrEnd - addr - bytes.length :=
          Nat.sub_add_eq _ _ _
        rw [left_eq, loaded_add isPrefix, List.length_drop] at reaches passes
        have lands_iff : (input.length - bytes.length ≤ addrEnd - addr - bytes.length ∨
            LandsOn (fun turn => ready (turn + 1)) (addrEnd - addr - bytes.length)) ↔
              (input.length ≤ addrEnd - addr ∨ LandsOn ready (addrEnd - addr)) := by
          rcases Nat.lt_or_ge (addrEnd - addr) input.length with long | short
          · rw [landsOn_iff (by omega) (by omega : min (ready 0) 4096 = bytes.length)]
            constructor
            · rintro (short | lands)
              · omega
              · exact .inr ⟨within, lands⟩
            · rintro (short | ⟨-, lands⟩)
              · omega
              · exact .inr lands
          · exact iff_of_true (.inl (by omega)) (.inl short)
        rw [lands_iff] at reaches passes
        constructor
        · intro lands
          rw [reaches lands]
          exact congrArg (loaded addr input memory totalBytes) (by omega)
        · intro misses
          rw [passes misses]
          exact congrArg (loaded addr input memory totalBytes) (by omega)
  | case3 ready addr input memory totalBytes above =>
      obtain rfl : addr = addrEnd := Nat.le_antisymm addr_le (Nat.not_lt.mp above)
      rw [Nat.sub_self, Nat.min_zero, loaded_zero]
      exact ⟨fun _ => rfl, fun none => absurd (.inr (landsOn_zero ready)) none⟩

/-- The addresses of a range that lie in memory. -/
def MemoryAddrRange.capacity (range : MemoryAddrRange) : Nat :=
  min range.addrLen.toNat (0x10000 - range.addrLo.toNat)

theorem MemoryAddrRange.loadEnd_sub (range : MemoryAddrRange) :
    range.addrLo.toNat ≤ range.loadEnd ∧
      range.loadEnd - range.addrLo.toNat = range.capacity := by
  have := range.addrLo.isLt
  rw [loadEnd, capacity]
  split_ifs <;> omega

/-- A load has written the input to the addresses of its range as far as they go, and nothing else,
taken no more of it, and returned the number of bytes written. -/
def LoadsExactly (range : MemoryAddrRange) (input : List Byte) (memory : μ)
    (outcome : LoadOutcome μ) : Prop :=
  let count := min input.length range.capacity
  outcome.memory = writeBytes range.addrLo.toNat (input.take count) memory ∧
    outcome.rest = input.drop count ∧ outcome.totalBytes = count

theorem loadsExactly_iff (memory : μ) (range : MemoryAddrRange) (ready : Nat → Nat)
    (positive : ∀ turn, 0 < ready turn) (input : List Byte) :
    LoadsExactly range input memory
        (loadLoop range.loadEnd ready range.addrLo.toNat input memory 0) ↔
      input.length ≤ range.capacity ∨ LandsOn ready range.capacity := by
  obtain ⟨addrLo_le, capacity_eq⟩ := range.loadEnd_sub
  obtain ⟨reaches, passes⟩ := loadLoop_eq addrLo_le ready positive input memory 0
  rw [capacity_eq] at reaches passes
  constructor
  · rintro ⟨-, -, total_eq⟩
    by_contra misses
    rw [passes misses] at total_eq
    change 0 + (range.capacity + 1) = min input.length range.capacity at total_eq
    omega
  · intro lands
    rw [reaches lands]
    exact ⟨rfl, rfl, Nat.zero_add _⟩

/-- Both functions load exactly what fits the range when the input is not longer or the reads land
on the end of the range, and only then. -/
theorem membusLoad_exact_iff (memory : μ) (range : MemoryAddrRange) (ready : Nat → Nat)
    (positive : ∀ turn, 0 < ready turn) (input : List Byte) :
    (LoadsExactly range input memory (membusLoadFromFd memory range ready input) ↔
      input.length ≤ range.capacity ∨ LandsOn ready range.capacity) ∧
    (LoadsExactly range input memory (membusLoadFromStream memory range ready input) ↔
      input.length ≤ range.capacity ∨ LandsOn ready range.capacity) :=
  ⟨loadsExactly_iff memory range ready positive input,
    loadsExactly_iff memory range ready positive input⟩

/-- Two bytes for two addresses. -/
theorem membusLoad_exact_two :
    LoadsExactly { addrLo := 0x0200, addrLen := 2 } [0x12, 0x34] (fun _ => 0x00 : Ram)
      (membusLoadFromFd (fun _ => 0x00 : Ram) { addrLo := 0x0200, addrLen := 2 } (fun _ => 4096)
        [0x12, 0x34]) :=
  (membusLoad_exact_iff _ _ _ (fun _ => by decide) _).1.mpr (.inl (by decide))

/-- A file of two bytes fills a range of one address and the address after it. -/
theorem membusLoad_over :
    ¬ LoadsExactly { addrLo := 0x0200, addrLen := 1 } [0x12, 0x34] (fun _ => 0x00 : Ram)
      (membusLoadFromFd (fun _ => 0x00 : Ram) { addrLo := 0x0200, addrLen := 1 } (fun _ => 4096)
        [0x12, 0x34]) := by
  rintro ⟨-, -, total_eq⟩
  have misses : ¬ ([0x12, 0x34].length ≤ 0x0201 - 0x0200 ∨ LandsOn (fun _ => 4096) 1) := by
    rintro (short | lands)
    · exact absurd short (by decide)
    · exact absurd ((landsOn_iff (by decide) rfl).mp lands).1 (by decide)
  have passes := (loadLoop_eq (by decide) (fun _ => 4096) (fun _ => by decide) [0x12, 0x34]
    (fun _ => 0x00 : Ram) 0).2 misses
  exact absurd ((congrArg LoadOutcome.totalBytes passes).symm.trans total_eq) (by decide)

end System6502
