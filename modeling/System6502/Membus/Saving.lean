import System6502.Membus.Loading
import Mathlib.Algebra.BigOperators.Group.List.Basic

/-!
# Saving memory to files

The loop of `membus_save_to_fd`, which hands a range to `write` in chunks and moves on by the size
of a chunk, whatever `write` makes of it.
-/

namespace System6502

variable {μ : Type*} [Membus μ]

/-! ## The loop -/

/-- Read the bytes at so many addresses from a first one on. -/
def readRange : Nat → Nat → μ → List Byte × μ
  | _, 0, memory => ([], memory)
  | addr, count + 1, memory =>
      let read := Membus.readAddr memory (BitVec.ofNat 16 addr)
      let rest := readRange (addr + 1) count read.2
      (read.1 :: rest.1, rest.2)

/-- What one `write` is prepared for: so many bytes, or an error. -/
abbrev WriteAnswer := Option { count : Nat // 0 < count }

/-- `write`: the number of bytes it accepts, or -1. -/
def writeFd (answer : WriteAnswer) (buffer : List Byte) : Int :=
  match answer with
  | none => -1
  | some count => min count.val buffer.length

theorem writeFd_some (count : { count : Nat // 0 < count }) (buffer : List Byte) :
    writeFd (some count) buffer = min (count.val : Int) buffer.length := rfl

/-- What a save leaves. -/
structure SaveOutcome (μ : Type*) where
  /-- The memory. -/
  memory : μ
  /-- The buffers handed to `write`, with what it returned. -/
  writes : List (List Byte × Int)
  /-- `total_bytes`. -/
  totalBytes : Int

/-- The loop of `membus_save_to_fd`; `answers` tells what each `write` is prepared for. -/
def saveLoop (addrEnd : Nat) (answers : Nat → WriteAnswer) (addr : Nat) (memory : μ)
    (totalBytes : Int) : SaveOutcome μ :=
  if addr < addrEnd then
    let writeLen := addrEnd - addr
    let writeLen := if 4096 < writeLen then 4096 else writeLen
    let buffer := readRange addr writeLen memory
    let bytesWritten := writeFd (answers 0) buffer.1
    let outcome := saveLoop addrEnd (fun turn => answers (turn + 1)) (addr + writeLen) buffer.2
      (totalBytes + bytesWritten)
    { outcome with writes := (buffer.1, bytesWritten) :: outcome.writes }
  else { memory, writes := [], totalBytes }
termination_by addrEnd - addr
decreasing_by split <;> omega

/-- `membus_save_to_fd`. -/
def membusSaveToFd (memory : μ) (range : MemoryAddrRange) (answers : Nat → WriteAnswer) :
    SaveOutcome μ :=
  saveLoop range.loadEnd answers range.addrLo.toNat memory 0

/-! ## Writes and what they emit -/

/-- The bytes that reach the descriptor. -/
def emitted (writes : List (List Byte × Int)) : List Byte :=
  writes.flatMap fun write => write.1.take write.2.toNat

/-- The sum of what the writes returned. -/
def returned (writes : List (List Byte × Int)) : Int := (writes.map Prod.snd).sum

@[simp]
theorem emitted_cons (write : List Byte × Int) (writes : List (List Byte × Int)) :
    emitted (write :: writes) = write.1.take write.2.toNat ++ emitted writes := rfl

@[simp]
theorem returned_cons (write : List Byte × Int) (writes : List (List Byte × Int)) :
    returned (write :: writes) = write.2 + returned writes := List.sum_cons

/-- A write fails or accepts no more than it is handed. -/
def Plausible (write : List Byte × Int) : Prop :=
  write.2 = -1 ∨ 0 ≤ write.2 ∧ write.2 ≤ write.1.length

/-- A write accepts all it is handed. -/
def Full (write : List Byte × Int) : Prop := write.2 = write.1.length

theorem plausible_writeFd (answer : WriteAnswer) (buffer : List Byte) :
    Plausible (buffer, writeFd answer buffer) := by
  cases answer with
  | none => exact .inl rfl
  | some count =>
      refine .inr ⟨?_, ?_⟩ <;> simp only [writeFd_some] <;> omega

theorem length_take_eq {write : List Byte × Int} (bounded : Plausible write) :
    ((write.1.take write.2.toNat).length : Int) = max write.2 0 := by
  rw [List.length_take]
  obtain failed | ⟨nonneg, le⟩ := bounded <;> omega

/-- Each write that fails takes one from the sum. -/
theorem returned_le {writes : List (List Byte × Int)}
    (bounded : ∀ write ∈ writes, Plausible write) :
    returned writes ≤ (emitted writes).length ∧
      (returned writes = (emitted writes).length → ∀ write ∈ writes, write.2 ≠ -1) := by
  induction writes with
  | nil => exact ⟨le_refl 0, fun _ write absent => absurd absent List.not_mem_nil⟩
  | cons write writes ih =>
      have head := length_take_eq (bounded write List.mem_cons_self)
      obtain ⟨le, honest⟩ := ih fun later member => bounded later (List.mem_cons_of_mem _ member)
      rw [returned_cons, emitted_cons, List.length_append]
      refine ⟨by omega, fun exact_sum later member => ?_⟩
      obtain rfl | member := List.mem_cons.mp member
      · omega
      · exact honest (by omega) later member

/-- Writes emit no more than they are handed, and all of it only if each is full. -/
theorem length_emitted_le {writes : List (List Byte × Int)}
    (bounded : ∀ write ∈ writes, Plausible write) :
    (emitted writes).length ≤ (writes.flatMap Prod.fst).length ∧
      ((emitted writes).length = (writes.flatMap Prod.fst).length →
        (∀ write ∈ writes, write.2 ≠ -1) → ∀ write ∈ writes, Full write) := by
  induction writes with
  | nil => exact ⟨le_refl 0, fun _ _ write absent => absurd absent List.not_mem_nil⟩
  | cons write writes ih =>
      have written := bounded write List.mem_cons_self
      have head := length_take_eq written
      have head_le : (write.1.take write.2.toNat).length ≤ write.1.length :=
        List.length_take_le' _ _
      obtain ⟨le, complete⟩ := ih fun later member =>
        bounded later (List.mem_cons_of_mem _ member)
      rw [emitted_cons, List.flatMap_cons, List.length_append, List.length_append]
      refine ⟨by omega, fun same honest later member => ?_⟩
      obtain rfl | member := List.mem_cons.mp member
      · have := honest later List.mem_cons_self
        obtain failed | ⟨nonneg, accepted_le⟩ := written
        · exact absurd failed this
        · rw [Full]
          omega
      · exact complete (by omega)
          (fun other among => honest other (List.mem_cons_of_mem _ among)) later member

theorem emitted_full {writes : List (List Byte × Int)} (full : ∀ write ∈ writes, Full write) :
    emitted writes = writes.flatMap Prod.fst ∧
      returned writes = (writes.flatMap Prod.fst).length := by
  induction writes with
  | nil => exact ⟨rfl, rfl⟩
  | cons write writes ih =>
      have head : write.2 = write.1.length := full write List.mem_cons_self
      obtain ⟨same, sum_eq⟩ := ih fun later member => full later (List.mem_cons_of_mem _ member)
      rw [emitted_cons, returned_cons, List.flatMap_cons, List.length_append, same, sum_eq, head,
        Int.toNat_natCast, List.take_length, Nat.cast_add]
      exact ⟨rfl, rfl⟩

/-! ## What the loop hands out -/

theorem readRange_add (addr first second : Nat) (memory : μ) :
    readRange addr (first + second) memory =
      ((readRange addr first memory).1 ++
          (readRange (addr + first) second (readRange addr first memory).2).1,
        (readRange (addr + first) second (readRange addr first memory).2).2) := by
  induction first generalizing addr memory with
  | zero => rw [Nat.zero_add]; rfl
  | succ first ih =>
      rw [Nat.succ_add, readRange, ih, Nat.add_right_comm addr 1 first]
      rfl

@[simp]
theorem length_readRange (addr count : Nat) (memory : μ) :
    (readRange addr count memory).1.length = count := by
  induction count generalizing addr memory with
  | zero => rfl
  | succ count ih => rw [readRange, List.length_cons, ih]

/-- Each write that is made accepts its whole chunk of what is left. -/
def AcceptsAll (answers : Nat → WriteAnswer) (left : Nat) : Prop :=
  ∀ turn, 4096 * turn < left →
    ∃ count, answers turn = some count ∧ min 4096 (left - 4096 * turn) ≤ count.val

theorem acceptsAll_zero (answers : Nat → WriteAnswer) : AcceptsAll answers 0 :=
  fun _ below => absurd below (Nat.not_lt_zero _)

theorem acceptsAll_iff {answers : Nat → WriteAnswer} {left : Nat} (positive : 0 < left) :
    AcceptsAll answers left ↔
      (∃ count, answers 0 = some count ∧ min 4096 left ≤ count.val) ∧
        AcceptsAll (fun turn => answers (turn + 1)) (left - min 4096 left) := by
  constructor
  · intro accepts
    refine ⟨accepts 0 (by omega), fun turn below => ?_⟩
    obtain ⟨count, answer_eq, le⟩ := accepts (turn + 1) (by omega)
    exact ⟨count, answer_eq, by omega⟩
  · rintro ⟨first, later⟩ turn below
    cases turn with
    | zero => exact first
    | succ turn =>
        obtain ⟨count, answer_eq, le⟩ := later turn (by omega)
        exact ⟨count, answer_eq, by omega⟩

theorem full_writeFd_iff (answer : WriteAnswer) (buffer : List Byte) :
    Full (buffer, writeFd answer buffer) ↔
      ∃ count, answer = some count ∧ buffer.length ≤ count.val := by
  cases answer with
  | none =>
      have fails : writeFd none buffer = -1 := rfl
      refine iff_of_false (fun full => ?_) (by rintro ⟨count, absent, -⟩; cases absent)
      rw [Full, fails] at full
      omega
  | some count =>
      simp only [Full, writeFd_some, Option.some.injEq, exists_eq_left']
      omega

/-- The loop hands out the bytes of the range in order, each read once, and returns the sum of what
its writes return; they are full when the answers accept all. -/
theorem saveLoop_spec (addrEnd : Nat) (answers : Nat → WriteAnswer) (addr : Nat) (memory : μ)
    (totalBytes : Int) :
    let outcome := saveLoop addrEnd answers addr memory totalBytes
    (outcome.writes.flatMap Prod.fst, outcome.memory) = readRange addr (addrEnd - addr) memory ∧
      outcome.totalBytes = totalBytes + returned outcome.writes ∧
      (∀ write ∈ outcome.writes, Plausible write) ∧
      ((∀ write ∈ outcome.writes, Full write) ↔ AcceptsAll answers (addrEnd - addr)) := by
  fun_induction saveLoop addrEnd answers addr memory totalBytes with
  | case1 answers addr memory totalBytes below left writeLen buffer bytesWritten outcome ih =>
      have writeLen_eq : writeLen = min 4096 (addrEnd - addr) := by
        have : writeLen = if 4096 < left then 4096 else left := rfl
        have : left = addrEnd - addr := rfl
        split_ifs at * <;> omega
      obtain ⟨handed, total_eq, bounded, full_iff⟩ := ih
      have left_eq : addrEnd - (addr + writeLen) = addrEnd - addr - min 4096 (addrEnd - addr) := by
        omega
      have length_eq : buffer.1.length = min 4096 (addrEnd - addr) := by
        rw [← writeLen_eq]
        exact length_readRange _ _ _
      refine ⟨?_, ?_, ?_, ?_⟩
      · have split_eq : addrEnd - addr = writeLen + (addrEnd - (addr + writeLen)) := by omega
        rw [split_eq, readRange_add, List.flatMap_cons]
        exact congrArg (fun rest : List Byte × μ => (buffer.1 ++ rest.1, rest.2)) handed
      · rw [returned_cons, ← Int.add_assoc]
        exact total_eq
      · intro write member
        obtain rfl | member := List.mem_cons.mp member
        · exact plausible_writeFd _ _
        · exact bounded write member
      · rw [List.forall_mem_cons, acceptsAll_iff (by omega), full_writeFd_iff, length_eq, full_iff,
          left_eq]
  | case2 answers addr memory totalBytes above =>
      have nothing : addrEnd - addr = 0 := by omega
      rw [nothing]
      refine ⟨rfl, (Int.add_zero _).symm, fun write absent => absurd absent List.not_mem_nil, ?_⟩
      exact iff_of_true (fun write absent => absurd absent List.not_mem_nil) (acceptsAll_zero _)

/-! ## Exact saves -/

/-- The bytes of a range, as far as it goes in memory. -/
def MemoryAddrRange.bytes (range : MemoryAddrRange) (memory : μ) : List Byte :=
  (readRange range.addrLo.toNat range.capacity memory).1

/-- A save emits the bytes of its range up to some point, all of them unless a write fails, and
returns their number. -/
def SavesExactly (range : MemoryAddrRange) (memory : μ) (outcome : SaveOutcome μ) : Prop :=
  emitted outcome.writes <+: range.bytes memory ∧
    ((∀ write ∈ outcome.writes, write.2 ≠ -1) → emitted outcome.writes = range.bytes memory) ∧
    outcome.totalBytes = (emitted outcome.writes).length

/-- A save is exact when each of its writes accepts its whole chunk, and only then: a byte that is
not accepted is lost, and a write that fails counts for -1. -/
theorem membusSaveToFd_exact_iff (memory : μ) (range : MemoryAddrRange)
    (answers : Nat → WriteAnswer) :
    SavesExactly range memory (membusSaveToFd memory range answers) ↔
      AcceptsAll answers range.capacity := by
  obtain ⟨handed, total_eq, bounded, full_iff⟩ :=
    saveLoop_spec range.loadEnd answers range.addrLo.toNat memory 0
  rw [range.loadEnd_sub.2] at handed full_iff
  have bytes_eq : (membusSaveToFd memory range answers).writes.flatMap Prod.fst =
      range.bytes memory := congrArg Prod.fst handed
  rw [Int.zero_add] at total_eq
  constructor
  · rintro ⟨-, complete, count_eq⟩
    have honest := (returned_le bounded).2 (total_eq.symm.trans count_eq)
    have same : (emitted (membusSaveToFd memory range answers).writes).length =
        ((membusSaveToFd memory range answers).writes.flatMap Prod.fst).length := by
      rw [complete honest, bytes_eq]
    exact full_iff.mp ((length_emitted_le bounded).2 same honest)
  · intro accepts
    obtain ⟨same, sum_eq⟩ := emitted_full (full_iff.mpr accepts)
    have all : emitted (membusSaveToFd memory range answers).writes = range.bytes memory :=
      same.trans bytes_eq
    exact ⟨all ▸ List.prefix_refl _, fun _ => all,
      (total_eq.trans sum_eq).trans (by rw [all, ← bytes_eq]; rfl)⟩

/-- A `write` that accepts one byte of two leaves the other out. -/
theorem membusSaveToFd_short :
    ¬ ∀ (memory : Ram) (range : MemoryAddrRange) (answers : Nat → WriteAnswer),
      SavesExactly range memory (membusSaveToFd memory range answers) := by
  intro exact_save
  obtain ⟨-, complete, -⟩ := exact_save (fun _ => 0x00) { addrLo := 0x0200, addrLen := 2 }
    fun _ => some ⟨1, Nat.one_pos⟩
  have writes_eq : (membusSaveToFd (fun _ => 0x00 : Ram) { addrLo := 0x0200, addrLen := 2 }
      fun _ => some ⟨1, Nat.one_pos⟩).writes = [([0x00, 0x00], 1)] := by
    rw [membusSaveToFd, saveLoop, if_pos (by decide)]
    change _ :: (saveLoop 514 _ 514 _ _).writes = _
    rw [saveLoop, if_neg (by decide)]
    rfl
  rw [writes_eq] at complete
  exact absurd (congrArg List.length (complete (by decide))) (by decide)

end System6502
