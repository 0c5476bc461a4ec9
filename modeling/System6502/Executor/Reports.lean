import System6502.Executor.Verbose
import System6502.Isa.InstructionStream
import System6502.Membus.CacheLog

/-!
# What inline disassembly reports

The bytes that the disassembly functions pop from the caches after an instruction, beside the bytes
of the instruction that they are printed for.
-/

namespace System6502

open Lib System6502.Frame

/-! ## Printed bytes -/

/-- What a disassembly function prints a byte for. -/
inductive PrintedByte
  /-- The operand byte at a distance from the opcode. -/
  | operand (distance : Nat)
  /-- The data byte that was read. -/
  | dataRead
  /-- The data byte that was written. -/
  | dataWritten
  /-- A byte of a pointer or of a jump target, or one that is not printed. -/
  | other
  deriving DecidableEq, Repr

namespace AddressingMode

open PrintedByte

/-- The operand bytes in the order in which they are popped. -/
def printedOperands : AddressingMode → List PrintedByte
  | immediate | relative | zeropage | zeropageXIndexed | zeropageYIndexed => [operand 1]
  | absolute | absoluteXIndexed | absoluteYIndexed => [operand 2, operand 1]
  | xIndexedIndirect | indirectYIndexed => [other, other, operand 1]
  | indirect | absoluteXIndexedIndirect => [other, other, operand 2, operand 1]
  | zeropageIndirect => [other]
  | _ => []

/-- What is printed by the functions that pop some data bytes before the operand.  In immediate mode
the operand is the data byte. -/
def printedAfter (data : List PrintedByte) (mode : AddressingMode) : List PrintedByte :=
  if mode = immediate then mode.printedOperands else data ++ mode.printedOperands

end AddressingMode

/-- What the bytes are printed for that the disassembly function of an instruction pops.  Nothing is
printed in a mode that its switch lacks. -/
def Routine.printed (mode : AddressingMode) (routine : Routine) : List PrintedByte :=
  if routine.inlineDisasm mode = [] then []
  else
    match routine with
    | STX | STY | JMP | JMP65C02 | JSR | BCC | BCS | BEQ | BMI | BNE | BPL | BVC | BVS
    | BRA65C02 => mode.printedOperands
    | STA | STA65C02 | STZ65C02 => mode.printedAfter [.dataWritten]
    | ASL | LSR | ROL | ROR | DEC | INC | ASL65C02 | LSR65C02 | ROL65C02 | ROR65C02 | DEC65C02
    | INC65C02 => mode.printedAfter [.dataRead, .dataWritten]
    | TRB65C02 | TSB65C02 => mode.printedAfter [.dataWritten, .dataRead]
    | BRK | BRK65C02 => [.operand 1]
    | _ => mode.printedAfter [.dataRead]

/-! ## Logs -/

namespace Entry

/-- The reads of a log in order. -/
def reads (log : List Entry) : List (Word × Byte) :=
  (Traced.reads (log.map Entry.access)).reverse

/-- The bytes of the reads of a log in order. -/
def readBytes (log : List Entry) : List Byte := (reads log).map Prod.snd

/-- The bytes of the writes of a log in order. -/
def writtenBytes (log : List Entry) : List Byte :=
  ((Traced.writes (log.map Entry.access)).map Prod.snd).reverse

/-- The byte that a byte is printed for: an operand byte is the one first read at its address, and
data bytes are those that follow the operand. -/
def due (log : List Entry) (PC : Word) (count : Nat) : PrintedByte → Option Byte
  | .operand distance =>
      ((reads log).find? fun read => read.1 = PC + BitVec.ofNat 16 distance).map Prod.snd
  | .dataRead => ((readBytes log).drop (1 + count)).getLast?
  | .dataWritten => (writtenBytes log).getLast?
  | .other => none

end Entry

namespace CachePop

/-- Some pops with the number of pops of the same cache before each of them. -/
def depths (reads writes : Nat) : List CachePop → List (CachePop × Nat)
  | [] => []
  | read :: rest => (read, reads) :: depths (reads + 1) writes rest
  | write :: rest => (write, writes) :: depths reads (writes + 1) rest

end CachePop

/-- The items that a routine prints, each with the pop of its byte. -/
def Routine.items (routine : Routine) (mode : AddressingMode) :
    List (PrintedByte × CachePop × Nat) :=
  (routine.printed mode).zip (CachePop.depths 0 0 (routine.inlineDisasm mode))

/-! ## Tallies -/

/-- How many accesses an instruction makes, its opcode fetch among them. -/
structure Tally where
  /-- The bytes that it fetches from the instruction stream. -/
  fetches : Nat
  /-- All its reads. -/
  reads : Nat
  /-- Its writes. -/
  writes : Nat
  deriving DecidableEq, Repr

namespace AddressingMode

/-- The accesses of an instruction that reads its operand. -/
def loadTally : AddressingMode → Tally
  | immediate => ⟨2, 2, 0⟩
  | zeropage | zeropageXIndexed | zeropageYIndexed => ⟨2, 3, 0⟩
  | absolute | absoluteXIndexed | absoluteYIndexed => ⟨3, 4, 0⟩
  | xIndexedIndirect | indirectYIndexed | zeropageIndirect => ⟨2, 5, 0⟩
  | _ => ⟨1, 1, 0⟩

/-- The accesses of `LDA`. -/
def ldaTally : AddressingMode → Tally
  | xIndexedIndirect => ⟨2, 4, 0⟩
  | mode => mode.loadTally

/-- The accesses of `CMP`. -/
def cmpTally : AddressingMode → Tally
  | zeropage | zeropageXIndexed | xIndexedIndirect | indirectYIndexed | zeropageIndirect =>
      ⟨2, 2, 0⟩
  | mode => mode.loadTally

/-- The accesses of an instruction that stores a register. -/
def storeTally : AddressingMode → Tally
  | zeropage | zeropageXIndexed | zeropageYIndexed => ⟨2, 2, 1⟩
  | absolute | absoluteXIndexed | absoluteYIndexed => ⟨3, 3, 1⟩
  | zeropageIndirect => ⟨2, 4, 1⟩
  | _ => ⟨1, 1, 0⟩

/-- The accesses of an instruction that reads its operand and makes some writes. -/
def modifyTally (writes : Nat) (mode : AddressingMode) : Tally :=
  if mode = accumulator then ⟨1, 1, 0⟩ else { mode.loadTally with writes }

/-- The accesses of `JMP`. -/
def jmpTally : AddressingMode → Tally
  | absolute => ⟨3, 3, 0⟩
  | _ => ⟨3, 5, 0⟩

end AddressingMode

/-- The accesses of a staged instruction that completes. -/
def Routine.tally (mode : AddressingMode) : Routine → Tally
  | LDA | LDA65C02 => mode.ldaTally
  | CMP | CMP65C02 => mode.cmpTally
  | STA | STA65C02 | STX | STY | STZ65C02 => mode.storeTally
  | ASL | LSR | ROL | ROR | ASL65C02 | LSR65C02 | ROL65C02 | ROR65C02 => mode.modifyTally 0
  | INC | DEC | INC65C02 | DEC65C02 | TSB65C02 | TRB65C02 => mode.modifyTally 1
  | JMP | JMP65C02 => mode.jmpTally
  | JSR => ⟨3, 3, 2⟩
  | RTS => ⟨1, 3, 0⟩
  | RTI => ⟨1, 4, 0⟩
  | BRK | BRK65C02 => ⟨2, 4, 3⟩
  | PHA | PHP | PHX65C02 | PHY65C02 => ⟨1, 1, 1⟩
  | PLA | PLP | PLX65C02 | PLY65C02 => ⟨1, 2, 0⟩
  | BCC | BCS | BEQ | BMI | BNE | BPL | BVC | BVS | BRA65C02 => ⟨2, 2, 0⟩
  | CLC | CLD | CLI | CLV | DEX | DEY | INX | INY | NOP | SEC | SED | SEI | TAX | TAY | TSX | TXA
  | TXS | TYA => ⟨1, 1, 0⟩
  | _ => mode.loadTally

/-- The operand bytes of a mode are all printed. -/
def Routine.PrintsOperands (routine : Routine) (mode : AddressingMode) : Prop :=
  ∀ count ∈ mode.operandCount, ∀ before < count, .operand (before + 1) ∈ routine.printed mode

/-- The byte that is popped for an item is its due. -/
def Tally.InStep (tally : Tally) (count : Nat) : PrintedByte × CachePop × Nat → Prop
  | (.operand distance, .read, depth) =>
      distance < tally.fetches ∧ depth + distance + 1 = tally.reads
  | (.dataRead, .read, depth) => depth = 0 ∧ 1 + count < tally.reads
  | (.dataWritten, .write, depth) => depth = 0 ∧ 0 < tally.writes
  | (.other, _) => True
  | _ => False

/-- There is no byte that an item is due. -/
def Tally.Lacks (tally : Tally) (count : Nat) : PrintedByte × CachePop × Nat → Prop
  | (.dataRead, _) => tally.reads ≤ 1 + count
  | (.dataWritten, _) => tally.writes = 0
  | _ => False

instance (routine : Routine) (mode : AddressingMode) : Decidable (routine.PrintsOperands mode) :=
  match count_eq : mode.operandCount with
  | none => isTrue fun count count_mem => by rw [count_eq] at count_mem; cases count_mem
  | some count => decidable_of_iff
      (∀ before < count, .operand (before + 1) ∈ routine.printed mode) (by
        simp [Routine.PrintsOperands, count_eq])

instance (tally : Tally) (count : Nat) : DecidablePred (tally.InStep count) := fun item => by
  unfold Tally.InStep
  split <;> infer_instance

instance (tally : Tally) (count : Nat) : DecidablePred (tally.Lacks count) := fun item => by
  unfold Tally.Lacks
  split <;> infer_instance

/-! ## Reports -/

section Reports

variable {δ σ : Type*} {modules : δ → MembusModule σ}

/-- Every operand byte is printed, and each byte that is popped is the one it is printed for. -/
structure Routine.Reports (routine : Routine) (mode : AddressingMode) (PC : Word)
    (log : List Entry) (memory : DeviceBus modules) : Prop where
  /-- The operand bytes. -/
  operands : routine.PrintsOperands mode
  /-- The popped bytes. -/
  bytes : ∀ shown ∈ (routine.printed mode).zip
      (CachePop.runAll (routine.inlineDisasm mode) memory).1,
    shown.1 ≠ .other → Entry.due log PC (mode.operandCount.getD 0) shown.1 = some shown.2

/-- The byte of a pop after some others. -/
def MembusCache.popped (cache : MembusCache) : CachePop × Nat → Byte
  | (.read, depth) => cache.readEntry depth
  | (.write, depth) => cache.writeEntry depth

/-- The byte of the cached read that a number of cached reads of a log have followed; below the
reads of the log lie those that the cache held before. -/
def Entry.keptRead (initial : MembusCache) (log : List Entry) (behind : Nat) : Byte :=
  RingLog.entryBelow (cachedReads log) initial.readEntry behind

/-- The byte of the cached write that a number of cached writes of a log have followed. -/
def Entry.keptWrite (initial : MembusCache) (log : List Entry) (behind : Nat) : Byte :=
  RingLog.entryBelow (cachedWrites log) initial.writeEntry behind

/-- The byte of a pop after some others, from a log and the caches before it. -/
def Entry.inPlace (initial : MembusCache) (log : List Entry) : CachePop × Nat → Byte
  | (.read, depth) => keptRead initial log depth
  | (.write, depth) => keptWrite initial log depth

theorem CachePop.runAll_depths (cache : MembusCache) (pops : List CachePop) {reads writes : Nat}
    {memory : DeviceBus modules}
    (reads_eq : ∀ depth, memory.bus.cache.readEntry depth = cache.readEntry (reads + depth))
    (writes_eq : ∀ depth, memory.bus.cache.writeEntry depth = cache.writeEntry (writes + depth)) :
    (runAll pops memory).1 = (depths reads writes pops).map cache.popped := by
  induction pops generalizing memory reads writes with
  | nil => rfl
  | cons pop rest ih =>
      cases pop with
      | read =>
          have later : (runAll rest (CachePop.read.run memory).2).1 =
              (depths (reads + 1) writes rest).map cache.popped := by
            refine ih (fun depth => ?_) writes_eq
            rw [Nat.add_right_comm, Nat.add_assoc, ← reads_eq (depth + 1)]
            exact RingLog.entry_pop depth
          exact congrArg₂ List.cons (reads_eq 0) later
      | write =>
          have later : (runAll rest (CachePop.write.run memory).2).1 =
              (depths reads (writes + 1) rest).map cache.popped := by
            refine ih reads_eq fun depth => ?_
            rw [Nat.add_right_comm, Nat.add_assoc, ← writes_eq (depth + 1)]
            exact RingLog.entry_pop depth
          exact congrArg₂ List.cons (writes_eq 0) later

/-- Some pops get the bytes at their depths. -/
theorem CachePop.runAll_eq (memory : DeviceBus modules) (pops : List CachePop) :
    (runAll pops memory).1 = (depths 0 0 pops).map memory.bus.cache.popped :=
  runAll_depths memory.bus.cache pops (fun depth => by rw [Nat.zero_add])
    fun depth => by rw [Nat.zero_add]

theorem Entry.popped_replay (initial : MembusCache) (log : List Entry) {place : CachePop × Nat}
    (within : place.2 < 8) : (initial.replay log).popped place = inPlace initial log place := by
  obtain ⟨pop, depth⟩ := place
  cases pop with
  | read => exact MembusCache.readEntry_replay initial log within
  | write => exact MembusCache.writeEntry_replay initial log within

theorem CachePop.depths_lt (pops : List CachePop) {reads writes bound : Nat}
    (readsBelow : reads + pops.length ≤ bound) (writesBelow : writes + pops.length ≤ bound) :
    ∀ place ∈ depths reads writes pops, place.2 < bound := by
  induction pops generalizing reads writes with
  | nil => simp [depths]
  | cons pop rest ih =>
      rw [List.length_cons] at readsBelow writesBelow
      cases pop with
      | read =>
          rw [depths, List.forall_mem_cons]
          exact ⟨by omega, ih (by omega) (by omega)⟩
      | write =>
          rw [depths, List.forall_mem_cons]
          exact ⟨by omega, ih (by omega) (by omega)⟩

/-- A routine pops four bytes at most. -/
theorem Routine.inlineDisasm_length (routine : Routine) (mode : AddressingMode) :
    (routine.inlineDisasm mode).length ≤ 4 := by
  cases routine <;> cases mode <;> decide

/-- The byte of an item lies at its place in the caches. -/
def Entry.Supplies (initial : MembusCache) (log : List Entry) (PC : Word) (count : Nat)
    (item : PrintedByte × CachePop × Nat) : Prop :=
  item.1 ≠ .other → due log PC count item.1 = some (inPlace initial log item.2)

/-- An instruction is reported when the due bytes lie where the disassembly function pops them. -/
theorem Routine.reports_iff_supplies {initial : MembusCache}
    (recorded : RecordedBus modules initial) (routine : Routine) (mode : AddressingMode)
    (PC : Word) :
    routine.Reports mode PC recorded.log recorded.memory ↔
      routine.PrintsOperands mode ∧ ∀ item ∈ routine.items mode,
        Entry.Supplies initial recorded.log PC (mode.operandCount.getD 0) item := by
  have shown_eq : (routine.printed mode).zip
      (CachePop.runAll (routine.inlineDisasm mode) recorded.memory).1 =
        (routine.items mode).map (Prod.map id recorded.memory.bus.cache.popped) := by
    rw [CachePop.runAll_eq, List.zip_map_right]
    rfl
  have place : ∀ item ∈ routine.items mode,
      recorded.memory.bus.cache.popped item.2 = Entry.inPlace initial recorded.log item.2 := by
    intro item item_mem
    have within := CachePop.depths_lt (routine.inlineDisasm mode)
      (by simpa using routine.inlineDisasm_length mode)
      (by simpa using routine.inlineDisasm_length mode) item.2 (List.of_mem_zip item_mem).2
    rw [recorded.cache_eq, Entry.popped_replay initial recorded.log (by omega)]
  constructor
  · intro reports
    refine ⟨reports.operands, fun item item_mem shows => ?_⟩
    have bytes := reports.bytes
    rw [shown_eq, List.forall_mem_map] at bytes
    rw [← place item item_mem]
    exact bytes item item_mem shows
  · rintro ⟨operands, supplies⟩
    refine ⟨operands, ?_⟩
    rw [shown_eq, List.forall_mem_map]
    intro item item_mem shows
    have supplied := supplies item item_mem shows
    rw [← place item item_mem] at supplied
    exact supplied

end Reports

/-! ## Logs of completed instructions -/

/-- A log has the accesses of a tally, first those to the instruction stream. -/
structure Tally.Counts (tally : Tally) (PC : Word) (log : List Entry) : Prop where
  /-- The reads. -/
  reads_eq : (Entry.reads log).length = tally.reads
  /-- The writes. -/
  writes_eq : (Entry.writtenBytes log).length = tally.writes
  /-- The fetches. -/
  fetches_eq : ((Entry.reads log).map Prod.fst).take tally.fetches =
    List.iterate (· + 1) PC tally.fetches

namespace Entry

/-- The byte of every access went into a cache. -/
def AllCached (log : List Entry) : Prop := ∀ entry ∈ log, entry.isCached = true

instance (log : List Entry) : Decidable (AllCached log) :=
  inferInstanceAs (Decidable (∀ _ ∈ log, _))

theorem cachedReads_eq {log : List Entry} (cached : AllCached log) :
    cachedReads log = (readBytes log).reverse := by
  have recent : cachedReads log = (Traced.reads (log.map Entry.access)).map Prod.snd := by
    induction log with
    | nil => rfl
    | cons entry log ih =>
        obtain ⟨here, rest⟩ := List.forall_mem_cons.mp cached
        have later := ih rest
        rcases entry with ⟨⟨address, value⟩ | ⟨address, value⟩, isCached⟩
        · obtain rfl : isCached = true := here
          exact congrArg (value :: ·) later
        · exact later
  rw [recent, readBytes, reads, List.map_reverse, List.reverse_reverse]

theorem cachedWrites_eq {log : List Entry} (cached : AllCached log) :
    cachedWrites log = (writtenBytes log).reverse := by
  have recent : cachedWrites log = (Traced.writes (log.map Entry.access)).map Prod.snd := by
    induction log with
    | nil => rfl
    | cons entry log ih =>
        obtain ⟨here, rest⟩ := List.forall_mem_cons.mp cached
        have later := ih rest
        rcases entry with ⟨⟨address, value⟩ | ⟨address, value⟩, isCached⟩
        · exact later
        · obtain rfl : isCached = true := here
          exact congrArg (value :: ·) later
  rw [recent, writtenBytes, List.reverse_reverse]

/-- A pop of the read cache gets a read of the instruction, counted from the last one. -/
theorem inPlace_read (initial : MembusCache) {log : List Entry} (cached : AllCached log)
    {depth : Nat} (within : depth < (readBytes log).length) :
    (readBytes log)[(readBytes log).length - 1 - depth]? =
      some (inPlace initial log (.read, depth)) := by
  have reversed := List.getElem?_reverse within
  have within_reverse : depth < (readBytes log).reverse.length := by
    simpa using within
  have present : (readBytes log).reverse[depth]? = some ((readBytes log).reverse[depth]) :=
    List.getElem?_eq_getElem within_reverse
  rw [← reversed, inPlace, keptRead, RingLog.entryBelow, cachedReads_eq cached, present,
    Option.getD_some]

/-- A pop of the write cache gets the last write of the instruction. -/
theorem inPlace_write (initial : MembusCache) {log : List Entry} (cached : AllCached log)
    (writes : 0 < (writtenBytes log).length) :
    (writtenBytes log).getLast? = some (inPlace initial log (.write, 0)) := by
  rw [inPlace, keptWrite, RingLog.entryBelow, cachedWrites_eq cached, ← List.head?_eq_getElem?,
    List.head?_reverse]
  cases last : (writtenBytes log).getLast? with
  | none =>
      rw [List.getLast?_eq_none_iff.mp last] at writes
      cases writes
  | some value => rfl

/-- The byte first read at a distance from the opcode is the one that was fetched there. -/
theorem find?_fetched {fetches distance : Nat} (within : distance < fetches)
    (near : distance < 65536) {PC : Word} {list : List (Word × Byte)}
    (addresses : (list.map Prod.fst).take fetches = List.iterate (· + 1) PC fetches) :
    (list.find? fun read => read.1 = PC + BitVec.ofNat 16 distance) = list[distance]? := by
  induction distance generalizing PC fetches list with
  | zero =>
      obtain ⟨fetches, rfl⟩ := Nat.exists_eq_succ_of_ne_zero (Nat.ne_of_gt within)
      cases list with
      | nil => cases addresses
      | cons first rest =>
          have here : first.1 = PC := (List.cons.inj addresses).1
          simp [here]
  | succ distance ih =>
      obtain ⟨fetches, rfl⟩ := Nat.exists_eq_succ_of_ne_zero (Nat.ne_zero_of_lt within)
      cases list with
      | nil => cases addresses
      | cons first rest =>
          obtain ⟨here, later⟩ := List.cons.inj addresses
          have here : first.1 = PC := here
          have apart : ¬ first.1 = PC + BitVec.ofNat 16 (distance + 1) := by
            rw [here]
            intro same
            have value_eq := congrArg BitVec.toNat same
            rw [BitVec.toNat_add, BitVec.toNat_ofNat] at value_eq
            have := PC.isLt
            omega
          have next_eq : PC + BitVec.ofNat 16 (distance + 1) =
              PC + 1 + BitVec.ofNat 16 distance := by
            rw [Nat.add_comm distance 1, BitVec.ofNat_add, ← BitVec.add_assoc]
            rfl
          rw [List.find?_cons_of_neg (by simpa using apart), next_eq, List.getElem?_cons_succ]
          exact ih (Nat.lt_of_succ_lt_succ within) (by omega) later

end Entry

section Items

variable {tally : Tally} {PC : Word} {log : List Entry} {count : Nat}

theorem Tally.Counts.length_eq (counts : tally.Counts PC log) :
    (Entry.readBytes log).length = tally.reads := by
  rw [Entry.readBytes, List.length_map, counts.reads_eq]

/-- An operand byte is due to the fetch at its distance. -/
theorem Tally.Counts.due_operand (counts : tally.Counts PC log) {distance : Nat}
    (within : distance < tally.fetches) (near : tally.fetches ≤ 3) :
    Entry.due log PC count (.operand distance) = (Entry.readBytes log)[distance]? := by
  rw [Entry.due, Entry.find?_fetched within (by omega) counts.fetches_eq, Entry.readBytes,
    List.getElem?_map]

/-- An operand byte is supplied when the byte in its place is the one fetched at its distance. -/
theorem Tally.Counts.supplies_operand_iff (counts : tally.Counts PC log)
    (cached : Entry.AllCached log) (initial : MembusCache) (near : tally.fetches ≤ 3)
    {distance depth : Nat} (fetched : distance < tally.fetches) (read : depth < tally.reads) :
    Entry.Supplies initial log PC count (.operand distance, .read, depth) ↔
      (Entry.readBytes log)[distance]? =
        (Entry.readBytes log)[tally.reads - 1 - depth]? := by
  have supplied := Entry.inPlace_read initial cached (counts.length_eq ▸ read)
  rw [counts.length_eq] at supplied
  unfold Entry.Supplies
  dsimp only
  rw [counts.due_operand fetched near, supplied]
  exact ⟨fun supplies => supplies (by simp), fun same _ => same⟩

/-- The byte of the last read after the operand is the one of the last read. -/
theorem Tally.Counts.due_dataRead (counts : tally.Counts PC log)
    (follows : 1 + count < tally.reads) :
    Entry.due log PC count .dataRead = (Entry.readBytes log).getLast? := by
  rw [Entry.due, List.getLast?_drop, counts.length_eq, if_neg (by omega)]

/-- The bytes of the items that are in step are supplied. -/
theorem Tally.Counts.supplies_of_inStep (counts : tally.Counts PC log)
    (cached : Entry.AllCached log) (initial : MembusCache) (near : tally.fetches ≤ 3)
    {item : PrintedByte × CachePop × Nat} (inStep : tally.InStep count item) :
    Entry.Supplies initial log PC count item := by
  obtain ⟨shown, pop, depth⟩ := item
  cases shown with
  | operand distance =>
      cases pop with
      | read =>
          obtain ⟨fetched, place⟩ := inStep
          rw [counts.supplies_operand_iff cached initial near fetched (by omega)]
          congr 1
          omega
      | write => cases inStep
  | dataRead =>
      cases pop with
      | read =>
          obtain ⟨rfl, follows⟩ := inStep
          intro
          have supplied := Entry.inPlace_read initial cached
            (show 0 < (Entry.readBytes log).length by rw [counts.length_eq]; omega)
          rw [← supplied, counts.due_dataRead follows, List.getLast?_eq_getElem?, counts.length_eq]
          rfl
      | write => cases inStep
  | dataWritten =>
      cases pop with
      | read => cases inStep
      | write =>
          obtain ⟨rfl, writes⟩ := inStep
          intro
          exact Entry.inPlace_write initial cached (counts.writes_eq ▸ writes)
  | other => exact fun shows => absurd rfl shows

/-- An item that nothing is due to is not supplied. -/
theorem Tally.Counts.not_supplies_of_lacks (counts : tally.Counts PC log)
    (initial : MembusCache) {item : PrintedByte × CachePop × Nat} (lacks : tally.Lacks count item) :
    ¬ Entry.Supplies initial log PC count item := by
  obtain ⟨shown, place⟩ := item
  cases shown with
  | dataRead =>
      have few : tally.reads ≤ 1 + count := lacks
      intro supplies
      have supplied := supplies (by simp)
      rw [Entry.due, List.drop_eq_nil_of_le (counts.length_eq ▸ few)] at supplied
      cases supplied
  | dataWritten =>
      have none : tally.writes = 0 := lacks
      intro supplies
      have supplied := supplies (by simp)
      rw [Entry.due, List.eq_nil_of_length_eq_zero (counts.writes_eq.trans none)] at supplied
      cases supplied
  | operand | other => cases lacks

end Items

end System6502
