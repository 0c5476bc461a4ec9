import System6502.Executor.Reports
import System6502.Membus.Storage

/-!
# Which instructions are reported

The accesses of every staged instruction that completes, and from them when its inline disassembly
prints the bytes of the instruction.
-/

namespace System6502

open System6502.Frame

variable {δ σ : Type*} {modules : δ → MembusModule σ}

/-- The machine with an empty log of its accesses. -/
def Core.recorded (core : Core (DeviceBus modules)) :
    Core (RecordedBus modules core.memory.bus.cache) where
  memory := { memory := core.memory, log := [], cache_eq := rfl }
  registers := core.registers

/-- A program on recorded buses. -/
abbrev RecordedProgram (modules : δ → MembusModule σ) :=
  (initial : MembusCache) → StaticHandler (RecordedBus modules initial)

/-- A program makes the accesses of a tally after its opcode fetch. -/
def Tally.Of (tally : Tally) (program : RecordedProgram modules) : Prop :=
  ∀ (core : Core (DeviceBus modules)) (retained : Locals),
    tally.Counts core.registers.PC
      (program core.memory.bus.cache (core.recorded.fetched retained)).1.memory.log

/-- A program with the same log makes the same accesses. -/
theorem Tally.Of.of_memory {tally : Tally} {program other : RecordedProgram modules}
    (holds : tally.Of program)
    (memory_eq : ∀ initial frame, (other initial frame).1.memory =
      (program initial frame).1.memory) : tally.Of other := by
  intro core retained
  rw [memory_eq]
  exact holds core retained

/-- The end of an instruction makes no access. -/
theorem Tally.Of.completing {tally : Tally} {program : RecordedProgram modules}
    (holds : tally.Of program)
    {finish : (initial : MembusCache) → Frame (RecordedBus modules initial) →
      Frame (RecordedBus modules initial)}
    (silent : ∀ initial frame, (finish initial frame).memory = frame.memory) :
    tally.Of fun initial => completingStatic (program initial) (finish initial) :=
  holds.of_memory fun initial frame => silent initial (program initial frame).1

/-- Latching decimal mode first makes no access. -/
theorem Tally.Of.latched {tally : Tally} {program : RecordedProgram modules}
    (holds : tally.Of program) :
    tally.Of fun initial frame => program initial frame.latchBCD :=
  fun core retained =>
    holds core { retained with isBCD := core.registers.getBit Registers.bitD }

/-! ## Programs -/

theorem loadStaticAccess65C02_tally {mode : AddressingMode}
    (assigned : mode ∈ operandModes65C02) :
    mode.loadTally.Of (fun _ => loadStaticAccess65C02 mode : RecordedProgram modules) := by
  cases mode with
  | immediate | zeropage | zeropageXIndexed | absolute | absoluteXIndexed | absoluteYIndexed
  | xIndexedIndirect | indirectYIndexed | zeropageIndirect => exact fun _ _ => ⟨rfl, rfl, rfl⟩
  | _ => simp [operandModes65C02, operandModes] at assigned

theorem loadStaticAccess_tally {mode : AddressingMode} (assigned : mode ∈ operandModes) :
    mode.loadTally.Of (fun _ => loadStaticAccess mode : RecordedProgram modules) := by
  have holds : mode.loadTally.Of
      (fun _ => loadStaticAccess65C02 mode : RecordedProgram modules) :=
    loadStaticAccess65C02_tally (List.mem_cons_of_mem _ assigned)
  cases mode with
  | zeropageIndirect => simp [operandModes] at assigned
  | _ => exact holds

theorem decimalStraight_tally {mode : AddressingMode} (assigned : mode ∈ operandModes) :
    mode.loadTally.Of (fun _ => decimalStraight mode : RecordedProgram modules) := by
  refine (loadStaticAccess_tally assigned).latched.of_memory fun initial frame => ?_
  unfold decimalStraight
  split <;> rfl

theorem ldaStraight_tally {mode : AddressingMode} (assigned : mode ∈ operandModes65C02) :
    mode.ldaTally.Of (fun _ => ldaStraight mode : RecordedProgram modules) := by
  cases mode with
  | immediate | zeropage | zeropageXIndexed | absolute | absoluteXIndexed | absoluteYIndexed
  | xIndexedIndirect | indirectYIndexed | zeropageIndirect => exact fun _ _ => ⟨rfl, rfl, rfl⟩
  | _ => simp [operandModes65C02, operandModes] at assigned

theorem cmpStraight_tally {mode : AddressingMode} (assigned : mode ∈ operandModes65C02) :
    mode.cmpTally.Of (fun _ => cmpStraight mode : RecordedProgram modules) := by
  cases mode with
  | immediate | zeropage | zeropageXIndexed | absolute | absoluteXIndexed | absoluteYIndexed
  | xIndexedIndirect | indirectYIndexed | zeropageIndirect => exact fun _ _ => ⟨rfl, rfl, rfl⟩
  | _ => simp [operandModes65C02, operandModes] at assigned

theorem storeStraight_tally (value : Registers → Byte) {mode : AddressingMode}
    (assigned : mode ∈ storeModes) :
    mode.storeTally.Of (fun _ => completingStatic (storeStraight mode) (storeAtADDR16 value) :
      RecordedProgram modules) := by
  cases mode with
  | zeropage | zeropageXIndexed | zeropageYIndexed | absolute | absoluteXIndexed
  | absoluteYIndexed | zeropageIndirect => exact fun _ _ => ⟨rfl, rfl, rfl⟩
  | _ => simp [storeModes] at assigned

theorem stzStraight_tally (value : Registers → Byte) {mode : AddressingMode}
    (assigned : mode ∈ adjustModes) :
    mode.storeTally.Of (fun _ => completingStatic (stzStraight mode) (storeAtADDR16 value) :
      RecordedProgram modules) := by
  cases mode with
  | zeropage | zeropageXIndexed | absolute | absoluteXIndexed =>
      exact fun _ _ => ⟨rfl, rfl, rfl⟩
  | _ => simp [adjustModes] at assigned

/-- A program that makes no access after the opcode fetch. -/
theorem tally_of_silent {program : RecordedProgram modules}
    (silent : ∀ initial frame, (program initial frame).1.memory = frame.memory) :
    Tally.Of ⟨1, 1, 0⟩ program := by
  intro core retained
  rw [silent]
  exact ⟨rfl, rfl, rfl⟩

theorem shiftStraight65C02_tally
    {accumulator : (initial : MembusCache) → Frame (RecordedBus modules initial) →
      Frame (RecordedBus modules initial)}
    (silent : ∀ initial frame, (accumulator initial frame).memory = frame.memory)
    (shift : Registers → Word → ShiftResult) {mode : AddressingMode}
    (assigned : mode ∈ shiftModes) :
    (mode.modifyTally 0).Of fun initial => shiftStraight65C02 (accumulator initial) shift mode := by
  cases mode with
  | accumulator =>
      exact tally_of_silent fun initial frame => silent initial (markPenultimate false frame)
  | zeropage | zeropageXIndexed | absolute | absoluteXIndexed =>
      exact fun _ _ => ⟨rfl, rfl, rfl⟩
  | _ => simp [shiftModes] at assigned

theorem shiftStraight_tally
    {accumulator : (initial : MembusCache) → Frame (RecordedBus modules initial) →
      Frame (RecordedBus modules initial)}
    (silent : ∀ initial frame, (accumulator initial frame).memory = frame.memory)
    (shift : Registers → Word → ShiftResult) {mode : AddressingMode}
    (assigned : mode ∈ shiftModes) :
    (mode.modifyTally 0).Of fun initial => shiftStraight (accumulator initial) shift mode := by
  have holds := shiftStraight65C02_tally silent shift assigned
  cases mode with
  | absoluteXIndexed => exact fun _ _ => ⟨rfl, rfl, rfl⟩
  | accumulator | zeropage | zeropageXIndexed | absolute => exact holds
  | _ => simp [shiftModes] at assigned

theorem staticAdjust_tally (step : Word) {mode : AddressingMode} (assigned : mode ∈ adjustModes) :
    (mode.modifyTally 1).Of (fun _ => staticAdjust step mode : RecordedProgram modules) := by
  cases mode with
  | zeropage | zeropageXIndexed | absolute | absoluteXIndexed =>
      exact fun _ _ => ⟨rfl, rfl, rfl⟩
  | _ => simp [adjustModes] at assigned

theorem staticAdjust65C02_tally (step : Word) {mode : AddressingMode}
    (assigned : mode ∈ shiftModes) :
    (mode.modifyTally 1).Of (fun _ => staticAdjust65C02 step mode : RecordedProgram modules) := by
  rcases List.mem_cons.mp assigned with rfl | inMemory
  · exact tally_of_silent fun _ _ => rfl
  · have holds : (mode.modifyTally 1).Of
        (fun _ => staticAdjust step mode : RecordedProgram modules) :=
      staticAdjust_tally step inMemory
    cases mode with
    | accumulator => simp at inMemory
    | zeropage | zeropageXIndexed | absolute | absoluteXIndexed => exact holds
    | _ => simp at inMemory

theorem testModifyStraight_tally (operation : Byte → Byte → Byte) {mode : AddressingMode}
    (assigned : mode ∈ [AddressingMode.zeropage, .absolute]) :
    (mode.modifyTally 1).Of
      (fun _ => testModifyStraight operation mode : RecordedProgram modules) := by
  cases mode with
  | zeropage | absolute => exact fun _ _ => ⟨rfl, rfl, rfl⟩
  | _ => simp at assigned

theorem jmpStaticAccess65C02_tally {mode : AddressingMode}
    (assigned : mode ∈ [AddressingMode.absolute, .indirect, .absoluteXIndexedIndirect]) :
    mode.jmpTally.Of (fun _ => jmpStaticAccess65C02 mode : RecordedProgram modules) := by
  cases mode with
  | absolute | indirect | absoluteXIndexedIndirect => exact fun _ _ => ⟨rfl, rfl, rfl⟩
  | _ => simp at assigned

theorem jmpStaticAccess_tally {mode : AddressingMode}
    (assigned : mode ∈ [AddressingMode.absolute, .indirect]) :
    mode.jmpTally.Of (fun _ => jmpStaticAccess mode : RecordedProgram modules) := by
  cases mode with
  | absolute | indirect => exact fun _ _ => ⟨rfl, rfl, rfl⟩
  | _ => simp at assigned

theorem branchStraight_tally (taken : Registers → Bool) :
    Tally.Of ⟨2, 2, 0⟩ (fun _ => branchStraight taken : RecordedProgram modules) := by
  intro core retained
  rw [branchStraight_memory]
  exact ⟨rfl, rfl, rfl⟩

/-- A staged instruction that completes makes the accesses of its tally. -/
theorem Routine.straight_tally {routine : Routine} {mode : AddressingMode}
    (assigned : mode ∈ routine.modes) (ends : mode ∉ routine.endlessModes) :
    (routine.tally mode).Of (fun _ => routine.straight mode : RecordedProgram modules) := by
  cases routine with
  | AND | ORA | EOR => exact (loadStaticAccess_tally assigned).completing fun _ _ => rfl
  | ADC | SBC => exact (loadStaticAccess_tally assigned).latched.completing fun _ _ => rfl
  | AND65C02 | ORA65C02 | EOR65C02 =>
      exact (loadStaticAccess65C02_tally assigned).completing fun _ _ => rfl
  | ADC65C02 | SBC65C02 =>
      have based : mode ∈ operandModes := by simp_all [modes, endlessModes, operandModes65C02]
      exact (decimalStraight_tally based).completing fun _ _ => rfl
  | LDA =>
      have assigned : mode ∈ operandModes65C02 := List.mem_cons_of_mem _ assigned
      exact (ldaStraight_tally assigned).completing fun _ _ => rfl
  | LDA65C02 => exact (ldaStraight_tally assigned).completing fun _ _ => rfl
  | CMP =>
      have assigned : mode ∈ operandModes65C02 := List.mem_cons_of_mem _ assigned
      exact (cmpStraight_tally assigned).completing fun _ _ => rfl
  | CMP65C02 => exact (cmpStraight_tally assigned).completing fun _ _ => rfl
  | LDX =>
      have based : mode ∈ operandModes := by
        simp_all [modes, endlessModes, operandModes]
        tauto
      exact (loadStaticAccess_tally based).completing fun _ _ => rfl
  | LDY | CPX | CPY | BIT | BIT65C02 =>
      have based := modes_subset_operandModes _ (by decide) assigned
      exact (loadStaticAccess_tally based).completing fun _ _ => rfl
  | STA | STA65C02 =>
      have stores : mode ∈ storeModes := by
        simp_all [modes, endlessModes, storeModes]
        tauto
      exact storeStraight_tally _ stores
  | STX | STY => exact storeStraight_tally _ (modes_subset_storeModes _ (by decide) assigned)
  | STZ65C02 => exact stzStraight_tally _ assigned
  | ASL | LSR | ROL | ROR =>
      refine shiftStraight_tally ?_ _ assigned
      exact fun _ _ => rfl
  | ASL65C02 | LSR65C02 | ROL65C02 | ROR65C02 =>
      refine shiftStraight65C02_tally ?_ _ assigned
      exact fun _ _ => rfl
  | INC | DEC => exact staticAdjust_tally _ assigned
  | INC65C02 | DEC65C02 => exact staticAdjust65C02_tally _ assigned
  | TSB65C02 | TRB65C02 => exact testModifyStraight_tally _ assigned
  | JMP => exact (jmpStaticAccess_tally assigned).completing fun _ _ => rfl
  | JMP65C02 => exact (jmpStaticAccess65C02_tally assigned).completing fun _ _ => rfl
  | BCC | BCS | BEQ | BMI | BNE | BPL | BVC | BVS | BRA65C02 => exact branchStraight_tally _
  | JSR | RTS | RTI | BRK | BRK65C02 | PHA | PHP | PHX65C02 | PHY65C02 | PLA | PLP | PLX65C02
  | PLY65C02 => exact fun _ _ => ⟨rfl, rfl, rfl⟩
  | CLC | CLD | CLI | CLV | DEX | DEY | INX | INY | NOP | SEC | SED | SEI | TAX | TAY | TSX | TXA
  | TXS | TYA => exact tally_of_silent fun _ _ => rfl

/-! ## The dispatch tables -/

namespace Dialect

/-- An instruction that completes on a recorded bus completes alike on the bus. -/
theorem complete_recorded (dialect : Dialect) (opcode : Byte) {initial : MembusCache}
    (frame : Frame (RecordedBus modules initial)) :
    dialect.complete false opcode (frame.project RecordedBus.memory) =
      (dialect.complete false opcode frame).map (Frame.project RecordedBus.memory) := by
  simp only [complete, execute, Bool.false_eq_true, if_false, Option.map_map]
  cases (dialect.lookup opcode).staged with
  | none => rfl
  | some routine =>
      rw [Option.bind_some, Option.bind_some,
        runCalls_project fun cycle => routine.staged_projects _ cycle, Option.map_map]
      rfl

/-- The bus after the staged instruction at the program counter, with the accesses of the
instruction, its opcode fetch among them. -/
def recorded (dialect : Dialect) (core : Core (DeviceBus modules)) (retained : Locals) :
    Option (RecordedBus modules core.memory.bus.cache) :=
  (dialect.complete false core.opcode (core.recorded.fetched retained)).map Frame.memory

/-- The staged instruction at the program counter completes, and its disassembly function then
prints the operand bytes and the data bytes of the instruction. -/
def Reports (dialect : Dialect) (core : Core (DeviceBus modules)) (retained : Locals) : Prop :=
  ∃ routine ∈ (dialect.lookup core.opcode).staged,
    ∃ recorded ∈ dialect.recorded core retained,
      ∃ after ∈ dialect.complete false core.opcode (core.fetched retained),
        routine.Reports (dialect.lookup core.opcode).addressingMode core.registers.PC recorded.log
          after.memory

/-- The opcodes of both dialects whose disassembly functions leave out an operand byte or print a
byte that the instruction does not access. -/
def misprintedInBoth : List Byte :=
  [0x06, 0x0E, 0x16, 0x1E, 0x26, 0x2E, 0x36, 0x3E, 0x46, 0x4E, 0x56, 0x5E, 0x66, 0x6E, 0x76, 0x7E,
    0xB4, 0xBC, 0xC1, 0xC5, 0xD1, 0xD5]

/-- All such opcodes of a dialect. -/
def misprinted : Dialect → List Byte
  | base => misprintedInBoth
  | cmos => misprintedInBoth ++ [0x12, 0x32, 0x52, 0x92, 0xB2, 0xD2]

/-- The two items that are out of step. -/
def Astray (opcode : Byte) (item : PrintedByte × CachePop × Nat) : Prop :=
  (opcode = 0xA1 ∧ item = (.operand 1, .read, 3)) ∨ (opcode = 0x00 ∧ item = (.operand 1, .read, 0))

/-- How many reads follow the one whose byte is printed for an operand byte: as many as follow its
fetch, but for `LDA ($zp,X)` and `BRK`. -/
def operandDepth (opcode : Byte) (reads distance : Nat) : Nat :=
  if opcode = 0xA1 then 3 else if opcode = 0x00 then 0 else reads - 1 - distance

/-- Where a byte is popped that is printed for an access. -/
def place (opcode : Byte) (reads : Nat) : PrintedByte → CachePop × Nat
  | .operand distance => (.read, operandDepth opcode reads distance)
  | .dataRead | .other => (.read, 0)
  | .dataWritten => (.write, 0)

instance (opcode : Byte) : DecidablePred (Astray opcode) :=
  fun _ => inferInstanceAs (Decidable ((_ ∧ _) ∨ (_ ∧ _)))

/-- The bytes that a disassembly function prints are popped at their places. -/
def Placed (opcode : Byte) (routine : Routine) (mode : AddressingMode) : Prop :=
  (routine.items mode).filter (fun item => item.1 ≠ .other) =
    ((routine.printed mode).filter (· ≠ .other)).map fun shown =>
      (shown, place opcode (routine.tally mode).reads shown)

instance (opcode : Byte) (routine : Routine) (mode : AddressingMode) :
    Decidable (Placed opcode routine mode) :=
  inferInstanceAs (Decidable (_ = _))

/-- What the disassembly function of an opcode prints, beside what its instruction accesses. -/
structure Classified (dialect : Dialect) (opcode : Byte) (routine : Routine)
    (mode : AddressingMode) : Prop where
  /-- No instruction has more than two operand bytes. -/
  fetches_le : (routine.tally mode).fetches ≤ 3
  /-- A misprinted opcode. -/
  lacks : opcode ∈ dialect.misprinted → ¬ routine.PrintsOperands mode ∨
    ∃ item ∈ routine.items mode, (routine.tally mode).Lacks (mode.operandCount.getD 0) item
  /-- The other opcodes print their operand bytes. -/
  operands : opcode ∉ dialect.misprinted → routine.PrintsOperands mode
  /-- All but two of their items are in step. -/
  inStep : opcode ∉ dialect.misprinted → ∀ item ∈ routine.items mode, Astray opcode item ∨
    (routine.tally mode).InStep (mode.operandCount.getD 0) item
  /-- They are popped at their places. -/
  places : opcode ∉ dialect.misprinted → Placed opcode routine mode
  /-- `LDA ($zp,X)` reads four bytes and prints the first of them as its operand. -/
  loads : opcode = 0xA1 → routine.tally mode = ⟨2, 4, 0⟩ ∧
    (.operand 1, .read, 3) ∈ routine.items mode
  /-- `BRK` reads four bytes and prints the last of them as its marker. -/
  breaks : opcode = 0x00 → routine.tally mode = ⟨2, 4, 3⟩ ∧
    (.operand 1, .read, 0) ∈ routine.items mode

theorem lawfulBEq_byte : LawfulBEq Byte := inferInstance

instance (dialect : Dialect) (opcode : Byte) (routine : Routine) (mode : AddressingMode) :
    Decidable (dialect.Classified opcode routine mode) :=
  haveI := lawfulBEq_byte
  decidable_of_iff (_ ∧ _ ∧ _ ∧ _ ∧ _ ∧ _ ∧ _)
    ⟨fun ⟨fetches_le, lacks, operands, inStep, places, loads, breaks⟩ =>
      ⟨fetches_le, lacks, operands, inStep, places, loads, breaks⟩,
      fun ⟨fetches_le, lacks, operands, inStep, places, loads, breaks⟩ =>
        ⟨fetches_le, lacks, operands, inStep, places, loads, breaks⟩⟩

theorem lookup_classified (dialect : Dialect) :
    ∀ opcode, ∀ routine ∈ (dialect.lookup opcode).staged,
      (dialect.lookup opcode).addressingMode ∉ routine.endlessModes →
        dialect.Classified opcode routine (dialect.lookup opcode).addressingMode := by
  cases dialect <;> decide +kernel

/-! ## Reports -/

/-- The disassembly function of an opcode prints the bytes of its instruction when all of them are
cached. -/
def PrintsOwn (dialect : Dialect) (opcode : Byte) (log : List Entry) : Prop :=
  opcode ∉ dialect.misprinted ∧
    (opcode = 0xA1 → (Entry.readBytes log)[1]? = (Entry.readBytes log)[0]?) ∧
    (opcode = 0x00 → (Entry.readBytes log)[1]? = (Entry.readBytes log)[3]?)

instance (dialect : Dialect) (opcode : Byte) (log : List Entry) :
    Decidable (dialect.PrintsOwn opcode log) :=
  inferInstanceAs (Decidable (_ ∧ (_ → _) ∧ (_ → _)))

/-- Whatever is cached, the disassembly function of an opcode prints the bytes of its instruction
when each of them equals the byte of that cached access which has as many cached accesses after it
as the byte's own access has accesses of its kind after it.  Below the accesses of the instruction
lies what the caches held before. -/
structure PrintsKept (dialect : Dialect) (opcode : Byte) (initial : MembusCache)
    (log : List Entry) : Prop where
  /-- It prints nothing that its instruction does not access. -/
  printed : opcode ∉ dialect.misprinted
  /-- The operand bytes, which `LDA ($zp,X)` and `BRK` take from elsewhere. -/
  operands : ∀ routine ∈ (dialect.lookup opcode).staged, ∀ distance,
    .operand distance ∈ routine.printed (dialect.lookup opcode).addressingMode →
      (Entry.readBytes log)[distance]? = some (Entry.keptRead initial log
        (operandDepth opcode (Entry.readBytes log).length distance))
  /-- The byte that was read last. -/
  dataRead : ∀ routine ∈ (dialect.lookup opcode).staged,
    .dataRead ∈ routine.printed (dialect.lookup opcode).addressingMode →
      (Entry.readBytes log).getLast? = some (Entry.keptRead initial log 0)
  /-- The byte that was written last. -/
  dataWritten : ∀ routine ∈ (dialect.lookup opcode).staged,
    .dataWritten ∈ routine.printed (dialect.lookup opcode).addressingMode →
      (Entry.writtenBytes log).getLast? = some (Entry.keptWrite initial log 0)

/-- The due bytes lie where the disassembly function pops them. -/
def Supplied (dialect : Dialect) (core : Core (DeviceBus modules)) (log : List Entry) : Prop :=
  ∃ routine ∈ (dialect.lookup core.opcode).staged,
    routine.PrintsOperands (dialect.lookup core.opcode).addressingMode ∧
      ∀ item ∈ routine.items (dialect.lookup core.opcode).addressingMode,
        Entry.Supplies core.memory.bus.cache log core.registers.PC
          ((dialect.lookup core.opcode).addressingMode.operandCount.getD 0) item

variable {dialect : Dialect} {core : Core (DeviceBus modules)} {retained : Locals}
  {recorded : RecordedBus modules core.memory.bus.cache}

theorem reports_iff_supplied (completes : dialect.recorded core retained = some recorded) :
    dialect.Reports core retained ↔ dialect.Supplied core recorded.log := by
  obtain ⟨frame, ended, rfl⟩ := Option.map_eq_some_iff.mp completes
  have real : dialect.complete false core.opcode (core.fetched retained) =
      some (frame.project RecordedBus.memory) := by
    have projected := dialect.complete_recorded core.opcode (core.recorded.fetched retained)
    rw [ended] at projected
    exact projected
  constructor
  · rintro ⟨routine, named, found, found_eq, after, after_eq, reports⟩
    obtain rfl : frame.memory = found := Option.some.inj (completes.symm.trans found_eq)
    obtain rfl : frame.project RecordedBus.memory = after :=
      Option.some.inj (real.symm.trans after_eq)
    exact ⟨routine, named, (routine.reports_iff_supplies frame.memory _ _).mp reports⟩
  · rintro ⟨routine, named, supplies⟩
    exact ⟨routine, named, frame.memory, completes, frame.project RecordedBus.memory, real,
      (routine.reports_iff_supplies frame.memory _ _).mpr supplies⟩

/-- A staged instruction that completes is one of a routine in one of its modes, and makes the
accesses of its tally. -/
theorem counts_of_recorded (completes : dialect.recorded core retained = some recorded) :
    ∃ routine, (dialect.lookup core.opcode).staged = some routine ∧
      dialect.Classified core.opcode routine (dialect.lookup core.opcode).addressingMode ∧
      (routine.tally (dialect.lookup core.opcode).addressingMode).Counts core.registers.PC
        recorded.log := by
  obtain ⟨frame, ended, rfl⟩ := Option.map_eq_some_iff.mp completes
  have formed := dialect.lookup_wellFormed core.opcode
  cases staged_eq : (dialect.lookup core.opcode).staged with
  | none =>
      rw [complete, execute, staged_eq] at ended
      cases ended
  | some routine =>
      have assigned := formed.mode_mem staged_eq
      have decoded : dialect.lookup core.opcode =
          Dispatch.slot routine (dialect.lookup core.opcode).addressingMode := by
        unfold Dispatch.WellFormed at formed
        rw [staged_eq] at formed
        exact formed.1
      have ends := ends_of_complete decoded (by rw [ended]; rfl) rfl
      have program : dialect.complete false core.opcode (core.recorded.fetched retained) = _ :=
        complete_of_slot decoded assigned (fun _ => ends) _
      have frame_eq : frame = _ := Option.some.inj (ended.symm.trans program)
      refine ⟨routine, rfl, dialect.lookup_classified core.opcode routine staged_eq ends, ?_⟩
      rw [frame_eq]
      exact Routine.straight_tally assigned ends core retained

/-- A misprinted opcode is never supplied. -/
theorem not_supplied_of_misprinted (completes : dialect.recorded core retained = some recorded)
    (misprinted : core.opcode ∈ dialect.misprinted) : ¬ dialect.Supplied core recorded.log := by
  obtain ⟨routine, staged_eq, classified, counts⟩ := counts_of_recorded completes
  rintro ⟨other, named, operands, supplies⟩
  obtain rfl : routine = other := Option.some.inj (staged_eq.symm.trans named)
  rcases classified.lacks misprinted with leaves | ⟨item, item_mem, lacks⟩
  · exact leaves operands
  · exact counts.not_supplies_of_lacks _ lacks (supplies item item_mem)

/-- The items of an opcode that is not misprinted are its printed bytes at their places. -/
theorem Classified.mem_items_iff {opcode : Byte} {routine : Routine} {mode : AddressingMode}
    (classified : dialect.Classified opcode routine mode) (printed : opcode ∉ dialect.misprinted)
    {shown : PrintedByte} (shows : shown ≠ .other) {popped : CachePop × Nat} :
    (shown, popped) ∈ routine.items mode ↔
      shown ∈ routine.printed mode ∧ popped = place opcode (routine.tally mode).reads shown := by
  have items_eq := classified.places printed
  have item_iff : (shown, popped) ∈ (routine.items mode).filter (fun item => item.1 ≠ .other) ↔
      (shown, popped) ∈ routine.items mode := by simp [shows]
  rw [← item_iff, items_eq]
  simp only [List.mem_map, List.mem_filter, Prod.mk.injEq]
  constructor
  · rintro ⟨_, ⟨shown_mem, -⟩, rfl, rfl⟩
    exact ⟨shown_mem, rfl⟩
  · rintro ⟨shown_mem, rfl⟩
    exact ⟨shown, ⟨shown_mem, by simpa using shows⟩, rfl, rfl⟩

/-- An operand byte that an opcode prints is one of those that its instruction fetches. -/
theorem Classified.operand_lt {opcode : Byte} {routine : Routine} {mode : AddressingMode}
    (classified : dialect.Classified opcode routine mode) (printed : opcode ∉ dialect.misprinted)
    {distance : Nat} (shown_mem : .operand distance ∈ routine.printed mode) :
    distance < (routine.tally mode).fetches := by
  have item_mem := (classified.mem_items_iff printed (by simp)).mpr ⟨shown_mem, rfl⟩
  rcases classified.inStep printed _ item_mem with (⟨isLoad, item_eq⟩ | ⟨isBreak, item_eq⟩) | inStep
  · obtain ⟨operand_eq, -⟩ := Prod.mk.inj item_eq
    obtain rfl := PrintedByte.operand.inj operand_eq
    rw [(classified.loads isLoad).1]
    decide
  · obtain ⟨operand_eq, -⟩ := Prod.mk.inj item_eq
    obtain rfl := PrintedByte.operand.inj operand_eq
    rw [(classified.breaks isBreak).1]
    decide
  · exact inStep.1

/-- The data byte that an opcode prints is read after its operand. -/
theorem Classified.dataRead_follows {opcode : Byte} {routine : Routine} {mode : AddressingMode}
    (classified : dialect.Classified opcode routine mode) (printed : opcode ∉ dialect.misprinted)
    (shown_mem : .dataRead ∈ routine.printed mode) :
    1 + mode.operandCount.getD 0 < (routine.tally mode).reads := by
  have item_mem := (classified.mem_items_iff printed (by simp)).mpr ⟨shown_mem, rfl⟩
  rcases classified.inStep printed _ item_mem with (⟨-, item_eq⟩ | ⟨-, item_eq⟩) | inStep
  · cases item_eq
  · cases item_eq
  · exact inStep.2

/-- The disassembly function supplies the bytes of its instruction exactly when it prints them. -/
theorem supplied_iff_printsKept (completes : dialect.recorded core retained = some recorded) :
    dialect.Supplied core recorded.log ↔
      dialect.PrintsKept core.opcode core.memory.bus.cache recorded.log := by
  by_cases misprinted : core.opcode ∈ dialect.misprinted
  · exact iff_of_false (not_supplied_of_misprinted completes misprinted)
      fun kept => kept.printed misprinted
  obtain ⟨routine, staged_eq, classified, counts⟩ := counts_of_recorded completes
  have operand_due : ∀ distance,
      .operand distance ∈ routine.printed (dialect.lookup core.opcode).addressingMode →
        Entry.due recorded.log core.registers.PC
            ((dialect.lookup core.opcode).addressingMode.operandCount.getD 0) (.operand distance) =
          (Entry.readBytes recorded.log)[distance]? := fun distance shown_mem =>
    counts.due_operand (classified.operand_lt misprinted shown_mem) classified.fetches_le
  have data_due := fun shown_mem =>
    counts.due_dataRead (classified.dataRead_follows misprinted shown_mem)
  constructor
  · rintro ⟨other, named, -, supplies⟩
    obtain rfl : routine = other := Option.some.inj (staged_eq.symm.trans named)
    have supplied : ∀ shown ≠ .other,
        shown ∈ routine.printed (dialect.lookup core.opcode).addressingMode → _ :=
      fun shown shows shown_mem =>
        supplies _ ((classified.mem_items_iff misprinted shows).mpr ⟨shown_mem, rfl⟩) shows
    refine ⟨misprinted, ?_, ?_, ?_⟩
    · rintro _ named distance shown_mem
      obtain rfl := Option.some.inj (staged_eq.symm.trans named)
      rw [counts.length_eq, ← operand_due distance shown_mem]
      exact supplied (.operand distance) (by simp) shown_mem
    · rintro _ named shown_mem
      obtain rfl := Option.some.inj (staged_eq.symm.trans named)
      rw [← data_due shown_mem]
      exact supplied .dataRead (by simp) shown_mem
    · rintro _ named shown_mem
      obtain rfl := Option.some.inj (staged_eq.symm.trans named)
      exact supplied .dataWritten (by simp) shown_mem
  · rintro kept
    refine ⟨routine, staged_eq, classified.operands misprinted, ?_⟩
    rintro ⟨shown, popped⟩ item_mem (shows : shown ≠ .other)
    obtain ⟨shown_mem, rfl⟩ := (classified.mem_items_iff misprinted shows).mp item_mem
    cases shown with
    | operand distance =>
        have same := kept.operands routine staged_eq distance shown_mem
        rw [counts.length_eq] at same
        exact (operand_due distance shown_mem).trans same
    | dataRead => exact (data_due shown_mem).trans (kept.dataRead routine staged_eq shown_mem)
    | dataWritten => exact kept.dataWritten routine staged_eq shown_mem
    | other => exact absurd rfl shows

/-- When all accesses of an instruction are cached, its disassembly function supplies its bytes
exactly when it prints them. -/
theorem supplied_iff_printsOwn (completes : dialect.recorded core retained = some recorded)
    (cached : Entry.AllCached recorded.log) :
    dialect.Supplied core recorded.log ↔ dialect.PrintsOwn core.opcode recorded.log := by
  obtain ⟨routine, staged_eq, classified, counts⟩ := counts_of_recorded completes
  have supplied_iff : dialect.Supplied core recorded.log ↔ _ :=
    ⟨fun ⟨other, named, supplies⟩ => by
      obtain rfl : routine = other := Option.some.inj (staged_eq.symm.trans named)
      exact supplies, fun supplies => ⟨routine, staged_eq, supplies⟩⟩
  have astray_iff : ∀ depth < 4,
      (routine.tally (dialect.lookup core.opcode).addressingMode).fetches = 2 →
      (routine.tally (dialect.lookup core.opcode).addressingMode).reads = 4 →
      (Entry.Supplies core.memory.bus.cache recorded.log core.registers.PC
        ((dialect.lookup core.opcode).addressingMode.operandCount.getD 0)
        (.operand 1, .read, depth) ↔
          (Entry.readBytes recorded.log)[1]? = (Entry.readBytes recorded.log)[3 - depth]?) := by
    intro depth within fetches_eq reads_eq
    rw [counts.supplies_operand_iff cached _ classified.fetches_le (by omega) (by omega),
      reads_eq]
  have loads_iff := fun isLoad => astray_iff 3 (by omega)
    (congrArg Tally.fetches (classified.loads isLoad).1)
    (congrArg Tally.reads (classified.loads isLoad).1)
  have breaks_iff := fun isBreak => astray_iff 0 (by omega)
    (congrArg Tally.fetches (classified.breaks isBreak).1)
    (congrArg Tally.reads (classified.breaks isBreak).1)
  rw [supplied_iff]
  constructor
  · rintro ⟨operands, supplies⟩
    refine ⟨fun misprinted => ?_, fun isLoad => ?_, fun isBreak => ?_⟩
    · exact not_supplied_of_misprinted completes misprinted
        (supplied_iff.mpr ⟨operands, supplies⟩)
    · exact (loads_iff isLoad).mp (supplies _ (classified.loads isLoad).2)
    · exact (breaks_iff isBreak).mp (supplies _ (classified.breaks isBreak).2)
  · rintro ⟨printed, loads, breaks⟩
    refine ⟨classified.operands printed, fun item item_mem => ?_⟩
    rcases classified.inStep printed item item_mem with
      (⟨isLoad, rfl⟩ | ⟨isBreak, rfl⟩) | inStep
    · exact (loads_iff isLoad).mpr (loads isLoad)
    · exact (breaks_iff isBreak).mpr (breaks isBreak)
    · exact counts.supplies_of_inStep cached _ classified.fetches_le inStep

variable (dialect core retained) in
/-- Inline disassembly prints the operand bytes and the data bytes of the staged instruction that
has just completed exactly when, all accesses being cached, the opcode is not misprinted, `LDA
($zp,X)` has its opcode as operand and `BRK` jumps to a page with the number of its marker; and
where some access is not cached, when each printed byte is also that of the cached access as far
from the last cached one as its own access is from the last. -/
theorem reports_iff (completes : dialect.recorded core retained = some recorded) :
    dialect.Reports core retained ↔
      if Entry.AllCached recorded.log then dialect.PrintsOwn core.opcode recorded.log
      else dialect.PrintsKept core.opcode core.memory.bus.cache recorded.log := by
  rw [reports_iff_supplied completes]
  split
  · rename_i cached
    exact supplied_iff_printsOwn completes cached
  · exact supplied_iff_printsKept completes

/-- A std64k module in tier 0, and a processor that starts at `$0200`. -/
def board (bytes : Word → Byte) :
    Core (DeviceBus fun _ : Unit => MembusModuleStd64k.module) where
  memory :=
    { bus := ((Bus.alloc MembusCache.blank fun _ => 0).registerModule
        (Bus.firsts fun _ : Unit => MembusModuleStd64k.module)
        { tier := 0, module := (), allocations := { node := true, tier := true } }).2
      state := { bytes }
      stuck := none }
  registers := { Registers.reset with PC := 0x0200 }

/-- `LDA $A5` is reported. -/
theorem reports_A5 : base.Reports (board fun _ => 0xA5) Locals.zero := by
  refine (reports_iff .base (board fun _ => 0xA5) Locals.zero rfl).mpr ?_
  rw [if_pos (by decide)]
  decide

/-- `LDA ($10,X)` completes and is reported with the operand `$A1`. -/
theorem not_reports_A1 :
    (base.recorded (board fun addr => if addr = 0x0200 then 0xA1 else 0x10) Locals.zero).isSome ∧
      ¬ base.Reports (board fun addr => if addr = 0x0200 then 0xA1 else 0x10) Locals.zero := by
  refine ⟨rfl, ?_⟩
  rw [reports_iff_supplied rfl, supplied_iff_printsOwn rfl (by decide)]
  rintro ⟨-, loads, -⟩
  exact absurd (loads (by decide)) (by decide)

end Dialect
end System6502
