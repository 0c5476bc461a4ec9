import System6502.Isa.Addressing

/-!
# The instruction stream

The bytes of the instruction stream that an instruction consumes, in both modes, beside the length
by which the disassembler advances.
-/

namespace System6502

open System6502.Frame

/-- A bus that gives answers from a list and keeps the addresses it is asked for, most recent
first. -/
structure Replay where
  /-- The answers still to give. -/
  answers : List Byte
  /-- The addresses read so far. -/
  asked : List Word

instance : Membus Replay where
  readAddr replay address :=
    (replay.answers.headD 0, { answers := replay.answers.tail, asked := address :: replay.asked })
  writeAddr replay _ _ := replay

/-- The reads of an access log, most recent first. -/
def Traced.reads : List Access → List (Word × Byte)
  | [] => []
  | .read address value :: log => (address, value) :: reads log
  | .write _ _ :: log => reads log

variable {μ : Type*} [Membus μ]

/-- The frame in which an instruction completes in one of the two modes. -/
def Dialect.complete (dialect : Dialect) (static : Bool) (opcode : Byte) (frame : Frame μ) :
    Option (Frame μ) :=
  if static then
    (dialect.lookup opcode).static.map fun routine =>
      (routine.static (dialect.lookup opcode).addressingMode frame).1
  else (dialect.execute opcode frame).map Prod.snd

namespace Core

/-- The machine with an empty access log. -/
def traced (core : Core Ram) : Core (Traced Ram) where
  memory := { bus := core.memory, log := [] }
  registers := core.registers

/-- The machine with its program counter one higher, on a bus that gives the answers of a log. -/
def displaced (core : Core Ram) (log : List Access) : Core Replay where
  memory := { answers := (Traced.reads log).reverse.map Prod.snd, asked := [] }
  registers := { core.registers with PC := core.registers.PC + 1 }

end Core

/-- The reads that follow the program counter: those whose address is one higher when the program
counter is. -/
def followers (asked displaced : List Word) : Nat :=
  (asked.zip displaced).countP fun pair => pair.2 = pair.1 + 1

/-- The bytes of the instruction stream that an instruction consumes when it completes: the reads,
the opcode fetch among them, that follow the program counter when the instruction is repeated with
the same answers. -/
def Dialect.consumed (dialect : Dialect) (static : Bool) (core : Core Ram) (retained : Locals) :
    Option Nat :=
  (dialect.complete static core.opcode (core.traced.fetched retained)).bind fun after =>
    (dialect.complete static core.opcode
      ((core.displaced after.memory.log).fetched retained)).map fun moved =>
        followers ((Traced.reads after.memory.log).map Prod.fst) moved.memory.asked

/-! ## Programs -/

/-- The bytes of the instruction stream that a program and its repetition consume. -/
def consumedBy (program : StaticHandler (Traced Ram)) (repeated : StaticHandler Replay)
    (core : Core Ram) (retained : Locals) : Nat :=
  let log := (program (core.traced.fetched retained)).1.memory.log
  followers ((Traced.reads log).map Prod.fst)
    (repeated ((core.displaced log).fetched retained)).1.memory.asked

omit [Membus μ] in
theorem followers_moved (address : Word) {asked displaced : List Word} {count : Nat}
    (earlier : followers asked displaced = count) :
    followers (address :: asked) ((address + 1) :: displaced) = count + 1 := by
  simp [followers, ← earlier]

omit [Membus μ] in
theorem followers_still (address : Word) {asked displaced : List Word} {count : Nat}
    (earlier : followers asked displaced = count) :
    followers (address :: asked) (address :: displaced) = count := by
  simp [followers, ← earlier]

/-- A program consumes the opcode and the operand bytes of its mode. -/
def ConsumesOperand (program : StaticHandler (Traced Ram)) (repeated : StaticHandler Replay)
    (mode : AddressingMode) : Prop :=
  ∃ count ∈ mode.operandCount, ∀ core retained,
    consumedBy program repeated core retained = 1 + count

/-- Programs with the same reads consume the same bytes. -/
theorem ConsumesOperand.of_reads {program other : StaticHandler (Traced Ram)}
    {repeated otherRepeated : StaticHandler Replay} {mode : AddressingMode}
    (consumes : ConsumesOperand program repeated mode)
    (reads_eq : ∀ frame, Traced.reads (other frame).1.memory.log =
      Traced.reads (program frame).1.memory.log)
    (memory_eq : ∀ frame, (otherRepeated frame).1.memory = (repeated frame).1.memory) :
    ConsumesOperand other otherRepeated mode := by
  obtain ⟨count, count_mem, consumed⟩ := consumes
  refine ⟨count, count_mem, fun core retained => ?_⟩
  have displaced_eq :
      core.displaced (other (core.traced.fetched retained)).1.memory.log =
        core.displaced (program (core.traced.fetched retained)).1.memory.log := by
    unfold Core.displaced
    rw [reads_eq]
  unfold consumedBy
  dsimp only
  rw [displaced_eq, memory_eq, reads_eq]
  exact consumed core retained

/-- The end of an instruction reads nothing. -/
theorem ConsumesOperand.completing {program : StaticHandler (Traced Ram)}
    {repeated : StaticHandler Replay} {mode : AddressingMode}
    (consumes : ConsumesOperand program repeated mode)
    {finish : Frame (Traced Ram) → Frame (Traced Ram)} {refinish : Frame Replay → Frame Replay}
    (silent : ∀ frame, Traced.reads (finish frame).memory.log = Traced.reads frame.memory.log)
    (resilent : ∀ frame, (refinish frame).memory = frame.memory) :
    ConsumesOperand (completingStatic program finish) (completingStatic repeated refinish) mode :=
  consumes.of_reads (fun _ => silent _) fun _ => resilent _

/-- Latching decimal mode first reads nothing. -/
theorem ConsumesOperand.latched {program : StaticHandler (Traced Ram)}
    {repeated : StaticHandler Replay} {mode : AddressingMode}
    (consumes : ConsumesOperand program repeated mode) :
    ConsumesOperand (fun frame => program frame.latchBCD) (fun frame => repeated frame.latchBCD)
      mode := by
  obtain ⟨count, count_mem, consumed⟩ := consumes
  exact ⟨count, count_mem, fun core retained =>
    consumed core { retained with isBCD := core.registers.getBit Registers.bitD }⟩

theorem loadStaticAccess_consumes {mode : AddressingMode} (assigned : mode ∈ operandModes) :
    ConsumesOperand (loadStaticAccess mode) (loadStaticAccess mode) mode := by
  cases mode with
  | immediate => exact ⟨1, rfl, fun _ _ => followers_moved _ (followers_moved _ rfl)⟩
  | zeropage | zeropageXIndexed =>
      exact ⟨1, rfl, fun _ _ => followers_still _ (followers_moved _ (followers_moved _ rfl))⟩
  | absolute | absoluteXIndexed | absoluteYIndexed =>
      exact ⟨2, rfl, fun _ _ => followers_still _
        (followers_moved _ (followers_moved _ (followers_moved _ rfl)))⟩
  | xIndexedIndirect | indirectYIndexed =>
      exact ⟨1, rfl, fun _ _ => followers_still _ (followers_still _ (followers_still _
        (followers_moved _ (followers_moved _ rfl))))⟩
  | _ => simp [operandModes] at assigned

theorem loadStaticAccess65C02_consumes {mode : AddressingMode}
    (assigned : mode ∈ operandModes65C02) :
    ConsumesOperand (loadStaticAccess65C02 mode) (loadStaticAccess65C02 mode) mode := by
  rcases List.mem_cons.mp assigned with rfl | assigned
  · exact ⟨1, rfl, fun _ _ => followers_still _ (followers_still _ (followers_still _
      (followers_moved _ (followers_moved _ rfl))))⟩
  · have consumes := loadStaticAccess_consumes assigned
    cases mode with
    | zeropageIndirect => simp [operandModes] at assigned
    | _ => exact consumes

theorem aluStaticAccess_consumes {mode : AddressingMode} (assigned : mode ∈ operandModes) :
    ConsumesOperand (aluStaticAccess mode) (aluStaticAccess mode) mode := by
  have consumes := loadStaticAccess_consumes assigned
  cases mode with
  | absoluteXIndexed | absoluteYIndexed =>
      exact ⟨2, rfl, fun _ _ => followers_still _
        (followers_moved _ (followers_moved _ (followers_moved _ rfl)))⟩
  | immediate | zeropage | zeropageXIndexed | absolute | xIndexedIndirect | indirectYIndexed =>
      exact consumes
  | _ => simp [operandModes] at assigned

theorem aluStaticAccess65C02_consumes {mode : AddressingMode}
    (assigned : mode ∈ operandModes65C02) :
    ConsumesOperand (aluStaticAccess65C02 mode) (aluStaticAccess65C02 mode) mode := by
  rcases List.mem_cons.mp assigned with rfl | assigned
  · exact loadStaticAccess65C02_consumes assigned
  · have consumes := aluStaticAccess_consumes assigned
    cases mode with
    | zeropageIndirect => simp [operandModes] at assigned
    | _ => exact consumes

/-- The modes in which `LDX`, `LDY` and the 65C02's `BIT` have a case in static mode. -/
theorem indexLoadStaticAccess_consumes {mode : AddressingMode}
    (assigned : mode ∈ [AddressingMode.immediate, .zeropage, .zeropageXIndexed, .absolute,
      .absoluteXIndexed]) :
    ConsumesOperand (indexLoadStaticAccess mode) (indexLoadStaticAccess mode) mode ∧
      ConsumesOperand (bitStaticAccess65C02 mode) (bitStaticAccess65C02 mode) mode := by
  have operand : mode ∈ operandModes := by
    simp only [List.mem_cons, List.not_mem_nil, or_false] at assigned
    rcases assigned with rfl | rfl | rfl | rfl | rfl
    all_goals decide
  have consumes := loadStaticAccess_consumes operand
  cases mode with
  | immediate | zeropage | zeropageXIndexed | absolute | absoluteXIndexed =>
      exact ⟨consumes, consumes⟩
  | _ => simp at assigned

theorem indexCompareStaticAccess_consumes {mode : AddressingMode}
    (assigned : mode ∈ [AddressingMode.immediate, .zeropage, .absolute]) :
    ConsumesOperand (indexCompareStaticAccess mode) (indexCompareStaticAccess mode) mode := by
  cases mode with
  | immediate => exact loadStaticAccess_consumes (by decide : .immediate ∈ operandModes)
  | zeropage => exact loadStaticAccess_consumes (by decide : .zeropage ∈ operandModes)
  | absolute => exact loadStaticAccess_consumes (by decide : .absolute ∈ operandModes)
  | _ => simp at assigned

theorem bitStaticAccess_consumes {mode : AddressingMode}
    (assigned : mode ∈ [AddressingMode.zeropage, .absolute]) :
    ConsumesOperand (bitStaticAccess mode) (bitStaticAccess mode) mode := by
  cases mode with
  | zeropage => exact loadStaticAccess_consumes (by decide : .zeropage ∈ operandModes)
  | absolute => exact loadStaticAccess_consumes (by decide : .absolute ∈ operandModes)
  | _ => simp at assigned

theorem decimalStraight_consumes {mode : AddressingMode} (assigned : mode ∈ operandModes) :
    ConsumesOperand (decimalStraight mode) (decimalStraight mode) mode := by
  have consumes := loadStaticAccess_consumes assigned
  cases mode with
  | absoluteXIndexed | absoluteYIndexed | immediate | zeropage | zeropageXIndexed | absolute
  | xIndexedIndirect | indirectYIndexed => exact consumes
  | _ => simp [operandModes] at assigned

theorem ldaStraight_consumes {mode : AddressingMode} (assigned : mode ∈ operandModes65C02) :
    ConsumesOperand (ldaStraight mode) (ldaStraight mode) mode := by
  have consumes := loadStaticAccess65C02_consumes assigned
  cases mode with
  | xIndexedIndirect =>
      exact ⟨1, rfl, fun _ _ => followers_still _ (followers_still _
        (followers_moved _ (followers_moved _ rfl)))⟩
  | indirectYIndexed | zeropageIndirect =>
      exact ⟨1, rfl, fun _ _ => followers_still _ (followers_still _ (followers_still _
        (followers_moved _ (followers_moved _ rfl))))⟩
  | immediate | zeropage | zeropageXIndexed | absolute | absoluteXIndexed | absoluteYIndexed =>
      exact consumes
  | _ => simp [operandModes65C02, operandModes] at assigned

theorem cmpStraight_consumes {mode : AddressingMode} (assigned : mode ∈ operandModes65C02) :
    ConsumesOperand (cmpStraight mode) (cmpStraight mode) mode := by
  have consumes := loadStaticAccess65C02_consumes assigned
  cases mode with
  | zeropage | zeropageXIndexed | xIndexedIndirect | indirectYIndexed | zeropageIndirect =>
      exact ⟨1, rfl, fun _ _ => followers_moved _ (followers_moved _ rfl)⟩
  | absolute =>
      exact ⟨2, rfl, fun _ _ => followers_still _
        (followers_moved _ (followers_moved _ (followers_moved _ rfl)))⟩
  | immediate | absoluteXIndexed | absoluteYIndexed => exact consumes
  | _ => simp [operandModes65C02, operandModes] at assigned

theorem storeStraight_consumes {mode : AddressingMode} (assigned : mode ∈ storeModes) :
    ConsumesOperand (storeStraight mode) (storeStraight mode) mode := by
  cases mode with
  | zeropage | zeropageXIndexed | zeropageYIndexed =>
      exact ⟨1, rfl, fun _ _ => followers_moved _ (followers_moved _ rfl)⟩
  | absolute | absoluteXIndexed | absoluteYIndexed =>
      exact ⟨2, rfl, fun _ _ => followers_moved _ (followers_moved _ (followers_moved _ rfl))⟩
  | zeropageIndirect =>
      exact ⟨1, rfl, fun _ _ => followers_still _ (followers_still _
        (followers_moved _ (followers_moved _ rfl)))⟩
  | _ => simp [storeModes] at assigned

theorem stzStraight_consumes {mode : AddressingMode} (assigned : mode ∈ adjustModes) :
    ConsumesOperand (stzStraight mode) (stzStraight mode) mode := by
  cases mode with
  | zeropage => exact ⟨1, rfl, fun _ _ => followers_moved _ (followers_moved _ rfl)⟩
  | zeropageXIndexed => exact storeStraight_consumes (by decide : .zeropageXIndexed ∈ storeModes)
  | absolute => exact storeStraight_consumes (by decide : .absolute ∈ storeModes)
  | absoluteXIndexed => exact storeStraight_consumes (by decide : .absoluteXIndexed ∈ storeModes)
  | _ => simp [adjustModes] at assigned

/-- The addressing modes of `STA` on the 65C02. -/
def staModes65C02 : List AddressingMode :=
  [.zeropage, .zeropageXIndexed, .absolute, .absoluteXIndexed, .absoluteYIndexed,
    .xIndexedIndirect, .indirectYIndexed, .zeropageIndirect]

theorem staStaticAccess65C02_consumes {mode : AddressingMode} (assigned : mode ∈ staModes65C02) :
    ConsumesOperand (staStaticAccess65C02 mode) (staStaticAccess65C02 mode) mode := by
  cases mode with
  | zeropage | zeropageXIndexed =>
      exact ⟨1, rfl, fun _ _ => followers_moved _ (followers_moved _ rfl)⟩
  | absolute | absoluteXIndexed | absoluteYIndexed =>
      exact ⟨2, rfl, fun _ _ => followers_moved _ (followers_moved _ (followers_moved _ rfl))⟩
  | xIndexedIndirect | indirectYIndexed | zeropageIndirect =>
      exact ⟨1, rfl, fun _ _ => followers_still _ (followers_still _
        (followers_moved _ (followers_moved _ rfl)))⟩
  | _ => simp [staModes65C02] at assigned

theorem indexStoreStaticAccess_consumes (indexed : AddressingMode) (index : Registers → Byte)
    {mode : AddressingMode} (assigned : mode ∈ [AddressingMode.zeropage, indexed, .absolute])
    (single : indexed = .zeropageXIndexed ∨ indexed = .zeropageYIndexed) :
    ConsumesOperand (indexStoreStaticAccess indexed index mode)
      (indexStoreStaticAccess indexed index mode) mode := by
  simp only [List.mem_cons, List.not_mem_nil, or_false] at assigned
  rcases assigned with rfl | rfl | rfl
  · exact ⟨1, rfl, fun _ _ => followers_moved _ (followers_moved _ rfl)⟩
  · rcases single with rfl | rfl
    all_goals exact ⟨1, rfl, fun _ _ => followers_moved _ (followers_moved _ rfl)⟩
  · rcases single with rfl | rfl
    all_goals
      exact ⟨2, rfl, fun _ _ => followers_moved _ (followers_moved _ (followers_moved _ rfl))⟩

theorem modifyStaticAccess_consumes {mode : AddressingMode} (assigned : mode ∈ adjustModes) :
    ConsumesOperand (modifyStaticAccess mode) (modifyStaticAccess mode) mode := by
  cases mode with
  | zeropage | zeropageXIndexed =>
      exact ⟨1, rfl, fun _ _ => followers_still _ (followers_moved _ (followers_moved _ rfl))⟩
  | absolute | absoluteXIndexed =>
      exact ⟨2, rfl, fun _ _ => followers_still _
        (followers_moved _ (followers_moved _ (followers_moved _ rfl)))⟩
  | _ => simp [adjustModes] at assigned

theorem stzStaticAccess_consumes {mode : AddressingMode} (assigned : mode ∈ adjustModes) :
    ConsumesOperand (stzStaticAccess mode) (stzStaticAccess mode) mode := by
  cases mode with
  | zeropage | zeropageXIndexed =>
      exact ⟨1, rfl, fun _ _ => followers_moved _ (followers_moved _ rfl)⟩
  | absolute | absoluteXIndexed =>
      exact ⟨2, rfl, fun _ _ => followers_moved _ (followers_moved _ (followers_moved _ rfl))⟩
  | _ => simp [adjustModes] at assigned

/-- An instruction whose program reads nothing consumes its opcode. -/
theorem consumesOperand_of_silent {program : StaticHandler (Traced Ram)}
    {repeated : StaticHandler Replay} {mode : AddressingMode} (none : 0 ∈ mode.operandCount)
    (silent : ∀ frame, Traced.reads (program frame).1.memory.log = Traced.reads frame.memory.log)
    (resilent : ∀ frame, (repeated frame).1.memory = frame.memory) :
    ConsumesOperand program repeated mode := by
  refine ⟨0, none, fun core retained => ?_⟩
  unfold consumedBy
  dsimp only
  rw [resilent, silent]
  exact followers_moved _ rfl

section Shifts

variable {accumulator : Frame (Traced Ram) → Frame (Traced Ram)}
  {reaccumulator : Frame Replay → Frame Replay} {shift : Registers → Word → ShiftResult}
  {mode : AddressingMode}

variable (shift) in
theorem shiftStraight_consumes
    (silent : ∀ frame, Traced.reads (accumulator frame).memory.log = Traced.reads frame.memory.log)
    (resilent : ∀ frame, (reaccumulator frame).memory = frame.memory)
    (assigned : mode ∈ shiftModes) :
    ConsumesOperand (shiftStraight accumulator shift mode)
      (shiftStraight reaccumulator shift mode) mode := by
  cases mode with
  | accumulator =>
      exact consumesOperand_of_silent rfl (fun frame => silent (markPenultimate false frame))
        fun frame => resilent (markPenultimate false frame)
  | zeropage | zeropageXIndexed =>
      exact ⟨1, rfl, fun _ _ => followers_still _ (followers_moved _ (followers_moved _ rfl))⟩
  | absolute | absoluteXIndexed =>
      exact ⟨2, rfl, fun _ _ => followers_still _
        (followers_moved _ (followers_moved _ (followers_moved _ rfl)))⟩
  | _ => simp [shiftModes] at assigned

theorem shiftStraight65C02_consumes
    (silent : ∀ frame, Traced.reads (accumulator frame).memory.log = Traced.reads frame.memory.log)
    (resilent : ∀ frame, (reaccumulator frame).memory = frame.memory)
    (assigned : mode ∈ shiftModes) :
    ConsumesOperand (shiftStraight65C02 accumulator shift mode)
      (shiftStraight65C02 reaccumulator shift mode) mode := by
  have consumes := shiftStraight_consumes shift silent resilent assigned
  cases mode with
  | absoluteXIndexed =>
      exact ⟨2, rfl, fun _ _ => followers_still _
        (followers_moved _ (followers_moved _ (followers_moved _ rfl)))⟩
  | accumulator | zeropage | zeropageXIndexed | absolute => exact consumes
  | _ => simp [shiftModes] at assigned

end Shifts

/-- A program that fetches a byte and then goes on without a read. -/
theorem consumesOperand_of_fetch {program : StaticHandler (Traced Ram)}
    {repeated : StaticHandler Replay}
    (fetches : ∀ frame, (program frame).1.memory = frame.fetchDELTA.memory)
    (refetches : ∀ frame, (repeated frame).1.memory = frame.fetchDELTA.memory) :
    ConsumesOperand program repeated .relative := by
  refine ⟨1, rfl, fun core retained => ?_⟩
  unfold consumedBy
  dsimp only
  rw [refetches, fetches]
  exact followers_moved _ (followers_moved _ rfl)

theorem branchStraight_memory (taken : Registers → Bool) (frame : Frame μ) :
    (branchStraight taken frame).1.memory = frame.fetchDELTA.memory := by
  unfold branchStraight
  dsimp only
  split
  all_goals rfl

theorem staticBranch_memory (taken : Registers → Bool) (frame : Frame μ) :
    (staticBranch taken frame).1.memory = frame.fetchDELTA.memory := by
  unfold staticBranch
  dsimp only
  split
  all_goals rfl

theorem staticAdjust_consumes (step : Word) {mode : AddressingMode}
    (assigned : mode ∈ adjustModes) :
    ConsumesOperand (staticAdjust step mode) (staticAdjust step mode) mode := by
  have consumes := modifyStaticAccess_consumes assigned
  unfold staticAdjust
  exact consumes.completing (fun _ => rfl) fun _ => rfl

theorem staticAdjust65C02_consumes (step : Word) {mode : AddressingMode}
    (assigned : mode ∈ shiftModes) :
    ConsumesOperand (staticAdjust65C02 step mode) (staticAdjust65C02 step mode) mode := by
  rcases List.mem_cons.mp assigned with rfl | inMemory
  · exact consumesOperand_of_silent rfl (fun _ => rfl) fun _ => rfl
  · have consumes := staticAdjust_consumes step inMemory
    cases mode with
    | accumulator => simp at inMemory
    | zeropage | zeropageXIndexed | absolute | absoluteXIndexed => exact consumes
    | _ => simp at inMemory

theorem staticShift_consumes (shift : Registers → Word → ShiftResult) {mode : AddressingMode}
    (assigned : mode ∈ shiftModes) :
    ConsumesOperand (staticShift modifyStaticAccess shift mode)
      (staticShift modifyStaticAccess shift mode) mode := by
  rcases List.mem_cons.mp assigned with rfl | inMemory
  · exact consumesOperand_of_silent rfl (fun _ => rfl) fun _ => rfl
  · have consumes := modifyStaticAccess_consumes inMemory
    cases mode with
    | zeropage | zeropageXIndexed | absolute | absoluteXIndexed =>
        exact consumes.of_reads (fun _ => rfl) fun _ => rfl
    | _ => simp at inMemory

theorem staticShift65C02_consumes (shift : Registers → Word → ShiftResult) {mode : AddressingMode}
    (assigned : mode ∈ shiftModes) :
    ConsumesOperand (staticShift shiftStaticAccess65C02 shift mode)
      (staticShift shiftStaticAccess65C02 shift mode) mode := by
  have consumes := staticShift_consumes shift assigned
  cases mode with
  | absoluteXIndexed =>
      exact ⟨2, rfl, fun _ _ => followers_still _
        (followers_moved _ (followers_moved _ (followers_moved _ rfl)))⟩
  | accumulator | zeropage | zeropageXIndexed | absolute => exact consumes
  | _ => simp [shiftModes] at assigned

theorem testModifyStaticAccess_consumes {mode : AddressingMode}
    (assigned : mode ∈ [AddressingMode.zeropage, .absolute]) :
    ConsumesOperand (testModifyStaticAccess mode) (testModifyStaticAccess mode) mode := by
  cases mode with
  | zeropage => exact modifyStaticAccess_consumes (by decide : .zeropage ∈ adjustModes)
  | absolute => exact modifyStaticAccess_consumes (by decide : .absolute ∈ adjustModes)
  | _ => simp at assigned

theorem jmpStaticAccess65C02_consumes {mode : AddressingMode}
    (assigned : mode ∈ [AddressingMode.absolute, .indirect, .absoluteXIndexedIndirect]) :
    ConsumesOperand (jmpStaticAccess65C02 mode) (jmpStaticAccess65C02 mode) mode := by
  cases mode with
  | absolute =>
      exact ⟨2, rfl, fun _ _ => followers_moved _ (followers_moved _ (followers_moved _ rfl))⟩
  | indirect | absoluteXIndexedIndirect =>
      exact ⟨2, rfl, fun _ _ => followers_still _ (followers_still _
        (followers_moved _ (followers_moved _ (followers_moved _ rfl))))⟩
  | _ => simp at assigned

theorem jmpStaticAccess_consumes {mode : AddressingMode}
    (assigned : mode ∈ [AddressingMode.absolute, .indirect]) :
    ConsumesOperand (jmpStaticAccess mode) (jmpStaticAccess mode) mode := by
  cases mode with
  | absolute =>
      exact ⟨2, rfl, fun _ _ => followers_moved _ (followers_moved _ (followers_moved _ rfl))⟩
  | indirect =>
      exact ⟨2, rfl, fun _ _ => followers_still _ (followers_still _
        (followers_moved _ (followers_moved _ (followers_moved _ rfl))))⟩
  | _ => simp at assigned

namespace Routine

/-- `BRK` in one of the two dialects. -/
def breaks : Routine → Bool
  | BRK | BRK65C02 => true
  | _ => false

/-- The programs that are the same in both modes. -/
theorem static_consumes {routine : Routine} (unbroken : routine.breaks = false)
    {mode : AddressingMode} (assigned : mode ∈ routine.modes)
    (served : routine = LDX → mode ≠ .zeropageYIndexed ∧ mode ≠ .absoluteYIndexed) :
    ConsumesOperand (routine.static mode) (routine.static mode) mode := by
  cases routine with
  | AND | ORA | EOR =>
      exact (aluStaticAccess_consumes assigned).completing (fun _ => rfl) fun _ => rfl
  | ADC | SBC =>
      exact (aluStaticAccess_consumes assigned).latched.of_reads (fun _ => rfl) fun _ => rfl
  | AND65C02 | ORA65C02 | EOR65C02 =>
      exact (aluStaticAccess65C02_consumes assigned).completing (fun _ => rfl) fun _ => rfl
  | ADC65C02 | SBC65C02 =>
      exact (aluStaticAccess65C02_consumes assigned).latched.of_reads (fun _ => rfl) fun _ => rfl
  | LDA | CMP => exact (loadStaticAccess_consumes assigned).completing (fun _ => rfl) fun _ => rfl
  | LDA65C02 | CMP65C02 =>
      exact (loadStaticAccess65C02_consumes assigned).completing (fun _ => rfl) fun _ => rfl
  | LDX =>
      have based : mode ∈ [AddressingMode.immediate, .zeropage, .zeropageXIndexed, .absolute,
          .absoluteXIndexed] := by
        simp_all [modes]
        tauto
      exact (indexLoadStaticAccess_consumes based).1.completing (fun _ => rfl) fun _ => rfl
  | LDY =>
      exact (indexLoadStaticAccess_consumes assigned).1.completing (fun _ => rfl) fun _ => rfl
  | BIT65C02 =>
      exact (indexLoadStaticAccess_consumes assigned).2.completing (fun _ => rfl) fun _ => rfl
  | CPX | CPY =>
      exact (indexCompareStaticAccess_consumes assigned).completing (fun _ => rfl) fun _ => rfl
  | BIT => exact (bitStaticAccess_consumes assigned).completing (fun _ => rfl) fun _ => rfl
  | STA65C02 =>
      exact (staStaticAccess65C02_consumes assigned).completing (fun _ => rfl) fun _ => rfl
  | STA =>
      have consumes := staStaticAccess65C02_consumes
        (List.mem_append_left [.zeropageIndirect] assigned)
      cases mode with
      | zeropageIndirect => simp [modes] at assigned
      | _ => exact consumes.completing (fun _ => rfl) fun _ => rfl
  | STX =>
      exact (indexStoreStaticAccess_consumes _ _ assigned (.inr rfl)).completing (fun _ => rfl)
        fun _ => rfl
  | STY =>
      exact (indexStoreStaticAccess_consumes _ _ assigned (.inl rfl)).completing (fun _ => rfl)
        fun _ => rfl
  | STZ65C02 => exact (stzStaticAccess_consumes assigned).completing (fun _ => rfl) fun _ => rfl
  | ASL65C02 | LSR65C02 | ROL65C02 | ROR65C02 => exact staticShift65C02_consumes _ assigned
  | INC | DEC => exact staticAdjust_consumes _ assigned
  | INC65C02 | DEC65C02 => exact staticAdjust65C02_consumes _ assigned
  | ASL | LSR | ROL | ROR => exact staticShift_consumes _ assigned
  | TSB65C02 | TRB65C02 =>
      exact (testModifyStaticAccess_consumes assigned).completing (fun _ => rfl) fun _ => rfl
  | JMP => exact (jmpStaticAccess_consumes assigned).completing (fun _ => rfl) fun _ => rfl
  | JMP65C02 =>
      exact (jmpStaticAccess65C02_consumes assigned).completing (fun _ => rfl) fun _ => rfl
  | BCC | BCS | BEQ | BMI | BNE | BPL | BVC | BVS | BRA65C02 =>
      obtain rfl : mode = .relative := List.mem_singleton.mp assigned
      exact consumesOperand_of_fetch (staticBranch_memory _) (staticBranch_memory _)
  | JSR =>
      obtain rfl : mode = .absolute := List.mem_singleton.mp assigned
      exact ⟨2, rfl, fun _ _ => followers_moved _ (followers_moved _ (followers_moved _ rfl))⟩
  | RTS =>
      obtain rfl : mode = .implied := List.mem_singleton.mp assigned
      exact ⟨0, rfl, fun _ _ => followers_still _ (followers_still _ (followers_moved _ rfl))⟩
  | RTI =>
      obtain rfl : mode = .implied := List.mem_singleton.mp assigned
      exact ⟨0, rfl, fun _ _ => followers_still _ (followers_still _ (followers_still _
        (followers_moved _ rfl)))⟩
  | PLA | PLX65C02 | PLY65C02 | PLP =>
      obtain rfl : mode = .implied := List.mem_singleton.mp assigned
      exact ⟨0, rfl, fun _ _ => followers_still _ (followers_moved _ rfl)⟩
  | PHA | PHP | PHX65C02 | PHY65C02 | CLC | CLD | CLI | CLV | DEX | DEY | INX | INY | NOP | SEC
  | SED | SEI | TAX | TAY | TSX | TXA | TXS | TYA =>
      obtain rfl : mode = .implied := List.mem_singleton.mp assigned
      exact consumesOperand_of_silent rfl (fun _ => rfl) fun _ => rfl
  | BRK | BRK65C02 => cases unbroken

/-- In every mode in which it ends, a staged instruction consumes its opcode and its operand
bytes, and `BRK` one byte more. -/
theorem straight_consumes {routine : Routine} (unbroken : routine.breaks = false)
    {mode : AddressingMode}
    (assigned : mode ∈ routine.modes) (ends : mode ∉ routine.endlessModes) :
    ConsumesOperand (routine.straight mode) (routine.straight mode) mode := by
  cases routine with
  | AND | ORA | EOR =>
      exact (loadStaticAccess_consumes assigned).completing (fun _ => rfl) fun _ => rfl
  | ADC | SBC =>
      exact (loadStaticAccess_consumes assigned).latched.completing (fun _ => rfl) fun _ => rfl
  | AND65C02 | ORA65C02 | EOR65C02 =>
      exact (loadStaticAccess65C02_consumes assigned).completing (fun _ => rfl) fun _ => rfl
  | ADC65C02 | SBC65C02 =>
      have based : mode ∈ operandModes := by simp_all [modes, endlessModes, operandModes65C02]
      exact (decimalStraight_consumes based).completing (fun _ => rfl) fun _ => rfl
  | LDA =>
      have assigned : mode ∈ operandModes65C02 := List.mem_cons_of_mem _ assigned
      exact (ldaStraight_consumes assigned).completing (fun _ => rfl) fun _ => rfl
  | LDA65C02 => exact (ldaStraight_consumes assigned).completing (fun _ => rfl) fun _ => rfl
  | CMP =>
      have assigned : mode ∈ operandModes65C02 := List.mem_cons_of_mem _ assigned
      exact (cmpStraight_consumes assigned).completing (fun _ => rfl) fun _ => rfl
  | CMP65C02 => exact (cmpStraight_consumes assigned).completing (fun _ => rfl) fun _ => rfl
  | LDX =>
      have based : mode ∈ operandModes := by
        simp_all [modes, endlessModes, operandModes]
        tauto
      exact (loadStaticAccess_consumes based).completing (fun _ => rfl) fun _ => rfl
  | LDY | CPX | CPY | BIT | BIT65C02 =>
      have based := modes_subset_operandModes _ (by decide) assigned
      exact (loadStaticAccess_consumes based).completing (fun _ => rfl) fun _ => rfl
  | STA | STA65C02 =>
      have stores : mode ∈ storeModes := by
        simp_all [modes, endlessModes, storeModes]
        tauto
      exact (storeStraight_consumes stores).completing (fun _ => rfl) fun _ => rfl
  | STX | STY =>
      have stores := modes_subset_storeModes _ (by decide) assigned
      exact (storeStraight_consumes stores).completing (fun _ => rfl) fun _ => rfl
  | STZ65C02 => exact (stzStraight_consumes assigned).completing (fun _ => rfl) fun _ => rfl
  | ASL | LSR | ROL | ROR =>
      exact shiftStraight_consumes _ (fun _ => rfl) (fun _ => rfl) assigned
  | ASL65C02 | LSR65C02 | ROL65C02 | ROR65C02 =>
      exact shiftStraight65C02_consumes (fun _ => rfl) (fun _ => rfl) assigned
  | TSB65C02 | TRB65C02 =>
      exact (testModifyStaticAccess_consumes assigned).of_reads (fun _ => rfl) fun _ => rfl
  | BCC | BCS | BEQ | BMI | BNE | BPL | BVC | BVS | BRA65C02 =>
      obtain rfl : mode = .relative := List.mem_singleton.mp assigned
      exact consumesOperand_of_fetch (branchStraight_memory _) (branchStraight_memory _)
  | PHA | PHP | PHX65C02 | PHY65C02 | SED =>
      obtain rfl : mode = .implied := List.mem_singleton.mp assigned
      exact consumesOperand_of_silent rfl (fun _ => rfl) fun _ => rfl
  | BRK | BRK65C02 => cases unbroken
  | INC | DEC | INC65C02 | DEC65C02 | JMP | JMP65C02 | JSR | RTS | RTI | PLA | PLX65C02 | PLY65C02
  | PLP | CLC | CLD | CLI | CLV | DEX | DEY | INX | INY | NOP | SEC | SEI | TAX | TAY | TSX | TXA
  | TXS | TYA => exact static_consumes rfl assigned fun isLDX => by cases isLDX

/-- The program of a routine in one of the two modes. -/
def program (routine : Routine) (static : Bool) (mode : AddressingMode) : StaticHandler μ :=
  if static then routine.static mode else routine.straight mode

/-- The modes of `LDX` without a case in its switch. -/
def Strays (routine : Routine) (mode : AddressingMode) : Prop :=
  routine = LDX ∧ (mode = .zeropageYIndexed ∨ mode = .absoluteYIndexed)

instance (routine : Routine) (mode : AddressingMode) : Decidable (routine.Strays mode) :=
  inferInstanceAs (Decidable (_ ∧ (_ ∨ _)))

/-- An instruction that completes consumes its opcode and its operand bytes unless it is `BRK` or
`LDX` in one of the modes without a case. -/
theorem program_consumes_iff {routine : Routine} {static : Bool} {mode : AddressingMode}
    (assigned : mode ∈ routine.modes) (ends : static = false → mode ∉ routine.endlessModes)
    (core : Core Ram) (retained : Locals) :
    (∃ count ∈ mode.operandCount,
      consumedBy (routine.program static mode) (routine.program static mode) core retained =
        1 + count) ↔
      routine.breaks = false ∧ ¬ (static = true ∧ routine.Strays mode) := by
  by_cases broken : routine.breaks = true
  · refine iff_of_false ?_ fun well => absurd (broken.symm.trans well.1) (by decide)
    rintro ⟨count, count_mem, consumed⟩
    have fetches : mode = .implied ∧
        consumedBy (routine.program static mode) (routine.program static mode) core retained =
          2 := by
      cases routine with
      | BRK | BRK65C02 =>
          obtain rfl : mode = .implied := List.mem_singleton.mp assigned
          refine ⟨rfl, ?_⟩
          cases static
          all_goals exact followers_still _ (followers_still _ (followers_moved _
            (followers_moved _ rfl)))
      | _ => cases broken
    obtain ⟨rfl, fetched⟩ := fetches
    obtain rfl : 0 = count := Option.some.inj count_mem
    exact absurd (fetched.symm.trans consumed) (by decide)
  · by_cases strays : static = true ∧ routine.Strays mode
    · refine iff_of_false ?_ fun well => well.2 strays
      rintro ⟨count, count_mem, consumed⟩
      obtain ⟨rfl, rfl, indexed⟩ := strays
      have fetched : consumedBy (LDX.program true mode) (LDX.program true mode) core retained =
          1 := by
        rcases indexed with rfl | rfl
        all_goals exact followers_moved _ rfl
      rcases indexed with rfl | rfl
      · obtain rfl : 1 = count := Option.some.inj count_mem
        exact absurd (fetched.symm.trans consumed) (by decide)
      · obtain rfl : 2 = count := Option.some.inj count_mem
        exact absurd (fetched.symm.trans consumed) (by decide)
    · have unbroken : routine.breaks = false := Bool.eq_false_of_not_eq_true broken
      refine iff_of_true ?_ ⟨unbroken, strays⟩
      cases static with
      | false =>
          obtain ⟨count, count_mem, consumes⟩ := straight_consumes unbroken assigned (ends rfl)
          exact ⟨count, count_mem, consumes core retained⟩
      | true =>
          obtain ⟨count, count_mem, consumes⟩ := static_consumes unbroken assigned fun isLDX =>
            ⟨fun mode_eq => strays ⟨rfl, isLDX, .inl mode_eq⟩,
              fun mode_eq => strays ⟨rfl, isLDX, .inr mode_eq⟩⟩
          exact ⟨count, count_mem, consumes core retained⟩

end Routine

/-! ## The dispatch tables -/

namespace Dialect

/-- The opcodes of `LDX` whose static-mode function has no case. -/
def strayOpcodes : List Byte := [0xB6, 0xBE]

theorem lookup_stray (dialect : Dialect) :
    ∀ opcode, ∀ routine ∈ (dialect.lookup opcode).staged,
      (opcode = 0x00 ↔ routine.breaks = true) ∧
        (opcode ∈ strayOpcodes ↔ routine.Strays (dialect.lookup opcode).addressingMode) := by
  cases dialect <;> decide +kernel

theorem complete_of_slot {dialect : Dialect} {opcode : Byte} {routine : Routine}
    {mode : AddressingMode} (decoded : dialect.lookup opcode = Dispatch.slot routine mode)
    (assigned : mode ∈ routine.modes) {static : Bool}
    (ends : static = false → mode ∉ routine.endlessModes) (frame : Frame μ) :
    dialect.complete static opcode frame = some (routine.program static mode frame).1 := by
  unfold complete Routine.program
  cases static with
  | false =>
      rw [execute_of_slot decoded assigned (ends rfl)]
      rfl
  | true =>
      rw [decoded]
      rfl

theorem ends_of_complete {dialect : Dialect} {opcode : Byte} {routine : Routine}
    {mode : AddressingMode} (decoded : dialect.lookup opcode = Dispatch.slot routine mode)
    {static : Bool} {frame : Frame μ}
    (completes : (dialect.complete static opcode frame).isSome = true) (staged : static = false) :
    mode ∉ routine.endlessModes := by
  intro endless
  subst staged
  rw [complete, execute, decoded] at completes
  change (Option.map _ (runCalls (routine.staged mode) 7 1 frame)).isSome = true at completes
  rw [routine.runCalls_of_endless endless] at completes
  cases completes

/-- An instruction that completes consumes as many bytes of the instruction stream as the
disassembler advances by, unless it is `BRK`, or `LDX $zp,Y` or `LDX $abs,Y` in static mode. -/
theorem consumed_iff (dialect : Dialect) (static : Bool) (core : Core Ram) (retained : Locals)
    (defined : (dialect.lookup core.opcode).addressingMode ≠ .undefined)
    (completes :
      (dialect.complete static core.opcode (core.traced.fetched retained)).isSome = true) :
    (∃ count ∈ (dialect.lookup core.opcode).addressingMode.operandCount,
      dialect.consumed static core retained = some (1 + count)) ↔
      core.opcode ≠ 0x00 ∧ ¬ (static = true ∧ core.opcode ∈ strayOpcodes) := by
  rcases dialect.lookup_cases core.opcode defined with
    ⟨-, zero_eq⟩ | ⟨routine, -, decoded, assigned⟩
  · rw [complete, execute, zero_eq] at completes
    cases static <;> cases completes
  · obtain ⟨breaks_iff, strays_iff⟩ := dialect.lookup_stray core.opcode routine
      (by rw [decoded]; rfl)
    rw [strays_iff, Ne, breaks_iff]
    generalize (dialect.lookup core.opcode).addressingMode = mode at decoded assigned ⊢
    have ends := ends_of_complete decoded completes
    have consumed_eq : dialect.consumed static core retained =
        some (consumedBy (routine.program static mode) (routine.program static mode) core
          retained) := by
      rw [consumed, complete_of_slot decoded assigned ends, Option.bind_some,
        complete_of_slot decoded assigned ends]
      rfl
    rw [consumed_eq]
    simp only [Option.some.injEq, Bool.not_eq_true]
    exact routine.program_consumes_iff assigned ends core retained

/-- `LDA #` consumes two bytes in static mode. -/
theorem consumed_A9 :
    ∃ count ∈ AddressingMode.immediate.operandCount,
      base.consumed true { memory := fun _ => 0xA9, registers := Registers.reset } Locals.zero =
        some (1 + count) :=
  (consumed_iff .base true { memory := fun _ => 0xA9, registers := Registers.reset } Locals.zero
    (by decide) rfl).mpr ⟨by decide, by decide⟩

/-- `BRK` consumes two bytes, and the disassembler advances by one. -/
theorem not_consumed_00 :
    base.consumed false { memory := fun _ => 0x00, registers := Registers.reset } Locals.zero =
        some 2 ∧
      ¬ ∃ count ∈ (base.lookup 0x00).addressingMode.operandCount,
        base.consumed false { memory := fun _ => 0x00, registers := Registers.reset }
          Locals.zero = some (1 + count) := by
  refine ⟨rfl, ?_⟩
  rintro ⟨count, count_mem, consumed⟩
  obtain rfl : 0 = count := Option.some.inj count_mem
  exact absurd consumed (by decide)

end Dialect
end System6502
