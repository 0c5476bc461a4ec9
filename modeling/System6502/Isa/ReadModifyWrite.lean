import System6502.Isa.Addressing

/-!
# Read-modify-write instructions

What shifts, rotates, increments, decrements and the test-and-modify pair do to their target, and
when the staged functions do it.
-/

namespace System6502

open System6502.Frame

/-- The listed status bits take the listed values and all others keep theirs. -/
structure FlagsSet (before after : Registers) (flags : List (Byte × Bool)) : Prop where
  /-- The listed bits. -/
  listed : ∀ flag ∈ flags, after.getBit flag.1 = flag.2
  /-- The other bits. -/
  others : after.SR &&& ~~~(flags.foldr (fun flag mask => flag.1 ||| mask) 0) =
    before.SR &&& ~~~(flags.foldr (fun flag mask => flag.1 ||| mask) 0)

/-- The sign and zero bits that describe a value. -/
def describing (value : Byte) : List (Byte × Bool) :=
  [(Registers.bitN, value.msb), (Registers.bitZ, value == 0)]

/-- A new value of a target and the status bits it sets. -/
structure Modification where
  /-- The new value. -/
  value : Byte
  /-- The status bits. -/
  flags : List (Byte × Bool)

namespace Modification

/-- A value moved by one position, with the bit that was moved out. -/
def shifted (value : Byte) (out : Bool) : Modification where
  value
  flags := (Registers.bitC, out) :: describing value

/-- A value counted up or down. -/
def counted (value : Byte) : Modification where
  value
  flags := describing value

/-- A combination of the target with the accumulator. -/
def tested (A target value : Byte) : Modification where
  value
  flags := [(Registers.bitZ, A &&& target == 0)]

end Modification

namespace Routine

/-- What a shift or rotate does to its target. -/
def shifting : Routine → Option (Registers → Byte → Modification)
  | ASL | ASL65C02 => some fun _ target => .shifted (target <<< 1) target.msb
  | LSR | LSR65C02 => some fun _ target => .shifted (target >>> 1) (target.getLsbD 0)
  | ROL | ROL65C02 => some fun registers target =>
      .shifted (target <<< 1 ||| if registers.getBit Registers.bitC then 0x01 else 0) target.msb
  | ROR | ROR65C02 => some fun registers target =>
      .shifted (target >>> 1 ||| if registers.getBit Registers.bitC then 0x80 else 0)
        (target.getLsbD 0)
  | _ => none

/-- What an increment, a decrement or a test-and-modify does to its target. -/
def adjusting : Routine → Option (Registers → Byte → Modification)
  | INC | INC65C02 => some fun _ target => .counted (target + 1)
  | DEC | DEC65C02 => some fun _ target => .counted (target - 1)
  | TSB65C02 => some fun registers target => .tested registers.A target (target ||| registers.A)
  | TRB65C02 => some fun registers target =>
      .tested registers.A target (target &&& ~~~registers.A)
  | _ => none

end Routine

namespace Core

/-- The byte that a read-modify-write instruction at the program counter works on. -/
def target (core : Core (Traced Ram)) (mode : AddressingMode) : Byte :=
  if mode = .accumulator then core.registers.A else core.memory.bus (core.address mode)

end Core

/-- The target of the instruction at the program counter is replaced exactly once by the value of
a modification, whose status bits are set, and the program counter ends after the operand bytes;
nothing else changes. -/
structure Modifies (modification : Registers → Byte → Modification) (mode : AddressingMode)
    (core : Core (Traced Ram)) (after : Frame (Traced Ram)) : Prop where
  /-- The memory. -/
  memory : after.memory.bus =
    if mode = .accumulator then core.memory.bus
    else Function.update core.memory.bus (core.address mode)
      (modification core.registers (core.target mode)).value
  /-- The writes made. -/
  writes : Traced.writes after.memory.log =
    if mode = .accumulator then Traced.writes core.memory.log
    else (core.address mode, (modification core.registers (core.target mode)).value) ::
      Traced.writes core.memory.log
  /-- The status bits. -/
  flags : FlagsSet core.registers after.registers
    (modification core.registers (core.target mode)).flags
  /-- The other registers. -/
  registers : ∃ count ∈ mode.operandCount, after.registers =
    { core.registers with
      A :=
        if mode = .accumulator then (modification core.registers (core.target mode)).value
        else core.registers.A
      PC := core.registers.PC + 1 + BitVec.ofNat 16 count
      SR := after.registers.SR }

/-! ## Status bits -/

theorem FlagsSet.nil (registers : Registers) : FlagsSet registers registers [] where
  listed := by simp
  others := rfl

theorem getBit_setBit_self (registers : Registers) {bit : Byte} (bit_ne : bit ≠ 0)
    (value : Bool) : (registers.setBit bit value).getBit bit = value := by
  unfold Registers.getBit Registers.setBit
  cases value with
  | false => simp [BitVec.and_assoc]
  | true =>
      have absorbed : (registers.SR ||| bit) &&& bit = bit := by
        ext index index_lt
        simp
        exact .inr
      simpa [absorbed] using bit_ne

theorem getBit_setBit_of_apart (registers : Registers) {bit other : Byte}
    (apart : other &&& bit = 0) (value : Bool) :
    (registers.setBit bit value).getBit other = registers.getBit other := by
  have clear : ∀ index, (index_lt : index < 8) → (other[index] && bit[index]) = false := by
    intro index index_lt
    have bit_eq := congrArg (fun value : Byte => value.getLsbD index) apart
    simpa [BitVec.getLsbD_eq_getElem index_lt] using bit_eq
  have kept : (registers.setBit bit value).SR &&& other = registers.SR &&& other := by
    unfold Registers.setBit
    ext index index_lt
    have := clear index index_lt
    cases value <;> simp <;> grind
  unfold Registers.getBit
  rw [kept]

/-- Setting one more bit. -/
theorem FlagsSet.setBit {before after : Registers} {flags : List (Byte × Bool)}
    (set : FlagsSet before after flags) {bit : Byte} (value : Bool) (bit_ne : bit ≠ 0)
    (apart : ∀ flag ∈ flags, flag.1 &&& bit = 0) :
    FlagsSet before (after.setBit bit value) ((bit, value) :: flags) where
  listed := by
    intro flag flag_mem
    rcases List.mem_cons.mp flag_mem with rfl | earlier
    · exact getBit_setBit_self after bit_ne value
    · rw [getBit_setBit_of_apart after (apart flag earlier)]
      exact set.listed flag earlier
  others := by
    have others := set.others
    rw [List.foldr_cons]
    generalize flags.foldr (fun flag mask => flag.1 ||| mask) 0 = mask at others ⊢
    have kept : (after.setBit bit value).SR &&& ~~~(bit ||| mask) =
        (after.SR &&& ~~~mask) &&& ~~~bit := by
      unfold Registers.setBit
      ext index index_lt
      cases value <;> simp <;> grind
    rw [kept, others]
    ext index index_lt
    simp
    grind

theorem msb_eq (value : Byte) : (value &&& 0x80 == 0x80) = value.msb := by
  revert value
  decide

theorem flagsSet_counted (registers : Registers) (value : Byte) :
    FlagsSet registers (registers.statusWithValue value .ignore)
      (Modification.counted value).flags := by
  have zero := (FlagsSet.nil registers).setBit (value == 0) (show Registers.bitZ ≠ 0 by decide)
    (by simp)
  have sign := zero.setBit (value &&& 0x80 == 0x80) (show Registers.bitN ≠ 0 by decide)
    (List.forall_mem_singleton.mpr (show Registers.bitZ &&& Registers.bitN = 0 by decide))
  rw [Modification.counted, describing, ← msb_eq]
  exact sign

theorem flagsSet_shifted (registers : Registers) (value : Byte) (carry : Bool) :
    FlagsSet registers (registers.statusWithValue value (Carry.ofBool carry))
      (Modification.shifted value carry).flags := by
  have apart : ∀ flag ∈ describing value, flag.1 &&& Registers.bitC = 0 :=
    List.forall_mem_cons.mpr ⟨show Registers.bitN &&& Registers.bitC = 0 by decide,
      List.forall_mem_singleton.mpr (show Registers.bitZ &&& Registers.bitC = 0 by decide)⟩
  have set := (flagsSet_counted registers value).setBit carry
    (show Registers.bitC ≠ 0 by decide) apart
  cases carry <;> exact set

theorem testedSR_eq : ∀ (SR : Byte) (zero : Bool),
    (SR &&& ~~~Registers.bitZ) ||| (if !zero then 0 else Registers.bitZ) =
      if zero then SR ||| Registers.bitZ else SR &&& ~~~Registers.bitZ := by
  decide +kernel

theorem flagsSet_tested (frame : Frame (Traced Ram)) (target value : Byte)
    (operand_eq : frame.locals.OPERAND.toByte = target) :
    FlagsSet frame.registers (testAgainstA frame).registers
      (Modification.tested frame.registers.A target value).flags := by
  have set := (FlagsSet.nil frame.registers).setBit (frame.registers.A &&& target == 0)
    (show Registers.bitZ ≠ 0 by decide) (by simp)
  suffices tested_eq : (testAgainstA frame).registers =
      frame.registers.setBit Registers.bitZ (frame.registers.A &&& target == 0) by
    rw [tested_eq]
    exact set
  rw [testAgainstA, registers_onRegisters, operand_eq]
  exact congrArg (fun SR => { frame.registers with SR }) (testedSR_eq _ _)

/-! ## Programs that find their target -/

/-- A program leaves the effective address in `ADDR16` and the byte there in `OPERAND`, and ends
after the operand bytes without a write. -/
structure LeavesTarget (program : StaticHandler (Traced Ram)) (mode : AddressingMode)
    (frame : Frame (Traced Ram)) : Prop where
  /-- The address. -/
  address : (program frame).1.locals.ADDR16 = frame.address mode
  /-- The operand. -/
  operand : (program frame).1.locals.OPERAND =
    (frame.memory.bus (frame.address mode)).toWord
  /-- The memory. -/
  memory : (program frame).1.memory.bus = frame.memory.bus
  /-- The writes. -/
  writes : Traced.writes (program frame).1.memory.log = Traced.writes frame.memory.log
  /-- The registers. -/
  registers : ∃ count ∈ mode.operandCount, (program frame).1.registers =
    { frame.registers with PC := frame.registers.PC + BitVec.ofNat 16 count }

theorem modifyStaticAccess_leavesTarget {mode : AddressingMode} (assigned : mode ∈ adjustModes)
    (frame : Frame (Traced Ram)) : LeavesTarget (modifyStaticAccess mode) mode frame := by
  cases mode with
  | zeropage | zeropageXIndexed => exact ⟨rfl, rfl, rfl, rfl, 1, rfl, rfl⟩
  | absolute | absoluteXIndexed =>
      have PC_eq : frame.registers.PC + 1 + 1 = frame.registers.PC + BitVec.ofNat 16 2 :=
        add_assoc _ 1 1
      refine ⟨rfl, rfl, rfl, rfl, 2, rfl, ?_⟩
      rw [← PC_eq]
      rfl
  | _ => simp [adjustModes] at assigned

theorem testModifyStaticAccess_leavesTarget {mode : AddressingMode}
    (assigned : mode ∈ [AddressingMode.zeropage, .absolute]) (frame : Frame (Traced Ram)) :
    LeavesTarget (testModifyStaticAccess mode) mode frame := by
  cases mode with
  | zeropage =>
      exact modifyStaticAccess_leavesTarget (by decide : AddressingMode.zeropage ∈ _) frame
  | absolute => exact modifyStaticAccess_leavesTarget (by decide : .absolute ∈ adjustModes) frame
  | _ => simp at assigned

/-- The end of a program writes the new value of its operand at `ADDR16` and sets the status
bits. -/
structure Replaces (modification : Registers → Byte → Modification)
    (finish : Frame (Traced Ram) → Frame (Traced Ram)) (frame : Frame (Traced Ram))
    (target : Byte) : Prop where
  /-- The write. -/
  memory : (finish frame).memory =
    Membus.writeAddr frame.memory frame.locals.ADDR16 (modification frame.registers target).value
  /-- The status bits. -/
  flags : FlagsSet frame.registers (finish frame).registers
    (modification frame.registers target).flags
  /-- The other registers. -/
  registers : (finish frame).registers =
    { frame.registers with SR := (finish frame).registers.SR }

/-- A program that finds its target and replaces it modifies it. -/
theorem modifies_of_leavesTarget {program : StaticHandler (Traced Ram)}
    {finish : Frame (Traced Ram) → Frame (Traced Ram)}
    {modification : Registers → Byte → Modification} {mode : AddressingMode}
    {core : Core (Traced Ram)} {retained : Locals} (inMemory : mode ≠ .accumulator)
    (leaves : LeavesTarget program mode (core.fetched retained))
    (pcFree : ∀ registers PC target,
      modification (assignPC PC registers) target = modification registers target)
    (replaces : ∀ frame target, frame.locals.OPERAND = Byte.toWord target →
      Replaces modification finish frame target) :
    Modifies modification mode core
      (completingStatic program finish (core.fetched retained)).1 := by
  obtain ⟨count, count_mem, registers_eq⟩ := leaves.registers
  have target_eq : core.target mode = core.memory.bus (core.address mode) := if_neg inMemory
  have replaced := replaces (program (core.fetched retained)).1 (core.target mode)
    (target_eq ▸ leaves.operand)
  have modification_eq : modification (program (core.fetched retained)).1.registers
      (core.target mode) = modification core.registers (core.target mode) := by
    rw [registers_eq]
    exact (pcFree _ _ _).trans (pcFree core.registers _ _)
  have memory_eq := replaced.memory
  rw [modification_eq, leaves.address] at memory_eq
  refine ⟨?_, ?_, ?_, count, count_mem, ?_⟩
  · rw [if_neg inMemory]
    change (finish _).memory.bus = _
    rw [memory_eq]
    exact congrArg (Function.update · (core.address mode) _) leaves.memory
  · rw [if_neg inMemory]
    change Traced.writes (finish _).memory.log = _
    rw [memory_eq]
    exact congrArg ((core.address mode, _) :: ·) leaves.writes
  · have flags := replaced.flags
    rw [modification_eq] at flags
    exact ⟨flags.listed, flags.others.trans (by rw [registers_eq]; rfl)⟩
  · refine replaced.registers.trans ?_
    rw [registers_eq, if_neg inMemory]
    rfl

/-! ## Increments, decrements and tests -/

theorem staticAdjust_modifies {step : Word} {modification : Registers → Byte → Modification}
    (counts : ∀ registers target, modification registers target =
      .counted (target.toWord + step).toByte)
    {mode : AddressingMode} (assigned : mode ∈ adjustModes) (core : Core (Traced Ram))
    (retained : Locals) :
    Modifies modification mode core (staticAdjust step mode (core.fetched retained)).1 := by
  refine modifies_of_leavesTarget ?_ (modifyStaticAccess_leavesTarget assigned _) ?_ ?_
  · rintro rfl
    simp [adjustModes] at assigned
  · intro registers PC target
    rw [counts, counts]
  · intro frame target operand_eq
    have value_eq : (adjustOPERAND step frame).locals.OPERAND.toByte =
        (modification frame.registers target).value := by
      rw [counts, ← operand_eq]
      rfl
    refine ⟨congrArg (Membus.writeAddr frame.memory frame.locals.ADDR16) value_eq, ?_, rfl⟩
    change FlagsSet frame.registers
      (frame.registers.statusWithValue (frame.locals.OPERAND + step).toByte .ignore) _
    rw [counts, operand_eq]
    exact flagsSet_counted _ _

theorem staticTestModify_modifies (operation : Byte → Byte → Byte)
    {modification : Registers → Byte → Modification}
    (tests : ∀ registers target, modification registers target =
      .tested registers.A target (operation target registers.A))
    {mode : AddressingMode} (assigned : mode ∈ [AddressingMode.zeropage, .absolute])
    (core : Core (Traced Ram)) (retained : Locals) :
    Modifies modification mode core
      (staticTestModify operation mode (core.fetched retained)).1 := by
  refine modifies_of_leavesTarget ?_ (testModifyStaticAccess_leavesTarget assigned _) ?_ ?_
  · rintro rfl
    simp at assigned
  · intro registers PC target
    rw [tests, tests]
    rfl
  · intro frame target operand_eq
    have target_eq : frame.locals.OPERAND.toByte = target := by
      rw [operand_eq, Word.toByte_toWord]
    refine ⟨?_, ?_, rfl⟩
    · rw [tests, ← target_eq]
      rfl
    · rw [tests]
      exact flagsSet_tested frame target _ target_eq

/-- An accumulator case that sets `A` and the status bits. -/
theorem modifies_accumulator {modification : Registers → Byte → Modification}
    {core : Core (Traced Ram)} {after : Frame (Traced Ram)} {carry : Carry}
    (memory_eq : after.memory.bus = core.memory.bus)
    (writes_eq : Traced.writes after.memory.log = Traced.writes core.memory.log)
    (registers_eq : after.registers = Registers.didSetA
      { core.registers with
        A := (modification core.registers core.registers.A).value
        PC := core.registers.PC + 1 } carry)
    (flags : FlagsSet core.registers
      (core.registers.statusWithValue (modification core.registers core.registers.A).value carry)
      (modification core.registers core.registers.A).flags) :
    Modifies modification .accumulator core after := by
  have SR_eq : after.registers.SR = (core.registers.statusWithValue
      (modification core.registers core.registers.A).value carry).SR := by
    rw [registers_eq]
    cases carry <;> rfl
  refine ⟨memory_eq, writes_eq, ⟨?_, ?_⟩, 0, rfl, ?_⟩
  · intro flag flag_mem
    have listed := flags.listed flag flag_mem
    unfold Registers.getBit at listed ⊢
    rw [SR_eq]
    exact listed
  · rw [SR_eq]
    exact flags.others
  · rw [show core.registers.PC + 1 + BitVec.ofNat 16 0 = core.registers.PC + 1 from
      add_zero (core.registers.PC + 1), registers_eq]
    cases carry <;> rfl

/-- The accumulator case that counts up. -/
theorem incrementA_modifies (core : Core (Traced Ram)) (retained : Locals) :
    Modifies (fun _ target => .counted (target + 1)) .accumulator core
      ((core.fetched retained).onRegisters incrementA) :=
  modifies_accumulator rfl rfl rfl (flagsSet_counted core.registers (core.registers.A + 1))

/-! ## Shifts -/

/-- A shift function computes a modification of a byte. -/
def Computes (shift : Registers → Word → ShiftResult)
    (modification : Registers → Byte → Modification) (registers : Registers) (target : Byte) :
    Prop :=
  modification registers target =
    .shifted (shift registers target.toWord).1.toByte (shift registers target.toWord).2

theorem shiftAccumulator_modifies {shift : Registers → Word → ShiftResult}
    {modification : Registers → Byte → Modification} {core : Core (Traced Ram)}
    (pcFree : ∀ registers PC target,
      shift (assignPC PC registers) target = shift registers target)
    (computes : Computes shift modification core.registers core.registers.A) (retained : Locals) :
    Modifies modification .accumulator core
      (shiftAccumulator shift (markPenultimate false (core.fetched retained))) := by
  have shift_eq : shift (core.fetched retained).registers core.registers.A.toWord =
      shift core.registers core.registers.A.toWord := pcFree core.registers _ _
  have after_eq :
      (shiftAccumulator shift (markPenultimate false (core.fetched retained))).registers =
      Registers.didSetA
        { core.registers with
          A := (modification core.registers core.registers.A).value
          PC := core.registers.PC + 1 }
        (Carry.ofBool (shift core.registers core.registers.A.toWord).2) := by
    rw [computes, ← shift_eq]
    rfl
  refine modifies_accumulator rfl rfl after_eq ?_
  rw [computes]
  exact flagsSet_shifted _ _ _

theorem shiftAccumulatorThrough_modifies {shift : Registers → Word → ShiftResult}
    {modification : Registers → Byte → Modification} {core : Core (Traced Ram)}
    (pcFree : ∀ registers PC target,
      shift (assignPC PC registers) target = shift registers target)
    (computes : Computes shift modification core.registers core.registers.A) (retained : Locals) :
    Modifies modification .accumulator core
      (shiftAccumulatorThrough shift (markPenultimate false (core.fetched retained))) := by
  have modifies := shiftAccumulator_modifies pcFree computes retained
  exact ⟨modifies.memory, modifies.writes, modifies.flags, modifies.registers⟩

/-- A shift of the accumulator makes a modification exactly when it computes its value, provided
that the bits moved out agree then. -/
theorem shiftAccumulatorThrough_modifies_iff {shift : Registers → Word → ShiftResult}
    {computed modification : Registers → Byte → Modification} {core : Core (Traced Ram)}
    (pcFree : ∀ registers PC target,
      shift (assignPC PC registers) target = shift registers target)
    (computes : Computes shift computed core.registers core.registers.A)
    (agree : (computed core.registers core.registers.A).value =
        (modification core.registers core.registers.A).value →
      computed core.registers core.registers.A = modification core.registers core.registers.A)
    (retained : Locals) :
    Modifies modification .accumulator core
        (shiftAccumulatorThrough shift (markPenultimate false (core.fetched retained))) ↔
      (computed core.registers core.registers.A).value =
        (modification core.registers core.registers.A).value := by
  constructor
  · intro modifies
    obtain ⟨count, count_mem, registers_eq⟩ := modifies.registers
    obtain ⟨other, other_mem, computed_eq⟩ :=
      (shiftAccumulatorThrough_modifies pcFree computes retained).registers
    have A_eq := congrArg Registers.A registers_eq
    rw [computed_eq] at A_eq
    exact A_eq
  · intro value_eq
    refine shiftAccumulatorThrough_modifies pcFree ?_ retained
    rw [Computes, ← agree value_eq]
    exact computes

theorem shifted_left : ∀ target : Byte, Word.toByte (target.toWord <<< 1) = target <<< 1 ∧
    (target.toWord <<< 1 &&& 0xFF00 != 0) = target.msb := by
  decide +kernel

theorem shifted_right : ∀ target : Byte, Word.toByte (target.toWord >>> 1) = target >>> 1 ∧
    (target.toWord &&& 0x0001 != 0) = target.getLsbD 0 := by
  decide +kernel

theorem rotated_left : ∀ (target : Byte) (carry : Bool),
    Word.toByte (target.toWord <<< 1 ||| if carry then 1 else 0) =
        target <<< 1 ||| (if carry then 0x01 else 0 : Byte) ∧
      ((target.toWord <<< 1 ||| if carry then 1 else 0) &&& 0xFF00 != 0) = target.msb := by
  decide +kernel

theorem rotated_right : ∀ (target : Byte) (carry : Bool),
    Word.toByte ((target.toWord >>> 1 ||| (if carry then 1 else 0 : Word) <<< 7) &&& 0x00FF) =
      target >>> 1 ||| if carry then 0x80 else 0 := by
  decide +kernel

theorem shiftLeft_computes (registers : Registers) (target : Byte) :
    Computes shiftLeft (fun _ target => .shifted (target <<< 1) target.msb) registers target := by
  obtain ⟨value_eq, out_eq⟩ := shifted_left target
  rw [Computes, shiftLeft, value_eq, out_eq]

theorem shiftRight_computes (registers : Registers) (target : Byte) :
    Computes shiftRight (fun _ target => .shifted (target >>> 1) (target.getLsbD 0)) registers
      target := by
  obtain ⟨value_eq, out_eq⟩ := shifted_right target
  rw [Computes, shiftRight, value_eq, out_eq]

theorem rotateLeft_computes (registers : Registers) (target : Byte) :
    Computes rotateLeft
      (fun registers target => .shifted
        (target <<< 1 ||| if registers.getBit Registers.bitC then 0x01 else 0) target.msb)
      registers target := by
  obtain ⟨value_eq, out_eq⟩ := rotated_left target (registers.getBit Registers.bitC)
  rw [Computes, rotateLeft, Registers.bitValue, value_eq, out_eq]

theorem rotateRight_computes (registers : Registers) (target : Byte) :
    Computes rotateRight
      (fun registers target => .shifted
        (target >>> 1 ||| if registers.getBit Registers.bitC then 0x80 else 0)
        (target.getLsbD 0))
      registers target := by
  have value_eq := rotated_right target (registers.getBit Registers.bitC)
  obtain ⟨-, out_eq⟩ := shifted_right target
  rw [Computes, rotateRight, Registers.bitValue, value_eq, out_eq]

/-- A staged shift of memory makes no write. -/
theorem shiftStraight_writes (accumulator : Frame (Traced Ram) → Frame (Traced Ram))
    (shift : Registers → Word → ShiftResult) {mode : AddressingMode} (inMemory : mode ∈ adjustModes)
    (frame : Frame (Traced Ram)) :
    Traced.writes (shiftStraight accumulator shift mode frame).1.memory.log =
        Traced.writes frame.memory.log ∧
      Traced.writes (shiftStraight65C02 accumulator shift mode frame).1.memory.log =
        Traced.writes frame.memory.log := by
  cases mode with
  | zeropage | zeropageXIndexed | absolute | absoluteXIndexed => exact ⟨rfl, rfl⟩
  | _ => simp [adjustModes] at inMemory

theorem Modifies.inAccumulator {modification : Registers → Byte → Modification}
    {mode : AddressingMode} {core : Core (Traced Ram)} {after : Frame (Traced Ram)}
    (modifies : Modifies modification mode core after)
    (writes_eq : Traced.writes after.memory.log = Traced.writes core.memory.log) :
    mode = .accumulator := by
  by_contra inMemory
  have written := modifies.writes
  rw [if_neg inMemory, writes_eq] at written
  exact List.cons_ne_self _ _ written.symm

/-! ## All routines -/

namespace Routine

/-- The shifts and rotates of the accumulator, of which the 65C02's `ASL` needs the carry clear
and its `ROR` nine equal bits. -/
def ShiftsWell (routine : Routine) (mode : AddressingMode) (registers : Registers) : Prop :=
  mode = .accumulator ∧
    match routine with
    | ASL65C02 => registers.getBit Registers.bitC = false
    | ROR65C02 =>
        registers.A = 0x00 ∧ registers.getBit Registers.bitC = false ∨
          registers.A = 0xFF ∧ registers.getBit Registers.bitC = true
    | _ => True

/-- The accumulator case of a left shift that moves the carry in. -/
theorem rotated_eq_shifted_iff : ∀ (target : Byte) (carry : Bool),
    target <<< 1 ||| (if carry then 0x01 else 0 : Byte) = target <<< 1 ↔ carry = false := by
  decide +kernel

/-- A left and a right rotation agree when all nine bits are equal. -/
theorem rotations_agree_iff : ∀ (target : Byte) (carry : Bool),
    (target <<< 1 ||| (if carry then 0x01 else 0 : Byte) =
          target >>> 1 ||| (if carry then 0x80 else 0 : Byte) ↔
        target = 0x00 ∧ carry = false ∨ target = 0xFF ∧ carry = true) ∧
      (target = 0x00 ∧ carry = false ∨ target = 0xFF ∧ carry = true →
        target.msb = target.getLsbD 0) := by
  decide +kernel

theorem straight_shifts_iff {routine : Routine} {shift : Registers → Byte → Modification}
    (shifting : routine.shifting = some shift) {mode : AddressingMode}
    (assigned : mode ∈ routine.modes) (core : Core (Traced Ram)) (retained : Locals) :
    Modifies shift mode core (routine.straight mode (core.fetched retained)).1 ↔
      routine.ShiftsWell mode core.registers := by
  by_cases inAccumulator : mode = .accumulator
  · subst inAccumulator
    cases routine with
    | ASL =>
        obtain rfl := Option.some.inj shifting
        refine iff_of_true ?_ ⟨rfl, trivial⟩
        exact shiftAccumulatorThrough_modifies (fun _ _ _ => rfl) (shiftLeft_computes _ _) retained
    | LSR | LSR65C02 =>
        obtain rfl := Option.some.inj shifting
        refine iff_of_true ?_ ⟨rfl, trivial⟩
        exact shiftAccumulator_modifies (fun _ _ _ => rfl) (shiftRight_computes _ _) retained
    | ROL | ROL65C02 =>
        obtain rfl := Option.some.inj shifting
        refine iff_of_true ?_ ⟨rfl, trivial⟩
        exact shiftAccumulatorThrough_modifies (fun _ _ _ => rfl) (rotateLeft_computes _ _) retained
    | ROR =>
        obtain rfl := Option.some.inj shifting
        refine iff_of_true ?_ ⟨rfl, trivial⟩
        exact shiftAccumulator_modifies (fun _ _ _ => rfl) (rotateRight_computes _ _) retained
    | ASL65C02 =>
        obtain rfl := Option.some.inj shifting
        have agree := rotated_eq_shifted_iff core.registers.A
          (core.registers.getBit Registers.bitC)
        refine (shiftAccumulatorThrough_modifies_iff (fun _ _ _ => rfl)
          (rotateLeft_computes _ _) (fun value_eq => ?_) retained).trans ?_
        · exact congrArg (Modification.shifted · _) value_eq
        · exact agree.trans ⟨fun clear => ⟨rfl, clear⟩, And.right⟩
    | ROR65C02 =>
        obtain rfl := Option.some.inj shifting
        obtain ⟨agree, out_eq⟩ := rotations_agree_iff core.registers.A
          (core.registers.getBit Registers.bitC)
        refine (shiftAccumulatorThrough_modifies_iff (fun _ _ _ => rfl)
          (rotateLeft_computes _ _) (fun value_eq => ?_) retained).trans ?_
        · exact congrArg₂ Modification.shifted value_eq (out_eq (agree.mp value_eq))
        · exact agree.trans ⟨fun equal => ⟨rfl, equal⟩, And.right⟩
    | _ => cases shifting
  · refine iff_of_false (fun modifies => inAccumulator (modifies.inAccumulator ?_))
      fun well => inAccumulator well.1
    have inMemory : mode ∈ shiftModes → mode ∈ adjustModes :=
      fun mode_mem => (List.mem_cons.mp mode_mem).resolve_left inAccumulator
    cases routine with
    | ASL | LSR | ROL | ROR => exact (shiftStraight_writes _ _ (inMemory assigned) _).1
    | ASL65C02 | LSR65C02 | ROL65C02 | ROR65C02 =>
        exact (shiftStraight_writes _ _ (inMemory assigned) _).2
    | _ => cases shifting

/-- All but the 65C02's `DEC` of the accumulator. -/
def AdjustsWell (routine : Routine) (mode : AddressingMode) : Prop :=
  ¬ (routine = DEC65C02 ∧ mode = .accumulator)

theorem staticAdjust65C02_modifies {step : Word} {modification : Registers → Byte → Modification}
    (counts : ∀ registers target, modification registers target =
      .counted (target.toWord + step).toByte)
    {mode : AddressingMode} (inMemory : mode ∈ adjustModes) (core : Core (Traced Ram))
    (retained : Locals) :
    Modifies modification mode core (staticAdjust65C02 step mode (core.fetched retained)).1 := by
  have modifies := staticAdjust_modifies counts inMemory core retained
  unfold staticAdjust65C02
  rw [if_neg]
  · exact modifies
  · rintro rfl
    simp [adjustModes] at inMemory

theorem counted_up (target : Byte) : target + 1 = (target.toWord + 1).toByte := by
  unfold Word.toByte Byte.toWord
  bv_omega

theorem counted_down (target : Byte) : target - 1 = (target.toWord + -1).toByte := by
  unfold Word.toByte Byte.toWord
  bv_omega

theorem straight_adjusts_iff {routine : Routine} {adjust : Registers → Byte → Modification}
    (adjusting : routine.adjusting = some adjust) {mode : AddressingMode}
    (assigned : mode ∈ routine.modes) (core : Core (Traced Ram)) (retained : Locals) :
    Modifies adjust mode core (routine.straight mode (core.fetched retained)).1 ↔
      routine.AdjustsWell mode := by
  cases routine with
  | INC =>
      obtain rfl := Option.some.inj adjusting
      refine iff_of_true (staticAdjust_modifies (fun _ target => ?_) assigned core retained) ?_
      · rw [counted_up]
      · simp [AdjustsWell]
  | DEC =>
      obtain rfl := Option.some.inj adjusting
      refine iff_of_true (staticAdjust_modifies (fun _ target => ?_) assigned core retained) ?_
      · rw [counted_down]
      · simp [AdjustsWell]
  | INC65C02 =>
      obtain rfl := Option.some.inj adjusting
      refine iff_of_true ?_ (by simp [AdjustsWell])
      rcases List.mem_cons.mp assigned with rfl | inMemory
      · exact incrementA_modifies core retained
      · exact staticAdjust65C02_modifies (fun _ target => by rw [counted_up]) inMemory core retained
  | DEC65C02 =>
      obtain rfl := Option.some.inj adjusting
      rcases List.mem_cons.mp assigned with rfl | inMemory
      · refine iff_of_false (fun modifies => ?_) fun well => well ⟨rfl, rfl⟩
        obtain ⟨count, -, registers_eq⟩ := modifies.registers
        have A_eq : core.registers.A + 1 = core.registers.A - 1 :=
          congrArg Registers.A registers_eq
        bv_omega
      · refine iff_of_true
          (staticAdjust65C02_modifies (fun _ target => ?_) inMemory core retained) ?_
        · rw [counted_down]
        · rintro ⟨-, rfl⟩
          simp at inMemory
  | TSB65C02 =>
      obtain rfl := Option.some.inj adjusting
      refine iff_of_true ?_ (by simp [AdjustsWell])
      exact staticTestModify_modifies (· ||| ·) (fun _ _ => rfl) assigned core retained
  | TRB65C02 =>
      obtain rfl := Option.some.inj adjusting
      refine iff_of_true ?_ (by simp [AdjustsWell])
      exact staticTestModify_modifies (fun OPERAND A => OPERAND &&& ~~~A) (fun _ _ => rfl)
        assigned core retained
  | _ => cases adjusting

theorem endlessModes_of_modifies :
    ∀ routine : Routine, routine.shifting.isSome ∨ routine.adjusting.isSome →
      routine.endlessModes = [] := by
  intro routine modifies
  cases routine with
  | ADC65C02 | LDX | SBC65C02 | STA | STA65C02 => simp [shifting, adjusting] at modifies
  | _ => rfl

/-- One routine counts up and the other counts down. -/
def Opposite (routine other : Routine) : Prop :=
  routine ∈ [INC, INC65C02] ∧ other ∈ [DEC, DEC65C02] ∨
    routine ∈ [DEC, DEC65C02] ∧ other ∈ [INC, INC65C02]

end Routine

/-- The instructions at two program counters work on the same target. -/
def Core.SameTarget (core next : Core (Traced Ram)) (mode nextMode : AddressingMode) : Prop :=
  if mode = .accumulator then nextMode = .accumulator
  else nextMode ≠ .accumulator ∧ next.address nextMode = core.address mode

theorem Routine.Opposite.steps {routine other : Routine} (opposite : routine.Opposite other)
    {adjust undo : Registers → Byte → Modification} (adjusting : routine.adjusting = some adjust)
    (undoing : other.adjusting = some undo) :
    ∃ step : Byte, (∀ registers target, (adjust registers target).value = target + step) ∧
      ∀ registers target, (undo registers target).value = target - step := by
  simp only [Opposite, List.mem_cons, List.not_mem_nil, or_false] at opposite
  rcases opposite with ⟨rfl | rfl, rfl | rfl⟩ | ⟨rfl | rfl, rfl | rfl⟩ <;>
    obtain rfl := Option.some.inj adjusting <;> obtain rfl := Option.some.inj undoing
  iterate 4 exact ⟨1, fun _ _ => rfl, fun _ _ => rfl⟩
  all_goals exact ⟨-1, fun _ target => sub_eq_add_neg target 1, fun _ target =>
    (sub_neg_eq_add target 1).symm⟩

theorem Modifies.A_eq {modification : Registers → Byte → Modification} {mode : AddressingMode}
    {core : Core (Traced Ram)} {after : Frame (Traced Ram)}
    (modifies : Modifies modification mode core after) :
    after.registers.A =
      if mode = .accumulator then (modification core.registers (core.target mode)).value
      else core.registers.A := by
  obtain ⟨count, -, registers_eq⟩ := modifies.registers
  rw [registers_eq]

/-- Counting up and down in either order restores the target. -/
theorem Modifies.restores {routine other : Routine} (opposite : routine.Opposite other)
    {adjust undo : Registers → Byte → Modification} (adjusting : routine.adjusting = some adjust)
    (undoing : other.adjusting = some undo) {mode nextMode : AddressingMode}
    {core next : Core (Traced Ram)} {after nextAfter : Frame (Traced Ram)}
    (modifies : Modifies adjust mode core after)
    (nextModifies : Modifies undo nextMode next nextAfter)
    (memory_eq : next.memory.bus = after.memory.bus)
    (A_eq : next.registers.A = after.registers.A) (same : core.SameTarget next mode nextMode) :
    nextAfter.memory.bus = core.memory.bus ∧ nextAfter.registers.A = core.registers.A := by
  obtain ⟨step, adjust_eq, undo_eq⟩ := opposite.steps adjusting undoing
  have memory := modifies.memory
  have nextMemory := nextModifies.memory
  have accumulator := modifies.A_eq
  have nextAccumulator := nextModifies.A_eq
  rw [adjust_eq] at memory accumulator
  rw [undo_eq] at nextMemory nextAccumulator
  unfold Core.SameTarget at same
  unfold Core.target at memory accumulator nextMemory nextAccumulator
  by_cases inAccumulator : mode = .accumulator
  · rw [if_pos inAccumulator] at same memory accumulator
    rw [if_pos same] at nextMemory nextAccumulator
    rw [nextMemory, nextAccumulator, memory_eq, A_eq, accumulator, memory]
    simp [inAccumulator, same]
  · rw [if_neg inAccumulator] at same memory accumulator
    rw [if_neg same.1] at nextMemory nextAccumulator
    rw [nextMemory, nextAccumulator, memory_eq, A_eq, accumulator, memory]
    simp [inAccumulator, same]

namespace Dialect

/-- A staged read-modify-write instruction ends with the frame of its program. -/
theorem execute_iff_straight {dialect : Dialect} {routine : Routine} {mode : AddressingMode}
    {core : Core (Traced Ram)} (retained : Locals)
    (decoded : dialect.lookup core.opcode = Dispatch.slot routine mode)
    (modifies : routine.shifting.isSome ∨ routine.adjusting.isSome)
    (goal : Frame (Traced Ram) → Prop) :
    mode ∈ routine.modes ∧
      ((∃ calls after, dialect.execute core.opcode (core.fetched retained) = some (calls, after) ∧
        goal after) ↔ goal (routine.straight mode (core.fetched retained)).1) := by
  have formed := dialect.lookup_wellFormed core.opcode
  rw [decoded] at formed
  have assigned : mode ∈ routine.modes := formed.2.1
  have ends : mode ∉ routine.endlessModes := by
    rw [routine.endlessModes_of_modifies modifies]
    exact List.not_mem_nil
  refine ⟨assigned, ?_⟩
  rw [execute_of_slot decoded assigned ends]
  constructor
  · rintro ⟨calls, after, ended, holds⟩
    obtain ⟨-, rfl⟩ := Prod.mk.inj (Option.some.inj ended)
    exact holds
  · exact fun holds => ⟨_, _, rfl, holds⟩

/-- A staged shift or rotate is a correct read-modify-write exactly in its accumulator mode, on the
65C02 only when the rotation that its `ASL` and `ROR` perform gives the right result. -/
theorem shifts_iff {dialect : Dialect} {routine : Routine} {mode : AddressingMode}
    {shift : Registers → Byte → Modification} (core : Core (Traced Ram)) (retained : Locals)
    (decoded : dialect.lookup core.opcode = Dispatch.slot routine mode)
    (shifting : routine.shifting = some shift) :
    (∃ calls after, dialect.execute core.opcode (core.fetched retained) = some (calls, after) ∧
        Modifies shift mode core after) ↔
      routine.ShiftsWell mode core.registers := by
  obtain ⟨assigned, straight_iff⟩ := execute_iff_straight retained decoded
    (.inl (by rw [shifting]; rfl)) (Modifies shift mode core)
  rw [straight_iff]
  exact routine.straight_shifts_iff shifting assigned core retained

/-- `ASL` of the accumulator. -/
theorem shifts_0A :
    ∃ calls after, base.execute (Core.filled 0x0A).opcode ((Core.filled 0x0A).fetched Locals.zero) =
        some (calls, after) ∧
      Modifies (fun _ target => .shifted (target <<< 1) target.msb) .accumulator
        (Core.filled 0x0A) after :=
  (shifts_iff (Core.filled 0x0A) Locals.zero
    (rfl : base.lookup _ = Dispatch.slot .ASL .accumulator) rfl).mpr ⟨rfl, trivial⟩

/-- `ASL` of a byte in the zero page makes no write. -/
theorem not_shifts_06 :
    base.lookup (Core.filled 0x06).opcode = Dispatch.slot .ASL .zeropage ∧
      ¬ ∃ calls after, base.execute (Core.filled 0x06).opcode
            ((Core.filled 0x06).fetched Locals.zero) = some (calls, after) ∧
          Modifies (fun _ target => .shifted (target <<< 1) target.msb) .zeropage
            (Core.filled 0x06) after := by
  refine ⟨rfl, ?_⟩
  rintro ⟨calls, after, ended, modifies⟩
  obtain ⟨-, rfl⟩ := Prod.mk.inj (Option.some.inj ended)
  cases modifies.inAccumulator rfl

theorem execute_modifies_iff {dialect : Dialect} {routine : Routine} {mode : AddressingMode}
    {adjust : Registers → Byte → Modification} {core : Core (Traced Ram)} (retained : Locals)
    (decoded : dialect.lookup core.opcode = Dispatch.slot routine mode)
    (adjusting : routine.adjusting = some adjust) :
    (∃ calls after, dialect.execute core.opcode (core.fetched retained) = some (calls, after) ∧
        Modifies adjust mode core after) ↔ routine.AdjustsWell mode := by
  obtain ⟨assigned, straight_iff⟩ := execute_iff_straight retained decoded
    (.inr (by rw [adjusting]; rfl)) (Modifies adjust mode core)
  rw [straight_iff]
  exact routine.straight_adjusts_iff adjusting assigned core retained

/-- A staged increment, decrement or test-and-modify is correct unless it is the 65C02's `DEC` of
the accumulator, and correct increments and decrements of one target undo each other. -/
theorem adjusts_iff {dialect : Dialect} {routine : Routine} {mode : AddressingMode}
    {adjust : Registers → Byte → Modification} (core : Core (Traced Ram)) (retained : Locals)
    (decoded : dialect.lookup core.opcode = Dispatch.slot routine mode)
    (adjusting : routine.adjusting = some adjust) :
    ((∃ calls after, dialect.execute core.opcode (core.fetched retained) = some (calls, after) ∧
        Modifies adjust mode core after) ↔ routine.AdjustsWell mode) ∧
      ∀ (other : Routine) (nextMode : AddressingMode) (next : Core (Traced Ram))
        (nextRetained : Locals) calls after nextCalls nextAfter,
        routine.Opposite other → routine.AdjustsWell mode → other.AdjustsWell nextMode →
        dialect.lookup next.opcode = Dispatch.slot other nextMode →
        core.SameTarget next mode nextMode →
        dialect.execute core.opcode (core.fetched retained) = some (calls, after) →
        next.memory.bus = after.memory.bus → next.registers.A = after.registers.A →
        dialect.execute next.opcode (next.fetched nextRetained) = some (nextCalls, nextAfter) →
        nextAfter.memory.bus = core.memory.bus ∧ nextAfter.registers.A = core.registers.A := by
  refine ⟨execute_modifies_iff retained decoded adjusting, ?_⟩
  intro other nextMode next nextRetained calls after nextCalls nextAfter opposite well nextWell
    nextDecoded same ended memory_eq A_eq nextEnded
  obtain ⟨undo, undoing⟩ : ∃ undo, other.adjusting = some undo := by
    simp only [Routine.Opposite, List.mem_cons, List.not_mem_nil, or_false] at opposite
    rcases opposite with ⟨-, rfl | rfl⟩ | ⟨-, rfl | rfl⟩
    all_goals exact ⟨_, rfl⟩
  obtain ⟨_, _, performed, modifies⟩ := (execute_modifies_iff retained decoded adjusting).mpr well
  obtain ⟨rfl, rfl⟩ := Prod.mk.inj (Option.some.inj (performed.symm.trans ended))
  obtain ⟨_, _, nextPerformed, nextModifies⟩ :=
    (execute_modifies_iff nextRetained nextDecoded undoing).mpr nextWell
  obtain ⟨rfl, rfl⟩ := Prod.mk.inj (Option.some.inj (nextPerformed.symm.trans nextEnded))
  exact modifies.restores opposite adjusting undoing nextModifies memory_eq A_eq same

/-- `INC` of a byte in the zero page. -/
theorem adjusts_E6 :
    ∃ calls after, base.execute (Core.filled 0xE6).opcode ((Core.filled 0xE6).fetched Locals.zero) =
        some (calls, after) ∧
      Modifies (fun _ target => .counted (target + 1)) .zeropage (Core.filled 0xE6) after :=
  (adjusts_iff (Core.filled 0xE6) Locals.zero
    (rfl : base.lookup _ = Dispatch.slot .INC .zeropage) rfl).1.mpr fun bad => nomatch bad.1

/-- The 65C02's `DEC` of the accumulator counts up. -/
theorem not_adjusts_3A :
    cmos.lookup (Core.filled 0x3A).opcode = Dispatch.slot .DEC65C02 .accumulator ∧
      ¬ ∃ calls after, cmos.execute (Core.filled 0x3A).opcode
            ((Core.filled 0x3A).fetched Locals.zero) = some (calls, after) ∧
          Modifies (fun _ target => .counted (target - 1)) .accumulator (Core.filled 0x3A)
            after := by
  refine ⟨rfl, ?_⟩
  rintro ⟨calls, after, ended, modifies⟩
  obtain ⟨-, rfl⟩ := Prod.mk.inj (Option.some.inj ended)
  exact absurd modifies.A_eq (by decide)

end Dialect
end System6502
