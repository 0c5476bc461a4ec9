import System6502.Isa.Retention

/-!
# Counterparts on the 65C02

The routine that takes the place of a base-dialect routine in the table of the 65C02, and what the
programs of the two leave in the registers and on the bus.
-/

namespace System6502

open System6502.Frame

variable {μ : Type*} [Membus μ]

namespace Routine

/-- The routine that the table of the 65C02 names where the base table names this one. -/
def counterpart : Routine → Routine
  | ADC => ADC65C02
  | AND => AND65C02
  | ASL => ASL65C02
  | BIT => BIT65C02
  | BRK => BRK65C02
  | CMP => CMP65C02
  | DEC => DEC65C02
  | EOR => EOR65C02
  | INC => INC65C02
  | JMP => JMP65C02
  | LDA => LDA65C02
  | LSR => LSR65C02
  | ORA => ORA65C02
  | ROL => ROL65C02
  | ROR => ROR65C02
  | SBC => SBC65C02
  | STA => STA65C02
  | routine => routine

/-- The modes in which a routine and its counterpart run different programs. -/
def revisedModes : Routine → List AddressingMode
  | ASL | ROR => [.accumulator]
  | BRK => [.implied]
  | JMP => [.indirect]
  | _ => []

omit [Membus μ] in
/-- A mode of a routine is a mode of its counterpart, which ends and forgets what it retains when
the routine does. -/
theorem counterpart_modes (routine : Routine) :
    ∀ mode ∈ routine.modes, mode ∈ routine.counterpart.modes ∧
      (mode ∈ routine.counterpart.endlessModes → mode ∈ routine.endlessModes) ∧
      (mode ∈ routine.counterpart.residueModes → mode ∈ routine.residueModes) := by
  cases routine <;> decide

/-- The indexed shifts differ in one local only. -/
theorem shiftTwice_indexed_core (shift : Registers → Word → ShiftResult) (frame : Frame μ) :
    (shiftTwice shift id (frame.indexADDR16 Registers.X).readAtADDR16).core =
      (shiftTwice shift id (frame.offsetADDR16 Registers.X).readAtADDR16).core := rfl

/-- In all other modes both programs leave the same registers and make the same accesses. -/
theorem counterpart_core (routine : Routine) {mode : AddressingMode}
    (assigned : mode ∈ routine.modes) (kept : mode ∉ routine.revisedModes) (frame : Frame μ) :
    (routine.counterpart.straight mode frame).1.core = (routine.straight mode frame).1.core := by
  cases routine with
  | AND | ORA | EOR =>
      cases mode with
      | zeropageIndirect => exact absurd assigned (by decide)
      | _ => rfl
  | ASL | ROR =>
      cases mode with
      | accumulator => exact absurd List.mem_cons_self kept
      | zeropage | zeropageXIndexed | absolute => rfl
      | absoluteXIndexed => exact shiftTwice_indexed_core _ _
      | _ => exact absurd assigned (by decide)
  | LSR | ROL =>
      cases mode with
      | absoluteXIndexed => exact shiftTwice_indexed_core _ _
      | _ => rfl
  | INC | DEC =>
      cases mode with
      | accumulator => exact absurd assigned (by decide)
      | _ => rfl
  | JMP =>
      cases mode with
      | indirect => exact absurd List.mem_cons_self kept
      | absoluteXIndexedIndirect => exact absurd assigned (by decide)
      | _ => rfl
  | BRK => exact absurd assigned kept
  | ADC | SBC => cases mode <;> rfl
  | _ => rfl

/-- A program without leftover variables does the same from any contents of its locals. -/
theorem straight_core_of_fresh (routine : Routine) {mode : AddressingMode}
    (assigned : mode ∈ routine.modes) (ends : mode ∉ routine.endlessModes)
    (fresh : mode ∉ routine.residueModes) (memory : μ) (registers : Registers)
    (left right : Locals) :
    (routine.straight mode { memory, registers, locals := left }).1.core =
      (routine.straight mode { memory, registers, locals := right }).1.core := by
  have same := (routine.staged_forgets assigned fresh left right).runCalls 7 memory registers
  rw [routine.staged_performs assigned ends, routine.staged_performs assigned ends] at same
  exact (Prod.mk.inj (Prod.mk.inj (Option.some.inj same)).2).1

end Routine

/-! ## Comparisons with leftover operands -/

/-- Two operands stand in the same order to the accumulator. -/
def ComparesAlike (A first second : Byte) : Prop :=
  (first < A ↔ second < A) ∧ (first = A ↔ second = A)

instance (A first second : Byte) : Decidable (ComparesAlike A first second) :=
  inferInstanceAs (Decidable (_ ∧ _))

theorem compareFlags_toWord (A operand : Byte) :
    compareFlags A.toWord operand.toWord =
      if operand < A then Registers.bitC
      else if operand = A then Registers.bitC ||| Registers.bitZ
      else Registers.bitN := by
  have above : operand.toWord < A.toWord ↔ operand < A := by
    have := operand.isLt
    have := A.isLt
    simp only [BitVec.lt_def, Byte.toWord, BitVec.toNat_setWidth]
    omega
  simp only [compareFlags, gt_iff_lt, above, Word.toWord_inj, eq_comm (a := A)]

theorem orderFlags_eq_iff {below equal below' equal' : Prop} [Decidable below] [Decidable equal]
    [Decidable below'] [Decidable equal'] (apart : equal → ¬ below) (apart' : equal' → ¬ below') :
    (if below then Registers.bitC else if equal then Registers.bitC ||| Registers.bitZ
        else Registers.bitN) =
      (if below' then Registers.bitC else if equal' then Registers.bitC ||| Registers.bitZ
        else Registers.bitN) ↔
      (below ↔ below') ∧ (equal ↔ equal') := by
  have differ : Registers.bitC ≠ Registers.bitC ||| Registers.bitZ ∧
      Registers.bitC ≠ Registers.bitN ∧ Registers.bitC ||| Registers.bitZ ≠ Registers.bitN := by
    decide
  by_cases below <;> by_cases below' <;> by_cases equal <;> by_cases equal' <;>
    simp_all [eq_comm]

theorem compareFlags_eq_iff (A first second : Byte) :
    compareFlags A.toWord first.toWord = compareFlags A.toWord second.toWord ↔
      ComparesAlike A first second := by
  have apart : ∀ operand : Byte, operand = A → ¬ operand < A := by
    rintro operand rfl
    exact Nat.lt_irrefl _
  rw [compareFlags_toWord, compareFlags_toWord]
  exact orderFlags_eq_iff (apart first) (apart second)

/-- The flags outside a comparison do not hide its result. -/
theorem status_inj {SR left right : Byte}
    (left_mask : left &&& (Registers.bitC ||| Registers.bitZ ||| Registers.bitN) = left)
    (right_mask : right &&& (Registers.bitC ||| Registers.bitZ ||| Registers.bitN) = right)
    (status_eq : (SR &&& ~~~(Registers.bitC ||| Registers.bitZ ||| Registers.bitN)) ||| left =
      (SR &&& ~~~(Registers.bitC ||| Registers.bitZ ||| Registers.bitN)) ||| right) :
    left = right := by
  generalize Registers.bitC ||| Registers.bitZ ||| Registers.bitN = mask at *
  have masked : ∀ flags : Byte, ((SR &&& ~~~mask) ||| flags) &&& mask = flags &&& mask := by
    intro flags
    ext index index_lt
    simp only [BitVec.getElem_and, BitVec.getElem_or, BitVec.getElem_not]
    grind
  rw [← left_mask, ← right_mask, ← masked, status_eq, masked]

theorem setCompareFlags_eq_iff (registers : Registers) (A first second : Byte) :
    setCompareFlags (compareFlags A.toWord first.toWord) registers =
        setCompareFlags (compareFlags A.toWord second.toWord) registers ↔
      ComparesAlike A first second := by
  rw [← compareFlags_eq_iff]
  refine ⟨fun registers_eq => ?_, fun flags_eq => by rw [flags_eq]⟩
  have flags_mask : ∀ operand : Byte, compareFlags A.toWord operand.toWord &&&
      (Registers.bitC ||| Registers.bitZ ||| Registers.bitN) =
        compareFlags A.toWord operand.toWord := by
    intro operand
    rw [compareFlags_toWord]
    split
    · decide
    · split <;> decide
  exact status_inj (flags_mask first) (flags_mask second) (congrArg Registers.SR registers_eq)

omit [Membus μ] in
/-- Comparisons of the same accumulator leave the same registers exactly when the operands stand in
the same order to it. -/
theorem compareA_registers_eq_iff {first second : Frame μ}
    (registers_eq : second.registers = first.registers) :
    (compareA second).registers = (compareA first).registers ↔
      ComparesAlike first.registers.A second.locals.OPERAND.toByte
        first.locals.OPERAND.toByte := by
  rw [← setCompareFlags_eq_iff first.registers]
  unfold compareA
  simp only [registers_onRegisters, registers_eq]

/-- In the absolute mode `CMP` compares with the byte at the address left in `ADDR8`. -/
theorem cmp_absolute_registers_iff (memory : Ram) (registers : Registers) (first second : Locals) :
    (Routine.CMP65C02.straight .absolute
          { memory, registers, locals := second }).1.registers =
        (Routine.CMP.straight .absolute { memory, registers, locals := first }).1.registers ↔
      ComparesAlike registers.A (memory second.ADDR8.toWord) (memory first.ADDR8.toWord) := by
  let read (locals : Locals) : Frame Ram :=
    ({ memory, registers, locals } : Frame Ram).fetchLow.fetchHigh.readAtADDR8
  have operand_eq : ∀ locals, (read locals).locals.OPERAND.toByte = memory locals.ADDR8.toWord :=
    fun _ => Word.toByte_toWord _
  have registers_iff := compareA_registers_eq_iff
    (show (read second).registers = (read first).registers from rfl)
  rw [operand_eq, operand_eq] at registers_iff
  exact registers_iff

/-! ## Programs that differ -/

omit [Membus μ] in
theorem shiftAccumulator_A (shift : Registers → Word → ShiftResult) (frame : Frame μ) :
    (shiftAccumulator shift frame).registers.A =
      (shift frame.registers frame.registers.A.toWord).1.toByte := by
  simp only [shiftAccumulator, registers_onRegisters, Registers.didSetA, Registers.statusWithValue]
  split <;> rfl

omit [Membus μ] in
/-- The 65C02 rotates the accumulator where it should shift it. -/
theorem rotateLeft_shiftLeft_iff (frame : Frame μ) :
    (shiftAccumulatorThrough rotateLeft frame).registers =
        (shiftAccumulatorThrough shiftLeft frame).registers ↔
      frame.registers.getBit Registers.bitC = false := by
  constructor
  · intro registers_eq
    have A_eq : (shiftAccumulator rotateLeft frame).registers.A =
        (shiftAccumulator shiftLeft frame).registers.A := congrArg Registers.A registers_eq
    rw [shiftAccumulator_A, shiftAccumulator_A] at A_eq
    unfold rotateLeft shiftLeft Registers.bitValue at A_eq
    generalize frame.registers.A = A at A_eq
    generalize frame.registers.getBit Registers.bitC = C at A_eq ⊢
    revert A C
    decide +kernel
  · intro clear
    have result_eq : rotateLeft frame.registers frame.registers.A.toWord =
        shiftLeft frame.registers frame.registers.A.toWord := by
      simp [rotateLeft, shiftLeft, Registers.bitValue, clear]
    simp only [shiftAccumulatorThrough, shiftAccumulator, result_eq, registers_onLocals]

omit [Membus μ] in
/-- The 65C02 rotates the accumulator to the left where it should rotate it to the right. -/
theorem rotateLeft_rotateRight_iff (frame : Frame μ) :
    (shiftAccumulatorThrough rotateLeft frame).registers =
        (shiftAccumulator rotateRight frame).registers ↔
      (frame.registers.A = 0x00 ∧ frame.registers.getBit Registers.bitC = false) ∨
        (frame.registers.A = 0xFF ∧ frame.registers.getBit Registers.bitC = true) := by
  constructor
  · intro registers_eq
    have A_eq : (shiftAccumulator rotateLeft frame).registers.A =
        (shiftAccumulator rotateRight frame).registers.A := congrArg Registers.A registers_eq
    rw [shiftAccumulator_A, shiftAccumulator_A] at A_eq
    unfold rotateLeft rotateRight Registers.bitValue at A_eq
    generalize frame.registers.A = A at A_eq ⊢
    generalize frame.registers.getBit Registers.bitC = C at A_eq ⊢
    revert A C
    decide +kernel
  · intro uniform
    have result_eq : (rotateLeft frame.registers frame.registers.A.toWord).1.toByte =
          (rotateRight frame.registers frame.registers.A.toWord).1.toByte ∧
        (rotateLeft frame.registers frame.registers.A.toWord).2 =
          (rotateRight frame.registers frame.registers.A.toWord).2 := by
      rcases uniform with ⟨A_eq, C_eq⟩ | ⟨A_eq, C_eq⟩ <;>
        simp only [rotateLeft, rotateRight, Registers.bitValue, A_eq, C_eq] <;> decide
    simp only [shiftAccumulatorThrough, shiftAccumulator, result_eq, registers_onLocals,
      registers_onRegisters]

omit [Membus μ] in
theorem advanceWithinPage_of_within {frame : Frame μ}
    (within : ¬ frame.locals.ADDR16 &&& 0x00FF = 0x00FF) :
    advanceWithinPage frame = advanceADDR16 frame := by
  simp only [advanceWithinPage, advanceADDR16, onLocals, if_neg within]

/-- Unless the pointer ends a page both dialects find the same target of an indirect jump. -/
theorem jmp_indirect_core {frame : Frame μ}
    (within : ¬ frame.fetchLow.fetchHigh.locals.ADDR16 &&& 0x00FF = 0x00FF) :
    (Routine.JMP65C02.straight .indirect frame).1.core =
      (Routine.JMP.straight .indirect frame).1.core := by
  have advance_eq : advanceWithinPage (readINDIRECT frame.fetchLow.fetchHigh) =
      advanceADDR16 (readINDIRECT frame.fetchLow.fetchHigh) := advanceWithinPage_of_within within
  change (loadPC (readTargetHigh (advanceADDR16 (readINDIRECT frame.fetchLow.fetchHigh)))).core =
    (loadPC (readTargetHigh (advanceWithinPage (readINDIRECT frame.fetchLow.fetchHigh)))).core
  rw [advance_eq]

theorem inhibit65C02_setBit (registers : Registers) :
    (inhibit65C02 registers).setBit Registers.bitD false =
      (inhibit registers).setBit Registers.bitD false := by
  simp [inhibit65C02, inhibit, Registers.setBit, BitVec.and_assoc]

/-- The vector of `BRK` is loaded alike whatever was done to the registers before. -/
theorem breakVector_onRegisters (pushed : Frame μ) (inhibit : Registers → Registers) :
    (breakVectorHigh (breakVectorLow (pushed.onRegisters inhibit))).memory =
        (breakVectorHigh (breakVectorLow pushed)).memory ∧
      (breakVectorHigh (breakVectorLow (pushed.onRegisters inhibit))).registers =
        assignPC (breakVectorHigh (breakVectorLow pushed)).registers.PC
          (inhibit pushed.registers) :=
  ⟨rfl, rfl⟩

/-- `BRK` leaves the same bus in both dialects, and the same registers but for the D flag. -/
theorem brk_core (frame : Frame μ) :
    (Routine.BRK65C02.straight .implied frame).1.memory =
        (Routine.BRK.straight .implied frame).1.memory ∧
      (Routine.BRK65C02.straight .implied frame).1.registers.setBit Registers.bitD false =
        (Routine.BRK.straight .implied frame).1.registers.setBit Registers.bitD false := by
  change (staticBRK inhibit65C02 frame).1.memory = (staticBRK inhibit frame).1.memory ∧
    (staticBRK inhibit65C02 frame).1.registers.setBit Registers.bitD false =
      (staticBRK inhibit frame).1.registers.setBit Registers.bitD false
  unfold staticBRK
  generalize pushBreakStatus (fetchDummy frame).pushPCHigh.pushPCLow = pushed
  obtain ⟨cmos_memory, cmos_registers⟩ := breakVector_onRegisters pushed inhibit65C02
  obtain ⟨base_memory, base_registers⟩ := breakVector_onRegisters pushed inhibit
  dsimp only
  rw [cmos_memory, cmos_registers, base_memory, base_registers]
  exact ⟨rfl, congrArg (assignPC (breakVectorHigh (breakVectorLow pushed)).registers.PC)
    (inhibit65C02_setBit pushed.registers)⟩

end System6502
