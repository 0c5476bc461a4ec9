import System6502.Isa.Retention

/-!
# Instructions that use what they find

The modes in which an instruction function uses a local that it has not assigned, and two contents
of that local that it tells apart from any registers and on any bus.
-/

namespace System6502

open System6502.Frame

variable {μ : Type*} [Membus μ]

/-! ## Static-mode functions -/

/-- A static-mode function whose outcome does not depend on what its locals hold; an observer sees
the same in the locals it leaves. -/
def StaticForgets {γ : Type*} (observe : Locals → γ) (program : StaticHandler μ) : Prop :=
  ∀ memory registers left right,
    (program { memory, registers, locals := left }).1.core =
        (program { memory, registers, locals := right }).1.core ∧
      (program { memory, registers, locals := left }).2 =
        (program { memory, registers, locals := right }).2 ∧
      observe (program { memory, registers, locals := left }).1.locals =
        observe (program { memory, registers, locals := right }).1.locals

omit [Membus μ] in
/-- The tail of a static-mode function reads no more of the locals than the observer sees. -/
theorem StaticForgets.completing {γ : Type*} {observe : Locals → γ} {program : StaticHandler μ}
    {finish : Frame μ → Frame μ} (forgets : StaticForgets observe program) (embed : γ → Locals)
    (reads : ∀ memory registers locals, (finish { memory, registers, locals }).core =
      (finish { memory, registers, locals := embed (observe locals) }).core) :
    StaticForgets (fun _ => ()) (completingStatic program finish) := by
  intro memory registers left right
  obtain ⟨core_eq, count_eq, observe_eq⟩ := forgets memory registers left right
  obtain ⟨memory_eq, registers_eq⟩ := Core.mk.inj core_eq
  refine ⟨?_, count_eq, rfl⟩
  calc
    _ = _ := reads _ _ _
    _ = _ := by rw [memory_eq, registers_eq, observe_eq]
    _ = _ := (reads _ _ _).symm

omit [Membus μ] in
/-- A program forgets what the staged function that performs it forgets. -/
theorem StaticForgets.of_staged {γ : Type*} {observe : Locals → γ} {handler : Handler μ}
    {program : StaticHandler μ} (forgets : Forgets observe handler)
    (performs : Performs handler program) : StaticForgets observe program := by
  intro memory registers left right
  have same := (forgets left right).runCalls 7 memory registers
  rw [performs, performs] at same
  obtain ⟨count_eq, rest_eq⟩ := Prod.mk.inj (Option.some.inj same)
  obtain ⟨core_eq, observe_eq⟩ := Prod.mk.inj rest_eq
  exact ⟨core_eq, count_eq, observe_eq⟩

/-- The operand of a read-modify-write function and the address it goes back to. -/
def Locals.place (locals : Locals) : Word × Word := (locals.ADDR16, locals.OPERAND)

omit [Membus μ] in
theorem pageCycle_congr {frame other : Frame μ}
    (addr_eq : frame.locals.ADDR16 = other.locals.ADDR16)
    (preIndex_eq : frame.locals.ADDR16PreIndex = other.locals.ADDR16PreIndex) :
    frame.pageCycle = other.pageCycle := by
  rw [pageCycle_eq, pageCycle_eq, addr_eq, preIndex_eq]

theorem aluStaticAccess_forgets {mode : AddressingMode}
    (tight : mode ∈ [AddressingMode.immediate, .zeropage, .zeropageXIndexed, .absolute,
      .xIndexedIndirect, .indirectYIndexed]) :
    StaticForgets Locals.OPERAND (aluStaticAccess (μ := μ) mode) := by
  intro memory registers left right
  cases mode with
  | indirectYIndexed => exact ⟨rfl, congrArg (4 + ·) (pageCycle_congr rfl rfl), rfl⟩
  | immediate | zeropage | zeropageXIndexed | absolute | xIndexedIndirect =>
      exact ⟨rfl, rfl, rfl⟩
  | _ => simp at tight

theorem aluStaticAccess65C02_forgets {mode : AddressingMode}
    (tight : mode ∈ [AddressingMode.zeropageIndirect, .immediate, .zeropage, .zeropageXIndexed,
      .absolute, .xIndexedIndirect, .indirectYIndexed]) :
    StaticForgets Locals.OPERAND (aluStaticAccess65C02 (μ := μ) mode) := by
  rcases List.mem_cons.mp tight with rfl | tight
  · exact fun _ _ _ _ => ⟨rfl, rfl, rfl⟩
  · have forgets := aluStaticAccess_forgets (μ := μ) tight
    cases mode with
    | zeropageIndirect => simp at tight
    | _ => exact forgets

theorem indexLoadStaticAccess_forgets {mode : AddressingMode}
    (tight : mode ∈ [AddressingMode.immediate, .zeropage, .zeropageXIndexed, .absolute,
      .absoluteXIndexed]) :
    StaticForgets Locals.OPERAND (indexLoadStaticAccess (μ := μ) mode) := by
  intro memory registers left right
  cases mode with
  | absoluteXIndexed => exact ⟨rfl, congrArg (4 + ·) (pageCycle_congr rfl rfl), rfl⟩
  | immediate | zeropage | zeropageXIndexed | absolute => exact ⟨rfl, rfl, rfl⟩
  | _ => simp at tight

theorem indexCompareStaticAccess_forgets {mode : AddressingMode}
    (assigned : mode ∈ [AddressingMode.immediate, .zeropage, .absolute]) :
    StaticForgets Locals.OPERAND (indexCompareStaticAccess (μ := μ) mode) := by
  intro memory registers left right
  cases mode with
  | immediate | zeropage | absolute => exact ⟨rfl, rfl, rfl⟩
  | _ => simp at assigned

theorem bitStaticAccess_forgets {mode : AddressingMode}
    (assigned : mode ∈ [AddressingMode.zeropage, .absolute]) :
    StaticForgets Locals.OPERAND (bitStaticAccess (μ := μ) mode) := by
  intro memory registers left right
  cases mode with
  | zeropage | absolute => exact ⟨rfl, rfl, rfl⟩
  | _ => simp at assigned

theorem bitStaticAccess65C02_forgets {mode : AddressingMode}
    (assigned : mode ∈ [AddressingMode.immediate, .zeropage, .zeropageXIndexed, .absolute,
      .absoluteXIndexed]) :
    StaticForgets Locals.OPERAND (bitStaticAccess65C02 (μ := μ) mode) := by
  intro memory registers left right
  cases mode with
  | absoluteXIndexed => exact ⟨rfl, congrArg (4 + ·) (pageCycle_congr rfl rfl), rfl⟩
  | immediate | zeropage | zeropageXIndexed | absolute => exact ⟨rfl, rfl, rfl⟩
  | _ => simp at assigned

theorem staStaticAccess_forgets {mode : AddressingMode}
    (assigned : mode ∈ [AddressingMode.zeropage, .zeropageXIndexed, .absolute, .absoluteXIndexed,
      .absoluteYIndexed, .xIndexedIndirect, .indirectYIndexed]) :
    StaticForgets Locals.ADDR16 (staStaticAccess (μ := μ) mode) := by
  intro memory registers left right
  cases mode with
  | zeropage | zeropageXIndexed | absolute | absoluteXIndexed | absoluteYIndexed
  | xIndexedIndirect | indirectYIndexed => exact ⟨rfl, rfl, rfl⟩
  | _ => simp at assigned

theorem staStaticAccess65C02_forgets {mode : AddressingMode}
    (assigned : mode ∈ [AddressingMode.zeropage, .zeropageXIndexed, .absolute, .absoluteXIndexed,
      .absoluteYIndexed, .xIndexedIndirect, .indirectYIndexed, .zeropageIndirect]) :
    StaticForgets Locals.ADDR16 (staStaticAccess65C02 (μ := μ) mode) := by
  intro memory registers left right
  cases mode with
  | zeropage | zeropageXIndexed | absolute | absoluteXIndexed | absoluteYIndexed
  | xIndexedIndirect | indirectYIndexed | zeropageIndirect => exact ⟨rfl, rfl, rfl⟩
  | _ => simp at assigned

theorem stxStaticAccess_forgets {mode : AddressingMode}
    (assigned : mode ∈ [AddressingMode.zeropage, .zeropageYIndexed, .absolute]) :
    StaticForgets Locals.ADDR16
      (indexStoreStaticAccess (μ := μ) .zeropageYIndexed Registers.Y mode) := by
  intro memory registers left right
  cases mode with
  | zeropage | zeropageYIndexed | absolute => exact ⟨rfl, rfl, rfl⟩
  | _ => simp at assigned

theorem styStaticAccess_forgets {mode : AddressingMode}
    (assigned : mode ∈ [AddressingMode.zeropage, .zeropageXIndexed, .absolute]) :
    StaticForgets Locals.ADDR16
      (indexStoreStaticAccess (μ := μ) .zeropageXIndexed Registers.X mode) := by
  intro memory registers left right
  cases mode with
  | zeropage | zeropageXIndexed | absolute => exact ⟨rfl, rfl, rfl⟩
  | _ => simp at assigned

theorem stzStaticAccess_forgets {mode : AddressingMode}
    (assigned : mode ∈ adjustModes) :
    StaticForgets Locals.ADDR16 (stzStaticAccess (μ := μ) mode) := by
  intro memory registers left right
  cases mode with
  | zeropage | zeropageXIndexed | absolute | absoluteXIndexed => exact ⟨rfl, rfl, rfl⟩
  | _ => simp [adjustModes] at assigned

theorem modifyStaticAccess_forgets {mode : AddressingMode}
    (assigned : mode ∈ adjustModes) :
    StaticForgets Locals.place (modifyStaticAccess (μ := μ) mode) := by
  intro memory registers left right
  cases mode with
  | zeropage | zeropageXIndexed | absolute | absoluteXIndexed => exact ⟨rfl, rfl, rfl⟩
  | _ => simp [adjustModes] at assigned

theorem shiftStaticAccess65C02_forgets {mode : AddressingMode}
    (assigned : mode ∈ adjustModes) :
    StaticForgets Locals.place (shiftStaticAccess65C02 (μ := μ) mode) := by
  intro memory registers left right
  cases mode with
  | absoluteXIndexed => exact ⟨rfl, congrArg (5 + ·) (pageCycle_congr rfl rfl), rfl⟩
  | zeropage | zeropageXIndexed | absolute => exact ⟨rfl, rfl, rfl⟩
  | _ => simp [adjustModes] at assigned

theorem testModifyStaticAccess_forgets {mode : AddressingMode}
    (assigned : mode ∈ [AddressingMode.zeropage, .absolute]) :
    StaticForgets Locals.place (testModifyStaticAccess (μ := μ) mode) := by
  intro memory registers left right
  cases mode with
  | zeropage | absolute => exact ⟨rfl, rfl, rfl⟩
  | _ => simp at assigned

theorem staticBranch_forgets (taken : Registers → Bool) :
    StaticForgets (fun _ => ()) (staticBranch (μ := μ) taken) := by
  intro memory registers left right
  let fetched : Registers := { registers with PC := registers.PC + 1 }
  by_cases holds : taken fetched
  · have first : ∀ locals, staticBranch taken ({ memory, registers, locals } : Frame μ) =
        (Frame.fetchDELTA { memory, registers, locals },
          branchCycleCount (branchTarget (Frame.fetchDELTA { memory, registers, locals }))) :=
      fun _ => if_pos holds
    rw [first, first]
    exact ⟨rfl, rfl, rfl⟩
  · have first : ∀ locals, staticBranch taken ({ memory, registers, locals } : Frame μ) =
        (Frame.fetchDELTA { memory, registers, locals }, 1) := fun _ => if_neg holds
    rw [first, first]
    exact ⟨rfl, rfl, rfl⟩

theorem staticBranchOnSet_forgets (whichBit : Byte) :
    StaticForgets (fun _ => ())
      (staticBranch (μ := μ) fun registers => registers.getBit whichBit) :=
  staticBranch_forgets _

theorem staticBranchOnClear_forgets (whichBit : Byte) :
    StaticForgets (fun _ => ())
      (staticBranch (μ := μ) fun registers => !registers.getBit whichBit) :=
  staticBranch_forgets _

theorem isa65C02StaticBRA_forgets :
    StaticForgets (fun _ => ()) (isa65C02StaticBRA (μ := μ)) :=
  staticBranch_forgets fun _ => true

theorem staticShift_forgets {access : AddressingMode → StaticHandler μ}
    (forgets : ∀ {mode : AddressingMode}, mode ∈ adjustModes →
      StaticForgets Locals.place (access mode))
    (shift : Registers → Word → ShiftResult) {mode : AddressingMode}
    (assigned : mode ∈ shiftModes) :
    StaticForgets (fun _ => ()) (staticShift access shift mode) := by
  rcases List.mem_cons.mp assigned with rfl | inMemory
  · exact fun _ _ _ _ => ⟨rfl, rfl, rfl⟩
  · have direct : staticShift access shift mode =
        completingStatic (access mode) fun after => writeOPERAND (shiftOPERAND shift after) := by
      funext frame
      refine if_neg ?_
      rintro rfl
      simp at inMemory
    rw [direct]
    exact (forgets inMemory).completing
      (fun place => { Locals.zero with ADDR16 := place.1, OPERAND := place.2 }) fun _ _ _ => rfl

theorem staticTestModify_forgets (operation : Byte → Byte → Byte) {mode : AddressingMode}
    (assigned : mode ∈ [AddressingMode.zeropage, .absolute]) :
    StaticForgets (fun _ => ()) (staticTestModify (μ := μ) operation mode) :=
  (testModifyStaticAccess_forgets assigned).completing
    (fun place => { Locals.zero with ADDR16 := place.1, OPERAND := place.2 }) fun _ _ _ => rfl

/-! ## Which functions read what they find -/

namespace Routine

/-- The assigned modes for which a static-mode function uses an uninitialised local. -/
def looseModes : Routine → List AddressingMode
  | AND | ORA | EOR | AND65C02 | ORA65C02 | EOR65C02 => [.absoluteXIndexed, .absoluteYIndexed]
  | ADC | SBC => operandModes
  | ADC65C02 | SBC65C02 => operandModes65C02
  | LDX => [.zeropageYIndexed, .absoluteYIndexed]
  | _ => []

/-- In every other mode a static-mode function does the same whatever its locals hold. -/
theorem static_forgets (routine : Routine) {mode : AddressingMode}
    (assigned : mode ∈ routine.modes) (tight : mode ∉ routine.looseModes) :
    StaticForgets (fun _ => ()) (routine.static (μ := μ) mode) := by
  let ofOPERAND (OPERAND : Word) : Locals := { Locals.zero with OPERAND }
  let ofADDR16 (ADDR16 : Word) : Locals := { Locals.zero with ADDR16 }
  cases routine with
  | ADC | SBC | ADC65C02 | SBC65C02 => exact absurd assigned tight
  | AND | ORA | EOR =>
      refine (aluStaticAccess_forgets ?_).completing ofOPERAND fun _ _ _ => rfl
      simp_all [modes, looseModes, operandModes]
  | AND65C02 | ORA65C02 | EOR65C02 =>
      refine (aluStaticAccess65C02_forgets ?_).completing ofOPERAND fun _ _ _ => rfl
      simp_all [modes, looseModes, operandModes65C02, operandModes]
  | LDA | CMP =>
      exact (StaticForgets.of_staged (aluAccess_forgets assigned)
        (aluAccess_performs assigned)).completing ofOPERAND fun _ _ _ => rfl
  | LDA65C02 | CMP65C02 =>
      exact (StaticForgets.of_staged (aluAccess65C02_forgets assigned)
        (aluAccess65C02_performs assigned)).completing ofOPERAND fun _ _ _ => rfl
  | LDX =>
      refine (indexLoadStaticAccess_forgets ?_).completing ofOPERAND fun _ _ _ => rfl
      simp_all [modes, looseModes]
      tauto
  | LDY => exact (indexLoadStaticAccess_forgets assigned).completing ofOPERAND fun _ _ _ => rfl
  | CPX | CPY =>
      exact (indexCompareStaticAccess_forgets assigned).completing ofOPERAND fun _ _ _ => rfl
  | BIT => exact (bitStaticAccess_forgets assigned).completing ofOPERAND fun _ _ _ => rfl
  | BIT65C02 =>
      exact (bitStaticAccess65C02_forgets assigned).completing ofOPERAND fun _ _ _ => rfl
  | STA => exact (staStaticAccess_forgets assigned).completing ofADDR16 fun _ _ _ => rfl
  | STA65C02 => exact (staStaticAccess65C02_forgets assigned).completing ofADDR16 fun _ _ _ => rfl
  | STX => exact (stxStaticAccess_forgets assigned).completing ofADDR16 fun _ _ _ => rfl
  | STY => exact (styStaticAccess_forgets assigned).completing ofADDR16 fun _ _ _ => rfl
  | STZ65C02 => exact (stzStaticAccess_forgets assigned).completing ofADDR16 fun _ _ _ => rfl
  | ASL | LSR | ROL | ROR => exact staticShift_forgets modifyStaticAccess_forgets _ assigned
  | ASL65C02 | LSR65C02 | ROL65C02 | ROR65C02 =>
      exact staticShift_forgets shiftStaticAccess65C02_forgets _ assigned
  | INC | DEC => exact .of_staged (adjust_forgets _ assigned) (adjust_performs _ assigned)
  | INC65C02 | DEC65C02 =>
      exact .of_staged (adjust65C02_forgets _ assigned) (adjust65C02_performs _ assigned)
  | TSB65C02 | TRB65C02 => exact staticTestModify_forgets _ assigned
  | JMP =>
      exact (StaticForgets.of_staged (jmpAccess_forgets assigned)
        (jmpAccess_performs assigned)).completing ofADDR16 fun _ _ _ => rfl
  | JMP65C02 =>
      exact (StaticForgets.of_staged (jmpAccess65C02_forgets assigned)
        (jmpAccess65C02_performs assigned)).completing ofADDR16 fun _ _ _ => rfl
  | BCS | BEQ | BMI | BVS => exact staticBranchOnSet_forgets _
  | BCC | BNE | BPL | BVC => exact staticBranchOnClear_forgets _
  | BRA65C02 => exact isa65C02StaticBRA_forgets
  | JSR => exact .of_staged isa6502JSR_forgets isa6502JSR_performs
  | RTS => exact .of_staged isa6502RTS_forgets isa6502RTS_performs
  | RTI => exact .of_staged isa6502RTI_forgets isa6502RTI_performs
  | BRK | BRK65C02 => exact .of_staged (stagedBRK_forgets _) (stagedBRK_performs _)
  | PLA | PLX65C02 | PLY65C02 =>
      exact .of_staged (stagedPull_forgets _ _) (stagedPull_performs _ _)
  | PLP => exact .of_staged isa6502PLP_forgets isa6502PLP_performs
  | PHA | PHP | PHX65C02 | PHY65C02 => exact fun _ _ _ _ => ⟨rfl, rfl, rfl⟩
  | CLC | CLD | CLI | CLV | DEX | DEY | INX | INY | NOP | SEC | SED | SEI | TAX | TAY | TSX | TXA
  | TXS | TYA => exact fun _ _ _ _ => ⟨rfl, rfl, rfl⟩

end Routine

/-! ## Contents that make a difference -/

/-- Two contents of the locals of a program lead to different registers or bus accesses, or to
different numbers of cycles. -/
def Distinguishes (program : StaticHandler μ) (memory : μ) (registers : Registers) : Prop :=
  ∃ left right,
    ¬ ((program { memory, registers, locals := left }).1.core =
          (program { memory, registers, locals := right }).1.core ∧
        (program { memory, registers, locals := left }).2 =
          (program { memory, registers, locals := right }).2)

omit [Membus μ] in
theorem distinguishes_of_SR {program : StaticHandler μ} {memory : μ} {registers : Registers}
    (left right : Locals)
    (differ : (program { memory, registers, locals := left }).1.registers.SR ≠
      (program { memory, registers, locals := right }).1.registers.SR) :
    Distinguishes program memory registers :=
  ⟨left, right, fun same => differ (congrArg (fun core => core.registers.SR) same.1)⟩

omit [Membus μ] in
/-- The last bus accesses of the two outcomes differ. -/
theorem distinguishes_of_access {program : StaticHandler (Traced μ)} {memory : Traced μ}
    {registers : Registers} (left right : Locals)
    (differ : (program { memory, registers, locals := left }).1.memory.log.head? ≠
      (program { memory, registers, locals := right }).1.memory.log.head?) :
    Distinguishes program memory registers :=
  ⟨left, right, fun same => differ (congrArg (fun core => core.memory.log.head?) same.1)⟩

omit [Membus μ] in
/-- A comparison with the accumulator itself sets the zero flag, one with its successor does
not. -/
theorem compareA_ne (memory memory' : μ) (registers : Registers) (left right : Locals)
    (equal : left.OPERAND = registers.A.toWord)
    (above : right.OPERAND = (registers.A + 1).toWord) :
    (compareA { memory, registers, locals := left }).registers.SR ≠
      (compareA { memory := memory', registers, locals := right }).registers.SR := by
  have values : compareFlags registers.A.toWord left.OPERAND.toByte.toWord =
        Registers.bitC ||| Registers.bitZ ∧
      (compareFlags registers.A.toWord right.OPERAND.toByte.toWord = Registers.bitC ∨
        compareFlags registers.A.toWord right.OPERAND.toByte.toWord = Registers.bitN) := by
    rw [equal, above, Word.toByte_toWord, Word.toByte_toWord]
    generalize registers.A = A
    revert A
    decide +kernel
  obtain ⟨left_eq, right_eq⟩ := values
  change (registers.SR &&& ~~~(Registers.bitC ||| Registers.bitZ ||| Registers.bitN)) |||
      compareFlags registers.A.toWord left.OPERAND.toByte.toWord ≠
    (registers.SR &&& ~~~(Registers.bitC ||| Registers.bitZ ||| Registers.bitN)) |||
      compareFlags registers.A.toWord right.OPERAND.toByte.toWord
  intro same
  have flags_same := congrArg (· &&& (Registers.bitC ||| Registers.bitZ ||| Registers.bitN)) same
  simp only [replaced_and (by decide : ~~~(Registers.bitC ||| Registers.bitZ ||| Registers.bitN) &&&
    (Registers.bitC ||| Registers.bitZ ||| Registers.bitN) = 0), left_eq] at flags_same
  rcases right_eq with flags_eq | flags_eq
  · rw [flags_eq] at flags_same
    exact absurd flags_same (by decide)
  · rw [flags_eq] at flags_same
    exact absurd flags_same (by decide)

/-- The flags of an addition that started from a set flag accumulator are all set, which no
addition from a clear one achieves. -/
theorem setArithmetic_ne (OPERAND sum adjusted : Word) (registers : Registers) :
    (setArithmetic 0xFF OPERAND sum adjusted registers).SR ≠
      (setArithmetic 0 OPERAND sum adjusted registers).SR := by
  have exclusive : (adjusted &&& 0x00FF == 0) = true → (adjusted &&& 0x0080 != 0) = false := by
    intro zero
    have low : adjusted &&& 0x00FF = 0 := by simpa using zero
    have narrow : adjusted &&& 0x0080 = (adjusted &&& 0x00FF) &&& 0x0080 := by
      rw [BitVec.and_assoc]
      rfl
    rw [narrow, low]
    rfl
  intro same
  have flags_same := congrArg
    (· &&& (Registers.bitC ||| Registers.bitZ ||| Registers.bitV ||| Registers.bitN)) same
  unfold setArithmetic at flags_same
  dsimp only at flags_same
  rw [replaced_and (by decide), replaced_and (by decide)] at flags_same
  revert flags_same
  generalize (adjusted &&& 0x00FF == 0) = zero at exclusive ⊢
  generalize (adjusted &&& 0x0080 != 0) = negative at exclusive ⊢
  generalize (adjusted &&& 0xFF00 != 0) = carry
  generalize (~~~(registers.A.toWord ^^^ OPERAND) &&& (registers.A.toWord ^^^ sum) &&&
    0x0080 != 0) = overflow
  revert zero negative carry overflow
  decide +kernel

/-- Set the flag accumulator of a static-mode arithmetic function. -/
def withFlagBits (flagBits : Byte) (frame : Frame μ) : Frame μ :=
  frame.onLocals fun locals => { locals with flagBits }

/-- The addressing of the arithmetic functions leaves the flag accumulator alone. -/
theorem aluStaticAccess_withFlagBits (mode : AddressingMode) (flagBits : Byte) (frame : Frame μ) :
    (aluStaticAccess mode (withFlagBits flagBits frame)).1 =
      withFlagBits flagBits (aluStaticAccess mode frame).1 := by
  cases mode <;> rfl

theorem aluStaticAccess65C02_withFlagBits (mode : AddressingMode) (flagBits : Byte)
    (frame : Frame μ) :
    (aluStaticAccess65C02 mode (withFlagBits flagBits frame)).1 =
      withFlagBits flagBits (aluStaticAccess65C02 mode frame).1 := by
  have base := aluStaticAccess_withFlagBits mode flagBits frame
  cases mode with
  | zeropageIndirect => rfl
  | _ => exact base

omit [Membus μ] in
/-- A static-mode addition with a tail that starts from the uninitialised flag accumulator. -/
theorem arithmetic_distinguishes (program : StaticHandler μ) {access : StaticHandler μ}
    (tail : Byte → Frame μ → Frame μ)
    (passes : ∀ flagBits frame,
      (access (withFlagBits flagBits frame)).1 = withFlagBits flagBits (access frame).1)
    (tail_ne : ∀ frame, (tail 0xFF (withFlagBits 0xFF frame)).registers.SR ≠
      (tail 0 (withFlagBits 0 frame)).registers.SR)
    (program_eq : ∀ frame, (program frame).1 =
      (completingStatic access (tail frame.locals.flagBits) frame.latchBCD).1)
    (memory : μ) (registers : Registers) : Distinguishes program memory registers := by
  let blank : Frame μ := { memory, registers, locals := Locals.zero }
  refine distinguishes_of_SR { Locals.zero with flagBits := 0xFF } Locals.zero ?_
  rw [program_eq, program_eq]
  change (tail 0xFF (access (withFlagBits 0xFF blank.latchBCD)).1).registers.SR ≠
    (tail 0 (access (withFlagBits 0 blank.latchBCD)).1).registers.SR
  rw [passes, passes]
  exact tail_ne _

omit [Membus μ] in
theorem addToA_ne (frame : Frame μ) :
    (addToA 0xFF (withFlagBits 0xFF frame)).registers.SR ≠
      (addToA 0 (withFlagBits 0 frame)).registers.SR :=
  setArithmetic_ne _ _ _ frame.registers

omit [Membus μ] in
theorem subtractFromA_ne (frame : Frame μ) :
    (subtractFromA 0xFF (withFlagBits 0xFF frame)).registers.SR ≠
      (subtractFromA 0 (withFlagBits 0 frame)).registers.SR :=
  setArithmetic_ne _ _ _ frame.registers

namespace Routine

theorem ends_of_residue (routine : Routine) {mode : AddressingMode}
    (residue : mode ∈ routine.residueModes) : mode ∉ routine.endlessModes := by
  cases routine with
  | CMP | CMP65C02 | STZ65C02 => exact List.not_mem_nil
  | _ => exact absurd residue List.not_mem_nil

/-- In its residue modes the outcome of a staged function depends on what it retains. -/
theorem straight_distinguishes (routine : Routine) {mode : AddressingMode}
    (assigned : mode ∈ routine.modes) (residue : mode ∈ routine.residueModes)
    (memory : Traced μ) (registers : Registers) :
    Distinguishes (routine.straight mode) memory registers := by
  let equal : Locals := { Locals.zero with OPERAND := registers.A.toWord }
  let above : Locals := { Locals.zero with OPERAND := (registers.A + 1).toWord }
  let first : Locals := { Locals.zero with ADDR8 := 1, ADDR16 := 1 }
  cases routine with
  | CMP | CMP65C02 =>
      cases mode with
      | absolute =>
          refine distinguishes_of_access Locals.zero first fun same => ?_
          cases Option.some.inj same
      | zeropage | zeropageXIndexed | xIndexedIndirect | indirectYIndexed | zeropageIndirect =>
          refine distinguishes_of_SR equal above ?_
          exact compareA_ne _ _ _ _ _ rfl rfl
      | _ => exact absurd residue (by decide)
  | STZ65C02 =>
      obtain rfl : mode = .zeropage := by simpa [residueModes] using residue
      refine distinguishes_of_access Locals.zero first fun same => ?_
      cases Option.some.inj same
  | _ => exact absurd residue List.not_mem_nil

/-- In its loose modes the outcome of a static-mode function depends on its uninitialised
locals. -/
theorem static_distinguishes (routine : Routine) {mode : AddressingMode}
    (assigned : mode ∈ routine.modes) (loose : mode ∈ routine.looseModes)
    (memory : Traced μ) (registers : Registers) :
    Distinguishes (routine.static mode) memory registers := by
  let other : Locals := { Locals.zero with ADDR8 := 1, cycleCount := 1 }
  cases routine with
  | AND | ORA | EOR | AND65C02 | ORA65C02 | EOR65C02 =>
      cases mode with
      | absoluteXIndexed | absoluteYIndexed =>
          refine distinguishes_of_access Locals.zero other fun same => ?_
          cases Option.some.inj same
      | _ => exact absurd loose (by decide)
  | LDX =>
      cases mode with
      | zeropageYIndexed | absoluteYIndexed =>
          exact ⟨Locals.zero, other, fun same => Nat.zero_ne_one same.2⟩
      | _ => exact absurd loose (by decide)
  | ADC =>
      exact arithmetic_distinguishes (isa6502StaticADC mode) addToA
        (aluStaticAccess_withFlagBits mode) addToA_ne (fun _ => rfl) memory registers
  | SBC =>
      exact arithmetic_distinguishes (isa6502StaticSBC mode) subtractFromA
        (aluStaticAccess_withFlagBits mode) subtractFromA_ne (fun _ => rfl) memory registers
  | ADC65C02 =>
      exact arithmetic_distinguishes (isa65C02StaticADC mode) addToA
        (aluStaticAccess65C02_withFlagBits mode) addToA_ne (fun _ => rfl) memory registers
  | SBC65C02 =>
      exact arithmetic_distinguishes (isa65C02StaticSBC mode) subtractFromA
        (aluStaticAccess65C02_withFlagBits mode) subtractFromA_ne (fun _ => rfl) memory registers
  | _ => exact absurd loose List.not_mem_nil

end Routine
end System6502
