import System6502.Executor.Interrupts

/-!
# Interrupt entry and return

Where a serviced IRQ and a `BRK` lead, and what `RTI` brings back.
-/

namespace System6502

open Lib System6502.Frame

variable {μ : Type*} [PageOneRam μ]

theorem Dialect.lookup_00 (dialect : Dialect) :
    ∃ routine, (routine = .BRK ∨ routine = .BRK65C02) ∧
      dialect.lookup 0x00 = Dispatch.slot routine .implied := by
  cases dialect
  · exact ⟨.BRK, .inl rfl, by decide +kernel⟩
  · exact ⟨.BRK65C02, .inr rfl, by decide +kernel⟩

theorem Dialect.lookup_40 (dialect : Dialect) :
    dialect.lookup 0x40 = Dispatch.slot .RTI .implied := by
  cases dialect <;> decide +kernel

theorem Dialect.execute_40 (dialect : Dialect) (frame : Frame μ) :
    dialect.execute 0x40 frame = some (5, (isa6502StaticRTI frame).1) :=
  dialect.execute_of_slot dialect.lookup_40 (by decide) (by decide) frame

namespace Run

/-- The content of the stack cells. -/
def cells (run : Run μ) : Byte → Byte := PageOneRam.cell run.executor.memory

/-- The service of an IRQ pushes the program counter and the status, inhibits further requests
and goes through the vector, and an `RTI` executed next undoes it. -/
structure EntersIRQ (run : Run μ) : Prop where
  /-- The high byte of the program counter is pushed first. -/
  pushes_high : run.serviceIRQ.1.cells run.executor.registers.SP = run.executor.registers.PC.high
  /-- The low byte follows. -/
  pushes_low : run.serviceIRQ.1.cells (run.executor.registers.SP - 1) =
    run.executor.registers.PC.low
  /-- The status register is pushed last. -/
  pushes_status : run.serviceIRQ.1.cells (run.executor.registers.SP - 2) =
    run.executor.registers.SR
  /-- Three bytes are pushed. -/
  SP_eq : run.serviceIRQ.1.executor.registers.SP = run.executor.registers.SP - 3
  /-- I is set, and D is cleared on the 65C02. -/
  SR_eq : run.serviceIRQ.1.executor.registers.SR =
    (run.executor.dialect.inhibit run.executor.registers).SR
  /-- The program counter is loaded from the vector. -/
  PC_eq : run.serviceIRQ.1.executor.registers.PC =
    vectorWord (pushedBus run.executor.memory run.executor.registers run.executor.registers.SR)
      memoryAddrIRQVector
  /-- `RTI` resumes the interrupted program. -/
  returns : ∀ locals, ∃ resumed,
    run.executor.dialect.execute 0x40 (run.serviceIRQ.1.fetched locals) = some (5, resumed) ∧
      resumed.registers.PC = run.executor.registers.PC ∧
      resumed.registers.SP = run.executor.registers.SP ∧
      resumed.registers.SR = pulledStatus run.executor.registers.SR

/-- The bus and the registers with which `BRK` pushes: its opcode and the byte after it are
fetched. -/
def breaking (run : Run μ) : Frame μ := fetchDummy (run.fetched Locals.zero)

/-- The bus with the three bytes of a `BRK` on its stack. -/
def breakBus (run : Run μ) : μ :=
  pushedBus run.breaking.memory run.breaking.registers
    (run.executor.registers.SR ||| Registers.bitB)

/-- `BRK` goes through the IRQ vector, with the break bit set in the status it pushes. -/
def EntersBRK (run : Run μ) : Prop :=
  ∀ locals, ∃ entered,
    run.executor.dialect.execute 0x00 (run.fetched locals) = some (6, entered) ∧
      entered.registers.PC = vectorWord run.breakBus memoryAddrIRQVector ∧
      entered.cells (run.executor.registers.SP - 2) &&& Registers.bitB = Registers.bitB

/-- What the service of a pending IRQ leaves. -/
theorem serviceIRQ_executor {run : Run μ} (pending : run.executor.flags.irq = true)
    (clear : run.executor.registers.getBit Registers.bitI = false) :
    run.serviceIRQ.1.executor.memory =
        pushedBus run.executor.memory run.executor.registers run.executor.registers.SR ∧
      run.serviceIRQ.1.executor.registers =
        run.executor.dialect.inhibit
          { run.executor.registers with SP := run.executor.registers.SP - 1 - 1 - 1 } := by
  rw [serviceIRQ_of_pending pending clear]
  exact ⟨rfl, rfl⟩

/-- Apart from the program counter an IRQ is entered and left correctly; the program counter stays
where the program was interrupted. -/
theorem entersIRQ_iff {run : Run μ} (pending : run.executor.flags.irq = true)
    (clear : run.executor.registers.getBit Registers.bitI = false) :
    run.EntersIRQ ↔
      vectorWord (pushedBus run.executor.memory run.executor.registers run.executor.registers.SR)
        memoryAddrIRQVector = run.executor.registers.PC := by
  obtain ⟨memory_eq, registers_eq⟩ := serviceIRQ_executor pending clear
  obtain ⟨status_eq, low_eq, high_eq, -⟩ :=
    holds_pushedBus run.executor.memory run.executor.registers run.executor.registers.SR
  rw [← memory_eq] at status_eq low_eq high_eq
  have PC_eq : run.serviceIRQ.1.executor.registers.PC = run.executor.registers.PC := by
    rw [registers_eq, Dialect.inhibit_PC]
  have SP_eq : run.serviceIRQ.1.executor.registers.SP =
      run.executor.registers.SP - 1 - 1 - 1 := by
    rw [registers_eq, Dialect.inhibit_SP]
  constructor
  · intro enters
    rw [← enters.PC_eq, PC_eq]
  · intro vector_eq
    refine ⟨?_, ?_, ?_, ?_, ?_, ?_, fun locals => ?_⟩
    · simpa only [cells, sub_add_cancel] using high_eq
    · simpa only [cells, sub_add_cancel] using low_eq
    · have cell_eq : run.executor.registers.SP - 2 =
          run.executor.registers.SP - 1 - 1 - 1 + 1 := by bv_omega
      rw [cell_eq]
      exact status_eq
    · rw [SP_eq]
      bv_omega
    · rw [registers_eq]
      cases run.executor.dialect <;> rfl
    · rw [PC_eq, vector_eq]
    · refine ⟨_, Dialect.execute_40 _ _, ?_⟩
      have cells_eq : (run.serviceIRQ.1.fetched locals).cells =
          PageOneRam.cell run.serviceIRQ.1.executor.memory :=
        funext fun which => PageOneRam.cell_readAddr _ _ which
      have SP_eq' : (run.serviceIRQ.1.fetched locals).registers.SP =
          run.executor.registers.SP - 1 - 1 - 1 := SP_eq
      rw [registers_isa6502StaticRTI]
      dsimp only
      rw [cells_eq, SP_eq', status_eq, low_eq, high_eq, Word.littleEndian_low_high]
      exact ⟨rfl, by bv_omega, rfl⟩

/-- The status change of a `BRK` function. -/
def breakInhibit : Routine → Registers → Registers
  | .BRK65C02 => inhibit65C02
  | _ => inhibit

/-- Whatever its status change, `BRK` loads the program counter from the NMI vector. -/
theorem staticBRK_spec (change : Registers → Registers) (run : Run μ) (locals : Locals) :
    (staticBRK change (run.fetched locals)).1.registers.PC =
        vectorWord run.breakBus memoryAddrNMIVector ∧
      (staticBRK change (run.fetched locals)).1.cells = PageOneRam.cell run.breakBus := by
  refine ⟨rfl, funext fun which => ?_⟩
  exact (PageOneRam.cell_readAddr _ _ which).trans (PageOneRam.cell_readAddr _ _ which)

theorem entersBRK_iff (run : Run μ) :
    run.EntersBRK ↔
      vectorWord run.breakBus memoryAddrNMIVector =
        vectorWord run.breakBus memoryAddrIRQVector := by
  obtain ⟨routine, isBRK, lookup_eq⟩ := run.executor.dialect.lookup_00
  have executed : ∀ locals, ∃ entered,
      run.executor.dialect.execute 0x00 (run.fetched locals) = some (6, entered) ∧
        entered.registers.PC = vectorWord run.breakBus memoryAddrNMIVector ∧
        entered.cells = PageOneRam.cell run.breakBus := by
    intro locals
    refine ⟨_, ?_, (staticBRK_spec (breakInhibit routine) run locals).1,
      (staticBRK_spec (breakInhibit routine) run locals).2⟩
    rw [Dialect.execute_of_slot lookup_eq]
    · rcases isBRK with rfl | rfl <;> rfl
    · rcases isBRK with rfl | rfl <;> decide
    · rcases isBRK with rfl | rfl <;> decide
  obtain ⟨status_eq, -⟩ := holds_pushedBus run.breaking.memory run.breaking.registers
    (run.executor.registers.SR ||| Registers.bitB)
  have cell_eq : run.executor.registers.SP - 2 =
      run.breaking.registers.SP - 1 - 1 - 1 + 1 := by
    change run.executor.registers.SP - 2 = run.executor.registers.SP - 1 - 1 - 1 + 1
    bv_omega
  have broken : (run.executor.registers.SR ||| Registers.bitB) &&& Registers.bitB =
      Registers.bitB := by
    generalize run.executor.registers.SR = SR
    revert SR
    decide +kernel
  constructor
  · intro enters
    obtain ⟨entered, entered_eq, PC_eq, -⟩ := enters Locals.zero
    obtain ⟨other, other_eq, otherPC_eq, -⟩ := executed Locals.zero
    obtain rfl : entered = other :=
      (Prod.mk.inj (Option.some.inj (entered_eq.symm.trans other_eq))).2
    rw [← otherPC_eq, PC_eq]
  · intro vectors_eq locals
    obtain ⟨entered, entered_eq, PC_eq, cells_eq⟩ := executed locals
    refine ⟨entered, entered_eq, PC_eq.trans vectors_eq, ?_⟩
    rw [cells_eq, cell_eq]
    exact (congrArg (· &&& Registers.bitB) status_eq).trans broken

/-- Maskable interrupt entry works exactly when the IRQ vector happens to hold the interrupted
program counter and the NMI vector, which `BRK` goes through, happens to equal it. -/
theorem interruptEntry_iff (run : Run μ) (pending : run.executor.flags.irq = true)
    (clear : run.executor.registers.getBit Registers.bitI = false) :
    run.EntersIRQ ∧ run.EntersBRK ↔
      vectorWord (pushedBus run.executor.memory run.executor.registers run.executor.registers.SR)
          memoryAddrIRQVector = run.executor.registers.PC ∧
        vectorWord run.breakBus memoryAddrNMIVector =
          vectorWord run.breakBus memoryAddrIRQVector :=
  and_congr (entersIRQ_iff pending clear) run.entersBRK_iff

/-- A boundary with a pending IRQ, on memory filled with zeros. -/
def requested (dialect : Dialect) (PC : Word) : Run Ram where
  executor := (Executor.alloc { Registers.reset with PC } (fun _ => 0) dialect).request .setIRQ
  loop := Loop.zero
  location := .boundary

/-- With the program counter at zero, as every vector is. -/
theorem entersInterrupts_at_0000 :
    (requested .cmos 0x0000).EntersIRQ ∧ (requested .cmos 0x0000).EntersBRK :=
  (interruptEntry_iff (requested .cmos 0x0000) rfl rfl).mpr (by decide)

/-- With the program counter elsewhere the IRQ vector is not taken. -/
theorem not_entersInterrupts_at_0200 :
    ¬ ((requested .base 0x0200).EntersIRQ ∧ (requested .base 0x0200).EntersBRK) := by
  rintro ⟨enters, -⟩
  have PC_eq := enters.PC_eq
  revert PC_eq
  decide

end Run
end System6502
