import Mathlib.Data.Nat.Fib.Basic
import System6502.Isa.Stack
import System6502.Programs.Launch
import System6502.Programs.Rules

/-!
# The Fibonacci program

`fibonacci.s` obtains a Fibonacci number with a subroutine that calls itself twice and keeps its
counter and its first result on the stack.
-/

namespace System6502
namespace Programs

open Lib Processor

/-! ## The stack of a program -/

namespace Processor

/-- The bytes above the stack pointer, the top one first. -/
def Stack (processor : Processor) (values : List Byte) : Prop :=
  RingStack.Holds (fun cell => processor.data (stackAddress cell)) processor.SP values

variable {processor : Processor} {value : Byte} {values : List Byte}

theorem Stack.push (stack : processor.Stack values) (room : values.length < 256) :
    (processor.push value).Stack (value :: values) := by
  have cells_eq : (fun cell => (processor.push value).data (stackAddress cell)) =
      Function.update (fun cell => processor.data (stackAddress cell)) processor.SP value := by
    funext cell
    change Function.update processor.data (stackAddress processor.SP) value (stackAddress cell) = _
    by_cases same : cell = processor.SP
    · subst same
      rw [Function.update_self, Function.update_self]
    · rw [Function.update_of_ne fun address_eq => same (stackAddress_inj.mp address_eq),
        Function.update_of_ne same]
  rw [Stack, cells_eq]
  exact RingStack.Holds.push spacious_byte stack room value

theorem Stack.pull (stack : processor.Stack (value :: values)) : processor.pull.Stack values :=
  stack.2

/-- The address to which `RTS` returns. -/
theorem Stack.back_eq {PC : Word} (stack : processor.Stack (PC.low :: PC.high :: values)) :
    Word.littleEndian processor.top processor.pull.top = PC := by
  have low_eq : processor.top = PC.low := stack.1
  have high_eq : processor.pull.top = PC.high := stack.2.1
  rw [low_eq, high_eq, Word.littleEndian_low_high]

theorem pull_pull_SP : processor.pull.pull.SP = processor.SP + 2 :=
  BitVec.add_assoc _ _ _

/-- A store elsewhere leaves the stack alone. -/
theorem Stack.congr {other : Processor} (stack : processor.Stack values)
    (SP_eq : other.SP = processor.SP)
    (data_eq : ∀ SP, other.data (stackAddress SP) = processor.data (stackAddress SP)) :
    other.Stack values := by
  rw [Stack, SP_eq]
  exact RingStack.Holds.congr stack fun cell _ => data_eq cell

end Processor

namespace Fibonacci

/-- `fibonacci.s`. -/
def fibonacci : Image where
  start := 0x2000
  bytes :=
    [0xA6, 0x00, 0x20, 0x0A, 0x20, 0x86, 0x01, 0x4C, 0x28, 0x20, 0x8A, 0xD0, 0x01, 0x60, 0xCA,
      0xD0, 0x01, 0x60, 0x8A, 0x48, 0x20, 0x0A, 0x20, 0xA8, 0x68, 0xAA, 0x98, 0x48, 0xCA, 0x20,
      0x0A, 0x20, 0x85, 0x01, 0x68, 0x18, 0x65, 0x01, 0xAA, 0x60, 0xEA]

theorem stackClear : fibonacci.StackClear := by decide +kernel

/-- The cycles of the subroutine at `FIBON`. -/
def cyclesOf : Nat → Nat
  | 0 => 10
  | 1 => 15
  | n + 2 => 62 + cyclesOf (n + 1) + cyclesOf n

theorem cyclesOf_eq (n : Nat) : cyclesOf n + 62 = 72 * Nat.fib (n + 1) + 5 * Nat.fib n := by
  induction n using Nat.twoStepInduction with
  | zero => rfl
  | one => rfl
  | more n ih ihNext =>
      have next_eq : Nat.fib (n + 1 + 1) = _ := Nat.fib_add_two
      have last_eq : Nat.fib (n + 2 + 1) = _ := Nat.fib_add_two
      rw [cyclesOf, last_eq, Nat.fib_add_two]
      rw [next_eq] at ihNext
      omega

/-- The bytes that the subroutine needs on the stack. -/
def need (n : Nat) : Nat := 3 * (n - 1)

/-- What the subroutine leaves, from what the processor had before its call. -/
structure Returned (n : Nat) (PC : Word) (SP : Byte) (values : List Byte) (data : Ram)
    (final : Processor) : Prop where
  /-- Behind the call. -/
  PC_eq : final.PC = PC
  /-- The number. -/
  A_eq : final.A = BitVec.ofNat 8 (Nat.fib n)
  /-- A copy of it, but for `1`. -/
  X_eq : final.X = if n = 1 then 0 else BitVec.ofNat 8 (Nat.fib n)
  /-- The stack pointer. -/
  SP_eq : final.SP = SP
  /-- The stack. -/
  stack : final.Stack values
  /-- Binary mode. -/
  binary : final.status.D = false
  /-- The memory around the stack page and the result. -/
  kept : ∀ address, address ≠ 0x0001 → (∀ SP, address ≠ stackAddress SP) →
    final.data address = data address

/-- The subroutine at `FIBON` computes a Fibonacci number. -/
def Computes (n : Nat) : Prop :=
  ∀ (processor : Processor) (PC : Word) (values : List Byte) (spent : Nat)
    (post : Nat → Processor → Prop), processor.PC = 0x200A → processor.X = BitVec.ofNat 8 n →
    processor.status.D = false → processor.Stack (PC.low :: PC.high :: values) →
    need n + values.length + 2 ≤ 256 →
    (∀ final, Returned n PC (processor.SP + 2) values processor.data final →
      final.Runs fibonacci (spent + cyclesOf n) post) → processor.Runs fibonacci spent post

/-- A call of the subroutine. -/
theorem Computes.call {n : Nat} (computes : Computes n) {processor : Processor}
    {values : List Byte} {spent : Nat} {post : Nat → Processor → Prop}
    (fetch : fibonacci.fetches processor.PC .JSR .absolute [0x0A, 0x20] = true)
    (X_eq : processor.X = BitVec.ofNat 8 n) (binary : processor.status.D = false)
    (stack : processor.Stack values) (room : need n + values.length + 2 ≤ 256)
    (further : ∀ final, Returned n (processor.PC + 3) processor.SP values processor.data final →
      final.Runs fibonacci (spent + 6 + cyclesOf n) post) :
    processor.Runs fibonacci spent post := by
  refine .JSR stackClear 0x200A fetch ?_
  refine computes _ (processor.PC + 3) values _ _ rfl X_eq binary
    ((stack.push (by omega)).push (by rw [List.length_cons]; omega)) room fun final returned => ?_
  refine further final
    { returned with
      SP_eq := returned.SP_eq.trans ?_
      kept := fun address other away => (returned.kept address other away).trans ?_ }
  · change processor.SP - 1 - 1 + 2 = processor.SP
    rw [BitVec.sub_sub]
    exact BitVec.sub_add_cancel _ _
  · exact (Function.update_of_ne (away _) _ _).trans (Function.update_of_ne (away _) _ _)

theorem computes_zero : Computes 0 := by
  intro processor back values spent post here X_eq binary stack _ further
  obtain ⟨A, X, Y, SP, PC, status, data⟩ := processor
  dsimp only at here X_eq binary
  subst here X_eq
  refine .TXA (by dsimp only; rfl) ?_
  refine .BNE_passed 0x01 (by dsimp only; rfl) (by dsimp only [Status.settle]; decide) ?_
  refine .RTS stackClear (by dsimp only; rfl) ?_
  refine further _ ⟨?_, rfl, rfl, ?_, stack.2.2, binary, fun _ _ _ => rfl⟩
  · exact stack.back_eq
  · exact pull_pull_SP

theorem computes_one : Computes 1 := by
  intro processor back values spent post here X_eq binary stack _ further
  obtain ⟨A, X, Y, SP, PC, status, data⟩ := processor
  dsimp only at here X_eq binary
  subst here X_eq
  refine .TXA (by dsimp only; rfl) ?_
  refine .BNE_taken 0x01 (by dsimp only; rfl) (by dsimp only; decide) rfl ?_
  refine .DEX (by dsimp only; rfl) ?_
  refine .BNE_passed 0x01 (by dsimp only; rfl) (by dsimp only [Status.settle]; decide) ?_
  refine .RTS stackClear (by dsimp only; rfl) ?_
  refine further _ ⟨?_, rfl, ?_, ?_, stack.2.2, binary, fun _ _ _ => rfl⟩
  · exact stack.back_eq
  · dsimp only [pull]
    rfl
  · exact pull_pull_SP

theorem ofNat_sub_one (count : Nat) : BitVec.ofNat 8 (count + 1) - 1 = BitVec.ofNat 8 count := by
  rw [BitVec.ofNat_add]
  exact BitVec.add_sub_cancel _ _

theorem ofNat_ne_zero {count : Nat} (positive : 0 < count) (count_lt : count < 256) :
    (BitVec.ofNat 8 count == 0) = false := by
  refine beq_false_of_ne fun zero => ?_
  have value_eq := congrArg BitVec.toNat zero
  rw [BitVec.toNat_ofNat, Nat.mod_eq_of_lt count_lt] at value_eq
  exact absurd value_eq positive.ne'

/-- The lines before the first call. -/
theorem descends {n : Nat} (n_lt : n + 2 < 256) {processor : Processor} {spent : Nat}
    {post : Nat → Processor → Prop} (here : processor.PC = 0x200A)
    (X_eq : processor.X = BitVec.ofNat 8 (n + 2))
    (further : ∀ A Y, ∀ status : Status, status.D = processor.status.D →
      ({ processor with
          A
          X := BitVec.ofNat 8 (n + 1)
          Y
          PC := 0x2014
          status }.push (BitVec.ofNat 8 (n + 1))).Runs fibonacci (spent + 15) post) :
    processor.Runs fibonacci spent post := by
  obtain ⟨A, X, Y, SP, PC, status, data⟩ := processor
  dsimp only at here X_eq
  subst here X_eq
  have counted := ofNat_sub_one (n + 1)
  refine .TXA (by dsimp only; rfl) ?_
  refine .BNE_taken 0x01 (by dsimp only; rfl) (by dsimp only; decide)
    (ofNat_ne_zero (by omega) n_lt) ?_
  refine .DEX (by dsimp only; rfl) ?_
  dsimp only
  rw [counted]
  refine .BNE_taken 0x01 (by dsimp only; rfl) (by dsimp only; decide)
    (ofNat_ne_zero (by omega) (by omega)) ?_
  refine .TXA (by dsimp only; rfl) ?_
  refine .PHA stackClear (by dsimp only; rfl) ?_
  exact further _ _ _ rfl

/-- The lines between the calls. -/
theorem exchanges {count number : Byte} {values : List Byte} {processor : Processor} {spent : Nat}
    {post : Nat → Processor → Prop} (here : processor.PC = 0x2017) (A_eq : processor.A = number)
    (stack : processor.Stack (count :: values)) (room : values.length < 256)
    (further : ∀ next : Processor, next.PC = 0x201D → next.X = count - 1 →
      next.SP = processor.SP → next.Stack (number :: values) → next.status.D = processor.status.D →
      (∀ address, (∀ SP, address ≠ stackAddress SP) →
        next.data address = processor.data address) →
      next.Runs fibonacci (spent + 15) post) :
    processor.Runs fibonacci spent post := by
  obtain ⟨A, X, Y, SP, PC, status, data⟩ := processor
  dsimp only at here A_eq
  subst here A_eq
  refine .TAY (by dsimp only; rfl) ?_
  refine .PLA stackClear (by dsimp only; rfl) ?_
  refine .TAX (by dsimp only [pull]; rfl) ?_
  refine .TYA (by dsimp only [pull]; rfl) ?_
  refine .PHA stackClear (by dsimp only [pull]; rfl) ?_
  refine .DEX (by dsimp only [pull, push]; rfl) ?_
  refine further _ (by dsimp only [pull, push]; rfl) ?_ ?_ ?_ rfl ?_
  · exact congrArg (· - 1) stack.1
  · exact BitVec.add_sub_cancel _ _
  · exact stack.pull.push room
  · exact fun address away => Function.update_of_ne (away _) _ _

theorem stackAddress_ne : ∀ cell, stackAddress cell ≠ 0x0001 := by decide +kernel

/-- The lines after the second call. -/
theorem adds {number : Byte} {back : Word} {values : List Byte} {processor : Processor}
    {spent : Nat} {post : Nat → Processor → Prop} (here : processor.PC = 0x2020)
    (binary : processor.status.D = false)
    (stack : processor.Stack (number :: back.low :: back.high :: values))
    (further : ∀ final : Processor, final.PC = back → final.A = number + processor.A →
      final.X = number + processor.A → final.SP = processor.SP + 3 → final.Stack values →
      final.status.D = false →
      (∀ address, address ≠ 0x0001 → final.data address = processor.data address) →
      final.Runs fibonacci (spent + 20) post) :
    processor.Runs fibonacci spent post := by
  obtain ⟨A, X, Y, SP, PC, status, data⟩ := processor
  dsimp only at here binary
  subst here
  refine .STA (.zeropage 0x01) (by dsimp only; rfl) rfl ?_
  refine .PLA stackClear (by dsimp only; rfl) ?_
  refine .CLC (by dsimp only [pull]; rfl) ?_
  refine .ADC (.zeropage 0x01) (by dsimp only [pull]; rfl) binary fun V => ?_
  refine .TAX (by dsimp only [pull]; rfl) ?_
  refine .RTS stackClear (by dsimp only [pull]; rfl) ?_
  let stored : Processor :=
    { A, X, Y, SP, PC := 0, status, data := Function.update data 0x0001 A }
  have held : stored.Stack (number :: back.low :: back.high :: values) :=
    stack.congr rfl fun cell => Function.update_of_ne (stackAddress_ne cell) _ _
  have sum_eq : stored.top + Function.update data 0x0001 A 0x0001 + 0 = number + A := by
    rw [show stored.top = number from held.1, Function.update_self]
    exact BitVec.add_zero _
  refine further _ ?_ sum_eq sum_eq ?_ ?_ binary ?_
  · exact held.pull.back_eq
  · change SP + 1 + 1 + 1 = SP + 3
    rw [BitVec.add_assoc, BitVec.add_assoc]
    rfl
  · exact held.2.2.2
  · exact fun address other => Function.update_of_ne other _ _

/-- Two calls and an addition. -/
theorem computes_add_two {n : Nat} (next : Computes (n + 1)) (last : Computes n) :
    Computes (n + 2) := by
  intro processor back values spent post here X_eq binary stack room further
  have room_next : need (n + 1) + 3 + values.length + 2 ≤ 256 := by
    unfold need at room ⊢
    omega
  have room_last : need n + 3 + values.length + 2 ≤ 256 := by
    unfold need at room ⊢
    omega
  have longer : ∀ first : Byte, (first :: back.low :: back.high :: values).length =
      values.length + 3 := fun _ => rfl
  refine descends (by unfold need at room; omega) here X_eq fun A Y status D_eq => ?_
  refine next.call (by dsimp only [push]; rfl) rfl (D_eq.trans binary)
    (stack.push (by simp only [List.length_cons]; omega)) (by rw [longer]; omega)
    fun first returned => ?_
  refine exchanges returned.PC_eq returned.A_eq returned.stack
    (by simp only [List.length_cons]; omega)
    fun middle middle_PC middle_X middle_SP middle_stack middle_D middle_kept => ?_
  refine last.call (by rw [middle_PC]; rfl) (middle_X.trans (ofNat_sub_one n))
    (middle_D.trans returned.binary) middle_stack (by rw [longer]; omega) fun second again => ?_
  refine adds (again.PC_eq.trans (by rw [middle_PC]; rfl)) again.binary again.stack
    fun final final_PC final_A final_X final_SP final_stack final_D final_kept => ?_
  have number_eq : BitVec.ofNat 8 (Nat.fib (n + 1)) + second.A =
      BitVec.ofNat 8 (Nat.fib (n + 2)) := by
    rw [again.A_eq, ← BitVec.ofNat_add, Nat.fib_add_two, Nat.add_comm]
  refine (congrArg (final.Runs fibonacci · post) ?_).mp (further final
    { PC_eq := final_PC
      A_eq := final_A.trans number_eq
      X_eq := final_X.trans (number_eq.trans (if_neg (by omega)).symm)
      SP_eq := ?_
      stack := final_stack
      binary := final_D
      kept := fun address other away => ?_ })
  · rw [cyclesOf]
    omega
  · rw [final_SP, again.SP_eq, middle_SP, returned.SP_eq]
    change processor.SP - 1 + 3 = processor.SP + 2
    rw [show (3 : Byte) = 1 + 2 from rfl, ← BitVec.add_assoc]
    exact congrArg (· + 2) (BitVec.sub_add_cancel _ _)
  · calc final.data address
        = second.data address := final_kept address other
      _ = middle.data address := again.kept address other away
      _ = first.data address := middle_kept address away
      _ = _ := returned.kept address other away
      _ = processor.data address := Function.update_of_ne (away _) _ _

/-- The subroutine computes every Fibonacci number for which the stack page has room. -/
theorem computes (n : Nat) : Computes n := by
  induction n using Nat.twoStepInduction with
  | zero => exact computes_zero
  | one => exact computes_one
  | more n last next => exact computes_add_two next last

/-! ## The program -/

/-- What the program does: it stores the Fibonacci number of the byte at `$0000` at `$0001`, but for
that of `1`, leaves it in the accumulator, and touches no other byte but those on the stack page. -/
structure Obtains (before : Core Ram) (cycles : Nat) (after : Core Ram) : Prop where
  /-- The number. -/
  A_eq : after.registers.A = BitVec.ofNat 8 (Nat.fib (before.memory 0x0000).toNat)
  /-- The result. -/
  result : after.memory 0x0001 =
    if before.memory 0x0000 = 1 then 0 else BitVec.ofNat 8 (Nat.fib (before.memory 0x0000).toNat)
  /-- Its cycles. -/
  cycles_eq : cycles + 45 = 72 * Nat.fib ((before.memory 0x0000).toNat + 1) +
    5 * Nat.fib (before.memory 0x0000).toNat
  /-- The stack pointer. -/
  SP_eq : after.registers.SP = before.registers.SP
  /-- The other bytes. -/
  kept : ∀ address, address ≠ 0x0001 → (∀ SP, address ≠ stackAddress SP) →
    after.memory address = before.memory address

theorem completes : fibonacci.Completes
    (fun core => core.registers.getBit Registers.bitD = false ∧ (core.memory 0x0000).toNat ≤ 85)
    Obtains := by
  rintro ⟨memory, registers⟩ inMemory ⟨binary, n_le⟩
  rw [show fibonacci.start = 0x2000 from rfl, of]
  dsimp only at binary n_le ⊢
  have room : need (memory 0x0000).toNat + ([] : List Byte).length + 2 ≤ 256 := by
    rw [need, List.length_nil]
    omega
  refine .LDX (.zeropage 0x00) (by dsimp only; rfl) ?_
  have X_eq : memory 0x0000 = BitVec.ofNat 8 (memory 0x0000).toNat := by simp
  have empty : ∀ processor : Processor, processor.Stack [] := fun _ => trivial
  refine (computes (memory 0x0000).toNat).call (by dsimp only; rfl) X_eq binary (empty _) room
    fun final returned => ?_
  obtain ⟨A, X, Y, SP, PC, status, data⟩ := final
  obtain ⟨PC_eq, A_eq, X_eq, SP_eq, -, -, kept⟩ := returned
  dsimp only at PC_eq A_eq X_eq SP_eq kept
  subst PC_eq
  refine .STX (.zeropage 0x01) (by dsimp only; rfl) rfl ?_
  refine .JMP 0x2028 (by dsimp only; rfl) ?_
  refine .NOP (by dsimp only; rfl) ?_
  refine .here ⟨by dsimp only; rfl, A_eq, X_eq.trans ?_, ?_, SP_eq, fun address other away => ?_⟩
  · have one_iff : (memory 0x0000).toNat = 1 ↔ memory 0x0000 = 1 := by
      rw [← BitVec.toNat_inj]
      rfl
    exact if_congr one_iff rfl rfl
  · have cycles_eq := cyclesOf_eq (memory 0x0000).toNat
    dsimp only [Operand.calls, Operand.storeCalls]
    omega
  · refine inMemory.kept ?_
    exact (Function.update_of_ne other _ _).trans (kept address other away)

variable {δ : Type*} [DecidableEq δ] {kinds : δ → StorageKind}

/-- A staged launch in binary mode, undisturbed and on read-write storage modules that back every
address, none of them in the pre-op tier, returns with the Fibonacci number of any byte up to 85,
the deepest recursion that fits the stack, after exponentially many cycles. -/
theorem execute_obtains (loop : RunLoop) (staged : loop.mode = .staged)
    {executor : Executor (DeviceBus (Bus.storageModule kinds))} (full : executor.memory.Full)
    (base : executor.dialect = .base) (inMemory : fibonacci.InMemory executor.memory.bytes)
    (binary : executor.registers.getBit Registers.bitD = false)
    (fits : (executor.memory.bytes 0x0000).toNat ≤ 85) (residue : Loop) :
    ∃ steps, ∀ inputs : List Input, (∀ input ∈ inputs, input.requests = []) →
      steps ≤ inputs.length →
        let outcome := (loop.execute executor fibonacci.range fibonacci.start residue inputs).1
        outcome.location = .returned ∧ outcome.executor.memory.Full ∧
          Obtains executor.flattened.core outcome.loop.totalCycles
            outcome.executor.flattened.core :=
  loop.execute_program completes staged full base inMemory ⟨binary, fits⟩ residue

/-- The tenth Fibonacci number takes 6638 cycles. -/
theorem execute_obtains_ten : ∃ steps, ∀ inputs : List Input,
    (∀ input ∈ inputs, input.requests = []) → steps ≤ inputs.length →
      let outcome := ((executorLaunchStaged none).execute (fibonacci.machine fun _ => 10)
        fibonacci.range 0x2000 Loop.zero inputs).1
      outcome.executor.registers.A = 55 ∧ outcome.loop.totalCycles = 6638 := by
  have full : (fibonacci.machine fun _ => 10).memory.Full := DeviceBus.full_default _ _
  have given : (fibonacci.machine fun _ => 10).memory.bytes 0x0000 = 10 :=
    DeviceBus.bytes_default _ _ _
  obtain ⟨steps, ends⟩ := execute_obtains (executorLaunchStaged none) rfl full rfl
    (Image.inMemory_machine _ (by decide)) rfl (by rw [given]; decide) Loop.zero
  refine ⟨steps, fun inputs quiet enough => ?_⟩
  obtain ⟨A_eq, -, cycles_eq, -, -⟩ := (ends inputs quiet enough).2.2
  change _ = BitVec.ofNat 8 (Nat.fib ((fibonacci.machine fun _ => 10).memory.bytes 0x0000).toNat)
    at A_eq
  change _ + 45 = 72 * Nat.fib (((fibonacci.machine fun _ => 10).memory.bytes 0x0000).toNat + 1) +
    5 * Nat.fib ((fibonacci.machine fun _ => 10).memory.bytes 0x0000).toNat at cycles_eq
  rw [given] at A_eq cycles_eq
  have numbers : Nat.fib 10 = 55 ∧ Nat.fib 11 = 89 := by decide
  change _ + 45 = 72 * Nat.fib 11 + 5 * Nat.fib 10 at cycles_eq
  rw [numbers.1, numbers.2] at cycles_eq
  exact ⟨A_eq, Nat.add_right_cancel (cycles_eq.trans rfl : _ = 6638 + 45)⟩

end Fibonacci
end Programs
end System6502
