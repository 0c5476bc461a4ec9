import Mathlib.Tactic.IntervalCases
import System6502.Programs.Launch
import System6502.Programs.Rules

/-!
# The bit reorder programs

The first five of the sample programs `bit_reorder_1` to `bit_reorder_7` turn the bits of the byte
at `$0000` around.  They do so with a loop, with tests of its bits, with masks, with straight code
and with code that writes its own operands.
-/

namespace System6502
namespace Programs
namespace BitReorder

open Lib System6502.Frame Processor

/-! ## The programs -/

/-- `bit_reorder_1.s`. -/
def bitReorder1 : Image where
  start := 0x2000
  bytes :=
    [0xA5, 0x00, 0xA2, 0x07, 0xA0, 0x00, 0x6A, 0x48, 0x98, 0x2A, 0xA8, 0x68, 0xCA, 0xD0, 0xF7,
      0x6A, 0x98, 0x2A, 0x85, 0x00]

/-- `bit_reorder_2.s`. -/
def bitReorder2 : Image where
  start := 0x2000
  bytes :=
    [0xA5, 0x00, 0x6A, 0xB0, 0x04, 0xA0, 0x00, 0xF0, 0x02, 0xA0, 0x01, 0xA2, 0x06, 0x6A, 0x48,
      0x98, 0x2A, 0xA8, 0x68, 0xCA, 0xD0, 0xF7, 0x6A, 0x98, 0x2A, 0x85, 0x00]

/-- `bit_reorder_3.s`. -/
def bitReorder3 : Image where
  start := 0x2000
  bytes :=
    [0xA5, 0x00, 0xAA, 0x0A, 0x0A, 0x0A, 0x0A, 0x85, 0x00, 0x8A, 0x4A, 0x4A, 0x4A, 0x4A, 0x05,
      0x00, 0xAA, 0x29, 0xCC, 0x4A, 0x4A, 0x85, 0x00, 0x8A, 0x29, 0x33, 0x0A, 0x0A, 0x05, 0x00,
      0xAA, 0x29, 0xAA, 0x4A, 0x85, 0x00, 0x8A, 0x29, 0x55, 0x0A, 0x05, 0x00, 0x85, 0x00]

/-- `bit_reorder_4.s`. -/
def bitReorder4 : Image where
  start := 0x2000
  bytes :=
    [0xA5, 0x00, 0xA0, 0x00, 0x6A, 0xAA, 0x98, 0x2A, 0xA8, 0x8A, 0x6A, 0xAA, 0x98, 0x2A, 0xA8,
      0x8A, 0x6A, 0xAA, 0x98, 0x2A, 0xA8, 0x8A, 0x6A, 0xAA, 0x98, 0x2A, 0xA8, 0x8A, 0x6A, 0xAA,
      0x98, 0x2A, 0xA8, 0x8A, 0x6A, 0xAA, 0x98, 0x2A, 0xA8, 0x8A, 0x6A, 0xAA, 0x98, 0x2A, 0xA8,
      0x8A, 0x6A, 0xAA, 0x98, 0x2A, 0x85, 0x00]

/-- `bit_reorder_5.s`; the operands at `NIBBLE_OR`, `DOUBLET_OR` and `SINGLET_OR` are its own. -/
def bitReorder5 : Image where
  start := 0x2000
  bytes :=
    [0xA5, 0x00, 0xAA, 0x0A, 0x0A, 0x0A, 0x0A, 0x8D, 0x10, 0x20, 0x8A, 0x4A, 0x4A, 0x4A, 0x4A,
      0x09, 0x00, 0xAA, 0x29, 0xCC, 0x4A, 0x4A, 0x8D, 0x1F, 0x20, 0x8A, 0x29, 0x33, 0x0A, 0x0A,
      0x09, 0x00, 0xAA, 0x29, 0xAA, 0x4A, 0x8D, 0x2C, 0x20, 0x8A, 0x29, 0x55, 0x0A, 0x09, 0x00,
      0x85, 0x00]
  holes := [0x2010, 0x201F, 0x202C]

/-- What a program does: it turns around the byte at `$0000` in some cycles, and touches no other
byte but those on the stack page and the operands that are its own. -/
structure Reorders (image : Image) (cyclesOf : Byte → Nat) (before : Core Ram) (cycles : Nat)
    (after : Core Ram) : Prop where
  /-- The byte. -/
  reversed : after.memory 0x0000 = (before.memory 0x0000).reverse
  /-- Its cycles. -/
  cycles_eq : cycles = cyclesOf (before.memory 0x0000)
  /-- The other bytes. -/
  kept : ∀ address, address ≠ 0x0000 → address ∉ image.holes → (∀ SP, address ≠ stackAddress SP) →
    after.memory address = before.memory address

/-! ## Masks -/

/-- Swap the nibbles. -/
def nibbles (byte : Byte) : Byte :=
  (byte >>> 1 >>> 1 >>> 1 >>> 1) ||| (byte <<< 1 <<< 1 <<< 1 <<< 1)

/-- Swap the pairs of bits in each nibble. -/
def doublets (byte : Byte) : Byte :=
  ((byte &&& 0x33) <<< 1 <<< 1) ||| ((byte &&& 0xCC) >>> 1 >>> 1)

/-- Swap the bits in each pair. -/
def singlets (byte : Byte) : Byte := ((byte &&& 0x55) <<< 1) ||| ((byte &&& 0xAA) >>> 1)

theorem swaps : ∀ byte : Byte, singlets (doublets (nibbles byte)) = byte.reverse := by
  decide +kernel

theorem completes_masks :
    bitReorder3.Completes (fun _ => True) (Reorders bitReorder3 fun _ => 72) := by
  rintro ⟨memory, registers⟩ inMemory -
  rw [show bitReorder3.start = 0x2000 from rfl, of]
  dsimp only
  refine .LDA (.zeropage 0x00) (by dsimp only; rfl) ?_
  refine .TAX (by dsimp only; rfl) ?_
  refine .ASL (by dsimp only; rfl) ?_
  refine .ASL (by dsimp only; rfl) ?_
  refine .ASL (by dsimp only; rfl) ?_
  refine .ASL (by dsimp only; rfl) ?_
  refine .STA (.zeropage 0x00) (by dsimp only; rfl) rfl ?_
  refine .TXA (by dsimp only; rfl) ?_
  refine .LSR (by dsimp only; rfl) ?_
  refine .LSR (by dsimp only; rfl) ?_
  refine .LSR (by dsimp only; rfl) ?_
  refine .LSR (by dsimp only; rfl) ?_
  refine .ORA (.zeropage 0x00) (by dsimp only; rfl) ?_
  refine .TAX (by dsimp only; rfl) ?_
  refine .AND (.immediate 0xCC) (by dsimp only; rfl) ?_
  refine .LSR (by dsimp only; rfl) ?_
  refine .LSR (by dsimp only; rfl) ?_
  refine .STA (.zeropage 0x00) (by dsimp only; rfl) rfl ?_
  refine .TXA (by dsimp only; rfl) ?_
  refine .AND (.immediate 0x33) (by dsimp only; rfl) ?_
  refine .ASL (by dsimp only; rfl) ?_
  refine .ASL (by dsimp only; rfl) ?_
  refine .ORA (.zeropage 0x00) (by dsimp only; rfl) ?_
  refine .TAX (by dsimp only; rfl) ?_
  refine .AND (.immediate 0xAA) (by dsimp only; rfl) ?_
  refine .LSR (by dsimp only; rfl) ?_
  refine .STA (.zeropage 0x00) (by dsimp only; rfl) rfl ?_
  refine .TXA (by dsimp only; rfl) ?_
  refine .AND (.immediate 0x55) (by dsimp only; rfl) ?_
  refine .ASL (by dsimp only; rfl) ?_
  refine .ORA (.zeropage 0x00) (by dsimp only; rfl) ?_
  refine .STA (.zeropage 0x00) (by dsimp only; rfl) rfl ?_
  refine .here ⟨by dsimp only; rfl, ?_⟩
  refine ⟨swaps (memory 0x0000), by dsimp only; rfl, fun address other own _ => ?_⟩
  refine inMemory.kept ?_
  iterate 4 refine (Function.update_of_ne other _ _).trans ?_
  rfl

theorem completes_patches :
    bitReorder5.Completes (fun _ => True) (Reorders bitReorder5 fun _ => 72) := by
  rintro ⟨memory, registers⟩ inMemory -
  rw [show bitReorder5.start = 0x2000 from rfl, of]
  dsimp only
  refine .LDA (.zeropage 0x00) (by dsimp only; rfl) ?_
  refine .TAX (by dsimp only; rfl) ?_
  refine .ASL (by dsimp only; rfl) ?_
  refine .ASL (by dsimp only; rfl) ?_
  refine .ASL (by dsimp only; rfl) ?_
  refine .ASL (by dsimp only; rfl) ?_
  refine .STA (.absolute 0x2010) (by dsimp only; rfl) rfl ?_
  refine .TXA (by dsimp only; rfl) ?_
  refine .LSR (by dsimp only; rfl) ?_
  refine .LSR (by dsimp only; rfl) ?_
  refine .LSR (by dsimp only; rfl) ?_
  refine .LSR (by dsimp only; rfl) ?_
  refine .ORA .patched (by dsimp only; rfl) ?_
  dsimp only [Operand.value, Operand.address]
  refine .TAX (by dsimp only; rfl) ?_
  refine .AND (.immediate 0xCC) (by dsimp only; rfl) ?_
  refine .LSR (by dsimp only; rfl) ?_
  refine .LSR (by dsimp only; rfl) ?_
  refine .STA (.absolute 0x201F) (by dsimp only; rfl) rfl ?_
  refine .TXA (by dsimp only; rfl) ?_
  refine .AND (.immediate 0x33) (by dsimp only; rfl) ?_
  refine .ASL (by dsimp only; rfl) ?_
  refine .ASL (by dsimp only; rfl) ?_
  refine .ORA .patched (by dsimp only; rfl) ?_
  dsimp only [Operand.value, Operand.address]
  refine .TAX (by dsimp only; rfl) ?_
  refine .AND (.immediate 0xAA) (by dsimp only; rfl) ?_
  refine .LSR (by dsimp only; rfl) ?_
  refine .STA (.absolute 0x202C) (by dsimp only; rfl) rfl ?_
  refine .TXA (by dsimp only; rfl) ?_
  refine .AND (.immediate 0x55) (by dsimp only; rfl) ?_
  refine .ASL (by dsimp only; rfl) ?_
  refine .ORA .patched (by dsimp only; rfl) ?_
  dsimp only [Operand.value, Operand.address]
  refine .STA (.zeropage 0x00) (by dsimp only; rfl) rfl ?_
  refine .here ⟨by dsimp only; rfl, ?_⟩
  refine ⟨swaps (memory 0x0000), rfl, fun address other own _ => ?_⟩
  refine inMemory.kept ?_
  refine (Function.update_of_ne other _ _).trans ?_
  simp only [bitReorder5, List.mem_cons, List.not_mem_nil, or_false, not_or] at own
  refine (Function.update_of_ne own.2.2 _ _).trans ?_
  refine (Function.update_of_ne own.2.1 _ _).trans ?_
  exact Function.update_of_ne own.1 _ _

/-! ## Turns -/

/-- A bit leaves the accumulator at its low end and enters the index register `Y` there. -/
def turn (state : Byte × Byte × Bool) : Byte × Byte × Bool :=
  ((state.1 >>> 1) ||| (if state.2.2 then 0x80 else 0),
    (state.2.1 <<< 1) ||| (if state.1.getLsbD 0 then 0x01 else 0), state.2.1.getLsbD 7)

/-- Eight turns move every bit. -/
theorem turns : ∀ (byte : Byte) (C : Bool), (turn^[8] (byte, 0, C)).2.1 = byte.reverse := by
  decide +kernel

/-- The last turn needs no more than the index register `Y` and the carry. -/
theorem last_turn {A Y : Byte} {C : Bool} {count : Nat} {start : Byte × Byte × Bool}
    (turned : (A, Y, C) = turn^[count] start) :
    (Y <<< 1) ||| (if A.getLsbD 0 then 0x01 else 0) = (turn^[count + 1] start).2.1 := by
  rw [Function.iterate_succ_apply', ← turned]
  rfl

/-- The loop of `bit_reorder_1.s` and `bit_reorder_2.s` at an address. -/
structure LoopAt (image : Image) (head : Word) : Prop where
  ROR : image.fetches head .ROR .accumulator [] = true
  PHA : image.fetches (head + 1) .PHA .implied [] = true
  TYA : image.fetches (head + 2) .TYA .implied [] = true
  ROL : image.fetches (head + 3) .ROL .accumulator [] = true
  TAY : image.fetches (head + 4) .TAY .implied [] = true
  PLA : image.fetches (head + 5) .PLA .implied [] = true
  DEX : image.fetches (head + 6) .DEX .implied [] = true
  BNE : image.fetches (head + 7) .BNE .relative [0xF7] = true
  /-- The branch goes back to the head. -/
  back : head + 9 + (0xF7 : Byte).signExtend 16 = head
  /-- The branch stays within its page. -/
  page : head.SamePage (head + 9)
  /-- The stack page is free of code. -/
  stackClear : image.StackClear

/-- What some turns of the loop leave. -/
structure Turned (processor : Processor) (count : Nat) (final : Processor) : Prop where
  /-- The bits. -/
  turned : (final.A, final.Y, final.status.C) =
    turn^[count] (processor.A, processor.Y, processor.status.C)
  /-- The memory around the stack page. -/
  kept : ∀ address, (∀ SP, address ≠ stackAddress SP) →
    final.data address = processor.data address

namespace LoopAt

variable {image : Image} {head : Word} {processor : Processor} {spent : Nat}
  {post : Nat → Processor → Prop}

/-- One turn, up to the branch. -/
theorem body (loop : LoopAt image head) (here : processor.PC = head)
    (further : ∀ final : Processor, final.PC = head + 7 → final.X = processor.X - 1 →
      final.status.Z = (processor.X - 1 == 0) → Turned processor 1 final →
        final.Runs image (spent + 17) post) :
    processor.Runs image spent post := by
  obtain ⟨A, X, Y, SP, PC, status, data⟩ := processor
  dsimp only at here
  subst here
  refine .ROR loop.ROR ?_
  refine .PHA loop.stackClear loop.PHA ?_
  refine .TYA (by simpa [BitVec.add_assoc] using loop.TYA) ?_
  refine .ROL (by simpa [BitVec.add_assoc] using loop.ROL) ?_
  refine .TAY (by simpa [BitVec.add_assoc] using loop.TAY) ?_
  refine .PLA loop.stackClear (by simpa [BitVec.add_assoc] using loop.PLA) ?_
  refine .DEX (by simpa [BitVec.add_assoc] using loop.DEX) ?_
  refine further _ (by simp [BitVec.add_assoc]) rfl rfl ⟨?_, ?_⟩
  · exact Prod.ext (top_push { A := 0, X, Y, SP, PC, status, data } _) rfl
  · intro address other
    exact Function.update_of_ne (other SP) _ _

/-- The loop makes as many turns as the index register `X` says. -/
theorem runs (loop : LoopAt image head) (count : Nat) (here : processor.PC = head)
    (X_eq : processor.X = BitVec.ofNat 8 (count + 1)) (count_lt : count < 255)
    (further : ∀ final : Processor, final.PC = head + 9 → Turned processor (count + 1) final →
      final.Runs image (spent + (20 * count + 19)) post) : processor.Runs image spent post := by
  induction count generalizing processor spent with
  | zero =>
      refine loop.body here fun middle middle_PC _ Z_eq turned => ?_
      rw [X_eq] at Z_eq
      refine .BNE_passed 0xF7 (middle_PC ▸ loop.BNE) Z_eq ?_
      exact further _ (by simp [middle_PC, BitVec.add_assoc]) ⟨turned.turned, turned.kept⟩
  | succ count ih =>
      refine loop.body here fun middle middle_PC counted Z_eq turned => ?_
      have left_eq : processor.X - 1 = BitVec.ofNat 8 (count + 1) := by
        rw [X_eq, BitVec.ofNat_add]
        exact BitVec.add_sub_cancel _ _
      have nonzero : BitVec.ofNat 8 (count + 1) ≠ 0 := fun zero => by
        have := congrArg BitVec.toNat zero
        rw [BitVec.toNat_ofNat, Nat.mod_eq_of_lt (by omega)] at this
        cases this
      rw [left_eq] at counted Z_eq
      have past : middle.PC + 2 = head + 9 := by simp [middle_PC, BitVec.add_assoc]
      refine .BNE_taken 0xF7 (middle_PC ▸ loop.BNE) ?_ (Z_eq.trans (beq_false_of_ne nonzero)) ?_
      · rw [past, loop.back]
        exact loop.page
      · rw [past, loop.back]
        refine ih rfl counted (by omega) fun final final_PC rest => ?_
        refine (congrArg (final.Runs image · post) (by omega)).mp (further final final_PC ⟨?_, ?_⟩)
        · exact rest.turned.trans (congrArg turn^[count + 1] turned.turned)
        · exact fun address other => (rest.kept address other).trans (turned.kept address other)

end LoopAt

theorem completes_loop :
    bitReorder1.Completes (fun _ => True) (Reorders bitReorder1 fun _ => 155) := by
  rintro ⟨memory, registers⟩ inMemory -
  rw [show bitReorder1.start = 0x2000 from rfl, of]
  dsimp only
  have loop : LoopAt bitReorder1 0x2006 :=
    ⟨rfl, rfl, rfl, rfl, rfl, rfl, rfl, rfl, rfl, rfl, by decide +kernel⟩
  refine .LDA (.zeropage 0x00) (by dsimp only; rfl) ?_
  refine .LDX (.immediate 0x07) (by dsimp only; rfl) ?_
  refine .LDY (.immediate 0x00) (by dsimp only; rfl) ?_
  refine loop.runs 6 rfl rfl (by decide) fun final final_PC turned => ?_
  obtain ⟨A, X, Y, SP, PC, status, data⟩ := final
  obtain ⟨turned, kept⟩ := turned
  dsimp only at final_PC turned kept
  subst final_PC
  refine .ROR (by dsimp only; rfl) ?_
  refine .TYA (by dsimp only; rfl) ?_
  refine .ROL (by dsimp only; rfl) ?_
  refine .STA (.zeropage 0x00) (by dsimp only; rfl) rfl ?_
  refine .here ⟨by dsimp only; rfl, ?_, rfl, fun address other _ away => ?_⟩
  · exact (last_turn turned).trans (turns _ _)
  · refine inMemory.kept ?_
    exact (Function.update_of_ne other _ _).trans (kept address away)

/-- The first turn of `bit_reorder_2.s` takes tests instead of a rotation. -/
theorem turns_tested : ∀ (byte : Byte) (C : Bool),
    (turn^[7] ((byte >>> 1) ||| (if C then 0x80 else 0), if byte.getLsbD 0 then 0x01 else 0x00,
      byte.getLsbD 0)).2.1 = byte.reverse := by
  decide +kernel

/-- What the tests of `bit_reorder_2.s` leave. -/
structure Tested (byte : Byte) (C : Bool) (memory : Ram) (cycles : Nat) (next : Processor) :
    Prop where
  PC_eq : next.PC = 0x200B
  A_eq : next.A = (byte >>> 1) ||| (if C then 0x80 else 0)
  Y_eq : next.Y = if byte.getLsbD 0 then 0x01 else 0x00
  C_eq : next.status.C = byte.getLsbD 0
  data_eq : next.data = memory
  cycles_eq : cycles = if byte.getLsbD 0 then 10 else 12

theorem tests (A X Y SP : Byte) (status : Status) (memory : Ram) :
    Processor.Runs bitReorder2 { A, X, Y, SP, PC := 0x2000, status, data := memory } 0
      (Tested (memory 0x0000) status.C memory) := by
  refine .LDA (.zeropage 0x00) (by dsimp only; rfl) ?_
  refine .ROR (by dsimp only; rfl) ?_
  cases bit : (memory 0x0000).getLsbD 0 with
  | false =>
      refine .BCS_passed 0x04 (by dsimp only; rfl) bit ?_
      refine .LDY (.immediate 0x00) (by dsimp only; rfl) ?_
      refine .BEQ_taken 0x02 (by dsimp only; rfl) (by dsimp only; decide) rfl ?_
      have clear := ne_true_of_eq_false bit
      exact .here ⟨by dsimp only; rfl, rfl, (if_neg clear).symm, rfl, rfl, (if_neg clear).symm⟩
  | true =>
      refine .BCS_taken 0x04 (by dsimp only; rfl) (by dsimp only; decide) bit ?_
      refine .LDY (.immediate 0x01) (by dsimp only; rfl) ?_
      exact .here ⟨by dsimp only; rfl, rfl, (if_pos bit).symm, rfl, rfl, (if_pos bit).symm⟩

theorem completes_tests :
    bitReorder2.Completes (fun _ => True)
      (Reorders bitReorder2 fun byte => if byte.getLsbD 0 then 140 else 142) := by
  rintro ⟨memory, registers⟩ inMemory -
  rw [show bitReorder2.start = 0x2000 from rfl, of]
  dsimp only
  have loop : LoopAt bitReorder2 0x200D :=
    ⟨rfl, rfl, rfl, rfl, rfl, rfl, rfl, rfl, rfl, rfl, by decide +kernel⟩
  refine (tests _ _ _ _ _ _).bind fun cycles next tested => ?_
  obtain ⟨A, X, Y, SP, PC, status, data⟩ := next
  obtain ⟨rfl, rfl, rfl, C_eq, data_eq, rfl⟩ := tested
  dsimp only at data_eq
  subst data_eq
  refine .LDX (.immediate 0x06) (by dsimp only; rfl) ?_
  refine loop.runs 5 rfl rfl (by decide) fun final final_PC turned => ?_
  obtain ⟨A, X, Y, SP, PC, status, data⟩ := final
  obtain ⟨turned, kept⟩ := turned
  dsimp only at final_PC turned kept C_eq
  subst final_PC
  refine .ROR (by dsimp only; rfl) ?_
  refine .TYA (by dsimp only; rfl) ?_
  refine .ROL (by dsimp only; rfl) ?_
  refine .STA (.zeropage 0x00) (by dsimp only; rfl) rfl ?_
  refine .here ⟨by dsimp only; rfl, ?_, ?_, fun address other _ away => ?_⟩
  · rw [Status.settle, C_eq] at turned
    exact (last_turn turned).trans (turns_tested _ _)
  · dsimp only [Operand.calls, Operand.storeCalls]
    split <;> rfl
  · refine inMemory.kept ?_
    exact (Function.update_of_ne other _ _).trans (kept address away)

/-! ## Straight code -/

/-- The lines of `bit_reorder_4.s` that make one turn. -/
structure TurnAt (image : Image) (place : Word) : Prop where
  ROR : image.fetches place .ROR .accumulator [] = true
  TAX : image.fetches (place + 1) .TAX .implied [] = true
  TYA : image.fetches (place + 2) .TYA .implied [] = true
  ROL : image.fetches (place + 3) .ROL .accumulator [] = true
  TAY : image.fetches (place + 4) .TAY .implied [] = true
  TXA : image.fetches (place + 5) .TXA .implied [] = true

theorem TurnAt.runs {image : Image} {place : Word} (lines : TurnAt image place)
    {processor : Processor} {spent : Nat} {post : Nat → Processor → Prop}
    (here : processor.PC = place)
    (further : ∀ final : Processor, final.PC = place + 6 → Turned processor 1 final →
      final.Runs image (spent + 12) post) : processor.Runs image spent post := by
  obtain ⟨A, X, Y, SP, PC, status, data⟩ := processor
  dsimp only at here
  subst here
  refine .ROR lines.ROR ?_
  refine .TAX lines.TAX ?_
  refine .TYA (by simpa [BitVec.add_assoc] using lines.TYA) ?_
  refine .ROL (by simpa [BitVec.add_assoc] using lines.ROL) ?_
  refine .TAY (by simpa [BitVec.add_assoc] using lines.TAY) ?_
  refine .TXA (by simpa [BitVec.add_assoc] using lines.TXA) ?_
  exact further _ (by simp [BitVec.add_assoc]) ⟨rfl, fun _ _ => rfl⟩

/-- Turns one after another. -/
theorem TurnAt.runs_all {image : Image} {place : Word} (count : Nat)
    (lines : ∀ index < count, TurnAt image (place + BitVec.ofNat 16 (6 * index)))
    {processor : Processor} {spent : Nat} {post : Nat → Processor → Prop}
    (here : processor.PC = place)
    (further : ∀ final : Processor, final.PC = place + BitVec.ofNat 16 (6 * count) →
      Turned processor count final → final.Runs image (spent + 12 * count) post) :
    processor.Runs image spent post := by
  induction count generalizing post with
  | zero => exact further processor (by simp [here]) ⟨rfl, fun _ _ => rfl⟩
  | succ count ih =>
      refine ih (fun index below => lines index (by omega)) fun middle middle_PC turned => ?_
      refine (lines count (by omega)).runs middle_PC fun final final_PC last => ?_
      refine further final ?_ ⟨?_, ?_⟩
      · rw [Nat.mul_succ, BitVec.ofNat_add, ← BitVec.add_assoc]
        exact final_PC
      · rw [Function.iterate_succ_apply', ← turned.turned]
        exact last.turned
      · exact fun address away => (last.kept address away).trans (turned.kept address away)

theorem completes_straight :
    bitReorder4.Completes (fun _ => True) (Reorders bitReorder4 fun _ => 100) := by
  rintro ⟨memory, registers⟩ inMemory -
  rw [show bitReorder4.start = 0x2000 from rfl, of]
  dsimp only
  have lines : ∀ index < 7, TurnAt bitReorder4 (0x2004 + BitVec.ofNat 16 (6 * index)) := by
    intro index below
    interval_cases index <;> exact ⟨rfl, rfl, rfl, rfl, rfl, rfl⟩
  refine .LDA (.zeropage 0x00) (by dsimp only; rfl) ?_
  refine .LDY (.immediate 0x00) (by dsimp only; rfl) ?_
  refine TurnAt.runs_all 7 lines rfl fun final final_PC turned => ?_
  obtain ⟨A, X, Y, SP, PC, status, data⟩ := final
  obtain ⟨turned, kept⟩ := turned
  dsimp only at final_PC turned kept
  subst final_PC
  refine .ROR (by dsimp only; rfl) ?_
  refine .TAX (by dsimp only; rfl) ?_
  refine .TYA (by dsimp only; rfl) ?_
  refine .ROL (by dsimp only; rfl) ?_
  refine .STA (.zeropage 0x00) (by dsimp only; rfl) rfl ?_
  refine .here ⟨by dsimp only; rfl, ?_, rfl, fun address other _ away => ?_⟩
  · exact (last_turn turned).trans (turns _ _)
  · refine inMemory.kept ?_
    exact (Function.update_of_ne other _ _).trans (kept address away)

/-! ## All of them -/

/-- The programs and their cycles for each byte. -/
def samples : List (Image × (Byte → Nat)) :=
  [(bitReorder1, fun _ => 155), (bitReorder2, fun byte => if byte.getLsbD 0 then 140 else 142),
    (bitReorder3, fun _ => 72), (bitReorder4, fun _ => 100), (bitReorder5, fun _ => 72)]

theorem completes : ∀ sample ∈ samples,
    sample.1.Completes (fun _ => True) (Reorders sample.1 sample.2) := by
  simp only [samples, List.forall_mem_cons]
  exact ⟨completes_loop, completes_tests, completes_masks, completes_straight, completes_patches,
    fun _ absent => absurd absent List.not_mem_nil⟩

variable {δ : Type*} [DecidableEq δ] {kinds : δ → StorageKind}

/-- A staged launch of each of the five programs, undisturbed and on read-write storage modules that
back every address, none of them in the pre-op tier, returns with the byte at `$0000` turned around,
in the cycles of the program. -/
theorem execute_reorders (loop : RunLoop) (staged : loop.mode = .staged)
    {executor : Executor (DeviceBus (Bus.storageModule kinds))} (full : executor.memory.Full)
    (base : executor.dialect = .base) {sample : Image × (Byte → Nat)} (listed : sample ∈ samples)
    (inMemory : sample.1.InMemory executor.memory.bytes) (residue : Loop) :
    ∃ steps, ∀ inputs : List Input, (∀ input ∈ inputs, input.requests = []) →
      steps ≤ inputs.length →
        let outcome := (loop.execute executor sample.1.range sample.1.start residue inputs).1
        outcome.location = .returned ∧ outcome.executor.memory.Full ∧
          Reorders sample.1 sample.2 executor.flattened.core outcome.loop.totalCycles
            outcome.executor.flattened.core :=
  loop.execute_program (completes sample listed) staged full base inMemory trivial residue

/-- `bit_reorder_5.s` leaves `$B3` for the `$CD` of `bit_reorder_tests.sh`. -/
theorem execute_reorders_patches : ∃ steps, ∀ inputs : List Input,
    (∀ input ∈ inputs, input.requests = []) → steps ≤ inputs.length →
      ((executorLaunchStagedVerbose none).execute (bitReorder5.machine fun _ => 0xCD)
        bitReorder5.range 0x2000 Loop.zero inputs).1.executor.memory.bytes 0x0000 = 0xB3 := by
  have full : (bitReorder5.machine fun _ => 0xCD).memory.Full := DeviceBus.full_default _ _
  obtain ⟨steps, ends⟩ := execute_reorders (executorLaunchStagedVerbose none) rfl full rfl
    (by simp [samples] : (bitReorder5, fun _ => 72) ∈ samples)
    (Image.inMemory_machine _ (by decide)) Loop.zero
  refine ⟨steps, fun inputs quiet enough => ?_⟩
  refine (ends inputs quiet enough).2.2.reversed.trans ?_
  have poked : (bitReorder5.machine fun _ => 0xCD).memory.bytes 0x0000 = 0xCD :=
    DeviceBus.bytes_default _ _ _
  exact (congrArg BitVec.reverse poked).trans (by decide)

end BitReorder
end Programs
end System6502
