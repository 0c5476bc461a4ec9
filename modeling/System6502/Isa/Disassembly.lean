import Mathlib.Data.List.Chain
import System6502.Isa.Table
import System6502.Membus.Range

/-!
# Static disassembly

The loop of `isa_6502_static_disassembly`, whose address is a 16-bit word, against the boundaries of
the instruction stream, which are not.
-/

namespace System6502

/-! ## The loop -/

/-- A line of the disassembly: the values that are passed to `fprintf`. -/
inductive DisassemblyLine
  /-- A byte without an instruction. -/
  | data (addr : Word) (byte : Byte)
  /-- An instruction; the format is that of its addressing mode. -/
  | instruction (addr : Word) (opcode : Byte) (mode : AddressingMode) (operand target : Word)

namespace DisassemblyLine

/-- The address of a line. -/
def addr : DisassemblyLine → Word
  | data addr _ => addr
  | instruction addr _ _ _ _ => addr

end DisassemblyLine

namespace Dialect

/-- The bytes of the instruction, or of the data byte, that starts with a byte. -/
def byteCount (dialect : Dialect) (opcode : Byte) : Nat :=
  1 + (dialect.lookup opcode).addressingMode.operandCount.getD 0

/-- The operand that is read after the opcode at an address; `stale` is what the variable holds. -/
def readOperand (memory : Ram) (addr stale : Word) : Nat → Word
  | 0 => stale
  | 1 => (memory (addr + 1)).toWord
  | _ => Word.littleEndian (memory (addr + 1)) (memory (addr + 2))

/-- One turn of the loop of `isa_6502_static_disassembly`: the line and the operand it leaves. -/
def disassembleAt (dialect : Dialect) (memory : Ram) (addr stale : Word) :
    DisassemblyLine × Word :=
  let opcode := memory addr
  let mode := (dialect.lookup opcode).addressingMode
  match mode.operandCount with
  | none => (.data addr opcode, stale)
  | some count =>
      let operand := readOperand memory addr stale count
      (.instruction addr opcode mode operand
        (addr + 1 + BitVec.ofNat 16 count + operand.low.signExtend 16), operand)

/-- The loop of `isa_6502_static_disassembly` for a number of turns. -/
def disassembleFrom (dialect : Dialect) (memory : Ram) (addrEnd : Nat) :
    Nat → Word → Word → Option (List DisassemblyLine)
  | 0, _, _ => none
  | turns + 1, stale, addr =>
      if addr.toNat < addrEnd then
        let (line, operand) := dialect.disassembleAt memory addr stale
        (dialect.disassembleFrom memory addrEnd turns operand
          (addr + BitVec.ofNat 16 (dialect.byteCount (memory addr)))).map (line :: ·)
      else some []

/-- `isa_6502_static_disassembly` for a number of turns; its operand is uninitialised at first. -/
def staticDisassembly (dialect : Dialect) (memory : Ram) (range : MemoryAddrRange)
    (stale : Word) (turns : Nat) : Option (List DisassemblyLine) :=
  dialect.disassembleFrom memory (range.addrLo.toNat + range.addrLen.toNat) turns stale
    range.addrLo

end Dialect

/-! ## Instruction boundaries -/

section Boundaries

variable (dialect : Dialect) (memory : Ram)

/-- The bytes of the instruction or data byte at an address. -/
def Dialect.lengthAt (address : Nat) : Nat :=
  dialect.byteCount (memory (BitVec.ofNat 16 address))

/-- The places, not wrapped, where the instructions and data bytes from a first one on start. -/
inductive Boundary (first : Nat) : Nat → Prop
  /-- The first one. -/
  | first : Boundary first first
  /-- The one after another. -/
  | next {address : Nat} (boundary : Boundary first address) :
      Boundary first (address + dialect.lengthAt memory address)

/-- No instruction or data byte that starts in the range reaches the end of memory. -/
def StaysBelowTop (range : MemoryAddrRange) : Prop :=
  ∀ address, Boundary dialect memory range.addrLo.toNat address →
    address < range.addrLo.toNat + range.addrLen.toNat →
      address + dialect.lengthAt memory address ≤ 0xFFFF

/-- The lines cover a range: they start at its first address, ascend inside it, and each follows
the bytes of the one before. -/
structure CoversRange (range : MemoryAddrRange) (lines : List DisassemblyLine) : Prop where
  /-- The first line. -/
  starts : range.addrLen ≠ 0 → lines.head?.map DisassemblyLine.addr = some range.addrLo
  /-- The addresses ascend. -/
  ascends : lines.Pairwise fun earlier later => earlier.addr < later.addr
  /-- The addresses lie in the range. -/
  inside : ∀ line ∈ lines, range.doesInclude line.addr
  /-- A line follows the bytes of the one before. -/
  follows : lines.IsChain fun line next =>
    next.addr.toNat = line.addr.toNat + dialect.byteCount (memory line.addr)

end Boundaries

namespace Dialect

variable {dialect : Dialect} {memory : Ram}

theorem byteCount_bounds (dialect : Dialect) (opcode : Byte) :
    1 ≤ dialect.byteCount opcode ∧ dialect.byteCount opcode ≤ 3 := by
  rw [byteCount]
  cases (dialect.lookup opcode).addressingMode <;> decide

@[simp]
theorem disassembleAt_addr (addr stale : Word) :
    (dialect.disassembleAt memory addr stale).1.addr = addr := by
  rw [disassembleAt]
  cases (dialect.lookup (memory addr)).addressingMode.operandCount <;> rfl

/-- A turn that finds its address below the end prints a line and goes on after its bytes. -/
theorem disassembleFrom_eq_some_iff {addrEnd turns : Nat} {stale addr : Word}
    {lines : List DisassemblyLine} (below : addr.toNat < addrEnd) :
    dialect.disassembleFrom memory addrEnd (turns + 1) stale addr = some lines ↔
      ∃ rest, dialect.disassembleFrom memory addrEnd turns
          (dialect.disassembleAt memory addr stale).2
          (addr + BitVec.ofNat 16 (dialect.byteCount (memory addr))) = some rest ∧
        (dialect.disassembleAt memory addr stale).1 :: rest = lines := by
  rw [disassembleFrom, if_pos below]
  exact Option.map_eq_some_iff

theorem disassembleFrom_above {addrEnd : Nat} {stale addr : Word} (above : addrEnd ≤ addr.toNat) :
    dialect.disassembleFrom memory addrEnd 1 stale addr = some [] :=
  if_neg (Nat.not_lt.mpr above)

end Dialect

/-! ## Streams that stay below the top -/

section Stream

variable {dialect : Dialect} {memory : Ram}

theorem Boundary.after_first {first address : Nat}
    (boundary : Boundary dialect memory (first + dialect.lengthAt memory first) address) :
    Boundary dialect memory first address := by
  induction boundary with
  | first => exact .next .first
  | next boundary ih => exact .next ih

/-- While no instruction below the end reaches the top of memory, the loop ends, and its lines
cover what is left of the range. -/
theorem covers_of_below {addrEnd : Nat} (left : Nat) : ∀ address, addrEnd ≤ address + left →
    address < 0x10000 →
    (∀ later, Boundary dialect memory address later → later < addrEnd →
      later + dialect.lengthAt memory later ≤ 0xFFFF) →
    ∀ stale, ∃ turns lines,
      dialect.disassembleFrom memory addrEnd turns stale (BitVec.ofNat 16 address) = some lines ∧
        (address < addrEnd →
          lines.head?.map DisassemblyLine.addr = some (BitVec.ofNat 16 address)) ∧
        (lines.Pairwise fun earlier later => earlier.addr < later.addr) ∧
        (∀ line ∈ lines, address ≤ line.addr.toNat ∧ line.addr.toNat < addrEnd) ∧
        lines.IsChain fun line next =>
          next.addr.toNat = line.addr.toNat + dialect.byteCount (memory line.addr) := by
  induction left with
  | zero =>
      intro address ended address_lt fits stale
      have addr_eq : (BitVec.ofNat 16 address).toNat = address :=
        Nat.mod_eq_of_lt address_lt
      refine ⟨1, [], Dialect.disassembleFrom_above (addr_eq.symm ▸ ended), ?_, .nil, ?_, .nil⟩
      · intro below
        omega
      · intro line line_mem
        cases line_mem
  | succ left ih =>
      intro address left_le address_lt fits stale
      have addr_eq : (BitVec.ofNat 16 address).toNat = address :=
        Nat.mod_eq_of_lt address_lt
      rcases Nat.lt_or_ge address addrEnd with below | above
      · obtain ⟨positive, -⟩ :=
          dialect.byteCount_bounds (memory (BitVec.ofNat 16 address))
        have stays := fits address .first below
        have next_eq : BitVec.ofNat 16 address +
            BitVec.ofNat 16 (dialect.byteCount (memory (BitVec.ofNat 16 address))) =
              BitVec.ofNat 16 (address + dialect.lengthAt memory address) :=
          (BitVec.ofNat_add _ _).symm
        have later_lt : address + dialect.lengthAt memory address < 0x10000 :=
          Nat.lt_succ_of_le stays
        obtain ⟨turns, rest, run_eq, head_eq, ascends, inside, follows⟩ :=
          ih (address + dialect.lengthAt memory address)
            (by rw [Dialect.lengthAt]; omega) later_lt
            (fun later boundary => fits later boundary.after_first)
            (dialect.disassembleAt memory (BitVec.ofNat 16 address) stale).2
        have later_eq :
            (BitVec.ofNat 16 (address + dialect.lengthAt memory address)).toNat =
              address + dialect.lengthAt memory address := Nat.mod_eq_of_lt later_lt
        refine ⟨turns + 1, _, (Dialect.disassembleFrom_eq_some_iff (addr_eq.symm ▸ below)).mpr
          ⟨rest, next_eq ▸ run_eq, rfl⟩, fun _ => ?_, ?_, ?_, ?_⟩
        · simp
        · refine .cons (fun later later_mem => ?_) ascends
          have := (inside later later_mem).1
          rw [Dialect.disassembleAt_addr, BitVec.lt_def, addr_eq]
          rw [Dialect.lengthAt] at this
          omega
        · refine List.forall_mem_cons.mpr ⟨?_, fun later later_mem => ?_⟩
          · rw [Dialect.disassembleAt_addr, addr_eq]
            exact ⟨Nat.le_refl _, below⟩
          · exact ⟨Nat.le_trans (Nat.le_add_right _ _) (inside later later_mem).1,
              (inside later later_mem).2⟩
        · refine List.isChain_cons.mpr ⟨fun next next_mem => ?_, follows⟩
          obtain ⟨above, inEnd⟩ := inside next (List.mem_of_head? next_mem)
          have first_eq := head_eq (Nat.lt_of_le_of_lt above inEnd)
          rw [Option.mem_def.mp next_mem] at first_eq
          rw [Option.some.inj first_eq, later_eq, Dialect.disassembleAt_addr, addr_eq]
          rfl
      · refine ⟨1, [], Dialect.disassembleFrom_above (addr_eq.symm ▸ above), ?_, .nil, ?_, .nil⟩
        · intro below
          omega
        · intro line line_mem
          cases line_mem

/-! ## Streams that reach the top -/

/-- A run that starts below the end prints a line there and goes on as a run. -/
theorem run_cons {addrEnd turns : Nat} {stale addr : Word} {lines : List DisassemblyLine}
    (below : addr.toNat < addrEnd)
    (run_eq : dialect.disassembleFrom memory addrEnd turns stale addr = some lines) :
    ∃ turns line stale rest,
      dialect.disassembleFrom memory addrEnd turns stale
          (addr + BitVec.ofNat 16 (dialect.byteCount (memory addr))) = some rest ∧
        line.addr = addr ∧ lines = line :: rest := by
  cases turns with
  | zero => cases run_eq
  | succ turns =>
      obtain ⟨rest, rest_eq, rfl⟩ := (Dialect.disassembleFrom_eq_some_iff below).mp run_eq
      exact ⟨turns, _, _, rest, rest_eq, Dialect.disassembleAt_addr addr stale, rfl⟩

/-- A run comes to every boundary below the end. -/
theorem run_at_boundary {addrEnd first turns : Nat} {stale : Word} {lines : List DisassemblyLine}
    (addrEnd_le : addrEnd ≤ 0x10000)
    (run_eq : dialect.disassembleFrom memory addrEnd turns stale (BitVec.ofNat 16 first) =
      some lines)
    (follows : lines.IsChain fun line next =>
      next.addr.toNat = line.addr.toNat + dialect.byteCount (memory line.addr))
    {address : Nat} (boundary : Boundary dialect memory first address) :
    address < addrEnd → ∃ turns stale suffix,
      dialect.disassembleFrom memory addrEnd turns stale (BitVec.ofNat 16 address) = some suffix ∧
        suffix.IsChain fun line next =>
          next.addr.toNat = line.addr.toNat + dialect.byteCount (memory line.addr) := by
  induction boundary with
  | first => exact fun _ => ⟨turns, stale, lines, run_eq, follows⟩
  | @next address boundary ih =>
      intro later_lt
      have address_lt : address < addrEnd := Nat.lt_of_le_of_lt (Nat.le_add_right _ _) later_lt
      obtain ⟨turns, stale, suffix, suffix_eq, follows⟩ := ih address_lt
      have addr_eq : (BitVec.ofNat 16 address).toNat = address :=
        Nat.mod_eq_of_lt (Nat.lt_of_lt_of_le address_lt addrEnd_le)
      obtain ⟨turns, line, stale, rest, rest_eq, -, rfl⟩ :=
        run_cons (addr_eq.symm ▸ address_lt) suffix_eq
      rw [← BitVec.ofNat_add] at rest_eq
      exact ⟨turns, stale, rest, rest_eq, follows.tail⟩

/-- A run whose lines follow each other does not pass the top of memory. -/
theorem stays_of_follows {addrEnd address turns : Nat} {stale : Word}
    {lines : List DisassemblyLine} (addrEnd_le : addrEnd ≤ 0x10000) (address_lt : address < addrEnd)
    (run_eq : dialect.disassembleFrom memory addrEnd turns stale (BitVec.ofNat 16 address) =
      some lines)
    (follows : lines.IsChain fun line next =>
      next.addr.toNat = line.addr.toNat + dialect.byteCount (memory line.addr)) :
    address + dialect.lengthAt memory address ≤ 0xFFFF := by
  by_contra passes
  have addr_eq : (BitVec.ofNat 16 address).toNat = address :=
    Nat.mod_eq_of_lt (Nat.lt_of_lt_of_le address_lt addrEnd_le)
  obtain ⟨-, length_le⟩ := dialect.byteCount_bounds (memory (BitVec.ofNat 16 address))
  obtain ⟨turns, line, stale, rest, rest_eq, line_eq, rfl⟩ :=
    run_cons (addr_eq.symm ▸ address_lt) run_eq
  have wrapped : (BitVec.ofNat 16 address +
      BitVec.ofNat 16 (dialect.byteCount (memory (BitVec.ofNat 16 address)))).toNat + 0x10000 =
        address + dialect.byteCount (memory (BitVec.ofNat 16 address)) := by
    rw [Dialect.lengthAt] at passes
    rw [BitVec.toNat_add, addr_eq, BitVec.toNat_ofNat]
    omega
  obtain ⟨_, next, _, later, -, next_eq, rfl⟩ := run_cons (by omega) rest_eq
  have follow := (List.isChain_cons_cons.mp follows).1
  rw [next_eq, line_eq, addr_eq] at follow
  omega

end Stream

/-- Static disassembly ends and its lines cover its range exactly when no instruction that starts
in the range reaches the end of memory. -/
theorem Dialect.staticDisassembly_covers_iff (dialect : Dialect) (memory : Ram)
    (range : MemoryAddrRange) (stale : Word)
    (range_le : range.addrLo.toNat + range.addrLen.toNat ≤ 0x10000) :
    (∃ turns lines, dialect.staticDisassembly memory range stale turns = some lines ∧
      CoversRange dialect memory range lines) ↔ StaysBelowTop dialect memory range := by
  have addrLo_eq : BitVec.ofNat 16 range.addrLo.toNat = range.addrLo := BitVec.ofNat_toNat _ _
  constructor
  · rintro ⟨turns, lines, run_eq, covers⟩ address boundary address_lt
    rw [staticDisassembly, ← addrLo_eq] at run_eq
    obtain ⟨turns, stale, suffix, suffix_eq, follows⟩ :=
      run_at_boundary range_le (by rwa [addrLo_eq] at run_eq ⊢) covers.follows boundary address_lt
    exact stays_of_follows range_le address_lt suffix_eq follows
  · intro stays
    obtain ⟨turns, lines, run_eq, starts, ascends, inside, follows⟩ :=
      covers_of_below range.addrLen.toNat range.addrLo.toNat (Nat.le_refl _) range.addrLo.isLt
        stays stale
    rw [addrLo_eq] at run_eq starts
    refine ⟨turns, lines, run_eq, fun nonempty => starts ?_, ascends, fun line line_mem => ?_,
      follows⟩
    · have : 0 < range.addrLen.toNat :=
        Nat.pos_of_ne_zero fun zero => nonempty (BitVec.eq_of_toNat_eq zero)
      omega
    · obtain ⟨above, below⟩ := inside line line_mem
      simp only [MemoryAddrRange.doesInclude, Bool.and_eq_true, bne_iff_ne, decide_eq_true_eq,
        BitVec.le_def]
      refine ⟨⟨fun empty => ?_, above⟩, below⟩
      rw [empty] at below
      exact absurd below (Nat.not_lt.mpr above)

/-- Two bytes of `NOP`. -/
theorem staticDisassembly_covers_EA :
    ∃ turns lines, Dialect.base.staticDisassembly (fun _ => 0xEA)
        { addrLo := 0x0200, addrLen := 2 } 0 turns = some lines ∧
      CoversRange .base (fun _ => 0xEA) { addrLo := 0x0200, addrLen := 2 } lines := by
  refine (Dialect.staticDisassembly_covers_iff .base (fun _ => 0xEA)
    { addrLo := 0x0200, addrLen := 2 } 0 (by decide)).mpr fun address _ address_lt => ?_
  have below : address < 514 := address_lt
  have := (Dialect.byteCount_bounds .base 0xEA).2
  exact Nat.le_trans (Nat.add_le_add (Nat.le_of_lt below) this) (by decide)

/-- The disassembly of the last address alone does not end. -/
theorem staticDisassembly_endless :
    ¬ ∃ turns lines, Dialect.base.staticDisassembly (fun _ => 0xEA)
      { addrLo := 0xFFFF, addrLen := 1 } 0 turns = some lines := by
  have endless : ∀ turns stale addr, Dialect.base.disassembleFrom (fun _ => 0xEA) 0x10000 turns
      stale addr = none := by
    intro turns
    induction turns with
    | zero => exact fun _ _ => rfl
    | succ turns ih =>
        intro stale addr
        rw [Dialect.disassembleFrom, if_pos addr.isLt]
        exact congrArg (Option.map _) (ih _ _)
  rintro ⟨turns, lines, run_eq⟩
  cases (endless turns 0 0xFFFF).symm.trans run_eq

end System6502
