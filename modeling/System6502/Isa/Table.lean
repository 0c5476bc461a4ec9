import System6502.Isa.Load
import System6502.Isa.Store
import System6502.Isa.Modify
import System6502.Isa.Flow

/-!
# Dispatch tables

The two dispatch tables of the source, indexed by the three fields of an opcode.  Only the blocks
`C = 0`, `1` and `2` have initialisers; every slot of the block `C = 3` holds the record that C's
implicit zero initialisation leaves.
-/

namespace System6502

/-- The instruction functions the tables name; a suffix marks the functions of the 65C02.  The
remaining 65C02 names are aliases of base functions. -/
inductive Routine
  | ADC | AND | ASL | BCC | BCS | BEQ | BIT | BMI | BNE | BPL | BRK | BVC | BVS | CLC | CLD | CLI
  | CLV | CMP | CPX | CPY | DEC | DEX | DEY | EOR | INC | INX | INY | JMP | JSR | LDA | LDX | LDY
  | LSR | NOP | ORA | PHA | PHP | PLA | PLP | ROL | ROR | RTI | RTS | SBC | SEC | SED | SEI | STA
  | STX | STY | TAX | TAY | TSX | TXA | TXS | TYA | ADC65C02 | AND65C02 | ASL65C02 | BIT65C02
  | BRA65C02 | BRK65C02 | CMP65C02 | DEC65C02 | EOR65C02 | INC65C02 | JMP65C02 | LDA65C02
  | LSR65C02 | ORA65C02 | PHX65C02 | PHY65C02 | PLX65C02 | PLY65C02 | ROL65C02 | ROR65C02
  | SBC65C02 | STA65C02 | STZ65C02 | TRB65C02 | TSB65C02
  deriving DecidableEq, Repr

namespace Routine

variable {μ : Type*} [Membus μ]

/-- The staged function of a routine.  The executor always passes `nextCycle` as its stage. -/
def staged : Routine → AddressingMode → Handler μ
  | ADC, mode => isa6502ADC mode
  | AND, mode => isa6502AND mode
  | ASL, mode => isa6502ASL mode
  | BCC, _ => isa6502BCC
  | BCS, _ => isa6502BCS
  | BEQ, _ => isa6502BEQ
  | BIT, mode => isa6502BIT mode
  | BMI, _ => isa6502BMI
  | BNE, _ => isa6502BNE
  | BPL, _ => isa6502BPL
  | BRK, _ => isa6502BRK
  | BVC, _ => isa6502BVC
  | BVS, _ => isa6502BVS
  | CLC, _ => isa6502CLC
  | CLD, _ => isa6502CLD
  | CLI, _ => isa6502CLI
  | CLV, _ => isa6502CLV
  | CMP, mode => isa6502CMP mode
  | CPX, mode => isa6502CPX mode
  | CPY, mode => isa6502CPY mode
  | DEC, mode => isa6502DEC mode
  | DEX, _ => isa6502DEX
  | DEY, _ => isa6502DEY
  | EOR, mode => isa6502EOR mode
  | INC, mode => isa6502INC mode
  | INX, _ => isa6502INX
  | INY, _ => isa6502INY
  | JMP, mode => isa6502JMP mode
  | JSR, _ => isa6502JSR
  | LDA, mode => isa6502LDA mode
  | LDX, mode => isa6502LDX mode
  | LDY, mode => isa6502LDY mode
  | LSR, mode => isa6502LSR mode
  | NOP, _ => isa6502NOP
  | ORA, mode => isa6502ORA mode
  | PHA, _ => isa6502PHA
  | PHP, _ => isa6502PHP
  | PLA, _ => isa6502PLA
  | PLP, _ => isa6502PLP
  | ROL, mode => isa6502ROL mode
  | ROR, mode => isa6502ROR mode
  | RTI, _ => isa6502RTI
  | RTS, _ => isa6502RTS
  | SBC, mode => isa6502SBC mode
  | SEC, _ => isa6502SEC
  | SED, _ => isa6502SED
  | SEI, _ => isa6502SEI
  | STA, mode => isa6502STA mode
  | STX, mode => isa6502STX mode
  | STY, mode => isa6502STY mode
  | TAX, _ => isa6502TAX
  | TAY, _ => isa6502TAY
  | TSX, _ => isa6502TSX
  | TXA, _ => isa6502TXA
  | TXS, _ => isa6502TXS
  | TYA, _ => isa6502TYA
  | ADC65C02, mode => isa65C02ADC mode
  | AND65C02, mode => isa65C02AND mode
  | ASL65C02, mode => isa65C02ASL mode
  | BIT65C02, mode => isa65C02BIT mode
  | BRA65C02, _ => isa65C02BRA
  | BRK65C02, _ => isa65C02BRK
  | CMP65C02, mode => isa65C02CMP mode
  | DEC65C02, mode => isa65C02DEC mode
  | EOR65C02, mode => isa65C02EOR mode
  | INC65C02, mode => isa65C02INC mode
  | JMP65C02, mode => isa65C02JMP mode
  | LDA65C02, mode => isa65C02LDA mode
  | LSR65C02, mode => isa65C02LSR mode
  | ORA65C02, mode => isa65C02ORA mode
  | PHX65C02, _ => isa65C02PHX
  | PHY65C02, _ => isa65C02PHY
  | PLX65C02, _ => isa65C02PLX
  | PLY65C02, _ => isa65C02PLY
  | ROL65C02, mode => isa65C02ROL mode
  | ROR65C02, mode => isa65C02ROR mode
  | SBC65C02, mode => isa65C02SBC mode
  | STA65C02, mode => isa65C02STA mode
  | STZ65C02, mode => isa65C02STZ mode
  | TRB65C02, mode => isa65C02TRB mode
  | TSB65C02, mode => isa65C02TSB .nextCycle mode

/-- The static-mode function of a routine. -/
def static : Routine → AddressingMode → StaticHandler μ
  | ADC, mode => isa6502StaticADC mode
  | AND, mode => isa6502StaticAND mode
  | ASL, mode => isa6502StaticASL mode
  | BCC, _ => isa6502StaticBCC
  | BCS, _ => isa6502StaticBCS
  | BEQ, _ => isa6502StaticBEQ
  | BIT, mode => isa6502StaticBIT mode
  | BMI, _ => isa6502StaticBMI
  | BNE, _ => isa6502StaticBNE
  | BPL, _ => isa6502StaticBPL
  | BRK, _ => isa6502StaticBRK
  | BVC, _ => isa6502StaticBVC
  | BVS, _ => isa6502StaticBVS
  | CLC, _ => isa6502StaticCLC
  | CLD, _ => isa6502StaticCLD
  | CLI, _ => isa6502StaticCLI
  | CLV, _ => isa6502StaticCLV
  | CMP, mode => isa6502StaticCMP mode
  | CPX, mode => isa6502StaticCPX mode
  | CPY, mode => isa6502StaticCPY mode
  | DEC, mode => isa6502StaticDEC mode
  | DEX, _ => isa6502StaticDEX
  | DEY, _ => isa6502StaticDEY
  | EOR, mode => isa6502StaticEOR mode
  | INC, mode => isa6502StaticINC mode
  | INX, _ => isa6502StaticINX
  | INY, _ => isa6502StaticINY
  | JMP, mode => isa6502StaticJMP mode
  | JSR, _ => isa6502StaticJSR
  | LDA, mode => isa6502StaticLDA mode
  | LDX, mode => isa6502StaticLDX mode
  | LDY, mode => isa6502StaticLDY mode
  | LSR, mode => isa6502StaticLSR mode
  | NOP, _ => isa6502StaticNOP
  | ORA, mode => isa6502StaticORA mode
  | PHA, _ => isa6502StaticPHA
  | PHP, _ => isa6502StaticPHP
  | PLA, _ => isa6502StaticPLA
  | PLP, _ => isa6502StaticPLP
  | ROL, mode => isa6502StaticROL mode
  | ROR, mode => isa6502StaticROR mode
  | RTI, _ => isa6502StaticRTI
  | RTS, _ => isa6502StaticRTS
  | SBC, mode => isa6502StaticSBC mode
  | SEC, _ => isa6502StaticSEC
  | SED, _ => isa6502StaticSED
  | SEI, _ => isa6502StaticSEI
  | STA, mode => isa6502StaticSTA mode
  | STX, mode => isa6502StaticSTX mode
  | STY, mode => isa6502StaticSTY mode
  | TAX, _ => isa6502StaticTAX
  | TAY, _ => isa6502StaticTAY
  | TSX, _ => isa6502StaticTSX
  | TXA, _ => isa6502StaticTXA
  | TXS, _ => isa6502StaticTXS
  | TYA, _ => isa6502StaticTYA
  | ADC65C02, mode => isa65C02StaticADC mode
  | AND65C02, mode => isa65C02StaticAND mode
  | ASL65C02, mode => isa65C02StaticASL mode
  | BIT65C02, mode => isa65C02StaticBIT mode
  | BRA65C02, _ => isa65C02StaticBRA
  | BRK65C02, _ => isa65C02StaticBRK
  | CMP65C02, mode => isa65C02StaticCMP mode
  | DEC65C02, mode => isa65C02StaticDEC mode
  | EOR65C02, mode => isa65C02StaticEOR mode
  | INC65C02, mode => isa65C02StaticINC mode
  | JMP65C02, mode => isa65C02StaticJMP mode
  | LDA65C02, mode => isa65C02StaticLDA mode
  | LSR65C02, mode => isa65C02StaticLSR mode
  | ORA65C02, mode => isa65C02StaticORA mode
  | PHX65C02, _ => isa65C02StaticPHX
  | PHY65C02, _ => isa65C02StaticPHY
  | PLX65C02, _ => isa65C02StaticPLX
  | PLY65C02, _ => isa65C02StaticPLY
  | ROL65C02, mode => isa65C02StaticROL mode
  | ROR65C02, mode => isa65C02StaticROR mode
  | SBC65C02, mode => isa65C02StaticSBC mode
  | STA65C02, mode => isa65C02StaticSTA mode
  | STZ65C02, mode => isa65C02StaticSTZ mode
  | TRB65C02, mode => isa65C02StaticTRB mode
  | TSB65C02, mode => isa65C02StaticTSB mode

end Routine

/-- The interrupt sequences the tables name. -/
inductive Interrupt
  | IRQ | NMI | IRQ65C02 | NMI65C02
  deriving DecidableEq, Repr

/-- The staged function of an interrupt sequence. -/
def Interrupt.staged {μ : Type*} [Membus μ] : Interrupt → Handler μ
  | IRQ => isa6502IRQ
  | NMI => isa6502NMI
  | IRQ65C02 => isa65C02IRQ
  | NMI65C02 => isa65C02NMI

/-- A dispatch record; a missing routine is a null function pointer. -/
structure Dispatch where
  /-- `exec_fn[isa_6502_opcode_exec_mode_staged]`. -/
  staged : Option Routine
  /-- `exec_fn[isa_6502_opcode_exec_mode_static]`. -/
  static : Option Routine
  /-- The addressing mode of the opcode. -/
  addressingMode : AddressingMode
  deriving DecidableEq, Repr

namespace Dispatch

/-- An initialised slot. -/
def slot (routine : Routine) (mode : AddressingMode) : Dispatch :=
  { staged := some routine, static := some routine, addressingMode := mode }

/-- The initialiser `UNUSED_OPCODE`. -/
def unused : Dispatch := { staged := none, static := none, addressingMode := .undefined }

/-- The record of a slot without an initialiser: null pointers and addressing mode zero. -/
def zero : Dispatch := { staged := none, static := none, addressingMode := .accumulator }

end Dispatch

open Dispatch

/-- The block `C = 0` of `__isa_6502_table`. -/
def isa6502TableBlock0 : List (List Dispatch) :=
  [ [slot .BRK .implied, unused, slot .PHP .implied, unused, slot .BPL .relative, unused,
      slot .CLC .implied, unused],
    [slot .JSR .absolute, slot .BIT .zeropage, slot .PLP .implied, slot .BIT .absolute,
      slot .BMI .relative, unused, slot .SEC .implied, unused],
    [slot .RTI .implied, unused, slot .PHA .implied, slot .JMP .absolute, slot .BVC .relative,
      unused, slot .CLI .implied, unused],
    [slot .RTS .implied, unused, slot .PLA .implied, slot .JMP .indirect, slot .BVS .relative,
      unused, slot .SEI .implied, unused],
    [unused, slot .STY .zeropage, slot .DEY .implied, slot .STY .absolute, slot .BCC .relative,
      slot .STY .zeropageXIndexed, slot .TYA .implied, unused],
    [slot .LDY .immediate, slot .LDY .zeropage, slot .TAY .implied, slot .LDY .absolute,
      slot .BCS .relative, slot .LDY .zeropageXIndexed, slot .CLV .implied,
      slot .LDY .absoluteXIndexed],
    [slot .CPY .immediate, slot .CPY .zeropage, slot .INY .implied, slot .CPY .absolute,
      slot .BNE .relative, unused, slot .CLD .implied, unused],
    [slot .CPX .immediate, slot .CPX .zeropage, slot .INX .implied, slot .CPX .absolute,
      slot .BEQ .relative, unused, slot .SED .implied, unused] ]

/-- The block `C = 1` of `__isa_6502_table`. -/
def isa6502TableBlock1 : List (List Dispatch) :=
  [ [slot .ORA .xIndexedIndirect, slot .ORA .zeropage, slot .ORA .immediate, slot .ORA .absolute,
      slot .ORA .indirectYIndexed, slot .ORA .zeropageXIndexed, slot .ORA .absoluteYIndexed,
      slot .ORA .absoluteXIndexed],
    [slot .AND .xIndexedIndirect, slot .AND .zeropage, slot .AND .immediate, slot .AND .absolute,
      slot .AND .indirectYIndexed, slot .AND .zeropageXIndexed, slot .AND .absoluteYIndexed,
      slot .AND .absoluteXIndexed],
    [slot .EOR .xIndexedIndirect, slot .EOR .zeropage, slot .EOR .immediate, slot .EOR .absolute,
      slot .EOR .indirectYIndexed, slot .EOR .zeropageXIndexed, slot .EOR .absoluteYIndexed,
      slot .EOR .absoluteXIndexed],
    [slot .ADC .xIndexedIndirect, slot .ADC .zeropage, slot .ADC .immediate, slot .ADC .absolute,
      slot .ADC .indirectYIndexed, slot .ADC .zeropageXIndexed, slot .ADC .absoluteYIndexed,
      slot .ADC .absoluteXIndexed],
    [slot .STA .xIndexedIndirect, slot .STA .zeropage, unused, slot .STA .absolute,
      slot .STA .indirectYIndexed, slot .STA .zeropageXIndexed, slot .STA .absoluteYIndexed,
      slot .STA .absoluteXIndexed],
    [slot .LDA .xIndexedIndirect, slot .LDA .zeropage, slot .LDA .immediate, slot .LDA .absolute,
      slot .LDA .indirectYIndexed, slot .LDA .zeropageXIndexed, slot .LDA .absoluteYIndexed,
      slot .LDA .absoluteXIndexed],
    [slot .CMP .xIndexedIndirect, slot .CMP .zeropage, slot .CMP .immediate, slot .CMP .absolute,
      slot .CMP .indirectYIndexed, slot .CMP .zeropageXIndexed, slot .CMP .absoluteYIndexed,
      slot .CMP .absoluteXIndexed],
    [slot .SBC .xIndexedIndirect, slot .SBC .zeropage, slot .SBC .immediate, slot .SBC .absolute,
      slot .SBC .indirectYIndexed, slot .SBC .zeropageXIndexed, slot .SBC .absoluteYIndexed,
      slot .SBC .absoluteXIndexed] ]

/-- The block `C = 2` of `__isa_6502_table`. -/
def isa6502TableBlock2 : List (List Dispatch) :=
  [ [unused, slot .ASL .zeropage, slot .ASL .accumulator, slot .ASL .absolute, unused,
      slot .ASL .zeropageXIndexed, unused, slot .ASL .absoluteXIndexed],
    [unused, slot .ROL .zeropage, slot .ROL .accumulator, slot .ROL .absolute, unused,
      slot .ROL .zeropageXIndexed, unused, slot .ROL .absoluteXIndexed],
    [unused, slot .LSR .zeropage, slot .LSR .accumulator, slot .LSR .absolute, unused,
      slot .LSR .zeropageXIndexed, unused, slot .LSR .absoluteXIndexed],
    [unused, slot .ROR .zeropage, slot .ROR .accumulator, slot .ROR .absolute, unused,
      slot .ROR .zeropageXIndexed, unused, slot .ROR .absoluteXIndexed],
    [unused, slot .STX .zeropage, slot .TXA .implied, slot .STX .absolute, unused,
      slot .STX .zeropageYIndexed, slot .TXS .implied, unused],
    [slot .LDX .immediate, slot .LDX .zeropage, slot .TAX .implied, slot .LDX .absolute, unused,
      slot .LDX .zeropageYIndexed, slot .TSX .implied, slot .LDX .absoluteYIndexed],
    [unused, slot .DEC .zeropage, slot .DEX .implied, slot .DEC .absolute, unused,
      slot .DEC .zeropageXIndexed, unused, slot .DEC .absoluteXIndexed],
    [unused, slot .INC .zeropage, slot .NOP .implied, slot .INC .absolute, unused,
      slot .INC .zeropageXIndexed, unused, slot .INC .absoluteXIndexed] ]

/-- `__isa_6502_table`. -/
def isa6502Table : List (List (List Dispatch)) :=
  [isa6502TableBlock0, isa6502TableBlock1, isa6502TableBlock2]

/-- The block `C = 0` of `__isa_65C02_table`. -/
def isa65C02TableBlock0 : List (List Dispatch) :=
  [ [slot .BRK65C02 .implied, slot .TSB65C02 .zeropage, slot .PHP .implied,
      slot .TSB65C02 .absolute, slot .BPL .relative, slot .TRB65C02 .zeropage, slot .CLC .implied,
      slot .TRB65C02 .absolute],
    [slot .JSR .absolute, slot .BIT65C02 .zeropage, slot .PLP .implied, slot .BIT65C02 .absolute,
      slot .BMI .relative, slot .BIT65C02 .zeropageXIndexed, slot .SEC .implied,
      slot .BIT65C02 .absoluteXIndexed],
    [slot .RTI .implied, unused, slot .PHA .implied, slot .JMP65C02 .absolute, slot .BVC .relative,
      unused, slot .CLI .implied, unused],
    [slot .RTS .implied, slot .STZ65C02 .zeropage, slot .PLA .implied, slot .JMP65C02 .indirect,
      slot .BVS .relative, slot .STZ65C02 .zeropageXIndexed, slot .SEI .implied,
      slot .JMP65C02 .absoluteXIndexedIndirect],
    [slot .BRA65C02 .relative, slot .STY .zeropage, slot .DEY .implied, slot .STY .absolute,
      slot .BCC .relative, slot .STY .zeropageXIndexed, slot .TYA .implied,
      slot .STZ65C02 .absolute],
    [slot .LDY .immediate, slot .LDY .zeropage, slot .TAY .implied, slot .LDY .absolute,
      slot .BCS .relative, slot .LDY .zeropageXIndexed, slot .CLV .implied,
      slot .LDY .absoluteXIndexed],
    [slot .CPY .immediate, slot .CPY .zeropage, slot .INY .implied, slot .CPY .absolute,
      slot .BNE .relative, unused, slot .CLD .implied, unused],
    [slot .CPX .immediate, slot .CPX .zeropage, slot .INX .implied, slot .CPX .absolute,
      slot .BEQ .relative, unused, slot .SED .implied, unused] ]

/-- The block `C = 1` of `__isa_65C02_table`. -/
def isa65C02TableBlock1 : List (List Dispatch) :=
  [ [slot .ORA65C02 .xIndexedIndirect, slot .ORA65C02 .zeropage, slot .ORA65C02 .immediate,
      slot .ORA65C02 .absolute, slot .ORA65C02 .indirectYIndexed, slot .ORA65C02 .zeropageXIndexed,
      slot .ORA65C02 .absoluteYIndexed, slot .ORA65C02 .absoluteXIndexed],
    [slot .AND65C02 .xIndexedIndirect, slot .AND65C02 .zeropage, slot .AND65C02 .immediate,
      slot .AND65C02 .absolute, slot .AND65C02 .indirectYIndexed, slot .AND65C02 .zeropageXIndexed,
      slot .AND65C02 .absoluteYIndexed, slot .AND65C02 .absoluteXIndexed],
    [slot .EOR65C02 .xIndexedIndirect, slot .EOR65C02 .zeropage, slot .EOR65C02 .immediate,
      slot .EOR65C02 .absolute, slot .EOR65C02 .indirectYIndexed, slot .EOR65C02 .zeropageXIndexed,
      slot .EOR65C02 .absoluteYIndexed, slot .EOR65C02 .absoluteXIndexed],
    [slot .ADC65C02 .xIndexedIndirect, slot .ADC65C02 .zeropage, slot .ADC65C02 .immediate,
      slot .ADC65C02 .absolute, slot .ADC65C02 .indirectYIndexed, slot .ADC65C02 .zeropageXIndexed,
      slot .ADC65C02 .absoluteYIndexed, slot .ADC65C02 .absoluteXIndexed],
    [slot .STA65C02 .xIndexedIndirect, slot .STA65C02 .zeropage, slot .BIT65C02 .immediate,
      slot .STA65C02 .absolute, slot .STA65C02 .indirectYIndexed, slot .STA65C02 .zeropageXIndexed,
      slot .STA65C02 .absoluteYIndexed, slot .STA65C02 .absoluteXIndexed],
    [slot .LDA65C02 .xIndexedIndirect, slot .LDA65C02 .zeropage, slot .LDA65C02 .immediate,
      slot .LDA65C02 .absolute, slot .LDA65C02 .indirectYIndexed, slot .LDA65C02 .zeropageXIndexed,
      slot .LDA65C02 .absoluteYIndexed, slot .LDA65C02 .absoluteXIndexed],
    [slot .CMP65C02 .xIndexedIndirect, slot .CMP65C02 .zeropage, slot .CMP65C02 .immediate,
      slot .CMP65C02 .absolute, slot .CMP65C02 .indirectYIndexed, slot .CMP65C02 .zeropageXIndexed,
      slot .CMP65C02 .absoluteYIndexed, slot .CMP65C02 .absoluteXIndexed],
    [slot .SBC65C02 .xIndexedIndirect, slot .SBC65C02 .zeropage, slot .SBC65C02 .immediate,
      slot .SBC65C02 .absolute, slot .SBC65C02 .indirectYIndexed, slot .SBC65C02 .zeropageXIndexed,
      slot .SBC65C02 .absoluteYIndexed, slot .SBC65C02 .absoluteXIndexed] ]

/-- The block `C = 2` of `__isa_65C02_table`. -/
def isa65C02TableBlock2 : List (List Dispatch) :=
  [ [unused, slot .ASL65C02 .zeropage, slot .ASL65C02 .accumulator, slot .ASL65C02 .absolute,
      slot .ORA65C02 .zeropageIndirect, slot .ASL65C02 .zeropageXIndexed,
      slot .INC65C02 .accumulator, slot .ASL65C02 .absoluteXIndexed],
    [unused, slot .ROL65C02 .zeropage, slot .ROL65C02 .accumulator, slot .ROL65C02 .absolute,
      slot .AND65C02 .zeropageIndirect, slot .ROL65C02 .zeropageXIndexed,
      slot .DEC65C02 .accumulator, slot .ROL65C02 .absoluteXIndexed],
    [unused, slot .LSR65C02 .zeropage, slot .LSR65C02 .accumulator, slot .LSR65C02 .absolute,
      slot .EOR65C02 .zeropageIndirect, slot .LSR65C02 .zeropageXIndexed, slot .PHY65C02 .implied,
      slot .LSR65C02 .absoluteXIndexed],
    [unused, slot .ROR65C02 .zeropage, slot .ROR65C02 .accumulator, slot .ROR65C02 .absolute,
      slot .ADC65C02 .zeropageIndirect, slot .ROR65C02 .zeropageXIndexed, slot .PLY65C02 .implied,
      slot .ROR65C02 .absoluteXIndexed],
    [unused, slot .STX .zeropage, slot .TXA .implied, slot .STX .absolute,
      slot .STA65C02 .zeropageIndirect, slot .STX .zeropageYIndexed, slot .TXS .implied,
      slot .STZ65C02 .absoluteXIndexed],
    [slot .LDX .immediate, slot .LDX .zeropage, slot .TAX .implied, slot .LDX .absolute,
      slot .LDA65C02 .zeropageIndirect, slot .LDX .zeropageYIndexed, slot .TSX .implied,
      slot .LDX .absoluteYIndexed],
    [unused, slot .DEC65C02 .zeropage, slot .DEX .implied, slot .DEC65C02 .absolute,
      slot .CMP65C02 .zeropageIndirect, slot .DEC65C02 .zeropageXIndexed, slot .PHX65C02 .implied,
      slot .DEC65C02 .absoluteXIndexed],
    [unused, slot .INC65C02 .zeropage, slot .NOP .implied, slot .INC65C02 .absolute,
      slot .SBC65C02 .zeropageIndirect, slot .INC65C02 .zeropageXIndexed, slot .PLX65C02 .implied,
      slot .INC65C02 .absoluteXIndexed] ]

/-- `__isa_65C02_table`. -/
def isa65C02Table : List (List (List Dispatch)) :=
  [isa65C02TableBlock0, isa65C02TableBlock1, isa65C02TableBlock2]

/-- The ISA dialects. -/
inductive Dialect
  | base
  | cmos
  deriving DecidableEq, Repr

namespace Dialect

/-- The dispatch table of a dialect. -/
def table : Dialect → List (List (List Dispatch))
  | base => isa6502Table
  | cmos => isa65C02Table

/-- The IRQ sequence of a dialect. -/
def irq : Dialect → Interrupt
  | base => .IRQ
  | cmos => .IRQ65C02

/-- The NMI sequence of a dialect. -/
def nmi : Dialect → Interrupt
  | base => .NMI
  | cmos => .NMI65C02

/-- `isa_6502_table_lookup_dispatch`, with the opcode fields `C`, `A` and `B`. -/
def lookup (dialect : Dialect) (opcode : Byte) : Dispatch :=
  let C := (opcode &&& 0x03).toNat
  let B := ((opcode >>> 2) &&& 0x07).toNat
  let A := (opcode >>> 5).toNat
  ((dialect.table.getD C []).getD A []).getD B zero

end Dialect
end System6502
