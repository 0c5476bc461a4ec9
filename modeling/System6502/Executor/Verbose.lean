import System6502.Executor.Projection
import System6502.Executor.Transfers
import System6502.Membus.Devices

/-!
# The eight run loops

`executor.c` has four copies of each run loop: with and without calls of a stage callback, with and
without the lock.  The copies with calls also disassemble each instruction from the caches of the
bus, which moves the indices of the caches.
-/

namespace System6502

open Lib

/-! ## Inline disassembly -/

/-- A pop of one of the two caches. -/
inductive CachePop
  | read
  | write
  deriving DecidableEq, Repr

namespace CachePop

variable {μ : Type*} [CachedMembus μ]

/-- The byte of a pop and the bus after it. -/
def run (memory : μ) : CachePop → Byte × μ
  | read => CachedMembus.rcachePop memory
  | write => CachedMembus.wcachePop memory

/-- Successive pops, with the bytes in order. -/
def runAll : List CachePop → μ → List Byte × μ
  | [], memory => ([], memory)
  | first :: rest, memory =>
      let (byte, after) := first.run memory
      let (bytes, last) := runAll rest after
      (byte :: bytes, last)

end CachePop

namespace AddressingMode

open CachePop

/-- The pops of `disasm_ADC` and of the other instructions that read an operand. -/
def readPops : AddressingMode → List CachePop
  | immediate => [read]
  | zeropage | zeropageXIndexed => [read, read]
  | absolute | absoluteXIndexed | absoluteYIndexed => [read, read, read]
  | xIndexedIndirect | indirectYIndexed => [read, read, read, read]
  | _ => []

/-- The same for the 65C02. -/
def readPops65C02 : AddressingMode → List CachePop
  | zeropageIndirect => [read, read]
  | mode => mode.readPops

/-- The pops of `disasm_LDX` and `disasm_LDY`. -/
def indexLoadPops : AddressingMode → List CachePop
  | immediate => [read]
  | zeropage | zeropageYIndexed => [read, read]
  | absolute | absoluteYIndexed => [read, read, read]
  | _ => []

/-- The pops of `disasm_CPX` and `disasm_CPY`. -/
def indexComparePops : AddressingMode → List CachePop
  | immediate => [read]
  | zeropage => [read, read]
  | absolute => [read, read, read]
  | _ => []

/-- The pops of `disasm_BIT`. -/
def bitPops : AddressingMode → List CachePop
  | zeropage => [read, read]
  | absolute => [read, read, read]
  | _ => []

/-- The same for the 65C02. -/
def bitPops65C02 : AddressingMode → List CachePop
  | immediate => [read]
  | zeropage | zeropageXIndexed => [read, read]
  | absolute | absoluteXIndexed => [read, read, read]
  | _ => []

/-- The pops of `disasm_STA`. -/
def staPops : AddressingMode → List CachePop
  | zeropage | zeropageXIndexed => [write, read]
  | absolute | absoluteXIndexed | absoluteYIndexed => [write, read, read]
  | xIndexedIndirect | indirectYIndexed => [write, read, read, read]
  | _ => []

/-- The same for the 65C02. -/
def staPops65C02 : AddressingMode → List CachePop
  | zeropageIndirect => [read, read]
  | mode => mode.staPops

/-- The pops of `disasm_STX` and `disasm_STY`, which leave the stored byte in the write cache. -/
def indexStorePops (mode indexed : AddressingMode) : List CachePop :=
  if mode = zeropage ∨ mode = indexed then [read]
  else if mode = absolute then [read, read]
  else []

/-- The pops of `disasm_STZ`. -/
def stzPops : AddressingMode → List CachePop
  | zeropage | zeropageXIndexed => [write, read]
  | absolute | absoluteXIndexed => [write, read, read]
  | _ => []

/-- The pops of the instructions that modify their operand. -/
def modifyPops : AddressingMode → List CachePop
  | zeropage | zeropageXIndexed => [read, write, read]
  | absolute | absoluteXIndexed => [read, write, read, read]
  | _ => []

/-- The pops of `disasm_TRB` and `disasm_TSB`. -/
def testModifyPops : AddressingMode → List CachePop
  | zeropage => [write, read, read]
  | absolute => [write, read, read, read]
  | _ => []

/-- The pops of `disasm_JMP`. -/
def jmpPops : AddressingMode → List CachePop
  | absolute => [read, read]
  | indirect => [read, read, read, read]
  | _ => []

/-- The same for the 65C02. -/
def jmpPops65C02 : AddressingMode → List CachePop
  | absoluteXIndexedIndirect => [read, read, read, read]
  | mode => mode.jmpPops

end AddressingMode

/-- What the disassembly function of an instruction pops, in order.  A function pops nothing in a
mode that its switch lacks. -/
def Routine.inlineDisasm (mode : AddressingMode) : Routine → List CachePop
  | ADC | AND | CMP | EOR | LDA | ORA | SBC => mode.readPops
  | ADC65C02 | AND65C02 | CMP65C02 | EOR65C02 | LDA65C02 | ORA65C02 | SBC65C02 =>
      mode.readPops65C02
  | LDX | LDY => mode.indexLoadPops
  | CPX | CPY => mode.indexComparePops
  | BIT => mode.bitPops
  | BIT65C02 => mode.bitPops65C02
  | STA => mode.staPops
  | STA65C02 => mode.staPops65C02
  | STX => mode.indexStorePops .zeropageYIndexed
  | STY => mode.indexStorePops .zeropageXIndexed
  | STZ65C02 => mode.stzPops
  | ASL | LSR | ROL | ROR | DEC | INC | ASL65C02 | LSR65C02 | ROL65C02 | ROR65C02 | DEC65C02
  | INC65C02 => mode.modifyPops
  | TRB65C02 | TSB65C02 => mode.testModifyPops
  | JMP => mode.jmpPops
  | JMP65C02 => mode.jmpPops65C02
  | JSR => if mode = .absolute then [.read, .read] else []
  | BCC | BCS | BEQ | BMI | BNE | BPL | BVC | BVS | BRA65C02 | BRK | BRK65C02 => [.read]
  | CLC | CLD | CLI | CLV | DEX | DEY | INX | INY | NOP | PHA | PHP | PLA | PLP | RTI | RTS | SEC
  | SED | SEI | TAX | TAY | TSX | TXA | TXS | TYA | PHX65C02 | PHY65C02 | PLX65C02 | PLY65C02 => []

/-- `inline_disasm_fn` of a record, or a null pointer. -/
def Dispatch.inlineDisasm (dispatch : Dispatch) : Option (List CachePop) :=
  dispatch.staged.map (Routine.inlineDisasm dispatch.addressingMode)

/-! ## Stage callbacks -/

/-- A stage at which a loop calls its callback. -/
inductive CallbackStage
  | preLoadPC | postLoadPC | preFetchOpcode | postFetchOpcode | preDecodeOpcode | postDecodeOpcode
  | preNextCycle | nextCycle | instrEnd | disasm | executionComplete | enterNMI | execNMI | enterIRQ
  | execIRQ | execDMA | illegalInstruction
  deriving DecidableEq, Repr

/-- The bit of a stage in a `callback_stage_mask`. -/
def CallbackStage.bit : CallbackStage → Nat
  | preLoadPC => 0
  | postLoadPC => 1
  | preFetchOpcode => 2
  | postFetchOpcode => 3
  | preDecodeOpcode => 4
  | postDecodeOpcode => 5
  | preNextCycle => 6
  | nextCycle => 7
  | instrEnd => 8
  | disasm => 9
  | executionComplete => 10
  | enterNMI => 11
  | execNMI => 12
  | enterIRQ => 13
  | execIRQ => 14
  | execDMA => 15
  | illegalInstruction => 31

/-- The arguments of a call of the stage callback. -/
structure StageCall where
  /-- `the_stage`. -/
  stage : CallbackStage
  /-- `the_opcode`. -/
  opcode : Byte
  /-- `the_addressing_mode`. -/
  addressingMode : AddressingMode
  /-- `the_dispatch`, or a null pointer. -/
  dispatch : Option Dispatch
  /-- `the_cycle_count`. -/
  cycleCount : Nat
  /-- The bytes that the text in `disasm` shows, or a null pointer. -/
  disasm : Option (List Byte)

/-- A call with a null opcode. -/
def StageCall.bare (stage : CallbackStage) (cycleCount : Nat) : StageCall where
  stage
  opcode := 0
  addressingMode := .undefined
  dispatch := none
  cycleCount
  disasm := none

/-- A call for an opcode that is not decoded yet. -/
def StageCall.fetched (stage : CallbackStage) (loop : Loop) : StageCall where
  stage
  opcode := loop.opcode
  addressingMode := .undefined
  dispatch := none
  cycleCount := loop.cycleCount
  disasm := none

/-- A call for a decoded instruction. -/
def StageCall.decoded (stage : CallbackStage) (loop : Loop) : StageCall where
  stage
  opcode := loop.opcode
  addressingMode := loop.dispatch.addressingMode
  dispatch := some loop.dispatch
  cycleCount := loop.cycleCount
  disasm := none

/-- What a loop does that is visible from outside, with the calls of its stage callback. -/
inductive Notice
  | event (event : Event)
  | stage (call : StageCall)

/-! ## The loops -/

/-- A copy of the run loop with its callback.  A copy without calls ignores the callback. -/
structure RunLoop where
  /-- The function of a dispatch record that it calls. -/
  mode : ExecMode
  /-- It calls the stage callback. -/
  isVerbose : Bool
  /-- It takes the lock. -/
  isLocked : Bool
  /-- `callback_stage_mask` of a callback, or a null pointer. -/
  callback : Option (BitVec 32)

/-- `__executor_launch_staged_verbose`. -/
def executorLaunchStagedVerbose (callback : Option (BitVec 32)) : RunLoop :=
  { mode := .staged, isVerbose := true, isLocked := true, callback }

/-- `__executor_launch_staged`. -/
def executorLaunchStaged (callback : Option (BitVec 32)) : RunLoop :=
  { mode := .staged, isVerbose := false, isLocked := true, callback }

/-- `__executor_launch_static_verbose`. -/
def executorLaunchStaticVerbose (callback : Option (BitVec 32)) : RunLoop :=
  { mode := .static, isVerbose := true, isLocked := true, callback }

/-- `__executor_launch_static`. -/
def executorLaunchStatic (callback : Option (BitVec 32)) : RunLoop :=
  { mode := .static, isVerbose := false, isLocked := true, callback }

/-- `__executor_launch_staged_verbose_nolock`. -/
def executorLaunchStagedVerboseNolock (callback : Option (BitVec 32)) : RunLoop :=
  { mode := .staged, isVerbose := true, isLocked := false, callback }

/-- `__executor_launch_staged_nolock`. -/
def executorLaunchStagedNolock (callback : Option (BitVec 32)) : RunLoop :=
  { mode := .staged, isVerbose := false, isLocked := false, callback }

/-- `__executor_launch_static_verbose_nolock`. -/
def executorLaunchStaticVerboseNolock (callback : Option (BitVec 32)) : RunLoop :=
  { mode := .static, isVerbose := true, isLocked := false, callback }

/-- `__executor_launch_static_nolock`. -/
def executorLaunchStaticNolock (callback : Option (BitVec 32)) : RunLoop :=
  { mode := .static, isVerbose := false, isLocked := false, callback }

/-- `membus_set_cache_disable` with the value the loop has settled on. -/
def Run.setCacheDisable {μ : Type*} [CachedMembus μ] (run : Run μ) : Run μ :=
  run.onExecutor fun executor =>
    { executor with
      memory := CachedMembus.setCacheDisable executor.memory executor.cacheDisable }

namespace RunLoop

variable {μ : Type*}

/-- `callback_fn && (callback_stage_mask & stage)`. -/
def listens (loop : RunLoop) (stage : CallbackStage) : Bool :=
  loop.isVerbose && loop.callback.any (·.getLsbD stage.bit)

/-- A call of the stage callback, if it is asked for. -/
def notify (loop : RunLoop) (call : StageCall) : List Notice :=
  if loop.listens call.stage then [.stage call] else []

/-- Let other threads in. -/
def release (loop : RunLoop) : List Notice :=
  if loop.isLocked then [.event .unlock, .event .lock] else []

/-- The way back to the caller. -/
def complete (loop : RunLoop) (run : Run μ) : List Notice :=
  loop.notify (.bare .executionComplete run.loop.totalCycles)

variable [CachedMembus μ]

/-- The entry of a launch. -/
def launch (loop : RunLoop) (executor : Executor μ) (range : MemoryAddrRange) (PC : Word)
    (residue : Loop) : Run μ × List Notice :=
  let switched :=
    { executor with cacheDisable := CachedMembus.getCacheDisable executor.memory }
  (Run.launch switched range PC residue,
    (if loop.isLocked then [.event .lock] else []) ++ loop.notify (.bare .preLoadPC 0) ++
      loop.notify (.bare .postLoadPC 0))

/-- The condition of the outer loop, the opcode fetch and its decoding. -/
def fetchStep (loop : RunLoop) (input : Input) (run : Run μ) : Run μ × List Notice :=
  let after := (run.fetchStep input).1
  if run.executor.flags.execStop = false ∧ run.executor.registers.PC.toNat < run.loop.PCEnd then
    let notices :=
      loop.notify (.bare .preFetchOpcode 0) ++
        [.event (.fetch run.executor.registers.PC after.loop.opcode)] ++
        loop.notify (.fetched .postFetchOpcode after.loop) ++
        loop.notify (.fetched .preDecodeOpcode after.loop) ++
        loop.notify (.decoded .postDecodeOpcode after.loop)
    if after.loop.dispatch.addressingMode = .undefined then
      (after, notices ++ [.event (.illegal after.loop.opcode)] ++
        loop.notify (.decoded .illegalInstruction after.loop) ++ loop.complete after)
    else (after, notices)
  else (after, [.event .leave] ++ loop.complete after)

/-- The block `if ( is_in_dma )`, with the switch of the caches. -/
def dmaCycle (input : Input) (run : Run μ) : Run μ × List Notice :=
  let (after, events) := run.dmaCycle input
  (after.setCacheDisable, events.map .event)

/-- The top of the inner loop: let other threads in, then notice a DMA request or make a call. -/
def dispatchCycle (loop : RunLoop) (input : Input) (run : Run μ) : Run μ × List Notice :=
  let admitted := run.admitRequests input
  if admitted.executor.flags.dma then
    let (after, notices) := dmaCycle input admitted.beginDMA.setCacheDisable
    (after, loop.release ++ loop.notify (.bare .execDMA admitted.loop.totalCycles) ++ notices)
  else
    let (after, events) := admitted.callStep loop.mode input
    (after, loop.release ++ loop.notify (.decoded .preNextCycle admitted.loop) ++
      events.map .event ++
      if after.location = .nullCall then [] else loop.notify (.decoded .nextCycle after.loop))

/-- The call of `inline_disasm_fn` and of the callback with its text. -/
def disassemble (loop : RunLoop) (run : Run μ) : Run μ × List Notice :=
  match run.loop.dispatch.inlineDisasm with
  | none => (run, [])
  | some pops =>
      if loop.listens .disasm then
        let (bytes, memory) := CachePop.runAll pops run.executor.memory
        (run.onExecutor fun executor => { executor with memory },
          [.stage { StageCall.decoded .disasm run.loop with disasm := some bytes }])
      else (run, [])

/-- One pass through the inner loop, and the way out of it. -/
def cycleStep (loop : RunLoop) (input : Input) (run : Run μ) : Run μ × List Notice :=
  let (passed, notices) :=
    if run.loop.isInDMA then dmaCycle input run else loop.dispatchCycle input run
  let after := passed.afterCycle loop.mode
  if after.location = .boundary then
    let (last, disassembly) := loop.disassemble after
    (last, notices ++ disassembly ++ loop.notify (.decoded .instrEnd last.loop))
  else (after, notices)

/-- Run an interrupt sequence between two calls of the callback. -/
def service (loop : RunLoop) (interrupt : Interrupt) (enter leave : CallbackStage) (run : Run μ) :
    Run μ × List Notice :=
  let (after, events) := run.service interrupt
  (after, loop.notify (.bare enter run.loop.totalCycles) ++ events.map .event ++
    if after.location = .hung then [] else loop.notify (.bare leave after.loop.totalCycles))

/-- Service a pending IRQ unless the I bit inhibits it. -/
def serviceIRQ (loop : RunLoop) (run : Run μ) : Run μ × List Notice :=
  if run.executor.flags.irq && !run.executor.registers.getBit Registers.bitI then
    loop.service run.executor.dialect.irq .enterIRQ .execIRQ run
  else (run, [])

/-- Service a pending NMI. -/
def serviceNMI (loop : RunLoop) (run : Run μ) : Run μ × List Notice :=
  if run.executor.flags.nmi then loop.service run.executor.dialect.nmi .enterNMI .execNMI run
  else (run, [])

/-- The boundary between two instructions. -/
def boundaryStep (loop : RunLoop) (input : Input) (run : Run μ) : Run μ × List Notice :=
  let (first, irqNotices) := loop.serviceIRQ (run.admitRequests input)
  let (second, nmiNotices) := loop.serviceNMI first
  let after := if second.location = .hung then second else second.clearInterrupts.goto .fetch
  (after, loop.release ++ irqNotices ++ nmiNotices)

/-- One step of a loop; a run that has ended stays as it is. -/
def step (loop : RunLoop) (run : Run μ) (input : Input) : Run μ × List Notice :=
  match run.location with
  | .fetch => loop.fetchStep input run
  | .cycle => loop.cycleStep input run
  | .boundary => loop.boundaryStep input run
  | .returned | .nullCall | .hung => (run, [])

/-- The machine of one of the loops. -/
def machine (μ : Type*) [CachedMembus μ] (loop : RunLoop) : Machine (Run μ) Input Notice where
  step := loop.step

end RunLoop

end System6502
