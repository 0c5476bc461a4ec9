import System6502.Executor
import System6502.Executor.Dispatch
import System6502.Isa.Cycles
import System6502.Executor.Instruction
import System6502.Lib.RingStack
import System6502.Isa.Stack
import System6502.Executor.Interrupts
import System6502.Executor.Entry
import System6502.Executor.StackDiscipline
import System6502.Isa.Addressing
import System6502.Executor.Determinacy
import System6502.Executor.Interleaving
import System6502.Executor.Refinement
import System6502.Executor.Transparency
import System6502.Membus.Registry
import System6502.Membus.AddressRuns
import System6502.Executor.Locking
import System6502.Executor.CacheSwitch
import System6502.Executor.Confinement
import System6502.Executor.StaticTransfer
import System6502.Membus.Watching
import System6502.Isa.Timing
import System6502.Isa.ReadModifyWrite
import System6502.Isa.InstructionStream
import System6502.Isa.Addition
import System6502.Isa.Decimal
import System6502.Isa.Comparison
import System6502.Isa.Branches
import System6502.MemSpec
import System6502.Membus.Composition
import System6502.Membus.Stores
import System6502.Executor.HardReset
import System6502.Membus.References
import System6502.Membus.Mirrors
import System6502.Membus.Loading
import System6502.Executor.Lockstep
import System6502.Membus.Shadowing
import System6502.Executor.Reporting
import System6502.Membus.Saving
import System6502.Membus.Bulk
import System6502.ExecMode
import System6502.Membus.Scan
import System6502.Membus.CacheRing
import System6502.Membus.WatchpointLists
import System6502.Membus.Firing
import System6502.Programs.BitReorder
import System6502.Programs.Fibonacci
import System6502.Membus.Teardown
import System6502.Membus.MemoryMap
import System6502.Membus.NesMockup
