import System6502.Membus.AddressTree
import System6502.Membus.Transaction

/-!
# The watchpoints module

A bus module whose read and write callbacks call the watchpoints that match an address and an
event.  The callback functions of the watchpoints act on a state of their own.
-/

namespace System6502

/-- `membus_watchpoint_callback_t`. -/
abbrev WatchpointCallback (γ ω : Type*) := BitVec 32 → Word → Byte → γ → ω → ω

/-- `membus_watchpoint_addr_range_t`; the links are those of the list that holds it. -/
structure WatchpointAddrRange (γ ω : Type*) where
  /-- What every watchpoint has. -/
  base : Watchpoint (WatchpointCallback γ ω) γ
  /-- The addresses. -/
  addrRange : MemoryAddrRange

/-- `membus_module_watchpoints_t`. -/
structure MembusModuleWatchpoints (ρ γ ω : Type*) where
  /-- The addresses of the module. -/
  addrRange : MemoryAddrRange
  /-- The access mode. -/
  mode : BitVec 32
  /-- The watchpoints on all addresses. -/
  generics : List (Watchpoint (WatchpointCallback γ ω) γ)
  /-- The watchpoints on ranges. -/
  addressRanges : List (WatchpointAddrRange γ ω)
  /-- The watchpoints on single addresses. -/
  addresses : AddressTree ρ (WatchpointCallback γ ω) γ

namespace MembusModuleWatchpoints

variable {ρ γ ω : Type*}

/-- The watchpoints whose events are looked at in an access: those in the chain of the address,
all generic ones, and those on ranges that include the address.  There is no outcome when the
search for the address does not end. -/
def matching (watchpoints : MembusModuleWatchpoints ρ γ ω) (addr : Word) :
    Option (List (Watchpoint (WatchpointCallback γ ω) γ)) :=
  let tree := watchpoints.addresses
  ((tree.findAddr addr tree.allocated.card tree.addresses).bind
      (tree.chain tree.allocated.card)).map fun chain =>
    chain.map (fun wp => (tree.nodes wp).base) ++ watchpoints.generics ++
      (watchpoints.addressRanges.filter fun wp => wp.addrRange.doesInclude addr).map
        WatchpointAddrRange.base

/-- A watchpoint asks for an event. -/
def Wants (event : BitVec 32) (watchpoint : Watchpoint (WatchpointCallback γ ω) γ) : Prop :=
  watchpoint.onEvents &&& event = event

instance (event : BitVec 32) :
    DecidablePred (Wants event : Watchpoint (WatchpointCallback γ ω) γ → Prop) :=
  fun _ => inferInstanceAs (Decidable (_ = _))

/-- Call the watchpoints that ask for an event, each with the byte behind the pointer. -/
def notify (event : BitVec 32) (addr : Word) (value : Option Byte) :
    List (Watchpoint (WatchpointCallback γ ω) γ) → ω → Option ω
  | [], watcher => some watcher
  | wp :: rest, watcher =>
      if Wants event wp then
        value.bind fun byte =>
          notify event addr value rest (wp.callbackFn event addr byte wp.context watcher)
      else notify event addr value rest watcher

/-- A callback of the module, which one of the modes forbids. -/
def observe (watchpoints : MembusModuleWatchpoints ρ γ ω) (event forbidding : BitVec 32)
    (addr : Word) (value : Option Byte) (watcher : ω) : Option (OpResult × ω) :=
  if watchpoints.mode &&& moduleModeMask ≠ forbidding then
    (watchpoints.matching addr).bind fun found =>
      (notify event addr value found watcher).map fun after => (.accepted, after)
  else some (.notAccepted, watcher)

/-- `__membus_module_watchpoints_read_addr`. -/
def readAddr (watchpoints : MembusModuleWatchpoints ρ γ ω) (addr : Word) (value : Option Byte)
    (watcher : ω) : Option (OpResult × Byte × ω) :=
  (watchpoints.observe Watchpoint.eventRead moduleModeWo addr value watcher).map
    fun (result, after) => (result, value.getD 0, after)

/-- `__membus_module_watchpoints_write_addr`. -/
def writeAddr (watchpoints : MembusModuleWatchpoints ρ γ ω) (addr : Word) (value : Byte)
    (watcher : ω) : Option (OpResult × ω) :=
  watchpoints.observe Watchpoint.eventWrite moduleModeRo addr (some value) watcher

/-- The module as it is registered on a bus. -/
def module (watchpoints : MembusModuleWatchpoints ρ γ ω) : MembusModule ω where
  addrRange := watchpoints.addrRange
  readCallback := some watchpoints.readAddr
  writeCallback := some watchpoints.writeAddr

/-! ## The answer of the module -/

/-- The event of a transaction. -/
def event : Operation → BitVec 32
  | .read => Watchpoint.eventRead
  | .write _ => Watchpoint.eventWrite

/-- The mode that forbids a transaction. -/
def forbidding : Operation → BitVec 32
  | .read => moduleModeWo
  | .write _ => moduleModeRo

/-- The module lets a transaction through to its watchpoints. -/
def Allows (watchpoints : MembusModuleWatchpoints ρ γ ω) (operation : Operation) : Prop :=
  watchpoints.mode &&& moduleModeMask ≠ forbidding operation

instance (watchpoints : MembusModuleWatchpoints ρ γ ω) (operation : Operation) :
    Decidable (watchpoints.Allows operation) := inferInstanceAs (Decidable (¬ _))

/-- A watchpoint would be called with the byte behind a null pointer. -/
def Dereferences (event : BitVec 32) (value : Option Byte)
    (found : List (Watchpoint (WatchpointCallback γ ω) γ)) : Prop :=
  value = none ∧ ∃ wp ∈ found, Wants event wp

instance (event : BitVec 32) (value : Option Byte)
    (found : List (Watchpoint (WatchpointCallback γ ω) γ)) :
    Decidable (Dereferences event value found) := inferInstanceAs (Decidable (_ ∧ _))

theorem notify_isSome_iff (event : BitVec 32) (addr : Word) (value : Option Byte)
    (found : List (Watchpoint (WatchpointCallback γ ω) γ)) (watcher : ω) :
    (notify event addr value found watcher).isSome = true ↔ ¬ Dereferences event value found := by
  induction found generalizing watcher with
  | nil => simp [notify, Dereferences]
  | cons wp rest ih =>
      rw [notify]
      by_cases wants : Wants event wp
      · rw [if_pos wants]
        cases value with
        | none => simp [Dereferences, wants]
        | some byte =>
            refine (ih _).trans ?_
            simp [Dereferences]
      · rw [if_neg wants, ih]
        simp [Dereferences, wants]

end MembusModuleWatchpoints
end System6502
