import System6502.Membus.SearchTree
import System6502.Membus.Watchpoints

/-!
# Registration of watchpoints

The three lists of a watchpoints module under the calls that register watchpoints and change their
events, with function pointers as values that can be compared, and the registrations that these
calls amount to.
-/

namespace System6502

/-! ## The lists -/

/-- The lists of `membus_module_watchpoints_t`, over references to watchpoints and pointers to
callback functions. -/
structure WatchpointLists (ρ κ γ : Type*) where
  /-- `generics`. -/
  generics : List (ρ × Watchpoint κ γ)
  /-- `address_ranges`. -/
  addressRanges : List (ρ × Watchpoint κ γ × MemoryAddrRange)
  /-- `addresses`. -/
  addresses : AddressTree ρ κ γ

variable {ρ κ γ ω : Type*}

/-- `membus_watchpoint_set_events`. -/
def Watchpoint.setEvents (watchpoint : Watchpoint κ γ) (onEvents : BitVec 32) : Watchpoint κ γ :=
  { watchpoint with onEvents := AddressTree.mergedEvents watchpoint.onEvents onEvents }

/-- A call of the library, with the answer of the allocator. -/
inductive WatchpointCall (ρ κ γ : Type*)
  | registerAddr (onEvents : BitVec 32) (callback : Option κ) (context : γ) (addr : Word)
      (allocated : Option ρ)
  | registerGeneric (onEvents : BitVec 32) (callback : Option κ) (context : γ)
      (allocated : Option ρ)
  | registerAddrRange (onEvents : BitVec 32) (callback : Option κ) (context : γ)
      (addrRange : MemoryAddrRange) (allocated : Option ρ)
  | setEvents (ref : ρ) (onEvents : BitVec 32)

/-- The answer of the allocator. -/
def WatchpointCall.allocated : WatchpointCall ρ κ γ → Option ρ
  | registerAddr _ _ _ _ allocated => allocated
  | registerGeneric _ _ _ allocated => allocated
  | registerAddrRange _ _ _ _ allocated => allocated
  | setEvents _ _ => none

namespace WatchpointLists

/-- Lists that start empty. -/
def empty (nodes : ρ → WatchpointAddr ρ κ γ) : WatchpointLists ρ κ γ where
  generics := []
  addressRanges := []
  addresses := .empty nodes

variable [DecidableEq ρ] [DecidableEq κ]

/-- `membus_module_watchpoints_register_addr`. -/
def registerAddr (lists : WatchpointLists ρ κ γ) (onEvents : BitVec 32) (callback : Option κ)
    (context : γ) (addr : Word) (allocated : Option ρ) : Option (WatchpointLists ρ κ γ) :=
  match callback with
  | some callbackFn =>
      (lists.addresses.register { onEvents, callbackFn, context } addr allocated).map
        fun (addresses, _) => { lists with addresses }
  | none => some lists

/-- `membus_module_watchpoints_register_generic`. -/
def registerGeneric (lists : WatchpointLists ρ κ γ) (onEvents : BitVec 32) (callback : Option κ)
    (context : γ) (allocated : Option ρ) : WatchpointLists ρ κ γ :=
  match callback, allocated with
  | some callbackFn, some wp =>
      { lists with generics := (wp, { onEvents, callbackFn, context }) :: lists.generics }
  | _, _ => lists

/-- `membus_module_watchpoints_register_addr_range`. -/
def registerAddrRange (lists : WatchpointLists ρ κ γ) (onEvents : BitVec 32) (callback : Option κ)
    (context : γ) (addrRange : MemoryAddrRange) (allocated : Option ρ) : WatchpointLists ρ κ γ :=
  match callback, allocated with
  | some callbackFn, some wp =>
      if addrRange.addrLen ≠ 0 then
        { lists with
          addressRanges :=
            (wp, { onEvents, callbackFn, context }, addrRange) :: lists.addressRanges }
      else lists
  | _, _ => lists

/-- Set the events of the watchpoint at a reference, whichever list it is in. -/
def setEvents (lists : WatchpointLists ρ κ γ) (ref : ρ) (onEvents : BitVec 32) :
    WatchpointLists ρ κ γ where
  generics := lists.generics.map fun wp =>
    if wp.1 = ref then (wp.1, wp.2.setEvents onEvents) else wp
  addressRanges := lists.addressRanges.map fun wp =>
    if wp.1 = ref then (wp.1, wp.2.1.setEvents onEvents, wp.2.2) else wp
  addresses :=
    if ref ∈ lists.addresses.allocated then
      lists.addresses.modify ref fun node => { node with base := node.base.setEvents onEvents }
    else lists.addresses

/-- The lists after a call; there is no outcome when a loop does not end. -/
def apply (lists : WatchpointLists ρ κ γ) : WatchpointCall ρ κ γ → Option (WatchpointLists ρ κ γ)
  | .registerAddr onEvents callback context addr allocated =>
      lists.registerAddr onEvents callback context addr allocated
  | .registerGeneric onEvents callback context allocated =>
      some (lists.registerGeneric onEvents callback context allocated)
  | .registerAddrRange onEvents callback context addrRange allocated =>
      some (lists.registerAddrRange onEvents callback context addrRange allocated)
  | .setEvents ref onEvents => some (lists.setEvents ref onEvents)

/-- The lists after calls one after the other. -/
def applyAll (lists : WatchpointLists ρ κ γ) :
    List (WatchpointCall ρ κ γ) → Option (WatchpointLists ρ κ γ)
  | [] => some lists
  | call :: calls => (lists.apply call).bind fun after => after.applyAll calls

/-- The memory of a watchpoint is in use. -/
def InUse (lists : WatchpointLists ρ κ γ) (ref : ρ) : Prop :=
  ref ∈ lists.addresses.allocated ∨ ref ∈ lists.generics.map Prod.fst ∨
    ref ∈ lists.addressRanges.map Prod.fst

/-- The allocator answers the calls with memory that is not in use. -/
def Allocates (lists : WatchpointLists ρ κ γ) : List (WatchpointCall ρ κ γ) → Prop
  | [] => True
  | call :: calls =>
      (∀ ref ∈ call.allocated, ¬ lists.InUse ref) ∧
        ∀ after ∈ lists.apply call, after.Allocates calls

omit [DecidableEq ρ] [DecidableEq κ] in
/-- The module with its lists, where function pointers stand for functions. -/
def resolve (lists : WatchpointLists ρ κ γ) (code : κ → WatchpointCallback γ ω)
    (addrRange : MemoryAddrRange) (mode : BitVec 32) : MembusModuleWatchpoints ρ γ ω where
  addrRange
  mode
  generics := lists.generics.map fun wp =>
    { onEvents := wp.2.onEvents, callbackFn := code wp.2.callbackFn, context := wp.2.context }
  addressRanges := lists.addressRanges.map fun wp =>
    { base :=
        { onEvents := wp.2.1.onEvents
          callbackFn := code wp.2.1.callbackFn
          context := wp.2.1.context }
      addrRange := wp.2.2 }
  addresses :=
    { nodes := fun ref =>
        let node := lists.addresses.nodes ref
        { base :=
            { onEvents := node.base.onEvents
              callbackFn := code node.base.callbackFn
              context := node.base.context }
          addr := node.addr
          left := node.left
          right := node.right
          parent := node.parent
          child := node.child }
      allocated := lists.addresses.allocated
      addresses := lists.addresses.addresses }

end WatchpointLists

/-! ## Registrations -/

/-- What a registration watches. -/
inductive WatchPlace
  | address (addr : Word)
  | everywhere
  | range (addrRange : MemoryAddrRange)
  deriving DecidableEq, Repr

/-- A place has an address. -/
def WatchPlace.covers : WatchPlace → Word → Bool
  | address watched, addr => watched = addr
  | everywhere, _ => true
  | range addrRange, addr => addrRange.doesInclude addr

/-- A registration: the watchpoint that it returned, what it watches, the events it asks for, and
the callback with its context. -/
structure WatchEntry (ρ κ γ : Type*) where
  /-- The watchpoint. -/
  ref : ρ
  /-- What it watches. -/
  place : WatchPlace
  /-- Its events, callback and context. -/
  base : Watchpoint κ γ

namespace WatchEntry

/-- Ask for other events, or for more when they are to be merged. -/
def ask (entry : WatchEntry ρ κ γ) (onEvents : BitVec 32) : WatchEntry ρ κ γ :=
  { entry with
    base :=
      { entry.base with
        onEvents :=
          if onEvents &&& Watchpoint.eventMergeAtRegister ≠ 0 then entry.base.onEvents ||| onEvents
          else onEvents } }

variable [DecidableEq ρ] [DecidableEq κ]

/-- The registration of a callback at an address. -/
def IsAt (callbackFn : κ) (addr : Word) (entry : WatchEntry ρ κ γ) : Prop :=
  entry.place = .address addr ∧ entry.base.callbackFn = callbackFn

instance (callbackFn : κ) (addr : Word) (entry : WatchEntry ρ κ γ) :
    Decidable (entry.IsAt callbackFn addr) := inferInstanceAs (Decidable (_ ∧ _))

/-- The registrations after a call.  A callback is registered once at an address; to register it
again is to ask for events. -/
def after (entries : List (WatchEntry ρ κ γ)) : WatchpointCall ρ κ γ → List (WatchEntry ρ κ γ)
  | .registerAddr onEvents (some callbackFn) context addr allocated =>
      if ∃ entry ∈ entries, entry.IsAt callbackFn addr then
        entries.map fun entry => if entry.IsAt callbackFn addr then entry.ask onEvents else entry
      else
        match allocated with
        | some ref =>
            { ref, place := .address addr, base := { onEvents, callbackFn, context } } :: entries
        | none => entries
  | .registerGeneric onEvents (some callbackFn) context (some ref) =>
      { ref, place := .everywhere, base := { onEvents, callbackFn, context } } :: entries
  | .registerAddrRange onEvents (some callbackFn) context addrRange (some ref) =>
      if addrRange.addrLen = 0 then entries
      else { ref, place := .range addrRange, base := { onEvents, callbackFn, context } } :: entries
  | .setEvents ref onEvents =>
      entries.map fun entry => if entry.ref = ref then entry.ask onEvents else entry
  | _ => entries

/-- The registrations that calls amount to. -/
def afterAll (calls : List (WatchpointCall ρ κ γ)) : List (WatchEntry ρ κ γ) :=
  calls.foldl after []

omit [DecidableEq ρ] [DecidableEq κ] in
/-- The callbacks, with their contexts, that are due at an event at an address. -/
def due (entries : List (WatchEntry ρ κ γ)) (event : BitVec 32) (addr : Word) : List (κ × γ) :=
  (entries.filter fun entry =>
    entry.place.covers addr && entry.base.onEvents &&& event == event).map fun entry =>
      (entry.base.callbackFn, entry.base.context)

end WatchEntry

end System6502
