import System6502.Lib.LinkedTree
import System6502.Registers

/-!
# Address watchpoints

The tree in which a watchpoints module keeps the watchpoints on single addresses: a node for each
address with its smaller and larger addresses to the left and right, and below each node a chain
of further watchpoints on the same address.
-/

namespace System6502

/-- `membus_watchpoint_t`, without the subtype and the module, which are the same for all
watchpoints of a list. -/
structure Watchpoint (κ γ : Type*) where
  /-- The events that the watchpoint asks for. -/
  onEvents : BitVec 32
  /-- The callback function. -/
  callbackFn : κ
  /-- The context handed to the callback. -/
  context : γ
  deriving DecidableEq, Repr

namespace Watchpoint

/-- `membus_watchpoint_event_read`. -/
def eventRead : BitVec 32 := 1

/-- `membus_watchpoint_event_write`. -/
def eventWrite : BitVec 32 := 2

/-- `membus_watchpoint_event_all`. -/
def eventAll : BitVec 32 := eventRead ||| eventWrite

/-- `membus_watchpoint_event_merge_at_register`. -/
def eventMergeAtRegister : BitVec 32 := 8

end Watchpoint

/-- The links from a node of the tree to the nodes below it. -/
inductive Branch
  | left
  | right
  | child
  deriving DecidableEq, Repr

/-- `membus_watchpoint_addr_t`. -/
structure WatchpointAddr (ρ κ γ : Type*) where
  /-- What every watchpoint has. -/
  base : Watchpoint κ γ
  /-- The address. -/
  addr : Word
  /-- The smaller addresses. -/
  left : Option ρ
  /-- The larger addresses. -/
  right : Option ρ
  /-- The node above. -/
  parent : Option ρ
  /-- The next watchpoint on the address. -/
  child : Option ρ
  deriving DecidableEq, Repr

namespace WatchpointAddr

variable {ρ κ γ : Type*}

/-- `__membus_watchpoint_addr_alloc`, with the fields that registration sets next. -/
def alloc (base : Watchpoint κ γ) (addr : Word) (parent : Option ρ) : WatchpointAddr ρ κ γ where
  base
  addr
  left := none
  right := none
  parent
  child := none

/-- The link of a branch. -/
def link (node : WatchpointAddr ρ κ γ) : Branch → Option ρ
  | .left => node.left
  | .right => node.right
  | .child => node.child

/-- Set the link of a branch. -/
def setLink (node : WatchpointAddr ρ κ γ) (target : Option ρ) : Branch → WatchpointAddr ρ κ γ
  | .left => { node with left := target }
  | .right => { node with right := target }
  | .child => { node with child := target }

end WatchpointAddr

/-- The nodes in memory and the root pointer of a watchpoints module. -/
structure AddressTree (ρ κ γ : Type*) where
  /-- Memory, seen as nodes. -/
  nodes : ρ → WatchpointAddr ρ κ γ
  /-- The nodes allocated and not freed. -/
  allocated : Finset ρ
  /-- The root pointer of the module. -/
  addresses : Option ρ

namespace AddressTree

variable {ρ κ γ : Type*}

/-- A module without address watchpoints. -/
def empty (nodes : ρ → WatchpointAddr ρ κ γ) : AddressTree ρ κ γ where
  nodes
  allocated := ∅
  addresses := none

/-! ## Search -/

/-- `__membus_watchpoint_addr_find_addr`, in at most `fuel` rounds of its loop. -/
def findAddr (tree : AddressTree ρ κ γ) (addr : Word) : Nat → Option ρ → Option (Option ρ)
  | _, none => some none
  | 0, some _ => none
  | fuel + 1, some wp =>
      if (tree.nodes wp).addr = addr then some (some wp)
      else if (tree.nodes wp).addr > addr then tree.findAddr addr fuel (tree.nodes wp).left
      else tree.findAddr addr fuel (tree.nodes wp).right

/-- The watchpoints met along `child` links, in at most `fuel` rounds. -/
def chain (tree : AddressTree ρ κ γ) : Nat → Option ρ → Option (List ρ)
  | _, none => some []
  | 0, some _ => none
  | fuel + 1, some wp => (tree.chain fuel (tree.nodes wp).child).map (wp :: ·)

/-- Where registration ends up. -/
inductive Slot (ρ : Type*)
  /-- At a watchpoint on the address with the same callback. -/
  | existing (wp : ρ)
  /-- At a null link. -/
  | vacant (wp : ρ) (branch : Branch)
  deriving DecidableEq, Repr

/-- The loop over the watchpoints on one address. -/
def chainSlot [DecidableEq κ] (tree : AddressTree ρ κ γ) (callbackFn : κ) :
    Nat → ρ → Option (Slot ρ)
  | 0, _ => none
  | fuel + 1, wp =>
      if (tree.nodes wp).base.callbackFn = callbackFn then some (.existing wp)
      else match (tree.nodes wp).child with
        | some next => tree.chainSlot callbackFn fuel next
        | none => some (.vacant wp .child)

/-- The loop over the addresses. -/
def treeSlot [DecidableEq κ] (tree : AddressTree ρ κ γ) (callbackFn : κ) (addr : Word) :
    Nat → ρ → Option (Slot ρ)
  | 0, _ => none
  | fuel + 1, wp =>
      if (tree.nodes wp).addr = addr then tree.chainSlot callbackFn (fuel + 1) wp
      else if (tree.nodes wp).addr > addr then
        match (tree.nodes wp).left with
        | some next => tree.treeSlot callbackFn addr fuel next
        | none => some (.vacant wp .left)
      else
        match (tree.nodes wp).right with
        | some next => tree.treeSlot callbackFn addr fuel next
        | none => some (.vacant wp .right)

/-- The last node reached along the links of one branch. -/
def outermost (tree : AddressTree ρ κ γ) (branch : Branch) : Nat → ρ → Option ρ
  | 0, _ => none
  | fuel + 1, leaf =>
      match (tree.nodes leaf).link branch with
      | some next => tree.outermost branch fuel next
      | none => some leaf

/-! ## Updates -/

section Update

variable [DecidableEq ρ]

/-- Change one node. -/
def modify (tree : AddressTree ρ κ γ) (ref : ρ)
    (change : WatchpointAddr ρ κ γ → WatchpointAddr ρ κ γ) : AddressTree ρ κ γ :=
  { tree with nodes := Function.update tree.nodes ref (change (tree.nodes ref)) }

/-- Set a link to a node below. -/
def setLink (tree : AddressTree ρ κ γ) (ref : ρ) (branch : Branch) (target : Option ρ) :
    AddressTree ρ κ γ :=
  tree.modify ref fun node => node.setLink target branch

/-- Set the link to the node above, if there is a node to set it in. -/
def setParent (tree : AddressTree ρ κ γ) (below : Option ρ) (above : Option ρ) :
    AddressTree ρ κ γ :=
  match below with
  | some ref => tree.modify ref fun node => { node with parent := above }
  | none => tree

/-- Allocate a node. -/
def allocate (tree : AddressTree ρ κ γ) (ref : ρ) (node : WatchpointAddr ρ κ γ) :
    AddressTree ρ κ γ :=
  { tree with
    nodes := Function.update tree.nodes ref node
    allocated := insert ref tree.allocated }

/-- `__membus_watchpoint_addr_free`; the memory keeps its contents. -/
def free (tree : AddressTree ρ κ γ) (ref : ρ) : AddressTree ρ κ γ :=
  { tree with allocated := tree.allocated.erase ref }

/-! ## Registration -/

/-- The event mask of a watchpoint that is registered again. -/
def mergedEvents (old onEvents : BitVec 32) : BitVec 32 :=
  if onEvents &&& Watchpoint.eventMergeAtRegister ≠ 0 then
    old ||| (onEvents &&& Watchpoint.eventAll)
  else onEvents &&& Watchpoint.eventAll

/-- Registration at the place that its loops have found. -/
def registerAt (tree : AddressTree ρ κ γ) (watchpoint : Watchpoint κ γ) (addr : Word)
    (allocated : Option ρ) : Slot ρ → AddressTree ρ κ γ × Option ρ
  | .existing wp =>
      (tree.modify wp fun node =>
        { node with
          base := { node.base with
            onEvents := mergedEvents node.base.onEvents watchpoint.onEvents } },
        some wp)
  | .vacant above branch =>
      match allocated with
      | some wp =>
          ((tree.allocate wp (.alloc
              { watchpoint with onEvents := watchpoint.onEvents &&& Watchpoint.eventAll }
              addr (some above))).setLink above branch (some wp),
            some wp)
      | none => (tree, none)

/-- `__membus_watchpoint_addr_register`, with the answer of the allocator; there is no outcome
when a loop does not end. -/
def register [DecidableEq κ] (tree : AddressTree ρ κ γ) (watchpoint : Watchpoint κ γ)
    (addr : Word) (allocated : Option ρ) : Option (AddressTree ρ κ γ × Option ρ) :=
  match tree.addresses with
  | none =>
      match allocated with
      | some wp =>
          some ({ tree.allocate wp (.alloc watchpoint addr none) with addresses := some wp },
            some wp)
      | none => some (tree, none)
  | some root =>
      (tree.treeSlot watchpoint.callbackFn addr tree.allocated.card root).map
        (tree.registerAt watchpoint addr allocated)

/-! ## Removal -/

/-- Hand a branch of one node to another. -/
def adopt (tree : AddressTree ρ κ γ) (branch : Branch) (heir former : ρ) : AddressTree ρ κ γ :=
  (tree.setLink heir branch ((tree.nodes former).link branch)).setParent
    ((tree.nodes former).link branch) (some heir)

/-- The node that takes the place of a removed one, after it has taken over its branches: its
first child, the outermost node of its farther branch when it has both, or its only branch. -/
def replacement (tree : AddressTree ρ κ γ) (near far : Branch) (wp : ρ) :
    Option (AddressTree ρ κ γ × Option ρ) :=
  match (tree.nodes wp).child with
  | some child =>
      some ((tree.adopt .left child wp).adopt .right child wp, some child)
  | none =>
      match (tree.nodes wp).link near, (tree.nodes wp).link far with
      | some _, some second =>
          (tree.outermost far tree.allocated.card second).map fun leaf =>
            ((tree.adopt .left leaf wp).adopt .right leaf wp, some leaf)
      | some first, none => some (tree, some first)
      | none, second => some (tree, second)

/-- `__membus_watchpoint_addr_unregister`; there is no outcome when its loop does not end. -/
def unregister (tree : AddressTree ρ κ γ) (wp : ρ) : Option (AddressTree ρ κ γ) :=
  match (tree.nodes wp).parent with
  | none =>
      (tree.replacement .left .right wp).map fun (tree, heir) =>
        ({ tree.setParent heir none with addresses := heir } : AddressTree ρ κ γ).free wp
  | some parent =>
      if (tree.nodes parent).child = some wp then
        some ((tree.setLink parent .child (tree.nodes wp).child).free wp)
      else if (tree.nodes parent).left = some wp then
        (tree.replacement .left .right wp).map fun (tree, heir) =>
          ((tree.setParent heir (some parent)).setLink parent .left heir).free wp
      else
        (tree.replacement .right .left wp).map fun (tree, heir) =>
          ((tree.setParent heir (some parent)).setLink parent .right heir).free wp

end Update
end AddressTree
end System6502
