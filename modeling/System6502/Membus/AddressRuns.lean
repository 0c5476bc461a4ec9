import System6502.Membus.Removal

/-!
# Runs of registrations and removals

The exact runs along which the address watchpoints of a module form a search tree.
-/

namespace System6502

open Lib

namespace AddressTree

variable {ρ κ γ : Type*}

/-- The tree, with the address of each watchpoint that is registered and not yet removed. -/
structure Session (ρ κ γ : Type*) where
  /-- The tree in memory. -/
  tree : AddressTree ρ κ γ
  /-- The addresses of the live watchpoints. -/
  live : ρ → Option Word

/-- The two operations on address watchpoints. -/
inductive Call (ρ κ γ : Type*)
  /-- Register a watchpoint on an address, with the answer of the allocator. -/
  | register (watchpoint : Watchpoint κ γ) (addr : Word) (allocated : Option ρ)
  /-- Remove a watchpoint. -/
  | unregister (wp : ρ)
  deriving DecidableEq, Repr

/-- A session without watchpoints. -/
def Session.empty (nodes : ρ → WatchpointAddr ρ κ γ) : Session ρ κ γ where
  tree := .empty nodes
  live _ := none

/-- The operations a caller may perform: it removes only what it has registered, and the allocator
hands out only what is free.  After a call that has not returned there is no other. -/
def Call.Valid : Option (Session ρ κ γ) → Call ρ κ γ → Prop
  | some session, .register _ _ allocated => ∀ wp ∈ allocated, wp ∉ session.tree.allocated
  | some session, .unregister wp => session.live wp ≠ none
  | none, _ => False

/-- The removals that a tree withstands: of a watchpoint that does not have both subtrees while no
other watchpoint shares its address, nor stands between two others on its address. -/
def Call.Gentle : Option (Session ρ κ γ) → Call ρ κ γ → Prop
  | some session, .unregister wp => ¬ session.tree.Splits wp ∧ ¬ session.tree.Skips wp
  | _, _ => True

variable [DecidableEq ρ] [DecidableEq κ]

instance (session : Option (Session ρ κ γ)) (call : Call ρ κ γ) :
    Decidable (call.Valid session) :=
  match session, call with
  | some session, .register _ _ allocated =>
      inferInstanceAs (Decidable (∀ wp ∈ allocated, wp ∉ session.tree.allocated))
  | some session, .unregister wp => inferInstanceAs (Decidable (session.live wp ≠ none))
  | none, _ => inferInstanceAs (Decidable False)

instance (session : Option (Session ρ κ γ)) (call : Call ρ κ γ) :
    Decidable (call.Gentle session) :=
  match session, call with
  | some session, .unregister wp =>
      inferInstanceAs (Decidable (¬ session.tree.Splits wp ∧ ¬ session.tree.Skips wp))
  | some _, .register .. => inferInstanceAs (Decidable True)
  | none, _ => inferInstanceAs (Decidable True)

/-- One call after the other; the state is lost when a call does not return. -/
def watching : Machine (Option (Session ρ κ γ)) (Call ρ κ γ) (Option ρ) where
  step
    | some session, .register watchpoint addr allocated =>
        match session.tree.register watchpoint addr allocated with
        | some (tree, wp) => (some { tree, live := registered session.live addr wp }, [wp])
        | none => (none, [])
    | some session, .unregister wp =>
        match session.tree.unregister wp with
        | some tree => (some { tree, live := Function.update session.live wp none }, [])
        | none => (none, [])
    | none, _ => (none, [])

/-- A call returns on a search tree of the live watchpoints. -/
def Searchable (session : Option (Session ρ κ γ)) : Prop :=
  ∃ current ∈ session, current.tree.SearchTree current.live

/-- A call returns on a linked tree of the live watchpoints. -/
def Linked (session : Option (Session ρ κ γ)) : Prop :=
  ∃ current ∈ session, ∃ shape, current.tree.Holds current.live shape

omit [DecidableEq κ] in
theorem Linked.searchable {session : Option (Session ρ κ γ)} (linked : Linked session) :
    Searchable session := by
  obtain ⟨current, current_mem, shape, holds⟩ := linked
  exact ⟨current, current_mem, holds.searchTree⟩

omit [DecidableEq ρ] [DecidableEq κ] in
theorem linked_empty (nodes : ρ → WatchpointAddr ρ κ γ) : Linked (some (Session.empty nodes)) :=
  ⟨_, rfl, .leaf, rfl, trivial, trivial, fun _ _ => ⟨nofun, fun impossible => impossible.1.elim⟩,
    fun _ impossible => impossible.elim⟩

theorem linked_step {session : Option (Session ρ κ γ)} {call : Call ρ κ γ}
    (linked : Linked session) (valid : call.Valid session) (gentle : call.Gentle session) :
    Linked (watching.step session call).1 := by
  obtain ⟨⟨tree, live⟩, rfl, shape, holds⟩ := linked
  cases call with
  | register watchpoint addr allocated =>
      obtain ⟨after, wp, outcome, grown, grown_holds⟩ := holds.register watchpoint addr valid
      refine ⟨⟨after, registered live addr wp⟩, ?_, grown, grown_holds⟩
      simp only [watching, outcome]
      rfl
  | unregister wp =>
      have wp_mem : wp ∈ shape := by
        obtain ⟨addr, live_eq⟩ := Option.ne_none_iff_exists'.mp valid
        exact ((holds.live_iff wp addr).mp live_eq).1
      obtain ⟨after, outcome, pruned, pruned_holds⟩ := holds.unregister wp_mem gentle.1 gentle.2
      refine ⟨⟨after, Function.update live wp none⟩, ?_, pruned, pruned_holds⟩
      simp only [watching, outcome]
      rfl

theorem gentle_of_searchable {session : Option (Session ρ κ γ)} {call : Call ρ κ γ}
    (linked : Linked session) (valid : call.Valid session)
    (searchable : Searchable (watching.step session call).1) : call.Gentle session := by
  obtain ⟨⟨tree, live⟩, rfl, shape, holds⟩ := linked
  cases call with
  | register => trivial
  | unregister wp =>
      have wp_mem : wp ∈ shape := by
        obtain ⟨addr, live_eq⟩ := Option.ne_none_iff_exists'.mp valid
        exact ((holds.live_iff wp addr).mp live_eq).1
      obtain ⟨current, current_mem, searchTree⟩ := searchable
      simp only [watching] at current_mem
      cases outcome : tree.unregister wp with
      | none =>
          rw [outcome] at current_mem
          cases current_mem
      | some after =>
          rw [outcome] at current_mem
          obtain rfl := Option.some.inj current_mem
          exact ⟨fun splits => holds.not_searchTree_of_splits wp_mem splits outcome _ searchTree,
            fun skips => holds.not_searchTree_of_skips wp_mem skips outcome _ searchTree⟩

/-- Along valid calls from an empty tree, every call returns on a search tree of the live
watchpoints exactly when no call removes a watchpoint with both subtrees and no other on its
address, or one between two others on its address. -/
theorem searchable_run_iff (nodes : ρ → WatchpointAddr ρ κ γ) (calls : List (Call ρ κ γ))
    (valid : watching.Meets (fun session call => call.Valid session)
      (some (Session.empty nodes)) calls) :
    watching.Meets (fun session call => Searchable (watching.step session call).1)
        (some (Session.empty nodes)) calls ↔
      watching.Meets (fun session call => call.Gentle session)
        (some (Session.empty nodes)) calls := by
  refine watching.meets_congr_of_meets (fun session call linked valid => ⟨?_, fun gentle => ?_⟩)
    (fun _ _ linked valid gentle => linked_step linked valid gentle) _ calls
    (linked_empty nodes) valid
  · exact gentle_of_searchable linked valid
  · exact (linked_step linked valid gentle).searchable

/-- A registration for all events with one callback, at the place that the allocator hands out. -/
def Call.watch (addr : Word) (wp : Nat) : Call Nat Nat Unit :=
  .register { onEvents := Watchpoint.eventAll, callbackFn := 0, context := () } addr (some wp)

/-- A session without watchpoints in cleared memory. -/
def Session.cleared : Session Nat Nat Unit :=
  .empty fun _ => .alloc { onEvents := 0, callbackFn := 0, context := () } 0 none

/-- The root is removed while it has one subtree. -/
theorem searchable_run_root :
    watching.Meets (fun session call => Searchable (watching.step session call).1)
      (some Session.cleared) [.watch 0x20 0, .watch 0x10 1, .unregister 0] :=
  (searchable_run_iff _ [.watch 0x20 0, .watch 0x10 1, .unregister 0]
    (by decide)).mpr (by decide)

/-- The root is removed while it has two: its replacement becomes its own right subtree. -/
theorem not_searchable_run_root :
    watching.Meets (fun session call => call.Valid session) (some Session.cleared)
        [.watch 0x20 0, .watch 0x10 1, .watch 0x30 2, .unregister 0] ∧
      ¬ watching.Meets (fun session call => Searchable (watching.step session call).1)
        (some Session.cleared) [.watch 0x20 0, .watch 0x10 1, .watch 0x30 2, .unregister 0] := by
  refine ⟨by decide, fun meets => ?_⟩
  obtain ⟨current, current_mem, searchTree⟩ := meets.2.2.2.1
  have pointers : ((watching.run (some Session.cleared)
      [.watch 0x20 0, .watch 0x10 1, .watch 0x30 2, .unregister 0]).map fun session =>
        (session.tree.addresses, (session.tree.nodes 2).right)) = some (some 2, some 2) := by
    decide
  change watching.run (some Session.cleared)
    [.watch 0x20 0, .watch 0x10 1, .watch 0x30 2, .unregister 0] = some current at current_mem
  rw [current_mem] at pointers
  obtain ⟨root_eq, right_eq⟩ := Prod.mk.inj (Option.some.inj pointers)
  exact searchTree.acyclic 2 ⟨2, root_eq, .refl⟩ (.single ⟨.right, right_eq⟩)

end AddressTree
end System6502
