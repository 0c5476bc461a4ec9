import System6502.Membus.WatchpointLists

/-!
# Watchpoints that fire

Every sequence of registrations leaves lists that hold what the calls amount to, so that a callback
of the module calls the watchpoints that are due, each once.
-/

namespace System6502

open Lib Lib.LinkedTree

variable {ρ κ γ ω : Type*}

/-! ## Events that can be told apart -/

namespace WatchEntry

/-- A registration with the events that the module looks at. -/
def visible (entry : WatchEntry ρ κ γ) : WatchEntry ρ κ γ :=
  { entry with
    base := { entry.base with onEvents := entry.base.onEvents &&& Watchpoint.eventAll } }

/-- A registration after `membus_watchpoint_set_events` of its watchpoint. -/
def setEvents (entry : WatchEntry ρ κ γ) (onEvents : BitVec 32) : WatchEntry ρ κ γ :=
  { entry with base := entry.base.setEvents onEvents }

theorem or_and (old new mask : BitVec 32) :
    (old ||| new) &&& mask = (old &&& mask) ||| (new &&& mask) := by
  rw [BitVec.and_comm, BitVec.and_or_distrib_left, BitVec.and_comm mask old,
    BitVec.and_comm mask new]

/-- The events asked for, as far as the module looks at them. -/
theorem visible_setEvents (entry : WatchEntry ρ κ γ) (onEvents : BitVec 32) :
    (entry.setEvents onEvents).visible = (entry.ask onEvents).visible := by
  unfold setEvents ask visible Watchpoint.setEvents AddressTree.mergedEvents
  by_cases merge : onEvents &&& Watchpoint.eventMergeAtRegister ≠ 0
  · simp only [if_pos merge, or_and, BitVec.and_assoc, BitVec.and_self]
  · simp only [if_neg merge, BitVec.and_assoc, BitVec.and_self]

theorem visible_ask (entry : WatchEntry ρ κ γ) (onEvents : BitVec 32) :
    (entry.visible.ask onEvents).visible = (entry.ask onEvents).visible := by
  unfold ask visible
  by_cases merge : onEvents &&& Watchpoint.eventMergeAtRegister ≠ 0
  · simp only [if_pos merge, or_and, BitVec.and_assoc, BitVec.and_self]
  · simp only [if_neg merge]

theorem visible_visible (entry : WatchEntry ρ κ γ) : entry.visible.visible = entry.visible := by
  simp only [visible, BitVec.and_assoc, BitVec.and_self]

section After

variable [DecidableEq ρ] [DecidableEq κ] {entries : List (WatchEntry ρ κ γ)} {callbackFn : κ}
  {addr : Word}

theorem after_of_isAt (held : ∃ entry ∈ entries, entry.IsAt callbackFn addr) (onEvents : BitVec 32)
    (context : γ) (allocated : Option ρ) :
    after entries (.registerAddr onEvents (some callbackFn) context addr allocated) =
      entries.map fun entry =>
        if entry.IsAt callbackFn addr then entry.ask onEvents else entry := if_pos held

theorem after_of_not_isAt (unheld : ¬ ∃ entry ∈ entries, entry.IsAt callbackFn addr)
    (onEvents : BitVec 32) (context : γ) (allocated : Option ρ) :
    after entries (.registerAddr onEvents (some callbackFn) context addr allocated) =
      match allocated with
      | some ref =>
          { ref, place := .address addr, base := { onEvents, callbackFn, context } } :: entries
      | none => entries := if_neg unheld

end After

/-- Lists of registrations that agree on what the module looks at agree after some of them ask for
other events. -/
theorem perm_ask {entries others : List (WatchEntry ρ κ γ)} {asks : WatchEntry ρ κ γ → Prop}
    [DecidablePred asks] (blind : ∀ entry : WatchEntry ρ κ γ, asks entry.visible ↔ asks entry)
    (onEvents : BitVec 32) (perm : (entries.map visible).Perm (others.map visible)) :
    ((entries.map fun entry => if asks entry then entry.ask onEvents else entry).map visible).Perm
      ((others.map fun entry =>
        if asks entry then entry.setEvents onEvents else entry).map visible) := by
  let change (entry : WatchEntry ρ κ γ) := if asks entry then entry.ask onEvents else entry
  have change_visible : ∀ entry, (change entry.visible).visible = (change entry).visible := by
    intro entry
    unfold change
    simp only [blind]
    split
    · exact visible_ask entry onEvents
    · exact visible_visible entry
  have through : ∀ list : List (WatchEntry ρ κ γ),
      (list.map change).map visible = (list.map visible).map (visible ∘ change) := by
    intro list
    rw [List.map_map, List.map_map]
    exact List.map_congr_left fun entry _ => (change_visible entry).symm
  have set_eq : (others.map fun entry =>
      if asks entry then entry.setEvents onEvents else entry).map visible =
        (others.map change).map visible := by
    rw [List.map_map, List.map_map]
    refine List.map_congr_left fun entry _ => ?_
    unfold change
    simp only [Function.comp_apply]
    split
    · exact visible_setEvents entry onEvents
    · rfl
  rw [set_eq, through others]
  exact (List.Perm.of_eq (through entries)).trans (perm.map _)

end WatchEntry

/-! ## Registration in the tree -/

namespace AddressTree

/-- The registration that a node stands for. -/
def entry (tree : AddressTree ρ κ γ) (ref : ρ) : WatchEntry ρ κ γ where
  ref
  place := .address (tree.key ref)
  base := (tree.nodes ref).base

/-- No watchpoint on an address has a callback. -/
def Absent (tree : AddressTree ρ κ γ) (shape : LinkedTree ρ Branch) (callbackFn : κ)
    (addr : Word) : Prop :=
  ∀ ref ∈ shape, tree.key ref = addr → (tree.nodes ref).base.callbackFn ≠ callbackFn

/-- What registration does to the tree: nothing without memory, a new node for a callback that is
not there, or other events for one that is. -/
inductive Registers (tree : AddressTree ρ κ γ) (shape : LinkedTree ρ Branch)
    (watchpoint : Watchpoint κ γ) (addr : Word) : Option ρ → AddressTree ρ κ γ → Prop
  | refused (absent : tree.Absent shape watchpoint.callbackFn addr) :
      Registers tree shape watchpoint addr none tree
  | planted {wp : ρ} {after : AddressTree ρ κ γ} {live : ρ → Option Word}
      {grown : LinkedTree ρ Branch} {onEvents : BitVec 32}
      (absent : tree.Absent shape watchpoint.callbackFn addr) (fresh : wp ∉ shape)
      (holds : after.Holds live grown) (grown_iff : ∀ ref, ref ∈ grown ↔ ref = wp ∨ ref ∈ shape)
      (onEvents_eq : onEvents &&& Watchpoint.eventAll = watchpoint.onEvents &&& Watchpoint.eventAll)
      (entry_wp : after.entry wp =
        { ref := wp, place := .address addr, base := { watchpoint with onEvents } })
      (entry_other : ∀ ref ∈ shape, after.entry ref = tree.entry ref) :
      Registers tree shape watchpoint addr (some wp) after
  | asked {wp : ρ} {after : AddressTree ρ κ γ} {live : ρ → Option Word} {allocated : Option ρ}
      (wp_mem : wp ∈ shape) (key_eq : tree.key wp = addr)
      (callback_eq : (tree.nodes wp).base.callbackFn = watchpoint.callbackFn)
      (holds : after.Holds live shape)
      (entry_wp : after.entry wp = (tree.entry wp).setEvents watchpoint.onEvents)
      (entry_other : ∀ ref ≠ wp, after.entry ref = tree.entry ref) :
      Registers tree shape watchpoint addr allocated after

section Update

variable [DecidableEq ρ]

theorem entry_setLink (tree : AddressTree ρ κ γ) (ref other : ρ) (branch : Branch)
    (target : Option ρ) : (tree.setLink ref branch target).entry other = tree.entry other := by
  have base_eq : ((tree.setLink ref branch target).nodes other).base = (tree.nodes other).base := by
    by_cases here : other = ref
    · subst here
      cases branch <;> simp [setLink, modify, WatchpointAddr.setLink]
    · simp [setLink, modify, here]
  rw [entry, entry, base_eq, key_setLink]

theorem entry_allocate_self (tree : AddressTree ρ κ γ) (wp : ρ) (base : Watchpoint κ γ)
    (addr : Word) (parent : Option ρ) :
    (tree.allocate wp (.alloc base addr parent)).entry wp =
      { ref := wp, place := .address addr, base } := by
  have node_eq : (tree.allocate wp (.alloc base addr parent)).nodes wp =
      .alloc base addr parent := Function.update_self ..
  rw [entry, key, node_eq]
  rfl

theorem entry_allocate_ne (tree : AddressTree ρ κ γ) {wp ref : ρ} (ref_ne : ref ≠ wp)
    (node : WatchpointAddr ρ κ γ) : (tree.allocate wp node).entry ref = tree.entry ref := by
  have node_eq : (tree.allocate wp node).nodes ref = tree.nodes ref :=
    Function.update_of_ne ref_ne ..
  rw [entry, key, node_eq]
  rfl

/-- A change of the events of a node. -/
theorem entry_rebase (tree : AddressTree ρ κ γ) (wp ref : ρ) (onEvents : BitVec 32) :
    (tree.modify wp fun node =>
        { node with base := node.base.setEvents onEvents }).entry ref =
      if ref = wp then (tree.entry wp).setEvents onEvents else tree.entry ref := by
  by_cases here : ref = wp
  · subst here
    rw [if_pos rfl, entry, key, modify]
    simp only [Function.update_self]
    rfl
  · rw [if_neg here, entry, key, modify]
    simp only [Function.update_of_ne here]
    rfl

variable [DecidableEq κ]

/-- Registration ends, with one of these outcomes. -/
theorem Holds.registers {tree : AddressTree ρ κ γ} {live : ρ → Option Word}
    {shape : LinkedTree ρ Branch} (holds : tree.Holds live shape) (watchpoint : Watchpoint κ γ)
    (addr : Word) {allocated : Option ρ} (fresh : ∀ wp ∈ allocated, wp ∉ tree.allocated) :
    ∃ after wp, tree.register watchpoint addr allocated = some (after, wp) ∧
      Registers tree shape watchpoint addr allocated after := by
  have outside : ∀ wp ∈ allocated, wp ∉ shape := fun wp given wp_mem =>
    fresh wp given (holds.allocated wp wp_mem)
  cases root_eq : tree.addresses with
  | none =>
      obtain rfl := (root_eq ▸ holds.represents).eq_leaf
      have absent : tree.Absent leaf watchpoint.callbackFn addr := fun ref ref_mem =>
        absurd ref_mem (not_mem_leaf ref)
      cases allocated with
      | none => exact ⟨tree, none, by rw [AddressTree.register, root_eq], .refused absent⟩
      | some wp =>
          refine ⟨_, some wp, by rw [AddressTree.register, root_eq], ?_⟩
          refine .planted absent (not_mem_leaf wp) (holds.plantRoot watchpoint addr wp)
            (fun ref => ?_) rfl ?_ fun ref ref_mem => absurd ref_mem (not_mem_leaf ref)
          · rw [mem_sprout, or_iff_left (not_mem_leaf ref)]
          · exact tree.entry_allocate_self wp watchpoint addr none
  | some root =>
      have represents := root_eq ▸ holds.represents
      obtain ⟨slot, slot_eq, fits⟩ := treeSlot_spec watchpoint.callbackFn addr represents
        holds.ordered holds.height
      have decides := treeSlot_decides represents holds.ordered slot_eq
      have outcome : ∀ result, tree.registerAt watchpoint addr allocated slot = result →
          tree.register watchpoint addr allocated = some result := by
        rintro result rfl
        simp only [AddressTree.register, root_eq, slot_eq, Option.map_some]
      cases slot with
      | vacant upper branch =>
          cases allocated with
          | none => exact ⟨tree, none, outcome _ rfl, .refused decides⟩
          | some wp =>
              refine ⟨_, some wp, outcome _ rfl, ?_⟩
              refine .planted decides (outside wp rfl) (holds.plant (fresh wp rfl) fits)
                (fun ref => ?_) ?_ ((entry_setLink ..).trans (entry_allocate_self ..))
                fun ref ref_mem => (entry_setLink ..).trans (entry_allocate_ne _ ?_ _)
              · obtain ⟨⟨below, has, empty⟩, -⟩ := fits
                rw [mem_graft holds.distinct has, mem_sprout, empty]
                simp [or_comm]
              · rw [BitVec.and_assoc, BitVec.and_self]
              · rintro rfl
                exact outside ref rfl ref_mem
      | existing wp =>
          refine ⟨_, some wp, outcome _ rfl, ?_⟩
          refine .asked fits.1 fits.2 decides (holds.rebase wp _) ?_ fun ref ref_ne => ?_
          · exact (entry_rebase tree wp wp watchpoint.onEvents).trans (if_pos rfl)
          · exact (entry_rebase tree wp ref watchpoint.onEvents).trans (if_neg ref_ne)

end Update

end AddressTree

/-! ## Lists and registrations -/

namespace WatchpointLists

/-- The registrations in the lists, where the nodes of the tree are given. -/
def entries (lists : WatchpointLists ρ κ γ) (refs : List ρ) : List (WatchEntry ρ κ γ) :=
  refs.map lists.addresses.entry ++
    (lists.generics.map fun wp => { ref := wp.1, place := .everywhere, base := wp.2 }) ++
    lists.addressRanges.map fun wp => { ref := wp.1, place := .range wp.2.2, base := wp.2.1 }

/-- The lists hold some registrations, each once. -/
structure Tracks (lists : WatchpointLists ρ κ γ) (registered : List (WatchEntry ρ κ γ))
    (live : ρ → Option Word) (shape : LinkedTree ρ Branch) (refs : List ρ) : Prop where
  /-- The tree is one. -/
  holds : lists.addresses.Holds live shape
  /-- Its nodes are listed once. -/
  nodup : refs.Nodup
  /-- All its nodes are listed. -/
  refs_iff : ∀ ref, ref ∈ refs ↔ ref ∈ shape
  /-- A callback is on an address once. -/
  single : ∀ ref ∈ refs, ∀ other ∈ refs,
    (lists.addresses.entry ref).place = (lists.addresses.entry other).place →
      (lists.addresses.entry ref).base.callbackFn = (lists.addresses.entry other).base.callbackFn →
        ref = other
  /-- The registrations are those in the lists. -/
  perm : (registered.map WatchEntry.visible).Perm ((lists.entries refs).map WatchEntry.visible)

/-- The lists hold some registrations. -/
def Holds (lists : WatchpointLists ρ κ γ) (registered : List (WatchEntry ρ κ γ)) : Prop :=
  ∃ live shape refs, lists.Tracks registered live shape refs

theorem holds_empty (nodes : ρ → WatchpointAddr ρ κ γ) :
    (empty nodes : WatchpointLists ρ κ γ).Holds [] := by
  refine ⟨fun _ => none, leaf, [], ?_, List.nodup_nil, fun ref => ?_, ?_, .refl _⟩
  · exact
      { represents := rfl
        distinct := trivial
        ordered := trivial
        live_iff := fun ref addr => ⟨fun absent => absurd absent (by simp), fun absent =>
          absurd absent.1 (not_mem_leaf ref)⟩
        allocated := fun ref absent => absurd absent (not_mem_leaf ref) }
  · exact iff_of_false List.not_mem_nil (not_mem_leaf ref)
  · exact fun ref absent => absurd absent List.not_mem_nil

section Steps

variable [DecidableEq ρ] [DecidableEq κ] {lists : WatchpointLists ρ κ γ}
  {registered : List (WatchEntry ρ κ γ)}

omit [DecidableEq ρ] [DecidableEq κ] in
/-- A further registration in the middle of the lists. -/
theorem perm_cons_middle {front back : List (WatchEntry ρ κ γ)} (new : WatchEntry ρ κ γ)
    (perm : (registered.map WatchEntry.visible).Perm ((front ++ back).map WatchEntry.visible)) :
    ((new :: registered).map WatchEntry.visible).Perm
      ((front ++ new :: back).map WatchEntry.visible) := by
  have moved : (front ++ new :: back).Perm (new :: (front ++ back)) := List.perm_middle
  exact (perm.cons new.visible).trans (moved.map WatchEntry.visible).symm

theorem Holds.registerGeneric (holds : lists.Holds registered) (onEvents : BitVec 32)
    (callback : Option κ) (context : γ) (allocated : Option ρ) :
    (lists.registerGeneric onEvents callback context allocated).Holds
      (WatchEntry.after registered (.registerGeneric onEvents callback context allocated)) := by
  cases callback with
  | none => exact holds
  | some callbackFn =>
      cases allocated with
      | none => exact holds
      | some wp =>
          obtain ⟨live, shape, refs, tracks⟩ := holds
          refine ⟨live, shape, refs, tracks.holds, tracks.nodup, tracks.refs_iff, tracks.single, ?_⟩
          have perm := tracks.perm
          rw [entries, List.append_assoc] at perm
          rw [entries, List.append_assoc]
          exact perm_cons_middle
            { ref := wp, place := .everywhere, base := { onEvents, callbackFn, context } } perm

theorem Holds.registerAddrRange (holds : lists.Holds registered) (onEvents : BitVec 32)
    (callback : Option κ) (context : γ) (addrRange : MemoryAddrRange) (allocated : Option ρ) :
    (lists.registerAddrRange onEvents callback context addrRange allocated).Holds
      (WatchEntry.after registered
        (.registerAddrRange onEvents callback context addrRange allocated)) := by
  cases callback with
  | none => exact holds
  | some callbackFn =>
      cases allocated with
      | none => exact holds
      | some wp =>
          rw [WatchpointLists.registerAddrRange, WatchEntry.after]
          by_cases empty : addrRange.addrLen = 0
          · rw [if_neg (not_not_intro empty), if_pos empty]
            exact holds
          · obtain ⟨live, shape, refs, tracks⟩ := holds
            rw [if_pos empty, if_neg empty]
            refine ⟨live, shape, refs, tracks.holds, tracks.nodup, tracks.refs_iff, tracks.single,
              ?_⟩
            exact perm_cons_middle
              { ref := wp, place := .range addrRange, base := { onEvents, callbackFn, context } }
              tracks.perm

omit [DecidableEq ρ] [DecidableEq κ] in
/-- Other events for some of the watchpoints are other events for their registrations. -/
theorem Tracks.changed {live liveAfter : ρ → Option Word} {shape : LinkedTree ρ Branch}
    {refs : List ρ} (tracks : lists.Tracks registered live shape refs)
    {after : WatchpointLists ρ κ γ} {asks : WatchEntry ρ κ γ → Prop} [DecidablePred asks]
    {onEvents : BitVec 32} (blind : ∀ entry : WatchEntry ρ κ γ, asks entry.visible ↔ asks entry)
    (holds : after.addresses.Holds liveAfter shape)
    (entry_eq : ∀ ref ∈ refs, after.addresses.entry ref =
      if asks (lists.addresses.entry ref) then (lists.addresses.entry ref).setEvents onEvents
      else lists.addresses.entry ref)
    (entries_eq : after.entries refs = (lists.entries refs).map fun entry =>
      if asks entry then entry.setEvents onEvents else entry) :
    after.Tracks (registered.map fun entry => if asks entry then entry.ask onEvents else entry)
      liveAfter shape refs := by
  have kept : ∀ ref ∈ refs,
      (after.addresses.entry ref).place = (lists.addresses.entry ref).place ∧
        (after.addresses.entry ref).base.callbackFn =
          (lists.addresses.entry ref).base.callbackFn := by
    intro ref ref_mem
    rw [entry_eq ref ref_mem]
    split <;> exact ⟨rfl, rfl⟩
  refine ⟨holds, tracks.nodup, tracks.refs_iff, ?_, ?_⟩
  · intro ref ref_mem other other_mem places callbacks
    rw [(kept ref ref_mem).1, (kept other other_mem).1] at places
    rw [(kept ref ref_mem).2, (kept other other_mem).2] at callbacks
    exact tracks.single ref ref_mem other other_mem places callbacks
  · rw [entries_eq]
    exact WatchEntry.perm_ask blind onEvents tracks.perm

/-- The entries of the lists after a change of events. -/
theorem Holds.setEvents (holds : lists.Holds registered) (ref : ρ) (onEvents : BitVec 32) :
    (lists.setEvents ref onEvents).Holds
      (WatchEntry.after registered (.setEvents ref onEvents)) := by
  obtain ⟨live, shape, refs, tracks⟩ := holds
  have listed : ∀ other ∈ refs, other ∈ lists.addresses.allocated := fun other other_mem =>
    tracks.holds.allocated other ((tracks.refs_iff other).mp other_mem)
  have entry_eq : ∀ other ∈ refs, (lists.setEvents ref onEvents).addresses.entry other =
      if other = ref then (lists.addresses.entry other).setEvents onEvents
      else lists.addresses.entry other := by
    intro other other_mem
    rw [WatchpointLists.setEvents]
    dsimp only
    split
    · rw [AddressTree.entry_rebase]
      split
      · rename_i same
        rw [same]
      · rfl
    · rename_i absent
      rw [if_neg]
      rintro rfl
      exact absent (listed other other_mem)
  have still : (lists.setEvents ref onEvents).addresses.Holds live shape := by
    rw [WatchpointLists.setEvents]
    dsimp only
    split
    · exact tracks.holds.rebase ref _
    · exact tracks.holds
  have changed : (lists.setEvents ref onEvents).entries refs = (lists.entries refs).map fun entry =>
      if entry.ref = ref then entry.setEvents onEvents else entry := by
    rw [entries, entries, List.map_append, List.map_append, List.map_map, List.map_map,
      List.map_map]
    refine congrArg₂ (· ++ ·) (congrArg₂ (· ++ ·) ?_ ?_) ?_
    · exact List.map_congr_left entry_eq
    · rw [WatchpointLists.setEvents, List.map_map]
      refine List.map_congr_left fun wp _ => ?_
      simp only [Function.comp_apply]
      split <;> rfl
    · rw [WatchpointLists.setEvents, List.map_map]
      refine List.map_congr_left fun wp _ => ?_
      simp only [Function.comp_apply]
      split <;> rfl
  exact ⟨live, shape, refs, tracks.changed (fun _ => Iff.rfl) still entry_eq changed⟩

omit [DecidableEq ρ] [DecidableEq κ] in
/-- A registration at an address that the lists hold is one of the tree. -/
theorem Tracks.exists_isAt_iff {live : ρ → Option Word} {shape : LinkedTree ρ Branch}
    {refs : List ρ} (tracks : lists.Tracks registered live shape refs) (callbackFn : κ)
    (addr : Word) :
    (∃ entry ∈ registered, entry.IsAt callbackFn addr) ↔
      ¬ lists.addresses.Absent shape callbackFn addr := by
  have visible_iff : ∀ list : List (WatchEntry ρ κ γ),
      (∃ entry ∈ list, entry.IsAt callbackFn addr) ↔
        ∃ entry ∈ list.map WatchEntry.visible, entry.IsAt callbackFn addr := by
    intro list
    constructor
    · rintro ⟨entry, entry_mem, isAt⟩
      exact ⟨entry.visible, List.mem_map_of_mem entry_mem, isAt⟩
    · rintro ⟨seen, seen_mem, isAt⟩
      obtain ⟨entry, entry_mem, rfl⟩ := List.mem_map.mp seen_mem
      exact ⟨entry, entry_mem, isAt⟩
  have same : (∃ entry ∈ registered, entry.IsAt callbackFn addr) ↔
      ∃ entry ∈ lists.entries refs, entry.IsAt callbackFn addr := by
    rw [visible_iff registered, visible_iff (lists.entries refs)]
    exact exists_congr fun entry => and_congr_left fun _ => tracks.perm.mem_iff
  rw [same, AddressTree.Absent]
  constructor
  · rintro ⟨entry, entry_mem, place_eq, callback_eq⟩ absent
    simp only [entries, List.mem_append, List.mem_map] at entry_mem
    rcases entry_mem with (⟨ref, ref_mem, rfl⟩ | ⟨wp, -, rfl⟩) | ⟨wp, -, rfl⟩
    · exact absent ref ((tracks.refs_iff ref).mp ref_mem) (WatchPlace.address.inj place_eq)
        callback_eq
    · cases place_eq
    · cases place_eq
  · intro present
    simp only [not_forall, not_not] at present
    obtain ⟨ref, ref_mem, key_eq, callback_eq⟩ := present
    refine ⟨lists.addresses.entry ref, ?_, congrArg WatchPlace.address key_eq, callback_eq⟩
    rw [entries, List.append_assoc]
    exact List.mem_append_left _
      (List.mem_map_of_mem ((tracks.refs_iff ref).mpr ref_mem))

omit [DecidableEq ρ] [DecidableEq κ] in
/-- A new node in the tree is one more registration. -/
theorem Tracks.planted {live grownLive : ρ → Option Word} {shape grown : LinkedTree ρ Branch}
    {refs : List ρ} (tracks : lists.Tracks registered live shape refs)
    {watchpoint : Watchpoint κ γ} {addr : Word} {new : ρ} {addresses : AddressTree ρ κ γ}
    {onEvents : BitVec 32} (absent : lists.addresses.Absent shape watchpoint.callbackFn addr)
    (outside : new ∉ shape) (holds : addresses.Holds grownLive grown)
    (grown_iff : ∀ ref, ref ∈ grown ↔ ref = new ∨ ref ∈ shape)
    (events_eq : onEvents &&& Watchpoint.eventAll = watchpoint.onEvents &&& Watchpoint.eventAll)
    (entry_new : addresses.entry new =
      { ref := new, place := .address addr, base := { watchpoint with onEvents } })
    (entry_other : ∀ ref ∈ shape, addresses.entry ref = lists.addresses.entry ref) :
    Tracks { lists with addresses }
      ({ ref := new, place := .address addr, base := watchpoint } :: registered) grownLive grown
      (new :: refs) := by
  have place_new : (addresses.entry new).place = .address addr :=
    congrArg WatchEntry.place entry_new
  have callback_new : (addresses.entry new).base.callbackFn = watchpoint.callbackFn :=
    congrArg (fun entry => entry.base.callbackFn) entry_new
  have entry_old : ∀ ref ∈ refs, addresses.entry ref = lists.addresses.entry ref :=
    fun ref ref_mem => entry_other ref ((tracks.refs_iff ref).mp ref_mem)
  have apart : ∀ ref ∈ refs, (addresses.entry ref).place = .address addr →
      (addresses.entry ref).base.callbackFn ≠ watchpoint.callbackFn := by
    intro ref ref_mem place_eq
    rw [entry_old ref ref_mem] at place_eq ⊢
    exact absent ref ((tracks.refs_iff ref).mp ref_mem) (WatchPlace.address.inj place_eq)
  refine
    { holds
      nodup := List.nodup_cons.mpr
        ⟨fun new_mem => outside ((tracks.refs_iff new).mp new_mem), tracks.nodup⟩
      refs_iff := fun ref => by rw [List.mem_cons, grown_iff, tracks.refs_iff]
      single := ?_
      perm := ?_ }
  · intro ref ref_mem other other_mem places callbacks
    dsimp only at places callbacks
    rcases List.mem_cons.mp ref_mem with rfl | ref_old <;>
      rcases List.mem_cons.mp other_mem with rfl | other_old
    · rfl
    · exact absurd (callbacks.symm.trans callback_new)
        (apart other other_old (places.symm.trans place_new))
    · exact absurd (callbacks.trans callback_new)
        (apart ref ref_old (places.trans place_new))
    · rw [entry_old ref ref_old, entry_old other other_old] at places callbacks
      exact tracks.single ref ref_old other other_old places callbacks
  · have entries_eq : entries { lists with addresses } (new :: refs) =
        addresses.entry new :: lists.entries refs := by
      rw [entries, entries, List.map_cons, List.map_congr_left entry_old]
      rfl
    have visible_new : (addresses.entry new).visible =
        ({ ref := new, place := .address addr, base := watchpoint } :
          WatchEntry ρ κ γ).visible := by
      rw [entry_new]
      simp only [WatchEntry.visible, events_eq]
    rw [entries_eq, List.map_cons, List.map_cons, visible_new]
    exact tracks.perm.cons _

omit [DecidableEq ρ] in
/-- Other events for a node of the tree are other events for its registration. -/
theorem Tracks.asked {live askedLive : ρ → Option Word} {shape : LinkedTree ρ Branch}
    {refs : List ρ} (tracks : lists.Tracks registered live shape refs) {callbackFn : κ}
    {onEvents : BitVec 32} {addr : Word} {found : ρ} {addresses : AddressTree ρ κ γ}
    (found_mem : found ∈ shape) (key_eq : lists.addresses.key found = addr)
    (callback_eq : (lists.addresses.nodes found).base.callbackFn = callbackFn)
    (holds : addresses.Holds askedLive shape)
    (entry_found : addresses.entry found = (lists.addresses.entry found).setEvents onEvents)
    (entry_other : ∀ ref ≠ found, addresses.entry ref = lists.addresses.entry ref) :
    Tracks { lists with addresses }
      (registered.map fun entry =>
        if entry.IsAt callbackFn addr then entry.ask onEvents else entry) askedLive shape refs := by
  have found_listed := (tracks.refs_iff found).mpr found_mem
  have isAt_iff : ∀ ref ∈ refs, (lists.addresses.entry ref).IsAt callbackFn addr ↔ ref = found := by
    intro ref ref_mem
    constructor
    · rintro ⟨place_eq, callback_eq'⟩
      exact tracks.single ref ref_mem found found_listed
        (place_eq.trans (congrArg WatchPlace.address key_eq.symm))
        (callback_eq'.trans callback_eq.symm)
    · rintro rfl
      exact ⟨congrArg WatchPlace.address key_eq, callback_eq⟩
  have entry_eq : ∀ ref ∈ refs, addresses.entry ref =
      if (lists.addresses.entry ref).IsAt callbackFn addr then
        (lists.addresses.entry ref).setEvents onEvents
      else lists.addresses.entry ref := by
    intro ref ref_mem
    by_cases here : ref = found
    · rw [if_pos ((isAt_iff ref ref_mem).mpr here), here]
      exact entry_found
    · rw [if_neg ((isAt_iff ref ref_mem).not.mpr here)]
      exact entry_other ref here
  have elsewhere : ∀ entry : WatchEntry ρ κ γ, entry.place ≠ .address addr →
      entry = if entry.IsAt callbackFn addr then entry.setEvents onEvents else entry :=
    fun entry place_ne => (if_neg fun isAt => place_ne isAt.1).symm
  have changed : entries { lists with addresses } refs =
      (lists.entries refs).map fun entry =>
        if entry.IsAt callbackFn addr then entry.setEvents onEvents else entry := by
    rw [entries, entries, List.map_append, List.map_append, List.map_map, List.map_map,
      List.map_map]
    refine congrArg₂ (· ++ ·) (congrArg₂ (· ++ ·) ?_ ?_) ?_
    · exact List.map_congr_left entry_eq
    · exact List.map_congr_left fun wp _ => elsewhere _ WatchPlace.noConfusion
    · exact List.map_congr_left fun wp _ => elsewhere _ WatchPlace.noConfusion
  exact tracks.changed (fun _ => Iff.rfl) holds entry_eq changed

/-- Registration at an address ends, and the lists hold what it amounts to. -/
theorem Holds.registerAddr (holds : lists.Holds registered) (onEvents : BitVec 32)
    (callback : Option κ) (context : γ) (addr : Word) {allocated : Option ρ}
    (fresh : ∀ wp ∈ allocated, wp ∉ lists.addresses.allocated) :
    ∃ after, lists.registerAddr onEvents callback context addr allocated = some after ∧
      after.Holds
        (WatchEntry.after registered (.registerAddr onEvents callback context addr allocated)) := by
  cases callback with
  | none => exact ⟨lists, rfl, holds⟩
  | some callbackFn =>
      obtain ⟨live, shape, refs, tracks⟩ := holds
      obtain ⟨addresses, wp, register_eq, registers⟩ :=
        tracks.holds.registers { onEvents, callbackFn, context } addr fresh
      have held_iff := tracks.exists_isAt_iff callbackFn addr
      refine ⟨{ lists with addresses }, ?_, ?_⟩
      · rw [WatchpointLists.registerAddr]
        dsimp only
        rw [register_eq]
        rfl
      cases registers with
      | refused absent =>
          rw [WatchEntry.after_of_not_isAt (held_iff.not.mpr (not_not_intro absent))]
          exact ⟨live, shape, refs, tracks⟩
      | @planted new _ grownLive grown _ absent outside grownHolds grown_iff events_eq entry_new
          entry_other =>
          rw [WatchEntry.after_of_not_isAt (held_iff.not.mpr (not_not_intro absent))]
          exact ⟨grownLive, grown, new :: refs, tracks.planted absent outside grownHolds grown_iff
            events_eq entry_new entry_other⟩
      | @asked found _ askedLive _ found_mem key_eq callback_eq askedHolds entry_found
          entry_other =>
          rw [WatchEntry.after_of_isAt (held_iff.mpr fun absent =>
            absent found found_mem key_eq callback_eq)]
          exact ⟨askedLive, shape, refs, tracks.asked found_mem key_eq callback_eq askedHolds
            entry_found entry_other⟩

/-- One call with memory that is not in use ends, and the lists hold what it amounts to. -/
theorem Holds.apply (holds : lists.Holds registered) (call : WatchpointCall ρ κ γ)
    (fresh : ∀ ref ∈ call.allocated, ¬ lists.InUse ref) :
    ∃ after, lists.apply call = some after ∧ after.Holds (WatchEntry.after registered call) := by
  cases call with
  | registerAddr onEvents callback context addr allocated =>
      exact holds.registerAddr onEvents callback context addr fun wp given inTree =>
        fresh wp given (.inl inTree)
  | registerGeneric onEvents callback context allocated =>
      exact ⟨_, rfl, holds.registerGeneric onEvents callback context allocated⟩
  | registerAddrRange onEvents callback context addrRange allocated =>
      exact ⟨_, rfl, holds.registerAddrRange onEvents callback context addrRange allocated⟩
  | setEvents ref onEvents => exact ⟨_, rfl, holds.setEvents ref onEvents⟩

/-- All calls end, and the lists hold what they amount to. -/
theorem Holds.applyAll (holds : lists.Holds registered) {calls : List (WatchpointCall ρ κ γ)}
    (allocates : lists.Allocates calls) :
    ∃ after, lists.applyAll calls = some after ∧
      after.Holds (calls.foldl WatchEntry.after registered) := by
  induction calls generalizing lists registered with
  | nil => exact ⟨lists, rfl, holds⟩
  | cons call calls ih =>
      obtain ⟨next, apply_eq, nextHolds⟩ := holds.apply call allocates.1
      obtain ⟨after, applyAll_eq, afterHolds⟩ := ih nextHolds (allocates.2 next apply_eq)
      refine ⟨after, ?_, afterHolds⟩
      rw [WatchpointLists.applyAll, apply_eq]
      exact applyAll_eq

end Steps

end WatchpointLists

/-! ## Callbacks -/

namespace MembusModuleWatchpoints

/-- The callback of the module for an operation, where a read receives a pointer. -/
def callback (watchpoints : MembusModuleWatchpoints ρ γ ω) (operation : Operation) (addr : Word)
    (pointer : Option Byte) (watcher : ω) : Option (OpResult × ω) :=
  match operation with
  | .read =>
      (watchpoints.readAddr addr pointer watcher).map fun (result, _, after) => (result, after)
  | .write value => watchpoints.writeAddr addr value watcher

/-- The byte that the watchpoints are called with, if there is one. -/
def handed (operation : Operation) (pointer : Option Byte) : Option Byte :=
  match operation with
  | .read => pointer
  | .write value => some value

theorem callback_eq (watchpoints : MembusModuleWatchpoints ρ γ ω) (operation : Operation)
    (addr : Word) (pointer : Option Byte) (watcher : ω) :
    watchpoints.callback operation addr pointer watcher =
      watchpoints.observe (event operation) (forbidding operation) addr
        (handed operation pointer) watcher := by
  cases operation with
  | read =>
      rw [callback, readAddr, Option.map_map]
      exact congrFun Option.map_id _
  | write value => rfl

/-- The module looks at the events of both operations. -/
theorem eventAll_and_event (operation : Operation) :
    Watchpoint.eventAll &&& event operation = event operation := by
  cases operation with
  | read => rfl
  | write _ =>
      have writes : Watchpoint.eventAll &&& Watchpoint.eventWrite = Watchpoint.eventWrite := by
        decide
      exact writes

/-- The read-write mode forbids no operation. -/
theorem moduleModeRw_ne_forbidding (operation : Operation) :
    moduleModeRw ≠ forbidding operation := by
  cases operation with
  | read => exact (by decide : moduleModeRw ≠ moduleModeWo)
  | write _ => exact (by decide : moduleModeRw ≠ moduleModeRo)

/-- With a byte at hand, the watchpoints that ask for an event are called one after the other. -/
theorem notify_some (event : BitVec 32) (addr : Word) (byte : Byte)
    (found : List (Watchpoint (WatchpointCallback γ ω) γ)) (watcher : ω) :
    notify event addr (some byte) found watcher =
      some ((found.filter fun wp => Wants event wp).foldl
        (fun watcher wp => wp.callbackFn event addr byte wp.context watcher) watcher) := by
  induction found generalizing watcher with
  | nil => rfl
  | cons wp rest ih =>
      rw [notify]
      by_cases wants : Wants event wp
      · rw [if_pos wants, List.filter_cons, if_pos (decide_eq_true wants), List.foldl_cons]
        exact ih _
      · rw [if_neg wants, List.filter_cons, if_neg (mt of_decide_eq_true wants)]
        exact ih _

/-- Where no watchpoint asks for the event, none is called. -/
theorem notify_of_not_wants {event : BitVec 32} (addr : Word) (value : Option Byte)
    {found : List (Watchpoint (WatchpointCallback γ ω) γ)} (watcher : ω)
    (none_wants : ∀ wp ∈ found, ¬ Wants event wp) :
    notify event addr value found watcher = some watcher := by
  induction found with
  | nil => rfl
  | cons wp rest ih =>
      rw [List.forall_mem_cons] at none_wants
      rw [notify, if_neg none_wants.1]
      exact ih none_wants.2

end MembusModuleWatchpoints

/-! ## The watchpoints that are found -/

namespace AddressTree

/-- A chain is listed with as much fuel as it has nodes. -/
theorem chain_of_length_le {tree : AddressTree ρ κ γ} {rounds fuel : Nat} {pointer : Option ρ}
    {refs : List ρ} (listed : tree.chain rounds pointer = some refs) (enough : refs.length ≤ fuel) :
    tree.chain fuel pointer = some refs := by
  induction refs generalizing rounds fuel pointer with
  | nil =>
      cases pointer with
      | none => cases fuel <;> rfl
      | some wp =>
          cases rounds with
          | zero => cases listed
          | succ rounds =>
              obtain ⟨rest, -, impossible⟩ := Option.map_eq_some_iff.mp listed
              cases impossible
  | cons ref refs ih =>
      cases pointer with
      | none => cases rounds <;> cases listed
      | some wp =>
          cases rounds with
          | zero => cases listed
          | succ rounds =>
              obtain ⟨rest, rest_eq, list_eq⟩ := Option.map_eq_some_iff.mp listed
              cases list_eq
              obtain ⟨fuel, rfl⟩ := Nat.exists_eq_succ_of_ne_zero
                (Nat.ne_of_gt (Nat.lt_of_lt_of_le (Nat.succ_pos _) enough))
              exact Option.map_eq_some_iff.mpr
                ⟨refs, ih rest_eq (Nat.le_of_succ_le_succ enough), rfl⟩

end AddressTree

namespace WatchpointLists

/-- A watchpoint whose function pointer stands for a function. -/
def resolved (code : κ → WatchpointCallback γ ω) (watchpoint : Watchpoint κ γ) :
    Watchpoint (WatchpointCallback γ ω) γ where
  onEvents := watchpoint.onEvents
  callbackFn := code watchpoint.callbackFn
  context := watchpoint.context

section Found

variable (lists : WatchpointLists ρ κ γ) (code : κ → WatchpointCallback γ ω)
  (addrRange : MemoryAddrRange) (mode : BitVec 32)

theorem findAddr_resolve (addr : Word) (fuel : Nat) (pointer : Option ρ) :
    (lists.resolve code addrRange mode).addresses.findAddr addr fuel pointer =
      lists.addresses.findAddr addr fuel pointer := by
  induction fuel generalizing pointer with
  | zero => cases pointer <;> rfl
  | succ fuel ih =>
      cases pointer with
      | none => rfl
      | some wp =>
          rw [AddressTree.findAddr, AddressTree.findAddr, ih, ih]
          rfl

theorem chain_resolve (fuel : Nat) (pointer : Option ρ) :
    (lists.resolve code addrRange mode).addresses.chain fuel pointer =
      lists.addresses.chain fuel pointer := by
  induction fuel generalizing pointer with
  | zero => cases pointer <;> rfl
  | succ fuel ih =>
      cases pointer with
      | none => rfl
      | some wp =>
          rw [AddressTree.chain, AddressTree.chain, ih]
          rfl

/-- The watchpoints at an address, where its chain in the tree is given. -/
def found (refs : List ρ) (addr : Word) : List (Watchpoint κ γ) :=
  refs.map (fun ref => (lists.addresses.nodes ref).base) ++ lists.generics.map Prod.snd ++
    (lists.addressRanges.filter fun wp => wp.2.2.doesInclude addr).map fun wp => wp.2.1

variable {lists} {registered : List (WatchEntry ρ κ γ)} {live : ρ → Option Word}
  {shape : LinkedTree ρ Branch} {refs : List ρ}

/-- The module finds the nodes with the address besides the others. -/
theorem Tracks.matching [DecidableEq ρ] (tracks : lists.Tracks registered live shape refs)
    (addr : Word) :
    ∃ chain, (lists.resolve code addrRange mode).matching addr =
        some ((lists.found chain addr).map (resolved code)) ∧
      chain.Perm (refs.filter fun ref => lists.addresses.key ref = addr) := by
  obtain ⟨top, rounds, chain, find_eq, chain_eq, nodup, chain_iff⟩ :=
    AddressTree.findAddr_spec tracks.holds.represents tracks.holds.distinct tracks.holds.ordered
      tracks.holds.height addr
  have enough : chain.length ≤ lists.addresses.allocated.card := by
    rw [← List.toFinset_card_of_nodup nodup]
    refine Finset.card_le_card fun ref ref_mem => ?_
    exact tracks.holds.allocated ref ((chain_iff ref).mp (List.mem_toFinset.mp ref_mem)).1
  have listed := AddressTree.chain_of_length_le chain_eq enough
  refine ⟨chain, ?_, ?_⟩
  · unfold MembusModuleWatchpoints.matching
    dsimp only
    rw [findAddr_resolve]
    change Option.map _ ((lists.addresses.findAddr addr lists.addresses.allocated.card
      lists.addresses.addresses).bind _) = _
    rw [find_eq, Option.bind_some, chain_resolve]
    change Option.map _ (lists.addresses.chain lists.addresses.allocated.card top) = _
    rw [listed, Option.map_some, found, List.map_append, List.map_append, List.map_map,
      List.map_map, List.map_map]
    refine congrArg some (congrArg₂ (· ++ ·) rfl ?_)
    change List.map _ (List.filter _ (List.map _ lists.addressRanges)) = _
    rw [List.filter_map, List.map_map]
    rfl
  · refine (List.perm_ext_iff_of_nodup nodup (tracks.nodup.filter _)).mpr fun ref => ?_
    rw [chain_iff, List.mem_filter, tracks.refs_iff, decide_eq_true_eq]

end Found

/-- The callbacks, with their contexts, of the watchpoints that ask for an event. -/
def called (event : BitVec 32) (found : List (Watchpoint κ γ)) : List (κ × γ) :=
  (found.filter fun wp => wp.onEvents &&& event == event).map fun wp =>
    (wp.callbackFn, wp.context)

end WatchpointLists

/-! ## What is due -/

namespace WatchEntry

theorem due_append (first second : List (WatchEntry ρ κ γ)) (event : BitVec 32) (addr : Word) :
    due (first ++ second) event addr = due first event addr ++ due second event addr := by
  rw [due, due, due, List.filter_append, List.map_append]

/-- What is due depends on the events that the module looks at. -/
theorem due_visible {event : BitVec 32} (looked : Watchpoint.eventAll &&& event = event)
    (list : List (WatchEntry ρ κ γ)) (addr : Word) :
    due (list.map visible) event addr = due list event addr := by
  rw [due, due, List.filter_map, List.map_map]
  refine congrArg₂ List.map rfl (List.filter_congr fun entry _ => ?_)
  change (entry.place.covers addr &&
    entry.base.onEvents &&& Watchpoint.eventAll &&& event == event) = _
  rw [BitVec.and_assoc, looked]

theorem due_perm {event : BitVec 32} (looked : Watchpoint.eventAll &&& event = event)
    {list other : List (WatchEntry ρ κ γ)}
    (perm : (list.map visible).Perm (other.map visible)) (addr : Word) :
    (due list event addr).Perm (due other event addr) := by
  rw [← due_visible looked list, ← due_visible looked other]
  exact (perm.filter _).map _

end WatchEntry

namespace WatchpointLists

open MembusModuleWatchpoints

theorem due_entries (lists : WatchpointLists ρ κ γ) (refs : List ρ) (event : BitVec 32)
    (addr : Word) :
    WatchEntry.due (lists.entries refs) event addr =
      called event
        (lists.found (refs.filter fun ref => lists.addresses.key ref = addr) addr) := by
  rw [entries, WatchEntry.due_append, WatchEntry.due_append, found, called, List.filter_append,
    List.filter_append, List.map_append, List.map_append]
  refine congrArg₂ (· ++ ·) (congrArg₂ (· ++ ·) ?_ ?_) ?_
  · rw [WatchEntry.due, List.filter_map, List.map_map, List.filter_map, List.map_map,
      List.filter_filter]
    refine congrArg₂ List.map rfl (List.filter_congr fun ref _ => ?_)
    exact Bool.and_comm _ _
  · rw [WatchEntry.due, List.filter_map, List.map_map, List.filter_map, List.map_map]
    refine congrArg₂ List.map rfl (List.filter_congr fun wp _ => ?_)
    exact Bool.true_and _
  · rw [WatchEntry.due, List.filter_map, List.map_map, List.filter_map, List.map_map,
      List.filter_filter]
    refine congrArg₂ List.map rfl (List.filter_congr fun wp _ => ?_)
    exact Bool.and_comm _ _

/-- What callbacks do to a watcher one after the other. -/
def fire (code : κ → WatchpointCallback γ ω) (event : BitVec 32) (addr : Word) (byte : Byte)
    (calls : List (κ × γ)) (watcher : ω) : ω :=
  calls.foldl (fun watcher call => code call.1 event addr byte call.2 watcher) watcher

/-- A callback of the module accepts the operation and calls what is due, in some order, each
once. -/
def FiresExactly (lists : WatchpointLists ρ κ γ) (code : κ → WatchpointCallback γ ω)
    (addrRange : MemoryAddrRange) (mode : BitVec 32) (registered : List (WatchEntry ρ κ γ))
    (operation : Operation) (addr : Word) (pointer : Option Byte) (watcher : ω) : Prop :=
  ∃ calls, calls.Perm (WatchEntry.due registered (event operation) addr) ∧
    (lists.resolve code addrRange mode).callback operation addr pointer watcher =
      some (.accepted,
        fire code (event operation) addr ((handed operation pointer).getD 0) calls watcher)

/-- The watchpoints that ask for an event, with the functions of their pointers, do what is
called. -/
theorem foldl_resolved (code : κ → WatchpointCallback γ ω) (event : BitVec 32) (addr : Word)
    (byte : Byte) (found : List (Watchpoint κ γ)) (watcher : ω) :
    ((found.map (resolved code)).filter fun wp => Wants event wp).foldl
        (fun watcher wp => wp.callbackFn event addr byte wp.context watcher) watcher =
      fire code event addr byte (called event found) watcher := by
  rw [List.filter_map, List.foldl_map, fire, called, List.foldl_map]
  refine congrArg (List.foldl _ watcher) (List.filter_congr fun wp _ => ?_)
  exact (beq_eq_decide _ _).symm

theorem called_eq_nil_iff (code : κ → WatchpointCallback γ ω) (event : BitVec 32)
    (found : List (Watchpoint κ γ)) :
    called event found = [] ↔ ∀ wp ∈ found.map (resolved code), ¬ Wants event wp := by
  rw [called, List.map_eq_nil_iff, List.filter_eq_nil_iff, List.forall_mem_map]
  exact forall₂_congr fun wp _ => not_congr beq_iff_eq

/-- On lists that hold some registrations, a callback of a module in read-write mode fires exactly
unless it is a read with a null pointer for which something is due. -/
theorem Holds.firesExactly_iff [DecidableEq ρ] {lists : WatchpointLists ρ κ γ}
    {registered : List (WatchEntry ρ κ γ)} (holds : lists.Holds registered)
    (code : κ → WatchpointCallback γ ω) (addrRange : MemoryAddrRange) {mode : BitVec 32}
    (readWrite : mode &&& moduleModeMask = moduleModeRw) (operation : Operation) (addr : Word)
    (pointer : Option Byte) (watcher : ω) :
    lists.FiresExactly code addrRange mode registered operation addr pointer watcher ↔
      (operation = .read → pointer = none →
        WatchEntry.due registered Watchpoint.eventRead addr = []) := by
  obtain ⟨live, shape, refs, tracks⟩ := holds
  obtain ⟨chain, matching_eq, chain_perm⟩ := tracks.matching code addrRange mode addr
  have due_called : (called (event operation) (lists.found chain addr)).Perm
      (WatchEntry.due registered (event operation) addr) := by
    refine List.Perm.trans ?_
      (WatchEntry.due_perm (eventAll_and_event operation) tracks.perm addr).symm
    rw [due_entries]
    refine List.Perm.map _ (List.Perm.filter _ ?_)
    exact ((chain_perm.map _).append_right _).append_right _
  have allowed : mode &&& moduleModeMask ≠ forbidding operation :=
    readWrite ▸ moduleModeRw_ne_forbidding operation
  have callback_found : (lists.resolve code addrRange mode).callback operation addr pointer
      watcher = (notify (event operation) addr (handed operation pointer)
        ((lists.found chain addr).map (resolved code)) watcher).map
          fun after => (.accepted, after) := by
    rw [callback_eq, observe]
    change (if mode &&& moduleModeMask ≠ forbidding operation then _ else _) = _
    rw [if_pos allowed, matching_eq]
    rfl
  have fires : ∀ byte, handed operation pointer = some byte →
      lists.FiresExactly code addrRange mode registered operation addr pointer watcher := by
    intro byte handed_eq
    refine ⟨called (event operation) (lists.found chain addr), due_called, ?_⟩
    rw [callback_found, handed_eq, notify_some, foldl_resolved]
    rfl
  cases operation with
  | write value => exact iff_of_true (fires value rfl) Operation.noConfusion
  | read =>
      cases pointer with
      | some byte => exact iff_of_true (fires byte rfl) fun _ absent => nomatch absent
      | none =>
          constructor
          · rintro ⟨calls, -, callback_eq⟩ - -
            obtain ⟨after, after_eq, -⟩ :=
              Option.map_eq_some_iff.mp (callback_found.symm.trans callback_eq)
            have safe := (notify_isSome_iff _ _ _ _ _).mp
              (Option.isSome_iff_exists.mpr ⟨after, after_eq⟩)
            have none_wants := (called_eq_nil_iff code Watchpoint.eventRead _).mpr
              fun wp wp_mem wants => safe ⟨rfl, wp, wp_mem, wants⟩
            exact (due_called.symm.trans (.of_eq none_wants)).eq_nil
          · intro not_due
            have nothing := (due_called.trans (.of_eq (not_due rfl rfl))).eq_nil
            refine ⟨[], .of_eq (not_due rfl rfl).symm, ?_⟩
            have quiet := notify_of_not_wants addr none watcher
              ((called_eq_nil_iff code _ _).mp nothing)
            exact callback_found.trans (Option.map_eq_some_iff.mpr ⟨watcher, quiet, rfl⟩)

/-- Registrations on lists that start empty end, whatever they are; each callback of the module in
read-write mode then fires exactly unless it is a read with a null pointer for which something is
due. -/
theorem fires_iff [DecidableEq ρ] [DecidableEq κ] (nodes : ρ → WatchpointAddr ρ κ γ)
    {calls : List (WatchpointCall ρ κ γ)}
    (allocates : (empty nodes : WatchpointLists ρ κ γ).Allocates calls)
    (code : κ → WatchpointCallback γ ω) (addrRange : MemoryAddrRange) {mode : BitVec 32}
    (readWrite : mode &&& moduleModeMask = moduleModeRw) :
    ∃ lists, (empty nodes).applyAll calls = some lists ∧
      ∀ operation addr pointer watcher,
        lists.FiresExactly code addrRange mode (WatchEntry.afterAll calls) operation addr pointer
            watcher ↔
          (operation = .read → pointer = none →
            WatchEntry.due (WatchEntry.afterAll calls) Watchpoint.eventRead addr = []) := by
  obtain ⟨lists, applyAll_eq, holds⟩ := (holds_empty nodes).applyAll allocates
  exact ⟨lists, applyAll_eq, holds.firesExactly_iff code addrRange readWrite⟩

/-- A callback that writes itself down with its context. -/
def recorder (name : Nat) : WatchpointCallback Nat (List (Nat × Nat)) :=
  fun _ _ _ context record => record ++ [(name, context)]

/-- Memory before anything is registered. -/
def blank (_ : Nat) : WatchpointAddr Nat Nat Nat :=
  .alloc { onEvents := 0, callbackFn := 0, context := 0 } 0 none

/-- A callback registered for reads and then for writes too, at one address, and another one
everywhere. -/
def mergedCalls : List (WatchpointCall Nat Nat Nat) :=
  [.registerAddr Watchpoint.eventRead (some 1) 7 0x0200 (some 0),
    .registerAddr (Watchpoint.eventMergeAtRegister ||| Watchpoint.eventWrite) (some 1) 8 0x0200
      none,
    .registerGeneric Watchpoint.eventWrite (some 2) 9 (some 1)]

example : WatchEntry.due (WatchEntry.afterAll mergedCalls) Watchpoint.eventRead 0x0200 =
    [(1, 7)] := by decide

example : WatchEntry.due (WatchEntry.afterAll mergedCalls) Watchpoint.eventWrite 0x0200 =
    [(2, 9), (1, 7)] := by decide

theorem allocates_mergedCalls : (empty blank).Allocates mergedCalls := by
  refine ⟨fun ref given inUse => ?_, fun first first_mem => ?_⟩
  · rcases inUse with absent | absent | absent <;> cases absent
  cases first_mem
  refine ⟨fun ref absent => absurd absent (by simp [WatchpointCall.allocated]),
    fun second second_mem => ?_⟩
  cases second_mem
  refine ⟨fun ref given inUse => ?_, fun third third_mem => trivial⟩
  cases given
  rcases inUse with inTree | absent | absent
  · exact absurd inTree (by decide)
  · cases absent
  · cases absent

theorem fires_merged :
    ∃ lists, (empty blank).applyAll mergedCalls = some lists ∧
      lists.FiresExactly recorder { addrLo := 0x0000, addrLen := 0xFFFF } moduleModeRw
        (WatchEntry.afterAll mergedCalls) (.write 0x42) 0x0200 none [] := by
  obtain ⟨lists, applyAll_eq, exact_iff⟩ := fires_iff blank allocates_mergedCalls recorder
    { addrLo := 0x0000, addrLen := 0xFFFF }
    (by decide : moduleModeRw &&& moduleModeMask = moduleModeRw)
  exact ⟨lists, applyAll_eq, (exact_iff _ _ _ _).mpr Operation.noConfusion⟩

/-- A read with a null pointer fires nothing: the module follows the pointer. -/
theorem not_fires_null :
    ∃ lists, (empty blank).applyAll [.registerGeneric Watchpoint.eventRead (some 1) 7 (some 0)] =
        some lists ∧
      ¬ lists.FiresExactly recorder { addrLo := 0x0000, addrLen := 0xFFFF } moduleModeRw
        (WatchEntry.afterAll [.registerGeneric Watchpoint.eventRead (some 1) 7 (some 0)]) .read
        0x0200 none [] := by
  refine ⟨_, rfl, ?_⟩
  rintro ⟨calls, -, callback_eq⟩
  cases callback_eq

end WatchpointLists

end System6502
