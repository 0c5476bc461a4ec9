import System6502.Membus.Firing
import System6502.Membus.Removal

/-!
# The life of watchpoints

Watchpoints that are registered, changed and unregistered in any order, and the end of a module,
which frees those that are still registered.
-/

namespace System6502

open Lib Lib.LinkedTree

variable {ρ κ γ ω : Type*}

/-! ## Removal from the tree -/

namespace AddressTree

variable [DecidableEq ρ] (tree : AddressTree ρ κ γ)

@[simp]
theorem entry_setParent (below above : Option ρ) (ref : ρ) :
    (tree.setParent below above).entry ref = tree.entry ref := by
  cases below with
  | none => rfl
  | some lower =>
      rw [setParent, entry, key, modify]
      by_cases here : ref = lower
      · subst here
        simp only [Function.update_self]
        rfl
      · simp only [Function.update_of_ne here]
        rfl

@[simp]
theorem entry_adopt (branch : Branch) (heir former ref : ρ) :
    (tree.adopt branch heir former).entry ref = tree.entry ref := by
  rw [adopt, entry_setParent, entry_setLink]

variable {tree} {wp : ρ}

/-- Replacing a node leaves the registrations and the memory in use alone. -/
theorem replacement_keeps {near far : Branch} {after : AddressTree ρ κ γ} {heir : Option ρ}
    (outcome : tree.replacement near far wp = some (after, heir)) :
    after.entry = tree.entry ∧ after.allocated = tree.allocated := by
  have adopted : ∀ leaf, ((tree.adopt .left leaf wp).adopt .right leaf wp).entry = tree.entry ∧
      ((tree.adopt .left leaf wp).adopt .right leaf wp).allocated = tree.allocated := by
    intro leaf
    exact ⟨funext fun ref => by simp, by simp⟩
  unfold replacement at outcome
  split at outcome
  · cases outcome
    exact adopted _
  · split at outcome
    · obtain ⟨leaf, -, leaf_eq⟩ := Option.map_eq_some_iff.mp outcome
      cases leaf_eq
      exact adopted leaf
    · cases outcome
      exact ⟨rfl, rfl⟩
    · cases outcome
      exact ⟨rfl, rfl⟩

/-- Unregistering a watchpoint leaves the registrations of the others alone and frees its memory. -/
theorem unregister_keeps {after : AddressTree ρ κ γ} (outcome : tree.unregister wp = some after) :
    after.entry = tree.entry ∧ after.allocated = tree.allocated.erase wp := by
  unfold unregister at outcome
  split at outcome
  · obtain ⟨⟨replaced, heir⟩, replaced_eq, rfl⟩ := Option.map_eq_some_iff.mp outcome
    obtain ⟨entry_eq, allocated_eq⟩ := replacement_keeps replaced_eq
    refine ⟨funext fun ref => ?_, ?_⟩
    · exact (entry_setParent replaced heir none ref).trans (congrFun entry_eq ref)
    · exact congrArg (Finset.erase · wp) ((allocated_setParent ..).trans allocated_eq)
  · rename_i parent _
    have branched : ∀ {near far side : Branch},
        (tree.replacement near far wp).map (fun moved =>
          ((moved.1.setParent moved.2 (some parent)).setLink parent side moved.2).free wp) =
            some after →
        after.entry = tree.entry ∧ after.allocated = tree.allocated.erase wp := by
      intro near far side moved
      obtain ⟨⟨replaced, heir⟩, replaced_eq, rfl⟩ := Option.map_eq_some_iff.mp moved
      obtain ⟨entry_eq, allocated_eq⟩ := replacement_keeps replaced_eq
      refine ⟨funext fun ref => ?_, ?_⟩
      · exact (entry_setLink ..).trans ((entry_setParent ..).trans (congrFun entry_eq ref))
      · exact congrArg (Finset.erase · wp) ((allocated_setParent ..).trans allocated_eq)
    split at outcome
    · cases outcome
      exact ⟨funext fun ref => entry_setLink .., rfl⟩
    · split at outcome
      · exact branched outcome
      · exact branched outcome

/-- Registration takes the memory it is given into use, if any. -/
theorem register_allocated [DecidableEq κ] {watchpoint : Watchpoint κ γ} {addr : Word}
    {allocated : Option ρ} {after : AddressTree ρ κ γ} {found : Option ρ}
    (outcome : tree.register watchpoint addr allocated = some (after, found)) :
    ∀ ref ∈ after.allocated, ref ∈ tree.allocated ∨ ref ∈ allocated := by
  unfold register at outcome
  split at outcome
  · split at outcome
    · cases outcome
      intro ref ref_mem
      exact (Finset.mem_insert.mp ref_mem).elim (fun same => .inr (same ▸ rfl)) .inl
    · cases outcome
      exact fun ref ref_mem => .inl ref_mem
  · obtain ⟨slot, -, slot_eq⟩ := Option.map_eq_some_iff.mp outcome
    unfold registerAt at slot_eq
    split at slot_eq
    · cases slot_eq
      exact fun ref ref_mem => .inl ref_mem
    · split at slot_eq
      · cases slot_eq
        intro ref ref_mem
        exact (Finset.mem_insert.mp ref_mem).elim (fun same => .inr (same ▸ rfl)) .inl
      · cases slot_eq
        exact fun ref ref_mem => .inl ref_mem

end AddressTree

/-! ## Calls -/

/-- A call of the library on a watchpoints module. -/
inductive WatchpointRequest (ρ κ γ : Type*)
  | call (call : WatchpointCall ρ κ γ)
  | unregister (ref : ρ)

namespace WatchpointLists

variable [DecidableEq ρ]

/-- The loops of `__membus_watchpoint_generic_unregister` and
`__membus_watchpoint_addr_range_unregister`. -/
def unlink {α : Type*} (ref : ρ) : List (ρ × α) → List (ρ × α)
  | [] => []
  | first :: rest => if first.1 = ref then rest else first :: unlink ref rest

/-- `membus_watchpoint_unregister`; the subtype of a watchpoint is that of the list it is in. -/
def unregister (lists : WatchpointLists ρ κ γ) (ref : ρ) : Option (WatchpointLists ρ κ γ) :=
  if ref ∈ lists.generics.map Prod.fst then
    some { lists with generics := unlink ref lists.generics }
  else if ref ∈ lists.addressRanges.map Prod.fst then
    some { lists with addressRanges := unlink ref lists.addressRanges }
  else (lists.addresses.unregister ref).map fun addresses => { lists with addresses }

variable [DecidableEq κ]

/-- The lists after a call; there is no outcome when a loop does not end. -/
def serve (lists : WatchpointLists ρ κ γ) :
    WatchpointRequest ρ κ γ → Option (WatchpointLists ρ κ γ)
  | .call call => lists.apply call
  | .unregister ref => lists.unregister ref

/-- The lists after calls one after the other. -/
def serveAll (lists : WatchpointLists ρ κ γ) :
    List (WatchpointRequest ρ κ γ) → Option (WatchpointLists ρ κ γ)
  | [] => some lists
  | request :: requests => (lists.serve request).bind fun after => after.serveAll requests

end WatchpointLists

namespace WatchEntry

variable [DecidableEq ρ] [DecidableEq κ]

/-- The registrations after a call. -/
def afterRequest (entries : List (WatchEntry ρ κ γ)) :
    WatchpointRequest ρ κ γ → List (WatchEntry ρ κ γ)
  | .call call => after entries call
  | .unregister ref => entries.filter fun entry => entry.ref ≠ ref

/-- The registrations that calls amount to. -/
def afterRequests (requests : List (WatchpointRequest ρ κ γ)) : List (WatchEntry ρ κ γ) :=
  requests.foldl afterRequest []

end WatchEntry

namespace WatchpointLists

variable [DecidableEq ρ] [DecidableEq κ]

/-- A call that can be made: the allocator answers with memory that is not in use, and what is
unregistered is registered. -/
def Proper (lists : WatchpointLists ρ κ γ) (registered : List (WatchEntry ρ κ γ)) :
    WatchpointRequest ρ κ γ → Prop
  | .call call => ∀ ref ∈ call.allocated, ¬ lists.InUse ref
  | .unregister ref => ref ∈ registered.map WatchEntry.ref

/-- A call that does not remove a node of the tree with both subtrees and no child, nor a link from
the middle of a chain. -/
def KeepsTree (lists : WatchpointLists ρ κ γ) : WatchpointRequest ρ κ γ → Prop
  | .call _ => True
  | .unregister ref => ref ∈ lists.addresses.allocated →
      ¬ lists.addresses.Splits ref ∧ ¬ lists.addresses.Skips ref

/-- Every call can be made and keeps the tree. -/
def Serves (lists : WatchpointLists ρ κ γ) (registered : List (WatchEntry ρ κ γ)) :
    List (WatchpointRequest ρ κ γ) → Prop
  | [] => True
  | request :: requests =>
      lists.Proper registered request ∧ lists.KeepsTree request ∧
        ∀ after ∈ lists.serve request,
          after.Serves (WatchEntry.afterRequest registered request) requests

instance (lists : WatchpointLists ρ κ γ) (registered : List (WatchEntry ρ κ γ)) :
    DecidablePred (lists.Proper registered)
  | .call call => inferInstanceAs (Decidable
      (∀ ref ∈ call.allocated, ¬ (ref ∈ lists.addresses.allocated ∨
        ref ∈ lists.generics.map Prod.fst ∨ ref ∈ lists.addressRanges.map Prod.fst)))
  | .unregister _ => inferInstanceAs (Decidable (_ ∈ _))

instance (lists : WatchpointLists ρ κ γ) : DecidablePred lists.KeepsTree
  | .call _ => .isTrue trivial
  | .unregister _ => inferInstanceAs (Decidable (_ → ¬ _ ∧ ¬ _))

/-- Whether every call can be made and keeps the tree can be decided. -/
def decidableServes : (requests : List (WatchpointRequest ρ κ γ)) →
    (lists : WatchpointLists ρ κ γ) → (registered : List (WatchEntry ρ κ γ)) →
      Decidable (lists.Serves registered requests)
  | [], _, _ => .isTrue trivial
  | request :: requests, lists, registered =>
      have _following (after : WatchpointLists ρ κ γ) :=
        decidableServes requests after (WatchEntry.afterRequest registered request)
      inferInstanceAs (Decidable (_ ∧ _ ∧ ∀ after ∈ lists.serve request, _))

instance (lists : WatchpointLists ρ κ γ) (registered : List (WatchEntry ρ κ γ))
    (requests : List (WatchpointRequest ρ κ γ)) : Decidable (lists.Serves registered requests) :=
  decidableServes requests lists registered

/-! ## Lists without a watchpoint in two places -/

/-- No watchpoint is in two places. -/
structure Apart (lists : WatchpointLists ρ κ γ) : Prop where
  /-- Those on all addresses are listed once. -/
  generics : (lists.generics.map Prod.fst).Nodup
  /-- Those on ranges are listed once. -/
  ranges : (lists.addressRanges.map Prod.fst).Nodup
  /-- No watchpoint on all addresses is one on a range. -/
  lists_apart : ∀ ref ∈ lists.generics.map Prod.fst, ref ∉ lists.addressRanges.map Prod.fst
  /-- No watchpoint on all addresses is in the tree. -/
  generics_apart : ∀ ref ∈ lists.generics.map Prod.fst, ref ∉ lists.addresses.allocated
  /-- No watchpoint on a range is in the tree. -/
  ranges_apart : ∀ ref ∈ lists.addressRanges.map Prod.fst, ref ∉ lists.addresses.allocated

omit [DecidableEq ρ] [DecidableEq κ] in
theorem apart_empty (nodes : ρ → WatchpointAddr ρ κ γ) :
    (empty nodes : WatchpointLists ρ κ γ).Apart :=
  ⟨List.nodup_nil, List.nodup_nil, by simp [empty], by simp [empty], by simp [empty]⟩

variable {lists after : WatchpointLists ρ κ γ} {registered : List (WatchEntry ρ κ γ)} {ref : ρ}

omit [DecidableEq ρ] [DecidableEq κ] in
/-- More watchpoints in the tree that are in no list leave the lists apart. -/
theorem Apart.grow (apart : lists.Apart) {addresses : AddressTree ρ κ γ}
    (grown : ∀ ref ∈ addresses.allocated, ref ∈ lists.addresses.allocated ∨ ¬ lists.InUse ref) :
    Apart { lists with addresses } where
  generics := apart.generics
  ranges := apart.ranges
  lists_apart := apart.lists_apart
  generics_apart ref listed held :=
    (grown ref held).elim (apart.generics_apart ref listed) fun fresh => fresh (.inr (.inl listed))
  ranges_apart ref listed held :=
    (grown ref held).elim (apart.ranges_apart ref listed) fun fresh => fresh (.inr (.inr listed))

omit [DecidableEq ρ] [DecidableEq κ] in
/-- So does a watchpoint on all addresses in memory that was not in use. -/
theorem Apart.consGeneric (apart : lists.Apart) (unused : ¬ lists.InUse ref)
    (watchpoint : Watchpoint κ γ) :
    Apart { lists with generics := (ref, watchpoint) :: lists.generics } where
  generics := List.nodup_cons.mpr ⟨fun listed => unused (.inr (.inl listed)), apart.generics⟩
  ranges := apart.ranges
  lists_apart := List.forall_mem_cons.mpr
    ⟨fun listed => unused (.inr (.inr listed)), apart.lists_apart⟩
  generics_apart := List.forall_mem_cons.mpr
    ⟨fun held => unused (.inl held), apart.generics_apart⟩
  ranges_apart := apart.ranges_apart

omit [DecidableEq ρ] [DecidableEq κ] in
/-- So does one on a range. -/
theorem Apart.consRange (apart : lists.Apart) (unused : ¬ lists.InUse ref)
    (watchpoint : Watchpoint κ γ × MemoryAddrRange) :
    Apart { lists with addressRanges := (ref, watchpoint) :: lists.addressRanges } where
  generics := apart.generics
  ranges := List.nodup_cons.mpr ⟨fun listed => unused (.inr (.inr listed)), apart.ranges⟩
  lists_apart other listed mem := (List.mem_cons.mp mem).elim
    (fun same : other = ref => unused (.inr (.inl (same ▸ listed))))
    (apart.lists_apart other listed)
  generics_apart := apart.generics_apart
  ranges_apart := List.forall_mem_cons.mpr
    ⟨fun held => unused (.inl held), apart.ranges_apart⟩

omit [DecidableEq κ] in
theorem map_fst_setEvents (lists : WatchpointLists ρ κ γ) (ref : ρ) (onEvents : BitVec 32) :
    (lists.setEvents ref onEvents).generics.map Prod.fst = lists.generics.map Prod.fst ∧
      (lists.setEvents ref onEvents).addressRanges.map Prod.fst =
        lists.addressRanges.map Prod.fst ∧
      (lists.setEvents ref onEvents).addresses.allocated = lists.addresses.allocated := by
  refine ⟨?_, ?_, ?_⟩
  · rw [WatchpointLists.setEvents, List.map_map]
    refine List.map_congr_left fun wp _ => ?_
    simp only [Function.comp_apply]
    split <;> rfl
  · rw [WatchpointLists.setEvents, List.map_map]
    refine List.map_congr_left fun wp _ => ?_
    simp only [Function.comp_apply]
    split <;> rfl
  · rw [WatchpointLists.setEvents]
    dsimp only
    split <;> rfl

theorem Apart.apply (apart : lists.Apart) {call : WatchpointCall ρ κ γ}
    (fresh : ∀ ref ∈ call.allocated, ¬ lists.InUse ref) (outcome : lists.apply call = some after) :
    after.Apart := by
  cases call with
  | registerAddr onEvents callback context addr allocated =>
      cases callback with
      | none =>
          cases outcome
          exact apart
      | some callbackFn =>
          obtain ⟨⟨addresses, found⟩, register_eq, rfl⟩ := Option.map_eq_some_iff.mp outcome
          exact apart.grow fun ref ref_mem =>
            (AddressTree.register_allocated register_eq ref ref_mem).imp_right (fresh ref)
  | registerGeneric onEvents callback context allocated =>
      cases outcome
      rcases callback with _ | callbackFn
      · exact apart
      rcases allocated with _ | wp
      · exact apart
      exact apart.consGeneric (fresh wp rfl) _
  | registerAddrRange onEvents callback context addrRange allocated =>
      cases outcome
      rcases callback with _ | callbackFn
      · exact apart
      rcases allocated with _ | wp
      · exact apart
      rw [WatchpointLists.registerAddrRange]
      split
      · exact apart.consRange (fresh wp rfl) _
      · exact apart
  | setEvents ref onEvents =>
      cases outcome
      obtain ⟨generics_eq, ranges_eq, allocated_eq⟩ := map_fst_setEvents lists ref onEvents
      exact
        { generics := generics_eq ▸ apart.generics
          ranges := ranges_eq ▸ apart.ranges
          lists_apart := by rw [generics_eq, ranges_eq]; exact apart.lists_apart
          generics_apart := by rw [generics_eq, allocated_eq]; exact apart.generics_apart
          ranges_apart := by rw [ranges_eq, allocated_eq]; exact apart.ranges_apart }

omit [DecidableEq κ] in
/-- A list without a watchpoint stays as it is when the watchpoint is filtered out. -/
theorem filter_eq_of_absent {α : Type*} {list : List (ρ × α)} {ref : ρ}
    (absent : ref ∉ list.map Prod.fst) : (list.filter fun other => other.1 ≠ ref) = list := by
  refine List.filter_eq_self.mpr fun other other_mem => ?_
  have other_ne : other.1 ≠ ref := fun same => absent (same ▸ List.mem_map_of_mem other_mem)
  exact decide_eq_true_iff.mpr other_ne

omit [DecidableEq κ] in
/-- A watchpoint that is listed once is filtered out. -/
theorem unlink_eq {α : Type*} {list : List (ρ × α)} (nodup : (list.map Prod.fst).Nodup) (ref : ρ) :
    unlink ref list = list.filter fun other => other.1 ≠ ref := by
  induction list with
  | nil => rfl
  | cons first rest ih =>
      obtain ⟨absent, distinct⟩ := List.nodup_cons.mp nodup
      rw [unlink]
      by_cases here : first.1 = ref
      · rw [if_pos here, List.filter_cons_of_neg (by simp [here]),
          filter_eq_of_absent (here ▸ absent)]
      · rw [if_neg here, List.filter_cons_of_pos (by simp [here]), ih distinct]

omit [DecidableEq κ] in
/-- Unregistering a watchpoint takes it out of the one place that it is in. -/
theorem Apart.unregister_spec (apart : lists.Apart) (outcome : lists.unregister ref = some after) :
    after.generics = (lists.generics.filter fun other => other.1 ≠ ref) ∧
      after.addressRanges = (lists.addressRanges.filter fun other => other.1 ≠ ref) ∧
      after.addresses.entry = lists.addresses.entry ∧
      after.addresses.allocated = lists.addresses.allocated.erase ref := by
  unfold WatchpointLists.unregister at outcome
  split at outcome
  · rename_i listed
    cases outcome
    refine ⟨unlink_eq apart.generics ref, ?_, rfl, ?_⟩
    · exact (filter_eq_of_absent (apart.lists_apart ref listed)).symm
    · exact (Finset.erase_eq_of_notMem (apart.generics_apart ref listed)).symm
  rename_i not_generic
  split at outcome
  · rename_i listed
    cases outcome
    refine ⟨(filter_eq_of_absent not_generic).symm, unlink_eq apart.ranges ref, rfl, ?_⟩
    exact (Finset.erase_eq_of_notMem (apart.ranges_apart ref listed)).symm
  · rename_i not_range
    obtain ⟨addresses, addresses_eq, rfl⟩ := Option.map_eq_some_iff.mp outcome
    obtain ⟨entry_eq, allocated_eq⟩ := AddressTree.unregister_keeps addresses_eq
    exact ⟨(filter_eq_of_absent not_generic).symm, (filter_eq_of_absent not_range).symm, entry_eq,
      allocated_eq⟩

omit [DecidableEq κ] in
theorem Apart.unregister (apart : lists.Apart) (outcome : lists.unregister ref = some after) :
    after.Apart := by
  obtain ⟨generics_eq, ranges_eq, -, allocated_eq⟩ := apart.unregister_spec outcome
  have fewer_generics : (after.generics.map Prod.fst).Sublist (lists.generics.map Prod.fst) := by
    rw [generics_eq]
    exact List.filter_sublist.map Prod.fst
  have fewer_ranges :
      (after.addressRanges.map Prod.fst).Sublist (lists.addressRanges.map Prod.fst) := by
    rw [ranges_eq]
    exact List.filter_sublist.map Prod.fst
  have fewer_nodes : ∀ other ∈ after.addresses.allocated, other ∈ lists.addresses.allocated := by
    rw [allocated_eq]
    exact fun other => Finset.mem_of_mem_erase
  exact
    { generics := apart.generics.sublist fewer_generics
      ranges := apart.ranges.sublist fewer_ranges
      lists_apart := fun other generic range =>
        apart.lists_apart other (fewer_generics.subset generic) (fewer_ranges.subset range)
      generics_apart := fun other generic held =>
        apart.generics_apart other (fewer_generics.subset generic) (fewer_nodes other held)
      ranges_apart := fun other range held =>
        apart.ranges_apart other (fewer_ranges.subset range) (fewer_nodes other held) }

omit [DecidableEq ρ] [DecidableEq κ] in
/-- The watchpoints that are registered are those in the three places. -/
theorem Tracks.registered_iff {live : ρ → Option Word} {shape : LinkedTree ρ Branch} {refs : List ρ}
    (tracks : lists.Tracks registered live shape refs) (ref : ρ) :
    ref ∈ registered.map WatchEntry.ref ↔
      ref ∈ shape ∨ ref ∈ lists.generics.map Prod.fst ∨ ref ∈ lists.addressRanges.map Prod.fst := by
  have visible_ref : ∀ list : List (WatchEntry ρ κ γ),
      (list.map WatchEntry.visible).map WatchEntry.ref = list.map WatchEntry.ref :=
    fun list => by rw [List.map_map]; rfl
  have node_refs : (refs.map lists.addresses.entry).map WatchEntry.ref = refs := by
    rw [List.map_map]
    exact List.map_id refs
  have listed := (tracks.perm.map WatchEntry.ref).mem_iff (a := ref)
  rw [visible_ref, visible_ref, entries, List.map_append, List.map_append, node_refs, List.map_map,
    List.map_map, List.mem_append, List.mem_append, tracks.refs_iff, or_assoc] at listed
  exact listed

omit [DecidableEq κ] in
/-- Unregistering a watchpoint ends, on a tree without it. -/
theorem Tracks.unregister_tree {live : ρ → Option Word} {shape : LinkedTree ρ Branch}
    {refs : List ρ} (tracks : lists.Tracks registered live shape refs) (apart : lists.Apart)
    (held : ref ∈ registered.map WatchEntry.ref) (keeps : lists.KeepsTree (.unregister ref)) :
    ∃ after afterLive pruned, lists.unregister ref = some after ∧
      after.addresses.Holds afterLive pruned ∧
      ∀ other, other ∈ pruned ↔ other ∈ shape ∧ other ≠ ref := by
  have outside (free : ref ∉ lists.addresses.allocated) :
      ∀ other, other ∈ shape ↔ other ∈ shape ∧ other ≠ ref := by
    refine fun other => ⟨fun other_mem => ⟨other_mem, ?_⟩, And.left⟩
    rintro rfl
    exact free (tracks.holds.allocated other other_mem)
  by_cases generic : ref ∈ lists.generics.map Prod.fst
  · exact ⟨_, live, shape, if_pos generic, tracks.holds, outside (apart.generics_apart ref generic)⟩
  by_cases range : ref ∈ lists.addressRanges.map Prod.fst
  · exact ⟨_, live, shape, (if_neg generic).trans (if_pos range), tracks.holds,
      outside (apart.ranges_apart ref range)⟩
  have node : ref ∈ shape :=
    ((tracks.registered_iff ref).mp held).resolve_right (not_or.mpr ⟨generic, range⟩)
  obtain ⟨splits, skips⟩ := keeps (tracks.holds.allocated ref node)
  obtain ⟨addresses, unregister_eq, pruned, holds⟩ := tracks.holds.unregister node splits skips
  refine ⟨{ lists with addresses }, Function.update live ref none, pruned, ?_, holds,
    fun other => ?_⟩
  · rw [WatchpointLists.unregister, if_neg generic, if_neg range, unregister_eq]
    rfl
  · have pruned_iff : other ∈ pruned ↔ ∃ addr, Function.update live ref none other = some addr := by
      simp only [holds.live_iff, exists_and_left, exists_eq', and_true]
    have shape_iff : other ∈ shape ↔ ∃ addr, live other = some addr := by
      simp only [tracks.holds.live_iff, exists_and_left, exists_eq', and_true]
    rw [pruned_iff, shape_iff]
    by_cases here : other = ref
    · subst here
      simp
    · simp [here]

omit [DecidableEq κ] in
/-- Unregistering a watchpoint that is registered ends, and the lists hold the others. -/
theorem Holds.unregister (holds : lists.Holds registered) (apart : lists.Apart)
    (held : ref ∈ registered.map WatchEntry.ref) (keeps : lists.KeepsTree (.unregister ref)) :
    ∃ after, lists.unregister ref = some after ∧
      after.Holds (registered.filter fun entry => entry.ref ≠ ref) := by
  obtain ⟨live, shape, refs, tracks⟩ := holds
  obtain ⟨after, afterLive, pruned, outcome, afterHolds, pruned_iff⟩ :=
    tracks.unregister_tree apart held keeps
  obtain ⟨generics_eq, ranges_eq, entry_eq, -⟩ := apart.unregister_spec outcome
  have entries_eq : after.entries (refs.filter fun other => other ≠ ref) =
      (lists.entries refs).filter fun entry => entry.ref ≠ ref := by
    rw [entries, entries, List.filter_append, List.filter_append, List.filter_map, List.filter_map,
      List.filter_map, generics_eq, ranges_eq, entry_eq]
    rfl
  have visible_filter : ∀ list : List (WatchEntry ρ κ γ),
      (list.filter fun entry => entry.ref ≠ ref).map WatchEntry.visible =
        (list.map WatchEntry.visible).filter fun entry => entry.ref ≠ ref := by
    intro list
    rw [List.filter_map]
    rfl
  refine ⟨after, outcome, afterLive, pruned, refs.filter fun other => other ≠ ref, afterHolds,
    tracks.nodup.filter _, fun other => ?_, ?_, ?_⟩
  · rw [List.mem_filter, tracks.refs_iff, pruned_iff, decide_eq_true_eq]
  · intro first first_mem second second_mem places callbacks
    rw [entry_eq] at places callbacks
    exact tracks.single first (List.mem_filter.mp first_mem).1 second
      (List.mem_filter.mp second_mem).1 places callbacks
  · rw [entries_eq, visible_filter, visible_filter]
    exact tracks.perm.filter _

/-! ## Calls one after the other -/

/-- A call ends, and the lists hold what it amounts to. -/
theorem Holds.serve (holds : lists.Holds registered) (apart : lists.Apart)
    {request : WatchpointRequest ρ κ γ} (proper : lists.Proper registered request)
    (keeps : lists.KeepsTree request) :
    ∃ after, lists.serve request = some after ∧
      after.Holds (WatchEntry.afterRequest registered request) ∧ after.Apart := by
  cases request with
  | call call =>
      obtain ⟨after, outcome, afterHolds⟩ := holds.apply call proper
      exact ⟨after, outcome, afterHolds, apart.apply proper outcome⟩
  | unregister ref =>
      obtain ⟨after, outcome, afterHolds⟩ := holds.unregister apart proper keeps
      exact ⟨after, outcome, afterHolds, apart.unregister outcome⟩

/-- All calls end, and the lists hold what they amount to. -/
theorem Holds.serveAll (holds : lists.Holds registered) (apart : lists.Apart)
    {requests : List (WatchpointRequest ρ κ γ)} (serves : lists.Serves registered requests) :
    ∃ after, lists.serveAll requests = some after ∧
      after.Holds (requests.foldl WatchEntry.afterRequest registered) ∧ after.Apart := by
  induction requests generalizing lists registered with
  | nil => exact ⟨lists, rfl, holds, apart⟩
  | cons request requests ih =>
      obtain ⟨proper, keeps, following⟩ := serves
      obtain ⟨next, serve_eq, nextHolds, nextApart⟩ := holds.serve apart proper keeps
      obtain ⟨after, serveAll_eq, afterHolds⟩ := ih nextHolds nextApart (following next serve_eq)
      refine ⟨after, ?_, afterHolds⟩
      rw [WatchpointLists.serveAll, serve_eq]
      exact serveAll_eq

/-- Calls that register watchpoints, change their events and unregister them, on lists that start
empty, end, whatever their order; each callback of the module in read-write mode then fires exactly
unless it is a read with a null pointer for which something is due. -/
theorem serveAll_fires_iff (nodes : ρ → WatchpointAddr ρ κ γ)
    {requests : List (WatchpointRequest ρ κ γ)}
    (serves : (empty nodes : WatchpointLists ρ κ γ).Serves [] requests)
    (code : κ → WatchpointCallback γ ω) (addrRange : MemoryAddrRange) {mode : BitVec 32}
    (readWrite : mode &&& moduleModeMask = moduleModeRw) :
    ∃ lists, (empty nodes).serveAll requests = some lists ∧
      ∀ operation addr pointer watcher,
        lists.FiresExactly code addrRange mode (WatchEntry.afterRequests requests) operation addr
            pointer watcher ↔
          (operation = .read → pointer = none →
            WatchEntry.due (WatchEntry.afterRequests requests) Watchpoint.eventRead addr = []) := by
  obtain ⟨lists, serveAll_eq, holds, -⟩ := (holds_empty nodes).serveAll (apart_empty nodes) serves
  exact ⟨lists, serveAll_eq, holds.firesExactly_iff code addrRange readWrite⟩

/-- Two watchpoints on one address and one on another; then the first of them goes, and the one
that has taken its place is asked for other events. -/
def departingRequests : List (WatchpointRequest Nat Nat Nat) :=
  [.call (.registerAddr Watchpoint.eventRead (some 1) 7 0x0200 (some 0)),
    .call (.registerAddr Watchpoint.eventRead (some 2) 8 0x0200 (some 1)),
    .call (.registerAddr Watchpoint.eventWrite (some 1) 9 0x0300 (some 2)),
    .call (.registerGeneric Watchpoint.eventWrite (some 3) 5 (some 3)),
    .unregister 0, .unregister 3,
    .call (.setEvents 1 Watchpoint.eventWrite)]

theorem serveAll_fires_departing :
    ∃ lists, (empty blank).serveAll departingRequests = some lists ∧
      lists.FiresExactly recorder { addrLo := 0x0000, addrLen := 0xFFFF } moduleModeRw
        (WatchEntry.afterRequests departingRequests) (.write 0x42) 0x0200 none [] := by
  obtain ⟨lists, serveAll_eq, exact_iff⟩ := serveAll_fires_iff blank
    (by decide : (empty blank).Serves [] departingRequests) recorder
    { addrLo := 0x0000, addrLen := 0xFFFF }
    (by decide : moduleModeRw &&& moduleModeMask = moduleModeRw)
  exact ⟨lists, serveAll_eq, (exact_iff _ _ _ _).mpr Operation.noConfusion⟩

end WatchpointLists

end System6502
