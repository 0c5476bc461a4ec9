import System6502.Membus.Lifecycle

/-!
# The end of a watchpoints module

Freeing a module follows the links of its watchpoints while their memory is in use, and frees the
memory of every watchpoint that is still registered, once.
-/

namespace System6502

open Lib Lib.LinkedTree

variable {ρ κ γ : Type*}

section Free

variable [DecidableEq ρ]

/-- Memory that is read must be in use. -/
def accessed (heap : Finset ρ) (ref : ρ) : Option (Finset ρ) :=
  if ref ∈ heap then some heap else none

/-- `free`, of memory that is in use. -/
def freed (heap : Finset ρ) (ref : ρ) : Option (Finset ρ) :=
  if ref ∈ heap then some (heap.erase ref) else none

/-- `__membus_watchpoint_generic_recursive_free` and
`__membus_watchpoint_addr_range_recursive_free`. -/
def freeAll (heap : Finset ρ) : List ρ → Option (Finset ρ)
  | [] => some heap
  | wp :: rest => (freed heap wp).bind fun heap => freeAll heap rest

/-- Freeing watchpoints in use that are listed once frees them. -/
theorem freeAll_eq {heap : Finset ρ} {refs : List ρ} (nodup : refs.Nodup)
    (held : ∀ ref ∈ refs, ref ∈ heap) : freeAll heap refs = some (heap \ refs.toFinset) := by
  induction refs generalizing heap with
  | nil => simp [freeAll]
  | cons first rest ih =>
      obtain ⟨absent, distinct⟩ := List.nodup_cons.mp nodup
      have still : ∀ ref ∈ rest, ref ∈ heap.erase first := fun ref ref_mem =>
        Finset.mem_erase.mpr ⟨fun same => absent (same ▸ ref_mem), held ref (.tail _ ref_mem)⟩
      rw [freeAll, freed, if_pos (held first List.mem_cons_self), Option.bind_some,
        ih distinct still]
      refine congrArg some (Finset.ext fun ref => ?_)
      simp only [Finset.mem_sdiff, Finset.mem_erase, List.mem_toFinset, List.mem_cons, not_or]
      tauto

namespace AddressTree

/-- The loop of `__membus_watchpoint_addr_recursive_free`, in at most `fuel` rounds. -/
def freeChain (tree : AddressTree ρ κ γ) : Nat → Finset ρ → Option ρ → Option (Finset ρ)
  | _, heap, none => some heap
  | 0, _, some _ => none
  | fuel + 1, heap, some wp =>
      (freed heap wp).bind fun heap => tree.freeChain fuel heap (tree.nodes wp).child

/-- `__membus_watchpoint_addr_recursive_free`, on a tree of at most `fuel` levels; there is no
outcome when it follows the links of memory that is not in use. -/
def recursiveFree (tree : AddressTree ρ κ γ) : Nat → Finset ρ → ρ → Option (Finset ρ)
  | 0, _, _ => none
  | fuel + 1, heap, wp => do
      let heap ← accessed heap wp
      let heap ← tree.freeChain fuel heap (tree.nodes wp).child
      let heap ← accessed heap wp
      let heap ← (tree.nodes wp).left.elim (some heap) (tree.recursiveFree fuel heap)
      let heap ← accessed heap wp
      let heap ← (tree.nodes wp).right.elim (some heap) (tree.recursiveFree fuel heap)
      freed heap wp

variable {tree : AddressTree ρ κ γ}

theorem freeChain_eq {fuel : Nat} {pointer : Option ρ} {refs : List ρ}
    (listed : tree.chain fuel pointer = some refs) (heap : Finset ρ) :
    tree.freeChain fuel heap pointer = freeAll heap refs := by
  induction fuel generalizing pointer refs heap with
  | zero =>
      cases pointer with
      | none =>
          cases listed
          rfl
      | some wp => cases listed
  | succ fuel ih =>
      cases pointer with
      | none =>
          cases listed
          rfl
      | some wp =>
          obtain ⟨rest, rest_eq, rfl⟩ := Option.map_eq_some_iff.mp listed
          exact Option.bind_congr fun heap _ => ih rest_eq heap

/-- What is left of the memory in use after a tree is freed. -/
def Leaves (heap : Finset ρ) (shape : LinkedTree ρ Branch) (after : Finset ρ) : Prop :=
  ∀ ref, ref ∈ after ↔ ref ∈ heap ∧ ref ∉ shape

omit [DecidableEq ρ] in
theorem Leaves.keeps {heap after : Finset ρ} {shape : LinkedTree ρ Branch}
    (leaves : Leaves heap shape after) {ref : ρ} (held : ref ∈ heap) (outside : ref ∉ shape) :
    ref ∈ after :=
  (leaves ref).mpr ⟨held, outside⟩

/-- The chain, the subtrees and the root are all of a tree. -/
theorem leaves_node {heap unchained afterLeft afterRight : Finset ρ} {root : ρ}
    {below : Branch → LinkedTree ρ Branch} (chained : Leaves heap (below .child) unchained)
    (left : Leaves unchained (below .left) afterLeft)
    (right : Leaves afterLeft (below .right) afterRight) :
    Leaves heap (.node root below) (afterRight.erase root) := by
  intro ref
  rw [Finset.mem_erase, right, left, chained, mem_node]
  constructor
  · rintro ⟨ref_ne, ⟨⟨⟨ref_mem, not_child⟩, not_left⟩, not_right⟩⟩
    refine ⟨ref_mem, fun listed => ?_⟩
    rcases listed with same | ⟨side, side_mem⟩
    · exact ref_ne same
    · cases side with
      | left => exact not_left side_mem
      | right => exact not_right side_mem
      | child => exact not_child side_mem
  · rintro ⟨ref_mem, absent⟩
    exact ⟨fun same => absent (.inl same), ⟨⟨ref_mem, fun mem => absent (.inr ⟨_, mem⟩)⟩,
      fun mem => absent (.inr ⟨_, mem⟩)⟩, fun mem => absent (.inr ⟨_, mem⟩)⟩

/-- Freeing a chain in memory that is in use frees its nodes, each once. -/
theorem freeChain_spec {shape : LinkedTree ρ Branch} {above pointer : Option ρ} {addr : Word}
    {fuel : Nat} {heap : Finset ρ} (represents : shape.Represents tree.links above pointer)
    (distinct : shape.Distinct) (ordered : shape.Ordered Branch.Order tree.key)
    (same : ∀ ref ∈ shape, tree.key ref = addr) (height : shape.HeightLE fuel)
    (held : ∀ ref ∈ shape, ref ∈ heap) :
    ∃ after, tree.freeChain fuel heap pointer = some after ∧ Leaves heap shape after := by
  obtain ⟨refs, chain_eq, nodup, refs_iff⟩ := chain_spec represents distinct ordered same height
  refine ⟨heap \ refs.toFinset, (freeChain_eq chain_eq heap).trans ?_, fun ref => ?_⟩
  · exact freeAll_eq nodup fun ref ref_mem => held ref ((refs_iff ref).mp ref_mem)
  · rw [Finset.mem_sdiff, List.mem_toFinset, refs_iff]

/-- Freeing a tree in memory that is in use frees its nodes, each once: the branches of its chains
are empty. -/
theorem recursiveFree_spec {shape : LinkedTree ρ Branch} {above : Option ρ} {top : ρ} {fuel : Nat}
    {heap : Finset ρ} (represents : shape.Represents tree.links above (some top))
    (distinct : shape.Distinct) (ordered : shape.Ordered Branch.Order tree.key)
    (height : shape.HeightLE fuel) (held : ∀ ref ∈ shape, ref ∈ heap) :
    ∃ after, tree.recursiveFree fuel heap top = some after ∧ Leaves heap shape after := by
  induction shape generalizing above top fuel heap with
  | leaf => cases represents
  | node root below ih =>
      obtain ⟨same, -, under⟩ := represents
      cases same
      obtain ⟨fuel, rfl, heights⟩ := height
      obtain ⟨outside, apart, distinct_below⟩ := distinct
      have held_below : ∀ side, ∀ ref ∈ below side, ref ∈ heap := fun side ref ref_mem =>
        held ref (.inr ⟨side, ref_mem⟩)
      have subtree : ∀ side (rest : Finset ρ), (∀ ref ∈ below side, ref ∈ rest) →
          ∃ after, (tree.links.link root side).elim (some rest) (tree.recursiveFree fuel rest) =
              some after ∧ Leaves rest (below side) after := by
        intro side rest held_rest
        cases link_eq : tree.links.link root side with
        | none =>
            have empty := (link_eq ▸ under side).eq_leaf
            refine ⟨rest, rfl, fun ref => ?_⟩
            rw [empty]
            simp
        | some next =>
            exact ih side (link_eq ▸ under side) (distinct_below side) (ordered side).2
              (heights side) held_rest
      have kept_below : ∀ {side other : Branch} {rest after : Finset ρ}, side ≠ other →
          Leaves rest (below side) after → (∀ ref ∈ below other, ref ∈ rest) →
            ∀ ref ∈ below other, ref ∈ after := fun side_ne leaves held_rest ref ref_mem =>
        leaves.keeps (held_rest ref ref_mem) fun twice => side_ne (apart _ _ ref twice ref_mem)
      -- the chain first, then the subtrees; the root is in use until the end
      obtain ⟨unchained, chain_eq, chain_leaves⟩ := freeChain_spec (under .child)
        (distinct_below .child) (ordered .child).2 (ordered .child).1 (heights .child)
        (held_below .child)
      obtain ⟨afterLeft, left_eq, left_leaves⟩ := subtree .left unchained
        (kept_below (by decide) chain_leaves (held_below .left))
      obtain ⟨afterRight, right_eq, right_leaves⟩ := subtree .right afterLeft
        (kept_below (by decide) left_leaves
          (kept_below (by decide) chain_leaves (held_below .right)))
      have root_held : root ∈ heap := held root (.inl rfl)
      have root_unchained := chain_leaves.keeps root_held (outside _)
      have root_left := left_leaves.keeps root_unchained (outside _)
      have root_right := right_leaves.keeps root_left (outside _)
      refine ⟨afterRight.erase root, ?_, leaves_node chain_leaves left_leaves right_leaves⟩
      change tree.freeChain fuel heap (tree.nodes root).child = some unchained at chain_eq
      simp only [recursiveFree, accessed, freed, if_pos root_held, if_pos root_unchained,
        chain_eq, Option.bind_eq_bind, Option.bind_some]
      change Option.bind ((tree.links.link root .left).elim _ _) _ = _
      rw [left_eq, Option.bind_some, if_pos root_left, Option.bind_some]
      change Option.bind ((tree.links.link root .right).elim _ _) _ = _
      rw [right_eq, Option.bind_some, if_pos root_right]

/-- Registration takes only memory into use that it links into the tree. -/
theorem Holds.register_fills [DecidableEq κ] {live : ρ → Option Word} {shape : LinkedTree ρ Branch}
    (holds : tree.Holds live shape) {watchpoint : Watchpoint κ γ} {addr : Word}
    {allocated : Option ρ} (fresh : ∀ wp ∈ allocated, wp ∉ tree.allocated)
    {after : AddressTree ρ κ γ} {found : Option ρ}
    (outcome : tree.register watchpoint addr allocated = some (after, found)) {ref : ρ}
    (used : ref ∈ after.allocated) : ref ∈ tree.allocated ∨ after.Reaches ref := by
  cases root_eq : tree.addresses with
  | none =>
      cases allocated with
      | none =>
          simp only [AddressTree.register, root_eq] at outcome
          cases outcome
          exact .inl used
      | some wp =>
          simp only [AddressTree.register, root_eq] at outcome
          cases outcome
          rcases Finset.mem_insert.mp used with rfl | kept
          · exact .inr ⟨ref, rfl, .refl⟩
          · exact .inl kept
  | some root =>
      obtain ⟨slot, slot_eq, fits⟩ := treeSlot_spec watchpoint.callbackFn addr
        (root_eq ▸ holds.represents) holds.ordered holds.height
      simp only [AddressTree.register, root_eq, slot_eq, Option.map_some] at outcome
      cases slot with
      | existing wp =>
          cases outcome
          exact .inl used
      | vacant upper branch =>
          cases allocated with
          | none =>
              cases outcome
              exact .inl used
          | some wp =>
              cases outcome
              rcases Finset.mem_insert.mp used with rfl | kept
              · let asked : Watchpoint κ γ :=
                  { watchpoint with onEvents := watchpoint.onEvents &&& Watchpoint.eventAll }
                have planted := @AddressTree.Holds.plant ρ κ γ tree shape _ live holds ref upper
                  branch asked addr (fresh ref rfl) fits
                obtain ⟨⟨below, has, -⟩, -⟩ := fits
                exact .inr (planted.reaches_iff.mpr
                  ((mem_graft holds.distinct has).mpr (.inr (mem_sprout.mpr rfl))))
              · exact .inl kept

end AddressTree

end Free

namespace WatchpointLists

variable [DecidableEq ρ]

/-- `__membus_module_watchpoints_free`. -/
def teardown (lists : WatchpointLists ρ κ γ) (heap : Finset ρ) : Option (Finset ρ) := do
  let heap ← freeAll heap (lists.generics.map Prod.fst)
  let heap ← lists.addresses.addresses.elim (some heap)
    (lists.addresses.recursiveFree lists.addresses.allocated.card heap)
  freeAll heap (lists.addressRanges.map Prod.fst)

variable {lists after : WatchpointLists ρ κ γ} {registered : List (WatchEntry ρ κ γ)}

/-- Freeing the module frees the watchpoints that are registered, each once. -/
theorem Holds.teardown (holds : lists.Holds registered) (apart : lists.Apart) {heap : Finset ρ}
    (held : ∀ ref ∈ registered.map WatchEntry.ref, ref ∈ heap) :
    lists.teardown heap = some (heap \ (registered.map WatchEntry.ref).toFinset) := by
  obtain ⟨live, shape, refs, tracks⟩ := holds
  have registered_iff := tracks.registered_iff
  have node_used : ∀ ref ∈ shape, ref ∈ lists.addresses.allocated := tracks.holds.allocated
  have generics_held : ∀ ref ∈ lists.generics.map Prod.fst, ref ∈ heap := fun ref ref_mem =>
    held ref ((registered_iff ref).mpr (.inr (.inl ref_mem)))
  have generics_eq := freeAll_eq apart.generics generics_held
  have tree_held : ∀ ref ∈ shape, ref ∈ heap \ (lists.generics.map Prod.fst).toFinset := by
    intro ref ref_mem
    rw [Finset.mem_sdiff, List.mem_toFinset]
    exact ⟨held ref ((registered_iff ref).mpr (.inl ref_mem)), fun generic =>
      apart.generics_apart ref generic (node_used ref ref_mem)⟩
  obtain ⟨rest, rest_eq, leaves⟩ : ∃ rest, lists.addresses.addresses.elim
      (some (heap \ (lists.generics.map Prod.fst).toFinset))
        (lists.addresses.recursiveFree lists.addresses.allocated.card
          (heap \ (lists.generics.map Prod.fst).toFinset)) = some rest ∧
        AddressTree.Leaves (heap \ (lists.generics.map Prod.fst).toFinset) shape rest := by
    cases root_eq : lists.addresses.addresses with
    | none =>
        have empty := (root_eq ▸ tracks.holds.represents).eq_leaf
        refine ⟨_, rfl, fun ref => ?_⟩
        rw [empty]
        simp
    | some root =>
        exact AddressTree.recursiveFree_spec (root_eq ▸ tracks.holds.represents)
          tracks.holds.distinct tracks.holds.ordered tracks.holds.height tree_held
  have ranges_held : ∀ ref ∈ lists.addressRanges.map Prod.fst, ref ∈ rest := by
    intro ref ref_mem
    rw [leaves, Finset.mem_sdiff, List.mem_toFinset]
    exact ⟨⟨held ref ((registered_iff ref).mpr (.inr (.inr ref_mem))), fun generic =>
      apart.lists_apart ref generic ref_mem⟩, fun node =>
        apart.ranges_apart ref ref_mem (node_used ref node)⟩
  have ranges_eq := freeAll_eq apart.ranges ranges_held
  rw [WatchpointLists.teardown, Option.bind_eq_bind, generics_eq, Option.bind_some, rest_eq,
    Option.bind_some, ranges_eq]
  refine congrArg some (Finset.ext fun ref => ?_)
  simp only [Finset.mem_sdiff, List.mem_toFinset, leaves ref, registered_iff ref]
  tauto

/-! ## Memory in use -/

/-- All memory in use is that of watchpoints that are registered. -/
def Accounted (lists : WatchpointLists ρ κ γ) (registered : List (WatchEntry ρ κ γ)) : Prop :=
  ∀ ref, lists.InUse ref → ref ∈ registered.map WatchEntry.ref

theorem Accounted.unregister (accounted : lists.Accounted registered) (apart : lists.Apart)
    {ref : ρ} (outcome : lists.unregister ref = some after) :
    after.Accounted (registered.filter fun entry => entry.ref ≠ ref) := by
  obtain ⟨generics_eq, ranges_eq, -, allocated_eq⟩ := apart.unregister_spec outcome
  intro other used
  have kept : lists.InUse other ∧ other ≠ ref := by
    rw [InUse, generics_eq, ranges_eq, allocated_eq] at used
    rcases used with node | generic | range
    · exact ⟨.inl (Finset.mem_of_mem_erase node), Finset.ne_of_mem_erase node⟩
    · obtain ⟨wp, wp_mem, rfl⟩ := List.mem_map.mp generic
      obtain ⟨wp_mem, wp_ne⟩ := List.mem_filter.mp wp_mem
      exact ⟨.inr (.inl (List.mem_map_of_mem wp_mem)), of_decide_eq_true wp_ne⟩
    · obtain ⟨wp, wp_mem, rfl⟩ := List.mem_map.mp range
      obtain ⟨wp_mem, wp_ne⟩ := List.mem_filter.mp wp_mem
      exact ⟨.inr (.inr (List.mem_map_of_mem wp_mem)), of_decide_eq_true wp_ne⟩
  obtain ⟨entry, entry_mem, rfl⟩ := List.mem_map.mp (accounted other kept.1)
  exact List.mem_map_of_mem (List.mem_filter.mpr ⟨entry_mem, decide_eq_true kept.2⟩)

variable [DecidableEq κ]

omit [DecidableEq ρ] [DecidableEq κ] in
theorem map_ref_ask (asks : WatchEntry ρ κ γ → Prop) [DecidablePred asks] (onEvents : BitVec 32) :
    (registered.map fun entry => if asks entry then entry.ask onEvents else entry).map
      WatchEntry.ref = registered.map WatchEntry.ref := by
  rw [List.map_map]
  refine List.map_congr_left fun entry _ => ?_
  simp only [Function.comp_apply]
  split <;> rfl

/-- A watchpoint that is registered stays so when others are registered or its events change. -/
theorem ref_mem_after (call : WatchpointCall ρ κ γ) {ref : ρ}
    (ref_mem : ref ∈ registered.map WatchEntry.ref) :
    ref ∈ (WatchEntry.after registered call).map WatchEntry.ref := by
  unfold WatchEntry.after
  split
  · split
    · rwa [map_ref_ask]
    · split
      · exact List.mem_cons_of_mem _ ref_mem
      · exact ref_mem
  · exact List.mem_cons_of_mem _ ref_mem
  · split
    · exact ref_mem
    · exact List.mem_cons_of_mem _ ref_mem
  · rwa [map_ref_ask]
  · exact ref_mem

/-- A call takes only memory into use for the tree that it links into it. -/
theorem Holds.apply_fills (holds : lists.Holds registered) {call : WatchpointCall ρ κ γ}
    (fresh : ∀ ref ∈ call.allocated, ¬ lists.InUse ref) (outcome : lists.apply call = some after)
    {ref : ρ} (used : ref ∈ after.addresses.allocated) :
    ref ∈ lists.addresses.allocated ∨ after.addresses.Reaches ref := by
  cases call with
  | registerAddr onEvents callback context addr allocated =>
      cases callback with
      | none =>
          cases outcome
          exact .inl used
      | some callbackFn =>
          obtain ⟨live, shape, refs, tracks⟩ := holds
          obtain ⟨⟨addresses, found⟩, register_eq, rfl⟩ := Option.map_eq_some_iff.mp outcome
          exact tracks.holds.register_fills (fun wp given inTree => fresh wp given (.inl inTree))
            register_eq used
  | registerGeneric onEvents callback context allocated =>
      cases outcome
      unfold WatchpointLists.registerGeneric at used ⊢
      split at used <;> exact .inl used
  | registerAddrRange onEvents callback context addrRange allocated =>
      cases outcome
      unfold WatchpointLists.registerAddrRange at used ⊢
      split at used
      · split at used <;> exact .inl used
      · exact .inl used
  | setEvents wp onEvents =>
      cases outcome
      rw [(map_fst_setEvents lists wp onEvents).2.2] at used
      exact .inl used

theorem Accounted.apply (accounted : lists.Accounted registered) (holds : lists.Holds registered)
    {call : WatchpointCall ρ κ γ} (fresh : ∀ ref ∈ call.allocated, ¬ lists.InUse ref)
    (outcome : lists.apply call = some after) :
    after.Accounted (WatchEntry.after registered call) := by
  obtain ⟨next, next_eq, live, shape, refs, tracks⟩ := holds.apply call fresh
  obtain rfl : next = after := Option.some.inj (next_eq.symm.trans outcome)
  intro ref used
  rcases used with node | generic | range
  · rcases holds.apply_fills fresh outcome node with kept | reaches
    · exact ref_mem_after call (accounted ref (.inl kept))
    · exact (tracks.registered_iff ref).mpr (.inl (tracks.holds.reaches_iff.mp reaches))
  · exact (tracks.registered_iff ref).mpr (.inr (.inl generic))
  · exact (tracks.registered_iff ref).mpr (.inr (.inr range))

theorem Accounted.serveAll (accounted : lists.Accounted registered) (holds : lists.Holds registered)
    (apart : lists.Apart) {requests : List (WatchpointRequest ρ κ γ)}
    (serves : lists.Serves registered requests) (outcome : lists.serveAll requests = some after) :
    after.Accounted (requests.foldl WatchEntry.afterRequest registered) := by
  induction requests generalizing lists registered with
  | nil =>
      cases outcome
      exact accounted
  | cons request requests ih =>
      obtain ⟨proper, keeps, following⟩ := serves
      obtain ⟨next, serve_eq, nextHolds, nextApart⟩ := holds.serve apart proper keeps
      rw [WatchpointLists.serveAll, serve_eq] at outcome
      refine ih ?_ nextHolds nextApart (following next serve_eq) outcome
      cases request with
      | call call => exact accounted.apply holds proper serve_eq
      | unregister ref => exact accounted.unregister apart serve_eq

/-- After calls on lists that start empty, the memory in use is that of the watchpoints that are
registered; freeing the module then follows the links of memory in use only, and gives back this
memory, each piece once, and no other. -/
theorem teardown_frees (nodes : ρ → WatchpointAddr ρ κ γ)
    {requests : List (WatchpointRequest ρ κ γ)}
    (serves : (empty nodes : WatchpointLists ρ κ γ).Serves [] requests) (heap : Finset ρ) :
    ∃ lists, (empty nodes).serveAll requests = some lists ∧
      (∀ ref, lists.InUse ref ↔ ref ∈ (WatchEntry.afterRequests requests).map WatchEntry.ref) ∧
      ((∀ ref, lists.InUse ref → ref ∈ heap) → ∃ after, lists.teardown heap = some after ∧
        ∀ ref, ref ∈ after ↔ ref ∈ heap ∧ ¬ lists.InUse ref) := by
  obtain ⟨lists, serveAll_eq, holds, apart⟩ :=
    (holds_empty nodes).serveAll (apart_empty nodes) serves
  have nothing : (empty nodes : WatchpointLists ρ κ γ).Accounted [] := fun ref used => by
    simp [InUse, empty, AddressTree.empty] at used
  have accounted := nothing.serveAll (holds_empty nodes) (apart_empty nodes) serves serveAll_eq
  have used_iff : ∀ ref, lists.InUse ref ↔
      ref ∈ (WatchEntry.afterRequests requests).map WatchEntry.ref := by
    obtain ⟨live, shape, refs, tracks⟩ := holds
    refine fun ref => ⟨accounted ref, fun listed => ?_⟩
    exact ((tracks.registered_iff ref).mp listed).imp_left (tracks.holds.allocated ref)
  refine ⟨lists, serveAll_eq, used_iff, fun held => ?_⟩
  refine ⟨_, holds.teardown apart fun ref listed => held ref ((used_iff ref).mpr listed),
    fun ref => ?_⟩
  rw [Finset.mem_sdiff, List.mem_toFinset, used_iff]
  rfl

theorem teardown_frees_departing :
    ∃ lists, (empty blank).serveAll departingRequests = some lists ∧
      ∃ after, lists.teardown {1, 2, 7} = some after ∧
        ∀ ref, ref ∈ after ↔ ref ∈ ({1, 2, 7} : Finset Nat) ∧ ¬ lists.InUse ref := by
  obtain ⟨lists, serveAll_eq, used_iff, frees⟩ := teardown_frees blank
    (by decide : (empty blank).Serves [] departingRequests) {1, 2, 7}
  refine ⟨lists, serveAll_eq, frees fun ref used => ?_⟩
  have listed := (used_iff ref).mp used
  have registered_eq :
      (WatchEntry.afterRequests departingRequests).map WatchEntry.ref = [2, 1] := by decide
  rw [registered_eq] at listed
  simp only [List.mem_cons, List.not_mem_nil, or_false] at listed
  rcases listed with rfl | rfl <;> decide

end WatchpointLists

end System6502
