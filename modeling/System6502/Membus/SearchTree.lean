import System6502.Lib.Machine
import System6502.Membus.AddressTree

/-!
# The search tree of address watchpoints

Registration and removal as operations on a linked tree, and the exact runs of them along which
the tree stays a search tree of the watchpoints that are still registered.
-/

namespace System6502

open Lib Lib.LinkedTree

/-- What a branch asks of an address below another. -/
def Branch.Order : Branch → Word → Word → Prop
  | .left, lower, top => lower < top
  | .right, lower, top => top < lower
  | .child, lower, top => lower = top

/-- An address goes one way below another. -/
theorem Branch.Order.unique {one other : Branch} {lower top : Word} (first : one.Order lower top)
    (second : other.Order lower top) : one = other := by
  cases one <;> cases other <;> simp only [Branch.Order] at first second <;>
    first | rfl | (exfalso; bv_omega)

namespace AddressTree

variable {ρ κ γ : Type*}

/-- The links of the nodes in memory. -/
def links (tree : AddressTree ρ κ γ) : Links ρ Branch where
  link ref branch := (tree.nodes ref).link branch
  parent ref := (tree.nodes ref).parent

/-- The address of a node. -/
def key (tree : AddressTree ρ κ γ) (ref : ρ) : Word := (tree.nodes ref).addr

/-! ## Updates and links -/

section Update

variable [DecidableEq ρ] (tree : AddressTree ρ κ γ)

@[simp]
theorem link_setLink (ref other : ρ) (branch way : Branch) (target : Option ρ) :
    (tree.setLink ref branch target).links.link other way =
      if other = ref ∧ way = branch then target else tree.links.link other way := by
  by_cases here : other = ref
  · subst here
    cases branch <;> cases way <;>
      simp [links, setLink, modify, WatchpointAddr.setLink, WatchpointAddr.link]
  · simp [links, setLink, modify, here]

@[simp]
theorem parent_setLink (ref other : ρ) (branch : Branch) (target : Option ρ) :
    (tree.setLink ref branch target).links.parent other = tree.links.parent other := by
  by_cases here : other = ref
  · subst here
    cases branch <;> simp [links, setLink, modify, WatchpointAddr.setLink]
  · simp [links, setLink, modify, here]

@[simp]
theorem key_setLink (ref : ρ) (branch : Branch) (target : Option ρ) :
    (tree.setLink ref branch target).key = tree.key := by
  funext other
  by_cases here : other = ref
  · subst here
    cases branch <;> simp [key, setLink, modify, WatchpointAddr.setLink]
  · simp [key, setLink, modify, here]

@[simp]
theorem link_setParent (below above : Option ρ) :
    (tree.setParent below above).links.link = tree.links.link := by
  funext other way
  cases below with
  | none => rfl
  | some ref =>
      by_cases here : other = ref
      · subst here
        cases way <;> simp [links, setParent, modify, WatchpointAddr.link]
      · simp [links, setParent, modify, here]

@[simp]
theorem parent_setParent (below above : Option ρ) (other : ρ) :
    (tree.setParent below above).links.parent other =
      if below = some other then above else tree.links.parent other := by
  cases below with
  | none => rfl
  | some ref =>
      by_cases here : other = ref
      · subst here
        simp [links, setParent, modify]
      · simp [links, setParent, modify, here, Ne.symm here]

@[simp]
theorem key_setParent (below above : Option ρ) :
    (tree.setParent below above).key = tree.key := by
  funext other
  cases below with
  | none => rfl
  | some ref =>
      by_cases here : other = ref
      · subst here
        simp [key, setParent, modify]
      · simp [key, setParent, modify, here]

@[simp]
theorem allocated_setParent (below above : Option ρ) :
    (tree.setParent below above).allocated = tree.allocated := by
  cases below <;> rfl

@[simp]
theorem addresses_setParent (below above : Option ρ) :
    (tree.setParent below above).addresses = tree.addresses := by
  cases below <;> rfl

@[simp]
theorem link_adopt (branch way : Branch) (heir former other : ρ) :
    (tree.adopt branch heir former).links.link other way =
      if other = heir ∧ way = branch then tree.links.link former branch
      else tree.links.link other way := by
  rw [adopt, link_setParent, link_setLink]
  rfl

@[simp]
theorem parent_adopt (branch : Branch) (heir former other : ρ) :
    (tree.adopt branch heir former).links.parent other =
      if tree.links.link former branch = some other then some heir
      else tree.links.parent other := by
  rw [adopt, parent_setParent, parent_setLink]
  rfl

@[simp]
theorem key_adopt (branch : Branch) (heir former : ρ) :
    (tree.adopt branch heir former).key = tree.key := by
  rw [adopt, key_setParent, key_setLink]

@[simp]
theorem allocated_adopt (branch : Branch) (heir former : ρ) :
    (tree.adopt branch heir former).allocated = tree.allocated := by
  rw [adopt, allocated_setParent]
  rfl

@[simp]
theorem addresses_adopt (branch : Branch) (heir former : ρ) :
    (tree.adopt branch heir former).addresses = tree.addresses := by
  rw [adopt, addresses_setParent]
  rfl

end Update

/-! ## The invariant -/

/-- A linked tree in memory that holds the live watchpoints in search order. -/
structure Holds (tree : AddressTree ρ κ γ) (live : ρ → Option Word)
    (shape : LinkedTree ρ Branch) : Prop where
  /-- The links from the root represent the tree. -/
  represents : shape.Represents tree.links none tree.addresses
  /-- No node occurs twice. -/
  distinct : shape.Distinct
  /-- The addresses are in search order. -/
  ordered : shape.Ordered Branch.Order tree.key
  /-- The nodes are the live watchpoints, at their addresses. -/
  live_iff : ∀ ref addr, live ref = some addr ↔ ref ∈ shape ∧ tree.key ref = addr
  /-- The nodes are allocated. -/
  allocated : ∀ ref ∈ shape, ref ∈ tree.allocated

theorem Holds.height [DecidableEq ρ] {tree : AddressTree ρ κ γ} {live : ρ → Option Word}
    {shape : LinkedTree ρ Branch} (holds : tree.Holds live shape) :
    shape.HeightLE tree.allocated.card :=
  heightLE_card holds.distinct holds.allocated

/-! ## Searching -/

section Search

variable {tree : AddressTree ρ κ γ} {shape : LinkedTree ρ Branch} {above pointer : Option ρ}

/-- The branches left and right below a `child` link are empty. -/
theorem chain_notMem {top ref : ρ} {below under : Branch → LinkedTree ρ Branch}
    (ordered : (node top below).Ordered Branch.Order tree.key)
    (has : (below .child).HasNode ref under) {side : Branch} (notChild : side ≠ .child)
    (lower : ρ) : lower ∉ under side := by
  intro lower_mem
  have chained := ordered .child
  have lower_eq : tree.key lower = tree.key top := chained.1 lower (has.mem_of_mem lower_mem)
  have ref_eq : tree.key ref = tree.key top := chained.1 ref has.mem
  have apart : side.Order (tree.key lower) (tree.key ref) :=
    (chained.2.hasNode has side).1 lower lower_mem
  rw [lower_eq, ref_eq] at apart
  have chain_order : Branch.child.Order (tree.key top) (tree.key top) := rfl
  exact notChild (apart.unique chain_order)

/-- Below a `child` link, a chain lists the nodes of the tree. -/
theorem chain_spec {addr : Word} {fuel : Nat}
    (represents : shape.Represents tree.links above pointer) (distinct : shape.Distinct)
    (ordered : shape.Ordered Branch.Order tree.key) (same : ∀ ref ∈ shape, tree.key ref = addr)
    (height : shape.HeightLE fuel) :
    ∃ refs, tree.chain fuel pointer = some refs ∧ refs.Nodup ∧ ∀ ref, ref ∈ refs ↔ ref ∈ shape := by
  induction shape generalizing above pointer fuel with
  | leaf =>
      obtain rfl : pointer = none := represents
      exact ⟨[], by cases fuel <;> rfl, List.nodup_nil, by simp⟩
  | node top below ih =>
      obtain ⟨rfl, -, under⟩ := represents
      obtain ⟨rest, rfl, heights⟩ := height
      obtain ⟨refs, chain_eq, nodup, refs_iff⟩ := ih .child (under .child)
        (distinct.2.2 .child) (ordered .child).2 (fun ref ref_mem => same ref (.inr ⟨_, ref_mem⟩))
        (heights .child)
      refine ⟨top :: refs, ?_, ?_, fun ref => ?_⟩
      · change (tree.chain rest (tree.links.link top .child)).map _ = _
        rw [chain_eq]
        rfl
      · refine List.nodup_cons.mpr ⟨fun top_mem => ?_, nodup⟩
        exact distinct.1 .child ((refs_iff top).mp top_mem)
      · rw [List.mem_cons, refs_iff, mem_node]
        refine or_congr_right ⟨fun ref_mem => ⟨.child, ref_mem⟩, fun ⟨side, ref_mem⟩ => ?_⟩
        have ordered_side : side.Order (tree.key ref) (tree.key top) := (ordered side).1 ref ref_mem
        rw [same ref (.inr ⟨side, ref_mem⟩), same top (.inl rfl)] at ordered_side
        obtain rfl : side = .child := ordered_side.unique rfl
        exact ref_mem

/-- The search ends, and its result heads the chain of the nodes with the address. -/
theorem findAddr_spec {fuel : Nat} (represents : shape.Represents tree.links above pointer)
    (distinct : shape.Distinct) (ordered : shape.Ordered Branch.Order tree.key)
    (height : shape.HeightLE fuel) (addr : Word) :
    ∃ found rounds refs, tree.findAddr addr fuel pointer = some found ∧
      tree.chain rounds found = some refs ∧ refs.Nodup ∧
        ∀ ref, ref ∈ refs ↔ ref ∈ shape ∧ tree.key ref = addr := by
  induction shape generalizing above pointer fuel with
  | leaf =>
      obtain rfl : pointer = none := represents
      exact ⟨none, 0, [], by cases fuel <;> rfl, rfl, List.nodup_nil, by simp⟩
  | node top below ih =>
      obtain ⟨rfl, -, under⟩ := represents
      obtain ⟨rest, rfl, heights⟩ := height
      have side_order : ∀ side, ∀ ref ∈ below side, side.Order (tree.key ref) (tree.key top) :=
        fun side => (ordered side).1
      by_cases here : tree.key top = addr
      · obtain ⟨refs, chain_eq, nodup, refs_iff⟩ := chain_spec (under .child)
          (distinct.2.2 .child) (ordered .child).2
          (fun ref ref_mem => (side_order .child ref ref_mem).trans here) (heights .child)
        refine ⟨some top, rest + 1, top :: refs, if_pos here, ?_, ?_, fun ref => ?_⟩
        · change (tree.chain rest (tree.links.link top .child)).map _ = _
          rw [chain_eq]
          rfl
        · exact List.nodup_cons.mpr
            ⟨fun top_mem => distinct.1 .child ((refs_iff top).mp top_mem), nodup⟩
        · rw [List.mem_cons, refs_iff, mem_node]
          constructor
          · rintro (rfl | ref_mem)
            · exact ⟨.inl rfl, here⟩
            · exact ⟨.inr ⟨.child, ref_mem⟩, (side_order .child ref ref_mem).trans here⟩
          · rintro ⟨rfl | ⟨side, ref_mem⟩, rfl⟩
            · exact .inl rfl
            · have apart := side_order side ref ref_mem
              rw [here] at apart
              obtain rfl : side = .child := apart.unique rfl
              exact .inr ref_mem
      · -- the search goes on in the only branch whose order the address meets
        obtain ⟨side, order, go⟩ : ∃ side : Branch, side.Order addr (tree.key top) ∧
            tree.findAddr addr (rest + 1) (some top) =
              tree.findAddr addr rest (tree.links.link top side) := by
          by_cases greater : tree.key top > addr
          · exact ⟨.left, greater, (if_neg here).trans (if_pos greater)⟩
          · refine ⟨.right, ?_, (if_neg here).trans (if_neg greater)⟩
            change tree.key top < addr
            bv_omega
        obtain ⟨found, rounds, refs, find_eq, chain_eq, nodup, refs_iff⟩ :=
          ih side (under side) (distinct.2.2 side) (ordered side).2 (heights side)
        refine ⟨found, rounds, refs, go.trans find_eq, chain_eq, nodup, fun ref => ?_⟩
        rw [refs_iff, mem_node]
        constructor
        · exact fun ⟨ref_mem, key_eq⟩ => ⟨.inr ⟨side, ref_mem⟩, key_eq⟩
        · rintro ⟨rfl | ⟨other, ref_mem⟩, rfl⟩
          · exact absurd rfl here
          · obtain rfl : other = side := (side_order other ref ref_mem).unique order
            exact ⟨ref_mem, rfl⟩

end Search

/-! ## What the invariant gives -/

/-- A node lies on a path of links from the root. -/
def Reaches (tree : AddressTree ρ κ γ) (ref : ρ) : Prop :=
  ∃ root ∈ tree.addresses, Relation.ReflTransGen tree.links.Follows root ref

/-- A search tree of the live watchpoints, as the links in memory show it. -/
structure SearchTree (tree : AddressTree ρ κ γ) (live : ρ → Option Word) : Prop where
  /-- No path of links returns to its start. -/
  acyclic : ∀ ref, tree.Reaches ref → ¬ Relation.TransGen tree.links.Follows ref ref
  /-- The left subtree of a node holds smaller addresses. -/
  left : ∀ ref, tree.Reaches ref → ∀ next ∈ (tree.nodes ref).left, ∀ lower,
    Relation.ReflTransGen tree.links.Follows next lower → tree.key lower < tree.key ref
  /-- The right subtree of a node holds larger addresses. -/
  right : ∀ ref, tree.Reaches ref → ∀ next ∈ (tree.nodes ref).right, ∀ lower,
    Relation.ReflTransGen tree.links.Follows next lower → tree.key ref < tree.key lower
  /-- Parent links are the inverse of the others. -/
  parent_iff : ∀ ref, tree.Reaches ref → ∀ upper,
    (tree.nodes ref).parent = some upper ↔ tree.Reaches upper ∧ tree.links.Follows upper ref
  /-- The root alone has no parent. -/
  root_iff : ∀ ref, tree.Reaches ref →
    ((tree.nodes ref).parent = none ↔ tree.addresses = some ref)
  /-- The search for an address ends at the chain of the live watchpoints on it. -/
  find : ∀ addr, ∃ fuel found rounds refs, tree.findAddr addr fuel tree.addresses = some found ∧
    tree.chain rounds found = some refs ∧ refs.Nodup ∧ ∀ ref, ref ∈ refs ↔ live ref = some addr

section Holds

variable {tree : AddressTree ρ κ γ} {live : ρ → Option Word} {shape : LinkedTree ρ Branch}

theorem Holds.reaches_iff (holds : tree.Holds live shape) {ref : ρ} :
    tree.Reaches ref ↔ ref ∈ shape := by
  cases root_eq : tree.addresses with
  | none =>
      have empty := (root_eq ▸ holds.represents).eq_leaf
      simp [Reaches, root_eq, empty]
  | some root =>
      have represents := root_eq ▸ holds.represents
      obtain ⟨branch, shape_eq⟩ := represents.eq_node
      have root_mem : root ∈ shape := by
        rw [shape_eq]
        exact .inl rfl
      constructor
      · rintro ⟨start, start_mem, path⟩
        obtain rfl : root = start := Option.some.inj (root_eq.symm.trans start_mem)
        exact represents.mem_of_reaches root_mem path
      · exact fun ref_mem => ⟨root, root_eq, represents.reaches ref_mem⟩

/-- Every node below a link of a tree is in the branch of that link. -/
theorem Holds.mem_branch (holds : tree.Holds live shape) {ref next lower : ρ}
    {below : Branch → LinkedTree ρ Branch} {side : Branch} (has : shape.HasNode ref below)
    (next_eq : tree.links.link ref side = some next)
    (path : Relation.ReflTransGen tree.links.Follows next lower) : lower ∈ below side := by
  have under := (holds.represents.hasNode has).2.2 side
  rw [next_eq] at under
  obtain ⟨branch, branch_eq⟩ := under.eq_node
  refine under.mem_of_reaches ?_ path
  rw [branch_eq]
  exact .inl rfl

theorem Holds.searchTree [DecidableEq ρ] (holds : tree.Holds live shape) :
    tree.SearchTree live where
  acyclic ref reaches := holds.represents.acyclic holds.distinct (holds.reaches_iff.mp reaches)
  left ref reaches next next_eq lower path := by
    obtain ⟨below, has⟩ := mem_iff_hasNode.mp (holds.reaches_iff.mp reaches)
    exact (holds.ordered.hasNode has .left).1 lower (holds.mem_branch has next_eq path)
  right ref reaches next next_eq lower path := by
    obtain ⟨below, has⟩ := mem_iff_hasNode.mp (holds.reaches_iff.mp reaches)
    exact (holds.ordered.hasNode has .right).1 lower (holds.mem_branch has next_eq path)
  parent_iff ref reaches upper := by
    obtain ⟨below, has⟩ := mem_iff_hasNode.mp (holds.reaches_iff.mp reaches)
    constructor
    · intro parent_eq
      rcases holds.represents.root_or_branch has with
        ⟨-, no_parent, -⟩ | ⟨other, beside, side, hasOther, -, upper_eq, link_eq⟩
      · cases no_parent.symm.trans parent_eq
      · obtain rfl : other = upper := Option.some.inj (upper_eq.symm.trans parent_eq)
        exact ⟨holds.reaches_iff.mpr hasOther.mem, side, link_eq⟩
    · rintro ⟨upper_reaches, follows⟩
      exact (holds.represents.follow (holds.reaches_iff.mp upper_reaches) follows).2
  root_iff ref reaches := by
    obtain ⟨below, has⟩ := mem_iff_hasNode.mp (holds.reaches_iff.mp reaches)
    rcases holds.represents.root_or_branch has with
      ⟨root_eq, no_parent, -⟩ | ⟨upper, beside, side, hasUpper, -, upper_eq, link_eq⟩
    · exact iff_of_true no_parent root_eq
    · refine iff_of_false (fun no_parent => ?_) fun root_eq => ?_
      · cases no_parent.symm.trans upper_eq
      · have represents := root_eq ▸ holds.represents
        obtain ⟨branch, shape_eq⟩ := represents.eq_node
        rw [shape_eq] at represents
        cases represents.2.1.symm.trans upper_eq
  find addr := by
    obtain ⟨found, rounds, refs, find_eq, chain_eq, nodup, refs_iff⟩ :=
      findAddr_spec holds.represents holds.distinct holds.ordered holds.height addr
    refine ⟨_, found, rounds, refs, find_eq, chain_eq, nodup, fun ref => ?_⟩
    rw [refs_iff, holds.live_iff]

end Holds

/-! ## Registration -/

section Register

variable {tree : AddressTree ρ κ γ} {shape : LinkedTree ρ Branch} {above : Option ρ}

/-- A place for a watchpoint on an address: a watchpoint on it, or a null link that admits it. -/
def Slot.Fits (tree : AddressTree ρ κ γ) (addr : Word) (shape : LinkedTree ρ Branch) :
    Slot ρ → Prop
  | .existing wp => wp ∈ shape ∧ tree.key wp = addr
  | .vacant wp branch =>
      (∃ below, shape.HasNode wp below ∧ below branch = leaf) ∧
        shape.Admits Branch.Order tree.key wp branch addr

theorem Slot.Fits.below {addr : Word} {top : ρ} {branch : Branch → LinkedTree ρ Branch}
    {side : Branch} {slot : Slot ρ} (fits : slot.Fits tree addr (branch side))
    (order : side.Order addr (tree.key top)) : slot.Fits tree addr (node top branch) := by
  cases slot with
  | existing wp => exact ⟨.inr ⟨side, fits.1⟩, fits.2⟩
  | vacant wp way =>
      obtain ⟨⟨under, has, empty⟩, admits⟩ := fits
      exact ⟨⟨under, .inr ⟨side, has⟩, empty⟩, .inr ⟨side, admits, order⟩⟩

/-- A null link of a node fits what its branch asks for. -/
theorem Slot.fits_of_null {addr : Word} {top : ρ} {branch : Branch → LinkedTree ρ Branch}
    {side : Branch} (represents : (node top branch).Represents tree.links above (some top))
    (null : tree.links.link top side = none) (order : side.Order addr (tree.key top)) :
    Slot.Fits tree addr (node top branch) (.vacant top side) :=
  ⟨⟨branch, .inl ⟨rfl, rfl⟩, (null ▸ represents.2.2 side).eq_leaf⟩, .inl ⟨rfl, order⟩⟩

theorem chainSlot_spec [DecidableEq κ] (callbackFn : κ) {fuel : Nat} {top : ρ}
    (represents : shape.Represents tree.links above (some top))
    (ordered : shape.Ordered Branch.Order tree.key) (height : shape.HeightLE fuel) :
    ∃ slot, tree.chainSlot callbackFn fuel top = some slot ∧
      slot.Fits tree (tree.key top) shape := by
  induction shape generalizing above top fuel with
  | leaf => cases represents
  | node other below ih =>
      obtain ⟨top_eq, parent_eq, under⟩ := represents
      obtain rfl := Option.some.inj top_eq
      obtain ⟨rest, rfl, heights⟩ := height
      by_cases here : (tree.nodes top).base.callbackFn = callbackFn
      · exact ⟨.existing top, if_pos here, .inl rfl, rfl⟩
      · cases child_eq : tree.links.link top .child with
        | none =>
            have child_none : (tree.nodes top).child = none := child_eq
            refine ⟨.vacant top .child, ?_, Slot.fits_of_null ⟨rfl, rfl, under⟩ child_eq rfl⟩
            rw [chainSlot, if_neg here, child_none]
        | some next =>
            have child_some : (tree.nodes top).child = some next := child_eq
            have next_represents := child_eq ▸ under .child
            obtain ⟨slot, slot_eq, fits⟩ := ih .child next_represents (ordered .child).2
              (heights .child)
            obtain ⟨lower, lower_eq⟩ := next_represents.eq_node
            have next_key : tree.key next = tree.key top := (ordered .child).1 next (by
              rw [lower_eq]
              exact .inl rfl)
            have order : Branch.child.Order (tree.key top) (tree.key top) := rfl
            refine ⟨slot, ?_, Slot.Fits.below (next_key ▸ fits) order⟩
            rw [chainSlot, if_neg here, child_some]
            exact slot_eq

/-- At a node with another address, the search for a place goes on in the branch where the address
may be, or ends at its null link. -/
theorem treeSlot_turn [DecidableEq κ] (callbackFn : κ) {addr : Word} {top : ρ}
    (here : tree.key top ≠ addr) (fuel : Nat) :
    ∃ side : Branch, side.Order addr (tree.key top) ∧
      tree.treeSlot callbackFn addr (fuel + 1) top =
        (tree.links.link top side).elim (some (.vacant top side))
          (tree.treeSlot callbackFn addr fuel) := by
  have here : ¬ (tree.nodes top).addr = addr := here
  by_cases greater : (tree.nodes top).addr > addr
  · refine ⟨.left, greater, ?_⟩
    rw [treeSlot, if_neg here, if_pos greater]
    change _ = (tree.nodes top).left.elim _ _
    cases (tree.nodes top).left <;> rfl
  · refine ⟨.right, ?_, ?_⟩
    · change (tree.nodes top).addr < addr
      bv_omega
    · rw [treeSlot, if_neg here, if_neg greater]
      change _ = (tree.nodes top).right.elim _ _
      cases (tree.nodes top).right <;> rfl

theorem treeSlot_spec [DecidableEq κ] (callbackFn : κ) (addr : Word) {fuel : Nat} {top : ρ}
    (represents : shape.Represents tree.links above (some top))
    (ordered : shape.Ordered Branch.Order tree.key) (height : shape.HeightLE fuel) :
    ∃ slot, tree.treeSlot callbackFn addr fuel top = some slot ∧ slot.Fits tree addr shape := by
  induction shape generalizing above top fuel with
  | leaf => cases represents
  | node other below ih =>
      have whole := represents
      obtain ⟨top_eq, parent_eq, under⟩ := represents
      obtain rfl := Option.some.inj top_eq
      by_cases here : tree.key top = addr
      · obtain ⟨slot, slot_eq, fits⟩ := chainSlot_spec callbackFn whole ordered height
        obtain ⟨rest, rfl, -⟩ := height
        exact ⟨slot, (if_pos here).trans slot_eq, here ▸ fits⟩
      · obtain ⟨rest, rfl, heights⟩ := height
        obtain ⟨side, order, turn⟩ := treeSlot_turn callbackFn here rest
        cases link_eq : tree.links.link top side with
        | none =>
            rw [link_eq] at turn
            exact ⟨_, turn, Slot.fits_of_null whole link_eq order⟩
        | some next =>
            rw [link_eq] at turn
            obtain ⟨slot, slot_eq, fits⟩ :=
              ih side (link_eq ▸ under side) (ordered side).2 (heights side)
            exact ⟨slot, turn.trans slot_eq, fits.below order⟩

/-- What a place for a watchpoint says about a callback on an address: a watchpoint found there has
the callback, and a null link means that no watchpoint on the address has it. -/
def Slot.Decides (tree : AddressTree ρ κ γ) (callbackFn : κ) (addr : Word)
    (shape : LinkedTree ρ Branch) : Slot ρ → Prop
  | .existing wp => (tree.nodes wp).base.callbackFn = callbackFn
  | .vacant _ _ => ∀ ref ∈ shape, tree.key ref = addr →
      (tree.nodes ref).base.callbackFn ≠ callbackFn

theorem Slot.Decides.below {callbackFn : κ} {addr : Word} {top : ρ}
    {branch : Branch → LinkedTree ρ Branch} {side : Branch} {slot : Slot ρ}
    (decides : slot.Decides tree callbackFn addr (branch side))
    (ordered : (node top branch).Ordered Branch.Order tree.key)
    (other : tree.key top = addr → (tree.nodes top).base.callbackFn ≠ callbackFn)
    (order : side.Order addr (tree.key top)) :
    slot.Decides tree callbackFn addr (node top branch) := by
  cases slot with
  | existing wp => exact decides
  | vacant wp way =>
      rintro ref (rfl | ⟨way, ref_mem⟩) rfl
      · exact other rfl
      · obtain rfl : way = side := ((ordered way).1 ref ref_mem).unique order
        exact decides ref ref_mem rfl

/-- A null link in the one branch where the address may be. -/
theorem Slot.decides_of_null {callbackFn : κ} {addr : Word} {top : ρ}
    {branch : Branch → LinkedTree ρ Branch} {side : Branch}
    (represents : (node top branch).Represents tree.links above (some top))
    (null : tree.links.link top side = none)
    (ordered : (node top branch).Ordered Branch.Order tree.key)
    (other : tree.key top = addr → (tree.nodes top).base.callbackFn ≠ callbackFn)
    (order : side.Order addr (tree.key top)) :
    Slot.Decides tree callbackFn addr (node top branch) (.vacant top side) := by
  have nothing : branch side = leaf := (null ▸ represents.2.2 side).eq_leaf
  have decides : Slot.Decides tree callbackFn addr (branch side) (.vacant top side) := by
    intro ref ref_mem
    rw [nothing] at ref_mem
    exact absurd ref_mem (not_mem_leaf ref)
  exact decides.below ordered other order

theorem chainSlot_decides [DecidableEq κ] {callbackFn : κ} {fuel : Nat} {top : ρ} {slot : Slot ρ}
    (represents : shape.Represents tree.links above (some top))
    (ordered : shape.Ordered Branch.Order tree.key)
    (found : tree.chainSlot callbackFn fuel top = some slot) :
    slot.Decides tree callbackFn (tree.key top) shape := by
  induction shape generalizing above top fuel with
  | leaf => cases represents
  | node other below ih =>
      have whole := represents
      obtain ⟨top_eq, -, under⟩ := represents
      obtain rfl := Option.some.inj top_eq
      have order : Branch.child.Order (tree.key top) (tree.key top) := rfl
      cases fuel with
      | zero => cases found
      | succ rest =>
          rw [chainSlot] at found
          by_cases here : (tree.nodes top).base.callbackFn = callbackFn
          · rw [if_pos here] at found
            cases found
            exact here
          · rw [if_neg here] at found
            cases child_eq : (tree.nodes top).child with
            | none =>
                rw [child_eq] at found
                cases found
                exact Slot.decides_of_null whole child_eq ordered (fun _ => here) order
            | some next =>
                rw [child_eq] at found
                have next_represents :
                    (below .child).Represents tree.links (some top) (some next) :=
                  child_eq ▸ under .child
                obtain ⟨lower, lower_eq⟩ := next_represents.eq_node
                have next_key : tree.key next = tree.key top := (ordered .child).1 next (by
                  rw [lower_eq]
                  exact .inl rfl)
                have decides := ih .child next_represents (ordered .child).2 found
                rw [next_key] at decides
                exact decides.below ordered (fun _ => here) order

theorem treeSlot_decides [DecidableEq κ] {callbackFn : κ} {addr : Word} {fuel : Nat} {top : ρ}
    {slot : Slot ρ} (represents : shape.Represents tree.links above (some top))
    (ordered : shape.Ordered Branch.Order tree.key)
    (found : tree.treeSlot callbackFn addr fuel top = some slot) :
    slot.Decides tree callbackFn addr shape := by
  induction shape generalizing above top fuel with
  | leaf => cases represents
  | node other below ih =>
      have whole := represents
      obtain ⟨top_eq, -, under⟩ := represents
      obtain rfl := Option.some.inj top_eq
      cases fuel with
      | zero => cases found
      | succ rest =>
          by_cases here : tree.key top = addr
          · have chain_eq : tree.treeSlot callbackFn addr (rest + 1) top =
                tree.chainSlot callbackFn (rest + 1) top := if_pos here
            rw [chain_eq] at found
            exact here ▸ chainSlot_decides whole ordered found
          · have other : tree.key top = addr → (tree.nodes top).base.callbackFn ≠ callbackFn :=
              fun same => absurd same here
            obtain ⟨side, order, turn⟩ := treeSlot_turn callbackFn here rest
            rw [turn] at found
            cases link_eq : tree.links.link top side with
            | none =>
                rw [link_eq] at found
                cases found
                exact Slot.decides_of_null whole link_eq ordered other order
            | some next =>
                rw [link_eq] at found
                exact (ih side (link_eq ▸ under side) (ordered side).2 found).below ordered other
                  order

/-- A tree of one node. -/
def sprout (wp : ρ) : LinkedTree ρ Branch := node wp fun _ => leaf

theorem mem_sprout {wp ref : ρ} : ref ∈ sprout wp ↔ ref = wp := by
  simp [sprout]

theorem sprout_distinct (wp : ρ) : (sprout wp).Distinct :=
  ⟨fun _ => id, fun _ _ _ impossible => impossible.elim, fun _ => trivial⟩

theorem sprout_ordered (wp : ρ) (order : Branch → Word → Word → Prop) (key : ρ → Word) :
    (sprout wp).Ordered order key := fun _ => ⟨fun _ impossible => impossible.elim, trivial⟩

section Plant

variable [DecidableEq ρ]

theorem live_insert {live : ρ → Option Word} {shape grown : LinkedTree ρ Branch}
    {key grownKey : ρ → Word} {wp : ρ} {addr : Word}
    (live_iff : ∀ ref addr, live ref = some addr ↔ ref ∈ shape ∧ key ref = addr)
    (grown_iff : ∀ ref, ref ∈ grown ↔ ref ∈ shape ∨ ref = wp) (key_wp : grownKey wp = addr)
    (key_eq : ∀ ref ≠ wp, grownKey ref = key ref) (ref : ρ) (value : Word) :
    Function.update live wp (some addr) ref = some value ↔
      ref ∈ grown ∧ grownKey ref = value := by
  by_cases here : ref = wp
  · subst here
    simp [grown_iff, key_wp]
  · rw [Function.update_of_ne here, live_iff, grown_iff, key_eq ref here]
    simp [here]

/-- A new node at a fitting null link extends the tree. -/
theorem Holds.plant {live : ρ → Option Word} (holds : tree.Holds live shape) {wp upper : ρ}
    {branch : Branch} {watchpoint : Watchpoint κ γ} {addr : Word} (fresh : wp ∉ tree.allocated)
    (fits : Slot.Fits tree addr shape (.vacant upper branch)) :
    ((tree.allocate wp (.alloc watchpoint addr (some upper))).setLink upper branch
      (some wp)).Holds (Function.update live wp (some addr))
        (shape.graft upper branch (sprout wp)) := by
  obtain ⟨⟨below, has, empty⟩, admits⟩ := fits
  let allocated := tree.allocate wp (.alloc watchpoint addr (some upper))
  have wp_notMem : wp ∉ shape := fun wp_mem => fresh (holds.allocated wp wp_mem)
  have upper_ne : wp ≠ upper := by
    rintro rfl
    exact wp_notMem has.mem
  have nodes_wp : allocated.nodes wp = .alloc watchpoint addr (some upper) :=
    Function.update_self ..
  have nodes_other : ∀ ref ≠ wp, allocated.nodes ref = tree.nodes ref := fun ref ref_ne =>
    Function.update_of_ne ref_ne ..
  have key_wp : allocated.key wp = addr := by rw [key, nodes_wp]; rfl
  have key_other : ∀ ref ≠ wp, allocated.key ref = tree.key ref := fun ref ref_ne => by
    rw [key, nodes_other ref ref_ne]; rfl
  have outside : ∀ ref ∈ shape, ref ≠ wp := by
    rintro ref ref_mem rfl
    exact wp_notMem ref_mem
  have grown_iff : ∀ ref, ref ∈ shape.graft upper branch (sprout wp) ↔
      ref ∈ shape ∨ ref = wp := fun ref => by
    rw [mem_graft holds.distinct has, mem_sprout, empty]
    simp
  refine ⟨?_, ?_, ?_, ?_, ?_⟩
  · refine holds.represents.graft holds.distinct has (fun ref ref_mem _ => ⟨?_, ?_⟩) ?_
    · rw [parent_setLink]
      exact congrArg WatchpointAddr.parent (nodes_other ref (outside ref ref_mem))
    · intro way elsewhere
      rw [link_setLink, if_neg elsewhere]
      exact congrArg (fun node => WatchpointAddr.link node way)
        (nodes_other ref (outside ref ref_mem))
    · rw [link_setLink, if_pos ⟨rfl, rfl⟩]
      refine ⟨rfl, ?_, fun way => ?_⟩
      · rw [parent_setLink]
        exact congrArg WatchpointAddr.parent nodes_wp
      · rw [link_setLink, if_neg fun same => upper_ne same.1]
        change (allocated.nodes wp).link way = none
        rw [nodes_wp]
        cases way <;> rfl
  · refine distinct_graft holds.distinct has (sprout_distinct wp) fun ref ref_mem shape_mem => ?_
    obtain rfl := mem_sprout.mp ref_mem
    exact absurd shape_mem wp_notMem
  · rw [key_setLink]
    refine ordered_graft holds.distinct has
      (holds.ordered.congr fun ref ref_mem => key_other ref (outside ref ref_mem))
      (sprout_ordered wp _ _) fun ref ref_mem => ?_
    obtain rfl := mem_sprout.mp ref_mem
    rw [key_wp]
    exact admits.congr fun other other_mem => key_other other (outside other other_mem)
  · rw [key_setLink]
    exact live_insert holds.live_iff grown_iff key_wp key_other
  · intro ref ref_mem
    rcases (grown_iff ref).mp ref_mem with old | rfl
    · exact Finset.mem_insert_of_mem (holds.allocated ref old)
    · exact Finset.mem_insert_self ..

end Plant

/-- The first node makes a tree of its own. -/
theorem Holds.plantRoot [DecidableEq ρ] {live : ρ → Option Word} (holds : tree.Holds live leaf)
    (watchpoint : Watchpoint κ γ) (addr : Word) (wp : ρ) :
    ({ tree.allocate wp (.alloc watchpoint addr none) with addresses := some wp } :
      AddressTree ρ κ γ).Holds (Function.update live wp (some addr)) (sprout wp) := by
  let allocated := tree.allocate wp (.alloc watchpoint addr none)
  have nodes_wp : allocated.nodes wp = .alloc watchpoint addr none := Function.update_self ..
  refine ⟨⟨rfl, ?_, fun way => ?_⟩, sprout_distinct wp, sprout_ordered wp _ _, ?_, ?_⟩
  · exact congrArg WatchpointAddr.parent nodes_wp
  · change (allocated.nodes wp).link way = none
    rw [nodes_wp]
    cases way <;> rfl
  · refine live_insert holds.live_iff (by simp [mem_sprout]) ?_ fun ref ref_ne => ?_
    · exact congrArg WatchpointAddr.addr nodes_wp
    · exact congrArg WatchpointAddr.addr (Function.update_of_ne ref_ne ..)
  · intro ref ref_mem
    obtain rfl := mem_sprout.mp ref_mem
    exact Finset.mem_insert_self ..

/-- A change of a node that keeps its address and its links. -/
theorem Holds.rebase [DecidableEq ρ] {live : ρ → Option Word} (holds : tree.Holds live shape)
    (wp : ρ) (base : WatchpointAddr ρ κ γ → Watchpoint κ γ) :
    (tree.modify wp fun node => { node with base := base node }).Holds live shape := by
  have nodes_eq : ∀ ref, (tree.modify wp fun node => { node with base := base node }).nodes ref =
      { tree.nodes ref with
        base :=
          ((tree.modify wp fun node => { node with base := base node }).nodes ref).base } := by
    intro ref
    by_cases here : ref = wp
    · subst here
      simp [modify]
    · simp [modify, here]
  have links_eq : (tree.modify wp fun node => { node with base := base node }).links =
      tree.links := by
    unfold links
    congr
    · funext ref way
      rw [nodes_eq ref]
      cases way <;> rfl
    · funext ref
      rw [nodes_eq ref]
  have key_eq : (tree.modify wp fun node => { node with base := base node }).key = tree.key := by
    funext ref
    rw [key, nodes_eq ref]
    rfl
  exact ⟨links_eq ▸ holds.represents, holds.distinct, key_eq ▸ holds.ordered,
    key_eq ▸ holds.live_iff, holds.allocated⟩

/-- The live watchpoints after a registration has returned. -/
def registered [DecidableEq ρ] (live : ρ → Option Word) (addr : Word) :
    Option ρ → ρ → Option Word
  | some wp => Function.update live wp (some addr)
  | none => live

/-- Registration ends, on a tree that holds the watchpoint it returns besides the others. -/
theorem Holds.register [DecidableEq ρ] [DecidableEq κ] {live : ρ → Option Word}
    (holds : tree.Holds live shape) (watchpoint : Watchpoint κ γ) (addr : Word)
    {allocated : Option ρ} (fresh : ∀ wp ∈ allocated, wp ∉ tree.allocated) :
    ∃ after wp, tree.register watchpoint addr allocated = some (after, wp) ∧
      ∃ grown, after.Holds (registered live addr wp) grown := by
  cases root_eq : tree.addresses with
  | none =>
      obtain rfl := (root_eq ▸ holds.represents).eq_leaf
      cases allocated with
      | none => exact ⟨tree, none, by rw [AddressTree.register, root_eq], leaf, holds⟩
      | some wp =>
          exact ⟨_, some wp, by rw [AddressTree.register, root_eq], _,
            holds.plantRoot watchpoint addr wp⟩
  | some root =>
      obtain ⟨slot, slot_eq, fits⟩ := treeSlot_spec watchpoint.callbackFn addr
        (root_eq ▸ holds.represents) holds.ordered holds.height
      have outcome : ∀ result, tree.registerAt watchpoint addr allocated slot = result →
          tree.register watchpoint addr allocated = some result := by
        rintro result rfl
        simp only [AddressTree.register, root_eq, slot_eq, Option.map_some]
      cases slot with
      | vacant upper branch =>
          cases allocated with
          | none => exact ⟨tree, none, outcome _ rfl, shape, holds⟩
          | some wp => exact ⟨_, some wp, outcome _ rfl, _, holds.plant (fresh wp rfl) fits⟩
      | existing wp =>
          refine ⟨_, some wp, outcome _ rfl, shape, ?_⟩
          have live_wp : live wp = some addr := (holds.live_iff wp addr).mpr fits
          rw [registered, ← live_wp, Function.update_eq_self]
          exact holds.rebase wp _

end Register

end AddressTree
end System6502
