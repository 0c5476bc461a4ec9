import System6502.Membus.SearchTree

/-!
# Removal of address watchpoints

What `__membus_watchpoint_addr_unregister` makes of the search tree.  A removed node is replaced
by its first child or its only subtree; the two cases in which the links it leaves behind no
longer form a tree are told apart from the others.
-/

namespace System6502

open Lib Lib.LinkedTree

namespace AddressTree

variable {ρ κ γ : Type*} [DecidableEq ρ] {tree : AddressTree ρ κ γ} {wp : ρ}
  {below : Branch → LinkedTree ρ Branch} {above : Option ρ}

/-! ## Replacing a node -/

/-- A tree that takes the place of a node and its branches, with the nodes outside untouched. -/
structure Replaces (tree : AddressTree ρ κ γ) (wp : ρ) (below : Branch → LinkedTree ρ Branch)
    (after : AddressTree ρ κ γ) (heir : Option ρ) (scion : LinkedTree ρ Branch) : Prop where
  /-- The tree hangs from its new root under any parent. -/
  represents : ∀ above, scion.Represents (after.setParent heir above).links above heir
  /-- No node occurs twice. -/
  distinct : scion.Distinct
  /-- The addresses are in search order. -/
  ordered : scion.Ordered Branch.Order tree.key
  /-- Only the replaced node is missing. -/
  mem_iff : ∀ ref, ref ∈ scion ↔ ref ∈ node wp below ∧ ref ≠ wp
  /-- Links of other nodes are as before. -/
  link_eq : ∀ ref, ref ∉ node wp below → after.links.link ref = tree.links.link ref
  /-- Parents of other nodes are as before. -/
  parent_eq : ∀ ref, ref ∉ node wp below → after.links.parent ref = tree.links.parent ref
  /-- Addresses are as before. -/
  key_eq : after.key = tree.key
  /-- The allocated nodes are as before. -/
  allocated_eq : after.allocated = tree.allocated
  /-- The root pointer is as before. -/
  addresses_eq : after.addresses = tree.addresses

/-- The only subtree of a node may take its place. -/
theorem replaces_of_only {side : Branch}
    (represents : (node wp below).Represents tree.links above (some wp))
    (distinct : (node wp below).Distinct) (ordered : (node wp below).Ordered Branch.Order tree.key)
    (only : ∀ other ≠ side, below other = leaf) :
    tree.Replaces wp below tree (tree.links.link wp side) (below side) where
  represents upper := by
    refine (represents.2.2 side).reparent (distinct.2.2 side) (fun _ _ => ?_)
      (fun ref _ other => ?_) fun top top_eq => ?_
    · rw [link_setParent]
    · rw [parent_setParent, if_neg other]
    · rw [parent_setParent, if_pos top_eq]
  distinct := distinct.2.2 side
  ordered := (ordered side).2
  mem_iff ref := by
    constructor
    · intro ref_mem
      refine ⟨.inr ⟨side, ref_mem⟩, ?_⟩
      rintro rfl
      exact distinct.1 side ref_mem
    · rintro ⟨rfl | ⟨other, ref_mem⟩, ref_ne⟩
      · exact absurd rfl ref_ne
      · by_cases here : other = side
        · exact here ▸ ref_mem
        · rw [only other here] at ref_mem
          exact ref_mem.elim
  link_eq _ _ := rfl
  parent_eq _ _ := rfl
  key_eq := rfl
  allocated_eq := rfl
  addresses_eq := rfl

theorem link_adopt_adopt (tree : AddressTree ρ κ γ) {heir former : ρ} (ne : former ≠ heir)
    (ref : ρ) (side : Branch) :
    ((tree.adopt .left heir former).adopt .right heir former).links.link ref side =
      if ref = heir ∧ side ≠ .child then tree.links.link former side
      else tree.links.link ref side := by
  by_cases here : ref = heir <;> cases side <;> simp [here, ne]

theorem parent_adopt_adopt (tree : AddressTree ρ κ γ) {heir former ref : ρ} {side : Branch}
    (ne : former ≠ heir) (notChild : side ≠ .child)
    (adopted : tree.links.link former side = some ref) :
    ((tree.adopt .left heir former).adopt .right heir former).links.parent ref = some heir := by
  have right_eq : (tree.adopt .left heir former).links.link former .right =
      tree.links.link former .right := by
    rw [link_adopt, if_neg fun same => ne same.1]
  rw [parent_adopt, parent_adopt, right_eq]
  cases side with
  | child => exact absurd rfl notChild
  | left => rw [if_pos adopted, ite_self]
  | right => rw [if_pos adopted]

theorem parent_adopt_adopt_of_ne (tree : AddressTree ρ κ γ) {heir former ref : ρ}
    (ne : former ≠ heir)
    (others : ∀ side ≠ Branch.child, tree.links.link former side ≠ some ref) :
    ((tree.adopt .left heir former).adopt .right heir former).links.parent ref =
      tree.links.parent ref := by
  have right_eq : (tree.adopt .left heir former).links.link former .right =
      tree.links.link former .right := by
    rw [link_adopt, if_neg fun same => ne same.1]
  rw [parent_adopt, parent_adopt, right_eq, if_neg (others .right (by decide)),
    if_neg (others .left (by decide))]

/-- The branches of the first child of a node, after it has taken over those of the node. -/
def promotedBranch (below under : Branch → LinkedTree ρ Branch) (side : Branch) :
    LinkedTree ρ Branch :=
  if side = .child then under .child else below side

section Promotion

variable {child : ρ} {under : Branch → LinkedTree ρ Branch}

omit [DecidableEq ρ] in
theorem child_mem (child_eq : below .child = node child under) : child ∈ below .child := by
  rw [child_eq]
  exact .inl rfl

omit [DecidableEq ρ] in
theorem child_ne (distinct : (node wp below).Distinct)
    (child_eq : below .child = node child under) : wp ≠ child := by
  rintro rfl
  exact distinct.1 .child (child_mem child_eq)

omit [DecidableEq ρ] in
theorem hasNode_child (child_eq : below .child = node child under) :
    (below .child).HasNode child under := by
  rw [child_eq]
  exact .inl ⟨rfl, rfl⟩

omit [DecidableEq ρ] in
theorem mem_of_mem_promotedBranch (child_eq : below .child = node child under) {side : Branch}
    {ref : ρ} (ref_mem : ref ∈ promotedBranch below under side) : ref ∈ below side := by
  rw [promotedBranch] at ref_mem
  split at ref_mem
  case isTrue isChild => exact isChild ▸ (hasNode_child child_eq).mem_of_mem ref_mem
  case isFalse => exact ref_mem

omit [DecidableEq ρ] in
theorem promoted_distinct (distinct : (node wp below).Distinct)
    (child_eq : below .child = node child under) :
    (node child (promotedBranch below under)).Distinct := by
  have chain_distinct : (node child under).Distinct := child_eq ▸ distinct.2.2 .child
  refine ⟨fun side child_side => ?_, fun one other ref one_mem other_mem => ?_, fun side => ?_⟩
  · by_cases isChild : side = .child
    · subst isChild
      exact chain_distinct.1 .child child_side
    · rw [promotedBranch, if_neg isChild] at child_side
      exact isChild (distinct.2.1 side .child child child_side (child_mem child_eq))
  · exact distinct.2.1 one other ref (mem_of_mem_promotedBranch child_eq one_mem)
      (mem_of_mem_promotedBranch child_eq other_mem)
  · rw [promotedBranch]
    split
    case isTrue => exact chain_distinct.2.2 .child
    case isFalse => exact distinct.2.2 side

omit [DecidableEq ρ] in
theorem promoted_ordered (ordered : (node wp below).Ordered Branch.Order tree.key)
    (child_eq : below .child = node child under) :
    (node child (promotedBranch below under)).Ordered Branch.Order tree.key := by
  intro side
  have key_eq : tree.key child = tree.key wp := (ordered .child).1 child (child_mem child_eq)
  refine ⟨fun ref ref_mem => ?_, ?_⟩
  · rw [key_eq]
    exact (ordered side).1 ref (mem_of_mem_promotedBranch child_eq ref_mem)
  · rw [promotedBranch]
    split
    case isTrue => exact ((ordered .child).2.hasNode (hasNode_child child_eq) .child).2
    case isFalse => exact (ordered side).2

omit [DecidableEq ρ] in
/-- Only the replaced node is missing after the promotion. -/
theorem mem_promoted_iff (distinct : (node wp below).Distinct)
    (ordered : (node wp below).Ordered Branch.Order tree.key)
    (child_eq : below .child = node child under) (ref : ρ) :
    ref ∈ node child (promotedBranch below under) ↔ ref ∈ node wp below ∧ ref ≠ wp := by
  constructor
  · rintro (rfl | ⟨side, ref_mem⟩)
    · exact ⟨.inr ⟨.child, child_mem child_eq⟩, (child_ne distinct child_eq).symm⟩
    · have below_mem := mem_of_mem_promotedBranch child_eq ref_mem
      refine ⟨.inr ⟨side, below_mem⟩, ?_⟩
      rintro rfl
      exact distinct.1 side below_mem
  · rintro ⟨rfl | ⟨side, ref_mem⟩, ref_ne⟩
    · exact absurd rfl ref_ne
    by_cases isChild : side = .child
    · subst isChild
      rw [child_eq] at ref_mem
      rcases ref_mem with rfl | ⟨way, way_mem⟩
      · exact .inl rfl
      · by_cases wayChild : way = .child
        · refine .inr ⟨.child, ?_⟩
          rw [promotedBranch, if_pos rfl]
          exact wayChild ▸ way_mem
        · exact absurd way_mem (chain_notMem ordered (hasNode_child child_eq) wayChild ref)
    · refine .inr ⟨side, ?_⟩
      rwa [promotedBranch, if_neg isChild]

/-- A node that is on neither side of the replaced one keeps its parent. -/
theorem promoted_parent_eq (represents : (node wp below).Represents tree.links above (some wp))
    (child_ne : wp ≠ child) {ref : ρ} (not_left : ref ∉ below .left)
    (not_right : ref ∉ below .right) :
    ((tree.adopt .left child wp).adopt .right child wp).links.parent ref =
      tree.links.parent ref := by
  have head_mem : ∀ side, tree.links.link wp side = some ref → ref ∈ below side :=
    fun side ref_eq => (ref_eq ▸ represents.2.2 side).mem_top
  refine parent_adopt_adopt_of_ne tree child_ne fun side notChild link_eq => ?_
  cases side with
  | child => exact absurd rfl notChild
  | left => exact not_left (head_mem _ link_eq)
  | right => exact not_right (head_mem _ link_eq)

/-- The tree hangs from the promoted child under any parent. -/
theorem promoted_represents (represents : (node wp below).Represents tree.links above (some wp))
    (distinct : (node wp below).Distinct) (child_eq : below .child = node child under)
    (upper : Option ρ) :
    (node child (promotedBranch below under)).Represents
      (((tree.adopt .left child wp).adopt .right child wp).setParent (some child) upper).links
      upper (some child) := by
  have child_ne := child_ne distinct child_eq
  have chain_has := hasNode_child child_eq
  have apart : ∀ one other ref, ref ∈ below one → ref ∈ below other → one = other := distinct.2.1
  have head_mem : ∀ side ref, tree.links.link wp side = some ref → ref ∈ below side :=
    fun side ref ref_eq => (ref_eq ▸ represents.2.2 side).mem_top
  refine ⟨rfl, ?_, fun side => ?_⟩
  · rw [parent_setParent, if_pos rfl]
  rw [link_setParent, link_adopt_adopt tree child_ne]
  by_cases isChild : side = .child
  · subst isChild
    rw [if_neg fun same => same.2 rfl, promotedBranch, if_pos rfl]
    refine (represents.hasNode (.inr ⟨.child, chain_has⟩) |>.2.2 .child).congr ?_
    intro ref ref_mem
    have ref_chain : ref ∈ below .child := chain_has.mem_of_mem ref_mem
    have ref_ne : ref ≠ child := by
      rintro rfl
      have chain_distinct : (node ref under).Distinct := child_eq ▸ distinct.2.2 .child
      exact chain_distinct.1 .child ref_mem
    refine ⟨funext fun way => ?_, ?_⟩
    · rw [link_setParent, link_adopt_adopt tree child_ne, if_neg fun same => ref_ne same.1]
    · rw [parent_setParent, if_neg fun eq => ref_ne (Option.some.inj eq).symm]
      refine promoted_parent_eq represents child_ne (fun mem => ?_) fun mem => ?_
      · cases apart _ _ ref mem ref_chain
      · cases apart _ _ ref mem ref_chain
  · rw [if_pos ⟨rfl, isChild⟩, promotedBranch, if_neg isChild]
    have ref_ne : ∀ ref ∈ below side, ref ≠ child := by
      rintro ref ref_mem rfl
      exact isChild (apart side .child ref ref_mem (child_mem child_eq))
    refine (represents.2.2 side).reparent (distinct.2.2 side)
      (fun ref ref_mem => funext fun way => ?_) (fun ref ref_mem other => ?_) fun top top_eq => ?_
    · rw [link_setParent, link_adopt_adopt tree child_ne,
        if_neg fun same => ref_ne ref ref_mem same.1]
    · rw [parent_setParent, if_neg fun eq => ref_ne ref ref_mem (Option.some.inj eq).symm]
      refine parent_adopt_adopt_of_ne tree child_ne fun way _ link_eq => ?_
      obtain rfl := apart way side ref (head_mem way ref link_eq) ref_mem
      exact other link_eq
    · have top_mem := head_mem side top top_eq
      rw [parent_setParent, if_neg fun eq => ref_ne top top_mem (Option.some.inj eq).symm]
      exact parent_adopt_adopt tree child_ne isChild top_eq

/-- The first child of a node may take its place. -/
theorem replaces_of_child
    (represents : (node wp below).Represents tree.links above (some wp))
    (distinct : (node wp below).Distinct) (ordered : (node wp below).Ordered Branch.Order tree.key)
    (child_eq : below .child = node child under) :
    tree.Replaces wp below ((tree.adopt .left child wp).adopt .right child wp) (some child)
      (node child (promotedBranch below under)) where
  represents := promoted_represents represents distinct child_eq
  distinct := promoted_distinct distinct child_eq
  ordered := promoted_ordered ordered child_eq
  mem_iff := mem_promoted_iff distinct ordered child_eq
  link_eq ref ref_notMem := by
    have child_ne := child_ne distinct child_eq
    have ref_ne : ref ≠ child := by
      rintro rfl
      exact ref_notMem (.inr ⟨.child, child_mem child_eq⟩)
    funext way
    rw [link_adopt_adopt tree child_ne, if_neg fun same => ref_ne same.1]
  parent_eq ref ref_notMem := by
    have child_ne := child_ne distinct child_eq
    exact promoted_parent_eq represents child_ne (fun mem => ref_notMem (.inr ⟨_, mem⟩))
      fun mem => ref_notMem (.inr ⟨_, mem⟩)
  key_eq := by rw [key_adopt, key_adopt]
  allocated_eq := by rw [allocated_adopt, allocated_adopt]
  addresses_eq := by rw [addresses_adopt, addresses_adopt]

end Promotion

/-- Removal takes both subtrees of a node apart, when it has no child to promote. -/
def Splits (tree : AddressTree ρ κ γ) (wp : ρ) : Prop :=
  (tree.nodes wp).child = none ∧ (tree.nodes wp).left ≠ none ∧ (tree.nodes wp).right ≠ none

/-- Removal takes a watchpoint out of the middle of a chain. -/
def Skips (tree : AddressTree ρ κ γ) (wp : ρ) : Prop :=
  (∃ parent ∈ (tree.nodes wp).parent, (tree.nodes parent).child = some wp) ∧
    (tree.nodes wp).child ≠ none

instance (tree : AddressTree ρ κ γ) (wp : ρ) : Decidable (tree.Splits wp) :=
  inferInstanceAs (Decidable (_ ∧ _ ∧ _))

instance (tree : AddressTree ρ κ γ) (wp : ρ) : Decidable (tree.Skips wp) :=
  inferInstanceAs (Decidable (_ ∧ _))

theorem replacement_spec {near far : Branch}
    (sides : (near = .left ∧ far = .right) ∨ (near = .right ∧ far = .left))
    (represents : (node wp below).Represents tree.links above (some wp))
    (distinct : (node wp below).Distinct) (ordered : (node wp below).Ordered Branch.Order tree.key)
    (keeps : ¬ tree.Splits wp) :
    ∃ after heir scion, tree.replacement near far wp = some (after, heir) ∧
      tree.Replaces wp below after heir scion := by
  cases child_eq : (tree.nodes wp).child with
  | some child =>
      have child_represents := represents.2.2 .child
      rw [show tree.links.link wp .child = some child from child_eq] at child_represents
      obtain ⟨under, below_eq⟩ := child_represents.eq_node
      refine ⟨_, _, _, ?_, replaces_of_child represents distinct ordered below_eq⟩
      rw [replacement, child_eq]
  | none =>
      have child_leaf : below .child = leaf := by
        have child_represents := represents.2.2 .child
        rw [show tree.links.link wp .child = none from child_eq] at child_represents
        exact child_represents.eq_leaf
      have leaf_of : ∀ side, tree.links.link wp side = none → below side = leaf :=
        fun side none_eq => (none_eq ▸ represents.2.2 side).eq_leaf
      have others : ∀ one other : Branch, tree.links.link wp other = none →
          ((one = .left ∧ other = .right) ∨ (one = .right ∧ other = .left)) →
          ∀ side ≠ one, below side = leaf := by
        rintro one other none_eq (⟨rfl, rfl⟩ | ⟨rfl, rfl⟩) side side_ne <;> cases side
        all_goals first | exact absurd rfl side_ne | exact child_leaf | exact leaf_of _ none_eq
      cases near_eq : (tree.nodes wp).link near with
      | none =>
          refine ⟨tree, tree.links.link wp far, _, ?_,
            replaces_of_only represents distinct ordered (others far near near_eq ?_)⟩
          · rw [replacement, child_eq]
            simp only [near_eq]
            rfl
          · tauto
      | some first =>
          cases far_eq : (tree.nodes wp).link far with
          | none =>
              refine ⟨tree, tree.links.link wp near, _, ?_,
                replaces_of_only represents distinct ordered (others near far far_eq sides)⟩
              rw [replacement, child_eq]
              simp only [near_eq, far_eq]
              exact congrArg (fun heir => some (tree, heir)) near_eq.symm
          | some second =>
              have near_ne : (tree.nodes wp).link near ≠ none := by simp [near_eq]
              have far_ne : (tree.nodes wp).link far ≠ none := by simp [far_eq]
              refine absurd ⟨child_eq, ?_⟩ keeps
              rcases sides with ⟨rfl, rfl⟩ | ⟨rfl, rfl⟩
              · exact ⟨near_ne, far_ne⟩
              · exact ⟨far_ne, near_ne⟩

/-! ## Removal from the tree -/

section Removal

variable {live : ρ → Option Word} {shape : LinkedTree ρ Branch}

theorem Holds.removed {after : AddressTree ρ κ γ} {pruned : LinkedTree ρ Branch}
    (holds : tree.Holds live shape)
    (represents : pruned.Represents after.links none after.addresses) (distinct : pruned.Distinct)
    (ordered : pruned.Ordered Branch.Order tree.key)
    (mem_iff : ∀ ref, ref ∈ pruned ↔ ref ∈ shape ∧ ref ≠ wp) (key_eq : after.key = tree.key)
    (allocated_eq : after.allocated = tree.allocated.erase wp) :
    after.Holds (Function.update live wp none) pruned where
  represents := represents
  distinct := distinct
  ordered := key_eq ▸ ordered
  live_iff ref addr := by
    rw [mem_iff, key_eq]
    by_cases here : ref = wp
    · subst here
      simp
    · rw [Function.update_of_ne here, holds.live_iff]
      simp [here]
  allocated ref ref_mem := by
    obtain ⟨shape_mem, ref_ne⟩ := (mem_iff ref).mp ref_mem
    rw [allocated_eq]
    exact Finset.mem_erase.mpr ⟨ref_ne, holds.allocated ref shape_mem⟩

/-- Putting a replacement in the place of the root. -/
theorem Holds.replaceRoot (holds : tree.Holds live (node wp below)) {after : AddressTree ρ κ γ}
    {heir : Option ρ} {scion : LinkedTree ρ Branch}
    (replaces : tree.Replaces wp below after heir scion) :
    (({ after.setParent heir none with addresses := heir } : AddressTree ρ κ γ).free wp).Holds
      (Function.update live wp none) scion := by
  refine holds.removed (replaces.represents none) replaces.distinct replaces.ordered
    replaces.mem_iff ?_ ?_
  · exact (key_setParent after heir none).trans replaces.key_eq
  · change (after.setParent heir none).allocated.erase wp = _
    rw [allocated_setParent, replaces.allocated_eq]

/-- Putting a replacement in the place of a branch. -/
theorem Holds.replaceBranch (holds : tree.Holds live shape) {after : AddressTree ρ κ γ}
    {heir : Option ρ} {scion : LinkedTree ρ Branch} {upper : ρ} {side : Branch}
    {beside : Branch → LinkedTree ρ Branch} (has : shape.HasNode upper beside)
    (beside_eq : beside side = node wp below)
    (replaces : tree.Replaces wp below after heir scion) :
    (((after.setParent heir (some upper)).setLink upper side heir).free wp).Holds
      (Function.update live wp none) (shape.graft upper side scion) := by
  have upper_notMem : upper ∉ node wp below := by
    rw [← beside_eq]
    exact (has.distinct holds.distinct).1 side
  have heir_mem : ∀ ref, heir = some ref → ref ∈ scion := by
    rintro ref rfl
    exact (replaces.represents none).mem_top
  have wp_mem : wp ∈ shape := has.mem_of_mem (beside_eq ▸ .inl rfl : wp ∈ beside side)
  have below_mem : ∀ ref ∈ node wp below, ref ∈ shape := fun ref ref_mem =>
    has.mem_of_mem (beside_eq ▸ ref_mem : ref ∈ beside side)
  refine holds.removed ?_ ?_ ?_ (fun ref => ?_) ?_ ?_
  · change LinkedTree.Represents ((after.setParent heir (some upper)).setLink upper side heir).links
      none (after.setParent heir (some upper)).addresses _
    rw [addresses_setParent, replaces.addresses_eq]
    refine holds.represents.graft holds.distinct has (fun ref ref_mem outside => ?_) ?_
    · rw [beside_eq] at outside
      refine ⟨?_, fun way elsewhere => ?_⟩
      · rw [parent_setLink, parent_setParent, if_neg, replaces.parent_eq ref outside]
        exact fun heir_eq => outside ((replaces.mem_iff ref).mp (heir_mem ref heir_eq)).1
      · rw [link_setLink, if_neg elsewhere, link_setParent, replaces.link_eq ref outside]
    · rw [link_setLink, if_pos ⟨rfl, rfl⟩]
      refine (replaces.represents (some upper)).congr fun ref ref_mem => ⟨funext fun way => ?_, ?_⟩
      · rw [link_setLink, if_neg]
        rintro ⟨rfl, -⟩
        exact upper_notMem ((replaces.mem_iff ref).mp ref_mem).1
      · rw [parent_setLink]
  · refine distinct_graft holds.distinct has replaces.distinct fun ref ref_mem _ => ?_
    rw [beside_eq]
    exact ((replaces.mem_iff ref).mp ref_mem).1
  · refine ordered_graft holds.distinct has holds.ordered replaces.ordered fun ref ref_mem => ?_
    refine holds.ordered.admits has ?_
    rw [beside_eq]
    exact ((replaces.mem_iff ref).mp ref_mem).1
  · rw [mem_graft holds.distinct has, beside_eq, replaces.mem_iff]
    constructor
    · rintro (⟨ref_mem, outside⟩ | ⟨ref_mem, ref_ne⟩)
      · exact ⟨ref_mem, fun eq => outside (.inl eq)⟩
      · exact ⟨below_mem ref ref_mem, ref_ne⟩
    · rintro ⟨ref_mem, ref_ne⟩
      by_cases inside : ref ∈ node wp below
      · exact .inr ⟨inside, ref_ne⟩
      · exact .inl ⟨ref_mem, inside⟩
  · change ((after.setParent heir (some upper)).setLink upper side heir).key = _
    rw [key_setLink, key_setParent, replaces.key_eq]
  · change (after.setParent heir (some upper)).allocated.erase wp = _
    rw [allocated_setParent, replaces.allocated_eq]

omit [DecidableEq ρ] in
/-- Only one link of a node leads to another. -/
theorem Holds.side_unique (holds : tree.Holds live shape) {upper : ρ} {side other : Branch}
    {beside : Branch → LinkedTree ρ Branch} (has : shape.HasNode upper beside)
    (beside_eq : beside side = node wp below) (other_ne : other ≠ side) :
    (tree.nodes upper).link other ≠ some wp := by
  intro other_eq
  have under := (holds.represents.hasNode has).2.2 other
  rw [show tree.links.link upper other = some wp from other_eq] at under
  refine other_ne ((has.distinct holds.distinct).2.1 other side wp under.mem_top ?_)
  rw [beside_eq]
  exact .inl rfl

theorem Holds.unregister_root (holds : tree.Holds live (node wp below))
    (parent_eq : (tree.nodes wp).parent = none)
    (represents : (node wp below).Represents tree.links none (some wp))
    (splits : ¬ tree.Splits wp) :
    ∃ after, tree.unregister wp = some after ∧
      ∃ pruned, after.Holds (Function.update live wp none) pruned := by
  obtain ⟨after, heir, scion, outcome, replaces⟩ :=
    replacement_spec (.inl ⟨rfl, rfl⟩) represents holds.distinct holds.ordered splits
  refine ⟨_, ?_, scion, holds.replaceRoot replaces⟩
  simp only [unregister, parent_eq, outcome, Option.map_some]

/-- The side on which a node hangs, as `__membus_watchpoint_addr_unregister` finds it. -/
theorem Holds.unregister_branch (holds : tree.Holds live shape) {upper : ρ} {side : Branch}
    {beside : Branch → LinkedTree ρ Branch} (has : shape.HasNode upper beside)
    (beside_eq : beside side = node wp below) (parent_eq : (tree.nodes wp).parent = some upper)
    (link_eq : tree.links.link upper side = some wp) (splits : ¬ tree.Splits wp)
    (skips : ¬ tree.Skips wp) :
    ∃ after, tree.unregister wp = some after ∧
      ∃ pruned, after.Holds (Function.update live wp none) pruned := by
  have has_wp : (beside side).HasNode wp below := by
    rw [beside_eq]
    exact .inl ⟨rfl, rfl⟩
  have upper_represents := holds.represents.hasNode has
  have distinct := has.distinct holds.distinct
  have wp_represents : (node wp below).Represents tree.links (some upper) (some wp) := by
    have under := upper_represents.2.2 side
    rwa [link_eq, beside_eq] at under
  have wp_distinct : (node wp below).Distinct := has_wp.distinct (distinct.2.2 side)
  have upper_ordered := holds.ordered.hasNode has
  have wp_ordered : (node wp below).Ordered Branch.Order tree.key :=
    (upper_ordered side).2.hasNode has_wp
  have tested : ∀ other, other ≠ side → (tree.nodes upper).link other ≠ some wp :=
    fun other other_ne => holds.side_unique has beside_eq other_ne
  cases side with
  | child =>
      have child_eq : (tree.nodes wp).child = none := by
        by_contra child_ne
        exact skips ⟨⟨upper, parent_eq, link_eq⟩, child_ne⟩
      have child_leaf : below .child = leaf := by
        have under := wp_represents.2.2 .child
        rw [show tree.links.link wp .child = none from child_eq] at under
        exact under.eq_leaf
      have only : ∀ other ≠ Branch.child, below other = leaf := fun other notChild => by
        cases other_eq : below other with
        | leaf => rfl
        | node top branch =>
            refine absurd ?_ (chain_notMem upper_ordered has_wp notChild top)
            rw [other_eq]
            exact .inl rfl
      have replaces := replaces_of_only wp_represents wp_distinct wp_ordered only
      rw [show tree.links.link wp .child = none from child_eq] at replaces
      refine ⟨_, ?_, _, holds.replaceBranch has beside_eq replaces⟩
      have link_child : (tree.nodes upper).child = some wp := link_eq
      simp only [unregister, parent_eq, link_child, if_true, child_eq]
      rfl
  | left =>
      obtain ⟨after, heir, scion, outcome, replaces⟩ :=
        replacement_spec (.inl ⟨rfl, rfl⟩) wp_represents wp_distinct wp_ordered splits
      refine ⟨_, ?_, _, holds.replaceBranch has beside_eq replaces⟩
      have not_child : (tree.nodes upper).child ≠ some wp := tested .child (by decide)
      have is_left : (tree.nodes upper).left = some wp := link_eq
      simp only [unregister, parent_eq, if_neg not_child, is_left, if_true, outcome,
        Option.map_some]
  | right =>
      obtain ⟨after, heir, scion, outcome, replaces⟩ :=
        replacement_spec (.inr ⟨rfl, rfl⟩) wp_represents wp_distinct wp_ordered splits
      refine ⟨_, ?_, _, holds.replaceBranch has beside_eq replaces⟩
      have not_child : (tree.nodes upper).child ≠ some wp := tested .child (by decide)
      have not_left : (tree.nodes upper).left ≠ some wp := tested .left (by decide)
      simp only [unregister, parent_eq, if_neg not_child, if_neg not_left, outcome,
        Option.map_some]

/-- Removal ends on a tree that holds the other watchpoints, unless it splits or skips. -/
theorem Holds.unregister (holds : tree.Holds live shape) (wp_mem : wp ∈ shape)
    (splits : ¬ tree.Splits wp) (skips : ¬ tree.Skips wp) :
    ∃ after, tree.unregister wp = some after ∧
      ∃ pruned, after.Holds (Function.update live wp none) pruned := by
  obtain ⟨below, has⟩ := mem_iff_hasNode.mp wp_mem
  rcases holds.represents.root_or_branch has with
    ⟨root_eq, parent_eq, rfl⟩ | ⟨upper, beside, side, hasUpper, beside_eq, parent_eq, link_eq⟩
  · exact holds.unregister_root parent_eq (root_eq ▸ holds.represents) splits
  · exact holds.unregister_branch hasUpper beside_eq parent_eq link_eq splits skips

end Removal

/-! ## Removals that break the tree -/

section Broken

variable {live : ρ → Option Word} {shape : LinkedTree ρ Branch}

/-- A node stays reachable when only one of its branches changes. -/
theorem Holds.reaches_upper (holds : tree.Holds live shape) {upper : ρ} (side : Branch)
    {beside : Branch → LinkedTree ρ Branch} (has : shape.HasNode upper beside)
    {after : AddressTree ρ κ γ} (addresses_eq : after.addresses = tree.addresses)
    (kept : ∀ ref ∈ shape, ref ∉ beside side → ∀ way, ¬ (ref = upper ∧ way = side) →
      after.links.link ref way = tree.links.link ref way) :
    after.Reaches upper := by
  let cut : Links ρ Branch :=
    { link := fun ref way => if ref = upper ∧ way = side then none else after.links.link ref way
      parent := tree.links.parent }
  have represents : (shape.graft upper side leaf).Represents cut none tree.addresses := by
    refine holds.represents.graft holds.distinct has (fun ref ref_mem outside => ⟨rfl, ?_⟩) ?_
    · exact fun way elsewhere => (if_neg elsewhere).trans (kept ref ref_mem outside way elsewhere)
    · exact if_pos ⟨rfl, rfl⟩
  have upper_mem : upper ∈ shape.graft upper side leaf :=
    (mem_graft holds.distinct has).mpr (.inl ⟨has.mem, (has.distinct holds.distinct).1 side⟩)
  cases root_eq : tree.addresses with
  | none =>
      rw [root_eq] at represents
      rw [represents.eq_leaf] at upper_mem
      exact upper_mem.elim
  | some root =>
      rw [root_eq] at represents
      have weaker : cut.Follows ≤ after.links.Follows := by
        rintro source target ⟨way, way_eq⟩
        by_cases here : source = upper ∧ way = side
        · rw [show cut.link source way = none from if_pos here] at way_eq
          cases way_eq
        · exact ⟨way, (if_neg here).symm.trans way_eq⟩
      exact ⟨root, addresses_eq.trans root_eq,
        Relation.ReflTransGen.mono weaker _ _ (represents.reaches upper_mem)⟩

/-- Taking a watchpoint out of the middle of a chain leaves a parent link behind. -/
theorem Holds.not_searchTree_of_skips (holds : tree.Holds live shape) (wp_mem : wp ∈ shape)
    (skips : tree.Skips wp) {after : AddressTree ρ κ γ} (outcome : tree.unregister wp = some after)
    (others : ρ → Option Word) : ¬ after.SearchTree others := by
  obtain ⟨⟨upper, parent_eq, upper_child⟩, child_ne⟩ := skips
  obtain ⟨child, child_eq⟩ := Option.ne_none_iff_exists'.mp child_ne
  obtain ⟨below, has⟩ := mem_iff_hasNode.mp wp_mem
  obtain ⟨upper_mem, upper_ne⟩ : upper ∈ shape ∧ upper ≠ wp := by
    rcases holds.represents.root_or_branch has with
      ⟨-, no_parent, -⟩ | ⟨other, beside, side, hasOther, beside_eq, other_eq, -⟩
    · cases no_parent.symm.trans parent_eq
    · obtain rfl : other = upper := Option.some.inj (other_eq.symm.trans parent_eq)
      refine ⟨hasOther.mem, ?_⟩
      rintro rfl
      refine (hasOther.distinct holds.distinct).1 side ?_
      rw [beside_eq]
      exact .inl rfl
  obtain ⟨beside, hasUpper⟩ := mem_iff_hasNode.mp upper_mem
  have outcome_eq : tree.unregister wp =
      some ((tree.setLink upper .child (some child)).free wp) := by
    simp only [AddressTree.unregister, show (tree.nodes wp).parent = some upper from parent_eq,
      upper_child, if_true, child_eq]
  obtain rfl := Option.some.inj (outcome_eq.symm.trans outcome)
  intro searchTree
  have reaches : ((tree.setLink upper .child (some child)).free wp).Reaches upper := by
    refine holds.reaches_upper .child hasUpper rfl fun ref _ _ way elsewhere => ?_
    exact (link_setLink tree upper ref .child way (some child)).trans (if_neg elsewhere)
  have follows : ((tree.setLink upper .child (some child)).free wp).links.Follows upper child :=
    ⟨.child, (link_setLink tree upper upper .child .child (some child)).trans (if_pos ⟨rfl, rfl⟩)⟩
  have child_reaches : ((tree.setLink upper .child (some child)).free wp).Reaches child := by
    obtain ⟨root, root_eq, path⟩ := reaches
    exact ⟨root, root_eq, path.tail follows⟩
  have new_parent := (searchTree.parent_iff child child_reaches upper).mpr ⟨reaches, follows⟩
  have old_parent : tree.links.parent child = some wp :=
    (holds.represents.follow wp_mem ⟨.child, child_eq⟩).2
  rw [← parent_setLink tree upper child .child (some child)] at old_parent
  exact upper_ne (Option.some.inj (new_parent.symm.trans old_parent))

omit [DecidableEq ρ] in
theorem outermost_spec (side : Branch) {fuel : Nat} {top : ρ}
    (represents : shape.Represents tree.links above (some top)) (distinct : shape.Distinct)
    (height : shape.HeightLE fuel) :
    ∃ last, tree.outermost side fuel top = some last ∧ last ∈ shape ∧
      ∀ links : Links ρ Branch, (∀ ref ∈ shape, ref ≠ last →
        links.link ref side = tree.links.link ref side) →
        Relation.ReflTransGen links.Follows top last := by
  induction shape generalizing above top fuel with
  | leaf => cases represents
  | node other below ih =>
      obtain ⟨top_eq, -, under⟩ := represents
      obtain rfl := Option.some.inj top_eq
      obtain ⟨rest, rfl, heights⟩ := height
      cases next_eq : tree.links.link top side with
      | none =>
          have link_none : (tree.nodes top).link side = none := next_eq
          exact ⟨top, by rw [outermost, link_none], .inl rfl, fun _ _ => .refl⟩
      | some next =>
          have link_some : (tree.nodes top).link side = some next := next_eq
          obtain ⟨last, last_eq, last_mem, path⟩ :=
            ih side (next_eq ▸ under side) (distinct.2.2 side) (heights side)
          refine ⟨last, ?_, .inr ⟨side, last_mem⟩, fun links kept => ?_⟩
          · rw [outermost, link_some]
            exact last_eq
          · have top_ne : top ≠ last := by
              rintro rfl
              exact distinct.1 side last_mem
            refine .head ⟨side, (kept top (.inl rfl) top_ne).trans next_eq⟩ ?_
            exact path links fun ref ref_mem => kept ref (.inr ⟨side, ref_mem⟩)

/-- The replacement of a node with two subtrees comes to head a cycle. -/
theorem replacement_of_splits {near far : Branch}
    (sides : (near = .left ∧ far = .right) ∨ (near = .right ∧ far = .left))
    (represents : (node wp below).Represents tree.links above (some wp))
    (distinct : (node wp below).Distinct) (height : (node wp below).HeightLE tree.allocated.card)
    (splits : tree.Splits wp) :
    ∃ after last, tree.replacement near far wp = some (after, some last) ∧
      after.addresses = tree.addresses ∧ last ∈ below far ∧
      (∀ ref ≠ last, after.links.link ref = tree.links.link ref) ∧
      ∀ links : Links ρ Branch, (∀ ref ∈ below far, links.link ref = after.links.link ref) →
        Relation.TransGen links.Follows last last := by
  obtain ⟨child_eq, left_ne, right_ne⟩ := splits
  have near_ne : (tree.nodes wp).link near ≠ none := by
    rcases sides with ⟨rfl, -⟩ | ⟨rfl, -⟩
    · exact left_ne
    · exact right_ne
  have far_ne : (tree.nodes wp).link far ≠ none := by
    rcases sides with ⟨-, rfl⟩ | ⟨-, rfl⟩
    · exact right_ne
    · exact left_ne
  have far_notChild : far ≠ .child := by
    rcases sides with ⟨-, rfl⟩ | ⟨-, rfl⟩ <;> decide
  obtain ⟨first, near_eq⟩ := Option.ne_none_iff_exists'.mp near_ne
  obtain ⟨second, far_eq⟩ := Option.ne_none_iff_exists'.mp far_ne
  have far_represents := represents.2.2 far
  rw [show tree.links.link wp far = some second from far_eq] at far_represents
  obtain ⟨rest, card_eq, heights⟩ := height
  have far_height : (below far).HeightLE tree.allocated.card :=
    (heights far).mono (by omega)
  obtain ⟨last, last_eq, last_mem, path⟩ :=
    outermost_spec far far_represents (distinct.2.2 far) far_height
  have last_ne : wp ≠ last := by
    rintro rfl
    exact distinct.1 far last_mem
  refine ⟨(tree.adopt .left last wp).adopt .right last wp, last, ?_, ?_, last_mem,
    fun ref ref_ne => ?_, fun links kept => ?_⟩
  · rw [replacement, child_eq]
    simp only [near_eq, far_eq, last_eq, Option.map_some]
  · rw [addresses_adopt, addresses_adopt]
  · funext way
    rw [link_adopt_adopt tree last_ne, if_neg fun same => ref_ne same.1]
  · refine .head' ⟨far, ?_⟩ (path links fun ref ref_mem ref_ne => ?_)
    · rw [kept last last_mem, link_adopt_adopt tree last_ne, if_pos ⟨rfl, far_notChild⟩]
      exact far_eq
    · rw [kept ref ref_mem, link_adopt_adopt tree last_ne, if_neg fun same => ref_ne same.1]

/-- A cycle that the replacement of a branch heads is on a path from the root. -/
theorem Holds.not_searchTree_of_branch (holds : tree.Holds live shape) {near far side : Branch}
    (sides : (near = .left ∧ far = .right) ∨ (near = .right ∧ far = .left)) {upper : ρ}
    {beside : Branch → LinkedTree ρ Branch} (hasUpper : shape.HasNode upper beside)
    (has : shape.HasNode wp below) (beside_eq : beside side = node wp below)
    (splits : tree.Splits wp) {after : AddressTree ρ κ γ}
    (outcome : (tree.replacement near far wp).map (fun (tree, heir) =>
      ((tree.setParent heir (some upper)).setLink upper side heir).free wp) = some after)
    (others : ρ → Option Word) : ¬ after.SearchTree others := by
  obtain ⟨moved, last, moved_eq, addresses_eq, last_mem, link_eq, cycle⟩ :=
    replacement_of_splits sides (holds.represents.hasNode has) (has.distinct holds.distinct)
      (has.heightLE holds.height) splits
  rw [moved_eq, Option.map_some] at outcome
  obtain rfl := Option.some.inj outcome
  have beside_mem : ∀ ref ∈ below far, ref ∈ beside side := fun ref ref_mem => by
    rw [beside_eq]
    exact .inr ⟨far, ref_mem⟩
  have link_after : ∀ ref way,
      (((moved.setParent (some last) (some upper)).setLink upper side (some last)).free
        wp).links.link ref way =
          if ref = upper ∧ way = side then some last else moved.links.link ref way := by
    intro ref way
    refine (link_setLink _ upper ref side way (some last)).trans ?_
    rw [link_setParent]
  intro searchTree
  have upper_reaches : (((moved.setParent (some last) (some upper)).setLink upper side
      (some last)).free wp).Reaches upper := by
    refine holds.reaches_upper side hasUpper
      ((addresses_setParent moved (some last) (some upper)).trans addresses_eq)
      fun ref _ outside way elsewhere => ?_
    have ref_ne : ref ≠ last := by
      rintro rfl
      exact outside (beside_mem ref last_mem)
    rw [link_after, if_neg elsewhere, link_eq ref ref_ne]
  obtain ⟨root, root_eq, path⟩ := upper_reaches
  refine searchTree.acyclic last ⟨root, root_eq, path.tail ⟨side, ?_⟩⟩
    (cycle _ fun ref ref_mem => ?_)
  · rw [link_after, if_pos ⟨rfl, rfl⟩]
  · funext way
    rw [link_after, if_neg]
    rintro ⟨rfl, -⟩
    exact (hasUpper.distinct holds.distinct).1 side (beside_mem ref ref_mem)

/-- Taking the subtrees of a node apart closes a cycle. -/
theorem Holds.not_searchTree_of_splits (holds : tree.Holds live shape) (wp_mem : wp ∈ shape)
    (splits : tree.Splits wp) {after : AddressTree ρ κ γ}
    (outcome : tree.unregister wp = some after) (others : ρ → Option Word) :
    ¬ after.SearchTree others := by
  obtain ⟨below, has⟩ := mem_iff_hasNode.mp wp_mem
  rcases holds.represents.root_or_branch has with
    ⟨root_eq, parent_eq, rfl⟩ | ⟨upper, beside, side, hasUpper, beside_eq, parent_eq, link_eq⟩
  · obtain ⟨moved, last, moved_eq, addresses_eq, last_mem, -, cycle⟩ :=
      replacement_of_splits (.inl ⟨rfl, rfl⟩) (root_eq ▸ holds.represents) holds.distinct
        holds.height splits
    simp only [AddressTree.unregister, show (tree.nodes wp).parent = none from parent_eq, moved_eq,
      Option.map_some, Option.some.injEq] at outcome
    subst outcome
    intro searchTree
    refine searchTree.acyclic last ⟨last, rfl, .refl⟩ (cycle _ fun ref _ => ?_)
    exact congrFun (link_setParent moved (some last) none) ref
  · have parent_some : (tree.nodes wp).parent = some upper := parent_eq
    have tested : ∀ other, other ≠ side → (tree.nodes upper).link other ≠ some wp :=
      fun other other_ne => holds.side_unique hasUpper beside_eq other_ne
    cases side with
    | child =>
        -- the nodes of a chain have no subtrees of their own
        have has_wp : (beside .child).HasNode wp below := by
          rw [beside_eq]
          exact .inl ⟨rfl, rfl⟩
        obtain ⟨next, next_eq⟩ := Option.ne_none_iff_exists'.mp splits.2.1
        have under := (holds.represents.hasNode has).2.2 .left
        rw [show tree.links.link wp .left = some next from next_eq] at under
        exact absurd under.mem_top
          (chain_notMem (holds.ordered.hasNode hasUpper) has_wp (by decide) next)
    | left =>
        refine holds.not_searchTree_of_branch (.inl ⟨rfl, rfl⟩) hasUpper has beside_eq splits ?_
          others
        have not_child : (tree.nodes upper).child ≠ some wp := tested .child (by decide)
        have is_left : (tree.nodes upper).left = some wp := link_eq
        rw [← outcome]
        simp only [AddressTree.unregister, parent_some, if_neg not_child, is_left, if_true]
    | right =>
        refine holds.not_searchTree_of_branch (.inr ⟨rfl, rfl⟩) hasUpper has beside_eq splits ?_
          others
        have not_child : (tree.nodes upper).child ≠ some wp := tested .child (by decide)
        have not_left : (tree.nodes upper).left ≠ some wp := tested .left (by decide)
        rw [← outcome]
        simp only [AddressTree.unregister, parent_some, if_neg not_child, if_neg not_left]

end Broken

end AddressTree
end System6502
