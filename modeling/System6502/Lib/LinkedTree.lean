import Mathlib.Data.Finset.Card
import Mathlib.Logic.Relation

/-!
# Trees in linked memory

A tree whose nodes are references with one link for each branch and one link back to the parent.
This file says when such links represent a tree, what follows for the paths along the links, and
which updates of the links put another tree in the place of a branch.
-/

namespace System6502
namespace Lib

/-- A tree of references with one subtree for each branch of a node. -/
inductive LinkedTree (ρ β : Type*)
  | leaf : LinkedTree ρ β
  | node (ref : ρ) (branch : β → LinkedTree ρ β) : LinkedTree ρ β

/-- The links of the nodes in memory. -/
structure Links (ρ β : Type*) where
  /-- The link of a node for a branch. -/
  link : ρ → β → Option ρ
  /-- The link of a node to its parent. -/
  parent : ρ → Option ρ

variable {ρ β : Type*}

/-- A link leads from one node to another. -/
def Links.Follows (links : Links ρ β) (source target : ρ) : Prop :=
  ∃ branch, links.link source branch = some target

namespace LinkedTree

/-! ## References and subtrees -/

/-- A reference occurs in a tree. -/
def Mem (ref : ρ) : LinkedTree ρ β → Prop
  | leaf => False
  | node top branch => ref = top ∨ ∃ side, (branch side).Mem ref

instance : Membership ρ (LinkedTree ρ β) := ⟨fun tree ref => tree.Mem ref⟩

@[simp]
theorem not_mem_leaf (ref : ρ) : ref ∉ (leaf : LinkedTree ρ β) := id

@[simp]
theorem mem_node {ref top : ρ} {branch : β → LinkedTree ρ β} :
    ref ∈ node top branch ↔ ref = top ∨ ∃ side, ref ∈ branch side := Iff.rfl

/-- No reference occurs twice. -/
def Distinct : LinkedTree ρ β → Prop
  | leaf => True
  | node top branch =>
      (∀ side, top ∉ branch side) ∧
        (∀ left right ref, ref ∈ branch left → ref ∈ branch right → left = right) ∧
        ∀ side, (branch side).Distinct

/-- A node with its branches occurs in a tree. -/
def HasNode (ref : ρ) (below : β → LinkedTree ρ β) : LinkedTree ρ β → Prop
  | leaf => False
  | node top branch => (top = ref ∧ branch = below) ∨ ∃ side, (branch side).HasNode ref below

theorem mem_iff_hasNode {tree : LinkedTree ρ β} {ref : ρ} :
    ref ∈ tree ↔ ∃ below, tree.HasNode ref below := by
  induction tree with
  | leaf => exact ⟨False.elim, fun ⟨_, has⟩ => has⟩
  | node top branch ih =>
      constructor
      · rintro (rfl | ⟨side, side_mem⟩)
        · exact ⟨branch, .inl ⟨rfl, rfl⟩⟩
        · obtain ⟨below, has⟩ := (ih side).mp side_mem
          exact ⟨below, .inr ⟨side, has⟩⟩
      · rintro ⟨below, ⟨rfl, -⟩ | ⟨side, has⟩⟩
        · exact .inl rfl
        · exact .inr ⟨side, (ih side).mpr ⟨below, has⟩⟩

theorem HasNode.mem {tree : LinkedTree ρ β} {ref : ρ} {below : β → LinkedTree ρ β}
    (has : tree.HasNode ref below) : ref ∈ tree := mem_iff_hasNode.mpr ⟨below, has⟩

theorem HasNode.mem_of_mem {tree : LinkedTree ρ β} {ref lower : ρ} {below : β → LinkedTree ρ β}
    {side : β} (has : tree.HasNode ref below) (lower_mem : lower ∈ below side) :
    lower ∈ tree := by
  induction tree with
  | leaf => exact has.elim
  | node top branch ih =>
      rcases has with ⟨-, rfl⟩ | ⟨other, has⟩
      · exact .inr ⟨side, lower_mem⟩
      · exact .inr ⟨other, ih other has⟩

theorem HasNode.distinct {tree : LinkedTree ρ β} {ref : ρ} {below : β → LinkedTree ρ β}
    (has : tree.HasNode ref below) (distinct : tree.Distinct) :
    (node ref below).Distinct := by
  induction tree with
  | leaf => exact has.elim
  | node top branch ih =>
      rcases has with ⟨rfl, rfl⟩ | ⟨side, has⟩
      · exact distinct
      · exact ih side has (distinct.2.2 side)

/-- A bound on the length of the paths of a tree. -/
def HeightLE : LinkedTree ρ β → Nat → Prop
  | leaf, _ => True
  | node _ branch, bound => ∃ rest, bound = rest + 1 ∧ ∀ side, (branch side).HeightLE rest

/-- The paths of a tree are no longer than its references are many. -/
theorem heightLE_card [DecidableEq ρ] {tree : LinkedTree ρ β} {refs : Finset ρ}
    (distinct : tree.Distinct) (subset : ∀ ref ∈ tree, ref ∈ refs) : tree.HeightLE refs.card := by
  induction tree generalizing refs with
  | leaf => trivial
  | node top branch ih =>
      have top_mem : top ∈ refs := subset top (.inl rfl)
      refine ⟨(refs.erase top).card, (Finset.card_erase_add_one top_mem).symm, fun side => ?_⟩
      refine ih side (distinct.2.2 side) fun ref ref_mem => ?_
      refine Finset.mem_erase.mpr ⟨?_, subset ref (.inr ⟨side, ref_mem⟩)⟩
      rintro rfl
      exact distinct.1 side ref_mem

theorem HeightLE.mono {tree : LinkedTree ρ β} {lower upper : Nat} (height : tree.HeightLE lower)
    (le : lower ≤ upper) : tree.HeightLE upper := by
  induction tree generalizing lower upper with
  | leaf => trivial
  | node top branch ih =>
      obtain ⟨rest, rfl, heights⟩ := height
      exact ⟨upper - 1, by omega, fun side => ih side (heights side) (by omega)⟩

theorem HasNode.heightLE {tree : LinkedTree ρ β} {ref : ρ} {below : β → LinkedTree ρ β}
    {bound : Nat} (has : tree.HasNode ref below) (height : tree.HeightLE bound) :
    (node ref below).HeightLE bound := by
  induction tree generalizing bound with
  | leaf => exact has.elim
  | node top branch ih =>
      rcases has with ⟨rfl, rfl⟩ | ⟨side, has⟩
      · exact height
      · obtain ⟨rest, rfl, heights⟩ := height
        exact (ih side has (heights side)).mono (Nat.le_succ rest)

/-! ## Representation -/

/-- The links represent a tree below a pointer, under a parent. -/
def Represents (links : Links ρ β) : Option ρ → Option ρ → LinkedTree ρ β → Prop
  | _, pointer, leaf => pointer = none
  | parent, pointer, node top branch =>
      pointer = some top ∧ links.parent top = parent ∧
        ∀ side, Represents links (some top) (links.link top side) (branch side)

section Represents

variable {links : Links ρ β} {parent pointer : Option ρ} {tree : LinkedTree ρ β}

theorem Represents.eq_leaf (represents : Represents links parent none tree) : tree = leaf := by
  cases tree with
  | leaf => rfl
  | node top branch => cases represents.1

theorem Represents.eq_node {top : ρ} (represents : Represents links parent (some top) tree) :
    ∃ branch, tree = node top branch := by
  cases tree with
  | leaf => cases represents
  | node other branch =>
      obtain rfl := Option.some.inj represents.1
      exact ⟨branch, rfl⟩

theorem Represents.mem_top {top : ρ} (represents : Represents links parent (some top) tree) :
    top ∈ tree := by
  obtain ⟨branch, rfl⟩ := represents.eq_node
  exact .inl rfl

theorem Represents.congr {other : Links ρ β} (represents : Represents links parent pointer tree)
    (same : ∀ ref ∈ tree, other.link ref = links.link ref ∧ other.parent ref = links.parent ref) :
    Represents other parent pointer tree := by
  induction tree generalizing parent pointer with
  | leaf => exact represents
  | node top branch ih =>
      obtain ⟨rfl, parent_eq, below⟩ := represents
      have same_top := same top (.inl rfl)
      refine ⟨rfl, same_top.2.trans parent_eq, fun side => ?_⟩
      rw [same_top.1]
      exact ih side (below side) fun ref ref_mem => same ref (.inr ⟨side, ref_mem⟩)

/-- Other links represent the same tree under another parent when they agree below its root. -/
theorem Represents.reparent {other : Links ρ β} {above : Option ρ}
    (represents : Represents links parent pointer tree) (distinct : tree.Distinct)
    (same_link : ∀ ref ∈ tree, other.link ref = links.link ref)
    (same_parent : ∀ ref ∈ tree, pointer ≠ some ref → other.parent ref = links.parent ref)
    (above_eq : ∀ top, pointer = some top → other.parent top = above) :
    Represents other above pointer tree := by
  cases tree with
  | leaf => exact represents
  | node top branch =>
      obtain ⟨rfl, -, below⟩ := represents
      refine ⟨rfl, above_eq top rfl, fun side => ?_⟩
      rw [same_link top (.inl rfl)]
      refine (below side).congr fun ref ref_mem => ⟨same_link ref (.inr ⟨side, ref_mem⟩), ?_⟩
      refine same_parent ref (.inr ⟨side, ref_mem⟩) fun eq => distinct.1 side ?_
      rw [Option.some.inj eq]
      exact ref_mem

theorem Represents.hasNode {ref : ρ} {below : β → LinkedTree ρ β}
    (represents : Represents links parent pointer tree) (has : tree.HasNode ref below) :
    Represents links (links.parent ref) (some ref) (node ref below) := by
  induction tree generalizing parent pointer with
  | leaf => exact has.elim
  | node top branch ih =>
      rcases has with ⟨rfl, rfl⟩ | ⟨side, has⟩
      · exact ⟨rfl, rfl, represents.2.2⟩
      · exact ih side (represents.2.2 side) has

/-- A node is the root, or a branch of the node its parent link names. -/
theorem Represents.root_or_branch {ref : ρ} {below : β → LinkedTree ρ β}
    (represents : Represents links parent pointer tree) (has : tree.HasNode ref below) :
    (pointer = some ref ∧ links.parent ref = parent ∧ tree = node ref below) ∨
      ∃ upper beside side, tree.HasNode upper beside ∧ beside side = node ref below ∧
        links.parent ref = some upper ∧ links.link upper side = some ref := by
  induction tree generalizing parent pointer with
  | leaf => exact has.elim
  | node top branch ih =>
      obtain ⟨rfl, parent_eq, under⟩ := represents
      rcases has with ⟨rfl, rfl⟩ | ⟨side, has⟩
      · exact .inl ⟨rfl, parent_eq, rfl⟩
      · refine .inr ?_
        rcases ih side (under side) has with
          ⟨pointer_eq, parent_eq, branch_eq⟩ | ⟨upper, beside, other, has, rest⟩
        · exact ⟨top, branch, side, .inl ⟨rfl, rfl⟩, branch_eq, parent_eq, pointer_eq⟩
        · exact ⟨upper, beside, other, .inr ⟨side, has⟩, rest⟩

/-! ## Paths -/

theorem Represents.follow {source target : ρ} (represents : Represents links parent pointer tree)
    (source_mem : source ∈ tree) (follows : links.Follows source target) :
    target ∈ tree ∧ links.parent target = some source := by
  obtain ⟨below, has⟩ := mem_iff_hasNode.mp source_mem
  obtain ⟨side, link_eq⟩ := follows
  have under := (represents.hasNode has).2.2 side
  rw [link_eq] at under
  obtain ⟨branch, branch_eq⟩ := under.eq_node
  rw [branch_eq] at under
  have target_mem : target ∈ below side := by
    rw [branch_eq]
    exact .inl rfl
  exact ⟨has.mem_of_mem target_mem, under.2.1⟩

theorem Represents.mem_of_reaches {source target : ρ}
    (represents : Represents links parent pointer tree) (source_mem : source ∈ tree)
    (reaches : Relation.ReflTransGen links.Follows source target) : target ∈ tree := by
  induction reaches with
  | refl => exact source_mem
  | tail _ follows ih => exact (represents.follow ih follows).1

theorem Represents.reaches {top ref : ρ} (represents : Represents links parent (some top) tree)
    (ref_mem : ref ∈ tree) : Relation.ReflTransGen links.Follows top ref := by
  induction tree generalizing parent top with
  | leaf => exact ref_mem.elim
  | node other branch ih =>
      obtain ⟨top_eq, -, below⟩ := represents
      obtain rfl := Option.some.inj top_eq
      rcases ref_mem with rfl | ⟨side, ref_mem⟩
      · exact .refl
      · cases link_eq : links.link top side with
        | none =>
            have under := below side
            rw [link_eq] at under
            rw [under.eq_leaf] at ref_mem
            exact ref_mem.elim
        | some next => exact .head ⟨side, link_eq⟩ (ih side (link_eq ▸ below side) ref_mem)

/-- No path along the links returns to a node of the tree. -/
theorem Represents.acyclic {ref : ρ} (represents : Represents links parent pointer tree)
    (distinct : tree.Distinct) (ref_mem : ref ∈ tree) :
    ¬ Relation.TransGen links.Follows ref ref := by
  intro returns
  obtain ⟨below, has⟩ := mem_iff_hasNode.mp ref_mem
  obtain ⟨next, ⟨side, link_eq⟩, path⟩ := Relation.TransGen.head'_iff.mp returns
  have under := (represents.hasNode has).2.2 side
  rw [link_eq] at under
  obtain ⟨branch, branch_eq⟩ := under.eq_node
  have next_mem : next ∈ below side := by
    rw [branch_eq]
    exact .inl rfl
  exact (has.distinct distinct).1 side (under.mem_of_reaches next_mem path)

end Represents

/-! ## Grafting -/

section Graft

variable [DecidableEq ρ] [DecidableEq β]

/-- Put a tree in the place of one branch of a node. -/
def graft : LinkedTree ρ β → ρ → β → LinkedTree ρ β → LinkedTree ρ β
  | leaf, _, _, _ => leaf
  | node top branch, ref, side, scion => node top fun other =>
      if top = ref ∧ other = side then scion else (branch other).graft ref side scion

variable {tree scion : LinkedTree ρ β} {ref top : ρ} {below branch : β → LinkedTree ρ β}
  {side : β}

theorem graft_of_notMem (ref_notMem : ref ∉ tree) : tree.graft ref side scion = tree := by
  induction tree with
  | leaf => rfl
  | node top branch ih =>
      rw [graft]
      congr
      funext other
      rw [if_neg fun same => ref_notMem (.inl same.1.symm)]
      exact ih other fun other_mem => ref_notMem (.inr ⟨other, other_mem⟩)

theorem graft_here (distinct : (node ref branch).Distinct) :
    (node ref branch).graft ref side scion = node ref (Function.update branch side scion) := by
  rw [graft]
  congr
  funext other
  by_cases here : other = side
  · subst here
    simp
  · rw [if_neg fun same => here same.2, Function.update_of_ne here]
    exact graft_of_notMem (distinct.1 other)

theorem graft_below {lower : β} (distinct : (node top branch).Distinct)
    (has : (branch lower).HasNode ref below) :
    (node top branch).graft ref side scion =
      node top (Function.update branch lower ((branch lower).graft ref side scion)) := by
  have top_ne : top ≠ ref := by
    rintro rfl
    exact distinct.1 lower has.mem
  rw [graft]
  congr
  funext other
  rw [if_neg fun same => top_ne same.1]
  by_cases here : other = lower
  · subst here
    simp
  · rw [Function.update_of_ne here]
    refine graft_of_notMem fun ref_mem => here ?_
    exact distinct.2.1 other lower ref ref_mem has.mem

theorem mem_graft (distinct : tree.Distinct) (has : tree.HasNode ref below) {lower : ρ} :
    lower ∈ tree.graft ref side scion ↔ (lower ∈ tree ∧ lower ∉ below side) ∨ lower ∈ scion := by
  induction tree with
  | leaf => exact has.elim
  | node top branch ih =>
      rcases has with ⟨rfl, rfl⟩ | ⟨under, has⟩
      · have top_notMem := distinct.1 side
        have apart := distinct.2.1
        rw [graft_here distinct, mem_node, mem_node]
        constructor
        · rintro (rfl | ⟨other, lower_mem⟩)
          · exact .inl ⟨.inl rfl, top_notMem⟩
          · by_cases here : other = side
            · subst here
              rw [Function.update_self] at lower_mem
              exact .inr lower_mem
            · rw [Function.update_of_ne here] at lower_mem
              exact .inl ⟨.inr ⟨other, lower_mem⟩, fun side_mem =>
                here (apart other side lower lower_mem side_mem)⟩
        · rintro (⟨rfl | ⟨other, lower_mem⟩, notMem⟩ | scion_mem)
          · exact .inl rfl
          · refine .inr ⟨other, ?_⟩
            rwa [Function.update_of_ne (by rintro rfl; exact notMem lower_mem)]
          · refine .inr ⟨side, ?_⟩
            rwa [Function.update_self]
      · have ih := ih under (distinct.2.2 under) has
        have apart := distinct.2.1
        rw [graft_below distinct has, mem_node, mem_node]
        constructor
        · rintro (rfl | ⟨other, lower_mem⟩)
          · exact .inl ⟨.inl rfl, fun side_mem => distinct.1 under (has.mem_of_mem side_mem)⟩
          · by_cases here : other = under
            · subst here
              rw [Function.update_self, ih] at lower_mem
              exact lower_mem.imp_left fun kept => ⟨.inr ⟨other, kept.1⟩, kept.2⟩
            · rw [Function.update_of_ne here] at lower_mem
              exact .inl ⟨.inr ⟨other, lower_mem⟩, fun side_mem =>
                here (apart other under lower lower_mem (has.mem_of_mem side_mem))⟩
        · rintro (⟨rfl | ⟨other, lower_mem⟩, notMem⟩ | scion_mem)
          · exact .inl rfl
          · refine .inr ⟨other, ?_⟩
            by_cases here : other = under
            · subst here
              rw [Function.update_self, ih]
              exact .inl ⟨lower_mem, notMem⟩
            · rwa [Function.update_of_ne here]
          · refine .inr ⟨under, ?_⟩
            rw [Function.update_self, ih]
            exact .inr scion_mem

omit [DecidableEq ρ] in
theorem Distinct.update (distinct : (node top branch).Distinct) (scion_distinct : scion.Distinct)
    (top_notMem : top ∉ scion)
    (apart : ∀ other ≠ side, ∀ lower ∈ scion, lower ∉ branch other) :
    (node top (Function.update branch side scion)).Distinct := by
  obtain ⟨old_notMem, old_apart, branches⟩ := distinct
  refine ⟨fun other => ?_, fun left right lower left_mem right_mem => ?_, fun other => ?_⟩
  · by_cases here : other = side
    · subst here
      rwa [Function.update_self]
    · rw [Function.update_of_ne here]
      exact old_notMem other
  · by_cases leftHere : left = side <;> by_cases rightHere : right = side
    · rw [leftHere, rightHere]
    · subst leftHere
      rw [Function.update_self] at left_mem
      rw [Function.update_of_ne rightHere] at right_mem
      exact absurd right_mem (apart right rightHere lower left_mem)
    · subst rightHere
      rw [Function.update_self] at right_mem
      rw [Function.update_of_ne leftHere] at left_mem
      exact absurd left_mem (apart left leftHere lower right_mem)
    · rw [Function.update_of_ne leftHere] at left_mem
      rw [Function.update_of_ne rightHere] at right_mem
      exact old_apart left right lower left_mem right_mem
  · by_cases here : other = side
    · subst here
      rwa [Function.update_self]
    · rw [Function.update_of_ne here]
      exact branches other

theorem distinct_graft (distinct : tree.Distinct) (has : tree.HasNode ref below)
    (scion_distinct : scion.Distinct)
    (fresh : ∀ lower ∈ scion, lower ∈ tree → lower ∈ below side) :
    (tree.graft ref side scion).Distinct := by
  induction tree with
  | leaf => exact has.elim
  | node top branch ih =>
      rcases has with ⟨rfl, rfl⟩ | ⟨under, has⟩
      · rw [graft_here distinct]
        refine distinct.update scion_distinct (fun top_mem => ?_)
          fun other here lower scion_mem => ?_
        · exact distinct.1 side (fresh top top_mem (.inl rfl))
        · intro lower_mem
          exact here (distinct.2.1 other side lower lower_mem
            (fresh lower scion_mem (.inr ⟨other, lower_mem⟩)))
      · have branch_distinct := distinct.2.2 under
        have inner : ∀ lower ∈ scion, lower ∈ branch under → lower ∈ below side :=
          fun lower scion_mem lower_mem => fresh lower scion_mem (.inr ⟨under, lower_mem⟩)
        rw [graft_below distinct has]
        refine distinct.update (ih under branch_distinct has inner) (fun top_mem => ?_)
          fun other here lower grafted_mem => ?_
        · rcases (mem_graft branch_distinct has).mp top_mem with ⟨top_mem, -⟩ | scion_mem
          · exact distinct.1 under top_mem
          · exact distinct.1 under (has.mem_of_mem (fresh top scion_mem (.inl rfl)))
        · intro lower_mem
          rcases (mem_graft branch_distinct has).mp grafted_mem with ⟨under_mem, -⟩ | scion_mem
          · exact here (distinct.2.1 other under lower lower_mem under_mem)
          · have below_mem := fresh lower scion_mem (.inr ⟨other, lower_mem⟩)
            exact here (distinct.2.1 other under lower lower_mem (has.mem_of_mem below_mem))

/-- Links that change only in one branch of a node represent the tree with the graft there. -/
theorem Represents.graft {links other : Links ρ β} {parent pointer : Option ρ}
    (represents : Represents links parent pointer tree) (distinct : tree.Distinct)
    (has : tree.HasNode ref below)
    (kept : ∀ upper ∈ tree, upper ∉ below side → other.parent upper = links.parent upper ∧
      ∀ way, ¬ (upper = ref ∧ way = side) → other.link upper way = links.link upper way)
    (scion_represents : Represents other (some ref) (other.link ref side) scion) :
    Represents other parent pointer (tree.graft ref side scion) := by
  induction tree generalizing parent pointer with
  | leaf => exact has.elim
  | node top branch ih =>
      obtain ⟨rfl, parent_eq, under⟩ := represents
      rcases has with ⟨rfl, rfl⟩ | ⟨lower, has⟩
      · rw [graft_here distinct]
        have kept_top := kept top (.inl rfl) (distinct.1 side)
        refine ⟨rfl, kept_top.1.trans parent_eq, fun way => ?_⟩
        by_cases here : way = side
        · subst here
          rwa [Function.update_self]
        · rw [Function.update_of_ne here, kept_top.2 way fun same => here same.2]
          refine (under way).congr fun upper upper_mem => ?_
          have outside : upper ∉ branch side := fun side_mem =>
            here (distinct.2.1 way side upper upper_mem side_mem)
          obtain ⟨same_parent, same_link⟩ := kept upper (.inr ⟨way, upper_mem⟩) outside
          refine ⟨funext fun turn => same_link turn fun same => ?_, same_parent⟩
          exact distinct.1 way (same.1 ▸ upper_mem)
      · rw [graft_below distinct has]
        have top_ne : top ≠ ref := by
          rintro rfl
          exact distinct.1 lower has.mem
        have kept_top := kept top (.inl rfl) fun below_mem =>
          distinct.1 lower (has.mem_of_mem below_mem)
        refine ⟨rfl, kept_top.1.trans parent_eq, fun way => ?_⟩
        rw [kept_top.2 way fun same => top_ne same.1]
        by_cases here : way = lower
        · subst here
          rw [Function.update_self]
          exact ih way (under way) (distinct.2.2 way) has fun upper upper_mem =>
            kept upper (.inr ⟨way, upper_mem⟩)
        · rw [Function.update_of_ne here]
          refine (under way).congr fun upper upper_mem => ?_
          have outside : upper ∉ below side := fun below_mem =>
            here (distinct.2.1 way lower upper upper_mem (has.mem_of_mem below_mem))
          obtain ⟨same_parent, same_link⟩ := kept upper (.inr ⟨way, upper_mem⟩) outside
          refine ⟨funext fun turn => same_link turn fun same => here ?_, same_parent⟩
          exact distinct.2.1 way lower upper upper_mem (same.1 ▸ has.mem)

end Graft

/-! ## Search order -/

section Ordered

variable {α : Type*} (order : β → α → α → Prop) (key : ρ → α)

/-- The keys in each branch of a node stand to the key of the node as the branch asks. -/
def Ordered : LinkedTree ρ β → Prop
  | leaf => True
  | node top branch =>
      ∀ side, (∀ ref ∈ branch side, order side (key ref) (key top)) ∧ (branch side).Ordered

/-- A key may stand in a branch of a node without breaking the order. -/
def Admits (ref : ρ) (side : β) (value : α) : LinkedTree ρ β → Prop
  | leaf => False
  | node top branch =>
      (top = ref ∧ order side value (key top)) ∨
        ∃ other, (branch other).Admits ref side value ∧ order other value (key top)

variable {order key} {tree scion : LinkedTree ρ β} {ref top : ρ}
  {below branch : β → LinkedTree ρ β} {side : β}

theorem Admits.mem {value : α} (admits : tree.Admits order key ref side value) : ref ∈ tree := by
  induction tree with
  | leaf => exact admits.elim
  | node top branch ih =>
      rcases admits with ⟨rfl, -⟩ | ⟨other, admits, -⟩
      · exact .inl rfl
      · exact .inr ⟨other, ih other admits⟩

theorem Admits.congr {other : ρ → α} {value : α} (admits : tree.Admits order key ref side value)
    (same : ∀ ref ∈ tree, other ref = key ref) : tree.Admits order other ref side value := by
  induction tree with
  | leaf => exact admits.elim
  | node top branch ih =>
      have same_top := same top (.inl rfl)
      rcases admits with ⟨rfl, allowed⟩ | ⟨lower, admits, allowed⟩
      · exact .inl ⟨rfl, same_top ▸ allowed⟩
      · exact .inr ⟨lower, ih lower admits fun ref ref_mem => same ref (.inr ⟨lower, ref_mem⟩),
          same_top ▸ allowed⟩

theorem Ordered.congr {other : ρ → α} (ordered : tree.Ordered order key)
    (same : ∀ ref ∈ tree, other ref = key ref) : tree.Ordered order other := by
  induction tree with
  | leaf => trivial
  | node top branch ih =>
      intro side
      refine ⟨fun ref ref_mem => ?_, ih side (ordered side).2 fun ref ref_mem =>
        same ref (.inr ⟨side, ref_mem⟩)⟩
      rw [same ref (.inr ⟨side, ref_mem⟩), same top (.inl rfl)]
      exact (ordered side).1 ref ref_mem

theorem Ordered.hasNode (ordered : tree.Ordered order key) (has : tree.HasNode ref below) :
    (node ref below).Ordered order key := by
  induction tree with
  | leaf => exact has.elim
  | node top branch ih =>
      rcases has with ⟨rfl, rfl⟩ | ⟨other, has⟩
      · exact ordered
      · exact ih other (ordered other).2 has

/-- What stands in a branch may stand there. -/
theorem Ordered.admits {lower : ρ} (ordered : tree.Ordered order key)
    (has : tree.HasNode ref below) (lower_mem : lower ∈ below side) :
    tree.Admits order key ref side (key lower) := by
  induction tree with
  | leaf => exact has.elim
  | node top branch ih =>
      rcases has with ⟨rfl, rfl⟩ | ⟨other, has⟩
      · exact .inl ⟨rfl, (ordered side).1 lower lower_mem⟩
      · exact .inr ⟨other, ih other (ordered other).2 has,
          (ordered other).1 lower (has.mem_of_mem lower_mem)⟩

theorem Ordered.update [DecidableEq β] (ordered : (node top branch).Ordered order key)
    (scion_ordered : scion.Ordered order key)
    (scion_side : ∀ lower ∈ scion, order side (key lower) (key top)) :
    (node top (Function.update branch side scion)).Ordered order key := by
  intro other
  by_cases here : other = side
  · subst here
    rw [Function.update_self]
    exact ⟨scion_side, scion_ordered⟩
  · rw [Function.update_of_ne here]
    exact ordered other

theorem ordered_graft [DecidableEq ρ] [DecidableEq β] (distinct : tree.Distinct)
    (has : tree.HasNode ref below) (ordered : tree.Ordered order key)
    (scion_ordered : scion.Ordered order key)
    (admits : ∀ lower ∈ scion, tree.Admits order key ref side (key lower)) :
    (tree.graft ref side scion).Ordered order key := by
  induction tree with
  | leaf => exact has.elim
  | node top branch ih =>
      rcases has with ⟨rfl, rfl⟩ | ⟨under, has⟩
      · rw [graft_here distinct]
        refine ordered.update scion_ordered fun lower lower_mem => ?_
        rcases admits lower lower_mem with ⟨-, allowed⟩ | ⟨other, inner, -⟩
        · exact allowed
        · exact absurd inner.mem (distinct.1 other)
      · have inner : ∀ lower ∈ scion, (branch under).Admits order key ref side (key lower) ∧
            order under (key lower) (key top) := by
          intro lower lower_mem
          rcases admits lower lower_mem with ⟨rfl, -⟩ | ⟨other, inner, allowed⟩
          · exact absurd has.mem (distinct.1 under)
          · obtain rfl := distinct.2.1 other under ref inner.mem has.mem
            exact ⟨inner, allowed⟩
        rw [graft_below distinct has]
        refine ordered.update (ih under (distinct.2.2 under) has (ordered under).2
          fun lower lower_mem => (inner lower lower_mem).1) fun lower grafted_mem => ?_
        rcases (mem_graft (distinct.2.2 under) has).mp grafted_mem with ⟨under_mem, -⟩ | scion_mem
        · exact (ordered under).1 lower under_mem
        · exact (inner lower scion_mem).2

end Ordered

end LinkedTree
end Lib
end System6502
