import System6502.Lib.Machine
import System6502.Registers
import Mathlib.Data.List.Sort
import Mathlib.Data.List.TakeWhile

/-!
# The registry of bus modules

`membus_t` keeps the modules of a bus in tiers, and each tier's modules in the order of their
first addresses.  The file gives registration and the exact sequences of registrations after which
no module is lost.
-/

namespace System6502

/-- `membus_module_tier_node_t`; the links are those of the list that holds it. -/
structure ModuleTierNode (δ : Type*) where
  /-- The number of the tier. -/
  tier : Int
  /-- The modules of the tier. -/
  modules : List δ
  deriving DecidableEq, Repr

/-- The two caches of a bus. -/
structure MembusCache where
  /-- The next index of the read cache. -/
  rcacheIdx : Byte
  /-- The next index of the write cache. -/
  wcacheIdx : Byte
  /-- The bytes last read. -/
  rcache : Fin 8 → Byte
  /-- The bytes last written. -/
  wcache : Fin 8 → Byte

/-- Caches filled with zero. -/
def MembusCache.blank : MembusCache where
  rcacheIdx := 0
  wcacheIdx := 0
  rcache _ := 0
  wcache _ := 0

/-- `membus_t`, over references to modules. -/
structure Bus (δ : Type*) where
  /-- The tier called ahead of all others. -/
  preOp : Option (ModuleTierNode δ)
  /-- The ordinary tiers. -/
  modules : List (ModuleTierNode δ)
  /-- The tier called after all others. -/
  postOp : Option (ModuleTierNode δ)
  /-- The word at `$FFFA` that no module handles. -/
  nmiVector : Word
  /-- The word at `$FFFC` that no module handles. -/
  resVector : Word
  /-- The word at `$FFFE` that no module handles. -/
  irqVector : Word
  /-- Whether accesses leave the caches alone. -/
  cacheDisable : Bool
  /-- The caches. -/
  cache : MembusCache
  /-- The reference count of each module. -/
  refCount : δ → Nat

/-- The outcomes of the two allocations of a registration. -/
structure Allocations where
  /-- The node for the module is allocated. -/
  node : Bool
  /-- The node for a new tier is allocated. -/
  tier : Bool
  deriving DecidableEq, Repr

/-- A call of `membus_register_module`. -/
structure Registration (δ : Type*) where
  /-- The tier asked for. -/
  tier : Int
  /-- The module. -/
  module : δ
  /-- What the allocator answers. -/
  allocations : Allocations
  deriving DecidableEq, Repr

/-- A registration of a module, named by its first address, with all allocations granted. -/
def Registration.granted (tier : Int) (module : Word) : Registration Word where
  tier
  module
  allocations := { node := true, tier := true }

/-- One for the registered module in the tier asked for, and zero for everything else. -/
def Registration.counts {δ : Type*} [DecidableEq δ] (call : Registration δ) (tier : Int)
    (module : δ) : Nat :=
  if call.tier = tier ∧ call.module = module then 1 else 0

/-- `MEMBUS_TIER_PRE_OP`. -/
def tierPreOp : Int := -2147483648

/-- `MEMBUS_TIER_POST_OP`. -/
def tierPostOp : Int := 2147483647

namespace Bus

variable {δ : Type*}

/-- `membus_alloc`; the caches are left uninitialised. -/
def alloc (uninitialised : MembusCache) (refCount : δ → Nat) : Bus δ where
  preOp := none
  modules := []
  postOp := none
  nmiVector := 0x0FF0
  resVector := 0xF00F
  irqVector := 0xCAFE
  cacheDisable := false
  cache := uninitialised
  refCount

section Register

variable (addrLo : δ → Word)

/-- Insert a module before the first one of a tier that does not begin below it. -/
def insertModule (new : δ) (modules : List δ) : List δ :=
  let before := modules.takeWhile fun module => addrLo module < addrLo new
  let after := modules.dropWhile fun module => addrLo module < addrLo new
  if before.isEmpty then new :: modules else before ++ new :: after

/-- Register a module in the pre-op or the post-op tier. -/
def insertObserver (allocated : Bool) (tier : Int) (new : δ)
    (observers : Option (ModuleTierNode δ)) : Option (ModuleTierNode δ) :=
  let node := observers.or (if allocated then some { tier, modules := [] } else none)
  node.map fun node => { node with modules := insertModule addrLo new node.modules }

/-- Add a tier between the tiers below it and the others.  A new first tier keeps the null link
of its allocation. -/
def addTier (allocated : Bool) (tier : Int) (new : δ) (before after : List (ModuleTierNode δ)) :
    Option (List (ModuleTierNode δ)) :=
  if allocated then
    if before.isEmpty then some [{ tier, modules := [new] }]
    else some (before ++ { tier, modules := [new] } :: after)
  else none

/-- Register a module in an ordinary tier. -/
def insertTier (allocated : Bool) (tier : Int) (new : δ) (tiers : List (ModuleTierNode δ)) :
    Option (List (ModuleTierNode δ)) :=
  let before := tiers.takeWhile fun node => node.tier < tier
  match tiers.dropWhile fun node => node.tier < tier with
  | [] => addTier allocated tier new before []
  | found :: rest =>
      if found.tier = tier then
        some (before ++ { found with modules := insertModule addrLo new found.modules } :: rest)
      else addTier allocated tier new before (found :: rest)

variable [DecidableEq δ]

/-- `membus_module_retain`. -/
def retain (bus : Bus δ) (module : δ) : Bus δ :=
  { bus with refCount := Function.update bus.refCount module (bus.refCount module + 1) }

/-- `membus_module_release`, for a module that stays in use. -/
def release (bus : Bus δ) (module : δ) : Bus δ :=
  { bus with refCount := Function.update bus.refCount module (bus.refCount module - 1) }

/-- `membus_register_module`. -/
def registerModule (bus : Bus δ) (call : Registration δ) : Bool × Bus δ :=
  if call.allocations.node then
    let retained := bus.retain call.module
    if call.tier = tierPreOp then
      let preOp := insertObserver addrLo call.allocations.tier tierPreOp call.module bus.preOp
      (preOp.isSome, { retained with preOp })
    else if call.tier = tierPostOp then
      let postOp := insertObserver addrLo call.allocations.tier tierPostOp call.module bus.postOp
      (postOp.isSome, { retained with postOp })
    else
      match insertTier addrLo call.allocations.tier call.tier call.module bus.modules with
      | some modules => (true, { retained with modules })
      | none => (false, retained.release call.module)
  else (false, bus)

/-- Registrations one after the other, with their return values. -/
def registering : Lib.Machine (Bus δ) (Registration δ) Bool where
  step bus call :=
    ((bus.registerModule addrLo call).2, [(bus.registerModule addrLo call).1])

end Register

/-! ## What registration inserts -/

section Insert

variable (addrLo : δ → Word)

theorem insertModule_eq_orderedInsert (new : δ) (modules : List δ) :
    insertModule addrLo new modules =
      modules.orderedInsert (fun left right => addrLo left ≤ addrLo right) new := by
  have below : (fun module => decide (addrLo module < addrLo new)) =
      fun module => decide (¬ addrLo new ≤ addrLo module) := by
    funext module
    simp
  rw [List.orderedInsert_eq_take_drop, insertModule, below]
  split
  case isTrue isEmpty =>
    have before_eq := List.isEmpty_iff.mp isEmpty
    have split_eq := List.takeWhile_append_dropWhile
      (p := fun module => decide (¬ addrLo new ≤ addrLo module)) (l := modules)
    rw [before_eq] at split_eq ⊢
    rw [List.nil_append] at split_eq ⊢
    rw [split_eq]
  case isFalse => rfl

theorem insertModule_pairwise {new : δ} {modules : List δ}
    (ascending : modules.Pairwise fun left right => addrLo left ≤ addrLo right) :
    (insertModule addrLo new modules).Pairwise fun left right => addrLo left ≤ addrLo right := by
  rw [insertModule_eq_orderedInsert]
  have total : Std.Total fun left right : δ => addrLo left ≤ addrLo right :=
    ⟨fun left right => BitVec.le_total (addrLo left) (addrLo right)⟩
  have transitive : IsTrans δ fun left right => addrLo left ≤ addrLo right :=
    ⟨fun _ _ _ => BitVec.le_trans⟩
  exact ascending.orderedInsert _ _

theorem count_insertModule [DecidableEq δ] (new module : δ) (modules : List δ) :
    (insertModule addrLo new modules).count module =
      modules.count module + if new = module then 1 else 0 := by
  rw [insertModule_eq_orderedInsert, List.orderedInsert_count]

/-- The ways in which an ordinary tier list takes a module: in its tier, in a new tier behind
lower ones or on an empty bus, or in a new first tier without the others. -/
inductive TierInsertion (tier : Int) (new : δ) :
    List (ModuleTierNode δ) → List (ModuleTierNode δ) → Prop
  | found (before : List (ModuleTierNode δ)) (node : ModuleTierNode δ)
      (rest : List (ModuleTierNode δ)) (below : ∀ other ∈ before, other.tier < tier)
      (tier_eq : node.tier = tier) :
      TierInsertion tier new (before ++ node :: rest)
        (before ++ { node with modules := insertModule addrLo new node.modules } :: rest)
  | added (before after : List (ModuleTierNode δ)) (below : ∀ other ∈ before, other.tier < tier)
      (above : ∀ other ∈ after.head?, tier < other.tier) (linked : before ≠ [] ∨ after = []) :
      TierInsertion tier new (before ++ after) (before ++ { tier, modules := [new] } :: after)
  | unlinked (first : ModuleTierNode δ) (rest : List (ModuleTierNode δ))
      (above : tier < first.tier) :
      TierInsertion tier new (first :: rest) [{ tier, modules := [new] }]

theorem tierInsertion_of_addTier {allocated : Bool} {tier : Int} {new : δ}
    {before after tiers : List (ModuleTierNode δ)} (below : ∀ other ∈ before, other.tier < tier)
    (above : ∀ other ∈ after.head?, tier < other.tier)
    (added : addTier allocated tier new before after = some tiers) :
    TierInsertion addrLo tier new (before ++ after) tiers := by
  unfold addTier at added
  split at added
  case isFalse => cases added
  case isTrue =>
    split at added
    case isFalse nonempty =>
      obtain rfl := Option.some.inj added
      exact .added before after below above (.inl fun empty => nonempty (by simp [empty]))
    case isTrue isEmpty =>
      obtain rfl := Option.some.inj added
      obtain rfl := List.isEmpty_iff.mp isEmpty
      cases after with
      | nil => exact .added [] [] below above (.inr rfl)
      | cons first rest => exact .unlinked first rest (above first rfl)

theorem tierInsertion_of_insertTier {allocated : Bool} {tier : Int} {new : δ}
    {tiers inserted : List (ModuleTierNode δ)}
    (insertion : insertTier addrLo allocated tier new tiers = some inserted) :
    TierInsertion addrLo tier new tiers inserted := by
  have split_eq := List.takeWhile_append_dropWhile
    (p := fun node : ModuleTierNode δ => decide (node.tier < tier)) (l := tiers)
  have below : ∀ other ∈ tiers.takeWhile fun node => decide (node.tier < tier),
      other.tier < tier := fun other other_mem => by
    simpa using List.mem_takeWhile_imp other_mem
  unfold insertTier at insertion
  split at insertion
  case h_1 after_eq =>
    rw [after_eq] at split_eq
    rw [← split_eq]
    exact tierInsertion_of_addTier addrLo below (by simp) insertion
  case h_2 found rest after_eq =>
    have reached : ¬ found.tier < tier := by
      have := List.head?_dropWhile_not (fun node : ModuleTierNode δ => decide (node.tier < tier))
        tiers
      simpa [after_eq] using this
    rw [after_eq] at split_eq
    rw [← split_eq]
    split at insertion
    case isTrue tier_eq =>
      obtain rfl := Option.some.inj insertion
      exact .found _ found rest below tier_eq
    case isFalse tier_ne =>
      refine tierInsertion_of_addTier addrLo below (fun other other_mem => ?_) insertion
      obtain rfl : found = other := by simpa using other_mem
      omega

end Insert

/-! ## The lists of a bus -/

/-- The tiers kept in the sorted list. -/
def Ordinary (tier : Int) : Prop := tier ≠ tierPreOp ∧ tier ≠ tierPostOp

instance (tier : Int) : Decidable (Ordinary tier) :=
  inferInstanceAs (Decidable (_ ∧ _))

/-- The modules that a list of tiers keeps under a number. -/
def listed (tiers : List (ModuleTierNode δ)) (tier : Int) : List δ :=
  (tiers.filter fun node => node.tier = tier).flatMap ModuleTierNode.modules

/-- The module list of a tier. -/
def chain (bus : Bus δ) (tier : Int) : List δ :=
  if tier = tierPreOp then (bus.preOp.map ModuleTierNode.modules).getD []
  else if tier = tierPostOp then (bus.postOp.map ModuleTierNode.modules).getD []
  else listed bus.modules tier

/-- All tier nodes of a bus. -/
def nodes (bus : Bus δ) : List (ModuleTierNode δ) :=
  bus.preOp.toList ++ bus.modules ++ bus.postOp.toList

@[simp]
theorem listed_append (front back : List (ModuleTierNode δ)) (tier : Int) :
    listed (front ++ back) tier = listed front tier ++ listed back tier := by
  simp [listed]

@[simp]
theorem listed_cons (node : ModuleTierNode δ) (rest : List (ModuleTierNode δ)) (tier : Int) :
    listed (node :: rest) tier =
      (if node.tier = tier then node.modules else []) ++ listed rest tier := by
  by_cases tier_eq : node.tier = tier <;> simp [listed, tier_eq]

/-- A bus in order: ordinary tiers strictly ascending, each list ascending by first address. -/
structure Sorted (addrLo : δ → Word) (bus : Bus δ) : Prop where
  /-- The ordinary tiers ascend. -/
  tiers : bus.modules.Pairwise fun left right => left.tier < right.tier
  /-- They are ordinary. -/
  ordinary : ∀ node ∈ bus.modules, Ordinary node.tier
  /-- Every module list ascends. -/
  chains : ∀ node ∈ bus.nodes,
    node.modules.Pairwise fun left right => addrLo left ≤ addrLo right

theorem TierInsertion.tiers {addrLo : δ → Word} {tier : Int} {new : δ}
    {tiers inserted : List (ModuleTierNode δ)}
    (insertion : TierInsertion addrLo tier new tiers inserted)
    (ascending : tiers.Pairwise fun left right => left.tier < right.tier) :
    inserted.Pairwise fun left right => left.tier < right.tier := by
  cases insertion with
  | found before node rest below tier_eq =>
      rw [List.pairwise_append, List.pairwise_cons] at ascending ⊢
      obtain ⟨before_ascending, ⟨above, rest_ascending⟩, across⟩ := ascending
      refine ⟨before_ascending, ⟨above, rest_ascending⟩, fun left left_mem right right_mem => ?_⟩
      rcases List.mem_cons.mp right_mem with rfl | right_mem
      · exact across left left_mem node List.mem_cons_self
      · exact across left left_mem right (List.mem_cons_of_mem _ right_mem)
  | added before after below above linked =>
      rw [List.pairwise_append] at ascending
      rw [List.pairwise_append, List.pairwise_cons]
      obtain ⟨before_ascending, after_ascending, across⟩ := ascending
      have above_all : ∀ other ∈ after, tier < other.tier := by
        cases after with
        | nil => simp
        | cons first rest =>
            have first_above : tier < first.tier := above first rfl
            intro other other_mem
            rcases List.mem_cons.mp other_mem with rfl | other_mem
            · exact first_above
            · exact first_above.trans ((List.pairwise_cons.mp after_ascending).1 other other_mem)
      refine ⟨before_ascending, ⟨above_all, after_ascending⟩, ?_⟩
      intro left left_mem right right_mem
      rcases List.mem_cons.mp right_mem with rfl | right_mem
      · exact below left left_mem
      · exact across left left_mem right right_mem
  | unlinked first rest above => exact List.pairwise_singleton _ _

/-- Every node after an insertion is an old one, an old one with the module inserted, or new. -/
theorem TierInsertion.nodes {addrLo : δ → Word} {tier : Int} {new : δ}
    {tiers inserted : List (ModuleTierNode δ)}
    (insertion : TierInsertion addrLo tier new tiers inserted) :
    ∀ node ∈ inserted, node ∈ tiers ∨ node.tier = tier ∧
      (node.modules = [new] ∨
        ∃ old ∈ tiers, node.modules = insertModule addrLo new old.modules) := by
  intro node node_mem
  cases insertion with
  | found before old rest below tier_eq =>
      rcases List.mem_append.mp node_mem with before_mem | rest_mem
      · exact .inl (List.mem_append_left _ before_mem)
      · rcases List.mem_cons.mp rest_mem with rfl | rest_mem
        · exact .inr ⟨tier_eq, .inr ⟨old, by simp, rfl⟩⟩
        · exact .inl (List.mem_append_right _ (List.mem_cons_of_mem _ rest_mem))
  | added before after below above linked =>
      rcases List.mem_append.mp node_mem with before_mem | after_mem
      · exact .inl (List.mem_append_left _ before_mem)
      · rcases List.mem_cons.mp after_mem with rfl | after_mem
        · exact .inr ⟨rfl, .inl rfl⟩
        · exact .inl (List.mem_append_right _ after_mem)
  | unlinked first rest above =>
      obtain rfl := List.mem_singleton.mp node_mem
      exact .inr ⟨rfl, .inl rfl⟩

/-- An insertion adds its module once, unless it leaves the other tiers behind. -/
theorem TierInsertion.count {addrLo : δ → Word} [DecidableEq δ] {tier : Int} {new : δ}
    {tiers inserted : List (ModuleTierNode δ)}
    (insertion : TierInsertion addrLo tier new tiers inserted) :
    ((∃ first ∈ tiers.head?, tier < first.tier) ∧ inserted = [{ tier, modules := [new] }]) ∨
      (∀ first ∈ tiers.head?, first.tier ≤ tier) ∧
        ∀ other module, (listed inserted other).count module =
          (listed tiers other).count module + if tier = other ∧ new = module then 1 else 0 := by
  cases insertion with
  | found before node rest below tier_eq =>
      refine .inr ⟨fun first first_mem => ?_, fun other module => ?_⟩
      · cases before with
        | nil => exact (by simpa using first_mem : node = first) ▸ tier_eq.le
        | cons lowest _ =>
            obtain rfl : lowest = first := by simpa using first_mem
            exact (below _ List.mem_cons_self).le
      subst tier_eq
      by_cases same : node.tier = other <;> by_cases eq : new = module <;>
        (simp [same, eq, count_insertModule]; try omega)
  | added before after below above linked =>
      refine .inr ⟨fun first first_mem => ?_, fun other module => ?_⟩
      · cases before with
        | nil =>
            obtain rfl : after = [] := by simpa using linked
            cases first_mem
        | cons lowest _ =>
            obtain rfl : lowest = first := by simpa using first_mem
            exact (below _ List.mem_cons_self).le
      by_cases same : tier = other <;> by_cases eq : new = module <;> (simp [same, eq]; try omega)
  | unlinked first rest above => exact .inl ⟨⟨first, rfl, above⟩, rfl⟩

/-- The first tier stays the first, or is the new one on an empty bus. -/
theorem TierInsertion.head {addrLo : δ → Word} {tier : Int} {new : δ}
    {tiers inserted : List (ModuleTierNode δ)}
    (insertion : TierInsertion addrLo tier new tiers inserted)
    (reached : ∀ first ∈ tiers.head?, first.tier ≤ tier) :
    inserted.head?.map ModuleTierNode.tier =
      (tiers.head?.map ModuleTierNode.tier).or (some tier) := by
  cases insertion with
  | found before node rest below tier_eq => cases before <;> simp
  | added before after below above linked =>
      cases before with
      | nil =>
          obtain rfl : after = [] := by simpa using linked
          rfl
      | cons => simp
  | unlinked first rest above => exact absurd (reached first rfl) (not_le.mpr above)

/-! ## One registration -/

section Step

variable {addrLo : δ → Word} [DecidableEq δ]

variable (addrLo) in
/-- What a registration that returns true does to the lists of a bus. -/
inductive Takes (bus : Bus δ) (call : Registration δ) (after : Bus δ) : Prop
  | preOp (tier_eq : call.tier = tierPreOp)
      (preOp_eq : ∃ tier, after.preOp =
        some { tier, modules := insertModule addrLo call.module (bus.chain tierPreOp) })
      (modules_eq : after.modules = bus.modules) (postOp_eq : after.postOp = bus.postOp)
  | postOp (tier_eq : call.tier = tierPostOp)
      (postOp_eq : ∃ tier, after.postOp =
        some { tier, modules := insertModule addrLo call.module (bus.chain tierPostOp) })
      (modules_eq : after.modules = bus.modules) (preOp_eq : after.preOp = bus.preOp)
  | ordinary (ordinary : Ordinary call.tier)
      (insertion : TierInsertion addrLo call.tier call.module bus.modules after.modules)
      (preOp_eq : after.preOp = bus.preOp) (postOp_eq : after.postOp = bus.postOp)

omit [DecidableEq δ] in
theorem insertObserver_isSome {allocated : Bool} {tier : Int} {new : δ}
    {observers : Option (ModuleTierNode δ)}
    (inserted : (insertObserver addrLo allocated tier new observers).isSome) :
    ∃ number, insertObserver addrLo allocated tier new observers =
      some ⟨number, insertModule addrLo new
        ((observers.map ModuleTierNode.modules).getD [])⟩ := by
  cases observers with
  | some node => exact ⟨node.tier, rfl⟩
  | none =>
      cases allocated with
      | true => exact ⟨tier, rfl⟩
      | false => cases inserted

theorem takes_of_registerModule {bus : Bus δ} {call : Registration δ}
    (accepted : (bus.registerModule addrLo call).1 = true) :
    Takes addrLo bus call (bus.registerModule addrLo call).2 := by
  unfold registerModule at accepted ⊢
  split at accepted
  case isFalse => cases accepted
  case isTrue node =>
    rw [if_pos node]
    split at accepted
    case isTrue tier_eq =>
      obtain ⟨number, observer_eq⟩ := insertObserver_isSome accepted
      rw [if_pos tier_eq]
      exact .preOp tier_eq ⟨number, observer_eq⟩ rfl rfl
    case isFalse notPre =>
      rw [if_neg notPre]
      split at accepted
      case isTrue tier_eq =>
        obtain ⟨number, observer_eq⟩ := insertObserver_isSome accepted
        rw [if_pos tier_eq]
        exact .postOp tier_eq ⟨number, observer_eq⟩ rfl rfl
      case isFalse notPost =>
        rw [if_neg notPost]
        split at accepted
        case h_2 => cases accepted
        case h_1 modules insertion =>
          exact .ordinary ⟨notPre, notPost⟩ (tierInsertion_of_insertTier addrLo insertion) rfl rfl

omit [DecidableEq δ] in
/-- Registration keeps a bus in order, whatever it loses. -/
theorem Takes.sorted {bus after : Bus δ} {call : Registration δ}
    (takes : Takes addrLo bus call after) (sorted : bus.Sorted addrLo) : after.Sorted addrLo := by
  obtain ⟨tiers, ordinary, chains⟩ := sorted
  have observer : ∀ tier, tier = tierPreOp ∨ tier = tierPostOp →
      (bus.chain tier).Pairwise fun left right => addrLo left ≤ addrLo right := by
    rintro tier (rfl | rfl)
    · cases pre : bus.preOp with
      | none => simp [chain, pre]
      | some node => simpa [chain, pre] using chains node (by simp [nodes, pre])
    · cases post : bus.postOp with
      | none => simp [chain, post, tierPreOp, tierPostOp]
      | some node =>
          simpa [chain, post, tierPreOp, tierPostOp] using chains node (by simp [nodes, post])
  cases takes with
  | preOp tier_eq preOp_eq modules_eq postOp_eq =>
      obtain ⟨number, preOp_eq⟩ := preOp_eq
      refine ⟨modules_eq ▸ tiers, modules_eq ▸ ordinary, fun node node_mem => ?_⟩
      rw [nodes, preOp_eq, modules_eq, postOp_eq] at node_mem
      simp only [Option.toList_some, List.cons_append, List.nil_append, List.mem_cons] at node_mem
      rcases node_mem with rfl | node_mem
      · exact insertModule_pairwise addrLo (observer _ (.inl rfl))
      · rw [nodes, List.append_assoc] at chains
        exact chains node (List.mem_append_right _ node_mem)
  | postOp tier_eq postOp_eq modules_eq preOp_eq =>
      obtain ⟨number, postOp_eq⟩ := postOp_eq
      refine ⟨modules_eq ▸ tiers, modules_eq ▸ ordinary, fun node node_mem => ?_⟩
      rw [nodes, preOp_eq, modules_eq, postOp_eq] at node_mem
      simp only [Option.toList_some, List.mem_append, List.mem_singleton] at node_mem
      rcases node_mem with node_mem | rfl
      · exact chains node (List.mem_append_left _ (List.mem_append.mpr node_mem))
      · exact insertModule_pairwise addrLo (observer _ (.inr rfl))
  | ordinary isOrdinary insertion preOp_eq postOp_eq =>
      refine ⟨insertion.tiers tiers, fun node node_mem => ?_, fun node node_mem => ?_⟩
      · rcases insertion.nodes node node_mem with old | ⟨tier_eq, -⟩
        · exact ordinary node old
        · exact tier_eq ▸ isOrdinary
      · rw [nodes, preOp_eq, postOp_eq] at node_mem
        simp only [List.mem_append] at node_mem
        rcases node_mem with (pre | inserted) | post
        · exact chains node (by simp [nodes, pre])
        · rcases insertion.nodes node inserted with old | ⟨-, single | ⟨old, old_mem, merged⟩⟩
          · exact chains node (by simp [nodes, old])
          · rw [single]
            exact List.pairwise_singleton _ _
          · rw [merged]
            exact insertModule_pairwise addrLo (chains old (by simp [nodes, old_mem]))
        · exact chains node (by simp [nodes, post])

/-- A registration of an ordinary tier below the first. -/
def Drops (bus : Bus δ) (call : Registration δ) : Prop :=
  Ordinary call.tier ∧ ∃ first ∈ bus.modules.head?, call.tier < first.tier

/-- A registration outside the ordinary tiers adds its module once. -/
theorem chain_of_observer {bus after : Bus δ} {call : Registration δ} {own : Int}
    (tier_eq : call.tier = own)
    (own_eq : after.chain own = insertModule addrLo call.module (bus.chain own))
    (others_eq : ∀ tier, tier ≠ own → after.chain tier = bus.chain tier)
    (tier : Int) (module : δ) :
    (after.chain tier).count module =
      (bus.chain tier).count module + call.counts tier module := by
  by_cases same : tier = own
  · subst same
    rw [own_eq, count_insertModule]
    simp [Registration.counts, tier_eq]
  · rw [others_eq tier same, Registration.counts, tier_eq]
    simp [Ne.symm same]

theorem Takes.count {bus after : Bus δ} {call : Registration δ}
    (takes : Takes addrLo bus call after) :
    (bus.Drops call ∧ after.modules = [{ tier := call.tier, modules := [call.module] }] ∧
        after.preOp = bus.preOp ∧ after.postOp = bus.postOp) ∨
      ¬ bus.Drops call ∧ ∀ tier module, (after.chain tier).count module =
        (bus.chain tier).count module + call.counts tier module := by
  cases takes with
  | preOp tier_eq preOp_eq modules_eq postOp_eq =>
      obtain ⟨number, preOp_eq⟩ := preOp_eq
      have own_eq : after.chain tierPreOp =
          insertModule addrLo call.module (bus.chain tierPreOp) := by
        simp [chain, preOp_eq]
      refine .inr ⟨fun drops => drops.1.1 tier_eq,
        chain_of_observer tier_eq own_eq fun tier other => ?_⟩
      · rw [chain, chain, if_neg other, if_neg other, modules_eq, postOp_eq]
  | postOp tier_eq postOp_eq modules_eq preOp_eq =>
      obtain ⟨number, postOp_eq⟩ := postOp_eq
      have own_eq : after.chain tierPostOp =
          insertModule addrLo call.module (bus.chain tierPostOp) := by
        simp [chain, postOp_eq, tierPreOp, tierPostOp]
      refine .inr ⟨fun drops => drops.1.2 tier_eq,
        chain_of_observer tier_eq own_eq fun tier other => ?_⟩
      · simp only [chain, if_neg other, modules_eq, preOp_eq]
  | ordinary isOrdinary insertion preOp_eq postOp_eq =>
      rcases insertion.count with ⟨above, modules_eq⟩ | ⟨reached, adds⟩
      · exact .inl ⟨⟨isOrdinary, above⟩, modules_eq, preOp_eq, postOp_eq⟩
      · refine .inr ⟨fun drops => ?_, fun tier module => ?_⟩
        · obtain ⟨-, first, first_mem, below⟩ := drops
          exact absurd (reached first first_mem) (not_le.mpr below)
        unfold chain
        split
        case isTrue tier_eq => simp [preOp_eq, Registration.counts, tier_eq, isOrdinary.1]
        case isFalse =>
          split
          case isTrue tier_eq => simp [postOp_eq, Registration.counts, tier_eq, isOrdinary.2]
          case isFalse => exact adds tier module

theorem Takes.count_le {bus after : Bus δ} {call : Registration δ}
    (takes : Takes addrLo bus call after) (tier : Int) (module : δ) :
    (after.chain tier).count module ≤
      (bus.chain tier).count module + call.counts tier module := by
  rcases takes.count with ⟨-, modules_eq, preOp_eq, postOp_eq⟩ | ⟨-, adds⟩
  · unfold chain
    split
    case isTrue => simp [preOp_eq]
    case isFalse =>
      split
      case isTrue => simp [postOp_eq]
      case isFalse =>
        rw [modules_eq, Registration.counts]
        by_cases same : call.tier = tier <;> by_cases eq : call.module = module <;>
          simp [listed, same, eq]
  · exact (adds tier module).le

omit [DecidableEq δ] in
/-- Without a lower tier the first ordinary tier stays the first. -/
theorem Takes.head {bus after : Bus δ} {call : Registration δ}
    (takes : Takes addrLo bus call after) (keeps : ¬ bus.Drops call) :
    after.modules.head?.map ModuleTierNode.tier =
      (bus.modules.head?.map ModuleTierNode.tier).or
        (if Ordinary call.tier then some call.tier else none) := by
  cases takes with
  | preOp tier_eq preOp_eq modules_eq postOp_eq =>
      rw [modules_eq, if_neg fun ordinary => ordinary.1 tier_eq, Option.or_none]
  | postOp tier_eq postOp_eq modules_eq preOp_eq =>
      rw [modules_eq, if_neg fun ordinary => ordinary.2 tier_eq, Option.or_none]
  | ordinary isOrdinary insertion preOp_eq postOp_eq =>
      rw [if_pos isOrdinary]
      refine insertion.head fun first first_mem => ?_
      by_contra above
      exact keeps ⟨isOrdinary, first, first_mem, not_le.mp above⟩

end Step

/-! ## Sequences of registrations -/

section Run

variable {addrLo : δ → Word} [DecidableEq δ]

/-- The number of registrations of a module in a tier. -/
def registered (calls : List (Registration δ)) (tier : Int) (module : δ) : Nat :=
  calls.countP fun call => call.tier = tier ∧ call.module = module

/-- The ordinary tiers of a sequence of registrations, in order. -/
def ordinaryTiers (calls : List (Registration δ)) : List Int :=
  (calls.map Registration.tier).filter fun tier => Ordinary tier

/-- A sorted bus on which every module occurs in the list of its tier, and in no other, as often
as it was registered. -/
structure Lossless (addrLo : δ → Word) (calls : List (Registration δ)) (bus : Bus δ) : Prop where
  /-- Tiers and lists ascend. -/
  sorted : bus.Sorted addrLo
  /-- Occurrences are registrations. -/
  count : ∀ tier module, (bus.chain tier).count module = registered calls tier module

/-- No ordinary tier lies below the one registered first. -/
def FirstLowest (calls : List (Registration δ)) : Prop :=
  ∀ first ∈ (ordinaryTiers calls).head?, ∀ tier ∈ ordinaryTiers calls, first ≤ tier

instance (calls : List (Registration δ)) : Decidable (FirstLowest calls) :=
  inferInstanceAs (Decidable (∀ first ∈ (ordinaryTiers calls).head?,
    ∀ tier ∈ ordinaryTiers calls, first ≤ tier))

/-- A lossless bus that keeps the first registered tier in front. -/
structure Complete (calls : List (Registration δ)) (bus : Bus δ) : Prop where
  /-- Occurrences are registrations. -/
  count : ∀ tier module, (bus.chain tier).count module = registered calls tier module
  /-- The first tier is the one registered first. -/
  head : bus.modules.head?.map ModuleTierNode.tier = (ordinaryTiers calls).head?
  /-- It is the lowest. -/
  lowest : FirstLowest calls

/-- A bus that lacks a registered module. -/
def Lacks (calls : List (Registration δ)) (bus : Bus δ) : Prop :=
  ∃ tier module, (bus.chain tier).count module < registered calls tier module

theorem registered_snoc (calls : List (Registration δ)) (call : Registration δ) (tier : Int)
    (module : δ) :
    registered (calls ++ [call]) tier module =
      registered calls tier module + call.counts tier module := by
  simp [registered, Registration.counts, List.countP_singleton]

omit [DecidableEq δ] in
theorem ordinaryTiers_snoc (calls : List (Registration δ)) (call : Registration δ) :
    ordinaryTiers (calls ++ [call]) =
      ordinaryTiers calls ++ if Ordinary call.tier then [call.tier] else [] := by
  by_cases ordinary : Ordinary call.tier <;> simp [ordinaryTiers, ordinary]

omit [DecidableEq δ] in
theorem FirstLowest.of_snoc {calls : List (Registration δ)} {call : Registration δ}
    (lowest : FirstLowest (calls ++ [call])) : FirstLowest calls := by
  intro first first_mem tier tier_mem
  rw [FirstLowest, ordinaryTiers_snoc] at lowest
  refine lowest first ?_ tier (List.mem_append_left _ tier_mem)
  rw [List.head?_append, first_mem]
  rfl

theorem Complete.snoc {calls : List (Registration δ)} {bus after : Bus δ} {call : Registration δ}
    (complete : Complete calls bus) (takes : Takes addrLo bus call after)
    (keeps : ¬ bus.Drops call) : Complete (calls ++ [call]) after where
  count tier module := by
    rcases takes.count with ⟨drops, -⟩ | ⟨-, adds⟩
    · exact absurd drops keeps
    · rw [adds, complete.count, registered_snoc]
  head := by
    rw [takes.head keeps, complete.head, ordinaryTiers_snoc, List.head?_append]
    split <;> rfl
  lowest := by
    intro first first_mem tier tier_mem
    rw [ordinaryTiers_snoc] at first_mem tier_mem
    cases head_eq : (ordinaryTiers calls).head? with
    | none =>
        obtain empty := List.head?_eq_none_iff.mp head_eq
        rw [empty] at first_mem tier_mem
        by_cases ordinary : Ordinary call.tier
        · simp_all
        · simp [ordinary] at tier_mem
    | some lowest =>
        obtain rfl : lowest = first := by simpa [List.head?_append, head_eq] using first_mem
        rcases List.mem_append.mp tier_mem with old | new
        · exact complete.lowest lowest head_eq tier old
        · by_cases ordinary : Ordinary call.tier
          · obtain rfl : tier = call.tier := by simpa [ordinary] using new
            by_contra below
            have first_eq := complete.head.trans head_eq
            obtain ⟨node, node_mem, rfl⟩ := Option.map_eq_some_iff.mp first_eq
            exact keeps ⟨ordinary, node, node_mem, not_le.mp below⟩
          · simp [ordinary] at new

/-- A registration below the first tier loses what is registered there. -/
theorem Complete.lacks {calls : List (Registration δ)} {bus after : Bus δ}
    {call : Registration δ} (complete : Complete calls bus) (drops : bus.Drops call)
    (unlinked : after.modules = [{ tier := call.tier, modules := [call.module] }]) :
    Lacks (calls ++ [call]) after ∧ ¬ FirstLowest (calls ++ [call]) := by
  obtain ⟨ordinary, first, first_mem, below⟩ := drops
  have head_eq : (ordinaryTiers calls).head? = some first.tier := by
    rw [← complete.head, first_mem]
    rfl
  have first_ordinary := List.mem_of_mem_head? head_eq
  obtain ⟨tier_mem, isOrdinary⟩ := List.mem_filter.mp first_ordinary
  obtain ⟨early, early_mem, early_eq⟩ := List.mem_map.mp tier_mem
  have isOrdinary : Ordinary first.tier := by simpa using isOrdinary
  constructor
  · refine ⟨first.tier, early.module, ?_⟩
    have gone : after.chain first.tier = [] := by
      rw [chain, if_neg isOrdinary.1, if_neg isOrdinary.2, unlinked]
      simp [listed, below.ne]
    have counted : 0 < registered calls first.tier early.module :=
      List.countP_pos_iff.mpr ⟨early, early_mem, by simp [early_eq]⟩
    rw [gone, registered_snoc, List.count_nil]
    omega
  · intro lowest
    have := lowest first.tier (by simp [ordinaryTiers_snoc, head_eq, List.head?_append]) call.tier
      (by simp [ordinaryTiers_snoc, ordinary])
    omega

theorem Lacks.snoc {calls : List (Registration δ)} {bus after : Bus δ} {call : Registration δ}
    (lacks : Lacks calls bus) (takes : Takes addrLo bus call after) :
    Lacks (calls ++ [call]) after := by
  obtain ⟨tier, module, less⟩ := lacks
  refine ⟨tier, module, ?_⟩
  have bound := takes.count_le tier module
  rw [registered_snoc]
  omega

/-- After accepted registrations a bus is sorted, and either complete or missing a module
registered before a lower tier. -/
theorem registering_spec (uninitialised : MembusCache) (refCount : δ → Nat)
    (calls : List (Registration δ))
    (accepted : ∀ outcome ∈ (registering addrLo).trace (alloc uninitialised refCount) calls,
      outcome = true) :
    let bus := (registering addrLo).run (alloc uninitialised refCount) calls
    bus.Sorted addrLo ∧ (Complete calls bus ∨ Lacks calls bus ∧ ¬ FirstLowest calls) := by
  induction calls using List.reverseRecOn with
  | nil =>
      refine ⟨⟨List.Pairwise.nil, by simp [alloc], by simp [alloc, nodes]⟩, .inl ⟨?_, rfl, ?_⟩⟩
      · intro tier module
        simp [alloc, chain, listed, registered]
      · simp [FirstLowest, ordinaryTiers]
  | append_singleton calls call ih =>
      rw [Lib.Machine.trace_append] at accepted
      obtain ⟨sorted, spec⟩ := ih fun outcome outcome_mem =>
        accepted outcome (List.mem_append_left _ outcome_mem)
      rw [Lib.Machine.run_append]
      set bus := (registering addrLo).run (alloc uninitialised refCount) calls
      have takes : Takes addrLo bus call ((registering addrLo).run bus [call]) :=
        takes_of_registerModule (accepted _ (List.mem_append_right _ List.mem_cons_self))
      refine ⟨takes.sorted sorted, ?_⟩
      rcases spec with complete | ⟨lacks, notLowest⟩
      · by_cases drops : bus.Drops call
        · rcases takes.count with ⟨-, unlinked, -⟩ | ⟨keeps, -⟩
          · exact .inr (complete.lacks drops unlinked)
          · exact absurd drops keeps
        · exact .inl (complete.snoc takes drops)
      · exact .inr ⟨lacks.snoc takes, fun lowest => notLowest lowest.of_snoc⟩

/-- After any accepted registrations the bus is sorted and lossless exactly when no ordinary tier
lies below the one registered first. -/
theorem lossless_iff (uninitialised : MembusCache) (refCount : δ → Nat)
    (calls : List (Registration δ))
    (accepted : ∀ outcome ∈ (registering addrLo).trace (alloc uninitialised refCount) calls,
      outcome = true) :
    Lossless addrLo calls ((registering addrLo).run (alloc uninitialised refCount) calls) ↔
      FirstLowest calls := by
  obtain ⟨sorted, complete | ⟨⟨tier, module, less⟩, notLowest⟩⟩ :=
    registering_spec uninitialised refCount calls accepted
  · exact iff_of_true ⟨sorted, complete.count⟩ complete.lowest
  · refine iff_of_false (fun lossless => ?_) notLowest
    exact absurd (lossless.count tier module) less.ne

end Run

/-- Two tiers registered in ascending order. -/
theorem lossless_ascending :
    Lossless id [Registration.granted 1 0x0000, Registration.granted 2 0x8000]
      ((registering id).run (alloc MembusCache.blank fun _ => 0)
        [Registration.granted 1 0x0000, Registration.granted 2 0x8000]) :=
  (lossless_iff MembusCache.blank (fun _ => 0) _ (by decide)).mpr (by decide)

/-- A tier registered below the first one takes the place of all others. -/
theorem not_lossless_descending :
    (registering id).trace (alloc MembusCache.blank fun _ => 0)
        [Registration.granted 2 0x8000, Registration.granted 1 0x0000] = [true, true] ∧
      ¬ Lossless id [Registration.granted 2 0x8000, Registration.granted 1 0x0000]
        ((registering id).run (alloc MembusCache.blank fun _ => 0)
          [Registration.granted 2 0x8000, Registration.granted 1 0x0000]) := by
  refine ⟨by decide, fun lossless => ?_⟩
  exact absurd (lossless.count 2 0x8000) (by decide)

end Bus
end System6502
