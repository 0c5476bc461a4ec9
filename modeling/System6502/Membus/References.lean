import System6502.Membus.Transaction
import Mathlib.Algebra.BigOperators.Intervals

/-!
# References to modules

The reference counts of modules, the library calls that change them, and the runs of calls in which
every module lives as long as somebody holds a reference to it.
-/

namespace System6502

open Lib

/-- The part of `membus_module_t` that outlives its kind. -/
structure ModuleHeader where
  /-- `ref_count`. -/
  refCount : BitVec 32
  /-- `addr_range`. -/
  addrRange : MemoryAddrRange
  /-- The module that a mirror shows. -/
  original : Option Nat
  deriving DecidableEq, Repr

/-- The modules and buses that the library has allocated, by the order of their allocation. -/
structure Heap where
  /-- The number of modules allocated so far. -/
  allocated : Nat
  /-- The modules that are not destroyed. -/
  modules : Nat → Option ModuleHeader
  /-- The number of buses allocated so far. -/
  opened : Nat
  /-- The buses that are not freed. -/
  buses : Nat → Option (Bus Nat)

/-- What a library call does that its caller can notice. -/
inductive HeapEvent
  /-- A module is destroyed. -/
  | destroyed (module : Nat)
  /-- `membus_register_module` returns. -/
  | registered (accepted : Bool)
  /-- A module or bus is used that no longer exists. -/
  | fault
  deriving DecidableEq, Repr

namespace Heap

/-- Nothing is allocated. -/
def empty : Heap where
  allocated := 0
  modules _ := none
  opened := 0
  buses _ := none

/-- The first address of a module. -/
def addrLo (heap : Heap) (module : Nat) : Word :=
  ((heap.modules module).map fun header => header.addrRange.addrLo).getD 0

/-- The module that a mirror shows. -/
def original (heap : Heap) (mirror : Nat) : Option Nat :=
  (heap.modules mirror).bind ModuleHeader.original

/-- Replace the record of a module. -/
def setModule (heap : Heap) (module : Nat) (header : Option ModuleHeader) : Heap :=
  { heap with modules := Function.update heap.modules module header }

/-- An allocation function of a module.  The header is copied from a constant that does not
mention `ref_count`. -/
def allocModule (heap : Heap) (addrRange : MemoryAddrRange) (original : Option Nat) : Heap :=
  { heap with
    allocated := heap.allocated + 1
    modules := Function.update heap.modules heap.allocated
      (some { refCount := 0, addrRange, original }) }

/-- `membus_module_retain`. -/
def retain (heap : Heap) (module : Nat) : Heap :=
  heap.setModule module
    ((heap.modules module).map fun header => { header with refCount := header.refCount + 1 })

/-- `membus_module_release` along at most so many mirrors. -/
def releaseWithin : Nat → Heap → Nat → Heap × List HeapEvent
  | 0, heap, _ => (heap, [.fault])
  | depth + 1, heap, module =>
      match heap.modules module with
      | none => (heap, [.fault])
      | some header =>
          let released :=
            heap.setModule module (some { header with refCount := header.refCount - 1 })
          if header.refCount - 1 = 0 then
            match header.original with
            | none => (released.setModule module none, [.destroyed module])
            | some original =>
                let (after, events) := releaseWithin depth released original
                (after.setModule module none, events ++ [.destroyed module])
          else (released, [])

/-- `membus_module_release`; a mirror is younger than the module it shows. -/
def release (heap : Heap) (module : Nat) : Heap × List HeapEvent :=
  heap.releaseWithin (module + 1) module

/-- Release modules one after the other. -/
def releaseAll : Heap → List Nat → Heap × List HeapEvent
  | heap, [] => (heap, [])
  | heap, module :: rest =>
      let (after, events) := heap.release module
      let (last, later) := releaseAll after rest
      (last, events ++ later)

/-- `membus_module_mirror_alloc`. -/
def allocMirror (heap : Heap) (granted : Bool) (module : Nat) (baseAddr : Word) : Heap :=
  match heap.modules module with
  | none => heap
  | some header =>
      let length := baseAddr.toNat + header.addrRange.addrLen.toNat
      if 1 ≤ length ∧ length - 1 < 0x10000 ∧ granted then
        let endAddr := baseAddr + header.addrRange.addrLen - 1
        (heap.allocModule (.withLoAndHi baseAddr endAddr) (some module)).retain module
      else heap

/-- `membus_register_module`. -/
def register (heap : Heap) (bus : Nat) (call : Registration Nat) : Heap × List HeapEvent :=
  match heap.buses bus, heap.modules call.module with
  | some found, some _ =>
      let (accepted, after) := found.registerModule heap.addrLo call
      let listed := { heap with buses := Function.update heap.buses bus (some after) }
      if call.allocations.node then
        let retained := listed.retain call.module
        if accepted ∨ ¬ Bus.Ordinary call.tier then (retained, [.registered accepted])
        else
          let (released, events) := retained.release call.module
          (released, events ++ [.registered false])
      else (listed, [.registered false])
  | _, _ => (heap, [.fault])

/-- `membus_free`. -/
def freeBus (heap : Heap) (bus : Nat) : Heap × List HeapEvent :=
  match heap.buses bus with
  | none => (heap, [.fault])
  | some found =>
      let (after, events) := heap.releaseAll (found.nodes.flatMap ModuleTierNode.modules)
      ({ after with buses := Function.update after.buses bus none }, events)

end Heap

/-! ## Calls and references -/

/-- A call of the library. -/
inductive HeapCall
  | allocModule (granted : Bool) (addrRange : MemoryAddrRange)
  | allocMirror (granted : Bool) (module : Nat) (baseAddr : Word)
  | retain (module : Nat)
  | release (module : Nat)
  | allocBus (granted : Bool)
  | register (bus : Nat) (call : Registration Nat)
  | freeBus (bus : Nat)
  deriving DecidableEq, Repr

/-- The heap with the references that the callers and the buses hold. -/
structure Holdings where
  /-- The heap. -/
  heap : Heap
  /-- The references of the callers to each module. -/
  owned : Nat → Nat
  /-- The successful registrations of each module on each bus that is not freed. -/
  registered : Nat → Nat → Nat

namespace Holdings

/-- Nothing is allocated and held. -/
def empty : Holdings where
  heap := Heap.empty
  owned _ := 0
  registered _ _ := 0

/-- The number of live mirrors of a module. -/
def mirrors (holdings : Holdings) (module : Nat) : Nat :=
  ((Finset.range holdings.heap.allocated).filter fun mirror =>
    holdings.heap.original mirror = some module).card

/-- The number of references to a module: of the callers, of buses, and of live mirrors. -/
def references (holdings : Holdings) (module : Nat) : Nat :=
  holdings.owned module +
    ∑ bus ∈ Finset.range holdings.heap.opened, holdings.registered bus module +
    holdings.mirrors module

/-- A reference of the callers more. -/
def own (holdings : Holdings) (module : Nat) : Nat → Nat :=
  Function.update holdings.owned module (holdings.owned module + 1)

/-- The holdings after a call, and its events. -/
def apply (holdings : Holdings) : HeapCall → Holdings × List HeapEvent
  | .allocModule granted addrRange =>
      if granted then
        ({ holdings with
          heap := holdings.heap.allocModule addrRange none
          owned := holdings.own holdings.heap.allocated }, [])
      else (holdings, [])
  | .allocMirror granted module baseAddr =>
      let after := holdings.heap.allocMirror granted module baseAddr
      ({ holdings with
        heap := after
        owned :=
          if after.allocated = holdings.heap.allocated then holdings.owned
          else holdings.own holdings.heap.allocated },
        if (holdings.heap.modules module).isSome then [] else [.fault])
  | .retain module =>
      ({ holdings with heap := holdings.heap.retain module, owned := holdings.own module },
        if (holdings.heap.modules module).isSome then [] else [.fault])
  | .release module =>
      let (after, events) := holdings.heap.release module
      ({ holdings with
        heap := after
        owned := Function.update holdings.owned module (holdings.owned module - 1) }, events)
  | .allocBus granted =>
      if granted then
        ({ holdings with
          heap :=
            { holdings.heap with
              opened := holdings.heap.opened + 1
              buses := Function.update holdings.heap.buses holdings.heap.opened
                (some (Bus.alloc MembusCache.blank fun _ => 0)) } }, [])
      else (holdings, [])
  | .register bus call =>
      let (after, events) := holdings.heap.register bus call
      ({ holdings with
        heap := after
        registered :=
          if .registered true ∈ events then
            Function.update holdings.registered bus
              (Function.update (holdings.registered bus) call.module
                (holdings.registered bus call.module + 1))
          else holdings.registered }, events)
  | .freeBus bus =>
      let (after, events) := holdings.heap.freeBus bus
      ({ holdings with
        heap := after
        registered := Function.update holdings.registered bus fun _ => 0 }, events)

end Holdings

/-- Calls one after the other. -/
def holding : Machine Holdings HeapCall HeapEvent where
  step := Holdings.apply

namespace Bus

/-- A bus has no node for a tier where `membus_register_module` looks for one. -/
def MissesTier {δ : Type*} (bus : Bus δ) (tier : Int) : Prop :=
  if tier = tierPreOp then bus.preOp.isNone = true
  else if tier = tierPostOp then bus.postOp.isNone = true
  else ∀ node ∈ (bus.modules.dropWhile fun node => node.tier < tier).head?, node.tier ≠ tier

instance {δ : Type*} (bus : Bus δ) (tier : Int) : Decidable (bus.MissesTier tier) := by
  unfold MissesTier
  infer_instance

end Bus

namespace Holdings

/-- The callers use modules to which there are references and buses that are not freed, and release
references of their own. -/
def Disciplined (holdings : Holdings) : HeapCall → Prop
  | .allocModule .. | .allocBus _ => True
  | .allocMirror _ module _ | .retain module => 0 < holdings.references module
  | .release module => 0 < holdings.owned module
  | .register bus call =>
      (holdings.heap.buses bus).isSome = true ∧ 0 < holdings.references call.module
  | .freeBus bus => (holdings.heap.buses bus).isSome = true

/-- Another reference does not overflow the count of a module. -/
def Countable (holdings : Holdings) (module : Nat) : Prop :=
  ∀ header ∈ holdings.heap.modules module, header.refCount ≠ 0xFFFFFFFF

/-- What is released leaves two references, no node for a tier is refused, and no count
overflows. -/
def Spares (holdings : Holdings) : HeapCall → Prop
  | .allocModule .. | .allocBus _ => True
  | .allocMirror _ module _ | .retain module => holdings.Countable module
  | .release module => 3 ≤ holdings.references module
  | .register bus call =>
      holdings.Countable call.module ∧ ∀ found ∈ holdings.heap.buses bus,
        call.allocations.node = true → call.allocations.tier = false →
          found.MissesTier call.tier →
            Bus.Ordinary call.tier ∧ 2 ≤ holdings.references call.module
  | .freeBus bus => ∀ module < holdings.heap.allocated, 0 < holdings.registered bus module →
      holdings.registered bus module + 2 ≤ holdings.references module

/-- A call destroys the modules that lose their last reference, once, and no others, uses nothing
that is destroyed, and changes nothing when it refuses a registration. -/
structure Exact (holdings : Holdings) (call : HeapCall) : Prop where
  /-- Nothing is used that no longer exists. -/
  faultless : .fault ∉ (holdings.apply call).2
  /-- The modules destroyed. -/
  destroyed : ∀ module, (holdings.apply call).2.count (.destroyed module) =
    if (holdings.heap.modules module).isSome = true ∧
      (holdings.apply call).1.references module = 0 then 1 else 0
  /-- The modules that live. -/
  lives : ∀ module, ((holdings.apply call).1.heap.modules module).isSome = true ↔
    0 < (holdings.apply call).1.references module
  /-- A refused registration. -/
  refused : .registered false ∈ (holdings.apply call).2 →
    (holdings.apply call).1.heap.modules = holdings.heap.modules ∧
      ∀ bus, ((holdings.apply call).1.heap.buses bus).map Bus.layout =
        (holdings.heap.buses bus).map Bus.layout

instance (holdings : Holdings) (call : HeapCall) : Decidable (holdings.Disciplined call) := by
  unfold Disciplined
  split <;> infer_instance

instance (holdings : Holdings) (module : Nat) : Decidable (holdings.Countable module) := by
  unfold Countable
  infer_instance

instance (holdings : Holdings) (call : HeapCall) : Decidable (holdings.Spares call) := by
  unfold Spares
  split <;> infer_instance

/-! ## Counts -/

end Holdings

namespace Heap

variable {heap : Heap} {module : Nat} {header : ModuleHeader}

/-- A release that leaves the count above zero only decreases it. -/
theorem release_of_spare (found : heap.modules module = some header)
    (spare : header.refCount ≠ 1) :
    heap.release module =
      (heap.setModule module (some { header with refCount := header.refCount - 1 }), []) := by
  have positive : header.refCount - 1 ≠ 0 := by
    bv_omega
  rw [release, releaseWithin, found]
  exact if_neg positive

theorem releaseAll_of_spare {list : List Nat}
    (spare : ∀ module ∈ list, ∃ header, heap.modules module = some header ∧
      list.count module < header.refCount.toNat) :
    ∃ after, heap.releaseAll list = (after, []) ∧ after.allocated = heap.allocated ∧
      after.opened = heap.opened ∧ after.buses = heap.buses ∧
      ∀ module, after.modules module = (heap.modules module).map fun header =>
        { header with refCount := header.refCount - BitVec.ofNat 32 (list.count module) } := by
  induction list generalizing heap with
  | nil =>
      refine ⟨heap, rfl, rfl, rfl, rfl, fun module => ?_⟩
      simp
  | cons first rest ih =>
      obtain ⟨header, found, count_lt⟩ := spare first List.mem_cons_self
      rw [List.count_cons_self] at count_lt
      have released := release_of_spare found (by bv_omega)
      set lower : ModuleHeader := { header with refCount := header.refCount - 1 } with lower_eq
      have next : ∀ module ∈ rest, ∃ header,
          (heap.setModule first (some lower)).modules module = some header ∧
          rest.count module < header.refCount.toNat := by
        intro module module_mem
        by_cases same : module = first
        · subst same
          refine ⟨lower, by simp [setModule], ?_⟩
          simp only [lower_eq]
          bv_omega
        · obtain ⟨other, other_found, other_lt⟩ := spare module (List.mem_cons_of_mem _ module_mem)
          rw [List.count_cons_of_ne (Ne.symm same)] at other_lt
          exact ⟨other, by simp [setModule, same, other_found], other_lt⟩
      obtain ⟨after, after_eq, allocated_eq, opened_eq, buses_eq, modules_eq⟩ := ih next
      refine ⟨after, ?_, allocated_eq, opened_eq, buses_eq, fun module => ?_⟩
      · simp only [releaseAll, released, after_eq, List.append_nil]
      · rw [modules_eq]
        by_cases same : module = first
        · subst same
          simp only [setModule, Function.update_self, found, Option.map_some, List.count_cons_self,
            lower_eq]
          congr 2
          bv_omega
        · simp only [setModule, Function.update_of_ne same, List.count_cons_of_ne (Ne.symm same)]

end Heap

/-! ## Occurrences on a bus -/

namespace Bus

variable {δ : Type*} [DecidableEq δ] {addrLo : δ → Word}

/-- The number of nodes of a bus that hold a module. -/
def occurrences (bus : Bus δ) (module : δ) : Nat :=
  (bus.nodes.flatMap ModuleTierNode.modules).count module

theorem occurrences_eq (bus : Bus δ) (module : δ) :
    bus.occurrences module =
      (bus.preOp.toList.flatMap ModuleTierNode.modules).count module +
        (bus.modules.flatMap ModuleTierNode.modules).count module +
        (bus.postOp.toList.flatMap ModuleTierNode.modules).count module := by
  rw [occurrences, nodes, List.flatMap_append, List.flatMap_append, List.count_append,
    List.count_append]

theorem TierInsertion.occurrences_le {tier : Int} {new : δ}
    {tiers inserted : List (ModuleTierNode δ)}
    (insertion : TierInsertion addrLo tier new tiers inserted) (module : δ) :
    (inserted.flatMap ModuleTierNode.modules).count module ≤
      (tiers.flatMap ModuleTierNode.modules).count module + if new = module then 1 else 0 := by
  cases insertion with
  | found before node rest below tier_eq =>
      simp only [List.flatMap_append, List.flatMap_cons, List.count_append, count_insertModule]
      omega
  | added before after below above linked =>
      simp only [List.flatMap_append, List.flatMap_cons, List.count_append,
        List.count_singleton, beq_iff_eq]
      omega
  | unlinked first rest above =>
      simp only [List.flatMap_cons, List.flatMap_nil, List.append_nil, List.count_singleton,
        beq_iff_eq]
      omega

omit [DecidableEq δ] in
theorem chain_tierPreOp (bus : Bus δ) :
    bus.chain tierPreOp = bus.preOp.toList.flatMap ModuleTierNode.modules := by
  rw [chain, if_pos rfl]
  cases bus.preOp <;> simp

omit [DecidableEq δ] in
theorem chain_tierPostOp (bus : Bus δ) :
    bus.chain tierPostOp = bus.postOp.toList.flatMap ModuleTierNode.modules := by
  rw [chain, if_neg (by decide), if_pos rfl]
  cases bus.postOp <;> simp

/-- An accepted registration adds at most one node, for its module. -/
theorem Takes.occurrences_le {bus after : Bus δ} {call : Registration δ}
    (takes : Takes addrLo bus call after) (module : δ) :
    after.occurrences module ≤
      bus.occurrences module + if call.module = module then 1 else 0 := by
  rw [occurrences_eq, occurrences_eq]
  cases takes with
  | preOp tier_eq preOp_eq modules_eq postOp_eq =>
      obtain ⟨number, preOp_eq⟩ := preOp_eq
      simp only [preOp_eq, modules_eq, postOp_eq, Option.toList_some, List.flatMap_cons,
        List.flatMap_nil, List.append_nil, count_insertModule, chain_tierPreOp]
      omega
  | postOp tier_eq postOp_eq modules_eq preOp_eq =>
      obtain ⟨number, postOp_eq⟩ := postOp_eq
      simp only [preOp_eq, modules_eq, postOp_eq, Option.toList_some, List.flatMap_cons,
        List.flatMap_nil, List.append_nil, count_insertModule, chain_tierPostOp]
      omega
  | ordinary isOrdinary insertion preOp_eq postOp_eq =>
      have inserted := insertion.occurrences_le module
      rw [preOp_eq, postOp_eq]
      omega

omit [DecidableEq δ] in
theorem insertTier_eq_none {allocated : Bool} {tier : Int} {new : δ}
    {tiers : List (ModuleTierNode δ)}
    (refused : insertTier addrLo allocated tier new tiers = none) :
    allocated = false ∧
      ∀ node ∈ (tiers.dropWhile fun node => node.tier < tier).head?, node.tier ≠ tier := by
  have added {before after : List (ModuleTierNode δ)}
      (none_eq : addTier allocated tier new before after = none) : allocated = false := by
    unfold addTier at none_eq
    cases allocated with
    | false => rfl
    | true =>
        rw [if_pos rfl] at none_eq
        split at none_eq <;> cases none_eq
  unfold insertTier at refused
  split at refused
  case h_1 after_eq =>
    rw [after_eq]
    exact ⟨added refused, by simp⟩
  case h_2 found rest after_eq =>
    split at refused
    case isTrue => cases refused
    case isFalse tier_ne =>
      rw [after_eq]
      exact ⟨added refused, by simpa using tier_ne⟩

/-- A registration with a node is refused only where a node for its tier is missing. -/
theorem missesTier_of_refused {bus : Bus δ} {call : Registration δ}
    (node : call.allocations.node = true)
    (refused : (bus.registerModule addrLo call).1 = false) :
    call.allocations.tier = false ∧ bus.MissesTier call.tier := by
  have observer {observers : Option (ModuleTierNode δ)} {number : Int}
      (isNone : (insertObserver addrLo call.allocations.tier number call.module
        observers).isSome = false) :
      call.allocations.tier = false ∧ observers.isNone = true := by
    cases observers with
    | some => cases isNone
    | none =>
        cases allocated : call.allocations.tier with
        | true => simp [insertObserver, allocated] at isNone
        | false => exact ⟨rfl, rfl⟩
  rw [registerModule, if_pos node] at refused
  rw [MissesTier]
  split at refused
  case isTrue pre =>
    rw [if_pos pre]
    exact observer refused
  case isFalse pre =>
    rw [if_neg pre]
    split at refused
    case isTrue post =>
      rw [if_pos post]
      exact observer refused
    case isFalse post =>
      rw [if_neg post]
      split at refused
      case h_1 => cases refused
      case h_2 insertion => exact insertTier_eq_none insertion

omit [DecidableEq δ] in
theorem nodes_of_layout {bus after : Bus δ} (layout_eq : after.layout = bus.layout) :
    after.nodes = bus.nodes := by
  simp only [layout, Prod.mk.injEq] at layout_eq
  obtain ⟨preOp_eq, modules_eq, postOp_eq⟩ := layout_eq
  rw [nodes, nodes, preOp_eq, modules_eq, postOp_eq]

end Bus

/-! ## The ledger -/

namespace Holdings

variable {holdings after : Holdings} {module bus : Nat}

/-- Every live module is counted at least for all its references but one, and the modules that live
are those with references. -/
structure Funded (holdings : Holdings) : Prop where
  /-- The modules are destroyed by nobody. -/
  live : ∀ module, (holdings.heap.modules module).isSome = true ↔ module < holdings.heap.allocated
  /-- The counts. -/
  count : ∀ module, ∀ header ∈ holdings.heap.modules module,
    holdings.references module ≤ header.refCount.toNat + 1
  /-- Every module has a reference. -/
  held : ∀ module, module < holdings.heap.allocated ↔ 0 < holdings.references module
  /-- A bus holds a module at most as often as it was registered. -/
  listed : ∀ bus, ∀ found ∈ holdings.heap.buses bus, bus < holdings.heap.opened ∧
    ∀ module, found.occurrences module ≤ holdings.registered bus module
  /-- A bus that is freed holds nothing. -/
  closed : ∀ bus, holdings.heap.buses bus = none → ∀ module, holdings.registered bus module = 0

theorem funded_empty : empty.Funded where
  live module := by simp [empty, Heap.empty]
  count := by simp [empty, Heap.empty]
  held _ := iff_of_false (Nat.not_lt_zero _) (lt_irrefl 0)
  listed := by simp [empty, Heap.empty]
  closed _ _ _ := rfl

theorem mirrors_congr (allocated_eq : after.heap.allocated = holdings.heap.allocated)
    (original_eq : ∀ mirror, after.heap.original mirror = holdings.heap.original mirror) :
    after.mirrors module = holdings.mirrors module := by
  simp only [mirrors, allocated_eq, original_eq]

/-- A new module is a mirror of the module it shows. -/
theorem mirrors_allocModule (module : Nat) {addrRange : MemoryAddrRange} {original : Option Nat}
    (heap_eq : after.heap = holdings.heap.allocModule addrRange original) :
    after.mirrors module = holdings.mirrors module + if original = some module then 1 else 0 := by
  have original_eq : ∀ mirror < holdings.heap.allocated,
      after.heap.original mirror = holdings.heap.original mirror := by
    intro mirror mirror_lt
    simp [heap_eq, Heap.original, Heap.allocModule, Function.update_of_ne mirror_lt.ne]
  have newest : after.heap.original holdings.heap.allocated = original := by
    simp [heap_eq, Heap.original, Heap.allocModule]
  have allocated_eq : after.heap.allocated = holdings.heap.allocated + 1 := by
    rw [heap_eq, Heap.allocModule]
  rw [mirrors, allocated_eq, Finset.range_add_one, Finset.filter_insert, newest,
    Finset.filter_congr (q := fun mirror => holdings.heap.original mirror = some module)
      fun mirror mirror_mem => by rw [original_eq mirror (Finset.mem_range.mp mirror_mem)]]
  split
  case isTrue => rw [Finset.card_insert_of_notMem (by simp), mirrors]
  case isFalse => rfl

/-- The registrations on one bus replaced. -/
theorem sum_update_registered (module : Nat) (registered : Nat → Nat → Nat)
    (counts : Nat → Nat) {opened : Nat} (bus_lt : bus < opened) :
    ∑ other ∈ Finset.range opened, Function.update registered bus counts other module +
        registered bus module =
      ∑ other ∈ Finset.range opened, registered other module + counts module := by
  have bus_mem := Finset.mem_range.mpr bus_lt
  rw [← Finset.add_sum_erase _ _ bus_mem, ← Finset.add_sum_erase _ (registered · module) bus_mem,
    Function.update_self]
  have others : ∑ other ∈ (Finset.range opened).erase bus,
        Function.update registered bus counts other module =
      ∑ other ∈ (Finset.range opened).erase bus, registered other module :=
    Finset.sum_congr rfl fun other other_mem => by
      rw [Function.update_of_ne (Finset.ne_of_mem_erase other_mem)]
  rw [others]
  omega

theorem Funded.countable_of_lt (funded : holdings.Funded)
    (module_lt : module < holdings.heap.allocated) :
    ∃ header, holdings.heap.modules module = some header ∧
      holdings.references module ≤ header.refCount.toNat + 1 := by
  obtain ⟨header, found⟩ := Option.isSome_iff_exists.mp ((funded.live module).mpr module_lt)
  exact ⟨header, found, funded.count module header found⟩

/-- A call that neither destroys a module nor faults is exact when its holdings stay funded. -/
theorem Funded.exact {call : HeapCall} (funded : holdings.Funded)
    (settled : (holdings.apply call).1.Funded)
    (quiet : ∀ event ∈ (holdings.apply call).2, ∃ accepted, event = .registered accepted)
    (grown : holdings.heap.allocated ≤ (holdings.apply call).1.heap.allocated)
    (refused : .registered false ∈ (holdings.apply call).2 →
      (holdings.apply call).1.heap.modules = holdings.heap.modules ∧
        ∀ bus, ((holdings.apply call).1.heap.buses bus).map Bus.layout =
          (holdings.heap.buses bus).map Bus.layout) : holdings.Exact call where
  faultless fault := by
    obtain ⟨accepted, event_eq⟩ := quiet _ fault
    cases event_eq
  destroyed module := by
    have none_destroyed : .destroyed module ∉ (holdings.apply call).2 := by
      intro destroyed
      obtain ⟨accepted, event_eq⟩ := quiet _ destroyed
      cases event_eq
    rw [List.count_eq_zero_of_not_mem none_destroyed, if_neg]
    rintro ⟨alive, lost⟩
    have kept := (settled.held module).mp (((funded.live module).mp alive).trans_le grown)
    omega
  lives module := (settled.live module).trans (settled.held module)
  refused := refused

/-! ## Calls that keep the ledger -/

theorem Funded.allocModule (funded : holdings.Funded) (granted : Bool)
    (addrRange : MemoryAddrRange) :
    (holdings.apply (.allocModule granted addrRange)).1.Funded ∧
      holdings.Exact (.allocModule granted addrRange) := by
  cases granted with
  | false => exact ⟨funded, funded.exact funded (by simp [apply]) le_rfl (by simp [apply])⟩
  | true =>
      set after := (holdings.apply (.allocModule true addrRange)).1 with after_eq
      have references_eq (module : Nat) : after.references module =
          holdings.references module + if module = holdings.heap.allocated then 1 else 0 := by
        have mirrors_eq := mirrors_allocModule module (rfl :
          after.heap = holdings.heap.allocModule addrRange none)
        have owned_eq : after.owned module = holdings.owned module +
            if module = holdings.heap.allocated then 1 else 0 := by
          simp only [after_eq, apply, own, if_true, Function.update_apply]
          split <;> simp_all
        simp only [references, mirrors_eq, owned_eq]
        simp only [after_eq, apply, if_true, Heap.allocModule, reduceCtorEq, if_false]
        omega
      have modules_eq (module : Nat) : after.heap.modules module =
          if module = holdings.heap.allocated then
            some { refCount := 0, addrRange, original := none }
          else holdings.heap.modules module :=
        Function.update_apply _ _ _ _
      have settled : after.Funded := {
        live := fun module => by
          have live := funded.live module
          change _ ↔ module < holdings.heap.allocated + 1
          rw [modules_eq]
          split
          case isTrue newest => simp [newest]
          case isFalse old =>
            rw [live]
            omega
        count := fun module header found => by
          have held := funded.held module
          rw [references_eq]
          rw [modules_eq] at found
          split at found
          case isTrue newest =>
            obtain rfl := Option.some.inj found
            subst newest
            rw [if_pos rfl]
            omega
          case isFalse old =>
            rw [if_neg old]
            exact funded.count module header found
        held := fun module => by
          have held := funded.held module
          change module < holdings.heap.allocated + 1 ↔ _
          rw [references_eq]
          split <;> omega
        listed := funded.listed
        closed := funded.closed }
      exact ⟨settled, funded.exact settled (by simp [apply])
        (Nat.le_succ holdings.heap.allocated) (by simp [apply])⟩

/-- Holdings after changes of counts alone. -/
structure Recounted (holdings after : Holdings) (tally : Nat → BitVec 32 → BitVec 32) : Prop where
  /-- Nothing is allocated. -/
  allocated : after.heap.allocated = holdings.heap.allocated
  /-- The modules keep everything but their counts. -/
  modules : ∀ module, after.heap.modules module = (holdings.heap.modules module).map fun header =>
    { header with refCount := tally module header.refCount }

theorem Recounted.mirrors {tally : Nat → BitVec 32 → BitVec 32}
    (recounted : holdings.Recounted after tally) :
    after.mirrors module = holdings.mirrors module := by
  apply mirrors_congr recounted.allocated
  intro mirror
  rw [Heap.original, recounted.modules, Heap.original, Option.bind_map]
  rfl

/-- A ledger stays funded when no count falls by more than the references do and nothing loses its
last reference. -/
theorem Funded.recounted {tally : Nat → BitVec 32 → BitVec 32} (funded : holdings.Funded)
    (recounted : holdings.Recounted after tally)
    (count : ∀ module, ∀ header ∈ holdings.heap.modules module,
      after.references module + header.refCount.toNat ≤
        holdings.references module + (tally module header.refCount).toNat)
    (kept : ∀ module, 0 < after.references module ↔ 0 < holdings.references module)
    (listed : ∀ bus, ∀ found ∈ after.heap.buses bus, bus < after.heap.opened ∧
      ∀ module, found.occurrences module ≤ after.registered bus module)
    (closed : ∀ bus, after.heap.buses bus = none → ∀ module, after.registered bus module = 0) :
    after.Funded where
  live module := by
    rw [recounted.modules, Option.isSome_map, recounted.allocated]
    exact funded.live module
  count module header found := by
    rw [Option.mem_def, recounted.modules, Option.map_eq_some_iff] at found
    obtain ⟨before, before_eq, rfl⟩ := found
    have bound := funded.count module before before_eq
    have change := count module before before_eq
    simp only
    omega
  held module := by
    rw [recounted.allocated, kept]
    exact funded.held module
  listed := listed
  closed := closed

/-- A reference of the callers more or less for one module. -/
theorem references_owned (module : Nat) (recounted : ∃ tally, holdings.Recounted after tally)
    (opened_eq : after.heap.opened = holdings.heap.opened)
    (registered_eq : after.registered = holdings.registered) :
    after.references module + holdings.owned module =
      holdings.references module + after.owned module := by
  obtain ⟨tally, recounted⟩ := recounted
  simp only [references, recounted.mirrors, opened_eq, registered_eq]
  omega

theorem Countable.toNat_add_one (countable : holdings.Countable module) {header : ModuleHeader}
    (found : holdings.heap.modules module = some header) :
    (header.refCount + 1).toNat = header.refCount.toNat + 1 := by
  have bound := countable header found
  bv_omega

theorem modules_retain (heap : Heap) (retained module : Nat) :
    (heap.retain retained).modules module = (heap.modules module).map fun header =>
      { header with
        refCount := if module = retained then header.refCount + 1 else header.refCount } := by
  by_cases same : module = retained
  · subst same
    simp [Heap.retain, Heap.setModule]
  · simp [Heap.retain, Heap.setModule, same]

theorem Funded.retain (funded : holdings.Funded) (held : 0 < holdings.references module)
    (countable : holdings.Countable module) :
    (holdings.apply (.retain module)).1.Funded ∧ holdings.Exact (.retain module) := by
  have alive := (funded.live module).mpr ((funded.held module).mpr held)
  set after := (holdings.apply (.retain module)).1 with after_eq
  have recounted : holdings.Recounted after fun other count =>
      if other = module then count + 1 else count := ⟨rfl, modules_retain holdings.heap module⟩
  have references_eq (other : Nat) := references_owned other ⟨_, recounted⟩ rfl rfl
  have owned_eq (other : Nat) : after.owned other =
      if other = module then holdings.owned module + 1 else holdings.owned other :=
    Function.update_apply _ _ _ _
  have settled : after.Funded := by
    refine funded.recounted recounted (fun other header found => ?_) (fun other => ?_)
      funded.listed funded.closed
    · have references_eq := references_eq other
      rw [owned_eq] at references_eq
      by_cases same : other = module
      · subst same
        rw [if_pos rfl] at references_eq ⊢
        rw [countable.toNat_add_one found]
        omega
      · rw [if_neg same] at references_eq ⊢
        omega
    · have references_eq := references_eq other
      rw [owned_eq] at references_eq
      split at references_eq
      case isTrue same =>
        subst same
        omega
      case isFalse => omega
  have events_eq : (holdings.apply (.retain module)).2 = [] := if_pos alive
  exact ⟨settled, funded.exact settled (by simp [events_eq]) le_rfl (by simp [events_eq])⟩

theorem Funded.release (funded : holdings.Funded) (owned : 0 < holdings.owned module)
    (spare : 3 ≤ holdings.references module) :
    (holdings.apply (.release module)).1.Funded ∧ holdings.Exact (.release module) := by
  have module_lt := (funded.held module).mpr (by omega)
  obtain ⟨header, found, count⟩ := funded.countable_of_lt module_lt
  have released := Heap.release_of_spare found (by bv_omega)
  have apply_eq : holdings.apply (.release module) =
      ({ holdings with
        heap := holdings.heap.setModule module
          (some { header with refCount := header.refCount - 1 })
        owned := Function.update holdings.owned module (holdings.owned module - 1) }, []) := by
    rw [apply, released]
  set after := (holdings.apply (.release module)).1 with after_eq
  rw [apply_eq] at after_eq
  have recounted : holdings.Recounted after fun other count =>
      if other = module then count - 1 else count := by
    rw [after_eq]
    refine ⟨rfl, fun other => ?_⟩
    by_cases same : other = module
    · subst same
      simp [Heap.setModule, found]
    · simp [Heap.setModule, same]
  have references_eq (other : Nat) := references_owned other ⟨_, recounted⟩
    (by rw [after_eq]; rfl) (by rw [after_eq])
  have owned_eq (other : Nat) : after.owned other =
      if other = module then holdings.owned module - 1 else holdings.owned other := by
    rw [after_eq]
    exact Function.update_apply _ _ _ _
  have settled : after.Funded := by
    refine funded.recounted recounted (fun other before before_eq => ?_) (fun other => ?_)
      (by rw [after_eq]; exact funded.listed) (by rw [after_eq]; exact funded.closed)
    · have references_eq := references_eq other
      rw [owned_eq] at references_eq
      by_cases same : other = module
      · subst same
        obtain rfl : header = before := Option.some.inj (found.symm.trans before_eq)
        rw [if_pos rfl] at references_eq ⊢
        bv_omega
      · rw [if_neg same] at references_eq ⊢
        omega
    · have references_eq := references_eq other
      rw [owned_eq] at references_eq
      split at references_eq
      case isTrue same =>
        subst same
        omega
      case isFalse => omega
  have events_eq : (holdings.apply (.release module)).2 = [] := by
    rw [apply_eq]
  exact ⟨settled, funded.exact settled (by simp [events_eq]) recounted.allocated.ge
    (by simp [events_eq])⟩

theorem Funded.unopened (funded : holdings.Funded) :
    holdings.heap.buses holdings.heap.opened = none := by
  cases found_eq : holdings.heap.buses holdings.heap.opened with
  | none => rfl
  | some found => exact absurd (funded.listed _ found found_eq).1 (lt_irrefl _)

theorem Funded.allocBus (funded : holdings.Funded) (granted : Bool) :
    (holdings.apply (.allocBus granted)).1.Funded ∧ holdings.Exact (.allocBus granted) := by
  cases granted with
  | false => exact ⟨funded, funded.exact funded (by simp [apply]) le_rfl (by simp [apply])⟩
  | true =>
      set after := (holdings.apply (.allocBus true)).1 with after_eq
      have recounted : holdings.Recounted after fun _ count => count :=
        ⟨rfl, fun module => Option.map_id'.symm⟩
      have references_eq (module : Nat) :
          after.references module = holdings.references module := by
        have unopened := funded.closed _ funded.unopened module
        have opened_eq : after.heap.opened = holdings.heap.opened + 1 := rfl
        simp only [references, recounted.mirrors, opened_eq, Finset.sum_range_succ]
        simp only [after_eq, apply, if_true, unopened, Nat.add_zero]
      have buses_eq (bus : Nat) : after.heap.buses bus = if bus = holdings.heap.opened then
          some (Bus.alloc MembusCache.blank fun _ => 0) else holdings.heap.buses bus :=
        Function.update_apply _ _ _ _
      have settled : after.Funded := by
        refine funded.recounted recounted (fun module header found => by rw [references_eq])
          (fun module => by rw [references_eq]) (fun bus found found_eq => ?_)
          (fun bus free => ?_)
        · rw [Option.mem_def, buses_eq] at found_eq
          split at found_eq
          case isTrue newest =>
            obtain rfl := Option.some.inj found_eq
            refine ⟨newest ▸ Nat.lt_succ_self _, fun module => ?_⟩
            simp [Bus.occurrences, Bus.nodes, Bus.alloc]
          case isFalse =>
            obtain ⟨bus_lt, listed⟩ := funded.listed bus found found_eq
            exact ⟨Nat.lt_succ_of_lt bus_lt, listed⟩
        · rw [buses_eq] at free
          split at free
          case isTrue => cases free
          case isFalse => exact funded.closed bus free
      exact ⟨settled, funded.exact settled (by simp [apply]) le_rfl (by simp [apply])⟩

theorem allocMirror_cases (heap : Heap) (granted : Bool) (module : Nat) (baseAddr : Word) :
    heap.allocMirror granted module baseAddr = heap ∨ ∃ range,
      heap.allocMirror granted module baseAddr =
        (heap.allocModule range (some module)).retain module := by
  unfold Heap.allocMirror
  split
  case h_1 => exact .inl rfl
  case h_2 =>
    dsimp only
    split
    case isTrue => exact .inr ⟨_, rfl⟩
    case isFalse => exact .inl rfl

/-- Holdings after a mirror of a module is allocated. -/
structure Mirrored (holdings after : Holdings) (module : Nat) (range : MemoryAddrRange) : Prop where
  /-- The mirror retains the module. -/
  heap : after.heap = (holdings.heap.allocModule range (some module)).retain module
  /-- The callers have the mirror. -/
  owned : after.owned = holdings.own holdings.heap.allocated
  /-- Nothing is registered. -/
  registered : after.registered = holdings.registered

namespace Mirrored

variable {range : MemoryAddrRange}

theorem allocated_eq (mirrored : holdings.Mirrored after module range) :
    after.heap.allocated = holdings.heap.allocated + 1 := by
  rw [mirrored.heap]
  rfl

theorem opened_eq (mirrored : holdings.Mirrored after module range) :
    after.heap.opened = holdings.heap.opened := by
  rw [mirrored.heap]
  rfl

theorem buses_eq (mirrored : holdings.Mirrored after module range) :
    after.heap.buses = holdings.heap.buses := by
  rw [mirrored.heap]
  rfl

theorem modules_eq (mirrored : holdings.Mirrored after module range)
    (module_lt : module < holdings.heap.allocated) (other : Nat) :
    after.heap.modules other =
      if other = holdings.heap.allocated then
        some { refCount := 0, addrRange := range, original := some module }
      else (holdings.heap.modules other).map fun header => { header with
        refCount := if other = module then header.refCount + 1 else header.refCount } := by
  rw [mirrored.heap, modules_retain]
  simp only [Heap.allocModule, Function.update_apply]
  by_cases newest : other = holdings.heap.allocated
  · simp [newest, module_lt.ne']
  · rw [if_neg newest, if_neg newest]

theorem mirrors_eq (mirrored : holdings.Mirrored after module range) (other : Nat) :
    after.mirrors other = holdings.mirrors other + if module = other then 1 else 0 := by
  let unretained : Holdings :=
    { holdings with heap := holdings.heap.allocModule range (some module) }
  have shown := mirrors_allocModule other (rfl :
    unretained.heap = holdings.heap.allocModule range (some module))
  simp only [Option.some_inj] at shown
  rw [← shown]
  have recounted : unretained.Recounted after fun other count =>
      if other = module then count + 1 else count :=
    ⟨mirrored.allocated_eq, fun other => by rw [mirrored.heap, modules_retain]⟩
  exact recounted.mirrors

/-- The mirror has one reference, and its module has one more. -/
theorem references_eq (mirrored : holdings.Mirrored after module range) (other : Nat) :
    after.references other = holdings.references other +
      (if other = holdings.heap.allocated then 1 else 0) + if module = other then 1 else 0 := by
  have owned_eq : after.owned other =
      holdings.owned other + if other = holdings.heap.allocated then 1 else 0 := by
    rw [mirrored.owned, own, Function.update_apply]
    split
    case isTrue newest => rw [newest]
    case isFalse => rfl
  simp only [references, mirrored.mirrors_eq, owned_eq, mirrored.opened_eq, mirrored.registered]
  omega

theorem funded (mirrored : holdings.Mirrored after module range) (before : holdings.Funded)
    (module_lt : module < holdings.heap.allocated) (countable : holdings.Countable module) :
    after.Funded where
  live other := by
    have live := before.live other
    rw [mirrored.modules_eq module_lt, mirrored.allocated_eq]
    split
    case isTrue newest => simp [newest]
    case isFalse old =>
      rw [Option.isSome_map, live]
      omega
  count other header found := by
    have held := before.held other
    rw [mirrored.references_eq]
    rw [Option.mem_def, mirrored.modules_eq module_lt] at found
    split at found
    case isTrue newest =>
      subst newest
      rw [if_pos rfl, if_neg module_lt.ne]
      omega
    case isFalse old =>
      obtain ⟨former, former_eq, rfl⟩ := Option.map_eq_some_iff.mp found
      have count := before.count other former former_eq
      rw [if_neg old]
      by_cases same : module = other
      · subst same
        rw [if_pos rfl, if_pos rfl, countable.toNat_add_one former_eq]
        omega
      · rw [if_neg same, if_neg (Ne.symm same)]
        exact count
  held other := by
    have held := before.held other
    have held_module := before.held module
    rw [mirrored.references_eq, mirrored.allocated_eq]
    split
    case isTrue => omega
    case isFalse =>
      split
      case isTrue same =>
        subst same
        omega
      case isFalse => omega
  listed := by
    rw [mirrored.buses_eq, mirrored.opened_eq, mirrored.registered]
    exact before.listed
  closed := by
    rw [mirrored.buses_eq, mirrored.registered]
    exact before.closed

end Mirrored

theorem Funded.allocMirror (funded : holdings.Funded) (granted : Bool) (baseAddr : Word)
    (held : 0 < holdings.references module) (countable : holdings.Countable module) :
    (holdings.apply (.allocMirror granted module baseAddr)).1.Funded ∧
      holdings.Exact (.allocMirror granted module baseAddr) := by
  have module_lt := (funded.held module).mpr held
  have events_eq : (holdings.apply (.allocMirror granted module baseAddr)).2 = [] :=
    if_pos ((funded.live module).mpr module_lt)
  set after := (holdings.apply (.allocMirror granted module baseAddr)).1 with after_eq
  rcases allocMirror_cases holdings.heap granted module baseAddr with heap_eq | ⟨range, heap_eq⟩
  · have unchanged : after = holdings := by
      simp only [after_eq, apply, heap_eq, if_true]
    have settled : after.Funded := by
      rw [unchanged]
      exact funded
    exact ⟨settled, funded.exact settled (by simp [events_eq])
      (congrArg (fun holdings => holdings.heap.allocated) unchanged).ge (by simp [events_eq])⟩
  · have grown : after.heap.allocated ≠ holdings.heap.allocated := by
      have allocated_eq : after.heap.allocated = holdings.heap.allocated + 1 :=
        congrArg Heap.allocated heap_eq
      omega
    have mirrored : holdings.Mirrored after module range := ⟨heap_eq, if_neg grown, rfl⟩
    have settled := mirrored.funded funded module_lt countable
    exact ⟨settled, funded.exact settled (by simp [events_eq])
      ((Nat.le_succ _).trans_eq mirrored.allocated_eq.symm) (by simp [events_eq])⟩

theorem registered_le_references (module : Nat) (bus_lt : bus < holdings.heap.opened) :
    holdings.registered bus module ≤ holdings.references module := by
  rw [references, ← Finset.add_sum_erase _ (holdings.registered · module)
    (Finset.mem_range.mpr bus_lt)]
  omega

/-- The registrations on one bus replaced. -/
theorem references_registered (module : Nat) (counts : Nat → Nat)
    (recounted : ∃ tally, holdings.Recounted after tally)
    (opened_eq : after.heap.opened = holdings.heap.opened) (owned_eq : after.owned = holdings.owned)
    (registered_eq : after.registered = Function.update holdings.registered bus counts)
    (bus_lt : bus < holdings.heap.opened) :
    after.references module + holdings.registered bus module =
      holdings.references module + counts module := by
  obtain ⟨tally, recounted⟩ := recounted
  have replaced := sum_update_registered module holdings.registered counts bus_lt
  simp only [references, recounted.mirrors, opened_eq, owned_eq, registered_eq]
  omega

/-- The ledger of the buses after one of them has changed. -/
theorem Funded.relisted (funded : holdings.Funded) (after : Holdings)
    (listing : Option (Bus Nat)) (bus_lt : bus < holdings.heap.opened)
    (opened_eq : after.heap.opened = holdings.heap.opened)
    (buses_eq : after.heap.buses = Function.update holdings.heap.buses bus listing)
    (others : ∀ other, other ≠ bus → after.registered other = holdings.registered other)
    (listed : ∀ found ∈ listing, ∀ module, found.occurrences module ≤ after.registered bus module)
    (closed : listing = none → ∀ module, after.registered bus module = 0) :
    (∀ bus, ∀ found ∈ after.heap.buses bus, bus < after.heap.opened ∧
      ∀ module, found.occurrences module ≤ after.registered bus module) ∧
    ∀ bus, after.heap.buses bus = none → ∀ module, after.registered bus module = 0 := by
  rw [buses_eq, opened_eq]
  constructor
  · intro other found found_eq
    by_cases same : other = bus
    · subst same
      rw [Function.update_self] at found_eq
      exact ⟨bus_lt, listed found found_eq⟩
    · rw [Function.update_of_ne same] at found_eq
      rw [others other same]
      exact funded.listed other found found_eq
  · intro other free
    by_cases same : other = bus
    · subst same
      rw [Function.update_self] at free
      exact closed free
    · rw [Function.update_of_ne same] at free
      rw [others other same]
      exact funded.closed other free

theorem Funded.freeBus (funded : holdings.Funded)
    (openBus : (holdings.heap.buses bus).isSome = true)
    (spares : holdings.Spares (.freeBus bus)) :
    (holdings.apply (.freeBus bus)).1.Funded ∧ holdings.Exact (.freeBus bus) := by
  obtain ⟨found, found_eq⟩ := Option.isSome_iff_exists.mp openBus
  obtain ⟨bus_lt, listed⟩ := funded.listed bus found found_eq
  have spared (module : Nat) (registered : 0 < holdings.registered bus module) :
      module < holdings.heap.allocated ∧
        holdings.registered bus module + 2 ≤ holdings.references module := by
    have registered_le := registered_le_references module bus_lt
    have module_lt := (funded.held module).mpr (by omega)
    exact ⟨module_lt, spares module module_lt registered⟩
  have spare : ∀ module ∈ found.nodes.flatMap ModuleTierNode.modules,
      ∃ header, holdings.heap.modules module = some header ∧
        found.occurrences module < header.refCount.toNat := by
    intro module module_mem
    have occurs : 0 < found.occurrences module := List.count_pos_iff.mpr module_mem
    have kept := listed module
    obtain ⟨module_lt, two_more⟩ := spared module (by omega)
    obtain ⟨header, header_eq, count⟩ := funded.countable_of_lt module_lt
    exact ⟨header, header_eq, by omega⟩
  obtain ⟨released, released_eq, allocated_eq, opened_eq, buses_eq, modules_eq⟩ :=
    Heap.releaseAll_of_spare spare
  have apply_eq : holdings.apply (.freeBus bus) =
      ({ holdings with
        heap := { released with buses := Function.update released.buses bus none }
        registered := Function.update holdings.registered bus fun _ => 0 }, []) := by
    rw [apply, Heap.freeBus, found_eq]
    simp only [released_eq]
  set after := (holdings.apply (.freeBus bus)).1 with after_eq
  rw [apply_eq] at after_eq
  have recounted : holdings.Recounted after fun module count =>
      count - BitVec.ofNat 32 (found.occurrences module) := by
    rw [after_eq]
    exact ⟨allocated_eq, modules_eq⟩
  have references_eq (module : Nat) := references_registered module (fun _ => 0) ⟨_, recounted⟩
    (by rw [after_eq]; exact opened_eq) (by rw [after_eq]) (by rw [after_eq]) bus_lt
  obtain ⟨relisted, reclosed⟩ := funded.relisted after none bus_lt
    (by rw [after_eq]; exact opened_eq) (by rw [after_eq]; exact buses_eq ▸ rfl)
    (fun other other_ne => by rw [after_eq]; exact Function.update_of_ne other_ne _ _)
    (by simp) (fun _ module => by rw [after_eq]; simp)
  have settled : after.Funded := by
    refine funded.recounted recounted (fun module header header_eq => ?_) (fun module => ?_)
      relisted reclosed
    · have references_eq := references_eq module
      have kept := listed module
      rcases Nat.eq_zero_or_pos (found.occurrences module) with absent | occurs
      · rw [absent]
        simp only [BitVec.sub_zero]
        omega
      · obtain ⟨before, before_eq, count_lt⟩ := spare module (List.count_pos_iff.mp occurs)
        obtain rfl : header = before := Option.some.inj (header_eq.symm.trans before_eq)
        have lowered : (header.refCount - BitVec.ofNat 32 (found.occurrences module)).toNat +
            found.occurrences module = header.refCount.toNat := by
          bv_omega
        omega
    · have references_eq := references_eq module
      rcases Nat.eq_zero_or_pos (holdings.registered bus module) with absent | registered
      · omega
      · have two_more := (spared module registered).2
        omega
  have events_eq : (holdings.apply (.freeBus bus)).2 = [] := by
    rw [apply_eq]
  exact ⟨settled, funded.exact settled (by simp [events_eq]) recounted.allocated.ge
    (by simp [events_eq])⟩

theorem register_accepted {heap : Heap} {call : Registration Nat} {found : Bus Nat}
    {header : ModuleHeader} (found_eq : heap.buses bus = some found)
    (header_eq : heap.modules call.module = some header)
    (accepted : (found.registerModule heap.addrLo call).1 = true) :
    heap.register bus call =
      ({ heap with
        buses := Function.update heap.buses bus
          (some (found.registerModule heap.addrLo call).2) }.retain call.module,
        [.registered true]) := by
  have node : call.allocations.node = true := by
    by_contra missing
    rw [Bus.registerModule, if_neg missing] at accepted
    cases accepted
  unfold Heap.register
  rw [found_eq, header_eq]
  simp only [accepted, node, if_true, true_or]

/-- A refused registration that releases a module with another reference leaves all counts. -/
theorem register_refused {heap : Heap} {call : Registration Nat} {found : Bus Nat}
    {header : ModuleHeader} (found_eq : heap.buses bus = some found)
    (header_eq : heap.modules call.module = some header)
    (refused : (found.registerModule heap.addrLo call).1 = false)
    (spare : call.allocations.node = true → Bus.Ordinary call.tier ∧ header.refCount ≠ 0) :
    heap.register bus call =
      ({ heap with
        buses := Function.update heap.buses bus
          (some (found.registerModule heap.addrLo call).2) }, [.registered false]) := by
  unfold Heap.register
  rw [found_eq, header_eq]
  cases node : call.allocations.node with
  | false => simp only [refused, Bool.false_eq_true, if_false]
  | true =>
      obtain ⟨ordinary, positive⟩ := spare node
      set listed : Heap := { heap with
        buses := Function.update heap.buses bus
          (some (found.registerModule heap.addrLo call).2) } with listed_eq
      have retained : (listed.retain call.module).modules call.module =
          some { header with refCount := header.refCount + 1 } := by
        rw [modules_retain, header_eq]
        simp
      have released := Heap.release_of_spare retained (by
        simp only
        bv_omega)
      have restored : (listed.retain call.module).setModule call.module
          (some { header with refCount := header.refCount + 1 - 1 }) = listed := by
        rw [BitVec.add_sub_cancel]
        simp only [Heap.retain, Heap.setModule, Function.update_idem, listed_eq, ← header_eq,
          Function.update_eq_self]
      have undone : (listed.retain call.module).release call.module = (listed, []) :=
        released.trans (congrArg (·, []) restored)
      simp only [refused, Bool.false_eq_true, false_or, ordinary, not_true_eq_false, if_false,
        if_true]
      rw [← listed_eq, undone]
      rfl

/-- An accepted registration counts one reference more. -/
theorem Funded.accepted (funded : holdings.Funded) {call : Registration Nat} {found : Bus Nat}
    (found_eq : holdings.heap.buses bus = some found) (held : 0 < holdings.references call.module)
    (countable : holdings.Countable call.module)
    (accepted : (found.registerModule holdings.heap.addrLo call).1 = true) :
    (holdings.apply (.register bus call)).1.Funded ∧ holdings.Exact (.register bus call) := by
  obtain ⟨bus_lt, listed⟩ := funded.listed bus found found_eq
  obtain ⟨header, header_eq, count⟩ :=
    funded.countable_of_lt ((funded.held call.module).mpr held)
  set after := (holdings.apply (.register bus call)).1 with after_eq
  have taken := (Bus.takes_of_registerModule accepted).occurrences_le
  have apply_eq : holdings.apply (.register bus call) =
      ({ holdings with
        heap := { holdings.heap with
          buses := Function.update holdings.heap.buses bus
            (some (found.registerModule holdings.heap.addrLo call).2) }.retain call.module
        registered := Function.update holdings.registered bus
          (Function.update (holdings.registered bus) call.module
            (holdings.registered bus call.module + 1)) }, [.registered true]) := by
    rw [apply, register_accepted found_eq header_eq accepted]
    simp only [List.mem_singleton, if_true]
  rw [apply_eq] at after_eq
  have recounted : holdings.Recounted after fun module count =>
      if module = call.module then count + 1 else count := by
    rw [after_eq]
    exact ⟨rfl, modules_retain _ _⟩
  have references_eq (module : Nat) := references_registered module _ ⟨_, recounted⟩
    (by rw [after_eq]; rfl) (by rw [after_eq]) (by rw [after_eq]) bus_lt
  have counted (module : Nat) : Function.update (holdings.registered bus) call.module
      (holdings.registered bus call.module + 1) module =
        holdings.registered bus module + if module = call.module then 1 else 0 := by
    rw [Function.update_apply]
    split
    case isTrue same => rw [same]
    case isFalse => rfl
  simp only [counted] at references_eq
  obtain ⟨relisted, reclosed⟩ := funded.relisted after
    (some (found.registerModule holdings.heap.addrLo call).2) bus_lt
    (by rw [after_eq]; rfl) (by rw [after_eq]; rfl)
    (fun other other_ne => by rw [after_eq]; exact Function.update_of_ne other_ne _ _)
    (fun listing listing_eq module => by
      have taken := taken module
      have listed := listed module
      rw [← Option.some.inj listing_eq, after_eq]
      simp only [Function.update_self, counted, eq_comm (a := module)]
      omega)
    (by simp)
  have settled : after.Funded := by
    refine funded.recounted recounted (fun module before before_eq => ?_) (fun module => ?_)
      relisted reclosed
    · have references_eq := references_eq module
      by_cases same : module = call.module
      · subst same
        rw [if_pos rfl] at references_eq ⊢
        rw [countable.toNat_add_one before_eq]
        omega
      · rw [if_neg same] at references_eq ⊢
        omega
    · have references_eq := references_eq module
      split at references_eq
      case isTrue same =>
        subst same
        omega
      case isFalse => omega
  have events_eq : (holdings.apply (.register bus call)).2 = [.registered true] := by
    rw [apply_eq]
  exact ⟨settled, funded.exact settled (by simp [events_eq]) recounted.allocated.ge
    (by simp [events_eq])⟩

/-- A refused registration takes its reference back, and destroys nothing if another is left. -/
theorem Funded.refused (funded : holdings.Funded) {call : Registration Nat} {found : Bus Nat}
    (found_eq : holdings.heap.buses bus = some found) (held : 0 < holdings.references call.module)
    (spare : call.allocations.node = true → call.allocations.tier = false →
      found.MissesTier call.tier → Bus.Ordinary call.tier ∧ 2 ≤ holdings.references call.module)
    (accepted : (found.registerModule holdings.heap.addrLo call).1 = false) :
    (holdings.apply (.register bus call)).1.Funded ∧ holdings.Exact (.register bus call) := by
  obtain ⟨bus_lt, listed⟩ := funded.listed bus found found_eq
  obtain ⟨header, header_eq, count⟩ :=
    funded.countable_of_lt ((funded.held call.module).mpr held)
  set after := (holdings.apply (.register bus call)).1 with after_eq
  have spared : call.allocations.node = true →
      Bus.Ordinary call.tier ∧ header.refCount ≠ 0 := by
    intro node
    obtain ⟨tier, misses⟩ := Bus.missesTier_of_refused node accepted
    obtain ⟨ordinary, two⟩ := spare node tier misses
    exact ⟨ordinary, by bv_omega⟩
  have layout_eq := Bus.layout_of_refused accepted
  have apply_eq : holdings.apply (.register bus call) =
      ({ holdings with
        heap := { holdings.heap with
          buses := Function.update holdings.heap.buses bus
            (some (found.registerModule holdings.heap.addrLo call).2) } },
        [.registered false]) := by
    rw [apply, register_refused found_eq header_eq accepted spared]
    simp only [List.mem_singleton, HeapEvent.registered.injEq, reduceCtorEq, if_false]
  rw [apply_eq] at after_eq
  have recounted : holdings.Recounted after fun _ count => count := by
    rw [after_eq]
    exact ⟨rfl, fun module => Option.map_id'.symm⟩
  have references_eq (module : Nat) : after.references module = holdings.references module := by
    have unchanged := references_owned module ⟨_, recounted⟩ (by rw [after_eq])
      (by rw [after_eq])
    rw [show after.owned = holdings.owned by rw [after_eq]] at unchanged
    omega
  obtain ⟨relisted, reclosed⟩ := funded.relisted after
    (some (found.registerModule holdings.heap.addrLo call).2) bus_lt
    (by rw [after_eq]) (by rw [after_eq]) (fun other _ => by rw [after_eq])
    (fun listing listing_eq module => by
      rw [← Option.some.inj listing_eq, after_eq, Bus.occurrences,
        Bus.nodes_of_layout layout_eq]
      exact listed module)
    (by simp)
  have settled : after.Funded := by
    exact funded.recounted recounted (fun module before before_eq => by rw [references_eq])
      (fun module => by rw [references_eq]) relisted reclosed
  refine ⟨settled, funded.exact settled ?_ recounted.allocated.ge fun _ => ?_⟩
  · rw [apply_eq]
    simp
  · rw [apply_eq]
    refine ⟨rfl, fun other => ?_⟩
    simp only [Function.update_apply]
    split
    case isTrue same => rw [same, found_eq, Option.map_some, Option.map_some, layout_eq]
    case isFalse => rfl

theorem Funded.register (funded : holdings.Funded) {call : Registration Nat}
    (disciplined : holdings.Disciplined (.register bus call))
    (spares : holdings.Spares (.register bus call)) :
    (holdings.apply (.register bus call)).1.Funded ∧ holdings.Exact (.register bus call) := by
  obtain ⟨openBus, held⟩ := disciplined
  obtain ⟨countable, spare⟩ := spares
  obtain ⟨found, found_eq⟩ := Option.isSome_iff_exists.mp openBus
  cases accepted : (found.registerModule holdings.heap.addrLo call).1 with
  | true => exact funded.accepted found_eq held countable accepted
  | false => exact funded.refused found_eq held (spare found found_eq) accepted

/-! ## Runs of calls -/

/-- A call that spares what it releases keeps the ledger and is exact. -/
theorem Funded.step {call : HeapCall} (funded : holdings.Funded)
    (disciplined : holdings.Disciplined call) (spares : holdings.Spares call) :
    (holdings.apply call).1.Funded ∧ holdings.Exact call := by
  cases call with
  | allocModule granted addrRange => exact funded.allocModule granted addrRange
  | allocMirror granted module baseAddr =>
      exact funded.allocMirror granted baseAddr disciplined spares
  | retain module => exact funded.retain disciplined spares
  | release module => exact funded.release disciplined spares
  | allocBus granted => exact funded.allocBus granted
  | register bus call => exact funded.register disciplined spares
  | freeBus bus => exact funded.freeBus disciplined spares

theorem meets_exact (calls : List HeapCall) (funded : holdings.Funded)
    (disciplined : holding.Meets Disciplined holdings calls)
    (spares : holding.Meets Spares holdings calls) : holding.Meets Exact holdings calls := by
  induction calls generalizing holdings with
  | nil => trivial
  | cons call rest ih =>
      obtain ⟨settled, exact_call⟩ := funded.step disciplined.1 spares.1
      exact ⟨exact_call, ih settled disciplined.2 spares.2⟩

/-- References are counted exactly along every run of calls that always leave two references where
they release one, are refused no node for a tier, and overflow no count. -/
theorem counts_of_spares (calls : List HeapCall)
    (disciplined : holding.Meets Disciplined Holdings.empty calls)
    (spares : holding.Meets Spares Holdings.empty calls) :
    holding.Meets Exact Holdings.empty calls :=
  meets_exact calls funded_empty disciplined spares

/-- A module registered in tier zero. -/
def tierZero (module : Nat) : Registration Nat where
  tier := 0
  module
  allocations := { node := true, tier := true }

/-- A module retained twice, registered, and released once. -/
theorem counts_retained :
    holding.Meets Exact Holdings.empty
      [.allocBus true, .allocModule true (.withLoAndHi 0x0000 0x07FF), .retain 0, .retain 0,
        .register 0 (tierZero 0), .release 0, .release 0] :=
  counts_of_spares _ (by decide) (by decide)

/-- The caller of the allocation releases a module that a bus holds. -/
theorem not_counts_registered :
    holding.Meets Disciplined Holdings.empty
        [.allocBus true, .allocModule true (.withLoAndHi 0x0000 0x07FF),
          .register 0 (tierZero 0), .release 0] ∧
      ¬ holding.Meets Exact Holdings.empty
        [.allocBus true, .allocModule true (.withLoAndHi 0x0000 0x07FF),
          .register 0 (tierZero 0), .release 0] := by
  refine ⟨by decide, fun exact_calls => ?_⟩
  have lives := exact_calls.2.2.2.1.lives 0
  revert lives
  decide

end Holdings

end System6502
