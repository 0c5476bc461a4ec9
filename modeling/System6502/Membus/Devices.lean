import System6502.Isa.Projection
import System6502.Membus.Transaction

/-!
# Buses with devices and caches

`membus_t` with the devices behind its modules, as an executor sees it.  The caches of the bus keep
a copy of what passes over it and decide nothing.
-/

namespace System6502

/-- A bus with a read and a write cache. -/
class CachedMembus (μ : Type*) extends Membus μ where
  /-- `membus_get_cache_disable`. -/
  getCacheDisable : μ → Bool
  /-- `membus_set_cache_disable`. -/
  setCacheDisable : μ → Bool → μ
  /-- `membus_rcache_pop`. -/
  rcachePop : μ → Byte × μ
  /-- `membus_wcache_pop`. -/
  wcachePop : μ → Byte × μ

/-- Only `membus_set_cache_disable` changes the switch. -/
class LawfulCachedMembus (μ : Type*) [CachedMembus μ] : Prop where
  /-- Reads keep the switch. -/
  getCacheDisable_readAddr : ∀ (memory : μ) address,
    CachedMembus.getCacheDisable (Membus.readAddr memory address).2 =
      CachedMembus.getCacheDisable memory
  /-- Writes keep the switch. -/
  getCacheDisable_writeAddr : ∀ (memory : μ) address value,
    CachedMembus.getCacheDisable (Membus.writeAddr memory address value) =
      CachedMembus.getCacheDisable memory
  /-- The switch is what it was last set to. -/
  getCacheDisable_setCacheDisable : ∀ (memory : μ) shouldDisable,
    CachedMembus.getCacheDisable (CachedMembus.setCacheDisable memory shouldDisable) =
      shouldDisable
  /-- Pops of the read cache keep the switch. -/
  getCacheDisable_rcachePop : ∀ memory : μ,
    CachedMembus.getCacheDisable (CachedMembus.rcachePop memory).2 =
      CachedMembus.getCacheDisable memory
  /-- Pops of the write cache keep the switch. -/
  getCacheDisable_wcachePop : ∀ memory : μ,
    CachedMembus.getCacheDisable (CachedMembus.wcachePop memory).2 =
      CachedMembus.getCacheDisable memory

/-- A projection that forgets the caches and their switch. -/
class CacheErasure {μ ν : Type*} [CachedMembus μ] [Membus ν] (project : μ → ν) : Prop extends
    BusProjection project where
  /-- The switch is forgotten. -/
  setCacheDisable : ∀ memory shouldDisable,
    project (CachedMembus.setCacheDisable memory shouldDisable) = project memory
  /-- The read cache is forgotten. -/
  rcachePop : ∀ memory, project (CachedMembus.rcachePop memory).2 = project memory
  /-- The write cache is forgotten. -/
  wcachePop : ∀ memory, project (CachedMembus.wcachePop memory).2 = project memory

/-! ## Buses without their caches -/

namespace Bus

variable {δ σ : Type*} {modules : δ → MembusModule σ} {operation : Operation} {addr : Word}

/-- The bus with empty caches that stay empty. -/
def muted (bus : Bus δ) : Bus δ :=
  { bus with cache := MembusCache.blank, cacheDisable := true }

theorem served_muted (bus : Bus δ) (route : Route σ) :
    bus.muted.served operation addr route =
      (bus.served operation addr route).map fun answer => (answer.1, answer.2.muted) := by
  unfold served
  split
  case isTrue => rfl
  case isFalse =>
    cases operation with
    | read =>
        rw [vector, vector, Option.map_map]
        rfl
    | write value =>
        rw [vector, vector, Option.map_map]
        unfold setVectorByte
        repeat' split
        all_goals rfl

theorem conclude_muted (bus : Bus δ) (route : Route σ) :
    bus.muted.conclude modules operation addr route =
      (bus.conclude modules operation addr route).map fun outcome =>
        (outcome.1, outcome.2.1.muted, outcome.2.2) := by
  have postOp_eq : bus.muted.postOp = bus.postOp := rfl
  unfold conclude
  rw [served_muted, postOp_eq]
  cases bus.served operation addr route with
  | none =>
      dsimp only [Option.map_none, Option.getD_none]
      cases observerLoop modules operation addr (some route.value) (observers bus.postOp)
        route.state <;> rfl
  | some answer =>
      dsimp only [Option.map_some, Option.getD_some]
      cases observerLoop modules operation addr (some answer.1) (observers bus.postOp)
        route.state with
      | error => rfl
      | ok last => cases bus.cacheDisable <;> rfl

/-- A transaction does the same on a bus with empty caches. -/
theorem transact_muted (bus : Bus δ) (state : σ) :
    bus.muted.transact modules operation addr state =
      (bus.transact modules operation addr state).map fun outcome =>
        (outcome.1, outcome.2.1.muted, outcome.2.2) := by
  have preOp_eq : bus.muted.preOp = bus.preOp := rfl
  have modules_eq : bus.muted.modules = bus.modules := rfl
  unfold transact
  rw [preOp_eq, modules_eq]
  cases observerLoop modules operation addr operation.preOp (observers bus.preOp) state with
  | error => rfl
  | ok before =>
      dsimp only
      cases tierLoop modules operation addr bus.modules
        { value := operation.initial, isDone := false, isLooping := true, state := before } with
      | error => rfl
      | ok route => exact conclude_muted bus route

end Bus

/-! ## Buses with devices -/

/-- A bus with the devices behind its modules.  A module whose callback has no result holds the bus
up. -/
structure DeviceBus {δ σ : Type*} (modules : δ → MembusModule σ) where
  /-- The bus. -/
  bus : Bus δ
  /-- The devices. -/
  state : σ
  /-- The module that holds the bus up. -/
  stuck : Option δ

namespace DeviceBus

variable {δ σ : Type*} {modules : δ → MembusModule σ}

/-- A transaction; a bus that is held up reads as zero and stays as it is. -/
def transact (memory : DeviceBus modules) (operation : Operation) (addr : Word) :
    Byte × DeviceBus modules :=
  match memory.stuck with
  | some _ => (0, memory)
  | none =>
      match memory.bus.transact modules operation addr memory.state with
      | .error module => (0, { memory with stuck := some module })
      | .ok (value, bus, state) => (value, { memory with bus, state })

/-- Change the caches of the bus. -/
def onCache (memory : DeviceBus modules) (change : MembusCache → MembusCache) :
    DeviceBus modules :=
  { memory with bus := { memory.bus with cache := change memory.bus.cache } }

instance : CachedMembus (DeviceBus modules) where
  readAddr memory addr := memory.transact .read addr
  writeAddr memory addr value := (memory.transact (.write value) addr).2
  getCacheDisable memory := memory.bus.cacheDisable
  setCacheDisable memory shouldDisable :=
    { memory with bus := { memory.bus with cacheDisable := shouldDisable } }
  rcachePop memory := (memory.bus.cache.popRead.1, memory.onCache fun cache => cache.popRead.2)
  wcachePop memory := (memory.bus.cache.popWrite.1, memory.onCache fun cache => cache.popWrite.2)

theorem cacheDisable_transact (memory : DeviceBus modules) (operation : Operation) (addr : Word) :
    (memory.transact operation addr).2.bus.cacheDisable = memory.bus.cacheDisable := by
  unfold transact
  split
  · rfl
  · split
    · rfl
    · rename_i done
      exact congrArg (fun fixed => fixed.2.1) (Bus.fixed_of_transact done)

instance : LawfulCachedMembus (DeviceBus modules) where
  getCacheDisable_readAddr memory addr := memory.cacheDisable_transact .read addr
  getCacheDisable_writeAddr memory addr value := memory.cacheDisable_transact (.write value) addr
  getCacheDisable_setCacheDisable _ _ := rfl
  getCacheDisable_rcachePop _ := rfl
  getCacheDisable_wcachePop _ := rfl

/-- The devices behind a bus with empty caches that stay empty. -/
def muted (memory : DeviceBus modules) : DeviceBus modules :=
  { memory with bus := memory.bus.muted }

/-- The bus with its caches emptied and its switch as it is. -/
def withoutCaches (memory : DeviceBus modules) : DeviceBus modules :=
  memory.onCache fun _ => MembusCache.blank

/-- The bus with the indices of its caches set to zero. -/
def withoutIndices (memory : DeviceBus modules) : DeviceBus modules :=
  memory.onCache fun cache => { cache with rcacheIdx := 0, wcacheIdx := 0 }

theorem transact_muted (memory : DeviceBus modules) (operation : Operation) (addr : Word) :
    memory.muted.transact operation addr =
      ((memory.transact operation addr).1, (memory.transact operation addr).2.muted) := by
  have stuck_eq : memory.muted.stuck = memory.stuck := rfl
  have transact_eq : memory.muted.bus.transact modules operation addr memory.muted.state = _ :=
    memory.bus.transact_muted memory.state
  unfold transact
  rw [stuck_eq, transact_eq]
  split
  · rfl
  · cases memory.bus.transact modules operation addr memory.state <;> rfl

/-- What a bus does with its accesses does not depend on its caches. -/
instance : CacheErasure (fun memory : DeviceBus modules => memory.muted) where
  readAddr memory addr := memory.transact_muted .read addr
  writeAddr memory addr value :=
    congrArg Prod.snd (memory.transact_muted (.write value) addr)
  setCacheDisable _ _ := rfl
  rcachePop _ := rfl
  wcachePop _ := rfl

/-- Two buses that differ in their caches only. -/
theorem withoutCaches_eq {memory other : DeviceBus modules} (muted_eq : memory.muted = other.muted)
    (switch_eq : memory.bus.cacheDisable = other.bus.cacheDisable) :
    memory.withoutCaches = other.withoutCaches := by
  have switched : ∀ memory : DeviceBus modules, memory.withoutCaches =
      { memory.muted with
        bus := { memory.muted.bus with cacheDisable := memory.bus.cacheDisable } } := fun _ => rfl
  rw [switched, switched, muted_eq, switch_eq]

end DeviceBus

end System6502
