import System6502.Lib.RingLog
import System6502.Membus.Devices

/-!
# Logs of the caches

A bus with the accesses made through it and what they left in its caches.  The entries of a cache
are the bytes of the accesses that were cached, on top of what the cache held before.
-/

namespace System6502

open Lib

/-- An access, and whether its byte went into a cache. -/
structure Entry where
  /-- The access. -/
  access : Access
  /-- The byte is in a cache. -/
  isCached : Bool
  deriving DecidableEq, Repr

namespace Entry

/-- The bytes of the cached reads of a log. -/
def cachedReads : List Entry → List Byte
  | [] => []
  | ⟨.read _ value, true⟩ :: log => value :: cachedReads log
  | _ :: log => cachedReads log

/-- The bytes of the cached writes of a log. -/
def cachedWrites : List Entry → List Byte
  | [] => []
  | ⟨.write _ value, true⟩ :: log => value :: cachedWrites log
  | _ :: log => cachedWrites log

end Entry

namespace MembusCache

/-- `idx % 8`. -/
def slot (idx : Byte) : Fin 8 := ⟨idx.toNat % 8, Nat.mod_lt _ (Nat.succ_pos 7)⟩

/-- The byte that a number of pops of the read cache skip. -/
def readEntry (cache : MembusCache) : Nat → Byte :=
  RingLog.entry slot cache.rcache cache.rcacheIdx

/-- The byte that a number of pops of the write cache skip. -/
def writeEntry (cache : MembusCache) : Nat → Byte :=
  RingLog.entry slot cache.wcache cache.wcacheIdx

/-- The caches after an access. -/
def record (cache : MembusCache) (entry : Entry) : MembusCache :=
  if entry.isCached then
    match entry.access with
    | .read _ value => cache.pushRead value
    | .write _ value => cache.pushWrite value
  else cache

/-- The caches after the accesses of a log. -/
def replay (initial : MembusCache) : List Entry → MembusCache
  | [] => initial
  | entry :: log => (replay initial log).record entry

theorem spacious_slot : RingLog.Spacious slot 8 := by
  intro next step positive bounded same
  have value_eq := congrArg Fin.val same
  simp only [slot, BitVec.toNat_sub, BitVec.natCast_eq_ofNat,
    BitVec.toNat_ofNat] at value_eq
  have := next.isLt
  omega

/-- A read cache holds the bytes of the cached reads on top of what it held before. -/
theorem readEntry_replay (initial : MembusCache) (log : List Entry) {depth : Nat}
    (within : depth < 8) :
    (replay initial log).readEntry depth =
      RingLog.entryBelow (Entry.cachedReads log) initial.readEntry depth := by
  induction log generalizing depth with
  | nil => rfl
  | cons entry log ih =>
      rcases entry with ⟨⟨address, value⟩ | ⟨address, value⟩, _ | _⟩
      · exact ih within
      · exact RingLog.entry_push spacious_slot (fun _ below => ih below) value within
      · exact ih within
      · exact ih within

/-- A write cache holds the bytes of the cached writes on top of what it held before. -/
theorem writeEntry_replay (initial : MembusCache) (log : List Entry) {depth : Nat}
    (within : depth < 8) :
    (replay initial log).writeEntry depth =
      RingLog.entryBelow (Entry.cachedWrites log) initial.writeEntry depth := by
  induction log generalizing depth with
  | nil => rfl
  | cons entry log ih =>
      rcases entry with ⟨⟨address, value⟩ | ⟨address, value⟩, _ | _⟩
      · exact ih within
      · exact ih within
      · exact ih within
      · exact RingLog.entry_push spacious_slot (fun _ below => ih below) value within

end MembusCache

/-! ## Recorded buses -/

/-- A bus with the accesses made through it, most recent first, since its caches were as given. -/
structure RecordedBus {δ σ : Type*} (modules : δ → MembusModule σ) (initial : MembusCache) where
  /-- The bus. -/
  memory : DeviceBus modules
  /-- The accesses. -/
  log : List Entry
  /-- The caches hold what was cached. -/
  cache_eq : memory.bus.cache = initial.replay log

namespace DeviceBus

variable {δ σ : Type*} {modules : δ → MembusModule σ}

/-- A transaction caches its byte when the index of the cache moves. -/
def caches (memory : DeviceBus modules) (operation : Operation) (addr : Word) : Bool :=
  let after := (memory.transact operation addr).2.bus.cache
  match operation with
  | .read => after.rcacheIdx ≠ memory.bus.cache.rcacheIdx
  | .write _ => after.wcacheIdx ≠ memory.bus.cache.wcacheIdx

/-- The log entry of a transaction. -/
def entry (memory : DeviceBus modules) (operation : Operation) (addr : Word) : Entry where
  access :=
    match operation with
    | .read => .read addr (memory.transact .read addr).1
    | .write value => .write addr value
  isCached := memory.caches operation addr

/-- The caches after a transaction. -/
theorem cache_transact (memory : DeviceBus modules) (operation : Operation) (addr : Word) :
    (memory.transact operation addr).2.bus.cache =
      memory.bus.cache.record (memory.entry operation addr) := by
  have outcome : (memory.transact operation addr).2.bus.cache = memory.bus.cache ∨
      ((memory.transact operation addr).2.bus.cache =
          memory.bus.cache.push (memory.transact operation addr).1 operation ∧
        ∀ written, operation = .write written → (memory.transact operation addr).1 = written) := by
    unfold transact
    split
    · exact .inl rfl
    · split
      · exact .inl rfl
      · rename_i done
        obtain ⟨kept | pushed, written⟩ := Bus.cache_of_transact done
        · exact .inl kept
        · exact .inr ⟨pushed, written⟩
  cases operation with
  | read =>
      rcases outcome with kept | ⟨pushed, -⟩
      · have silent : memory.caches .read addr = false := by
          simp [caches, kept]
        rw [kept, MembusCache.record, entry, silent]
        rfl
      · have cached : memory.caches .read addr = true := by
          simp [caches, pushed, MembusCache.push, MembusCache.pushRead]
        rw [pushed, MembusCache.record, entry, cached]
        rfl
  | write value =>
      rcases outcome with kept | ⟨pushed, written⟩
      · have silent : memory.caches (.write value) addr = false := by
          simp [caches, kept]
        rw [kept, MembusCache.record, entry, silent]
        rfl
      · have cached : memory.caches (.write value) addr = true := by
          simp [caches, pushed, MembusCache.push, MembusCache.pushWrite]
        rw [pushed, written value rfl, MembusCache.record, entry, cached]
        rfl

end DeviceBus

namespace RecordedBus

variable {δ σ : Type*} {modules : δ → MembusModule σ} {initial : MembusCache}

/-- A transaction with its log entry. -/
def transact (recorded : RecordedBus modules initial) (operation : Operation) (addr : Word) :
    RecordedBus modules initial where
  memory := (recorded.memory.transact operation addr).2
  log := recorded.memory.entry operation addr :: recorded.log
  cache_eq := by
    rw [DeviceBus.cache_transact, recorded.cache_eq, MembusCache.replay]

instance : Membus (RecordedBus modules initial) where
  readAddr recorded addr :=
    ((recorded.memory.transact .read addr).1, recorded.transact .read addr)
  writeAddr recorded addr value := recorded.transact (.write value) addr

/-- Recording changes nothing on the bus. -/
instance : BusProjection (fun recorded : RecordedBus modules initial => recorded.memory) where
  readAddr _ _ := rfl
  writeAddr _ _ _ := rfl

end RecordedBus
end System6502
