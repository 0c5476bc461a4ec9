import System6502.Membus.CacheLog

/-!
# The caches as rings

Runs of bus accesses and cache pops, and the bytes that pops return: those of the accesses that
were taken, the last one first, which no earlier pop has removed.
-/

namespace System6502

open Lib

/-! ## The cache macros -/

/-- The two caches of a bus. -/
inductive CacheSide
  | read
  | write
  deriving DecidableEq, Repr

/-- The cache that a transaction pushes to. -/
def Operation.side : Operation → CacheSide
  | read => .read
  | write _ => .write

namespace MembusCache

/-- `rcache_idx` and `wcache_idx`. -/
def idx (cache : MembusCache) : CacheSide → Byte
  | .read => cache.rcacheIdx
  | .write => cache.wcacheIdx

/-- `rcache` and `wcache`. -/
def cells (cache : MembusCache) : CacheSide → Fin 8 → Byte
  | .read => cache.rcache
  | .write => cache.wcache

/-- `membus_rcache_pop` and `membus_wcache_pop`. -/
def pop (cache : MembusCache) : CacheSide → Byte × MembusCache
  | .read => cache.popRead
  | .write => cache.popWrite

/-- The index in `membus_rcache_push` and `membus_wcache_push`, a remainder of an `int`. -/
def pushIndex (cache : MembusCache) (side : CacheSide) : Int :=
  Int.tmod (cache.idx side).toNat 8

/-- The index in `membus_rcache_pop` and `membus_wcache_pop`, which count down in `uint8_t`. -/
def popIndex (cache : MembusCache) (side : CacheSide) : Int :=
  Int.tmod (cache.idx side - 1).toNat 8

/-- The index in `membus_rcache_peek` and `membus_wcache_peek`, which subtract in `int`. -/
def peekIndex (cache : MembusCache) (side : CacheSide) : Int :=
  Int.tmod ((cache.idx side).toNat - 1) 8

/-- `membus_rcache_peek` and `membus_wcache_peek`, where the index is one of the array. -/
def peek (cache : MembusCache) (side : CacheSide) : Option Byte :=
  if within : 0 ≤ cache.peekIndex side ∧ cache.peekIndex side < 8 then
    some (cache.cells side ⟨(cache.peekIndex side).toNat, by omega⟩)
  else none

/-- The byte that a number of pops skip. -/
def entryOf (cache : MembusCache) (side : CacheSide) : Nat → Byte :=
  RingLog.entry slot (cache.cells side) (cache.idx side)

end MembusCache

/-! ## Runs -/

/-- An event at the caches of a bus. -/
inductive CacheEvent
  /-- An access with the byte that it returns, and whether a module or a vector took it. -/
  | access (operation : Operation) (value : Byte) (isTaken : Bool)
  /-- A pop with the byte that it returns. -/
  | pop (side : CacheSide) (value : Byte)
  deriving DecidableEq, Repr

namespace CacheEvent

/-- The byte that an event pushes to a cache: one that is read or one that is written. -/
def pushed (side : CacheSide) : CacheEvent → Option Byte
  | access .read value isTaken => if isTaken && side = .read then some value else none
  | access (.write written) _ isTaken => if isTaken && side = .write then some written else none
  | pop _ _ => none

/-- The byte that an event reads or writes, whether or not it is pushed to a cache. -/
def accessed (side : CacheSide) : CacheEvent → Option Byte
  | access .read value _ => if side = .read then some value else none
  | access (.write written) _ _ => if side = .write then some written else none
  | pop _ _ => none

/-- The event pops a cache. -/
def pops (side : CacheSide) : CacheEvent → Bool
  | access _ _ _ => false
  | pop popped _ => popped = side

end CacheEvent

variable {δ σ : Type*}

/-- Whether a module accepts a transaction or it is one of a vector. -/
def Bus.taken (modules : δ → MembusModule σ) (bus : Bus δ) (operation : Operation) (addr : Word)
    (state : σ) : Bool :=
  match observerLoop modules operation addr operation.preOp (observers bus.preOp) state with
  | .error _ => false
  | .ok before =>
      match tierLoop modules operation addr bus.modules
        { value := operation.initial, isDone := false, isLooping := true, state := before } with
      | .error _ => false
      | .ok route => route.isDone || decide (IsVector addr)

/-- The events of a run of accesses and pops from a bus and devices, and where they lead. -/
inductive CacheRun (modules : δ → MembusModule σ) (start : Bus δ × σ) :
    List CacheEvent → Bus δ × σ → Prop
  | start : CacheRun modules start [] start
  | access {events : List CacheEvent} {bus after : Bus δ} {state last : σ} {operation : Operation}
      {addr : Word} {value : Byte} (run : CacheRun modules start events (bus, state))
      (done : bus.transact modules operation addr state = .ok (value, after, last)) :
      CacheRun modules start
        (events ++ [.access operation value (bus.taken modules operation addr state)])
        (after, last)
  | pop {events : List CacheEvent} {bus : Bus δ} {state : σ} (side : CacheSide)
      (run : CacheRun modules start events (bus, state)) :
      CacheRun modules start (events ++ [.pop side (bus.cache.pop side).1])
        ({ bus with cache := (bus.cache.pop side).2 }, state)

/-- The bytes pushed to a cache, the last one first. -/
def pushedBytes (side : CacheSide) (events : List CacheEvent) : List Byte :=
  (events.filterMap (CacheEvent.pushed side)).reverse

/-- The bytes of the accesses to a cache, taken or not, the last one first. -/
def accessedBytes (side : CacheSide) (events : List CacheEvent) : List Byte :=
  (events.filterMap (CacheEvent.accessed side)).reverse

/-- The number of pops of a cache. -/
def popCount (side : CacheSide) (events : List CacheEvent) : Nat :=
  events.countP (CacheEvent.pops side)

/-- No part of a run pops more than eight entries beyond what it pushes. -/
def Sparing (side : CacheSide) (events : List CacheEvent) : Prop :=
  ∀ part, part <:+: events → popCount side part ≤ (pushedBytes side part).length + 8

/-- The pops that follow a push return the bytes of the accesses, whatever was popped before. -/
def PopsRecent (side : CacheSide) (events : List CacheEvent) : Prop :=
  ∀ front middle rest value, events = front ++ middle ++ .pop side value :: rest →
    pushedBytes side middle = [] →
      ∀ recent ∈ (accessedBytes side front)[popCount side middle]?, value = recent

/-- An event at the entries that are left in a cache, the topmost one first. -/
def CacheEvent.leave (side : CacheSide) (entries : Nat → Byte) (event : CacheEvent) : Nat → Byte :=
  match event.pushed side with
  | some value => fun depth => if depth = 0 then value else entries (depth - 1)
  | none => if event.pops side then fun depth => entries (depth + 1) else entries

/-- The bytes pushed to a cache that no pop has removed, the last one first, on top of what the
cache held at the start. -/
def remaining (side : CacheSide) (initial : Nat → Byte) (events : List CacheEvent) : Nat → Byte :=
  events.foldl (CacheEvent.leave side) initial

/-! ## Indices -/

namespace MembusCache

variable (cache : MembusCache) (side : CacheSide)

theorem pushIndex_eq : cache.pushIndex side = (slot (cache.idx side)).val := by
  exact (Int.ofNat_tmod _ 8).symm

theorem popIndex_eq : cache.popIndex side = (slot (cache.idx side - 1)).val := by
  exact (Int.ofNat_tmod _ 8).symm

/-- A peek looks where the next pop looks, unless the index is zero, where it looks in front of
the array. -/
theorem peekIndex_eq :
    cache.peekIndex side = if cache.idx side = 0 then -1 else cache.popIndex side := by
  unfold peekIndex popIndex
  split
  case isTrue zero =>
    rw [zero]
    rfl
  case isFalse nonzero =>
    have positive : (cache.idx side).toNat ≠ 0 := fun zero =>
      nonzero (BitVec.eq_of_toNat_eq zero)
    have lowered : (cache.idx side - 1).toNat = (cache.idx side).toNat - 1 := by bv_omega
    rw [lowered]
    congr 1
    omega

theorem pop_eq : (cache.pop side).1 = cache.entryOf side 0 := by
  cases side <;> rfl

theorem peek_eq :
    cache.peek side = if cache.idx side = 0 then none else some (cache.pop side).1 := by
  unfold peek
  by_cases zero : cache.idx side = 0
  · have outside := cache.peekIndex_eq side
    rw [if_pos zero] at outside
    rw [if_pos zero, dif_neg (by omega)]
  · have index_eq := cache.peekIndex_eq side
    rw [if_neg zero, popIndex_eq] at index_eq
    have slot_lt := (slot (cache.idx side - 1)).isLt
    rw [if_neg zero, dif_pos (by omega), pop_eq]
    refine congrArg some (congrArg (cache.cells side) (Fin.ext ?_))
    change (cache.peekIndex side).toNat = _
    rw [index_eq]
    rfl

end MembusCache

/-! ## What an event does to a cache -/

section Effects

variable {modules : δ → MembusModule σ} {operation : Operation} {addr : Word}

theorem Bus.served_isSome (bus : Bus δ) (route : Route σ) :
    (bus.served operation addr route).isSome = (route.isDone || decide (IsVector addr)) := by
  unfold served
  split
  case isTrue isDone => rw [isDone]; rfl
  case isFalse isOpen => rw [Bool.eq_false_iff.mpr isOpen, vector_isSome, Bool.false_or]

theorem Bus.taken_eq {bus : Bus δ} {state before : σ} {route : Route σ}
    (preOp : observerLoop modules operation addr operation.preOp (observers bus.preOp) state =
      .ok before)
    (passed : tierLoop modules operation addr bus.modules
        { value := operation.initial, isDone := false, isLooping := true, state := before } =
      .ok route) :
    bus.taken modules operation addr state = (bus.served operation addr route).isSome := by
  unfold taken
  rw [preOp]
  dsimp only
  rw [passed, served_isSome]

/-- With the caches enabled a transaction pushes its byte exactly when it is taken. -/
theorem Bus.cache_of_taken {bus after : Bus δ} {state last : σ} {value : Byte}
    (enabled : bus.cacheDisable = false)
    (done : bus.transact modules operation addr state = .ok (value, after, last)) :
    after.cache =
      if bus.taken modules operation addr state then bus.cache.push value operation
      else bus.cache := by
  unfold transact at done
  split at done
  · cases done
  · rename_i preOp
    split at done
    · cases done
    · rename_i route passed
      rw [taken_eq preOp passed]
      unfold conclude at done
      dsimp only at done
      split at done
      · cases done
      · cases served_eq : bus.served operation addr route with
        | none =>
            rw [served_eq] at done
            cases done
            rfl
        | some answer =>
            have cache_eq := cache_of_served served_eq
            rw [served_eq, enabled] at done
            cases done
            exact congrArg (fun cache => cache.push answer.1 operation) cache_eq

/-- The cells and the index of a cache after an event. -/
def CacheEvent.effect (side : CacheSide) (event : CacheEvent) (cells : Fin 8 → Byte) (idx : Byte) :
    (Fin 8 → Byte) × Byte :=
  match event.pushed side with
  | some value => (Function.update cells (MembusCache.slot idx) value, idx + 1)
  | none => if event.pops side then (cells, idx - 1) else (cells, idx)

/-- The cells and the index of a cache. -/
def MembusCache.contents (cache : MembusCache) (side : CacheSide) : (Fin 8 → Byte) × Byte :=
  (cache.cells side, cache.idx side)

/-- An access does to a cache what its event says. -/
theorem contents_access {bus after : Bus δ} {state last : σ} {value : Byte}
    (enabled : bus.cacheDisable = false)
    (done : bus.transact modules operation addr state = .ok (value, after, last))
    (side : CacheSide) :
    after.cache.contents side =
      (CacheEvent.access operation value (bus.taken modules operation addr state)).effect side
        (bus.cache.cells side) (bus.cache.idx side) := by
  rw [Bus.cache_of_taken enabled done]
  cases bus.taken modules operation addr state with
  | false => cases operation <;> rfl
  | true =>
      cases operation with
      | read => cases side <;> rfl
      | write written =>
          rw [(Bus.cache_of_transact done).2 written rfl]
          cases side <;> rfl

/-- A pop does to a cache what its event says. -/
theorem contents_pop (cache : MembusCache) (popped side : CacheSide) :
    (cache.pop popped).2.contents side =
      (CacheEvent.pop popped (cache.pop popped).1).effect side (cache.cells side)
        (cache.idx side) := by
  cases popped <;> cases side <;> rfl

end Effects

/-! ## The ring -/

/-- The cache holds a number of the entries that are left, and fewer than eight only as far as a
last part of the run has popped more than it pushed. -/
def Holds (side : CacheSide) (initial : Nat → Byte) (events : List CacheEvent)
    (cache : MembusCache) : Prop :=
  ∃ room ≤ 8, (∀ depth < room, cache.entryOf side depth = remaining side initial events depth) ∧
    ∃ part, part <:+ events ∧ room + popCount side part = (pushedBytes side part).length + 8

variable {side : CacheSide} {initial : Nat → Byte}

theorem remaining_append (events more : List CacheEvent) :
    remaining side initial (events ++ more) =
      remaining side (remaining side initial events) more :=
  List.foldl_append

theorem popCount_concat (events : List CacheEvent) (event : CacheEvent) :
    popCount side (events ++ [event]) =
      popCount side events + if event.pops side then 1 else 0 := by
  rw [popCount, List.countP_append, List.countP_singleton]
  rfl

theorem pushedBytes_concat (events : List CacheEvent) (event : CacheEvent) :
    (pushedBytes side (events ++ [event])).length =
      (pushedBytes side events).length + if (event.pushed side).isSome then 1 else 0 := by
  unfold pushedBytes
  rw [List.filterMap_append, List.reverse_append, List.length_append]
  cases pushed_eq : event.pushed side <;> simp [pushed_eq, Nat.add_comm]

theorem CacheEvent.pops_of_pushed {event : CacheEvent} {value : Byte}
    (pushes : event.pushed side = some value) : event.pops side = false := by
  cases event with
  | access => rfl
  | pop => cases pushes

/-- One event keeps the ring, as long as the run is sparing. -/
theorem Holds.step {events : List CacheEvent} {event : CacheEvent} {cache after : MembusCache}
    (holds : Holds side initial events cache) (sparing : Sparing side (events ++ [event]))
    (effect_eq : after.contents side = event.effect side (cache.cells side) (cache.idx side)) :
    Holds side initial (events ++ [event]) after ∧
      (event.pops side = true → cache.entryOf side 0 = remaining side initial events 0) := by
  obtain ⟨room, room_le, entries_eq, part, isSuffix, room_eq⟩ := holds
  have further : part ++ [event] <:+ events ++ [event] := by
    obtain ⟨front, rfl⟩ := isSuffix
    exact ⟨front, (List.append_assoc _ _ _).symm⟩
  have spared := sparing _ further.isInfix
  have popCount_eq : popCount side (part ++ [event]) = _ := popCount_concat part event
  have pushed_eq : (pushedBytes side (part ++ [event])).length = _ :=
    pushedBytes_concat part event
  have left_eq : remaining side initial (events ++ [event]) =
      event.leave side (remaining side initial events) := remaining_append _ _
  have after_eq : after.entryOf side =
      RingLog.entry MembusCache.slot (after.contents side).1 (after.contents side).2 := rfl
  unfold CacheEvent.effect at effect_eq
  unfold CacheEvent.leave at left_eq
  cases pushes : event.pushed side with
  | some value =>
      have unpopped := CacheEvent.pops_of_pushed pushes
      rw [pushes] at effect_eq left_eq pushed_eq
      rw [unpopped] at popCount_eq
      dsimp only at effect_eq left_eq
      rw [effect_eq] at after_eq
      have holds_now : ∀ depth < 8, depth < room + 1 →
          after.entryOf side depth = remaining side initial (events ++ [event]) depth := by
        intro depth depth_lt within
        rw [after_eq, left_eq]
        cases depth with
        | zero => exact RingLog.entry_push_zero value
        | succ depth =>
            exact (RingLog.entry_push_succ MembusCache.spacious_slot value depth_lt).trans
              (entries_eq depth (by omega))
      refine ⟨?_, fun popped => absurd popped (by rw [unpopped]; decide)⟩
      by_cases full : room = 8
      · exact ⟨8, Nat.le_refl 8, fun depth depth_lt => holds_now depth depth_lt (by omega), [],
          List.nil_suffix, rfl⟩
      · refine ⟨room + 1, by omega, fun depth within => holds_now depth (by omega) within,
          part ++ [event], further, ?_⟩
        simp only [Bool.false_eq_true, if_false, Option.isSome_some, if_true]
          at popCount_eq pushed_eq
        omega
  | none =>
      rw [pushes] at effect_eq left_eq pushed_eq
      dsimp only at effect_eq left_eq
      simp only [Option.isSome_none, Bool.false_eq_true, if_false] at pushed_eq
      cases popped : event.pops side with
      | true =>
          rw [popped] at popCount_eq
          rw [if_pos popped] at effect_eq left_eq
          rw [effect_eq] at after_eq
          simp only [if_true] at popCount_eq
          refine ⟨⟨room - 1, by omega, fun depth within => ?_, part ++ [event], further, by omega⟩,
            fun _ => entries_eq 0 (by omega)⟩
          rw [after_eq, left_eq]
          exact (RingLog.entry_pop depth).trans (entries_eq (depth + 1) (by omega))
      | false =>
          rw [popped] at popCount_eq
          simp only [Bool.false_eq_true, if_false] at popCount_eq
          rw [popped, if_neg Bool.false_ne_true] at effect_eq left_eq
          rw [effect_eq] at after_eq
          refine ⟨⟨room, room_le, fun depth within => ?_, part ++ [event], further, by omega⟩,
            fun absent => Bool.noConfusion absent⟩
          rw [after_eq, left_eq]
          exact entries_eq depth within

theorem Sparing.of_append {events more : List CacheEvent}
    (sparing : Sparing side (events ++ more)) : Sparing side events :=
  fun part isInfix => sparing part (isInfix.trans (List.prefix_append events more).isInfix)

theorem sparing_of_popCount_le {events : List CacheEvent} (few : popCount side events ≤ 8) :
    Sparing side events := by
  intro part isInfix
  have fewer := isInfix.sublist.countP_le (p := CacheEvent.pops side)
  unfold popCount at few ⊢
  omega

/-- An event of a run is its last one or one of the run before it. -/
theorem concat_cases {events front rest : List CacheEvent} {event last : CacheEvent}
    (split_eq : events ++ [last] = front ++ event :: rest) :
    front = events ∧ event = last ∨ ∃ before, events = front ++ event :: before := by
  obtain rfl | ⟨before, final, rfl⟩ := rest.eq_nil_or_concat
  · obtain ⟨events_eq, last_eq⟩ := List.append_inj' split_eq rfl
    exact .inl ⟨events_eq.symm, (List.cons.inj last_eq).1.symm⟩
  · rw [List.concat_eq_append, ← List.cons_append, ← List.append_assoc] at split_eq
    exact .inr ⟨before, (List.append_inj' split_eq rfl).1⟩

variable {modules : δ → MembusModule σ}

/-- Every sparing run keeps the ring, and its pops return the topmost entries that are left. -/
theorem CacheRun.holds {start current : Bus δ × σ} {events : List CacheEvent}
    (run : CacheRun modules start events current) (enabled : start.1.cacheDisable = false)
    (sparing : Sparing side events) :
    current.1.cacheDisable = false ∧
      Holds side (start.1.cache.entryOf side) events current.1.cache ∧
      ∀ front rest value, events = front ++ .pop side value :: rest →
        value = remaining side (start.1.cache.entryOf side) front 0 := by
  induction run with
  | start =>
      refine ⟨enabled, ⟨8, Nat.le_refl 8, fun _ _ => rfl, [], List.nil_suffix, rfl⟩, ?_⟩
      intro front rest value events_eq
      cases front <;> cases events_eq
  | @access events bus after state last operation addr value run done ih =>
      obtain ⟨stillEnabled, holds, returns⟩ := ih sparing.of_append
      have fixed_eq := Bus.fixed_of_transact done
      have effect_eq := contents_access stillEnabled done side
      refine ⟨(congrArg (fun fixed => fixed.2.1) fixed_eq).trans stillEnabled,
        (holds.step sparing effect_eq).1, ?_⟩
      intro front rest popped events_eq
      obtain ⟨-, absent⟩ | ⟨before, events_eq⟩ := concat_cases events_eq
      · cases absent
      · exact returns front before popped events_eq
  | @pop events bus state popped run ih =>
      obtain ⟨stillEnabled, holds, returns⟩ := ih sparing.of_append
      obtain ⟨holds_now, top⟩ := holds.step sparing (contents_pop bus.cache popped side)
      refine ⟨stillEnabled, holds_now, ?_⟩
      intro front rest value events_eq
      obtain ⟨rfl, event_eq⟩ | ⟨before, events_eq⟩ := concat_cases events_eq
      · cases event_eq
        rw [← top (decide_eq_true rfl)]
        exact bus.cache.pop_eq side
      · exact returns front before value events_eq

/-- Pops without a push take away the topmost entries one after the other. -/
theorem remaining_of_quiet {middle : List CacheEvent} (quiet : pushedBytes side middle = [])
    (entries : Nat → Byte) (depth : Nat) :
    remaining side entries middle depth = entries (depth + popCount side middle) := by
  induction middle generalizing entries with
  | nil => rfl
  | cons event middle ih =>
      have unpushed : event.pushed side = none := by
        rw [pushedBytes, List.reverse_eq_nil_iff, List.filterMap_eq_nil_iff] at quiet
        exact quiet event List.mem_cons_self
      have quiet' : pushedBytes side middle = [] := by
        rw [pushedBytes, List.filterMap_cons_none unpushed] at quiet
        exact quiet
      change remaining side (event.leave side entries) middle depth = _
      rw [ih quiet', CacheEvent.leave, unpushed, popCount, popCount, List.countP_cons]
      dsimp only
      split <;> rfl

/-- In a run of accesses and pops that never pops more than eight entries beyond what was pushed
since, the pops that follow a push or the start return the bytes that are left one after the other,
the one pushed last first; a peek at an index other than zero returns what the next pop returns;
and the indices lie in the array. -/
theorem CacheRun.ring {bus after : Bus δ} {state last : σ} {events : List CacheEvent}
    (run : CacheRun modules (bus, state) events (after, last))
    (enabled : bus.cacheDisable = false) (side : CacheSide) (sparing : Sparing side events) :
    (∀ front middle rest value, events = front ++ middle ++ .pop side value :: rest →
      pushedBytes side middle = [] →
        value = remaining side (bus.cache.entryOf side) front (popCount side middle)) ∧
    (after.cache.idx side ≠ 0 → after.cache.peek side = some (after.cache.pop side).1) ∧
    (0 ≤ after.cache.pushIndex side ∧ after.cache.pushIndex side ≤ 7) ∧
    (0 ≤ after.cache.popIndex side ∧ after.cache.popIndex side ≤ 7) ∧
    (after.cache.idx side ≠ 0 →
      0 ≤ after.cache.peekIndex side ∧ after.cache.peekIndex side ≤ 7) := by
  have slot_le := fun idx : Byte => Nat.le_of_lt_succ (MembusCache.slot idx).isLt
  refine ⟨?_, ?_, ?_, ?_, ?_⟩
  · intro front middle rest value events_eq quiet
    rw [(run.holds enabled sparing).2.2 _ _ _ events_eq, remaining_append,
      remaining_of_quiet quiet, Nat.zero_add]
  · intro nonzero
    rw [after.cache.peek_eq, if_neg nonzero]
  · have := slot_le (after.cache.idx side)
    rw [after.cache.pushIndex_eq]
    omega
  · have := slot_le (after.cache.idx side - 1)
    rw [after.cache.popIndex_eq]
    omega
  · intro nonzero
    have := slot_le (after.cache.idx side - 1)
    rw [after.cache.peekIndex_eq, if_neg nonzero, after.cache.popIndex_eq]
    omega

/-! ## A page of bytes -/

/-- A page whose bytes are the low bytes of their addresses. -/
def echo (_ : Unit) : MembusModule Unit where
  addrRange := { addrLo := 0x0200, addrLen := 0x0100 }
  readCallback := some fun addr _ state => some (.accepted, addr.low, state)
  writeCallback := none

/-- A bus with that page alone. -/
def echoBus : Bus Unit :=
  ((Bus.alloc .blank fun _ => 0).registerModule (Bus.firsts echo)
    { tier := 0, module := (), allocations := { node := true, tier := true } }).2

/-- Two reads, a pop, a third read and two more pops. -/
theorem echo_run : ∃ current, CacheRun echo (echoBus, ())
    [.access .read 0x01 true, .access .read 0x02 true, .pop .read 0x02, .access .read 0x03 true,
      .pop .read 0x03, .pop .read 0x01] current := by
  have first : CacheRun echo (echoBus, ()) [.access .read 0x01 true] (_, _) :=
    .access .start (show echoBus.transact echo .read 0x0201 () = .ok (_, _, _) from rfl)
  have second : CacheRun echo (echoBus, ())
      [.access .read 0x01 true, .access .read 0x02 true] (_, _) :=
    .access first (show Bus.transact echo _ .read 0x0202 () = .ok (_, _, _) from rfl)
  have third : CacheRun echo (echoBus, ())
      [.access .read 0x01 true, .access .read 0x02 true, .pop .read 0x02, .access .read 0x03 true]
      (_, _) :=
    .access (.pop .read second) (show Bus.transact echo _ .read 0x0203 () = .ok (_, _, _) from rfl)
  exact ⟨_, .pop .read (.pop .read third)⟩

/-- The second of the last two pops returns the byte under the one that was pushed last. -/
theorem ring_echo :
    0x01 = remaining .read (echoBus.cache.entryOf .read)
      [.access .read 0x01 true, .access .read 0x02 true, .pop .read 0x02, .access .read 0x03 true]
      1 := by
  obtain ⟨⟨after, last⟩, run⟩ := echo_run
  exact (run.ring rfl .read (sparing_of_popCount_le (by decide))).1 _ [.pop .read 0x03] [] _ rfl rfl

/-- A byte that was popped does not come back, a byte that nothing answers is not pushed, and a
peek at index zero is out of the array. -/
theorem not_popsRecent :
    (¬ ∀ events current, CacheRun echo (echoBus, ()) events current → Sparing .read events →
      PopsRecent .read events) ∧
    (∃ current, CacheRun echo (echoBus, ())
      [.access .read 0x01 true, .access .read 0x00 false, .pop .read 0x01] current) ∧
    MembusCache.blank.peek .read = none := by
  refine ⟨fun recent => ?_, ?_, rfl⟩
  · obtain ⟨current, run⟩ := echo_run
    have same := recent _ current run (sparing_of_popCount_le (by decide))
      [.access .read 0x01 true, .access .read 0x02 true, .pop .read 0x02, .access .read 0x03 true]
      [.pop .read 0x03] [] 0x01 rfl rfl 0x02 rfl
    exact absurd same (by decide)
  · have first : CacheRun echo (echoBus, ()) [.access .read 0x01 true] (_, _) :=
      .access .start (show echoBus.transact echo .read 0x0201 () = .ok (_, _, _) from rfl)
    have second : CacheRun echo (echoBus, ())
        [.access .read 0x01 true, .access .read 0x00 false] (_, _) :=
      .access first (show Bus.transact echo _ .read 0x0300 () = .ok (_, _, _) from rfl)
    exact ⟨_, .pop .read second⟩

end System6502
