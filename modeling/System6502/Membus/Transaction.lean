import System6502.Bus
import System6502.Membus.Range
import System6502.Membus.Registry

/-!
# Bus transactions

`__membus_read_addr` and `__membus_write_addr` over the module lists of a bus.  The loops stop at
the first module that begins above the address; on lists in order of their first addresses they
call the same modules as a scan of the whole list.
-/

namespace System6502

/-- `membus_module_op_result_t`. -/
inductive OpResult
  | notAccepted
  | accepted
  | observed
  deriving DecidableEq, Repr

/-- `membus_module_t`, on devices with a state.  A read callback receives the byte behind its
pointer, or nothing for a null pointer, and leaves the byte that is behind it afterwards.  A
callback that dereferences a null pointer or does not end has no result. -/
structure MembusModule (σ : Type*) where
  /-- The addresses of the module. -/
  addrRange : MemoryAddrRange
  /-- `read_callback`, or a null pointer. -/
  readCallback : Option (Word → Option Byte → σ → Option (OpResult × Byte × σ))
  /-- `write_callback`, or a null pointer. -/
  writeCallback : Option (Word → Byte → σ → Option (OpResult × σ))

/-- `membus_module_mode_rw`. -/
def moduleModeRw : BitVec 32 := 0

/-- `membus_module_mode_ro`. -/
def moduleModeRo : BitVec 32 := 1

/-- `membus_module_mode_wo`. -/
def moduleModeWo : BitVec 32 := 2

/-- `membus_module_mode_mask`. -/
def moduleModeMask : BitVec 32 := 3

/-- A transaction: a read, or a write with its value. -/
inductive Operation
  | read
  | write (value : Byte)
  deriving DecidableEq, Repr

namespace Operation

/-- The content of `value` when the ordinary tiers are called. -/
def initial : Operation → Byte
  | read => 0
  | write value => value

/-- What the modules of the pre-op tier are passed: a null pointer, or zero. -/
def preOp : Operation → Option Byte
  | read => none
  | write _ => some 0

/-- How a callback receives its argument: a read through a pointer, a write by value. -/
def passed (argument : Option Byte) : Operation → Option Byte
  | read => argument
  | write _ => some (argument.getD 0)

end Operation

variable {δ σ : Type*}

/-- The callback of a module for a transaction, if the module includes the address and has one.
A write leaves the byte it is passed as it is. -/
def MembusModule.handler (module : MembusModule σ) (operation : Operation) (addr : Word) :
    Option (Option Byte → σ → Option (OpResult × Byte × σ)) :=
  if module.addrRange.doesInclude addr then
    match operation with
    | .read => module.readCallback.map fun callback => callback addr
    | .write _ => module.writeCallback.map fun callback argument state =>
        (callback addr (argument.getD 0) state).map fun (result, after) =>
          (result, argument.getD 0, after)
  else none

/-- The local variables of a transaction between two modules. -/
structure Route (σ : Type*) where
  /-- `value`. -/
  value : Byte
  /-- `did_read_value` or `did_write_value`. -/
  isDone : Bool
  /-- `is_looping`. -/
  isLooping : Bool
  /-- The devices. -/
  state : σ

namespace Bus

/-- The first address of each module. -/
abbrev firsts (modules : δ → MembusModule σ) (module : δ) : Word :=
  (modules module).addrRange.addrLo

section Loops

variable (modules : δ → MembusModule σ) (operation : Operation) (addr : Word)

/-- The loop over the pre-op or the post-op tier.  A module whose callback has no result is the
outcome. -/
def observerLoop (argument : Option Byte) : List δ → σ → Except δ σ
  | [], state => .ok state
  | module :: rest, state =>
      if (modules module).addrRange.addrLo ≤ addr then
        match (modules module).handler operation addr with
        | none => observerLoop argument rest state
        | some handler =>
            match handler argument state with
            | none => .error module
            | some (_, _, after) => observerLoop argument rest after
      else .ok state

/-- The loop over the modules of an ordinary tier. -/
def moduleLoop : List δ → Route σ → Except δ (Route σ)
  | [], route => .ok route
  | module :: rest, route =>
      if route.isLooping && !route.isDone && (modules module).addrRange.addrLo ≤ addr then
        match (modules module).handler operation addr with
        | none => moduleLoop rest route
        | some handler =>
            match handler (some route.value) route.state with
            | none => .error module
            | some (result, value, state) =>
                moduleLoop rest
                  { value
                    isDone := result = .accepted
                    isLooping := result ≠ .notAccepted
                    state }
      else .ok route

/-- The loop over the ordinary tiers. -/
def tierLoop : List (ModuleTierNode δ) → Route σ → Except δ (Route σ)
  | [], route => .ok route
  | tier :: rest, route =>
      if route.isLooping && !route.isDone then
        match moduleLoop modules operation addr tier.modules route with
        | .error module => .error module
        | .ok after => tierLoop rest after
      else .ok route

end Loops

/-- The byte of a vector word. -/
def vectorByte (bus : Bus δ) (addr : Word) : Option Byte :=
  if addr = memoryAddrNMIVector then some bus.nmiVector.low
  else if addr = memoryAddrNMIVector + 1 then some bus.nmiVector.high
  else if addr = memoryAddrRESVector then some bus.resVector.low
  else if addr = memoryAddrRESVector + 1 then some bus.resVector.high
  else if addr = memoryAddrIRQVector then some bus.irqVector.low
  else if addr = memoryAddrIRQVector + 1 then some bus.irqVector.high
  else none

/-- The low byte of a word replaced. -/
def replaceLow (word : Word) (value : Byte) : Word := (word &&& 0xFF00) ||| value.toWord

/-- The high byte of a word replaced. -/
def replaceHigh (word : Word) (value : Byte) : Word := (word &&& 0x00FF) ||| (value.toWord <<< 8)

/-- Set the byte of a vector word. -/
def setVectorByte (bus : Bus δ) (addr : Word) (value : Byte) : Option (Bus δ) :=
  if addr = memoryAddrNMIVector then
    some { bus with nmiVector := replaceLow bus.nmiVector value }
  else if addr = memoryAddrNMIVector + 1 then
    some { bus with nmiVector := replaceHigh bus.nmiVector value }
  else if addr = memoryAddrRESVector then
    some { bus with resVector := replaceLow bus.resVector value }
  else if addr = memoryAddrRESVector + 1 then
    some { bus with resVector := replaceHigh bus.resVector value }
  else if addr = memoryAddrIRQVector then
    some { bus with irqVector := replaceLow bus.irqVector value }
  else if addr = memoryAddrIRQVector + 1 then
    some { bus with irqVector := replaceHigh bus.irqVector value }
  else none

/-- What a bus does with a transaction that no module has accepted. -/
def vector (bus : Bus δ) (addr : Word) : Operation → Option (Byte × Bus δ)
  | .read => (bus.vectorByte addr).map fun value => (value, bus)
  | .write value => (bus.setVectorByte addr value).map fun after => (value, after)

end Bus

namespace MembusCache

/-- `membus_rcache_push`. -/
def pushRead (cache : MembusCache) (value : Byte) : MembusCache :=
  { cache with
    rcache := Function.update cache.rcache (Fin.ofNat 8 cache.rcacheIdx.toNat) value
    rcacheIdx := cache.rcacheIdx + 1 }

/-- `membus_wcache_push`. -/
def pushWrite (cache : MembusCache) (value : Byte) : MembusCache :=
  { cache with
    wcache := Function.update cache.wcache (Fin.ofNat 8 cache.wcacheIdx.toNat) value
    wcacheIdx := cache.wcacheIdx + 1 }

/-- `membus_rcache_pop`. -/
def popRead (cache : MembusCache) : Byte × MembusCache :=
  let rcacheIdx := cache.rcacheIdx - 1
  (cache.rcache (Fin.ofNat 8 rcacheIdx.toNat), { cache with rcacheIdx })

/-- `membus_wcache_pop`. -/
def popWrite (cache : MembusCache) : Byte × MembusCache :=
  let wcacheIdx := cache.wcacheIdx - 1
  (cache.wcache (Fin.ofNat 8 wcacheIdx.toNat), { cache with wcacheIdx })

/-- The push of a transaction. -/
def push (cache : MembusCache) (value : Byte) : Operation → MembusCache
  | .read => cache.pushRead value
  | .write _ => cache.pushWrite value

end MembusCache

namespace Bus

/-- The modules of the pre-op or the post-op tier. -/
def observers (tier : Option (ModuleTierNode δ)) : List δ :=
  (tier.map ModuleTierNode.modules).getD []

section Transactions

variable (modules : δ → MembusModule σ)

/-- What the ordinary tiers and the vectors answer: the byte, and the bus with its vectors. -/
def served (bus : Bus δ) (operation : Operation) (addr : Word) (route : Route σ) :
    Option (Byte × Bus δ) :=
  if route.isDone then some (route.value, bus) else bus.vector addr operation

/-- The part of a transaction after the ordinary tiers: the vectors, the post-op tier and the
cache. -/
def conclude (bus : Bus δ) (operation : Operation) (addr : Word) (route : Route σ) :
    Except δ (Byte × Bus δ × σ) :=
  let served := bus.served operation addr route
  let (value, after) := served.getD (route.value, bus)
  match observerLoop modules operation addr (some value) (observers bus.postOp) route.state with
  | .error module => .error module
  | .ok state =>
      let cached := { after with cache := after.cache.push value operation }
      .ok (value, if served.isSome && !bus.cacheDisable then cached else after, state)

/-- A transaction. -/
def transact (bus : Bus δ) (operation : Operation) (addr : Word) (state : σ) :
    Except δ (Byte × Bus δ × σ) :=
  match observerLoop modules operation addr operation.preOp (observers bus.preOp) state with
  | .error module => .error module
  | .ok before =>
      match tierLoop modules operation addr bus.modules
        { value := operation.initial, isDone := false, isLooping := true, state := before } with
      | .error module => .error module
      | .ok route => conclude modules bus operation addr route

/-- `__membus_read_addr`. -/
def readAddr (bus : Bus δ) (addr : Word) (state : σ) : Except δ (Byte × Bus δ × σ) :=
  bus.transact modules .read addr state

/-- `__membus_write_addr`. -/
def writeAddr (bus : Bus δ) (addr : Word) (value : Byte) (state : σ) : Except δ (Bus δ × σ) :=
  (bus.transact modules (.write value) addr state).map Prod.snd

end Transactions
/-! ## Scans of whole lists -/

section Scans

variable (modules : δ → MembusModule σ) (operation : Operation) (addr : Word)

/-- A module takes part in a transaction. -/
def Answers (module : δ) : Prop := ((modules module).handler operation addr).isSome = true

instance : DecidablePred (Answers modules operation addr) :=
  fun _ => inferInstanceAs (Decidable (_ = true))

/-- Call a module; one that takes no part leaves everything as it is. -/
def call (module : δ) (argument : Option Byte) (state : σ) : Except δ (OpResult × Byte × σ) :=
  match (modules module).handler operation addr with
  | none => .ok (.observed, argument.getD 0, state)
  | some handler =>
      match handler argument state with
      | none => .error module
      | some outcome => .ok outcome

/-- Call all modules of a list. -/
def notifyAll (argument : Option Byte) : List δ → σ → Except δ σ
  | [], state => .ok state
  | module :: rest, state =>
      match call modules operation addr module argument state with
      | .error silent => .error silent
      | .ok (_, _, after) => notifyAll argument rest after

/-- Pass a transaction along a list until a module accepts or refuses it. -/
def passOn : List δ → Byte → σ → Except δ (OpResult × Byte × σ)
  | [], value, state => .ok (.observed, value, state)
  | module :: rest, value, state =>
      match call modules operation addr module (some value) state with
      | .error silent => .error silent
      | .ok (.observed, left, after) => passOn rest left after
      | .ok outcome => .ok outcome

/-- The local variables after a module has answered. -/
def routeOf (outcome : OpResult × Byte × σ) : Route σ where
  value := outcome.2.1
  isDone := outcome.1 = .accepted
  isLooping := outcome.1 ≠ .notAccepted
  state := outcome.2.2

variable {modules operation addr}

theorem addrLo_le_of_answers {module : δ} (answers : Answers modules operation addr module) :
    (modules module).addrRange.addrLo ≤ addr := by
  unfold Answers MembusModule.handler at answers
  split at answers
  · rename_i includes
    unfold MemoryAddrRange.doesInclude at includes
    simp only [Bool.and_eq_true, decide_eq_true_eq] at includes
    exact includes.1.2
  · cases answers

theorem call_of_not_answers {module : δ} (silent : ¬ Answers modules operation addr module)
    (argument : Option Byte) (state : σ) :
    call modules operation addr module argument state =
      .ok (.observed, argument.getD 0, state) := by
  unfold call
  rw [Option.not_isSome_iff_eq_none.mp silent]

theorem call_eq {module : δ} {handler : Option Byte → σ → Option (OpResult × Byte × σ)}
    (handler_eq : (modules module).handler operation addr = some handler)
    (argument : Option Byte) (state : σ) :
    call modules operation addr module argument state =
      match handler argument state with
      | none => .error module
      | some outcome => .ok outcome := by
  unfold call
  rw [handler_eq]

theorem notifyAll_append (argument : Option Byte) (front back : List δ) (state : σ) :
    notifyAll modules operation addr argument (front ++ back) state =
      match notifyAll modules operation addr argument front state with
      | .error silent => .error silent
      | .ok after => notifyAll modules operation addr argument back after := by
  induction front generalizing state with
  | nil => rfl
  | cons module rest ih =>
      simp only [List.cons_append, notifyAll]
      cases call modules operation addr module argument state with
      | error => rfl
      | ok outcome => exact ih outcome.2.2

theorem notifyAll_of_not_answers (argument : Option Byte) {list : List δ} (state : σ)
    (silent : ∀ module ∈ list, ¬ Answers modules operation addr module) :
    notifyAll modules operation addr argument list state = .ok state := by
  induction list with
  | nil => rfl
  | cons module rest ih =>
      rw [List.forall_mem_cons] at silent
      simp only [notifyAll, call_of_not_answers silent.1]
      exact ih silent.2

theorem passOn_append (front back : List δ) (value : Byte) (state : σ) :
    passOn modules operation addr (front ++ back) value state =
      match passOn modules operation addr front value state with
      | .error silent => .error silent
      | .ok (.observed, left, after) => passOn modules operation addr back left after
      | .ok outcome => .ok outcome := by
  induction front generalizing value state with
  | nil => rfl
  | cons module rest ih =>
      simp only [List.cons_append, passOn]
      rcases call modules operation addr module (some value) state with
        silent | ⟨_ | _ | _, left, after⟩
      · rfl
      · rfl
      · rfl
      · exact ih left after

theorem passOn_of_not_answers {list : List δ} (value : Byte) (state : σ)
    (silent : ∀ module ∈ list, ¬ Answers modules operation addr module) :
    passOn modules operation addr list value state = .ok (.observed, value, state) := by
  induction list with
  | nil => rfl
  | cons module rest ih =>
      rw [List.forall_mem_cons] at silent
      simp only [passOn, call_of_not_answers silent.1, Option.getD_some]
      exact ih silent.2

/-! ## The loops -/

/-- Behind a module that begins above the address no module of a sorted list takes part. -/
theorem not_answers_of_above {module : δ} {rest : List δ}
    (sorted : (module :: rest).Pairwise fun left right =>
      (modules left).addrRange.addrLo ≤ (modules right).addrRange.addrLo)
    (above : ¬ (modules module).addrRange.addrLo ≤ addr) :
    ∀ other ∈ module :: rest, ¬ Answers modules operation addr other := by
  intro other other_mem answers
  have reached := addrLo_le_of_answers answers
  rcases List.mem_cons.mp other_mem with rfl | rest_mem
  · exact above reached
  · exact above (BitVec.le_trans ((List.pairwise_cons.mp sorted).1 other rest_mem) reached)

/-- On a sorted list the loop over observers calls every module that includes the address. -/
theorem observerLoop_eq (argument : Option Byte) {list : List δ} (state : σ)
    (sorted : list.Pairwise fun left right =>
      (modules left).addrRange.addrLo ≤ (modules right).addrRange.addrLo) :
    observerLoop modules operation addr argument list state =
      notifyAll modules operation addr argument list state := by
  induction list generalizing state with
  | nil => rfl
  | cons module rest ih =>
      rw [observerLoop]
      by_cases reached : (modules module).addrRange.addrLo ≤ addr
      · have further := fun state => ih state (List.pairwise_cons.mp sorted).2
        rw [if_pos reached, notifyAll]
        cases handler_eq : (modules module).handler operation addr with
        | none =>
            rw [call_of_not_answers (by simp [Answers, handler_eq])]
            exact further state
        | some handler =>
            rw [call_eq handler_eq]
            dsimp only
            rcases handler argument state with _ | ⟨_, _, after⟩
            · rfl
            · exact further after
      · rw [if_neg reached]
        exact (notifyAll_of_not_answers argument state (not_answers_of_above sorted reached)).symm

theorem moduleLoop_of_ended (list : List δ) {route : Route σ}
    (ended : (route.isLooping && !route.isDone) = false) :
    moduleLoop modules operation addr list route = .ok route := by
  cases list with
  | nil => rfl
  | cons module rest =>
      rw [moduleLoop, if_neg]
      simp [ended]

/-- On a sorted list the loop of a tier ends where passing the transaction along ends. -/
theorem moduleLoop_eq {list : List δ} (value : Byte) (state : σ)
    (sorted : list.Pairwise fun left right =>
      (modules left).addrRange.addrLo ≤ (modules right).addrRange.addrLo) :
    moduleLoop modules operation addr list
        { value, isDone := false, isLooping := true, state } =
      (passOn modules operation addr list value state).map routeOf := by
  induction list generalizing value state with
  | nil => rfl
  | cons module rest ih =>
      rw [moduleLoop]
      by_cases reached : (modules module).addrRange.addrLo ≤ addr
      · have further := fun value state => ih value state (List.pairwise_cons.mp sorted).2
        rw [if_pos (by simpa using reached), passOn]
        cases handler_eq : (modules module).handler operation addr with
        | none =>
            rw [call_of_not_answers (by simp [Answers, handler_eq])]
            exact further value state
        | some handler =>
            rw [call_eq handler_eq]
            dsimp only
            rcases handler (some value) state with _ | ⟨_ | _ | _, left, after⟩
            · rfl
            · exact moduleLoop_of_ended rest rfl
            · exact moduleLoop_of_ended rest rfl
            · exact further left after
      · rw [if_neg (by simpa using reached),
          passOn_of_not_answers value state (not_answers_of_above sorted reached)]
        rfl

theorem tierLoop_of_ended (tiers : List (ModuleTierNode δ)) {route : Route σ}
    (ended : (route.isLooping && !route.isDone) = false) :
    tierLoop modules operation addr tiers route = .ok route := by
  cases tiers with
  | nil => rfl
  | cons tier rest =>
      rw [tierLoop, if_neg]
      simp [ended]

/-- On sorted tiers the transaction is passed along all modules of the ordinary tiers. -/
theorem tierLoop_eq {tiers : List (ModuleTierNode δ)} (value : Byte) (state : σ)
    (sorted : ∀ tier ∈ tiers, tier.modules.Pairwise fun left right =>
      (modules left).addrRange.addrLo ≤ (modules right).addrRange.addrLo) :
    tierLoop modules operation addr tiers
        { value, isDone := false, isLooping := true, state } =
      (passOn modules operation addr (tiers.flatMap ModuleTierNode.modules) value state).map
        routeOf := by
  induction tiers generalizing value state with
  | nil => rfl
  | cons tier rest ih =>
      rw [List.forall_mem_cons] at sorted
      rw [tierLoop, if_pos (by rfl), moduleLoop_eq value state sorted.1, List.flatMap_cons,
        passOn_append]
      rcases passOn modules operation addr tier.modules value state with
        silent | ⟨_ | _ | _, left, after⟩
      · rfl
      · exact tierLoop_of_ended rest rfl
      · exact tierLoop_of_ended rest rfl
      · exact ih left after sorted.2

end Scans

/-! ## Transactions on a sorted bus -/

/-- The three vector words. -/
def vectors (bus : Bus δ) : Word × Word × Word := (bus.nmiVector, bus.resVector, bus.irqVector)

/-- The module lists. -/
def layout (bus : Bus δ) :
    Option (ModuleTierNode δ) × List (ModuleTierNode δ) × Option (ModuleTierNode δ) :=
  (bus.preOp, bus.modules, bus.postOp)

/-- Everything about a bus but its vector words and its caches. -/
def fixed (bus : Bus δ) :
    (Option (ModuleTierNode δ) × List (ModuleTierNode δ) × Option (ModuleTierNode δ)) ×
      Bool × (δ → Nat) :=
  (bus.layout, bus.cacheDisable, bus.refCount)

/-- The modules of the ordinary tiers in the order of the loops. -/
def ordinary (bus : Bus δ) : List δ := bus.modules.flatMap ModuleTierNode.modules

/-- The address of a vector byte. -/
def IsVector (addr : Word) : Prop := memoryAddrNMIVector ≤ addr

instance (addr : Word) : Decidable (IsVector addr) := inferInstanceAs (Decidable (_ ≤ _))

section Sorted

variable {modules : δ → MembusModule σ} {operation : Operation} {addr : Word}

theorem vector_of_not_isVector (bus : Bus δ) (outside : ¬ IsVector addr) :
    bus.vector addr operation = none := by
  have other : ∀ vector, IsVector vector → addr ≠ vector := fun _ inside same =>
    outside (same ▸ inside)
  have nmi := other memoryAddrNMIVector (by decide)
  have nmiHigh := other (memoryAddrNMIVector + 1) (by decide)
  have res := other memoryAddrRESVector (by decide)
  have resHigh := other (memoryAddrRESVector + 1) (by decide)
  have irq := other memoryAddrIRQVector (by decide)
  have irqHigh := other (memoryAddrIRQVector + 1) (by decide)
  cases operation with
  | read =>
      simp only [vector, vectorByte, if_neg nmi, if_neg nmiHigh, if_neg res, if_neg resHigh,
        if_neg irq, if_neg irqHigh, Option.map_none]
  | write =>
      simp only [vector, setVectorByte, if_neg nmi, if_neg nmiHigh, if_neg res, if_neg resHigh,
        if_neg irq, if_neg irqHigh, Option.map_none]

theorem IsVector.places (isVector : IsVector addr) :
    addr = memoryAddrNMIVector ∨ addr = memoryAddrNMIVector + 1 ∨
      addr = memoryAddrRESVector ∨ addr = memoryAddrRESVector + 1 ∨
      addr = memoryAddrIRQVector ∨ addr = memoryAddrIRQVector + 1 := by
  unfold IsVector memoryAddrNMIVector at isVector
  unfold memoryAddrNMIVector memoryAddrRESVector memoryAddrIRQVector
  bv_omega

/-- A bus answers at the addresses of its vectors, and there alone. -/
theorem vector_isSome (bus : Bus δ) (operation : Operation) (addr : Word) :
    (bus.vector addr operation).isSome = decide (IsVector addr) := by
  by_cases isVector : IsVector addr
  · rw [decide_eq_true isVector]
    rcases isVector.places with rfl | rfl | rfl | rfl | rfl | rfl <;> cases operation <;> rfl
  · rw [decide_eq_false isVector, vector_of_not_isVector bus isVector]
    rfl

theorem Sorted.observers {bus : Bus δ} {addrLo : δ → Word} (sorted : bus.Sorted addrLo) :
    (observers bus.preOp).Pairwise (fun left right => addrLo left ≤ addrLo right) ∧
      (observers bus.postOp).Pairwise fun left right => addrLo left ≤ addrLo right := by
  constructor
  · cases pre : bus.preOp with
    | none => exact List.Pairwise.nil
    | some node => exact sorted.chains node (by simp [nodes, pre])
  · cases post : bus.postOp with
    | none => exact List.Pairwise.nil
    | some node => exact sorted.chains node (by simp [nodes, post])

/-- A transaction on a sorted bus calls every module of the pre-op tier, passes along the ordinary
tiers and calls every module of the post-op tier. -/
theorem transact_eq {bus : Bus δ}
    (sorted : bus.Sorted (firsts modules)) (state : σ) :
    bus.transact modules operation addr state =
      match notifyAll modules operation addr operation.preOp (Bus.observers bus.preOp) state with
      | .error silent => .error silent
      | .ok before =>
          match passOn modules operation addr bus.ordinary operation.initial before with
          | .error silent => .error silent
          | .ok outcome => conclude modules bus operation addr (routeOf outcome) := by
  have tiers : ∀ tier ∈ bus.modules, tier.modules.Pairwise fun left right =>
      (modules left).addrRange.addrLo ≤ (modules right).addrRange.addrLo :=
    fun tier tier_mem => sorted.chains tier (by simp [nodes, tier_mem])
  unfold transact
  rw [observerLoop_eq operation.preOp state sorted.observers.1]
  rcases notifyAll modules operation addr operation.preOp (Bus.observers bus.preOp) state with
    silent | before
  · rfl
  · dsimp only
    rw [tierLoop_eq operation.initial before tiers, ← ordinary]
    rcases passOn modules operation addr bus.ordinary operation.initial before with
      silent | outcome
    · rfl
    · rfl

end Sorted

/-! ## Values of writes -/

section Values

variable {modules : δ → MembusModule σ} {addr : Word} {value : Byte}

/-- A write leaves the byte that it passes along. -/
theorem value_of_moduleLoop {list : List δ} {route last : Route σ}
    (done : moduleLoop modules (.write value) addr list route = .ok last) :
    last.value = route.value := by
  induction list generalizing route with
  | nil => exact (Except.ok.inj done) ▸ rfl
  | cons module rest ih =>
      rw [moduleLoop] at done
      split at done
      · rw [MembusModule.handler] at done
        by_cases includes : (modules module).addrRange.doesInclude addr = true
        · rw [if_pos includes] at done
          cases writes : (modules module).writeCallback with
          | none =>
              rw [writes] at done
              exact ih done
          | some callback =>
              simp only [writes, Option.map_some] at done
              cases answer : callback addr ((some route.value).getD 0) route.state with
              | none =>
                  rw [answer] at done
                  cases done
              | some outcome =>
                  rw [answer] at done
                  exact (ih done).trans rfl
        · rw [if_neg includes] at done
          exact ih done
      · exact (Except.ok.inj done) ▸ rfl

theorem value_of_tierLoop {tiers : List (ModuleTierNode δ)} {route last : Route σ}
    (done : tierLoop modules (.write value) addr tiers route = .ok last) :
    last.value = route.value := by
  induction tiers generalizing route with
  | nil => exact (Except.ok.inj done) ▸ rfl
  | cons tier rest ih =>
      rw [tierLoop] at done
      split at done
      · cases inner : moduleLoop modules (.write value) addr tier.modules route with
        | error =>
            rw [inner] at done
            cases done
        | ok after =>
            rw [inner] at done
            exact (ih done).trans (value_of_moduleLoop inner)
      · exact (Except.ok.inj done) ▸ rfl

/-- The vectors answer a write with the byte that they are passed. -/
theorem value_of_served {bus : Bus δ} {route : Route σ} (value_eq : route.value = value) :
    ((bus.served (.write value) addr route).getD (route.value, bus)).1 = value := by
  unfold served
  split
  · exact value_eq
  · change (((bus.setVectorByte addr value).map fun after => (value, after)).getD
      (route.value, bus)).1 = value
    cases bus.setVectorByte addr value with
    | none => exact value_eq
    | some => rfl

end Values

/-! ## Caches -/

section Caches

variable {modules : δ → MembusModule σ} {operation : Operation} {addr : Word}

theorem cache_of_served {bus after : Bus δ} {route : Route σ} {value : Byte}
    (answered : bus.served operation addr route = some (value, after)) :
    after.cache = bus.cache := by
  unfold served at answered
  split at answered
  · cases answered
    rfl
  · cases operation with
    | read =>
        obtain ⟨_, -, answer_eq⟩ := Option.map_eq_some_iff.mp answered
        rw [← (Prod.mk.inj answer_eq).2]
    | write =>
        obtain ⟨_, set_eq, answer_eq⟩ := Option.map_eq_some_iff.mp answered
        rw [← (Prod.mk.inj answer_eq).2]
        unfold setVectorByte at set_eq
        split_ifs at set_eq <;> exact Option.some.inj set_eq ▸ rfl

/-- A transaction leaves the caches alone or pushes the byte that it answers with, which for a
write is the byte written. -/
theorem cache_of_transact {bus after : Bus δ} {state last : σ} {value : Byte}
    (done : bus.transact modules operation addr state = .ok (value, after, last)) :
    (after.cache = bus.cache ∨ after.cache = bus.cache.push value operation) ∧
      ∀ written, operation = .write written → value = written := by
  unfold transact at done
  split at done
  · cases done
  · split at done
    · cases done
    · rename_i route passed
      unfold conclude at done
      dsimp only at done
      split at done
      · cases done
      · refine ⟨?_, ?_⟩
        · cases served_eq : bus.served operation addr route with
          | none =>
              rw [served_eq] at done
              cases done
              exact .inl rfl
          | some answer =>
              have cache_eq := cache_of_served served_eq
              rw [served_eq] at done
              cases done
              split
              · exact .inr (congrArg (fun cache => cache.push answer.1 operation) cache_eq)
              · exact .inl cache_eq
        · rintro written rfl
          cases done
          exact value_of_served (value_of_tierLoop passed)

end Caches

/-! ## What the outside sees of a transaction -/

/-- The byte of a transaction, the vector words and the devices after it. -/
def visible (outcome : Byte × Bus δ × σ) : Byte × (Word × Word × Word) × σ :=
  (outcome.1, outcome.2.1.vectors, outcome.2.2)

section Visible

variable {modules : δ → MembusModule σ} {operation : Operation} {addr : Word}

theorem vectorByte_congr {bus other : Bus δ} (vectors_eq : bus.vectors = other.vectors)
    (addr : Word) : bus.vectorByte addr = other.vectorByte addr := by
  simp only [vectors, Prod.mk.injEq] at vectors_eq
  obtain ⟨nmi_eq, res_eq, irq_eq⟩ := vectors_eq
  unfold vectorByte
  rw [nmi_eq, res_eq, irq_eq]

theorem setVectorByte_congr {bus other : Bus δ} (vectors_eq : bus.vectors = other.vectors)
    (addr : Word) (value : Byte) :
    (bus.setVectorByte addr value).map vectors = (other.setVectorByte addr value).map vectors := by
  simp only [vectors, Prod.mk.injEq] at vectors_eq
  obtain ⟨nmi_eq, res_eq, irq_eq⟩ := vectors_eq
  simp only [setVectorByte, apply_ite (Option.map vectors), Option.map_some, Option.map_none,
    vectors, nmi_eq, res_eq, irq_eq]

variable (operation addr) in
theorem vector_congr {bus other : Bus δ} (vectors_eq : bus.vectors = other.vectors) :
    (bus.vector addr operation).map (fun answer => (answer.1, answer.2.vectors)) =
      (other.vector addr operation).map fun answer => (answer.1, answer.2.vectors) := by
  cases operation with
  | read =>
      rw [vector, vector, Option.map_map, Option.map_map, vectorByte_congr vectors_eq]
      exact congrArg (fun held => (other.vectorByte addr).map fun value => (value, held)) vectors_eq
  | write value =>
      have set_eq := congrArg (Option.map fun held => (value, held))
        (setVectorByte_congr vectors_eq addr value)
      rw [vector, vector, Option.map_map, Option.map_map]
      rw [Option.map_map, Option.map_map] at set_eq
      exact set_eq

theorem fixed_of_vector {bus after : Bus δ} {value : Byte}
    (answered : bus.vector addr operation = some (value, after)) : after.fixed = bus.fixed := by
  cases operation with
  | read =>
      obtain ⟨_, -, answer_eq⟩ := Option.map_eq_some_iff.mp answered
      rw [← (Prod.mk.inj answer_eq).2]
  | write =>
      obtain ⟨_, set_eq, answer_eq⟩ := Option.map_eq_some_iff.mp answered
      rw [← (Prod.mk.inj answer_eq).2]
      unfold setVectorByte at set_eq
      split_ifs at set_eq <;> exact Option.some.inj set_eq ▸ rfl

theorem fixed_of_served {bus after : Bus δ} {route : Route σ} {value : Byte}
    (answered : bus.served operation addr route = some (value, after)) :
    after.fixed = bus.fixed := by
  unfold served at answered
  split at answered
  · cases answered
    rfl
  · exact fixed_of_vector answered

/-- A transaction changes the vector words and the caches of a bus only. -/
theorem fixed_of_transact {bus after : Bus δ} {state last : σ} {value : Byte}
    (done : bus.transact modules operation addr state = .ok (value, after, last)) :
    after.fixed = bus.fixed := by
  unfold transact at done
  split at done
  · cases done
  · split at done
    · cases done
    · rename_i route _
      unfold conclude at done
      dsimp only at done
      split at done
      · cases done
      · cases served_eq : bus.served operation addr route with
        | none =>
            rw [served_eq] at done
            cases done
            rfl
        | some answer =>
            have answer_fixed := fixed_of_served served_eq
            rw [served_eq] at done
            cases done
            split <;> exact answer_fixed

/-- A transaction keeps the module lists. -/
theorem layout_of_transact {bus after : Bus δ} {state last : σ} {value : Byte}
    (done : bus.transact modules operation addr state = .ok (value, after, last)) :
    after.layout = bus.layout :=
  congrArg Prod.fst (fixed_of_transact done)

/-- The byte and the vectors after the ordinary tiers. -/
def answer (bus : Bus δ) (operation : Operation) (addr : Word) (route : Route σ) :
    Byte × Word × Word × Word :=
  let (value, after) := (bus.served operation addr route).getD (route.value, bus)
  (value, after.vectors)

theorem answer_of_settled (bus : Bus δ) {route : Route σ}
    (settled : route.isDone = true ∨ ¬ IsVector addr) :
    bus.answer operation addr route = (route.value, bus.vectors) := by
  unfold answer served
  by_cases isDone : route.isDone = true
  · rw [if_pos isDone]
    rfl
  · rw [if_neg isDone, vector_of_not_isVector bus (settled.resolve_left isDone)]
    rfl

theorem answer_congr {bus other : Bus δ} {route otherRoute : Route σ}
    (vectors_eq : bus.vectors = other.vectors) (value_eq : route.value = otherRoute.value)
    (done : route.isDone = otherRoute.isDone ∨ ¬ IsVector addr) :
    bus.answer operation addr route = other.answer operation addr otherRoute := by
  by_cases settled : (route.isDone = true ∧ otherRoute.isDone = true) ∨ ¬ IsVector addr
  · rw [answer_of_settled bus (settled.imp_left And.left),
      answer_of_settled other (settled.imp_left And.right), vectors_eq, value_eq]
  · obtain ⟨notDone, isVector⟩ := not_or.mp settled
    have done_eq := done.resolve_right isVector
    have open' : ¬ route.isDone = true := fun isDone => notDone ⟨isDone, done_eq ▸ isDone⟩
    have answers := vector_congr operation addr vectors_eq
    unfold answer served
    rw [if_neg open', if_neg (done_eq ▸ open')]
    revert answers
    rcases bus.vector addr operation with _ | ⟨value, after⟩ <;>
      rcases other.vector addr operation with _ | ⟨otherValue, otherAfter⟩ <;> intro answers
    · exact Prod.ext value_eq vectors_eq
    · cases answers
    · cases answers
    · exact Option.some.inj answers

theorem conclude_visible (bus : Bus δ) (route : Route σ) :
    (conclude modules bus operation addr route).map visible =
      (observerLoop modules operation addr (some (bus.answer operation addr route).1)
        (observers bus.postOp) route.state).map fun state =>
          ((bus.answer operation addr route).1, (bus.answer operation addr route).2, state) := by
  unfold conclude
  dsimp only
  change (match observerLoop modules operation addr (some (bus.answer operation addr route).1)
    (observers bus.postOp) route.state with | .error module => _ | .ok state => _ :
      Except δ (Byte × Bus δ × σ)).map visible = _
  rcases observerLoop modules operation addr (some (bus.answer operation addr route).1)
    (observers bus.postOp) route.state with silent | state
  · rfl
  · dsimp only [Except.map]
    split <;> rfl

/-- Buses with the same vectors and with post-op tiers that do the same conclude a transaction
alike, unless only one of them has been answered at the address of a vector. -/
theorem conclude_congr {bus other : Bus δ} {route otherRoute : Route σ}
    (vectors_eq : bus.vectors = other.vectors) (value_eq : route.value = otherRoute.value)
    (state_eq : route.state = otherRoute.state)
    (done : route.isDone = otherRoute.isDone ∨ ¬ IsVector addr)
    (postOp : ∀ value state,
      observerLoop modules operation addr (some value) (observers bus.postOp) state =
        observerLoop modules operation addr (some value) (observers other.postOp) state) :
    (conclude modules bus operation addr route).map visible =
      (conclude modules other operation addr otherRoute).map visible := by
  rw [conclude_visible, conclude_visible, answer_congr vectors_eq value_eq done, postOp, state_eq]

/-- Buses with the same vectors and the same ordinary tiers, and with pre-op and post-op tiers that
do the same, show the same of a transaction. -/
theorem transact_congr {bus other : Bus δ} {state : σ} (sorted : bus.Sorted (firsts modules))
    (otherSorted : other.Sorted (firsts modules)) (vectors_eq : bus.vectors = other.vectors)
    (preOp : notifyAll modules operation addr operation.preOp (observers bus.preOp) state =
      notifyAll modules operation addr operation.preOp (observers other.preOp) state)
    (ordinary_eq : bus.ordinary = other.ordinary)
    (postOp : ∀ value state,
      observerLoop modules operation addr (some value) (observers bus.postOp) state =
        observerLoop modules operation addr (some value) (observers other.postOp) state) :
    (bus.transact modules operation addr state).map visible =
      (other.transact modules operation addr state).map visible := by
  rw [transact_eq sorted, transact_eq otherSorted, preOp, ordinary_eq]
  rcases notifyAll modules operation addr operation.preOp (observers other.preOp) state with
    silent | before
  · rfl
  · dsimp only
    rcases passOn modules operation addr other.ordinary operation.initial before with
      silent | outcome
    · rfl
    · exact conclude_congr vectors_eq rfl rfl (.inl rfl) postOp

end Visible

/-! ## Views of the devices -/

section Views

variable {τ : Type*}

/-- Modules that do to a view of their devices what others do to theirs. -/
structure Abstracts (view : τ → σ) (modules : δ → MembusModule τ)
    (abstract : δ → MembusModule σ) : Prop where
  /-- The ranges are the same. -/
  range_eq : ∀ module, (modules module).addrRange = (abstract module).addrRange
  /-- The calls are the same. -/
  call_eq : ∀ operation addr module argument state,
    (call modules operation addr module argument state).map (Prod.map id (Prod.map id view)) =
      call abstract operation addr module argument (view state)

variable {view : τ → σ} {modules : δ → MembusModule τ} {abstract : δ → MembusModule σ}
  {operation : Operation} {addr : Word}

theorem Abstracts.firsts_eq (abstracts : Abstracts view modules abstract) :
    firsts modules = firsts abstract :=
  funext fun module => congrArg MemoryAddrRange.addrLo (abstracts.range_eq module)

theorem Abstracts.notifyAll (abstracts : Abstracts view modules abstract)
    (argument : Option Byte) (list : List δ) (state : τ) :
    (Bus.notifyAll modules operation addr argument list state).map view =
      Bus.notifyAll abstract operation addr argument list (view state) := by
  induction list generalizing state with
  | nil => rfl
  | cons module rest ih =>
      have call_eq := abstracts.call_eq operation addr module argument state
      rw [Bus.notifyAll, Bus.notifyAll, ← call_eq]
      rcases call modules operation addr module argument state with silent | ⟨_, _, after⟩
      · rfl
      · exact ih after

theorem Abstracts.passOn (abstracts : Abstracts view modules abstract) (list : List δ)
    (value : Byte) (state : τ) :
    (Bus.passOn modules operation addr list value state).map (Prod.map id (Prod.map id view)) =
      Bus.passOn abstract operation addr list value (view state) := by
  induction list generalizing value state with
  | nil => rfl
  | cons module rest ih =>
      have call_eq := abstracts.call_eq operation addr module (some value) state
      rw [Bus.passOn, Bus.passOn, ← call_eq]
      rcases call modules operation addr module (some value) state with
        silent | ⟨_ | _ | _, left, after⟩
      · rfl
      · rfl
      · rfl
      · exact ih left after

theorem Abstracts.conclude (abstracts : Abstracts view modules abstract) {bus : Bus δ}
    (sorted : bus.Sorted (firsts modules)) (route : Route τ) :
    (Bus.conclude modules bus operation addr route).map (Prod.map id (Prod.map id view)) =
      Bus.conclude abstract bus operation addr { route with state := view route.state } := by
  have sortedToo : bus.Sorted (firsts abstract) := abstracts.firsts_eq ▸ sorted
  have served_eq : bus.served operation addr { route with state := view route.state } =
      bus.served operation addr route := rfl
  unfold Bus.conclude
  dsimp only
  rw [served_eq, observerLoop_eq _ _ sorted.observers.2, observerLoop_eq _ _ sortedToo.observers.2,
    ← abstracts.notifyAll]
  rcases Bus.notifyAll modules operation addr
    (some ((bus.served operation addr route).getD (route.value, bus)).1)
    (Bus.observers bus.postOp) route.state with silent | state
  · rfl
  · rfl

/-- A transaction does to a view of the devices what it does with modules on the view. -/
theorem Abstracts.transact (abstracts : Abstracts view modules abstract) {bus : Bus δ}
    (sorted : bus.Sorted (firsts modules)) (state : τ) :
    (bus.transact modules operation addr state).map (Prod.map id (Prod.map id view)) =
      bus.transact abstract operation addr (view state) := by
  have sortedToo : bus.Sorted (firsts abstract) := abstracts.firsts_eq ▸ sorted
  rw [transact_eq sorted, transact_eq sortedToo, ← abstracts.notifyAll]
  rcases Bus.notifyAll modules operation addr operation.preOp (Bus.observers bus.preOp) state with
    silent | before
  · rfl
  · dsimp only [Except.map]
    rw [← abstracts.passOn]
    rcases Bus.passOn modules operation addr bus.ordinary operation.initial before with
      silent | outcome
    · rfl
    · exact abstracts.conclude sorted (routeOf outcome)

end Views

/-! ## Runs -/

/-- A call of `membus_read_addr` or `membus_write_addr`. -/
structure Transaction where
  /-- Read, or write with a value. -/
  operation : Operation
  /-- The address. -/
  addr : Word
  deriving DecidableEq, Repr

/-- Transactions one after the other, with the values that the reads return.  A module whose
callback has no result ends the run. -/
def transacting (modules : δ → MembusModule σ) :
    Lib.Machine (Except δ (Bus δ × σ)) Transaction Byte where
  step current given :=
    match current with
    | .error module => (.error module, [])
    | .ok (bus, state) =>
        match bus.transact modules given.operation given.addr state with
        | .error module => (.error module, [])
        | .ok (value, after) => (.ok after, if given.operation = .read then [value] else [])

theorem transacting_ok (modules : δ → MembusModule σ) (bus : Bus δ) (state : σ)
    (given : Transaction) :
    (transacting modules).step (.ok (bus, state)) given =
      match bus.transact modules given.operation given.addr state with
      | .error module => (.error module, [])
      | .ok (value, after) => (.ok after, if given.operation = .read then [value] else []) := rfl

/-- A run that a module has ended stays as it is. -/
theorem transacting_error (modules : δ → MembusModule σ) (module : δ)
    (given : List Transaction) :
    (transacting modules).run (.error module) given = .error module ∧
      (transacting modules).trace (.error module) given = [] := by
  induction given with
  | nil => exact ⟨rfl, rfl⟩
  | cons first rest ih => exact ih

/-- The buses that library calls build. -/
inductive Configured [DecidableEq δ] (modules : δ → MembusModule σ) : Bus δ → Prop
  | alloc (uninitialised : MembusCache) (refCount : δ → Nat) :
      Configured modules (Bus.alloc uninitialised refCount)
  | register {bus : Bus δ} (call : Registration δ) (configured : Configured modules bus) :
      Configured modules
        (bus.registerModule (firsts modules) call).2
  | setCacheDisable {bus : Bus δ} (shouldDisable : Bool) (configured : Configured modules bus) :
      Configured modules { bus with cacheDisable := shouldDisable }
  | transact {bus after : Bus δ} {operation : Operation} {addr : Word} {value : Byte}
      {state last : σ} (configured : Configured modules bus)
      (done : bus.transact modules operation addr state = .ok (value, after, last)) :
      Configured modules after

theorem Sorted.of_layout {bus after : Bus δ} {addrLo : δ → Word} (sorted : bus.Sorted addrLo)
    (layout_eq : after.layout = bus.layout) : after.Sorted addrLo := by
  simp only [layout, Prod.mk.injEq] at layout_eq
  obtain ⟨preOp_eq, modules_eq, postOp_eq⟩ := layout_eq
  refine ⟨modules_eq ▸ sorted.tiers, modules_eq ▸ sorted.ordinary, fun node node_mem => ?_⟩
  rw [nodes, preOp_eq, modules_eq, postOp_eq] at node_mem
  exact sorted.chains node node_mem

theorem insertObserver_eq_none {addrLo : δ → Word} {allocated : Bool} {tier : Int} {new : δ}
    {observers : Option (ModuleTierNode δ)}
    (refused : (insertObserver addrLo allocated tier new observers).isSome = false) :
    insertObserver addrLo allocated tier new observers = observers := by
  cases observers with
  | some node => cases refused
  | none =>
      cases allocated with
      | true => cases refused
      | false => rfl

/-- A refused registration leaves the lists as they are. -/
theorem layout_of_refused [DecidableEq δ] {addrLo : δ → Word} {bus : Bus δ}
    {call : Registration δ} (refused : (bus.registerModule addrLo call).1 = false) :
    (bus.registerModule addrLo call).2.layout = bus.layout := by
  unfold registerModule at refused ⊢
  split
  · rename_i allocated
    rw [if_pos allocated] at refused
    split
    · rename_i preOp
      rw [if_pos preOp] at refused
      exact congrArg (fun preOp => (preOp, bus.modules, bus.postOp))
        (insertObserver_eq_none refused)
    · rename_i notPre
      rw [if_neg notPre] at refused
      split
      · rename_i postOp
        rw [if_pos postOp] at refused
        exact congrArg (fun postOp => (bus.preOp, bus.modules, postOp))
          (insertObserver_eq_none refused)
      · rename_i notPost
        rw [if_neg notPost] at refused
        revert refused
        rcases insertTier addrLo call.allocations.tier call.tier call.module bus.modules with
          _ | inserted
        · exact fun _ => rfl
        · exact fun refused => Bool.noConfusion refused
  · rfl

theorem Configured.sorted [DecidableEq δ] {modules : δ → MembusModule σ} {bus : Bus δ}
    (configured : Configured modules bus) :
    bus.Sorted (firsts modules) := by
  induction configured with
  | alloc => exact ⟨List.Pairwise.nil, by simp [Bus.alloc], by simp [Bus.alloc, nodes]⟩
  | @register bus call _ ih =>
      cases accepted :
        (bus.registerModule (firsts modules) call).1 with
      | false => exact ih.of_layout (layout_of_refused accepted)
      | true => exact (takes_of_registerModule accepted).sorted ih
  | setCacheDisable _ _ ih => exact ih.of_layout rfl
  | transact _ done ih => exact ih.of_layout (layout_of_transact done)

end Bus
end System6502
