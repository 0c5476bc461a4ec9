import System6502.Lib.AddressSpace
import System6502.Membus.Composition
import System6502.Membus.Mirrors
import System6502.Membus.Stores

/-!
# Memory maps

A bus of modules that serve cells, in any access mode and through any mirrors, and of ports is an
address space: the first module that includes an address decides where its reads and its writes go.
-/

namespace System6502

open Lib

variable {δ σ ι ε : Type*}

/-- What a module makes of an address that it includes. -/
inductive Grant (ι ε : Type*)
  /-- A cell, which lets reads or writes through. -/
  | cell (place : ι) (reads writes : Bool)
  /-- A port, which takes and notes every access and holds no byte. -/
  | port (note : Operation → ε)

namespace Grant

/-- The answer of a read, where the byte behind the pointer is given. -/
def answer (contents : ι → Byte) (left : Byte) : Grant ι ε → OpResult × Byte
  | cell place true _ => (.accepted, contents place)
  | cell _ false _ => (.notAccepted, left)
  | port _ => (.accepted, left)

/-- The answer of a write. -/
def taken : Grant ι ε → OpResult
  | cell _ _ true | port _ => .accepted
  | cell _ _ false => .notAccepted

/-- The cells after a write. -/
def stored [DecidableEq ι] (contents : ι → Byte) (value : Byte) : Grant ι ε → ι → Byte
  | cell place _ true => Function.update contents place value
  | cell _ _ false | port _ => contents

/-- What is noted of an access. -/
def notes (operation : Operation) : Grant ι ε → List ε
  | cell .. => []
  | port note => [note operation]

/-- A module to which an address is granted decides about it. -/
theorem decides (grant : Grant ι ε) (contents : ι → Byte) (left : Byte) :
    (grant.answer contents left).1 ≠ .observed ∧ grant.taken ≠ .observed := by
  rcases grant with ⟨place, _ | _, _ | _⟩ | _ <;>
    exact ⟨OpResult.noConfusion, OpResult.noConfusion⟩

end Grant

/-! ## Modules -/

/-- In states of a kind, a module does with the cells of its state, and notes, what is granted to
its addresses. -/
structure MembusModule.Serves [DecidableEq ι] (module : MembusModule σ) (look : σ → ι → Byte)
    (noted : σ → List ε) (proper : σ → Prop) (grant : Word → Grant ι ε) : Prop where
  /-- The reads. -/
  read : ∀ addr, module.addrRange.doesInclude addr = true →
    ∃ callback ∈ module.readCallback, ∀ left state, proper state →
      ∃ after, proper after ∧ look after = look state ∧
        noted after = noted state ++ (grant addr).notes .read ∧
        callback addr (some left) state =
          some (((grant addr).answer (look state) left).1,
            ((grant addr).answer (look state) left).2, after)
  /-- The writes. -/
  write : ∀ addr, module.addrRange.doesInclude addr = true →
    ∃ callback ∈ module.writeCallback, ∀ value state, proper state →
      ∃ after, proper after ∧ look after = (grant addr).stored (look state) value ∧
        noted after = noted state ++ (grant addr).notes (.write value) ∧
        callback addr value state = some ((grant addr).taken, after)

namespace MembusModule.Serves

variable [DecidableEq ι] {look : σ → ι → Byte} {noted : σ → List ε} {proper : σ → Prop}
  {grant : Word → Grant ι ε} {original outer : MembusModule σ} {base : Word}

/-- An address of a mirror shows one of its module. -/
theorem includes_mirror
    (fits : original.addrRange.addrLo.toNat + original.addrRange.addrLen.toNat ≤ 0x10000)
    (allocated : original.mirror base = some outer) {addr : Word}
    (included : outer.addrRange.doesInclude addr = true) :
    original.addrRange.doesInclude (addr - base + original.addrRange.addrLo) = true := by
  obtain ⟨-, mirror_eq⟩ := Option.ite_none_right_eq_some.mp allocated
  have base_eq : outer.addrRange.addrLo = base := by
    rw [← Option.some.inj mirror_eq]
    rfl
  have nonempty : original.addrRange.addrLen ≠ 0 := by
    intro empty
    rw [← Option.some.inj mirror_eq] at included
    simp only [MemoryAddrRange.doesInclude, MemoryAddrRange.withLoAndHi, empty] at included
    have no_length : (base.setWidth 32 + BitVec.setWidth 32 (0 : Word) - (1 : BitVec 32)).setWidth
        16 - base + 1 = 0 := by
      bv_omega
    rw [no_length] at included
    simp at included
  obtain ⟨length_eq, -⟩ := mirror_spec nonempty allocated
  simp only [MemoryAddrRange.doesInclude, base_eq, length_eq, Bool.and_eq_true,
    decide_eq_true_eq] at included ⊢
  obtain ⟨⟨-, above⟩, below⟩ := included
  have above_le := BitVec.le_def.mp above
  have place_eq : (addr - base + original.addrRange.addrLo).toNat =
      addr.toNat - base.toNat + original.addrRange.addrLo.toNat := by
    rw [BitVec.toNat_add, BitVec.toNat_sub_of_le above, Nat.mod_eq_of_lt]
    omega
  refine ⟨⟨bne_iff_ne.mpr nonempty, ?_⟩, ?_⟩
  · rw [BitVec.le_def, place_eq]
    omega
  · rw [place_eq]
    omega

/-- A mirror grants what its module grants at the address that is shown. -/
theorem mirror (serves : original.Serves look noted proper grant)
    (fits : original.addrRange.addrLo.toNat + original.addrRange.addrLen.toNat ≤ 0x10000)
    (allocated : original.mirror base = some outer) :
    outer.Serves look noted proper fun addr => grant (addr - base + original.addrRange.addrLo) := by
  have shown := fun addr => @includes_mirror _ original outer base fits allocated addr
  obtain ⟨-, mirror_eq⟩ := Option.ite_none_right_eq_some.mp allocated
  obtain rfl := Option.some.inj mirror_eq
  refine ⟨fun addr included => ?_, fun addr included => ?_⟩
  · obtain ⟨callback, callback_eq, reads⟩ := serves.read _ (shown addr included)
    refine ⟨_, rfl, fun left state properState => ?_⟩
    obtain ⟨after, properAfter, look_eq, noted_eq, answered⟩ := reads left state properState
    refine ⟨after, properAfter, look_eq, noted_eq, ?_⟩
    rw [callback_eq, Option.bind_some]
    exact answered
  · obtain ⟨callback, callback_eq, writes⟩ := serves.write _ (shown addr included)
    refine ⟨_, rfl, fun value state properState => ?_⟩
    obtain ⟨after, properAfter, look_eq, noted_eq, taken⟩ := writes value state properState
    refine ⟨after, properAfter, look_eq, noted_eq, ?_⟩
    rw [callback_eq, Option.bind_some]
    exact taken

end MembusModule.Serves

/-! ## Buses -/

namespace Bus

variable (modules : δ → MembusModule σ) (grants : δ → Word → Grant ι ε)

/-- What is granted to an address: the first ordinary module that includes it decides. -/
def grantAt (bus : Bus δ) (addr : Word) : Option (Grant ι ε) :=
  (bus.ordinary.find? fun module => (modules module).addrRange.doesInclude addr).map
    fun module => grants module addr

/-- Where accesses go that no module accepts: to the byte of a vector, if it is one. -/
def vectorSite (addr : Word) : Option (ι ⊕ Word) :=
  if IsVector addr then some (.inr addr) else none

/-- Where a read of an address goes, from what is granted to it. -/
def readSiteOf (addr : Word) : Option (Grant ι ε) → Option (ι ⊕ Word)
  | some (.cell place true _) => some (.inl place)
  | some (.port _) => none
  | _ => vectorSite addr

/-- Where a write to an address goes, from what is granted to it. -/
def writeSiteOf (addr : Word) : Option (Grant ι ε) → Option (ι ⊕ Word)
  | some (.cell place _ true) => some (.inl place)
  | some (.port _) => none
  | _ => vectorSite addr

/-- What is noted of an access to an address. -/
def notesAt (bus : Bus δ) (operation : Operation) (addr : Word) : List ε :=
  (bus.grantAt modules grants addr).elim [] (Grant.notes operation)

/-- The address space of a bus, over the cells of its modules and the bytes of its vectors. -/
def space (bus : Bus δ) : AddressSpace Word (ι ⊕ Word) where
  readSite addr := readSiteOf addr (bus.grantAt modules grants addr)
  writeSite addr := writeSiteOf addr (bus.grantAt modules grants addr)

/-- The bytes that a bus and the cells of its modules hold. -/
def bytesOf (look : σ → ι → Byte) (bus : Bus δ) (state : σ) : ι ⊕ Word → Byte
  | .inl place => look state place
  | .inr addr => (bus.vectorByte addr).getD 0

/-- A bus without observers whose modules serve cells. -/
structure Maps [DecidableEq ι] (look : σ → ι → Byte) (noted : σ → List ε) (proper : σ → Prop)
    (bus : Bus δ) (state : σ) : Prop where
  /-- The lists are sorted. -/
  sorted : bus.Sorted (firsts modules)
  /-- The pre-op tier is empty. -/
  noPreOp : observers bus.preOp = []
  /-- The post-op tier is empty. -/
  noPostOp : observers bus.postOp = []
  /-- The modules. -/
  serves : ∀ module ∈ bus.ordinary, (modules module).Serves look noted proper (grants module)
  /-- The devices. -/
  proper : proper state

variable {modules} {grants}

/-! ## One access -/

section Access

variable {operation : Operation} {addr : Word} {bus : Bus δ} {state : σ}

/-- Modules that decide about an address leave the access to the first of them. -/
theorem passOn_eq {list : List δ} {value : Byte}
    (decided : ∀ module ∈ list, (modules module).addrRange.doesInclude addr = true →
      ∃ result left after, result ≠ .observed ∧
        call modules operation addr module (some value) state = .ok (result, left, after)) :
    passOn modules operation addr list value state =
      match list.find? fun module => (modules module).addrRange.doesInclude addr with
      | some module => call modules operation addr module (some value) state
      | none => .ok (.observed, value, state) := by
  induction list with
  | nil => rfl
  | cons first rest ih =>
      have rest_eq := ih fun module module_mem => decided module (.tail _ module_mem)
      rw [passOn, List.find?_cons]
      cases included : (modules first).addrRange.doesInclude addr with
      | true =>
          obtain ⟨result, left, after, result_ne, called⟩ :=
            decided first List.mem_cons_self included
          dsimp only
          rw [called]
          cases result with
          | observed => exact absurd rfl result_ne
          | accepted => rfl
          | notAccepted => rfl
      | false =>
          have passed : call modules operation addr first (some value) state =
              .ok (.observed, value, state) := by
            simp [call, MembusModule.handler, included]
          rw [passed]
          exact rest_eq

/-- Without a post-op tier a transaction ends with what the modules and the vectors answer. -/
theorem conclude_of_noPostOp (noPostOp : observers bus.postOp = []) (route : Route σ) :
    ∃ after, conclude modules bus operation addr route =
        .ok ((bus.answer operation addr route).1, after, route.state) ∧
      after.vectors = (bus.answer operation addr route).2 := by
  have seen := @conclude_visible δ σ modules operation addr bus route
  rw [noPostOp] at seen
  rcases concluded : conclude modules bus operation addr route with silent | ⟨value, after, last⟩
  · rw [concluded] at seen
    cases seen
  · rw [concluded] at seen
    obtain ⟨rfl, vectors_eq, rfl⟩ : value = _ ∧ after.vectors = _ ∧ last = _ := by
      simpa [visible, Except.map, observerLoop] using seen
    exact ⟨after, rfl, vectors_eq⟩

/-- The vectors answer a read that no module has accepted. -/
theorem answer_read (bus : Bus δ) (addr : Word) (route : Route σ) :
    bus.answer .read addr route =
      (if route.isDone then route.value else (bus.vectorByte addr).getD route.value,
        bus.vectors) := by
  unfold answer served vector
  cases route.isDone with
  | true => rfl
  | false => cases bus.vectorByte addr <;> rfl

/-- The vectors take a write that no module has accepted. -/
theorem vectorByte_of_answer_write {after : Bus δ} {route : Route σ} {value : Byte}
    (vectors_eq : after.vectors = (bus.answer (.write value) addr route).2) (other : Word) :
    after.vectorByte other =
      if route.isDone = false ∧ IsVector addr ∧ other = addr then some value
      else bus.vectorByte other := by
  cases isDone : route.isDone with
  | true =>
      rw [answer_of_settled bus (.inl isDone)] at vectors_eq
      simpa using vectorByte_congr vectors_eq other
  | false =>
      by_cases isVector : IsVector addr
      · obtain ⟨set, set_eq⟩ :=
          Option.isSome_iff_exists.mp (bus.setVectorByte_isSome value isVector)
        have set_vectors : after.vectors = set.vectors := by
          simpa [answer, served, vector, isDone, set_eq] using vectors_eq
        rw [vectorByte_congr set_vectors, vectorByte_setVectorByte set_eq]
        simp [isVector]
      · rw [answer_of_settled bus (.inr isVector)] at vectors_eq
        rw [if_neg fun both => isVector both.2.1]
        exact vectorByte_congr vectors_eq other

theorem vectorByte_of_not_isVector (bus : Bus δ) (outside : ¬ IsVector addr) :
    bus.vectorByte addr = none := by
  have none_eq := @vector_of_not_isVector δ .read addr bus outside
  rwa [vector, Option.map_eq_none_iff] at none_eq

theorem read_vectorSite (look : σ → ι → Byte) (bus : Bus δ) (state : σ) (addr : Word) :
    (vectorSite addr).elim 0 (bytesOf look bus state) = (bus.vectorByte addr).getD 0 := by
  unfold vectorSite
  split
  · rfl
  · rw [vectorByte_of_not_isVector bus (by assumption)]
    rfl

end Access

/-! ## Transactions -/

section Transactions

variable [DecidableEq ι] {look : σ → ι → Byte} {noted : σ → List ε} {proper : σ → Prop}
  {bus : Bus δ} {state : σ}

theorem call_read_granted {module : δ} {addr : Word}
    (serves : (modules module).Serves look noted proper (grants module))
    (included : (modules module).addrRange.doesInclude addr = true) (properState : proper state)
    (left : Byte) :
    ∃ after, proper after ∧ look after = look state ∧
      noted after = noted state ++ (grants module addr).notes .read ∧
      call modules .read addr module (some left) state =
        .ok (((grants module addr).answer (look state) left).1,
          ((grants module addr).answer (look state) left).2, after) := by
  obtain ⟨callback, callback_eq, reads⟩ := serves.read addr included
  obtain ⟨after, properAfter, look_eq, noted_eq, answered⟩ := reads left state properState
  refine ⟨after, properAfter, look_eq, noted_eq, ?_⟩
  rw [Option.mem_def] at callback_eq
  simp only [call, MembusModule.handler, included, if_true, callback_eq, Option.map_some, answered]

theorem call_write_granted {module : δ} {addr : Word}
    (serves : (modules module).Serves look noted proper (grants module))
    (included : (modules module).addrRange.doesInclude addr = true) (properState : proper state)
    (value : Byte) :
    ∃ after, proper after ∧ look after = (grants module addr).stored (look state) value ∧
      noted after = noted state ++ (grants module addr).notes (.write value) ∧
      call modules (.write value) addr module (some value) state =
        .ok ((grants module addr).taken, value, after) := by
  obtain ⟨callback, callback_eq, writes⟩ := serves.write addr included
  obtain ⟨after, properAfter, look_eq, noted_eq, taken⟩ := writes value state properState
  refine ⟨after, properAfter, look_eq, noted_eq, ?_⟩
  rw [Option.mem_def] at callback_eq
  simp only [call, MembusModule.handler, included, if_true, callback_eq, Option.map_some,
    Option.getD_some, taken]

omit [DecidableEq ι] in
theorem notesAt_eq {operation : Operation} {addr : Word} {granted : Option (Grant ι ε)}
    (granted_eq : bus.grantAt modules grants addr = granted) :
    bus.notesAt modules grants operation addr = granted.elim [] (Grant.notes operation) :=
  congrArg (Option.elim · [] (Grant.notes operation)) granted_eq

omit [DecidableEq ι] in
theorem grantAt_of_none {addr : Word}
    (found : (bus.ordinary.find? fun module => (modules module).addrRange.doesInclude addr) =
      none) :
    bus.grantAt modules grants addr = none := by
  rw [grantAt, found]
  rfl

omit [DecidableEq ι] in
theorem grantAt_of_some {addr : Word} {module : δ}
    (found : (bus.ordinary.find? fun module => (modules module).addrRange.doesInclude addr) =
      some module) :
    bus.grantAt modules grants addr = some (grants module addr) := by
  rw [grantAt, found]
  rfl

omit [DecidableEq ι] in
theorem read_of_grantAt {addr : Word} {granted : Option (Grant ι ε)}
    (granted_eq : bus.grantAt modules grants addr = granted) :
    (bus.space modules grants).read (bytesOf look bus state) 0 addr =
      (readSiteOf addr granted).elim 0 (bytesOf look bus state) := by
  subst granted_eq
  rfl

theorem write_of_grantAt {addr : Word} {granted : Option (Grant ι ε)}
    (granted_eq : bus.grantAt modules grants addr = granted) (value : Byte) :
    (bus.space modules grants).write (bytesOf look bus state) addr value =
      (writeSiteOf addr granted).elim (bytesOf look bus state)
        fun site => Function.update (bytesOf look bus state) site value := by
  subst granted_eq
  rfl

/-- What the vectors make of the answer of the modules to a read. -/
theorem Maps.conclude_read (maps : bus.Maps modules grants look noted proper state) (addr : Word)
    (result : OpResult) (left : Byte) {last : σ} (look_eq : look last = look state) :
    ∃ after, conclude modules bus .read addr (routeOf (result, left, last)) =
        .ok (if result = .accepted then left else (bus.vectorByte addr).getD left, after, last) ∧
      bytesOf look after last = bytesOf look bus state := by
  obtain ⟨after, done, vectors_eq⟩ := @conclude_of_noPostOp δ σ modules .read addr bus
    maps.noPostOp (routeOf (result, left, last))
  rw [answer_read] at done vectors_eq
  refine ⟨after, ?_, ?_⟩
  · rw [done]
    simp only [routeOf, decide_eq_true_eq]
  · funext site
    cases site with
    | inl place => exact congrFun look_eq place
    | inr other => exact congrArg (Option.getD · 0) (vectorByte_congr vectors_eq other)

/-- A byte of a vector is written when no module has accepted the write. -/
theorem Maps.conclude_write (maps : bus.Maps modules grants look noted proper state) (addr : Word)
    (value : Byte) (result : OpResult) (last : σ) :
    ∃ after, conclude modules bus (.write value) addr (routeOf (result, value, last)) =
        .ok (value, after, last) ∧
      ∀ other, after.vectorByte other =
        if result ≠ .accepted ∧ IsVector addr ∧ other = addr then some value
        else bus.vectorByte other := by
  obtain ⟨after, done, vectors_eq⟩ := @conclude_of_noPostOp δ σ modules (.write value) addr bus
    maps.noPostOp (routeOf (result, value, last))
  refine ⟨after, ?_, fun other => ?_⟩
  · rw [done]
    have value_eq : (bus.answer (.write value) addr (routeOf (result, value, last))).1 = value :=
      value_of_served rfl
    rw [value_eq]
    rfl
  · rw [vectorByte_of_answer_write vectors_eq]
    simp only [routeOf, decide_eq_false_iff_not]

/-- A write that no module has accepted goes to the vectors, where the address is one. -/
theorem bytesOf_passedOver {addr : Word} {value : Byte} {after : Bus δ} {last : σ}
    (look_eq : look last = look state)
    (vector_eq : ∀ other, after.vectorByte other =
      if IsVector addr ∧ other = addr then some value else bus.vectorByte other) :
    bytesOf look after last = (vectorSite addr).elim (bytesOf look bus state)
      fun site => Function.update (bytesOf look bus state) site value := by
  funext site
  by_cases isVector : IsVector addr
  · rw [vectorSite, if_pos isVector, Option.elim_some]
    cases site with
    | inl place =>
        rw [Function.update_of_ne Sum.inl_ne_inr]
        exact congrFun look_eq place
    | inr other =>
        rw [Function.update_apply, bytesOf, vector_eq]
        by_cases same : other = addr
        · rw [if_pos ⟨isVector, same⟩, if_pos (congrArg Sum.inr same)]
          rfl
        · rw [if_neg fun both => same both.2, if_neg fun eq => same (Sum.inr.inj eq)]
          rfl
  · rw [vectorSite, if_neg isVector, Option.elim_none]
    cases site with
    | inl place => exact congrFun look_eq place
    | inr other =>
        rw [bytesOf, vector_eq, if_neg fun both => isVector both.1]
        rfl

/-- A write goes where the address leads, from what is granted to it. -/
theorem bytesOf_granted {addr : Word} {granted : Grant ι ε} {value : Byte} {after : Bus δ}
    {last : σ} (look_eq : look last = granted.stored (look state) value)
    (vector_eq : ∀ other, after.vectorByte other =
      if granted.taken ≠ .accepted ∧ IsVector addr ∧ other = addr then some value
      else bus.vectorByte other) :
    bytesOf look after last = (writeSiteOf addr (some granted)).elim (bytesOf look bus state)
      fun site => Function.update (bytesOf look bus state) site value := by
  rcases granted with ⟨place, reads, _ | _⟩ | _
  · exact bytesOf_passedOver look_eq (by simpa [Grant.taken] using vector_eq)
  · funext site
    cases site with
    | inl other =>
        rw [bytesOf, look_eq, Grant.stored, writeSiteOf, Option.elim_some]
        simp only [Function.update_apply, Sum.inl.injEq]
        rfl
    | inr other =>
        rw [bytesOf, vector_eq, if_neg fun all => all.1 rfl]
        rfl
  · funext site
    cases site with
    | inl other => exact congrFun look_eq other
    | inr other =>
        rw [bytesOf, vector_eq, if_neg fun all => all.1 rfl]
        rfl

/-- A read answers from the address space, is noted and changes no byte. -/
theorem Maps.read (maps : bus.Maps modules grants look noted proper state) (addr : Word) :
    ∃ after last, bus.transact modules .read addr state =
        .ok ((bus.space modules grants).read (bytesOf look bus state) 0 addr, after, last) ∧
      proper last ∧ noted last = noted state ++ bus.notesAt modules grants .read addr ∧
      bytesOf look after last = bytesOf look bus state := by
  have passed := @passOn_eq δ σ modules .read addr state bus.ordinary 0
    fun module module_mem included => by
      obtain ⟨after, -, -, -, called⟩ :=
        call_read_granted (maps.serves module module_mem) included maps.proper 0
      exact ⟨_, _, after, (Grant.decides _ _ _).1, called⟩
  rw [transact_eq maps.sorted, maps.noPreOp]
  dsimp only [notifyAll, Operation.initial]
  rw [passed]
  cases found : bus.ordinary.find? fun module => (modules module).addrRange.doesInclude addr with
  | none =>
      have granted_eq : bus.grantAt modules grants addr = none := grantAt_of_none found
      obtain ⟨after, done, bytes_eq⟩ := maps.conclude_read addr .observed 0 rfl
      refine ⟨after, state, ?_, maps.proper, ?_, bytes_eq⟩
      · dsimp only
        rw [done, read_of_grantAt granted_eq]
        dsimp only [readSiteOf]
        rw [read_vectorSite]
        rfl
      · rw [notesAt_eq granted_eq]
        exact (List.append_nil _).symm
  | some module =>
      have included := List.find?_some found
      have granted_eq : bus.grantAt modules grants addr = _ := grantAt_of_some found
      obtain ⟨last, properLast, look_eq, noted_eq, called⟩ := call_read_granted
        (maps.serves module (List.mem_of_find?_eq_some found)) included maps.proper 0
      obtain ⟨after, done, bytes_eq⟩ := maps.conclude_read addr _ _ look_eq
      refine ⟨after, last, ?_, properLast, noted_eq.trans (by rw [notesAt_eq granted_eq]; rfl),
        bytes_eq⟩
      dsimp only
      rw [called]
      dsimp only
      rw [done, read_of_grantAt granted_eq]
      rcases grants module addr with ⟨place, _ | _, writes⟩ | _
      · dsimp only [readSiteOf]
        rw [read_vectorSite]
        rfl
      · rfl
      · rfl

/-- A write is noted and changes the byte to which its address leads. -/
theorem Maps.write (maps : bus.Maps modules grants look noted proper state) (addr : Word)
    (value : Byte) :
    ∃ after last, bus.transact modules (.write value) addr state = .ok (value, after, last) ∧
      proper last ∧ noted last = noted state ++ bus.notesAt modules grants (.write value) addr ∧
      bytesOf look after last =
        (bus.space modules grants).write (bytesOf look bus state) addr value := by
  have passed := @passOn_eq δ σ modules (.write value) addr state bus.ordinary value
    fun module module_mem included => by
      obtain ⟨after, -, -, -, called⟩ :=
        call_write_granted (maps.serves module module_mem) included maps.proper value
      exact ⟨_, _, after, (Grant.decides _ (look state) value).2, called⟩
  rw [transact_eq maps.sorted, maps.noPreOp]
  dsimp only [notifyAll, Operation.initial]
  rw [passed]
  cases found : bus.ordinary.find? fun module => (modules module).addrRange.doesInclude addr with
  | none =>
      have granted_eq : bus.grantAt modules grants addr = none := grantAt_of_none found
      obtain ⟨after, done, vector_eq⟩ := maps.conclude_write addr value .observed state
      refine ⟨after, state, done, maps.proper, ?_, ?_⟩
      · rw [notesAt_eq granted_eq]
        exact (List.append_nil _).symm
      · rw [write_of_grantAt granted_eq]
        exact bytesOf_passedOver rfl (by simpa using vector_eq)
  | some module =>
      have included := List.find?_some found
      have granted_eq : bus.grantAt modules grants addr = _ := grantAt_of_some found
      obtain ⟨last, properLast, look_eq, noted_eq, called⟩ := call_write_granted
        (maps.serves module (List.mem_of_find?_eq_some found)) included maps.proper value
      obtain ⟨after, done, vector_eq⟩ :=
        maps.conclude_write addr value (grants module addr).taken last
      refine ⟨after, last, ?_, properLast, noted_eq.trans (by rw [notesAt_eq granted_eq]; rfl), ?_⟩
      · dsimp only
        rw [called]
        exact done
      · rw [write_of_grantAt granted_eq]
        exact bytesOf_granted look_eq vector_eq

end Transactions

/-! ## Runs -/

/-- The writes among some transactions. -/
def writesOf (given : List Transaction) : List (Word × Byte) :=
  given.filterMap fun transaction =>
    match transaction.operation with
    | .read => none
    | .write value => some (transaction.addr, value)

section Runs

variable [DecidableEq ι] {look : σ → ι → Byte} {noted : σ → List ε} {proper : σ → Prop}
  {bus : Bus δ} {state : σ}

omit [DecidableEq ι] in
theorem space_congr {after : Bus δ}
    (grant_eq : after.grantAt modules grants = bus.grantAt modules grants) :
    after.space modules grants = bus.space modules grants := by
  unfold space
  rw [grant_eq]

/-- What a transaction leaves of a mapped bus. -/
theorem Maps.of_transact (maps : bus.Maps modules grants look noted proper state)
    {operation : Operation} {addr : Word} {value : Byte} {after : Bus δ} {last : σ}
    (done : bus.transact modules operation addr state = .ok (value, after, last))
    (properLast : proper last) :
    after.Maps modules grants look noted proper last ∧
      after.grantAt modules grants = bus.grantAt modules grants := by
  have layout_eq := layout_of_transact done
  have lists_eq := layout_eq
  simp only [layout, Prod.mk.injEq] at lists_eq
  obtain ⟨preOp_eq, modules_eq, postOp_eq⟩ := lists_eq
  have ordinary_eq : after.ordinary = bus.ordinary := by
    unfold ordinary
    rw [modules_eq]
  refine ⟨⟨maps.sorted.of_layout layout_eq, ?_, ?_, ?_, properLast⟩, ?_⟩
  · rw [preOp_eq]
    exact maps.noPreOp
  · rw [postOp_eq]
    exact maps.noPostOp
  · rw [ordinary_eq]
    exact maps.serves
  · funext addr
    rw [grantAt, ordinary_eq, grantAt]

/-- What is noted of some transactions. -/
def notesOf (modules : δ → MembusModule σ) (grants : δ → Word → Grant ι ε) (bus : Bus δ)
    (given : List Transaction) : List ε :=
  given.flatMap fun transaction =>
    bus.notesAt modules grants transaction.operation transaction.addr

/-- A run writes the address space and is noted. -/
theorem Maps.run (maps : bus.Maps modules grants look noted proper state)
    (given : List Transaction) :
    ∃ after last, (transacting modules).run (.ok (bus, state)) given = .ok (after, last) ∧
      after.Maps modules grants look noted proper last ∧
      after.grantAt modules grants = bus.grantAt modules grants ∧
      noted last = noted state ++ bus.notesOf modules grants given ∧
      bytesOf look after last = (writesOf given).foldl
        (fun contents write => (bus.space modules grants).write contents write.1 write.2)
        (bytesOf look bus state) := by
  induction given generalizing bus state with
  | nil => exact ⟨bus, state, rfl, maps, rfl, (List.append_nil _).symm, rfl⟩
  | cons first rest ih =>
      have step : ∃ value after last, bus.transact modules first.operation first.addr state =
          .ok (value, after, last) ∧ proper last ∧
          noted last =
            noted state ++ bus.notesAt modules grants first.operation first.addr ∧
          bytesOf look after last = (writesOf [first]).foldl
            (fun contents write => (bus.space modules grants).write contents write.1 write.2)
            (bytesOf look bus state) := by
        obtain ⟨operation, addr⟩ := first
        cases operation with
        | read =>
            obtain ⟨after, last, done, properLast, noted_eq, bytes_eq⟩ := maps.read addr
            exact ⟨_, after, last, done, properLast, noted_eq, bytes_eq⟩
        | write value =>
            obtain ⟨after, last, done, properLast, noted_eq, bytes_eq⟩ := maps.write addr value
            exact ⟨_, after, last, done, properLast, noted_eq, bytes_eq⟩
      obtain ⟨value, middle, between, done, properLast, first_noted, first_eq⟩ := step
      obtain ⟨middleMaps, grant_eq⟩ := maps.of_transact done properLast
      obtain ⟨after, last, run_eq, afterMaps, afterGrant, rest_noted, rest_eq⟩ := ih middleMaps
      refine ⟨after, last, ?_, afterMaps, afterGrant.trans grant_eq, ?_, ?_⟩
      · rw [Lib.Machine.run_cons, transacting_ok, done]
        exact run_eq
      · rw [rest_noted, first_noted, List.append_assoc]
        refine congrArg (noted state ++ ·) ?_
        simp only [notesOf, notesAt, grant_eq, List.flatMap_cons]
      · have writes_eq : writesOf (first :: rest) = writesOf [first] ++ writesOf rest :=
          List.filterMap_append (l := [first])
        rw [rest_eq, space_congr grant_eq, first_eq, writes_eq, List.foldl_append]

/-- After any transactions a read of a mapped bus returns the byte last written, through whatever
address, to the cell to which the read leads, or what that cell has held before; and the ports have
noted the accesses to their addresses, in order. -/
theorem Maps.reads (maps : bus.Maps modules grants look noted proper state)
    (given : List Transaction) (addr : Word) :
    ∃ after last, (transacting modules).run (.ok (bus, state)) given = .ok (after, last) ∧
      noted last = noted state ++ bus.notesOf modules grants given ∧
      ∃ final devices, after.readAddr modules addr last =
        .ok (((bus.space modules grants).readSite addr).elim 0 fun site =>
          ((bus.space modules grants).lastAt site (writesOf given)).getD
            (bytesOf look bus state site), final, devices) := by
  obtain ⟨after, last, run_eq, afterMaps, grant_eq, noted_eq, bytes_eq⟩ := maps.run given
  obtain ⟨final, devices, done, -⟩ := afterMaps.read addr
  refine ⟨after, last, run_eq, noted_eq, final, devices, ?_⟩
  rw [readAddr, done, space_congr grant_eq, bytes_eq, AddressSpace.read]
  refine congrArg (fun value => Except.ok (value, final, devices)) ?_
  cases (bus.space modules grants).readSite addr with
  | none => rfl
  | some site => exact AddressSpace.foldl_write ..

end Runs

/-! ## Storage modules and their mirrors -/

section Storage

variable [DecidableEq δ] {kinds : δ → StorageKind}

/-- The byte that a storage module holds for an address that it includes. -/
def heldByte (contents : Contents kinds) (place : δ × Word) : Byte :=
  if Includes kinds place.2 place.1 then (kinds place.1).cell (contents place.1) place.2 else 0

/-- The access mode of a storage module. -/
def accessMode (kind : StorageKind) (self : kind.Storage) : BitVec 32 :=
  (StoreKind.storage kind).mode self

/-- The storage modules are in the given access modes. -/
def InModes (modes : δ → BitVec 32) (contents : Contents kinds) : Prop :=
  ∀ device, accessMode (kinds device) (contents device) = modes device

/-- A storage module, or a mirror of any depth over one, with what it grants. -/
inductive Shows (kinds : δ → StorageKind) (modes : δ → BitVec 32) :
    MembusModule (Contents kinds) → (Word → Grant (δ × Word) ε) → Prop
  /-- A storage module. -/
  | storage (device : δ) : Shows kinds modes (storageModule kinds device) fun addr =>
      .cell (device, addr) (ReadsMode (modes device)) (WritesMode (modes device))
  /-- A mirror of one that shows a storage module. -/
  | mirror {original outer : MembusModule (Contents kinds)} {grant : Word → Grant (δ × Word) ε}
      {base : Word} (shows : Shows kinds modes original grant)
      (allocated : original.mirror base = some outer) :
      Shows kinds modes outer fun addr => grant (addr - base + original.addrRange.addrLo)

omit [DecidableEq δ] in
/-- The range of a storage module ends within memory. -/
theorem storage_fits (kind : StorageKind) :
    kind.addrRange.addrLo.toNat + kind.addrRange.addrLen.toNat ≤ 0x10000 := by
  cases kind with
  | std64k => decide
  | byte place => exact place.isLt
  | paged basePage nPages =>
      have count_le :
          basePage.toNat + (MembusModulePaged.pageCount basePage nPages).toNat ≤ 0x100 := by
        unfold MembusModulePaged.pageCount Byte.toWord Word.toByte
        split <;> bv_omega
      simp only [StorageKind.addrRange, MembusModulePaged.addrRange, StoreKind.toNat_shiftPage]
      omega

theorem readAddr_eq_of_mode (kind : StorageKind) (self : kind.Storage) (addr : Word) (left : Byte) :
    kind.readAddr addr (some left) self =
      some (if ReadsMode (accessMode kind self) then (.accepted, kind.cell self addr, self)
        else (.notAccepted, left, self)) :=
  (StoreKind.storage kind).readAddr_eq left

theorem writeAddr_of_not_mode {kind : StorageKind} (self : kind.Storage) (addr : Word)
    (value : Byte) (refuses : ¬ WritesMode (accessMode kind self)) :
    kind.writeAddr addr value self = some (.notAccepted, self) :=
  ((StoreKind.storage kind).writeAddr_eq value).trans (congrArg some (if_neg refuses))

/-- A write that a storage module takes sets one byte, also when the module cannot be read. -/
theorem writeAddr_of_mode {kind : StorageKind} (self : kind.Storage) {addr : Word} (value : Byte)
    (includes : kind.addrRange.doesInclude addr = true)
    (writes : WritesMode (accessMode kind self)) :
    ∃ after : kind.Storage, kind.writeAddr addr value self = some (.accepted, after) ∧
      accessMode kind after = accessMode kind self ∧
      ∀ other, kind.addrRange.doesInclude other = true →
        kind.cell after other = if other = addr then value else kind.cell self other := by
  have stored := (@StoreKind.writeAddr_eq (.storage kind) self addr value).trans
    (congrArg some (if_pos writes))
  have mode_eq := @StoreKind.mode_stored (.storage kind) self addr includes value
  refine ⟨_, stored, mode_eq, fun other others => ?_⟩
  rw [← Function.update_apply]
  have reads : ReadsMode moduleModeRw := by decide
  have openly : WritesMode moduleModeRw := by decide
  cases kind with
  | std64k => exact StoreKind.cell_stored_storage includes reads openly value others
  | byte place =>
      have same : other = addr := (StorageKind.eq_of_doesInclude_one others).trans
        (StorageKind.eq_of_doesInclude_one includes).symm
      rw [same, Function.update_self]
      exact StorageKind.low_replaceLow _ _
  | paged basePage nPages =>
      -- the pages do not depend on the mode, so that they are those of a module that can be read
      let readable : MembusModulePaged :=
        { mode := moduleModeRw, pages := MembusModulePaged.pages self }
      have cell_eq := @StoreKind.cell_stored_storage addr (.paged basePage nPages) readable includes
        reads openly value other others
      exact cell_eq

variable {modes : δ → BitVec 32}

theorem InModes.update {contents : Contents kinds} (inModes : InModes modes contents) {device : δ}
    {after : (kinds device).Storage}
    (mode_eq : accessMode (kinds device) after = accessMode (kinds device) (contents device)) :
    InModes modes (Function.update contents device after) := by
  intro other
  by_cases same : other = device
  · subst same
    rw [Function.update_self]
    exact mode_eq.trans (inModes other)
  · rw [Function.update_of_ne same]
    exact inModes other

/-- Setting one byte of a module sets one of the bytes that the modules hold. -/
theorem heldByte_update {contents : Contents kinds} {device : δ} {addr : Word}
    (included : Includes kinds addr device = true) {value : Byte} {after : (kinds device).Storage}
    (cell_eq : ∀ other, Includes kinds other device = true →
      (kinds device).cell after other =
        if other = addr then value else (kinds device).cell (contents device) other) :
    heldByte (Function.update contents device after) =
      Function.update (heldByte contents) (device, addr) value := by
  funext ⟨other, address⟩
  rw [Function.update_apply]
  by_cases same : other = device
  · subst same
    by_cases within : Includes kinds address other = true
    · simp only [heldByte, if_pos within, Function.update_self, cell_eq address within,
        Prod.mk.injEq, true_and]
    · have address_ne : address ≠ addr := fun eq => within (eq ▸ included)
      simp only [heldByte, if_neg within, Prod.mk.injEq, true_and, if_neg address_ne]
  · simp only [heldByte, Function.update_of_ne same, Prod.mk.injEq, same, false_and, if_false]

/-- A storage module serves its own cells. -/
theorem serves_storageModule (device : δ) :
    (storageModule kinds device).Serves heldByte (fun _ => ([] : List ε)) (InModes modes)
      fun addr => .cell (device, addr) (ReadsMode (modes device)) (WritesMode (modes device)) := by
  refine ⟨fun addr included => ⟨_, rfl, fun left contents inModes => ?_⟩,
    fun addr included => ⟨_, rfl, fun value contents inModes => ?_⟩⟩
  · have read_eq := readAddr_eq_of_mode (kinds device) (contents device) addr left
    have held : heldByte contents (device, addr) = (kinds device).cell (contents device) addr :=
      if_pos included
    refine ⟨contents, inModes, rfl, rfl, ?_⟩
    rw [read_eq, inModes device, Option.map_some]
    by_cases reads : ReadsMode (modes device)
    · rw [if_pos reads, decide_eq_true reads, Grant.answer, held]
      dsimp only
      rw [Function.update_eq_self]
    · rw [if_neg reads, decide_eq_false reads, Grant.answer]
      dsimp only
      rw [Function.update_eq_self]
  · by_cases writes : WritesMode (modes device)
    · obtain ⟨after, write_eq, mode_eq, cell_eq⟩ :=
        writeAddr_of_mode (contents device) value included ((inModes device).symm ▸ writes)
      refine ⟨Function.update contents device after, inModes.update mode_eq, ?_, rfl, ?_⟩
      · rw [decide_eq_true writes, Grant.stored]
        exact heldByte_update included cell_eq
      · rw [write_eq, decide_eq_true writes]
        rfl
    · refine ⟨contents, inModes, ?_, rfl, ?_⟩
      · rw [decide_eq_false writes]
        rfl
      · rw [writeAddr_of_not_mode (contents device) addr value ((inModes device).symm ▸ writes),
          decide_eq_false writes, Option.map_some]
        dsimp only
        rw [Function.update_eq_self]
        rfl

/-- The range of a module that shows storage ends within memory. -/
theorem Shows.fits {module : MembusModule (Contents kinds)}
    {grant : Word → Grant (δ × Word) ε} (shows : Shows kinds modes module grant) :
    module.addrRange.addrLo.toNat + module.addrRange.addrLen.toNat ≤ 0x10000 := by
  cases shows with
  | storage device => exact storage_fits (kinds device)
  | @mirror original _ _ base inner allocated =>
      obtain ⟨below, mirror_eq⟩ := Option.ite_none_right_eq_some.mp allocated
      obtain rfl := Option.some.inj mirror_eq
      simp only [MemoryAddrRange.withLoAndHi]
      bv_omega

/-- A module that shows storage serves it. -/
theorem Shows.serves {module : MembusModule (Contents kinds)} {grant : Word → Grant (δ × Word) ε}
    (shows : Shows kinds modes module grant) :
    module.Serves heldByte (fun _ => []) (InModes modes) grant := by
  induction shows with
  | storage device => exact serves_storageModule device
  | mirror inner allocated ih => exact ih.mirror inner.fits allocated

/-- On a bus of storage modules and of their mirrors, in any access modes and over each other,
every transaction completes, and after any of them a read returns the byte last written, through
whatever address, to the cell to which the read leads, or what the cell has held before.  The first
module that includes an address decides: a write that it refuses reaches no module behind it. -/
theorem readAddr_memory_map {μ : Type*} [DecidableEq μ]
    {modules : μ → MembusModule (Contents kinds)} {grants : μ → Word → Grant (δ × Word) Empty}
    {bus : Bus μ} (configured : Configured modules bus)
    (noPreOp : observers bus.preOp = []) (noPostOp : observers bus.postOp = [])
    (shows : ∀ module ∈ bus.ordinary, Shows kinds modes (modules module) (grants module))
    {contents : Contents kinds} (inModes : InModes modes contents) (given : List Transaction)
    (addr : Word) :
    ∃ after last, (transacting modules).run (.ok (bus, contents)) given = .ok (after, last) ∧
      ∃ final devices, after.readAddr modules addr last =
        .ok (((bus.space modules grants).readSite addr).elim 0 fun site =>
          ((bus.space modules grants).lastAt site (writesOf given)).getD
            (bytesOf heldByte bus contents site), final, devices) := by
  have maps : bus.Maps modules grants heldByte (fun _ => []) (InModes modes) contents :=
    { sorted := configured.sorted
      noPreOp := noPreOp
      noPostOp := noPostOp
      serves := fun module module_mem => (shows module module_mem).serves
      proper := inModes }
  obtain ⟨after, last, run_eq, -, read_eq⟩ := maps.reads given addr
  exact ⟨after, last, run_eq, read_eq⟩

/-- A byte at `$0200` and a std64k module. -/
def romKinds (device : Bool) : StorageKind := if device then .byte 0x0200 else .std64k

/-- The modules of `romKinds`, and a mirror of the byte at `$0400`. -/
def romModules : Option Bool → MembusModule (Contents romKinds)
  | some device => storageModule romKinds device
  | none => ((storageModule romKinds true).mirror 0x0400).getD (storageModule romKinds true)

/-- What the modules grant, where the byte is read-only. -/
def romGrants (handle : Option Bool) (addr : Word) : Grant (Bool × Word) Empty :=
  match handle with
  | some false => .cell (false, addr) true true
  | some true => .cell (true, addr) true false
  | none => .cell (true, addr - 0x0400 + 0x0200) true false

/-- The byte and its mirror in tier 0, with the std64k module behind them. -/
def romBus : Bus (Option Bool) :=
  [(0, some true), (0, none), (1, some false)].foldl
    (fun bus (tier, module) => (bus.registerModule (firsts romModules)
      { tier, module, allocations := { node := true, tier := true } }).2)
    (alloc .blank fun _ => 0)

/-- The byte as it is allocated, with empty memory. -/
def romContents : Contents romKinds
  | true => MembusModuleByte.alloc moduleModeRo
  | false => ({ bytes := fun _ => 0 } : MembusModuleStd64k)

/-- A write through the mirror of a read-only byte leaves the byte and what is behind it. -/
theorem readAddr_memory_map_rom :
    ∃ after last, (transacting romModules).run (.ok (romBus, romContents))
        [{ operation := .write 0x55, addr := 0x0400 }] = .ok (after, last) ∧
      ∃ final devices, after.readAddr romModules 0x0200 last = .ok (0xCA, final, devices) := by
  have configured : Configured romModules romBus :=
    .register _ (.register _ (.register _ (.alloc _ _)))
  have inModes : InModes (fun device => if device then moduleModeRo else moduleModeRw)
      romContents := by
    rintro (_ | _) <;> decide
  have shows : ∀ handle, Shows romKinds
      (fun device => if device then moduleModeRo else moduleModeRw)
      (romModules handle) (romGrants handle) := by
    rintro (_ | _ | _)
    · exact .mirror (.storage true) rfl
    · exact .storage false
    · exact .storage true
  exact readAddr_memory_map configured rfl rfl (fun handle _ => shows handle) inModes _ 0x0200

end Storage

end Bus

end System6502
