import System6502.Membus.Storage

/-!
# A bus of storage modules

The routing of a bus whose ordinary and post-op tiers hold std64k, byte and paged modules, and the
memory that it implements.
-/

namespace System6502
namespace Bus

open StorageKind

variable {δ : Type*}

/-! ## Routing -/

/-- What the modules of a bus hold. -/
abbrev Contents (kinds : δ → StorageKind) := (device : δ) → (kinds device).Storage

/-- A storage module as it is registered on a bus. -/
def storageModule [DecidableEq δ] (kinds : δ → StorageKind) (device : δ) :
    MembusModule (Contents kinds) where
  addrRange := (kinds device).addrRange
  readCallback := some fun addr value contents =>
    ((kinds device).readAddr addr value (contents device)).map fun (result, left, after) =>
      (result, left, Function.update contents device after)
  writeCallback := some fun addr value contents =>
    ((kinds device).writeAddr addr value (contents device)).map fun (result, after) =>
      (result, Function.update contents device after)

variable (kinds : δ → StorageKind)

/-- A module includes an address. -/
def Includes (addr : Word) (device : δ) : Bool := (kinds device).addrRange.doesInclude addr

/-- The first module of the ordinary tiers that includes an address. -/
def owner (bus : Bus δ) (addr : Word) : Option δ := bus.ordinary.find? (Includes kinds addr)

/-- An ordinary module includes the address, or it is one of a vector. -/
def Backed (bus : Bus δ) (addr : Word) : Prop :=
  (∃ device ∈ bus.ordinary, Includes kinds addr device = true) ∨ IsVector addr

/-- The byte of a bus at an address. -/
def byteAt (bus : Bus δ) (contents : Contents kinds) (addr : Word) : Byte :=
  match bus.owner kinds addr with
  | some device => (kinds device).cell (contents device) addr
  | none => (bus.vectorByte addr).getD 0

/-- The modules of the ordinary and post-op tiers are in read-write mode. -/
def AllReadWrite (bus : Bus δ) (contents : Contents kinds) : Prop :=
  ∀ device, device ∈ bus.ordinary ∨ device ∈ observers bus.postOp →
    (kinds device).ReadWrite (contents device)

/-- Some modules have been written at an address, and everything else is as before. -/
structure Written (addr : Word) (value : Byte) (before after : Contents kinds) : Prop where
  /-- The modes. -/
  readWrite : ∀ device, (kinds device).ReadWrite (before device) →
    (kinds device).ReadWrite (after device)
  /-- The cells of other addresses. -/
  others : ∀ device other, Includes kinds other device = true → other ≠ addr →
    (kinds device).cell (after device) other = (kinds device).cell (before device) other
  /-- The cells of the address. -/
  here : ∀ device, (kinds device).cell (after device) addr = value ∨
    (kinds device).cell (after device) addr = (kinds device).cell (before device) addr

variable {kinds} {addr : Word} {contents : Contents kinds} {device : δ}

theorem Written.refl (value : Byte) (contents : Contents kinds) :
    Written kinds addr value contents contents where
  readWrite _ readWrite := readWrite
  others _ _ _ _ := rfl
  here _ := .inr rfl

theorem Written.trans {value : Byte} {before middle after : Contents kinds}
    (first : Written kinds addr value before middle)
    (second : Written kinds addr value middle after) : Written kinds addr value before after where
  readWrite device readWrite := second.readWrite device (first.readWrite device readWrite)
  others device other includes other_ne :=
    (second.others device other includes other_ne).trans
      (first.others device other includes other_ne)
  here device := by
    rcases second.here device with value_eq | cell_eq
    · exact .inl value_eq
    · rw [cell_eq]
      exact first.here device

/-! ## Calls -/

variable [DecidableEq δ]

theorem call_of_excluded {operation : Operation} (excluded : Includes kinds addr device = false)
    (argument : Option Byte) :
    call (storageModule kinds) operation addr device argument contents =
      .ok (.observed, argument.getD 0, contents) := by
  refine call_of_not_answers (fun answers => ?_) argument contents
  have none_eq : (storageModule kinds device).handler operation addr = none :=
    if_neg (Bool.eq_false_iff.mp excluded)
  rw [Answers, none_eq] at answers
  cases answers

theorem call_read (includes : Includes kinds addr device = true)
    (readWrite : (kinds device).ReadWrite (contents device)) (value : Byte) :
    call (storageModule kinds) .read addr device (some value) contents =
      .ok (.accepted, (kinds device).cell (contents device) addr, contents) := by
  have handler_eq : (storageModule kinds device).handler .read addr =
      some fun value contents =>
        ((kinds device).readAddr addr value (contents device)).map fun (result, left, after) =>
          (result, left, Function.update contents device after) := if_pos includes
  rw [call_eq handler_eq, readAddr_eq readWrite]
  simp only [Option.map_some, Function.update_eq_self]

theorem call_write (includes : Includes kinds addr device = true)
    (readWrite : (kinds device).ReadWrite (contents device)) (value : Byte) :
    ∃ after, call (storageModule kinds) (.write value) addr device (some value) contents =
        .ok (.accepted, value, after) ∧
      Written kinds addr value contents after ∧
        (kinds device).cell (after device) addr = value := by
  have handler_eq : (storageModule kinds device).handler (.write value) addr =
      some fun argument contents =>
        (((kinds device).writeAddr addr (argument.getD 0) (contents device)).map
          fun (result, after) => (result, Function.update contents device after)).map
            fun (result, after) => (result, argument.getD 0, after) := if_pos includes
  obtain ⟨written, written_eq, stays, cell_eq, others⟩ := writeAddr_eq readWrite value
  refine ⟨Function.update contents device written, ?_, ⟨?_, ?_, ?_⟩, ?_⟩
  · rw [call_eq handler_eq, Option.getD_some, written_eq]
    rfl
  · intro other otherReadWrite
    by_cases same : other = device
    · subst same
      rw [Function.update_self]
      exact stays
    · rw [Function.update_of_ne same]
      exact otherReadWrite
  · intro other place otherIncludes place_ne
    by_cases same : other = device
    · subst same
      rw [Function.update_self]
      exact others place includes otherIncludes place_ne
    · rw [Function.update_of_ne same]
  · intro other
    by_cases same : other = device
    · subst same
      rw [Function.update_self]
      exact .inl cell_eq
    · rw [Function.update_of_ne same]
      exact .inr rfl
  · rw [Function.update_self]
    exact cell_eq

/-! ## Lists of modules -/

variable (addr) in
theorem passOn_read {list : List δ} (value : Byte)
    (readWrite : ∀ device ∈ list, (kinds device).ReadWrite (contents device)) :
    passOn (storageModule kinds) .read addr list value contents =
      match list.find? (Includes kinds addr) with
      | some device => .ok (.accepted, (kinds device).cell (contents device) addr, contents)
      | none => .ok (.observed, value, contents) := by
  induction list with
  | nil => rfl
  | cons device rest ih =>
      rw [List.forall_mem_cons] at readWrite
      rw [passOn]
      cases includes : Includes kinds addr device with
      | true =>
          rw [call_read includes readWrite.1, List.find?_cons_of_pos includes]
      | false =>
          rw [call_of_excluded includes, List.find?_cons_of_neg (by simp [includes])]
          exact ih readWrite.2

variable (addr) in
theorem passOn_write {list : List δ} (value : Byte)
    (readWrite : ∀ device ∈ list, (kinds device).ReadWrite (contents device)) :
    ∃ result after, passOn (storageModule kinds) (.write value) addr list value contents =
        .ok (result, value, after) ∧ Written kinds addr value contents after ∧
      match list.find? (Includes kinds addr) with
      | some device => result = .accepted ∧ (kinds device).cell (after device) addr = value
      | none => result = .observed := by
  induction list with
  | nil => exact ⟨_, _, rfl, Written.refl value contents, rfl⟩
  | cons device rest ih =>
      rw [List.forall_mem_cons] at readWrite
      rw [passOn]
      cases includes : Includes kinds addr device with
      | true =>
          obtain ⟨after, call_eq, written, cell_eq⟩ := call_write includes readWrite.1 value
          rw [call_eq, List.find?_cons_of_pos includes]
          exact ⟨_, _, rfl, written, rfl, cell_eq⟩
      | false =>
          rw [call_of_excluded includes, List.find?_cons_of_neg (by simp [includes])]
          exact ih readWrite.2

variable (addr) in
theorem notifyAll_read {list : List δ} (value : Byte)
    (readWrite : ∀ device ∈ list, (kinds device).ReadWrite (contents device)) :
    notifyAll (storageModule kinds) .read addr (some value) list contents = .ok contents := by
  induction list with
  | nil => rfl
  | cons device rest ih =>
      rw [List.forall_mem_cons] at readWrite
      rw [notifyAll]
      cases includes : Includes kinds addr device with
      | true =>
          rw [call_read includes readWrite.1]
          exact ih readWrite.2
      | false =>
          rw [call_of_excluded includes]
          exact ih readWrite.2

variable (addr) in
theorem notifyAll_write {list : List δ} (value : Byte)
    (readWrite : ∀ device ∈ list, (kinds device).ReadWrite (contents device)) :
    ∃ after, notifyAll (storageModule kinds) (.write value) addr (some value) list contents =
      .ok after ∧ Written kinds addr value contents after := by
  induction list generalizing contents with
  | nil => exact ⟨contents, rfl, Written.refl value contents⟩
  | cons device rest ih =>
      rw [List.forall_mem_cons] at readWrite
      rw [notifyAll]
      cases includes : Includes kinds addr device with
      | true =>
          obtain ⟨middle, call_eq, written, -⟩ := call_write includes readWrite.1 value
          obtain ⟨after, notify_eq, later⟩ := ih fun other other_mem =>
            written.readWrite other (readWrite.2 other other_mem)
          rw [call_eq]
          exact ⟨after, notify_eq, written.trans later⟩
      | false =>
          rw [call_of_excluded includes]
          exact ih readWrite.2

/-! ## Vector words -/

theorem high_replaceLow (word : Word) (value : Byte) :
    (replaceLow word value).high = word.high :=
  congrArg (BitVec.setWidth 8) (shift_replaceLow word value)

theorem high_mask : ∀ place : Fin 8, (255#16)[8 + place.val] = false := by
  decide

theorem low_mask : ∀ place : Fin 8, (255#8)[place.val] = true := by
  decide

theorem high_replaceHigh (word : Word) (value : Byte) : (replaceHigh word value).high = value := by
  ext index index_lt
  have masked : (255#16)[8 + index] = false := high_mask ⟨index, index_lt⟩
  have within : 8 + index < 16 := by omega
  have below : index < 16 := by omega
  simp [replaceHigh, Word.high, Byte.toWord, within, below, masked,
    BitVec.getLsbD_eq_getElem index_lt]

theorem low_replaceHigh (word : Word) (value : Byte) :
    (replaceHigh word value).low = word.low := by
  ext index index_lt
  have masked : (255#8)[index] = true := low_mask ⟨index, index_lt⟩
  simp [replaceHigh, Word.low, Byte.toWord, masked]

omit [DecidableEq δ] in
theorem vectorByte_of_set {bus after : Bus δ} {value : Byte}
    (set_eq : bus.setVectorByte addr value = some after) :
    after.vectorByte addr = some value := by
  unfold setVectorByte at set_eq
  split_ifs at set_eq
  all_goals
    obtain rfl := Option.some.inj set_eq
    unfold vectorByte
    split_ifs
    first
    | exact congrArg some (low_replaceLow _ _)
    | exact congrArg some (high_replaceHigh _ _)

omit [DecidableEq δ] in
theorem vectorByte_of_set_ne {bus after : Bus δ} {value : Byte} {other : Word}
    (set_eq : bus.setVectorByte addr value = some after) (apart : other ≠ addr) :
    after.vectorByte other = bus.vectorByte other := by
  unfold setVectorByte at set_eq
  split_ifs at set_eq
  all_goals
    obtain rfl := Option.some.inj set_eq
    subst addr
    unfold vectorByte
    simp only [if_neg apart, high_replaceLow, low_replaceHigh]

omit [DecidableEq δ] in
theorem vectorByte_setVectorByte {bus after : Bus δ} {value : Byte}
    (set_eq : bus.setVectorByte addr value = some after) (other : Word) :
    after.vectorByte other = if other = addr then some value else bus.vectorByte other := by
  split_ifs with same
  · exact same ▸ vectorByte_of_set set_eq
  · exact vectorByte_of_set_ne set_eq same

omit [DecidableEq δ] in
theorem setVectorByte_isSome (bus : Bus δ) (value : Byte) (isVector : IsVector addr) :
    (bus.setVectorByte addr value).isSome = true := by
  have answers := bus.vector_isSome (.write value) addr
  rw [decide_eq_true isVector, vector, Option.isSome_map] at answers
  exact answers

/-! ## One access -/

variable {bus : Bus δ}

/-- The conclusion of an access whose post-op tier ends. -/
theorem conclude_eq {operation : Operation} (route : Route (Contents kinds))
    {last : Contents kinds} (sorted : bus.Sorted (firsts (storageModule kinds)))
    (notified : notifyAll (storageModule kinds) operation addr
      (some (bus.answer operation addr route).1) (observers bus.postOp) route.state = .ok last) :
    ∃ after, conclude (storageModule kinds) bus operation addr route =
        .ok ((bus.answer operation addr route).1, after, last) ∧
      after.vectors = (bus.answer operation addr route).2 := by
  have seen : (conclude (storageModule kinds) bus operation addr route).map visible = _ :=
    conclude_visible bus route
  rw [observerLoop_eq _ _ sorted.observers.2, notified] at seen
  rcases concluded : conclude (storageModule kinds) bus operation addr route with
    silent | ⟨value, after, state⟩
  · rw [concluded] at seen
    cases seen
  · rw [concluded] at seen
    obtain ⟨rfl, vectors_eq, rfl⟩ : value = _ ∧ after.vectors = _ ∧ state = last := by
      simpa [visible, Except.map] using seen
    exact ⟨after, rfl, vectors_eq⟩

omit [DecidableEq δ] in
theorem answer_read_of_open {route : Route (Contents kinds)} (isOpen : route.isDone = false) :
    bus.answer .read addr route = ((bus.vectorByte addr).getD route.value, bus.vectors) := by
  unfold answer served vector
  rw [if_neg (Bool.eq_false_iff.mp isOpen)]
  cases bus.vectorByte addr <;> rfl

omit [DecidableEq δ] in
theorem answer_write_of_open {route : Route (Contents kinds)} (isOpen : route.isDone = false) :
    bus.answer (.write route.value) addr route =
      (route.value, ((bus.setVectorByte addr route.value).getD bus).vectors) := by
  unfold answer served vector
  rw [if_neg (Bool.eq_false_iff.mp isOpen)]
  dsimp only
  cases bus.setVectorByte addr route.value <;> rfl

/-- A read answers with the byte at the address and changes nothing but the caches. -/
theorem transact_read (sorted : bus.Sorted (firsts (storageModule kinds)))
    (noPreOp : observers bus.preOp = []) (allReadWrite : bus.AllReadWrite kinds contents)
    (addr : Word) :
    ∃ after, bus.transact (storageModule kinds) .read addr contents =
        .ok (bus.byteAt kinds contents addr, after, contents) ∧ after.vectors = bus.vectors := by
  have passed := passOn_read addr 0 fun device device_mem =>
    allReadWrite device (.inl device_mem)
  have notified := fun value => notifyAll_read addr value fun device device_mem =>
    allReadWrite device (.inr device_mem)
  rw [transact_eq sorted, noPreOp]
  dsimp only [notifyAll, Operation.initial]
  rw [passed]
  unfold byteAt owner
  cases bus.ordinary.find? (Includes kinds addr) with
  | some device =>
      obtain ⟨after, concluded, vectors_eq⟩ := conclude_eq
        (routeOf (.accepted, (kinds device).cell (contents device) addr, contents)) sorted
        (notified _)
      rw [answer_of_settled bus (.inl rfl)] at concluded vectors_eq
      exact ⟨after, concluded, vectors_eq⟩
  | none =>
      obtain ⟨after, concluded, vectors_eq⟩ := conclude_eq (routeOf (.observed, 0, contents)) sorted
        (notified _)
      rw [answer_read_of_open rfl] at concluded vectors_eq
      exact ⟨after, concluded, vectors_eq⟩

omit [DecidableEq δ] in
/-- The vector bytes after a write. -/
theorem vectorByte_of_answer {after : Bus δ} {route : Route (Contents kinds)} {other : Word}
    (vectors_eq : after.vectors = (bus.answer (.write route.value) addr route).2)
    (isVector : IsVector other) :
    after.vectorByte other =
      if other = addr ∧ route.isDone = false then some route.value else bus.vectorByte other := by
  cases isDone : route.isDone with
  | true =>
      rw [answer_of_settled bus (.inl isDone)] at vectors_eq
      rw [if_neg (by simp)]
      exact vectorByte_congr vectors_eq other
  | false =>
      rw [answer_write_of_open isDone] at vectors_eq
      cases set_eq : bus.setVectorByte addr route.value with
      | some set =>
          rw [set_eq] at vectors_eq
          rw [vectorByte_congr vectors_eq, Option.getD_some, vectorByte_setVectorByte set_eq]
          simp
      | none =>
          rw [set_eq] at vectors_eq
          have other_ne : other ≠ addr := by
            rintro rfl
            have isSome := bus.setVectorByte_isSome route.value isVector
            rw [set_eq] at isSome
            cases isSome
          rw [if_neg (by simp [other_ne])]
          exact vectorByte_congr vectors_eq other

/-- A write sets the byte at its address, where the bus has one, and no other byte. -/
theorem transact_write (sorted : bus.Sorted (firsts (storageModule kinds)))
    (noPreOp : observers bus.preOp = []) (allReadWrite : bus.AllReadWrite kinds contents)
    (addr : Word) (value : Byte) :
    ∃ after last, bus.transact (storageModule kinds) (.write value) addr contents =
        .ok (value, after, last) ∧ after.AllReadWrite kinds last ∧
      ∀ other, bus.Backed kinds other → after.byteAt kinds last other =
        if other = addr then value else bus.byteAt kinds contents other := by
  obtain ⟨result, middle, passed, written, owned⟩ := passOn_write addr value
    fun device device_mem => allReadWrite device (.inl device_mem)
  let route : Route (Contents kinds) := routeOf (result, value, middle)
  obtain ⟨last, notified, later⟩ := notifyAll_write addr value fun device device_mem =>
    written.readWrite device (allReadWrite device (.inr device_mem))
  have answered : (bus.answer (.write value) addr route).1 = value := by
    cases isDone : route.isDone with
    | true => rw [answer_of_settled bus (.inl isDone)]; rfl
    | false => exact congrArg Prod.fst (answer_write_of_open isDone)
  have notified : notifyAll (storageModule kinds) (.write value) addr
      (some (bus.answer (.write value) addr route).1) (observers bus.postOp) route.state =
        .ok last := by
    rw [answered]
    exact notified
  obtain ⟨after, concluded, vectors_eq⟩ := conclude_eq route sorted notified
  rw [answered] at concluded
  have done : bus.transact (storageModule kinds) (.write value) addr contents =
      .ok (value, after, last) := by
    rw [transact_eq sorted, noPreOp]
    dsimp only [notifyAll, Operation.initial]
    rw [passed]
    exact concluded
  have all := written.trans later
  have layout_eq := layout_of_transact done
  simp only [layout, Prod.mk.injEq] at layout_eq
  have ordinary_eq : after.ordinary = bus.ordinary := by
    unfold ordinary
    rw [layout_eq.2.1]
  refine ⟨after, last, done, fun device device_mem => ?_, fun other backed => ?_⟩
  · rw [ordinary_eq, layout_eq.2.2] at device_mem
    exact all.readWrite device (allReadWrite device device_mem)
  · unfold byteAt owner
    rw [ordinary_eq]
    cases owner_eq : bus.ordinary.find? (Includes kinds other) with
    | some device =>
        have includes := List.find?_some owner_eq
        by_cases same : other = addr
        · rw [same] at owner_eq
          rw [owner_eq] at owned
          dsimp only
          rw [if_pos same, same]
          rcases later.here device with value_eq | cell_eq
          · exact value_eq
          · exact cell_eq.trans owned.2
        · rw [if_neg same]
          exact all.others device other includes same
    | none =>
        have isVector : IsVector other := by
          refine backed.resolve_left ?_
          rintro ⟨device, device_mem, includes⟩
          exact List.find?_eq_none.mp owner_eq device device_mem includes
        have byte_eq := vectorByte_of_answer vectors_eq isVector
        dsimp only
        by_cases same : other = addr
        · rw [same] at owner_eq
          rw [owner_eq] at owned
          have isOpen : route.isDone = false := by
            have observed : result = .observed := owned
            simp [route, routeOf, observed]
          rw [byte_eq, if_pos ⟨same, isOpen⟩, if_pos same]
          rfl
        · rw [byte_eq, if_neg fun both => same both.1, if_neg same]

/-! ## Runs -/

/-- The value last written to an address in a list of transactions. -/
def lastWritten (addr : Word) : List Transaction → Option Byte
  | [] => none
  | given :: rest =>
      (lastWritten addr rest).or
        (match given.operation with
        | .write value => if addr = given.addr then some value else none
        | .read => none)

/-- What stays true of a bus of storage modules in a run. -/
structure Stores (bus : Bus δ) (contents : Contents kinds) : Prop where
  /-- The lists are sorted. -/
  sorted : bus.Sorted (firsts (storageModule kinds))
  /-- The pre-op tier is empty. -/
  noPreOp : observers bus.preOp = []
  /-- The modes. -/
  allReadWrite : bus.AllReadWrite kinds contents

/-- The lists of a bus determine whether its invariants hold. -/
theorem Stores.of_layout (stores : bus.Stores contents) {after : Bus δ} {last : Contents kinds}
    (layout_eq : after.layout = bus.layout) (allReadWrite : after.AllReadWrite kinds last) :
    after.Stores last ∧ after.ordinary = bus.ordinary := by
  have lists_eq := layout_eq
  simp only [layout, Prod.mk.injEq] at lists_eq
  obtain ⟨preOp_eq, modules_eq, -⟩ := lists_eq
  refine ⟨⟨stores.sorted.of_layout layout_eq, ?_, allReadWrite⟩, ?_⟩
  · rw [preOp_eq]
    exact stores.noPreOp
  · unfold ordinary
    rw [modules_eq]

theorem Stores.step (stores : bus.Stores contents) (given : Transaction) :
    ∃ value after last,
      bus.transact (storageModule kinds) given.operation given.addr contents =
          .ok (value, after, last) ∧
        after.Stores last ∧ after.ordinary = bus.ordinary ∧
        ∀ addr, bus.Backed kinds addr → after.byteAt kinds last addr =
          (lastWritten addr [given]).getD (bus.byteAt kinds contents addr) := by
  obtain ⟨operation, place⟩ := given
  cases operation with
  | read =>
      obtain ⟨after, done, vectors_eq⟩ :=
        transact_read stores.sorted stores.noPreOp stores.allReadWrite place
      have layout_eq := layout_of_transact done
      have allReadWrite : after.AllReadWrite kinds contents := by
        simp only [layout, Prod.mk.injEq] at layout_eq
        unfold AllReadWrite ordinary
        rw [layout_eq.2.1, layout_eq.2.2]
        exact stores.allReadWrite
      obtain ⟨stays, ordinary_eq⟩ := stores.of_layout layout_eq allReadWrite
      refine ⟨_, after, contents, done, stays, ordinary_eq, fun addr backed => ?_⟩
      unfold byteAt owner
      rw [ordinary_eq, vectorByte_congr vectors_eq]
      rfl
  | write value =>
      obtain ⟨after, last, done, allReadWrite, byteAt_eq⟩ :=
        transact_write stores.sorted stores.noPreOp stores.allReadWrite place value
      obtain ⟨stays, ordinary_eq⟩ := stores.of_layout (layout_of_transact done) allReadWrite
      refine ⟨value, after, last, done, stays, ordinary_eq, fun addr backed => ?_⟩
      rw [byteAt_eq addr backed]
      by_cases here : addr = place
      · simp [lastWritten, here]
      · simp [lastWritten, here]

theorem lastWritten_cons (addr : Word) (given : Transaction) (rest : List Transaction)
    (byte : Byte) :
    (lastWritten addr (given :: rest)).getD byte =
      (lastWritten addr rest).getD ((lastWritten addr [given]).getD byte) := by
  simp only [lastWritten, Option.none_or]
  cases lastWritten addr rest <;> rfl

/-- After a run every address that the bus backs holds the value last written to it, or the byte
it held before. -/
theorem Stores.run (stores : bus.Stores contents) (given : List Transaction) :
    ∃ after last,
      (transacting (storageModule kinds)).run (.ok (bus, contents)) given = .ok (after, last) ∧
        after.Stores last ∧
        ∀ addr, bus.Backed kinds addr → after.byteAt kinds last addr =
          (lastWritten addr given).getD (bus.byteAt kinds contents addr) := by
  induction given generalizing bus contents with
  | nil => exact ⟨bus, contents, rfl, stores, fun _ _ => rfl⟩
  | cons first rest ih =>
      obtain ⟨value, middle, between, done, stays, ordinary_eq, first_eq⟩ := stores.step first
      obtain ⟨after, last, run_eq, stores, rest_eq⟩ := ih stays
      refine ⟨after, last, ?_, stores, fun addr backed => ?_⟩
      · rw [Lib.Machine.run_cons, transacting_ok, done]
        exact run_eq
      · have still : middle.Backed kinds addr := by
          unfold Backed at backed ⊢
          rw [ordinary_eq]
          exact backed
        rw [rest_eq addr still, first_eq addr backed, ← lastWritten_cons]

/-- A bus whose ordinary and post-op tiers hold storage modules in read-write mode behaves as
memory: reading an address that an ordinary module includes or that is one of a vector gives the
value most recently written to it, or if there is none the byte that was read there before. -/
theorem behavesAsMemory (configured : Configured (storageModule kinds) bus)
    (noPreOp : observers bus.preOp = []) (allReadWrite : bus.AllReadWrite kinds contents)
    (given : List Transaction) {addr : Word} (backed : bus.Backed kinds addr) :
    ∃ byte before, bus.readAddr (storageModule kinds) addr contents = .ok (byte, before, contents) ∧
      ∃ after last,
        (transacting (storageModule kinds)).run (.ok (bus, contents)) given = .ok (after, last) ∧
          ∃ final, after.readAddr (storageModule kinds) addr last =
            .ok ((lastWritten addr given).getD byte, final, last) := by
  have stores : bus.Stores contents := ⟨configured.sorted, noPreOp, allReadWrite⟩
  obtain ⟨before, read_eq, -⟩ := transact_read configured.sorted noPreOp allReadWrite addr
  obtain ⟨after, last, run_eq, stays, byteAt_eq⟩ := stores.run given
  obtain ⟨final, final_eq, -⟩ :=
    transact_read stays.sorted stays.noPreOp stays.allReadWrite addr
  rw [byteAt_eq addr backed] at final_eq
  exact ⟨_, before, read_eq, after, last, run_eq, final, final_eq⟩

/-- A std64k module and a byte module at `$0200`. -/
def layeredKinds : Bool → StorageKind
  | false => .std64k
  | true => .byte 0x0200

/-- The byte module in tier 1 and, a second time, in the post-op tier. -/
def layered : Bus Bool :=
  [(0, false), (1, true), (tierPostOp, true)].foldl
    (fun bus (tier, module) => (bus.registerModule (firsts (storageModule layeredKinds))
      { tier, module, allocations := { node := true, tier := true } }).2)
    (alloc MembusCache.blank fun _ => 0)

/-- Memory filled with zero, and a byte module in read-write mode. -/
def layeredContents : Contents layeredKinds
  | false => ({ bytes := fun _ => 0 } : MembusModuleStd64k)
  | true => MembusModuleByte.alloc 0

/-- The byte that the byte module shadows is the one last written. -/
theorem layered_remembers :
    ∃ byte before, layered.readAddr (storageModule layeredKinds) 0x0200 layeredContents =
        .ok (byte, before, layeredContents) ∧
      ∃ after last,
        (transacting (storageModule layeredKinds)).run (.ok (layered, layeredContents))
          [⟨.write 0x12, 0x0200⟩, ⟨.write 0x34, 0x0201⟩] = .ok (after, last) ∧
          ∃ final, after.readAddr (storageModule layeredKinds) 0x0200 last =
            .ok (0x12, final, last) := by
  have configured : Configured (storageModule layeredKinds) layered :=
    .register _ (.register _ (.register _ (.alloc _ _)))
  have allReadWrite : layered.AllReadWrite layeredKinds layeredContents := by
    intro device _
    cases device with
    | false => trivial
    | true => exact ⟨by decide, by decide⟩
  exact behavesAsMemory configured rfl allReadWrite [⟨.write 0x12, 0x0200⟩, ⟨.write 0x34, 0x0201⟩]
    (.inl ⟨false, by decide, by decide⟩)

end Bus

/-! ## Storage buses -/

variable {δ : Type*} [DecidableEq δ] {kinds : δ → StorageKind}

/-- A bus of storage modules with what they hold, in read-write mode and with no pre-op tier. -/
structure StorageBus (kinds : δ → StorageKind) where
  /-- The bus. -/
  bus : Bus δ
  /-- What the modules hold. -/
  contents : Bus.Contents kinds
  /-- The lists and the modes. -/
  stores : bus.Stores contents

namespace StorageBus

open Bus

/-- A transaction; the outcome without a result does not arise. -/
def transact (memory : StorageBus kinds) (given : Transaction) : Byte × StorageBus kinds :=
  match done : memory.bus.transact (storageModule kinds) given.operation given.addr
      memory.contents with
  | .error _ => (0, memory)
  | .ok (value, after, last) =>
      (value, {
        bus := after
        contents := last
        stores := by
          obtain ⟨_, _, _, done', stores, -⟩ := memory.stores.step given
          rw [done] at done'
          cases done'
          exact stores })

instance : Membus (StorageBus kinds) where
  readAddr memory addr := memory.transact { operation := .read, addr }
  writeAddr memory addr value := (memory.transact { operation := .write value, addr }).2

theorem transact_eq (memory : StorageBus kinds) (given : Transaction) :
    memory.bus.transact (storageModule kinds) given.operation given.addr memory.contents =
      .ok ((memory.transact given).1, (memory.transact given).2.bus,
        (memory.transact given).2.contents) := by
  obtain ⟨value, after, last, done, -⟩ := memory.stores.step given
  unfold transact
  split
  · rename_i failed
    cases done.symm.trans failed
  · rename_i found
    exact found

theorem readAddr_fst (memory : StorageBus kinds) (addr : Word) :
    (Membus.readAddr memory addr).1 = memory.bus.byteAt kinds memory.contents addr := by
  obtain ⟨after, done, -⟩ := transact_read memory.stores.sorted memory.stores.noPreOp
    memory.stores.allReadWrite addr
  have found := memory.transact_eq { operation := .read, addr }
  rw [done] at found
  exact (Prod.mk.inj (Except.ok.inj found)).1.symm

/-- The bus of `executor_alloc_with_default_components`: a std64k module in tier 0. -/
def std64k (uninitialised : MembusCache) (bytes : Word → Byte) :
    StorageBus fun _ : Unit => .std64k where
  bus := ((alloc uninitialised fun _ => 0).registerModule
    (firsts (storageModule fun _ => .std64k))
    { tier := 0, module := (), allocations := { node := true, tier := true } }).2
  contents := fun _ => ({ bytes } : MembusModuleStd64k)
  stores := {
    sorted := (Configured.register _ (Configured.alloc uninitialised _)).sorted
    noPreOp := rfl
    allReadWrite := fun _ _ => trivial }

end StorageBus

end System6502
