import System6502.Membus.Watchpoints

/-!
# Watching a bus

A bus before and after a watchpoints module is registered in one of its tiers.
-/

namespace System6502

open Lib

variable {δ ρ γ σ τ ω : Type*}

/-- A module whose devices are a part of a state. -/
def MembusModule.within (module : MembusModule σ) (get : τ → σ) (put : σ → τ → τ) :
    MembusModule τ where
  addrRange := module.addrRange
  readCallback := module.readCallback.map fun callback addr value state =>
    (callback addr value (get state)).map fun (result, left, after) =>
      (result, left, put after state)
  writeCallback := module.writeCallback.map fun callback addr value state =>
    (callback addr value (get state)).map fun (result, after) => (result, put after state)

namespace MembusModuleWatchpoints

/-- What a watchpoints module answers. -/
def answer (watchpoints : MembusModuleWatchpoints ρ γ ω) (operation : Operation) (addr : Word)
    (value : Option Byte) : Option OpResult :=
  if watchpoints.Allows operation then
    (watchpoints.matching addr).bind fun found =>
      if Dereferences (event operation) value found then none else some .accepted
  else some .notAccepted

/-- The module without the calls of its watchpoints. -/
def muted (watchpoints : MembusModuleWatchpoints ρ γ ω) : MembusModule σ where
  addrRange := watchpoints.addrRange
  readCallback := some fun addr value state =>
    (watchpoints.answer .read addr value).map fun result => (result, value.getD 0, state)
  writeCallback := some fun addr value state =>
    (watchpoints.answer (.write value) addr (some value)).map fun result => (result, state)

end MembusModuleWatchpoints

namespace Bus

variable [DecidableEq δ] (others : δ → MembusModule σ) (watcher : δ)
  (watchpoints : MembusModuleWatchpoints ρ γ ω)

/-- The modules of a bus with a watchpoints module, whose callback functions do not touch the
devices of the others. -/
def watching (module : δ) : MembusModule (σ × ω) :=
  if module = watcher then
    watchpoints.module.within Prod.snd fun after state => (state.1, after)
  else (others module).within Prod.fst fun after state => (after, state.2)

/-- The same modules as far as the other devices are concerned. -/
def muting (module : δ) : MembusModule σ :=
  if module = watcher then watchpoints.muted else others module

omit [DecidableEq δ] in
theorem observe_fst (operation : Operation) (addr : Word) (value : Option Byte) (state : ω) :
    (watchpoints.observe (MembusModuleWatchpoints.event operation)
        (MembusModuleWatchpoints.forbidding operation) addr value state).map Prod.fst =
      watchpoints.answer operation addr value := by
  unfold MembusModuleWatchpoints.observe MembusModuleWatchpoints.answer
  by_cases allows : watchpoints.Allows operation
  · rw [if_pos allows, if_pos (show _ ≠ _ from allows)]
    cases watchpoints.matching addr with
    | none => rfl
    | some found =>
        have ends := MembusModuleWatchpoints.notify_isSome_iff
          (MembusModuleWatchpoints.event operation) addr value found state
        simp only [Option.bind_some]
        split
        · rename_i dereferences
          rw [Option.not_isSome_iff_eq_none.mp fun isSome => ends.mp isSome dereferences]
          rfl
        · rename_i safe
          obtain ⟨after, after_eq⟩ := Option.isSome_iff_exists.mp (ends.mpr safe)
          rw [after_eq]
          rfl
  · rw [if_neg allows, if_neg (show ¬ _ ≠ _ from allows)]
    rfl

omit [DecidableEq δ] in
theorem handler_within (module : MembusModule σ) (get : τ → σ) (put : σ → τ → τ)
    (operation : Operation) (addr : Word) :
    (module.within get put).handler operation addr =
      (module.handler operation addr).map fun handler argument state =>
        (handler argument (get state)).map fun (result, left, after) =>
          (result, left, put after state) := by
  unfold MembusModule.handler
  change ite (module.addrRange.doesInclude addr = true) _ _ = _
  split
  · cases operation with
    | read => cases reads : module.readCallback <;> simp [MembusModule.within, reads]
    | write =>
        cases writes : module.writeCallback with
        | none => simp [MembusModule.within, writes]
        | some callback =>
            simp only [MembusModule.within, writes, Option.map_some, Option.map_map]
            rfl
  · rfl

omit [DecidableEq δ] in
theorem handler_module (operation : Operation) (addr : Word) :
    watchpoints.module.handler operation addr =
      if watchpoints.addrRange.doesInclude addr then
        some fun argument state =>
          (watchpoints.observe (MembusModuleWatchpoints.event operation)
            (MembusModuleWatchpoints.forbidding operation) addr (operation.passed argument)
            state).map fun (result, after) => (result, argument.getD 0, after)
      else none := by
  cases operation <;> rfl

omit [DecidableEq δ] in
theorem handler_muted (operation : Operation) (addr : Word) :
    (watchpoints.muted : MembusModule σ).handler operation addr =
      if watchpoints.addrRange.doesInclude addr then
        some fun argument state =>
          (watchpoints.answer operation addr (operation.passed argument)).map fun result =>
            (result, argument.getD 0, state)
      else none := by
  cases operation with
  | read => rfl
  | write value =>
      unfold MembusModule.handler
      simp only [MembusModuleWatchpoints.muted, Option.map_some, Option.map_map]
      rfl

/-- Calls of the watchpoints make no difference to the other devices. -/
theorem watching_abstracts :
    Abstracts Prod.fst (watching others watcher watchpoints)
      (muting others watcher watchpoints) := by
  refine ⟨fun module => ?_, fun operation addr module argument state => ?_⟩
  · unfold watching muting
    split <;> rfl
  · by_cases own : module = watcher
    · have here : watching others watcher watchpoints module =
          watchpoints.module.within Prod.snd fun after state => (state.1, after) := if_pos own
      have there : muting others watcher watchpoints module = watchpoints.muted := if_pos own
      have answer_eq := observe_fst watchpoints operation addr (operation.passed argument) state.2
      unfold call
      rw [here, there, handler_within, handler_module, handler_muted]
      by_cases includes : watchpoints.addrRange.doesInclude addr = true
      · rw [if_pos includes, if_pos includes]
        dsimp only [Option.map_some]
        rw [← answer_eq]
        rcases watchpoints.observe (MembusModuleWatchpoints.event operation)
          (MembusModuleWatchpoints.forbidding operation) addr (operation.passed argument)
          state.2 with _ | outcome
        · rfl
        · rfl
      · rw [if_neg includes, if_neg includes]
        rfl
    · have here : watching others watcher watchpoints module =
          (others module).within Prod.fst fun after state => (after, state.2) := if_neg own
      have there : muting others watcher watchpoints module = others module := if_neg own
      unfold call
      rw [here, there, handler_within]
      rcases (others module).handler operation addr with _ | handler
      · rfl
      · dsimp only [Option.map]
        rcases handler argument state.1 with _ | outcome
        · rfl
        · rfl

/-! ## The place of a module -/

section Place

variable {addrLo : δ → Word}

omit [DecidableEq δ] in
theorem insertModule_eq (new : δ) (modules : List δ) :
    insertModule addrLo new modules =
      (modules.takeWhile fun module => addrLo module < addrLo new) ++
        new :: modules.dropWhile fun module => addrLo module < addrLo new := by
  unfold insertModule
  dsimp only
  split
  · rename_i isEmpty
    have split_eq := List.takeWhile_append_dropWhile
      (p := fun module => decide (addrLo module < addrLo new)) (l := modules)
    rw [List.isEmpty_iff.mp isEmpty, List.nil_append] at split_eq
    rw [List.isEmpty_iff.mp isEmpty, split_eq, List.nil_append]
  · rfl

variable (addrLo) in
/-- The modules of a tier that come before a new module. -/
def nodeAhead (call : Registration δ) (node : ModuleTierNode δ) : List δ :=
  if node.tier < call.tier then node.modules
  else if node.tier = call.tier then
    node.modules.takeWhile fun module => addrLo module < addrLo call.module
  else []

variable (addrLo) in
/-- The modules of a tier that come after a new module. -/
def nodeBehind (call : Registration δ) (node : ModuleTierNode δ) : List δ :=
  if node.tier < call.tier then []
  else if node.tier = call.tier then
    node.modules.dropWhile fun module => addrLo module < addrLo call.module
  else node.modules

variable (addrLo) in
/-- The modules of the ordinary tiers that come before a new module. -/
def ahead (bus : Bus δ) (call : Registration δ) : List δ :=
  bus.modules.flatMap (nodeAhead addrLo call)

variable (addrLo) in
/-- The modules of the ordinary tiers that come after a new module. -/
def behind (bus : Bus δ) (call : Registration δ) : List δ :=
  bus.modules.flatMap (nodeBehind addrLo call)

variable (addrLo) in
omit [DecidableEq δ] in
theorem flatMap_of_below {call : Registration δ} {tiers : List (ModuleTierNode δ)}
    (below : ∀ node ∈ tiers, node.tier < call.tier) :
    tiers.flatMap (nodeAhead addrLo call) = tiers.flatMap ModuleTierNode.modules ∧
      tiers.flatMap (nodeBehind addrLo call) = [] := by
  constructor
  · exact List.flatMap_congr fun node node_mem => if_pos (below node node_mem)
  · rw [List.flatMap_eq_nil_iff]
    exact fun node node_mem => if_pos (below node node_mem)

variable (addrLo) in
omit [DecidableEq δ] in
theorem flatMap_of_above {call : Registration δ} {tiers : List (ModuleTierNode δ)}
    (above : ∀ node ∈ tiers, call.tier < node.tier) :
    tiers.flatMap (nodeAhead addrLo call) = [] ∧
      tiers.flatMap (nodeBehind addrLo call) = tiers.flatMap ModuleTierNode.modules := by
  have notBelow : ∀ node ∈ tiers, ¬ node.tier < call.tier :=
    fun node node_mem below => absurd (above node node_mem) (by omega)
  have other : ∀ node ∈ tiers, ¬ node.tier = call.tier :=
    fun node node_mem same => absurd (above node node_mem) (by omega)
  constructor
  · rw [List.flatMap_eq_nil_iff]
    intro node node_mem
    rw [nodeAhead, if_neg (notBelow node node_mem), if_neg (other node node_mem)]
  · refine List.flatMap_congr fun node node_mem => ?_
    rw [nodeBehind, if_neg (notBelow node node_mem), if_neg (other node node_mem)]

omit [DecidableEq δ] in
/-- A registration above the first tier puts its module between those before and those after. -/
theorem flatMap_of_insertion {call : Registration δ} {tiers inserted : List (ModuleTierNode δ)}
    (insertion : TierInsertion addrLo call.tier call.module tiers inserted)
    (ascending : tiers.Pairwise fun left right => left.tier < right.tier)
    (keeps : ∀ first ∈ tiers.head?, ¬ call.tier < first.tier) :
    tiers.flatMap ModuleTierNode.modules =
        tiers.flatMap (nodeAhead addrLo call) ++ tiers.flatMap (nodeBehind addrLo call) ∧
      inserted.flatMap ModuleTierNode.modules =
        tiers.flatMap (nodeAhead addrLo call) ++
          call.module :: tiers.flatMap (nodeBehind addrLo call) := by
  cases insertion with
  | found before node rest below tier_eq =>
      rw [List.pairwise_append, List.pairwise_cons] at ascending
      have above : ∀ other ∈ rest, call.tier < other.tier :=
        fun other other_mem => tier_eq ▸ ascending.2.1.1 other other_mem
      obtain ⟨beforeAhead, beforeBehind⟩ := flatMap_of_below addrLo below
      obtain ⟨restAhead, restBehind⟩ := flatMap_of_above addrLo above
      have notBelow : ¬ node.tier < call.tier := by omega
      have ahead_eq : nodeAhead addrLo call node =
          node.modules.takeWhile fun module => addrLo module < addrLo call.module := by
        rw [nodeAhead, if_neg notBelow, if_pos tier_eq]
      have behind_eq : nodeBehind addrLo call node =
          node.modules.dropWhile fun module => addrLo module < addrLo call.module := by
        rw [nodeBehind, if_neg notBelow, if_pos tier_eq]
      have split_eq : node.modules = nodeAhead addrLo call node ++ nodeBehind addrLo call node := by
        rw [ahead_eq, behind_eq, List.takeWhile_append_dropWhile]
      simp only [List.flatMap_append, List.flatMap_cons, beforeAhead, beforeBehind, restAhead,
        restBehind, List.nil_append, List.append_nil, List.append_assoc]
      constructor
      · rw [split_eq, List.append_assoc]
      · rw [insertModule_eq, ← ahead_eq, ← behind_eq]
        simp only [List.append_assoc, List.cons_append]
  | added before after below above linked =>
      rw [List.pairwise_append] at ascending
      have allAbove : ∀ other ∈ after, call.tier < other.tier := by
        cases after with
        | nil => nofun
        | cons first rest =>
            have firstAbove : call.tier < first.tier := above first rfl
            refine List.forall_mem_cons.mpr ⟨firstAbove, fun other other_mem => ?_⟩
            exact firstAbove.trans ((List.pairwise_cons.mp ascending.2.1).1 other other_mem)
      obtain ⟨beforeAhead, beforeBehind⟩ := flatMap_of_below addrLo below
      obtain ⟨afterAhead, afterBehind⟩ := flatMap_of_above addrLo allAbove
      simp only [List.flatMap_append, List.flatMap_cons, beforeAhead, beforeBehind, afterAhead,
        afterBehind, List.nil_append, List.append_nil, List.cons_append, and_self]
  | unlinked first rest above => exact absurd above (keeps first rfl)

end Place

/-! ## Transactions that the module does not change -/

section Insert

variable {modules : δ → MembusModule σ} {operation : Operation} {addr : Word}

omit [DecidableEq δ] in
/-- A module that leaves the devices alone makes no difference to a list of observers. -/
theorem notifyAll_insert {module : δ} {argument : Option Byte}
    (harmless : ∀ state, ∃ result left,
      call modules operation addr module argument state = .ok (result, left, state))
    (front back : List δ) (state : σ) :
    notifyAll modules operation addr argument (front ++ module :: back) state =
      notifyAll modules operation addr argument (front ++ back) state := by
  rw [notifyAll_append, notifyAll_append]
  rcases notifyAll modules operation addr argument front state with silent | after
  · rfl
  · obtain ⟨result, left, call_eq⟩ := harmless after
    dsimp only
    rw [notifyAll, call_eq]

omit [DecidableEq δ] in
theorem notifyAll_insertModule {addrLo : δ → Word} {new : δ} {argument : Option Byte}
    (harmless : ∀ state, ∃ result left,
      call modules operation addr new argument state = .ok (result, left, state))
    (list : List δ) (state : σ) :
    notifyAll modules operation addr argument (insertModule addrLo new list) state =
      notifyAll modules operation addr argument list state := by
  rw [insertModule_eq, notifyAll_insert harmless, List.takeWhile_append_dropWhile]

end Insert

omit [DecidableEq δ] in
theorem Takes.of_layout {addrLo : δ → Word} {bus after other otherAfter : Bus δ}
    {call : Registration δ} (takes : Takes addrLo bus call after)
    (layout_eq : other.layout = bus.layout) (afterLayout_eq : otherAfter.layout = after.layout) :
    Takes addrLo other call otherAfter := by
  simp only [layout, Prod.mk.injEq] at layout_eq afterLayout_eq
  obtain ⟨preOp_eq, modules_eq, postOp_eq⟩ := layout_eq
  obtain ⟨afterPreOp_eq, afterModules_eq, afterPostOp_eq⟩ := afterLayout_eq
  have chain_eq : ∀ tier, other.chain tier = bus.chain tier := fun tier => by
    simp only [chain, preOp_eq, modules_eq, postOp_eq]
  cases takes with
  | preOp tier_eq inserted modulesKept postOpKept =>
      refine .preOp tier_eq ?_ ?_ ?_
      · rw [chain_eq, afterPreOp_eq]
        exact inserted
      · rw [afterModules_eq, modulesKept, modules_eq]
      · rw [afterPostOp_eq, postOpKept, postOp_eq]
  | postOp tier_eq inserted modulesKept preOpKept =>
      refine .postOp tier_eq ?_ ?_ ?_
      · rw [chain_eq, afterPostOp_eq]
        exact inserted
      · rw [afterModules_eq, modulesKept, modules_eq]
      · rw [afterPreOp_eq, preOpKept, preOp_eq]
  | ordinary isOrdinary insertion preOpKept postOpKept =>
      refine .ordinary isOrdinary ?_ ?_ ?_
      · rw [afterModules_eq, modules_eq]
        exact insertion
      · rw [afterPreOp_eq, preOpKept, preOp_eq]
      · rw [afterPostOp_eq, postOpKept, postOp_eq]

/-- The modules of a list let a transaction pass: all of them observe it. -/
def Passes (modules : δ → MembusModule σ) (bus : Bus δ) (given : Transaction) (list : List δ)
    (state : σ) : Prop :=
  ∃ before left after,
    notifyAll modules given.operation given.addr given.operation.preOp (observers bus.preOp)
        state = .ok before ∧
      passOn modules given.operation given.addr list given.operation.initial before =
        .ok (.observed, left, after)

/-- A transaction that a watchpoints module, registered in a tier, does not disturb.  In the
pre-op tier no watchpoint asks for a read of the address.  In an ordinary tier a transaction that
reaches the module finds no module behind it, and the address is not that of a vector if the
module accepts.  In all tiers the search for the address ends. -/
def Unseen (call : Registration δ) (bus : Bus δ) (given : Transaction) (state : σ × ω) : Prop :=
  watchpoints.addrRange.doesInclude given.addr = true →
    if call.tier = tierPreOp then
      watchpoints.Allows given.operation → ∃ found ∈ watchpoints.matching given.addr,
        given.operation = .read →
          ∀ wp ∈ found, ¬ MembusModuleWatchpoints.Wants Watchpoint.eventRead wp
    else if call.tier = tierPostOp then
      watchpoints.Allows given.operation → (watchpoints.matching given.addr).isSome = true
    else
      Passes (watching others watcher watchpoints) bus given
          (bus.ahead (firsts (watching others watcher watchpoints)) call) state →
        (∀ module ∈ bus.behind (firsts (watching others watcher watchpoints)) call,
            ¬ Answers (watching others watcher watchpoints) given.operation given.addr module) ∧
          (watchpoints.Allows given.operation →
            (watchpoints.matching given.addr).isSome = true ∧ ¬ IsVector given.addr)

theorem call_muting (operation : Operation) (addr : Word) (argument : Option Byte) (state : σ) :
    call (muting others watcher watchpoints) operation addr watcher argument state =
      if watchpoints.addrRange.doesInclude addr then
        match watchpoints.answer operation addr (operation.passed argument) with
        | none => .error watcher
        | some result => .ok (result, argument.getD 0, state)
      else .ok (.observed, argument.getD 0, state) := by
  have there : muting others watcher watchpoints watcher = watchpoints.muted := if_pos rfl
  unfold call
  rw [there, handler_muted]
  by_cases includes : watchpoints.addrRange.doesInclude addr = true
  · rw [if_pos includes, if_pos includes]
    dsimp only
    rcases watchpoints.answer operation addr (operation.passed argument) with _ | result
    · rfl
    · rfl
  · rw [if_neg includes, if_neg includes]

omit [DecidableEq δ] in
/-- The module answers a transaction whose search ends and that dereferences no null pointer. -/
theorem answer_of_safe {operation : Operation} {addr : Word} {value : Option Byte}
    (safe : watchpoints.Allows operation → ∃ found ∈ watchpoints.matching addr,
      ¬ MembusModuleWatchpoints.Dereferences (MembusModuleWatchpoints.event operation) value
        found) :
    watchpoints.answer operation addr value =
      some (if watchpoints.Allows operation then .accepted else .notAccepted) := by
  unfold MembusModuleWatchpoints.answer
  by_cases allows : watchpoints.Allows operation
  · obtain ⟨found, found_eq, holds⟩ := safe allows
    rw [if_pos allows, if_pos allows, show watchpoints.matching addr = some found from found_eq]
    exact if_neg holds
  · rw [if_neg allows, if_neg allows]

omit [DecidableEq δ] in
theorem not_dereferences_some {event : BitVec 32} {byte : Byte}
    (found : List (Watchpoint (WatchpointCallback γ ω) γ)) :
    ¬ MembusModuleWatchpoints.Dereferences event (some byte) found :=
  fun dereferences => Option.some_ne_none _ dereferences.1

variable {others watcher watchpoints}

/-- In the pre-op tier an undisturbed transaction makes the module dereference nothing. -/
theorem Unseen.safe_preOp {call : Registration δ} {bus : Bus δ} {given : Transaction}
    {state : σ × ω} (unseen : Unseen others watcher watchpoints call bus given state)
    (tier_eq : call.tier = tierPreOp)
    (includes : watchpoints.addrRange.doesInclude given.addr = true)
    (allows : watchpoints.Allows given.operation) :
    ∃ found ∈ watchpoints.matching given.addr,
      ¬ MembusModuleWatchpoints.Dereferences (MembusModuleWatchpoints.event given.operation)
        (given.operation.passed given.operation.preOp) found := by
  have unseen := unseen includes
  rw [if_pos tier_eq] at unseen
  obtain ⟨found, found_eq, silent⟩ := unseen allows
  refine ⟨found, found_eq, fun dereferences => ?_⟩
  obtain ⟨null, wp, wp_mem, wants⟩ := dereferences
  cases operation_eq : given.operation with
  | read =>
      rw [operation_eq] at wants
      exact silent operation_eq wp wp_mem wants
  | write value =>
      rw [operation_eq] at null
      cases null

/-- In the post-op tier there is a byte to hand to the callbacks. -/
theorem Unseen.safe_postOp {call : Registration δ} {bus : Bus δ} {given : Transaction}
    {state : σ × ω} (unseen : Unseen others watcher watchpoints call bus given state)
    (tier_eq : call.tier = tierPostOp) (value : Byte)
    (includes : watchpoints.addrRange.doesInclude given.addr = true)
    (allows : watchpoints.Allows given.operation) :
    ∃ found ∈ watchpoints.matching given.addr,
      ¬ MembusModuleWatchpoints.Dereferences (MembusModuleWatchpoints.event given.operation)
        (given.operation.passed (some value)) found := by
  have notPre : call.tier ≠ tierPreOp := by
    rw [tier_eq]
    decide
  have unseen := unseen includes
  rw [if_neg notPre, if_pos tier_eq] at unseen
  obtain ⟨found, found_eq⟩ := Option.isSome_iff_exists.mp (unseen allows)
  refine ⟨found, found_eq, ?_⟩
  cases given.operation <;> exact not_dereferences_some found

/-- A module that answers leaves the other devices alone. -/
theorem harmless_of_safe {operation : Operation} {addr : Word} {argument : Option Byte}
    (safe : watchpoints.addrRange.doesInclude addr = true → watchpoints.Allows operation →
      ∃ found ∈ watchpoints.matching addr, ¬ MembusModuleWatchpoints.Dereferences
        (MembusModuleWatchpoints.event operation) (operation.passed argument) found)
    (state : σ) :
    ∃ result left, call (muting others watcher watchpoints) operation addr watcher argument state =
      .ok (result, left, state) := by
  rw [call_muting]
  by_cases includes : watchpoints.addrRange.doesInclude addr = true
  · rw [if_pos includes, answer_of_safe watchpoints (safe includes)]
    exact ⟨_, _, rfl⟩
  · rw [if_neg includes]
    exact ⟨_, _, rfl⟩

/-- A transaction that passes the other devices passes the modules. -/
theorem passes_of_muting {bus : Bus δ} {given : Transaction} {list : List δ} {state : σ × ω}
    {before left after} (notified : notifyAll (muting others watcher watchpoints) given.operation
      given.addr given.operation.preOp (observers bus.preOp) state.1 = .ok before)
    (passed : passOn (muting others watcher watchpoints) given.operation given.addr list
      given.operation.initial before = .ok (.observed, left, after)) :
    Passes (watching others watcher watchpoints) bus given list state := by
  have abstracts := watching_abstracts others watcher watchpoints
  rw [← abstracts.notifyAll] at notified
  cases notified_eq : notifyAll (watching others watcher watchpoints) given.operation given.addr
      given.operation.preOp (observers bus.preOp) state with
  | error => rw [notified_eq] at notified; cases notified
  | ok beforeBoth =>
      rw [notified_eq] at notified
      obtain rfl : beforeBoth.1 = before := Except.ok.inj notified
      rw [← abstracts.passOn] at passed
      cases passed_eq : passOn (watching others watcher watchpoints) given.operation given.addr list
          given.operation.initial beforeBoth with
      | error => rw [passed_eq] at passed; cases passed
      | ok outcome =>
          rw [passed_eq] at passed
          obtain ⟨result, leftBoth, afterBoth⟩ := outcome
          obtain rfl : result = .observed := congrArg Prod.fst (Except.ok.inj passed)
          exact ⟨beforeBoth, leftBoth, afterBoth, notified_eq, passed_eq⟩

theorem answers_of_muting {operation : Operation} {addr : Word} {module : δ}
    (answers : Answers (muting others watcher watchpoints) operation addr module) :
    Answers (watching others watcher watchpoints) operation addr module := by
  unfold Answers watching at *
  unfold muting at answers
  by_cases own : module = watcher
  · rw [if_pos own] at answers ⊢
    rw [handler_muted] at answers
    rw [handler_within, Option.isSome_map, handler_module]
    by_cases includes : watchpoints.addrRange.doesInclude addr = true
    · rw [if_pos includes]
      rfl
    · rw [if_neg includes] at answers
      cases answers
  · rw [if_neg own] at answers ⊢
    rw [handler_within, Option.isSome_map]
    exact answers

/-- The rest of a transaction that reaches the module in an ordinary tier shows the same with the
module and without it. -/
theorem passOn_unseen {bus after : Bus δ} {given : Transaction} {behind : List δ} {left : Byte}
    {reached : σ} (vectors_eq : after.vectors = bus.vectors)
    (postOp : ∀ value state,
      observerLoop (muting others watcher watchpoints) given.operation given.addr (some value)
          (observers after.postOp) state =
        observerLoop (muting others watcher watchpoints) given.operation given.addr (some value)
          (observers bus.postOp) state)
    (unseen : watchpoints.addrRange.doesInclude given.addr = true →
      (∀ module ∈ behind,
          ¬ Answers (watching others watcher watchpoints) given.operation given.addr module) ∧
        (watchpoints.Allows given.operation →
          (watchpoints.matching given.addr).isSome = true ∧ ¬ IsVector given.addr)) :
    Except.map visible
        (match passOn (muting others watcher watchpoints) given.operation given.addr
            (watcher :: behind) left reached with
          | .error silent => .error silent
          | .ok outcome => conclude (muting others watcher watchpoints) after given.operation
              given.addr (routeOf outcome)) =
      Except.map visible
        (match passOn (muting others watcher watchpoints) given.operation given.addr behind left
            reached with
          | .error silent => .error silent
          | .ok outcome => conclude (muting others watcher watchpoints) bus given.operation
              given.addr (routeOf outcome)) := by
  rw [passOn, call_muting]
  by_cases includes : watchpoints.addrRange.doesInclude given.addr = true
  · obtain ⟨silent, ends⟩ := unseen includes
    have passedOn := passOn_of_not_answers left reached fun module module_mem answers =>
      silent module module_mem (answers_of_muting answers)
    have safe : watchpoints.Allows given.operation → ∃ found ∈ watchpoints.matching given.addr,
        ¬ MembusModuleWatchpoints.Dereferences (MembusModuleWatchpoints.event given.operation)
          (given.operation.passed (some left)) found := by
      intro allows
      obtain ⟨found, found_eq⟩ := Option.isSome_iff_exists.mp (ends allows).1
      refine ⟨found, found_eq, ?_⟩
      cases given.operation <;> exact not_dereferences_some found
    rw [if_pos includes, answer_of_safe watchpoints safe, passedOn]
    by_cases allows : watchpoints.Allows given.operation
    · rw [if_pos allows]
      exact conclude_congr vectors_eq rfl rfl (.inr (ends allows).2) postOp
    · rw [if_neg allows]
      exact conclude_congr vectors_eq rfl rfl (.inl rfl) postOp
  · rw [if_neg includes]
    dsimp only [Option.getD_some]
    rcases passOn (muting others watcher watchpoints) given.operation given.addr behind left
      reached with silent | outcome
    · rfl
    · exact conclude_congr vectors_eq rfl rfl (.inl rfl) postOp

/-- An undisturbed transaction shows the same with the module and without it. -/
theorem transact_unseen {bus after : Bus δ} {call : Registration δ}
    (own : call.module = watcher)
    (takes : Takes (firsts (muting others watcher watchpoints)) bus call after)
    (sorted : bus.Sorted (firsts (muting others watcher watchpoints))) (keeps : ¬ bus.Drops call)
    (vectors_eq : after.vectors = bus.vectors) {given : Transaction} {state : σ × ω}
    (unseen : Unseen others watcher watchpoints call bus given state) :
    (after.transact (muting others watcher watchpoints) given.operation given.addr
        state.1).map visible =
      (bus.transact (muting others watcher watchpoints) given.operation given.addr
        state.1).map visible := by
  subst own
  have afterSorted := takes.sorted sorted
  cases takes with
  | preOp tier_eq inserted modules_eq postOp_eq =>
      obtain ⟨number, preOp_eq⟩ := inserted
      have observers_eq : observers after.preOp =
          insertModule (firsts (muting others call.module watchpoints)) call.module
            (observers bus.preOp) := by
        rw [preOp_eq]
        simp [observers, chain]
      refine transact_congr afterSorted sorted vectors_eq ?_
        (congrArg (List.flatMap ModuleTierNode.modules) modules_eq) fun _ _ => by rw [postOp_eq]
      rw [observers_eq, notifyAll_insertModule (harmless_of_safe (unseen.safe_preOp tier_eq))]
  | postOp tier_eq inserted modules_eq preOp_eq =>
      obtain ⟨number, postOp_eq⟩ := inserted
      have observers_eq : observers after.postOp =
          insertModule (firsts (muting others call.module watchpoints)) call.module
            (observers bus.postOp) := by
        rw [postOp_eq]
        simp [observers, chain, tierPreOp, tierPostOp]
      refine transact_congr afterSorted sorted vectors_eq (by rw [preOp_eq])
        (congrArg (List.flatMap ModuleTierNode.modules) modules_eq) fun value state => ?_
      rw [observerLoop_eq _ _ afterSorted.observers.2, observerLoop_eq _ _ sorted.observers.2,
        observers_eq,
        notifyAll_insertModule (harmless_of_safe (unseen.safe_postOp tier_eq value))]
  | ordinary isOrdinary insertion preOp_eq postOp_eq =>
      have firsts_eq := (watching_abstracts others call.module watchpoints).firsts_eq
      obtain ⟨bus_eq, after_eq⟩ := flatMap_of_insertion insertion sorted.tiers
        fun first first_mem below => keeps ⟨isOrdinary, first, first_mem, below⟩
      have ordinary_eq : bus.ordinary =
          bus.ahead (firsts (muting others call.module watchpoints)) call ++
            bus.behind (firsts (muting others call.module watchpoints)) call := bus_eq
      have afterOrdinary_eq : after.ordinary =
          bus.ahead (firsts (muting others call.module watchpoints)) call ++
            call.module :: bus.behind (firsts (muting others call.module watchpoints)) call :=
        after_eq
      have postOp : ∀ value state,
          observerLoop (muting others call.module watchpoints) given.operation given.addr
              (some value) (observers after.postOp) state =
            observerLoop (muting others call.module watchpoints) given.operation given.addr
              (some value) (observers bus.postOp) state := fun _ _ => by rw [postOp_eq]
      rw [transact_eq sorted, transact_eq afterSorted, preOp_eq, ordinary_eq, afterOrdinary_eq]
      cases notified : notifyAll (muting others call.module watchpoints) given.operation given.addr
        given.operation.preOp (observers bus.preOp) state.1 with
      | error => rfl
      | ok before =>
          dsimp only
          rw [passOn_append, passOn_append]
          cases passed : passOn (muting others call.module watchpoints) given.operation given.addr
            (bus.ahead (firsts (muting others call.module watchpoints)) call)
            given.operation.initial before with
          | error => rfl
          | ok outcome =>
              obtain ⟨_ | _ | _, left, reached⟩ := outcome
              · exact conclude_congr vectors_eq rfl rfl (.inl rfl) postOp
              · exact conclude_congr vectors_eq rfl rfl (.inl rfl) postOp
              · dsimp only
                refine passOn_unseen vectors_eq postOp fun includes => ?_
                have unseen := unseen includes
                rw [if_neg isOrdinary.1, if_neg isOrdinary.2, firsts_eq] at unseen
                exact unseen (passes_of_muting notified passed)

/-! ## Runs -/

/-- The vector words and the other devices. -/
def revealed (current : Except δ (Bus δ × σ × ω)) : Except δ ((Word × Word × Word) × σ) :=
  current.map fun (bus, state) => (bus.vectors, state.1)

/-- Transactions return the same values on two buses, leave the same vector words and the same
other devices, and end at the same module if at all. -/
def Unchanged (modules : δ → MembusModule (σ × ω)) (bus after : Bus δ) (state : σ × ω)
    (given : List Transaction) : Prop :=
  (transacting modules).trace (.ok (after, state)) given =
      (transacting modules).trace (.ok (bus, state)) given ∧
    revealed ((transacting modules).run (.ok (after, state)) given) =
      revealed ((transacting modules).run (.ok (bus, state)) given)

variable (others watcher watchpoints) in
/-- No transaction of a run is disturbed by the module. -/
def StaysUnseen (call : Registration δ) (current : Except δ (Bus δ × σ × ω))
    (given : Transaction) : Prop :=
  ∀ bus state, current = .ok (bus, state) →
    Unseen others watcher watchpoints call bus given state

/-- What an undisturbed transaction shows of both buses. -/
theorem transact_visible {bus after : Bus δ} {call : Registration δ}
    (own : call.module = watcher)
    (takes : Takes (firsts (watching others watcher watchpoints)) bus call after)
    (sorted : bus.Sorted (firsts (watching others watcher watchpoints)))
    (keeps : ¬ bus.Drops call) (vectors_eq : after.vectors = bus.vectors) {given : Transaction}
    {state stateAfter : σ × ω} (state_eq : stateAfter.1 = state.1)
    (unseen : Unseen others watcher watchpoints call bus given state) :
    (after.transact (watching others watcher watchpoints) given.operation given.addr
        stateAfter).map (visible ∘ Prod.map id (Prod.map id Prod.fst)) =
      (bus.transact (watching others watcher watchpoints) given.operation given.addr
        state).map (visible ∘ Prod.map id (Prod.map id Prod.fst)) := by
  have abstracts := watching_abstracts others watcher watchpoints
  have shown := transact_unseen own (abstracts.firsts_eq ▸ takes) (abstracts.firsts_eq ▸ sorted)
    keeps vectors_eq unseen
  have map_map : ∀ outcome : Except δ (Byte × Bus δ × σ × ω),
      outcome.map (visible ∘ Prod.map id (Prod.map id Prod.fst)) =
        (outcome.map (Prod.map id (Prod.map id Prod.fst))).map visible := by
    intro outcome
    cases outcome <;> rfl
  rw [map_map, map_map, abstracts.transact sorted, abstracts.transact (takes.sorted sorted),
    state_eq]
  exact shown

theorem unchanged_run {bus after : Bus δ} {call : Registration δ} (own : call.module = watcher)
    (takes : Takes (firsts (watching others watcher watchpoints)) bus call after)
    (sorted : bus.Sorted (firsts (watching others watcher watchpoints)))
    (keeps : ¬ bus.Drops call) (vectors_eq : after.vectors = bus.vectors)
    {state stateAfter : σ × ω} (state_eq : stateAfter.1 = state.1) (given : List Transaction)
    (unseen : (transacting (watching others watcher watchpoints)).Meets
      (StaysUnseen others watcher watchpoints call) (.ok (bus, state)) given) :
    (transacting (watching others watcher watchpoints)).trace (.ok (after, stateAfter)) given =
        (transacting (watching others watcher watchpoints)).trace (.ok (bus, state)) given ∧
      revealed ((transacting (watching others watcher watchpoints)).run (.ok (after, stateAfter))
          given) =
        revealed ((transacting (watching others watcher watchpoints)).run (.ok (bus, state))
          given) := by
  induction given generalizing bus after state stateAfter with
  | nil =>
      refine ⟨rfl, congrArg Except.ok ?_⟩
      exact Prod.ext vectors_eq state_eq
  | cons first rest ih =>
      have shown := transact_visible own takes sorted keeps vectors_eq state_eq
        (unseen.1 bus state rfl)
      have further := unseen.2
      simp only [Machine.trace, Machine.run_cons]
      rw [transacting_ok] at further ⊢
      rw [transacting_ok]
      cases done : bus.transact (watching others watcher watchpoints) first.operation first.addr
          state with
      | error silent =>
          rw [done] at shown
          cases afterDone : after.transact (watching others watcher watchpoints) first.operation
              first.addr stateAfter with
          | error silentAfter =>
              rw [afterDone] at shown
              obtain rfl : silentAfter = silent := Except.error.inj shown
              exact ⟨rfl, rfl⟩
          | ok outcome =>
              rw [afterDone] at shown
              cases shown
      | ok outcome =>
          rw [done] at shown further
          cases afterDone : after.transact (watching others watcher watchpoints) first.operation
              first.addr stateAfter with
          | error silentAfter =>
              rw [afterDone] at shown
              cases shown
          | ok afterOutcome =>
              rw [afterDone] at shown
              obtain ⟨value, nextBus, next⟩ := outcome
              obtain ⟨valueAfter, nextAfter, nextState⟩ := afterOutcome
              have shown_eq := Except.ok.inj shown
              obtain rfl : valueAfter = value := congrArg Prod.fst shown_eq
              have layout_eq := layout_of_transact done
              have nextTakes := takes.of_layout layout_eq (layout_of_transact afterDone)
              have nextKeeps : ¬ nextBus.Drops call := by
                have modules_eq : nextBus.modules = bus.modules :=
                  congrArg (fun layout => layout.2.1) layout_eq
                unfold Drops
                rw [modules_eq]
                exact keeps
              obtain ⟨traces, reveals⟩ := ih nextTakes (sorted.of_layout layout_eq) nextKeeps
                (congrArg (fun shown => shown.2.1) shown_eq)
                (congrArg (fun shown => shown.2.2) shown_eq) further
              dsimp only
              exact ⟨congrArg _ traces, reveals⟩

theorem vectors_registerModule (addrLo : δ → Word) (bus : Bus δ) (call : Registration δ) :
    (bus.registerModule addrLo call).2.vectors = bus.vectors := by
  unfold registerModule
  dsimp only
  repeat' split
  all_goals rfl

/-- A watchpoints module changes nothing on a bus on which it disturbs no transaction, unless its
registration drops the other tiers. -/
theorem unchanged_of_staysUnseen (others : δ → MembusModule σ) (watcher : δ)
    (watchpoints : MembusModuleWatchpoints ρ γ ω) {bus : Bus δ}
    (configured : Configured (watching others watcher watchpoints) bus) (tier : Int)
    (allocations : Allocations)
    (accepted : (bus.registerModule (firsts (watching others watcher watchpoints))
      { tier, module := watcher, allocations }).1 = true)
    (keeps : ¬ bus.Drops { tier, module := watcher, allocations }) (state : σ × ω)
    (given : List Transaction)
    (unseen : (transacting (watching others watcher watchpoints)).Meets
      (StaysUnseen others watcher watchpoints { tier, module := watcher, allocations })
      (.ok (bus, state)) given) :
    Unchanged (watching others watcher watchpoints) bus
      (bus.registerModule (firsts (watching others watcher watchpoints))
        { tier, module := watcher, allocations }).2 state given := by
  exact unchanged_run rfl (takes_of_registerModule accepted) configured.sorted keeps
    (vectors_registerModule _ _ _) rfl given unseen

/-- A module with one byte of memory at `$0200`. -/
def cell : MembusModule Byte where
  addrRange := { addrLo := 0x0200, addrLen := 1 }
  readCallback := some fun _ value byte => value.map fun _ => (.accepted, byte, byte)
  writeCallback := some fun _ value _ => some (.accepted, value)

/-- A watchpoints module on all addresses that counts the accesses. -/
def counting : MembusModuleWatchpoints Unit Unit Nat where
  addrRange := { addrLo := 0x0000, addrLen := 0xFFFF }
  mode := 0
  generics :=
    [{ onEvents := Watchpoint.eventAll
       callbackFn := (fun _ _ _ _ count => count + 1)
       context := () }]
  addressRanges := []
  addresses := .empty fun _ =>
    .alloc { onEvents := 0, callbackFn := (fun _ _ _ _ count => count), context := () } 0 none

/-- A bus with the cell in tier 1. -/
def cellBus : Bus Bool :=
  ((Bus.alloc MembusCache.blank fun _ => 0).registerModule
    (firsts (watching (fun _ => cell) false counting))
    { tier := 1, module := true, allocations := { node := true, tier := true } }).2

/-- The counter in the post-op tier. -/
theorem unchanged_postOp :
    Unchanged (watching (fun _ => cell) false counting) cellBus
      (cellBus.registerModule (firsts (watching (fun _ => cell) false counting))
        { tier := tierPostOp, module := false, allocations := { node := true, tier := true } }).2
      (0x42, 0) [⟨.read, 0x0200⟩, ⟨.write 0x43, 0x0200⟩, ⟨.read, 0x0200⟩] := by
  refine unchanged_of_staysUnseen (fun _ => cell) false counting (.register _ (.alloc _ _))
    tierPostOp { node := true, tier := true } (by decide) (fun drops => drops.1.2 rfl) (0x42, 0)
    _ ?_
  refine Machine.meets_of_forall _ (fun current given bus state _ _ => ?_) _ _
  rw [if_neg (by decide), if_pos rfl]
  exact fun _ => rfl

/-- The counter in the tier of the cell answers in its place, and in the pre-op tier it
dereferences a null pointer. -/
theorem not_unchanged_ordinary :
    ¬ Unchanged (watching (fun _ => cell) false counting) cellBus
        (cellBus.registerModule (firsts (watching (fun _ => cell) false counting))
          { tier := 1, module := false, allocations := { node := true, tier := true } }).2
        (0x42, 0) [⟨.read, 0x0200⟩] ∧
      ¬ Unchanged (watching (fun _ => cell) false counting) cellBus
        (cellBus.registerModule (firsts (watching (fun _ => cell) false counting))
          { tier := tierPreOp, module := false, allocations := { node := true, tier := true } }).2
        (0x42, 0) [⟨.read, 0x0200⟩] := by
  constructor
  · intro unchanged
    have values_eq := unchanged.1
    revert values_eq
    decide
  · intro unchanged
    have values_eq := unchanged.1
    revert values_eq
    decide

end Bus
end System6502
