import System6502.Membus.Composition
import System6502.Membus.Watching

/-!
# Images behind a bus

std64k modules in the post-op tier of a bus, with any other modules as overlays in front of them.
Each of them shadows the writes to the bus, and none of them changes what the bus answers.
-/

namespace System6502

namespace Bus

variable {α β τ : Type*}

/-- The std64k modules behind a bus. -/
abbrev Images (β : Type*) := β → MembusModuleStd64k

/-- The modules of a bus with images; the callbacks of an overlay do not touch the images. -/
def imaged [DecidableEq β] (overlays : α → MembusModule τ) : α ⊕ β → MembusModule (τ × Images β)
  | .inl overlay => (overlays overlay).within Prod.fst fun after state => (after, state.2)
  | .inr image => MembusModuleStd64k.module.within (fun state => state.2 image)
      fun after state => (state.1, Function.update state.2 image after)

/-- A bus with overlays in its pre-op and ordinary tiers and with images in its post-op tier. -/
structure Overlaid (bus : Bus (α ⊕ β)) : Prop where
  /-- The pre-op tier. -/
  preOp : ∀ module ∈ observers bus.preOp, module.isLeft = true
  /-- The ordinary tiers. -/
  ordinary : ∀ module ∈ bus.ordinary, module.isLeft = true
  /-- The post-op tier. -/
  postOp : ∀ module ∈ observers bus.postOp, module.isRight = true

/-- The bus with another post-op tier. -/
def withPostOp {δ : Type*} (bus : Bus δ) (postOp : Option (ModuleTierNode δ)) : Bus δ :=
  { bus with postOp }

/-- The bus without its post-op tier. -/
def withoutPostOp {δ : Type*} (bus : Bus δ) : Bus δ := bus.withPostOp none

/-- An image after a transaction of a bus that lists it. -/
def recorded (addr : Word) (image : MembusModuleStd64k) : Operation → MembusModuleStd64k
  | .read => image
  | .write value =>
      if MembusModuleStd64k.addrRange.doesInclude addr then
        { bytes := Function.update image.bytes addr value }
      else image

/-- The images after a transaction of a bus with a list of them in its post-op tier. -/
def recordedAll [DecidableEq β] (operation : Operation) (addr : Word) (listed : List (α ⊕ β))
    (images : Images β) (image : β) : MembusModuleStd64k :=
  if image ∈ listed.filterMap Sum.getRight? then recorded addr (images image) operation
  else images image

/-! ## Overlays -/

section Overlays

variable [DecidableEq β] {overlays : α → MembusModule τ} {operation : Operation} {addr : Word}
  {device : τ} {images others : Images β}

/-- The devices with other images behind them. -/
def before (images : Images β) (state : τ × Images β) : τ × Images β := (state.1, images)

/-- The local variables with other images behind the devices. -/
def routeBefore (images : Images β) (route : Route (τ × Images β)) : Route (τ × Images β) :=
  { route with state := before images route.state }

omit [DecidableEq β] in
@[simp]
theorem isLooping_routeBefore (route : Route (τ × Images β)) :
    (routeBefore images route).isLooping = route.isLooping := rfl

omit [DecidableEq β] in
@[simp]
theorem isDone_routeBefore (route : Route (τ × Images β)) :
    (routeBefore images route).isDone = route.isDone := rfl

theorem handler_overlay (overlay : α) :
    (imaged overlays (.inl overlay : α ⊕ β)).handler operation addr =
      ((overlays overlay).handler operation addr).map fun handler argument state =>
        (handler argument state.1).map fun (result, left, after) =>
          (result, left, after, state.2) :=
  handler_within _ _ _ _ _

/-- A loop over observers that are overlays does the same before other images. -/
theorem observerLoop_before (argument : Option Byte) {list : List (α ⊕ β)}
    (overlaid : ∀ module ∈ list, module.isLeft = true) (state : τ × Images β) :
    observerLoop (imaged overlays) operation addr argument list (before images state) =
      (observerLoop (imaged overlays) operation addr argument list state).map (before images) := by
  induction list generalizing state with
  | nil => rfl
  | cons module rest ih =>
      rw [List.forall_mem_cons] at overlaid
      obtain ⟨overlay, rfl⟩ := Sum.isLeft_iff.mp overlaid.1
      have further := ih overlaid.2
      simp only [observerLoop]
      split
      · rw [handler_overlay]
        cases (overlays overlay).handler operation addr with
        | none => exact further state
        | some handler =>
            simp only [Option.map_some, before]
            rcases handler argument state.1 with _ | ⟨_, _, after⟩
            · rfl
            · exact further (after, state.2)
      · rfl

/-- A loop over overlays does the same before other images. -/
theorem moduleLoop_before {list : List (α ⊕ β)}
    (overlaid : ∀ module ∈ list, module.isLeft = true) (route : Route (τ × Images β)) :
    moduleLoop (imaged overlays) operation addr list (routeBefore images route) =
      (moduleLoop (imaged overlays) operation addr list route).map (routeBefore images) := by
  induction list generalizing route with
  | nil => rfl
  | cons module rest ih =>
      rw [List.forall_mem_cons] at overlaid
      obtain ⟨overlay, rfl⟩ := Sum.isLeft_iff.mp overlaid.1
      have further := ih overlaid.2
      rw [moduleLoop, moduleLoop, isLooping_routeBefore, isDone_routeBefore]
      split
      · rw [handler_overlay]
        cases (overlays overlay).handler operation addr with
        | none => exact further route
        | some handler =>
            simp only [Option.map_some, routeBefore, before]
            rcases handler (some route.value) route.state.1 with _ | ⟨result, left, after⟩
            · rfl
            · exact further
                { value := left
                  isDone := result = .accepted
                  isLooping := result ≠ .notAccepted
                  state := (after, route.state.2) }
      · rfl

/-- Tiers of overlays do the same before other images. -/
theorem tierLoop_before {tiers : List (ModuleTierNode (α ⊕ β))}
    (overlaid : ∀ module ∈ tiers.flatMap ModuleTierNode.modules, module.isLeft = true)
    (route : Route (τ × Images β)) :
    tierLoop (imaged overlays) operation addr tiers (routeBefore images route) =
      (tierLoop (imaged overlays) operation addr tiers route).map (routeBefore images) := by
  induction tiers generalizing route with
  | nil => rfl
  | cons tier rest ih =>
      rw [List.flatMap_cons, List.forall_mem_append] at overlaid
      have further := ih overlaid.2
      rw [tierLoop, tierLoop, isLooping_routeBefore, isDone_routeBefore]
      split
      · rw [moduleLoop_before overlaid.1]
        cases moduleLoop (imaged overlays) operation addr tier.modules route with
        | error => rfl
        | ok after => exact further after
      · rfl

end Overlays

/-! ## Images -/

section Images

variable [DecidableEq β] {overlays : α → MembusModule τ} {operation : Operation} {addr : Word}

theorem handler_image (image : β) :
    (imaged overlays (.inr image : α ⊕ β)).handler operation addr =
      (MembusModuleStd64k.module.handler operation addr).map fun handler argument state =>
        (handler argument (state.2 image)).map fun (result, left, after) =>
          (result, left, state.1, Function.update state.2 image after) :=
  handler_within _ _ _ _ _

theorem recorded_recorded (image : MembusModuleStd64k) :
    recorded addr (recorded addr image operation) operation = recorded addr image operation := by
  cases operation with
  | read => rfl
  | write value =>
      by_cases includes : MembusModuleStd64k.addrRange.doesInclude addr = true
      · simp only [recorded, if_pos includes, Function.update_idem]
      · simp only [recorded, if_neg includes]

theorem recordedAll_nil (images : Images β) :
    recordedAll operation addr ([] : List (α ⊕ β)) images = images := by
  funext image
  exact if_neg (by simp)

theorem recordedAll_cons (image : β) (rest : List (α ⊕ β)) (images : Images β) :
    recordedAll operation addr (.inr image :: rest) images =
      recordedAll operation addr rest
        (Function.update images image (recorded addr (images image) operation)) := by
  funext other
  have cons_eq : (Sum.inr image :: rest).filterMap Sum.getRight? =
      image :: rest.filterMap Sum.getRight? := rfl
  rw [recordedAll, recordedAll, cons_eq]
  rcases eq_or_ne other image with rfl | other_ne
  · rw [if_pos List.mem_cons_self, Function.update_self, recorded_recorded, ite_self]
  · simp only [List.mem_cons, other_ne, false_or, Function.update_of_ne other_ne]

/-- An image records a transaction with its byte and answers. -/
theorem handler_std64k (image : MembusModuleStd64k)
    (includes : MembusModuleStd64k.addrRange.doesInclude addr = true) :
    ∃ handler, MembusModuleStd64k.module.handler operation addr = some handler ∧
      ∀ value, (operation = .write value ∨ operation = .read) →
        ∃ left, handler (some value) image =
          some (.accepted, left, recorded addr image operation) := by
  cases operation with
  | read => exact ⟨_, if_pos includes, fun value _ => ⟨_, rfl⟩⟩
  | write written =>
      refine ⟨_, if_pos includes, fun value same => ⟨value, ?_⟩⟩
      obtain rfl : written = value := by simpa using same
      simp only [recorded, if_pos includes]
      rfl

/-- The post-op tier records a transaction in every image that it lists. -/
theorem observerLoop_images {list : List (α ⊕ β)}
    (imaging : ∀ module ∈ list, module.isRight = true) {value : Byte}
    (passed : operation = .write value ∨ operation = .read) (state : τ × Images β) :
    observerLoop (imaged overlays) operation addr (some value) list state =
      .ok (state.1, recordedAll operation addr list state.2) := by
  induction list generalizing state with
  | nil => rw [recordedAll_nil, observerLoop]
  | cons module rest ih =>
      rw [List.forall_mem_cons] at imaging
      obtain ⟨image, rfl⟩ := Sum.isRight_iff.mp imaging.1
      have further := ih imaging.2
      have reached : (imaged overlays (.inr image : α ⊕ β)).addrRange.addrLo ≤ addr :=
        BitVec.le_def.mpr (Nat.zero_le addr.toNat)
      rw [observerLoop, if_pos reached, handler_image, recordedAll_cons]
      by_cases includes : MembusModuleStd64k.addrRange.doesInclude addr = true
      · obtain ⟨handler, handler_eq, answers⟩ := handler_std64k (state.2 image) includes
        obtain ⟨left, answer⟩ := answers value passed
        simp only [handler_eq, Option.map_some, answer]
        exact further _
      · have unchanged : recorded addr (state.2 image) operation = state.2 image := by
          cases operation with
          | read => rfl
          | write => exact if_neg includes
        have silent : MembusModuleStd64k.module.handler operation addr = none := if_neg includes
        rw [silent, unchanged, Function.update_eq_self]
        exact further state

end Images

/-! ## Transactions -/

section Transactions

variable [DecidableEq β] {overlays : α → MembusModule τ} {operation : Operation} {addr : Word}
  {bus : Bus (α ⊕ β)}

theorem served_withPostOp {δ σ : Type*} (bus : Bus δ) (postOp : Option (ModuleTierNode δ))
    (route : Route σ) :
    (bus.withPostOp postOp).served operation addr route =
      (bus.served operation addr route).map fun answer =>
        (answer.1, answer.2.withPostOp postOp) := by
  unfold served
  split
  case isTrue => rfl
  case isFalse =>
    cases operation with
    | read =>
        rw [vector, vector, Option.map_map]
        rfl
    | write value =>
        rw [vector, vector, Option.map_map]
        unfold setVectorByte
        repeat' split
        all_goals rfl

/-- The outcome of a transaction before other images, with a post-op tier that records it. -/
def shadowed (operation : Operation) (addr : Word) (postOp : Option (ModuleTierNode (α ⊕ β)))
    (images : Images β) (outcome : Byte × Bus (α ⊕ β) × (τ × Images β)) :
    Byte × Bus (α ⊕ β) × (τ × Images β) :=
  (outcome.1, outcome.2.1.withPostOp postOp,
    before (recordedAll operation addr (observers postOp) images) outcome.2.2)

theorem conclude_imaged (overlaid : bus.Overlaid) (images : Images β)
    {route : Route (τ × Images β)} (kept : ∀ value, operation = .write value →
      route.value = value) :
    bus.conclude (imaged overlays) operation addr (routeBefore images route) =
      (bus.withoutPostOp.conclude (imaged overlays) operation addr route).map
        (shadowed operation addr bus.postOp images) := by
  have served_eq : bus.served operation addr (routeBefore images route) =
      (bus.withoutPostOp.served operation addr route).map fun answer =>
        (answer.1, answer.2.withPostOp bus.postOp) :=
    served_withPostOp bus.withoutPostOp bus.postOp route
  have passed : operation =
      .write ((bus.withoutPostOp.served operation addr route).getD
        (route.value, bus.withoutPostOp)).1 ∨ operation = .read := by
    cases operation with
    | read => exact .inr rfl
    | write value =>
        exact .inl (congrArg Operation.write (value_of_served (kept value rfl)).symm)
  have disable_eq : bus.withoutPostOp.cacheDisable = bus.cacheDisable := rfl
  unfold conclude
  rw [served_eq, disable_eq]
  cases answered : bus.withoutPostOp.served operation addr route with
  | none =>
      simp only [answered, Option.getD_none] at passed
      dsimp only [Option.map_none, Option.getD_none]
      rw [show (routeBefore images route).value = route.value from rfl,
        observerLoop_images overlaid.postOp passed]
      rfl
  | some answer =>
      simp only [answered, Option.getD_some] at passed
      dsimp only [Option.map_some, Option.getD_some]
      rw [observerLoop_images overlaid.postOp passed]
      cases bus.cacheDisable <;> rfl

/-- A transaction on a bus with images is the one without the post-op tier, and the images record
it. -/
theorem transact_imaged (overlaid : bus.Overlaid) (images : Images β) (state : τ × Images β) :
    bus.transact (imaged overlays) operation addr (before images state) =
      (bus.withoutPostOp.transact (imaged overlays) operation addr state).map
        (shadowed operation addr bus.postOp images) := by
  have preOp_eq : bus.withoutPostOp.preOp = bus.preOp := rfl
  have modules_eq : bus.withoutPostOp.modules = bus.modules := rfl
  unfold transact
  rw [preOp_eq, modules_eq, observerLoop_before operation.preOp overlaid.preOp]
  cases observerLoop (imaged overlays) operation addr operation.preOp (observers bus.preOp)
    state with
  | error => rfl
  | ok called =>
      let route : Route (τ × Images β) :=
        { value := operation.initial, isDone := false, isLooping := true, state := called }
      have tiers_eq : tierLoop (imaged overlays) operation addr bus.modules
          { route with state := before images called } =
            (tierLoop (imaged overlays) operation addr bus.modules route).map
              (routeBefore images) :=
        tierLoop_before overlaid.ordinary route
      dsimp only [Except.map]
      rw [tiers_eq]
      cases passing : tierLoop (imaged overlays) operation addr bus.modules route with
      | error => rfl
      | ok last =>
          refine conclude_imaged overlaid images fun value write_eq => ?_
          subst write_eq
          exact value_of_tierLoop passing

end Transactions

/-! ## Runs -/

section Runs

variable [DecidableEq β] {overlays : α → MembusModule τ} {bus : Bus (α ⊕ β)}

/-- A bus without its post-op tier, and the devices of its overlays. -/
def withoutImages (current : Bus (α ⊕ β) × (τ × Images β)) : Bus (α ⊕ β) × τ :=
  (current.1.withoutPostOp, current.2.1)

variable (overlays) in
/-- What is true of some transactions on a bus with images. -/
structure Shadows (bus : Bus (α ⊕ β)) (state other : τ × Images β)
    (given : List Transaction) : Prop where
  /-- Every read returns what it returns on the bus without the post-op tier. -/
  trace_eq : (transacting (imaged overlays)).trace (.ok (bus, state)) given =
    (transacting (imaged overlays)).trace (.ok (bus.withoutPostOp, other)) given
  /-- The run leaves the bus and its overlays as it does without the post-op tier. -/
  run_eq : ((transacting (imaged overlays)).run (.ok (bus, state)) given).map withoutImages =
    ((transacting (imaged overlays)).run (.ok (bus.withoutPostOp, other)) given).map withoutImages
  /-- An image holds the bytes that were last written to its addresses. -/
  bytes_eq : ∀ after last, (transacting (imaged overlays)).run (.ok (bus, state)) given =
    .ok (after, last) → ∀ image, .inr image ∈ observers bus.postOp → ∀ addr,
      MembusModuleStd64k.addrRange.doesInclude addr = true →
        (last.2 image).bytes addr = (lastWritten addr given).getD ((state.2 image).bytes addr)

omit [DecidableEq β] in
theorem Overlaid.of_layout (overlaid : bus.Overlaid) {after : Bus (α ⊕ β)}
    (layout_eq : after.layout = bus.layout) : after.Overlaid := by
  simp only [layout, Prod.mk.injEq] at layout_eq
  obtain ⟨preOp_eq, modules_eq, postOp_eq⟩ := layout_eq
  refine ⟨?_, ?_, ?_⟩
  · rw [preOp_eq]
    exact overlaid.preOp
  · unfold Bus.ordinary
    rw [modules_eq]
    exact overlaid.ordinary
  · rw [postOp_eq]
    exact overlaid.postOp

/-- A listed image has the byte of a transaction at its address, and its other bytes. -/
theorem recordedAll_bytes {listed : List (α ⊕ β)} {images : Images β} {image : β} {addr : Word}
    (image_mem : .inr image ∈ listed) (given : Transaction)
    (includes : MembusModuleStd64k.addrRange.doesInclude addr = true) :
    (recordedAll given.operation given.addr listed images image).bytes addr =
      (lastWritten addr [given]).getD ((images image).bytes addr) := by
  have listed_mem : image ∈ listed.filterMap Sum.getRight? :=
    List.mem_filterMap.mpr ⟨.inr image, image_mem, rfl⟩
  obtain ⟨operation, place⟩ := given
  rw [recordedAll, if_pos listed_mem]
  cases operation with
  | read => rfl
  | write value =>
      rcases eq_or_ne addr place with rfl | elsewhere
      · simp [recorded, lastWritten, includes]
      · simp only [recorded]
        split
        · simp [lastWritten, elsewhere]
        · simp [lastWritten, elsewhere]

variable (overlays) in
/-- One transaction does with images what it does without the post-op tier. -/
theorem step_imaged (overlaid : bus.Overlaid) (state other : τ × Images β)
    (device_eq : state.1 = other.1) (given : Transaction) :
    (∃ silent, bus.transact (imaged overlays) given.operation given.addr state = .error silent ∧
      bus.withoutPostOp.transact (imaged overlays) given.operation given.addr other =
        .error silent) ∨
    ∃ value after last otherLast,
      bus.transact (imaged overlays) given.operation given.addr state = .ok (value, after, last) ∧
      bus.withoutPostOp.transact (imaged overlays) given.operation given.addr other =
        .ok (value, after.withoutPostOp, otherLast) ∧
      after.layout = bus.layout ∧ last.1 = otherLast.1 ∧
      last.2 = recordedAll given.operation given.addr (observers bus.postOp) state.2 := by
  have state_eq : state = before state.2 other := Prod.ext device_eq rfl
  have transact_eq : bus.transact (imaged overlays) given.operation given.addr state = _ :=
    (congrArg _ state_eq).trans (transact_imaged overlaid state.2 other)
  cases alone : bus.withoutPostOp.transact (imaged overlays) given.operation given.addr other with
  | error silent =>
      rw [alone] at transact_eq
      exact .inl ⟨silent, transact_eq, rfl⟩
  | ok outcome =>
      obtain ⟨value, after, otherLast⟩ := outcome
      rw [alone] at transact_eq
      have postOp_eq : after.postOp = none :=
        congrArg (fun layout => layout.2.2) (layout_of_transact alone)
      have after_eq : (after.withPostOp bus.postOp).withoutPostOp = after := by
        rw [withoutPostOp, withPostOp, withPostOp, ← postOp_eq]
      refine .inr ⟨value, after.withPostOp bus.postOp, _, otherLast, transact_eq, ?_,
        layout_of_transact transact_eq, rfl, rfl⟩
      rw [after_eq]

variable (overlays) in
/-- Images shadow the writes of a run from a state with the same overlay devices. -/
theorem shadows_of_overlaid (overlaid : bus.Overlaid) (state other : τ × Images β)
    (device_eq : state.1 = other.1) (given : List Transaction) :
    Shadows overlays bus state other given := by
  induction given generalizing bus state other with
  | nil =>
      refine ⟨rfl, ?_, ?_⟩
      · simp [Except.map, withoutImages, device_eq, withoutPostOp, withPostOp]
      · rintro after last ran image - addr -
        cases Except.ok.inj ran
        rfl
  | cons first rest ih =>
      rcases step_imaged overlays overlaid state other device_eq first with
        ⟨silent, failed, alone⟩ | ⟨value, after, last, otherLast, done, alone, kept⟩
      · have ended := transacting_error (imaged overlays) silent rest
        refine ⟨?_, ?_, ?_⟩
        · simp only [Lib.Machine.trace, transacting_ok, failed, alone]
        · simp only [Lib.Machine.run_cons, transacting_ok, failed, alone]
        · intro final finalState ran
          rw [Lib.Machine.run_cons, transacting_ok, failed, ended.1] at ran
          cases ran
      · obtain ⟨layout_eq, last_eq, recorded_eq⟩ := kept
        have later := ih (overlaid.of_layout layout_eq) last otherLast last_eq
        refine ⟨?_, ?_, ?_⟩
        · simp only [Lib.Machine.trace, transacting_ok, done, alone, later.trace_eq]
        · simp only [Lib.Machine.run_cons, transacting_ok, done, alone, later.run_eq]
        · intro final finalState ran image image_mem addr includes
          rw [Lib.Machine.run_cons, transacting_ok, done] at ran
          have postOp_eq : after.postOp = bus.postOp :=
            congrArg (fun layout => layout.2.2) layout_eq
          rw [later.bytes_eq final finalState ran image (postOp_eq ▸ image_mem) addr includes,
            recorded_eq, recordedAll_bytes image_mem first includes, ← lastWritten_cons]

variable (overlays) in
/-- On a bus with any overlays in its pre-op and ordinary tiers, std64k modules in the post-op tier
that are registered nowhere else hold the bytes that were last written to the bus, whichever overlay
accepted or refused them, and every read returns what it returns without the post-op tier. -/
theorem postOp_shadows (overlaid : bus.Overlaid) (state : τ × Images β)
    (given : List Transaction) : Shadows overlays bus state state given :=
  shadows_of_overlaid overlays overlaid state state rfl given

/-- A read-only byte that refuses writes, at `$0200`. -/
def rom : MembusModule Byte where
  addrRange := MembusModuleByte.addrRange 0x0200
  readCallback := some fun _ value state => value.map fun _ => (.accepted, state, state)
  writeCallback := some fun _ _ state => some (.notAccepted, state)

/-- The byte in tier 0 with an image in the post-op tier. -/
def romImage : Bus (Unit ⊕ Unit) :=
  [(0, .inl ()), (tierPostOp, .inr ())].foldl
    (fun bus (tier, module) => (bus.registerModule (firsts (imaged fun _ => rom))
      { tier, module, allocations := { node := true, tier := true } }).2)
    (alloc MembusCache.blank fun _ => 0)

/-- The image holds a byte that the overlay refused. -/
theorem postOp_shadows_rom :
    Shadows (fun _ => rom) romImage (0xEA, fun _ => { bytes := fun _ => 0 })
      (0xEA, fun _ => { bytes := fun _ => 0 }) [⟨.write 0x12, 0x0200⟩, ⟨.read, 0x0200⟩] :=
  postOp_shadows (fun _ => rom)
    { preOp := by decide
      ordinary := by decide
      postOp := by decide } _ _

end Runs

end Bus
end System6502
