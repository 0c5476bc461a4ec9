import System6502.Executor.Interrupts
import System6502.Executor.Transfers

/-!
# The cache switch of the bus

A transfer turns the cache of the bus off and gives the switch back when it ends.  A launch that
returns gives it back unless it returns in the middle of a transfer.
-/

namespace System6502

open Lib

variable {μ : Type*}

namespace Run

/-! ## The saved switch -/

/-- The loop holds the value the switch had on entry. -/
def Saves (entry : Bool) (run : Run μ) : Prop :=
  run.loop.savedCacheState = entry ∧
    run.executor.cacheDisable = if run.loop.isInDMA then true else entry

/-- Outside a transfer the switch is as it was on entry; inside one it is on, and the loop holds
the value it had. -/
def KeepsCache (entry : Bool) (run : Run μ) : Prop :=
  if run.loop.isInDMA then run.Saves entry else run.executor.cacheDisable = entry

theorem KeepsCache.congr {entry : Bool} {run other : Run μ} (keeps : run.KeepsCache entry)
    (same : other.transfer = run.transfer) : other.KeepsCache entry := by
  have active_eq : other.loop.isInDMA = run.loop.isInDMA := congrArg Transfer.active same
  have cache_eq : other.executor.cacheDisable = run.executor.cacheDisable :=
    congrArg Transfer.cacheDisable same
  have saved_eq : other.loop.savedCacheState = run.loop.savedCacheState :=
    congrArg Transfer.savedCacheState same
  unfold KeepsCache Saves at keeps ⊢
  rw [active_eq, cache_eq, saved_eq]
  exact keeps

theorem Saves.keepsCache {entry : Bool} {run : Run μ} (saves : run.Saves entry) :
    run.KeepsCache entry := by
  unfold KeepsCache
  split
  · exact saves
  · rename_i idle
    exact saves.2.trans (if_neg idle)

theorem Saves.endDMA {entry : Bool} {run : Run μ} (saves : run.Saves entry) :
    run.endDMA.Saves entry :=
  ⟨saves.1, saves.1⟩

theorem Saves.endDMAAtRangeEnd {entry : Bool} {run : Run μ} (saves : run.Saves entry) :
    run.endDMAAtRangeEnd.Saves entry := by
  unfold Run.endDMAAtRangeEnd
  split
  · exact saves.endDMA
  · exact saves

theorem KeepsCache.beginDMA {entry : Bool} {run : Run μ} (keeps : run.KeepsCache entry)
    (idle : run.loop.isInDMA = false) : run.beginDMA.Saves entry := by
  unfold KeepsCache at keeps
  rw [idle] at keeps
  exact ⟨keeps, rfl⟩

theorem requests_cacheDisable (executor : Executor μ) (pending : List Request) :
    (executor.requests pending).cacheDisable = executor.cacheDisable := by
  refine Executor.requests_view Executor.cacheDisable (fun executor request => ?_) executor pending
  cases request with
  | setIRQ | setNMI | setExecStop => rfl
  | setDMACopyin | setDMACopyout =>
      unfold Executor.request
      dsimp only
      split <;> rfl

theorem KeepsCache.admitRequests {entry : Bool} {run : Run μ} (keeps : run.KeepsCache entry)
    (input : Input) : (run.admitRequests input).KeepsCache entry := by
  have cache_eq : (run.admitRequests input).executor.cacheDisable = run.executor.cacheDisable :=
    requests_cacheDisable run.executor input.requests
  unfold KeepsCache Saves at keeps ⊢
  rw [cache_eq]
  exact keeps

variable [Membus μ]

theorem Saves.dmaWrite {entry : Bool} {run : Run μ} (saves : run.Saves entry) (input : Input) :
    (run.dmaWrite input).1.Saves entry := by
  unfold Run.dmaWrite
  split
  · split
    · exact saves
    · dsimp only
      have called : run.advanceIndex.Saves entry := saves
      split
      · exact called.endDMAAtRangeEnd
      · exact called.endDMA.endDMAAtRangeEnd
  · apply Saves.endDMAAtRangeEnd
    exact saves

theorem Saves.dmaRead {entry : Bool} {run : Run μ} (saves : run.Saves entry) (input : Input) :
    (run.dmaRead input).1.Saves entry := by
  unfold Run.dmaRead
  split
  · exact saves
  · split
    · exact saves
    · dsimp only
      split
      · exact saves
      · exact ⟨saves.1, saves.1⟩

theorem Saves.dmaCycle {entry : Bool} {run : Run μ} (saves : run.Saves entry) (input : Input) :
    (run.dmaCycle input).1.Saves entry := by
  unfold Run.dmaCycle
  split
  · split
    · exact saves.dmaWrite input
    · exact saves.dmaRead input
  · exact saves

/-- Every step keeps the switch or what restores it. -/
theorem KeepsCache.step {entry : Bool} (mode : ExecMode) {run : Run μ} (input : Input)
    (keeps : run.KeepsCache entry) : (run.step mode input).1.KeepsCache entry := by
  unfold Run.step
  cases run.location with
  | fetch => exact keeps.congr (fetchStep_transfer input run)
  | cycle =>
      cases active : run.loop.isInDMA with
      | true =>
          have saves : run.Saves entry := by
            unfold KeepsCache at keeps
            rwa [if_pos active] at keeps
          rw [cycleStep_of_active mode input active]
          exact (saves.dmaCycle input).keepsCache.congr (afterCycle_transfer mode _)
      | false =>
          have admitted := keeps.admitRequests input
          cases requested : (run.admitRequests input).executor.flags.dma with
          | true =>
              rw [cycleStep_of_requested mode input active requested]
              have saves := (admitted.beginDMA active).dmaCycle input
              exact saves.keepsCache.congr (afterCycle_transfer mode _)
          | false =>
              rw [cycleStep_of_idle mode input active requested]
              refine admitted.congr ((afterCycle_transfer mode _).trans ?_)
              exact callStep_transfer mode input _
  | boundary => exact (keeps.admitRequests input).congr (boundaryStep_transfer input run)
  | returned | nullCall | hung => exact keeps

/-! ## Returning -/

/-- The next step leaves the launch in the middle of a transfer. -/
def LeavesInTransfer (run : Run μ) (_input : Input) : Prop :=
  run.Leaves ∧ run.loop.isInDMA = true

/-- A run that returns does so in the middle of a transfer exactly when one of its steps leaves
there. -/
theorem idle_of_returned_iff (mode : ExecMode) {run : Run μ} (inputs : List Input)
    (inside : run.location ≠ .returned)
    (returned : ((loopMachine μ mode).run run inputs).location = .returned) :
    ((loopMachine μ mode).run run inputs).loop.isInDMA = false ↔
      (loopMachine μ mode).Meets (fun run input => ¬ run.LeavesInTransfer input) run inputs := by
  induction inputs generalizing run with
  | nil => exact absurd returned inside
  | cons first rest ih =>
      change ((loopMachine μ mode).run (run.step mode first).1 rest).location = _ at returned
      change ((loopMachine μ mode).run (run.step mode first).1 rest).loop.isInDMA = _ ↔
        _ ∧ (loopMachine μ mode).Meets _ (run.step mode first).1 rest
      have returned_iff := step_returned_iff mode first inside
      by_cases leaves : run.Leaves
      · have ended := returned_iff.mpr leaves
        have active_eq := congrArg Transfer.active (step_transfer_of_leaves mode first leaves)
        have quiet : (loopMachine μ mode).Meets (fun run input => ¬ run.LeavesInTransfer input)
            (run.step mode first).1 rest := by
          refine (Machine.meets_iff_forall_split _ _ _ _).mpr fun front given back _ => ?_
          rintro ⟨later, -⟩
          rw [run_of_ended mode front ended] at later
          exact Location.noConfusion (ended.symm.trans later.1)
        rw [run_of_ended mode rest ended, and_iff_left quiet]
        change (run.step mode first).1.transfer.active = false ↔ _
        rw [active_eq]
        change run.loop.isInDMA = false ↔ ¬ (run.Leaves ∧ run.loop.isInDMA = true)
        rw [and_iff_right leaves, Bool.not_eq_true]
      · rw [and_iff_right fun both => leaves both.1]
        exact ih (fun ended => leaves (returned_iff.mp ended)) returned

/-! ## Staged transfers -/

/-- A staged transfer stays inside the inner loop, with its own stage. -/
def StaysInside (run : Run μ) : Prop :=
  run.loop.isInDMA = true → run.location ≠ .fetch ∧ run.location ≠ .boundary ∧
    run.loop.nextStage = .execDMA

omit [Membus μ] in
theorem endDMAAtRangeEnd_stage {run : Run μ}
    (still : run.endDMAAtRangeEnd.loop.isInDMA = true) :
    run.loop.isInDMA = true ∧ run.endDMAAtRangeEnd.loop.nextStage = run.loop.nextStage := by
  unfold endDMAAtRangeEnd at still ⊢
  split
  · rename_i ended
    rw [if_pos ended] at still
    exact absurd still Bool.false_ne_true
  · rename_i further
    rw [if_neg further] at still
    exact ⟨still, rfl⟩

theorem dmaWrite_stage (input : Input) {run : Run μ}
    (still : (run.dmaWrite input).1.loop.isInDMA = true) :
    (run.dmaWrite input).1.loop.nextStage = run.loop.nextStage := by
  unfold dmaWrite at still ⊢
  split at still
  · rename_i copyout
    rw [if_pos copyout]
    split at still
    · rfl
    · dsimp only at still ⊢
      split at still
      · rename_i consumed
        rw [if_pos consumed]
        exact (endDMAAtRangeEnd_stage still).2
      · exact absurd (endDMAAtRangeEnd_stage still).1 Bool.false_ne_true
  · rename_i copyin
    rw [if_neg copyin]
    dsimp only at still ⊢
    exact (endDMAAtRangeEnd_stage still).2

theorem dmaRead_stage (input : Input) {run : Run μ}
    (still : (run.dmaRead input).1.loop.isInDMA = true) :
    (run.dmaRead input).1.loop.nextStage = run.loop.nextStage := by
  unfold dmaRead at still ⊢
  split at still
  · rename_i copyout
    rw [if_pos copyout]
    rfl
  · rename_i copyin
    rw [if_neg copyin]
    split at still
    · rfl
    · dsimp only at still ⊢
      split at still
      · rename_i provided
        rw [if_pos provided]
        rfl
      · exact absurd still Bool.false_ne_true

/-- A half-step that does not end its transfer keeps the stage. -/
theorem dmaCycle_stage (input : Input) {run : Run μ}
    (still : (run.dmaCycle input).1.loop.isInDMA = true) :
    (run.dmaCycle input).1.loop.nextStage = run.loop.nextStage := by
  unfold dmaCycle at still ⊢
  split at still
  · rename_i started
    rw [if_pos started]
    split at still
    · rename_i odd
      rw [if_pos odd]
      exact dmaWrite_stage input still
    · rename_i even
      rw [if_neg even]
      exact dmaRead_stage input still
  · rename_i waiting
    rw [if_neg waiting]
    rfl

omit [Membus μ] in
theorem afterCycle_staysInside {run : Run μ} (stage : run.loop.isInDMA = true →
    run.loop.nextStage = .execDMA) : (run.afterCycle .staged).StaysInside := by
  intro active
  have active_eq := congrArg Transfer.active (afterCycle_transfer .staged run)
  have stage_eq := stage (active_eq.symm.trans active)
  unfold afterCycle
  split
  · rename_i null
    rw [null]
    exact ⟨Location.noConfusion, Location.noConfusion, stage_eq⟩
  · dsimp only
    rw [stage_eq, if_neg Stage.noConfusion]
    exact ⟨Location.noConfusion, Location.noConfusion, stage_eq⟩

theorem StaysInside.step {run : Run μ} (stays : run.StaysInside) (input : Input) :
    (run.step .staged input).1.StaysInside := by
  unfold Run.step
  cases location_eq : run.location with
  | fetch =>
      intro active
      have active_eq := congrArg Transfer.active (fetchStep_transfer input run)
      exact absurd location_eq (stays (active_eq.symm.trans active)).1
  | cycle =>
      dsimp only
      cases active : run.loop.isInDMA with
      | true =>
          rw [cycleStep_of_active .staged input active]
          refine afterCycle_staysInside fun still => ?_
          exact (dmaCycle_stage input still).trans (stays active).2.2
      | false =>
          cases requested : (run.admitRequests input).executor.flags.dma with
          | true =>
              rw [cycleStep_of_requested .staged input active requested]
              exact afterCycle_staysInside fun still => dmaCycle_stage input still
          | false =>
              rw [cycleStep_of_idle .staged input active requested]
              refine afterCycle_staysInside fun still => ?_
              have active_eq := congrArg Transfer.active
                (callStep_transfer .staged input (run.admitRequests input))
              exact absurd ((active_eq.symm.trans still).symm.trans active) Bool.noConfusion
  | boundary =>
      intro active
      have active_eq := congrArg Transfer.active (boundaryStep_transfer input run)
      exact absurd location_eq (stays (active_eq.symm.trans active)).2.1
  | returned | nullCall | hung => exact stays

/-- A staged launch never leaves in the middle of a transfer. -/
theorem staged_not_leavesInTransfer (executor : Executor μ) (range : MemoryAddrRange) (PC : Word)
    (residue : Loop) (inputs : List Input) :
    (loopMachine μ .staged).Meets (fun run input => ¬ run.LeavesInTransfer input)
      (launch executor range PC residue) inputs := by
  refine (Machine.meets_iff_forall_split _ _ _ _).mpr fun front given back _ => ?_
  rintro ⟨leaves, active⟩
  have stays : ((loopMachine μ .staged).run (launch executor range PC residue)
      front).StaysInside := by
    refine (loopMachine μ .staged).invariant_run (fun run input stays => ?_) _ front ?_
    · exact StaysInside.step stays input
    · intro active
      exact absurd active Bool.false_ne_true
  exact (stays active).1 leaves.1

end Run

/-- A launch that returns gives the cache switch back exactly when the switch was on at its entry
or no step of it leaves in the middle of a transfer. -/
theorem cacheDisable_returned_iff [Membus μ] (mode : ExecMode) (executor : Executor μ)
    (range : MemoryAddrRange) (PC : Word) (residue : Loop) (inputs : List Input)
    (returned : ((loopMachine μ mode).run (Run.launch executor range PC residue) inputs).location =
      .returned) :
    ((loopMachine μ mode).run (Run.launch executor range PC residue) inputs).executor.cacheDisable =
        executor.cacheDisable ↔
      executor.cacheDisable = true ∨
        (loopMachine μ mode).Meets (fun run input => ¬ run.LeavesInTransfer input)
          (Run.launch executor range PC residue) inputs := by
  have keeps : ((loopMachine μ mode).run (Run.launch executor range PC residue) inputs).KeepsCache
      executor.cacheDisable := by
    refine (loopMachine μ mode).invariant_run (fun run input keeps => ?_) _ inputs ?_
    · exact Run.KeepsCache.step mode input keeps
    · exact rfl
  rw [← Run.idle_of_returned_iff mode inputs Location.noConfusion returned]
  unfold Run.KeepsCache at keeps
  split at keeps
  · rename_i active
    rw [active, keeps.2, if_pos active]
    simp only [eq_comm, reduceCtorEq, or_false]
  · rename_i idle
    rw [Bool.not_eq_true] at idle
    exact iff_of_true keeps (.inr idle)

/-- A launch on memory filled with `NOP`. -/
def launchOnEA : Run Ram :=
  Run.launch (Executor.alloc Registers.reset (fun _ => 0xEA) .base)
    { addrLo := 0, addrLen := 0xFFFF } 0x0200 Loop.zero

/-- What a launch meets when a transfer and the end of execution are requested at its first
release point. -/
def stoppedTransfer : List Input :=
  let quiet := Input.quiet .nextCycle Locals.zero
  let requests : List Request :=
    [.setDMACopyin { addrLo := 0x3000, addrLen := 0x0010 } (some 0) 0, .setExecStop]
  [quiet, { quiet with requests, provided := (true, 0) }, quiet, quiet]

/-- In static mode this launch returns with the cache still off. -/
theorem not_cacheDisable_restored :
    ¬ (((loopMachine Ram .static).run launchOnEA stoppedTransfer).location = .returned →
        ((loopMachine Ram .static).run launchOnEA stoppedTransfer).executor.cacheDisable =
          launchOnEA.executor.cacheDisable) := by
  intro restores
  exact absurd (restores (by decide)) (by decide)

/-- What a launch meets when the end of execution is requested after a transfer. -/
def stoppedAfterTransfer : List Input :=
  let quiet := Input.quiet .nextCycle Locals.zero
  let requests : List Request := [.setDMACopyin { addrLo := 0x3000, addrLen := 0x0001 } (some 0) 0]
  [quiet, { quiet with requests, provided := (true, 0) }, quiet, quiet, quiet,
    { quiet with requests := [.setExecStop] }, quiet]

/-- The transfer has ended before this launch leaves. -/
theorem cacheDisable_stoppedAfterTransfer :
    ((loopMachine Ram .static).run launchOnEA stoppedAfterTransfer).executor.cacheDisable =
      launchOnEA.executor.cacheDisable := by
  refine (cacheDisable_returned_iff .static _ _ _ _ stoppedAfterTransfer (by decide)).mpr (.inr ?_)
  have quiet : ∀ {run : Run Ram} {input : Input}, run.loop.isInDMA = false →
      ¬ run.LeavesInTransfer input := fun idle leaves =>
    absurd (idle.symm.trans leaves.2) Bool.noConfusion
  have inside : ∀ {run : Run Ram} {input : Input}, run.location ≠ .fetch →
      ¬ run.LeavesInTransfer input := fun elsewhere leaves => elsewhere leaves.1.1
  -- the fetch between the two half-steps finds a `NOP`
  refine ⟨quiet rfl, quiet rfl, inside (by decide), fun leaves => ?_, inside (by decide),
    quiet rfl, quiet rfl, trivial⟩
  exact absurd (leaves.1.2 ⟨by decide, by decide, by decide⟩) (by decide)

end System6502
