import System6502.Executor.Transfers

/-!
# Confinement of a launch

Which launches fetch only from the addresses they are meant for and end by themselves only outside
of them.  The guard of the loops compares the program counter with the end of the range alone.
-/

namespace System6502

open Lib

variable {μ : Type*}

/-- The three ways to launch an executor. -/
inductive Launch
  | launch (PC : Word)
  | launchInAddressRange (range : MemoryAddrRange) (PC : Word)
  | softReset

namespace Launch

/-- The range that a launch hands to its loop. -/
def range : Launch → MemoryAddrRange
  | launchInAddressRange range _ => range
  | launch _ | softReset => { addrLo := 0x0000, addrLen := 0xFFFF }

/-- The addresses a launch is meant for: those its range includes, or all of memory. -/
def Extent : Launch → Word → Prop
  | launchInAddressRange range _, address => range.doesInclude address = true
  | launch _, _ | softReset, _ => True

variable [Membus μ]

/-- The executor and the program counter a launch starts with. -/
def origin (executor : Executor μ) : Launch → Executor μ × Word
  | launch PC | launchInAddressRange _ PC => (executor, PC)
  | softReset =>
      let low := Membus.readAddr executor.memory memoryAddrRESVector
      let high := Membus.readAddr low.2 (memoryAddrRESVector + 1)
      ({ executor with memory := high.2 }, Word.littleEndian low.1 high.1)

/-- A launch leaves its start to the loop if it does not look at its range or its range includes
the program counter. -/
def Enters (executor : Executor μ) (entry : Launch) : Prop :=
  match entry with
  | launch _ => True
  | launchInAddressRange .. | softReset =>
      entry.range.doesInclude (entry.origin executor).2 = true

instance (executor : Executor μ) (entry : Launch) : Decidable (entry.Enters executor) := by
  unfold Enters
  split <;> infer_instance

/-- `executor_launch`, `executor_launch_in_address_range` and `executor_soft_reset` up to the
first look at the loop condition. -/
def begin (executor : Executor μ) (residue : Loop) (entry : Launch) : Run μ :=
  let (opened, PC) := entry.origin executor
  if entry.Enters executor then Run.launch opened entry.range PC residue
  else { executor := opened, loop := residue, location := .returned }

end Launch

namespace Run

variable [Membus μ]

/-- A step fetches only inside an extent, and ends the launch by itself only outside of it or at
an illegal opcode. -/
def Confined (extent : Word → Prop) (mode : ExecMode) (run : Run μ) (input : Input) : Prop :=
  (∀ address opcode, Event.fetch address opcode ∈ (run.step mode input).2 → extent address) ∧
    (run.location ≠ .returned → (run.step mode input).1.location = .returned →
      run.executor.flags.execStop = false → extent run.executor.registers.PC →
        ∃ opcode, Event.illegal opcode ∈ (run.step mode input).2)

/-- The condition at the loop head under which the guard of the loop is the right one. -/
def HeadMeets (condition : Word → Prop) (run : Run μ) (_input : Input) : Prop :=
  run.location = .fetch → run.executor.flags.execStop = false →
    condition run.executor.registers.PC

/-! ## The guard -/

omit [Membus μ] in
theorem afterCycle_PCEnd (mode : ExecMode) (run : Run μ) :
    (run.afterCycle mode).loop.PCEnd = run.loop.PCEnd := by
  unfold afterCycle
  split
  · rfl
  · split
    · split <;> rfl
    · rfl

theorem dmaCycle_PCEnd (input : Input) (run : Run μ) :
    (run.dmaCycle input).1.loop.PCEnd = run.loop.PCEnd := by
  have atRangeEnd : ∀ other : Run μ,
      other.endDMAAtRangeEnd.loop.PCEnd = other.loop.PCEnd := by
    intro other
    unfold endDMAAtRangeEnd
    split <;> rfl
  unfold dmaCycle dmaWrite dmaRead
  split
  · split <;> split
    · split
      · rfl
      · dsimp only
        split <;> exact atRangeEnd _
    · exact atRangeEnd _
    · rfl
    · split
      · rfl
      · dsimp only
        split <;> rfl
  · rfl

theorem callStep_PCEnd (mode : ExecMode) (input : Input) (run : Run μ) :
    (run.callStep mode input).1.loop.PCEnd = run.loop.PCEnd := by
  cases mode with
  | staged =>
      simp only [callStep, stagedCall]
      split <;> rfl
  | static =>
      simp only [callStep, staticCall]
      split <;> rfl

theorem service_PCEnd (interrupt : Interrupt) (run : Run μ) :
    (run.service interrupt).1.loop.PCEnd = run.loop.PCEnd := by
  unfold service
  split <;> rfl

/-- The guard of a loop never changes. -/
theorem step_PCEnd (mode : ExecMode) (run : Run μ) (input : Input) :
    (run.step mode input).1.loop.PCEnd = run.loop.PCEnd := by
  unfold step
  cases run.location with
  | fetch =>
      dsimp only
      unfold fetchStep
      dsimp only
      split
      · split <;> rfl
      · rfl
  | cycle =>
      dsimp only
      cases active : run.loop.isInDMA with
      | true =>
          rw [cycleStep_of_active mode input active]
          exact (afterCycle_PCEnd mode _).trans (dmaCycle_PCEnd input run)
      | false =>
          cases requested : (run.admitRequests input).executor.flags.dma with
          | true =>
              rw [cycleStep_of_requested mode input active requested]
              exact (afterCycle_PCEnd mode _).trans (dmaCycle_PCEnd input _)
          | false =>
              rw [cycleStep_of_idle mode input active requested]
              exact (afterCycle_PCEnd mode _).trans (callStep_PCEnd mode input _)
  | boundary =>
      have irq : ∀ other : Run μ, other.serviceIRQ.1.loop.PCEnd = other.loop.PCEnd := by
        intro other
        unfold serviceIRQ
        split
        · exact service_PCEnd _ other
        · rfl
      have nmi : ∀ other : Run μ, other.serviceNMI.1.loop.PCEnd = other.loop.PCEnd := by
        intro other
        unfold serviceNMI
        split
        · exact service_PCEnd _ other
        · rfl
      simp only [boundaryStep]
      split <;> exact (nmi _).trans (irq _)
  | returned | nullCall | hung => rfl

/-- Away from the loop head no opcode is fetched. -/
theorem fetch_not_mem (mode : ExecMode) (input : Input) {run : Run μ}
    (away : run.location ≠ .fetch) (address : Word) (opcode : Byte) :
    Event.fetch address opcode ∉ (run.step mode input).2 := by
  intro fetch_mem
  unfold step at fetch_mem
  cases location_eq : run.location with
  | fetch => exact away location_eq
  | cycle =>
      rw [location_eq] at fetch_mem
      rcases cycleStep_events mode input run _ fetch_mem with transfer | lock | unlock | call
      · exact transfer
      · cases lock
      · cases unlock
      · cases call
  | boundary =>
      rw [location_eq] at fetch_mem
      rcases boundaryStep_events input run _ fetch_mem with lock | unlock | ⟨_, _, service⟩
      · cases lock
      · cases unlock
      · cases service
  | returned | nullCall | hung =>
      rw [location_eq] at fetch_mem
      cases fetch_mem

/-- A loop head whose guard lets the program counter pass. -/
theorem confined_of_fetching (extent : Word → Prop) (mode : ExecMode) (input : Input)
    {run : Run μ} (fetching : run.Fetching) :
    run.Confined extent mode input ↔ extent run.executor.registers.PC := by
  have step_eq : run.step mode input = run.fetchStep input := by simp only [step, fetching.1]
  rw [Confined, step_eq]
  by_cases undefined : (run.executor.dialect.lookup run.nextOpcode).addressingMode = .undefined
  · obtain ⟨events_eq, -⟩ := fetchStep_of_undefined input fetching undefined
    rw [events_eq]
    constructor
    · intro confined
      exact confined.1 _ _ List.mem_cons_self
    · intro inside
      refine ⟨fun address opcode fetch_mem => ?_, fun _ _ _ _ => ⟨run.nextOpcode, by simp⟩⟩
      obtain ⟨rfl, -⟩ : address = run.executor.registers.PC ∧ opcode = _ := by
        simpa using fetch_mem
      exact inside
  · obtain ⟨events_eq, location_eq, -⟩ := fetchStep_of_defined input fetching undefined
    rw [events_eq, location_eq]
    constructor
    · intro confined
      exact confined.1 _ _ List.mem_cons_self
    · intro inside
      refine ⟨fun address opcode fetch_mem => ?_, fun _ returned => Location.noConfusion returned⟩
      obtain ⟨rfl, -⟩ : address = run.executor.registers.PC ∧ opcode = _ := by
        simpa using fetch_mem
      exact inside

/-- A loop head whose guard stops the program counter. -/
theorem confined_of_stopped (extent : Word → Prop) (mode : ExecMode) (input : Input)
    {run : Run μ} (here : run.location = .fetch) (running : run.executor.flags.execStop = false)
    (stopped : ¬ run.executor.registers.PC.toNat < run.loop.PCEnd) :
    run.Confined extent mode input ↔ ¬ extent run.executor.registers.PC := by
  have step_eq : run.step mode input = (run.leave, [.leave]) := by
    simp only [step, here]
    exact fetchStep_of_not_fetching input here fun fetching => stopped fetching.2.2
  rw [Confined, step_eq, here]
  constructor
  · intro confined inside
    obtain ⟨opcode, illegal_mem⟩ := confined.2 Location.noConfusion rfl running inside
    simp at illegal_mem
  · intro outside
    exact ⟨by simp, fun _ _ _ inside => absurd inside outside⟩

/-- Steps that neither fetch nor end the launch by themselves are confined. -/
theorem confined_of_not_head (extent : Word → Prop) (mode : ExecMode) (input : Input)
    {run : Run μ} (away : ¬ (run.location = .fetch ∧ run.executor.flags.execStop = false)) :
    run.Confined extent mode input := by
  by_cases here : run.location = .fetch
  · have stop : ¬ run.executor.flags.execStop = false := fun running => away ⟨here, running⟩
    have step_eq : run.step mode input = (run.leave, [.leave]) := by
      simp only [step, here]
      exact fetchStep_of_not_fetching input here fun fetching => stop fetching.2.1
    rw [Confined, step_eq]
    exact ⟨by simp, fun _ _ running => absurd running stop⟩
  · refine ⟨fun address opcode fetch_mem => ?_, fun inside returned => ?_⟩
    · exact absurd fetch_mem (fetch_not_mem mode input here address opcode)
    · exact absurd ((step_returned_iff mode input inside).mp returned).1 here

/-- A step is confined exactly when the program counter meets a condition at the loop head, if
that condition tells the two outcomes of the guard apart. -/
theorem confined_iff_headMeets {extent condition : Word → Prop} (mode : ExecMode) (run : Run μ)
    (input : Input)
    (passes : ∀ PC : Word, PC.toNat < run.loop.PCEnd → (extent PC ↔ condition PC))
    (stops : ∀ PC : Word, ¬ PC.toNat < run.loop.PCEnd → (¬ extent PC ↔ condition PC)) :
    run.Confined extent mode input ↔ run.HeadMeets condition input := by
  by_cases head : run.location = .fetch ∧ run.executor.flags.execStop = false
  · have condition_iff : run.HeadMeets condition input ↔
        condition run.executor.registers.PC :=
      ⟨fun meets => meets head.1 head.2, fun holds _ _ => holds⟩
    rw [condition_iff]
    by_cases passing : run.executor.registers.PC.toNat < run.loop.PCEnd
    · rw [confined_of_fetching extent mode input ⟨head.1, head.2, passing⟩]
      exact passes _ passing
    · rw [confined_of_stopped extent mode input head.1 head.2 passing]
      exact stops _ passing
  · refine iff_of_true (confined_of_not_head extent mode input head) fun here running => ?_
    exact absurd ⟨here, running⟩ head

theorem step_of_returned (mode : ExecMode) (input : Input) {run : Run μ}
    (here : run.location = .returned) : (run.step mode input).1 = run := by
  simp only [step, here]

theorem confined_iff_of_returned {extent condition : Word → Prop} (mode : ExecMode)
    (input : Input) {run : Run μ} (here : run.location = .returned) :
    run.Confined extent mode input ↔ run.HeadMeets condition input := by
  refine iff_of_true (confined_of_not_head extent mode input ?_) fun head => ?_
  · rintro ⟨head, -⟩
    exact Location.noConfusion (here.symm.trans head)
  · exact Location.noConfusion (here.symm.trans head)

end Run

/-! ## Launches -/

namespace Launch

/-- The program counters for which the guard of a launch is right: those from the start of its
range on, or all but the last address. -/
def GuardFits : Launch → Word → Prop
  | launchInAddressRange range _, PC => range.addrLo ≤ PC
  | launch _, PC | softReset, PC => PC ≠ 0xFFFF

theorem guardFits_passes (entry : Launch) (PC : Word)
    (passing : PC.toNat < entry.range.addrLo.toNat + entry.range.addrLen.toNat) :
    entry.Extent PC ↔ entry.GuardFits PC := by
  cases entry with
  | launchInAddressRange range start =>
      simp only [Launch.range] at passing
      simp only [Extent, GuardFits, MemoryAddrRange.doesInclude, passing, decide_true,
        Bool.and_true, Bool.and_eq_true, bne_iff_ne, decide_eq_true_eq, and_iff_right_iff_imp]
      intro above empty
      rw [empty] at passing
      bv_omega
  | launch | softReset =>
      refine iff_of_true trivial fun top => ?_
      simp only [Launch.range] at passing
      bv_omega

theorem guardFits_stops (entry : Launch) (PC : Word)
    (stopped : ¬ PC.toNat < entry.range.addrLo.toNat + entry.range.addrLen.toNat) :
    ¬ entry.Extent PC ↔ entry.GuardFits PC := by
  cases entry with
  | launchInAddressRange range start =>
      simp only [Launch.range] at stopped
      refine iff_of_true (fun inside => ?_) ?_
      · simp only [Extent, MemoryAddrRange.doesInclude, stopped, decide_false, Bool.and_false,
          Bool.false_eq_true] at inside
      · simp only [GuardFits]
        bv_omega
  | launch | softReset =>
      refine iff_of_false (fun outside => outside trivial) fun below => below ?_
      have last : ((0xFFFF : Word)).toNat = 0xFFFF := rfl
      simp only [Launch.range] at stopped
      bv_omega

variable [Membus μ]

/-- A launch executes only the addresses it is meant for, and ends by itself only outside of them
or at an illegal opcode. -/
def Confined (entry : Launch) (mode : ExecMode) (executor : Executor μ) (residue : Loop)
    (inputs : List Input) : Prop :=
  ((entry.begin executor residue).location = .returned →
      ¬ entry.Extent (entry.origin executor).2) ∧
    (loopMachine μ mode).Meets (Run.Confined entry.Extent mode) (entry.begin executor residue)
      inputs

/-- A soft reset finds another address than the last one in the reset vector. -/
def VectorFits (entry : Launch) (executor : Executor μ) : Prop :=
  entry = softReset → (entry.origin executor).2 ≠ 0xFFFF

theorem begin_of_enters {entry : Launch} {executor : Executor μ} (residue : Loop)
    (enters : entry.Enters executor) :
    entry.begin executor residue =
      Run.launch (entry.origin executor).1 entry.range (entry.origin executor).2 residue :=
  if_pos enters

theorem begin_of_not_enters {entry : Launch} {executor : Executor μ} (residue : Loop)
    (refused : ¬ entry.Enters executor) :
    (entry.begin executor residue).location = .returned := by
  simp only [begin, if_neg refused]

theorem doesInclude_allMemory (PC : Word) :
    ({ addrLo := 0x0000, addrLen := 0xFFFF } : MemoryAddrRange).doesInclude PC = true ↔
      PC ≠ 0xFFFF := by
  have below : PC.toNat < 0 + 0xFFFF ↔ PC ≠ 0xFFFF := by
    have last : (0xFFFF : Word).toNat = 0xFFFF := rfl
    rw [Ne, ← BitVec.toNat_inj, last]
    have := PC.isLt
    omega
  simp only [MemoryAddrRange.doesInclude, Bool.and_eq_true, decide_eq_true_eq]
  rw [← below]
  exact ⟨fun inside => inside.2, fun inside => ⟨⟨rfl, Nat.zero_le _⟩, inside⟩⟩

theorem vectorFits_of_enters {entry : Launch} {executor : Executor μ}
    (enters : entry.Enters executor) : entry.VectorFits executor := by
  rintro rfl
  exact (doesInclude_allMemory _).mp enters

/-- A launch that is refused started outside its range; a soft reset is refused for the last
address. -/
theorem refused_iff {entry : Launch} {executor : Executor μ} (refused : ¬ entry.Enters executor) :
    ¬ entry.Extent (entry.origin executor).2 ↔ entry.VectorFits executor := by
  cases entry with
  | launch => exact absurd trivial refused
  | launchInAddressRange => exact iff_of_true refused fun other => by cases other
  | softReset =>
      refine iff_of_false (fun outside => outside trivial) fun fits => refused ?_
      exact (doesInclude_allMemory _).mpr (fits rfl)

/-- The loop of a launch. -/
theorem meets_confined_iff (entry : Launch) (mode : ExecMode) (opened : Executor μ) (PC : Word)
    (residue : Loop) (inputs : List Input) :
    (loopMachine μ mode).Meets (Run.Confined entry.Extent mode)
        (Run.launch opened entry.range PC residue) inputs ↔
      (loopMachine μ mode).Meets (Run.HeadMeets entry.GuardFits)
        (Run.launch opened entry.range PC residue) inputs := by
  refine (loopMachine μ mode).meets_congr
    (fun run input (guard : run.loop.PCEnd =
      entry.range.addrLo.toNat + entry.range.addrLen.toNat) => ?_)
    (fun run input guard _ => (Run.step_PCEnd mode run input).trans guard) _ inputs rfl
  refine Run.confined_iff_headMeets mode run input (fun PC passing => ?_) fun PC stopped => ?_
  · rw [guard] at passing
    exact entry.guardFits_passes PC passing
  · rw [guard] at stopped
    exact entry.guardFits_stops PC stopped

/-- A launch is confined exactly when at every loop head it reaches without `exec_stop` the
program counter is not below its range, or for a launch over all of memory not the last address,
and a soft reset does not find the last address in its vector. -/
theorem confined_iff (entry : Launch) (mode : ExecMode) (executor : Executor μ) (residue : Loop)
    (inputs : List Input) :
    entry.Confined mode executor residue inputs ↔
      entry.VectorFits executor ∧
        (loopMachine μ mode).Meets (Run.HeadMeets entry.GuardFits) (entry.begin executor residue)
          inputs := by
  by_cases enters : entry.Enters executor
  · rw [Confined, begin_of_enters residue enters]
    refine and_congr ?_ ?_
    · exact iff_of_true (fun returned => Location.noConfusion returned)
        (vectorFits_of_enters enters)
    · exact meets_confined_iff entry mode (entry.origin executor).1 (entry.origin executor).2
        residue inputs
  · have ended := begin_of_not_enters residue enters
    rw [Confined, forall_prop_of_true ended]
    refine and_congr (refused_iff enters) ?_
    exact (loopMachine μ mode).meets_congr
      (fun run input (here : run.location = .returned) =>
        Run.confined_iff_of_returned mode input here)
      (fun run input here _ => (congrArg Run.location (Run.step_of_returned mode input here)).trans
        here) _ inputs ended

/-- `JMP $0000` at `$0200`, on memory filled with zeros. -/
def jumpBelow : Executor Ram :=
  Executor.alloc Registers.reset (fun address => if address = 0x0200 then 0x4C else 0x00) .base

/-- A launch in the range from `$0200` to `$020F` that jumps to `$0000` fetches there. -/
theorem not_confined_jumpBelow :
    ¬ (launchInAddressRange { addrLo := 0x0200, addrLen := 0x0010 } 0x0200).Confined .staged
        jumpBelow Loop.zero (List.replicate 5 (Input.quiet .nextCycle Locals.zero)) := by
  rintro ⟨-, -, -, -, -, ⟨fetches, -⟩, -⟩
  have inside := fetches 0x0000 0x00 (by decide)
  revert inside
  simp only [Extent]
  decide

end Launch
end System6502
