import System6502.Executor.Dispatch

/-!
# The state lock

Who holds `state_lock` while one thread makes a sequence of calls.  A launch takes the lock on
entry, gives it away and takes it back at its release points, and returns without giving it away.
-/

namespace System6502

open Lib

variable {μ : Type*}

/-! ## Lock events -/

/-- Whether the thread holds the lock after an event. -/
def Event.lockAfter (held : Bool) : Event → Bool
  | .lock => true
  | .unlock => false
  | _ => held

/-- The thread acquires the lock only while it does not hold it and releases it only while it
does. -/
def NeverBlocks : Bool → List Event → Prop
  | _, [] => True
  | held, .lock :: rest => held = false ∧ NeverBlocks true rest
  | held, .unlock :: rest => held = true ∧ NeverBlocks false rest
  | held, _ :: rest => NeverBlocks held rest

/-- Events that do not touch the lock. -/
def LockFree (events : List Event) : Prop := ∀ event ∈ events, event ≠ .lock ∧ event ≠ .unlock

/-- The lock is given away and taken back, if it is touched at all. -/
def Yields (events : List Event) : Prop :=
  ∃ rest, LockFree rest ∧ (events = rest ∨ events = [.unlock, .lock] ++ rest)

theorem neverBlocks_append (held : Bool) (front back : List Event) :
    NeverBlocks held (front ++ back) ↔
      NeverBlocks held front ∧ NeverBlocks (front.foldl Event.lockAfter held) back := by
  induction front generalizing held with
  | nil => simp [NeverBlocks]
  | cons first rest ih =>
      cases first <;> simp only [List.cons_append, NeverBlocks, ih, List.foldl_cons,
        Event.lockAfter, and_assoc]

theorem LockFree.neverBlocks {events : List Event} (free : LockFree events) (held : Bool) :
    NeverBlocks held events ∧ events.foldl Event.lockAfter held = held := by
  induction events with
  | nil => exact ⟨trivial, rfl⟩
  | cons first rest ih =>
      have later := ih fun event event_mem => free event (List.mem_cons_of_mem _ event_mem)
      have here := free first List.mem_cons_self
      cases first with
      | lock => exact absurd rfl here.1
      | unlock => exact absurd rfl here.2
      | _ => exact later

/-- A holder that yields neither blocks nor loses the lock. -/
theorem Yields.neverBlocks {events : List Event} (yields : Yields events) :
    NeverBlocks true events ∧ events.foldl Event.lockAfter true = true := by
  obtain ⟨rest, free, rfl | rfl⟩ := yields
  · exact free.neverBlocks true
  · obtain ⟨never, held⟩ := free.neverBlocks true
    exact ⟨⟨rfl, rfl, never⟩, held⟩

namespace Run

variable [Membus μ]

theorem fetchStep_lockFree (input : Input) (run : Run μ) : LockFree (run.fetchStep input).2 := by
  unfold fetchStep
  dsimp only
  split
  · split <;> simp [LockFree]
  · simp [LockFree]

theorem dmaCycle_lockFree (input : Input) (run : Run μ) : LockFree (run.dmaCycle input).2 := by
  intro event event_mem
  have transfer := dmaCycle_events input run event event_mem
  constructor <;> rintro rfl <;> exact transfer

theorem cycleStep_yields (mode : ExecMode) (input : Input) (run : Run μ) :
    Yields (run.cycleStep mode input).2 := by
  simp only [cycleStep]
  split
  · exact ⟨_, dmaCycle_lockFree input run, .inl rfl⟩
  · unfold dispatchCycle
    dsimp only
    split
    · exact ⟨_, dmaCycle_lockFree input _, .inr rfl⟩
    · refine ⟨_, ?_, .inr rfl⟩
      cases mode <;> simp [stagedCall_events, staticCall_events, LockFree]

theorem boundaryStep_yields (input : Input) (run : Run μ) :
    Yields (run.boundaryStep input).2 := by
  let admitted := run.onExecutor fun executor => executor.requests input.requests
  refine ⟨admitted.serviceIRQ.2 ++ admitted.serviceIRQ.1.serviceNMI.2, ?_, .inr ?_⟩
  · intro event event_mem
    rcases List.mem_append.mp event_mem with irq | nmi
    · obtain ⟨interrupt, calls, rfl⟩ := serviceIRQ_events admitted event irq
      exact ⟨Event.noConfusion, Event.noConfusion⟩
    · obtain ⟨interrupt, calls, rfl⟩ := serviceNMI_events _ event nmi
      exact ⟨Event.noConfusion, Event.noConfusion⟩
  · exact List.append_assoc _ _ _

theorem step_yields (mode : ExecMode) (run : Run μ) (input : Input) :
    Yields (run.step mode input).2 := by
  unfold step
  cases run.location with
  | fetch => exact ⟨_, fetchStep_lockFree input run, .inl rfl⟩
  | cycle => exact cycleStep_yields mode input run
  | boundary => exact boundaryStep_yields input run
  | returned | nullCall | hung => exact ⟨[], by simp [LockFree], .inl rfl⟩

/-- While a loop runs, its thread never waits for itself, and it holds the lock after every
step. -/
theorem trace_neverBlocks (mode : ExecMode) (run : Run μ) (inputs : List Input) :
    NeverBlocks true ((loopMachine μ mode).trace run inputs) ∧
      ((loopMachine μ mode).trace run inputs).foldl Event.lockAfter true = true := by
  induction inputs generalizing run with
  | nil => exact ⟨trivial, rfl⟩
  | cons first rest ih =>
      obtain ⟨never, held⟩ := (step_yields mode run first).neverBlocks
      obtain ⟨neverLater, heldLater⟩ := ih (run.step mode first).1
      have trace_eq : (loopMachine μ mode).trace run (first :: rest) =
          (run.step mode first).2 ++ (loopMachine μ mode).trace (run.step mode first).1 rest := rfl
      rw [trace_eq, neverBlocks_append, List.foldl_append, held]
      exact ⟨⟨never, neverLater⟩, heldLater⟩

end Run

/-! ## Sequences of calls -/

/-- `executor_hard_reset`. -/
def Executor.hardReset (executor : Executor μ) : Executor μ :=
  { executor with
    registers := Registers.reset
    flags := { nmi := false, irq := false, dma := false, execStop := false } }

/-- A call that takes the lock, a launch with what it meets while it runs. -/
inductive LockingCall
  | request (request : Request)
  | hardReset
  | launch (mode : ExecMode) (range : MemoryAddrRange) (PC : Word) (residue : Loop)
      (inputs : List Input)

namespace LockingCall

/-- The call is a launch. -/
def IsLaunch : LockingCall → Prop
  | launch .. => True
  | _ => False

variable [Membus μ]

/-- The executor after a call. -/
def apply (executor : Executor μ) : LockingCall → Executor μ
  | request made => executor.request made
  | hardReset => executor.hardReset
  | launch mode range PC residue inputs =>
      ((loopMachine μ mode).run (Run.launch executor range PC residue) inputs).executor

/-- What a call does, `pthread_mutex_lock` first. -/
def events (executor : Executor μ) : LockingCall → List Event
  | request _ | hardReset => [.lock, .unlock]
  | launch mode range PC residue inputs =>
      .lock :: (loopMachine μ mode).trace (Run.launch executor range PC residue) inputs

/-- The call comes back. -/
def Returns (executor : Executor μ) : LockingCall → Prop
  | request _ | hardReset => True
  | launch mode range PC residue inputs =>
      ((loopMachine μ mode).run (Run.launch executor range PC residue) inputs).location = .returned

end LockingCall

/-- One thread and the executor it works on. -/
structure LockingThread (μ : Type*) where
  /-- The executor. -/
  executor : Executor μ
  /-- The thread holds `state_lock`. -/
  holdsLock : Bool

/-- A thread that makes one call after another. -/
def lockingMachine (μ : Type*) [Membus μ] : Lib.Machine (LockingThread μ) LockingCall Event where
  step thread call :=
    ({ executor := call.apply thread.executor
       holdsLock := (call.events thread.executor).foldl Event.lockAfter thread.holdsLock },
      call.events thread.executor)

namespace LockingThread

variable [Membus μ]

/-- The call comes back. -/
def Returns (thread : LockingThread μ) (call : LockingCall) : Prop := call.Returns thread.executor

/-- The call takes the lock only while the thread does not hold it, and if it comes back, it has
released it. -/
def Balances (thread : LockingThread μ) (call : LockingCall) : Prop :=
  NeverBlocks thread.holdsLock (call.events thread.executor) ∧
    (thread.Returns call → ((lockingMachine μ).step thread call).1.holdsLock = false)

theorem balances_of_not_launch {thread : LockingThread μ} {call : LockingCall}
    (free : thread.holdsLock = false) (other : ¬ call.IsLaunch) :
    thread.Balances call ∧ ((lockingMachine μ).step thread call).1.holdsLock = false := by
  cases call with
  | request | hardReset =>
      refine ⟨⟨?_, fun _ => rfl⟩, rfl⟩
      rw [free]
      exact ⟨rfl, rfl, trivial⟩
  | launch => exact absurd trivial other

/-- A launch that comes back still holds the lock. -/
theorem not_balances_of_launch {thread : LockingThread μ} {call : LockingCall}
    (launch : call.IsLaunch) (returns : thread.Returns call) : ¬ thread.Balances call := by
  cases call with
  | request | hardReset => exact launch.elim
  | launch mode range PC residue inputs =>
      rintro ⟨-, released⟩
      have held := (Run.trace_neverBlocks mode
        (Run.launch thread.executor range PC residue) inputs).2
      exact Bool.false_ne_true ((released returns).symm.trans held)

end LockingThread

/-- A sequence of calls that come back keeps the lock balanced exactly when none of them is a
launch: every launch returns with the lock held, whatever its program, its requests and its exit
are. -/
theorem balances_run_iff [Membus μ] (executor : Executor μ) (calls : List LockingCall)
    (returns : (lockingMachine μ).Meets LockingThread.Returns
      { executor, holdsLock := false } calls) :
    (lockingMachine μ).Meets LockingThread.Balances { executor, holdsLock := false } calls ↔
      ∀ call ∈ calls, ¬ call.IsLaunch := by
  rw [← (lockingMachine μ).meets_inputs (fun call => ¬ call.IsLaunch)
    { executor, holdsLock := false }]
  refine (lockingMachine μ).meets_congr_of_meets
    (fun thread call (free : thread.holdsLock = false) comesBack => ?_)
    (fun thread call free _ other => (LockingThread.balances_of_not_launch free other).2)
    _ calls rfl returns
  constructor
  · intro balances launch
    exact LockingThread.not_balances_of_launch launch comesBack balances
  · intro other
    exact (LockingThread.balances_of_not_launch free other).1

/-- A launch on memory filled with an illegal opcode, followed by a request. -/
def launchThenRequest : List LockingCall :=
  [.launch .staged { addrLo := 0, addrLen := 0xFFFF } 0x0200 Loop.zero
      [Input.quiet .nextCycle Locals.zero],
    .request .setIRQ]

/-- The thread returns from the launch with the lock and waits for itself in the request. -/
theorem not_balances_launchThenRequest :
    ¬ (lockingMachine Ram).Meets LockingThread.Balances
        { executor := Executor.alloc Registers.reset (fun _ => 0x02) .base, holdsLock := false }
        launchThenRequest := by
  rintro ⟨-, ⟨⟨free, -⟩, -⟩, -⟩
  revert free
  decide

/-- Requests and a hard reset between them. -/
def requestsAndReset : List LockingCall :=
  [.request .setIRQ, .hardReset, .request (.setDMACopyin { addrLo := 0x3000, addrLen := 1 } none 0)]

/-- Without a launch every call finds the lock free. -/
theorem balances_requestsAndReset :
    (lockingMachine Ram).Meets LockingThread.Balances
      { executor := Executor.alloc Registers.reset (fun _ => 0x02) .base, holdsLock := false }
      requestsAndReset := by
  refine (balances_run_iff _ requestsAndReset ⟨trivial, trivial, trivial, trivial⟩).mpr ?_
  simp [requestsAndReset, LockingCall.IsLaunch]

end System6502
