import System6502.Membus.Transaction

/-!
# The modules that a transaction calls

The loops of a transaction against a scan of whole lists, and the calls that the modules of a bus
receive when each of them keeps a record.
-/

namespace System6502
namespace Bus

variable {δ σ : Type*}

/-! ## The full scan -/

/-- A transaction in which every module of a list is looked at, wherever it begins. -/
def scan (modules : δ → MembusModule σ) (bus : Bus δ) (operation : Operation) (addr : Word)
    (state : σ) : Except δ (Byte × Bus δ × σ) :=
  match notifyAll modules operation addr operation.preOp (observers bus.preOp) state with
  | .error module => .error module
  | .ok before =>
      match passOn modules operation addr bus.ordinary operation.initial before with
      | .error module => .error module
      | .ok outcome =>
          let served := bus.served operation addr (routeOf outcome)
          let (value, after) := served.getD (outcome.2.1, bus)
          match notifyAll modules operation addr (some value) (observers bus.postOp)
              outcome.2.2 with
          | .error module => .error module
          | .ok state =>
              let cached := { after with cache := after.cache.push value operation }
              .ok (value, if served.isSome && !bus.cacheDisable then cached else after, state)

theorem transact_eq_scan {modules : δ → MembusModule σ} {bus : Bus δ}
    (sorted : bus.Sorted (firsts modules)) (operation : Operation) (addr : Word) (state : σ) :
    bus.transact modules operation addr state = bus.scan modules operation addr state := by
  rw [transact_eq sorted, scan]
  rcases notifyAll modules operation addr operation.preOp (observers bus.preOp) state with
    silent | before
  · rfl
  · dsimp only
    rcases passOn modules operation addr bus.ordinary operation.initial before with
      silent | outcome
    · rfl
    · dsimp only
      rw [conclude]
      dsimp only
      rw [observerLoop_eq _ _ sorted.observers.2]
      rfl

/-! ## Records of calls -/

/-- Devices with the calls that their modules have received, and what they answered, in order. -/
structure Recorded (δ σ : Type*) where
  /-- The devices. -/
  state : σ
  /-- The calls. -/
  calls : List (δ × OpResult)

/-- Add a call to the record. -/
def Recorded.record (recorded : Recorded δ σ) (module : δ) (outcome : OpResult × Byte × σ) :
    OpResult × Byte × Recorded δ σ :=
  (outcome.1, outcome.2.1,
    { state := outcome.2.2, calls := recorded.calls ++ [(module, outcome.1)] })

/-- The modules with callbacks that record that they are called. -/
def recording (modules : δ → MembusModule σ) (module : δ) : MembusModule (Recorded δ σ) where
  addrRange := (modules module).addrRange
  readCallback := (modules module).readCallback.map fun callback addr argument recorded =>
    (callback addr argument recorded.state).map (recorded.record module)
  writeCallback := (modules module).writeCallback.map fun callback addr value recorded =>
    (callback addr value recorded.state).map fun (result, state) =>
      (result, { state, calls := recorded.calls ++ [(module, result)] })

/-- A module has the callback of a transaction. -/
def hasCallback (module : MembusModule σ) : Operation → Bool
  | .read => module.readCallback.isSome
  | .write _ => module.writeCallback.isSome

/-- The modules of a list that include the address and have the callback, in order. -/
def due (modules : δ → MembusModule σ) (operation : Operation) (addr : Word) (list : List δ) :
    List δ :=
  list.filter fun module =>
    (modules module).addrRange.doesInclude addr && hasCallback (modules module) operation

/-- A transaction passed along a list calls its modules up to and including the first one that
answers anything but that it has observed it. -/
inductive PassedAlong : List δ → List (δ × OpResult) → Prop
  | nil : PassedAlong [] []
  | observed (module : δ) {rest : List δ} {calls : List (δ × OpResult)}
      (further : PassedAlong rest calls) :
      PassedAlong (module :: rest) ((module, .observed) :: calls)
  | answered (module : δ) (rest : List δ) {result : OpResult} (other : result ≠ .observed) :
      PassedAlong (module :: rest) [(module, result)]

section Records

variable {modules : δ → MembusModule σ} {operation : Operation} {addr : Word}

theorem handler_recording (module : δ) :
    (recording modules module).handler operation addr =
      ((modules module).handler operation addr).map fun handler argument recorded =>
        (handler argument recorded.state).map (recorded.record module) := by
  unfold MembusModule.handler recording
  dsimp only
  split
  · cases operation with
    | read => simp only [Option.map_map]; rfl
    | write value =>
        simp only [Option.map_map]
        cases (modules module).writeCallback with
        | none => rfl
        | some callback =>
            refine congrArg some (funext fun argument => funext fun recorded => ?_)
            simp only [Function.comp_apply, Option.map_map]
            rfl
  · rfl

theorem answers_recording (module : δ) :
    Answers (recording modules) operation addr module ↔ Answers modules operation addr module := by
  rw [Answers, handler_recording, Option.isSome_map]
  rfl

/-- A module that takes part adds its call to the record. -/
theorem call_recording {module : δ} (answers : Answers modules operation addr module)
    (argument : Option Byte) (recorded : Recorded δ σ) :
    call (recording modules) operation addr module argument recorded =
      (call modules operation addr module argument recorded.state).map
        (recorded.record module) := by
  obtain ⟨handler, handler_eq⟩ := Option.isSome_iff_exists.mp answers
  have recording_eq : (recording modules module).handler operation addr = _ :=
    handler_recording module
  rw [handler_eq, Option.map_some] at recording_eq
  rw [call_eq handler_eq, call_eq recording_eq]
  cases handler argument recorded.state with
  | none => rfl
  | some outcome => rfl

theorem due_cons (module : δ) (list : List δ) :
    due modules operation addr (module :: list) =
      if Answers modules operation addr module then module :: due modules operation addr list
      else due modules operation addr list := by
  have answers_iff : Answers modules operation addr module ↔
      ((modules module).addrRange.doesInclude addr &&
        hasCallback (modules module) operation) = true := by
    unfold Answers MembusModule.handler hasCallback
    split
    · rename_i includes
      rw [includes]
      cases operation <;> simp only [Option.isSome_map, Bool.true_and]
    · rename_i misses
      rw [Bool.eq_false_iff.mpr misses]
      exact Iff.rfl
  rw [due, List.filter_cons]
  exact ite_cond_congr (propext answers_iff.symm)

/-- The calls of a whole list are recorded for the modules that are due. -/
theorem notifyAll_recording {argument : Option Byte} {list : List δ}
    {recorded last : Recorded δ σ}
    (returned : notifyAll (recording modules) operation addr argument list recorded = .ok last) :
    ∃ calls, last.calls = recorded.calls ++ calls ∧
      calls.map Prod.fst = due modules operation addr list := by
  induction list generalizing recorded with
  | nil =>
      cases returned
      exact ⟨[], (List.append_nil _).symm, rfl⟩
  | cons module rest ih =>
      rw [due_cons]
      by_cases answers : Answers modules operation addr module
      · rw [notifyAll, call_recording answers] at returned
        rw [if_pos answers]
        cases called : call modules operation addr module argument recorded.state with
        | error silent =>
            rw [called] at returned
            cases returned
        | ok outcome =>
            rw [called] at returned
            obtain ⟨calls, calls_eq, modules_eq⟩ := ih returned
            refine ⟨(module, outcome.1) :: calls, ?_, congrArg (List.cons module) modules_eq⟩
            exact calls_eq.trans (List.append_assoc _ [(module, outcome.1)] calls)
      · rw [notifyAll, call_of_not_answers (mt (answers_recording module).mp answers)] at returned
        rw [if_neg answers]
        exact ih returned

/-- The calls of a transaction that is passed along are recorded up to the answer. -/
theorem passOn_recording {list : List δ} {value : Byte} {recorded : Recorded δ σ}
    {outcome : OpResult × Byte × Recorded δ σ}
    (returned : passOn (recording modules) operation addr list value recorded = .ok outcome) :
    ∃ calls, outcome.2.2.calls = recorded.calls ++ calls ∧
      PassedAlong (due modules operation addr list) calls := by
  induction list generalizing value recorded with
  | nil =>
      cases returned
      exact ⟨[], (List.append_nil _).symm, .nil⟩
  | cons module rest ih =>
      rw [due_cons]
      by_cases answers : Answers modules operation addr module
      · rw [passOn, call_recording answers] at returned
        rw [if_pos answers]
        cases called : call modules operation addr module (some value) recorded.state with
        | error silent =>
            rw [called] at returned
            cases returned
        | ok answer =>
            obtain ⟨result, left, after⟩ := answer
            rw [called] at returned
            cases result with
            | observed =>
                obtain ⟨calls, calls_eq, passed⟩ := ih returned
                exact ⟨_, calls_eq.trans (List.append_assoc _ [(module, .observed)] calls),
                  .observed module passed⟩
            | accepted =>
                cases returned
                exact ⟨[(module, .accepted)], rfl, .answered module _ (by decide)⟩
            | notAccepted =>
                cases returned
                exact ⟨[(module, .notAccepted)], rfl, .answered module _ (by decide)⟩
      · rw [passOn, call_of_not_answers (mt (answers_recording module).mp answers)] at returned
        rw [if_neg answers]
        exact ih returned

/-- A recording leaves the devices as they are without it. -/
theorem recording_abstracts (modules : δ → MembusModule σ) :
    Abstracts Recorded.state (recording modules) modules where
  range_eq _ := rfl
  call_eq operation addr module argument recorded := by
    by_cases answers : Answers modules operation addr module
    · rw [call_recording answers]
      cases call modules operation addr module argument recorded.state with
      | error silent => rfl
      | ok outcome => rfl
    · rw [call_of_not_answers answers,
        call_of_not_answers (mt (answers_recording module).mp answers)]
      rfl

/-- A transaction that returns has called the modules that are due: all of the pre-op tier, those
of the ordinary tiers up to the answer and all of the post-op tier. -/
theorem transact_recording {bus after : Bus δ} {value : Byte} {state : σ} {last : Recorded δ σ}
    (sorted : bus.Sorted (firsts modules))
    (returned : bus.transact (recording modules) operation addr { state, calls := [] } =
      .ok (value, after, last)) :
    ∃ pre passed post, last.calls = pre ++ passed ++ post ∧
      pre.map Prod.fst = due modules operation addr (observers bus.preOp) ∧
      PassedAlong (due modules operation addr bus.ordinary) passed ∧
      post.map Prod.fst = due modules operation addr (observers bus.postOp) := by
  have recorded_sorted : bus.Sorted (firsts (recording modules)) := sorted
  rw [transact_eq_scan recorded_sorted, scan] at returned
  split at returned
  · cases returned
  · rename_i before preOp
    split at returned
    · cases returned
    · rename_i outcome ordinary
      dsimp only at returned
      split at returned
      · cases returned
      · rename_i final postOp
        cases returned
        obtain ⟨pre, pre_eq, preDue⟩ := notifyAll_recording preOp
        obtain ⟨passed, passed_eq, passedDue⟩ := passOn_recording ordinary
        obtain ⟨post, post_eq, postDue⟩ := notifyAll_recording postOp
        refine ⟨pre, passed, post, ?_, preDue, passedDue, postDue⟩
        rw [post_eq, passed_eq, pre_eq, List.nil_append]

end Records

/-- On a bus that library calls build, a transaction is the full scan; its modules can keep a
record; and the record of a transaction that returns holds the calls of the modules that are due:
all of the pre-op tier, those of the ordinary tiers up to and including the first that answers
anything but that it has observed the transaction, and all of the post-op tier. -/
theorem transact_calls [DecidableEq δ] {modules : δ → MembusModule σ} {bus : Bus δ}
    (configured : Configured modules bus) (operation : Operation) (addr : Word) (state : σ) :
    bus.transact modules operation addr state = bus.scan modules operation addr state ∧
    (bus.transact (recording modules) operation addr { state, calls := [] }).map
        (Prod.map id (Prod.map id Recorded.state)) =
      bus.transact modules operation addr state ∧
    ∀ value after last,
      bus.transact (recording modules) operation addr { state, calls := [] } =
          .ok (value, after, last) →
        ∃ pre passed post, last.calls = pre ++ passed ++ post ∧
          pre.map Prod.fst = due modules operation addr (observers bus.preOp) ∧
          PassedAlong (due modules operation addr bus.ordinary) passed ∧
          post.map Prod.fst = due modules operation addr (observers bus.postOp) := by
  have sorted := configured.sorted
  refine ⟨transact_eq_scan sorted operation addr state, ?_, fun value after last returned =>
    transact_recording sorted returned⟩
  exact (recording_abstracts modules).transact sorted _

/-- Modules of one page, of which those at `$0220` and `$0230` answer every read and the others
observe it. -/
def tapped (module : Word) : MembusModule Unit where
  addrRange := { addrLo := module, addrLen := 0x0100 }
  readCallback := some fun _ argument state =>
    if module = 0x0220 ∨ module = 0x0230 then some (.accepted, 0x42, state)
    else some (.observed, argument.getD 0, state)
  writeCallback := none

/-- An observer in front, three modules in two ordinary tiers and an observer behind them. -/
def tappedBus : Bus Word :=
  [.granted tierPreOp 0x0200, .granted 0 0x0210, .granted 0 0x0220, .granted 1 0x0230,
    .granted tierPostOp 0x0240].foldl (fun bus call => (bus.registerModule (firsts tapped) call).2)
      (.alloc .blank fun _ => 0)

/-- A read that the first ordinary module lets pass and the second answers, so that the third is
not called. -/
theorem transact_calls_tapped :
    tappedBus.transact tapped .read 0x0250 () = tappedBus.scan tapped .read 0x0250 () ∧
    ∃ after last,
      tappedBus.transact (recording tapped) .read 0x0250 { state := (), calls := [] } =
          .ok (0x42, after, last) ∧
        last.calls = [(0x0200, .observed), (0x0210, .observed), (0x0220, .accepted),
          (0x0240, .observed)] ∧
        ∃ pre passed post, last.calls = pre ++ passed ++ post ∧
          pre.map Prod.fst = [0x0200] ∧ PassedAlong [0x0210, 0x0220, 0x0230] passed ∧
          post.map Prod.fst = [0x0240] := by
  have configured : Configured tapped tappedBus :=
    .register _ (.register _ (.register _ (.register _ (.register _ (.alloc _ _)))))
  obtain ⟨scan_eq, -, recorded⟩ := transact_calls configured .read 0x0250 ()
  have returned : tappedBus.transact (recording tapped) .read 0x0250 { state := (), calls := [] } =
      .ok (0x42, _, _) := rfl
  exact ⟨scan_eq, _, _, returned, rfl, recorded _ _ _ returned⟩

end Bus
end System6502
