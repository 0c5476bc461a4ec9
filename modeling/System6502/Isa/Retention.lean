import System6502.Isa.Decode

/-!
# What the instruction functions retain

A staged function keeps its locals between two calls, and from one instruction to the next.  This
file compares the calls of one function from two contents of its locals, whatever bus and
registers each call finds, and shows which functions read a local that the instruction has not
assigned.
-/

namespace System6502

open System6502.Frame

variable {μ γ : Type*}

/-- At most `fuel` calls of a staged function, from `cycle` on, do the same from two contents of
its locals; the locals they end with look the same to an observer. -/
def AlikeWithin (observe : Locals → γ) (handler : Handler μ) :
    Nat → Nat → Locals → Locals → Prop
  | 0, _, _, _ => True
  | fuel + 1, cycle, left, right => ∀ memory registers,
      let leftCall := handler cycle { memory, registers, locals := left }
      let rightCall := handler cycle { memory, registers, locals := right }
      leftCall.1.core = rightCall.1.core ∧ leftCall.2 = rightCall.2 ∧
        if leftCall.2 = .instrEnd then
          observe leftCall.1.locals = observe rightCall.1.locals
        else
          AlikeWithin observe handler fuel (cycle + 1) leftCall.1.locals rightCall.1.locals

/-- The calls of a staged function from `cycle` on do the same from two contents of its
locals. -/
def Alike (observe : Locals → γ) (handler : Handler μ) (cycle : Nat) (left right : Locals) :
    Prop :=
  ∀ fuel, AlikeWithin observe handler fuel cycle left right

/-- Two results of the call before `cycle` agree, and so do all calls after them. -/
structure AlikeCalls (observe : Locals → γ) (handler : Handler μ) (cycle : Nat)
    (left right : Frame μ × Stage) : Prop where
  /-- The calls leave the same bus and registers. -/
  core_eq : left.1.core = right.1.core
  /-- The calls return the same stage. -/
  stage_eq : left.2 = right.2
  /-- The locals look the same at the end of the instruction. -/
  observe_eq : left.2 = .instrEnd → observe left.1.locals = observe right.1.locals
  /-- Otherwise the further calls agree. -/
  further : left.2 ≠ .instrEnd → Alike observe handler cycle left.1.locals right.1.locals

/-- A staged function whose calls do not depend on what its locals hold before the first. -/
def Forgets (observe : Locals → γ) (handler : Handler μ) : Prop :=
  ∀ left right, Alike observe handler 1 left right

section Calls

variable {observe : Locals → γ} {handler : Handler μ} {cycle : Nat} {left right : Locals}

theorem Alike.of_calls
    (calls : ∀ memory registers, AlikeCalls observe handler (cycle + 1)
      (handler cycle { memory, registers, locals := left })
      (handler cycle { memory, registers, locals := right })) :
    Alike observe handler cycle left right := by
  intro fuel
  cases fuel with
  | zero => trivial
  | succ fuel =>
      intro memory registers
      obtain ⟨core_eq, stage_eq, observe_eq, further⟩ := calls memory registers
      refine ⟨core_eq, stage_eq, ?_⟩
      split <;> rename_i ended
      · exact observe_eq ended
      · exact further ended fuel

theorem Alike.calls (alike : Alike observe handler cycle left right) (memory : μ)
    (registers : Registers) :
    AlikeCalls observe handler (cycle + 1)
      (handler cycle { memory, registers, locals := left })
      (handler cycle { memory, registers, locals := right }) := by
  obtain ⟨core_eq, stage_eq, last⟩ := alike 1 memory registers
  refine ⟨core_eq, stage_eq, fun ended => ?_, fun asks fuel => ?_⟩
  · rwa [if_pos ended] at last
  · have longer := (alike (fuel + 1) memory registers).2.2
    rwa [if_neg asks] at longer

theorem Alike.refl (observe : Locals → γ) (handler : Handler μ) (cycle : Nat)
    (locals : Locals) : Alike observe handler cycle locals locals := by
  intro fuel
  induction fuel generalizing cycle locals with
  | zero => trivial
  | succ fuel ih =>
      intro memory registers
      refine ⟨rfl, rfl, ?_⟩
      split
      · rfl
      · exact ih _ _

/-- Both calls end the instruction. -/
theorem AlikeCalls.done {frame other : Frame μ} (core_eq : frame.core = other.core)
    (observe_eq : observe frame.locals = observe other.locals) :
    AlikeCalls observe handler cycle frame.done other.done :=
  ⟨core_eq, rfl, fun _ => observe_eq, fun asks => absurd rfl asks⟩

/-- Both calls ask for another cycle. -/
theorem AlikeCalls.next {frame other : Frame μ} (core_eq : frame.core = other.core)
    (further : Alike observe handler cycle frame.locals other.locals) :
    AlikeCalls observe handler cycle frame.next other.next :=
  ⟨core_eq, rfl, fun ended => Stage.noConfusion ended, fun _ => further⟩

/-- A function that has run out of cases does nothing in any further call. -/
theorem Alike.idle (idle : ∀ later frame, cycle ≤ later → handler later frame = frame.next) :
    Alike observe handler cycle left right := by
  intro fuel
  induction fuel generalizing cycle left right with
  | zero => trivial
  | succ fuel ih =>
      intro memory registers
      dsimp only
      rw [idle cycle _ le_rfl, idle cycle _ le_rfl]
      refine ⟨rfl, rfl, ?_⟩
      rw [if_neg Stage.noConfusion]
      exact ih fun later frame later_le => idle later frame (by omega)

/-- The tail of a staged function reads no more of the locals than the observer sees. -/
theorem Alike.completing {access : Handler μ} {finish : Frame μ → Frame μ} (embed : γ → Locals)
    (reads : ∀ memory registers locals, (finish { memory, registers, locals }).core =
      (finish { memory, registers, locals := embed (observe locals) }).core)
    (alike : Alike observe access cycle left right) :
    Alike (fun _ => ()) (completing access finish) cycle left right := by
  intro fuel
  induction fuel generalizing cycle left right with
  | zero => trivial
  | succ fuel ih =>
      intro memory registers
      obtain ⟨core_eq, stage_eq, observe_eq, further⟩ := alike.calls memory registers
      rcases left_eq : access cycle { memory, registers, locals := left } with ⟨after, stage⟩
      rcases right_eq : access cycle { memory, registers, locals := right } with ⟨other, stage'⟩
      simp only [left_eq, right_eq] at core_eq stage_eq observe_eq further
      subst stage_eq
      dsimp only [System6502.completing]
      rw [left_eq, right_eq]
      cases stage with
      | instrEnd =>
          obtain ⟨memory_eq, registers_eq⟩ := Core.mk.inj core_eq
          refine ⟨?_, rfl, rfl⟩
          calc
            (finish after).core = _ := reads after.memory after.registers after.locals
            _ = _ := by rw [memory_eq, registers_eq, observe_eq rfl]
            _ = (finish other).core := (reads _ _ _).symm
      | nextCycle | execDMA | other => exact ⟨core_eq, rfl, ih (further Stage.noConfusion)⟩

theorem Forgets.completing {access : Handler μ} {finish : Frame μ → Frame μ}
    (forgets : Forgets observe access) (embed : γ → Locals)
    (reads : ∀ memory registers locals, (finish { memory, registers, locals }).core =
      (finish { memory, registers, locals := embed (observe locals) }).core) :
    Forgets (fun _ => ()) (completing access finish) :=
  fun left right => (forgets left right).completing embed reads

/-- Calls that agree end the instruction together, with the same bus and registers. -/
theorem Alike.runCalls (alike : Alike observe handler cycle left right) (fuel : Nat) (memory : μ)
    (registers : Registers) :
    (runCalls handler fuel cycle { memory, registers, locals := left }).map
        (fun outcome => (outcome.1, outcome.2.core, observe outcome.2.locals)) =
      (runCalls handler fuel cycle { memory, registers, locals := right }).map
        (fun outcome => (outcome.1, outcome.2.core, observe outcome.2.locals)) := by
  induction fuel generalizing cycle left right memory registers with
  | zero => rfl
  | succ fuel ih =>
      obtain ⟨core_eq, stage_eq, observe_eq, further⟩ := alike.calls memory registers
      rcases left_eq : handler cycle { memory, registers, locals := left } with ⟨after, stage⟩
      rcases right_eq : handler cycle { memory, registers, locals := right } with ⟨other, stage'⟩
      simp only [left_eq, right_eq] at core_eq stage_eq observe_eq further
      subst stage_eq
      simp only [System6502.runCalls, left_eq, right_eq]
      cases stage with
      | instrEnd => simp only [Option.map_some, core_eq, observe_eq]
      | nextCycle | execDMA | other =>
          obtain ⟨memory_eq, registers_eq⟩ := Core.mk.inj core_eq
          have other_eq : ⟨after.memory, after.registers, other.locals⟩ = other := by
            rw [memory_eq, registers_eq]
          have rest := ih (further Stage.noConfusion) after.memory after.registers
          rwa [other_eq] at rest

/-- Two functions of the registers, of which one ends the instruction. -/
theorem Alike.branch (condition : Registers → Bool) (taken skipped : Handler μ)
    (handler_eq : ∀ frame, handler cycle frame =
      if condition frame.registers then taken cycle frame else skipped cycle frame)
    (takenCalls : ∀ memory registers, AlikeCalls observe handler (cycle + 1)
      (taken cycle { memory, registers, locals := left })
      (taken cycle { memory, registers, locals := right }))
    (skippedCalls : ∀ memory registers, AlikeCalls observe handler (cycle + 1)
      (skipped cycle { memory, registers, locals := left })
      (skipped cycle { memory, registers, locals := right })) :
    Alike observe handler cycle left right := by
  refine .of_calls fun memory registers => ?_
  rw [handler_eq, handler_eq]
  by_cases holds : condition registers
  · rw [if_pos holds, if_pos holds]
    exact takenCalls memory registers
  · rw [if_neg holds, if_neg holds]
    exact skippedCalls memory registers

end Calls

/-! ## Calls with a condition -/

section Conditionals

variable [Membus μ] {observe : Locals → γ} {handler : Handler μ} {cycle : Nat}
  {frame other : Frame μ}

theorem core_readAtADDR16 (core_eq : frame.core = other.core)
    (addr_eq : frame.locals.ADDR16 = other.locals.ADDR16) :
    frame.readAtADDR16.core = other.readAtADDR16.core ∧
      ∃ value, frame.readAtADDR16.locals = { frame.locals with OPERAND := value } ∧
        other.readAtADDR16.locals = { other.locals with OPERAND := value } := by
  obtain ⟨memory_eq, registers_eq⟩ := Core.mk.inj core_eq
  simp only [readAtADDR16, readInto, readThen, addr_eq, memory_eq, Frame.core,
    registers_onLocals, locals_onLocals, registers_eq]
  exact ⟨rfl, _, rfl, rfl⟩

/-- An indexed read that leaves its page is made by the next call. -/
theorem AlikeCalls.readUnlessCrossed (core_eq : frame.core = other.core)
    (addr_eq : frame.locals.ADDR16 = other.locals.ADDR16)
    (preIndex_eq : frame.locals.ADDR16PreIndex = other.locals.ADDR16PreIndex)
    (observe_eq : ∀ value, observe { frame.locals with OPERAND := value } =
      observe { other.locals with OPERAND := value })
    (second : ∀ frame, handler cycle frame = frame.readAtADDR16.done) :
    AlikeCalls observe handler cycle frame.readUnlessCrossed other.readUnlessCrossed := by
  unfold Frame.readUnlessCrossed
  rw [addr_eq, preIndex_eq]
  split
  · obtain ⟨same, value, locals_eq, otherLocals_eq⟩ := core_readAtADDR16 core_eq addr_eq
    exact .done same (by rw [locals_eq, otherLocals_eq, observe_eq])
  · refine .next core_eq (.of_calls fun memory registers => ?_)
    rw [second, second]
    obtain ⟨same, value, locals_eq, otherLocals_eq⟩ := core_readAtADDR16
      (show Frame.core { memory, registers, locals := frame.locals } =
        Frame.core { memory, registers, locals := other.locals } from rfl) addr_eq
    exact .done same (by rw [locals_eq, otherLocals_eq, observe_eq])

omit [Membus μ] in
/-- The last call but one of an arithmetic function on the 65C02. -/
theorem AlikeCalls.doneUnlessBCD (core_eq : frame.core = other.core)
    (isBCD_eq : frame.locals.isBCD = other.locals.isBCD)
    (observe_eq : observe frame.locals = observe other.locals)
    (second : ∀ frame, handler cycle frame = frame.done) :
    AlikeCalls observe handler cycle (doneUnlessBCD frame) (doneUnlessBCD other) := by
  unfold System6502.doneUnlessBCD
  rw [isBCD_eq]
  split
  · refine .next core_eq (.of_calls fun memory registers => ?_)
    rw [second, second]
    exact .done rfl observe_eq
  · exact .done core_eq observe_eq

/-- What an arithmetic function has at the end of its calls. -/
def Locals.addend (locals : Locals) : Word × Bool := (locals.OPERAND, locals.isBCD)

/-- An indexed read of the 65C02's arithmetic, and the two calls that may follow it. -/
theorem AlikeCalls.readTrackingCrossing (core_eq : frame.core = other.core)
    (addr_eq : frame.locals.ADDR16 = other.locals.ADDR16)
    (preIndex_eq : frame.locals.ADDR16PreIndex = other.locals.ADDR16PreIndex)
    (isBCD_eq : frame.locals.isBCD = other.locals.isBCD)
    (second : ∀ frame, handler cycle frame = readIfStillUnset frame)
    (third : ∀ frame, handler (cycle + 1) frame = frame.done) :
    AlikeCalls Locals.addend handler cycle (readTrackingCrossing frame)
      (readTrackingCrossing other) := by
  unfold System6502.readTrackingCrossing
  rw [addr_eq, preIndex_eq]
  split
  · obtain ⟨same, value, locals_eq, otherLocals_eq⟩ := core_readAtADDR16 core_eq addr_eq
    unfold System6502.doneUnlessBCD
    rw [locals_onLocals, locals_onLocals, locals_eq, otherLocals_eq, isBCD_eq]
    split
    · refine .next same (.of_calls fun memory registers => ?_)
      rw [second, second]
      refine .done rfl ?_
      rw [locals_onLocals, locals_onLocals, locals_eq, otherLocals_eq]
      exact Prod.ext rfl isBCD_eq
    · refine .done same ?_
      rw [locals_onLocals, locals_onLocals, locals_eq, otherLocals_eq]
      exact Prod.ext rfl isBCD_eq
  · refine .next core_eq (.of_calls fun memory registers => ?_)
    rw [second, second]
    have unset :
        Frame.core { memory, registers, locals := { frame.locals with isOperandSet := false } } =
          Frame.core
            { memory, registers, locals := { other.locals with isOperandSet := false } } := rfl
    obtain ⟨same, value, locals_eq, otherLocals_eq⟩ := core_readAtADDR16 unset addr_eq
    refine .doneUnlessBCD same isBCD_eq (Prod.ext ?_ isBCD_eq) third
    exact (congrArg Locals.OPERAND locals_eq).trans (congrArg Locals.OPERAND otherLocals_eq).symm

end Conditionals

/-! ## Addressing switches -/

variable [Membus μ]

theorem aluAccess_forgets {mode : AddressingMode} (assigned : mode ∈ operandModes) :
    Forgets Locals.OPERAND (aluAccess (μ := μ) mode) := by
  intro left right
  cases mode with
  | immediate => exact .of_calls fun _ _ => .done rfl rfl
  | zeropage => exact .of_calls fun _ _ => .next rfl (.of_calls fun _ _ => .done rfl rfl)
  | zeropageXIndexed | absolute =>
      exact .of_calls fun _ _ => .next rfl <| .of_calls fun _ _ => .next rfl <|
        .of_calls fun _ _ => .done rfl rfl
  | absoluteXIndexed | absoluteYIndexed =>
      exact .of_calls fun _ _ => .next rfl <| .of_calls fun _ _ => .next rfl <|
        .of_calls fun _ _ => .readUnlessCrossed rfl rfl rfl (fun _ => rfl) fun _ => rfl
  | xIndexedIndirect =>
      exact .of_calls fun _ _ => .next rfl <| .of_calls fun _ _ => .next rfl <|
        .of_calls fun _ _ => .next rfl <| .of_calls fun _ _ => .next rfl <|
          .of_calls fun _ _ => .done rfl rfl
  | indirectYIndexed =>
      exact .of_calls fun _ _ => .next rfl <| .of_calls fun _ _ => .next rfl <|
        .of_calls fun _ _ => .next rfl <|
          .of_calls fun _ _ => .readUnlessCrossed rfl rfl rfl (fun _ => rfl) fun _ => rfl
  | _ => simp [operandModes] at assigned

theorem arithmeticAccess_forgets {mode : AddressingMode} (assigned : mode ∈ operandModes) :
    Forgets Locals.addend (arithmeticAccess (μ := μ) mode) := by
  intro left right
  cases mode with
  | immediate => exact .of_calls fun _ _ => .done rfl rfl
  | zeropage => exact .of_calls fun _ _ => .next rfl <| .of_calls fun _ _ => .done rfl rfl
  | zeropageXIndexed | absolute =>
      exact .of_calls fun _ _ => .next rfl <| .of_calls fun _ _ => .next rfl <|
        .of_calls fun _ _ => .done rfl rfl
  | absoluteXIndexed | absoluteYIndexed =>
      exact .of_calls fun _ _ => .next rfl <| .of_calls fun _ _ => .next rfl <|
        .of_calls fun _ _ => .readUnlessCrossed rfl rfl rfl (fun _ => rfl) fun _ => rfl
  | xIndexedIndirect =>
      exact .of_calls fun _ _ => .next rfl <| .of_calls fun _ _ => .next rfl <|
        .of_calls fun _ _ => .next rfl <| .of_calls fun _ _ => .next rfl <|
        .of_calls fun _ _ => .done rfl rfl
  | indirectYIndexed =>
      exact .of_calls fun _ _ => .next rfl <| .of_calls fun _ _ => .next rfl <|
        .of_calls fun _ _ => .next rfl <|
        .of_calls fun _ _ => .readUnlessCrossed rfl rfl rfl (fun _ => rfl) fun _ => rfl
  | _ => simp [operandModes] at assigned

theorem decimalAccess_forgets {mode : AddressingMode} (assigned : mode ∈ operandModes) :
    Forgets Locals.addend (decimalAccess (μ := μ) mode) := by
  intro left right
  cases mode with
  | immediate => exact .of_calls fun _ _ => .doneUnlessBCD rfl rfl rfl fun _ => rfl
  | zeropage =>
      exact .of_calls fun _ _ => .next rfl <|
        .of_calls fun _ _ => .doneUnlessBCD rfl rfl rfl fun _ => rfl
  | zeropageXIndexed | absolute =>
      exact .of_calls fun _ _ => .next rfl <| .of_calls fun _ _ => .next rfl <|
        .of_calls fun _ _ => .doneUnlessBCD rfl rfl rfl fun _ => rfl
  | absoluteXIndexed | absoluteYIndexed =>
      exact .of_calls fun _ _ => .next rfl <| .of_calls fun _ _ => .next rfl <|
        .of_calls fun _ _ => .readTrackingCrossing rfl rfl rfl rfl (fun _ => rfl) fun _ => rfl
  | xIndexedIndirect =>
      exact .of_calls fun _ _ => .next rfl <| .of_calls fun _ _ => .next rfl <|
        .of_calls fun _ _ => .next rfl <| .of_calls fun _ _ => .next rfl <|
        .of_calls fun _ _ => .doneUnlessBCD rfl rfl rfl fun _ => rfl
  | indirectYIndexed =>
      exact .of_calls fun _ _ => .next rfl <| .of_calls fun _ _ => .next rfl <|
        .of_calls fun _ _ => .next rfl <|
        .of_calls fun _ _ => .readTrackingCrossing rfl rfl rfl rfl (fun _ => rfl) fun _ => rfl
  | _ => simp [operandModes] at assigned

theorem ldaAccess_forgets {mode : AddressingMode} (assigned : mode ∈ operandModes) :
    Forgets Locals.OPERAND (ldaAccess (μ := μ) mode) := by
  intro left right
  cases mode with
  | immediate => exact .of_calls fun _ _ => .done rfl rfl
  | zeropage => exact .of_calls fun _ _ => .next rfl <| .of_calls fun _ _ => .done rfl rfl
  | zeropageXIndexed | absolute =>
      exact .of_calls fun _ _ => .next rfl <| .of_calls fun _ _ => .next rfl <|
        .of_calls fun _ _ => .done rfl rfl
  | absoluteXIndexed | absoluteYIndexed =>
      exact .of_calls fun _ _ => .next rfl <| .of_calls fun _ _ => .next rfl <|
        .of_calls fun _ _ => .readUnlessCrossed rfl rfl rfl (fun _ => rfl) fun _ => rfl
  | xIndexedIndirect =>
      exact .of_calls fun _ _ => .next rfl <| .of_calls fun _ _ => .next rfl <|
        .of_calls fun _ _ => .next rfl <| .of_calls fun _ _ => .next rfl <|
        .of_calls fun _ _ => .done rfl rfl
  | indirectYIndexed =>
      exact .of_calls fun _ _ => .next rfl <| .of_calls fun _ _ => .next rfl <|
        .of_calls fun _ _ => .next rfl <|
        .of_calls fun _ _ => .readUnlessCrossed rfl rfl rfl (fun _ => rfl) fun _ => rfl
  | _ => simp [operandModes] at assigned

theorem cmpAccess_forgets {mode : AddressingMode}
    (fresh : mode ∈ [AddressingMode.immediate, .absoluteXIndexed, .absoluteYIndexed]) :
    Forgets Locals.OPERAND (cmpAccess (μ := μ) mode) := by
  intro left right
  cases mode with
  | immediate => exact .of_calls fun _ _ => .done rfl rfl
  | absoluteXIndexed | absoluteYIndexed =>
      exact .of_calls fun _ _ => .next rfl <| .of_calls fun _ _ => .next rfl <|
        .of_calls fun _ _ => .readUnlessCrossed rfl rfl rfl (fun _ => rfl) fun _ => rfl
  | _ => simp at fresh

theorem indexLoadAccess_forgets {mode : AddressingMode}
    (assigned : mode ∈ [AddressingMode.immediate, .zeropage, .zeropageXIndexed, .absolute,
      .absoluteXIndexed]) :
    Forgets Locals.OPERAND (indexLoadAccess (μ := μ) mode) := by
  intro left right
  cases mode with
  | immediate => exact .of_calls fun _ _ => .done rfl rfl
  | zeropage => exact .of_calls fun _ _ => .next rfl <| .of_calls fun _ _ => .done rfl rfl
  | zeropageXIndexed | absolute =>
      exact .of_calls fun _ _ => .next rfl <| .of_calls fun _ _ => .next rfl <|
        .of_calls fun _ _ => .done rfl rfl
  | absoluteXIndexed =>
      exact .of_calls fun _ _ => .next rfl <| .of_calls fun _ _ => .next rfl <|
        .of_calls fun _ _ => .readUnlessCrossed rfl rfl rfl (fun _ => rfl) fun _ => rfl
  | _ => simp at assigned

theorem indexCompareAccess_forgets {mode : AddressingMode}
    (assigned : mode ∈ [AddressingMode.immediate, .zeropage, .absolute]) :
    Forgets Locals.OPERAND (indexCompareAccess (μ := μ) mode) := by
  intro left right
  cases mode with
  | immediate => exact .of_calls fun _ _ => .done rfl rfl
  | zeropage => exact .of_calls fun _ _ => .next rfl <| .of_calls fun _ _ => .done rfl rfl
  | absolute =>
      exact .of_calls fun _ _ => .next rfl <| .of_calls fun _ _ => .next rfl <|
        .of_calls fun _ _ => .done rfl rfl
  | _ => simp at assigned

theorem bitAccess_forgets {mode : AddressingMode}
    (assigned : mode ∈ [AddressingMode.zeropage, .absolute]) :
    Forgets Locals.OPERAND (bitAccess (μ := μ) mode) := by
  intro left right
  cases mode with
  | zeropage => exact .of_calls fun _ _ => .next rfl <| .of_calls fun _ _ => .done rfl rfl
  | absolute =>
      exact .of_calls fun _ _ => .next rfl <| .of_calls fun _ _ => .next rfl <|
        .of_calls fun _ _ => .done rfl rfl
  | _ => simp at assigned

theorem bitAccess65C02_forgets {mode : AddressingMode}
    (assigned : mode ∈ [AddressingMode.immediate, .zeropage, .zeropageXIndexed, .absolute,
      .absoluteXIndexed]) :
    Forgets Locals.OPERAND (bitAccess65C02 (μ := μ) mode) := by
  intro left right
  cases mode with
  | immediate => exact .of_calls fun _ _ => .done rfl rfl
  | zeropage => exact .of_calls fun _ _ => .next rfl <| .of_calls fun _ _ => .done rfl rfl
  | zeropageXIndexed | absolute =>
      exact .of_calls fun _ _ => .next rfl <| .of_calls fun _ _ => .next rfl <|
        .of_calls fun _ _ => .done rfl rfl
  | absoluteXIndexed =>
      exact .of_calls fun _ _ => .next rfl <| .of_calls fun _ _ => .next rfl <|
        .of_calls fun _ _ => .readUnlessCrossed rfl rfl rfl (fun _ => rfl) fun _ => rfl
  | _ => simp at assigned

theorem staAccess_idle {mode : AddressingMode} {cycle : Nat} (frame : Frame μ)
    (late : 6 ≤ cycle) : staAccess mode cycle frame = frame.next := by
  unfold staAccess
  split <;> first | omega | rfl

theorem staAccess_forgets {mode : AddressingMode}
    (assigned : mode ∈ [AddressingMode.zeropage, .zeropageXIndexed, .absolute, .absoluteXIndexed,
      .absoluteYIndexed, .xIndexedIndirect, .indirectYIndexed]) :
    Forgets Locals.ADDR16 (staAccess (μ := μ) mode) := by
  intro left right
  cases mode with
  | zeropage => exact .of_calls fun _ _ => .next rfl <| .of_calls fun _ _ => .done rfl rfl
  | zeropageXIndexed | absolute =>
      exact .of_calls fun _ _ => .next rfl <| .of_calls fun _ _ => .next rfl <|
        .of_calls fun _ _ => .done rfl rfl
  | absoluteXIndexed | absoluteYIndexed =>
      exact .of_calls fun _ _ => .next rfl <| .of_calls fun _ _ => .next rfl <|
        .of_calls fun _ _ => .next rfl <| .of_calls fun _ _ => .done rfl rfl
  | xIndexedIndirect | indirectYIndexed =>
      exact .of_calls fun _ _ => .next rfl <| .of_calls fun _ _ => .next rfl <|
        .of_calls fun _ _ => .next rfl <| .of_calls fun _ _ => .next rfl <|
        .of_calls fun _ _ => .next rfl <| .idle fun _ frame late =>
          staAccess_idle frame late
  | _ => simp at assigned

theorem aluAccess65C02_forgets {mode : AddressingMode} (assigned : mode ∈ operandModes65C02) :
    Forgets Locals.OPERAND (aluAccess65C02 (μ := μ) mode) := by
  rcases List.mem_cons.mp assigned with rfl | assigned
  · intro left right
    exact .of_calls fun _ _ => .next rfl <| .of_calls fun _ _ => .next rfl <|
      .of_calls fun _ _ => .next rfl <| .of_calls fun _ _ => .done rfl rfl
  · have forgets := aluAccess_forgets (μ := μ) assigned
    cases mode with
    | zeropageIndirect => simp [operandModes] at assigned
    | _ => exact forgets

theorem ldaAccess65C02_forgets {mode : AddressingMode} (assigned : mode ∈ operandModes65C02) :
    Forgets Locals.OPERAND (ldaAccess65C02 (μ := μ) mode) := by
  rcases List.mem_cons.mp assigned with rfl | assigned
  · intro left right
    exact .of_calls fun _ _ => .next rfl <| .of_calls fun _ _ => .next rfl <|
      .of_calls fun _ _ => .next rfl <| .of_calls fun _ _ => .done rfl rfl
  · have forgets := ldaAccess_forgets (μ := μ) assigned
    cases mode with
    | zeropageIndirect => simp [operandModes] at assigned
    | _ => exact forgets

theorem decimalAccess65C02_forgets {mode : AddressingMode}
    (assigned : mode ∈ operandModes65C02) :
    Forgets Locals.addend (decimalAccess (μ := μ) mode) := by
  rcases List.mem_cons.mp assigned with rfl | assigned
  · intro left right
    refine .of_calls fun _ _ => .next rfl <| .idle fun later frame late => ?_
    unfold decimalAccess
    split <;> first | omega | rfl
  · exact decimalAccess_forgets assigned

theorem cmpAccess65C02_forgets {mode : AddressingMode}
    (fresh : mode ∈ [AddressingMode.immediate, .absoluteXIndexed, .absoluteYIndexed]) :
    Forgets Locals.OPERAND (cmpAccess65C02 (μ := μ) mode) := by
  have forgets := cmpAccess_forgets (μ := μ) fresh
  cases mode with
  | zeropageIndirect => simp at fresh
  | _ => exact forgets

/-- `LDX` in any of its modes; it has no case for the two that are indexed by Y. -/
theorem ldxAccess_forgets {mode : AddressingMode}
    (assigned : mode ∈ [AddressingMode.immediate, .zeropage, .zeropageYIndexed, .absolute,
      .absoluteYIndexed]) :
    Forgets Locals.OPERAND (indexLoadAccess (μ := μ) mode) := by
  cases mode with
  | zeropageYIndexed | absoluteYIndexed =>
      intro left right
      refine .idle fun later frame _ => ?_
      unfold indexLoadAccess
      split <;> rfl
  | immediate | zeropage | absolute => exact indexLoadAccess_forgets (by simp)
  | _ => simp at assigned

theorem staAccess65C02_forgets {mode : AddressingMode}
    (assigned : mode ∈ [AddressingMode.zeropage, .zeropageXIndexed, .absolute, .absoluteXIndexed,
      .absoluteYIndexed, .xIndexedIndirect, .indirectYIndexed, .zeropageIndirect]) :
    Forgets Locals.ADDR16 (staAccess65C02 (μ := μ) mode) := by
  by_cases pointer : mode = .zeropageIndirect
  · subst pointer
    intro left right
    exact .of_calls fun _ _ => .next rfl <| .of_calls fun _ _ => .next rfl <|
      .of_calls fun _ _ => .next rfl <| .of_calls fun _ _ => .done rfl rfl
  · have forgets : Forgets Locals.ADDR16 (staAccess (μ := μ) mode) :=
      staAccess_forgets (by simpa [pointer] using assigned)
    cases mode with
    | zeropageIndirect => exact absurd rfl pointer
    | _ => exact forgets

theorem stxAccess_forgets {mode : AddressingMode}
    (assigned : mode ∈ [AddressingMode.zeropage, .zeropageYIndexed, .absolute]) :
    Forgets Locals.ADDR16
      (indexStoreAccess (μ := μ) .zeropageYIndexed Registers.Y mode) := by
  intro left right
  cases mode with
  | zeropage => exact .of_calls fun _ _ => .next rfl <| .of_calls fun _ _ => .done rfl rfl
  | zeropageYIndexed | absolute =>
      exact .of_calls fun _ _ => .next rfl <| .of_calls fun _ _ => .next rfl <|
        .of_calls fun _ _ => .done rfl rfl
  | _ => simp at assigned

theorem styAccess_forgets {mode : AddressingMode}
    (assigned : mode ∈ [AddressingMode.zeropage, .zeropageXIndexed, .absolute]) :
    Forgets Locals.ADDR16
      (indexStoreAccess (μ := μ) .zeropageXIndexed Registers.X mode) := by
  intro left right
  cases mode with
  | zeropage => exact .of_calls fun _ _ => .next rfl <| .of_calls fun _ _ => .done rfl rfl
  | zeropageXIndexed | absolute =>
      exact .of_calls fun _ _ => .next rfl <| .of_calls fun _ _ => .next rfl <|
        .of_calls fun _ _ => .done rfl rfl
  | _ => simp at assigned

theorem stzAccess_forgets {mode : AddressingMode}
    (fresh : mode ∈ [AddressingMode.zeropageXIndexed, .absolute, .absoluteXIndexed]) :
    Forgets Locals.ADDR16 (stzAccess (μ := μ) mode) := by
  intro left right
  cases mode with
  | zeropageXIndexed | absolute =>
      exact .of_calls fun _ _ => .next rfl <| .of_calls fun _ _ => .next rfl <|
        .of_calls fun _ _ => .done rfl rfl
  | absoluteXIndexed =>
      exact .of_calls fun _ _ => .next rfl <| .of_calls fun _ _ => .next rfl <|
        .of_calls fun _ _ => .next rfl <| .of_calls fun _ _ => .done rfl rfl
  | _ => simp at fresh

/-! ## Read-modify-write instructions -/

omit [Membus μ] in
/-- The accumulator cases of the shifts do not read the locals. -/
theorem shiftAccumulator_settles {shift : Registers → Word → ShiftResult}
    (frame other : Frame μ) (core_eq : frame.core = other.core) :
    (shiftAccumulator shift frame).core = (shiftAccumulator shift other).core := by
  obtain ⟨memory, registers, locals⟩ := frame
  obtain ⟨_, _, _⟩ := other
  cases core_eq
  rfl

omit [Membus μ] in
theorem shiftAccumulatorThrough_settles {shift : Registers → Word → ShiftResult}
    (frame other : Frame μ) (core_eq : frame.core = other.core) :
    (shiftAccumulatorThrough shift frame).core = (shiftAccumulatorThrough shift other).core :=
  shiftAccumulator_settles frame other core_eq

theorem stagedShift_forgets (accumulator : Frame μ → Frame μ)
    (settles : ∀ frame other : Frame μ, frame.core = other.core →
      (accumulator frame).core = (accumulator other).core)
    (shift : Registers → Word → ShiftResult) {mode : AddressingMode}
    (assigned : mode ∈ shiftModes) :
    Forgets (fun _ => ()) (stagedShift accumulator shiftAccess shift mode) := by
  intro left right
  cases mode with
  | accumulator => exact .of_calls fun _ _ => .done (settles _ _ rfl) rfl
  | zeropage =>
      exact .of_calls fun _ _ => .next rfl <| .of_calls fun _ _ => .next rfl <|
        .of_calls fun _ _ => .next rfl <| .of_calls fun _ _ => .done rfl rfl
  | zeropageXIndexed | absolute =>
      exact .of_calls fun _ _ => .next rfl <| .of_calls fun _ _ => .next rfl <|
        .of_calls fun _ _ => .next rfl <| .of_calls fun _ _ => .next rfl <|
        .of_calls fun _ _ => .done rfl rfl
  | absoluteXIndexed =>
      exact .of_calls fun _ _ => .next rfl <| .of_calls fun _ _ => .next rfl <|
        .of_calls fun _ _ => .next rfl <| .of_calls fun _ _ => .next rfl <|
        .of_calls fun _ _ => .next rfl <| .of_calls fun _ _ => .done rfl rfl
  | _ => simp [shiftModes] at assigned

/-- The last calls of an indexed 65C02 shift, from locals whose mark is clear. -/
theorem shiftIndexed_alike (accumulator : Frame μ → Frame μ)
    (shift : Registers → Word → ShiftResult) {left right : Locals}
    (addr_eq : left.ADDR16 = right.ADDR16)
    (preIndex_eq : left.ADDR16PreIndex = right.ADDR16PreIndex)
    (unmarked : left.isPenultimate = false) (otherUnmarked : right.isPenultimate = false) :
    Alike (fun _ => ()) (stagedShift accumulator shiftAccess65C02 shift .absoluteXIndexed) 4
      left right := by
  obtain ⟨ADDR16, preIndex⟩ := left
  obtain ⟨_, _⟩ := right
  cases addr_eq
  cases preIndex_eq
  cases unmarked
  cases otherUnmarked
  refine .of_calls fun memory registers => ?_
  change AlikeCalls _ _ _ (shiftTail shift (if _ then _ else _))
    (shiftTail shift (if _ then _ else _))
  by_cases same : preIndex.SamePage ADDR16
  · rw [if_pos same, if_pos same]
    exact .next rfl <| .of_calls fun _ _ => .done rfl rfl
  · rw [if_neg same, if_neg same]
    exact .next rfl <| .of_calls fun _ _ => .next rfl <| .of_calls fun _ _ => .done rfl rfl

theorem stagedShift65C02_forgets (accumulator : Frame μ → Frame μ)
    (settles : ∀ frame other : Frame μ, frame.core = other.core →
      (accumulator frame).core = (accumulator other).core)
    (shift : Registers → Word → ShiftResult) {mode : AddressingMode}
    (assigned : mode ∈ shiftModes) :
    Forgets (fun _ => ()) (stagedShift accumulator shiftAccess65C02 shift mode) := by
  cases mode with
  | absoluteXIndexed =>
      intro left right
      exact .of_calls fun _ _ => .next rfl <| .of_calls fun _ _ => .next rfl <|
        .of_calls fun _ _ => .next rfl <| shiftIndexed_alike accumulator shift rfl rfl rfl rfl
  | accumulator => exact stagedShift_forgets accumulator settles shift assigned
  | zeropage => exact stagedShift_forgets accumulator settles shift assigned
  | zeropageXIndexed => exact stagedShift_forgets accumulator settles shift assigned
  | absolute => exact stagedShift_forgets accumulator settles shift assigned
  | _ => simp [shiftModes] at assigned

theorem adjust_forgets (step : Word) {mode : AddressingMode} (assigned : mode ∈ adjustModes) :
    Forgets (fun _ => ()) (completing (μ := μ) (adjustAccess step mode) storeAdjusted) := by
  intro left right
  cases mode with
  | zeropage =>
      exact .of_calls fun _ _ => .next rfl <| .of_calls fun _ _ => .next rfl <|
        .of_calls fun _ _ => .next rfl <| .of_calls fun _ _ => .done rfl rfl
  | zeropageXIndexed | absolute =>
      exact .of_calls fun _ _ => .next rfl <| .of_calls fun _ _ => .next rfl <|
        .of_calls fun _ _ => .next rfl <| .of_calls fun _ _ => .next rfl <|
        .of_calls fun _ _ => .done rfl rfl
  | absoluteXIndexed =>
      exact .of_calls fun _ _ => .next rfl <| .of_calls fun _ _ => .next rfl <|
        .of_calls fun _ _ => .next rfl <| .of_calls fun _ _ => .next rfl <|
        .of_calls fun _ _ => .next rfl <| .of_calls fun _ _ => .done rfl rfl
  | _ => simp [adjustModes] at assigned

theorem adjust65C02_forgets (step : Word) {mode : AddressingMode}
    (assigned : mode ∈ shiftModes) :
    Forgets (fun _ => ()) (stagedAdjust65C02 (μ := μ) step mode) := by
  intro left right
  cases mode with
  | accumulator => exact .of_calls fun _ _ => .done rfl rfl
  | zeropage =>
      exact .of_calls fun _ _ => .next rfl <| .of_calls fun _ _ => .next rfl <|
        .of_calls fun _ _ => .next rfl <| .of_calls fun _ _ => .done rfl rfl
  | zeropageXIndexed | absolute =>
      exact .of_calls fun _ _ => .next rfl <| .of_calls fun _ _ => .next rfl <|
        .of_calls fun _ _ => .next rfl <| .of_calls fun _ _ => .next rfl <|
        .of_calls fun _ _ => .done rfl rfl
  | absoluteXIndexed =>
      exact .of_calls fun _ _ => .next rfl <| .of_calls fun _ _ => .next rfl <|
        .of_calls fun _ _ => .next rfl <| .of_calls fun _ _ => .next rfl <|
        .of_calls fun _ _ => .next rfl <| .of_calls fun _ _ => .done rfl rfl
  | _ => simp [shiftModes] at assigned

theorem testModify_forgets (operation : Byte → Byte → Byte) {mode : AddressingMode}
    (assigned : mode ∈ [AddressingMode.zeropage, .absolute]) :
    Forgets (fun _ => ()) (stagedTestModify (μ := μ) operation .nextCycle mode) := by
  intro left right
  cases mode with
  | zeropage | absolute =>
      exact .of_calls fun _ _ => .next rfl <| .of_calls fun _ _ => .next rfl <|
        .of_calls fun _ _ => .next rfl <| .of_calls fun _ _ => .done rfl rfl
  | _ => simp at assigned

/-! ## Implied instructions, the stack and control flow -/

omit [Membus μ] in
theorem stagedImplied_forgets (change : Registers → Registers) :
    Forgets (fun _ => ()) (stagedImplied (μ := μ) change) :=
  fun _ _ => .of_calls fun _ _ => .done rfl rfl

theorem stagedPush_forgets (value : Registers → Byte) :
    Forgets (fun _ => ()) (stagedPush (μ := μ) value) := by
  intro left right
  exact .of_calls fun _ _ => .next rfl <| .of_calls fun _ _ => .done rfl rfl

theorem stagedPull_forgets (assign : Byte → Registers → Registers)
    (didSet : Registers → Registers) :
    Forgets (fun _ => ()) (stagedPull (μ := μ) assign didSet) := by
  intro left right
  exact .of_calls fun _ _ => .next rfl <| .of_calls fun _ _ => .next rfl <|
    .of_calls fun _ _ => .done rfl rfl

theorem isa6502PLP_forgets :
    Forgets (fun _ => ()) (isa6502PLP (μ := μ)) := by
  intro left right
  exact .of_calls fun _ _ => .next rfl <| .of_calls fun _ _ => .next rfl <|
    .of_calls fun _ _ => .done rfl rfl

theorem isa6502JSR_forgets :
    Forgets (fun _ => ()) (isa6502JSR (μ := μ)) := by
  intro left right
  exact .of_calls fun _ _ => .next rfl <| .of_calls fun _ _ => .next rfl <|
    .of_calls fun _ _ => .next rfl <| .of_calls fun _ _ => .next rfl <|
    .of_calls fun _ _ => .done rfl rfl

theorem isa6502RTS_forgets :
    Forgets (fun _ => ()) (isa6502RTS (μ := μ)) := by
  intro left right
  exact .of_calls fun _ _ => .next rfl <| .of_calls fun _ _ => .next rfl <|
    .of_calls fun _ _ => .next rfl <| .of_calls fun _ _ => .next rfl <|
    .of_calls fun _ _ => .done rfl rfl

theorem isa6502RTI_forgets :
    Forgets (fun _ => ()) (isa6502RTI (μ := μ)) := by
  intro left right
  exact .of_calls fun _ _ => .next rfl <| .of_calls fun _ _ => .next rfl <|
    .of_calls fun _ _ => .next rfl <| .of_calls fun _ _ => .next rfl <|
    .of_calls fun _ _ => .done rfl rfl

theorem stagedBRK_forgets (inhibit : Registers → Registers) :
    Forgets (fun _ => ()) (stagedBRK (μ := μ) inhibit) := by
  intro left right
  exact .of_calls fun _ _ => .next rfl <| .of_calls fun _ _ => .next rfl <|
    .of_calls fun _ _ => .next rfl <| .of_calls fun _ _ => .next rfl <|
    .of_calls fun _ _ => .next rfl <| .of_calls fun _ _ => .done rfl rfl

theorem jmpAccess_forgets {mode : AddressingMode}
    (assigned : mode ∈ [AddressingMode.absolute, .indirect]) :
    Forgets Locals.ADDR16 (jmpAccess (μ := μ) mode) := by
  intro left right
  cases mode with
  | absolute => exact .of_calls fun _ _ => .next rfl <| .of_calls fun _ _ => .done rfl rfl
  | indirect =>
      exact .of_calls fun _ _ => .next rfl <| .of_calls fun _ _ => .next rfl <|
        .of_calls fun _ _ => .next rfl <| .of_calls fun _ _ => .done rfl rfl
  | _ => simp at assigned

theorem jmpAccess65C02_forgets {mode : AddressingMode}
    (assigned : mode ∈ [AddressingMode.absolute, .indirect, .absoluteXIndexedIndirect]) :
    Forgets Locals.ADDR16 (jmpAccess65C02 (μ := μ) mode) := by
  intro left right
  cases mode with
  | absolute => exact .of_calls fun _ _ => .next rfl <| .of_calls fun _ _ => .done rfl rfl
  | indirect =>
      exact .of_calls fun _ _ => .next rfl <| .of_calls fun _ _ => .next rfl <|
        .of_calls fun _ _ => .next rfl <| .of_calls fun _ _ => .done rfl rfl
  | absoluteXIndexedIndirect =>
      exact .of_calls fun _ _ => .next rfl <| .of_calls fun _ _ => .next rfl <|
        .of_calls fun _ _ => .next rfl <| .of_calls fun _ _ => .next rfl <|
        .of_calls fun _ _ => .done rfl rfl
  | _ => simp at assigned

/-- The second and third cycle of a taken branch, from the same displacement. -/
theorem branchCycles_alike {handler : Handler μ} {left right : Locals}
    (delta_eq : left.DELTA = right.DELTA)
    (third : ∀ left right : Locals, left.ADDR16 = right.ADDR16 →
      Alike (fun _ => ()) handler 3 left right) (memory : μ) (registers : Registers) :
    AlikeCalls (fun _ => ()) handler 3 (branchCycles 2 { memory, registers, locals := left })
      (branchCycles 2 { memory, registers, locals := right }) := by
  let target := registers.PC + left.DELTA.signExtend 16
  have target_eq : registers.PC + right.DELTA.signExtend 16 = target := by rw [← delta_eq]
  by_cases same : target.SamePage registers.PC
  · have first : branchCycles 2 { memory, registers, locals := left } =
        (loadPC (branchTarget { memory, registers, locals := left })).done := if_pos same
    have second : branchCycles 2 { memory, registers, locals := right } =
        (loadPC (branchTarget { memory, registers, locals := right })).done :=
      if_pos (by
        change Word.SamePage (registers.PC + right.DELTA.signExtend 16) registers.PC
        rwa [target_eq])
    rw [first, second]
    refine .done ?_ rfl
    exact congrArg (fun PC => ({ memory, registers := assignPC PC registers } : Core μ))
      target_eq.symm
  · have first : branchCycles 2 { memory, registers, locals := left } =
        (branchTarget { memory, registers, locals := left }).next := if_neg same
    have second : branchCycles 2 { memory, registers, locals := right } =
        (branchTarget { memory, registers, locals := right }).next :=
      if_neg (by
        change ¬ Word.SamePage (registers.PC + right.DELTA.signExtend 16) registers.PC
        rwa [target_eq])
    rw [first, second]
    exact .next rfl (third _ _ target_eq.symm)

theorem branchCycles_forgets : Forgets (fun _ => ()) (branchCycles (μ := μ)) := by
  intro left right
  refine .of_calls fun _ _ => .next rfl (.of_calls (branchCycles_alike rfl ?_))
  intro left right addr_eq
  refine .of_calls fun memory registers => .done ?_ rfl
  exact congrArg (fun PC => (⟨memory, assignPC PC registers⟩ : Core μ)) addr_eq

/-- A conditional branch tests its condition again in every call. -/
theorem stagedBranch_forgets (taken : Registers → Bool) :
    Forgets (fun _ => ()) (stagedBranch (μ := μ) taken) := by
  intro left right
  let skipped : Handler μ := fun _ frame => frame.fetchDELTA.done
  refine .branch taken branchCycles skipped (fun _ => rfl) (fun _ _ => .next rfl ?_)
    fun _ _ => .done rfl rfl
  refine .branch taken branchCycles skipped (fun _ => rfl) (branchCycles_alike rfl ?_)
    fun _ _ => .done rfl rfl
  intro left right addr_eq
  refine .branch taken branchCycles skipped (fun _ => rfl) (fun memory registers => .done ?_ rfl)
    fun _ _ => .done rfl rfl
  exact congrArg (fun PC => (⟨memory, assignPC PC registers⟩ : Core μ)) addr_eq

theorem branchOnSet_forgets (whichBit : Byte) :
    Forgets (fun _ => ()) (stagedBranch (μ := μ) fun registers => registers.getBit whichBit) :=
  stagedBranch_forgets _

theorem branchOnClear_forgets (whichBit : Byte) :
    Forgets (fun _ => ()) (stagedBranch (μ := μ) fun registers => !registers.getBit whichBit) :=
  stagedBranch_forgets _

theorem interruptCycles_forgets (vector : Word) (inhibit : Registers → Registers) :
    Forgets (fun _ => ()) (interruptCycles (μ := μ) vector inhibit) := by
  intro left right
  exact .of_calls fun _ _ => .next rfl <| .of_calls fun _ _ => .next rfl <|
    .of_calls fun _ _ => .next rfl <| .of_calls fun _ _ => .next rfl <|
      .of_calls fun _ _ => .done rfl rfl

/-- An IRQ sequence tests the I bit before each of its cycles. -/
theorem stagedIRQ_forgets (inhibit : Registers → Registers) :
    Forgets (fun _ => ()) (stagedIRQ (μ := μ) inhibit) := by
  intro left right
  let inhibited : Registers → Bool := fun registers => registers.getBit Registers.bitI
  let ended : Handler μ := fun _ frame => frame.done
  let cycles : Handler μ := interruptCycles memoryAddrIRQVector inhibit
  refine .branch inhibited ended cycles (fun _ => rfl) (fun _ _ => .done rfl rfl)
    fun _ _ => .next rfl ?_
  refine .branch inhibited ended cycles (fun _ => rfl) (fun _ _ => .done rfl rfl)
    fun _ _ => .next rfl ?_
  refine .branch inhibited ended cycles (fun _ => rfl) (fun _ _ => .done rfl rfl)
    fun _ _ => .next rfl ?_
  refine .branch inhibited ended cycles (fun _ => rfl) (fun _ _ => .done rfl rfl)
    fun _ _ => .next rfl ?_
  exact .branch inhibited ended cycles (fun _ => rfl) (fun _ _ => .done rfl rfl)
    fun _ _ => .done rfl rfl

/-! ## Which functions read what they find -/

namespace Routine

/-- The assigned modes for which a staged function uses a local that the instruction has not
assigned. -/
def residueModes : Routine → List AddressingMode
  | CMP | CMP65C02 =>
      [.zeropage, .zeropageXIndexed, .absolute, .xIndexedIndirect, .indirectYIndexed,
        .zeropageIndirect]
  | STZ65C02 => [.zeropage]
  | _ => []

/-- In every other mode a staged function forgets what its locals held. -/
theorem staged_forgets (routine : Routine) {mode : AddressingMode}
    (assigned : mode ∈ routine.modes) (fresh : mode ∉ routine.residueModes) :
    Forgets (fun _ => ()) (routine.staged (μ := μ) mode) := by
  let ofOPERAND (OPERAND : Word) : Locals := { Locals.zero with OPERAND }
  let ofAddend (addend : Word × Bool) : Locals :=
    { Locals.zero with OPERAND := addend.1, isBCD := addend.2 }
  let ofADDR16 (ADDR16 : Word) : Locals := { Locals.zero with ADDR16 }
  cases routine with
  | AND | ORA | EOR => exact (aluAccess_forgets assigned).completing ofOPERAND fun _ _ _ => rfl
  | ADC | SBC => exact (arithmeticAccess_forgets assigned).completing ofAddend fun _ _ _ => rfl
  | AND65C02 | ORA65C02 | EOR65C02 =>
      exact (aluAccess65C02_forgets assigned).completing ofOPERAND fun _ _ _ => rfl
  | ADC65C02 | SBC65C02 =>
      exact (decimalAccess65C02_forgets assigned).completing ofAddend fun _ _ _ => rfl
  | LDA => exact (ldaAccess_forgets assigned).completing ofOPERAND fun _ _ _ => rfl
  | LDA65C02 => exact (ldaAccess65C02_forgets assigned).completing ofOPERAND fun _ _ _ => rfl
  | CMP =>
      refine (cmpAccess_forgets ?_).completing ofOPERAND fun _ _ _ => rfl
      simp_all [modes, residueModes, operandModes]
  | CMP65C02 =>
      refine (cmpAccess65C02_forgets ?_).completing ofOPERAND fun _ _ _ => rfl
      simp_all [modes, residueModes, operandModes, operandModes65C02]
  | LDX => exact (ldxAccess_forgets assigned).completing ofOPERAND fun _ _ _ => rfl
  | LDY => exact (indexLoadAccess_forgets assigned).completing ofOPERAND fun _ _ _ => rfl
  | CPX | CPY => exact (indexCompareAccess_forgets assigned).completing ofOPERAND fun _ _ _ => rfl
  | BIT => exact (bitAccess_forgets assigned).completing ofOPERAND fun _ _ _ => rfl
  | BIT65C02 => exact (bitAccess65C02_forgets assigned).completing ofOPERAND fun _ _ _ => rfl
  | STA => exact (staAccess_forgets assigned).completing ofADDR16 fun _ _ _ => rfl
  | STA65C02 => exact (staAccess65C02_forgets assigned).completing ofADDR16 fun _ _ _ => rfl
  | STX => exact (stxAccess_forgets assigned).completing ofADDR16 fun _ _ _ => rfl
  | STY => exact (styAccess_forgets assigned).completing ofADDR16 fun _ _ _ => rfl
  | STZ65C02 =>
      refine (stzAccess_forgets ?_).completing ofADDR16 fun _ _ _ => rfl
      simp_all [modes, residueModes, adjustModes]
  | ASL | ROL => exact stagedShift_forgets _ shiftAccumulatorThrough_settles _ assigned
  | LSR | ROR => exact stagedShift_forgets _ shiftAccumulator_settles _ assigned
  | ASL65C02 | ROL65C02 | ROR65C02 =>
      exact stagedShift65C02_forgets _ shiftAccumulatorThrough_settles _ assigned
  | LSR65C02 => exact stagedShift65C02_forgets _ shiftAccumulator_settles _ assigned
  | INC | DEC => exact adjust_forgets _ assigned
  | INC65C02 | DEC65C02 => exact adjust65C02_forgets _ assigned
  | TSB65C02 | TRB65C02 => exact testModify_forgets _ assigned
  | JMP => exact (jmpAccess_forgets assigned).completing ofADDR16 fun _ _ _ => rfl
  | JMP65C02 => exact (jmpAccess65C02_forgets assigned).completing ofADDR16 fun _ _ _ => rfl
  | JSR => exact isa6502JSR_forgets
  | RTS => exact isa6502RTS_forgets
  | RTI => exact isa6502RTI_forgets
  | BRK | BRK65C02 => exact stagedBRK_forgets _
  | PHA | PHP | PHX65C02 | PHY65C02 => exact stagedPush_forgets _
  | PLA | PLX65C02 | PLY65C02 => exact stagedPull_forgets _ _
  | PLP => exact isa6502PLP_forgets
  | BCS | BEQ | BMI | BVS => exact branchOnSet_forgets _
  | BCC | BNE | BPL | BVC => exact branchOnClear_forgets _
  | BRA65C02 => exact branchCycles_forgets
  | CLC | CLD | CLI | CLV | DEX | DEY | INX | INY | NOP | SEC | SED | SEI | TAX | TAY | TSX | TXA
  | TXS | TYA => exact stagedImplied_forgets _

end Routine

/-- The interrupt sequences forget what their locals held. -/
theorem Interrupt.staged_forgets (interrupt : Interrupt) :
    Forgets (fun _ => ()) (interrupt.staged (μ := μ)) := by
  cases interrupt with
  | IRQ | IRQ65C02 => exact stagedIRQ_forgets _
  | NMI | NMI65C02 => exact interruptCycles_forgets _ _

end System6502
