import System6502.Isa.Straight

/-!
# What the dispatch tables decode

Facts about every slot of both tables, and from them when a staged instruction ends.
-/

namespace System6502

variable {μ : Type*} [Membus μ]

namespace Dispatch

/-- A record of a table: an instruction in one of its modes, or one of the two blank records. -/
def WellFormed (dispatch : Dispatch) : Prop :=
  match dispatch.staged with
  | some routine =>
      dispatch = slot routine dispatch.addressingMode ∧
        dispatch.addressingMode ∈ routine.modes ∧ dispatch.addressingMode ≠ .undefined
  | none => dispatch = unused ∨ dispatch = zero

instance (dispatch : Dispatch) : Decidable dispatch.WellFormed :=
  match staged_eq : dispatch.staged with
  | some _ => decidable_of_iff (_ ∧ _ ∧ _) (by rw [WellFormed, staged_eq])
  | none => decidable_of_iff (_ ∨ _) (by rw [WellFormed, staged_eq])

omit [Membus μ] in
theorem WellFormed.mode_mem {dispatch : Dispatch} (formed : dispatch.WellFormed) {routine : Routine}
    (named : dispatch.staged = some routine) : dispatch.addressingMode ∈ routine.modes := by
  unfold WellFormed at formed
  rw [named] at formed
  exact formed.2.1

end Dispatch

namespace Dialect

/-- An opcode for which the table names an instruction function. -/
def Implements (dialect : Dialect) (opcode : Byte) : Prop :=
  (dialect.lookup opcode).staged.isSome

/-- The opcodes whose low two bits select the block without initialisers. -/
def Blank (opcode : Byte) : Prop := opcode &&& 0x03 = 0x03

instance (opcode : Byte) : Decidable (Blank opcode) :=
  inferInstanceAs (Decidable (opcode &&& 0x03 = 0x03))

/-- The opcodes whose staged function has no ending case for their addressing mode. -/
def endlessOpcodes : Dialect → List Byte
  | base => [0x81, 0x91, 0xB6, 0xBE]
  | cmos => [0x81, 0x91, 0xB6, 0xBE, 0x72, 0xF2]

theorem lookup_wellFormed (dialect : Dialect) :
    ∀ opcode, (dialect.lookup opcode).WellFormed := by
  cases dialect <;> decide +kernel

theorem lookup_blank (dialect : Dialect) :
    ∀ opcode, Blank opcode ↔ dialect.lookup opcode = Dispatch.zero := by
  cases dialect <;> decide +kernel

theorem lookup_endless (dialect : Dialect) :
    ∀ opcode, opcode ∈ dialect.endlessOpcodes ↔
      ∃ routine ∈ (dialect.lookup opcode).staged,
        (dialect.lookup opcode).addressingMode ∈ routine.endlessModes := by
  cases dialect <;> decide +kernel

/-- A record with a defined addressing mode is blank or decodes to a routine in one of its
modes. -/
theorem lookup_cases (dialect : Dialect) (opcode : Byte)
    (defined : (dialect.lookup opcode).addressingMode ≠ .undefined) :
    (Blank opcode ∧ dialect.lookup opcode = Dispatch.zero) ∨
      ∃ routine,
        ¬ Blank opcode ∧
          dialect.lookup opcode =
            Dispatch.slot routine (dialect.lookup opcode).addressingMode ∧
          (dialect.lookup opcode).addressingMode ∈ routine.modes := by
  have formed := dialect.lookup_wellFormed opcode
  have blank := dialect.lookup_blank opcode
  unfold Dispatch.WellFormed at formed
  split at formed
  case h_1 routine staged_eq =>
    refine .inr ⟨routine, ?_, formed.1, formed.2.1⟩
    rw [blank]
    intro zero_eq
    rw [zero_eq] at staged_eq
    cases staged_eq
  case h_2 staged_eq =>
    rcases formed with unused_eq | zero_eq
    · rw [unused_eq] at defined
      exact absurd rfl defined
    · exact .inl ⟨blank.mpr zero_eq, zero_eq⟩

end Dialect

/-- The calls of the staged function of an opcode, seven at most. -/
def Dialect.execute (dialect : Dialect) (opcode : Byte) (frame : Frame μ) :
    Option (Nat × Frame μ) :=
  (dialect.lookup opcode).staged.bind fun routine =>
    runCalls (routine.staged (dialect.lookup opcode).addressingMode) 7 1 frame

theorem Dialect.execute_of_slot {dialect : Dialect} {opcode : Byte} {routine : Routine}
    {mode : AddressingMode} (decoded : dialect.lookup opcode = Dispatch.slot routine mode)
    (assigned : mode ∈ routine.modes) (ends : mode ∉ routine.endlessModes) (frame : Frame μ) :
    dialect.execute opcode frame =
      some ((routine.straight mode frame).2, (routine.straight mode frame).1) := by
  rw [execute, decoded]
  exact routine.staged_performs assigned ends frame

/-! ## When staged instructions end -/

omit [Membus μ] in
theorem completing_nextCycle {access : Handler μ} {finish : Frame μ → Frame μ} {cycle : Nat}
    {frame : Frame μ} (asks : (access cycle frame).2 = .nextCycle) :
    (completing access finish cycle frame).2 = .nextCycle := by
  rcases access_eq : access cycle frame with ⟨after, stage⟩
  rw [access_eq] at asks
  subst asks
  simp only [completing, access_eq]

theorem staAccess_asks {mode : AddressingMode}
    (endless : mode = .xIndexedIndirect ∨ mode = .indirectYIndexed) (cycle : Nat)
    (frame : Frame μ) :
    (staAccess mode cycle frame).2 = .nextCycle := by
  rcases endless with rfl | rfl <;> unfold staAccess <;> split <;> rfl

theorem staAccess65C02_asks {mode : AddressingMode}
    (endless : mode = .xIndexedIndirect ∨ mode = .indirectYIndexed) (cycle : Nat)
    (frame : Frame μ) : (staAccess65C02 mode cycle frame).2 = .nextCycle := by
  have base := staAccess_asks endless cycle frame
  rcases endless with rfl | rfl <;> exact base

theorem indexLoadAccess_asks {mode : AddressingMode}
    (endless : mode = .zeropageYIndexed ∨ mode = .absoluteYIndexed) (cycle : Nat)
    (frame : Frame μ) : (indexLoadAccess mode cycle frame).2 = .nextCycle := by
  rcases endless with rfl | rfl <;> unfold indexLoadAccess <;> split <;> rfl

theorem decimalAccess_asks (cycle : Nat) (frame : Frame μ) :
    (decimalAccess .zeropageIndirect cycle frame).2 = .nextCycle := by
  unfold decimalAccess
  split <;> rfl

/-- In its endless modes a staged function asks for another cycle in every call. -/
theorem Routine.staged_asks (routine : Routine) {mode : AddressingMode}
    (endless : mode ∈ routine.endlessModes) (cycle : Nat) (frame : Frame μ) :
    (routine.staged mode cycle frame).2 = .nextCycle := by
  cases routine with
  | STA =>
      have pointer : mode = .xIndexedIndirect ∨ mode = .indirectYIndexed := by
        simpa [endlessModes] using endless
      exact completing_nextCycle (staAccess_asks pointer cycle frame)
  | STA65C02 =>
      have pointer : mode = .xIndexedIndirect ∨ mode = .indirectYIndexed := by
        simpa [endlessModes] using endless
      exact completing_nextCycle (staAccess65C02_asks pointer cycle frame)
  | LDX =>
      have indexed : mode = .zeropageYIndexed ∨ mode = .absoluteYIndexed := by
        simpa [endlessModes] using endless
      exact completing_nextCycle (indexLoadAccess_asks indexed cycle frame)
  | ADC65C02 | SBC65C02 =>
      obtain rfl : mode = .zeropageIndirect := by simpa [endlessModes] using endless
      exact completing_nextCycle (decimalAccess_asks cycle frame)
  | _ => simp [endlessModes] at endless

theorem Routine.runCalls_of_endless (routine : Routine) {mode : AddressingMode}
    (endless : mode ∈ routine.endlessModes) (fuel cycle : Nat) (frame : Frame μ) :
    runCalls (routine.staged mode) fuel cycle frame = none :=
  runCalls_eq_none (fun later frame _ => routine.staged_asks endless later frame) fuel frame

/-- An instruction has a staged function that ends it within a number of calls. -/
def EndsWithin (limit : Nat) (dispatch : Dispatch) (frame : Frame μ) : Prop :=
  ∃ routine ∈ dispatch.staged, ∃ calls after, calls ≤ limit ∧
    runCalls (routine.staged dispatch.addressingMode) limit 1 frame = some (calls, after)

/-- An instruction has no staged function, or one that no number of calls ends. -/
def NeverEnds (dispatch : Dispatch) (frame : Frame μ) : Prop :=
  ∀ routine ∈ dispatch.staged, ∀ limit,
    runCalls (routine.staged dispatch.addressingMode) limit 1 frame = none

omit [Membus μ] in
theorem runCalls_le {handler : Handler μ} {fuel cycle calls : Nat} {frame after : Frame μ}
    (ended : runCalls handler fuel cycle frame = some (calls, after)) :
    cycle ≤ calls ∧ calls < cycle + fuel := by
  induction fuel generalizing cycle frame with
  | zero => cases ended
  | succ fuel ih =>
      rw [runCalls] at ended
      split at ended
      · simp only [Option.some.injEq, Prod.mk.injEq] at ended
        omega
      · have bounds := ih ended
        omega

namespace Dialect

/-- A staged instruction with a defined addressing mode ends within seven calls exactly when its
opcode is neither in the blank block nor one of the endless opcodes, and in that case only. -/
theorem endsWithin_seven_iff (dialect : Dialect) (opcode : Byte)
    (defined : (dialect.lookup opcode).addressingMode ≠ .undefined) (frame : Frame μ) :
    (EndsWithin 7 (dialect.lookup opcode) frame ↔
        ¬ Blank opcode ∧ opcode ∉ dialect.endlessOpcodes) ∧
      (Blank opcode ∨ opcode ∈ dialect.endlessOpcodes →
        NeverEnds (dialect.lookup opcode) frame) := by
  rcases dialect.lookup_cases opcode defined with
    ⟨blank, zero_eq⟩ | ⟨routine, solid, slot_eq, assigned⟩
  · rw [zero_eq]
    refine ⟨⟨?_, fun decoded => absurd blank decoded.1⟩, fun _ => ?_⟩
    · rintro ⟨routine, staged_eq, -⟩
      cases staged_eq
    · intro routine staged_eq
      cases staged_eq
  · have staged_eq : (dialect.lookup opcode).staged = some routine := by rw [slot_eq]; rfl
    have endless := dialect.lookup_endless opcode
    simp only [staged_eq, Option.mem_def, Option.some.injEq, exists_eq_left'] at endless
    rw [endless]
    constructor
    · constructor
      · rintro ⟨other, other_eq, calls, after, -, ended⟩
        obtain rfl : routine = other := by simpa [staged_eq] using other_eq
        refine ⟨solid, fun mode_endless => ?_⟩
        rw [routine.runCalls_of_endless mode_endless] at ended
        cases ended
      · rintro ⟨-, ends⟩
        have ended := routine.staged_performs assigned ends frame
        exact ⟨routine, staged_eq, _, _, by have := runCalls_le ended; omega, ended⟩
    · rintro (blank | mode_endless) other other_eq limit
      · exact absurd blank solid
      · obtain rfl : routine = other := by simpa [staged_eq] using other_eq
        exact routine.runCalls_of_endless mode_endless limit 1 frame

/-- `LDA #` ends within seven calls. -/
theorem endsWithin_seven_A9 :
    EndsWithin 7 (Dialect.base.lookup 0xA9)
      ({ memory := fun _ => 0, registers := Registers.reset, locals := Locals.zero } :
        Frame Ram) :=
  (endsWithin_seven_iff .base 0xA9 (by decide) _).1.mpr (by decide)

/-- `STA (zp,X)` has a defined addressing mode and never ends. -/
theorem not_endsWithin_seven_81 :
    (Dialect.base.lookup 0x81).addressingMode = .xIndexedIndirect ∧
      ¬ EndsWithin 7 (Dialect.base.lookup 0x81)
        ({ memory := fun _ => 0, registers := Registers.reset, locals := Locals.zero } :
          Frame Ram) := by
  refine ⟨by decide, ?_⟩
  rintro ⟨routine, routine_eq, calls, after, -, ended⟩
  obtain rfl : Routine.STA = routine := Option.some.inj routine_eq
  rw [Routine.STA.runCalls_of_endless (by decide)] at ended
  cases ended

end Dialect
end System6502
