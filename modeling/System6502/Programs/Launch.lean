import System6502.Executor.FlatMemory
import System6502.Programs.Processor

/-!
# Launching a program

What a launch of the executor makes of a program that a run of the processor takes to its end.
-/

namespace System6502

open Lib

variable {δ : Type*} [DecidableEq δ] {kinds : δ → StorageKind}

namespace Programs

/-- From every state in which the program is in memory and `start` holds, a run takes the processor
to the end of the program, with a relation between the two states and the cycles between them. -/
def Image.Completes (image : Image) (start : Core Ram → Prop)
    (post : Core Ram → Nat → Core Ram → Prop) : Prop :=
  ∀ core : Core Ram, image.InMemory core.memory → start core →
    (Processor.of { core.registers with PC := image.start } core.memory).Runs image 0
      fun cycles final => final.PC.toNat = image.limit ∧ post core cycles (final.core image)

/-- A byte that a program has not changed is what it was. -/
theorem Image.InMemory.kept {image : Image} {memory data : Ram} {address : Word}
    (inMemory : image.InMemory memory) (same : data address = memory address) :
    image.laidOver data address = memory address := by
  rw [Image.laidOver, same]
  exact congrFun inMemory.laidOver_eq address

/-- A reset executor of the base dialect on the default components, with a program in memory. -/
def Image.machine (image : Image) (data : Ram) :
    Executor (DeviceBus (Bus.storageModule fun _ : Unit => .std64k)) :=
  Executor.alloc Registers.reset
    (DeviceBus.default MembusCache.blank fun address =>
      image.bytes[(address - image.start).toNat]?.getD (data address))
    .base

theorem Image.inMemory_machine {image : Image} (data : Ram)
    (fits : image.start.toNat + image.bytes.length ≤ 0xFFFF) :
    image.InMemory (image.machine data).memory.bytes := by
  intro index byte byte_mem
  have index_lt : index < image.bytes.length := by
    by_contra beyond
    rw [List.getElem?_eq_none (by omega)] at byte_mem
    cases byte_mem
  have place : (image.start + BitVec.ofNat 16 index - image.start).toNat = index := by
    rw [BitVec.add_comm, BitVec.add_sub_cancel, BitVec.toNat_ofNat, Nat.mod_eq_of_lt (by omega)]
  have ordinary : image.start + BitVec.ofNat 16 index ≠ 0xFFFF := by
    intro last
    have := congrArg BitVec.toNat last
    rw [BitVec.toNat_add, BitVec.toNat_ofNat, Nat.mod_eq_of_lt (by omega : index < 2 ^ 16),
      Nat.mod_eq_of_lt (by omega)] at this
    simp at this
    omega
  refine (DeviceBus.bytes_default _ _ _).trans ?_
  rw [if_neg ordinary, place, Option.mem_def.mp byte_mem]
  rfl

end Programs

namespace RunLoop

open Programs

/-- A staged launch on read-write storage modules that back every address, none of them in the
pre-op tier, takes a program to the end that a run of the processor takes it to. -/
theorem execute_program {image : Image} {start : Core Ram → Prop}
    {post : Core Ram → Nat → Core Ram → Prop} (completes : image.Completes start post)
    {loop : RunLoop} (staged : loop.mode = .staged)
    {executor : Executor (DeviceBus (Bus.storageModule kinds))} (full : executor.memory.Full)
    (base : executor.dialect = .base) (inMemory : image.InMemory executor.memory.bytes)
    (ready : start executor.flattened.core) (residue : Loop) :
    ∃ steps, ∀ inputs : List Input, (∀ input ∈ inputs, input.requests = []) →
      steps ≤ inputs.length →
        let outcome := (loop.execute executor image.range image.start residue inputs).1
        outcome.location = .returned ∧ outcome.executor.memory.Full ∧
          post executor.flattened.core outcome.loop.totalCycles
            outcome.executor.flattened.core := by
  obtain ⟨cycles, final, leads, limit_eq, holds⟩ := completes executor.flattened.core inMemory ready
  have start_eq : (Processor.of { executor.flattened.core.registers with PC := image.start }
      executor.flattened.core.memory).core image =
        (Run.launch executor.flattened image.range image.start residue).executor.core := by
    rw [Processor.core, Processor.registers_of]
    exact congrArg (Core.mk · _) inMemory.laidOver_eq
  rw [← base, start_eq] at leads
  have launchLeads : (machineCode Ram executor.dialect image.limit).Leads
      (Run.launch executor.flattened image.range image.start residue).executor.resting.toCore
      cycles (final.core image) := leads
  obtain ⟨after, retentive, after_eq⟩ := Resting.leads_of_core launchLeads
  have returns : image.limit ≤ after.registers.PC.toNat := by
    rw [after_eq]
    exact limit_eq.ge
  have stops : (retentiveCode Ram executor.dialect image.limit).Final after :=
    if_neg (Nat.not_lt.mpr returns)
  obtain ⟨steps, fated⟩ := Run.launch_fate executor.flattened image.range image.start residue
    retentive stops
  refine ⟨steps + 2, fun inputs quiet enough => ?_⟩
  obtain ⟨flat_eq, -, kept⟩ :=
    loop.execute_flat executor full image.range image.start residue inputs
  obtain ⟨-, location_eq, outcome_eq⟩ := fated inputs quiet enough
  obtain ⟨resting_eq, cycles_eq⟩ := outcome_eq returns
  have core_eq := (congrArg Resting.toCore resting_eq).trans after_eq
  change _ = final.core image at core_eq
  rw [staged] at flat_eq
  rw [← flat_eq] at location_eq core_eq cycles_eq
  refine ⟨location_eq.trans (if_pos returns), kept, ?_⟩
  rw [Nat.zero_add, ← cycles_eq, ← core_eq] at holds
  exact holds

end RunLoop
end System6502
