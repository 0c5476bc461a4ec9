import System6502.Membus.References

/-!
# Mirrors

Modules that show another module at a second place, and mirrors of mirrors of any depth.
-/

namespace System6502

variable {σ : Type*}

/-! ## Mirror modules -/

namespace MembusModule

/-- `membus_module_mirror_alloc`, with the memory it asks for; a callback that is a null pointer
cannot be called. -/
def mirror (original : MembusModule σ) (mirrorBaseAddr : Word) : Option (MembusModule σ) :=
  let mirrorEndAddr : BitVec 32 :=
    mirrorBaseAddr.setWidth 32 + original.addrRange.addrLen.setWidth 32 - 1
  let translated (addr : Word) : Word := (addr - mirrorBaseAddr) + original.addrRange.addrLo
  if mirrorEndAddr < 0x00010000 then
    some {
      addrRange := .withLoAndHi mirrorBaseAddr (mirrorEndAddr.setWidth 16)
      readCallback := some fun addr value state =>
        original.readCallback.bind fun callback => callback (translated addr) value state
      writeCallback := some fun addr value state =>
        original.writeCallback.bind fun callback => callback (translated addr) value state }
  else none

/-- The read callback of a module for the address at an offset, if it has one. -/
def readAt (module : MembusModule σ) (offset : Word) :
    Option (Option Byte → σ → Option (OpResult × Byte × σ)) :=
  module.readCallback.map fun callback => callback (module.addrRange.addrLo + offset)

/-- The write callback of a module for the address at an offset, if it has one. -/
def writeAt (module : MembusModule σ) (offset : Word) :
    Option (Byte → σ → Option (OpResult × σ)) :=
  module.writeCallback.map fun callback => callback (module.addrRange.addrLo + offset)

/-- A module is an alias of another: it has the same length, and every access does the same. -/
structure Aliases (original outer : MembusModule σ) : Prop where
  /-- The length. -/
  addrLen_eq : outer.addrRange.addrLen = original.addrRange.addrLen
  /-- The reads. -/
  readAt_eq : ∀ offset < original.addrRange.addrLen, outer.readAt offset = original.readAt offset
  /-- The writes. -/
  writeAt_eq : ∀ offset < original.addrRange.addrLen,
    outer.writeAt offset = original.writeAt offset

/-- The outermost of one or more mirrors over a module. -/
inductive Mirrors (original : MembusModule σ) : MembusModule σ → Prop
  /-- A mirror. -/
  | single {base : Word} {mirror : MembusModule σ}
      (allocated : original.mirror base = some mirror) : Mirrors original mirror
  /-- A mirror of a mirror. -/
  | outer {base : Word} {inner mirror : MembusModule σ} (mirrors : Mirrors original inner)
      (allocated : inner.mirror base = some mirror) : Mirrors original mirror

/-- A call of the read callback of a module for the address at an offset. -/
def readOf (module : MembusModule σ) (offset : Word) (value : Option Byte) (state : σ) :
    Option (OpResult × Byte × σ) :=
  (module.readAt offset).bind fun callback => callback value state

/-- A call of the write callback of a module for the address at an offset. -/
def writeOf (module : MembusModule σ) (offset : Word) (value : Byte) (state : σ) :
    Option (OpResult × σ) :=
  (module.writeAt offset).bind fun callback => callback value state

variable {original outer : MembusModule σ} {base : Word}

theorem length_pos (nonempty : original.addrRange.addrLen ≠ 0) :
    0 < original.addrRange.addrLen.toNat :=
  Nat.pos_of_ne_zero fun zero => nonempty (BitVec.eq_of_toNat_eq zero)

/-- The last address at which a module is mirrored, not cut off. -/
theorem toNat_mirrorEndAddr (nonempty : original.addrRange.addrLen ≠ 0) :
    (base.setWidth 32 + original.addrRange.addrLen.setWidth 32 - (1 : BitVec 32)).toNat + 1 =
      base.toNat + original.addrRange.addrLen.toNat := by
  have := length_pos nonempty
  have := base.isLt
  have := original.addrRange.addrLen.isLt
  rw [BitVec.toNat_sub, BitVec.toNat_add, BitVec.toNat_setWidth, BitVec.toNat_setWidth]
  change (2 ^ 32 - 1 + _ % 2 ^ 32) % 2 ^ 32 + 1 = _
  omega

/-- A mirror is refused exactly when it would pass the end of memory. -/
theorem mirror_eq_none_iff (nonempty : original.addrRange.addrLen ≠ 0) :
    original.mirror base = none ↔
      0x10000 < base.toNat + original.addrRange.addrLen.toNat := by
  have end_eq := @toNat_mirrorEndAddr σ original base nonempty
  rw [mirror]
  split_ifs with fits
  · have fits := BitVec.lt_def.mp fits
    change _ < 65536 at fits
    refine iff_of_false not_false ?_
    omega
  · have beyond := mt BitVec.lt_def.mpr fits
    change ¬ _ < 65536 at beyond
    refine iff_of_true rfl ?_
    omega

/-- What a mirror does, from what its module does. -/
theorem mirror_spec (nonempty : original.addrRange.addrLen ≠ 0)
    (allocated : original.mirror base = some outer) :
    outer.addrRange.addrLen = original.addrRange.addrLen ∧
      ∀ offset, outer.readAt offset = some (original.readOf offset) ∧
        outer.writeAt offset = some (original.writeOf offset) := by
  have end_eq := @toNat_mirrorEndAddr σ original base nonempty
  obtain ⟨fits, mirror_eq⟩ := Option.ite_none_right_eq_some.mp allocated
  obtain rfl := Option.some.inj mirror_eq
  have fits := BitVec.lt_def.mp fits
  change _ < 65536 at fits
  refine ⟨?_, fun offset => ?_⟩
  · refine BitVec.eq_of_toNat_eq ?_
    have := length_pos nonempty
    have := base.isLt
    have := original.addrRange.addrLen.isLt
    change (_ - base + 1 : Word).toNat = _
    rw [BitVec.toNat_add, BitVec.toNat_sub, BitVec.toNat_setWidth]
    change ((2 ^ 16 - base.toNat + _ % 2 ^ 16) % 2 ^ 16 + 1) % 2 ^ 16 = _
    omega
  · have translated : base + offset - base + original.addrRange.addrLo =
        original.addrRange.addrLo + offset := by
      bv_omega
    constructor
    · refine congrArg some ?_
      funext value state
      rw [readOf, readAt, Option.bind_map]
      exact congrArg (fun addr => original.readCallback.bind fun callback =>
        callback addr value state) translated
    · refine congrArg some ?_
      funext value state
      rw [writeOf, writeAt, Option.bind_map]
      exact congrArg (fun addr => original.writeCallback.bind fun callback =>
        callback addr value state) translated

/-- The outermost of any number of mirrors calls the callbacks of the module that they show. -/
theorem Mirrors.spec (mirrors : Mirrors original outer)
    (nonempty : original.addrRange.addrLen ≠ 0) :
    outer.addrRange.addrLen = original.addrRange.addrLen ∧
      ∀ offset, outer.readAt offset = some (original.readOf offset) ∧
        outer.writeAt offset = some (original.writeOf offset) := by
  induction mirrors with
  | single allocated => exact mirror_spec nonempty allocated
  | @outer base inner mirror mirrors allocated ih =>
      obtain ⟨inner_len, inner_calls⟩ := ih
      obtain ⟨mirror_len, mirror_calls⟩ := mirror_spec (inner_len ▸ nonempty) allocated
      refine ⟨mirror_len.trans inner_len, fun offset => ?_⟩
      obtain ⟨inner_read, inner_write⟩ := inner_calls offset
      obtain ⟨mirror_read, mirror_write⟩ := mirror_calls offset
      have read_eq : inner.readOf offset = original.readOf offset := by
        funext value state
        rw [readOf, inner_read]
        rfl
      have write_eq : inner.writeOf offset = original.writeOf offset := by
        funext value state
        rw [writeOf, inner_write]
        rfl
      exact ⟨mirror_read.trans (congrArg some read_eq), mirror_write.trans (congrArg some write_eq)⟩

/-- The outermost of any number of mirrors is an alias of the module that they show exactly when
that module has both callbacks. -/
theorem Mirrors.aliases_iff (mirrors : Mirrors original outer)
    (nonempty : original.addrRange.addrLen ≠ 0) :
    original.Aliases outer ↔
      original.readCallback.isSome = true ∧ original.writeCallback.isSome = true := by
  obtain ⟨addrLen_eq, calls⟩ := mirrors.spec nonempty
  constructor
  · rintro ⟨-, readAt_eq, writeAt_eq⟩
    have first_lt : (0 : Word) < original.addrRange.addrLen := length_pos nonempty
    have read_eq := (readAt_eq 0 first_lt).symm.trans (calls 0).1
    have write_eq := (writeAt_eq 0 first_lt).symm.trans (calls 0).2
    constructor
    · rw [← Option.isSome_map, ← readAt.eq_1, read_eq]
      rfl
    · rw [← Option.isSome_map, ← writeAt.eq_1, write_eq]
      rfl
  · rintro ⟨reads, writes⟩
    obtain ⟨readCallback, read_eq⟩ := Option.isSome_iff_exists.mp reads
    obtain ⟨writeCallback, write_eq⟩ := Option.isSome_iff_exists.mp writes
    refine ⟨addrLen_eq, fun offset _ => (calls offset).1.trans ?_,
      fun offset _ => (calls offset).2.trans ?_⟩
    · have at_eq : original.readAt offset =
          some (readCallback (original.addrRange.addrLo + offset)) := by
        rw [readAt, read_eq]
        rfl
      rw [at_eq]
      refine congrArg some ?_
      funext value state
      rw [readOf, at_eq]
      rfl
    · have at_eq : original.writeAt offset =
          some (writeCallback (original.addrRange.addrLo + offset)) := by
        rw [writeAt, write_eq]
        rfl
      rw [at_eq]
      refine congrArg some ?_
      funext value state
      rw [writeOf, at_eq]
      rfl

end MembusModule

/-! ## Allocation -/

/-- With memory granted, a mirror is refused, and its module not retained, exactly when it would
pass the end of memory. -/
theorem Heap.allocMirror_eq_self_iff {heap : Heap} {module : Nat} {header : ModuleHeader}
    (found : heap.modules module = some header) (nonempty : header.addrRange.addrLen ≠ 0)
    (base : Word) :
    heap.allocMirror true module base = heap ↔
      0x10000 < base.toNat + header.addrRange.addrLen.toNat := by
  have := Nat.pos_of_ne_zero fun zero => nonempty (BitVec.eq_of_toNat_eq zero)
  rw [allocMirror, found]
  dsimp only
  split_ifs with fits
  · refine iff_of_false (fun same => ?_) (by omega)
    have allocated_eq := congrArg Heap.allocated same
    exact absurd allocated_eq (Nat.succ_ne_self _)
  · refine iff_of_true rfl ?_
    by_contra within
    exact fits ⟨by omega, by omega, rfl⟩

namespace MembusModule

/-- Mirrors of a nonempty module, of any depth, are aliases of it exactly when it has both
callbacks; and a mirror is refused, its module not retained, exactly when it would pass the end of
memory. -/
theorem mirrors_exact {σ : Type*} {original : MembusModule σ}
    (nonempty : original.addrRange.addrLen ≠ 0) :
    (∀ {outer}, Mirrors original outer → (original.Aliases outer ↔
      original.readCallback.isSome = true ∧ original.writeCallback.isSome = true)) ∧
    (∀ base, original.mirror base = none ↔
      0x10000 < base.toNat + original.addrRange.addrLen.toNat) ∧
    ∀ (heap : Heap) (module : Nat) (header : ModuleHeader) (base : Word),
      heap.modules module = some header → header.addrRange.addrLen ≠ 0 →
        (heap.allocMirror true module base = heap ↔
          0x10000 < base.toNat + header.addrRange.addrLen.toNat) :=
  ⟨fun mirrors => mirrors.aliases_iff nonempty, fun _ => mirror_eq_none_iff nonempty,
    fun _ _ _ base found nonempty => Heap.allocMirror_eq_self_iff found nonempty base⟩

/-- A port of one byte at `$4000`, with or without a read callback. -/
def port (reads : Bool) : MembusModule Byte where
  addrRange := { addrLo := 0x4000, addrLen := 1 }
  readCallback :=
    if reads then some fun _ value state => value.map fun _ => (.accepted, state, state) else none
  writeCallback := some fun _ value _ => some (.accepted, value)

/-- A mirror of a port with both callbacks. -/
theorem mirrors_port :
    ∃ inner outer, (port true).mirror 0x8000 = some inner ∧ inner.mirror 0xC000 = some outer ∧
      (port true).Aliases outer := by
  have single := Mirrors.single (rfl : (port true).mirror 0x8000 = _)
  have double := Mirrors.outer single (rfl : MembusModule.mirror _ 0xC000 = _)
  exact ⟨_, _, rfl, rfl, ((mirrors_exact (by decide)).1 double).mpr ⟨rfl, rfl⟩⟩

/-- The bus passes over a port without a read callback; its mirror calls a null pointer. -/
theorem not_mirrors_writeOnly :
    ∃ outer, (port false).mirror 0x8000 = some outer ∧ ¬ (port false).Aliases outer := by
  refine ⟨_, rfl, fun aliases => ?_⟩
  have reads := aliases.readAt_eq 0 (by decide)
  cases reads

end MembusModule

end System6502
