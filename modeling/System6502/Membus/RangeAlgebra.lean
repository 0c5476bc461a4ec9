import System6502.Membus.Range

/-!
# The algebra of address ranges

`memory_addr_range_do_intersect`, `memory_addr_range_intersection` and `memory_addr_range_union`
beside `memory_addr_range_does_include`.  The three compute the last address of a range in 16 bits,
where it comes out below the first one for a range that passes the end of memory.
-/

namespace System6502
namespace MemoryAddrRange

/-! ## The operations -/

/-- `memory_addr_range_undef`. -/
def undef : MemoryAddrRange where
  addrLo := 0x0000
  addrLen := 0x0000

/-- The `uint16_t` that the operations take for the last address of a range. -/
def lastAddr (range : MemoryAddrRange) : Word := range.addrLo + range.addrLen - 1

/-- `memory_addr_range_do_intersect`. -/
def doIntersect (r1 r2 : MemoryAddrRange) : Bool :=
  if r2.addrLen ≠ 0 ∧ r1.addrLen ≠ 0 then
    if r2.addrLo ≤ r1.addrLo then decide (r2.lastAddr ≥ r1.addrLo)
    else decide (r1.lastAddr ≥ r2.addrLo)
  else false

/-- `memory_addr_range_intersection`. -/
def intersection (r1 r2 : MemoryAddrRange) : MemoryAddrRange :=
  if r2.addrLen ≠ 0 ∧ r1.addrLen ≠ 0 then
    if r2.addrLo ≤ r1.addrLo then
      if r2.lastAddr ≥ r1.addrLo then
        { addrLo := r1.addrLo
          addrLen :=
            (if r2.lastAddr ≤ r1.lastAddr then r2.lastAddr else r1.lastAddr) - r1.addrLo + 1 }
      else undef
    else if r1.lastAddr ≥ r2.addrLo then
      { addrLo := r2.addrLo
        addrLen :=
          (if r1.lastAddr ≤ r2.lastAddr then r1.lastAddr else r2.lastAddr) - r2.addrLo + 1 }
    else undef
  else undef

/-- `memory_addr_range_union`. -/
def union (r1 r2 : MemoryAddrRange) : MemoryAddrRange :=
  if r2.addrLen ≠ 0 ∧ r1.addrLen ≠ 0 then
    if r2.addrLo ≤ r1.addrLo then
      if r2.lastAddr ≥ r1.addrLo then
        { addrLo := r2.addrLo
          addrLen :=
            (if r2.lastAddr ≤ r1.lastAddr then r1.lastAddr else r2.lastAddr) - r2.addrLo + 1 }
      else undef
    else if r1.lastAddr ≥ r2.addrLo then
      { addrLo := r1.addrLo
        addrLen :=
          (if r1.lastAddr ≤ r2.lastAddr then r2.lastAddr else r1.lastAddr) - r1.addrLo + 1 }
    else undef
  else undef

/-! ## Membership -/

/-- The address after the last one of a range, which is not cut off. -/
def limit (range : MemoryAddrRange) : Nat := range.addrLo.toNat + range.addrLen.toNat

theorem doesInclude_iff (range : MemoryAddrRange) (address : Word) :
    range.doesInclude address = true ↔
      range.addrLo.toNat ≤ address.toNat ∧ address.toNat < range.limit := by
  simp only [doesInclude, limit, Bool.and_eq_true, bne_iff_ne, ne_eq, decide_eq_true_eq,
    BitVec.le_def]
  constructor
  · rintro ⟨⟨-, starts⟩, ends⟩
    exact ⟨starts, ends⟩
  · rintro ⟨starts, ends⟩
    refine ⟨⟨fun empty => ?_, starts⟩, ends⟩
    rw [empty] at ends
    exact absurd ends (Nat.not_lt.mpr starts)

theorem not_doesInclude_undef (address : Word) : undef.doesInclude address = false := by
  rw [Bool.eq_false_iff]
  intro includes
  exact absurd ((doesInclude_iff _ _).mp includes).2 (Nat.not_lt_zero _)

/-- A range from one address to another, both inclusive, includes what lies between them, unless
it is all of memory. -/
theorem doesInclude_between {first last : Word} (ordered : first ≤ last)
    (proper : ¬ (first = 0 ∧ last = 0xFFFF)) (address : Word) :
    ({ addrLo := first, addrLen := last - first + 1 } : MemoryAddrRange).doesInclude address =
        true ↔ first.toNat ≤ address.toNat ∧ address.toNat ≤ last.toNat := by
  exact (doesInclude_withLoAndHi ordered proper address).trans
    (and_congr BitVec.le_def BitVec.le_def)

theorem toNat_lastAddr {range : MemoryAddrRange} (nonempty : range.addrLen ≠ 0)
    (within : range.limit ≤ 0x10000) : range.lastAddr.toNat + 1 = range.limit := by
  have positive : range.addrLen.toNat ≠ 0 := fun zero => nonempty (BitVec.eq_of_toNat_eq zero)
  unfold limit at within ⊢
  unfold lastAddr
  bv_omega

theorem lastAddr_lt {range : MemoryAddrRange} (passes : 0x10000 < range.limit) :
    range.lastAddr < range.addrLo := by
  unfold limit at passes
  unfold lastAddr
  bv_omega

/-! ## Two ranges in order -/

/-- Whether a range reaches one that begins no earlier, by its 16-bit last address. -/
def Reaches (first second : MemoryAddrRange) : Prop := second.addrLo ≤ first.lastAddr

instance (first second : MemoryAddrRange) : Decidable (first.Reaches second) :=
  inferInstanceAs (Decidable (_ ≤ _))

/-- The intersection of two ranges of which the second begins no earlier. -/
def overlap (first second : MemoryAddrRange) : MemoryAddrRange :=
  if first.Reaches second then
    { addrLo := second.addrLo
      addrLen :=
        (if first.lastAddr ≤ second.lastAddr then first.lastAddr else second.lastAddr) -
          second.addrLo + 1 }
  else undef

/-- The union of two ranges of which the second begins no earlier. -/
def span (first second : MemoryAddrRange) : MemoryAddrRange :=
  if first.Reaches second then
    { addrLo := first.addrLo
      addrLen :=
        (if first.lastAddr ≤ second.lastAddr then second.lastAddr else first.lastAddr) -
          first.addrLo + 1 }
  else undef

/-- Some address is in both ranges. -/
def Meet (r1 r2 : MemoryAddrRange) : Prop :=
  ∃ address, r1.doesInclude address = true ∧ r2.doesInclude address = true

/-- The three operations on two ranges agree with membership. -/
structure Agrees (r1 r2 : MemoryAddrRange) : Prop where
  /-- Whether the ranges intersect. -/
  doIntersect_iff : r1.doIntersect r2 = true ↔ r1.Meet r2
  /-- Their intersection. -/
  intersection_iff : ∀ address, (r1.intersection r2).doesInclude address = true ↔
    r1.doesInclude address = true ∧ r2.doesInclude address = true
  /-- Their union, when they intersect. -/
  union_iff : r1.Meet r2 → ∀ address, (r1.union r2).doesInclude address = true ↔
    r1.doesInclude address = true ∨ r2.doesInclude address = true

/-- The same of two ranges of which the second begins no earlier. -/
structure AgreesInOrder (first second : MemoryAddrRange) : Prop where
  reaches_iff : first.Reaches second ↔ first.Meet second
  overlap_iff : ∀ address, (first.overlap second).doesInclude address = true ↔
    first.doesInclude address = true ∧ second.doesInclude address = true
  span_iff : first.Meet second → ∀ address, (first.span second).doesInclude address = true ↔
    first.doesInclude address = true ∨ second.doesInclude address = true

/-- A range that begins no later than another ends before it, or ends with the memory, or both end
within memory and do not make up all of it. -/
def Manageable (first second : MemoryAddrRange) : Prop :=
  first.limit ≤ second.addrLo.toNat ∨ first.limit = 0x10000 ∨
    first.limit ≤ 0x10000 ∧ second.limit ≤ 0x10000 ∧
      ¬ (first.addrLo = 0 ∧ second.limit = 0x10000)

section InOrder

variable {first second : MemoryAddrRange}

theorem addrLo_lt_limit {range : MemoryAddrRange} (nonempty : range.addrLen ≠ 0) :
    range.addrLo.toNat < range.limit := by
  have positive : range.addrLen.toNat ≠ 0 := fun zero => nonempty (BitVec.eq_of_toNat_eq zero)
  unfold limit
  omega

theorem doesInclude_addrLo {range : MemoryAddrRange} (nonempty : range.addrLen ≠ 0) :
    range.doesInclude range.addrLo = true :=
  (doesInclude_iff _ _).mpr ⟨Nat.le_refl _, addrLo_lt_limit nonempty⟩

/-- Two ranges meet just where the second begins, if they meet at all. -/
theorem meet_iff (nonempty : second.addrLen ≠ 0) (ordered : first.addrLo ≤ second.addrLo) :
    first.Meet second ↔ second.addrLo.toNat < first.limit := by
  constructor
  · rintro ⟨address, inFirst, inSecond⟩
    have ends := ((doesInclude_iff _ _).mp inFirst).2
    have begins := ((doesInclude_iff _ _).mp inSecond).1
    omega
  · intro ends
    exact ⟨second.addrLo, (doesInclude_iff _ _).mpr ⟨BitVec.le_def.mp ordered, ends⟩,
      doesInclude_addrLo nonempty⟩

/-- Within memory, a range reaches another exactly when they meet. -/
theorem reaches_iff_lt (nonempty : first.addrLen ≠ 0) (within : first.limit ≤ 0x10000) :
    first.Reaches second ↔ second.addrLo.toNat < first.limit := by
  have last := toNat_lastAddr nonempty within
  rw [Reaches, BitVec.le_def]
  omega

theorem not_reaches (ordered : first.addrLo ≤ second.addrLo) (passes : 0x10000 < first.limit) :
    ¬ first.Reaches second := by
  have last := lastAddr_lt passes
  unfold Reaches
  bv_omega

/-- Where the second range ends the sooner, or passes the end of memory, the intersection that is
computed is the second range. -/
theorem overlap_eq_second (reaches : first.Reaches second)
    (sooner : second.lastAddr ≤ first.lastAddr) : first.overlap second = second := by
  have length : second.lastAddr - second.addrLo + 1 = second.addrLen := by
    unfold lastAddr
    bv_omega
  unfold overlap
  rw [if_pos reaches]
  by_cases tie : first.lastAddr ≤ second.lastAddr
  · rw [if_pos tie, BitVec.le_antisymm tie sooner, length]
  · rw [if_neg tie, length]

theorem span_eq_first (reaches : first.Reaches second)
    (sooner : second.lastAddr ≤ first.lastAddr) : first.span second = first := by
  have length : first.lastAddr - first.addrLo + 1 = first.addrLen := by
    unfold lastAddr
    bv_omega
  unfold span
  rw [if_pos reaches]
  by_cases tie : first.lastAddr ≤ second.lastAddr
  · rw [if_pos tie, BitVec.le_antisymm sooner tie, length]
  · rw [if_neg tie, length]

theorem AgreesInOrder.of_apart (nonempty : first.addrLen ≠ 0) (nonempty' : second.addrLen ≠ 0)
    (ordered : first.addrLo ≤ second.addrLo) (apart : first.limit ≤ second.addrLo.toNat) :
    AgreesInOrder first second := by
  have second_lt := second.addrLo.isLt
  have noReach : ¬ first.Reaches second := by
    rw [reaches_iff_lt nonempty (by omega)]
    exact Nat.not_lt.mpr apart
  have noMeet : ¬ first.Meet second := by
    rw [meet_iff nonempty' ordered]
    exact Nat.not_lt.mpr apart
  refine ⟨iff_of_false noReach noMeet, fun address => ?_, fun meets => absurd meets noMeet⟩
  rw [overlap, if_neg noReach, not_doesInclude_undef]
  exact iff_of_false Bool.false_ne_true fun both => noMeet ⟨address, both⟩

/-- With a range that ends with the memory, the second range is the intersection and the first one
the union, whether or not the second passes the end. -/
theorem AgreesInOrder.of_top (nonempty : first.addrLen ≠ 0) (nonempty' : second.addrLen ≠ 0)
    (ordered : first.addrLo ≤ second.addrLo) (top : first.limit = 0x10000) :
    AgreesInOrder first second := by
  have last := toNat_lastAddr nonempty (Nat.le_of_eq top)
  have meets : second.addrLo.toNat < first.limit := top ▸ second.addrLo.isLt
  have reaches := (reaches_iff_lt nonempty (Nat.le_of_eq top)).mpr meets
  have sooner : second.lastAddr ≤ first.lastAddr := by
    have second_lt := second.lastAddr.isLt
    rw [BitVec.le_def]
    omega
  have within : ∀ address, second.doesInclude address = true →
      first.doesInclude address = true := by
    intro address included
    have begins := ((doesInclude_iff _ _).mp included).1
    have address_lt := address.isLt
    exact (doesInclude_iff _ _).mpr ⟨(BitVec.le_def.mp ordered).trans begins, by omega⟩
  refine ⟨iff_of_true reaches ((meet_iff nonempty' ordered).mpr meets), fun address => ?_,
    fun _ address => ?_⟩
  · rw [overlap_eq_second reaches sooner]
    exact (and_iff_right_of_imp (within address)).symm
  · rw [span_eq_first reaches sooner]
    exact (or_iff_left_of_imp (within address)).symm

theorem AgreesInOrder.of_within (nonempty : first.addrLen ≠ 0) (nonempty' : second.addrLen ≠ 0)
    (ordered : first.addrLo ≤ second.addrLo) (meets : second.addrLo.toNat < first.limit)
    (below : first.limit < 0x10000) (within : second.limit ≤ 0x10000)
    (proper : ¬ (first.addrLo = 0 ∧ second.limit = 0x10000)) :
    AgreesInOrder first second := by
  have first_lt := addrLo_lt_limit nonempty
  have second_lt := addrLo_lt_limit nonempty'
  have firstLast := toNat_lastAddr nonempty below.le
  have secondLast := toNat_lastAddr nonempty' within
  have reaches := (reaches_iff_lt nonempty below.le).mpr meets
  have ordered' := BitVec.le_def.mp ordered
  have notZero : first.addrLo.toNat = 0 → first.addrLo = 0 := fun zero => BitVec.eq_of_toNat_eq zero
  refine ⟨iff_of_true reaches ((meet_iff nonempty' ordered).mpr meets), fun address => ?_,
    fun _ address => ?_⟩
  · rw [overlap, if_pos reaches, doesInclude_between, doesInclude_iff, doesInclude_iff]
    · split <;> rename_i tie <;> rw [BitVec.le_def] at tie <;> omega
    · rw [BitVec.le_def]
      split <;> omega
    · rintro ⟨-, ends⟩
      have ends_toNat := congrArg BitVec.toNat ends
      rw [apply_ite BitVec.toNat] at ends_toNat
      change _ = 65535 at ends_toNat
      split at ends_toNat <;> rename_i tie <;> rw [BitVec.le_def] at tie <;> omega
  · rw [span, if_pos reaches, doesInclude_between, doesInclude_iff, doesInclude_iff]
    · split <;> rename_i tie <;> rw [BitVec.le_def] at tie <;> omega
    · rw [BitVec.le_def]
      split <;> omega
    · rintro ⟨zero, ends⟩
      have ends_toNat := congrArg BitVec.toNat ends
      rw [apply_ite BitVec.toNat] at ends_toNat
      change _ = 65535 at ends_toNat
      refine proper ⟨zero, ?_⟩
      split at ends_toNat <;> omega

/-- Outside these cases the operations fail: a range that passes the end is not seen to reach
another, a second range that passes it is taken for the intersection, and all of memory is taken
for nothing. -/
theorem AgreesInOrder.manageable (nonempty : first.addrLen ≠ 0) (nonempty' : second.addrLen ≠ 0)
    (ordered : first.addrLo ≤ second.addrLo) (agrees : AgreesInOrder first second) :
    first.Manageable second := by
  by_contra unmanageable
  simp only [Manageable, not_or] at unmanageable
  obtain ⟨notApart, notTop, notWithin⟩ := unmanageable
  have meets : first.Meet second := (meet_iff nonempty' ordered).mpr (Nat.lt_of_not_le notApart)
  have reaches := agrees.reaches_iff.mpr meets
  have first_le : first.limit ≤ 0x10000 := by
    by_contra passes
    exact not_reaches ordered (Nat.lt_of_not_le passes) reaches
  have firstLast := toNat_lastAddr nonempty first_le
  by_cases second_le : second.limit ≤ 0x10000
  · obtain ⟨zero, top⟩ : first.addrLo = 0 ∧ second.limit = 0x10000 := by
      by_contra improper
      exact notWithin ⟨first_le, second_le, improper⟩
    have secondLast := toNat_lastAddr nonempty' second_le
    have last_eq : second.lastAddr = 0xFFFF := BitVec.eq_of_toNat_eq (by
      change _ = 65535
      omega)
    have tie : first.lastAddr ≤ second.lastAddr := by
      rw [BitVec.le_def]
      omega
    have included := (agrees.span_iff meets first.addrLo).mpr (.inl (doesInclude_addrLo nonempty))
    rw [span, if_pos reaches, if_pos tie, zero, last_eq] at included
    exact absurd included (by decide)
  · have sooner : second.lastAddr ≤ first.lastAddr :=
      BitVec.le_trans (BitVec.le_of_lt (lastAddr_lt (Nat.lt_of_not_le second_le))) reaches
    have last : second.doesInclude 0xFFFF = true := (doesInclude_iff _ _).mpr
      ⟨Nat.le_of_lt_succ second.addrLo.isLt, by change 65535 < _; omega⟩
    have both := (agrees.overlap_iff 0xFFFF).mp (by rw [overlap_eq_second reaches sooner, last])
    have ends := ((doesInclude_iff _ _).mp both.1).2
    change 65535 < _ at ends
    omega

theorem agreesInOrder_iff (nonempty : first.addrLen ≠ 0) (nonempty' : second.addrLen ≠ 0)
    (ordered : first.addrLo ≤ second.addrLo) :
    AgreesInOrder first second ↔ first.Manageable second := by
  refine ⟨AgreesInOrder.manageable nonempty nonempty' ordered, fun manageable => ?_⟩
  by_cases apart : first.limit ≤ second.addrLo.toNat
  · exact .of_apart nonempty nonempty' ordered apart
  by_cases top : first.limit = 0x10000
  · exact .of_top nonempty nonempty' ordered top
  obtain apart' | top' | ⟨first_le, second_le, proper⟩ := manageable
  · exact absurd apart' apart
  · exact absurd top' top
  · exact .of_within nonempty nonempty' ordered (Nat.lt_of_not_le apart)
      (Nat.lt_of_le_of_ne first_le top) second_le proper

end InOrder

/-! ## The operations and their ordered forms -/

section Operations

variable {r1 r2 : MemoryAddrRange}

theorem agrees_of_empty (empty : r1.addrLen = 0 ∨ r2.addrLen = 0) : Agrees r1 r2 := by
  have guard : ¬ (r2.addrLen ≠ 0 ∧ r1.addrLen ≠ 0) := by
    rintro ⟨nonempty', nonempty⟩
    exact empty.elim nonempty nonempty'
  have none : ∀ address,
      ¬ (r1.doesInclude address = true ∧ r2.doesInclude address = true) := by
    rintro address ⟨inFirst, inSecond⟩
    cases empty with
    | inl empty => simp [doesInclude, empty] at inFirst
    | inr empty => simp [doesInclude, empty] at inSecond
  refine ⟨?_, fun address => ?_, ?_⟩
  · rw [doIntersect, if_neg guard]
    refine iff_of_false Bool.false_ne_true ?_
    rintro ⟨address, both⟩
    exact none address both
  · rw [intersection, if_neg guard, not_doesInclude_undef]
    exact iff_of_false Bool.false_ne_true (none address)
  · rintro ⟨address, both⟩
    exact absurd both (none address)

theorem Meet.comm : r1.Meet r2 ↔ r2.Meet r1 :=
  exists_congr fun _ => and_comm

theorem agrees_iff_of_le (nonempty : r1.addrLen ≠ 0) (nonempty' : r2.addrLen ≠ 0)
    (ordered : r2.addrLo ≤ r1.addrLo) : Agrees r1 r2 ↔ AgreesInOrder r2 r1 := by
  have reaches_iff : r1.doIntersect r2 = true ↔ r2.Reaches r1 := by
    rw [doIntersect, if_pos ⟨nonempty', nonempty⟩, if_pos ordered, decide_eq_true_eq]
    rfl
  have overlap_eq : r1.intersection r2 = r2.overlap r1 := by
    rw [intersection, if_pos ⟨nonempty', nonempty⟩, if_pos ordered]
    rfl
  have span_eq : r1.union r2 = r2.span r1 := by
    rw [union, if_pos ⟨nonempty', nonempty⟩, if_pos ordered]
    rfl
  constructor
  · rintro ⟨reaches, inBoth, inEither⟩
    rw [reaches_iff, Meet.comm] at reaches
    rw [Meet.comm] at inEither
    exact ⟨reaches, fun address => by rw [← overlap_eq, inBoth, and_comm],
      fun meets address => by rw [← span_eq, inEither meets, or_comm]⟩
  · rintro ⟨reaches, inBoth, inEither⟩
    rw [← reaches_iff, Meet.comm] at reaches
    rw [Meet.comm] at inEither
    exact ⟨reaches, fun address => by rw [overlap_eq, inBoth, and_comm],
      fun meets address => by rw [span_eq, inEither meets, or_comm]⟩

theorem agrees_iff_of_lt (nonempty : r1.addrLen ≠ 0) (nonempty' : r2.addrLen ≠ 0)
    (ordered : ¬ r2.addrLo ≤ r1.addrLo) : Agrees r1 r2 ↔ AgreesInOrder r1 r2 := by
  have reaches_iff : r1.doIntersect r2 = true ↔ r1.Reaches r2 := by
    rw [doIntersect, if_pos ⟨nonempty', nonempty⟩, if_neg ordered, decide_eq_true_eq]
    rfl
  have overlap_eq : r1.intersection r2 = r1.overlap r2 := by
    rw [intersection, if_pos ⟨nonempty', nonempty⟩, if_neg ordered]
    rfl
  have span_eq : r1.union r2 = r1.span r2 := by
    rw [union, if_pos ⟨nonempty', nonempty⟩, if_neg ordered]
    rfl
  constructor
  · rintro ⟨reaches, inBoth, inEither⟩
    exact ⟨reaches_iff.symm.trans reaches, fun address => by rw [← overlap_eq, inBoth],
      fun meets address => by rw [← span_eq, inEither meets]⟩
  · rintro ⟨reaches, inBoth, inEither⟩
    exact ⟨reaches_iff.trans reaches, fun address => by rw [overlap_eq, inBoth],
      fun meets address => by rw [span_eq, inEither meets]⟩

end Operations

/-- The operations agree with membership exactly when a range is empty or the two, taken in order,
can be managed in 16 bits. -/
theorem agrees_iff (r1 r2 : MemoryAddrRange) :
    Agrees r1 r2 ↔ r1.addrLen = 0 ∨ r2.addrLen = 0 ∨
      if r2.addrLo ≤ r1.addrLo then r2.Manageable r1 else r1.Manageable r2 := by
  by_cases empty : r1.addrLen = 0 ∨ r2.addrLen = 0
  · exact iff_of_true (agrees_of_empty empty) (empty.imp_right .inl)
  obtain ⟨nonempty, nonempty'⟩ := not_or.mp empty
  rw [or_iff_right nonempty, or_iff_right nonempty']
  split
  case isTrue ordered =>
    rw [agrees_iff_of_le nonempty nonempty' ordered, agreesInOrder_iff nonempty' nonempty ordered]
  case isFalse disordered =>
    have ordered := BitVec.le_of_lt (BitVec.not_le.mp disordered)
    rw [agrees_iff_of_lt nonempty nonempty' disordered,
      agreesInOrder_iff nonempty nonempty' ordered]

/-- The last address of memory is in a range that passes the end, which is not seen to intersect
the range of that address alone. -/
theorem not_agrees_past_top : ¬ ∀ r1 r2 : MemoryAddrRange, Agrees r1 r2 := by
  intro agrees
  have meets : Meet ⟨0xFFFF, 1⟩ ⟨0xFFF0, 0x20⟩ := ⟨0xFFFF, by decide⟩
  exact absurd ((agrees _ _).doIntersect_iff.mpr meets) (by decide)

end MemoryAddrRange
end System6502
