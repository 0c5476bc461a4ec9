import System6502.Bus
import System6502.Lib.Numeral
import System6502.Membus.Range
import Mathlib.Data.Set.Basic

/-!
# Memory specifications

The parsers of the command line for addresses, lengths and memory specifications, the grammar that
the usage text documents, and what its strings denote.
-/

namespace System6502

open Lib.Numeral

/-! ## Parsers -/

/-- `strncasecmp` of a name with the start of a text finds no difference. -/
def startsWith (name text : List Char) : Bool :=
  (text.take name.length).map Char.toLower == name.map Char.toLower

/-- `__parse_addr_str`, with the text after the name. -/
def parseAddrStr (text : List Char) : Option (Word × List Char) :=
  if startsWith ['I', 'R', 'Q'] text then some (memoryAddrIRQVector, text.drop 3)
  else if startsWith ['N', 'M', 'I'] text then some (memoryAddrNMIVector, text.drop 3)
  else if startsWith ['R', 'E', 'S'] text then some (memoryAddrRESVector, text.drop 3)
  else none

/-- The number that `parse_addr` and `parse_len` read, truncated to sixteen bits. -/
def parseNumber (text : List Char) (base : Nat) : Option (Word × List Char) :=
  let (v, rest) := strtoul text base
  if rest.length < text.length then some (BitVec.ofNat 16 v, rest) else none

/-- `parse_addr`. -/
def parseAddr (text : List Char) : Option (Word × List Char) :=
  match text with
  | '$' :: digits => parseNumber digits 16
  | first :: others =>
      if isDigit 10 first then parseNumber (first :: others) 0
      else
        match parseAddrStr (first :: others) with
        | some (addr, offset) =>
            let (v, rest) := strtol offset 0
            if rest.length < offset.length ∧ v ≠ 0 then some (addr + BitVec.ofInt 16 v, rest)
            else some (addr, offset)
        | none => none
  | [] => none

/-- `parse_len`. -/
def parseLen (text : List Char) : Option (Word × List Char) :=
  match text with
  | '$' :: digits => parseNumber digits 16
  | ['*'] => some (0xFFFF, [])
  | first :: others => if isDigit 10 first then parseNumber (first :: others) 0 else none
  | [] => none

/-- `parse_mem_spec`: the first and the last address and the text after the specification. -/
def parseMemSpec (text : List Char) : Option (Word × Word × List Char) :=
  match parseAddr text with
  | some (start, []) => some (start, start, [])
  | some (start, ':' :: length) =>
      match parseLen length with
      | some (len, rest) =>
          let addr := start + len - 1
          some (start, if addr < start then 0xFFFF else addr, rest)
      | none => none
  | some (start, '-' :: last) =>
      match parseAddr last with
      | some (addr, rest) => some (start, if addr < start then 0xFFFF else addr, rest)
      | none => none
  | _ => none

/-! ## Grammar -/

/-- The names of the vectors. -/
inductive VectorName
  | IRQ
  | NMI
  | RES
  deriving DecidableEq, Repr

/-- A number of the grammar. -/
inductive Numeral
  /-- Hexadecimal digits after a dollar sign. -/
  | dollar (digits : Digits 16)
  /-- A literal. -/
  | literal (number : Literal)

namespace VectorName

/-- The characters. -/
def text : VectorName → List Char
  | IRQ => ['I', 'R', 'Q']
  | NMI => ['N', 'M', 'I']
  | RES => ['R', 'E', 'S']

/-- The address of the vector. -/
def address : VectorName → Word
  | IRQ => memoryAddrIRQVector
  | NMI => memoryAddrNMIVector
  | RES => memoryAddrRESVector

end VectorName

namespace Numeral

/-- The characters. -/
def text : Numeral → List Char
  | dollar digits => '$' :: digits.characters
  | literal number => number.text

/-- The number. -/
def value : Numeral → Nat
  | dollar digits => digits.value
  | literal number => number.value

end Numeral

/-- A signed offset of at most sixteen bits. -/
structure Offset where
  /-- The sign is a minus sign. -/
  negative : Bool
  /-- The magnitude. -/
  magnitude : Literal
  /-- The magnitude has at most sixteen bits. -/
  magnitude_le : magnitude.value ≤ 0xFFFF

/-- An address of the grammar. -/
inductive Address
  /-- A number. -/
  | number (numeral : Numeral) (value_le : numeral.value ≤ 0xFFFF)
  /-- A vector. -/
  | vector (name : VectorName)
  /-- A vector with an offset. -/
  | shifted (name : VectorName) (offset : Offset)

/-- A length of the grammar. -/
inductive Length
  /-- A number of addresses. -/
  | number (numeral : Numeral) (value_le : numeral.value ≤ 0xFFFF) (positive : 1 ≤ numeral.value)
  /-- All that follow. -/
  | all

namespace Address

/-- The characters. -/
def text : Address → List Char
  | number numeral _ => numeral.text
  | vector name => name.text
  | shifted name offset => name.text ++ sign offset.negative :: offset.magnitude.text

/-- The address denoted. -/
def address : Address → Word
  | number numeral _ => BitVec.ofNat 16 numeral.value
  | vector name => name.address
  | shifted name offset =>
      name.address + BitVec.ofInt 16 (signedValue offset.negative offset.magnitude.value)

/-- The offset is written but zero. -/
def ZeroOffset : Address → Prop
  | shifted _ offset => offset.magnitude.value = 0
  | _ => False

/-- The name of a vector alone. -/
def Bare : Address → Prop
  | vector _ => True
  | _ => False

/-- The first character is a decimal digit. -/
def StartsWithDigit : Address → Prop
  | number (.literal _) _ => True
  | _ => False

end Address

namespace Length

/-- The characters. -/
def text : Length → List Char
  | number numeral _ _ => numeral.text
  | all => ['*']

/-- The distances from the first address that the length covers. -/
def Covers : Length → Nat → Prop
  | number numeral _ _, distance => distance < numeral.value
  | all, _ => True

end Length

/-- A memory specification of the grammar. -/
inductive MemSpec
  /-- One address. -/
  | single (address : Address)
  /-- A number of addresses. -/
  | counted (first : Address) (length : Length)
  /-- The addresses from the first to the last. -/
  | through (first last : Address) (ordered : first.address ≤ last.address)

namespace MemSpec

/-- The characters. -/
def text : MemSpec → List Char
  | single address => address.text
  | counted first length => first.text ++ ':' :: length.text
  | through first last _ => first.text ++ '-' :: last.text

/-- The addresses denoted. -/
def denoted : MemSpec → Set Word
  | single address => {address.address}
  | counted first length =>
      { address | ∃ distance, length.Covers distance ∧
        address.toNat = first.address.toNat + distance }
  | through first last _ => { address | first.address ≤ address ∧ address ≤ last.address }

/-- The addresses in a specification. -/
def addresses : MemSpec → List Address
  | single address => [address]
  | counted first _ => [first]
  | through first last _ => [first, last]

/-- The dash after a vector is followed by a digit. -/
def DashDigit : MemSpec → Prop
  | through first last _ => first.Bare ∧ last.StartsWithDigit
  | _ => False

/-- The parser consumes the specification, and the range of its result includes exactly the
addresses denoted. -/
def Understood (spec : MemSpec) : Prop :=
  ∃ start last, parseMemSpec spec.text = some (start, last, []) ∧
    ∀ address, (MemoryAddrRange.withLoAndHi start last).doesInclude address = true ↔
      address ∈ spec.denoted

/-- No offset is written as zero, no dash after a vector is followed by a digit, and not all of
memory is denoted. -/
structure Plain (spec : MemSpec) : Prop where
  /-- The offsets. -/
  offsets : ∀ address ∈ spec.addresses, ¬ address.ZeroOffset
  /-- The dash. -/
  dash : ¬ spec.DashDigit
  /-- The addresses denoted. -/
  proper : spec.denoted ≠ Set.univ

end MemSpec

/-! ## Addresses and lengths -/

variable {rest : List Char}

theorem parseNumber_eq {text : List Char} {base value : Nat}
    (read : strtoul text base = (value, rest)) (shorter : rest.length < text.length) :
    parseNumber text base = some (BitVec.ofNat 16 value, rest) := by
  unfold parseNumber
  rw [read]
  exact if_pos shorter

theorem parseNumber_literal (number : Literal) (value_le : number.value ≤ 0xFFFF)
    (ends : Ends rest) :
    parseNumber (number.text ++ rest) 0 = some (BitVec.ofNat 16 number.value, rest) := by
  obtain ⟨first, others, text_eq, -⟩ := number.exists_cons
  refine parseNumber_eq (strtoul_literal number (by omega) ends) ?_
  rw [text_eq, List.cons_append, List.length_cons, List.length_append]
  omega

theorem parseNumber_digits (digits : Digits 16) (value_le : digits.value ≤ 0xFFFF)
    (ends : Ends rest) :
    parseNumber (digits.characters ++ rest) 16 = some (BitVec.ofNat 16 digits.value, rest) := by
  obtain ⟨first, others, characters_eq, -⟩ := digits.exists_cons
  refine parseNumber_eq (strtoul_digits digits (by omega) ends) ?_
  rw [characters_eq, List.cons_append, List.length_cons, List.length_append]
  omega

theorem parseAddr_digit {first : Char} {others : List Char} (digit : digitValue first < 10) :
    parseAddr (first :: others) = parseNumber (first :: others) 0 := by
  unfold parseAddr
  split
  · rename_i text_eq
    obtain ⟨rfl, -⟩ := List.cons.inj text_eq
    exact absurd digit (by decide)
  · rename_i text_eq
    obtain ⟨rfl, rfl⟩ := List.cons.inj text_eq
    exact if_pos (by simpa [isDigit] using digit)
  · rename_i text_eq
    cases text_eq

theorem parseAddr_literal (number : Literal) (value_le : number.value ≤ 0xFFFF)
    (ends : Ends rest) :
    parseAddr (number.text ++ rest) = some (BitVec.ofNat 16 number.value, rest) := by
  obtain ⟨first, others, text_eq, digit⟩ := number.exists_cons
  rw [← parseNumber_literal number value_le ends, text_eq, List.cons_append]
  exact parseAddr_digit digit

theorem parseLen_digit {first : Char} {others : List Char} (digit : digitValue first < 10) :
    parseLen (first :: others) = parseNumber (first :: others) 0 := by
  unfold parseLen
  split
  · rename_i text_eq
    obtain ⟨rfl, -⟩ := List.cons.inj text_eq
    exact absurd digit (by decide)
  · rename_i text_eq
    obtain ⟨rfl, -⟩ := List.cons.inj text_eq
    exact absurd digit (by decide)
  · rename_i text_eq
    obtain ⟨rfl, rfl⟩ := List.cons.inj text_eq
    exact if_pos (by simpa [isDigit] using digit)
  · rename_i text_eq
    cases text_eq

theorem parseLen_literal (number : Literal) (value_le : number.value ≤ 0xFFFF)
    (ends : Ends rest) :
    parseLen (number.text ++ rest) = some (BitVec.ofNat 16 number.value, rest) := by
  obtain ⟨first, others, text_eq, digit⟩ := number.exists_cons
  rw [← parseNumber_literal number value_le ends, text_eq, List.cons_append]
  exact parseLen_digit digit

theorem parseAddr_numeral (numeral : Numeral) (value_le : numeral.value ≤ 0xFFFF)
    (ends : Ends rest) :
    parseAddr (numeral.text ++ rest) = some (BitVec.ofNat 16 numeral.value, rest) := by
  cases numeral with
  | dollar digits => exact parseNumber_digits digits value_le ends
  | literal number => exact parseAddr_literal number value_le ends

theorem parseLen_numeral (numeral : Numeral) (value_le : numeral.value ≤ 0xFFFF)
    (ends : Ends rest) :
    parseLen (numeral.text ++ rest) = some (BitVec.ofNat 16 numeral.value, rest) := by
  cases numeral with
  | dollar digits => exact parseNumber_digits digits value_le ends
  | literal number => exact parseLen_literal number value_le ends

/-- The name of a vector is followed by an offset when a number other than zero is read there. -/
theorem parseAddr_vector (name : VectorName) (rest : List Char) :
    parseAddr (name.text ++ rest) =
      if (strtol rest 0).2.length < rest.length ∧ (strtol rest 0).1 ≠ 0 then
        some (name.address + BitVec.ofInt 16 (strtol rest 0).1, (strtol rest 0).2)
      else some (name.address, rest) := by
  cases name <;> rfl

theorem parseAddr_shifted (name : VectorName) (offset : Offset)
    (nonzero : offset.magnitude.value ≠ 0) (ends : Ends rest) :
    parseAddr ((Address.shifted name offset).text ++ rest) =
      some ((Address.shifted name offset).address, rest) := by
  have small := offset.magnitude_le
  have read := strtol_literal offset.negative offset.magnitude (by omega) ends
  have value_ne : signedValue offset.negative offset.magnitude.value ≠ 0 := by
    unfold signedValue
    split_ifs <;> omega
  change parseAddr ((name.text ++ sign offset.negative :: offset.magnitude.text) ++ rest) = _
  rw [List.append_assoc, List.cons_append, parseAddr_vector, read, if_pos]
  · rfl
  · refine ⟨?_, value_ne⟩
    change rest.length < (sign offset.negative :: (offset.magnitude.text ++ rest)).length
    rw [List.length_cons, List.length_append]
    omega

/-- A zero offset is left unread. -/
theorem parseAddr_zeroOffset (name : VectorName) (offset : Offset)
    (zero : offset.magnitude.value = 0) (ends : Ends rest) :
    parseAddr ((Address.shifted name offset).text ++ rest) =
      some (name.address, sign offset.negative :: (offset.magnitude.text ++ rest)) := by
  have small := offset.magnitude_le
  have read := strtol_literal offset.negative offset.magnitude (by omega) ends
  have value_eq : signedValue offset.negative offset.magnitude.value = 0 := by
    rw [zero]
    unfold signedValue
    split_ifs <;> rfl
  change parseAddr ((name.text ++ sign offset.negative :: offset.magnitude.text) ++ rest) = _
  rw [List.append_assoc, List.cons_append, parseAddr_vector, read, if_neg]
  exact fun shifts => shifts.2 value_eq

/-- The text after an address does not continue it. -/
def Address.Followed (address : Address) (rest : List Char) : Prop :=
  Ends rest ∧ (address.Bare → strtol rest 0 = (0, rest))

theorem parseAddr_address {address : Address} (whole : ¬ address.ZeroOffset)
    (followed : address.Followed rest) :
    parseAddr (address.text ++ rest) = some (address.address, rest) := by
  obtain ⟨ends, unshifted⟩ := followed
  cases address with
  | number numeral value_le => exact parseAddr_numeral numeral value_le ends
  | vector name =>
      change parseAddr (name.text ++ rest) = _
      rw [parseAddr_vector, unshifted trivial, if_neg fun shifts => shifts.2 rfl]
      rfl
  | shifted name offset => exact parseAddr_shifted name offset whole ends

theorem ends_nil : Ends [] := by
  rintro character ⟨⟩

theorem Address.followed_nil (address : Address) : address.Followed [] :=
  ⟨ends_nil, fun _ => rfl⟩

theorem Address.followed_colon (address : Address) (length : List Char) :
    address.Followed (':' :: length) :=
  ⟨by rintro character ⟨⟩; decide, fun _ => rfl⟩

theorem ends_dash (last : List Char) : Ends ('-' :: last) := by
  rintro character ⟨⟩
  decide

/-- An address that does not start with a digit can follow the dash after a vector. -/
theorem Address.followed_dash {address last : Address}
    (undigited : ¬ (address.Bare ∧ last.StartsWithDigit)) :
    address.Followed ('-' :: last.text) := by
  refine ⟨ends_dash _, fun bare => strtol_sign true ?_⟩
  have undigited : ¬ last.StartsWithDigit := fun digit => undigited ⟨bare, digit⟩
  cases last with
  | number numeral =>
      cases numeral with
      | dollar digits =>
          rintro character ⟨⟩
          decide
      | literal number => exact absurd trivial undigited
  | vector name =>
      cases name <;> (rintro character ⟨⟩; decide)
  | shifted name offset =>
      cases name <;> (rintro character ⟨⟩; decide)

/-! ## Specifications -/

theorem parseMemSpec_nil {text : List Char} {start : Word}
    (parsed : parseAddr text = some (start, [])) :
    parseMemSpec text = some (start, start, []) := by
  unfold parseMemSpec
  rw [parsed]

theorem parseMemSpec_colon {text length : List Char} {start len : Word}
    (parsed : parseAddr text = some (start, ':' :: length))
    (counted : parseLen length = some (len, rest)) :
    parseMemSpec text =
      some (start, if start + len - 1 < start then 0xFFFF else start + len - 1, rest) := by
  unfold parseMemSpec
  rw [parsed]
  simp only [counted]

theorem parseMemSpec_dash {text last : List Char} {start addr : Word}
    (parsed : parseAddr text = some (start, '-' :: last))
    (ended : parseAddr last = some (addr, rest)) :
    parseMemSpec text = some (start, if addr < start then 0xFFFF else addr, rest) := by
  unfold parseMemSpec
  rw [parsed]
  simp only [ended]

theorem parseMemSpec_plus {text others : List Char} {start : Word}
    (parsed : parseAddr text = some (start, '+' :: others)) : parseMemSpec text = none := by
  unfold parseMemSpec
  simp [parsed]

namespace MemSpec

variable {spec : MemSpec}

theorem not_understood_of_none (failed : parseMemSpec spec.text = none) : ¬ spec.Understood := by
  rintro ⟨start, last, parsed, -⟩
  cases failed.symm.trans parsed

theorem not_understood_of_rest {start last : Word} (rest_ne : rest ≠ [])
    (parsed : parseMemSpec spec.text = some (start, last, rest)) : ¬ spec.Understood := by
  rintro ⟨start', last', parsed', -⟩
  obtain ⟨rfl, rfl, rfl⟩ : start = start' ∧ last = last' ∧ rest = [] := by
    simpa using parsed.symm.trans parsed'
  exact rest_ne rfl

/-- A specification whose ends are found is understood unless it denotes all of memory. -/
theorem understood_iff_of_parsed {start last : Word}
    (parsed : parseMemSpec spec.text = some (start, last, [])) (ordered : start ≤ last)
    (denoted_iff : ∀ address, address ∈ spec.denoted ↔ start ≤ address ∧ address ≤ last) :
    spec.Understood ↔ spec.denoted ≠ Set.univ := by
  constructor
  · rintro ⟨start', last', parsed', includes⟩ whole
    obtain ⟨rfl, rfl⟩ : start = start' ∧ last = last' := by
      simpa using parsed.symm.trans parsed'
    have everything : ∀ address, start ≤ address ∧ address ≤ last :=
      fun address => (denoted_iff address).mp (whole ▸ Set.mem_univ address)
    obtain rfl : start = 0 := by
      have := (everything 0).1
      bv_omega
    obtain rfl : last = 0xFFFF := by
      have := (everything 0xFFFF).2
      bv_omega
    have included := (includes 0).mpr (whole ▸ Set.mem_univ 0)
    exact absurd included (by decide)
  · intro proper
    refine ⟨start, last, parsed, fun address => ?_⟩
    rw [denoted_iff]
    refine MemoryAddrRange.doesInclude_withLoAndHi ordered ?_ address
    rintro ⟨rfl, rfl⟩
    refine proper (Set.eq_univ_of_forall fun address => (denoted_iff address).mpr ⟨?_, ?_⟩)
    · bv_omega
    · bv_omega

/-! ## Main result -/

/-- A zero offset at the start is left in the text, where it is no part of a specification. -/
theorem not_understood_of_zeroOffset {first : Address} (zero : first.ZeroOffset)
    (ends : Ends rest) (text_eq : spec.text = first.text ++ rest)
    (single_of_nil : rest = [] → spec = single first) : ¬ spec.Understood := by
  cases first with
  | number numeral value_le => exact zero.elim
  | vector name => exact zero.elim
  | shifted name offset =>
      have zero : offset.magnitude.value = 0 := zero
      have parsed := parseAddr_zeroOffset name offset zero ends
      have small := offset.magnitude_le
      rw [← text_eq] at parsed
      cases negative : offset.negative with
      | false =>
          rw [negative] at parsed
          exact not_understood_of_none (parseMemSpec_plus parsed)
      | true =>
          rw [negative] at parsed
          have ended := parseAddr_literal offset.magnitude small ends
          have parsed := parseMemSpec_dash parsed ended
          rw [zero] at parsed
          by_cases rest_eq : rest = []
          · subst rest_eq
            obtain rfl := single_of_nil rfl
            rintro ⟨start, last, parsed', includes⟩
            obtain ⟨rfl, rfl⟩ : name.address = start ∧ 0xFFFF = last := by
              have below : BitVec.ofNat 16 0 < name.address := by cases name <;> decide
              rw [if_pos below] at parsed
              simpa using parsed.symm.trans parsed'
            have included := (includes 0xFFFF).mp (by cases name <;> decide)
            have address_eq : (Address.shifted name offset).address = name.address := by
              change name.address +
                BitVec.ofInt 16 (signedValue offset.negative offset.magnitude.value) = _
              rw [zero, negative]
              exact BitVec.add_zero _
            have last_eq : (0xFFFF : Word) = name.address := address_eq ▸ included
            cases name <;> exact absurd last_eq (by decide)
          · exact not_understood_of_rest rest_eq parsed

/-- A dash between a vector and a digit is read as the sign of an offset. -/
theorem not_understood_of_dashDigit {first last : Address} (ordered : first.address ≤ last.address)
    (bare : first.Bare) (digit : last.StartsWithDigit) :
    ¬ (through first last ordered).Understood := by
  rcases first with _ | name | _
  · exact bare.elim
  · rcases last with ⟨_ | number, value_le⟩ | _ | _
    · exact digit.elim
    · have value_le : number.value ≤ 0xFFFF := value_le
      have ordered' : name.address ≤ BitVec.ofNat 16 number.value := ordered
      have value_ne : number.value ≠ 0 := by
        intro zero
        rw [zero] at ordered'
        cases name <;> exact absurd ordered' (by decide)
      let offset : Offset := { negative := true, magnitude := number, magnitude_le := value_le }
      have parsed := parseAddr_shifted name offset value_ne ends_nil
      rw [List.append_nil] at parsed
      have found := parseMemSpec_nil parsed
      rintro ⟨start, last, parsed', includes⟩
      obtain ⟨rfl, rfl⟩ : (Address.shifted name offset).address = start ∧
          (Address.shifted name offset).address = last := by
        have text_eq : (through (.vector name) (.number (.literal number) value_le) ordered).text =
          (Address.shifted name offset).text := rfl
        rw [text_eq] at parsed'
        simpa using found.symm.trans parsed'
      have included := (includes name.address).mpr ⟨BitVec.le_refl _, ordered⟩
      rw [MemoryAddrRange.doesInclude_withLoAndHi (BitVec.le_refl _) (by bv_omega)] at included
      have address_eq : name.address + BitVec.ofInt 16 (-number.value) = name.address :=
        BitVec.le_antisymm included.1 included.2
      have name_lt := name.address.isLt
      have sum_eq := congrArg BitVec.toNat address_eq
      simp only [BitVec.toNat_add, BitVec.toNat_ofInt] at sum_eq
      omega
    · exact digit.elim
    · exact digit.elim
  · exact bare.elim

theorem understood_single {address : Address} (whole : ¬ address.ZeroOffset) :
    (single address).Understood ↔ (single address).denoted ≠ Set.univ := by
  have parsed := parseAddr_address whole address.followed_nil
  rw [List.append_nil] at parsed
  refine understood_iff_of_parsed (parseMemSpec_nil parsed) (BitVec.le_refl _) fun other => ?_
  simp only [denoted, Set.mem_singleton_iff]
  bv_omega

theorem understood_through {first last : Address} (ordered : first.address ≤ last.address)
    (whole : ¬ first.ZeroOffset) (last_whole : ¬ last.ZeroOffset)
    (undigited : ¬ (first.Bare ∧ last.StartsWithDigit)) :
    (through first last ordered).Understood ↔
      (through first last ordered).denoted ≠ Set.univ := by
  have parsed := parseAddr_address whole (Address.followed_dash undigited)
  have ended := parseAddr_address last_whole last.followed_nil
  rw [List.append_nil] at ended
  have parsed := parseMemSpec_dash parsed ended
  rw [if_neg (BitVec.not_lt.mpr ordered)] at parsed
  exact understood_iff_of_parsed parsed ordered fun _ => Iff.rfl

theorem not_understood_of_last {first last : Address} (ordered : first.address ≤ last.address)
    (whole : ¬ first.ZeroOffset) (undigited : ¬ (first.Bare ∧ last.StartsWithDigit))
    (zero : last.ZeroOffset) : ¬ (through first last ordered).Understood := by
  have parsed := parseAddr_address whole (Address.followed_dash undigited)
  cases last with
  | number numeral value_le => exact zero.elim
  | vector name => exact zero.elim
  | shifted name offset =>
      have ended := parseAddr_zeroOffset name offset zero ends_nil
      rw [List.append_nil] at ended
      exact not_understood_of_rest (List.cons_ne_nil _ _) (parseMemSpec_dash parsed ended)

theorem understood_counted {first : Address} (length : Length) (whole : ¬ first.ZeroOffset) :
    (counted first length).Understood ↔ (counted first length).denoted ≠ Set.univ := by
  have parsed := parseAddr_address whole (first.followed_colon length.text)
  cases length with
  | number numeral value_le positive =>
      have measured := parseLen_numeral numeral value_le ends_nil
      rw [List.append_nil] at measured
      have found := parseMemSpec_colon parsed measured
      refine understood_iff_of_parsed found ?_ fun other => ?_
      · split <;> bv_omega
      · constructor
        · rintro ⟨distance, covered, other_eq⟩
          have covered : distance < numeral.value := covered
          split <;> constructor <;> bv_omega
        · rintro ⟨above, below⟩
          refine ⟨other.toNat - first.address.toNat, ?_, by bv_omega⟩
          change other.toNat - first.address.toNat < numeral.value
          split at below <;> bv_omega
  | all =>
      have found := parseMemSpec_colon parsed (rfl : parseLen ['*'] = some (0xFFFF, []))
      by_cases zero : first.address = 0
      · rw [zero] at found
        refine iff_of_false ?_ (not_not.mpr (Set.eq_univ_of_forall fun other => ?_))
        · rintro ⟨start, last, parsed', includes⟩
          obtain ⟨rfl, rfl⟩ : 0 = start ∧ 0xFFFE = last := by
            simpa using found.symm.trans parsed'
          have included := (includes 0xFFFF).mpr ⟨0xFFFF, trivial, by rw [zero]; rfl⟩
          exact absurd included (by decide)
        · exact ⟨other.toNat, trivial, by rw [zero]; simp⟩
      · have wraps : first.address + 0xFFFF - 1 < first.address ∨
            first.address + 0xFFFF - 1 = 0xFFFF := by
          bv_omega
        have end_eq : (if first.address + 0xFFFF - 1 < first.address then 0xFFFF
            else first.address + 0xFFFF - 1) = 0xFFFF := by
          rcases wraps with below | end_eq
          · exact if_pos below
          · rw [end_eq, ite_self]
        rw [end_eq] at found
        refine understood_iff_of_parsed found (by bv_omega) fun other => ?_
        constructor
        · rintro ⟨distance, -, other_eq⟩
          constructor <;> bv_omega
        · rintro ⟨above, -⟩
          exact ⟨other.toNat - first.address.toNat, trivial, by bv_omega⟩

/-- A specification of the documented grammar is understood exactly when no offset in it is zero,
no dash in it stands between the name of a vector and a digit, and it does not denote all of
memory. -/
theorem understood_iff_plain (spec : MemSpec) : spec.Understood ↔ spec.Plain := by
  cases spec with
  | single address =>
      by_cases zero : address.ZeroOffset
      · refine iff_of_false ?_ fun plain => plain.offsets address (by simp [addresses]) zero
        exact not_understood_of_zeroOffset zero ends_nil (List.append_nil _).symm fun _ => rfl
      · rw [understood_single zero]
        refine ⟨fun proper => ⟨?_, not_false, proper⟩, Plain.proper⟩
        simpa [addresses] using zero
  | counted first length =>
      by_cases zero : first.ZeroOffset
      · refine iff_of_false ?_ fun plain => plain.offsets first (by simp [addresses]) zero
        exact not_understood_of_zeroOffset zero (first.followed_colon length.text).1 rfl
          fun rest_eq => by cases rest_eq
      · rw [understood_counted length zero]
        refine ⟨fun proper => ⟨?_, not_false, proper⟩, Plain.proper⟩
        simpa [addresses] using zero
  | through first last ordered =>
      by_cases zero : first.ZeroOffset
      · refine iff_of_false ?_ fun plain => plain.offsets first (by simp [addresses]) zero
        exact not_understood_of_zeroOffset zero (ends_dash _) rfl fun rest_eq => by cases rest_eq
      by_cases dash : first.Bare ∧ last.StartsWithDigit
      · exact iff_of_false (not_understood_of_dashDigit ordered dash.1 dash.2)
          fun plain => plain.dash dash
      by_cases last_zero : last.ZeroOffset
      · refine iff_of_false ?_ fun plain => plain.offsets last (by simp [addresses]) last_zero
        exact not_understood_of_last ordered zero dash last_zero
      · rw [understood_through ordered zero last_zero dash]
        refine ⟨fun proper => ⟨?_, dash, proper⟩, Plain.proper⟩
        simpa [addresses] using ⟨zero, last_zero⟩

/-- `$0-$FFFF`. -/
def everything : MemSpec :=
  through (.number (.dollar ⟨['0'], by simp, List.all_eq_true.mp (by decide)⟩) (by decide))
    (.number (.dollar ⟨['F', 'F', 'F', 'F'], by simp, List.all_eq_true.mp (by decide)⟩)
      (by decide))
    (by decide)

/-- The range of `$0-$FFFF` is empty. -/
theorem not_understood_everything :
    everything.text = ['$', '0', '-', '$', 'F', 'F', 'F', 'F'] ∧ ¬ everything.Understood := by
  refine ⟨rfl, ?_⟩
  rintro ⟨start, last, parsed, includes⟩
  obtain ⟨rfl, rfl⟩ : 0 = start ∧ 0xFFFF = last := by
    have found : parseMemSpec everything.text = some (0, 0xFFFF, []) := by decide
    simpa using found.symm.trans parsed
  have included := (includes 0).mpr ⟨by decide, by decide⟩
  exact absurd included (by decide)

end MemSpec

end System6502
