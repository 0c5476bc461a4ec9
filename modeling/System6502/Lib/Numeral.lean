import Mathlib.Algebra.Order.Ring.Int
import Mathlib.Data.List.TakeWhile

/-!
# Numerals in text

Digits in bases up to 36, the number literals of C, and the conversions `strtoul` and `strtol` that
read a number from the start of a text.
-/

namespace System6502
namespace Lib
namespace Numeral

/-- The value of a digit or letter, and 36 for every other character. -/
def digitValue (character : Char) : Nat :=
  let code := character.toNat
  if 48 ≤ code ∧ code ≤ 57 then code - 48
  else if 97 ≤ code ∧ code ≤ 122 then code - 87
  else if 65 ≤ code ∧ code ≤ 90 then code - 55
  else 36

/-- A digit of a base. -/
def isDigit (base : Nat) (character : Char) : Bool := digitValue character < base

/-- The number that digits denote, the most significant one first. -/
def value (base : Nat) (digits : List Char) : Nat :=
  digits.foldl (fun total digit => total * base + digitValue digit) 0

/-! ## Conversions -/

/-- `isspace`. -/
def isSpace (character : Char) : Bool :=
  character.toNat = 32 || (9 ≤ character.toNat && character.toNat ≤ 13)

/-- A number at the start of a text. -/
structure Conversion where
  /-- The number has a minus sign. -/
  negative : Bool
  /-- The number without its sign. -/
  magnitude : Nat
  /-- The text after the number. -/
  rest : List Char
  deriving DecidableEq, Repr

/-- A leading sign is taken off a text. -/
def takeSign : List Char → Bool × List Char
  | '-' :: rest => (true, rest)
  | '+' :: rest => (false, rest)
  | text => (false, text)

/-- The base of the digits at the start of a text, whose prefix is taken off.  Base 0 stands for
the base that the text itself tells. -/
def takeRadix (base : Nat) (text : List Char) : Nat × List Char :=
  match text with
  | '0' :: mark :: digit :: rest =>
      if (base = 0 ∨ base = 16) ∧ (mark = 'x' ∨ mark = 'X') ∧ isDigit 16 digit then
        (16, digit :: rest)
      else (if base = 0 then 8 else base, text)
  | '0' :: _ => (if base = 0 then 8 else base, text)
  | _ => (if base = 0 then 10 else base, text)

/-- The digits at the start of a text. -/
def takeDigits (negative : Bool) (base : Nat) (text : List Char) : Option Conversion :=
  match text.takeWhile (isDigit base) with
  | [] => none
  | digits =>
      some { negative, magnitude := value base digits, rest := text.dropWhile (isDigit base) }

/-- The number at the start of a text. -/
def convert (base : Nat) (text : List Char) : Option Conversion :=
  let (negative, unsigned) := takeSign (text.dropWhile isSpace)
  let (base, digits) := takeRadix base unsigned
  takeDigits negative base digits

/-- `strtoul`, with the text that `endptr` points to. -/
def strtoul (text : List Char) (base : Nat) : Nat × List Char :=
  match convert base text with
  | none => (0, text)
  | some { negative, magnitude, rest } =>
      (if 2 ^ 64 ≤ magnitude then 2 ^ 64 - 1
        else if negative then (2 ^ 64 - magnitude) % 2 ^ 64 else magnitude, rest)

/-- `strtol`, with the text that `endptr` points to. -/
def strtol (text : List Char) (base : Nat) : Int × List Char :=
  match convert base text with
  | none => (0, text)
  | some { negative, magnitude, rest } =>
      (if negative then max (-magnitude) (-2 ^ 63) else min magnitude (2 ^ 63 - 1), rest)

/-! ## Literals -/

/-- Digits of a base. -/
structure Digits (base : Nat) where
  /-- The characters. -/
  characters : List Char
  /-- There is at least one. -/
  characters_ne : characters ≠ []
  /-- They are digits. -/
  isDigit : ∀ character ∈ characters, isDigit base character

/-- The number that digits denote. -/
def Digits.value {base : Nat} (digits : Digits base) : Nat := Numeral.value base digits.characters

/-- A number literal, whose base its first characters tell. -/
inductive Literal
  /-- Hexadecimal digits after `0x`. -/
  | hex (digits : Digits 16)
  /-- Octal digits after `0`. -/
  | octal (digits : Digits 8)
  /-- Decimal digits that do not begin with `0`, or `0` alone. -/
  | decimal (digits : Digits 10)
      (leading : digits.characters = ['0'] ∨ digits.characters.head? ≠ some '0')

namespace Literal

/-- The characters. -/
def text : Literal → List Char
  | hex digits => '0' :: 'x' :: digits.characters
  | octal digits => '0' :: digits.characters
  | decimal digits _ => digits.characters

/-- The number. -/
def value : Literal → Nat
  | hex digits => digits.value
  | octal digits => digits.value
  | decimal digits _ => digits.value

end Literal

/-- A text that does not continue a number. -/
def Ends (rest : List Char) : Prop := ∀ character ∈ rest.head?, 36 ≤ digitValue character

/-! ## Reading literals -/

variable {base : Nat} {rest : List Char}

theorem isSpace_of_digitValue {character : Char} (digit : digitValue character < 36) :
    isSpace character = false := by
  by_contra space
  have space : character.toNat = 32 ∨ 9 ≤ character.toNat ∧ character.toNat ≤ 13 := by
    simp [isSpace] at space
    omega
  have outside : digitValue character = 36 := by
    unfold digitValue
    simp only
    split_ifs <;> omega
  omega

theorem takeDigits_append (negative : Bool) (small : base ≤ 36)
    (digits : Digits base)
    (ends : Ends rest) :
    takeDigits negative base (digits.characters ++ rest) =
      some { negative, magnitude := digits.value, rest } := by
  have stops : ∀ character ∈ rest.head?, isDigit base character = false := by
    intro character character_mem
    have := ends character character_mem
    simp [isDigit]
    omega
  have taken : (digits.characters ++ rest).takeWhile (isDigit base) = digits.characters := by
    rw [List.takeWhile_append_of_pos digits.isDigit]
    cases rest with
    | nil => simp
    | cons character rest => simp [stops character rfl]
  have dropped : (digits.characters ++ rest).dropWhile (isDigit base) = rest := by
    rw [List.dropWhile_append_of_pos digits.isDigit]
    cases rest with
    | nil => rfl
    | cons character rest => simp [stops character rfl]
  unfold takeDigits
  rw [taken, dropped]
  split
  · exact absurd ‹_› digits.characters_ne
  · rfl

/-- A text that begins with `0` but not with a prefix. -/
theorem takeRadix_zero {tail : List Char}
    (unmarked : ∀ character ∈ tail.head?, character ≠ 'x' ∧ character ≠ 'X') :
    takeRadix base ('0' :: tail) = (if base = 0 then 8 else base, '0' :: tail) := by
  rcases tail with _ | ⟨mark, _ | ⟨digit, tail⟩⟩
  · rfl
  · rfl
  · obtain ⟨lower, upper⟩ := unmarked mark rfl
    simp [takeRadix, lower, upper]

theorem takeRadix_of_ne {text : List Char} (leading : text.head? ≠ some '0') :
    takeRadix base text = (if base = 0 then 10 else base, text) := by
  unfold takeRadix
  split
  · exact absurd rfl leading
  · exact absurd rfl leading
  · rfl

theorem Digits.exists_cons (digits : Digits base) : ∃ first others,
    digits.characters = first :: others ∧ Numeral.isDigit base first := by
  obtain ⟨first, others, characters_eq⟩ := List.exists_cons_of_ne_nil digits.characters_ne
  exact ⟨first, others, characters_eq, digits.isDigit first (by simp [characters_eq])⟩

/-- Marks of a base prefix are not digits of a base up to 32. -/
theorem unmarked_of_isDigit {character : Char} (digit : isDigit base character)
    (small : base ≤ 32) : character ≠ 'x' ∧ character ≠ 'X' := by
  constructor
  · rintro rfl
    have : 33 < base := by simpa [isDigit, digitValue] using digit
    omega
  · rintro rfl
    have : 33 < base := by simpa [isDigit, digitValue] using digit
    omega

theorem Ends.unmarked (ends : Ends rest) :
    ∀ character ∈ rest.head?, character ≠ 'x' ∧ character ≠ 'X' := by
  intro character character_mem
  have above := ends character character_mem
  constructor
  · rintro rfl
    exact absurd above (by decide)
  · rintro rfl
    exact absurd above (by decide)

/-- Octal digits after `0`. -/
def Digits.withZero (digits : Digits 8) : Digits 8 where
  characters := '0' :: digits.characters
  characters_ne := List.cons_ne_nil _ _
  isDigit := by
    intro character character_mem
    rcases List.mem_cons.mp character_mem with rfl | later
    · rfl
    · exact digits.isDigit character later

/-- The digit `0`. -/
def Digits.zero : Digits 8 where
  characters := ['0']
  characters_ne := List.cons_ne_nil _ _
  isDigit := by
    intro character character_mem
    obtain rfl := List.mem_singleton.mp character_mem
    rfl

/-- The digits of a literal are read in the base that its first characters tell. -/
theorem readLiteral (negative : Bool) (literal : Literal) (ends : Ends rest) :
    takeDigits negative (takeRadix 0 (literal.text ++ rest)).1
        (takeRadix 0 (literal.text ++ rest)).2 =
      some { negative, magnitude := literal.value, rest } := by
  cases literal with
  | hex digits =>
      obtain ⟨first, others, characters_eq, digit⟩ := digits.exists_cons
      have radix : takeRadix 0 ('0' :: 'x' :: (digits.characters ++ rest)) =
          (16, digits.characters ++ rest) := by
        rw [characters_eq]
        simp [takeRadix, digit]
      change takeDigits negative (takeRadix 0 ('0' :: 'x' :: (digits.characters ++ rest))).1
        (takeRadix 0 ('0' :: 'x' :: (digits.characters ++ rest))).2 = _
      rw [radix]
      exact takeDigits_append negative (by decide) digits ends
  | octal digits =>
      obtain ⟨first, others, characters_eq, digit⟩ := digits.exists_cons
      have radix : takeRadix 0 ('0' :: (digits.characters ++ rest)) =
          (8, '0' :: (digits.characters ++ rest)) := by
        refine takeRadix_zero ?_
        rw [characters_eq]
        rintro character ⟨⟩
        exact unmarked_of_isDigit digit (by decide)
      change takeDigits negative (takeRadix 0 ('0' :: (digits.characters ++ rest))).1
        (takeRadix 0 ('0' :: (digits.characters ++ rest))).2 = _
      rw [radix]
      exact takeDigits_append negative (by decide) digits.withZero ends
  | decimal digits leading =>
      change takeDigits negative (takeRadix 0 (digits.characters ++ rest)).1
        (takeRadix 0 (digits.characters ++ rest)).2 =
          some { negative, magnitude := Numeral.value 10 digits.characters, rest }
      rcases leading with zero | nonzero
      · have radix : takeRadix 0 ('0' :: rest) = (8, '0' :: rest) := takeRadix_zero ends.unmarked
        rw [zero]
        change takeDigits negative (takeRadix 0 ('0' :: rest)).1
          (takeRadix 0 ('0' :: rest)).2 = _
        rw [radix]
        exact takeDigits_append negative (by decide) Digits.zero ends
      · obtain ⟨first, others, characters_eq, digit⟩ := digits.exists_cons
        have radix : takeRadix 0 (digits.characters ++ rest) = (10, digits.characters ++ rest) := by
          refine takeRadix_of_ne ?_
          rw [characters_eq] at nonzero ⊢
          exact nonzero
        rw [radix]
        exact takeDigits_append negative (by decide) digits ends

/-- The sign of a number. -/
def sign (negative : Bool) : Char := if negative then '-' else '+'

theorem convert_sign (negative : Bool) (text : List Char) :
    convert base (sign negative :: text) =
      takeDigits negative (takeRadix base text).1 (takeRadix base text).2 := by
  cases negative <;> rfl

theorem convert_digit {first : Char} {others : List Char} (digit : digitValue first < 36) :
    convert base (first :: others) =
      takeDigits false (takeRadix base (first :: others)).1
        (takeRadix base (first :: others)).2 := by
  have unspaced : (first :: others).dropWhile isSpace = first :: others := by
    simp [isSpace_of_digitValue digit]
  have unsigned : takeSign (first :: others) = (false, first :: others) := by
    unfold takeSign
    split
    · rename_i text_eq
      obtain ⟨rfl, -⟩ := List.cons.inj text_eq
      exact absurd digit (by decide)
    · rename_i text_eq
      obtain ⟨rfl, -⟩ := List.cons.inj text_eq
      exact absurd digit (by decide)
    · rfl
  unfold convert
  rw [unspaced, unsigned]

/-- No number starts with a character that is not a decimal digit. -/
theorem takeDigits_none (negative : Bool) {text : List Char}
    (outside : ∀ character ∈ text.head?, 10 ≤ digitValue character) :
    takeDigits negative (takeRadix 0 text).1 (takeRadix 0 text).2 = none := by
  have radix : takeRadix 0 text = (10, text) := by
    refine takeRadix_of_ne fun leading => ?_
    exact absurd (outside '0' leading) (by decide)
  have taken : text.takeWhile (isDigit 10) = [] := by
    cases text with
    | nil => rfl
    | cons character text =>
        have := outside character rfl
        simp [isDigit]
        omega
  rw [radix]
  unfold takeDigits
  rw [taken]

theorem Literal.exists_cons (literal : Literal) : ∃ first others,
    literal.text = first :: others ∧ digitValue first < 10 := by
  cases literal with
  | hex digits => exact ⟨_, _, rfl, by decide⟩
  | octal digits => exact ⟨_, _, rfl, by decide⟩
  | decimal digits leading =>
      obtain ⟨first, others, characters_eq, digit⟩ := digits.exists_cons
      exact ⟨first, others, characters_eq, by simpa [Numeral.isDigit] using digit⟩

theorem strtoul_literal (literal : Literal) (small : literal.value < 2 ^ 64) (ends : Ends rest) :
    strtoul (literal.text ++ rest) 0 = (literal.value, rest) := by
  obtain ⟨first, others, text_eq, digit⟩ := literal.exists_cons
  have converted : convert 0 (literal.text ++ rest) =
      some { negative := false, magnitude := literal.value, rest } := by
    rw [text_eq, List.cons_append, convert_digit (by omega), ← List.cons_append, ← text_eq]
    exact readLiteral false literal ends
  unfold strtoul
  rw [converted]
  dsimp only
  rw [if_neg (Nat.not_le.mpr small)]
  rfl

theorem strtoul_digits (digits : Digits 16) (small : digits.value < 2 ^ 64) (ends : Ends rest) :
    strtoul (digits.characters ++ rest) 16 = (digits.value, rest) := by
  obtain ⟨first, others, characters_eq, digit⟩ := digits.exists_cons
  have unmarked : ∀ character ∈ (others ++ rest).head?, character ≠ 'x' ∧ character ≠ 'X' := by
    intro character character_mem
    cases others with
    | nil => exact ends.unmarked character character_mem
    | cons second others =>
        obtain rfl : second = character := Option.some.inj character_mem
        exact unmarked_of_isDigit
          (digits.isDigit second (by simp [characters_eq])) (by decide)
  have radix : takeRadix 16 (digits.characters ++ rest) = (16, digits.characters ++ rest) := by
    rw [characters_eq, List.cons_append]
    by_cases leading : first = '0'
    · rw [leading]
      exact takeRadix_zero unmarked
    · exact takeRadix_of_ne (by simpa using leading)
  have digit : digitValue first < 16 := by simpa [isDigit] using digit
  have converted : convert 16 (digits.characters ++ rest) =
      some { negative := false, magnitude := digits.value, rest } := by
    rw [characters_eq, List.cons_append, convert_digit (by omega), ← List.cons_append,
      ← characters_eq, radix]
    exact takeDigits_append false (by decide) digits ends
  unfold strtoul
  rw [converted]
  dsimp only
  rw [if_neg (Nat.not_le.mpr small)]
  rfl

/-- The number that a sign and a magnitude denote. -/
def signedValue (negative : Bool) (magnitude : Nat) : Int :=
  if negative then -magnitude else magnitude

theorem strtol_literal (negative : Bool) (literal : Literal) (small : literal.value < 2 ^ 63)
    (ends : Ends rest) :
    strtol (sign negative :: (literal.text ++ rest)) 0 =
      (signedValue negative literal.value, rest) := by
  unfold strtol
  rw [convert_sign, readLiteral negative literal ends]
  cases negative with
  | false =>
      simp only [signedValue]
      simp
      omega
  | true =>
      simp only [signedValue]
      simp
      omega

/-- No number starts with a sign and a character that is not a decimal digit. -/
theorem strtol_sign (negative : Bool) {text : List Char}
    (outside : ∀ character ∈ text.head?, 10 ≤ digitValue character) :
    strtol (sign negative :: text) 0 = (0, sign negative :: text) := by
  unfold strtol
  rw [convert_sign, takeDigits_none negative outside]

end Numeral
end Lib
end System6502
