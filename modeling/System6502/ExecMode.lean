import System6502.MemSpec
import Mathlib.Data.Bool.Basic

/-!
# Execution modes

`parse_exec_mode`, the parser of the command line for execution modes, its grammar, and the mode
that a sequence of items denotes.
-/

namespace System6502

/-! ## The parser -/

namespace ExecModeBits

/-- `isa_6502_opcode_exec_mode_staged`. -/
def staged : BitVec 32 := 0x00000000

/-- `isa_6502_opcode_exec_mode_static`. -/
def static : BitVec 32 := 0x00000001

/-- `isa_6502_opcode_exec_mode_mask`. -/
def mask : BitVec 32 := 0x0000000F

/-- `isa_6502_opcode_exec_mode_locking`. -/
def locking : BitVec 32 := 0x00000000

/-- `isa_6502_opcode_exec_mode_no_locking`. -/
def noLocking : BitVec 32 := 0x40000000

/-- `isa_6502_opcode_exec_mode_normal`. -/
def normal : BitVec 32 := 0x00000000

/-- `isa_6502_opcode_exec_mode_verbose`. -/
def verbose : BitVec 32 := 0x80000000

end ExecModeBits

open ExecModeBits

/-- The optional sign of an item: whether it negates, and the text after it. -/
def parseSign : List Char → Bool × List Char
  | '+' :: s => (false, s)
  | '-' :: s => (true, s)
  | s => (false, s)

/-- The word of an item: the mode that it makes of one, and the text after it. -/
def parseModeWord (isNegated : Bool) (s : List Char) (m : BitVec 32) :
    Option (BitVec 32 × List Char) :=
  if startsWith ['s', 't', 'a', 'g', 'e', 'd'] s then
    if isNegated then some (m &&& ~~~mask ||| static, s.drop 6)
    else some (m &&& ~~~mask ||| staged, s.drop 6)
  else if startsWith ['s', 't', 'a', 't', 'i', 'c'] s then
    if !isNegated then some (m &&& ~~~mask ||| static, s.drop 6)
    else some (m &&& ~~~mask ||| staged, s.drop 6)
  else if startsWith ['v', 'e', 'r', 'b', 'o', 's', 'e'] s then
    if isNegated then some (m &&& ~~~verbose, s.drop 7)
    else some (m &&& ~~~verbose ||| verbose, s.drop 7)
  else if startsWith ['n', 'o', 'r', 'm', 'a', 'l'] s then
    if !isNegated then some (m &&& ~~~verbose, s.drop 6)
    else some (m &&& ~~~verbose ||| verbose, s.drop 6)
  else if startsWith ['l', 'o', 'c', 'k', 's'] s then
    if isNegated then some (m &&& ~~~noLocking ||| noLocking, s.drop 5)
    else some (m &&& ~~~noLocking, s.drop 5)
  else if startsWith ['n', 'o', 'l', 'o', 'c', 'k', 's'] s then
    if !isNegated then some (m &&& ~~~noLocking ||| noLocking, s.drop 7)
    else some (m &&& ~~~noLocking, s.drop 7)
  else none

/-- The punctuation that is skipped after an item. -/
def isPunctuation (c : Char) : Bool := c == ',' || c == ' ' || c == '\t' || c == ';' || c == ':'

theorem length_parseSign_le (s : List Char) : (parseSign s).2.length ≤ s.length := by
  unfold parseSign
  split <;> simp only [List.length_cons] <;> omega

theorem startsWith_length_le {name text : List Char} (starts : startsWith name text = true) :
    name.length ≤ text.length := by
  have lengths := congrArg List.length (beq_iff_eq.mp starts)
  rw [List.length_map, List.length_map, List.length_take] at lengths
  omega

/-! ## Words -/

/-- The words of the grammar. -/
inductive ModeWord
  | staged
  | static
  | verbose
  | normal
  | locks
  | nolocks
  deriving DecidableEq, Repr

/-- The parts of a mode that words set. -/
inductive ModeGroup
  | stage
  | verbosity
  | locking
  deriving DecidableEq, Repr

namespace ModeWord

/-- The characters in lower case. -/
def text : ModeWord → List Char
  | staged => ['s', 't', 'a', 'g', 'e', 'd']
  | static => ['s', 't', 'a', 't', 'i', 'c']
  | verbose => ['v', 'e', 'r', 'b', 'o', 's', 'e']
  | normal => ['n', 'o', 'r', 'm', 'a', 'l']
  | locks => ['l', 'o', 'c', 'k', 's']
  | nolocks => ['n', 'o', 'l', 'o', 'c', 'k', 's']

/-- The part that the word sets. -/
def group : ModeWord → ModeGroup
  | staged | static => .stage
  | verbose | normal => .verbosity
  | locks | nolocks => .locking

/-- The word asks for what is not the default of its part. -/
def departs : ModeWord → Bool
  | static | verbose | nolocks => true
  | staged | normal | locks => false

end ModeWord

/-- The bits of a mode of which each part has its default or not. -/
def modeBits (departs : ModeGroup → Bool) : BitVec 32 :=
  (if departs .stage then static else staged) |||
    (if departs .verbosity then verbose else normal) |||
    (if departs .locking then noLocking else locking)

/-- What a word does to a mode. -/
def ModeWord.update (word : ModeWord) (isNegated : Bool) (m : BitVec 32) : BitVec 32 :=
  let departs := word.departs ^^ isNegated
  match word.group with
  | .stage => m &&& ~~~mask ||| if departs then ExecModeBits.static else ExecModeBits.staged
  | .verbosity =>
      if departs then m &&& ~~~ExecModeBits.verbose ||| ExecModeBits.verbose
      else m &&& ~~~ExecModeBits.verbose
  | .locking => if departs then m &&& ~~~noLocking ||| noLocking else m &&& ~~~noLocking

/-- No word is the start of another. -/
theorem ModeWord.eq_of_prefix_text {word other : ModeWord} (starts : word.text <+: other.text) :
    word = other := by
  rw [← List.isPrefixOf_iff_prefix] at starts
  cases word <;> cases other <;> first | rfl | exact absurd starts (by decide)

theorem ModeWord.lower_text (word : ModeWord) : word.text.map Char.toLower = word.text := by
  cases word <;> rfl

theorem startsWith_iff {word : ModeWord} {s : List Char} :
    startsWith word.text s = true ↔ word.text <+: s.map Char.toLower := by
  rw [startsWith, beq_iff_eq, word.lower_text, List.map_take, List.prefix_iff_eq_take]
  exact eq_comm

theorem ModeWord.eq_of_startsWith {word other : ModeWord} {s : List Char}
    (starts : startsWith word.text s = true) (starts' : startsWith other.text s = true) :
    word = other := by
  obtain isPrefix | isPrefix := List.prefix_or_prefix_of_prefix (startsWith_iff.mp starts)
    (startsWith_iff.mp starts')
  · exact eq_of_prefix_text isPrefix
  · exact (eq_of_prefix_text isPrefix).symm

/-- The words in the order in which they are tried. -/
def modeWords : List ModeWord := [.staged, .static, .verbose, .normal, .locks, .nolocks]

theorem parseModeWord_eq_find (isNegated : Bool) (s : List Char) (m : BitVec 32) :
    parseModeWord isNegated s m =
      (modeWords.find? fun word => startsWith word.text s).map fun word =>
        (word.update isNegated m, s.drop word.text.length) := by
  unfold parseModeWord modeWords
  simp only [List.find?_cons, List.find?_nil, ModeWord.text]
  cases isNegated <;>
    simp only [Bool.not_false, Bool.not_true, Bool.false_eq_true, if_true, if_false] <;>
    split_ifs <;> simp only [*] <;> rfl

theorem mem_modeWords (word : ModeWord) : word ∈ modeWords := by
  cases word <;> decide

theorem parseModeWord_eq {word : ModeWord} {s : List Char}
    (starts : startsWith word.text s = true) (isNegated : Bool) (m : BitVec 32) :
    parseModeWord isNegated s m =
      some (word.update isNegated m, s.drop word.text.length) := by
  rw [parseModeWord_eq_find]
  cases found : modeWords.find? fun word => startsWith word.text s with
  | none =>
      exact absurd starts (by simpa using List.find?_eq_none.mp found word (mem_modeWords word))
  | some other =>
      have starts' : startsWith other.text s = true :=
        List.find?_some (p := fun word : ModeWord => startsWith word.text s) found
      rw [ModeWord.eq_of_startsWith starts starts']
      rfl

theorem parseModeWord_some {isNegated : Bool} {s rest : List Char} {m after : BitVec 32}
    (parsed : parseModeWord isNegated s m = some (after, rest)) :
    ∃ word : ModeWord, startsWith word.text s = true ∧ after = word.update isNegated m ∧
      rest = s.drop word.text.length := by
  rw [parseModeWord_eq_find, Option.map_eq_some_iff] at parsed
  obtain ⟨word, found, result_eq⟩ := parsed
  cases result_eq
  exact ⟨word, List.find?_some (p := fun word : ModeWord => startsWith word.text s) found, rfl, rfl⟩

theorem length_lt_of_parseModeWord {isNegated : Bool} {s rest : List Char} {m after : BitVec 32}
    (parsed : parseModeWord isNegated s m = some (after, rest)) : rest.length < s.length := by
  obtain ⟨word, starts, -, rfl⟩ := parseModeWord_some parsed
  have text_le := startsWith_length_le starts
  have text_pos : 0 < word.text.length := by cases word <;> decide
  rw [List.length_drop]
  omega

/-! ## The loop -/

/-- The loop of `parse_exec_mode`, with the text at which it stops. -/
def parseModeItems (s : List Char) (m : BitVec 32) : Option (BitVec 32 × List Char) :=
  if s = [] then some (m, s)
  else
    let signed := parseSign s
    match _parsed : parseModeWord signed.1 signed.2 m with
    | some (m, rest) => parseModeItems (rest.dropWhile isPunctuation) m
    | none => none
termination_by s.length
decreasing_by
  have word_le : signed.2.length ≤ s.length := length_parseSign_le s
  have rest_lt := length_lt_of_parseModeWord _parsed
  have skipped_le := (List.dropWhile_sublist isPunctuation (l := rest)).length_le
  omega

theorem parseModeItems_some {s rest : List Char} {m after : BitVec 32} (nonempty : s ≠ [])
    (parsed : parseModeWord (parseSign s).1 (parseSign s).2 m = some (after, rest)) :
    parseModeItems s m = parseModeItems (rest.dropWhile isPunctuation) after := by
  rw [parseModeItems, if_neg nonempty]
  dsimp only
  split
  case h_1 m' rest' parsed' =>
    rw [parsed] at parsed'
    cases parsed'
    rfl
  case h_2 parsed' =>
    rw [parsed] at parsed'
    cases parsed'

/-- `parse_exec_mode`: the pointer that it returns and what it leaves in `*exec_mode`. -/
def parseExecMode (s : List Char) (execMode : BitVec 32) : Option (List Char) × BitVec 32 :=
  match parseModeItems s 0 with
  | some (m, rest) => if rest ≠ [] then (none, execMode) else (some rest, m)
  | none => (none, execMode)

/-! ## Items -/

/-- An item of the grammar. -/
structure ModeItem where
  /-- The sign, which is a minus sign or not. -/
  sign : Option Bool
  /-- The word. -/
  word : ModeWord
  /-- The characters of the word. -/
  spelling : List Char
  /-- They differ from the word in the case of letters at most. -/
  spells : spelling.map Char.toLower = word.text
  /-- The separators after the word. -/
  separators : List Char
  /-- They are commas, spaces, tabs, semicolons and colons. -/
  separate : ∀ c ∈ separators, c ∈ [',', ' ', '\t', ';', ':']

namespace ModeItem

/-- The characters of the sign. -/
def signText (item : ModeItem) : List Char :=
  match item.sign with
  | none => []
  | some false => ['+']
  | some true => ['-']

/-- The characters. -/
def text (item : ModeItem) : List Char := item.signText ++ item.spelling ++ item.separators

/-- The item inverts its word. -/
def inverts (item : ModeItem) : Bool := item.sign.getD false

/-- The item asks for what is not the default of its part. -/
def departs (item : ModeItem) : Bool := item.word.departs ^^ item.inverts

/-- What the item makes of a mode. -/
def update (item : ModeItem) (m : BitVec 32) : BitVec 32 := item.word.update item.inverts m

end ModeItem

/-- The characters of a sequence of items. -/
def itemsText (items : List ModeItem) : List Char := items.flatMap ModeItem.text

/-- Whether the last item of a part asks for what is not its default. -/
def lastDeparts (items : List ModeItem) (group : ModeGroup) : Bool :=
  match (items.filter fun item => item.word.group = group).getLast? with
  | some item => item.departs
  | none => false

/-- The mode that a sequence of items denotes. -/
def denotedMode (items : List ModeItem) : BitVec 32 := modeBits (lastDeparts items)

/-! ## Parsing one item -/

theorem isPunctuation_iff (c : Char) :
    isPunctuation c = true ↔ c ∈ [',', ' ', '\t', ';', ':'] := by
  simp only [isPunctuation, Bool.or_eq_true, beq_iff_eq, List.mem_cons, List.not_mem_nil, or_false,
    or_assoc]

/-- What a text starts with is no separator. -/
def Begins (s : List Char) : Prop := ∀ c ∈ s.head?, isPunctuation c = false

theorem dropWhile_separators {separators rest : List Char}
    (separate : ∀ c ∈ separators, c ∈ [',', ' ', '\t', ';', ':']) (begins : Begins rest) :
    (separators ++ rest).dropWhile isPunctuation = rest := by
  rw [List.dropWhile_append_of_pos fun c member => (isPunctuation_iff c).mpr (separate c member)]
  cases rest with
  | nil => rfl
  | cons c others =>
      rw [List.dropWhile_cons_of_neg]
      exact Bool.eq_false_iff.mp (begins c rfl)

/-- The first letter of a word. -/
theorem ModeWord.exists_cons (word : ModeWord) :
    ∃ first others, word.text = first :: others ∧ first ∈ ['s', 'v', 'n', 'l'] := by
  cases word <;> exact ⟨_, _, rfl, by decide⟩

/-- A spelled word begins with a letter: with neither a sign nor a separator. -/
theorem ModeItem.spelling_cons (item : ModeItem) :
    ∃ first others, item.spelling = first :: others ∧
      first ∉ ['+', '-', ',', ' ', '\t', ';', ':'] := by
  obtain ⟨lower, others, text_eq, letter⟩ := item.word.exists_cons
  have spells := item.spells
  rw [text_eq] at spells
  obtain ⟨first, rest, spelling_eq, lower_eq, -⟩ := List.map_eq_cons_iff.mp spells
  refine ⟨first, rest, spelling_eq, fun other => ?_⟩
  rw [← lower_eq] at letter
  simp only [List.mem_cons, List.not_mem_nil, or_false] at other
  rcases other with rfl | rfl | rfl | rfl | rfl | rfl | rfl <;> exact absurd letter (by decide)

theorem ModeItem.begins (item : ModeItem) (rest : List Char) : Begins (item.text ++ rest) := by
  obtain ⟨first, others, spelling_eq, plain⟩ := item.spelling_cons
  intro c member
  rw [Bool.eq_false_iff, Ne, isPunctuation_iff]
  rw [ModeItem.text, spelling_eq] at member
  unfold ModeItem.signText at member
  split at member
  · cases member
    exact fun separator => plain (by simp only [List.mem_cons] at separator ⊢; tauto)
  · cases member
    decide
  · cases member
    decide

theorem ModeItem.parseSign_text (item : ModeItem) (rest : List Char) :
    parseSign (item.text ++ rest) = (item.inverts, item.spelling ++ (item.separators ++ rest)) := by
  obtain ⟨first, others, spelling_eq, plain⟩ := item.spelling_cons
  simp only [List.mem_cons, not_or] at plain
  rw [text, List.append_assoc, List.append_assoc, inverts, signText]
  cases item.sign with
  | none =>
      rw [spelling_eq]
      exact parseSign.eq_3 _ (fun s eq => plain.1 (List.cons.inj eq).1)
        (fun s eq => plain.2.1 (List.cons.inj eq).1)
  | some negative => cases negative <;> rfl

/-- One turn of the loop consumes one item. -/
theorem parseModeItems_item (item : ModeItem) {rest : List Char} (begins : Begins rest)
    (m : BitVec 32) :
    parseModeItems (item.text ++ rest) m = parseModeItems rest (item.update m) := by
  have length_eq : item.word.text.length = item.spelling.length := by
    rw [← item.spells, List.length_map]
  have starts : startsWith item.word.text (item.spelling ++ (item.separators ++ rest)) = true := by
    rw [startsWith, length_eq, List.take_left, item.spells, item.word.lower_text, beq_self_eq_true]
  have parsed := parseModeWord_eq starts item.inverts m
  rw [length_eq, List.drop_left] at parsed
  have nonempty : item.text ++ rest ≠ [] := by
    obtain ⟨first, others, spelling_eq, -⟩ := item.spelling_cons
    simp [ModeItem.text, spelling_eq]
  rw [parseModeItems_some nonempty (by rw [item.parseSign_text, parsed]),
    dropWhile_separators item.separate begins]
  rfl

/-! ## Texts and items -/

/-- The loop consumes the text of any items, and each makes its change to the mode. -/
theorem parseModeItems_itemsText (items : List ModeItem) (m : BitVec 32) :
    Begins (itemsText items) ∧
      parseModeItems (itemsText items) m =
        some (items.foldl (fun m item => item.update m) m, []) := by
  induction items generalizing m with
  | nil =>
      refine ⟨by rintro c ⟨⟩, ?_⟩
      rw [parseModeItems]
      rfl
  | cons item items ih =>
      obtain ⟨begins, parsed⟩ := ih (item.update m)
      refine ⟨item.begins _, ?_⟩
      exact (parseModeItems_item item begins m).trans parsed

/-- The sign that has been read is the sign of an item. -/
theorem parseSign_cases (s : List Char) :
    ∃ sign : Option Bool, (parseSign s).1 = sign.getD false ∧
      s = (match sign with
        | none => []
        | some false => ['+']
        | some true => ['-']) ++ (parseSign s).2 := by
  unfold parseSign
  split
  · exact ⟨some false, rfl, rfl⟩
  · exact ⟨some true, rfl, rfl⟩
  · exact ⟨none, rfl, rfl⟩

/-- A text that the loop consumes is the text of items. -/
theorem exists_items {s rest : List Char} {m after : BitVec 32}
    (parsed : parseModeItems s m = some (after, rest)) :
    rest = [] ∧ ∃ items, itemsText items = s := by
  fun_induction parseModeItems s m with
  | case1 m =>
      cases parsed
      exact ⟨rfl, [], rfl⟩
  | case2 s m nonempty signed m' after' word ih =>
      obtain ⟨rest_eq, items, text_eq⟩ := ih parsed
      obtain ⟨sign, -, s_eq⟩ := parseSign_cases s
      obtain ⟨modeWord, starts, -, after_eq⟩ := parseModeWord_some word
      let item : ModeItem :=
        { sign
          word := modeWord
          spelling := signed.2.take modeWord.text.length
          spells := (beq_iff_eq.mp starts).trans modeWord.lower_text
          separators := after'.takeWhile isPunctuation
          separate := fun c member =>
            (isPunctuation_iff c).mp (List.mem_takeWhile_imp member) }
      refine ⟨rest_eq, item :: items, ?_⟩
      change item.text ++ itemsText items = s
      have split_eq : after'.takeWhile isPunctuation ++ itemsText items = after' := by
        rw [text_eq, List.takeWhile_append_dropWhile]
      calc
        item.text ++ itemsText items =
            item.signText ++ (item.spelling ++ (item.separators ++ itemsText items)) := by
          rw [ModeItem.text, List.append_assoc, List.append_assoc]
        _ = item.signText ++ signed.2 := by
          rw [split_eq, after_eq, List.take_append_drop]
        _ = s := s_eq.symm
  | case3 s m nonempty signed none => cases parsed

/-! ## The mode of items -/

/-- The change that an item makes to the bits of a mode is to the part of its word alone. -/
theorem ModeItem.update_modeBits (item : ModeItem) (departs : ModeGroup → Bool) :
    item.update (modeBits departs) =
      modeBits (Function.update departs item.word.group item.departs) := by
  unfold ModeItem.update ModeItem.departs modeBits
  simp only [Function.update_apply]
  generalize item.word = word, item.inverts = inverts, departs .stage = stage,
    departs .verbosity = verbosity, departs .locking = locks
  cases word <;> cases inverts <;> cases stage <;> cases verbosity <;> cases locks <;> rfl

/-- What items make of the parts of a mode is what the last item of each part makes of it. -/
theorem foldl_update (items : List ModeItem) :
    items.foldl (fun m item => item.update m) 0 = denotedMode items := by
  induction items using List.reverseRecOn with
  | nil => rfl
  | append_singleton items item ih =>
      rw [List.foldl_append, ih, List.foldl_cons, List.foldl_nil, denotedMode,
        item.update_modeBits, denotedMode]
      refine congrArg modeBits (funext fun group => ?_)
      by_cases same : item.word.group = group
      · subst same
        rw [Function.update_self, lastDeparts, List.filter_append, List.filter_cons_of_pos]
        · rw [List.filter_nil, List.getLast?_concat]
        · exact decide_eq_true rfl
      · rw [Function.update_of_ne (Ne.symm same), lastDeparts, lastDeparts, List.filter_append,
          List.filter_cons_of_neg, List.filter_nil, List.append_nil]
        exact fun equal => same (of_decide_eq_true equal)

/-- The parser accepts exactly the texts of items, of which it returns the mode with a pointer to
the end of the text; otherwise it returns no pointer and leaves the mode as it was. -/
theorem parseExecMode_exact (s : List Char) (execMode : BitVec 32) :
    (∀ items, itemsText items = s →
      parseExecMode s execMode = (some [], denotedMode items)) ∧
    ((∀ items, itemsText items ≠ s) → parseExecMode s execMode = (none, execMode)) := by
  constructor
  · rintro items rfl
    rw [parseExecMode, (parseModeItems_itemsText items 0).2, foldl_update]
    rfl
  · intro foreign
    rw [parseExecMode]
    cases parsed : parseModeItems s 0 with
    | none => rfl
    | some result =>
        obtain ⟨-, items, text_eq⟩ := exists_items parsed
        exact absurd text_eq (foreign items)

end System6502
