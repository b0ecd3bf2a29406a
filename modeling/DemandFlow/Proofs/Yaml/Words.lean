import DemandFlow.Yaml.Node

/-!
Words of small letters, digits and underscores, which mean nothing but themselves in structured
text, and texts with a setting in each line, a word for its name and a word for its value.
-/

set_option autoImplicit false

namespace DemandFlow.Yaml

/-- A small letter, a digit or an underscore. -/
def isWordChar (char : Char) : Bool :=
  decide ('a' ≤ char ∧ char ≤ 'z') || char.isDigit || char == '_'

/-- At least one such character and nothing else. -/
def isWord (chars : List Char) : Bool :=
  !chars.isEmpty && chars.all isWordChar

theorem all_of_isWord {word : List Char} (proper : isWord word = true) :
    word.all isWordChar = true := by
  simp only [isWord, Bool.and_eq_true] at proper
  exact proper.2

theorem exists_cons_of_isWord {word : List Char} (proper : isWord word = true) :
    ∃ char rest, word = char :: rest ∧ isWordChar char = true := by
  cases word with
  | nil => cases proper
  | cons char rest =>
      simp only [isWord, List.all_cons, Bool.and_eq_true] at proper
      exact ⟨char, rest, rfl, proper.2.1⟩

section

variable {char : Char}

theorem toNat_of_isWordChar (wordChar : isWordChar char = true) :
    0x30 ≤ char.toNat ∧ char.toNat ≤ 0x7A := by
  by_cases underscore : char = '_'
  · subst underscore
    decide
  · simp [isWordChar, underscore, Char.isDigit, Char.le_def, UInt32.le_iff_toNat_le] at wordChar
    have same : char.toNat = char.val.toNat := rfl
    omega

theorem ne_of_isWordChar {sign : Char} (wordChar : isWordChar char = true)
    (apart : isWordChar sign = false) : char ≠ sign := by
  intro same
  rw [same, apart] at wordChar
  cases wordChar

theorem isReadable_of_isWordChar (wordChar : isWordChar char = true) :
    isReadable char = true := by
  have bounds := toNat_of_isWordChar wordChar
  have printable : 0x20 ≤ char.toNat ∧ char.toNat ≤ 0x7E := by omega
  simp [isReadable, printable]

theorem isBlank_of_isWordChar (wordChar : isWordChar char = true) : isBlank char = false := by
  simp (disch := decide) [isBlank, ne_of_isWordChar wordChar]

theorem isBreak_of_isWordChar (wordChar : isWordChar char = true) : isBreak char = false := by
  simp (disch := decide) [isBreak, ne_of_isWordChar wordChar]

theorem atMarker_of_isWordChar (wordChar : isWordChar char = true) (rest : List Char) :
    atMarker (char :: rest) = false := by
  simp (disch := decide) [atMarker, ne_of_isWordChar wordChar]

end

theorem evenBreaks_eq_self {chars : List Char}
    (even : ∀ char ∈ chars, char ≠ '\r' ∧ char ≠ '\x85') : evenBreaks chars = chars := by
  induction chars using evenBreaks.induct with
  | case1 => rfl
  | case2 rest inductionHypothesis => simp at even
  | case3 char rest _ inductionHypothesis =>
      rw [List.forall_mem_cons] at even
      rw [evenBreaks, inductionHypothesis even.2]
      · simp only [↓Char.isValue, even.1, or_self, ↓reduceIte]
      · grind

def Mark.along (mark : Mark) (count : Nat) : Mark :=
  { mark with offset := mark.offset + count, column := mark.column + count }

private theorem Mark.past_of_isWordChar {char : Char} (wordChar : isWordChar char = true)
    (mark : Mark) :
    mark.past char = mark.along 1 := by
  have bounds := toNat_of_isWordChar wordChar
  have narrow : char.utf8Size = 1 := by
    rw [Char.utf8Size_eq_one_iff, UInt32.le_iff_toNat_le, Char.toNat_val]
    change char.toNat ≤ 127
    omega
  simp [past, along, isBreak_of_isWordChar wordChar, narrow]

@[simp]
theorem Mark.along_along (mark : Mark) (first second : Nat) :
    (mark.along first).along second = mark.along (first + second) := by
  simp only [along, Nat.add_assoc]

theorem startsPlain_of_isWordChar {char : Char} (wordChar : isWordChar char = true) (flow : Bool)
    (rest : List Char) : startsPlain flow (char :: rest) = true := by
  have dash : char ≠ '-' := ne_of_isWordChar wordChar (by decide)
  have question : char ≠ '?' := ne_of_isWordChar wordChar (by decide)
  have colon : char ≠ ':' := ne_of_isWordChar wordChar (by decide)
  have blank := isBlank_of_isWordChar wordChar
  have unbroken := isBreak_of_isWordChar wordChar
  rw [startsPlain]
  · simp (disch := decide) [blank, unbroken, isFlowIndicator, ne_of_isWordChar wordChar]
  · simp only [↓Char.isValue, dash, imp_self]
  · simp only [↓Char.isValue, question, imp_self]
  · simp only [↓Char.isValue, colon, imp_self]

section

variable {word : List Char}

/-- A word is read to its end. -/
theorem plainFrom_word (wordChars : word.all isWordChar = true) (indent : Nat)
    (text rest : List Char) (mark : Mark) :
    plainFrom false indent text .none (word ++ rest) mark =
      plainFrom false indent (word.reverse ++ text) .none rest (mark.along word.length) := by
  induction word generalizing text mark with
  | nil => rfl
  | cons char word inductionHypothesis =>
      rw [List.all_cons, Bool.and_eq_true] at wordChars
      have blank := isBlank_of_isWordChar wordChars.1
      have unbroken := isBreak_of_isWordChar wordChars.1
      have inside : endsWord false char (word ++ rest) = false := by
        simp (disch := decide) [endsWord, ne_of_isWordChar wordChars.1]
      rw [List.cons_append, plainFrom]
      simp [blank, unbroken, inside, Gap.isNone, Gap.text, inductionHypothesis wordChars.2,
        Mark.past_of_isWordChar wordChars.1, Nat.add_comm]

theorem plainFrom_name (wordChars : word.all isWordChar = true) (indent : Nat) (rest : List Char)
    (mark : Mark) :
    plainFrom false indent [] .none (word ++ ':' :: ' ' :: rest) mark =
      some
        { text := String.ofList word
          brokenOff := false
          cursor := { rest := ':' :: ' ' :: rest, mark := mark.along word.length } } := by
  rw [plainFrom_word wordChars, plainFrom]
  simp [isBlank, isBreak, Gap.isNone, Gap.hasBreak, endsWord, atGap]

/-- A value ends with its line, if the next line begins further left. -/
theorem plainFrom_value (wordChars : word.all isWordChar = true) {indent : Nat}
    (indented : 0 < indent) {rest : List Char} (next : ∀ char ∈ rest.head?, isWordChar char = true)
    (mark : Mark) :
    plainFrom false indent [] .none (word ++ '\n' :: rest) mark =
      some
        { text := String.ofList word
          brokenOff := true
          cursor := { rest := rest, mark := (mark.along word.length).past '\n' } } := by
  have column : ((mark.along word.length).past '\n').column = 0 := rfl
  rw [plainFrom_word wordChars, plainFrom]
  cases rest with
  | nil => simp [isBlank, isBreak, Gap.add, plainFrom, Gap.hasBreak]
  | cons char rest =>
      have wordChar := next char rfl
      have blank := isBlank_of_isWordChar wordChar
      have unbroken := isBreak_of_isWordChar wordChar
      have broken : Gap.none.add '\n' = .breaks (some '\n') [] := rfl
      rw [if_pos (by decide), if_neg (by simp), broken, plainFrom]
      simp [blank, unbroken, Gap.isNone, Gap.hasBreak, endsPlain, column, indented]

end

end DemandFlow.Yaml
