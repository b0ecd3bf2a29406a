/-!
Characters of structured text and places in it. A place is told by its line, its
column and the number of bytes before it. Line breaks of one meaning are made equal
before anything is read, so that every break is a single character.
-/

set_option autoImplicit false

namespace DemandFlow.Yaml

/-- Whether a text may hold the character at all. Controls other than the tab and the
line breaks may not stand in a text. -/
def isReadable (char : Char) : Bool :=
  let code := char.toNat
  code == 0x9 || code == 0xA || code == 0xD || code == 0x85 ||
    (decide (0x20 ≤ code) && decide (code ≤ 0x7E)) ||
    (decide (0xA0 ≤ code) && decide (code ≤ 0xFFFD)) || decide (0x10000 ≤ code)

/-- The same text with a line feed for a carriage return, for both together and for the
next-line character. The line and paragraph separators stay what they are. -/
def evenBreaks : List Char → List Char
  | [] => []
  | '\r' :: '\n' :: rest => '\n' :: evenBreaks rest
  | char :: rest => (if char = '\r' ∨ char = '\x85' then '\n' else char) :: evenBreaks rest

def isBreak (char : Char) : Bool :=
  char == '\n' || char == '\u2028' || char == '\u2029'

def isBlank (char : Char) : Bool :=
  char == ' ' || char == '\t'

def isNameChar (char : Char) : Bool :=
  char.isAlphanum || char == '_' || char == '-'

/-- The brackets and the comma, which end a word between brackets. -/
def isFlowIndicator (char : Char) : Bool :=
  char == ',' || char == '[' || char == ']' || char == '\x7b' || char == '\x7d'

def atGap : List Char → Bool
  | [] => true
  | char :: _ => isBlank char || isBreak char

def atBreak : List Char → Bool
  | [] => true
  | char :: _ => isBreak char

def atMarker (chars : List Char) : Bool :=
  (chars.take 3 == ['-', '-', '-'] || chars.take 3 == ['.', '.', '.']) && atGap (chars.drop 3)

def digit? (char : Char) : Option Nat :=
  if '0' ≤ char ∧ char ≤ '9' then some (char.toNat - '0'.toNat)
  else if 'a' ≤ char ∧ char ≤ 'f' then some (char.toNat - 'a'.toNat + 10)
  else if 'A' ≤ char ∧ char ≤ 'F' then some (char.toNat - 'A'.toNat + 10)
  else none

structure Mark where
  /-- The bytes before the place. -/
  offset : Nat := 0
  line : Nat := 0
  /-- The characters before the place in its line. -/
  column : Nat := 0
  deriving DecidableEq

/-- The place behind a character of the line, or behind a line break. -/
def Mark.past (mark : Mark) (char : Char) : Mark :=
  if isBreak char then
    { offset := mark.offset + char.utf8Size, line := mark.line + 1, column := 0 }
  else
    { mark with offset := mark.offset + char.utf8Size, column := mark.column + 1 }

structure Cursor where
  rest : List Char
  mark : Mark := {}

def Cursor.skip (cursor : Cursor) : Nat → Cursor
  | 0 => cursor
  | count + 1 =>
      match cursor.rest with
      | [] => cursor
      | char :: rest => skip { rest := rest, mark := cursor.mark.past char } count

/-- The cursor where only the given end of its text is left. -/
def Cursor.upTo (cursor : Cursor) (rest : List Char) : Cursor :=
  cursor.skip (cursor.rest.length - rest.length)

end DemandFlow.Yaml
