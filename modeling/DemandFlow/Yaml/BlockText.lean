import DemandFlow.Yaml.Place

/-!
Block scalars: lines of text below a header. The lines end where one is indented
less than the others. A literal scalar keeps its line breaks; a folded one joins lines
by spaces, except next to lines that begin with a blank. The header tells what becomes
of the breaks at the end.
-/

set_option autoImplicit false

namespace DemandFlow.Yaml

inductive Chomping where
  /-- All of them are dropped. -/
  | strip
  /-- The first one is kept. -/
  | clip
  /-- All of them are kept. -/
  | keep
  deriving DecidableEq

/-- The header of a block scalar; the indentation is counted from the parent's. -/
structure BlockHeader where
  chomping : Chomping := .clip
  indentation : Option Nat := none

def chomping? : Char → Option Chomping
  | '+' => some .keep
  | '-' => some .strip
  | _ => none

def indentation? (char : Char) : Option Nat :=
  if '1' ≤ char ∧ char ≤ '9' then digit? char else none

def headerMarks : List Char → BlockHeader × List Char
  | [] => ({}, [])
  | char :: rest =>
      match chomping? char, indentation? char with
      | some chomping, _ =>
          match rest.head?.bind indentation? with
          | some indentation =>
              ({ chomping := chomping, indentation := some indentation }, rest.drop 1)
          | none => ({ chomping := chomping }, rest)
      | none, some indentation =>
          match rest.head?.bind chomping? with
          | some chomping =>
              ({ chomping := chomping, indentation := some indentation }, rest.drop 1)
          | none => ({ indentation := some indentation }, rest)
      | none, none => ({}, char :: rest)

/-- What follows blanks and a comment up to the end of the line, which must come next. -/
def restOfLine? (chars : List Char) : Option (List Char) :=
  let chars := chars.dropWhile isBlank
  let chars := match chars with
    | '#' :: rest => rest.dropWhile (fun char => !isBreak char)
    | chars => chars
  if atBreak chars then some (chars.drop 1) else none

/-- The state of a reader of block text. -/
structure BlockText where
  /-- The column of the lines, once it is known. -/
  indent : Option Nat
  /-- The widest margin seen. -/
  widest : Nat := 0
  /-- The text so far, last character first. -/
  text : List Char := []
  /-- The break of the last line with text. -/
  lineBreak : Option Char := none
  /-- The breaks of the empty lines below it. -/
  emptyLines : List Char := []
  /-- Whether the last line with text begins with a blank. -/
  blankLed : Bool := false
  /-- Whether the reader is behind the margin of a line. -/
  inLine : Bool := false

namespace BlockText

def inMargin (state : BlockText) (column : Nat) : Bool :=
  state.indent.all (fun indent => decide (column < indent))

def joint (state : BlockText) (literal : Bool) (char : Char) : List Char :=
  let first :=
    if !literal && state.lineBreak == some '\n' && !state.blankLed && !isBlank char then
      if state.emptyLines.isEmpty then [' '] else []
    else
      state.lineBreak.toList
  first ++ state.emptyLines

def startLine (state : BlockText) (literal : Bool) (char : Char) : BlockText :=
  { state with
    text := char :: (state.joint literal char).reverse ++ state.text
    lineBreak := none
    emptyLines := []
    blankLed := isBlank char
    inLine := true }

def finish (state : BlockText) (chomping : Chomping) : String :=
  let tail := match chomping with
    | .strip => []
    | .clip => state.lineBreak.toList
    | .keep => state.lineBreak.toList ++ state.emptyLines
  String.ofList (state.text.reverse ++ tail)

/-- Reads on. Unless the header tells it, the lines begin in the widest column up to the
first line with text, and no further left than `least`. -/
def readFrom (literal : Bool) (chomping : Chomping) (least : Nat) (state : BlockText) :
    List Char → Mark → Option (String × Cursor)
  | [], mark => some (state.finish chomping, { rest := [], mark := mark })
  | char :: rest, mark =>
      if state.inLine then
        if isBreak char then
          readFrom literal chomping least
            { state with lineBreak := some char, inLine := false } rest (mark.past char)
        else
          readFrom literal chomping least { state with text := char :: state.text } rest
            (mark.past char)
      else if char == ' ' && state.inMargin mark.column then
        readFrom literal chomping least
          { state with widest := max state.widest (mark.column + 1) } rest (mark.past char)
      else if char == '\t' && state.inMargin mark.column then
        none
      else if isBreak char then
        readFrom literal chomping least
          { state with emptyLines := state.emptyLines ++ [char] } rest (mark.past char)
      else
        let indent := state.indent.getD (max state.widest least)
        if mark.column == indent then
          readFrom literal chomping least
            ({ state with indent := some indent }.startLine literal char) rest (mark.past char)
        else
          some (state.finish chomping, { rest := char :: rest, mark := mark })

end BlockText

/-- Reads a block scalar from behind the sign that introduces it. The parent's content
begins in column `base`. -/
def blockText (literal : Bool) (base : Nat) (cursor : Cursor) : Option (String × Cursor) :=
  let (header, marked) := headerMarks cursor.rest
  (restOfLine? marked).bind fun rest =>
    let body := cursor.upTo rest
    let indent := header.indentation.map (fun indentation => (base - 1) + indentation)
    BlockText.readFrom literal header.chomping (max base 1) { indent := indent } body.rest body.mark

end DemandFlow.Yaml
