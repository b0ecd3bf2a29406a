import DemandFlow.Yaml.Gap

/-!
Plain scalars: text without quotes. A plain scalar goes on over lines that are
indented far enough, and ends at a comment, at a colon before a gap, at a document
marker and, between brackets, at a bracket or a comma.
-/

set_option autoImplicit false

namespace DemandFlow.Yaml

structure PlainText where
  text : String
  /-- Whether the scalar was followed by a line break. -/
  brokenOff : Bool
  cursor : Cursor

/-- Whether a word that begins here, behind a gap, is no part of the scalar any more.
Lines must be indented by `indent`, except between brackets. -/
def endsPlain (flow : Bool) (indent : Nat) (chars : List Char) (mark : Mark) : Bool :=
  (!flow && decide (mark.column < indent)) || (mark.column == 0 && atMarker chars) ||
    chars.head? == some '#'

/-- Whether a colon stands where a bracket, a comma or a question mark takes its gap's
place. -/
def crowdedColon (char : Char) (rest : List Char) : Bool :=
  char == ':' && rest.head?.any (fun next => isFlowIndicator next || next == '?')

/-- Whether a character ends the word before it and with it the scalar. -/
def endsWord (flow : Bool) (char : Char) (rest : List Char) : Bool :=
  (char == ':' && atGap rest) || (flow && isFlowIndicator char)

/-- Reads on with the text so far, last character first, and the gap behind it. -/
def plainFrom (flow : Bool) (indent : Nat) (text : List Char) (gap : Gap) :
    List Char → Mark → Option PlainText
  | [], mark =>
      some
        { text := String.ofList text.reverse
          brokenOff := gap.hasBreak
          cursor := { rest := [], mark := mark } }
  | char :: rest, mark =>
      if isBlank char || isBreak char then
        if char == '\t' && gap.hasBreak && decide (mark.column < indent) then none
        else plainFrom flow indent text (gap.add char) rest (mark.past char)
      else if !gap.isNone && endsPlain flow indent (char :: rest) mark then
        some
          { text := String.ofList text.reverse
            brokenOff := gap.hasBreak
            cursor := { rest := char :: rest, mark := mark } }
      else if flow && crowdedColon char rest then
        none
      else if endsWord flow char rest then
        some
          { text := String.ofList text.reverse
            brokenOff := gap.hasBreak
            cursor := { rest := char :: rest, mark := mark } }
      else
        plainFrom flow indent (char :: gap.text.reverse ++ text) .none rest (mark.past char)

def startsPlain (flow : Bool) : List Char → Bool
  | [] => false
  | '-' :: rest => !rest.head?.any isBlank
  | '?' :: rest | ':' :: rest => !flow && !atGap rest
  | char :: _ =>
      !(isBlank char || isBreak char || isFlowIndicator char ||
        ['#', '&', '*', '!', '|', '>', '\x27', '\x22', '%', '@', '\x60'].contains char)

end DemandFlow.Yaml
