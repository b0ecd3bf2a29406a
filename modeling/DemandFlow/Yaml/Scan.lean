import DemandFlow.Yaml.Layout
import DemandFlow.Yaml.PlainText
import DemandFlow.Yaml.Property
import DemandFlow.Yaml.QuotedText

/-!
From text to tokens.
-/

set_option autoImplicit false

namespace DemandFlow.Yaml

/-- Skips blanks, comments and line breaks, and tells whether a key may begin behind them.
Outside of brackets a line break allows a key, and where a key is allowed a tab is not
skipped. A byte order mark may begin a line. -/
def skipFrom (flow inComment keyAllowed : Bool) : List Char → Mark → Bool × Cursor
  | [], mark => (keyAllowed, { rest := [], mark := mark })
  | char :: rest, mark =>
      if isBreak char then
        skipFrom flow false (keyAllowed || !flow) rest (mark.past char)
      else if inComment || char == ' ' || (char == '\t' && (flow || !keyAllowed)) ||
          (char == '\ufeff' && mark.column == 0) then
        skipFrom flow inComment keyAllowed rest (mark.past char)
      else if char == '#' then
        skipFrom flow true keyAllowed rest (mark.past char)
      else
        (keyAllowed, { rest := char :: rest, mark := mark })

namespace Layout

/-- Reads a token of a part that stands within its line and may begin a key. -/
def readPart (layout : Layout) (cursor : Cursor) (part : Part Token) : Option (Layout × Cursor) :=
  part.bind fun (token, rest) =>
    (layout.pushKeyPart cursor.mark token).map fun layout => (layout, cursor.upTo rest)

def readDirective (layout : Layout) (cursor : Cursor) (chars : List Char) :
    Option (Layout × Cursor) :=
  (directive chars).bind fun (token, rest) =>
    (layout.divide token).map fun layout => (layout, cursor.upTo rest)

def readBlock (layout : Layout) (cursor : Cursor) (style : ScalarStyle) :
    Option (Layout × Cursor) :=
  layout.releaseKey.bind fun layout =>
    (blockText (style == .literal) layout.base (cursor.skip 1)).map fun (text, cursor) =>
      ({ layout with keyAllowed := true }.push (.scalar style text), cursor)

def readQuoted (layout : Layout) (cursor : Cursor) (isSingle : Bool) : Option (Layout × Cursor) :=
  (quotedText isSingle (cursor.skip 1)).bind fun (text, after) =>
    (layout.pushKeyPart cursor.mark (.scalar .quoted text)).map fun layout => (layout, after)

def readPlain (layout : Layout) (cursor : Cursor) : Option (Layout × Cursor) :=
  (plainFrom layout.inFlow layout.base [] .none cursor.rest cursor.mark).bind fun plain =>
    (layout.pushKeyPart cursor.mark (.scalar .plain plain.text)).map fun layout =>
      ({ layout with keyAllowed := plain.brokenOff }, plain.cursor)

def readToken (layout : Layout) (cursor : Cursor) (char : Char) (rest : List Char) :
    Option (Layout × Cursor) :=
  let sign (next : Option Layout) : Option (Layout × Cursor) :=
    next.map fun layout => (layout, cursor.skip 1)
  let loose := layout.inFlow || atGap rest
  if cursor.mark.column == 0 && char == '%' then
    layout.readDirective cursor rest
  else if cursor.mark.column == 0 && atMarker (char :: rest) then
    (layout.divide (if char == '-' then .documentStart else .documentEnd)).map fun layout =>
      (layout, cursor.skip 3)
  else if char == '[' then sign (layout.openFlow cursor.mark .flowListStart)
  else if char == '\x7b' then sign (layout.openFlow cursor.mark .flowMapStart)
  else if char == ']' then sign (layout.closeFlow .flowListEnd)
  else if char == '\x7d' then sign (layout.closeFlow .flowMapEnd)
  else if char == ',' then sign layout.separate
  else if char == '-' && atGap rest then sign (layout.startItem cursor.mark.column)
  else if char == '?' && loose then sign (layout.startKey cursor.mark.column)
  else if char == ':' && loose then sign (layout.startValue cursor.mark.column)
  else if char == '*' then
    layout.readPart cursor ((anchorName rest).map fun (name, rest) => (.alias name, rest))
  else if char == '&' then
    layout.readPart cursor ((anchorName rest).map fun (name, rest) => (.anchor name, rest))
  else if char == '!' then layout.readPart cursor (tagToken layout.inFlow rest)
  else if char == '|' && !layout.inFlow then layout.readBlock cursor .literal
  else if char == '>' && !layout.inFlow then layout.readBlock cursor .folded
  else if char == '\x27' then layout.readQuoted cursor true
  else if char == '\x22' then layout.readQuoted cursor false
  else if startsPlain layout.inFlow (char :: rest) then layout.readPlain cursor
  else none

def readTokens : Nat → Layout → Cursor → Option (List Token)
  | 0, _, _ => none
  | fuel + 1, layout, cursor =>
      let (keyAllowed, cursor) :=
        skipFrom layout.inFlow false layout.keyAllowed cursor.rest cursor.mark
      match { layout with keyAllowed := keyAllowed }.refreshKeys cursor.mark with
      | none => none
      | some layout =>
          let layout := layout.dedentTo cursor.mark.column
          match cursor.rest with
          | [] => layout.dedentAll.releaseKey.map fun layout => layout.tokens.reverse
          | char :: rest =>
              match layout.readToken cursor char rest with
              | none => none
              | some (layout, cursor) => readTokens fuel layout cursor

end Layout

/-- The tokens of a text. Every token takes at least one character. -/
def tokens (text : String) : Option (List Token) :=
  if text.toList.all isReadable then
    let chars := evenBreaks text.toList
    Layout.readTokens (chars.length + 1) {} { rest := chars }
  else
    none

end DemandFlow.Yaml
