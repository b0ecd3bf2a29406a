import DemandFlow.Yaml.Place
import DemandFlow.Yaml.Token

/-!
The layout of structured text as it is read: the tokens so far, the columns of the
open block collections, and what may still turn out to be a key. A key stands in one
line, is no longer than 1024 bytes, and is known to be one only at its colon, when its
token and the start of its mapping are put in before it.
-/

set_option autoImplicit false

namespace DemandFlow.Yaml

/-- Something that is a key if a colon follows. -/
structure KeyCandidate where
  /-- How many tokens come before it. -/
  place : Nat
  mark : Mark
  /-- Whether it can be nothing but a key. -/
  required : Bool

def KeyCandidate.isStale (candidate : KeyCandidate) (mark : Mark) : Bool :=
  decide (candidate.mark.line < mark.line) || decide (candidate.mark.offset + 1024 < mark.offset)

structure Layout where
  /-- The tokens so far, last one first. -/
  tokens : List Token := []
  /-- The columns of the open block collections, innermost first. -/
  indents : List Nat := []
  /-- Whether a key may begin here. -/
  keyAllowed : Bool := true
  /-- The candidate between the innermost brackets. -/
  candidate : Option KeyCandidate := none
  /-- The candidates outside of them, one for each pair of brackets. -/
  outer : List (Option KeyCandidate) := []

namespace Layout

def inFlow (layout : Layout) : Bool :=
  !layout.outer.isEmpty

/-- The first column right of the innermost block collection's. -/
def base (layout : Layout) : Nat :=
  match layout.indents with
  | [] => 0
  | indent :: _ => indent + 1

def push (layout : Layout) (token : Token) : Layout :=
  { layout with tokens := token :: layout.tokens }

def insert (layout : Layout) (place : Nat) (tokens : List Token) : Layout :=
  let later := layout.tokens.length - place
  { layout with
    tokens := layout.tokens.take later ++ tokens.reverse ++ layout.tokens.drop later }

def indentTo (layout : Layout) (column : Nat) (start : Token) : Layout :=
  if !layout.inFlow && decide (layout.base ≤ column) then
    { layout with indents := column :: layout.indents }.push start
  else
    layout

def dedentTo (layout : Layout) (column : Nat) : Layout :=
  if layout.inFlow then layout
  else
    let closed := layout.indents.takeWhile (fun indent => decide (column < indent))
    { layout with
      indents := layout.indents.drop closed.length
      tokens := List.replicate closed.length .blockEnd ++ layout.tokens }

def dedentAll (layout : Layout) : Layout :=
  if layout.inFlow then layout
  else
    { layout with
      indents := []
      tokens := List.replicate layout.indents.length .blockEnd ++ layout.tokens }

def release : Option KeyCandidate → Option (Option KeyCandidate)
  | none => some none
  | some candidate => if candidate.required then none else some none

def releaseKey (layout : Layout) : Option Layout :=
  (release layout.candidate).map fun candidate => { layout with candidate := candidate }

def refresh (mark : Mark) : Option KeyCandidate → Option (Option KeyCandidate)
  | none => some none
  | some candidate =>
      if candidate.isStale mark then release (some candidate) else some (some candidate)

def refreshKeys (layout : Layout) (mark : Mark) : Option Layout :=
  match refresh mark layout.candidate, layout.outer.mapM (refresh mark) with
  | some candidate, some outer => some { layout with candidate := candidate, outer := outer }
  | _, _ => none

/-- Takes the next token for a candidate, if a key may begin here. -/
def saveKey (layout : Layout) (mark : Mark) : Option Layout :=
  if layout.keyAllowed then
    layout.releaseKey.map fun layout =>
      { layout with
        candidate := some
          { place := layout.tokens.length
            mark := mark
            required := !layout.inFlow && layout.indents.head? == some mark.column } }
  else
    some layout

def openFlow (layout : Layout) (mark : Mark) (start : Token) : Option Layout :=
  (layout.saveKey mark).map fun layout =>
    { layout with
      candidate := none
      outer := layout.candidate :: layout.outer
      keyAllowed := true }.push start

def closeFlow (layout : Layout) (finish : Token) : Option Layout :=
  layout.releaseKey.map fun layout =>
    match layout.outer with
    | [] => { layout with keyAllowed := false }.push finish
    | candidate :: outer =>
        { layout with candidate := candidate, outer := outer, keyAllowed := false }.push finish

def separate (layout : Layout) : Option Layout :=
  layout.releaseKey.map fun layout => { layout with keyAllowed := true }.push .flowEntry

def divide (layout : Layout) (marker : Token) : Option Layout :=
  layout.dedentAll.releaseKey.map fun layout => { layout with keyAllowed := false }.push marker

/-- A dash before an item. Between brackets it is left to be found out of place. -/
def startItem (layout : Layout) (column : Nat) : Option Layout :=
  if !layout.inFlow && !layout.keyAllowed then none
  else
    (layout.indentTo column .blockListStart).releaseKey.map fun layout =>
      { layout with keyAllowed := true }.push .blockEntry

def startKey (layout : Layout) (column : Nat) : Option Layout :=
  if !layout.inFlow && !layout.keyAllowed then none
  else
    (layout.indentTo column .blockMapStart).releaseKey.map fun layout =>
      { layout with keyAllowed := !layout.inFlow }.push .key

/-- A colon behind a candidate makes it a key, and opens a mapping in its column. -/
def acceptKey (layout : Layout) (candidate : KeyCandidate) : Layout :=
  let opens := !layout.inFlow && decide (layout.base ≤ candidate.mark.column)
  let keyed := layout.insert candidate.place (if opens then [.blockMapStart, .key] else [.key])
  { keyed with
    indents := if opens then candidate.mark.column :: layout.indents else layout.indents
    candidate := none
    keyAllowed := false }

def startValue (layout : Layout) (column : Nat) : Option Layout :=
  match layout.candidate with
  | some candidate => some ((layout.acceptKey candidate).push .value)
  | none =>
      if !layout.inFlow && !layout.keyAllowed then none
      else
        let opened := layout.indentTo column .blockMapStart
        some ({ opened with keyAllowed := !layout.inFlow }.push .value)

def pushKeyPart (layout : Layout) (mark : Mark) (token : Token) : Option Layout :=
  (layout.saveKey mark).map fun layout => { layout with keyAllowed := false }.push token

end Layout

end DemandFlow.Yaml
