import DemandFlow.Yaml.Place

/-!
Gaps between the words of a scalar. Blanks within a line are kept. Blanks at the ends
of lines are dropped, a single line break becomes a space, and of several breaks the
first one is dropped.
-/

set_option autoImplicit false

namespace DemandFlow.Yaml

inductive Gap where
  /-- No gap: a word goes on. -/
  | none
  | blanks (text : List Char)
  /-- A line break, unless it was written so as to leave no trace, and the breaks of the
  empty lines below. -/
  | breaks (first : Option Char) (further : List Char)

namespace Gap

def isNone : Gap → Bool
  | .none => true
  | _ => false

def hasBreak : Gap → Bool
  | .breaks _ _ => true
  | _ => false

def add (gap : Gap) (char : Char) : Gap :=
  match gap with
  | .breaks first further =>
      if isBreak char then .breaks first (further ++ [char]) else .breaks first further
  | .blanks text => if isBreak char then .breaks (some char) [] else .blanks (text ++ [char])
  | .none => if isBreak char then .breaks (some char) [] else .blanks [char]

def text : Gap → List Char
  | .none => []
  | .blanks text => text
  | .breaks (some '\n') [] => [' ']
  | .breaks (some '\n') further => further
  | .breaks first further => first.toList ++ further

end Gap

end DemandFlow.Yaml
