import DemandFlow.Rate.Basic
import DemandFlow.Yaml.Node

/-!
The meaning of scalars: truth values, the null value, counts and names. A plain scalar
can mean any of them and a literal one what its tag says; a quoted scalar is always
text.
-/

set_option autoImplicit false

namespace DemandFlow.Yaml

def numeral? (base : Nat) (chars : List Char) : Option Nat :=
  if chars.isEmpty then none
  else
    chars.foldl (fun value char =>
      value.bind fun value =>
        (digit? char).bind fun digit =>
          if digit < base then some (value * base + digit) else none) (some 0)

def count? (base : Nat) (chars : List Char) : Option Nat :=
  (numeral? base chars).filter (fun value => decide (value ≤ maxCount))

/-- A count in decimal digits without leading zeros, or in another base behind its sign:
`0x`, `0o` or `0b`. A plus may come first. -/
def countOfText? (text : String) : Option Nat :=
  let unsigned := match text.toList with
    | '+' :: rest => rest
    | chars => chars
  match unsigned with
  | '0' :: 'x' :: digits => count? 16 digits
  | '0' :: 'o' :: digits => count? 8 digits
  | '0' :: 'b' :: digits => count? 2 digits
  | '0' :: _ :: _ => none
  | digits => count? 10 digits

def boolOfText? (text : String) : Option Bool :=
  if text = "true" ∨ text = "True" ∨ text = "TRUE" then some true
  else if text = "false" ∨ text = "False" ∨ text = "FALSE" then some false
  else none

def isNullText (text : String) : Bool :=
  text = "~" ∨ text = "null" ∨ text = "Null" ∨ text = "NULL"

def typeTag (name : String) : String :=
  "tag:yaml.org,2002:" ++ name

namespace Node

def typedText? (name : String) : Node → Option String
  | .scalar _ .plain text => some text
  | .scalar properties .literal text =>
      if properties.tag = some (typeTag name) then some text else none
  | _ => none

def bool? (node : Node) : Option Bool :=
  (node.typedText? "bool").bind boolOfText?

def count? (node : Node) : Option Nat :=
  (node.typedText? "int").bind countOfText?

/-- A count, or nothing where null is written. Under the null tag nothing but null may be
written, and under another one null is not nothing. -/
def optionalCount? : Node → Option (Option Nat)
  | .scalar properties .plain text =>
      match properties.tag with
      | none => if text = "" ∨ isNullText text then some none else (countOfText? text).map some
      | some tag =>
          if tag = typeTag "null" then if isNullText text then some none else none
          else (countOfText? text).map some
  | node => node.count?.map some

def text? : Node → Option String
  | .scalar _ _ text => some text
  | _ => none

/-- A name: the text of a scalar, or a tag of the document's own with nothing behind it. -/
def name? : Node → Option String
  | .scalar properties style text =>
      match properties.tag.map String.toList with
      | some ('!' :: name) =>
          if style = .plain ∧ (text = "" ∨ isNullText text) then some (String.ofList name) else none
      | _ => some text
  | _ => none

end Node

end DemandFlow.Yaml
