import DemandFlow.Text.Extending
import DemandFlow.Text.Unprintable

/-!
Quoted text. A quoted text stands between double quotes; quotes, backslashes and
the common controls get a backslash, and characters that could not be seen, or that
would merge with the one before, are written by their code point.
-/

set_option autoImplicit false

namespace DemandFlow.Text

def inRanges (ranges : List (Nat × Nat)) (code : Nat) : Bool :=
  ranges.any (fun range => decide (range.1 ≤ code) && decide (code ≤ range.2))

def isVisible (char : Char) : Bool :=
  !inRanges extendingRanges char.toNat && !inRanges unprintableRanges char.toNat

/-- The code point between braces, in lower-case hexadecimal digits. -/
def codePoint (char : Char) : String :=
  "\\u\x7b" ++ String.ofList (Nat.toDigits 16 char.toNat) ++ "\x7d"

def quotedChar (char : Char) : String :=
  if char = '\x22' then "\\\""
  else if char = '\x5c' then "\\\\"
  else if char = '\n' then "\\n"
  else if char = '\t' then "\\t"
  else if char = '\r' then "\\r"
  else if char = '\x00' then "\\0"
  else if isVisible char then char.toString
  else codePoint char

def quoted (text : String) : String :=
  "\"" ++ String.join (text.toList.map quotedChar) ++ "\""

end DemandFlow.Text
