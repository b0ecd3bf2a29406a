import DemandFlow.Yaml.Gap

/-!
Quoted scalars. Between single quotes a quote is written twice. Between double quotes
a backslash introduces a character by a letter or by its code point, or takes the
line break behind it away.
-/

set_option autoImplicit false

namespace DemandFlow.Yaml

inductive Escape where
  | char (value : Char)
  /-- A code point in so many hexadecimal digits. -/
  | code (digits : Nat)

def escape? : Char → Option Escape
  | '0' => some (.char '\x00')
  | 'a' => some (.char '\x07')
  | 'b' => some (.char '\x08')
  | 't' | '\t' => some (.char '\t')
  | 'n' => some (.char '\n')
  | 'v' => some (.char '\x0b')
  | 'f' => some (.char '\x0c')
  | 'r' => some (.char '\r')
  | 'e' => some (.char '\x1b')
  | ' ' => some (.char ' ')
  | '\x22' => some (.char '\x22')
  | '/' => some (.char '/')
  | '\x5c' => some (.char '\x5c')
  | 'N' => some (.char '\x85')
  | '_' => some (.char '\xa0')
  | 'L' => some (.char '\u2028')
  | 'P' => some (.char '\u2029')
  | 'x' => some (.code 2)
  | 'u' => some (.code 4)
  | 'U' => some (.code 8)
  | _ => none

def charOfCode? (code : Nat) : Option Char :=
  if code < 0xD800 ∨ (0xE000 ≤ code ∧ code ≤ 0x10FFFF) then some (Char.ofNat code) else none

inductive QuotedPlace where
  | inside
  | behindBackslash
  /-- Within a code point of which so many digits are missing. -/
  | inCode (missing value : Nat)

/-- Reads on between double quotes, with the text so far, last character first, and the
gap behind it. -/
def doubleQuotedFrom (place : QuotedPlace) (text : List Char) (gap : Gap) :
    List Char → Mark → Option (String × Cursor)
  | [], _ => none
  | char :: rest, mark =>
      match place with
      | .behindBackslash =>
          if isBreak char then
            doubleQuotedFrom .inside text (.breaks none []) rest (mark.past char)
          else
            match escape? char with
            | none => none
            | some (.char value) =>
                doubleQuotedFrom .inside (value :: text) .none rest (mark.past char)
            | some (.code digits) =>
                doubleQuotedFrom (.inCode digits 0) text .none rest (mark.past char)
      | .inCode missing value =>
          match digit? char with
          | none => none
          | some digit =>
              let value := value * 16 + digit
              if missing ≤ 1 then
                match charOfCode? value with
                | none => none
                | some decoded =>
                    doubleQuotedFrom .inside (decoded :: text) .none rest (mark.past char)
              else
                doubleQuotedFrom (.inCode (missing - 1) value) text .none rest (mark.past char)
      | .inside =>
          if isBlank char || isBreak char then
            doubleQuotedFrom .inside text (gap.add char) rest (mark.past char)
          else if !gap.isNone && mark.column == 0 && atMarker (char :: rest) then
            none
          else
            let text := gap.text.reverse ++ text
            if char == '\x22' then
              some (String.ofList text.reverse, { rest := rest, mark := mark.past char })
            else if char == '\x5c' then
              doubleQuotedFrom .behindBackslash text .none rest (mark.past char)
            else
              doubleQuotedFrom .inside (char :: text) .none rest (mark.past char)

/-- Reads on between single quotes. Behind a quote the text is over, unless another one
follows. -/
def singleQuotedFrom (behindQuote : Bool) (text : List Char) (gap : Gap) :
    List Char → Mark → Option (String × Cursor)
  | [], mark =>
      if behindQuote then some (String.ofList text.reverse, { rest := [], mark := mark }) else none
  | char :: rest, mark =>
      if behindQuote then
        if char == '\x27' then
          singleQuotedFrom false ('\x27' :: text) .none rest (mark.past char)
        else
          some (String.ofList text.reverse, { rest := char :: rest, mark := mark })
      else if isBlank char || isBreak char then
        singleQuotedFrom false text (gap.add char) rest (mark.past char)
      else if !gap.isNone && mark.column == 0 && atMarker (char :: rest) then
        none
      else
        let text := gap.text.reverse ++ text
        if char == '\x27' then
          singleQuotedFrom true text .none rest (mark.past char)
        else
          singleQuotedFrom false (char :: text) .none rest (mark.past char)

def quotedText (isSingle : Bool) (cursor : Cursor) : Option (String × Cursor) :=
  if isSingle then singleQuotedFrom false [] .none cursor.rest cursor.mark
  else doubleQuotedFrom .inside [] .none cursor.rest cursor.mark

end DemandFlow.Yaml
