import DemandFlow.Yaml.BlockText
import DemandFlow.Yaml.Token

/-!
Names and addresses: anchors, aliases, tags and directives. All of them stand within
one line.
-/

set_option autoImplicit false

namespace DemandFlow.Yaml

abbrev Part (ρ : Type) := Option (ρ × List Char)

def endsAnchor (rest : List Char) : Bool :=
  atGap rest ||
    rest.head?.any (fun char => ['?', ':', ',', ']', '\x7d', '%', '@', '\x60'].contains char)

def anchorName (chars : List Char) : Part String :=
  let name := chars.takeWhile isNameChar
  let rest := chars.dropWhile isNameChar
  if !name.isEmpty && endsAnchor rest then some (String.ofList name, rest) else none

/-- Whether an address may hold the character. Commas and brackets are allowed only where
the end is marked. -/
def isAddressChar (enclosed : Bool) (char : Char) : Bool :=
  isNameChar char ||
    [';', '/', '?', ':', '@', '&', '=', '+', '$', '.', '!', '~', '*', '\x27', '(', ')'].contains
      char ||
    (enclosed && [',', '[', ']'].contains char)

/-- How many bytes must follow the first byte of an encoded character. -/
def followingBytes? (byte : Nat) : Option Nat :=
  if byte < 0x80 then some 0
  else if 0xC0 ≤ byte ∧ byte < 0xE0 then some 1
  else if 0xE0 ≤ byte ∧ byte < 0xF0 then some 2
  else if 0xF0 ≤ byte ∧ byte < 0xF8 then some 3
  else none

def missingBytes? (missing byte : Nat) : Option Nat :=
  match missing with
  | 0 => followingBytes? byte
  | missing + 1 => if 0x80 ≤ byte ∧ byte < 0xC0 then some missing else none

/-- The rest of an address. A byte may be written as two hexadecimal digits behind a
percent sign, where the bytes of a character stand together. -/
def addressFrom (enclosed : Bool) (missing : Nat) (address : List Char) :
    List Char → Part String
  | '%' :: high :: low :: rest =>
      match digit? high, digit? low with
      | some high, some low =>
          let byte := high * 16 + low
          match missingBytes? missing byte with
          | none => none
          | some missing => addressFrom enclosed missing (Char.ofNat byte :: address) rest
      | _, _ => none
  | [] => if missing = 0 then some (String.ofList address.reverse, []) else none
  | char :: rest =>
      if missing ≠ 0 ∨ char = '%' then none
      else if isAddressChar enclosed char then
        addressFrom enclosed 0 (char :: address) rest
      else
        some (String.ofList address.reverse, char :: rest)

def address (enclosed : Bool) (chars : List Char) : Part String :=
  (addressFrom enclosed 0 [] chars).filter (fun (address, _) => !address.isEmpty)

/-- A handle from behind its first exclamation mark, and whether it ends in another one. -/
def handleFrom (chars : List Char) : List Char × Bool × List Char :=
  let name := chars.takeWhile isNameChar
  match chars.dropWhile isNameChar with
  | '!' :: rest => (name, true, rest)
  | rest => (name, false, rest)

/-- Handle and suffix of a tag from behind its first exclamation mark. An enclosed tag has
no handle. -/
def tagParts : List Char → Part (String × String)
  | '<' :: chars =>
      match address true chars with
      | some (suffix, '>' :: rest) => some (("", suffix), rest)
      | _ => none
  | chars =>
      match handleFrom chars with
      | (name, true, rest) =>
          (address false rest).map fun (suffix, rest) =>
            ((String.ofList ('!' :: name ++ ['!']), suffix), rest)
      | (name, false, rest) =>
          (addressFrom false 0 name.reverse rest).map fun (suffix, rest) =>
            (if suffix.isEmpty then ("", "!") else ("!", suffix), rest)

/-- A tag from behind its first exclamation mark. It ends at a gap or, between brackets,
at a comma. -/
def tagToken (flow : Bool) (chars : List Char) : Part Token :=
  match tagParts chars with
  | none => none
  | some ((handle, suffix), rest) =>
      if atGap rest || (flow && rest.head? == some ',') then some (.tag handle suffix, rest)
      else none

def versionNumber (chars : List Char) : Part Nat :=
  let digits := chars.takeWhile Char.isDigit
  if digits.isEmpty || decide (9 < digits.length) then none
  else
    some (digits.foldl (fun number digit => number * 10 + (digit? digit).getD 0) 0,
      chars.dropWhile Char.isDigit)

def versionDirective (chars : List Char) : Part Token :=
  match versionNumber (chars.dropWhile isBlank) with
  | some (major, '.' :: rest) =>
      (versionNumber rest).map fun (minor, rest) => (.versionDirective major minor, rest)
  | _ => none

def tagDirective (chars : List Char) : Part Token :=
  match chars.dropWhile isBlank with
  | '!' :: chars =>
      let (name, closed, rest) := handleFrom chars
      if (closed || name.isEmpty) && rest.head?.any isBlank then
        match address true (rest.dropWhile isBlank) with
        | none => none
        | some (stem, rest) =>
            if atGap rest then
              let handle := if closed then '!' :: name ++ ['!'] else ['!']
              some (.tagDirective (String.ofList handle) stem, rest)
            else
              none
      else
        none
  | _ => none

/-- A directive from behind its percent sign, and the lines behind it. -/
def directive (chars : List Char) : Part Token :=
  let name := String.ofList (chars.takeWhile isNameChar)
  let rest := chars.dropWhile isNameChar
  let read :=
    if !atGap rest then none
    else if name = "YAML" then versionDirective rest
    else if name = "TAG" then tagDirective rest
    else none
  read.bind fun (token, rest) => (restOfLine? rest).map fun rest => (token, rest)

end DemandFlow.Yaml
