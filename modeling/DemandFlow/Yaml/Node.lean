import DemandFlow.Yaml.Scan

/-!
Trees of structured text, made from its tokens. Every reader gives what it has read
and the source behind it.
-/

set_option autoImplicit false

namespace DemandFlow.Yaml

structure Properties where
  tag : Option String := none
  /-- The number of its anchor. -/
  anchor : Option Nat := none
  deriving DecidableEq

inductive Node where
  /-- The node that is anchored under a number. -/
  | alias (number : Nat)
  | scalar (properties : Properties) (style : ScalarStyle) (text : String)
  | list (properties : Properties) (items : List Node)
  | map (properties : Properties) (entries : List (Node × Node))

def Node.empty : Node :=
  .scalar {} .plain ""

/-- The tokens that are left, what the handles of tags stand for, and the anchors so far. -/
structure Source where
  tokens : List Token
  handles : List (String × String) := []
  /-- The names in use with the number of the last anchor of each. -/
  anchors : List (String × Nat) := []

namespace Source

def drop (source : Source) (count : Nat) : Source :=
  { source with tokens := source.tokens.drop count }

def at? (source : Source) (tokens : List Token) : Bool :=
  source.tokens.head?.any tokens.contains

/-- Anchors a name. An anchor's number is how many names are in use before it. -/
def anchor (source : Source) (name : String) : Nat × Source :=
  let number := source.anchors.length
  (number,
    { source with
      anchors := (name, number) :: source.anchors.filter (fun entry => entry.1 != name) })

def tag? (source : Source) (handle suffix : String) : Option String :=
  if handle.isEmpty then some suffix
  else (source.handles.lookup handle).map fun stem => stem ++ suffix

/-- The properties of the next node, an anchor and a tag in either order. The anchor counts
from here on. -/
def properties (source : Source) : Option (Properties × Source) :=
  match source.tokens with
  | .anchor name :: .tag handle suffix :: _ | .tag handle suffix :: .anchor name :: _ =>
      (source.tag? handle suffix).map fun tag =>
        let (number, source) := (source.drop 2).anchor name
        ({ tag := some tag, anchor := some number }, source)
  | .anchor name :: _ =>
      let (number, source) := (source.drop 1).anchor name
      some ({ anchor := some number }, source)
  | .tag handle suffix :: _ =>
      (source.tag? handle suffix).map fun tag => ({ tag := some tag }, source.drop 1)
  | _ => some ({}, source)

end Source

def Node.ofScalar (properties : Properties) (style : ScalarStyle) (text : String) : Node :=
  .scalar { properties with tag := properties.tag.filter (fun tag => tag != "!") } style text

mutual

/-- A node. In a block it may be a block collection, and below a key also a list whose
dashes stand in the key's column. -/
def readNode : Nat → Bool → Bool → Source → Option (Node × Source)
  | 0, _, _, _ => none
  | fuel + 1, block, belowKey, source =>
      match source.tokens with
      | .alias name :: _ =>
          (source.anchors.lookup name).map fun number => (.alias number, source.drop 1)
      | _ => do
          let (properties, source) ← source.properties
          match source.tokens with
          | .scalar style text :: _ => some (.ofScalar properties style text, source.drop 1)
          | .flowListStart :: _ =>
              let (items, source) ← readFlowItems fuel true (source.drop 1)
              some (.list properties items, source)
          | .flowMapStart :: _ =>
              let (entries, source) ← readFlowEntries fuel true (source.drop 1)
              some (.map properties entries, source)
          | token :: _ =>
              if belowKey && token == .blockEntry then
                let (items, source) ← readItems fuel true source
                some (.list properties items, source)
              else if block && token == .blockListStart then
                let (items, source) ← readItems fuel false (source.drop 1)
                some (.list properties items, source)
              else if block && token == .blockMapStart then
                let (entries, source) ← readEntries fuel (source.drop 1)
                some (.map properties entries, source)
              else if properties = {} then
                none
              else
                some (.scalar properties .plain "", source)
          | [] => if properties = {} then none else some (.scalar properties .plain "", source)

def readUnless : Nat → Bool → Bool → List Token → Source → Option (Node × Source)
  | 0, _, _, _, _ => none
  | fuel + 1, block, belowKey, stops, source =>
      if source.at? stops then some (.empty, source) else readNode fuel block belowKey source

/-- The items behind dashes. Where the dashes stand in a key's column, any other token ends
them. -/
def readItems : Nat → Bool → Source → Option (List Node × Source)
  | 0, _, _ => none
  | fuel + 1, inKeyColumn, source =>
      if source.at? [.blockEntry] then do
        let stops := if inKeyColumn then [.blockEntry, .key, .value, .blockEnd]
          else [.blockEntry, .blockEnd]
        let (item, source) ← readUnless fuel true false stops (source.drop 1)
        let (items, source) ← readItems fuel inKeyColumn source
        some (item :: items, source)
      else if inKeyColumn then
        some ([], source)
      else if source.at? [.blockEnd] then
        some ([], source.drop 1)
      else
        none

def readEntries : Nat → Source → Option (List (Node × Node) × Source)
  | 0, _ => none
  | fuel + 1, source =>
      if source.at? [.key] then do
        let stops := [.key, .value, .blockEnd]
        let (key, source) ← readUnless fuel true true stops (source.drop 1)
        let (value, source) ←
          if source.at? [.value] then readUnless fuel true true stops (source.drop 1)
          else some (.empty, source)
        let (entries, source) ← readEntries fuel source
        some ((key, value) :: entries, source)
      else if source.at? [.blockEnd] then
        some ([], source.drop 1)
      else
        none

/-- The items up to a bracket, with commas between them. An item with a colon is a mapping of
one entry. -/
def readFlowItems : Nat → Bool → Source → Option (List Node × Source)
  | 0, _, _ => none
  | fuel + 1, isFirst, source =>
      if source.at? [.flowListEnd] then
        some ([], source.drop 1)
      else if !isFirst && !source.at? [.flowEntry] then
        none
      else do
        let source := if isFirst then source else source.drop 1
        if source.at? [.flowListEnd] then
          some ([], source.drop 1)
        else
          let (item, source) ←
            if source.at? [.key] then readFlowPair fuel (source.drop 1)
            else readNode fuel false false source
          let (items, source) ← readFlowItems fuel false source
          some (item :: items, source)

/-- The one entry of a mapping that is an item. A key left empty takes the token in its
place. -/
def readFlowPair : Nat → Source → Option (Node × Source)
  | 0, _ => none
  | fuel + 1, source => do
      let (key, source) ←
        if source.at? [.value, .flowEntry, .flowListEnd] then some (.empty, source.drop 1)
        else readNode fuel false false source
      let (value, source) ←
        if source.at? [.value] then
          readUnless fuel false false [.flowEntry, .flowListEnd] (source.drop 1)
        else some (.empty, source)
      some (.map {} [(key, value)], source)

/-- The entries up to a brace, with commas between them. A node alone has no value. -/
def readFlowEntries : Nat → Bool → Source → Option (List (Node × Node) × Source)
  | 0, _, _ => none
  | fuel + 1, isFirst, source =>
      if source.at? [.flowMapEnd] then
        some ([], source.drop 1)
      else if !isFirst && !source.at? [.flowEntry] then
        none
      else do
        let source := if isFirst then source else source.drop 1
        if source.at? [.flowMapEnd] then
          some ([], source.drop 1)
        else
          let (entry, source) ←
            if source.at? [.key] then readFlowEntry fuel (source.drop 1)
            else (readNode fuel false false source).map fun (key, source) => ((key, .empty), source)
          let (entries, source) ← readFlowEntries fuel false source
          some (entry :: entries, source)

/-- An entry between braces from behind the sign of its key. -/
def readFlowEntry : Nat → Source → Option ((Node × Node) × Source)
  | 0, _ => none
  | fuel + 1, source => do
      let (key, source) ←
        readUnless fuel false false [.value, .flowEntry, .flowMapEnd] source
      let (value, source) ←
        if source.at? [.value] then
          readUnless fuel false false [.flowEntry, .flowMapEnd] (source.drop 1)
        else some (.empty, source)
      some ((key, value), source)

end

/-! ### Documents -/

def commonHandles : List (String × String) :=
  [("!", "!"), ("!!", "tag:yaml.org,2002:")]

/-- The directives before a document: at most one version, which must be 1.1 or 1.2, and
each handle at most once. -/
def readDirectives (versioned : Bool) (handles : List (String × String)) :
    List Token → Option (List (String × String) × List Token)
  | .versionDirective major minor :: rest =>
      if versioned || major != 1 || (minor != 1 && minor != 2) then none
      else readDirectives true handles rest
  | .tagDirective handle stem :: rest =>
      if (handles.lookup handle).isSome then none
      else readDirectives versioned (handles ++ [(handle, stem)]) rest
  | rest => some (handles, rest)

def Token.isDirective : Token → Bool
  | .versionDirective _ _ | .tagDirective _ _ => true
  | _ => false

def endsDocument : List Token → Bool
  | [] => true
  | token :: _ => token.isDirective || token == .documentStart || token == .documentEnd

def nodeFuel (tokens : List Token) : Nat :=
  4 * tokens.length + 4

def readBare (tokens : List Token) : Option (Node × Source) :=
  readNode (nodeFuel tokens) true false { tokens := tokens, handles := commonHandles }

/-- The node of a document that begins with directives or a marker. -/
def readMarked (tokens : List Token) : Option (Node × Source) :=
  match readDirectives false [] tokens with
  | some (handles, .documentStart :: rest) =>
      let source : Source := { tokens := rest, handles := handles ++ commonHandles }
      if endsDocument rest then some (.empty, source)
      else readNode (nodeFuel rest) true false source
  | _ => none

/-- The node of the only document among the tokens, if there is a document at all. -/
def readDocument (tokens : List Token) : Option (Option Node) :=
  match tokens with
  | [] => some none
  | token :: _ =>
      let read := if token.isDirective || token == .documentStart then readMarked tokens
        else readBare tokens
      match read with
      | none => none
      | some (node, source) =>
          if source.tokens.all (fun token => token == .documentEnd) then some (some node) else none

def parse (text : String) : Option (Option Node) :=
  (tokens text).bind readDocument

mutual

/-- The nodes with an anchor of the given number, in the order in which they begin. -/
def Node.anchored (number : Nat) : Node → List Node
  | .alias _ => []
  | .scalar properties style text =>
      if properties.anchor = some number then [.scalar properties style text] else []
  | .list properties items =>
      (if properties.anchor = some number then [.list properties items] else []) ++
        anchoredItems number items
  | .map properties entries =>
      (if properties.anchor = some number then [.map properties entries] else []) ++
        anchoredEntries number entries

def Node.anchoredItems (number : Nat) : List Node → List Node
  | [] => []
  | item :: rest => item.anchored number ++ Node.anchoredItems number rest

def Node.anchoredEntries (number : Nat) : List (Node × Node) → List Node
  | [] => []
  | (key, value) :: rest =>
      key.anchored number ++ value.anchored number ++ Node.anchoredEntries number rest

end

def Node.resolve? (root : Node) : Node → Option Node
  | .alias number => (root.anchored number).getLast?
  | node => some node

end DemandFlow.Yaml
