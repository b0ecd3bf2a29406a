/-!
Tokens: the words and signs of structured text, and the places where collections
begin and end.
-/

set_option autoImplicit false

namespace DemandFlow.Yaml

inductive ScalarStyle where
  | plain
  | quoted
  | literal
  | folded
  deriving DecidableEq

inductive Token where
  | versionDirective (major minor : Nat)
  /-- The tags that begin with the handle begin with the stem in its place. -/
  | tagDirective (handle stem : String)
  | documentStart
  | documentEnd
  | blockListStart
  | blockMapStart
  /-- The end of a collection that is told by its indentation. -/
  | blockEnd
  | flowListStart
  | flowListEnd
  | flowMapStart
  | flowMapEnd
  /-- The dash before an item. -/
  | blockEntry
  /-- The comma between items. -/
  | flowEntry
  | key
  | value
  | alias (name : String)
  | anchor (name : String)
  | tag (handle suffix : String)
  | scalar (style : ScalarStyle) (text : String)
  deriving DecidableEq

end DemandFlow.Yaml
