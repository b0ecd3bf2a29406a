/-!
Types of work bodies. A portal carries messages for bodies of one type, so a body
must tell its type, and error texts must name it.
-/

set_option autoImplicit false

namespace DemandFlow

/-- The type of a work body: one of the standard bodies, a filter made from a
routine alone, or a type of the user's with a name of its own. -/
inductive BodyType where
  | identity
  | duplicate
  | roundRobinSplit
  | roundRobinJoin
  | closure
  | named (name : String)
  deriving DecidableEq

/-- The qualified name by which messages to the user call a type. -/
def BodyType.name : BodyType → String
  | .identity => "streamflow::core::workers::identity::Identity"
  | .duplicate => "streamflow::core::workers::splitters::DuplicateSplitter"
  | .roundRobinSplit => "streamflow::core::workers::splitters::RoundrobinSplitter"
  | .roundRobinJoin => "streamflow::core::workers::joiners::RoundrobinJoiner"
  | .closure => "streamflow::core::workers::fn_filter::FnFilter"
  | .named name => name

end DemandFlow
