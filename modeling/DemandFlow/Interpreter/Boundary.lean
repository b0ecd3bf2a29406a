import DemandFlow.Identifiers

/-!
Boundary channels of a section: the channels with one end outside it.
-/

set_option autoImplicit false

namespace DemandFlow

inductive BoundaryDirection where
  | input
  | output
  deriving DecidableEq

namespace BoundaryDirection

def isInput : BoundaryDirection → Bool
  | .input => true
  | .output => false

def isOutput : BoundaryDirection → Bool
  | .input => false
  | .output => true

def text : BoundaryDirection → String
  | .input => "input"
  | .output => "output"

/-- The direction of the channel as an edge at the section's worker. -/
def edgeText : BoundaryDirection → String
  | .input => "incoming"
  | .output => "outgoing"

end BoundaryDirection

/-- A channel across the boundary. The end of an overall input or output of the graph has
no worker. -/
structure BoundaryChannel where
  channel : ChannelId
  producer : Option WorkerId
  consumer : Option WorkerId
  direction : BoundaryDirection
  deriving DecidableEq

namespace BoundaryChannel

def input (channel : ChannelId) (producer : Option WorkerId) (worker : WorkerId) :
    BoundaryChannel :=
  { channel := channel, producer := producer, consumer := some worker, direction := .input }

def output (channel : ChannelId) (worker : WorkerId) (consumer : Option WorkerId) :
    BoundaryChannel :=
  { channel := channel, producer := some worker, consumer := consumer, direction := .output }

def worker (boundary : BoundaryChannel) : Option WorkerId :=
  match boundary.direction with
  | .input => boundary.consumer
  | .output => boundary.producer

end BoundaryChannel

end DemandFlow
