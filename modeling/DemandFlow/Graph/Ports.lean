import DemandFlow.Identifiers
import DemandFlow.Rate.Basic

/-!
Ports and the roles that limit them. A worker's role fixes how many inputs and
outputs it may have; its declared rates are aligned with its ports.
-/

set_option autoImplicit false

namespace DemandFlow

inductive WorkerKind where
  /-- One input and one output. -/
  | filter
  /-- One input and at least one output. -/
  | splitter
  /-- At least one input and one output. -/
  | joiner
  deriving DecidableEq

namespace WorkerKind

def text : WorkerKind → String
  | .filter => "filter"
  | .splitter => "splitter"
  | .joiner => "joiner"

def detail : WorkerKind → String
  | .filter => "Filter"
  | .splitter => "Splitter"
  | .joiner => "Joiner"

/-- Whether a worker that has `current` inputs may get one more. -/
def acceptsInput (kind : WorkerKind) (current : Nat) : Bool :=
  match kind with
  | .filter | .splitter => current == 0
  | .joiner => true

def acceptsOutput (kind : WorkerKind) (current : Nat) : Bool :=
  match kind with
  | .filter | .joiner => current == 0
  | .splitter => true

end WorkerKind

/-- One end of a channel as its worker sees it. A boundary channel has no peer. -/
structure Port where
  peer : Option WorkerId
  channel : ChannelId
  deriving DecidableEq

def Port.detail (port : Port) : String :=
  Text.record "Port"
    [("peer", Text.optional (port.peer.map WorkerId.detail)),
      ("channel", ChannelId.detail port.channel)]

structure PortShape where
  inputs : Nat
  outputs : Nat
  deriving DecidableEq

/-- Declared rates: peek and pop rates per input, push rates per output. -/
structure WorkerRates where
  peek : List Rate
  pop : List Rate
  push : List Rate
  deriving DecidableEq

namespace WorkerRates

def single (peek pop push : Rate) : WorkerRates :=
  { peek := [peek], pop := [pop], push := [push] }

def fits (rates : WorkerRates) (shape : PortShape) : Bool :=
  rates.peek.length == shape.inputs && rates.pop.length == shape.inputs &&
    rates.push.length == shape.outputs

theorem fits_iff {rates : WorkerRates} {shape : PortShape} :
    rates.fits shape = true ↔ rates.peek.length = shape.inputs ∧
      rates.pop.length = shape.inputs ∧ rates.push.length = shape.outputs := by
  simp only [fits, Bool.and_eq_true, beq_iff_eq, and_assoc]

end WorkerRates

end DemandFlow
