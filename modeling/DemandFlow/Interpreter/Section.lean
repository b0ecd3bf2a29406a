import DemandFlow.Graph.Firing
import DemandFlow.Interpreter.Audit
import DemandFlow.Interpreter.Boundary

/-!
Interpreters over a section of a graph. A section is a set of workers; its sinks are
the workers that feed no worker of the section, and its boundary channels are those
with one end outside. Message constraints may not cross the boundary.
-/

set_option autoImplicit false

namespace DemandFlow

/-- What is called after every firing. The interface is open: besides doing nothing and
auditing, a delegate of somebody's own may refuse firings as it finds their numbers, counted
from one, and their workers. Delegates that change the graph in other ways are left out. -/
structure Delegate where
  audits : Bool := false
  refuses : Nat → WorkerId → Bool := fun _ _ => false

/-- The audit comes first, so a firing that breaks its rates is not refused on top of that. -/
def Delegate.afterFire {β α μ : Type} (delegate : Delegate) (number : Nat)
    (graph : Graph β α μ) (worker : WorkerId) : Outcome Unit (Graph β α μ) :=
  let (answer, graph) := if delegate.audits then graph.audit worker else (.ok (), graph)
  match answer with
  | .error error => (.error error, graph)
  | .ok () =>
      if delegate.refuses number worker then
        (.error (.invalidGraph (.refused worker)), graph)
      else
        (.ok (), graph)

structure InterpreterStats where
  interpretCalls : Nat := 0
  /-- Passes over the sinks, the last one without progress included. -/
  passes : Nat := 0
  pulls : Nat := 0
  /-- Pulls given up because elements are needed from outside the section. -/
  stalledPulls : Nat := 0
  firings : Nat := 0
  deriving DecidableEq

structure Interpreter (β α μ : Type) where
  graph : Graph β α μ
  /-- The workers of the section, ascending. -/
  members : List WorkerId
  sinks : List WorkerId
  /-- The boundary channels; a channel's place in the list is its token. -/
  boundaries : List BoundaryChannel
  /-- The constraints whose recipients are in the section. -/
  constraints : List Constraint
  delegate : Delegate := {}
  /-- The most passes one call makes. -/
  maxPasses : Option Nat := none
  stats : InterpreterStats := {}
  /-- The workers that have been fired, oldest first, as a delegate that writes them down has
  them. No run reads it. -/
  journal : List WorkerId := []

namespace Interpreter

variable {β α μ : Type}

def sinksOf (graph : Graph β α μ) (members : List WorkerId) : List WorkerId :=
  let fed := members.flatMap fun id =>
    match graph.worker? id with
    | none => []
    | some worker => worker.predecessors.filterMap (fun peer => peer)
  members.filter (fun id => !fed.contains id)

def staysInside (members : List WorkerId) (port : Port) : Bool :=
  port.peer.any members.contains

def boundariesAt (members : List WorkerId) (id : WorkerId) (worker : Worker β μ) :
    List BoundaryChannel :=
  (worker.inputs.filter (fun port => !staysInside members port)).map
      (fun port => .input port.channel port.peer id) ++
    (worker.outputs.filter (fun port => !staysInside members port)).map
      (fun port => .output port.channel id port.peer)

def boundariesOf (graph : Graph β α μ) (members : List WorkerId) : List BoundaryChannel :=
  members.flatMap fun id =>
    match graph.worker? id with
    | none => []
    | some worker => boundariesAt members id worker

/-- What is wrong with a constraint given for a section of the graph. -/
def givenFault? (graph : Graph β α μ) (constraint : Constraint) : Option ConstraintFault :=
  if !(graph.contains constraint.sender && graph.contains constraint.recipient) then
    some (.unknownWorker constraint.summary)
  else if !graph.constraints.any (fun declared => declared.sameRoute constraint) then
    some (.undeclared constraint.summary)
  else
    none

/-- What is wrong with how a section treats a constraint of the graph. Messages follow the
graph's constraints, so one that touches the section must lie inside it and be given. -/
def declaredFault? (members : List WorkerId) (given : List Constraint)
    (declared : Constraint) : Option ConstraintFault :=
  if members.contains declared.sender != members.contains declared.recipient then
    some (.crossesBoundary declared.summary)
  else if members.contains declared.sender &&
      !given.any (fun constraint => constraint.sameRoute declared) then
    some (.omitted declared.summary)
  else
    none

def constraintFault? (graph : Graph β α μ) (members : List WorkerId) (given : List Constraint) :
    Option ConstraintFault :=
  match given.findSome? (givenFault? graph) with
  | some fault => some fault
  | none => graph.constraints.findSome? (declaredFault? members given)

def unknownWorker? (graph : Graph β α μ) (workers : List WorkerId) : Option WorkerId :=
  (workers.filter (fun id => !graph.contains id)).min?

def create (graph : Graph β α μ) (workers : List WorkerId) (constraints : List Constraint) :
    Except Error (Interpreter β α μ) :=
  match unknownWorker? graph workers with
  | some unknown => .error (.invalidGraph (.unknownSectionWorker unknown))
  | none =>
      let members := graph.workerIds.filter workers.contains
      match constraintFault? graph members constraints with
      | some fault => .error (.malformedConstraint fault)
      | none =>
          .ok
            { graph := graph
              members := members
              sinks := sinksOf graph members
              boundaries := boundariesOf graph members
              constraints := constraints.filter
                (fun constraint => members.contains constraint.recipient) }

def forGraph (graph : Graph β α μ) : Except Error (Interpreter β α μ) :=
  create graph graph.workerIds graph.constraints

def boundary? (interpreter : Interpreter β α μ) (token : BoundaryToken) :
    Option BoundaryChannel :=
  interpreter.boundaries[token]?

def tokens (interpreter : Interpreter β α μ) (direction : BoundaryDirection) :
    List BoundaryToken :=
  (List.range interpreter.boundaries.length).filter fun token =>
    (interpreter.boundary? token).any (fun boundary => boundary.direction == direction)

def channelId? (interpreter : Interpreter β α μ) (token : BoundaryToken) : Option ChannelId :=
  (interpreter.boundary? token).map BoundaryChannel.channel

def withBank (interpreter : Interpreter β α μ) (bank : Bank α) : Interpreter β α μ :=
  { interpreter with graph := { interpreter.graph with bank := bank } }

/-- Lets the interpreter see the shared buffers as others have left them. -/
def withPool (interpreter : Interpreter β α μ) (pool : Pool α) : Interpreter β α μ :=
  interpreter.withBank { interpreter.graph.bank with pool := pool }

def size? (interpreter : Interpreter β α μ) (token : BoundaryToken) : Option Nat :=
  (interpreter.channelId? token).map fun channel =>
    (interpreter.graph.bank.channel channel).size

def pushAll? (interpreter : Interpreter β α μ) (token : BoundaryToken) (elements : List α) :
    Option (Interpreter β α μ) :=
  (interpreter.channelId? token).map fun channel =>
    interpreter.withBank (interpreter.graph.bank.pushAll channel elements)

def pop? (interpreter : Interpreter β α μ) (token : BoundaryToken) :
    Option (Outcome α (Interpreter β α μ)) :=
  (interpreter.channelId? token).map fun channel =>
    let (answer, bank) := interpreter.graph.bank.pop channel
    (answer, interpreter.withBank bank)

def popAll? (interpreter : Interpreter β α μ) (token : BoundaryToken) :
    Option (List α × Interpreter β α μ) :=
  (interpreter.channelId? token).map fun channel =>
    let (elements, bank) := interpreter.graph.bank.popAll channel
    (elements, interpreter.withBank bank)

def peek? (interpreter : Interpreter β α μ) (token : BoundaryToken) (index : Nat) :
    Option (Outcome α (Interpreter β α μ)) :=
  (interpreter.channelId? token).map fun channel =>
    let (answer, bank) := interpreter.graph.bank.peek channel index
    (answer, interpreter.withBank bank)

end Interpreter

end DemandFlow
