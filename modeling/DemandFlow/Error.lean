import DemandFlow.Graph.Ports
import DemandFlow.Messages.Schedule
import DemandFlow.Work.BodyType

/-!
Everything that can go wrong, by cause. `Error.message` is the one place where the
causes get their wording.
-/

set_option autoImplicit false

namespace DemandFlow

inductive RateKind where
  | peek
  | pop
  | push
  deriving DecidableEq

def RateKind.text : RateKind → String
  | .peek => "peek"
  | .pop => "pop"
  | .push => "push"

/-- What is wrong with a message constraint or with its use. -/
inductive ConstraintFault where
  | bodyTypeMismatch (worker : Label) (expected : BodyType)
  | unknownPortal (portal : PortalId)
  | portalTypeMismatch (portal : PortalId) (carried : BodyType)
  | notRegistered (recipient : WorkerId) (portal : PortalId)
  | duplicate (constraint : ConstraintSummary)
  | unknownWorker (constraint : ConstraintSummary)
  | undeclared (constraint : ConstraintSummary)
  | crossesBoundary (constraint : ConstraintSummary)
  | omitted (constraint : ConstraintSummary)
  | noRoute (route : Route)
  deriving DecidableEq

def ConstraintFault.text : ConstraintFault → String
  | .bodyTypeMismatch worker expected => worker.text ++ " is not a " ++ expected.name
  | .unknownPortal portal => "unknown portal " ++ PortalId.text portal
  | .portalTypeMismatch portal carried =>
      PortalId.text portal ++ " carries messages for " ++ carried.name
  | .notRegistered recipient portal =>
      WorkerId.text recipient ++ " is not registered on " ++ PortalId.text portal
  | .duplicate constraint => "duplicate constraint " ++ constraint.text
  | .unknownWorker constraint => "constraint names unknown worker: " ++ constraint.text
  | .undeclared constraint => "constraint is not declared on the graph: " ++ constraint.text
  | .crossesBoundary constraint => "constraint crosses interpreter boundary: " ++ constraint.text
  | .omitted constraint => "section omits constraint " ++ constraint.text
  | .noRoute route =>
      "no constraint from " ++ WorkerId.text route.sender ++ " to " ++
        WorkerId.text route.recipient ++ " via " ++ PortalId.text route.portal

inductive DeliveryFault where
  | recipientType (expected : BodyType)
  | unknownPortal (portal : PortalId)
  deriving DecidableEq

def DeliveryFault.text : DeliveryFault → String
  | .recipientType expected => "recipient is not a " ++ expected.name
  | .unknownPortal portal => "unknown portal " ++ PortalId.text portal

/-- What is wrong with a graph, a section of it or a stream made from it. -/
inductive GraphFault where
  | selfLoop (worker : WorkerId)
  | unknownWorker (worker : WorkerId)
  | inputTaken (kind : WorkerKind) (worker : Label)
  | outputTaken (kind : WorkerKind) (worker : Label)
  | emptyPipeline
  | noBranches (splitter : String)
  | joinerWithoutInputs (worker : Label)
  | splitterWithoutOutputs (worker : Label)
  | ratesMismatch (worker : Label) (peek pop push : Nat) (shape : PortShape)
  | missingInput (worker : WorkerId) (input : Nat)
  | missingOutput (worker : WorkerId) (output : Nat)
  | unknownSectionWorker (worker : WorkerId)
  | refused (worker : WorkerId)
  | boundaryCount (inputs outputs : Nat)
  | boundaryEnds (head tail : WorkerId)
  | missingBoundary (token : BoundaryToken)
  deriving DecidableEq

def GraphFault.text : GraphFault → String
  | .selfLoop worker => WorkerId.text worker ++ " cannot feed itself"
  | .unknownWorker worker => "unknown worker " ++ WorkerId.text worker
  | .inputTaken kind worker => kind.text ++ " " ++ worker.text ++ " already has its input"
  | .outputTaken kind worker => kind.text ++ " " ++ worker.text ++ " already has its output"
  | .emptyPipeline => "empty pipeline"
  | .noBranches splitter => "splitjoin '" ++ splitter ++ "' has no branches"
  | .joinerWithoutInputs worker => "joiner " ++ worker.text ++ " has no inputs"
  | .splitterWithoutOutputs worker => "splitter " ++ worker.text ++ " has no outputs"
  | .ratesMismatch worker peek pop push shape =>
      worker.text ++ " declares " ++ toString peek ++ " peek, " ++ toString pop ++ " pop and " ++
        toString push ++ " push rates for " ++ toString shape.inputs ++ " inputs and " ++
        toString shape.outputs ++ " outputs"
  | .missingInput worker input => WorkerId.text worker ++ " has no input " ++ toString input
  | .missingOutput worker output => WorkerId.text worker ++ " has no output " ++ toString output
  | .unknownSectionWorker worker => "section names unknown worker " ++ WorkerId.text worker
  | .refused worker => "delegate refused " ++ WorkerId.text worker
  | .boundaryCount inputs outputs =>
      "compiled stream needs exactly one input and one output, found " ++ toString inputs ++
        " and " ++ toString outputs
  | .boundaryEnds head tail =>
      "stream boundaries must attach to head " ++ WorkerId.text head ++ " and tail " ++
        WorkerId.text tail
  | .missingBoundary token => "missing input boundary " ++ BoundaryToken.text token

inductive FileFault where
  | missing
  | isDirectory
  | notText
  deriving DecidableEq

def FileFault.text : FileFault → String
  | .missing => "No such file or directory (os error 2)"
  | .isDirectory => "Is a directory (os error 21)"
  | .notText => "stream did not contain valid UTF-8"

inductive ConfigFault where
  | auditedSynchronized
  | zeroPasses
  | zeroCapacity
  | malformed
  | unreadable (path : String) (fault : FileFault)
  | inFile (path : String) (fault : ConfigFault)
  | uninstrumented (channel : ChannelId) (worker : Label)
  deriving DecidableEq

/-- A fault found in a file is told in full behind the file's path. -/
def ConfigFault.text : ConfigFault → String
  | .auditedSynchronized => "audit_rates cannot be combined with synchronized channels"
  | .zeroPasses => "max_passes must be at least 1"
  | .zeroCapacity => "channel_capacity must be at least 1"
  | .malformed => "Failed to parse config"
  | .unreadable path fault => "Failed to read " ++ path ++ ": " ++ fault.text
  | .inFile path fault => path ++ ": Invalid configuration: " ++ fault.text
  | .uninstrumented channel worker =>
      "rate auditing needs instrumented channels, but " ++ ChannelId.text channel ++ " of " ++
        worker.text ++ " is not"

/-- The errors that operations answer with. One of them is none: `capacityOverflow` stands for
the end of the program where a channel cannot be made. -/
inductive Error where
  | invalidRate (rate : Rate)
  | emptyChannel
  | indexOutOfRange (index size : Nat)
  | malformedConstraint (fault : ConstraintFault)
  | unsatisfiableConstraints (worker : Label)
  | unsupportedRate (worker : Label) (input : Nat) (peek pop : Rate)
  | rateViolation (worker : Label) (port : Nat) (kind : RateKind) (declared : Rate)
      (observed : Nat)
  | missedMessage (worker : Label) (executions deliveryTime : Nat)
  | messageDelivery (fault : DeliveryFault)
  | invalidGraph (fault : GraphFault)
  | configuration (fault : ConfigFault)
  | io (text : String)
  | other (text : String)
  | capacityOverflow
  deriving DecidableEq

def Error.message : Error → String
  | .invalidRate rate => "Illegal rate: " ++ rate.text
  | .emptyChannel => "Pop from empty channel"
  | .indexOutOfRange index size =>
      "Peek index " ++ toString index ++ " out of range for channel of size " ++ toString size
  | .malformedConstraint fault => "Malformed message constraint: " ++ fault.text
  | .unsatisfiableConstraints worker =>
      "Unsatisfiable message constraints at worker " ++ worker.text
  | .unsupportedRate worker input peek pop =>
      "Unbounded input rates not yet supported: worker " ++ worker.text ++ " channel " ++
        toString input ++ " (peek " ++ peek.text ++ ", pop " ++ pop.text ++ ")"
  | .rateViolation worker port kind declared observed =>
      worker.text ++ ": " ++ kind.text ++ " rate " ++ declared.text ++ " but observed " ++
        toString observed ++ " on channel " ++ toString port
  | .missedMessage worker executions deliveryTime =>
      "Message delivery missed at worker " ++ worker.text ++ ": executions " ++
        toString executions ++ ", delivery time " ++ toString deliveryTime
  | .messageDelivery fault => "Message delivery failed: " ++ fault.text
  | .invalidGraph fault => "Invalid stream graph: " ++ fault.text
  | .configuration fault => "Invalid configuration: " ++ fault.text
  | .io text => "IO error: " ++ text
  | .other text => text
  | .capacityOverflow => "capacity overflow"

/-- The answer of an operation together with the state it leaves, which a failed
operation may have changed as well. -/
abbrev Outcome (ρ σ : Type) := Except Error ρ × σ

end DemandFlow
