import DemandFlow.Identifiers
import DemandFlow.Rate.Basic

/-!
Delivery schedules and message constraints. A constraint declares that one worker
may message another through a portal; its schedule turns the number of firings the
sender has completed into the recipient's firing before which a message arrives.
-/

set_option autoImplicit false

namespace DemandFlow

/-- Firing counts never pass the largest count. -/
def saturate (count : Nat) : Nat :=
  min count maxCount

/-- When a message sent after a given number of firings is due. -/
inductive DeliverySchedule where
  /-- So many firings later, or earlier when negative. -/
  | latency (firings : Int)
  /-- Any rule of the user's. -/
  | custom (rule : Nat → Nat)

namespace DeliverySchedule

/-- The recipient's firing before which a message is due that its sender sends with
`sent` firings completed. Times stay between zero and the largest count. -/
def deliveryTime (schedule : DeliverySchedule) (sent : Nat) : Nat :=
  match schedule with
  | .latency firings => saturate ((sent : Int) + firings).toNat
  | .custom rule => rule sent

/-- The rule that scales the sender's count and then shifts it, saturating after
each of the two steps. -/
def affine (factor shift : Nat) : DeliverySchedule :=
  .custom (fun sent => saturate (saturate (sent * factor) + shift))

def text : DeliverySchedule → String
  | .latency firings => Text.applied "Latency" (toString firings)
  | .custom _ => "Custom(..)"

end DeliverySchedule

structure Route where
  sender : WorkerId
  recipient : WorkerId
  portal : PortalId
  deriving DecidableEq

structure Constraint where
  route : Route
  schedule : DeliverySchedule

namespace Constraint

def sender (constraint : Constraint) : WorkerId := constraint.route.sender

def recipient (constraint : Constraint) : WorkerId := constraint.route.recipient

def portal (constraint : Constraint) : PortalId := constraint.route.portal

def deliveryTime (constraint : Constraint) (sent : Nat) : Nat :=
  constraint.schedule.deliveryTime sent

def sameRoute (left right : Constraint) : Bool :=
  decide (left.route = right.route)

def detail (constraint : Constraint) : String :=
  Text.record "MessageConstraint"
    [("sender", WorkerId.detail constraint.sender),
      ("recipient", WorkerId.detail constraint.recipient),
      ("portal", PortalId.detail constraint.portal),
      ("schedule", constraint.schedule.text)]

end Constraint

structure ConstraintSummary where
  route : Route
  schedule : String
  deriving DecidableEq

def Constraint.summary (constraint : Constraint) : ConstraintSummary :=
  { route := constraint.route, schedule := constraint.schedule.text }

def ConstraintSummary.text (summary : ConstraintSummary) : String :=
  WorkerId.text summary.route.sender ++ " -> " ++ WorkerId.text summary.route.recipient ++
    " via " ++ PortalId.text summary.route.portal ++ " (" ++ summary.schedule ++ ")"

end DemandFlow
