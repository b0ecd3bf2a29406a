import DemandFlow.Error
import DemandFlow.Text.Quoted

/-!
Portals, messages and the queues in which messages wait. A queue is ascending by
delivery time; messages due at the same time keep the order in which they came.
-/

set_option autoImplicit false

namespace DemandFlow

/-- A handle for messages to the workers registered on a portal. All of them have
bodies of the recipient type. -/
structure Portal where
  id : PortalId
  recipient : BodyType
  deriving DecidableEq

def Portal.detail (portal : Portal) : String :=
  Text.record "Portal"
    [("id", PortalId.detail portal.id), ("recipient", Text.quoted portal.recipient.name)]

structure Outgoing (μ : Type) where
  portal : Portal
  payload : μ

structure Message (μ : Type) where
  portal : PortalId
  /-- The message arrives just before the firing that brings the recipient's count to
  this value. -/
  deliveryTime : Nat
  /-- The body type the payload is meant for. -/
  recipient : BodyType
  payload : μ

def Message.detail {μ : Type} (message : Message μ) : String :=
  Text.partialRecord "Message"
    [("portal", PortalId.detail message.portal),
      ("delivery_time", toString message.deliveryTime)]

/-- Where the search continues: between `low` and `high` items satisfy `below`, if
those that do come first. -/
def partitionSearch {α : Type} (below : α → Bool) (items : List α) (low high : Nat) : Nat :=
  if low < high then
    let middle := (low + high) / 2
    if items[middle]?.any below then
      partitionSearch below items (middle + 1) high
    else
      partitionSearch below items low middle
  else
    low
  termination_by high - low
  decreasing_by all_goals omega

/-- How many items satisfy `below`, found by bisection. The items that do must come
first. -/
def partitionPoint {α : Type} (below : α → Bool) (items : List α) : Nat :=
  partitionSearch below items 0 items.length

structure MessageQueue (μ : Type) where
  messages : List (Message μ) := []

namespace MessageQueue

variable {μ : Type}

/-- The place of a message due at `time`: behind every message due no later. -/
def position (queue : MessageQueue μ) (time : Nat) : Nat :=
  partitionPoint (fun queued => decide (queued.deliveryTime ≤ time)) queue.messages

def insert (queue : MessageQueue μ) (message : Message μ) : MessageQueue μ :=
  let place := queue.position message.deliveryTime
  { messages := queue.messages.take place ++ message :: queue.messages.drop place }

def frontTime? (queue : MessageQueue μ) : Option Nat :=
  queue.messages.head?.map Message.deliveryTime

def popFront? (queue : MessageQueue μ) : Option (Message μ × MessageQueue μ) :=
  match queue.messages with
  | [] => none
  | front :: rest => some (front, { messages := rest })

def size (queue : MessageQueue μ) : Nat :=
  queue.messages.length

def isEmpty (queue : MessageQueue μ) : Bool :=
  queue.messages.isEmpty

end MessageQueue

end DemandFlow
