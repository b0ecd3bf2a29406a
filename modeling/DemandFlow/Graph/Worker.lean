import DemandFlow.Text.Quoted
import DemandFlow.Work.Routine

/-!
Workers of a built graph: a body with its ports and rates, the number of firings it
has completed, and the messages waiting for it.
-/

set_option autoImplicit false

namespace DemandFlow

structure Worker (β μ : Type) where
  id : WorkerId
  name : String
  kind : WorkerKind
  inputs : List Port
  outputs : List Port
  rates : WorkerRates
  /-- Completed firings. -/
  executions : Nat := 0
  queue : MessageQueue μ := {}
  bodyType : BodyType
  body : β

namespace Worker

variable {β μ : Type}

def label (worker : Worker β μ) : Label :=
  { name := worker.name, id := worker.id }

def shape (worker : Worker β μ) : PortShape :=
  { inputs := worker.inputs.length, outputs := worker.outputs.length }

def predecessors (worker : Worker β μ) : List (Option WorkerId) :=
  worker.inputs.map Port.peer

def successors (worker : Worker β μ) : List (Option WorkerId) :=
  worker.outputs.map Port.peer

def inputChannels (worker : Worker β μ) : List ChannelId :=
  worker.inputs.map Port.channel

def outputChannels (worker : Worker β μ) : List ChannelId :=
  worker.outputs.map Port.channel

def upcoming (worker : Worker β μ) : Nat :=
  worker.executions + 1

def missed (worker : Worker β μ) (deliveryTime : Nat) : Error :=
  .missedMessage worker.label worker.executions deliveryTime

/-- Queues a message, if its delivery time is still ahead of the completed firings. -/
def sendMessage (worker : Worker β μ) (message : Message μ) : Outcome Unit (Worker β μ) :=
  if message.deliveryTime ≤ worker.executions then
    (.error (worker.missed message.deliveryTime), worker)
  else
    (.ok (), { worker with queue := worker.queue.insert message })

/-- Delivers the leading messages that are due before the upcoming firing. A message due
earlier than that was missed and stays in the queue; a message for a body of another
type is lost. -/
def deliver [Recipient β μ] (worker : Worker β μ) : List (Message μ) → Outcome Unit (Worker β μ)
  | [] => (.ok (), { worker with queue := {} })
  | message :: rest =>
      if worker.upcoming < message.deliveryTime then
        (.ok (), { worker with queue := { messages := message :: rest } })
      else if message.deliveryTime < worker.upcoming then
        (.error (worker.missed message.deliveryTime),
          { worker with queue := { messages := message :: rest } })
      else if message.recipient = worker.bodyType then
        deliver { worker with body := Recipient.receive worker.body message.payload } rest
      else
        (.error (.messageDelivery (.recipientType message.recipient)),
          { worker with queue := { messages := rest } })

def deliverDue [Recipient β μ] (worker : Worker β μ) : Outcome Unit (Worker β μ) :=
  worker.deliver worker.queue.messages

def detail (worker : Worker β μ) : String :=
  Text.partialRecord "Worker"
    [("id", WorkerId.detail worker.id),
      ("name", Text.quoted worker.name),
      ("kind", worker.kind.detail),
      ("inputs", Text.list (worker.inputs.map Port.detail)),
      ("outputs", Text.list (worker.outputs.map Port.detail)),
      ("executions", toString worker.executions),
      ("pending_messages", toString worker.queue.size)]

end Worker

end DemandFlow
