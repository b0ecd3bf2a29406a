import DemandFlow.Graph.Basic

/-!
Firing a worker: the messages due are delivered, the body works once, the count goes
up, and what the body has sent is routed. Each stage can fail, and what was done up
to then stays done.
-/

set_option autoImplicit false

namespace DemandFlow.Graph

variable {β α μ : Type}

def constraintFor? (graph : Graph β α μ) (route : Route) : Option Constraint :=
  graph.constraints.find? (fun constraint => decide (constraint.route = route))

/-- Puts a message for one recipient into its queue, timed by the constraint declared for
the route. -/
def routeTo (graph : Graph β α μ) (sender : WorkerId) (sent : Nat) (outgoing : Outgoing μ)
    (recipient : WorkerId) : Outcome Unit (Graph β α μ) :=
  let route : Route := { sender := sender, recipient := recipient, portal := outgoing.portal.id }
  match graph.constraintFor? route with
  | none => (.error (.malformedConstraint (.noRoute route)), graph)
  | some constraint =>
      match graph.worker? recipient with
      | none => (.error (.invalidGraph (.unknownWorker recipient)), graph)
      | some worker =>
          let (answer, worker) := worker.sendMessage
            { portal := outgoing.portal.id
              deliveryTime := constraint.deliveryTime sent
              recipient := outgoing.portal.recipient
              payload := outgoing.payload }
          (answer, graph.setWorker recipient worker)

def routeAll (graph : Graph β α μ) (sender : WorkerId) (sent : Nat) (outgoing : Outgoing μ) :
    List WorkerId → Outcome Unit (Graph β α μ)
  | [] => (.ok (), graph)
  | recipient :: rest =>
      match graph.routeTo sender sent outgoing recipient with
      | (.error error, graph) => (.error error, graph)
      | (.ok (), graph) => graph.routeAll sender sent outgoing rest

/-- Routes the messages a worker sent in the firing before which it had completed `sent`
firings. -/
def routeOutbox (graph : Graph β α μ) (sender : WorkerId) (sent : Nat) :
    List (Outgoing μ) → Outcome Unit (Graph β α μ)
  | [] => (.ok (), graph)
  | outgoing :: rest =>
      match graph.recipients[outgoing.portal.id]? with
      | none => (.error (.messageDelivery (.unknownPortal outgoing.portal.id)), graph)
      | some recipients =>
          match graph.routeAll sender sent outgoing recipients with
          | (.error error, graph) => (.error error, graph)
          | (.ok (), graph) => graph.routeOutbox sender sent rest

def runBody [Work β α μ] (graph : Graph β α μ) (id : WorkerId) (worker : Worker β μ) :
    (Except Error Unit × β) × Routine.Scene α μ :=
  (Work.work worker.body
    { worker := id, executions := worker.executions, shape := worker.shape }).run
    id worker.inputs worker.outputs { bank := graph.bank }

def work [Work β α μ] (graph : Graph β α μ) (id : WorkerId) (worker : Worker β μ) :
    Outcome Unit (Graph β α μ) :=
  match graph.runBody id worker with
  | ((.error error, body), scene) =>
      (.error error,
        { graph.setWorker id { worker with body := body } with bank := scene.bank })
  | ((.ok (), body), scene) =>
      { graph.setWorker id
          { worker with body := body, executions := worker.executions + 1 } with
        bank := scene.bank }.routeOutbox id worker.executions scene.outbox

def fire [Recipient β μ] [Work β α μ] (graph : Graph β α μ) (id : WorkerId) :
    Outcome Unit (Graph β α μ) :=
  match graph.worker? id with
  | none => (.error (.invalidGraph (.unknownWorker id)), graph)
  | some worker =>
      match worker.deliverDue with
      | (.error error, worker) => (.error error, graph.setWorker id worker)
      | (.ok (), worker) => graph.work id worker

end DemandFlow.Graph
