import DemandFlow.Proofs.Graph.Firing
import DemandFlow.Proofs.Messages.Queue

/-!
How messages move: from a queue into a body when they are due, and from an outbox into
queues. Every queue of a running graph is timely: it ascends, and nothing in it is overdue.
-/

set_option autoImplicit false

namespace DemandFlow

variable {β α μ : Type}

namespace Worker

/-- The queue ascends, and all that waits in it is due after the completed firings. -/
structure Timely (worker : Worker β μ) : Prop where
  ascending : worker.queue.Ascending
  ahead : ∀ message ∈ worker.queue.messages, worker.executions < message.deliveryTime

theorem Timely.of_empty {worker : Worker β μ} (empty : worker.queue = {}) : worker.Timely := by
  constructor
  · rw [empty]
    exact List.Pairwise.nil
  · rw [empty]
    intro message member
    cases member

def receiveAll [Recipient β μ] (body : β) (messages : List (Message μ)) : β :=
  messages.foldl (fun body message => Recipient.receive body message.payload) body

def afterDelivery [Recipient β μ] (worker : Worker β μ) (due later : List (Message μ)) :
    Worker β μ :=
  { worker with body := receiveAll worker.body due, queue := { messages := later } }

inductive DeliverView [Recipient β μ] (worker : Worker β μ) (messages : List (Message μ)) :
    Outcome Unit (Worker β μ) → Prop where
  | delivered (due later : List (Message μ)) (parts : messages = due ++ later)
      (now : ∀ message ∈ due, message.deliveryTime = worker.upcoming)
      (beyond : ∀ message ∈ later, worker.upcoming < message.deliveryTime) :
      DeliverView worker messages (.ok (), worker.afterDelivery due later)
  | misdirected (due later : List (Message μ)) (message : Message μ)
      (parts : messages = due ++ message :: later) :
      DeliverView worker messages
        (.error (.messageDelivery (.recipientType message.recipient)),
          worker.afterDelivery due later)

private theorem deliver_view [Recipient β μ] (worker : Worker β μ) (messages : List (Message μ))
    (ascending : messages.Pairwise
      (fun earlier later => earlier.deliveryTime ≤ later.deliveryTime))
    (ahead : ∀ message ∈ messages, worker.executions < message.deliveryTime) :
    DeliverView worker messages (worker.deliver messages) := by
  induction messages generalizing worker with
  | nil => exact .delivered [] [] rfl (by simp) nofun
  | cons message rest inductionHypothesis =>
      obtain ⟨leads, restAscending⟩ := List.pairwise_cons.mp ascending
      have messageAhead := ahead message (List.mem_cons_self ..)
      have restAhead : ∀ other ∈ rest, worker.executions < other.deliveryTime :=
        fun other member => ahead other (List.mem_cons_of_mem _ member)
      unfold deliver
      split
      next beyond =>
        refine .delivered [] (message :: rest) rfl nofun ?_
        intro other member
        rcases List.mem_cons.mp member with rfl | member
        · exact beyond
        · exact Nat.lt_of_lt_of_le beyond (leads other member)
      next notBeyond =>
        have now : message.deliveryTime = worker.upcoming := by
          unfold upcoming at notBeyond ⊢
          omega
        split
        next overdue => omega
        next =>
          split
          next =>
            have view := inductionHypothesis
              { worker with body := Recipient.receive worker.body message.payload }
              restAscending restAhead
            generalize { worker with
              body := Recipient.receive worker.body message.payload }.deliver rest = outcome
              at view ⊢
            cases view with
            | delivered due later parts nowRest beyond =>
                refine .delivered (message :: due) later (by rw [parts, List.cons_append]) ?_
                  beyond
                intro other member
                rcases List.mem_cons.mp member with rfl | member
                · exact now
                · exact nowRest other member
            | misdirected due later stray parts =>
                exact .misdirected (message :: due) later stray
                  (by rw [parts, List.cons_append])
          next => exact .misdirected [] rest message rfl

theorem Timely.deliverDue_view [Recipient β μ] {worker : Worker β μ} (timely : worker.Timely) :
    DeliverView worker worker.queue.messages worker.deliverDue :=
  deliver_view worker worker.queue.messages timely.ascending timely.ahead

/-- What is left in the queue after a delivery, on time for the given count. -/
private theorem timely_of_suffix {worker : Worker β μ} {front later : List (Message μ)}
    {left : Worker β μ} (timely : worker.Timely) (parts : worker.queue.messages = front ++ later)
    (queue : left.queue.messages = later)
    (ahead : ∀ message ∈ later, left.executions < message.deliveryTime) : left.Timely := by
  constructor
  · have whole := timely.ascending
    unfold MessageQueue.Ascending at whole ⊢
    rw [parts] at whole
    rw [queue]
    exact (List.pairwise_append.mp whole).2.1
  · rw [queue]
    exact ahead

/-- After a delivery the queue is timely even for one more firing. -/
theorem Timely.afterDelivery_beyond [Recipient β μ] {worker : Worker β μ}
    (timely : worker.Timely) {due later : List (Message μ)}
    (parts : worker.queue.messages = due ++ later)
    (beyond : ∀ message ∈ later, worker.upcoming < message.deliveryTime) (body : β) :
    { worker.afterDelivery due later with
      body := body, executions := worker.executions + 1 }.Timely :=
  timely_of_suffix timely parts rfl beyond

theorem Timely.afterDelivery [Recipient β μ] {worker : Worker β μ} (timely : worker.Timely)
    {front due later : List (Message μ)} (parts : worker.queue.messages = front ++ later) :
    (worker.afterDelivery due later).Timely :=
  timely_of_suffix timely parts rfl fun message member =>
    timely.ahead message (by rw [parts]; exact List.mem_append_right _ member)

def enqueue (worker : Worker β μ) (message : Message μ) : Worker β μ :=
  { worker with queue := worker.queue.insert message }

theorem Timely.enqueue {worker : Worker β μ} (timely : worker.Timely) {message : Message μ}
    (inTime : worker.executions < message.deliveryTime) : (worker.enqueue message).Timely := by
  constructor
  · exact timely.ascending.insert message
  · intro other member
    rcases MessageQueue.mem_insert.mp member with rfl | member
    · exact inTime
    · exact timely.ahead other member

end Worker

def Outgoing.timed (outgoing : Outgoing μ) (time : Nat) : Message μ :=
  { portal := outgoing.portal.id
    deliveryTime := time
    recipient := outgoing.portal.recipient
    payload := outgoing.payload }

namespace Graph

def routeOf (sender : WorkerId) (outgoing : Outgoing μ) (recipient : WorkerId) : Route :=
  { sender := sender, recipient := recipient, portal := outgoing.portal.id }

/-- What routing a message to one recipient comes to. Only the last way changes the
graph. -/
inductive RouteView (graph : Graph β α μ) (sender : WorkerId) (sent : Nat)
    (outgoing : Outgoing μ) (recipient : WorkerId) : Outcome Unit (Graph β α μ) → Prop where
  | undeclared (absent : graph.constraintFor? (routeOf sender outgoing recipient) = none) :
      RouteView graph sender sent outgoing recipient
        (.error (.malformedConstraint (.noRoute (routeOf sender outgoing recipient))), graph)
  | unknown (absent : graph.worker? recipient = none) :
      RouteView graph sender sent outgoing recipient
        (.error (.invalidGraph (.unknownWorker recipient)), graph)
  | late {constraint : Constraint} {worker : Worker β μ}
      (declared : graph.constraintFor? (routeOf sender outgoing recipient) = some constraint)
      (known : graph.worker? recipient = some worker)
      (passed : constraint.deliveryTime sent ≤ worker.executions) :
      RouteView graph sender sent outgoing recipient
        (.error (worker.missed (constraint.deliveryTime sent)), graph)
  | queued {constraint : Constraint} {worker : Worker β μ}
      (declared : graph.constraintFor? (routeOf sender outgoing recipient) = some constraint)
      (known : graph.worker? recipient = some worker)
      (inTime : worker.executions < constraint.deliveryTime sent) :
      RouteView graph sender sent outgoing recipient
        (.ok (), graph.setWorker recipient
          (worker.enqueue (outgoing.timed (constraint.deliveryTime sent))))

theorem constraintFor?_eq_some {graph : Graph β α μ} {route : Route} {constraint : Constraint}
    (declared : graph.constraintFor? route = some constraint) :
    constraint ∈ graph.constraints ∧ constraint.route = route := by
  unfold constraintFor? at declared
  constructor
  · exact List.mem_of_find?_eq_some declared
  · simpa only [decide_eq_true_eq] using List.find?_some declared

private theorem setWorker_same {graph : Graph β α μ} {id : WorkerId} {worker : Worker β μ}
    (known : graph.worker? id = some worker) : graph.setWorker id worker = graph := by
  unfold setWorker
  unfold worker? at known
  obtain ⟨within, rfl⟩ := List.getElem?_eq_some_iff.mp known
  rw [List.set_getElem_self]

theorem routeTo_view (graph : Graph β α μ) (sender : WorkerId) (sent : Nat)
    (outgoing : Outgoing μ) (recipient : WorkerId) :
    RouteView graph sender sent outgoing recipient
      (graph.routeTo sender sent outgoing recipient) := by
  unfold routeTo
  dsimp only
  split
  next absent => exact .undeclared absent
  next constraint declared =>
    split
    next absent => exact .unknown absent
    next worker known =>
      unfold Worker.sendMessage
      dsimp only
      by_cases passed : constraint.deliveryTime sent ≤ worker.executions
      · rw [if_pos passed]
        dsimp only
        rw [setWorker_same known]
        exact .late declared known passed
      · rw [if_neg passed]
        exact .queued declared known (Nat.lt_of_not_le passed)

/-- What a property and its failures come to at the end of an operation. -/
def Ended (holds : Graph β α μ → Prop) (fails : Error → Graph β α μ → Prop)
    (outcome : Outcome Unit (Graph β α μ)) : Prop :=
  match outcome.1 with
  | .ok () => holds outcome.2
  | .error error => fails error outcome.2

section

variable (holds : Graph β α μ → Prop) (fails : Error → Graph β α μ → Prop)
  {sender : WorkerId} {sent : Nat}

private theorem routeAll_induction {outgoing : Outgoing μ}
    (step : ∀ graph recipient, holds graph →
      Ended holds fails (graph.routeTo sender sent outgoing recipient))
    (graph : Graph β α μ) (recipients : List WorkerId) (start : holds graph) :
    Ended holds fails (graph.routeAll sender sent outgoing recipients) := by
  induction recipients generalizing graph with
  | nil => exact start
  | cons recipient rest inductionHypothesis =>
      have first := step graph recipient start
      unfold routeAll
      split
      next error left routed =>
        rw [routed] at first
        exact first
      next left routed =>
        rw [routed] at first
        exact inductionHypothesis left first

/-- What routing to one recipient keeps is kept by routing an outbox. -/
theorem routeOutbox_induction
    (step : ∀ graph outgoing recipient, holds graph →
      Ended holds fails (graph.routeTo sender sent outgoing recipient))
    (unknown : ∀ graph portal, holds graph →
      fails (.messageDelivery (.unknownPortal portal)) graph)
    (graph : Graph β α μ) (outbox : List (Outgoing μ)) (start : holds graph) :
    Ended holds fails (graph.routeOutbox sender sent outbox) := by
  induction outbox generalizing graph with
  | nil => exact start
  | cons outgoing rest inductionHypothesis =>
      unfold routeOutbox
      split
      next => exact unknown graph _ start
      next recipients registered =>
        have first := routeAll_induction holds fails
          (fun graph recipient => step graph outgoing recipient) graph recipients start
        split
        next error left routed =>
          rw [routed] at first
          exact first
        next left routed =>
          rw [routed] at first
          exact inductionHypothesis left first

end

end Graph

end DemandFlow
