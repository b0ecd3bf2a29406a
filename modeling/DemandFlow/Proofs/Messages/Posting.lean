import DemandFlow.Proofs.Messages.Deadline

/-!
Posting. Routing the outbox of a sender comes to messages for each worker, in the order in which
they were sent, and each of them is in time.
-/

set_option autoImplicit false

namespace DemandFlow

variable {β α μ : Type}

namespace Worker

def enqueueAll (worker : Worker β μ) (messages : List (Message μ)) : Worker β μ :=
  messages.foldl enqueue worker

private theorem enqueueAll_append (worker : Worker β μ) (first second : List (Message μ)) :
    worker.enqueueAll (first ++ second) = (worker.enqueueAll first).enqueueAll second :=
  List.foldl_append

@[simp]
theorem executions_enqueueAll (worker : Worker β μ) (messages : List (Message μ)) :
    (worker.enqueueAll messages).executions = worker.executions := by
  induction messages generalizing worker with
  | nil => rfl
  | cons message rest inductionHypothesis => exact inductionHypothesis (worker.enqueue message)

@[simp]
theorem body_enqueueAll (worker : Worker β μ) (messages : List (Message μ)) :
    (worker.enqueueAll messages).body = worker.body := by
  induction messages generalizing worker with
  | nil => rfl
  | cons message rest inductionHypothesis => exact inductionHypothesis (worker.enqueue message)

theorem Timely.enqueueAll {worker : Worker β μ} (timely : worker.Timely)
    {messages : List (Message μ)}
    (inTime : ∀ message ∈ messages, worker.executions < message.deliveryTime) :
    (worker.enqueueAll messages).Timely := by
  induction messages generalizing worker with
  | nil => exact timely
  | cons message rest inductionHypothesis =>
      have first := timely.enqueue (inTime message (List.mem_cons_self ..))
      exact inductionHypothesis first
        (fun other member => inTime other (List.mem_cons_of_mem _ member))

theorem Timely.dueAt_enqueueAll {worker : Worker β μ} (timely : worker.Timely)
    {messages : List (Message μ)}
    (inTime : ∀ message ∈ messages, worker.executions < message.deliveryTime) (time : Nat) :
    (worker.enqueueAll messages).queue.dueAt time =
      worker.queue.dueAt time ++ dueAmong messages time := by
  induction messages generalizing worker with
  | nil => exact (List.append_nil _).symm
  | cons message rest inductionHypothesis =>
      have first := timely.enqueue (inTime message (List.mem_cons_self ..))
      have others := inductionHypothesis first
        (fun other member => inTime other (List.mem_cons_of_mem _ member))
      have one : (worker.enqueue message).queue.dueAt time =
          worker.queue.dueAt time ++ dueAmong [message] time :=
        MessageQueue.dueAt_insert timely.ascending message time
      calc (worker.enqueueAll (message :: rest)).queue.dueAt time
          = (worker.enqueue message).queue.dueAt time ++ dueAmong rest time := others
        _ = worker.queue.dueAt time ++ (dueAmong [message] time ++ dueAmong rest time) := by
            rw [one, List.append_assoc]
        _ = worker.queue.dueAt time ++ dueAmong (message :: rest) time := by
            rw [← dueAmong_append]
            rfl

end Worker

namespace Graph

/-- Every worker gets the messages for it, each of them in time, and nothing else changes
for a worker. -/
structure Posted (graph left : Graph β α μ) (letters : WorkerId → List (Message μ)) :
    Prop where
  workers : ∀ id, left.worker? id =
    (graph.worker? id).map (fun worker => worker.enqueueAll (letters id))
  inTime : ∀ id worker, graph.worker? id = some worker →
    ∀ message ∈ letters id, worker.executions < message.deliveryTime

theorem Posted.nothing (graph : Graph β α μ) : graph.Posted graph (fun _ => []) := by
  constructor
  · intro id
    cases graph.worker? id with
    | none => rfl
    | some worker => rfl
  · intro id worker known message member
    cases member

theorem Posted.trans {graph between left : Graph β α μ}
    {first second : WorkerId → List (Message μ)} (before : graph.Posted between first)
    (after : between.Posted left second) :
    graph.Posted left (fun id => first id ++ second id) := by
  constructor
  · intro id
    rw [after.workers id, before.workers id, Option.map_map]
    congr 1
    funext worker
    exact (worker.enqueueAll_append (first id) (second id)).symm
  · intro id worker known message member
    rcases List.mem_append.mp member with early | late
    · exact before.inTime id worker known message early
    · have found : between.worker? id = some (worker.enqueueAll (first id)) := by
        rw [before.workers id, known]
        rfl
      have ahead := after.inTime id _ found message late
      rw [Worker.executions_enqueueAll] at ahead
      exact ahead

/-- What a message becomes on its way to one recipient, timed by the constraint for the
route. -/
def timed? (graph : Graph β α μ) (sender : WorkerId) (sent : Nat) (outgoing : Outgoing μ)
    (recipient : WorkerId) : Option (Message μ) :=
  (graph.constraintFor? (routeOf sender outgoing recipient)).map
    (fun constraint => outgoing.timed (constraint.deliveryTime sent))

def copies (graph : Graph β α μ) (sender : WorkerId) (sent : Nat) (outgoing : Outgoing μ)
    (recipients : List WorkerId) (id : WorkerId) : List (Message μ) :=
  if id ∈ recipients then (graph.timed? sender sent outgoing id).toList else []

/-- The messages for one worker in the outbox of a sender that had completed `sent`
firings. -/
def lettersTo (graph : Graph β α μ) (sender : WorkerId) (sent : Nat)
    (outbox : List (Outgoing μ)) (id : WorkerId) : List (Message μ) :=
  outbox.flatMap fun outgoing =>
    graph.copies sender sent outgoing (graph.recipientsOf outgoing.portal.id) id

/-- Every copy of every message in the outbox has a route. -/
def Routed (graph : Graph β α μ) (sender : WorkerId) (outbox : List (Outgoing μ)) : Prop :=
  ∀ outgoing ∈ outbox, outgoing.portal.id < graph.recipients.length ∧
    ∀ recipient ∈ graph.recipientsOf outgoing.portal.id,
      ∃ constraint ∈ graph.constraints, constraint.route = routeOf sender outgoing recipient

/-- Routing reads the constraints and the portals only, which no operation changes. -/
theorem copies_of_constraints_eq {left right : Graph β α μ}
    (same : left.constraints = right.constraints) : left.copies = right.copies := by
  unfold copies timed? constraintFor?
  rw [same]

theorem lettersTo_of_frame_eq {left right : Graph β α μ} (same : left.frame = right.frame) :
    left.lettersTo = right.lettersTo := by
  have portals : left.recipients = right.recipients := congrArg GraphFrame.recipients same
  funext sender sent outbox id
  unfold lettersTo recipientsOf
  rw [copies_of_constraints_eq (congrArg GraphFrame.constraints same), portals]

theorem Routed.of_frame_eq {left right : Graph β α μ} (same : left.frame = right.frame)
    {sender : WorkerId} {outbox : List (Outgoing μ)} (routed : left.Routed sender outbox) :
    right.Routed sender outbox := by
  have portals : left.recipients = right.recipients := congrArg GraphFrame.recipients same
  have constraints : left.constraints = right.constraints :=
    congrArg GraphFrame.constraints same
  unfold Routed recipientsOf at routed ⊢
  rw [← portals, ← constraints]
  exact routed

private theorem routeTo_ok {graph left : Graph β α μ} {sender : WorkerId} {sent : Nat}
    {outgoing : Outgoing μ} {recipient : WorkerId}
    (routed : graph.routeTo sender sent outgoing recipient = (.ok (), left)) :
    graph.Posted left (graph.copies sender sent outgoing [recipient]) ∧
      ∃ constraint ∈ graph.constraints,
        constraint.route = routeOf sender outgoing recipient := by
  have view := graph.routeTo_view sender sent outgoing recipient
  rw [routed] at view
  cases view with
  | @queued constraint worker declared known inTime =>
      obtain ⟨member, route⟩ := constraintFor?_eq_some declared
      have here : graph.copies sender sent outgoing [recipient] recipient =
          [outgoing.timed (constraint.deliveryTime sent)] := by
        simp [copies, timed?, declared]
      have elsewhere (id : WorkerId) (different : id ≠ recipient) :
          graph.copies sender sent outgoing [recipient] id = [] := by
        simp [copies, different]
      refine ⟨⟨?_, ?_⟩, constraint, member, route⟩
      · intro id
        by_cases same : id = recipient
        · subst same
          rw [worker?_setWorker_self graph _ (List.getElem?_eq_some_iff.mp known).1, known, here]
          rfl
        · rw [worker?_setWorker_of_ne graph _ same, elsewhere id same]
          exact (Posted.nothing graph).workers id
      · intro id found place message among
        by_cases same : id = recipient
        · subst same
          rw [known] at place
          cases place
          rw [here, List.mem_singleton] at among
          subst among
          exact inTime
        · rw [elsewhere id same] at among
          cases among

private theorem routeAll_ok {graph left : Graph β α μ} {sender : WorkerId} {sent : Nat}
    {outgoing : Outgoing μ} {recipients : List WorkerId} (distinct : recipients.Nodup)
    (routed : graph.routeAll sender sent outgoing recipients = (.ok (), left)) :
    graph.Posted left (graph.copies sender sent outgoing recipients) ∧
      ∀ recipient ∈ recipients, ∃ constraint ∈ graph.constraints,
        constraint.route = routeOf sender outgoing recipient := by
  induction recipients generalizing graph with
  | nil =>
      cases routed
      refine ⟨?_, by simp⟩
      have empty : left.copies sender sent outgoing [] = fun _ => [] := by
        funext id
        simp only [copies, List.not_mem_nil, ↓reduceIte]
      rw [empty]
      exact Posted.nothing left
  | cons recipient rest inductionHypothesis =>
      obtain ⟨absent, restDistinct⟩ := List.nodup_cons.mp distinct
      unfold routeAll at routed
      split at routed
      next => cases routed
      next between first =>
        obtain ⟨posted, declared⟩ := routeTo_ok first
        have framed := graph.frame_routeTo sender sent outgoing recipient
        rw [first] at framed
        have constraints : between.constraints = graph.constraints :=
          congrArg GraphFrame.constraints framed
        obtain ⟨restPosted, restDeclared⟩ := inductionHypothesis restDistinct routed
        rw [copies_of_constraints_eq constraints] at restPosted
        rw [constraints] at restDeclared
        constructor
        · have whole := posted.trans restPosted
          have joined : (fun id => graph.copies sender sent outgoing [recipient] id ++
              graph.copies sender sent outgoing rest id) =
                graph.copies sender sent outgoing (recipient :: rest) := by
            funext id
            by_cases same : id = recipient
            · subst same
              simp [copies, absent]
            · simp [copies, same]
          rw [joined] at whole
          exact whole
        · intro other member
          rcases List.mem_cons.mp member with rfl | member
          · exact declared
          · exact restDeclared other member

theorem routeOutbox_ok {graph left : Graph β α μ} {sender : WorkerId} {sent : Nat}
    {outbox : List (Outgoing μ)} (registered : ∀ workers ∈ graph.recipients, workers.Nodup)
    (routed : graph.routeOutbox sender sent outbox = (.ok (), left)) :
    graph.Posted left (graph.lettersTo sender sent outbox) ∧ graph.Routed sender outbox := by
  induction outbox generalizing graph with
  | nil =>
      cases routed
      exact ⟨Posted.nothing left, by simp [Routed]⟩
  | cons outgoing rest inductionHypothesis =>
      unfold routeOutbox at routed
      split at routed
      next => cases routed
      next recipients found =>
        have recipientsEq : graph.recipientsOf outgoing.portal.id = recipients := by
          unfold recipientsOf
          rw [found]
          rfl
        have framed := graph.frame_routeAll sender sent outgoing recipients
        split at routed
        next => cases routed
        next between first =>
          rw [first] at framed
          have constraints : between.constraints = graph.constraints :=
            congrArg GraphFrame.constraints framed
          have portals : between.recipients = graph.recipients :=
            congrArg GraphFrame.recipients framed
          obtain ⟨posted, declared⟩ :=
            routeAll_ok (registered recipients (List.mem_of_getElem? found)) first
          obtain ⟨restPosted, restRouted⟩ := inductionHypothesis (portals ▸ registered) routed
          constructor
          · have whole := posted.trans restPosted
            have joined : (fun id => graph.copies sender sent outgoing recipients id ++
                between.lettersTo sender sent rest id) =
                  graph.lettersTo sender sent (outgoing :: rest) := by
              funext id
              unfold lettersTo recipientsOf
              rw [copies_of_constraints_eq constraints, portals, List.flatMap_cons]
              unfold recipientsOf at recipientsEq
              rw [recipientsEq]
            rw [joined] at whole
            exact whole
          · intro other member
            rcases List.mem_cons.mp member with rfl | member
            · rw [recipientsEq]
              exact ⟨(List.getElem?_eq_some_iff.mp found).1, declared⟩
            · have kept := restRouted other member
              unfold recipientsOf at kept
              rw [constraints, portals] at kept
              exact kept

end Graph

end DemandFlow
