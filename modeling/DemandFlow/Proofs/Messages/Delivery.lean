import DemandFlow.Proofs.Messages.Log
import DemandFlow.Proofs.Messages.Deadline
import DemandFlow.Proofs.Messages.Posting

/-!
Messages arrive exactly once and on time. The log of a history says which messages were posted
to a worker and when each of them is due. The main statement compares the worker with its mail:
what was due has been received, each message right before the firing it was due for, and what is
due later waits in the queue.
-/

set_option autoImplicit false

namespace DemandFlow

variable {β α μ : Type}

/-- After a completed firing its worker is done, and everybody has the mail for him. -/
theorem Graph.Completes.worker? [Recipient β μ] [Work β α μ] {graph left : Graph β α μ}
    {event : Event β μ} (completes : graph.Completes event left)
    (registered : ∀ workers ∈ graph.recipients, workers.Nodup) :
    graph.Routed event.id event.outbox ∧
      ∃ after : Graph β α μ,
        after.Posted left (graph.lettersTo event.id event.found.executions event.outbox) ∧
        after.worker? event.id = some event.done ∧
        ∀ other, other ≠ event.id → after.worker? other = graph.worker? other := by
  obtain ⟨known, delivery, bank, run, routing⟩ := completes
  have count : event.ready.executions = event.found.executions :=
    Worker.executions_deliverDue delivery
  have still : ∀ workers ∈ (graph.worked event.id event.ready event.body bank).recipients,
      workers.Nodup := registered
  obtain ⟨posted, routed⟩ := routeOutbox_ok still routing
  rw [count] at posted
  refine ⟨routed, _, posted, ?_, ?_⟩
  · exact worker?_setWorker_self graph _ (List.getElem?_eq_some_iff.mp known).1
  · intro other different
    exact worker?_setWorker_of_ne graph _ different

def bodyAfter (first : Worker β μ) (firings : List (Event β μ)) : β :=
  (firings.getLast?.map Event.body).getD first.body

/-- The worker `last` has come from `first` by the given firings, with exactly the given mail:
before its firing number `index + 1` it received the messages due at that time, in the order
of the mail, and nothing else ever touched its body but its own work. What is not yet due
waits in the queue. -/
structure Delivered [Recipient β μ] (first last : Worker β μ) (firings : List (Event β μ))
    (mail : List (Message μ)) : Prop where
  count : firings.length = last.executions
  positive : ∀ message ∈ mail, 1 ≤ message.deliveryTime
  firing : ∀ index event, firings[index]? = some event →
    event.found.executions = index ∧ event.found.body = bodyAfter first (firings.take index) ∧
      event.ready.body = Worker.receiveAll event.found.body (dueAmong mail (index + 1))
  body : last.body = bodyAfter first firings
  waiting : ∀ time, last.queue.dueAt time =
    if time ≤ last.executions then [] else dueAmong mail time

section

variable [Recipient β μ] {first last : Worker β μ} {firings : List (Event β μ)}
  {mail : List (Message μ)}

private theorem Delivered.initial (count : first.executions = 0) (queue : first.queue = {}) :
    Delivered first first [] [] where
  count := count.symm
  positive := by simp only [List.not_mem_nil, false_implies, implies_true]
  firing := by simp
  body := rfl
  waiting := by
    intro time
    rw [queue]
    split <;> rfl

/-- New mail that is in time changes nothing for the firings so far. -/
theorem Delivered.post (delivered : Delivered first last firings mail) (timely : last.Timely)
    {letters : List (Message μ)}
    (inTime : ∀ message ∈ letters, last.executions < message.deliveryTime) :
    Delivered first (last.enqueueAll letters) firings (mail ++ letters) := by
  have past (time : Nat) (passed : time ≤ last.executions) : dueAmong letters time = [] :=
    dueAmong_eq_nil fun message member => Nat.lt_of_le_of_lt passed (inTime message member)
  constructor
  · rw [Worker.executions_enqueueAll]
    exact delivered.count
  · intro message member
    rcases List.mem_append.mp member with old | new
    · exact delivered.positive message old
    · have ahead := inTime message new
      omega
  · intro index event found
    obtain ⟨number, body, received⟩ := delivered.firing index event found
    have within : index < firings.length := (List.getElem?_eq_some_iff.mp found).1
    rw [delivered.count] at within
    refine ⟨number, body, ?_⟩
    rw [dueAmong_append, past (index + 1) within, List.append_nil]
    exact received
  · rw [Worker.body_enqueueAll]
    exact delivered.body
  · intro time
    rw [timely.dueAt_enqueueAll inTime, delivered.waiting, Worker.executions_enqueueAll]
    split
    next passed => rw [past time passed, List.append_nil]
    next => rw [dueAmong_append]

private theorem Delivered.fire {event : Event β μ}
    (delivered : Delivered first event.found firings mail) (timely : event.found.Timely)
    (delivery : event.found.deliverDue = (.ok (), event.ready)) :
    Delivered first event.done (firings ++ [event]) mail ∧ event.done.Timely := by
  have view := timely.deliverDue_view
  rw [delivery] at view
  obtain ⟨id, found, ready, body, outbox⟩ := event
  dsimp only at delivered timely delivery view ⊢
  cases view with
  | delivered due later parts now beyond =>
      refine ⟨?_, timely.afterDelivery_beyond parts beyond body⟩
      change ∀ message ∈ due, message.deliveryTime = found.executions + 1 at now
      change ∀ message ∈ later, found.executions + 1 < message.deliveryTime at beyond
      have dueNow : dueAmong mail (found.executions + 1) = due := by
        have queued := delivered.waiting (found.executions + 1)
        rw [if_neg (by omega), MessageQueue.dueAt, parts, dueAmong_append,
          dueAmong_eq_self now, dueAmong_eq_nil beyond, List.append_nil] at queued
        exact queued.symm
      constructor
      · rw [List.length_append, delivered.count]
        rfl
      · exact delivered.positive
      · intro index event place
        by_cases old : index < firings.length
        · rw [List.getElem?_append_left old] at place
          rw [List.take_append_of_le_length (Nat.le_of_lt old)]
          exact delivered.firing index event place
        · have within := (List.getElem?_eq_some_iff.mp place).1
          rw [List.length_append, List.length_singleton] at within
          have last : index = firings.length := by omega
          subst last
          rw [List.getElem?_append_right (Nat.le_refl _), Nat.sub_self] at place
          cases place
          rw [List.take_append_of_le_length (Nat.le_refl _), List.take_length, delivered.count]
          refine ⟨rfl, delivered.body, ?_⟩
          rw [dueNow]
          rfl
      · unfold bodyAfter
        rw [List.getLast?_append, List.getLast?_singleton]
        rfl
      · intro time
        change dueAmong later time = if time ≤ found.executions + 1 then [] else dueAmong mail time
        split
        next passed =>
          exact dueAmong_eq_nil fun message member =>
            Nat.lt_of_le_of_lt passed (beyond message member)
        next ahead =>
          have queued := delivered.waiting time
          rw [if_neg (by omega), MessageQueue.dueAt, parts, dueAmong_append,
            dueAmong_of_ne (by omega) now, List.nil_append] at queued
          exact queued

end

def firingsOf (log : List (Event β μ)) (id : WorkerId) : List (Event β μ) :=
  log.filter (fun event => decide (event.id = id))

namespace Graph

def mailOf (graph : Graph β α μ) (log : List (Event β μ)) (id : WorkerId) : List (Message μ) :=
  log.flatMap fun event => graph.lettersTo event.id event.found.executions event.outbox id

/-- With the firings of the log the graph `first` has become `graph`: every message sent was
routed, and every worker has its mail. -/
structure Settled [Recipient β μ] (first : Graph β α μ) (log : List (Event β μ))
    (graph : Graph β α μ) : Prop where
  frame_eq : graph.frame = first.frame
  routed : ∀ event ∈ log, first.Routed event.id event.outbox
  workers : ∀ id before worker, first.worker? id = some before →
    graph.worker? id = some worker →
    worker.Timely ∧ Delivered before worker (firingsOf log id) (first.mailOf log id)

variable [Recipient β μ] {first graph left : Graph β α μ} {log : List (Event β μ)}

private theorem Settled.initial (fresh : first.Fresh) : first.Settled [] first where
  frame_eq := rfl
  routed := by simp only [List.not_mem_nil, false_implies, implies_true]
  workers := by
    intro id before worker known found
    rw [known] at found
    cases found
    rcases fresh id before known with ⟨count, queue⟩
    exact ⟨.of_empty queue, Delivered.initial count queue⟩

theorem Settled.of_workers_eq (settled : first.Settled log graph)
    (frame : left.frame = graph.frame) (same : left.workers = graph.workers) :
    first.Settled log left where
  frame_eq := frame.trans settled.frame_eq
  routed := settled.routed
  workers := by
    intro id before worker known found
    unfold worker? at found
    rw [same] at found
    exact settled.workers id before worker known found

private theorem Settled.fired [Work β α μ] {event : Event β μ} (settled : first.Settled log graph)
    (registered : ∀ workers ∈ first.recipients, workers.Nodup)
    (completes : graph.Completes event left) : first.Settled (log ++ [event]) left := by
  have same := settled.frame_eq
  have portals : graph.recipients = first.recipients := congrArg GraphFrame.recipients same
  rcases completes.worker? (portals ▸ registered) with ⟨routed, after, posted, here, elsewhere⟩
  rw [lettersTo_of_frame_eq same] at posted
  constructor
  · exact completes.frame_eq.trans same
  · intro other member
    rcases List.mem_append.mp member with old | new
    · exact settled.routed other old
    · rw [List.mem_singleton] at new
      subst new
      exact routed.of_frame_eq same
  · intro id before worker known found
    rw [posted.workers id] at found
    rcases Option.map_eq_some_iff.mp found with ⟨between, place, rfl⟩
    have inTime := posted.inTime id between place
    -- Who fired has one more firing before the new mail; for others only the mail is new.
    have upToMail : between.Timely ∧
        Delivered before between (firingsOf (log ++ [event]) id) (first.mailOf log id) := by
      unfold firingsOf
      rw [List.filter_append]
      by_cases fires : event.id = id
      · subst fires
        rw [here] at place
        cases place
        rcases settled.workers event.id before event.found known completes.known with
          ⟨timely, delivered⟩
        rcases delivered.fire timely completes.delivery with ⟨next, nextTimely⟩
        rw [List.filter_cons_of_pos (by simp only [decide_true]), List.filter_nil]
        exact ⟨nextTimely, next⟩
      · rw [elsewhere id (fun equal => fires equal.symm)] at place
        have absent : [event].filter (fun event => decide (event.id = id)) = [] :=
          List.filter_cons_of_neg (fun equal => fires (of_decide_eq_true equal))
        rw [absent, List.append_nil]
        exact settled.workers id before between known place
    refine ⟨upToMail.1.enqueueAll inTime, ?_⟩
    have whole := upToMail.2.post upToMail.1 inTime
    unfold mailOf at whole ⊢
    rw [List.flatMap_append, List.flatMap_singleton]
    exact whole

end Graph

/-! ### Histories -/

namespace Interpreter

variable [Recipient β μ] [Work β α μ]

/-- The interpreters that a history of traffic and calls leads to, all of which succeed, with
the completed firings of the calls, oldest first. -/
inductive Succeeds (start : Interpreter β α μ) :
    List (Event β μ) → Interpreter β α μ → Prop where
  | start : Succeeds start [] start
  | traffic {log : List (Event β μ)} {interpreter left : Interpreter β α μ}
      (before : Succeeds start log interpreter) (traffic : interpreter.Traffic left) :
      Succeeds start log left
  | call {log : List (Event β μ)} {interpreter left : Interpreter β α μ} {progress : Bool}
      (fuel : Nat) (before : Succeeds start log interpreter)
      (run : interpreter.interpret fuel = some (.ok progress, left)) :
      Succeeds start (log ++ interpreter.log fuel) left

variable {start : Interpreter β α μ}

/-- The log tells who has fired, in this order, and what has become of the graph. -/
structure Logged (start : Interpreter β α μ) (log : List (Event β μ))
    (interpreter : Interpreter β α μ) : Prop where
  journal : interpreter.journal = start.journal ++ log.map Event.id
  settled : start.graph.Settled log interpreter.graph

private theorem Logged.look {log : List (Event β μ)} {interpreter : Interpreter β α μ}
    {current : WorkerId} {waiting : List WorkerId} (logged : start.Logged log interpreter)
    (registered : ∀ workers ∈ start.graph.recipients, workers.Nodup)
    (succeeds : ∀ error left, interpreter.pullStep current waiting ≠ .stop (.error error) left) :
    start.Logged (log ++ (Look.mk (current :: waiting) interpreter).firings)
      (interpreter.pullStep current waiting).left := by
  have deeper (id : WorkerId) : id :: current :: waiting ≠ waiting := by
    intro same
    have lengths := congrArg List.length same
    rw [List.length_cons, List.length_cons] at lengths
    omega
  have view := interpreter.pullStep_view current waiting
  unfold Look.firings
  dsimp only
  generalize interpreter.pullStep current waiting = step at view succeeds
  cases view with
  | unknown absent => exact absurd rfl (succeeds _ _)
  | circular known waits => exact absurd rfl (succeeds _ _)
  | unsupported known free refused => exact absurd rfl (succeeds _ _)
  | failed ready free firing => exact absurd rfl (succeeds _ _)
  | refused ready free firing follow => exact absurd rfl (succeeds _ _)
  | stalled known free starved outside =>
      rw [List.append_nil]
      exact ⟨logged.journal, logged.settled⟩
  | feeder known free starved producer =>
      dsimp only
      rw [if_neg (deeper _), List.append_nil]
      exact logged
  | sender known free fed due =>
      dsimp only
      rw [if_neg (deeper _), List.append_nil]
      exact logged
  | @fired worker graph left ready free firing follow =>
      rcases Graph.completes_of_fire firing with ⟨event, made, rfl, completes⟩
      have counted := interpreter.delegate.afterFire_sameButCounts
        (interpreter.stats.firings + 1) graph event.id
      rw [follow] at counted
      dsimp only
      rw [if_pos rfl, made]
      constructor
      · change interpreter.journal ++ [event.id] = _
        rw [logged.journal, Option.toList_some, List.map_append, List.append_assoc]
        rfl
      · exact (logged.settled.fired registered completes).of_workers_eq counted.2.1 counted.1

private theorem Succeeds.logged {log : List (Event β μ)} {interpreter : Interpreter β α μ}
    (history : start.Succeeds log interpreter) (fresh : start.graph.Fresh)
    (registered : ∀ workers ∈ start.graph.recipients, workers.Nodup) :
    start.Logged log interpreter := by
  have kept : KeptByLooks start.Logged :=
    { counted := fun log interpreter stats logged => ⟨logged.journal, logged.settled⟩
      look := fun log interpreter current waiting logged succeeds =>
        logged.look registered succeeds }
  induction history with
  | start => exact ⟨(List.append_nil _).symm, .initial fresh⟩
  | traffic before traffic inductionHypothesis =>
      rcases traffic.withBank with ⟨bank, rfl, keys⟩
      have framed := congrArg InterpreterFrame.graph (frame_withBank keys)
      exact ⟨inductionHypothesis.journal, inductionHypothesis.settled.of_workers_eq framed rfl⟩
  | call fuel before run inductionHypothesis => exact kept.interpret inductionHypothesis run

/-- Take any history of traffic and successful calls over a graph that was built, whatever its
channels held. Its log has the firings in the order of the journal, each with the messages that
the body sent. Every one of these messages was routed to every registered recipient, and every
worker has its mail: what was due at one of its firings was received just before the work of
that firing, in the order of routing, and what is due later waits in the queue. -/
theorem messages_arrive_exactly_once [Signature β] {graph : Graph β α μ} (built : graph.Built)
    {bank : Bank α} {workers : List WorkerId} {given : List Constraint}
    (opened : Opens { graph with bank := bank } workers given start) {log : List (Event β μ)}
    {interpreter : Interpreter β α μ} (history : start.Succeeds log interpreter) :
    log.map Event.id = interpreter.journal ∧
      (∀ event ∈ log, graph.Routed event.id event.outbox) ∧
      ∀ id first last, graph.worker? id = some first → interpreter.graph.worker? id = some last →
        Delivered first last (firingsOf log id) (graph.mailOf log id) := by
  have same : start.graph = { graph with bank := bank } := opened.graph_eq
  have registered : ∀ workers ∈ start.graph.recipients, workers.Nodup := by
    rw [same]
    exact built.sound.registered
  have fresh : start.graph.Fresh := by
    rw [same]
    exact built.fresh
  have logged := history.logged fresh registered
  have settled := logged.settled
  have journal := logged.journal
  rw [opened.journal_eq, List.nil_append] at journal
  rw [same] at settled
  refine ⟨journal.symm, settled.routed, ?_⟩
  intro id first last known found
  exact (settled.workers id first last known found).2

end Interpreter

/-- Both workers of the echo graph write to the second one whenever they fire. -/
theorem Interpreter.messages_arrive_exactly_once_echo :
    ∃ pushed interpreter progress, echoInterpreter.pushAll? 0 [1, 2, 3] = some pushed ∧
      pushed.interpret 20 = some (.ok progress, interpreter) ∧
      (echoGraph.mailOf (pushed.log 20) 1).map Message.deliveryTime = [1, 2, 2, 3, 3, 4] ∧
      (pushed.log 20).map Event.id = interpreter.journal ∧
      (∀ event ∈ pushed.log 20, echoGraph.Routed event.id event.outbox) ∧
      ∀ id first last, echoGraph.worker? id = some first →
        interpreter.graph.worker? id = some last →
          Delivered first last (firingsOf (pushed.log 20) id)
            (echoGraph.mailOf (pushed.log 20) id) := by
  obtain ⟨pushed, push⟩ : ∃ pushed, echoInterpreter.pushAll? 0 [1, 2, 3] = some pushed :=
    Option.isSome_iff_exists.mp (by decide +kernel)
  have finished : ((echoInterpreter.pushAll? 0 [1, 2, 3]).bind
      (fun given => given.interpret 20)).map (fun outcome => outcome.1.isOk) = some true := by
    decide +kernel
  have mail : (echoInterpreter.pushAll? 0 [1, 2, 3]).map (fun given =>
      (echoGraph.mailOf (given.log 20) 1).map Message.deliveryTime) =
        some [1, 2, 2, 3, 3, 4] := by
    decide +kernel
  rw [push, Option.bind_some, Option.map_eq_some_iff] at finished
  rw [push, Option.map_some, Option.some_inj] at mail
  rcases finished with ⟨⟨answer, interpreter⟩, run, ended⟩
  cases answer with
  | error error => cases ended
  | ok progress =>
      exact ⟨pushed, interpreter, progress, push, run, mail,
        messages_arrive_exactly_once echoGraph_built echoInterpreter_opens
          (.call 20 (.traffic .start (.push 0 _ push)) run)⟩

end DemandFlow
