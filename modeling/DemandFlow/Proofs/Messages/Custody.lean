import DemandFlow.Proofs.Interpreter.Isolation
import DemandFlow.Proofs.Messages.Deadline
import Mathlib.Logic.Relation

/-!
Queues stay ahead. Whoever holds a graph, and whatever is done with it, every queue ascends
and waits for firings that are still to come: an insertion is refused unless it is in time, and
a firing counts only after all that was due before it has left the queue. So a delivery never
finds an overdue message, not even on a schedule that runs backwards.
-/

set_option autoImplicit false

namespace DemandFlow

variable {β α μ : Type}

theorem Worker.Timely.sendMessage {worker : Worker β μ} (timely : worker.Timely)
    (message : Message μ) : (worker.sendMessage message).2.Timely := by
  unfold Worker.sendMessage
  split
  next late => exact timely
  next inTime => exact timely.enqueue (Nat.lt_of_not_le inTime)

private theorem Worker.Timely.deliverDue_not_missed [Recipient β μ] {worker : Worker β μ}
    (timely : worker.Timely) (label : Label) (executions deliveryTime : Nat) :
    worker.deliverDue.1 ≠ .error (.missedMessage label executions deliveryTime) := by
  have view := timely.deliverDue_view
  generalize worker.deliverDue = outcome at view
  cases view with
  | delivered due later parts now beyond => exact fun same => by cases same
  | misdirected due later message parts => exact fun same => by cases same

namespace Graph

/-- Every queue of the graph is timely. -/
def Ahead (graph : Graph β α μ) : Prop :=
  ∀ id worker, graph.worker? id = some worker → worker.Timely

private theorem Fresh.ahead {graph : Graph β α μ} (fresh : graph.Fresh) : graph.Ahead :=
  fun id worker known => .of_empty (fresh id worker known).2

theorem Ahead.of_workers_eq {left right : Graph β α μ} (ahead : left.Ahead)
    (workers : right.workers = left.workers) : right.Ahead := by
  intro id worker known
  unfold worker? at known
  rw [workers] at known
  exact ahead id worker known

private theorem Ahead.routeOutbox {graph : Graph β α μ} (ahead : graph.Ahead) (sender : WorkerId)
    (sent : Nat) (outbox : List (Outgoing μ)) :
    (graph.routeOutbox sender sent outbox).2.Ahead := by
  have ended := routeOutbox_induction Ahead (fun _ (left : Graph β α μ) => left.Ahead)
    (fun left outgoing recipient leftAhead => by
      have view := left.routeTo_view sender sent outgoing recipient
      generalize left.routeTo sender sent outgoing recipient = outcome at view
      cases view with
      | undeclared absent => exact leftAhead
      | unknown absent => exact leftAhead
      | late declared known passed => exact leftAhead
      | queued declared known inTime =>
          exact forall_setWorker leftAhead ((leftAhead recipient _ known).enqueue inTime))
    (fun left portal leftAhead => leftAhead) graph outbox ahead
  generalize graph.routeOutbox sender sent outbox = outcome at ended
  obtain ⟨answer, left⟩ := outcome
  cases answer with
  | ok done => exact ended
  | error error => exact ended

/-- A firing keeps queues ahead at each of its exits. -/
theorem Ahead.fire [Recipient β μ] [Work β α μ] {graph : Graph β α μ} (ahead : graph.Ahead)
    (id : WorkerId) : (graph.fire id).2.Ahead := by
  have view := graph.fire_view id
  generalize graph.fire id = outcome at view
  cases view with
  | unknown absent => exact ahead
  | @undelivered worker left error known delivery =>
      have timely := ahead id worker known
      have delivered := timely.deliverDue_view
      rw [delivery] at delivered
      cases delivered with
      | misdirected due later message parts =>
          -- The message that fits no body is lost, so the front is one longer than what is due.
          rw [List.append_cons] at parts
          exact forall_setWorker ahead (timely.afterDelivery parts)
  | @failed worker ready error body scene known delivery run =>
      have timely := ahead id worker known
      have delivered := timely.deliverDue_view
      rw [delivery] at delivered
      cases delivered with
      | delivered due later parts now beyond =>
          have still : (worker.afterDelivery due later).Timely := timely.afterDelivery parts
          have placed : (graph.setWorker id
              { worker.afterDelivery due later with body := body }).Ahead :=
            forall_setWorker ahead ⟨still.ascending, still.ahead⟩
          exact placed.of_workers_eq rfl
  | @worked worker ready body scene _ known delivery run routing =>
      have timely := ahead id worker known
      have delivered := timely.deliverDue_view
      rw [delivery] at delivered
      cases delivered with
      | delivered due later parts now beyond =>
          have placed : (graph.setWorker id
              { worker.afterDelivery due later with
                body := body, executions := worker.executions + 1 }).Ahead :=
            forall_setWorker ahead (timely.afterDelivery_beyond parts beyond body)
          have counted : (graph.worked id (worker.afterDelivery due later) body
              scene.bank).Ahead :=
            placed.of_workers_eq rfl
          rw [← routing]
          exact counted.routeOutbox _ _ _

end Graph

namespace Interpreter

variable [Recipient β μ] [Work β α μ]

theorem PullView.ahead {interpreter : Interpreter β α μ} {current : WorkerId}
    {waiting : List WorkerId} {step : PullStep β α μ}
    (view : PullView interpreter current waiting step) (ahead : interpreter.graph.Ahead) :
    step.left.graph.Ahead := by
  have fired := ahead.fire current
  have follows {graph left : Graph β α μ} {answer : Except Error Unit}
      (graphAhead : graph.Ahead)
      (follow : interpreter.delegate.afterFire (interpreter.stats.firings + 1) graph current =
        (answer, left)) : left.Ahead := by
    have counted := interpreter.delegate.afterFire_sameButCounts
      (interpreter.stats.firings + 1) graph current
    rw [follow] at counted
    exact graphAhead.of_workers_eq counted.1
  cases view with
  | unknown absent => exact ahead
  | circular known waits => exact ahead
  | unsupported known free refused => exact ahead
  | stalled known free starved outside => exact ahead
  | feeder known free starved producer => exact ahead
  | sender known free fed due => exact ahead
  | failed ready free firing =>
      rw [firing] at fired
      exact fired
  | refused ready free firing follow =>
      rw [firing] at fired
      exact follows fired follow
  | fired ready free firing follow =>
      rw [firing] at fired
      exact follows fired follow

theorem keptByPulls_ahead (sinks : List WorkerId) :
    KeptByPulls sinks
      (fun now : Interpreter β α μ => now.sinks = sinks ∧ now.graph.Ahead)
      (fun _ now => now.graph.Ahead) := by
  have pulled (fuel : Nat) (sink : WorkerId) (now left : Interpreter β α μ)
      (answer : Except Error Bool) (ahead : now.graph.Ahead)
      (run : pullSteps fuel [sink] now = some (answer, left)) : left.graph.Ahead :=
    pullSteps_induction (fun _ now => now.graph.Ahead) (fun _ now => now.graph.Ahead)
      (fun _ ahead => ahead) (fun _ _ _ _ _ ahead view => view.ahead ahead)
      (fun _ _ _ _ _ ahead view => view.ahead ahead) run ahead
  refine
    { counted := fun now stats holds => holds
      sinks_eq := fun now holds => holds.1
      pulled := ?_
      failed := fun fuel sink now error left _ holds run =>
        pulled fuel sink now left _ holds.2 run }
  intro fuel sink now progress left _ holds run
  have same : left.sinks = now.sinks := congrArg InterpreterFrame.sinks (pullSteps_frame run)
  exact ⟨same.trans holds.1, pulled fuel sink now left _ holds.2 run⟩

private theorem interpret_ahead {fuel : Nat} {interpreter left : Interpreter β α μ}
    {answer : Except Error Bool} (ahead : interpreter.graph.Ahead)
    (run : interpreter.interpret fuel = some (answer, left)) : left.graph.Ahead := by
  have answered := (keptByPulls_ahead interpreter.sinks).interpret ⟨rfl, ahead⟩ run
  cases answer with
  | ok progress => exact answered.2
  | error error => exact answered

private theorem looks_ahead {fuel : Nat} {interpreter : Interpreter β α μ}
    (ahead : interpreter.graph.Ahead) :
    ∀ look ∈ interpreter.looks fuel, look.interpreter.graph.Ahead := by
  refine (keptByPulls_ahead interpreter.sinks).looks (fun look => look.interpreter.graph.Ahead)
    ?_ ⟨rfl, ahead⟩
  intro fuel sink _ now holds
  exact pullLooks_induction (fun _ now => now.graph.Ahead)
    (fun _ _ _ _ _ ahead view => view.ahead ahead) holds.2

end Interpreter

/-! ### Graphs in different hands -/

/-- A graph on its own, or held by an interpreter. -/
inductive Custody (β α μ : Type) where
  | loose (graph : Graph β α μ)
  | held (interpreter : Interpreter β α μ)

namespace Custody

def graph : Custody β α μ → Graph β α μ
  | .loose graph => graph
  | .held interpreter => interpreter.graph

/-- What can be done with a graph: on its own it takes messages and elements, or it is given to
an interpreter over any section; there it sees traffic and calls, until it is taken out. -/
inductive Step [Recipient β μ] [Work β α μ] : Custody β α μ → Custody β α μ → Prop where
  | send {graph : Graph β α μ} {id : WorkerId} {worker : Worker β μ}
      (known : graph.worker? id = some worker) (message : Message μ) :
      Step (.loose graph) (.loose (graph.setWorker id (worker.sendMessage message).2))
  | touch {graph : Graph β α μ} (bank : Bank α) :
      Step (.loose graph) (.loose { graph with bank := bank })
  | wrap {graph : Graph β α μ} {workers : List WorkerId} {given : List Constraint}
      {interpreter : Interpreter β α μ}
      (opened : Interpreter.Opens graph workers given interpreter) :
      Step (.loose graph) (.held interpreter)
  | traffic {interpreter left : Interpreter β α μ} (traffic : interpreter.Traffic left) :
      Step (.held interpreter) (.held left)
  | call {interpreter left : Interpreter β α μ} {answer : Except Error Bool} (fuel : Nat)
      (run : interpreter.interpret fuel = some (answer, left)) :
      Step (.held interpreter) (.held left)
  | unwrap {interpreter : Interpreter β α μ} :
      Step (.held interpreter) (.loose interpreter.graph)

variable [Recipient β μ] [Work β α μ]

private theorem Step.ahead {before after : Custody β α μ} (step : before.Step after)
    (ahead : before.graph.Ahead) : after.graph.Ahead := by
  cases step with
  | send known message =>
      exact Graph.forall_setWorker ahead ((ahead _ _ known).sendMessage message)
  | touch bank => exact ahead.of_workers_eq rfl
  | wrap opened =>
      change Graph.Ahead (Interpreter.graph _)
      rw [opened.graph_eq]
      exact ahead
  | traffic traffic =>
      obtain ⟨bank, rfl, _⟩ := traffic.withBank
      exact ahead.of_workers_eq rfl
  | call fuel run => exact Interpreter.interpret_ahead ahead run
  | unwrap => exact ahead

private theorem ahead_of_steps {before after : Custody β α μ}
    (steps : Relation.ReflTransGen Step before after) (ahead : before.graph.Ahead) :
    after.graph.Ahead := by
  induction steps with
  | refl => exact ahead
  | tail _ step inductionHypothesis => exact step.ahead inductionHypothesis

/-- What a graph is like now, and what it is like at the looks of a further call. -/
inductive Shows : Custody β α μ → Graph β α μ → Prop where
  | now {state : Custody β α μ} : Shows state state.graph
  | look {interpreter : Interpreter β α μ} (fuel : Nat) {look : Interpreter.Look β α μ}
      (member : look ∈ interpreter.looks fuel) : Shows (.held interpreter) look.interpreter.graph

end Custody

/-- In every state that a built graph can get into, alone or inside one interpreter after
another, whatever has failed on the way, and also in the middle of a call: each queue ascends,
all that waits in it is due after the completed firings of its worker, and a delivery meets
nothing overdue. -/
theorem Custody.queues_stay_ahead [Signature β] [Recipient β μ] [Work β α μ]
    {graph : Graph β α μ} (built : graph.Built) {state : Custody β α μ}
    (steps : Relation.ReflTransGen Step (.loose graph) state) {now : Graph β α μ}
    (shown : state.Shows now) :
    ∀ id worker, now.worker? id = some worker →
      worker.queue.messages.Pairwise
        (fun earlier later => earlier.deliveryTime ≤ later.deliveryTime) ∧
      (∀ message ∈ worker.queue.messages, worker.executions < message.deliveryTime) ∧
      ∀ label executions deliveryTime,
        worker.deliverDue.1 ≠ .error (.missedMessage label executions deliveryTime) := by
  have reached : state.graph.Ahead := ahead_of_steps steps built.fresh.ahead
  have ahead : now.Ahead := by
    cases shown with
    | now => exact reached
    | look fuel member => exact Interpreter.looks_ahead reached _ member
  intro id worker known
  have timely := ahead id worker known
  exact ⟨timely.ascending, timely.ahead, timely.deliverDue_not_missed⟩

def handedNotice (time : Nat) : Message Notice :=
  { portal := 0
    deliveryTime := time
    recipient := .named "Echo"
    payload := { directive := .addToRegister, value := 1 } }

/-- The echo graph is run, taken out of its interpreter, and gets two more notices by hand, the
later one first. -/
theorem Custody.queues_stay_ahead_echo : ∃ (now : Graph Body Int64 Notice) (worker : _),
    Relation.ReflTransGen Step (.loose echoGraph) (.loose now) ∧
      now.worker? 1 = some worker ∧ worker.executions = 2 ∧
      worker.queue.messages.map Message.deliveryTime = [3, 5, 9] ∧
      ∀ message ∈ worker.queue.messages, worker.executions < message.deliveryTime := by
  obtain ⟨pushed, push⟩ : ∃ pushed, echoInterpreter.pushAll? 0 [1, 2] = some pushed :=
    Option.isSome_iff_exists.mp (by decide +kernel)
  have finished : ((((echoInterpreter.pushAll? 0 [1, 2]).bind
      (fun given => given.interpret 20)).bind (fun outcome => outcome.2.graph.worker? 1)).map
        (fun worker => ((worker.sendMessage (handedNotice 9)).2.sendMessage
          (handedNotice 5)).2)).map (fun worker =>
            (worker.executions, worker.queue.messages.map Message.deliveryTime)) =
      some (2, [3, 5, 9]) := by
    decide +kernel
  rw [push, Option.bind_some, Option.map_map, Option.map_eq_some_iff] at finished
  obtain ⟨worker, found, observed⟩ := finished
  obtain ⟨⟨answer, interpreter⟩, run, known⟩ := Option.bind_eq_some_iff.mp found
  obtain ⟨executions, times⟩ := Prod.mk.inj observed
  have within : 1 < interpreter.graph.workers.length := (List.getElem?_eq_some_iff.mp known).1
  have steps : Relation.ReflTransGen Step (.loose echoGraph)
      (.loose ((interpreter.graph.setWorker 1 (worker.sendMessage (handedNotice 9)).2).setWorker 1
        ((worker.sendMessage (handedNotice 9)).2.sendMessage (handedNotice 5)).2)) :=
    Relation.ReflTransGen.refl
      |>.tail (.wrap echoInterpreter_opens)
      |>.tail (.traffic (.push 0 [1, 2] push))
      |>.tail (.call 20 run)
      |>.tail .unwrap
      |>.tail (.send known (handedNotice 9))
      |>.tail (.send (Graph.worker?_setWorker_self _ _ within) (handedNotice 5))
  have still : 1 < (interpreter.graph.setWorker 1
      (worker.sendMessage (handedNotice 9)).2).workers.length := by
    simpa only [Graph.setWorker, List.length_set] using within
  have last := Graph.worker?_setWorker_self _
    ((worker.sendMessage (handedNotice 9)).2.sendMessage (handedNotice 5)).2 still
  exact ⟨_, _, steps, last, executions, times,
    (queues_stay_ahead echoGraph_built steps .now 1 _ last).2.1⟩

namespace Custody

/-- A step that leaves the graph its shape, and after which an interpreter that holds the graph
goes by constraints of the graph. Only `touch` could do otherwise with the shape. -/
structure Lawful [Recipient β μ] [Work β α μ] (before after : Custody β α μ) : Prop where
  step : before.Step after
  frame_eq : after.graph.frame = before.graph.frame
  own : ∀ interpreter, after = .held interpreter →
    ∀ constraint ∈ interpreter.constraints, constraint ∈ interpreter.graph.constraints

variable [Recipient β μ] [Work β α μ]

private theorem lawful_wrap {graph : Graph β α μ} {workers : List WorkerId}
    {given : List Constraint} {interpreter : Interpreter β α μ}
    (opened : Interpreter.Opens graph workers given interpreter)
    (own : ∀ constraint ∈ given, constraint ∈ graph.constraints) :
    Lawful (.loose graph) (.held interpreter) := by
  have same : interpreter.graph = graph := opened.graph_eq
  refine ⟨.wrap opened, congrArg Graph.frame same, ?_⟩
  rintro _ ⟨⟩ constraint member
  rw [same]
  exact own constraint (opened.given constraint member)

private theorem Lawful.next {before : Custody β α μ} {interpreter left : Interpreter β α μ}
    (lawful : before.Lawful (.held interpreter)) (step : Step (.held interpreter) (.held left))
    (same : left.frame = interpreter.frame) : Lawful (.held interpreter) (.held left) := by
  have own := lawful.own interpreter rfl
  refine ⟨step, congrArg InterpreterFrame.graph same, ?_⟩
  rintro _ ⟨⟩ constraint member
  have constraints : left.constraints = interpreter.constraints :=
    congrArg InterpreterFrame.constraints same
  have declared : left.graph.constraints = interpreter.graph.constraints :=
    congrArg (fun frame => frame.graph.constraints) same
  rw [declared]
  exact own constraint (constraints ▸ member)

/-- The graph is on time, and a section of it that an interpreter holds is punctual. -/
structure Punctual (state : Custody β α μ) : Prop where
  sound : state.graph.frame.Sound
  schedules : ∀ constraint ∈ state.graph.constraints, constraint.schedule.Punctual
  onTime : state.graph.OnTime
  held : ∀ interpreter, state = .held interpreter → interpreter.frame.Punctual

private theorem Lawful.punctual {before after : Custody β α μ} (lawful : before.Lawful after)
    (punctual : before.Punctual) : after.Punctual := by
  have sound : after.graph.frame.Sound := by
    rw [lawful.frame_eq]
    exact punctual.sound
  have schedules : ∀ constraint ∈ after.graph.constraints, constraint.schedule.Punctual := by
    rw [show after.graph.constraints = before.graph.constraints from
      congrArg GraphFrame.constraints lawful.frame_eq]
    exact punctual.schedules
  suffices kept : after.graph.OnTime ∧
      ∀ interpreter, after = .held interpreter → interpreter.frame.Punctual from
    ⟨sound, schedules, kept.1, kept.2⟩
  have own := lawful.own
  cases lawful.step with
  | @send graph id worker known message =>
      have timely := (punctual.onTime.workers id worker known).1.sendMessage message
      have truthful := (punctual.onTime.workers id worker known).2
      constructor
      · apply punctual.onTime.setWorker known _ (worker.executions_sendMessage message) timely
        rw [worker.body_sendMessage message]
        exact truthful
      · intro interpreter held
        cases held
  | touch bank =>
      constructor
      · exact punctual.onTime.of_workers_eq rfl rfl
      · intro interpreter held
        cases held
  | wrap opened =>
      constructor
      · change Graph.OnTime (Interpreter.graph _)
        rw [opened.graph_eq]
        exact punctual.onTime
      · intro interpreter held
        cases held
        exact ⟨opened.frame_sound punctual.sound, own _ rfl, schedules⟩
  | traffic traffic =>
      have frame := traffic.frame_eq
      obtain ⟨bank, rfl, _⟩ := traffic.withBank
      constructor
      · exact punctual.onTime.of_workers_eq rfl rfl
      · intro interpreter held
        cases held
        rw [frame]
        exact punctual.held _ rfl
  | call fuel run =>
      have before := punctual.held _ rfl
      have kept := (Interpreter.interpret_onTime before ⟨rfl, punctual.onTime⟩ run).1
      constructor
      · exact kept.2
      · intro interpreter held
        cases held
        rw [kept.1]
        exact before
  | unwrap =>
      constructor
      · exact punctual.onTime
      · intro interpreter held
        cases held

private theorem punctual_of_steps {before after : Custody β α μ}
    (steps : Relation.ReflTransGen Lawful before after) (punctual : before.Punctual) :
    after.Punctual := by
  induction steps with
  | refl => exact punctual
  | tail _ step inductionHypothesis => exact step.punctual inductionHypothesis

end Custody

/-- No call of an interpreter ever answers that a message was missed: not over a graph that was
built, whatever hands it has gone through since, in a section with constraints taken from the
graph, on schedules that never run backwards and start after nothing, whatever truthful bodies
send, and whatever earlier calls have answered. Every positive latency is such a schedule. -/
theorem Interpreter.interpret_never_misses [Signature β] [Recipient β μ] [Work β α μ]
    {graph : Graph β α μ} (built : graph.Built)
    (schedules : ∀ constraint ∈ graph.constraints, constraint.schedule.Punctual)
    (truthful : ∀ id worker, graph.worker? id = some worker → Truthful α μ worker.body)
    {interpreter left : Interpreter β α μ}
    (steps : Relation.ReflTransGen Custody.Lawful (.loose graph) (.held interpreter))
    {fuel : Nat} {answer : Except Error Bool}
    (run : interpreter.interpret fuel = some (answer, left)) :
    (∀ label executions deliveryTime,
        answer ≠ .error (.missedMessage label executions deliveryTime)) ∧
      ∀ firings : Int, 1 ≤ firings → (DeliverySchedule.latency firings).Punctual := by
  have start : (Custody.loose graph).Punctual :=
    { sound := built.sound
      schedules := schedules
      onTime := built.fresh.onTime schedules truthful
      held := fun interpreter held => by cases held }
  have reached := Custody.punctual_of_steps steps start
  have honest := (interpret_onTime (reached.held interpreter rfl) ⟨rfl, reached.onTime⟩ run).2
  refine ⟨?_, fun firings positive => DeliverySchedule.punctual_latency positive⟩
  intro label executions deliveryTime same
  exact honest _ same ⟨label, executions, deliveryTime, rfl⟩

/-- The echo graph is run, taken out, and run again in another interpreter. -/
theorem Interpreter.interpret_never_misses_echo :
    ∃ fed first ran again fuller answer left,
      echoInterpreter.pushAll? 0 [1, 2] = some fed ∧ fed.interpret 20 = some (first, ran) ∧
      (forGraph ran.graph).toOption = some again ∧ again.pushAll? 0 [3] = some fuller ∧
      fuller.interpret 20 = some (answer, left) ∧
      (left.graph.bank.channel 2).items = [1, 2, 3] ∧
      ∀ label executions deliveryTime,
        answer ≠ .error (.missedMessage label executions deliveryTime) := by
  have finished : ((((echoInterpreter.pushAll? 0 [1, 2]).bind
      (fun fed => fed.interpret 20)).bind (fun outcome => (forGraph outcome.2.graph).toOption)).bind
        (fun again => again.pushAll? 0 [3])).bind (fun fuller => (fuller.interpret 20).map
          (fun outcome => (outcome.2.graph.bank.channel 2).items)) = some [1, 2, 3] := by
    decide +kernel
  simp only [Option.bind_assoc, Option.bind_eq_some_iff, Option.map_eq_some_iff] at finished
  obtain ⟨fed, push, ⟨first, ran⟩, run, again, opened, fuller, more, ⟨answer, left⟩, rerun,
    items⟩ := finished
  refine ⟨fed, first, ran, again, fuller, answer, left, push, run, opened, more, rerun, items, ?_⟩
  have reopens : Opens ran.graph ran.graph.workerIds ran.graph.constraints again := by
    cases made : forGraph ran.graph with
    | error error =>
        rw [made] at opened
        cases opened
    | ok other =>
        rw [made] at opened
        cases opened
        exact ⟨again, _, _, made, rfl⟩
  have wrapped := Custody.lawful_wrap echoInterpreter_opens fun _ member => member
  have traffic : echoInterpreter.Traffic fed := .push 0 [1, 2] push
  have pushed := wrapped.next (.traffic traffic) traffic.frame_eq
  have called := pushed.next (.call 20 run) (interpret_frame run)
  have rewrapped := Custody.lawful_wrap reopens fun _ member => member
  have moreTraffic : again.Traffic fuller := .push 0 [3] more
  have steps : Relation.ReflTransGen Custody.Lawful (.loose echoGraph) (.held fuller) :=
    Relation.ReflTransGen.refl
      |>.tail wrapped
      |>.tail pushed
      |>.tail called
      |>.tail ⟨.unwrap, rfl, fun _ held => by cases held⟩
      |>.tail rewrapped
      |>.tail (rewrapped.next (.traffic moreTraffic) moreTraffic.frame_eq)
  exact (interpret_never_misses echoGraph_built echoGraph_punctual echoGraph_truthful steps
    rerun).1

end DemandFlow
