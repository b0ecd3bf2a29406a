import DemandFlow.Proofs.Interpreter.Run
import DemandFlow.Proofs.Messages.Routing
import DemandFlow.Work.Body

/-!
Deadlines are met. If schedules never run backwards and never ask for a delivery before the
first firing, then the next message on every route is always due after the firings its
recipient has completed, so no call ever finds a message too late.
-/

set_option autoImplicit false

namespace DemandFlow

variable {β α μ : Type}

structure DeliverySchedule.Punctual (schedule : DeliverySchedule) : Prop where
  monotone : ∀ earlier later, earlier ≤ later →
    schedule.deliveryTime earlier ≤ schedule.deliveryTime later
  first : 1 ≤ schedule.deliveryTime 0

theorem DeliverySchedule.punctual_latency {firings : Int} (positive : 1 ≤ firings) :
    (DeliverySchedule.latency firings).Punctual := by
  constructor
  · intro earlier later ordered
    unfold deliveryTime saturate
    dsimp only
    omega
  · unfold deliveryTime saturate maxCount
    dsimp only
    omega

def Error.Missed (error : Error) : Prop :=
  ∃ label executions deliveryTime, error = .missedMessage label executions deliveryTime

/-- The failure is about a message: it comes too late, or nobody can take it. -/
def Error.Postal (error : Error) : Prop :=
  error.Missed ∨ ∃ fault, error = .messageDelivery fault

theorem Error.not_postal {error : Error}
    (missed : ∀ label executions deliveryTime,
      error ≠ .missedMessage label executions deliveryTime)
    (lost : ∀ fault, error ≠ .messageDelivery fault) : ¬ error.Postal := by
  intro postal
  cases postal with
  | inl late =>
      rcases late with ⟨label, executions, deliveryTime, same⟩
      exact missed label executions deliveryTime same
  | inr stray =>
      rcases stray with ⟨fault, same⟩
      exact lost fault same

section

variable [Recipient β μ] [Work β α μ]

/-- Bodies of a kind that no notice and no work leads out of, and none of which makes up a
missed message. -/
structure Truthfulness (α : Type) (μ : Type) [Recipient β μ] [Work β α μ] (kind : β → Prop) :
    Prop where
  received : ∀ body (payload : μ), kind body → kind (Recipient.receive body payload)
  worked : ∀ body firing id inputs outputs (scene : Routine.Scene α μ), kind body →
    kind ((Work.work body firing).run id inputs outputs scene).1.2
  honest : ∀ body firing id inputs outputs (scene : Routine.Scene α μ) error, kind body →
    ((Work.work body firing).run id inputs outputs scene).1.1 = .error error → ¬ error.Missed

/-- Whatever it receives and however often it works, the work of the body never itself
answers that a message was missed. -/
def Truthful (α : Type) (μ : Type) [Recipient β μ] [Work β α μ] (body : β) : Prop :=
  ∃ kind : β → Prop, kind body ∧ Truthfulness α μ kind

private theorem Truthful.receiveAll {body : β} (truthful : Truthful α μ body)
    (messages : List (Message μ)) : Truthful α μ (Worker.receiveAll body messages) := by
  obtain ⟨kind, member, closed⟩ := truthful
  refine ⟨kind, ?_, closed⟩
  unfold Worker.receiveAll
  induction messages generalizing body with
  | nil => exact member
  | cons message rest inductionHypothesis =>
      exact inductionHypothesis (closed.received body message.payload member)

private theorem Truthful.runBody {graph : Graph β α μ} {id : WorkerId} {ready : Worker β μ}
    (truthful : Truthful α μ ready.body) {answer : Except Error Unit} {body : β}
    {scene : Routine.Scene α μ} (run : graph.runBody id ready = ((answer, body), scene)) :
    Truthful α μ body ∧ ∀ error, answer = .error error → ¬ error.Missed := by
  obtain ⟨kind, member, closed⟩ := truthful
  have next := closed.worked ready.body
    { worker := id, executions := ready.executions, shape := ready.shape } id ready.inputs
    ready.outputs { bank := graph.bank } member
  have honest := fun error => closed.honest ready.body
    { worker := id, executions := ready.executions, shape := ready.shape } id ready.inputs
    ready.outputs { bank := graph.bank } error member
  unfold Graph.runBody at run
  rw [run] at next honest
  exact ⟨⟨kind, next, closed⟩, honest⟩

end

/-! ### Graphs on time -/

namespace Graph

section

variable [Recipient β μ] [Work β α μ]

/-- Queues are timely, bodies truthful, and what is next on every route is due after the
firings its recipient has completed. -/
structure OnTime (graph : Graph β α μ) : Prop where
  workers : ∀ id worker, graph.worker? id = some worker →
    worker.Timely ∧ Truthful α μ worker.body
  ahead : ∀ constraint ∈ graph.constraints, ∀ sent received,
    graph.executions? constraint.sender = some sent →
    graph.executions? constraint.recipient = some received →
    received < constraint.deliveryTime sent

theorem OnTime.setWorker {graph : Graph β α μ} (onTime : graph.OnTime) {id : WorkerId}
    {old : Worker β μ} (known : graph.worker? id = some old) (new : Worker β μ)
    (same : new.executions = old.executions) (timely : new.Timely)
    (truthful : Truthful α μ new.body) : (graph.setWorker id new).OnTime := by
  constructor
  · exact forall_setWorker onTime.workers ⟨timely, truthful⟩
  · intro constraint member sent received sender recipient
    rw [executions?_setWorker known new same] at sender recipient
    exact onTime.ahead constraint member sent received sender recipient

theorem OnTime.of_workers_eq {left right : Graph β α μ} (onTime : left.OnTime)
    (workers : right.workers = left.workers) (constraints : right.constraints = left.constraints) :
    right.OnTime := by
  have same (id : WorkerId) : right.worker? id = left.worker? id := by
    unfold worker?
    rw [workers]
  have counts (id : WorkerId) : right.executions? id = left.executions? id := by
    unfold executions?
    rw [same]
  constructor
  · intro id worker known
    rw [same] at known
    exact onTime.workers id worker known
  · intro constraint member sent received sender recipient
    rw [counts] at sender recipient
    rw [constraints] at member
    exact onTime.ahead constraint member sent received sender recipient

/-- What a worker sends with `sent` firings completed still reaches every recipient. -/
def Reaches (graph : Graph β α μ) (sender : WorkerId) (sent : Nat) : Prop :=
  ∀ constraint ∈ graph.constraints, constraint.sender = sender →
    ∀ received, graph.executions? constraint.recipient = some received →
      received < constraint.deliveryTime sent

private theorem routeTo_onTime {graph : Graph β α μ} {sender : WorkerId} {sent : Nat}
    (onTime : graph.OnTime) (reaches : graph.Reaches sender sent) (outgoing : Outgoing μ)
    (recipient : WorkerId) :
    Ended (fun left => left.OnTime ∧ left.Reaches sender sent)
      (fun error left => left.OnTime ∧ ¬ error.Missed)
      (graph.routeTo sender sent outgoing recipient) := by
  have view := graph.routeTo_view sender sent outgoing recipient
  generalize graph.routeTo sender sent outgoing recipient = outcome at view
  cases view with
  | undeclared absent => exact ⟨onTime, fun ⟨_, _, _, same⟩ => by cases same⟩
  | unknown absent => exact ⟨onTime, fun ⟨_, _, _, same⟩ => by cases same⟩
  | @late constraint worker declared known passed =>
      obtain ⟨member, route⟩ := constraintFor?_eq_some declared
      have sender_eq : constraint.sender = sender := congrArg Route.sender route
      have recipient_eq : constraint.recipient = recipient := congrArg Route.recipient route
      have inTime := reaches constraint member sender_eq worker.executions
        (by rw [recipient_eq]; exact executions?_of_known known)
      omega
  | @queued constraint worker declared known inTime =>
      obtain ⟨timely, truthful⟩ := onTime.workers recipient worker known
      refine ⟨onTime.setWorker known _ rfl (timely.enqueue inTime) truthful, ?_⟩
      intro other member same received count
      rw [executions?_setWorker known (worker.enqueue _) rfl] at count
      exact reaches other member same received count

private theorem routeOutbox_onTime {graph : Graph β α μ} {sender : WorkerId} {sent : Nat}
    (onTime : graph.OnTime) (reaches : graph.Reaches sender sent)
    (outbox : List (Outgoing μ)) :
    (graph.routeOutbox sender sent outbox).2.OnTime ∧
      ∀ error, (graph.routeOutbox sender sent outbox).1 = .error error → ¬ error.Missed := by
  have ended := routeOutbox_induction
    (fun left : Graph β α μ => left.OnTime ∧ left.Reaches sender sent)
    (fun error left => left.OnTime ∧ ¬ error.Missed)
    (fun left outgoing recipient both => routeTo_onTime both.1 both.2 outgoing recipient)
    (fun left portal both => ⟨both.1, fun ⟨_, _, _, same⟩ => by cases same⟩)
    graph outbox ⟨onTime, reaches⟩
  generalize graph.routeOutbox sender sent outbox = outcome at ended
  obtain ⟨answer, left⟩ := outcome
  cases answer with
  | ok done => exact ⟨ended.1, fun error same => by cases same⟩
  | error error => exact ⟨ended.1, fun other same => by cases same; exact ended.2⟩

def Clear (graph : Graph β α μ) (worker : Worker β μ) (id : WorkerId) : Prop :=
  ∀ constraint ∈ graph.constraints, constraint.recipient = id →
    ∀ sent, graph.executions? constraint.sender = some sent →
      worker.upcoming < constraint.deliveryTime sent

/-- A clear worker completes a firing on time, whoever is at the other end of its routes:
somebody else, or the worker itself. -/
theorem OnTime.worked {graph : Graph β α μ} (onTime : graph.OnTime)
    (schedules : ∀ constraint ∈ graph.constraints, constraint.schedule.Punctual)
    {id : WorkerId} {worker ready : Worker β μ} (known : graph.worker? id = some worker)
    (clear : graph.Clear worker id) (count : ready.executions = worker.executions) {body : β}
    (timely : { ready with body := body, executions := ready.executions + 1 }.Timely)
    (truthful : Truthful α μ body) (bank : Bank α) :
    (graph.worked id ready body bank).OnTime ∧
      (graph.worked id ready body bank).Reaches id ready.executions := by
  have here : (graph.worked id ready body bank).executions? id = some worker.upcoming := by
    have counted : (graph.worked id ready body bank).executions? id =
        some (ready.executions + 1) :=
      executions?_setWorker_self known _
    rw [counted, count]
    rfl
  have elsewhere (other : WorkerId) (different : other ≠ id) :
      (graph.worked id ready body bank).executions? other = graph.executions? other :=
    executions?_setWorker_of_ne graph _ different
  have before := executions?_of_known known
  have reaches : (graph.worked id ready body bank).Reaches id ready.executions := by
    intro constraint member sender received recipient
    rw [count]
    by_cases self : constraint.recipient = id
    · rw [self, here] at recipient
      cases recipient
      exact clear constraint member self worker.executions (by rw [sender]; exact before)
    · rw [elsewhere _ self] at recipient
      exact onTime.ahead constraint member worker.executions received
        (by rw [sender]; exact before) recipient
  refine ⟨⟨?_, ?_⟩, reaches⟩
  · intro other found place
    exact forall_setWorker onTime.workers ⟨timely, truthful⟩ other found place
  · intro constraint member sent received sender recipient
    by_cases sends : constraint.sender = id
    · rw [sends, here] at sender
      cases sender
      have inTime := reaches constraint member sends received recipient
      rw [count] at inTime
      exact Nat.lt_of_lt_of_le inTime
        ((schedules constraint member).monotone _ _ (Nat.le_succ _))
    · rw [elsewhere _ sends] at sender
      by_cases receives : constraint.recipient = id
      · rw [receives, here] at recipient
        cases recipient
        exact clear constraint member receives sent sender
      · rw [elsewhere _ receives] at recipient
        exact onTime.ahead constraint member sent received sender recipient

/-- A firing of a clear worker keeps the graph on time, also when it fails, and does not fail
for a missed message. -/
theorem OnTime.fire {graph : Graph β α μ} (onTime : graph.OnTime)
    (schedules : ∀ constraint ∈ graph.constraints, constraint.schedule.Punctual)
    {id : WorkerId} (clear : ∀ worker, graph.worker? id = some worker → graph.Clear worker id) :
    (graph.fire id).2.OnTime ∧
      ∀ error, (graph.fire id).1 = .error error → ¬ error.Missed := by
  have view := graph.fire_view id
  generalize graph.fire id = outcome at view
  cases view with
  | unknown absent =>
      exact ⟨onTime, fun error same => by cases same; exact fun ⟨_, _, _, other⟩ => by cases other⟩
  | @undelivered worker left error known delivery =>
      obtain ⟨timely, truthful⟩ := onTime.workers id worker known
      have delivered := timely.deliverDue_view
      rw [delivery] at delivered
      cases delivered with
      | misdirected due later message parts =>
          constructor
          · refine onTime.setWorker known _ rfl ?_ (truthful.receiveAll due)
            rw [List.append_cons] at parts
            exact timely.afterDelivery parts
          · intro other same
            cases same
            exact fun ⟨_, _, _, impossible⟩ => by cases impossible
  | @failed worker ready error body scene known delivery run =>
      obtain ⟨timely, truthful⟩ := onTime.workers id worker known
      have delivered := timely.deliverDue_view
      rw [delivery] at delivered
      cases delivered with
      | delivered due later parts now beyond =>
          obtain ⟨nextTruthful, honest⟩ := (truthful.receiveAll due).runBody run
          constructor
          · have still : (worker.afterDelivery due later).Timely := timely.afterDelivery parts
            have placed := onTime.setWorker known
              { worker.afterDelivery due later with body := body } rfl
              ⟨still.ascending, still.ahead⟩ nextTruthful
            exact placed.of_workers_eq rfl rfl
          · intro other same
            cases same
            exact honest error rfl
  | @worked worker ready body scene _ known delivery run routing =>
      obtain ⟨timely, truthful⟩ := onTime.workers id worker known
      have delivered := timely.deliverDue_view
      rw [delivery] at delivered
      cases delivered with
      | delivered due later parts now beyond =>
          obtain ⟨nextTruthful, _⟩ := (truthful.receiveAll due).runBody run
          obtain ⟨workedOnTime, reaches⟩ := onTime.worked schedules known (clear worker known)
            (rfl : (worker.afterDelivery due later).executions = worker.executions)
            (timely.afterDelivery_beyond parts beyond body) nextTruthful scene.bank
          have routed := routeOutbox_onTime workedOnTime reaches scene.outbox
          rw [routing] at routed
          exact routed

end

theorem checkRate_not_postal {worker : Label} {port : Nat} {kind : RateKind} {declared : Rate}
    {observed : Nat} {error : Error}
    (failed : checkRate worker port kind declared observed = .error error) : ¬ error.Postal := by
  unfold checkRate at failed
  split at failed
  · cases failed
  · cases failed
    exact Error.not_postal nofun nofun

theorem auditStats_not_postal {graph : Graph β α μ} {worker : Label} {channel : ChannelId}
    {error : Error} (failed : graph.auditStats worker channel = .error error) :
    ¬ error.Postal := by
  unfold auditStats at failed
  split at failed
  · cases failed
    exact Error.not_postal nofun nofun
  · cases failed

private theorem auditInputs_not_postal {graph : Graph β α μ} {worker : Label} {port : Nat}
    {inputs : List (ChannelId × Rate × Rate)} {error : Error}
    (failed : (graph.auditInputs worker port inputs).1 = .error error) : ¬ error.Postal := by
  induction inputs generalizing graph port with
  | nil => cases failed
  | cons input rest inductionHypothesis =>
      obtain ⟨channel, peek, pop⟩ := input
      unfold auditInputs checkInput at failed
      cases counts : graph.auditStats worker channel with
      | error other =>
          rw [counts] at failed
          cases failed
          exact auditStats_not_postal counts
      | ok stats =>
          rw [counts] at failed
          dsimp only at failed
          cases peeked : checkRate worker port .peek peek stats.peekExtent with
          | error other =>
              rw [peeked] at failed
              cases failed
              exact checkRate_not_postal peeked
          | ok done =>
              rw [peeked] at failed
              dsimp only at failed
              cases popped : checkRate worker port .pop pop stats.popCount with
              | error other =>
                  rw [popped] at failed
                  cases failed
                  exact checkRate_not_postal popped
              | ok done =>
                  rw [popped] at failed
                  exact inductionHypothesis failed

private theorem auditOutputs_not_postal {graph : Graph β α μ} {worker : Label} {port : Nat}
    {outputs : List (ChannelId × Rate)} {error : Error}
    (failed : (graph.auditOutputs worker port outputs).1 = .error error) : ¬ error.Postal := by
  induction outputs generalizing graph port with
  | nil => cases failed
  | cons output rest inductionHypothesis =>
      obtain ⟨channel, push⟩ := output
      unfold auditOutputs checkOutput at failed
      cases counts : graph.auditStats worker channel with
      | error other =>
          rw [counts] at failed
          cases failed
          exact auditStats_not_postal counts
      | ok stats =>
          rw [counts] at failed
          dsimp only at failed
          cases pushed : checkRate worker port .push push stats.pushCount with
          | error other =>
              rw [pushed] at failed
              cases failed
              exact checkRate_not_postal pushed
          | ok done =>
              rw [pushed] at failed
              exact inductionHypothesis failed

private theorem audit_not_postal {graph : Graph β α μ} {id : WorkerId} {error : Error}
    (failed : (graph.audit id).1 = .error error) : ¬ error.Postal := by
  unfold audit at failed
  split at failed
  next =>
    cases failed
    exact Error.not_postal nofun nofun
  next worker known =>
    dsimp only at failed
    split at failed
    next other left audited =>
      cases failed
      exact auditInputs_not_postal (congrArg Prod.fst audited)
    next left audited => exact auditOutputs_not_postal failed

end Graph

theorem Delegate.afterFire_not_postal {delegate : Delegate} {number : Nat}
    {graph left : Graph β α μ} {worker : WorkerId} {error : Error}
    (failed : delegate.afterFire number graph worker = (.error error, left)) :
    ¬ error.Postal := by
  unfold afterFire at failed
  dsimp only at failed
  split at failed
  next other answer =>
    cases failed
    by_cases audits : delegate.audits = true
    · rw [if_pos audits] at answer
      exact Graph.audit_not_postal answer
    · rw [if_neg audits] at answer
      cases answer
  next =>
    split at failed
    · cases failed
      exact Error.not_postal nofun nofun
    · cases failed

theorem Worker.starvedFrom_not_postal {worker : Worker β μ} {bank : Bank α} {input : Nat}
    {ports : List (Port × Rate × Rate)} {error : Error}
    (failed : worker.starvedFrom bank input ports = .error error) : ¬ error.Postal := by
  induction ports generalizing input with
  | nil => cases failed
  | cons entry rest inductionHypothesis =>
      obtain ⟨port, peek, pop⟩ := entry
      unfold starvedFrom at failed
      split at failed
      next =>
        cases failed
        exact Error.not_postal nofun nofun
      next =>
        split at failed
        next => cases failed
        next => exact inductionHypothesis failed

structure InterpreterFrame.Punctual (frame : InterpreterFrame) : Prop where
  sound : frame.Sound
  own : ∀ constraint ∈ frame.constraints, constraint ∈ frame.graph.constraints
  schedules : ∀ constraint ∈ frame.graph.constraints, constraint.schedule.Punctual

namespace Interpreter

/-- What is ready in the section is clear: the section schedules every constraint of the
graph that has its recipient there. -/
theorem Ready.clear {interpreter : Interpreter β α μ} (sound : interpreter.frame.Sound)
    (own : ∀ constraint ∈ interpreter.constraints, constraint ∈ interpreter.graph.constraints)
    {current : WorkerId} {worker : Worker β μ} (ready : interpreter.Ready current worker)
    (inside : current ∈ interpreter.members) : interpreter.graph.Clear worker current := by
  intro constraint declared recipient sent sender
  obtain ⟨given, scheduled, route⟩ := sound.scheduled constraint declared
    (by rw [recipient]; exact inside)
  have same : given = constraint :=
    sound.graph.constraint_unique (own given scheduled) declared route
  subst same
  have notDue := dueSender?_eq_none ready.punctual given scheduled recipient
  by_cases late : given.deliveryTime sent ≤ worker.upcoming
  · rw [isDue_eq_true.mpr ⟨sent, sender, late⟩] at notDue
    cases notDue
  · exact Nat.lt_of_not_le late

section

variable [Recipient β μ] [Work β α μ]

/-- One look at the top of a stack inside the section keeps the graph on time. -/
theorem PullView.onTime {interpreter : Interpreter β α μ} {current : WorkerId}
    {waiting : List WorkerId} {step : PullStep β α μ}
    (view : PullView interpreter current waiting step) (punctual : interpreter.frame.Punctual)
    (onTime : interpreter.graph.OnTime) (inside : current ∈ interpreter.members) :
    step.left.graph.OnTime ∧
      ∀ error left, step = .stop (.error error) left → ¬ error.Missed := by
  have fires {worker : Worker β μ} (ready : interpreter.Ready current worker) :=
    onTime.fire punctual.schedules (fun other known => by
      rw [ready.known] at known
      cases known
      exact ready.clear punctual.sound punctual.own inside)
  have follows {graph left : Graph β α μ} {answer : Except Error Unit} (kept : graph.OnTime)
      (follow : interpreter.delegate.afterFire (interpreter.stats.firings + 1) graph current =
        (answer, left)) : left.OnTime := by
    have counted := interpreter.delegate.afterFire_sameButCounts
      (interpreter.stats.firings + 1) graph current
    rw [follow] at counted
    exact kept.of_workers_eq counted.1 (congrArg GraphFrame.constraints counted.2.1)
  cases view with
  | unknown absent =>
      refine ⟨onTime, fun error left same => ?_⟩
      cases same
      exact fun ⟨_, _, _, other⟩ => by cases other
  | circular known waits =>
      refine ⟨onTime, fun error left same => ?_⟩
      cases same
      exact fun ⟨_, _, _, other⟩ => by cases other
  | unsupported known free refused =>
      refine ⟨onTime, fun error left same => ?_⟩
      cases same
      exact fun late => Worker.starvedFrom_not_postal refused (.inl late)
  | stalled known free starved outside =>
      exact ⟨onTime, fun error left same => by cases same⟩
  | feeder known free starved producer =>
      exact ⟨onTime, fun error left same => by cases same⟩
  | sender known free fed due =>
      exact ⟨onTime, fun error left same => by cases same⟩
  | @failed worker error graph ready free firing =>
      have kept := fires ready
      rw [firing] at kept
      refine ⟨kept.1, fun other left same => ?_⟩
      cases same
      exact kept.2 error rfl
  | refused ready free firing follow =>
      have kept := fires ready
      rw [firing] at kept
      refine ⟨follows kept.1 follow, fun other left same => ?_⟩
      cases same
      exact fun late => Delegate.afterFire_not_postal follow (.inl late)
  | fired ready free firing follow =>
      have kept := fires ready
      rw [firing] at kept
      exact ⟨follows kept.1 follow, fun other left same => by cases same⟩

/-- What holds of an interpreter between the pulls of a call. -/
def OnTimeIn (frame : InterpreterFrame) (interpreter : Interpreter β α μ) : Prop :=
  interpreter.frame = frame ∧ interpreter.graph.OnTime

private theorem pullSteps_onTime {frame : InterpreterFrame} (punctual : frame.Punctual) {fuel : Nat}
    {stack : List WorkerId} {interpreter left : Interpreter β α μ}
    {answer : Except Error Bool} (members : ∀ id ∈ stack, id ∈ frame.members)
    (start : interpreter.OnTimeIn frame)
    (run : pullSteps fuel stack interpreter = some (answer, left)) :
    left.OnTimeIn frame ∧ ∀ error, answer = .error error → ¬ error.Missed := by
  refine pullSteps_induction
    (fun stack interpreter => interpreter.OnTimeIn frame ∧ ∀ id ∈ stack, id ∈ frame.members)
    (fun answer left => left.OnTimeIn frame ∧ ∀ error, answer = .error error → ¬ error.Missed)
    ?_ ?_ ?_ run ⟨start, members⟩
  · intro interpreter holds
    exact ⟨holds.1, fun error same => by cases same⟩
  · rintro interpreter current waiting answer left ⟨⟨rfl, onTime⟩, members⟩ view
    obtain ⟨kept, honest⟩ := view.onTime punctual onTime (members current (List.mem_cons_self ..))
    exact ⟨⟨view.frame_left, kept⟩, fun error same => honest error left (by rw [same])⟩
  · rintro interpreter current waiting stack left ⟨⟨rfl, onTime⟩, members⟩ view
    obtain ⟨kept, _⟩ := view.onTime punctual onTime (members current (List.mem_cons_self ..))
    exact ⟨⟨view.frame_left, kept⟩, view.inside punctual.sound members⟩

private theorem keptByPulls_onTime {frame : InterpreterFrame} (punctual : frame.Punctual) :
    KeptByPulls frame.sinks (fun interpreter : Interpreter β α μ => interpreter.OnTimeIn frame)
      (fun error left => left.OnTimeIn frame ∧ ¬ error.Missed) := by
  have alone {sink : WorkerId} (member : sink ∈ frame.sinks) :
      ∀ id ∈ [sink], id ∈ frame.members := by
    intro id found
    rw [List.mem_singleton] at found
    subst found
    exact punctual.sound.sinks id member
  refine
    { counted := fun interpreter stats holds => holds
      sinks_eq := ?_
      pulled := ?_
      failed := ?_ }
  · rintro interpreter ⟨rfl, _⟩
    rfl
  · intro fuel sink interpreter progress left member holds run
    exact (pullSteps_onTime punctual (alone member) holds run).1
  · intro fuel sink interpreter error left member holds run
    obtain ⟨kept, honest⟩ := pullSteps_onTime punctual (alone member) holds run
    exact ⟨kept, honest error rfl⟩

theorem interpret_onTime {frame : InterpreterFrame} (punctual : frame.Punctual) {fuel : Nat}
    {interpreter left : Interpreter β α μ} {answer : Except Error Bool}
    (start : interpreter.OnTimeIn frame)
    (run : interpreter.interpret fuel = some (answer, left)) :
    left.OnTimeIn frame ∧ ∀ error, answer = .error error → ¬ error.Missed := by
  have answered := (keptByPulls_onTime punctual).interpret start run
  cases answer with
  | ok progress => exact ⟨answered, fun error same => by cases same⟩
  | error error =>
      refine ⟨answered.1, fun other same => ?_⟩
      cases same
      exact answered.2

end

end Interpreter

theorem Graph.Fresh.onTime [Recipient β μ] [Work β α μ] {graph : Graph β α μ}
    (fresh : graph.Fresh)
    (schedules : ∀ constraint ∈ graph.constraints, constraint.schedule.Punctual)
    (truthful : ∀ id worker, graph.worker? id = some worker → Truthful α μ worker.body) :
    graph.OnTime := by
  have zero (id : WorkerId) (count : Nat) (found : graph.executions? id = some count) :
      count = 0 := by
    obtain ⟨worker, known, rfl⟩ := Option.map_eq_some_iff.mp found
    exact (fresh id worker known).1
  constructor
  · intro id worker known
    exact ⟨.of_empty (fresh id worker known).2, truthful id worker known⟩
  · intro constraint member sent received sender recipient
    rw [zero _ _ sender, zero _ _ recipient]
    exact (schedules constraint member).first

/-! ### Two workers in a row, both of which message the second -/

def echoScript : Script :=
  .step (.pop 0) (.step .dup
    (.step (.send { id := 0, recipient := .named "Echo" } .addToRegister)
      (.step (.push 0) .finish)))

def echoBody (memory : Memory) : Body :=
  .scripted
    { typeName := "Echo"
      peek := .listed [.exact 0]
      pop := .listed [.exact 1]
      push := .listed [.exact 1]
      script := echoScript
      memory := memory }

def echoBuilder : Builder Body Int64 :=
  let builder := (Builder.addWorker {} .filter ⟨"near", echoBody {}⟩).2
  let builder := (builder.addWorker .filter ⟨"far", echoBody {}⟩).2
  let builder := (builder.connect 0 1).2
  let builder := (builder.addPortal (.named "Echo")).2
  let builder := (builder.register { id := 0, recipient := .named "Echo" } 1).2
  let builder := (builder.addConstraint ⟨⟨0, 1, 0⟩, .latency 1⟩).2
  (builder.addConstraint ⟨⟨1, 1, 0⟩, .latency 2⟩).2

def echoGraph : Graph Body Int64 Notice := echoBuilder.graph

def echoInterpreter : Interpreter Body Int64 Notice :=
  .onSection echoGraph echoGraph.workerIds echoGraph.constraints

theorem echoGraph_built : echoGraph.Built :=
  ⟨echoBuilder,
    .addConstraint _ (.addConstraint _ (.register _ _ (.addPortal _ (.connect _ _
      (.addWorker _ _ (.addWorker _ _ (.fresh _))))))), rfl⟩

theorem echoInterpreter_opens :
    Interpreter.Opens echoGraph echoGraph.workerIds echoGraph.constraints echoInterpreter :=
  ⟨echoInterpreter, _, _, rfl, rfl⟩

theorem echoGraph_punctual :
    ∀ constraint ∈ echoGraph.constraints, constraint.schedule.Punctual := by
  intro constraint member
  change constraint ∈ [(⟨⟨0, 1, 0⟩, .latency 1⟩ : Constraint), ⟨⟨1, 1, 0⟩, .latency 2⟩] at member
  rw [List.mem_cons, List.mem_singleton] at member
  rcases member with rfl | rfl
  · exact DeliverySchedule.punctual_latency (by decide)
  · exact DeliverySchedule.punctual_latency (by decide)

private theorem Bank.pop_error {bank left : Bank α} {id : ChannelId} {error : Error}
    (failed : bank.pop id = (.error error, left)) : error = .emptyChannel := by
  unfold Bank.pop Channel.pop at failed
  cases popped : (bank.channel id).pop? with
  | none =>
      rw [popped] at failed
      cases failed
      rfl
  | some parts =>
      rw [popped] at failed
      cases failed

private theorem echoBody_truthful (memory : Memory) : Truthful Int64 Notice (echoBody memory) := by
  refine ⟨fun body => ∃ memory, body = echoBody memory, ⟨memory, rfl⟩, ?_, ?_, ?_⟩
  · rintro _ payload ⟨memory, rfl⟩
    exact ⟨memory.receive payload, rfl⟩
  · rintro _ firing id inputs outputs scene ⟨memory, rfl⟩
    refine ⟨((echoScript.run firing { memory := memory }).run id inputs outputs
      scene).1.2.memory, ?_⟩
    simp only [Work.work, Body.work, echoBody, Routine.run_bind, Routine.run]
  · rintro _ firing id inputs outputs scene error ⟨memory, rfl⟩ failed ⟨_, _, _, rfl⟩
    simp only [Work.work, Body.work, echoBody, echoScript, Script.run, Script.onSuccess,
      Routine.run_bind, Instruction.run, Routine.run] at failed
    cases input : inputs[0]? with
    | none =>
        simp only [input, Instruction.putAnswer, Routine.run, Except.error.injEq,
          reduceCtorEq] at failed
    | some port =>
        cases popped : scene.bank.pop port.channel with
        | mk answer bank =>
            cases answer with
            | error other =>
                have empty := Bank.pop_error popped
                subst empty
                simp [Instruction.putAnswer, Routine.run, input, popped] at failed
            | ok element =>
                cases output : outputs[0]? <;>
                  simp [Instruction.putAnswer, Routine.bind, Routine.run, Machine.put, Machine.take,
                    input, output, popped] at failed

theorem echoGraph_truthful :
    ∀ id worker, echoGraph.worker? id = some worker → Truthful Int64 Notice worker.body := by
  intro id worker known
  match id, known with
  | 0, known => cases known; exact echoBody_truthful _
  | 1, known => cases known; exact echoBody_truthful _
  | id + 2, known => cases (show none = some worker from known)

end DemandFlow
