import DemandFlow.Proofs.Graph.Instrumentation
import DemandFlow.Work.Body

/-!
Candid bodies. A violation of a rate is for an audit to find; the work of a candid body never
answers one of its own making, whatever it receives and however often it works. In a graph of
candid bodies no firing fails with a violation, and the bodies stay candid. The standard bodies
are candid, and so is every scripted one that is not told to fail with a violation.
-/

set_option autoImplicit false

namespace DemandFlow

variable {β α μ : Type}

def Sincere {γ : Type} : Except Error γ → Prop
  | .ok _ => True
  | .error error => ¬ error.Violation

theorem sincere_ok {γ : Type} (value : γ) : Sincere (.ok value) := trivial

theorem sincere_error {γ : Type} {error : Error}
    (other : ∀ worker port kind declared observed,
      error ≠ .rateViolation worker port kind declared observed) :
    Sincere (.error error : Except Error γ) := by
  rintro ⟨worker, port, kind, declared, observed, same⟩
  exact other worker port kind declared observed same

theorem sincere_invalidGraph {γ : Type} (fault : GraphFault) :
    Sincere (.error (.invalidGraph fault) : Except Error γ) :=
  sincere_error nofun

section

variable [Recipient β μ] [Work β α μ]

/-- The states to which a body can come by receiving messages and working. -/
inductive Becomes (α : Type) (μ : Type) [Recipient β μ] [Work β α μ] (body : β) : β → Prop where
  | start : Becomes α μ body body
  | received {now : β} (before : Becomes α μ body now) (payload : μ) :
      Becomes α μ body (Recipient.receive now payload)
  | worked {now : β} (before : Becomes α μ body now) (firing : Firing) (id : WorkerId)
      (inputs outputs : List Port) (scene : Routine.Scene α μ) :
      Becomes α μ body ((Work.work now firing).run id inputs outputs scene).1.2

/-- In no state to which it can come does the work of the body answer a violation. -/
def Candid (α : Type) (μ : Type) [Recipient β μ] [Work β α μ] (body : β) : Prop :=
  ∀ now, Becomes α μ body now → ∀ firing id inputs outputs (scene : Routine.Scene α μ),
    Sincere ((Work.work now firing).run id inputs outputs scene).1.1

theorem Becomes.trans {first second third : β} (earlier : Becomes α μ first second)
    (later : Becomes α μ second third) : Becomes α μ first third := by
  induction later with
  | start => exact earlier
  | received before payload inductionHypothesis => exact .received inductionHypothesis payload
  | worked before firing id inputs outputs scene inductionHypothesis =>
      exact .worked inductionHypothesis firing id inputs outputs scene

theorem Candid.becomes {body now : β} (candid : Candid α μ body) (change : Becomes α μ body now) :
    Candid α μ now :=
  fun later further => candid later (change.trans further)

/-- Deliveries make a body become another one, and fail for other reasons than a violation. -/
theorem Worker.deliver_becomes (worker : Worker β μ) (messages : List (Message μ)) :
    Becomes α μ worker.body (worker.deliver messages).2.body ∧
      Sincere (worker.deliver messages).1 := by
  induction messages generalizing worker with
  | nil => exact ⟨.start, trivial⟩
  | cons message rest inductionHypothesis =>
      unfold deliver
      split
      next => exact ⟨.start, trivial⟩
      next =>
        split
        next => exact ⟨.start, sincere_error (by simp [missed])⟩
        next =>
          split
          next =>
            have further := inductionHypothesis
              { worker with body := Recipient.receive worker.body message.payload }
            exact ⟨(Becomes.received .start message.payload).trans further.1, further.2⟩
          next => exact ⟨.start, sincere_error (by simp)⟩

namespace Graph

omit [Recipient β μ] [Work β α μ] in
private theorem bodies_routeOutbox {graph : Graph β α μ} {good : WorkerId → β → Prop}
    (all : ∀ id worker, graph.worker? id = some worker → good id worker.body) (sender : WorkerId)
    (sent : Nat) (outbox : List (Outgoing μ)) :
    ∀ id worker, (graph.routeOutbox sender sent outbox).2.worker? id = some worker →
      good id worker.body := by
  have ended := routeOutbox_induction
    (fun left : Graph β α μ => ∀ id worker, left.worker? id = some worker → good id worker.body)
    (fun _ left => ∀ id worker, left.worker? id = some worker → good id worker.body)
    (fun left outgoing recipient holds => by
      have view := left.routeTo_view sender sent outgoing recipient
      generalize left.routeTo sender sent outgoing recipient = outcome at view
      cases view with
      | undeclared absent => exact holds
      | unknown absent => exact holds
      | late declared known passed => exact holds
      | @queued constraint worker declared known inTime =>
          exact forall_setWorker holds (holds recipient worker known))
    (fun left portal holds => holds) graph outbox all
  generalize graph.routeOutbox sender sent outbox = outcome at ended
  rcases outcome with ⟨answer, left⟩
  cases answer with
  | ok done => exact ended
  | error error => exact ended

/-- What bodies keep whatever they receive and do, all bodies of a graph keep in a firing. -/
theorem bodies_fire {graph : Graph β α μ} {good : WorkerId → β → Prop}
    (closed : ∀ id body now, good id body → Becomes α μ body now → good id now)
    (all : ∀ id worker, graph.worker? id = some worker → good id worker.body) (id : WorkerId) :
    ∀ other worker, (graph.fire id).2.worker? other = some worker → good other worker.body := by
  have delivered {worker left : Worker β μ} {answer : Except Error Unit}
      (known : graph.worker? id = some worker) (delivery : worker.deliverDue = (answer, left)) :
      good id left.body := by
    have becomes := Worker.deliver_becomes (α := α) worker worker.queue.messages
    unfold Worker.deliverDue at delivery
    rw [delivery] at becomes
    exact closed _ _ _ (all id worker known) becomes.1
  have ran {ready : Worker β μ} {answer : Except Error Unit} {body : β}
      {scene : Routine.Scene α μ} (before : good id ready.body)
      (run : graph.runBody id ready = ((answer, body), scene)) : good id body := by
    have next := closed _ _ _ before (.worked .start
      { worker := id, executions := ready.executions, shape := ready.shape } id ready.inputs
      ready.outputs { bank := graph.bank })
    unfold runBody at run
    rw [run] at next
    exact next
  have view := graph.fire_view id
  generalize graph.fire id = outcome at view
  cases view with
  | unknown absent => exact all
  | undelivered known delivery => exact forall_setWorker all (delivered known delivery)
  | failed known delivery run => exact forall_setWorker all (ran (delivered known delivery) run)
  | @worked worker ready body scene _ known delivery run routing =>
      have worked : ∀ other worker, (graph.worked id ready body scene.bank).worker? other =
          some worker → good other worker.body :=
        forall_setWorker all (ran (delivered known delivery) run)
      rw [← routing]
      exact bodies_routeOutbox worked id _ _

def Candid (graph : Graph β α μ) : Prop :=
  ∀ id worker, graph.worker? id = some worker → DemandFlow.Candid α μ worker.body

theorem Candid.of_workers_eq {left right : Graph β α μ} (candid : left.Candid)
    (same : right.workers = left.workers) : right.Candid := by
  intro id worker known
  unfold worker? at known
  rw [same] at known
  exact candid id worker known

private theorem candid_routeOutbox {graph : Graph β α μ} (candid : graph.Candid) (sender : WorkerId)
    (sent : Nat) (outbox : List (Outgoing μ)) :
    (graph.routeOutbox sender sent outbox).2.Candid ∧
      Sincere (graph.routeOutbox sender sent outbox).1 := by
  have ended := routeOutbox_induction
    (fun left : Graph β α μ => left.Candid)
    (fun error left => left.Candid ∧ Sincere (.error error : Except Error Unit))
    (fun left outgoing recipient holds => by
      have view := left.routeTo_view sender sent outgoing recipient
      generalize left.routeTo sender sent outgoing recipient = outcome at view
      cases view with
      | undeclared absent => exact ⟨holds, sincere_error nofun⟩
      | unknown absent => exact ⟨holds, sincere_invalidGraph _⟩
      | late declared known passed => exact ⟨holds, sincere_error nofun⟩
      | @queued constraint worker declared known inTime =>
          exact forall_setWorker holds (holds recipient worker known))
    (fun left portal holds => ⟨holds, sincere_error nofun⟩)
    graph outbox candid
  generalize graph.routeOutbox sender sent outbox = outcome at ended
  rcases outcome with ⟨answer, left⟩
  cases answer with
  | ok done => exact ⟨ended, trivial⟩
  | error error => exact ended

private theorem candid_runBody {graph : Graph β α μ} {id : WorkerId} {ready : Worker β μ}
    (candid : DemandFlow.Candid α μ ready.body) {answer : Except Error Unit} {body : β}
    {scene : Routine.Scene α μ} (run : graph.runBody id ready = ((answer, body), scene)) :
    DemandFlow.Candid α μ body ∧ Sincere answer := by
  have next := candid.becomes (.worked .start
    { worker := id, executions := ready.executions, shape := ready.shape } id ready.inputs
    ready.outputs { bank := graph.bank })
  have sincere := candid ready.body .start
    { worker := id, executions := ready.executions, shape := ready.shape } id ready.inputs
    ready.outputs { bank := graph.bank }
  unfold runBody at run
  rw [run] at next sincere
  exact ⟨next, sincere⟩

/-- A firing leaves candid bodies candid, and if it fails, it is not for a violation. -/
theorem candid_fire {graph : Graph β α μ} (candid : graph.Candid) (id : WorkerId) :
    (graph.fire id).2.Candid ∧ Sincere (graph.fire id).1 := by
  have delivered {worker left : Worker β μ} {answer : Except Error Unit}
      (known : graph.worker? id = some worker) (delivery : worker.deliverDue = (answer, left)) :
      DemandFlow.Candid α μ left.body ∧ Sincere answer := by
    have becomes := Worker.deliver_becomes (α := α) worker worker.queue.messages
    unfold Worker.deliverDue at delivery
    rw [delivery] at becomes
    exact ⟨(candid id worker known).becomes becomes.1, becomes.2⟩
  have view := graph.fire_view id
  generalize graph.fire id = outcome at view
  cases view with
  | unknown absent => exact ⟨candid, sincere_invalidGraph _⟩
  | undelivered known delivery =>
      have here := delivered known delivery
      exact ⟨forall_setWorker candid here.1, here.2⟩
  | failed known delivery run =>
      have here := candid_runBody (delivered known delivery).1 run
      exact ⟨forall_setWorker candid here.1, here.2⟩
  | @worked worker ready body scene _ known delivery run routing =>
      have here := candid_runBody (delivered known delivery).1 run
      have placed : (graph.setWorker id
          { ready with body := body, executions := ready.executions + 1 }).Candid :=
        forall_setWorker candid here.1
      have worked : (graph.worked id ready body scene.bank).Candid := placed.of_workers_eq rfl
      rw [← routing]
      exact candid_routeOutbox worked id _ _

end Graph

end

/-! ### Sincere routines -/

private theorem Bank.sincere_pop (bank : Bank α) (id : ChannelId) : Sincere (bank.pop id).1 := by
  change Sincere (bank.channel id).pop.1
  unfold Channel.pop
  split
  next => exact sincere_error nofun
  next => trivial

private theorem Bank.sincere_peek (bank : Bank α) (id : ChannelId) (index : Nat) :
    Sincere (bank.peek id index).1 := by
  change Sincere ((bank.channel id).peek index).1
  unfold Channel.peek
  split
  next => exact sincere_error nofun
  next => trivial

namespace Routine

variable {ρ σ : Type} {good : ρ → Prop} {better : σ → Prop}

/-- Wherever it is run, the routine ends in a result of the given kind. -/
def Yields (good : ρ → Prop) (routine : Routine α μ ρ) : Prop :=
  ∀ id inputs outputs scene, good (routine.run id inputs outputs scene).1

theorem Yields.done {result : ρ} (holds : good result) :
    Yields good (.done result : Routine α μ ρ) :=
  fun _ _ _ _ => holds

theorem Yields.bind {routine : Routine α μ ρ} {rest : ρ → Routine α μ σ}
    (first : routine.Yields good) (second : ∀ result, good result → (rest result).Yields better) :
    (routine.bind rest).Yields better := by
  intro id inputs outputs scene
  rw [run_bind]
  exact second _ (first id inputs outputs scene) id inputs outputs _

theorem Yields.pop {input : Nat} {next : Except Error α → Routine α μ ρ}
    (continues : ∀ answer, Sincere answer → (next answer).Yields good) :
    (Routine.pop input next).Yields good := by
  intro id inputs outputs scene
  unfold run
  cases inputs[input]? with
  | none => exact continues _ (sincere_invalidGraph _) id inputs outputs scene
  | some port => exact continues _ (scene.bank.sincere_pop port.channel) id inputs outputs _

private theorem Yields.peek {input index : Nat} {next : Except Error α → Routine α μ ρ}
    (continues : ∀ answer, Sincere answer → (next answer).Yields good) :
    (Routine.peek input index next).Yields good := by
  intro id inputs outputs scene
  unfold run
  cases inputs[input]? with
  | none => exact continues _ (sincere_invalidGraph _) id inputs outputs scene
  | some port =>
      exact continues _ (scene.bank.sincere_peek port.channel index) id inputs outputs _

theorem Yields.available {input : Nat} {next : Except Error Nat → Routine α μ ρ}
    (continues : ∀ answer, Sincere answer → (next answer).Yields good) :
    (Routine.available input next).Yields good := by
  intro id inputs outputs scene
  unfold run
  cases inputs[input]? with
  | none => exact continues _ (sincere_invalidGraph _) id inputs outputs scene
  | some port => exact continues _ (sincere_ok _) id inputs outputs scene

theorem Yields.push {output : Nat} {element : α} {next : Except Error Unit → Routine α μ ρ}
    (continues : ∀ answer, Sincere answer → (next answer).Yields good) :
    (Routine.push output element next).Yields good := by
  intro id inputs outputs scene
  unfold run
  cases outputs[output]? with
  | none => exact continues _ (sincere_invalidGraph _) id inputs outputs scene
  | some port => exact continues _ (sincere_ok _) id inputs outputs _

private theorem Yields.send {portal : Portal} {payload : μ} {next : Routine α μ ρ}
    (continues : next.Yields good) : (Routine.send portal payload next).Yields good :=
  fun id inputs outputs _ => continues id inputs outputs _

theorem sincere_andThen {first : Routine α μ (Except Error Unit)}
    {next : Unit → Routine α μ (Except Error Unit)} (before : first.Yields Sincere)
    (after : (next ()).Yields Sincere) : (first.andThen next).Yields Sincere := by
  refine before.bind ?_
  intro answer sincere
  cases answer with
  | error error => exact .done sincere
  | ok done => exact after

theorem sincere_forEach {action : Nat → Routine α μ (Except Error Unit)}
    (each : ∀ item, (action item).Yields Sincere) (items : List Nat) :
    (forEach action items).Yields Sincere := by
  induction items with
  | nil => exact .done trivial
  | cons item rest inductionHypothesis => exact sincere_andThen (each item) inductionHypothesis

private theorem sincere_times {action : Routine α μ (Except Error Unit)}
    (once : action.Yields Sincere) (count : Nat) : (times action count).Yields Sincere := by
  induction count with
  | zero => exact .done trivial
  | succ count inductionHypothesis => exact sincere_andThen once inductionHypothesis

private theorem sincere_transfer (input output : Nat) :
    (transfer input output : Routine α μ (Except Error Unit)).Yields Sincere := by
  refine .pop fun answer sincere => ?_
  cases answer with
  | error error => exact .done sincere
  | ok element => exact .push fun _ sincere => .done sincere

private theorem sincere_spread (input outputs : Nat) :
    (spread input outputs : Routine α μ (Except Error Unit)).Yields Sincere := by
  refine .pop fun answer sincere => ?_
  cases answer with
  | error error => exact .done sincere
  | ok element => exact sincere_forEach (fun _ => .push fun _ sincere => .done sincere) _

theorem sincere_standard (body : Standard) (shape : PortShape) :
    (body.routine shape : Routine α μ (Except Error Unit)).Yields Sincere := by
  cases body with
  | identity => exact sincere_transfer 0 0
  | duplicate => exact sincere_spread 0 shape.outputs
  | roundRobinSplit weight =>
      exact sincere_forEach (fun output => sincere_times (sincere_transfer 0 output) weight) _
  | roundRobinJoin weight =>
      exact sincere_forEach (fun input => sincere_times (sincere_transfer input 0) weight) _

end Routine

def Script.Candid : Script → Prop
  | .finish => True
  | .step instruction rest =>
      (∀ error, instruction = .fail error → ¬ error.Violation) ∧ rest.Candid
  | .times _ block rest => block.Candid ∧ rest.Candid
  | .timesAvailable _ block rest => block.Candid ∧ rest.Candid
  | .onTurn _ _ block rest => block.Candid ∧ rest.Candid
  | .attempt first second rest => first.Candid ∧ second.Candid ∧ rest.Candid

namespace Script

def Ends (routine : ScriptRun) : Prop :=
  routine.Yields fun result => Sincere result.1

theorem Ends.onSuccess {routine : ScriptRun} {next : Machine → ScriptRun}
    (first : Ends routine) (second : ∀ machine, Ends (next machine)) :
    Ends (Script.onSuccess routine next) := by
  refine Routine.Yields.bind first ?_
  rintro ⟨answer, machine⟩ sincere
  cases answer with
  | error error => exact .done sincere
  | ok done => exact second machine

private theorem Ends.repeated {block : Machine → ScriptRun} (once : ∀ machine, Ends (block machine))
    (count : Nat) (machine : Machine) : Ends (Script.repeated block count machine) := by
  induction count generalizing machine with
  | zero => exact .done trivial
  | succ count inductionHypothesis => exact (once machine).onSuccess inductionHypothesis

private theorem ends_putAnswer (machine : Machine) {answer : Except Error Int64}
    (sincere : Sincere answer) : Ends (Instruction.putAnswer machine answer) := by
  cases answer with
  | error error => exact .done sincere
  | ok value => exact .done trivial

private theorem ends_instruction {instruction : Instruction}
    (candid : ∀ error, instruction = .fail error → ¬ error.Violation) (firing : Firing)
    (machine : Machine) : Ends (instruction.run firing machine) := by
  cases instruction with
  | pop input => exact .pop fun _ sincere => ends_putAnswer machine sincere
  | peek input index => exact .peek fun _ sincere => ends_putAnswer machine sincere
  | available input =>
      refine .available fun answer sincere => ends_putAnswer machine ?_
      cases answer with
      | error error => exact sincere
      | ok count => trivial
  | push output => exact .push fun _ sincere => .done sincere
  | send portal directive => exact .send (.done trivial)
  | fail error => exact .done (candid error rfl)
  | const value => exact .done trivial
  | register => exact .done trivial
  | executions => exact .done trivial
  | worker => exact .done trivial
  | inputs => exact .done trivial
  | outputs => exact .done trivial
  | setRegister => exact .done trivial
  | log => exact .done trivial
  | drop => exact .done trivial
  | add => exact .done trivial
  | sub => exact .done trivial
  | mul => exact .done trivial
  | dup => exact .done trivial
  | swap => exact .done trivial

private theorem Candid.ends {script : Script} (candid : script.Candid) (firing : Firing)
    (machine : Machine) : Ends (script.run firing machine) := by
  induction script generalizing machine with
  | finish => exact .done trivial
  | step instruction rest inductionHypothesis =>
      exact (ends_instruction candid.1 firing machine).onSuccess (inductionHypothesis candid.2)
  | times count block rest blockEnds restEnds =>
      exact (Ends.repeated (blockEnds candid.1) count machine).onSuccess (restEnds candid.2)
  | timesAvailable input block rest blockEnds restEnds =>
      refine .available fun answer sincere => ?_
      cases answer with
      | error error => exact .done sincere
      | ok count =>
          exact (Ends.repeated (blockEnds candid.1) count machine).onSuccess (restEnds candid.2)
  | onTurn modulus remainder block rest blockEnds restEnds =>
      unfold run
      split
      next => exact (blockEnds candid.1 machine).onSuccess (restEnds candid.2)
      next => exact restEnds candid.2 machine
  | attempt first second rest firstEnds secondEnds restEnds =>
      refine Routine.Yields.bind (firstEnds candid.1 machine) ?_
      rintro ⟨answer, after⟩ _
      cases answer with
      | error error => exact (secondEnds candid.2.1 after).onSuccess (restEnds candid.2.2)
      | ok done => exact restEnds candid.2.2 after

end Script

namespace Body

/-- The script of the body, if it has one, does not fail with a violation. -/
def Outspoken : Body → Prop
  | .standard _ => True
  | .scripted body => body.script.Candid
  | .closure filter => filter.script.Candid

private theorem Outspoken.work {body : Body} (outspoken : body.Outspoken) (firing : Firing) :
    (body.work firing).Yields fun result => Sincere result.1 ∧ result.2.Outspoken := by
  cases body with
  | standard body =>
      have answers : (Standard.work body firing : Routine Int64 Notice _).Yields
          fun result => Sincere result.1 :=
        (Routine.sincere_standard body firing.shape).bind fun _ sincere => .done sincere
      exact answers.bind fun _ sincere => .done ⟨sincere, trivial⟩
  | scripted body =>
      exact (outspoken.ends firing { memory := body.memory }).bind fun _ sincere =>
        .done ⟨sincere, outspoken⟩
  | closure filter =>
      exact (outspoken.ends firing { memory := filter.memory }).bind fun _ sincere =>
        .done ⟨sincere, outspoken⟩

theorem Outspoken.candid {body : Body} (outspoken : body.Outspoken) :
    Candid Int64 Notice body := by
  have stays (now : Body) (becomes : Becomes Int64 Notice body now) : now.Outspoken := by
    induction becomes with
    | start => exact outspoken
    | @received now before payload inductionHypothesis =>
        cases now with
        | standard body => trivial
        | scripted body => exact inductionHypothesis
        | closure filter => exact inductionHypothesis
    | worked before firing id inputs outputs scene inductionHypothesis =>
        exact (inductionHypothesis.work firing id inputs outputs scene).2
  intro now becomes firing id inputs outputs scene
  exact ((stays now becomes).work firing id inputs outputs scene).1

end Body

end DemandFlow
