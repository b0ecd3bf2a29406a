import DemandFlow.Proofs.Interpreter.Isolation

/-!
The log of a call. Every look of a pull completes one firing or none, so the looks of a call give
its completed firings, oldest first. What such a firing sends is what its body asks to be sent,
and this is read off the body.
-/

set_option autoImplicit false

namespace DemandFlow

variable {β α μ ρ : Type}

namespace Routine

variable (worker : WorkerId) (inputs outputs : List Port)

/-- What a routine sends, in this order, if the channels of the bank answer its requests. -/
def sends : Routine α μ ρ → Bank α → List (Outgoing μ)
  | .done _, _ => []
  | .pop input next, bank =>
      match inputs[input]? with
      | none => (next (.error (.invalidGraph (.missingInput worker input)))).sends bank
      | some port =>
          let (answer, bank) := bank.pop port.channel
          (next answer).sends bank
  | .peek input index next, bank =>
      match inputs[input]? with
      | none => (next (.error (.invalidGraph (.missingInput worker input)))).sends bank
      | some port =>
          let (answer, bank) := bank.peek port.channel index
          (next answer).sends bank
  | .available input next, bank =>
      match inputs[input]? with
      | none => (next (.error (.invalidGraph (.missingInput worker input)))).sends bank
      | some port => (next (.ok (bank.channel port.channel).size)).sends bank
  | .push output element next, bank =>
      match outputs[output]? with
      | none => (next (.error (.invalidGraph (.missingOutput worker output)))).sends bank
      | some port => (next (.ok ())).sends (bank.push port.channel element)
  | .send portal payload next, bank => { portal := portal, payload := payload } :: next.sends bank

/-- A run puts what the routine sends behind what is in the outbox. -/
theorem outbox_run (routine : Routine α μ ρ) (scene : Scene α μ) :
    (routine.run worker inputs outputs scene).2.outbox =
      scene.outbox ++ routine.sends worker inputs outputs scene.bank := by
  induction routine generalizing scene with
  | done result => exact (List.append_nil _).symm
  | pop input next inductionHypothesis =>
      unfold run sends
      cases inputs[input]? with
      | none => exact inductionHypothesis _ scene
      | some port => exact inductionHypothesis _ _
  | peek input index next inductionHypothesis =>
      unfold run sends
      cases inputs[input]? with
      | none => exact inductionHypothesis _ scene
      | some port => exact inductionHypothesis _ _
  | available input next inductionHypothesis =>
      unfold run sends
      cases inputs[input]? with
      | none => exact inductionHypothesis _ scene
      | some port => exact inductionHypothesis _ scene
  | push output element next inductionHypothesis =>
      unfold run sends
      cases outputs[output]? with
      | none => exact inductionHypothesis _ scene
      | some port => exact inductionHypothesis _ _
  | send portal payload next inductionHypothesis =>
      unfold run sends
      rw [inductionHypothesis, List.append_assoc]
      rfl

end Routine

/-- A completed firing: the worker as the firing found it and as the messages due made it,
the body its work left, and what it sent. -/
structure Event (β μ : Type) where
  id : WorkerId
  found : Worker β μ
  ready : Worker β μ
  body : β
  outbox : List (Outgoing μ)

def Event.done (event : Event β μ) : Worker β μ :=
  { event.ready with body := event.body, executions := event.ready.executions + 1 }

namespace Graph

variable [Work β α μ]

/-- What the body of the worker sends when it works on the channels of the graph. -/
def sendsOf (graph : Graph β α μ) (id : WorkerId) (worker : Worker β μ) : List (Outgoing μ) :=
  (Work.work worker.body
    { worker := id, executions := worker.executions, shape := worker.shape }).sends
    id worker.inputs worker.outputs graph.bank

private theorem outbox_runBody (graph : Graph β α μ) (id : WorkerId) (worker : Worker β μ) :
    (graph.runBody id worker).2.outbox = graph.sendsOf id worker :=
  Routine.outbox_run id worker.inputs worker.outputs _ { bank := graph.bank }

variable [Recipient β μ]

/-- The firing of a worker, if its messages are delivered and its work succeeds. -/
def firing? (graph : Graph β α μ) (id : WorkerId) : Option (Event β μ) :=
  match graph.worker? id with
  | none => none
  | some found =>
      match found.deliverDue with
      | (.error _, _) => none
      | (.ok (), ready) =>
          match (graph.runBody id ready).1 with
          | (.error _, _) => none
          | (.ok (), body) =>
              some
                { id := id
                  found := found
                  ready := ready
                  body := body
                  outbox := graph.sendsOf id ready }

/-- The event is what firing its worker comes to, up to the graph that is left. -/
structure Completes (graph : Graph β α μ) (event : Event β μ) (left : Graph β α μ) : Prop where
  known : graph.worker? event.id = some event.found
  delivery : event.found.deliverDue = (.ok (), event.ready)
  work : ∃ bank, graph.runBody event.id event.ready =
      ((.ok (), event.body), { bank := bank, outbox := event.outbox }) ∧
    (graph.worked event.id event.ready event.body bank).routeOutbox event.id
      event.ready.executions event.outbox = (.ok (), left)

theorem completes_of_fire {graph left : Graph β α μ} {id : WorkerId}
    (firing : graph.fire id = (.ok (), left)) :
    ∃ event, graph.firing? id = some event ∧ event.id = id ∧ graph.Completes event left := by
  have view := graph.fire_view id
  rw [firing] at view
  cases view with
  | @worked worker ready body scene _ known delivery run routing =>
      have sent := graph.outbox_runBody id ready
      rw [run] at sent
      refine ⟨⟨id, worker, ready, body, scene.outbox⟩, ?_, rfl, known, delivery, scene.bank, run,
        routing⟩
      unfold firing?
      rw [known]
      dsimp only
      rw [delivery]
      dsimp only
      rw [run, ← sent]

theorem Completes.frame_eq {graph left : Graph β α μ} {event : Event β μ}
    (completes : graph.Completes event left) : left.frame = graph.frame := by
  obtain ⟨known, delivery, bank, run, routing⟩ := completes
  have keys := graph.keys_runBody event.id event.ready
  rw [run] at keys
  have routed := frame_routeOutbox (graph.worked event.id event.ready event.body bank) event.id
    event.ready.executions event.outbox
  rw [routing] at routed
  exact routed.trans
    (graph.frame_worked known (Worker.frame_deliverDue delivery) event.body keys)

end Graph

namespace Interpreter

variable [Recipient β μ] [Work β α μ]

def Look.firings (look : Look β α μ) : List (Event β μ) :=
  match look.stack with
  | [] => []
  | current :: waiting =>
      match look.interpreter.pullStep current waiting with
      | .stop _ _ => []
      | .proceed stack _ =>
          if stack = waiting then (look.interpreter.graph.firing? current).toList else []

def log (interpreter : Interpreter β α μ) (fuel : Nat) : List (Event β μ) :=
  (interpreter.looks fuel).flatMap Look.firings

section

variable {holds : List (Event β μ) → Interpreter β α μ → Prop}

/-- What holds of a log and an interpreter and is kept by counting and by looks that do not
fail. -/
structure KeptByLooks (holds : List (Event β μ) → Interpreter β α μ → Prop) : Prop where
  counted : ∀ log interpreter stats, holds log interpreter →
    holds log { interpreter with stats := stats }
  look : ∀ log interpreter current waiting, holds log interpreter →
    (∀ error left, interpreter.pullStep current waiting ≠ .stop (.error error) left) →
      holds (log ++ (Look.mk (current :: waiting) interpreter).firings)
        (interpreter.pullStep current waiting).left

private theorem KeptByLooks.pullSteps (kept : KeptByLooks holds) {log : List (Event β μ)}
    {fuel : Nat} {stack : List WorkerId} {interpreter left : Interpreter β α μ} {progress : Bool}
    (start : holds log interpreter)
    (run : pullSteps fuel stack interpreter = some (.ok progress, left)) :
    holds (log ++ (pullLooks fuel stack interpreter).flatMap Look.firings) left := by
  induction fuel generalizing log stack interpreter with
  | zero => cases run
  | succ fuel inductionHypothesis =>
      cases stack with
      | nil =>
          cases run
          unfold pullLooks
          rw [List.flatMap_nil, List.append_nil]
          exact start
      | cons current waiting =>
          have next := kept.look log interpreter current waiting start
          unfold Interpreter.pullSteps at run
          unfold pullLooks
          rw [List.flatMap_cons, ← List.append_assoc]
          cases step : interpreter.pullStep current waiting with
          | stop answer after =>
              rw [step] at run next
              cases run
              rw [List.flatMap_nil, List.append_nil]
              exact next (fun error other same => by cases same)
          | proceed stack after =>
              rw [step] at run next
              exact inductionHypothesis (next (fun error other same => by cases same)) run

private theorem KeptByLooks.pass (kept : KeptByLooks holds) {log : List (Event β μ)} {fuel : Nat}
    {pending : List WorkerId} {fired progress : Bool} {interpreter left : Interpreter β α μ}
    (start : holds log interpreter)
    (run : pass fuel fired pending interpreter = some (.ok progress, left)) :
    holds (log ++ (passLooks fuel pending interpreter).flatMap Look.firings) left := by
  induction pending generalizing log fired interpreter with
  | nil =>
      cases run
      unfold passLooks
      rw [List.flatMap_nil, List.append_nil]
      exact start
  | cons sink rest inductionHypothesis =>
      unfold Interpreter.pass at run
      split at run
      next => cases run
      next => cases run
      next pulled after outcome =>
        have first := kept.pullSteps (kept.counted log interpreter _ start) outcome
        unfold passLooks
        rw [outcome, List.flatMap_append, ← List.append_assoc]
        exact inductionHypothesis first run

private theorem KeptByLooks.passes (kept : KeptByLooks holds) {log : List (Event β μ)}
    {pullFuel fuel : Nat} {remaining : Option Nat} {everFired progress : Bool}
    {interpreter left : Interpreter β α μ} (start : holds log interpreter)
    (run : passes pullFuel fuel remaining everFired interpreter = some (.ok progress, left)) :
    holds (log ++ (passesLooks pullFuel fuel remaining interpreter).flatMap Look.firings) left := by
  induction fuel generalizing log remaining everFired interpreter with
  | zero => cases run
  | succ fuel inductionHypothesis =>
      have counted := kept.counted log interpreter
        { interpreter.stats with passes := interpreter.stats.passes + 1 } start
      unfold passesLooks
      by_cases limit : remaining = some 0
      · subst limit
        cases run
        rw [if_pos rfl, List.flatMap_nil, List.append_nil]
        exact start
      · rw [if_neg limit]
        rw [passes_eq_goOn limit] at run
        dsimp only
        cases outcome : Interpreter.pass pullFuel false interpreter.sinks
            { interpreter with
              stats := { interpreter.stats with passes := interpreter.stats.passes + 1 } } with
        | none =>
            rw [outcome] at run
            cases run
        | some made =>
            rw [outcome] at run
            rcases made with ⟨answer, after⟩
            cases answer with
            | error error => cases run
            | ok again =>
                have first := kept.pass counted outcome
                rw [List.flatMap_append, ← List.append_assoc]
                cases again with
                | false =>
                    cases run
                    rw [List.flatMap_nil, List.append_nil]
                    exact first
                | true => exact inductionHypothesis first run

theorem KeptByLooks.interpret (kept : KeptByLooks holds) {log : List (Event β μ)} {fuel : Nat}
    {interpreter left : Interpreter β α μ} {progress : Bool} (start : holds log interpreter)
    (run : interpreter.interpret fuel = some (.ok progress, left)) :
    holds (log ++ interpreter.log fuel) left :=
  kept.passes (kept.counted log interpreter _ start) run

end

end Interpreter

end DemandFlow
