import DemandFlow.Proofs.Graph.Frame

/-!
The ways in which a firing can go, and what each of them leaves as it was. All later
statements about firings go through `fire_view`.
-/

set_option autoImplicit false

namespace DemandFlow

variable {β α μ : Type}

namespace Worker

theorem frame_deliverDue [Recipient β μ] {worker left : Worker β μ} {answer : Except Error Unit}
    (delivery : worker.deliverDue = (answer, left)) : left.frame = worker.frame := by
  have kept := frame_deliver worker worker.queue.messages
  unfold deliverDue at delivery
  rw [delivery] at kept
  exact kept

theorem executions_deliverDue [Recipient β μ] {worker left : Worker β μ}
    {answer : Except Error Unit} (delivery : worker.deliverDue = (answer, left)) :
    left.executions = worker.executions := by
  have kept := executions_deliver worker worker.queue.messages
  unfold deliverDue at delivery
  rw [delivery] at kept
  exact kept

end Worker

namespace Graph

def worked (graph : Graph β α μ) (id : WorkerId) (ready : Worker β μ) (body : β)
    (bank : Bank α) : Graph β α μ :=
  { graph.setWorker id { ready with body := body, executions := ready.executions + 1 } with
    bank := bank }

/-- What firing a worker comes to: the worker does not exist, a message due cannot be
delivered, the body fails, or the body succeeds and what it sent is routed. -/
inductive FireView [Recipient β μ] [Work β α μ] (graph : Graph β α μ) (id : WorkerId) :
    Outcome Unit (Graph β α μ) → Prop where
  | unknown (absent : graph.worker? id = none) :
      FireView graph id (.error (.invalidGraph (.unknownWorker id)), graph)
  | undelivered {worker left : Worker β μ} {error : Error}
      (known : graph.worker? id = some worker)
      (delivery : worker.deliverDue = (.error error, left)) :
      FireView graph id (.error error, graph.setWorker id left)
  | failed {worker ready : Worker β μ} {error : Error} {body : β} {scene : Routine.Scene α μ}
      (known : graph.worker? id = some worker)
      (delivery : worker.deliverDue = (.ok (), ready))
      (run : graph.runBody id ready = ((.error error, body), scene)) :
      FireView graph id
        (.error error, { graph.setWorker id { ready with body := body } with bank := scene.bank })
  | worked {worker ready : Worker β μ} {body : β} {scene : Routine.Scene α μ}
      {outcome : Outcome Unit (Graph β α μ)}
      (known : graph.worker? id = some worker)
      (delivery : worker.deliverDue = (.ok (), ready))
      (run : graph.runBody id ready = ((.ok (), body), scene))
      (routing : (graph.worked id ready body scene.bank).routeOutbox id ready.executions
        scene.outbox = outcome) :
      FireView graph id outcome

theorem fire_view [Recipient β μ] [Work β α μ] (graph : Graph β α μ) (id : WorkerId) :
    graph.FireView id (graph.fire id) := by
  unfold fire
  split
  next absent => exact .unknown absent
  next worker known =>
    split
    next error left delivery => exact .undelivered known delivery
    next ready delivery =>
      unfold work
      split
      next error body scene run => exact .failed known delivery run
      next body scene run => exact .worked known delivery run rfl

theorem keys_runBody [Work β α μ] (graph : Graph β α μ) (id : WorkerId) (ready : Worker β μ) :
    (graph.runBody id ready).2.bank.keys = graph.bank.keys :=
  Routine.keys_run _ _ _ _ _

theorem frame_worked (graph : Graph β α μ) {id : WorkerId}
    {worker ready : Worker β μ} (known : graph.worker? id = some worker)
    (same : ready.frame = worker.frame) (body : β) {bank : Bank α}
    (keys : bank.keys = graph.bank.keys) :
    (graph.worked id ready body bank).frame = graph.frame := by
  have placed : (graph.setWorker id
      { ready with body := body, executions := ready.executions + 1 }).frame = graph.frame :=
    frame_setWorker graph known same
  rw [← placed]
  exact frame_withBank (graph.setWorker id _) keys

theorem frame_fire [Recipient β μ] [Work β α μ] (graph : Graph β α μ) (id : WorkerId) :
    (graph.fire id).2.frame = graph.frame := by
  have view := graph.fire_view id
  generalize graph.fire id = outcome at view
  cases view with
  | unknown absent => rfl
  | undelivered known delivery =>
      exact frame_setWorker graph known (Worker.frame_deliverDue delivery)
  | @failed worker ready error body scene known delivery run =>
      have keys := graph.keys_runBody id ready
      rw [run] at keys
      have same : ready.frame = worker.frame := Worker.frame_deliverDue delivery
      have placed : (graph.setWorker id { ready with body := body }).frame = graph.frame :=
        frame_setWorker graph known same
      rw [← placed]
      exact frame_withBank (graph.setWorker id _) keys
  | @worked worker ready body scene _ known delivery run routing =>
      have keys := graph.keys_runBody id ready
      rw [run] at keys
      rw [← routing]
      exact (frame_routeOutbox _ id _ _).trans
        (graph.frame_worked known (Worker.frame_deliverDue delivery) body keys)

private theorem frame_resetStats (graph : Graph β α μ) (channel : ChannelId) :
    (graph.resetStats channel).frame = graph.frame :=
  frame_withBank graph (Bank.keys_set _ _ _)

/-- The same workers in the same order, and in every channel the same elements: only counts
may differ. -/
def SameButCounts (left right : Graph β α μ) : Prop :=
  left.workers = right.workers ∧ left.frame = right.frame ∧
    ∀ id, (left.bank.channel id).items = (right.bank.channel id).items

theorem SameButCounts.trans {first second third : Graph β α μ}
    (left : first.SameButCounts second) (right : second.SameButCounts third) :
    first.SameButCounts third :=
  ⟨left.1.trans right.1, left.2.1.trans right.2.1,
    fun id => (left.2.2 id).trans (right.2.2 id)⟩

theorem resetStats_sameButCounts (graph : Graph β α μ) (channel : ChannelId) :
    (graph.resetStats channel).SameButCounts graph :=
  ⟨rfl, frame_resetStats graph channel, Bank.items_channel_resetStats graph.bank channel⟩

theorem auditInputs_sameButCounts (graph : Graph β α μ) (worker : Label) (port : Nat)
    (inputs : List (ChannelId × Rate × Rate)) :
    (graph.auditInputs worker port inputs).2.SameButCounts graph := by
  induction inputs generalizing graph port with
  | nil => exact ⟨rfl, rfl, fun _ => rfl⟩
  | cons input rest inductionHypothesis =>
      obtain ⟨channel, peek, pop⟩ := input
      unfold auditInputs
      split
      next => exact ⟨rfl, rfl, fun _ => rfl⟩
      next => exact (inductionHypothesis _ _).trans (resetStats_sameButCounts graph channel)

private theorem auditOutputs_sameButCounts (graph : Graph β α μ) (worker : Label) (port : Nat)
    (outputs : List (ChannelId × Rate)) :
    (graph.auditOutputs worker port outputs).2.SameButCounts graph := by
  induction outputs generalizing graph port with
  | nil => exact ⟨rfl, rfl, fun _ => rfl⟩
  | cons output rest inductionHypothesis =>
      obtain ⟨channel, push⟩ := output
      unfold auditOutputs
      split
      next => exact ⟨rfl, rfl, fun _ => rfl⟩
      next => exact (inductionHypothesis _ _).trans (resetStats_sameButCounts graph channel)

theorem audit_sameButCounts (graph : Graph β α μ) (id : WorkerId) :
    (graph.audit id).2.SameButCounts graph := by
  unfold audit
  split
  next => exact ⟨rfl, rfl, fun _ => rfl⟩
  next worker known =>
    dsimp only
    have inputsKept := graph.auditInputs_sameButCounts worker.label 0
      (worker.inputChannels.zip (worker.rates.peek.zip worker.rates.pop))
    split
    next error left audited =>
      rw [audited] at inputsKept
      exact inputsKept
    next left audited =>
      rw [audited] at inputsKept
      exact (left.auditOutputs_sameButCounts _ _ _).trans inputsKept

end Graph

/-- Whatever follows a firing changes nothing but counts. -/
theorem Delegate.afterFire_sameButCounts (delegate : Delegate) (number : Nat)
    (graph : Graph β α μ) (worker : WorkerId) :
    (delegate.afterFire number graph worker).2.SameButCounts graph := by
  have kept : (if delegate.audits then graph.audit worker else (.ok (), graph)).2.SameButCounts
      graph := by
    split
    · exact graph.audit_sameButCounts worker
    · exact ⟨rfl, rfl, fun _ => rfl⟩
  unfold afterFire
  dsimp only
  split
  next => exact kept
  next => split <;> exact kept

end DemandFlow
