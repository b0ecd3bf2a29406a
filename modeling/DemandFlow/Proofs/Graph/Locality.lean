import DemandFlow.Proofs.Graph.Assembly
import DemandFlow.Proofs.Messages.Routing

/-!
Firings are local. A firing changes the count of its own worker only, and in a bank without
shared buffers it touches only the channels on the ports of that worker. So an input is out
of reach for everybody but its worker and the peer that feeds it.
-/

set_option autoImplicit false

namespace DemandFlow.Graph

variable {β α μ : Type}

theorem routeOutbox_others (graph : Graph β α μ) (sender : WorkerId) (sent : Nat)
    (outbox : List (Outgoing μ)) :
    (graph.routeOutbox sender sent outbox).2.bank = graph.bank ∧
      ∀ id, (graph.routeOutbox sender sent outbox).2.executions? id = graph.executions? id := by
  have ended := routeOutbox_induction
    (fun left : Graph β α μ => left.bank = graph.bank ∧
      ∀ id, left.executions? id = graph.executions? id)
    (fun _ left => left.bank = graph.bank ∧
      ∀ id, left.executions? id = graph.executions? id)
    (fun left outgoing recipient same => by
      have view := left.routeTo_view sender sent outgoing recipient
      generalize left.routeTo sender sent outgoing recipient = outcome at view
      cases view with
      | undeclared absent => exact same
      | unknown absent => exact same
      | late declared known passed => exact same
      | @queued constraint worker declared known inTime =>
          refine ⟨same.1, fun id => ?_⟩
          rw [executions?_setWorker known (worker.enqueue _) rfl]
          exact same.2 id)
    (fun left portal same => same) graph outbox ⟨rfl, fun _ => rfl⟩
  generalize graph.routeOutbox sender sent outbox = outcome at ended
  obtain ⟨answer, left⟩ := outcome
  cases answer with
  | ok done => exact ended
  | error error => exact ended

variable [Recipient β μ] [Work β α μ]

theorem executions?_fire_of_ne (graph : Graph β α μ) {id other : WorkerId}
    (different : other ≠ id) :
    (graph.fire id).2.executions? other = graph.executions? other := by
  have view := graph.fire_view id
  generalize graph.fire id = outcome at view
  cases view with
  | unknown absent => rfl
  | undelivered known delivery => exact executions?_setWorker_of_ne graph _ different
  | failed known delivery run => exact executions?_setWorker_of_ne graph _ different
  | worked known delivery run routing =>
      rw [← routing, (routeOutbox_others _ id _ _).2]
      exact executions?_setWorker_of_ne graph _ different

omit [Recipient β μ] in
theorem channel_runBody_of_no_port {graph : Graph β α μ} (unshared : graph.bank.Unshared)
    {id : WorkerId} {worker ready : Worker β μ} (known : graph.worker? id = some worker)
    (same : ready.frame = worker.frame) {channel : ChannelId}
    (noInput : ∀ port ∈ graph.frame.wiring.inputs id, channel ≠ port.channel)
    (noOutput : ∀ port ∈ graph.frame.wiring.outputs id, channel ≠ port.channel) :
    (graph.runBody id ready).2.bank.channel channel = graph.bank.channel channel := by
  rw [wiring_inputs known] at noInput
  rw [wiring_outputs known] at noOutput
  have inputs : ready.inputs = worker.inputs := congrArg WorkerFrame.inputs same
  have outputs : ready.outputs = worker.outputs := congrArg WorkerFrame.outputs same
  unfold runBody
  apply Routine.channel_run_of_no_port
  · exact unshared
  · rw [inputs]
    exact noInput
  · rw [outputs]
    exact noOutput

theorem channel_fire_of_no_port {graph : Graph β α μ} (unshared : graph.bank.Unshared)
    (id : WorkerId) {channel : ChannelId}
    (noInput : ∀ port ∈ graph.frame.wiring.inputs id, channel ≠ port.channel)
    (noOutput : ∀ port ∈ graph.frame.wiring.outputs id, channel ≠ port.channel) :
    (graph.fire id).2.bank.channel channel = graph.bank.channel channel := by
  have view := graph.fire_view id
  generalize graph.fire id = outcome at view
  cases view with
  | unknown absent => rfl
  | undelivered known delivery => rfl
  | failed known delivery run =>
      have kept := channel_runBody_of_no_port unshared known (Worker.frame_deliverDue delivery)
        noInput noOutput
      rw [run] at kept
      exact kept
  | worked known delivery run routing =>
      have kept := channel_runBody_of_no_port unshared known (Worker.frame_deliverDue delivery)
        noInput noOutput
      rw [run] at kept
      rw [← routing, (routeOutbox_others _ id _ _).1]
      exact kept

theorem channel_fire_of_input {graph : Graph β α μ} (unshared : graph.bank.Unshared)
    (sound : graph.frame.Sound) {id other : WorkerId} (different : other ≠ id) {port : Port}
    (mine : port ∈ graph.frame.wiring.inputs other) (notFeeding : port.peer ≠ some id) :
    (graph.fire id).2.bank.channel port.channel = graph.bank.channel port.channel := by
  obtain ⟨index, place⟩ := List.mem_iff_getElem?.mp mine
  apply channel_fire_of_no_port unshared id
  · intro input member same
    obtain ⟨inputIndex, inputPlace⟩ := List.mem_iff_getElem?.mp member
    exact different
      (sound.wiring.inputOnce other id index inputIndex port input place inputPlace same).1
  · intro output member same
    obtain ⟨outputIndex, outputPlace⟩ := List.mem_iff_getElem?.mp member
    exact notFeeding
      (sound.wiring.ends id other outputIndex index output port outputPlace place same.symm).2.1

end DemandFlow.Graph
