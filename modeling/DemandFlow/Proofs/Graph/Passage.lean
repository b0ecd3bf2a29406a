import DemandFlow.Proofs.Graph.Locality

/-!
What passes through channels in one firing. Without shared buffers a channel that is on no
input of the fired worker only gains elements at its back, and one that is on no output of it
only loses elements from its front, whether the firing succeeds or fails. Among the workers
only the fired one and the recipients of constraints declared for it are touched.
-/

set_option autoImplicit false

namespace DemandFlow

variable {β α μ ρ : Type}

namespace Bank

theorem items_pop_self (bank : Bank α) (id : ChannelId) :
    ((bank.pop id).2.channel id).items = (bank.channel id).items.tail := by
  change ((bank.set id (bank.channel id).pop.2).channel id).items = _
  by_cases known : id < bank.size
  · rw [channel_set_self bank _ known, Channel.items_pop]
  · have absent : bank.slots[id]? = none := List.getElem?_eq_none (Nat.le_of_not_lt known)
    simp [set, channel, channel?, absent]

private theorem items_peek_self (bank : Bank α) (id : ChannelId) (index : Nat) :
    ((bank.peek id index).2.channel id).items = (bank.channel id).items := by
  change ((bank.set id ((bank.channel id).peek index).2).channel id).items = _
  by_cases known : id < bank.size
  · rw [channel_set_self bank _ known, Channel.items_peek]
  · have absent : bank.slots[id]? = none := List.getElem?_eq_none (Nat.le_of_not_lt known)
    simp [set, channel, channel?, absent]

private theorem items_push_self (bank : Bank α) (id : ChannelId) (element : α) :
    (bank.channel id).items <+: ((bank.push id element).channel id).items := by
  unfold push
  by_cases known : id < bank.size
  · rw [channel_set_self bank _ known, Channel.items_push]
    exact List.prefix_append _ _
  · have absent : bank.slots[id]? = none := List.getElem?_eq_none (Nat.le_of_not_lt known)
    simp [set, channel, channel?, absent]

end Bank

namespace Routine

/-- What pops and looks at the inputs and pushes at the outputs keep is kept by a whole
routine. -/
theorem run_induction (holds : Bank α → Prop) {inputs outputs : List Port}
    (pops : ∀ bank, ∀ port ∈ inputs, holds bank → holds (bank.pop port.channel).2)
    (peeks : ∀ bank, ∀ port ∈ inputs, ∀ index, holds bank →
      holds (bank.peek port.channel index).2)
    (pushes : ∀ bank, ∀ port ∈ outputs, ∀ element, holds bank →
      holds (bank.push port.channel element))
    (worker : WorkerId) (routine : Routine α μ ρ) (scene : Scene α μ)
    (start : holds scene.bank) :
    holds (routine.run worker inputs outputs scene).2.bank := by
  induction routine generalizing scene with
  | done result => exact start
  | pop input next inductionHypothesis =>
      unfold run
      cases place : inputs[input]? with
      | none => exact inductionHypothesis _ scene start
      | some port =>
          exact inductionHypothesis _ _ (pops _ port (List.mem_of_getElem? place) start)
  | peek input index next inductionHypothesis =>
      unfold run
      cases place : inputs[input]? with
      | none => exact inductionHypothesis _ scene start
      | some port =>
          exact inductionHypothesis _ _ (peeks _ port (List.mem_of_getElem? place) index start)
  | available input next inductionHypothesis =>
      unfold run
      cases inputs[input]? with
      | none => exact inductionHypothesis _ scene start
      | some port => exact inductionHypothesis _ scene start
  | push output element next inductionHypothesis =>
      unfold run
      cases place : outputs[output]? with
      | none => exact inductionHypothesis _ scene start
      | some port =>
          exact inductionHypothesis _ _ (pushes _ port (List.mem_of_getElem? place) element start)
  | send portal payload next inductionHypothesis => exact inductionHypothesis _ start

private theorem items_run_gain (worker : WorkerId) {inputs outputs : List Port}
    (routine : Routine α μ ρ) (scene : Scene α μ) (unshared : scene.bank.Unshared)
    {id : ChannelId} (noInput : ∀ port ∈ inputs, id ≠ port.channel) :
    (scene.bank.channel id).items <+:
      ((routine.run worker inputs outputs scene).2.bank.channel id).items := by
  refine (run_induction
    (fun bank => bank.Unshared ∧ (scene.bank.channel id).items <+: (bank.channel id).items)
    ?_ ?_ ?_ worker routine scene ⟨unshared, List.prefix_refl _⟩).2
  · rintro bank port member ⟨separate, gained⟩
    refine ⟨separate.set _ _, ?_⟩
    change _ <+: ((bank.set port.channel _).channel id).items
    rw [Bank.channel_set_of_ne separate _ (noInput port member)]
    exact gained
  · rintro bank port member index ⟨separate, gained⟩
    refine ⟨separate.set _ _, ?_⟩
    change _ <+: ((bank.set port.channel _).channel id).items
    rw [Bank.channel_set_of_ne separate _ (noInput port member)]
    exact gained
  · rintro bank port member element ⟨separate, gained⟩
    refine ⟨separate.set _ _, ?_⟩
    by_cases here : id = port.channel
    · subst here
      exact gained.trans (bank.items_push_self _ element)
    · unfold Bank.push
      rw [Bank.channel_set_of_ne separate _ here]
      exact gained

theorem items_run_loss (worker : WorkerId) {inputs outputs : List Port}
    (routine : Routine α μ ρ) (scene : Scene α μ) (unshared : scene.bank.Unshared)
    {id : ChannelId} (noOutput : ∀ port ∈ outputs, id ≠ port.channel) :
    ((routine.run worker inputs outputs scene).2.bank.channel id).items <:+
      (scene.bank.channel id).items := by
  refine (run_induction
    (fun bank => bank.Unshared ∧ (bank.channel id).items <:+ (scene.bank.channel id).items)
    ?_ ?_ ?_ worker routine scene ⟨unshared, List.suffix_refl _⟩).2
  · rintro bank port member ⟨separate, lost⟩
    refine ⟨separate.set _ _, ?_⟩
    by_cases here : id = port.channel
    · subst here
      rw [Bank.items_pop_self]
      exact (List.tail_suffix _).trans lost
    · change ((bank.set port.channel _).channel id).items <:+ _
      rw [Bank.channel_set_of_ne separate _ here]
      exact lost
  · rintro bank port member index ⟨separate, lost⟩
    refine ⟨separate.set _ _, ?_⟩
    by_cases here : id = port.channel
    · subst here
      rw [Bank.items_peek_self]
      exact lost
    · change ((bank.set port.channel _).channel id).items <:+ _
      rw [Bank.channel_set_of_ne separate _ here]
      exact lost
  · rintro bank port member element ⟨separate, lost⟩
    refine ⟨separate.set _ _, ?_⟩
    unfold Bank.push
    rw [Bank.channel_set_of_ne separate _ (noOutput port member)]
    exact lost

end Routine

namespace Graph

variable [Recipient β μ] [Work β α μ]

/-- A firing leaves the channels alone or as one run of the body leaves them. -/
theorem bank_fire (graph : Graph β α μ) (id : WorkerId) :
    (graph.fire id).2.bank = graph.bank ∨
      ∃ ready : Worker β μ, ready.inputs = graph.frame.wiring.inputs id ∧
        ready.outputs = graph.frame.wiring.outputs id ∧
        (graph.fire id).2.bank = (graph.runBody id ready).2.bank := by
  have ports {worker ready : Worker β μ} {answer : Except Error Unit}
      (known : graph.worker? id = some worker) (delivery : worker.deliverDue = (answer, ready)) :
      ready.inputs = graph.frame.wiring.inputs id ∧
        ready.outputs = graph.frame.wiring.outputs id := by
    have same := Worker.frame_deliverDue delivery
    rw [wiring_inputs known, wiring_outputs known]
    exact ⟨congrArg WorkerFrame.inputs same, congrArg WorkerFrame.outputs same⟩
  have view := graph.fire_view id
  generalize graph.fire id = outcome at view
  cases view with
  | unknown absent => exact .inl rfl
  | undelivered known delivery => exact .inl rfl
  | @failed worker ready error body scene known delivery run =>
      obtain ⟨inputs, outputs⟩ := ports known delivery
      exact .inr ⟨ready, inputs, outputs, by rw [run]⟩
  | @worked worker ready body scene _ known delivery run routing =>
      obtain ⟨inputs, outputs⟩ := ports known delivery
      refine .inr ⟨ready, inputs, outputs, ?_⟩
      rw [← routing, (routeOutbox_others _ id _ _).1, run]
      rfl

theorem items_fire_gain {graph : Graph β α μ} (unshared : graph.bank.Unshared) (id : WorkerId)
    {channel : ChannelId}
    (noInput : ∀ port ∈ graph.frame.wiring.inputs id, channel ≠ port.channel) :
    (graph.bank.channel channel).items <+:
      ((graph.fire id).2.bank.channel channel).items := by
  rcases graph.bank_fire id with same | ⟨ready, inputs, _, same⟩
  · simp only [same, List.prefix_refl]
  · rw [same]
    exact Routine.items_run_gain id _ { bank := graph.bank } unshared (inputs ▸ noInput)

theorem items_fire_loss {graph : Graph β α μ} (unshared : graph.bank.Unshared) (id : WorkerId)
    {channel : ChannelId}
    (noOutput : ∀ port ∈ graph.frame.wiring.outputs id, channel ≠ port.channel) :
    ((graph.fire id).2.bank.channel channel).items <:+
      (graph.bank.channel channel).items := by
  rcases graph.bank_fire id with same | ⟨ready, _, outputs, same⟩
  · simp only [same, List.suffix_refl]
  · rw [same]
    exact Routine.items_run_loss id _ { bank := graph.bank } unshared (outputs ▸ noOutput)

omit [Recipient β μ] [Work β α μ] in
private theorem worker?_routeOutbox_of_undeclared (graph : Graph β α μ) {sender other : WorkerId}
    (undeclared : ∀ constraint ∈ graph.constraints, constraint.sender = sender →
      constraint.recipient ≠ other) (sent : Nat) (outbox : List (Outgoing μ)) :
    (graph.routeOutbox sender sent outbox).2.worker? other = graph.worker? other := by
  have ended := routeOutbox_induction
    (fun left : Graph β α μ => left.constraints = graph.constraints ∧
      left.worker? other = graph.worker? other)
    (fun _ left => left.constraints = graph.constraints ∧
      left.worker? other = graph.worker? other)
    (fun left outgoing recipient same => by
      have view := left.routeTo_view sender sent outgoing recipient
      generalize left.routeTo sender sent outgoing recipient = outcome at view
      cases view with
      | undeclared absent => exact same
      | unknown absent => exact same
      | late declared known passed => exact same
      | queued declared known inTime =>
          obtain ⟨member, route⟩ := constraintFor?_eq_some declared
          have different := undeclared _ (same.1 ▸ member) (congrArg Route.sender route)
          have reached : recipient ≠ other := fun equal =>
            different ((congrArg Route.recipient route).trans equal)
          exact ⟨same.1, (worker?_setWorker_of_ne left _ reached.symm).trans same.2⟩)
    (fun left portal same => same) graph outbox ⟨rfl, rfl⟩
  generalize graph.routeOutbox sender sent outbox = outcome at ended
  obtain ⟨answer, left⟩ := outcome
  cases answer with
  | ok done => exact ended.2
  | error error => exact ended.2

theorem executions?_fire_self {graph left : Graph β α μ} {id : WorkerId} {worker : Worker β μ}
    (known : graph.worker? id = some worker) (firing : graph.fire id = (.ok (), left)) :
    left.executions? id = some (worker.executions + 1) := by
  have view := graph.fire_view id
  rw [firing] at view
  cases view with
  | @worked other ready body scene _ otherKnown delivery run routing =>
      rw [known] at otherKnown
      cases otherKnown
      have routed := (routeOutbox_others (graph.worked id ready body scene.bank) id
        ready.executions scene.outbox).2 id
      rw [routing] at routed
      rw [routed, ← Worker.executions_deliverDue delivery]
      exact executions?_setWorker_self known _

/-- Who is neither fired nor to get messages from the fired worker stays as it is. -/
theorem worker?_fire_of_undeclared {graph : Graph β α μ} {id other : WorkerId}
    (different : other ≠ id)
    (undeclared : ∀ constraint ∈ graph.constraints, constraint.sender = id →
      constraint.recipient ≠ other) :
    (graph.fire id).2.worker? other = graph.worker? other := by
  have view := graph.fire_view id
  generalize graph.fire id = outcome at view
  cases view with
  | unknown absent => rfl
  | undelivered known delivery => exact worker?_setWorker_of_ne graph _ different
  | failed known delivery run => exact worker?_setWorker_of_ne graph _ different
  | @worked worker ready body scene _ known delivery run routing =>
      rw [← routing]
      exact (worker?_routeOutbox_of_undeclared (graph.worked id ready body scene.bank)
        undeclared _ _).trans (worker?_setWorker_of_ne graph _ different)

end Graph

end DemandFlow
