import DemandFlow.Interpreter.Section

/-!
What a running graph never changes: which workers there are, how they are connected,
at which rates, under which constraints, and which channels share buffers. This part of
a graph is its frame, and every operation on a built graph keeps it.
-/

set_option autoImplicit false

namespace DemandFlow

variable {β α μ ρ : Type}

def Slot.key? : Slot α → Option Nat
  | .own _ => none
  | .shared key => some key

namespace Bank

def keys (bank : Bank α) : List (Option Nat) :=
  bank.slots.map Slot.key?

theorem size_of_keys_eq {left right : Bank α} (same : left.keys = right.keys) :
    left.size = right.size := by
  have lengths := congrArg List.length same
  simpa only [size, keys, List.length_map] using lengths

theorem keys_get_shared {bank : Bank α} {id : ChannelId} {key : Nat} :
    bank.keys[id]? = some (some key) ↔ bank.slots[id]? = some (.shared key) := by
  unfold keys
  rw [List.getElem?_map]
  cases place : bank.slots[id]? with
  | none => simp only [Option.map_none, reduceCtorEq]
  | some slot =>
      cases slot with
      | own channel => simp only [Option.map_some, Slot.key?, Option.some.injEq, reduceCtorEq]
      | shared other => simp only [Option.map_some, Slot.key?, Option.some.injEq, Slot.shared.injEq]

theorem Unshared.of_keys_eq {left right : Bank α} (unshared : left.Unshared)
    (same : left.keys = right.keys) : right.Unshared := by
  intro first second key firstFound secondFound
  rw [← keys_get_shared, ← same, keys_get_shared] at firstFound secondFound
  exact unshared first second key firstFound secondFound

theorem unshared_of_own {bank : Bank α} (own : ∀ key ∈ bank.keys, key = none) :
    bank.Unshared := by
  intro left right key leftShared _
  have impossible := own _ (List.mem_of_getElem? (keys_get_shared.mpr leftShared))
  cases impossible

@[simp]
theorem keys_set (bank : Bank α) (id : ChannelId) (channel : Channel α) :
    (bank.set id channel).keys = bank.keys := by
  unfold set
  split
  next => rfl
  next other place =>
    apply List.ext_getElem?
    intro index
    by_cases same : id = index
    · subst same
      have within : id < bank.slots.length := (List.getElem?_eq_some_iff.mp place).1
      unfold keys
      rw [List.getElem?_map, List.getElem?_map, List.getElem?_set_self within, place]
      rfl
    · simp only [keys, List.map_set, List.getElem?_set_ne same, List.getElem?_map]
  next => rfl

@[simp]
theorem keys_push (bank : Bank α) (id : ChannelId) (element : α) :
    (bank.push id element).keys = bank.keys :=
  keys_set bank id _

@[simp]
theorem keys_pop (bank : Bank α) (id : ChannelId) : (bank.pop id).2.keys = bank.keys :=
  keys_set bank id _

@[simp]
theorem keys_peek (bank : Bank α) (id : ChannelId) (index : Nat) :
    (bank.peek id index).2.keys = bank.keys :=
  keys_set bank id _

/-- Resetting the counts of a channel leaves the elements of every channel alone, whoever
shares buffers with whom. -/
@[simp]
theorem items_channel_resetStats (bank : Bank α) (id other : ChannelId) :
    ((bank.resetStats id).channel other).items = (bank.channel other).items := by
  unfold resetStats set
  split
  next => rfl
  next channel place =>
    by_cases same : id = other
    · subst same
      have within : id < bank.slots.length := (List.getElem?_eq_some_iff.mp place).1
      simp [Bank.channel, channel?, within]
    · simp only [Bank.channel, channel?, List.getElem?_set_ne same]
  next key place =>
    cases otherPlace : bank.slots[other]? with
    | none => simp only [channel, channel?, otherPlace, Option.map_none, Option.getD_none]
    | some slot =>
        cases slot with
        | own channel =>
            simp only [Bank.channel, channel?, otherPlace, Option.map_some, Option.getD_some]
        | shared otherKey =>
            by_cases sameKey : otherKey = key
            · subst sameKey
              simp [Bank.channel, channel?, otherPlace, place]
            · simp [Bank.channel, channel?, otherPlace, Pool.buffer_set_of_ne _ _ sameKey]

end Bank

namespace Routine

@[simp]
theorem keys_run (worker : WorkerId) (inputs outputs : List Port) (routine : Routine α μ ρ)
    (scene : Scene α μ) :
    (routine.run worker inputs outputs scene).2.bank.keys = scene.bank.keys := by
  induction routine generalizing scene with
  | done result => rfl
  | pop input next inductionHypothesis =>
      unfold run
      cases inputs[input]? with
      | none => exact inductionHypothesis _ scene
      | some port => exact (inductionHypothesis _ _).trans (Bank.keys_pop _ _)
  | peek input index next inductionHypothesis =>
      unfold run
      cases inputs[input]? with
      | none => exact inductionHypothesis _ scene
      | some port => exact (inductionHypothesis _ _).trans (Bank.keys_peek _ _ _)
  | available input next inductionHypothesis =>
      unfold run
      cases inputs[input]? with
      | none => exact inductionHypothesis _ scene
      | some port => exact inductionHypothesis _ scene
  | push output element next inductionHypothesis =>
      unfold run
      cases outputs[output]? with
      | none => exact inductionHypothesis _ scene
      | some port => exact (inductionHypothesis _ _).trans (Bank.keys_push _ _ _)
  | send portal payload next inductionHypothesis => exact inductionHypothesis _

/-- A routine touches only the channels on the ports of its worker. -/
theorem channel_run_of_no_port (worker : WorkerId) (inputs outputs : List Port)
    (routine : Routine α μ ρ) (scene : Scene α μ) (unshared : scene.bank.Unshared)
    (id : ChannelId) (noInput : ∀ port ∈ inputs, id ≠ port.channel)
    (noOutput : ∀ port ∈ outputs, id ≠ port.channel) :
    (routine.run worker inputs outputs scene).2.bank.channel id = scene.bank.channel id := by
  induction routine generalizing scene with
  | done result => rfl
  | pop input next inductionHypothesis =>
      unfold run
      cases place : inputs[input]? with
      | none => exact inductionHypothesis _ scene unshared
      | some port =>
          have different := noInput port (List.mem_of_getElem? place)
          exact (inductionHypothesis _ _ (unshared.set _ _)).trans
            (Bank.channel_set_of_ne unshared _ different)
  | peek input index next inductionHypothesis =>
      unfold run
      cases place : inputs[input]? with
      | none => exact inductionHypothesis _ scene unshared
      | some port =>
          have different := noInput port (List.mem_of_getElem? place)
          exact (inductionHypothesis _ _ (unshared.set _ _)).trans
            (Bank.channel_set_of_ne unshared _ different)
  | available input next inductionHypothesis =>
      unfold run
      cases inputs[input]? with
      | none => exact inductionHypothesis _ scene unshared
      | some port => exact inductionHypothesis _ scene unshared
  | push output element next inductionHypothesis =>
      unfold run
      cases place : outputs[output]? with
      | none => exact inductionHypothesis _ scene unshared
      | some port =>
          have different := noOutput port (List.mem_of_getElem? place)
          exact (inductionHypothesis _ _ (unshared.set _ _)).trans
            (Bank.channel_set_of_ne unshared _ different)
  | send portal payload next inductionHypothesis => exact inductionHypothesis _ unshared

end Routine

structure WorkerFrame where
  id : WorkerId
  name : String
  kind : WorkerKind
  inputs : List Port
  outputs : List Port
  rates : WorkerRates
  bodyType : BodyType

namespace Worker

def frame (worker : Worker β μ) : WorkerFrame :=
  { id := worker.id
    name := worker.name
    kind := worker.kind
    inputs := worker.inputs
    outputs := worker.outputs
    rates := worker.rates
    bodyType := worker.bodyType }

theorem frame_deliver [Recipient β μ] (worker : Worker β μ) (messages : List (Message μ)) :
    (worker.deliver messages).2.frame = worker.frame := by
  induction messages generalizing worker with
  | nil => rfl
  | cons message rest inductionHypothesis =>
      unfold deliver
      split
      · rfl
      · split
        · rfl
        · split
          · rw [inductionHypothesis]
            rfl
          · rfl

theorem executions_deliver [Recipient β μ] (worker : Worker β μ) (messages : List (Message μ)) :
    (worker.deliver messages).2.executions = worker.executions := by
  induction messages generalizing worker with
  | nil => rfl
  | cons message rest inductionHypothesis =>
      unfold deliver
      split
      · rfl
      · split
        · rfl
        · split
          · rw [inductionHypothesis]
          · rfl

private theorem frame_sendMessage (worker : Worker β μ) (message : Message μ) :
    (worker.sendMessage message).2.frame = worker.frame := by
  unfold sendMessage
  split <;> rfl

theorem executions_sendMessage (worker : Worker β μ) (message : Message μ) :
    (worker.sendMessage message).2.executions = worker.executions := by
  unfold sendMessage
  split <;> rfl

theorem body_sendMessage (worker : Worker β μ) (message : Message μ) :
    (worker.sendMessage message).2.body = worker.body := by
  unfold sendMessage
  split <;> rfl

end Worker

namespace Graph

theorem forall_setWorker {graph : Graph β α μ} {holds : WorkerId → Worker β μ → Prop}
    {id : WorkerId} {new : Worker β μ}
    (before : ∀ other worker, graph.worker? other = some worker → holds other worker)
    (here : holds id new) :
    ∀ other worker, (graph.setWorker id new).worker? other = some worker →
      holds other worker := by
  intro other worker known
  by_cases same : other = id
  · subst same
    by_cases within : other < graph.workers.length
    · rw [worker?_setWorker_self graph new within] at known
      cases known
      exact here
    · simp [worker?, setWorker, within] at known
  · rw [worker?_setWorker_of_ne graph new same] at known
    exact before other worker known

theorem executions?_of_known {graph : Graph β α μ} {id : WorkerId} {worker : Worker β μ}
    (known : graph.worker? id = some worker) : graph.executions? id = some worker.executions := by
  unfold executions?
  rw [known]
  rfl

theorem executions?_setWorker_of_ne (graph : Graph β α μ) {id other : WorkerId}
    (worker : Worker β μ) (different : other ≠ id) :
    (graph.setWorker id worker).executions? other = graph.executions? other := by
  unfold executions?
  rw [worker?_setWorker_of_ne graph worker different]

theorem executions?_setWorker_self {graph : Graph β α μ} {id : WorkerId} {old : Worker β μ}
    (known : graph.worker? id = some old) (new : Worker β μ) :
    (graph.setWorker id new).executions? id = some new.executions :=
  executions?_of_known
    (worker?_setWorker_self graph new (List.getElem?_eq_some_iff.mp known).1)

theorem executions?_setWorker {graph : Graph β α μ} {id : WorkerId} {old : Worker β μ}
    (known : graph.worker? id = some old) (new : Worker β μ)
    (same : new.executions = old.executions) (other : WorkerId) :
    (graph.setWorker id new).executions? other = graph.executions? other := by
  by_cases here : other = id
  · subst here
    rw [executions?_setWorker_self known, executions?_of_known known, same]
  · exact executions?_setWorker_of_ne graph new here

end Graph

structure GraphFrame where
  workers : List WorkerFrame
  keys : List (Option Nat)
  constraints : List Constraint
  recipients : List (List WorkerId)
  topology : List Edge

namespace Graph

def frame (graph : Graph β α μ) : GraphFrame :=
  { workers := graph.workers.map Worker.frame
    keys := graph.bank.keys
    constraints := graph.constraints
    recipients := graph.recipients
    topology := graph.topology }

theorem frame_setWorker (graph : Graph β α μ) {id : WorkerId} {old new : Worker β μ}
    (known : graph.worker? id = some old) (same : new.frame = old.frame) :
    (graph.setWorker id new).frame = graph.frame := by
  have workersEq : (graph.workers.set id new).map Worker.frame =
      graph.workers.map Worker.frame := by
    apply List.ext_getElem?
    intro index
    by_cases here : id = index
    · subst here
      have within : id < graph.workers.length := (List.getElem?_eq_some_iff.mp known).1
      rw [List.getElem?_map, List.getElem?_map, List.getElem?_set_self within]
      unfold worker? at known
      rw [known, Option.map_some, Option.map_some, same]
    · rw [List.getElem?_map, List.getElem?_map, List.getElem?_set_ne here]
  unfold frame setWorker
  simp only [workersEq]

theorem frame_withBank (graph : Graph β α μ) {bank : Bank α}
    (same : bank.keys = graph.bank.keys) : { graph with bank := bank }.frame = graph.frame := by
  unfold frame
  simp only [same]

theorem frame_routeTo (graph : Graph β α μ) (sender : WorkerId) (sent : Nat)
    (outgoing : Outgoing μ) (recipient : WorkerId) :
    (graph.routeTo sender sent outgoing recipient).2.frame = graph.frame := by
  unfold routeTo
  dsimp only
  split
  next => rfl
  next constraint found =>
    split
    next => rfl
    next worker known => exact frame_setWorker graph known (Worker.frame_sendMessage _ _)

theorem frame_routeAll (graph : Graph β α μ) (sender : WorkerId) (sent : Nat)
    (outgoing : Outgoing μ) (recipients : List WorkerId) :
    (graph.routeAll sender sent outgoing recipients).2.frame = graph.frame := by
  induction recipients generalizing graph with
  | nil => rfl
  | cons recipient rest inductionHypothesis =>
      have first := frame_routeTo graph sender sent outgoing recipient
      unfold routeAll
      split
      next error left routed =>
        rw [routed] at first
        exact first
      next left routed =>
        rw [routed] at first
        exact (inductionHypothesis left).trans first

theorem frame_routeOutbox (graph : Graph β α μ) (sender : WorkerId) (sent : Nat)
    (outbox : List (Outgoing μ)) :
    (graph.routeOutbox sender sent outbox).2.frame = graph.frame := by
  induction outbox generalizing graph with
  | nil => rfl
  | cons outgoing rest inductionHypothesis =>
      unfold routeOutbox
      split
      next => rfl
      next recipients found =>
        have first := frame_routeAll graph sender sent outgoing recipients
        split
        next error left routed =>
          rw [routed] at first
          exact first
        next left routed =>
          rw [routed] at first
          exact (inductionHypothesis left).trans first

end Graph

end DemandFlow
