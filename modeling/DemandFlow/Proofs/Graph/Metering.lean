import DemandFlow.Proofs.Graph.Passage
import DemandFlow.Proofs.Stream.Auditing
import DemandFlow.Proofs.Stream.Handling

/-!
Metering firings. The accesses of a firing are the requests that its ports grant, listed as
the body makes them and without regard to any counts. Channels whose counts are at zero
before a firing count exactly its accesses, and an audit after it comes to the verdict on
them: the first count, port by port, that lies outside its declared rate.
-/

set_option autoImplicit false

namespace DemandFlow

variable {β α μ ρ : Type}

inductive Access where
  | popped (input : Nat)
  | peeked (input index : Nat)
  | pushed (output : Nat)
  deriving DecidableEq

namespace Access

def granted {γ : Type} (access : Access) : Except Error γ → List Access
  | .ok _ => [access]
  | .error _ => []

/-- How many elements of an input the access needs to see. -/
def depth (input : Nat) : Access → Nat
  | .peeked other index => if other = input then index + 1 else 0
  | .popped _ | .pushed _ => 0

def reach (accesses : List Access) (input : Nat) : Nat :=
  accesses.foldl (fun reached access => max reached (access.depth input)) 0

def pops (accesses : List Access) (input : Nat) : Nat :=
  accesses.count (.popped input)

def pushes (accesses : List Access) (output : Nat) : Nat :=
  accesses.count (.pushed output)

@[simp]
theorem reach_concat (accesses : List Access) (access : Access) (input : Nat) :
    reach (accesses ++ [access]) input = max (reach accesses input) (access.depth input) := by
  simp only [reach, List.foldl_append, List.foldl_cons, List.foldl_nil]

@[simp]
theorem pops_concat (accesses : List Access) (access : Access) (input : Nat) :
    pops (accesses ++ [access]) input =
      pops accesses input + if access = .popped input then 1 else 0 := by
  simp only [pops, List.count_append, List.count_singleton, beq_iff_eq]

@[simp]
theorem pushes_concat (accesses : List Access) (access : Access) (output : Nat) :
    pushes (accesses ++ [access]) output =
      pushes accesses output + if access = .pushed output then 1 else 0 := by
  simp only [pushes, List.count_append, List.count_singleton, beq_iff_eq]

end Access

def Routine.accesses (worker : WorkerId) (inputs outputs : List Port) :
    Routine α μ ρ → Bank α → List Access
  | .done _, _ => []
  | .pop input next, bank =>
      match inputs[input]? with
      | none => (next (.error (.invalidGraph (.missingInput worker input)))).accesses
          worker inputs outputs bank
      | some port =>
          let (answer, left) := bank.pop port.channel
          (Access.popped input).granted answer ++
            (next answer).accesses worker inputs outputs left
  | .peek input index next, bank =>
      match inputs[input]? with
      | none => (next (.error (.invalidGraph (.missingInput worker input)))).accesses
          worker inputs outputs bank
      | some port =>
          let (answer, left) := bank.peek port.channel index
          (Access.peeked input index).granted answer ++
            (next answer).accesses worker inputs outputs left
  | .available input next, bank =>
      match inputs[input]? with
      | none => (next (.error (.invalidGraph (.missingInput worker input)))).accesses
          worker inputs outputs bank
      | some port =>
          (next (.ok (bank.channel port.channel).size)).accesses worker inputs outputs bank
  | .push output element next, bank =>
      match outputs[output]? with
      | none => (next (.error (.invalidGraph (.missingOutput worker output)))).accesses
          worker inputs outputs bank
      | some port =>
          .pushed output ::
            (next (.ok ())).accesses worker inputs outputs (bank.push port.channel element)
  | .send _ _ next, bank => next.accesses worker inputs outputs bank

/-! ### What channels count -/

namespace Channel

/-- What the channel has counted of its reader. -/
def Read (channel : Channel α) (extent pops : Nat) : Prop :=
  ∃ stats, channel.stats = some stats ∧ stats.peekExtent = extent ∧ stats.popCount = pops

/-- What the channel has counted of its writer. -/
def Written (channel : Channel α) (pushes : Nat) : Prop :=
  ∃ stats, channel.stats = some stats ∧ stats.pushCount = pushes

theorem read_of_reset {channel : Channel α} (reset : channel.stats = some {}) :
    channel.Read 0 0 :=
  ⟨{}, reset, rfl, rfl⟩

theorem written_of_reset {channel : Channel α} (reset : channel.stats = some {}) :
    channel.Written 0 :=
  ⟨{}, reset, rfl⟩

variable {channel : Channel α}

theorem Read.pop {earlier : List Access} {input : Nat}
    (counted : channel.Read (Access.reach earlier input) (Access.pops earlier input)) :
    let later := earlier ++ (Access.popped input).granted channel.pop.1
    channel.pop.2.Read (Access.reach later input) (Access.pops later input) := by
  rcases counted with ⟨stats, here, extentEq, popsEq⟩
  unfold Channel.pop pop?
  cases channel.items with
  | nil => simpa only [Access.granted, List.append_nil] using ⟨stats, here, extentEq, popsEq⟩
  | cons front rest =>
      refine ⟨stats.countPop, by simp only [here, Option.map_some], ?_, ?_⟩
      · simpa [Access.granted, Access.depth, ChannelStats.countPop, ChannelStats.peekExtent]
          using extentEq
      · simp [Access.granted, ChannelStats.countPop, popsEq]

theorem Read.peek {earlier : List Access} {input : Nat} (index : Nat)
    (counted : channel.Read (Access.reach earlier input) (Access.pops earlier input)) :
    let later := earlier ++ (Access.peeked input index).granted (channel.peek index).1
    (channel.peek index).2.Read (Access.reach later input) (Access.pops later input) := by
  rcases counted with ⟨stats, here, extentEq, popsEq⟩
  unfold Channel.peek
  cases channel.items[index]? with
  | none => simpa only [Access.granted, List.append_nil] using ⟨stats, here, extentEq, popsEq⟩
  | some element =>
      refine ⟨stats.countPeek index, by simp only [here, Option.map_some], ?_, ?_⟩
      · simp [Access.granted, Access.depth, stats.peekExtent_countPeek, extentEq]
      · simpa [Access.granted, ChannelStats.countPeek] using popsEq

theorem Read.pushAll {extent pops : Nat} (counted : channel.Read extent pops)
    (elements : List α) : (channel.pushAll elements).Read extent pops := by
  rcases counted with ⟨stats, here, extentEq, popsEq⟩
  rw [Read, stats_pushAll, here]
  exact ⟨_, rfl, extentEq, popsEq⟩

private theorem Written.push {pushes : Nat} (counted : channel.Written pushes) (element : α) :
    (channel.push element).Written (pushes + 1) := by
  rcases counted with ⟨stats, here, pushesEq⟩
  exact ⟨stats.countPush, by simp [Channel.push, here], by simp [ChannelStats.countPush, pushesEq]⟩

theorem Written.pop {pushes : Nat} (counted : channel.Written pushes) :
    channel.pop.2.Written pushes := by
  rcases counted with ⟨stats, here, pushesEq⟩
  unfold Channel.pop pop?
  cases channel.items with
  | nil => exact ⟨stats, here, pushesEq⟩
  | cons front rest => exact ⟨stats.countPop, by simp only [here, Option.map_some], pushesEq⟩

theorem Written.popAll {pushes : Nat} (counted : channel.Written pushes) :
    channel.popAll.2.Written pushes := by
  rcases counted with ⟨stats, here, pushesEq⟩
  refine ⟨{ stats with popCount := stats.popCount + channel.size }, ?_, pushesEq⟩
  simp only [Channel.popAll, here, Option.map_some]

end Channel

namespace PortView

structure Metered (portView : PortView α) (accesses : List Access) : Prop where
  inputs : ∀ (index : Nat) (port : Port), portView.inputs[index]? = some port →
    (portView.bank.channel port.channel).Read (Access.reach accesses index)
      (Access.pops accesses index)
  outputs : ∀ (index : Nat) (port : Port), portView.outputs[index]? = some port →
    (portView.bank.channel port.channel).Written (Access.pushes accesses index)

def replace (portView : PortView α) (id : ChannelId) (channel : Channel α) : PortView α :=
  { portView with bank := portView.bank.set id channel }

private theorem Sound.replace {portView : PortView α} {shape : PortShape}
    (sound : portView.Sound shape) (id : ChannelId) (channel : Channel α) :
    (portView.replace id channel).Sound shape where
  inputCount := sound.inputCount
  outputCount := sound.outputCount
  known := by
    intro port member
    unfold PortView.replace
    rw [Bank.size_set]
    exact sound.known port member
  distinct := sound.distinct
  unshared := sound.unshared.set id channel

namespace Metered

variable {portView : PortView α} {shape : PortShape} {earlier later : List Access} {port : Port}
  {channel : Channel α}

/-- What is done on one input is counted there and nowhere else. -/
theorem onInput (metered : portView.Metered earlier) (sound : portView.Sound shape) {input : Nat}
    (place : portView.inputs[input]? = some port)
    (here : channel.Read (Access.reach later input) (Access.pops later input))
    (elsewhere : ∀ index, index ≠ input → Access.reach later index = Access.reach earlier index ∧
      Access.pops later index = Access.pops earlier index)
    (silent : ∀ index, Access.pushes later index = Access.pushes earlier index) :
    (portView.replace port.channel channel).Metered later := by
  constructor
  · intro index other otherAt
    dsimp only [replace] at otherAt ⊢
    by_cases same : index = input
    · subst same
      rw [place] at otherAt
      cases otherAt
      have known := sound.known port (List.mem_append_left _ (List.mem_of_getElem? place))
      rw [Bank.channel_set_self _ _ known]
      exact here
    · rw [Bank.channel_set_of_ne sound.unshared _ (sound.input_ne otherAt place same),
        (elsewhere index same).1, (elsewhere index same).2]
      exact metered.inputs index other otherAt
  · intro index other otherAt
    dsimp only [replace] at otherAt ⊢
    rw [Bank.channel_set_of_ne sound.unshared _ (sound.apart place otherAt).symm, silent]
    exact metered.outputs index other otherAt

private theorem onOutput (metered : portView.Metered earlier) (sound : portView.Sound shape)
    {output : Nat} (place : portView.outputs[output]? = some port)
    (here : channel.Written (Access.pushes later output))
    (elsewhere : ∀ index, index ≠ output →
      Access.pushes later index = Access.pushes earlier index)
    (silent : ∀ index, Access.reach later index = Access.reach earlier index ∧
      Access.pops later index = Access.pops earlier index) :
    (portView.replace port.channel channel).Metered later := by
  constructor
  · intro index other otherAt
    dsimp only [replace] at otherAt ⊢
    rw [Bank.channel_set_of_ne sound.unshared _ (sound.apart otherAt place), (silent index).1,
      (silent index).2]
    exact metered.inputs index other otherAt
  · intro index other otherAt
    dsimp only [replace] at otherAt ⊢
    by_cases same : index = output
    · subst same
      rw [place] at otherAt
      cases otherAt
      have known := sound.known port (List.mem_append_right _ (List.mem_of_getElem? place))
      rw [Bank.channel_set_self _ _ known]
      exact here
    · rw [Bank.channel_set_of_ne sound.unshared _ (sound.output_ne otherAt place same),
        elsewhere index same]
      exact metered.outputs index other otherAt

theorem request (metered : portView.Metered earlier) (sound : portView.Sound shape) {input : Nat}
    (place : portView.inputs[input]? = some port) {access : Access} {γ : Type}
    {answer : Except Error γ}
    (here : channel.Read (Access.reach (earlier ++ access.granted answer) input)
      (Access.pops (earlier ++ access.granted answer) input))
    (own : ∀ index, index ≠ input → access.depth index = 0 ∧ access ≠ .popped index)
    (silent : ∀ index, access ≠ .pushed index) :
    (portView.replace port.channel channel).Metered (earlier ++ access.granted answer) := by
  refine metered.onInput sound place here ?_ ?_
  · intro index different
    cases answer with
    | error error => simp only [Access.granted, List.append_nil, and_self]
    | ok element => simp [Access.granted, own index different]
  · intro index
    cases answer with
    | error error => simp only [Access.granted, List.append_nil]
    | ok element =>
        simp only [Access.granted, Access.pushes_concat, silent index, ↓reduceIte, Nat.add_zero]

private theorem pop (metered : portView.Metered earlier) (sound : portView.Sound shape)
    {input : Nat} (place : portView.inputs[input]? = some port) :
    (portView.replace port.channel (portView.bank.channel port.channel).pop.2).Metered
      (earlier ++ (Access.popped input).granted (portView.bank.pop port.channel).1) := by
  refine metered.request sound place (metered.inputs input port place).pop ?_ nofun
  intro index different
  simp [Access.depth, different.symm]

private theorem peek (metered : portView.Metered earlier) (sound : portView.Sound shape)
    {input : Nat} (place : portView.inputs[input]? = some port) (index : Nat) :
    (portView.replace port.channel ((portView.bank.channel port.channel).peek index).2).Metered
      (earlier ++
        (Access.peeked input index).granted (portView.bank.peek port.channel index).1) := by
  refine metered.request sound place ((metered.inputs input port place).peek index) ?_ (by simp)
  intro other different
  simp [Access.depth, different.symm]

private theorem push (metered : portView.Metered earlier) (sound : portView.Sound shape)
    {output : Nat} (place : portView.outputs[output]? = some port) (element : α) :
    (portView.replace port.channel ((portView.bank.channel port.channel).push element)).Metered
      (earlier ++ [.pushed output]) := by
  have counted := (metered.outputs output port place).push element
  refine metered.onOutput sound place ?_ ?_ ?_
  · simpa only [Access.pushes_concat, ↓reduceIte] using counted
  · intro index different
    simp only [Access.pushes_concat, Access.pushed.injEq, different.symm, ↓reduceIte, Nat.add_zero]
  · simp [Access.depth]

private theorem run (metered : portView.Metered earlier) (sound : portView.Sound shape)
    (worker : WorkerId) (routine : Routine α μ ρ) (outbox : List (Outgoing μ)) :
    Metered
      { portView with
        bank := (routine.run worker portView.inputs portView.outputs
          { bank := portView.bank, outbox := outbox }).2.bank }
      (earlier ++ routine.accesses worker portView.inputs portView.outputs portView.bank) := by
  induction routine generalizing portView earlier outbox with
  | done result => simpa only [Routine.run, Routine.accesses, List.append_nil] using metered
  | pop input next inductionHypothesis =>
      unfold Routine.run Routine.accesses
      cases place : portView.inputs[input]? with
      | none => exact inductionHypothesis _ metered sound outbox
      | some port =>
          have further := inductionHypothesis (portView.bank.pop port.channel).1
            (metered.pop sound place) (sound.replace _ _) outbox
          rw [List.append_assoc] at further
          exact further
  | peek input index next inductionHypothesis =>
      unfold Routine.run Routine.accesses
      cases place : portView.inputs[input]? with
      | none => exact inductionHypothesis _ metered sound outbox
      | some port =>
          have further := inductionHypothesis (portView.bank.peek port.channel index).1
            (metered.peek sound place index) (sound.replace _ _) outbox
          rw [List.append_assoc] at further
          exact further
  | available input next inductionHypothesis =>
      unfold Routine.run Routine.accesses
      cases portView.inputs[input]? with
      | none => exact inductionHypothesis _ metered sound outbox
      | some port => exact inductionHypothesis _ metered sound outbox
  | push output element next inductionHypothesis =>
      unfold Routine.run Routine.accesses
      cases place : portView.outputs[output]? with
      | none => exact inductionHypothesis _ metered sound outbox
      | some port =>
          have further := inductionHypothesis (.ok ()) (metered.push sound place element)
            (sound.replace _ _) outbox
          rw [List.append_assoc] at further
          exact further
  | send portal payload next inductionHypothesis =>
      exact inductionHypothesis metered sound _

end Metered

end PortView

namespace Graph

variable [Recipient β μ] [Work β α μ]

/-- The accesses of the next firing of a worker: what its body does once the messages due are
delivered. -/
def accesses (graph : Graph β α μ) (id : WorkerId) : List Access :=
  match graph.worker? id with
  | none => []
  | some worker =>
      let ready := worker.deliverDue.2
      (Work.work (α := α) (μ := μ) ready.body
        { worker := id, executions := ready.executions, shape := ready.shape }).accesses
        id ready.inputs ready.outputs graph.bank

/-- After a completed firing at counts of zero the counts are those of the firing. -/
theorem metered_fire {graph after : Graph β α μ} (sound : graph.frame.Sound)
    (unshared : graph.bank.Unshared) {id : WorkerId} {worker : Worker β μ}
    (known : graph.worker? id = some worker) (clear : (graph.portView worker).Metered [])
    (firing : graph.fire id = (.ok (), after)) :
    PortView.Metered { graph.portView worker with bank := after.bank } (graph.accesses id) := by
  have view := graph.fire_view id
  rw [firing] at view
  cases view with
  | @worked other ready body scene _ otherKnown delivery run routing =>
      rw [known] at otherKnown
      cases otherKnown
      have same := Worker.frame_deliverDue delivery
      have inputs : ready.inputs = worker.inputs := congrArg WorkerFrame.inputs same
      have outputs : ready.outputs = worker.outputs := congrArg WorkerFrame.outputs same
      have bank : after.bank = (graph.runBody id ready).2.bank := by
        have routed := (routeOutbox_others (graph.worked id ready body scene.bank) id
          ready.executions scene.outbox).1
        rw [routing] at routed
        rw [run, routed]
        rfl
      have metered := clear.run (graph.portView_sound sound unshared known) id
        (Work.work (α := α) (μ := μ) ready.body
          { worker := id, executions := ready.executions, shape := ready.shape }) []
      unfold accesses
      rw [known, bank]
      dsimp only
      rw [delivery]
      unfold runBody
      dsimp only
      rw [inputs, outputs]
      exact metered

end Graph

structure Observation where
  port : Nat
  kind : RateKind
  declared : Rate
  observed : Nat

namespace Observation

def inside (observation : Observation) : Bool :=
  observation.declared.admits observation.observed

/-- The inputs from number `port` on, each with what was looked at before what was taken. -/
def ofInputs (accesses : List Access) (port : Nat) (rates : List (Rate × Rate)) :
    List Observation :=
  (rates.zipIdx port).flatMap fun ((peek, pop), port) =>
    [⟨port, .peek, peek, Access.reach accesses port⟩,
      ⟨port, .pop, pop, Access.pops accesses port⟩]

def ofOutputs (accesses : List Access) (port : Nat) (rates : List Rate) : List Observation :=
  (rates.zipIdx port).map fun (push, port) =>
    ⟨port, .push, push, Access.pushes accesses port⟩

def verdict (worker : Label) (observations : List Observation) : Except Error Unit :=
  match observations.find? (fun observation => !observation.inside) with
  | none => .ok ()
  | some observation =>
      .error (.rateViolation worker observation.port observation.kind observation.declared
        observation.observed)

end Observation

def WorkerRates.observations (rates : WorkerRates) (accesses : List Access) :
    List Observation :=
  Observation.ofInputs accesses 0 (rates.peek.zip rates.pop) ++
    Observation.ofOutputs accesses 0 rates.push

namespace Observation

theorem verdict_cons (worker : Label) (observation : Observation) (rest : List Observation) :
    verdict worker (observation :: rest) =
      match Graph.checkRate worker observation.port observation.kind observation.declared
          observation.observed with
      | .error error => .error error
      | .ok () => verdict worker rest := by
  unfold verdict Graph.checkRate inside
  cases admitted : observation.declared.admits observation.observed <;> simp [admitted]

theorem verdict_eq_ok {worker : Label} {observations : List Observation} :
    verdict worker observations = .ok () ↔
      ∀ observation ∈ observations, observation.inside = true := by
  unfold verdict
  split
  next absent =>
    rw [List.find?_eq_none] at absent
    simpa only [true_iff, Bool.not_eq_eq_eq_not, Bool.not_true, Bool.not_eq_false] using absent
  next observation found =>
    have outside := List.find?_some found
    have member := List.mem_of_find?_eq_some found
    simp only [Bool.not_eq_true'] at outside
    constructor
    · intro same
      cases same
    · intro all
      rw [all observation member] at outside
      cases outside

/-- The verdict on two lists is the first one's, unless that finds nothing. -/
theorem verdict_append (worker : Label) (first second : List Observation) :
    verdict worker (first ++ second) =
      match verdict worker first with
      | .error error => .error error
      | .ok () => verdict worker second := by
  induction first with
  | nil => rfl
  | cons observation rest inductionHypothesis =>
      rw [List.cons_append, verdict_cons, verdict_cons, inductionHypothesis]
      cases Graph.checkRate worker observation.port observation.kind observation.declared
          observation.observed with
      | error error => rfl
      | ok done => rfl

end Observation

/-! ### Audits -/

namespace Graph

private theorem auditInputs_verdict {graph : Graph β α μ} (worker : Label) {accesses : List Access}
    (port : Nat) {inputs : List (ChannelId × Rate × Rate)} (unshared : graph.bank.Unshared)
    (distinct : (inputs.map Prod.fst).Nodup)
    (metered : ∀ (offset : Nat) (input : ChannelId × Rate × Rate),
      inputs[offset]? = some input → (graph.bank.channel input.1).Read
        (Access.reach accesses (port + offset)) (Access.pops accesses (port + offset))) :
    (graph.auditInputs worker port inputs).1 =
      Observation.verdict worker (Observation.ofInputs accesses port (inputs.map Prod.snd)) := by
  induction inputs generalizing graph port with
  | nil => rfl
  | cons input rest inductionHypothesis =>
      rcases input with ⟨channel, peek, pop⟩
      rw [List.map_cons, List.nodup_cons] at distinct
      rcases metered 0 _ rfl with ⟨stats, counted, peeked, popped⟩
      have checked : graph.checkInput worker port channel peek pop =
          match checkRate worker port .peek peek (Access.reach accesses port) with
          | .error error => .error error
          | .ok () => checkRate worker port .pop pop (Access.pops accesses port) := by
        unfold checkInput auditStats
        rw [counted]
        dsimp only
        rw [peeked, popped]
        rfl
      have restUnshared : (graph.resetStats channel).bank.Unshared := unshared.set _ _
      have further := inductionHypothesis (port + 1) restUnshared distinct.2
        (fun offset input place => by
          have member : input.1 ∈ rest.map Prod.fst :=
            List.mem_map_of_mem (List.mem_of_getElem? place)
          rw [channel_resetStats_of_fresh unshared distinct.1 member,
            show port + 1 + offset = port + (offset + 1) by omega]
          exact metered (offset + 1) input place)
      have observed : Observation.ofInputs accesses port
            (((channel, peek, pop) :: rest).map Prod.snd) =
          ⟨port, .peek, peek, Access.reach accesses port⟩ ::
            ⟨port, .pop, pop, Access.pops accesses port⟩ ::
              Observation.ofInputs accesses (port + 1) (rest.map Prod.snd) := rfl
      unfold auditInputs
      rw [checked, observed, Observation.verdict_cons, Observation.verdict_cons]
      dsimp only
      cases checkRate worker port .peek peek (Access.reach accesses port) with
      | error error => rfl
      | ok done =>
          cases checkRate worker port .pop pop (Access.pops accesses port) with
          | error error => rfl
          | ok done => exact further

private theorem auditOutputs_verdict {graph : Graph β α μ} (worker : Label) {accesses : List Access}
    (port : Nat) {outputs : List (ChannelId × Rate)} (unshared : graph.bank.Unshared)
    (distinct : (outputs.map Prod.fst).Nodup)
    (metered : ∀ (offset : Nat) (output : ChannelId × Rate), outputs[offset]? = some output →
      (graph.bank.channel output.1).Written (Access.pushes accesses (port + offset))) :
    (graph.auditOutputs worker port outputs).1 =
      Observation.verdict worker (Observation.ofOutputs accesses port (outputs.map Prod.snd)) := by
  induction outputs generalizing graph port with
  | nil => rfl
  | cons output rest inductionHypothesis =>
      rcases output with ⟨channel, push⟩
      rw [List.map_cons, List.nodup_cons] at distinct
      rcases metered 0 _ rfl with ⟨stats, counted, pushed⟩
      have checked : graph.checkOutput worker port channel push =
          checkRate worker port .push push (Access.pushes accesses port) := by
        unfold checkOutput auditStats
        rw [counted]
        dsimp only
        rw [pushed]
        rfl
      have restUnshared : (graph.resetStats channel).bank.Unshared := unshared.set _ _
      have further := inductionHypothesis (port + 1) restUnshared distinct.2
        (fun offset output place => by
          have member : output.1 ∈ rest.map Prod.fst :=
            List.mem_map_of_mem (List.mem_of_getElem? place)
          rw [channel_resetStats_of_fresh unshared distinct.1 member,
            show port + 1 + offset = port + (offset + 1) by omega]
          exact metered (offset + 1) output place)
      have observed : Observation.ofOutputs accesses port
            (((channel, push) :: rest).map Prod.snd) =
          ⟨port, .push, push, Access.pushes accesses port⟩ ::
            Observation.ofOutputs accesses (port + 1) (rest.map Prod.snd) := rfl
      unfold auditOutputs
      rw [checked, observed, Observation.verdict_cons]
      dsimp only
      cases checkRate worker port .push push (Access.pushes accesses port) with
      | error error => rfl
      | ok done => exact further

private theorem channel_auditInputs_of_not_mem {graph : Graph β α μ}
    (unshared : graph.bank.Unshared) (worker : Label) (port : Nat)
    {inputs : List (ChannelId × Rate × Rate)} {channel : ChannelId}
    (absent : channel ∉ inputs.map Prod.fst) :
    (graph.auditInputs worker port inputs).2.bank.channel channel =
      graph.bank.channel channel := by
  induction inputs generalizing graph port with
  | nil => rfl
  | cons input rest inductionHypothesis =>
      rcases input with ⟨other, peek, pop⟩
      rw [List.map_cons, List.mem_cons, not_or] at absent
      unfold auditInputs
      split
      next => rfl
      next =>
        rw [inductionHypothesis (unshared.set _ _) (port + 1) absent.2]
        exact Bank.channel_set_of_ne unshared _ absent.1

/-- What is checked on the inputs of a worker: all of their channels, at all declared rates. -/
theorem audited_inputs {worker : Worker β μ} (fits : worker.rates.fits worker.shape = true) :
    let inputs := worker.inputChannels.zip (worker.rates.peek.zip worker.rates.pop)
    inputs.map Prod.fst = worker.inputs.map Port.channel ∧
      inputs.map Prod.snd = worker.rates.peek.zip worker.rates.pop := by
  rcases WorkerRates.fits_iff.mp fits with ⟨peeks, pops, _⟩
  constructor
  · apply List.map_fst_zip
    simp [Worker.inputChannels, peeks, pops, Worker.shape]
  · apply List.map_snd_zip
    simp [Worker.inputChannels, peeks, pops, Worker.shape]

private theorem audited_outputs {worker : Worker β μ}
    (fits : worker.rates.fits worker.shape = true) :
    let outputs := worker.outputChannels.zip worker.rates.push
    outputs.map Prod.fst = worker.outputs.map Port.channel ∧
      outputs.map Prod.snd = worker.rates.push := by
  rcases WorkerRates.fits_iff.mp fits with ⟨_, _, pushes⟩
  constructor
  · apply List.map_fst_zip
    simp only [Worker.outputChannels, List.length_map, pushes, Worker.shape, Std.le_refl]
  · apply List.map_snd_zip
    simp only [pushes, Worker.shape, Worker.outputChannels, List.length_map, Std.le_refl]

/-- The audit of outputs on other channels finds their counts as they were before that of the
inputs. -/
theorem auditBoth_verdict {graph : Graph β α μ} (worker : Label) {accesses : List Access}
    {inputs : List (ChannelId × Rate × Rate)} {outputs : List (ChannelId × Rate)}
    (unshared : graph.bank.Unshared)
    (distinct : (inputs.map Prod.fst ++ outputs.map Prod.fst).Nodup)
    (read : ∀ (offset : Nat) (input : ChannelId × Rate × Rate),
      inputs[offset]? = some input → (graph.bank.channel input.1).Read
        (Access.reach accesses (0 + offset)) (Access.pops accesses (0 + offset)))
    (written : ∀ (offset : Nat) (output : ChannelId × Rate), outputs[offset]? = some output →
      (graph.bank.channel output.1).Written (Access.pushes accesses (0 + offset))) :
    (match graph.auditInputs worker 0 inputs with
      | (.error error, graph) => ((.error error, graph) : Outcome Unit (Graph β α μ))
      | (.ok (), graph) => graph.auditOutputs worker 0 outputs).1 =
      Observation.verdict worker (Observation.ofInputs accesses 0 (inputs.map Prod.snd) ++
        Observation.ofOutputs accesses 0 (outputs.map Prod.snd)) := by
  rw [List.nodup_append] at distinct
  have first := auditInputs_verdict worker 0 unshared distinct.1 read
  have same := graph.auditInputs_sameButCounts worker 0 inputs
  have second : ((graph.auditInputs worker 0 inputs).2.auditOutputs worker 0 outputs).1 =
      Observation.verdict worker (Observation.ofOutputs accesses 0 (outputs.map Prod.snd)) := by
    apply auditOutputs_verdict worker 0
      (unshared.of_keys_eq (congrArg GraphFrame.keys same.2.1).symm) distinct.2.1
    intro offset output place
    have member : output.1 ∈ outputs.map Prod.fst :=
      List.mem_map_of_mem (List.mem_of_getElem? place)
    rw [channel_auditInputs_of_not_mem unshared worker 0
      (fun input => distinct.2.2 _ input _ member rfl)]
    exact written offset output place
  rw [Observation.verdict_append, ← first, ← second]
  rcases graph.auditInputs worker 0 inputs with ⟨answer, left⟩
  cases answer with
  | error error => rfl
  | ok done => rfl

/-- An audit on metered ports comes to the verdict on the accesses. -/
theorem audit_verdict {graph : Graph β α μ} {id : WorkerId} {worker : Worker β μ}
    {accesses : List Access} (known : graph.worker? id = some worker)
    (fits : worker.rates.fits worker.shape = true)
    (sound : (graph.portView worker).Sound worker.shape)
    (metered : (graph.portView worker).Metered accesses) :
    (graph.audit id).1 =
      Observation.verdict worker.label (worker.rates.observations accesses) := by
  rcases audited_inputs fits with ⟨inputChannels, inputRates⟩
  rcases audited_outputs fits with ⟨outputChannels, outputRates⟩
  have distinct := sound.distinct
  rw [List.map_append] at distinct
  have judged := auditBoth_verdict worker.label sound.unshared
    (inputChannels ▸ outputChannels ▸ distinct)
    (fun offset input place => by
      rw [List.getElem?_zip_eq_some, Worker.inputChannels, List.getElem?_map] at place
      rcases Option.map_eq_some_iff.mp place.1 with ⟨port, portAt, same⟩
      rw [← same, Nat.zero_add]
      exact metered.inputs offset port portAt)
    (fun offset output place => by
      rw [List.getElem?_zip_eq_some, Worker.outputChannels, List.getElem?_map] at place
      rcases Option.map_eq_some_iff.mp place.1 with ⟨port, portAt, same⟩
      rw [← same, Nat.zero_add]
      exact metered.outputs offset port portAt)
  rw [inputRates, outputRates] at judged
  unfold audit
  rw [known]
  exact judged

end Graph

/-- Every declared rate is held against what was done on its port. -/
theorem WorkerRates.mem_observations {rates : WorkerRates} {accesses : List Access}
    {observation : Observation} :
    observation ∈ rates.observations accesses ↔
      (∃ (index : Nat) (peek pop : Rate), rates.peek[index]? = some peek ∧
        rates.pop[index]? = some pop ∧
          (observation = ⟨index, .peek, peek, Access.reach accesses index⟩ ∨
            observation = ⟨index, .pop, pop, Access.pops accesses index⟩)) ∨
      ∃ (index : Nat) (push : Rate), rates.push[index]? = some push ∧
        observation = ⟨index, .push, push, Access.pushes accesses index⟩ := by
  unfold observations Observation.ofInputs Observation.ofOutputs
  rw [List.mem_append, List.mem_flatMap, List.mem_map]
  apply or_congr
  · constructor
    · rintro ⟨⟨⟨peek, pop⟩, index⟩, place, same⟩
      rw [List.mem_zipIdx_iff_getElem?, List.getElem?_zip_eq_some] at place
      rw [List.mem_cons, List.mem_singleton] at same
      exact ⟨index, peek, pop, place.1, place.2, same⟩
    · rintro ⟨index, peek, pop, peekAt, popAt, same⟩
      refine ⟨⟨⟨peek, pop⟩, index⟩, ?_, ?_⟩
      · rw [List.mem_zipIdx_iff_getElem?, List.getElem?_zip_eq_some]
        exact ⟨peekAt, popAt⟩
      · rw [List.mem_cons, List.mem_singleton]
        exact same
  · constructor
    · rintro ⟨⟨push, index⟩, place, same⟩
      exact ⟨index, push, List.mem_zipIdx_iff_getElem?.mp place, same.symm⟩
    · rintro ⟨index, push, pushAt, same⟩
      exact ⟨⟨push, index⟩, List.mem_zipIdx_iff_getElem?.mpr pushAt, same.symm⟩

private theorem PortView.Metered.admitted {portView : PortView α} {shape : PortShape}
    {accesses : List Access} (metered : portView.Metered accesses)
    (sound : portView.Sound shape) {rates : WorkerRates} (fits : rates.fits shape = true)
    (inside : ∀ observation ∈ rates.observations accesses, observation.inside = true) :
    Admitted rates portView portView.bank := by
  rcases WorkerRates.fits_iff.mp fits with ⟨peeks, pops, pushes⟩
  constructor
  · intro index peek pop peekAt popAt
    have within : index < shape.inputs := by
      rw [← peeks]
      exact (List.getElem?_eq_some_iff.mp peekAt).1
    rcases sound.input_port within with ⟨port, place, _⟩
    rcases metered.inputs index port place with ⟨stats, counted, extent, taken⟩
    rw [Bank.onPort_of_some _ place]
    refine ⟨stats, counted, ?_, ?_⟩
    · rw [extent]
      exact inside _ (WorkerRates.mem_observations.mpr
        (.inl ⟨index, peek, pop, peekAt, popAt, .inl rfl⟩))
    · rw [taken]
      exact inside _ (WorkerRates.mem_observations.mpr
        (.inl ⟨index, peek, pop, peekAt, popAt, .inr rfl⟩))
  · intro index push pushAt
    have within : index < shape.outputs := by
      rw [← pushes]
      exact (List.getElem?_eq_some_iff.mp pushAt).1
    rcases sound.output_port within with ⟨port, place, _⟩
    rcases metered.outputs index port place with ⟨stats, counted, put⟩
    rw [Bank.onPort_of_some _ place]
    refine ⟨stats, counted, ?_⟩
    rw [put]
    exact inside _ (WorkerRates.mem_observations.mpr (.inr ⟨index, push, pushAt, rfl⟩))

/-- The audit of a completed firing at counts of zero comes to the verdict on the accesses of
the firing, and if it passes, it leaves the ports of the worker at counts of zero. -/
theorem Graph.audit_fire [Recipient β μ] [Work β α μ] {graph after : Graph β α μ}
    (sound : graph.frame.Sound) (unshared : graph.bank.Unshared) {id : WorkerId}
    {worker : Worker β μ} (known : graph.worker? id = some worker)
    (clear : (graph.portView worker).Metered []) (firing : graph.fire id = (.ok (), after)) :
    (after.audit id).1 =
        Observation.verdict worker.label (worker.rates.observations (graph.accesses id)) ∧
      ∀ left, after.audit id = (.ok (), left) →
        Bank.Cleared (worker.inputs.map Port.channel ++ worker.outputs.map Port.channel)
          after.bank left.bank := by
  have framed : after.frame = graph.frame := by
    have kept := graph.frame_fire id
    rw [firing] at kept
    exact kept
  rcases worker_of_frame_eq framed.symm known with ⟨fired, found, same⟩
  have inputs : fired.inputs = worker.inputs := congrArg WorkerFrame.inputs same
  have outputs : fired.outputs = worker.outputs := congrArg WorkerFrame.outputs same
  have rates : fired.rates = worker.rates := congrArg WorkerFrame.rates same
  have label : fired.label = worker.label := by
    unfold Worker.label
    rw [show fired.id = worker.id from congrArg WorkerFrame.id same,
      show fired.name = worker.name from congrArg WorkerFrame.name same]
  have fits : fired.rates.fits fired.shape = true := by
    apply sound.rated id fired.frame
    rw [same, frame_get, known]
    rfl
  have viewSound : (after.portView fired).Sound fired.shape :=
    portView_sound (framed ▸ sound)
      (unshared.of_keys_eq (congrArg GraphFrame.keys framed).symm) found
  have metered : (after.portView fired).Metered (graph.accesses id) := by
    have counted := metered_fire sound unshared known clear firing
    unfold portView at counted ⊢
    rw [inputs, outputs]
    exact counted
  have judged := audit_verdict found fits viewSound metered
  rw [← inputs, ← outputs, ← rates, ← label]
  refine ⟨judged, ?_⟩
  intro left passed
  rw [passed] at judged
  rcases after.audit_ok found fits viewSound
    (metered.admitted viewSound fits (Observation.verdict_eq_ok.mp judged.symm)) with
    ⟨other, same, cleared⟩
  rw [passed] at same
  cases same
  exact cleared

end DemandFlow
