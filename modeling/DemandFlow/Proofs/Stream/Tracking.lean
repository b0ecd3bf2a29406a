import DemandFlow.Proofs.Graph.Locality
import DemandFlow.Proofs.Stream.Denotation

/-!
Running graphs keep track of what their channels have carried. A ghost history says which
elements have gone through each channel so far; every worker has come as far with the
histories of its inputs as firings can lead, and what it has put out is the history of its
outputs. A firing of an abiding body keeps this, and so do elements that come in.
-/

set_option autoImplicit false

namespace DemandFlow

variable {β α μ : Type}

namespace Layout

/-- What a worker finds on one of its inputs; a port that does not exist holds nothing. -/
def onInputs (layout : Layout β) (streams : ChannelId → List α) (id index : Nat) : List α :=
  ((layout.inputs id)[index]?.map streams).getD []

theorem input_of_lt {layout : Layout β} {id index : Nat}
    (within : index < (layout.shape id).inputs) :
    ∃ channel, (layout.inputs id)[index]? = some channel :=
  ⟨_, List.getElem?_eq_getElem within⟩

theorem onInputs_of_some {layout : Layout β} (streams : ChannelId → List α) {id index : Nat}
    {channel : ChannelId} (place : (layout.inputs id)[index]? = some channel) :
    layout.onInputs streams id index = streams channel := by
  unfold onInputs
  rw [place]
  rfl

theorem onInputs_append (layout : Layout β) (streams extra : ChannelId → List α) (id : Nat) :
    layout.onInputs (fun channel => streams channel ++ extra channel) id =
      fun index => layout.onInputs streams id index ++ layout.onInputs extra id index := by
  funext index
  unfold onInputs
  cases (layout.inputs id)[index]? <;> rfl

/-- What the port on a channel says, if one of the ports is on it. -/
def onChannel {γ : Type} (ports : List ChannelId) (values : Nat → γ) (otherwise : γ)
    (channel : ChannelId) : γ :=
  (((List.range ports.length).find? (fun port => ports[port]? == some channel)).map
    values).getD otherwise

theorem onChannel_of_some {γ : Type} {ports : List ChannelId} {port : Nat} {channel : ChannelId}
    (place : ports[port]? = some channel)
    (once : ∀ other : Nat, ports[other]? = some channel → other = port) (values : Nat → γ)
    (otherwise : γ) : onChannel ports values otherwise channel = values port := by
  have within : port < ports.length := (List.getElem?_eq_some_iff.mp place).1
  unfold onChannel
  cases found : (List.range ports.length).find? (fun port => ports[port]? == some channel) with
  | none =>
      have never := List.find?_eq_none.mp found port (List.mem_range.mpr within)
      simp only [place, BEq.rfl, not_true_eq_false] at never
  | some other =>
      have here := List.find?_some found
      rw [beq_iff_eq] at here
      rw [once other here]
      rfl

theorem onChannel_of_not_mem {γ : Type} {ports : List ChannelId} {channel : ChannelId}
    (absent : channel ∉ ports) (values : Nat → γ) (otherwise : γ) :
    onChannel ports values otherwise channel = otherwise := by
  unfold onChannel
  cases found : (List.range ports.length).find? (fun port => ports[port]? == some channel) with
  | none => rfl
  | some other =>
      have here := List.find?_some found
      rw [beq_iff_eq] at here
      exact absurd (List.mem_of_getElem? here) absent

/-- What a firing adds to each channel, if it puts `pushes` on the outputs of the worker. -/
def poured (layout : Layout β) (id : Nat) (pushes : Nat → List α) (channel : ChannelId) :
    List α :=
  (((List.range (layout.outputs id).length).find?
    (fun output => (layout.outputs id)[output]? == some channel)).map pushes).getD []

theorem poured_of_output {layout : Layout β} (sound : layout.Sound) {id output : Nat}
    (pushes : Nat → List α) {channel : ChannelId}
    (place : (layout.outputs id)[output]? = some channel) :
    layout.poured id pushes channel = pushes output :=
  onChannel_of_some place
    (fun other here => (sound.outputOnce id id other output channel here place).2) pushes []

theorem poured_of_not_mem {layout : Layout β} {id : Nat} (pushes : Nat → List α)
    {channel : ChannelId} (absent : channel ∉ layout.outputs id) :
    layout.poured id pushes channel = [] :=
  onChannel_of_not_mem absent pushes []

/-- How much a firing takes from each channel, if it takes `pops` from the inputs of the
worker. -/
def drawn (layout : Layout β) (id : Nat) (pops : Nat → Nat) (channel : ChannelId) : Nat :=
  onChannel (layout.inputs id) pops 0 channel

theorem drawn_of_input {layout : Layout β} (sound : layout.Sound) {id input : Nat}
    (pops : Nat → Nat) {channel : ChannelId}
    (place : (layout.inputs id)[input]? = some channel) :
    layout.drawn id pops channel = pops input :=
  onChannel_of_some place
    (fun other here => (sound.inputOnce id id other input channel here place).2) pops 0

theorem drawn_of_not_mem {layout : Layout β} {id : Nat} (pops : Nat → Nat)
    {channel : ChannelId} (absent : channel ∉ layout.inputs id) :
    layout.drawn id pops channel = 0 :=
  onChannel_of_not_mem absent pops 0

/-- The layout has the ports of the frame. -/
structure Matches (layout : Layout β) (frame : GraphFrame) : Prop where
  inputs : ∀ id, layout.inputs id = (frame.wiring.inputs id).map Port.channel
  outputs : ∀ id, layout.outputs id = (frame.wiring.outputs id).map Port.channel

/-- The layout has the ports of the frame, and bodies with the rates of the frame. -/
structure Describes [Signature β] (layout : Layout β) (frame : GraphFrame) : Prop
    extends layout.Matches frame where
  rates : ∀ (id : Nat) (worker : WorkerFrame), frame.workers[id]? = some worker →
    ∃ body, layout.body id = some body ∧
      worker.rates = Signature.rates body (layout.shape id)

section

variable {layout : Layout β} {frame : GraphFrame}

private theorem Matches.input_port (matched : layout.Matches frame) {id index : Nat}
    {channel : ChannelId} (place : (layout.inputs id)[index]? = some channel) :
    ∃ port, (frame.wiring.inputs id)[index]? = some port ∧ port.channel = channel := by
  rw [matched.inputs, List.getElem?_map] at place
  exact Option.map_eq_some_iff.mp place

private theorem Matches.output_port (matched : layout.Matches frame) {id index : Nat}
    {channel : ChannelId} (place : (layout.outputs id)[index]? = some channel) :
    ∃ port, (frame.wiring.outputs id)[index]? = some port ∧ port.channel = channel := by
  rw [matched.outputs, List.getElem?_map] at place
  exact Option.map_eq_some_iff.mp place

theorem Matches.sound (matched : layout.Matches frame) (wired : frame.wiring.Sound) :
    layout.Sound where
  inputOnce := by
    intro left right leftIndex rightIndex channel leftPlace rightPlace
    obtain ⟨leftPort, leftFound, leftEq⟩ := matched.input_port leftPlace
    obtain ⟨rightPort, rightFound, rightEq⟩ := matched.input_port rightPlace
    exact wired.inputOnce left right leftIndex rightIndex leftPort rightPort leftFound
      rightFound (leftEq.trans rightEq.symm)
  outputOnce := by
    intro left right leftIndex rightIndex channel leftPlace rightPlace
    obtain ⟨leftPort, leftFound, leftEq⟩ := matched.output_port leftPlace
    obtain ⟨rightPort, rightFound, rightEq⟩ := matched.output_port rightPlace
    exact wired.outputOnce left right leftIndex rightIndex leftPort rightPort leftFound
      rightFound (leftEq.trans rightEq.symm)
  apart := by
    intro producer consumer output input channel outputPlace inputPlace
    obtain ⟨outputPort, outputFound, outputEq⟩ := matched.output_port outputPlace
    obtain ⟨inputPort, inputFound, inputEq⟩ := matched.input_port inputPlace
    exact (wired.ends producer consumer output input outputPort inputPort outputFound
      inputFound (outputEq.trans inputEq.symm)).2.2

end

end Layout

theorem Bank.onPort_of_some (bank : Bank α) {ports : List Port} {index : Nat} {port : Port}
    (place : ports[index]? = some port) : bank.onPort ports index = bank.channel port.channel := by
  unfold onPort
  rw [place]
  rfl

theorem Worker.deliverDue_of_idle [Recipient β μ] {worker : Worker β μ}
    (idle : worker.queue = {}) : worker.deliverDue = (.ok (), worker) := by
  obtain ⟨number, name, kind, inputs, outputs, rates, executions, queue, bodyType, body⟩ := worker
  cases idle
  rfl

namespace Graph

/-- The ports of a worker of the graph, with the channels behind them. -/
def portView (graph : Graph β α μ) (worker : Worker β μ) : PortView α :=
  { inputs := worker.inputs, outputs := worker.outputs, bank := graph.bank }

theorem portView_sound {graph : Graph β α μ} (sound : graph.frame.Sound)
    (unshared : graph.bank.Unshared) {id : WorkerId} {worker : Worker β μ}
    (known : graph.worker? id = some worker) : (graph.portView worker).Sound worker.shape := by
  have wired := sound.wiring
  have inputsEq := wiring_inputs known
  have outputsEq := wiring_outputs known
  have channels := graph.wiring_channels
  refine ⟨rfl, rfl, ?_, ?_, unshared⟩
  · intro port member
    rw [show (graph.portView worker).bank.size = graph.frame.wiring.channels from channels.symm]
    rcases List.mem_append.mp member with input | output
    · obtain ⟨index, place⟩ := List.mem_iff_getElem?.mp input
      exact wired.inputRange id index port (inputsEq ▸ place)
    · obtain ⟨index, place⟩ := List.mem_iff_getElem?.mp output
      exact wired.outputRange id index port (outputsEq ▸ place)
  · have once := wired.nodup_ports id
    rw [inputsEq, outputsEq] at once
    exact once

private theorem fire_of_performs [Recipient β μ] [Work β α μ] {graph : Graph β α μ} {id : WorkerId}
    {worker : Worker β μ} (known : graph.worker? id = some worker) (idle : worker.queue = {})
    {audited : Bool} {rates : WorkerRates} {shape : PortShape} {response : Response β α}
    (performs : Performs audited rates shape (graph.portView worker) response
      (graph.runBody id worker)) :
    graph.fire id =
      (.ok (), graph.worked id worker response.next (graph.runBody id worker).2.bank) := by
  have delivery := Worker.deliverDue_of_idle idle
  have succeeds := performs.succeeds
  have silent := performs.silent
  have next := performs.next
  unfold fire
  rw [known]
  dsimp only
  rw [delivery]
  dsimp only
  unfold work
  rcases run : graph.runBody id worker with ⟨⟨answer, body⟩, scene⟩
  rw [run] at succeeds silent next
  cases succeeds
  dsimp only at silent next ⊢
  rw [silent, next]
  rfl

end Graph

namespace Worker

theorem starvedFrom_none {worker : Worker β μ} {bank : Bank α} {input : Nat}
    {ports : List (Port × Rate × Rate)}
    (fed : worker.starvedFrom bank input ports = .ok none) {offset : Nat} {port : Port}
    {peek pop : Rate} (place : ports[offset]? = some (port, peek, pop)) :
    ∃ required, demand? peek pop = some required ∧
      required ≤ (bank.channel port.channel).size := by
  induction ports generalizing input offset with
  | nil => cases place
  | cons entry rest inductionHypothesis =>
      obtain ⟨other, otherPeek, otherPop⟩ := entry
      unfold starvedFrom at fed
      split at fed
      next => cases fed
      next required demanded =>
        split at fed
        next => cases fed
        next enough =>
          cases offset with
          | zero =>
              cases place
              exact ⟨required, demanded, Nat.le_of_not_lt enough⟩
          | succ offset => exact inductionHypothesis fed place

private theorem starvedFrom_error {worker : Worker β μ} {bank : Bank α} {input : Nat}
    {ports : List (Port × Rate × Rate)} {error : Error}
    (refused : worker.starvedFrom bank input ports = .error error) :
    ∃ (offset : Nat) (port : Port) (peek pop : Rate),
      ports[offset]? = some (port, peek, pop) ∧ demand? peek pop = none := by
  induction ports generalizing input with
  | nil => cases refused
  | cons entry rest inductionHypothesis =>
      obtain ⟨port, peek, pop⟩ := entry
      unfold starvedFrom at refused
      split at refused
      next unknown => exact ⟨0, port, peek, pop, rfl, unknown⟩
      next =>
        split at refused
        next => cases refused
        next =>
          obtain ⟨offset, other, otherPeek, otherPop, place, unknown⟩ :=
            inductionHypothesis refused
          exact ⟨offset + 1, other, otherPeek, otherPop, place, unknown⟩

/-- A worker that can fire has what it needs on every input. -/
theorem need_of_fed {worker : Worker β μ} {bank : Bank α}
    (fits : worker.rates.fits worker.shape = true)
    (fed : worker.starvedInput bank = .ok none) {index : Nat} {port : Port}
    (place : worker.inputs[index]? = some port) :
    ∃ required, worker.rates.need? index = some required ∧
      required ≤ (bank.channel port.channel).size := by
  have within := (List.getElem?_eq_some_iff.mp place).1
  obtain ⟨peeks, pops, _⟩ : _ = worker.inputs.length ∧ _ = worker.inputs.length ∧ _ :=
    WorkerRates.fits_iff.mp fits
  obtain ⟨peek, peekAt⟩ : ∃ peek, worker.rates.peek[index]? = some peek :=
    ⟨_, List.getElem?_eq_getElem (by omega)⟩
  obtain ⟨pop, popAt⟩ : ∃ pop, worker.rates.pop[index]? = some pop :=
    ⟨_, List.getElem?_eq_getElem (by omega)⟩
  have entry : (worker.inputs.zip (worker.rates.peek.zip worker.rates.pop))[index]? =
      some (port, peek, pop) := by
    rw [List.getElem?_zip_eq_some, List.getElem?_zip_eq_some]
    exact ⟨place, peekAt, popAt⟩
  obtain ⟨required, demanded, enough⟩ := starvedFrom_none fed entry
  refine ⟨required, ?_, enough⟩
  unfold WorkerRates.need?
  rw [peekAt, popAt]
  exact demanded

/-- Whether a worker is starved is known if all its needs are. -/
theorem starvedInput_ne_error {worker : Worker β μ} {bank : Bank α} {error : Error}
    (needs : ∀ index, index < worker.inputs.length →
      (worker.rates.need? index).isSome = true) :
    worker.starvedInput bank ≠ .error error := by
  intro refused
  obtain ⟨index, port, peek, pop, entry, unknown⟩ := starvedFrom_error refused
  rw [List.getElem?_zip_eq_some, List.getElem?_zip_eq_some] at entry
  obtain ⟨place, peekAt, popAt⟩ := entry
  have known := needs index (List.getElem?_eq_some_iff.mp place).1
  unfold WorkerRates.need? at known
  rw [peekAt, popAt, Option.bind_some, Option.bind_some, unknown] at known
  cases known

end Worker

/-! ### Keeping track -/

/-- The worker has come as far as the progress says with what its inputs have carried, and
what it has put out is what its outputs have carried. -/
structure Tracks [Signature β] [Work β α μ] (layout : Layout β)
    (carried : ChannelId → List α) (bank : Bank α) (id : Nat) (worker : Worker β μ) (body : β)
    (progress : Progress β α) : Prop where
  known : layout.body id = some body
  reaches : (Progress.initial body (layout.onInputs carried id)).Reaches μ
    (InputNeeds.of body (layout.shape id)) progress
  body_eq : worker.body = progress.body
  executions : worker.executions = progress.executions
  idle : worker.queue = {}
  inputs : ∀ (index : Nat) (channel : ChannelId), (layout.inputs id)[index]? = some channel →
    (bank.channel channel).items = progress.rest index
  outputs : ∀ (index : Nat) (channel : ChannelId), (layout.outputs id)[index]? = some channel →
    carried channel = progress.pushed index

section

variable [Signature β] [Work β α μ] {layout : Layout β} {carried : ChannelId → List α}
  {bank : Bank α} {id : Nat} {worker : Worker β μ} {body : β} {progress : Progress β α}

theorem Tracks.extend (tracks : Tracks layout carried bank id worker body progress)
    {extra : ChannelId → List α} {after : Bank α}
    (inputs : ∀ channel ∈ layout.inputs id, (after.channel channel).items =
      (bank.channel channel).items ++ extra channel)
    (outputs : ∀ channel ∈ layout.outputs id, extra channel = []) :
    Tracks layout (fun channel => carried channel ++ extra channel) after id worker body
      (progress.extend (layout.onInputs extra id)) where
  known := tracks.known
  reaches := by
    rw [Layout.onInputs_append]
    exact tracks.reaches.extend (layout.onInputs extra id)
  body_eq := tracks.body_eq
  executions := tracks.executions
  idle := tracks.idle
  inputs := by
    intro index channel place
    rw [inputs channel (List.mem_of_getElem? place), tracks.inputs index channel place]
    unfold Progress.extend
    dsimp only
    rw [Layout.onInputs_of_some extra place]
  outputs := by
    intro index channel place
    rw [outputs channel (List.mem_of_getElem? place), List.append_nil]
    exact tracks.outputs index channel place

private theorem Tracks.advance (tracks : Tracks layout carried bank id worker body progress)
    (sound : layout.Sound)
    (sated : (InputNeeds.of body (layout.shape id)).sated progress.rest = true)
    {response : Response β α} {after : Bank α}
    (responds : response = respond μ (layout.shape id) progress.body progress.executions
      ((InputNeeds.of body (layout.shape id)).leading progress.rest))
    (takes : ∀ (index : Nat) (channel : ChannelId),
      (layout.inputs id)[index]? = some channel →
        (after.channel channel).items =
          (bank.channel channel).items.drop (response.pops index)) :
    Tracks layout (fun channel => carried channel ++ layout.poured id response.pushes channel)
      after id { worker with body := response.next, executions := worker.executions + 1 } body
      (progress.advance μ (InputNeeds.of body (layout.shape id))) where
  known := tracks.known
  reaches := by
    have untouched : layout.onInputs (layout.poured id response.pushes) id = fun _ => [] := by
      funext index
      unfold Layout.onInputs
      cases place : (layout.inputs id)[index]? with
      | none => rfl
      | some channel =>
          apply Layout.poured_of_not_mem
          intro member
          obtain ⟨output, outputPlace⟩ := List.mem_iff_getElem?.mp member
          exact sound.apart id id output index channel outputPlace place rfl
    rw [Layout.onInputs_append, untouched]
    simp only [List.append_nil]
    exact tracks.reaches.fire sated
  body_eq := by
    unfold Progress.advance
    rw [responds]
    rfl
  executions := congrArg (· + 1) tracks.executions
  idle := tracks.idle
  inputs := by
    intro index channel place
    rw [takes index channel place, tracks.inputs index channel place, responds]
    rfl
  outputs := by
    intro index channel place
    rw [Layout.poured_of_output sound _ place, tracks.outputs index channel place, responds]
    rfl

end

structure Simulates [Signature β] [Work β α μ] (layout : Layout β) (drain : ChannelId)
    (carried : ChannelId → List α) (graph : Graph β α μ) : Prop where
  workers : ∀ id worker, graph.worker? id = some worker →
    ∃ body progress, Tracks layout carried graph.bank id worker body progress
  drained : (graph.bank.channel drain).items = carried drain

section

variable {layout : Layout β} {graph : Graph β α μ} {id : Nat}
  {worker : Worker β μ}

theorem Layout.Matches.worker_inputs (matched : layout.Matches graph.frame)
    (known : graph.worker? id = some worker) :
    layout.inputs id = worker.inputs.map Port.channel := by
  rw [matched.inputs, Graph.wiring_inputs known]

theorem Layout.Matches.worker_outputs (matched : layout.Matches graph.frame)
    (known : graph.worker? id = some worker) :
    layout.outputs id = worker.outputs.map Port.channel := by
  rw [matched.outputs, Graph.wiring_outputs known]

theorem Layout.Matches.worker_shape (matched : layout.Matches graph.frame)
    (known : graph.worker? id = some worker) : layout.shape id = worker.shape := by
  unfold shape Worker.shape
  rw [matched.worker_inputs known, matched.worker_outputs known, List.length_map,
    List.length_map]

theorem Layout.Describes.worker_rates [Signature β] (describes : layout.Describes graph.frame)
    (known : graph.worker? id = some worker) {body : β} (placed : layout.body id = some body) :
    worker.rates = Signature.rates body (layout.shape id) := by
  have found : graph.frame.workers[id]? = some worker.frame := by
    rw [Graph.frame_get, known]
    rfl
  obtain ⟨other, same, rates⟩ := describes.rates id worker.frame found
  rw [placed] at same
  cases same
  exact rates

/-- What is on the input of a worker, by port and by channel. -/
theorem Layout.Matches.onPort_input (matched : layout.Matches graph.frame)
    (known : graph.worker? id = some worker) (bank : Bank α) {index : Nat}
    {channel : ChannelId} (place : (layout.inputs id)[index]? = some channel) :
    bank.onPort worker.inputs index = bank.channel channel := by
  rw [matched.worker_inputs known, List.getElem?_map] at place
  obtain ⟨port, portPlace, rfl⟩ := Option.map_eq_some_iff.mp place
  exact bank.onPort_of_some portPlace

theorem Layout.Matches.onPort_output (matched : layout.Matches graph.frame)
    (known : graph.worker? id = some worker) (bank : Bank α) {index : Nat}
    {channel : ChannelId} (place : (layout.outputs id)[index]? = some channel) :
    bank.onPort worker.outputs index = bank.channel channel := by
  rw [matched.worker_outputs known, List.getElem?_map] at place
  obtain ⟨port, portPlace, rfl⟩ := Option.map_eq_some_iff.mp place
  exact bank.onPort_of_some portPlace

end

section

variable [Signature β] [Work β α μ] {layout : Layout β} {carried : ChannelId → List α}
  {graph : Graph β α μ} {id : Nat} {worker : Worker β μ} {body : β} {progress : Progress β α}

private theorem Tracks.holds (tracks : Tracks layout carried graph.bank id worker body progress)
    (describes : layout.Describes graph.frame) (known : graph.worker? id = some worker)
    (index : Nat) (within : index < (layout.shape id).inputs) :
    (graph.portView worker).holds index = progress.rest index := by
  obtain ⟨channel, place⟩ := Layout.input_of_lt within
  unfold PortView.holds Graph.portView
  dsimp only
  rw [describes.onPort_input known graph.bank place]
  exact tracks.inputs index _ place

private theorem Tracks.sated (tracks : Tracks layout carried graph.bank id worker body progress)
    (sound : graph.frame.Sound) (describes : layout.Describes graph.frame)
    (known : graph.worker? id = some worker)
    (fed : worker.starvedInput graph.bank = .ok none) :
    (InputNeeds.of body (layout.shape id)).sated progress.rest = true := by
  have fits : worker.rates.fits worker.shape = true := by
    apply sound.rated id worker.frame
    rw [Graph.frame_get, known]
    rfl
  rw [InputNeeds.sated_iff]
  intro index within
  obtain ⟨channel, place⟩ := Layout.input_of_lt within
  have portPlace := place
  rw [describes.worker_inputs known, List.getElem?_map] at portPlace
  obtain ⟨port, found, channelEq⟩ := Option.map_eq_some_iff.mp portPlace
  obtain ⟨required, needed, enough⟩ := Worker.need_of_fed fits fed found
  rw [channelEq, Channel.size, tracks.inputs index _ place] at enough
  rw [describes.worker_rates known tracks.known] at needed
  unfold InputNeeds.of
  dsimp only
  rw [needed]
  exact enough

/-- The body of a worker that can go on performs as it would on its own. -/
theorem Tracks.performs {audited : Bool}
    (tracks : Tracks layout carried graph.bank id worker body progress)
    (sound : graph.frame.Sound) (unshared : graph.bank.Unshared)
    (describes : layout.Describes graph.frame) (known : graph.worker? id = some worker)
    (abides : Abides α μ audited (layout.shape id) body)
    (sated : (InputNeeds.of body (layout.shape id)).sated progress.rest = true) :
    Performs audited worker.rates (layout.shape id) (graph.portView worker)
      (respond μ (layout.shape id) progress.body progress.executions
        ((InputNeeds.of body (layout.shape id)).leading progress.rest))
      (graph.runBody id worker) := by
  obtain ⟨_, kind, member, abiding⟩ := abides
  have kept := tracks.reaches.kind_body abiding member
  have held := tracks.holds describes known
  have shapeEq := describes.worker_shape known
  have viewSound := Graph.portView_sound sound unshared known
  rw [← shapeEq] at viewSound
  have enough :
      (InputNeeds.of body (layout.shape id)).sated (graph.portView worker).holds = true := by
    rw [InputNeeds.sated_congr held]
    exact sated
  have performs := abiding.performs progress.body progress.executions id _ kept viewSound enough
  rw [InputNeeds.leading_congr held, ← describes.worker_rates known tracks.known] at performs
  have same : (graph.portView worker).work μ (layout.shape id) id progress.body
      progress.executions = graph.runBody id worker := by
    unfold Graph.runBody PortView.work
    rw [tracks.body_eq, tracks.executions, shapeEq]
    rfl
  rw [← same]
  exact performs

end

/-- What a firing does to a graph that is kept track of. -/
structure Fires [Signature β] [Work β α μ] (audited : Bool) (layout : Layout β)
    (drain : ChannelId) (carried : ChannelId → List α) (graph : Graph β α μ) (id : Nat)
    (worker : Worker β μ) (extra : ChannelId → List α) (left : Graph β α μ) : Prop where
  simulates : Simulates layout drain (fun channel => carried channel ++ extra channel) left
  silent : ∀ channel, channel ∉ layout.outputs id → extra channel = []
  workers : ∃ body, left.workers = graph.workers.set id
    { worker with body := body, executions := worker.executions + 1 }
  others : ∀ channel, channel ∉ layout.inputs id → channel ∉ layout.outputs id →
    left.bank.channel channel = graph.bank.channel channel
  rated : audited = true → (graph.portView worker).Uncounted worker.shape →
    Admitted worker.rates (graph.portView worker) left.bank

section

variable [Signature β] [Recipient β μ] [Work β α μ] {audited : Bool} {layout : Layout β}
  {drain : ChannelId} {carried : ChannelId → List α} {graph : Graph β α μ} {id : Nat}
  {worker : Worker β μ}

omit [Recipient β μ] in
private theorem Simulates.setWorker (simulates : Simulates layout drain carried graph)
    (wired : layout.Sound) (terminal : ∀ other, drain ∉ layout.inputs other)
    (known : graph.worker? id = some worker) {pushes : Nat → List α} {after : Bank α}
    (grown : ∀ channel, channel ∉ layout.inputs id → (after.channel channel).items =
      (graph.bank.channel channel).items ++ layout.poured id pushes channel)
    {new : Worker β μ} {body : β} {progress : Progress β α}
    (tracks : Tracks layout (fun channel => carried channel ++ layout.poured id pushes channel)
      after id new body progress) :
    Simulates layout drain (fun channel => carried channel ++ layout.poured id pushes channel)
      { graph.setWorker id new with bank := after } where
  workers := by
    intro other otherWorker found
    change (graph.setWorker id new).worker? other = some otherWorker at found
    by_cases same : other = id
    · subst same
      rw [graph.worker?_setWorker_self new (List.getElem?_eq_some_iff.mp known).1] at found
      cases found
      exact ⟨body, progress, tracks⟩
    · rw [graph.worker?_setWorker_of_ne new same] at found
      obtain ⟨otherBody, otherProgress, otherTracks⟩ := simulates.workers other otherWorker found
      refine ⟨otherBody, _, otherTracks.extend ?_ ?_⟩
      · intro channel member
        apply grown channel
        intro mine
        obtain ⟨index, place⟩ := List.mem_iff_getElem?.mp member
        obtain ⟨mineIndex, minePlace⟩ := List.mem_iff_getElem?.mp mine
        exact same (wired.inputOnce other id index mineIndex channel place minePlace).1
      · intro channel member
        apply Layout.poured_of_not_mem
        intro mine
        obtain ⟨index, place⟩ := List.mem_iff_getElem?.mp member
        obtain ⟨mineIndex, minePlace⟩ := List.mem_iff_getElem?.mp mine
        exact same (wired.outputOnce other id index mineIndex channel place minePlace).1
  drained := (grown drain (terminal id)).trans (by rw [simulates.drained])

/-- A worker that is not starved fires, and the graph is still kept track of. -/
theorem Simulates.fire (simulates : Simulates layout drain carried graph)
    (sound : graph.frame.Sound) (unshared : graph.bank.Unshared)
    (describes : layout.Describes graph.frame) (terminal : ∀ other, drain ∉ layout.inputs other)
    (abides : ∀ other body, layout.body other = some body →
      Abides α μ audited (layout.shape other) body)
    (known : graph.worker? id = some worker)
    (fed : worker.starvedInput graph.bank = .ok none) :
    ∃ extra left, graph.fire id = (.ok (), left) ∧
      Fires audited layout drain carried graph id worker extra left := by
  obtain ⟨body, progress, tracks⟩ := simulates.workers id worker known
  have wired := describes.sound sound.wiring
  have sated := tracks.sated sound describes known fed
  have performs := tracks.performs sound unshared describes known
    (abides id body tracks.known) sated
  have shapeEq := describes.worker_shape known
  obtain ⟨response, responds⟩ : ∃ response, response = respond μ (layout.shape id)
    progress.body progress.executions
      ((InputNeeds.of body (layout.shape id)).leading progress.rest) := ⟨_, rfl⟩
  rw [← responds] at performs
  have fires := Graph.fire_of_performs known tracks.idle performs
  have others (channel : ChannelId) (noInput : channel ∉ layout.inputs id)
      (noOutput : channel ∉ layout.outputs id) :
      (graph.runBody id worker).2.bank.channel channel = graph.bank.channel channel := by
    rw [describes.inputs] at noInput
    rw [describes.outputs] at noOutput
    apply Graph.channel_runBody_of_no_port unshared known rfl
    · intro port member same
      exact noInput (same ▸ List.mem_map_of_mem member)
    · intro port member same
      exact noOutput (same ▸ List.mem_map_of_mem member)
  have takes (index : Nat) (channel : ChannelId)
      (place : (layout.inputs id)[index]? = some channel) :
      ((graph.runBody id worker).2.bank.channel channel).items =
        (graph.bank.channel channel).items.drop (response.pops index) := by
    have taken := performs.takes index (List.getElem?_eq_some_iff.mp place).1
    unfold PortView.holds Graph.portView at taken
    dsimp only at taken
    rw [describes.onPort_input known _ place, describes.onPort_input known _ place] at taken
    exact taken
  have gives (index : Nat) (channel : ChannelId)
      (place : (layout.outputs id)[index]? = some channel) :
      ((graph.runBody id worker).2.bank.channel channel).items =
        (graph.bank.channel channel).items ++ layout.poured id response.pushes channel := by
    have given := performs.gives index (List.getElem?_eq_some_iff.mp place).1
    unfold Graph.portView at given
    dsimp only at given
    rw [describes.onPort_output known _ place, describes.onPort_output known _ place] at given
    rw [given, Layout.poured_of_output wired response.pushes place]
  -- A channel that is not an input of the worker gets what the worker puts there.
  have grown (channel : ChannelId) (noInput : channel ∉ layout.inputs id) :
      ((graph.runBody id worker).2.bank.channel channel).items =
        (graph.bank.channel channel).items ++ layout.poured id response.pushes channel := by
    by_cases mine : channel ∈ layout.outputs id
    · obtain ⟨index, place⟩ := List.mem_iff_getElem?.mp mine
      exact gives index channel place
    · rw [others channel noInput mine, Layout.poured_of_not_mem response.pushes mine,
        List.append_nil]
  refine ⟨layout.poured id response.pushes, _, fires, ?_, ?_, ⟨_, rfl⟩, others, ?_⟩
  · exact simulates.setWorker wired terminal known grown
      (tracks.advance wired sated responds takes)
  · intro channel absent
    exact Layout.poured_of_not_mem response.pushes absent
  · intro audits uncounted
    rw [← shapeEq] at uncounted
    exact performs.rated audits uncounted

end

end DemandFlow
