import DemandFlow.Proofs.Graph.Coherence
import DemandFlow.Work.Standard

/-!
What every built graph looks like. Whatever calls a builder has had, refused ones among
them, the two ends of a channel name each other, every channel is on one or two ports, every
number is in range, workers have the ports of their kind and rates for them, and the list of
connections agrees with the ports. The factory has been asked once for every channel that no
call attached.
-/

set_option autoImplicit false

namespace DemandFlow

variable {β α μ : Type}

namespace Wiring

theorem Sound.input_of_output {wiring : Wiring} (sound : wiring.Sound)
    {producer consumer : WorkerId} {output : Nat} {channel : ChannelId}
    (place : (wiring.outputs producer)[output]? =
      some { peer := some consumer, channel := channel }) :
    ∃ input : Nat, (wiring.inputs consumer)[input]? =
      some { peer := some producer, channel := channel } ∧ producer ≠ consumer := by
  obtain ⟨input, ⟨peer, other⟩, found, same⟩ :=
    sound.consumer producer output _ consumer place rfl
  obtain ⟨_, named, different⟩ :=
    sound.ends producer consumer output input _ _ place found same.symm
  cases same
  cases named
  exact ⟨input, found, different⟩

theorem Sound.output_of_input {wiring : Wiring} (sound : wiring.Sound)
    {producer consumer : WorkerId} {input : Nat} {channel : ChannelId}
    (place : (wiring.inputs consumer)[input]? =
      some { peer := some producer, channel := channel }) :
    ∃ output : Nat, (wiring.outputs producer)[output]? =
      some { peer := some consumer, channel := channel } := by
  obtain ⟨output, ⟨peer, other⟩, found, same⟩ :=
    sound.producer consumer input _ producer place rfl
  obtain ⟨named, _, _⟩ := sound.ends producer consumer output input _ _ found place same
  cases same
  cases named
  exact ⟨output, found⟩

end Wiring

namespace Graph

def Input (graph : Graph β α μ) (id : WorkerId) (index : Nat) (port : Port) : Prop :=
  ∃ worker, graph.worker? id = some worker ∧ worker.inputs[index]? = some port

def Output (graph : Graph β α μ) (id : WorkerId) (index : Nat) (port : Port) : Prop :=
  ∃ worker, graph.worker? id = some worker ∧ worker.outputs[index]? = some port

/-- Ports, portals, constraints and connections of a graph agree with each other. -/
structure Represented (graph : Graph β α μ) : Prop where
  numbered : ∀ id worker, graph.worker? id = some worker → worker.id = id
  /-- The two ends of a channel name each other. -/
  mirrored : ∀ producer consumer channel,
    (∃ index, graph.Output producer index { peer := some consumer, channel := channel }) ↔
      ∃ index, graph.Input consumer index { peer := some producer, channel := channel }
  apart : ∀ producer index consumer channel,
    graph.Output producer index { peer := some consumer, channel := channel } →
      producer ≠ consumer
  outputOnce : ∀ left right leftIndex rightIndex leftPort rightPort,
    graph.Output left leftIndex leftPort → graph.Output right rightIndex rightPort →
      leftPort.channel = rightPort.channel → left = right ∧ leftIndex = rightIndex
  inputOnce : ∀ left right leftIndex rightIndex leftPort rightPort,
    graph.Input left leftIndex leftPort → graph.Input right rightIndex rightPort →
      leftPort.channel = rightPort.channel → left = right ∧ leftIndex = rightIndex
  used : ∀ channel, channel < graph.channelCount → ∃ id index port,
    (graph.Input id index port ∨ graph.Output id index port) ∧ port.channel = channel
  /-- What a port names is there. -/
  ports : ∀ id index port, graph.Input id index port ∨ graph.Output id index port →
    port.channel < graph.channelCount ∧
      ∀ peer, port.peer = some peer → peer < graph.workers.length
  recipients : ∀ registered ∈ graph.recipients, ∀ id ∈ registered, id < graph.workers.length
  constraints : ∀ constraint ∈ graph.constraints, constraint.sender < graph.workers.length ∧
    constraint.recipient < graph.workers.length ∧
    constraint.portal < graph.recipients.length
  arity : ∀ id worker, graph.worker? id = some worker →
    match worker.kind with
    | .filter => worker.inputs.length = 1 ∧ worker.outputs.length = 1
    | .splitter => worker.inputs.length = 1 ∧ 1 ≤ worker.outputs.length
    | .joiner => 1 ≤ worker.inputs.length ∧ worker.outputs.length = 1
  rates : ∀ id worker, graph.worker? id = some worker →
    worker.rates.peek.length = worker.inputs.length ∧
      worker.rates.pop.length = worker.inputs.length ∧
      worker.rates.push.length = worker.outputs.length
  routes : graph.constraints.Pairwise (fun left right => left.route ≠ right.route)
  registered : ∀ constraint ∈ graph.constraints,
    constraint.recipient ∈ graph.recipientsOf constraint.portal
  /-- The connections are the outputs with a peer. -/
  edges : ∀ edge, edge ∈ graph.topology ↔ ∃ index,
    graph.Output edge.producer index { peer := some edge.consumer, channel := edge.channel }
  /-- A channel is connected once. -/
  edgeOnce : (graph.topology.map Edge.channel).Nodup

theorem input_iff {graph : Graph β α μ} {id : WorkerId} {index : Nat} {port : Port} :
    graph.Input id index port ↔ (graph.frame.wiring.inputs id)[index]? = some port := by
  constructor
  · rintro ⟨worker, known, place⟩
    rw [wiring_inputs known]
    exact place
  · intro place
    cases known : graph.worker? id with
    | none => simp [GraphFrame.wiring, frame_get, known] at place
    | some worker =>
        rw [wiring_inputs known] at place
        exact ⟨worker, known, place⟩

theorem output_iff {graph : Graph β α μ} {id : WorkerId} {index : Nat} {port : Port} :
    graph.Output id index port ↔ (graph.frame.wiring.outputs id)[index]? = some port := by
  constructor
  · rintro ⟨worker, known, place⟩
    rw [wiring_outputs known]
    exact place
  · intro place
    cases known : graph.worker? id with
    | none => simp [GraphFrame.wiring, frame_get, known] at place
    | some worker =>
        rw [wiring_outputs known] at place
        exact ⟨worker, known, place⟩

theorem mem_edgesOf {worker : Worker β μ} {edge : Edge} :
    edge ∈ Builder.edgesOf worker ↔ edge.producer = worker.id ∧
      { peer := some edge.consumer, channel := edge.channel } ∈ worker.outputs := by
  unfold Builder.edgesOf
  rw [List.mem_filterMap]
  constructor
  · rintro ⟨⟨peer, channel⟩, member, found⟩
    obtain ⟨consumer, rfl, rfl⟩ := Option.map_eq_some_iff.mp found
    exact ⟨rfl, member⟩
  · rintro ⟨named, member⟩
    refine ⟨_, member, ?_⟩
    rw [Option.map_some, ← named]

private theorem mem_topology {graph : Graph β α μ}
    (listed : graph.topology = graph.workers.flatMap Builder.edgesOf)
    (numbered : ∀ id worker, graph.worker? id = some worker → worker.id = id) {edge : Edge} :
    edge ∈ graph.topology ↔ ∃ index,
      graph.Output edge.producer index
        { peer := some edge.consumer, channel := edge.channel } := by
  rw [listed, List.mem_flatMap]
  constructor
  · rintro ⟨worker, member, found⟩
    obtain ⟨id, known⟩ := List.mem_iff_getElem?.mp member
    obtain ⟨named, output⟩ := mem_edgesOf.mp found
    obtain ⟨index, place⟩ := List.mem_iff_getElem?.mp output
    rw [numbered id worker known] at named
    exact ⟨index, worker, named ▸ known, place⟩
  · rintro ⟨index, worker, known, place⟩
    refine ⟨worker, List.mem_of_getElem? known, mem_edgesOf.mpr ⟨?_, List.mem_of_getElem? place⟩⟩
    exact (numbered _ worker known).symm

private theorem nodup_topology {graph : Graph β α μ}
    (listed : graph.topology = graph.workers.flatMap Builder.edgesOf)
    (once : ∀ left right leftIndex rightIndex leftPort rightPort,
      graph.Output left leftIndex leftPort → graph.Output right rightIndex rightPort →
        leftPort.channel = rightPort.channel → left = right ∧ leftIndex = rightIndex) :
    (graph.topology.map Edge.channel).Nodup := by
  unfold List.Nodup
  rw [listed, List.pairwise_map, List.pairwise_flatMap]
  constructor
  · intro worker member
    obtain ⟨id, known⟩ := List.mem_iff_getElem?.mp member
    unfold Builder.edgesOf
    rw [List.pairwise_filterMap, List.pairwise_iff_getElem]
    intro left right leftBound rightBound before first firstFound second secondFound same
    obtain ⟨_, _, rfl⟩ := Option.map_eq_some_iff.mp firstFound
    obtain ⟨_, _, rfl⟩ := Option.map_eq_some_iff.mp secondFound
    have equal := once id id left right _ _ ⟨worker, known, List.getElem?_eq_getElem leftBound⟩
      ⟨worker, known, List.getElem?_eq_getElem rightBound⟩ same
    omega
  · rw [List.pairwise_iff_getElem]
    intro left right leftBound rightBound before first firstIn second secondIn same
    obtain ⟨leftIndex, leftPlace⟩ := List.mem_iff_getElem?.mp (mem_edgesOf.mp firstIn).2
    obtain ⟨rightIndex, rightPlace⟩ := List.mem_iff_getElem?.mp (mem_edgesOf.mp secondIn).2
    have equal := once left right leftIndex rightIndex _ _
      ⟨_, List.getElem?_eq_getElem leftBound, leftPlace⟩
      ⟨_, List.getElem?_eq_getElem rightBound, rightPlace⟩ same
    exact absurd equal.1 (Nat.ne_of_lt before)

/-! ### Built graphs -/

def Links (graph : Graph β α μ) (channel : ChannelId) (ends : ChannelRequest) : Prop :=
  (∀ id, ends.producer = some id ↔ ∃ index port, graph.Output id index port ∧
    port.channel = channel) ∧
  ∀ id, ends.consumer = some id ↔ ∃ index port, graph.Input id index port ∧
    port.channel = channel

private theorem links_of_wiring {graph : Graph β α μ} {channel : ChannelId} {ends : ChannelRequest}
    (links : graph.frame.wiring.Links channel ends) : graph.Links channel ends := by
  constructor
  · intro id
    simp only [links.producer, output_iff, List.mem_iff_getElem?]
    constructor
    · rintro ⟨port, ⟨index, place⟩, same⟩
      exact ⟨index, port, place, same⟩
    · rintro ⟨index, port, place, same⟩
      exact ⟨port, ⟨index, place⟩, same⟩
  · intro id
    simp only [links.consumer, input_iff, List.mem_iff_getElem?]
    constructor
    · rintro ⟨port, ⟨index, place⟩, same⟩
      exact ⟨index, port, place, same⟩
    · rintro ⟨index, port, place, same⟩
      exact ⟨port, ⟨index, place⟩, same⟩

theorem lt_of_input {graph : Graph β α μ} {id : WorkerId} {index : Nat} {port : Port}
    (input : graph.Input id index port) : id < graph.workers.length := by
  obtain ⟨worker, known, _⟩ := input
  exact (List.getElem?_eq_some_iff.mp known).1

theorem lt_of_output {graph : Graph β α μ} {id : WorkerId} {index : Nat} {port : Port}
    (output : graph.Output id index port) : id < graph.workers.length := by
  obtain ⟨worker, known, _⟩ := output
  exact (List.getElem?_eq_some_iff.mp known).1

section

variable {graph : Graph β α μ} (sound : graph.frame.wiring.Sound)

include sound

private theorem mirrored_of_sound (producer consumer : WorkerId) (channel : ChannelId) :
    (∃ index, graph.Output producer index { peer := some consumer, channel := channel }) ↔
      ∃ index, graph.Input consumer index { peer := some producer, channel := channel } := by
  constructor
  · rintro ⟨index, output⟩
    rcases sound.input_of_output (output_iff.mp output) with ⟨input, place, _⟩
    exact ⟨input, input_iff.mpr place⟩
  · rintro ⟨index, input⟩
    rcases sound.output_of_input (input_iff.mp input) with ⟨output, place⟩
    exact ⟨output, output_iff.mpr place⟩

private theorem outputOnce_of_sound (first second : WorkerId) (firstIndex secondIndex : Nat)
    (firstPort secondPort : Port) (firstAt : graph.Output first firstIndex firstPort)
    (secondAt : graph.Output second secondIndex secondPort)
    (same : firstPort.channel = secondPort.channel) :
    first = second ∧ firstIndex = secondIndex :=
  sound.outputOnce _ _ _ _ _ _ (output_iff.mp firstAt) (output_iff.mp secondAt) same

private theorem inputOnce_of_sound (first second : WorkerId) (firstIndex secondIndex : Nat)
    (firstPort secondPort : Port) (firstAt : graph.Input first firstIndex firstPort)
    (secondAt : graph.Input second secondIndex secondPort)
    (same : firstPort.channel = secondPort.channel) :
    first = second ∧ firstIndex = secondIndex :=
  sound.inputOnce _ _ _ _ _ _ (input_iff.mp firstAt) (input_iff.mp secondAt) same

private theorem ports_of_sound {id : WorkerId} {index : Nat} {port : Port}
    (has : graph.Input id index port ∨ graph.Output id index port) :
    port.channel < graph.frame.wiring.channels ∧
      ∀ peer, port.peer = some peer → peer < graph.workers.length := by
  cases port with
  | mk peer? channel =>
      constructor
      · rcases has with input | output
        · exact sound.inputRange id index _ (input_iff.mp input)
        · exact sound.outputRange id index _ (output_iff.mp output)
      · rintro peer rfl
        rcases has with input | output
        · rcases sound.output_of_input (input_iff.mp input) with ⟨_, place⟩
          exact lt_of_output (output_iff.mpr place)
        · rcases sound.input_of_output (output_iff.mp output) with ⟨_, place, _⟩
          exact lt_of_input (input_iff.mpr place)

end

private theorem used_of_covered {graph : Graph β α μ} (covered : graph.frame.wiring.Covered)
    {channel : ChannelId} (within : channel < graph.frame.wiring.channels) : ∃ id index port,
      (graph.Input id index port ∨ graph.Output id index port) ∧ port.channel = channel := by
  rcases covered channel within with ⟨id, port, member, same⟩
  rcases List.mem_append.mp member with input | output
  · rcases List.mem_iff_getElem?.mp input with ⟨index, place⟩
    exact ⟨id, index, port, .inl (input_iff.mpr place), same⟩
  · rcases List.mem_iff_getElem?.mp output with ⟨index, place⟩
    exact ⟨id, index, port, .inr (output_iff.mpr place), same⟩

section

variable [Signature β] {builder : Builder β α} {graph : Graph β α μ} {left : Builder β α}
  {attached : List ChannelId}

/-- The graph has been made of the drafts of a builder whose ports are complete. -/
structure MadeOf (graph : Graph β α μ) (left : Builder β α) : Prop where
  workers : Builder.finishAll 0 left.drafts = .ok graph.workers
  bank : graph.bank = left.bank
  constraints : graph.constraints = left.constraints
  recipients : graph.recipients = left.portals.map PortalEntry.workers
  topology : graph.topology = graph.workers.flatMap Builder.edgesOf

theorem madeOf_of_build (made : builder.build = (.ok graph, left)) :
    builder.complete = (.ok (), left) ∧ graph.MadeOf left := by
  unfold Builder.build at made
  split at made
  next => cases made
  next after completed =>
    split at made
    next => cases made
    next workers finished =>
      cases made
      exact ⟨completed, finished, rfl, rfl, rfl, rfl⟩

theorem MadeOf.wiring (made : graph.MadeOf left) : graph.frame.wiring = left.wiring :=
  wiring_of_finishAll made.workers made.bank

theorem MadeOf.channels (made : graph.MadeOf left) :
    graph.frame.wiring.channels = graph.channelCount := by
  rw [made.wiring]
  unfold channelCount
  rw [made.bank]
  rfl

theorem MadeOf.count (made : graph.MadeOf left) : left.kinds.length = graph.workers.length := by
  rw [Builder.length_finishAll made.workers, Builder.kinds, List.length_map]

private theorem MadeOf.numbered (made : graph.MadeOf left) (id : WorkerId) (worker : Worker β μ)
    (known : graph.worker? id = some worker) : worker.id = id := by
  rcases worker_of_finishAll made.workers known with ⟨_, _, shared⟩
  exact shared.id_eq

private theorem MadeOf.kind (made : graph.MadeOf left) {id : WorkerId} {worker : Worker β μ}
    (known : graph.worker? id = some worker) : left.kinds[id]? = some worker.kind := by
  rcases worker_of_finishAll made.workers known with ⟨draft, place, shared⟩
  rw [Builder.kinds, List.getElem?_map, place, shared.kind]
  rfl

private theorem MadeOf.rates (made : graph.MadeOf left) (id : WorkerId) (worker : Worker β μ)
    (known : graph.worker? id = some worker) :
    worker.rates.peek.length = worker.inputs.length ∧
      worker.rates.pop.length = worker.inputs.length ∧
      worker.rates.push.length = worker.outputs.length := by
  rcases worker_of_finishAll made.workers known with ⟨_, _, shared⟩
  exact WorkerRates.fits_iff.mp shared.rated

private theorem MadeOf.registered_lt (made : graph.MadeOf left)
    (coherent : Builder.Coherent attached left) {registered : List WorkerId}
    (member : registered ∈ graph.recipients) {id : WorkerId} (among : id ∈ registered) :
    id < graph.workers.length := by
  rw [made.recipients] at member
  rcases List.mem_map.mp member with ⟨entry, entryIn, rfl⟩
  rw [← made.count]
  exact coherent.recipients entry entryIn id among

private theorem MadeOf.constraint (made : graph.MadeOf left)
    (coherent : Builder.Coherent attached left) {constraint : Constraint}
    (member : constraint ∈ graph.constraints) :
    constraint.sender < graph.workers.length ∧
      ∃ registered, graph.recipients[constraint.portal]? = some registered ∧
        constraint.recipient ∈ registered := by
  rw [made.constraints] at member
  rcases coherent.constraints constraint member with ⟨sender, entry, found, recipient⟩
  constructor
  · rw [← made.count]
    exact sender
  · refine ⟨entry.workers, ?_, recipient⟩
    rw [made.recipients, List.getElem?_map, found]
    rfl

/-- A worker whose inputs and outputs are not empty has as many of them as its kind asks for:
a builder never gives it more. -/
theorem MadeOf.arity (made : graph.MadeOf left) (coherent : Builder.Coherent attached left)
    {id : WorkerId} {worker : Worker β μ} (known : graph.worker? id = some worker)
    (fed : 1 ≤ worker.inputs.length) (drained : 1 ≤ worker.outputs.length) :
    match worker.kind with
    | .filter => worker.inputs.length = 1 ∧ worker.outputs.length = 1
    | .splitter => worker.inputs.length = 1 ∧ 1 ≤ worker.outputs.length
    | .joiner => 1 ≤ worker.inputs.length ∧ worker.outputs.length = 1 := by
  have oneInput (notJoiner : worker.kind ≠ .joiner) : worker.inputs.length = 1 := by
    have few := coherent.inputs id worker.kind (made.kind known) notJoiner
    rw [← made.wiring, wiring_inputs known] at few
    omega
  have oneOutput (notSplitter : worker.kind ≠ .splitter) : worker.outputs.length = 1 := by
    have few := coherent.outputs id worker.kind (made.kind known) notSplitter
    rw [← made.wiring, wiring_outputs known] at few
    omega
  cases role : worker.kind with
  | filter =>
      rw [role] at oneInput oneOutput
      exact ⟨oneInput (nofun), oneOutput (nofun)⟩
  | splitter =>
      rw [role] at oneInput
      exact ⟨oneInput (nofun), drained⟩
  | joiner =>
      rw [role] at oneOutput
      exact ⟨fed, oneOutput (nofun)⟩

theorem MadeOf.represented (made : graph.MadeOf left)
    (filled : Builder.Filled attached builder left)
    (complete : ∀ id, id < left.drafts.length →
      left.wiring.inputs id ≠ [] ∧ left.wiring.outputs id ≠ []) : graph.Represented := by
  have sound : graph.frame.wiring.Sound := made.wiring ▸ filled.sound.wiring
  have covered : graph.frame.wiring.Covered := made.wiring ▸ filled.coherent.covered
  have once := outputOnce_of_sound sound
  constructor
  case numbered => exact made.numbered
  case mirrored => exact mirrored_of_sound sound
  case apart =>
    intro producer index consumer channel output
    rcases sound.input_of_output (output_iff.mp output) with ⟨_, _, different⟩
    exact different
  case outputOnce => exact once
  case inputOnce => exact inputOnce_of_sound sound
  case used =>
    intro channel within
    rw [← made.channels] at within
    exact used_of_covered covered within
  case ports =>
    intro id index port has
    rw [← made.channels]
    exact ports_of_sound sound has
  case recipients =>
    intro registered member id among
    exact made.registered_lt filled.coherent member among
  case constraints =>
    intro constraint member
    rcases made.constraint filled.coherent member with ⟨sender, registered, found, recipient⟩
    have among := made.registered_lt filled.coherent (List.mem_of_getElem? found) recipient
    exact ⟨sender, among, (List.getElem?_eq_some_iff.mp found).1⟩
  case arity =>
    intro id worker known
    have within : id < left.drafts.length := by
      rw [← Builder.length_finishAll made.workers]
      exact (List.getElem?_eq_some_iff.mp known).1
    rcases complete id within with ⟨fed, drained⟩
    rw [← made.wiring, wiring_inputs known] at fed
    rw [← made.wiring, wiring_outputs known] at drained
    exact made.arity filled.coherent known (List.length_pos_iff.mpr fed)
      (List.length_pos_iff.mpr drained)
  case rates => exact made.rates
  case routes => exact made.constraints ▸ filled.sound.routes
  case registered =>
    intro constraint member
    rcases made.constraint filled.coherent member with ⟨_, registered, found, recipient⟩
    unfold recipientsOf
    rw [found]
    exact recipient
  case edges => exact fun edge => mem_topology made.topology made.numbered
  case edgeOnce => exact nodup_topology made.topology once

theorem Built.represented (built : graph.Built) : graph.Represented := by
  rcases built with ⟨builder, assembled, made⟩
  rcases assembled.coherent with ⟨attached, coherent⟩
  have outcome : ∃ left, builder.build = (.ok graph, left) := ⟨_, Prod.ext made rfl⟩
  rcases outcome with ⟨left, outcome⟩
  rcases madeOf_of_build outcome with ⟨completed, made⟩
  rcases coherent.completeAll assembled.sound completed with ⟨filled, complete⟩
  have count : left.drafts.length = builder.drafts.length := by
    simpa only [Builder.kinds, List.length_map] using congrArg List.length filled.kinds
  apply made.represented filled
  intro id within
  exact complete id (List.mem_range.mpr (count ▸ within))

end

/-- Being represented faithfully is a matter of what a running graph never changes. -/
theorem Represented.of_frame_eq {graph current : Graph β α μ} (represented : graph.Represented)
    (same : current.frame = graph.frame) : current.Represented := by
  have inputs : current.Input = graph.Input := by
    funext id index port
    exact propext (input_iff.trans (by rw [same, input_iff]))
  have outputs : current.Output = graph.Output := by
    funext id index port
    exact propext (output_iff.trans (by rw [same, output_iff]))
  have count : current.workers.length = graph.workers.length := by
    simpa only [frame, List.length_map] using congrArg (fun frame => frame.workers.length) same
  have channels : current.channelCount = graph.channelCount :=
    Bank.size_of_keys_eq (congrArg GraphFrame.keys same)
  have constraints : current.constraints = graph.constraints :=
    congrArg GraphFrame.constraints same
  have recipients : current.recipients = graph.recipients := congrArg GraphFrame.recipients same
  have topology : current.topology = graph.topology := congrArg GraphFrame.topology same
  have known {id : WorkerId} {worker : Worker β μ} (found : current.worker? id = some worker) :
      ∃ other, graph.worker? id = some other ∧ other.frame = worker.frame :=
    worker_of_frame_eq same found
  constructor
  case numbered =>
    intro id worker found
    rcases known found with ⟨other, there, frameEq⟩
    rw [← represented.numbered id other there]
    exact congrArg WorkerFrame.id frameEq.symm
  case arity =>
    intro id worker found
    rcases known found with ⟨other, there, frameEq⟩
    have kindEq : other.kind = worker.kind := congrArg WorkerFrame.kind frameEq
    have inputsEq : other.inputs = worker.inputs := congrArg WorkerFrame.inputs frameEq
    have outputsEq : other.outputs = worker.outputs := congrArg WorkerFrame.outputs frameEq
    have here := represented.arity id other there
    rw [kindEq, inputsEq, outputsEq] at here
    exact here
  case rates =>
    intro id worker found
    rcases known found with ⟨other, there, frameEq⟩
    have ratesEq : other.rates = worker.rates := congrArg WorkerFrame.rates frameEq
    have inputsEq : other.inputs = worker.inputs := congrArg WorkerFrame.inputs frameEq
    have outputsEq : other.outputs = worker.outputs := congrArg WorkerFrame.outputs frameEq
    have here := represented.rates id other there
    rw [ratesEq, inputsEq, outputsEq] at here
    exact here
  case mirrored => rw [inputs, outputs]; exact represented.mirrored
  case apart => rw [outputs]; exact represented.apart
  case outputOnce => rw [outputs]; exact represented.outputOnce
  case inputOnce => rw [inputs]; exact represented.inputOnce
  case used => rw [inputs, outputs, channels]; exact represented.used
  case ports => rw [inputs, outputs, channels, count]; exact represented.ports
  case recipients => rw [recipients, count]; exact represented.recipients
  case constraints => rw [constraints, recipients, count]; exact represented.constraints
  case routes => rw [constraints]; exact represented.routes
  case registered =>
    unfold recipientsOf
    rw [constraints, recipients]
    exact represented.registered
  case edges => rw [topology, outputs]; exact represented.edges
  case edgeOnce => rw [topology]; exact represented.edgeOnce

end Graph

/-- Whatever calls a builder has had, a graph that it builds is represented faithfully, and
the factory was asked for exactly the channels that no call attached, once each and with the
workers at their ends. -/
theorem Builder.build_represents [Signature β] {factory : ChannelFactory}
    {calls : List (Builder.Call β α)} {graph : Graph β α μ} {left : Builder β α}
    (made : (Builder.performAll { factory := factory } calls).build = (.ok graph, left)) :
    graph.Represented ∧
      List.Forall₂ graph.Links
        ((List.range graph.channelCount).filter fun channel =>
          !(Builder.attachedBy { factory := factory } calls).contains channel)
        left.requests := by
  obtain ⟨completed, madeOf⟩ := Graph.madeOf_of_build made
  obtain ⟨assembled, coherent⟩ :=
    (Builder.coherent_fresh factory).performAll (.fresh factory) calls
  obtain ⟨filled, complete⟩ := coherent.completeAll assembled.sound completed
  have count : left.drafts.length =
      (Builder.performAll { factory := factory } calls).drafts.length := by
    simpa only [kinds, List.length_map] using congrArg List.length filled.kinds
  constructor
  · apply madeOf.represented filled
    intro id within
    exact complete id (List.mem_range.mpr (count ▸ within))
  · have requests := filled.coherent.requests
    rw [← madeOf.wiring, madeOf.channels] at requests
    exact requests.imp (fun _ _ links => Graph.links_of_wiring links)

/-- A filter in front of two branches. Its input is attached, the output of the joiner is
left to the factory, and three of the calls are refused. -/
def forkCalls : List (Builder.Call Standard Nat) :=
  [.addWorker .filter ⟨"head", .identity⟩,
    .addStream (.splitjoin ⟨"fork", .duplicate⟩
      [.filter ⟨"left", .identity⟩, .filter ⟨"right", .identity⟩] ⟨"meet", .roundRobinJoin 1⟩),
    .connect 0 0,
    .connect 0 1,
    .attachInput 0 (.own { items := [4, 5] }),
    .attachInput 0 (.own {}),
    .addPortal .identity,
    .register { id := 0, recipient := .identity } 4,
    .addConstraint ⟨⟨0, 4, 0⟩, .latency 1⟩,
    .addConstraint ⟨⟨0, 4, 0⟩, .latency 2⟩]

theorem Builder.build_represents_fork : ∃ (graph : Graph Standard Nat Unit) (left : _),
    (performAll {} forkCalls).build = (.ok graph, left) ∧ graph.Represented ∧
      List.Forall₂ graph.Links
        ((List.range graph.channelCount).filter fun channel =>
          !(attachedBy {} forkCalls).contains channel) left.requests ∧
      attachedBy {} forkCalls = [5] ∧ left.requests.length = 6 := by
  have built : ((performAll {} forkCalls).build (μ := Unit)).1.isOk = true ∧
      ((performAll {} forkCalls).build (μ := Unit)).2.requests.length = 6 := by
    decide +kernel
  cases made : (performAll {} forkCalls).build (μ := Unit) with
  | mk answer left =>
      rw [made] at built
      cases answer with
      | error error => cases built.1
      | ok graph =>
          obtain ⟨represented, requested⟩ := build_represents made
          exact ⟨graph, left, rfl, represented, requested, by decide +kernel, built.2⟩

end DemandFlow
