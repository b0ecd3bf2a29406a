import DemandFlow.Proofs.Stream.Demand
import DemandFlow.Proofs.Stream.Installation

/-!
What compiling makes of a stream. The interpreter of the compiled stream hosts the stream
between its two tokens, and it starts with nothing carried anywhere and nothing counted.
-/

set_option autoImplicit false

namespace DemandFlow

variable {β α μ : Type}

theorem Builder.Plain.channel {kind : ChannelKind} {builder : Builder β α}
    (plain : builder.Plain kind) {id : ChannelId} (known : id < builder.bank.size) :
    builder.bank.channel id = .ofKind kind := by
  have place := List.getElem?_eq_getElem (show id < builder.bank.slots.length from known)
  have slot := plain.slots _ (List.mem_of_getElem? place)
  unfold Bank.channel Bank.channel?
  rw [place, slot]
  rfl

private theorem Builder.Plain.items {kind : ChannelKind} {builder : Builder β α}
    (plain : builder.Plain kind) (id : ChannelId) : (builder.bank.channel id).items = [] := by
  by_cases known : id < builder.bank.size
  · rw [plain.channel known]
    rfl
  · have absent := List.getElem?_eq_none (Nat.le_of_not_lt known)
    unfold Bank.channel Bank.channel?
    rw [absent]
    rfl

private theorem Builder.Plain.owned {kind : ChannelKind} {builder : Builder β α}
    (plain : builder.Plain kind) : ∀ key ∈ builder.bank.keys, key = none := by
  intro key member
  obtain ⟨slot, slotIn, rfl⟩ := List.mem_map.mp member
  rw [plain.slots slot slotIn]
  rfl

private theorem Config.instrumented_effectiveChannel {config : Config}
    (audits : config.auditRates = true) :
    config.effectiveChannel.instrumented = true := by
  unfold effectiveChannel
  cases config.channel with
  | array =>
      rw [audits]
      rfl
  | debug => rfl
  | synchronized => rfl

private theorem Graph.Fresh.simulates [Signature β] [Work β α μ] {graph : Graph β α μ}
    (fresh : graph.Fresh) (empty : ∀ id, (graph.bank.channel id).items = [])
    (drain : ChannelId) : Simulates graph.layout drain (fun _ => []) graph where
  workers := by
    intro id worker known
    obtain ⟨executions, idle⟩ := fresh id worker known
    have placed : graph.layout.body id = some worker.body := by
      unfold layout
      dsimp only
      rw [known]
      rfl
    refine ⟨worker.body, _, placed, .start, rfl, executions, idle, ?_, fun _ _ _ => rfl⟩
    intro index channel place
    rw [empty channel]
    exact (Layout.onInputs_of_some (fun _ => []) place).symm
  drained := empty drain

namespace Compiler

theorem compile_view [Signature β] {compiler : Compiler} {element : Element β}
    {stream : CompiledStream β α μ} (made : compiler.compile element = .ok stream) :
    ∃ (builder : Builder β α) (head tail : WorkerId) (graph : Graph β α μ)
      (interpreter : Interpreter β α μ),
      (compiler.builder : Builder β α).addStream element = (.ok (head, tail), builder) ∧
      builder.build.1 = .ok graph ∧ Interpreter.forGraph graph = .ok interpreter ∧
      CompiledStream.create
        { interpreter with
          delegate := { audits := compiler.config.auditRates }
          maxPasses := compiler.config.maxPasses }
        head tail compiler.config.checkPendingMessages = .ok stream := by
  unfold compile at made
  split at made
  next => cases made
  next head tail builder expanded =>
    unfold compileBuilt at made
    split at made
    next => cases made
    next graph built =>
      split at made
      next => cases made
      next interpreter opened =>
        exact ⟨builder, head, tail, graph, interpreter, expanded, built, opened, made⟩

end Compiler

structure Graph.Embodies [Signature β] (graph : Graph β α μ) (kind : ChannelKind)
    (element : Element β) (source drain : ChannelId) : Prop where
  built : graph.Built
  describes : graph.layout.Describes graph.frame
  placed : element.Placed graph.layout 0 [source] [drain]
  count : graph.workers.length = element.workerCount
  owned : ∀ key ∈ graph.bank.keys, key = none
  channels : ∀ id, id < graph.bank.size → graph.bank.channel id = .ofKind kind
  empty : ∀ id, (graph.bank.channel id).items = []
  constraints : graph.constraints = []

theorem Compiler.plain {compiler : Compiler} {element : Element β} {builder : Builder β α}
    {head tail : WorkerId}
    (expanded : (compiler.builder : Builder β α).addStream element = (.ok (head, tail), builder)) :
    builder.Plain compiler.config.effectiveChannel := by
  have grown := (Builder.Plain.keptByGrowth compiler.config.effectiveChannel).addStream element
    (compiler.builder : Builder β α) ⟨rfl, fun slot member => absurd member List.not_mem_nil, rfl⟩
  rw [expanded] at grown
  exact grown

theorem Compiler.embodies [Signature β] {compiler : Compiler} {element : Element β}
    {builder : Builder β α} {head tail : WorkerId} {graph : Graph β α μ}
    (expanded : (compiler.builder : Builder β α).addStream element = (.ok (head, tail), builder))
    (built : builder.build.1 = .ok graph) :
    head = 0 ∧ tail = element.last 0 ∧ ∃ source drain,
      graph.Embodies compiler.config.effectiveChannel element source drain := by
  have assembled : builder.Assembled := by
    have grown := Builder.Assembled.addStream element
      (Builder.Assembled.fresh (β := β) (α := α) compiler.factory)
    unfold Compiler.builder at expanded
    rw [expanded] at grown
    exact grown
  have plain := Compiler.plain expanded
  have placing := Builder.addStream_expanded element expanded
  obtain ⟨after, workers, completed, finished, rfl, bankEq, constraintsEq, _⟩ :=
    Graph.build_view built
  have complete := Builder.completeAll_completed plain completed
  have count : builder.drafts.length = element.workerCount := by
    rw [placing.count]
    exact Nat.zero_add _
  obtain ⟨source, drain, placed⟩ := complete.placed placing.placed count
  refine ⟨placing.head_eq, placing.tail_eq, source, drain, ?_⟩
  exact
    { built := ⟨builder, assembled, built⟩
      describes := Graph.layout_describes finished
      placed := by
        rw [Graph.layout_of_finishAll finished bankEq]
        exact placed
      count := by
        rw [Builder.length_finishAll finished, complete.length_eq]
        exact count
      owned := by
        rw [bankEq]
        exact complete.plain.owned
      channels := by
        rw [bankEq]
        exact fun id known => complete.plain.channel known
      empty := by
        rw [bankEq]
        exact complete.plain.items
      constraints := constraintsEq.trans complete.plain.constraints }

theorem Interpreter.members_of_forGraph {graph : Graph β α μ} {made : Interpreter β α μ}
    (opened : Interpreter.forGraph graph = .ok made) :
    made.members = List.range graph.workers.length := by
  rw [(Interpreter.accepted_of_create opened).members]
  exact List.filter_eq_self.mpr (fun id member => List.contains_iff_mem.mpr member)

section

variable [Signature β] {kind : ChannelKind} {element : Element β} {source drain : ChannelId}
  {graph : Graph β α μ} {interpreter : Interpreter β α μ}

/-- The ends of a section with the whole stream are those of the stream. -/
theorem Graph.Embodies.ends_eq (embodies : graph.Embodies kind element source drain)
    {entry exit : ChannelId} (ends : interpreter.Ends 0 (element.last 0) entry exit)
    (same : interpreter.graph = graph) : entry = source ∧ exit = drain := by
  subst same
  have framed := embodies.placed.framed
  obtain ⟨entryPort, entryIn, rfl, _⟩ := ends.entry
  obtain ⟨exitPort, exitIn, rfl, _⟩ := ends.exit
  have entered : entryPort.channel ∈ interpreter.graph.layout.inputs 0 :=
    List.mem_map_of_mem entryIn
  have left : exitPort.channel ∈ interpreter.graph.layout.outputs (element.last 0) :=
    List.mem_map_of_mem exitIn
  rw [framed.inputs] at entered
  rw [framed.outputs] at left
  exact ⟨List.mem_singleton.mp entered, List.mem_singleton.mp left⟩

private theorem Graph.Embodies.sinksOf_eq (embodies : graph.Embodies kind element source drain)
    (ends : interpreter.Ends 0 (element.last 0) source drain)
    (same : interpreter.graph = graph)
    (members : interpreter.members = List.range graph.workers.length) :
    Interpreter.sinksOf graph interpreter.members = [element.last 0] := by
  subst same
  have framed := embodies.placed.framed
  have bound := framed.bound
  rw [Nat.zero_add] at framed bound
  apply ends.sinksOf_eq embodies.built.sound.wiring
  · intro id worker known
    rw [members]
    exact List.mem_range.mpr (List.getElem?_eq_some_iff.mp known).1
  · rw [members]
    exact List.nodup_range
  · rw [members, embodies.count]
    exact List.mem_range.mpr bound
  · intro port member
    have onOutput : port.channel ∈ interpreter.graph.layout.outputs (element.last 0) :=
      List.mem_map_of_mem member
    rw [framed.outputs] at onOutput
    exact List.mem_singleton.mp onOutput
  · intro id inside different empty
    rw [members, embodies.count] at inside
    apply framed.feeding id (Nat.zero_le _) (List.mem_range.mp inside) different
    change (interpreter.graph.frame.wiring.outputs id).map Port.channel = []
    rw [empty]
    rfl

end

/-- An interpreter over the graph of a stream hosts the stream, if the ends of the section
are those of the stream. -/
theorem Graph.Embodies.hosts [Signature β] [Work β α μ] {kind : ChannelKind}
    {element : Element β} {source drain : ChannelId} {graph : Graph β α μ}
    {made : Interpreter β α μ} {audited : Bool} {maxPasses : Option Nat}
    (embodies : graph.Embodies kind element source drain)
    (opened : Interpreter.forGraph graph = .ok made)
    (ends : Interpreter.Ends
      { made with delegate := { audits := audited }, maxPasses := maxPasses }
      0 (element.last 0) source drain)
    (abiding : element.Abiding α μ audited) :
    ({ made with delegate := { audits := audited }, maxPasses := maxPasses } :
      Interpreter β α μ).frame.Hosts α μ audited graph.layout source drain
        (element.last 0) := by
  have accepted := Interpreter.accepted_of_create opened
  have members := Interpreter.members_of_forGraph opened
  obtain rfl := accepted.graph_eq
  have sound := embodies.built.sound
  have framed := embodies.placed.framed
  have all (id : WorkerId) (worker : Worker β μ) (known : made.graph.worker? id = some worker) :
      id ∈ made.members := by
    rw [members]
    exact List.mem_range.mpr (List.getElem?_eq_some_iff.mp known).1
  have count : made.graph.frame.workers.length = element.workerCount :=
    (List.length_map _).trans embodies.count
  have known (id : WorkerId) (body : β) (placed : made.graph.layout.body id = some body) :
      id < made.graph.frame.workers.length := by
    obtain ⟨worker, found, _⟩ := Option.map_eq_some_iff.mp placed
    rw [count, ← embodies.count]
    exact (List.getElem?_eq_some_iff.mp found).1
  exact
    { sound := Interpreter.Opens.frame_sound ⟨made, _, _, opened, rfl⟩ sound
      describes := embodies.describes
      known := known
      owned := embodies.owned
      abides := by
        intro id body placed
        exact embodies.placed.abiding abiding id body (Nat.zero_le _)
          (by rw [Nat.zero_add, ← count]; exact known id body placed) placed
      entry := ⟨0, by rw [framed.inputs]; exact List.mem_singleton_self _⟩
      foreign := by
        intro id member
        obtain ⟨port, portIn, same⟩ := List.mem_map.mp member
        exact ends.ne_source sound.wiring all portIn same
      terminal := by
        intro id member
        obtain ⟨port, portIn, same⟩ := List.mem_map.mp member
        exact ends.ne_drain sound.wiring all portIn same
      unconstrained := by
        change made.constraints = []
        rw [accepted.constraints, embodies.constraints]
        rfl
      enters := by
        intro id port member outside
        obtain ⟨worker, found⟩ := Interpreter.worker_of_port (.inl member)
        exact ends.enters id (all id worker found) port member outside
      sinks := by
        have only := embodies.sinksOf_eq ends rfl members
        exact accepted.sinks.trans only
      leaves := by
        rw [framed.outputs]
        exact List.mem_singleton_self _
      delegate := rfl
      supplied := by
        intro elements id below
        change id < made.graph.frame.workers.length at below
        rw [count] at below
        exact (embodies.placed.denotes .source).2 id (Nat.zero_le _)
          (by rw [Nat.zero_add]; exact below) }

/-- Nothing has been counted in the channels of a fresh stream; if it is to be audited, they
do count. -/
theorem Graph.Embodies.uncounted [Signature β] {element : Element β}
    {source drain : ChannelId} {graph : Graph β α μ} {config : Config}
    (embodies : graph.Embodies config.effectiveChannel element source drain)
    (audits : config.auditRates = true) : graph.layout.Uncounted graph.bank := by
  have sizeEq : graph.frame.wiring.channels = graph.bank.size := by
    simp [GraphFrame.wiring, frame, Bank.keys, Bank.size]
  have wired := embodies.built.sound.wiring
  have counting (id : ChannelId) (known : id < graph.frame.wiring.channels) :
      (graph.bank.channel id).stats = some {} := by
    rw [embodies.channels id (sizeEq ▸ known), Channel.ofKind,
      Config.instrumented_effectiveChannel audits]
    rfl
  constructor
  · intro id channel member
    obtain ⟨port, portIn, rfl⟩ := List.mem_map.mp member
    obtain ⟨index, place⟩ := List.mem_iff_getElem?.mp portIn
    exact ⟨{}, counting _ (wired.inputRange id index port place), rfl, rfl⟩
  · intro id channel member
    obtain ⟨port, portIn, rfl⟩ := List.mem_map.mp member
    obtain ⟨index, place⟩ := List.mem_iff_getElem?.mp portIn
    exact ⟨{}, counting _ (wired.outputRange id index port place), rfl⟩

structure CompiledStream.Starts [Signature β] [Work β α μ] (stream : CompiledStream β α μ)
    (element : Element β) (audited : Bool) (layout : Layout β) (source drain : ChannelId)
    (tail : WorkerId) : Prop where
  hosts : stream.interpreter.frame.Hosts α μ audited layout source drain tail
  placed : element.Placed layout 0 [source] [drain]
  running : Interpreter.Running audited layout drain stream.interpreter.frame
    (fun _ => ([] : List α)) stream.interpreter
  input : stream.interpreter.channelId? stream.input = some source
  output : stream.interpreter.channelId? stream.output = some drain
  accepting : stream.draining = false

theorem Compiler.compile_starts [Signature β] [Work β α μ] {compiler : Compiler}
    {element : Element β} {stream : CompiledStream β α μ}
    (made : compiler.compile element = .ok stream)
    (abiding : element.Abiding α μ compiler.config.auditRates) :
    stream.interpreter.frame.maxPasses = compiler.config.maxPasses ∧
      ∃ layout source drain tail,
        stream.Starts element compiler.config.auditRates layout source drain tail := by
  obtain ⟨builder, head, tail, graph, interpreter, expanded, built, opened, created⟩ :=
    compile_view made
  obtain ⟨rfl, rfl, source, drain, embodies⟩ := Compiler.embodies expanded built
  have accepted := Interpreter.accepted_of_create opened
  have boundaries : interpreter.boundaries =
      Interpreter.boundariesOf interpreter.graph interpreter.members := by
    rw [accepted.boundaries, accepted.graph_eq]
  obtain ⟨same, accepting, entry, exit, input, output, ends⟩ :=
    Interpreter.ends_of_create created boundaries
  obtain ⟨rfl, rfl⟩ := embodies.ends_eq ends accepted.graph_eq
  have hosts := embodies.hosts opened ends abiding
  rw [← same] at hosts input output
  have graphEq : stream.interpreter.graph = graph := by
    rw [same]
    exact accepted.graph_eq
  refine ⟨by rw [same]; rfl, graph.layout, entry, exit, element.last 0, ?_⟩
  refine ⟨hosts, embodies.placed, ⟨rfl, ?_, ?_⟩, input, output, accepting⟩
  · rw [graphEq]
    exact embodies.built.fresh.simulates embodies.empty exit
  · intro audits
    rw [graphEq]
    exact embodies.uncounted audits

/-- The interpreter of a compiled stream is one over all workers of the graph built for it. -/
theorem Compiler.compile_opens [Signature β] {compiler : Compiler} {element : Element β}
    {stream : CompiledStream β α μ} (made : compiler.compile element = .ok stream) :
    stream.interpreter.graph.Built ∧ stream.interpreter.graph.workers.length = element.workerCount ∧
      ∃ given, Interpreter.Opens stream.interpreter.graph stream.interpreter.graph.workerIds given
        stream.interpreter := by
  obtain ⟨builder, head, tail, graph, interpreter, expanded, built, opened, created⟩ :=
    compile_view made
  obtain ⟨_, _, _, _, embodies⟩ := Compiler.embodies expanded built
  have accepted := Interpreter.accepted_of_create opened
  have boundaries : interpreter.boundaries =
      Interpreter.boundariesOf interpreter.graph interpreter.members := by
    rw [accepted.boundaries, accepted.graph_eq]
  have same := (Interpreter.ends_of_create created boundaries).1
  have graphEq : stream.interpreter.graph = graph := by
    rw [same]
    exact accepted.graph_eq
  rw [graphEq]
  exact ⟨embodies.built, embodies.count, graph.constraints, interpreter, _, _, opened, same⟩

end DemandFlow
