import DemandFlow.Stream.Compiler
import DemandFlow.Proofs.Stream.Carrying
import DemandFlow.Proofs.Stream.Expansion

/-!
Compiled streams are installed. Building attaches one channel to the first worker and one
to the last worker of an expanded stream and leaves the rest alone; the interpreter of the
compiled stream hosts the stream between these two channels, and it starts with nothing
carried anywhere.
-/

set_option autoImplicit false

namespace DemandFlow

variable {β α μ : Type}

structure Layout.Fills (old new : Layout β) : Prop where
  body : ∀ id, new.body id = old.body id
  inputs : ∀ id, new.inputs id = old.inputs id ∨
    old.inputs id = [] ∧ ∃ channel, new.inputs id = [channel]
  outputs : ∀ id, new.outputs id = old.outputs id ∨
    old.outputs id = [] ∧ ∃ channel, new.outputs id = [channel]

namespace Layout.Fills

theorem refl (layout : Layout β) : layout.Fills layout :=
  ⟨fun _ => rfl, fun _ => .inl rfl, fun _ => .inl rfl⟩

private theorem filled_trans {first second third : List ChannelId}
    (left : second = first ∨ first = [] ∧ ∃ channel, second = [channel])
    (right : third = second ∨ second = [] ∧ ∃ channel, third = [channel]) :
    third = first ∨ first = [] ∧ ∃ channel, third = [channel] := by
  rcases right with rfl | ⟨rfl, filled⟩
  · exact left
  · rcases left with same | ⟨_, channel, impossible⟩
    · exact .inr ⟨same.symm, filled⟩
    · cases impossible

theorem trans {first second third : Layout β} (left : first.Fills second)
    (right : second.Fills third) : first.Fills third where
  body := fun id => (right.body id).trans (left.body id)
  inputs := fun id => filled_trans (left.inputs id) (right.inputs id)
  outputs := fun id => filled_trans (left.outputs id) (right.outputs id)

theorem inputs_ne_nil {old new : Layout β} (fills : old.Fills new) {id : Nat}
    (nonempty : old.inputs id ≠ []) : new.inputs id = old.inputs id := by
  rcases fills.inputs id with same | ⟨empty, _⟩
  · exact same
  · exact absurd empty nonempty

theorem outputs_ne_nil {old new : Layout β} (fills : old.Fills new) {id : Nat}
    (nonempty : old.outputs id ≠ []) : new.outputs id = old.outputs id := by
  rcases fills.outputs id with same | ⟨empty, _⟩
  · exact same
  · exact absurd empty nonempty

end Layout.Fills

namespace Builder

theorem attachInput_layout {builder after : Builder β α} {worker : WorkerId} {slot : Slot α}
    {channel : ChannelId} (made : builder.attachInput worker slot = (.ok channel, after)) :
    after.drafts.length = builder.drafts.length ∧
      after.layout.body = builder.layout.body ∧
      after.layout.outputs = builder.layout.outputs ∧
      ∀ id, after.layout.inputs id =
        builder.layout.inputs id ++ if id = worker then [channel] else [] := by
  have view := builder.attachInput_view worker slot
  rw [made] at view
  rcases view with ⟨error, refused⟩ | ⟨id, other, equal, ports, _, _⟩
  · cases refused
  · cases equal
    have details : channel = builder.wiring.channels ∧
        after.drafts.length = builder.drafts.length ∧
        ∀ id : Nat, after.drafts[id]?.map Draft.body = builder.drafts[id]?.map Draft.body := by
      unfold attachInput at made
      split at made
      next => cases made
      next =>
        cases made
        exact ⟨rfl, List.length_modify _ _ _, fun id => bodies_addInput _ worker _ id⟩
    obtain ⟨channelEq, lengthEq, bodies⟩ := details
    refine ⟨lengthEq, funext bodies, ?_, ?_⟩
    · unfold layout
      rw [ports]
      rfl
    · intro id
      unfold layout
      rw [ports, channelEq]
      exact map_extend _ _ _ id

theorem attachOutput_layout {builder after : Builder β α} {worker : WorkerId} {slot : Slot α}
    {channel : ChannelId} (made : builder.attachOutput worker slot = (.ok channel, after)) :
    after.drafts.length = builder.drafts.length ∧
      after.layout.body = builder.layout.body ∧
      after.layout.inputs = builder.layout.inputs ∧
      ∀ id, after.layout.outputs id =
        builder.layout.outputs id ++ if id = worker then [channel] else [] := by
  have view := builder.attachOutput_view worker slot
  rw [made] at view
  rcases view with ⟨error, refused⟩ | ⟨id, other, equal, ports, _, _⟩
  · cases refused
  · cases equal
    have details : channel = builder.wiring.channels ∧
        after.drafts.length = builder.drafts.length ∧
        ∀ id : Nat, after.drafts[id]?.map Draft.body = builder.drafts[id]?.map Draft.body := by
      unfold attachOutput at made
      split at made
      next => cases made
      next =>
        cases made
        exact ⟨rfl, List.length_modify _ _ _, fun id => bodies_addOutput _ worker _ id⟩
    obtain ⟨channelEq, lengthEq, bodies⟩ := details
    refine ⟨lengthEq, funext bodies, ?_, ?_⟩
    · unfold layout
      rw [ports]
      rfl
    · intro id
      unfold layout
      rw [ports, channelEq]
      exact map_extend _ _ _ id

theorem attachInput_factory {builder after : Builder β α} {worker : WorkerId} {slot : Slot α}
    {channel : ChannelId} (made : builder.attachInput worker slot = (.ok channel, after)) :
    after.factory = builder.factory := by
  unfold attachInput at made
  split at made
  next => cases made
  next =>
    cases made
    rfl

theorem attachInput_fills {builder after : Builder β α} {worker : WorkerId} {slot : Slot α}
    {channel : ChannelId} (empty : builder.layout.inputs worker = [])
    (made : builder.attachInput worker slot = (.ok channel, after)) :
    builder.layout.Fills after.layout ∧ after.layout.inputs worker ≠ [] := by
  obtain ⟨_, bodies, outputs, inputs⟩ := attachInput_layout made
  refine ⟨⟨fun id => congrFun bodies id, ?_, fun id => .inl (congrFun outputs id)⟩, ?_⟩
  · intro id
    by_cases same : id = worker
    · subst same
      exact .inr ⟨empty, channel, by simp only [inputs, empty, ↓reduceIte, List.nil_append]⟩
    · exact .inl (by simp only [inputs, same, ↓reduceIte, List.append_nil])
  · simp [inputs]

theorem attachOutput_factory {builder after : Builder β α} {worker : WorkerId} {slot : Slot α}
    {channel : ChannelId} (made : builder.attachOutput worker slot = (.ok channel, after)) :
    after.factory = builder.factory := by
  unfold attachOutput at made
  split at made
  next => cases made
  next =>
    cases made
    rfl

theorem attachOutput_fills {builder after : Builder β α} {worker : WorkerId} {slot : Slot α}
    {channel : ChannelId} (empty : builder.layout.outputs worker = [])
    (made : builder.attachOutput worker slot = (.ok channel, after)) :
    builder.layout.Fills after.layout ∧ after.layout.outputs worker ≠ [] := by
  obtain ⟨_, bodies, inputs, outputs⟩ := attachOutput_layout made
  refine ⟨⟨fun id => congrFun bodies id, fun id => .inl (congrFun inputs id), ?_⟩, ?_⟩
  · intro id
    by_cases same : id = worker
    · subst same
      exact .inr ⟨empty, channel, by simp only [outputs, empty, ↓reduceIte, List.nil_append]⟩
    · exact .inl (by simp only [outputs, same, ↓reduceIte, List.append_nil])
  · simp [outputs]

theorem ports_of_draft {builder : Builder β α} {id : WorkerId} {draft : Draft β}
    (found : builder.draft id = .ok draft) :
    builder.layout.inputs id = draft.inputs.map Port.channel ∧
      builder.layout.outputs id = draft.outputs.map Port.channel := by
  unfold layout wiring
  dsimp only
  rw [draft_eq_ok found]
  exact ⟨rfl, rfl⟩

/-- A worker that has an input keeps it, any other one gets one from the factory. -/
theorem completeInput_view {builder after : Builder β α} {id : WorkerId}
    (made : builder.completeInput id = (.ok (), after)) :
    builder.layout.inputs id ≠ [] ∧ after = builder ∨
      builder.layout.inputs id = [] ∧ builder.factory.fits = true ∧ ∃ request channel,
        (builder.noteRequest request).attachInput id (.own (.ofKind builder.factory.kind)) =
          (.ok channel, after) := by
  unfold completeInput at made
  split at made
  next => cases made
  next draft found =>
    rw [(ports_of_draft found).1]
    split at made
    next filled =>
      cases made
      exact .inl ⟨by simpa using filled, rfl⟩
    next vacant =>
      split at made
      next => cases made
      next =>
        split at made
        next => cases made
        next requested =>
          rcases requestChannel_eq_ok requested with ⟨fits, rfl, rfl⟩
          exact .inr ⟨by simpa using vacant, fits, { producer := none, consumer := some id },
            attached_of_map made⟩

/-- A worker that has an output keeps it, any other one gets one from the factory. -/
theorem completeOutput_view {builder after : Builder β α} {id : WorkerId}
    (made : builder.completeOutput id = (.ok (), after)) :
    builder.layout.outputs id ≠ [] ∧ after = builder ∨
      builder.layout.outputs id = [] ∧ builder.factory.fits = true ∧ ∃ request channel,
        (builder.noteRequest request).attachOutput id (.own (.ofKind builder.factory.kind)) =
          (.ok channel, after) := by
  unfold completeOutput at made
  split at made
  next => cases made
  next draft found =>
    rw [(ports_of_draft found).2]
    split at made
    next filled =>
      cases made
      exact .inl ⟨by simpa using filled, rfl⟩
    next vacant =>
      split at made
      next => cases made
      next =>
        split at made
        next => cases made
        next requested =>
          rcases requestChannel_eq_ok requested with ⟨fits, rfl, rfl⟩
          exact .inr ⟨by simpa using vacant, fits, { producer := some id, consumer := none },
            attached_of_map made⟩

/-- What holds of a builder that makes only plain streams: all its channels are fresh from
the factory, and there are no messages. -/
structure Plain (kind : ChannelKind) (builder : Builder β α) : Prop where
  kind_eq : builder.factory.kind = kind
  slots : ∀ slot ∈ builder.bank.slots, slot = .own (.ofKind kind)
  constraints : builder.constraints = []

theorem Plain.addSlot {kind : ChannelKind} {builder after : Builder β α}
    (plain : builder.Plain kind) (factory : after.factory = builder.factory)
    (bank : after.bank = builder.bank.add (.own (.ofKind builder.factory.kind)))
    (constraints : after.constraints = builder.constraints) : after.Plain kind where
  kind_eq := by
    rw [factory, plain.kind_eq]
  slots := by
    rw [bank, plain.kind_eq]
    intro slot member
    rcases List.mem_append.mp member with old | new
    · exact plain.slots slot old
    · exact List.mem_singleton.mp new
  constraints := constraints.trans plain.constraints

theorem Plain.keptByGrowth (kind : ChannelKind) :
    KeptByGrowth (Plain (β := β) (α := α) kind) where
  worker := fun _ _ _ plain => ⟨plain.kind_eq, plain.slots, plain.constraints⟩
  connection := by
    intro builder producer consumer plain
    rcases builder.connect_cases producer consumer with ⟨error, refused⟩ | connectable
    · rw [refused]
      exact plain
    · rw [connectable.connect_eq]
      exact plain.addSlot rfl rfl rfl

private theorem Plain.attachInput {kind : ChannelKind} {builder after : Builder β α} {id : WorkerId}
    {request : ChannelRequest} {channel : ChannelId} (plain : builder.Plain kind)
    (made : (builder.noteRequest request).attachInput id (.own (.ofKind builder.factory.kind)) =
      (.ok channel, after)) : after.Plain kind := by
  unfold Builder.attachInput at made
  split at made
  next => cases made
  next =>
    cases made
    exact plain.addSlot rfl rfl rfl

private theorem Plain.attachOutput {kind : ChannelKind} {builder after : Builder β α}
    {id : WorkerId} {request : ChannelRequest} {channel : ChannelId} (plain : builder.Plain kind)
    (made : (builder.noteRequest request).attachOutput id (.own (.ofKind builder.factory.kind)) =
      (.ok channel, after)) : after.Plain kind := by
  unfold Builder.attachOutput at made
  split at made
  next => cases made
  next =>
    cases made
    exact plain.addSlot rfl rfl rfl

structure Completes (kind : ChannelKind) (builder after : Builder β α) : Prop where
  plain : after.Plain kind
  factory : after.factory = builder.factory
  /-- Where anything was missing, the factory had a channel. -/
  fits : after = builder ∨ builder.factory.fits = true
  length_eq : after.drafts.length = builder.drafts.length
  fills : builder.layout.Fills after.layout

theorem Completes.refl {kind : ChannelKind} {builder : Builder β α} (plain : builder.Plain kind) :
    Completes kind builder builder :=
  ⟨plain, rfl, .inl rfl, rfl, .refl _⟩

private theorem Completes.trans {kind : ChannelKind} {first second third : Builder β α}
    (left : Completes kind first second) (right : Completes kind second third) :
    Completes kind first third where
  plain := right.plain
  factory := right.factory.trans left.factory
  fits := by
    rcases left.fits with rfl | fits
    · exact right.fits
    · exact .inr fits
  length_eq := right.length_eq.trans left.length_eq
  fills := left.fills.trans right.fills

private theorem completeInput_completes {kind : ChannelKind} {builder after : Builder β α}
    {id : WorkerId} (plain : builder.Plain kind)
    (made : builder.completeInput id = (.ok (), after)) :
    Completes kind builder after ∧ after.layout.inputs id ≠ [] := by
  rcases completeInput_view made with ⟨present, rfl⟩ | ⟨empty, fits, request, channel, attached⟩
  · exact ⟨.refl plain, present⟩
  · have missing : (builder.noteRequest request).layout.inputs id = [] := empty
    have filled := attachInput_fills missing attached
    exact ⟨⟨plain.attachInput attached, (attachInput_factory attached :), .inr fits,
      (attachInput_layout attached).1, filled.1⟩, filled.2⟩

private theorem completeOutput_completes {kind : ChannelKind} {builder after : Builder β α}
    {id : WorkerId} (plain : builder.Plain kind)
    (made : builder.completeOutput id = (.ok (), after)) :
    Completes kind builder after ∧ after.layout.outputs id ≠ [] := by
  rcases completeOutput_view made with ⟨present, rfl⟩ | ⟨empty, fits, request, channel, attached⟩
  · exact ⟨.refl plain, present⟩
  · have missing : (builder.noteRequest request).layout.outputs id = [] := empty
    have filled := attachOutput_fills missing attached
    exact ⟨⟨plain.attachOutput attached, (attachOutput_factory attached :), .inr fits,
      (attachOutput_layout attached).1, filled.1⟩, filled.2⟩

structure Completed (kind : ChannelKind) (builder after : Builder β α) (ids : List WorkerId) :
    Prop extends Completes kind builder after where
  inputs : ∀ id ∈ ids, after.layout.inputs id ≠ []
  outputs : ∀ id ∈ ids, after.layout.outputs id ≠ []

theorem completeAll_completed {kind : ChannelKind} {ids : List WorkerId}
    {builder after : Builder β α} (plain : builder.Plain kind)
    (made : builder.completeAll ids = (.ok (), after)) :
    Completed kind builder after ids := by
  induction ids generalizing builder with
  | nil =>
      cases made
      exact ⟨.refl plain, by simp, by simp⟩
  | cons id rest inductionHypothesis =>
      unfold completeAll at made
      split at made
      next => cases made
      next fed inputMade =>
        split at made
        next => cases made
        next closed outputMade =>
          rcases completeInput_completes plain inputMade with ⟨first, hasInput⟩
          rcases completeOutput_completes first.plain outputMade with ⟨second, hasOutput⟩
          have others := inductionHypothesis second.plain made
          refine ⟨(first.trans second).trans others.toCompletes, ?_, ?_⟩
          · rw [List.forall_mem_cons, (second.fills.trans others.fills).inputs_ne_nil hasInput]
            exact ⟨hasInput, others.inputs⟩
          · rw [List.forall_mem_cons, others.fills.outputs_ne_nil hasOutput]
            exact ⟨hasOutput, others.outputs⟩

/-- A stream that has been expanded into an empty builder is in place between two channels
when the builder is completed. -/
theorem Completed.placed {kind : ChannelKind} {builder after : Builder β α}
    {element : Element β}
    (completed : Completed kind builder after (List.range builder.drafts.length))
    (placed : element.Placed builder.layout 0 [] [])
    (count : builder.drafts.length = element.workerCount) :
    ∃ source drain, element.Placed after.layout 0 [source] [drain] := by
  have framed := placed.framed
  have bound := framed.bound
  rw [Nat.zero_add] at framed bound
  have fills := completed.fills
  have agrees : builder.layout.Agrees after.layout 0 (element.last 0)
      (0 + element.workerCount) := by
    rw [Nat.zero_add]
    constructor
    · intro id _ _
      exact fills.body id
    · intro id above below
      exact fills.inputs_ne_nil (framed.fed id above below)
    · intro id atLeast below different
      exact fills.outputs_ne_nil (framed.feeding id atLeast below different)
  have moved := placed.transfer agrees
  have first : ∃ source, after.layout.inputs 0 = [source] := by
    have nonempty := completed.inputs 0 (List.mem_range.mpr (by omega))
    rcases fills.inputs 0 with same | ⟨_, source, filled⟩
    · exact absurd (same.trans framed.inputs) nonempty
    · exact ⟨source, filled⟩
  have last : ∃ drain, after.layout.outputs (element.last 0) = [drain] := by
    have nonempty := completed.outputs (element.last 0) (List.mem_range.mpr (by omega))
    rcases fills.outputs (element.last 0) with same | ⟨_, drain, filled⟩
    · exact absurd (same.trans framed.outputs) nonempty
    · exact ⟨drain, filled⟩
  obtain ⟨source, firstEq⟩ := first
  obtain ⟨drain, lastEq⟩ := last
  rw [firstEq, lastEq] at moved
  exact ⟨source, drain, moved⟩

end Builder

namespace Graph

def layout (graph : Graph β α μ) : Layout β :=
  { body := fun id => (graph.worker? id).map Worker.body
    inputs := fun id => (graph.frame.wiring.inputs id).map Port.channel
    outputs := fun id => (graph.frame.wiring.outputs id).map Port.channel }

theorem layout_of_finishAll [Signature β] {builder : Builder β α} {graph : Graph β α μ}
    (finished : Builder.finishAll 0 builder.drafts = .ok graph.workers)
    (bankEq : graph.bank = builder.bank) : graph.layout = builder.layout := by
  unfold layout Builder.layout
  rw [wiring_of_finishAll finished bankEq]
  congr 1
  funext id
  have pair := Builder.finishAll_get builder.drafts 0 graph.workers finished id
  unfold worker?
  cases place : builder.drafts[id]? with
  | none =>
      rw [place] at pair
      cases found : graph.workers[id]? with
      | none => rfl
      | some worker => rw [found] at pair; exact pair.elim
  | some draft =>
      rw [place] at pair
      cases found : graph.workers[id]? with
      | none => rw [found] at pair; exact pair.elim
      | some worker =>
          rw [found] at pair
          exact congrArg some pair.body

theorem layout_matches (graph : Graph β α μ) : graph.layout.Matches graph.frame :=
  ⟨fun _ => rfl, fun _ => rfl⟩

theorem layout_describes [Signature β] {builder : Builder β α} {graph : Graph β α μ}
    (finished : Builder.finishAll 0 builder.drafts = .ok graph.workers) :
    graph.layout.Describes graph.frame where
  toMatches := graph.layout_matches
  rates := by
    intro id frame found
    rw [frame_get] at found
    obtain ⟨worker, known, rfl⟩ := Option.map_eq_some_iff.mp found
    obtain ⟨draft, _, shared⟩ := worker_of_finishAll finished known
    refine ⟨worker.body, ?_, ?_⟩
    · unfold layout
      dsimp only
      rw [known]
      rfl
    · have shape : graph.layout.shape id = worker.shape := by
        unfold layout Layout.shape Worker.shape
        dsimp only
        rw [wiring_inputs known, wiring_outputs known, List.length_map, List.length_map]
      rw [shape, shared.body]
      exact shared.rates

end Graph

namespace Interpreter

private theorem boundary_of_tokens {interpreter : Interpreter β α μ} {direction : BoundaryDirection}
    {token : BoundaryToken} (single : interpreter.tokens direction = [token]) :
    ∃ boundary, interpreter.boundary? token = some boundary ∧
      boundary.direction = direction ∧
      ∀ other ∈ interpreter.boundaries, other.direction = direction → other = boundary := by
  have among (index : Nat) : index ∈ interpreter.tokens direction ↔
      ∃ boundary, interpreter.boundaries[index]? = some boundary ∧
        boundary.direction = direction := by
    unfold tokens boundary?
    rw [List.mem_filter, List.mem_range, Option.any_eq_true]
    simp only [beq_iff_eq]
    constructor
    · exact fun found => found.2
    · rintro ⟨boundary, place, same⟩
      exact ⟨(List.getElem?_eq_some_iff.mp place).1, boundary, place, same⟩
  rw [single] at among
  obtain ⟨boundary, place, same⟩ := (among token).mp (List.mem_singleton_self _)
  refine ⟨boundary, place, same, ?_⟩
  intro other member otherSame
  obtain ⟨index, otherPlace⟩ := List.mem_iff_getElem?.mp member
  have here := List.mem_singleton.mp ((among index).mpr ⟨other, otherPlace, otherSame⟩)
  rw [here, place] at otherPlace
  exact (Option.some.inj otherPlace).symm

/-- Nobody in the section is at the other end of the port. -/
def Outside (interpreter : Interpreter β α μ) (port : Port) : Prop :=
  ∀ peer ∈ interpreter.members, port.peer ≠ some peer

/-- Elements enter the section at one worker through one channel, and leave it likewise. -/
structure Ends (interpreter : Interpreter β α μ) (head tail : WorkerId)
    (source drain : ChannelId) : Prop where
  entry : ∃ port ∈ interpreter.graph.frame.wiring.inputs head,
    port.channel = source ∧ interpreter.Outside port
  exit : ∃ port ∈ interpreter.graph.frame.wiring.outputs tail,
    port.channel = drain ∧ interpreter.Outside port
  enters : ∀ id ∈ interpreter.members, ∀ port ∈ interpreter.graph.frame.wiring.inputs id,
    interpreter.Outside port → port.channel = source
  leaves : ∀ id ∈ interpreter.members, ∀ port ∈ interpreter.graph.frame.wiring.outputs id,
    interpreter.Outside port → id = tail

theorem worker_of_port {graph : Graph β α μ} {id : WorkerId} {port : Port}
    (member : port ∈ graph.frame.wiring.inputs id ∨ port ∈ graph.frame.wiring.outputs id) :
    ∃ worker, graph.worker? id = some worker := by
  cases known : graph.worker? id with
  | none =>
      unfold GraphFrame.wiring at member
      dsimp only at member
      rw [Graph.frame_get, known] at member
      rcases member with input | output
      · cases input
      · cases output
  | some worker => exact ⟨worker, rfl⟩

/-- A stream is only made over a section with one entry, at its head, and one exit, at its
tail. -/
theorem ends_of_create {interpreter : Interpreter β α μ} {head tail : WorkerId} {check : Bool}
    {stream : CompiledStream β α μ}
    (made : CompiledStream.create interpreter head tail check = .ok stream)
    (boundaries : interpreter.boundaries =
      boundariesOf interpreter.graph interpreter.members) :
    stream.interpreter = interpreter ∧ stream.draining = false ∧ ∃ source drain,
      interpreter.channelId? stream.input = some source ∧
      interpreter.channelId? stream.output = some drain ∧
      interpreter.Ends head tail source drain := by
  unfold CompiledStream.create at made
  split at made
  next input output inputs outputs =>
    split at made
    next attached =>
      cases made
      rw [Bool.and_eq_true] at attached
      obtain ⟨first, firstAt, firstDirection, firstOnly⟩ := boundary_of_tokens inputs
      obtain ⟨last, lastAt, lastDirection, lastOnly⟩ := boundary_of_tokens outputs
      rw [boundaries] at firstOnly lastOnly
      unfold CompiledStream.attaches at attached
      rw [firstAt, lastAt, Option.bind_some, Option.bind_some, beq_iff_eq, beq_iff_eq]
        at attached
      have firstIn : first ∈ boundariesOf interpreter.graph interpreter.members := by
        rw [← boundaries]
        exact List.mem_of_getElem? firstAt
      have lastIn : last ∈ boundariesOf interpreter.graph interpreter.members := by
        rw [← boundaries]
        exact List.mem_of_getElem? lastAt
      refine ⟨rfl, rfl, first.channel, last.channel, ?_, ?_, ?_, ?_, ?_, ?_⟩
      · unfold channelId?
        rw [firstAt]
        rfl
      · unfold channelId?
        rw [lastAt]
        rfl
      · obtain ⟨id, _, port, outside, ⟨portIn, rfl⟩ | ⟨portIn, rfl⟩⟩ :=
          boundariesOf_cases firstIn
        · cases attached.1
          exact ⟨port, portIn, rfl, outside⟩
        · cases firstDirection
      · obtain ⟨id, _, port, outside, ⟨portIn, rfl⟩ | ⟨portIn, rfl⟩⟩ :=
          boundariesOf_cases lastIn
        · cases lastDirection
        · cases attached.2
          exact ⟨port, portIn, rfl, outside⟩
      · intro id inside port member outside
        obtain ⟨worker, known⟩ := worker_of_port (.inl member)
        rw [Graph.wiring_inputs known] at member
        have same := firstOnly _ ((mem_boundariesOf inside known outside).1 member) rfl
        exact congrArg BoundaryChannel.channel same
      · intro id inside port member outside
        obtain ⟨worker, known⟩ := worker_of_port (.inr member)
        rw [Graph.wiring_outputs known] at member
        have same := lastOnly _ ((mem_boundariesOf inside known outside).2 member) rfl
        have placed := congrArg BoundaryChannel.worker same
        rw [attached.2] at placed
        exact Option.some.inj placed
    next => cases made
  next => cases made

section

variable {interpreter : Interpreter β α μ} {head tail : WorkerId} {source drain : ChannelId}

theorem Ends.ne_source (ends : interpreter.Ends head tail source drain)
    (wired : interpreter.graph.frame.wiring.Sound)
    (all : ∀ id worker, interpreter.graph.worker? id = some worker → id ∈ interpreter.members)
    {id : WorkerId} {port : Port} (member : port ∈ interpreter.graph.frame.wiring.outputs id) :
    port.channel ≠ source := by
  obtain ⟨entry, entryIn, rfl, outside⟩ := ends.entry
  obtain ⟨worker, known⟩ := worker_of_port (.inr member)
  obtain ⟨output, outputPlace⟩ := List.mem_iff_getElem?.mp member
  obtain ⟨input, inputPlace⟩ := List.mem_iff_getElem?.mp entryIn
  intro same
  exact outside id (all id worker known)
    (wired.ends id head output input port entry outputPlace inputPlace same).2.1

theorem Ends.ne_drain (ends : interpreter.Ends head tail source drain)
    (wired : interpreter.graph.frame.wiring.Sound)
    (all : ∀ id worker, interpreter.graph.worker? id = some worker → id ∈ interpreter.members)
    {id : WorkerId} {port : Port} (member : port ∈ interpreter.graph.frame.wiring.inputs id) :
    port.channel ≠ drain := by
  obtain ⟨exit, exitIn, rfl, outside⟩ := ends.exit
  obtain ⟨worker, known⟩ := worker_of_port (.inl member)
  obtain ⟨input, inputPlace⟩ := List.mem_iff_getElem?.mp member
  obtain ⟨output, outputPlace⟩ := List.mem_iff_getElem?.mp exitIn
  intro same
  exact outside id (all id worker known)
    (wired.ends tail id output input exit port outputPlace inputPlace same.symm).1

theorem mem_sinksOf {graph : Graph β α μ} {members : List WorkerId} {id : WorkerId} :
    id ∈ sinksOf graph members ↔ id ∈ members ∧ ∀ consumer ∈ members,
      ∀ port ∈ graph.frame.wiring.inputs consumer, port.peer ≠ some id := by
  unfold sinksOf
  dsimp only
  rw [List.mem_filter, Bool.not_eq_true', ← Bool.not_eq_true, List.contains_iff_mem,
    List.mem_flatMap]
  constructor
  · rintro ⟨member, unfed⟩
    refine ⟨member, fun consumer inside port portIn named => unfed ⟨consumer, inside, ?_⟩⟩
    obtain ⟨worker, known⟩ := worker_of_port (.inl portIn)
    rw [Graph.wiring_inputs known] at portIn
    rw [known]
    exact List.mem_filterMap.mpr ⟨port.peer, List.mem_map_of_mem portIn, named⟩
  · rintro ⟨member, unfed⟩
    refine ⟨member, ?_⟩
    rintro ⟨consumer, inside, found⟩
    cases known : graph.worker? consumer with
    | none =>
        rw [known] at found
        cases found
    | some worker =>
        rw [known] at found
        obtain ⟨peer, peerIn, named⟩ := List.mem_filterMap.mp found
        obtain ⟨port, portIn, rfl⟩ := List.mem_map.mp peerIn
        rw [← Graph.wiring_inputs known] at portIn
        exact unfed consumer inside port portIn named

/-- Where nobody but the tail lacks consumers, the tail is the only sink. -/
theorem Ends.sinksOf_eq (ends : interpreter.Ends head tail source drain)
    (wired : interpreter.graph.frame.wiring.Sound)
    (all : ∀ id worker, interpreter.graph.worker? id = some worker → id ∈ interpreter.members)
    (once : interpreter.members.Nodup) (inside : tail ∈ interpreter.members)
    (drains : ∀ port ∈ interpreter.graph.frame.wiring.outputs tail, port.channel = drain)
    (feeding : ∀ id ∈ interpreter.members, id ≠ tail →
      interpreter.graph.frame.wiring.outputs id ≠ []) :
    sinksOf interpreter.graph interpreter.members = [tail] := by
  have isSink (id : WorkerId) : id ∈ sinksOf interpreter.graph interpreter.members ↔
      id = tail := by
    rw [mem_sinksOf]
    constructor
    · rintro ⟨member, unfed⟩
      apply Classical.byContradiction
      intro different
      obtain ⟨port, rest, outputs⟩ := List.exists_cons_of_ne_nil (feeding id member different)
      have portIn : port ∈ interpreter.graph.frame.wiring.outputs id := by
        rw [outputs]
        exact List.mem_cons_self ..
      obtain ⟨index, place⟩ := List.mem_iff_getElem?.mp portIn
      -- Its first output has a consumer in the section, or it would be an exit.
      have notOutside : ¬ interpreter.Outside port := fun outside =>
        different (ends.leaves id member port portIn outside)
      unfold Outside at notOutside
      simp only [ne_eq, Classical.not_forall, Classical.not_not] at notOutside
      obtain ⟨consumer, consumerIn, named⟩ := notOutside
      obtain ⟨input, inputPort, inputPlace, same⟩ :=
        wired.consumer id index port consumer place named
      exact unfed consumer consumerIn inputPort (List.mem_of_getElem? inputPlace)
        (wired.ends id consumer index input port inputPort place inputPlace same.symm).2.1
    · rintro rfl
      refine ⟨inside, ?_⟩
      intro consumer consumerIn port portIn named
      obtain ⟨input, inputPlace⟩ := List.mem_iff_getElem?.mp portIn
      obtain ⟨output, outputPort, outputPlace, same⟩ :=
        wired.producer consumer input port id inputPlace named
      have onDrain := drains outputPort (List.mem_of_getElem? outputPlace)
      exact ends.ne_drain wired all portIn (same.symm.trans onDrain)
  have distinct : (sinksOf interpreter.graph interpreter.members).Nodup := once.filter _
  cases sinks : sinksOf interpreter.graph interpreter.members with
  | nil =>
      rw [sinks] at isSink
      exact absurd ((isSink tail).mpr rfl) (List.not_mem_nil)
  | cons first rest =>
      rw [sinks] at isSink distinct
      obtain rfl := (isSink first).mp (List.mem_cons_self ..)
      cases rest with
      | nil => rfl
      | cons second others =>
          obtain rfl := (isSink second).mp (List.mem_cons_of_mem _ (List.mem_cons_self ..))
          simp only [List.nodup_cons, List.mem_cons, true_or, not_true_eq_false, false_and]
            at distinct

end

end Interpreter

end DemandFlow
