import Mathlib.Data.List.Nodup
import DemandFlow.Proofs.Graph.Coherence
import DemandFlow.Proofs.Interpreter.Section
import DemandFlow.Work.Standard

/-!
Complementary sections. Two interpreters that share the workers of a graph between them find
their boundary channels one by one from their own ports, and yet the two maps fit: a channel
from one section to the other is in both, as an output here and an input there, an open one is
in the map of the section at its end, and all others are in neither.
-/

set_option autoImplicit false

namespace DemandFlow

variable {β α μ : Type}

namespace Wiring

variable {wiring : Wiring} {channel : ChannelId} {ends : ChannelRequest}

private theorem Links.unique {other : ChannelRequest} (links : wiring.Links channel ends)
    (others : wiring.Links channel other) : ends = other := by
  obtain ⟨producer, consumer⟩ := ends
  obtain ⟨otherProducer, otherConsumer⟩ := other
  congr
  · exact Option.ext fun id => (links.producer id).trans (others.producer id).symm
  · exact Option.ext fun id => (links.consumer id).trans (others.consumer id).symm

/-- At most one worker has the channel on a port of one side. -/
theorem exists_end {ports : WorkerId → List Port}
    (once : ∀ left right leftPort rightPort, leftPort ∈ ports left → rightPort ∈ ports right →
      leftPort.channel = rightPort.channel → left = right) (channel : ChannelId) :
    ∃ holder : Option WorkerId,
      ∀ id, holder = some id ↔ ∃ port ∈ ports id, port.channel = channel := by
  by_cases present : ∃ id, ∃ port ∈ ports id, port.channel = channel
  · obtain ⟨id, port, member, same⟩ := present
    refine ⟨some id, fun other => ?_⟩
    constructor
    · rintro ⟨⟩
      exact ⟨port, member, same⟩
    · rintro ⟨otherPort, otherMember, otherSame⟩
      rw [once id other port otherPort member otherMember (same.trans otherSame.symm)]
  · refine ⟨none, fun other => ⟨?_, fun found => absurd ⟨other, found⟩ present⟩⟩
    rintro ⟨⟩

private theorem Sound.exists_links (sound : wiring.Sound) (channel : ChannelId) :
    ∃ ends, wiring.Links channel ends := by
  obtain ⟨producer, produces⟩ := exists_end
    (fun _ _ _ _ leftIn rightIn same => sound.output_owner leftIn rightIn same) channel
  obtain ⟨consumer, consumes⟩ := exists_end
    (fun _ _ _ _ leftIn rightIn same => sound.input_owner leftIn rightIn same) channel
  exact ⟨⟨producer, consumer⟩, produces, consumes⟩

private theorem Links.closed (links : wiring.Links channel ends) (covered : wiring.Covered)
    (within : channel < wiring.channels) : ends ≠ { producer := none, consumer := none } := by
  rintro rfl
  obtain ⟨id, port, member, same⟩ := covered channel within
  rcases List.mem_append.mp member with input | output
  · cases (links.consumer id).mpr ⟨port, input, same⟩
  · cases (links.producer id).mpr ⟨port, output, same⟩

/-- The peer of an output is the other end of its channel. -/
theorem Links.output_peer (links : wiring.Links channel ends) (sound : wiring.Sound)
    {id : WorkerId} {port : Port} (member : port ∈ wiring.outputs id)
    (same : port.channel = channel) : port.peer = ends.consumer := by
  apply Option.ext
  intro consumer
  rw [links.consumer]
  constructor
  · intro named
    obtain ⟨index, place⟩ := List.mem_iff_getElem?.mp member
    obtain ⟨input, other, found, equal⟩ := sound.consumer id index port consumer place named
    exact ⟨other, List.mem_of_getElem? found, equal.trans same⟩
  · rintro ⟨other, found, equal⟩
    exact (sound.peers member found (same.trans equal.symm)).1

/-- The peer of an input is the other end of its channel. -/
theorem Links.input_peer (links : wiring.Links channel ends) (sound : wiring.Sound)
    {id : WorkerId} {port : Port} (member : port ∈ wiring.inputs id)
    (same : port.channel = channel) : port.peer = ends.producer := by
  apply Option.ext
  intro producer
  rw [links.producer]
  constructor
  · intro named
    obtain ⟨index, place⟩ := List.mem_iff_getElem?.mp member
    obtain ⟨output, other, found, equal⟩ := sound.producer id index port producer place named
    exact ⟨other, List.mem_of_getElem? found, equal.trans same⟩
  · rintro ⟨other, found, equal⟩
    exact (sound.peers found member (equal.trans same.symm)).2

def Leads (wiring : Wiring) (members others : List WorkerId) (channel : ChannelId) : Prop :=
  ∃ producer ∈ members, ∃ consumer ∈ others,
    wiring.Links channel { producer := some producer, consumer := some consumer }

def Dangles (wiring : Wiring) (members : List WorkerId) (channel : ChannelId) : Prop :=
  ∃ worker ∈ members, wiring.Links channel { producer := none, consumer := some worker } ∨
    wiring.Links channel { producer := some worker, consumer := none }

/-- Where a channel is when the workers are divided in two. -/
inductive Standing where
  /-- Both ends are on the same side. -/
  | internal
  /-- The ends are on different sides. -/
  | between
  /-- One end has no peer. -/
  | loose
  deriving DecidableEq

def Stands (wiring : Wiring) (members others : List WorkerId) (channel : ChannelId) :
    Standing → Prop
  | .internal => wiring.Leads members members channel ∨ wiring.Leads others others channel
  | .between => wiring.Leads members others channel ∨ wiring.Leads others members channel
  | .loose => wiring.Dangles members channel ∨ wiring.Dangles others channel

/-- Where a channel with the given ends is when some of the workers are on one side and the
others on the other. -/
def standingOf (members : List WorkerId) (ends : ChannelRequest) : Standing :=
  match ends.producer, ends.consumer with
  | some producer, some consumer =>
      if producer ∈ members ↔ consumer ∈ members then .internal else .between
  | _, _ => .loose

section

variable {members others : List WorkerId}

private theorem Stands.standing_eq {standing : Standing}
    (stands : wiring.Stands members others channel standing) (links : wiring.Links channel ends)
    (apart : ∀ id ∈ others, id ∉ members) :
    standing = standingOf members ends := by
  cases standing with
  | internal =>
      rcases stands with ⟨producer, left, consumer, right, same⟩ |
        ⟨producer, left, consumer, right, same⟩
      · rw [links.unique same]
        simp only [standingOf, left, right, ↓reduceIte]
      · rw [links.unique same]
        simp only [standingOf, apart producer left, apart consumer right, ↓reduceIte]
  | between =>
      rcases stands with ⟨producer, left, consumer, right, same⟩ |
        ⟨producer, left, consumer, right, same⟩
      · rw [links.unique same]
        simp [standingOf, left, apart consumer right]
      · rw [links.unique same]
        simp only [standingOf, apart producer left, right, iff_true, ↓reduceIte]
  | loose =>
      rcases stands with ⟨worker, _, same | same⟩ | ⟨worker, _, same | same⟩ <;>
        rw [links.unique same] <;> rfl

private theorem stands_standingOf (links : wiring.Links channel ends)
    (closed : ends ≠ { producer := none, consumer := none })
    (whole : ∀ id, ends.producer = some id ∨ ends.consumer = some id →
      id ∈ members ∨ id ∈ others) (apart : ∀ id ∈ others, id ∉ members) :
    wiring.Stands members others channel (standingOf members ends) := by
  obtain ⟨producer?, consumer?⟩ := ends
  cases producer? with
  | none =>
      cases consumer? with
      | none => exact absurd rfl closed
      | some worker =>
          rcases whole worker (.inr rfl) with here | there
          · exact .inl ⟨worker, here, .inl links⟩
          · exact .inr ⟨worker, there, .inl links⟩
  | some producer =>
      have starts := whole producer (.inl rfl)
      cases consumer? with
      | none =>
          rcases starts with here | there
          · exact .inl ⟨producer, here, .inr links⟩
          · exact .inr ⟨producer, there, .inr links⟩
      | some consumer =>
          rcases starts with left | left <;> rcases whole consumer (.inr rfl) with right | right
          · simpa only [standingOf, left, right, ↓reduceIte]
              using .inl ⟨producer, left, consumer, right, links⟩
          · simpa [standingOf, left, apart consumer right] using
              .inl ⟨producer, left, consumer, right, links⟩
          · simpa only [standingOf, apart producer left, right, iff_true, ↓reduceIte] using
              .inr ⟨producer, left, consumer, right, links⟩
          · simpa only [standingOf, apart producer left, apart consumer right, ↓reduceIte] using
              .inr ⟨producer, left, consumer, right, links⟩

end

end Wiring

namespace Interpreter

def entries (interpreter : Interpreter β α μ) (channel : ChannelId) : List BoundaryChannel :=
  interpreter.boundaries.filter (fun boundary => boundary.channel = channel)

structure Mapped (interpreter : Interpreter β α μ) (wiring : Wiring) : Prop where
  once : (interpreter.boundaries.map BoundaryChannel.channel).Nodup
  at_port : ∀ boundary ∈ interpreter.boundaries, ∃ id ∈ interpreter.members, ∃ port,
    (∀ peer ∈ interpreter.members, port.peer ≠ some peer) ∧
      (port ∈ wiring.inputs id ∧ boundary = .input port.channel port.peer id ∨
        port ∈ wiring.outputs id ∧ boundary = .output port.channel id port.peer)
  input : ∀ id ∈ interpreter.members, ∀ port ∈ wiring.inputs id,
    (∀ peer ∈ interpreter.members, port.peer ≠ some peer) →
      .input port.channel port.peer id ∈ interpreter.boundaries
  output : ∀ id ∈ interpreter.members, ∀ port ∈ wiring.outputs id,
    (∀ peer ∈ interpreter.members, port.peer ≠ some peer) →
      .output port.channel id port.peer ∈ interpreter.boundaries

private theorem channels_boundariesAt (members : List WorkerId) (id : WorkerId)
    (worker : Worker β μ) :
    ((boundariesAt members id worker).map BoundaryChannel.channel).Sublist
      ((worker.inputs ++ worker.outputs).map Port.channel) := by
  have inputs : ((worker.inputs.filter fun port => !staysInside members port).map
      Port.channel).Sublist (worker.inputs.map Port.channel) := List.filter_sublist.map _
  have outputs : ((worker.outputs.filter fun port => !staysInside members port).map
      Port.channel).Sublist (worker.outputs.map Port.channel) := List.filter_sublist.map _
  unfold boundariesAt
  rw [List.map_append, List.map_map, List.map_map, List.map_append]
  exact inputs.append outputs

/-- No channel is at the boundary twice: if both of its ends are in the section, it is not
there at all. -/
theorem nodup_boundariesOf {graph : Graph β α μ} (sound : graph.frame.wiring.Sound)
    {members : List WorkerId} (once : members.Nodup) :
    ((boundariesOf graph members).map BoundaryChannel.channel).Nodup := by
  unfold boundariesOf
  rw [List.map_flatMap, List.nodup_flatMap]
  constructor
  · intro id inside
    cases known : graph.worker? id with
    | none => exact List.nodup_nil
    | some worker =>
        have ports := sound.nodup_ports id
        rw [Graph.wiring_inputs known, Graph.wiring_outputs known] at ports
        exact ports.sublist (channels_boundariesAt members id worker)
  · refine once.imp_of_mem ?_
    intro left right leftInside rightInside different channel leftAt rightAt
    -- Both workers have the channel on a port whose other end is outside.
    have ported {id : WorkerId} {worker : Worker β μ} (known : graph.worker? id = some worker)
        (found : channel ∈ (boundariesAt members id worker).map BoundaryChannel.channel) :
        ∃ port, (∀ peer ∈ members, port.peer ≠ some peer) ∧ port.channel = channel ∧
          (port ∈ graph.frame.wiring.inputs id ∨ port ∈ graph.frame.wiring.outputs id) := by
      obtain ⟨boundary, member, rfl⟩ := List.mem_map.mp found
      rw [Graph.wiring_inputs known, Graph.wiring_outputs known]
      obtain ⟨port, outside, ⟨portIn, rfl⟩ | ⟨portIn, rfl⟩⟩ := mem_boundariesAt.mp member
      · exact ⟨port, outside, rfl, .inl portIn⟩
      · exact ⟨port, outside, rfl, .inr portIn⟩
    dsimp only at leftAt rightAt
    rcases leftKnown : graph.worker? left with _ | leftWorker
    · rw [leftKnown] at leftAt
      cases leftAt
    rcases rightKnown : graph.worker? right with _ | rightWorker
    · rw [rightKnown] at rightAt
      cases rightAt
    rw [leftKnown] at leftAt
    rw [rightKnown] at rightAt
    obtain ⟨leftPort, leftOutside, leftSame, leftIn⟩ := ported leftKnown leftAt
    obtain ⟨rightPort, rightOutside, rightSame, rightIn⟩ := ported rightKnown rightAt
    have same := leftSame.trans rightSame.symm
    rcases leftIn with leftInput | leftOutput
    · rcases rightIn with rightInput | rightOutput
      · exact different (sound.input_owner leftInput rightInput same)
      · exact rightOutside left leftInside (sound.peers rightOutput leftInput same.symm).1
    · rcases rightIn with rightInput | rightOutput
      · exact leftOutside right rightInside (sound.peers leftOutput rightInput same).1
      · exact different (sound.output_owner leftOutput rightOutput same)

private theorem Accepted.mapped {graph : Graph β α μ} {workers : List WorkerId}
    {given : List Constraint} {made : Interpreter β α μ}
    (accepted : Accepted graph workers given made) (sound : graph.frame.wiring.Sound) :
    made.Mapped graph.frame.wiring := by
  have once : made.members.Nodup := accepted.members ▸ List.nodup_range.filter _
  have known {id : WorkerId} (inside : id ∈ made.members) :
      ∃ worker, graph.worker? id = some worker := by
    rw [accepted.members, List.mem_filter, Graph.workerIds, List.mem_range] at inside
    exact ⟨_, List.getElem?_eq_getElem inside.1⟩
  refine
    { once := accepted.boundaries ▸ nodup_boundariesOf sound once
      at_port := fun boundary member => boundariesOf_cases (accepted.boundaries ▸ member)
      input := ?_
      output := ?_ }
  · intro id inside port member outside
    obtain ⟨worker, here⟩ := known inside
    rw [Graph.wiring_inputs here] at member
    rw [accepted.boundaries]
    exact (mem_boundariesOf inside here outside).1 member
  · intro id inside port member outside
    obtain ⟨worker, here⟩ := known inside
    rw [Graph.wiring_outputs here] at member
    rw [accepted.boundaries]
    exact (mem_boundariesOf inside here outside).2 member

section

variable {interpreter : Interpreter β α μ} {wiring : Wiring} {channel : ChannelId}
  {ends : ChannelRequest}

theorem Mapped.entries_eq (mapped : interpreter.Mapped wiring) {boundary : BoundaryChannel}
    (member : boundary ∈ interpreter.boundaries) :
    interpreter.entries boundary.channel = [boundary] := by
  apply eq_singleton_of_nodup ((List.Nodup.of_map _ mapped.once).filter _)
  intro other
  rw [List.mem_filter, decide_eq_true_iff]
  constructor
  · rintro ⟨otherMember, same⟩
    exact List.inj_on_of_nodup_map mapped.once otherMember member same
  · rintro rfl
    exact ⟨member, rfl⟩

/-- A channel that leaves the section is an output of it, once. -/
theorem Mapped.entries_output (mapped : interpreter.Mapped wiring) (sound : wiring.Sound)
    (links : wiring.Links channel ends) {producer : WorkerId}
    (named : ends.producer = some producer) (inside : producer ∈ interpreter.members)
    (leaves : ∀ peer ∈ interpreter.members, ends.consumer ≠ some peer) :
    interpreter.entries channel = [.output channel producer ends.consumer] := by
  obtain ⟨port, member, rfl⟩ := (links.producer producer).mp named
  have peer := links.output_peer sound member rfl
  rw [← peer] at leaves ⊢
  exact mapped.entries_eq (mapped.output producer inside port member leaves)

/-- A channel that comes into the section is an input of it, once. -/
theorem Mapped.entries_input (mapped : interpreter.Mapped wiring) (sound : wiring.Sound)
    (links : wiring.Links channel ends) {consumer : WorkerId}
    (named : ends.consumer = some consumer) (inside : consumer ∈ interpreter.members)
    (enters : ∀ peer ∈ interpreter.members, ends.producer ≠ some peer) :
    interpreter.entries channel = [.input channel ends.producer consumer] := by
  obtain ⟨port, member, rfl⟩ := (links.consumer consumer).mp named
  have peer := links.input_peer sound member rfl
  rw [← peer] at enters ⊢
  exact mapped.entries_eq (mapped.input consumer inside port member enters)

/-- A channel with no end or with both ends in the section is not at its boundary. -/
theorem Mapped.entries_nil (mapped : interpreter.Mapped wiring) (sound : wiring.Sound)
    (links : wiring.Links channel ends)
    (stays : ∀ producer ∈ interpreter.members, ends.producer = some producer →
      ∃ consumer ∈ interpreter.members, ends.consumer = some consumer)
    (stayed : ∀ consumer ∈ interpreter.members, ends.consumer = some consumer →
      ∃ producer ∈ interpreter.members, ends.producer = some producer) :
    interpreter.entries channel = [] := by
  unfold entries
  rw [List.filter_eq_nil_iff]
  intro boundary member same
  rw [decide_eq_true_iff] at same
  obtain ⟨id, inside, port, outside, ⟨portIn, rfl⟩ | ⟨portIn, rfl⟩⟩ :=
    mapped.at_port boundary member
  · obtain ⟨producer, within, named⟩ :=
      stayed id inside ((links.consumer id).mpr ⟨port, portIn, same⟩)
    exact outside producer within ((links.input_peer sound portIn same).trans named)
  · obtain ⟨consumer, within, named⟩ :=
      stays id inside ((links.producer id).mpr ⟨port, portIn, same⟩)
    exact outside consumer within ((links.output_peer sound portIn same).trans named)

end

/-! ### Two sections -/

/-- How the maps of two sections treat the channels that touch the first: a channel inside it
is in neither, one to the other section is in both with the same ends, and an open one is in the
first only. -/
structure Fits (one other : Interpreter β α μ) (wiring : Wiring) : Prop where
  inside : ∀ channel, wiring.Leads one.members one.members channel →
    one.entries channel = [] ∧ other.entries channel = []
  across : ∀ channel, ∀ producer ∈ one.members, ∀ consumer ∈ other.members,
    wiring.Links channel { producer := some producer, consumer := some consumer } →
      one.entries channel = [.output channel producer (some consumer)] ∧
        other.entries channel = [.input channel (some producer) consumer]
  openInput : ∀ channel, ∀ worker ∈ one.members,
    wiring.Links channel { producer := none, consumer := some worker } →
      one.entries channel = [.input channel none worker] ∧ other.entries channel = []
  openOutput : ∀ channel, ∀ worker ∈ one.members,
    wiring.Links channel { producer := some worker, consumer := none } →
      one.entries channel = [.output channel worker none] ∧ other.entries channel = []

private theorem Mapped.fits {one other : Interpreter β α μ} {wiring : Wiring}
    (mapped : one.Mapped wiring) (mappedOther : other.Mapped wiring) (sound : wiring.Sound)
    (apart : ∀ id ∈ one.members, id ∉ other.members) : one.Fits other wiring where
  inside := by
    rintro channel ⟨producer, left, consumer, right, links⟩
    constructor
    · apply mapped.entries_nil sound links
      · rintro _ _ ⟨⟩
        exact ⟨consumer, right, rfl⟩
      · rintro _ _ ⟨⟩
        exact ⟨producer, left, rfl⟩
    · apply mappedOther.entries_nil sound links
      · rintro _ there ⟨⟩
        exact absurd there (apart producer left)
      · rintro _ there ⟨⟩
        exact absurd there (apart consumer right)
  across := by
    intro channel producer left consumer right links
    constructor
    · apply mapped.entries_output sound links rfl left
      rintro _ here ⟨⟩
      exact apart consumer here right
    · apply mappedOther.entries_input sound links rfl right
      rintro _ there ⟨⟩
      exact apart producer left there
  openInput := by
    intro channel worker here links
    constructor
    · exact mapped.entries_input sound links rfl here (fun _ _ => nofun)
    · apply mappedOther.entries_nil sound links
      · rintro _ _ ⟨⟩
      · rintro _ there ⟨⟩
        exact absurd there (apart worker here)
  openOutput := by
    intro channel worker here links
    constructor
    · exact mapped.entries_output sound links rfl here (fun _ _ => nofun)
    · apply mappedOther.entries_nil sound links
      · rintro _ there ⟨⟩
        exact absurd there (apart worker here)
      · rintro _ _ ⟨⟩

/-- The tokens count up from zero, and each is for a channel of its own. -/
structure Numbered (interpreter : Interpreter β α μ) : Prop where
  gapless : ∀ token, (interpreter.channelId? token).isSome = true ↔
    token < interpreter.boundaries.length
  directed : (interpreter.tokens .input ++ interpreter.tokens .output).Perm
    (List.range interpreter.boundaries.length)
  distinct : ∀ token other channel, interpreter.channelId? token = some channel →
    interpreter.channelId? other = some channel → token = other

private theorem Mapped.numbered {interpreter : Interpreter β α μ} {wiring : Wiring}
    (mapped : interpreter.Mapped wiring) : interpreter.Numbered where
  gapless := by
    intro token
    simp only [channelId?, boundary?, Option.isSome_map, isSome_getElem?]
  directed := by
    have split := List.filter_append_perm
      (fun token => (interpreter.boundary? token).any fun boundary => boundary.direction == .input)
      (List.range interpreter.boundaries.length)
    refine List.Perm.trans (List.Perm.of_eq ?_) split
    unfold tokens
    congr 1
    apply List.filter_congr
    intro token member
    obtain ⟨boundary, place⟩ : ∃ boundary, interpreter.boundary? token = some boundary :=
      ⟨_, List.getElem?_eq_getElem (List.mem_range.mp member)⟩
    rw [place]
    cases direction : boundary.direction <;> simp [direction]
  distinct := by
    intro token other channel found otherFound
    have place (token : BoundaryToken) : interpreter.channelId? token =
        (interpreter.boundaries.map BoundaryChannel.channel)[token]? := by
      rw [List.getElem?_map]
      rfl
    rw [place] at found otherFound
    exact (List.getElem?_inj (List.getElem?_eq_some_iff.mp found).1 mapped.once).mp
      (found.trans otherFound.symm)

private theorem Opens.mem_members {graph : Graph β α μ} {workers : List WorkerId}
    {given : List Constraint} {interpreter : Interpreter β α μ}
    (opened : Opens graph workers given interpreter) {id : WorkerId} :
    id ∈ interpreter.members ↔ id < graph.frame.workers.length ∧ id ∈ workers := by
  obtain ⟨made, delegate, maxPasses, created, rfl⟩ := opened
  change id ∈ made.members ↔ id < (graph.workers.map Worker.frame).length ∧ id ∈ workers
  rw [(accepted_of_create created).members, List.mem_filter, List.contains_iff_mem,
    Graph.workerIds, List.mem_range, List.length_map]

private theorem Opens.mapped {graph : Graph β α μ} {workers : List WorkerId}
    {given : List Constraint} {interpreter : Interpreter β α μ}
    (opened : Opens graph workers given interpreter) (sound : graph.frame.wiring.Sound) :
    interpreter.Mapped graph.frame.wiring := by
  obtain ⟨made, delegate, maxPasses, created, rfl⟩ := opened
  have mapped := (accepted_of_create created).mapped sound
  exact ⟨mapped.once, mapped.at_port, mapped.input, mapped.output⟩

/-- A worker at the end of a channel is one of the graph. -/
theorem lt_of_end {frame : GraphFrame} {channel : ChannelId} {ends : ChannelRequest}
    (links : frame.wiring.Links channel ends) {id : WorkerId}
    (named : ends.producer = some id ∨ ends.consumer = some id) : id < frame.workers.length := by
  by_contra beyond
  have absent : frame.workers[id]? = none := List.getElem?_eq_none (Nat.le_of_not_lt beyond)
  rcases named with produces | consumes
  · obtain ⟨port, member, _⟩ := (links.producer id).mp produces
    simp only [GraphFrame.wiring, absent, Option.map_none, Option.getD_none, List.not_mem_nil]
      at member
  · obtain ⟨port, member, _⟩ := (links.consumer id).mp consumes
    simp only [GraphFrame.wiring, absent, Option.map_none, Option.getD_none, List.not_mem_nil]
      at member

/-- Sections that share the workers of a built graph between them have maps that fit. The
graphs may have run since they were built. -/
theorem complementary_sections_fit [Signature β] {graph left right : Graph β α μ}
    {workers others : List WorkerId} {given givenOther : List Constraint}
    {one other : Interpreter β α μ} (built : graph.Built) (leftFrame : left.frame = graph.frame)
    (rightFrame : right.frame = graph.frame) (opened : Opens left workers given one)
    (openedOther : Opens right others givenOther other)
    (split : ∀ id, id < graph.workers.length → (id ∈ workers ↔ id ∉ others)) :
    (∀ channel, channel < graph.channelCount →
      ∃! standing, graph.frame.wiring.Stands one.members other.members channel standing) ∧
    one.Fits other graph.frame.wiring ∧ other.Fits one graph.frame.wiring ∧
    one.Numbered ∧ other.Numbered := by
  have sound := built.sound.wiring
  have mapped := opened.mapped (leftFrame ▸ sound)
  have mappedOther := openedOther.mapped (rightFrame ▸ sound)
  rw [leftFrame] at mapped
  rw [rightFrame] at mappedOther
  have count : graph.frame.workers.length = graph.workers.length := List.length_map _
  have shared (id : WorkerId) (within : id < graph.frame.workers.length) :
      id ∈ one.members ↔ id ∉ other.members := by
    rw [opened.mem_members, openedOther.mem_members, leftFrame, rightFrame,
      split id (count ▸ within)]
    tauto
  have apart : ∀ id ∈ one.members, id ∉ other.members := by
    intro id here
    have within := (opened.mem_members.mp here).1
    rw [leftFrame] at within
    exact (shared id within).mp here
  have apartOther : ∀ id ∈ other.members, id ∉ one.members :=
    fun id there here => apart id here there
  refine ⟨?_, mapped.fits mappedOther sound apart, mappedOther.fits mapped sound apartOther,
    mapped.numbered, mappedOther.numbered⟩
  intro channel within
  have inside : channel < graph.frame.wiring.channels := by
    rw [graph.wiring_channels]
    exact within
  obtain ⟨ends, links⟩ := sound.exists_links channel
  refine ⟨Wiring.standingOf one.members ends, ?_, fun standing stands =>
    stands.standing_eq links apartOther⟩
  apply Wiring.stands_standingOf links (links.closed built.covered inside) _ apartOther
  intro id named
  have known := shared id (lt_of_end links named)
  tauto

/-- Two branches, workers 1 and 2, between a splitter and a joiner. -/
def diamondBuilder : Builder Standard Nat :=
  let builder := ({} : Builder Standard Nat)
  let builder := (builder.addWorker .splitter ⟨"fork", .duplicate⟩).2
  let builder := (builder.addWorker .filter ⟨"left", .identity⟩).2
  let builder := (builder.addWorker .filter ⟨"right", .identity⟩).2
  let builder := (builder.addWorker .joiner ⟨"meet", .roundRobinJoin 1⟩).2
  let builder := (builder.connect 0 1).2
  let builder := (builder.connect 0 2).2
  let builder := (builder.connect 1 3).2
  (builder.connect 2 3).2

def diamondGraph : Graph Standard Nat Unit := diamondBuilder.graph

def diamondSection (workers : List WorkerId) : Interpreter Standard Nat Unit :=
  onSection diamondGraph workers []

private theorem diamondGraph_built : diamondGraph.Built :=
  ⟨diamondBuilder,
    .connect _ _ (.connect _ _ (.connect _ _ (.connect _ _ (.addWorker _ _ (.addWorker _ _
      (.addWorker _ _ (.addWorker _ _ (.fresh _)))))))), rfl⟩

/-- The splitter with one branch, and the joiner with the other. -/
theorem complementary_sections_fit_diamond :
    (diamondSection [0, 1]).Fits (diamondSection [3, 2]) diamondGraph.frame.wiring ∧
      (diamondSection [3, 2]).Fits (diamondSection [0, 1]) diamondGraph.frame.wiring ∧
      (diamondSection [0, 1]).boundaries =
        [.input 4 none 0, .output 1 0 (some 2), .output 2 1 (some 3)] ∧
      (diamondSection [3, 2]).boundaries =
        [.input 1 (some 0) 2, .input 2 (some 1) 3, .output 5 3 none] := by
  have opened : Opens diamondGraph [0, 1] [] (diamondSection [0, 1]) :=
    ⟨diamondSection [0, 1], _, _, rfl, rfl⟩
  have openedOther : Opens diamondGraph [3, 2] [] (diamondSection [3, 2]) :=
    ⟨diamondSection [3, 2], _, _, rfl, rfl⟩
  have divided : ∀ id, id < diamondGraph.workers.length → (id ∈ [0, 1] ↔ id ∉ [3, 2]) := by
    decide
  have fits := complementary_sections_fit diamondGraph_built rfl rfl opened openedOther divided
  exact ⟨fits.2.1, fits.2.2.1, rfl, rfl⟩

end Interpreter

end DemandFlow
