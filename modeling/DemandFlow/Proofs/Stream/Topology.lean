import DemandFlow.Proofs.Graph.Representation
import DemandFlow.Proofs.Stream.Admission
import Mathlib.Logic.Relation
import Mathlib.Order.WellFounded

/-!
The graph that a stream becomes. Elements enter it at one worker and leave it at one worker,
every other port has a worker at its other end, and nobody feeds himself, directly or not.
Compiling accepts exactly the streams without empty parts whose bodies declare as many rates
as they have ports.
-/

set_option autoImplicit false

namespace DemandFlow

variable {β α μ : Type}

namespace Layout

/-- All producers of the channels are fed by finitely many others. -/
def Grounded (layout : Layout β) (channels : List ChannelId) : Prop :=
  ∀ channel ∈ channels, ∀ producer, channel ∈ layout.outputs producer →
    Acc layout.Feeds producer

theorem Sound.grounded_of_output {layout : Layout β} (sound : layout.Sound) {id : Nat}
    (accessible : Acc layout.Feeds id) : layout.Grounded (layout.outputs id) := by
  intro channel member producer other
  rcases List.mem_iff_getElem?.mp member with ⟨index, place⟩
  rcases List.mem_iff_getElem?.mp other with ⟨otherIndex, otherPlace⟩
  have same := (sound.outputOnce producer id otherIndex index channel otherPlace place).1
  rw [same]
  exact accessible

private theorem Grounded.acc {layout : Layout β} {id : Nat}
    (grounded : layout.Grounded (layout.inputs id)) : Acc layout.Feeds id := by
  constructor
  intro producer feeds
  rcases feeds with ⟨channel, gives, takes⟩
  exact grounded channel takes producer gives

end Layout

namespace Element

mutual

theorem Placed.acc {layout : Layout β} (sound : layout.Sound) : ∀ {element : Element β}
    {first : Nat} {ins outs : List ChannelId}, element.Placed layout first ins outs →
    layout.Grounded ins → ∀ id, first ≤ id → id < first + element.workerCount →
      Acc layout.Feeds id
  | .filter spec, first, ins, outs, placed, grounded => by
      unfold Placed at placed
      intro id atLeast below
      unfold workerCount at below
      have same : id = first := by omega
      subst same
      rw [← placed.inputs] at grounded
      exact grounded.acc
  | .pipeline children, first, ins, outs, placed, grounded => by
      unfold Placed at placed
      unfold workerCount
      exact PlacedInSeries.acc sound placed grounded
  | .splitjoin splitter branches joiner, first, ins, outs, placed, grounded => by
      unfold Placed at placed
      rcases placed with ⟨_, parts, results, splits, joins, abreast⟩
      rw [← splits.inputs] at grounded
      have splitAcc := grounded.acc
      have partsGrounded := sound.grounded_of_output splitAcc
      rw [splits.outputs] at partsGrounded
      rcases PlacedAbreast.acc sound abreast partsGrounded with ⟨branchesAcc, resultsGrounded⟩
      rw [← joins.inputs] at resultsGrounded
      intro id atLeast below
      unfold workerCount at below
      by_cases atSplitter : id = first
      · rw [atSplitter]
        exact splitAcc
      · by_cases atJoiner : id = first + 1
        · rw [atJoiner]
          exact resultsGrounded.acc
        · exact branchesAcc id (by omega) (by omega)

theorem PlacedInSeries.acc {layout : Layout β} (sound : layout.Sound) :
    ∀ {children : List (Element β)} {first : Nat} {ins outs : List ChannelId},
    PlacedInSeries layout children first ins outs → layout.Grounded ins →
    ∀ id, first ≤ id → id < first + workerCounts children → Acc layout.Feeds id
  | [], first, ins, outs, placed, grounded => by
      unfold PlacedInSeries at placed
      exact placed.elim
  | [child], first, ins, outs, placed, grounded => by
      unfold PlacedInSeries at placed
      unfold workerCounts workerCounts
      exact Placed.acc sound placed grounded
  | child :: next :: rest, first, ins, outs, placed, grounded => by
      unfold PlacedInSeries at placed
      rcases placed with ⟨link, head, tail⟩
      have framed := head.framed
      have here := Placed.acc sound head grounded
      have linked := sound.grounded_of_output (here _ framed.least framed.bound)
      rw [framed.outputs] at linked
      have others := PlacedInSeries.acc sound tail linked
      rw [workerCounts]
      intro id atLeast below
      by_cases early : id < first + child.workerCount
      · exact here id atLeast early
      · exact others id (by omega) (by omega)

theorem PlacedAbreast.acc {layout : Layout β} (sound : layout.Sound) :
    ∀ {branches : List (Element β)} {first : Nat} {parts results : List ChannelId},
    PlacedAbreast layout branches first parts results → layout.Grounded parts →
    (∀ id, first ≤ id → id < first + workerCounts branches → Acc layout.Feeds id) ∧
      layout.Grounded results
  | [], first, parts, results, placed, grounded => by
      unfold PlacedAbreast at placed
      rcases placed with ⟨rfl, rfl⟩
      constructor
      · intro id atLeast below
        unfold workerCounts at below
        omega
      · intro channel member
        cases member
  | branch :: rest, first, parts, results, placed, grounded => by
      unfold PlacedAbreast at placed
      rcases placed with ⟨part, otherParts, result, otherResults, rfl, rfl, head, tail⟩
      have framed := head.framed
      have here := Placed.acc sound head
        (fun channel member => grounded channel (by simp_all))
      have ended := sound.grounded_of_output (here _ framed.least framed.bound)
      rw [framed.outputs] at ended
      rcases PlacedAbreast.acc sound tail
        (fun channel member => grounded channel (List.mem_cons_of_mem _ member)) with
        ⟨others, othersGrounded⟩
      rw [workerCounts]
      constructor
      · intro id atLeast below
        by_cases early : id < first + branch.workerCount
        · exact here id atLeast early
        · exact others id (by omega) (by omega)
      · intro channel member
        rcases List.mem_cons.mp member with same | later
        · rw [same]
          exact ended result (List.mem_singleton_self _)
        · exact othersGrounded channel later

end

end Element

/-! ### One way in and one way out -/

namespace Builder

/-- Every port has a worker at its other end. -/
structure Paired (builder : Builder β α) : Prop where
  inputs : ∀ id, ∀ port ∈ builder.wiring.inputs id, port.peer ≠ none
  outputs : ∀ id, ∀ port ∈ builder.wiring.outputs id, port.peer ≠ none

private theorem peers_extend {ports : WorkerId → List Port} {worker peer : WorkerId}
    {channel : ChannelId} (paired : ∀ id, ∀ port ∈ ports id, port.peer ≠ none) :
    ∀ id, ∀ port ∈ Wiring.extend ports worker { peer := some peer, channel := channel } id,
      port.peer ≠ none := by
  intro id port member
  unfold Wiring.extend at member
  split at member
  next =>
    rcases List.mem_append.mp member with old | new
    · exact paired worker port old
    · rw [List.mem_singleton] at new
      rw [new]
      exact Option.some_ne_none peer
  next => exact paired id port member

private theorem keptByGrowth_paired : KeptByGrowth (Paired (β := β) (α := α)) where
  worker := by
    intro builder kind spec paired
    constructor
    · rw [wiring_addWorker]
      exact paired.inputs
    · rw [wiring_addWorker]
      exact paired.outputs
  connection := by
    intro builder producer consumer paired
    rcases builder.connect_view producer consumer with
      ⟨error, refused⟩ | ⟨id, after, made, _, ports, _, _⟩
    · rw [refused]
      exact paired
    · rw [made]
      constructor
      · rw [ports]
        exact peers_extend paired.inputs
      · rw [ports]
        exact peers_extend paired.outputs

end Builder

namespace Graph

/-- Worker 0 has one input, from outside, and the tail has one output, to the outside. All
other ports have a worker at their other end, and no worker is without. -/
structure Spanned (graph : Graph β α μ) (tail : Nat) (source drain : ChannelId) : Prop where
  inhabited : 0 < graph.workers.length
  known : tail < graph.workers.length
  entry : graph.frame.wiring.inputs 0 = [{ peer := none, channel := source }]
  exit : graph.frame.wiring.outputs tail = [{ peer := none, channel := drain }]
  fed : ∀ id, id < graph.workers.length → id ≠ 0 → graph.frame.wiring.inputs id ≠ [] ∧
    ∀ port ∈ graph.frame.wiring.inputs id, port.peer ≠ none
  feeding : ∀ id, id < graph.workers.length → id ≠ tail → graph.frame.wiring.outputs id ≠ [] ∧
    ∀ port ∈ graph.frame.wiring.outputs id, port.peer ≠ none

end Graph

private theorem Builder.Opened.eq_of_ne_nil {old new : List Port} (opened : Builder.Opened old new)
    (nonempty : old ≠ []) : new = old := by
  cases opened with
  | same => rfl
  | filled channel => exact absurd rfl nonempty

private theorem Builder.Opened.eq_singleton {new : List Port} {channel : ChannelId}
    (opened : Builder.Opened [] new) (single : new.map Port.channel = [channel]) :
    new = [{ peer := none, channel := channel }] := by
  cases opened with
  | same => cases single
  | filled other =>
      cases single
      rfl

theorem Graph.Embodies.spanned [Signature β] {compiler : Compiler} {element : Element β}
    {kind : ChannelKind} {source drain : ChannelId} {builder : Builder β α}
    {head tail : WorkerId} {graph : Graph β α μ}
    (embodies : graph.Embodies kind element source drain)
    (expanded : (compiler.builder : Builder β α).addStream element = (.ok (head, tail), builder))
    (built : builder.build.1 = .ok graph) : graph.Spanned (element.last 0) source drain := by
  have framed := (Builder.addStream_expanded element expanded).placed.framed
  have final := embodies.placed.framed
  have bound := final.bound
  have least := final.least
  have count := embodies.count
  change builder.layout.Framed 0 (element.last 0) (0 + element.workerCount) [] [] at framed
  rw [Nat.zero_add] at framed bound
  have paired : builder.Paired := by
    have grown := Builder.keptByGrowth_paired.addStream element (compiler.builder : Builder β α)
      ⟨(fun _ _ member => by cases member), (fun _ _ member => by cases member)⟩
    rw [expanded] at grown
    exact grown
  rcases Graph.build_view built with ⟨after, workers, completed, finished, rfl, bankEq, _, _⟩
  have opens := Builder.completeAll_opens completed
  have ports : graph.frame.wiring = after.wiring := Graph.wiring_of_finishAll finished bankEq
  have noInput : builder.wiring.inputs 0 = [] := List.map_eq_nil_iff.mp framed.inputs
  have noOutput : builder.wiring.outputs (element.last 0) = [] :=
    List.map_eq_nil_iff.mp framed.outputs
  refine ⟨by omega, by omega, ?_, ?_, ?_, ?_⟩
  · have opened := opens.inputs 0
    rw [← ports, noInput] at opened
    exact opened.eq_singleton final.inputs
  · have opened := opens.outputs (element.last 0)
    rw [← ports, noOutput] at opened
    exact opened.eq_singleton final.outputs
  · intro id below other
    have nonempty : builder.wiring.inputs id ≠ [] := fun empty =>
      framed.fed id (by omega) (by omega) (by simp only [Builder.layout, empty, List.map_nil])
    rw [ports, (opens.inputs id).eq_of_ne_nil nonempty]
    exact ⟨nonempty, paired.inputs id⟩
  · intro id below other
    have nonempty : builder.wiring.outputs id ≠ [] := fun empty =>
      framed.feeding id (by omega) (by omega) other (by simp [Builder.layout, empty])
    rw [ports, (opens.outputs id).eq_of_ne_nil nonempty]
    exact ⟨nonempty, paired.outputs id⟩

namespace Graph

def Precedes (graph : Graph β α μ) (producer consumer : WorkerId) : Prop :=
  ∃ edge ∈ graph.topology, edge.producer = producer ∧ edge.consumer = consumer

theorem mem_sinks {graph : Graph β α μ} {id : WorkerId} :
    id ∈ graph.sinks ↔ id < graph.workers.length ∧ ∀ other, ¬ graph.Precedes id other := by
  unfold sinks workerIds
  rw [List.mem_filter, List.mem_range, List.all_eq_true]
  apply and_congr_right
  intro _
  constructor
  · intro unused other precedes
    rcases precedes with ⟨edge, member, here, _⟩
    simpa only [here, bne_self_eq_false, Bool.false_eq_true] using unused edge member
  · intro unfollowed edge member
    rw [bne_iff_ne]
    exact fun here => unfollowed edge.consumer ⟨edge, member, here, rfl⟩

theorem mem_sources {graph : Graph β α μ} {id : WorkerId} :
    id ∈ graph.sources ↔ id < graph.workers.length ∧ ∀ other, ¬ graph.Precedes other id := by
  unfold sources workerIds
  rw [List.mem_filter, List.mem_range, List.all_eq_true]
  apply and_congr_right
  intro _
  constructor
  · intro unused other precedes
    rcases precedes with ⟨edge, member, _, here⟩
    simpa only [here, bne_self_eq_false, Bool.false_eq_true] using unused edge member
  · intro unpreceded edge member
    rw [bne_iff_ne]
    exact fun here => unpreceded edge.producer ⟨edge, member, rfl, here⟩

/-- A channel is an output of the one worker and an input of the other, and each of the two ports
names the other's worker. -/
def Connects (graph : Graph β α μ) (producer consumer : WorkerId) : Prop :=
  ∃ channel output input,
    graph.Output producer output { peer := some consumer, channel := channel } ∧
      graph.Input consumer input { peer := some producer, channel := channel }

section

variable {graph : Graph β α μ} {producer consumer : WorkerId}

theorem Represented.precedes_iff (represented : graph.Represented) :
    graph.Precedes producer consumer ↔ graph.Connects producer consumer := by
  constructor
  · intro precedes
    rcases precedes with ⟨edge, member, rfl, rfl⟩
    rcases (represented.edges edge).mp member with ⟨output, isOutput⟩
    rcases (represented.mirrored _ _ _).mp ⟨output, isOutput⟩ with ⟨input, isInput⟩
    exact ⟨edge.channel, output, input, isOutput, isInput⟩
  · intro connects
    rcases connects with ⟨channel, output, input, isOutput, _⟩
    exact ⟨⟨producer, consumer, channel⟩, (represented.edges _).mpr ⟨output, isOutput⟩, rfl, rfl⟩

/-- Seen from the producer, a connection is an output with a worker at its other end. -/
theorem Represented.precedes_iff_output (represented : graph.Represented) :
    graph.Precedes producer consumer ↔
      ∃ port ∈ graph.frame.wiring.outputs producer, port.peer = some consumer := by
  rw [represented.precedes_iff]
  constructor
  · intro connects
    rcases connects with ⟨channel, output, input, isOutput, _⟩
    exact ⟨_, List.mem_of_getElem? (output_iff.mp isOutput), rfl⟩
  · intro named
    rcases named with ⟨⟨peer, channel⟩, member, rfl⟩
    rcases List.mem_iff_getElem?.mp member with ⟨output, place⟩
    have isOutput := output_iff.mpr place
    rcases (represented.mirrored _ _ _).mp ⟨output, isOutput⟩ with ⟨input, isInput⟩
    exact ⟨channel, output, input, isOutput, isInput⟩

/-- Seen from the consumer, it is an input with a worker at its other end. -/
theorem Represented.precedes_iff_input (represented : graph.Represented) :
    graph.Precedes producer consumer ↔
      ∃ port ∈ graph.frame.wiring.inputs consumer, port.peer = some producer := by
  rw [represented.precedes_iff]
  constructor
  · intro connects
    rcases connects with ⟨channel, output, input, _, isInput⟩
    exact ⟨_, List.mem_of_getElem? (input_iff.mp isInput), rfl⟩
  · intro named
    rcases named with ⟨⟨peer, channel⟩, member, rfl⟩
    rcases List.mem_iff_getElem?.mp member with ⟨input, place⟩
    have isInput := input_iff.mpr place
    rcases (represented.mirrored _ _ _).mpr ⟨input, isInput⟩ with ⟨output, isOutput⟩
    exact ⟨channel, output, input, isOutput, isInput⟩

theorem Represented.precedes_known (represented : graph.Represented)
    (precedes : graph.Precedes producer consumer) :
    producer < graph.workers.length ∧ consumer < graph.workers.length := by
  rcases represented.precedes_iff.mp precedes with ⟨channel, output, input, isOutput, isInput⟩
  exact ⟨lt_of_output isOutput, lt_of_input isInput⟩

end

section

variable {graph : Graph β α μ} {kind : ChannelKind} {element : Element β}
  {source drain : ChannelId} {tail : Nat}

/-- In a spanned graph every worker but the first has a producer. -/
theorem Spanned.producer (spanned : graph.Spanned tail source drain)
    (represented : graph.Represented) {id : WorkerId} (below : id < graph.workers.length) :
    (∃ producer, graph.Precedes producer id) ↔ id ≠ 0 := by
  constructor
  · intro precedes
    rintro rfl
    rcases precedes with ⟨producer, precedes⟩
    rcases represented.precedes_iff_input.mp precedes with ⟨port, member, named⟩
    rw [spanned.entry, List.mem_singleton] at member
    rw [member] at named
    cases named
  · intro other
    have fed := spanned.fed id below other
    rcases List.exists_mem_of_ne_nil _ fed.1 with ⟨port, member⟩
    rcases Option.ne_none_iff_exists'.mp (fed.2 port member) with ⟨producer, named⟩
    exact ⟨producer, represented.precedes_iff_input.mpr ⟨port, member, named⟩⟩

/-- In a spanned graph every worker but the tail has a consumer. -/
theorem Spanned.consumer (spanned : graph.Spanned tail source drain)
    (represented : graph.Represented) {id : WorkerId} (below : id < graph.workers.length) :
    (∃ consumer, graph.Precedes id consumer) ↔ id ≠ tail := by
  constructor
  · intro precedes
    rintro rfl
    rcases precedes with ⟨consumer, precedes⟩
    rcases represented.precedes_iff_output.mp precedes with ⟨port, member, named⟩
    rw [spanned.exit, List.mem_singleton] at member
    rw [member] at named
    cases named
  · intro other
    have feeding := spanned.feeding id below other
    rcases List.exists_mem_of_ne_nil _ feeding.1 with ⟨port, member⟩
    rcases Option.ne_none_iff_exists'.mp (feeding.2 port member) with ⟨consumer, named⟩
    exact ⟨consumer, represented.precedes_iff_output.mpr ⟨port, member, named⟩⟩

/-- The connections of a stream lead one way. -/
theorem Embodies.wellFounded [Signature β]
    (embodies : graph.Embodies kind element source drain)
    (spanned : graph.Spanned tail source drain) : WellFounded graph.Precedes := by
  have represented := embodies.built.represented
  have wired := embodies.built.sound.wiring
  have sound := embodies.describes.sound wired
  have grounded : graph.layout.Grounded [source] := by
    intro channel member producer output
    rw [List.mem_singleton] at member
    subst member
    -- A producer of the source would be named by the first worker.
    rcases List.mem_map.mp output with ⟨port, portIn, same⟩
    rcases List.mem_iff_getElem?.mp portIn with ⟨index, place⟩
    have entry : (graph.frame.wiring.inputs 0)[0]? =
        some { peer := none, channel := channel } := by
      rw [spanned.entry]
      rfl
    cases (wired.ends producer 0 index 0 port _ place entry same).2.1
  have feeds {producer consumer : WorkerId} (precedes : graph.Precedes producer consumer) :
      graph.layout.Feeds producer consumer := by
    rcases represented.precedes_iff.mp precedes with ⟨channel, _, _, isOutput, isInput⟩
    exact ⟨channel, List.mem_map.mpr ⟨_, List.mem_of_getElem? (output_iff.mp isOutput), rfl⟩,
      List.mem_map.mpr ⟨_, List.mem_of_getElem? (input_iff.mp isInput), rfl⟩⟩
  constructor
  intro id
  by_cases below : id < graph.workers.length
  · have accessible := embodies.placed.acc sound grounded id (Nat.zero_le _)
      (by rw [Nat.zero_add, ← embodies.count]; exact below)
    exact Subrelation.accessible feeds accessible
  · constructor
    intro producer precedes
    exact absurd (represented.precedes_known precedes).2 below

/-- Every worker is reached from the first along connections. -/
theorem Spanned.reached (spanned : graph.Spanned tail source drain)
    (represented : graph.Represented) (wellFounded : WellFounded graph.Precedes) (id : WorkerId)
    (below : id < graph.workers.length) : Relation.ReflTransGen graph.Precedes 0 id := by
  induction id using wellFounded.induction with
  | h id inductionHypothesis =>
      by_cases first : id = 0
      · rw [first]
      · rcases (spanned.producer represented below).mpr first with ⟨producer, precedes⟩
        have known := (represented.precedes_known precedes).1
        exact (inductionHypothesis producer precedes known).tail precedes

end

end Graph

namespace Graph

section

variable {graph : Graph β α μ} {source drain : ChannelId} {tail : Nat}

private theorem Spanned.sources_eq (spanned : graph.Spanned tail source drain)
    (represented : graph.Represented) : graph.sources = [0] := by
  apply eq_singleton_of_nodup (List.nodup_range.filter _)
  intro id
  change id ∈ graph.sources ↔ id = 0
  rw [mem_sources]
  constructor
  · intro isSource
    apply Classical.byContradiction
    intro other
    rcases (spanned.producer represented isSource.1).mpr other with ⟨producer, precedes⟩
    exact isSource.2 producer precedes
  · rintro rfl
    refine ⟨spanned.inhabited, ?_⟩
    intro producer precedes
    exact (spanned.producer represented spanned.inhabited).mp ⟨producer, precedes⟩ rfl

private theorem Spanned.sinksOf_eq (spanned : graph.Spanned tail source drain)
    (represented : graph.Represented) :
    Interpreter.sinksOf graph (List.range graph.workers.length) = [tail] := by
  apply eq_singleton_of_nodup (List.nodup_range.filter _)
  intro id
  change id ∈ Interpreter.sinksOf graph (List.range graph.workers.length) ↔ id = tail
  rw [Interpreter.mem_sinksOf, List.mem_range]
  constructor
  · intro isSink
    apply Classical.byContradiction
    intro other
    rcases (spanned.consumer represented isSink.1).mpr other with ⟨consumer, precedes⟩
    have known := (represented.precedes_known precedes).2
    rcases represented.precedes_iff_input.mp precedes with ⟨port, member, named⟩
    exact isSink.2 consumer (List.mem_range.mpr known) port member named
  · rintro rfl
    refine ⟨spanned.known, ?_⟩
    intro consumer known port member named
    have precedes := represented.precedes_iff_input.mpr ⟨port, member, named⟩
    exact (spanned.consumer represented spanned.known).mp ⟨consumer, precedes⟩ rfl

private theorem Represented.staysInside (represented : graph.Represented) {id : WorkerId}
    {port : Port}
    (member : port ∈ graph.frame.wiring.inputs id ∨ port ∈ graph.frame.wiring.outputs id)
    (paired : port.peer ≠ none) :
    Interpreter.staysInside (List.range graph.workers.length) port = true := by
  rcases Option.ne_none_iff_exists'.mp paired with ⟨other, named⟩
  have known : other < graph.workers.length := by
    rcases member with input | output
    · have precedes := represented.precedes_iff_input.mpr ⟨port, input, named⟩
      exact (represented.precedes_known precedes).1
    · have precedes := represented.precedes_iff_output.mpr ⟨port, output, named⟩
      exact (represented.precedes_known precedes).2
  simp [Interpreter.staysInside, named, known]

private theorem Spanned.boundariesAt_eq (spanned : graph.Spanned tail source drain)
    (represented : graph.Represented) {id : WorkerId} {worker : Worker β μ}
    (known : graph.worker? id = some worker) :
    Interpreter.boundariesAt (List.range graph.workers.length) id worker =
      (if id = 0 then [.input source none 0] else []) ++
        if id = tail then [.output drain tail none] else [] := by
  have below := (List.getElem?_eq_some_iff.mp known).1
  unfold Interpreter.boundariesAt
  rw [← wiring_inputs known, ← wiring_outputs known]
  congr 1
  · by_cases first : id = 0
    · rw [if_pos first, first, spanned.entry]
      rfl
    · have inner : (graph.frame.wiring.inputs id).filter (fun port =>
          !Interpreter.staysInside (List.range graph.workers.length) port) = [] := by
        rw [List.filter_eq_nil_iff]
        intro port member
        have stays := represented.staysInside (.inl member)
          ((spanned.fed id below first).2 port member)
        simp only [stays, Bool.not_true, Bool.false_eq_true, not_false_eq_true]
      rw [if_neg first, inner]
      rfl
  · by_cases last : id = tail
    · rw [if_pos last, last, spanned.exit]
      rfl
    · have inner : (graph.frame.wiring.outputs id).filter (fun port =>
          !Interpreter.staysInside (List.range graph.workers.length) port) = [] := by
        rw [List.filter_eq_nil_iff]
        intro port member
        have stays := represented.staysInside (.inr member)
          ((spanned.feeding id below last).2 port member)
        simp only [stays, Bool.not_true, Bool.false_eq_true, not_false_eq_true]
      rw [if_neg last, inner]
      rfl

private theorem flatMap_ends {γ : Type} (first last : γ) (tail : Nat) (count : Nat) :
    (List.range count).flatMap (fun id =>
        (if id = 0 then [first] else []) ++ if id = tail then [last] else []) =
      (if 0 < count then [first] else []) ++ if tail < count then [last] else [] := by
  induction count with
  | zero => rfl
  | succ count inductionHypothesis =>
      rw [List.range_succ, List.flatMap_append, inductionHypothesis, List.flatMap_singleton]
      grind

theorem Spanned.boundariesOf_eq (spanned : graph.Spanned tail source drain)
    (represented : graph.Represented) :
    Interpreter.boundariesOf graph (List.range graph.workers.length) =
      [.input source none 0, .output drain tail none] := by
  have ends := flatMap_ends (BoundaryChannel.input source none 0) (.output drain tail none) tail
    graph.workers.length
  rw [if_pos spanned.inhabited, if_pos spanned.known] at ends
  refine Eq.trans ?_ ends
  unfold Interpreter.boundariesOf
  apply List.flatMap_congr
  intro id member
  rw [List.mem_range] at member
  have known : graph.worker? id = some graph.workers[id] := List.getElem?_eq_getElem member
  rw [known]
  exact spanned.boundariesAt_eq represented known

end

end Graph

/-- A graph whose constraints name its own workers has an interpreter over the whole of it. -/
theorem Interpreter.forGraph_of_known {graph : Graph β α μ}
    (known : ∀ constraint ∈ graph.constraints, constraint.sender < graph.workers.length ∧
      constraint.recipient < graph.workers.length) :
    ∃ made, Interpreter.forGraph graph = .ok made := by
  have every : Interpreter.unknownWorker? graph graph.workerIds = none := by
    unfold Interpreter.unknownWorker?
    rw [List.min?_eq_none_iff, List.filter_eq_nil_iff]
    intro id member
    simpa [Graph.contains, Graph.workerIds] using member
  have declared (constraint : Constraint) (member : constraint ∈ graph.constraints) :
      graph.constraints.any (fun other => other.sameRoute constraint) = true :=
    List.any_eq_true.mpr ⟨constraint, member, by simp only [Constraint.sameRoute, decide_true]⟩
  have given : graph.constraints.findSome? (Interpreter.givenFault? graph) = none := by
    rw [List.findSome?_eq_none_iff]
    intro constraint member
    simp [Interpreter.givenFault?, Graph.contains, known constraint member,
      declared constraint member]
  have kept : graph.constraints.findSome? (Interpreter.declaredFault?
      (graph.workerIds.filter graph.workerIds.contains) graph.constraints) = none := by
    rw [List.findSome?_eq_none_iff]
    intro constraint member
    simp [Interpreter.declaredFault?, Graph.workerIds, known constraint member,
      declared constraint member]
  unfold Interpreter.forGraph Interpreter.create Interpreter.constraintFault?
  rw [every, given]
  dsimp only
  rw [kept]
  exact ⟨_, rfl⟩

/-- A stream is made over an interpreter with one input, at the head, and one output, at the
tail. -/
theorem CompiledStream.create_of_boundaries {interpreter : Interpreter β α μ} {head tail : WorkerId}
    {source drain : ChannelId} (check : Bool)
    (boundaries : interpreter.boundaries = [.input source none head, .output drain tail none]) :
    ∃ stream, CompiledStream.create interpreter head tail check = .ok stream := by
  have inputs : interpreter.tokens .input = [0] := by
    unfold Interpreter.tokens Interpreter.boundary?
    rw [boundaries]
    rfl
  have outputs : interpreter.tokens .output = [1] := by
    unfold Interpreter.tokens Interpreter.boundary?
    rw [boundaries]
    rfl
  have entry : CompiledStream.attaches interpreter 0 head = true := by
    simp [CompiledStream.attaches, Interpreter.boundary?, boundaries, BoundaryChannel.worker,
      BoundaryChannel.input]
  have exit : CompiledStream.attaches interpreter 1 tail = true := by
    simp [CompiledStream.attaches, Interpreter.boundary?, boundaries, BoundaryChannel.worker,
      BoundaryChannel.output]
  unfold CompiledStream.create
  rw [inputs, outputs]
  dsimp only
  rw [entry, exit]
  exact ⟨_, rfl⟩

namespace Compiler

section

variable [Signature β] {compiler : Compiler} {element : Element β} {builder : Builder β α}
  {head tail : WorkerId} {graph : Graph β α μ}

/-- A stream that is expanded and whose bodies declare rates for their ports is built. -/
theorem build_of_rated
    (expanded : (compiler.builder : Builder β α).addStream element = (.ok (head, tail), builder))
    (fits : compiler.factory.fits = true) (tipped : builder.Tipped head tail)
    (rated : element.rated = true) : ∃ graph : Graph β α μ, builder.build.1 = .ok graph := by
  have placing := Builder.addStream_expanded element expanded
  have below : ∀ id ∈ List.range builder.drafts.length, id < builder.drafts.length :=
    fun _ member => List.mem_range.mp member
  have same : builder.factory = compiler.factory := Builder.addStream_factory expanded
  rw [← same] at fits
  rcases (placing.completable rfl fits tipped).completeAll below with ⟨after, completed⟩
  have complete := Builder.completeAll_completed (Compiler.plain expanded) completed
  have count : builder.drafts.length = element.workerCount := placing.count.trans (Nat.zero_add _)
  rcases complete.placed placing.placed count with ⟨source, drain, placed⟩
  have fits : ∀ draft ∈ after.drafts,
      Element.fitsAt draft.body draft.inputs.length draft.outputs.length = true := by
    intro draft member
    rcases List.mem_iff_getElem?.mp member with ⟨id, place⟩
    have within := (List.getElem?_eq_some_iff.mp place).1
    have found : after.draft id = .ok draft := by simp only [Builder.draft, place]
    have ports := Builder.ports_of_draft found
    have here := placed.rated_iff.mp rated id draft.body (Nat.zero_le _)
      (by rw [Nat.zero_add, ← count, ← complete.length_eq]; exact within)
      (by simp only [Builder.layout, place, Option.map_some])
    rw [ports.1, ports.2, List.length_map, List.length_map] at here
    exact here
  rcases Builder.finishAll_of_fits (μ := μ) 0 fits with ⟨workers, finished⟩
  unfold Builder.build Builder.complete
  rw [completed]
  dsimp only
  rw [finished]
  exact ⟨_, rfl⟩

/-- The head of an expanded stream lacks its input, so building asks for a channel. -/
theorem fits_of_build
    (expanded : (compiler.builder : Builder β α).addStream element = (.ok (head, tail), builder))
    (built : builder.build.1 = .ok graph) : compiler.factory.fits = true := by
  rcases Graph.build_view built with ⟨after, _, completed, _⟩
  have placing := Builder.addStream_expanded element expanded
  have complete := Builder.completeAll_completed (Compiler.plain expanded) completed
  have framed := placing.placed.framed
  have same : builder.factory = compiler.factory := Builder.addStream_factory expanded
  rcases complete.fits with unchanged | fits
  · have first : 0 < builder.drafts.length := by
      have bound := framed.bound
      rw [placing.count]
      exact Nat.lt_of_le_of_lt (Nat.zero_le _) bound
    have fed := complete.inputs 0 (List.mem_range.mpr first)
    rw [unchanged] at fed
    exact absurd framed.inputs fed
  · rw [← same]
    exact fits

private theorem rated_of_build {kind : ChannelKind} {source drain : ChannelId}
    (built : builder.build.1 = .ok graph)
    (embodies : graph.Embodies kind element source drain) : element.rated = true := by
  rcases Graph.build_view built with ⟨after, workers, _, finished, rfl, _, _, _⟩
  rw [embodies.placed.rated_iff]
  intro id body _ _ placed
  rcases Option.map_eq_some_iff.mp placed with ⟨worker, known, rfl⟩
  rcases Graph.worker_of_finishAll finished known with ⟨draft, _, shared⟩
  have fits := shared.rated
  rw [shared.rates, ← shared.body] at fits
  change (Signature.rates worker.body (graph.layout.shape id)).fits (graph.layout.shape id) = true
  rw [embodies.describes.worker_shape known]
  exact fits

end

end Compiler

/-- The stream has as many workers as the element says. Their connections lead from the head
to every one of them and never back, only the head is fed from outside, through one channel,
and only the tail feeds the outside, through one channel. -/
structure CompiledStream.Flows (stream : CompiledStream β α μ) (element : Element β)
    (head tail : WorkerId) : Prop where
  workers : stream.interpreter.graph.workers.length = element.workerCount
  acyclic : ∀ id, ¬ Relation.TransGen stream.interpreter.graph.Precedes id id
  source : stream.interpreter.graph.sources = [head]
  sink : stream.interpreter.sinks = [tail]
  reached : ∀ id, id < stream.interpreter.graph.workers.length →
    Relation.ReflTransGen stream.interpreter.graph.Precedes head id
  boundaries : ∃ input output,
    stream.interpreter.boundaries = [.input input none head, .output output tail none]

namespace Compiler

variable [Signature β] {compiler : Compiler} {element : Element β}

private theorem flows_of_compile {stream : CompiledStream β α μ}
    (made : compiler.compile element = .ok stream) :
    compiler.factory.fits = true ∧ element.populated = true ∧ element.rated = true ∧
    ∃ head tail, ((compiler.builder : Builder β α).addStream element).1 = .ok (head, tail) ∧
        stream.Flows element head tail := by
  rcases compile_view made with
    ⟨builder, head, tail, graph, interpreter, expanded, built, opened, created⟩
  rcases Compiler.embodies expanded built with ⟨rfl, rfl, source, drain, embodies⟩
  have spanned := embodies.spanned expanded built
  have represented := embodies.built.represented
  have wellFounded := embodies.wellFounded spanned
  have accepted := Interpreter.accepted_of_create opened
  have members := Interpreter.members_of_forGraph opened
  have boundaries : interpreter.boundaries =
      Interpreter.boundariesOf interpreter.graph interpreter.members := by
    rw [accepted.boundaries, accepted.graph_eq]
  have same := (Interpreter.ends_of_create created boundaries).1
  have graphEq : stream.interpreter.graph = graph := by
    rw [same]
    exact accepted.graph_eq
  refine ⟨fits_of_build expanded built, embodies.placed.populated, rated_of_build built embodies,
    0, element.last 0, by rw [expanded], ?_⟩
  constructor
  case workers =>
    rw [graphEq]
    exact embodies.count
  case acyclic =>
    rw [graphEq]
    exact wellFounded.transGen.irrefl.irrefl
  case source =>
    rw [graphEq]
    exact spanned.sources_eq represented
  case sink =>
    rw [same]
    change interpreter.sinks = _
    rw [accepted.sinks, members]
    exact spanned.sinksOf_eq represented
  case reached =>
    rw [graphEq]
    exact spanned.reached represented wellFounded
  case boundaries =>
    refine ⟨source, drain, ?_⟩
    rw [same]
    change interpreter.boundaries = _
    rw [accepted.boundaries, members]
    exact spanned.boundariesOf_eq represented

theorem compile_of_wellFormed (fits : compiler.factory.fits = true)
    (populated : element.populated = true) (rated : element.rated = true) :
    ∃ stream : CompiledStream β α μ, compiler.compile element = .ok stream := by
  rcases Builder.addStream_succeeds element (compiler.builder : Builder β α) fits populated with
    ⟨head, tail, builder, expanded, tipped⟩
  rcases build_of_rated (μ := μ) expanded fits tipped rated with ⟨graph, built⟩
  rcases Compiler.embodies expanded built with ⟨rfl, rfl, source, drain, embodies⟩
  have spanned := embodies.spanned expanded built
  have known : ∀ constraint ∈ graph.constraints, constraint.sender < graph.workers.length ∧
      constraint.recipient < graph.workers.length := by
    simp only [embodies.constraints, List.not_mem_nil, IsEmpty.forall_iff, implies_true]
  rcases Interpreter.forGraph_of_known known with ⟨interpreter, opened⟩
  have accepted := Interpreter.accepted_of_create opened
  have boundaries : interpreter.boundaries =
      [.input source none 0, .output drain (element.last 0) none] := by
    rw [accepted.boundaries, Interpreter.members_of_forGraph opened]
    exact spanned.boundariesOf_eq embodies.built.represented
  unfold compile
  rw [expanded]
  dsimp only
  unfold compileBuilt
  rw [built]
  dsimp only
  rw [opened]
  exact CompiledStream.create_of_boundaries _ boundaries

/-- Compiling accepts exactly the streams without empty pipelines and lists of branches whose
bodies declare as many rates as they get ports, provided that a channel can be as large as the
configuration wants it. What it makes of them is one acyclic graph between one input at its head
and one output at its tail. -/
theorem compile_accepts_exactly (compiler : Compiler) (element : Element β) :
    ((∃ stream : CompiledStream β α μ, compiler.compile element = .ok stream) ↔
      compiler.factory.fits = true ∧ element.populated = true ∧ element.rated = true) ∧
    ∀ stream : CompiledStream β α μ, compiler.compile element = .ok stream →
      ∃ head tail, ((compiler.builder : Builder β α).addStream element).1 = .ok (head, tail) ∧
        stream.Flows element head tail := by
  constructor
  · constructor
    · rintro ⟨stream, made⟩
      rcases flows_of_compile made with ⟨fits, populated, rated, _⟩
      exact ⟨fits, populated, rated⟩
    · rintro ⟨fits, populated, rated⟩
      exact compile_of_wellFormed fits populated rated
  · intro stream made
    exact (flows_of_compile made).2.2.2

/-- A splitjoin with a pipeline on one branch, behind a filter. -/
def braid : Element Standard :=
  .pipeline
    [.filter ⟨"first", .identity⟩,
      .splitjoin ⟨"fork", .duplicate⟩
        [.filter ⟨"short", .identity⟩,
          .pipeline [.filter ⟨"long", .identity⟩, .filter ⟨"longer", .identity⟩]]
        ⟨"join", .roundRobinJoin 2⟩]

theorem compile_accepts_exactly_braid :
    braid.populated = true ∧ braid.rated = true ∧ ∃ stream : CompiledStream Standard Nat Unit,
      ({} : Compiler).compile braid = .ok stream ∧ ∃ head tail, stream.Flows braid head tail := by
  have accepts := compile_accepts_exactly (α := Nat) (μ := Unit) {} braid
  rcases accepts.1.mpr ⟨by decide, by decide, by decide⟩ with ⟨stream, made⟩
  rcases accepts.2 stream made with ⟨head, tail, _, flows⟩
  exact ⟨by decide, by decide, stream, made, head, tail, flows⟩

/-- A valid configuration with which no stream is compiled: its channels would be larger than a
buffer can be. -/
theorem compile_overflows_only :
    ({ channelCapacity := maxCount } : Config).validate = .ok () ∧
    (Element.filter ⟨"only", Standard.identity⟩).populated = true ∧
    (Element.filter ⟨"only", Standard.identity⟩).rated = true ∧
    (({ config := { channelCapacity := maxCount } } : Compiler).compile
      (.filter ⟨"only", Standard.identity⟩) : Except Error (CompiledStream Standard Nat Unit)) =
        .error .capacityOverflow :=
  ⟨rfl, rfl, rfl, rfl⟩

end Compiler

end DemandFlow
