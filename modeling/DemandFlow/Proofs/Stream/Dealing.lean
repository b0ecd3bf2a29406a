import DemandFlow.Proofs.Stream.Refinement
import DemandFlow.Proofs.Stream.Rounds
import DemandFlow.Proofs.Stream.Topology

/-!
Dealing and collecting cancel. A round-robin splitter deals elements in rounds, a hand to each
branch; a round-robin joiner behind branches that pass everything on collects the hands in the
same order. So what comes out is what went in, up to the last whole round, and the rest waits in
front of the splitter.
-/

set_option autoImplicit false

namespace DemandFlow

variable {β α μ : Type}

theorem take_blocks (elements : List α) (count size : Nat) :
    (List.range count).flatMap (fun block => (elements.drop (block * size)).take size) =
      elements.take (count * size) := by
  induction count with
  | zero => simp only [List.range_zero, List.flatMap_nil, Nat.zero_mul, List.take_zero]
  | succ count inductionHypothesis =>
      rw [List.range_succ, List.flatMap_append, List.flatMap_singleton, inductionHypothesis,
        Nat.succ_mul, List.take_add]

theorem length_blocks {blocks : Nat → List α} {size count : Nat}
    (sized : ∀ block, block < count → (blocks block).length = size) :
    ((List.range count).flatMap blocks).length = count * size := by
  rw [List.length_flatMap,
    List.map_congr_left (fun block member => sized block (List.mem_range.mp member)),
    List.map_const', List.sum_replicate_nat, List.length_range]

/-- A block of a list made up of blocks of equal size. -/
theorem block_of_blocks {blocks : Nat → List α} {size count block : Nat}
    (sized : ∀ block, block < count → (blocks block).length = size) (below : block < count) :
    (((List.range count).flatMap blocks).drop (block * size)).take size = blocks block := by
  obtain ⟨more, rfl⟩ : ∃ more, count = block + (1 + more) := ⟨count - block - 1, by omega⟩
  have before : ((List.range block).flatMap blocks).length = block * size :=
    length_blocks fun other within => sized other (by omega)
  have here : (List.range 1).map (block + ·) = [block] := rfl
  rw [List.range_add, List.flatMap_append, List.drop_left' before, List.range_add,
    List.map_append, here, List.flatMap_append, List.flatMap_singleton]
  exact List.take_left' (sized block below)

def hand (weight players : Nat) (elements : List α) (player round : Nat) : List α :=
  ((elements.drop (round * (weight * players))).drop (weight * player)).take weight

def dealt (weight players rounds : Nat) (elements : List α) (player : Nat) : List α :=
  (List.range rounds).flatMap (hand weight players elements player)

section

variable {weight players rounds : Nat} {elements : List α}
  (enough : rounds * (weight * players) ≤ elements.length) {player : Nat}
  (within : player < players)
include enough within

theorem length_hand {round : Nat} (below : round < rounds) :
    (hand weight players elements player round).length = weight := by
  have whole := Nat.mul_le_mul_right (weight * players) (Nat.succ_le_of_lt below)
  have part := Nat.mul_le_mul_left weight (Nat.succ_le_of_lt within)
  rw [Nat.succ_mul] at whole
  rw [Nat.mul_succ] at part
  unfold hand
  rw [List.length_take, List.length_drop, List.length_drop]
  omega

theorem length_dealt : (dealt weight players rounds elements player).length = rounds * weight :=
  length_blocks fun _ below => length_hand enough within below

theorem hand_of_dealt {round : Nat} (below : round < rounds) :
    ((dealt weight players rounds elements player).drop (round * weight)).take weight =
      hand weight players elements player round :=
  block_of_blocks (fun _ inside => length_hand enough within inside) below

end

/-- Collecting the hands of each round in turn gives back the elements. -/
theorem collect_hands {weight players rounds : Nat} {elements : List α} {piles : Nat → List α}
    (hands : ∀ round, round < rounds → ∀ player, player < players →
      ((piles player).drop (round * weight)).take weight =
        hand weight players elements player round) :
    (List.range rounds).flatMap (fun round => (List.range players).flatMap
      (fun player => ((piles player).drop (round * weight)).take weight)) =
      elements.take (rounds * (weight * players)) := by
  rw [← take_blocks]
  apply List.flatMap_congr
  intro round member
  have each : (List.range players).flatMap
      (fun player => ((piles player).drop (round * weight)).take weight) =
      (List.range players).flatMap
        (fun player => ((elements.drop (round * (weight * players))).drop
          (player * weight)).take weight) := by
    apply List.flatMap_congr
    intro player among
    rw [hands round (List.mem_range.mp member) player (List.mem_range.mp among), hand,
      Nat.mul_comm weight player]
  rw [each, take_blocks, Nat.mul_comm players weight]

namespace Standard

theorem gives_identity (inputs : Nat → List α) (count : Nat) :
    (List.range count).flatMap
      (fun round => gives .identity ⟨1, 1⟩ (afterRounds (takes .identity ⟨1, 1⟩) inputs round) 0) =
      (inputs 0).take count := by
  have blocks := take_blocks (inputs 0) count 1
  rw [Nat.mul_one] at blocks
  exact blocks

theorem gives_roundRobinSplit (weight : Nat) {players : Nat} (inputs : Nat → List α)
    (count : Nat) {player : Nat} (within : player < players) :
    (List.range count).flatMap (fun round => gives (.roundRobinSplit weight) ⟨1, players⟩
      (afterRounds (takes (.roundRobinSplit weight) ⟨1, players⟩) inputs round) player) =
      dealt weight players count (inputs 0) player := by
  apply List.flatMap_congr
  intro round member
  exact if_pos within

theorem gives_roundRobinJoin (weight players : Nat) (inputs : Nat → List α) (count : Nat) :
    (List.range count).flatMap (fun round => gives (.roundRobinJoin weight) ⟨players, 1⟩
      (afterRounds (takes (.roundRobinJoin weight) ⟨players, 1⟩) inputs round) 0) =
      (List.range count).flatMap (fun round => (List.range players).flatMap
        (fun player => ((inputs player).drop (round * weight)).take weight)) := by
  apply List.flatMap_congr
  intro round member
  apply List.flatMap_congr
  intro player among
  rw [afterRounds, takes_roundRobinJoin (List.mem_range.mp among)]

private theorem produce_identity (inputs : Nat → List α) :
    produce μ Standard.identity ⟨1, 1⟩ inputs 0 = inputs 0 := by
  have whole : (inputs 0).length * takes .identity ⟨1, 1⟩ 0 ≤ (inputs 0).length :=
    (Nat.mul_one _).le
  have short : (inputs 0).length < ((inputs 0).length + 1) * takes .identity ⟨1, 1⟩ 0 :=
    (Nat.lt_succ_self _).trans_eq (Nat.mul_one _).symm
  rw [suits_identity.produce_single whole short Nat.zero_lt_one, gives_identity, List.take_length]

section

variable {weight players : Nat} (positive : 0 < weight * players)
  (known : weight * players < maxCount)
include positive known

private theorem produce_roundRobinSplit (inputs : Nat → List α) {player : Nat}
    (within : player < players) :
    produce μ (Standard.roundRobinSplit weight) ⟨1, players⟩ inputs player =
      dealt weight players ((inputs 0).length / (weight * players)) (inputs 0) player := by
  have enough := Nat.div_mul_le_self (inputs 0).length (weight * players)
  have short : (inputs 0).length <
      ((inputs 0).length / (weight * players) + 1) * (weight * players) := by
    rw [Nat.succ_mul]
    exact Nat.lt_div_mul_add positive
  rw [(suits_roundRobinSplit positive known).produce_single enough short within]
  exact gives_roundRobinSplit weight inputs _ within

/-- A round-robin joiner collects as many rounds as each of its inputs holds. -/
theorem produce_roundRobinJoin {piles : Nat → List α} {rounds : Nat}
    (sized : ∀ player, player < players → (piles player).length = rounds * weight) :
    produce μ (Standard.roundRobinJoin weight) ⟨players, 1⟩ piles 0 =
      (List.range rounds).flatMap (fun round => (List.range players).flatMap
        (fun player => ((piles player).drop (round * weight)).take weight)) := by
  have first : 0 < players := Nat.pos_of_mul_pos_left positive
  have heavy : 0 < weight := Nat.pos_of_mul_pos_right positive
  rw [← gives_roundRobinJoin]
  apply (suits_roundRobinJoin positive known).produce_eq
  · intro player within
    rw [sized player within, takes_roundRobinJoin within]
  · refine ⟨0, first, ?_⟩
    rw [sized 0 first, takes_roundRobinJoin first, Nat.succ_mul]
    omega
  · exact Nat.zero_lt_one

end

end Standard

/-- A splitter that deals elements to branches that pass them on, and a joiner that collects
them. -/
def dealing (weight : Nat) (split join : String) (branches : List String) : Element Standard :=
  .splitjoin ⟨split, .roundRobinSplit weight⟩
    (branches.map fun name => .filter ⟨name, .identity⟩) ⟨join, .roundRobinJoin weight⟩

structure Layout.Deals (layout : Layout Standard) (weight players : Nat)
    (source drain : ChannelId) (parts results : List ChannelId) : Prop where
  splits : layout.Has 0 (.roundRobinSplit weight) [source] parts
  joins : layout.Has 1 (.roundRobinJoin weight) results [drain]
  parts_length : parts.length = players
  results_length : results.length = players
  passes : ∀ player, player < players → ∃ part result, parts[player]? = some part ∧
    results[player]? = some result ∧ layout.Has (player + 2) .identity [part] [result]

private theorem Element.PlacedAbreast.passes {layout : Layout Standard} {branches : List String}
    {first : Nat} {parts results : List ChannelId}
    (placed : PlacedAbreast layout
      (branches.map fun name => Element.filter ⟨name, Standard.identity⟩) first parts results)
    (player : Nat) (within : player < branches.length) :
    ∃ part result, parts[player]? = some part ∧ results[player]? = some result ∧
      layout.Has (first + player) .identity [part] [result] := by
  induction branches generalizing first parts results player with
  | nil => cases within
  | cons name rest inductionHypothesis =>
      unfold List.map PlacedAbreast at placed
      obtain ⟨part, otherParts, result, otherResults, rfl, rfl, head, tail⟩ := placed
      cases player with
      | zero => exact ⟨part, result, rfl, rfl, head⟩
      | succ player =>
          obtain ⟨otherPart, otherResult, partAt, resultAt, has⟩ :=
            inductionHypothesis tail player (Nat.lt_of_succ_lt_succ within)
          refine ⟨otherPart, otherResult, partAt, resultAt, ?_⟩
          rw [Nat.add_comm player, ← Nat.add_assoc]
          exact has

private theorem deals_of_placed {layout : Layout Standard} {weight : Nat} {split join : String}
    {branches : List String} {source drain : ChannelId}
    (placed : (dealing weight split join branches).Placed layout 0 [source] [drain]) :
    ∃ parts results, layout.Deals weight branches.length source drain parts results := by
  unfold dealing Element.Placed at placed
  obtain ⟨_, parts, results, splits, joins, abreast⟩ := placed
  have lengths := abreast.lengths
  rw [List.length_map] at lengths
  refine ⟨parts, results, splits, joins, lengths.1, lengths.2, ?_⟩
  intro player within
  rw [Nat.add_comm player]
  exact abreast.passes player within

namespace Layout

section

variable [Signature β] [Work β α μ] {layout : Layout β} {source channel : ChannelId}
  {elements carried : List α}

private theorem Denotes.of_has (sound : layout.Sound) (foreign : ∀ id, source ∉ layout.outputs id)
    {id output : Nat} {body : β} {ins outs : List ChannelId} (has : layout.Has id body ins outs)
    (port : outs[output]? = some channel)
    (denotes : layout.Denotes μ source elements channel carried) :
    ∃ inputs : Nat → List α,
      (∀ (index : Nat) (input : ChannelId), ins[index]? = some input →
        layout.Denotes μ source elements input (inputs index)) ∧
      carried = produce μ body ⟨ins.length, outs.length⟩ inputs output := by
  rw [← has.outputs] at port
  obtain ⟨other, inputs, known, denoted, made⟩ := denotes.of_output sound foreign port
  rw [has.body] at known
  cases known
  rw [has.inputs] at denoted
  refine ⟨inputs, denoted, ?_⟩
  rw [made, Layout.shape, has.inputs, has.outputs]

private theorem Denotes.at_source (foreign : ∀ id, source ∉ layout.outputs id)
    (denotes : layout.Denotes μ source elements source carried) : carried = elements := by
  cases denotes with
  | source => rfl
  | produced known inputs port => exact absurd (List.mem_of_getElem? port) (foreign _)

end

section

variable {layout : Layout Standard} {weight players : Nat} {source drain : ChannelId}
  {parts results : List ChannelId}
  (deals : layout.Deals weight players source drain parts results)
  (positive : 0 < weight * players) (known : weight * players < maxCount)
include deals positive known

private theorem Deals.denotes (sound : layout.Sound) (foreign : ∀ id, source ∉ layout.outputs id)
    {elements final : List α} (denotes : layout.Denotes μ source elements drain final) :
    final = elements.take (elements.length / (weight * players) * (weight * players)) := by
  have front {channel : ChannelId} : [channel][0]? = some channel := rfl
  obtain ⟨piles, denoted, rfl⟩ := denotes.of_has sound foreign deals.joins front
  have pile (player : Nat) (within : player < players) : piles player =
      dealt weight players (elements.length / (weight * players)) elements player := by
    obtain ⟨part, result, partAt, resultAt, has⟩ := deals.passes player within
    obtain ⟨passed, passedDenoted, passedEq⟩ :=
      (denoted player result resultAt).of_has sound foreign has front
    obtain ⟨whole, wholeDenoted, partEq⟩ :=
      (passedDenoted 0 part front).of_has sound foreign deals.splits partAt
    rw [deals.parts_length] at partEq
    calc
      piles player = passed 0 := passedEq.trans (Standard.produce_identity passed)
      _ = dealt weight players ((whole 0).length / (weight * players)) (whole 0) player :=
          partEq.trans (Standard.produce_roundRobinSplit positive known whole within)
      _ = dealt weight players (elements.length / (weight * players)) elements player := by
          rw [(wholeDenoted 0 source front).at_source foreign]
  have enough := Nat.div_mul_le_self elements.length (weight * players)
  have sized (player : Nat) (within : player < players) :
      (piles player).length = elements.length / (weight * players) * weight := by
    rw [pile player within, length_dealt enough within]
  rw [deals.results_length]
  apply (Standard.produce_roundRobinJoin positive known sized).trans
  apply collect_hands
  intro round below player within
  rw [pile player within]
  exact hand_of_dealt enough within below

end

end Layout

/-! ### How far dealing has come -/

/-- What a standard body has done in a graph that is kept track of. -/
theorem Simulates.standard_rounds {layout : Layout Standard} {drain : ChannelId}
    {carried : ChannelId → List α} {graph : Graph Standard α μ}
    (simulates : Simulates layout drain carried graph) {id : Nat} {body : Standard}
    {ins outs : List ChannelId} (has : layout.Has id body ins outs)
    (suits : body.Suits ⟨ins.length, outs.length⟩) {worker : Worker Standard μ}
    (present : graph.worker? id = some worker) :
    (∀ (index : Nat) (channel : ChannelId), ins[index]? = some channel →
      worker.executions * body.takes ⟨ins.length, outs.length⟩ index ≤ (carried channel).length ∧
      (graph.bank.channel channel).items = (carried channel).drop
        (worker.executions * body.takes ⟨ins.length, outs.length⟩ index)) ∧
    ∀ (index : Nat) (channel : ChannelId), outs[index]? = some channel →
      carried channel = (List.range worker.executions).flatMap (fun round =>
        body.gives ⟨ins.length, outs.length⟩
          (afterRounds (body.takes ⟨ins.length, outs.length⟩) (layout.onInputs carried id) round)
          index) := by
  obtain ⟨other, progress, tracks⟩ := simulates.workers id worker present
  have same := tracks.known
  rw [has.body] at same
  cases same
  have reaches := tracks.reaches
  rw [Layout.shape, has.inputs, has.outputs] at reaches
  have rounds := suits.rounds reaches
  rw [tracks.executions]
  constructor
  · intro index channel place
    have within : index < ins.length := (List.getElem?_eq_some_iff.mp place).1
    rw [← has.inputs] at place
    have carries := Layout.onInputs_of_some carried place
    rw [tracks.inputs index channel place, rounds.rest index within, afterRounds, ← carries]
    exact ⟨rounds.taken index within, rfl⟩
  · intro index channel place
    have within : index < outs.length := (List.getElem?_eq_some_iff.mp place).1
    rw [← has.outputs] at place
    rw [tracks.outputs index channel place]
    exact rounds.pushed index within

/-- So many rounds have been dealt and so many of them collected, and the rest of the elements
lies in front of the splitter. If everything dealt has been collected, the channels of the
branches are empty. -/
structure Dealt (weight players : Nat) (source drain : ChannelId)
    (parts results : List ChannelId) (carried : ChannelId → List α) (graph : Graph Standard α μ)
    (rounds collected : Nat) : Prop where
  collector : graph.executions? 1 = some collected
  behind : collected ≤ rounds
  enough : rounds * (weight * players) ≤ (carried source).length
  waiting : (graph.bank.channel source).items =
    (carried source).drop (rounds * (weight * players))
  finished : carried drain = (carried source).take (collected * (weight * players))
  level : collected = rounds → ∀ channel ∈ parts ++ results,
    (graph.bank.channel channel).items = []

section

variable {frame : InterpreterFrame} {audited : Bool} {layout : Layout Standard}
  {weight players : Nat} {source drain : ChannelId} {tail : WorkerId}
  {parts results : List ChannelId} {carried : ChannelId → List α} {graph : Graph Standard α μ}
  (simulates : Simulates layout drain carried graph)
  (hosts : frame.Hosts α μ audited layout source drain tail)
  (framed : graph.frame = frame.graph)
  (deals : layout.Deals weight players source drain parts results)
  (positive : 0 < weight * players) (known : weight * players < maxCount)
include simulates hosts framed deals positive known

private theorem Simulates.dealt_by_splitter : ∃ rounds,
    rounds * (weight * players) ≤ (carried source).length ∧
    (graph.bank.channel source).items = (carried source).drop (rounds * (weight * players)) ∧
    ∀ (player : Nat) (part : ChannelId), parts[player]? = some part →
      carried part = dealt weight players rounds (carried source) player := by
  have suits : Standard.Suits (.roundRobinSplit weight) ⟨[source].length, parts.length⟩ :=
    deals.parts_length ▸ Standard.suits_roundRobinSplit positive known
  obtain ⟨worker, present⟩ := Graph.worker_of_lt framed (hosts.known 0 _ deals.splits.body)
  obtain ⟨inputs, outputs⟩ := simulates.standard_rounds deals.splits suits present
  obtain ⟨taken, left⟩ := inputs 0 source rfl
  rw [deals.parts_length] at taken left outputs
  refine ⟨worker.executions, taken, left, ?_⟩
  intro player part place
  have within : player < players :=
    deals.parts_length ▸ (List.getElem?_eq_some_iff.mp place).1
  have first : (layout.inputs 0)[0]? = some source := by
    rw [deals.splits.inputs]
    rfl
  rw [outputs player part place, ← Layout.onInputs_of_some carried first]
  exact Standard.gives_roundRobinSplit weight _ _ within

omit deals positive known in
private theorem Simulates.passed_on {player : Nat} {part result : ChannelId}
    (has : layout.Has (player + 2) .identity [part] [result]) : ∃ passed,
    passed ≤ (carried part).length ∧
    (graph.bank.channel part).items = (carried part).drop passed ∧
    carried result = (carried part).take passed := by
  obtain ⟨worker, present⟩ := Graph.worker_of_lt framed (hosts.known _ _ has.body)
  obtain ⟨inputs, outputs⟩ := simulates.standard_rounds has Standard.suits_identity present
  have moved := inputs 0 part rfl
  have each : worker.executions * Standard.takes .identity ⟨1, 1⟩ 0 = worker.executions :=
    Nat.mul_one _
  rw [List.length_singleton, List.length_singleton, each] at moved
  refine ⟨worker.executions, moved.1, moved.2, ?_⟩
  have first : (layout.inputs (player + 2))[0]? = some part := by
    rw [has.inputs]
    rfl
  rw [outputs 0 result rfl, ← Layout.onInputs_of_some carried first]
  exact Standard.gives_identity _ _

private theorem Simulates.collected_by_joiner : ∃ collected,
    graph.executions? 1 = some collected ∧
    (∀ (player : Nat) (result : ChannelId), results[player]? = some result →
      collected * weight ≤ (carried result).length ∧
      (graph.bank.channel result).items = (carried result).drop (collected * weight)) ∧
    carried drain = (List.range collected).flatMap (fun round => (List.range players).flatMap
      (fun player => ((layout.onInputs carried 1 player).drop (round * weight)).take weight)) := by
  have suits : Standard.Suits (.roundRobinJoin weight) ⟨results.length, [drain].length⟩ :=
    deals.results_length ▸ Standard.suits_roundRobinJoin positive known
  obtain ⟨worker, present⟩ := Graph.worker_of_lt framed (hosts.known 1 _ deals.joins.body)
  obtain ⟨inputs, outputs⟩ := simulates.standard_rounds deals.joins suits present
  have given := outputs 0 drain rfl
  rw [deals.results_length, List.length_singleton] at inputs given
  refine ⟨worker.executions, Graph.executions?_of_known present, ?_, ?_⟩
  · intro player result place
    have within : player < players :=
      deals.results_length ▸ (List.getElem?_eq_some_iff.mp place).1
    have moved := inputs player result place
    rw [Standard.takes_roundRobinJoin within] at moved
    exact moved
  · rw [given]
    exact Standard.gives_roundRobinJoin weight players _ _

theorem Simulates.dealing : ∃ rounds collected,
    Dealt weight players source drain parts results carried graph rounds collected := by
  have first : 0 < players := Nat.pos_of_mul_pos_left positive
  have heavy : 0 < weight := Nat.pos_of_mul_pos_right positive
  obtain ⟨rounds, enough, waiting, shared⟩ :=
    simulates.dealt_by_splitter hosts framed deals positive known
  obtain ⟨collected, collector, gathered, finished⟩ :=
    simulates.collected_by_joiner hosts framed deals positive known
  have pile (player : Nat) (within : player < players) : ∃ part result passed,
      parts[player]? = some part ∧ results[player]? = some result ∧
      collected * weight ≤ passed ∧ passed ≤ rounds * weight ∧
      (graph.bank.channel part).items =
        (dealt weight players rounds (carried source) player).drop passed ∧
      carried result = (dealt weight players rounds (carried source) player).take passed := by
    obtain ⟨part, result, partAt, resultAt, has⟩ := deals.passes player within
    obtain ⟨passed, most, left, given⟩ := simulates.passed_on hosts framed has
    have least := (gathered player result resultAt).1
    rw [given, List.length_take] at least
    rw [shared player part partAt] at left given most
    rw [length_dealt enough within] at most
    exact ⟨part, result, passed, partAt, resultAt, least.trans (Nat.min_le_left _ _), most, left,
      given⟩
  have behind : collected ≤ rounds := by
    obtain ⟨_, _, passed, _, _, least, most, _⟩ := pile 0 first
    exact Nat.le_of_mul_le_mul_right (least.trans most) heavy
  refine ⟨rounds, collected, collector, behind, enough, waiting, ?_, ?_⟩
  · rw [finished]
    apply collect_hands
    intro round below player within
    obtain ⟨_, result, passed, _, resultAt, least, _, _, given⟩ := pile player within
    have onResult : layout.onInputs carried 1 player = carried result :=
      Layout.onInputs_of_some carried (by rw [deals.joins.inputs]; exact resultAt)
    have whole := Nat.mul_le_mul_right weight (Nat.succ_le_of_lt below)
    rw [Nat.succ_mul] at whole
    rw [onResult, given, List.drop_take, List.take_take, Nat.min_eq_left (by omega)]
    exact hand_of_dealt enough within (Nat.lt_of_lt_of_le below behind)
  · rintro rfl channel member
    rcases List.mem_append.mp member with among | among
    · obtain ⟨player, place⟩ := List.mem_iff_getElem?.mp among
      have within : player < players :=
        deals.parts_length ▸ (List.getElem?_eq_some_iff.mp place).1
      obtain ⟨part, _, passed, partAt, _, least, _, left, _⟩ := pile player within
      rw [partAt] at place
      cases place
      rw [left, List.drop_eq_nil_iff, length_dealt enough within]
      exact least
    · obtain ⟨player, place⟩ := List.mem_iff_getElem?.mp among
      have within : player < players :=
        deals.results_length ▸ (List.getElem?_eq_some_iff.mp place).1
      obtain ⟨_, result, passed, _, resultAt, _, most, _, given⟩ := pile player within
      rw [resultAt] at place
      cases place
      rw [(gathered player _ resultAt).2, List.drop_eq_nil_iff, given, List.length_take]
      exact (Nat.min_le_left _ _).trans most

end

section

variable {frame : InterpreterFrame} {audited : Bool} {layout : Layout Standard}
  {weight : Nat} {split join : String} {branches : List String} {source drain : ChannelId}
  {tail : WorkerId} {parts results : List ChannelId} {carried : ChannelId → List α}
  {graph : Graph Standard α μ} {rounds collected : Nat}
  (hosts : frame.Hosts α μ audited layout source drain tail)
  (placed : (dealing weight split join branches).Placed layout 0 [source] [drain])
  (positive : 0 < weight * branches.length) (known : weight * branches.length < maxCount)
  (deals : layout.Deals weight branches.length source drain parts results)
include hosts placed positive known deals

/-- The drain has carried everything as soon as all whole rounds have been collected. -/
theorem Dealt.complete_iff
    (dealt : Dealt weight branches.length source drain parts results carried graph rounds
      collected) :
    layout.Complete μ source carried drain ↔
      collected = (carried source).length / (weight * branches.length) := by
  constructor
  · intro complete
    have final : layout.Denotes μ source (carried source) drain
        ((dealing weight split join branches).meaning μ (carried source)) :=
      (placed.denotes .source).1
    have all := complete _ final
    rw [deals.denotes positive known hosts.layout_sound hosts.foreign final, dealt.finished] at all
    have sizes := congrArg List.length all
    have most := Nat.mul_le_mul_right (weight * branches.length) dealt.behind
    have whole := Nat.div_mul_le_self (carried source).length (weight * branches.length)
    have enough := dealt.enough
    rw [List.length_take, List.length_take, Nat.min_eq_left (by omega), Nat.min_eq_left whole]
      at sizes
    exact Nat.eq_of_mul_eq_mul_right positive sizes
  · intro counted final denotes
    rw [dealt.finished, counted]
    exact (deals.denotes positive known hosts.layout_sound hosts.foreign denotes).symm

/-- One more element makes at most one more round, which is collected in one firing. -/
theorem dealing_prompt (allowed : frame.maxPasses ≠ some 0)
    (terminal : ∀ interpreter : Interpreter Standard α μ, interpreter.frame = frame →
      interpreter.Terminal) : frame.Prompt α μ layout source drain tail where
  passes := allowed
  terminal := terminal
  once := by
    intro carried later before after element beforeFramed afterFramed beforeRuns afterRuns complete
      grown advanced
    have same : tail = 1 := by
      obtain ⟨index, place⟩ := List.mem_iff_getElem?.mp hosts.leaves
      have last : (layout.outputs 1)[0]? = some drain := by
        rw [deals.joins.outputs]
        rfl
      exact (hosts.layout_sound.outputOnce tail 1 index 0 drain place last).1
    subst same
    obtain ⟨rounds, collected, dealt⟩ :=
      beforeRuns.dealing hosts beforeFramed deals positive known
    obtain ⟨laterRounds, laterCollected, laterDealt⟩ :=
      afterRuns.dealing hosts afterFramed deals positive known
    have counted := (dealt.complete_iff hosts placed positive known deals).mp complete
    obtain ⟨earlier, now, was, is, less⟩ := advanced
    rw [dealt.collector] at was
    rw [laterDealt.collector] at is
    cases was
    cases is
    apply (laterDealt.complete_iff hosts placed positive known deals).mpr
    have most : laterCollected ≤ (later source).length / (weight * branches.length) :=
      laterDealt.behind.trans ((Nat.le_div_iff_mul_le positive).mpr laterDealt.enough)
    have step : (later source).length / (weight * branches.length) ≤
        (carried source).length / (weight * branches.length) + 1 := by
      rw [grown, List.length_append, List.length_singleton, ← Nat.add_div_right _ positive]
      exact Nat.div_le_div_right (Nat.add_le_add_left positive _)
    omega

end

/-! ### The compiled stream -/

/-- The channels of the stream are its ends and those of the branches. -/
theorem Layout.Deals.covers {frame : InterpreterFrame} {audited : Bool}
    {layout : Layout Standard} {weight players : Nat} {source drain : ChannelId} {tail : WorkerId}
    {parts results : List ChannelId} {graph : Graph Standard α μ}
    (deals : layout.Deals weight players source drain parts results)
    (hosts : frame.Hosts α μ audited layout source drain tail)
    (framed : graph.frame = frame.graph) (covered : frame.graph.wiring.Covered)
    (count : frame.graph.workers.length = players + 2) {channel : ChannelId}
    (inner : channel ∉ parts ++ results) (apart : channel ≠ source ∧ channel ≠ drain) :
    (graph.bank.channel channel).items = [] := by
  by_cases within : channel < graph.bank.size
  · exfalso
    have sized : frame.graph.wiring.channels = graph.bank.size := by
      rw [← framed]
      exact graph.wiring_channels
    obtain ⟨id, port, portIn, rfl⟩ := covered channel (sized ▸ within)
    rw [List.mem_append] at portIn
    obtain ⟨worker, present⟩ := Interpreter.worker_of_port (framed ▸ portIn)
    have below : id < players + 2 := by
      rw [← count, ← framed, Graph.frame, List.length_map]
      exact (List.getElem?_eq_some_iff.mp present).1
    have ends : port.channel ∈ layout.inputs id ∨ port.channel ∈ layout.outputs id := by
      rw [hosts.describes.inputs, hosts.describes.outputs]
      exact portIn.imp List.mem_map_of_mem List.mem_map_of_mem
    rw [List.mem_append] at inner
    by_cases atSplitter : id = 0
    · rw [atSplitter, deals.splits.inputs, deals.splits.outputs, List.mem_singleton] at ends
      exact ends.elim apart.1 (fun among => inner (.inl among))
    · by_cases atJoiner : id = 1
      · rw [atJoiner, deals.joins.inputs, deals.joins.outputs, List.mem_singleton] at ends
        exact ends.elim (fun among => inner (.inr among)) apart.2
      · have beyond : 2 ≤ id :=
          Nat.lt_of_le_of_ne (Nat.pos_of_ne_zero atSplitter) (Ne.symm atJoiner)
        obtain ⟨player, rfl⟩ := Nat.exists_eq_add_of_le' beyond
        obtain ⟨part, result, partAt, resultAt, has⟩ :=
          deals.passes player (Nat.lt_of_add_lt_add_right below)
        rw [has.inputs, has.outputs, List.mem_singleton, List.mem_singleton] at ends
        rcases ends with rfl | rfl
        · exact inner (.inl (List.mem_of_getElem? partAt))
        · exact inner (.inr (List.mem_of_getElem? resultAt))
  · have absent : graph.bank.slots[channel]? = none :=
      List.getElem?_eq_none (Nat.le_of_not_lt within)
    unfold Bank.channel Bank.channel?
    rw [absent]
    rfl

section

variable {weight : Nat} {branches : List String}
  (positive : 0 < weight * branches.length) (known : weight * branches.length < maxCount)
  (split join : String)
include positive known

private theorem dealing_abiding (audited : Bool) :
    (dealing weight split join branches).Abiding α μ audited := by
  have passes : Element.AllAbiding α μ audited
      (branches.map fun name => Element.filter ⟨name, Standard.identity⟩) := by
    clear positive known
    induction branches with
    | nil => trivial
    | cons name rest inductionHypothesis =>
        exact ⟨Standard.suits_identity.abides audited, inductionHypothesis⟩
  have splits := (Standard.suits_roundRobinSplit positive known).abides (α := α) (μ := μ) audited
  have joins := (Standard.suits_roundRobinJoin positive known).abides (α := α) (μ := μ) audited
  unfold dealing Element.Abiding
  rw [List.length_map]
  exact ⟨splits, passes, joins⟩

private theorem dealing_wellFormed : (dealing weight split join branches).populated = true ∧
    (dealing weight split join branches).rated = true := by
  have inner : Element.allPopulated
        (branches.map fun name => Element.filter ⟨name, Standard.identity⟩) = true ∧
      Element.allRated
        (branches.map fun name => Element.filter ⟨name, Standard.identity⟩) = true := by
    clear positive known
    induction branches with
    | nil => exact ⟨rfl, rfl⟩
    | cons name rest inductionHypothesis => exact inductionHypothesis
  have nonempty : branches ≠ [] := List.ne_nil_of_length_pos (Nat.pos_of_mul_pos_left positive)
  have splits := (Standard.suits_roundRobinSplit positive known).fits
  have joins := (Standard.suits_roundRobinJoin positive known).fits
  constructor
  · simp [dealing, Element.populated, inner.1, nonempty]
  · unfold dealing Element.rated
    rw [List.length_map, inner.2, Bool.and_true, Bool.and_eq_true]
    exact ⟨splits, joins⟩

end

private theorem workerCount_dealing (weight : Nat) (split join : String) (branches : List String) :
    (dealing weight split join branches).workerCount = branches.length + 2 := by
  have each : Element.workerCounts
      (branches.map fun name => Element.filter ⟨name, Standard.identity⟩) = branches.length := by
    induction branches with
    | nil => rfl
    | cons name rest inductionHypothesis =>
        rw [List.map_cons, Element.workerCounts, inductionHypothesis, Element.workerCount,
          List.length_cons, Nat.add_comm]
  unfold dealing Element.workerCount
  rw [each, Nat.add_comm]

private theorem Config.maxPasses_of_valid {config : Config} (valid : config.validate = .ok ()) :
    config.maxPasses ≠ some 0 := by
  intro empty
  unfold validate fault? at valid
  rw [empty] at valid
  split at valid
  next => cases valid
  next sound =>
    split at sound
    next => cases sound
    next => cases sound

/-- Let `weight` elements go to each of some branches in turn, which pass them on, and be
collected from them in the same turn. The stream compiles, and of any elements offered one at a
time, polling gives those of all whole rounds, in their order. The rest stays on the input
boundary, in its order, and no other channel holds anything. -/
theorem Compiler.dealing_then_collecting_cancels (compiler : Compiler)
    (valid : compiler.config.validate = .ok ()) (fits : compiler.factory.fits = true)
    {weight : Nat} (heavy : 0 < weight)
    {branches : List String} (nonempty : branches ≠ [])
    (known : weight * branches.length < maxCount)
    (split join : String) (elements : List α) :
    ∃ (stream : CompiledStream Standard α μ) (source : ChannelId),
      compiler.compile (dealing weight split join branches) = .ok stream ∧
      stream.interpreter.channelId? stream.input = some source ∧
      ∃ enough, ∀ fuel, enough ≤ fuel → ∃ left last : CompiledStream Standard α μ,
        stream.Offers fuel elements left ∧
        left.PollsTo (elements.take (elements.length / (weight * branches.length) *
          (weight * branches.length))) last ∧
        (last.interpreter.graph.bank.channel source).items =
          elements.drop (elements.length / (weight * branches.length) *
            (weight * branches.length)) ∧
        ∀ channel, channel ≠ source →
          (last.interpreter.graph.bank.channel channel).items = [] := by
  have positive : 0 < weight * branches.length :=
    Nat.mul_pos heavy (List.length_pos_of_ne_nil nonempty)
  obtain ⟨populated, rated⟩ := dealing_wellFormed positive known split join
  obtain ⟨stream, made⟩ : ∃ stream : CompiledStream Standard α μ,
      compiler.compile (dealing weight split join branches) = .ok stream :=
    compile_of_wellFormed fits populated rated
  obtain ⟨passes, layout, source, drain, tail, starts⟩ :=
    compile_starts made (dealing_abiding positive known split join _)
  obtain ⟨built, count, given, opened⟩ := compile_opens made
  obtain ⟨parts, results, deals⟩ := deals_of_placed starts.placed
  have hosts := starts.hosts
  have prompt := dealing_prompt hosts starts.placed positive known deals
    (passes ▸ Config.maxPasses_of_valid valid)
    (fun interpreter same => (opened.terminal built.descends).of_frame_eq same)
  obtain ⟨enough, serves⟩ := starts.serves_at_pace (.inr prompt) elements
  refine ⟨stream, source, made, starts.input, enough, fun fuel above => ?_⟩
  obtain ⟨carried, left, offers, all, served⟩ := serves fuel above
  have framed := served.running.graph_frame
  obtain ⟨rounds, collected, dealt⟩ :=
    served.running.simulates.dealing hosts framed deals positive known
  have counted := (dealt.complete_iff hosts starts.placed positive known deals).mp served.complete
  have level : collected = rounds := by
    have most := (Nat.le_div_iff_mul_le positive).mpr dealt.enough
    have behind := dealt.behind
    omega
  have finished := dealt.finished
  have waiting := dealt.waiting
  rw [← level] at waiting
  rw [counted, all] at finished waiting
  have ready := served.running.simulates.drained.trans finished
  obtain ⟨last, polled, emptied, others⟩ := CompiledStream.pollsTo_items served.output ready
  have kept := others (hosts.unshared framed)
  have apart : source ≠ drain := by
    rintro rfl
    exact hosts.foreign tail hosts.leaves
  refine ⟨left, last, offers, polled, ?_, ?_⟩
  · rw [kept source apart]
    exact waiting
  · intro channel different
    by_cases output : channel = drain
    · rw [output]
      exact emptied
    · rw [kept channel output]
      by_cases inner : channel ∈ parts ++ results
      · exact dealt.level level channel inner
      · refine deals.covers hosts framed built.covered ?_ inner ⟨different, output⟩
        rw [← workerCount_dealing weight split join, ← count]
        exact List.length_map _

/-- Pairs to two branches, with one pass to each call. -/
theorem Compiler.dealing_then_collecting_cancels_pairs :
    ({ config := { maxPasses := some 1 } } : Compiler).config.validate = .ok () ∧
    ({ config := { maxPasses := some 1 } } : Compiler).factory.fits = true ∧
    ∃ (stream : CompiledStream Standard Nat Unit) (source : ChannelId),
      ({ config := { maxPasses := some 1 } } : Compiler).compile
        (dealing 2 "deal" "collect" ["left", "right"]) = .ok stream ∧
      stream.interpreter.channelId? stream.input = some source ∧
      ∃ enough, ∀ fuel, enough ≤ fuel → ∃ left last : CompiledStream Standard Nat Unit,
        stream.Offers fuel [1, 2, 3, 4, 5] left ∧ left.PollsTo [1, 2, 3, 4] last ∧
        (last.interpreter.graph.bank.channel source).items = [5] ∧
        ∀ channel, channel ≠ source →
          (last.interpreter.graph.bank.channel channel).items = [] :=
  ⟨rfl, rfl, dealing_then_collecting_cancels _ rfl rfl (by decide) (by decide) (by decide) "deal"
    "collect" [1, 2, 3, 4, 5]⟩

end DemandFlow
