import DemandFlow.Proofs.Stream.Placement
import DemandFlow.Proofs.Stream.Progress

/-!
What the channels of a layout carry in the end. The source carries what comes in from
outside, and every other channel what its producer makes of the channels on its inputs. A
stream in place turns the elements on its input into its meaning on its output; and since
every channel gets its elements this way, no worker feeds itself.
-/

set_option autoImplicit false

namespace DemandFlow

variable {β α : Type}

namespace Layout

def shape (layout : Layout β) (id : Nat) : PortShape :=
  { inputs := (layout.inputs id).length, outputs := (layout.outputs id).length }

/-- Each channel has at most one end of either kind, and the two belong to different
workers. -/
structure Sound (layout : Layout β) : Prop where
  inputOnce : ∀ (left right leftIndex rightIndex : Nat) (channel : ChannelId),
    (layout.inputs left)[leftIndex]? = some channel →
    (layout.inputs right)[rightIndex]? = some channel → left = right ∧ leftIndex = rightIndex
  outputOnce : ∀ (left right leftIndex rightIndex : Nat) (channel : ChannelId),
    (layout.outputs left)[leftIndex]? = some channel →
    (layout.outputs right)[rightIndex]? = some channel → left = right ∧ leftIndex = rightIndex
  apart : ∀ (producer consumer output input : Nat) (channel : ChannelId),
    (layout.outputs producer)[output]? = some channel →
    (layout.inputs consumer)[input]? = some channel → producer ≠ consumer

def Feeds (layout : Layout β) (producer consumer : Nat) : Prop :=
  ∃ channel, channel ∈ layout.outputs producer ∧ channel ∈ layout.inputs consumer

variable [Signature β]

/-- The channel carries the given elements in the end, if the source carries `elements`. -/
inductive Denotes (μ : Type) [Work β α μ] (layout : Layout β) (source : ChannelId)
    (elements : List α) : ChannelId → List α → Prop where
  | source : Denotes μ layout source elements source elements
  | produced {id output : Nat} {body : β} {channel : ChannelId} {ins : Nat → List α}
      (known : layout.body id = some body)
      (inputs : ∀ (index : Nat) (input : ChannelId), (layout.inputs id)[index]? = some input →
        Denotes μ layout source elements input (ins index))
      (port : (layout.outputs id)[output]? = some channel) :
      Denotes μ layout source elements channel (produce μ body (layout.shape id) ins output)

variable {μ : Type} [Work β α μ] {layout : Layout β} {source : ChannelId} {elements : List α}

def Supplied (μ : Type) [Work β α μ] (layout : Layout β) (source : ChannelId)
    (elements : List α) (id : Nat) : Prop :=
  ∀ channel ∈ layout.inputs id, ∃ carried, layout.Denotes μ source elements channel carried

/-- What a channel on an output carries is made by its worker. -/
theorem Denotes.of_output (sound : layout.Sound)
    (foreign : ∀ id, source ∉ layout.outputs id) {channel : ChannelId} {carried : List α}
    (denotes : layout.Denotes μ source elements channel carried) {id output : Nat}
    (port : (layout.outputs id)[output]? = some channel) :
    ∃ body ins, layout.body id = some body ∧
      (∀ (index : Nat) (input : ChannelId), (layout.inputs id)[index]? = some input →
        layout.Denotes μ source elements input (ins index)) ∧
      carried = produce μ body (layout.shape id) ins output := by
  cases denotes with
  | source => exact absurd (List.mem_of_getElem? port) (foreign id)
  | @produced other otherOutput body _ ins known inputs otherPort =>
      obtain ⟨rfl, rfl⟩ := sound.outputOnce other id otherOutput output channel otherPort port
      exact ⟨body, ins, known, inputs, rfl⟩

theorem Denotes.eq_nil {channel : ChannelId} {carried : List α}
    (denotes : layout.Denotes μ source ([] : List α) channel carried) : carried = [] := by
  induction denotes with
  | source => rfl
  | @produced id output body channel ins known inputs port inductionHypothesis =>
      apply produce_of_empty
      intro index within
      exact inductionHypothesis index _ (List.getElem?_eq_getElem within)

/-- A worker whose output denotes is fed, directly or not, by finitely many others. -/
theorem Denotes.acc (sound : layout.Sound) (foreign : ∀ id, source ∉ layout.outputs id)
    {channel : ChannelId} {carried : List α}
    (denotes : layout.Denotes μ source elements channel carried) {id : Nat}
    (member : channel ∈ layout.outputs id) : Acc layout.Feeds id := by
  induction denotes generalizing id with
  | source => exact absurd member (foreign id)
  | @produced other output body channel ins known inputs port inductionHypothesis =>
      obtain ⟨index, place⟩ := List.mem_iff_getElem?.mp member
      obtain ⟨rfl, _⟩ := sound.outputOnce other id output index channel port place
      constructor
      intro producer feeds
      obtain ⟨input, gives, takes⟩ := feeds
      obtain ⟨inputIndex, inputPlace⟩ := List.mem_iff_getElem?.mp takes
      exact inductionHypothesis inputIndex input inputPlace gives

end Layout

namespace Element

theorem PlacedAbreast.lengths {layout : Layout β} {branches : List (Element β)} {first : Nat}
    {parts results : List ChannelId}
    (placed : PlacedAbreast layout branches first parts results) :
    parts.length = branches.length ∧ results.length = branches.length := by
  induction branches generalizing first parts results with
  | nil =>
      unfold PlacedAbreast at placed
      obtain ⟨rfl, rfl⟩ := placed
      exact ⟨rfl, rfl⟩
  | cons branch rest inductionHypothesis =>
      unfold PlacedAbreast at placed
      obtain ⟨part, otherParts, result, otherResults, rfl, rfl, _, tail⟩ := placed
      obtain ⟨partsEq, resultsEq⟩ := inductionHypothesis tail
      simp only [List.length_cons, partsEq, resultsEq, and_self]

section

variable [Signature β] {μ : Type} [Work β α μ] {layout : Layout β} {source : ChannelId}
  {elements : List α}

private theorem supplied_of_has {id : Nat} {body : β} {ins outs : List ChannelId}
    (has : layout.Has id body ins outs) {carried : Nat → List α}
    (inputs : ∀ (index : Nat) (input : ChannelId), ins[index]? = some input →
      layout.Denotes μ source elements input (carried index)) :
    layout.Supplied μ source elements id := by
  intro channel member
  rw [has.inputs] at member
  obtain ⟨index, place⟩ := List.mem_iff_getElem?.mp member
  exact ⟨_, inputs index channel place⟩

private theorem denotes_of_has {id : Nat} {body : β} {ins outs : List ChannelId}
    (has : layout.Has id body ins outs) {carried : Nat → List α}
    (inputs : ∀ (index : Nat) (input : ChannelId), ins[index]? = some input →
      layout.Denotes μ source elements input (carried index))
    {output : Nat} {channel : ChannelId} (port : outs[output]? = some channel) :
    layout.Denotes μ source elements channel
      (produce μ body ⟨ins.length, outs.length⟩ carried output) := by
  have shape : layout.shape id = ⟨ins.length, outs.length⟩ := by
    unfold Layout.shape
    rw [has.inputs, has.outputs]
  rw [← shape]
  apply Layout.Denotes.produced has.body
  · intro index input place
    rw [has.inputs] at place
    exact inputs index input place
  · rw [has.outputs]
    exact port

private theorem denotes_singleton {channel : ChannelId} {carried : List α}
    (denotes : layout.Denotes μ source elements channel carried) (index : Nat)
    (input : ChannelId) (place : [channel][index]? = some input) :
    layout.Denotes μ source elements input carried := by
  rw [List.mem_singleton.mp (List.mem_of_getElem? place)]
  exact denotes

mutual

/-- A stream in place makes its meaning of what comes in, and all its workers are
supplied. -/
theorem Placed.denotes : ∀ {element : Element β} {first : Nat} {input output : ChannelId}
    {carried : List α}, element.Placed layout first [input] [output] →
    layout.Denotes μ source elements input carried →
    layout.Denotes μ source elements output (element.meaning μ carried) ∧
      ∀ id, first ≤ id → id < first + element.workerCount →
        layout.Supplied μ source elements id
  | .filter spec, first, input, output, carried, placed, denotes => by
      unfold Placed at placed
      have inputs := denotes_singleton denotes
      refine ⟨?_, ?_⟩
      · unfold meaning
        exact denotes_of_has placed inputs rfl
      · intro id atLeast below
        unfold workerCount at below
        have same : id = first := by omega
        rw [same]
        exact supplied_of_has placed inputs
  | .pipeline children, first, input, output, carried, placed, denotes => by
      unfold Placed at placed
      unfold meaning workerCount
      exact PlacedInSeries.denotes placed denotes
  | .splitjoin splitter branches joiner, first, input, output, carried, placed, denotes => by
      unfold Placed at placed
      obtain ⟨_, parts, results, splits, joins, abreast⟩ := placed
      have lengths := PlacedAbreast.lengths abreast
      have inputs := denotes_singleton denotes
      have split (index : Nat) (part : ChannelId) (place : parts[index]? = some part) :
          layout.Denotes μ source elements part
            (produce μ splitter.body ⟨1, branches.length⟩ (fun _ => carried) index) := by
        rw [← lengths.1]
        exact denotes_of_has splits inputs place
      obtain ⟨joined, supplied⟩ := PlacedAbreast.denotes abreast split
      refine ⟨?_, ?_⟩
      · have final := denotes_of_has joins joined (show [output][0]? = some output from rfl)
        rw [lengths.2] at final
        unfold meaning
        exact final
      · intro id atLeast below
        unfold workerCount at below
        by_cases atSplitter : id = first
        · rw [atSplitter]
          exact supplied_of_has splits inputs
        · by_cases atJoiner : id = first + 1
          · rw [atJoiner]
            exact supplied_of_has joins joined
          · exact supplied id (by omega) (by omega)

theorem PlacedInSeries.denotes : ∀ {children : List (Element β)} {first : Nat}
    {input output : ChannelId} {carried : List α},
    PlacedInSeries layout children first [input] [output] →
    layout.Denotes μ source elements input carried →
    layout.Denotes μ source elements output (meaningInSeries μ children carried) ∧
      ∀ id, first ≤ id → id < first + workerCounts children →
        layout.Supplied μ source elements id
  | [], first, input, output, carried, placed, denotes => by
      unfold PlacedInSeries at placed
      exact placed.elim
  | [child], first, input, output, carried, placed, denotes => by
      unfold PlacedInSeries at placed
      unfold meaningInSeries meaningInSeries workerCounts workerCounts
      exact Placed.denotes placed denotes
  | child :: next :: rest, first, input, output, carried, placed, denotes => by
      unfold PlacedInSeries at placed
      obtain ⟨link, head, tail⟩ := placed
      obtain ⟨linked, upper⟩ := Placed.denotes head denotes
      obtain ⟨final, lower⟩ := PlacedInSeries.denotes tail linked
      rw [meaningInSeries, workerCounts]
      refine ⟨final, ?_⟩
      intro id atLeast below
      by_cases early : id < first + child.workerCount
      · exact upper id atLeast early
      · exact lower id (by omega) (by omega)

theorem PlacedAbreast.denotes : ∀ {branches : List (Element β)} {first : Nat}
    {parts results : List ChannelId} {carried : Nat → List α},
    PlacedAbreast layout branches first parts results →
    (∀ (index : Nat) (part : ChannelId), parts[index]? = some part →
      layout.Denotes μ source elements part (carried index)) →
    (∀ (index : Nat) (result : ChannelId), results[index]? = some result →
      layout.Denotes μ source elements result (meaningAbreast μ branches carried index)) ∧
      ∀ id, first ≤ id → id < first + workerCounts branches →
        layout.Supplied μ source elements id
  | [], first, parts, results, carried, placed, denotes => by
      unfold PlacedAbreast at placed
      obtain ⟨rfl, rfl⟩ := placed
      refine ⟨?_, ?_⟩
      · intro index result place
        cases place
      · intro id atLeast below
        unfold workerCounts at below
        omega
  | branch :: rest, first, parts, results, carried, placed, denotes => by
      unfold PlacedAbreast at placed
      obtain ⟨part, otherParts, result, otherResults, rfl, rfl, head, tail⟩ := placed
      obtain ⟨here, upper⟩ := Placed.denotes head (denotes 0 part rfl)
      obtain ⟨others, lower⟩ := PlacedAbreast.denotes tail
        (fun index part place => denotes (index + 1) part place)
      rw [workerCounts]
      refine ⟨?_, ?_⟩
      · intro index final place
        unfold meaningAbreast
        cases index with
        | zero =>
            cases place
            exact here
        | succ index => exact others index final place
      · intro id atLeast below
        by_cases early : id < first + branch.workerCount
        · exact upper id atLeast early
        · exact lower id (by omega) (by omega)

end

def AbidingFrom (α : Type) (μ : Type) [Work β α μ] (audited : Bool) (layout : Layout β)
    (first upper : Nat) : Prop :=
  ∀ id body, first ≤ id → id < upper → layout.body id = some body →
    Abides α μ audited (layout.shape id) body

private theorem abides_of_has {audited : Bool} {id : Nat} {body other : β}
    {ins outs : List ChannelId} (has : layout.Has id body ins outs)
    (abides : Abides α μ audited ⟨ins.length, outs.length⟩ body)
    (known : layout.body id = some other) : Abides α μ audited (layout.shape id) other := by
  rw [has.body] at known
  cases known
  unfold Layout.shape
  rw [has.inputs, has.outputs]
  exact abides

mutual

theorem Placed.abiding {audited : Bool} : ∀ {element : Element β} {first : Nat}
    {input output : ChannelId}, element.Placed layout first [input] [output] →
    element.Abiding α μ audited →
    AbidingFrom α μ audited layout first (first + element.workerCount)
  | .filter spec, first, input, output, placed, abiding => by
      unfold Placed at placed
      unfold Abiding at abiding
      intro id body atLeast below known
      unfold workerCount at below
      have same : id = first := by omega
      subst same
      exact abides_of_has placed abiding known
  | .pipeline children, first, input, output, placed, abiding => by
      unfold Placed at placed
      unfold Abiding at abiding
      unfold workerCount
      exact PlacedInSeries.abiding placed abiding
  | .splitjoin splitter branches joiner, first, input, output, placed, abiding => by
      unfold Placed at placed
      unfold Abiding at abiding
      obtain ⟨_, parts, results, splits, joins, abreast⟩ := placed
      obtain ⟨splitterAbides, branchesAbide, joinerAbides⟩ := abiding
      have lengths := PlacedAbreast.lengths abreast
      have others := PlacedAbreast.abiding abreast branchesAbide
      intro id body atLeast below known
      unfold workerCount at below
      by_cases atSplitter : id = first
      · subst atSplitter
        rw [← lengths.1] at splitterAbides
        exact abides_of_has splits splitterAbides known
      · by_cases atJoiner : id = first + 1
        · subst atJoiner
          rw [← lengths.2] at joinerAbides
          exact abides_of_has joins joinerAbides known
        · exact others id body (by omega) (by omega) known

theorem PlacedInSeries.abiding {audited : Bool} : ∀ {children : List (Element β)}
    {first : Nat} {input output : ChannelId},
    PlacedInSeries layout children first [input] [output] →
    AllAbiding α μ audited children →
    AbidingFrom α μ audited layout first (first + workerCounts children)
  | [], first, input, output, placed, abiding => by
      unfold PlacedInSeries at placed
      exact placed.elim
  | [child], first, input, output, placed, abiding => by
      unfold PlacedInSeries at placed
      unfold AllAbiding at abiding
      unfold workerCounts workerCounts
      exact Placed.abiding placed abiding.1
  | child :: next :: rest, first, input, output, placed, abiding => by
      unfold PlacedInSeries at placed
      obtain ⟨link, head, tail⟩ := placed
      rw [AllAbiding] at abiding
      have upper := Placed.abiding head abiding.1
      have lower := PlacedInSeries.abiding tail abiding.2
      rw [workerCounts]
      intro id body atLeast below known
      by_cases early : id < first + child.workerCount
      · exact upper id body atLeast early known
      · exact lower id body (by omega) (by omega) known

theorem PlacedAbreast.abiding {audited : Bool} : ∀ {branches : List (Element β)}
    {first : Nat} {parts results : List ChannelId},
    PlacedAbreast layout branches first parts results →
    AllAbiding α μ audited branches →
    AbidingFrom α μ audited layout first (first + workerCounts branches)
  | [], first, parts, results, placed, abiding => by
      intro id body atLeast below known
      unfold workerCounts at below
      omega
  | branch :: rest, first, parts, results, placed, abiding => by
      unfold PlacedAbreast at placed
      unfold AllAbiding at abiding
      obtain ⟨part, otherParts, result, otherResults, rfl, rfl, head, tail⟩ := placed
      have here := Placed.abiding head abiding.1
      have others := PlacedAbreast.abiding tail abiding.2
      rw [workerCounts]
      intro id body atLeast below known
      by_cases early : id < first + branch.workerCount
      · exact here id body atLeast early known
      · exact others id body (by omega) (by omega) known

end

end

end Element

end DemandFlow
