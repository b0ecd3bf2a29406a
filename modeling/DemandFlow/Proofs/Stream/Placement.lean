import DemandFlow.Proofs.Graph.Assembly
import DemandFlow.Proofs.Stream.Meaning

/-!
Where the parts of a structured stream are in the graph it becomes. The workers of an
element are numbered one after another, the first worker is where elements enter and the
last one where they leave, and inside, each part is wired to the next by channels of its
own. Expanding an element puts it in place in this sense.
-/

set_option autoImplicit false

namespace DemandFlow

variable {β α μ : Type}

/-- Which body every worker has, and which channels are on its ports. -/
structure Layout (β : Type) where
  body : Nat → Option β
  inputs : Nat → List ChannelId
  outputs : Nat → List ChannelId

structure Layout.Has (layout : Layout β) (id : Nat) (body : β) (ins outs : List ChannelId) :
    Prop where
  body : layout.body id = some body
  inputs : layout.inputs id = ins
  outputs : layout.outputs id = outs

namespace Element

mutual

/-- The worker at which elements leave, if the first worker has the given number. -/
def last : Element β → Nat → Nat
  | .filter _, first => first
  | .pipeline children, first => lastInSeries children first
  | .splitjoin _ _ _, first => first + 1

def lastInSeries : List (Element β) → Nat → Nat
  | [], first => first
  | [child], first => child.last first
  | child :: next :: rest, first => lastInSeries (next :: rest) (first + child.workerCount)

end

mutual

def Placed (layout : Layout β) :
    Element β → Nat → List ChannelId → List ChannelId → Prop
  | .filter spec, first, ins, outs => layout.Has first spec.body ins outs
  | .pipeline children, first, ins, outs => PlacedInSeries layout children first ins outs
  | .splitjoin splitter branches joiner, first, ins, outs =>
      branches ≠ [] ∧ ∃ parts results, layout.Has first splitter.body ins parts ∧
        layout.Has (first + 1) joiner.body results outs ∧
        PlacedAbreast layout branches (first + 2) parts results

/-- One child after another, each linked to the next by one channel. -/
def PlacedInSeries (layout : Layout β) :
    List (Element β) → Nat → List ChannelId → List ChannelId → Prop
  | [], _, _, _ => False
  | [child], first, ins, outs => child.Placed layout first ins outs
  | child :: next :: rest, first, ins, outs =>
      ∃ link, child.Placed layout first ins [link] ∧
        PlacedInSeries layout (next :: rest) (first + child.workerCount) [link] outs

/-- Each branch between a channel of its own on either side. -/
def PlacedAbreast (layout : Layout β) :
    List (Element β) → Nat → List ChannelId → List ChannelId → Prop
  | [], _, parts, results => parts = [] ∧ results = []
  | branch :: rest, first, parts, results =>
      ∃ part otherParts result otherResults, parts = part :: otherParts ∧
        results = result :: otherResults ∧ branch.Placed layout first [part] [result] ∧
        PlacedAbreast layout rest (first + branch.workerCount) otherParts otherResults

end

end Element

/-- The workers from `first` up to `upper`: the first takes in, the last gives out, and
between them nobody lacks inputs or outputs. -/
structure Layout.Framed (layout : Layout β) (first last upper : Nat)
    (ins outs : List ChannelId) : Prop where
  inputs : layout.inputs first = ins
  outputs : layout.outputs last = outs
  least : first ≤ last
  bound : last < upper
  known : ∀ id, first ≤ id → id < upper → (layout.body id).isSome = true
  fed : ∀ id, first < id → id < upper → layout.inputs id ≠ []
  feeding : ∀ id, first ≤ id → id < upper → id ≠ last → layout.outputs id ≠ []

structure Layout.Closed (layout : Layout β) (first upper : Nat) : Prop where
  ordered : first ≤ upper
  known : ∀ id, first ≤ id → id < upper → (layout.body id).isSome = true
  fed : ∀ id, first ≤ id → id < upper → layout.inputs id ≠ []
  feeding : ∀ id, first ≤ id → id < upper → layout.outputs id ≠ []

private theorem Layout.Framed.closed {layout : Layout β} {first last upper : Nat}
    {part result : ChannelId} (framed : layout.Framed first last upper [part] [result]) :
    layout.Closed first upper := by
  refine ⟨Nat.le_of_lt (Nat.lt_of_le_of_lt framed.least framed.bound), framed.known, ?_, ?_⟩
  · intro id atLeast below
    by_cases same : id = first
    · rw [same, framed.inputs]
      exact List.cons_ne_nil _ _
    · exact framed.fed id (by omega) below
  · intro id atLeast below
    by_cases same : id = last
    · rw [same, framed.outputs]
      exact List.cons_ne_nil _ _
    · exact framed.feeding id atLeast below same

namespace Element

mutual

theorem Placed.framed {layout : Layout β} : ∀ {element : Element β} {first : Nat}
    {ins outs : List ChannelId}, element.Placed layout first ins outs →
    layout.Framed first (element.last first) (first + element.workerCount) ins outs
  | .filter spec, first, ins, outs, placed => by
      unfold Placed at placed
      unfold last workerCount
      refine ⟨placed.inputs, placed.outputs, Nat.le_refl _, Nat.lt_succ_self _, ?_, ?_, ?_⟩
      · intro id atLeast below
        have same : id = first := by omega
        rw [same, placed.body]
        rfl
      · intro id above below
        omega
      · intro id atLeast below different
        omega
  | .pipeline children, first, ins, outs, placed => by
      unfold Placed at placed
      unfold last workerCount
      exact PlacedInSeries.framed placed
  | .splitjoin splitter branches joiner, first, ins, outs, placed => by
      unfold Placed at placed
      obtain ⟨branching, parts, results, splits, joins, abreast⟩ := placed
      have closed := PlacedAbreast.closed abreast
      have nonempty := PlacedAbreast.ne_nil abreast branching
      unfold last workerCount
      have ordered := closed.ordered
      refine ⟨splits.inputs, joins.outputs, by omega, by omega, ?_, ?_, ?_⟩
      · intro id atLeast below
        by_cases atSplitter : id = first
        · rw [atSplitter, splits.body]
          rfl
        · by_cases atJoiner : id = first + 1
          · rw [atJoiner, joins.body]
            rfl
          · exact closed.known id (by omega) (by omega)
      · intro id above below
        by_cases atJoiner : id = first + 1
        · rw [atJoiner, joins.inputs]
          exact nonempty.2
        · exact closed.fed id (by omega) (by omega)
      · intro id atLeast below different
        by_cases atSplitter : id = first
        · rw [atSplitter, splits.outputs]
          exact nonempty.1
        · exact closed.feeding id (by omega) (by omega)

theorem PlacedInSeries.framed {layout : Layout β} : ∀ {children : List (Element β)}
    {first : Nat} {ins outs : List ChannelId}, PlacedInSeries layout children first ins outs →
    layout.Framed first (lastInSeries children first) (first + workerCounts children) ins outs
  | [], first, ins, outs, placed => by
      unfold PlacedInSeries at placed
      exact placed.elim
  | [child], first, ins, outs, placed => by
      unfold PlacedInSeries at placed
      unfold lastInSeries workerCounts workerCounts
      exact Placed.framed placed
  | child :: next :: rest, first, ins, outs, placed => by
      unfold PlacedInSeries at placed
      obtain ⟨link, head, tail⟩ := placed
      have upperPart := Placed.framed head
      have lowerPart := PlacedInSeries.framed tail
      have bound := upperPart.bound
      have least := upperPart.least
      have start := lowerPart.least
      have finish := lowerPart.bound
      unfold lastInSeries
      rw [workerCounts]
      refine ⟨upperPart.inputs, lowerPart.outputs, by omega, by omega, ?_, ?_, ?_⟩
      · intro id atLeast below
        by_cases early : id < first + child.workerCount
        · exact upperPart.known id atLeast early
        · exact lowerPart.known id (by omega) (by omega)
      · intro id above below
        by_cases early : id < first + child.workerCount
        · exact upperPart.fed id above early
        · by_cases second : id = first + child.workerCount
          · rw [second, lowerPart.inputs]
            exact List.cons_ne_nil _ _
          · exact lowerPart.fed id (by omega) (by omega)
      · intro id atLeast below different
        by_cases early : id < first + child.workerCount
        · by_cases final : id = child.last first
          · rw [final, upperPart.outputs]
            exact List.cons_ne_nil _ _
          · exact upperPart.feeding id atLeast early final
        · exact lowerPart.feeding id (by omega) (by omega) different

theorem PlacedAbreast.closed {layout : Layout β} : ∀ {branches : List (Element β)}
    {first : Nat} {parts results : List ChannelId},
    PlacedAbreast layout branches first parts results →
    layout.Closed first (first + workerCounts branches)
  | [], first, parts, results, placed => by
      unfold workerCounts
      refine ⟨by omega, ?_, ?_, ?_⟩
      · intro id atLeast below
        omega
      · intro id atLeast below
        omega
      · intro id atLeast below
        omega
  | branch :: rest, first, parts, results, placed => by
      unfold PlacedAbreast at placed
      obtain ⟨part, otherParts, result, otherResults, _, _, head, tail⟩ := placed
      have here := (Placed.framed head).closed
      have others := PlacedAbreast.closed tail
      have bound := here.ordered
      have finish := others.ordered
      rw [workerCounts]
      refine ⟨by omega, ?_, ?_, ?_⟩
      · intro id atLeast below
        by_cases early : id < first + branch.workerCount
        · exact here.known id atLeast early
        · exact others.known id (by omega) (by omega)
      · intro id atLeast below
        by_cases early : id < first + branch.workerCount
        · exact here.fed id atLeast early
        · exact others.fed id (by omega) (by omega)
      · intro id atLeast below
        by_cases early : id < first + branch.workerCount
        · exact here.feeding id atLeast early
        · exact others.feeding id (by omega) (by omega)

theorem PlacedAbreast.ne_nil {layout : Layout β} : ∀ {branches : List (Element β)}
    {first : Nat} {parts results : List ChannelId},
    PlacedAbreast layout branches first parts results → branches ≠ [] →
    parts ≠ [] ∧ results ≠ []
  | [], first, parts, results, placed, nonempty => absurd rfl nonempty
  | branch :: rest, first, parts, results, placed, nonempty => by
      unfold PlacedAbreast at placed
      obtain ⟨part, otherParts, result, otherResults, rfl, rfl, _⟩ := placed
      exact ⟨List.cons_ne_nil _ _, List.cons_ne_nil _ _⟩

end

end Element

structure Layout.Agrees (old new : Layout β) (first last upper : Nat) : Prop where
  body : ∀ id, first ≤ id → id < upper → new.body id = old.body id
  inputs : ∀ id, first < id → id < upper → new.inputs id = old.inputs id
  outputs : ∀ id, first ≤ id → id < upper → id ≠ last → new.outputs id = old.outputs id

structure Layout.Keeps (old new : Layout β) (first upper : Nat) : Prop where
  body : ∀ id, first ≤ id → id < upper → new.body id = old.body id
  inputs : ∀ id, first ≤ id → id < upper → new.inputs id = old.inputs id
  outputs : ∀ id, first ≤ id → id < upper → new.outputs id = old.outputs id

private theorem Layout.Keeps.narrow {old new : Layout β} {first upper lower higher : Nat}
    (keeps : old.Keeps new first upper) (above : first ≤ lower) (below : higher ≤ upper) :
    old.Keeps new lower higher :=
  ⟨fun id atLeast within => keeps.body id (by omega) (by omega),
    fun id atLeast within => keeps.inputs id (by omega) (by omega),
    fun id atLeast within => keeps.outputs id (by omega) (by omega)⟩

theorem Layout.Keeps.agrees {old new : Layout β} {first last upper : Nat}
    (keeps : old.Keeps new first upper) : old.Agrees new first last upper :=
  ⟨keeps.body, fun id above below => keeps.inputs id (by omega) below,
    fun id atLeast below _ => keeps.outputs id atLeast below⟩

namespace Element

mutual

theorem Placed.transfer {old new : Layout β} : ∀ {element : Element β} {first : Nat}
    {ins outs : List ChannelId}, element.Placed old first ins outs →
    old.Agrees new first (element.last first) (first + element.workerCount) →
    element.Placed new first (new.inputs first) (new.outputs (element.last first))
  | .filter spec, first, ins, outs, placed, agrees => by
      unfold Placed at placed ⊢
      unfold last
      refine ⟨?_, rfl, rfl⟩
      rw [agrees.body first (Nat.le_refl _) (by unfold workerCount; omega)]
      exact placed.body
  | .pipeline children, first, ins, outs, placed, agrees => by
      unfold Placed at placed ⊢
      unfold last workerCount at agrees
      unfold last
      exact PlacedInSeries.transfer placed agrees
  | .splitjoin splitter branches joiner, first, ins, outs, placed, agrees => by
      unfold Placed at placed ⊢
      unfold last workerCount at agrees
      unfold last
      obtain ⟨nonempty, parts, results, splits, joins, abreast⟩ := placed
      refine ⟨nonempty, parts, results, ⟨?_, rfl, ?_⟩, ⟨?_, ?_, rfl⟩, ?_⟩
      · rw [agrees.body first (by omega) (by omega)]
        exact splits.body
      · rw [agrees.outputs first (by omega) (by omega) (by omega)]
        exact splits.outputs
      · rw [agrees.body (first + 1) (by omega) (by omega)]
        exact joins.body
      · rw [agrees.inputs (first + 1) (by omega) (by omega)]
        exact joins.inputs
      · apply PlacedAbreast.transfer abreast
        constructor
        · intro id atLeast below
          exact agrees.body id (by omega) (by omega)
        · intro id atLeast below
          exact agrees.inputs id (by omega) (by omega)
        · intro id atLeast below
          exact agrees.outputs id (by omega) (by omega) (by omega)

theorem PlacedInSeries.transfer {old new : Layout β} : ∀ {children : List (Element β)}
    {first : Nat} {ins outs : List ChannelId}, PlacedInSeries old children first ins outs →
    old.Agrees new first (lastInSeries children first) (first + workerCounts children) →
    PlacedInSeries new children first (new.inputs first)
      (new.outputs (lastInSeries children first))
  | [], first, ins, outs, placed, agrees => by
      unfold PlacedInSeries at placed
      exact placed.elim
  | [child], first, ins, outs, placed, agrees => by
      unfold PlacedInSeries at placed ⊢
      unfold lastInSeries workerCounts workerCounts at agrees
      unfold lastInSeries
      exact Placed.transfer placed agrees
  | child :: next :: rest, first, ins, outs, placed, agrees => by
      unfold PlacedInSeries at placed ⊢
      obtain ⟨link, head, tail⟩ := placed
      unfold lastInSeries at agrees ⊢
      rw [workerCounts] at agrees
      have upperPart := head.framed
      have lowerPart := PlacedInSeries.framed tail
      have bound := upperPart.bound
      have least := upperPart.least
      have start := lowerPart.least
      have finish := lowerPart.bound
      have movedHead := Placed.transfer head
        (⟨fun id atLeast below => agrees.body id atLeast (by omega),
          fun id above below => agrees.inputs id above (by omega),
          fun id atLeast below _ => agrees.outputs id atLeast (by omega) (by omega)⟩ :
          old.Agrees new first (child.last first) (first + child.workerCount))
      have movedTail := PlacedInSeries.transfer tail
        (⟨fun id atLeast below => agrees.body id (by omega) (by omega),
          fun id above below => agrees.inputs id (by omega) (by omega),
          fun id atLeast below different =>
            agrees.outputs id (by omega) (by omega) different⟩ :
          old.Agrees new (first + child.workerCount) _ _)
      rw [agrees.outputs (child.last first) least (by omega) (by omega),
        upperPart.outputs] at movedHead
      rw [agrees.inputs (first + child.workerCount) (by omega) (by omega),
        lowerPart.inputs] at movedTail
      exact ⟨link, movedHead, movedTail⟩

theorem PlacedAbreast.transfer {old new : Layout β} : ∀ {branches : List (Element β)}
    {first : Nat} {parts results : List ChannelId},
    PlacedAbreast old branches first parts results →
    old.Keeps new first (first + workerCounts branches) →
    PlacedAbreast new branches first parts results
  | [], first, parts, results, placed, keeps => by
      unfold PlacedAbreast at placed ⊢
      exact placed
  | branch :: rest, first, parts, results, placed, keeps => by
      unfold PlacedAbreast at placed ⊢
      obtain ⟨part, otherParts, result, otherResults, partsEq, resultsEq, head, tail⟩ := placed
      rw [workerCounts] at keeps
      have framed := head.framed
      have bound := framed.bound
      have least := framed.least
      have moved := Placed.transfer head (keeps.narrow (by omega) (by omega)).agrees
      rw [keeps.inputs first (by omega) (by omega), framed.inputs,
        keeps.outputs (branch.last first) least (by omega), framed.outputs] at moved
      exact ⟨part, otherParts, result, otherResults, partsEq, resultsEq, moved,
        PlacedAbreast.transfer tail (keeps.narrow (by omega) (by omega))⟩

end

end Element

end DemandFlow
