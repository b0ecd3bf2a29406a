import DemandFlow.Proofs.Stream.Placement

/-!
Expanding a stream puts it in place. The builder numbers the workers of an element one
after another behind those it has, and what was there before changes only where the element
is connected to it.
-/

set_option autoImplicit false

namespace DemandFlow

variable {β α : Type}

def Layout.join (layout : Layout β) (producer consumer : Nat) (link : ChannelId) : Layout β :=
  { layout with
    inputs := fun id => layout.inputs id ++ if id = consumer then [link] else []
    outputs := fun id => layout.outputs id ++ if id = producer then [link] else [] }

/-- Below `upper`, one worker has got more outputs and one has got more inputs. -/
structure Layout.Grows (old new : Layout β) (upper source sink : Nat)
    (parts results : List ChannelId) : Prop where
  body : ∀ id, id < upper → new.body id = old.body id
  inputs : ∀ id, id < upper →
    new.inputs id = old.inputs id ++ if id = sink then results else []
  outputs : ∀ id, id < upper →
    new.outputs id = old.outputs id ++ if id = source then parts else []

namespace Layout

theorem Grows.trans {first second third : Layout β} {lower upper source sink : Nat}
    {parts results moreParts moreResults : List ChannelId}
    (left : first.Grows second lower source sink parts results)
    (right : second.Grows third upper source sink moreParts moreResults)
    (ordered : lower ≤ upper) :
    first.Grows third lower source sink (parts ++ moreParts) (results ++ moreResults) := by
  constructor
  · intro id below
    rw [right.body id (by omega), left.body id below]
  · intro id below
    rw [right.inputs id (by omega), left.inputs id below, List.append_assoc]
    split <;> rfl
  · intro id below
    rw [right.outputs id (by omega), left.outputs id below, List.append_assoc]
    split <;> rfl

private theorem Keeps.trans {first second third : Layout β} {lower upper : Nat}
    (left : first.Keeps second lower upper) (right : second.Keeps third lower upper) :
    first.Keeps third lower upper :=
  ⟨fun id atLeast below => (right.body id atLeast below).trans (left.body id atLeast below),
    fun id atLeast below => (right.inputs id atLeast below).trans (left.inputs id atLeast below),
    fun id atLeast below => (right.outputs id atLeast below).trans (left.outputs id atLeast below)⟩

theorem Keeps.grows {old new : Layout β} {upper : Nat} (keeps : old.Keeps new 0 upper)
    (source sink : Nat) : old.Grows new upper source sink [] [] := by
  constructor
  · intro id below
    exact keeps.body id (Nat.zero_le _) below
  · intro id below
    rw [keeps.inputs id (Nat.zero_le _) below]
    simp only [ite_self, List.append_nil]
  · intro id below
    rw [keeps.outputs id (Nat.zero_le _) below]
    simp only [ite_self, List.append_nil]

private theorem Has.grow {old new : Layout β} {upper source sink id : Nat} {body : β}
    {ins outs parts results : List ChannelId} (has : old.Has id body ins outs)
    (grows : old.Grows new upper source sink parts results) (below : id < upper) :
    new.Has id body (ins ++ if id = sink then results else [])
      (outs ++ if id = source then parts else []) := by
  refine ⟨?_, ?_, ?_⟩
  · rw [grows.body id below, has.body]
  · rw [grows.inputs id below, has.inputs]
  · rw [grows.outputs id below, has.outputs]

/-- A connection to a worker further up leaves only a new output below. -/
theorem join_grows_below (layout : Layout β) (producer sink : Nat) {consumer upper : Nat}
    (link : ChannelId) (above : upper ≤ consumer) :
    layout.Grows (layout.join producer consumer link) upper producer sink [link] [] := by
  constructor
  · intro id below
    rfl
  · intro id below
    have other : id ≠ consumer := by omega
    simp only [join, other, ↓reduceIte, List.append_nil, ite_self]
  · intro id below
    rfl

/-- A connection from a worker further up leaves only a new input below. -/
theorem join_grows_above (layout : Layout β) (source consumer : Nat) {producer upper : Nat}
    (link : ChannelId) (above : upper ≤ producer) :
    layout.Grows (layout.join producer consumer link) upper source consumer [] [link] := by
  constructor
  · intro id below
    rfl
  · intro id below
    rfl
  · intro id below
    have other : id ≠ producer := by omega
    simp only [join, other, ↓reduceIte, List.append_nil, ite_self]

end Layout

namespace Builder

def layout (builder : Builder β α) : Layout β :=
  { body := fun id => builder.drafts[id]?.map Draft.body
    inputs := fun id => (builder.wiring.inputs id).map Port.channel
    outputs := fun id => (builder.wiring.outputs id).map Port.channel }

private theorem ports_of_length_le (builder : Builder β α) {id : Nat}
    (beyond : builder.drafts.length ≤ id) :
    builder.layout.inputs id = [] ∧ builder.layout.outputs id = [] := by
  unfold layout wiring
  dsimp only
  rw [List.getElem?_eq_none beyond]
  exact ⟨rfl, rfl⟩

theorem length_addWorker (builder : Builder β α) (kind : WorkerKind) (spec : WorkerSpec β) :
    (builder.addWorker kind spec).2.drafts.length = builder.drafts.length + 1 := by
  unfold addWorker
  simp only [List.length_append, List.length_cons, List.length_nil, Nat.zero_add]

/-- A new worker stands behind all others and has no ports yet. -/
theorem addWorker_has (builder : Builder β α) (kind : WorkerKind) (spec : WorkerSpec β) :
    (builder.addWorker kind spec).2.layout.Has builder.drafts.length spec.body [] [] := by
  have empty := builder.ports_of_length_le (Nat.le_refl _)
  refine ⟨?_, ?_, ?_⟩
  · simp [layout, addWorker]
  · unfold layout
    rw [wiring_addWorker]
    exact empty.1
  · unfold layout
    rw [wiring_addWorker]
    exact empty.2

theorem addWorker_keeps (builder : Builder β α) (kind : WorkerKind) (spec : WorkerSpec β) :
    builder.layout.Keeps (builder.addWorker kind spec).2.layout 0 builder.drafts.length := by
  constructor
  · intro id _ below
    unfold layout addWorker
    dsimp only
    rw [List.getElem?_append_left below]
  · intro id _ below
    unfold layout
    rw [wiring_addWorker]
  · intro id _ below
    unfold layout
    rw [wiring_addWorker]

theorem bodies_setDraft (builder : Builder β α) (id : WorkerId) (change : Draft β → Draft β)
    (same : ∀ draft, (change draft).body = draft.body) (other : Nat) :
    (builder.setDraft id change).drafts[other]?.map Draft.body =
      builder.drafts[other]?.map Draft.body := by
  unfold setDraft
  dsimp only
  rw [List.getElem?_modify]
  cases builder.drafts[other]? with
  | none => rfl
  | some draft =>
      by_cases here : id = other
      · simp only [here, ↓reduceIte, Option.map_eq_map, Option.map_some, same]
      · simp only [here, ↓reduceIte, id_map', Option.map_some]

theorem bodies_addInput (builder : Builder β α) (id : WorkerId) (port : Port) (other : Nat) :
    (builder.addInput id port).drafts[other]?.map Draft.body =
      builder.drafts[other]?.map Draft.body :=
  bodies_setDraft builder id (fun draft => { draft with inputs := draft.inputs ++ [port] })
    (fun _ => rfl) other

theorem bodies_addOutput (builder : Builder β α) (id : WorkerId) (port : Port) (other : Nat) :
    (builder.addOutput id port).drafts[other]?.map Draft.body =
      builder.drafts[other]?.map Draft.body :=
  bodies_setDraft builder id (fun draft => { draft with outputs := draft.outputs ++ [port] })
    (fun _ => rfl) other

theorem map_extend (ports : WorkerId → List Port) (worker : WorkerId) (port : Port)
    (id : Nat) :
    (Wiring.extend ports worker port id).map Port.channel =
      (ports id).map Port.channel ++ if id = worker then [port.channel] else [] := by
  unfold Wiring.extend
  split
  next same => simp only [List.map_append, List.map_cons, List.map_nil, same]
  next => simp only [List.append_nil]

theorem connect_layout {builder after : Builder β α} {producer consumer : WorkerId}
    {link : ChannelId} (made : builder.connect producer consumer = (.ok link, after)) :
    after.drafts.length = builder.drafts.length ∧
      after.layout = builder.layout.join producer consumer link := by
  rcases connect_eq_ok made with ⟨links, rfl, rfl⟩
  constructor
  · exact (List.length_modify _ _ _).trans (List.length_modify _ _ _)
  · unfold layout Layout.join
    rw [links.wiring_linked]
    congr 1
    · funext id
      exact (bodies_addInput _ consumer _ id).trans (bodies_addOutput _ producer _ id)
    · funext id
      exact map_extend _ _ _ id
    · funext id
      exact map_extend _ _ _ id

structure Expanded (builder after : Builder β α) (element : Element β) (head tail : Nat) :
    Prop where
  head_eq : head = builder.drafts.length
  tail_eq : tail = element.last builder.drafts.length
  count : after.drafts.length = builder.drafts.length + element.workerCount
  placed : element.Placed after.layout builder.drafts.length [] []
  kept : builder.layout.Keeps after.layout 0 builder.drafts.length

/-- What expanding further children behind a worker comes to: with no children everything
stays as it is, else the worker gets a channel to the first of them. -/
inductive Chained (builder : Builder β α) (previous : Nat) :
    List (Element β) → Nat → Builder β α → Prop where
  | last : Chained builder previous [] previous builder
  | more {rest : List (Element β)} {after : Builder β α} {link : ChannelId}
      (nonempty : rest ≠ [])
      (count : after.drafts.length = builder.drafts.length + Element.workerCounts rest)
      (placed : Element.PlacedInSeries after.layout rest builder.drafts.length [link] [])
      (grows : builder.layout.Grows after.layout builder.drafts.length previous previous
        [link] []) :
      Chained builder previous rest (Element.lastInSeries rest builder.drafts.length) after

structure Branched (builder after : Builder β α) (split join : Nat)
    (branches : List (Element β)) (parts results : List ChannelId) : Prop where
  count : after.drafts.length = builder.drafts.length + Element.workerCounts branches
  placed : Element.PlacedAbreast after.layout branches builder.drafts.length parts results
  grows : builder.layout.Grows after.layout builder.drafts.length split join parts results

/-- A child and the children chained to it are in place one after another. -/
theorem Chained.inSeries {builder after : Builder β α} {child : Element β}
    {rest : List (Element β)} {first last : Nat} {ins : List ChannelId}
    (placed : child.Placed builder.layout first ins [])
    (count : builder.drafts.length = first + child.workerCount)
    (chained : Chained builder (child.last first) rest last after) :
    Element.PlacedInSeries after.layout (child :: rest) first ins [] ∧
      last = Element.lastInSeries (child :: rest) first ∧
      after.drafts.length = first + Element.workerCounts (child :: rest) ∧
      builder.layout.Keeps after.layout 0 first := by
  have framed := placed.framed
  have least := framed.least
  have bound := framed.bound
  cases chained with
  | last =>
      refine ⟨?_, ?_, ?_, ⟨fun _ _ _ => rfl, fun _ _ _ => rfl, fun _ _ _ => rfl⟩⟩
      · unfold Element.PlacedInSeries
        exact placed
      · unfold Element.lastInSeries
        rfl
      · unfold Element.workerCounts Element.workerCounts
        omega
  | @more _ _ link nonempty further tail grows =>
      obtain ⟨next, others, rfl⟩ := List.exists_cons_of_ne_nil nonempty
      have inputsKept (id : Nat) (below : id < builder.drafts.length) :
          after.layout.inputs id = builder.layout.inputs id := by
        rw [grows.inputs id below]
        simp only [ite_self, List.append_nil]
      have outputsKept (id : Nat) (below : id < builder.drafts.length)
          (different : id ≠ child.last first) :
          after.layout.outputs id = builder.layout.outputs id := by
        rw [grows.outputs id below]
        simp only [different, ↓reduceIte, List.append_nil]
      have agrees : builder.layout.Agrees after.layout first (child.last first)
          (first + child.workerCount) :=
        ⟨fun id _ below => grows.body id (by omega),
          fun id _ below => inputsKept id (by omega),
          fun id _ below different => outputsKept id (by omega) different⟩
      have moved := placed.transfer agrees
      rw [inputsKept first (by omega), framed.inputs, grows.outputs _ (by omega),
        framed.outputs, if_pos rfl, List.nil_append] at moved
      rw [count] at tail
      refine ⟨?_, ?_, ?_, ⟨?_, ?_, ?_⟩⟩
      · unfold Element.PlacedInSeries
        exact ⟨link, moved, tail⟩
      · rw [Element.lastInSeries, count]
      · rw [Element.workerCounts]
        omega
      · intro id _ below
        exact grows.body id (by omega)
      · intro id _ below
        exact inputsKept id (by omega)
      · intro id _ below
        exact outputsKept id (by omega) (by omega)

/-- A connection into the head of a part that has just been expanded. -/
theorem Expanded.connect {builder between after : Builder β α} {element : Element β}
    {head tail previous : Nat} {link : ChannelId}
    (expanded : Expanded builder between element head tail)
    (below : previous < builder.drafts.length)
    (made : between.connect previous head = (.ok link, after)) (sink : Nat) :
    after.drafts.length = between.drafts.length ∧
      element.Placed after.layout builder.drafts.length [link] [] ∧
      builder.layout.Grows after.layout builder.drafts.length previous sink [link] [] := by
  obtain ⟨lengthEq, joined⟩ := connect_layout made
  have framed := expanded.placed.framed
  have least := framed.least
  have bound := framed.bound
  have headEq := expanded.head_eq
  have agrees : between.layout.Agrees after.layout builder.drafts.length
      (element.last builder.drafts.length) (builder.drafts.length + element.workerCount) := by
    rw [joined]
    constructor
    · intro id _ _
      rfl
    · intro id above _
      have other : id ≠ head := by omega
      simp only [Layout.join, other, ↓reduceIte, List.append_nil]
    · intro id atLeast _ _
      have other : id ≠ previous := by omega
      simp only [Layout.join, other, ↓reduceIte, List.append_nil]
  have moved := expanded.placed.transfer agrees
  have inputsEq : after.layout.inputs builder.drafts.length = [link] := by
    rw [joined, Layout.join]
    dsimp only
    rw [framed.inputs, if_pos headEq.symm, List.nil_append]
  have outputsEq : after.layout.outputs (element.last builder.drafts.length) = [] := by
    have other : element.last builder.drafts.length ≠ previous := by omega
    rw [joined, Layout.join]
    dsimp only
    rw [framed.outputs, if_neg other, List.nil_append]
  rw [inputsEq, outputsEq] at moved
  refine ⟨lengthEq, moved, ?_⟩
  have grown := (expanded.kept.grows previous sink).trans
    (between.layout.join_grows_below previous sink link (Nat.le_of_eq headEq.symm))
    (Nat.le_refl _)
  rw [← joined] at grown
  exact grown

/-- A part that has just been expanded, with connections into its head and out of its tail. -/
theorem Expanded.enclose {builder between upper lower : Builder β α} {element : Element β}
    {head tail split join : Nat} {part result : ChannelId}
    (expanded : Expanded builder between element head tail)
    (splitBelow : split < builder.drafts.length) (joinBelow : join < builder.drafts.length)
    (opened : between.connect split head = (.ok part, upper))
    (closed : upper.connect tail join = (.ok result, lower)) :
    lower.drafts.length = builder.drafts.length + element.workerCount ∧
      element.Placed lower.layout builder.drafts.length [part] [result] ∧
      builder.layout.Grows lower.layout builder.drafts.length split join [part] [result] := by
  obtain ⟨upperLength, placed, grows⟩ := expanded.connect splitBelow opened join
  obtain ⟨lowerLength, joined⟩ := connect_layout closed
  have framed := placed.framed
  have least := framed.least
  have bound := framed.bound
  have tailEq := expanded.tail_eq
  have count := expanded.count
  have agrees : upper.layout.Agrees lower.layout builder.drafts.length
      (element.last builder.drafts.length) (builder.drafts.length + element.workerCount) := by
    rw [joined]
    constructor
    · intro id _ _
      rfl
    · intro id above _
      have other : id ≠ join := by omega
      simp only [Layout.join, other, ↓reduceIte, List.append_nil]
    · intro id _ _ different
      have other : id ≠ tail := by omega
      simp only [Layout.join, other, ↓reduceIte, List.append_nil]
  have moved := placed.transfer agrees
  have inputsEq : lower.layout.inputs builder.drafts.length = [part] := by
    have other : builder.drafts.length ≠ join := by omega
    rw [joined, Layout.join]
    dsimp only
    rw [framed.inputs, if_neg other, List.append_nil]
  have outputsEq : lower.layout.outputs (element.last builder.drafts.length) = [result] := by
    rw [joined, Layout.join]
    dsimp only
    rw [framed.outputs, if_pos tailEq.symm, List.nil_append]
  rw [inputsEq, outputsEq] at moved
  refine ⟨by omega, moved, ?_⟩
  have above := Nat.le_trans least (Nat.le_of_eq tailEq.symm)
  have grown := grows.trans (upper.layout.join_grows_above split join result above)
    (Nat.le_refl _)
  rw [← joined] at grown
  exact grown

private theorem Branched.expanded {builder after : Builder β α} {splitter joiner : WorkerSpec β}
    {branches : List (Element β)} {parts results : List ChannelId}
    (branched : Branched ((builder.addWorker .splitter splitter).2.addWorker .joiner joiner).2
      after builder.drafts.length (builder.addWorker .splitter splitter).2.drafts.length
      branches parts results)
    (nonempty : branches ≠ []) :
    Expanded builder after (.splitjoin splitter branches joiner) builder.drafts.length
      (builder.addWorker .splitter splitter).2.drafts.length := by
  have splits := builder.addWorker_has .splitter splitter
  have splitKept := builder.addWorker_keeps .splitter splitter
  have splitLength := builder.length_addWorker .splitter splitter
  generalize (builder.addWorker .splitter splitter).2 = split at *
  have joins := split.addWorker_has .joiner joiner
  have joinKept := split.addWorker_keeps .joiner joiner
  have joinLength := split.length_addWorker .joiner joiner
  generalize (split.addWorker .joiner joiner).2 = both at *
  have count := branched.count
  have placed := branched.placed
  have splitsLast := (splits.grow (joinKept.grows 0 0) (by omega)).grow branched.grows (by omega)
  have joinsLast := joins.grow branched.grows (by omega)
  have splitOther : builder.drafts.length ≠ split.drafts.length := by omega
  simp only [splitOther, splitOther.symm, ite_self, ↓reduceIte, List.append_nil,
    List.nil_append] at splitsLast joinsLast
  rw [splitLength] at joinsLast
  rw [joinLength, splitLength] at placed
  refine ⟨rfl, ?_, ?_, ?_, ?_⟩
  · unfold Element.last
    exact splitLength
  · unfold Element.workerCount
    omega
  · unfold Element.Placed
    exact ⟨nonempty, parts, results, splitsLast, joinsLast, placed⟩
  · constructor
    · intro id _ below
      rw [branched.grows.body id (by omega), joinKept.body id (by omega) (by omega),
        splitKept.body id (by omega) below]
    · intro id _ below
      have other : id ≠ split.drafts.length := by omega
      rw [branched.grows.inputs id (by omega), joinKept.inputs id (by omega) (by omega),
        splitKept.inputs id (by omega) below, if_neg other, List.append_nil]
    · intro id _ below
      have other : id ≠ builder.drafts.length := by omega
      rw [branched.grows.outputs id (by omega), joinKept.outputs id (by omega) (by omega),
        splitKept.outputs id (by omega) below, if_neg other, List.append_nil]

mutual

theorem addStream_expanded : ∀ (element : Element β) {builder after : Builder β α}
    {head tail : Nat}, builder.addStream element = (.ok (head, tail), after) →
    Expanded builder after element head tail
  | .filter spec, builder, after, head, tail, made => by
      unfold addStream at made
      cases made
      refine ⟨rfl, ?_, ?_, ?_, builder.addWorker_keeps .filter spec⟩
      · unfold Element.last
        rfl
      · unfold Element.workerCount
        exact builder.length_addWorker .filter spec
      · unfold Element.Placed
        exact builder.addWorker_has .filter spec
  | .pipeline children, builder, after, head, tail, made => by
      unfold addStream at made
      cases children with
      | nil =>
          unfold addPipeline at made
          cases made
      | cons child rest =>
          unfold addPipeline at made
          split at made
          next => cases made
          next first last between outcome =>
            have expanded := addStream_expanded child outcome
            have headEq := expanded.head_eq
            have tailEq := expanded.tail_eq
            subst tailEq
            have below : child.last builder.drafts.length < between.drafts.length := by
              rw [expanded.count]
              exact expanded.placed.framed.bound
            obtain ⟨headKept, chained⟩ := addPipeline_chained rest below made
            obtain ⟨placed, lastEq, count, kept⟩ :=
              chained.inSeries expanded.placed expanded.count
            refine ⟨headKept.trans headEq, ?_, ?_, ?_, ?_⟩
            · unfold Element.last
              exact lastEq
            · unfold Element.workerCount
              exact count
            · unfold Element.Placed
              exact placed
            · exact expanded.kept.trans kept
  | .splitjoin splitter branches joiner, builder, after, head, tail, made => by
      unfold addStream at made
      split at made
      next => cases made
      next nonempty =>
        dsimp only at made
        split at made
        next => cases made
        next left outcome =>
          cases made
          obtain ⟨parts, results, branched⟩ := addBranches_branched branches
            (by simp [addWorker]) (by simp [addWorker]) outcome
          exact branched.expanded (by simpa only [ne_eq, List.isEmpty_iff] using nonempty)

theorem addPipeline_chained : ∀ (rest : List (Element β)) {builder after : Builder β α}
    {first previous head tail : Nat}, previous < builder.drafts.length →
    builder.addPipeline (some (first, previous)) rest = (.ok (head, tail), after) →
    head = first ∧ Chained builder previous rest tail after
  | [], builder, after, first, previous, head, tail, below, made => by
      unfold addPipeline at made
      cases made
      exact ⟨rfl, .last⟩
  | child :: rest, builder, after, first, previous, head, tail, below, made => by
      unfold addPipeline at made
      split at made
      next => cases made
      next childHead childTail between outcome =>
        have expanded := addStream_expanded child outcome
        dsimp only at made
        split at made
        next => cases made
        next link joined linked =>
          obtain ⟨lengthEq, placed, grows⟩ := expanded.connect below linked previous
          have tailEq := expanded.tail_eq
          subst tailEq
          have count : joined.drafts.length = builder.drafts.length + child.workerCount := by
            rw [lengthEq, expanded.count]
          have within : child.last builder.drafts.length < joined.drafts.length := by
            rw [count]
            exact placed.framed.bound
          obtain ⟨headKept, chained⟩ := addPipeline_chained rest within made
          obtain ⟨series, lastEq, total, kept⟩ := chained.inSeries placed count
          refine ⟨headKept, ?_⟩
          rw [lastEq]
          exact .more (List.cons_ne_nil _ _) total series
            (grows.trans (kept.grows previous previous) (Nat.le_refl _))

theorem addBranches_branched : ∀ (branches : List (Element β)) {builder after : Builder β α}
    {split join : Nat}, split < builder.drafts.length → join < builder.drafts.length →
    builder.addBranches split join branches = (.ok (), after) →
    ∃ parts results, Branched builder after split join branches parts results
  | [], builder, after, split, join, splitBelow, joinBelow, made => by
      unfold addBranches at made
      cases made
      refine ⟨[], [], rfl, ?_, ?_⟩
      · unfold Element.PlacedAbreast
        exact ⟨rfl, rfl⟩
      · exact Layout.Keeps.grows ⟨fun _ _ _ => rfl, fun _ _ _ => rfl, fun _ _ _ => rfl⟩ split join
  | branch :: rest, builder, after, split, join, splitBelow, joinBelow, made => by
      unfold addBranches at made
      split at made
      next => cases made
      next head tail between outcome =>
        have expanded := addStream_expanded branch outcome
        split at made
        next => cases made
        next part upper linked =>
          split at made
          next => cases made
          next result lower closed =>
            obtain ⟨count, placed, grows⟩ :=
              expanded.enclose splitBelow joinBelow linked closed
            obtain ⟨parts, results, others⟩ :=
              addBranches_branched rest (by omega) (by omega) made
            have framed := placed.framed
            have least := framed.least
            have bound := framed.bound
            have keeps : lower.layout.Keeps after.layout builder.drafts.length
                (builder.drafts.length + branch.workerCount) := by
              constructor
              · intro id _ below
                exact others.grows.body id (by omega)
              · intro id atLeast below
                have other : id ≠ join := by omega
                rw [others.grows.inputs id (by omega), if_neg other, List.append_nil]
              · intro id atLeast below
                have other : id ≠ split := by omega
                rw [others.grows.outputs id (by omega), if_neg other, List.append_nil]
            have moved := placed.transfer keeps.agrees
            rw [keeps.inputs _ (by omega) (by omega), framed.inputs,
              keeps.outputs _ least (by omega), framed.outputs] at moved
            have total := others.count
            have tailPlaced := others.placed
            rw [count] at tailPlaced
            refine ⟨part :: parts, result :: results, ?_, ?_, ?_⟩
            · rw [Element.workerCounts]
              omega
            · unfold Element.PlacedAbreast
              exact ⟨part, parts, result, results, rfl, rfl, moved, tailPlaced⟩
            · exact grows.trans others.grows (by omega)

end

end Builder

end DemandFlow
