import DemandFlow.Proofs.Graph.Coherence
import DemandFlow.Proofs.Stream.Compilation

/-!
Which streams can be built. A stream is expanded exactly if none of its pipelines and lists of
branches is empty: the ends of a part that has just been expanded are still open, and a
splitter and a joiner always have room for one more branch. The ports of an expanded stream
can always be completed, so that nothing but rates of the wrong shape can stop the build.
-/

set_option autoImplicit false

namespace DemandFlow

variable {β α μ : Type}

namespace Element

mutual

/-- No pipeline and no list of branches anywhere inside is empty. -/
def populated : Element β → Bool
  | .filter _ => true
  | .pipeline children => !children.isEmpty && allPopulated children
  | .splitjoin _ branches _ => !branches.isEmpty && allPopulated branches

def allPopulated : List (Element β) → Bool
  | [] => true
  | element :: rest => element.populated && allPopulated rest

end

def fitsAt [Signature β] (body : β) (inputs outputs : Nat) : Bool :=
  (Signature.rates body { inputs := inputs, outputs := outputs }).fits
    { inputs := inputs, outputs := outputs }

mutual

def rated [Signature β] : Element β → Bool
  | .filter spec => fitsAt spec.body 1 1
  | .pipeline children => allRated children
  | .splitjoin splitter branches joiner =>
      fitsAt splitter.body 1 branches.length && fitsAt joiner.body branches.length 1 &&
        allRated branches

def allRated [Signature β] : List (Element β) → Bool
  | [] => true
  | element :: rest => element.rated && allRated rest

end

mutual

theorem Placed.populated {layout : Layout β} : ∀ {element : Element β} {first : Nat}
    {ins outs : List ChannelId}, element.Placed layout first ins outs →
    element.populated = true
  | .filter spec, first, ins, outs, placed => rfl
  | .pipeline children, first, ins, outs, placed => by
      unfold Placed at placed
      unfold Element.populated
      have inner := PlacedInSeries.populated placed
      simp [inner]
  | .splitjoin splitter branches joiner, first, ins, outs, placed => by
      unfold Placed at placed
      unfold Element.populated
      rcases placed with ⟨nonempty, parts, results, _, _, abreast⟩
      have inner := PlacedAbreast.populated abreast
      simp [nonempty, inner]

theorem PlacedInSeries.populated {layout : Layout β} : ∀ {children : List (Element β)}
    {first : Nat} {ins outs : List ChannelId}, PlacedInSeries layout children first ins outs →
    children ≠ [] ∧ allPopulated children = true
  | [], first, ins, outs, placed => by
      unfold PlacedInSeries at placed
      exact placed.elim
  | [child], first, ins, outs, placed => by
      unfold PlacedInSeries at placed
      have here := Placed.populated placed
      simp [allPopulated, here]
  | child :: next :: rest, first, ins, outs, placed => by
      unfold PlacedInSeries at placed
      rcases placed with ⟨link, head, tail⟩
      have here := Placed.populated head
      have others := PlacedInSeries.populated tail
      rw [allPopulated, here, others.2]
      simp only [ne_eq, reduceCtorEq, not_false_eq_true, Bool.and_self, and_self]

theorem PlacedAbreast.populated {layout : Layout β} : ∀ {branches : List (Element β)}
    {first : Nat} {parts results : List ChannelId},
    PlacedAbreast layout branches first parts results → allPopulated branches = true
  | [], first, parts, results, placed => rfl
  | branch :: rest, first, parts, results, placed => by
      unfold PlacedAbreast at placed
      rcases placed with ⟨part, otherParts, result, otherResults, _, _, head, tail⟩
      have here := Placed.populated head
      have others := PlacedAbreast.populated tail
      rw [allPopulated, here, others]
      rfl

end

end Element

namespace Builder

theorem kind_of_lt {builder : Builder β α} {id : Nat} (known : id < builder.drafts.length) :
    ∃ kind, builder.kinds[id]? = some kind := by
  simp [kinds, known]

theorem draft_of_kind {builder : Builder β α} {id : Nat} {kind : WorkerKind}
    (known : builder.kinds[id]? = some kind) :
    ∃ draft, builder.draft id = .ok draft ∧ draft.kind = kind := by
  unfold kinds at known
  rw [List.getElem?_map] at known
  rcases Option.map_eq_some_iff.mp known with ⟨draft, found, same⟩
  exact ⟨draft, by simp only [Builder.draft, found], same⟩

theorem checkInput_of_room {builder : Builder β α} {id : Nat} {kind : WorkerKind}
    (known : builder.kinds[id]? = some kind)
    (room : kind.acceptsInput (builder.layout.inputs id).length = true) :
    builder.checkInput id = .ok () := by
  rcases draft_of_kind known with ⟨draft, found, same⟩
  rw [(ports_of_draft found).1, List.length_map, ← same] at room
  simp only [checkInput, found, room, ↓reduceIte]

theorem checkOutput_of_room {builder : Builder β α} {id : Nat} {kind : WorkerKind}
    (known : builder.kinds[id]? = some kind)
    (room : kind.acceptsOutput (builder.layout.outputs id).length = true) :
    builder.checkOutput id = .ok () := by
  rcases draft_of_kind known with ⟨draft, found, same⟩
  rw [(ports_of_draft found).2, List.length_map, ← same] at room
  simp only [checkOutput, found, room, ↓reduceIte]

theorem checkInput_of_empty {builder : Builder β α} {id : Nat}
    (known : id < builder.drafts.length) (empty : builder.layout.inputs id = []) :
    builder.checkInput id = .ok () := by
  rcases kind_of_lt known with ⟨kind, found⟩
  apply checkInput_of_room found
  rw [empty]
  cases kind <;> rfl

theorem checkOutput_of_empty {builder : Builder β α} {id : Nat}
    (known : id < builder.drafts.length) (empty : builder.layout.outputs id = []) :
    builder.checkOutput id = .ok () := by
  rcases kind_of_lt known with ⟨kind, found⟩
  apply checkOutput_of_room found
  rw [empty]
  cases kind <;> rfl

theorem connect_of_room {builder : Builder β α} {producer consumer : Nat}
    (fits : builder.factory.fits = true) (different : producer ≠ consumer)
    (output : builder.checkOutput producer = .ok ())
    (input : builder.checkInput consumer = .ok ()) :
    ∃ link after, builder.connect producer consumer = (.ok link, after) :=
  ⟨_, _, Connectable.connect_eq ⟨different, output, input, fits⟩⟩

def KeepsKinds (builder after : Builder β α) : Prop :=
  ∀ (id : Nat) (kind : WorkerKind), builder.kinds[id]? = some kind → after.kinds[id]? = some kind

theorem KeepsKinds.trans {first second third : Builder β α} (left : first.KeepsKinds second)
    (right : second.KeepsKinds third) : first.KeepsKinds third :=
  fun id kind known => right id kind (left id kind known)

theorem addWorker_keepsKinds (builder : Builder β α) (kind : WorkerKind) (spec : WorkerSpec β) :
    builder.KeepsKinds (builder.addWorker kind spec).2 := by
  intro id other known
  have bound := (List.getElem?_eq_some_iff.mp known).1
  have appended : (builder.addWorker kind spec).2.kinds = builder.kinds ++ [kind] := by
    simp only [kinds, addWorker, List.map_append, List.map_cons, List.map_nil]
  rw [appended, List.getElem?_append_left bound]
  exact known

theorem connect_keepsKinds (builder : Builder β α) (producer consumer : WorkerId) :
    builder.KeepsKinds (builder.connect producer consumer).2 := by
  rcases builder.connect_view producer consumer with ⟨error, refused⟩ | ⟨id, after, made, _⟩
  · rw [refused]
    exact fun _ _ known => known
  · rw [made]
    intro id kind known
    rw [(connect_gains made).1.kinds]
    exact known

private theorem keptByGrowth_keepsKinds (builder : Builder β α) :
    KeptByGrowth builder.KeepsKinds where
  worker := fun after kind spec keeps => keeps.trans (after.addWorker_keepsKinds kind spec)
  connection := fun after producer consumer keeps =>
    keeps.trans (after.connect_keepsKinds producer consumer)

theorem addStream_keepsKinds {builder after : Builder β α} {element : Element β}
    {ends : WorkerId × WorkerId} (made : builder.addStream element = (.ok ends, after)) :
    builder.KeepsKinds after := by
  have keeps := builder.keptByGrowth_keepsKinds.addStream element builder (fun _ _ known => known)
  rw [made] at keeps
  exact keeps

private theorem kinds_addWorker (builder : Builder β α) (kind : WorkerKind) (spec : WorkerSpec β) :
    (builder.addWorker kind spec).2.kinds[builder.drafts.length]? = some kind := by
  simp [kinds, addWorker]

private theorem keptByGrowth_factory (factory : ChannelFactory) :
    KeptByGrowth (fun builder : Builder β α => builder.factory = factory) where
  worker := fun _ _ _ same => same
  connection := by
    intro builder producer consumer same
    rcases builder.connect_cases producer consumer with ⟨error, refused⟩ | connectable
    · rw [refused]
      exact same
    · rw [connectable.connect_eq]
      exact same

theorem addStream_factory {builder after : Builder β α} {element : Element β}
    {ends : WorkerId × WorkerId} (made : builder.addStream element = (.ok ends, after)) :
    after.factory = builder.factory := by
  have kept := (keptByGrowth_factory builder.factory).addStream element builder rfl
  rw [made] at kept
  exact kept

theorem connect_factory {builder after : Builder β α} {producer consumer : WorkerId}
    {channel : ChannelId} (made : builder.connect producer consumer = (.ok channel, after)) :
    after.factory = builder.factory := by
  rw [(connect_eq_ok made).2.2]
  rfl

/-- Elements can enter at the one worker and leave at the other: no joiner without inputs, no
splitter without outputs. -/
structure Tipped (builder : Builder β α) (head tail : Nat) : Prop where
  head : ∃ kind, builder.kinds[head]? = some kind ∧ kind ≠ .joiner
  tail : ∃ kind, builder.kinds[tail]? = some kind ∧ kind ≠ .splitter

private theorem Tipped.keep {builder after : Builder β α} {head tail : Nat}
    (tipped : builder.Tipped head tail) (keeps : builder.KeepsKinds after) :
    after.Tipped head tail := by
  rcases tipped with ⟨⟨first, firstAt, firstKind⟩, ⟨last, lastAt, lastKind⟩⟩
  exact ⟨⟨first, keeps _ _ firstAt, firstKind⟩, ⟨last, keeps _ _ lastAt, lastKind⟩⟩

/-- The head of a part that has just been expanded is open. -/
theorem Expanded.head_open {builder between : Builder β α} {element : Element β}
    {head tail : Nat} (expanded : Expanded builder between element head tail) :
    between.checkInput head = .ok () := by
  have framed := expanded.placed.framed
  have least := framed.least
  have bound := framed.bound
  rw [expanded.head_eq]
  exact checkInput_of_empty (by rw [expanded.count]; omega) framed.inputs

theorem Expanded.tail_lt {builder between : Builder β α} {element : Element β}
    {head tail : Nat} (expanded : Expanded builder between element head tail) :
    tail < between.drafts.length := by
  rw [expanded.tail_eq, expanded.count]
  exact expanded.placed.framed.bound

mutual

theorem addStream_succeeds : ∀ (element : Element β) (builder : Builder β α),
    builder.factory.fits = true → element.populated = true → ∃ head tail after,
      builder.addStream element = (.ok (head, tail), after) ∧ after.Tipped head tail
  | .filter spec, builder, fits, populated => by
      have kind := builder.kinds_addWorker .filter spec
      exact ⟨_, _, _, rfl, ⟨.filter, kind, by decide⟩, ⟨.filter, kind, by decide⟩⟩
  | .pipeline children, builder, fits, populated => by
      unfold addStream
      cases children with
      | nil => cases populated
      | cons child rest =>
          rw [Element.populated, Element.allPopulated] at populated
          simp only [List.isEmpty_cons, Bool.not_false, Bool.true_and, Bool.and_eq_true]
            at populated
          rcases addStream_succeeds child builder fits populated.1 with
            ⟨head, tail, between, made, tipped⟩
          have expanded := addStream_expanded child made
          have vacant := expanded.placed.framed.outputs
          rw [← expanded.tail_eq] at vacant
          unfold addPipeline
          rw [made]
          exact addPipeline_succeeds rest between head tail (by rw [addStream_factory made, fits])
            expanded.tail_lt vacant tipped populated.2
  | .splitjoin splitter branches joiner, builder, fits, populated => by
      unfold addStream
      rw [Element.populated] at populated
      simp only [Bool.and_eq_true, Bool.not_eq_true'] at populated
      rw [if_neg (by simp only [populated.1, Bool.false_eq_true, not_false_eq_true])]
      dsimp only
      have splits := (builder.addWorker .splitter splitter).2.addWorker_keepsKinds .joiner joiner
        _ _ (builder.kinds_addWorker .splitter splitter)
      have joins := (builder.addWorker .splitter splitter).2.kinds_addWorker .joiner joiner
      rcases addBranches_succeeds branches
          ((builder.addWorker .splitter splitter).2.addWorker .joiner joiner).2
          (builder.addWorker .splitter splitter).1
          ((builder.addWorker .splitter splitter).2.addWorker .joiner joiner).1
          fits splits joins (by simp [addWorker]) populated.2 with ⟨after, made, keeps⟩
      rw [made]
      exact ⟨_, _, _, rfl, ⟨.splitter, keeps _ _ splits, by decide⟩,
        ⟨.joiner, keeps _ _ joins, by decide⟩⟩

theorem addPipeline_succeeds : ∀ (rest : List (Element β)) (builder : Builder β α)
    (first previous : Nat), builder.factory.fits = true → previous < builder.drafts.length →
    builder.layout.outputs previous = [] → builder.Tipped first previous →
    Element.allPopulated rest = true → ∃ head tail after,
      builder.addPipeline (some (first, previous)) rest = (.ok (head, tail), after) ∧
        after.Tipped head tail
  | [], builder, first, previous, fits, below, vacant, tipped, populated =>
      ⟨first, previous, builder, rfl, tipped⟩
  | child :: rest, builder, first, previous, fits, below, vacant, tipped, populated => by
      rw [Element.allPopulated, Bool.and_eq_true] at populated
      rcases addStream_succeeds child builder fits populated.1 with
        ⟨head, tail, between, made, childTipped⟩
      rw [← addStream_factory made] at fits
      have expanded := addStream_expanded child made
      have count := expanded.count
      have headEq := expanded.head_eq
      have outputOpen : between.checkOutput previous = .ok () := by
        apply checkOutput_of_empty (by omega)
        rw [expanded.kept.outputs previous (Nat.zero_le _) below]
        exact vacant
      rcases connect_of_room fits (by omega) outputOpen expanded.head_open with
        ⟨link, joined, linked⟩
      rw [← connect_factory linked] at fits
      rcases expanded.connect below linked previous with ⟨lengthEq, placed, _⟩
      have tailOpen := placed.framed.outputs
      rw [← expanded.tail_eq] at tailOpen
      have keeps := between.connect_keepsKinds previous head
      rw [linked] at keeps
      have ends : joined.Tipped first tail :=
        ⟨(tipped.keep ((addStream_keepsKinds made).trans keeps)).head,
          (childTipped.keep keeps).tail⟩
      unfold addPipeline
      rw [made]
      dsimp only
      rw [linked]
      exact addPipeline_succeeds rest joined first tail fits (lengthEq ▸ expanded.tail_lt)
        tailOpen ends populated.2

theorem addBranches_succeeds : ∀ (branches : List (Element β)) (builder : Builder β α)
    (split join : Nat), builder.factory.fits = true → builder.kinds[split]? = some .splitter →
    builder.kinds[join]? = some .joiner → split ≠ join →
    Element.allPopulated branches = true → ∃ after,
      builder.addBranches split join branches = (.ok (), after) ∧ builder.KeepsKinds after
  | [], builder, split, join, fits, splits, joins, different, populated =>
      ⟨builder, rfl, fun _ _ known => known⟩
  | branch :: rest, builder, split, join, fits, splits, joins, different, populated => by
      rw [Element.allPopulated, Bool.and_eq_true] at populated
      rcases addStream_succeeds branch builder fits populated.1 with
        ⟨head, tail, between, made, _⟩
      rw [← addStream_factory made] at fits
      have expanded := addStream_expanded branch made
      have splitBelow : split < builder.drafts.length := by
        simpa only [kinds, List.length_map] using (List.getElem?_eq_some_iff.mp splits).1
      have joinBelow : join < builder.drafts.length := by
        simpa only [kinds, List.length_map] using (List.getElem?_eq_some_iff.mp joins).1
      have headEq := expanded.head_eq
      have grown := addStream_keepsKinds made
      have splitOpen : between.checkOutput split = .ok () :=
        checkOutput_of_room (grown _ _ splits) rfl
      rcases connect_of_room fits (by omega) splitOpen expanded.head_open with
        ⟨part, upper, opened⟩
      rw [← connect_factory opened] at fits
      have upperKeeps := between.connect_keepsKinds split head
      rw [opened] at upperKeeps
      rcases expanded.connect splitBelow opened split with ⟨lengthEq, placed, _⟩
      have least := placed.framed.least
      have tailEq := expanded.tail_eq
      have tailOpen : upper.checkOutput tail = .ok () := by
        apply checkOutput_of_empty (lengthEq ▸ expanded.tail_lt)
        rw [tailEq]
        exact placed.framed.outputs
      have joinOpen : upper.checkInput join = .ok () :=
        checkInput_of_room (upperKeeps _ _ (grown _ _ joins)) rfl
      rcases connect_of_room fits (by omega) tailOpen joinOpen with ⟨result, lower, closed⟩
      rw [← connect_factory closed] at fits
      have lowerKeeps := upper.connect_keepsKinds tail join
      rw [closed] at lowerKeeps
      have kept := (grown.trans upperKeeps).trans lowerKeeps
      unfold addBranches
      rw [made]
      dsimp only
      rw [opened]
      dsimp only
      rw [closed]
      rcases addBranches_succeeds rest lower split join fits (kept _ _ splits)
        (kept _ _ joins) different populated.2 with ⟨after, others, keeps⟩
      exact ⟨after, others, kept.trans keeps⟩

end

/-! ### Completing succeeds -/

/-- Missing ports may have been opened to the outside; everything else is as it was. -/
inductive Opened : List Port → List Port → Prop where
  | same (ports : List Port) : Opened ports ports
  | filled (channel : ChannelId) : Opened [] [{ peer := none, channel := channel }]

private theorem Opened.trans {first second third : List Port} (left : Opened first second)
    (right : Opened second third) : Opened first third := by
  cases right with
  | same => exact left
  | filled channel =>
      cases left with
      | same => exact .filled channel

theorem opened_extend {ports : WorkerId → List Port} {worker : WorkerId}
    (empty : ports worker = []) (channel : ChannelId) (id : WorkerId) :
    Opened (ports id) (Wiring.extend ports worker { peer := none, channel := channel } id) := by
  unfold Wiring.extend
  split
  next same =>
    rw [same, empty]
    exact .filled channel
  next => exact .same _

structure Opens (builder after : Builder β α) : Prop where
  factory : after.factory = builder.factory
  length_eq : after.drafts.length = builder.drafts.length
  kinds : after.kinds = builder.kinds
  fills : builder.layout.Fills after.layout
  inputs : ∀ id, Opened (builder.wiring.inputs id) (after.wiring.inputs id)
  outputs : ∀ id, Opened (builder.wiring.outputs id) (after.wiring.outputs id)

theorem Opens.refl (builder : Builder β α) : builder.Opens builder :=
  ⟨rfl, rfl, rfl, .refl _, fun _ => .same _, fun _ => .same _⟩

theorem Opens.trans {first second third : Builder β α} (left : first.Opens second)
    (right : second.Opens third) : first.Opens third where
  factory := right.factory.trans left.factory
  length_eq := right.length_eq.trans left.length_eq
  kinds := right.kinds.trans left.kinds
  fills := left.fills.trans right.fills
  inputs := fun id => (left.inputs id).trans (right.inputs id)
  outputs := fun id => (left.outputs id).trans (right.outputs id)

theorem completeInput_opens {builder after : Builder β α} {id : WorkerId}
    (made : builder.completeInput id = (.ok (), after)) : builder.Opens after := by
  rcases completeInput_view made with ⟨_, same⟩ | ⟨empty, _, request, channel, attached⟩
  · rw [same]
    exact .refl builder
  · have missing : (builder.noteRequest request).layout.inputs id = [] := empty
    have view := (builder.noteRequest request).attachInput_view id
      (.own (.ofKind builder.factory.kind))
    rw [attached] at view
    rcases view with ⟨error, refused⟩ | ⟨other, left, equal, ports, _, _⟩
    · cases refused
    · cases equal
      refine ⟨(attachInput_factory attached :), (attachInput_layout attached).1,
        (attachInput_gains attached).1.kinds, (attachInput_fills missing attached).1, ?_, ?_⟩
      · intro other
        rw [ports]
        exact opened_extend (List.map_eq_nil_iff.mp missing) _ other
      · intro other
        rw [ports]
        exact .same _

theorem completeOutput_opens {builder after : Builder β α} {id : WorkerId}
    (made : builder.completeOutput id = (.ok (), after)) : builder.Opens after := by
  rcases completeOutput_view made with ⟨_, same⟩ | ⟨empty, _, request, channel, attached⟩
  · rw [same]
    exact .refl builder
  · have missing : (builder.noteRequest request).layout.outputs id = [] := empty
    have view := (builder.noteRequest request).attachOutput_view id
      (.own (.ofKind builder.factory.kind))
    rw [attached] at view
    rcases view with ⟨error, refused⟩ | ⟨other, left, equal, ports, _, _⟩
    · cases refused
    · cases equal
      refine ⟨(attachOutput_factory attached :), (attachOutput_layout attached).1,
        (attachOutput_gains attached).1.kinds, (attachOutput_fills missing attached).1, ?_, ?_⟩
      · intro other
        rw [ports]
        exact .same _
      · intro other
        rw [ports]
        exact opened_extend (List.map_eq_nil_iff.mp missing) _ other

/-- Every joiner has an input, every splitter has an output, and the factory has channels. -/
structure Completable (builder : Builder β α) : Prop where
  fits : builder.factory.fits = true
  inputs : ∀ id : Nat, builder.kinds[id]? = some .joiner → builder.layout.inputs id ≠ []
  outputs : ∀ id : Nat, builder.kinds[id]? = some .splitter → builder.layout.outputs id ≠ []

private theorem Completable.fill {builder after : Builder β α} (ready : builder.Completable)
    (opens : builder.Opens after) : after.Completable := by
  have kinds := opens.kinds
  have fills := opens.fills
  constructor
  · rw [opens.factory]
    exact ready.fits
  · intro id known
    rw [kinds] at known
    have nonempty := ready.inputs id known
    rw [fills.inputs_ne_nil nonempty]
    exact nonempty
  · intro id known
    rw [kinds] at known
    have nonempty := ready.outputs id known
    rw [fills.outputs_ne_nil nonempty]
    exact nonempty

private theorem Completable.completeInput {builder : Builder β α} (ready : builder.Completable)
    {id : Nat} (known : id < builder.drafts.length) :
    ∃ after, builder.completeInput id = (.ok (), after) := by
  rcases kind_of_lt known with ⟨kind, kindAt⟩
  rcases draft_of_kind kindAt with ⟨draft, found, same⟩
  unfold Builder.completeInput
  rw [found]
  dsimp only
  by_cases filled : (!draft.inputs.isEmpty) = true
  · rw [if_pos filled]
    exact ⟨builder, rfl⟩
  · have empty : builder.layout.inputs id = [] := by
      rw [(ports_of_draft found).1]
      simpa using filled
    have enters : draft.kind ≠ .joiner := by
      rw [same]
      rintro rfl
      exact ready.inputs id kindAt empty
    rw [if_neg filled, if_neg enters]
    rw [requestChannel_of_fits ready.fits]
    dsimp only
    have free : (builder.noteRequest { producer := none, consumer := some id }).checkInput id =
        .ok () := checkInput_of_empty known empty
    unfold Builder.attachInput
    rw [free]
    exact ⟨_, rfl⟩

private theorem Completable.completeOutput {builder : Builder β α} (ready : builder.Completable)
    {id : Nat} (known : id < builder.drafts.length) :
    ∃ after, builder.completeOutput id = (.ok (), after) := by
  rcases kind_of_lt known with ⟨kind, kindAt⟩
  rcases draft_of_kind kindAt with ⟨draft, found, same⟩
  unfold Builder.completeOutput
  rw [found]
  dsimp only
  by_cases filled : (!draft.outputs.isEmpty) = true
  · rw [if_pos filled]
    exact ⟨builder, rfl⟩
  · have empty : builder.layout.outputs id = [] := by
      rw [(ports_of_draft found).2]
      simpa using filled
    have leaves : draft.kind ≠ .splitter := by
      rw [same]
      rintro rfl
      exact ready.outputs id kindAt empty
    rw [if_neg filled, if_neg leaves]
    rw [requestChannel_of_fits ready.fits]
    dsimp only
    have free : (builder.noteRequest { producer := some id, consumer := none }).checkOutput id =
        .ok () := checkOutput_of_empty known empty
    unfold Builder.attachOutput
    rw [free]
    exact ⟨_, rfl⟩

theorem Completable.completeAll {builder : Builder β α} (ready : builder.Completable)
    {ids : List Nat} (known : ∀ id ∈ ids, id < builder.drafts.length) :
    ∃ after, builder.completeAll ids = (.ok (), after) := by
  induction ids generalizing builder with
  | nil => exact ⟨builder, rfl⟩
  | cons id rest inductionHypothesis =>
      rw [List.forall_mem_cons] at known
      rcases ready.completeInput known.1 with ⟨fed, inputMade⟩
      have first := completeInput_opens inputMade
      have fedReady := ready.fill first
      rcases fedReady.completeOutput (first.length_eq ▸ known.1) with ⟨closed, outputMade⟩
      have second := first.trans (completeOutput_opens outputMade)
      unfold Builder.completeAll
      rw [inputMade]
      dsimp only
      rw [outputMade]
      apply inductionHypothesis (ready.fill second)
      intro other member
      rw [second.length_eq]
      exact known.2 other member

theorem completeAll_opens {ids : List WorkerId} {builder after : Builder β α}
    (made : builder.completeAll ids = (.ok (), after)) : builder.Opens after := by
  induction ids generalizing builder with
  | nil =>
      cases made
      exact .refl _
  | cons id rest inductionHypothesis =>
      unfold Builder.completeAll at made
      split at made
      next => cases made
      next fed inputMade =>
        split at made
        next => cases made
        next closed outputMade =>
          exact ((completeInput_opens inputMade).trans (completeOutput_opens outputMade)).trans
            (inductionHypothesis made)

/-- A stream expanded into an empty builder can be completed: only its head lacks inputs, and
this is no joiner; only its tail lacks outputs, and this is no splitter. -/
theorem Expanded.completable {builder after : Builder β α} {element : Element β} {head tail : Nat}
    (expanded : Expanded builder after element head tail) (fresh : builder.drafts.length = 0)
    (fits : after.factory.fits = true) (tipped : after.Tipped head tail) :
    after.Completable := by
  have framed := expanded.placed.framed
  have headEq := expanded.head_eq
  have tailEq := expanded.tail_eq
  have count := expanded.count
  rw [fresh] at framed headEq tailEq count
  have below (id : Nat) (kind : WorkerKind) (known : after.kinds[id]? = some kind) :
      id < 0 + element.workerCount := by
    rw [← count]
    simpa only [kinds, List.length_map] using (List.getElem?_eq_some_iff.mp known).1
  refine ⟨fits, ?_, ?_⟩
  · intro id joiner
    rcases tipped.head with ⟨kind, known, enters⟩
    have other : id ≠ 0 := by
      rintro rfl
      rw [headEq, joiner] at known
      cases known
      exact enters rfl
    exact framed.fed id (by omega) (below id _ joiner)
  · intro id splitter
    rcases tipped.tail with ⟨kind, known, leaves⟩
    have other : id ≠ element.last 0 := by
      rintro rfl
      rw [tailEq, splitter] at known
      cases known
      exact leaves rfl
    exact framed.feeding id (by omega) (below id _ splitter) other

end Builder

namespace Element

section

variable [Signature β]

def RatedFrom (layout : Layout β) (first upper : Nat) : Prop :=
  ∀ id body, first ≤ id → id < upper → layout.body id = some body →
    fitsAt body (layout.inputs id).length (layout.outputs id).length = true

theorem ratedFrom_split {layout : Layout β} {first middle upper : Nat} (lower : first ≤ middle)
    (higher : middle ≤ upper) : RatedFrom layout first upper ↔
      RatedFrom layout first middle ∧ RatedFrom layout middle upper := by
  constructor
  · intro all
    exact ⟨fun id body atLeast below => all id body atLeast (by omega),
      fun id body atLeast below => all id body (by omega) below⟩
  · intro both id body atLeast below
    by_cases early : id < middle
    · exact both.1 id body atLeast early
    · exact both.2 id body (by omega) below

private theorem ratedFrom_has {layout : Layout β} {id : Nat} {body : β} {ins outs : List ChannelId}
    (has : layout.Has id body ins outs) :
    RatedFrom layout id (id + 1) ↔ fitsAt body ins.length outs.length = true := by
  constructor
  · intro rated
    have here := rated id body (Nat.le_refl _) (Nat.lt_succ_self _) has.body
    rw [has.inputs, has.outputs] at here
    exact here
  · intro fits other otherBody atLeast below known
    have same : other = id := by omega
    subst same
    rw [has.body] at known
    cases known
    rw [has.inputs, has.outputs]
    exact fits

mutual

/-- Whether the bodies of a stream declare rates for their ports shows at its workers. -/
theorem Placed.rated_iff {layout : Layout β} : ∀ {element : Element β} {first : Nat}
    {input output : ChannelId}, element.Placed layout first [input] [output] →
    (element.rated = true ↔ RatedFrom layout first (first + element.workerCount))
  | .filter spec, first, input, output, placed => by
      unfold Placed at placed
      unfold rated workerCount
      exact (ratedFrom_has placed).symm
  | .pipeline children, first, input, output, placed => by
      unfold Placed at placed
      unfold rated workerCount
      exact PlacedInSeries.rated_iff placed
  | .splitjoin splitter branches joiner, first, input, output, placed => by
      unfold Placed at placed
      rcases placed with ⟨_, parts, results, splits, joins, abreast⟩
      have lengths := PlacedAbreast.lengths abreast
      have inner := PlacedAbreast.rated_iff abreast
      have atSplitter := ratedFrom_has splits
      have atJoiner := ratedFrom_has joins
      rw [lengths.1] at atSplitter
      rw [lengths.2] at atJoiner
      unfold rated workerCount
      rw [ratedFrom_split (Nat.le_add_right first 1) (by omega),
        ratedFrom_split (Nat.le_add_right (first + 1) 1) (by omega), ← Nat.add_assoc]
      simp only [Bool.and_eq_true, inner, atSplitter, atJoiner, List.length_singleton]
      exact and_assoc

theorem PlacedInSeries.rated_iff {layout : Layout β} : ∀ {children : List (Element β)}
    {first : Nat} {input output : ChannelId},
    PlacedInSeries layout children first [input] [output] →
    (allRated children = true ↔ RatedFrom layout first (first + workerCounts children))
  | [], first, input, output, placed => by
      unfold PlacedInSeries at placed
      exact placed.elim
  | [child], first, input, output, placed => by
      unfold PlacedInSeries at placed
      have here := Placed.rated_iff placed
      unfold allRated allRated workerCounts workerCounts
      simpa only [Bool.and_true, Nat.add_zero] using here
  | child :: next :: rest, first, input, output, placed => by
      unfold PlacedInSeries at placed
      rcases placed with ⟨link, head, tail⟩
      have here := Placed.rated_iff head
      have others := PlacedInSeries.rated_iff tail
      rw [allRated, workerCounts, ratedFrom_split (Nat.le_add_right first child.workerCount)
        (by omega), Bool.and_eq_true, here, others, Nat.add_assoc]

theorem PlacedAbreast.rated_iff {layout : Layout β} : ∀ {branches : List (Element β)}
    {first : Nat} {parts results : List ChannelId},
    PlacedAbreast layout branches first parts results →
    (allRated branches = true ↔ RatedFrom layout first (first + workerCounts branches))
  | [], first, parts, results, placed => by
      unfold workerCounts
      refine ⟨fun _ id body atLeast below => by omega, fun _ => rfl⟩
  | branch :: rest, first, parts, results, placed => by
      unfold PlacedAbreast at placed
      rcases placed with ⟨part, otherParts, result, otherResults, _, _, head, tail⟩
      have here := Placed.rated_iff head
      have others := PlacedAbreast.rated_iff tail
      rw [allRated, workerCounts, ratedFrom_split (Nat.le_add_right first branch.workerCount)
        (by omega), Bool.and_eq_true, here, others, Nat.add_assoc]

end

end

end Element

namespace Builder

theorem finishAll_of_fits [Signature β] {drafts : List (Draft β)} (first : WorkerId)
    (fits : ∀ draft ∈ drafts,
      Element.fitsAt draft.body draft.inputs.length draft.outputs.length = true) :
    ∃ workers : List (Worker β μ), finishAll first drafts = .ok workers := by
  induction drafts generalizing first with
  | nil => exact ⟨[], rfl⟩
  | cons draft rest inductionHypothesis =>
      rw [List.forall_mem_cons] at fits
      rcases inductionHypothesis (first + 1) fits.2 with ⟨workers, finished⟩
      have here := fits.1
      unfold Element.fitsAt at here
      unfold finishAll finish
      dsimp only
      rw [if_pos here, finished]
      exact ⟨_, rfl⟩

end Builder

end DemandFlow
