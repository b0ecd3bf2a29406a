import DemandFlow.Graph.Builder
import DemandFlow.Proofs.Graph.Wiring

/-!
Assembled graphs. `Builder.Assembled` holds of the builders that calls can lead to,
whether the calls succeed or are refused, and `Graph.Built` of the graphs built from
them. Every built graph has a sound frame and starts with all counts at zero and all
queues empty.
-/

set_option autoImplicit false

namespace DemandFlow

variable {β α μ : Type}

namespace Builder

/-- The builders that calls lead to. The shared buffers are open to others, so their
contents can change between two calls. -/
inductive Assembled [Signature β] : Builder β α → Prop where
  | fresh (factory : ChannelFactory) : Assembled { factory := factory }
  | pooled {builder : Builder β α} (pool : Pool α) (before : Assembled builder) :
      Assembled { builder with bank := { builder.bank with pool := pool } }
  | addWorker {builder : Builder β α} (kind : WorkerKind) (spec : WorkerSpec β)
      (before : Assembled builder) : Assembled (builder.addWorker kind spec).2
  | connect {builder : Builder β α} (producer consumer : WorkerId)
      (before : Assembled builder) : Assembled (builder.connect producer consumer).2
  | attachInput {builder : Builder β α} (worker : WorkerId) (slot : Slot α)
      (before : Assembled builder) : Assembled (builder.attachInput worker slot).2
  | attachOutput {builder : Builder β α} (worker : WorkerId) (slot : Slot α)
      (before : Assembled builder) : Assembled (builder.attachOutput worker slot).2
  | addPortal {builder : Builder β α} (recipient : BodyType)
      (before : Assembled builder) : Assembled (builder.addPortal recipient).2
  | register {builder : Builder β α} (portal : Portal) (worker : WorkerId)
      (before : Assembled builder) : Assembled (builder.register portal worker).2
  | addConstraint {builder : Builder β α} (constraint : Constraint)
      (before : Assembled builder) : Assembled (builder.addConstraint constraint).2
  | addStream {builder : Builder β α} (element : Element β)
      (before : Assembled builder) : Assembled (builder.addStream element).2

def wiring (builder : Builder β α) : Wiring :=
  { inputs := fun id => (builder.drafts[id]?.map Draft.inputs).getD []
    outputs := fun id => (builder.drafts[id]?.map Draft.outputs).getD []
    channels := builder.bank.size }

structure Sound (builder : Builder β α) : Prop where
  wiring : builder.wiring.Sound
  /-- A route is declared at most once. -/
  routes : builder.constraints.Pairwise (fun left right => left.route ≠ right.route)
  /-- A worker is registered on a portal at most once. -/
  registered : ∀ entry ∈ builder.portals, entry.workers.Nodup

theorem draft_eq_ok {builder : Builder β α} {id : WorkerId} {draft : Draft β}
    (found : builder.draft id = .ok draft) : builder.drafts[id]? = some draft := by
  unfold Builder.draft at found
  cases place : builder.drafts[id]? with
  | none =>
      rw [place] at found
      cases found
  | some other =>
      rw [place] at found
      cases found
      rfl

theorem checkInput_eq_ok {builder : Builder β α} {id : WorkerId}
    (accepted : builder.checkInput id = .ok ()) : ∃ draft, builder.drafts[id]? = some draft ∧
      draft.kind.acceptsInput draft.inputs.length = true := by
  unfold checkInput at accepted
  split at accepted
  next => cases accepted
  next draft found =>
    split at accepted
    next vacant => exact ⟨draft, draft_eq_ok found, vacant⟩
    next => cases accepted

theorem checkOutput_eq_ok {builder : Builder β α} {id : WorkerId}
    (accepted : builder.checkOutput id = .ok ()) : ∃ draft, builder.drafts[id]? = some draft ∧
      draft.kind.acceptsOutput draft.outputs.length = true := by
  unfold checkOutput at accepted
  split at accepted
  next => cases accepted
  next draft found =>
    split at accepted
    next vacant => exact ⟨draft, draft_eq_ok found, vacant⟩
    next => cases accepted

theorem requestChannel_eq_ok {builder after : Builder β α} {request : ChannelRequest}
    {slot : Slot α} (made : builder.requestChannel request = (.ok slot, after)) :
    builder.factory.fits = true ∧ slot = .own (.ofKind builder.factory.kind) ∧
      after = builder.noteRequest request := by
  unfold requestChannel at made
  split at made
  next => cases made
  next accepted =>
    cases made
    exact ⟨(ChannelFactory.make_eq_ok accepted).1, (ChannelFactory.make_eq_ok accepted).2, rfl⟩

theorem requestChannel_eq_error {builder after : Builder β α} {request : ChannelRequest}
    {error : Error} (refused : builder.requestChannel request = (.error error, after)) :
    after = builder := by
  unfold requestChannel at refused
  split at refused
  next =>
    cases refused
    rfl
  next => cases refused

theorem requestChannel_of_fits {builder : Builder β α} (fits : builder.factory.fits = true)
    (request : ChannelRequest) : builder.requestChannel request =
      (.ok (.own (.ofKind builder.factory.kind)), builder.noteRequest request) := by
  unfold requestChannel
  rw [ChannelFactory.make_of_fits fits]

theorem wiring_addWorker (builder : Builder β α) (kind : WorkerKind) (spec : WorkerSpec β) :
    (builder.addWorker kind spec).2.wiring = builder.wiring := by
  have ports (pick : Draft β → List Port)
      (empty : pick { name := spec.name, kind := kind, body := spec.body } = [])
      (id : WorkerId) : (((builder.addWorker kind spec).2.drafts[id]?).map pick).getD [] =
        ((builder.drafts[id]?).map pick).getD [] := by
    unfold addWorker
    dsimp only
    by_cases within : id < builder.drafts.length
    · rw [List.getElem?_append_left within]
    · rw [List.getElem?_append_right (Nat.le_of_not_lt within),
        List.getElem?_eq_none (Nat.le_of_not_lt within)]
      cases offset : id - builder.drafts.length with
      | zero => simp [empty]
      | succ further => simp
  unfold wiring
  congr 1
  · funext id
    exact ports Draft.inputs rfl id
  · funext id
    exact ports Draft.outputs rfl id

private theorem modify_ports (drafts : List (Draft β)) (change : Draft β → Draft β)
    (pick : Draft β → List Port) (id other : WorkerId) :
    ((drafts.modify id change)[other]?.map pick).getD [] =
      if other = id then ((drafts[id]?).map (fun draft => pick (change draft))).getD []
      else (drafts[other]?.map pick).getD [] := by
  rw [List.getElem?_modify]
  by_cases same : other = id
  · subst same
    cases drafts[other]? <;> simp
  · have different : id ≠ other := fun equal => same equal.symm
    cases drafts[other]? <;> simp [same, different]

private theorem length_addOutput (builder : Builder β α) (id : WorkerId) (port : Port) :
    (builder.addOutput id port).drafts.length = builder.drafts.length :=
  List.length_modify _ _ _

theorem wiring_addInput {builder : Builder β α} {id : WorkerId}
    (known : id < builder.drafts.length) (port : Port) :
    (builder.addInput id port).wiring =
      { builder.wiring with inputs := Wiring.extend builder.wiring.inputs id port } := by
  have place := List.getElem?_eq_getElem known
  unfold wiring addInput setDraft
  dsimp only
  congr 1
  · funext other
    rw [modify_ports]
    unfold Wiring.extend
    split
    next => simp only [place, Option.map_some, Option.getD_some]
    next => rfl
  · funext other
    rw [modify_ports]
    split
    next same => subst same; rfl
    next => rfl

theorem wiring_addOutput {builder : Builder β α} {id : WorkerId}
    (known : id < builder.drafts.length) (port : Port) :
    (builder.addOutput id port).wiring =
      { builder.wiring with outputs := Wiring.extend builder.wiring.outputs id port } := by
  have place := List.getElem?_eq_getElem known
  unfold wiring addOutput setDraft
  dsimp only
  congr 1
  · funext other
    rw [modify_ports]
    split
    next same => subst same; rfl
    next => rfl
  · funext other
    rw [modify_ports]
    unfold Wiring.extend
    split
    next => simp only [place, Option.map_some, Option.getD_some]
    next => rfl

theorem wiring_addSlot (builder : Builder β α) (slot : Slot α) :
    (builder.addSlot slot).2.wiring =
      { builder.wiring with channels := builder.wiring.channels + 1 } := by
  unfold wiring addSlot Bank.add Bank.size
  simp only [List.length_append, List.length_cons, List.length_nil, Nat.zero_add]

def linked (builder : Builder β α) (producer consumer : WorkerId) : Builder β α :=
  (((builder.noteRequest { producer := some producer, consumer := some consumer }).addSlot
      (.own (.ofKind builder.factory.kind))).2.addOutput producer
        { peer := some consumer, channel := builder.bank.size }).addInput consumer
          { peer := some producer, channel := builder.bank.size }

structure Connectable (builder : Builder β α) (producer consumer : WorkerId) : Prop where
  different : producer ≠ consumer
  output : builder.checkOutput producer = .ok ()
  input : builder.checkInput consumer = .ok ()
  fits : builder.factory.fits = true

theorem Connectable.connect_eq {builder : Builder β α} {producer consumer : WorkerId}
    (links : builder.Connectable producer consumer) : builder.connect producer consumer =
      (.ok builder.bank.size, builder.linked producer consumer) := by
  unfold connect
  rw [if_neg links.different, links.output, links.input]
  dsimp only
  rw [requestChannel_of_fits links.fits]
  rfl

/-- A connection is either refused, or it is made and there is one more channel. -/
theorem connect_cases (builder : Builder β α) (producer consumer : WorkerId) :
    (∃ error, builder.connect producer consumer = (.error error, builder)) ∨
      builder.Connectable producer consumer := by
  unfold connect
  split
  next => exact .inl ⟨_, rfl⟩
  next different =>
    split
    next error refused => exact .inl ⟨_, rfl⟩
    next output =>
      split
      next error refused => exact .inl ⟨_, rfl⟩
      next input =>
        split
        next refused =>
          rw [requestChannel_eq_error refused]
          exact .inl ⟨_, rfl⟩
        next made => exact .inr ⟨different, output, input, (requestChannel_eq_ok made).1⟩

theorem connect_eq_ok {builder after : Builder β α} {producer consumer : WorkerId}
    {channel : ChannelId} (made : builder.connect producer consumer = (.ok channel, after)) :
    builder.Connectable producer consumer ∧ channel = builder.bank.size ∧
      after = builder.linked producer consumer := by
  rcases builder.connect_cases producer consumer with ⟨error, refused⟩ | links
  · rw [refused] at made
    cases made
  · rw [links.connect_eq] at made
    cases made
    exact ⟨links, rfl, rfl⟩

theorem Connectable.wiring_linked {builder : Builder β α} {producer consumer : WorkerId}
    (links : builder.Connectable producer consumer) :
    (builder.linked producer consumer).wiring = builder.wiring.join producer consumer := by
  rcases checkOutput_eq_ok links.output with ⟨_, producerFound, _⟩
  rcases checkInput_eq_ok links.input with ⟨_, consumerFound, _⟩
  have producerKnown := (List.getElem?_eq_some_iff.mp producerFound).1
  have consumerKnown := (List.getElem?_eq_some_iff.mp consumerFound).1
  unfold linked
  rw [wiring_addInput (by rw [length_addOutput]; exact consumerKnown),
    wiring_addOutput (by exact producerKnown), wiring_addSlot]
  rfl

/-- A connection that is made adds one channel between its two workers. -/
theorem connect_view (builder : Builder β α) (producer consumer : WorkerId) :
    (∃ error, builder.connect producer consumer = (.error error, builder)) ∨
      ∃ id after, builder.connect producer consumer = (.ok id, after) ∧
        producer ≠ consumer ∧ after.wiring = builder.wiring.join producer consumer ∧
        after.constraints = builder.constraints ∧ after.portals = builder.portals := by
  rcases builder.connect_cases producer consumer with refused | links
  · exact .inl refused
  · exact .inr ⟨_, _, links.connect_eq, links.different, links.wiring_linked, rfl, rfl⟩

theorem attachInput_view (builder : Builder β α) (worker : WorkerId) (slot : Slot α) :
    (∃ error, builder.attachInput worker slot = (.error error, builder)) ∨
      ∃ id after, builder.attachInput worker slot = (.ok id, after) ∧
        after.wiring = builder.wiring.openInput worker ∧
        after.constraints = builder.constraints ∧ after.portals = builder.portals := by
  unfold attachInput
  split
  next error refused => exact .inl ⟨_, rfl⟩
  next inputOpen =>
    obtain ⟨draft, found, _⟩ := checkInput_eq_ok inputOpen
    have known := (List.getElem?_eq_some_iff.mp found).1
    refine .inr ⟨_, _, rfl, ?_, rfl, rfl⟩
    change ((builder.addSlot slot).2.addInput worker _).wiring = _
    rw [wiring_addInput (by exact known), wiring_addSlot]
    rfl

theorem attachOutput_view (builder : Builder β α) (worker : WorkerId) (slot : Slot α) :
    (∃ error, builder.attachOutput worker slot = (.error error, builder)) ∨
      ∃ id after, builder.attachOutput worker slot = (.ok id, after) ∧
        after.wiring = builder.wiring.openOutput worker ∧
        after.constraints = builder.constraints ∧ after.portals = builder.portals := by
  unfold attachOutput
  split
  next error refused => exact .inl ⟨_, rfl⟩
  next outputOpen =>
    obtain ⟨draft, found, _⟩ := checkOutput_eq_ok outputOpen
    have known := (List.getElem?_eq_some_iff.mp found).1
    refine .inr ⟨_, _, rfl, ?_, rfl, rfl⟩
    change ((builder.addSlot slot).2.addOutput worker _).wiring = _
    rw [wiring_addOutput (by exact known), wiring_addSlot]
    rfl

/-! ### Soundness of every builder -/

theorem Sound.addWorker {builder : Builder β α} (sound : builder.Sound) (kind : WorkerKind)
    (spec : WorkerSpec β) : (builder.addWorker kind spec).2.Sound where
  wiring := by
    rw [wiring_addWorker]
    exact sound.wiring
  routes := sound.routes
  registered := sound.registered

theorem Sound.connect {builder : Builder β α} (sound : builder.Sound)
    (producer consumer : WorkerId) : (builder.connect producer consumer).2.Sound := by
  rcases builder.connect_view producer consumer with
    ⟨error, refused⟩ | ⟨id, after, made, different, ports, constraints, portals⟩
  · rw [refused]
    exact sound
  · rw [made]
    exact ⟨ports ▸ sound.wiring.join different, constraints ▸ sound.routes,
      portals ▸ sound.registered⟩

theorem Sound.attachInput {builder : Builder β α} (sound : builder.Sound) (worker : WorkerId)
    (slot : Slot α) : (builder.attachInput worker slot).2.Sound := by
  rcases builder.attachInput_view worker slot with
    ⟨error, refused⟩ | ⟨id, after, made, ports, constraints, portals⟩
  · rw [refused]
    exact sound
  · rw [made]
    exact ⟨ports ▸ sound.wiring.openInput worker, constraints ▸ sound.routes,
      portals ▸ sound.registered⟩

theorem Sound.attachOutput {builder : Builder β α} (sound : builder.Sound) (worker : WorkerId)
    (slot : Slot α) : (builder.attachOutput worker slot).2.Sound := by
  rcases builder.attachOutput_view worker slot with
    ⟨error, refused⟩ | ⟨id, after, made, ports, constraints, portals⟩
  · rw [refused]
    exact sound
  · rw [made]
    exact ⟨ports ▸ sound.wiring.openOutput worker, constraints ▸ sound.routes,
      portals ▸ sound.registered⟩

private theorem Sound.register [Signature β] {builder : Builder β α} (sound : builder.Sound)
    (portal : Portal) (worker : WorkerId) : (builder.register portal worker).2.Sound := by
  unfold Builder.register
  split
  next => exact sound
  next =>
    split
    next => exact sound
    next =>
      split
      next => exact sound
      next =>
        split
        next => exact sound
        next =>
          split
          next => exact sound
          next entry found _ absent =>
            refine ⟨sound.wiring, sound.routes, ?_⟩
            intro other member
            rcases List.mem_or_eq_of_mem_set member with old | rfl
            · exact sound.registered other old
            · rw [List.nodup_append]
              refine ⟨sound.registered entry (List.mem_of_getElem? found),
                List.pairwise_singleton _ _, ?_⟩
              intro left leftIn right rightIn same
              rw [List.mem_singleton] at rightIn
              subst rightIn same
              exact absent (List.contains_iff_mem.mpr leftIn)

private theorem Sound.addConstraint {builder : Builder β α} (sound : builder.Sound)
    (constraint : Constraint) : (builder.addConstraint constraint).2.Sound := by
  unfold Builder.addConstraint
  split
  next => exact sound
  next => exact sound
  next =>
    split
    next => exact sound
    next =>
      split
      next => exact sound
      next =>
        split
        next => exact sound
        next fresh =>
          refine ⟨sound.wiring, List.pairwise_append.mpr
            ⟨sound.routes, List.pairwise_singleton _ _, ?_⟩, sound.registered⟩
          intro declared member other single same
          rw [List.mem_singleton] at single
          subst single
          apply fresh
          rw [List.any_eq_true]
          exact ⟨declared, member, decide_eq_true same⟩

/-- Properties that adding workers keeps, and connecting workers that are `fresh`; every worker
that is added is. -/
structure KeptByExpansion (fresh : WorkerId → Prop) (property : Builder β α → Prop) : Prop where
  worker : ∀ builder kind spec, property builder →
    fresh (builder.addWorker kind spec).1 ∧ property (builder.addWorker kind spec).2
  connection : ∀ builder producer consumer, fresh producer → fresh consumer → property builder →
    property (builder.connect producer consumer).2

namespace KeptByExpansion

variable {fresh : WorkerId → Prop} {property : Builder β α → Prop}

mutual

/-- Expanding a stream only adds workers and connects workers it has added, also when it is
given up halfway. -/
theorem addStream (kept : KeptByExpansion fresh property) :
    ∀ (element : Element β) (builder : Builder β α), property builder →
      property (builder.addStream element).2 ∧
        ∀ ends, (builder.addStream element).1 = .ok ends → fresh ends.1 ∧ fresh ends.2
  | .filter spec, builder, holds => by
      obtain ⟨new, added⟩ := kept.worker builder .filter spec holds
      refine ⟨added, ?_⟩
      rintro ends ⟨⟩
      exact ⟨new, new⟩
  | .pipeline children, builder, holds => by
      unfold Builder.addStream
      exact kept.addPipeline children builder none nofun holds
  | .splitjoin splitter branches joiner, builder, holds => by
      unfold Builder.addStream
      split
      next => exact ⟨holds, fun _ failed => by cases failed⟩
      next =>
        obtain ⟨newSplit, withSplit⟩ := kept.worker builder .splitter splitter holds
        obtain ⟨newJoin, ready⟩ := kept.worker _ .joiner joiner withSplit
        have expanded := kept.addBranches branches _ _ _ newSplit newJoin ready
        dsimp only
        split
        next outcome =>
          rw [outcome] at expanded
          exact ⟨expanded, fun _ failed => by cases failed⟩
        next outcome =>
          rw [outcome] at expanded
          refine ⟨expanded, ?_⟩
          rintro ends ⟨⟩
          exact ⟨newSplit, newJoin⟩

theorem addPipeline (kept : KeptByExpansion fresh property) :
    ∀ (children : List (Element β)) (builder : Builder β α)
      (ends : Option (WorkerId × WorkerId)),
      (∀ pair, ends = some pair → fresh pair.1 ∧ fresh pair.2) → property builder →
      property (builder.addPipeline ends children).2 ∧
        ∀ pair, (builder.addPipeline ends children).1 = .ok pair → fresh pair.1 ∧ fresh pair.2
  | [], builder, none, _, holds => ⟨holds, fun _ failed => by cases failed⟩
  | [], builder, some pair, new, holds => by
      refine ⟨holds, ?_⟩
      rintro _ ⟨⟩
      exact new pair rfl
  | child :: rest, builder, ends, new, holds => by
      have first := kept.addStream child builder holds
      unfold Builder.addPipeline
      split
      next outcome =>
        rw [outcome] at first
        exact ⟨first.1, fun _ failed => by cases failed⟩
      next head tail after outcome =>
        rw [outcome] at first
        obtain ⟨added, newEnds⟩ := first
        obtain ⟨newHead, newTail⟩ := newEnds (head, tail) rfl
        split
        next =>
          refine kept.addPipeline rest after _ ?_ added
          rintro _ ⟨⟩
          exact ⟨newHead, newTail⟩
        next start previous =>
          obtain ⟨newStart, newPrevious⟩ := new (start, previous) rfl
          have joined := kept.connection after previous head newPrevious newHead added
          split
          next linked =>
            rw [linked] at joined
            exact ⟨joined, fun _ failed => by cases failed⟩
          next linked =>
            rw [linked] at joined
            refine kept.addPipeline rest _ _ ?_ joined
            rintro _ ⟨⟩
            exact ⟨newStart, newTail⟩

theorem addBranches (kept : KeptByExpansion fresh property) :
    ∀ (branches : List (Element β)) (builder : Builder β α) (split join : WorkerId),
      fresh split → fresh join → property builder →
      property (builder.addBranches split join branches).2
  | [], builder, split, join, _, _, holds => holds
  | branch :: rest, builder, split, join, newSplit, newJoin, holds => by
      have first := kept.addStream branch builder holds
      unfold Builder.addBranches
      split
      next outcome => rw [outcome] at first; exact first.1
      next head tail after outcome =>
        rw [outcome] at first
        obtain ⟨added, newEnds⟩ := first
        obtain ⟨newHead, newTail⟩ := newEnds (head, tail) rfl
        have upper := kept.connection after split head newSplit newHead added
        split
        next linked => rw [linked] at upper; exact upper
        next linked =>
          rw [linked] at upper
          have lower := kept.connection _ tail join newTail newJoin upper
          split
          next linked => rw [linked] at lower; exact lower
          next linked =>
            rw [linked] at lower
            exact kept.addBranches rest _ split join newSplit newJoin lower

end

end KeptByExpansion

structure KeptByGrowth (property : Builder β α → Prop) : Prop where
  worker : ∀ builder kind spec, property builder → property (builder.addWorker kind spec).2
  connection : ∀ builder producer consumer, property builder →
    property (builder.connect producer consumer).2

theorem KeptByGrowth.addStream {property : Builder β α → Prop} (kept : KeptByGrowth property)
    (element : Element β) (builder : Builder β α) (holds : property builder) :
    property (builder.addStream element).2 := by
  have expansion : KeptByExpansion (fun _ => True) property :=
    { worker := fun builder kind spec before => ⟨trivial, kept.worker builder kind spec before⟩
      connection := fun builder producer consumer _ _ before =>
        kept.connection builder producer consumer before }
  exact (expansion.addStream element builder holds).1

private theorem Sound.keptByGrowth : KeptByGrowth (Sound (β := β) (α := α)) where
  worker := fun _ kind spec sound => sound.addWorker kind spec
  connection := fun _ producer consumer sound => sound.connect producer consumer

theorem Assembled.sound [Signature β] {builder : Builder β α} (assembled : builder.Assembled) :
    builder.Sound := by
  induction assembled with
  | fresh factory => exact ⟨Wiring.Sound.empty 0, List.Pairwise.nil, by simp⟩
  | pooled pool before inductionHypothesis =>
      exact ⟨inductionHypothesis.wiring, inductionHypothesis.routes,
        inductionHypothesis.registered⟩
  | addWorker kind spec before inductionHypothesis => exact inductionHypothesis.addWorker kind spec
  | connect producer consumer before inductionHypothesis =>
      exact inductionHypothesis.connect producer consumer
  | attachInput worker slot before inductionHypothesis =>
      exact inductionHypothesis.attachInput worker slot
  | attachOutput worker slot before inductionHypothesis =>
      exact inductionHypothesis.attachOutput worker slot
  | addPortal recipient before inductionHypothesis =>
      refine ⟨inductionHypothesis.wiring, inductionHypothesis.routes, ?_⟩
      intro entry member
      rcases List.mem_append.mp member with old | new
      · exact inductionHypothesis.registered entry old
      · rw [List.mem_singleton] at new
        subst new
        exact List.nodup_nil
  | register portal worker before inductionHypothesis =>
      exact inductionHypothesis.register portal worker
  | addConstraint constraint before inductionHypothesis =>
      exact inductionHypothesis.addConstraint constraint
  | addStream element before inductionHypothesis =>
      exact Sound.keptByGrowth.addStream element _ inductionHypothesis

/-! ### Building -/

theorem attached_of_map {after : Builder β α} {outcome : Outcome ChannelId (Builder β α)}
    (made : (outcome.1.map (fun _ => ()), outcome.2) = (.ok (), after)) :
    ∃ channel, outcome = (.ok channel, after) := by
  obtain ⟨answer, left⟩ := outcome
  cases answer with
  | error error => cases made
  | ok channel =>
      cases made
      exact ⟨channel, rfl⟩

theorem Sound.noteRequest {builder : Builder β α} (sound : builder.Sound)
    (request : ChannelRequest) : (builder.noteRequest request).Sound :=
  ⟨sound.wiring, sound.routes, sound.registered⟩

theorem Sound.completeInput {builder : Builder β α} (sound : builder.Sound) (id : WorkerId) :
    (builder.completeInput id).2.Sound := by
  unfold Builder.completeInput
  split
  next => exact sound
  next =>
    split
    next => exact sound
    next =>
      split
      next => exact sound
      next =>
        split
        next refused =>
          rw [requestChannel_eq_error refused]
          exact sound
        next made =>
          rw [(requestChannel_eq_ok made).2.2]
          exact (sound.noteRequest _).attachInput id _

theorem Sound.completeOutput {builder : Builder β α} (sound : builder.Sound) (id : WorkerId) :
    (builder.completeOutput id).2.Sound := by
  unfold Builder.completeOutput
  split
  next => exact sound
  next =>
    split
    next => exact sound
    next =>
      split
      next => exact sound
      next =>
        split
        next refused =>
          rw [requestChannel_eq_error refused]
          exact sound
        next made =>
          rw [(requestChannel_eq_ok made).2.2]
          exact (sound.noteRequest _).attachOutput id _

private theorem Sound.completeAll {builder : Builder β α} (sound : builder.Sound)
    (ids : List WorkerId) : (builder.completeAll ids).2.Sound := by
  induction ids generalizing builder with
  | nil => exact sound
  | cons id rest inductionHypothesis =>
      have withInput := sound.completeInput id
      unfold Builder.completeAll
      split
      next outcome => rw [outcome] at withInput; exact withInput
      next after outcome =>
        rw [outcome] at withInput
        have withOutput := withInput.completeOutput id
        split
        next outcome => rw [outcome] at withOutput; exact withOutput
        next outcome => rw [outcome] at withOutput; exact inductionHypothesis withOutput

/-- What a draft and the worker it becomes have in common. -/
structure Finished [Signature β] (id : WorkerId) (draft : Draft β) (worker : Worker β μ) :
    Prop where
  id_eq : worker.id = id
  kind : worker.kind = draft.kind
  inputs : worker.inputs = draft.inputs
  outputs : worker.outputs = draft.outputs
  rates : worker.rates = Signature.rates draft.body worker.shape
  rated : worker.rates.fits worker.shape = true
  executions : worker.executions = 0
  queue : worker.queue = {}
  body : worker.body = draft.body

private theorem finished_of_finish [Signature β] {id : WorkerId} {draft : Draft β}
    {worker : Worker β μ} (made : finish id draft = .ok worker) : Finished id draft worker := by
  unfold finish at made
  dsimp only at made
  split at made
  next fits =>
    cases made
    exact
      { id_eq := rfl
        kind := rfl
        inputs := rfl
        outputs := rfl
        rates := rfl
        rated := fits
        executions := rfl
        queue := rfl
        body := rfl }
  next => cases made

theorem finishAll_get [Signature β] (drafts : List (Draft β)) (first : WorkerId)
    (workers : List (Worker β μ)) (made : finishAll first drafts = .ok workers) (index : Nat) :
    match drafts[index]?, workers[index]? with
    | some draft, some worker => Finished (first + index) draft worker
    | none, none => True
    | _, _ => False := by
  induction drafts generalizing first workers index with
  | nil =>
      cases made
      simp only [List.length_nil, Nat.not_lt_zero, not_false_eq_true, getElem?_neg]
  | cons draft rest inductionHypothesis =>
      unfold finishAll at made
      split at made
      next => cases made
      next worker finished =>
        split at made
        next => cases made
        next others remaining =>
          cases made
          cases index with
          | zero => exact finished_of_finish finished
          | succ index =>
              have tail := inductionHypothesis (first + 1) others remaining index
              rw [Nat.add_right_comm] at tail
              exact tail

theorem length_finishAll [Signature β] {drafts : List (Draft β)} {first : WorkerId}
    {workers : List (Worker β μ)} (made : finishAll first drafts = .ok workers) :
    workers.length = drafts.length := by
  induction drafts generalizing first workers with
  | nil =>
      cases made
      rfl
  | cons draft rest inductionHypothesis =>
      unfold finishAll at made
      split at made
      next => cases made
      next =>
        split at made
        next => cases made
        next others remaining =>
          cases made
          rw [List.length_cons, List.length_cons, inductionHypothesis remaining]

end Builder

def GraphFrame.wiring (frame : GraphFrame) : Wiring :=
  { inputs := fun id => (frame.workers[id]?.map WorkerFrame.inputs).getD []
    outputs := fun id => (frame.workers[id]?.map WorkerFrame.outputs).getD []
    channels := frame.keys.length }

structure GraphFrame.Sound (frame : GraphFrame) : Prop where
  wiring : frame.wiring.Sound
  routes : frame.constraints.Pairwise (fun left right => left.route ≠ right.route)
  registered : ∀ workers ∈ frame.recipients, workers.Nodup
  rated : ∀ (id : WorkerId) (worker : WorkerFrame), frame.workers[id]? = some worker →
    worker.rates.fits
      { inputs := worker.inputs.length, outputs := worker.outputs.length } = true

theorem GraphFrame.Sound.constraint_unique {frame : GraphFrame} (sound : frame.Sound)
    {left right : Constraint} (leftIn : left ∈ frame.constraints)
    (rightIn : right ∈ frame.constraints) (same : left.route = right.route) : left = right := by
  obtain ⟨leftIndex, leftBound, rfl⟩ := List.mem_iff_getElem.mp leftIn
  obtain ⟨rightIndex, rightBound, rfl⟩ := List.mem_iff_getElem.mp rightIn
  have pairwise := List.pairwise_iff_getElem.mp sound.routes
  rcases Nat.lt_trichotomy leftIndex rightIndex with before | equal | after
  · exact absurd same (pairwise leftIndex rightIndex leftBound rightBound before)
  · subst equal
    rfl
  · exact absurd same.symm (pairwise rightIndex leftIndex rightBound leftBound after)

/-- What the builder builds, and a graph of nobody if it refuses. -/
def Builder.graph [Signature β] (builder : Builder β α) : Graph β α μ :=
  match builder.build.1 with
  | .ok graph => graph
  | .error _ => { workers := [], bank := {}, constraints := [], recipients := [], topology := [] }

namespace Graph

theorem frame_get (graph : Graph β α μ) (id : WorkerId) :
    graph.frame.workers[id]? = (graph.worker? id).map Worker.frame :=
  List.getElem?_map

theorem wiring_inputs {graph : Graph β α μ} {id : WorkerId} {worker : Worker β μ}
    (known : graph.worker? id = some worker) : graph.frame.wiring.inputs id = worker.inputs := by
  unfold GraphFrame.wiring
  dsimp only
  rw [frame_get, known]
  rfl

theorem wiring_outputs {graph : Graph β α μ} {id : WorkerId} {worker : Worker β μ}
    (known : graph.worker? id = some worker) :
    graph.frame.wiring.outputs id = worker.outputs := by
  unfold GraphFrame.wiring
  dsimp only
  rw [frame_get, known]
  rfl

theorem wiring_channels (graph : Graph β α μ) :
    graph.frame.wiring.channels = graph.bank.size := by
  simp [GraphFrame.wiring, frame, Bank.keys, Bank.size]

/-- A graph with the same frame has the same worker up to what firings change. -/
theorem worker_of_frame_eq {left right : Graph β α μ} (same : left.frame = right.frame)
    {id : WorkerId} {worker : Worker β μ} (known : left.worker? id = some worker) :
    ∃ other, right.worker? id = some other ∧ other.frame = worker.frame := by
  have places : (right.worker? id).map Worker.frame = some worker.frame := by
    rw [← frame_get, ← same, frame_get, known]
    rfl
  obtain ⟨other, found, equal⟩ := Option.map_eq_some_iff.mp places
  exact ⟨other, found, equal⟩

def Built [Signature β] (graph : Graph β α μ) : Prop :=
  ∃ builder : Builder β α, builder.Assembled ∧ (builder.build (μ := μ)).1 = .ok graph

def Fresh (graph : Graph β α μ) : Prop :=
  ∀ id worker, graph.worker? id = some worker → worker.executions = 0 ∧ worker.queue = {}

theorem build_view [Signature β] {builder : Builder β α} {graph : Graph β α μ}
    (made : builder.build.1 = .ok graph) :
    ∃ after workers, builder.complete = (.ok (), after) ∧
      Builder.finishAll 0 after.drafts = .ok workers ∧ graph.workers = workers ∧
      graph.bank = after.bank ∧ graph.constraints = after.constraints ∧
      graph.recipients = after.portals.map PortalEntry.workers := by
  unfold Builder.build at made
  split at made
  next => cases made
  next after completed =>
    split at made
    next => cases made
    next workers finished =>
      cases made
      exact ⟨after, workers, completed, finished, rfl, rfl, rfl, rfl⟩

theorem worker_of_finishAll [Signature β] {drafts : List (Draft β)}
    {workers : List (Worker β μ)} (finished : Builder.finishAll 0 drafts = .ok workers)
    {id : WorkerId} {worker : Worker β μ} (known : workers[id]? = some worker) :
    ∃ draft, drafts[id]? = some draft ∧ Builder.Finished id draft worker := by
  have pair := Builder.finishAll_get drafts 0 workers finished id
  rw [known, Nat.zero_add] at pair
  cases place : drafts[id]? with
  | none =>
      rw [place] at pair
      exact pair.elim
  | some draft =>
      rw [place] at pair
      exact ⟨draft, rfl, pair⟩

theorem Built.fresh [Signature β] {graph : Graph β α μ} (built : graph.Built) : graph.Fresh := by
  obtain ⟨builder, _, made⟩ := built
  obtain ⟨after, workers, _, finished, workersEq, _, _, _⟩ := build_view made
  intro id worker known
  unfold worker? at known
  rw [workersEq] at known
  obtain ⟨draft, _, shared⟩ := worker_of_finishAll finished known
  exact ⟨shared.executions, shared.queue⟩

/-- The workers of a built graph have the ports of their drafts. -/
theorem wiring_of_finishAll [Signature β] {builder : Builder β α} {graph : Graph β α μ}
    (finished : Builder.finishAll 0 builder.drafts = .ok graph.workers)
    (bankEq : graph.bank = builder.bank) : graph.frame.wiring = builder.wiring := by
  have ports (pick : WorkerFrame → List Port) (draftPick : Draft β → List Port)
      (agree : ∀ id draft (worker : Worker β μ), Builder.Finished id draft worker →
        pick worker.frame = draftPick draft) (id : WorkerId) :
      (graph.frame.workers[id]?.map pick).getD [] =
        (builder.drafts[id]?.map draftPick).getD [] := by
    have pair := Builder.finishAll_get builder.drafts 0 graph.workers finished id
    rw [frame_get, worker?]
    cases place : builder.drafts[id]? with
    | none =>
        rw [place] at pair
        cases found : graph.workers[id]? with
        | none => rfl
        | some worker => rw [found] at pair; exact pair.elim
    | some draft =>
        rw [place] at pair
        cases found : graph.workers[id]? with
        | none => rw [found] at pair; exact pair.elim
        | some worker =>
            rw [found] at pair
            exact agree _ draft worker pair
  unfold GraphFrame.wiring Builder.wiring
  congr 1
  · funext id
    exact ports WorkerFrame.inputs Draft.inputs (fun _ _ _ shared => shared.inputs) id
  · funext id
    exact ports WorkerFrame.outputs Draft.outputs (fun _ _ _ shared => shared.outputs) id
  · simp only [frame, Bank.keys, bankEq, List.length_map, Bank.size]

theorem Built.sound [Signature β] {graph : Graph β α μ} (built : graph.Built) :
    graph.frame.Sound := by
  obtain ⟨builder, assembled, made⟩ := built
  obtain ⟨after, workers, completed, finished, workersEq, bankEq, constraintsEq,
    recipientsEq⟩ := build_view made
  have sound : after.Sound := by
    have whole := assembled.sound.completeAll (List.range builder.drafts.length)
    unfold Builder.complete at completed
    rw [completed] at whole
    exact whole
  have wiringEq := wiring_of_finishAll (workersEq ▸ finished) bankEq
  refine ⟨wiringEq ▸ sound.wiring, ?_, ?_, ?_⟩
  · change graph.constraints.Pairwise _
    rw [constraintsEq]
    exact sound.routes
  · intro registered member
    change registered ∈ graph.recipients at member
    rw [recipientsEq] at member
    obtain ⟨entry, entryIn, rfl⟩ := List.mem_map.mp member
    exact sound.registered entry entryIn
  · intro id worker found
    rw [frame_get] at found
    obtain ⟨original, known, rfl⟩ := Option.map_eq_some_iff.mp found
    unfold worker? at known
    rw [workersEq] at known
    obtain ⟨draft, _, shared⟩ := worker_of_finishAll finished known
    exact shared.rated

/-- The graph was built, whatever has happened to its channels, bodies and queues since. -/
def Descends [Signature β] (graph : Graph β α μ) : Prop :=
  ∃ origin : Graph β α μ, origin.Built ∧ graph.frame = origin.frame

theorem Built.descends [Signature β] {graph : Graph β α μ} (built : graph.Built) :
    graph.Descends :=
  ⟨graph, built, rfl⟩

theorem Descends.sound [Signature β] {graph : Graph β α μ} (descends : graph.Descends) :
    graph.frame.Sound := by
  rcases descends with ⟨origin, built, same⟩
  rw [same]
  exact built.sound

end Graph

end DemandFlow
