import DemandFlow.Proofs.Graph.Instrumentation

/-!
The factory is a free choice. What a builder answers does not depend on the kind of channel
its factory makes, and the graphs built with two factories differ in nothing but the channels:
these are empty on both sides, and each counts as its factory has it.
-/

set_option autoImplicit false

namespace DemandFlow

variable {β α μ : Type}

/-- The bank with a fresh channel of the given kind in every place. -/
def Bank.recast (kind : ChannelKind) (bank : Bank α) : Bank α :=
  { bank with slots := bank.slots.map (fun _ => .own (.ofKind kind)) }

namespace Bank

@[simp]
theorem size_recast (kind : ChannelKind) (bank : Bank α) : (bank.recast kind).size = bank.size :=
  List.length_map _

theorem channel?_recast (kind : ChannelKind) (bank : Bank α) (id : ChannelId) :
    (bank.recast kind).channel? id = bank.slots[id]?.map (fun _ => .ofKind kind) := by
  unfold channel? recast
  rw [List.getElem?_map, Option.map_map]
  rfl

theorem recast_sameItems (kind other : ChannelKind) (bank : Bank α) :
    (bank.recast kind).SameItems (bank.recast other) := by
  constructor
  · simp only [keys, recast, List.map_const', List.map_replicate, Slot.key?]
  · intro id
    unfold Bank.channel
    rw [channel?_recast, channel?_recast]
    cases bank.slots[id]? <;> rfl

theorem recast_instrumented {kind : ChannelKind} (counts : kind.instrumented = true)
    (bank : Bank α) : (bank.recast kind).Instrumented := by
  intro id known
  rw [size_recast] at known
  unfold Bank.channel
  rw [channel?_recast, List.getElem?_eq_getElem known]
  simp [Channel.ofKind, counts]

end Bank

namespace Builder

def recast (kind : ChannelKind) (builder : Builder β α) : Builder β α :=
  { builder with
    bank := builder.bank.recast kind
    factory := { builder.factory with kind := kind } }

/-- The call with the channel it attaches, if any, taken from a factory. Shared buffers stay
unused. -/
def Call.supplied (kind : ChannelKind) : Call β α → Call β α
  | .attachInput worker _ => .attachInput worker (.own (.ofKind kind))
  | .attachOutput worker _ => .attachOutput worker (.own (.ofKind kind))
  | .pooled _ => .pooled {}
  | call => call

section

variable (kind : ChannelKind) (builder : Builder β α)

theorem recast_draft (id : WorkerId) : (builder.recast kind).draft id = builder.draft id := rfl

theorem recast_checkInput (id : WorkerId) :
    (builder.recast kind).checkInput id = builder.checkInput id := rfl

theorem recast_checkOutput (id : WorkerId) :
    (builder.recast kind).checkOutput id = builder.checkOutput id := rfl

theorem recast_addWorker (role : WorkerKind) (spec : WorkerSpec β) :
    (builder.recast kind).addWorker role spec =
      ((builder.addWorker role spec).1, (builder.addWorker role spec).2.recast kind) := rfl

theorem recast_requestChannel (request : ChannelRequest) :
    (builder.recast kind).requestChannel request =
      ((builder.requestChannel request).1.map (fun _ => .own (.ofKind kind)),
        (builder.requestChannel request).2.recast kind) := by
  have same : (builder.recast kind).factory.fits = builder.factory.fits := rfl
  unfold requestChannel ChannelFactory.make
  rw [same]
  cases builder.factory.fits <;> rfl

theorem recast_connect (producer consumer : WorkerId) :
    (builder.recast kind).connect producer consumer =
      ((builder.connect producer consumer).1,
        (builder.connect producer consumer).2.recast kind) := by
  unfold connect
  rw [recast_checkOutput, recast_checkInput]
  by_cases same : producer = consumer
  · rw [if_pos same, if_pos same]
  · rw [if_neg same, if_neg same]
    cases builder.checkOutput producer with
    | error error => rfl
    | ok free =>
        cases builder.checkInput consumer with
        | error error => rfl
        | ok free =>
            dsimp only
            rw [recast_requestChannel]
            rcases builder.requestChannel
              { producer := some producer, consumer := some consumer } with ⟨answer, left⟩
            cases answer with
            | error error => rfl
            | ok slot =>
                simp [Except.map, addSlot, addOutput, addInput, setDraft, recast, Bank.recast,
                  Bank.add, Bank.size]

theorem recast_attachInput (worker : WorkerId) (slot : Slot α) :
    (builder.recast kind).attachInput worker (.own (.ofKind kind)) =
      ((builder.attachInput worker slot).1, (builder.attachInput worker slot).2.recast kind) := by
  unfold attachInput
  rw [recast_checkInput]
  cases builder.checkInput worker with
  | error error => rfl
  | ok free => simp [addSlot, addInput, setDraft, recast, Bank.recast, Bank.add, Bank.size]

theorem recast_attachOutput (worker : WorkerId) (slot : Slot α) :
    (builder.recast kind).attachOutput worker (.own (.ofKind kind)) =
      ((builder.attachOutput worker slot).1,
        (builder.attachOutput worker slot).2.recast kind) := by
  unfold attachOutput
  rw [recast_checkOutput]
  cases builder.checkOutput worker with
  | error error => rfl
  | ok free => simp [addSlot, addOutput, setDraft, recast, Bank.recast, Bank.add, Bank.size]

private theorem recast_register [Signature β] (portal : Portal) (worker : WorkerId) :
    (builder.recast kind).register portal worker =
      ((builder.register portal worker).1, (builder.register portal worker).2.recast kind) := by
  have portals : (builder.recast kind).portals = builder.portals := rfl
  unfold register
  rw [recast_draft, portals]
  cases builder.draft worker with
  | error error => rfl
  | ok draft =>
      dsimp only
      by_cases wrong : Signature.typeOf draft.body ≠ portal.recipient
      · rw [if_pos wrong, if_pos wrong]
      · rw [if_neg wrong, if_neg wrong]
        cases builder.portals[portal.id]? with
        | none => rfl
        | some entry =>
            dsimp only
            by_cases other : entry.recipient ≠ portal.recipient
            · rw [if_pos other, if_pos other]
            · rw [if_neg other, if_neg other]
              by_cases listed : entry.workers.contains worker = true
              · rw [if_pos listed, if_pos listed]
              · rw [if_neg listed, if_neg listed]
                rfl

private theorem recast_addConstraint (constraint : Constraint) :
    (builder.recast kind).addConstraint constraint =
      ((builder.addConstraint constraint).1,
        (builder.addConstraint constraint).2.recast kind) := by
  have portals : (builder.recast kind).portals = builder.portals := rfl
  have declared : (builder.recast kind).constraints = builder.constraints := rfl
  unfold addConstraint
  rw [recast_draft, recast_draft, portals, declared]
  cases builder.draft constraint.sender with
  | error error => rfl
  | ok sender =>
      cases builder.draft constraint.recipient with
      | error error => rfl
      | ok recipient =>
          cases builder.portals[constraint.portal]? with
          | none => rfl
          | some entry =>
              dsimp only
              by_cases absent : (!entry.workers.contains constraint.recipient) = true
              · rw [if_pos absent, if_pos absent]
              · rw [if_neg absent, if_neg absent]
                by_cases twice : builder.constraints.any
                    (fun declared => declared.sameRoute constraint) = true
                · rw [if_pos twice, if_pos twice]
                · rw [if_neg twice, if_neg twice]
                  rfl

mutual

theorem recast_addStream (kind : ChannelKind) : ∀ (element : Element β) (builder : Builder β α),
    (builder.recast kind).addStream element =
      ((builder.addStream element).1, (builder.addStream element).2.recast kind)
  | .filter spec, builder => rfl
  | .pipeline children, builder => by
      unfold addStream
      exact recast_addPipeline kind children builder none
  | .splitjoin splitter branches joiner, builder => by
      unfold addStream
      by_cases empty : branches.isEmpty = true
      · rw [if_pos empty, if_pos empty]
      · rw [if_neg empty, if_neg empty]
        have expanded := recast_addBranches kind branches
          ((builder.addWorker .splitter splitter).2.addWorker .joiner joiner).2
          (builder.addWorker .splitter splitter).1
          ((builder.addWorker .splitter splitter).2.addWorker .joiner joiner).1
        dsimp only [recast_addWorker]
        rw [expanded]
        rcases Builder.addBranches _ _ _ branches with ⟨answer, left⟩
        cases answer <;> rfl

theorem recast_addPipeline (kind : ChannelKind) :
    ∀ (children : List (Element β)) (builder : Builder β α)
      (ends : Option (WorkerId × WorkerId)),
    (builder.recast kind).addPipeline ends children =
      ((builder.addPipeline ends children).1, (builder.addPipeline ends children).2.recast kind)
  | [], builder, ends => by cases ends <;> rfl
  | child :: rest, builder, ends => by
      have first := recast_addStream kind child builder
      unfold addPipeline
      rw [first]
      rcases builder.addStream child with ⟨answer, left⟩
      cases answer with
      | error error => rfl
      | ok made =>
          cases ends with
          | none => exact recast_addPipeline kind rest left (some made)
          | some before =>
              dsimp only
              rw [recast_connect]
              rcases left.connect before.2 made.1 with ⟨linked, joined⟩
              cases linked with
              | error error => rfl
              | ok channel => exact recast_addPipeline kind rest joined (some (before.1, made.2))

theorem recast_addBranches (kind : ChannelKind) :
    ∀ (branches : List (Element β)) (builder : Builder β α) (split join : WorkerId),
    (builder.recast kind).addBranches split join branches =
      ((builder.addBranches split join branches).1,
        (builder.addBranches split join branches).2.recast kind)
  | [], builder, split, join => rfl
  | branch :: rest, builder, split, join => by
      have first := recast_addStream kind branch builder
      unfold addBranches
      rw [first]
      rcases builder.addStream branch with ⟨answer, left⟩
      cases answer with
      | error error => rfl
      | ok made =>
          dsimp only
          rw [recast_connect]
          rcases left.connect split made.1 with ⟨linked, upper⟩
          cases linked with
          | error error => rfl
          | ok channel =>
              dsimp only
              rw [recast_connect]
              rcases upper.connect made.2 join with ⟨linked, lower⟩
              cases linked with
              | error error => rfl
              | ok channel => exact recast_addBranches kind rest lower split join

end

private theorem recast_perform [Signature β] (other : ChannelKind) (call : Call β α) :
    (builder.recast kind).perform (call.supplied kind) =
      (builder.perform (call.supplied other)).recast kind := by
  cases call with
  | addWorker role spec => rfl
  | connect producer consumer =>
      exact congrArg Prod.snd (recast_connect kind builder producer consumer)
  | attachInput worker slot => exact congrArg Prod.snd (recast_attachInput kind builder worker _)
  | attachOutput worker slot => exact congrArg Prod.snd (recast_attachOutput kind builder worker _)
  | addPortal recipient => rfl
  | register portal worker => exact congrArg Prod.snd (recast_register kind builder portal worker)
  | addConstraint constraint =>
      exact congrArg Prod.snd (recast_addConstraint kind builder constraint)
  | addStream element => exact congrArg Prod.snd (recast_addStream kind element builder)
  | pooled pool => rfl

private theorem recast_performAll [Signature β] (other : ChannelKind) (calls : List (Call β α)) :
    (builder.recast kind).performAll (calls.map (Call.supplied kind)) =
      (builder.performAll (calls.map (Call.supplied other))).recast kind := by
  unfold performAll
  induction calls generalizing builder with
  | nil => rfl
  | cons call rest inductionHypothesis =>
      rw [List.map_cons, List.map_cons, List.foldl_cons, List.foldl_cons,
        recast_perform kind builder other call]
      exact inductionHypothesis _

private theorem recast_completeInput (id : WorkerId) :
    (builder.recast kind).completeInput id =
      ((builder.completeInput id).1, (builder.completeInput id).2.recast kind) := by
  unfold completeInput
  rw [recast_draft]
  cases builder.draft id with
  | error error => rfl
  | ok draft =>
      dsimp only
      by_cases filled : (!draft.inputs.isEmpty) = true
      · rw [if_pos filled, if_pos filled]
      · rw [if_neg filled, if_neg filled]
        by_cases joiner : draft.kind = .joiner
        · rw [if_pos joiner, if_pos joiner]
        · rw [if_neg joiner, if_neg joiner]
          rw [recast_requestChannel]
          rcases builder.requestChannel { producer := none, consumer := some id } with
            ⟨answer, left⟩
          cases answer with
          | error error => rfl
          | ok slot => simp only [Except.map, recast_attachInput kind left id slot]

private theorem recast_completeOutput (id : WorkerId) :
    (builder.recast kind).completeOutput id =
      ((builder.completeOutput id).1, (builder.completeOutput id).2.recast kind) := by
  unfold completeOutput
  rw [recast_draft]
  cases builder.draft id with
  | error error => rfl
  | ok draft =>
      dsimp only
      by_cases filled : (!draft.outputs.isEmpty) = true
      · rw [if_pos filled, if_pos filled]
      · rw [if_neg filled, if_neg filled]
        by_cases splitter : draft.kind = .splitter
        · rw [if_pos splitter, if_pos splitter]
        · rw [if_neg splitter, if_neg splitter]
          rw [recast_requestChannel]
          rcases builder.requestChannel { producer := some id, consumer := none } with
            ⟨answer, left⟩
          cases answer with
          | error error => rfl
          | ok slot => simp only [Except.map, recast_attachOutput kind left id slot]

private theorem recast_completeAll (ids : List WorkerId) :
    (builder.recast kind).completeAll ids =
      ((builder.completeAll ids).1, (builder.completeAll ids).2.recast kind) := by
  induction ids generalizing builder with
  | nil => rfl
  | cons id rest inductionHypothesis =>
      unfold completeAll
      rw [recast_completeInput]
      rcases builder.completeInput id with ⟨answer, fed⟩
      cases answer with
      | error error => rfl
      | ok done =>
          dsimp only
          rw [recast_completeOutput]
          rcases fed.completeOutput id with ⟨answer, closed⟩
          cases answer with
          | error error => rfl
          | ok done => exact inductionHypothesis closed

/-- With another factory the build is answered alike, and a built graph has the same of
everything but channels. -/
theorem recast_build [Signature β] :
    ((builder.recast kind).build : Outcome (Graph β α μ) (Builder β α)).1 =
      builder.build.1.map (fun graph => { graph with bank := graph.bank.recast kind }) := by
  have completed : (builder.recast kind).complete =
      (builder.complete.1, builder.complete.2.recast kind) :=
    recast_completeAll kind builder (List.range builder.drafts.length)
  unfold build
  rw [completed]
  rcases builder.complete with ⟨answer, after⟩
  cases answer with
  | error error => rfl
  | ok done =>
      have drafts : (after.recast kind).drafts = after.drafts := rfl
      dsimp only
      rw [drafts]
      cases (finishAll 0 after.drafts : Except Error (List (Worker β μ))) <;> rfl

end

/-- The builder after calls whose channels all come from the given factory. -/
def assemble [Signature β] (factory : ChannelFactory) (calls : List (Call β α)) : Builder β α :=
  performAll { factory := factory } (calls.map (Call.supplied factory.kind))

theorem assemble_eq_recast [Signature β] (kind : ChannelKind) (factory : ChannelFactory)
    (calls : List (Call β α)) :
    assemble { factory with kind := kind } calls = (assemble factory calls).recast kind :=
  recast_performAll kind { factory := factory } factory.kind calls

theorem assemble_assembled [Signature β] (factory : ChannelFactory) (calls : List (Call β α)) :
    (assemble factory calls).Assembled :=
  ((coherent_fresh factory).performAll (.fresh factory) _).1

theorem bank_of_assemble [Signature β] {factory : ChannelFactory} {calls : List (Call β α)}
    {graph : Graph β α μ} (built : (assemble factory calls).build.1 = .ok graph) :
    graph.bank = graph.bank.recast factory.kind := by
  have again := recast_build (μ := μ) factory.kind (assemble factory calls)
  rw [← assemble_eq_recast, built] at again
  exact congrArg Graph.bank (Except.ok.inj again)

end Builder

end DemandFlow
