import DemandFlow.Channel.Factory
import DemandFlow.Graph.Basic
import DemandFlow.Graph.Element

/-!
Assembling graphs. A builder collects workers, channels, portals and constraints;
channels between workers come from its factory, and every request to the factory is
on record. An operation that is refused leaves the builder as it was, except that a
structured stream keeps the parts expanded before the failure.
-/

set_option autoImplicit false

namespace DemandFlow

structure Draft (β : Type) where
  name : String
  kind : WorkerKind
  inputs : List Port := []
  outputs : List Port := []
  body : β

/-- A portal with the body type its messages are for and the workers registered on it. -/
structure PortalEntry where
  recipient : BodyType
  workers : List WorkerId := []
  deriving DecidableEq

/-- A request for a channel; an open end has no worker. -/
structure ChannelRequest where
  producer : Option WorkerId
  consumer : Option WorkerId
  deriving DecidableEq

structure Builder (β α : Type) where
  drafts : List (Draft β) := []
  bank : Bank α := {}
  portals : List PortalEntry := []
  constraints : List Constraint := []
  factory : ChannelFactory := {}
  /-- The requests the factory has had, oldest first. -/
  requests : List ChannelRequest := []

namespace Builder

variable {β α : Type}

def labelOf (id : WorkerId) (draft : Draft β) : Label :=
  { name := draft.name, id := id }

def draft (builder : Builder β α) (id : WorkerId) : Except Error (Draft β) :=
  match builder.drafts[id]? with
  | none => .error (.invalidGraph (.unknownWorker id))
  | some draft => .ok draft

def setDraft (builder : Builder β α) (id : WorkerId) (change : Draft β → Draft β) :
    Builder β α :=
  { builder with drafts := builder.drafts.modify id change }

def addWorker (builder : Builder β α) (kind : WorkerKind) (spec : WorkerSpec β) :
    WorkerId × Builder β α :=
  (builder.drafts.length,
    { builder with
      drafts := builder.drafts ++ [{ name := spec.name, kind := kind, body := spec.body }] })

def checkInput (builder : Builder β α) (id : WorkerId) : Except Error Unit :=
  match builder.draft id with
  | .error error => .error error
  | .ok draft =>
      if draft.kind.acceptsInput draft.inputs.length then .ok ()
      else .error (.invalidGraph (.inputTaken draft.kind (labelOf id draft)))

def checkOutput (builder : Builder β α) (id : WorkerId) : Except Error Unit :=
  match builder.draft id with
  | .error error => .error error
  | .ok draft =>
      if draft.kind.acceptsOutput draft.outputs.length then .ok ()
      else .error (.invalidGraph (.outputTaken draft.kind (labelOf id draft)))

def addSlot (builder : Builder β α) (slot : Slot α) : ChannelId × Builder β α :=
  (builder.bank.size, { builder with bank := builder.bank.add slot })

def addInput (builder : Builder β α) (id : WorkerId) (port : Port) : Builder β α :=
  builder.setDraft id (fun draft => { draft with inputs := draft.inputs ++ [port] })

def addOutput (builder : Builder β α) (id : WorkerId) (port : Port) : Builder β α :=
  builder.setDraft id (fun draft => { draft with outputs := draft.outputs ++ [port] })

def noteRequest (builder : Builder β α) (request : ChannelRequest) : Builder β α :=
  { builder with requests := builder.requests ++ [request] }

/-- A new channel from the factory. Where the program ends, the builder is left alone. -/
def requestChannel (builder : Builder β α) (request : ChannelRequest) :
    Outcome (Slot α) (Builder β α) :=
  match builder.factory.make with
  | .error error => (.error error, builder)
  | .ok slot => (.ok slot, builder.noteRequest request)

def connect (builder : Builder β α) (producer consumer : WorkerId) :
    Outcome ChannelId (Builder β α) :=
  if producer = consumer then
    (.error (.invalidGraph (.selfLoop producer)), builder)
  else
    match builder.checkOutput producer with
    | .error error => (.error error, builder)
    | .ok () =>
        match builder.checkInput consumer with
        | .error error => (.error error, builder)
        | .ok () =>
            match builder.requestChannel
              { producer := some producer, consumer := some consumer } with
            | (.error error, builder) => (.error error, builder)
            | (.ok slot, builder) =>
                let (id, builder) := builder.addSlot slot
                (.ok id,
                  (builder.addOutput producer { peer := some consumer, channel := id }).addInput
                    consumer { peer := some producer, channel := id })

def attachInput (builder : Builder β α) (worker : WorkerId) (slot : Slot α) :
    Outcome ChannelId (Builder β α) :=
  match builder.checkInput worker with
  | .error error => (.error error, builder)
  | .ok () =>
      let (id, builder) := builder.addSlot slot
      (.ok id, builder.addInput worker { peer := none, channel := id })

def attachOutput (builder : Builder β α) (worker : WorkerId) (slot : Slot α) :
    Outcome ChannelId (Builder β α) :=
  match builder.checkOutput worker with
  | .error error => (.error error, builder)
  | .ok () =>
      let (id, builder) := builder.addSlot slot
      (.ok id, builder.addOutput worker { peer := none, channel := id })

def addPortal (builder : Builder β α) (recipient : BodyType) : Portal × Builder β α :=
  ({ id := builder.portals.length, recipient := recipient },
    { builder with portals := builder.portals ++ [{ recipient := recipient }] })

/-- Registers a worker on a portal. The handle may come from another builder, so the
worker is checked against the handle and the handle against the portal of its number. -/
def register [Signature β] (builder : Builder β α) (portal : Portal) (worker : WorkerId) :
    Outcome Unit (Builder β α) :=
  match builder.draft worker with
  | .error error => (.error error, builder)
  | .ok draft =>
      if Signature.typeOf draft.body ≠ portal.recipient then
        (.error (.malformedConstraint
          (.bodyTypeMismatch (labelOf worker draft) portal.recipient)), builder)
      else
        match builder.portals[portal.id]? with
        | none => (.error (.malformedConstraint (.unknownPortal portal.id)), builder)
        | some entry =>
            if entry.recipient ≠ portal.recipient then
              (.error (.malformedConstraint
                (.portalTypeMismatch portal.id entry.recipient)), builder)
            else if entry.workers.contains worker then
              (.ok (), builder)
            else
              (.ok (),
                { builder with
                  portals := builder.portals.set portal.id
                    { entry with workers := entry.workers ++ [worker] } })

/-- Declares a message constraint. The recipient must already be registered, and a route
is declared at most once. -/
def addConstraint (builder : Builder β α) (constraint : Constraint) :
    Outcome Unit (Builder β α) :=
  match builder.draft constraint.sender, builder.draft constraint.recipient with
  | .error error, _ => (.error error, builder)
  | .ok _, .error error => (.error error, builder)
  | .ok _, .ok _ =>
      match builder.portals[constraint.portal]? with
      | none => (.error (.malformedConstraint (.unknownPortal constraint.portal)), builder)
      | some entry =>
          if !entry.workers.contains constraint.recipient then
            (.error (.malformedConstraint
              (.notRegistered constraint.recipient constraint.portal)), builder)
          else if builder.constraints.any (fun declared => declared.sameRoute constraint) then
            (.error (.malformedConstraint (.duplicate constraint.summary)), builder)
          else
            (.ok (), { builder with constraints := builder.constraints ++ [constraint] })

/-! ### Structured streams -/

mutual

/-- Expands a structured stream into workers and channels and gives its first and last
worker. -/
def addStream (builder : Builder β α) :
    Element β → Outcome (WorkerId × WorkerId) (Builder β α)
  | .filter spec =>
      let (id, builder) := builder.addWorker .filter spec
      (.ok (id, id), builder)
  | .pipeline children => addPipeline builder none children
  | .splitjoin splitter branches joiner =>
      if branches.isEmpty then
        (.error (.invalidGraph (.noBranches splitter.name)), builder)
      else
        let (split, builder) := builder.addWorker .splitter splitter
        let (join, builder) := builder.addWorker .joiner joiner
        match addBranches builder split join branches with
        | (.error error, builder) => (.error error, builder)
        | (.ok (), builder) => (.ok (split, join), builder)

def addPipeline (builder : Builder β α) (ends : Option (WorkerId × WorkerId)) :
    List (Element β) → Outcome (WorkerId × WorkerId) (Builder β α)
  | [] =>
      match ends with
      | none => (.error (.invalidGraph .emptyPipeline), builder)
      | some ends => (.ok ends, builder)
  | child :: rest =>
      match addStream builder child with
      | (.error error, builder) => (.error error, builder)
      | (.ok (head, tail), builder) =>
          match ends with
          | none => addPipeline builder (some (head, tail)) rest
          | some (first, previous) =>
              match builder.connect previous head with
              | (.error error, builder) => (.error error, builder)
              | (.ok _, builder) => addPipeline builder (some (first, tail)) rest

def addBranches (builder : Builder β α) (split join : WorkerId) :
    List (Element β) → Outcome Unit (Builder β α)
  | [] => (.ok (), builder)
  | branch :: rest =>
      match addStream builder branch with
      | (.error error, builder) => (.error error, builder)
      | (.ok (head, tail), builder) =>
          match builder.connect split head with
          | (.error error, builder) => (.error error, builder)
          | (.ok _, builder) =>
              match builder.connect tail join with
              | (.error error, builder) => (.error error, builder)
              | (.ok _, builder) => addBranches builder split join rest

end

/-! ### Building -/

def completeInput (builder : Builder β α) (id : WorkerId) : Outcome Unit (Builder β α) :=
  match builder.draft id with
  | .error error => (.error error, builder)
  | .ok draft =>
      if !draft.inputs.isEmpty then
        (.ok (), builder)
      else if draft.kind = .joiner then
        (.error (.invalidGraph (.joinerWithoutInputs (labelOf id draft))), builder)
      else
        match builder.requestChannel { producer := none, consumer := some id } with
        | (.error error, builder) => (.error error, builder)
        | (.ok slot, builder) =>
            let (answer, builder) := builder.attachInput id slot
            (answer.map (fun _ => ()), builder)

def completeOutput (builder : Builder β α) (id : WorkerId) : Outcome Unit (Builder β α) :=
  match builder.draft id with
  | .error error => (.error error, builder)
  | .ok draft =>
      if !draft.outputs.isEmpty then
        (.ok (), builder)
      else if draft.kind = .splitter then
        (.error (.invalidGraph (.splitterWithoutOutputs (labelOf id draft))), builder)
      else
        match builder.requestChannel { producer := some id, consumer := none } with
        | (.error error, builder) => (.error error, builder)
        | (.ok slot, builder) =>
            let (answer, builder) := builder.attachOutput id slot
            (answer.map (fun _ => ()), builder)

def completeAll (builder : Builder β α) : List WorkerId → Outcome Unit (Builder β α)
  | [] => (.ok (), builder)
  | id :: rest =>
      match builder.completeInput id with
      | (.error error, builder) => (.error error, builder)
      | (.ok (), builder) =>
          match builder.completeOutput id with
          | (.error error, builder) => (.error error, builder)
          | (.ok (), builder) => builder.completeAll rest

def complete (builder : Builder β α) : Outcome Unit (Builder β α) :=
  builder.completeAll (List.range builder.drafts.length)

def finish {μ : Type} [Signature β] (id : WorkerId) (draft : Draft β) :
    Except Error (Worker β μ) :=
  let shape : PortShape := { inputs := draft.inputs.length, outputs := draft.outputs.length }
  let rates := Signature.rates draft.body shape
  if rates.fits shape then
    .ok
      { id := id
        name := draft.name
        kind := draft.kind
        inputs := draft.inputs
        outputs := draft.outputs
        rates := rates
        bodyType := Signature.typeOf draft.body
        body := draft.body }
  else
    .error (.invalidGraph (.ratesMismatch (labelOf id draft) rates.peek.length rates.pop.length
      rates.push.length shape))

def finishAll {μ : Type} [Signature β] (first : WorkerId) :
    List (Draft β) → Except Error (List (Worker β μ))
  | [] => .ok []
  | draft :: rest =>
      match finish first draft with
      | .error error => .error error
      | .ok worker =>
          match finishAll (first + 1) rest with
          | .error error => .error error
          | .ok workers => .ok (worker :: workers)

def edgesOf {μ : Type} (worker : Worker β μ) : List Edge :=
  worker.outputs.filterMap fun port =>
    port.peer.map fun consumer =>
      { producer := worker.id, consumer := consumer, channel := port.channel }

/-- Builds the graph: missing boundary channels are attached, rates are resolved and
checked, and the connections are listed. The builder is given back as the last step left
it. -/
def build {μ : Type} [Signature β] (builder : Builder β α) :
    Outcome (Graph β α μ) (Builder β α) :=
  match builder.complete with
  | (.error error, builder) => (.error error, builder)
  | (.ok (), builder) =>
      match finishAll 0 builder.drafts with
      | .error error => (.error error, builder)
      | .ok workers =>
          (.ok
            { workers := workers
              bank := builder.bank
              constraints := builder.constraints
              recipients := builder.portals.map PortalEntry.workers
              topology := workers.flatMap edgesOf },
            builder)

end Builder

end DemandFlow
