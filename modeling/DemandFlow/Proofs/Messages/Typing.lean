import DemandFlow.Proofs.Interpreter.Exactness
import DemandFlow.Proofs.Messages.Custody
import DemandFlow.Proofs.Stream.Expansion

/-!
Messages are typed. A worker is let onto a portal only if its body has the type that the portal
was made for, and that check is the last one until the message is delivered. It is enough: as
long as bodies send through portals of the builder that made the graph, and nobody puts messages
into queues by hand, all that waits for a worker is meant for the type of its body, and neither
routing nor delivery ever finds a message that it cannot place.
-/

set_option autoImplicit false

namespace DemandFlow

variable {β α μ : Type}

/-! ### Portals of a builder -/

namespace Builder

/-- The handle is one that the builder has given out, for bodies of the type it was made for. -/
def Issues (builder : Builder β α) (portal : Portal) : Prop :=
  ∃ entry, builder.portals[portal.id]? = some entry ∧ entry.recipient = portal.recipient

variable [Signature β]

def typeOf? (builder : Builder β α) (id : WorkerId) : Option BodyType :=
  builder.drafts[id]?.map (fun draft => Signature.typeOf draft.body)

/-- Whoever is registered on a portal has a body of the type the portal was made for. -/
def WellTyped (builder : Builder β α) : Prop :=
  ∀ entry ∈ builder.portals, ∀ id ∈ entry.workers, builder.typeOf? id = some entry.recipient

structure SameTypes (before after : Builder β α) : Prop where
  portals : after.portals = before.portals
  types : ∀ id, after.typeOf? id = before.typeOf? id

theorem SameTypes.refl (builder : Builder β α) : builder.SameTypes builder :=
  ⟨rfl, fun _ => rfl⟩

theorem SameTypes.trans {first second third : Builder β α} (earlier : first.SameTypes second)
    (later : second.SameTypes third) : first.SameTypes third :=
  ⟨later.portals.trans earlier.portals, fun id => (later.types id).trans (earlier.types id)⟩

theorem SameTypes.of_bodies {before after : Builder β α}
    (portals : after.portals = before.portals)
    (bodies : ∀ id : Nat, after.drafts[id]?.map Draft.body = before.drafts[id]?.map Draft.body) :
    before.SameTypes after := by
  refine ⟨portals, ?_⟩
  intro id
  have same := congrArg (Option.map Signature.typeOf) (bodies id)
  rwa [Option.map_map, Option.map_map] at same

theorem SameTypes.wellTyped {before after : Builder β α} (same : before.SameTypes after)
    (typed : before.WellTyped) : after.WellTyped := by
  unfold WellTyped
  simp only [same.portals, same.types]
  exact typed

theorem sameTypes_connect (builder : Builder β α) (producer consumer : WorkerId) :
    builder.SameTypes (builder.connect producer consumer).2 := by
  rcases builder.connect_cases producer consumer with ⟨error, refused⟩ | links
  · rw [refused]
    exact .refl builder
  · rw [links.connect_eq]
    exact .of_bodies rfl fun id =>
      (bodies_addInput _ consumer _ id).trans (bodies_addOutput _ producer _ id)

theorem sameTypes_attachInput (builder : Builder β α) (worker : WorkerId) (slot : Slot α) :
    builder.SameTypes (builder.attachInput worker slot).2 := by
  unfold attachInput
  split
  next => exact .refl builder
  next => exact .of_bodies rfl fun id => bodies_addInput _ worker _ id

theorem sameTypes_attachOutput (builder : Builder β α) (worker : WorkerId) (slot : Slot α) :
    builder.SameTypes (builder.attachOutput worker slot).2 := by
  unfold attachOutput
  split
  next => exact .refl builder
  next => exact .of_bodies rfl fun id => bodies_addOutput _ worker _ id

theorem sameTypes_noteRequest (builder : Builder β α) (request : ChannelRequest) :
    builder.SameTypes (builder.noteRequest request) :=
  ⟨rfl, fun _ => rfl⟩

private theorem sameTypes_completeInput (builder : Builder β α) (id : WorkerId) :
    builder.SameTypes (builder.completeInput id).2 := by
  unfold completeInput
  split
  next => exact .refl builder
  next =>
    split
    next => exact .refl builder
    next =>
      split
      next => exact .refl builder
      next =>
        split
        next refused =>
          rw [requestChannel_eq_error refused]
          exact .refl builder
        next made =>
          rw [(requestChannel_eq_ok made).2.2]
          exact (sameTypes_noteRequest builder _).trans (sameTypes_attachInput _ id _)

private theorem sameTypes_completeOutput (builder : Builder β α) (id : WorkerId) :
    builder.SameTypes (builder.completeOutput id).2 := by
  unfold completeOutput
  split
  next => exact .refl builder
  next =>
    split
    next => exact .refl builder
    next =>
      split
      next => exact .refl builder
      next =>
        split
        next refused =>
          rw [requestChannel_eq_error refused]
          exact .refl builder
        next made =>
          rw [(requestChannel_eq_ok made).2.2]
          exact (sameTypes_noteRequest builder _).trans (sameTypes_attachOutput _ id _)

private theorem sameTypes_completeAll (builder : Builder β α) (ids : List WorkerId) :
    builder.SameTypes (builder.completeAll ids).2 := by
  induction ids generalizing builder with
  | nil => exact .refl builder
  | cons id rest inductionHypothesis =>
      have withInput := builder.sameTypes_completeInput id
      unfold completeAll
      split
      next outcome => rw [outcome] at withInput; exact withInput
      next after outcome =>
        rw [outcome] at withInput
        have withOutput := after.sameTypes_completeOutput id
        split
        next outcome => rw [outcome] at withOutput; exact withInput.trans withOutput
        next outcome =>
          rw [outcome] at withOutput
          exact (withInput.trans withOutput).trans (inductionHypothesis _)

theorem WellTyped.addWorker {builder : Builder β α} (typed : builder.WellTyped)
    (kind : WorkerKind) (spec : WorkerSpec β) : (builder.addWorker kind spec).2.WellTyped := by
  intro entry member id registered
  have known := typed entry member id registered
  have within : id < builder.drafts.length := by
    rcases Option.map_eq_some_iff.mp known with ⟨draft, found, _⟩
    exact (List.getElem?_eq_some_iff.mp found).1
  unfold typeOf? Builder.addWorker
  dsimp only
  rw [List.getElem?_append_left within]
  exact known

private theorem WellTyped.addPortal {builder : Builder β α} (typed : builder.WellTyped)
    (recipient : BodyType) : (builder.addPortal recipient).2.WellTyped := by
  intro entry member id registered
  rcases List.mem_append.mp member with old | new
  · exact typed entry old id registered
  · rw [List.mem_singleton] at new
    subst new
    cases registered

/-- The one check of types: the worker is compared with the handle, and the handle with the
portal. -/
theorem WellTyped.register {builder : Builder β α} (typed : builder.WellTyped) (portal : Portal)
    (worker : WorkerId) : (builder.register portal worker).2.WellTyped := by
  unfold Builder.register
  split
  next => exact typed
  next draft drafted =>
    split
    next => exact typed
    next fits =>
      split
      next => exact typed
      next entry found =>
        split
        next => exact typed
        next sameType =>
          split
          next => exact typed
          next =>
            rw [not_not] at fits sameType
            intro other member id registered
            rcases List.mem_or_eq_of_mem_set member with old | rfl
            · exact typed other old id registered
            · rcases List.mem_append.mp registered with before | added
              · exact typed entry (List.mem_of_getElem? found) id before
              · rw [List.mem_singleton] at added
                subst added
                have place := draft_eq_ok drafted
                have known : builder.typeOf? id = some (Signature.typeOf draft.body) :=
                  Option.map_eq_some_iff.mpr ⟨draft, place, rfl⟩
                exact known.trans (congrArg some (fits.trans sameType.symm))

private theorem WellTyped.addConstraint {builder : Builder β α} (typed : builder.WellTyped)
    (constraint : Constraint) : (builder.addConstraint constraint).2.WellTyped := by
  unfold Builder.addConstraint
  split
  next => exact typed
  next => exact typed
  next =>
    split
    next => exact typed
    next =>
      split
      next => exact typed
      next =>
        split
        next => exact typed
        next => exact typed

private theorem WellTyped.keptByGrowth : KeptByGrowth (WellTyped (β := β) (α := α)) where
  worker := fun _ kind spec typed => typed.addWorker kind spec
  connection := fun builder producer consumer typed =>
    (builder.sameTypes_connect producer consumer).wellTyped typed

private theorem Assembled.wellTyped {builder : Builder β α} (assembled : builder.Assembled) :
    builder.WellTyped := by
  induction assembled with
  | fresh factory => exact fun entry member => by cases member
  | pooled pool before inductionHypothesis => exact inductionHypothesis
  | addWorker kind spec before inductionHypothesis => exact inductionHypothesis.addWorker kind spec
  | connect producer consumer before inductionHypothesis =>
      exact (sameTypes_connect _ producer consumer).wellTyped inductionHypothesis
  | attachInput worker slot before inductionHypothesis =>
      exact (sameTypes_attachInput _ worker slot).wellTyped inductionHypothesis
  | attachOutput worker slot before inductionHypothesis =>
      exact (sameTypes_attachOutput _ worker slot).wellTyped inductionHypothesis
  | addPortal recipient before inductionHypothesis =>
      exact inductionHypothesis.addPortal recipient
  | register portal worker before inductionHypothesis =>
      exact inductionHypothesis.register portal worker
  | addConstraint constraint before inductionHypothesis =>
      exact inductionHypothesis.addConstraint constraint
  | addStream element before inductionHypothesis =>
      exact WellTyped.keptByGrowth.addStream element _ inductionHypothesis

private theorem bodyTypes_finishAll {drafts : List (Draft β)} {first : WorkerId}
    {workers : List (Worker β μ)} (made : finishAll first drafts = .ok workers) :
    workers.map Worker.bodyType = drafts.map (fun draft => Signature.typeOf draft.body) := by
  induction drafts generalizing first workers with
  | nil =>
      cases made
      rfl
  | cons draft rest inductionHypothesis =>
      unfold finishAll at made
      split at made
      next => cases made
      next worker finished =>
        split at made
        next => cases made
        next others remaining =>
          cases made
          unfold finish at finished
          dsimp only at finished
          split at finished
          next =>
            cases finished
            rw [List.map_cons, List.map_cons, inductionHypothesis remaining]
          next => cases finished

end Builder

def GraphFrame.Addresses (frame : GraphFrame) (portal : Portal) : Prop :=
  ∃ recipients, frame.recipients[portal.id]? = some recipients ∧
    ∀ recipient ∈ recipients, ∃ worker, frame.workers[recipient]? = some worker ∧
      worker.bodyType = portal.recipient

private theorem Builder.addresses_of_build [Signature β] {builder : Builder β α}
    (assembled : builder.Assembled) {graph : Graph β α μ} (made : builder.build.1 = .ok graph)
    {portal : Portal} (issued : builder.Issues portal) : graph.frame.Addresses portal := by
  rcases Graph.build_view made with
    ⟨after, workers, completed, finished, workersEq, _, _, recipientsEq⟩
  rcases issued with ⟨entry, found, sameType⟩
  have same := builder.sameTypes_completeAll (List.range builder.drafts.length)
  unfold complete at completed
  rw [completed] at same
  have place : after.portals[portal.id]? = some entry := by
    rw [same.portals]
    exact found
  refine ⟨entry.workers, ?_, ?_⟩
  · change graph.recipients[portal.id]? = some entry.workers
    rw [recipientsEq, List.getElem?_map, place]
    rfl
  · intro recipient registered
    have typed := same.wellTyped assembled.wellTyped entry (List.mem_of_getElem? place) recipient
      registered
    have types : (workers.map Worker.bodyType)[recipient]? = some entry.recipient := by
      rw [bodyTypes_finishAll finished, List.getElem?_map]
      exact typed
    rw [List.getElem?_map] at types
    rcases Option.map_eq_some_iff.mp types with ⟨worker, known, type⟩
    refine ⟨worker.frame, ?_, type.trans sameType⟩
    rw [Graph.frame_get, Graph.worker?, workersEq, known]
    rfl

def Worker.Typed (worker : Worker β μ) : Prop :=
  ∀ message ∈ worker.queue.messages, message.recipient = worker.bodyType

/-- From such a queue deliveries find a body for each message; they may still come too late. -/
theorem Worker.typed_deliver [Recipient β μ] {worker : Worker β μ} {messages : List (Message μ)}
    (all : ∀ message ∈ messages, message.recipient = worker.bodyType) :
    (worker.deliver messages).2.Typed ∧
      ∀ fault, (worker.deliver messages).1 ≠ .error (.messageDelivery fault) := by
  induction messages generalizing worker with
  | nil => exact ⟨fun message member => (by cases member), fun fault same => by cases same⟩
  | cons message rest inductionHypothesis =>
      unfold deliver
      split
      next => exact ⟨all, fun fault same => by cases same⟩
      next =>
        split
        next => exact ⟨all, fun fault same => by cases same⟩
        next =>
          rw [if_pos (all message (List.mem_cons_self ..))]
          exact inductionHypothesis fun other member => all other (List.mem_cons_of_mem _ member)

private theorem Worker.Typed.enqueue {worker : Worker β μ} (typed : worker.Typed)
    {message : Message μ} (fits : message.recipient = worker.bodyType) :
    (worker.enqueue message).Typed := by
  intro other member
  rcases MessageQueue.mem_insert.mp member with rfl | old
  · exact fits
  · exact typed other old

namespace Graph

def Typed (graph : Graph β α μ) : Prop :=
  ∀ id worker, graph.worker? id = some worker → worker.Typed

theorem Typed.of_workers_eq {left right : Graph β α μ} (typed : left.Typed)
    (same : right.workers = left.workers) : right.Typed := by
  intro id worker known
  unfold worker? at known
  rw [same] at known
  exact typed id worker known

private theorem Fresh.typed {graph : Graph β α μ} (fresh : graph.Fresh) : graph.Typed := by
  intro id worker known message member
  rw [(fresh id worker known).2] at member
  cases member

/-- The messages in the graph are typed, and nothing has failed for a message without a
place. -/
structure Placed (outcome : Outcome Unit (Graph β α μ)) : Prop where
  typed : outcome.2.Typed
  found : ∀ fault, outcome.1 ≠ .error (.messageDelivery fault)

private theorem Typed.routeTo {graph : Graph β α μ} (typed : graph.Typed) {outgoing : Outgoing μ}
    {recipient : WorkerId} {frame : WorkerFrame}
    (listed : graph.frame.workers[recipient]? = some frame)
    (fits : frame.bodyType = outgoing.portal.recipient) (sender : WorkerId) (sent : Nat) :
    Placed (graph.routeTo sender sent outgoing recipient) := by
  have view := graph.routeTo_view sender sent outgoing recipient
  generalize graph.routeTo sender sent outgoing recipient = outcome at view
  cases view with
  | undeclared absent => exact ⟨typed, fun fault same => by cases same⟩
  | unknown absent => exact ⟨typed, fun fault same => by cases same⟩
  | late declared known passed => exact ⟨typed, fun fault same => by cases same⟩
  | @queued constraint worker declared known inTime =>
      rw [frame_get, known] at listed
      cases listed
      exact ⟨forall_setWorker typed ((typed recipient worker known).enqueue fits.symm),
        fun fault same => by cases same⟩

private theorem Typed.routeAll {graph : Graph β α μ} (typed : graph.Typed) {outgoing : Outgoing μ}
    {recipients : List WorkerId}
    (fit : ∀ recipient ∈ recipients, ∃ worker, graph.frame.workers[recipient]? = some worker ∧
      worker.bodyType = outgoing.portal.recipient) (sender : WorkerId) (sent : Nat) :
    Placed (graph.routeAll sender sent outgoing recipients) := by
  induction recipients generalizing graph with
  | nil => exact ⟨typed, fun fault same => by cases same⟩
  | cons recipient rest inductionHypothesis =>
      rw [List.forall_mem_cons] at fit
      rcases fit with ⟨⟨worker, listed, fits⟩, others⟩
      have first := typed.routeTo listed fits sender sent
      have frame := graph.frame_routeTo sender sent outgoing recipient
      unfold Graph.routeAll
      split
      next error left routed =>
        rw [routed] at first
        exact ⟨first.typed, fun fault same => first.found fault (by rw [same])⟩
      next left routed =>
        rw [routed] at first frame
        exact inductionHypothesis first.typed (frame ▸ others)

private theorem Typed.routeOutbox {graph : Graph β α μ} (typed : graph.Typed)
    {outbox : List (Outgoing μ)}
    (addressed : ∀ outgoing ∈ outbox, graph.frame.Addresses outgoing.portal) (sender : WorkerId)
    (sent : Nat) : Placed (graph.routeOutbox sender sent outbox) := by
  induction outbox generalizing graph with
  | nil => exact ⟨typed, fun fault same => by cases same⟩
  | cons outgoing rest inductionHypothesis =>
      rw [List.forall_mem_cons] at addressed
      rcases addressed with ⟨⟨recipients, listed, fit⟩, others⟩
      have known : graph.recipients[outgoing.portal.id]? = some recipients := listed
      have first := typed.routeAll fit sender sent
      have frame := graph.frame_routeAll sender sent outgoing recipients
      unfold Graph.routeOutbox
      rw [known]
      dsimp only
      split
      next error left routed =>
        rw [routed] at first
        exact ⟨first.typed, fun fault same => first.found fault (by rw [same])⟩
      next left routed =>
        rw [routed] at first frame
        exact inductionHypothesis first.typed (frame ▸ others)

variable [Recipient β μ] [Work β α μ]

/-- What a firing of the worker would hand over to be routed: the messages of its work, if it
gets to work and succeeds. -/
def sent (graph : Graph β α μ) (id : WorkerId) : List (Outgoing μ) :=
  match graph.worker? id with
  | none => []
  | some worker =>
      match worker.deliverDue with
      | (.error _, _) => []
      | (.ok (), ready) =>
          match graph.runBody id ready with
          | ((.error _, _), _) => []
          | ((.ok (), _), scene) => scene.outbox

/-- A firing of the worker would get to work, and the work itself would answer the error. -/
def WorkFails (graph : Graph β α μ) (id : WorkerId) (error : Error) : Prop :=
  ∃ worker ready body scene, graph.worker? id = some worker ∧
    worker.deliverDue = (.ok (), ready) ∧
    graph.runBody id ready = ((.error error, body), scene)

/-- A firing that sends to portals the graph can address keeps queues typed. If a message is
said to have no place, it is the body that says so. -/
theorem Typed.fire {graph : Graph β α μ} (typed : graph.Typed) (id : WorkerId)
    (addressed : ∀ outgoing ∈ graph.sent id, graph.frame.Addresses outgoing.portal) :
    (graph.fire id).2.Typed ∧
      ∀ fault, (graph.fire id).1 = .error (.messageDelivery fault) →
        graph.WorkFails id (.messageDelivery fault) := by
  have delivered {worker left : Worker β μ} {answer : Except Error Unit}
      (known : graph.worker? id = some worker) (delivery : worker.deliverDue = (answer, left)) :
      left.Typed ∧ ∀ fault, answer ≠ .error (.messageDelivery fault) := by
    have kept := Worker.typed_deliver (typed id worker known)
    unfold Worker.deliverDue at delivery
    rw [delivery] at kept
    exact kept
  have view := graph.fire_view id
  generalize graph.fire id = outcome at view
  cases view with
  | unknown absent => exact ⟨typed, fun fault same => by cases same⟩
  | undelivered known delivery =>
      have here := delivered known delivery
      exact ⟨forall_setWorker typed here.1, fun fault same => absurd same (here.2 fault)⟩
  | @failed worker ready error body scene known delivery run =>
      have here : ready.Typed := (delivered known delivery).1
      refine ⟨forall_setWorker typed here, ?_⟩
      intro fault same
      cases same
      exact ⟨worker, ready, body, scene, known, delivery, run⟩
  | @worked worker ready body scene _ known delivery run routing =>
      have here : ready.Typed := (delivered known delivery).1
      have placed : (graph.worked id ready body scene.bank).Typed :=
        forall_setWorker typed here
      have keys := graph.keys_runBody id ready
      rw [run] at keys
      have frame := graph.frame_worked known (Worker.frame_deliverDue delivery) body keys
      have outbox : graph.sent id = scene.outbox := by
        unfold sent
        rw [known]
        dsimp only
        rw [delivery]
        dsimp only
        rw [run]
      rw [outbox, ← frame] at addressed
      have routed := placed.routeOutbox addressed id ready.executions
      rw [routing] at routed
      exact ⟨routed.typed, fun fault same => absurd same (routed.found fault)⟩

omit [Recipient β μ] [Work β α μ] in
/-- The messages in the graph are typed, and the graph can address the given portals. -/
structure Delivers (issued : Portal → Prop) (graph : Graph β α μ) : Prop where
  typed : graph.Typed
  addresses : ∀ portal, issued portal → graph.frame.Addresses portal

end Graph

namespace Interpreter

variable [Recipient β μ] [Work β α μ]

/-- What the look hands over to be routed; nothing, if it does not fire its top. -/
def Look.sent (look : Look β α μ) : List (Outgoing μ) :=
  match look.stack with
  | [] => []
  | current :: waiting =>
      match look.interpreter.graph.worker? current with
      | none => []
      | some worker =>
          if waiting.contains current then []
          else
            match worker.starvedInput look.interpreter.graph.bank with
            | .ok none =>
                match look.interpreter.dueSender? current worker.upcoming with
                | none => look.interpreter.graph.sent current
                | some _ => []
            | _ => []

private theorem Look.sent_of_ready {interpreter : Interpreter β α μ} {current : WorkerId}
    {waiting : List WorkerId} {worker : Worker β μ} (ready : interpreter.Ready current worker)
    (free : current ∉ waiting) :
    (Look.mk (current :: waiting) interpreter).sent = interpreter.graph.sent current := by
  unfold sent
  dsimp only
  rw [ready.known]
  dsimp only
  rw [if_neg (by rwa [List.contains_iff_mem]), ready.fed]
  dsimp only
  rw [ready.punctual]

theorem PullView.typed {interpreter : Interpreter β α μ} {current : WorkerId}
    {waiting : List WorkerId} {step : PullStep β α μ}
    (view : PullView interpreter current waiting step) (typed : interpreter.graph.Typed)
    (addressed : ∀ outgoing ∈ (Look.mk (current :: waiting) interpreter).sent,
      interpreter.graph.frame.Addresses outgoing.portal) :
    step.left.graph.Typed ∧
      ∀ fault left, step = .stop (.error (.messageDelivery fault)) left →
        interpreter.graph.WorkFails current (.messageDelivery fault) := by
  have fires {worker : Worker β μ} (ready : interpreter.Ready current worker)
      (free : current ∉ waiting) :=
    typed.fire current (by rwa [← Look.sent_of_ready ready free])
  have follows {graph left : Graph β α μ} {answer : Except Error Unit} (kept : graph.Typed)
      (follow : interpreter.delegate.afterFire (interpreter.stats.firings + 1) graph current =
        (answer, left)) : left.Typed := by
    have counted := interpreter.delegate.afterFire_sameButCounts
      (interpreter.stats.firings + 1) graph current
    rw [follow] at counted
    exact kept.of_workers_eq counted.1
  cases view with
  | unknown absent => exact ⟨typed, fun fault left same => by cases same⟩
  | circular known waits => exact ⟨typed, fun fault left same => by cases same⟩
  | unsupported known free refused =>
      refine ⟨typed, ?_⟩
      intro fault left same
      cases same
      exact (Worker.starvedFrom_not_postal refused (.inr ⟨fault, rfl⟩)).elim
  | stalled known free starved outside => exact ⟨typed, fun fault left same => by cases same⟩
  | feeder known free starved producer => exact ⟨typed, fun fault left same => by cases same⟩
  | sender known free fed due => exact ⟨typed, fun fault left same => by cases same⟩
  | failed ready free firing =>
      have kept := fires ready free
      rw [firing] at kept
      refine ⟨kept.1, ?_⟩
      intro fault left same
      cases same
      exact kept.2 fault rfl
  | refused ready free firing follow =>
      have kept := fires ready free
      rw [firing] at kept
      refine ⟨follows kept.1 follow, ?_⟩
      intro fault left same
      cases same
      exact (Delegate.afterFire_not_postal follow (.inr ⟨fault, rfl⟩)).elim
  | fired ready free firing follow =>
      have kept := fires ready free
      rw [firing] at kept
      exact ⟨follows kept.1 follow, fun fault left same => by cases same⟩

theorem call_delivers {issued : Portal → Prop} {interpreter : Interpreter β α μ}
    (delivers : interpreter.graph.Delivers issued) {fuel : Nat}
    (sent : ∀ look ∈ interpreter.looks fuel, ∀ outgoing ∈ look.sent, issued outgoing.portal) :
    (∀ look ∈ interpreter.looks fuel, look.interpreter.graph.Delivers issued) ∧
      ∀ answer left, interpreter.interpret fuel = some (answer, left) →
        left.graph.Delivers issued := by
  have carries : Carries (fun now : Interpreter β α μ => now.graph.Delivers issued)
      (interpreter.looks fuel) := by
    intro look member current waiting top holds
    have view := look.interpreter.pullStep_view current waiting
    have frame : (look.interpreter.pullStep current waiting).left.graph.frame =
        look.interpreter.graph.frame :=
      congrArg InterpreterFrame.graph view.frame_left
    constructor
    · refine (view.typed holds.typed ?_).1
      rw [← top]
      exact fun outgoing posted => holds.addresses _ (sent look member outgoing posted)
    · rw [frame]
      exact holds.addresses
  exact looks_carry (fun _ _ holds => holds) carries delivers

/-- The look gets to work, and the work itself answers the error. -/
def Look.WorkFails (look : Look β α μ) (error : Error) : Prop :=
  ∃ current waiting, look.stack = current :: waiting ∧
    look.interpreter.graph.WorkFails current error

end Interpreter

namespace Custody

variable [Recipient β μ] [Work β α μ]

/-- What can be done with a graph such that messages get into queues only by being routed, and
what is routed has been sent through one of the given portals. -/
inductive Routes (issued : Portal → Prop) : Custody β α μ → Custody β α μ → Prop where
  | touch {graph : Graph β α μ} (bank : Bank α) :
      Routes issued (.loose graph) (.loose { graph with bank := bank })
  | alter {graph : Graph β α μ} {id : WorkerId} {worker : Worker β μ}
      (known : graph.worker? id = some worker) (body : β) :
      Routes issued (.loose graph) (.loose (graph.setWorker id { worker with body := body }))
  | wrap {graph : Graph β α μ} {workers : List WorkerId} {given : List Constraint}
      {interpreter : Interpreter β α μ}
      (opened : Interpreter.Opens graph workers given interpreter) :
      Routes issued (.loose graph) (.held interpreter)
  | configure {interpreter : Interpreter β α μ} (delegate : Delegate) (limit : Option Nat) :
      Routes issued (.held interpreter)
        (.held { interpreter with delegate := delegate, maxPasses := limit })
  | traffic {interpreter left : Interpreter β α μ} (traffic : interpreter.Traffic left) :
      Routes issued (.held interpreter) (.held left)
  | call {interpreter left : Interpreter β α μ} {answer : Except Error Bool} (fuel : Nat)
      (sent : ∀ look ∈ interpreter.looks fuel, ∀ outgoing ∈ look.sent, issued outgoing.portal)
      (run : interpreter.interpret fuel = some (answer, left)) :
      Routes issued (.held interpreter) (.held left)
  | unwrap {interpreter : Interpreter β α μ} :
      Routes issued (.held interpreter) (.loose interpreter.graph)

private theorem Routes.delivers {issued : Portal → Prop} {before after : Custody β α μ}
    (step : before.Routes issued after) (delivers : before.graph.Delivers issued) :
    after.graph.Delivers issued := by
  cases step with
  | touch bank => exact ⟨delivers.typed.of_workers_eq rfl, delivers.addresses⟩
  | @alter graph id worker known body =>
      have altered : (graph.setWorker id { worker with body := body }).Typed :=
        Graph.forall_setWorker delivers.typed (delivers.typed id worker known)
      have frame : (graph.setWorker id { worker with body := body }).frame = graph.frame :=
        graph.frame_setWorker known rfl
      exact ⟨altered, fun portal given => frame ▸ delivers.addresses portal given⟩
  | wrap opened =>
      change Graph.Delivers issued (Interpreter.graph _)
      rw [opened.graph_eq]
      exact delivers
  | configure delegate limit => exact delivers
  | traffic traffic =>
      obtain ⟨bank, rfl, _⟩ := traffic.withBank
      exact ⟨delivers.typed.of_workers_eq rfl, delivers.addresses⟩
  | call fuel sent run => exact (Interpreter.call_delivers delivers sent).2 _ _ run
  | unwrap => exact delivers

end Custody

/-- Messages are typed. Take a graph that was built, from whatever calls to its builder, and any
run of interpreters over it, one after another, in which bodies send only through portals that
this builder has given out, and in which messages get into queues only by being routed. Then
at every look of a further call of this kind no queue holds a message that the body of its worker
cannot take; whatever is sent goes through a portal that the graph knows, to workers all of which
have a body of the type that the portal is for; and a call that fails because a message cannot
be placed has had this answer from a body, not from a delivery and not from routing. -/
theorem Custody.messages_are_typed [Signature β] [Recipient β μ] [Work β α μ]
    {builder : Builder β α} (assembled : builder.Assembled) {graph : Graph β α μ}
    (made : builder.build.1 = .ok graph) {interpreter : Interpreter β α μ}
    (run : Relation.ReflTransGen (Routes builder.Issues) (.loose graph) (.held interpreter))
    {fuel : Nat} (sent : ∀ look ∈ interpreter.looks fuel, ∀ outgoing ∈ look.sent,
      builder.Issues outgoing.portal) :
    (∀ look ∈ interpreter.looks fuel,
      (∀ id worker, look.interpreter.graph.worker? id = some worker →
        ∀ fault, worker.deliverDue.1 ≠ .error (.messageDelivery fault)) ∧
      ∀ outgoing ∈ look.sent, ∃ recipients,
        look.interpreter.graph.recipients[outgoing.portal.id]? = some recipients ∧
          ∀ recipient ∈ recipients, ∃ worker,
            look.interpreter.graph.worker? recipient = some worker ∧
              worker.bodyType = outgoing.portal.recipient) ∧
    ∀ fault left, interpreter.interpret fuel = some (.error (.messageDelivery fault), left) →
      ∃ look ∈ interpreter.looks fuel, look.WorkFails (.messageDelivery fault) := by
  have fresh : graph.Delivers builder.Issues :=
    ⟨Graph.Fresh.typed (Graph.Built.fresh ⟨builder, assembled, made⟩),
      fun portal issued => Builder.addresses_of_build assembled made issued⟩
  have reached : interpreter.graph.Delivers builder.Issues := by
    have kept (after : Custody β α μ)
        (steps : Relation.ReflTransGen (Routes builder.Issues) (.loose graph) after) :
        after.graph.Delivers builder.Issues := by
      induction steps with
      | refl => exact fresh
      | tail _ step inductionHypothesis => exact step.delivers inductionHypothesis
    exact kept _ run
  have during := (Interpreter.call_delivers reached sent).1
  refine ⟨?_, ?_⟩
  · intro look member
    have delivers := during look member
    refine ⟨fun id worker known => (Worker.typed_deliver (delivers.typed id worker known)).2, ?_⟩
    intro outgoing posted
    obtain ⟨recipients, listed, fit⟩ := delivers.addresses _ (sent look member outgoing posted)
    refine ⟨recipients, listed, ?_⟩
    intro recipient registered
    obtain ⟨frame, found, type⟩ := fit recipient registered
    rw [Graph.frame_get] at found
    obtain ⟨worker, known, rfl⟩ := Option.map_eq_some_iff.mp found
    exact ⟨worker, known, type⟩
  · intro fault left failed
    obtain ⟨look, member, current, waiting, top, stopped⟩ :=
      Interpreter.interpret_error_iff.mp failed
    have delivers := during look member
    have view := look.interpreter.pullStep_view current waiting
    have typed := view.typed delivers.typed (by
      rw [← top]
      exact fun outgoing posted => delivers.addresses _ (sent look member outgoing posted))
    exact ⟨look, member, current, waiting, top, typed.2 fault left stopped⟩

/-- Both workers of the echo graph fire once and write to the second of them, through the one
portal there is. -/
theorem Custody.messages_are_typed_echo : ∃ interpreter,
    Relation.ReflTransGen (Routes echoBuilder.Issues) (.loose echoGraph) (.held interpreter) ∧
      (interpreter.looks 20).flatMap (fun look => look.sent.map Outgoing.portal) =
        [⟨0, .named "Echo"⟩, ⟨0, .named "Echo"⟩] ∧
      ∀ look ∈ interpreter.looks 20, ∀ outgoing ∈ look.sent, ∃ recipients,
        look.interpreter.graph.recipients[outgoing.portal.id]? = some recipients ∧
          ∀ recipient ∈ recipients, ∃ worker,
            look.interpreter.graph.worker? recipient = some worker ∧
              worker.bodyType = outgoing.portal.recipient := by
  obtain ⟨interpreter, push⟩ : ∃ interpreter, echoInterpreter.pushAll? 0 [7] = some interpreter :=
    Option.isSome_iff_exists.mp (by decide +kernel)
  have posted : (echoInterpreter.pushAll? 0 [7]).map (fun given =>
      (given.looks 20).flatMap (fun look => look.sent.map Outgoing.portal)) =
        some [⟨0, .named "Echo"⟩, ⟨0, .named "Echo"⟩] := by
    decide +kernel
  rw [push] at posted
  have portals : (interpreter.looks 20).flatMap (fun look => look.sent.map Outgoing.portal) =
      [⟨0, .named "Echo"⟩, ⟨0, .named "Echo"⟩] :=
    Option.some.inj posted
  have sent : ∀ look ∈ interpreter.looks 20, ∀ outgoing ∈ look.sent,
      echoBuilder.Issues outgoing.portal := by
    intro look member outgoing among
    have listed : outgoing.portal ∈ (interpreter.looks 20).flatMap
        (fun look => look.sent.map Outgoing.portal) :=
      List.mem_flatMap.mpr ⟨look, member, List.mem_map_of_mem among⟩
    rw [portals] at listed
    have same : outgoing.portal = ⟨0, .named "Echo"⟩ := by
      simpa only [List.mem_cons, List.not_mem_nil, or_false, or_self] using listed
    rw [same]
    exact ⟨⟨.named "Echo", [1]⟩, rfl, rfl⟩
  have assembled : echoBuilder.Assembled :=
    .addConstraint _ (.addConstraint _ (.register _ _ (.addPortal _ (.connect _ _
      (.addWorker _ _ (.addWorker _ _ (.fresh _)))))))
  have run : Relation.ReflTransGen (Routes echoBuilder.Issues) (.loose echoGraph)
      (.held interpreter) :=
    Relation.ReflTransGen.refl
      |>.tail (.wrap echoInterpreter_opens)
      |>.tail (.traffic (.push 0 [7] push))
  have typed := messages_are_typed assembled rfl run sent
  exact ⟨interpreter, run, portals, fun look member => (typed.1 look member).2⟩

end DemandFlow
