import DemandFlow.Proofs.Graph.Coherence
import DemandFlow.Work.Standard

/-!
What refused calls and expansions leave behind. A call that is refused leaves the builder as
it was, with nothing requested from the factory. Expanding a stream keeps all that was there,
also when it is given up halfway: it only adds workers, and channels from the factory between
two of the workers it has added.
-/

set_option autoImplicit false

namespace DemandFlow.Builder

variable {β α : Type}

section Refused

variable {builder left : Builder β α} {error : Error}

private theorem connect_refused {producer consumer : WorkerId}
    (refused : builder.connect producer consumer = (.error error, left)) : left = builder := by
  rcases builder.connect_view producer consumer with ⟨_, same⟩ | ⟨_, _, made, _⟩
  · rw [refused] at same
    cases same
    rfl
  · rw [refused] at made
    cases made

private theorem attachInput_refused {worker : WorkerId} {slot : Slot α}
    (refused : builder.attachInput worker slot = (.error error, left)) : left = builder := by
  rcases builder.attachInput_view worker slot with ⟨_, same⟩ | ⟨_, _, made, _⟩
  · rw [refused] at same
    cases same
    rfl
  · rw [refused] at made
    cases made

private theorem attachOutput_refused {worker : WorkerId} {slot : Slot α}
    (refused : builder.attachOutput worker slot = (.error error, left)) : left = builder := by
  rcases builder.attachOutput_view worker slot with ⟨_, same⟩ | ⟨_, _, made, _⟩
  · rw [refused] at same
    cases same
    rfl
  · rw [refused] at made
    cases made

/-- The checks on the worker, on the handle and on the portal all come before the change. -/
theorem register_refused [Signature β] {portal : Portal} {worker : WorkerId}
    (refused : builder.register portal worker = (.error error, left)) : left = builder := by
  unfold register at refused
  split at refused
  next => cases refused; rfl
  next =>
    split at refused
    next => cases refused; rfl
    next =>
      split at refused
      next => cases refused; rfl
      next =>
        split at refused
        next => cases refused; rfl
        next => split at refused <;> cases refused

private theorem addConstraint_refused {constraint : Constraint}
    (refused : builder.addConstraint constraint = (.error error, left)) : left = builder := by
  unfold addConstraint at refused
  split at refused
  next => cases refused; rfl
  next => cases refused; rfl
  next =>
    split at refused
    next => cases refused; rfl
    next =>
      split at refused
      next => cases refused; rfl
      next =>
        split at refused
        next => cases refused; rfl
        next => cases refused

end Refused

/-- A builder with all that another one has, and besides only workers of its own and channels
from the factory between two of these. The channels go by what the factory was asked for. -/
structure Grown (base after : Builder β α) (asked : List ChannelRequest) : Prop where
  drafts : base.drafts <+: after.drafts
  slots : after.bank.slots =
    base.bank.slots ++ List.replicate asked.length (.own (.ofKind base.factory.kind))
  pool : after.bank.pool = base.bank.pool
  portals : after.portals = base.portals
  constraints : after.constraints = base.constraints
  factory : after.factory = base.factory
  requests : after.requests = base.requests ++ asked
  /-- The channels that were there have the ends they had. -/
  old : ∀ channel, channel < base.bank.size → ∀ ends, base.wiring.Links channel ends →
    after.wiring.Links channel ends
  /-- The other channels have the ends they were asked for. -/
  new : List.Forall₂ after.wiring.Links (List.range' base.bank.size asked.length) asked
  /-- Both are workers that were not there. -/
  ends : ∀ request ∈ asked, ∃ producer consumer,
    request = { producer := some producer, consumer := some consumer } ∧
      base.drafts.length ≤ producer ∧ base.drafts.length ≤ consumer

private theorem Grown.refl (base : Builder β α) : base.Grown base [] where
  drafts := List.prefix_rfl
  slots := by simp only [List.length_nil, List.replicate_zero, List.append_nil]
  pool := rfl
  portals := rfl
  constraints := rfl
  factory := rfl
  requests := by simp only [List.append_nil]
  old := fun _ _ _ links => links
  new := .nil
  ends := by simp only [List.not_mem_nil, IsEmpty.forall_iff, implies_true]

private theorem prefix_modify {base drafts : List (Draft β)} (kept : base <+: drafts)
    {id : WorkerId} (fresh : base.length ≤ id) (change : Draft β → Draft β) :
    base <+: drafts.modify id change := by
  obtain ⟨added, rfl⟩ := kept
  rw [List.prefix_iff_getElem?]
  intro index within
  have other : id ≠ index := Nat.ne_of_gt (Nat.lt_of_lt_of_le within fresh)
  simp [List.getElem?_append_left within, other]

section Steps

variable {base builder : Builder β α} {asked : List ChannelRequest}

private theorem Grown.size (grown : base.Grown builder asked) :
    builder.bank.size = base.bank.size + asked.length := by
  unfold Bank.size
  rw [grown.slots]
  simp only [List.length_append, List.length_replicate]

private theorem Grown.addWorker (grown : base.Grown builder asked) (kind : WorkerKind)
    (spec : WorkerSpec β) : base.Grown (builder.addWorker kind spec).2 asked where
  drafts := grown.drafts.trans (List.prefix_append _ _)
  slots := grown.slots
  pool := grown.pool
  portals := grown.portals
  constraints := grown.constraints
  factory := grown.factory
  requests := grown.requests
  old := by
    rw [wiring_addWorker]
    exact grown.old
  new := by
    rw [wiring_addWorker]
    exact grown.new
  ends := grown.ends

private theorem Grown.connect (grown : base.Grown builder asked) (sound : builder.Sound)
    {producer consumer : WorkerId} (newProducer : base.drafts.length ≤ producer)
    (newConsumer : base.drafts.length ≤ consumer) :
    ∃ further, base.Grown (builder.connect producer consumer).2 further := by
  rcases builder.connect_view producer consumer with ⟨error, refused⟩ | ⟨channel, after, made, _⟩
  · rw [refused]
    exact ⟨asked, grown⟩
  · obtain ⟨gains, requests⟩ := connect_gains made
    refine ⟨asked ++ [{ producer := some producer, consumer := some consumer }], ?_⟩
    have shape := (connect_eq_ok made).2.2
    -- The new channel comes right behind those that were asked for before.
    have size : builder.wiring.channels = base.bank.size + asked.length := grown.size
    rw [made]
    constructor
    case drafts =>
      rw [shape]
      exact prefix_modify (prefix_modify grown.drafts newProducer _) newConsumer _
    case slots =>
      rw [shape]
      change builder.bank.slots ++ [.own (.ofKind builder.factory.kind)] = _
      rw [grown.slots, grown.factory, List.length_append, List.length_singleton,
        List.replicate_succ', List.append_assoc]
    case pool =>
      rw [shape]
      exact grown.pool
    case factory =>
      rw [shape]
      exact grown.factory
    case requests =>
      rw [requests, grown.requests, List.append_assoc]
    case old =>
      intro earlier within ends links
      refine (grown.old earlier within ends links).gain_old gains.wiring ?_
      rw [size]
      exact Nat.lt_add_right _ within
    case new =>
      have ranged := (List.forall₂_and_left _ _).mpr ⟨fun earlier member =>
        (List.mem_range'_1.mp member).2, grown.new⟩
      rw [List.length_append, List.length_singleton, ← List.range'_append_1, List.range'_one,
        ← size]
      rw [← size] at ranged
      exact List.rel_append
        (ranged.imp fun _ _ both => both.2.gain_old gains.wiring both.1)
        (.cons (.gain_new sound.wiring gains.wiring) .nil)
    case ends =>
      intro request member
      rcases List.mem_append.mp member with before | last
      · exact grown.ends request before
      · rw [List.mem_singleton] at last
        exact ⟨producer, consumer, last, newProducer, newConsumer⟩
    case portals => exact gains.portals.trans grown.portals
    case constraints => exact gains.constraints.trans grown.constraints

private theorem keptByExpansion_grown (base : Builder β α) :
    KeptByExpansion (fun id => base.drafts.length ≤ id)
      (fun builder : Builder β α => builder.Sound ∧ ∃ asked, base.Grown builder asked) where
  worker := by
    rintro builder kind spec ⟨sound, asked, grown⟩
    exact ⟨grown.drafts.length_le, sound.addWorker kind spec, asked, grown.addWorker kind spec⟩
  connection := by
    rintro builder producer consumer newProducer newConsumer ⟨sound, asked, grown⟩
    exact ⟨sound.connect producer consumer, grown.connect sound newProducer newConsumer⟩

end Steps

/-- A call on workers, ports, portals or constraints that is refused leaves the builder exactly
as it was. Expanding a stream, given up or not, adds to what was there and changes none of it. -/
theorem refused_calls_leave_no_trace [Signature β] {builder : Builder β α}
    (assembled : builder.Assembled) :
    (∀ producer consumer error left,
      builder.connect producer consumer = (.error error, left) → left = builder) ∧
    (∀ worker slot error left,
      builder.attachInput worker slot = (.error error, left) → left = builder) ∧
    (∀ worker slot error left,
      builder.attachOutput worker slot = (.error error, left) → left = builder) ∧
    (∀ portal worker error left,
      builder.register portal worker = (.error error, left) → left = builder) ∧
    (∀ constraint error left,
      builder.addConstraint constraint = (.error error, left) → left = builder) ∧
    ∀ element, ∃ asked, builder.Grown (builder.addStream element).2 asked :=
  ⟨fun _ _ _ _ => connect_refused, fun _ _ _ _ => attachInput_refused,
    fun _ _ _ _ => attachOutput_refused, fun _ _ _ _ => register_refused,
    fun _ _ _ => addConstraint_refused, fun element =>
      ((keptByExpansion_grown builder).addStream element builder
        ⟨assembled.sound, [], .refl builder⟩).1.2⟩

def coupled : Builder Standard Nat :=
  performAll {}
    [.addWorker .filter ⟨"first", .identity⟩, .addWorker .filter ⟨"second", .identity⟩,
      .connect 0 1]

/-- A stream that is given up at its last branch, with four workers added and two of them
connected to a third. -/
def brokenStream : Element Standard :=
  .pipeline [.filter ⟨"third", .identity⟩,
    .splitjoin ⟨"fork", .duplicate⟩ [.filter ⟨"left", .identity⟩, .pipeline []]
      ⟨"meet", .roundRobinJoin 1⟩]

private theorem coupled_assembled : coupled.Assembled :=
  ((coherent_fresh {}).performAll (.fresh {}) _).1

theorem refused_calls_leave_no_trace_broken :
    coupled.connect 0 1 =
        (.error (.invalidGraph (.outputTaken .filter { name := "first", id := 0 })), coupled) ∧
      (coupled.addStream brokenStream).1 = .error (.invalidGraph .emptyPipeline) ∧
      ∃ asked, coupled.Grown (coupled.addStream brokenStream).2 asked ∧ asked.length = 2 := by
  obtain ⟨connects, _, _, _, _, streams⟩ := refused_calls_leave_no_trace coupled_assembled
  refine ⟨?_, by decide +kernel, ?_⟩
  · have refused : (coupled.connect 0 1).1 =
        .error (.invalidGraph (.outputTaken .filter { name := "first", id := 0 })) := by
      decide +kernel
    have same := connects 0 1 _ _ (Prod.ext refused rfl)
    exact Prod.ext refused same
  · obtain ⟨asked, grown⟩ := streams brokenStream
    have counted := congrArg List.length grown.requests
    have total : (coupled.addStream brokenStream).2.requests.length = 3 := by decide +kernel
    have before : coupled.requests.length = 1 := by decide +kernel
    rw [List.length_append, total, before] at counted
    exact ⟨asked, grown, by omega⟩

end DemandFlow.Builder
