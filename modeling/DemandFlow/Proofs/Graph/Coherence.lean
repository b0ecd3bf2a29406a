import Mathlib.Data.List.Forall2
import DemandFlow.Proofs.Graph.Assembly

/-!
Coherent builders. A builder gains channels one at a time, each between ports that were open,
and every channel either was attached by a call or was requested from the factory once. This
and the ranges of all numbers are kept by every call, refused ones included, and by the
completion of the ports before a graph is built.
-/

set_option autoImplicit false

namespace DemandFlow

variable {β α μ : Type}

namespace Wiring

/-- The ends are those of the channel: the workers that have it on an output and on an
input. -/
structure Links (wiring : Wiring) (channel : ChannelId) (ends : ChannelRequest) : Prop where
  producer : ∀ id, ends.producer = some id ↔
    ∃ port ∈ wiring.outputs id, port.channel = channel
  consumer : ∀ id, ends.consumer = some id ↔
    ∃ port ∈ wiring.inputs id, port.channel = channel

def Covered (wiring : Wiring) : Prop :=
  ∀ channel, channel < wiring.channels → ∃ id, ∃ port ∈ wiring.inputs id ++ wiring.outputs id,
    port.channel = channel

/-- One more channel between the given ends; an end that is open gets no port. -/
structure Gains (wiring after : Wiring) (ends : ChannelRequest) : Prop where
  inputs : ∀ id, after.inputs id = wiring.inputs id ++
    if ends.consumer = some id then [{ peer := ends.producer, channel := wiring.channels }]
    else []
  outputs : ∀ id, after.outputs id = wiring.outputs id ++
    if ends.producer = some id then [{ peer := ends.consumer, channel := wiring.channels }]
    else []
  channels : after.channels = wiring.channels + 1

private theorem gains_join (wiring : Wiring) (producer consumer : WorkerId) :
    wiring.Gains (wiring.join producer consumer)
      { producer := some producer, consumer := some consumer } := by
  refine ⟨?_, ?_, rfl⟩
  · intro id
    by_cases same : id = consumer
    · simp only [join, same, extend, ↓reduceIte]
    · simp [join, extend, same, Ne.symm same]
  · intro id
    by_cases same : id = producer
    · simp only [join, same, extend, ↓reduceIte]
    · simp [join, extend, same, Ne.symm same]

private theorem gains_openInput (wiring : Wiring) (worker : WorkerId) :
    wiring.Gains (wiring.openInput worker) { producer := none, consumer := some worker } := by
  refine ⟨?_, ?_, rfl⟩
  · intro id
    by_cases same : id = worker
    · simp only [openInput, same, extend, ↓reduceIte]
    · simp [openInput, extend, same, Ne.symm same]
  · intro id
    simp only [openInput, reduceCtorEq, ↓reduceIte, List.append_nil]

private theorem gains_openOutput (wiring : Wiring) (worker : WorkerId) :
    wiring.Gains (wiring.openOutput worker) { producer := some worker, consumer := none } := by
  refine ⟨?_, ?_, rfl⟩
  · intro id
    simp only [openOutput, reduceCtorEq, ↓reduceIte, List.append_nil]
  · intro id
    by_cases same : id = worker
    · simp only [openOutput, same, extend, ↓reduceIte]
    · simp [openOutput, extend, same, Ne.symm same]

theorem Sound.input_lt {wiring : Wiring} (sound : wiring.Sound) {id : WorkerId} {port : Port}
    (member : port ∈ wiring.inputs id) : port.channel < wiring.channels := by
  obtain ⟨index, place⟩ := List.mem_iff_getElem?.mp member
  exact sound.inputRange id index port place

theorem Sound.output_lt {wiring : Wiring} (sound : wiring.Sound) {id : WorkerId} {port : Port}
    (member : port ∈ wiring.outputs id) : port.channel < wiring.channels := by
  obtain ⟨index, place⟩ := List.mem_iff_getElem?.mp member
  exact sound.outputRange id index port place

section

variable {wiring after : Wiring} {ends : ChannelRequest}

theorem Gains.mem_inputs (gains : wiring.Gains after ends) {id : WorkerId} {port : Port} :
    port ∈ after.inputs id ↔ port ∈ wiring.inputs id ∨
      ends.consumer = some id ∧ port = { peer := ends.producer, channel := wiring.channels } := by
  rw [gains.inputs, List.mem_append]
  split
  next here => simp only [List.mem_cons, List.not_mem_nil, or_false, here, true_and]
  next elsewhere => simp only [List.not_mem_nil, or_false, elsewhere, false_and]

theorem Gains.mem_outputs (gains : wiring.Gains after ends) {id : WorkerId} {port : Port} :
    port ∈ after.outputs id ↔ port ∈ wiring.outputs id ∨
      ends.producer = some id ∧ port = { peer := ends.consumer, channel := wiring.channels } := by
  rw [gains.outputs, List.mem_append]
  split
  next here => simp only [List.mem_cons, List.not_mem_nil, or_false, here, true_and]
  next elsewhere => simp only [List.not_mem_nil, or_false, elsewhere, false_and]

private theorem Covered.gain (covered : wiring.Covered) (gains : wiring.Gains after ends)
    (closed : ends ≠ { producer := none, consumer := none }) : after.Covered := by
  intro channel within
  rw [gains.channels] at within
  by_cases old : channel < wiring.channels
  · obtain ⟨id, port, member, same⟩ := covered channel old
    refine ⟨id, port, ?_, same⟩
    rw [List.mem_append, gains.mem_inputs, gains.mem_outputs]
    rcases List.mem_append.mp member with input | output
    · exact .inl (.inl input)
    · exact .inr (.inl output)
  · have new : channel = wiring.channels := by omega
    subst new
    obtain ⟨producer, consumer⟩ := ends
    cases consumer with
    | some id =>
        exact ⟨id, _, List.mem_append_left _ (gains.mem_inputs.mpr (.inr ⟨rfl, rfl⟩)), rfl⟩
    | none =>
        cases producer with
        | some id =>
            exact ⟨id, _, List.mem_append_right _ (gains.mem_outputs.mpr (.inr ⟨rfl, rfl⟩)), rfl⟩
        | none => exact absurd rfl closed

theorem Links.gain_old {channel : ChannelId} {others : ChannelRequest}
    (links : wiring.Links channel others) (gains : wiring.Gains after ends)
    (old : channel < wiring.channels) : after.Links channel others := by
  constructor
  · intro id
    rw [links.producer]
    constructor
    · rintro ⟨port, member, same⟩
      exact ⟨port, gains.mem_outputs.mpr (.inl member), same⟩
    · rintro ⟨port, member, same⟩
      rcases gains.mem_outputs.mp member with before | ⟨_, rfl⟩
      · exact ⟨port, before, same⟩
      · exact absurd same (Nat.ne_of_gt old)
  · intro id
    rw [links.consumer]
    constructor
    · rintro ⟨port, member, same⟩
      exact ⟨port, gains.mem_inputs.mpr (.inl member), same⟩
    · rintro ⟨port, member, same⟩
      rcases gains.mem_inputs.mp member with before | ⟨_, rfl⟩
      · exact ⟨port, before, same⟩
      · exact absurd same (Nat.ne_of_gt old)

theorem Links.gain_new (sound : wiring.Sound) (gains : wiring.Gains after ends) :
    after.Links wiring.channels ends := by
  constructor
  · intro id
    constructor
    · intro named
      exact ⟨_, gains.mem_outputs.mpr (.inr ⟨named, rfl⟩), rfl⟩
    · rintro ⟨port, member, same⟩
      rcases gains.mem_outputs.mp member with before | ⟨named, _⟩
      · exact absurd same (Nat.ne_of_lt (sound.output_lt before))
      · exact named
  · intro id
    constructor
    · intro named
      exact ⟨_, gains.mem_inputs.mpr (.inr ⟨named, rfl⟩), rfl⟩
    · rintro ⟨port, member, same⟩
      rcases gains.mem_inputs.mp member with before | ⟨named, _⟩
      · exact absurd same (Nat.ne_of_lt (sound.input_lt before))
      · exact named

end

end Wiring

namespace Builder

/-- One call on a builder. Others may also have used the shared buffers. -/
inductive Call (β α : Type) where
  | addWorker (kind : WorkerKind) (spec : WorkerSpec β)
  | connect (producer consumer : WorkerId)
  | attachInput (worker : WorkerId) (slot : Slot α)
  | attachOutput (worker : WorkerId) (slot : Slot α)
  | addPortal (recipient : BodyType)
  | register (portal : Portal) (worker : WorkerId)
  | addConstraint (constraint : Constraint)
  | addStream (element : Element β)
  | pooled (pool : Pool α)

def perform [Signature β] (builder : Builder β α) : Call β α → Builder β α
  | .addWorker kind spec => (builder.addWorker kind spec).2
  | .connect producer consumer => (builder.connect producer consumer).2
  | .attachInput worker slot => (builder.attachInput worker slot).2
  | .attachOutput worker slot => (builder.attachOutput worker slot).2
  | .addPortal recipient => (builder.addPortal recipient).2
  | .register portal worker => (builder.register portal worker).2
  | .addConstraint constraint => (builder.addConstraint constraint).2
  | .addStream element => (builder.addStream element).2
  | .pooled pool => { builder with bank := { builder.bank with pool := pool } }

def performAll [Signature β] (builder : Builder β α) (calls : List (Call β α)) : Builder β α :=
  calls.foldl perform builder

def attached? (builder : Builder β α) : Call β α → Option ChannelId
  | .attachInput worker slot => (builder.attachInput worker slot).1.toOption
  | .attachOutput worker slot => (builder.attachOutput worker slot).1.toOption
  | _ => none

/-- The channels that calls attach, in the order of the calls. -/
def attachedBy [Signature β] (builder : Builder β α) : List (Call β α) → List ChannelId
  | [] => []
  | call :: rest => (builder.attached? call).toList ++ (builder.perform call).attachedBy rest

private theorem Assembled.perform [Signature β] {builder : Builder β α}
    (assembled : builder.Assembled) (call : Call β α) : (builder.perform call).Assembled := by
  cases call with
  | addWorker kind spec => exact .addWorker kind spec assembled
  | connect producer consumer => exact .connect producer consumer assembled
  | attachInput worker slot => exact .attachInput worker slot assembled
  | attachOutput worker slot => exact .attachOutput worker slot assembled
  | addPortal recipient => exact .addPortal recipient assembled
  | register portal worker => exact .register portal worker assembled
  | addConstraint constraint => exact .addConstraint constraint assembled
  | addStream element => exact .addStream element assembled
  | pooled pool => exact .pooled pool assembled

def kinds (builder : Builder β α) : List WorkerKind :=
  builder.drafts.map Draft.kind

structure Gains (builder after : Builder β α) (ends : ChannelRequest) : Prop where
  wiring : builder.wiring.Gains after.wiring ends
  closed : ends ≠ { producer := none, consumer := none }
  kinds : after.kinds = builder.kinds
  portals : after.portals = builder.portals
  constraints : after.constraints = builder.constraints
  consumer : ∀ id, ends.consumer = some id → ∃ kind, builder.kinds[id]? = some kind ∧
    kind.acceptsInput (builder.wiring.inputs id).length = true
  producer : ∀ id, ends.producer = some id → ∃ kind, builder.kinds[id]? = some kind ∧
    kind.acceptsOutput (builder.wiring.outputs id).length = true

theorem kinds_setDraft (builder : Builder β α) (id : WorkerId) (change : Draft β → Draft β)
    (same : ∀ draft, (change draft).kind = draft.kind) :
    (builder.setDraft id change).kinds = builder.kinds := by
  unfold kinds setDraft
  apply List.ext_getElem?
  intro index
  rw [List.getElem?_map, List.getElem?_map, List.getElem?_modify]
  cases builder.drafts[index]? with
  | none => rfl
  | some draft =>
      by_cases here : id = index
      · simp only [here, ↓reduceIte, Option.map_eq_map, Option.map_some, same]
      · simp only [here, ↓reduceIte, id_map', Option.map_some]

theorem kinds_addInput (builder : Builder β α) (id : WorkerId) (port : Port) :
    (builder.addInput id port).kinds = builder.kinds :=
  kinds_setDraft builder id _ (fun _ => rfl)

theorem kinds_addOutput (builder : Builder β α) (id : WorkerId) (port : Port) :
    (builder.addOutput id port).kinds = builder.kinds :=
  kinds_setDraft builder id _ (fun _ => rfl)

theorem room_of_checkInput {builder : Builder β α} {id : WorkerId}
    (accepted : builder.checkInput id = .ok ()) : ∃ kind, builder.kinds[id]? = some kind ∧
      kind.acceptsInput (builder.wiring.inputs id).length = true := by
  obtain ⟨draft, found, vacant⟩ := checkInput_eq_ok accepted
  refine ⟨draft.kind, by simp only [kinds, List.getElem?_map, found, Option.map_some], ?_⟩
  simpa only [wiring, found, Option.map_some, Option.getD_some] using vacant

theorem room_of_checkOutput {builder : Builder β α} {id : WorkerId}
    (accepted : builder.checkOutput id = .ok ()) : ∃ kind, builder.kinds[id]? = some kind ∧
      kind.acceptsOutput (builder.wiring.outputs id).length = true := by
  obtain ⟨draft, found, vacant⟩ := checkOutput_eq_ok accepted
  refine ⟨draft.kind, by simp only [kinds, List.getElem?_map, found, Option.map_some], ?_⟩
  simpa only [wiring, found, Option.map_some, Option.getD_some] using vacant

theorem attachInput_gains {builder after : Builder β α} {worker : WorkerId} {slot : Slot α}
    {channel : ChannelId} (made : builder.attachInput worker slot = (.ok channel, after)) :
    builder.Gains after { producer := none, consumer := some worker } ∧
      after.requests = builder.requests ∧ channel = builder.wiring.channels := by
  have view := builder.attachInput_view worker slot
  rw [made] at view
  rcases view with ⟨error, refused⟩ | ⟨id, other, equal, ports, constraints, portals⟩
  · cases refused
  · cases equal
    unfold attachInput at made
    split at made
    next => cases made
    next accepted =>
      cases made
      refine ⟨⟨ports ▸ builder.wiring.gains_openInput worker, by simp, ?_, portals, constraints,
        ?_, by simp⟩, rfl, rfl⟩
      · rw [kinds_addInput]
        rfl
      · rintro id ⟨⟩
        exact room_of_checkInput accepted

theorem attachOutput_gains {builder after : Builder β α} {worker : WorkerId} {slot : Slot α}
    {channel : ChannelId} (made : builder.attachOutput worker slot = (.ok channel, after)) :
    builder.Gains after { producer := some worker, consumer := none } ∧
      after.requests = builder.requests ∧ channel = builder.wiring.channels := by
  have view := builder.attachOutput_view worker slot
  rw [made] at view
  rcases view with ⟨error, refused⟩ | ⟨id, other, equal, ports, constraints, portals⟩
  · cases refused
  · cases equal
    unfold attachOutput at made
    split at made
    next => cases made
    next accepted =>
      cases made
      refine ⟨⟨ports ▸ builder.wiring.gains_openOutput worker, by simp, ?_, portals, constraints,
        by simp, ?_⟩, rfl, rfl⟩
      · rw [kinds_addOutput]
        rfl
      · rintro id ⟨⟩
        exact room_of_checkOutput accepted

theorem connect_gains {builder after : Builder β α} {producer consumer : WorkerId}
    {channel : ChannelId} (made : builder.connect producer consumer = (.ok channel, after)) :
    builder.Gains after { producer := some producer, consumer := some consumer } ∧
      after.requests =
        builder.requests ++ [{ producer := some producer, consumer := some consumer }] := by
  rcases connect_eq_ok made with ⟨links, _, rfl⟩
  have ports := links.wiring_linked
  refine ⟨⟨ports ▸ builder.wiring.gains_join producer consumer, by simp, ?_, rfl, rfl, ?_, ?_⟩,
    rfl⟩
  · unfold linked
    rw [kinds_addInput, kinds_addOutput]
    rfl
  · rintro id ⟨⟩
    exact room_of_checkInput links.input
  · rintro id ⟨⟩
    exact room_of_checkOutput links.output

/-! ### What calls keep -/

/-- What holds of a builder after calls that attached the given channels. -/
structure Coherent (attached : List ChannelId) (builder : Builder β α) : Prop where
  covered : builder.wiring.Covered
  inputs : ∀ (id : WorkerId) (kind : WorkerKind), builder.kinds[id]? = some kind →
    kind ≠ .joiner → (builder.wiring.inputs id).length ≤ 1
  outputs : ∀ (id : WorkerId) (kind : WorkerKind), builder.kinds[id]? = some kind →
    kind ≠ .splitter → (builder.wiring.outputs id).length ≤ 1
  recipients : ∀ entry ∈ builder.portals, ∀ id ∈ entry.workers, id < builder.kinds.length
  constraints : ∀ constraint ∈ builder.constraints, constraint.sender < builder.kinds.length ∧
    ∃ entry, builder.portals[constraint.portal]? = some entry ∧
      constraint.recipient ∈ entry.workers
  supplied : ∀ channel ∈ attached, channel < builder.wiring.channels
  /-- One request for every channel that was not attached, in order. -/
  requests : List.Forall₂ builder.wiring.Links
    ((List.range builder.wiring.channels).filter (fun channel => !attached.contains channel))
    builder.requests

section

variable {attached : List ChannelId} {builder after : Builder β α} {ends : ChannelRequest}

/-- The requests so far stay true when there is one more channel. -/
theorem Coherent.requests_gain (coherent : Coherent attached builder)
    (gains : builder.Gains after ends) :
    List.Forall₂ after.wiring.Links
      ((List.range builder.wiring.channels).filter (fun channel => !attached.contains channel))
      builder.requests := by
  have ranged := (List.forall₂_and_left _ _).mpr ⟨fun channel member =>
    List.mem_range.mp (List.mem_filter.mp member).1, coherent.requests⟩
  exact ranged.imp (fun channel others both => both.2.gain_old gains.wiring both.1)

theorem Coherent.gain (coherent : Coherent attached builder) (gains : builder.Gains after ends)
    {attachedAfter : List ChannelId}
    (supplied : ∀ channel ∈ attachedAfter, channel < after.wiring.channels)
    (requests : List.Forall₂ after.wiring.Links ((List.range after.wiring.channels).filter
      (fun channel => !attachedAfter.contains channel)) after.requests) :
    Coherent attachedAfter after where
  covered := coherent.covered.gain gains.wiring gains.closed
  inputs := by
    intro id kind known notJoiner
    rw [gains.kinds] at known
    rw [gains.wiring.inputs]
    split
    next named =>
      obtain ⟨other, found, room⟩ := gains.consumer id named
      rw [known] at found
      cases found
      cases kind with
      | joiner => exact absurd rfl notJoiner
      | filter => simpa [WorkerKind.acceptsInput] using room
      | splitter => simpa [WorkerKind.acceptsInput] using room
    next =>
      rw [List.append_nil]
      exact coherent.inputs id kind known notJoiner
  outputs := by
    intro id kind known notSplitter
    rw [gains.kinds] at known
    rw [gains.wiring.outputs]
    split
    next named =>
      obtain ⟨other, found, room⟩ := gains.producer id named
      rw [known] at found
      cases found
      cases kind with
      | splitter => exact absurd rfl notSplitter
      | filter => simpa [WorkerKind.acceptsOutput] using room
      | joiner => simpa [WorkerKind.acceptsOutput] using room
    next =>
      rw [List.append_nil]
      exact coherent.outputs id kind known notSplitter
  recipients := by
    rw [gains.portals, gains.kinds]
    exact coherent.recipients
  constraints := by
    rw [gains.constraints, gains.portals, gains.kinds]
    exact coherent.constraints
  supplied := supplied
  requests := requests

theorem Coherent.gain_requested (coherent : Coherent attached builder) (sound : builder.Sound)
    (gains : builder.Gains after ends)
    (requests : after.requests = builder.requests ++ [ends]) : Coherent attached after := by
  refine coherent.gain gains ?_ ?_
  · intro channel member
    rw [gains.wiring.channels]
    exact Nat.lt_succ_of_lt (coherent.supplied channel member)
  · have fresh : builder.wiring.channels ∉ attached := fun member =>
      Nat.lt_irrefl _ (coherent.supplied _ member)
    rw [gains.wiring.channels, List.range_succ, List.filter_append, requests]
    apply List.rel_append (coherent.requests_gain gains)
    rw [List.filter_cons_of_pos (by simpa using fresh)]
    exact .cons (.gain_new sound.wiring gains.wiring) .nil

theorem Coherent.gain_attached (coherent : Coherent attached builder)
    (gains : builder.Gains after ends) (requests : after.requests = builder.requests) :
    Coherent (attached ++ [builder.wiring.channels]) after := by
  refine coherent.gain gains ?_ ?_
  · intro channel member
    rw [gains.wiring.channels]
    rcases List.mem_append.mp member with old | new
    · exact Nat.lt_succ_of_lt (coherent.supplied channel old)
    · rw [List.mem_singleton] at new
      subst new
      exact Nat.lt_succ_self _
  · have same : (List.range builder.wiring.channels).filter
        (fun channel => !(attached ++ [builder.wiring.channels]).contains channel) =
          (List.range builder.wiring.channels).filter
            (fun channel => !attached.contains channel) := by
      apply List.filter_congr
      intro channel member
      have different : channel ≠ builder.wiring.channels :=
        Nat.ne_of_lt (List.mem_range.mp member)
      simp [different]
    rw [gains.wiring.channels, List.range_succ, List.filter_append, requests, same,
      List.filter_cons_of_neg (by simp), List.filter_nil, List.append_nil]
    exact coherent.requests_gain gains

theorem Coherent.addWorker (coherent : Coherent attached builder) (kind : WorkerKind)
    (spec : WorkerSpec β) : Coherent attached (builder.addWorker kind spec).2 := by
  have ports := builder.wiring_addWorker kind spec
  have grown : (builder.addWorker kind spec).2.kinds = builder.kinds ++ [kind] := by
    simp only [kinds, Builder.addWorker, List.map_append, List.map_cons, List.map_nil]
  have wider (id : WorkerId) (within : id < builder.kinds.length) :
      id < (builder.addWorker kind spec).2.kinds.length := by
    rw [grown, List.length_append]
    exact Nat.lt_add_right _ within
  -- The new worker has no ports.
  have fresh (id : WorkerId) (other : WorkerKind)
      (known : (builder.addWorker kind spec).2.kinds[id]? = some other) :
      builder.kinds[id]? = some other ∨
        builder.wiring.inputs id = [] ∧ builder.wiring.outputs id = [] := by
    by_cases within : id < builder.kinds.length
    · rw [grown, List.getElem?_append_left within] at known
      exact .inl known
    · have absent : builder.drafts[id]? = none := by
        unfold kinds at within
        rw [List.length_map] at within
        exact List.getElem?_eq_none (Nat.le_of_not_lt within)
      exact .inr (by simp only [wiring, absent, Option.map_none, Option.getD_none, and_self])
  refine
    { covered := by rw [ports]; exact coherent.covered
      inputs := ?_
      outputs := ?_
      recipients := fun entry member id registered =>
        wider id (coherent.recipients entry member id registered)
      constraints := fun constraint member =>
        have held := coherent.constraints constraint member
        ⟨wider _ held.1, held.2⟩
      supplied := by rw [ports]; exact coherent.supplied
      requests := by rw [ports]; exact coherent.requests }
  · intro id other known notJoiner
    rw [ports]
    rcases fresh id other known with old | ⟨empty, _⟩
    · exact coherent.inputs id other old notJoiner
    · rw [empty]
      exact Nat.zero_le 1
  · intro id other known notSplitter
    rw [ports]
    rcases fresh id other known with old | ⟨_, empty⟩
    · exact coherent.outputs id other old notSplitter
    · rw [empty]
      exact Nat.zero_le 1

theorem Coherent.connect (coherent : Coherent attached builder) (sound : builder.Sound)
    (producer consumer : WorkerId) : Coherent attached (builder.connect producer consumer).2 := by
  rcases builder.connect_view producer consumer with ⟨error, refused⟩ | ⟨id, after, made, _⟩
  · rw [refused]
    exact coherent
  · obtain ⟨gains, requests⟩ := connect_gains made
    rw [made]
    exact coherent.gain_requested sound gains requests

private theorem Coherent.attachInput (coherent : Coherent attached builder) (worker : WorkerId)
    (slot : Slot α) :
    Coherent (attached ++ (builder.attachInput worker slot).1.toOption.toList)
      (builder.attachInput worker slot).2 := by
  rcases builder.attachInput_view worker slot with ⟨error, refused⟩ | ⟨id, after, made, _⟩
  · rw [refused]
    simpa only [Except.toOption, Option.toList_none, List.append_nil] using coherent
  · obtain ⟨gains, requests, rfl⟩ := attachInput_gains made
    rw [made]
    exact coherent.gain_attached gains requests

private theorem Coherent.attachOutput (coherent : Coherent attached builder) (worker : WorkerId)
    (slot : Slot α) :
    Coherent (attached ++ (builder.attachOutput worker slot).1.toOption.toList)
      (builder.attachOutput worker slot).2 := by
  rcases builder.attachOutput_view worker slot with ⟨error, refused⟩ | ⟨id, after, made, _⟩
  · rw [refused]
    simpa only [Except.toOption, Option.toList_none, List.append_nil] using coherent
  · obtain ⟨gains, requests, rfl⟩ := attachOutput_gains made
    rw [made]
    exact coherent.gain_attached gains requests

private theorem Coherent.addPortal (coherent : Coherent attached builder) (recipient : BodyType) :
    Coherent attached (builder.addPortal recipient).2 where
  covered := coherent.covered
  inputs := coherent.inputs
  outputs := coherent.outputs
  recipients := by
    intro entry member id registered
    rcases List.mem_append.mp member with old | new
    · exact coherent.recipients entry old id registered
    · rw [List.mem_singleton] at new
      subst new
      cases registered
  constraints := by
    intro constraint member
    obtain ⟨sender, entry, found, registered⟩ := coherent.constraints constraint member
    refine ⟨sender, entry, ?_, registered⟩
    exact (List.getElem?_append_left (List.getElem?_eq_some_iff.mp found).1).trans found
  supplied := coherent.supplied
  requests := coherent.requests

private theorem Coherent.register [Signature β] (coherent : Coherent attached builder)
    (portal : Portal) (worker : WorkerId) :
    Coherent attached (builder.register portal worker).2 := by
  unfold Builder.register
  split
  next => exact coherent
  next draft known =>
    split
    next => exact coherent
    next =>
      split
      next => exact coherent
      next entry found =>
        split
        next => exact coherent
        next =>
          split
          next => exact coherent
          next =>
            refine
              { covered := coherent.covered
                inputs := coherent.inputs
                outputs := coherent.outputs
                recipients := ?_
                constraints := ?_
                supplied := coherent.supplied
                requests := coherent.requests }
            · intro other member id registered
              rcases List.mem_or_eq_of_mem_set member with old | rfl
              · exact coherent.recipients other old id registered
              · rcases List.mem_append.mp registered with old | new
                · exact coherent.recipients entry (List.mem_of_getElem? found) id old
                · rw [List.mem_singleton] at new
                  subst new
                  have within := (List.getElem?_eq_some_iff.mp (draft_eq_ok known)).1
                  simpa only [kinds, List.length_map, gt_iff_lt] using within
            · intro constraint member
              obtain ⟨sender, other, place, registered⟩ :=
                coherent.constraints constraint member
              refine ⟨sender, ?_⟩
              dsimp only
              by_cases same : portal.id = constraint.portal
              · rw [← same] at place ⊢
                rw [found] at place
                cases place
                rw [List.getElem?_set_self (List.getElem?_eq_some_iff.mp found).1]
                exact ⟨_, rfl, List.mem_append_left _ registered⟩
              · rw [List.getElem?_set_ne same]
                exact ⟨other, place, registered⟩

private theorem Coherent.addConstraint (coherent : Coherent attached builder)
    (constraint : Constraint) : Coherent attached (builder.addConstraint constraint).2 := by
  unfold Builder.addConstraint
  split
  next => exact coherent
  next => exact coherent
  next sender recipient senderKnown recipientKnown =>
    split
    next => exact coherent
    next entry found =>
      split
      next => exact coherent
      next registered =>
        split
        next => exact coherent
        next =>
          refine
            { covered := coherent.covered
              inputs := coherent.inputs
              outputs := coherent.outputs
              recipients := coherent.recipients
              constraints := ?_
              supplied := coherent.supplied
              requests := coherent.requests }
          intro other member
          rcases List.mem_append.mp member with old | new
          · exact coherent.constraints other old
          · rw [List.mem_singleton] at new
            subst new
            have within := (List.getElem?_eq_some_iff.mp (draft_eq_ok senderKnown)).1
            refine ⟨by simpa only [kinds, List.length_map] using within, entry, found, ?_⟩
            simpa only [List.contains_eq_mem, Bool.not_eq_eq_eq_not, Bool.not_true,
              decide_eq_false_iff_not, Decidable.not_not] using registered

private theorem Coherent.keptByGrowth (attached : List ChannelId) :
    KeptByGrowth (fun builder : Builder β α => builder.Sound ∧ Coherent attached builder) where
  worker := fun _ kind spec both => ⟨both.1.addWorker kind spec, both.2.addWorker kind spec⟩
  connection := fun _ producer consumer both =>
    ⟨both.1.connect producer consumer, both.2.connect both.1 producer consumer⟩

theorem Coherent.perform [Signature β] (coherent : Coherent attached builder)
    (sound : builder.Sound) (call : Call β α) :
    Coherent (attached ++ (builder.attached? call).toList) (builder.perform call) := by
  have unattached (after : Builder β α) (kept : Coherent attached after) :
      Coherent (attached ++ (none : Option ChannelId).toList) after := by
    rw [Option.toList_none, List.append_nil]
    exact kept
  cases call with
  | addWorker kind spec => exact unattached _ (coherent.addWorker kind spec)
  | connect producer consumer => exact unattached _ (coherent.connect sound producer consumer)
  | attachInput worker slot => exact coherent.attachInput worker slot
  | attachOutput worker slot => exact coherent.attachOutput worker slot
  | addPortal recipient => exact unattached _ (coherent.addPortal recipient)
  | register portal worker => exact unattached _ (coherent.register portal worker)
  | addConstraint constraint => exact unattached _ (coherent.addConstraint constraint)
  | addStream element =>
      exact unattached _
        ((keptByGrowth attached).addStream element builder ⟨sound, coherent⟩).2
  | pooled pool =>
      exact unattached _
        { covered := coherent.covered
          inputs := coherent.inputs
          outputs := coherent.outputs
          recipients := coherent.recipients
          constraints := coherent.constraints
          supplied := coherent.supplied
          requests := coherent.requests }

theorem Coherent.performAll [Signature β] (coherent : Coherent attached builder)
    (assembled : builder.Assembled) (calls : List (Call β α)) :
    (builder.performAll calls).Assembled ∧
      Coherent (attached ++ builder.attachedBy calls) (builder.performAll calls) := by
  induction calls generalizing attached builder with
  | nil =>
      rw [attachedBy, List.append_nil]
      exact ⟨assembled, coherent⟩
  | cons call rest inductionHypothesis =>
      rw [attachedBy, ← List.append_assoc]
      exact inductionHypothesis (coherent.perform assembled.sound call) (assembled.perform call)

theorem coherent_fresh (factory : ChannelFactory) :
    Coherent [] ({ factory := factory } : Builder β α) where
  covered := fun channel within => absurd within (Nat.not_lt_zero channel)
  inputs := fun id kind known => by cases known
  outputs := fun id kind known => by cases known
  recipients := fun entry member => by cases member
  constraints := fun constraint member => by cases member
  supplied := fun channel member => by cases member
  requests := .nil

theorem Assembled.coherent [Signature β] {builder : Builder β α}
    (assembled : builder.Assembled) : ∃ attached, Coherent attached builder := by
  induction assembled with
  | fresh factory => exact ⟨[], coherent_fresh factory⟩
  | pooled pool before inductionHypothesis =>
      obtain ⟨attached, coherent⟩ := inductionHypothesis
      exact ⟨_, coherent.perform before.sound (.pooled pool)⟩
  | addWorker kind spec before inductionHypothesis =>
      obtain ⟨attached, coherent⟩ := inductionHypothesis
      exact ⟨_, coherent.perform before.sound (.addWorker kind spec)⟩
  | connect producer consumer before inductionHypothesis =>
      obtain ⟨attached, coherent⟩ := inductionHypothesis
      exact ⟨_, coherent.perform before.sound (.connect producer consumer)⟩
  | attachInput worker slot before inductionHypothesis =>
      obtain ⟨attached, coherent⟩ := inductionHypothesis
      exact ⟨_, coherent.perform before.sound (.attachInput worker slot)⟩
  | attachOutput worker slot before inductionHypothesis =>
      obtain ⟨attached, coherent⟩ := inductionHypothesis
      exact ⟨_, coherent.perform before.sound (.attachOutput worker slot)⟩
  | addPortal recipient before inductionHypothesis =>
      obtain ⟨attached, coherent⟩ := inductionHypothesis
      exact ⟨_, coherent.perform before.sound (.addPortal recipient)⟩
  | register portal worker before inductionHypothesis =>
      obtain ⟨attached, coherent⟩ := inductionHypothesis
      exact ⟨_, coherent.perform before.sound (.register portal worker)⟩
  | addConstraint constraint before inductionHypothesis =>
      obtain ⟨attached, coherent⟩ := inductionHypothesis
      exact ⟨_, coherent.perform before.sound (.addConstraint constraint)⟩
  | addStream element before inductionHypothesis =>
      obtain ⟨attached, coherent⟩ := inductionHypothesis
      exact ⟨_, coherent.perform before.sound (.addStream element)⟩

/-! ### Completing the ports -/

/-- Open ports may have got channels from the factory; everything else is as it was. -/
structure Filled (attached : List ChannelId) (builder after : Builder β α) : Prop where
  sound : after.Sound
  coherent : Coherent attached after
  kinds : after.kinds = builder.kinds
  inputs : ∀ id, builder.wiring.inputs id ≠ [] → after.wiring.inputs id ≠ []
  outputs : ∀ id, builder.wiring.outputs id ≠ [] → after.wiring.outputs id ≠ []

private theorem Filled.trans {attached : List ChannelId} {first second third : Builder β α}
    (left : Filled attached first second) (right : Filled attached second third) :
    Filled attached first third where
  sound := right.sound
  coherent := right.coherent
  kinds := right.kinds.trans left.kinds
  inputs := fun id nonempty => right.inputs id (left.inputs id nonempty)
  outputs := fun id nonempty => right.outputs id (left.outputs id nonempty)

theorem Coherent.fill (coherent : Coherent attached builder) (sound : builder.Sound)
    (gains : (builder.noteRequest ends).Gains after ends) (afterSound : after.Sound)
    (requests : after.requests = (builder.noteRequest ends).requests) :
    Filled attached builder after where
  sound := afterSound
  coherent := coherent.gain_requested sound
    ⟨gains.wiring, gains.closed, gains.kinds, gains.portals, gains.constraints, gains.consumer,
      gains.producer⟩ requests
  kinds := gains.kinds
  inputs := by
    intro id nonempty
    rw [gains.wiring.inputs]
    exact List.append_ne_nil_of_left_ne_nil nonempty _
  outputs := by
    intro id nonempty
    rw [gains.wiring.outputs]
    exact List.append_ne_nil_of_left_ne_nil nonempty _

private theorem Coherent.completeInput (coherent : Coherent attached builder)
    (sound : builder.Sound) {id : WorkerId} (made : builder.completeInput id = (.ok (), after)) :
    Filled attached builder after ∧ after.wiring.inputs id ≠ [] := by
  have kept := sound.completeInput id
  rw [made] at kept
  unfold Builder.completeInput at made
  split at made
  next => cases made
  next draft found =>
    split at made
    next filled =>
      cases made
      refine ⟨⟨sound, coherent, rfl, fun _ nonempty => nonempty, fun _ nonempty => nonempty⟩, ?_⟩
      simpa [wiring, draft_eq_ok found] using filled
    next =>
      split at made
      next => cases made
      next =>
        split at made
        next => cases made
        next requested =>
          rcases requestChannel_eq_ok requested with ⟨_, _, rfl⟩
          obtain ⟨channel, attached⟩ := attached_of_map made
          obtain ⟨gains, requests, _⟩ := attachInput_gains attached
          refine ⟨coherent.fill sound gains kept requests, ?_⟩
          rw [gains.wiring.inputs, if_pos rfl]
          simp only [ne_eq, List.append_eq_nil_iff, List.cons_ne_self, and_false, not_false_eq_true]

private theorem Coherent.completeOutput (coherent : Coherent attached builder)
    (sound : builder.Sound) {id : WorkerId} (made : builder.completeOutput id = (.ok (), after)) :
    Filled attached builder after ∧ after.wiring.outputs id ≠ [] := by
  have kept := sound.completeOutput id
  rw [made] at kept
  unfold Builder.completeOutput at made
  split at made
  next => cases made
  next draft found =>
    split at made
    next filled =>
      cases made
      refine ⟨⟨sound, coherent, rfl, fun _ nonempty => nonempty, fun _ nonempty => nonempty⟩, ?_⟩
      simpa [wiring, draft_eq_ok found] using filled
    next =>
      split at made
      next => cases made
      next =>
        split at made
        next => cases made
        next requested =>
          rcases requestChannel_eq_ok requested with ⟨_, _, rfl⟩
          obtain ⟨channel, attached⟩ := attached_of_map made
          obtain ⟨gains, requests, _⟩ := attachOutput_gains attached
          refine ⟨coherent.fill sound gains kept requests, ?_⟩
          rw [gains.wiring.outputs, if_pos rfl]
          simp only [ne_eq, List.append_eq_nil_iff, List.cons_ne_self, and_false, not_false_eq_true]

theorem Coherent.completeAll (coherent : Coherent attached builder) (sound : builder.Sound)
    {ids : List WorkerId} (made : builder.completeAll ids = (.ok (), after)) :
    Filled attached builder after ∧
      ∀ id ∈ ids, after.wiring.inputs id ≠ [] ∧ after.wiring.outputs id ≠ [] := by
  induction ids generalizing builder with
  | nil =>
      cases made
      exact ⟨⟨sound, coherent, rfl, fun _ nonempty => nonempty, fun _ nonempty => nonempty⟩,
        by simp⟩
  | cons id rest inductionHypothesis =>
      unfold Builder.completeAll at made
      split at made
      next => cases made
      next fed inputMade =>
        split at made
        next => cases made
        next closed outputMade =>
          obtain ⟨first, hasInput⟩ := coherent.completeInput sound inputMade
          obtain ⟨second, hasOutput⟩ := first.coherent.completeOutput first.sound outputMade
          obtain ⟨third, others⟩ := inductionHypothesis second.coherent second.sound made
          refine ⟨(first.trans second).trans third, ?_⟩
          rw [List.forall_mem_cons]
          exact ⟨⟨third.inputs id (second.inputs id hasInput), third.outputs id hasOutput⟩, others⟩

end

end Builder

theorem Graph.Built.covered [Signature β] {graph : Graph β α μ} (built : graph.Built) :
    graph.frame.wiring.Covered := by
  obtain ⟨builder, assembled, made⟩ := built
  obtain ⟨after, workers, completed, finished, workersEq, bankEq, _⟩ := Graph.build_view made
  obtain ⟨attached, coherent⟩ := assembled.coherent
  rw [Graph.wiring_of_finishAll (workersEq ▸ finished) bankEq]
  exact (coherent.completeAll assembled.sound completed).1.coherent.covered

end DemandFlow
