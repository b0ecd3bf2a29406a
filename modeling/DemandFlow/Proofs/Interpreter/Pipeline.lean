import DemandFlow.Proofs.Interpreter.Confluence
import DemandFlow.Proofs.Interpreter.Halting
import DemandFlow.Proofs.Net.Line

/-!
Interpreters of pipelines. An interpreter over filters in a row runs a stretch of a line: what
comes in and what a successful call fires are events of the line, and afterwards every filter
of the stretch starves. On the way to a marking in which all of them starve a call fires nobody
whom the rest of the way does not fire too, so it comes to an end, it succeeds, and it arrives
at this marking.
-/

set_option autoImplicit false

namespace DemandFlow.Interpreter

variable {β α μ : Type}

/-- The interpreter runs a row of filters, without constraints and without a limit on passes.
The row is a stretch of a line in which everybody acts as told. -/
structure Stretch [Signature β] [Work β α μ] (start : Interpreter β α μ)
    (row : start.graph.Row) (offset : Nat) (bodies : List β) (kind : Nat → β → Prop)
    (act : Nat → β → Nat → (Nat → List α) → Response β α) : Prop where
  common : start.Unconstrained (row.kinds offset kind) (row.acts offset act)
  describes : start.graph.layout.Describes start.graph.frame
  within : row.Within offset bodies
  conducted : Conducted (μ := μ) bodies kind act
  embodied : start.graph.Embodied (row.kinds offset kind) start.graph
  members : ∀ id worker, start.graph.worker? id = some worker → id ∈ start.members
  sinks : start.sinks = sinksOf start.graph start.members
  unlimited : start.maxPasses = none

/-- An interpreter over a whole graph of reliable filters in a row. -/
structure Pipeline [Signature β] [Work β α μ] (start : Interpreter β α μ) where
  row : start.graph.Row
  built : start.graph.Built
  unshared : start.graph.bank.Unshared
  undeclared : start.graph.constraints = []
  reliable : ∀ body ∈ row.bodies, Reliable α μ body
  opened : Opens start.graph start.graph.workerIds start.graph.constraints start
  unlimited : start.maxPasses = none

section

variable [Signature β] [Work β α μ] {start now left : Interpreter β α μ}
  {offset : Nat} {bodies : List β} {kind : Nat → β → Prop}
  {act : Nat → β → Nat → (Nat → List α) → Response β α}

theorem Pipeline.stretch (pipeline : start.Pipeline) (within : pipeline.row.Within offset bodies)
    (conducted : Conducted (μ := μ) bodies kind act) :
    start.Stretch pipeline.row offset bodies kind act := by
  obtain ⟨governed, embodied⟩ :=
    pipeline.row.governed pipeline.built pipeline.unshared within conducted
  have unscheduled : start.constraints = [] := by
    rw [List.eq_nil_iff_forall_not_mem]
    intro constraint member
    have among := pipeline.opened.given constraint member
    rw [pipeline.undeclared] at among
    cases among
  have sound := pipeline.opened.frame_sound pipeline.built.sound
  obtain ⟨made, delegate, maxPasses, created, same⟩ := pipeline.opened
  have accepted := accepted_of_create created
  have members : start.members = made.members := by rw [same]
  have sinks : start.sinks = made.sinks := by rw [same]
  refine ⟨⟨governed, sound, unscheduled⟩, pipeline.built.describes, within, conducted,
    embodied, ?_, ?_, pipeline.unlimited⟩
  · intro id worker known
    have inside : id ∈ start.graph.workerIds :=
      List.mem_range.mpr (List.getElem?_eq_some_iff.mp known).1
    rw [members, accepted.members]
    exact List.mem_filter.mpr ⟨inside, List.contains_iff_mem.mpr inside⟩
  · rw [sinks, members]
    exact accepted.sinks

namespace Stretch

variable {row : start.graph.Row} (stretch : start.Stretch row offset bodies kind act)
  {marking : Marking β α} {index : Nat}
include stretch

theorem place_mem (inside : index < row.bodies.length) : row.place index ∈ start.members := by
  obtain ⟨worker, known, _⟩ := row.known (List.getElem?_eq_getElem inside)
  exact stretch.members _ worker known

theorem position_of_mem {id : WorkerId} (member : id ∈ start.members) :
    row.position id < row.bodies.length ∧ row.place (row.position id) = id := by
  have known := stretch.common.sound.known id member
  change id < (start.graph.workers.map Worker.frame).length at known
  rw [List.length_map] at known
  exact row.everyone id _ (List.getElem?_eq_getElem known)

theorem frame_sound : start.graph.frame.wiring.Sound :=
  stretch.common.sound.graph.wiring

/-- Between two neighbours, the input of the lower one names the upper one. -/
theorem peer_of_input (inside : index + 1 < row.bodies.length) {port : Port}
    (member : port ∈ start.graph.frame.wiring.inputs (row.place (index + 1))) :
    port.peer = some (row.place index) := by
  have outputs : (start.graph.frame.wiring.outputs (row.place index)).map Port.channel =
    [row.link (index + 1)] := row.outputs_place (by omega)
  have inputs : (start.graph.frame.wiring.inputs (row.place (index + 1))).map Port.channel =
    [row.link (index + 1)] := row.inputs_place inside
  have here : port.channel = row.link (index + 1) := by
    rw [← List.mem_singleton, ← inputs]
    exact List.mem_map_of_mem member
  obtain ⟨output, outputsEq, outputChannel⟩ := List.map_eq_singleton_iff.mp outputs
  obtain ⟨input, place⟩ := List.mem_iff_getElem?.mp member
  have outputPlace : (start.graph.frame.wiring.outputs (row.place index))[0]? = some output := by
    rw [outputsEq]
    rfl
  exact (stretch.frame_sound.ends _ _ 0 input output port outputPlace place
    (outputChannel.trans here.symm)).2.1

theorem position_of_peer (inside : index < row.bodies.length) {port : Port}
    (member : port ∈ start.graph.frame.wiring.inputs (row.place index)) {peer : WorkerId}
    (named : port.peer = some peer) (peerIn : peer ∈ start.members) :
    row.position peer + 1 = index := by
  obtain ⟨peerInside, peerPlace⟩ := stretch.position_of_mem peerIn
  have outputs : (start.graph.frame.wiring.outputs peer).map Port.channel =
      [row.link (row.position peer + 1)] := by
    have here := row.outputs_place peerInside
    rw [peerPlace] at here
    exact here
  have inputs : (start.graph.frame.wiring.inputs (row.place index)).map Port.channel =
    [row.link index] := row.inputs_place inside
  obtain ⟨input, place⟩ := List.mem_iff_getElem?.mp member
  obtain ⟨output, outputPort, outputAt, same⟩ :=
    stretch.frame_sound.producer _ input port peer place named
  have inputChannel : port.channel = row.link index := by
    rw [← List.mem_singleton, ← inputs]
    exact List.mem_map_of_mem member
  have outputChannel : outputPort.channel = row.link (row.position peer + 1) := by
    rw [← List.mem_singleton, ← outputs]
    exact List.mem_map_of_mem (List.mem_of_getElem? outputAt)
  apply row.apart _ _ peerInside (Nat.le_of_lt inside)
  rw [← outputChannel, same, inputChannel]

/-- What a filter has at a time of the history: the ports and rates it had in the beginning. -/
theorem worker_place (frame : now.frame = start.frame) {body : β}
    (place : row.bodies[index]? = some body) {worker : Worker β μ}
    (known : now.graph.worker? (row.place index) = some worker) :
    worker.rates = Signature.rates body .filter ∧ worker.inputChannels = [row.link index] ∧
      worker.inputs = start.graph.frame.wiring.inputs (row.place index) := by
  have graphFrame : now.graph.frame = start.graph.frame := congrArg InterpreterFrame.graph frame
  obtain ⟨origin, found, same⟩ := Graph.worker_of_frame_eq graphFrame known
  obtain ⟨other, otherFound, _, inputs, _⟩ := row.filter index body place
  rw [found] at otherFound
  cases otherFound
  have rates := row.rates_place stretch.describes place found
  rw [show origin.rates = worker.rates from congrArg WorkerFrame.rates same] at rates
  have sameInputs : origin.inputs = worker.inputs := congrArg WorkerFrame.inputs same
  unfold Worker.inputChannels at inputs ⊢
  rw [Graph.wiring_inputs found]
  rw [sameInputs] at inputs ⊢
  exact ⟨rates, inputs, rfl⟩

/-- A look at a filter that cannot fire turns to the one before it, or to the outside if there
is none, and the filter starves. -/
theorem of_needs
    (continues : Continues start (row.kinds offset kind) (row.Shows offset marking) now)
    (inside : index < row.bodies.length) {target : Option WorkerId}
    (needs : now.Needs (row.place index) target) :
    Net.Starves bodies marking (offset + index) ∧
      (∀ upper, index = upper + 1 → target = some (row.place upper)) ∧
      ∀ peer, target = some peer → row.position peer + 1 = index := by
  have place := List.getElem?_eq_getElem inside
  have members : now.members = start.members := congrArg InterpreterFrame.members continues.frame_eq
  cases needs with
  | sender known fed due =>
      obtain ⟨constraint, scheduled, _⟩ := dueSender?_eq_some due
      rw [stretch.common.none_scheduled continues.frame_eq] at scheduled
      cases scheduled
  | @input worker input _ known starved feeds =>
      obtain ⟨rates, channels, inputs⟩ := stretch.worker_place continues.frame_eq place known
      obtain ⟨port, portAt, other, slot, peek, pop, required, otherKnown, slotAt, peekAt, popAt,
        demanded, short⟩ := starved_of_starvedInput known starved
      rw [known] at otherKnown
      cases otherKnown
      have member : port ∈ start.graph.frame.wiring.inputs (row.place index) := by
        rw [← inputs]
        exact List.mem_of_getElem? portAt
      have here : port.channel = row.link index := by
        rw [← List.mem_singleton, ← channels]
        exact List.mem_map_of_mem (List.mem_of_getElem? portAt)
      obtain rfl : slot = 0 := by
        have bound := (List.getElem?_eq_some_iff.mp slotAt).1
        have single := congrArg List.length channels
        unfold Worker.inputChannels at single
        rw [List.length_map, List.length_singleton] at single
        omega
      have fed : now.Feeds target port := by
        rw [← feeds]
        exact feeds_of_producer? portAt
      refine ⟨⟨_, required, stretch.within index _ place, ?_, ?_⟩, ?_, ?_⟩
      · rw [← rates]
        unfold WorkerRates.need?
        rw [peekAt, popAt]
        exact demanded
      · rw [← continues.path.items index (Nat.le_of_lt inside), ← here]
        exact short
      · intro upper below
        subst below
        have named := stretch.peer_of_input inside member
        cases target with
        | none =>
            have upperIn := stretch.place_mem (Nat.lt_of_succ_lt inside)
            exact absurd named (fed _ (members ▸ upperIn))
        | some peer => exact fed.1.symm.trans named
      · intro peer same
        subst same
        exact stretch.position_of_peer inside member fed.1 (members ▸ fed.2)

private theorem last_mem_sinks (last : index + 1 = row.bodies.length) :
    row.place index ∈ start.sinks := by
  rw [stretch.sinks, mem_sinksOf]
  refine ⟨stretch.place_mem (by omega), ?_⟩
  intro consumer member port portIn named
  obtain ⟨inside, place⟩ := stretch.position_of_mem member
  rw [← place] at portIn
  have before := stretch.position_of_peer inside portIn named (stretch.place_mem (by omega))
  rw [row.position_place index (by omega)] at before
  omega

theorem starves (continues : Continues start (row.kinds offset kind) (row.Shows offset marking) now)
    (jammed : now.AllJammed start.sinks) (inside : index < row.bodies.length) :
    Net.Starves bodies marking (offset + index) := by
  have each (gap : Nat) (index : Nat) (last : index + gap + 1 = row.bodies.length) :
      ∃ depth, now.Jammed (row.place index) depth := by
    -- The jam leads from the last filter, which is a sink, upwards.
    induction gap generalizing index with
    | zero => exact jammed _ (stretch.last_mem_sinks last)
    | succ gap inductionHypothesis =>
        obtain ⟨depth, jam⟩ := inductionHypothesis (index + 1) (by omega)
        have below : index + 1 < row.bodies.length := by omega
        cases jam with
        | outside needs => cases (stretch.of_needs continues below needs).2.1 index rfl
        | behind needs deeper =>
            cases (stretch.of_needs continues below needs).2.1 index rfl
            exact ⟨_, deeper⟩
  obtain ⟨depth, jam⟩ := each (row.bodies.length - index - 1) index (by omega)
  cases jam with
  | outside needs => exact (stretch.of_needs continues inside needs).1
  | behind needs deeper => exact (stretch.of_needs continues inside needs).1

/-! ### Operations are events of the line -/

theorem push (continues : Continues start (row.kinds offset kind) (row.Shows offset marking) now)
    {token : BoundaryToken} {elements : List α} {boundary : BoundaryChannel}
    (known : now.boundary? token = some boundary) (input : boundary.direction = .input)
    (push : now.pushAll? token elements = some left) :
    0 < row.bodies.length ∧ boundary.channel = row.link 0 ∧
      Continues start (row.kinds offset kind)
        (row.Shows offset
          { marking with items := fun other =>
              marking.items other ++ if other = offset then elements else [] }) left := by
  obtain ⟨frame, embodied, steps⟩ := stretch.common.push continues known input push
  have listed : boundary ∈ start.frame.boundaries := by
    rw [← continues.frame_eq]
    exact List.mem_of_getElem? known
  obtain ⟨id, member, port, portIn, same, foreign⟩ :=
    stretch.common.sound.fed boundary listed input
  obtain ⟨inside, place⟩ := stretch.position_of_mem member
  have portThere : port ∈ start.graph.frame.wiring.inputs (row.place (row.position id)) := by
    rw [place]
    exact portIn
  have first : row.position id = 0 := by
    cases position : row.position id with
    | zero => rfl
    | succ upper =>
        rw [position] at inside portThere
        have upperIn := stretch.place_mem (Nat.lt_of_succ_lt inside)
        exact absurd (stretch.peer_of_input inside portThere) (foreign _ upperIn)
  rw [first] at inside portThere
  have channel : boundary.channel = row.link 0 := by
    rw [← same, ← List.mem_singleton, ← row.inputs_place inside]
    exact List.mem_map_of_mem portThere
  refine ⟨inside, channel, frame, embodied, ?_⟩
  rw [steps.of_pushes]
  refine ⟨continues.path.state, ?_⟩
  intro index within
  dsimp only
  rw [continues.path.items index within, channel]
  simp only [row.link_inj within (Nat.zero_le _), Nat.add_eq_left]

theorem pushes {token : BoundaryToken} {boundary : BoundaryChannel}
    (known : start.boundary? token = some boundary) (input : boundary.direction = .input)
    {batches : List (List α)}
    (continues : Continues start (row.kinds offset kind) (row.Shows offset marking) now)
    (fed : batches.foldlM (fun now elements => now.pushAll? token elements) now = some left) :
    Continues start (row.kinds offset kind)
      (row.Shows offset
        { marking with items := fun other =>
            marking.items other ++ if other = offset then batches.flatten else [] }) left := by
  induction batches generalizing now marking with
  | nil =>
      cases fed
      simpa only [List.flatten_nil, ite_self, List.append_nil] using continues
  | cons elements rest inductionHypothesis =>
      rw [List.foldlM_cons, Option.bind_eq_bind, Option.bind_eq_some_iff] at fed
      obtain ⟨middle, first, later⟩ := fed
      have knownNow : now.boundary? token = some boundary := by
        unfold boundary?
        rw [show now.boundaries = start.boundaries from
          congrArg InterpreterFrame.boundaries continues.frame_eq]
        exact known
      obtain ⟨_, _, reached⟩ := stretch.push continues knownNow input first
      have ended := inductionHypothesis reached later
      have items (other : ChannelId) :
          (marking.items other ++ if other = offset then elements else []) ++
              (if other = offset then rest.flatten else []) =
            marking.items other ++
              if other = offset then (elements :: rest).flatten else [] := by
        split <;> simp
      simp only [items] at ended
      exact ended

theorem sinks_jam [Recipient β μ] (frame : now.frame = start.frame) {fuel : Nat} {progress : Bool}
    (run : now.interpret fuel = some (.ok progress, left)) : left.AllJammed start.sinks := by
  have limit : now.maxPasses = none :=
    (congrArg InterpreterFrame.maxPasses frame).trans stretch.unlimited
  have jammed := interpret_jams (stretch.common.orderly frame) limit run
  have sinks : left.sinks = start.sinks :=
    congrArg InterpreterFrame.sinks ((interpret_frame run).trans frame)
  rw [sinks] at jammed
  exact jammed

/-- A successful call fires filters of the stretch until all of them starve. -/
theorem call [Recipient β μ]
    (continues : Continues start (row.kinds offset kind) (row.Shows offset marking) now)
    {fuel : Nat} {progress : Bool} (run : now.interpret fuel = some (.ok progress, left)) :
    ∃ events later, (Net.line bodies act).Run marking events later ∧
      (∀ event ∈ events, ∃ index, index < row.bodies.length ∧ event = .fire (offset + index)) ∧
      Continues start (row.kinds offset kind) (row.Shows offset later) left ∧
      ∀ index, index < row.bodies.length → Net.Starves bodies later (offset + index) := by
  let path : Marking β α → Prop := fun own =>
    ∃ events later, (Net.line bodies act).Run marking events later ∧
      (∀ event ∈ events, ∃ index, index < row.bodies.length ∧ event = .fire (offset + index)) ∧
      row.Shows offset later own
  have reached : Continues start (row.kinds offset kind) path left := by
    refine stretch.common.interpret ?_
      ⟨continues.frame_eq, continues.embodied, [], marking, .done, nofun, continues.path⟩ run
    intro pulled current waiting now worker effect _ hanging _ does ⟨events, later, run, fires,
      shows⟩
    obtain ⟨inside, place⟩ := stretch.position_of_mem
      (hanging.pulling.members current (List.mem_cons_self ..))
    rw [← place] at does
    obtain ⟨further, doesToo, showsToo⟩ :=
      shows.fire stretch.within stretch.describes inside does
    refine ⟨_, _, run.snoc doesToo, ?_, showsToo⟩
    intro event member
    rcases List.mem_append.mp member with earlier | last
    · exact fires event earlier
    · exact ⟨_, inside, List.mem_singleton.mp last⟩
  obtain ⟨events, later, steps, fires, shows⟩ := reached.path
  have ends : Continues start (row.kinds offset kind) (row.Shows offset later) left :=
    ⟨reached.frame_eq, reached.embodied, shows⟩
  have jammed := stretch.sinks_jam continues.frame_eq run
  exact ⟨events, later, steps, fires, ends, fun index inside => stretch.starves ends jammed inside⟩

end Stretch

end

/-- So many firings of the stretch lead from what the marking shows to the final marking. -/
def Ahead [Signature β] {graph : Graph β α μ} (row : graph.Row) (offset : Nat) (bodies : List β)
    (act : Nat → β → Nat → (Nat → List α) → Response β α) (final : Marking β α) (count : Nat)
    (own : Marking β α) : Prop :=
  ∃ marking rest, row.Shows offset marking own ∧ (Net.line bodies act).Run marking rest final ∧
    (∀ event ∈ rest, ∃ index, index < row.bodies.length ∧ event = .fire (offset + index)) ∧
    rest.length = count

section

variable [Signature β] [Recipient β μ] [Work β α μ] {start now left after : Interpreter β α μ}
  {row : start.graph.Row} {offset count : Nat} {bodies : List β} {kind : Nat → β → Prop}
  {act : Nat → β → Nat → (Nat → List α) → Response β α} {final own : Marking β α}

namespace Stretch

variable (stretch : start.Stretch row offset bodies kind act)
  (quiet : ∀ index, index < row.bodies.length → Net.Starves bodies final (offset + index))
include stretch quiet

omit [Recipient β μ] in
/-- Whoever fires on the way is one of those still to fire. -/
theorem closer (ahead : Ahead row offset bodies act final count own) {current : WorkerId}
    (member : current ∈ start.members) {effect : Net.Effect β α}
    (does : (start.net (row.acts offset act)).Does own (.fire current) effect) :
    ∃ fewer, fewer < count ∧ Ahead row offset bodies act final fewer (effect.apply own) := by
  obtain ⟨marking, rest, shows, run, fires, length⟩ := ahead
  obtain ⟨inside, place⟩ := stretch.position_of_mem member
  rw [← place] at does
  obtain ⟨further, doesToo, showsToo⟩ :=
    shows.fire stretch.within stretch.describes inside does
  have listed := run.fires_of_starves doesToo (quiet _ inside)
  obtain ⟨fewer, remaining, shorter, among⟩ := run.shorten doesToo Net.line_sound listed
  exact ⟨fewer.length, length ▸ shorter, _, fewer, showsToo, remaining,
    fun event member => fires event (among event member), rfl⟩

private theorem turn
    (continues : Continues start (row.kinds offset kind)
      (Ahead row offset bodies act final count) now)
    (turn : Turn after now) :
    ∃ fewer, fewer < count ∧
      Continues start (row.kinds offset kind) (Ahead row offset bodies act final fewer) after := by
  obtain ⟨stats, current, waiting, left, inside, view, rfl⟩ := turn
  have members : now.members = start.members := congrArg InterpreterFrame.members continues.frame_eq
  have member : current ∈ start.members := members ▸ inside
  have counted : Continues start (row.kinds offset kind) (Ahead row offset bodies act final count)
      { now with stats := stats } := ⟨continues.frame_eq, continues.embodied, continues.path⟩
  cases view with
  | fired ready free firing follow =>
      have reached : Continues start (row.kinds offset kind)
          (fun own => ∃ fewer, fewer < count ∧ Ahead row offset bodies act final fewer own) _ :=
        stretch.common.fired counted member ready firing follow
          (fun effect does ahead => stretch.closer quiet ahead member does)
      obtain ⟨fewer, less, ahead⟩ := reached.path
      exact ⟨fewer, less, reached.frame_eq, reached.embodied, ahead⟩

private theorem turns_end
    (continues : Continues start (row.kinds offset kind)
      (Ahead row offset bodies act final count) now) :
    Acc Turn now := by
  induction count using Nat.strong_induction_on generalizing now with
  | _ count inductionHypothesis =>
      constructor
      intro after turn
      obtain ⟨fewer, less, further⟩ := stretch.turn quiet continues turn
      exact inductionHypothesis fewer less further

omit [Recipient β μ] quiet in
/-- The workers on a stack stand in the row from top to bottom. -/
theorem ascending {marking : Marking β α}
    (continues : Continues start (row.kinds offset kind) (row.Shows offset marking) now)
    {stack : List WorkerId} (members : ∀ id ∈ stack, id ∈ start.members)
    (chain : List.IsChain (fun upper lower => now.Needs lower (some upper)) stack) :
    stack.Pairwise (fun upper lower => row.position upper < row.position lower) := by
  have steps : stack.IsChain (fun upper lower => row.position upper < row.position lower) := by
    refine chain.imp_of_mem_imp ?_
    intro upper lower _ lowerIn needs
    obtain ⟨inside, place⟩ := stretch.position_of_mem (members lower lowerIn)
    rw [← place] at needs
    have next := (stretch.of_needs continues inside needs).2.2 upper rfl
    omega
  have transitive : IsTrans WorkerId (fun upper lower => row.position upper < row.position lower) :=
    ⟨fun _ _ _ first second => Nat.lt_trans first second⟩
  exact List.isChain_iff_pairwise.mp steps

omit [Recipient β μ] in
private theorem starvedInput_known (frame : now.frame = start.frame) {index : Nat}
    (inside : index < row.bodies.length) {worker : Worker β μ}
    (known : now.graph.worker? (row.place index) = some worker) {bank : Bank α} {error : Error} :
    worker.starvedInput bank ≠ .error error := by
  have place := List.getElem?_eq_getElem inside
  obtain ⟨rates, channels, _⟩ := stretch.worker_place frame place known
  obtain ⟨body, required, bodyAt, needed, _⟩ := quiet index inside
  rw [stretch.within index _ place] at bodyAt
  cases bodyAt
  apply Worker.starvedInput_ne_error
  intro port within
  have single := congrArg List.length channels
  unfold Worker.inputChannels at single
  rw [List.length_map, List.length_singleton] at single
  obtain rfl : port = 0 := by omega
  rw [rates, needed]
  rfl

omit [Recipient β μ] in
theorem path_fires (pulled current : WorkerId) (waiting : List WorkerId)
    (now : Interpreter β α μ) (worker : Worker β μ) (effect : Net.Effect β α)
    (_ : pulled ∈ start.sinks) (hanging : Hanging start.frame [] pulled (current :: waiting) now)
    (_ : now.Ready current worker)
    (does : (start.net (row.acts offset act)).Does now.graph.marking (.fire current) effect)
    (way : ∃ count, Ahead row offset bodies act final count now.graph.marking) :
    ∃ count, Ahead row offset bodies act final count (effect.apply now.graph.marking) := by
  obtain ⟨count, ahead⟩ := way
  obtain ⟨fewer, _, further⟩ := stretch.closer quiet ahead
    (hanging.pulling.members current (List.mem_cons_self ..)) does
  exact ⟨fewer, further⟩

/-- On the way no pull fails. -/
theorem pull_succeeds (heedless : start.delegate = {}) {sink : WorkerId}
    (member : sink ∈ start.sinks)
    (continues : Continues start (row.kinds offset kind)
      (fun own => ∃ count, Ahead row offset bodies act final count own) now)
    {fuel : Nat} {answer : Except Error Bool}
    (run : pullSteps fuel [sink] now = some (answer, left)) :
    ∃ progress, answer = .ok progress := by
  refine pullSteps_induction
    (fun stack now => Hanging start.frame [] sink stack now ∧
      Continues start (row.kinds offset kind)
        (fun own => ∃ count, Ahead row offset bodies act final count own) now)
    (fun answer _ => ∃ progress, answer = .ok progress)
    ?_ ?_ ?_ run ⟨stretch.common.hanging_single continues.frame_eq member, continues⟩
  · intro now _
    exact ⟨true, rfl⟩
  · intro now current waiting answer left ⟨hanging, continues⟩ view
    have members : ∀ id ∈ current :: waiting, id ∈ start.members := hanging.pulling.members
    have graphFrame : now.graph.frame = start.graph.frame :=
      congrArg InterpreterFrame.graph continues.frame_eq
    have delegate : now.delegate = {} :=
      (congrArg InterpreterFrame.delegate continues.frame_eq).trans heedless
    obtain ⟨inside, place⟩ := stretch.position_of_mem (members current (List.mem_cons_self ..))
    obtain ⟨count, marking, rest, shows, _⟩ := continues.path
    have shown : Continues start (row.kinds offset kind) (row.Shows offset marking) now :=
      ⟨continues.frame_eq, continues.embodied, shows⟩
    cases view with
    | stalled known free starved outside => exact ⟨false, rfl⟩
    | unknown absent =>
        obtain ⟨origin, found, _⟩ := row.known (List.getElem?_eq_getElem inside)
        rw [place] at found
        obtain ⟨worker, known, _⟩ := Graph.worker_of_frame_eq graphFrame.symm found
        rw [absent] at known
        cases known
    | circular known waits =>
        have ordered := stretch.ascending shown members hanging.chain
        exact absurd ((List.pairwise_cons.mp ordered).1 current waits) (Nat.lt_irrefl _)
    | @unsupported worker error known free refused =>
        rw [← place] at known
        exact absurd refused (stretch.starvedInput_known quiet continues.frame_eq inside known)
    | failed ready free firing =>
        obtain ⟨graph, succeeds⟩ := row.fires stretch.common.governed stretch.describes
          stretch.within stretch.conducted continues.embodied ready.known ready.fed
        rw [succeeds] at firing
        cases firing
    | refused ready free firing follow =>
        rw [delegate] at follow
        cases follow
  · intro now current waiting stack left ⟨hanging, continues⟩ view
    exact ⟨hanging.look view,
      stretch.common.look (stretch.path_fires quiet) member hanging continues view⟩

/-- A successful call on the way to a marking in which all starve arrives there. -/
theorem arrives
    (continues : Continues start (row.kinds offset kind)
      (Ahead row offset bodies act final count) now)
    {fuel : Nat} {progress : Bool} (run : now.interpret fuel = some (.ok progress, left)) :
    Continues start (row.kinds offset kind) (row.Shows offset final) left := by
  have reached : Continues start (row.kinds offset kind)
      (fun own => ∃ count, Ahead row offset bodies act final count own) left :=
    stretch.common.interpret (stretch.path_fires quiet)
      ⟨continues.frame_eq, continues.embodied, count, continues.path⟩ run
  obtain ⟨later, marking, rest, shows, remaining, fires, _⟩ := reached.path
  have shown : Continues start (row.kinds offset kind) (row.Shows offset marking) left :=
    ⟨reached.frame_eq, reached.embodied, shows⟩
  have jammed := stretch.sinks_jam continues.frame_eq run
  -- Everybody starves already, so nothing is left of the way.
  obtain ⟨_, rfl⟩ := remaining.eq_nil_of_starves (by
    intro event member
    obtain ⟨index, inside, same⟩ := fires event member
    exact ⟨offset + index, same, stretch.starves shown jammed inside⟩)
  exact shown

theorem completes (heedless : start.delegate = {})
    (continues : Continues start (row.kinds offset kind)
      (Ahead row offset bodies act final count) now) :
    ∃ enough progress left, ∀ fuel, enough ≤ fuel →
      now.interpret fuel = some (.ok progress, left) := by
  let path : Marking β α → Prop := fun own =>
    ∃ count, Ahead row offset bodies act final count own
  have sound : now.frame.Sound := continues.frame_eq ▸ stretch.common.sound
  have bareLies : Continues start (row.kinds offset kind) (Ahead row offset bodies act final count)
      now.bare := ⟨continues.frame_eq, continues.embodied, continues.path⟩
  obtain ⟨enough, answer, left, run⟩ := interpret_halts sound (stretch.turns_end quiet bareLies)
  have kept : KeptByPulls start.sinks (Continues start (row.kinds offset kind) path)
      (fun _ _ => False) :=
    { counted := fun now stats continues => ⟨continues.frame_eq, continues.embodied, continues.path⟩
      sinks_eq := fun now continues => congrArg InterpreterFrame.sinks continues.frame_eq
      pulled := fun fuel sink now progress left member continues run =>
        stretch.common.pull (stretch.path_fires quiet) member continues run
      failed := by
        intro fuel sink now error left member continues run
        obtain ⟨progress, impossible⟩ := stretch.pull_succeeds quiet heedless member continues run
        cases impossible }
  have answered := kept.interpret ⟨continues.frame_eq, continues.embodied, count, continues.path⟩
    (run enough (Nat.le_refl enough))
  cases answer with
  | error error => exact answered.elim
  | ok progress => exact ⟨enough, progress, left, run⟩

end Stretch

end

end DemandFlow.Interpreter
