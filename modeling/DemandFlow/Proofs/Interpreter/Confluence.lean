import DemandFlow.Proofs.Interpreter.Fixpoint
import DemandFlow.Proofs.Net.Embedding
import DemandFlow.Proofs.Stream.Standard

/-!
It does not matter when elements come in. Two histories of determined bodies that bring the
same elements to each input and end with a successful call end in the same state. The later
events of one history can be put in front of those of the other one: a pull of the second
history fires nobody whom the first one has not fired as well, since otherwise a whole stack
of workers would still be waiting when all its sinks are jammed.
-/

set_option autoImplicit false

namespace DemandFlow.Interpreter

variable {β α μ : Type} [Work β α μ]

/-- Elements that come in at input boundaries and calls that succeed, in any order. The first
argument says which elements have come into each channel. -/
inductive History [Recipient β μ] (start : Interpreter β α μ) :
    (ChannelId → List α) → Interpreter β α μ → Prop where
  | start : History start (fun _ => []) start
  | push {given : ChannelId → List α} {interpreter left : Interpreter β α μ}
      {boundary : BoundaryChannel} (before : History start given interpreter)
      (token : BoundaryToken) (elements : List α)
      (known : interpreter.boundary? token = some boundary) (input : boundary.direction = .input)
      (push : interpreter.pushAll? token elements = some left) :
      History start
        (fun channel => given channel ++ if channel = boundary.channel then elements else []) left
  | call {given : ChannelId → List α} {interpreter left : Interpreter β α μ} {progress : Bool}
      (before : History start given interpreter) (fuel : Nat)
      (run : interpreter.interpret fuel = some (.ok progress, left)) : History start given left

/-- A sound section of a graph in which everybody acts as told, without constraints. -/
structure Unconstrained (start : Interpreter β α μ) (kind : WorkerId → β → Prop)
    (act : WorkerId → β → Nat → (Nat → List α) → Response β α) : Prop where
  governed : start.graph.Governed kind act
  sound : start.frame.Sound
  constraints : start.constraints = []

def net (start : Interpreter β α μ)
    (act : WorkerId → β → Nat → (Nat → List α) → Response β α) : Net β α :=
  start.graph.net start.members act

/-- The interpreter is a later state of the other one, with a marking of the given kind. -/
structure Continues (start : Interpreter β α μ) (kind : WorkerId → β → Prop)
    (path : Marking β α → Prop) (now : Interpreter β α μ) : Prop where
  frame_eq : now.frame = start.frame
  embodied : start.graph.Embodied kind now.graph
  path : path now.graph.marking

section

variable {start now left final : Interpreter β α μ} {kind : WorkerId → β → Prop}
  {act : WorkerId → β → Nat → (Nat → List α) → Response β α} {path : Marking β α → Prop}

namespace Unconstrained

variable (common : start.Unconstrained kind act)
include common

theorem none_scheduled (frame : now.frame = start.frame) : now.constraints = [] :=
  (congrArg InterpreterFrame.constraints frame).trans common.constraints

theorem orderly (frame : now.frame = start.frame) : now.Orderly where
  sound := frame ▸ common.sound
  unshared := unshared_of_frame_eq frame common.governed.unshared
  nondecreasing := by
    rw [common.none_scheduled frame]
    intro constraint impossible
    cases impossible

/-- Elements that come in at an input boundary are events of the net. -/
theorem push (continues : Continues start kind path now) {token : BoundaryToken} {elements : List α}
    {boundary : BoundaryChannel} (known : now.boundary? token = some boundary)
    (input : boundary.direction = .input) (push : now.pushAll? token elements = some left) :
    left.frame = start.frame ∧ start.graph.Embodied kind left.graph ∧
      (start.net act).Run now.graph.marking (elements.map (.push boundary.channel))
        left.graph.marking := by
  have frame := continues.frame_eq
  have orderly := common.orderly frame
  unfold pushAll? channelId? at push
  rw [known] at push
  cases push
  have kept : (now.withBank (now.graph.bank.pushAll boundary.channel elements)).frame =
      now.frame := frame_withBank (Bank.keys_set _ _ _)
  refine ⟨kept.trans frame, continues.embodied.congr rfl (congrArg InterpreterFrame.graph kept), ?_⟩
  obtain ⟨owner, _, port, portIn, same, foreign⟩ :=
    orderly.sound.fed boundary (List.mem_of_getElem? known) input
  obtain ⟨index, place⟩ := List.mem_iff_getElem?.mp portIn
  have wired := orderly.sound.graph.wiring
  apply Graph.run_pushAll orderly.unshared
  · have within := wired.inputRange owner index port place
    rw [same] at within
    simpa [GraphFrame.wiring, Interpreter.frame, Graph.frame, Bank.keys, Bank.size] using within
  · intro id inside fed
    have members : now.members = start.members := congrArg InterpreterFrame.members frame
    have graphFrame : now.graph.frame = start.graph.frame :=
      congrArg InterpreterFrame.graph frame
    change boundary.channel ∈ (start.graph.frame.wiring.outputs id).map Port.channel at fed
    rw [← graphFrame] at fed
    obtain ⟨output, outputIn, outputSame⟩ := List.mem_map.mp fed
    obtain ⟨outputIndex, outputPlace⟩ := List.mem_iff_getElem?.mp outputIn
    have ends := wired.ends id owner outputIndex index output port outputPlace place
      (outputSame.trans same.symm)
    refine foreign id ?_ ends.2.1
    change id ∈ now.members
    rw [members]
    exact inside

/-- A firing that succeeds, and whose follow-up does, is an event of the net. -/
theorem fired [Recipient β μ] {further : Marking β α → Prop} {current : WorkerId}
    {worker : Worker β μ} {graph after : Graph β α μ} (continues : Continues start kind path now)
    (inside : current ∈ start.members) (ready : now.Ready current worker)
    (firing : now.graph.fire current = (.ok (), graph))
    (follow : now.delegate.afterFire (now.stats.firings + 1) graph current = (.ok (), after))
    (leads : ∀ effect, (start.net act).Does now.graph.marking (.fire current) effect →
      path now.graph.marking → further (effect.apply now.graph.marking)) :
    Continues start kind further (countFiring { now with graph := after } current) := by
  obtain ⟨embodied, effect, does, applied⟩ :=
    continues.embodied.fire common.governed inside ready.known ready.fed firing
  have counted := now.delegate.afterFire_sameButCounts (now.stats.firings + 1) graph current
  rw [follow] at counted
  have reached := leads effect does continues.path
  rw [← applied, ← counted.marking_eq] at reached
  have view : PullView now current [] (.proceed [] _) :=
    .fired ready List.not_mem_nil firing follow
  exact ⟨view.frame_left.trans continues.frame_eq, embodied.congr counted.1 counted.2.1, reached⟩

theorem hanging_single (frame : now.frame = start.frame) {sink : WorkerId}
    (member : sink ∈ start.sinks) : Hanging start.frame [] sink [sink] now := by
  refine ⟨⟨frame, ?_, trivial, .inr ⟨[], rfl⟩⟩, common.orderly frame,
    List.isChain_singleton sink, ?_⟩
  · rw [List.forall_mem_singleton]
    exact common.sound.sinks sink member
  · intro id impossible
    cases impossible

section

variable [Recipient β μ]
  (fires : ∀ (pulled current : WorkerId) (waiting : List WorkerId) (now : Interpreter β α μ)
    (worker : Worker β μ) (effect : Net.Effect β α), pulled ∈ start.sinks →
    Hanging start.frame [] pulled (current :: waiting) now → now.Ready current worker →
    (start.net act).Does now.graph.marking (.fire current) effect →
    path now.graph.marking → path (effect.apply now.graph.marking))
include fires

theorem look {pulled current : WorkerId} {waiting stack : List WorkerId}
    (member : pulled ∈ start.sinks)
    (hanging : Hanging start.frame [] pulled (current :: waiting) now)
    (continues : Continues start kind path now)
    (view : PullView now current waiting (.proceed stack left)) :
    Continues start kind path left := by
  cases view with
  | feeder known free starved inside => exact continues
  | sender known free fed due => exact continues
  | @fired worker graph after ready free firing follow =>
      have inside : current ∈ start.members :=
        hanging.pulling.members current (List.mem_cons_self ..)
      exact common.fired continues inside ready firing follow (fun effect does reached =>
        fires pulled current waiting now worker effect member hanging ready does reached)

theorem pull {sink : WorkerId} (member : sink ∈ start.sinks)
    (continues : Continues start kind path now) {fuel : Nat} {progress : Bool}
    (run : pullSteps fuel [sink] now = some (.ok progress, left)) :
    Continues start kind path left := by
  refine pullSteps_induction
    (fun stack now => Hanging start.frame [] sink stack now ∧ Continues start kind path now)
    (fun answer left => ∀ progress, answer = .ok progress → Continues start kind path left)
    ?_ ?_ ?_ run ⟨common.hanging_single continues.frame_eq member, continues⟩ progress rfl
  · rintro now ⟨_, continues⟩ progress ⟨⟩
    exact continues
  · rintro now current waiting answer left ⟨_, continues⟩ view progress ⟨⟩
    cases view with
    | stalled known free starved outside =>
        exact ⟨continues.frame_eq, continues.embodied, continues.path⟩
  · rintro now current waiting stack left ⟨hanging, continues⟩ view
    exact ⟨hanging.look view, common.look fires member hanging continues view⟩

/-- What the firings of pulls keep is kept by calls that succeed. -/
theorem interpret (continues : Continues start kind path now) {fuel : Nat} {progress : Bool}
    (run : now.interpret fuel = some (.ok progress, left)) : Continues start kind path left := by
  have kept : KeptByPulls start.sinks (Continues start kind path) (fun _ _ => True) :=
    { counted := fun now stats continues => ⟨continues.frame_eq, continues.embodied, continues.path⟩
      sinks_eq := fun now continues => congrArg InterpreterFrame.sinks continues.frame_eq
      pulled := fun _ _ _ _ _ member continues run => common.pull fires member continues run
      failed := fun _ _ _ _ _ _ _ _ => trivial }
  exact kept.interpret continues run

end

/-! ### Whoever is about to fire does fire elsewhere -/

private theorem lacks (frame : now.frame = start.frame) {upper lower : WorkerId}
    (needs : now.Needs lower (some upper)) :
    ∃ (index : Nat) (channel : ChannelId),
      ((start.net act).layout.inputs lower)[index]? = some channel ∧
      channel ∈ (start.net act).layout.outputs upper ∧
      (now.graph.marking.items channel).length < (start.net act).need lower index := by
  have graphFrame : now.graph.frame = start.graph.frame := congrArg InterpreterFrame.graph frame
  cases needs with
  | sender known fed due =>
      obtain ⟨constraint, scheduled, _⟩ := dueSender?_eq_some due
      rw [common.none_scheduled frame] at scheduled
      cases scheduled
  | @input worker input _ known starved feeds =>
      obtain ⟨port, portAt, other, index, peek, pop, required, otherKnown, place, peekAt, popAt,
        demanded, short⟩ := starved_of_starvedInput known starved
      rw [known] at otherKnown
      cases otherKnown
      have fed : now.Feeds (now.producer? worker input) port := feeds_of_producer? portAt
      rw [feeds] at fed
      have inputs : start.graph.frame.wiring.inputs lower = worker.inputs := by
        rw [← graphFrame]
        exact Graph.wiring_inputs known
      refine ⟨index, port.channel, ?_, ?_, ?_⟩
      · change ((start.graph.frame.wiring.inputs lower).map Port.channel)[index]? = _
        rw [inputs, List.getElem?_map, place]
        rfl
      · obtain ⟨output, outputPort, outputAt, same⟩ := common.sound.graph.wiring.producer lower
          index port upper (inputs ▸ place) fed.1
        rw [← same]
        exact List.mem_map_of_mem (List.mem_of_getElem? outputAt)
      · have inputNeeds : (start.net act).inputNeeds lower = worker.inputNeeds :=
          Graph.inputNeeds_net graphFrame known
        have need := congrFun (congrArg InputNeeds.need inputNeeds) index
        have needed : worker.rates.need? index = some required := by
          unfold WorkerRates.need?
          rw [peekAt, popAt]
          exact demanded
        unfold Worker.inputNeeds at need
        dsimp only at need
        rw [needed] at need
        exact Nat.lt_of_lt_of_eq short need.symm

private theorem needs_later (frame : now.frame = start.frame)
    (finalFrame : final.frame = start.frame) {events : List (Net.Event α)}
    (run : (start.net act).Run now.graph.marking events final.graph.marking)
    {upper lower : WorkerId} (needs : now.Needs lower (some upper))
    (upperIdle : .fire upper ∉ events) (lowerIdle : .fire lower ∉ events) :
    final.Needs lower (some upper) := by
  have graphFrame : now.graph.frame = start.graph.frame := congrArg InterpreterFrame.graph frame
  have finalGraphFrame : final.graph.frame = start.graph.frame :=
    congrArg InterpreterFrame.graph finalFrame
  have members : now.members = start.members := congrArg InterpreterFrame.members frame
  have wired : (start.net act).layout.Sound := common.governed.layout_sound
  refine needs.outlasts (finalFrame.trans frame.symm) (common.orderly frame).nondecreasing
    (Graph.executions?_of_state_eq (run.state_of_idle lowerIdle)) ?_ ?_ ?_ ?_
  · rintro peer ⟨⟩
    exact Graph.executions?_of_state_eq (run.state_of_idle upperIdle)
  · intro peer later counted
    obtain ⟨worker, known, rfl⟩ := Option.map_eq_some_iff.mp counted
    obtain ⟨earlier, found, _⟩ :=
      Graph.worker_of_frame_eq (finalGraphFrame.trans graphFrame.symm) known
    obtain ⟨body, total, shown, ordered, _⟩ := run.count (Graph.marking_state found)
    rw [Graph.marking_state known] at shown
    cases shown
    exact ⟨earlier.executions, Graph.executions?_of_known found, ordered⟩
  · intro port member
    rw [graphFrame] at member
    have mine : port.channel ∈ (start.net act).layout.inputs lower := List.mem_map_of_mem member
    exact (run.items_input wired lowerIdle mine).length_le
  · intro port member feeds
    rw [graphFrame] at member
    obtain ⟨index, place⟩ := List.mem_iff_getElem?.mp member
    obtain ⟨output, outputPort, outputAt, same⟩ :=
      common.sound.graph.wiring.producer lower index port upper place feeds.1
    have theirs : port.channel ∈ (start.net act).layout.outputs upper := by
      rw [← same]
      exact List.mem_map_of_mem (List.mem_of_getElem? outputAt)
    have inside : upper ∈ start.members := members ▸ feeds.2
    exact (run.items_output wired inside upperIdle theirs).length_le

/-- If the top of a stack does not fire, nobody below it does, and the stack stays as it is. -/
theorem chain_later (frame : now.frame = start.frame) (finalFrame : final.frame = start.frame)
    {events : List (Net.Event α)}
    (run : (start.net act).Run now.graph.marking events final.graph.marking) {top : WorkerId}
    {waiting : List WorkerId}
    (chain : List.IsChain (fun upper lower => now.Needs lower (some upper)) (top :: waiting))
    (members : ∀ id ∈ top :: waiting, id ∈ start.members) (idle : .fire top ∉ events) :
    List.IsChain (fun upper lower => final.Needs lower (some upper)) (top :: waiting) := by
  induction waiting generalizing top with
  | nil => exact List.isChain_singleton top
  | cons lower rest inductionHypothesis =>
      obtain ⟨needs, below⟩ := List.isChain_cons_cons.mp chain
      rw [List.forall_mem_cons] at members
      obtain ⟨index, channel, place, fed, short⟩ := common.lacks frame needs
      -- What the lower one lacks can only come from the one above it, which does not fire.
      have lowerIdle := run.idle_of_starved common.governed.layout_sound members.1 idle place fed
        short
      exact List.isChain_cons_cons.mpr
        ⟨common.needs_later frame finalFrame run needs idle lowerIdle,
          inductionHypothesis below members.2 lowerIdle⟩

/-- Whoever a pull is about to fire does fire in every run that ends with all sinks jammed. -/
theorem fires_ahead (finalFrame : final.frame = start.frame)
    (jammed : final.AllJammed start.sinks) {pulled current : WorkerId} {waiting : List WorkerId}
    {worker : Worker β μ} (sink : pulled ∈ start.sinks)
    (hanging : Hanging start.frame [] pulled (current :: waiting) now)
    (ready : now.Ready current worker) {events : List (Net.Event α)}
    (run : (start.net act).Run now.graph.marking events final.graph.marking) :
    .fire current ∈ events := by
  have frame := hanging.pulling.frame_eq
  have graphFrame : now.graph.frame = start.graph.frame := congrArg InterpreterFrame.graph frame
  have finalGraphFrame : final.graph.frame = start.graph.frame :=
    congrArg InterpreterFrame.graph finalFrame
  by_contra idle
  have chain := common.chain_later frame finalFrame run hanging.chain hanging.pulling.members idle
  obtain ⟨depth, jam⟩ := jammed pulled sink
  obtain ⟨topDepth, topJam⟩ := jammed_top chain hanging.pulling.pulled_mem jam
  -- The top still has what it had, so it is ready and cannot be jammed.
  obtain ⟨other, known, same⟩ :=
    Graph.worker_of_frame_eq (graphFrame.trans finalGraphFrame.symm) ready.known
  have readyStill : final.Ready current other := by
    refine ⟨known, ?_, ?_⟩
    · have fed := ready.fed
      unfold Worker.starvedInput at fed ⊢
      rw [show other.inputs = worker.inputs from congrArg WorkerFrame.inputs same,
        show other.rates = worker.rates from congrArg WorkerFrame.rates same]
      apply Worker.starvedFrom_none_kept fed
      rintro ⟨port, rates⟩ member
      have mine : port.channel ∈ (start.net act).layout.inputs current := by
        change port.channel ∈ (start.graph.frame.wiring.inputs current).map Port.channel
        rw [← graphFrame, Graph.wiring_inputs ready.known]
        exact List.mem_map_of_mem (List.of_mem_zip member).1
      exact (run.items_input common.governed.layout_sound idle mine).length_le
    · unfold dueSender?
      rw [common.none_scheduled finalFrame]
      rfl
  exact topJam.not_ready readyStill

end Unconstrained

end

/-- A run from the start leads to the marking and brings in the given elements. -/
def Led (start : Interpreter β α μ)
    (act : WorkerId → β → Nat → (Nat → List α) → Response β α) (given : ChannelId → List α)
    (marking : Marking β α) : Prop :=
  ∃ events, (start.net act).Run start.graph.marking events marking ∧
    ∀ channel, Net.incoming events channel = given channel

/-- A run leads on from the marking to the final one and brings in what is still missing. -/
def Leads (start : Interpreter β α μ)
    (act : WorkerId → β → Nat → (Nat → List α) → Response β α) (final : Interpreter β α μ)
    (given whole : ChannelId → List α) (marking : Marking β α) : Prop :=
  ∃ events, (start.net act).Run marking events final.graph.marking ∧
    ∀ channel, given channel ++ Net.incoming events channel = whole channel

section

variable [Recipient β μ] {start now left other final : Interpreter β α μ}
  {kind : WorkerId → β → Prop} {act : WorkerId → β → Nat → (Nat → List α) → Response β α}
  {given whole : ChannelId → List α}

theorem History.led (history : start.History given now) (common : start.Unconstrained kind act)
    (embodied : start.graph.Embodied kind start.graph) :
    Continues start kind (start.Led act given) now := by
  induction history with
  | start => exact ⟨rfl, embodied, [], .done, fun _ => rfl⟩
  | push before token elements known input push inductionHypothesis =>
      obtain ⟨frame, embodied, steps⟩ := common.push inductionHypothesis known input push
      obtain ⟨events, run, brings⟩ := inductionHypothesis.path
      refine ⟨frame, embodied, _, run.append steps, ?_⟩
      intro channel
      rw [Net.incoming_append, Net.incoming_pushes, brings]
  | call before fuel run inductionHypothesis =>
      refine common.interpret ?_ inductionHypothesis run
      rintro pulled current waiting now worker effect _ _ _ does ⟨events, run, brings⟩
      refine ⟨_, run.snoc does, ?_⟩
      intro channel
      rw [Net.incoming_append, Net.incoming_fire, brings]
      exact List.append_nil _

/-- Wherever a history has come to, the events of another one that it has not seen yet lead on
to the end of that one. -/
theorem History.leads (history : start.History given now)
    (common : start.Unconstrained kind act)
    (embodied : start.graph.Embodied kind start.graph) (finalFrame : final.frame = start.frame)
    (jammed : final.AllJammed start.sinks) (led : start.Led act whole final.graph.marking)
    (begins : ∀ channel, given channel <+: whole channel) :
    Continues start kind (start.Leads act final given whole) now := by
  have wired : (start.net act).layout.Sound := common.governed.layout_sound
  induction history with
  | start =>
      obtain ⟨events, run, brings⟩ := led
      exact ⟨rfl, embodied, events, run, brings⟩
  | @push given before after boundary _ token elements known input push inductionHypothesis =>
      have continues := inductionHypothesis
        (fun channel => (List.prefix_append _ _).trans (begins channel))
      obtain ⟨frame, embodied, steps⟩ := common.push continues known input push
      obtain ⟨events, run, brings⟩ := continues.path
      obtain ⟨later, split⟩ := begins boundary.channel
      dsimp only at split
      rw [if_pos rfl, List.append_assoc] at split
      have ahead : Net.incoming events boundary.channel = elements ++ later :=
        List.append_cancel_left ((brings boundary.channel).trans split.symm)
      obtain ⟨rest, further, parts⟩ := run.advance_pushes steps wired ahead
      refine ⟨frame, embodied, rest, further, ?_⟩
      intro channel
      rw [← brings channel, parts channel, List.append_assoc]
  | call before fuel run inductionHypothesis =>
      refine common.interpret ?_ (inductionHypothesis begins) run
      rintro pulled current waiting now worker effect sink hanging ready does
        ⟨events, run, brings⟩
      -- The firing is still to come in the other history, so it may be taken out of there.
      have ahead := common.fires_ahead finalFrame jammed sink hanging ready run
      obtain ⟨rest, further, same⟩ := run.advance_fire does wired ahead
      refine ⟨rest, further, ?_⟩
      intro channel
      rw [same, brings]

/-- From the end of one history only firings lead to the end of another one with the same
elements. -/
theorem History.fires_towards (common : start.Unconstrained kind act)
    (embodied : start.graph.Embodied kind start.graph) (unlimited : start.maxPasses = none)
    (history : start.History given left) (otherHistory : start.History given now) {fuel : Nat}
    {progress : Bool} (run : now.interpret fuel = some (.ok progress, other)) :
    ∃ events, (start.net act).Run left.graph.marking events other.graph.marking ∧
      ∀ event ∈ events, ∃ id, event = .fire id := by
  have frame := (otherHistory.led common embodied).frame_eq
  have led := (History.call otherHistory fuel run).led common embodied
  have limit : now.maxPasses = none :=
    (congrArg InterpreterFrame.maxPasses frame).trans unlimited
  have jammed := interpret_jams (common.orderly frame) limit run
  rw [show other.sinks = start.sinks from congrArg InterpreterFrame.sinks led.frame_eq] at jammed
  obtain ⟨events, towards, brings⟩ := (history.leads common embodied led.frame_eq jammed led.path
    (fun _ => List.prefix_refl _)).path
  refine ⟨events, towards, Net.fires_of_incoming ?_⟩
  intro channel
  exact List.append_cancel_left ((brings channel).trans (List.append_nil _).symm)

/-- Two histories over a graph without constraints and shared buffers, in which no message
waits and whose bodies are determined: if they bring the same elements to each input and end
with a successful call, they end with the same workers, bodies and counts included, and the same
elements in each channel. -/
theorem histories_converge [Signature β] {graph : Graph β α μ} (descends : graph.Descends)
    (idle : graph.Idle) (unshared : graph.bank.Unshared) (undeclared : graph.constraints = [])
    (determined : ∀ id worker, graph.worker? id = some worker → worker.Determined α id)
    {workers : List WorkerId} {constraints : List Constraint}
    (opened : Opens graph workers constraints start) (unlimited : start.maxPasses = none)
    {pushed : ChannelId → List α} {first second left right : Interpreter β α μ}
    {leftFuel rightFuel : Nat} {leftProgress rightProgress : Bool}
    (leftHistory : start.History pushed first)
    (leftRun : first.interpret leftFuel = some (.ok leftProgress, left))
    (rightHistory : start.History pushed second)
    (rightRun : second.interpret rightFuel = some (.ok rightProgress, right)) :
    left.graph.workers = right.graph.workers ∧
      ∀ channel, (left.graph.bank.channel channel).items =
        (right.graph.bank.channel channel).items := by
  obtain ⟨kind, act, governed, embodied⟩ :=
    graph.governed_of_determined descends.sound unshared idle determined
  have unscheduled : start.constraints = [] := by
    rw [List.eq_nil_iff_forall_not_mem]
    intro constraint member
    obtain ⟨declared, among, _⟩ := opened.declared constraint member
    rw [undeclared] at among
    cases among
  have soundFrame := opened.frame_sound descends.sound
  have same := opened.graph_eq
  subst same
  have common : start.Unconstrained kind act := ⟨governed, soundFrame, unscheduled⟩
  have leftWhole := History.call leftHistory leftFuel leftRun
  have rightWhole := History.call rightHistory rightFuel rightRun
  obtain ⟨events, towards, fires⟩ :=
    leftWhole.fires_towards common embodied unlimited rightHistory rightRun
  obtain ⟨more, back, _⟩ :=
    rightWhole.fires_towards common embodied unlimited leftHistory leftRun
  have markings : left.graph.marking = right.graph.marking := towards.antisymm back fires
  refine ⟨(leftWhole.led common embodied).embodied.workers_eq
    (rightWhole.led common embodied).embodied markings, ?_⟩
  intro channel
  exact congrFun (congrArg Marking.items markings) channel

end

/-! ### Two sinks behind a splitter, one of which also has an input of its own -/

def mixBuilder : Builder Standard Nat :=
  let builder := (Builder.addWorker {} .splitter ⟨"fork", .duplicate⟩).2
  let builder := (builder.addWorker .joiner ⟨"mix", .roundRobinJoin 1⟩).2
  let builder := (builder.addWorker .filter ⟨"copy", .identity⟩).2
  let builder := (builder.connect 0 1).2
  let builder := (builder.connect 0 2).2
  (builder.attachInput 1 (.own (.ofKind .array))).2

def mixGraph : Graph Standard Nat Unit := mixBuilder.graph

def mixInterpreter : Interpreter Standard Nat Unit :=
  onSection mixGraph mixGraph.workerIds mixGraph.constraints

private theorem mixGraph_built : mixGraph.Built :=
  ⟨mixBuilder,
    .attachInput _ _ (.connect _ _ (.connect _ _
      (.addWorker _ _ (.addWorker _ _ (.addWorker _ _ (.fresh _)))))), rfl⟩

private theorem mixInterpreter_opens :
    Opens mixGraph mixGraph.workerIds mixGraph.constraints mixInterpreter :=
  ⟨mixInterpreter, _, _, rfl, rfl⟩

private theorem mixGraph_unshared : mixGraph.bank.Unshared :=
  Bank.unshared_of_own (by decide)

private theorem mixGraph_determined :
    ∀ id worker, mixGraph.worker? id = some worker → worker.Determined Nat id := by
  intro id worker known
  match id, known with
  | 0, known =>
      cases known
      exact Worker.determined_of_abides rfl
        (Standard.abides rfl (by decide) (by decide) ⟨0, by decide⟩ false) 0
  | 1, known =>
      cases known
      exact Worker.determined_of_abides rfl
        (Standard.abides rfl (by decide) (by decide) ⟨0, by decide⟩ false) 1
  | 2, known =>
      cases known
      exact Worker.determined_of_abides rfl
        (Standard.abides rfl (by decide) (by decide) ⟨0, by decide⟩ false) 2
  | id + 3, known => cases known

theorem histories_converge_mix : ∃ fed full whole half refed parts,
    mixInterpreter.pushAll? 0 [4, 5] = some fed ∧ fed.pushAll? 1 [7, 8] = some full ∧
      full.interpret 9 = some (.ok true, whole) ∧ fed.interpret 9 = some (.ok true, half) ∧
      half.pushAll? 1 [7, 8] = some refed ∧ refed.interpret 9 = some (.ok true, parts) ∧
      whole.journal ≠ parts.journal ∧ whole.graph.workers = parts.graph.workers ∧
      (parts.graph.bank.channel 4).items = [4, 7, 5, 8] := by
  obtain ⟨fed, full, whole, half, refed, parts, push, more, run, halfRun, later, laterRun,
    known, stillKnown, wholeJournal, partsJournal, mixed⟩ : ∃ fed full whole half refed parts,
      mixInterpreter.pushAll? 0 [4, 5] = some fed ∧ fed.pushAll? 1 [7, 8] = some full ∧
        full.interpret 9 = some (.ok true, whole) ∧ fed.interpret 9 = some (.ok true, half) ∧
        half.pushAll? 1 [7, 8] = some refed ∧ refed.interpret 9 = some (.ok true, parts) ∧
        fed.boundary? 1 = some (.input 2 none 1) ∧ half.boundary? 1 = some (.input 2 none 1) ∧
        whole.journal = [0, 1, 2, 0, 1, 2] ∧ parts.journal = [0, 2, 0, 2, 1, 1] ∧
        (parts.graph.bank.channel 4).items = [4, 7, 5, 8] :=
    ⟨_, _, _, _, _, _, rfl, rfl, rfl, rfl, rfl, rfl, rfl, rfl, rfl, rfl, rfl⟩
  have begun := History.push .start 0 [4, 5] rfl rfl push
  have same := histories_converge mixGraph_built.descends mixGraph_built.fresh.idle
    mixGraph_unshared rfl mixGraph_determined mixInterpreter_opens rfl
    (.push begun 1 [7, 8] known rfl more) run
    (.push (.call begun 9 halfRun) 1 [7, 8] stillKnown rfl later) laterRun
  refine ⟨fed, full, whole, half, refed, parts, push, more, run, halfRun, later, laterRun, ?_,
    same.1, mixed⟩
  rw [wholeJournal, partsJournal]
  decide

end DemandFlow.Interpreter
