import DemandFlow.Proofs.Stream.Carrying

/-!
Demand does all the work there is. A pull in a running stream never fails: it fires workers
until the last worker has fired, or until somebody is starved of elements from outside. In
that case everybody waiting has put out all it can, so the drain has carried everything.
Both pulls and passes end because firings are bounded.
-/

set_option autoImplicit false

namespace DemandFlow

variable {β α μ : Type}

namespace Interpreter

/-- What holds of the interpreter of a stream between two looks. -/
structure Running [Signature β] [Work β α μ] (audited : Bool) (layout : Layout β)
    (drain : ChannelId) (frame : InterpreterFrame) (carried : ChannelId → List α)
    (interpreter : Interpreter β α μ) : Prop where
  frame_eq : interpreter.frame = frame
  simulates : Simulates layout drain carried interpreter.graph
  uncounted : audited = true → layout.Uncounted interpreter.graph.bank

section

variable [Signature β] [Work β α μ] {frame : InterpreterFrame} {audited : Bool}
  {layout : Layout β} {source drain : ChannelId} {tail : WorkerId}
  {carried : ChannelId → List α} {interpreter : Interpreter β α μ}

theorem Running.graph_frame (running : Running audited layout drain frame carried interpreter) :
    interpreter.graph.frame = frame.graph :=
  congrArg InterpreterFrame.graph running.frame_eq

/-- Without messages, who waits for a worker is starved on one of its outputs. -/
theorem starved_of_waits (hosts : frame.Hosts α μ audited layout source drain tail)
    (framed : interpreter.frame = frame) {lower upper : WorkerId}
    (waits : interpreter.Waits lower (some upper)) :
    ∃ port, interpreter.Starved lower port ∧ port.channel ∈ layout.outputs upper ∧
      port.channel ∈ layout.inputs lower := by
  cases waits with
  | @input port _ starved feeds =>
      have member := starved.port_mem
      rw [show interpreter.graph.frame = frame.graph from
        congrArg InterpreterFrame.graph framed] at member
      obtain ⟨index, place⟩ := List.mem_iff_getElem?.mp member
      obtain ⟨output, outputPort, found, same⟩ :=
        hosts.sound.graph.wiring.producer lower index port upper place feeds.1
      refine ⟨port, starved, ?_, ?_⟩
      · rw [hosts.describes.outputs, ← same]
        exact List.mem_map_of_mem (List.mem_of_getElem? found)
      · rw [hosts.describes.inputs]
        exact List.mem_map_of_mem member
  | sender scheduled recipient sends receives due =>
      have unscheduled : interpreter.constraints = [] :=
        (congrArg InterpreterFrame.constraints framed).trans hosts.unconstrained
      rw [unscheduled] at scheduled
      cases scheduled

/-- In a linked stack no worker stands twice. -/
theorem Linked.nodup (hosts : frame.Hosts α μ audited layout source drain tail)
    (framed : interpreter.frame = frame) {stack : List WorkerId}
    (linked : interpreter.Linked stack)
    (members : ∀ id ∈ stack, id < frame.graph.workers.length) : stack.Nodup := by
  induction stack with
  | nil => exact List.nodup_nil
  | cons top rest inductionHypothesis =>
      rw [List.forall_mem_cons] at members
      rw [List.nodup_cons]
      refine ⟨fun repeats => ?_, inductionHypothesis linked.tail members.2⟩
      -- The top is below itself, so everybody below is fed by somebody below.
      have fed (id : WorkerId) (member : id ∈ rest) :
          ∃ peer ∈ rest, layout.Feeds peer id := by
        obtain ⟨peer, peerIn, waits⟩ := linked.waits member
        obtain ⟨port, _, gives, takes⟩ := starved_of_waits hosts framed waits
        refine ⟨peer, ?_, port.channel, gives, takes⟩
        rcases List.mem_cons.mp peerIn with rfl | lower
        · exact repeats
        · exact lower
      have never (id : Nat) (accessible : Acc layout.Feeds id) : id ∉ rest := by
        induction accessible with
        | intro id feeders inductionHypothesis =>
            intro member
            obtain ⟨peer, peerIn, feeds⟩ := fed id member
            exact inductionHypothesis peer feeds peerIn
      exact never top (hosts.acc members.1) repeats

theorem Running.complete_outputs
    (running : Running audited layout drain frame carried interpreter)
    (hosts : frame.Hosts α μ audited layout source drain tail) {id : WorkerId} {port : Port}
    (starved : interpreter.Starved id port)
    (complete : layout.Complete μ source carried port.channel) :
    ∀ output ∈ layout.outputs id, layout.Complete μ source carried output := by
  obtain ⟨worker, index, peek, pop, required, known, place, peekAt, popAt, demanded, short⟩ :=
    starved
  have describes : layout.Describes interpreter.graph.frame :=
    running.graph_frame ▸ hosts.describes
  have channelAt : (layout.inputs id)[index]? = some port.channel := by
    rw [describes.worker_inputs known, List.getElem?_map, place]
    rfl
  have needed : worker.rates.need? index = some required := by
    unfold WorkerRates.need?
    rw [peekAt, popAt]
    exact demanded
  exact running.simulates.complete_outputs hosts running.graph_frame known channelAt needed
    short complete

/-- Down a linked stack, everybody has put out everything if the top has. -/
theorem Running.complete_linked
    (running : Running audited layout drain frame carried interpreter)
    (hosts : frame.Hosts α μ audited layout source drain tail) {top : WorkerId}
    {rest : List WorkerId} (linked : interpreter.Linked (top :: rest))
    (complete : ∀ output ∈ layout.outputs top, layout.Complete μ source carried output) :
    ∀ id ∈ top :: rest, ∀ output ∈ layout.outputs id,
      layout.Complete μ source carried output := by
  induction rest generalizing top with
  | nil =>
      intro id member
      rw [List.mem_singleton] at member
      subst member
      exact complete
  | cons lower below inductionHypothesis =>
      obtain ⟨port, starved, gives, _⟩ := starved_of_waits hosts running.frame_eq linked.1
      have next := running.complete_outputs hosts starved (complete port.channel gives)
      intro id member
      rcases List.mem_cons.mp member with rfl | deeper
      · exact complete
      · exact inductionHypothesis linked.2 next id deeper

/-- When a pull of the last worker is given up, the drain has carried everything. -/
theorem Running.complete_drain
    (running : Running audited layout drain frame carried interpreter)
    (hosts : frame.Hosts α μ audited layout source drain tail) {current : WorkerId}
    {waiting : List WorkerId} (pulling : Pulling frame tail (current :: waiting) interpreter)
    (waits : interpreter.Waits current none) : layout.Complete μ source carried drain := by
  cases waits with
  | @input port _ starved feeds =>
      have member := starved.port_mem
      rw [running.graph_frame] at member
      have outside : ∀ peer ∈ frame.members, port.peer ≠ some peer := by
        rw [← running.frame_eq]
        exact feeds
      have entered : layout.Complete μ source carried port.channel := by
        rw [hosts.enters current port member outside]
        exact hosts.complete_source carried
      have top := running.complete_outputs hosts starved entered
      exact running.complete_linked hosts pulling.linked top tail pulling.pulled_mem drain
        hosts.leaves

end

section

variable [Signature β] [Recipient β μ] [Work β α μ] {frame : InterpreterFrame}
  {audited : Bool} {layout : Layout β} {source drain : ChannelId} {tail : WorkerId}
  {carried : ChannelId → List α} {interpreter : Interpreter β α μ} {current : WorkerId}
  {waiting : List WorkerId}

/-- A worker that is not starved fires, and the run goes on. -/
theorem Running.fire (running : Running audited layout drain frame carried interpreter)
    (hosts : frame.Hosts α μ audited layout source drain tail) {worker : Worker β μ}
    (known : interpreter.graph.worker? current = some worker)
    (fed : worker.starvedInput interpreter.graph.bank = .ok none) :
    ∃ (later : ChannelId → List α) (graph left : Graph β α μ),
      interpreter.graph.fire current = (.ok (), graph) ∧
      interpreter.delegate.afterFire (interpreter.stats.firings + 1) graph current =
        (.ok (), left) ∧
      Running audited layout drain frame later
        (countFiring { interpreter with graph := left } current) ∧
      later source = carried source ∧
      left.totalExecutions = interpreter.graph.totalExecutions + 1 := by
  have framed := running.graph_frame
  have sound : interpreter.graph.frame.Sound := framed ▸ hosts.sound.graph
  have describes : layout.Describes interpreter.graph.frame := framed ▸ hosts.describes
  have unshared := hosts.unshared framed
  obtain ⟨extra, graph, firing, fires⟩ := running.simulates.fire sound unshared describes
    hosts.terminal hosts.abides known fed
  have same := interpreter.graph.frame_fire current
  rw [firing] at same
  obtain ⟨left, follow, simulates, counted, uncounted⟩ := fires.afterFire sound unshared
    describes known same running.uncounted (interpreter.stats.firings + 1)
  have delegate : interpreter.delegate = { audits := audited } :=
    (congrArg InterpreterFrame.delegate running.frame_eq).trans hosts.delegate
  have kept := interpreter.delegate.afterFire_sameButCounts (interpreter.stats.firings + 1)
    graph current
  rw [delegate, follow] at kept
  refine ⟨_, graph, left, firing, ?_, ⟨?_, simulates, uncounted⟩, ?_, counted⟩
  · rw [delegate]
    exact follow
  · rw [← running.frame_eq]
    unfold Interpreter.frame countFiring
    dsimp only
    rw [kept.2.1, same]
  · rw [fires.silent source (hosts.foreign current), List.append_nil]

/-- A look in a running stream: somebody is starved of elements from outside, or the pull
goes on to a producer, or the worker fires. -/
theorem Running.look (running : Running audited layout drain frame carried interpreter)
    (hosts : frame.Hosts α μ audited layout source drain tail)
    (pulling : Pulling frame tail (current :: waiting) interpreter) :
    (∃ worker input, interpreter.graph.worker? current = some worker ∧
      worker.starvedInput interpreter.graph.bank = .ok (some input) ∧
      interpreter.producer? worker input = none ∧
      interpreter.pullStep current waiting = .stop (.ok false) interpreter.countStall) ∨
    (∃ producer, interpreter.pullStep current waiting =
      .proceed (producer :: current :: waiting) interpreter) ∨
    ∃ (later : ChannelId → List α) (left : Interpreter β α μ),
      interpreter.pullStep current waiting = .proceed waiting left ∧
      Running audited layout drain frame later left ∧ later source = carried source ∧
      left.graph.totalExecutions = interpreter.graph.totalExecutions + 1 := by
  have below : ∀ id ∈ current :: waiting, id < frame.graph.workers.length :=
    fun id member => hosts.sound.known id (pulling.members id member)
  have once := pulling.linked.nodup hosts running.frame_eq below
  have free : current ∉ waiting := (List.nodup_cons.mp once).1
  obtain ⟨worker, present⟩ := Graph.worker_of_lt running.graph_frame
    (below current (List.mem_cons_self ..))
  have view := interpreter.pullStep_view current waiting
  generalize interpreter.pullStep current waiting = step at view
  cases view with
  | unknown absent =>
      rw [present] at absent
      cases absent
  | circular known waits => exact absurd waits free
  | @unsupported worker error known free refused =>
      obtain ⟨body, progress, tracks⟩ := running.simulates.workers current worker known
      have describes : layout.Describes interpreter.graph.frame :=
        running.graph_frame ▸ hosts.describes
      have needs := (hosts.abides current body tracks.known).1
      rw [← describes.worker_rates known tracks.known, describes.worker_shape known] at needs
      exact absurd refused (Worker.starvedInput_ne_error needs)
  | stalled known free starved outside => exact .inl ⟨_, _, known, starved, outside, rfl⟩
  | feeder known free starved inside => exact .inr (.inl ⟨_, rfl⟩)
  | sender known free fed due =>
      obtain ⟨constraint, scheduled, _⟩ := dueSender?_eq_some due
      have unscheduled : interpreter.constraints = [] :=
        (congrArg InterpreterFrame.constraints running.frame_eq).trans hosts.unconstrained
      rw [unscheduled] at scheduled
      cases scheduled
  | failed ready free firing =>
      obtain ⟨_, _, _, succeeds, _⟩ := running.fire hosts ready.known ready.fed
      rw [firing] at succeeds
      cases succeeds
  | refused ready free firing follow =>
      obtain ⟨_, _, _, succeeds, passes, _⟩ := running.fire hosts ready.known ready.fed
      rw [firing] at succeeds
      cases succeeds
      rw [follow] at passes
      cases passes
  | fired ready free firing follow =>
      obtain ⟨later, _, _, succeeds, passes, further, silent, counted⟩ :=
        running.fire hosts ready.known ready.fed
      rw [firing] at succeeds
      cases succeeds
      rw [follow] at passes
      cases passes
      exact .inr (.inr ⟨later, _, rfl, further, silent, counted⟩)

omit [Recipient β μ] in
theorem Running.withStats (running : Running audited layout drain frame carried interpreter)
    (stats : InterpreterStats) :
    Running audited layout drain frame carried { interpreter with stats := stats } :=
  ⟨running.frame_eq, running.simulates, running.uncounted⟩

omit [Recipient β μ] in
private theorem Pulling.length_le {stack : List WorkerId}
    (pulling : Pulling frame tail stack interpreter)
    (hosts : frame.Hosts α μ audited layout source drain tail)
    (framed : interpreter.frame = frame) : stack.length ≤ frame.graph.workers.length := by
  have below (id : WorkerId) (member : id ∈ stack) : id < frame.graph.workers.length :=
    hosts.sound.known id (pulling.members id member)
  have inside : stack ⊆ List.range frame.graph.workers.length :=
    fun id member => List.mem_range.mpr (below id member)
  have shorter := (pulling.linked.nodup hosts framed below).length_le_of_subset inside
  rw [List.length_range] at shorter
  exact shorter

/-- With enough fuel a pull in a running stream returns. Either it has fired the last
worker, or the drain has carried everything. -/
theorem pullSteps_returns (hosts : frame.Hosts α μ audited layout source drain tail)
    {elements : List α} {bound : Nat}
    (bounded : FiringBound μ layout frame.graph source drain elements bound)
    {fuel : Nat} {stack : List WorkerId}
    (running : Running audited layout drain frame carried interpreter)
    (offered : carried source <+: elements) (pulling : Pulling frame tail stack interpreter)
    (enough : 2 * (bound - interpreter.graph.totalExecutions) +
      (frame.graph.workers.length - stack.length) < fuel) :
    ∃ (progress : Bool) (later : ChannelId → List α) (left : Interpreter β α μ),
      pullSteps fuel stack interpreter = some (.ok progress, left) ∧
      Running audited layout drain frame later left ∧ later source = carried source ∧
      (progress = true → interpreter.graph.totalExecutions + stack.length ≤
        left.graph.totalExecutions) ∧
      (progress = false → layout.Complete μ source later drain) := by
  induction fuel generalizing stack interpreter carried with
  | zero => omega
  | succ fuel inductionHypothesis =>
      cases stack with
      | nil =>
          exact ⟨true, carried, interpreter, rfl, running, rfl, fun _ => Nat.le_refl _, by simp⟩
      | cons current waiting =>
          have unshared := hosts.unshared running.graph_frame
          have view := interpreter.pullStep_view current waiting
          rcases running.look hosts pulling with
            ⟨worker, input, known, starved, outside, step⟩ | ⟨producer, step⟩ |
            ⟨later, left, step, further, same, counted⟩
          · refine ⟨false, carried, interpreter.countStall, ?_, running.withStats _, rfl,
              by simp, fun _ => ?_⟩
            · unfold pullSteps
              rw [step]
            · exact running.complete_drain hosts pulling
                (waits_of_stall known starved outside)
          · rw [step] at view
            have deeper := pulling.look hosts.sound unshared view
            have room := deeper.length_le hosts running.frame_eq
            simp only [List.length_cons] at enough room ⊢
            obtain ⟨progress, later, left, run, further, same, counted, complete⟩ :=
              inductionHypothesis running offered deeper (by
                simp only [List.length_cons]
                omega)
            refine ⟨progress, later, left, ?_, further, same, fun fired => ?_, complete⟩
            · unfold pullSteps
              rw [step]
              exact run
            · have more := counted fired
              simp only [List.length_cons] at more
              omega
          · rw [step] at view
            have rest := pulling.look hosts.sound unshared view
            have within := bounded later left.graph
              ⟨further.graph_frame, further.simulates, same ▸ offered⟩
            simp only [List.length_cons] at enough ⊢
            obtain ⟨progress, last, final, run, lastRunning, lastSame, lastCounted, complete⟩ :=
              inductionHypothesis further (same ▸ offered) rest (by omega)
            refine ⟨progress, last, final, ?_, lastRunning, lastSame.trans same, fun fired => ?_,
              complete⟩
            · unfold pullSteps
              rw [step]
              exact run
            · have more := lastCounted fired
              omega

private theorem pass_returns (hosts : frame.Hosts α μ audited layout source drain tail)
    {elements : List α} {bound : Nat}
    (bounded : FiringBound μ layout frame.graph source drain elements bound)
    {fuel : Nat} (running : Running audited layout drain frame carried interpreter)
    (offered : carried source <+: elements)
    (enough : 2 * bound + frame.graph.workers.length < fuel) :
    ∃ (progress : Bool) (later : ChannelId → List α) (left : Interpreter β α μ),
      pass fuel false interpreter.sinks interpreter = some (.ok progress, left) ∧
      Running audited layout drain frame later left ∧ later source = carried source ∧
      (progress = true → interpreter.graph.totalExecutions < left.graph.totalExecutions) ∧
      (progress = false → layout.Complete μ source later drain) := by
  have sinks : interpreter.sinks = [tail] :=
    (congrArg InterpreterFrame.sinks running.frame_eq).trans hosts.sinks
  have inside : ∀ id ∈ [tail], id ∈ frame.members := by
    rw [← hosts.sinks]
    exact hosts.sound.sinks
  have counted := running.withStats
    { interpreter.stats with pulls := interpreter.stats.pulls + 1 }
  have pulling : Pulling frame tail [tail]
      { interpreter with
        stats := { interpreter.stats with pulls := interpreter.stats.pulls + 1 } } :=
    ⟨counted.frame_eq, inside, trivial, .inr ⟨[], rfl⟩⟩
  obtain ⟨progress, later, left, run, further, same, fired, complete⟩ :=
    pullSteps_returns hosts bounded counted offered pulling
      (show 2 * (bound - interpreter.graph.totalExecutions) +
        (frame.graph.workers.length - 1) < fuel by omega)
  refine ⟨progress, later, left, ?_, further, same, fun progressed => fired progressed, complete⟩
  rw [sinks]
  unfold pass pull
  rw [run]
  rfl

omit [Signature β] in
/-- Unless no more passes are allowed, there is a pass, and the rest depends on its progress. -/
theorem passes_of_allowed {pullFuel fuel : Nat} {remaining : Option Nat} {everFired progress : Bool}
    {left : Interpreter β α μ} (allowed : remaining ≠ some 0)
    (passed : pass pullFuel false interpreter.sinks
      { interpreter with
        stats := { interpreter.stats with passes := interpreter.stats.passes + 1 } } =
      some (.ok progress, left)) :
    passes pullFuel (fuel + 1) remaining everFired interpreter =
      if progress then passes pullFuel fuel (remaining.map (· - 1)) true left
      else some (.ok everFired, left) := by
  rw [passes, passed]
  · cases progress <;> rfl
  · exact allowed

/-- Passes return, also if their number is limited. If it is not, or if the answer is negative
though there was a pass, the drain has carried everything. -/
theorem passes_returns (hosts : frame.Hosts α μ audited layout source drain tail)
    {elements : List α} {bound : Nat}
    (bounded : FiringBound μ layout frame.graph source drain elements bound)
    {pullFuel fuel : Nat} (remaining : Option Nat) (everFired : Bool)
    (running : Running audited layout drain frame carried interpreter)
    (offered : carried source <+: elements)
    (enough : 2 * bound + frame.graph.workers.length < pullFuel)
    (more : bound - interpreter.graph.totalExecutions < fuel) :
    ∃ (answer : Bool) (later : ChannelId → List α) (left : Interpreter β α μ),
      passes pullFuel fuel remaining everFired interpreter = some (.ok answer, left) ∧
      Running audited layout drain frame later left ∧ later source = carried source ∧
      (everFired = true → answer = true) ∧
      (remaining = none ∨ remaining ≠ some 0 ∧ answer = false →
        layout.Complete μ source later drain) := by
  induction fuel generalizing remaining everFired interpreter carried with
  | zero => omega
  | succ fuel inductionHypothesis =>
      by_cases allowed : remaining = some 0
      · subst allowed
        exact ⟨everFired, carried, interpreter, rfl, running, rfl, id, by simp⟩
      · have counted := running.withStats
          { interpreter.stats with passes := interpreter.stats.passes + 1 }
        obtain ⟨progress, later, left, passed, further, same, fired, complete⟩ :=
          pass_returns hosts bounded counted offered enough
        change pass pullFuel false interpreter.sinks _ = _ at passed
        rw [passes_of_allowed allowed passed]
        cases progress with
        | false => exact ⟨everFired, later, left, rfl, further, same, id, fun _ => complete rfl⟩
        | true =>
            have within := bounded later left.graph
              ⟨further.graph_frame, further.simulates, same ▸ offered⟩
            have grown := fired rfl
            change interpreter.graph.totalExecutions < _ at grown
            obtain ⟨answer, last, final, run, lastRunning, lastSame, lastAnswer, lastComplete⟩ :=
              inductionHypothesis (remaining.map (· - 1)) true further (same ▸ offered) (by omega)
            have positive := lastAnswer rfl
            subst positive
            refine ⟨true, last, final, run, lastRunning, lastSame.trans same, fun _ => rfl, ?_⟩
            rintro (unlimited | ⟨_, impossible⟩)
            · exact lastComplete (.inl (by rw [unlimited]; rfl))
            · cases impossible

/-- With enough fuel a call of the interpreter of a stream returns. If passes are not limited,
or if the answer is negative though there was a pass, then the drain has carried all that can be
made of what came in. -/
theorem interpret_returns (hosts : frame.Hosts α μ audited layout source drain tail)
    {elements : List α} {bound : Nat}
    (bounded : FiringBound μ layout frame.graph source drain elements bound)
    {fuel : Nat} (running : Running audited layout drain frame carried interpreter)
    (offered : carried source <+: elements)
    (enough : 2 * bound + frame.graph.workers.length < fuel) :
    ∃ (answer : Bool) (later : ChannelId → List α) (left : Interpreter β α μ),
      interpreter.interpret fuel = some (.ok answer, left) ∧
      Running audited layout drain frame later left ∧ later source = carried source ∧
      (frame.maxPasses = none ∨ frame.maxPasses ≠ some 0 ∧ answer = false →
        layout.Complete μ source later drain) := by
  have limit : interpreter.maxPasses = frame.maxPasses :=
    congrArg InterpreterFrame.maxPasses running.frame_eq
  have counted := running.withStats
    { interpreter.stats with interpretCalls := interpreter.stats.interpretCalls + 1 }
  obtain ⟨answer, later, left, run, further, same, _, complete⟩ :=
    passes_returns hosts bounded frame.maxPasses false counted offered enough
      (show bound - interpreter.graph.totalExecutions < fuel by omega)
  rw [← limit] at run
  exact ⟨answer, later, left, run, further, same, complete⟩

end

end Interpreter

end DemandFlow
