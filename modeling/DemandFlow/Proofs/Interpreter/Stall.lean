import DemandFlow.Proofs.Graph.Locality
import DemandFlow.Proofs.Interpreter.Run
import DemandFlow.Work.Standard

/-!
Stalls and deadlocks are real. The workers on the stack of a pull wait for each other, and
a set of workers that all wait for one of the set, or for elements from outside, is stuck:
no sequence of legal firings ever fires one of them. A pull that gives up leaves its stack
stuck; a pull that runs into a cycle leaves it stuck whatever comes in from outside.
-/

set_option autoImplicit false

namespace DemandFlow.Interpreter

variable {β α μ : Type}

/-- The worker is in the section, every input of it holds what both of its rates can ask
for, and no message to it would still be due at its next firing. -/
structure Legal (interpreter : Interpreter β α μ) (id : WorkerId) : Prop where
  inside : id ∈ interpreter.members
  fed : ∀ worker, interpreter.graph.worker? id = some worker →
    ∀ (index : Nat) (port : Port) (peek pop : Rate),
    worker.inputs[index]? = some port → worker.rates.peek[index]? = some peek →
    worker.rates.pop[index]? = some pop → ∃ required, demand? peek pop = some required ∧
      required ≤ (interpreter.graph.bank.channel port.channel).size
  clear : ∀ constraint ∈ interpreter.constraints, constraint.recipient = id →
    ∀ sent received, interpreter.graph.executions? constraint.sender = some sent →
      interpreter.graph.executions? id = some received →
      received + 1 < constraint.deliveryTime sent

inductive LegalRun [Recipient β μ] [Work β α μ] (feeding : Bool) (start : Interpreter β α μ) :
    List WorkerId → Interpreter β α μ → Prop where
  | start : LegalRun feeding start [] start
  | fire {fired : List WorkerId} {interpreter : Interpreter β α μ} {id : WorkerId}
      {graph : Graph β α μ} (before : LegalRun feeding start fired interpreter)
      (legal : interpreter.Legal id) (firing : interpreter.graph.fire id = (.ok (), graph)) :
      LegalRun feeding start (fired ++ [id]) { interpreter with graph := graph }
  | follow {fired : List WorkerId} {interpreter : Interpreter β α μ}
      (before : LegalRun feeding start fired interpreter) (delegate : Delegate) (number : Nat)
      (id : WorkerId) :
      LegalRun feeding start fired
        { interpreter with graph := (delegate.afterFire number interpreter.graph id).2 }
  | feed {fired : List WorkerId} {interpreter left : Interpreter β α μ}
      {boundary : BoundaryChannel} (before : LegalRun feeding start fired interpreter)
      (allowed : feeding = true) (token : BoundaryToken) (elements : List α)
      (known : interpreter.boundary? token = some boundary) (input : boundary.direction = .input)
      (push : interpreter.pushAll? token elements = some left) :
      LegalRun feeding start fired left

/-- Some input of the worker, on the given port, holds less than a firing may ask for. -/
def Starved (interpreter : Interpreter β α μ) (id : WorkerId) (port : Port) : Prop :=
  ∃ (worker : Worker β μ) (index : Nat) (peek pop : Rate) (required : Nat),
    interpreter.graph.worker? id = some worker ∧
    worker.inputs[index]? = some port ∧ worker.rates.peek[index]? = some peek ∧
    worker.rates.pop[index]? = some pop ∧ demand? peek pop = some required ∧
    (interpreter.graph.bank.channel port.channel).size < required

/-- What comes through the port comes from the target: a worker of the section or, without
one, somebody outside. -/
def Feeds (interpreter : Interpreter β α μ) (target : Option WorkerId) (port : Port) : Prop :=
  match target with
  | some peer => port.peer = some peer ∧ peer ∈ interpreter.members
  | none => ∀ peer ∈ interpreter.members, port.peer ≠ some peer

/-- The worker waits for the target: for elements, or for it to get past a message. -/
inductive Waits (interpreter : Interpreter β α μ) (id : WorkerId) : Option WorkerId → Prop where
  | input {port : Port} {target : Option WorkerId} (starved : interpreter.Starved id port)
      (feeds : interpreter.Feeds target port) : Waits interpreter id target
  | sender {constraint : Constraint} {sent received : Nat}
      (scheduled : constraint ∈ interpreter.constraints) (recipient : constraint.recipient = id)
      (sends : interpreter.graph.executions? constraint.sender = some sent)
      (receives : interpreter.graph.executions? id = some received)
      (due : constraint.deliveryTime sent ≤ received + 1) :
      Waits interpreter id (some constraint.sender)

private theorem Starved.not_legal {interpreter : Interpreter β α μ} {id : WorkerId} {port : Port}
    (starved : interpreter.Starved id port) : ¬ interpreter.Legal id := by
  obtain ⟨worker, index, peek, pop, required, known, place, peekAt, popAt, demanded, short⟩ :=
    starved
  intro legal
  obtain ⟨enough, same, held⟩ := legal.fed worker known index port peek pop place peekAt popAt
  rw [demanded] at same
  cases same
  omega

private theorem Waits.not_legal {interpreter : Interpreter β α μ} {id : WorkerId}
    {target : Option WorkerId} (waits : interpreter.Waits id target) :
    ¬ interpreter.Legal id := by
  cases waits with
  | input starved feeds => exact starved.not_legal
  | sender scheduled recipient sends receives due =>
      intro legal
      have ahead := legal.clear _ scheduled recipient _ _ sends receives
      omega

theorem Starved.port_mem {interpreter : Interpreter β α μ} {id : WorkerId} {port : Port}
    (starved : interpreter.Starved id port) :
    port ∈ interpreter.graph.frame.wiring.inputs id := by
  obtain ⟨worker, index, peek, pop, required, known, place, _⟩ := starved
  rw [Graph.wiring_inputs known]
  exact List.mem_of_getElem? place

/-- Starvation is a matter of the frame and of what the channel holds. -/
theorem Starved.of_items_eq {before after : Interpreter β α μ} {id : WorkerId} {port : Port}
    (starved : before.Starved id port) (frame : after.graph.frame = before.graph.frame)
    (items : (after.graph.bank.channel port.channel).items =
      (before.graph.bank.channel port.channel).items) : after.Starved id port := by
  obtain ⟨worker, index, peek, pop, required, known, place, peekAt, popAt, demanded, short⟩ :=
    starved
  obtain ⟨other, found, same⟩ := Graph.worker_of_frame_eq frame.symm known
  have inputs : other.inputs = worker.inputs := congrArg WorkerFrame.inputs same
  have rates : other.rates = worker.rates := congrArg WorkerFrame.rates same
  refine ⟨other, index, peek, pop, required, found, ?_, ?_, ?_, demanded, ?_⟩
  · rw [inputs]
    exact place
  · rw [rates]
    exact peekAt
  · rw [rates]
    exact popAt
  · unfold Channel.size at short ⊢
    rw [items]
    exact short

/-- A wait outlasts whatever leaves alone the counts of both ends and the inputs that the
target feeds. -/
theorem Waits.outlasts {before after : Interpreter β α μ} {id : WorkerId}
    {target : Option WorkerId} (waits : before.Waits id target)
    (frame : after.frame = before.frame)
    (waiter : after.graph.executions? id = before.graph.executions? id)
    (awaited : ∀ peer, target = some peer →
      after.graph.executions? peer = before.graph.executions? peer)
    (input : ∀ port ∈ before.graph.frame.wiring.inputs id, before.Feeds target port →
      (after.graph.bank.channel port.channel).items =
        (before.graph.bank.channel port.channel).items) :
    after.Waits id target := by
  have graphFrame : after.graph.frame = before.graph.frame :=
    congrArg InterpreterFrame.graph frame
  have members : after.members = before.members := congrArg InterpreterFrame.members frame
  cases waits with
  | @input port target starved feeds =>
      refine .input (starved.of_items_eq graphFrame (input port starved.port_mem feeds)) ?_
      unfold Feeds at feeds ⊢
      rw [members]
      exact feeds
  | @sender constraint sent received scheduled recipient sends receives due =>
      have constraints : after.constraints = before.constraints :=
        congrArg InterpreterFrame.constraints frame
      refine .sender (constraints ▸ scheduled) recipient ?_ ?_ due
      · rw [awaited constraint.sender rfl]
        exact sends
      · rw [waiter]
        exact receives

/-- Follow-ups of firings only touch counts of channels, so waits outlast them. -/
theorem Waits.follow {before : Interpreter β α μ} {graph left : Graph β α μ} {id : WorkerId}
    {target : Option WorkerId}
    (waits : { before with graph := graph }.Waits id target) (same : left.SameButCounts graph) :
    { before with graph := left }.Waits id target := by
  have counts (other : WorkerId) : left.executions? other = graph.executions? other := by
    unfold Graph.executions? Graph.worker?
    rw [same.1]
  refine waits.outlasts ?_ (counts id) (fun peer _ => counts peer) (fun port _ _ => same.2.2 _)
  unfold Interpreter.frame
  rw [same.2.1]

theorem Waits.counted {before after : Interpreter β α μ} {id : WorkerId}
    {target : Option WorkerId} (waits : before.Waits id target)
    (frame : after.frame = before.frame) (graph : after.graph = before.graph) :
    after.Waits id target := by
  refine waits.outlasts frame ?_ ?_ ?_
  · rw [graph]
  · intro peer _
    rw [graph]
  · intro port _ _
    rw [graph]

/-- A wait outlasts a firing of anybody in the section but its two ends. -/
theorem Waits.fire [Recipient β μ] [Work β α μ] {interpreter : Interpreter β α μ}
    {id current : WorkerId} {target : Option WorkerId} (waits : interpreter.Waits id target)
    (sound : interpreter.frame.Sound) (unshared : interpreter.graph.bank.Unshared)
    (inside : current ∈ interpreter.members) (notWaiter : id ≠ current)
    (notAwaited : target ≠ some current) :
    { interpreter with graph := (interpreter.graph.fire current).2 }.Waits id target := by
  refine waits.outlasts ?_ (Graph.executions?_fire_of_ne _ notWaiter) ?_ ?_
  · unfold Interpreter.frame
    rw [Graph.frame_fire]
  · rintro peer rfl
    apply Graph.executions?_fire_of_ne
    rintro rfl
    exact notAwaited rfl
  · intro port member feeds
    have notFeeding : port.peer ≠ some current := by
      intro named
      cases target with
      | none => exact feeds current inside named
      | some peer =>
          rw [feeds.1] at named
          exact notAwaited named
    dsimp only
    rw [Graph.channel_fire_of_input unshared sound.graph notWaiter member notFeeding]

/-- A wait for somebody inside outlasts what comes in at an input boundary. -/
theorem Waits.feed {interpreter left : Interpreter β α μ} {id peer : WorkerId}
    (waits : interpreter.Waits id (some peer)) (sound : interpreter.frame.Sound)
    (unshared : interpreter.graph.bank.Unshared) {token : BoundaryToken} {elements : List α}
    {boundary : BoundaryChannel} (known : interpreter.boundary? token = some boundary)
    (direction : boundary.direction = .input)
    (push : interpreter.pushAll? token elements = some left) : left.Waits id (some peer) := by
  unfold pushAll? channelId? at push
  rw [known] at push
  cases push
  refine waits.outlasts ?_ rfl (fun _ _ => rfl) ?_
  · exact frame_withBank (Bank.keys_set _ _ _)
  · intro port member feeds
    obtain ⟨owner, _, fed, fedIn, same, foreign⟩ :=
      sound.fed boundary (List.mem_of_getElem? known) direction
    have different : port.channel ≠ boundary.channel := by
      intro equal
      obtain ⟨index, place⟩ := List.mem_iff_getElem?.mp member
      obtain ⟨fedIndex, fedPlace⟩ := List.mem_iff_getElem?.mp fedIn
      obtain ⟨rfl, rfl⟩ := sound.graph.wiring.inputOnce id owner index fedIndex port fed place
        fedPlace (equal.trans same.symm)
      have samePort : port = fed := Option.some.inj (place.symm.trans fedPlace)
      subst samePort
      exact foreign peer feeds.2 feeds.1
    change ((interpreter.graph.bank.set boundary.channel _).channel port.channel).items = _
    rw [Bank.channel_set_of_ne unshared _ different]

/-! ### Stuck sets of workers -/

theorem unshared_of_frame_eq {before after : Interpreter β α μ}
    (same : after.frame = before.frame) (unshared : before.graph.bank.Unshared) :
    after.graph.bank.Unshared :=
  unshared.of_keys_eq (congrArg (fun frame => frame.graph.keys) same.symm)

def Stuck (feeding : Bool) (interpreter : Interpreter β α μ) (ids : List WorkerId) : Prop :=
  ∀ id ∈ ids, feeding = false ∧ interpreter.Waits id none ∨
    ∃ peer ∈ ids, interpreter.Waits id (some peer)

theorem Stuck.not_legal {feeding : Bool} {interpreter : Interpreter β α μ}
    {ids : List WorkerId} (stuck : interpreter.Stuck feeding ids) {id : WorkerId}
    (member : id ∈ ids) : ¬ interpreter.Legal id := by
  rcases stuck id member with ⟨_, waits⟩ | ⟨peer, _, waits⟩
  · exact waits.not_legal
  · exact waits.not_legal

/-- A legal firing is of somebody else, so who is stuck stays stuck. -/
theorem Stuck.fire [Recipient β μ] [Work β α μ] {feeding : Bool}
    {interpreter : Interpreter β α μ} {ids : List WorkerId}
    (stuck : interpreter.Stuck feeding ids) (sound : interpreter.frame.Sound)
    (unshared : interpreter.graph.bank.Unshared) {current : WorkerId}
    (legal : interpreter.Legal current) :
    { interpreter with graph := (interpreter.graph.fire current).2 }.Stuck feeding ids := by
  have other (id : WorkerId) (member : id ∈ ids) : id ≠ current := by
    rintro rfl
    exact stuck.not_legal member legal
  intro id member
  rcases stuck id member with ⟨closed, waits⟩ | ⟨peer, peerIn, waits⟩
  · exact .inl ⟨closed, waits.fire sound unshared legal.inside (other id member) nofun⟩
  · refine .inr ⟨peer, peerIn, ?_⟩
    apply waits.fire sound unshared legal.inside (other id member)
    intro same
    exact other peer peerIn (Option.some.inj same)

/-- Nobody of a stuck set is ever fired by a legal run. -/
theorem Stuck.legalRun [Recipient β μ] [Work β α μ] {feeding : Bool}
    {start interpreter : Interpreter β α μ} {ids fired : List WorkerId}
    (stuck : start.Stuck feeding ids) (sound : start.frame.Sound)
    (unshared : start.graph.bank.Unshared)
    (run : start.LegalRun feeding fired interpreter) :
    interpreter.frame = start.frame ∧ interpreter.Stuck feeding ids ∧
      ∀ id ∈ ids, id ∉ fired := by
  induction run with
  | start => exact ⟨rfl, stuck, by simp⟩
  | @fire fired interpreter current graph before legal firing inductionHypothesis =>
      obtain ⟨frame, still, apart⟩ := inductionHypothesis
      have moved := still.fire (frame ▸ sound) (unshared_of_frame_eq frame unshared) legal
      have same := interpreter.graph.frame_fire current
      rw [firing] at moved same
      refine ⟨?_, moved, ?_⟩
      · rw [← frame]
        unfold Interpreter.frame
        rw [← same]
      · intro id member among
        rcases List.mem_append.mp among with old | new
        · exact apart id member old
        · rw [List.mem_singleton] at new
          subst new
          exact still.not_legal member legal
  | @follow fired interpreter before delegate number current inductionHypothesis =>
      obtain ⟨frame, still, apart⟩ := inductionHypothesis
      have counted := delegate.afterFire_sameButCounts number interpreter.graph current
      refine ⟨?_, ?_, apart⟩
      · rw [← frame]
        unfold Interpreter.frame
        rw [← counted.2.1]
      · intro id member
        rcases still id member with ⟨closed, waits⟩ | ⟨peer, peerIn, waits⟩
        · exact .inl ⟨closed, waits.follow counted⟩
        · exact .inr ⟨peer, peerIn, waits.follow counted⟩
  | @feed fired interpreter left boundary before allowed token elements known direction push
      inductionHypothesis =>
      obtain ⟨frame, still, apart⟩ := inductionHypothesis
      obtain ⟨bank, rfl, keys⟩ := (Traffic.push token elements push).withBank
      refine ⟨(frame_withBank keys).trans frame, ?_, apart⟩
      intro id member
      rcases still id member with ⟨closed, _⟩ | ⟨peer, peerIn, waits⟩
      · rw [allowed] at closed
        cases closed
      · exact .inr ⟨peer, peerIn, waits.feed (frame ▸ sound)
          (unshared_of_frame_eq frame unshared) known direction push⟩

/-- Every worker on the stack but the top waits for the one above it. -/
def Linked (interpreter : Interpreter β α μ) : List WorkerId → Prop
  | upper :: lower :: rest =>
      interpreter.Waits lower (some upper) ∧ Linked interpreter (lower :: rest)
  | _ => True

theorem Linked.tail {interpreter : Interpreter β α μ} {top : WorkerId} {rest : List WorkerId}
    (linked : interpreter.Linked (top :: rest)) : interpreter.Linked rest := by
  cases rest with
  | nil => trivial
  | cons lower below => exact linked.2

theorem Linked.waits {interpreter : Interpreter β α μ} {top : WorkerId} {rest : List WorkerId}
    (linked : interpreter.Linked (top :: rest)) {id : WorkerId} (member : id ∈ rest) :
    ∃ peer ∈ top :: rest, interpreter.Waits id (some peer) := by
  induction rest generalizing top with
  | nil => cases member
  | cons lower below inductionHypothesis =>
      rcases List.mem_cons.mp member with rfl | deeper
      · exact ⟨top, List.mem_cons_self .., linked.1⟩
      · obtain ⟨peer, among, waits⟩ := inductionHypothesis linked.2 deeper
        exact ⟨peer, List.mem_cons_of_mem _ among, waits⟩

/-- The links of a stack outlast what every single wait on it outlasts. -/
theorem Linked.outlasts {before after : Interpreter β α μ} {stack : List WorkerId}
    (linked : before.Linked stack)
    (waits : ∀ upper ∈ stack, ∀ lower ∈ stack, before.Waits lower (some upper) →
      after.Waits lower (some upper)) : after.Linked stack := by
  induction stack with
  | nil => trivial
  | cons upper rest inductionHypothesis =>
      cases rest with
      | nil => trivial
      | cons lower below =>
          refine ⟨?_, inductionHypothesis linked.2 ?_⟩
          · exact waits upper (List.mem_cons_self ..) lower
              (List.mem_cons_of_mem _ (List.mem_cons_self ..)) linked.1
          · intro higher higherIn deeper deeperIn
            exact waits higher (List.mem_cons_of_mem _ higherIn) deeper
              (List.mem_cons_of_mem _ deeperIn)

theorem starvedFrom_some {worker : Worker β μ} {bank : Bank α} {input found : Nat}
    {ports : List (Port × Rate × Rate)}
    (starved : worker.starvedFrom bank input ports = .ok (some found)) :
    ∃ offset port peek pop required, found = input + offset ∧
      ports[offset]? = some (port, peek, pop) ∧ demand? peek pop = some required ∧
      (bank.channel port.channel).size < required := by
  induction ports generalizing input with
  | nil => cases starved
  | cons entry rest inductionHypothesis =>
      obtain ⟨port, peek, pop⟩ := entry
      unfold Worker.starvedFrom at starved
      split at starved
      next => cases starved
      next required demanded =>
        split at starved
        next short =>
          cases starved
          exact ⟨0, port, peek, pop, required, rfl, rfl, demanded, short⟩
        next =>
          obtain ⟨offset, other, otherPeek, otherPop, least, same, place, facts⟩ :=
            inductionHypothesis starved
          exact ⟨offset + 1, other, otherPeek, otherPop, least, by omega, place, facts⟩

/-- A starved input that a look finds is starved, on the port it names. -/
theorem starved_of_starvedInput {interpreter : Interpreter β α μ} {id : WorkerId}
    {worker : Worker β μ} {input : Nat} (known : interpreter.graph.worker? id = some worker)
    (starved : worker.starvedInput interpreter.graph.bank = .ok (some input)) :
    ∃ port, worker.inputs[input]? = some port ∧ interpreter.Starved id port := by
  obtain ⟨offset, port, peek, pop, required, same, place, demanded, short⟩ :=
    starvedFrom_some starved
  rw [Nat.zero_add] at same
  subst same
  rw [List.getElem?_zip_eq_some, List.getElem?_zip_eq_some] at place
  obtain ⟨portAt, peekAt, popAt⟩ := place
  exact ⟨port, portAt, worker, input, peek, pop, required, known, portAt, peekAt, popAt, demanded,
    short⟩

private theorem waits_of_feeder {interpreter : Interpreter β α μ} {id producer : WorkerId}
    {worker : Worker β μ} {input : Nat} (known : interpreter.graph.worker? id = some worker)
    (starved : worker.starvedInput interpreter.graph.bank = .ok (some input))
    (inside : interpreter.producer? worker input = some producer) :
    interpreter.Waits id (some producer) := by
  obtain ⟨port, place, short⟩ := starved_of_starvedInput known starved
  refine .input short ⟨?_, producer?_inside inside⟩
  unfold producer? at inside
  rw [place, Option.filter_eq_some_iff] at inside
  exact inside.1

theorem waits_of_stall {interpreter : Interpreter β α μ} {id : WorkerId} {worker : Worker β μ}
    {input : Nat} (known : interpreter.graph.worker? id = some worker)
    (starved : worker.starvedInput interpreter.graph.bank = .ok (some input))
    (outside : interpreter.producer? worker input = none) : interpreter.Waits id none := by
  obtain ⟨port, place, short⟩ := starved_of_starvedInput known starved
  refine .input short ?_
  intro peer inside named
  unfold producer? at outside
  rw [place, Option.bind_some, named, Option.filter_some,
    if_pos (List.contains_iff_mem.mpr inside)] at outside
  cases outside

private theorem waits_of_sender {interpreter : Interpreter β α μ} {id sender : WorkerId}
    {worker : Worker β μ} (known : interpreter.graph.worker? id = some worker)
    (due : interpreter.dueSender? id worker.upcoming = some sender) :
    interpreter.Waits id (some sender) := by
  obtain ⟨constraint, scheduled, recipient, rfl, late⟩ := dueSender?_eq_some due
  obtain ⟨sent, sends, passed⟩ := isDue_eq_true.mp late
  exact .sender scheduled recipient sends (Graph.executions?_of_known known) passed

structure Pulling (frame : InterpreterFrame) (pulled : WorkerId) (stack : List WorkerId)
    (interpreter : Interpreter β α μ) : Prop where
  frame_eq : interpreter.frame = frame
  members : ∀ id ∈ stack, id ∈ frame.members
  linked : interpreter.Linked stack
  bottom : stack = [] ∨ ∃ upper, stack = upper ++ [pulled]

theorem Pulling.pulled_mem {frame : InterpreterFrame} {pulled current : WorkerId}
    {waiting : List WorkerId} {interpreter : Interpreter β α μ}
    (pulling : Pulling frame pulled (current :: waiting) interpreter) :
    pulled ∈ current :: waiting := by
  rcases pulling.bottom with empty | ⟨upper, same⟩
  · cases empty
  · rw [same]
    exact List.mem_append_right _ (List.mem_singleton_self _)

variable [Recipient β μ] [Work β α μ]

theorem Pulling.look {frame : InterpreterFrame} {pulled current : WorkerId}
    {waiting stack : List WorkerId} {interpreter left : Interpreter β α μ}
    (pulling : Pulling frame pulled (current :: waiting) interpreter) (sound : frame.Sound)
    (unshared : interpreter.graph.bank.Unshared)
    (view : PullView interpreter current waiting (.proceed stack left)) :
    Pulling frame pulled stack left := by
  obtain ⟨rfl, members, linked, bottom⟩ := pulling
  have deeper (top : WorkerId) :
      ∃ upper, top :: current :: waiting = upper ++ [pulled] := by
    rcases bottom with empty | ⟨upper, same⟩
    · cases empty
    · exact ⟨top :: upper, by rw [same, List.cons_append]⟩
  refine ⟨view.frame_left, view.inside sound members, ?_, ?_⟩
  · cases view with
    | feeder known free starved inside => exact ⟨waits_of_feeder known starved inside, linked⟩
    | sender known free fed due => exact ⟨waits_of_sender known due, linked⟩
    | @fired worker graph after ready free firing follow =>
        apply linked.tail.outlasts
        intro upper upperIn lower lowerIn waits
        have moved := waits.fire sound unshared (members current (List.mem_cons_self ..))
          (fun same => free (same ▸ lowerIn)) (fun same => free (Option.some.inj same ▸ upperIn))
        have counted := interpreter.delegate.afterFire_sameButCounts
          (interpreter.stats.firings + 1) graph current
        rw [firing] at moved
        rw [follow] at counted
        exact (moved.follow counted).counted rfl rfl
  · cases view with
    | feeder known free starved inside => exact .inr (deeper _)
    | sender known free fed due => exact .inr (deeper _)
    | fired ready free firing follow =>
        rcases bottom with empty | ⟨upper, same⟩
        · cases empty
        · cases upper with
          | nil =>
              cases same
              exact .inl rfl
          | cons top rest =>
              cases same
              exact .inr ⟨rest, rfl⟩

/-- The interpreters in which a pull may begin: those that a history leads to and, inside a
call, those that counting and earlier pulls lead to. -/
inductive Midway (start : Interpreter β α μ) : Interpreter β α μ → Prop where
  | reached {interpreter : Interpreter β α μ} (reachable : start.Reachable interpreter) :
      Midway start interpreter
  | counted {interpreter : Interpreter β α μ} (before : Midway start interpreter)
      (stats : InterpreterStats) : Midway start { interpreter with stats := stats }
  | pulled {interpreter left : Interpreter β α μ} {answer : Except Error Bool} (fuel : Nat)
      (id : WorkerId) (before : Midway start interpreter)
      (run : interpreter.pull fuel id = some (answer, left)) : Midway start left

private theorem Midway.frame_eq {start interpreter : Interpreter β α μ}
    (midway : start.Midway interpreter) : interpreter.frame = start.frame := by
  induction midway with
  | reached reachable => exact reachable.frame_eq
  | counted before stats inductionHypothesis => exact inductionHypothesis
  | pulled fuel id before run inductionHypothesis =>
      exact (pullSteps_frame run).trans inductionHypothesis

/-- If a pull answers that it needs elements from outside, no legal run ever fires the
worker that was pulled; if the pull stops at a worker that waits further down in its stack,
not even when elements come in at the input boundaries. -/
theorem pull_stalls_for_good [Signature β] {graph : Graph β α μ} (descends : graph.Descends)
    (unshared : graph.bank.Unshared) {workers : List WorkerId} {given : List Constraint}
    {start interpreter left : Interpreter β α μ} (opened : Opens graph workers given start)
    (midway : start.Midway interpreter) {id : WorkerId}
    (inside : id ∈ interpreter.members) {fuel : Nat} {answer : Except Error Bool}
    (run : interpreter.pull fuel id = some (answer, left)) :
    (answer = .ok false →
      ∀ fired after, left.LegalRun false fired after → id ∉ fired) ∧
    (∀ label current waiting, answer = .error (.unsatisfiableConstraints label) →
      interpreter.pullStack fuel id = current :: waiting → current ∈ waiting →
      ∀ fired after, left.LegalRun true fired after → id ∉ fired) := by
  have frame : interpreter.frame = start.frame := midway.frame_eq
  have sound : interpreter.frame.Sound := by
    rw [frame]
    exact opened.frame_sound descends.sound
  have unsharedNow : interpreter.graph.bank.Unshared := by
    apply unshared_of_frame_eq frame
    rw [opened.graph_eq]
    exact unshared
  have begins : Pulling interpreter.frame id [id]
      { interpreter with
        stats := { interpreter.stats with pulls := interpreter.stats.pulls + 1 } } := by
    refine ⟨rfl, ?_, trivial, .inr ⟨[], rfl⟩⟩
    intro other member
    rw [List.mem_singleton] at member
    subst member
    exact inside
  have last := pullSteps_last (Pulling interpreter.frame id)
    (fun now current waiting stack after pulling view =>
      pulling.look sound (unshared_of_frame_eq pulling.frame_eq unsharedNow) view) run begins
  rcases last with ⟨rfl, _⟩ | ⟨current, waiting, before, final, pulling, view⟩
  · exact ⟨by simp, by simp⟩
  have leftFrame : left.frame = interpreter.frame := view.frame_left.trans pulling.frame_eq
  have leftSound : left.frame.Sound := leftFrame ▸ sound
  have leftUnshared := unshared_of_frame_eq leftFrame unsharedNow
  constructor
  · rintro rfl fired after legalRun
    cases view with
    | stalled known free starved outside =>
        have stuck : before.countStall.Stuck false (current :: waiting) := by
          intro other member
          rcases List.mem_cons.mp member with rfl | lower
          · exact .inl ⟨rfl, (waits_of_stall known starved outside).counted rfl rfl⟩
          · obtain ⟨peer, peerIn, waits⟩ := pulling.linked.waits lower
            exact .inr ⟨peer, peerIn, waits.counted rfl rfl⟩
        exact (stuck.legalRun leftSound leftUnshared legalRun).2.2 id pulling.pulled_mem
  · rintro label top rest rfl stack repeats fired after legalRun
    rw [pullStack, final] at stack
    cases stack
    cases view with
    | circular known waits =>
        -- The top is among those below it, so the workers below it wait for each other.
        have among : ∀ other ∈ current :: waiting, other ∈ waiting := by
          intro other member
          rcases List.mem_cons.mp member with rfl | lower
          · exact repeats
          · exact lower
        have stuck : left.Stuck true waiting := by
          intro other member
          obtain ⟨peer, peerIn, waits⟩ := pulling.linked.waits member
          exact .inr ⟨peer, among peer peerIn, waits⟩
        exact (stuck.legalRun leftSound leftUnshared legalRun).2.2 id
          (among id pulling.pulled_mem)
    | unsupported known free refused => exact absurd repeats free
    | failed ready free firing => exact absurd repeats free
    | refused ready free firing follow => exact absurd repeats free

/-! ### Two workers in a row, the second of which is to message the first -/

def knotBuilder : Builder Standard Nat :=
  let builder := (Builder.addWorker {} .filter ⟨"upper", .identity⟩).2
  let builder := (builder.addWorker .filter ⟨"lower", .identity⟩).2
  let builder := (builder.connect 0 1).2
  let builder := (builder.addPortal .identity).2
  let builder := (builder.register { id := 0, recipient := .identity } 0).2
  (builder.addConstraint ⟨⟨1, 0, 0⟩, .latency 1⟩).2

def knotGraph : Graph Standard Nat Unit := knotBuilder.graph

def knotInterpreter : Interpreter Standard Nat Unit :=
  onSection knotGraph knotGraph.workerIds knotGraph.constraints

theorem knotGraph_built : knotGraph.Built :=
  ⟨knotBuilder,
    .addConstraint _ (.register _ _ (.addPortal _ (.connect _ _
      (.addWorker _ _ (.addWorker _ _ (.fresh _)))))), rfl⟩

theorem knotInterpreter_opens :
    Opens knotGraph knotGraph.workerIds knotGraph.constraints knotInterpreter :=
  ⟨knotInterpreter, _, _, rfl, rfl⟩

private theorem knotGraph_unshared : knotGraph.bank.Unshared := by
  intro left right key leftShared rightShared
  match left, leftShared with
  | 0, leftShared => cases leftShared
  | 1, leftShared => cases leftShared
  | 2, leftShared => cases leftShared
  | left + 3, leftShared => cases (show none = some (Slot.shared key) from leftShared)

theorem pull_stalls_for_good_knot :
    (∃ left, knotInterpreter.pull 9 1 = some (.ok false, left) ∧
      ∀ fired after, left.LegalRun false fired after → 1 ∉ fired) ∧
    ∃ fed label left, knotInterpreter.pushAll? 0 [7] = some fed ∧
      fed.pull 9 1 = some (.error (.unsatisfiableConstraints label), left) ∧
      ∀ fired after, left.LegalRun true fired after → 1 ∉ fired := by
  constructor
  · obtain ⟨left, run⟩ : ∃ left, knotInterpreter.pull 9 1 = some (.ok false, left) := ⟨_, rfl⟩
    refine ⟨left, run, ?_⟩
    exact (pull_stalls_for_good knotGraph_built.descends knotGraph_unshared knotInterpreter_opens
      (.reached .start) (by decide) run).1 rfl
  · obtain ⟨fed, push, label, left, run, current, waiting, stack, repeats⟩ :
        ∃ fed, knotInterpreter.pushAll? 0 [7] = some fed ∧
        ∃ label left, fed.pull 9 1 = some (.error (.unsatisfiableConstraints label), left) ∧
        ∃ current waiting, fed.pullStack 9 1 = current :: waiting ∧ current ∈ waiting :=
      ⟨_, rfl, _, _, rfl, _, _, rfl, by decide⟩
    have inside : 1 ∈ fed.members := by
      cases push
      decide
    refine ⟨fed, label, left, push, run, ?_⟩
    exact (pull_stalls_for_good knotGraph_built.descends knotGraph_unshared knotInterpreter_opens
      (.reached (.traffic .start (.push 0 [7] push))) inside run).2 label current waiting rfl
        stack repeats

end DemandFlow.Interpreter
