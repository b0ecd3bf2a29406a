import DemandFlow.Proofs.Interpreter.Answer
import DemandFlow.Proofs.Interpreter.Consumption
import DemandFlow.Proofs.Interpreter.Isolation

/-!
The shape of a pull. A look either attempts a firing, and then of a worker that has all it
needs and that nobody on the stack waits below, or leaves the graph alone. So a pull ends with
the firing of the pulled worker, with a stack whose top lacks elements from outside, with a
failure, or with a cycle, which is noticed before anything else happens.
-/

set_option autoImplicit false

namespace DemandFlow.Interpreter

variable {β α μ : Type} [Recipient β μ] [Work β α μ]

def looksOfPull (fuel : Nat) (interpreter : Interpreter β α μ) (worker : WorkerId) :
    List (Look β α μ) :=
  pullLooks fuel [worker]
    { interpreter with
      stats := { interpreter.stats with pulls := interpreter.stats.pulls + 1 } }

/-- The look fires the worker on top of its stack, which does not wait further down. Every
input of the worker holds what the larger of its two rates asks for, and what its senders would
send next is due after its next firing. -/
structure Look.Attempts (look : Look β α μ) (current : WorkerId) (waiting : List WorkerId)
    (worker : Worker β μ) : Prop where
  stack : look.stack = current :: waiting
  inside : current ∈ look.interpreter.members
  free : current ∉ waiting
  known : look.interpreter.graph.worker? current = some worker
  fed : ∀ (index : Nat) (port : Port), worker.inputs[index]? = some port →
    ∃ required, worker.rates.need? index = some required ∧
      required ≤ (look.interpreter.graph.bank.channel port.channel).size
  punctual : ∀ constraint ∈ look.interpreter.constraints, constraint.recipient = current →
    ∃ sent, look.interpreter.graph.executions? constraint.sender = some sent ∧
      worker.executions + 1 < constraint.deliveryTime sent
  step : look.interpreter.pullStep current waiting = look.interpreter.fireTop current waiting

/-- The look fires nobody: it leaves the graph and the journal as they are. -/
def Look.Rests (look : Look β α μ) (current : WorkerId) (waiting : List WorkerId) : Prop :=
  (look.interpreter.pullStep current waiting).left.graph = look.interpreter.graph ∧
    (look.interpreter.pullStep current waiting).left.journal = look.interpreter.journal

theorem Ready.pullStep_eq {interpreter : Interpreter β α μ} {current : WorkerId}
    {worker : Worker β μ} (ready : interpreter.Ready current worker) {waiting : List WorkerId}
    (free : current ∉ waiting) :
    interpreter.pullStep current waiting = interpreter.fireTop current waiting := by
  have notWaiting : waiting.contains current = false := by
    rw [← Bool.not_eq_true, List.contains_iff_mem]
    exact free
  unfold pullStep
  rw [ready.known]
  dsimp only
  rw [notWaiting, if_neg Bool.false_ne_true, ready.fed]
  dsimp only
  rw [ready.punctual]

/-- A worker that is ready in a sound section has all that a firing asks for. -/
theorem Ready.attempts {interpreter : Interpreter β α μ} (sound : interpreter.frame.Sound)
    {current : WorkerId} {worker : Worker β μ} (ready : interpreter.Ready current worker)
    (inside : current ∈ interpreter.members) {waiting : List WorkerId}
    (free : current ∉ waiting) :
    (Look.mk (current :: waiting) interpreter).Attempts current waiting worker where
  stack := rfl
  inside := inside
  free := free
  known := ready.known
  fed := by
    have fits : worker.rates.fits worker.shape = true := by
      apply sound.graph.rated current worker.frame
      change interpreter.graph.frame.workers[current]? = _
      rw [Graph.frame_get, ready.known]
      rfl
    exact fun index port place => Worker.need_of_fed fits ready.fed place
  punctual := by
    intro constraint scheduled recipient
    have sender := (sound.inside constraint scheduled).1
    obtain ⟨other, sends⟩ := Graph.worker_of_lt rfl (sound.known constraint.sender sender)
    have sent := Graph.executions?_of_known sends
    have legal := (ready.legal inside).clear constraint scheduled recipient _ _ sent
      (Graph.executions?_of_known ready.known)
    exact ⟨other.executions, sent, legal⟩
  step := ready.pullStep_eq free

/-- Whatever a look that attempts no firing comes to, the graph stays as it is. -/
theorem PullView.ready_or_rests {interpreter : Interpreter β α μ} {current : WorkerId}
    {waiting : List WorkerId} {step : PullStep β α μ}
    (view : PullView interpreter current waiting step) :
    (∃ worker, interpreter.Ready current worker ∧ current ∉ waiting) ∨
      step.left.graph = interpreter.graph ∧ step.left.journal = interpreter.journal := by
  cases view with
  | failed ready free firing => exact .inl ⟨_, ready, free⟩
  | refused ready free firing follow => exact .inl ⟨_, ready, free⟩
  | fired ready free firing follow => exact .inl ⟨_, ready, free⟩
  | unknown absent => exact .inr ⟨rfl, rfl⟩
  | circular known waits => exact .inr ⟨rfl, rfl⟩
  | unsupported known free refused => exact .inr ⟨rfl, rfl⟩
  | stalled known free starved outside => exact .inr ⟨rfl, rfl⟩
  | feeder known free starved inside => exact .inr ⟨rfl, rfl⟩
  | sender known free fed due => exact .inr ⟨rfl, rfl⟩

def Look.Completes (look : Look β α μ) (after : Interpreter β α μ) : Prop :=
  ∃ current waiting worker, look.Attempts current waiting worker ∧
    look.interpreter.pullStep current waiting = .proceed waiting after

/-- What the stack of a pull consists of: workers of the section, all those that wait being
different. -/
structure Stacked (frame : InterpreterFrame) (stack : List WorkerId)
    (interpreter : Interpreter β α μ) : Prop where
  frame_eq : interpreter.frame = frame
  members : ∀ id ∈ stack, id ∈ frame.members
  once : stack.tail.Nodup

omit [Recipient β μ] [Work β α μ] in
theorem Stacked.alone (interpreter : Interpreter β α μ) {id : WorkerId}
    (inside : id ∈ interpreter.members) (stats : InterpreterStats) :
    Stacked interpreter.frame [id] { interpreter with stats := stats } :=
  ⟨rfl, List.forall_mem_singleton.mpr inside, List.nodup_nil⟩

theorem Stacked.look {frame : InterpreterFrame} (sound : frame.Sound) {current : WorkerId}
    {waiting stack : List WorkerId} {interpreter left : Interpreter β α μ}
    (stacked : Stacked frame (current :: waiting) interpreter)
    (view : PullView interpreter current waiting (.proceed stack left)) :
    Stacked frame stack left := by
  obtain ⟨rfl, members, once⟩ := stacked
  refine ⟨view.frame_left, view.inside sound members, ?_⟩
  cases view with
  | feeder known free starved inside => exact List.nodup_cons.mpr ⟨free, once⟩
  | sender known free fed due => exact List.nodup_cons.mpr ⟨free, once⟩
  | fired ready free firing follow => exact once.tail

omit [Recipient β μ] [Work β α μ] in
/-- The stack of a pull has room for every worker of the section and one more. -/
theorem Stacked.length_le {frame : InterpreterFrame} {stack : List WorkerId}
    {interpreter : Interpreter β α μ} (stacked : Stacked frame stack interpreter) :
    stack.length ≤ frame.members.length + 1 := by
  cases stack with
  | nil => exact Nat.zero_le _
  | cons current waiting =>
      have within := stacked.once.length_le_of_subset
        (fun id member => stacked.members id (List.mem_cons_of_mem _ member))
      exact Nat.succ_le_succ within

private theorem Stacked.attempts_or_rests {frame : InterpreterFrame} (sound : frame.Sound)
    {current : WorkerId} {waiting : List WorkerId} {interpreter : Interpreter β α μ}
    (stacked : Stacked frame (current :: waiting) interpreter) :
    (∃ worker, (Look.mk (current :: waiting) interpreter).Attempts current waiting worker) ∨
      (Look.mk (current :: waiting) interpreter).Rests current waiting := by
  obtain ⟨rfl, members, _⟩ := stacked
  rcases (interpreter.pullStep_view current waiting).ready_or_rests with
    ⟨worker, ready, free⟩ | rests
  · exact .inl ⟨worker, ready.attempts sound (members current (List.mem_cons_self ..)) free⟩
  · exact .inr rests

/-- The look that ends a pull finds the graph as the last firing that the pull has completed
left it, or as it was when the pull began. -/
theorem pullSteps_last_look {frame : InterpreterFrame} (sound : frame.Sound) {fuel : Nat}
    {stack : List WorkerId} {interpreter left : Interpreter β α μ} {answer : Except Error Bool}
    (stacked : Stacked frame stack interpreter)
    (run : pullSteps fuel stack interpreter = some (answer, left)) {current : WorkerId}
    {waiting : List WorkerId} (last : lastStack fuel stack interpreter = current :: waiting) :
    ∃ before, Stacked frame (current :: waiting) before ∧
      PullView before current waiting (.stop answer left) ∧
      (before.graph = interpreter.graph ∧ before.journal = interpreter.journal ∨
        ∃ look ∈ pullLooks fuel stack interpreter, ∃ after, look.Completes after ∧
          before.graph = after.graph ∧ before.journal = after.journal) := by
  induction fuel generalizing stack interpreter with
  | zero => cases run
  | succ fuel inductionHypothesis =>
      cases stack with
      | nil => cases last
      | cons top below =>
          have view := interpreter.pullStep_view top below
          unfold pullSteps at run
          unfold lastStack at last
          unfold pullLooks
          cases step : interpreter.pullStep top below with
          | stop stopped after =>
              rw [step] at run last view
              cases run
              cases last
              exact ⟨interpreter, stacked, view, .inl ⟨rfl, rfl⟩⟩
          | proceed next after =>
              rw [step] at run last view
              dsimp only at run last ⊢
              obtain ⟨before, settled, stops, unmoved⟩ :=
                inductionHypothesis (stacked.look sound view) run last
              refine ⟨before, settled, stops, ?_⟩
              rw [List.exists_mem_cons_iff]
              rcases unmoved with unmoved | later
              · -- Nobody fires after this look, so what it does itself counts.
                cases view with
                | feeder known free starved inside => exact .inl unmoved
                | sender known free fed due => exact .inl unmoved
                | fired ready free firing follow =>
                    obtain ⟨rfl, members, _⟩ := stacked
                    have attempts := ready.attempts sound (members top (List.mem_cons_self ..)) free
                    exact .inr (.inl ⟨_, ⟨top, below, _, attempts, step⟩, unmoved⟩)
              · exact .inr (.inr later)

private theorem pullLooks_stack {fuel : Nat} {stack : List WorkerId}
    {interpreter : Interpreter β α μ} :
    ∀ look ∈ pullLooks fuel stack interpreter,
      ∃ current waiting, look.stack = current :: waiting := by
  induction fuel generalizing stack interpreter with
  | zero => exact fun look member => by cases member
  | succ fuel inductionHypothesis =>
      cases stack with
      | nil => exact fun look member => by cases member
      | cons current waiting =>
          unfold pullLooks
          rw [List.forall_mem_cons]
          refine ⟨⟨current, waiting, rfl⟩, ?_⟩
          split
          next => exact fun look member => by cases member
          next => exact inductionHypothesis

/-- How the pull of a worker of an accepted section can go, whatever the channels, bodies,
counts and queues are at its start. Every look of it attempts a firing of a worker that has all
it needs and does not wait, or leaves the graph alone. After a success the worker has fired
once, and last. After a stall it has not fired, and the top of the stack lacks elements that
come from outside. If the top waits further down, the pull fails for that reason, and nothing
has happened to the graph since the last firing completed. -/
theorem pull_shape [Signature β] {graph : Graph β α μ} (descends : graph.Descends)
    {workers : List WorkerId} {given : List Constraint} {start interpreter : Interpreter β α μ}
    (opened : Opens graph workers given start) (same : interpreter.frame = start.frame)
    {id : WorkerId} (inside : id ∈ interpreter.members) (fuel : Nat) :
    (∀ look ∈ interpreter.looksOfPull fuel id, ∃ current waiting,
      look.stack = current :: waiting ∧ ((∃ worker, look.Attempts current waiting worker) ∨
        look.Rests current waiting)) ∧
    ∀ answer left, interpreter.pull fuel id = some (answer, left) →
      (answer = .ok true → ∃ prior, interpreter.Since left (prior ++ [id]) ∧ id ∉ prior) ∧
      (answer = .ok false → (∃ fired, interpreter.Since left fired ∧ id ∉ fired) ∧
        ∃ current waiting port, interpreter.pullStack fuel id = current :: waiting ∧
          left.Starved current port ∧ left.Feeds none port) ∧
      ∀ current waiting, interpreter.pullStack fuel id = current :: waiting →
        current ∈ waiting →
        (∃ worker, left.graph.worker? current = some worker ∧
          answer = .error (.unsatisfiableConstraints worker.label)) ∧
        (left.graph = interpreter.graph ∧ left.journal = interpreter.journal ∨
          ∃ look ∈ interpreter.looksOfPull fuel id, ∃ after, look.Completes after ∧
            left.graph = after.graph ∧ left.journal = after.journal) := by
  have terminal : interpreter.Terminal := (opened.terminal descends).of_frame_eq same
  have sound := terminal.sound
  have begins := Stacked.alone interpreter inside
    { interpreter.stats with pulls := interpreter.stats.pulls + 1 }
  constructor
  · have stacked : ∀ look ∈ interpreter.looksOfPull fuel id,
        Stacked interpreter.frame look.stack look.interpreter :=
      pullLooks_induction (Stacked interpreter.frame)
        (fun now current waiting stack left stacked view => stacked.look sound view) begins
    rintro ⟨stack, now⟩ member
    obtain ⟨current, waiting, top⟩ := pullLooks_stack _ member
    dsimp only at top
    subst top
    exact ⟨current, waiting, rfl, (stacked _ member).attempts_or_rests sound⟩
  · intro answer left run
    refine ⟨?_, ?_, ?_⟩
    · rintro rfl
      obtain ⟨_, _, since, _, _, prior, rfl, unfired, _⟩ := pull_answer terminal inside run
      exact ⟨prior, since, unfired⟩
    · rintro rfl
      obtain ⟨fired, _, since, _, _, unfired, _⟩ := pull_answer terminal inside run
      refine ⟨⟨fired, since, unfired⟩, ?_⟩
      rcases pullSteps_last (Stacked interpreter.frame)
        (fun now current waiting stack left stacked view => stacked.look sound view) run begins with
        ⟨wrong, _⟩ | ⟨current, waiting, before, last, _, view⟩
      · cases wrong
      · cases view with
        | stalled known free starved outside =>
            cases waits_of_stall known starved outside with
            | @input port _ short feeds => exact ⟨current, waiting, port, last, short, feeds⟩
    · intro current waiting last repeats
      obtain ⟨before, stacked, view, unmoved⟩ := pullSteps_last_look sound begins run last
      cases view with
      | circular known waits => exact ⟨⟨_, known, rfl⟩, unmoved⟩
      | unknown absent =>
          have within := sound.known current (stacked.members current (List.mem_cons_self ..))
          obtain ⟨worker, known⟩ := Graph.worker_of_lt
            (congrArg InterpreterFrame.graph stacked.frame_eq) within
          rw [absent] at known
          cases known
      | unsupported known free refused => exact absurd repeats free
      | stalled known free starved outside => exact absurd repeats free
      | failed ready free firing => exact absurd repeats free
      | refused ready free firing follow => exact absurd repeats free

/-- The second of the workers in a row stalls without elements, and with an element it comes to
wait for itself. The recipient of two senders is pulled successfully after both of them. -/
theorem pull_shape_knot_race :
    (∃ left, knotInterpreter.pull 9 1 = some (.ok false, left) ∧
      ∃ current waiting port, knotInterpreter.pullStack 9 1 = current :: waiting ∧
        left.Starved current port ∧ left.Feeds none port) ∧
    (∃ fed answer left, knotInterpreter.pushAll? 0 [7] = some fed ∧
      fed.pull 9 1 = some (answer, left) ∧ fed.pullStack 9 1 = [1, 0, 1] ∧
      (∃ worker, left.graph.worker? 1 = some worker ∧
        answer = .error (.unsatisfiableConstraints worker.label)) ∧
      (left.graph = fed.graph ∧ left.journal = fed.journal ∨
        ∃ look ∈ fed.looksOfPull 9 1, ∃ after, look.Completes after ∧
          left.graph = after.graph ∧ left.journal = after.journal)) ∧
    ∃ first second fed left, raceInterpreter.pushAll? 0 [4] = some first ∧
      first.pushAll? 2 [5] = some second ∧ second.pushAll? 4 [6] = some fed ∧
      fed.pull 9 0 = some (.ok true, left) ∧
      ∃ prior, fed.Since left (prior ++ [0]) ∧ 0 ∉ prior := by
  refine ⟨?_, ?_, ?_⟩
  · obtain ⟨left, run⟩ : ∃ left, knotInterpreter.pull 9 1 = some (.ok false, left) := ⟨_, rfl⟩
    have inside : 1 ∈ knotInterpreter.members := by decide
    have shape := pull_shape knotGraph_built.descends knotInterpreter_opens rfl inside 9
    exact ⟨left, run, ((shape.2 _ left run).2.1 rfl).2⟩
  · obtain ⟨fed, push, inside, answer, left, run, stack⟩ :
        ∃ fed, knotInterpreter.pushAll? 0 [7] = some fed ∧ 1 ∈ fed.members ∧
        ∃ answer left, fed.pull 9 1 = some (answer, left) ∧ fed.pullStack 9 1 = [1, 0, 1] :=
      ⟨_, rfl, by decide, _, _, rfl, rfl⟩
    have shape := pull_shape knotGraph_built.descends knotInterpreter_opens
      (Reachable.frame_eq (.traffic .start (.push 0 [7] push))) inside 9
    exact ⟨fed, answer, left, push, run, stack, (shape.2 answer left run).2.2 1 [0, 1] stack
      (by decide)⟩
  · obtain ⟨first, second, fed, left, one, two, three, inside, run⟩ : ∃ first second fed left,
        raceInterpreter.pushAll? 0 [4] = some first ∧ first.pushAll? 2 [5] = some second ∧
          second.pushAll? 4 [6] = some fed ∧ 0 ∈ fed.members ∧
          fed.pull 9 0 = some (.ok true, left) :=
      ⟨_, _, _, _, rfl, rfl, rfl, by decide, rfl⟩
    have shape := pull_shape raceGraph_built.descends raceInterpreter_opens
      (Reachable.frame_eq (.traffic (.traffic (.traffic .start (.push 0 [4] one))
        (.push 2 [5] two)) (.push 4 [6] three))) inside 9
    exact ⟨first, second, fed, left, one, two, three, run, (shape.2 _ left run).1 rfl⟩

end DemandFlow.Interpreter
