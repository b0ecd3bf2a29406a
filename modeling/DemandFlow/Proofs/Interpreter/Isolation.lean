import DemandFlow.Proofs.Graph.Passage
import DemandFlow.Proofs.Interpreter.Stall

/-!
Sections are isolated. Whatever calls do, also when they fail half-way or never end, the
workers outside the section and the channels away from it stay as they are, output boundaries
only gain elements and input boundaries only lose them. The reason is that no stack leaves the
section and no message is routed out of it, since no declared constraint crosses its boundary.
-/

set_option autoImplicit false

namespace DemandFlow.Interpreter

variable {β α μ : Type}

section

variable [Recipient β μ] [Work β α μ]

structure Look (β α μ : Type) where
  stack : List WorkerId
  interpreter : Interpreter β α μ

/-- The looks of a pull, in the order they are taken. -/
def pullLooks : Nat → List WorkerId → Interpreter β α μ → List (Look β α μ)
  | 0, _, _ => []
  | _ + 1, [], _ => []
  | fuel + 1, current :: waiting, interpreter =>
      { stack := current :: waiting, interpreter := interpreter } ::
        match interpreter.pullStep current waiting with
        | .stop _ _ => []
        | .proceed stack left => pullLooks fuel stack left

def passLooks (fuel : Nat) : List WorkerId → Interpreter β α μ → List (Look β α μ)
  | [], _ => []
  | sink :: rest, interpreter =>
      pullLooks fuel [sink] { interpreter with
          stats := { interpreter.stats with pulls := interpreter.stats.pulls + 1 } } ++
        match interpreter.pull fuel sink with
        | some (.ok _, left) => passLooks fuel rest left
        | _ => []

def passesLooks (pullFuel : Nat) : Nat → Option Nat → Interpreter β α μ → List (Look β α μ)
  | 0, _, _ => []
  | fuel + 1, remaining, interpreter =>
      if remaining = some 0 then []
      else
        let counted := { interpreter with
          stats := { interpreter.stats with passes := interpreter.stats.passes + 1 } }
        passLooks pullFuel interpreter.sinks counted ++
          match pass pullFuel false interpreter.sinks counted with
          | some (.ok true, left) => passesLooks pullFuel fuel (remaining.map (· - 1)) left
          | _ => []

def looks (fuel : Nat) (interpreter : Interpreter β α μ) : List (Look β α μ) :=
  passesLooks fuel fuel interpreter.maxPasses
    { interpreter with
      stats := { interpreter.stats with
        interpretCalls := interpreter.stats.interpretCalls + 1 } }

/-- What looks keep of a stack and an interpreter holds at every look of a pull. -/
theorem pullLooks_induction (holds : List WorkerId → Interpreter β α μ → Prop)
    (proceed : ∀ interpreter current waiting stack left, holds (current :: waiting) interpreter →
      PullView interpreter current waiting (.proceed stack left) → holds stack left)
    {fuel : Nat} {stack : List WorkerId} {interpreter : Interpreter β α μ}
    (start : holds stack interpreter) :
    ∀ look ∈ pullLooks fuel stack interpreter, holds look.stack look.interpreter := by
  induction fuel generalizing stack interpreter with
  | zero => exact fun look member => by cases member
  | succ fuel inductionHypothesis =>
      cases stack with
      | nil => exact fun look member => by cases member
      | cons current waiting =>
          have view := interpreter.pullStep_view current waiting
          unfold pullLooks
          rw [List.forall_mem_cons]
          refine ⟨start, ?_⟩
          split
          next => exact fun look member => by cases member
          next stack left outcome =>
            rw [outcome] at view
            exact inductionHypothesis (proceed _ _ _ _ _ start view)

section

variable {sinks : List WorkerId} {holds : Interpreter β α μ → Prop}
  {fails : Error → Interpreter β α μ → Prop}

private theorem KeptByPulls.passLooks (kept : KeptByPulls sinks holds fails)
    (seen : Look β α μ → Prop)
    (pulls : ∀ fuel, ∀ sink ∈ sinks, ∀ interpreter, holds interpreter →
      ∀ look ∈ pullLooks fuel [sink] interpreter, seen look)
    {fuel : Nat} {pending : List WorkerId} (subset : ∀ sink ∈ pending, sink ∈ sinks)
    {interpreter : Interpreter β α μ} (start : holds interpreter) :
    ∀ look ∈ passLooks fuel pending interpreter, seen look := by
  induction pending generalizing interpreter with
  | nil => exact fun look member => by cases member
  | cons sink rest inductionHypothesis =>
      have here := subset sink (List.mem_cons_self ..)
      have counted := kept.counted interpreter
        { interpreter.stats with pulls := interpreter.stats.pulls + 1 } start
      unfold Interpreter.passLooks
      rw [List.forall_mem_append]
      refine ⟨pulls fuel sink here _ counted, ?_⟩
      split
      next progress left pulled =>
        exact inductionHypothesis
          (fun other member => subset other (List.mem_cons_of_mem _ member))
          (kept.pulled fuel sink _ progress left here counted pulled)
      next => exact fun look member => by cases member

/-- What holds at the looks of single pulls holds at the looks of a call. -/
theorem KeptByPulls.looks (kept : KeptByPulls sinks holds fails) (seen : Look β α μ → Prop)
    (pulls : ∀ fuel, ∀ sink ∈ sinks, ∀ interpreter, holds interpreter →
      ∀ look ∈ pullLooks fuel [sink] interpreter, seen look)
    {fuel : Nat} {interpreter : Interpreter β α μ} (start : holds interpreter) :
    ∀ look ∈ interpreter.looks fuel, seen look := by
  have passes (count : Nat) (remaining : Option Nat) (now : Interpreter β α μ)
      (nowHolds : holds now) : ∀ look ∈ passesLooks fuel count remaining now, seen look := by
    induction count generalizing remaining now with
    | zero => exact fun look member => by cases member
    | succ count inductionHypothesis =>
        have counted := kept.counted now
          { now.stats with passes := now.stats.passes + 1 } nowHolds
        have subset : ∀ sink ∈ now.sinks, sink ∈ sinks := by
          rw [kept.sinks_eq now nowHolds]
          exact fun sink member => member
        unfold passesLooks
        split
        next => exact fun look member => by cases member
        next =>
          dsimp only
          rw [List.forall_mem_append]
          refine ⟨kept.passLooks seen pulls subset counted, ?_⟩
          split
          next left passed =>
            have progressed : holds left := kept.pass subset counted passed
            exact inductionHypothesis _ left progressed
          next => exact fun look member => by cases member
  exact passes fuel interpreter.maxPasses _ (kept.counted interpreter _ start)

end

section

variable {good : Interpreter β α μ → Prop}
  (counted : ∀ interpreter stats, good interpreter → good { interpreter with stats := stats })

def Carries (good : Interpreter β α μ → Prop) (looks : List (Look β α μ)) : Prop :=
  ∀ look ∈ looks, ∀ current waiting, look.stack = current :: waiting → good look.interpreter →
    good (look.interpreter.pullStep current waiting).left

private theorem pullLooks_carry {fuel : Nat} {stack : List WorkerId}
    {interpreter : Interpreter β α μ} (carries : Carries good (pullLooks fuel stack interpreter))
    (start : good interpreter) :
    (∀ look ∈ pullLooks fuel stack interpreter, good look.interpreter) ∧
      ∀ answer left, pullSteps fuel stack interpreter = some (answer, left) → good left := by
  induction fuel generalizing stack interpreter with
  | zero => exact ⟨fun look member => (by cases member), fun answer left run => by cases run⟩
  | succ fuel inductionHypothesis =>
      cases stack with
      | nil =>
          refine ⟨fun look member => (by cases member), ?_⟩
          intro answer left run
          cases run
          exact start
      | cons current waiting =>
          unfold Carries at carries
          unfold pullLooks at carries ⊢
          unfold pullSteps
          rw [List.forall_mem_cons] at carries ⊢
          have next := carries.1 current waiting rfl start
          cases step : interpreter.pullStep current waiting with
          | stop answer left =>
              rw [step] at next
              refine ⟨⟨start, fun look member => by cases member⟩, ?_⟩
              intro other after run
              cases run
              exact next
          | proceed stack left =>
              rw [step] at next carries
              have further := inductionHypothesis carries.2 next
              exact ⟨⟨start, further.1⟩, further.2⟩

include counted

private theorem passLooks_carry {fuel : Nat} {pending : List WorkerId}
    {interpreter : Interpreter β α μ} (carries : Carries good (passLooks fuel pending interpreter))
    (start : good interpreter) :
    (∀ look ∈ passLooks fuel pending interpreter, good look.interpreter) ∧
      ∀ progressed answer left, pass fuel progressed pending interpreter = some (answer, left) →
        good left := by
  induction pending generalizing interpreter with
  | nil =>
      refine ⟨fun look member => (by cases member), ?_⟩
      intro progressed answer left run
      cases run
      exact start
  | cons sink rest inductionHypothesis =>
      unfold Carries at carries
      unfold passLooks at carries ⊢
      unfold pass
      rw [List.forall_mem_append] at carries ⊢
      have first := pullLooks_carry carries.1 (counted interpreter _ start)
      cases pulled : interpreter.pull fuel sink with
      | none =>
          exact ⟨⟨first.1, fun look member => by cases member⟩,
            fun progressed answer left run => by cases run⟩
      | some outcome =>
          rcases outcome with ⟨answer, after⟩
          have afterFirst := first.2 answer after pulled
          cases answer with
          | error error =>
              refine ⟨⟨first.1, fun look member => by cases member⟩, ?_⟩
              intro progressed answer left run
              cases run
              exact afterFirst
          | ok progress =>
              rw [pulled] at carries
              have further := inductionHypothesis carries.2 afterFirst
              exact ⟨⟨first.1, further.1⟩, fun progressed => further.2 (progressed || progress)⟩

private theorem passesLooks_carry {pullFuel fuel : Nat} {remaining : Option Nat}
    {interpreter : Interpreter β α μ}
    (carries : Carries good (passesLooks pullFuel fuel remaining interpreter))
    (start : good interpreter) :
    (∀ look ∈ passesLooks pullFuel fuel remaining interpreter, good look.interpreter) ∧
      ∀ everFired answer left,
        passes pullFuel fuel remaining everFired interpreter = some (answer, left) →
          good left := by
  induction fuel generalizing remaining interpreter with
  | zero =>
      exact ⟨fun look member => (by cases member), fun everFired answer left run => by cases run⟩
  | succ fuel inductionHypothesis =>
      by_cases limit : remaining = some 0
      · subst limit
        refine ⟨fun look member => (by cases member), ?_⟩
        intro everFired answer left run
        cases run
        exact start
      · unfold Carries at carries
        unfold passesLooks at carries ⊢
        rw [if_neg limit, List.forall_mem_append] at carries ⊢
        simp only [passes_eq_goOn limit]
        have first := passLooks_carry counted carries.1 (counted interpreter _ start)
        cases passed : pass pullFuel false interpreter.sinks
            { interpreter with
              stats := { interpreter.stats with passes := interpreter.stats.passes + 1 } } with
        | none =>
            exact ⟨⟨first.1, fun look member => by cases member⟩,
              fun everFired answer left run => by cases run⟩
        | some outcome =>
            rcases outcome with ⟨answer, after⟩
            have afterFirst := first.2 false answer after passed
            cases answer with
            | error error =>
                refine ⟨⟨first.1, fun look member => by cases member⟩, ?_⟩
                intro everFired answer left run
                cases run
                exact afterFirst
            | ok progress =>
                cases progress with
                | false =>
                    refine ⟨⟨first.1, fun look member => by cases member⟩, ?_⟩
                    intro everFired answer left run
                    cases run
                    exact afterFirst
                | true =>
                    rw [passed] at carries
                    have further := inductionHypothesis carries.2 afterFirst
                    exact ⟨⟨first.1, further.1⟩, fun _ => further.2 true⟩

/-- What each look of a call hands on to the next one holds all through the call, and also
after it. -/
theorem looks_carry {fuel : Nat} {interpreter : Interpreter β α μ}
    (carries : Carries good (interpreter.looks fuel)) (start : good interpreter) :
    (∀ look ∈ interpreter.looks fuel, good look.interpreter) ∧
      ∀ answer left, interpreter.interpret fuel = some (answer, left) → good left := by
  have whole := passesLooks_carry counted carries (counted interpreter _ start)
  exact ⟨whole.1, whole.2 false⟩

end

end

def Touches (interpreter : Interpreter β α μ) (channel : ChannelId) : Prop :=
  ∃ id ∈ interpreter.members, ∃ worker, interpreter.graph.worker? id = some worker ∧
    channel ∈ worker.inputChannels ++ worker.outputChannels

theorem touches_iff {interpreter : Interpreter β α μ} {channel : ChannelId} :
    interpreter.Touches channel ↔ ∃ id ∈ interpreter.members,
      ∃ port ∈ interpreter.graph.frame.wiring.inputs id ++
        interpreter.graph.frame.wiring.outputs id, port.channel = channel := by
  constructor
  · rintro ⟨id, inside, worker, known, member⟩
    refine ⟨id, inside, ?_⟩
    rw [Graph.wiring_inputs known, Graph.wiring_outputs known]
    rwa [Worker.inputChannels, Worker.outputChannels, ← List.map_append, List.mem_map] at member
  · rintro ⟨id, inside, port, member, same⟩
    cases known : interpreter.graph.worker? id with
    | none => simp [GraphFrame.wiring, Graph.frame_get, known] at member
    | some worker =>
        rw [Graph.wiring_inputs known, Graph.wiring_outputs known] at member
        refine ⟨id, inside, worker, known, ?_⟩
        rw [Worker.inputChannels, Worker.outputChannels, ← List.map_append, List.mem_map]
        exact ⟨port, member, same⟩

/-- Outside the section nothing has changed, and at its boundary elements have only gone in
at the inputs and come out at the outputs. -/
structure Isolated (before after : Interpreter β α μ) : Prop where
  frame_eq : after.frame = before.frame
  workers : ∀ id, id ∉ before.members → after.graph.worker? id = before.graph.worker? id
  channels : ∀ channel, ¬ before.Touches channel →
    (after.graph.bank.channel channel).items = (before.graph.bank.channel channel).items
  outputs : ∀ boundary ∈ before.boundaries, boundary.direction = .output →
    (before.graph.bank.channel boundary.channel).items <+:
      (after.graph.bank.channel boundary.channel).items
  inputs : ∀ boundary ∈ before.boundaries, boundary.direction = .input →
    (after.graph.bank.channel boundary.channel).items <:+
      (before.graph.bank.channel boundary.channel).items

theorem Isolated.of_graph_eq {before after : Interpreter β α μ}
    (frame : after.frame = before.frame) (graph : after.graph = before.graph) :
    Isolated before after where
  frame_eq := frame
  workers := fun _ _ => by rw [graph]
  channels := fun _ _ => by rw [graph]
  outputs := fun _ _ _ => by simp only [graph, List.prefix_refl]
  inputs := fun _ _ _ => by simp only [graph, List.suffix_refl]

theorem Isolated.trans {first second third : Interpreter β α μ}
    (left : first.Isolated second) (right : second.Isolated third) : first.Isolated third := by
  have members : second.members = first.members :=
    congrArg InterpreterFrame.members left.frame_eq
  have boundaries : second.boundaries = first.boundaries :=
    congrArg InterpreterFrame.boundaries left.frame_eq
  have graphFrame : second.graph.frame = first.graph.frame :=
    congrArg InterpreterFrame.graph left.frame_eq
  refine ⟨right.frame_eq.trans left.frame_eq, ?_, ?_, ?_, ?_⟩
  · intro id outside
    exact (right.workers id (members ▸ outside)).trans (left.workers id outside)
  · intro channel apart
    refine (right.channels channel ?_).trans (left.channels channel apart)
    rw [touches_iff, members, graphFrame, ← touches_iff]
    exact apart
  · intro boundary member direction
    exact (left.outputs boundary member direction).trans
      (right.outputs boundary (boundaries ▸ member) direction)
  · intro boundary member direction
    exact (right.inputs boundary (boundaries ▸ member) direction).trans
      (left.inputs boundary member direction)

/-- The ports behind the boundaries: their other ends are not in the section. -/
def InterpreterFrame.Bordered (frame : InterpreterFrame) : Prop :=
  ∀ boundary ∈ frame.boundaries, ∃ id ∈ frame.members, ∃ port : Port,
    (∀ peer ∈ frame.members, port.peer ≠ some peer) ∧ port.channel = boundary.channel ∧
      (boundary.direction = .input ∧ port ∈ frame.graph.wiring.inputs id ∨
        boundary.direction = .output ∧ port ∈ frame.graph.wiring.outputs id)

theorem Opens.bordered {graph : Graph β α μ} {workers : List WorkerId}
    {given : List Constraint} {interpreter : Interpreter β α μ}
    (opened : Opens graph workers given interpreter) :
    InterpreterFrame.Bordered interpreter.frame := by
  obtain ⟨made, delegate, maxPasses, created, rfl⟩ := opened
  have accepted := accepted_of_create created
  intro boundary member
  change boundary ∈ made.boundaries at member
  rw [accepted.boundaries] at member
  obtain ⟨id, inside, port, foreign, ⟨portIn, rfl⟩ | ⟨portIn, rfl⟩⟩ := boundariesOf_cases member
  · rw [← accepted.graph_eq] at portIn
    exact ⟨id, inside, port, foreign, rfl, .inl ⟨rfl, portIn⟩⟩
  · rw [← accepted.graph_eq] at portIn
    exact ⟨id, inside, port, foreign, rfl, .inr ⟨rfl, portIn⟩⟩

section

variable [Recipient β μ] [Work β α μ]

private theorem isolated_fire {interpreter : Interpreter β α μ} (sound : interpreter.frame.Sound)
    (bordered : InterpreterFrame.Bordered interpreter.frame)
    (unshared : interpreter.graph.bank.Unshared) {current : WorkerId}
    (inside : current ∈ interpreter.members) :
    interpreter.Isolated
      { interpreter with graph := (interpreter.graph.fire current).2 } := by
  have wired : interpreter.graph.frame.wiring.Sound := sound.graph.wiring
  constructor
  case frame_eq =>
    unfold Interpreter.frame
    rw [Graph.frame_fire]
  case workers =>
    intro id outside
    have different : id ≠ current := by
      rintro rfl
      exact outside inside
    apply Graph.worker?_fire_of_undeclared different
    intro constraint member sender recipient
    have crossing := sound.crossing constraint member
    rw [sender, recipient] at crossing
    exact outside (crossing.mp inside)
  case channels =>
    intro channel away
    rw [touches_iff] at away
    dsimp only
    rw [Graph.channel_fire_of_no_port unshared]
    · intro port member same
      exact away ⟨current, inside, port, List.mem_append_left _ member, same.symm⟩
    · intro port member same
      exact away ⟨current, inside, port, List.mem_append_right _ member, same.symm⟩
  case outputs =>
    intro boundary member direction
    obtain ⟨id, _, port, foreign, same, ⟨wrong, _⟩ | ⟨_, portIn⟩⟩ := bordered boundary member
    · rw [direction] at wrong
      cases wrong
    · apply Graph.items_fire_gain unshared
      intro input inputIn equal
      exact foreign current inside (wired.peers portIn inputIn (same.trans equal)).1
  case inputs =>
    intro boundary member direction
    obtain ⟨id, _, port, foreign, same, ⟨_, portIn⟩ | ⟨wrong, _⟩⟩ := bordered boundary member
    · apply Graph.items_fire_loss unshared
      intro output outputIn equal
      exact foreign current inside (wired.peers outputIn portIn (equal.symm.trans same.symm)).2
    · rw [direction] at wrong
      cases wrong

omit [Recipient β μ] [Work β α μ] in
private theorem Isolated.follow {interpreter : Interpreter β α μ} {graph left : Graph β α μ}
    (isolated : interpreter.Isolated { interpreter with graph := graph })
    (same : left.SameButCounts graph) (current : WorkerId) :
    interpreter.Isolated (countFiring { interpreter with graph := left } current) := by
  constructor
  case frame_eq =>
    refine Eq.trans ?_ isolated.frame_eq
    unfold countFiring Interpreter.frame
    rw [same.2.1]
  case workers =>
    intro id outside
    refine Eq.trans ?_ (isolated.workers id outside)
    change left.workers[id]? = graph.workers[id]?
    rw [same.1]
  case channels =>
    intro channel away
    exact (same.2.2 channel).trans (isolated.channels channel away)
  case outputs =>
    intro boundary member direction
    change _ <+: (left.bank.channel boundary.channel).items
    rw [same.2.2]
    exact isolated.outputs boundary member direction
  case inputs =>
    intro boundary member direction
    change (left.bank.channel boundary.channel).items <:+ _
    rw [same.2.2]
    exact isolated.inputs boundary member direction

/-- A look at a worker of the section is isolated, whatever it comes to. -/
theorem PullView.isolated {interpreter : Interpreter β α μ} {current : WorkerId}
    {waiting : List WorkerId} {step : PullStep β α μ}
    (view : PullView interpreter current waiting step) (sound : interpreter.frame.Sound)
    (bordered : InterpreterFrame.Bordered interpreter.frame)
    (unshared : interpreter.graph.bank.Unshared) (inside : current ∈ interpreter.members) :
    interpreter.Isolated step.left := by
  have moved := isolated_fire sound bordered unshared inside
  cases view with
  | unknown absent => exact .of_graph_eq rfl rfl
  | circular known waits => exact .of_graph_eq rfl rfl
  | unsupported known free refused => exact .of_graph_eq rfl rfl
  | stalled known free starved outside => exact .of_graph_eq rfl rfl
  | feeder known free starved producer => exact .of_graph_eq rfl rfl
  | sender known free fed due => exact .of_graph_eq rfl rfl
  | failed ready free firing =>
      rw [firing] at moved
      exact moved
  | @refused worker error graph left ready free firing follow =>
      have counted := interpreter.delegate.afterFire_sameButCounts
        (interpreter.stats.firings + 1) graph current
      rw [firing] at moved
      rw [follow] at counted
      exact moved.follow counted current
  | @fired worker graph left ready free firing follow =>
      have counted := interpreter.delegate.afterFire_sameButCounts
        (interpreter.stats.firings + 1) graph current
      rw [firing] at moved
      rw [follow] at counted
      exact moved.follow counted current

/-- What holds at every look: the stack lies in the section, and so far nothing has happened
outside of it. -/
structure Within (origin : Interpreter β α μ) (stack : List WorkerId)
    (interpreter : Interpreter β α μ) : Prop where
  isolated : origin.Isolated interpreter
  members : ∀ id ∈ stack, id ∈ origin.members

theorem Within.view {origin interpreter : Interpreter β α μ} {current : WorkerId}
    {waiting : List WorkerId} {step : PullStep β α μ} (sound : origin.frame.Sound)
    (bordered : InterpreterFrame.Bordered origin.frame) (unshared : origin.graph.bank.Unshared)
    (within : Within origin (current :: waiting) interpreter)
    (view : PullView interpreter current waiting step) : origin.Isolated step.left := by
  have frame := within.isolated.frame_eq
  have members : interpreter.members = origin.members :=
    congrArg InterpreterFrame.members frame
  refine within.isolated.trans (view.isolated (frame ▸ sound) (frame ▸ bordered)
    (unshared_of_frame_eq frame unshared) ?_)
  rw [members]
  exact within.members current (List.mem_cons_self ..)

theorem Within.look {origin interpreter left : Interpreter β α μ} {current : WorkerId}
    {waiting stack : List WorkerId} (sound : origin.frame.Sound)
    (bordered : InterpreterFrame.Bordered origin.frame) (unshared : origin.graph.bank.Unshared)
    (within : Within origin (current :: waiting) interpreter)
    (view : PullView interpreter current waiting (.proceed stack left)) :
    Within origin stack left := by
  have frame := within.isolated.frame_eq
  have members : interpreter.members = origin.members :=
    congrArg InterpreterFrame.members frame
  refine ⟨within.view sound bordered unshared view, ?_⟩
  rw [← members]
  apply view.inside (frame ▸ sound)
  rw [members]
  exact within.members

theorem keptByPulls_isolated {origin : Interpreter β α μ} (sound : origin.frame.Sound)
    (bordered : InterpreterFrame.Bordered origin.frame)
    (unshared : origin.graph.bank.Unshared) :
    KeptByPulls origin.sinks (fun now : Interpreter β α μ => origin.Isolated now)
      (fun _ now => origin.Isolated now) := by
  have pulled (fuel : Nat) (sink : WorkerId) (now : Interpreter β α μ)
      (answer : Except Error Bool) (left : Interpreter β α μ) (member : sink ∈ origin.sinks)
      (isolated : origin.Isolated now) (run : pullSteps fuel [sink] now = some (answer, left)) :
      origin.Isolated left := by
    refine pullSteps_induction (Within origin) (fun _ left => origin.Isolated left)
      (fun _ within => within.isolated)
      (fun _ _ _ _ _ within view => within.view sound bordered unshared view)
      (fun _ _ _ _ _ within view => within.look sound bordered unshared view) run
      ⟨isolated, ?_⟩
    rw [List.forall_mem_singleton]
    exact sound.sinks sink member
  exact
    { counted := fun now stats isolated => isolated.trans (.of_graph_eq rfl rfl)
      sinks_eq := fun now isolated => congrArg InterpreterFrame.sinks isolated.frame_eq
      pulled := fun fuel sink now progress left => pulled fuel sink now (.ok progress) left
      failed := fun fuel sink now error left => pulled fuel sink now (.error error) left }

inductive Calls (start : Interpreter β α μ) : Interpreter β α μ → Prop where
  | start : Calls start start
  | call {interpreter left : Interpreter β α μ} {answer : Except Error Bool} (fuel : Nat)
      (before : Calls start interpreter)
      (run : interpreter.interpret fuel = some (answer, left)) : Calls start left

private theorem Calls.isolated {origin left : Interpreter β α μ} (calls : origin.Calls left)
    (sound : origin.frame.Sound) (bordered : InterpreterFrame.Bordered origin.frame)
    (unshared : origin.graph.bank.Unshared) : origin.Isolated left := by
  induction calls with
  | start => exact .of_graph_eq rfl rfl
  | @call interpreter left answer fuel before run inductionHypothesis =>
      have answered :=
        (keptByPulls_isolated sound bordered unshared).interpret inductionHypothesis run
      cases answer with
      | ok progress => exact answered
      | error error => exact answered

/-- However often an interpreter is called, and whatever the calls answer: its section is
isolated, after the calls and at every look of a further one; at such a look the stack lies in
the section, and whoever a message of its top is routed to does so too. -/
theorem section_isolated [Signature β] {graph : Graph β α μ} (descends : graph.Descends)
    (unshared : graph.bank.Unshared) {workers : List WorkerId} {given : List Constraint}
    {start interpreter left : Interpreter β α μ} (opened : Opens graph workers given start)
    (reachable : start.Reachable interpreter) (calls : interpreter.Calls left) :
    interpreter.Isolated left ∧
      ∀ fuel, ∀ look ∈ left.looks fuel,
        interpreter.Isolated look.interpreter ∧
        (∀ id ∈ look.stack, id ∈ interpreter.members) ∧
        ∀ current ∈ look.stack, ∀ (routing after : Graph β α μ) (sent : Nat)
          (outgoing : Outgoing μ) (recipient : WorkerId),
          routing.constraints = look.interpreter.graph.constraints →
          routing.routeTo current sent outgoing recipient = (.ok (), after) →
          recipient ∈ interpreter.members := by
  have frame : interpreter.frame = start.frame := reachable.frame_eq
  have sound : interpreter.frame.Sound := by
    rw [frame]
    exact opened.frame_sound descends.sound
  have bordered : InterpreterFrame.Bordered interpreter.frame := frame ▸ opened.bordered
  have unsharedNow : interpreter.graph.bank.Unshared := by
    apply unshared_of_frame_eq frame
    rw [opened.graph_eq]
    exact unshared
  have isolated := calls.isolated sound bordered unsharedNow
  refine ⟨isolated, ?_⟩
  intro fuel look member
  have within : Within interpreter look.stack look.interpreter := by
    refine (keptByPulls_isolated sound bordered unsharedNow).looks
      (fun look => Within interpreter look.stack look.interpreter) ?_ isolated look member
    intro fuel sink sinkIn now nowIsolated
    refine pullLooks_induction (Within interpreter)
      (fun _ _ _ _ _ within view => within.look sound bordered unsharedNow view)
      ⟨nowIsolated, ?_⟩
    rw [List.forall_mem_singleton]
    exact sound.sinks sink sinkIn
  refine ⟨within.isolated, within.members, ?_⟩
  intro current among routing after sent outgoing recipient same routed
  have view := routing.routeTo_view current sent outgoing recipient
  rw [routed] at view
  cases view with
  | queued declared known inTime =>
      obtain ⟨constraintIn, route⟩ := Graph.constraintFor?_eq_some declared
      have constraints : look.interpreter.graph.constraints = interpreter.graph.constraints :=
        congrArg (fun frame => frame.graph.constraints) within.isolated.frame_eq
      rw [same, constraints] at constraintIn
      have crossing := sound.crossing _ constraintIn
      unfold Constraint.sender Constraint.recipient at crossing
      rw [route] at crossing
      exact crossing.mp (within.members current among)

end

/-! ### The middle one of three workers in a row -/

def relayBuilder : Builder Standard Nat :=
  let builder := (Builder.addWorker {} .filter ⟨"upper", .identity⟩).2
  let builder := (builder.addWorker .filter ⟨"middle", .identity⟩).2
  let builder := (builder.addWorker .filter ⟨"lower", .identity⟩).2
  let builder := (builder.connect 0 1).2
  (builder.connect 1 2).2

def relayGraph : Graph Standard Nat Unit := relayBuilder.graph

def relayInterpreter : Interpreter Standard Nat Unit := onSection relayGraph [1] []

private theorem relayGraph_built : relayGraph.Built :=
  ⟨relayBuilder,
    .connect _ _ (.connect _ _ (.addWorker _ _ (.addWorker _ _ (.addWorker _ _ (.fresh _))))),
    rfl⟩

private theorem relayInterpreter_opens : Opens relayGraph [1] [] relayInterpreter :=
  ⟨relayInterpreter, _, _, rfl, rfl⟩

private theorem relayGraph_unshared : relayGraph.bank.Unshared :=
  Bank.unshared_of_own (by decide)

theorem section_isolated_relay : ∃ fed left,
    relayInterpreter.pushAll? 0 [7, 8] = some fed ∧ fed.interpret 9 = some (.ok true, left) ∧
      fed.Isolated left ∧
      (fed.graph.bank.channel 1).items = [] ∧ (left.graph.bank.channel 1).items = [7, 8] := by
  obtain ⟨fed, left, push, run, before, after⟩ : ∃ fed left,
      relayInterpreter.pushAll? 0 [7, 8] = some fed ∧ fed.interpret 9 = some (.ok true, left) ∧
        (fed.graph.bank.channel 1).items = [] ∧ (left.graph.bank.channel 1).items = [7, 8] :=
    ⟨_, _, rfl, rfl, rfl, rfl⟩
  refine ⟨fed, left, push, run, ?_, before, after⟩
  exact (section_isolated relayGraph_built.descends relayGraph_unshared relayInterpreter_opens
    (.traffic .start (.push 0 [7, 8] push)) (.call 9 .start run)).1

end DemandFlow.Interpreter
