import DemandFlow.Interpreter.Pull
import DemandFlow.Proofs.Graph.Indifference
import DemandFlow.Proofs.Interpreter.Section

/-!
Runs of an interpreter. One look at the top of a pull's stack has nine possible results,
listed by `PullView`; pulls, passes and whole calls are sequences of such looks, and the
induction principles here turn facts about one look into facts about calls and histories.
-/

set_option autoImplicit false

namespace DemandFlow

variable {β α μ : Type}

theorem Worker.starvedFrom_sameItems (worker : Worker β μ) {left right : Bank α}
    (same : left.SameItems right) (input : Nat) (ports : List (Port × Rate × Rate)) :
    worker.starvedFrom left input ports = worker.starvedFrom right input ports := by
  induction ports generalizing input with
  | nil => rfl
  | cons entry rest inductionHypothesis =>
      rcases entry with ⟨port, peek, pop⟩
      have sizes : (left.channel port.channel).size = (right.channel port.channel).size :=
        congrArg List.length (same.items port.channel)
      unfold starvedFrom
      rw [sizes, inductionHypothesis]

def PullStep.left : PullStep β α μ → Interpreter β α μ
  | .stop _ left => left
  | .proceed _ left => left

namespace Interpreter

/-- The worker has what it needs on every input, and no message to it is outstanding. -/
structure Ready (interpreter : Interpreter β α μ) (current : WorkerId)
    (worker : Worker β μ) : Prop where
  known : interpreter.graph.worker? current = some worker
  fed : worker.starvedInput interpreter.graph.bank = .ok none
  punctual : interpreter.dueSender? current worker.upcoming = none

inductive PullView [Recipient β μ] [Work β α μ] (interpreter : Interpreter β α μ)
    (current : WorkerId) (waiting : List WorkerId) : PullStep β α μ → Prop where
  | unknown (absent : interpreter.graph.worker? current = none) :
      PullView interpreter current waiting
        (.stop (.error (.invalidGraph (.unknownWorker current))) interpreter)
  | circular {worker : Worker β μ} (known : interpreter.graph.worker? current = some worker)
      (waits : current ∈ waiting) :
      PullView interpreter current waiting
        (.stop (.error (.unsatisfiableConstraints worker.label)) interpreter)
  | unsupported {worker : Worker β μ} {error : Error}
      (known : interpreter.graph.worker? current = some worker) (free : current ∉ waiting)
      (refused : worker.starvedInput interpreter.graph.bank = .error error) :
      PullView interpreter current waiting (.stop (.error error) interpreter)
  | stalled {worker : Worker β μ} {input : Nat}
      (known : interpreter.graph.worker? current = some worker) (free : current ∉ waiting)
      (starved : worker.starvedInput interpreter.graph.bank = .ok (some input))
      (outside : interpreter.producer? worker input = none) :
      PullView interpreter current waiting (.stop (.ok false) interpreter.countStall)
  | feeder {worker : Worker β μ} {input : Nat} {producer : WorkerId}
      (known : interpreter.graph.worker? current = some worker) (free : current ∉ waiting)
      (starved : worker.starvedInput interpreter.graph.bank = .ok (some input))
      (inside : interpreter.producer? worker input = some producer) :
      PullView interpreter current waiting
        (.proceed (producer :: current :: waiting) interpreter)
  | sender {worker : Worker β μ} {sender : WorkerId}
      (known : interpreter.graph.worker? current = some worker) (free : current ∉ waiting)
      (fed : worker.starvedInput interpreter.graph.bank = .ok none)
      (due : interpreter.dueSender? current worker.upcoming = some sender) :
      PullView interpreter current waiting (.proceed (sender :: current :: waiting) interpreter)
  | failed {worker : Worker β μ} {error : Error} {graph : Graph β α μ}
      (ready : interpreter.Ready current worker) (free : current ∉ waiting)
      (firing : interpreter.graph.fire current = (.error error, graph)) :
      PullView interpreter current waiting
        (.stop (.error error) { interpreter with graph := graph })
  | refused {worker : Worker β μ} {error : Error} {graph left : Graph β α μ}
      (ready : interpreter.Ready current worker) (free : current ∉ waiting)
      (firing : interpreter.graph.fire current = (.ok (), graph))
      (follow : interpreter.delegate.afterFire (interpreter.stats.firings + 1) graph current =
        (.error error, left)) :
      PullView interpreter current waiting
        (.stop (.error error) (countFiring { interpreter with graph := left } current))
  | fired {worker : Worker β μ} {graph left : Graph β α μ}
      (ready : interpreter.Ready current worker) (free : current ∉ waiting)
      (firing : interpreter.graph.fire current = (.ok (), graph))
      (follow : interpreter.delegate.afterFire (interpreter.stats.firings + 1) graph current =
        (.ok (), left)) :
      PullView interpreter current waiting
        (.proceed waiting (countFiring { interpreter with graph := left } current))

theorem pullStep_view [Recipient β μ] [Work β α μ] (interpreter : Interpreter β α μ)
    (current : WorkerId) (waiting : List WorkerId) :
    PullView interpreter current waiting (interpreter.pullStep current waiting) := by
  unfold pullStep
  split
  next absent => exact .unknown absent
  next worker known =>
    split
    next waits => exact .circular known (List.contains_iff_mem.mp waits)
    next notWaiting =>
      have free : current ∉ waiting := fun member =>
        notWaiting (List.contains_iff_mem.mpr member)
      split
      next error refused => exact .unsupported known free refused
      next input starved =>
        split
        next producer inside => exact .feeder known free starved inside
        next outside => exact .stalled known free starved outside
      next fed =>
        split
        next sender due => exact .sender known free fed due
        next punctual =>
          have ready : interpreter.Ready current worker := ⟨known, fed, punctual⟩
          unfold fireTop
          split
          next error graph firing => exact .failed ready free firing
          next graph firing =>
            dsimp only
            split
            next error left follow => exact .refused ready free firing follow
            next left follow => exact .fired ready free firing follow

theorem producer?_inside {interpreter : Interpreter β α μ} {worker : Worker β μ} {input : Nat}
    {producer : WorkerId} (found : interpreter.producer? worker input = some producer) :
    producer ∈ interpreter.members := by
  unfold producer? at found
  rw [Option.filter_eq_some_iff] at found
  exact List.contains_iff_mem.mp found.2

/-- A due sender is the sender of a constraint whose next message would come too late. -/
theorem dueSender?_eq_some {interpreter : Interpreter β α μ} {recipient sender : WorkerId}
    {firing : Nat} (found : interpreter.dueSender? recipient firing = some sender) :
    ∃ constraint ∈ interpreter.constraints, constraint.recipient = recipient ∧
      constraint.sender = sender ∧ interpreter.isDue firing constraint = true := by
  unfold dueSender? at found
  obtain ⟨constraint, first, same⟩ := Option.map_eq_some_iff.mp found
  have holds := List.find?_some first
  simp only [Bool.and_eq_true, beq_iff_eq] at holds
  exact ⟨constraint, List.mem_of_find?_eq_some first, holds.1, same, holds.2⟩

theorem dueSender?_eq_none {interpreter : Interpreter β α μ} {recipient : WorkerId}
    {firing : Nat} (found : interpreter.dueSender? recipient firing = none) :
    ∀ constraint ∈ interpreter.constraints, constraint.recipient = recipient →
      interpreter.isDue firing constraint = false := by
  intro constraint member same
  unfold dueSender? at found
  rw [Option.map_eq_none_iff, List.find?_eq_none] at found
  simpa only [same, BEq.rfl, Bool.true_and, Bool.not_eq_true] using found constraint member

theorem isDue_eq_true {interpreter : Interpreter β α μ} {firing : Nat}
    {constraint : Constraint} :
    interpreter.isDue firing constraint = true ↔
      ∃ sent, interpreter.graph.executions? constraint.sender = some sent ∧
        constraint.deliveryTime sent ≤ firing := by
  unfold isDue
  split
  next absent => simp only [Bool.false_eq_true, absent, reduceCtorEq, false_and, exists_const]
  next sent known => simp only [decide_eq_true_eq, known, Option.some.injEq, exists_eq_left']

/-- A look changes nothing in the frame. -/
theorem PullView.frame_left [Recipient β μ] [Work β α μ] {interpreter : Interpreter β α μ}
    {current : WorkerId} {waiting : List WorkerId} {step : PullStep β α μ}
    (view : PullView interpreter current waiting step) :
    step.left.frame = interpreter.frame := by
  have framed (graph : Graph β α μ) (same : graph.frame = interpreter.graph.frame) :
      { interpreter with graph := graph }.frame = interpreter.frame := by
    unfold Interpreter.frame
    rw [same]
  have same := interpreter.graph.frame_fire current
  cases view with
  | unknown absent => rfl
  | circular known waits => rfl
  | unsupported known free refused => rfl
  | stalled known free starved outside => rfl
  | feeder known free starved producer => rfl
  | sender known free fed due => rfl
  | @failed worker error graph ready free firing =>
      rw [firing] at same
      exact framed graph same
  | @refused worker error graph left ready free firing follow =>
      rw [firing] at same
      have counted := interpreter.delegate.afterFire_sameButCounts
        (interpreter.stats.firings + 1) graph current
      rw [follow] at counted
      exact framed left (counted.2.1.trans same)
  | @fired worker graph left ready free firing follow =>
      rw [firing] at same
      have counted := interpreter.delegate.afterFire_sameButCounts
        (interpreter.stats.firings + 1) graph current
      rw [follow] at counted
      exact framed left (counted.2.1.trans same)

theorem PullView.inside [Recipient β μ] [Work β α μ] {interpreter left : Interpreter β α μ}
    {current : WorkerId} {waiting stack : List WorkerId}
    (view : PullView interpreter current waiting (.proceed stack left))
    (sound : interpreter.frame.Sound)
    (members : ∀ id ∈ current :: waiting, id ∈ interpreter.members) :
    ∀ id ∈ stack, id ∈ interpreter.members := by
  have deeper (id : WorkerId) (here : id ∈ interpreter.members) :
      ∀ other ∈ id :: current :: waiting, other ∈ interpreter.members := by
    intro other found
    rcases List.mem_cons.mp found with rfl | found
    · exact here
    · exact members other found
  cases view with
  | feeder known free starved producer => exact deeper _ (producer?_inside producer)
  | sender known free fed due =>
      obtain ⟨constraint, scheduled, _, rfl, _⟩ := dueSender?_eq_some due
      exact deeper _ (sound.inside constraint scheduled).1
  | fired ready free firing follow =>
      intro id found
      exact members id (List.mem_cons_of_mem _ found)

/-! ### Induction over pulls, passes and calls -/

section

variable [Recipient β μ] [Work β α μ]

def lastStack : Nat → List WorkerId → Interpreter β α μ → List WorkerId
  | 0, stack, _ => stack
  | _ + 1, [], _ => []
  | fuel + 1, current :: waiting, interpreter =>
      match interpreter.pullStep current waiting with
      | .stop _ _ => current :: waiting
      | .proceed stack left => lastStack fuel stack left

def pullStack (fuel : Nat) (interpreter : Interpreter β α μ) (worker : WorkerId) :
    List WorkerId :=
  lastStack fuel [worker]
    { interpreter with
      stats := { interpreter.stats with pulls := interpreter.stats.pulls + 1 } }

/-- What looks keep of a stack and an interpreter holds when the pull is over: with all of
the stack fired, or with a last look at the top of what is left. -/
theorem pullSteps_last (holds : List WorkerId → Interpreter β α μ → Prop)
    (proceed : ∀ interpreter current waiting stack left, holds (current :: waiting) interpreter →
      PullView interpreter current waiting (.proceed stack left) → holds stack left)
    {fuel : Nat} {stack : List WorkerId} {interpreter left : Interpreter β α μ}
    {answer : Except Error Bool}
    (run : pullSteps fuel stack interpreter = some (answer, left))
    (start : holds stack interpreter) :
    answer = .ok true ∧ holds [] left ∨
      ∃ current waiting before, lastStack fuel stack interpreter = current :: waiting ∧
        holds (current :: waiting) before ∧
        PullView before current waiting (.stop answer left) := by
  induction fuel generalizing stack interpreter with
  | zero => cases run
  | succ fuel inductionHypothesis =>
      cases stack with
      | nil =>
          cases run
          exact .inl ⟨rfl, start⟩
      | cons current waiting =>
          have view := interpreter.pullStep_view current waiting
          unfold pullSteps at run
          split at run
          next stopped outcome =>
            cases run
            rw [outcome] at view
            have last : lastStack (fuel + 1) (current :: waiting) interpreter =
                current :: waiting := by
              rw [lastStack, outcome]
            exact .inr ⟨current, waiting, interpreter, last, start, view⟩
          next following after outcome =>
            rw [outcome] at view
            have last : lastStack (fuel + 1) (current :: waiting) interpreter =
                lastStack fuel following after := by
              rw [lastStack, outcome]
            rw [last]
            exact inductionHypothesis run (proceed _ _ _ _ _ start view)

theorem pullSteps_induction (holds : List WorkerId → Interpreter β α μ → Prop)
    (ends : Except Error Bool → Interpreter β α μ → Prop)
    (empty : ∀ interpreter, holds [] interpreter → ends (.ok true) interpreter)
    (stop : ∀ interpreter current waiting answer left, holds (current :: waiting) interpreter →
      PullView interpreter current waiting (.stop answer left) → ends answer left)
    (proceed : ∀ interpreter current waiting stack left, holds (current :: waiting) interpreter →
      PullView interpreter current waiting (.proceed stack left) → holds stack left)
    {fuel : Nat} {stack : List WorkerId} {interpreter left : Interpreter β α μ}
    {answer : Except Error Bool}
    (run : pullSteps fuel stack interpreter = some (answer, left))
    (start : holds stack interpreter) : ends answer left := by
  rcases pullSteps_last holds proceed run start with
    ⟨rfl, fired⟩ | ⟨current, waiting, before, _, kept, view⟩
  · exact empty left fired
  · exact stop before current waiting answer left kept view

def goOn (pullFuel fuel : Nat) (remaining : Option Nat)
    (everFired : Bool) : Option (Outcome Bool (Interpreter β α μ)) →
    Option (Outcome Bool (Interpreter β α μ))
  | none => none
  | some (.error error, interpreter) => some (.error error, interpreter)
  | some (.ok false, interpreter) => some (.ok everFired, interpreter)
  | some (.ok true, interpreter) =>
      passes pullFuel fuel (remaining.map (· - 1)) true interpreter

theorem passes_eq_goOn {remaining : Option Nat} (room : remaining ≠ some 0) (pullFuel fuel : Nat)
    (everFired : Bool) (interpreter : Interpreter β α μ) :
    passes pullFuel (fuel + 1) remaining everFired interpreter =
      goOn pullFuel fuel remaining everFired (pass pullFuel false interpreter.sinks
        { interpreter with
          stats := { interpreter.stats with passes := interpreter.stats.passes + 1 } }) := by
  cases remaining with
  | none => rfl
  | some count =>
      cases count with
      | zero => exact absurd rfl room
      | succ count => rfl

/-- A sequence of passes is over at the limit, at a failure or at a pass without progress,
and goes on after a pass with progress. -/
theorem passes_view {pullFuel fuel : Nat} {remaining : Option Nat} {everFired : Bool}
    {interpreter left : Interpreter β α μ} {answer : Except Error Bool}
    (run : passes pullFuel (fuel + 1) remaining everFired interpreter = some (answer, left)) :
    let counted := { interpreter with
      stats := { interpreter.stats with passes := interpreter.stats.passes + 1 } }
    (remaining = some 0 ∧ answer = .ok everFired ∧ left = interpreter) ∨
      (∃ error, pass pullFuel false interpreter.sinks counted = some (.error error, left) ∧
        answer = .error error) ∨
      (pass pullFuel false interpreter.sinks counted = some (.ok false, left) ∧
        answer = .ok everFired) ∨
      ∃ after, pass pullFuel false interpreter.sinks counted = some (.ok true, after) ∧
        passes pullFuel fuel (remaining.map (· - 1)) true after = some (answer, left) := by
  intro counted
  by_cases limit : remaining = some 0
  · subst limit
    cases run
    exact .inl ⟨rfl, rfl, rfl⟩
  · rw [passes_eq_goOn limit] at run
    unfold goOn at run
    split at run
    next => cases run
    next error after passed =>
      cases run
      exact .inr (.inl ⟨error, passed, rfl⟩)
    next after passed =>
      cases run
      exact .inr (.inr (.inl ⟨passed, rfl⟩))
    next after passed => exact .inr (.inr (.inr ⟨after, passed, run⟩))

/-- A property of interpreters that pulls keep, and what their failures satisfy. -/
structure KeptByPulls (sinks : List WorkerId) (holds : Interpreter β α μ → Prop)
    (fails : Error → Interpreter β α μ → Prop) : Prop where
  /-- Statistics do not matter. -/
  counted : ∀ interpreter stats, holds interpreter → holds { interpreter with stats := stats }
  sinks_eq : ∀ interpreter, holds interpreter → interpreter.sinks = sinks
  pulled : ∀ fuel sink interpreter progress left, sink ∈ sinks → holds interpreter →
    pullSteps fuel [sink] interpreter = some (.ok progress, left) → holds left
  failed : ∀ fuel sink interpreter error left, sink ∈ sinks → holds interpreter →
    pullSteps fuel [sink] interpreter = some (.error error, left) → fails error left

namespace KeptByPulls

variable {sinks : List WorkerId} {holds : Interpreter β α μ → Prop}
  {fails : Error → Interpreter β α μ → Prop}

def Answered (holds : Interpreter β α μ → Prop) (fails : Error → Interpreter β α μ → Prop)
    (answer : Except Error Bool) (left : Interpreter β α μ) : Prop :=
  match answer with
  | .ok _ => holds left
  | .error error => fails error left

theorem pass (kept : KeptByPulls sinks holds fails) {fuel : Nat} {fired : Bool}
    {pending : List WorkerId} (subset : ∀ sink ∈ pending, sink ∈ sinks)
    {interpreter left : Interpreter β α μ} {answer : Except Error Bool}
    (start : holds interpreter)
    (run : Interpreter.pass fuel fired pending interpreter = some (answer, left)) :
    Answered holds fails answer left := by
  induction pending generalizing fired interpreter with
  | nil =>
      cases run
      exact start
  | cons sink rest inductionHypothesis =>
      have here := subset sink (List.mem_cons_self ..)
      have counted := kept.counted interpreter
        { interpreter.stats with pulls := interpreter.stats.pulls + 1 } start
      unfold Interpreter.pass pull at run
      split at run
      next => cases run
      next error after pulled =>
        cases run
        exact kept.failed fuel sink _ error _ here counted pulled
      next progress after pulled =>
        exact inductionHypothesis
          (fun other member => subset other (List.mem_cons_of_mem _ member))
          (kept.pulled fuel sink _ progress after here counted pulled) run

private theorem passes (kept : KeptByPulls sinks holds fails) {pullFuel fuel : Nat}
    {remaining : Option Nat} {everFired : Bool} {interpreter left : Interpreter β α μ}
    {answer : Except Error Bool} (start : holds interpreter)
    (run : Interpreter.passes pullFuel fuel remaining everFired interpreter =
      some (answer, left)) : Answered holds fails answer left := by
  induction fuel generalizing remaining everFired interpreter with
  | zero => cases run
  | succ fuel inductionHypothesis =>
      have counted := kept.counted interpreter
        { interpreter.stats with passes := interpreter.stats.passes + 1 } start
      have subset : ∀ sink ∈ interpreter.sinks, sink ∈ sinks := by
        rw [kept.sinks_eq interpreter start]
        exact fun sink member => member
      rcases passes_view run with
        ⟨_, rfl, rfl⟩ | ⟨error, passed, rfl⟩ | ⟨passed, rfl⟩ | ⟨after, passed, rest⟩
      · exact start
      · exact kept.pass subset counted passed
      · have rested : holds left := kept.pass subset counted passed
        exact rested
      · have progressed : holds after := kept.pass subset counted passed
        exact inductionHypothesis progressed rest

theorem interpret (kept : KeptByPulls sinks holds fails) {fuel : Nat}
    {interpreter left : Interpreter β α μ} {answer : Except Error Bool}
    (start : holds interpreter)
    (run : interpreter.interpret fuel = some (answer, left)) :
    Answered holds fails answer left :=
  kept.passes (kept.counted interpreter _ start) run

end KeptByPulls

end

/-- One operation on a boundary channel from outside. Others may also have used the shared
buffers. -/
inductive Traffic : Interpreter β α μ → Interpreter β α μ → Prop where
  | push {interpreter left : Interpreter β α μ} (token : BoundaryToken) (elements : List α)
      (done : interpreter.pushAll? token elements = some left) : Traffic interpreter left
  | pop {interpreter left : Interpreter β α μ} {answer : Except Error α}
      (token : BoundaryToken) (done : interpreter.pop? token = some (answer, left)) :
      Traffic interpreter left
  | popAll {interpreter left : Interpreter β α μ} {elements : List α}
      (token : BoundaryToken) (done : interpreter.popAll? token = some (elements, left)) :
      Traffic interpreter left
  | peek {interpreter left : Interpreter β α μ} {answer : Except Error α}
      (token : BoundaryToken) (index : Nat)
      (done : interpreter.peek? token index = some (answer, left)) : Traffic interpreter left
  | pooled {interpreter : Interpreter β α μ} (pool : Pool α) :
      Traffic interpreter (interpreter.withPool pool)

theorem Traffic.withBank {interpreter left : Interpreter β α μ}
    (traffic : interpreter.Traffic left) :
    ∃ bank, left = interpreter.withBank bank ∧ bank.keys = interpreter.graph.bank.keys := by
  cases traffic with
  | push token elements done =>
      obtain ⟨channel, _, rfl⟩ := Option.map_eq_some_iff.mp done
      exact ⟨_, rfl, Bank.keys_set _ _ _⟩
  | pop token done =>
      obtain ⟨channel, _, equal⟩ := Option.map_eq_some_iff.mp done
      cases equal
      exact ⟨_, rfl, Bank.keys_set _ _ _⟩
  | popAll token done =>
      obtain ⟨channel, _, equal⟩ := Option.map_eq_some_iff.mp done
      cases equal
      exact ⟨_, rfl, Bank.keys_set _ _ _⟩
  | peek token index done =>
      obtain ⟨channel, _, equal⟩ := Option.map_eq_some_iff.mp done
      cases equal
      exact ⟨_, rfl, Bank.keys_set _ _ _⟩
  | pooled pool => exact ⟨_, rfl, rfl⟩

theorem frame_withBank {interpreter : Interpreter β α μ} {bank : Bank α}
    (same : bank.keys = interpreter.graph.bank.keys) :
    (interpreter.withBank bank).frame = interpreter.frame := by
  unfold frame withBank
  simp only [Graph.frame_withBank interpreter.graph same]

theorem Traffic.frame_eq {interpreter left : Interpreter β α μ}
    (traffic : interpreter.Traffic left) : left.frame = interpreter.frame := by
  obtain ⟨bank, rfl, keys⟩ := traffic.withBank
  exact frame_withBank keys

/-- The interpreters that a history of traffic and calls leads to, whatever the calls have
answered. -/
inductive Reachable [Recipient β μ] [Work β α μ] (start : Interpreter β α μ) :
    Interpreter β α μ → Prop where
  | start : Reachable start start
  | traffic {interpreter left : Interpreter β α μ} (before : Reachable start interpreter)
      (traffic : interpreter.Traffic left) : Reachable start left
  | call {interpreter left : Interpreter β α μ} {answer : Except Error Bool} (fuel : Nat)
      (before : Reachable start interpreter)
      (run : interpreter.interpret fuel = some (answer, left)) : Reachable start left

section

variable [Recipient β μ] [Work β α μ]

theorem pullSteps_frame {fuel : Nat} {stack : List WorkerId}
    {interpreter left : Interpreter β α μ} {answer : Except Error Bool}
    (run : pullSteps fuel stack interpreter = some (answer, left)) :
    left.frame = interpreter.frame := by
  refine pullSteps_induction (fun _ now => now.frame = interpreter.frame)
    (fun _ now => now.frame = interpreter.frame) (fun _ same => same) ?_ ?_ run rfl
  · intro now current waiting answer left same view
    exact view.frame_left.trans same
  · intro now current waiting stack left same view
    exact view.frame_left.trans same

theorem interpret_frame {fuel : Nat} {interpreter left : Interpreter β α μ}
    {answer : Except Error Bool} (run : interpreter.interpret fuel = some (answer, left)) :
    left.frame = interpreter.frame := by
  have kept : KeptByPulls interpreter.sinks
      (fun now : Interpreter β α μ => now.frame = interpreter.frame)
      (fun _ now => now.frame = interpreter.frame) :=
    { counted := fun now stats same => same
      sinks_eq := fun now same => congrArg InterpreterFrame.sinks same
      pulled := fun fuel sink now progress left member same run =>
        (pullSteps_frame run).trans same
      failed := fun fuel sink now error left member same run =>
        (pullSteps_frame run).trans same }
  have answered := kept.interpret rfl run
  cases answer with
  | ok progress => exact answered
  | error error => exact answered

theorem Reachable.frame_eq {start interpreter : Interpreter β α μ}
    (reachable : start.Reachable interpreter) : interpreter.frame = start.frame := by
  induction reachable with
  | start => rfl
  | traffic before traffic inductionHypothesis =>
      exact traffic.frame_eq.trans inductionHypothesis
  | call fuel before run inductionHypothesis =>
      exact (interpret_frame run).trans inductionHypothesis

/-- The interpreters that a history leads to in which the settings may change between calls. -/
inductive Operated (start : Interpreter β α μ) : Interpreter β α μ → Prop where
  | start : Operated start start
  | traffic {interpreter left : Interpreter β α μ} (before : Operated start interpreter)
      (traffic : interpreter.Traffic left) : Operated start left
  | call {interpreter left : Interpreter β α μ} {answer : Except Error Bool} (fuel : Nat)
      (before : Operated start interpreter)
      (run : interpreter.interpret fuel = some (answer, left)) : Operated start left
  | configure {interpreter : Interpreter β α μ} (delegate : Delegate) (limit : Option Nat)
      (before : Operated start interpreter) :
      Operated start { interpreter with delegate := delegate, maxPasses := limit }

/-- What depends on the frame only, and there not on the settings, lasts. -/
theorem Operated.keeps {start interpreter : Interpreter β α μ}
    (operated : start.Operated interpreter) (holds : Interpreter β α μ → Prop)
    (framed : ∀ {before after : Interpreter β α μ}, after.frame = before.frame →
      holds before → holds after)
    (configured : ∀ {before : Interpreter β α μ} (delegate : Delegate) (limit : Option Nat),
      holds before → holds { before with delegate := delegate, maxPasses := limit })
    (first : holds start) : holds interpreter := by
  induction operated with
  | start => exact first
  | traffic before traffic inductionHypothesis =>
      exact framed traffic.frame_eq inductionHypothesis
  | call fuel before run inductionHypothesis =>
      exact framed (interpret_frame run) inductionHypothesis
  | configure delegate limit before inductionHypothesis =>
      exact configured delegate limit inductionHypothesis

end

end Interpreter

end DemandFlow
