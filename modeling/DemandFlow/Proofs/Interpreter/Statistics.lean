import Mathlib.Algebra.BigOperators.Group.Finset.Basic
import Mathlib.Algebra.Order.BigOperators.Group.List
import DemandFlow.Proofs.Interpreter.Exactness
import DemandFlow.Proofs.Interpreter.Shape
import DemandFlow.Proofs.Messages.Concord

/-!
What the statistics account for. Over a history of calls and traffic the counts of executions
add up to the firings counted, but for calls that fail while the messages of a completed firing
are routed: there the execution is counted and the firing is not. The pulls of calls that
succeed are as many as passes and sinks make them, and the successful ones among them are
firings of sinks, all of them if no messages are scheduled.
-/

set_option autoImplicit false

namespace DemandFlow

variable {β α μ : Type}

namespace Graph

def executed (graph : Graph β α μ) (ids : List WorkerId) : Nat :=
  (ids.map (fun id => (graph.executions? id).getD 0)).sum

private theorem executed_congr {before after : Graph β α μ} (ids : List WorkerId)
    (same : ∀ id, after.executions? id = before.executions? id) :
    after.executed ids = before.executed ids := by
  unfold executed
  rw [funext same]

theorem executed_of_counts {before after : Graph β α μ} {ids fired : List WorkerId}
    (known : ∀ id ∈ ids, ∃ count, before.executions? id = some count)
    (counts : ∀ id, after.executions? id = (before.executions? id).map (· + fired.count id)) :
    after.executed ids = before.executed ids + (ids.map fired.count).sum := by
  unfold executed
  rw [← List.sum_map_add]
  congr 1
  apply List.map_congr_left
  intro id member
  obtain ⟨count, found⟩ := known id member
  rw [counts, found]
  rfl

theorem sum_counts {ids fired : List WorkerId} (once : ids.Nodup)
    (inside : ∀ id ∈ fired, id ∈ ids) : (ids.map fired.count).sum = fired.length := by
  rw [← List.sum_toFinset _ once]
  have whole : ∑ id ∈ ids.toFinset, (fired : Multiset WorkerId).count id = _ :=
    Multiset.sum_count_eq_card (fun id member => List.mem_toFinset.mpr (inside id member))
  simpa only [Multiset.coe_count, Multiset.coe_card] using whole

variable [Recipient β μ] [Work β α μ]

/-- The body of the worker would work, and then some message of it could not be routed. -/
def Misroutes (graph : Graph β α μ) (id : WorkerId) (error : Error) : Prop :=
  ∃ worker ready body scene left, graph.worker? id = some worker ∧
    worker.deliverDue = (.ok (), ready) ∧ graph.runBody id ready = ((.ok (), body), scene) ∧
    (graph.worked id ready body scene.bank).routeOutbox id ready.executions scene.outbox =
      (.error error, left)

/-- A completed firing is counted for its worker also if its messages cannot be routed. -/
theorem Misroutes.fire {graph : Graph β α μ} {id : WorkerId} {error : Error}
    (misroutes : graph.Misroutes id error) :
    ∃ left, graph.fire id = (.error error, left) ∧
      ∀ other, left.executions? other = (graph.executions? other).map (· + [id].count other) := by
  obtain ⟨worker, ready, body, scene, left, known, delivery, run, routing⟩ := misroutes
  have fired : graph.fire id = (.error error, left) := by
    unfold Graph.fire
    rw [known]
    dsimp only
    rw [delivery]
    dsimp only
    unfold Graph.work
    rw [run]
    exact routing
  refine ⟨left, fired, ?_⟩
  intro other
  by_cases same : other = id
  · subst same
    have routed := (routeOutbox_others (graph.worked other ready body scene.bank) other
      ready.executions scene.outbox).2 other
    rw [routing] at routed
    have counted : (graph.worked other ready body scene.bank).executions? other =
        some (ready.executions + 1) := executions?_setWorker_self known _
    rw [routed, counted, Worker.executions_deliverDue delivery, executions?_of_known known]
    simp
  · have kept := graph.executions?_fire_of_ne same
    rw [fired] at kept
    rw [kept, List.count_singleton, if_neg (by simpa only [beq_iff_eq, ne_eq] using Ne.symm same)]
    simp only [add_zero, Option.map_id_fun', id_eq]

private theorem executions?_fire_failed {graph left : Graph β α μ} {id : WorkerId} {error : Error}
    (firing : graph.fire id = (.error error, left)) (routed : ¬ graph.Misroutes id error)
    (other : WorkerId) : left.executions? other = graph.executions? other := by
  have view := graph.fire_view id
  rw [firing] at view
  cases view with
  | unknown absent => rfl
  | undelivered known delivery =>
      exact executions?_setWorker known _ (Worker.executions_deliverDue delivery) other
  | @failed worker ready error body scene known delivery run =>
      have same := Worker.executions_deliverDue delivery
      exact executions?_setWorker known { ready with body := body } same other
  | worked known delivery run routing =>
      exact absurd ⟨_, _, _, _, _, known, delivery, run, routing⟩ routed

end Graph

namespace Interpreter

variable [Recipient β μ] [Work β α μ]

/-! ### Executions and firings -/

/-- The look completes a firing whose messages cannot all be routed. -/
def Look.Misroutes (look : Look β α μ) : Prop :=
  ∃ current waiting worker error, look.stack = current :: waiting ∧ current ∉ waiting ∧
    look.interpreter.Ready current worker ∧ look.interpreter.graph.Misroutes current error

/-- Such a look fails: the execution is counted, the firing is not. -/
theorem Look.Misroutes.fails {look : Look β α μ} (misroutes : look.Misroutes) :
    ∃ error left, look.Fails error left := by
  obtain ⟨current, waiting, worker, error, stack, free, ready, stray⟩ := misroutes
  obtain ⟨left, firing, _⟩ := stray.fire
  refine ⟨error, { look.interpreter with graph := left }, current, waiting, stack, ?_⟩
  rw [ready.pullStep_eq free]
  unfold fireTop
  rw [firing]

omit [Recipient β μ] [Work β α μ] in
theorem counted_of_sound {base now : Interpreter β α μ} (sound : base.frame.Sound)
    (same : now.frame = base.frame) :
    ∀ id ∈ base.members, ∃ count, now.graph.executions? id = some count := by
  intro id member
  obtain ⟨worker, known⟩ := Graph.worker_of_lt (congrArg InterpreterFrame.graph same)
    (sound.known id member)
  exact ⟨_, Graph.executions?_of_known known⟩

/-- As many executions of members have been counted since the first state as the journal has
grown by. -/
structure Balanced (base now : Interpreter β α μ) : Prop where
  frame_eq : now.frame = base.frame
  balance : now.graph.executed base.members + base.journal.length =
    base.graph.executed base.members + now.journal.length

omit [Recipient β μ] [Work β α μ] in
private theorem Balanced.since {base now after : Interpreter β α μ} (balanced : base.Balanced now)
    (sound : base.frame.Sound) (once : base.members.Nodup) (same : after.frame = now.frame)
    {fired : List WorkerId} (since : now.Since after fired)
    (inside : ∀ id ∈ fired, id ∈ base.members) : base.Balanced after where
  frame_eq := same.trans balanced.frame_eq
  balance := by
    have before := balanced.balance
    have more := Graph.executed_of_counts (counted_of_sound sound balanced.frame_eq) since.counts
    rw [Graph.sum_counts once inside] at more
    rw [more, since.journal, List.length_append]
    omega

/-- A look keeps the balance unless it fails in the routing of messages. -/
theorem Balanced.look {base now : Interpreter β α μ} (balanced : base.Balanced now)
    (sound : base.frame.Sound) (once : base.members.Nodup) {current : WorkerId}
    {waiting : List WorkerId} (inside : current ∈ base.members) {step : PullStep β α μ}
    (view : PullView now current waiting step)
    (routed : ∀ error left, step = .stop (.error error) left →
      ¬ (Look.mk (current :: waiting) now).Misroutes) : base.Balanced step.left := by
  have alone : ∀ id ∈ [current], id ∈ base.members := by
    rw [List.forall_mem_singleton]
    exact inside
  have frame := view.frame_left
  cases view with
  | unknown absent => exact balanced
  | circular known waits => exact balanced
  | unsupported known free refused => exact balanced
  | stalled known free starved outside => exact ⟨balanced.frame_eq, balanced.balance⟩
  | feeder known free starved inside => exact balanced
  | sender known free fed due => exact balanced
  | @failed worker error graph ready free firing =>
      have still := Graph.executions?_fire_failed firing (fun stray => routed error _ rfl
        ⟨current, waiting, worker, error, rfl, free, ready, stray⟩)
      have same : graph.executed base.members = now.graph.executed base.members :=
        Graph.executed_congr _ still
      refine ⟨frame.trans balanced.frame_eq, ?_⟩
      exact (congrArg (· + base.journal.length) same).trans balanced.balance
  | refused ready free firing follow =>
      exact balanced.since sound once frame (since_firing ready.known firing follow) alone
  | fired ready free firing follow =>
      exact balanced.since sound once frame (since_firing ready.known firing follow) alone

private theorem Look.Misroutes.ahead {base left : Interpreter β α μ} (sound : base.frame.Sound)
    (once : base.members.Nodup) {look : Look β α μ} (misroutes : look.Misroutes)
    (balanced : base.Balanced look.interpreter) (inside : ∀ id ∈ look.stack, id ∈ base.members)
    {error : Error} (fails : look.Fails error left) :
    left.graph.executed base.members + base.journal.length =
      base.graph.executed base.members + left.journal.length + 1 := by
  obtain ⟨current, waiting, worker, _, stack, free, ready, stray⟩ := misroutes
  obtain ⟨_, _, same, failed⟩ := fails
  obtain ⟨graph, firing, counts⟩ := stray.fire
  rw [stack] at same inside
  obtain ⟨rfl, rfl⟩ := List.cons.inj same
  rw [ready.pullStep_eq free] at failed
  unfold fireTop at failed
  rw [firing] at failed
  cases failed
  have alone : ∀ id ∈ [current], id ∈ base.members := by
    rw [List.forall_mem_singleton]
    exact inside current (List.mem_cons_self ..)
  have before := balanced.balance
  have more := Graph.executed_of_counts (counted_of_sound sound balanced.frame_eq) counts
  rw [Graph.sum_counts once alone, List.length_singleton] at more
  dsimp only
  rw [more]
  omega

/-- What the looks of a call have in common: the stack is in the section, and executions and
firings are in balance. -/
def Look.Balanced (base : Interpreter β α μ) (look : Look β α μ) : Prop :=
  (∀ id ∈ look.stack, id ∈ base.members) ∧ base.Balanced look.interpreter

theorem Balanced.proceeds {base now left : Interpreter β α μ} {current : WorkerId}
    {waiting stack : List WorkerId} (sound : base.frame.Sound) (once : base.members.Nodup)
    (balanced : Look.Balanced base ⟨current :: waiting, now⟩)
    (view : PullView now current waiting (.proceed stack left)) :
    Look.Balanced base ⟨stack, left⟩ := by
  obtain ⟨members, balanced⟩ := balanced
  have inside := members current (List.mem_cons_self ..)
  have same : now.members = base.members :=
    congrArg InterpreterFrame.members balanced.frame_eq
  refine ⟨?_, balanced.look sound once inside view (fun _ _ wrong => nomatch wrong)⟩
  rw [← same]
  exact view.inside (balanced.frame_eq ▸ sound) (same ▸ members)

theorem balanced_kept {base : Interpreter β α μ} (sound : base.frame.Sound)
    (once : base.members.Nodup) :
    KeptByPulls base.sinks base.Balanced (fun _ _ => True) where
  counted now stats balanced := ⟨balanced.frame_eq, balanced.balance⟩
  sinks_eq now balanced := congrArg InterpreterFrame.sinks balanced.frame_eq
  pulled := by
    intro fuel sink now progress left member balanced run
    refine pullSteps_induction (fun stack now => Look.Balanced base ⟨stack, now⟩)
      (fun answer left => ∀ progress, answer = .ok progress → base.Balanced left)
      (fun _ balanced _ _ => balanced.2) ?_
      (fun _ _ _ _ _ balanced view => Balanced.proceeds sound once balanced view) run
      ⟨List.forall_mem_singleton.mpr (sound.sinks sink member), balanced⟩ progress rfl
    rintro now current waiting _ left ⟨members, balanced⟩ view succeeded rfl
    exact balanced.look sound once (members current (List.mem_cons_self ..)) view
      (fun _ _ wrong => nomatch wrong)
  failed _ _ _ _ _ _ _ _ := trivial

private theorem looks_balanced {base : Interpreter β α μ} (sound : base.frame.Sound)
    (once : base.members.Nodup) (fuel : Nat) :
    ∀ look ∈ base.looks fuel, look.Balanced base := by
  refine (balanced_kept sound once).looks (Look.Balanced base) ?_ ⟨rfl, rfl⟩
  intro fuel sink member now balanced
  exact pullLooks_induction (fun stack now => Look.Balanced base ⟨stack, now⟩)
    (fun _ _ _ _ _ balanced view => Balanced.proceeds sound once balanced view)
    ⟨List.forall_mem_singleton.mpr (sound.sinks sink member), balanced⟩

structure Call (β α μ : Type) where
  before : Interpreter β α μ
  fuel : Nat

/-- The call fails while the messages of a completed firing are routed. -/
def Call.Misroutes (call : Call β α μ) : Prop :=
  ∃ look ∈ call.before.looks call.fuel, look.Misroutes

private theorem Call.Misroutes.fails {call : Call β α μ} (misroutes : call.Misroutes)
    {answer : Except Error Bool} {left : Interpreter β α μ}
    (run : call.before.interpret call.fuel = some (answer, left)) :
    ∃ look ∈ call.before.looks call.fuel, look.Misroutes ∧
      ∃ error, answer = .error error ∧ look.Fails error left := by
  obtain ⟨look, member, stray⟩ := misroutes
  obtain ⟨error, after, fails⟩ := stray.fails
  have failed := interpret_error_iff.mpr ⟨look, member, fails⟩
  rw [run] at failed
  cases failed
  exact ⟨look, member, stray, error, rfl, fails⟩

open Classical in
noncomputable def misroutings (calls : List (Call β α μ)) : Nat :=
  calls.countP (fun call => decide call.Misroutes)

private theorem misroutings_append (first second : List (Call β α μ)) :
    misroutings (first ++ second) = misroutings first + misroutings second :=
  List.countP_append

private theorem misroutings_of_misroutes {call : Call β α μ} (misroutes : call.Misroutes) :
    misroutings [call] = 1 := by
  simp [misroutings, misroutes]

theorem misroutings_of_routed {call : Call β α μ} (routed : ¬ call.Misroutes) :
    misroutings [call] = 0 := by
  simp [misroutings, routed]

/-- A call counts one execution for each firing that it journals, and one more if it fails in
the routing of messages. -/
theorem Call.accounts (call : Call β α μ) (sound : call.before.frame.Sound)
    (once : call.before.members.Nodup) {answer : Except Error Bool} {left : Interpreter β α μ}
    (run : call.before.interpret call.fuel = some (answer, left)) :
    left.graph.executed call.before.members + call.before.journal.length =
      call.before.graph.executed call.before.members + left.journal.length +
        misroutings [call] := by
  have balanced := looks_balanced sound once call.fuel
  by_cases misroutes : call.Misroutes
  · obtain ⟨look, member, stray, error, rfl, fails⟩ := misroutes.fails run
    rw [misroutings_of_misroutes misroutes]
    exact stray.ahead sound once (balanced look member).2 (balanced look member).1 fails
  · suffices kept : call.before.Balanced left by
      rw [misroutings_of_routed misroutes]
      exact kept.balance
    cases answer with
    | ok progress => exact (balanced_kept sound once).interpret ⟨rfl, rfl⟩ run
    | error error =>
        obtain ⟨⟨stack, now⟩, member, current, waiting, top, fails⟩ := interpret_error_iff.mp run
        dsimp only at top fails
        subst top
        obtain ⟨members, nowBalanced⟩ := balanced _ member
        have view := now.pullStep_view current waiting
        rw [fails] at view
        exact nowBalanced.look sound once (members current (List.mem_cons_self ..)) view
          (fun _ _ _ stray => misroutes ⟨_, member, stray⟩)

def passAnswers (fuel : Nat) : List WorkerId → Interpreter β α μ → List (Except Error Bool)
  | [], _ => []
  | sink :: rest, interpreter =>
      match interpreter.pull fuel sink with
      | none => []
      | some (.error error, _) => [.error error]
      | some (.ok progress, left) => .ok progress :: passAnswers fuel rest left

private theorem passAnswers_failed {fuel : Nat} {interpreter left : Interpreter β α μ}
    {sink : WorkerId} {error : Error}
    (pulled : interpreter.pull fuel sink = some (.error error, left)) (rest : List WorkerId) :
    passAnswers fuel (sink :: rest) interpreter = [.error error] := by
  simp only [passAnswers, pulled]

theorem passAnswers_pulled {fuel : Nat} {interpreter left : Interpreter β α μ} {sink : WorkerId}
    {progress : Bool} (pulled : interpreter.pull fuel sink = some (.ok progress, left))
    (rest : List WorkerId) :
    passAnswers fuel (sink :: rest) interpreter = .ok progress :: passAnswers fuel rest left := by
  simp only [passAnswers, pulled]

def passesAnswers (pullFuel : Nat) :
    Nat → Option Nat → Interpreter β α μ → List (Except Error Bool)
  | 0, _, _ => []
  | fuel + 1, remaining, interpreter =>
      if remaining = some 0 then []
      else
        let counted := { interpreter with
          stats := { interpreter.stats with passes := interpreter.stats.passes + 1 } }
        passAnswers pullFuel interpreter.sinks counted ++
          match pass pullFuel false interpreter.sinks counted with
          | some (.ok true, left) => passesAnswers pullFuel fuel (remaining.map (· - 1)) left
          | _ => []

def Call.answers (call : Call β α μ) : List (Except Error Bool) :=
  passesAnswers call.fuel call.fuel call.before.maxPasses
    { call.before with
      stats := { call.before.stats with
        interpretCalls := call.before.stats.interpretCalls + 1 } }

def succeeded : Except Error Bool → Bool
  | .ok progress => progress
  | .error _ => false

def stalled : Except Error Bool → Bool
  | .ok progress => !progress
  | .error _ => false

structure Tallied (before after : Interpreter β α μ) (answers : List (Except Error Bool))
    (made : Nat) : Prop where
  frame_eq : after.frame = before.frame
  firings : after.stats.firings + before.journal.length =
    before.stats.firings + after.journal.length
  pulls : after.stats.pulls = before.stats.pulls + answers.length
  stalls : after.stats.stalledPulls = before.stats.stalledPulls + answers.countP stalled
  passes : after.stats.passes = before.stats.passes + made
  calls : after.stats.interpretCalls = before.stats.interpretCalls

omit [Recipient β μ] [Work β α μ] in
theorem Tallied.trans {before middle after : Interpreter β α μ}
    {answers more : List (Except Error Bool)} {made further : Nat}
    (first : before.Tallied middle answers made) (second : middle.Tallied after more further) :
    before.Tallied after (answers ++ more) (made + further) where
  frame_eq := second.frame_eq.trans first.frame_eq
  firings := by
    have earlier := first.firings
    have later := second.firings
    omega
  pulls := by rw [second.pulls, first.pulls, List.length_append, Nat.add_assoc]
  stalls := by rw [second.stalls, first.stalls, List.countP_append, Nat.add_assoc]
  passes := by rw [second.passes, first.passes, Nat.add_assoc]
  calls := second.calls.trans first.calls

omit [Recipient β μ] [Work β α μ] in
private theorem Tallied.firing {before now : Interpreter β α μ} {answers : List (Except Error Bool)}
    {made : Nat} (tallied : before.Tallied now answers made) {graph : Graph β α μ}
    {current : WorkerId} (frame : (countFiring { now with graph := graph } current).frame =
      before.frame) :
    before.Tallied (countFiring { now with graph := graph } current) answers made where
  frame_eq := frame
  firings := by
    have counted := tallied.firings
    unfold countFiring
    dsimp only
    rw [List.length_append, List.length_singleton]
    omega
  pulls := tallied.pulls
  stalls := tallied.stalls
  passes := tallied.passes
  calls := tallied.calls

private theorem pull_tallied {fuel : Nat} {interpreter left : Interpreter β α μ} {id : WorkerId}
    {answer : Except Error Bool} (run : interpreter.pull fuel id = some (answer, left)) :
    interpreter.Tallied left [answer] 0 := by
  -- Until a pull ends, the counters are as if it were to succeed.
  refine pullSteps_induction (fun _ now => interpreter.Tallied now [.ok true] 0)
    (fun answer left => interpreter.Tallied left [answer] 0)
    (fun _ tallied => tallied) ?_ ?_ run ⟨rfl, rfl, rfl, rfl, rfl, rfl⟩
  · intro now current waiting answer left tallied view
    have frame := view.frame_left.trans tallied.frame_eq
    cases view with
    | unknown absent => exact { tallied with }
    | circular known waits => exact { tallied with }
    | unsupported known free refused => exact { tallied with }
    | stalled known free starved outside =>
        exact { tallied with frame_eq := frame, stalls := congrArg (· + 1) tallied.stalls }
    | failed ready free firing => exact { tallied with frame_eq := frame }
    | refused ready free firing follow => exact { tallied.firing frame with }
  · intro now current waiting stack left tallied view
    have frame := view.frame_left.trans tallied.frame_eq
    cases view with
    | feeder known free starved inside => exact tallied
    | sender known free fed due => exact tallied
    | fired ready free firing follow => exact tallied.firing frame

private theorem pass_tallied {fuel : Nat} {fired : Bool} {pending : List WorkerId}
    {interpreter left : Interpreter β α μ} {answer : Except Error Bool}
    (run : pass fuel fired pending interpreter = some (answer, left)) :
    interpreter.Tallied left (passAnswers fuel pending interpreter) 0 ∧
      ∀ progress, answer = .ok progress →
        (passAnswers fuel pending interpreter).length = pending.length := by
  induction pending generalizing fired interpreter with
  | nil =>
      cases run
      exact ⟨⟨rfl, rfl, rfl, rfl, rfl, rfl⟩, fun _ _ => rfl⟩
  | cons sink rest inductionHypothesis =>
      unfold pass at run
      split at run
      next => cases run
      next error after pulled =>
        cases run
        rw [passAnswers_failed pulled]
        exact ⟨pull_tallied pulled, fun _ wrong => nomatch wrong⟩
      next progress after pulled =>
        obtain ⟨later, whole⟩ := inductionHypothesis run
        rw [passAnswers_pulled pulled]
        exact ⟨(pull_tallied pulled).trans later,
          fun progress same => congrArg (· + 1) (whole progress same)⟩

theorem passesAnswers_succ {remaining : Option Nat} (room : remaining ≠ some 0)
    (pullFuel fuel : Nat) (interpreter : Interpreter β α μ) :
    let counted := { interpreter with
      stats := { interpreter.stats with passes := interpreter.stats.passes + 1 } }
    passesAnswers pullFuel (fuel + 1) remaining interpreter =
      passAnswers pullFuel interpreter.sinks counted ++
        match pass pullFuel false interpreter.sinks counted with
        | some (.ok true, left) => passesAnswers pullFuel fuel (remaining.map (· - 1)) left
        | _ => [] := by
  intro counted
  rw [passesAnswers, if_neg room]

private theorem passes_tallied {pullFuel fuel : Nat} {remaining : Option Nat} {everFired : Bool}
    {interpreter left : Interpreter β α μ} {answer : Except Error Bool}
    (run : passes pullFuel fuel remaining everFired interpreter = some (answer, left)) :
    ∃ made, interpreter.Tallied left (passesAnswers pullFuel fuel remaining interpreter) made ∧
      (∀ most, remaining = some most → made ≤ most) ∧
      ∀ progress, answer = .ok progress →
        (passesAnswers pullFuel fuel remaining interpreter).length =
          made * interpreter.sinks.length := by
  induction fuel generalizing remaining everFired interpreter with
  | zero => cases run
  | succ fuel inductionHypothesis =>
      by_cases limit : remaining = some 0
      · subst limit
        cases run
        exact ⟨0, ⟨rfl, rfl, rfl, rfl, rfl, rfl⟩, fun _ _ => Nat.zero_le _,
          fun _ _ => (Nat.zero_mul _).symm⟩
      · have allowed : ∀ most, remaining = some most → 1 ≤ most := by
          rintro (_ | most) rfl
          · exact absurd rfl limit
          · exact Nat.le_add_left ..
        have begins : interpreter.Tallied { interpreter with
            stats := { interpreter.stats with passes := interpreter.stats.passes + 1 } } [] 1 :=
          ⟨rfl, rfl, rfl, rfl, rfl, rfl⟩
        rw [passesAnswers_succ limit]
        rcases passes_view run with
          ⟨reached, _⟩ | ⟨error, passed, rfl⟩ | ⟨passed, rfl⟩ | ⟨after, passed, rest⟩
        · exact absurd reached limit
        · have tallied := begins.trans (pass_tallied passed).1
          rw [passed]
          dsimp only
          rw [List.append_nil]
          exact ⟨1, tallied, allowed, fun _ wrong => nomatch wrong⟩
        · obtain ⟨tallied, whole⟩ := pass_tallied passed
          rw [passed]
          dsimp only
          rw [List.append_nil]
          exact ⟨1, begins.trans tallied, allowed,
            fun _ _ => (whole _ rfl).trans (Nat.one_mul _).symm⟩
        · obtain ⟨tallied, whole⟩ := pass_tallied passed
          have first := begins.trans tallied
          have sinks : after.sinks = interpreter.sinks :=
            congrArg InterpreterFrame.sinks first.frame_eq
          obtain ⟨made, later, bound, lengths⟩ := inductionHypothesis rest
          rw [passed]
          dsimp only
          refine ⟨1 + made, first.trans later, ?_, ?_⟩
          · intro most same
            subst same
            have fewer := bound (most - 1) rfl
            have one := allowed most rfl
            omega
          · intro progress same
            rw [List.length_append, whole _ rfl, lengths progress same, sinks, Nat.add_mul,
              Nat.one_mul]

theorem Call.tallied (call : Call β α μ) {answer : Except Error Bool} {left : Interpreter β α μ}
    (run : call.before.interpret call.fuel = some (answer, left)) :
    ∃ made, left.stats.firings + call.before.journal.length =
        call.before.stats.firings + left.journal.length ∧
      left.stats.pulls = call.before.stats.pulls + call.answers.length ∧
      left.stats.stalledPulls = call.before.stats.stalledPulls + call.answers.countP stalled ∧
      left.stats.passes = call.before.stats.passes + made ∧
      left.stats.interpretCalls = call.before.stats.interpretCalls + 1 ∧
      (∀ most, call.before.maxPasses = some most → made ≤ most) ∧
      ∀ progress, answer = .ok progress →
        call.answers.length = made * call.before.sinks.length := by
  obtain ⟨made, tallied, bound, lengths⟩ := passes_tallied run
  exact ⟨made, tallied.firings, tallied.pulls, tallied.stalls, tallied.passes, tallied.calls,
    bound, lengths⟩

/-- How the executions of the sinks compare with the pulls that have succeeded in a stretch of
passes, each of which has returned. -/
structure Credited (before after : Interpreter β α μ) (answers : List (Except Error Bool)) :
    Prop where
  frame_eq : after.frame = before.frame
  returned : answers.length = answers.countP succeeded + answers.countP stalled
  least : before.graph.executed before.sinks + answers.countP succeeded ≤
    after.graph.executed before.sinks
  exact : before.constraints = [] →
    after.graph.executed before.sinks =
      before.graph.executed before.sinks + answers.countP succeeded

omit [Recipient β μ] [Work β α μ] in
theorem Credited.still (interpreter : Interpreter β α μ) (stats : InterpreterStats) :
    interpreter.Credited { interpreter with stats := stats } [] :=
  ⟨rfl, rfl, Nat.le_refl _, fun _ => rfl⟩

omit [Recipient β μ] [Work β α μ] in
theorem Credited.trans {before middle after : Interpreter β α μ}
    {answers more : List (Except Error Bool)} (first : before.Credited middle answers)
    (second : middle.Credited after more) : before.Credited after (answers ++ more) := by
  have sinks : middle.sinks = before.sinks := congrArg InterpreterFrame.sinks first.frame_eq
  have constraints : middle.constraints = before.constraints :=
    congrArg InterpreterFrame.constraints first.frame_eq
  have later := second.least
  have laterExact := second.exact
  rw [sinks] at later laterExact
  rw [constraints] at laterExact
  refine ⟨second.frame_eq.trans first.frame_eq, ?_, ?_, ?_⟩
  · rw [List.length_append, List.countP_append, List.countP_append, first.returned,
      second.returned]
    omega
  · have earlier := first.least
    rw [List.countP_append]
    omega
  · intro none
    rw [laterExact none, first.exact none, List.countP_append, Nat.add_assoc]

/-- A pull that succeeds fires its sink. Without messages no other sink fires in a pull. -/
theorem pull_credited {interpreter left : Interpreter β α μ} (terminal : interpreter.Terminal)
    (once : interpreter.sinks.Nodup) {fuel : Nat} {sink : WorkerId}
    (member : sink ∈ interpreter.sinks) {progress : Bool}
    (run : interpreter.pull fuel sink = some (.ok progress, left)) :
    interpreter.Credited left [.ok progress] := by
  obtain ⟨fired, frame, since, _, answered⟩ :=
    pull_answer terminal (terminal.sound.sinks sink member) run
  have known : ∀ id ∈ interpreter.sinks, ∃ count,
      interpreter.graph.executions? id = some count :=
    fun id sinkIn => counted_of_sound terminal.sound rfl id (terminal.sound.sinks id sinkIn)
  have executed := Graph.executed_of_counts known since.counts
  have unhelpful (none : interpreter.constraints = []) {others : List WorkerId}
      (helping : ∀ id ∈ others, interpreter.Helps id) :
      ∀ id ∈ interpreter.sinks, others.count id = 0 := by
    intro id sinkIn
    rw [List.count_eq_zero]
    intro among
    obtain ⟨constraint, scheduled, _⟩ := helping id among sinkIn
    rw [none] at scheduled
    cases scheduled
  cases progress with
  | true =>
      obtain ⟨_, prior, rfl, _, helping⟩ := answered
      refine ⟨frame, rfl, ?_, ?_⟩
      · have one : 1 ≤ (interpreter.sinks.map (prior ++ [sink]).count).sum := by
          refine Nat.le_trans ?_ (List.single_le_sum (fun _ _ => Nat.zero_le _) _
            (List.mem_map_of_mem member))
          rw [List.count_append, List.count_singleton_self]
          exact Nat.le_add_left ..
        rw [executed]
        exact Nat.add_le_add_left one _
      · intro none
        have alone : interpreter.sinks.map (prior ++ [sink]).count =
            interpreter.sinks.map [sink].count := by
          apply List.map_congr_left
          intro id sinkIn
          rw [List.count_append, unhelpful none helping id sinkIn, Nat.zero_add]
        rw [executed, alone, Graph.sum_counts once (List.forall_mem_singleton.mpr member)]
        rfl
  | false =>
      obtain ⟨_, _, helping⟩ := answered
      refine ⟨frame, rfl, ?_, ?_⟩
      · rw [executed]
        exact Nat.le_add_right ..
      · intro none
        have nobody : interpreter.sinks.map fired.count =
            interpreter.sinks.map (fun _ => 0) :=
          List.map_congr_left (unhelpful none helping)
        rw [executed, nobody]
        simp [succeeded]

private theorem pass_credited {interpreter left : Interpreter β α μ}
    (terminal : interpreter.Terminal) (once : interpreter.sinks.Nodup) {fuel : Nat}
    {already progress : Bool} {pending : List WorkerId}
    (sinks : ∀ sink ∈ pending, sink ∈ interpreter.sinks)
    (run : pass fuel already pending interpreter = some (.ok progress, left)) :
    interpreter.Credited left (passAnswers fuel pending interpreter) := by
  induction pending generalizing already interpreter with
  | nil =>
      cases run
      exact .still _ _
  | cons sink rest inductionHypothesis =>
      rw [List.forall_mem_cons] at sinks
      unfold pass at run
      split at run
      next => cases run
      next => cases run
      next succeeded after pulled =>
        have first := pull_credited terminal once sinks.1 pulled
        have same : after.sinks = interpreter.sinks :=
          congrArg InterpreterFrame.sinks first.frame_eq
        rw [passAnswers_pulled pulled]
        exact first.trans (inductionHypothesis (terminal.of_frame_eq first.frame_eq)
          (same ▸ once) (same ▸ sinks.2) run)

private theorem passes_credited {interpreter left : Interpreter β α μ}
    (terminal : interpreter.Terminal) (once : interpreter.sinks.Nodup) {pullFuel fuel : Nat}
    {remaining : Option Nat} {already progress : Bool}
    (run : passes pullFuel fuel remaining already interpreter = some (.ok progress, left)) :
    interpreter.Credited left (passesAnswers pullFuel fuel remaining interpreter) := by
  induction fuel generalizing remaining already interpreter with
  | zero => cases run
  | succ fuel inductionHypothesis =>
      by_cases limit : remaining = some 0
      · subst limit
        cases run
        exact .still _ _
      · let counted : Interpreter β α μ := { interpreter with
          stats := { interpreter.stats with passes := interpreter.stats.passes + 1 } }
        have countedTerminal : counted.Terminal := terminal.of_frame_eq rfl
        have begins : interpreter.Credited counted [] := .still _ _
        have credited {progress : Bool} {after : Interpreter β α μ}
            (passed : pass pullFuel false counted.sinks counted = some (.ok progress, after)) :=
          begins.trans (pass_credited countedTerminal once (fun _ member => member) passed)
        rw [passesAnswers_succ limit]
        rcases passes_view run with
          ⟨reached, _⟩ | ⟨error, _, wrong⟩ | ⟨passed, _⟩ | ⟨after, passed, rest⟩
        · exact absurd reached limit
        · cases wrong
        · rw [passed]
          dsimp only
          rw [List.append_nil]
          exact credited passed
        · have first := credited passed
          have same : after.sinks = interpreter.sinks :=
            congrArg InterpreterFrame.sinks first.frame_eq
          rw [passed]
          exact first.trans (inductionHypothesis (terminal.of_frame_eq first.frame_eq)
            (same ▸ once) rest)

private theorem Call.credited (call : Call β α μ) (terminal : call.before.Terminal)
    (once : call.before.sinks.Nodup) {progress : Bool} {left : Interpreter β α μ}
    (run : call.before.interpret call.fuel = some (.ok progress, left)) :
    call.before.Credited left call.answers := by
  let counted : Interpreter β α μ := { call.before with
    stats := { call.before.stats with interpretCalls := call.before.stats.interpretCalls + 1 } }
  have countedTerminal : counted.Terminal := terminal.of_frame_eq rfl
  have begins : call.before.Credited counted [] := .still _ _
  exact begins.trans (passes_credited countedTerminal once run)

/-! ### Histories -/

/-- The interpreters that a history of traffic and calls leads to, with the calls, oldest
first. -/
inductive Recorded (start : Interpreter β α μ) : List (Call β α μ) → Interpreter β α μ → Prop where
  | start : Recorded start [] start
  | traffic {calls : List (Call β α μ)} {interpreter left : Interpreter β α μ}
      (before : Recorded start calls interpreter) (traffic : interpreter.Traffic left) :
      Recorded start calls left
  | call {calls : List (Call β α μ)} {interpreter left : Interpreter β α μ}
      {answer : Except Error Bool} (fuel : Nat) (before : Recorded start calls interpreter)
      (run : interpreter.interpret fuel = some (answer, left)) :
      Recorded start (calls ++ [⟨interpreter, fuel⟩]) left

def Call.Succeeds (call : Call β α μ) : Prop :=
  ∃ progress left, call.before.interpret call.fuel = some (.ok progress, left)

theorem Recorded.frame_eq {start now : Interpreter β α μ} {calls : List (Call β α μ)}
    (recorded : start.Recorded calls now) : now.frame = start.frame := by
  induction recorded with
  | start => rfl
  | traffic before traffic inductionHypothesis =>
      exact traffic.frame_eq.trans inductionHypothesis
  | call fuel before run inductionHypothesis =>
      exact (interpret_frame run).trans inductionHypothesis

structure Unused (start : Interpreter β α μ) : Prop where
  stats : start.stats = {}
  journal : start.journal = []
  executed : ∀ ids, start.graph.executed ids = 0
  members : start.members.Nodup
  sinks : start.sinks.Nodup

omit [Recipient β μ] [Work β α μ] in
private theorem Opens.unused [Signature β] {graph : Graph β α μ} (built : graph.Built)
    {workers : List WorkerId} {given : List Constraint} {start : Interpreter β α μ}
    (opened : Opens graph workers given start) : start.Unused := by
  have same := opened.graph_eq
  have journal := opened.journal_eq
  obtain ⟨made, delegate, maxPasses, created, rfl⟩ := opened
  have accepted := accepted_of_create created
  have once : made.members.Nodup := by
    rw [accepted.members]
    exact List.nodup_range.filter _
  refine ⟨?_, journal, ?_, once, ?_⟩
  · unfold create at created
    split at created
    next => cases created
    next =>
      dsimp only at created
      split at created
      next => cases created
      next =>
        cases created
        rfl
  · intro ids
    unfold Graph.executed
    rw [List.sum_eq_zero]
    intro count member
    obtain ⟨id, _, rfl⟩ := List.mem_map.mp member
    rw [same]
    unfold Graph.executions?
    cases known : graph.worker? id with
    | none => rfl
    | some worker => exact (built.fresh id worker known).1
  · change made.sinks.Nodup
    rw [accepted.sinks]
    exact once.filter _

/-- The executions of the members are the firings counted and one more for each call that
failed in the routing of messages. -/
theorem Recorded.accounts {start now : Interpreter β α μ} {calls : List (Call β α μ)}
    (recorded : start.Recorded calls now) (unused : start.Unused) (sound : start.frame.Sound)
    (once : start.members.Nodup) :
    now.stats.firings = now.journal.length ∧
      now.graph.executed start.members = now.journal.length + misroutings calls := by
  induction recorded with
  | start =>
      rw [unused.stats, unused.journal, unused.executed]
      exact ⟨rfl, rfl⟩
  | traffic before traffic inductionHypothesis =>
      obtain ⟨bank, rfl, keys⟩ := traffic.withBank
      exact inductionHypothesis
  | @call calls interpreter left answer fuel before run inductionHypothesis =>
      obtain ⟨counted, executed⟩ := inductionHypothesis
      have frame := before.frame_eq
      have members : interpreter.members = start.members :=
        congrArg InterpreterFrame.members frame
      obtain ⟨_, firings, _⟩ := Call.tallied ⟨interpreter, fuel⟩ run
      have accounts := Call.accounts ⟨interpreter, fuel⟩ (frame ▸ sound) (members ▸ once) run
      dsimp only at firings accounts
      rw [members] at accounts
      rw [misroutings_append]
      constructor
      · omega
      · omega

private theorem Recorded.passes_le {start now : Interpreter β α μ} {calls : List (Call β α μ)}
    (recorded : start.Recorded calls now) (unused : start.Unused) {most : Nat}
    (limit : start.maxPasses = some most) :
    now.stats.passes ≤ most * now.stats.interpretCalls := by
  induction recorded with
  | start =>
      rw [unused.stats]
      exact Nat.zero_le _
  | traffic before traffic inductionHypothesis =>
      obtain ⟨bank, rfl, keys⟩ := traffic.withBank
      exact inductionHypothesis
  | @call calls interpreter left answer fuel before run inductionHypothesis =>
      have same : interpreter.maxPasses = start.maxPasses :=
        congrArg InterpreterFrame.maxPasses before.frame_eq
      obtain ⟨made, _, _, _, passes, called, bound, _⟩ := Call.tallied ⟨interpreter, fuel⟩ run
      have fewer := bound most (same.trans limit)
      dsimp only at passes called
      rw [passes, called, Nat.mul_add, Nat.mul_one]
      exact Nat.add_le_add inductionHypothesis fewer

/-- If all calls have succeeded, the pulls are those of all sinks in all passes. -/
theorem Recorded.credited {start now : Interpreter β α μ} {calls : List (Call β α μ)}
    (recorded : start.Recorded calls now) (unused : start.Unused) (terminal : start.Terminal)
    (succeed : ∀ call ∈ calls, call.Succeeds) :
    start.Credited now (calls.flatMap Call.answers) ∧
      now.stats.pulls = (calls.flatMap Call.answers).length ∧
      now.stats.stalledPulls = (calls.flatMap Call.answers).countP stalled ∧
      now.stats.pulls = now.stats.passes * start.sinks.length := by
  induction recorded with
  | start =>
      rw [unused.stats]
      exact ⟨.still _ _, rfl, rfl, (Nat.zero_mul _).symm⟩
  | traffic before traffic inductionHypothesis =>
      obtain ⟨bank, rfl, keys⟩ := traffic.withBank
      obtain ⟨credited, counters⟩ := inductionHypothesis succeed
      refine ⟨?_, counters⟩
      exact ⟨(frame_withBank keys).trans credited.frame_eq, credited.returned, credited.least,
        credited.exact⟩
  | @call calls interpreter left answer fuel before run inductionHypothesis =>
      rw [List.forall_mem_append, List.forall_mem_singleton] at succeed
      obtain ⟨credited, pulls, stalls, each⟩ := inductionHypothesis succeed.1
      obtain ⟨progress, after, succeeded⟩ := succeed.2
      dsimp only at succeeded
      rw [run] at succeeded
      cases succeeded
      have sinks : interpreter.sinks = start.sinks :=
        congrArg InterpreterFrame.sinks before.frame_eq
      obtain ⟨made, _, morePulls, moreStalls, passes, _, _, lengths⟩ :=
        Call.tallied ⟨interpreter, fuel⟩ run
      have further := Call.credited ⟨interpreter, fuel⟩ (terminal.of_frame_eq before.frame_eq)
        (sinks ▸ unused.sinks) run
      have whole := lengths progress rfl
      dsimp only at morePulls moreStalls passes whole
      rw [List.flatMap_append, List.flatMap_singleton]
      refine ⟨credited.trans further, ?_, ?_, ?_⟩
      · rw [morePulls, pulls, List.length_append]
      · rw [moreStalls, stalls, List.countP_append]
      · rw [morePulls, passes, each, whole, sinks, Nat.add_mul]

/-- What the statistics say after any history of calls and traffic on a new interpreter over a
new graph. The executions of the members are the firings counted and, for each call that failed
while the messages of a completed firing were routed, one more. If no call failed, the pulls are
as many as sinks in passes, and those that returned true are at most the executions of the
sinks, and as many without scheduled messages. A limit on passes holds on average. -/
theorem statistics_account_for_firings [Signature β] {graph : Graph β α μ} (built : graph.Built)
    {workers : List WorkerId} {given : List Constraint} {start now : Interpreter β α μ}
    (opened : Opens graph workers given start) {calls : List (Call β α μ)}
    (recorded : start.Recorded calls now) :
    now.graph.executed now.members = now.stats.firings + misroutings calls ∧
      (∀ call ∈ calls, call.Misroutes →
        ∃ error left, call.before.interpret call.fuel = some (.error error, left)) ∧
      ((∀ call ∈ calls, call.Succeeds) →
        now.stats.pulls = now.stats.passes * now.sinks.length ∧
        now.stats.pulls =
          (calls.flatMap Call.answers).countP succeeded + now.stats.stalledPulls ∧
        now.stats.pulls - now.stats.stalledPulls ≤ now.graph.executed now.sinks ∧
        (now.constraints = [] →
          now.stats.pulls - now.stats.stalledPulls = now.graph.executed now.sinks)) ∧
      ∀ most, now.maxPasses = some most → now.stats.passes ≤ most * now.stats.interpretCalls := by
  have unused := opened.unused built
  have terminal := opened.terminal built.descends
  have frame := recorded.frame_eq
  rw [show now.members = start.members from congrArg InterpreterFrame.members frame,
    show now.sinks = start.sinks from congrArg InterpreterFrame.sinks frame,
    show now.constraints = start.constraints from congrArg InterpreterFrame.constraints frame,
    show now.maxPasses = start.maxPasses from congrArg InterpreterFrame.maxPasses frame]
  refine ⟨?_, ?_, ?_, fun most limit => recorded.passes_le unused limit⟩
  · obtain ⟨firings, executed⟩ := recorded.accounts unused terminal.sound unused.members
    rw [firings, executed]
  · rintro call member ⟨look, among, stray⟩
    obtain ⟨error, left, fails⟩ := stray.fails
    exact ⟨error, left, interpret_error_iff.mpr ⟨look, among, fails⟩⟩
  · intro succeed
    obtain ⟨credited, pulls, stalls, each⟩ := recorded.credited unused terminal succeed
    have returned := credited.returned
    have least := credited.least
    have zero := unused.executed start.sinks
    refine ⟨each, by omega, by omega, ?_⟩
    intro none
    have exactly := credited.exact none
    omega

/-- A message that comes too late costs the interpreter a firing in its statistics. With an
element for every worker, the sinks of the race fire once for each pull that succeeds. -/
theorem statistics_account_for_firings_drift_race :
    (∃ first fed error left, (driftInterpreter 3).pushAll? 0 [7] = some first ∧
      first.pushAll? 2 [8] = some fed ∧ fed.interpret 9 = some (.error error, left) ∧
      left.stats.firings = 1 ∧ left.graph.executed left.members = 2 ∧
      (Call.mk fed 9).Misroutes) ∧
    ∃ first second fed left, raceInterpreter.pushAll? 0 [4] = some first ∧
      first.pushAll? 2 [5] = some second ∧ second.pushAll? 4 [6] = some fed ∧
      fed.interpret 9 = some (.ok true, left) ∧
      left.stats.pulls = left.stats.passes * left.sinks.length ∧
      left.stats.pulls - left.stats.stalledPulls ≤ left.graph.executed left.sinks := by
  constructor
  · obtain ⟨first, fed, error, left, one, two, run, firings, executed⟩ :
        ∃ first fed error left, (driftInterpreter 3).pushAll? 0 [7] = some first ∧
          first.pushAll? 2 [8] = some fed ∧ fed.interpret 9 = some (.error error, left) ∧
          left.stats.firings = 1 ∧ left.graph.executed left.members = 2 :=
      ⟨_, _, _, _, rfl, rfl, rfl, rfl, rfl⟩
    have accounted := (statistics_account_for_firings driftGraph_built (driftInterpreter_opens 3)
      (.call 9 (.traffic (.traffic .start (.push 0 [7] one)) (.push 2 [8] two)) run)).1
    refine ⟨first, fed, error, left, one, two, run, firings, executed, ?_⟩
    by_contra routed
    rw [firings, executed, List.nil_append, misroutings_of_routed routed] at accounted
    cases accounted
  · obtain ⟨first, second, fed, left, one, two, three, run⟩ : ∃ first second fed left,
        raceInterpreter.pushAll? 0 [4] = some first ∧ first.pushAll? 2 [5] = some second ∧
          second.pushAll? 4 [6] = some fed ∧ fed.interpret 9 = some (.ok true, left) :=
      ⟨_, _, _, _, rfl, rfl, rfl, rfl⟩
    have accounted := statistics_account_for_firings raceGraph_built raceInterpreter_opens
      (.call 9 (.traffic (.traffic (.traffic .start (.push 0 [4] one)) (.push 2 [5] two))
        (.push 4 [6] three)) run)
    have succeed : ∀ call ∈ ([] : List (Call Standard Nat Unit)) ++ [⟨fed, 9⟩],
        call.Succeeds := by
      rw [List.nil_append, List.forall_mem_singleton]
      exact ⟨true, left, run⟩
    obtain ⟨each, _, most, _⟩ := accounted.2.2.1 succeed
    exact ⟨first, second, fed, left, one, two, three, run, each, most⟩

end Interpreter

end DemandFlow
