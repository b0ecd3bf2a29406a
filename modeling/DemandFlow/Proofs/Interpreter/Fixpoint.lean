import Mathlib.Data.List.Chain
import DemandFlow.Proofs.Interpreter.Jam

/-!
Calls reach a fixpoint. The last pass of a successful call leaves every sink jammed: the pull
of a sink that stalls leaves its stack as a jam, and later pulls only fire workers outside of
it. A call on jammed sinks follows the jams, finds nothing to fire and changes nothing but
statistics.
-/

set_option autoImplicit false

namespace DemandFlow.Interpreter

variable {β α μ : Type}

/-- The section is sound, channels do not share buffers, and schedules are nondecreasing. -/
structure Orderly (interpreter : Interpreter β α μ) : Prop where
  sound : interpreter.frame.Sound
  unshared : interpreter.graph.bank.Unshared
  nondecreasing : ∀ constraint ∈ interpreter.constraints, constraint.schedule.Nondecreasing

theorem Orderly.of_frame_eq {before after : Interpreter β α μ} (orderly : before.Orderly)
    (same : after.frame = before.frame) : after.Orderly where
  sound := same ▸ orderly.sound
  unshared := unshared_of_frame_eq same orderly.unshared
  nondecreasing := by
    rw [show after.constraints = before.constraints from
      congrArg InterpreterFrame.constraints same]
    exact orderly.nondecreasing

def AllJammed (interpreter : Interpreter β α μ) (ids : List WorkerId) : Prop :=
  ∀ id ∈ ids, ∃ depth, interpreter.Jammed id depth

theorem AllJammed.counted {interpreter : Interpreter β α μ} {ids : List WorkerId}
    (jammed : interpreter.AllJammed ids) (orderly : interpreter.Orderly)
    {after : Interpreter β α μ} (frame : after.frame = interpreter.frame)
    (graph : after.graph = interpreter.graph) : after.AllJammed ids := by
  intro id member
  obtain ⟨depth, jam⟩ := jammed id member
  refine ⟨depth, jam.congr frame orderly.nondecreasing ?_⟩
  rw [graph]
  exact ⟨rfl, rfl, fun _ => rfl⟩

/-! ### Pulls leave jams -/

/-- Below a jammed worker that everybody on the stack needs in turn, everybody is jammed. -/
theorem jammed_of_chain {interpreter : Interpreter β α μ} {top : WorkerId}
    {waiting : List WorkerId} {depth : Nat}
    (chain : List.IsChain (fun upper lower => interpreter.Needs lower (some upper))
      (top :: waiting)) (jammed : interpreter.Jammed top depth) :
    interpreter.AllJammed (top :: waiting) := by
  induction waiting generalizing top depth with
  | nil =>
      intro id member
      rw [List.mem_singleton] at member
      subst member
      exact ⟨depth, jammed⟩
  | cons lower rest inductionHypothesis =>
      obtain ⟨needs, below⟩ := List.isChain_cons_cons.mp chain
      have lowerJammed := Jammed.behind needs jammed
      intro id member
      rcases List.mem_cons.mp member with rfl | deeper
      · exact ⟨depth, jammed⟩
      · exact inductionHypothesis below lowerJammed id deeper

/-- Above a jammed worker of a stack everybody is jammed. -/
theorem jammed_top {interpreter : Interpreter β α μ} {top id : WorkerId}
    {waiting : List WorkerId} {depth : Nat}
    (chain : List.IsChain (fun upper lower => interpreter.Needs lower (some upper))
      (top :: waiting)) (member : id ∈ top :: waiting) (jammed : interpreter.Jammed id depth) :
    ∃ depth, interpreter.Jammed top depth := by
  induction waiting generalizing top with
  | nil =>
      rw [List.mem_singleton] at member
      subst member
      exact ⟨depth, jammed⟩
  | cons lower rest inductionHypothesis =>
      obtain ⟨needs, below⟩ := List.isChain_cons_cons.mp chain
      rcases List.mem_cons.mp member with rfl | deeper
      · exact ⟨depth, jammed⟩
      · obtain ⟨lowerDepth, lowerJam⟩ := inductionHypothesis below deeper
        cases lowerJam with
        | outside other => cases needs.unique other
        | behind other jam =>
            cases needs.unique other
            exact ⟨_, jam⟩

variable [Recipient β μ] [Work β α μ]

/-- What holds during a pull: everybody on the stack needs the worker above it, and those
that were jammed before still are. -/
structure Hanging (frame : InterpreterFrame) (settled : List WorkerId) (pulled : WorkerId)
    (stack : List WorkerId) (interpreter : Interpreter β α μ) : Prop where
  pulling : Pulling frame pulled stack interpreter
  orderly : interpreter.Orderly
  chain : List.IsChain (fun upper lower => interpreter.Needs lower (some upper)) stack
  settled : interpreter.AllJammed settled

omit [Recipient β μ] [Work β α μ] in
private theorem Hanging.current_mem {frame : InterpreterFrame} {settled waiting : List WorkerId}
    {pulled current : WorkerId} {interpreter : Interpreter β α μ}
    (hanging : Hanging frame settled pulled (current :: waiting) interpreter) :
    current ∈ interpreter.members := by
  have members : interpreter.members = frame.members :=
    congrArg InterpreterFrame.members hanging.pulling.frame_eq
  rw [members]
  exact hanging.pulling.members current (List.mem_cons_self ..)

theorem Hanging.look {frame : InterpreterFrame} {settled waiting stack : List WorkerId}
    {pulled current : WorkerId} {interpreter left : Interpreter β α μ}
    (hanging : Hanging frame settled pulled (current :: waiting) interpreter)
    (view : PullView interpreter current waiting (.proceed stack left)) :
    Hanging frame settled pulled stack left := by
  have orderly := hanging.orderly
  have sound : frame.Sound := hanging.pulling.frame_eq ▸ orderly.sound
  refine ⟨hanging.pulling.look sound orderly.unshared view,
    orderly.of_frame_eq view.frame_left, ?_, ?_⟩
  · cases view with
    | feeder known free starved inside =>
        exact List.isChain_cons_cons.mpr ⟨.input known starved inside, hanging.chain⟩
    | sender known free fed due =>
        exact List.isChain_cons_cons.mpr ⟨.sender known fed due, hanging.chain⟩
    | @fired worker graph after ready free firing follow =>
        have counted := interpreter.delegate.afterFire_sameButCounts
          (interpreter.stats.firings + 1) graph current
        rw [follow] at counted
        -- The links below the fired worker are between other workers.
        refine hanging.chain.tail.imp_of_mem_imp ?_
        intro upper lower upperIn lowerIn needs
        have moved := needs.fire orderly.sound orderly.unshared orderly.nondecreasing
          hanging.current_mem ready.known firing (fun same => free (same ▸ lowerIn))
          (fun same => free (Option.some.inj same ▸ upperIn))
        refine moved.congr ?_ orderly.nondecreasing counted
        unfold countFiring Interpreter.frame
        rw [counted.2.1]
  · cases view with
    | feeder known free starved inside => exact hanging.settled
    | sender known free fed due => exact hanging.settled
    | @fired worker graph after ready free firing follow =>
        have counted := interpreter.delegate.afterFire_sameButCounts
          (interpreter.stats.firings + 1) graph current
        rw [follow] at counted
        intro id member
        obtain ⟨depth, jam⟩ := hanging.settled id member
        have moved := jam.fire orderly.sound orderly.unshared orderly.nondecreasing
          hanging.current_mem ready firing
        refine ⟨depth, moved.congr ?_ orderly.nondecreasing counted⟩
        unfold countFiring Interpreter.frame
        rw [counted.2.1]

/-- A pull that succeeds keeps the jams there are, and one that stalls adds the worker that
was pulled. -/
theorem pull_jams {settled : List WorkerId} {interpreter left : Interpreter β α μ}
    (orderly : interpreter.Orderly) (jammed : interpreter.AllJammed settled) {fuel : Nat}
    {id : WorkerId} (inside : id ∈ interpreter.members)
    (run : interpreter.pull fuel id = some (.ok false, left)) :
    left.Orderly ∧ left.AllJammed (settled ++ [id]) := by
  have begins : Hanging interpreter.frame settled id [id]
      { interpreter with
        stats := { interpreter.stats with pulls := interpreter.stats.pulls + 1 } } := by
    refine ⟨⟨rfl, ?_, trivial, .inr ⟨[], rfl⟩⟩, orderly.of_frame_eq rfl,
      List.isChain_singleton id, jammed.counted orderly rfl rfl⟩
    rw [List.forall_mem_singleton]
    exact inside
  rcases pullSteps_last (Hanging interpreter.frame settled id)
    (fun now current waiting stack after hanging view => hanging.look view) run begins with
    ⟨wrong, _⟩ | ⟨current, waiting, before, _, hanging, view⟩
  · cases wrong
  · cases view with
    | stalled known free starved outside =>
        have orderlyNow := hanging.orderly
        refine ⟨orderlyNow.of_frame_eq rfl, ?_⟩
        have whole : before.AllJammed (settled ++ [id]) := by
          intro other member
          rcases List.mem_append.mp member with old | new
          · exact hanging.settled other old
          · rw [List.mem_singleton] at new
            subst new
            exact jammed_of_chain hanging.chain (.outside (.input known starved outside)) other
              hanging.pulling.pulled_mem
        exact whole.counted orderlyNow rfl rfl

private theorem pass_true {fuel : Nat} {pending : List WorkerId}
    {interpreter left : Interpreter β α μ} {progress : Bool}
    (run : pass fuel true pending interpreter = some (.ok progress, left)) :
    progress = true := by
  induction pending generalizing interpreter with
  | nil =>
      cases run
      rfl
  | cons sink rest inductionHypothesis =>
      unfold pass at run
      split at run
      next => cases run
      next => cases run
      next => exact inductionHypothesis run

theorem pull_frame {fuel : Nat} {id : WorkerId} {interpreter left : Interpreter β α μ}
    {answer : Except Error Bool} (run : interpreter.pull fuel id = some (answer, left)) :
    left.frame = interpreter.frame := by
  have same := pullSteps_frame run
  exact same

theorem pass_frame {fuel : Nat} {fired : Bool} {pending : List WorkerId}
    {interpreter left : Interpreter β α μ} {answer : Except Error Bool}
    (run : pass fuel fired pending interpreter = some (answer, left)) :
    left.frame = interpreter.frame := by
  induction pending generalizing fired interpreter with
  | nil =>
      cases run
      rfl
  | cons sink rest inductionHypothesis =>
      unfold pass at run
      split at run
      next => cases run
      next pulled =>
        cases run
        exact pull_frame pulled
      next pulled => exact (inductionHypothesis run).trans (pull_frame pulled)

private theorem pass_jams (settled : List WorkerId) {interpreter left : Interpreter β α μ}
    (orderly : interpreter.Orderly) (jammed : interpreter.AllJammed settled) {fuel : Nat}
    {pending : List WorkerId} (inside : ∀ sink ∈ pending, sink ∈ interpreter.members)
    (run : pass fuel false pending interpreter = some (.ok false, left)) :
    left.AllJammed (settled ++ pending) := by
  induction pending generalizing settled interpreter with
  | nil =>
      cases run
      rw [List.append_nil]
      exact jammed
  | cons sink rest inductionHypothesis =>
      unfold pass at run
      split at run
      next => cases run
      next => cases run
      next progress after pulled =>
        cases progress with
        | true => cases pass_true run
        | false =>
            obtain ⟨orderlyAfter, jammedAfter⟩ :=
              pull_jams orderly jammed (inside sink (List.mem_cons_self ..)) pulled
            have members : after.members = interpreter.members :=
              congrArg InterpreterFrame.members (pull_frame pulled)
            have deeper := inductionHypothesis (settled ++ [sink]) orderlyAfter jammedAfter
              (fun other member => members ▸ inside other (List.mem_cons_of_mem _ member)) run
            rwa [List.append_assoc] at deeper

/-- A successful call without a limit on its passes leaves all sinks jammed. -/
theorem interpret_jams {interpreter left : Interpreter β α μ} (orderly : interpreter.Orderly)
    (unlimited : interpreter.maxPasses = none) {fuel : Nat} {progress : Bool}
    (run : interpreter.interpret fuel = some (.ok progress, left)) :
    left.AllJammed left.sinks := by
  have passes_jam (count : Nat) (everFired : Bool) (now : Interpreter β α μ)
      (nowOrderly : now.Orderly)
      (passed : passes fuel count none everFired now = some (.ok progress, left)) :
      left.AllJammed left.sinks := by
    induction count generalizing everFired now with
    | zero => cases passed
    | succ count inductionHypothesis =>
        have counted : { now with stats := { now.stats with
            passes := now.stats.passes + 1 } }.Orderly := nowOrderly.of_frame_eq rfl
        rcases passes_view passed with
          ⟨limit, _⟩ | ⟨error, _, wrong⟩ | ⟨idle, _⟩ | ⟨after, fired, rest⟩
        · cases limit
        · cases wrong
        · have kept := pass_jams [] counted (by intro id member; cases member)
            (fun sink member => nowOrderly.sound.sinks sink member) idle
          have frame := pass_frame idle
          have sinks : left.sinks = now.sinks := congrArg InterpreterFrame.sinks frame
          rw [sinks]
          exact kept
        · exact inductionHypothesis true after (counted.of_frame_eq (pass_frame fired)) rest
  have counted : { interpreter with stats := { interpreter.stats with
      interpretCalls := interpreter.stats.interpretCalls + 1 } }.Orderly :=
    orderly.of_frame_eq rfl
  refine passes_jam fuel false _ counted ?_
  rw [← unlimited]
  exact run

/-- A pull follows the jam to its end and gives up there. -/
theorem pullSteps_of_jammed {interpreter : Interpreter β α μ} {id : WorkerId} {depth fuel : Nat}
    (waiting : List WorkerId) (jammed : interpreter.Jammed id depth)
    (below : ∀ lower ∈ waiting, ∃ deeper, depth < deeper ∧ interpreter.Jammed lower deeper)
    (enough : depth < fuel) :
    pullSteps fuel (id :: waiting) interpreter = some (.ok false, interpreter.countStall) := by
  have free {current : WorkerId} {depth : Nat} {waiting : List WorkerId}
      (jam : interpreter.Jammed current depth)
      (deeper : ∀ lower ∈ waiting, ∃ deeper, depth < deeper ∧ interpreter.Jammed lower deeper) :
      waiting.contains current = false := by
    cases among : waiting.contains current with
    | false => rfl
    | true =>
        obtain ⟨other, less, again⟩ := deeper current (List.contains_iff_mem.mp among)
        have same := jam.unique again
        omega
  induction jammed generalizing fuel waiting with
  | @outside id needs =>
      cases fuel with
      | zero => cases enough
      | succ fuel =>
          have notWaiting := free (.outside needs) below
          cases needs with
          | input known starved feeds =>
              unfold pullSteps pullStep
              simp only [known, notWaiting, starved, feeds, Bool.false_eq_true, if_false]
  | @behind id peer depth needs deeper inductionHypothesis =>
      cases fuel with
      | zero => cases enough
      | succ fuel =>
          have notWaiting := free (.behind needs deeper) below
          have next : pullSteps fuel (peer :: id :: waiting) interpreter =
              some (.ok false, interpreter.countStall) := by
            refine inductionHypothesis (id :: waiting) ?_ (Nat.lt_of_succ_lt_succ enough)
            rw [List.forall_mem_cons]
            refine ⟨⟨depth + 1, Nat.lt_succ_self _, .behind needs deeper⟩, ?_⟩
            intro lower member
            obtain ⟨other, less, jam⟩ := below lower member
            exact ⟨other, Nat.lt_of_succ_lt less, jam⟩
          cases needs with
          | input known starved feeds =>
              unfold pullSteps pullStep
              simp only [known, notWaiting, starved, feeds, Bool.false_eq_true, if_false]
              exact next
          | sender known fed due =>
              unfold pullSteps pullStep
              simp only [known, notWaiting, fed, due, Bool.false_eq_true, if_false]
              exact next

/-- A pass over jammed sinks counts one stalled pull for each of them. -/
theorem pass_of_jammed {interpreter : Interpreter β α μ} (orderly : interpreter.Orderly)
    {pending : List WorkerId} (jammed : interpreter.AllJammed pending)
    (inside : ∀ sink ∈ pending, sink ∈ interpreter.members) {fuel : Nat}
    (enough : interpreter.members.length < fuel) :
    pass fuel false pending interpreter = some (.ok false, { interpreter with
      stats := { interpreter.stats with
        pulls := interpreter.stats.pulls + pending.length
        stalledPulls := interpreter.stats.stalledPulls + pending.length } }) := by
  induction pending generalizing interpreter with
  | nil => rfl
  | cons sink rest inductionHypothesis =>
      obtain ⟨depth, jam⟩ := jammed sink (List.mem_cons_self ..)
      have within := jam.depth_lt orderly.sound (inside sink (List.mem_cons_self ..))
      let stalled : Interpreter β α μ := { interpreter with
        stats := { interpreter.stats with
          pulls := interpreter.stats.pulls + 1
          stalledPulls := interpreter.stats.stalledPulls + 1 } }
      have pulled : interpreter.pull fuel sink = some (.ok false, stalled) :=
        pullSteps_of_jammed [] (jam.congr rfl orderly.nondecreasing ⟨rfl, rfl, fun _ => rfl⟩)
          (by intro lower member; cases member) (by omega)
      have others : stalled.AllJammed rest :=
        AllJammed.counted (fun id member => jammed id (List.mem_cons_of_mem _ member)) orderly
          rfl rfl
      have stalledOrderly : stalled.Orderly := orderly.of_frame_eq rfl
      have deeper := inductionHypothesis stalledOrderly others
        (fun other member => inside other (List.mem_cons_of_mem _ member)) enough
      unfold pass
      rw [pulled]
      dsimp only
      rw [Bool.or_false, deeper, List.length_cons]
      simp only [stalled, Nat.add_assoc, Nat.add_comm 1]

theorem passes_of_unlimited {pullFuel fuel : Nat} {remaining : Option Nat} {everFired : Bool}
    {interpreter : Interpreter β α μ} (unlimited : remaining = none) :
    passes pullFuel (fuel + 1) remaining everFired interpreter =
      goOn pullFuel fuel none everFired (pass pullFuel false interpreter.sinks
        { interpreter with
          stats := { interpreter.stats with passes := interpreter.stats.passes + 1 } }) := by
  subst unlimited
  rfl

/-- A successful call has done all there is to do: the next call fires nobody, answers that
no sink has fired, and changes nothing but the statistics, where it counts itself, one pass
and one stalled pull for each sink. -/
theorem interpret_reaches_fixpoint [Signature β] {graph : Graph β α μ} (descends : graph.Descends)
    (unshared : graph.bank.Unshared)
    (nondecreasing : ∀ constraint ∈ graph.constraints, constraint.schedule.Nondecreasing)
    {workers : List WorkerId} {given : List Constraint}
    (taken : ∀ constraint ∈ given, constraint ∈ graph.constraints)
    {start interpreter left : Interpreter β α μ} (opened : Opens graph workers given start)
    (unlimited : start.maxPasses = none) (reachable : start.Reachable interpreter) {fuel : Nat}
    {progress : Bool} (run : interpreter.interpret fuel = some (.ok progress, left)) {more : Nat}
    (enough : left.members.length < more) :
    left.interpret more = some (.ok false, { left with
      stats := { left.stats with
        interpretCalls := left.stats.interpretCalls + 1
        passes := left.stats.passes + 1
        pulls := left.stats.pulls + left.sinks.length
        stalledPulls := left.stats.stalledPulls + left.sinks.length } }) := by
  have startOrderly : start.Orderly := by
    refine ⟨opened.frame_sound descends.sound, ?_, ?_⟩
    · rw [opened.graph_eq]
      exact unshared
    · intro constraint member
      exact nondecreasing constraint (taken constraint (opened.given constraint member))
  have frame := reachable.frame_eq
  have leftFrame : left.frame = start.frame := (interpret_frame run).trans frame
  have orderly : left.Orderly := startOrderly.of_frame_eq leftFrame
  have limit : interpreter.maxPasses = none :=
    (congrArg InterpreterFrame.maxPasses frame).trans unlimited
  have leftLimit : left.maxPasses = none :=
    (congrArg InterpreterFrame.maxPasses leftFrame).trans unlimited
  have jammed := interpret_jams (startOrderly.of_frame_eq frame) limit run
  let counted : Interpreter β α μ := { left with
    stats := { left.stats with
      interpretCalls := left.stats.interpretCalls + 1
      passes := left.stats.passes + 1 } }
  have countedOrderly : counted.Orderly := orderly.of_frame_eq rfl
  have countedJammed : counted.AllJammed left.sinks := jammed.counted orderly rfl rfl
  have idle := pass_of_jammed countedOrderly countedJammed
    (fun sink member => orderly.sound.sinks sink member) enough
  obtain ⟨count, rfl⟩ : ∃ count, more = count + 1 := ⟨more - 1, by omega⟩
  have first : left.interpret (count + 1) = goOn (count + 1) count none false
      (pass (count + 1) false left.sinks counted) := passes_of_unlimited leftLimit
  rw [first, idle]
  rfl

/-! ### Two sinks behind a splitter, the first of which is to message the second -/

def twinBuilder : Builder Standard Nat :=
  let builder := (Builder.addWorker {} .splitter ⟨"fork", .duplicate⟩).2
  let builder := (builder.addWorker .filter ⟨"left", .identity⟩).2
  let builder := (builder.addWorker .filter ⟨"right", .identity⟩).2
  let builder := (builder.connect 0 1).2
  let builder := (builder.connect 0 2).2
  let builder := (builder.addPortal .identity).2
  let builder := (builder.register { id := 0, recipient := .identity } 2).2
  (builder.addConstraint ⟨⟨1, 2, 0⟩, .latency 1⟩).2

def twinGraph : Graph Standard Nat Unit := twinBuilder.graph

def twinInterpreter : Interpreter Standard Nat Unit :=
  onSection twinGraph twinGraph.workerIds twinGraph.constraints

theorem twinGraph_built : twinGraph.Built :=
  ⟨twinBuilder,
    .addConstraint _ (.register _ _ (.addPortal _ (.connect _ _ (.connect _ _
      (.addWorker _ _ (.addWorker _ _ (.addWorker _ _ (.fresh _)))))))), rfl⟩

theorem twinInterpreter_opens :
    Opens twinGraph twinGraph.workerIds twinGraph.constraints twinInterpreter :=
  ⟨twinInterpreter, _, _, rfl, rfl⟩

theorem twinGraph_unshared : twinGraph.bank.Unshared :=
  Bank.unshared_of_own (by decide)

theorem twinGraph_nondecreasing :
    ∀ constraint ∈ twinGraph.constraints, constraint.schedule.Nondecreasing := by
  intro constraint member
  change constraint ∈ [(⟨⟨1, 2, 0⟩, .latency 1⟩ : Constraint)] at member
  rw [List.mem_singleton] at member
  subst member
  exact DeliverySchedule.nondecreasing_latency 1

theorem interpret_reaches_fixpoint_twin : ∃ fed left again,
    twinInterpreter.pushAll? 0 [4, 5] = some fed ∧ fed.interpret 9 = some (.ok true, left) ∧
      left.interpret 9 = some (.ok false, again) ∧ again.graph = left.graph ∧
      again.journal = left.journal ∧ again.stats.passes = left.stats.passes + 1 ∧
      again.stats.stalledPulls = left.stats.stalledPulls + 2 := by
  obtain ⟨fed, left, push, run, members, sinks⟩ : ∃ fed left,
      twinInterpreter.pushAll? 0 [4, 5] = some fed ∧ fed.interpret 9 = some (.ok true, left) ∧
        left.members.length = 3 ∧ left.sinks.length = 2 :=
    ⟨_, _, rfl, rfl, rfl, rfl⟩
  have next := interpret_reaches_fixpoint twinGraph_built.descends twinGraph_unshared
    twinGraph_nondecreasing (fun _ member => member) twinInterpreter_opens rfl
    (.traffic .start (.push 0 [4, 5] push)) run (show left.members.length < 9 by omega)
  exact ⟨fed, left, _, push, run, next, rfl, rfl, rfl,
    congrArg (left.stats.stalledPulls + ·) sinks⟩

end DemandFlow.Interpreter
