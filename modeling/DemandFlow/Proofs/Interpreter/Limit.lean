import DemandFlow.Proofs.Interpreter.Fixpoint

/-!
A limit on passes only cuts a run into pieces. No pull looks at the limit or at the counts of
calls and passes, so the passes of an unlimited call are also those of limited calls, in as
many pieces as the limit asks for. If the last piece has fired a sink before its idle pass,
one more call is made; the unlimited call has reached a fixpoint, so that call fires nobody.
-/

set_option autoImplicit false

namespace DemandFlow

variable {β α μ : Type}

def PullStep.map (change : Interpreter β α μ → Interpreter β α μ) :
    PullStep β α μ → PullStep β α μ
  | .stop answer left => .stop answer (change left)
  | .proceed stack left => .proceed stack (change left)

namespace Interpreter

def rebooked (interpreter : Interpreter β α μ) (limit : Option Nat) (calls passes : Nat) :
    Interpreter β α μ :=
  { interpreter with
    maxPasses := limit
    stats := { interpreter.stats with interpretCalls := calls, passes := passes } }

variable [Recipient β μ] [Work β α μ]

section

variable (limit : Option Nat) (calls passes : Nat)

private theorem fireTop_rebooked (interpreter : Interpreter β α μ) (current : WorkerId)
    (waiting : List WorkerId) :
    (interpreter.rebooked limit calls passes).fireTop current waiting =
      (interpreter.fireTop current waiting).map
        (fun left => left.rebooked limit calls passes) := by
  unfold fireTop rebooked countFiring
  dsimp only
  rcases interpreter.graph.fire current with ⟨answer, graph⟩
  cases answer with
  | error error => rfl
  | ok done =>
      dsimp only
      rcases interpreter.delegate.afterFire (interpreter.stats.firings + 1) graph current with
        ⟨verdict, left⟩
      cases verdict with
      | error error => rfl
      | ok accepted => rfl

private theorem pullStep_rebooked (interpreter : Interpreter β α μ) (current : WorkerId)
    (waiting : List WorkerId) :
    (interpreter.rebooked limit calls passes).pullStep current waiting =
      (interpreter.pullStep current waiting).map
        (fun left => left.rebooked limit calls passes) := by
  have fires := fireTop_rebooked limit calls passes interpreter current waiting
  have due (firing : Nat) : (interpreter.rebooked limit calls passes).dueSender? current firing =
      interpreter.dueSender? current firing := rfl
  have producer (worker : Worker β μ) (input : Nat) :
      (interpreter.rebooked limit calls passes).producer? worker input =
        interpreter.producer? worker input := rfl
  have graph : (interpreter.rebooked limit calls passes).graph = interpreter.graph := rfl
  unfold pullStep
  rw [graph]
  cases interpreter.graph.worker? current with
  | none => rfl
  | some worker =>
      dsimp only
      split
      next => rfl
      next =>
        rw [due]
        cases worker.starvedInput interpreter.graph.bank with
        | error error => rfl
        | ok starved =>
            cases starved with
            | some input =>
                dsimp only
                rw [producer]
                cases interpreter.producer? worker input with
                | none => rfl
                | some feeder => rfl
            | none =>
                dsimp only
                cases interpreter.dueSender? current worker.upcoming with
                | some sender => rfl
                | none => exact fires

private theorem pullSteps_rebooked (fuel : Nat) (stack : List WorkerId)
    (interpreter : Interpreter β α μ) :
    pullSteps fuel stack (interpreter.rebooked limit calls passes) =
      (pullSteps fuel stack interpreter).map
        (Prod.map id (fun left => left.rebooked limit calls passes)) := by
  induction fuel generalizing stack interpreter with
  | zero => rfl
  | succ fuel inductionHypothesis =>
      cases stack with
      | nil => rfl
      | cons current waiting =>
          unfold pullSteps
          rw [pullStep_rebooked]
          cases interpreter.pullStep current waiting with
          | stop answer left => rfl
          | proceed stack left => exact inductionHypothesis stack left

private theorem pass_rebooked (fuel : Nat) (fired : Bool) (pending : List WorkerId)
    (interpreter : Interpreter β α μ) :
    pass fuel fired pending (interpreter.rebooked limit calls passes) =
      (pass fuel fired pending interpreter).map
        (Prod.map id (fun left => left.rebooked limit calls passes)) := by
  induction pending generalizing fired interpreter with
  | nil => rfl
  | cons sink rest inductionHypothesis =>
      have pulled : (interpreter.rebooked limit calls passes).pull fuel sink =
          (interpreter.pull fuel sink).map
            (Prod.map id (fun left => left.rebooked limit calls passes)) :=
        pullSteps_rebooked limit calls passes fuel [sink]
          { interpreter with
            stats := { interpreter.stats with pulls := interpreter.stats.pulls + 1 } }
      unfold pass
      rw [pulled]
      cases interpreter.pull fuel sink with
      | none => rfl
      | some outcome =>
          rcases outcome with ⟨answer, left⟩
          cases answer with
          | error error => rfl
          | ok progress => exact inductionHypothesis (fired || progress) left

end

def round (fuel : Nat) (interpreter : Interpreter β α μ) :
    Option (Outcome Bool (Interpreter β α μ)) :=
  pass fuel false interpreter.sinks
    { interpreter with
      stats := { interpreter.stats with passes := interpreter.stats.passes + 1 } }

theorem round_rebooked (limit : Option Nat) (calls passes fuel : Nat)
    (interpreter : Interpreter β α μ) :
    (interpreter.rebooked limit calls passes).round fuel =
      (interpreter.round fuel).map
        (Prod.map id (fun left => left.rebooked limit calls (passes + 1))) :=
  pass_rebooked limit calls (passes + 1) fuel false interpreter.sinks
    { interpreter with
      stats := { interpreter.stats with passes := interpreter.stats.passes + 1 } }

theorem passes_round {fuel : Nat} {interpreter left : Interpreter β α μ}
    {answer : Except Error Bool} (run : interpreter.round fuel = some (answer, left)) :
    left.stats.passes = interpreter.stats.passes + 1 := by
  have own := round_rebooked interpreter.maxPasses interpreter.stats.interpretCalls
    interpreter.stats.passes fuel interpreter
  change interpreter.round fuel = _ at own
  rw [run, Option.map_some, Option.some.injEq, Prod.map_apply, Prod.mk.injEq] at own
  exact congrArg (fun now : Interpreter β α μ => now.stats.passes) own.2

theorem pullSteps_mono {fuel more : Nat} (enough : fuel ≤ more) {stack : List WorkerId}
    {interpreter : Interpreter β α μ} {outcome : Outcome Bool (Interpreter β α μ)}
    (run : pullSteps fuel stack interpreter = some outcome) :
    pullSteps more stack interpreter = some outcome := by
  induction fuel generalizing more stack interpreter with
  | zero => cases run
  | succ fuel inductionHypothesis =>
      obtain ⟨more, rfl⟩ : ∃ count, more = count + 1 := ⟨more - 1, by omega⟩
      cases stack with
      | nil => exact run
      | cons current waiting =>
          unfold pullSteps at run ⊢
          cases step : interpreter.pullStep current waiting with
          | stop answer left =>
              rw [step] at run
              exact run
          | proceed stack left =>
              rw [step] at run
              exact inductionHypothesis (Nat.le_of_succ_le_succ enough) run

private theorem pass_mono {fuel more : Nat} (enough : fuel ≤ more) {fired : Bool}
    {pending : List WorkerId} {interpreter : Interpreter β α μ}
    {outcome : Outcome Bool (Interpreter β α μ)}
    (run : pass fuel fired pending interpreter = some outcome) :
    pass more fired pending interpreter = some outcome := by
  induction pending generalizing fired interpreter with
  | nil => exact run
  | cons sink rest inductionHypothesis =>
      unfold pass at run ⊢
      cases pulled : interpreter.pull fuel sink with
      | none =>
          rw [pulled] at run
          cases run
      | some first =>
          have same : interpreter.pull more sink = some first := pullSteps_mono enough pulled
          rw [pulled] at run
          rw [same]
          rcases first with ⟨answer, left⟩
          cases answer with
          | error error => exact run
          | ok progress => exact inductionHypothesis run

theorem round_mono {fuel more : Nat} (enough : fuel ≤ more) {interpreter : Interpreter β α μ}
    {outcome : Outcome Bool (Interpreter β α μ)} (run : interpreter.round fuel = some outcome) :
    interpreter.round more = some outcome :=
  pass_mono enough run

inductive Rounds (fuel : Nat) : Nat → Interpreter β α μ → Interpreter β α μ → Prop where
  | none {interpreter : Interpreter β α μ} : Rounds fuel 0 interpreter interpreter
  | more {count : Nat} {interpreter next last : Interpreter β α μ}
      (first : interpreter.round fuel = some (.ok true, next))
      (rest : Rounds fuel count next last) : Rounds fuel (count + 1) interpreter last

theorem Rounds.mono {fuel more : Nat} (enough : fuel ≤ more) {count : Nat}
    {interpreter last : Interpreter β α μ} (rounds : Rounds fuel count interpreter last) :
    Rounds more count interpreter last := by
  induction rounds with
  | none => exact .none
  | more first rest inductionHypothesis => exact .more (round_mono enough first) inductionHypothesis

private theorem Rounds.split {fuel first second : Nat} {interpreter last : Interpreter β α μ}
    (rounds : Rounds fuel (first + second) interpreter last) :
    ∃ middle, Rounds fuel first interpreter middle ∧ Rounds fuel second middle last := by
  induction first generalizing interpreter with
  | zero =>
      rw [Nat.zero_add] at rounds
      exact ⟨interpreter, .none, rounds⟩
  | succ first inductionHypothesis =>
      rw [Nat.succ_add] at rounds
      cases rounds with
      | more head rest =>
          obtain ⟨middle, before, after⟩ := inductionHypothesis rest
          exact ⟨middle, .more head before, after⟩

private theorem Rounds.passes_eq {fuel count : Nat} {interpreter last : Interpreter β α μ}
    (rounds : Rounds fuel count interpreter last) :
    last.stats.passes = interpreter.stats.passes + count := by
  induction rounds with
  | none => rfl
  | more first rest inductionHypothesis =>
      rw [inductionHypothesis, passes_round first]
      omega

/-- A successful call without a limit is a number of rounds with progress and one without. -/
theorem rounds_of_passes {pullFuel fuel : Nat} {everFired progress : Bool}
    {interpreter left : Interpreter β α μ}
    (run : passes pullFuel fuel none everFired interpreter = some (.ok progress, left)) :
    ∃ count last, count < fuel ∧ Rounds pullFuel count interpreter last ∧
      last.round pullFuel = some (.ok false, left) := by
  induction fuel generalizing everFired interpreter with
  | zero => cases run
  | succ fuel inductionHypothesis =>
      rcases passes_view run with
        ⟨limit, _⟩ | ⟨error, _, wrong⟩ | ⟨idle, _⟩ | ⟨after, fired, rest⟩
      · cases limit
      · cases wrong
      · exact ⟨0, interpreter, Nat.succ_pos fuel, .none, idle⟩
      · obtain ⟨count, last, within, rounds, idle⟩ := inductionHypothesis rest
        exact ⟨count + 1, last, Nat.succ_lt_succ within, .more fired rounds, idle⟩

/-! ### Limited calls -/

/-- The rounds of an unlimited run, as the first passes of a call with a limit. -/
theorem Rounds.passes_limited {pullFuel count : Nat} {interpreter last : Interpreter β α μ}
    (rounds : Rounds pullFuel count interpreter last) (limit : Option Nat)
    (calls fuel room done : Nat) (everFired : Bool) :
    passes pullFuel (fuel + count) (some (room + count)) everFired
        (interpreter.rebooked limit calls done) =
      passes pullFuel fuel (some room) (everFired || decide (0 < count))
        (last.rebooked limit calls (done + count)) := by
  induction rounds generalizing done everFired with
  | none => simp only [Nat.add_zero, lt_self_iff_false, decide_false, Bool.or_false]
  | @more count interpreter next last first rest inductionHypothesis =>
      have step : (interpreter.rebooked limit calls done).round pullFuel =
          some (.ok true, next.rebooked limit calls (done + 1)) := by
        rw [round_rebooked, first]
        rfl
      have later := inductionHypothesis (done + 1) true
      have head : passes pullFuel (fuel + (count + 1)) (some (room + (count + 1))) everFired
          (interpreter.rebooked limit calls done) =
          goOn pullFuel (fuel + count) (some (room + (count + 1))) everFired
            ((interpreter.rebooked limit calls done).round pullFuel) :=
        passes_eq_goOn (by simp) pullFuel (fuel + count) everFired _
      rw [head, step]
      change passes pullFuel (fuel + count) (some (room + count)) true _ = _
      rw [later, Nat.add_assoc done 1 count, Nat.add_comm 1 count]
      simp only [Bool.true_or, Nat.zero_lt_succ, decide_true, Bool.or_true]

private theorem interpret_of_rounds {bound count fuel : Nat}
    {interpreter last left : Interpreter β α μ}
    (rounds : Rounds fuel count interpreter last)
    (idle : last.round fuel = some (.ok false, left)) (room : count < bound)
    (enough : count < fuel) (calls done : Nat) :
    (interpreter.rebooked (some bound) calls done).interpret fuel =
      some (.ok (decide (0 < count)),
        left.rebooked (some bound) (calls + 1) (done + count + 1)) := by
  have cut := rounds.passes_limited (some bound) (calls + 1) (fuel - count) (bound - count) done
    false
  rw [Nat.sub_add_cancel (Nat.le_of_lt enough), Nat.sub_add_cancel (Nat.le_of_lt room),
    Bool.false_or] at cut
  have finished : (last.rebooked (some bound) (calls + 1) (done + count)).round fuel =
      some (.ok false, left.rebooked (some bound) (calls + 1) (done + count + 1)) := by
    rw [round_rebooked, idle]
    rfl
  obtain ⟨spare, same⟩ : ∃ spare, fuel - count = spare + 1 := ⟨fuel - count - 1, by omega⟩
  have head : passes fuel (spare + 1) (some (bound - count)) (decide (0 < count))
      (last.rebooked (some bound) (calls + 1) (done + count)) =
      goOn fuel spare (some (bound - count)) (decide (0 < count))
        ((last.rebooked (some bound) (calls + 1) (done + count)).round fuel) :=
    passes_eq_goOn (by simp; omega) fuel spare _ _
  change passes fuel fuel (some bound) false
    (interpreter.rebooked (some bound) (calls + 1) done) = _
  rw [cut, same, head, finished]
  rfl

private theorem interpret_of_limit {bound fuel : Nat} {interpreter last : Interpreter β α μ}
    (rounds : Rounds fuel bound interpreter last) (enough : bound < fuel) (calls done : Nat) :
    (interpreter.rebooked (some bound) calls done).interpret fuel =
      some (.ok (decide (0 < bound)), last.rebooked (some bound) (calls + 1) (done + bound)) := by
  have cut := rounds.passes_limited (some bound) (calls + 1) (fuel - bound) 0 done false
  rw [Nat.sub_add_cancel (Nat.le_of_lt enough), Nat.zero_add, Bool.false_or] at cut
  obtain ⟨spare, same⟩ : ∃ spare, fuel - bound = spare + 1 := ⟨fuel - bound - 1, by omega⟩
  change passes fuel fuel (some bound) false
    (interpreter.rebooked (some bound) (calls + 1) done) = _
  rw [cut, same]
  rfl

/-- Calls one after another, all of them successful, up to the first one that has made no
progress. -/
inductive UntilIdle (fuel : Nat) : Interpreter β α μ → Nat → Interpreter β α μ → Prop where
  | idle {interpreter left : Interpreter β α μ}
      (run : interpreter.interpret fuel = some (.ok false, left)) :
      UntilIdle fuel interpreter 1 left
  | again {interpreter next left : Interpreter β α μ} {calls : Nat}
      (run : interpreter.interpret fuel = some (.ok true, next))
      (rest : UntilIdle fuel next calls left) : UntilIdle fuel interpreter (calls + 1) left

/-- Calls with a limit perform the rounds of an unlimited run and its idle pass. Only if the
call that gets to the idle pass has made progress before, there is one more. -/
theorem untilIdle_of_rounds {bound enough count : Nat} (positive : 0 < bound)
    {interpreter last left rested : Interpreter β α μ}
    (rounds : Rounds enough count interpreter last)
    (idle : last.round enough = some (.ok false, left))
    (idleAgain : left.round enough = some (.ok false, rested)) (within : count < enough)
    (before done : Nat) :
    ∃ calls counted final,
      (∀ fuel, enough ≤ fuel →
        UntilIdle fuel (interpreter.rebooked (some bound) before done) calls final) ∧
      (final = left.rebooked (some bound) counted (done + count + 1) ∨
        final = rested.rebooked (some bound) counted (done + count + 1 + 1)) := by
  induction count using Nat.strong_induction_on generalizing interpreter before done with
  | _ count inductionHypothesis =>
      rcases Nat.lt_or_ge count bound with room | full
      · have call (fuel : Nat) (larger : enough ≤ fuel) :=
          interpret_of_rounds (rounds.mono larger) (round_mono larger idle) room
            (Nat.lt_of_lt_of_le within larger) before done
        rcases Nat.eq_zero_or_pos count with rfl | progress
        · exact ⟨1, _, _, fun fuel larger => .idle (call fuel larger), .inl rfl⟩
        · have rest (fuel : Nat) (larger : enough ≤ fuel) :=
            interpret_of_rounds .none (round_mono larger idleAgain) positive
              (Nat.lt_of_lt_of_le (Nat.zero_lt_of_lt within) larger) (before + 1)
              (done + count + 1)
          simp only [progress, decide_true] at call
          exact ⟨2, _, _, fun fuel larger => .again (call fuel larger) (.idle (rest fuel larger)),
            .inr rfl⟩
      · obtain ⟨remaining, rfl⟩ := Nat.exists_eq_add_of_le full
        obtain ⟨middle, first, later⟩ := rounds.split
        have call (fuel : Nat) (larger : enough ≤ fuel) :=
          interpret_of_limit (first.mono larger) (show bound < fuel by omega) before done
        simp only [positive, decide_true] at call
        obtain ⟨calls, counted, final, run, ends⟩ :=
          inductionHypothesis remaining (by omega) later (by omega) (before + 1) (done + bound)
        refine ⟨calls + 1, counted, final,
          fun fuel larger => .again (call fuel larger) (run fuel larger), ?_⟩
        rwa [Nat.add_assoc done bound remaining] at ends

/-- After a successful call without a limit, one more pass over the sinks fires nobody. -/
theorem round_of_jammed {interpreter : Interpreter β α μ} (orderly : interpreter.Orderly)
    (jammed : interpreter.AllJammed interpreter.sinks) {fuel : Nat}
    (enough : interpreter.members.length < fuel) :
    ∃ rested, interpreter.round fuel = some (.ok false, rested) ∧
      rested.graph = interpreter.graph ∧ rested.journal = interpreter.journal := by
  let counted : Interpreter β α μ := { interpreter with
    stats := { interpreter.stats with passes := interpreter.stats.passes + 1 } }
  have countedOrderly : counted.Orderly := orderly.of_frame_eq rfl
  have countedJammed : counted.AllJammed interpreter.sinks := jammed.counted orderly rfl rfl
  exact ⟨_, pass_of_jammed countedOrderly countedJammed orderly.sound.sinks enough, rfl, rfl⟩

omit [Recipient β μ] [Work β α μ] in
private theorem Orderly.configure {interpreter : Interpreter β α μ} (orderly : interpreter.Orderly)
    (delegate : Delegate) (limit : Option Nat) :
    { interpreter with delegate := delegate, maxPasses := limit }.Orderly where
  sound := { orderly.sound with }
  unshared := orderly.unshared
  nondecreasing := orderly.nondecreasing

/-- A limit on passes only cuts a run into pieces: wherever a call without a limit succeeds,
limited calls that are repeated until one makes no progress all succeed, come to an end, fire
the same workers in the same order and leave the same graph, in as many passes or one more. -/
theorem limit_only_cuts_the_run [Signature β] {graph : Graph β α μ} (descends : graph.Descends)
    (unshared : graph.bank.Unshared)
    (nondecreasing : ∀ constraint ∈ graph.constraints, constraint.schedule.Nondecreasing)
    {workers : List WorkerId} {given : List Constraint}
    (taken : ∀ constraint ∈ given, constraint ∈ graph.constraints)
    {start interpreter whole : Interpreter β α μ} (opened : Opens graph workers given start)
    (operated : start.Operated interpreter) {fuel : Nat} {progress : Bool}
    (unlimited : { interpreter with maxPasses := none }.interpret fuel =
      some (.ok progress, whole)) {limit : Nat} (positive : 0 < limit) :
    ∃ calls last,
      (∀ more, fuel ≤ more → interpreter.members.length < more →
        { interpreter with maxPasses := some limit }.UntilIdle more calls last) ∧
      last.graph = whole.graph ∧ last.journal = whole.journal ∧
      (last.stats.passes = whole.stats.passes ∨
        last.stats.passes = whole.stats.passes + 1) := by
  have startOrderly : start.Orderly := by
    refine ⟨opened.frame_sound descends.sound, ?_, ?_⟩
    · rw [opened.graph_eq]
      exact unshared
    · intro constraint member
      exact nondecreasing constraint (taken constraint (opened.given constraint member))
  have orderly := operated.keeps Orderly (fun same before => before.of_frame_eq same)
    (fun delegate limit before => before.configure delegate limit) startOrderly
  have freeOrderly := orderly.configure interpreter.delegate none
  have jammed := interpret_jams freeOrderly rfl unlimited
  have frame := interpret_frame unlimited
  have members : whole.members = interpreter.members :=
    congrArg InterpreterFrame.members frame
  obtain ⟨count, last, within, rounds, idle⟩ := rounds_of_passes unlimited
  have fuelEnough : fuel ≤ max fuel (interpreter.members.length + 1) := Nat.le_max_left ..
  obtain ⟨rested, idleAgain, sameGraph, sameJournal⟩ :=
    round_of_jammed (freeOrderly.of_frame_eq frame) jammed
      (show whole.members.length < max fuel (interpreter.members.length + 1) by
        rw [members]
        omega)
  have passed : whole.stats.passes = interpreter.stats.passes + count + 1 := by
    rw [passes_round idle, rounds.passes_eq]
  obtain ⟨calls, counted, final, run, ends⟩ :=
    untilIdle_of_rounds positive (rounds.mono fuelEnough) (round_mono fuelEnough idle) idleAgain
      (by omega) interpreter.stats.interpretCalls interpreter.stats.passes
  refine ⟨calls, final, fun more larger roomy => run more (by omega), ?_⟩
  rcases ends with rfl | rfl
  · exact ⟨rfl, rfl, .inl passed.symm⟩
  · exact ⟨sameGraph, sameJournal, .inr (congrArg (· + 1) passed.symm)⟩

/-- Two elements, which take two passes with progress and an idle one. -/
theorem limit_only_cuts_the_run_twin : ∃ fed whole calls last,
    twinInterpreter.pushAll? 0 [4, 5] = some fed ∧
      { fed with maxPasses := none }.interpret 9 = some (.ok true, whole) ∧
      whole.journal = [0, 1, 2, 0, 1, 2] ∧ whole.stats.passes = 3 ∧
      { fed with maxPasses := some 1 }.UntilIdle 9 calls last ∧ last.graph = whole.graph ∧
      last.journal = whole.journal ∧
      (last.stats.passes = whole.stats.passes ∨
        last.stats.passes = whole.stats.passes + 1) := by
  obtain ⟨fed, whole, push, run, journal, passes, members⟩ : ∃ fed whole,
      twinInterpreter.pushAll? 0 [4, 5] = some fed ∧
        { fed with maxPasses := none }.interpret 9 = some (.ok true, whole) ∧
        whole.journal = [0, 1, 2, 0, 1, 2] ∧ whole.stats.passes = 3 ∧ fed.members.length = 3 :=
    ⟨_, _, rfl, rfl, rfl, rfl, rfl⟩
  obtain ⟨calls, last, limited, same⟩ := limit_only_cuts_the_run twinGraph_built.descends
    twinGraph_unshared twinGraph_nondecreasing (fun _ member => member) twinInterpreter_opens
    (.traffic .start (.push 0 [4, 5] push)) run (show 0 < 1 by decide)
  exact ⟨fed, whole, calls, last, push, run, journal, passes,
    limited 9 (Nat.le_refl 9) (by omega), same⟩

end Interpreter

end DemandFlow
