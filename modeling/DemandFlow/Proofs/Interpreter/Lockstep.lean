import DemandFlow.Proofs.Graph.Glimpse
import DemandFlow.Proofs.Interpreter.Run

/-!
Interpreters in lockstep. If related interpreters look at the same stack with the same result,
up to errors that set them apart, then whole calls of them go alike up to such errors. This is
so for interpreters that differ in their journals, and for an interpreter whose channels
somebody looks at and one whose channels nobody looks at.
-/

set_option autoImplicit false

namespace DemandFlow

variable {β α μ : Type}

/-- How two looks at the same stack compare. Both come to the same, or one of them to an error
that sets the two apart. -/
inductive PullStep.Together (related : Interpreter β α μ → Interpreter β α μ → Prop)
    (parts : Error → Prop) : PullStep β α μ → PullStep β α μ → Prop where
  | stop (answer : Except Error Bool) {left right : Interpreter β α μ}
      (kept : related left right) :
      PullStep.Together related parts (.stop answer left) (.stop answer right)
  | proceed (stack : List WorkerId) {left right : Interpreter β α μ}
      (kept : related left right) :
      PullStep.Together related parts (.proceed stack left) (.proceed stack right)
  | left {error : Error} (apart : parts error) (state : Interpreter β α μ)
      (other : PullStep β α μ) :
      PullStep.Together related parts (.stop (.error error) state) other
  | right {error : Error} (apart : parts error) (state : Interpreter β α μ)
      (other : PullStep β α μ) :
      PullStep.Together related parts other (.stop (.error error) state)

namespace Interpreter

variable [Recipient β μ] [Work β α μ]

/-- Related interpreters have the same sinks and the same limit, count alike, and look alike. -/
structure Lockstep (related : Interpreter β α μ → Interpreter β α μ → Prop)
    (parts : Error → Prop) : Prop where
  sinks : ∀ {left right}, related left right → left.sinks = right.sinks
  limit : ∀ {left right}, related left right → left.maxPasses = right.maxPasses
  counted : ∀ {left right}, related left right →
    ∀ change : InterpreterStats → InterpreterStats,
      related { left with stats := change left.stats } { right with stats := change right.stats }
  look : ∀ {left right}, related left right → ∀ current waiting,
    PullStep.Together related parts (left.pullStep current waiting)
      (right.pullStep current waiting)

namespace Lockstep

variable {related : Interpreter β α μ → Interpreter β α μ → Prop} {parts : Error → Prop}
  {left right : Interpreter β α μ}

private theorem pullSteps (lockstep : Lockstep related parts) (start : related left right)
    (fuel : Nat) (stack : List WorkerId) :
    Together related parts (Interpreter.pullSteps fuel stack left)
      (Interpreter.pullSteps fuel stack right) := by
  induction fuel generalizing stack left right with
  | zero => exact .unfinished
  | succ fuel inductionHypothesis =>
      cases stack with
      | nil => exact .finished _ start
      | cons current waiting =>
          have looks := lockstep.look start current waiting
          unfold Interpreter.pullSteps
          generalize left.pullStep current waiting = leftStep at looks
          generalize right.pullStep current waiting = rightStep at looks
          cases looks with
          | stop answer kept => exact .finished answer kept
          | proceed stack kept => exact inductionHypothesis kept stack
          | left apart => exact .left apart _ _
          | right apart => exact .right apart _ _

private theorem pass (lockstep : Lockstep related parts) (start : related left right) (fuel : Nat)
    (fired : Bool) (pending : List WorkerId) :
    Together related parts (Interpreter.pass fuel fired pending left)
      (Interpreter.pass fuel fired pending right) := by
  induction pending generalizing fired left right with
  | nil => exact .finished _ start
  | cons sink rest inductionHypothesis =>
      have counted := lockstep.counted start fun stats => { stats with pulls := stats.pulls + 1 }
      have pulled := lockstep.pullSteps counted fuel [sink]
      change Together _ _ (left.pull fuel sink) (right.pull fuel sink) at pulled
      unfold Interpreter.pass
      generalize left.pull fuel sink = leftOutcome at pulled
      generalize right.pull fuel sink = rightOutcome at pulled
      cases pulled with
      | unfinished => exact .unfinished
      | left apart => exact .left apart _ _
      | right apart => exact .right apart _ _
      | finished answer kept =>
          cases answer with
          | error error => exact .finished _ kept
          | ok progress => exact inductionHypothesis kept _

private theorem passes (lockstep : Lockstep related parts) (start : related left right)
    (pullFuel fuel : Nat) (remaining : Option Nat) (everFired : Bool) :
    Together related parts (Interpreter.passes pullFuel fuel remaining everFired left)
      (Interpreter.passes pullFuel fuel remaining everFired right) := by
  induction fuel generalizing remaining everFired left right with
  | zero => exact .unfinished
  | succ fuel inductionHypothesis =>
      by_cases limit : remaining = some 0
      · subst limit
        exact .finished _ start
      · have counted := lockstep.counted start fun stats =>
          { stats with passes := stats.passes + 1 }
        have passed := lockstep.pass counted pullFuel false left.sinks
        have goes : Interpreter.passes pullFuel (fuel + 1) remaining everFired right =
            goOn pullFuel fuel remaining everFired (Interpreter.pass pullFuel false left.sinks
              { right with stats := { right.stats with passes := right.stats.passes + 1 } }) := by
          rw [lockstep.sinks start]
          exact passes_eq_goOn limit pullFuel fuel everFired right
        rw [passes_eq_goOn limit, goes]
        generalize Interpreter.pass pullFuel false left.sinks { left with stats := _ } =
          leftOutcome at passed
        generalize Interpreter.pass pullFuel false left.sinks { right with stats := _ } =
          rightOutcome at passed
        cases passed with
        | unfinished => exact .unfinished
        | left apart => exact .left apart _ _
        | right apart => exact .right apart _ _
        | finished answer kept =>
            cases answer with
            | error error => exact .finished _ kept
            | ok progress =>
                cases progress with
                | false => exact .finished _ kept
                | true => exact inductionHypothesis kept _ _

theorem interpret (lockstep : Lockstep related parts) (start : related left right) (fuel : Nat) :
    Together related parts (left.interpret fuel) (right.interpret fuel) := by
  have counted := lockstep.counted start fun stats =>
    { stats with interpretCalls := stats.interpretCalls + 1 }
  have called : right.interpret fuel = Interpreter.passes fuel fuel left.maxPasses false
      { right with
        stats := { right.stats with interpretCalls := right.stats.interpretCalls + 1 } } := by
    rw [lockstep.limit start]
    rfl
  rw [called]
  exact lockstep.passes counted fuel fuel left.maxPasses false

end Lockstep

def SameButJournal (left right : Interpreter β α μ) : Prop :=
  left = { right with journal := left.journal }

def withoutJournal (interpreter : Interpreter β α μ) : Interpreter β α μ :=
  { interpreter with journal := [] }

omit [Recipient β μ] [Work β α μ] in
private theorem SameButJournal.withoutJournal_eq {left right : Interpreter β α μ}
    (same : SameButJournal left right) : left.withoutJournal = right.withoutJournal := by
  unfold withoutJournal
  rw [same]

private theorem SameButJournal.fireTop {left right : Interpreter β α μ}
    (same : SameButJournal left right) (current : WorkerId) (waiting : List WorkerId) :
    PullStep.Together SameButJournal (fun _ => False) (left.fireTop current waiting)
      (right.fireTop current waiting) := by
  rw [same]
  unfold Interpreter.fireTop
  dsimp only [countFiring]
  rcases right.graph.fire current with ⟨answer, graph⟩
  cases answer with
  | error error => exact .stop _ rfl
  | ok done =>
      dsimp only
      rcases right.delegate.afterFire (right.stats.firings + 1) graph current with
        ⟨verdict, after⟩
      cases verdict with
      | error error => exact .stop _ rfl
      | ok accepted => exact .proceed _ rfl

private theorem SameButJournal.look {left right : Interpreter β α μ}
    (same : SameButJournal left right) (current : WorkerId) (waiting : List WorkerId) :
    PullStep.Together SameButJournal (fun _ => False) (left.pullStep current waiting)
      (right.pullStep current waiting) := by
  have fires := same.fireTop current waiting
  rw [same] at fires ⊢
  have due (firing : Nat) : { right with journal := left.journal }.dueSender? current firing =
      right.dueSender? current firing := rfl
  have producer (worker : Worker β μ) (input : Nat) :
      { right with journal := left.journal }.producer? worker input =
        right.producer? worker input := rfl
  unfold pullStep
  dsimp only
  cases right.graph.worker? current with
  | none => exact .stop _ rfl
  | some worker =>
      dsimp only
      rw [due]
      split
      next => exact .stop _ rfl
      next =>
        split
        next => exact .stop _ rfl
        next input _ =>
          rw [producer]
          split
          next => exact .proceed _ rfl
          next => exact .stop _ rfl
        next =>
          split
          next => exact .proceed _ rfl
          next => exact fires

private theorem sameButJournal_lockstep :
    Lockstep (SameButJournal (β := β) (α := α) (μ := μ)) (fun _ => False) where
  sinks := fun same => by rw [same]
  limit := fun same => by rw [same]
  counted := fun same change => by
    rw [same]
    rfl
  look := fun same => same.look

/-- The journal is a record only. A call that starts with another one gives the same answer and
leaves the same interpreter but for what is written in the journal. -/
theorem interpret_ignores_journal (interpreter : Interpreter β α μ) (journal : List WorkerId)
    (fuel : Nat) :
    ({ interpreter with journal := journal }.interpret fuel).map (Prod.map id withoutJournal) =
      (interpreter.interpret fuel).map (Prod.map id withoutJournal) := by
  have same : SameButJournal { interpreter with journal := journal } interpreter := rfl
  have calls := sameButJournal_lockstep.interpret same fuel
  generalize { interpreter with journal := journal }.interpret fuel = other at calls
  generalize interpreter.interpret fuel = outcome at calls
  cases calls with
  | unfinished => rfl
  | left apart => exact apart.elim
  | right apart => exact apart.elim
  | finished answer kept =>
      dsimp only [Option.map_some, Prod.map]
      rw [kept.withoutJournal_eq]

/-- The first interpreter is the second one, but for looks from outside at channels, and both
are made as the given one is. -/
structure Watched (made : Interpreter β α μ) (seen : ChannelId → Nat → Prop)
    (watched plain : Interpreter β α μ) : Prop where
  rest : watched = plain.withBank watched.graph.bank
  bank : watched.graph.bank.Glimpsed seen plain.graph.bank
  frame : plain.frame = made.frame

def Exposed (made : Interpreter β α μ) (seen : ChannelId → Nat → Prop) (error : Error) : Prop :=
  made.delegate.audits = true ∧ made.graph.Noticed seen error

variable {made watched plain : Interpreter β α μ} {seen : ChannelId → Nat → Prop}

private theorem Watched.fireTop (same : Watched made seen watched plain) (current : WorkerId)
    (waiting : List WorkerId) :
    PullStep.Together (Watched made seen) (made.Exposed seen) (watched.fireTop current waiting)
      (plain.fireTop current waiting) := by
  have graphFrame : plain.graph.frame = made.graph.frame :=
    congrArg InterpreterFrame.graph same.frame
  have delegate : plain.delegate = made.delegate := congrArg InterpreterFrame.delegate same.frame
  have framed {graph : Graph β α μ} (kept : graph.frame = plain.graph.frame)
      (stats : InterpreterStats) (journal : List WorkerId) :
      ({ plain with graph := graph, stats := stats, journal := journal } :
        Interpreter β α μ).frame = made.frame := by
    rw [← same.frame]
    unfold Interpreter.frame
    rw [kept]
  -- The firing itself goes alike, so the two can part at its audit only.
  have firedFrame := plain.graph.frame_fire current
  rcases plain.graph.fire_withBank (Bank.glimpsed_keptByRequests seen) same.bank current with
    ⟨after, firing, kept⟩
  rw [same.rest]
  unfold Interpreter.fireTop
  dsimp only [withBank, countFiring]
  rcases outcome : plain.graph.fire current with ⟨answer, graph⟩
  rw [outcome] at firing kept firedFrame
  rw [firing]
  cases answer with
  | error error => exact .stop _ ⟨rfl, kept, framed firedFrame _ _⟩
  | ok done =>
      have follows := plain.delegate.afterFire_glimpsed (plain.stats.firings + 1) graph kept current
      have followFrame :=
        (plain.delegate.afterFire_sameButCounts (plain.stats.firings + 1) graph current).2.1
      dsimp only at follows ⊢
      generalize plain.delegate.afterFire _ { graph with bank := after } current = watchedFollow
        at follows
      generalize plain.delegate.afterFire _ graph current = plainFollow at follows followFrame
      have exposed {error : Error}
          (apart : plain.delegate.audits = true ∧ graph.Noticed seen error) :
          made.Exposed seen error :=
        ⟨delegate ▸ apart.1, apart.2.of_frame_eq (firedFrame.trans graphFrame)⟩
      cases follows with
      | left apart => exact .left (exposed apart) _ _
      | right apart => exact .right (exposed apart) _ _
      | @finished verdict left right audited =>
          have settled : Watched made seen
              { plain with
                graph := left
                stats := { plain.stats with firings := plain.stats.firings + 1 }
                journal := plain.journal ++ [current] }
              { plain with
                graph := right
                stats := { plain.stats with firings := plain.stats.firings + 1 }
                journal := plain.journal ++ [current] } := by
            refine ⟨?_, audited.bank, framed (followFrame.trans firedFrame) _ _⟩
            unfold withBank
            rw [← audited.rest]
          cases verdict with
          | error error => exact .stop _ settled
          | ok accepted => exact .proceed _ settled

private theorem Watched.look (same : Watched made seen watched plain) (current : WorkerId)
    (waiting : List WorkerId) :
    PullStep.Together (Watched made seen) (made.Exposed seen) (watched.pullStep current waiting)
      (plain.pullStep current waiting) := by
  have workers : watched.graph.worker? current = plain.graph.worker? current := by
    rw [same.rest]
    rfl
  have due (worker : Worker β μ) : watched.dueSender? current worker.upcoming =
      plain.dueSender? current worker.upcoming := by
    rw [same.rest]
    rfl
  have producer (worker : Worker β μ) (input : Nat) :
      watched.producer? worker input = plain.producer? worker input := by
    rw [same.rest]
    rfl
  unfold pullStep
  rw [workers]
  cases plain.graph.worker? current with
  | none => exact .stop _ same
  | some worker =>
      dsimp only
      have starved : worker.starvedInput watched.graph.bank =
          worker.starvedInput plain.graph.bank :=
        worker.starvedFrom_sameItems same.bank.items 0 _
      rw [starved, due]
      split
      next => exact .stop _ same
      next =>
        split
        next => exact .stop _ same
        next input _ =>
          rw [producer]
          split
          next => exact .proceed _ same
          next =>
            refine .stop _ ⟨?_, same.bank, same.frame⟩
            rw [same.rest]
            rfl
        next =>
          split
          next => exact .proceed _ same
          next => exact same.fireTop current waiting

theorem watched_lockstep (made : Interpreter β α μ) (seen : ChannelId → Nat → Prop) :
    Lockstep (Watched made seen) (made.Exposed seen) where
  sinks := fun same => by rw [same.rest]; rfl
  limit := fun same => by rw [same.rest]; rfl
  counted := fun same change => ⟨by rw [same.rest]; rfl, same.bank, same.frame⟩
  look := fun same => same.look

end Interpreter

end DemandFlow
