import Mathlib.Logic.Relation
import DemandFlow.Proofs.Interpreter.Limit

/-!
Calls come to an end where firings do. A look that fires nobody puts one more worker of the
section on the stack, and no worker is on it twice, so between two firings there are only so
many looks. A pass that goes on to another one has fired somebody. Hence a call ends, with
whatever answer, wherever there is no infinite sequence of firings.
-/

set_option autoImplicit false

namespace DemandFlow.Interpreter

open Relation

variable {β α μ : Type}

def bare (interpreter : Interpreter β α μ) : Interpreter β α μ :=
  { interpreter with stats := {} }

variable [Recipient β μ] [Work β α μ]

/-- A look that fires a worker of the section leads from the second state to the first, with
some statistics or other. -/
def Turn (after before : Interpreter β α μ) : Prop :=
  ∃ (stats : InterpreterStats) (current : WorkerId) (waiting : List WorkerId)
    (left : Interpreter β α μ), current ∈ before.members ∧
    PullView { before with stats := stats } current waiting (.proceed waiting left) ∧
    after = left.bare

/-- A look that goes on has put one more worker on the stack, or it has fired the top. -/
theorem PullView.turns {now left : Interpreter β α μ} {current : WorkerId}
    {waiting stack : List WorkerId} (view : PullView now current waiting (.proceed stack left))
    (inside : current ∈ now.members) :
    (current ∉ waiting ∧ left = now ∧ ∃ peer, stack = peer :: current :: waiting) ∨
      stack = waiting ∧ Turn left.bare now.bare := by
  cases view with
  | @feeder worker input producer known free starved feeds =>
      exact .inl ⟨free, rfl, producer, rfl⟩
  | @sender worker sender known free fed due => exact .inl ⟨free, rfl, sender, rfl⟩
  | fired ready free firing follow =>
      exact .inr ⟨rfl, now.stats, current, waiting, _, inside,
        .fired ready free firing follow, rfl⟩

theorem pullSteps_turns {fuel : Nat} {stack : List WorkerId} {now left : Interpreter β α μ}
    {progress : Bool} (sound : now.frame.Sound) (members : ∀ id ∈ stack, id ∈ now.members)
    (run : pullSteps fuel stack now = some (.ok progress, left)) :
    ReflTransGen Turn left.bare now.bare ∧
      (progress = true → stack ≠ [] → TransGen Turn left.bare now.bare) := by
  refine pullSteps_induction
    (fun rest later => later.frame = now.frame ∧ (∀ id ∈ rest, id ∈ later.members) ∧
      ReflTransGen Turn later.bare now.bare ∧
      (rest = [] → stack ≠ [] → TransGen Turn later.bare now.bare))
    (fun answer later => ∀ progress, answer = .ok progress →
      ReflTransGen Turn later.bare now.bare ∧
        (progress = true → stack ≠ [] → TransGen Turn later.bare now.bare))
    ?_ ?_ ?_ run ⟨rfl, members, .refl, fun empty other => absurd empty other⟩ progress rfl
  · intro later holds progress _
    exact ⟨holds.2.2.1, fun _ => holds.2.2.2 rfl⟩
  · intro later current waiting answer last holds view progress same
    subst same
    cases view with
    | stalled known free starved outside => exact ⟨holds.2.2.1, nofun⟩
  · intro later current waiting rest last holds view
    obtain ⟨frame, within, since, _⟩ := holds
    have inside := view.inside (frame ▸ sound) within
    have lastMembers : last.members = later.members :=
      congrArg InterpreterFrame.members view.frame_left
    rw [← lastMembers] at inside
    refine ⟨view.frame_left.trans frame, inside, ?_⟩
    rcases view.turns (within current (List.mem_cons_self ..)) with
      ⟨_, rfl, peer, rfl⟩ | ⟨_, turn⟩
    · exact ⟨since, nofun⟩
    · exact ⟨.head turn since, fun _ _ => .head' turn since⟩

private theorem pass_turns {fuel : Nat} {fired : Bool} {pending : List WorkerId}
    {now left : Interpreter β α μ} {progress : Bool} (sound : now.frame.Sound)
    (members : ∀ sink ∈ pending, sink ∈ now.members)
    (run : pass fuel fired pending now = some (.ok progress, left)) :
    ReflTransGen Turn left.bare now.bare ∧
      (fired = false → progress = true → TransGen Turn left.bare now.bare) := by
  induction pending generalizing fired now with
  | nil =>
      cases run
      refine ⟨.refl, ?_⟩
      intro idle busy
      rw [idle] at busy
      cases busy
  | cons sink rest inductionHypothesis =>
      rw [List.forall_mem_cons] at members
      unfold pass at run
      split at run
      next => cases run
      next => cases run
      next first after pulled =>
        have frame := pull_frame pulled
        have afterMembers : after.members = now.members :=
          congrArg InterpreterFrame.members frame
        let counted : Interpreter β α μ := { now with
          stats := { now.stats with pulls := now.stats.pulls + 1 } }
        have steps : pullSteps fuel [sink] counted = some (.ok first, after) := pulled
        have countedSound : counted.frame.Sound := sound
        have turned :=
          pullSteps_turns countedSound (List.forall_mem_singleton.mpr members.1) steps
        have since : ReflTransGen Turn after.bare now.bare := turned.1
        have strictly (busy : first = true) : TransGen Turn after.bare now.bare :=
          turned.2 busy nofun
        obtain ⟨later, laterStrictly⟩ :=
          inductionHypothesis (frame ▸ sound) (afterMembers ▸ members.2) run
        refine ⟨later.trans since, ?_⟩
        intro idle busy
        cases first with
        | true => exact .trans_right later (strictly rfl)
        | false => exact .trans_left (laterStrictly (by rw [idle]; rfl) busy) since

/-- Between two firings a pull only puts further workers on its stack. -/
theorem pullSteps_halts {now : Interpreter β α μ} (sound : now.frame.Sound)
    (ends : Acc Turn now.bare) {stack : List WorkerId}
    (members : ∀ id ∈ stack, id ∈ now.members) (once : stack.tail.Nodup) :
    ∃ fuel outcome, pullSteps fuel stack now = some outcome := by
  obtain ⟨state, same⟩ : ∃ state, state = now.bare := ⟨now.bare, rfl⟩
  rw [← same] at ends
  induction ends generalizing now stack with
  | intro state _ afterTurn =>
      subst same
      obtain ⟨room, enough⟩ : ∃ room, now.members.length - stack.tail.length = room := ⟨_, rfl⟩
      induction room using Nat.strong_induction_on generalizing stack with
      | _ room deeper =>
          cases stack with
          | nil => exact ⟨1, _, rfl⟩
          | cons current waiting =>
              have view := now.pullStep_view current waiting
              cases step : now.pullStep current waiting with
              | stop answer left =>
                  refine ⟨1, (answer, left), ?_⟩
                  rw [pullSteps, step]
              | proceed rest left =>
                  rw [step] at view
                  have inside := members current (List.mem_cons_self ..)
                  have restIn := view.inside sound members
                  obtain ⟨fuel, outcome, run⟩ :
                      ∃ fuel outcome, pullSteps fuel rest left = some outcome := by
                    rcases view.turns inside with ⟨free, rfl, peer, rfl⟩ | ⟨rfl, turn⟩
                    · have longer : (current :: waiting).Nodup :=
                        List.nodup_cons.mpr ⟨free, once⟩
                      have within := longer.length_le_of_subset members
                      refine deeper _ ?_ restIn longer rfl
                      rw [← enough]
                      simp only [List.tail_cons, List.length_cons] at within ⊢
                      omega
                    · have leftMembers : left.members = now.members :=
                        congrArg InterpreterFrame.members view.frame_left
                      have leftFrame : left.frame = now.frame := view.frame_left
                      exact afterTurn left.bare turn (leftFrame ▸ sound)
                        (leftMembers ▸ restIn) once.tail rfl
                  refine ⟨fuel + 1, outcome, ?_⟩
                  rw [pullSteps, step]
                  exact run

theorem acc_of_turns {before after : Interpreter β α μ} (ends : Acc Turn before)
    (since : ReflTransGen Turn after before) : Acc Turn after := by
  induction since using ReflTransGen.head_induction_on with
  | refl => exact ends
  | head turn _ inductionHypothesis => exact inductionHypothesis.inv turn

private theorem pass_halts {now : Interpreter β α μ} (sound : now.frame.Sound)
    (ends : Acc Turn now.bare) (fired : Bool) {pending : List WorkerId}
    (members : ∀ sink ∈ pending, sink ∈ now.members) :
    ∃ enough outcome, ∀ fuel, enough ≤ fuel → pass fuel fired pending now = some outcome := by
  induction pending generalizing fired now with
  | nil => exact ⟨0, _, fun _ _ => rfl⟩
  | cons sink rest inductionHypothesis =>
      rw [List.forall_mem_cons] at members
      have alone : ∀ id ∈ [sink], id ∈ now.members := List.forall_mem_singleton.mpr members.1
      let counted : Interpreter β α μ := { now with
        stats := { now.stats with pulls := now.stats.pulls + 1 } }
      have countedSound : counted.frame.Sound := sound
      have countedEnds : Acc Turn counted.bare := ends
      obtain ⟨steps, first, pulled⟩ :=
        pullSteps_halts countedSound countedEnds alone List.nodup_nil
      have enough (fuel : Nat) (more : steps ≤ fuel) : now.pull fuel sink = some first :=
        pullSteps_mono more pulled
      obtain ⟨answer, after⟩ := first
      cases answer with
      | error error =>
          refine ⟨steps, (.error error, after), ?_⟩
          intro fuel more
          rw [pass, enough fuel more]
      | ok progress =>
          have frame : after.frame = now.frame := pull_frame (enough steps (Nat.le_refl steps))
          have afterMembers : after.members = now.members :=
            congrArg InterpreterFrame.members frame
          have since := (pullSteps_turns countedSound alone pulled).1
          obtain ⟨further, outcome, run⟩ := inductionHypothesis (frame ▸ sound)
            (acc_of_turns countedEnds since) (fired || progress) (afterMembers ▸ members.2)
          refine ⟨max steps further, outcome, ?_⟩
          intro fuel more
          rw [pass, enough fuel (by omega)]
          exact run fuel (by omega)

/-- Every pass but the last one has fired somebody. -/
theorem passes_halts {now : Interpreter β α μ} (sound : now.frame.Sound)
    (ends : Acc Turn now.bare) (remaining : Option Nat) (everFired : Bool) :
    ∃ enough outcome, ∀ pullFuel fuel, enough ≤ pullFuel → enough ≤ fuel →
      passes pullFuel fuel remaining everFired now = some outcome := by
  obtain ⟨state, same⟩ : ∃ state, state = now.bare := ⟨now.bare, rfl⟩
  have strictly := acc_transGen_iff.mpr ends
  rw [← same] at strictly
  induction strictly generalizing now remaining everFired with
  | intro state _ afterTurns =>
      subst same
      by_cases limit : remaining = some 0
      · subst limit
        refine ⟨1, (.ok everFired, now), ?_⟩
        intro pullFuel fuel _ more
        obtain ⟨count, rfl⟩ : ∃ count, fuel = count + 1 := ⟨fuel - 1, by omega⟩
        rfl
      · let counted : Interpreter β α μ := { now with
          stats := { now.stats with passes := now.stats.passes + 1 } }
        have countedSound : counted.frame.Sound := sound
        have countedEnds : Acc Turn counted.bare := ends
        have sinks : ∀ sink ∈ now.sinks, sink ∈ counted.members := sound.sinks
        obtain ⟨steps, outcome, passed⟩ :=
          pass_halts countedSound countedEnds false sinks
        have first (pullFuel fuel : Nat) (more : steps ≤ pullFuel) :
            passes pullFuel (fuel + 1) remaining everFired now =
              goOn pullFuel fuel remaining everFired (some outcome) := by
          rw [passes_eq_goOn limit]
          exact congrArg (goOn pullFuel fuel remaining everFired) (passed pullFuel more)
        -- Only a pass with progress is followed by another one.
        have rest : ∃ enough last, ∀ pullFuel fuel, enough ≤ pullFuel → enough ≤ fuel →
            goOn pullFuel fuel remaining everFired (some outcome) = some last := by
          match outcome, passed steps (Nat.le_refl steps) with
          | (.error error, after), _ => exact ⟨0, _, fun _ _ _ _ => rfl⟩
          | (.ok false, after), _ => exact ⟨0, _, fun _ _ _ _ => rfl⟩
          | (.ok true, after), passed =>
              have turned := pass_turns countedSound sinks passed
              have frame : after.frame = counted.frame := pass_frame passed
              exact afterTurns after.bare (turned.2 rfl rfl) (frame ▸ countedSound)
                (acc_of_turns countedEnds turned.1) _ _ rfl
        obtain ⟨further, last, run⟩ := rest
        refine ⟨max steps further + 1, last, ?_⟩
        intro pullFuel fuel morePulls morePasses
        obtain ⟨count, rfl⟩ : ∃ count, fuel = count + 1 := ⟨fuel - 1, by omega⟩
        rw [first pullFuel count (by omega)]
        exact run pullFuel count (by omega) (by omega)

/-- Where firings come to an end, so does a call. -/
theorem interpret_halts {now : Interpreter β α μ} (sound : now.frame.Sound)
    (ends : Acc Turn now.bare) :
    ∃ enough answer left, ∀ fuel, enough ≤ fuel → now.interpret fuel = some (answer, left) := by
  let counted : Interpreter β α μ := { now with
    stats := { now.stats with interpretCalls := now.stats.interpretCalls + 1 } }
  have countedSound : counted.frame.Sound := sound
  have countedEnds : Acc Turn counted.bare := ends
  obtain ⟨enough, ⟨answer, left⟩, run⟩ :=
    passes_halts countedSound countedEnds now.maxPasses false
  exact ⟨enough, answer, left, fun fuel more => run fuel fuel more more⟩

end DemandFlow.Interpreter
