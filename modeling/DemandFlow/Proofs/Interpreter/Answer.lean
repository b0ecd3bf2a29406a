import DemandFlow.Proofs.Graph.Passage
import DemandFlow.Proofs.Stream.Installation
import DemandFlow.Work.Standard

/-!
What the answer of a call reports. A pull that succeeds fires the pulled worker last, and once;
a pull that stalls has not fired it, though it may have fired others on the way. A call answers
whether one of its pulls has succeeded. A sink can also fire in the pull of another sink, as
the sender of a message that is due, and this the answer leaves out if that pull then stalls.
-/

set_option autoImplicit false

namespace DemandFlow

variable {β α μ : Type}

/-- The worker has a larger count of executions after than before. -/
def Graph.Advances (before after : Graph β α μ) (id : WorkerId) : Prop :=
  ∃ earlier later, before.executions? id = some earlier ∧ after.executions? id = some later ∧
    earlier < later

namespace Interpreter

/-- The workers that have fired from one state to a later one, in order. -/
structure Since (before after : Interpreter β α μ) (fired : List WorkerId) : Prop where
  journal : after.journal = before.journal ++ fired
  counts : ∀ id, after.graph.executions? id =
    (before.graph.executions? id).map (· + fired.count id)

theorem Since.still (interpreter : Interpreter β α μ) (stats : InterpreterStats) :
    interpreter.Since { interpreter with stats := stats } [] where
  journal := (List.append_nil _).symm
  counts id := by simp only [List.count_nil, Nat.add_zero, Option.map_id_fun', id_eq]

theorem Since.trans {before middle after : Interpreter β α μ} {fired more : List WorkerId}
    (first : before.Since middle fired) (second : middle.Since after more) :
    before.Since after (fired ++ more) where
  journal := by rw [second.journal, first.journal, List.append_assoc]
  counts id := by
    rw [second.counts, first.counts, Option.map_map, List.count_append]
    congr 1
    funext count
    exact Nat.add_assoc ..

theorem Since.advances {before after : Interpreter β α μ} {fired : List WorkerId}
    (since : before.Since after fired) {id : WorkerId} {count : Nat}
    (known : before.graph.executions? id = some count) :
    before.graph.Advances after.graph id ↔ id ∈ fired := by
  have later := since.counts id
  rw [known, Option.map_some] at later
  constructor
  · rintro ⟨earlier, now, was, is, less⟩
    rw [known] at was
    rw [later] at is
    cases was
    cases is
    exact List.count_pos_iff.mp (by omega)
  · intro member
    have positive := List.count_pos_iff.mpr member
    exact ⟨count, _, known, later, by omega⟩

variable [Recipient β μ] [Work β α μ]

theorem since_firing {interpreter : Interpreter β α μ} {current : WorkerId}
    {worker : Worker β μ} {graph left : Graph β α μ} {result : Except Error Unit}
    (known : interpreter.graph.worker? current = some worker)
    (firing : interpreter.graph.fire current = (.ok (), graph))
    (follow : interpreter.delegate.afterFire (interpreter.stats.firings + 1) graph current =
      (result, left)) :
    interpreter.Since (countFiring { interpreter with graph := left } current) [current] := by
  have followed (id : WorkerId) : left.executions? id = graph.executions? id := by
    have counted := interpreter.delegate.afterFire_sameButCounts
      (interpreter.stats.firings + 1) graph current
    rw [follow] at counted
    unfold Graph.executions? Graph.worker?
    rw [counted.1]
  refine ⟨rfl, ?_⟩
  intro id
  change left.executions? id = _
  rw [followed]
  by_cases same : id = current
  · subst same
    rw [Graph.executions?_fire_self known firing, Graph.executions?_of_known known]
    simp only [List.count_cons_self, List.count_nil, Nat.zero_add, Option.map_some]
  · have others := interpreter.graph.executions?_fire_of_ne same
    rw [firing] at others
    rw [others, List.count_singleton, if_neg (by simpa only [beq_iff_eq, ne_eq] using Ne.symm same)]
    simp only [Nat.add_zero, Option.map_id_fun', id_eq]

/-- A worker that can fire in the pull of another one: it is no sink, or it sends messages
that the section schedules. -/
def Helps (interpreter : Interpreter β α μ) (id : WorkerId) : Prop :=
  id ∈ interpreter.sinks → ∃ constraint ∈ interpreter.constraints, constraint.sender = id

structure Terminal (interpreter : Interpreter β α μ) : Prop where
  sound : interpreter.frame.Sound
  unfed : ∀ sink ∈ interpreter.sinks, ∀ consumer ∈ interpreter.members,
    ∀ port ∈ interpreter.graph.frame.wiring.inputs consumer, port.peer ≠ some sink

omit [Recipient β μ] [Work β α μ] in
theorem Terminal.of_frame_eq {before after : Interpreter β α μ} (terminal : before.Terminal)
    (same : after.frame = before.frame) : after.Terminal where
  sound := same ▸ terminal.sound
  unfed := by
    rw [show after.sinks = before.sinks from congrArg InterpreterFrame.sinks same,
      show after.members = before.members from congrArg InterpreterFrame.members same,
      show after.graph.frame = before.graph.frame from congrArg InterpreterFrame.graph same]
    exact terminal.unfed

omit [Recipient β μ] [Work β α μ] in
private theorem Terminal.configure {interpreter : Interpreter β α μ}
    (terminal : interpreter.Terminal) (delegate : Delegate) (limit : Option Nat) :
    { interpreter with delegate := delegate, maxPasses := limit }.Terminal :=
  ⟨{ terminal.sound with }, terminal.unfed⟩

omit [Recipient β μ] [Work β α μ] in
theorem Opens.terminal [Signature β] {graph : Graph β α μ} (descends : graph.Descends)
    {workers : List WorkerId} {given : List Constraint} {interpreter : Interpreter β α μ}
    (opened : Opens graph workers given interpreter) : interpreter.Terminal := by
  refine ⟨opened.frame_sound descends.sound, ?_⟩
  obtain ⟨made, delegate, maxPasses, created, rfl⟩ := opened
  have accepted := accepted_of_create created
  intro sink member consumer
  change sink ∈ made.sinks at member
  rw [accepted.sinks] at member
  change consumer ∈ made.members → ∀ port ∈ made.graph.frame.wiring.inputs consumer, _
  rw [accepted.graph_eq]
  exact (mem_sinksOf.mp member).2 consumer

omit [Recipient β μ] [Work β α μ] in
theorem helps_of_frame_eq {before after : Interpreter β α μ}
    (same : after.frame = before.frame) {id : WorkerId} (helps : after.Helps id) :
    before.Helps id := by
  unfold Helps at helps ⊢
  rwa [show after.sinks = before.sinks from congrArg InterpreterFrame.sinks same,
    show after.constraints = before.constraints from
      congrArg InterpreterFrame.constraints same] at helps

omit [Recipient β μ] [Work β α μ] in
private theorem Terminal.producer_helps {interpreter : Interpreter β α μ}
    (terminal : interpreter.Terminal) {current producer : WorkerId} {worker : Worker β μ}
    {input : Nat} (inside : current ∈ interpreter.members)
    (known : interpreter.graph.worker? current = some worker)
    (found : interpreter.producer? worker input = some producer) :
    interpreter.Helps producer := by
  intro sink
  unfold producer? at found
  rw [Option.filter_eq_some_iff, Option.bind_eq_some_iff] at found
  obtain ⟨⟨port, place, peer⟩, _⟩ := found
  have portIn : port ∈ interpreter.graph.frame.wiring.inputs current := by
    rw [Graph.wiring_inputs known]
    exact List.mem_of_getElem? place
  exact absurd peer (terminal.unfed producer sink current inside port portIn)

/-- During the pull of a worker: those fired so far and those stacked above it help, and it
fires itself with the last of the stack. -/
structure DuringPull (start : Interpreter β α μ) (pulled : WorkerId) (stack : List WorkerId)
    (now : Interpreter β α μ) (fired : List WorkerId) : Prop where
  frame_eq : now.frame = start.frame
  members : ∀ id ∈ stack, id ∈ now.members
  since : start.Since now fired
  pulls : now.stats.pulls = start.stats.pulls
  stalls : now.stats.stalledPulls = start.stats.stalledPulls
  place :
    (∃ upper, stack = upper ++ [pulled] ∧ pulled ∉ fired ∧
      ∀ id ∈ upper ++ fired, start.Helps id) ∨
    (stack = [] ∧ ∃ prior, fired = prior ++ [pulled] ∧ pulled ∉ prior ∧
      ∀ id ∈ prior, start.Helps id)

private theorem DuringPull.look {start now left : Interpreter β α μ} {pulled current : WorkerId}
    {waiting stack fired : List WorkerId} (terminal : start.Terminal)
    (during : start.DuringPull pulled (current :: waiting) now fired)
    (view : PullView now current waiting (.proceed stack left)) :
    ∃ more, start.DuringPull pulled stack left more := by
  have nowTerminal := terminal.of_frame_eq during.frame_eq
  have here := during.members current (List.mem_cons_self ..)
  have frame := view.frame_left.trans during.frame_eq
  have members : ∀ id ∈ stack, id ∈ left.members := by
    rw [show left.members = now.members from congrArg InterpreterFrame.members view.frame_left]
    exact view.inside nowTerminal.sound during.members
  obtain ⟨upper, stacked, unfired, helping⟩ | ⟨empty, _⟩ := during.place
  · -- A worker stacked on top waits for nobody yet and has not been pulled itself.
    have deeper (top : WorkerId) (helps : now.Helps top) :
        ∃ upper, top :: current :: waiting = upper ++ [pulled] ∧ pulled ∉ fired ∧
          ∀ id ∈ upper ++ fired, start.Helps id := by
      refine ⟨top :: upper, by rw [stacked, List.cons_append], unfired, ?_⟩
      rw [List.cons_append, List.forall_mem_cons]
      exact ⟨helps_of_frame_eq during.frame_eq helps, helping⟩
    cases view with
    | feeder known free starved inside =>
        have helps := nowTerminal.producer_helps here known inside
        exact ⟨fired, frame, members, during.since, during.pulls, during.stalls,
          .inl (deeper _ helps)⟩
    | sender known free fed due =>
        obtain ⟨constraint, scheduled, _, same, _⟩ := dueSender?_eq_some due
        exact ⟨fired, frame, members, during.since, during.pulls, during.stalls,
          .inl (deeper _ (fun _ => ⟨constraint, scheduled, same⟩))⟩
    | fired ready free firing follow =>
        refine ⟨fired ++ [current], frame, members,
          during.since.trans (since_firing ready.known firing follow), during.pulls,
          during.stalls, ?_⟩
        cases upper with
        | nil =>
            obtain ⟨rfl, rfl⟩ := List.cons.inj stacked
            exact .inr ⟨rfl, fired, rfl, unfired, helping⟩
        | cons top upper =>
            obtain ⟨rfl, rfl⟩ := List.cons.inj stacked
            have different : pulled ≠ current := by
              rintro rfl
              exact free (List.mem_append_right _ (List.mem_singleton_self _))
            refine .inl ⟨upper, rfl, ?_, ?_⟩
            · rw [List.mem_append, List.mem_singleton]
              exact not_or.mpr ⟨unfired, different⟩
            · intro id member
              apply helping id
              simp only [List.cons_append, List.mem_cons, List.mem_append, List.not_mem_nil,
                or_false] at member ⊢
              rcases member with above | earlier | same
              · exact .inr (.inl above)
              · exact .inr (.inr earlier)
              · exact .inl same
  · cases empty

/-- A pull that succeeds fires the worker once and last, and one that stalls does not fire
it. Everybody else it fires helps. -/
theorem pull_answer {interpreter left : Interpreter β α μ} (terminal : interpreter.Terminal)
    {fuel : Nat} {pulled : WorkerId} (inside : pulled ∈ interpreter.members) {progress : Bool}
    (run : interpreter.pull fuel pulled = some (.ok progress, left)) :
    ∃ fired, left.frame = interpreter.frame ∧ interpreter.Since left fired ∧
      left.stats.pulls = interpreter.stats.pulls + 1 ∧
      match progress with
      | true => left.stats.stalledPulls = interpreter.stats.stalledPulls ∧
          ∃ prior, fired = prior ++ [pulled] ∧ pulled ∉ prior ∧ ∀ id ∈ prior, interpreter.Helps id
      | false => left.stats.stalledPulls = interpreter.stats.stalledPulls + 1 ∧
          pulled ∉ fired ∧ ∀ id ∈ fired, interpreter.Helps id := by
  let start : Interpreter β α μ := { interpreter with
    stats := { interpreter.stats with pulls := interpreter.stats.pulls + 1 } }
  have startTerminal : start.Terminal := terminal.of_frame_eq rfl
  have begins : start.DuringPull pulled [pulled] start [] := by
    refine ⟨rfl, ?_, .still _ _, rfl, rfl, .inl ⟨[], rfl, List.not_mem_nil, ?_⟩⟩
    · rw [List.forall_mem_singleton]
      exact inside
    · intro id member
      cases member
  rcases pullSteps_last (fun stack now => ∃ fired, start.DuringPull pulled stack now fired)
    (fun now current waiting stack after ⟨_, during⟩ view => during.look startTerminal view)
    run ⟨[], begins⟩ with
    ⟨succeeded, fired, during⟩ | ⟨current, waiting, before, _, ⟨fired, during⟩, view⟩
  · cases succeeded
    obtain ⟨upper, stacked, _⟩ | ⟨_, prior, same, unfired, helping⟩ := during.place
    · exact absurd stacked.symm (by simp)
    · exact ⟨fired, during.frame_eq, ⟨during.since.journal, during.since.counts⟩,
        during.pulls, during.stalls, prior, same, unfired, helping⟩
  · cases view with
    | stalled known free starved outside =>
        obtain ⟨upper, stacked, unfired, helping⟩ | ⟨empty, _⟩ := during.place
        · exact ⟨fired, during.frame_eq, ⟨during.since.journal, during.since.counts⟩,
            during.pulls, congrArg (· + 1) during.stalls, unfired,
            fun id member => helping id (List.mem_append_right _ member)⟩
        · cases empty

/-- A stretch of passes: who has fired in it, and the sinks whose pulls have succeeded. -/
structure Course (before after : Interpreter β α μ) (fired served : List WorkerId) : Prop where
  frame_eq : after.frame = before.frame
  since : before.Since after fired
  served_fired : ∀ id ∈ served, id ∈ fired
  served_sinks : ∀ id ∈ served, id ∈ before.sinks
  others_help : ∀ id ∈ fired, id ∈ served ∨ before.Helps id
  balance : after.stats.pulls + before.stats.stalledPulls =
    before.stats.pulls + after.stats.stalledPulls + served.length

omit [Recipient β μ] [Work β α μ] in
theorem Course.still (interpreter : Interpreter β α μ) {stats : InterpreterStats}
    (pulls : stats.pulls = interpreter.stats.pulls)
    (stalls : stats.stalledPulls = interpreter.stats.stalledPulls) :
    interpreter.Course { interpreter with stats := stats } [] [] where
  frame_eq := rfl
  since := .still _ _
  served_fired _ member := member
  served_sinks _ member := nomatch member
  others_help _ member := nomatch member
  balance := by
    dsimp only
    rw [pulls, stalls]
    rfl

omit [Recipient β μ] [Work β α μ] in
theorem Course.trans {before middle after : Interpreter β α μ}
    {fired served more others : List WorkerId} (first : before.Course middle fired served)
    (second : middle.Course after more others) :
    before.Course after (fired ++ more) (served ++ others) where
  frame_eq := second.frame_eq.trans first.frame_eq
  since := first.since.trans second.since
  served_fired id member := by
    rw [List.mem_append] at member ⊢
    exact member.imp (first.served_fired id) (second.served_fired id)
  served_sinks id member := by
    rcases List.mem_append.mp member with earlier | later
    · exact first.served_sinks id earlier
    · have sinks : middle.sinks = before.sinks :=
        congrArg InterpreterFrame.sinks first.frame_eq
      exact sinks ▸ second.served_sinks id later
  others_help id member := by
    rcases List.mem_append.mp member with earlier | later
    · exact (first.others_help id earlier).imp_left (List.mem_append_left _)
    · exact (second.others_help id later).imp (List.mem_append_right _)
        (helps_of_frame_eq first.frame_eq)
  balance := by
    have earlier := first.balance
    have later := second.balance
    rw [List.length_append]
    omega

private theorem pull_course {interpreter left : Interpreter β α μ} (terminal : interpreter.Terminal)
    {fuel : Nat} {sink : WorkerId} (member : sink ∈ interpreter.sinks) {progress : Bool}
    (run : interpreter.pull fuel sink = some (.ok progress, left)) :
    ∃ fired, interpreter.Course left fired (if progress then [sink] else []) := by
  obtain ⟨fired, frame, since, pulls, answered⟩ :=
    pull_answer terminal (terminal.sound.sinks sink member) run
  refine ⟨fired, ?_⟩
  cases progress with
  | true =>
      obtain ⟨stalls, prior, rfl, _, helping⟩ := answered
      refine ⟨frame, since, ?_, ?_, ?_, ?_⟩
      · exact fun id => List.mem_append_right _
      · rw [if_pos rfl, List.forall_mem_singleton]
        exact member
      · intro id among
        rw [List.mem_append] at among
        exact among.symm.imp_right (helping id)
      · rw [pulls, stalls, if_pos rfl, List.length_singleton]
        omega
  | false =>
      obtain ⟨stalls, _, helping⟩ := answered
      refine ⟨frame, since, ?_, ?_, fun id among => .inr (helping id among), ?_⟩
      · exact fun id among => nomatch among
      · exact fun id among => nomatch among
      · rw [pulls, stalls, if_neg Bool.false_ne_true, List.length_nil]
        omega

private theorem pass_course {interpreter left : Interpreter β α μ} (terminal : interpreter.Terminal)
    {fuel : Nat} {already progress : Bool} {pending : List WorkerId}
    (sinks : ∀ sink ∈ pending, sink ∈ interpreter.sinks)
    (run : pass fuel already pending interpreter = some (.ok progress, left)) :
    ∃ fired served, interpreter.Course left fired served ∧
      progress = (already || !served.isEmpty) := by
  induction pending generalizing already interpreter with
  | nil =>
      cases run
      exact ⟨[], [], .still _ rfl rfl, (Bool.or_false _).symm⟩
  | cons sink rest inductionHypothesis =>
      rw [List.forall_mem_cons] at sinks
      unfold pass at run
      split at run
      next => cases run
      next => cases run
      next succeeded after pulled =>
        obtain ⟨fired, course⟩ := pull_course terminal sinks.1 pulled
        have same : after.sinks = interpreter.sinks :=
          congrArg InterpreterFrame.sinks course.frame_eq
        obtain ⟨more, served, later, answer⟩ := inductionHypothesis
          (terminal.of_frame_eq course.frame_eq) (same ▸ sinks.2) run
        refine ⟨fired ++ more, _, course.trans later, ?_⟩
        rw [answer]
        cases succeeded with
        | true => simp
        | false => simp only [Bool.or_false, Bool.false_eq_true, ↓reduceIte, List.nil_append]

private theorem passes_course {interpreter left : Interpreter β α μ}
    (terminal : interpreter.Terminal) {pullFuel fuel : Nat} {remaining : Option Nat}
    {already progress : Bool}
    (run : passes pullFuel fuel remaining already interpreter = some (.ok progress, left)) :
    ∃ fired served, interpreter.Course left fired served ∧
      progress = (already || !served.isEmpty) := by
  induction fuel generalizing remaining already interpreter with
  | zero => cases run
  | succ fuel inductionHypothesis =>
      let counted : Interpreter β α μ := { interpreter with
        stats := { interpreter.stats with passes := interpreter.stats.passes + 1 } }
      have countedTerminal : counted.Terminal := terminal.of_frame_eq rfl
      have begins : interpreter.Course counted [] [] := .still _ rfl rfl
      rcases passes_view run with
        ⟨_, same, rfl⟩ | ⟨error, _, wrong⟩ | ⟨passed, same⟩ | ⟨after, passed, rest⟩
      · cases same
        exact ⟨[], [], .still _ rfl rfl, (Bool.or_false _).symm⟩
      · cases wrong
      · cases same
        obtain ⟨fired, served, course, idle⟩ :=
          pass_course countedTerminal (fun sink member => member) passed
        have unserved : served = [] := by
          simpa only [Bool.false_or, Bool.false_eq, Bool.not_eq_eq_eq_not, Bool.not_false,
            List.isEmpty_iff] using idle
        subst unserved
        exact ⟨fired, [], begins.trans course, (Bool.or_false _).symm⟩
      · obtain ⟨fired, served, course, won⟩ :=
          pass_course countedTerminal (fun sink member => member) passed
        obtain ⟨more, others, later, answer⟩ := inductionHypothesis
          (countedTerminal.of_frame_eq course.frame_eq) rest
        refine ⟨fired ++ more, served ++ others, (begins.trans course).trans later, ?_⟩
        have successful : served ≠ [] := by
          simpa only [ne_eq, Bool.false_or, Bool.not_eq_eq_eq_not, Bool.not_true,
            List.isEmpty_eq_false_iff] using won.symm
        rw [answer]
        simp [successful]

theorem interpret_course {interpreter left : Interpreter β α μ} (terminal : interpreter.Terminal)
    {fuel : Nat} {progress : Bool}
    (run : interpreter.interpret fuel = some (.ok progress, left)) :
    ∃ fired served, interpreter.Course left fired served ∧ progress = !served.isEmpty := by
  let counted : Interpreter β α μ := { interpreter with
    stats := { interpreter.stats with interpretCalls := interpreter.stats.interpretCalls + 1 } }
  have countedTerminal : counted.Terminal := terminal.of_frame_eq rfl
  have begins : interpreter.Course counted [] [] := .still _ rfl rfl
  obtain ⟨fired, served, course, answer⟩ := passes_course countedTerminal run
  exact ⟨fired, served, begins.trans course, answer⟩

/-- The answer of a call is whether one of its pulls has succeeded. If it is positive, a sink
has fired; if it is negative, the only sinks that may have fired are senders of messages that
the section schedules. -/
theorem answer_reports_pulled_sinks [Signature β] {graph : Graph β α μ} (descends : graph.Descends)
    {workers : List WorkerId} {given : List Constraint} {start interpreter left : Interpreter β α μ}
    (opened : Opens graph workers given start) (operated : start.Operated interpreter)
    {fuel : Nat} {progress : Bool}
    (run : interpreter.interpret fuel = some (.ok progress, left)) :
    (progress = true ↔ interpreter.stats.pulls + left.stats.stalledPulls <
        left.stats.pulls + interpreter.stats.stalledPulls) ∧
      (progress = true →
        ∃ sink ∈ interpreter.sinks, interpreter.graph.Advances left.graph sink) ∧
      (progress = false →
        ∀ sink ∈ interpreter.sinks, interpreter.graph.Advances left.graph sink →
          ∃ constraint ∈ interpreter.constraints, constraint.sender = sink) := by
  have terminal := operated.keeps Terminal (fun same before => before.of_frame_eq same)
    (fun delegate limit before => before.configure delegate limit) (opened.terminal descends)
  obtain ⟨fired, served, course, answer⟩ := interpret_course terminal run
  have advances (sink : WorkerId) (member : sink ∈ interpreter.sinks) :
      interpreter.graph.Advances left.graph sink ↔ sink ∈ fired := by
    have within := terminal.sound.known sink (terminal.sound.sinks sink member)
    obtain ⟨worker, known⟩ := Graph.worker_of_lt rfl within
    exact course.since.advances (Graph.executions?_of_known known)
  have balance := course.balance
  cases served with
  | nil =>
      subst answer
      rw [List.length_nil] at balance
      refine ⟨⟨fun wrong => (nomatch wrong), fun less => by omega⟩,
        fun wrong => (nomatch wrong), ?_⟩
      intro _ sink member advanced
      rcases course.others_help sink ((advances sink member).mp advanced) with wrong | helps
      · cases wrong
      · exact helps member
  | cons sink others =>
      subst answer
      rw [List.length_cons] at balance
      have member := course.served_sinks sink (List.mem_cons_self ..)
      have firing := course.served_fired sink (List.mem_cons_self ..)
      exact ⟨⟨fun _ => by omega, fun _ => rfl⟩,
        fun _ => ⟨sink, member, (advances sink member).mpr firing⟩, fun wrong => nomatch wrong⟩

/-! ### Two senders to one recipient, all of them sinks -/

def raceBuilder : Builder Standard Nat :=
  let builder := (Builder.addWorker {} .filter ⟨"recipient", .identity⟩).2
  let builder := (builder.addWorker .filter ⟨"early", .identity⟩).2
  let builder := (builder.addWorker .filter ⟨"late", .identity⟩).2
  let builder := (builder.addPortal .identity).2
  let builder := (builder.register { id := 0, recipient := .identity } 0).2
  let builder := (builder.addConstraint ⟨⟨1, 0, 0⟩, .latency 1⟩).2
  (builder.addConstraint ⟨⟨2, 0, 0⟩, .latency 1⟩).2

def raceGraph : Graph Standard Nat Unit := raceBuilder.graph

def raceInterpreter : Interpreter Standard Nat Unit :=
  onSection raceGraph raceGraph.workerIds raceGraph.constraints

theorem raceGraph_built : raceGraph.Built :=
  ⟨raceBuilder,
    .addConstraint _ (.addConstraint _ (.register _ _ (.addPortal _ (.addWorker _ _
      (.addWorker _ _ (.addWorker _ _ (.fresh _))))))), rfl⟩

theorem raceInterpreter_opens :
    Opens raceGraph raceGraph.workerIds raceGraph.constraints raceInterpreter :=
  ⟨raceInterpreter, _, _, rfl, rfl⟩

/-- With an element for everybody the recipient is pulled successfully. -/
theorem answer_reports_pulled_sinks_race : ∃ first second fed left,
    raceInterpreter.pushAll? 0 [4] = some first ∧ first.pushAll? 2 [5] = some second ∧
      second.pushAll? 4 [6] = some fed ∧ fed.interpret 9 = some (.ok true, left) ∧
      left.journal = [1, 2, 0] ∧
      ∃ sink ∈ fed.sinks, fed.graph.Advances left.graph sink := by
  obtain ⟨first, second, fed, left, one, two, three, run, journal⟩ : ∃ first second fed left,
      raceInterpreter.pushAll? 0 [4] = some first ∧ first.pushAll? 2 [5] = some second ∧
        second.pushAll? 4 [6] = some fed ∧ fed.interpret 9 = some (.ok true, left) ∧
        left.journal = [1, 2, 0] :=
    ⟨_, _, _, _, rfl, rfl, rfl, rfl, rfl⟩
  have reported := answer_reports_pulled_sinks raceGraph_built.descends raceInterpreter_opens
    (.traffic (.traffic (.traffic .start (.push 0 [4] one)) (.push 2 [5] two))
      (.push 4 [6] three)) run
  exact ⟨first, second, fed, left, one, two, three, run, journal, reported.2.1 rfl⟩

/-- Without an element for the second sender the first one fires in the pull of the recipient,
which then stalls: a sink has fired, and the answer is negative. -/
theorem answer_misses_fired_sink : ∃ first fed left,
    raceInterpreter.pushAll? 0 [4] = some first ∧ first.pushAll? 2 [5] = some fed ∧
      fed.interpret 9 = some (.ok false, left) ∧ left.journal = [1] ∧ 1 ∈ fed.sinks ∧
      fed.graph.Advances left.graph 1 :=
  ⟨_, _, _, rfl, rfl, rfl, rfl, by decide, 0, 1, rfl, rfl, by decide⟩

end Interpreter

end DemandFlow
