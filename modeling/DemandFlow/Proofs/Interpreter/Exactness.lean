import DemandFlow.Proofs.Graph.Candor
import DemandFlow.Proofs.Graph.Metering
import DemandFlow.Proofs.Interpreter.Isolation

/-!
Audits are exact. If nothing is counted on the ports of a section when its interpreter is
made, then at every firing of every later call the counts are at zero, as long as calls
succeed and elements only go in at input boundaries and come out at output boundaries. So each
firing is judged by its own accesses: a call fails with a violation exactly if one of its
firings goes outside a declared rate, and then with the first violation of that firing.
-/

set_option autoImplicit false

namespace DemandFlow

variable {β α μ : Type}

private theorem Worker.sincere_starvedFrom (worker : Worker β μ) (bank : Bank α) (input : Nat)
    (ports : List (Port × Rate × Rate)) : Sincere (worker.starvedFrom bank input ports) := by
  induction ports generalizing input with
  | nil => trivial
  | cons entry rest inductionHypothesis =>
      rcases entry with ⟨port, peek, pop⟩
      unfold starvedFrom
      split
      next => exact sincere_error nofun
      next =>
        split
        next => trivial
        next => exact inductionHypothesis _

namespace Interpreter

section

variable [Recipient β μ] [Work β α μ]

def Look.Fails (look : Look β α μ) (error : Error) (left : Interpreter β α μ) : Prop :=
  ∃ current waiting, look.stack = current :: waiting ∧
    look.interpreter.pullStep current waiting = .stop (.error error) left

variable {error : Error} {left : Interpreter β α μ}

private theorem pullSteps_error_iff {fuel : Nat} {stack : List WorkerId}
    {interpreter : Interpreter β α μ} :
    pullSteps fuel stack interpreter = some (.error error, left) ↔
      ∃ look ∈ pullLooks fuel stack interpreter, look.Fails error left := by
  induction fuel generalizing stack interpreter with
  | zero => simp [pullSteps, pullLooks]
  | succ fuel inductionHypothesis =>
      cases stack with
      | nil => simp [pullSteps, pullLooks]
      | cons current waiting =>
          have here : (Look.mk (current :: waiting) interpreter).Fails error left ↔
              interpreter.pullStep current waiting = .stop (.error error) left := by
            simp only [Look.Fails, List.cons.injEq, ↓existsAndEq, and_true, exists_eq_left']
          unfold pullSteps pullLooks
          rw [List.exists_mem_cons_iff, here]
          cases interpreter.pullStep current waiting with
          | stop answer after => simp
          | proceed next after => simp only [inductionHypothesis, reduceCtorEq, false_or]

private theorem pass_error_iff {fuel : Nat} {fired : Bool} {pending : List WorkerId}
    {interpreter : Interpreter β α μ} :
    pass fuel fired pending interpreter = some (.error error, left) ↔
      ∃ look ∈ passLooks fuel pending interpreter, look.Fails error left := by
  induction pending generalizing fired interpreter with
  | nil => simp [pass, passLooks]
  | cons sink rest inductionHypothesis =>
      have pulled : interpreter.pull fuel sink = some (.error error, left) ↔ _ :=
        pullSteps_error_iff
      unfold pass passLooks
      simp only [List.mem_append, or_and_right, exists_or]
      rw [← pulled]
      cases interpreter.pull fuel sink with
      | none => simp only [reduceCtorEq, List.not_mem_nil, false_and, exists_false, or_self]
      | some outcome =>
          rcases outcome with ⟨answer, after⟩
          cases answer with
          | error other => simp
          | ok progress => simp [inductionHypothesis]

private theorem passes_error_iff {pullFuel fuel : Nat} {remaining : Option Nat} {everFired : Bool}
    {interpreter : Interpreter β α μ} :
    passes pullFuel fuel remaining everFired interpreter = some (.error error, left) ↔
      ∃ look ∈ passesLooks pullFuel fuel remaining interpreter, look.Fails error left := by
  induction fuel generalizing remaining everFired interpreter with
  | zero => simp [passes, passesLooks]
  | succ fuel inductionHypothesis =>
      by_cases limit : remaining = some 0
      · subst limit
        simp [passes, passesLooks]
      · have passed : pass pullFuel false interpreter.sinks
            { interpreter with
              stats := { interpreter.stats with passes := interpreter.stats.passes + 1 } } =
            some (.error error, left) ↔ _ := pass_error_iff
        rw [passes_eq_goOn limit]
        unfold passesLooks
        rw [if_neg limit]
        simp only [List.mem_append, or_and_right, exists_or]
        rw [← passed]
        cases pass pullFuel false interpreter.sinks
            { interpreter with
              stats := { interpreter.stats with passes := interpreter.stats.passes + 1 } } with
        | none => simp [goOn]
        | some outcome =>
            rcases outcome with ⟨answer, after⟩
            cases answer with
            | error other => simp [goOn]
            | ok progress =>
                cases progress with
                | false => simp [goOn]
                | true => simp [goOn, inductionHypothesis]

/-- A call fails exactly if one of its looks does, and then in the same way. -/
theorem interpret_error_iff {fuel : Nat} {interpreter : Interpreter β α μ} :
    interpreter.interpret fuel = some (.error error, left) ↔
      ∃ look ∈ interpreter.looks fuel, look.Fails error left :=
  passes_error_iff

end

structure Clear (interpreter : Interpreter β α μ) : Prop where
  inputs : ∀ id ∈ interpreter.members, ∀ port ∈ interpreter.graph.frame.wiring.inputs id,
    (interpreter.graph.bank.channel port.channel).Read 0 0
  outputs : ∀ id ∈ interpreter.members, ∀ port ∈ interpreter.graph.frame.wiring.outputs id,
    (interpreter.graph.bank.channel port.channel).Written 0

theorem clear_of_reset {interpreter : Interpreter β α μ}
    (sound : interpreter.graph.frame.Sound)
    (reset : ∀ channel, channel < interpreter.graph.bank.size →
      (interpreter.graph.bank.channel channel).stats = some {}) : interpreter.Clear := by
  rw [← interpreter.graph.wiring_channels] at reset
  constructor
  · intro id inside port member
    exact Channel.read_of_reset (reset _ (sound.wiring.input_lt member))
  · intro id inside port member
    exact Channel.written_of_reset (reset _ (sound.wiring.output_lt member))

theorem Clear.metered {interpreter : Interpreter β α μ} (clear : interpreter.Clear)
    {id : WorkerId} (inside : id ∈ interpreter.members) {worker : Worker β μ}
    (known : interpreter.graph.worker? id = some worker) :
    (interpreter.graph.portView worker).Metered [] where
  inputs := by
    intro index port place
    apply clear.inputs id inside
    rw [Graph.wiring_inputs known]
    exact List.mem_of_getElem? place
  outputs := by
    intro index port place
    apply clear.outputs id inside
    rw [Graph.wiring_outputs known]
    exact List.mem_of_getElem? place

/-- After a firing whose audit has reset the ports of its worker, nothing is counted again. -/
theorem Clear.cleared {interpreter left : Interpreter β α μ} (clear : interpreter.Clear)
    (frame : left.frame = interpreter.frame) {between : Bank α} {channels : List ChannelId}
    (others : ∀ channel, channel ∉ channels →
      between.channel channel = interpreter.graph.bank.channel channel)
    (reset : Bank.Cleared channels between left.graph.bank) : left.Clear := by
  have members : left.members = interpreter.members := congrArg InterpreterFrame.members frame
  have graphs : left.graph.frame = interpreter.graph.frame :=
    congrArg InterpreterFrame.graph frame
  have either (channel : ChannelId) : (left.graph.bank.channel channel).stats = some {} ∨
      left.graph.bank.channel channel = interpreter.graph.bank.channel channel := by
    by_cases mine : channel ∈ channels
    · exact .inl (reset.reset channel mine)
    · exact .inr ((reset.others channel mine).trans (others channel mine))
  constructor
  · rw [members, graphs]
    intro id inside port member
    rcases either port.channel with zero | same
    · exact Channel.read_of_reset zero
    · rw [same]
      exact clear.inputs id inside port member
  · rw [members, graphs]
    intro id inside port member
    rcases either port.channel with zero | same
    · exact Channel.written_of_reset zero
    · rw [same]
      exact clear.outputs id inside port member

section

variable [Recipient β μ] [Work β α μ]

/-- What holds between the firings of an interpreter that audits them. -/
structure Poised (interpreter : Interpreter β α μ) : Prop where
  sound : interpreter.frame.Sound
  bordered : InterpreterFrame.Bordered interpreter.frame
  unshared : interpreter.graph.bank.Unshared
  delegate : interpreter.delegate = { audits := true }
  candid : interpreter.graph.Candid
  clear : interpreter.Clear

theorem Poised.withStats {interpreter : Interpreter β α μ} (poised : interpreter.Poised)
    (stats : InterpreterStats) : { interpreter with stats := stats }.Poised :=
  ⟨poised.sound, poised.bordered, poised.unshared, poised.delegate, poised.candid,
    poised.clear.inputs, poised.clear.outputs⟩

/-- The audit of a firing between which and the last one nothing was counted. -/
theorem Poised.audit_fire {interpreter : Interpreter β α μ} (poised : interpreter.Poised)
    {current : WorkerId} (inside : current ∈ interpreter.members) {worker : Worker β μ}
    (known : interpreter.graph.worker? current = some worker) {after : Graph β α μ}
    (firing : interpreter.graph.fire current = (.ok (), after)) :
    (after.audit current).1 = Observation.verdict worker.label
        (worker.rates.observations (interpreter.graph.accesses current)) ∧
      ∀ left, after.audit current = (.ok (), left) →
        Bank.Cleared (worker.inputs.map Port.channel ++ worker.outputs.map Port.channel)
          after.bank left.bank :=
  Graph.audit_fire poised.sound.graph poised.unshared known (poised.clear.metered inside known)
    firing

theorem PullView.poised {interpreter : Interpreter β α μ} {current : WorkerId}
    {waiting : List WorkerId} {step : PullStep β α μ}
    (view : PullView interpreter current waiting step) (poised : interpreter.Poised)
    (inside : current ∈ interpreter.members)
    (accepted : ∀ error left, step ≠ .stop (.error error) left) : step.left.Poised := by
  have frame := view.frame_left
  cases view with
  | unknown absent => exact absurd rfl (accepted _ _)
  | circular known waits => exact absurd rfl (accepted _ _)
  | unsupported known free refused => exact absurd rfl (accepted _ _)
  | stalled known free starved outside => exact poised.withStats _
  | feeder known free starved producer => exact poised
  | sender known free fed due => exact poised
  | failed ready free firing => exact absurd rfl (accepted _ _)
  | refused ready free firing follow => exact absurd rfl (accepted _ _)
  | @fired worker after left ready free firing follow =>
      rw [poised.delegate, Delegate.afterFire_audits] at follow
      have audited := (poised.audit_fire inside ready.known firing).2 left follow
      have candid := (Graph.candid_fire poised.candid current).1
      have same := after.audit_sameButCounts current
      have apart (channel : ChannelId)
          (absent : channel ∉ worker.inputs.map Port.channel ++
            worker.outputs.map Port.channel) :
          after.bank.channel channel = interpreter.graph.bank.channel channel := by
        have kept : (interpreter.graph.fire current).2.bank.channel channel =
            interpreter.graph.bank.channel channel := by
          rw [List.mem_append, not_or] at absent
          apply Graph.channel_fire_of_no_port poised.unshared current
          · rw [Graph.wiring_inputs ready.known]
            rintro port member rfl
            exact absent.1 (List.mem_map_of_mem member)
          · rw [Graph.wiring_outputs ready.known]
            rintro port member rfl
            exact absent.2 (List.mem_map_of_mem member)
        rw [firing] at kept
        exact kept
      rw [firing] at candid
      rw [follow] at same
      exact
        { sound := frame ▸ poised.sound
          bordered := frame ▸ poised.bordered
          unshared := unshared_of_frame_eq frame poised.unshared
          delegate := poised.delegate
          candid := candid.of_workers_eq same.1
          clear := poised.clear.cleared frame apart audited }

structure Look.Fires (look : Look β α μ) (current : WorkerId) (worker : Worker β μ)
    (after : Graph β α μ) : Prop where
  top : ∃ waiting, look.stack = current :: waiting ∧ current ∉ waiting
  ready : look.interpreter.Ready current worker
  completed : look.interpreter.graph.fire current = (.ok (), after)

/-- The stack lies in the section of a poised interpreter. -/
structure Look.Settled (look : Look β α μ) : Prop where
  poised : look.interpreter.Poised
  members : ∀ id ∈ look.stack, id ∈ look.interpreter.members

theorem Look.Settled.top_inside {look : Look β α μ} (settled : look.Settled)
    {current : WorkerId} {waiting : List WorkerId} (top : look.stack = current :: waiting) :
    current ∈ look.interpreter.members := by
  apply settled.members
  rw [top]
  exact List.mem_cons_self ..

/-- A settled look fails with a violation exactly if it completes a firing whose accesses are
judged to be that violation. -/
theorem Look.Settled.fails_iff {look : Look β α μ} (settled : look.Settled) {error : Error}
    (violation : error.Violation) :
    (∃ left, look.Fails error left) ↔ ∃ current worker after, look.Fires current worker after ∧
      Observation.verdict worker.label
        (worker.rates.observations (look.interpreter.graph.accesses current)) = .error error := by
  have poised := settled.poised
  constructor
  · rintro ⟨left, current, waiting, top, stopped⟩
    have inside := settled.top_inside top
    have view := look.interpreter.pullStep_view current waiting
    rw [stopped] at view
    cases view with
    | unknown absent =>
        rcases violation with ⟨_, _, _, _, _, impossible⟩
        cases impossible
    | circular known waits =>
        rcases violation with ⟨_, _, _, _, _, impossible⟩
        cases impossible
    | @unsupported worker _ known free refused =>
        have sincere := worker.sincere_starvedFrom look.interpreter.graph.bank 0
          (worker.inputs.zip (worker.rates.peek.zip worker.rates.pop))
        unfold Worker.starvedInput at refused
        rw [refused] at sincere
        exact absurd violation sincere
    | failed ready free firing =>
        have sincere := (Graph.candid_fire poised.candid current).2
        rw [firing] at sincere
        exact absurd violation sincere
    | @refused worker _ after left ready free firing follow =>
        rw [poised.delegate, Delegate.afterFire_audits] at follow
        have judged := (poised.audit_fire inside ready.known firing).1
        rw [follow] at judged
        exact ⟨current, worker, after, ⟨⟨waiting, top, free⟩, ready, firing⟩, judged.symm⟩
  · rintro ⟨current, worker, after, ⟨⟨waiting, top, free⟩, ready, firing⟩, judged⟩
    have inside := settled.top_inside top
    rw [← (poised.audit_fire inside ready.known firing).1] at judged
    rcases audited : after.audit current with ⟨answer, left⟩
    rw [audited] at judged
    cases judged
    refine ⟨countFiring { look.interpreter with graph := left } current, current, waiting, top, ?_⟩
    unfold pullStep fireTop
    rw [ready.known]
    dsimp only
    rw [if_neg (by rwa [List.contains_iff_mem]), ready.fed, ready.punctual]
    dsimp only
    rw [firing]
    dsimp only [countFiring]
    rw [poised.delegate, Delegate.afterFire_audits, audited]

theorem Look.Settled.proceed {interpreter left : Interpreter β α μ} {current : WorkerId}
    {waiting stack : List WorkerId}
    (settled : (Look.mk (current :: waiting) interpreter).Settled)
    (view : PullView interpreter current waiting (.proceed stack left)) :
    (Look.mk stack left).Settled := by
  have members : left.members = interpreter.members :=
    congrArg InterpreterFrame.members view.frame_left
  refine ⟨view.poised settled.poised (settled.top_inside rfl) (fun _ _ same => by cases same), ?_⟩
  dsimp only
  rw [members]
  exact view.inside settled.poised.sound settled.members

theorem settled_sink {interpreter : Interpreter β α μ} (poised : interpreter.Poised)
    {sink : WorkerId} (member : sink ∈ interpreter.sinks) :
    (Look.mk [sink] interpreter).Settled := by
  refine ⟨poised, ?_⟩
  rw [List.forall_mem_singleton]
  exact poised.sound.sinks sink member

theorem keptByPulls_poised (sinks : List WorkerId) :
    KeptByPulls sinks (fun now : Interpreter β α μ => now.sinks = sinks ∧ now.Poised)
      (fun _ _ => True) where
  counted := fun _ stats holds => ⟨holds.1, holds.2.withStats stats⟩
  sinks_eq := fun _ holds => holds.1
  pulled := by
    rintro fuel sink now progress left member ⟨rfl, poised⟩ run
    refine ⟨congrArg InterpreterFrame.sinks (pullSteps_frame run), ?_⟩
    refine pullSteps_induction (fun stack now => (Look.mk stack now).Settled)
      (fun answer left => ∀ progress, answer = .ok progress → left.Poised)
      (fun _ settled _ _ => settled.poised) ?_ (fun _ _ _ _ _ settled view => settled.proceed view)
      run (settled_sink poised member) progress rfl
    rintro before current waiting answer left settled view progress rfl
    exact view.poised settled.poised (settled.top_inside rfl) (fun _ _ same => by cases same)
  failed := fun _ _ _ _ _ _ _ _ => trivial

private theorem Poised.looks {interpreter : Interpreter β α μ} (poised : interpreter.Poised)
    (fuel : Nat) : ∀ look ∈ interpreter.looks fuel, look.Settled := by
  refine (keptByPulls_poised interpreter.sinks).looks Look.Settled ?_ ⟨rfl, poised⟩
  rintro fuel sink member now ⟨same, nowPoised⟩
  exact pullLooks_induction (fun stack now => (Look.mk stack now).Settled)
    (fun _ _ _ _ _ settled view => settled.proceed view)
    (settled_sink nowPoised (same ▸ member))

/-! ### Elements in and out -/

theorem Poised.withBank {interpreter : Interpreter β α μ} (poised : interpreter.Poised)
    {channel : ChannelId} {content : Channel α}
    (reads : ∀ id ∈ interpreter.members, ∀ port ∈ interpreter.graph.frame.wiring.inputs id,
      port.channel = channel → content.Read 0 0)
    (writes : ∀ id ∈ interpreter.members, ∀ port ∈ interpreter.graph.frame.wiring.outputs id,
      port.channel = channel → content.Written 0) :
    (interpreter.withBank (interpreter.graph.bank.set channel content)).Poised := by
  have frame : (interpreter.withBank (interpreter.graph.bank.set channel content)).frame =
      interpreter.frame :=
    frame_withBank (Bank.keys_set _ _ _)
  have graphs : (interpreter.withBank (interpreter.graph.bank.set channel content)).graph.frame =
      interpreter.graph.frame :=
    congrArg InterpreterFrame.graph frame
  have wiring := poised.sound.graph.wiring
  refine ⟨frame ▸ poised.sound, frame ▸ poised.bordered,
    unshared_of_frame_eq frame poised.unshared, poised.delegate,
    poised.candid.of_workers_eq rfl, ?_, ?_⟩
  · rw [graphs]
    intro id inside port member
    change ((interpreter.graph.bank.set channel content).channel port.channel).Read 0 0
    by_cases here : port.channel = channel
    · have known : channel < interpreter.graph.bank.size := by
        rw [← here, ← interpreter.graph.wiring_channels]
        exact wiring.input_lt member
      rw [here, Bank.channel_set_self _ _ known]
      exact reads id inside port member here
    · rw [Bank.channel_set_of_ne poised.unshared _ here]
      exact poised.clear.inputs id inside port member
  · rw [graphs]
    intro id inside port member
    change ((interpreter.graph.bank.set channel content).channel port.channel).Written 0
    by_cases here : port.channel = channel
    · have known : channel < interpreter.graph.bank.size := by
        rw [← here, ← interpreter.graph.wiring_channels]
        exact wiring.output_lt member
      rw [here, Bank.channel_set_self _ _ known]
      exact writes id inside port member here
    · rw [Bank.channel_set_of_ne poised.unshared _ here]
      exact poised.clear.outputs id inside port member

private theorem Poised.input_only {interpreter : Interpreter β α μ} (poised : interpreter.Poised)
    {boundary : BoundaryChannel} (known : boundary ∈ interpreter.boundaries)
    (direction : boundary.direction = .input) {id : WorkerId}
    (inside : id ∈ interpreter.members) {port : Port}
    (member : port ∈ interpreter.graph.frame.wiring.outputs id) :
    port.channel ≠ boundary.channel := by
  intro same
  rcases poised.bordered boundary known with
    ⟨consumer, _, input, foreign, behind, ⟨_, inputIn⟩ | ⟨wrong, _⟩⟩
  · rcases List.mem_iff_getElem?.mp member with ⟨outputIndex, outputAt⟩
    rcases List.mem_iff_getElem?.mp inputIn with ⟨inputIndex, inputAt⟩
    have ends := poised.sound.graph.wiring.ends id consumer outputIndex inputIndex port input
      outputAt inputAt (same.trans behind.symm)
    exact foreign id inside ends.2.1
  · rw [direction] at wrong
    cases wrong

private theorem Poised.output_only {interpreter : Interpreter β α μ} (poised : interpreter.Poised)
    {boundary : BoundaryChannel} (known : boundary ∈ interpreter.boundaries)
    (direction : boundary.direction = .output) {id : WorkerId}
    (inside : id ∈ interpreter.members) {port : Port}
    (member : port ∈ interpreter.graph.frame.wiring.inputs id) :
    port.channel ≠ boundary.channel := by
  intro same
  rcases poised.bordered boundary known with
    ⟨producer, _, output, foreign, behind, ⟨wrong, _⟩ | ⟨_, outputIn⟩⟩
  · rw [direction] at wrong
    cases wrong
  · rcases List.mem_iff_getElem?.mp member with ⟨inputIndex, inputAt⟩
    rcases List.mem_iff_getElem?.mp outputIn with ⟨outputIndex, outputAt⟩
    have ends := poised.sound.graph.wiring.ends producer id outputIndex inputIndex output port
      outputAt inputAt (behind.trans same.symm)
    exact foreign id inside ends.1

/-- A history in which every call has succeeded, and between the calls elements were only put
into input boundaries and taken from output boundaries. -/
inductive Served (start : Interpreter β α μ) : Interpreter β α μ → Prop where
  | start : Served start start
  | push {interpreter left : Interpreter β α μ} {token : BoundaryToken}
      {boundary : BoundaryChannel} (elements : List α) (before : Served start interpreter)
      (known : interpreter.boundary? token = some boundary)
      (direction : boundary.direction = .input)
      (done : interpreter.pushAll? token elements = some left) : Served start left
  | pop {interpreter left : Interpreter β α μ} {token : BoundaryToken}
      {boundary : BoundaryChannel} {answer : Except Error α} (before : Served start interpreter)
      (known : interpreter.boundary? token = some boundary)
      (direction : boundary.direction = .output)
      (done : interpreter.pop? token = some (answer, left)) : Served start left
  | popAll {interpreter left : Interpreter β α μ} {token : BoundaryToken}
      {boundary : BoundaryChannel} {elements : List α} (before : Served start interpreter)
      (known : interpreter.boundary? token = some boundary)
      (direction : boundary.direction = .output)
      (done : interpreter.popAll? token = some (elements, left)) : Served start left
  | call {interpreter left : Interpreter β α μ} {fired : Bool} (fuel : Nat)
      (before : Served start interpreter)
      (run : interpreter.interpret fuel = some (.ok fired, left)) : Served start left

theorem Poised.taken {interpreter : Interpreter β α μ} (poised : interpreter.Poised)
    {token : BoundaryToken} {boundary : BoundaryChannel}
    (known : interpreter.boundary? token = some boundary)
    (direction : boundary.direction = .output) {content : Channel α}
    (kept : (interpreter.graph.bank.channel boundary.channel).Written 0 → content.Written 0) :
    (interpreter.withBank (interpreter.graph.bank.set boundary.channel content)).Poised := by
  have among : boundary ∈ interpreter.boundaries := List.mem_of_getElem? known
  apply poised.withBank
  · intro id inside port member same
    exact absurd same (poised.output_only among direction inside member)
  · intro id inside port member same
    apply kept
    rw [← same]
    exact poised.clear.outputs id inside port member

/-- Elements that come in at an input boundary are counted where nobody looks. -/
theorem Poised.pushed {interpreter left : Interpreter β α μ} (poised : interpreter.Poised)
    {token : BoundaryToken} {boundary : BoundaryChannel} {elements : List α}
    (known : interpreter.boundary? token = some boundary)
    (direction : boundary.direction = .input)
    (done : interpreter.pushAll? token elements = some left) : left.Poised := by
  have among : boundary ∈ interpreter.boundaries := List.mem_of_getElem? known
  unfold pushAll? channelId? at done
  rw [known] at done
  cases done
  apply poised.withBank
  · intro id inside port member same
    rw [← same]
    exact (poised.clear.inputs id inside port member).pushAll elements
  · intro id inside port member same
    exact absurd same (poised.input_only among direction inside member)

theorem Poised.popped {interpreter left : Interpreter β α μ} (poised : interpreter.Poised)
    {token : BoundaryToken} {boundary : BoundaryChannel} {answer : Except Error α}
    (known : interpreter.boundary? token = some boundary)
    (direction : boundary.direction = .output)
    (done : interpreter.pop? token = some (answer, left)) : left.Poised := by
  unfold pop? channelId? at done
  rw [known] at done
  cases done
  exact poised.taken known direction Channel.Written.pop

theorem Poised.poppedAll {interpreter left : Interpreter β α μ} (poised : interpreter.Poised)
    {token : BoundaryToken} {boundary : BoundaryChannel} {elements : List α}
    (known : interpreter.boundary? token = some boundary)
    (direction : boundary.direction = .output)
    (done : interpreter.popAll? token = some (elements, left)) : left.Poised := by
  unfold popAll? channelId? at done
  rw [known] at done
  cases done
  exact poised.taken known direction Channel.Written.popAll

private theorem Served.poised {start interpreter : Interpreter β α μ}
    (served : start.Served interpreter) (poised : start.Poised) : interpreter.Poised := by
  induction served with
  | start => exact poised
  | push elements before known direction done holds => exact holds.pushed known direction done
  | pop before known direction done holds => exact holds.popped known direction done
  | popAll before known direction done holds => exact holds.poppedAll known direction done
  | @call interpreter left fired fuel before run holds =>
      have kept := (keptByPulls_poised interpreter.sinks).interpret ⟨rfl, holds⟩ run
      exact kept.2

/-- Audits are exact: let an interpreter audit a section of a graph of candid bodies, with
nothing counted on the ports of the section when it is made. After any history of successful
calls, elements put into input boundaries and elements taken from output boundaries, the audit
of every firing of a further call comes to the verdict on the accesses of that firing alone,
and the call fails with a violation exactly if this is the verdict on one of its firings. -/
theorem audits_are_exact [Signature β] {graph : Graph β α μ} (descends : graph.Descends)
    (unshared : graph.bank.Unshared) (candid : graph.Candid) {workers : List WorkerId}
    {given : List Constraint} {start interpreter : Interpreter β α μ}
    (opened : Opens graph workers given start) (audits : start.delegate = { audits := true })
    (clear : start.Clear) (served : start.Served interpreter) (fuel : Nat) :
    (∀ look ∈ interpreter.looks fuel, ∀ current worker after, look.Fires current worker after →
      (after.audit current).1 = Observation.verdict worker.label
        (worker.rates.observations (look.interpreter.graph.accesses current))) ∧
    ∀ label port kind declared observed,
      (∃ left, interpreter.interpret fuel =
        some (.error (.rateViolation label port kind declared observed), left)) ↔
      ∃ look ∈ interpreter.looks fuel, ∃ current worker after, look.Fires current worker after ∧
        Observation.verdict worker.label
          (worker.rates.observations (look.interpreter.graph.accesses current)) =
            .error (.rateViolation label port kind declared observed) := by
  have same : start.graph = graph := opened.graph_eq
  have poised : interpreter.Poised :=
    served.poised
      { sound := opened.frame_sound descends.sound
        bordered := opened.bordered
        unshared := same ▸ unshared
        delegate := audits
        candid := same ▸ candid
        clear := clear }
  have settled := poised.looks fuel
  constructor
  · intro look member current worker after fires
    rcases fires.top with ⟨waiting, top, _⟩
    exact ((settled look member).poised.audit_fire ((settled look member).top_inside top)
      fires.ready.known fires.completed).1
  · intro label port kind declared observed
    have violation : (Error.rateViolation label port kind declared observed).Violation :=
      ⟨_, _, _, _, _, rfl⟩
    simp only [interpret_error_iff]
    constructor
    · rintro ⟨left, look, member, fails⟩
      exact ⟨look, member, ((settled look member).fails_iff violation).mp ⟨left, fails⟩⟩
    · rintro ⟨look, member, fires⟩
      rcases ((settled look member).fails_iff violation).mpr fires with ⟨left, fails⟩
      exact ⟨left, look, member, fails⟩

end

/-! ### A filter that spills every other time -/

/-- Passes elements on, and at every second firing puts out one more than it declares. -/
def spill : Body :=
  .closure
    { pop := .exact 1
      push := .exact 1
      script := .step (.pop 0) (.step (.push 0)
        (.onTurn 2 1 (.step (.const 0) (.step (.push 0) .finish)) .finish)) }

def spillBuilder : Builder Body Int64 :=
  let builder := (Builder.addWorker { factory := { kind := .debug } } .filter
    ⟨"pass", .standard .identity⟩).2
  let builder := (builder.addWorker .filter ⟨"spill", spill⟩).2
  (builder.connect 0 1).2

def spillGraph : Graph Body Int64 Notice := spillBuilder.graph

def spillInterpreter : Interpreter Body Int64 Notice :=
  { onSection spillGraph [0, 1] [] with delegate := { audits := true } }

theorem spillGraph_descends : spillGraph.Descends :=
  ⟨spillGraph, ⟨spillBuilder,
    .connect _ _ (.addWorker _ _ (.addWorker _ _ (.fresh _))), rfl⟩, rfl⟩

private theorem spillInterpreter_opens : Opens spillGraph [0, 1] [] spillInterpreter :=
  ⟨_, _, _, rfl, rfl⟩

private theorem spillGraph_candid : spillGraph.Candid := by
  intro id worker known
  match id, known with
  | 0, known =>
      cases known
      exact Body.Outspoken.candid trivial
  | 1, known =>
      cases known
      exact Body.Outspoken.candid (by simp [Body.Outspoken, spill, Script.Candid])
  | id + 2, known => cases (show none = some worker from known)

private theorem spillInterpreter_clear : spillInterpreter.Clear :=
  clear_of_reset spillGraph_descends.sound (by decide)

/-- The second call fails, for what the second firing does alone. -/
theorem audits_are_exact_spill :
    ∃ interpreter left, spillInterpreter.Served interpreter ∧
      interpreter.interpret 9 =
        some (.error (.rateViolation ⟨"spill", 1⟩ 0 .push (.exact 1) 2), left) ∧
      ∃ look ∈ interpreter.looks 9, ∃ current worker after, look.Fires current worker after ∧
        Observation.verdict worker.label
          (worker.rates.observations (look.interpreter.graph.accesses current)) =
            .error (.rateViolation ⟨"spill", 1⟩ 0 .push (.exact 1) 2) := by
  obtain ⟨fed, called, drained, again, left, push, call, outlet, pop, inlet, more, fails⟩ :
      ∃ fed called drained again left, spillInterpreter.pushAll? 0 [7] = some fed ∧
        fed.interpret 9 = some (.ok true, called) ∧
        called.boundary? 1 = some (.output 2 1 none) ∧
        called.pop? 1 = some (.ok 7, drained) ∧
        drained.boundary? 0 = some (.input 1 none 0) ∧
        drained.pushAll? 0 [8] = some again ∧
        again.interpret 9 =
          some (.error (.rateViolation ⟨"spill", 1⟩ 0 .push (.exact 1) 2), left) :=
    ⟨_, _, _, _, _, rfl, rfl, rfl, rfl, rfl, rfl, rfl⟩
  have served : spillInterpreter.Served again :=
    .push [8] (.pop (.call 9 (.push [7] .start rfl rfl push) call) outlet rfl pop) inlet rfl more
  have exactly := audits_are_exact spillGraph_descends (Bank.unshared_of_own (by decide))
    spillGraph_candid spillInterpreter_opens rfl spillInterpreter_clear served 9
  exact ⟨again, left, served, fails, (exactly.2 _ _ _ _ _).mp ⟨left, fails⟩⟩

/-! ### Counts from before -/

/-- A filter that takes two elements at a time, behind one that passes them on. -/
def delayBuilder : Builder Body Int64 :=
  let builder := (Builder.addWorker { factory := { kind := .debug } } .filter
    ⟨"pass", .standard .identity⟩).2
  let builder := (builder.addWorker .filter ⟨"pair", .closure
    { pop := .exact 2
      push := .exact 1
      script := .step (.pop 0) (.step (.pop 0) (.step .add (.step (.push 0) .finish))) }⟩).2
  (builder.connect 0 1).2

/-- One element has been put on the connection before anything is fired. -/
def delayGraph : Graph Body Int64 Notice :=
  let graph : Graph Body Int64 Notice := delayBuilder.graph
  { graph with bank := graph.bank.pushAll 0 [5] }

def delayInterpreter : Interpreter Body Int64 Notice :=
  { onSection delayGraph [0, 1] [] with delegate := { audits := true } }

private theorem delayGraph_descends : delayGraph.Descends :=
  ⟨_, ⟨delayBuilder, .connect _ _ (.addWorker _ _ (.addWorker _ _ (.fresh _))), rfl⟩, rfl⟩

private theorem delayGraph_candid : delayGraph.Candid := by
  intro id worker known
  match id, known with
  | 0, known =>
      cases known
      exact Body.Outspoken.candid trivial
  | 1, known =>
      cases known
      exact Body.Outspoken.candid (by simp [Body.Outspoken, Script.Candid])
  | id + 2, known => cases (show none = some worker from known)

def delayFed : Interpreter Body Int64 Notice :=
  (delayInterpreter.pushAll? 0 [7]).getD delayInterpreter

/-- Counts from before the first firing are held against it: an element that was put on an
output when the graph was set up makes the audit find a violation in a firing whose own
accesses keep to all rates. -/
theorem audit_blames_earlier_counts :
    delayGraph.Descends ∧ delayGraph.Candid ∧
      (∀ slot ∈ delayGraph.bank.slots, ∃ channel, slot = .own channel ∧
        channel.stats.isSome = true) ∧
      Opens delayGraph [0, 1] [] delayInterpreter ∧
      delayInterpreter.delegate = { audits := true } ∧ delayInterpreter.Served delayFed ∧
      (∃ left, delayFed.interpret 9 =
        some (.error (.rateViolation ⟨"pass", 0⟩ 0 .push (.exact 1) 2), left)) ∧
      ∀ look ∈ delayFed.looks 9, ∀ current worker after, look.Fires current worker after →
        Observation.verdict worker.label
          (worker.rates.observations (look.interpreter.graph.accesses current)) = .ok () := by
  have pushed : delayInterpreter.pushAll? 0 [7] = some delayFed := rfl
  refine ⟨delayGraph_descends, delayGraph_candid, ?_, ⟨_, _, _, rfl, rfl⟩, rfl,
    .push [7] .start rfl rfl pushed, ⟨_, rfl⟩, ?_⟩
  · have slots : delayGraph.bank.slots =
        [.own { items := [5], stats := some { pushCount := 1 } }, .own (.ofKind .debug),
          .own (.ofKind .debug)] := rfl
    simp [slots, Channel.ofKind, ChannelKind.instrumented]
  · have listed : delayFed.looks 9 =
        [⟨[1], { delayFed with stats := ⟨1, 1, 1, 0, 0⟩ }⟩,
          ⟨[0, 1], { delayFed with stats := ⟨1, 1, 1, 0, 0⟩ }⟩] := rfl
    rw [listed]
    intro look member current worker after fires
    rw [List.mem_cons, List.mem_singleton] at member
    rcases fires.top with ⟨waiting, top, _⟩
    have known := fires.ready.known
    have fed := fires.ready.fed
    rcases member with rfl | rfl
    · -- The second worker still waits for an element.
      cases top
      cases known
      cases fed
    · cases top
      cases known
      rfl

end Interpreter

end DemandFlow
