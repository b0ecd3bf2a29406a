import DemandFlow.Proofs.Graph.Supply
import DemandFlow.Proofs.Interpreter.Isolation
import DemandFlow.Work.Body

/-!
Auditing is transparent. An interpreter that audits and one that does not, over graphs that
differ in nothing but counts, look at the same stacks, fire the same workers and give the same
answers, call after call, until an audit finds a violation. Even then the audited graph is as
the other one is right after that firing.
-/

set_option autoImplicit false

namespace DemandFlow

variable {β α μ : Type}

namespace Interpreter

/-- The plain interpreter does what the audited one does, on the same elements. -/
structure Mirrors (plain audited : Interpreter β α μ) : Prop where
  graph : plain.graph.SameButCounts audited.graph
  rest : plain = { audited with graph := plain.graph, delegate := {} }

theorem Mirrors.withStats {plain audited : Interpreter β α μ} (mirrors : plain.Mirrors audited)
    (change : InterpreterStats → InterpreterStats) :
    { plain with stats := change plain.stats }.Mirrors
      { audited with stats := change audited.stats } := by
  rcases mirrors with ⟨same, equal⟩
  refine ⟨same, ?_⟩
  rw [equal]

private theorem Mirrors.withBank {plain audited : Interpreter β α μ}
    (mirrors : plain.Mirrors audited) {left right : Bank α} (same : left.SameItems right) :
    (plain.withBank left).Mirrors (audited.withBank right) := by
  rcases mirrors with ⟨graphs, equal⟩
  constructor
  · change Graph.SameButCounts { plain.graph with bank := left } _
    rw [graphs.eq_withBank]
    exact Graph.sameButCounts_withBank { audited.graph with bank := right } same
  · rw [equal]
    rfl

/-- The interpreter audits every firing, and every channel of its graph counts. -/
structure Audited (interpreter : Interpreter β α μ) : Prop where
  sound : interpreter.graph.frame.Sound
  instrumented : interpreter.graph.bank.Instrumented
  delegate : interpreter.delegate = { audits := true }

section

variable [Recipient β μ] [Work β α μ]

/-- How the looks of two interpreters at the same stack compare. Only a violation makes a
difference. -/
inductive LooksAlike (plain : Interpreter β α μ) (current : WorkerId) :
    PullStep β α μ → PullStep β α μ → Prop where
  | stop (answer : Except Error Bool) {plainLeft auditedLeft : Interpreter β α μ}
      (mirrors : plainLeft.Mirrors auditedLeft) :
      LooksAlike plain current (.stop answer plainLeft) (.stop answer auditedLeft)
  | proceed (stack : List WorkerId) {plainLeft auditedLeft : Interpreter β α μ}
      (mirrors : plainLeft.Mirrors auditedLeft) :
      LooksAlike plain current (.proceed stack plainLeft) (.proceed stack auditedLeft)
  | violated {step : PullStep β α μ} {error : Error} {after : Graph β α μ}
      {auditedLeft : Interpreter β α μ} (violation : error.Violation)
      (firing : plain.graph.fire current = (.ok (), after))
      (mirrors : (countFiring { plain with graph := after } current).Mirrors auditedLeft) :
      LooksAlike plain current step (.stop (.error error) auditedLeft)

/-- How a pull goes on from the verdict on a firing. -/
def judged (verdict : Except Error Unit) (waiting : List WorkerId)
    (left : Interpreter β α μ) : PullStep β α μ :=
  match verdict with
  | .error error => .stop (.error error) left
  | .ok () => .proceed waiting left

private theorem fireTop_of_completed {interpreter : Interpreter β α μ} {current : WorkerId}
    {graph left : Graph β α μ} {verdict : Except Error Unit}
    (firing : interpreter.graph.fire current = (.ok (), graph))
    (follow : interpreter.delegate.afterFire (interpreter.stats.firings + 1) graph current =
      (verdict, left)) (waiting : List WorkerId) :
    interpreter.fireTop current waiting =
      judged verdict waiting (countFiring { interpreter with graph := left } current) := by
  unfold fireTop
  rw [firing]
  dsimp only [countFiring]
  rw [follow]
  cases verdict <;> rfl

private theorem Mirrors.fireTop {plain audited : Interpreter β α μ}
    (mirrors : plain.Mirrors audited) (equipped : audited.Audited) {current : WorkerId}
    {worker : Worker β μ} (known : audited.graph.worker? current = some worker)
    (waiting : List WorkerId) :
    LooksAlike plain current (plain.fireTop current waiting)
      (audited.fireTop current waiting) := by
  have fires := mirrors.graph.fire current
  have framed := audited.graph.frame_fire current
  have instrumented := Graph.instrumented_fire equipped.instrumented current
  rcases plainFiring : plain.graph.fire current with ⟨answer, plainGraph⟩
  rcases auditedFiring : audited.graph.fire current with ⟨auditedAnswer, auditedGraph⟩
  rw [plainFiring, auditedFiring] at fires
  rw [auditedFiring] at framed instrumented
  dsimp only at fires
  rcases fires with ⟨rfl, same⟩
  cases answer with
  | error error =>
      unfold Interpreter.fireTop
      rw [plainFiring, auditedFiring]
      refine .stop _ ⟨same, ?_⟩
      rw [mirrors.rest]
  | ok done =>
      rcases Graph.worker_of_frame_eq framed.symm known with ⟨after, afterKnown, _⟩
      have audits := Graph.instrumented_audit (framed ▸ equipped.sound) instrumented afterKnown
      have kept := auditedGraph.audit_sameButCounts current
      rcases audit : auditedGraph.audit current with ⟨verdict, left⟩
      rw [audit] at audits kept
      have plainFollow : plain.delegate.afterFire (plain.stats.firings + 1) plainGraph current =
          (.ok (), plainGraph) := by
        rw [mirrors.rest]
        rfl
      have auditedFollow : audited.delegate.afterFire (audited.stats.firings + 1) auditedGraph
          current = (verdict, left) := by
        rw [equipped.delegate, Delegate.afterFire_audits, audit]
      have fired : (countFiring { plain with graph := plainGraph } current).Mirrors
          (countFiring { audited with graph := left } current) := by
        refine ⟨same.trans kept.symm, ?_⟩
        rw [mirrors.rest]
        rfl
      rw [fireTop_of_completed plainFiring plainFollow,
        fireTop_of_completed auditedFiring auditedFollow]
      cases verdict with
      | error error => exact .violated (audits.2 error rfl) plainFiring fired
      | ok accepted => exact .proceed waiting fired

private theorem Mirrors.look {plain audited : Interpreter β α μ} (mirrors : plain.Mirrors audited)
    (equipped : audited.Audited) (current : WorkerId) (waiting : List WorkerId) :
    LooksAlike plain current (plain.pullStep current waiting)
      (audited.pullStep current waiting) := by
  have workers : plain.graph.worker? current = audited.graph.worker? current := by
    unfold Graph.worker?
    rw [mirrors.graph.1]
  have counts (id : WorkerId) : plain.graph.executions? id = audited.graph.executions? id := by
    unfold Graph.executions? Graph.worker?
    rw [mirrors.graph.1]
  have members : plain.members = audited.members := by rw [mirrors.rest]
  have constraints : plain.constraints = audited.constraints := by rw [mirrors.rest]
  unfold pullStep
  rw [workers]
  cases known : audited.graph.worker? current with
  | none => exact .stop _ mirrors
  | some worker =>
      dsimp only
      split
      next => exact .stop _ mirrors
      next =>
        have starved : worker.starvedInput plain.graph.bank =
            worker.starvedInput audited.graph.bank :=
          worker.starvedFrom_sameItems mirrors.graph.bank 0 _
        have due : plain.dueSender? current worker.upcoming =
            audited.dueSender? current worker.upcoming := by
          unfold dueSender? isDue
          rw [constraints]
          simp only [counts]
        have producer (input : Nat) :
            plain.producer? worker input = audited.producer? worker input := by
          unfold producer?
          rw [members]
        rw [starved, due]
        split
        next => exact .stop _ mirrors
        next input _ =>
          rw [producer]
          split
          next => exact .proceed _ mirrors
          next =>
            exact .stop _ (mirrors.withStats fun stats =>
              { stats with stalledPulls := stats.stalledPulls + 1 })
        next =>
          split
          next => exact .proceed _ mirrors
          next => exact mirrors.fireTop equipped known waiting

theorem PullView.audited {interpreter : Interpreter β α μ} {current : WorkerId}
    {waiting : List WorkerId} {step : PullStep β α μ}
    (view : PullView interpreter current waiting step) (equipped : interpreter.Audited) :
    step.left.Audited := by
  have frame := view.frame_left
  have sound : step.left.graph.frame.Sound := by
    have same : step.left.graph.frame = interpreter.graph.frame :=
      congrArg InterpreterFrame.graph frame
    rw [same]
    exact equipped.sound
  have delegate : step.left.delegate = { audits := true } :=
    (congrArg InterpreterFrame.delegate frame).trans equipped.delegate
  have framed := interpreter.graph.frame_fire current
  have fired := Graph.instrumented_fire equipped.instrumented current
  have followed {worker : Worker β μ} {graph left : Graph β α μ} {verdict : Except Error Unit}
      (known : interpreter.graph.worker? current = some worker)
      (firing : interpreter.graph.fire current = (.ok (), graph))
      (follow : interpreter.delegate.afterFire (interpreter.stats.firings + 1) graph current =
        (verdict, left)) : left.bank.Instrumented := by
    rw [firing] at framed fired
    rw [equipped.delegate, Delegate.afterFire_audits] at follow
    rcases Graph.worker_of_frame_eq framed.symm known with ⟨after, afterKnown, _⟩
    have audits := Graph.instrumented_audit (framed ▸ equipped.sound) fired afterKnown
    rw [follow] at audits
    exact audits.1
  refine ⟨sound, ?_, delegate⟩
  cases view with
  | unknown absent => exact equipped.instrumented
  | circular known waits => exact equipped.instrumented
  | unsupported known free refused => exact equipped.instrumented
  | stalled known free starved outside => exact equipped.instrumented
  | feeder known free starved producer => exact equipped.instrumented
  | sender known free fed due => exact equipped.instrumented
  | failed ready free firing =>
      rw [firing] at fired
      exact fired
  | refused ready free firing follow => exact followed ready.known firing follow
  | fired ready free firing follow => exact followed ready.known firing follow

theorem pullSteps_audited {fuel : Nat} {stack : List WorkerId}
    {interpreter left : Interpreter β α μ} {answer : Except Error Bool}
    (equipped : interpreter.Audited)
    (run : pullSteps fuel stack interpreter = some (answer, left)) : left.Audited :=
  pullSteps_induction (fun _ now => now.Audited) (fun _ now => now.Audited)
    (fun _ equipped => equipped) (fun _ _ _ _ _ equipped view => view.audited equipped)
    (fun _ _ _ _ _ equipped view => view.audited equipped) run equipped

/-- How two calls compare. Both need more steps, or both end alike, or the audited one ends in
a violation: then there is a look at which the plain one has just made the same firing, and is
left as the audited one is. -/
inductive Agrees (looks : List (Look β α μ)) :
    Option (Outcome Bool (Interpreter β α μ)) → Option (Outcome Bool (Interpreter β α μ)) →
      Prop where
  | unfinished : Agrees looks none none
  | finished (answer : Except Error Bool) {plain audited : Interpreter β α μ}
      (mirrors : plain.Mirrors audited) :
      Agrees looks (some (answer, plain)) (some (answer, audited))
  | violated {outcome : Option (Outcome Bool (Interpreter β α μ))} {error : Error}
      {look : Look β α μ} {current : WorkerId} {waiting : List WorkerId}
      {after : Graph β α μ} {audited : Interpreter β α μ} (violation : error.Violation)
      (member : look ∈ looks) (top : look.stack = current :: waiting)
      (firing : look.interpreter.graph.fire current = (.ok (), after))
      (mirrors : (countFiring { look.interpreter with graph := after } current).Mirrors audited) :
      Agrees looks outcome (some (.error error, audited))

theorem Agrees.mono {looks more : List (Look β α μ)}
    {plain audited : Option (Outcome Bool (Interpreter β α μ))}
    (agrees : Agrees looks plain audited) (subset : looks ⊆ more) :
    Agrees more plain audited := by
  cases agrees with
  | unfinished => exact .unfinished
  | finished answer mirrors => exact .finished answer mirrors
  | violated violation member top firing mirrors =>
      exact .violated violation (subset member) top firing mirrors

private theorem Mirrors.pullSteps {plain audited : Interpreter β α μ}
    (mirrors : plain.Mirrors audited) (equipped : audited.Audited) (fuel : Nat)
    (stack : List WorkerId) :
    Agrees (pullLooks fuel stack plain) (Interpreter.pullSteps fuel stack plain)
      (Interpreter.pullSteps fuel stack audited) := by
  induction fuel generalizing stack plain audited with
  | zero => exact .unfinished
  | succ fuel inductionHypothesis =>
      cases stack with
      | nil => exact .finished _ mirrors
      | cons current waiting =>
          have alike := mirrors.look equipped current waiting
          have next := (audited.pullStep_view current waiting).audited equipped
          unfold Interpreter.pullSteps pullLooks
          generalize plain.pullStep current waiting = plainStep at alike
          generalize audited.pullStep current waiting = auditedStep at alike next
          cases alike with
          | stop answer mirrors => exact .finished answer mirrors
          | proceed stack mirrors =>
              exact (inductionHypothesis mirrors next stack).mono (List.subset_cons_self _ _)
          | violated violation firing mirrors =>
              exact .violated violation (List.mem_cons_self ..) rfl firing mirrors

theorem keptByPulls_audited (sinks : List WorkerId) :
    KeptByPulls sinks (fun now : Interpreter β α μ => now.sinks = sinks ∧ now.Audited)
      (fun _ now => now.Audited) where
  counted := fun _ _ holds =>
    ⟨holds.1, holds.2.sound, holds.2.instrumented, holds.2.delegate⟩
  sinks_eq := fun _ holds => holds.1
  pulled := fun _ _ _ _ _ _ holds run =>
    ⟨(congrArg InterpreterFrame.sinks (pullSteps_frame run)).trans holds.1,
      pullSteps_audited holds.2 run⟩
  failed := fun _ _ _ _ _ _ holds run => pullSteps_audited holds.2 run

omit [Recipient β μ] [Work β α μ] in
theorem Audited.withStats {interpreter : Interpreter β α μ} (equipped : interpreter.Audited)
    (stats : InterpreterStats) : { interpreter with stats := stats }.Audited :=
  ⟨equipped.sound, equipped.instrumented, equipped.delegate⟩

private theorem Mirrors.pass {plain audited : Interpreter β α μ} (mirrors : plain.Mirrors audited)
    (equipped : audited.Audited) (fuel : Nat) (fired : Bool) (pending : List WorkerId) :
    Agrees (passLooks fuel pending plain) (Interpreter.pass fuel fired pending plain)
      (Interpreter.pass fuel fired pending audited) := by
  induction pending generalizing fired plain audited with
  | nil => exact .finished _ mirrors
  | cons sink rest inductionHypothesis =>
      have counted := mirrors.withStats fun stats => { stats with pulls := stats.pulls + 1 }
      have start := equipped.withStats { audited.stats with pulls := audited.stats.pulls + 1 }
      have pulled := counted.pullSteps start fuel [sink]
      have kept (answer : Except Error Bool) (left : Interpreter β α μ)
          (run : audited.pull fuel sink = some (answer, left)) : left.Audited :=
        pullSteps_audited start run
      change Agrees _ (plain.pull fuel sink) (audited.pull fuel sink) at pulled
      unfold Interpreter.pass passLooks
      generalize plain.pull fuel sink = plainOutcome at pulled
      generalize audited.pull fuel sink = auditedOutcome at pulled kept
      cases pulled with
      | unfinished => exact .unfinished
      | finished answer mirrors =>
          cases answer with
          | error error => exact .finished _ mirrors
          | ok progress =>
              exact (inductionHypothesis mirrors (kept _ _ rfl) _).mono
                (List.subset_append_right _ _)
      | violated violation member top firing mirrors =>
          exact .violated violation (List.mem_append_left _ member) top firing mirrors

private theorem Mirrors.passes {plain audited : Interpreter β α μ} (mirrors : plain.Mirrors audited)
    (equipped : audited.Audited) (pullFuel fuel : Nat) (remaining : Option Nat)
    (everFired : Bool) :
    Agrees (passesLooks pullFuel fuel remaining plain)
      (Interpreter.passes pullFuel fuel remaining everFired plain)
      (Interpreter.passes pullFuel fuel remaining everFired audited) := by
  induction fuel generalizing remaining everFired plain audited with
  | zero => exact .unfinished
  | succ fuel inductionHypothesis =>
      by_cases limit : remaining = some 0
      · subst limit
        exact .finished _ mirrors
      · have counted := mirrors.withStats fun stats => { stats with passes := stats.passes + 1 }
        have start := equipped.withStats
          { audited.stats with passes := audited.stats.passes + 1 }
        have sinks : plain.sinks = audited.sinks := by rw [mirrors.rest]
        have passed := counted.pass start pullFuel false plain.sinks
        rw [congrArg (fun pending => Interpreter.pass pullFuel false pending
          { audited with
            stats := { audited.stats with passes := audited.stats.passes + 1 } }) sinks] at passed
        have kept (progress : Bool) (left : Interpreter β α μ)
            (run : Interpreter.pass pullFuel false audited.sinks
              { audited with
                stats := { audited.stats with passes := audited.stats.passes + 1 } } =
              some (.ok progress, left)) : left.Audited := by
          have keeps := keptByPulls_audited (β := β) (α := α) (μ := μ) audited.sinks
          exact (keeps.pass (fun _ member => member) (keeps.counted audited _ ⟨rfl, equipped⟩)
            run).2
        rw [passes_eq_goOn limit, passes_eq_goOn limit]
        unfold passesLooks
        rw [if_neg limit]
        dsimp only at passed kept ⊢
        generalize Interpreter.pass pullFuel false audited.sinks
          (_ : Interpreter β α μ) = auditedOutcome at passed kept ⊢
        generalize Interpreter.pass pullFuel false plain.sinks
          (_ : Interpreter β α μ) = plainOutcome at passed ⊢
        cases passed with
        | unfinished => exact .unfinished
        | finished answer mirrors =>
            cases answer with
            | error error => exact .finished _ mirrors
            | ok progress =>
                cases progress with
                | false => exact .finished _ mirrors
                | true =>
                    exact (inductionHypothesis mirrors (kept _ _ rfl) _ _).mono
                      (List.subset_append_right _ _)
        | violated violation member top firing mirrors =>
            exact .violated violation (List.mem_append_left _ member) top firing mirrors

/-- Calls of mirrored interpreters agree. -/
theorem Mirrors.interpret {plain audited : Interpreter β α μ} (mirrors : plain.Mirrors audited)
    (equipped : audited.Audited) (fuel : Nat) :
    Agrees (plain.looks fuel) (plain.interpret fuel) (audited.interpret fuel) := by
  have counted := mirrors.withStats fun stats =>
    { stats with interpretCalls := stats.interpretCalls + 1 }
  have start := equipped.withStats
    { audited.stats with interpretCalls := audited.stats.interpretCalls + 1 }
  have limit : plain.maxPasses = audited.maxPasses := by rw [mirrors.rest]
  have called : audited.interpret fuel = Interpreter.passes fuel fuel plain.maxPasses false
      { audited with
        stats := { audited.stats with
          interpretCalls := audited.stats.interpretCalls + 1 } } := by
    rw [limit]
    rfl
  rw [called]
  exact counted.passes start fuel fuel plain.maxPasses false

private theorem interpret_audited {fuel : Nat} {interpreter left : Interpreter β α μ}
    {answer : Except Error Bool} (equipped : interpreter.Audited)
    (run : interpreter.interpret fuel = some (answer, left)) : left.Audited := by
  have kept := (keptByPulls_audited interpreter.sinks).interpret ⟨rfl, equipped⟩ run
  cases answer with
  | error error => exact kept
  | ok fired => exact kept.2

end

/-- One thing to do with an interpreter: to put elements into a boundary channel, to take one
out, or to let it run for so many steps. -/
inductive Act (α : Type) where
  | push (token : BoundaryToken) (elements : List α)
  | pop (token : BoundaryToken)
  | call (fuel : Nat)

inductive Reply (α : Type) where
  | pushed (known : Bool)
  | popped (answer : Option (Except Error α))
  | returned (answer : Except Error Bool)

def Reply.Violation : Reply α → Prop
  | .returned (.error error) => error.Violation
  | _ => False

section

variable [Recipient β μ] [Work β α μ]

def act (interpreter : Interpreter β α μ) : Act α → Option (Reply α × Interpreter β α μ)
  | .push token elements =>
      match interpreter.pushAll? token elements with
      | none => some (.pushed false, interpreter)
      | some left => some (.pushed true, left)
  | .pop token =>
      match interpreter.pop? token with
      | none => some (.popped none, interpreter)
      | some (answer, left) => some (.popped (some answer), left)
  | .call fuel =>
      match interpreter.interpret fuel with
      | none => none
      | some (answer, left) => some (.returned answer, left)

def actAll : List (Act α) → Interpreter β α μ → Option (List (Reply α) × Interpreter β α μ)
  | [], interpreter => some ([], interpreter)
  | first :: rest, interpreter =>
      match interpreter.act first with
      | none => none
      | some (reply, left) =>
          (actAll rest left).map fun (replies, last) => (reply :: replies, last)

omit [Recipient β μ] [Work β α μ] in
private theorem Audited.withBank {interpreter : Interpreter β α μ} (equipped : interpreter.Audited)
    {channel : ChannelId} {content : Channel α}
    (counts : content.stats.isSome =
      (interpreter.graph.bank.channel channel).stats.isSome) :
    (interpreter.withBank (interpreter.graph.bank.set channel content)).Audited where
  sound := by
    have framed := interpreter.graph.frame_withBank
      (interpreter.graph.bank.keys_set channel content)
    change ({ interpreter.graph with bank := _ } : Graph β α μ).frame.Sound
    rw [framed]
    exact equipped.sound
  instrumented := equipped.instrumented.set counts
  delegate := equipped.delegate

private theorem Mirrors.act {plain audited left : Interpreter β α μ}
    (mirrors : plain.Mirrors audited) (equipped : audited.Audited) {what : Act α} {reply : Reply α}
    (done : audited.act what = some (reply, left)) (accepted : ¬ reply.Violation) :
    left.Audited ∧ ∃ plainLeft, plain.act what = some (reply, plainLeft) ∧
      plainLeft.Mirrors left := by
  have behind (token : BoundaryToken) : plain.channelId? token = audited.channelId? token := by
    rw [mirrors.rest]
    rfl
  cases what with
  | push token elements =>
      dsimp only [Interpreter.act, pushAll?] at done ⊢
      rw [behind]
      cases found : audited.channelId? token with
      | none =>
          rw [found] at done
          cases done
          exact ⟨equipped, plain, rfl, mirrors⟩
      | some channel =>
          rw [found] at done
          cases done
          exact ⟨equipped.withBank (Channel.isSome_stats_pushAll _ _), _, rfl,
            mirrors.withBank (mirrors.graph.bank.pushAll channel elements)⟩
  | pop token =>
      dsimp only [Interpreter.act, pop?] at done ⊢
      rw [behind]
      cases found : audited.channelId? token with
      | none =>
          rw [found] at done
          cases done
          exact ⟨equipped, plain, rfl, mirrors⟩
      | some channel =>
          rw [found] at done
          cases done
          have popped := mirrors.graph.bank.pop channel
          refine ⟨equipped.withBank (Channel.isSome_stats_pop _), _, ?_,
            mirrors.withBank popped.2⟩
          dsimp only [Option.map_some]
          rw [popped.1]
  | call fuel =>
      have agrees := mirrors.interpret equipped fuel
      have kept (answer : Except Error Bool) (left : Interpreter β α μ)
          (run : audited.interpret fuel = some (answer, left)) : left.Audited :=
        interpret_audited equipped run
      dsimp only [Interpreter.act] at done ⊢
      generalize plain.interpret fuel = plainOutcome at agrees
      generalize audited.interpret fuel = auditedOutcome at agrees done kept
      cases agrees with
      | unfinished => cases done
      | finished answer mirrors =>
          cases done
          exact ⟨kept _ _ rfl, _, rfl, mirrors⟩
      | violated violation member top firing mirrors =>
          cases done
          exact absurd violation accepted

/-- As long as no audit finds a violation, all replies are the same. -/
theorem Mirrors.actAll {plain audited left : Interpreter β α μ} (mirrors : plain.Mirrors audited)
    (equipped : audited.Audited) {history : List (Act α)} {replies : List (Reply α)}
    (done : Interpreter.actAll history audited = some (replies, left))
    (accepted : ∀ reply ∈ replies, ¬ reply.Violation) :
    left.Audited ∧ ∃ plainLeft, Interpreter.actAll history plain = some (replies, plainLeft) ∧
      plainLeft.Mirrors left := by
  induction history generalizing plain audited replies with
  | nil =>
      cases done
      exact ⟨equipped, plain, rfl, mirrors⟩
  | cons first rest inductionHypothesis =>
      unfold Interpreter.actAll at done ⊢
      cases step : audited.act first with
      | none =>
          rw [step] at done
          cases done
      | some outcome =>
          rcases outcome with ⟨reply, after⟩
          rw [step] at done
          rcases Option.map_eq_some_iff.mp done with ⟨⟨others, last⟩, later, equal⟩
          cases equal
          rw [List.forall_mem_cons] at accepted
          rcases mirrors.act equipped step accepted.1 with ⟨kept, plainAfter, same, next⟩
          rcases inductionHypothesis next kept later accepted.2 with
            ⟨lastKept, plainLast, rests, final⟩
          refine ⟨lastKept, plainLast, ?_, final⟩
          rw [same]
          exact Option.map_eq_some_iff.mpr ⟨_, rests, rfl⟩

end

/-! ### The same graph, twice -/

private theorem create_withBank (graph : Graph β α μ) (bank : Bank α) (workers : List WorkerId)
    (given : List Constraint) :
    create { graph with bank := bank } workers given =
      (create graph workers given).map (fun made => made.withBank bank) := by
  have unknown : unknownWorker? { graph with bank := bank } workers =
      unknownWorker? graph workers := rfl
  have ids : ({ graph with bank := bank } : Graph β α μ).workerIds = graph.workerIds := rfl
  have fault (members : List WorkerId) :
      constraintFault? { graph with bank := bank } members given =
        constraintFault? graph members given := rfl
  unfold create
  rw [unknown]
  cases unknownWorker? graph workers with
  | some unknown => rfl
  | none =>
      dsimp only
      rw [ids, fault]
      cases constraintFault? graph (graph.workerIds.filter workers.contains) given <;> rfl

def equip [Signature β] (factory : ChannelFactory) (delegate : Delegate)
    (calls : List (Builder.Call β α)) (workers : List WorkerId) (given : List Constraint)
    (maxPasses : Option Nat) : Except Error (Interpreter β α μ) :=
  match (Builder.assemble factory calls).build.1 with
  | .error error => .error error
  | .ok graph =>
      (create graph workers given).map fun made =>
        { made with delegate := delegate, maxPasses := maxPasses }

section

variable [Signature β]

variable (factory : ChannelFactory)

private theorem equip_audited {calls : List (Builder.Call β α)} {workers : List WorkerId}
    {given : List Constraint} {maxPasses : Option Nat} {audited : Interpreter β α μ}
    (made : equip { factory with kind := .debug } { audits := true } calls workers given
      maxPasses = .ok audited) :
    audited.Audited := by
  unfold equip at made
  split at made
  next => cases made
  next graph built =>
    have sound : graph.frame.Sound :=
      Graph.Built.sound ⟨_, Builder.assemble_assembled _ calls, built⟩
    have instrumented : graph.bank.Instrumented := by
      rw [Builder.bank_of_assemble built]
      exact Bank.recast_instrumented rfl _
    cases created : create graph workers given with
    | error error =>
        rw [created] at made
        cases made
    | ok opened =>
        have same := (accepted_of_create created).graph_eq
        rw [created] at made
        cases made
        exact ⟨same ▸ sound, same ▸ instrumented, rfl⟩

private theorem equip_mirrors (calls : List (Builder.Call β α)) (workers : List WorkerId)
    (given : List Constraint) (maxPasses : Option Nat) :
    (∃ error,
      equip (μ := μ) { factory with kind := .array } {} calls workers given maxPasses =
          .error error ∧
        equip (μ := μ) { factory with kind := .debug } { audits := true } calls workers given
          maxPasses = .error error) ∨
    ∃ plain audited : Interpreter β α μ,
      equip { factory with kind := .array } {} calls workers given maxPasses = .ok plain ∧
        equip { factory with kind := .debug } { audits := true } calls workers given maxPasses =
          .ok audited ∧
        plain.Mirrors audited := by
  have recast := Builder.recast_build (μ := μ) .debug
    (Builder.assemble { factory with kind := .array } calls)
  rw [← Builder.assemble_eq_recast] at recast
  unfold equip
  dsimp only at recast ⊢
  rw [recast]
  cases built : (Builder.assemble { factory with kind := .array } calls).build.1 with
  | error error => exact .inl ⟨error, rfl, rfl⟩
  | ok graph =>
      have elements : (graph.bank.recast .debug).SameItems graph.bank := by
        have empty := Bank.recast_sameItems .debug .array graph.bank
        rw [← Builder.bank_of_assemble built] at empty
        exact empty
      have opened := create_withBank graph (graph.bank.recast .debug) workers given
      dsimp only [Except.map]
      rw [opened]
      cases created : create graph workers given with
      | error error => exact .inl ⟨error, rfl, rfl⟩
      | ok made =>
          have same := (accepted_of_create created).graph_eq
          subst same
          refine .inr ⟨_, _, rfl, rfl, ?_, rfl⟩
          exact (Graph.sameButCounts_withBank made.graph elements).symm

/-- An audited interpreter and a plain one, made in the same way over graphs assembled by the
same calls, reply alike to every history in which no audit finds a violation, and are then left
with the same of everything but counts: the same firings in the same order, workers, elements
and statistics. Every further call of the two goes alike until it ends or an audit finds a
violation; then the audited graph is as the plain one is right after that firing. -/
theorem auditing_is_transparent [Recipient β μ] [Work β α μ] (calls : List (Builder.Call β α))
    (workers : List WorkerId) (given : List Constraint) (maxPasses : Option Nat) :
    (∃ error,
      equip (μ := μ) { factory with kind := .array } {} calls workers given maxPasses =
          .error error ∧
        equip (μ := μ) { factory with kind := .debug } { audits := true } calls workers given
          maxPasses = .error error) ∨
    ∃ plain audited : Interpreter β α μ,
      equip { factory with kind := .array } {} calls workers given maxPasses = .ok plain ∧
        equip { factory with kind := .debug } { audits := true } calls workers given maxPasses =
          .ok audited ∧
        ∀ (history : List (Act α)) (replies : List (Reply α)) (left : Interpreter β α μ),
          audited.actAll history = some (replies, left) →
          (∀ reply ∈ replies, ¬ reply.Violation) →
          ∃ plainLeft, plain.actAll history = some (replies, plainLeft) ∧
            plainLeft.Mirrors left ∧
            ∀ fuel, Agrees (plainLeft.looks fuel) (plainLeft.interpret fuel)
              (left.interpret fuel) := by
  rcases equip_mirrors (μ := μ) factory calls workers given maxPasses with
    refused | ⟨plain, audited, plainMade, auditedMade, mirrors⟩
  · exact .inl refused
  · refine .inr ⟨plain, audited, plainMade, auditedMade, ?_⟩
    intro history replies left done accepted
    rcases mirrors.actAll (equip_audited factory auditedMade) done accepted with
      ⟨kept, plainLeft, same, final⟩
    exact ⟨plainLeft, same, final, fun fuel => final.interpret kept fuel⟩

end

/-- A filter that passes elements on, before one that puts out more than it declares. -/
def talkative : List (Builder.Call Body Int64) :=
  [.addStream (.pipeline
    [.filter ⟨"pass", .standard .identity⟩,
      .filter ⟨"double", .closure
        { pop := .exact 1
          push := .exact 1
          script := .step (.pop 0) (.step .dup (.step (.push 0) (.step (.push 0) .finish))) }⟩])]

theorem auditing_is_transparent_talkative :
    ∃ (plain audited plainLeft left : Interpreter Body Int64 Notice)
      (replies : List (Reply Int64)) (error : Error) (violating : Interpreter Body Int64 Notice),
      equip {} {} talkative [0, 1] [] none = .ok plain ∧
        equip { kind := .debug } { audits := true } talkative [0, 1] [] none = .ok audited ∧
        audited.actAll [.call 9, .push 0 [7]] = some (replies, left) ∧
        plain.actAll [.call 9, .push 0 [7]] = some (replies, plainLeft) ∧
        plainLeft.Mirrors left ∧ left.interpret 9 = some (.error error, violating) ∧
        error.Violation ∧
        Agrees (plainLeft.looks 9) (plainLeft.interpret 9) (some (.error error, violating)) := by
  rcases auditing_is_transparent (μ := Notice) {} talkative [0, 1] [] none with
    ⟨error, refused, _⟩ | ⟨plain, audited, plainMade, auditedMade, alike⟩
  · cases refused
  · cases auditedMade
    rcases alike [.call 9, .push 0 [7]] _ _ rfl (by simp [Reply.Violation]) with
      ⟨plainLeft, same, mirrors, agrees⟩
    exact ⟨plain, _, plainLeft, _, _, _, _, plainMade, rfl, rfl, same, mirrors, rfl,
      ⟨_, _, _, _, _, rfl⟩, agrees 9⟩

end Interpreter

end DemandFlow
