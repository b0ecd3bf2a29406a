import Mathlib.Algebra.Order.BigOperators.Group.List
import Mathlib.Data.Finsupp.WellFounded
import Mathlib.Order.WellFoundedSet
import DemandFlow.Proofs.Graph.Candor
import DemandFlow.Proofs.Interpreter.Halting
import DemandFlow.Proofs.Stream.Tracking

/-!
Consuming sections come to rest. Where no worker of a section comes to supply itself and every
legal firing takes something from an input, a firing makes the inputs of its worker hold less
and touches, besides, only inputs further down. So the loads of the workers, compared from the
top of the section downwards, decrease with every firing, however much it puts out, and a call
comes to an end.
-/

set_option autoImplicit false

namespace DemandFlow

variable {β α μ : Type}

namespace Interpreter

open Relation

/-- An input of the lower worker is fed by the upper one, and both are in the section. -/
def Supplies (interpreter : Interpreter β α μ) (upper lower : WorkerId) : Prop :=
  upper ∈ interpreter.members ∧ lower ∈ interpreter.members ∧
    ∃ port ∈ interpreter.graph.frame.wiring.inputs lower, port.peer = some upper

def Acyclic (interpreter : Interpreter β α μ) : Prop :=
  ∀ id, ¬ TransGen interpreter.Supplies id id

/-- Wherever legal firings of the section can lead to, the next one takes something from an
input of its worker. -/
def Consuming [Recipient β μ] [Work β α μ] (interpreter : Interpreter β α μ) : Prop :=
  ∀ fired now id graph, interpreter.LegalRun false fired now → now.Legal id →
    now.graph.fire id = (.ok (), graph) →
    ∃ port ∈ now.graph.frame.wiring.inputs id,
      (graph.bank.channel port.channel).size < (now.graph.bank.channel port.channel).size

theorem Ready.legal {interpreter : Interpreter β α μ} {id : WorkerId} {worker : Worker β μ}
    (ready : interpreter.Ready id worker) (inside : id ∈ interpreter.members) :
    interpreter.Legal id where
  inside := inside
  fed := by
    intro other known index port peek pop place peekAt popAt
    rw [ready.known] at known
    cases known
    have entry : (worker.inputs.zip (worker.rates.peek.zip worker.rates.pop))[index]? =
        some (port, peek, pop) := by
      rw [List.getElem?_zip_eq_some, List.getElem?_zip_eq_some]
      exact ⟨place, peekAt, popAt⟩
    exact Worker.starvedFrom_none ready.fed entry
  clear := by
    intro constraint scheduled recipient sent received sends receives
    have notDue := dueSender?_eq_none ready.punctual constraint scheduled recipient
    rw [Graph.executions?_of_known ready.known] at receives
    cases receives
    apply Nat.lt_of_not_le
    intro late
    have due : interpreter.isDue worker.upcoming constraint = true :=
      isDue_eq_true.mpr ⟨sent, sends, late⟩
    rw [notDue] at due
    cases due

def load (interpreter : Interpreter β α μ) (id : WorkerId) : Nat :=
  ((interpreter.graph.frame.wiring.inputs id).map
    (fun port => (interpreter.graph.bank.channel port.channel).size)).sum

theorem load_congr {before after : Interpreter β α μ} {id : WorkerId}
    (frame : after.graph.frame = before.graph.frame)
    (same : ∀ port ∈ before.graph.frame.wiring.inputs id,
      (after.graph.bank.channel port.channel).size =
        (before.graph.bank.channel port.channel).size) : after.load id = before.load id := by
  unfold load
  rw [frame, List.map_congr_left same]

section

variable [Recipient β μ] [Work β α μ] {interpreter : Interpreter β α μ}
  {graph : Graph β α μ} {current : WorkerId}

/-- A firing that takes something from an input lowers the load of its worker. -/
theorem load_fire_self (sound : interpreter.graph.frame.Sound)
    (unshared : interpreter.graph.bank.Unshared)
    (firing : interpreter.graph.fire current = (.ok (), graph))
    (takes : ∃ port ∈ interpreter.graph.frame.wiring.inputs current,
      (graph.bank.channel port.channel).size <
        (interpreter.graph.bank.channel port.channel).size) :
    { interpreter with graph := graph }.load current < interpreter.load current := by
  have frame := interpreter.graph.frame_fire current
  rw [firing] at frame
  unfold load
  dsimp only
  rw [frame]
  refine List.sum_lt_sum _ _ ?_ takes
  intro port member
  obtain ⟨input, inputPlace⟩ := List.mem_iff_getElem?.mp member
  have notOutput : ∀ output ∈ interpreter.graph.frame.wiring.outputs current,
      port.channel ≠ output.channel := by
    intro output outputIn same
    obtain ⟨index, outputPlace⟩ := List.mem_iff_getElem?.mp outputIn
    exact (sound.wiring.ends current current index input output port outputPlace inputPlace
      same.symm).2.2 rfl
  have lost := Graph.items_fire_loss unshared current notOutput
  rw [firing] at lost
  exact lost.length_le

/-- It leaves alone the load of everybody else that it does not supply. -/
theorem load_fire_of_not_supplied (sound : interpreter.graph.frame.Sound)
    (unshared : interpreter.graph.bank.Unshared)
    (firing : interpreter.graph.fire current = (.ok (), graph))
    (inside : current ∈ interpreter.members) {other : WorkerId}
    (otherIn : other ∈ interpreter.members) (different : other ≠ current)
    (apart : ¬ interpreter.Supplies current other) :
    { interpreter with graph := graph }.load other = interpreter.load other := by
  have frame := interpreter.graph.frame_fire current
  rw [firing] at frame
  apply load_congr frame
  intro port member
  have kept := Graph.channel_fire_of_input unshared sound different member
    (fun named => apart ⟨inside, otherIn, port, member, named⟩)
  rw [firing] at kept
  exact congrArg Channel.size kept

end

/-! ### The order of loads -/

/-- Everybody but the worker itself and those that it supplies, directly or not. -/
def Unreached (interpreter : Interpreter β α μ) (other id : WorkerId) : Prop :=
  other ≠ id ∧ ¬ TransGen interpreter.Supplies id other

noncomputable def loads (interpreter : Interpreter β α μ) : WorkerId →₀ Nat :=
  Finsupp.onFinset interpreter.members.toFinset
    (fun id => if id ∈ interpreter.members then interpreter.load id else 0) (by
      intro id positive
      rw [List.mem_toFinset]
      by_contra outside
      exact positive (if_neg outside))

private theorem supplies_mem {interpreter : Interpreter β α μ} {upper lower : WorkerId}
    (reached : TransGen interpreter.Supplies upper lower) :
    upper ∈ interpreter.members ∧ lower ∈ interpreter.members := by
  induction reached with
  | single supplies => exact ⟨supplies.1, supplies.2.1⟩
  | tail _ supplies inductionHypothesis => exact ⟨inductionHypothesis.1, supplies.2.1⟩

/-- In an acyclic section nobody has an infinite line of workers below it. -/
theorem Acyclic.wellFounded {interpreter : Interpreter β α μ} (acyclic : interpreter.Acyclic) :
    WellFounded (fun lower upper => TransGen interpreter.Supplies upper lower) := by
  have order : IsStrictOrder WorkerId (fun lower upper =>
      TransGen interpreter.Supplies upper lower) :=
    { irrefl := acyclic
      trans := fun _ _ _ lower upper => upper.trans lower }
  have finite : (interpreter.members.toFinset : Set WorkerId).Finite :=
    interpreter.members.toFinset.finite_toSet
  have inside := Set.wellFoundedOn_iff.mp (finite.wellFoundedOn
    (r := fun lower upper => TransGen interpreter.Supplies upper lower))
  refine Subrelation.wf ?_ inside
  intro lower upper reached
  obtain ⟨upperIn, lowerIn⟩ := supplies_mem reached
  exact ⟨reached, List.mem_toFinset.mpr lowerIn, List.mem_toFinset.mpr upperIn⟩

private theorem Acyclic.loads_wellFounded {interpreter : Interpreter β α μ}
    (acyclic : interpreter.Acyclic) :
    WellFounded (Finsupp.Lex interpreter.Unreached
      ((· < ·) : Nat → Nat → Prop)) := by
  refine Finsupp.Lex.wellFounded (fun count => Nat.not_lt_zero count) Nat.lt_wfRel.wf ?_
  refine Subrelation.wf ?_ acyclic.wellFounded
  intro lower upper below
  by_contra apart
  exact below.1 ⟨below.2, apart⟩

variable [Recipient β μ] [Work β α μ]

/-- What firings of a call lead to: some legal run leads there as well. -/
structure Along (start now : Interpreter β α μ) : Prop where
  frame_eq : now.frame = start.frame
  run : ∃ fired stats journal,
    start.LegalRun false fired { now with stats := stats, journal := journal }

theorem Along.legal {start now : Interpreter β α μ} (along : start.Along now)
    {current : WorkerId} {worker : Worker β μ} (ready : now.Ready current worker)
    (inside : current ∈ now.members) :
    ∃ fired stats journal,
      start.LegalRun false fired { now with stats := stats, journal := journal } ∧
      { now with stats := stats, journal := journal }.Legal current := by
  obtain ⟨fired, stats, journal, run⟩ := along.run
  have legal := ready.legal inside
  exact ⟨fired, stats, journal, run, legal.inside, legal.fed, legal.clear⟩

theorem Along.fires {start now : Interpreter β α μ} (along : start.Along now)
    {current : WorkerId} {worker : Worker β μ} (ready : now.Ready current worker)
    (inside : current ∈ now.members) {graph left : Graph β α μ}
    (firing : now.graph.fire current = (.ok (), graph))
    (follow : now.delegate.afterFire (now.stats.firings + 1) graph current = (.ok (), left))
    (frame : (countFiring { now with graph := left } current).frame = now.frame) :
    start.Along (countFiring { now with graph := left } current) := by
  obtain ⟨fired, stats, journal, run, legal⟩ := along.legal ready inside
  have further := LegalRun.follow (LegalRun.fire run legal firing) now.delegate
    (now.stats.firings + 1) current
  dsimp only at further
  rw [follow] at further
  exact ⟨frame.trans along.frame_eq, _, _, _, further⟩

private theorem Along.turn {start now after : Interpreter β α μ} (along : start.Along now)
    (sound : start.frame.Sound) (unshared : start.graph.bank.Unshared)
    (consuming : start.Consuming) (turn : Turn after now) :
    start.Along after ∧ Finsupp.Lex start.Unreached (· < ·) after.loads now.loads := by
  obtain ⟨stats, current, waiting, left, inside, view, rfl⟩ := turn
  have frame := along.frame_eq
  have framed := view.frame_left
  have nowSound : now.graph.frame.Sound := by
    have whole : now.frame.Sound := frame ▸ sound
    exact whole.graph
  have nowUnshared : now.graph.bank.Unshared := unshared_of_frame_eq frame unshared
  have members : now.members = start.members := congrArg InterpreterFrame.members frame
  have graphFrame : now.graph.frame = start.graph.frame := congrArg InterpreterFrame.graph frame
  cases view with
  | @fired worker graph after ready free firing follow =>
      have readyNow : now.Ready current worker := ⟨ready.known, ready.fed, ready.punctual⟩
      obtain ⟨fired, runStats, journal, run, legal⟩ := along.legal readyNow inside
      have firingNow : now.graph.fire current = (.ok (), graph) := firing
      have takes := consuming fired _ current graph run legal firingNow
      have counted := now.delegate.afterFire_sameButCounts (stats.firings + 1) graph current
      rw [follow] at counted
      have counting : start.Along { now with stats := stats } := ⟨frame, along.run⟩
      have further := counting.fires ready inside firing follow framed
      refine ⟨⟨further.frame_eq, further.run⟩, ?_⟩
      have settled (id : WorkerId) :
          (countFiring { { now with stats := stats } with graph := after } current).bare.load id =
            { now with graph := graph }.load id := by
        apply load_congr counted.2.1
        intro port _
        exact congrArg List.length (counted.2.2 port.channel)
      -- The loads are compared at the worker that has fired.
      refine ⟨current, ?_, ?_⟩
      · intro other apart
        by_cases otherIn : other ∈ now.members
        · have kept := load_fire_of_not_supplied nowSound nowUnshared firingNow inside otherIn
            apart.1 (by
              intro supplies
              apply apart.2
              apply TransGen.single
              unfold Supplies at supplies ⊢
              rw [← members, ← graphFrame]
              exact supplies)
          unfold loads
          rw [Finsupp.onFinset_apply, Finsupp.onFinset_apply, if_pos otherIn]
          exact (if_pos otherIn).trans ((settled other).trans kept)
        · unfold loads
          rw [Finsupp.onFinset_apply, Finsupp.onFinset_apply, if_neg otherIn]
          exact if_neg otherIn
      · have less := load_fire_self nowSound nowUnshared firingNow takes
        unfold loads
        rw [Finsupp.onFinset_apply, Finsupp.onFinset_apply, if_pos inside]
        exact lt_of_eq_of_lt ((if_pos inside).trans (settled current)) less

private theorem Along.ends {start now : Interpreter β α μ} (along : start.Along now)
    (sound : start.frame.Sound) (unshared : start.graph.bank.Unshared)
    (consuming : start.Consuming) (acyclic : start.Acyclic) : Acc Turn now := by
  obtain ⟨measure, same⟩ : ∃ measure, measure = now.loads := ⟨now.loads, rfl⟩
  induction measure using acyclic.loads_wellFounded.induction generalizing now with
  | _ measure lower =>
      subst same
      constructor
      intro after turn
      obtain ⟨further, less⟩ := along.turn sound unshared consuming turn
      exact lower after.loads less further rfl

/-- A call on an accepted section comes to an end, with whatever answer, if no worker of it
supplies itself and every firing takes something from one of its inputs. This holds for any
schedules, delegates and limits on passes, and whatever the channels, bodies, counts and queues
are at the time of the call. -/
theorem consuming_call_ends [Signature β] {graph : Graph β α μ} (descends : graph.Descends)
    (unshared : graph.bank.Unshared) {workers : List WorkerId} {given : List Constraint}
    {start interpreter : Interpreter β α μ} (opened : Opens graph workers given start)
    (same : interpreter.frame = start.frame) (acyclic : start.Acyclic)
    (consuming : interpreter.Consuming) :
    ∃ enough answer left, ∀ fuel, enough ≤ fuel →
      interpreter.interpret fuel = some (answer, left) := by
  have sound : interpreter.frame.Sound := same ▸ opened.frame_sound descends.sound
  have unsharedNow : interpreter.graph.bank.Unshared := by
    apply unshared_of_frame_eq same
    rw [opened.graph_eq]
    exact unshared
  have members : interpreter.members = start.members := congrArg InterpreterFrame.members same
  have graphFrame : interpreter.graph.frame = start.graph.frame :=
    congrArg InterpreterFrame.graph same
  have acyclicNow : interpreter.Acyclic := by
    unfold Acyclic Supplies
    rw [members, graphFrame]
    exact acyclic
  have along : interpreter.Along interpreter.bare :=
    ⟨rfl, [], interpreter.stats, interpreter.journal, .start⟩
  exact interpret_halts sound (along.ends sound unsharedNow consuming acyclicNow)

end Interpreter

/-- Whatever state it comes to, the body begins its work with a pop and gives up if that
fails. -/
def PopsFirst (α : Type) (μ : Type) [Recipient β μ] [Work β α μ] (body : β) : Prop :=
  ∀ now, Becomes α μ body now → ∀ firing,
    ∃ (input : Nat) (next : Except Error α → Routine α μ (Except Error Unit × β)),
      Work.work now firing = .pop input next ∧
      ∀ error, ∃ failure after, next (.error error) = .done (.error failure, after)

/-- A routine that begins with a pop and succeeds has taken something. -/
theorem Routine.run_pop_takes {inputs outputs : List Port} {input : Nat}
    {next : Except Error α → Routine α μ (Except Error Unit × β)} {id : WorkerId}
    {scene : Routine.Scene α μ} (unshared : scene.bank.Unshared)
    (apart : ∀ port ∈ inputs, ∀ output ∈ outputs, port.channel ≠ output.channel)
    (fails : ∀ error, ∃ failure after, next (.error error) = .done (.error failure, after))
    (done : ((Routine.pop input next).run id inputs outputs scene).1.1 = .ok ()) :
    ∃ port ∈ inputs,
      (((Routine.pop input next).run id inputs outputs scene).2.bank.channel port.channel).size <
        (scene.bank.channel port.channel).size := by
  unfold run at done ⊢
  cases place : inputs[input]? with
  | none =>
      obtain ⟨failure, after, same⟩ := fails (.invalidGraph (.missingInput id input))
      rw [place] at done
      dsimp only at done
      rw [same] at done
      cases done
  | some port =>
      rw [place] at done
      dsimp only at done ⊢
      have member := List.mem_of_getElem? place
      refine ⟨port, member, ?_⟩
      have taken := scene.bank.items_pop_self port.channel
      have separate : (scene.bank.pop port.channel).2.Unshared := unshared.set _ _
      have rest : (((next (scene.bank.pop port.channel).1).run id inputs outputs
          { scene with bank := (scene.bank.pop port.channel).2 }).2.bank.channel
            port.channel).items <:+
              ((scene.bank.pop port.channel).2.channel port.channel).items :=
        items_run_loss id _ _ separate (apart port member)
      cases items : (scene.bank.channel port.channel).items with
      | nil =>
          have empty : (scene.bank.pop port.channel).1 = .error .emptyChannel := by
            change (scene.bank.channel port.channel).pop.1 = _
            unfold Channel.pop Channel.pop?
            rw [items]
          obtain ⟨failure, after, same⟩ := fails .emptyChannel
          rw [empty, same] at done
          cases done
      | cons front others =>
          have fewer := rest.length_le
          rw [taken, items] at fewer
          unfold Channel.size
          rw [items, List.length_cons]
          exact Nat.lt_succ_of_le fewer

namespace Interpreter

variable [Recipient β μ] [Work β α μ]

private theorem takes_of_popsFirst {graph left : Graph β α μ} (sound : graph.frame.Sound)
    (unshared : graph.bank.Unshared)
    (pops : ∀ id worker, graph.worker? id = some worker → PopsFirst α μ worker.body)
    {id : WorkerId} (firing : graph.fire id = (.ok (), left)) :
    ∃ port ∈ graph.frame.wiring.inputs id,
      (left.bank.channel port.channel).size < (graph.bank.channel port.channel).size := by
  have view := graph.fire_view id
  rw [firing] at view
  cases view with
  | @worked worker ready body scene _ known delivery run routing =>
      have becomes := Worker.deliver_becomes (α := α) worker worker.queue.messages
      unfold Worker.deliverDue at delivery
      rw [delivery] at becomes
      obtain ⟨input, next, begins, fails⟩ := pops id worker known ready.body becomes.1
        { worker := id, executions := ready.executions, shape := ready.shape }
      have same := Worker.frame_deliverDue delivery
      have inputs : ready.inputs = graph.frame.wiring.inputs id := by
        rw [Graph.wiring_inputs known]
        exact congrArg WorkerFrame.inputs same
      have outputs : ready.outputs = graph.frame.wiring.outputs id := by
        rw [Graph.wiring_outputs known]
        exact congrArg WorkerFrame.outputs same
      have apart : ∀ port ∈ ready.inputs, ∀ output ∈ ready.outputs,
          port.channel ≠ output.channel := by
        rw [inputs, outputs]
        intro port portIn output outputIn equal
        obtain ⟨index, place⟩ := List.mem_iff_getElem?.mp portIn
        obtain ⟨outputIndex, outputPlace⟩ := List.mem_iff_getElem?.mp outputIn
        exact (sound.wiring.ends id id outputIndex index output port outputPlace place
          equal.symm).2.2 rfl
      unfold Graph.runBody at run
      rw [begins] at run
      have succeeded : ((Routine.pop input next).run id ready.inputs ready.outputs
          { bank := graph.bank }).1.1 = .ok () := by rw [run]
      obtain ⟨port, member, less⟩ := Routine.run_pop_takes unshared apart fails succeeded
      rw [run] at less
      have bank := (Graph.routeOutbox_others (graph.worked id ready body scene.bank) id
        ready.executions scene.outbox).1
      rw [routing] at bank
      refine ⟨port, inputs ▸ member, ?_⟩
      rw [bank]
      exact less

/-- What bodies keep whatever they receive and do lasts along legal firings. -/
theorem LegalRun.bodies {good : WorkerId → β → Prop}
    (closed : ∀ id body now, good id body → Becomes α μ body now → good id now)
    {start now : Interpreter β α μ} {fired : List WorkerId}
    (run : start.LegalRun false fired now)
    (all : ∀ id worker, start.graph.worker? id = some worker → good id worker.body) :
    now.frame = start.frame ∧
      ∀ id worker, now.graph.worker? id = some worker → good id worker.body := by
  induction run with
  | start => exact ⟨rfl, all⟩
  | @fire fired now id graph before legal firing inductionHypothesis =>
      have frame := now.graph.frame_fire id
      have bodies := Graph.bodies_fire closed inductionHypothesis.2 id
      rw [firing] at frame bodies
      refine ⟨?_, bodies⟩
      rw [← inductionHypothesis.1]
      unfold Interpreter.frame
      rw [← frame]
  | @follow fired now before delegate number id inductionHypothesis =>
      have counted := delegate.afterFire_sameButCounts number now.graph id
      refine ⟨?_, ?_⟩
      · rw [← inductionHypothesis.1]
        unfold Interpreter.frame
        rw [← counted.2.1]
      · unfold Graph.worker?
        rw [counted.1]
        exact inductionHypothesis.2
  | feed before allowed => cases allowed

private theorem consuming_of_popsFirst {start : Interpreter β α μ} (sound : start.frame.Sound)
    (unshared : start.graph.bank.Unshared)
    (pops : ∀ id worker, start.graph.worker? id = some worker → PopsFirst α μ worker.body) :
    start.Consuming := by
  intro fired now id graph run _ firing
  obtain ⟨frame, bodies⟩ := run.bodies
    (fun _ _ _ first change later further => first later (change.trans further)) pops
  have nowSound : now.graph.frame.Sound := by
    have whole : now.frame.Sound := frame ▸ sound
    exact whole.graph
  exact takes_of_popsFirst nowSound (unshared_of_frame_eq frame unshared) bodies firing

end Interpreter

/-! ### The splitter with two sinks, whose second worker is to message the third -/

theorem Standard.becomes {body now : Standard} (change : Becomes α μ body now) : now = body := by
  induction change with
  | start => rfl
  | received before payload inductionHypothesis => exact inductionHypothesis
  | @worked now before firing id inputs outputs scene inductionHypothesis =>
      refine Eq.trans ?_ inductionHypothesis
      change ((Standard.work now firing).run id inputs outputs scene).1.2 = now
      unfold Standard.work
      rw [Routine.run_bind]
      rfl

private theorem Standard.popsFirst_identity : PopsFirst α μ Standard.identity := by
  intro now change firing
  rw [Standard.becomes change]
  exact ⟨0, _, rfl, fun error => ⟨error, .identity, rfl⟩⟩

private theorem Standard.popsFirst_duplicate : PopsFirst α μ Standard.duplicate := by
  intro now change firing
  rw [Standard.becomes change]
  exact ⟨0, _, rfl, fun error => ⟨error, .duplicate, rfl⟩⟩

namespace Interpreter

private theorem twinInterpreter_acyclic : twinInterpreter.Acyclic := by
  have below : ∀ lower ∈ twinInterpreter.members,
      ∀ port ∈ twinInterpreter.graph.frame.wiring.inputs lower,
        port.peer.all (fun upper => decide (upper < lower)) = true := by decide
  have ascends {upper lower : WorkerId} (supplies : twinInterpreter.Supplies upper lower) :
      upper < lower := by
    obtain ⟨_, lowerIn, port, member, named⟩ := supplies
    have ordered := below lower lowerIn port member
    rw [named] at ordered
    exact of_decide_eq_true ordered
  have further {upper lower : WorkerId}
      (reached : Relation.TransGen twinInterpreter.Supplies upper lower) : upper < lower := by
    induction reached with
    | single supplies => exact ascends supplies
    | tail _ supplies inductionHypothesis =>
        exact Nat.lt_trans inductionHypothesis (ascends supplies)
  intro id cycle
  exact Nat.lt_irrefl id (further cycle)

private theorem twinGraph_popsFirst :
    ∀ id worker, twinGraph.worker? id = some worker → PopsFirst Nat Unit worker.body := by
  intro id worker known
  match id, known with
  | 0, known =>
      cases known
      exact Standard.popsFirst_duplicate
  | 1, known =>
      cases known
      exact Standard.popsFirst_identity
  | 2, known =>
      cases known
      exact Standard.popsFirst_identity
  | id + 3, known => cases (show none = some worker from known)

theorem consuming_call_ends_twin : ∃ fed, twinInterpreter.pushAll? 0 [4, 5] = some fed ∧
    fed.Consuming ∧ ∃ enough answer left, ∀ fuel, enough ≤ fuel →
      fed.interpret fuel = some (answer, left) := by
  obtain ⟨fed, push, graph⟩ : ∃ fed, twinInterpreter.pushAll? 0 [4, 5] = some fed ∧
      fed.graph.workers = twinGraph.workers := ⟨_, rfl, rfl⟩
  have same : fed.frame = twinInterpreter.frame := (Traffic.push 0 [4, 5] push).frame_eq
  have sound : fed.frame.Sound := same ▸ twinInterpreter_opens.frame_sound twinGraph_built.sound
  have consuming : fed.Consuming := by
    apply consuming_of_popsFirst sound (unshared_of_frame_eq same twinGraph_unshared)
    unfold Graph.worker?
    rw [graph]
    exact twinGraph_popsFirst
  exact ⟨fed, push, consuming, consuming_call_ends twinGraph_built.descends twinGraph_unshared
    twinInterpreter_opens same twinInterpreter_acyclic consuming⟩

end Interpreter

end DemandFlow
