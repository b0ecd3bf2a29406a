import Mathlib.Algebra.Order.BigOperators.Group.List
import DemandFlow.Proofs.Interpreter.Shape

/-!
Pulls of productive sections end. Who waits on the stack of a pull lacks elements on its inputs
and firings of its senders. Nobody makes this deficit larger, and the firing it waits for makes
it smaller, if every firing puts something on each output that stays in the section and every
schedule gets past every deadline. So a worker waits only so often for the workers stacked on
top of it, and there is room on the stack for each worker of the section once. This holds for
cyclic sections as well.
-/

set_option autoImplicit false

namespace DemandFlow

variable {β α μ : Type}

/-- From some number of firings of the sender on, messages are due after the given firing of the
recipient. -/
def DeliverySchedule.Outgrows (schedule : DeliverySchedule) (firing : Nat) : Prop :=
  ∃ enough, ∀ sent, enough ≤ sent → firing < schedule.deliveryTime sent

private theorem DeliverySchedule.outgrows_latency (firings : Int) {firing : Nat}
    (below : firing < maxCount) : (DeliverySchedule.latency firings).Outgrows firing := by
  refine ⟨firing + 1 + firings.natAbs, ?_⟩
  intro sent enough
  unfold deliveryTime saturate
  refine lt_min ?_ below
  omega

open Classical in
/-- So many firings of the sender take it past the given firing of the recipient for good. -/
noncomputable def DeliverySchedule.horizon (schedule : DeliverySchedule) (firing : Nat) : Nat :=
  if outgrows : schedule.Outgrows firing then outgrows.choose else 0

private theorem DeliverySchedule.Outgrows.lt_horizon {schedule : DeliverySchedule}
    {firing sent : Nat} (outgrows : schedule.Outgrows firing)
    (due : schedule.deliveryTime sent ≤ firing) :
    sent < schedule.horizon firing := by
  unfold horizon
  rw [dif_pos outgrows]
  apply Nat.lt_of_not_le
  intro enough
  have late := outgrows.choose_spec sent enough
  omega

def GraphFrame.needs (frame : GraphFrame) (id : WorkerId) : List (Port × Rate × Rate) :=
  match frame.workers[id]? with
  | none => []
  | some worker => worker.inputs.zip (worker.rates.peek.zip worker.rates.pop)

private theorem Graph.needs_eq {graph : Graph β α μ} {id : WorkerId} {worker : Worker β μ}
    (known : graph.worker? id = some worker) :
    graph.frame.needs id = worker.inputs.zip (worker.rates.peek.zip worker.rates.pop) := by
  unfold GraphFrame.needs
  rw [Graph.frame_get, known]
  rfl

theorem GraphFrame.needs_port {frame : GraphFrame} {id : WorkerId} :
    ∀ entry ∈ frame.needs id, entry.1 ∈ frame.wiring.inputs id := by
  rintro ⟨port, peek, pop⟩ member
  unfold needs at member
  unfold wiring
  dsimp only
  cases known : frame.workers[id]? with
  | none =>
      rw [known] at member
      cases member
  | some worker =>
      rw [known] at member
      exact (List.of_mem_zip member).1

namespace Interpreter

/-- How many elements are missing on the inputs of a worker, all of them together. -/
def shortage (interpreter : Interpreter β α μ) (id : WorkerId) : Nat :=
  ((interpreter.graph.frame.needs id).map (fun entry => (demand? entry.2.1 entry.2.2).getD 0 -
    (interpreter.graph.bank.channel entry.1.channel).size)).sum

/-- How many firings of senders are missing before the next firing of a worker, over all its
constraints. -/
noncomputable def lag (interpreter : Interpreter β α μ) (id : WorkerId) : Nat :=
  ((interpreter.constraints.filter (fun constraint => constraint.recipient == id)).map
    (fun constraint =>
      constraint.schedule.horizon ((interpreter.graph.executions? id).getD 0 + 1) -
        (interpreter.graph.executions? constraint.sender).getD 0)).sum

noncomputable def deficit (interpreter : Interpreter β α μ) (id : WorkerId) : Nat :=
  interpreter.shortage id + interpreter.lag id

structure Nears (before after : Interpreter β α μ) (id : WorkerId) : Prop where
  frame_eq : after.frame = before.frame
  waiter : after.graph.executions? id = before.graph.executions? id
  senders : ∀ other, (before.graph.executions? other).getD 0 ≤
    (after.graph.executions? other).getD 0
  inputs : ∀ port ∈ before.graph.frame.wiring.inputs id,
    (before.graph.bank.channel port.channel).size ≤
      (after.graph.bank.channel port.channel).size

section

variable {before after : Interpreter β α μ} {id : WorkerId}

theorem Nears.shortage_le (nears : before.Nears after id) :
    after.shortage id ≤ before.shortage id := by
  unfold shortage
  rw [show after.graph.frame = before.graph.frame from
    congrArg InterpreterFrame.graph nears.frame_eq]
  apply List.sum_le_sum
  intro entry member
  exact Nat.sub_le_sub_left (nears.inputs _ (GraphFrame.needs_port entry member)) _

theorem Nears.lag_le (nears : before.Nears after id) : after.lag id ≤ before.lag id := by
  unfold lag
  rw [show after.constraints = before.constraints from
    congrArg InterpreterFrame.constraints nears.frame_eq, nears.waiter]
  apply List.sum_le_sum
  intro constraint _
  exact Nat.sub_le_sub_left (nears.senders constraint.sender) _

private theorem Nears.deficit_le (nears : before.Nears after id) :
    after.deficit id ≤ before.deficit id :=
  Nat.add_le_add nears.shortage_le nears.lag_le

private theorem Nears.deficit_lt_of_starved (nears : before.Nears after id) {port : Port}
    (starved : before.Starved id port)
    (more : (before.graph.bank.channel port.channel).size <
      (after.graph.bank.channel port.channel).size) : after.deficit id < before.deficit id := by
  refine Nat.add_lt_add_of_lt_of_le ?_ nears.lag_le
  obtain ⟨worker, index, peek, pop, required, known, place, peekAt, popAt, demanded, short⟩ :=
    starved
  unfold shortage
  rw [show after.graph.frame = before.graph.frame from
    congrArg InterpreterFrame.graph nears.frame_eq]
  refine List.sum_lt_sum _ _ ?_ ⟨(port, peek, pop), ?_, ?_⟩
  · intro entry member
    exact Nat.sub_le_sub_left (nears.inputs _ (GraphFrame.needs_port entry member)) _
  · rw [Graph.needs_eq known]
    refine List.mem_of_getElem? (i := index) ?_
    rw [List.getElem?_zip_eq_some, List.getElem?_zip_eq_some]
    exact ⟨place, peekAt, popAt⟩
  · dsimp only
    rw [demanded, Option.getD_some]
    omega

/-- A firing more of a sender that is due makes it smaller, too. -/
theorem Nears.deficit_lt_of_due (nears : before.Nears after id) {constraint : Constraint}
    {sent received : Nat} (scheduled : constraint ∈ before.constraints)
    (recipient : constraint.recipient = id)
    (sends : before.graph.executions? constraint.sender = some sent)
    (receives : before.graph.executions? id = some received)
    (outgrows : constraint.schedule.Outgrows (received + 1))
    (due : constraint.deliveryTime sent ≤ received + 1)
    (more : after.graph.executions? constraint.sender = some (sent + 1)) :
    after.deficit id < before.deficit id := by
  refine Nat.add_lt_add_of_le_of_lt nears.shortage_le ?_
  have ahead := outgrows.lt_horizon due
  unfold lag
  rw [show after.constraints = before.constraints from
    congrArg InterpreterFrame.constraints nears.frame_eq, nears.waiter, receives]
  refine List.sum_lt_sum _ _ ?_ ⟨constraint, ?_, ?_⟩
  · intro other _
    exact Nat.sub_le_sub_left (nears.senders other.sender) _
  · rw [List.mem_filter]
    exact ⟨scheduled, beq_iff_eq.mpr recipient⟩
  · rw [sends, more, Option.getD_some, Option.getD_some, Option.getD_some]
    omega

end

variable [Recipient β μ] [Work β α μ]

/-- Wherever legal firings of the section can lead to, the next one makes every output of its
worker that stays in the section hold more. -/
def Productive (interpreter : Interpreter β α μ) : Prop :=
  ∀ fired now id graph, interpreter.LegalRun false fired now → now.Legal id →
    now.graph.fire id = (.ok (), graph) →
    ∀ port ∈ now.graph.frame.wiring.outputs id, ∀ peer ∈ now.members, port.peer = some peer →
      (now.graph.bank.channel port.channel).size < (graph.bank.channel port.channel).size

/-- Whoever does not fire itself lacks no more after a firing. -/
theorem nears_firing {now : Interpreter β α μ} (sound : now.graph.frame.Sound)
    (unshared : now.graph.bank.Unshared) {current id : WorkerId} (different : id ≠ current)
    {worker : Worker β μ} {graph left : Graph β α μ}
    (known : now.graph.worker? current = some worker)
    (firing : now.graph.fire current = (.ok (), graph))
    (follow : now.delegate.afterFire (now.stats.firings + 1) graph current = (.ok (), left))
    (frame : (countFiring { now with graph := left } current).frame = now.frame) :
    now.Nears (countFiring { now with graph := left } current) id := by
  have since := since_firing known firing follow
  have counted := now.delegate.afterFire_sameButCounts (now.stats.firings + 1) graph current
  rw [follow] at counted
  have apart : ¬ (current == id) = true := by
    rw [beq_iff_eq]
    exact Ne.symm different
  refine ⟨frame, ?_, ?_, ?_⟩
  · rw [since.counts, List.count_singleton, if_neg apart]
    simp only [add_zero, Option.map_id_fun', id_eq]
  · intro other
    rw [since.counts]
    cases now.graph.executions? other with
    | none => exact Nat.le_refl _
    | some count => exact Nat.le_add_right ..
  · intro port member
    obtain ⟨index, place⟩ := List.mem_iff_getElem?.mp member
    have gained := Graph.items_fire_gain unshared current (by
      intro input inputIn same
      obtain ⟨inputIndex, inputPlace⟩ := List.mem_iff_getElem?.mp inputIn
      exact different (sound.wiring.inputOnce id current index inputIndex port input place
        inputPlace same).1)
    rw [firing] at gained
    refine Nat.le_trans gained.length_le ?_
    exact Nat.le_of_eq (congrArg List.length (counted.2.2 port.channel)).symm

/-- Whoever waits for the worker that fires lacks less after the firing. -/
theorem deficit_lt_firing {now : Interpreter β α μ} (sound : now.frame.Sound)
    (unshared : now.graph.bank.Unshared) {current id : WorkerId} (different : id ≠ current)
    (inside : id ∈ now.members) {worker : Worker β μ} {graph left : Graph β α μ}
    (known : now.graph.worker? current = some worker)
    (firing : now.graph.fire current = (.ok (), graph))
    (follow : now.delegate.afterFire (now.stats.firings + 1) graph current = (.ok (), left))
    (frame : (countFiring { now with graph := left } current).frame = now.frame)
    (puts : ∀ port ∈ now.graph.frame.wiring.outputs current, ∀ peer ∈ now.members,
      port.peer = some peer →
      (now.graph.bank.channel port.channel).size < (graph.bank.channel port.channel).size)
    (outgrows : ∀ constraint ∈ now.constraints, constraint.recipient = id →
      ∀ count, now.graph.executions? id = some count → constraint.schedule.Outgrows (count + 1))
    (waits : now.Waits id (some current)) :
    (countFiring { now with graph := left } current).deficit id < now.deficit id := by
  have nears := nears_firing sound.graph unshared different known firing follow frame
  have since := since_firing known firing follow
  have counted := now.delegate.afterFire_sameButCounts (now.stats.firings + 1) graph current
  rw [follow] at counted
  cases waits with
  | @input port _ starved feeds =>
      apply nears.deficit_lt_of_starved starved
      -- The port is the other end of an output of the worker that fires.
      obtain ⟨index, place⟩ := List.mem_iff_getElem?.mp starved.port_mem
      obtain ⟨output, outputPort, outputPlace, channel⟩ :=
        sound.graph.wiring.producer id index port current place feeds.1
      obtain ⟨named, _, _⟩ :=
        sound.graph.wiring.ends current id output index outputPort port outputPlace place channel
      have more := puts outputPort (List.mem_of_getElem? outputPlace) id inside named
      rw [channel] at more
      exact Nat.lt_of_lt_of_eq more (congrArg List.length (counted.2.2 port.channel)).symm
  | @sender constraint sent received scheduled recipient sends receives due =>
      refine nears.deficit_lt_of_due scheduled recipient sends receives
        (outgrows constraint scheduled recipient received receives) due ?_
      rw [since.counts, sends, List.count_singleton_self]
      rfl

/-! ### What holds at every look of a pull -/

/-- Each schedule of a recipient on the stack gets past the next firing of the recipient. -/
def Look.Outgrown (look : Look β α μ) : Prop :=
  ∀ constraint ∈ look.interpreter.constraints, constraint.recipient ∈ look.stack →
    ∀ count, look.interpreter.graph.executions? constraint.recipient = some count →
      constraint.schedule.Outgrows (count + 1)

structure Heeding (start : Interpreter β α μ) (pulled : WorkerId) (stack : List WorkerId)
    (now : Interpreter β α μ) : Prop where
  along : start.Along now
  pulling : Pulling start.frame pulled stack now
  stacked : Stacked start.frame stack now
  outgrown : ∀ fuel, ∀ look ∈ pullLooks fuel stack now, look.Outgrown

private theorem Heeding.here {start now : Interpreter β α μ} {pulled current : WorkerId}
    {waiting : List WorkerId} (heeding : start.Heeding pulled (current :: waiting) now) :
    (Look.mk (current :: waiting) now).Outgrown :=
  heeding.outgrown 1 _ (List.mem_cons_self ..)

private theorem Heeding.look {start now left : Interpreter β α μ} {pulled current : WorkerId}
    {waiting stack : List WorkerId} (sound : start.frame.Sound)
    (unshared : start.graph.bank.Unshared)
    (heeding : start.Heeding pulled (current :: waiting) now)
    (step : now.pullStep current waiting = .proceed stack left) :
    start.Heeding pulled stack left := by
  have view := now.pullStep_view current waiting
  rw [step] at view
  have frame := heeding.along.frame_eq
  have members : now.members = start.members := congrArg InterpreterFrame.members frame
  refine ⟨?_, heeding.pulling.look sound (unshared_of_frame_eq frame unshared) view,
    heeding.stacked.look sound view, ?_⟩
  · have same := view.frame_left
    cases view with
    | feeder known free starved inside => exact heeding.along
    | sender known free fed due => exact heeding.along
    | fired ready free firing follow =>
        have inside := heeding.stacked.members current (List.mem_cons_self ..)
        exact heeding.along.fires ready (members ▸ inside) firing follow same
  · intro fuel look member
    apply heeding.outgrown (fuel + 1)
    rw [pullLooks, step]
    exact List.mem_cons_of_mem _ member

/-- Nobody of the waiting workers lacks more in the later state, and the uppermost lacks less. -/
structure Descends (before after : Interpreter β α μ) (waiting : List WorkerId) : Prop where
  all : ∀ id ∈ waiting, after.deficit id ≤ before.deficit id
  top : ∀ id ∈ waiting.head?, after.deficit id < before.deficit id

omit [Recipient β μ] [Work β α μ] in
private theorem Descends.trans {before middle after : Interpreter β α μ} {current : WorkerId}
    {waiting : List WorkerId} (first : before.Descends middle (current :: waiting))
    (second : middle.Descends after waiting) : before.Descends after waiting where
  all id member :=
    Nat.le_trans (second.all id member) (first.all id (List.mem_cons_of_mem _ member))
  top id head := Nat.lt_of_lt_of_le (second.top id head)
    (first.all id (List.mem_cons_of_mem _ (List.mem_of_mem_head? head)))

/-- A firing of the worker on top brings those that wait nearer to their own firings. -/
theorem Heeding.descends {start now : Interpreter β α μ} {pulled current : WorkerId}
    {waiting : List WorkerId} (sound : start.frame.Sound)
    (unshared : start.graph.bank.Unshared) (productive : start.Productive)
    (heeding : start.Heeding pulled (current :: waiting) now) {worker : Worker β μ}
    (ready : now.Ready current worker) (free : current ∉ waiting) {graph left : Graph β α μ}
    (firing : now.graph.fire current = (.ok (), graph))
    (follow : now.delegate.afterFire (now.stats.firings + 1) graph current = (.ok (), left))
    (same : (countFiring { now with graph := left } current).frame = now.frame) :
    now.Descends (countFiring { now with graph := left } current) waiting := by
  have frame := heeding.along.frame_eq
  have nowSound : now.frame.Sound := frame ▸ sound
  have nowUnshared := unshared_of_frame_eq frame unshared
  have members : now.members = start.members := congrArg InterpreterFrame.members frame
  have inside : ∀ id ∈ current :: waiting, id ∈ now.members := members ▸ heeding.stacked.members
  have different : ∀ id ∈ waiting, id ≠ current := by
    rintro id member rfl
    exact free member
  constructor
  · intro id member
    exact (nears_firing nowSound.graph nowUnshared (different id member) ready.known firing follow
      same).deficit_le
  · cases waiting with
    | nil => exact fun id head => nomatch head
    | cons lower rest =>
        intro id head
        cases head
        have lowerIn : lower ∈ lower :: rest := List.mem_cons_self ..
        obtain ⟨fired, stats, journal, run, legal⟩ := heeding.along.legal ready
          (inside current (List.mem_cons_self ..))
        have puts := productive fired _ current graph run legal firing
        refine deficit_lt_firing nowSound nowUnshared (different lower lowerIn)
          (inside lower (List.mem_cons_of_mem _ lowerIn)) ready.known firing follow same puts ?_
          heeding.pulling.linked.1
        rintro constraint scheduled rfl count receives
        exact heeding.here constraint scheduled (List.mem_cons_of_mem _ lowerIn) count receives

def Concludes (stack : List WorkerId) (now : Interpreter β α μ) : Prop :=
  ∃ fuel outcome, pullSteps fuel stack now = some outcome

private theorem Concludes.proceed {now left : Interpreter β α μ} {current : WorkerId}
    {waiting stack : List WorkerId} (step : now.pullStep current waiting = .proceed stack left)
    (ends : Concludes stack left) : Concludes (current :: waiting) now := by
  obtain ⟨fuel, outcome, run⟩ := ends
  refine ⟨fuel + 1, outcome, ?_⟩
  rw [pullSteps, step]
  exact run

/-- A stack comes to its end if it does from wherever the worker on top has fired. The induction
is on the room above the stack and, inside, on what the worker on top lacks: while workers
stacked above it fire, there is less room, and after that it lacks less. -/
theorem Heeding.concludes {start : Interpreter β α μ} {pulled : WorkerId}
    (sound : start.frame.Sound) (unshared : start.graph.bank.Unshared)
    (productive : start.Productive) {current : WorkerId} {waiting : List WorkerId}
    {now : Interpreter β α μ}
    (heeding : start.Heeding pulled (current :: waiting) now)
    (rest : ∀ after, start.Heeding pulled waiting after → now.Descends after waiting →
      Concludes waiting after) : Concludes (current :: waiting) now := by
  obtain ⟨room, enough⟩ : ∃ room, start.members.length - waiting.length = room := ⟨_, rfl⟩
  induction room using Nat.strong_induction_on generalizing current waiting now with
  | _ room higher =>
      obtain ⟨lack, lacking⟩ : ∃ lack, now.deficit current = lack := ⟨_, rfl⟩
      induction lack using Nat.strong_induction_on generalizing now with
      | _ lack nearer =>
          have deeper {top : WorkerId} (free : current ∉ waiting)
              (step : now.pullStep current waiting = .proceed (top :: current :: waiting) now) :
              Concludes (current :: waiting) now := by
            have further := heeding.look sound unshared step
            have within := further.stacked.once.length_le_of_subset
              (fun id member => further.stacked.members id (List.mem_cons_of_mem _ member))
            have shorter : start.members.length - (current :: waiting).length < room := by
              change (current :: waiting).length ≤ start.members.length at within
              rw [List.length_cons] at within ⊢
              omega
            refine .proceed step (higher _ shorter further ?_ rfl)
            intro after heedingAfter descends
            have less : after.deficit current < lack := lacking ▸ descends.top current rfl
            exact nearer _ less heedingAfter
              (fun last heedingLast onward => rest last heedingLast (descends.trans onward)) rfl
          have view := now.pullStep_view current waiting
          cases step : now.pullStep current waiting with
          | stop answer left =>
              refine ⟨1, (answer, left), ?_⟩
              rw [pullSteps, step]
          | proceed stack left =>
              rw [step] at view
              have same := view.frame_left
              cases view with
              | feeder known free starved inside => exact deeper free step
              | sender known free fed due => exact deeper free step
              | fired ready free firing follow =>
                  exact .proceed step (rest _ (heeding.look sound unshared step)
                    (heeding.descends sound unshared productive ready free firing follow same))

/-- The pull of a worker of an accepted section comes to an end, with whatever answer, if every
firing of the section puts something on each output that stays in it and every schedule gets
past every deadline. The deadlines of a schedule that is bounded, as latencies are by the
largest count, are to be those of recipients whose counts stay below the bound while they wait.
The channels, bodies, counts and queues may be anything at the start, and the section may be
cyclic. However the pull goes, its stack has at most one entry more than the section. -/
theorem productive_pull_ends [Signature β] {graph : Graph β α μ} (descends : graph.Descends)
    (unshared : graph.bank.Unshared) {workers : List WorkerId} {given : List Constraint}
    {start interpreter : Interpreter β α μ} (opened : Opens graph workers given start)
    (same : interpreter.frame = start.frame) (productive : interpreter.Productive)
    {id : WorkerId} (inside : id ∈ interpreter.members)
    (outgrows : ∀ constraint ∈ interpreter.constraints,
      (∀ firing, constraint.schedule.Outgrows firing) ∨
      (∀ firing, firing < maxCount → constraint.schedule.Outgrows firing) ∧
        ∀ fuel, ∀ look ∈ interpreter.looksOfPull fuel id, constraint.recipient ∈ look.stack →
          ∀ count, look.interpreter.graph.executions? constraint.recipient = some count →
            count + 1 < maxCount) :
    (∃ enough answer left, ∀ fuel, enough ≤ fuel →
      interpreter.pull fuel id = some (answer, left)) ∧
    (∀ fuel, ∀ look ∈ interpreter.looksOfPull fuel id,
      look.stack.length ≤ interpreter.members.length + 1) ∧
    ∀ (firings : Int) (firing : Nat), firing < maxCount →
      (DeliverySchedule.latency firings).Outgrows firing := by
  have sound : interpreter.frame.Sound := same ▸ opened.frame_sound descends.sound
  have unsharedNow : interpreter.graph.bank.Unshared := by
    apply unshared_of_frame_eq same
    rw [opened.graph_eq]
    exact unshared
  let counted : Interpreter β α μ := { interpreter with
    stats := { interpreter.stats with pulls := interpreter.stats.pulls + 1 } }
  have stacked := Stacked.alone interpreter inside
    { interpreter.stats with pulls := interpreter.stats.pulls + 1 }
  have looks (fuel : Nat) : ∀ look ∈ interpreter.looksOfPull fuel id,
      Stacked interpreter.frame look.stack look.interpreter :=
    pullLooks_induction (Stacked interpreter.frame)
      (fun now current waiting stack left stacked view => stacked.look sound view) stacked
  refine ⟨?_, fun fuel look member => (looks fuel look member).length_le,
    fun firings _ below => DeliverySchedule.outgrows_latency firings below⟩
  have outgrown (fuel : Nat) : ∀ look ∈ pullLooks fuel [id] counted, look.Outgrown := by
    intro look member constraint scheduled waits count received
    have kept : look.interpreter.constraints = interpreter.constraints :=
      congrArg InterpreterFrame.constraints (looks fuel look member).frame_eq
    rcases outgrows constraint (kept ▸ scheduled) with every | ⟨counts, below⟩
    · exact every _
    · exact counts _ (below fuel look member waits count received)
  have heeding : interpreter.Heeding id [id] counted :=
    { along := ⟨rfl, [], interpreter.stats, interpreter.journal, .start⟩
      pulling := ⟨rfl, stacked.members, trivial, .inr ⟨[], rfl⟩⟩
      stacked := stacked
      outgrown := outgrown }
  obtain ⟨enough, ⟨answer, left⟩, run⟩ :=
    heeding.concludes sound unsharedNow productive (fun after _ _ => ⟨1, (.ok true, after), rfl⟩)
  exact ⟨enough, answer, left, fun fuel more => pullSteps_mono more run⟩

end Interpreter

def PutsOut (α : Type) (μ : Type) [Recipient β μ] [Work β α μ] (shape : PortShape) (body : β) :
    Prop :=
  ∀ now, Becomes α μ body now → ∀ executions id (portView : PortView α), portView.Sound shape →
    (portView.work μ shape id now executions).1.1 = .ok () →
    ∀ port ∈ portView.outputs, (portView.bank.channel port.channel).size <
      ((portView.work μ shape id now executions).2.bank.channel port.channel).size

private theorem Standard.putsOut_identity : PutsOut α μ ⟨1, 1⟩ Standard.identity := by
  intro now change executions id portView sound done port member
  rw [Standard.becomes change] at done ⊢
  obtain ⟨input, inputs⟩ := List.length_eq_one_iff.mp sound.inputCount
  obtain ⟨output, outputs⟩ := List.length_eq_one_iff.mp sound.outputCount
  rw [outputs, List.mem_singleton] at member
  subst member
  have distinct := sound.distinct
  have known := sound.known port (by simp [outputs])
  rw [inputs, outputs] at distinct
  have apart : port.channel ≠ input.channel := by
    rintro same
    simp [same] at distinct
  unfold PortView.work at done ⊢
  change ((Standard.work .identity _).run _ _ _ _).1.1 = _ at done
  change _ < (((Standard.work .identity _).run _ _ _ _).2.bank.channel _).size
  unfold Standard.work Standard.routine Routine.transfer at done ⊢
  rw [Routine.run_bind] at done ⊢
  rw [inputs, outputs] at done ⊢
  cases popped : portView.bank.pop input.channel with
  | mk answer bank =>
      cases answer with
      | error error => simp [Routine.run, popped] at done
      | ok element =>
          have rest : bank = (portView.bank.pop input.channel).2 := by rw [popped]
          have kept : bank.channel port.channel = portView.bank.channel port.channel := by
            rw [rest]
            exact Bank.channel_set_of_ne sound.unshared _ apart
          have size : bank.size = portView.bank.size := by
            rw [rest]
            exact Bank.size_set _ _ _
          suffices more : (bank.channel port.channel).size <
              ((bank.push port.channel element).channel port.channel).size by
            simpa [Routine.run, popped, ← kept] using more
          unfold Bank.push Channel.size
          rw [Bank.channel_set_self _ _ (size ▸ known), Channel.items_push, List.length_append]
          exact Nat.lt_succ_self _

namespace Interpreter

variable [Recipient β μ] [Work β α μ]

/-- A section of bodies that put something on every output is productive. -/
theorem productive_of_putsOut {start : Interpreter β α μ} (sound : start.frame.Sound)
    (unshared : start.graph.bank.Unshared)
    (puts : ∀ id worker, start.graph.worker? id = some worker →
      PutsOut α μ worker.shape worker.body) : start.Productive := by
  let shape (id : WorkerId) : PortShape :=
    { inputs := (start.graph.frame.wiring.inputs id).length
      outputs := (start.graph.frame.wiring.outputs id).length }
  have shaped {graph : Graph β α μ} (frame : graph.frame = start.graph.frame) {id : WorkerId}
      {worker : Worker β μ} (known : graph.worker? id = some worker) : worker.shape = shape id := by
    unfold shape
    rw [← frame, Graph.wiring_inputs known, Graph.wiring_outputs known]
    rfl
  intro fired now id graph run _ firing port member peer _ _
  have kept : now.frame = start.frame ∧ ∀ id worker, now.graph.worker? id = some worker →
      PutsOut α μ (shape id) worker.body :=
    run.bodies (fun _ _ _ first change later further => first later (change.trans further))
      (fun id worker known => shaped rfl known ▸ puts id worker known)
  obtain ⟨frame, bodies⟩ := kept
  have graphFrame : now.graph.frame = start.graph.frame := congrArg InterpreterFrame.graph frame
  have view := now.graph.fire_view id
  rw [firing] at view
  cases view with
  | @worked worker ready body scene _ known delivery run routing =>
      have becomes := Worker.deliver_becomes (α := α) worker worker.queue.messages
      have same := Worker.frame_deliverDue delivery
      unfold Worker.deliverDue at delivery
      rw [delivery] at becomes
      have inputs : ready.inputs = worker.inputs := congrArg WorkerFrame.inputs same
      have outputs : ready.outputs = worker.outputs := congrArg WorkerFrame.outputs same
      have portView : now.graph.portView ready = now.graph.portView worker := by
        unfold Graph.portView
        rw [inputs, outputs]
      have readyShape : ready.shape = shape id := by
        rw [← shaped graphFrame known]
        unfold Worker.shape
        rw [inputs, outputs]
      have viewSound : (now.graph.portView ready).Sound (shape id) := by
        rw [portView, ← shaped graphFrame known]
        exact Graph.portView_sound (graphFrame ▸ sound.graph) (unshared_of_frame_eq frame unshared)
          known
      have worked : (now.graph.portView ready).work μ (shape id) id ready.body ready.executions =
          ((.ok (), body), scene) := by
        rw [← readyShape]
        exact run
      have outputIn : port ∈ (now.graph.portView ready).outputs := by
        rw [Graph.wiring_outputs known, ← outputs] at member
        exact member
      have more := bodies id worker known ready.body becomes.1 ready.executions id _ viewSound
        (by rw [worked]) port outputIn
      have bank := (Graph.routeOutbox_others (now.graph.worked id ready body scene.bank) id
        ready.executions scene.outbox).1
      rw [routing] at bank
      rw [worked] at more
      rw [bank]
      exact more

/-! ### Two workers in a row, the first of which is to stay ahead -/

def leadBuilder : Builder Standard Nat :=
  let builder := (Builder.addWorker {} .filter ⟨"leader", .identity⟩).2
  let builder := (builder.addWorker .filter ⟨"follower", .identity⟩).2
  let builder := (builder.connect 0 1).2
  let builder := (builder.addPortal .identity).2
  let builder := (builder.register { id := 0, recipient := .identity } 1).2
  (builder.addConstraint ⟨⟨0, 1, 0⟩, .custom (fun sent => sent)⟩).2

def leadGraph : Graph Standard Nat Unit := leadBuilder.graph

def leadInterpreter : Interpreter Standard Nat Unit :=
  onSection leadGraph leadGraph.workerIds leadGraph.constraints

private theorem leadGraph_built : leadGraph.Built :=
  ⟨leadBuilder,
    .addConstraint _ (.register _ _ (.addPortal _ (.connect _ _
      (.addWorker _ _ (.addWorker _ _ (.fresh _)))))), rfl⟩

private theorem leadInterpreter_opens :
    Opens leadGraph leadGraph.workerIds leadGraph.constraints leadInterpreter :=
  ⟨leadInterpreter, _, _, rfl, rfl⟩

private theorem leadGraph_unshared : leadGraph.bank.Unshared := by
  intro left right key leftShared rightShared
  match left, leftShared with
  | 0, leftShared => cases leftShared
  | 1, leftShared => cases leftShared
  | 2, leftShared => cases leftShared
  | left + 3, leftShared => cases (show none = some (Slot.shared key) from leftShared)

private theorem leadGraph_putsOut : ∀ id worker, leadGraph.worker? id = some worker →
    PutsOut Nat Unit worker.shape worker.body := by
  intro id worker known
  match id, known with
  | 0, known =>
      cases known
      exact Standard.putsOut_identity
  | 1, known =>
      cases known
      exact Standard.putsOut_identity
  | id + 2, known => cases (show none = some worker from known)

theorem productive_pull_ends_lead : ∃ fed, leadInterpreter.pushAll? 0 [4, 5] = some fed ∧
    fed.Productive ∧ ∃ enough answer left, ∀ fuel, enough ≤ fuel →
      fed.pull fuel 1 = some (answer, left) := by
  obtain ⟨fed, push, graph, inside, scheduled⟩ :
      ∃ fed, leadInterpreter.pushAll? 0 [4, 5] = some fed ∧
        fed.graph.workers = leadGraph.workers ∧ 1 ∈ fed.members ∧
        fed.constraints = [⟨⟨0, 1, 0⟩, .custom (fun sent => sent)⟩] :=
    ⟨_, rfl, rfl, by decide, rfl⟩
  have same : fed.frame = leadInterpreter.frame :=
    Reachable.frame_eq (.traffic .start (.push 0 [4, 5] push))
  have sound : fed.frame.Sound := same ▸ leadInterpreter_opens.frame_sound leadGraph_built.sound
  have productive : fed.Productive := by
    apply productive_of_putsOut sound (unshared_of_frame_eq same leadGraph_unshared)
    unfold Graph.worker?
    rw [graph]
    exact leadGraph_putsOut
  have outgrows (firing : Nat) :
      (DeliverySchedule.custom (fun sent => sent)).Outgrows firing :=
    ⟨firing + 1, fun sent enough => enough⟩
  refine ⟨fed, push, productive, ?_⟩
  refine (productive_pull_ends leadGraph_built.descends leadGraph_unshared
    leadInterpreter_opens same productive inside ?_).1
  rw [scheduled, List.forall_mem_singleton]
  exact .inl outgrows

end Interpreter

end DemandFlow
