import DemandFlow.Proofs.Interpreter.Consumption
import DemandFlow.Proofs.Interpreter.Exactness
import DemandFlow.Proofs.Stream.Standard

/-!
Graphs of standard bodies pass every audit. A standard body looks at nothing ahead, takes
exactly what it declares from each input and puts exactly what it declares on each output, in
whatever role it is used. So with nothing counted on the ports of a section when its interpreter
is made, no firing is ever found to violate a rate, and none fails for want of elements.
-/

set_option autoImplicit false

namespace DemandFlow

variable {β α μ : Type}

/-- The errors with which a body fails for want of elements or an audit fails. -/
def Error.OfAccess : Error → Prop
  | .rateViolation .. | .emptyChannel | .indexOutOfRange .. | .configuration _ => True
  | _ => False

private theorem Worker.deliver_error [Recipient β μ] {worker : Worker β μ}
    {messages : List (Message μ)} {error : Error}
    (failed : (worker.deliver messages).1 = .error error) :
    ¬ error.OfAccess := by
  induction messages generalizing worker with
  | nil => cases failed
  | cons message rest inductionHypothesis =>
      unfold deliver at failed
      split at failed
      next => cases failed
      next =>
        split at failed
        next =>
          cases failed
          exact fun impossible => impossible
        next =>
          split at failed
          next => exact inductionHypothesis failed
          next =>
            cases failed
            exact fun impossible => impossible

private theorem Worker.starvedFrom_error_kind {worker : Worker β μ} {bank : Bank α} {input : Nat}
    {ports : List (Port × Rate × Rate)} {error : Error}
    (refused : worker.starvedFrom bank input ports = .error error) : ¬ error.OfAccess := by
  induction ports generalizing input with
  | nil => cases refused
  | cons entry rest inductionHypothesis =>
      obtain ⟨port, peek, pop⟩ := entry
      unfold starvedFrom at refused
      split at refused
      next =>
        cases refused
        exact fun impossible => impossible
      next =>
        split at refused
        next => cases refused
        next => exact inductionHypothesis refused

/-- The accesses of a firing are those that the rates declare: nothing is looked at ahead, and
where a rate is known, that many elements are taken or put out. -/
structure WorkerRates.Exactly (rates : WorkerRates) (accesses : List Access) : Prop where
  peeks : ∀ index, index < rates.peek.length → Access.reach accesses index = 0
  pops : ∀ (index : Nat) (pop : Rate) (count : Nat), rates.pop[index]? = some pop →
    pop.max.known? = some count → Access.pops accesses index = count
  pushes : ∀ (index : Nat) (push : Rate) (count : Nat), rates.push[index]? = some push →
    push.max.known? = some count → Access.pushes accesses index = count

private theorem Channel.Read.taken {channel : Channel α} {extent pops : Nat}
    (counted : channel.Read extent pops) (count : Nat) :
    (channel.taken count).Read extent (pops + count) := by
  obtain ⟨stats, here, extentEq, popsEq⟩ := counted
  refine ⟨{ stats with popCount := stats.popCount + count }, ?_, extentEq, ?_⟩
  · simp only [Channel.taken, here, Option.map_some]
  · simp only [popsEq]

private theorem Channel.Written.pushAll {channel : Channel α} {pushes : Nat}
    (counted : channel.Written pushes) (elements : List α) :
    (channel.pushAll elements).Written (pushes + elements.length) := by
  obtain ⟨stats, here, pushesEq⟩ := counted
  rw [Written, stats_pushAll, here]
  exact ⟨_, rfl, by simp only [pushesEq]⟩

private theorem Channel.Read.unique {channel : Channel α} {extent pops otherExtent otherPops : Nat}
    (counted : channel.Read extent pops) (other : channel.Read otherExtent otherPops) :
    extent = otherExtent ∧ pops = otherPops := by
  obtain ⟨stats, here, rfl, rfl⟩ := counted
  obtain ⟨otherStats, there, rfl, rfl⟩ := other
  rw [here] at there
  cases there
  exact ⟨rfl, rfl⟩

private theorem Channel.Written.unique {channel : Channel α} {pushes otherPushes : Nat}
    (counted : channel.Written pushes) (other : channel.Written otherPushes) :
    pushes = otherPushes := by
  obtain ⟨stats, here, rfl⟩ := counted
  obtain ⟨otherStats, there, rfl⟩ := other
  rw [here] at there
  cases there
  rfl

/-- What is counted on ports at which so much has been taken and put out, with nothing counted
there before. -/
theorem PortView.Handled.metered {portView : PortView α} {pops : Nat → Nat} {pushes : Nat → List α}
    {scene : Routine.Scene α μ} (handled : portView.Handled pops pushes scene)
    (clear : portView.Metered []) {accesses : List Access}
    (metered : PortView.Metered { portView with bank := scene.bank } accesses) :
    (∀ index, index < portView.inputs.length →
      Access.reach accesses index = 0 ∧ Access.pops accesses index = pops index) ∧
    ∀ index, index < portView.outputs.length →
      Access.pushes accesses index = (pushes index).length := by
  constructor
  · intro index within
    have place := List.getElem?_eq_getElem within
    have counted := metered.inputs index _ place
    rw [handled.inputs index _ place] at counted
    have same := counted.unique ((clear.inputs index _ place).taken (pops index))
    refine ⟨same.1, same.2.trans ?_⟩
    exact Nat.zero_add _
  · intro index within
    have place := List.getElem?_eq_getElem within
    have counted := metered.outputs index _ place
    rw [handled.outputs index _ place] at counted
    refine (counted.unique ((clear.outputs index _ place).pushAll (pushes index))).trans ?_
    exact Nat.zero_add _

namespace Standard

private theorem max_exact {count known : Nat} (same : (Rate.exact count).max.known? = some known) :
    known = count := by
  unfold Rate.exact RateBound.ofCount at same
  dsimp only at same
  split at same
  next => cases same
  next =>
    cases same
    rfl

private theorem demand_eq {count required : Nat}
    (demanded : demand? (.exact 0) (.exact count) = some required) : required = count := by
  by_cases known : count = maxCount
  · subst known
    cases demanded
  · rw [demand_exact known] at demanded
    exact (Option.some.inj demanded).symm

variable {body : Standard} {shape : PortShape} {inputs : Nat → List α}

/-- What a standard body takes and gives is just what it declares. -/
theorem exactly (fits : (body.rates shape).fits shape = true)
    (countable : body.Countable shape)
    (enough : ∀ index, index < shape.inputs → body.takes shape index ≤ (inputs index).length)
    {accesses : List Access}
    (taken : ∀ index, index < shape.inputs →
      Access.reach accesses index = 0 ∧ Access.pops accesses index = body.takes shape index)
    (given : ∀ index, index < shape.outputs →
      Access.pushes accesses index = (body.gives shape inputs index).length) :
    (body.rates shape).Exactly accesses ∧
      ∀ observation ∈ (body.rates shape).observations accesses, observation.inside = true := by
  obtain ⟨peekCount, popCount, pushCount⟩ := WorkerRates.fits_iff.mp fits
  have inputWithin {index : Nat} {rate : Rate} {rates : List Rate}
      (count : rates.length = shape.inputs) (place : rates[index]? = some rate) :
      index < shape.inputs := count ▸ (List.getElem?_eq_some_iff.mp place).1
  have outputWithin {index : Nat} {rate : Rate}
      (place : (body.rates shape).push[index]? = some rate) : index < shape.outputs :=
    pushCount ▸ (List.getElem?_eq_some_iff.mp place).1
  constructor
  · refine ⟨?_, ?_, ?_⟩
    · intro index within
      exact (taken index (peekCount ▸ within)).1
    · intro index pop count place known
      have within := inputWithin popCount place
      rw [(pop_rate fits countable within).2] at place
      cases place
      rw [(taken index within).2, max_exact known]
    · intro index push count place known
      have within := outputWithin place
      rw [push_rate fits countable enough within] at place
      cases place
      rw [given index within, max_exact known]
  · intro observation member
    rcases WorkerRates.mem_observations.mp member with
      ⟨index, peek, pop, peekAt, popAt, rfl | rfl⟩ | ⟨index, push, pushAt, rfl⟩
    · have within := inputWithin peekCount peekAt
      rw [(pop_rate fits countable within).1] at peekAt
      cases peekAt
      unfold Observation.inside
      dsimp only
      rw [(taken index within).1]
      exact admits_exact 0
    · have within := inputWithin popCount popAt
      rw [(pop_rate fits countable within).2] at popAt
      cases popAt
      unfold Observation.inside
      dsimp only
      rw [(taken index within).2]
      exact admits_exact _
    · have within := outputWithin pushAt
      rw [push_rate fits countable enough within] at pushAt
      cases pushAt
      unfold Observation.inside
      dsimp only
      rw [given index within]
      exact admits_exact _

private theorem candid (body : Standard) : Candid α μ body := by
  intro now becomes firing id inputs outputs scene
  rw [Standard.becomes becomes]
  have answers : (Standard.work body firing : Routine α μ _).Yields
      fun result => Sincere result.1 :=
    (Routine.sincere_standard body firing.shape).bind fun _ sincere => .done sincere
  exact answers id inputs outputs scene

end Standard

namespace Graph

def Rated [Signature β] (graph : Graph β α μ) : Prop :=
  ∀ id worker, graph.worker? id = some worker →
    worker.rates = Signature.rates worker.body worker.shape

/-- The graph was built, and its workers have the bodies with which they were built. -/
def Unaltered [Signature β] (graph : Graph β α μ) : Prop :=
  ∃ origin : Graph β α μ, origin.Built ∧ graph.frame = origin.frame ∧
    graph.workers.map Worker.body = origin.workers.map Worker.body

private theorem Built.rated [Signature β] {graph : Graph β α μ} (built : graph.Built) :
    graph.Rated := by
  obtain ⟨builder, _, made⟩ := built
  obtain ⟨after, workers, _, finished, workersEq, _⟩ := build_view made
  intro id worker known
  unfold worker? at known
  rw [workersEq] at known
  obtain ⟨draft, _, shared⟩ := worker_of_finishAll finished known
  rw [shared.rates, shared.body]

private theorem Unaltered.rated [Signature β] {graph : Graph β α μ} (unaltered : graph.Unaltered) :
    graph.Rated := by
  obtain ⟨origin, built, frame, bodies⟩ := unaltered
  intro id worker known
  obtain ⟨other, found, same⟩ := worker_of_frame_eq frame known
  have body : worker.body = other.body := by
    have places : (graph.worker? id).map Worker.body = (origin.worker? id).map Worker.body := by
      simpa only [worker?, List.getElem?_map] using congrArg (fun bodies => bodies[id]?) bodies
    rw [known, found] at places
    exact Option.some.inj places
  have rates : worker.rates = other.rates := (congrArg WorkerFrame.rates same).symm
  have inputs : worker.inputs = other.inputs := (congrArg WorkerFrame.inputs same).symm
  have outputs : worker.outputs = other.outputs := (congrArg WorkerFrame.outputs same).symm
  rw [body, rates, built.rated id other found]
  unfold Worker.shape
  rw [inputs, outputs]

theorem Unaltered.descends [Signature β] {graph : Graph β α μ} (unaltered : graph.Unaltered) :
    graph.Descends := by
  obtain ⟨origin, built, frame, _⟩ := unaltered
  exact ⟨origin, built, frame⟩

section

variable {graph : Graph Standard α μ}

/-- Every worker has the rates of its standard body, with products that are counts. -/
structure Counting (graph : Graph Standard α μ) : Prop where
  rated : graph.Rated
  countable : ∀ id worker, graph.worker? id = some worker → worker.body.Countable worker.shape

theorem Counting.of_workers_eq {left right : Graph Standard α μ} (counting : left.Counting)
    (same : right.workers = left.workers) : right.Counting := by
  have workers (id : WorkerId) : right.worker? id = left.worker? id := by
    unfold worker?
    rw [same]
  constructor
  · intro id worker known
    exact counting.rated id worker (workers id ▸ known)
  · intro id worker known
    exact counting.countable id worker (workers id ▸ known)

private theorem candid_standard (graph : Graph Standard α μ) : graph.Candid :=
  fun _ worker _ => worker.body.candid

/-- Standard bodies never change, and no firing changes rates and ports. -/
theorem standard_worker_fire (id : WorkerId) {other : WorkerId} {worker : Worker Standard μ}
    (known : (graph.fire id).2.worker? other = some worker) :
    ∃ before, graph.worker? other = some before ∧ worker.body = before.body ∧
      worker.rates = before.rates ∧ worker.shape = before.shape := by
  have closed (other : WorkerId) (body now : Standard)
      (same : ∀ before, graph.worker? other = some before → body = before.body)
      (becomes : Becomes α μ body now) :
      ∀ before, graph.worker? other = some before → now = before.body :=
    fun before found => (Standard.becomes becomes).trans (same before found)
  have kept := bodies_fire closed (fun other worker known before found => by
    rw [known] at found
    cases found
    rfl) id
  obtain ⟨before, found, same⟩ := worker_of_frame_eq (graph.frame_fire id) known
  have rates : worker.rates = before.rates := (congrArg WorkerFrame.rates same).symm
  have inputs : worker.inputs = before.inputs := (congrArg WorkerFrame.inputs same).symm
  have outputs : worker.outputs = before.outputs := (congrArg WorkerFrame.outputs same).symm
  refine ⟨before, found, kept other worker known before found, rates, ?_⟩
  unfold Worker.shape
  rw [inputs, outputs]

theorem Counting.fire (counting : graph.Counting) (id : WorkerId) :
    (graph.fire id).2.Counting := by
  constructor
  · intro other worker known
    obtain ⟨before, found, body, rates, shape⟩ := standard_worker_fire id known
    rw [body, rates, shape]
    exact counting.rated other before found
  · intro other worker known
    obtain ⟨before, found, body, _, shape⟩ := standard_worker_fire id known
    rw [body, shape]
    exact counting.countable other before found

/-- A worker that has what it needs has what its standard body takes. -/
theorem enough_of_fed (sound : graph.frame.Sound) (counting : graph.Counting) {id : WorkerId}
    {worker : Worker Standard μ} (known : graph.worker? id = some worker)
    (fed : worker.starvedInput graph.bank = .ok none) :
    (worker.body.rates worker.shape).fits worker.shape = true ∧
      ∀ index, index < worker.shape.inputs →
        worker.body.takes worker.shape index ≤ ((graph.portView worker).holds index).length := by
  have declared : worker.rates = worker.body.rates worker.shape :=
    counting.rated id worker known
  have countable := counting.countable id worker known
  have fits : worker.rates.fits worker.shape = true := by
    apply sound.rated id worker.frame
    rw [frame_get, known]
    rfl
  rw [← declared]
  refine ⟨fits, ?_⟩
  intro index within
  have place : worker.inputs[index]? = some _ := List.getElem?_eq_getElem within
  obtain ⟨required, needed, enough⟩ := Worker.need_of_fed fits fed place
  rw [declared] at fits needed
  obtain ⟨peek, pop⟩ := Standard.pop_rate fits countable within
  unfold WorkerRates.need? at needed
  rw [peek, pop] at needed
  rw [← Standard.demand_eq needed]
  unfold PortView.holds portView
  rw [Bank.onPort_of_some _ place]
  exact enough

/-- A worker that has what it needs does what its standard body is to do, unless a message due
to it cannot be delivered. -/
theorem standard_fire (sound : graph.frame.Sound) (unshared : graph.bank.Unshared)
    (counting : graph.Counting) {id : WorkerId} {worker : Worker Standard μ}
    (known : graph.worker? id = some worker)
    (fed : worker.starvedInput graph.bank = .ok none) :
    (∃ error left, worker.deliverDue = (.error error, left) ∧
      graph.fire id = (.error error, graph.setWorker id left)) ∨
    ∃ (after : Graph Standard α μ) (scene : Routine.Scene α μ), graph.fire id = (.ok (), after) ∧
      after.bank = scene.bank ∧
      (graph.portView worker).Handled (worker.body.takes worker.shape)
        (worker.body.gives worker.shape (graph.portView worker).holds) scene := by
  obtain ⟨fits, enough⟩ := enough_of_fed sound counting known fed
  rcases delivery : worker.deliverDue with ⟨answer, ready⟩
  cases answer with
  | error error =>
      refine .inl ⟨error, ready, rfl, ?_⟩
      unfold fire
      rw [known]
      dsimp only
      rw [delivery]
  | ok done =>
      have same := Worker.frame_deliverDue delivery
      have inputs : ready.inputs = worker.inputs := congrArg WorkerFrame.inputs same
      have outputs : ready.outputs = worker.outputs := congrArg WorkerFrame.outputs same
      have body : ready.body = worker.body := by
        have becomes := (Worker.deliver_becomes (α := α) worker worker.queue.messages).1
        unfold Worker.deliverDue at delivery
        rw [delivery] at becomes
        exact Standard.becomes becomes
      have shape : ready.shape = worker.shape := by
        unfold Worker.shape
        rw [inputs, outputs]
      obtain ⟨scene, run, handled⟩ :=
        Standard.run_routine (μ := μ) (graph.portView_sound sound unshared known) id fits enough
      have worked : graph.runBody id ready = ((.ok (), ready.body), scene) := by
        unfold runBody
        rw [body, shape, inputs, outputs]
        change ((worker.body.routine worker.shape).bind _).run id (graph.portView worker).inputs
          (graph.portView worker).outputs { bank := (graph.portView worker).bank } = _
        rw [Routine.run_bind, run]
        rfl
      refine .inr ⟨graph.worked id ready ready.body scene.bank, scene, ?_, rfl, handled⟩
      unfold fire
      rw [known]
      dsimp only
      rw [delivery]
      dsimp only
      unfold work
      rw [worked]
      dsimp only
      rw [handled.silent]
      rfl

end

end Graph

/-! ### Audited sections of standard bodies -/

namespace Interpreter

/-- What holds between the firings of an interpreter that audits standard bodies. -/
structure Conforming (interpreter : Interpreter Standard α μ) : Prop where
  poised : interpreter.Poised
  counting : interpreter.graph.Counting

section

variable {interpreter : Interpreter Standard α μ} {current : WorkerId}
  {worker : Worker Standard μ} {after : Graph Standard α μ}

/-- A completed firing does just what is declared, and its audit passes. -/
theorem Conforming.firing (conforming : interpreter.Conforming)
    (inside : current ∈ interpreter.members) (ready : interpreter.Ready current worker)
    (completed : interpreter.graph.fire current = (.ok (), after)) :
    worker.rates.Exactly (interpreter.graph.accesses current) ∧
      ∃ left, after.audit current = (.ok (), left) := by
  have poised := conforming.poised
  have sound := poised.sound.graph
  have declared : worker.rates = worker.body.rates worker.shape :=
    conforming.counting.rated current worker ready.known
  obtain ⟨fits, enough⟩ :=
    Graph.enough_of_fed sound conforming.counting ready.known ready.fed
  have clear := poised.clear.metered inside ready.known
  have metered := Graph.metered_fire sound poised.unshared ready.known clear completed
  rcases Graph.standard_fire sound poised.unshared conforming.counting ready.known ready.fed with
    ⟨error, left, _, failed⟩ | ⟨other, scene, fired, bank, handled⟩
  · rw [completed] at failed
    cases failed
  · rw [completed] at fired
    cases fired
    rw [bank] at metered
    obtain ⟨taken, given⟩ := handled.metered clear metered
    have countable := conforming.counting.countable current worker ready.known
    have exactly := Standard.exactly fits countable enough taken given
    rw [← declared] at exactly
    refine ⟨exactly.1, ?_⟩
    have judged := (poised.audit_fire inside ready.known completed).1
    rw [Observation.verdict_eq_ok.mpr exactly.2] at judged
    exact ⟨_, Prod.ext judged rfl⟩

/-- A firing that is not completed leaves everything conforming, since no body has begun. -/
theorem Conforming.failed (conforming : interpreter.Conforming)
    (ready : interpreter.Ready current worker) {error : Error}
    (failed : interpreter.graph.fire current = (.error error, after)) :
    { interpreter with graph := after }.Conforming ∧ ¬ error.OfAccess := by
  have poised := conforming.poised
  have counting := conforming.counting.fire current
  have candid := (Graph.candid_fire poised.candid current).1
  have framed := interpreter.graph.frame_fire current
  rw [failed] at counting candid framed
  rcases Graph.standard_fire poised.sound.graph poised.unshared conforming.counting ready.known
    ready.fed with ⟨other, left, delivery, undelivered⟩ | ⟨_, _, fired, _⟩
  · rw [failed] at undelivered
    cases undelivered
    have frame : { interpreter with graph := interpreter.graph.setWorker current left }.frame =
        interpreter.frame := by
      unfold Interpreter.frame
      rw [framed]
    refine ⟨⟨?_, counting⟩, Worker.deliver_error (congrArg Prod.fst delivery)⟩
    exact
      { sound := frame ▸ poised.sound
        bordered := frame ▸ poised.bordered
        unshared := poised.unshared
        delegate := poised.delegate
        candid := candid
        clear := ⟨framed ▸ poised.clear.inputs, framed ▸ poised.clear.outputs⟩ }
  · rw [failed] at fired
    cases fired

end

theorem Conforming.withStats {interpreter : Interpreter Standard α μ}
    (conforming : interpreter.Conforming) (stats : InterpreterStats) :
    { interpreter with stats := stats }.Conforming :=
  ⟨conforming.poised.withStats stats, conforming.counting⟩

/-- A look keeps an interpreter conforming, and fails for other reasons than access. -/
theorem PullView.conforming {interpreter : Interpreter Standard α μ} {current : WorkerId}
    {waiting : List WorkerId} {step : PullStep Standard α μ}
    (view : PullView interpreter current waiting step) (conforming : interpreter.Conforming)
    (inside : current ∈ interpreter.members) :
    step.left.Conforming ∧ ∀ error left, step = .stop (.error error) left → ¬ error.OfAccess := by
  cases view with
  | unknown absent =>
      refine ⟨conforming, ?_⟩
      rintro _ _ ⟨⟩ impossible
      exact impossible
  | circular known waits =>
      refine ⟨conforming, ?_⟩
      rintro _ _ ⟨⟩ impossible
      exact impossible
  | unsupported known free refused =>
      refine ⟨conforming, ?_⟩
      rintro _ _ ⟨⟩
      exact Worker.starvedFrom_error_kind refused
  | stalled known free starved outside => exact ⟨conforming.withStats _, by simp⟩
  | feeder known free starved producer => exact ⟨conforming, by simp⟩
  | sender known free fed due => exact ⟨conforming, by simp⟩
  | failed ready free firing =>
      have kept := conforming.failed ready firing
      refine ⟨kept.1, ?_⟩
      rintro _ _ ⟨⟩
      exact kept.2
  | refused ready free firing follow =>
      obtain ⟨_, left, passed⟩ := conforming.firing inside ready firing
      rw [conforming.poised.delegate, Delegate.afterFire_audits, passed] at follow
      cases follow
  | @fired worker after left ready free firing follow =>
      have poised := PullView.poised (.fired ready free firing follow) conforming.poised inside
        (fun _ _ impossible => by cases impossible)
      have counting := conforming.counting.fire current
      rw [firing] at counting
      rw [conforming.poised.delegate, Delegate.afterFire_audits] at follow
      have same := after.audit_sameButCounts current
      rw [follow] at same
      exact ⟨⟨poised, counting.of_workers_eq same.1⟩, by simp⟩

def Look.Conforms (look : Look Standard α μ) : Prop :=
  look.interpreter.Conforming ∧ ∀ id ∈ look.stack, id ∈ look.interpreter.members

theorem Look.Conforms.proceed {interpreter left : Interpreter Standard α μ} {current : WorkerId}
    {waiting stack : List WorkerId}
    (conforms : (Look.mk (current :: waiting) interpreter).Conforms)
    (view : PullView interpreter current waiting (.proceed stack left)) :
    (Look.mk stack left).Conforms := by
  obtain ⟨conforming, members⟩ := conforms
  have kept : left.members = interpreter.members :=
    congrArg InterpreterFrame.members view.frame_left
  refine ⟨(view.conforming conforming (members current (List.mem_cons_self ..))).1, ?_⟩
  dsimp only
  rw [kept]
  exact view.inside conforming.poised.sound members

theorem conforms_sink {interpreter : Interpreter Standard α μ}
    (conforming : interpreter.Conforming) {sink : WorkerId} (member : sink ∈ interpreter.sinks) :
    (Look.mk [sink] interpreter).Conforms := by
  refine ⟨conforming, ?_⟩
  rw [List.forall_mem_singleton]
  exact conforming.poised.sound.sinks sink member

theorem keptByPulls_conforming (sinks : List WorkerId) :
    KeptByPulls sinks
      (fun now : Interpreter Standard α μ => now.sinks = sinks ∧ now.Conforming)
      (fun error left => ¬ error.OfAccess ∧ left.Conforming) where
  counted := fun _ stats holds => ⟨holds.1, holds.2.withStats stats⟩
  sinks_eq := fun _ holds => holds.1
  pulled := by
    rintro fuel sink now progress left member ⟨rfl, conforming⟩ run
    refine ⟨congrArg InterpreterFrame.sinks (pullSteps_frame run), ?_⟩
    refine pullSteps_induction (fun stack now => (Look.mk stack now).Conforms)
      (fun _ left => left.Conforming) (fun _ conforms => conforms.1) ?_
      (fun _ _ _ _ _ conforms view => conforms.proceed view) run (conforms_sink conforming member)
    rintro before current waiting answer left ⟨held, members⟩ view
    exact (view.conforming held (members current (List.mem_cons_self ..))).1
  failed := by
    rintro fuel sink now error left member ⟨rfl, conforming⟩ run
    refine pullSteps_induction (fun stack now => (Look.mk stack now).Conforms)
      (fun answer left => ∀ error, answer = .error error → ¬ error.OfAccess ∧ left.Conforming)
      (fun _ _ _ impossible => by cases impossible) ?_
      (fun _ _ _ _ _ conforms view => conforms.proceed view) run
      (conforms_sink conforming member) error rfl
    rintro before current waiting answer left ⟨held, members⟩ view error rfl
    have kept := view.conforming held (members current (List.mem_cons_self ..))
    exact ⟨kept.2 error left rfl, kept.1⟩

private theorem Conforming.looks {interpreter : Interpreter Standard α μ}
    (conforming : interpreter.Conforming) (fuel : Nat) :
    ∀ look ∈ interpreter.looks fuel, look.Conforms := by
  refine (keptByPulls_conforming interpreter.sinks).looks Look.Conforms ?_ ⟨rfl, conforming⟩
  rintro fuel sink member now ⟨same, nowConforming⟩
  exact pullLooks_induction (fun stack now => (Look.mk stack now).Conforms)
    (fun _ _ _ _ _ conforms view => conforms.proceed view)
    (conforms_sink nowConforming (same ▸ member))

/-- A history in which elements were only put into input boundaries and taken from output
boundaries between calls, whatever the calls have answered. -/
inductive Supplied [Recipient β μ] [Work β α μ] (start : Interpreter β α μ) :
    Interpreter β α μ → Prop where
  | start : Supplied start start
  | push {interpreter left : Interpreter β α μ} {token : BoundaryToken}
      {boundary : BoundaryChannel} (elements : List α) (before : Supplied start interpreter)
      (known : interpreter.boundary? token = some boundary)
      (direction : boundary.direction = .input)
      (done : interpreter.pushAll? token elements = some left) : Supplied start left
  | pop {interpreter left : Interpreter β α μ} {token : BoundaryToken}
      {boundary : BoundaryChannel} {answer : Except Error α} (before : Supplied start interpreter)
      (known : interpreter.boundary? token = some boundary)
      (direction : boundary.direction = .output)
      (done : interpreter.pop? token = some (answer, left)) : Supplied start left
  | popAll {interpreter left : Interpreter β α μ} {token : BoundaryToken}
      {boundary : BoundaryChannel} {elements : List α} (before : Supplied start interpreter)
      (known : interpreter.boundary? token = some boundary)
      (direction : boundary.direction = .output)
      (done : interpreter.popAll? token = some (elements, left)) : Supplied start left
  | call {interpreter left : Interpreter β α μ} {answer : Except Error Bool} (fuel : Nat)
      (before : Supplied start interpreter)
      (run : interpreter.interpret fuel = some (answer, left)) : Supplied start left

theorem Conforming.call {interpreter left : Interpreter Standard α μ}
    (conforming : interpreter.Conforming) {fuel : Nat} {answer : Except Error Bool}
    (run : interpreter.interpret fuel = some (answer, left)) :
    left.Conforming ∧ ∀ error, answer = .error error → ¬ error.OfAccess := by
  have kept := (keptByPulls_conforming interpreter.sinks).interpret ⟨rfl, conforming⟩ run
  cases answer with
  | ok progress => exact ⟨kept.2, fun _ impossible => by cases impossible⟩
  | error error =>
      refine ⟨kept.2, ?_⟩
      rintro _ ⟨⟩
      exact kept.1

private theorem Supplied.conforming {start interpreter : Interpreter Standard α μ}
    (supplied : start.Supplied interpreter) (conforming : start.Conforming) :
    interpreter.Conforming := by
  induction supplied with
  | start => exact conforming
  | push elements before known direction done holds =>
      refine ⟨holds.poised.pushed known direction done, ?_⟩
      obtain ⟨_, _, rfl⟩ := Option.map_eq_some_iff.mp done
      exact holds.counting.of_workers_eq rfl
  | pop before known direction done holds =>
      refine ⟨holds.poised.popped known direction done, ?_⟩
      obtain ⟨_, _, same⟩ := Option.map_eq_some_iff.mp done
      cases same
      exact holds.counting.of_workers_eq rfl
  | popAll before known direction done holds =>
      refine ⟨holds.poised.poppedAll known direction done, ?_⟩
      obtain ⟨_, _, same⟩ := Option.map_eq_some_iff.mp done
      cases same
      exact holds.counting.of_workers_eq rfl
  | call fuel before run holds => exact (holds.call run).1

/-- Let an interpreter audit a section of a graph of standard bodies whose products of weights
and ports are counts, with nothing counted on the ports of the section when it is made. However
elements are put into input boundaries and taken from output boundaries between its calls, no
call fails for want of elements or at an audit, and every firing looks at nothing ahead and takes
and puts out exactly what is declared where that is known. -/
theorem standard_bodies_pass_audits {graph : Graph Standard α μ} (unaltered : graph.Unaltered)
    (countable : ∀ id worker, graph.worker? id = some worker →
      worker.body.Countable worker.shape)
    (unshared : graph.bank.Unshared) {workers : List WorkerId} {given : List Constraint}
    {start interpreter : Interpreter Standard α μ} (opened : Opens graph workers given start)
    (audits : start.delegate = { audits := true }) (clear : start.Clear)
    (supplied : start.Supplied interpreter) (fuel : Nat) :
    (∀ error left, interpreter.interpret fuel = some (.error error, left) → ¬ error.OfAccess) ∧
    ∀ look ∈ interpreter.looks fuel, ∀ current worker after, look.Fires current worker after →
      worker.rates.Exactly (look.interpreter.graph.accesses current) := by
  have same : start.graph = graph := opened.graph_eq
  have conforming : interpreter.Conforming :=
    supplied.conforming
      { poised :=
          { sound := opened.frame_sound unaltered.descends.sound
            bordered := opened.bordered
            unshared := same ▸ unshared
            delegate := audits
            candid := start.graph.candid_standard
            clear := clear }
        counting := same ▸ ⟨unaltered.rated, countable⟩ }
  constructor
  · intro error left run
    exact (conforming.call run).2 error rfl
  · intro look member current worker after fires
    obtain ⟨held, members⟩ := conforming.looks fuel look member
    obtain ⟨waiting, top, _⟩ := fires.top
    have inside : current ∈ look.interpreter.members := by
      apply members
      rw [top]
      exact List.mem_cons_self ..
    exact (held.firing inside fires.ready fires.completed).1

/-- A splitter that duplicates what comes in to two filters, and a joiner that takes from them
in turn. -/
def mirrorBuilder : Builder Standard Nat :=
  let builder := (Builder.addWorker { factory := { kind := .debug } } .splitter
    (⟨"copy", .duplicate⟩ : WorkerSpec Standard)).2
  let builder := (builder.addWorker .filter ⟨"left", .identity⟩).2
  let builder := (builder.addWorker .filter ⟨"right", .identity⟩).2
  let builder := (builder.addWorker .joiner ⟨"collect", .roundRobinJoin 2⟩).2
  let builder := (builder.connect 0 1).2
  let builder := (builder.connect 0 2).2
  let builder := (builder.connect 1 3).2
  (builder.connect 2 3).2

def mirrorGraph : Graph Standard Nat Unit := mirrorBuilder.graph

def mirrorInterpreter : Interpreter Standard Nat Unit :=
  { onSection mirrorGraph [0, 1, 2, 3] [] with delegate := { audits := true } }

theorem mirrorGraph_unaltered : mirrorGraph.Unaltered := by
  have made : mirrorBuilder.build.1 = .ok mirrorGraph := rfl
  refine ⟨mirrorGraph, ⟨mirrorBuilder, ?_, made⟩, rfl, rfl⟩
  exact .connect _ _ (.connect _ _ (.connect _ _ (.connect _ _ (.addWorker _ _ (.addWorker _ _
    (.addWorker _ _ (.addWorker _ _ (.fresh _))))))))

private theorem mirrorGraph_countable :
    ∀ id worker, mirrorGraph.worker? id = some worker → worker.body.Countable worker.shape := by
  intro id worker known
  match id, known with
  | 0, known | 1, known | 2, known | 3, known =>
      cases known
      decide
  | id + 4, known => cases (show none = some worker from known)

private theorem mirrorInterpreter_opens : Opens mirrorGraph [0, 1, 2, 3] [] mirrorInterpreter :=
  ⟨_, _, _, rfl, rfl⟩

private theorem mirrorInterpreter_clear : mirrorInterpreter.Clear :=
  clear_of_reset mirrorGraph_unaltered.descends.sound (by decide +kernel)

def mirrorFed : Interpreter Standard Nat Unit :=
  (mirrorInterpreter.pushAll? 0 [1, 2]).getD mirrorInterpreter

theorem standard_bodies_pass_audits_mirror :
    mirrorInterpreter.Supplied mirrorFed ∧
      (∃ left, mirrorFed.interpret 20 = some (.ok true, left) ∧
        (left.graph.bank.channel 5).items = [1, 2, 1, 2]) ∧
      ∃ look ∈ mirrorFed.looks 20, ∃ worker after, look.Fires 3 worker after ∧
        worker.rates.Exactly (look.interpreter.graph.accesses 3) := by
  have pushed : mirrorInterpreter.pushAll? 0 [1, 2] = some mirrorFed := rfl
  have supplied : mirrorInterpreter.Supplied mirrorFed := .push [1, 2] .start rfl rfl pushed
  obtain ⟨look, worker, after, listed, fires⟩ :
      ∃ look worker after, (mirrorFed.looks 20)[12]? = some look ∧ look.Fires 3 worker after :=
    ⟨_, _, _, rfl, ⟨⟨_, rfl, by decide⟩, ⟨rfl, rfl, rfl⟩, rfl⟩⟩
  have member := List.mem_of_getElem? listed
  have passes := standard_bodies_pass_audits mirrorGraph_unaltered mirrorGraph_countable
    (Bank.unshared_of_own (by decide)) mirrorInterpreter_opens rfl mirrorInterpreter_clear
    supplied 20
  exact ⟨supplied, ⟨_, rfl, rfl⟩, look, member, worker, after, fires,
    passes.2 look member 3 worker after fires⟩

/-! ### Counts from another section -/

/-- A filter that passes on what comes in to another one. -/
def handoverBuilder : Builder Standard Nat :=
  let builder := (Builder.addWorker { factory := { kind := .debug } } .filter
    (⟨"before", .identity⟩ : WorkerSpec Standard)).2
  let builder := (builder.addWorker .filter ⟨"after", .identity⟩).2
  (builder.connect 0 1).2

def handoverGraph : Graph Standard Nat Unit := handoverBuilder.graph

def handoverInterpreter (graph : Graph Standard Nat Unit) (id : WorkerId) :
    Interpreter Standard Nat Unit :=
  { onSection graph [id] [] with delegate := { audits := true } }

private theorem handoverGraph_unaltered : handoverGraph.Unaltered := by
  have made : handoverBuilder.build.1 = .ok handoverGraph := rfl
  refine ⟨handoverGraph, ⟨handoverBuilder, ?_, made⟩, rfl, rfl⟩
  exact .connect _ _ (.addWorker _ _ (.addWorker _ _ (.fresh _)))

/-- The counts that a section leaves on its boundary are held against the next section: an
element taken from the output boundary of the first worker counts as taken by the second one,
which is then found to have taken two. -/
theorem audit_blames_other_section :
    handoverGraph.Unaltered ∧
      (∀ slot ∈ handoverGraph.bank.slots, ∃ channel, slot = .own channel ∧
        channel.stats.isSome = true) ∧
      Opens handoverGraph [0] [] (handoverInterpreter handoverGraph 0) ∧
      (handoverInterpreter handoverGraph 0).delegate = { audits := true } ∧
      ∃ first, (handoverInterpreter handoverGraph 0).Supplied first ∧ first.graph.Unaltered ∧
        Opens first.graph [1] [] (handoverInterpreter first.graph 1) ∧
        (handoverInterpreter first.graph 1).delegate = { audits := true } ∧
        ∃ second left, (handoverInterpreter first.graph 1).Supplied second ∧
          second.interpret 9 =
            some (.error (.rateViolation ⟨"after", 1⟩ 0 .pop (.exact 1) 2), left) := by
  obtain ⟨fed, called, first, push, call, pop, outlet, frame, bodies, opened, audits, rest⟩ :
      ∃ fed called first, (handoverInterpreter handoverGraph 0).pushAll? 0 [7] = some fed ∧
        fed.interpret 9 = some (.ok true, called) ∧ called.pop? 1 = some (.ok 7, first) ∧
        called.boundary? 1 = some (.output 0 0 (some 1)) ∧
        first.graph.frame = handoverGraph.frame ∧
        first.graph.workers.map Worker.body = handoverGraph.workers.map Worker.body ∧
        Opens first.graph [1] [] (handoverInterpreter first.graph 1) ∧
        (handoverInterpreter first.graph 1).delegate = { audits := true } ∧
        ∃ second left, (handoverInterpreter first.graph 1).boundary? 0 =
            some (.input 0 (some 0) 1) ∧
          (handoverInterpreter first.graph 1).pushAll? 0 [8] = some second ∧
          second.interpret 9 =
            some (.error (.rateViolation ⟨"after", 1⟩ 0 .pop (.exact 1) 2), left) :=
    ⟨_, _, _, rfl, rfl, rfl, rfl, rfl, rfl, ⟨_, _, _, rfl, rfl⟩, rfl, _, _, rfl, rfl, rfl⟩
  obtain ⟨second, left, inlet, more, fails⟩ := rest
  obtain ⟨origin, built, sameFrame, sameBodies⟩ := handoverGraph_unaltered
  refine ⟨⟨origin, built, sameFrame, sameBodies⟩, ?_, ⟨_, _, _, rfl, rfl⟩, rfl, first,
    .pop (.call 9 (.push [7] .start rfl rfl push) call) outlet rfl pop,
    ⟨origin, built, frame.trans sameFrame, bodies.trans sameBodies⟩, opened, audits, second,
    left, .push [8] .start inlet rfl more, fails⟩
  have slots : handoverGraph.bank.slots =
      [.own (.ofKind .debug), .own (.ofKind .debug), .own (.ofKind .debug)] := rfl
  simp [slots, Channel.ofKind, ChannelKind.instrumented]

end Interpreter

end DemandFlow
