import DemandFlow.Proofs.Graph.Trim
import DemandFlow.Proofs.Interpreter.Exactness

/-!
What an audited firing needs on its inputs. An audit bounds how far a firing looks and how much
it pops, and so its span by the sum of the two maxima. The larger of them, which is what a
worker waits for, bounds the span if the looks come before the pops.
-/

set_option autoImplicit false

namespace DemandFlow

variable {β α μ : Type}

namespace Access

private theorem exists_counts (input extent taken : Nat) :
    ∃ accesses, reach accesses input = extent ∧ pops accesses input = taken := by
  have unseen : reach (List.replicate taken (.popped input)) input = 0 := by
    apply reach_eq_zero
    intro access member
    rw [List.eq_of_mem_replicate member]
    rfl
  have counted : pops (List.replicate taken (.popped input)) input = taken :=
    List.count_replicate_self
  cases extent with
  | zero => exact ⟨_, unseen, counted⟩
  | succ index =>
      refine ⟨List.replicate taken (.popped input) ++ [.peeked input index], ?_, ?_⟩
      · simp [unseen, depth]
      · simp only [pops_concat, counted, reduceCtorEq, ↓reduceIte, Nat.add_zero]

private theorem counts_granted {γ : Type} {access : Access} (answer : Except Error γ) {input : Nat}
    (deep : access.depth input = 0) (other : access ≠ .popped input) (earlier : List Access) :
    reach (earlier ++ access.granted answer) input = reach earlier input ∧
      pops (earlier ++ access.granted answer) input = pops earlier input := by
  cases answer with
  | error error => simp only [granted, List.append_nil, and_self]
  | ok element => simp [granted, deep, other]

end Access

section

variable {inputs outputs : List Port} {bank : Bank α} {input : Nat} {port : Port}
  {earlier : List Access}

private theorem Secluded.read_request (secluded : Secluded bank.keys inputs outputs)
    (place : inputs[input]? = some port)
    (read : (bank.channel port.channel).Read (Access.reach earlier input)
      (Access.pops earlier input)) {other : Nat} {otherPort : Port}
    (otherAt : inputs[other]? = some otherPort) (access : Access) {γ : Type}
    (answer : Except Error γ) (channel : Channel α)
    (here : other = input → otherPort = port →
      channel.Read (Access.reach (earlier ++ access.granted answer) input)
        (Access.pops (earlier ++ access.granted answer) input))
    (elsewhere : other ≠ input → access.depth input = 0 ∧ access ≠ .popped input) :
    ((bank.set otherPort.channel channel).channel port.channel).Read
      (Access.reach (earlier ++ access.granted answer) input)
      (Access.pops (earlier ++ access.granted answer) input) := by
  have own := secluded.own port (List.mem_of_getElem? place)
  by_cases same : other = input
  · subst same
    rw [place] at otherAt
    cases otherAt
    rw [Bank.channel_set_of_coincide _ ⟨none, own, .inl rfl⟩]
    exact here rfl rfl
  · have apart : ¬ Bank.Coincide bank.keys otherPort.channel port.channel := fun coincide =>
      same (secluded.once other input otherPort port otherAt place
        (Bank.eq_of_coincide (.inr own) coincide).symm)
    obtain ⟨deep, unpopped⟩ := elsewhere same
    obtain ⟨reach, pops⟩ := Access.counts_granted answer deep unpopped earlier
    rw [Bank.channel_set_of_apart _ apart, reach, pops]
    exact read

/-- A run adds its accesses to what the channel of an input has counted. -/
theorem Routine.read_run {ρ : Type} (secluded : Secluded bank.keys inputs outputs)
    (place : inputs[input]? = some port)
    (read : (bank.channel port.channel).Read (Access.reach earlier input)
      (Access.pops earlier input)) (worker : WorkerId) (routine : Routine α μ ρ)
    (outbox : List (Outgoing μ)) :
    let later := earlier ++ routine.accesses worker inputs outputs bank
    ((routine.run worker inputs outputs { bank := bank, outbox := outbox }).2.bank.channel
      port.channel).Read (Access.reach later input) (Access.pops later input) := by
  induction routine generalizing bank outbox earlier with
  | done result => simpa only [run, accesses, List.append_nil] using read
  | pop other next inductionHypothesis =>
      unfold run accesses
      cases otherAt : inputs[other]? with
      | none => exact inductionHypothesis _ secluded read outbox
      | some otherPort =>
          have popped := secluded.read_request place read otherAt (.popped other)
            (bank.channel otherPort.channel).pop.1 (bank.channel otherPort.channel).pop.2
            (by
              rintro rfl rfl
              exact read.pop)
            (fun different => ⟨rfl, by simpa only [ne_eq, Access.popped.injEq] using different⟩)
          have further := inductionHypothesis (bank.pop otherPort.channel).1
            (secluded.set _ _) popped outbox
          rw [List.append_assoc] at further
          exact further
  | peek other index next inductionHypothesis =>
      unfold run accesses
      cases otherAt : inputs[other]? with
      | none => exact inductionHypothesis _ secluded read outbox
      | some otherPort =>
          have peeked := secluded.read_request place read otherAt (.peeked other index)
            ((bank.channel otherPort.channel).peek index).1
            ((bank.channel otherPort.channel).peek index).2
            (by
              rintro rfl rfl
              exact read.peek index)
            (fun different => ⟨if_neg different, by simp⟩)
          have further := inductionHypothesis (bank.peek otherPort.channel index).1
            (secluded.set _ _) peeked outbox
          rw [List.append_assoc] at further
          exact further
  | available other next inductionHypothesis =>
      unfold run accesses
      cases inputs[other]? with
      | none => exact inductionHypothesis _ secluded read outbox
      | some otherPort => exact inductionHypothesis _ secluded read outbox
  | push output element next inductionHypothesis =>
      unfold run accesses
      cases outputAt : outputs[output]? with
      | none => exact inductionHypothesis _ secluded read outbox
      | some outputPort =>
          have pushed : ((bank.push outputPort.channel element).channel port.channel).Read
              (Access.reach (earlier ++ [.pushed output]) input)
              (Access.pops (earlier ++ [.pushed output]) input) := by
            have member := List.mem_of_getElem? place
            have apart : ¬ Bank.Coincide bank.keys outputPort.channel port.channel :=
              fun coincide => secluded.apart port member outputPort
                (List.mem_of_getElem? outputAt)
                (Bank.eq_of_coincide (.inr (secluded.own port member)) coincide)
            unfold Bank.push
            rw [Bank.channel_set_of_apart _ apart]
            simpa [Access.depth] using read
          have further := inductionHypothesis (.ok ())
            (secluded.set _ _) pushed outbox
          rw [List.append_assoc] at further
          exact further
  | send portal payload next inductionHypothesis =>
      exact inductionHypothesis secluded read _

end

namespace Graph

/-- An audit of inputs that passes has found every count inside its rate. -/
theorem auditInputs_admits {graph : Graph β α μ} {worker : Label} {port : Nat}
    {inputs : List (ChannelId × Rate × Rate)}
    (own : ∀ input ∈ inputs, graph.bank.keys[input.1]? = some none)
    (distinct : (inputs.map Prod.fst).Nodup)
    (passed : (graph.auditInputs worker port inputs).1 = .ok ()) :
    ∀ input ∈ inputs, ∃ stats, (graph.bank.channel input.1).stats = some stats ∧
      input.2.1.admits stats.peekExtent = true ∧ input.2.2.admits stats.popCount = true := by
  induction inputs generalizing graph port with
  | nil => exact fun input member => nomatch member
  | cons input rest inductionHypothesis =>
      obtain ⟨channel, peek, pop⟩ := input
      rw [List.forall_mem_cons] at own
      rw [List.map_cons, List.nodup_cons] at distinct
      unfold auditInputs at passed
      split at passed
      next => cases passed
      next checked =>
        rw [List.forall_mem_cons]
        constructor
        · unfold checkInput auditStats at checked
          cases counted : (graph.bank.channel channel).stats with
          | none =>
              rw [counted] at checked
              cases checked
          | some stats =>
              rw [counted] at checked
              dsimp only at checked
              unfold checkRate at checked
              split at checked
              next => cases checked
              next peeked =>
                split at peeked
                next inside =>
                  split at checked
                  next taken => exact ⟨stats, rfl, inside, taken⟩
                  next => cases checked
                next => cases peeked
        · have keys : (graph.resetStats channel).bank.keys = graph.bank.keys :=
            Bank.keys_set _ _ _
          intro later member
          have apart : ¬ Bank.Coincide graph.bank.keys channel later.1 := fun coincide =>
            distinct.1 (Bank.eq_of_coincide (.inl own.1) coincide ▸ List.mem_map_of_mem member)
          have kept : (graph.resetStats channel).bank.channel later.1 =
              graph.bank.channel later.1 := Bank.channel_set_of_apart _ apart
          rw [← kept]
          exact inductionHypothesis (keys ▸ own.2) distinct.2 passed later member

section

variable {graph after : Graph β α μ} {id : WorkerId} {worker : Worker β μ}

/-- After a firing the channel of an input has counted at least what the firing did there. -/
theorem read_fire [Recipient β μ] [Work β α μ] (known : graph.worker? id = some worker)
    (secluded : Secluded graph.bank.keys worker.inputs worker.outputs)
    (firing : graph.fire id = (.ok (), after)) {index : Nat} {port : Port}
    (place : worker.inputs[index]? = some port) {stats : ChannelStats}
    (counting : (graph.bank.channel port.channel).stats = some stats) :
    ∃ later, (after.bank.channel port.channel).stats = some later ∧
      Access.reach (graph.accesses id) index ≤ later.peekExtent ∧
      Access.pops (graph.accesses id) index ≤ later.popCount := by
  obtain ⟨ready, body, scene, delivery, inputs, outputs, run, _, settled⟩ :=
    fire_ok known firing
  rw [← inputs] at place
  rw [← inputs, ← outputs] at secluded
  obtain ⟨earlier, extent, taken⟩ :=
    Access.exists_counts index stats.peekExtent stats.popCount
  have before : (graph.bank.channel port.channel).Read (Access.reach earlier index)
      (Access.pops earlier index) := ⟨stats, counting, extent.symm, taken.symm⟩
  have read := Routine.read_run secluded place before id
    (Work.work (α := α) (μ := μ) ready.body
      { worker := id, executions := ready.executions, shape := ready.shape }) []
  dsimp only at read
  rw [← runBody_eq, run, ← accesses_of_delivery known delivery, Access.reach_append,
    Access.pops_append] at read
  obtain ⟨later, counted, extentLater, takenLater⟩ := read
  refine ⟨later, ?_, by omega, by omega⟩
  rw [settled]
  exact counted

/-- An audit that passes has found what was counted on an input inside its rates. -/
theorem admits_of_audit (sound : graph.frame.Sound) (known : graph.worker? id = some worker)
    (secluded : Secluded graph.bank.keys worker.inputs worker.outputs)
    (audited : (graph.audit id).1 = .ok ()) {index : Nat} {port : Port}
    (place : worker.inputs[index]? = some port) {stats : ChannelStats}
    (counted : (graph.bank.channel port.channel).stats = some stats) :
    ∃ peek pop, worker.rates.peek[index]? = some peek ∧ worker.rates.pop[index]? = some pop ∧
      peek.admits stats.peekExtent = true ∧ pop.admits stats.popCount = true := by
  have fits : worker.rates.fits worker.shape = true := by
    apply sound.rated id worker.frame
    rw [frame_get, known]
    rfl
  obtain ⟨channels, _⟩ := audited_inputs fits
  obtain ⟨peeks, pops, _⟩ := WorkerRates.fits_iff.mp fits
  have within := (List.getElem?_eq_some_iff.mp place).1
  obtain ⟨peek, peekAt⟩ : ∃ peek, worker.rates.peek[index]? = some peek :=
    ⟨_, List.getElem?_eq_getElem (peeks.symm ▸ within)⟩
  obtain ⟨pop, popAt⟩ : ∃ pop, worker.rates.pop[index]? = some pop :=
    ⟨_, List.getElem?_eq_getElem (pops.symm ▸ within)⟩
  have entry : (worker.inputChannels.zip (worker.rates.peek.zip worker.rates.pop))[index]? =
      some (port.channel, peek, pop) := by
    rw [List.getElem?_zip_eq_some, List.getElem?_zip_eq_some, Worker.inputChannels,
      List.getElem?_map, place]
    exact ⟨rfl, peekAt, popAt⟩
  have passed : (graph.auditInputs worker.label 0
      (worker.inputChannels.zip (worker.rates.peek.zip worker.rates.pop))).1 = .ok () := by
    unfold audit at audited
    rw [known] at audited
    dsimp only at audited
    split at audited
    next => cases audited
    next left outcome => rw [outcome]
  have own : ∀ input ∈ worker.inputChannels.zip (worker.rates.peek.zip worker.rates.pop),
      graph.bank.keys[input.1]? = some none := by
    intro input member
    have channel := List.mem_map_of_mem (f := Prod.fst) member
    rw [channels] at channel
    obtain ⟨port, portIn, same⟩ := List.mem_map.mp channel
    rw [← same]
    exact secluded.own port portIn
  obtain ⟨found, here, peeked, popped⟩ := auditInputs_admits own
    (channels ▸ nodup_channels secluded.once) passed _ (List.mem_of_getElem? entry)
  rw [counted] at here
  cases here
  exact ⟨peek, pop, peekAt, popAt, peeked, popped⟩

end

end Graph

/-- The channel counts what is done to it, and nobody else holds it. -/
def Bank.Debug (bank : Bank α) (id : ChannelId) : Prop :=
  ∃ channel stats, bank.slots[id]? = some (.own channel) ∧ channel.stats = some stats

private theorem Bank.Debug.stats {bank : Bank α} {id : ChannelId} (debug : bank.Debug id) :
    ∃ stats, (bank.channel id).stats = some stats := by
  obtain ⟨channel, stats, held, counting⟩ := debug
  refine ⟨stats, ?_⟩
  unfold Bank.channel channel?
  rw [held]
  exact counting

private theorem Rate.le_of_admits {rate : Rate} {observed most : Nat}
    (admits : rate.admits observed = true) (known : rate.max.known? = some most) :
    observed ≤ most := by
  unfold Rate.admits at admits
  rw [known, Bool.and_eq_true] at admits
  simpa only [Option.all_some, decide_eq_true_eq] using admits.2

namespace Graph

private theorem secluded_of_debug {graph : Graph β α μ} (sound : graph.frame.Sound) {id : WorkerId}
    {worker : Worker β μ} (known : graph.worker? id = some worker)
    (debug : ∀ port ∈ worker.inputs, graph.bank.Debug port.channel) :
    Secluded graph.bank.keys worker.inputs worker.outputs := by
  have wired := sound.wiring
  have inputs := wiring_inputs known
  have outputs := wiring_outputs known
  constructor
  · intro port member
    obtain ⟨channel, stats, held, _⟩ := debug port member
    unfold Bank.keys
    rw [List.getElem?_map, held]
    rfl
  · intro left right leftPort rightPort leftAt rightAt same
    exact (wired.inputOnce id id left right leftPort rightPort (inputs ▸ leftAt)
      (inputs ▸ rightAt) same).2
  · intro input inputIn output outputIn same
    obtain ⟨inputIndex, inputAt⟩ := List.mem_iff_getElem?.mp inputIn
    obtain ⟨outputIndex, outputAt⟩ := List.mem_iff_getElem?.mp outputIn
    exact (wired.ends id id outputIndex inputIndex output input (outputs ▸ outputAt)
      (inputs ▸ inputAt) same.symm).2.2 rfl

/-- A firing that succeeds and passes its audit, on instrumented inputs with known maxima, of a
body that does not ask how much they hold. -/
structure AuditedFiring [Signature β] [Recipient β μ] [Work β α μ] (graph after : Graph β α μ)
    (id : WorkerId) (worker : Worker β μ) (peekMax popMax : Nat → Nat) : Prop where
  descends : graph.Descends
  known : graph.worker? id = some worker
  debug : ∀ port ∈ worker.inputs, graph.bank.Debug port.channel
  peeks : ∀ index peek, worker.rates.peek[index]? = some peek →
    peek.max.known? = some (peekMax index)
  pops : ∀ index pop, worker.rates.pop[index]? = some pop →
    pop.max.known? = some (popMax index)
  unasking : graph.NextRun id Routine.NeverAsks
  firing : graph.fire id = (.ok (), after)
  audited : (after.audit id).1 = .ok ()

/-- An audited firing whose body does not use the size it is told about a look beyond the end
goes the same way on inputs that are cut down to the larger of their two maxima, which is what
the worker waits for, provided that it uses no more of them. This is so if each input is looked
at only before it is popped from. In any case the sum of the maxima is enough. -/
theorem audited_firing_fits_window [Signature β] [Recipient β μ] [Work β α μ]
    {graph after : Graph β α μ} {id : WorkerId} {worker : Worker β μ}
    {peekMax popMax : Nat → Nat}
    (audited : graph.AuditedFiring after id worker peekMax popMax)
    (ignoring : graph.NextRun id Routine.IgnoresSizes) :
    ((∀ index < worker.inputs.length, Access.LooksFirst index (graph.accesses id) ∨
        Access.span index (graph.accesses id) ≤ max (peekMax index) (popMax index)) →
      graph.FiresAlike after id worker.inputs
        (fun index => max (peekMax index) (popMax index))) ∧
      graph.FiresAlike after id worker.inputs (fun index => popMax index + peekMax index) := by
  obtain ⟨descends, known, debug, peeks, pops, unasking, firing, passed⟩ := audited
  have secluded := secluded_of_debug descends.sound known debug
  have framed : after.frame = graph.frame := by
    have kept := graph.frame_fire id
    rw [firing] at kept
    exact kept
  obtain ⟨fired, found, same⟩ := worker_of_frame_eq framed.symm known
  have inputs : fired.inputs = worker.inputs := congrArg WorkerFrame.inputs same
  have outputs : fired.outputs = worker.outputs := congrArg WorkerFrame.outputs same
  have rates : fired.rates = worker.rates := congrArg WorkerFrame.rates same
  have secludedAfter : Secluded after.bank.keys fired.inputs fired.outputs := by
    rw [inputs, outputs, show after.bank.keys = graph.bank.keys from
      congrArg GraphFrame.keys framed]
    exact secluded
  have bounds (index : Nat) (within : index < worker.inputs.length) :
      Access.reach (graph.accesses id) index ≤ peekMax index ∧
        Access.pops (graph.accesses id) index ≤ popMax index := by
    obtain ⟨port, place⟩ : ∃ port, worker.inputs[index]? = some port :=
      ⟨_, List.getElem?_eq_getElem within⟩
    obtain ⟨stats, counting⟩ := (debug port (List.mem_of_getElem? place)).stats
    obtain ⟨later, counted, reach, taken⟩ := read_fire known secluded firing place counting
    obtain ⟨peek, pop, peekAt, popAt, peeked, popped⟩ := admits_of_audit
      (framed ▸ descends.sound) found secludedAfter passed (inputs ▸ place) counted
    rw [rates] at peekAt popAt
    exact ⟨Nat.le_trans reach (Rate.le_of_admits peeked (peeks index peek peekAt)),
      Nat.le_trans taken (Rate.le_of_admits popped (pops index pop popAt))⟩
  constructor
  · intro uses
    refine fire_cutDown known secluded unasking ignoring firing ?_
    intro index within
    rcases uses index within with first | enough
    · have spanned := Access.span_le_max first
      have bound := bounds index within
      omega
    · exact enough
  · refine fire_cutDown known secluded unasking ignoring firing ?_
    intro index within
    have spanned := Access.span_le_add index (graph.accesses id)
    have bound := bounds index within
    omega

end Graph

/-! ### Three bodies on one input -/

inductive PeekingBody where
  /-- Looks at the front in between two pops. -/
  | between
  /-- Looks beyond the front after a pop. -/
  | ahead
  /-- Looks far beyond the end and pushes the size that it is told. -/
  | sizing

namespace PeekingBody

def rates : PeekingBody → WorkerRates
  | between => { peek := [.exact 1], pop := [.exact 2], push := [.exact 1] }
  | ahead => { peek := [.exact 2], pop := [.exact 1], push := [.exact 1] }
  | sizing => { peek := [.exact 0], pop := [.exact 1], push := [.exact 1] }

/-- Goes on with what a request has brought, or fails with it. -/
def orFail {γ : Type} (body : PeekingBody)
    (next : γ → Routine Nat Unit (Except Error Unit × PeekingBody)) :
    Except Error γ → Routine Nat Unit (Except Error Unit × PeekingBody)
  | .error error => .done (.error error, body)
  | .ok answer => next answer

def routine (body : PeekingBody) : Routine Nat Unit (Except Error Unit × PeekingBody) :=
  let finish (element : Nat) := Routine.push 0 element (fun answer => .done (answer, body))
  match body with
  | between =>
      .pop 0 (orFail body fun _ => .peek 0 0 (orFail body fun element =>
        .pop 0 (orFail body fun _ => finish element)))
  | ahead => .pop 0 (orFail body fun _ => .peek 0 1 (orFail body finish))
  | sizing =>
      .peek 0 3 fun
        | .error (.indexOutOfRange _ size) => .pop 0 (orFail body fun _ => finish size)
        | _ => .done (.error .emptyChannel, body)

private theorem neverAsks_orFail {γ : Type} {body : PeekingBody}
    {next : γ → Routine Nat Unit (Except Error Unit × PeekingBody)}
    (unasking : ∀ answer, (next answer).NeverAsks) (answer : Except Error γ) :
    (orFail body next answer).NeverAsks := by
  cases answer with
  | error error => trivial
  | ok answer => exact unasking answer

private theorem neverAsks_routine (body : PeekingBody) : body.routine.NeverAsks := by
  cases body with
  | between =>
      exact neverAsks_orFail fun _ => neverAsks_orFail fun _ => neverAsks_orFail fun _ _ => trivial
  | ahead => exact neverAsks_orFail fun _ => neverAsks_orFail fun _ _ => trivial
  | sizing =>
      intro answer
      dsimp only
      split
      next => exact neverAsks_orFail fun _ _ => trivial
      next => trivial

private theorem ignoresSizes_between : between.routine.IgnoresSizes := by
  intro first
  cases first with
  | error error => trivial
  | ok element =>
      refine ⟨?_, fun _ _ => .inr fun _ _ _ _ => ⟨_, rfl⟩⟩
      intro second
      cases second with
      | error error => trivial
      | ok front =>
          intro third
          cases third with
          | error error => trivial
          | ok last => exact fun _ => trivial

end PeekingBody

instance : Signature PeekingBody where
  typeOf _ := .named "PeekingBody"
  rates body _ := body.rates

instance : Recipient PeekingBody Unit where
  receive body _ := body

instance : Work PeekingBody Nat Unit where
  work body _ := body.routine

def peekingBuilder (body : PeekingBody) : Builder PeekingBody Nat :=
  (Builder.addWorker { factory := { kind := .debug } } .filter ⟨"peeking", body⟩).2

def peekingGraph (body : PeekingBody) : Graph PeekingBody Nat Unit := (peekingBuilder body).graph

def fedPeeking (body : PeekingBody) (elements : List Nat) : Graph PeekingBody Nat Unit :=
  { peekingGraph body with bank := (peekingGraph body).bank.pushAll 0 elements }

private theorem fedPeeking_descends (body : PeekingBody) (elements : List Nat) :
    (fedPeeking body elements).Descends := by
  refine ⟨peekingGraph body, ⟨peekingBuilder body, .addWorker _ _ (.fresh _), ?_⟩,
    Graph.frame_withBank _ (Bank.keys_set _ _ _)⟩
  cases body <;> rfl

theorem fedPeeking_audited {body : PeekingBody} {elements : List Nat} {peek pop : Rate}
    {peekMax popMax : Nat} {after : Graph PeekingBody Nat Unit} {worker : Worker PeekingBody Unit}
    (known : (fedPeeking body elements).worker? 0 = some worker)
    (inputs : worker.inputs = [⟨none, 0⟩])
    (debug : (fedPeeking body elements).bank.Debug 0)
    (peeks : worker.rates.peek = [peek] ∧ peek.max.known? = some peekMax)
    (pops : worker.rates.pop = [pop] ∧ pop.max.known? = some popMax)
    (firing : (fedPeeking body elements).fire 0 = (.ok (), after))
    (audited : (after.audit 0).1 = .ok ()) :
    (fedPeeking body elements).AuditedFiring after 0 worker (fun _ => peekMax)
      (fun _ => popMax) where
  descends := fedPeeking_descends body elements
  known := known
  debug port member := by
    rw [inputs, List.mem_singleton] at member
    subst member
    exact debug
  peeks index rate place := by
    have member := List.mem_of_getElem? place
    rw [peeks.1, List.mem_singleton] at member
    rw [member]
    exact peeks.2
  pops index rate place := by
    have member := List.mem_of_getElem? place
    rw [pops.1, List.mem_singleton] at member
    rw [member]
    exact pops.2
  unasking _ ready _ _ := ready.body.neverAsks_routine
  firing := firing
  audited := audited

namespace Graph

/-- Two pops with a look in between stay inside a window of two elements. -/
theorem audited_firing_fits_window_between : ∃ after worker,
    (fedPeeking .between [1, 2, 3]).AuditedFiring after 0 worker (fun _ => 1) (fun _ => 2) ∧
      (fedPeeking .between [1, 2, 3]).NextRun 0 Routine.IgnoresSizes ∧
      Access.span 0 ((fedPeeking .between [1, 2, 3]).accesses 0) = 2 ∧
      (fedPeeking .between [1, 2, 3]).FiresAlike after 0 worker.inputs (fun _ => 2) := by
  obtain ⟨after, worker, audited, inputs, span⟩ : ∃ after worker,
      (fedPeeking .between [1, 2, 3]).AuditedFiring after 0 worker (fun _ => 1) (fun _ => 2) ∧
        worker.inputs.length = 1 ∧
        Access.span 0 ((fedPeeking .between [1, 2, 3]).accesses 0) = 2 :=
    ⟨_, _, fedPeeking_audited rfl rfl ⟨_, _, rfl, rfl⟩ ⟨rfl, rfl⟩ ⟨rfl, rfl⟩ rfl rfl, rfl, rfl⟩
  have ignoring : (fedPeeking .between [1, 2, 3]).NextRun 0 Routine.IgnoresSizes := by
    intro worker ready known delivery
    cases known
    cases delivery
    exact PeekingBody.ignoresSizes_between
  refine ⟨after, worker, audited, ignoring, span,
    (audited_firing_fits_window audited ignoring).1 ?_⟩
  intro index within
  obtain rfl : index = 0 := by omega
  exact .inr (Nat.le_of_eq span)

/-- A body that looks ahead after a pop needs a third element, though its maxima are two and
one; and a body can push the size that it is told about a look beyond the end. Both go another
way on inputs that are cut down to the larger maximum. -/
theorem audited_firing_can_need_more :
    (∃ after worker left,
      (fedPeeking .ahead [1, 2, 3]).AuditedFiring after 0 worker (fun _ => 2) (fun _ => 1) ∧
      (after.bank.channel 1).items = [3] ∧
      { fedPeeking .ahead [1, 2, 3] with
          bank := (fedPeeking .ahead [1, 2, 3]).bank.cutDown worker.inputs
            (fun _ => max 2 1) }.fire 0 =
        (.error (.indexOutOfRange 1 1), left)) ∧
    ∃ after worker left,
      (fedPeeking .sizing [7, 8]).AuditedFiring after 0 worker (fun _ => 0) (fun _ => 1) ∧
      (after.bank.channel 1).items = [2] ∧
      { fedPeeking .sizing [7, 8] with
          bank := (fedPeeking .sizing [7, 8]).bank.cutDown worker.inputs
            (fun _ => max 0 1) }.fire 0 =
        (.ok (), left) ∧ (left.bank.channel 1).items = [1] :=
  ⟨⟨_, _, _, fedPeeking_audited rfl rfl ⟨_, _, rfl, rfl⟩ ⟨rfl, rfl⟩ ⟨rfl, rfl⟩ rfl rfl, rfl, rfl⟩,
    _, _, _, fedPeeking_audited rfl rfl ⟨_, _, rfl, rfl⟩ ⟨rfl, rfl⟩ ⟨rfl, rfl⟩ rfl rfl, rfl, rfl,
    rfl⟩

end Graph

end DemandFlow
