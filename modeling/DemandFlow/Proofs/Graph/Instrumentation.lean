import DemandFlow.Proofs.Graph.Coherence
import DemandFlow.Proofs.Graph.Indifference
import DemandFlow.Proofs.Graph.Passage

/-!
Instrumented graphs: all channels count. Firings and audits keep them instrumented, and an
audit of an instrumented graph can fail for one reason only, a count outside its rate.
-/

set_option autoImplicit false

namespace DemandFlow

variable {β α μ : Type}

def Error.Violation (error : Error) : Prop :=
  ∃ worker port kind declared observed,
    error = .rateViolation worker port kind declared observed

namespace Channel

@[simp]
theorem isSome_stats_push (channel : Channel α) (element : α) :
    (channel.push element).stats.isSome = channel.stats.isSome := by
  simp only [push, Option.isSome_map]

@[simp]
theorem isSome_stats_pushAll (channel : Channel α) (elements : List α) :
    (channel.pushAll elements).stats.isSome = channel.stats.isSome := by
  unfold pushAll
  induction elements generalizing channel with
  | nil => rfl
  | cons element rest inductionHypothesis =>
      simp only [List.foldl_cons, inductionHypothesis, isSome_stats_push]

@[simp]
theorem isSome_stats_pop (channel : Channel α) :
    channel.pop.2.stats.isSome = channel.stats.isSome := by
  cases items : channel.items <;> simp [pop, pop?, items]

@[simp]
theorem isSome_stats_peek (channel : Channel α) (index : Nat) :
    (channel.peek index).2.stats.isSome = channel.stats.isSome := by
  cases element : channel.items[index]? <;> simp [peek, element]

@[simp]
theorem isSome_stats_resetStats (channel : Channel α) :
    channel.resetStats.stats.isSome = channel.stats.isSome := by
  simp only [resetStats, Option.isSome_map]

end Channel

namespace Bank

def Instrumented (bank : Bank α) : Prop :=
  ∀ id, id < bank.size → (bank.channel id).stats.isSome = true

theorem Instrumented.set {bank : Bank α} (instrumented : bank.Instrumented) {id : ChannelId}
    {channel : Channel α} (same : channel.stats.isSome = (bank.channel id).stats.isSome) :
    (bank.set id channel).Instrumented := by
  intro other known
  rw [size_set] at known
  by_cases coincide : Coincide bank.keys id other
  · rw [channel_set_of_coincide channel coincide, same]
    rcases coincide with ⟨key, here, _⟩
    have bound := (List.getElem?_eq_some_iff.mp here).1
    exact instrumented id (by simpa only [size, keys, List.length_map] using bound)
  · rw [channel_set_of_apart channel coincide]
    exact instrumented other known

theorem Instrumented.resetStats {bank : Bank α} (instrumented : bank.Instrumented)
    (id : ChannelId) : (bank.resetStats id).Instrumented :=
  instrumented.set (Channel.isSome_stats_resetStats _)

private theorem Instrumented.run {bank : Bank α} (instrumented : bank.Instrumented)
    (worker : WorkerId) {inputs outputs : List Port} {ρ : Type} (routine : Routine α μ ρ)
    (outbox : List (Outgoing μ)) :
    (routine.run worker inputs outputs { bank := bank, outbox := outbox }).2.bank.Instrumented :=
  Routine.run_induction Instrumented
    (fun _ _ _ holds => holds.set (Channel.isSome_stats_pop _))
    (fun _ _ _ _ holds => holds.set (Channel.isSome_stats_peek _ _))
    (fun _ _ _ _ holds => holds.set (Channel.isSome_stats_push _ _)) worker routine _ instrumented

end Bank

namespace Graph

theorem instrumented_fire [Recipient β μ] [Work β α μ] {graph : Graph β α μ}
    (instrumented : graph.bank.Instrumented) (id : WorkerId) :
    (graph.fire id).2.bank.Instrumented := by
  rcases graph.bank_fire id with same | ⟨ready, _, _, same⟩
  · rw [same]
    exact instrumented
  · rw [same]
    exact instrumented.run id _ []

theorem checkRate_violation {worker : Label} {port : Nat} {kind : RateKind} {declared : Rate}
    {observed : Nat} {error : Error}
    (failed : checkRate worker port kind declared observed = .error error) : error.Violation := by
  unfold checkRate at failed
  split at failed
  · cases failed
  · cases failed
    exact ⟨_, _, _, _, _, rfl⟩

theorem auditStats_of_instrumented {graph : Graph β α μ} (instrumented : graph.bank.Instrumented)
    (worker : Label) {channel : ChannelId} (known : channel < graph.bank.size) :
    ∃ stats, graph.auditStats worker channel = .ok stats := by
  rcases Option.isSome_iff_exists.mp (instrumented channel known) with ⟨stats, counted⟩
  exact ⟨stats, by simp only [auditStats, counted]⟩

private theorem instrumented_auditInputs {graph : Graph β α μ}
    (instrumented : graph.bank.Instrumented) (worker : Label) (port : Nat)
    (inputs : List (ChannelId × Rate × Rate))
    (known : ∀ input ∈ inputs, input.1 < graph.bank.size) :
    (graph.auditInputs worker port inputs).2.bank.Instrumented ∧
      ∀ error, (graph.auditInputs worker port inputs).1 = .error error → error.Violation := by
  induction inputs generalizing graph port with
  | nil => exact ⟨instrumented, fun error same => by cases same⟩
  | cons input rest inductionHypothesis =>
      rcases input with ⟨channel, peek, pop⟩
      rw [List.forall_mem_cons] at known
      rcases auditStats_of_instrumented instrumented worker known.1 with ⟨stats, counted⟩
      unfold auditInputs
      split
      next error failed =>
        refine ⟨instrumented, fun other same => ?_⟩
        cases same
        unfold checkInput at failed
        rw [counted] at failed
        dsimp only at failed
        split at failed
        next peeked =>
          cases failed
          exact checkRate_violation peeked
        next => exact checkRate_violation failed
      next =>
        apply inductionHypothesis (instrumented.resetStats channel)
        intro other member
        rw [resetStats, Bank.resetStats, Bank.size_set]
        exact known.2 other member

private theorem instrumented_auditOutputs {graph : Graph β α μ}
    (instrumented : graph.bank.Instrumented) (worker : Label) (port : Nat)
    (outputs : List (ChannelId × Rate)) (known : ∀ output ∈ outputs, output.1 < graph.bank.size) :
    (graph.auditOutputs worker port outputs).2.bank.Instrumented ∧
      ∀ error, (graph.auditOutputs worker port outputs).1 = .error error → error.Violation := by
  induction outputs generalizing graph port with
  | nil => exact ⟨instrumented, fun error same => by cases same⟩
  | cons output rest inductionHypothesis =>
      rcases output with ⟨channel, push⟩
      rw [List.forall_mem_cons] at known
      rcases auditStats_of_instrumented instrumented worker known.1 with ⟨stats, counted⟩
      unfold auditOutputs
      split
      next error failed =>
        refine ⟨instrumented, fun other same => ?_⟩
        cases same
        unfold checkOutput at failed
        rw [counted] at failed
        exact checkRate_violation failed
      next =>
        apply inductionHypothesis (instrumented.resetStats channel)
        intro other member
        rw [resetStats, Bank.resetStats, Bank.size_set]
        exact known.2 other member

/-- With counts on every channel, an audit can fail for a violation only. -/
theorem instrumented_audit {graph : Graph β α μ} (sound : graph.frame.Sound)
    (instrumented : graph.bank.Instrumented) {id : WorkerId} {worker : Worker β μ}
    (known : graph.worker? id = some worker) :
    (graph.audit id).2.bank.Instrumented ∧
      ∀ error, (graph.audit id).1 = .error error → error.Violation := by
  have inputsKnown : ∀ input ∈ worker.inputChannels.zip (worker.rates.peek.zip worker.rates.pop),
      input.1 < graph.bank.size := by
    intro input member
    have channelIn := (List.of_mem_zip member).1
    rw [Worker.inputChannels, List.mem_map] at channelIn
    rcases channelIn with ⟨port, portIn, same⟩
    rw [← same, ← graph.wiring_channels]
    exact sound.wiring.input_lt (by rw [wiring_inputs known]; exact portIn)
  have outputsKnown : ∀ output ∈ worker.outputChannels.zip worker.rates.push,
      output.1 < graph.bank.size := by
    intro output member
    have channelIn := (List.of_mem_zip member).1
    rw [Worker.outputChannels, List.mem_map] at channelIn
    rcases channelIn with ⟨port, portIn, same⟩
    rw [← same, ← graph.wiring_channels]
    exact sound.wiring.output_lt (by rw [wiring_outputs known]; exact portIn)
  have first := instrumented_auditInputs instrumented worker.label 0 _ inputsKnown
  have same := graph.auditInputs_sameButCounts worker.label 0
    (worker.inputChannels.zip (worker.rates.peek.zip worker.rates.pop))
  unfold audit
  rw [known]
  dsimp only
  split
  next error left audited =>
    rw [audited] at first
    exact first
  next left audited =>
    rw [audited] at first same
    apply instrumented_auditOutputs first.1
    intro output member
    rw [Bank.size_of_keys_eq same.bank.keys]
    exact outputsKnown output member

end Graph

@[simp]
theorem Delegate.afterFire_audits (number : Nat) (graph : Graph β α μ) (worker : WorkerId) :
    Delegate.afterFire { audits := true } number graph worker = graph.audit worker := by
  unfold afterFire
  dsimp only
  rcases graph.audit worker with ⟨answer, left⟩
  cases answer <;> rfl

end DemandFlow
