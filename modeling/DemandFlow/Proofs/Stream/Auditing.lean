import DemandFlow.Proofs.Stream.Tracking

/-!
Audits that pass. If what a firing has left in the counts lies inside the declared rates,
the audit succeeds and sets the counts on all ports of the worker back to zero, so the next
firing finds them as it must.
-/

set_option autoImplicit false

namespace DemandFlow

variable {β α μ : Type}

/-- The counts on the given channels are at zero, and all other channels are as before. -/
structure Bank.Cleared (channels : List ChannelId) (before after : Bank α) : Prop where
  reset : ∀ channel ∈ channels, (after.channel channel).stats = some {}
  others : ∀ channel, channel ∉ channels → after.channel channel = before.channel channel

namespace Bank

private theorem stats_resetStats {bank : Bank α} {channel : ChannelId} {stats : ChannelStats}
    (known : channel < bank.size) (counted : (bank.channel channel).stats = some stats) :
    ((bank.resetStats channel).channel channel).stats = some {} := by
  unfold resetStats
  rw [channel_set_self bank _ known]
  unfold Channel.resetStats
  rw [counted]
  rfl

theorem Cleared.cons {bank after : Bank α} {channel : ChannelId} {rest : List ChannelId}
    {stats : ChannelStats} (unshared : bank.Unshared) (known : channel < bank.size)
    (counted : (bank.channel channel).stats = some stats) (fresh : channel ∉ rest)
    (cleared : Cleared rest (bank.resetStats channel) after) :
    Cleared (channel :: rest) bank after where
  reset := by
    intro other member
    rcases List.mem_cons.mp member with rfl | deeper
    · rw [cleared.others other fresh]
      exact stats_resetStats known counted
    · exact cleared.reset other deeper
  others := by
    intro other absent
    rw [List.mem_cons, not_or] at absent
    rw [cleared.others other absent.2]
    exact channel_set_of_ne unshared _ absent.1

private theorem Cleared.append {before between after : Bank α} {left right : List ChannelId}
    (first : Cleared left before between) (second : Cleared right between after)
    (apart : ∀ channel ∈ left, channel ∉ right) : Cleared (left ++ right) before after where
  reset := by
    intro channel member
    rcases List.mem_append.mp member with leftIn | rightIn
    · rw [second.others channel (apart channel leftIn)]
      exact first.reset channel leftIn
    · exact second.reset channel rightIn
  others := by
    intro channel absent
    rw [List.mem_append, not_or] at absent
    rw [second.others channel absent.2, first.others channel absent.1]

end Bank

private theorem Admitted.input_channel {graph : Graph β α μ} {worker : Worker β μ}
    (admitted : Admitted worker.rates (graph.portView worker) graph.bank) {channel : ChannelId}
    {peek pop : Rate}
    (member : (channel, peek, pop) ∈
      worker.inputChannels.zip (worker.rates.peek.zip worker.rates.pop)) :
    ∃ stats, (graph.bank.channel channel).stats = some stats ∧
      peek.admits stats.peekExtent = true ∧ pop.admits stats.popCount = true := by
  obtain ⟨index, place⟩ := List.mem_iff_getElem?.mp member
  rw [List.getElem?_zip_eq_some, List.getElem?_zip_eq_some] at place
  obtain ⟨portAt, peekAt, popAt⟩ := place
  unfold Worker.inputChannels at portAt
  rw [List.getElem?_map] at portAt
  obtain ⟨port, found, rfl⟩ := Option.map_eq_some_iff.mp portAt
  obtain ⟨stats, counted, inside⟩ := admitted.inputs index peek pop peekAt popAt
  unfold Graph.portView at counted
  rw [graph.bank.onPort_of_some found] at counted
  exact ⟨stats, counted, inside⟩

private theorem Admitted.output_channel {graph : Graph β α μ} {worker : Worker β μ}
    (admitted : Admitted worker.rates (graph.portView worker) graph.bank) {channel : ChannelId}
    {push : Rate} (member : (channel, push) ∈ worker.outputChannels.zip worker.rates.push) :
    ∃ stats, (graph.bank.channel channel).stats = some stats ∧
      push.admits stats.pushCount = true := by
  obtain ⟨index, place⟩ := List.mem_iff_getElem?.mp member
  rw [List.getElem?_zip_eq_some] at place
  obtain ⟨portAt, pushAt⟩ := place
  unfold Worker.outputChannels at portAt
  rw [List.getElem?_map] at portAt
  obtain ⟨port, found, rfl⟩ := Option.map_eq_some_iff.mp portAt
  obtain ⟨stats, counted, inside⟩ := admitted.outputs index push pushAt
  unfold Graph.portView at counted
  rw [graph.bank.onPort_of_some found] at counted
  exact ⟨stats, counted, inside⟩

namespace Graph

theorem channel_resetStats_of_fresh {graph : Graph β α μ} (unshared : graph.bank.Unshared)
    {channel other : ChannelId} {rest : List ChannelId} (fresh : channel ∉ rest)
    (member : other ∈ rest) :
    (graph.resetStats channel).bank.channel other = graph.bank.channel other := by
  apply Bank.channel_set_of_ne unshared
  rintro rfl
  exact fresh member

theorem checkRate_ok {worker : Label} {port : Nat} {kind : RateKind} {declared : Rate}
    {observed : Nat} (admitted : declared.admits observed = true) :
    checkRate worker port kind declared observed = .ok () := by
  unfold checkRate
  rw [if_pos admitted]

private theorem auditInputs_ok {graph : Graph β α μ} (worker : Label) (port : Nat)
    {inputs : List (ChannelId × Rate × Rate)} (unshared : graph.bank.Unshared)
    (distinct : (inputs.map Prod.fst).Nodup)
    (known : ∀ channel ∈ inputs.map Prod.fst, channel < graph.bank.size)
    (admitted : ∀ channel peek pop, (channel, peek, pop) ∈ inputs → ∃ stats,
      (graph.bank.channel channel).stats = some stats ∧
        peek.admits stats.peekExtent = true ∧ pop.admits stats.popCount = true) :
    ∃ left, graph.auditInputs worker port inputs = (.ok (), left) ∧
      Bank.Cleared (inputs.map Prod.fst) graph.bank left.bank := by
  induction inputs generalizing graph port with
  | nil => exact ⟨graph, rfl, ⟨by simp, fun _ _ => rfl⟩⟩
  | cons entry rest inductionHypothesis =>
      obtain ⟨channel, peek, pop⟩ := entry
      rw [List.map_cons, List.nodup_cons] at distinct
      rw [List.map_cons, List.forall_mem_cons] at known
      obtain ⟨stats, counted, peeked, popped⟩ :=
        admitted channel peek pop (List.mem_cons_self ..)
      have passes : graph.checkInput worker port channel peek pop = .ok () := by
        unfold checkInput auditStats
        rw [counted]
        dsimp only
        rw [checkRate_ok peeked]
        exact checkRate_ok popped
      have restUnshared : (graph.resetStats channel).bank.Unshared := unshared.set _ _
      have restKnown : ∀ other ∈ rest.map Prod.fst,
          other < (graph.resetStats channel).bank.size := by
        unfold resetStats Bank.resetStats
        rw [Bank.size_set]
        exact known.2
      obtain ⟨left, audited, cleared⟩ := inductionHypothesis (port + 1) restUnshared distinct.2
        restKnown (fun other otherPeek otherPop member => by
          rw [channel_resetStats_of_fresh unshared distinct.1 (List.mem_map_of_mem member)]
          exact admitted other otherPeek otherPop (List.mem_cons_of_mem _ member))
      refine ⟨left, ?_, cleared.cons unshared known.1 counted distinct.1⟩
      unfold auditInputs
      rw [passes]
      exact audited

private theorem auditOutputs_ok {graph : Graph β α μ} (worker : Label) (port : Nat)
    {outputs : List (ChannelId × Rate)} (unshared : graph.bank.Unshared)
    (distinct : (outputs.map Prod.fst).Nodup)
    (known : ∀ channel ∈ outputs.map Prod.fst, channel < graph.bank.size)
    (admitted : ∀ channel push, (channel, push) ∈ outputs → ∃ stats,
      (graph.bank.channel channel).stats = some stats ∧ push.admits stats.pushCount = true) :
    ∃ left, graph.auditOutputs worker port outputs = (.ok (), left) ∧
      Bank.Cleared (outputs.map Prod.fst) graph.bank left.bank := by
  induction outputs generalizing graph port with
  | nil => exact ⟨graph, rfl, ⟨by simp, fun _ _ => rfl⟩⟩
  | cons entry rest inductionHypothesis =>
      obtain ⟨channel, push⟩ := entry
      rw [List.map_cons, List.nodup_cons] at distinct
      rw [List.map_cons, List.forall_mem_cons] at known
      obtain ⟨stats, counted, pushed⟩ := admitted channel push (List.mem_cons_self ..)
      have passes : graph.checkOutput worker port channel push = .ok () := by
        unfold checkOutput auditStats
        rw [counted]
        exact checkRate_ok pushed
      have restUnshared : (graph.resetStats channel).bank.Unshared := unshared.set _ _
      have restKnown : ∀ other ∈ rest.map Prod.fst,
          other < (graph.resetStats channel).bank.size := by
        unfold resetStats Bank.resetStats
        rw [Bank.size_set]
        exact known.2
      obtain ⟨left, audited, cleared⟩ := inductionHypothesis (port + 1) restUnshared distinct.2
        restKnown (fun other otherPush member => by
          rw [channel_resetStats_of_fresh unshared distinct.1 (List.mem_map_of_mem member)]
          exact admitted other otherPush (List.mem_cons_of_mem _ member))
      refine ⟨left, ?_, cleared.cons unshared known.1 counted distinct.1⟩
      unfold auditOutputs
      rw [passes]
      exact audited

/-- An audit passes if what is counted lies inside the declared rates. -/
theorem audit_ok {graph : Graph β α μ} {id : WorkerId} {worker : Worker β μ}
    (known : graph.worker? id = some worker) (fits : worker.rates.fits worker.shape = true)
    (sound : (graph.portView worker).Sound worker.shape)
    (admitted : Admitted worker.rates (graph.portView worker) graph.bank) :
    ∃ left, graph.audit id = (.ok (), left) ∧
      Bank.Cleared (worker.inputs.map Port.channel ++ worker.outputs.map Port.channel)
        graph.bank left.bank := by
  obtain ⟨peeks, pops, pushes⟩ : _ = worker.inputs.length ∧ _ = worker.inputs.length ∧
      _ = worker.outputs.length := WorkerRates.fits_iff.mp fits
  have distinct := sound.distinct
  rw [List.map_append, List.nodup_append] at distinct
  have inputsEq : (worker.inputChannels.zip (worker.rates.peek.zip worker.rates.pop)).map
      Prod.fst = worker.inputs.map Port.channel := by
    apply List.map_fst_zip
    simp only [Worker.inputChannels, List.length_map, List.length_zip]
    omega
  have outputsEq : (worker.outputChannels.zip worker.rates.push).map Prod.fst =
      worker.outputs.map Port.channel := by
    apply List.map_fst_zip
    simp only [Worker.outputChannels, List.length_map]
    omega
  have inputsKnown : ∀ channel ∈ worker.inputs.map Port.channel,
      channel < graph.bank.size := by
    intro channel member
    obtain ⟨port, portIn, rfl⟩ := List.mem_map.mp member
    exact sound.known port (List.mem_append_left _ portIn)
  have outputsKnown : ∀ channel ∈ worker.outputs.map Port.channel,
      channel < graph.bank.size := by
    intro channel member
    obtain ⟨port, portIn, rfl⟩ := List.mem_map.mp member
    exact sound.known port (List.mem_append_right _ portIn)
  obtain ⟨between, inputsPass, inputsCleared⟩ := graph.auditInputs_ok worker.label 0
    sound.unshared (by rw [inputsEq]; exact distinct.1) (by rw [inputsEq]; exact inputsKnown)
    (fun _ _ _ member => admitted.input_channel member)
  have same := graph.auditInputs_sameButCounts worker.label 0
    (worker.inputChannels.zip (worker.rates.peek.zip worker.rates.pop))
  rw [inputsPass] at same
  have keys : graph.bank.keys = between.bank.keys := (congrArg GraphFrame.keys same.2.1).symm
  obtain ⟨left, outputsPass, outputsCleared⟩ := between.auditOutputs_ok worker.label 0
    (sound.unshared.of_keys_eq keys) (by rw [outputsEq]; exact distinct.2.1)
    (by rw [outputsEq, ← Bank.size_of_keys_eq keys]; exact outputsKnown)
    (fun channel push member => by
      have output : channel ∈ worker.outputs.map Port.channel := by
        rw [← outputsEq]
        exact List.mem_map_of_mem member
      rw [inputsCleared.others channel (by
        rw [inputsEq]
        exact fun input => distinct.2.2 channel input channel output rfl)]
      exact admitted.output_channel member)
  refine ⟨left, ?_, ?_⟩
  · unfold audit
    rw [known]
    dsimp only
    rw [inputsPass]
    exact outputsPass
  · rw [inputsEq] at inputsCleared
    rw [outputsEq] at outputsCleared
    exact inputsCleared.append outputsCleared
      (fun channel input output => distinct.2.2 channel input channel output rfl)

def totalExecutions (graph : Graph β α μ) : Nat :=
  tally Worker.executions graph.workers

private theorem totalExecutions_of_set {graph left : Graph β α μ} {id : WorkerId}
    {worker new : Worker β μ} (known : graph.worker? id = some worker)
    (workers : left.workers = graph.workers.set id new)
    (counted : new.executions = worker.executions + 1) :
    left.totalExecutions = graph.totalExecutions + 1 := by
  unfold totalExecutions
  rw [workers]
  exact tally_set known counted

end Graph

structure Layout.Uncounted (layout : Layout β) (bank : Bank α) : Prop where
  inputs : ∀ id, ∀ channel ∈ layout.inputs id, ∃ stats,
    (bank.channel channel).stats = some stats ∧
      stats.maxPeekIndex = none ∧ stats.popCount = 0
  outputs : ∀ id, ∀ channel ∈ layout.outputs id, ∃ stats,
    (bank.channel channel).stats = some stats ∧ stats.pushCount = 0

section

variable [Signature β] {layout : Layout β} {graph : Graph β α μ} {id : Nat}
  {worker : Worker β μ}

private theorem Layout.Uncounted.portView (uncounted : layout.Uncounted graph.bank)
    (describes : layout.Describes graph.frame) (known : graph.worker? id = some worker) :
    (graph.portView worker).Uncounted worker.shape where
  inputs := by
    intro index within
    rw [← describes.worker_shape known] at within
    obtain ⟨channel, place⟩ := Layout.input_of_lt within
    unfold Graph.portView
    dsimp only
    rw [describes.onPort_input known graph.bank place]
    exact uncounted.inputs id channel (List.mem_of_getElem? place)
  outputs := by
    intro index within
    rw [← describes.worker_shape known] at within
    have place := List.getElem?_eq_getElem (show index < (layout.outputs id).length from within)
    unfold Graph.portView
    dsimp only
    rw [describes.onPort_output known graph.bank place]
    exact uncounted.outputs id _ (List.mem_of_getElem? place)

omit [Signature β] in
/-- Clearing all ports of a worker makes up for whatever it has done there. -/
theorem Layout.Uncounted.cleared {before between after : Bank α}
    (uncounted : layout.Uncounted before)
    (others : ∀ channel, channel ∉ layout.inputs id → channel ∉ layout.outputs id →
      between.channel channel = before.channel channel)
    (cleared : Bank.Cleared (layout.inputs id ++ layout.outputs id) between after) :
    layout.Uncounted after := by
  have either (channel : ChannelId) : (after.channel channel).stats = some {} ∨
      after.channel channel = before.channel channel := by
    by_cases mine : channel ∈ layout.inputs id ++ layout.outputs id
    · exact .inl (cleared.reset channel mine)
    · have apart := mine
      rw [List.mem_append, not_or] at apart
      exact .inr ((cleared.others channel mine).trans (others channel apart.1 apart.2))
  constructor
  · intro other channel member
    rcases either channel with reset | same
    · exact ⟨{}, reset, rfl, rfl⟩
    · rw [same]
      exact uncounted.inputs other channel member
  · intro other channel member
    rcases either channel with reset | same
    · exact ⟨{}, reset, rfl⟩
    · rw [same]
      exact uncounted.outputs other channel member

end

section

variable [Signature β] [Work β α μ] {audited : Bool} {layout : Layout β} {drain : ChannelId}
  {carried : ChannelId → List α} {graph : Graph β α μ} {id : Nat} {worker : Worker β μ}

private theorem Simulates.of_sameButCounts {left : Graph β α μ}
    (simulates : Simulates layout drain carried graph) (same : left.SameButCounts graph) :
    Simulates layout drain carried left where
  workers := by
    intro other otherWorker found
    unfold Graph.worker? at found
    rw [same.1] at found
    obtain ⟨body, progress, tracks⟩ := simulates.workers other otherWorker found
    refine ⟨body, progress, ?_⟩
    exact
      { known := tracks.known
        reaches := tracks.reaches
        body_eq := tracks.body_eq
        executions := tracks.executions
        idle := tracks.idle
        inputs := fun index channel place =>
          (same.2.2 channel).trans (tracks.inputs index channel place)
        outputs := tracks.outputs }
  drained := (same.2.2 drain).trans simulates.drained

/-- The follow-up of a firing of an abiding body: the audit, if there is one, passes. -/
theorem Fires.afterFire {extra : ChannelId → List α} {left : Graph β α μ}
    (fires : Fires audited layout drain carried graph id worker extra left)
    (sound : graph.frame.Sound) (unshared : graph.bank.Unshared)
    (describes : layout.Describes graph.frame) (known : graph.worker? id = some worker)
    (framed : left.frame = graph.frame)
    (uncounted : audited = true → layout.Uncounted graph.bank) (number : Nat) :
    ∃ after, Delegate.afterFire { audits := audited } number left id = (.ok (), after) ∧
      Simulates layout drain (fun channel => carried channel ++ extra channel) after ∧
      after.totalExecutions = graph.totalExecutions + 1 ∧
      (audited = true → layout.Uncounted after.bank) := by
  obtain ⟨body, workers⟩ := fires.workers
  have counted := Graph.totalExecutions_of_set known workers rfl
  cases audited with
  | false => exact ⟨left, rfl, fires.simulates, counted, by simp⟩
  | true =>
      have within : id < graph.workers.length := (List.getElem?_eq_some_iff.mp known).1
      have found : left.worker? id =
          some { worker with body := body, executions := worker.executions + 1 } := by
        unfold Graph.worker?
        rw [workers]
        exact List.getElem?_set_self within
      have keys : graph.bank.keys = left.bank.keys := (congrArg GraphFrame.keys framed).symm
      have leftSound : left.frame.Sound := framed ▸ sound
      have leftDescribes : layout.Describes left.frame := framed ▸ describes
      have leftUnshared : left.bank.Unshared := unshared.of_keys_eq keys
      have fits := leftSound.rated id _ (by rw [Graph.frame_get, found]; rfl)
      have admitted := fires.rated rfl ((uncounted rfl).portView describes known)
      obtain ⟨after, passes, cleared⟩ := left.audit_ok found fits
        (Graph.portView_sound leftSound leftUnshared found) ⟨admitted.inputs, admitted.outputs⟩
      have same := left.audit_sameButCounts id
      rw [passes] at same
      refine ⟨after, ?_, fires.simulates.of_sameButCounts same, ?_, fun _ => ?_⟩
      · unfold Delegate.afterFire
        simp only [↓reduceIte, passes, Bool.false_eq_true]
      · unfold Graph.totalExecutions at counted ⊢
        rw [same.1]
        exact counted
      · rw [← leftDescribes.worker_inputs found, ← leftDescribes.worker_outputs found] at cleared
        exact (uncounted rfl).cleared fires.others cleared

end

end DemandFlow
