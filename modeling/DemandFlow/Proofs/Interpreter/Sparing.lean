import DemandFlow.Proofs.Graph.Passage
import DemandFlow.Proofs.Interpreter.Run

/-!
Shared buffers that a bank has no handle on. Whatever an interpreter does, it does through the
channels of its graph, so the buffers that none of them holds stay as they are.
-/

set_option autoImplicit false

namespace DemandFlow

variable {β α μ : Type}

namespace Bank

/-- The same handles, and what none of them holds is as it was. -/
structure Spares (before after : Bank α) : Prop where
  keys_eq : after.keys = before.keys
  buffers : ∀ key, some key ∉ before.keys → after.pool.buffer key = before.pool.buffer key

theorem Spares.refl (bank : Bank α) : bank.Spares bank :=
  ⟨rfl, fun _ _ => rfl⟩

theorem Spares.trans {first second third : Bank α} (left : first.Spares second)
    (right : second.Spares third) : first.Spares third where
  keys_eq := right.keys_eq.trans left.keys_eq
  buffers := by
    intro key foreign
    rw [right.buffers key (left.keys_eq ▸ foreign), left.buffers key foreign]

theorem spares_set (bank : Bank α) (id : ChannelId) (channel : Channel α) :
    bank.Spares (bank.set id channel) := by
  refine ⟨keys_set bank id channel, ?_⟩
  intro key foreign
  unfold set
  split
  next => rfl
  next => rfl
  next held place =>
    apply Pool.buffer_set_of_ne
    rintro rfl
    exact foreign (List.mem_of_getElem? (keys_get_shared.mpr place))

/-- It can be read off the keys that no two handles are on one buffer. -/
theorem unshared_of_keys {bank : Bank α} (once : ∀ left < bank.keys.length,
    ∀ right < bank.keys.length, bank.keys[left]? = bank.keys[right]? →
      left = right ∨ bank.keys[left]? = some none) : bank.Unshared := by
  intro left right key leftAt rightAt
  rw [← keys_get_shared] at leftAt rightAt
  rcases once left (List.getElem?_eq_some_iff.mp leftAt).1 right
    (List.getElem?_eq_some_iff.mp rightAt).1 (leftAt.trans rightAt.symm) with same | own
  · exact same
  · rw [leftAt] at own
    cases own

theorem channel_of_shared {bank : Bank α} {id : ChannelId} {key : Nat}
    (place : bank.keys[id]? = some (some key)) : bank.channel id = bank.pool.buffer key := by
  rw [keys_get_shared] at place
  unfold channel channel?
  rw [place]
  rfl

theorem channel_pooled {bank : Bank α} {pool : Pool α} {id : ChannelId}
    (same : ∀ key, bank.keys[id]? = some (some key) → pool.buffer key = bank.pool.buffer key) :
    { bank with pool := pool }.channel id = bank.channel id := by
  unfold channel channel?
  dsimp only
  cases place : bank.slots[id]? with
  | none => rfl
  | some slot =>
      cases slot with
      | own channel => rfl
      | shared key =>
          rw [Option.map_some, Option.map_some, Option.getD_some, Option.getD_some]
          exact same key (keys_get_shared.mpr place)

end Bank

namespace Graph

private theorem spares_fire [Recipient β μ] [Work β α μ] (graph : Graph β α μ) (id : WorkerId) :
    graph.bank.Spares (graph.fire id).2.bank := by
  rcases graph.bank_fire id with same | ⟨ready, _, _, same⟩
  · rw [same]
    exact .refl _
  · rw [same]
    exact Routine.run_induction (fun bank => graph.bank.Spares bank)
      (fun bank port _ spares => spares.trans (bank.spares_set _ _))
      (fun bank port _ index spares => spares.trans (bank.spares_set _ _))
      (fun bank port _ element spares => spares.trans (bank.spares_set _ _)) id _ _ (.refl _)

/-- What forgetting the counts of a channel keeps is kept by an audit. -/
theorem audit_induction (holds : Graph β α μ → Prop)
    (reset : ∀ graph channel, holds graph → holds (graph.resetStats channel))
    {graph : Graph β α μ} (start : holds graph) (id : WorkerId) : holds (graph.audit id).2 := by
  have inputs (worker : Label) (port : Nat) (entries : List (ChannelId × Rate × Rate))
      (graph : Graph β α μ) (start : holds graph) :
      holds (graph.auditInputs worker port entries).2 := by
    induction entries generalizing graph port with
    | nil => exact start
    | cons entry rest inductionHypothesis =>
        obtain ⟨channel, peek, pop⟩ := entry
        unfold auditInputs
        split
        next => exact start
        next => exact inductionHypothesis _ _ (reset graph channel start)
  have outputs (worker : Label) (port : Nat) (entries : List (ChannelId × Rate))
      (graph : Graph β α μ) (start : holds graph) :
      holds (graph.auditOutputs worker port entries).2 := by
    induction entries generalizing graph port with
    | nil => exact start
    | cons entry rest inductionHypothesis =>
        obtain ⟨channel, push⟩ := entry
        unfold auditOutputs
        split
        next => exact start
        next => exact inductionHypothesis _ _ (reset graph channel start)
  unfold audit
  split
  next => exact start
  next worker known =>
    dsimp only
    have first := inputs worker.label 0
      (worker.inputChannels.zip (worker.rates.peek.zip worker.rates.pop)) graph start
    split
    next error left audited =>
      rw [audited] at first
      exact first
    next left audited =>
      rw [audited] at first
      exact outputs _ _ _ left first

end Graph

private theorem Delegate.spares_afterFire (delegate : Delegate) (number : Nat) (graph : Graph β α μ)
    (id : WorkerId) : graph.bank.Spares (delegate.afterFire number graph id).2.bank := by
  have audited : graph.bank.Spares
      (if delegate.audits then graph.audit id else (.ok (), graph)).2.bank := by
    split
    · exact Graph.audit_induction (fun left => graph.bank.Spares left.bank)
        (fun left channel spares => spares.trans (left.bank.spares_set _ _)) (.refl _) id
    · exact .refl _
  unfold afterFire
  dsimp only
  split
  next => exact audited
  next => split <;> exact audited

namespace Interpreter

variable [Recipient β μ] [Work β α μ]

private theorem PullView.spares {interpreter : Interpreter β α μ} {current : WorkerId}
    {waiting : List WorkerId} {step : PullStep β α μ}
    (view : PullView interpreter current waiting step) :
    interpreter.graph.bank.Spares step.left.graph.bank := by
  have fires := interpreter.graph.spares_fire current
  cases view with
  | unknown absent => exact .refl _
  | circular known waits => exact .refl _
  | unsupported known free refused => exact .refl _
  | stalled known free starved outside => exact .refl _
  | feeder known free starved inside => exact .refl _
  | sender known free fed due => exact .refl _
  | failed ready free firing =>
      rw [firing] at fires
      exact fires
  | @refused worker error graph left ready free firing follow =>
      rw [firing] at fires
      have later := interpreter.delegate.spares_afterFire (interpreter.stats.firings + 1) graph
        current
      rw [follow] at later
      exact fires.trans later
  | @fired worker graph left ready free firing follow =>
      rw [firing] at fires
      have later := interpreter.delegate.spares_afterFire (interpreter.stats.firings + 1) graph
        current
      rw [follow] at later
      exact fires.trans later

/-- A call leaves alone the shared buffers that its graph has no handle on. -/
theorem interpret_spares {fuel : Nat} {interpreter left : Interpreter β α μ}
    {answer : Except Error Bool} (run : interpreter.interpret fuel = some (answer, left)) :
    interpreter.graph.bank.Spares left.graph.bank := by
  let holds : Interpreter β α μ → Prop := fun now =>
    now.sinks = interpreter.sinks ∧ interpreter.graph.bank.Spares now.graph.bank
  have pulled (fuel : Nat) (sink : WorkerId) (now left : Interpreter β α μ)
      (answer : Except Error Bool) (kept : holds now)
      (run : pullSteps fuel [sink] now = some (answer, left)) : holds left := by
    have looked {now left : Interpreter β α μ} {current : WorkerId} {waiting : List WorkerId}
        {step : PullStep β α μ} (kept : holds now) (view : PullView now current waiting step)
        (same : step.left = left) : holds left := by
      subst same
      have sinks : step.left.sinks = now.sinks := congrArg InterpreterFrame.sinks view.frame_left
      exact ⟨sinks.trans kept.1, kept.2.trans view.spares⟩
    exact pullSteps_induction (fun _ now => holds now) (fun _ now => holds now)
      (fun _ kept => kept) (fun _ _ _ _ _ kept view => looked kept view rfl)
      (fun _ _ _ _ _ kept view => looked kept view rfl) run kept
  have kept : KeptByPulls interpreter.sinks holds (fun _ left => holds left) :=
    { counted := fun now stats kept => kept
      sinks_eq := fun now kept => kept.1
      pulled := fun fuel sink now progress left _ kept run =>
        pulled fuel sink now left _ kept run
      failed := fun fuel sink now error left _ kept run =>
        pulled fuel sink now left _ kept run }
  have answered := kept.interpret ⟨rfl, .refl _⟩ run
  cases answer with
  | ok progress => exact answered.2
  | error error => exact answered.2

end Interpreter

end DemandFlow
