import DemandFlow.Work.Standard
import DemandFlow.Proofs.Stream.Tracking

/-!
Firings step by step. What a routine has done at its ports so far is how much it has taken
from each input and what it has put on each output. Each request adds a little to that, and
a body for which the sum is known keeps to its rates. The standard bodies are such bodies.
-/

set_option autoImplicit false

namespace DemandFlow

variable {β α μ ρ : Type}

namespace Channel

def taken (channel : Channel α) (count : Nat) : Channel α :=
  { items := channel.items.drop count
    stats := channel.stats.map (fun stats => { stats with popCount := stats.popCount + count }) }

private theorem taken_zero (channel : Channel α) : channel.taken 0 = channel := by
  cases channel with
  | mk items stats => cases stats <;> rfl

private theorem pop_taken {channel : Channel α} {count : Nat} {element : α}
    (front : channel.items[count]? = some element) :
    (channel.taken count).pop = (.ok element, channel.taken (count + 1)) := by
  obtain ⟨within, here⟩ := List.getElem?_eq_some_iff.mp front
  have next : channel.items.drop count = element :: channel.items.drop (count + 1) := by
    rw [List.drop_eq_getElem_cons within, here]
  unfold pop pop? taken
  rw [next]
  cases channel.stats <;> rfl

private theorem pushAll_append (channel : Channel α) (elements : List α) (element : α) :
    channel.pushAll (elements ++ [element]) = (channel.pushAll elements).push element := by
  unfold pushAll
  rw [List.foldl_append]
  rfl

theorem stats_pushAll (channel : Channel α) (elements : List α) :
    (channel.pushAll elements).stats = channel.stats.map (fun stats =>
      { stats with pushCount := stats.pushCount + elements.length }) := by
  unfold pushAll
  induction elements generalizing channel with
  | nil => cases h : channel.stats <;> simp [h]
  | cons element rest inductionHypothesis =>
      rw [List.foldl_cons, inductionHypothesis]
      cases h : channel.stats with
      | none => simp only [push, h, Option.map_none, List.length_cons]
      | some stats =>
          simp only [push, h, ChannelStats.countPush, Option.map_some, List.length_cons]
          congr 2
          omega

end Channel

theorem channel_ne_of_nodup {ports : List Port} (once : (ports.map Port.channel).Nodup)
    {left right : Nat} {leftPort rightPort : Port} (leftAt : ports[left]? = some leftPort)
    (rightAt : ports[right]? = some rightPort) (different : left ≠ right) :
    leftPort.channel ≠ rightPort.channel := by
  intro same
  have within : left < (ports.map Port.channel).length := by
    rw [List.length_map]
    exact (List.getElem?_eq_some_iff.mp leftAt).1
  apply different
  apply (List.getElem?_inj within once).mp
  rw [List.getElem?_map, List.getElem?_map, leftAt, rightAt]
  exact congrArg some same

namespace PortView

variable {portView : PortView α} {shape : PortShape}

section

variable (sound : portView.Sound shape)
include sound

theorem Sound.input_port {index : Nat} (within : index < shape.inputs) :
    ∃ port, portView.inputs[index]? = some port ∧ port.channel < portView.bank.size := by
  rw [← sound.inputCount] at within
  refine ⟨_, List.getElem?_eq_getElem within, sound.known _ ?_⟩
  exact List.mem_append_left _ (List.getElem_mem within)

theorem Sound.output_port {index : Nat} (within : index < shape.outputs) :
    ∃ port, portView.outputs[index]? = some port ∧ port.channel < portView.bank.size := by
  rw [← sound.outputCount] at within
  refine ⟨_, List.getElem?_eq_getElem within, sound.known _ ?_⟩
  exact List.mem_append_right _ (List.getElem_mem within)

theorem Sound.input_ne {left right : Nat} {leftPort rightPort : Port}
    (leftAt : portView.inputs[left]? = some leftPort)
    (rightAt : portView.inputs[right]? = some rightPort) (different : left ≠ right) :
    leftPort.channel ≠ rightPort.channel := by
  have once := sound.distinct
  rw [List.map_append] at once
  exact channel_ne_of_nodup (List.nodup_append.mp once).1 leftAt rightAt different

theorem Sound.output_ne {left right : Nat} {leftPort rightPort : Port}
    (leftAt : portView.outputs[left]? = some leftPort)
    (rightAt : portView.outputs[right]? = some rightPort) (different : left ≠ right) :
    leftPort.channel ≠ rightPort.channel := by
  have once := sound.distinct
  rw [List.map_append] at once
  exact channel_ne_of_nodup (List.nodup_append.mp once).2.1 leftAt rightAt different

theorem Sound.apart {input output : Nat} {inputPort outputPort : Port}
    (inputAt : portView.inputs[input]? = some inputPort)
    (outputAt : portView.outputs[output]? = some outputPort) :
    inputPort.channel ≠ outputPort.channel := by
  have once := sound.distinct
  rw [List.map_append] at once
  exact (List.nodup_append.mp once).2.2 _ (List.mem_map_of_mem (List.mem_of_getElem? inputAt)) _
    (List.mem_map_of_mem (List.mem_of_getElem? outputAt))

end

private theorem output_alone (shape : PortShape) (inputs : Nat → List α) {index : Nat}
    (within : index < shape.outputs) :
    (alone shape inputs).bank.onPort (alone shape inputs).outputs index = {} := by
  have place : ((List.range shape.inputs).map (fun index => Slot.own { items := inputs index }) ++
      List.replicate shape.outputs (Slot.own {}))[shape.inputs + index]? =
        some (Slot.own {}) := by
    rw [List.getElem?_append_right (by simp)]
    simp [within]
  simp [Bank.onPort, alone, List.getElem?_range within, Bank.channel, Bank.channel?, place]

structure Handled (portView : PortView α) (pops : Nat → Nat) (pushes : Nat → List α)
    (scene : Routine.Scene α μ) : Prop where
  keys : scene.bank.keys = portView.bank.keys
  silent : scene.outbox = []
  inputs : ∀ (index : Nat) (port : Port), portView.inputs[index]? = some port →
    scene.bank.channel port.channel = (portView.bank.channel port.channel).taken (pops index)
  outputs : ∀ (index : Nat) (port : Port), portView.outputs[index]? = some port →
    scene.bank.channel port.channel = (portView.bank.channel port.channel).pushAll (pushes index)

theorem handled_start (portView : PortView α) :
    portView.Handled (fun _ => 0) (fun _ => []) ({ bank := portView.bank } : Routine.Scene α μ) :=
  ⟨rfl, rfl, fun _ _ _ => (Channel.taken_zero _).symm, fun _ _ _ => rfl⟩

namespace Handled

variable {pops : Nat → Nat} {pushes : Nat → List α} {scene : Routine.Scene α μ}

theorem congr (handled : portView.Handled pops pushes scene) {otherPops : Nat → Nat}
    {otherPushes : Nat → List α} (samePops : ∀ index, otherPops index = pops index)
    (samePushes : ∀ index, otherPushes index = pushes index) :
    portView.Handled otherPops otherPushes scene := by
  rw [show otherPops = pops from funext samePops,
    show otherPushes = pushes from funext samePushes]
  exact handled

/-- A pop takes the next element, and the routine goes on from there. -/
theorem pop (handled : portView.Handled pops pushes scene) (sound : portView.Sound shape)
    {input : Nat} (within : input < shape.inputs) {element : α}
    (front : (portView.holds input)[pops input]? = some element) {id : WorkerId}
    {next : Except Error α → Routine α μ ρ} {result : ρ} {ends : Routine.Scene α μ → Prop}
    (further : ∀ between,
      portView.Handled (fun index => pops index + if index = input then 1 else 0) pushes between →
      ∃ left, (next (.ok element)).run id portView.inputs portView.outputs between =
        (result, left) ∧ ends left) :
    ∃ left, (Routine.pop input next).run id portView.inputs portView.outputs scene =
      (result, left) ∧ ends left := by
  obtain ⟨port, place, known⟩ := sound.input_port within
  have unshared := sound.unshared.of_keys_eq handled.keys.symm
  rw [← Bank.size_of_keys_eq handled.keys] at known
  unfold holds at front
  rw [portView.bank.onPort_of_some place] at front
  have popped : scene.bank.pop port.channel = (.ok element, scene.bank.set port.channel
      ((portView.bank.channel port.channel).taken (pops input + 1))) := by
    unfold Bank.pop
    rw [handled.inputs input port place, Channel.pop_taken front]
  have answered : (Routine.pop input next).run id portView.inputs portView.outputs scene =
      (next (.ok element)).run id portView.inputs portView.outputs
        { scene with
          bank := scene.bank.set port.channel
            ((portView.bank.channel port.channel).taken (pops input + 1)) } := by
    simp only [Routine.run, place, popped]
  rw [answered]
  refine further _ ⟨?_, handled.silent, ?_, ?_⟩
  · exact (Bank.keys_set _ _ _).trans handled.keys
  · intro index other otherAt
    dsimp only
    by_cases same : index = input
    · subst same
      rw [place] at otherAt
      cases otherAt
      rw [Bank.channel_set_self _ _ known, if_pos rfl]
    · rw [Bank.channel_set_of_ne unshared _ (sound.input_ne otherAt place same), if_neg same]
      exact handled.inputs index other otherAt
  · intro index other otherAt
    dsimp only
    rw [Bank.channel_set_of_ne unshared _ (sound.apart place otherAt).symm]
    exact handled.outputs index other otherAt

/-- A push adds one element, and the routine goes on from there. -/
theorem push (handled : portView.Handled pops pushes scene) (sound : portView.Sound shape)
    {output : Nat} (within : output < shape.outputs) {element : α} {id : WorkerId}
    {next : Except Error Unit → Routine α μ ρ} {result : ρ} {ends : Routine.Scene α μ → Prop}
    (further : ∀ between,
      portView.Handled pops (fun index => pushes index ++ if index = output then [element] else [])
        between →
      ∃ left, (next (.ok ())).run id portView.inputs portView.outputs between = (result, left) ∧
        ends left) :
    ∃ left, (Routine.push output element next).run id portView.inputs portView.outputs scene =
      (result, left) ∧ ends left := by
  obtain ⟨port, place, known⟩ := sound.output_port within
  have unshared := sound.unshared.of_keys_eq handled.keys.symm
  rw [← Bank.size_of_keys_eq handled.keys] at known
  have answered : (Routine.push output element next).run id portView.inputs portView.outputs scene =
      (next (.ok ())).run id portView.inputs portView.outputs
        { scene with bank := scene.bank.push port.channel element } := by
    simp only [Routine.run, place]
  rw [answered]
  refine further _ ⟨?_, handled.silent, ?_, ?_⟩
  · exact (Bank.keys_set _ _ _).trans handled.keys
  · intro index other otherAt
    unfold Bank.push
    dsimp only
    rw [Bank.channel_set_of_ne unshared _ (sound.apart otherAt place)]
    exact handled.inputs index other otherAt
  · intro index other otherAt
    unfold Bank.push
    dsimp only
    by_cases same : index = output
    · subst same
      rw [place] at otherAt
      cases otherAt
      rw [Bank.channel_set_self _ _ known, if_pos rfl, Channel.pushAll_append,
        handled.outputs index port place]
    · rw [Bank.channel_set_of_ne unshared _ (sound.output_ne otherAt place same), if_neg same,
        List.append_nil]
      exact handled.outputs index other otherAt

end Handled

end PortView

private theorem InputNeeds.leading_leading (inputNeeds : InputNeeds) (inputs : Nat → List α) :
    inputNeeds.leading (inputNeeds.leading inputs) = inputNeeds.leading inputs := by
  funext index
  unfold leading
  split
  next => rw [List.take_take, Nat.min_self]
  next => rfl

private theorem InputNeeds.sated_leading {inputNeeds : InputNeeds} {inputs : Nat → List α}
    (sated : inputNeeds.sated inputs = true) :
    inputNeeds.sated (inputNeeds.leading inputs) = true := by
  rw [sated_iff] at sated ⊢
  intro index within
  have length : (inputNeeds.leading inputs index).length = inputNeeds.need index := by
    unfold leading
    rw [if_pos within, List.length_take, Nat.min_eq_left (sated index within)]
  exact Nat.le_of_eq length.symm

/-- A body that always takes so much and puts out what is made of the leading elements, and
that does not change. -/
structure Steady (μ : Type) [Work β α μ] (inputNeeds : InputNeeds) (body : β) (pops : Nat → Nat)
    (pushes : (Nat → List α) → Nat → List α) : Prop where
  works : ∀ (executions : Nat) (id : WorkerId) (portView : PortView α),
    portView.Sound inputNeeds.shape → inputNeeds.sated portView.holds = true →
    ∃ scene : Routine.Scene α μ,
      portView.work μ inputNeeds.shape id body executions = ((.ok (), body), scene) ∧
        portView.Handled pops (pushes portView.holds) scene
  leading : ∀ left right : Nat → List α, inputNeeds.leading left = inputNeeds.leading right →
    pushes left = pushes right
  few : ∀ index, index < inputNeeds.shape.inputs → pops index ≤ inputNeeds.need index
  something : ∃ index, index < inputNeeds.shape.inputs ∧ 0 < pops index

/-- Counts of a steady body lie inside the rates. -/
structure Counted (rates : WorkerRates) (inputNeeds : InputNeeds) (pops : Nat → Nat)
    (pushes : (Nat → List α) → Nat → List α) : Prop where
  fits : rates.fits inputNeeds.shape = true
  peeks : ∀ peek ∈ rates.peek, peek.admits 0 = true
  pops : ∀ (index : Nat) (pop : Rate), rates.pop[index]? = some pop →
    pop.admits (pops index) = true
  pushes : ∀ (inputs : Nat → List α), inputNeeds.sated inputs = true → ∀ (index : Nat)
    (push : Rate), rates.push[index]? = some push →
      push.admits (pushes inputs index).length = true

section

variable [Work β α μ] {inputNeeds : InputNeeds} {body : β} {pops : Nat → Nat}
  {pushes : (Nat → List α) → Nat → List α}

theorem Steady.responds (steady : Steady μ inputNeeds body pops pushes) (executions : Nat)
    {inputs : Nat → List α} (sated : inputNeeds.sated inputs = true) :
    (respond μ inputNeeds.shape body executions (inputNeeds.leading inputs)).next = body ∧
      (∀ index, index < inputNeeds.shape.inputs →
        (respond μ inputNeeds.shape body executions (inputNeeds.leading inputs)).pops index =
          pops index) ∧
      ∀ index, index < inputNeeds.shape.outputs →
        (respond μ inputNeeds.shape body executions (inputNeeds.leading inputs)).pushes index =
          pushes inputs index := by
  have sound := PortView.sound_alone inputNeeds.shape (inputNeeds.leading inputs)
  have same (index : Nat) (within : index < inputNeeds.shape.inputs) :
      (PortView.alone inputNeeds.shape (inputNeeds.leading inputs)).holds index =
        inputNeeds.leading inputs index :=
    PortView.onPort_alone inputNeeds.shape (inputNeeds.leading inputs) within
  have enough : inputNeeds.sated
      (PortView.alone inputNeeds.shape (inputNeeds.leading inputs)).holds = true := by
    rw [InputNeeds.sated_congr same]
    exact InputNeeds.sated_leading sated
  have alike : pushes (PortView.alone inputNeeds.shape (inputNeeds.leading inputs)).holds =
      pushes inputs := by
    apply steady.leading
    rw [InputNeeds.leading_congr same]
    exact inputNeeds.leading_leading inputs
  obtain ⟨scene, worked, handled⟩ := steady.works executions 0 _ sound enough
  rw [alike] at handled
  unfold respond
  dsimp only
  rw [worked]
  refine ⟨rfl, ?_, ?_⟩
  · intro index within
    obtain ⟨port, place, _⟩ := sound.input_port within
    have held := same index within
    unfold PortView.holds at held
    rw [Bank.onPort_of_some _ place] at held
    have few := steady.few index within
    have long := InputNeeds.sated_iff.mp (InputNeeds.sated_leading sated) index within
    dsimp only
    rw [Bank.onPort_of_some _ place, handled.inputs index port place]
    unfold Channel.size Channel.taken
    dsimp only
    rw [held, List.length_drop]
    omega
  · intro index within
    obtain ⟨port, place, _⟩ := sound.output_port within
    have empty := PortView.output_alone inputNeeds.shape (inputNeeds.leading inputs) within
    rw [Bank.onPort_of_some _ place] at empty
    dsimp only
    rw [Bank.onPort_of_some _ place, handled.outputs index port place, empty,
      Channel.items_pushAll]
    rfl

private theorem PortView.Handled.admitted {portView : PortView α} {rates : WorkerRates}
    {scene : Routine.Scene α μ} (handled : portView.Handled pops (pushes portView.holds) scene)
    (sound : portView.Sound inputNeeds.shape) (sated : inputNeeds.sated portView.holds = true)
    (uncounted : portView.Uncounted inputNeeds.shape)
    (counted : Counted rates inputNeeds pops pushes) : Admitted rates portView scene.bank := by
  obtain ⟨peeks, _, pushCount⟩ := WorkerRates.fits_iff.mp counted.fits
  constructor
  · intro index peek pop peekAt popAt
    have within : index < inputNeeds.shape.inputs := by
      rw [← peeks]
      exact (List.getElem?_eq_some_iff.mp peekAt).1
    obtain ⟨port, place, _⟩ := sound.input_port within
    obtain ⟨stats, known, unseen, untaken⟩ := uncounted.inputs index within
    rw [Bank.onPort_of_some _ place] at known
    refine ⟨{ stats with popCount := stats.popCount + pops index }, ?_, ?_, ?_⟩
    · rw [Bank.onPort_of_some _ place, handled.inputs index port place]
      unfold Channel.taken
      rw [known]
      rfl
    · unfold ChannelStats.peekExtent
      dsimp only
      rw [unseen]
      exact counted.peeks peek (List.mem_of_getElem? peekAt)
    · dsimp only
      rw [untaken, Nat.zero_add]
      exact counted.pops index pop popAt
  · intro index push pushAt
    have within : index < inputNeeds.shape.outputs := by
      rw [← pushCount]
      exact (List.getElem?_eq_some_iff.mp pushAt).1
    obtain ⟨port, place, _⟩ := sound.output_port within
    obtain ⟨stats, known, unpushed⟩ := uncounted.outputs index within
    rw [Bank.onPort_of_some _ place] at known
    refine ⟨{ stats with
      pushCount := stats.pushCount + (pushes portView.holds index).length }, ?_, ?_⟩
    · rw [Bank.onPort_of_some _ place, handled.outputs index port place, Channel.stats_pushAll,
        known]
      rfl
    · dsimp only
      rw [unpushed, Nat.zero_add]
      exact counted.pushes portView.holds sated index push pushAt

theorem Steady.rateAbiding (steady : Steady μ inputNeeds body pops pushes) {audited : Bool}
    {rates : WorkerRates} (counted : audited = true → Counted rates inputNeeds pops pushes) :
    RateAbiding (α := α) μ audited rates inputNeeds (· = body) := by
  constructor
  · rintro _ executions id portView rfl sound sated
    obtain ⟨scene, worked, handled⟩ := steady.works executions id portView sound sated
    obtain ⟨next, takes, gives⟩ := steady.responds executions sated
    rw [worked]
    constructor
    · rfl
    · exact handled.silent
    · exact next.symm
    · intro index within
      obtain ⟨port, place, _⟩ := sound.input_port within
      rw [takes index within, Bank.onPort_of_some _ place, handled.inputs index port place]
      unfold PortView.holds
      rw [Bank.onPort_of_some _ place]
      rfl
    · intro index within
      obtain ⟨port, place, _⟩ := sound.output_port within
      rw [gives index within, Bank.onPort_of_some _ place, Bank.onPort_of_some _ place,
        handled.outputs index port place, Channel.items_pushAll]
    · obtain ⟨index, within, positive⟩ := steady.something
      refine ⟨index, within, ?_⟩
      rw [takes index within]
      exact positive
    · intro audits uncounted
      exact handled.admitted sound sated uncounted (counted audits)
  · rintro _ executions portView rfl sound sated
    exact (steady.responds executions sated).1

end

end DemandFlow
