import DemandFlow.Proofs.Graph.Frame

/-!
Wirings: which ports every worker has. A sound wiring gives each channel at most one
producer and at most one consumer, and where it has both they name each other. Soundness
is kept by the three ways in which a wiring grows.
-/

set_option autoImplicit false

namespace DemandFlow

theorem nodup_channels {ports : List Port}
    (once : ∀ (left right : Nat) (leftPort rightPort : Port), ports[left]? = some leftPort →
      ports[right]? = some rightPort → leftPort.channel = rightPort.channel → left = right) :
    (ports.map Port.channel).Nodup := by
  unfold List.Nodup
  rw [List.pairwise_map, List.pairwise_iff_getElem]
  intro left right leftBound rightBound before same
  have equal := once left right _ _ (List.getElem?_eq_getElem leftBound)
    (List.getElem?_eq_getElem rightBound) same
  omega

/-- The ports of every worker; a worker that does not exist has none. -/
structure Wiring where
  inputs : WorkerId → List Port
  outputs : WorkerId → List Port
  channels : Nat

namespace Wiring

structure Sound (wiring : Wiring) : Prop where
  inputRange : ∀ (worker : WorkerId) (index : Nat) (port : Port),
    (wiring.inputs worker)[index]? = some port → port.channel < wiring.channels
  outputRange : ∀ (worker : WorkerId) (index : Nat) (port : Port),
    (wiring.outputs worker)[index]? = some port → port.channel < wiring.channels
  inputOnce : ∀ (left right : WorkerId) (leftIndex rightIndex : Nat) (leftPort rightPort : Port),
    (wiring.inputs left)[leftIndex]? = some leftPort →
    (wiring.inputs right)[rightIndex]? = some rightPort →
    leftPort.channel = rightPort.channel → left = right ∧ leftIndex = rightIndex
  outputOnce : ∀ (left right : WorkerId) (leftIndex rightIndex : Nat) (leftPort rightPort : Port),
    (wiring.outputs left)[leftIndex]? = some leftPort →
    (wiring.outputs right)[rightIndex]? = some rightPort →
    leftPort.channel = rightPort.channel → left = right ∧ leftIndex = rightIndex
  /-- The two ends of one channel belong to different workers that name each other. -/
  ends : ∀ (producer consumer : WorkerId) (output input : Nat) (outputPort inputPort : Port),
    (wiring.outputs producer)[output]? = some outputPort →
    (wiring.inputs consumer)[input]? = some inputPort →
    outputPort.channel = inputPort.channel →
      outputPort.peer = some consumer ∧ inputPort.peer = some producer ∧ producer ≠ consumer
  producer : ∀ (consumer : WorkerId) (input : Nat) (port : Port) (peer : WorkerId),
    (wiring.inputs consumer)[input]? = some port → port.peer = some peer →
    ∃ (output : Nat) (outputPort : Port),
      (wiring.outputs peer)[output]? = some outputPort ∧ outputPort.channel = port.channel
  consumer : ∀ (producer : WorkerId) (output : Nat) (port : Port) (peer : WorkerId),
    (wiring.outputs producer)[output]? = some port → port.peer = some peer →
    ∃ (input : Nat) (inputPort : Port),
      (wiring.inputs peer)[input]? = some inputPort ∧ inputPort.channel = port.channel

def extend (ports : WorkerId → List Port) (worker : WorkerId) (port : Port) :
    WorkerId → List Port :=
  fun other => if other = worker then ports worker ++ [port] else ports other

theorem extend_get {ports : WorkerId → List Port} {worker other : WorkerId}
    {added port : Port} {index : Nat}
    (found : (extend ports worker added other)[index]? = some port) :
    (ports other)[index]? = some port ∨
      other = worker ∧ index = (ports worker).length ∧ port = added := by
  unfold extend at found
  split at found
  next same =>
    subst same
    rw [List.getElem?_append] at found
    split at found
    next => exact .inl found
    next beyond =>
      have position : index - (ports other).length = 0 := by
        have bound := (List.getElem?_eq_some_iff.mp found).1
        simp only [List.length_cons, List.length_nil] at bound
        omega
      rw [position] at found
      cases found
      exact .inr ⟨rfl, by omega, rfl⟩
  next => exact .inl found

theorem extend_get_old {ports : WorkerId → List Port} {worker other : WorkerId} (added : Port)
    {port : Port} {index : Nat} (found : (ports other)[index]? = some port) :
    (extend ports worker added other)[index]? = some port := by
  unfold extend
  split
  next same =>
    subst same
    have bound := (List.getElem?_eq_some_iff.mp found).1
    rw [List.getElem?_append_left bound]
    exact found
  next => exact found

private theorem extend_get_new (ports : WorkerId → List Port) (worker : WorkerId) (added : Port) :
    (extend ports worker added worker)[(ports worker).length]? = some added := by
  simp [extend]

def join (wiring : Wiring) (producer consumer : WorkerId) : Wiring :=
  { inputs := extend wiring.inputs consumer { peer := some producer, channel := wiring.channels }
    outputs := extend wiring.outputs producer { peer := some consumer, channel := wiring.channels }
    channels := wiring.channels + 1 }

def openInput (wiring : Wiring) (worker : WorkerId) : Wiring :=
  { wiring with
    inputs := extend wiring.inputs worker { peer := none, channel := wiring.channels }
    channels := wiring.channels + 1 }

def openOutput (wiring : Wiring) (worker : WorkerId) : Wiring :=
  { wiring with
    outputs := extend wiring.outputs worker { peer := none, channel := wiring.channels }
    channels := wiring.channels + 1 }

/-- Extending one side by a port on a fresh channel keeps that side in range and free of
repetitions. -/
private theorem extend_range {ports : WorkerId → List Port} {channels : Nat}
    (range : ∀ (worker : WorkerId) (index : Nat) (port : Port),
      (ports worker)[index]? = some port → port.channel < channels)
    (added : WorkerId) (peer : Option WorkerId) (worker : WorkerId) (index : Nat) (port : Port)
    (found : (extend ports added { peer := peer, channel := channels } worker)[index]? =
      some port) : port.channel < channels + 1 := by
  rcases extend_get found with old | ⟨_, _, rfl⟩
  · exact Nat.lt_succ_of_lt (range worker index port old)
  · exact Nat.lt_succ_self channels

private theorem extend_once {ports : WorkerId → List Port} {channels : Nat}
    (range : ∀ (worker : WorkerId) (index : Nat) (port : Port),
      (ports worker)[index]? = some port → port.channel < channels)
    (once : ∀ (left right : WorkerId) (leftIndex rightIndex : Nat) (leftPort rightPort : Port),
      (ports left)[leftIndex]? = some leftPort → (ports right)[rightIndex]? = some rightPort →
      leftPort.channel = rightPort.channel → left = right ∧ leftIndex = rightIndex)
    (added : WorkerId) (peer : Option WorkerId)
    (left right : WorkerId) (leftIndex rightIndex : Nat) (leftPort rightPort : Port)
    (leftFound : (extend ports added { peer := peer, channel := channels } left)[leftIndex]? =
      some leftPort)
    (rightFound : (extend ports added { peer := peer, channel := channels } right)[rightIndex]? =
      some rightPort)
    (same : leftPort.channel = rightPort.channel) : left = right ∧ leftIndex = rightIndex := by
  rcases extend_get leftFound with leftOld | ⟨leftEq, leftAt, rfl⟩
  · rcases extend_get rightFound with rightOld | ⟨_, _, rfl⟩
    · exact once left right leftIndex rightIndex leftPort rightPort leftOld rightOld same
    · have bound := range left leftIndex leftPort leftOld
      rw [same] at bound
      exact absurd bound (Nat.lt_irrefl _)
  · rcases extend_get rightFound with rightOld | ⟨rightEq, rightAt, rfl⟩
    · have bound := range right rightIndex rightPort rightOld
      rw [← same] at bound
      exact absurd bound (Nat.lt_irrefl _)
    · exact ⟨leftEq.trans rightEq.symm, leftAt.trans rightAt.symm⟩

theorem Sound.join {wiring : Wiring} (sound : wiring.Sound) {producer consumer : WorkerId}
    (different : producer ≠ consumer) : (wiring.join producer consumer).Sound where
  inputRange := extend_range sound.inputRange consumer (some producer)
  outputRange := extend_range sound.outputRange producer (some consumer)
  inputOnce := extend_once sound.inputRange sound.inputOnce consumer (some producer)
  outputOnce := extend_once sound.outputRange sound.outputOnce producer (some consumer)
  ends := by
    intro left right output input outputPort inputPort outputFound inputFound same
    rcases extend_get outputFound with outputOld | ⟨outputEq, _, rfl⟩
    · have outputBound := sound.outputRange left output outputPort outputOld
      rcases extend_get inputFound with inputOld | ⟨_, _, rfl⟩
      · exact sound.ends left right output input outputPort inputPort outputOld inputOld same
      · rw [same] at outputBound
        exact absurd outputBound (Nat.lt_irrefl _)
    · rcases extend_get inputFound with inputOld | ⟨inputEq, _, rfl⟩
      · have inputBound := sound.inputRange right input inputPort inputOld
        rw [← same] at inputBound
        exact absurd inputBound (Nat.lt_irrefl _)
      · subst outputEq
        subst inputEq
        exact ⟨rfl, rfl, different⟩
  producer := by
    intro right input port peer found named
    rcases extend_get found with old | ⟨_, _, rfl⟩
    · obtain ⟨output, outputPort, outputFound, same⟩ :=
        sound.producer right input port peer old named
      exact ⟨output, outputPort, extend_get_old _ outputFound, same⟩
    · cases named
      exact ⟨_, _, extend_get_new wiring.outputs producer _, rfl⟩
  consumer := by
    intro left output port peer found named
    rcases extend_get found with old | ⟨_, _, rfl⟩
    · obtain ⟨input, inputPort, inputFound, same⟩ :=
        sound.consumer left output port peer old named
      exact ⟨input, inputPort, extend_get_old _ inputFound, same⟩
    · cases named
      exact ⟨_, _, extend_get_new wiring.inputs consumer _, rfl⟩

theorem Sound.openInput {wiring : Wiring} (sound : wiring.Sound) (worker : WorkerId) :
    (wiring.openInput worker).Sound where
  inputRange := extend_range sound.inputRange worker none
  outputRange := fun other index port found =>
    Nat.lt_succ_of_lt (sound.outputRange other index port found)
  inputOnce := extend_once sound.inputRange sound.inputOnce worker none
  outputOnce := sound.outputOnce
  ends := by
    intro left right output input outputPort inputPort outputFound inputFound same
    rcases extend_get inputFound with inputOld | ⟨_, _, rfl⟩
    · exact sound.ends left right output input outputPort inputPort outputFound inputOld same
    · have outputBound := sound.outputRange left output outputPort outputFound
      rw [same] at outputBound
      exact absurd outputBound (Nat.lt_irrefl _)
  producer := by
    intro right input port peer found named
    rcases extend_get found with old | ⟨_, _, rfl⟩
    · exact sound.producer right input port peer old named
    · cases named
  consumer := by
    intro left output port peer found named
    obtain ⟨input, inputPort, inputFound, same⟩ :=
      sound.consumer left output port peer found named
    exact ⟨input, inputPort, extend_get_old _ inputFound, same⟩

theorem Sound.openOutput {wiring : Wiring} (sound : wiring.Sound) (worker : WorkerId) :
    (wiring.openOutput worker).Sound where
  inputRange := fun other index port found =>
    Nat.lt_succ_of_lt (sound.inputRange other index port found)
  outputRange := extend_range sound.outputRange worker none
  inputOnce := sound.inputOnce
  outputOnce := extend_once sound.outputRange sound.outputOnce worker none
  ends := by
    intro left right output input outputPort inputPort outputFound inputFound same
    rcases extend_get outputFound with outputOld | ⟨_, _, rfl⟩
    · exact sound.ends left right output input outputPort inputPort outputOld inputFound same
    · have inputBound := sound.inputRange right input inputPort inputFound
      rw [← same] at inputBound
      exact absurd inputBound (Nat.lt_irrefl _)
  producer := by
    intro right input port peer found named
    obtain ⟨output, outputPort, outputFound, same⟩ :=
      sound.producer right input port peer found named
    exact ⟨output, outputPort, extend_get_old _ outputFound, same⟩
  consumer := by
    intro left output port peer found named
    rcases extend_get found with old | ⟨_, _, rfl⟩
    · exact sound.consumer left output port peer old named
    · cases named

theorem Sound.input_owner {wiring : Wiring} (sound : wiring.Sound) {left right : WorkerId}
    {leftPort rightPort : Port} (leftIn : leftPort ∈ wiring.inputs left)
    (rightIn : rightPort ∈ wiring.inputs right) (same : leftPort.channel = rightPort.channel) :
    left = right := by
  obtain ⟨leftIndex, leftPlace⟩ := List.mem_iff_getElem?.mp leftIn
  obtain ⟨rightIndex, rightPlace⟩ := List.mem_iff_getElem?.mp rightIn
  exact (sound.inputOnce _ _ _ _ _ _ leftPlace rightPlace same).1

theorem Sound.output_owner {wiring : Wiring} (sound : wiring.Sound) {left right : WorkerId}
    {leftPort rightPort : Port} (leftIn : leftPort ∈ wiring.outputs left)
    (rightIn : rightPort ∈ wiring.outputs right) (same : leftPort.channel = rightPort.channel) :
    left = right := by
  obtain ⟨leftIndex, leftPlace⟩ := List.mem_iff_getElem?.mp leftIn
  obtain ⟨rightIndex, rightPlace⟩ := List.mem_iff_getElem?.mp rightIn
  exact (sound.outputOnce _ _ _ _ _ _ leftPlace rightPlace same).1

theorem Sound.peers {wiring : Wiring} (sound : wiring.Sound) {producer consumer : WorkerId}
    {output input : Port} (outputIn : output ∈ wiring.outputs producer)
    (inputIn : input ∈ wiring.inputs consumer) (same : output.channel = input.channel) :
    output.peer = some consumer ∧ input.peer = some producer := by
  obtain ⟨outputIndex, outputPlace⟩ := List.mem_iff_getElem?.mp outputIn
  obtain ⟨inputIndex, inputPlace⟩ := List.mem_iff_getElem?.mp inputIn
  have ends := sound.ends _ _ _ _ _ _ outputPlace inputPlace same
  exact ⟨ends.1, ends.2.1⟩

theorem Sound.nodup_ports {wiring : Wiring} (sound : wiring.Sound) (id : WorkerId) :
    ((wiring.inputs id ++ wiring.outputs id).map Port.channel).Nodup := by
  rw [List.map_append, List.nodup_append]
  refine ⟨?_, ?_, ?_⟩
  · apply nodup_channels
    intro left right leftPort rightPort leftPlace rightPlace same
    exact (sound.inputOnce id id left right leftPort rightPort leftPlace rightPlace same).2
  · apply nodup_channels
    intro left right leftPort rightPort leftPlace rightPlace same
    exact (sound.outputOnce id id left right leftPort rightPort leftPlace rightPlace same).2
  · intro left leftIn right rightIn same
    obtain ⟨inputPort, inputIn, rfl⟩ := List.mem_map.mp leftIn
    obtain ⟨outputPort, outputIn, rfl⟩ := List.mem_map.mp rightIn
    obtain ⟨input, inputPlace⟩ := List.mem_iff_getElem?.mp inputIn
    obtain ⟨output, outputPlace⟩ := List.mem_iff_getElem?.mp outputIn
    exact (sound.ends id id output input outputPort inputPort outputPlace inputPlace
      same.symm).2.2 rfl

theorem Sound.empty (channels : Nat) :
    Sound { inputs := fun _ => [], outputs := fun _ => [], channels := channels } where
  inputRange := by intro worker index port found; cases found
  outputRange := by intro worker index port found; cases found
  inputOnce := by intro left right leftIndex rightIndex leftPort rightPort found; cases found
  outputOnce := by intro left right leftIndex rightIndex leftPort rightPort found; cases found
  ends := by intro producer consumer output input outputPort inputPort found; cases found
  producer := by intro consumer input port peer found; cases found
  consumer := by intro producer output port peer found; cases found

end Wiring

end DemandFlow
