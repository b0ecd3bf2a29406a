import DemandFlow.Proofs.Stream.Meaning

/-!
How far workers come. More input never changes what a worker has done so far, so what it
has put out at any time is the beginning of what it makes of its whole input; when it has
too little to go on, it is all of it.
-/

set_option autoImplicit false

namespace DemandFlow

variable {β α : Type}

namespace InputNeeds

theorem sated_iff {inputNeeds : InputNeeds} {inputs : Nat → List α} :
    inputNeeds.sated inputs = true ↔
      ∀ index, index < inputNeeds.shape.inputs → inputNeeds.need index ≤ (inputs index).length := by
  unfold sated
  rw [List.all_eq_true]
  constructor
  · intro all index within
    simpa only [decide_eq_true_eq] using all index (List.mem_range.mpr within)
  · intro all index member
    simpa only [decide_eq_true_eq] using all index (List.mem_range.mp member)

theorem leading_append {inputNeeds : InputNeeds} {inputs : Nat → List α}
    (sated : inputNeeds.sated inputs = true) (extra : Nat → List α) :
    inputNeeds.leading (fun index => inputs index ++ extra index) = inputNeeds.leading inputs := by
  funext index
  unfold leading
  split
  next within => rw [List.take_append_of_le_length (sated_iff.mp sated index within)]
  next => rfl

theorem sated_append {inputNeeds : InputNeeds} {inputs : Nat → List α}
    (sated : inputNeeds.sated inputs = true) (extra : Nat → List α) :
    inputNeeds.sated (fun index => inputs index ++ extra index) = true := by
  rw [sated_iff] at sated ⊢
  intro index within
  have enough := sated index within
  rw [List.length_append]
  omega

theorem length_leading_le (inputNeeds : InputNeeds) (inputs : Nat → List α) (index : Nat) :
    (inputNeeds.leading inputs index).length ≤ (inputs index).length := by
  unfold leading
  split
  · rw [List.length_take]
    omega
  · exact Nat.zero_le _

private theorem total_drop {inputNeeds : InputNeeds} {inputs : Nat → List α} {pops : Nat → Nat}
    (within : ∀ index, pops index ≤ (inputs index).length)
    (something : ∃ index, index < inputNeeds.shape.inputs ∧ 0 < pops index) :
    inputNeeds.total (fun index => (inputs index).drop (pops index)) + 1 ≤
      inputNeeds.total inputs := by
  obtain ⟨index, bound, positive⟩ := something
  apply tally_lt_tally _ (List.mem_range.mpr bound)
  · have enough := within index
    rw [List.length_drop]
    omega
  · intro other
    rw [List.length_drop]
    exact Nat.sub_le _ _

end InputNeeds

theorem respond_pops_le (μ : Type) [Work β α μ] (shape : PortShape) (body : β)
    (executions : Nat) (leading : Nat → List α) (index : Nat) :
    (respond μ shape body executions leading).pops index ≤ (leading index).length :=
  Nat.sub_le _ _

namespace Progress

def extend (progress : Progress β α) (extra : Nat → List α) : Progress β α :=
  { progress with rest := fun index => progress.rest index ++ extra index }

private theorem advance_extend (μ : Type) [Work β α μ] {inputNeeds : InputNeeds}
    {progress : Progress β α} (sated : inputNeeds.sated progress.rest = true)
    (extra : Nat → List α) :
    (progress.extend extra).advance μ inputNeeds =
      (progress.advance μ inputNeeds).extend extra := by
  unfold advance extend
  dsimp only
  rw [InputNeeds.leading_append sated extra]
  congr 1
  funext index
  have within := respond_pops_le μ inputNeeds.shape progress.body progress.executions
    (inputNeeds.leading progress.rest) index
  rw [List.drop_append_of_le_length
    (Nat.le_trans within (inputNeeds.length_leading_le progress.rest index))]

inductive Reaches (μ : Type) [Work β α μ] (inputNeeds : InputNeeds) (start : Progress β α) :
    Progress β α → Prop where
  | start : Reaches μ inputNeeds start start
  | fire {progress : Progress β α} (before : Reaches μ inputNeeds start progress)
      (sated : inputNeeds.sated progress.rest = true) :
      Reaches μ inputNeeds start (progress.advance μ inputNeeds)

variable {μ : Type} [Work β α μ] {inputNeeds : InputNeeds} {start progress : Progress β α}

theorem Reaches.extend (reaches : start.Reaches μ inputNeeds progress)
    (extra : Nat → List α) :
    (start.extend extra).Reaches μ inputNeeds (progress.extend extra) := by
  induction reaches with
  | start => exact .start
  | fire before sated inductionHypothesis =>
      rw [← advance_extend μ sated extra]
      exact inductionHypothesis.fire (InputNeeds.sated_append sated extra)

private theorem settle_of_starved (starved : inputNeeds.sated progress.rest = false)
    (firings : Nat) :
    progress.settle μ inputNeeds firings = progress := by
  cases firings with
  | zero => rfl
  | succ firings =>
      unfold settle
      rw [starved]
      rfl

theorem Reaches.settle (reaches : start.Reaches μ inputNeeds progress) :
    ∃ count, progress.executions = start.executions + count ∧ ∀ more,
      start.settle μ inputNeeds (count + more) = progress.settle μ inputNeeds more := by
  induction reaches with
  | start => exact ⟨0, rfl, fun more => by rw [Nat.zero_add]⟩
  | @fire progress before sated inductionHypothesis =>
      obtain ⟨count, counted, passes⟩ := inductionHypothesis
      refine ⟨count + 1, ?_, fun more => ?_⟩
      · change progress.executions + 1 = _
        omega
      · rw [Nat.add_right_comm, Nat.add_assoc, passes (more + 1)]
        rw [Progress.settle, if_pos sated]

private theorem pushed_settle (firings : Nat) (index : Nat) :
    progress.pushed index <+: (progress.settle μ inputNeeds firings).pushed index := by
  induction firings generalizing progress with
  | zero => exact List.prefix_refl _
  | succ firings inductionHypothesis =>
      unfold settle
      split
      next =>
        have further := @inductionHypothesis (progress.advance μ inputNeeds)
        exact (List.prefix_append _ _).trans further
      next => exact List.prefix_refl _

/-- Every firing takes something, so the firings are no more than the elements taken. -/
theorem Reaches.executions_le (reaches : start.Reaches μ inputNeeds progress)
    (something : ∀ between, start.Reaches μ inputNeeds between →
      inputNeeds.sated between.rest = true →
      ∃ index, index < inputNeeds.shape.inputs ∧
        0 < (respond μ inputNeeds.shape between.body between.executions
          (inputNeeds.leading between.rest)).pops index) :
    progress.executions + inputNeeds.total progress.rest ≤
      start.executions + inputNeeds.total start.rest := by
  induction reaches with
  | start => exact Nat.le_refl _
  | @fire progress before sated inductionHypothesis =>
      have less := InputNeeds.total_drop
        (fun index => Nat.le_trans (respond_pops_le μ inputNeeds.shape progress.body
          progress.executions (inputNeeds.leading progress.rest) index)
          (inputNeeds.length_leading_le progress.rest index))
        (something progress before sated)
      have shrunk : inputNeeds.total (progress.advance μ inputNeeds).rest + 1 ≤
          inputNeeds.total progress.rest := less
      change progress.executions + 1 + inputNeeds.total (progress.advance μ inputNeeds).rest ≤ _
      omega

end Progress

namespace PortView

theorem onPort_alone (shape : PortShape) (inputs : Nat → List α) {index : Nat}
    (within : index < shape.inputs) : (alone shape inputs).holds index = inputs index := by
  have place : ((List.range shape.inputs).map (fun index => Slot.own { items := inputs index }) ++
      List.replicate shape.outputs (Slot.own {}))[index]? =
        some (Slot.own { items := inputs index }) := by
    rw [List.getElem?_append_left (by simpa only [List.length_map, List.length_range] using within)]
    simp only [List.getElem?_map, List.getElem?_range within, Option.map_some]
  simp [holds, Bank.onPort, alone, List.getElem?_range within, Bank.channel, Bank.channel?, place]

theorem sound_alone (shape : PortShape) (inputs : Nat → List α) :
    (alone shape inputs).Sound shape := by
  have channels : ((alone shape inputs).inputs ++ (alone shape inputs).outputs).map
      Port.channel = List.range (shape.inputs + shape.outputs) := by
    simp [alone, List.range_add, Function.comp_def]
  refine ⟨by simp [alone], by simp only [alone, List.length_map, List.length_range], ?_, ?_, ?_⟩
  · intro port member
    have among : port.channel ∈ List.range (shape.inputs + shape.outputs) := by
      rw [← channels]
      exact List.mem_map_of_mem member
    simpa [alone, Bank.size] using List.mem_range.mp among
  · rw [channels]
    exact List.nodup_range
  · intro left right key leftShared
    have member := List.mem_of_getElem? leftShared
    simp [alone] at member

end PortView

theorem InputNeeds.leading_congr {inputNeeds : InputNeeds} {left right : Nat → List α}
    (same : ∀ index, index < inputNeeds.shape.inputs → left index = right index) :
    inputNeeds.leading left = inputNeeds.leading right := by
  funext index
  unfold leading
  split
  next within => rw [same index within]
  next => rfl

theorem InputNeeds.sated_congr {inputNeeds : InputNeeds} {left right : Nat → List α}
    (same : ∀ index, index < inputNeeds.shape.inputs → left index = right index) :
    inputNeeds.sated left = inputNeeds.sated right := by
  rw [Bool.eq_iff_iff, sated_iff, sated_iff]
  constructor
  · intro enough index within
    rw [← same index within]
    exact enough index within
  · intro enough index within
    rw [same index within]
    exact enough index within

theorem produce_of_empty (μ : Type) [Signature β] [Work β α μ] (body : β) {shape : PortShape}
    {inputs : Nat → List α} (empty : ∀ index, index < shape.inputs → inputs index = [])
    (output : Nat) : produce μ body shape inputs output = [] := by
  have nothing : (InputNeeds.of body shape).total inputs = 0 := by
    have limited : (InputNeeds.of body shape).total inputs ≤
        (List.range shape.inputs).length * 0 := by
      apply tally_le_mul
      intro index member
      rw [empty index (List.mem_range.mp member)]
      exact Nat.zero_le _
    exact Nat.le_zero.mp limited
  unfold produce
  rw [nothing]
  rfl

section

variable {μ : Type} [Work β α μ] {audited : Bool} {rates : WorkerRates} {inputNeeds : InputNeeds}
  {kind : β → Prop}

/-- What an abiding body does with enough on every input, wherever that may be. -/
theorem RateAbiding.responds (abiding : RateAbiding (α := α) μ audited rates inputNeeds kind)
    {body : β} (member : kind body) (executions : Nat) {inputs : Nat → List α}
    (sated : inputNeeds.sated inputs = true) :
    kind (respond μ inputNeeds.shape body executions (inputNeeds.leading inputs)).next ∧
      ∃ index, index < inputNeeds.shape.inputs ∧
        0 < (respond μ inputNeeds.shape body executions
          (inputNeeds.leading inputs)).pops index := by
  have same (index : Nat) (within : index < inputNeeds.shape.inputs) :
      (PortView.alone inputNeeds.shape inputs).holds index = inputs index :=
    PortView.onPort_alone inputNeeds.shape inputs within
  have enough : inputNeeds.sated (PortView.alone inputNeeds.shape inputs).holds = true := by
    rw [InputNeeds.sated_congr same]
    exact sated
  have sound := PortView.sound_alone inputNeeds.shape inputs
  have performs := abiding.performs body executions 0 _ member sound enough
  have kept := abiding.kept body executions _ member sound enough
  rw [InputNeeds.leading_congr same] at performs kept
  exact ⟨kept, performs.something⟩

theorem Progress.Reaches.kind_body (abiding : RateAbiding (α := α) μ audited rates inputNeeds kind)
    {start progress : Progress β α} (member : kind start.body)
    (reaches : start.Reaches μ inputNeeds progress) : kind progress.body := by
  induction reaches with
  | start => exact member
  | fire before sated inductionHypothesis =>
      exact (abiding.responds inductionHypothesis _ sated).1

end

section

variable {μ : Type} [Signature β] [Work β α μ] {audited : Bool} {shape : PortShape} {body : β}
  {inputs : Nat → List α} {progress : Progress β α}

theorem Progress.Reaches.executions_le_total (abides : Abides α μ audited shape body)
    (reaches : (Progress.initial body inputs).Reaches μ (InputNeeds.of body shape) progress) :
    progress.executions + (InputNeeds.of body shape).total progress.rest ≤
      (InputNeeds.of body shape).total inputs := by
  obtain ⟨_, kind, member, abiding⟩ := abides
  have bounded := reaches.executions_le fun between before sated =>
    (abiding.responds (before.kind_body abiding member) _ sated).2
  change _ ≤ 0 + (InputNeeds.of body shape).total inputs at bounded
  omega

/-- What has been put out is the beginning of all that will be. -/
theorem Progress.Reaches.pushed_begins (abides : Abides α μ audited shape body)
    (reaches : (Progress.initial body inputs).Reaches μ (InputNeeds.of body shape) progress)
    (index : Nat) : progress.pushed index <+: produce μ body shape inputs index := by
  have bounded := reaches.executions_le_total abides
  obtain ⟨count, counted, passes⟩ := reaches.settle
  change progress.executions = 0 + count at counted
  obtain ⟨more, total⟩ : ∃ more, (InputNeeds.of body shape).total inputs = count + more :=
    ⟨(InputNeeds.of body shape).total inputs - count, by omega⟩
  unfold produce
  rw [total, passes more]
  exact Progress.pushed_settle more index

/-- A worker that has too little to go on has put out everything. -/
theorem Progress.Reaches.pushed_eq (abides : Abides α μ audited shape body)
    (reaches : (Progress.initial body inputs).Reaches μ (InputNeeds.of body shape) progress)
    (starved : (InputNeeds.of body shape).sated progress.rest = false) :
    produce μ body shape inputs = progress.pushed := by
  have bounded := reaches.executions_le_total abides
  obtain ⟨count, counted, passes⟩ := reaches.settle
  change progress.executions = 0 + count at counted
  obtain ⟨more, total⟩ : ∃ more, (InputNeeds.of body shape).total inputs = count + more :=
    ⟨(InputNeeds.of body shape).total inputs - count, by omega⟩
  unfold produce
  dsimp only
  rw [total, passes more, Progress.settle_of_starved starved]

end

end DemandFlow
