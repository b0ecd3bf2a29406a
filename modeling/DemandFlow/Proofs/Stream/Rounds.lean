import DemandFlow.Proofs.Stream.Standard

/-!
The rounds of steady bodies. Every firing of a steady body takes the same from each input, so
after so many firings it is known what is left of the inputs and what has been put out; and what
the body makes of its whole input is what it puts out in as many rounds as there is input for.
-/

set_option autoImplicit false

namespace DemandFlow

variable {β α μ : Type}

/-- What is left of each input after so many rounds, if every round takes `pops`. -/
def afterRounds (pops : Nat → Nat) (inputs : Nat → List α) (count index : Nat) : List α :=
  (inputs index).drop (count * pops index)

private theorem afterRounds_zero (pops : Nat → Nat) (inputs : Nat → List α) :
    afterRounds pops inputs 0 = inputs := by
  funext index
  simp only [afterRounds, Nat.zero_mul, List.drop_zero]

/-- The body is back where it was after each of its firings, every one of which was a round. -/
structure Progress.Rounds (body : β) (shape : PortShape) (pops : Nat → Nat)
    (pushes : (Nat → List α) → Nat → List α) (inputs : Nat → List α)
    (progress : Progress β α) : Prop where
  body_eq : progress.body = body
  rest : ∀ index, index < shape.inputs →
    progress.rest index = afterRounds pops inputs progress.executions index
  taken : ∀ index, index < shape.inputs →
    progress.executions * pops index ≤ (inputs index).length
  pushed : ∀ output, output < shape.outputs → progress.pushed output =
    (List.range progress.executions).flatMap
      (fun round => pushes (afterRounds pops inputs round) output)

section

variable [Work β α μ] {inputNeeds : InputNeeds} {body : β} {pops : Nat → Nat}
  {pushes : (Nat → List α) → Nat → List α} {inputs : Nat → List α} {progress : Progress β α}

private theorem Steady.advance_rounds (steady : Steady μ inputNeeds body pops pushes)
    (rounds : progress.Rounds body inputNeeds.shape pops pushes inputs)
    (sated : inputNeeds.sated progress.rest = true) :
    (progress.advance μ inputNeeds).Rounds body inputNeeds.shape pops pushes inputs := by
  obtain ⟨next, takes, gives⟩ := steady.responds progress.executions sated
  rw [← rounds.body_eq] at next takes gives
  constructor
  · exact next.trans rounds.body_eq
  · intro index within
    unfold Progress.advance afterRounds
    dsimp only
    rw [takes index within, rounds.rest index within, afterRounds, List.drop_drop, Nat.succ_mul]
  · intro index within
    have enough := InputNeeds.sated_iff.mp sated index within
    have few := steady.few index within
    have before := rounds.taken index within
    rw [rounds.rest index within, afterRounds, List.length_drop] at enough
    change (progress.executions + 1) * pops index ≤ _
    rw [Nat.succ_mul]
    omega
  · intro output within
    have same : pushes progress.rest = pushes (afterRounds pops inputs progress.executions) :=
      steady.leading _ _ (InputNeeds.leading_congr rounds.rest)
    unfold Progress.advance
    dsimp only
    rw [gives output within, rounds.pushed output within, same, List.range_succ,
      List.flatMap_append, List.flatMap_singleton]

theorem Steady.rounds_of_reaches (steady : Steady μ inputNeeds body pops pushes)
    (reaches : (Progress.initial body inputs).Reaches μ inputNeeds progress) :
    progress.Rounds body inputNeeds.shape pops pushes inputs := by
  induction reaches with
  | start =>
      refine ⟨rfl, ?_, ?_, fun _ _ => rfl⟩
      · intro index within
        exact (congrFun (afterRounds_zero pops inputs) index).symm
      · intro index within
        change 0 * pops index ≤ _
        simp only [Nat.zero_mul, Nat.zero_le]
  | fire before sated inductionHypothesis => exact steady.advance_rounds inductionHypothesis sated

private theorem Steady.reaches_round (steady : Steady μ inputNeeds body pops pushes) {count : Nat}
    (enough : ∀ round, round < count → inputNeeds.sated (afterRounds pops inputs round) = true) :
    ∃ progress, (Progress.initial body inputs).Reaches μ inputNeeds progress ∧
      progress.executions = count := by
  induction count with
  | zero => exact ⟨_, .start, rfl⟩
  | succ count inductionHypothesis =>
      obtain ⟨progress, reaches, counted⟩ :=
        inductionHypothesis (fun round below => enough round (Nat.lt_succ_of_lt below))
      have rounds := steady.rounds_of_reaches reaches
      have sated : inputNeeds.sated progress.rest = true := by
        rw [InputNeeds.sated_congr rounds.rest, counted]
        exact enough count (Nat.lt_succ_self count)
      exact ⟨_, reaches.fire sated, congrArg (· + 1) counted⟩

end

/-- What a steady body makes of its inputs is what it puts out in all the rounds for which they
are enough. -/
theorem Steady.produce_eq [Signature β] [Work β α μ] {shape : PortShape} {body : β}
    {pops : Nat → Nat} {pushes : (Nat → List α) → Nat → List α} {inputs : Nat → List α}
    (steady : Steady μ (InputNeeds.of body shape) body pops pushes) {audited : Bool}
    (abides : Abides α μ audited shape body) {count : Nat}
    (enough : ∀ round, round < count →
      (InputNeeds.of body shape).sated (afterRounds pops inputs round) = true)
    (short : (InputNeeds.of body shape).sated (afterRounds pops inputs count) = false)
    {output : Nat} (within : output < shape.outputs) :
    produce μ body shape inputs output =
      (List.range count).flatMap (fun round => pushes (afterRounds pops inputs round) output) := by
  obtain ⟨progress, reaches, rfl⟩ := steady.reaches_round enough
  have rounds := steady.rounds_of_reaches reaches
  have starved : (InputNeeds.of body shape).sated progress.rest = false := by
    rw [InputNeeds.sated_congr rounds.rest]
    exact short
  rw [reaches.pushed_eq abides starved]
  exact rounds.pushed output within

namespace Standard

/-- The body has the ports it declares rates for, and it waits for a known number of elements,
of which there are some. -/
structure Suits (body : Standard) (shape : PortShape) : Prop where
  fits : (body.rates shape).fits shape = true
  countable : body.Countable shape
  known : ∀ index, index < shape.inputs → body.takes shape index ≠ maxCount
  busy : ∃ index, index < shape.inputs ∧ 0 < body.takes shape index

theorem suits_identity : Suits .identity ⟨1, 1⟩ :=
  ⟨rfl, trivial, by decide, 0, by decide⟩

theorem suits_roundRobinSplit {weight count : Nat} (positive : 0 < weight * count)
    (known : weight * count < maxCount) : Suits (.roundRobinSplit weight) ⟨1, count⟩ where
  fits := by simp [WorkerRates.fits_iff, rates]
  countable := Nat.le_of_lt known
  known index within := by
    have first : index = 0 := Nat.lt_one_iff.mp within
    subst first
    exact Nat.ne_of_lt known
  busy := ⟨0, Nat.zero_lt_one, positive⟩

theorem suits_roundRobinJoin {weight count : Nat} (positive : 0 < weight * count)
    (known : weight * count < maxCount) : Suits (.roundRobinJoin weight) ⟨count, 1⟩ where
  fits := by simp [WorkerRates.fits_iff, rates]
  countable := Nat.le_of_lt known
  known index within := by
    have one : 0 < count := Nat.pos_of_mul_pos_left positive
    rw [takes_roundRobinJoin within]
    exact Nat.ne_of_lt (Nat.lt_of_le_of_lt (Nat.le_mul_of_pos_right weight one) known)
  busy := by
    refine ⟨0, Nat.pos_of_mul_pos_left positive, ?_⟩
    rw [takes_roundRobinJoin (Nat.pos_of_mul_pos_left positive)]
    exact Nat.pos_of_mul_pos_right positive

section

variable {body : Standard} {shape : PortShape} (suits : body.Suits shape)
include suits

theorem Suits.abides (audited : Bool) : Abides α μ audited shape body :=
  Standard.abides suits.fits suits.countable suits.known suits.busy audited

theorem Suits.rounds {inputs : Nat → List α} {progress : Progress Standard α}
    (reaches : (Progress.initial body inputs).Reaches μ (InputNeeds.of body shape) progress) :
    progress.Rounds body shape (body.takes shape) (body.gives shape) inputs :=
  (steady suits.fits suits.countable suits.known suits.busy).rounds_of_reaches reaches

private theorem Suits.sated_iff {inputs : Nat → List α} :
    (InputNeeds.of body shape).sated inputs = true ↔
      ∀ index, index < shape.inputs → body.takes shape index ≤ (inputs index).length := by
  rw [InputNeeds.sated_iff]
  refine forall_congr' fun index => forall_congr' fun within => ?_
  rw [need_inputNeeds suits.fits suits.countable within (suits.known index within)]

/-- A standard body puts out as many rounds as the inputs are enough for. -/
theorem Suits.produce_eq {inputs : Nat → List α} {count : Nat}
    (enough : ∀ index, index < shape.inputs →
      count * body.takes shape index ≤ (inputs index).length)
    (short : ∃ index, index < shape.inputs ∧
      (inputs index).length < (count + 1) * body.takes shape index)
    {output : Nat} (within : output < shape.outputs) :
    produce μ body shape inputs output = (List.range count).flatMap
      (fun round => body.gives shape (afterRounds (body.takes shape) inputs round) output) := by
  have steadily := steady (α := α) (μ := μ) suits.fits suits.countable suits.known suits.busy
  refine steadily.produce_eq (suits.abides false) ?_ ?_ within
  · intro round below
    rw [suits.sated_iff]
    intro index inside
    have whole := enough index inside
    have part := Nat.mul_le_mul_right (body.takes shape index) (Nat.succ_le_of_lt below)
    rw [Nat.succ_mul] at part
    rw [afterRounds, List.length_drop]
    omega
  · rw [Bool.eq_false_iff]
    intro sated
    obtain ⟨index, inside, less⟩ := short
    have more := suits.sated_iff.mp sated index inside
    have whole := enough index inside
    rw [afterRounds, List.length_drop] at more
    rw [Nat.succ_mul] at less
    omega

end

theorem Suits.produce_single {body : Standard} {outputs : Nat} (suits : body.Suits ⟨1, outputs⟩)
    {inputs : Nat → List α} {count : Nat}
    (enough : count * body.takes ⟨1, outputs⟩ 0 ≤ (inputs 0).length)
    (short : (inputs 0).length < (count + 1) * body.takes ⟨1, outputs⟩ 0)
    {output : Nat} (within : output < outputs) :
    produce μ body ⟨1, outputs⟩ inputs output = (List.range count).flatMap (fun round =>
      body.gives ⟨1, outputs⟩ (afterRounds (body.takes ⟨1, outputs⟩) inputs round) output) := by
  refine suits.produce_eq ?_ ⟨0, Nat.zero_lt_one, short⟩ within
  intro index inside
  have first : index = 0 := Nat.lt_one_iff.mp inside
  rw [first]
  exact enough

end Standard

end DemandFlow
