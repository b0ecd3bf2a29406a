import DemandFlow.Proofs.Stream.Handling

/-!
The standard bodies keep to their rates. A firing of one of them takes a fixed number of
elements from each input and puts out what it has taken, so all that it does is known from
its loops over the ports.
-/

set_option autoImplicit false

namespace DemandFlow

variable {α μ : Type}

namespace Routine

variable {worker : WorkerId} {inputs outputs : List Port} {stage : Nat → Scene α μ → Prop}
  {scene : Scene α μ}

theorem run_andThen {first : Routine α μ (Except Error Unit)}
    {next : Unit → Routine α μ (Except Error Unit)} {left : Scene α μ}
    (done : first.run worker inputs outputs scene = (.ok (), left)) :
    (first.andThen next).run worker inputs outputs scene =
      (next ()).run worker inputs outputs left := by
  unfold andThen
  rw [run_bind, done]

private theorem forEach_from {action : Nat → Routine α μ (Except Error Unit)} {start count : Nat}
    (round : ∀ item scene, item < start + count → stage item scene → ∃ left,
      (action item).run worker inputs outputs scene = (.ok (), left) ∧ stage (item + 1) left)
    (begins : stage start scene) :
    ∃ left, (forEach action (List.range' start count)).run worker inputs outputs scene =
      (.ok (), left) ∧ stage (start + count) left := by
  induction count generalizing start scene with
  | zero => exact ⟨scene, rfl, begins⟩
  | succ count inductionHypothesis =>
      obtain ⟨between, first, reached⟩ := round start scene (by omega) begins
      have longer : start + 1 + count = start + (count + 1) := by omega
      obtain ⟨left, rest, ends⟩ := inductionHypothesis (longer ▸ round) reached
      refine ⟨left, ?_, longer ▸ ends⟩
      rw [List.range'_succ, forEach, run_andThen first]
      exact rest

private theorem times_from {action : Routine α μ (Except Error Unit)} {start count : Nat}
    (round : ∀ item scene, item < start + count → stage item scene → ∃ left,
      action.run worker inputs outputs scene = (.ok (), left) ∧ stage (item + 1) left)
    (begins : stage start scene) :
    ∃ left, (times action count).run worker inputs outputs scene = (.ok (), left) ∧
      stage (start + count) left := by
  induction count generalizing start scene with
  | zero => exact ⟨scene, rfl, begins⟩
  | succ count inductionHypothesis =>
      obtain ⟨between, first, reached⟩ := round start scene (by omega) begins
      have longer : start + 1 + count = start + (count + 1) := by omega
      obtain ⟨left, rest, ends⟩ := inductionHypothesis (longer ▸ round) reached
      refine ⟨left, ?_, longer ▸ ends⟩
      rw [times, run_andThen first]
      exact rest

/-- A loop over ports leads from stage to stage if each round leads to the next one. -/
theorem forEach_reaches (stage : Nat → Scene α μ → Prop)
    {action : Nat → Routine α μ (Except Error Unit)} {count : Nat}
    (round : ∀ item scene, item < count → stage item scene → ∃ left,
      (action item).run worker inputs outputs scene = (.ok (), left) ∧ stage (item + 1) left)
    (begins : stage 0 scene) :
    ∃ left, (forEach action (List.range count)).run worker inputs outputs scene =
      (.ok (), left) ∧ stage count left := by
  rw [← Nat.zero_add count] at round
  have reached := forEach_from round begins
  rw [Nat.zero_add, ← List.range_eq_range'] at reached
  exact reached

/-- The same for a loop that does one action again and again. -/
theorem times_reaches (stage : Nat → Scene α μ → Prop)
    {action : Routine α μ (Except Error Unit)} {count : Nat}
    (round : ∀ item scene, item < count → stage item scene → ∃ left,
      action.run worker inputs outputs scene = (.ok (), left) ∧ stage (item + 1) left)
    (begins : stage 0 scene) :
    ∃ left, (times action count).run worker inputs outputs scene = (.ok (), left) ∧
      stage count left := by
  rw [← Nat.zero_add count] at round
  have reached := times_from round begins
  rw [Nat.zero_add] at reached
  exact reached

end Routine

namespace PortView.Handled

variable {portView : PortView α} {shape : PortShape} {pops : Nat → Nat} {pushes : Nat → List α}
  {scene : Routine.Scene α μ} {input output : Nat}

theorem transfer (handled : portView.Handled pops pushes scene) (sound : portView.Sound shape)
    (inputWithin : input < shape.inputs) (outputWithin : output < shape.outputs) {element : α}
    (front : (portView.holds input)[pops input]? = some element) (id : WorkerId) :
    ∃ left, (Routine.transfer input output).run id portView.inputs portView.outputs scene =
        (.ok (), left) ∧
      portView.Handled (fun index => pops index + if index = input then 1 else 0)
        (fun index => pushes index ++ if index = output then [element] else []) left := by
  unfold Routine.transfer
  apply handled.pop sound inputWithin front
  intro between popped
  apply popped.push sound outputWithin
  intro left pushed
  exact ⟨left, rfl, pushed⟩

theorem times (handled : portView.Handled pops pushes scene) (sound : portView.Sound shape)
    (inputWithin : input < shape.inputs) (outputWithin : output < shape.outputs) {count : Nat}
    (enough : pops input + count ≤ (portView.holds input).length) (id : WorkerId) :
    ∃ left, (Routine.times (.transfer input output) count).run id portView.inputs portView.outputs
        scene = (.ok (), left) ∧
      portView.Handled (fun index => pops index + if index = input then count else 0)
        (fun index => pushes index ++
          if index = output then ((portView.holds input).drop (pops input)).take count else [])
        left := by
  refine Routine.times_reaches (fun done scene =>
    portView.Handled (fun index => pops index + if index = input then done else 0)
      (fun index => pushes index ++
        if index = output then ((portView.holds input).drop (pops input)).take done else []) scene)
    ?_ (handled.congr (fun index => by simp) (fun index => by simp))
  intro done scene below reached
  have within : pops input + done < (portView.holds input).length := by omega
  have front : (portView.holds input)[pops input + if input = input then done else 0]? =
      some (portView.holds input)[pops input + done] := by
    rw [if_pos rfl]
    exact List.getElem?_eq_getElem within
  obtain ⟨left, run, ends⟩ := reached.transfer sound inputWithin outputWithin front id
  refine ⟨left, run, ends.congr ?_ ?_⟩
  · intro index
    by_cases same : index = input
    · simp only [same, ↓reduceIte]
      omega
    · simp only [same, ↓reduceIte, Nat.add_zero]
  · intro index
    by_cases same : index = output
    · simp [same, List.take_add_one, List.getElem?_drop, within]
    · simp only [same, ↓reduceIte, List.append_nil]

end PortView.Handled

namespace Standard

/-! ### What a firing does -/

def takes (body : Standard) (shape : PortShape) (index : Nat) : Nat :=
  match body with
  | .identity | .duplicate => if index = 0 then 1 else 0
  | .roundRobinSplit weight => if index = 0 then weight * shape.outputs else 0
  | .roundRobinJoin weight => if index < shape.inputs then weight else 0

def gives (body : Standard) (shape : PortShape) (inputs : Nat → List α) (index : Nat) : List α :=
  match body with
  | .identity => if index = 0 then (inputs 0).take 1 else []
  | .duplicate => if index < shape.outputs then (inputs 0).take 1 else []
  | .roundRobinSplit weight =>
      if index < shape.outputs then ((inputs 0).drop (weight * index)).take weight else []
  | .roundRobinJoin weight =>
      if index = 0 then
        (List.range shape.inputs).flatMap (fun input => (inputs input).take weight)
      else []

theorem takes_roundRobinJoin {weight : Nat} {shape : PortShape} {index : Nat}
    (within : index < shape.inputs) : takes (.roundRobinJoin weight) shape index = weight :=
  if_pos within

section

variable {portView : PortView α} {shape : PortShape} (sound : portView.Sound shape) (id : WorkerId)
include sound

private theorem run_identity (input : 0 < shape.inputs) (output : 0 < shape.outputs)
    (enough : 1 ≤ (portView.holds 0).length) :
    ∃ left : Routine.Scene α μ, (routine .identity shape).run id portView.inputs portView.outputs
        { bank := portView.bank } = (.ok (), left) ∧
      portView.Handled (takes .identity shape) (gives .identity shape portView.holds) left := by
  have front : (portView.holds 0)[0]? = some (portView.holds 0)[0] :=
    List.getElem?_eq_getElem enough
  obtain ⟨left, run, ends⟩ := portView.handled_start.transfer sound input output front id
  refine ⟨left, run, ends.congr ?_ ?_⟩
  · intro index
    exact (Nat.zero_add _).symm
  · intro index
    unfold gives
    by_cases same : index = 0
    · simp [same, List.take_one, List.head?_eq_getElem?, front]
    · simp only [same, ↓reduceIte, List.append_nil]

private theorem run_duplicate (input : 0 < shape.inputs) (enough : 1 ≤ (portView.holds 0).length) :
    ∃ left : Routine.Scene α μ, (routine .duplicate shape).run id portView.inputs portView.outputs
        { bank := portView.bank } = (.ok (), left) ∧
      portView.Handled (takes .duplicate shape) (gives .duplicate shape portView.holds) left := by
  have front : (portView.holds 0)[0]? = some (portView.holds 0)[0] :=
    List.getElem?_eq_getElem enough
  have single : (portView.holds 0).take 1 = [(portView.holds 0)[0]] := by
    simp only [List.take_one, List.head?_eq_getElem?, front, Option.toList_some]
  unfold routine Routine.spread
  apply portView.handled_start.pop sound input front
  intro between popped
  refine Routine.forEach_reaches (fun done scene => portView.Handled (takes .duplicate shape)
    (fun index => if index < done then (portView.holds 0).take 1 else []) scene) ?_
    (popped.congr (fun index => (Nat.zero_add _).symm) (fun index => by simp))
  intro item scene below reached
  apply reached.push sound below
  intro left pushed
  refine ⟨left, rfl, pushed.congr (fun _ => rfl) ?_⟩
  intro index
  rw [single]
  grind

private theorem run_roundRobinSplit (input : 0 < shape.inputs) {weight : Nat}
    (enough : weight * shape.outputs ≤ (portView.holds 0).length) :
    ∃ left : Routine.Scene α μ, (routine (.roundRobinSplit weight) shape).run id portView.inputs
        portView.outputs { bank := portView.bank } = (.ok (), left) ∧
      portView.Handled (takes (.roundRobinSplit weight) shape)
        (gives (.roundRobinSplit weight) shape portView.holds) left := by
  refine Routine.forEach_reaches (fun done scene =>
    portView.Handled (fun index => if index = 0 then weight * done else 0)
      (fun index => if index < done then ((portView.holds 0).drop (weight * index)).take weight
        else []) scene) ?_ (portView.handled_start.congr (by simp) (by simp))
  intro item scene below reached
  have longer : weight * (item + 1) ≤ weight * shape.outputs := Nat.mul_le_mul_left _ below
  have room : (if 0 = 0 then weight * item else 0) + weight ≤ (portView.holds 0).length := by
    rw [if_pos rfl, ← Nat.mul_succ]
    exact Nat.le_trans longer enough
  obtain ⟨left, run, ends⟩ := reached.times sound input below room id
  refine ⟨left, run, ends.congr ?_ ?_⟩
  · intro index
    rw [Nat.mul_succ]
    split <;> rfl
  · intro index
    rw [if_pos rfl]
    grind

private theorem run_roundRobinJoin (output : 0 < shape.outputs) {weight : Nat}
    (enough : ∀ index, index < shape.inputs → weight ≤ (portView.holds index).length) :
    ∃ left : Routine.Scene α μ, (routine (.roundRobinJoin weight) shape).run id portView.inputs
        portView.outputs { bank := portView.bank } = (.ok (), left) ∧
      portView.Handled (takes (.roundRobinJoin weight) shape)
        (gives (.roundRobinJoin weight) shape portView.holds) left := by
  refine Routine.forEach_reaches (fun done scene =>
    portView.Handled (fun index => if index < done then weight else 0)
      (fun index => if index = 0 then
        (List.range done).flatMap (fun input => (portView.holds input).take weight) else []) scene)
    ?_ (portView.handled_start.congr (by simp) (by simp))
  intro item scene below reached
  have fresh : (if item < item then weight else 0) = 0 := if_neg (Nat.lt_irrefl item)
  have room : (if item < item then weight else 0) + weight ≤ (portView.holds item).length := by
    rw [fresh, Nat.zero_add]
    exact enough item below
  obtain ⟨left, run, ends⟩ := reached.times sound below output room id
  refine ⟨left, run, ends.congr ?_ ?_⟩
  · intro index
    grind
  · intro index
    rw [fresh, List.drop_zero, List.range_succ, List.flatMap_append, List.flatMap_singleton]
    split <;> simp

/-- With enough on every input a standard body does what it is to do. -/
theorem run_routine {body : Standard} (fits : (body.rates shape).fits shape = true)
    (enough : ∀ index, index < shape.inputs →
      body.takes shape index ≤ (portView.holds index).length) :
    ∃ left : Routine.Scene α μ, (body.routine shape).run id portView.inputs portView.outputs
        { bank := portView.bank } = (.ok (), left) ∧
      portView.Handled (body.takes shape) (body.gives shape portView.holds) left := by
  obtain ⟨peeks, _, pushes⟩ := WorkerRates.fits_iff.mp fits
  cases body with
  | identity =>
      have input : 0 < shape.inputs := peeks ▸ Nat.zero_lt_one
      exact run_identity sound id input (pushes ▸ Nat.zero_lt_one) (enough 0 input)
  | duplicate =>
      have input : 0 < shape.inputs := peeks ▸ Nat.zero_lt_one
      exact run_duplicate sound id input (enough 0 input)
  | roundRobinSplit weight =>
      have input : 0 < shape.inputs := peeks ▸ Nat.zero_lt_one
      exact run_roundRobinSplit sound id input (enough 0 input)
  | roundRobinJoin weight =>
      refine run_roundRobinJoin sound id (pushes ▸ Nat.zero_lt_one) ?_
      intro index within
      have long := enough index within
      rw [takes_roundRobinJoin within] at long
      exact long

end

theorem demand_exact {count : Nat} (known : count ≠ maxCount) :
    demand? (.exact 0) (.exact count) = some count := by
  have nothing : (RateBound.ofCount 0).known? = some 0 := rfl
  have something : (RateBound.ofCount count).known? = some count := by
    unfold RateBound.ofCount
    rw [if_neg known]
    rfl
  unfold demand? Rate.exact
  dsimp only
  rw [nothing, something]
  exact congrArg some (Nat.max_eq_right (Nat.zero_le count))

theorem admits_exact (count : Nat) : (Rate.exact count).admits count = true := by
  unfold Rate.admits Rate.exact RateBound.ofCount
  by_cases dynamic : count = maxCount <;> simp [dynamic, RateBound.known?]

variable {body : Standard} {shape : PortShape}

theorem pop_rate (fits : (body.rates shape).fits shape = true)
    (countable : body.Countable shape) {index : Nat} (within : index < shape.inputs) :
    (body.rates shape).peek[index]? = some (.exact 0) ∧
      (body.rates shape).pop[index]? = some (.exact (body.takes shape index)) := by
  obtain ⟨peeks, _⟩ := WorkerRates.fits_iff.mp fits
  cases body with
  | identity | duplicate =>
      have single : shape.inputs = 1 := peeks.symm
      have first : index = 0 := by omega
      subst first
      exact ⟨rfl, rfl⟩
  | roundRobinSplit weight =>
      have single : shape.inputs = 1 := peeks.symm
      have first : index = 0 := by omega
      subst first
      exact ⟨rfl, congrArg (some <| Rate.exact ·) (countProduct_of_le countable)⟩
  | roundRobinJoin weight => simp [rates, takes, within]

theorem need_eq (fits : (body.rates shape).fits shape = true)
    (countable : body.Countable shape) {index : Nat} (within : index < shape.inputs)
    (known : body.takes shape index ≠ maxCount) :
    (body.rates shape).need? index = some (body.takes shape index) := by
  obtain ⟨peek, pop⟩ := pop_rate fits countable within
  unfold WorkerRates.need?
  rw [peek, pop]
  exact demand_exact known

/-- A standard body puts out what it declares, if it finds enough. -/
theorem push_rate {inputs : Nat → List α} (fits : (body.rates shape).fits shape = true)
    (countable : body.Countable shape)
    (enough : ∀ index, index < shape.inputs → body.takes shape index ≤ (inputs index).length)
    {index : Nat} (within : index < shape.outputs) :
    (body.rates shape).push[index]? = some (.exact (body.gives shape inputs index).length) := by
  obtain ⟨peeks, _, pushes⟩ := WorkerRates.fits_iff.mp fits
  cases body with
  | identity =>
      have single : shape.outputs = 1 := pushes.symm
      have first : index = 0 := by omega
      subst first
      have long : 1 ≤ (inputs 0).length := enough 0 (peeks ▸ Nat.zero_lt_one)
      simp [rates, gives, WorkerRates.single, Nat.min_eq_left long]
  | duplicate =>
      have long : 1 ≤ (inputs 0).length := enough 0 (peeks ▸ Nat.zero_lt_one)
      simp [rates, gives, within, Nat.min_eq_left long]
  | roundRobinSplit weight =>
      have long : weight * shape.outputs ≤ (inputs 0).length :=
        enough 0 (peeks ▸ Nat.zero_lt_one)
      have below : weight * (index + 1) ≤ weight * shape.outputs := Nat.mul_le_mul_left _ within
      rw [Nat.mul_succ] at below
      have segment : min weight ((inputs 0).length - weight * index) = weight := by omega
      simp [rates, gives, within, segment]
  | roundRobinJoin weight =>
      have single : shape.outputs = 1 := pushes.symm
      have first : index = 0 := by omega
      subst first
      have each (input : Nat) (member : input ∈ List.range shape.inputs) :
          ((inputs input).take weight).length = weight := by
        have long := enough input (List.mem_range.mp member)
        rw [takes_roundRobinJoin (List.mem_range.mp member)] at long
        rw [List.length_take, Nat.min_eq_left long]
      have total : ((List.range shape.inputs).flatMap
          (fun input => (inputs input).take weight)).length = weight * shape.inputs := by
        rw [List.length_flatMap, List.map_congr_left each, List.map_const', List.sum_replicate_nat,
          List.length_range, Nat.mul_comm]
      unfold rates gives
      dsimp only
      rw [if_pos rfl, total, countProduct_of_le countable]
      rfl

theorem need_inputNeeds (fits : (body.rates shape).fits shape = true)
    (countable : body.Countable shape) {index : Nat} (within : index < shape.inputs)
    (known : body.takes shape index ≠ maxCount) :
    (InputNeeds.of body shape).need index = body.takes shape index := by
  change ((body.rates shape).need? index).getD 0 = _
  rw [need_eq fits countable within known]
  rfl

/-- What a standard body puts out is made of the elements it may look at. -/
theorem gives_congr {left right : Nat → List α}
    (fits : (body.rates shape).fits shape = true)
    (same : ∀ index, index < shape.inputs →
      (left index).take (body.takes shape index) = (right index).take (body.takes shape index)) :
    body.gives shape left = body.gives shape right := by
  obtain ⟨peeks, _⟩ := WorkerRates.fits_iff.mp fits
  funext index
  cases body with
  | identity | duplicate =>
      have first : (left 0).take 1 = (right 0).take 1 := same 0 (peeks ▸ Nat.zero_lt_one)
      unfold gives
      dsimp only
      rw [first]
  | roundRobinSplit weight =>
      have first : (left 0).take (weight * shape.outputs) =
          (right 0).take (weight * shape.outputs) := same 0 (peeks ▸ Nat.zero_lt_one)
      unfold gives
      dsimp only
      split
      next within =>
        have below : weight * (index + 1) ≤ weight * shape.outputs :=
          Nat.mul_le_mul_left _ within
        have segment (elements : List α) : (elements.drop (weight * index)).take weight =
            ((elements.take (weight * shape.outputs)).drop (weight * index)).take weight := by
          rw [List.drop_take, List.take_take]
          rw [Nat.mul_succ] at below
          rw [Nat.min_eq_left (by omega)]
        rw [segment (left 0), segment (right 0), first]
      next => rfl
  | roundRobinJoin weight =>
      have each (input : Nat) (member : input ∈ List.range shape.inputs) :
          (left input).take weight = (right input).take weight := by
        have taken := same input (List.mem_range.mp member)
        rw [takes_roundRobinJoin (List.mem_range.mp member)] at taken
        exact taken
      unfold gives
      dsimp only
      rw [List.flatMap_def, List.flatMap_def, List.map_congr_left each]

section

variable (fits : (body.rates shape).fits shape = true) (countable : body.Countable shape)
  (known : ∀ index, index < shape.inputs → body.takes shape index ≠ maxCount)
include fits countable known

theorem enough_of_sated {inputs : Nat → List α}
    (sated : (InputNeeds.of body shape).sated inputs = true) (index : Nat)
    (within : index < shape.inputs) : body.takes shape index ≤ (inputs index).length := by
  rw [← need_inputNeeds fits countable within (known index within)]
  exact InputNeeds.sated_iff.mp sated index within

theorem steady (busy : ∃ index, index < shape.inputs ∧ 0 < body.takes shape index) :
    Steady μ (InputNeeds.of body shape) body (body.takes shape) (body.gives (α := α) shape) := by
  constructor
  · intro executions id portView sound sated
    change portView.Sound shape at sound
    obtain ⟨left, run, ends⟩ :=
      run_routine sound id fits (enough_of_sated fits countable known sated)
    refine ⟨left, ?_, ends⟩
    unfold PortView.work
    change ((body.routine shape).bind _).run id portView.inputs portView.outputs _ = _
    rw [Routine.run_bind, run]
    rfl
  · intro left right same
    apply gives_congr fits
    intro index within
    have leading := congrFun same index
    unfold InputNeeds.leading at leading
    change (if index < shape.inputs then _ else _) = (if index < shape.inputs then _ else _)
      at leading
    rw [if_pos within, if_pos within,
      need_inputNeeds fits countable within (known index within)] at leading
    exact leading
  · intro index within
    exact Nat.le_of_eq (need_inputNeeds fits countable within (known index within)).symm
  · exact busy

private theorem counted : Counted (body.rates shape) (InputNeeds.of body shape) (body.takes shape)
    (body.gives (α := α) shape) := by
  obtain ⟨peeks, pops, pushes⟩ := WorkerRates.fits_iff.mp fits
  constructor
  · exact fits
  · intro peek member
    obtain ⟨index, place⟩ := List.mem_iff_getElem?.mp member
    have within : index < shape.inputs := by
      rw [← peeks]
      exact (List.getElem?_eq_some_iff.mp place).1
    rw [(pop_rate fits countable within).1] at place
    cases place
    exact admits_exact 0
  · intro index pop place
    have within : index < shape.inputs := by
      rw [← pops]
      exact (List.getElem?_eq_some_iff.mp place).1
    rw [(pop_rate fits countable within).2] at place
    cases place
    exact admits_exact _
  · intro inputs sated index push place
    have within : index < shape.outputs := by
      rw [← pushes]
      exact (List.getElem?_eq_some_iff.mp place).1
    rw [push_rate fits countable (enough_of_sated fits countable known sated) within] at place
    cases place
    exact admits_exact _

/-- A standard body that takes something and whose rates are known keeps to them, also under
audit. -/
theorem abides (busy : ∃ index, index < shape.inputs ∧ 0 < body.takes shape index)
    (audited : Bool) : Abides α μ audited shape body := by
  refine ⟨?_, (· = body), rfl, ?_⟩
  · intro index within
    change ((body.rates shape).need? index).isSome = true
    rw [need_eq fits countable within (known index within)]
    rfl
  · exact (steady fits countable known busy).rateAbiding (fun _ => counted fits countable known)

end

end Standard

end DemandFlow
