import DemandFlow.Proofs.Interpreter.Pipeline
import DemandFlow.Proofs.Interpreter.Sparing

/-!
Two interpreters joined at a shared buffer. A pipeline is cut in two, and the upper part puts
into the buffer what the lower part takes from it. Both show stretches of one line, whose runs
they go on with in turn. Once the upper part has been called after the last push, and then the
lower part, everybody starves, and a single call over the uncut pipeline comes to the same
marking.
-/

set_option autoImplicit false

namespace DemandFlow

variable {β α μ : Type}

/-- Two interpreters, each over a graph of its own, that see the same shared buffers. -/
structure Joined (β α μ : Type) where
  upper : Interpreter β α μ
  lower : Interpreter β α μ

namespace Joined

inductive Operation (α : Type) where
  /-- Elements come in at the upper interpreter. -/
  | push (elements : List α)
  | callUpper
  | callLower

def Operation.pushed? : Operation α → Option (List α)
  | .push elements => some elements
  | .callUpper => none
  | .callLower => none

def pushes (operations : List (Operation α)) : List (List α) :=
  operations.filterMap Operation.pushed?

/-- One side operates successfully, and the other side sees the shared buffers as it leaves
them. -/
inductive Performs [Recipient β μ] [Work β α μ] (now : Joined β α μ) :
    Operation α → Joined β α μ → Prop where
  | push {left : Interpreter β α μ} {boundary : BoundaryChannel} (token : BoundaryToken)
      (elements : List α) (known : now.upper.boundary? token = some boundary)
      (input : boundary.direction = .input)
      (push : now.upper.pushAll? token elements = some left) :
      Performs now (.push elements)
        { upper := left, lower := now.lower.withPool left.graph.bank.pool }
  | callUpper {left : Interpreter β α μ} {progress : Bool} (fuel : Nat)
      (run : now.upper.interpret fuel = some (.ok progress, left)) :
      Performs now .callUpper
        { upper := left, lower := now.lower.withPool left.graph.bank.pool }
  | callLower {left : Interpreter β α μ} {progress : Bool} (fuel : Nat)
      (run : now.lower.interpret fuel = some (.ok progress, left)) :
      Performs now .callLower
        { upper := now.upper.withPool left.graph.bank.pool, lower := left }

inductive Proceeds [Recipient β μ] [Work β α μ] :
    Joined β α μ → List (Operation α) → Joined β α μ → Prop where
  | done {now : Joined β α μ} : Proceeds now [] now
  | next {now middle left : Joined β α μ} {operation : Operation α}
      {operations : List (Operation α)} (first : now.Performs operation middle)
      (rest : Proceeds middle operations left) : Proceeds now (operation :: operations) left

private theorem Proceeds.split [Recipient β μ] [Work β α μ] {now left : Joined β α μ}
    {front back : List (Operation α)} (history : Proceeds now (front ++ back) left) :
    ∃ middle, Proceeds now front middle ∧ Proceeds middle back left := by
  induction front generalizing now with
  | nil => exact ⟨now, .done, history⟩
  | cons operation rest inductionHypothesis =>
      cases history with
      | next first later =>
          obtain ⟨middle, earlier, remaining⟩ := inductionHypothesis later
          exact ⟨middle, .next first earlier, remaining⟩

end Joined

/-- A row that looks at the shared buffers again after somebody else has used one of them. -/
theorem Interpreter.Continues.share [Work β α μ] {start now active left : Interpreter β α μ}
    {row : start.graph.Row} {kind : WorkerId → β → Prop} {offset seam key : Nat}
    {marking later : Marking β α} {channel : ChannelId}
    (continues : Interpreter.Continues start kind (row.Shows offset marking) now)
    (unshared : start.graph.bank.Unshared)
    (pool : active.graph.bank.pool = now.graph.bank.pool)
    (spares : active.graph.bank.Spares left.graph.bank)
    (only : ∀ other, some other ∈ start.graph.bank.keys →
      some other ∈ active.graph.bank.keys → other = key)
    (seamIn : seam ≤ row.bodies.length)
    (here : start.graph.bank.slots[row.link seam]? = some (.shared key))
    (there : left.graph.bank.slots[channel]? = some (.shared key))
    (holds : (left.graph.bank.channel channel).items = later.items (offset + seam))
    (states : ∀ index, index < row.bodies.length →
      later.state (offset + index) = marking.state (offset + index))
    (others : ∀ index, index ≤ row.bodies.length → index ≠ seam →
      later.items (offset + index) = marking.items (offset + index)) :
    Interpreter.Continues start kind (row.Shows offset later)
      (now.withPool left.graph.bank.pool) := by
  have frame : (now.withPool left.graph.bank.pool).frame = now.frame :=
    Interpreter.frame_withBank rfl
  have keys : now.graph.bank.keys = start.graph.bank.keys :=
    congrArg (fun frame => frame.graph.keys) continues.frame_eq
  refine ⟨frame.trans continues.frame_eq,
    continues.embodied.congr rfl (congrArg InterpreterFrame.graph frame), ?_, ?_⟩
  · intro index inside
    rw [states index inside]
    exact continues.path.state index inside
  · intro index inside
    by_cases same : index = seam
    · subst same
      rw [← holds, Bank.channel_of_shared (Bank.keys_get_shared.mpr there)]
      have place : (now.withPool left.graph.bank.pool).graph.bank.keys[row.link index]? =
          some (some key) := by
        change now.graph.bank.keys[row.link index]? = _
        rw [keys]
        exact Bank.keys_get_shared.mpr here
      exact congrArg Channel.items (Bank.channel_of_shared place)
    · rw [others index inside same, ← continues.path.items index inside]
      refine congrArg Channel.items (Bank.channel_pooled ?_)
      intro other place
      rw [keys] at place
      -- The buffer belongs to this side alone.
      have foreign : some other ∉ active.graph.bank.keys := by
        intro common
        have sameKey := only other (List.mem_of_getElem? place) common
        subst sameKey
        exact same (row.apart index seam inside seamIn
          (unshared _ _ other (Bank.keys_get_shared.mp place) here))
      rw [spares.buffers other foreign, pool]

/-! ### Both sides show one line -/

namespace Joined

section

variable [Signature β] [Work β α μ] {upperStart lowerStart : Interpreter β α μ}

/-- The last channel of the upper pipeline and the first one of the lower pipeline are handles
on one shared buffer, and the two have no other buffer in common. -/
structure Seam (upper : upperStart.Pipeline) (lower : lowerStart.Pipeline) (key : Nat) :
    Prop where
  upperEnd : upperStart.graph.bank.slots[upper.row.link upper.row.bodies.length]? =
    some (.shared key)
  lowerEnd : lowerStart.graph.bank.slots[lower.row.link 0]? = some (.shared key)
  only : ∀ other, some other ∈ upperStart.graph.bank.keys →
    some other ∈ lowerStart.graph.bank.keys → other = key
  pool : upperStart.graph.bank.pool = lowerStart.graph.bank.pool

/-- The two pipelines are the stretches of a line above and below the seam. -/
structure Aligned (upper : upperStart.Pipeline) (lower : lowerStart.Pipeline) (key : Nat)
    (bodies : List β) (kind : Nat → β → Prop)
    (act : Nat → β → Nat → (Nat → List α) → Response β α) : Prop where
  seam : Seam upper lower key
  above : upperStart.Stretch upper.row 0 bodies kind act
  below : lowerStart.Stretch lower.row upper.row.bodies.length bodies kind act

/-- Both interpreters show the marking of the line and see the same shared buffers. -/
structure Abreast (upper : upperStart.Pipeline) (lower : lowerStart.Pipeline)
    (kind : Nat → β → Prop) (marking : Marking β α) (now : Joined β α μ) : Prop where
  above : Interpreter.Continues upperStart (upper.row.kinds 0 kind) (upper.row.Shows 0 marking)
    now.upper
  below : Interpreter.Continues lowerStart (lower.row.kinds upper.row.bodies.length kind)
    (lower.row.Shows upper.row.bodies.length marking) now.lower
  pool : now.upper.graph.bank.pool = now.lower.graph.bank.pool

/-- The whole pipeline has the filters of the upper one and then those of the lower one. In the
beginning its channels hold what theirs do. -/
structure Cut {wholeStart : Interpreter β α μ} (upper : upperStart.Pipeline)
    (lower : lowerStart.Pipeline) (whole : wholeStart.Pipeline) : Prop where
  bodies : whole.row.bodies = upper.row.bodies ++ lower.row.bodies
  upperItems : ∀ index, index ≤ upper.row.bodies.length →
    (upperStart.graph.bank.channel (upper.row.link index)).items =
      (wholeStart.graph.bank.channel (whole.row.link index)).items
  lowerItems : ∀ index, index ≤ lower.row.bodies.length →
    (lowerStart.graph.bank.channel (lower.row.link index)).items =
      (wholeStart.graph.bank.channel (whole.row.link (upper.row.bodies.length + index))).items

/-- A run of the line leads from the one marking to the other and brings in these elements at
its first channel. -/
def Brings (bodies : List β) (act : Nat → β → Nat → (Nat → List α) → Response β α)
    (elements : List α) (marking later : Marking β α) : Prop :=
  ∃ events, (Net.line bodies act).Run marking events later ∧
    ∀ channel, Net.incoming events channel = if channel = 0 then elements else []

theorem Brings.trans {bodies : List β} {act : Nat → β → Nat → (Nat → List α) → Response β α}
    {elements more : List α} {marking middle later : Marking β α}
    (first : Brings bodies act elements marking middle)
    (second : Brings bodies act more middle later) :
    Brings bodies act (elements ++ more) marking later := by
  obtain ⟨events, run, brings⟩ := first
  obtain ⟨further, rest, bringsMore⟩ := second
  refine ⟨events ++ further, run.append rest, ?_⟩
  intro channel
  rw [Net.incoming_append, brings, bringsMore]
  split <;> rfl

theorem brings_of_fires {bodies : List β} {act : Nat → β → Nat → (Nat → List α) → Response β α}
    {marking later : Marking β α} {events : List (Net.Event α)}
    (run : (Net.line bodies act).Run marking events later)
    (fires : ∀ event ∈ events, ∃ id, event = .fire id) :
    Brings bodies act [] marking later := by
  refine ⟨events, run, ?_⟩
  intro channel
  rw [Net.incoming_of_fires fires, ite_self]

/-- Everybody before the given place starves. -/
def Quiet (bodies : List β) (marking : Marking β α) (depth : Nat) : Prop :=
  ∀ position, position < depth → Net.Starves bodies marking position

end

section

variable [Signature β] [Recipient β μ] [Work β α μ]
  {upperStart lowerStart left : Interpreter β α μ}
  {upper : upperStart.Pipeline} {lower : lowerStart.Pipeline} {key : Nat} {bodies : List β}
  {kind : Nat → β → Prop} {act : Nat → β → Nat → (Nat → List α) → Response β α}
  {marking later : Marking β α} {now final : Joined β α μ}

namespace Abreast

variable (abreast : Abreast upper lower kind marking now)
  (aligned : Aligned upper lower key bodies kind act)
include abreast aligned

omit [Recipient β μ] in
/-- After the upper side has acted, the lower side sees the buffer as it is now. -/
theorem of_upper (above : Interpreter.Continues upperStart (upper.row.kinds 0 kind)
      (upper.row.Shows 0 later) left)
    (spares : now.upper.graph.bank.Spares left.graph.bank)
    (states : ∀ index, index < lower.row.bodies.length →
      later.state (upper.row.bodies.length + index) =
        marking.state (upper.row.bodies.length + index))
    (others : ∀ index, index ≤ lower.row.bodies.length → index ≠ 0 →
      later.items (upper.row.bodies.length + index) =
        marking.items (upper.row.bodies.length + index)) :
    Abreast upper lower kind later
      { upper := left, lower := now.lower.withPool left.graph.bank.pool } := by
  have keys : now.upper.graph.bank.keys = upperStart.graph.bank.keys :=
    congrArg (fun frame => frame.graph.keys) abreast.above.frame_eq
  have there : left.graph.bank.slots[upper.row.link upper.row.bodies.length]? =
      some (.shared key) := by
    rw [← Bank.keys_get_shared, spares.keys_eq, keys, Bank.keys_get_shared]
    exact aligned.seam.upperEnd
  have holds := above.path.items upper.row.bodies.length (Nat.le_refl _)
  rw [Nat.zero_add] at holds
  refine ⟨above, ?_, rfl⟩
  refine abreast.below.share lower.unshared abreast.pool spares ?_ (Nat.zero_le _)
    aligned.seam.lowerEnd there holds states others
  intro other inLower inUpper
  exact aligned.seam.only other (keys ▸ inUpper) inLower

omit [Recipient β μ] in
/-- After the lower side has acted, the upper side sees the buffer as it is now. -/
theorem of_lower (below : Interpreter.Continues lowerStart
      (lower.row.kinds upper.row.bodies.length kind)
      (lower.row.Shows upper.row.bodies.length later) left)
    (spares : now.lower.graph.bank.Spares left.graph.bank)
    (states : ∀ index, index < upper.row.bodies.length → later.state index = marking.state index)
    (others : ∀ index, index < upper.row.bodies.length →
      later.items index = marking.items index) :
    Abreast upper lower kind later
      { upper := now.upper.withPool left.graph.bank.pool, lower := left } := by
  have keys : now.lower.graph.bank.keys = lowerStart.graph.bank.keys :=
    congrArg (fun frame => frame.graph.keys) abreast.below.frame_eq
  have there : left.graph.bank.slots[lower.row.link 0]? = some (.shared key) := by
    rw [← Bank.keys_get_shared, spares.keys_eq, keys, Bank.keys_get_shared]
    exact aligned.seam.lowerEnd
  have holds := below.path.items 0 (Nat.zero_le _)
  rw [Nat.add_comm] at holds
  refine ⟨?_, below, rfl⟩
  refine abreast.above.share upper.unshared abreast.pool.symm spares ?_ (Nat.le_refl _)
    aligned.seam.upperEnd there holds ?_ ?_
  · intro other inUpper inLower
    exact aligned.seam.only other inUpper (keys ▸ inLower)
  · intro index inside
    rw [Nat.zero_add]
    exact states index inside
  · intro index inside different
    rw [Nat.zero_add]
    exact others index (by omega)

omit [Recipient β μ] in
private theorem push {token : BoundaryToken} {elements : List α} {boundary : BoundaryChannel}
    (known : now.upper.boundary? token = some boundary) (input : boundary.direction = .input)
    (push : now.upper.pushAll? token elements = some left) :
    ∃ later, Brings bodies act elements marking later ∧
      Abreast upper lower kind later
        { upper := left, lower := now.lower.withPool left.graph.bank.pool } := by
  obtain ⟨filled, _, above⟩ := aligned.above.push abreast.above known input push
  refine ⟨_, ⟨_, Net.Run.pushes Net.line_foreign elements marking,
    Net.incoming_pushes 0 elements⟩, ?_⟩
  refine abreast.of_upper aligned above ?_ (fun _ _ => rfl) ?_
  · obtain ⟨channel, _, rfl⟩ := Option.map_eq_some_iff.mp push
    exact Bank.spares_set _ _ _
  · intro index inside different
    have beyond : upper.row.bodies.length + index ≠ 0 := by omega
    dsimp only
    rw [if_neg beyond, List.append_nil]

/-- A call of the upper side leaves everybody above the seam starving. -/
theorem callUpper {fuel : Nat} {progress : Bool}
    (run : now.upper.interpret fuel = some (.ok progress, left)) :
    ∃ later, Brings bodies act [] marking later ∧
      Abreast upper lower kind later
        { upper := left, lower := now.lower.withPool left.graph.bank.pool } ∧
      Quiet bodies later upper.row.bodies.length ∧
      (Quiet bodies marking (upper.row.bodies.length + lower.row.bodies.length) →
        Quiet bodies later (upper.row.bodies.length + lower.row.bodies.length)) := by
  obtain ⟨events, later, steps, fires, above, starves⟩ := aligned.above.call abreast.above run
  simp only [Nat.zero_add] at fires starves
  refine ⟨later, brings_of_fires steps ?_, ?_, starves, ?_⟩
  · intro event member
    obtain ⟨position, _, same⟩ := fires event member
    exact ⟨position, same⟩
  · refine abreast.of_upper aligned above (Interpreter.interpret_spares run) ?_ ?_
    · intro index inside
      apply steps.state_of_idle
      intro fired
      obtain ⟨position, within, same⟩ := fires _ fired
      cases same
      omega
    · intro index inside different
      apply steps.items_of_apart
      intro event member
      obtain ⟨position, within, same⟩ := fires event member
      exact ⟨position, same, by omega, by omega⟩
  · intro quiet
    obtain ⟨_, rfl⟩ := steps.eq_nil_of_starves (by
      intro event member
      obtain ⟨position, within, same⟩ := fires event member
      exact ⟨position, same, quiet position (Nat.lt_add_right _ within)⟩)
    exact quiet

/-- If everybody above the seam starves, a call of the lower side leaves everybody starving. -/
theorem callLower {fuel : Nat} {progress : Bool}
    (run : now.lower.interpret fuel = some (.ok progress, left)) :
    ∃ later, Brings bodies act [] marking later ∧
      Abreast upper lower kind later
        { upper := now.upper.withPool left.graph.bank.pool, lower := left } ∧
      (Quiet bodies marking upper.row.bodies.length →
        Quiet bodies later (upper.row.bodies.length + lower.row.bodies.length)) := by
  obtain ⟨events, later, steps, fires, below, starves⟩ := aligned.below.call abreast.below run
  have above (index : Nat) (inside : index < upper.row.bodies.length) :
      later.items index = marking.items index := by
    apply steps.items_of_apart
    intro event member
    obtain ⟨position, within, same⟩ := fires event member
    exact ⟨_, same, by omega, by omega⟩
  refine ⟨later, brings_of_fires steps ?_, ?_, ?_⟩
  · intro event member
    obtain ⟨position, _, same⟩ := fires event member
    exact ⟨_, same⟩
  · refine abreast.of_lower aligned below (Interpreter.interpret_spares run) ?_ above
    intro index inside
    apply steps.state_of_idle
    intro fired
    obtain ⟨position, within, same⟩ := fires _ fired
    have here : index = upper.row.bodies.length + position := Net.Event.fire.inj same
    omega
  · intro quiet position within
    by_cases inside : position < upper.row.bodies.length
    · obtain ⟨body, required, place, needed, short⟩ := quiet position inside
      rw [← above position inside] at short
      exact ⟨body, required, place, needed, short⟩
    · have starved := starves (position - upper.row.bodies.length) (by omega)
      rw [Nat.add_sub_cancel' (Nat.le_of_not_lt inside)] at starved
      exact starved

/-- An operation goes on with a run of the line. A call wakes nobody if everybody starves down
to the seam or to the end. -/
theorem perform {operation : Operation α} (performs : now.Performs operation final) :
    ∃ later, Brings bodies act (operation.pushed?.getD []) marking later ∧
      Abreast upper lower kind later final ∧
      (operation.pushed? = none → ∀ depth, depth = upper.row.bodies.length ∨
        depth = upper.row.bodies.length + lower.row.bodies.length →
        Quiet bodies marking depth → Quiet bodies later depth) := by
  cases performs with
  | push token elements known input push =>
      obtain ⟨later, brings, further⟩ := abreast.push aligned known input push
      exact ⟨later, brings, further, nofun⟩
  | callUpper fuel run =>
      obtain ⟨later, brings, further, quiet, still⟩ := abreast.callUpper aligned run
      refine ⟨later, brings, further, ?_⟩
      intro _ depth ends before
      rcases ends with rfl | rfl
      · exact quiet
      · exact still before
  | callLower fuel run =>
      obtain ⟨later, brings, further, settles⟩ := abreast.callLower aligned run
      refine ⟨later, brings, further, ?_⟩
      intro _ depth ends before position within
      rcases ends with rfl | rfl
      · exact settles before position (Nat.lt_add_right _ within)
      · exact settles (fun earlier inside => before earlier (Nat.lt_add_right _ inside)) position
          within

omit abreast in
private theorem proceed {operations : List (Operation α)} (history : Proceeds now operations final)
    (abreast : Abreast upper lower kind marking now) :
    ∃ later, Brings bodies act (pushes operations).flatten marking later ∧
      Abreast upper lower kind later final ∧
      (pushes operations = [] → ∀ depth, depth = upper.row.bodies.length ∨
        depth = upper.row.bodies.length + lower.row.bodies.length →
        Quiet bodies marking depth → Quiet bodies later depth) := by
  induction history generalizing marking with
  | done =>
      exact ⟨marking, brings_of_fires .done nofun, abreast, fun _ _ _ quiet => quiet⟩
  | @next now middle final operation operations first rest inductionHypothesis =>
      obtain ⟨next, brings, between, kept⟩ := abreast.perform aligned first
      obtain ⟨later, bringsMore, ended, keptMore⟩ := inductionHypothesis between
      refine ⟨later, ?_, ended, ?_⟩
      · have both := brings.trans bringsMore
        unfold pushes at both ⊢
        rw [List.filterMap_cons]
        cases pushed : operation.pushed? with
        | none =>
            rw [pushed] at both
            exact both
        | some elements =>
            rw [pushed] at both
            exact both
      · intro silent depth ends quiet
        unfold pushes at silent
        rw [List.filterMap_cons] at silent
        cases pushed : operation.pushed? with
        | none =>
            rw [pushed] at silent
            exact keptMore silent depth ends (kept pushed depth ends quiet)
        | some elements =>
            rw [pushed] at silent
            cases silent

/-- Once the upper side has been called after the last push, and then the lower side,
everybody starves. -/
theorem settle {before between after : List (Operation α)}
    (calls : pushes (between ++ after) = [])
    (history : Proceeds now (before ++ .callUpper :: (between ++ .callLower :: after)) final) :
    ∃ later, Brings bodies act (pushes before).flatten marking later ∧
      Abreast upper lower kind later final ∧
      Quiet bodies later (upper.row.bodies.length + lower.row.bodies.length) := by
  have silent : pushes between = [] ∧ pushes after = [] := by
    unfold pushes at calls ⊢
    rw [List.filterMap_append] at calls
    exact List.append_eq_nil_iff.mp calls
  obtain ⟨fed, first, rest⟩ := history.split
  obtain ⟨atFed, brings, fedAbreast, _⟩ := proceed aligned first abreast
  cases rest with
  | next call rest =>
      cases call with
      | callUpper fuel run =>
          obtain ⟨atCarried, carries, carriedAbreast, quiet, _⟩ := fedAbreast.callUpper aligned run
          obtain ⟨waiting, second, rest⟩ := rest.split
          obtain ⟨atWaiting, waits, waitingAbreast, stillQuiet⟩ :=
            proceed aligned second carriedAbreast
          cases rest with
          | next call rest =>
              cases call with
              | callLower fuel run =>
                  obtain ⟨atSettled, settles, settledAbreast, allQuiet⟩ :=
                    waitingAbreast.callLower aligned run
                  obtain ⟨later, ends, endAbreast, stillAll⟩ :=
                    proceed aligned rest settledAbreast
                  have whole := brings.trans (carries.trans (waits.trans (settles.trans ends)))
                  rw [silent.1, silent.2] at whole
                  simp only [List.flatten_nil, List.append_nil] at whole
                  exact ⟨later, whole, endAbreast, stillAll silent.2 _ (.inr rfl)
                    (allQuiet (stillQuiet silent.1 _ (.inl rfl) quiet))⟩

end Abreast

namespace Cut

variable {wholeStart : Interpreter β α μ} {whole : wholeStart.Pipeline}
  (cut : Cut upper lower whole)
include cut

omit [Recipient β μ] in
theorem within_upper : upper.row.Within 0 whole.row.bodies := by
  intro index body place
  have inside := (List.getElem?_eq_some_iff.mp place).1
  rw [cut.bodies, Nat.zero_add, List.getElem?_append_left inside]
  exact place

omit [Recipient β μ] in
theorem within_lower : lower.row.Within upper.row.bodies.length whole.row.bodies := by
  intro index body place
  rw [cut.bodies, List.getElem?_append_right (Nat.le_add_right _ _), Nat.add_sub_cancel_left]
  exact place

omit [Recipient β μ] in
private theorem abreast (aligned : Aligned upper lower key whole.row.bodies kind act) :
    Abreast upper lower kind (whole.row.inLine wholeStart.graph.marking)
      { upper := upperStart, lower := lowerStart } := by
  refine ⟨⟨rfl, aligned.above.embodied, ?_, ?_⟩, ⟨rfl, aligned.below.embodied, ?_, ?_⟩,
    aligned.seam.pool⟩
  · intro index inside
    have place := List.getElem?_eq_getElem inside
    have wholePlace := cut.within_upper index _ place
    rw [upper.row.state_of_fresh upper.built.fresh place]
    exact (whole.row.state_of_fresh whole.built.fresh wholePlace).symm
  · intro index inside
    rw [Nat.zero_add]
    exact cut.upperItems index inside
  · intro index inside
    have place := List.getElem?_eq_getElem inside
    have wholePlace := cut.within_lower index _ place
    rw [lower.row.state_of_fresh lower.built.fresh place]
    exact (whole.row.state_of_fresh whole.built.fresh wholePlace).symm
  · intro index inside
    exact cut.lowerItems index inside

end Cut

omit [Recipient β μ] in
/-- After the same pushes, only firings are left to do for the whole pipeline. -/
theorem Brings.ahead {wholeStart fed : Interpreter β α μ} {whole : wholeStart.Pipeline}
    (stretch : wholeStart.Stretch whole.row 0 whole.row.bodies kind act)
    {batches : List (List α)}
    (brings : Brings whole.row.bodies act batches.flatten
      (whole.row.inLine wholeStart.graph.marking) later)
    {token : BoundaryToken} {boundary : BoundaryChannel}
    (known : wholeStart.boundary? token = some boundary) (input : boundary.direction = .input)
    (push : batches.foldlM (fun now elements => now.pushAll? token elements) wholeStart =
      some fed) :
    ∃ count, Interpreter.Continues wholeStart (whole.row.kinds 0 kind)
      (Interpreter.Ahead whole.row 0 whole.row.bodies act later count) fed := by
  obtain ⟨events, run, given⟩ := brings
  have begins : Interpreter.Continues wholeStart (whole.row.kinds 0 kind)
      (whole.row.Shows 0 (whole.row.inLine wholeStart.graph.marking)) wholeStart :=
    ⟨rfl, stretch.embodied, whole.row.shows_inLine _⟩
  have continues := stretch.pushes known input begins push
  -- The elements that the run brings in bit by bit come in at once.
  have steps : (Net.line whole.row.bodies act).Run _ (batches.flatten.map (.push 0)) _ :=
    Net.Run.pushes Net.line_foreign batches.flatten (whole.row.inLine wholeStart.graph.marking)
  have ahead : Net.incoming events 0 = batches.flatten ++ [] := by
    rw [given, if_pos rfl, List.append_nil]
  obtain ⟨rest, remaining, parts⟩ := run.advance_pushes steps Net.line_sound ahead
  have nothing (channel : ChannelId) : Net.incoming rest channel = [] := by
    have split := parts channel
    rw [given] at split
    exact List.append_cancel_left (split.symm.trans (List.append_nil _).symm)
  have fires : ∀ event ∈ rest, ∃ index, index < whole.row.bodies.length ∧
      event = .fire (0 + index) := by
    intro event member
    obtain ⟨index, rfl⟩ := Net.fires_of_incoming nothing event member
    exact ⟨index, remaining.fire_lt member, by rw [Nat.zero_add]⟩
  exact ⟨rest.length, continues.frame_eq, continues.embodied, _, rest, continues.path, remaining,
    fires, rfl⟩

/-- The last channel of the lower part holds what that of the whole holds, and every filter has
the same body and count in its part and in the whole. -/
structure Agrees {wholeStart : Interpreter β α μ} (upper : upperStart.Pipeline)
    (lower : lowerStart.Pipeline) (whole : wholeStart.Pipeline) (final : Joined β α μ)
    (left : Interpreter β α μ) : Prop where
  output : (final.lower.graph.bank.channel (lower.row.link lower.row.bodies.length)).items =
    (left.graph.bank.channel (whole.row.link whole.row.bodies.length)).items
  upperStates : ∀ index, index < upper.row.bodies.length →
    final.upper.graph.marking.state (upper.row.place index) =
      left.graph.marking.state (whole.row.place index)
  lowerStates : ∀ index, index < lower.row.bodies.length →
    final.lower.graph.marking.state (lower.row.place index) =
      left.graph.marking.state (whole.row.place (upper.row.bodies.length + index))

omit [Recipient β μ] in
private theorem Abreast.agrees {wholeStart : Interpreter β α μ} {whole : wholeStart.Pipeline}
    (abreast : Abreast upper lower kind later final) (cut : Cut upper lower whole)
    (shows : whole.row.Shows 0 later left.graph.marking) :
    Agrees upper lower whole final left := by
  have length : whole.row.bodies.length = upper.row.bodies.length + lower.row.bodies.length := by
    rw [cut.bodies, List.length_append]
  constructor
  · have lowerEnd := abreast.below.path.items lower.row.bodies.length (Nat.le_refl _)
    have wholeEnd := shows.items whole.row.bodies.length (Nat.le_refl _)
    rw [Nat.zero_add] at wholeEnd
    rw [← length, ← wholeEnd] at lowerEnd
    exact lowerEnd
  · intro index inside
    rw [abreast.above.path.state index inside]
    exact (shows.state index (by omega)).symm
  · intro index inside
    have there := shows.state (upper.row.bodies.length + index) (by omega)
    rw [Nat.zero_add] at there
    rw [abreast.below.path.state index inside, there]

/-- A pipeline of reliable filters, cut in two and run by two interpreters that are joined at a
shared buffer. Elements are pushed into the upper part, and the parts are called, in any order
and with success; an upper call comes after the last push, and a lower call after that. Then
one successful call of an interpreter over the uncut pipeline, after the same pushes, leaves
the same elements at the end, in this order, and every filter with the same body and count.
Without a delegate this call does succeed. -/
theorem joined_pipelines_compute_whole
    {upperStart lowerStart wholeStart fed : Interpreter β α μ} (upper : upperStart.Pipeline)
    (lower : lowerStart.Pipeline) (whole : wholeStart.Pipeline) {key : Nat}
    (seam : Seam upper lower key) (cut : Cut upper lower whole)
    {before between after : List (Operation α)} {final : Joined β α μ}
    (calls : pushes (between ++ after) = [])
    (history : Proceeds { upper := upperStart, lower := lowerStart }
      (before ++ .callUpper :: (between ++ .callLower :: after)) final)
    {token : BoundaryToken} {boundary : BoundaryChannel}
    (known : wholeStart.boundary? token = some boundary) (input : boundary.direction = .input)
    (push : (pushes before).foldlM (fun now elements => now.pushAll? token elements) wholeStart =
      some fed) :
    (∀ fuel progress left, fed.interpret fuel = some (.ok progress, left) →
      Agrees upper lower whole final left) ∧
    (wholeStart.delegate = {} → ∃ enough progress left, ∀ fuel, enough ≤ fuel →
      fed.interpret fuel = some (.ok progress, left)) := by
  obtain ⟨kind, act, conducted⟩ := exists_conducted whole.reliable
  have within : whole.row.Within 0 whole.row.bodies := by
    intro index body place
    rw [Nat.zero_add]
    exact place
  have stretch := whole.stretch within conducted
  have aligned : Aligned upper lower key whole.row.bodies kind act :=
    ⟨seam, upper.stretch cut.within_upper conducted, lower.stretch cut.within_lower conducted⟩
  obtain ⟨later, brings, ended, quiet⟩ :=
    (cut.abreast aligned).settle aligned calls history
  have starves : ∀ index, index < whole.row.bodies.length →
      Net.Starves whole.row.bodies later (0 + index) := by
    intro index inside
    rw [cut.bodies, List.length_append] at inside
    rw [Nat.zero_add]
    exact quiet index inside
  obtain ⟨count, continues⟩ := brings.ahead stretch known input push
  constructor
  · intro fuel progress left run
    exact ended.agrees cut (stretch.arrives starves continues run).path
  · intro heedless
    exact stretch.completes starves heedless continues

end

/-! ### Taking elements by twos and then by threes -/

def twosBuilder : Builder Standard Nat :=
  let builder := (Builder.addWorker {} .filter ⟨"twos", .roundRobinSplit 2⟩).2
  let builder := (builder.attachInput 0 (.own (.ofKind .array))).2
  (builder.attachOutput 0 (.shared 5)).2

def threesBuilder : Builder Standard Nat :=
  let builder :=
    (Builder.addWorker {} .filter ⟨"threes", .roundRobinSplit 3⟩).2
  let builder := (builder.attachInput 0 (.shared 5)).2
  (builder.attachOutput 0 (.own (.ofKind .array))).2

def uncutBuilder : Builder Standard Nat :=
  let builder := (Builder.addWorker {} .filter ⟨"twos", .roundRobinSplit 2⟩).2
  let builder := (builder.addWorker .filter ⟨"threes", .roundRobinSplit 3⟩).2
  let builder := (builder.attachInput 0 (.own (.ofKind .array))).2
  let builder := (builder.connect 0 1).2
  (builder.attachOutput 1 (.own (.ofKind .array))).2

def interpreterOf (builder : Builder Standard Nat) : Interpreter Standard Nat Unit :=
  let graph : Graph Standard Nat Unit := builder.graph
  .onSection graph graph.workerIds graph.constraints

theorem reliable_portions {weight : Nat} (positive : 0 < weight) (finite : weight < maxCount) :
    Reliable Nat Unit (Standard.roundRobinSplit weight) := by
  have single : weight * 1 < maxCount := (Nat.mul_one weight).symm ▸ finite
  have countable : (Standard.roundRobinSplit weight).Countable .filter := Nat.le_of_lt single
  refine reliable_of_abides (Standard.abides rfl countable ?_ ⟨0, Nat.one_pos, ?_⟩ false)
  · intro index inside
    obtain rfl : index = 0 := Nat.lt_one_iff.mp inside
    exact Nat.ne_of_lt single
  · exact Nat.mul_pos positive Nat.one_pos

def twosPipeline : (interpreterOf twosBuilder).Pipeline where
  row := .numbered [.roundRobinSplit 2] rfl (by
    intro index body place
    match index, place with
    | 0, rfl => exact ⟨_, rfl, rfl, rfl, rfl⟩)
  built := ⟨twosBuilder, .attachOutput _ _ (.attachInput _ _ (.addWorker _ _ (.fresh _))), rfl⟩
  unshared := Bank.unshared_of_keys (by decide)
  undeclared := rfl
  reliable := List.forall_mem_singleton.mpr (reliable_portions (by decide) (by decide))
  opened := ⟨interpreterOf twosBuilder, {}, none, rfl, rfl⟩
  unlimited := rfl

def threesPipeline : (interpreterOf threesBuilder).Pipeline where
  row := .numbered [.roundRobinSplit 3] rfl (by
    intro index body place
    match index, place with
    | 0, rfl => exact ⟨_, rfl, rfl, rfl, rfl⟩)
  built := ⟨threesBuilder, .attachOutput _ _ (.attachInput _ _ (.addWorker _ _ (.fresh _))), rfl⟩
  unshared := Bank.unshared_of_keys (by decide)
  undeclared := rfl
  reliable := List.forall_mem_singleton.mpr (reliable_portions (by decide) (by decide))
  opened := ⟨interpreterOf threesBuilder, {}, none, rfl, rfl⟩
  unlimited := rfl

def uncutPipeline : (interpreterOf uncutBuilder).Pipeline where
  row := .numbered [.roundRobinSplit 2, .roundRobinSplit 3] rfl (by
    intro index body place
    match index, place with
    | 0, rfl => exact ⟨_, rfl, rfl, rfl, rfl⟩
    | 1, rfl => exact ⟨_, rfl, rfl, rfl, rfl⟩)
  built := ⟨uncutBuilder,
    .attachOutput _ _ (.connect _ _ (.attachInput _ _ (.addWorker _ _ (.addWorker _ _
      (.fresh _))))), rfl⟩
  unshared := Bank.unshared_of_own (by decide)
  undeclared := rfl
  reliable := List.forall_mem_cons.mpr ⟨reliable_portions (by decide) (by decide),
    List.forall_mem_singleton.mpr (reliable_portions (by decide) (by decide))⟩
  opened := ⟨interpreterOf uncutBuilder, {}, none, rfl, rfl⟩
  unlimited := rfl

private theorem portions_seam : Seam twosPipeline threesPipeline 5 where
  upperEnd := rfl
  lowerEnd := rfl
  only := by
    intro other inUpper _
    have among : some other ∈ [none, some 5] := inUpper
    simpa using among
  pool := rfl

private theorem portions_cut : Cut twosPipeline threesPipeline uncutPipeline where
  bodies := rfl
  upperItems := by
    intro index inside
    change index ≤ 1 at inside
    obtain rfl | rfl : index = 0 ∨ index = 1 := by omega
    · rfl
    · rfl
  lowerItems := by
    intro index inside
    change index ≤ 1 at inside
    obtain rfl | rfl : index = 0 ∨ index = 1 := by omega
    · rfl
    · rfl

theorem joined_pipelines_compute_whole_portions : ∃ final fed enough progress left,
    Proceeds { upper := interpreterOf twosBuilder, lower := interpreterOf threesBuilder }
      [.push [1, 2, 3], .callUpper, .callLower, .push [4, 5, 6, 7], .callUpper, .callLower,
        .callUpper] final ∧
      [[1, 2, 3], [4, 5, 6, 7]].foldlM (fun now elements => now.pushAll? 0 elements)
        (interpreterOf uncutBuilder) = some fed ∧
      (∀ fuel, enough ≤ fuel → fed.interpret fuel = some (.ok progress, left)) ∧
      (left.graph.bank.channel 2).items = [1, 2, 3, 4, 5, 6] ∧
      left.graph.marking.state 0 = some (.roundRobinSplit 2, 3) ∧
      left.graph.marking.state 1 = some (.roundRobinSplit 3, 2) := by
  obtain ⟨final, history, items, upperState, lowerState⟩ : ∃ final,
      Proceeds { upper := interpreterOf twosBuilder, lower := interpreterOf threesBuilder }
        [.push [1, 2, 3], .callUpper, .callLower, .push [4, 5, 6, 7], .callUpper, .callLower,
          .callUpper] final ∧ (final.lower.graph.bank.channel 1).items = [1, 2, 3, 4, 5, 6] ∧
        final.upper.graph.marking.state 0 = some (.roundRobinSplit 2, 3) ∧
        final.lower.graph.marking.state 0 = some (.roundRobinSplit 3, 2) :=
    ⟨_, .next (.push 0 _ rfl rfl rfl) (.next (.callUpper 9 rfl) (.next (.callLower 9 rfl)
      (.next (.push 0 _ rfl rfl rfl) (.next (.callUpper 9 rfl) (.next (.callLower 9 rfl)
        (.next (.callUpper 9 rfl) .done)))))), rfl, rfl, rfl⟩
  obtain ⟨fed, push⟩ : ∃ fed, [[1, 2, 3], [4, 5, 6, 7]].foldlM
      (fun now elements => now.pushAll? 0 elements) (interpreterOf uncutBuilder) = some fed :=
    ⟨_, rfl⟩
  have parted : Proceeds
      { upper := interpreterOf twosBuilder, lower := interpreterOf threesBuilder }
      ([.push [1, 2, 3], .callUpper, .callLower, .push [4, 5, 6, 7]] ++
        .callUpper :: ([] ++ .callLower :: [.callUpper])) final := history
  obtain ⟨agree, completes⟩ :=
    joined_pipelines_compute_whole twosPipeline threesPipeline uncutPipeline portions_seam
      portions_cut rfl parted rfl rfl push
  obtain ⟨enough, progress, left, run⟩ := completes rfl
  have same := agree enough progress left (run enough (Nat.le_refl enough))
  exact ⟨final, fed, enough, progress, left, history, push, run, same.output.symm.trans items,
    (same.upperStates 0 Nat.one_pos).symm.trans upperState,
    (same.lowerStates 0 Nat.one_pos).symm.trans lowerState⟩

end Joined

end DemandFlow
