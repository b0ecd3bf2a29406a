import DemandFlow.Proofs.Stream.Tracking

/-!
Nets of deterministic processes. A process may fire when each input holds enough, and what it
then takes, puts out and turns into depends on nothing but its state and the elements in
front. Elements also come in from outside, at channels that no process feeds. A channel has
one reader and one writer, so events of different owners commute, and an event that a run has
still ahead of it can be taken out and done at once.
-/

set_option autoImplicit false

namespace DemandFlow

variable {β α : Type}

namespace Layout.Sound

variable {layout : Layout β} (sound : layout.Sound)
include sound

theorem reader_unique {left right : WorkerId} {channel : ChannelId}
    (leftReads : channel ∈ layout.inputs left) (rightReads : channel ∈ layout.inputs right) :
    left = right := by
  obtain ⟨leftIndex, leftAt⟩ := List.mem_iff_getElem?.mp leftReads
  obtain ⟨rightIndex, rightAt⟩ := List.mem_iff_getElem?.mp rightReads
  exact (sound.inputOnce left right leftIndex rightIndex channel leftAt rightAt).1

theorem writer_unique {left right : WorkerId} {channel : ChannelId}
    (leftWrites : channel ∈ layout.outputs left) (rightWrites : channel ∈ layout.outputs right) :
    left = right := by
  obtain ⟨leftIndex, leftAt⟩ := List.mem_iff_getElem?.mp leftWrites
  obtain ⟨rightIndex, rightAt⟩ := List.mem_iff_getElem?.mp rightWrites
  exact (sound.outputOnce left right leftIndex rightIndex channel leftAt rightAt).1

end Layout.Sound

/-- The state of a net: the body of each worker with its completed firings, and what is in
each channel. -/
@[ext]
structure Marking (β α : Type) where
  state : WorkerId → Option (β × Nat)
  items : ChannelId → List α

/-- The ports of each worker, which workers may fire, how much an input must hold before a
firing, and what a firing does with the elements in front. -/
structure Net (β α : Type) where
  layout : Layout β
  members : List WorkerId
  need : WorkerId → Nat → Nat
  act : WorkerId → β → Nat → (Nat → List α) → Response β α

namespace Net

inductive Event (α : Type) where
  /-- A worker fires. -/
  | fire (worker : WorkerId)
  /-- An element comes in from outside. -/
  | push (channel : ChannelId) (element : α)

def Event.owner : Event α → WorkerId ⊕ ChannelId
  | .fire worker => .inl worker
  | .push channel _ => .inr channel

def Event.pushed (channel : ChannelId) : Event α → Option α
  | .fire _ => none
  | .push other element => if other = channel then some element else none

theorem Event.eq_fire {event : Event α} {id : WorkerId} (same : event.owner = .inl id) :
    event = .fire id := by
  cases event with
  | fire worker =>
      cases same
      rfl
  | push channel element => cases same

private theorem Event.eq_push {event : Event α} {channel : ChannelId} {element : α}
    (here : event.pushed channel = some element) : event = .push channel element := by
  cases event with
  | fire worker => cases here
  | push target found =>
      obtain ⟨rfl, ⟨⟩⟩ := Option.ite_none_right_eq_some.mp here
      rfl

private theorem Event.owner_ne {event : Event α} {channel : ChannelId}
    (absent : event.pushed channel = none) : event.owner ≠ .inr channel := by
  cases event with
  | fire worker => exact Sum.inl_ne_inr
  | push target found =>
      rintro ⟨⟩
      simp only [pushed, ↓reduceIte, reduceCtorEq] at absent

def incoming (events : List (Event α)) (channel : ChannelId) : List α :=
  events.filterMap (Event.pushed channel)

@[simp]
theorem incoming_append (front back : List (Event α)) (channel : ChannelId) :
    incoming (front ++ back) channel = incoming front channel ++ incoming back channel :=
  List.filterMap_append

@[simp]
theorem incoming_fire (id : WorkerId) (events : List (Event α)) (channel : ChannelId) :
    incoming (.fire id :: events) channel = incoming events channel :=
  List.filterMap_cons_none rfl

@[simp]
theorem incoming_push (target : ChannelId) (element : α) (events : List (Event α))
    (channel : ChannelId) : incoming (.push target element :: events) channel =
      (if channel = target then [element] else []) ++ incoming events channel := by
  unfold incoming
  rw [List.filterMap_cons]
  unfold Event.pushed
  by_cases same : target = channel
  · simp only [same, ↓reduceIte, List.cons_append, List.nil_append]
  · simp only [same, ↓reduceIte, Ne.symm same, List.nil_append]

theorem incoming_pushes (target : ChannelId) (elements : List α) (channel : ChannelId) :
    incoming (elements.map (.push target)) channel =
      if channel = target then elements else [] := by
  induction elements with
  | nil => simp only [incoming, List.map_nil, List.filterMap_nil, ite_self]
  | cons element rest inductionHypothesis =>
      rw [List.map_cons, incoming_push, inductionHypothesis]
      split <;> rfl

theorem fires_of_incoming {events : List (Event α)}
    (nothing : ∀ channel, incoming events channel = []) :
    ∀ event ∈ events, ∃ id, event = .fire id := by
  intro event member
  cases event with
  | fire id => exact ⟨id, rfl⟩
  | push channel element =>
      have absent := List.filterMap_eq_nil_iff.mp (nothing channel) _ member
      simp only [Event.pushed, ↓reduceIte, reduceCtorEq] at absent

theorem incoming_of_fires {events : List (Event α)}
    (fires : ∀ event ∈ events, ∃ id, event = .fire id) (channel : ChannelId) :
    incoming events channel = [] := by
  refine List.filterMap_eq_nil_iff.mpr ?_
  intro event member
  obtain ⟨id, rfl⟩ := fires event member
  rfl

/-- What an event does: how many elements it takes from the front of each channel, which it
puts at the back, and which worker it leaves in a new state. -/
structure Effect (β α : Type) where
  cut : ChannelId → Nat
  extra : ChannelId → List α
  moved : Option (WorkerId × β × Nat)

def Effect.apply (effect : Effect β α) (marking : Marking β α) : Marking β α :=
  { state := fun id =>
      match effect.moved with
      | none => marking.state id
      | some (worker, new) => if id = worker then some new else marking.state id
    items := fun channel =>
      (marking.items channel).drop (effect.cut channel) ++ effect.extra channel }

def inputNeeds (net : Net β α) (id : WorkerId) : InputNeeds :=
  { shape := net.layout.shape id, need := net.need id }

def holds (net : Net β α) (marking : Marking β α) (id : WorkerId) : Nat → List α :=
  net.layout.onInputs marking.items id

def response (net : Net β α) (marking : Marking β α) (id : WorkerId) (body : β)
    (count : Nat) : Response β α :=
  net.act id body count ((net.inputNeeds id).leading (net.holds marking id))

inductive Does (net : Net β α) (marking : Marking β α) : Event α → Effect β α → Prop where
  | fire {id : WorkerId} {body : β} {count : Nat} {response : Response β α}
      (inside : id ∈ net.members) (known : marking.state id = some (body, count))
      (sated : (net.inputNeeds id).sated (net.holds marking id) = true)
      (responds : response = net.response marking id body count)
      (within : ∀ channel, net.layout.drawn id response.pops channel ≤
        (marking.items channel).length) :
      Does net marking (.fire id)
        { cut := net.layout.drawn id response.pops
          extra := net.layout.poured id response.pushes
          moved := some (id, response.next, count + 1) }
  | push {channel : ChannelId} {element : α}
      (foreign : ∀ id ∈ net.members, channel ∉ net.layout.outputs id) :
      Does net marking (.push channel element)
        { cut := fun _ => 0
          extra := fun other => if other = channel then [element] else []
          moved := none }

section

variable {net : Net β α} {marking : Marking β α} {event other : Event α}
  {effect second : Effect β α}

private theorem Does.unique (does : net.Does marking event effect)
    (again : net.Does marking event second) : effect = second := by
  cases does with
  | fire inside known sated responds within =>
      cases again with
      | fire insideAgain knownAgain satedAgain respondsAgain withinAgain =>
          rw [known] at knownAgain
          cases knownAgain
          rw [responds, respondsAgain]
  | push foreign =>
      cases again with
      | push foreignAgain => rfl

private theorem Does.within (does : net.Does marking event effect) (channel : ChannelId) :
    effect.cut channel ≤ (marking.items channel).length := by
  cases does with
  | fire inside known sated responds within => exact within channel
  | push foreign => exact Nat.zero_le _

theorem Does.cut_eq_zero (does : net.Does marking event effect) {channel : ChannelId}
    (unread : ∀ id, event = .fire id → channel ∉ net.layout.inputs id) :
    effect.cut channel = 0 := by
  cases does with
  | fire inside known sated responds within =>
      exact Layout.drawn_of_not_mem _ (unread _ rfl)
  | push foreign => rfl

/-- Only the writer of a channel puts into it, or somebody outside if it has none. -/
theorem Does.extra_eq_nil (does : net.Does marking event effect) {channel : ChannelId}
    (unwritten : ∀ id, event = .fire id → channel ∉ net.layout.outputs id)
    (unfed : event.owner ≠ .inr channel) : effect.extra channel = [] := by
  cases does with
  | fire inside known sated responds within =>
      exact Layout.poured_of_not_mem _ (unwritten _ rfl)
  | @push target element foreign =>
      have different : channel ≠ target := by
        rintro rfl
        exact unfed rfl
      exact if_neg different

theorem Does.state_of_other (does : net.Does marking event effect) {id : WorkerId}
    (different : event.owner ≠ .inl id) : (effect.apply marking).state id = marking.state id := by
  cases does with
  | @fire worker body count response inside known sated responds within =>
      have other : id ≠ worker := by
        rintro rfl
        exact different rfl
      exact if_neg other
  | push foreign => rfl

/-- What somebody else does only adds to the inputs of a worker. -/
theorem Does.items_input (does : net.Does marking event effect) (sound : net.layout.Sound)
    {id : WorkerId} (different : event.owner ≠ .inl id) {channel : ChannelId}
    (mine : channel ∈ net.layout.inputs id) :
    (effect.apply marking).items channel = marking.items channel ++ effect.extra channel := by
  have uncut : effect.cut channel = 0 := by
    apply does.cut_eq_zero
    rintro worker rfl read
    exact different (congrArg Sum.inl (sound.reader_unique read mine))
  unfold Effect.apply
  dsimp only
  rw [uncut, List.drop_zero]

/-- What somebody else does takes nothing from the worker's prospects. -/
theorem Does.persists (does : net.Does marking event effect)
    (later : net.Does marking other second) (sound : net.layout.Sound)
    (different : event.owner ≠ other.owner) :
    net.Does (effect.apply marking) other second := by
  cases later with
  | push foreign => exact .push foreign
  | @fire id body count response inside known sated responds within =>
      have grown : net.holds (effect.apply marking) id =
          fun index => net.holds marking id index ++
            net.layout.onInputs effect.extra id index := by
        unfold holds
        rw [← Layout.onInputs_append]
        funext index
        unfold Layout.onInputs
        cases place : (net.layout.inputs id)[index]? with
        | none => rfl
        | some channel =>
            exact does.items_input sound different (List.mem_of_getElem? place)
      refine .fire inside ((does.state_of_other different).trans known) ?_ ?_ ?_
      · rw [grown]
        exact InputNeeds.sated_append sated _
      · rw [responds]
        unfold Net.response
        rw [grown, InputNeeds.leading_append sated]
      · intro channel
        by_cases mine : channel ∈ net.layout.inputs id
        · have enough := within channel
          rw [does.items_input sound different mine, List.length_append]
          omega
        · rw [Layout.drawn_of_not_mem _ mine]
          exact Nat.zero_le _

/-- Taking from the front and putting at the back, done for two that do not get in each
other's way. -/
theorem drop_append_comm {items extra added : List α} {cut taken : Nat}
    (within : cut ≤ items.length) (inside : taken ≤ items.length)
    (reader : cut = 0 ∨ taken = 0) (writer : extra = [] ∨ added = []) :
    (items.drop cut ++ extra).drop taken ++ added =
      (items.drop taken ++ added).drop cut ++ extra := by
  rcases reader with rfl | rfl
  · rw [List.drop_zero, List.drop_zero, List.drop_append_of_le_length inside]
    rcases writer with rfl | rfl <;> simp
  · rw [List.drop_zero, List.drop_zero, List.drop_append_of_le_length within]
    rcases writer with rfl | rfl <;> simp

section

variable (does : net.Does marking event effect) (doesOther : net.Does marking other second)
  (different : event.owner ≠ other.owner)
include does doesOther different

private theorem Does.cut_apart (sound : net.layout.Sound) (channel : ChannelId) :
    effect.cut channel = 0 ∨ second.cut channel = 0 := by
  by_cases read : ∃ id, event = .fire id ∧ channel ∈ net.layout.inputs id
  · obtain ⟨id, rfl, mine⟩ := read
    refine .inr (doesOther.cut_eq_zero ?_)
    rintro worker rfl yours
    exact different (congrArg Sum.inl (sound.reader_unique mine yours))
  · exact .inl (does.cut_eq_zero (fun id fired mine => read ⟨id, fired, mine⟩))

private theorem Does.extra_apart (sound : net.layout.Sound) (channel : ChannelId) :
    effect.extra channel = [] ∨ second.extra channel = [] := by
  cases does with
  | @fire worker body count response inside known sated responds within =>
      by_cases mine : channel ∈ net.layout.outputs worker
      · refine .inr (doesOther.extra_eq_nil ?_ ?_)
        · rintro another rfl yours
          exact different (congrArg Sum.inl (sound.writer_unique mine yours))
        · intro fed
          cases doesOther with
          | fire => cases fed
          | push foreign =>
              cases fed
              exact foreign worker inside mine
      · exact .inl (Layout.poured_of_not_mem _ mine)
  | @push target element foreign =>
      by_cases here : channel = target
      · subst here
        refine .inr (doesOther.extra_eq_nil ?_ (Ne.symm different))
        rintro worker rfl yours
        cases doesOther with
        | fire inside => exact foreign worker inside yours
      · exact .inl (if_neg here)

private theorem Does.state_comm (id : WorkerId) : (second.apply (effect.apply marking)).state id =
    (effect.apply (second.apply marking)).state id := by
  cases does with
  | push foreign => rfl
  | @fire worker body count response inside known sated responds within =>
      cases doesOther with
      | push foreign => rfl
      | @fire another anotherBody anotherCount anotherResponse =>
          have distinct : worker ≠ another := by
            rintro rfl
            exact different rfl
          unfold Effect.apply
          dsimp only
          by_cases first : id = worker
          · subst first
            simp only [distinct, ↓reduceIte]
          · simp only [first, ↓reduceIte]

/-- Events of different owners commute. -/
theorem Does.commutes (sound : net.layout.Sound) :
    second.apply (effect.apply marking) = effect.apply (second.apply marking) := by
  refine Marking.ext (funext (does.state_comm doesOther different)) (funext fun channel => ?_)
  exact drop_append_comm (does.within channel) (doesOther.within channel)
    (does.cut_apart doesOther different sound channel)
    (does.extra_apart doesOther different sound channel)

end

end

inductive Run (net : Net β α) : Marking β α → List (Event α) → Marking β α → Prop where
  | done {marking : Marking β α} : Run net marking [] marking
  | next {marking left : Marking β α} {event : Event α} {effect : Effect β α}
      {events : List (Event α)} (does : net.Does marking event effect)
      (rest : Run net (effect.apply marking) events left) :
      Run net marking (event :: events) left

section

variable {net : Net β α} {marking middle left : Marking β α} {event : Event α}
  {effect : Effect β α} {events more front back : List (Event α)}

theorem Run.append (run : net.Run marking events middle) (further : net.Run middle more left) :
    net.Run marking (events ++ more) left := by
  induction run with
  | done => exact further
  | next does rest inductionHypothesis => exact .next does (inductionHypothesis further)

theorem Run.snoc (run : net.Run marking events middle) (does : net.Does middle event effect) :
    net.Run marking (events ++ [event]) (effect.apply middle) :=
  run.append (.next does .done)

theorem Run.pushes {channel : ChannelId}
    (foreign : ∀ id ∈ net.members, channel ∉ net.layout.outputs id) (elements : List α)
    (marking : Marking β α) :
    net.Run marking (elements.map (.push channel))
      { marking with items := fun other =>
          marking.items other ++ if other = channel then elements else [] } := by
  induction elements generalizing marking with
  | nil =>
      simp only [ite_self, List.append_nil]
      exact .done
  | cons element rest inductionHypothesis =>
      have items (other : ChannelId) :
          (marking.items other ++ if other = channel then [element] else []) ++
              (if other = channel then rest else []) =
            marking.items other ++ if other = channel then element :: rest else [] := by
        split <;> simp
      have later := inductionHypothesis
        { marking with items := fun other =>
            marking.items other ++ if other = channel then [element] else [] }
      simp only [items] at later
      exact .next (.push foreign) later

theorem Run.of_pushes {channel : ChannelId} {elements : List α}
    (run : net.Run marking (elements.map (.push channel)) left) :
    left =
      { marking with items := fun other =>
          marking.items other ++ if other = channel then elements else [] } := by
  induction elements generalizing marking with
  | nil =>
      cases run
      simp only [ite_self, List.append_nil]
  | cons element rest inductionHypothesis =>
      rw [List.map_cons] at run
      cases run with
      | next does run =>
          cases does with
          | push foreign =>
              rw [inductionHypothesis run]
              refine Marking.ext rfl (funext fun other => ?_)
              unfold Effect.apply
              dsimp only
              split <;> simp

/-- An event that can happen now and is still to come in a run may be done first. -/
theorem Run.advance (run : net.Run marking (front ++ event :: back) left)
    (does : net.Does marking event effect) (sound : net.layout.Sound)
    (apart : ∀ earlier ∈ front, earlier.owner ≠ event.owner) :
    net.Run (effect.apply marking) (front ++ back) left := by
  induction front generalizing marking with
  | nil =>
      cases run with
      | next doesToo rest =>
          rw [does.unique doesToo]
          exact rest
  | cons earlier front inductionHypothesis =>
      rw [List.forall_mem_cons] at apart
      cases run with
      | @next _ _ _ first _ doesFirst rest =>
          -- The event can still happen after the first one, and the two may change places.
          have later := inductionHypothesis rest (doesFirst.persists does sound apart.1) apart.2
          rw [doesFirst.commutes does apart.1 sound] at later
          exact .next (does.persists doesFirst sound (Ne.symm apart.1)) later

theorem Run.advance_fire (run : net.Run marking events left) {id : WorkerId}
    (does : net.Does marking (.fire id) effect) (sound : net.layout.Sound)
    (ahead : .fire id ∈ events) :
    ∃ rest, net.Run (effect.apply marking) rest left ∧
      ∀ channel, incoming rest channel = incoming events channel := by
  obtain ⟨front, back, rfl, first⟩ := List.eq_append_cons_of_mem ahead
  refine ⟨front ++ back, run.advance does sound ?_, ?_⟩
  · intro earlier member same
    exact first (Event.eq_fire same ▸ member)
  · intro channel
    rw [incoming_append, incoming_append, incoming_fire]

/-- Elements that a run brings in later may as well come in now. -/
theorem Run.advance_pushes {channel : ChannelId} {elements later : List α}
    (run : net.Run marking events left)
    (steps : net.Run marking (elements.map (.push channel)) middle) (sound : net.layout.Sound)
    (ahead : incoming events channel = elements ++ later) :
    ∃ rest, net.Run middle rest left ∧ ∀ other, incoming events other =
      (if other = channel then elements else []) ++ incoming rest other := by
  induction elements generalizing marking events with
  | nil =>
      cases steps
      exact ⟨events, run, by simp⟩
  | cons element elements inductionHypothesis =>
      rw [List.map_cons] at steps
      cases steps with
      | next does steps =>
          obtain ⟨front, event, back, rfl, before, here, after⟩ :=
            List.filterMap_eq_cons_iff.mp ahead
          cases Event.eq_push here
          have earlier := run.advance does sound
            (fun earlier member => Event.owner_ne (before earlier member))
          have rest : incoming (front ++ back) channel = elements ++ later := by
            have nothing : incoming front channel = [] := List.filterMap_eq_nil_iff.mpr before
            rw [incoming_append, nothing]
            exact after
          obtain ⟨events, further, brings⟩ := inductionHypothesis earlier steps rest
          refine ⟨events, further, ?_⟩
          intro other
          have split := brings other
          by_cases same : other = channel
          · subst same
            rw [ahead, if_pos rfl, List.cons_append, List.cons_append, ← rest, split, if_pos rfl]
          · rw [if_neg same] at split ⊢
            rw [← split, incoming_append, incoming_append, incoming_push, if_neg same,
              List.nil_append]

/-- While a worker does not fire, its inputs only gain. -/
theorem Run.items_input (run : net.Run marking events left) (sound : net.layout.Sound)
    {id : WorkerId} (idle : Event.fire id ∉ events) {channel : ChannelId}
    (mine : channel ∈ net.layout.inputs id) : marking.items channel <+: left.items channel := by
  induction run with
  | done => exact List.prefix_refl _
  | @next marking left event effect events does rest inductionHypothesis =>
      rw [List.mem_cons, not_or] at idle
      have different : event.owner ≠ .inl id := fun same =>
        idle.1 (Event.eq_fire same).symm
      have added := does.items_input sound different mine
      refine List.IsPrefix.trans ?_ (inductionHypothesis idle.2)
      rw [added]
      exact List.prefix_append _ _

/-- While a worker does not fire, its outputs only lose. -/
theorem Run.items_output (run : net.Run marking events left) (sound : net.layout.Sound)
    {id : WorkerId} (inside : id ∈ net.members) (idle : Event.fire id ∉ events)
    {channel : ChannelId} (mine : channel ∈ net.layout.outputs id) :
    left.items channel <:+ marking.items channel := by
  induction run with
  | done => exact List.suffix_refl _
  | @next marking left event effect events does rest inductionHypothesis =>
      rw [List.mem_cons, not_or] at idle
      have nothing : effect.extra channel = [] := by
        apply does.extra_eq_nil
        · rintro worker rfl yours
          exact idle.1 (congrArg Event.fire (sound.writer_unique mine yours))
        · intro fed
          cases does with
          | fire => cases fed
          | push foreign =>
              cases fed
              exact foreign id inside mine
      refine (inductionHypothesis idle.2).trans ?_
      unfold Effect.apply
      dsimp only
      rw [nothing, List.append_nil]
      exact List.drop_suffix _ _

/-- A worker that lacks elements from a worker which does not fire does not fire either. -/
theorem Run.idle_of_starved (run : net.Run marking events left) (sound : net.layout.Sound)
    {producer consumer : WorkerId} (inside : producer ∈ net.members)
    (idle : Event.fire producer ∉ events) {index : Nat}
    {channel : ChannelId} (place : (net.layout.inputs consumer)[index]? = some channel)
    (fed : channel ∈ net.layout.outputs producer)
    (short : (marking.items channel).length < net.need consumer index) :
    Event.fire consumer ∉ events := by
  induction run with
  | done => exact List.not_mem_nil
  | @next marking left event effect events does rest inductionHypothesis =>
      rw [List.mem_cons, not_or] at idle
      rw [List.mem_cons, not_or]
      constructor
      · rintro rfl
        cases does with
        | fire inside known sated responds within =>
            have enough := InputNeeds.sated_iff.mp sated index
              (List.getElem?_eq_some_iff.mp place).1
            unfold holds at enough
            rw [Layout.onInputs_of_some _ place] at enough
            exact absurd enough (Nat.not_le_of_lt short)
      · apply inductionHypothesis idle.2
        have single : net.Run marking [event] (effect.apply marking) := .next does .done
        have lost := single.items_output sound inside (by simpa using idle.1) fed
        exact Nat.lt_of_le_of_lt lost.length_le short

theorem Run.state_of_idle (run : net.Run marking events left) {id : WorkerId}
    (idle : Event.fire id ∉ events) : left.state id = marking.state id := by
  induction run with
  | done => rfl
  | @next marking left event effect events does rest inductionHypothesis =>
      rw [List.mem_cons, not_or] at idle
      rw [inductionHypothesis idle.2]
      exact does.state_of_other (fun same => idle.1 (Event.eq_fire same).symm)

theorem Run.count (run : net.Run marking events left) {id : WorkerId} {body : β} {count : Nat}
    (known : marking.state id = some (body, count)) :
    ∃ later total, left.state id = some (later, total) ∧ count ≤ total ∧
      (Event.fire id ∈ events → count < total) := by
  induction run generalizing body count with
  | done => exact ⟨body, count, known, Nat.le_refl _, by simp⟩
  | @next marking left event effect events does rest inductionHypothesis =>
      by_cases mine : event = .fire id
      · subst mine
        cases does with
        | @fire _ _ _ response _ knownToo =>
            rw [known] at knownToo
            cases knownToo
            obtain ⟨later, total, found, counted, _⟩ := inductionHypothesis (if_pos rfl)
            exact ⟨later, total, found, by omega, fun _ => by omega⟩
      · have kept := does.state_of_other (fun same => mine (Event.eq_fire same))
        obtain ⟨later, total, found, counted, fired⟩ := inductionHypothesis (kept.trans known)
        refine ⟨later, total, found, counted, ?_⟩
        intro member
        rcases List.mem_cons.mp member with same | rest
        · exact absurd same.symm mine
        · exact fired rest

theorem Run.antisymm (run : net.Run marking events left) (back : net.Run left more marking)
    (fires : ∀ event ∈ events, ∃ id, event = .fire id) : marking = left := by
  cases run with
  | done => rfl
  | @next _ _ event effect events does rest =>
      obtain ⟨id, rfl⟩ := fires event (List.mem_cons_self ..)
      have whole : net.Run marking (.fire id :: events) left := .next does rest
      cases does with
      | fire inside known sated responds within =>
          obtain ⟨_, _, found, _, fired⟩ := whole.count known
          obtain ⟨_, _, again, counted, _⟩ := back.count found
          rw [known] at again
          cases again
          have more := fired (List.mem_cons_self ..)
          omega

end

end Net

end DemandFlow
