import DemandFlow.Proofs.Net.Embedding

/-!
Lines of filters. A line is the net of a list of bodies, in which each reads the channel with
its own number and writes the next one. A row is a graph whose workers form such a line, under
whatever numbers; it shows a stretch of a line that may go on at both ends, and what its
workers do is done in the line.
-/

set_option autoImplicit false

namespace DemandFlow

variable {β α μ : Type}

def PortShape.filter : PortShape :=
  { inputs := 1, outputs := 1 }

/-- Bodies of a kind that act as told whatever worker they belong to, and that succeed wherever
they find enough on every input. -/
structure Reliably (μ : Type) [Work β α μ] (inputNeeds : InputNeeds) (kind : β → Prop)
    (act : β → Nat → (Nat → List α) → Response β α) : Prop where
  acts : ∀ id, Acts μ id inputNeeds kind act
  succeeds : ∀ id body executions (portView : PortView α), kind body →
    portView.Sound inputNeeds.shape → inputNeeds.sated portView.holds = true →
    ∃ next scene, portView.work μ inputNeeds.shape id body executions = ((.ok (), next), scene)

/-- A filter body whose firings succeed and send nothing, and for which what a firing takes,
puts out and turns into is a function of the state, the completed firings and the elements in
front, as many as the larger of the two maximal rates at which it looks and takes. -/
def Reliable (α : Type) (μ : Type) [Signature β] [Work β α μ] (body : β) : Prop :=
  ∃ (kind : β → Prop) (act : β → Nat → (Nat → List α) → Response β α),
    kind body ∧ Reliably μ (InputNeeds.of body .filter) kind act

theorem reliable_of_abides [Signature β] [Work β α μ] {body : β} {audited : Bool}
    (abides : Abides α μ audited .filter body) : Reliable α μ body := by
  obtain ⟨_, kind, member, abiding⟩ := abides
  refine ⟨kind, respond μ .filter, member, abiding.acts, ?_⟩
  intro id now executions portView kept sound sated
  have succeeds := (abiding.performs now executions id portView kept sound sated).succeeds
  rcases worked : portView.work μ (InputNeeds.of body PortShape.filter).shape id now executions with
    ⟨⟨answer, next⟩, scene⟩
  rw [worked] at succeeds
  exact ⟨next, scene, congrArg (fun answer => ((answer, next), scene)) succeeds⟩

namespace Layout

variable {layout : Layout β} {id : WorkerId} {single : ChannelId}

private theorem drawn_single (alone : layout.inputs id = [single]) (pops : Nat → Nat)
    (channel : ChannelId) :
    layout.drawn id pops channel = if channel = single then pops 0 else 0 := by
  by_cases same : channel = single
  · rw [if_pos same]
    apply onChannel_of_some
    · rw [alone, same]
      rfl
    · intro other place
      rw [alone] at place
      have within := (List.getElem?_eq_some_iff.mp place).1
      simpa only [List.length_cons, List.length_nil, Nat.zero_add, Nat.lt_one_iff] using within
  · rw [if_neg same]
    apply drawn_of_not_mem
    rw [alone, List.mem_singleton]
    exact same

private theorem poured_single (alone : layout.outputs id = [single]) (pushes : Nat → List α)
    (channel : ChannelId) :
    layout.poured id pushes channel = if channel = single then pushes 0 else [] := by
  by_cases same : channel = single
  · rw [if_pos same]
    apply onChannel_of_some
    · rw [alone, same]
      rfl
    · intro other place
      rw [alone] at place
      have within := (List.getElem?_eq_some_iff.mp place).1
      simpa only [List.length_cons, List.length_nil, Nat.zero_add, Nat.lt_one_iff] using within
  · rw [if_neg same]
    apply poured_of_not_mem
    rw [alone, List.mem_singleton]
    exact same

private theorem onInputs_single (alone : layout.inputs id = [single]) (streams : ChannelId → List α)
    (index : Nat) :
    layout.onInputs streams id index = if index = 0 then streams single else [] := by
  unfold onInputs
  rw [alone]
  cases index with
  | zero => rfl
  | succ index => rfl

end Layout

namespace Net

section

variable [Signature β]

def line (bodies : List β) (act : Nat → β → Nat → (Nat → List α) → Response β α) : Net β α :=
  { layout :=
      { body := fun id => bodies[id]?, inputs := fun id => [id], outputs := fun id => [id + 1] }
    members := List.range bodies.length
    need := fun id index =>
      (bodies[id]?.map (fun body => (InputNeeds.of body .filter).need index)).getD 0
    act := act }

variable {bodies : List β} {act : Nat → β → Nat → (Nat → List α) → Response β α}
  {marking left : Marking β α} {events : List (Event α)}

theorem line_sound : (line bodies act).layout.Sound := by
  have only {single channel index : Nat} (place : [single][index]? = some channel) :
      channel = single ∧ index = 0 := by
    obtain ⟨within, same⟩ := List.getElem?_eq_some_iff.mp place
    rw [List.length_singleton] at within
    obtain rfl : index = 0 := by omega
    exact ⟨same.symm, rfl⟩
  constructor
  · intro first second firstIndex secondIndex channel firstAt secondAt
    have here := only firstAt
    have there := only secondAt
    omega
  · intro first second firstIndex secondIndex channel firstAt secondAt
    have here := only firstAt
    have there := only secondAt
    omega
  · intro producer consumer output input channel outputAt inputAt
    have here := only outputAt
    have there := only inputAt
    omega

theorem line_inputNeeds {position : Nat} {body : β} (place : bodies[position]? = some body) :
    (line bodies act).inputNeeds position = InputNeeds.of body .filter := by
  have need : (line bodies act).need position = (InputNeeds.of body PortShape.filter).need := by
    funext index
    unfold line
    dsimp only
    rw [place]
    rfl
  unfold inputNeeds
  rw [need]
  rfl

theorem line_foreign (id : WorkerId) (_ : id ∈ (line bodies act).members) :
    0 ∉ (line bodies act).layout.outputs id := by
  intro fed
  exact Nat.zero_ne_add_one id (List.mem_singleton.mp fed)

theorem Run.fire_lt (run : (line bodies act).Run marking events left) {position : Nat}
    (fired : .fire position ∈ events) : position < bodies.length := by
  induction run with
  | done => cases fired
  | next does rest inductionHypothesis =>
      rcases List.mem_cons.mp fired with rfl | later
      · cases does with
        | fire inside => exact List.mem_range.mp inside
      · exact inductionHypothesis later

def Starves (bodies : List β) (marking : Marking β α) (position : Nat) : Prop :=
  ∃ body required, bodies[position]? = some body ∧
    (Signature.rates body PortShape.filter).need? 0 = some required ∧
    (marking.items position).length < required

theorem Starves.not_does {position : Nat} (starves : Starves bodies marking position)
    {effect : Effect β α} : ¬ (line bodies act).Does marking (.fire position) effect := by
  obtain ⟨body, required, place, needed, short⟩ := starves
  intro does
  cases does with
  | fire inside known sated responds within =>
      rw [line_inputNeeds place] at sated
      have enough := InputNeeds.sated_iff.mp sated 0 Nat.one_pos
      have need : (InputNeeds.of body PortShape.filter).need 0 = required := by
        unfold InputNeeds.of
        dsimp only
        rw [needed]
        rfl
      have held : (line bodies act).holds marking position 0 = marking.items position := rfl
      rw [need, held] at enough
      exact absurd enough (Nat.not_le_of_lt short)

/-- Where nobody can fire nothing happens. -/
theorem Run.eq_nil_of_starves (run : (line bodies act).Run marking events left)
    (still : ∀ event ∈ events, ∃ position, event = .fire position ∧
      Starves bodies marking position) : events = [] ∧ left = marking := by
  cases run with
  | done => exact ⟨rfl, rfl⟩
  | next does rest =>
      obtain ⟨position, rfl, starves⟩ := still _ (List.mem_cons_self ..)
      exact absurd does starves.not_does

/-- Who can fire now and starves in the end fires in between. -/
theorem Run.fires_of_starves (run : (line bodies act).Run marking events left) {position : Nat}
    {effect : Effect β α} (does : (line bodies act).Does marking (.fire position) effect)
    (starves : Starves bodies left position) : .fire position ∈ events := by
  by_contra idle
  have gained := run.items_input line_sound idle (List.mem_singleton.mpr rfl)
  obtain ⟨body, required, place, needed, short⟩ := starves
  exact Starves.not_does
    ⟨body, required, place, needed, Nat.lt_of_le_of_lt gained.length_le short⟩ does

theorem Run.items_of_apart (run : (line bodies act).Run marking events left) {channel : Nat}
    (apart : ∀ event ∈ events, ∃ position : Nat, event = .fire position ∧ position ≠ channel ∧
      position + 1 ≠ channel) : left.items channel = marking.items channel := by
  induction run with
  | done => rfl
  | @next marking left event effect events does rest inductionHypothesis =>
      rw [List.forall_mem_cons] at apart
      rw [inductionHypothesis apart.2]
      obtain ⟨position, rfl, notInput, notOutput⟩ := apart.1
      have uncut : effect.cut channel = 0 := by
        apply does.cut_eq_zero
        intro id same read
        cases same
        exact notInput (List.mem_singleton.mp read).symm
      have nothing : effect.extra channel = [] := by
        apply does.extra_eq_nil
        · intro id same written
          cases same
          exact notOutput (List.mem_singleton.mp written).symm
        · exact Sum.inl_ne_inr
      unfold Effect.apply
      dsimp only
      rw [uncut, nothing, List.drop_zero, List.append_nil]

end

/-- A firing that a run has ahead of it can be done at once, and then less is ahead. -/
theorem Run.shorten {net : Net β α} {marking left : Marking β α} {events : List (Event α)}
    (run : net.Run marking events left) {id : WorkerId} {effect : Effect β α}
    (does : net.Does marking (.fire id) effect) (sound : net.layout.Sound)
    (ahead : .fire id ∈ events) :
    ∃ rest, net.Run (effect.apply marking) rest left ∧ rest.length < events.length ∧
      ∀ event ∈ rest, event ∈ events := by
  obtain ⟨front, back, rfl, first⟩ := List.eq_append_cons_of_mem ahead
  refine ⟨front ++ back, run.advance does sound ?_, ?_, ?_⟩
  · intro earlier member same
    exact first (Event.eq_fire same ▸ member)
  · rw [List.length_append, List.length_append, List.length_cons]
    omega
  · intro event member
    rcases List.mem_append.mp member with inFront | inBack
    · exact List.mem_append_left _ inFront
    · exact List.mem_append_right _ (List.mem_cons_of_mem _ inBack)

end Net

/-- Every body of the line is of its kind, and bodies of this kind act as told. -/
def Conducted [Signature β] [Work β α μ] (bodies : List β) (kind : Nat → β → Prop)
    (act : Nat → β → Nat → (Nat → List α) → Response β α) : Prop :=
  ∀ position body, bodies[position]? = some body →
    kind position body ∧ Reliably μ (InputNeeds.of body .filter) (kind position) (act position)

theorem exists_conducted [Signature β] [Work β α μ] {bodies : List β}
    (reliable : ∀ body ∈ bodies, Reliable α μ body) :
    ∃ kind act, Conducted (α := α) (μ := μ) bodies kind act := by
  have each (position : Nat) : ∃ (kind : β → Prop)
      (act : β → Nat → (Nat → List α) → Response β α), ∀ body, bodies[position]? = some body →
        kind body ∧ Reliably μ (InputNeeds.of body .filter) kind act := by
    cases place : bodies[position]? with
    | none =>
        refine ⟨fun _ => True, fun body _ _ => ⟨fun _ => 0, fun _ => [], body⟩, ?_⟩
        intro body impossible
        cases impossible
    | some body =>
        obtain ⟨kind, act, member, reliably⟩ := reliable body (List.mem_of_getElem? place)
        refine ⟨kind, act, ?_⟩
        intro other same
        cases same
        exact ⟨member, reliably⟩
  choose kind act each using each
  exact ⟨kind, act, each⟩

namespace Graph

/-- The workers of a graph in a row: which of them stands where, and which channels lie in
front of and behind each. -/
structure Row (graph : Graph β α μ) where
  bodies : List β
  place : Nat → WorkerId
  position : WorkerId → Nat
  link : Nat → ChannelId
  filter : ∀ index body, bodies[index]? = some body →
    ∃ worker, graph.worker? (place index) = some worker ∧ worker.body = body ∧
      worker.inputChannels = [link index] ∧ worker.outputChannels = [link (index + 1)]
  position_place : ∀ index, index < bodies.length → position (place index) = index
  everyone : ∀ id worker, graph.worker? id = some worker →
    position id < bodies.length ∧ place (position id) = id
  /-- The last channel does not lead back to the first worker, nor does any other. -/
  apart : ∀ left right, left ≤ bodies.length → right ≤ bodies.length →
    link left = link right → left = right

namespace Row

/-- The row of a graph whose workers and channels are numbered as they stand. -/
def numbered {graph : Graph β α μ} (bodies : List β)
    (all : graph.workers.length = bodies.length)
    (filter : ∀ index body, bodies[index]? = some body →
      ∃ worker, graph.worker? index = some worker ∧ worker.body = body ∧
        worker.inputChannels = [index] ∧ worker.outputChannels = [index + 1]) : graph.Row where
  bodies := bodies
  place := fun index => index
  position := fun id => id
  link := fun index => index
  filter := filter
  position_place := fun _ _ => rfl
  everyone := fun _ _ known => ⟨all ▸ (List.getElem?_eq_some_iff.mp known).1, rfl⟩
  apart := fun _ _ _ _ same => same

variable {graph : Graph β α μ} (row : graph.Row) {index : Nat} {body : β}

theorem known (place : row.bodies[index]? = some body) :
    ∃ worker, graph.worker? (row.place index) = some worker ∧ worker.body = body := by
  obtain ⟨worker, known, same, _⟩ := row.filter index body place
  exact ⟨worker, known, same⟩

theorem inputs_place (within : index < row.bodies.length) :
    graph.layout.inputs (row.place index) = [row.link index] := by
  obtain ⟨worker, known, _, inputs, _⟩ :=
    row.filter index _ (List.getElem?_eq_getElem within)
  unfold layout
  dsimp only
  rw [wiring_inputs known]
  exact inputs

theorem outputs_place (within : index < row.bodies.length) :
    graph.layout.outputs (row.place index) = [row.link (index + 1)] := by
  obtain ⟨worker, known, _, _, outputs⟩ :=
    row.filter index _ (List.getElem?_eq_getElem within)
  unfold layout
  dsimp only
  rw [wiring_outputs known]
  exact outputs

private theorem place_inj {left right : Nat} (leftIn : left < row.bodies.length)
    (rightIn : right < row.bodies.length) :
    row.place left = row.place right ↔ left = right := by
  constructor
  · intro same
    rw [← row.position_place left leftIn, same, row.position_place right rightIn]
  · exact congrArg row.place

theorem link_inj {left right : Nat} (leftIn : left ≤ row.bodies.length)
    (rightIn : right ≤ row.bodies.length) : row.link left = row.link right ↔ left = right :=
  ⟨row.apart left right leftIn rightIn, congrArg row.link⟩

theorem shape_place (place : row.bodies[index]? = some body) {worker : Worker β μ}
    (known : graph.worker? (row.place index) = some worker) : worker.shape = .filter := by
  obtain ⟨same, knownToo, _, inputs, outputs⟩ := row.filter index body place
  rw [known] at knownToo
  cases knownToo
  have inputCount := congrArg List.length inputs
  have outputCount := congrArg List.length outputs
  unfold Worker.inputChannels at inputCount
  unfold Worker.outputChannels at outputCount
  rw [List.length_map] at inputCount outputCount
  unfold Worker.shape
  rw [inputCount, outputCount]
  rfl

theorem rates_place [Signature β] (describes : graph.layout.Describes graph.frame)
    (place : row.bodies[index]? = some body) {worker : Worker β μ}
    (known : graph.worker? (row.place index) = some worker) :
    worker.rates = Signature.rates body .filter := by
  obtain ⟨same, knownToo, bodyEq⟩ := row.known place
  rw [known] at knownToo
  cases knownToo
  obtain ⟨shown, found, rates⟩ := describes.rates (row.place index) worker.frame (by
    rw [frame_get, known]
    rfl)
  unfold layout at found
  dsimp only at found
  rw [known] at found
  cases found
  rw [describes.worker_shape known, row.shape_place place known, bodyEq] at rates
  exact rates

theorem inputNeeds_place [Signature β] (describes : graph.layout.Describes graph.frame)
    (place : row.bodies[index]? = some body) {worker : Worker β μ}
    (known : graph.worker? (row.place index) = some worker) :
    worker.inputNeeds = InputNeeds.of body .filter := by
  unfold Worker.inputNeeds InputNeeds.of
  rw [row.shape_place place known, row.rates_place describes place known]

/-- The bodies of the row stand in a line of bodies, from the offset on. -/
def Within (offset : Nat) (bodies : List β) : Prop :=
  ∀ index body, row.bodies[index]? = some body → bodies[offset + index]? = some body

/-- The marking of a graph, at the workers and channels of the row, is the marking of a line
from the offset on. -/
structure Shows (offset : Nat) (marking own : Marking β α) : Prop where
  state : ∀ index, index < row.bodies.length →
    own.state (row.place index) = marking.state (offset + index)
  items : ∀ index, index ≤ row.bodies.length →
    own.items (row.link index) = marking.items (offset + index)

/-- The marking of a line that the marking of a graph shows at the row. -/
def inLine (own : Marking β α) : Marking β α :=
  { state := fun position => own.state (row.place position)
    items := fun position => own.items (row.link position) }

theorem shows_inLine (own : Marking β α) : row.Shows 0 (row.inLine own) own := by
  constructor
  · intro index _
    rw [Nat.zero_add]
    rfl
  · intro index _
    rw [Nat.zero_add]
    rfl

theorem state_of_fresh (fresh : graph.Fresh) (place : row.bodies[index]? = some body) :
    graph.marking.state (row.place index) = some (body, 0) := by
  obtain ⟨worker, known, rfl⟩ := row.known place
  rw [marking_state known, (fresh _ worker known).1]

/-- How the workers of the row act, if those of the line act as told. -/
def acts (offset : Nat) (act : Nat → β → Nat → (Nat → List α) → Response β α) (id : WorkerId) :
    β → Nat → (Nat → List α) → Response β α :=
  act (offset + row.position id)

def kinds (offset : Nat) (kind : Nat → β → Prop) (id : WorkerId) : β → Prop :=
  kind (offset + row.position id)

variable [Signature β] {offset : Nat} {bodies : List β} {kind : Nat → β → Prop}
  {act : Nat → β → Nat → (Nat → List α) → Response β α}

theorem governed [Work β α μ] (built : graph.Built) (unshared : graph.bank.Unshared)
    (within : row.Within offset bodies) (conducted : Conducted (μ := μ) bodies kind act) :
    graph.Governed (row.kinds offset kind) (row.acts offset act) ∧
      Embodied graph (row.kinds offset kind) graph := by
  have each (id : WorkerId) (worker : Worker β μ) (known : graph.worker? id = some worker) :
      row.kinds offset kind id worker.body ∧
        Acts μ id worker.inputNeeds (row.kinds offset kind id) (row.acts offset act id) := by
    obtain ⟨inside, here⟩ := row.everyone id worker known
    have place := List.getElem?_eq_getElem inside
    obtain ⟨other, found, same⟩ := row.known place
    rw [here, known] at found
    cases found
    obtain ⟨member, reliably⟩ := conducted _ _ (within _ _ place)
    have knownThere : graph.worker? (row.place (row.position id)) = some worker := by
      rw [here, known]
    rw [row.inputNeeds_place built.describes place knownThere]
    rw [← same] at member
    exact ⟨member, reliably.acts id⟩
  exact ⟨⟨built.sound, unshared, fun id worker known => (each id worker known).2⟩,
    ⟨rfl, built.fresh.idle, fun id worker known => (each id worker known).1⟩⟩

theorem fires [Recipient β μ] [Work β α μ] {now : Graph β α μ}
    (governed : graph.Governed (row.kinds offset kind) (row.acts offset act))
    (describes : graph.layout.Describes graph.frame)
    (within : row.Within offset bodies) (conducted : Conducted (μ := μ) bodies kind act)
    (embodied : Embodied graph (row.kinds offset kind) now) {id : WorkerId} {worker : Worker β μ}
    (known : now.worker? id = some worker) (fed : worker.starvedInput now.bank = .ok none) :
    ∃ left, now.fire id = (.ok (), left) := by
  have frame := embodied.frame_eq
  have sound : now.frame.Sound := frame ▸ governed.sound
  have unshared : now.bank.Unshared :=
    governed.unshared.of_keys_eq (congrArg GraphFrame.keys frame.symm)
  have sated := Worker.sated_of_fed sound known fed
  have viewSound := portView_sound sound unshared known
  have member := embodied.kinds id worker known
  have idle := embodied.idle id worker known
  obtain ⟨origin, found, same⟩ := worker_of_frame_eq frame known
  obtain ⟨inside, here⟩ := row.everyone id origin found
  have place := List.getElem?_eq_getElem inside
  have foundThere : graph.worker? (row.place (row.position id)) = some origin := by
    rw [here, found]
  have inputNeeds := row.inputNeeds_place describes place foundThere
  rw [Worker.inputNeeds_of_frame_eq same] at inputNeeds
  have reliably := (conducted _ _ (within _ _ place)).2
  rw [← inputNeeds] at reliably
  obtain ⟨next, scene, worked⟩ :=
    reliably.succeeds id worker.body worker.executions _ member viewSound sated
  have silent := ((reliably.acts id).answers _ _ _ _ _ member viewSound sated worked).silent
  have run : now.runBody id worker = ((.ok (), next), scene) := worked
  refine ⟨now.worked id worker next scene.bank, ?_⟩
  unfold Graph.fire
  rw [known]
  dsimp only
  rw [Worker.deliverDue_of_idle idle]
  dsimp only
  unfold work
  rw [run]
  dsimp only
  rw [silent]
  rfl

theorem Shows.fire {row : graph.Row} {marking own : Marking β α}
    (shows : row.Shows offset marking own) (within : row.Within offset bodies)
    (describes : graph.layout.Describes graph.frame) (inside : index < row.bodies.length)
    {members : List WorkerId} {effect : Net.Effect β α}
    (does : (graph.net members (row.acts offset act)).Does own (.fire (row.place index)) effect) :
    ∃ later, (Net.line bodies act).Does marking (.fire (offset + index)) later ∧
      row.Shows offset (later.apply marking) (effect.apply own) := by
  have place := List.getElem?_eq_getElem inside
  have inLine := within index _ place
  obtain ⟨worker, known, _⟩ := row.known place
  have inputNeeds : (graph.net members (row.acts offset act)).inputNeeds (row.place index) =
      (Net.line bodies act).inputNeeds (offset + index) := by
    rw [Net.line_inputNeeds inLine, ← row.inputNeeds_place describes place known]
    unfold Net.inputNeeds net
    dsimp only
    rw [known, describes.worker_shape known]
    rfl
  have inputs : (graph.net members (row.acts offset act)).layout.inputs (row.place index) =
    [row.link index] := row.inputs_place inside
  have outputs : (graph.net members (row.acts offset act)).layout.outputs (row.place index) =
    [row.link (index + 1)] := row.outputs_place inside
  have lineInputs : (Net.line bodies act).layout.inputs (offset + index) = [offset + index] := rfl
  have lineOutputs : (Net.line bodies act).layout.outputs (offset + index) =
    [offset + index + 1] := rfl
  have holds : (graph.net members (row.acts offset act)).holds own (row.place index) =
      (Net.line bodies act).holds marking (offset + index) := by
    funext port
    unfold Net.holds
    rw [Layout.onInputs_single inputs, Layout.onInputs_single lineInputs,
      shows.items index (Nat.le_of_lt inside)]
  cases does with
  | @fire _ body count response _ state sated responds enough =>
      have responds : response = (Net.line bodies act).response marking (offset + index) body
          count := by
        rw [responds]
        unfold Net.response
        rw [inputNeeds, holds]
        unfold net acts
        dsimp only
        rw [row.position_place index inside]
        rfl
      have does : (Net.line bodies act).Does marking (.fire (offset + index))
          { cut := (Net.line bodies act).layout.drawn (offset + index) response.pops
            extra := (Net.line bodies act).layout.poured (offset + index) response.pushes
            moved := some (offset + index, response.next, count + 1) } := by
        refine .fire ?_ ?_ ?_ responds ?_
        · exact List.mem_range.mpr (List.getElem?_eq_some_iff.mp inLine).1
        · rw [← shows.state index inside, state]
        · rw [← inputNeeds, ← holds]
          exact sated
        · intro channel
          have here := enough (row.link index)
          rw [Layout.drawn_single inputs, if_pos rfl,
            shows.items index (Nat.le_of_lt inside)] at here
          rw [Layout.drawn_single lineInputs]
          split
          next same =>
            rw [same]
            exact here
          next => exact Nat.zero_le _
      refine ⟨_, does, ?_, ?_⟩
      · intro other otherIn
        unfold Net.Effect.apply
        dsimp only
        simp only [row.place_inj otherIn inside, Nat.add_left_cancel_iff]
        rw [shows.state other otherIn]
      · intro other otherIn
        unfold Net.Effect.apply
        dsimp only
        rw [Layout.drawn_single inputs, Layout.poured_single outputs,
          Layout.drawn_single lineInputs,
          Layout.poured_single lineOutputs, shows.items other otherIn]
        simp only [row.link_inj otherIn (Nat.le_of_lt inside),
          row.link_inj otherIn (Nat.succ_le_of_lt inside), Nat.add_assoc,
          Nat.add_left_cancel_iff]

end Row

end Graph

end DemandFlow
