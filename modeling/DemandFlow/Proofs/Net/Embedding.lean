import Mathlib.Tactic.Choose
import DemandFlow.Proofs.Net.Commutation
import DemandFlow.Proofs.Stream.Installation

/-!
Graphs as nets. Where state, count and the elements in front determine what successful firings
of the bodies do, the firings of a graph are events of a net, and so are elements that come in
from outside. The marking of a graph is what it shows of itself: bodies, counts and contents.
-/

set_option autoImplicit false

namespace DemandFlow

variable {β α μ : Type}

/-- A successful firing has done what the response says: it has sent nothing, it has taken so
many of the elements that were there, and it has added what is put out. -/
structure Answers (shape : PortShape) (portView : PortView α) (response : Response β α) (next : β)
    (scene : Routine.Scene α μ) : Prop where
  silent : scene.outbox = []
  next_eq : next = response.next
  within : ∀ index, index < shape.inputs → response.pops index ≤ (portView.holds index).length
  takes : ∀ index, index < shape.inputs →
    (scene.bank.onPort portView.inputs index).items =
      (portView.holds index).drop (response.pops index)
  gives : ∀ index, index < shape.outputs →
    (scene.bank.onPort portView.outputs index).items =
      (portView.bank.onPort portView.outputs index).items ++ response.pushes index

/-- Bodies of a kind that successful firings do not lead out of. Wherever one of them finds
enough on every input and succeeds, it does what `act` makes of its state, its completed
firings and the elements it may look at. -/
structure Acts (μ : Type) [Work β α μ] (id : WorkerId) (inputNeeds : InputNeeds) (kind : β → Prop)
    (act : β → Nat → (Nat → List α) → Response β α) : Prop where
  answers : ∀ body next executions (portView : PortView α) (scene : Routine.Scene α μ), kind body →
    portView.Sound inputNeeds.shape → inputNeeds.sated portView.holds = true →
    portView.work μ inputNeeds.shape id body executions = ((.ok (), next), scene) →
    Answers inputNeeds.shape portView (act body executions (inputNeeds.leading portView.holds))
      next scene
  kept : ∀ body next executions (portView : PortView α) (scene : Routine.Scene α μ), kind body →
    portView.Sound inputNeeds.shape → inputNeeds.sated portView.holds = true →
    portView.work μ inputNeeds.shape id body executions = ((.ok (), next), scene) → kind next

/-- Bodies that keep to their rates act as they would on their own. -/
theorem RateAbiding.acts [Work β α μ] {audited : Bool} {rates : WorkerRates}
    {inputNeeds : InputNeeds} {kind : β → Prop}
    (abiding : RateAbiding (α := α) μ audited rates inputNeeds kind)
    (id : WorkerId) : Acts μ id inputNeeds kind (respond (α := α) μ inputNeeds.shape) := by
  constructor
  · intro body next executions portView scene kept sound sated worked
    have performs := abiding.performs body executions id portView kept sound sated
    rw [worked] at performs
    refine ⟨performs.silent, performs.next, ?_, performs.takes, performs.gives⟩
    intro index _
    exact Nat.le_trans (respond_pops_le μ inputNeeds.shape body executions _ index)
      (InputNeeds.length_leading_le _ _ index)
  · intro body next executions portView scene kept sound sated worked
    have performs := abiding.performs body executions id portView kept sound sated
    rw [worked] at performs
    have nextEq := performs.next
    dsimp only at nextEq
    rw [nextEq]
    exact abiding.kept body executions portView kept sound sated

namespace Worker

/-- The place of a worker: its ports, and as many elements on each input as the larger of the
maximal peek rate and the maximal pop rate. -/
def inputNeeds (worker : Worker β μ) : InputNeeds :=
  { shape := worker.shape, need := fun index => (worker.rates.need? index).getD 0 }

/-- The body sends nothing, and what a successful firing takes, puts out and turns into is a
function of the state, the completed firings and the elements in front. -/
def Determined (α : Type) [Work β α μ] (id : WorkerId) (worker : Worker β μ) : Prop :=
  ∃ (kind : β → Prop) (act : β → Nat → (Nat → List α) → Response β α),
    kind worker.body ∧ Acts μ id worker.inputNeeds kind act

/-- A body that keeps to its rates is determined by what it would do on its own. -/
theorem determined_of_abides [Signature β] [Work β α μ] {worker : Worker β μ} {audited : Bool}
    (rated : worker.rates = Signature.rates worker.body worker.shape)
    (abides : Abides α μ audited worker.shape worker.body) (id : WorkerId) :
    worker.Determined α id := by
  obtain ⟨_, kind, member, abiding⟩ := abides
  have inputNeeds : worker.inputNeeds = InputNeeds.of worker.body worker.shape := by
    unfold Worker.inputNeeds InputNeeds.of
    rw [rated]
  refine ⟨kind, respond μ worker.shape, member, ?_⟩
  rw [inputNeeds]
  exact abiding.acts id

theorem inputNeeds_of_frame_eq {worker other : Worker β μ} (same : other.frame = worker.frame) :
    other.inputNeeds = worker.inputNeeds := by
  have inputs : other.inputs = worker.inputs := congrArg WorkerFrame.inputs same
  have outputs : other.outputs = worker.outputs := congrArg WorkerFrame.outputs same
  have rates : other.rates = worker.rates := congrArg WorkerFrame.rates same
  unfold inputNeeds shape
  rw [inputs, outputs, rates]

theorem sated_of_fed {graph : Graph β α μ} (sound : graph.frame.Sound) {id : WorkerId}
    {worker : Worker β μ} (known : graph.worker? id = some worker)
    (fed : worker.starvedInput graph.bank = .ok none) :
    worker.inputNeeds.sated (graph.portView worker).holds = true := by
  have fits : worker.rates.fits worker.shape = true := by
    apply sound.rated id worker.frame
    rw [Graph.frame_get, known]
    rfl
  rw [InputNeeds.sated_iff]
  intro index within
  have place : worker.inputs[index]? = some _ := List.getElem?_eq_getElem within
  obtain ⟨required, needed, enough⟩ := need_of_fed fits fed place
  unfold inputNeeds PortView.holds Graph.portView
  dsimp only
  rw [needed, Bank.onPort_of_some _ place]
  exact enough

end Worker

namespace Graph

def marking (graph : Graph β α μ) : Marking β α :=
  { state := fun id => (graph.worker? id).map (fun worker => (worker.body, worker.executions))
    items := fun channel => (graph.bank.channel channel).items }

theorem marking_state {graph : Graph β α μ} {id : WorkerId} {worker : Worker β μ}
    (known : graph.worker? id = some worker) :
    graph.marking.state id = some (worker.body, worker.executions) := by
  unfold marking
  dsimp only
  rw [known]
  rfl

theorem SameButCounts.marking_eq {left right : Graph β α μ} (same : left.SameButCounts right) :
    left.marking = right.marking := by
  refine Marking.ext ?_ (funext same.2.2)
  unfold marking worker?
  rw [same.1]

theorem executions?_of_state_eq {left right : Graph β α μ} {id : WorkerId}
    (same : left.marking.state id = right.marking.state id) :
    left.executions? id = right.executions? id := by
  have counts := congrArg (Option.map Prod.snd) same
  unfold marking at counts
  rw [Option.map_map, Option.map_map] at counts
  exact counts

/-- The net of a graph, in which the members of a section may fire. -/
def net (origin : Graph β α μ) (members : List WorkerId)
    (act : WorkerId → β → Nat → (Nat → List α) → Response β α) : Net β α :=
  { layout := origin.layout
    members := members
    need := fun id index =>
      ((origin.worker? id).map (fun worker => worker.inputNeeds.need index)).getD 0
    act := act }

/-- No message waits for anybody. -/
def Idle (graph : Graph β α μ) : Prop :=
  ∀ id worker, graph.worker? id = some worker → worker.queue = {}

theorem Fresh.idle {graph : Graph β α μ} (fresh : graph.Fresh) : graph.Idle :=
  fun id worker known => (fresh id worker known).2

/-- The graph is a later state of the other one: nobody has been sent anything, and the bodies
are of their kinds. -/
structure Embodied (origin : Graph β α μ) (kind : WorkerId → β → Prop)
    (graph : Graph β α μ) : Prop where
  frame_eq : graph.frame = origin.frame
  idle : graph.Idle
  kinds : ∀ id worker, graph.worker? id = some worker → kind id worker.body

theorem Embodied.congr {origin graph left : Graph β α μ} {kind : WorkerId → β → Prop}
    (embodied : Embodied origin kind graph) (workers : left.workers = graph.workers)
    (frame : left.frame = graph.frame) : Embodied origin kind left where
  frame_eq := frame.trans embodied.frame_eq
  idle := by
    unfold Idle worker?
    rw [workers]
    exact embodied.idle
  kinds := by
    unfold worker?
    rw [workers]
    exact embodied.kinds

/-- Between messages, what a marking does not show is in the frame. -/
theorem Embodied.workers_eq {origin left right : Graph β α μ} {kind : WorkerId → β → Prop}
    (embodied : Embodied origin kind left) (other : Embodied origin kind right)
    (same : left.marking = right.marking) : left.workers = right.workers := by
  apply List.ext_getElem?
  intro id
  change left.worker? id = right.worker? id
  have frame : left.frame = right.frame := embodied.frame_eq.trans other.frame_eq.symm
  have shown : left.marking.state id = right.marking.state id := by rw [same]
  cases leftKnown : left.worker? id with
  | none =>
      cases rightKnown : right.worker? id with
      | none => rfl
      | some worker =>
          obtain ⟨twin, found, _⟩ := worker_of_frame_eq frame.symm rightKnown
          rw [leftKnown] at found
          cases found
  | some worker =>
      obtain ⟨twin, rightKnown, twinFrame⟩ := worker_of_frame_eq frame leftKnown
      rw [marking_state leftKnown, marking_state rightKnown] at shown
      have idle := embodied.idle id worker leftKnown
      have twinIdle := other.idle id twin rightKnown
      rw [rightKnown]
      obtain ⟨number, name, kind, inputs, outputs, rates, executions, queue, bodyType, body⟩ :=
        worker
      obtain ⟨_, _, _, _, _, _, _, _, _, _⟩ := twin
      cases twinFrame
      cases shown
      cases idle
      cases twinIdle
      rfl

/-- The graph is sound and without shared buffers, and everybody acts as told. -/
structure Governed [Work β α μ] (origin : Graph β α μ)
    (kind : WorkerId → β → Prop)
    (act : WorkerId → β → Nat → (Nat → List α) → Response β α) : Prop where
  sound : origin.frame.Sound
  unshared : origin.bank.Unshared
  acts : ∀ id worker, origin.worker? id = some worker →
    Acts μ id worker.inputNeeds (kind id) (act id)

section

variable [Work β α μ] {origin graph left : Graph β α μ}
  {kind : WorkerId → β → Prop} {act : WorkerId → β → Nat → (Nat → List α) → Response β α}
  {members : List WorkerId} {id : WorkerId} {worker : Worker β μ}

omit [Work β α μ] in
theorem Built.describes [Signature β] (built : origin.Built) :
    origin.layout.Describes origin.frame := by
  obtain ⟨builder, _, made⟩ := built
  obtain ⟨after, workers, _, finished, rfl, _⟩ := build_view made
  exact layout_describes finished

theorem governed_of_determined (sound : origin.frame.Sound) (unshared : origin.bank.Unshared)
    (idle : origin.Idle)
    (determined : ∀ id worker, origin.worker? id = some worker → worker.Determined α id) :
    ∃ kind act, origin.Governed kind act ∧ Embodied origin kind origin := by
  have each (id : WorkerId) : ∃ (kind : β → Prop)
      (act : β → Nat → (Nat → List α) → Response β α), ∀ worker,
        origin.worker? id = some worker →
          kind worker.body ∧ Acts μ id worker.inputNeeds kind act := by
    cases known : origin.worker? id with
    | none =>
        refine ⟨fun _ => True, fun body _ _ => ⟨fun _ => 0, fun _ => [], body⟩, ?_⟩
        intro worker impossible
        cases impossible
    | some worker =>
        obtain ⟨kind, act, member, acts⟩ := determined id worker known
        refine ⟨kind, act, ?_⟩
        rintro other ⟨⟩
        exact ⟨member, acts⟩
  choose kind act each using each
  exact ⟨kind, act,
    ⟨sound, unshared, fun id worker known => (each id worker known).2⟩,
    ⟨rfl, idle, fun id worker known => (each id worker known).1⟩⟩

theorem Governed.layout_sound (governed : origin.Governed kind act) : origin.layout.Sound :=
  origin.layout_matches.sound governed.sound.wiring

omit [Work β α μ] in
theorem inputNeeds_net (frame : graph.frame = origin.frame)
    (known : graph.worker? id = some worker) :
    (origin.net members act).inputNeeds id = worker.inputNeeds := by
  obtain ⟨other, found, same⟩ := worker_of_frame_eq frame known
  rw [← Worker.inputNeeds_of_frame_eq same]
  unfold Net.inputNeeds net
  dsimp only
  rw [found, origin.layout_matches.worker_shape found]
  rfl

omit [Work β α μ] in
private theorem holds_net (frame : graph.frame = origin.frame)
    (known : graph.worker? id = some worker) (index : Nat)
    (within : index < worker.inputNeeds.shape.inputs) :
    (origin.net members act).holds graph.marking id index =
      (graph.portView worker).holds index := by
  have matched : origin.layout.Matches graph.frame := frame ▸ origin.layout_matches
  have shape := matched.worker_shape known
  rw [show worker.inputNeeds.shape = origin.layout.shape id from shape.symm] at within
  obtain ⟨channel, place⟩ := Layout.input_of_lt within
  unfold Net.holds PortView.holds portView
  rw [matched.onPort_input known graph.bank place]
  exact Layout.onInputs_of_some _ place

/-! ### Firings are events -/

omit [Work β α μ] in
private theorem drawn_le_of_answers {layout : Layout β} (wired : layout.Sound)
    (matched : layout.Matches graph.frame) (known : graph.worker? id = some worker)
    {response : Response β α} {next : β} {scene : Routine.Scene α μ}
    (answers : Answers worker.shape (graph.portView worker) response next scene)
    (channel : ChannelId) :
    layout.drawn id response.pops channel ≤ (graph.bank.channel channel).items.length := by
  by_cases mine : channel ∈ layout.inputs id
  · obtain ⟨index, place⟩ := List.mem_iff_getElem?.mp mine
    have within : index < worker.shape.inputs := by
      rw [← matched.worker_shape known]
      exact (List.getElem?_eq_some_iff.mp place).1
    have enough := answers.within index within
    unfold PortView.holds portView at enough
    dsimp only at enough
    rw [matched.onPort_input known _ place] at enough
    rw [Layout.drawn_of_input wired _ place]
    exact enough
  · rw [Layout.drawn_of_not_mem _ mine]
    exact Nat.zero_le _

omit [Work β α μ] in
private theorem items_of_answers {layout : Layout β} (wired : layout.Sound)
    (matched : layout.Matches graph.frame) (known : graph.worker? id = some worker)
    {response : Response β α} {next : β} {scene : Routine.Scene α μ}
    (answers : Answers worker.shape (graph.portView worker) response next scene)
    (others : ∀ channel, channel ∉ layout.inputs id → channel ∉ layout.outputs id →
      scene.bank.channel channel = graph.bank.channel channel) (channel : ChannelId) :
    (scene.bank.channel channel).items =
      (graph.bank.channel channel).items.drop (layout.drawn id response.pops channel) ++
        layout.poured id response.pushes channel := by
  have shape := matched.worker_shape known
  by_cases input : channel ∈ layout.inputs id
  · obtain ⟨index, place⟩ := List.mem_iff_getElem?.mp input
    have within : index < worker.shape.inputs := by
      rw [← shape]
      exact (List.getElem?_eq_some_iff.mp place).1
    have notOutput : channel ∉ layout.outputs id := by
      intro output
      obtain ⟨outputIndex, outputPlace⟩ := List.mem_iff_getElem?.mp output
      exact wired.apart id id outputIndex index channel outputPlace place rfl
    have taken := answers.takes index within
    unfold PortView.holds portView at taken
    dsimp only at taken
    rw [matched.onPort_input known _ place, matched.onPort_input known _ place] at taken
    rw [taken, Layout.drawn_of_input wired _ place, Layout.poured_of_not_mem _ notOutput,
      List.append_nil]
  · rw [Layout.drawn_of_not_mem _ input, List.drop_zero]
    by_cases output : channel ∈ layout.outputs id
    · obtain ⟨index, place⟩ := List.mem_iff_getElem?.mp output
      have within : index < worker.shape.outputs := by
        rw [← shape]
        exact (List.getElem?_eq_some_iff.mp place).1
      have given := answers.gives index within
      unfold portView at given
      dsimp only at given
      rw [matched.onPort_output known _ place, matched.onPort_output known _ place] at given
      rw [given, Layout.poured_of_output wired _ place]
    · rw [others channel input output, Layout.poured_of_not_mem _ output, List.append_nil]

omit [Work β α μ] in
private theorem state_worked (known : graph.worker? id = some worker) (body : β) (bank : Bank α)
    (other : WorkerId) : (graph.worked id worker body bank).marking.state other =
      if other = id then some (body, worker.executions + 1) else graph.marking.state other := by
  by_cases same : other = id
  · subst same
    have found := graph.worker?_setWorker_self
      { worker with body := body, executions := worker.executions + 1 }
      (List.getElem?_eq_some_iff.mp known).1
    rw [if_pos rfl]
    exact congrArg (Option.map (fun worker => (worker.body, worker.executions))) found
  · have found := graph.worker?_setWorker_of_ne
      { worker with body := body, executions := worker.executions + 1 } same
    rw [if_neg same]
    exact congrArg (Option.map (fun worker => (worker.body, worker.executions))) found

omit [Work β α μ] in
private theorem Embodied.worked (embodied : Embodied origin kind graph)
    (known : graph.worker? id = some worker) {body : β} (member : kind id body) {bank : Bank α}
    (frame : (graph.worked id worker body bank).frame = graph.frame) :
    Embodied origin kind (graph.worked id worker body bank) := by
  have each (other : WorkerId) (found : Worker β μ)
      (place : (graph.worked id worker body bank).worker? other = some found) :
      found.queue = {} ∧ kind other found.body := by
    change (graph.setWorker id _).worker? other = some found at place
    by_cases same : other = id
    · subst same
      rw [graph.worker?_setWorker_self _ (List.getElem?_eq_some_iff.mp known).1] at place
      cases place
      exact ⟨embodied.idle other worker known, member⟩
    · rw [graph.worker?_setWorker_of_ne _ same] at place
      exact ⟨embodied.idle other found place, embodied.kinds other found place⟩
  exact ⟨frame.trans embodied.frame_eq, fun other found place => (each other found place).1,
    fun other found place => (each other found place).2⟩

/-- A successful firing of a member that has what it needs is an event of the net. -/
theorem Embodied.fire [Recipient β μ] (embodied : Embodied origin kind graph)
    (governed : origin.Governed kind act) (inside : id ∈ members)
    (known : graph.worker? id = some worker) (fed : worker.starvedInput graph.bank = .ok none)
    (firing : graph.fire id = (.ok (), left)) :
    Embodied origin kind left ∧
      ∃ effect, (origin.net members act).Does graph.marking (.fire id) effect ∧
        left.marking = effect.apply graph.marking := by
  have frame := embodied.frame_eq
  have sound : graph.frame.Sound := frame ▸ governed.sound
  have unshared : graph.bank.Unshared :=
    governed.unshared.of_keys_eq (congrArg GraphFrame.keys frame.symm)
  have matched : origin.layout.Matches graph.frame := frame ▸ origin.layout_matches
  have wired : origin.layout.Sound := governed.layout_sound
  have sated := Worker.sated_of_fed sound known fed
  have acts : Acts μ id worker.inputNeeds (kind id) (act id) := by
    obtain ⟨other, found, same⟩ := worker_of_frame_eq frame known
    rw [← Worker.inputNeeds_of_frame_eq same]
    exact governed.acts id other found
  have frameLeft := graph.frame_fire id
  have view := graph.fire_view id
  rw [firing] at view frameLeft
  cases view with
  | @worked other ready body scene _ otherKnown delivery run routing =>
      rw [known] at otherKnown
      cases otherKnown
      rw [Worker.deliverDue_of_idle (embodied.idle id worker known)] at delivery
      cases delivery
      have worked : (graph.portView worker).work μ worker.inputNeeds.shape id worker.body
          worker.executions = ((.ok (), body), scene) := run
      have member := embodied.kinds id worker known
      have viewSound := portView_sound sound unshared known
      have answers := acts.answers _ _ _ _ _ member viewSound sated worked
      obtain ⟨response, responds⟩ : ∃ response, response = act id worker.body worker.executions
        (worker.inputNeeds.leading (graph.portView worker).holds) := ⟨_, rfl⟩
      rw [← responds] at answers
      rw [answers.silent] at routing
      cases routing
      have does : (origin.net members act).Does graph.marking (.fire id)
          { cut := origin.layout.drawn id response.pops
            extra := origin.layout.poured id response.pushes
            moved := some (id, response.next, worker.executions + 1) } := by
        refine .fire inside (marking_state known) ?_ ?_ ?_
        · rw [inputNeeds_net frame known,
            InputNeeds.sated_congr (holds_net frame known)]
          exact sated
        · unfold Net.response
          rw [inputNeeds_net frame known,
            InputNeeds.leading_congr (holds_net frame known)]
          exact responds
        · exact drawn_le_of_answers wired matched known answers
      refine ⟨embodied.worked known (acts.kept _ _ _ _ _ member viewSound sated worked)
        frameLeft, _, does, Marking.ext ?_ ?_⟩
      · funext other
        rw [answers.next_eq]
        exact state_worked known _ _ other
      · funext channel
        apply items_of_answers wired matched known answers
        intro channel noInput noOutput
        rw [matched.inputs] at noInput
        rw [matched.outputs] at noOutput
        have kept : (graph.runBody id worker).2.bank.channel channel =
            graph.bank.channel channel := by
          apply channel_runBody_of_no_port unshared known rfl
          · intro port member same
            exact noInput (same ▸ List.mem_map_of_mem member)
          · intro port member same
            exact noOutput (same ▸ List.mem_map_of_mem member)
        rw [run] at kept
        exact kept

omit [Work β α μ] in
/-- Elements put into a channel that no member feeds come in one by one. -/
theorem run_pushAll (unshared : graph.bank.Unshared) {channel : ChannelId}
    (known : channel < graph.bank.size) {net : Net β α}
    (foreign : ∀ id ∈ net.members, channel ∉ net.layout.outputs id) (elements : List α) :
    net.Run graph.marking (elements.map (.push channel))
      { graph with bank := graph.bank.pushAll channel elements }.marking := by
  have grown : { graph with bank := graph.bank.pushAll channel elements }.marking =
      { graph.marking with items := fun other =>
          graph.marking.items other ++ if other = channel then elements else [] } := by
    refine Marking.ext rfl (funext fun other => ?_)
    change ((graph.bank.set channel _).channel other).items =
      (graph.bank.channel other).items ++ _
    by_cases same : other = channel
    · subst same
      rw [Bank.channel_set_self _ _ known, Channel.items_pushAll, if_pos rfl]
    · rw [Bank.channel_set_of_ne unshared _ same, if_neg same, List.append_nil]
  rw [grown]
  exact Net.Run.pushes foreign elements graph.marking

end

end Graph

end DemandFlow
