import DemandFlow.Proofs.Interpreter.Stall
import DemandFlow.Proofs.Stream.Auditing

/-!
What channels carry while a stream runs. At every time a channel has carried a beginning of
what it carries in the end, so the firings are bounded; and a worker that is starved on a
channel which has carried everything has itself put out everything.
-/

set_option autoImplicit false

namespace DemandFlow

variable {β α μ : Type}

/-- The frame of an interpreter that runs a stream: all workers are in the section and abide
by their rates, elements enter through the source only, and they leave through the drain,
at the only sink. -/
structure InterpreterFrame.Hosts (frame : InterpreterFrame) (α μ : Type) [Signature β]
    [Work β α μ] (audited : Bool) (layout : Layout β) (source drain : ChannelId)
    (tail : WorkerId) : Prop where
  sound : frame.Sound
  describes : layout.Describes frame.graph
  known : ∀ id body, layout.body id = some body → id < frame.graph.workers.length
  owned : ∀ key ∈ frame.graph.keys, key = none
  abides : ∀ id body, layout.body id = some body → Abides α μ audited (layout.shape id) body
  entry : ∃ id, source ∈ layout.inputs id
  foreign : ∀ id, source ∉ layout.outputs id
  terminal : ∀ id, drain ∉ layout.inputs id
  unconstrained : frame.constraints = []
  enters : ∀ id, ∀ port ∈ frame.graph.wiring.inputs id,
    (∀ peer ∈ frame.members, port.peer ≠ some peer) → port.channel = source
  sinks : frame.sinks = [tail]
  leaves : drain ∈ layout.outputs tail
  delegate : frame.delegate = { audits := audited }
  supplied : ∀ (elements : List α) (id : Nat), id < frame.graph.workers.length →
    layout.Supplied μ source elements id

section

variable [Signature β] [Work β α μ] {layout : Layout β} {carried : ChannelId → List α}
  {bank : Bank α} {id : Nat} {worker : Worker β μ} {body : β} {progress : Progress β α}

/-- A worker has come as far with any inputs that begin with what its own have carried. -/
theorem Tracks.reaches_of_begins (tracks : Tracks layout carried bank id worker body progress)
    {ins : Nat → List α}
    (begins : ∀ (index : Nat) (channel : ChannelId),
      (layout.inputs id)[index]? = some channel → carried channel <+: ins index) :
    (Progress.initial body ins).Reaches μ (InputNeeds.of body (layout.shape id))
      (progress.extend
        (fun index => (ins index).drop (layout.onInputs carried id index).length)) := by
  have whole : (fun index => layout.onInputs carried id index ++
      (ins index).drop (layout.onInputs carried id index).length) = ins := by
    funext index
    unfold Layout.onInputs
    cases place : (layout.inputs id)[index]? with
    | none => rfl
    | some channel => exact List.prefix_iff_eq_append.mp (begins index channel place)
  have further := tracks.reaches.extend
    (fun index => (ins index).drop (layout.onInputs carried id index).length)
  unfold Progress.initial Progress.extend at further
  dsimp only at further
  rw [whole] at further
  exact further

end

section

variable [Signature β] [Work β α μ] {frame : InterpreterFrame} {audited : Bool}
  {layout : Layout β} {source drain : ChannelId} {tail : WorkerId}
  {carried : ChannelId → List α} {graph : Graph β α μ} {elements : List α}

theorem InterpreterFrame.Hosts.layout_sound
    (hosts : frame.Hosts α μ audited layout source drain tail) : layout.Sound :=
  hosts.describes.sound hosts.sound.graph.wiring

theorem InterpreterFrame.Hosts.unshared
    (hosts : frame.Hosts α μ audited layout source drain tail)
    (framed : graph.frame = frame.graph) : graph.bank.Unshared := by
  intro left right key leftShared rightShared
  have member : some key ∈ frame.graph.keys := by
    rw [← framed]
    exact List.mem_map.mpr ⟨_, List.mem_of_getElem? leftShared, rfl⟩
  cases hosts.owned _ member

omit [Signature β] [Work β α μ] in
theorem Graph.worker_of_lt (framed : graph.frame = frame.graph) {id : Nat}
    (within : id < frame.graph.workers.length) : ∃ worker, graph.worker? id = some worker := by
  rw [← framed] at within
  unfold Graph.frame at within
  rw [List.length_map] at within
  exact ⟨_, List.getElem?_eq_getElem within⟩

/-- What a channel has carried is the beginning of what it carries in the end. -/
theorem Simulates.carried_begins (simulates : Simulates layout drain carried graph)
    (hosts : frame.Hosts α μ audited layout source drain tail)
    (framed : graph.frame = frame.graph) (offered : carried source <+: elements)
    {channel : ChannelId} {final : List α}
    (denotes : layout.Denotes μ source elements channel final) :
    carried channel <+: final := by
  induction denotes with
  | source => exact offered
  | @produced id output body channel ins placed inputs port inductionHypothesis =>
      obtain ⟨worker, known⟩ := Graph.worker_of_lt framed (hosts.known id body placed)
      obtain ⟨other, progress, tracks⟩ := simulates.workers id worker known
      have same := tracks.known
      rw [placed] at same
      cases same
      have begins := (tracks.reaches_of_begins inductionHypothesis).pushed_begins
        (hosts.abides id body placed) output
      rw [tracks.outputs output channel port]
      exact begins

theorem InterpreterFrame.Hosts.acc (hosts : frame.Hosts α μ audited layout source drain tail)
    {id : Nat} (within : id < frame.graph.workers.length) : Acc layout.Feeds id := by
  constructor
  intro producer feeds
  obtain ⟨channel, gives, takes⟩ := feeds
  obtain ⟨final, denotes⟩ := hosts.supplied ([] : List α) id within channel takes
  exact denotes.acc hosts.layout_sound hosts.foreign gives

private theorem Layout.Supplied.inputs {id : Nat}
    (supplied : layout.Supplied μ source elements id) :
    ∃ ins : Nat → List α, ∀ (index : Nat) (channel : ChannelId),
      (layout.inputs id)[index]? = some channel →
        layout.Denotes μ source elements channel (ins index) := by
  have each : ∀ index : Nat, ∃ final : List α, ∀ channel,
      (layout.inputs id)[index]? = some channel →
        layout.Denotes μ source elements channel final := by
    intro index
    cases place : (layout.inputs id)[index]? with
    | none => exact ⟨[], fun _ impossible => by cases impossible⟩
    | some channel =>
        obtain ⟨final, denotes⟩ := supplied channel (List.mem_of_getElem? place)
        refine ⟨final, fun other same => ?_⟩
        cases same
        exact denotes
  obtain ⟨ins, denote⟩ := Classical.skolem.mp each
  exact ⟨ins, denote⟩

/-- The graph runs the stream and has been offered a beginning of the elements. -/
structure Within (layout : Layout β) (frame : GraphFrame) (source drain : ChannelId)
    (elements : List α) (carried : ChannelId → List α) (graph : Graph β α μ) : Prop where
  framed : graph.frame = frame
  simulates : Simulates layout drain carried graph
  offered : carried source <+: elements

/-- Whoever runs the stream and has been offered a beginning of the elements has fired no
more often than this, all workers together. -/
def FiringBound (μ : Type) [Work β α μ] (layout : Layout β) (frame : GraphFrame)
    (source drain : ChannelId) (elements : List α) (bound : Nat) : Prop :=
  ∀ (carried : ChannelId → List α) (graph : Graph β α μ),
    Within layout frame source drain elements carried graph → graph.totalExecutions ≤ bound

private theorem InterpreterFrame.Hosts.executions_bound
    (hosts : frame.Hosts α μ audited layout source drain tail) (elements : List α) {id : Nat}
    (within : id < frame.graph.workers.length) :
    ∃ bound, ∀ (carried : ChannelId → List α) (graph : Graph β α μ) (worker : Worker β μ),
      Within layout frame.graph source drain elements carried graph →
        graph.worker? id = some worker → worker.executions ≤ bound := by
  obtain ⟨ins, denote⟩ := (hosts.supplied elements id within).inputs
  by_cases placed : ∃ body, layout.body id = some body
  · obtain ⟨body, placed⟩ := placed
    refine ⟨(InputNeeds.of body (layout.shape id)).total ins, ?_⟩
    intro carried graph worker running known
    obtain ⟨other, progress, tracks⟩ := running.simulates.workers id worker known
    have same := tracks.known
    rw [placed] at same
    cases same
    have reaches := tracks.reaches_of_begins (fun index channel place =>
      running.simulates.carried_begins hosts running.framed running.offered
        (denote index channel place))
    have bounded := reaches.executions_le_total (hosts.abides id body placed)
    rw [tracks.executions]
    exact Nat.le_trans (Nat.le_add_right _ _) bounded
  · refine ⟨0, ?_⟩
    intro carried graph worker running known
    obtain ⟨body, progress, tracks⟩ := running.simulates.workers id worker known
    exact absurd ⟨body, tracks.known⟩ placed

theorem InterpreterFrame.Hosts.firing_bound
    (hosts : frame.Hosts α μ audited layout source drain tail) (elements : List α) :
    ∃ bound, FiringBound μ layout frame.graph source drain elements bound := by
  have upTo : ∀ count, count ≤ frame.graph.workers.length → ∃ bound, ∀ id, id < count →
      ∀ (carried : ChannelId → List α) (graph : Graph β α μ) (worker : Worker β μ),
        Within layout frame.graph source drain elements carried graph →
          graph.worker? id = some worker → worker.executions ≤ bound := by
    intro count
    induction count with
    | zero => exact fun _ => ⟨0, fun id below => absurd below (Nat.not_lt_zero id)⟩
    | succ count inductionHypothesis =>
        intro range
        obtain ⟨bound, others⟩ := inductionHypothesis (by omega)
        have valid : count < frame.graph.workers.length := by omega
        obtain ⟨last, here⟩ := hosts.executions_bound elements valid
        refine ⟨max bound last, ?_⟩
        intro id below carried graph worker running known
        by_cases same : id = count
        · subst same
          exact Nat.le_trans (here carried graph worker running known) (Nat.le_max_right _ _)
        · exact Nat.le_trans (others id (by omega) carried graph worker running known)
            (Nat.le_max_left _ _)
  obtain ⟨bound, each⟩ := upTo _ (Nat.le_refl _)
  refine ⟨frame.graph.workers.length * bound, ?_⟩
  intro carried graph running
  have lengths : frame.graph.workers.length = graph.workers.length := by
    rw [← running.framed]
    exact List.length_map _
  rw [lengths]
  apply tally_le_mul
  intro worker member
  obtain ⟨id, place⟩ := List.mem_iff_getElem?.mp member
  have below := (List.getElem?_eq_some_iff.mp place).1
  exact each id (by omega) carried graph worker running place

/-- The channel has carried all it ever will, unless more elements come in. -/
def Layout.Complete (μ : Type) [Work β α μ] (layout : Layout β) (source : ChannelId)
    (carried : ChannelId → List α) (channel : ChannelId) : Prop :=
  ∀ final, layout.Denotes μ source (carried source) channel final → carried channel = final

theorem InterpreterFrame.Hosts.complete_source
    (hosts : frame.Hosts α μ audited layout source drain tail)
    (carried : ChannelId → List α) : layout.Complete μ source carried source := by
  intro final denotes
  cases denotes with
  | source => rfl
  | produced placed inputs port =>
      exact absurd (List.mem_of_getElem? port) (hosts.foreign _)

/-- A worker that is starved on a channel which has carried everything has put out
everything. -/
theorem Simulates.complete_outputs (simulates : Simulates layout drain carried graph)
    (hosts : frame.Hosts α μ audited layout source drain tail)
    (framed : graph.frame = frame.graph) {id : Nat} {worker : Worker β μ}
    (known : graph.worker? id = some worker) {index : Nat} {channel : ChannelId}
    (place : (layout.inputs id)[index]? = some channel)
    {required : Nat} (needed : worker.rates.need? index = some required)
    (short : (graph.bank.channel channel).size < required)
    (complete : layout.Complete μ source carried channel) :
    ∀ output ∈ layout.outputs id, layout.Complete μ source carried output := by
  intro output member final denotes
  obtain ⟨outputIndex, port⟩ := List.mem_iff_getElem?.mp member
  obtain ⟨body, ins, placed, inputs, rfl⟩ :=
    denotes.of_output hosts.layout_sound hosts.foreign port
  obtain ⟨other, progress, tracks⟩ := simulates.workers id worker known
  have same := tracks.known
  rw [placed] at same
  cases same
  have reaches := tracks.reaches_of_begins (fun otherIndex input inputPlace =>
    simulates.carried_begins hosts framed (List.prefix_refl _) (inputs otherIndex input inputPlace))
  have starved : (InputNeeds.of body (layout.shape id)).sated (progress.extend
      (fun index => (ins index).drop (layout.onInputs carried id index).length)).rest =
        false := by
    rw [Bool.eq_false_iff]
    intro sated
    have enough := InputNeeds.sated_iff.mp sated index (List.getElem?_eq_some_iff.mp place).1
    have nothing : (ins index).drop (layout.onInputs carried id index).length = [] := by
      rw [Layout.onInputs_of_some carried place, complete _ (inputs index channel place)]
      exact List.drop_length
    unfold Progress.extend at enough
    dsimp only at enough
    rw [nothing, List.append_nil, ← tracks.inputs index channel place] at enough
    have describes : layout.Describes graph.frame := framed ▸ hosts.describes
    rw [describes.worker_rates known placed] at needed
    unfold InputNeeds.of at enough
    dsimp only at enough
    rw [needed] at enough
    unfold Channel.size at short
    simp only [Option.getD_some] at enough
    omega
  rw [reaches.pushed_eq (hosts.abides id body placed) starved]
  exact tracks.outputs outputIndex output port

end

end DemandFlow
