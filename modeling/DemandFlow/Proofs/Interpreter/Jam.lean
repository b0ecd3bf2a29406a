import DemandFlow.Proofs.Graph.Passage
import DemandFlow.Proofs.Interpreter.Stall

/-!
Jams. A look at a worker that cannot fire turns to one definite worker: the producer of the
lowest starved input or, if no input is starved, the first sender that is due. A worker is
jammed if this leads, in finitely many turns, to an input that is fed from outside the section.
A jam outlasts every firing of the section, with the very same workers in it.
-/

set_option autoImplicit false

namespace DemandFlow

variable {β α μ : Type}

def DeliverySchedule.Nondecreasing (schedule : DeliverySchedule) : Prop :=
  ∀ earlier later, earlier ≤ later → schedule.deliveryTime earlier ≤ schedule.deliveryTime later

theorem DeliverySchedule.nondecreasing_latency (firings : Int) :
    (DeliverySchedule.latency firings).Nondecreasing := by
  intro earlier later ordered
  unfold deliveryTime saturate
  dsimp only
  omega

namespace Worker

/-- Where no input loses elements, inputs that held enough still do. -/
theorem starvedFrom_none_kept {worker other : Worker β μ} {bank after : Bank α} {input : Nat}
    {ports : List (Port × Rate × Rate)} (fed : worker.starvedFrom bank input ports = .ok none)
    (grows : ∀ entry ∈ ports,
      (bank.channel entry.1.channel).size ≤ (after.channel entry.1.channel).size) :
    other.starvedFrom after input ports = .ok none := by
  induction ports generalizing input with
  | nil => rfl
  | cons entry rest inductionHypothesis =>
      obtain ⟨port, peek, pop⟩ := entry
      rw [List.forall_mem_cons] at grows
      unfold starvedFrom at fed ⊢
      cases demanded : demand? peek pop with
      | none =>
          rw [demanded] at fed
          cases fed
      | some required =>
          rw [demanded] at fed
          dsimp only at fed ⊢
          split at fed
          next => cases fed
          next enough =>
            rw [if_neg (by have := grows.1; dsimp only at this; omega)]
            exact inductionHypothesis fed grows.2

private theorem starvedFrom_some_kept {worker other : Worker β μ} {bank after : Bank α}
    {input found : Nat} {ports : List (Port × Rate × Rate)}
    (starved : worker.starvedFrom bank input ports = .ok (some found))
    (grows : ∀ entry ∈ ports,
      (bank.channel entry.1.channel).size ≤ (after.channel entry.1.channel).size)
    (still : ∀ entry, ports[found - input]? = some entry →
      (after.channel entry.1.channel).size ≤ (bank.channel entry.1.channel).size) :
    other.starvedFrom after input ports = .ok (some found) := by
  induction ports generalizing input with
  | nil => cases starved
  | cons entry rest inductionHypothesis =>
      obtain ⟨port, peek, pop⟩ := entry
      rw [List.forall_mem_cons] at grows
      unfold starvedFrom at starved ⊢
      cases demanded : demand? peek pop with
      | none =>
          rw [demanded] at starved
          cases starved
      | some required =>
          rw [demanded] at starved
          dsimp only at starved ⊢
          split at starved
          next short =>
            cases starved
            have same := still _ (by rw [Nat.sub_self]; rfl)
            rw [if_pos (Nat.lt_of_le_of_lt same short)]
          next enough =>
            obtain ⟨offset, _, _, _, _, place, _⟩ := Interpreter.starvedFrom_some starved
            rw [if_neg (by have := grows.1; dsimp only at this; omega)]
            apply inductionHypothesis starved grows.2
            intro later laterAt
            apply still later
            rw [show found - input = found - (input + 1) + 1 by omega, List.getElem?_cons_succ]
            exact laterAt

end Worker

namespace Interpreter

/-- A look at the worker turns to the target: to a worker of the section or, without one, to
the outside. -/
inductive Needs (interpreter : Interpreter β α μ) (id : WorkerId) : Option WorkerId → Prop where
  | input {worker : Worker β μ} {input : Nat} {target : Option WorkerId}
      (known : interpreter.graph.worker? id = some worker)
      (starved : worker.starvedInput interpreter.graph.bank = .ok (some input))
      (feeds : interpreter.producer? worker input = target) : Needs interpreter id target
  | sender {worker : Worker β μ} {sender : WorkerId}
      (known : interpreter.graph.worker? id = some worker)
      (fed : worker.starvedInput interpreter.graph.bank = .ok none)
      (due : interpreter.dueSender? id worker.upcoming = some sender) :
      Needs interpreter id (some sender)

theorem Needs.unique {interpreter : Interpreter β α μ} {id : WorkerId}
    {left right : Option WorkerId} (first : interpreter.Needs id left)
    (second : interpreter.Needs id right) : left = right := by
  cases first with
  | input known starved feeds =>
      cases second with
      | input otherKnown otherStarved otherFeeds =>
          rw [known] at otherKnown
          cases otherKnown
          rw [starved] at otherStarved
          cases otherStarved
          exact feeds.symm.trans otherFeeds
      | sender otherKnown otherFed otherDue =>
          rw [known] at otherKnown
          cases otherKnown
          rw [starved] at otherFed
          cases otherFed
  | sender known fed due =>
      cases second with
      | input otherKnown otherStarved otherFeeds =>
          rw [known] at otherKnown
          cases otherKnown
          rw [fed] at otherStarved
          cases otherStarved
      | sender otherKnown otherFed otherDue =>
          rw [known] at otherKnown
          cases otherKnown
          exact due.symm.trans otherDue

theorem Needs.not_ready {interpreter : Interpreter β α μ} {id : WorkerId}
    {target : Option WorkerId} (needs : interpreter.Needs id target) {worker : Worker β μ} :
    ¬ interpreter.Ready id worker := by
  intro ready
  cases needs with
  | input known starved feeds =>
      rw [ready.known] at known
      cases known
      rw [ready.fed] at starved
      cases starved
  | sender known fed due =>
      rw [ready.known] at known
      cases known
      rw [ready.punctual] at due
      cases due

private theorem Needs.target_mem {interpreter : Interpreter β α μ} {id peer : WorkerId}
    (needs : interpreter.Needs id (some peer)) (sound : interpreter.frame.Sound) :
    peer ∈ interpreter.members := by
  cases needs with
  | input known starved feeds => exact producer?_inside feeds
  | sender known fed due =>
      obtain ⟨constraint, scheduled, _, rfl, _⟩ := dueSender?_eq_some due
      exact (sound.inside constraint scheduled).1

theorem feeds_of_producer? {interpreter : Interpreter β α μ} {worker : Worker β μ} {input : Nat}
    {port : Port} (place : worker.inputs[input]? = some port) :
    interpreter.Feeds (interpreter.producer? worker input) port := by
  unfold producer?
  rw [place, Option.bind_some]
  cases named : port.peer with
  | none =>
      intro peer _ same
      rw [named] at same
      cases same
  | some peer =>
      by_cases inside : peer ∈ interpreter.members
      · rw [Option.filter_some, if_pos (List.contains_iff_mem.mpr inside)]
        exact ⟨named, inside⟩
      · rw [Option.filter_some, if_neg (fun among => inside (List.contains_iff_mem.mp among))]
        intro other otherIn same
        rw [named] at same
        cases same
        exact inside otherIn

/-- The first constraint with a property is still the first one when others have only lost
the property. -/
theorem find?_kept {γ : Type} {before after : γ → Bool} {items : List γ} {found : γ}
    (first : items.find? before = some found) (still : after found = true)
    (lost : ∀ item ∈ items, after item = true → before item = true) :
    items.find? after = some found := by
  obtain ⟨_, front, back, parts, earlier⟩ := List.find?_eq_some_iff_append.mp first
  refine List.find?_eq_some_iff_append.mpr ⟨still, front, back, parts, ?_⟩
  intro item member
  have absent := earlier item member
  cases now : after item with
  | false => rfl
  | true =>
      rw [lost item (by rw [parts]; exact List.mem_append_left _ member) now] at absent
      cases absent

/-- Whom a look turns to stays the same while the inputs of the worker lose nothing, what
the target feeds gains nothing, and counts of others only go up. -/
theorem Needs.outlasts {before after : Interpreter β α μ} {id : WorkerId}
    {target : Option WorkerId} (needs : before.Needs id target)
    (frame : after.frame = before.frame)
    (nondecreasing : ∀ constraint ∈ before.constraints, constraint.schedule.Nondecreasing)
    (own : after.graph.executions? id = before.graph.executions? id)
    (awaited : ∀ peer, target = some peer →
      after.graph.executions? peer = before.graph.executions? peer)
    (others : ∀ peer later, after.graph.executions? peer = some later →
      ∃ sent, before.graph.executions? peer = some sent ∧ sent ≤ later)
    (grows : ∀ port ∈ before.graph.frame.wiring.inputs id,
      (before.graph.bank.channel port.channel).size ≤
        (after.graph.bank.channel port.channel).size)
    (still : ∀ port ∈ before.graph.frame.wiring.inputs id, before.Feeds target port →
      (after.graph.bank.channel port.channel).size ≤
        (before.graph.bank.channel port.channel).size) : after.Needs id target := by
  have graphFrame : after.graph.frame = before.graph.frame :=
    congrArg InterpreterFrame.graph frame
  have members : after.members = before.members := congrArg InterpreterFrame.members frame
  have constraints : after.constraints = before.constraints :=
    congrArg InterpreterFrame.constraints frame
  -- The worker after has the ports and rates of the worker before, and its inputs have grown.
  have looked {worker : Worker β μ} (known : before.graph.worker? id = some worker) :
      ∃ other, after.graph.worker? id = some other ∧ other.inputs = worker.inputs ∧
        other.rates = worker.rates ∧ other.executions = worker.executions ∧
        ∀ entry ∈ worker.inputs.zip (worker.rates.peek.zip worker.rates.pop),
          (before.graph.bank.channel entry.1.channel).size ≤
            (after.graph.bank.channel entry.1.channel).size := by
    obtain ⟨other, found, same⟩ := Graph.worker_of_frame_eq graphFrame.symm known
    refine ⟨other, found, congrArg WorkerFrame.inputs same, congrArg WorkerFrame.rates same, ?_,
      ?_⟩
    · rw [Graph.executions?_of_known found, Graph.executions?_of_known known] at own
      exact Option.some.inj own
    · rintro ⟨port, rates⟩ member
      apply grows port
      rw [Graph.wiring_inputs known]
      exact (List.of_mem_zip member).1
  cases needs with
  | @input worker input _ known starved feeds =>
      obtain ⟨other, found, inputs, rates, _, grown⟩ := looked known
      have starvedStill : other.starvedInput after.graph.bank = .ok (some input) := by
        unfold Worker.starvedInput at starved ⊢
        rw [inputs, rates]
        apply Worker.starvedFrom_some_kept starved grown
        rintro ⟨port, peek, pop⟩ place
        rw [Nat.sub_zero, List.getElem?_zip_eq_some] at place
        apply still port
        · rw [Graph.wiring_inputs known]
          exact List.mem_of_getElem? place.1
        · rw [← feeds]
          exact feeds_of_producer? place.1
      refine .input found starvedStill ?_
      rw [← feeds]
      unfold producer?
      rw [inputs, members]
  | @sender worker sender known fed due =>
      obtain ⟨other, found, inputs, rates, executions, grown⟩ := looked known
      refine .sender found ?_ ?_
      · unfold Worker.starvedInput at fed ⊢
        rw [inputs, rates]
        exact Worker.starvedFrom_none_kept fed grown
      · have upcoming : other.upcoming = worker.upcoming := by
          unfold Worker.upcoming
          rw [executions]
        unfold dueSender? at due ⊢
        obtain ⟨constraint, first, same⟩ := Option.map_eq_some_iff.mp due
        rw [Option.map_eq_some_iff, constraints, upcoming]
        refine ⟨constraint, find?_kept first ?_ ?_, same⟩
        · have holds := List.find?_some first
          rw [Bool.and_eq_true] at holds ⊢
          refine ⟨holds.1, ?_⟩
          obtain ⟨sent, sends, passed⟩ := isDue_eq_true.mp holds.2
          refine isDue_eq_true.mpr ⟨sent, ?_, passed⟩
          rw [awaited constraint.sender (congrArg some same.symm)]
          exact sends
        · intro other member holds
          rw [Bool.and_eq_true] at holds ⊢
          refine ⟨holds.1, ?_⟩
          obtain ⟨later, sends, passed⟩ := isDue_eq_true.mp holds.2
          obtain ⟨sent, earlier, ordered⟩ := others other.sender later sends
          exact isDue_eq_true.mpr ⟨sent, earlier,
            Nat.le_trans (nondecreasing other member sent later ordered) passed⟩

theorem Needs.congr {before after : Interpreter β α μ} {id : WorkerId}
    {target : Option WorkerId} (needs : before.Needs id target)
    (frame : after.frame = before.frame)
    (nondecreasing : ∀ constraint ∈ before.constraints, constraint.schedule.Nondecreasing)
    (same : after.graph.SameButCounts before.graph) : after.Needs id target := by
  have counts (other : WorkerId) :
      after.graph.executions? other = before.graph.executions? other := by
    unfold Graph.executions? Graph.worker?
    rw [same.1]
  have sizes (channel : ChannelId) : (after.graph.bank.channel channel).size =
      (before.graph.bank.channel channel).size := congrArg List.length (same.2.2 channel)
  refine needs.outlasts frame nondecreasing (counts id) (fun peer _ => counts peer) ?_ ?_ ?_
  · intro peer later sends
    exact ⟨later, (counts peer).symm.trans sends, Nat.le_refl _⟩
  · exact fun port _ => Nat.le_of_eq (sizes port.channel).symm
  · exact fun port _ _ => Nat.le_of_eq (sizes port.channel)

/-- It outlasts a firing of any worker of the section but the two. -/
theorem Needs.fire [Recipient β μ] [Work β α μ] {interpreter : Interpreter β α μ}
    {graph : Graph β α μ} {id current : WorkerId} {worker : Worker β μ}
    {target : Option WorkerId} (needs : interpreter.Needs id target)
    (sound : interpreter.frame.Sound) (unshared : interpreter.graph.bank.Unshared)
    (nondecreasing : ∀ constraint ∈ interpreter.constraints, constraint.schedule.Nondecreasing)
    (inside : current ∈ interpreter.members)
    (known : interpreter.graph.worker? current = some worker)
    (firing : interpreter.graph.fire current = (.ok (), graph)) (notLooked : id ≠ current)
    (notTarget : target ≠ some current) : { interpreter with graph := graph }.Needs id target := by
  have graphSound : interpreter.graph.frame.Sound := sound.graph
  have apart (other : WorkerId) (different : other ≠ current) :
      graph.executions? other = interpreter.graph.executions? other := by
    have kept := interpreter.graph.executions?_fire_of_ne different
    rw [firing] at kept
    exact kept
  refine needs.outlasts ?_ nondecreasing (apart id notLooked) ?_ ?_ ?_ ?_
  · have same := interpreter.graph.frame_fire current
    rw [firing] at same
    unfold Interpreter.frame
    rw [← same]
  · rintro peer rfl
    exact apart peer (fun same => notTarget (congrArg some same))
  · intro peer later counted
    by_cases here : peer = current
    · subst here
      change graph.executions? peer = some later at counted
      rw [Graph.executions?_fire_self known firing] at counted
      cases counted
      exact ⟨_, Graph.executions?_of_known known, Nat.le_succ _⟩
    · exact ⟨later, (apart peer here).symm.trans counted, Nat.le_refl _⟩
  · intro port member
    have gained := Graph.items_fire_gain unshared current (fun input inputIn same => by
      obtain ⟨index, place⟩ := List.mem_iff_getElem?.mp member
      obtain ⟨inputIndex, inputPlace⟩ := List.mem_iff_getElem?.mp inputIn
      exact notLooked
        (graphSound.wiring.inputOnce id current _ _ port input place inputPlace same).1)
    rw [firing] at gained
    exact gained.length_le
  · intro port member feeds
    have notFeeding : port.peer ≠ some current := by
      intro named
      cases target with
      | none => exact feeds current inside named
      | some peer => exact notTarget (feeds.1.symm.trans named)
    have kept := Graph.channel_fire_of_input unshared graphSound notLooked member notFeeding
    rw [firing] at kept
    exact Nat.le_of_eq (congrArg Channel.size kept)

/-- In so many turns the looks lead from the worker to an input that is fed from outside. -/
inductive Jammed (interpreter : Interpreter β α μ) : WorkerId → Nat → Prop where
  | outside {id : WorkerId} (needs : interpreter.Needs id none) : Jammed interpreter id 0
  | behind {id peer : WorkerId} {depth : Nat} (needs : interpreter.Needs id (some peer))
      (deeper : Jammed interpreter peer depth) : Jammed interpreter id (depth + 1)

theorem Jammed.not_ready {interpreter : Interpreter β α μ} {id : WorkerId} {depth : Nat}
    (jammed : interpreter.Jammed id depth) {worker : Worker β μ} :
    ¬ interpreter.Ready id worker := by
  cases jammed with
  | outside needs => exact needs.not_ready
  | behind needs deeper => exact needs.not_ready

theorem Jammed.unique {interpreter : Interpreter β α μ} {id : WorkerId} {depth other : Nat}
    (jammed : interpreter.Jammed id depth) (again : interpreter.Jammed id other) :
    depth = other := by
  induction jammed generalizing other with
  | outside needs =>
      cases again with
      | outside _ => rfl
      | behind otherNeeds _ => cases needs.unique otherNeeds
  | behind needs deeper inductionHypothesis =>
      cases again with
      | outside otherNeeds => cases needs.unique otherNeeds
      | behind otherNeeds otherDeeper =>
          cases needs.unique otherNeeds
          rw [inductionHypothesis otherDeeper]

/-- A jam outlasts what each of its links outlasts. -/
theorem Jammed.outlasts {before after : Interpreter β α μ} {id : WorkerId} {depth : Nat}
    (jammed : before.Jammed id depth)
    (links : ∀ looked target, before.Needs looked target →
      (∀ peer, target = some peer → ∃ depth, before.Jammed peer depth) →
      after.Needs looked target) : after.Jammed id depth := by
  induction jammed with
  | outside needs => exact .outside (links _ _ needs nofun)
  | behind needs deeper inductionHypothesis =>
      refine .behind (links _ _ needs ?_) inductionHypothesis
      rintro peer ⟨⟩
      exact ⟨_, deeper⟩

theorem Jammed.congr {before after : Interpreter β α μ} {id : WorkerId} {depth : Nat}
    (jammed : before.Jammed id depth) (frame : after.frame = before.frame)
    (nondecreasing : ∀ constraint ∈ before.constraints, constraint.schedule.Nondecreasing)
    (same : after.graph.SameButCounts before.graph) : after.Jammed id depth :=
  jammed.outlasts (fun _ _ needs _ => needs.congr frame nondecreasing same)

/-- Who fires is ready, so it is not in the jam, and the jam stays. -/
theorem Jammed.fire [Recipient β μ] [Work β α μ] {interpreter : Interpreter β α μ}
    {graph : Graph β α μ} {id current : WorkerId} {worker : Worker β μ} {depth : Nat}
    (jammed : interpreter.Jammed id depth) (sound : interpreter.frame.Sound)
    (unshared : interpreter.graph.bank.Unshared)
    (nondecreasing : ∀ constraint ∈ interpreter.constraints, constraint.schedule.Nondecreasing)
    (inside : current ∈ interpreter.members) (ready : interpreter.Ready current worker)
    (firing : interpreter.graph.fire current = (.ok (), graph)) :
    { interpreter with graph := graph }.Jammed id depth := by
  apply jammed.outlasts
  intro looked target needs deeper
  apply needs.fire sound unshared nondecreasing inside ready.known firing
  · rintro rfl
    exact needs.not_ready ready
  · rintro rfl
    obtain ⟨_, jam⟩ := deeper current rfl
    exact jam.not_ready ready

/-- A jam goes through every worker at most once, so it is no deeper than the section. -/
theorem Jammed.depth_lt {interpreter : Interpreter β α μ} {id : WorkerId} {depth : Nat}
    (jammed : interpreter.Jammed id depth) (sound : interpreter.frame.Sound)
    (inside : id ∈ interpreter.members) : depth < interpreter.members.length := by
  have chain : ∃ chain : List WorkerId, chain.length = depth + 1 ∧ chain.Nodup ∧
      ∀ other ∈ chain, other ∈ interpreter.members ∧
        ∃ lower, lower ≤ depth ∧ interpreter.Jammed other lower := by
    induction jammed with
    | @outside id needs =>
        refine ⟨[id], rfl, List.pairwise_singleton _ id, ?_⟩
        rw [List.forall_mem_singleton]
        exact ⟨inside, 0, Nat.le_refl 0, .outside needs⟩
    | @behind id peer depth needs deeper inductionHypothesis =>
        obtain ⟨chain, length, nodup, held⟩ := inductionHypothesis (needs.target_mem sound)
        refine ⟨id :: chain, by rw [List.length_cons, length], ?_, ?_⟩
        · refine List.nodup_cons.mpr ⟨?_, nodup⟩
          intro among
          obtain ⟨_, lower, within, jam⟩ := held id among
          have same := jam.unique (.behind needs deeper)
          omega
        · rw [List.forall_mem_cons]
          refine ⟨⟨inside, depth + 1, Nat.le_refl _, .behind needs deeper⟩, ?_⟩
          intro other among
          obtain ⟨otherIn, lower, within, jam⟩ := held other among
          exact ⟨otherIn, lower, Nat.le_succ_of_le within, jam⟩
  obtain ⟨chain, length, nodup, held⟩ := chain
  have shorter := nodup.length_le_of_subset (fun other among => (held other among).1)
  omega

end Interpreter

end DemandFlow
