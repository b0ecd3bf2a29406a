import DemandFlow.Proofs.Graph.Assembly
import DemandFlow.Proofs.Graph.Firing

/-!
Accepted sections. The part of an interpreter that stays as it was made is its frame; for
an accepted section the frame is sound: constraints do not cross the boundary, all those
of the graph that touch the section are scheduled, and input boundaries are fed from
outside.
-/

set_option autoImplicit false

namespace DemandFlow

variable {β α μ : Type}

theorem eq_singleton_of_nodup {γ : Type} {items : List γ} {only : γ} (once : items.Nodup)
    (members : ∀ item, item ∈ items ↔ item = only) : items = [only] := by
  apply List.perm_singleton.mp
  rw [List.perm_ext_iff_of_nodup once (List.pairwise_singleton _ only)]
  intro item
  rw [members, List.mem_singleton]

structure InterpreterFrame where
  graph : GraphFrame
  members : List WorkerId
  sinks : List WorkerId
  boundaries : List BoundaryChannel
  constraints : List Constraint
  delegate : Delegate
  maxPasses : Option Nat

structure InterpreterFrame.Sound (frame : InterpreterFrame) : Prop where
  graph : frame.graph.Sound
  known : ∀ id ∈ frame.members, id < frame.graph.workers.length
  sinks : ∀ id ∈ frame.sinks, id ∈ frame.members
  inside : ∀ constraint ∈ frame.constraints,
    constraint.sender ∈ frame.members ∧ constraint.recipient ∈ frame.members
  crossing : ∀ declared ∈ frame.graph.constraints,
    (declared.sender ∈ frame.members ↔ declared.recipient ∈ frame.members)
  scheduled : ∀ declared ∈ frame.graph.constraints, declared.recipient ∈ frame.members →
    ∃ given ∈ frame.constraints, given.route = declared.route
  /-- An input boundary is on an input whose other end is not in the section. -/
  fed : ∀ boundary ∈ frame.boundaries, boundary.direction = .input →
    ∃ id ∈ frame.members, ∃ port ∈ frame.graph.wiring.inputs id,
      port.channel = boundary.channel ∧ ∀ peer ∈ frame.members, port.peer ≠ some peer

namespace Interpreter

def frame (interpreter : Interpreter β α μ) : InterpreterFrame :=
  { graph := interpreter.graph.frame
    members := interpreter.members
    sinks := interpreter.sinks
    boundaries := interpreter.boundaries
    constraints := interpreter.constraints
    delegate := interpreter.delegate
    maxPasses := interpreter.maxPasses }

/-- The interpreter is made over a section of the graph with the given constraints; its
delegate and its limit on passes are free. -/
def Opens (graph : Graph β α μ) (workers : List WorkerId) (given : List Constraint)
    (interpreter : Interpreter β α μ) : Prop :=
  ∃ made delegate maxPasses, create graph workers given = .ok made ∧
    interpreter = { made with delegate := delegate, maxPasses := maxPasses }

/-- An interpreter over the section, and over nobody if it is refused. -/
def onSection (graph : Graph β α μ) (workers : List WorkerId) (given : List Constraint) :
    Interpreter β α μ :=
  match create graph workers given with
  | .ok interpreter => interpreter
  | .error _ => { graph := graph, members := [], sinks := [], boundaries := [], constraints := [] }

structure Accepted (graph : Graph β α μ) (workers : List WorkerId) (given : List Constraint)
    (made : Interpreter β α μ) : Prop where
  graph_eq : made.graph = graph
  members : made.members = graph.workerIds.filter workers.contains
  sinks : made.sinks = sinksOf graph made.members
  boundaries : made.boundaries = boundariesOf graph made.members
  constraints : made.constraints =
    given.filter (fun constraint => made.members.contains constraint.recipient)
  faultless : constraintFault? graph made.members given = none
  journal : made.journal = []

theorem accepted_of_create {graph : Graph β α μ} {workers : List WorkerId}
    {given : List Constraint} {made : Interpreter β α μ}
    (created : create graph workers given = .ok made) : Accepted graph workers given made := by
  unfold create at created
  split at created
  next => cases created
  next =>
    dsimp only at created
    split at created
    next => cases created
    next faultless =>
      cases created
      exact
        { graph_eq := rfl
          members := rfl
          sinks := rfl
          boundaries := rfl
          constraints := rfl
          faultless := faultless
          journal := rfl }

private theorem faults_of_none {graph : Graph β α μ} {members : List WorkerId}
    {given : List Constraint} (faultless : constraintFault? graph members given = none) :
    (∀ constraint ∈ given, givenFault? graph constraint = none) ∧
      ∀ declared ∈ graph.constraints, declaredFault? members given declared = none := by
  unfold constraintFault? at faultless
  split at faultless
  next => cases faultless
  next noGiven =>
    exact ⟨List.findSome?_eq_none_iff.mp noGiven, List.findSome?_eq_none_iff.mp faultless⟩

private theorem declared_of_given {graph : Graph β α μ} {constraint : Constraint}
    (faultless : givenFault? graph constraint = none) :
    ∃ declared ∈ graph.constraints, declared.route = constraint.route := by
  unfold givenFault? at faultless
  split at faultless
  next => cases faultless
  next =>
    split at faultless
    next => cases faultless
    next found =>
      simp only [Bool.not_eq_true, Bool.not_eq_false', List.any_eq_true] at found
      obtain ⟨declared, member, same⟩ := found
      exact ⟨declared, member, by simpa only [Constraint.sameRoute, decide_eq_true_eq] using same⟩

private theorem inside_of_declared {members : List WorkerId} {given : List Constraint}
    {declared : Constraint} (faultless : declaredFault? members given declared = none) :
    (declared.sender ∈ members ↔ declared.recipient ∈ members) ∧
      (declared.sender ∈ members → ∃ constraint ∈ given, constraint.route = declared.route) := by
  unfold declaredFault? at faultless
  split at faultless
  next => cases faultless
  next together =>
    have same : members.contains declared.sender = members.contains declared.recipient := by
      simpa only [List.contains_eq_mem, decide_eq_decide, bne_iff_ne, ne_eq, Decidable.not_not]
        using together
    split at faultless
    next => cases faultless
    next provided =>
      constructor
      · rw [← List.contains_iff_mem, ← List.contains_iff_mem, same]
      · intro inside
        have any : given.any (fun constraint => constraint.sameRoute declared) = true := by
          simpa [inside] using provided
        rw [List.any_eq_true] at any
        obtain ⟨constraint, member, equal⟩ := any
        exact ⟨constraint, member, of_decide_eq_true equal⟩

private theorem sinksOf_subset (graph : Graph β α μ) (members : List WorkerId) :
    ∀ id ∈ sinksOf graph members, id ∈ members := by
  intro id member
  exact (List.mem_filter.mp member).1

private theorem leaves_iff {members : List WorkerId} {port : Port} :
    (!staysInside members port) = true ↔ ∀ peer ∈ members, port.peer ≠ some peer := by
  unfold staysInside
  cases port.peer with
  | none => simp
  | some named =>
      simp only [Option.any_some, Bool.not_eq_true', ne_eq, Option.some.injEq]
      rw [← Bool.not_eq_true, List.contains_iff_mem]
      constructor
      · rintro outside peer inside rfl
        exact outside inside
      · intro outside inside
        exact outside named inside rfl

/-- The boundary channels at a worker are at its ports whose other end is not in the section. -/
theorem mem_boundariesAt {members : List WorkerId} {id : WorkerId} {worker : Worker β μ}
    {boundary : BoundaryChannel} :
    boundary ∈ boundariesAt members id worker ↔
      ∃ port, (∀ peer ∈ members, port.peer ≠ some peer) ∧
        (port ∈ worker.inputs ∧ boundary = .input port.channel port.peer id ∨
          port ∈ worker.outputs ∧ boundary = .output port.channel id port.peer) := by
  unfold boundariesAt
  rw [List.mem_append, List.mem_map, List.mem_map]
  constructor
  · rintro (⟨port, kept, rfl⟩ | ⟨port, kept, rfl⟩)
    · obtain ⟨member, leaves⟩ := List.mem_filter.mp kept
      exact ⟨port, leaves_iff.mp leaves, .inl ⟨member, rfl⟩⟩
    · obtain ⟨member, leaves⟩ := List.mem_filter.mp kept
      exact ⟨port, leaves_iff.mp leaves, .inr ⟨member, rfl⟩⟩
  · rintro ⟨port, outside, ⟨member, rfl⟩ | ⟨member, rfl⟩⟩
    · exact .inl ⟨port, List.mem_filter.mpr ⟨member, leaves_iff.mpr outside⟩, rfl⟩
    · exact .inr ⟨port, List.mem_filter.mpr ⟨member, leaves_iff.mpr outside⟩, rfl⟩

/-- Boundary channels are at the ports whose other end is not in the section. -/
theorem boundariesOf_cases {graph : Graph β α μ} {members : List WorkerId}
    {boundary : BoundaryChannel} (member : boundary ∈ boundariesOf graph members) :
    ∃ id ∈ members, ∃ port, (∀ peer ∈ members, port.peer ≠ some peer) ∧
      (port ∈ graph.frame.wiring.inputs id ∧ boundary = .input port.channel port.peer id ∨
        port ∈ graph.frame.wiring.outputs id ∧ boundary = .output port.channel id port.peer) := by
  unfold boundariesOf at member
  obtain ⟨id, inside, found⟩ := List.mem_flatMap.mp member
  cases known : graph.worker? id with
  | none =>
      rw [known] at found
      cases found
  | some worker =>
      rw [known] at found
      refine ⟨id, inside, ?_⟩
      rw [Graph.wiring_inputs known, Graph.wiring_outputs known]
      exact mem_boundariesAt.mp found

/-- Every port whose other end is not in the section has its boundary channel. -/
theorem mem_boundariesOf {graph : Graph β α μ} {members : List WorkerId} {id : WorkerId}
    {worker : Worker β μ} (inside : id ∈ members) (known : graph.worker? id = some worker)
    {port : Port} (outside : ∀ peer ∈ members, port.peer ≠ some peer) :
    (port ∈ worker.inputs →
      BoundaryChannel.input port.channel port.peer id ∈ boundariesOf graph members) ∧
    (port ∈ worker.outputs →
      BoundaryChannel.output port.channel id port.peer ∈ boundariesOf graph members) := by
  have here {boundary : BoundaryChannel} (found : boundary ∈ boundariesAt members id worker) :
      boundary ∈ boundariesOf graph members := by
    unfold boundariesOf
    rw [List.mem_flatMap]
    refine ⟨id, inside, ?_⟩
    rw [known]
    exact found
  exact ⟨fun member => here (mem_boundariesAt.mpr ⟨port, outside, .inl ⟨member, rfl⟩⟩),
    fun member => here (mem_boundariesAt.mpr ⟨port, outside, .inr ⟨member, rfl⟩⟩)⟩

private theorem fed_of_boundary {graph : Graph β α μ} {members : List WorkerId}
    {boundary : BoundaryChannel} (member : boundary ∈ boundariesOf graph members)
    (direction : boundary.direction = .input) :
    ∃ id ∈ members, ∃ port ∈ graph.frame.wiring.inputs id,
      port.channel = boundary.channel ∧ ∀ peer ∈ members, port.peer ≠ some peer := by
  obtain ⟨id, inside, port, outside, ⟨portIn, rfl⟩ | ⟨portIn, rfl⟩⟩ := boundariesOf_cases member
  · exact ⟨id, inside, port, portIn, rfl, outside⟩
  · cases direction

private theorem Accepted.frame_sound {graph : Graph β α μ} {workers : List WorkerId}
    {given : List Constraint} {made : Interpreter β α μ}
    (accepted : Accepted graph workers given made) (sound : graph.frame.Sound) :
    made.frame.Sound := by
  obtain ⟨givenFaultless, declaredFaultless⟩ := faults_of_none accepted.faultless
  have sameGraph : made.graph.frame = graph.frame := by rw [accepted.graph_eq]
  have graphSound : made.graph.frame.Sound := by
    rw [sameGraph]
    exact sound
  have declaredInside (declared : Constraint) (member : declared ∈ made.graph.constraints) :=
    inside_of_declared (declaredFaultless declared (accepted.graph_eq ▸ member))
  constructor
  case known =>
    intro id member
    change id ∈ made.members at member
    change id < (made.graph.workers.map Worker.frame).length
    rw [accepted.members, List.mem_filter, Graph.workerIds, List.mem_range] at member
    rw [accepted.graph_eq, List.length_map]
    exact member.1
  case sinks =>
    intro id member
    change id ∈ made.sinks at member
    rw [accepted.sinks] at member
    exact sinksOf_subset graph made.members id member
  case inside =>
    intro constraint member
    change constraint ∈ made.constraints at member
    rw [accepted.constraints, List.mem_filter, List.contains_iff_mem] at member
    obtain ⟨declared, declaredIn, same⟩ := declared_of_given (givenFaultless _ member.1)
    have crossing := (inside_of_declared (declaredFaultless declared declaredIn)).1
    unfold Constraint.sender Constraint.recipient at crossing
    rw [same] at crossing
    exact ⟨crossing.mpr member.2, member.2⟩
  case scheduled =>
    intro declared declaredIn inside
    obtain ⟨crossing, provided⟩ := declaredInside declared declaredIn
    obtain ⟨constraint, member, same⟩ := provided (crossing.mpr inside)
    refine ⟨constraint, ?_, same⟩
    change constraint ∈ made.constraints
    rw [accepted.constraints, List.mem_filter, List.contains_iff_mem]
    unfold Constraint.recipient at inside ⊢
    rw [same]
    exact ⟨member, inside⟩
  case fed =>
    intro boundary member direction
    change boundary ∈ made.boundaries at member
    rw [accepted.boundaries] at member
    have found := fed_of_boundary member direction
    rw [← sameGraph] at found
    exact found
  case graph => exact graphSound
  case crossing => exact fun declared member => (declaredInside declared member).1

theorem Opens.frame_sound {graph : Graph β α μ} {workers : List WorkerId}
    {given : List Constraint} {interpreter : Interpreter β α μ}
    (opened : Opens graph workers given interpreter) (sound : graph.frame.Sound) :
    interpreter.frame.Sound := by
  obtain ⟨made, delegate, maxPasses, created, rfl⟩ := opened
  have base := (accepted_of_create created).frame_sound sound
  exact
    { graph := base.graph
      known := base.known
      sinks := base.sinks
      inside := base.inside
      crossing := base.crossing
      scheduled := base.scheduled
      fed := base.fed }

theorem Opens.graph_eq {graph : Graph β α μ} {workers : List WorkerId}
    {given : List Constraint} {interpreter : Interpreter β α μ}
    (opened : Opens graph workers given interpreter) : interpreter.graph = graph := by
  obtain ⟨made, delegate, maxPasses, created, rfl⟩ := opened
  exact (accepted_of_create created).graph_eq

theorem Opens.journal_eq {graph : Graph β α μ} {workers : List WorkerId}
    {given : List Constraint} {interpreter : Interpreter β α μ}
    (opened : Opens graph workers given interpreter) : interpreter.journal = [] := by
  obtain ⟨made, delegate, maxPasses, created, rfl⟩ := opened
  exact (accepted_of_create created).journal

theorem Opens.given {graph : Graph β α μ} {workers : List WorkerId}
    {given : List Constraint} {interpreter : Interpreter β α μ}
    (opened : Opens graph workers given interpreter) :
    ∀ constraint ∈ interpreter.constraints, constraint ∈ given := by
  obtain ⟨made, delegate, maxPasses, created, rfl⟩ := opened
  intro constraint member
  change constraint ∈ made.constraints at member
  rw [(accepted_of_create created).constraints] at member
  exact (List.mem_filter.mp member).1

theorem Opens.declared {graph : Graph β α μ} {workers : List WorkerId}
    {given : List Constraint} {interpreter : Interpreter β α μ}
    (opened : Opens graph workers given interpreter) :
    ∀ constraint ∈ interpreter.constraints,
      ∃ declared ∈ graph.constraints, declared.route = constraint.route := by
  intro constraint member
  have among := opened.given constraint member
  obtain ⟨made, delegate, maxPasses, created, rfl⟩ := opened
  have faultless := (faults_of_none (accepted_of_create created).faultless).1
  exact declared_of_given (faultless constraint among)

end Interpreter

end DemandFlow
