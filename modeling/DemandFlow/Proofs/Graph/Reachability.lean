import DemandFlow.Proofs.Stream.Topology
import Mathlib.Logic.Relation

/-!
What the topology of a built graph tells. A search along the connections, followed either way,
visits the workers joined to its root; sinks and sources are read off the connections, and they
are the workers whose ports say so.
-/

set_option autoImplicit false

namespace DemandFlow

variable {β α μ : Type}

namespace Graph

def Beside (graph : Graph β α μ) (left right : WorkerId) : Prop :=
  graph.Precedes left right ∨ graph.Precedes right left

private theorem mem_neighbours {graph : Graph β α μ} {id other : WorkerId} :
    other ∈ graph.neighbours id ↔ graph.Beside id other := by
  unfold neighbours
  rw [List.mem_flatMap]
  constructor
  · intro found
    rcases found with ⟨edge, member, found⟩
    rcases List.mem_append.mp found with ahead | behind
    · by_cases here : edge.producer = id
      · have same : other = edge.consumer := by
          simpa only [here, ↓reduceIte, List.mem_cons, List.not_mem_nil, or_false] using ahead
        exact .inl ⟨edge, member, here, same.symm⟩
      · simp only [here, ↓reduceIte, List.not_mem_nil] at ahead
    · by_cases here : edge.consumer = id
      · have same : other = edge.producer := by
          simpa only [here, ↓reduceIte, List.mem_cons, List.not_mem_nil, or_false] using behind
        exact .inr ⟨edge, member, same.symm, here⟩
      · simp only [here, ↓reduceIte, List.not_mem_nil] at behind
  · intro beside
    rcases beside with ⟨edge, member, here, there⟩ | ⟨edge, member, there, here⟩
    · exact ⟨edge, member, by simp [here, there]⟩
    · exact ⟨edge, member, by simp [here, there]⟩

private theorem mem_discovered {graph : Graph β α μ} {visited : List WorkerId}
    {id other : WorkerId} :
    other ∈ graph.discovered visited id ↔
      other < graph.workers.length ∧ other ∉ visited ∧ graph.Beside id other := by
  unfold discovered unvisited workerIds
  simp only [List.mem_filter, List.mem_range, Bool.not_eq_true', List.contains_iff_mem,
    mem_neighbours, ← Bool.not_eq_true, and_assoc]

structure Explores (graph : Graph β α μ) (root : WorkerId) (visited queue : List WorkerId) :
    Prop where
  rooted : root ∈ visited
  joined : ∀ id ∈ visited, Relation.ReflTransGen graph.Beside root id
  queued : ∀ id ∈ queue, id ∈ visited
  finished : ∀ id ∈ visited, id ∉ queue → ∀ other, graph.Beside id other → other ∈ visited

section

variable {graph : Graph β α μ} {root id : WorkerId} {visited queue : List WorkerId}

private theorem Explores.start (graph : Graph β α μ) (root : WorkerId) :
    graph.Explores root [root] [root] where
  rooted := List.mem_singleton_self root
  joined := by
    intro id member
    rw [List.mem_singleton.mp member]
  queued := fun _ member => member
  finished := fun _ member absent => absurd member absent

private theorem Explores.step (explores : graph.Explores root visited (id :: queue))
    (known : ∀ left right, graph.Beside left right → right < graph.workers.length) :
    graph.Explores root (visited ++ graph.discovered visited id)
      (queue ++ graph.discovered visited id) where
  rooted := List.mem_append_left _ explores.rooted
  joined := by
    intro other member
    rcases List.mem_append.mp member with old | new
    · exact explores.joined other old
    · have here := explores.joined id (explores.queued id List.mem_cons_self)
      exact here.tail (mem_discovered.mp new).2.2
  queued := by
    intro other member
    rcases List.mem_append.mp member with waiting | new
    · exact List.mem_append_left _ (explores.queued other (List.mem_cons_of_mem _ waiting))
    · exact List.mem_append_right _ new
  finished := by
    intro done member absent other beside
    rw [List.mem_append, not_or] at absent
    have old : done ∈ visited := (List.mem_append.mp member).resolve_right absent.2
    by_cases seen : other ∈ visited
    · exact List.mem_append_left _ seen
    · -- Only the neighbours of the worker just taken can be missing so far.
      by_cases here : done = id
      · rw [here] at beside
        exact List.mem_append_right _ (mem_discovered.mpr ⟨known _ _ beside, seen, beside⟩)
      · have waiting : done ∉ id :: queue := by
          simp only [List.mem_cons, here, absent.1, or_self, not_false_eq_true]
        exact absurd (explores.finished done old waiting other beside) seen

private theorem Explores.explore (explores : graph.Explores root visited queue)
    (known : ∀ left right, graph.Beside left right → right < graph.workers.length) :
    graph.Explores root (graph.explore visited queue) [] := by
  induction visited, queue using Graph.explore.induct graph with
  | case1 visited =>
      rw [Graph.explore]
      exact explores
  | case2 visited id queue found inductionHypothesis =>
      rw [Graph.explore]
      exact inductionHypothesis (explores.step known)

/-- A search that is over has visited everyone who is joined to its root. -/
theorem Explores.mem_iff (explores : graph.Explores root visited []) :
    id ∈ visited ↔ Relation.ReflTransGen graph.Beside root id := by
  constructor
  · exact explores.joined id
  · intro path
    induction path with
    | refl => exact explores.rooted
    | tail earlier beside reached =>
        exact explores.finished _ reached List.not_mem_nil _ beside

end

private theorem mem_reachableFrom {graph : Graph β α μ}
    (known : ∀ left right, graph.Beside left right → right < graph.workers.length)
    {root id : WorkerId} :
    id ∈ graph.reachableFrom root ↔
      graph.contains root = true ∧ Relation.ReflTransGen graph.Beside root id := by
  unfold reachableFrom
  by_cases inside : graph.contains root = true
  · have explored := (Explores.start graph root).explore known
    have within : Relation.ReflTransGen graph.Beside root id → id < graph.workers.length := by
      intro path
      cases path with
      | refl => simpa only [contains, decide_eq_true_eq] using inside
      | tail earlier beside => exact known _ _ beside
    rw [if_pos inside, and_iff_right inside, List.mem_filter, List.contains_iff_mem,
      explored.mem_iff, workerIds, List.mem_range, and_iff_right_of_imp within]
  · simp only [inside, Bool.false_eq_true, ↓reduceIte, List.not_mem_nil, false_and]

private theorem pairwise_reachableFrom (graph : Graph β α μ) (root : WorkerId) :
    (graph.reachableFrom root).Pairwise (· < ·) := by
  unfold reachableFrom
  split
  next => exact List.pairwise_lt_range.filter _
  next => exact List.Pairwise.nil

/-! ### Agreement with the ports -/

/-- A channel joins the two workers, whichever of them feeds the other. -/
def Adjoins (graph : Graph β α μ) (left right : WorkerId) : Prop :=
  graph.Connects left right ∨ graph.Connects right left

section

variable {graph : Graph β α μ} {id other : WorkerId}

private theorem Represented.beside_eq (represented : graph.Represented) :
    graph.Beside = graph.Adjoins := by
  funext left right
  unfold Beside Adjoins
  rw [represented.precedes_iff, represented.precedes_iff]

private theorem Represented.lt_of_beside (represented : graph.Represented)
    (beside : graph.Beside id other) : other < graph.workers.length := by
  rcases beside with ahead | behind
  · exact (represented.precedes_known ahead).2
  · exact (represented.precedes_known behind).1

/-- The sinks of the topology are those that the inputs leave over. -/
theorem Represented.sinks_eq (represented : graph.Represented) :
    graph.sinks = Interpreter.sinksOf graph graph.workerIds := by
  have same (id : WorkerId) :
      id ∈ graph.sinks ↔ id ∈ Interpreter.sinksOf graph graph.workerIds := by
    rw [mem_sinks, Interpreter.mem_sinksOf, workerIds, List.mem_range]
    apply and_congr_right
    intro _
    constructor
    · intro unfollowed consumer _ port member named
      exact unfollowed consumer (represented.precedes_iff_input.mpr ⟨port, member, named⟩)
    · intro unnamed consumer precedes
      rcases represented.precedes_iff_input.mp precedes with ⟨port, member, named⟩
      have known := (represented.precedes_known precedes).2
      exact unnamed consumer (List.mem_range.mpr known) port member named
  -- Both are selections from the numbers of the workers.
  apply List.filter_congr
  intro id known
  have here := same id
  unfold sinks Interpreter.sinksOf at here
  rw [List.mem_filter, List.mem_filter, and_iff_right known, and_iff_right known] at here
  exact Bool.eq_iff_iff.mpr here

private theorem Represented.mem_sources_iff (represented : graph.Represented) :
    id ∈ graph.sources ↔ ∃ worker, graph.worker? id = some worker ∧
      ∀ port ∈ worker.inputs, port.peer = none := by
  rw [mem_sources]
  constructor
  · intro isSource
    rcases isSource with ⟨below, unpreceded⟩
    have known : graph.worker? id = some graph.workers[id] := List.getElem?_eq_getElem below
    refine ⟨_, known, ?_⟩
    intro port member
    cases peer : port.peer with
    | none => rfl
    | some producer =>
        rw [← wiring_inputs known] at member
        exact absurd (represented.precedes_iff_input.mpr ⟨port, member, peer⟩)
          (unpreceded producer)
  · intro unfed
    rcases unfed with ⟨worker, known, vacant⟩
    refine ⟨(List.getElem?_eq_some_iff.mp known).1, ?_⟩
    intro producer precedes
    rcases represented.precedes_iff_input.mp precedes with ⟨port, member, named⟩
    rw [wiring_inputs known] at member
    rw [vacant port member] at named
    cases named

end

/-- What the topology of a built graph answers agrees with the ports: whom a worker reaches are
those joined to it by connected channels followed either way, the sinks are those an interpreter
over the whole graph pulls, and the sources are the workers none of whose inputs has a peer. The
graph may have run since it was built. -/
theorem topology_agrees_with_ports [Signature β] {graph current : Graph β α μ}
    (built : graph.Built) (frameEq : current.frame = graph.frame) :
    (∀ root, (current.reachableFrom root).Pairwise (· < ·) ∧
      ∀ id, id ∈ current.reachableFrom root ↔ current.contains root = true ∧
        Relation.ReflTransGen current.Adjoins root id) ∧
    (∃ interpreter, Interpreter.forGraph current = .ok interpreter ∧
      current.sinks = interpreter.sinks) ∧
    current.sources.Pairwise (· < ·) ∧
      ∀ id, id ∈ current.sources ↔ ∃ worker, current.worker? id = some worker ∧
        ∀ port ∈ worker.inputs, port.peer = none := by
  have represented := built.represented.of_frame_eq frameEq
  refine ⟨?_, ?_, ?_, ?_⟩
  · intro root
    refine ⟨current.pairwise_reachableFrom root, ?_⟩
    intro id
    rw [← represented.beside_eq]
    exact mem_reachableFrom (fun _ _ => represented.lt_of_beside)
  · have known (constraint : Constraint) (member : constraint ∈ current.constraints) :
        constraint.sender < current.workers.length ∧
          constraint.recipient < current.workers.length := by
      rcases represented.constraints constraint member with ⟨sender, recipient, _⟩
      exact ⟨sender, recipient⟩
    rcases Interpreter.forGraph_of_known known with ⟨interpreter, opened⟩
    have accepted := Interpreter.accepted_of_create opened
    have members := Interpreter.members_of_forGraph opened
    refine ⟨interpreter, opened, ?_⟩
    rw [accepted.sinks, members]
    exact represented.sinks_eq
  · exact List.pairwise_lt_range.filter _
  · exact fun id => represented.mem_sources_iff

/-- A splitter and a joiner with two channels between them and a filter that leads back, and
another filter by itself. -/
def ringBuilder : Builder Standard Nat :=
  let builder := ({} : Builder Standard Nat)
  let builder := (builder.addWorker .splitter ⟨"fork", .duplicate⟩).2
  let builder := (builder.addWorker .joiner ⟨"meet", .roundRobinJoin 1⟩).2
  let builder := (builder.addWorker .filter ⟨"back", .identity⟩).2
  let builder := (builder.addWorker .filter ⟨"alone", .identity⟩).2
  let builder := (builder.connect 0 1).2
  let builder := (builder.connect 0 1).2
  let builder := (builder.connect 1 2).2
  (builder.connect 2 0).2

def ringGraph : Graph Standard Nat Unit := ringBuilder.graph

private theorem ringGraph_built : ringGraph.Built :=
  ⟨ringBuilder,
    .connect _ _ (.connect _ _ (.connect _ _ (.connect _ _ (.addWorker _ _ (.addWorker _ _
      (.addWorker _ _ (.addWorker _ _ (.fresh _)))))))), rfl⟩

theorem topology_agrees_with_ports_ring :
    (∀ id, id ∈ ringGraph.reachableFrom 2 ↔ ringGraph.contains 2 = true ∧
      Relation.ReflTransGen ringGraph.Adjoins 2 id) ∧
    ringGraph.reachableFrom 2 = [0, 1, 2] ∧ ringGraph.reachableFrom 3 = [3] ∧
    ringGraph.topology.length = 4 ∧ ringGraph.sinks = [3] ∧ ringGraph.sources = [3] := by
  have agrees := topology_agrees_with_ports ringGraph_built (Eq.refl ringGraph.frame)
  exact ⟨(agrees.1 2).2, by decide +kernel, by decide +kernel, rfl, rfl, rfl⟩

end Graph

end DemandFlow
