import DemandFlow.Graph.Worker

/-!
Built graphs: workers and channels by number, the declared message constraints, who
is registered on which portal, and the connections between workers.
-/

set_option autoImplicit false

namespace DemandFlow

def tally {γ : Type} (count : γ → Nat) : List γ → Nat
  | [] => 0
  | item :: rest => count item + tally count rest

section

variable {γ : Type} {count other : γ → Nat}

theorem tally_le_tally (items : List γ) (each : ∀ item, count item ≤ other item) :
    tally count items ≤ tally other items := by
  induction items with
  | nil => exact Nat.le_refl _
  | cons item rest inductionHypothesis => exact Nat.add_le_add (each item) inductionHypothesis

theorem tally_lt_tally (items : List γ) {item : γ} (member : item ∈ items)
    (less : count item < other item) (each : ∀ item, count item ≤ other item) :
    tally count items < tally other items := by
  induction items with
  | nil => cases member
  | cons first rest inductionHypothesis =>
      unfold tally
      rcases List.mem_cons.mp member with rfl | deeper
      · exact Nat.add_lt_add_of_lt_of_le less (tally_le_tally rest each)
      · exact Nat.add_lt_add_of_le_of_lt (each first) (inductionHypothesis deeper)

theorem tally_le_mul {items : List γ} {bound : Nat}
    (each : ∀ item ∈ items, count item ≤ bound) : tally count items ≤ items.length * bound := by
  induction items with
  | nil => exact Nat.zero_le _
  | cons first rest inductionHypothesis =>
      rw [List.forall_mem_cons] at each
      have others := inductionHypothesis each.2
      rw [tally, List.length_cons, Nat.succ_mul]
      omega

theorem tally_set {items : List γ} {index : Nat} {old new : γ}
    (place : items[index]? = some old) (counted : count new = count old + 1) :
    tally count (items.set index new) = tally count items + 1 := by
  induction items generalizing index with
  | nil => cases place
  | cons first rest inductionHypothesis =>
      cases index with
      | zero =>
          cases place
          rw [List.set_cons_zero, tally, tally]
          omega
      | succ index =>
          have deeper := inductionHypothesis place
          rw [List.set_cons_succ, tally, tally]
          omega

end

structure Edge where
  producer : WorkerId
  consumer : WorkerId
  channel : ChannelId
  deriving DecidableEq

structure Graph (β α μ : Type) where
  workers : List (Worker β μ)
  bank : Bank α
  constraints : List Constraint
  /-- The recipients registered on each portal. -/
  recipients : List (List WorkerId)
  /-- The connections, by producing worker and then by output. -/
  topology : List Edge

namespace Graph

variable {β α μ : Type}

def worker? (graph : Graph β α μ) (id : WorkerId) : Option (Worker β μ) :=
  graph.workers[id]?

def contains (graph : Graph β α μ) (id : WorkerId) : Bool :=
  decide (id < graph.workers.length)

def workerIds (graph : Graph β α μ) : List WorkerId :=
  List.range graph.workers.length

def setWorker (graph : Graph β α μ) (id : WorkerId) (worker : Worker β μ) : Graph β α μ :=
  { graph with workers := graph.workers.set id worker }

theorem worker?_setWorker_self (graph : Graph β α μ) {id : WorkerId} (worker : Worker β μ)
    (known : id < graph.workers.length) :
    (graph.setWorker id worker).worker? id = some worker := by
  simp [worker?, setWorker, known]

theorem worker?_setWorker_of_ne (graph : Graph β α μ) {id other : WorkerId}
    (worker : Worker β μ) (different : other ≠ id) :
    (graph.setWorker id worker).worker? other = graph.worker? other := by
  simp only [worker?, setWorker, List.getElem?_set_ne (Ne.symm different)]

@[simp]
theorem bank_setWorker (graph : Graph β α μ) (id : WorkerId) (worker : Worker β μ) :
    (graph.setWorker id worker).bank = graph.bank := rfl

def executions? (graph : Graph β α μ) (id : WorkerId) : Option Nat :=
  (graph.worker? id).map Worker.executions

def findWorker? (graph : Graph β α μ) (name : String) : Option WorkerId :=
  (graph.workers.find? (fun worker => worker.name == name)).map Worker.id

def recipientsOf (graph : Graph β α μ) (portal : PortalId) : List WorkerId :=
  graph.recipients[portal]?.getD []

def pendingMessages (graph : Graph β α μ) : Nat :=
  tally (fun worker => worker.queue.size) graph.workers

def channelCount (graph : Graph β α μ) : Nat :=
  graph.bank.size

def channelSizes (graph : Graph β α μ) : List Nat :=
  (List.range graph.channelCount).map (fun id => (graph.bank.channel id).size)

def neighbours (graph : Graph β α μ) (id : WorkerId) : List WorkerId :=
  graph.topology.flatMap fun edge =>
    (if edge.producer = id then [edge.consumer] else []) ++
      (if edge.consumer = id then [edge.producer] else [])

def unvisited (graph : Graph β α μ) (visited : List WorkerId) : List WorkerId :=
  graph.workerIds.filter (fun id => !visited.contains id)

def discovered (graph : Graph β α μ) (visited : List WorkerId) (id : WorkerId) : List WorkerId :=
  (graph.unvisited visited).filter (graph.neighbours id).contains

theorem length_unvisited (graph : Graph β α μ) (visited : List WorkerId) (id : WorkerId) :
    (graph.unvisited visited).length = (graph.discovered visited id).length +
      (graph.unvisited (visited ++ graph.discovered visited id)).length := by
  have others : graph.unvisited (visited ++ graph.discovered visited id) =
      (graph.unvisited visited).filter (fun other => !(graph.neighbours id).contains other) := by
    unfold unvisited
    rw [List.filter_filter]
    apply List.filter_congr
    intro other known
    by_cases old : other ∈ visited <;> by_cases beside : other ∈ graph.neighbours id <;>
      simp_all [discovered, unvisited]
  rw [others, discovered, ← List.countP_eq_length_filter, ← List.countP_eq_length_filter,
    List.length_eq_countP_add_countP (graph.neighbours id).contains]
  simp only [List.contains_eq_mem, decide_eq_true_eq, decide_not]

/-- Visits the workers of the queue in turn. Their neighbours that have not been visited join
those that have, and the queue. -/
def explore (graph : Graph β α μ) (visited : List WorkerId) :
    (queue : List WorkerId) → List WorkerId
  | [] => visited
  | id :: rest =>
      let found := graph.discovered visited id
      graph.explore (visited ++ found) (rest ++ found)
  termination_by queue => (graph.unvisited visited).length + queue.length
  decreasing_by
    have counted := graph.length_unvisited visited id
    rw [List.length_append, List.length_cons]
    omega

/-- The workers joined to `root` by connections followed either way, in order. -/
def reachableFrom (graph : Graph β α μ) (root : WorkerId) : List WorkerId :=
  if graph.contains root then
    graph.workerIds.filter (graph.explore [root] [root]).contains
  else
    []

/-- The workers that feed no other worker, in order. -/
def sinks (graph : Graph β α μ) : List WorkerId :=
  graph.workerIds.filter (fun id => graph.topology.all (fun edge => edge.producer != id))

def sources (graph : Graph β α μ) : List WorkerId :=
  graph.workerIds.filter (fun id => graph.topology.all (fun edge => edge.consumer != id))

end Graph

end DemandFlow
