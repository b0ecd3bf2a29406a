import DemandFlow.Proofs.Graph.Locality

/-!
Work is indifferent to counts. Two banks with the same handles and the same elements answer
every request alike. So do banks that are related more closely, as long as requests keep the
relation: a firing cannot tell them apart, and it leaves related ones. Two graphs that differ
in nothing but counts therefore go the same way.
-/

set_option autoImplicit false

namespace DemandFlow

variable {β α μ ρ : Type}

namespace Bank

/-- Whether a change of one place shows at another: at itself, or at a handle on the same
buffer. -/
def Coincide (keys : List (Option Nat)) (id other : ChannelId) : Prop :=
  ∃ key, keys[id]? = some key ∧ (other = id ∨ key.isSome ∧ keys[other]? = some key)

theorem channel_set_of_coincide {bank : Bank α} {id other : ChannelId} (channel : Channel α)
    (coincide : Coincide bank.keys id other) : (bank.set id channel).channel other = channel := by
  rcases coincide with ⟨key, here, same | ⟨shared, there⟩⟩
  · subst same
    apply channel_set_self
    have bound := (List.getElem?_eq_some_iff.mp here).1
    simpa only [size, gt_iff_lt, keys, List.length_map] using bound
  · cases key with
    | none => cases shared
    | some key =>
        rw [keys_get_shared] at here there
        simp [set, here, Bank.channel, channel?, there]

theorem channel_set_of_apart {bank : Bank α} {id other : ChannelId} (channel : Channel α)
    (apart : ¬ Coincide bank.keys id other) :
    (bank.set id channel).channel other = bank.channel other := by
  unfold set
  split
  next => rfl
  next place =>
    have different : id ≠ other := by
      rintro rfl
      apply apart
      exact ⟨none, by simp [keys, place, Slot.key?], .inl rfl⟩
    simp only [Bank.channel, channel?, List.getElem?_set_ne different]
  next key place =>
    cases otherPlace : bank.slots[other]? with
    | none => simp only [Bank.channel, channel?, otherPlace, Option.map_none, Option.getD_none]
    | some slot =>
        cases slot with
        | own otherChannel =>
            simp only [Bank.channel, channel?, otherPlace, Option.map_some, Option.getD_some]
        | shared otherKey =>
            have different : otherKey ≠ key := by
              rintro rfl
              apply apart
              exact ⟨some otherKey, keys_get_shared.mpr place,
                .inr ⟨rfl, keys_get_shared.mpr otherPlace⟩⟩
            simp [Bank.channel, channel?, otherPlace, Pool.buffer_set_of_ne _ _ different]

theorem channel_of_coincide {bank : Bank α} {id other : ChannelId}
    (coincide : Coincide bank.keys id other) : bank.channel other = bank.channel id := by
  rcases coincide with ⟨key, here, same | ⟨shared, there⟩⟩
  · rw [same]
  · cases key with
    | none => cases shared
    | some key =>
        rw [keys_get_shared] at here there
        simp [Bank.channel, channel?, here, there]

structure SameItems (left right : Bank α) : Prop where
  keys : left.keys = right.keys
  items : ∀ id, (left.channel id).items = (right.channel id).items

theorem SameItems.set {left right : Bank α} (same : left.SameItems right) (id : ChannelId)
    {first second : Channel α} (equal : first.items = second.items) :
    (left.set id first).SameItems (right.set id second) := by
  constructor
  · rw [keys_set, keys_set, same.keys]
  · intro other
    by_cases coincide : Coincide left.keys id other
    · rw [channel_set_of_coincide first coincide,
        channel_set_of_coincide second (same.keys ▸ coincide), equal]
    · rw [channel_set_of_apart first coincide,
        channel_set_of_apart second (same.keys ▸ coincide), same.items]

private theorem SameItems.push {left right : Bank α} (same : left.SameItems right) (id : ChannelId)
    (element : α) : (left.push id element).SameItems (right.push id element) :=
  same.set id (by rw [Channel.items_push, Channel.items_push, same.items])

theorem SameItems.pushAll {left right : Bank α} (same : left.SameItems right) (id : ChannelId)
    (elements : List α) : (left.pushAll id elements).SameItems (right.pushAll id elements) :=
  same.set id (by rw [Channel.items_pushAll, Channel.items_pushAll, same.items])

theorem SameItems.pop {left right : Bank α} (same : left.SameItems right) (id : ChannelId) :
    (left.pop id).1 = (right.pop id).1 ∧ (left.pop id).2.SameItems (right.pop id).2 := by
  constructor
  · have equal := same.items id
    unfold Bank.pop Channel.pop Channel.pop?
    rw [equal]
    cases (right.channel id).items <;> rfl
  · apply same.set id
    change (left.channel id).pop.2.items = (right.channel id).pop.2.items
    rw [Channel.items_pop, Channel.items_pop, same.items]

theorem SameItems.peek {left right : Bank α} (same : left.SameItems right) (id : ChannelId)
    (index : Nat) :
    (left.peek id index).1 = (right.peek id index).1 ∧
      (left.peek id index).2.SameItems (right.peek id index).2 := by
  constructor
  · have equal := same.items id
    unfold Bank.peek Channel.peek Channel.size
    rw [equal]
    cases (right.channel id).items[index]? <;> rfl
  · apply same.set id
    change ((left.channel id).peek index).2.items = ((right.channel id).peek index).2.items
    rw [Channel.items_peek, Channel.items_peek, same.items]

/-- A relation between banks with the same elements that every request keeps. -/
structure KeptByRequests (alike : Bank α → Bank α → Prop) : Prop where
  items : ∀ {left right}, alike left right → left.SameItems right
  pop : ∀ {left right}, alike left right → ∀ id, alike (left.pop id).2 (right.pop id).2
  peek : ∀ {left right}, alike left right → ∀ id index,
    alike (left.peek id index).2 (right.peek id index).2
  push : ∀ {left right}, alike left right → ∀ id element,
    alike (left.push id element) (right.push id element)

private theorem sameItems_keptByRequests : KeptByRequests (SameItems (α := α)) where
  items := fun same => same
  pop := fun same id => (same.pop id).2
  peek := fun same id index => (same.peek id index).2
  push := fun same id element => same.push id element

end Bank

variable {alike : Bank α → Bank α → Prop}

namespace Routine

private theorem run_alike (kept : Bank.KeptByRequests alike) (worker : WorkerId)
    (inputs outputs : List Port) (routine : Routine α μ ρ) {left right : Bank α}
    (related : alike left right) (outbox : List (Outgoing μ)) :
    ∃ bank, routine.run worker inputs outputs { bank := left, outbox := outbox } =
        ((routine.run worker inputs outputs { bank := right, outbox := outbox }).1,
          { routine.run worker inputs outputs { bank := right, outbox := outbox } |>.2 with
            bank := bank }) ∧
      alike bank
        (routine.run worker inputs outputs { bank := right, outbox := outbox }).2.bank := by
  induction routine generalizing left right outbox with
  | done result => exact ⟨left, rfl, related⟩
  | pop input next inductionHypothesis =>
      unfold run
      cases inputs[input]? with
      | none => exact inductionHypothesis _ related outbox
      | some port =>
          have answers := ((kept.items related).pop port.channel).1
          dsimp only
          rw [answers]
          exact inductionHypothesis _ (kept.pop related port.channel) outbox
  | peek input index next inductionHypothesis =>
      unfold run
      cases inputs[input]? with
      | none => exact inductionHypothesis _ related outbox
      | some port =>
          have answers := ((kept.items related).peek port.channel index).1
          dsimp only
          rw [answers]
          exact inductionHypothesis _ (kept.peek related port.channel index) outbox
  | available input next inductionHypothesis =>
      unfold run
      cases inputs[input]? with
      | none => exact inductionHypothesis _ related outbox
      | some port =>
          have sizes : (left.channel port.channel).size = (right.channel port.channel).size :=
            congrArg List.length ((kept.items related).items port.channel)
          dsimp only
          rw [sizes]
          exact inductionHypothesis _ related outbox
  | push output element next inductionHypothesis =>
      unfold run
      cases outputs[output]? with
      | none => exact inductionHypothesis _ related outbox
      | some port => exact inductionHypothesis _ (kept.push related port.channel element) outbox
  | send portal payload next inductionHypothesis => exact inductionHypothesis related _

end Routine

namespace Graph

theorem SameButCounts.symm {left right : Graph β α μ} (same : left.SameButCounts right) :
    right.SameButCounts left :=
  ⟨same.1.symm, same.2.1.symm, fun id => (same.2.2 id).symm⟩

theorem SameButCounts.bank {left right : Graph β α μ} (same : left.SameButCounts right) :
    left.bank.SameItems right.bank :=
  ⟨congrArg GraphFrame.keys same.2.1, same.2.2⟩

theorem SameButCounts.eq_withBank {left right : Graph β α μ} (same : left.SameButCounts right) :
    left = { right with bank := left.bank } := by
  rcases same with ⟨workers, frames, _⟩
  have constraints : left.constraints = right.constraints :=
    congrArg GraphFrame.constraints frames
  have recipients : left.recipients = right.recipients := congrArg GraphFrame.recipients frames
  have topology : left.topology = right.topology := congrArg GraphFrame.topology frames
  cases left
  cases right
  simp_all

theorem sameButCounts_withBank (graph : Graph β α μ) {bank : Bank α}
    (same : bank.SameItems graph.bank) : { graph with bank := bank }.SameButCounts graph :=
  ⟨rfl, frame_withBank graph same.keys, same.items⟩

private theorem routeTo_withBank (graph : Graph β α μ) (bank : Bank α) (sender : WorkerId)
    (sent : Nat) (outgoing : Outgoing μ) (recipient : WorkerId) :
    { graph with bank := bank }.routeTo sender sent outgoing recipient =
      ((graph.routeTo sender sent outgoing recipient).1,
        { graph.routeTo sender sent outgoing recipient |>.2 with bank := bank }) := by
  unfold routeTo
  dsimp only [constraintFor?, worker?]
  split
  next => rfl
  next =>
    split
    next => rfl
    next => rfl

private theorem routeAll_withBank (graph : Graph β α μ) (bank : Bank α) (sender : WorkerId)
    (sent : Nat) (outgoing : Outgoing μ) (recipients : List WorkerId) :
    { graph with bank := bank }.routeAll sender sent outgoing recipients =
      ((graph.routeAll sender sent outgoing recipients).1,
        { graph.routeAll sender sent outgoing recipients |>.2 with bank := bank }) := by
  induction recipients generalizing graph with
  | nil => rfl
  | cons recipient rest inductionHypothesis =>
      unfold routeAll
      rw [routeTo_withBank]
      rcases graph.routeTo sender sent outgoing recipient with ⟨answer, left⟩
      cases answer with
      | error error => rfl
      | ok done => exact inductionHypothesis left

theorem routeOutbox_withBank (graph : Graph β α μ) (bank : Bank α) (sender : WorkerId)
    (sent : Nat) (outbox : List (Outgoing μ)) :
    { graph with bank := bank }.routeOutbox sender sent outbox =
      ((graph.routeOutbox sender sent outbox).1,
        { graph.routeOutbox sender sent outbox |>.2 with bank := bank }) := by
  induction outbox generalizing graph with
  | nil => rfl
  | cons outgoing rest inductionHypothesis =>
      unfold routeOutbox
      dsimp only
      cases graph.recipients[outgoing.portal.id]? with
      | none => rfl
      | some recipients =>
          dsimp only
          rw [routeAll_withBank]
          rcases graph.routeAll sender sent outgoing recipients with ⟨answer, left⟩
          cases answer with
          | error error => rfl
          | ok done => exact inductionHypothesis left

variable [Work β α μ]

private theorem runBody_withBank (kept : Bank.KeptByRequests alike) (graph : Graph β α μ)
    {bank : Bank α} (related : alike bank graph.bank) (id : WorkerId) (worker : Worker β μ) :
    ∃ after, { graph with bank := bank }.runBody id worker =
        ((graph.runBody id worker).1, { graph.runBody id worker |>.2 with bank := after }) ∧
      alike after (graph.runBody id worker).2.bank :=
  Routine.run_alike kept id worker.inputs worker.outputs _ related []

private theorem work_withBank (kept : Bank.KeptByRequests alike) (graph : Graph β α μ)
    {bank : Bank α} (related : alike bank graph.bank) (id : WorkerId) (worker : Worker β μ) :
    ∃ after, { graph with bank := bank }.work id worker =
        ((graph.work id worker).1, { graph.work id worker |>.2 with bank := after }) ∧
      alike after (graph.work id worker).2.bank := by
  rcases graph.runBody_withBank kept related id worker with ⟨after, equal, afterRelated⟩
  unfold work
  rw [equal]
  generalize graph.runBody id worker = outcome at afterRelated
  rcases outcome with ⟨⟨answer, body⟩, scene⟩
  cases answer with
  | error error => exact ⟨after, rfl, afterRelated⟩
  | ok done =>
      refine ⟨after,
        routeOutbox_withBank (graph.worked id worker body scene.bank) after id worker.executions
          scene.outbox, ?_⟩
      have routed := (routeOutbox_others (graph.worked id worker body scene.bank) id
        worker.executions scene.outbox).1
      exact routed.symm ▸ afterRelated

theorem fire_withBank [Recipient β μ] (kept : Bank.KeptByRequests alike) (graph : Graph β α μ)
    {bank : Bank α} (related : alike bank graph.bank) (id : WorkerId) :
    ∃ after, { graph with bank := bank }.fire id =
        ((graph.fire id).1, { graph.fire id |>.2 with bank := after }) ∧
      alike after (graph.fire id).2.bank := by
  unfold fire
  dsimp only [worker?]
  cases graph.workers[id]? with
  | none => exact ⟨bank, rfl, related⟩
  | some worker =>
      dsimp only
      rcases worker.deliverDue with ⟨answer, ready⟩
      cases answer with
      | error error => exact ⟨bank, rfl, related⟩
      | ok done => exact work_withBank kept graph related id ready

theorem SameButCounts.fire [Recipient β μ] {left right : Graph β α μ}
    (same : left.SameButCounts right) (id : WorkerId) :
    (left.fire id).1 = (right.fire id).1 ∧
      (left.fire id).2.SameButCounts (right.fire id).2 := by
  rcases right.fire_withBank Bank.sameItems_keptByRequests same.bank id with
    ⟨after, equal, afterSame⟩
  rw [same.eq_withBank, equal]
  exact ⟨rfl, sameButCounts_withBank _ afterSame⟩

end Graph

end DemandFlow
