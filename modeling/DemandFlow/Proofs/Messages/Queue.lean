import DemandFlow.Messages.Queue

/-!
Message queues stay in order. In an ascending queue the bisection finds the place behind
every message due no later, so an insertion keeps the queue ascending and puts the message
behind all those due at the same time.
-/

set_option autoImplicit false

namespace DemandFlow

variable {α μ : Type}

private def hits (below : α → Bool) (items : List α) (index : Nat) : Bool :=
  items[index]?.any below

private theorem partitionSearch_spec (below : α → Bool) (items : List α) (low high : Nat)
    (leading : ∀ left right, left ≤ right → hits below items right = true →
      hits below items left = true)
    (ordered : low ≤ high)
    (before : ∀ index, index < low → hits below items index = true)
    (behind : ∀ index, high ≤ index → hits below items index = false) :
    (∀ index, index < partitionSearch below items low high → hits below items index = true) ∧
      ∀ index, partitionSearch below items low high ≤ index → hits below items index = false := by
  fun_induction partitionSearch below items low high with
  | case1 low high room middle found inductionHypothesis =>
      apply inductionHypothesis
      · omega
      · intro index within
        exact leading index middle (by omega) found
      · exact behind
  | case2 low high room middle missing inductionHypothesis =>
      apply inductionHypothesis
      · omega
      · exact before
      · intro index beyond
        cases hit : hits below items index with
        | false => rfl
        | true => exact absurd (leading middle index beyond hit) missing
  | case3 low high closed =>
      have equal : low = high := by omega
      subst equal
      exact ⟨before, behind⟩

private theorem partitionPoint_spec (below : α → Bool) (items : List α)
    (leading : ∀ left right, left ≤ right → hits below items right = true →
      hits below items left = true) :
    (∀ index, index < partitionPoint below items → hits below items index = true) ∧
      ∀ index, partitionPoint below items ≤ index → hits below items index = false := by
  apply partitionSearch_spec below items 0 items.length leading (Nat.zero_le _)
  · intro index within
    exact absurd within (Nat.not_lt_zero index)
  · intro index beyond
    simp only [hits, List.getElem?_eq_none beyond, Option.any_none]

def dueAmong (messages : List (Message μ)) (time : Nat) : List (Message μ) :=
  messages.filter (fun message => decide (message.deliveryTime = time))

theorem dueAmong_append (first second : List (Message μ)) (time : Nat) :
    dueAmong (first ++ second) time = dueAmong first time ++ dueAmong second time :=
  List.filter_append ..

theorem dueAmong_eq_nil {messages : List (Message μ)} {time : Nat}
    (later : ∀ message ∈ messages, time < message.deliveryTime) : dueAmong messages time = [] := by
  unfold dueAmong
  rw [List.filter_eq_nil_iff]
  intro message member due
  have same : message.deliveryTime = time := by simpa only [decide_eq_true_eq] using due
  have ahead := later message member
  omega

theorem dueAmong_eq_self {messages : List (Message μ)} {time : Nat}
    (now : ∀ message ∈ messages, message.deliveryTime = time) :
    dueAmong messages time = messages := by
  unfold dueAmong
  rw [List.filter_eq_self]
  intro message member
  simpa only [decide_eq_true_eq] using now message member

theorem dueAmong_of_ne {messages : List (Message μ)} {time other : Nat} (different : time ≠ other)
    (now : ∀ message ∈ messages, message.deliveryTime = time) : dueAmong messages other = [] := by
  unfold dueAmong
  rw [List.filter_eq_nil_iff]
  intro message member due
  have same : message.deliveryTime = other := by simpa only [decide_eq_true_eq] using due
  exact different ((now message member).symm.trans same)

namespace MessageQueue

def Ascending (queue : MessageQueue μ) : Prop :=
  queue.messages.Pairwise (fun earlier later => earlier.deliveryTime ≤ later.deliveryTime)

def dueAt (queue : MessageQueue μ) (time : Nat) : List (Message μ) :=
  dueAmong queue.messages time

private theorem leading_of_ascending {queue : MessageQueue μ} (ascending : queue.Ascending)
    (time left right : Nat) (ordered : left ≤ right)
    (hit : hits (fun queued => decide (queued.deliveryTime ≤ time)) queue.messages right = true) :
    hits (fun queued => decide (queued.deliveryTime ≤ time)) queue.messages left = true := by
  unfold hits at hit ⊢
  cases found : queue.messages[right]? with
  | none =>
      rw [found] at hit
      cases hit
  | some later =>
      rw [found] at hit
      have laterDue : later.deliveryTime ≤ time := by
        simpa only [Option.any_some, decide_eq_true_eq] using hit
      obtain ⟨rightBound, laterEq⟩ := List.getElem?_eq_some_iff.mp found
      have leftBound : left < queue.messages.length := Nat.lt_of_le_of_lt ordered rightBound
      rw [List.getElem?_eq_getElem leftBound]
      have earlierDue : (queue.messages[left]).deliveryTime ≤ time := by
        rcases Nat.lt_or_eq_of_le ordered with strictly | same
        · have step := List.pairwise_iff_getElem.mp ascending left right leftBound rightBound
            strictly
          rw [laterEq] at step
          exact Nat.le_trans step laterDue
        · subst same
          rw [laterEq]
          exact laterDue
      simpa only [Option.any_some, decide_eq_true_eq, ge_iff_le] using earlierDue

theorem le_of_mem_take {queue : MessageQueue μ} (ascending : queue.Ascending) (time : Nat)
    {message : Message μ} (member : message ∈ queue.messages.take (queue.position time)) :
    message.deliveryTime ≤ time := by
  have spec := (partitionPoint_spec _ queue.messages (leading_of_ascending ascending time)).1
  obtain ⟨index, within, rfl⟩ := List.mem_iff_getElem.mp member
  rw [List.length_take] at within
  have hit := spec index (Nat.lt_of_lt_of_le within (Nat.min_le_left _ _))
  have bound : index < queue.messages.length :=
    Nat.lt_of_lt_of_le within (Nat.min_le_right _ _)
  unfold hits at hit
  rw [List.getElem?_eq_getElem bound] at hit
  simpa only [List.getElem_take, ge_iff_le, Option.any_some, decide_eq_true_eq] using hit

theorem lt_of_mem_drop {queue : MessageQueue μ} (ascending : queue.Ascending) (time : Nat)
    {message : Message μ} (member : message ∈ queue.messages.drop (queue.position time)) :
    time < message.deliveryTime := by
  have spec := (partitionPoint_spec _ queue.messages (leading_of_ascending ascending time)).2
  obtain ⟨index, within, rfl⟩ := List.mem_iff_getElem.mp member
  rw [List.length_drop] at within
  have missing := spec (queue.position time + index) (Nat.le_add_right _ _)
  have bound : queue.position time + index < queue.messages.length := by omega
  unfold hits at missing
  rw [List.getElem?_eq_getElem bound] at missing
  simpa only [List.getElem_drop, gt_iff_lt, Option.any_some, decide_eq_false_iff_not, Nat.not_le]
    using missing

private theorem position_le_length {queue : MessageQueue μ} (ascending : queue.Ascending)
    (time : Nat) :
    queue.position time ≤ queue.messages.length := by
  have spec := (partitionPoint_spec _ queue.messages (leading_of_ascending ascending time)).1
  apply Nat.le_of_not_lt
  intro beyond
  have hit := spec queue.messages.length beyond
  simp [hits] at hit

/-- The place of a message is the number of messages due no later. -/
theorem position_eq_countP {queue : MessageQueue μ} (ascending : queue.Ascending) (time : Nat) :
    queue.position time =
      queue.messages.countP (fun queued => decide (queued.deliveryTime ≤ time)) := by
  have before : (queue.messages.take (queue.position time)).countP
      (fun queued => decide (queued.deliveryTime ≤ time)) = queue.position time := by
    rw [List.countP_eq_length.mpr, List.length_take, Nat.min_eq_left]
    · exact position_le_length ascending time
    · intro queued member
      simpa only [decide_eq_true_eq] using le_of_mem_take ascending time member
  have behind : (queue.messages.drop (queue.position time)).countP
      (fun queued => decide (queued.deliveryTime ≤ time)) = 0 := by
    rw [List.countP_eq_zero]
    intro queued member
    simpa only [decide_eq_true_eq, Nat.not_le] using lt_of_mem_drop ascending time member
  calc queue.position time
      = (queue.messages.take (queue.position time)).countP
            (fun queued => decide (queued.deliveryTime ≤ time)) +
          (queue.messages.drop (queue.position time)).countP
            (fun queued => decide (queued.deliveryTime ≤ time)) := by
        rw [before, behind, Nat.add_zero]
    _ = queue.messages.countP (fun queued => decide (queued.deliveryTime ≤ time)) := by
        rw [← List.countP_append, List.take_append_drop]

theorem Ascending.insert {queue : MessageQueue μ} (ascending : queue.Ascending)
    (message : Message μ) : (queue.insert message).Ascending := by
  unfold Ascending MessageQueue.insert
  have whole := ascending
  unfold Ascending at whole
  rw [← List.take_append_drop (queue.position message.deliveryTime) queue.messages,
    List.pairwise_append] at whole
  obtain ⟨front, back, across⟩ := whole
  refine List.pairwise_append.mpr ⟨front, List.pairwise_cons.mpr ⟨?_, back⟩, ?_⟩
  · intro later member
    exact Nat.le_of_lt (lt_of_mem_drop ascending message.deliveryTime member)
  · intro earlier earlierIn later laterIn
    rcases List.mem_cons.mp laterIn with rfl | laterIn
    · exact le_of_mem_take ascending later.deliveryTime earlierIn
    · exact across earlier earlierIn later laterIn

theorem perm_insert {queue : MessageQueue μ} {message : Message μ} :
    (queue.insert message).messages.Perm (message :: queue.messages) := by
  have inserted : (queue.insert message).messages.Perm
      (message :: (queue.messages.take (queue.position message.deliveryTime) ++
        queue.messages.drop (queue.position message.deliveryTime))) := List.perm_middle
  rwa [List.take_append_drop] at inserted

theorem mem_insert {queue : MessageQueue μ} {message other : Message μ} :
    other ∈ (queue.insert message).messages ↔ other = message ∨ other ∈ queue.messages := by
  rw [perm_insert.mem_iff, List.mem_cons]

/-- An inserted message comes behind the messages due at its time, and changes nothing for
other times. -/
theorem dueAt_insert {queue : MessageQueue μ} (ascending : queue.Ascending)
    (message : Message μ) (time : Nat) :
    (queue.insert message).dueAt time = queue.dueAt time ++ dueAmong [message] time := by
  have parts := congrArg (dueAmong · time)
    (List.take_append_drop (queue.position message.deliveryTime) queue.messages)
  rw [dueAmong_append] at parts
  have inserted : (queue.insert message).dueAt time =
      dueAmong (queue.messages.take (queue.position message.deliveryTime)) time ++
        (dueAmong [message] time ++
          dueAmong (queue.messages.drop (queue.position message.deliveryTime)) time) := by
    rw [← dueAmong_append, ← dueAmong_append]
    rfl
  rw [inserted, dueAt, ← parts, List.append_assoc]
  congr 1
  by_cases same : message.deliveryTime = time
  · have empty : dueAmong (queue.messages.drop (queue.position message.deliveryTime)) time = [] :=
      dueAmong_eq_nil fun later member => same ▸ lt_of_mem_drop ascending _ member
    rw [empty, List.append_nil, List.nil_append]
  · have empty : dueAmong [message] time = [] :=
      dueAmong_of_ne same (by simp only [List.mem_cons, List.not_mem_nil, or_false, forall_eq])
    rw [empty, List.append_nil, List.nil_append]

end MessageQueue

end DemandFlow
