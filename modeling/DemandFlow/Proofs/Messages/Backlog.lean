import DemandFlow.Proofs.Messages.Queue
import Mathlib.Data.List.Find
import Mathlib.Data.List.Perm.Basic

/-!
Message queues as backlogs. A backlog keeps its messages in the order in which they were
inserted and gives away the first of those that are due soonest. Whatever is done to both, a
queue holds the messages of the backlog, by delivery time and within one time in the same order,
and gives away the same ones.
-/

set_option autoImplicit false

namespace DemandFlow

variable {μ : Type}

inductive QueueUse (μ : Type) where
  | insert (message : Message μ)
  | popFront

def insertedBy : List (QueueUse μ) → List (Message μ)
  | [] => []
  | .insert message :: rest => message :: insertedBy rest
  | .popFront :: rest => insertedBy rest

namespace MessageQueue

def use (queue : MessageQueue μ) : QueueUse μ → MessageQueue μ
  | .insert message => queue.insert message
  | .popFront => (queue.popFront?.map Prod.snd).getD queue

def given (queue : MessageQueue μ) : QueueUse μ → Option (Message μ)
  | .insert _ => none
  | .popFront => queue.popFront?.map Prod.fst

def useAll (queue : MessageQueue μ) (uses : List (QueueUse μ)) : MessageQueue μ :=
  uses.foldl use queue

def givenBy : MessageQueue μ → List (QueueUse μ) → List (Message μ)
  | _, [] => []
  | queue, one :: rest => (queue.given one).toList ++ givenBy (queue.use one) rest

end MessageQueue

structure Backlog (μ : Type) where
  messages : List (Message μ) := []

namespace Backlog

def isSoonest (backlog : Backlog μ) (message : Message μ) : Bool :=
  backlog.messages.all (fun other => decide (message.deliveryTime ≤ other.deliveryTime))

def front? (backlog : Backlog μ) : Option (Message μ) :=
  backlog.messages.find? backlog.isSoonest

def use (backlog : Backlog μ) : QueueUse μ → Backlog μ
  | .insert message => { messages := backlog.messages ++ [message] }
  | .popFront => { messages := backlog.messages.eraseP backlog.isSoonest }

def useAll (backlog : Backlog μ) (uses : List (QueueUse μ)) : Backlog μ :=
  uses.foldl use backlog

private theorem sublist_useAll (backlog : Backlog μ) (uses : List (QueueUse μ)) :
    (backlog.useAll uses).messages.Sublist (backlog.messages ++ insertedBy uses) := by
  induction uses generalizing backlog with
  | nil => simp only [useAll, List.foldl_nil, insertedBy, List.append_nil, List.Sublist.refl]
  | cons one rest inductionHypothesis =>
      have later := inductionHypothesis (backlog.use one)
      cases one with
      | insert message => simpa [useAll, use, insertedBy] using later
      | popFront => exact later.trans (List.eraseP_sublist.append_right _)

/-- Where a backlog gives away its front: nothing before it is due as soon. -/
theorem split_of_front? {backlog : Backlog μ} {front : Message μ}
    (found : backlog.front? = some front) :
    ∃ earlier later, backlog.messages = earlier ++ front :: later ∧
      (backlog.use .popFront).messages = earlier ++ later ∧
      ∀ message ∈ earlier, backlog.isSoonest message = false := by
  rcases List.find?_eq_some_iff_append.mp found with ⟨soonest, earlier, later, split, others⟩
  have passed : ∀ message ∈ earlier, backlog.isSoonest message = false := by
    intro message member
    simpa only [Bool.not_eq_eq_eq_not, Bool.not_true] using others message member
  refine ⟨earlier, later, split, ?_, passed⟩
  have skipped : ∀ message ∈ earlier, ¬ backlog.isSoonest message = true := by
    intro message member
    simp only [passed message member, Bool.false_eq_true, not_false_eq_true]
  change backlog.messages.eraseP backlog.isSoonest = earlier ++ later
  rw [split, List.eraseP_append_right _ skipped, List.eraseP_cons_of_pos soonest]

end Backlog

/-- The queue holds the messages of the backlog, by time and as they came. -/
structure Orders (queue : MessageQueue μ) (backlog : Backlog μ) : Prop where
  ascending : queue.Ascending
  same : queue.messages.Perm backlog.messages
  stable : ∀ time, queue.dueAt time = dueAmong backlog.messages time

namespace Orders

variable {queue : MessageQueue μ} {backlog : Backlog μ} {front : Message μ}
  {rest : List (Message μ)}

private theorem empty : Orders ({} : MessageQueue μ) {} where
  ascending := List.Pairwise.nil
  same := List.Perm.refl _
  stable := fun _ => rfl

private theorem insert (orders : Orders queue backlog) (message : Message μ) :
    Orders (queue.insert message) (backlog.use (.insert message)) where
  ascending := orders.ascending.insert message
  same := (MessageQueue.perm_insert.trans (orders.same.cons message)).trans
    (List.perm_append_singleton _ _).symm
  stable := by
    intro time
    rw [MessageQueue.dueAt_insert orders.ascending, orders.stable time, ← dueAmong_append]
    rfl

theorem ascending_rest (orders : Orders queue backlog)
    (split : queue.messages = front :: rest) :
    (∀ later ∈ rest, front.deliveryTime ≤ later.deliveryTime) ∧
      ({ messages := rest } : MessageQueue μ).Ascending := by
  have ascending := orders.ascending
  unfold MessageQueue.Ascending at ascending
  rw [split, List.pairwise_cons] at ascending
  exact ascending

/-- What comes first in the queue is due soonest in the backlog. -/
theorem isSoonest_eq (orders : Orders queue backlog)
    (split : queue.messages = front :: rest) {message : Message μ}
    (member : message ∈ backlog.messages) :
    backlog.isSoonest message = decide (message.deliveryTime = front.deliveryTime) := by
  have first : ∀ queued ∈ queue.messages, front.deliveryTime ≤ queued.deliveryTime := by
    rw [split, List.forall_mem_cons]
    exact ⟨Nat.le_refl _, (orders.ascending_rest split).1⟩
  have frontIn : front ∈ backlog.messages := by
    rw [← orders.same.mem_iff, split]
    exact List.mem_cons_self
  rw [Bool.eq_iff_iff, decide_eq_true_iff]
  unfold Backlog.isSoonest
  rw [List.all_eq_true]
  constructor
  · intro soonest
    have noLater : message.deliveryTime ≤ front.deliveryTime := by
      simpa only [decide_eq_true_eq] using soonest front frontIn
    exact Nat.le_antisymm noLater (first message (orders.same.mem_iff.mpr member))
  · intro same other otherIn
    rw [decide_eq_true_iff, same]
    exact first other (orders.same.mem_iff.mpr otherIn)

theorem front?_eq (orders : Orders queue backlog)
    (split : queue.messages = front :: rest) : backlog.front? = some front := by
  have sameSearch : backlog.front? = backlog.messages.find?
      (fun message => decide (message.deliveryTime = front.deliveryTime)) := by
    unfold Backlog.front?
    apply List.find?_congr
    intro message member
    exact orders.isSoonest_eq split member
  rw [sameSearch, ← List.head?_filter]
  change (dueAmong backlog.messages front.deliveryTime).head? = some front
  rw [← orders.stable, MessageQueue.dueAt, split]
  simp only [dueAmong, decide_true, List.filter_cons_of_pos, List.head?_cons]

/-- What is left in the queue is what is left in the backlog. -/
theorem popFront (orders : Orders queue backlog)
    (split : queue.messages = front :: rest) :
    Orders { messages := rest } (backlog.use .popFront) := by
  rcases Backlog.split_of_front? (orders.front?_eq split) with
    ⟨earlier, later, whole, left, passed⟩
  have otherTimes : ∀ message ∈ earlier, message.deliveryTime ≠ front.deliveryTime := by
    intro message member same
    have soonest := orders.isSoonest_eq split
      (whole ▸ List.mem_append_left _ member : message ∈ backlog.messages)
    rw [passed message member, same] at soonest
    simp only [decide_true, Bool.false_eq_true] at soonest
  constructor
  · exact (orders.ascending_rest split).2
  · have same := orders.same
    rw [split, whole] at same
    rw [left]
    exact (same.trans List.perm_middle).cons_inv
  · intro time
    have stable := orders.stable time
    have single (others : List (Message μ)) :
        dueAmong (front :: others) time = dueAmong [front] time ++ dueAmong others time :=
      dueAmong_append [front] others time
    rw [MessageQueue.dueAt, split, whole, dueAmong_append, single, single later] at stable
    rw [left, dueAmong_append]
    change dueAmong rest time = dueAmong earlier time ++ dueAmong later time
    by_cases now : front.deliveryTime = time
    · have nothing : dueAmong earlier time = [] := by
        unfold dueAmong
        rw [List.filter_eq_nil_iff]
        intro message member due
        exact otherTimes message member ((decide_eq_true_iff.mp due).trans now.symm)
      rw [nothing, List.nil_append] at stable ⊢
      exact List.append_cancel_left stable
    · have nothing : dueAmong [front] time = [] := dueAmong_of_ne now (by simp)
      simpa only [nothing, List.nil_append] using stable

theorem backlog_eq_nil (orders : Orders queue backlog) (empty : queue.messages = []) :
    backlog.messages = [] := by
  have same := orders.same
  rw [empty] at same
  exact same.symm.eq_nil

private theorem use (orders : Orders queue backlog) (one : QueueUse μ) :
    Orders (queue.use one) (backlog.use one) := by
  cases one with
  | insert message => exact orders.insert message
  | popFront =>
      cases split : queue.messages with
      | nil =>
          have queueSame : queue.use .popFront = queue := by
            simp only [MessageQueue.use, MessageQueue.popFront?, split, Option.map_none,
              Option.getD_none]
          have backlogSame : backlog.use .popFront = backlog := by
            unfold Backlog.use
            dsimp only
            rw [orders.backlog_eq_nil split]
            exact congrArg Backlog.mk (orders.backlog_eq_nil split).symm
          rw [queueSame, backlogSame]
          exact orders
      | cons front rest =>
          have queueNext : queue.use .popFront = { messages := rest } := by
            simp only [MessageQueue.use, MessageQueue.popFront?, split, Option.map_some,
              Option.getD_some]
          rw [queueNext]
          exact orders.popFront split

private theorem useAll (orders : Orders queue backlog) (uses : List (QueueUse μ)) :
    Orders (queue.useAll uses) (backlog.useAll uses) := by
  induction uses generalizing queue backlog with
  | nil => exact orders
  | cons one rest inductionHypothesis => exact inductionHypothesis (orders.use one)

private theorem given_eq (orders : Orders queue backlog) :
    queue.popFront?.map Prod.fst = backlog.front? := by
  cases split : queue.messages with
  | nil =>
      unfold Backlog.front?
      rw [orders.backlog_eq_nil split]
      simp only [MessageQueue.popFront?, split, Option.map_none, List.find?_nil]
  | cons front rest =>
      rw [orders.front?_eq split]
      simp only [MessageQueue.popFront?, split, Option.map_some]

private theorem popFront?_eq_none (orders : Orders queue backlog) :
    queue.popFront? = none ↔ backlog.messages = [] := by
  constructor
  · intro nothing
    apply orders.backlog_eq_nil
    cases split : queue.messages with
    | nil => rfl
    | cons front rest => simp only [MessageQueue.popFront?, split, reduceCtorEq] at nothing
  · intro nothing
    have same := orders.same
    rw [nothing] at same
    simp only [MessageQueue.popFront?, same.eq_nil]

end Orders

namespace MessageQueue

private theorem perm_useAll (queue : MessageQueue μ) (uses : List (QueueUse μ)) :
    (queue.messages ++ insertedBy uses).Perm
      (queue.givenBy uses ++ (queue.useAll uses).messages) := by
  induction uses generalizing queue with
  | nil => simp [insertedBy, givenBy, useAll]
  | cons one rest inductionHypothesis =>
      have later := inductionHypothesis (queue.use one)
      cases one with
      | insert message =>
          have moved : (queue.messages ++ message :: insertedBy rest).Perm
              ((queue.insert message).messages ++ insertedBy rest) :=
            List.perm_middle.trans (perm_insert.symm.append_right _)
          exact moved.trans later
      | popFront =>
          cases split : queue.messages with
          | nil =>
              have same : queue.use .popFront = queue := by
                simp only [use, popFront?, split, Option.map_none, Option.getD_none]
              rw [same, split] at later
              simpa [givenBy, given, popFront?, split, same, useAll, insertedBy] using later
          | cons front others =>
              have next : queue.use .popFront = { messages := others } := by
                simp only [use, popFront?, split, Option.map_some, Option.getD_some]
              rw [next] at later
              simpa [givenBy, given, popFront?, split, next, useAll, insertedBy] using
                later.cons front

/-- A message queue is a stable priority queue. After any uses it holds what was inserted and
not given away, ascending by delivery time and for each time in the order of insertion; the next
message it gives is the first inserted of those due soonest; and the bisection counts the
messages due no later. -/
theorem gives_soonest_first (uses : List (QueueUse μ)) :
    (insertedBy uses).Perm
        (givenBy {} uses ++ (useAll {} uses).messages) ∧
      (Backlog.useAll {} uses).messages.Sublist (insertedBy uses) ∧
      Orders (useAll {} uses) (Backlog.useAll {} uses) ∧
      (useAll {} uses).popFront?.map Prod.fst = (Backlog.useAll {} uses).front? ∧
      ((useAll {} uses).popFront? = none ↔ (Backlog.useAll {} uses).messages = []) ∧
      ∀ time, (useAll {} uses).position time =
        (useAll {} uses).messages.countP (fun queued => decide (queued.deliveryTime ≤ time)) := by
  have orders : Orders (useAll {} uses) (Backlog.useAll {} uses) := Orders.empty.useAll uses
  refine ⟨perm_useAll {} uses, Backlog.sublist_useAll {} uses, orders, orders.given_eq,
    orders.popFront?_eq_none, ?_⟩
  intro time
  exact position_eq_countP orders.ascending time

end MessageQueue

end DemandFlow
