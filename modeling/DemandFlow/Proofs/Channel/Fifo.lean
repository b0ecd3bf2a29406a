import DemandFlow.Channel.Bank
import Mathlib.Data.List.Basic

/-!
All kinds of channels are one queue. Whatever is done to an empty channel, through one handle
or through several that hold the same buffer, the answers are those of a plain list of elements,
the elements pushed are those popped followed by those still there, and the counts of an
instrumented channel are those of its history since the last reset.
-/

set_option autoImplicit false

namespace DemandFlow

variable {α : Type}

/-- What can be done to a channel. Offering and trying to pop is what the handles of a
synchronized channel can do besides. -/
inductive ChannelOperation (α : Type) where
  | push (element : α)
  | pop
  | peek (index : Nat)
  | size
  | isEmpty
  | resetStats
  | offer (element : α)
  | tryPop

inductive ChannelAnswer (α : Type) where
  | done
  | element (value : α)
  /-- There is no element to take. -/
  | nothing
  | refused (error : Error)
  | count (value : Nat)
  | truth (value : Bool)

structure ChannelEvent (α : Type) where
  operation : ChannelOperation α
  answer : ChannelAnswer α

namespace ChannelOperation

def isReset : ChannelOperation α → Bool
  | .resetStats => true
  | _ => false

def puts? : ChannelOperation α → Option α
  | .push element | .offer element => some element
  | _ => none

def isTake : ChannelOperation α → Bool
  | .pop | .tryPop => true
  | _ => false

def index? : ChannelOperation α → Option Nat
  | .peek index => some index
  | _ => none

end ChannelOperation

namespace ChannelAnswer

def ofOutcome : Except Error α → ChannelAnswer α
  | .ok value => .element value
  | .error error => .refused error

def element? : ChannelAnswer α → Option α
  | .element value => some value
  | _ => none

def isFailure : ChannelAnswer α → Bool
  | .nothing | .refused _ => true
  | _ => false

end ChannelAnswer

/-- A use of a channel: a further handle is made, or something is done through a handle. -/
inductive ChannelUse (α : Type) where
  | clone (handle : ChannelId)
  | perform (handle : ChannelId) (operation : ChannelOperation α)

def ChannelUse.operation? : ChannelUse α → Option (ChannelOperation α)
  | .clone _ => none
  | .perform _ operation => some operation

namespace Bank

def perform (bank : Bank α) (handle : ChannelId) :
    ChannelOperation α → ChannelAnswer α × Bank α
  | .push element | .offer element => (.done, bank.push handle element)
  | .pop => (.ofOutcome (bank.pop handle).1, (bank.pop handle).2)
  | .peek index => (.ofOutcome (bank.peek handle index).1, (bank.peek handle index).2)
  | .size => (.count (bank.channel handle).size, bank)
  | .isEmpty => (.truth (bank.channel handle).isEmpty, bank)
  | .resetStats => (.done, bank.resetStats handle)
  | .tryPop =>
      match (bank.channel handle).pop? with
      | none => (.nothing, bank)
      | some (front, rest) => (.element front, bank.set handle rest)

/-- What happens in a history of uses, and the bank behind it. -/
def useAll : Bank α → List (ChannelUse α) → List (ChannelEvent α) × Bank α
  | bank, [] => ([], bank)
  | bank, .clone handle :: rest => ((bank.handle? handle).getD bank).useAll rest
  | bank, .perform handle operation :: rest =>
      let (answer, after) := bank.perform handle operation
      let (events, last) := after.useAll rest
      (⟨operation, answer⟩ :: events, last)

def Permitted (isShared : Bool) : Nat → List (ChannelUse α) → Prop
  | _, [] => True
  | handles, .clone handle :: rest =>
      isShared = true ∧ handle < handles ∧ Permitted isShared (handles + 1) rest
  | handles, .perform handle _ :: rest => handle < handles ∧ Permitted isShared handles rest

/-- The bank holds one empty channel: one of its own, or a handle on a buffer to share. -/
inductive Opened : ChannelKind → Bool → Bank α → Prop
  | own (kind : ChannelKind) : Opened kind false { slots := [.own (.ofKind kind)] }
  | shared (key : Nat) : Opened .synchronized true { slots := [.shared key] }

end Bank

def fifoAnswer (items : List α) : ChannelOperation α → ChannelAnswer α
  | .push _ | .offer _ | .resetStats => .done
  | .pop => if h : 0 < items.length then .element items[0] else .refused .emptyChannel
  | .tryPop => if h : 0 < items.length then .element items[0] else .nothing
  | .peek index =>
      if h : index < items.length then .element items[index]
      else .refused (.indexOutOfRange index items.length)
  | .size => .count items.length
  | .isEmpty => .truth (decide (items.length = 0))

def fifoAfter (items : List α) : ChannelOperation α → List α
  | .push element | .offer element => items ++ [element]
  | .pop | .tryPop => items.tail
  | .peek _ | .size | .isEmpty | .resetStats => items

def fifoEvents : List α → List (ChannelOperation α) → List (ChannelEvent α)
  | _, [] => []
  | items, operation :: rest =>
      ⟨operation, fifoAnswer items operation⟩ :: fifoEvents (fifoAfter items operation) rest

/-! ### What a history comes to -/

namespace ChannelEvent

def pushed? (event : ChannelEvent α) : Option α :=
  event.operation.puts?

def popped? (event : ChannelEvent α) : Option α :=
  if event.operation.isTake then event.answer.element? else none

def peeked? (event : ChannelEvent α) : Option Nat :=
  if event.answer.element?.isSome then event.operation.index? else none

def sinceReset (events : List (ChannelEvent α)) : List (ChannelEvent α) :=
  (events.reverse.takeWhile (fun event => !event.operation.isReset)).reverse

def tallied (events : List (ChannelEvent α)) : ChannelStats :=
  { maxPeekIndex := (events.filterMap peeked?).max?
    popCount := (events.filterMap popped?).length
    pushCount := (events.filterMap pushed?).length }

private theorem sinceReset_snoc (events : List (ChannelEvent α)) (event : ChannelEvent α) :
    sinceReset (events ++ [event]) =
      if event.operation.isReset then [] else sinceReset events ++ [event] := by
  unfold sinceReset
  rw [List.reverse_append, List.reverse_singleton, List.singleton_append, List.takeWhile_cons]
  cases event.operation.isReset with
  | true => simp only [Bool.not_true, Bool.false_eq_true, ↓reduceIte, List.reverse_nil]
  | false => simp only [Bool.not_false, ↓reduceIte, List.reverse_cons, Bool.false_eq_true]

private theorem max?_snoc (indices : List Nat) (index : Nat) :
    (indices ++ [index]).max? = some ((indices.max?.map (max index)).getD index) := by
  cases indices with
  | nil => rfl
  | cons first rest =>
      rw [List.cons_append, List.max?_cons', List.max?_cons', List.foldl_append]
      exact congrArg some (Nat.max_comm _ _)

theorem filterMap_snoc {γ : Type} (pick : ChannelEvent α → Option γ)
    (events : List (ChannelEvent α)) (event : ChannelEvent α) :
    (events ++ [event]).filterMap pick = events.filterMap pick ++ (pick event).toList := by
  cases picked : pick event <;> simp [List.filterMap_append, picked]

def countedIn (event : ChannelEvent α) (stats : ChannelStats) : ChannelStats :=
  { maxPeekIndex := match event.peeked? with
      | none => stats.maxPeekIndex
      | some index => (stats.countPeek index).maxPeekIndex
    popCount := stats.popCount + event.popped?.toList.length
    pushCount := stats.pushCount + event.pushed?.toList.length }

private theorem tallied_snoc (events : List (ChannelEvent α)) (event : ChannelEvent α) :
    tallied (events ++ [event]) = event.countedIn (tallied events) := by
  unfold tallied countedIn
  rw [filterMap_snoc, filterMap_snoc, filterMap_snoc, List.length_append, List.length_append]
  cases event.peeked? with
  | none => simp only [Option.toList_none, List.append_nil]
  | some index => simp only [Option.toList_some, max?_snoc, ChannelStats.countPeek]

end ChannelEvent

/-- The channel is what a history has made of an empty one: what was pushed is what was popped
and then what is there, and the counts are those since the last reset. -/
structure Accounts (kind : ChannelKind) (events : List (ChannelEvent α)) (channel : Channel α) :
    Prop where
  flow : events.filterMap ChannelEvent.pushed? =
    events.filterMap ChannelEvent.popped? ++ channel.items
  counts : channel.stats = if kind.instrumented then
    some (ChannelEvent.tallied (ChannelEvent.sinceReset events)) else none

namespace Channel

def after (channel : Channel α) : ChannelOperation α → Channel α
  | .push element | .offer element => channel.push element
  | .pop | .tryPop => channel.pop.2
  | .peek index => (channel.peek index).2
  | .size | .isEmpty => channel
  | .resetStats => channel.resetStats

theorem items_after (channel : Channel α) (operation : ChannelOperation α) :
    (channel.after operation).items = fifoAfter channel.items operation := by
  cases operation <;> simp [after, fifoAfter]

private theorem stats_after (channel : Channel α) (operation : ChannelOperation α) :
    (channel.after operation).stats = channel.stats.map (fun stats =>
      if operation.isReset then {}
      else ({ operation := operation, answer := fifoAnswer channel.items operation } :
        ChannelEvent α).countedIn stats) := by
  rcases channel with ⟨items, stats⟩
  cases operation with
  | push element | offer element => rfl
  | pop | tryPop =>
      cases items with
      | nil => exact Option.map_id'.symm
      | cons front rest => rfl
  | peek index =>
      by_cases within : index < items.length
      · have found : items[index]? = some items[index] := List.getElem?_eq_getElem within
        have answer : fifoAnswer items (.peek index) = .element items[index] := dif_pos within
        simp only [after, peek, found, answer]
        rfl
      · have absent : items[index]? = none := List.getElem?_eq_none (Nat.le_of_not_lt within)
        have answer : fifoAnswer items (.peek index) =
            .refused (.indexOutOfRange index items.length) := dif_neg within
        simp only [after, peek, absent, answer]
        exact Option.map_id'.symm
  | size | isEmpty => exact Option.map_id'.symm
  | resetStats => rfl

private theorem after_of_failure (channel : Channel α) (operation : ChannelOperation α)
    (fails : (fifoAnswer channel.items operation).isFailure = true) :
    channel.after operation = channel := by
  rcases channel with ⟨items, stats⟩
  cases operation with
  | pop | tryPop =>
      cases items with
      | nil => rfl
      | cons front rest => simp [fifoAnswer, ChannelAnswer.isFailure] at fails
  | peek index =>
      by_cases within : index < items.length
      · simp only [ChannelAnswer.isFailure, fifoAnswer, within, ↓reduceDIte, Bool.false_eq_true]
          at fails
      · have absent : items[index]? = none := List.getElem?_eq_none (Nat.le_of_not_lt within)
        simp only [after, peek, absent]
  | push element | offer element | size | isEmpty | resetStats =>
      simp [fifoAnswer, ChannelAnswer.isFailure] at fails

end Channel

section

variable {kind : ChannelKind} {events : List (ChannelEvent α)} {channel : Channel α}

private theorem accounts_nil (kind : ChannelKind) :
    Accounts kind ([] : List (ChannelEvent α)) (Channel.ofKind kind) where
  flow := rfl
  counts := rfl

/-- What is there and what goes in is what comes out and what is there then. -/
theorem flow_step (items : List α) (operation : ChannelOperation α) :
    items ++ (ChannelEvent.pushed? ⟨operation, fifoAnswer items operation⟩).toList =
      (ChannelEvent.popped? ⟨operation, fifoAnswer items operation⟩).toList ++
        fifoAfter items operation := by
  cases operation with
  | push element | offer element => rfl
  | pop | tryPop =>
      cases items with
      | nil => rfl
      | cons front rest => exact List.append_nil _
  | peek index | size | isEmpty | resetStats => exact List.append_nil _

private theorem Accounts.after (accounts : Accounts kind events channel)
    (operation : ChannelOperation α) :
    Accounts kind (events ++ [⟨operation, fifoAnswer channel.items operation⟩])
      (channel.after operation) where
  flow := by
    rw [ChannelEvent.filterMap_snoc, ChannelEvent.filterMap_snoc, accounts.flow,
      Channel.items_after, List.append_assoc, List.append_assoc, flow_step]
  counts := by
    rw [Channel.stats_after, accounts.counts, ChannelEvent.sinceReset_snoc]
    dsimp only
    cases kind.instrumented with
    | false => rfl
    | true =>
        cases operation.isReset with
        | true => rfl
        | false =>
            simp only [Bool.false_eq_true, ↓reduceIte, Option.map_some, ChannelEvent.tallied_snoc]

end

namespace Bank

inductive Single : Bool → Bank α → Channel α → Prop
  | own (channel : Channel α) (pool : Pool α) :
      Single false { slots := [.own channel], pool := pool } channel
  | shared (handles key : Nat) (pool : Pool α) :
      Single true { slots := List.replicate handles (.shared key), pool := pool }
        (pool.buffer key)

section

variable {isShared : Bool} {bank : Bank α} {channel : Channel α} {handle : ChannelId}

theorem Single.channel_eq (single : Single isShared bank channel) (known : handle < bank.size) :
    bank.channel handle = channel := by
  cases single with
  | own channel pool =>
      have first : handle = 0 := by
        simpa only [size, List.length_cons, List.length_nil, Nat.zero_add,
          Nat.lt_one_iff] using known
      subst first
      rfl
  | shared handles key pool =>
      have within : handle < handles := by simpa only [size, List.length_replicate] using known
      simp [Bank.channel, channel?, within]

private theorem Single.set (single : Single isShared bank channel) (known : handle < bank.size)
    (changed : Channel α) : Single isShared (bank.set handle changed) changed := by
  cases single with
  | own channel pool =>
      have first : handle = 0 := by
        simpa only [size, List.length_cons, List.length_nil, Nat.zero_add,
          Nat.lt_one_iff] using known
      subst first
      exact .own changed pool
  | shared handles key pool =>
      have within : handle < handles := by simpa only [size, List.length_replicate] using known
      have place : (List.replicate handles (Slot.shared key : Slot α))[handle]? =
          some (.shared key) := by
            simp only [List.length_replicate, within, getElem?_pos, List.getElem_replicate]
      have next := Single.shared handles key (pool.set key changed)
      rw [Pool.buffer_set_self] at next
      unfold Bank.set
      rw [place]
      exact next

private theorem Single.clone (single : Single true bank channel) (known : handle < bank.size) :
    ∃ more, bank.handle? handle = some more ∧ Single true more channel ∧
      more.size = bank.size + 1 := by
  cases single with
  | shared handles key pool =>
      have within : handle < handles := by simpa only [size, List.length_replicate] using known
      have next := Single.shared (handles + 1) key pool
      rw [List.replicate_succ'] at next
      refine ⟨_, ?_, next, ?_⟩
      · simp [handle?, within, add]
      · simp [size]

theorem Single.perform (single : Single isShared bank channel) (known : handle < bank.size)
    (operation : ChannelOperation α) :
    (bank.perform handle operation).1 = fifoAnswer channel.items operation ∧
      Single isShared (bank.perform handle operation).2 (channel.after operation) ∧
      (bank.perform handle operation).2.size = bank.size := by
  have found := single.channel_eq known
  have changed := single.set known (channel.after operation)
  cases operation with
  | push element | offer element =>
      unfold Bank.perform push
      rw [found]
      exact ⟨rfl, changed, size_set _ _ _⟩
  | pop =>
      unfold Bank.perform pop
      rw [found]
      refine ⟨?_, changed, size_set _ _ _⟩
      cases split : channel.items with
      | nil => simp [Channel.pop, Channel.pop?, split, fifoAnswer, ChannelAnswer.ofOutcome]
      | cons front rest =>
          simp [Channel.pop, Channel.pop?, split, fifoAnswer, ChannelAnswer.ofOutcome]
  | peek index =>
      unfold Bank.perform peek
      rw [found]
      refine ⟨?_, changed, size_set _ _ _⟩
      by_cases within : index < channel.items.length
      · simp [Channel.peek, within, fifoAnswer, ChannelAnswer.ofOutcome]
      · simp [Channel.peek, within, fifoAnswer, ChannelAnswer.ofOutcome, Channel.size]
  | size =>
      unfold Bank.perform
      rw [found]
      exact ⟨rfl, single, rfl⟩
  | isEmpty =>
      unfold Bank.perform
      rw [found]
      refine ⟨?_, single, rfl⟩
      cases split : channel.items <;> simp [Channel.isEmpty, fifoAnswer, split]
  | resetStats =>
      unfold Bank.perform resetStats
      rw [found]
      exact ⟨rfl, changed, size_set _ _ _⟩
  | tryPop =>
      unfold Bank.perform
      rw [found]
      cases split : channel.items with
      | nil =>
          have same : channel.after .tryPop = channel := by
            simp only [Channel.after, Channel.pop, Channel.pop?, split]
          have nothing : channel.pop? = none := by simp only [Channel.pop?, split]
          rw [same, nothing]
          exact ⟨by simp [fifoAnswer], single, rfl⟩
      | cons front rest =>
          have popped : channel.pop? = some (front, channel.after .tryPop) := by
            simp only [Channel.pop?, split, Channel.after, Channel.pop]
          rw [popped]
          exact ⟨by simp [fifoAnswer], changed, size_set _ _ _⟩

private theorem Single.useAll {kind : ChannelKind} {before : List (ChannelEvent α)}
    {uses : List (ChannelUse α)} (single : Single isShared bank channel)
    (accounts : Accounts kind before channel) (permitted : Permitted isShared bank.size uses) :
    (bank.useAll uses).1 =
        fifoEvents channel.items (uses.filterMap ChannelUse.operation?) ∧
      ∃ last, Single isShared (bank.useAll uses).2 last ∧
        Accounts kind (before ++ (bank.useAll uses).1) last := by
  induction uses generalizing bank channel before with
  | nil => exact ⟨rfl, channel, single, by rwa [Bank.useAll, List.append_nil]⟩
  | cons use rest inductionHypothesis =>
      cases use with
      | clone handle =>
          rcases permitted with ⟨rfl, known, later⟩
          rcases single.clone known with ⟨more, made, still, counted⟩
          have next := inductionHypothesis still accounts (counted ▸ later)
          have same : bank.useAll (.clone handle :: rest) = more.useAll rest := by
            simp only [useAll, made, Option.getD_some]
          rw [same]
          exact next
      | perform handle operation =>
          rcases permitted with ⟨known, later⟩
          rcases single.perform known operation with ⟨answer, still, counted⟩
          have next := inductionHypothesis still (accounts.after operation) (counted ▸ later)
          rw [Channel.items_after, List.append_assoc] at next
          simpa [Bank.useAll, answer, fifoEvents, ChannelUse.operation?] using next

end

/-- Every kind of channel is the same queue. The answers are those of a plain list, whatever
handles are used; through every handle there is then what was pushed less what was popped, and
an instrumented channel has counted what succeeded since the last reset; and what fails changes
nothing. -/
theorem channels_are_one_queue {kind : ChannelKind} {isShared : Bool} {bank : Bank α}
    {uses : List (ChannelUse α)} (opened : Opened kind isShared bank)
    (permitted : Permitted isShared 1 uses) :
    (bank.useAll uses).1 = fifoEvents [] (uses.filterMap ChannelUse.operation?) ∧
      ∀ handle, handle < (bank.useAll uses).2.size →
        Accounts kind (bank.useAll uses).1 ((bank.useAll uses).2.channel handle) ∧
        ∀ operation, ((bank.useAll uses).2.perform handle operation).1.isFailure = true →
          ∀ other, other < (bank.useAll uses).2.size →
            ((bank.useAll uses).2.perform handle operation).2.channel other =
              (bank.useAll uses).2.channel other := by
  have start : Single isShared bank (Channel.ofKind kind) ∧ bank.size = 1 := by
    cases opened with
    | own kind => exact ⟨.own _ _, rfl⟩
    | shared key => exact ⟨.shared 1 key {}, rfl⟩
  rcases start.1.useAll (accounts_nil kind) (start.2 ▸ permitted) with
    ⟨answers, last, single, accounts⟩
  refine ⟨answers, ?_⟩
  intro handle known
  constructor
  · rw [single.channel_eq known]
    exact accounts
  · intro operation fails other otherKnown
    rcases single.perform known operation with ⟨answer, still, counted⟩
    rw [answer] at fails
    rw [last.after_of_failure operation fails] at still
    rw [still.channel_eq (counted ▸ otherKnown), single.channel_eq otherKnown]

/-- Two handles on one buffer, with a peek too far, a reset between a peek and a pop, and a pop
too many. -/
def relayUses : List (ChannelUse Nat) :=
  [.clone 0, .perform 0 (.push 4), .perform 1 (.offer 5), .perform 0 (.peek 1),
    .perform 1 .resetStats, .perform 1 .pop, .perform 0 (.peek 3), .perform 0 (.peek 0),
    .perform 0 .tryPop, .perform 1 .pop]

theorem channels_are_one_queue_relay :
    (useAll { slots := [.shared 7] } relayUses).1.map ChannelEvent.answer =
        [.done, .done, .element 5, .done, .element 4, .refused (.indexOutOfRange 3 1), .element 5,
          .element 5, .refused .emptyChannel] ∧
      Accounts .synchronized (useAll { slots := [.shared 7] } relayUses).1
        { items := []
          stats := some { maxPeekIndex := some 0, popCount := 2, pushCount := 0 } } := by
  have opened : Opened .synchronized true ({ slots := [.shared 7] } : Bank Nat) := .shared 7
  have permitted : Permitted true 1 relayUses := by simp [relayUses, Permitted]
  have whole := channels_are_one_queue opened permitted
  constructor
  · rw [whole.1]
    rfl
  · exact (whole.2 1 (by decide)).1

end Bank

end DemandFlow
