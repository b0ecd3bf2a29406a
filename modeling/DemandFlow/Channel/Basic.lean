import DemandFlow.Error

/-!
Channels: first-in first-out buffers with look-ahead. Instrumented channels count
what is done to them. An operation that fails changes nothing and counts nothing.
-/

set_option autoImplicit false

namespace DemandFlow

/-- How a channel is made: plain, instrumented, or instrumented and open to several
holders at once. -/
inductive ChannelKind where
  | array
  | debug
  | synchronized
  deriving DecidableEq

namespace ChannelKind

def instrumented : ChannelKind → Bool
  | .array => false
  | .debug | .synchronized => true

def text : ChannelKind → String
  | .array => "array"
  | .debug => "debug"
  | .synchronized => "synchronized"

end ChannelKind

structure ChannelStats where
  /-- The highest index looked at. -/
  maxPeekIndex : Option Nat := none
  popCount : Nat := 0
  pushCount : Nat := 0
  deriving DecidableEq

namespace ChannelStats

def peekExtent (stats : ChannelStats) : Nat :=
  match stats.maxPeekIndex with
  | none => 0
  | some index => index + 1

def countPush (stats : ChannelStats) : ChannelStats :=
  { stats with pushCount := stats.pushCount + 1 }

def countPop (stats : ChannelStats) : ChannelStats :=
  { stats with popCount := stats.popCount + 1 }

def countPeek (stats : ChannelStats) (index : Nat) : ChannelStats :=
  { stats with maxPeekIndex := some ((stats.maxPeekIndex.map (max index)).getD index) }

theorem peekExtent_countPeek (stats : ChannelStats) (index : Nat) :
    (stats.countPeek index).peekExtent = max stats.peekExtent (index + 1) := by
  unfold countPeek peekExtent
  cases stats.maxPeekIndex with
  | none =>
      simp only [Option.map_none, Option.getD_none, Nat.le_add_left, Nat.max_eq_right]
  | some highest =>
      simp only [Option.map_some, Option.getD_some]
      omega

end ChannelStats

/-- A buffer, front first. Only instrumented channels keep counts. -/
structure Channel (α : Type) where
  items : List α := []
  stats : Option ChannelStats := none
  deriving DecidableEq

namespace Channel

variable {α : Type}

def ofKind (kind : ChannelKind) : Channel α :=
  { stats := if kind.instrumented then some {} else none }

def size (channel : Channel α) : Nat :=
  channel.items.length

def isEmpty (channel : Channel α) : Bool :=
  channel.items.isEmpty

def push (channel : Channel α) (element : α) : Channel α :=
  { items := channel.items ++ [element], stats := channel.stats.map ChannelStats.countPush }

def pushAll (channel : Channel α) (elements : List α) : Channel α :=
  elements.foldl push channel

def pop? (channel : Channel α) : Option (α × Channel α) :=
  match channel.items with
  | [] => none
  | front :: rest =>
      some (front, { items := rest, stats := channel.stats.map ChannelStats.countPop })

def pop (channel : Channel α) : Outcome α (Channel α) :=
  match channel.pop? with
  | none => (.error .emptyChannel, channel)
  | some (front, rest) => (.ok front, rest)

def peek (channel : Channel α) (index : Nat) : Outcome α (Channel α) :=
  match channel.items[index]? with
  | none => (.error (.indexOutOfRange index channel.size), channel)
  | some element =>
      (.ok element,
        { channel with stats := channel.stats.map (fun stats => stats.countPeek index) })

def resetStats (channel : Channel α) : Channel α :=
  { channel with stats := channel.stats.map (fun _ => {}) }

def popAll (channel : Channel α) : List α × Channel α :=
  (channel.items,
    { items := []
      stats := channel.stats.map (fun stats =>
        { stats with popCount := stats.popCount + channel.size }) })

def peekAll (channel : Channel α) : List α × Channel α :=
  (channel.items,
    (List.range channel.size).foldl (fun current index => (current.peek index).2) channel)

/-! ### What the operations do to the elements -/

@[simp]
theorem items_ofKind (kind : ChannelKind) : (ofKind kind : Channel α).items = [] := rfl

@[simp]
theorem items_push (channel : Channel α) (element : α) :
    (channel.push element).items = channel.items ++ [element] := rfl

@[simp]
theorem items_pushAll (channel : Channel α) (elements : List α) :
    (channel.pushAll elements).items = channel.items ++ elements := by
  unfold pushAll
  induction elements generalizing channel with
  | nil => simp only [List.foldl_nil, List.append_nil]
  | cons element rest inductionHypothesis => simp [inductionHypothesis]

@[simp]
theorem items_pop (channel : Channel α) : channel.pop.2.items = channel.items.tail := by
  cases h : channel.items with
  | nil => simp only [pop, pop?, h, List.tail_nil]
  | cons front rest => simp only [pop, pop?, h, List.tail_cons]

@[simp]
theorem items_peek (channel : Channel α) (index : Nat) :
    (channel.peek index).2.items = channel.items := by
  cases h : channel.items[index]? with
  | none => simp only [peek, h]
  | some element => simp only [peek, h]

@[simp]
theorem items_resetStats (channel : Channel α) : channel.resetStats.items = channel.items := rfl

end Channel

end DemandFlow
