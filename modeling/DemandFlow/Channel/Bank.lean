import DemandFlow.Channel.Basic

/-!
Banks of channels. A bank numbers its channels. A channel is either the bank's own
or a handle on a buffer of the pool, where several handles, also of different
banks, can hold the same buffer.
-/

set_option autoImplicit false

namespace DemandFlow

/-- Shared synchronized buffers by key. A buffer not yet used is empty. -/
structure Pool (α : Type) where
  buffers : List (Nat × Channel α) := []

namespace Pool

variable {α : Type}

def buffer (pool : Pool α) (key : Nat) : Channel α :=
  (pool.buffers.lookup key).getD (.ofKind .synchronized)

def set (pool : Pool α) (key : Nat) (channel : Channel α) : Pool α :=
  { buffers := (key, channel) :: pool.buffers.filter (fun entry => entry.1 != key) }

@[simp]
theorem buffer_set_self (pool : Pool α) (key : Nat) (channel : Channel α) :
    (pool.set key channel).buffer key = channel := by
  simp only [buffer, set, List.lookup_cons_self, Option.getD_some]

theorem lookup_filter_ne (entries : List (Nat × Channel α)) {key other : Nat}
    (different : other ≠ key) :
    (entries.filter (fun entry => entry.1 != key)).lookup other = entries.lookup other := by
  induction entries with
  | nil => rfl
  | cons entry rest inductionHypothesis =>
      obtain ⟨first, held⟩ := entry
      by_cases h : first = key
      · simp [h, List.lookup_cons, inductionHypothesis, beq_false_of_ne different]
      · cases found : other == first <;>
          simp [h, List.lookup_cons, inductionHypothesis, found]

theorem buffer_set_of_ne (pool : Pool α) {key other : Nat} (channel : Channel α)
    (different : other ≠ key) : (pool.set key channel).buffer other = pool.buffer other := by
  simp [buffer, set, List.lookup_cons, beq_false_of_ne different,
    lookup_filter_ne pool.buffers different]

end Pool

/-- A place of a bank: a channel of its own or a handle on a shared buffer. -/
inductive Slot (α : Type) where
  | own (channel : Channel α)
  | shared (key : Nat)

structure Bank (α : Type) where
  slots : List (Slot α) := []
  pool : Pool α := {}

namespace Bank

variable {α : Type}

def size (bank : Bank α) : Nat :=
  bank.slots.length

/-- No two handles of the bank hold the same buffer. -/
def Unshared (bank : Bank α) : Prop :=
  ∀ (left right : ChannelId) (key : Nat), bank.slots[left]? = some (Slot.shared key) →
    bank.slots[right]? = some (Slot.shared key) → left = right

def channel? (bank : Bank α) (id : ChannelId) : Option (Channel α) :=
  bank.slots[id]?.map fun
    | .own channel => channel
    | .shared key => bank.pool.buffer key

/-- The channel with the given number. A number not in use stands for an empty plain
channel. -/
def channel (bank : Bank α) (id : ChannelId) : Channel α :=
  (bank.channel? id).getD {}

def set (bank : Bank α) (id : ChannelId) (channel : Channel α) : Bank α :=
  match bank.slots[id]? with
  | none => bank
  | some (.own _) => { bank with slots := bank.slots.set id (.own channel) }
  | some (.shared key) => { bank with pool := bank.pool.set key channel }

def add (bank : Bank α) (slot : Slot α) : Bank α :=
  { bank with slots := bank.slots ++ [slot] }

def push (bank : Bank α) (id : ChannelId) (element : α) : Bank α :=
  bank.set id ((bank.channel id).push element)

def pushAll (bank : Bank α) (id : ChannelId) (elements : List α) : Bank α :=
  bank.set id ((bank.channel id).pushAll elements)

def pop (bank : Bank α) (id : ChannelId) : Outcome α (Bank α) :=
  let (answer, channel) := (bank.channel id).pop
  (answer, bank.set id channel)

def peek (bank : Bank α) (id : ChannelId) (index : Nat) : Outcome α (Bank α) :=
  let (answer, channel) := (bank.channel id).peek index
  (answer, bank.set id channel)

def popAll (bank : Bank α) (id : ChannelId) : List α × Bank α :=
  let (elements, channel) := (bank.channel id).popAll
  (elements, bank.set id channel)

def peekAll (bank : Bank α) (id : ChannelId) : List α × Bank α :=
  let (elements, channel) := (bank.channel id).peekAll
  (elements, bank.set id channel)

def resetStats (bank : Bank α) (id : ChannelId) : Bank α :=
  bank.set id (bank.channel id).resetStats

/-- A further handle: a shared buffer stays shared, a channel of the bank's own is
copied. -/
def handle? (bank : Bank α) (id : ChannelId) : Option (Bank α) :=
  bank.slots[id]?.map bank.add

@[simp]
theorem size_set (bank : Bank α) (id : ChannelId) (channel : Channel α) :
    (bank.set id channel).size = bank.size := by
  unfold set size
  split <;> simp

theorem channel_set_self (bank : Bank α) {id : ChannelId} (channel : Channel α)
    (known : id < bank.size) : (bank.set id channel).channel id = channel := by
  unfold size at known
  unfold set
  split
  next unused => simp only [getElem?_eq_none_iff, Nat.not_lt, Nat.not_le_of_lt known] at unused
  next place => simp [Bank.channel, channel?, known]
  next key place => simp [Bank.channel, channel?, place]

/-- In a bank without shared buffers a change of one channel leaves the others alone. -/
theorem channel_set_of_ne {bank : Bank α} (unshared : bank.Unshared) {id other : ChannelId}
    (channel : Channel α) (different : other ≠ id) :
    (bank.set id channel).channel other = bank.channel other := by
  unfold set
  split
  next => rfl
  next place => simp only [Bank.channel, channel?, List.getElem?_set_ne (Ne.symm different)]
  next key place =>
    unfold Bank.channel channel?
    cases otherPlace : bank.slots[other]? with
    | none => rfl
    | some slot =>
        cases slot with
        | own channel => rfl
        | shared otherKey =>
            have keysDiffer : otherKey ≠ key := fun same =>
              different (unshared other id key (same ▸ otherPlace) place)
            simp only [Option.map_some, Pool.buffer_set_of_ne bank.pool channel keysDiffer,
              Option.getD_some]

theorem Unshared.set {bank : Bank α} (unshared : bank.Unshared) (id : ChannelId)
    (channel : Channel α) : (bank.set id channel).Unshared := by
  have atShared : ∀ (place : ChannelId) (key : Nat),
      (bank.set id channel).slots[place]? = some (.shared key) →
        bank.slots[place]? = some (.shared key) := by
    intro place key found
    unfold Bank.set at found
    split at found
    next => exact found
    next =>
      by_cases same : id = place
      · subst same
        simp [List.getElem?_set] at found
      · rwa [List.getElem?_set_ne same] at found
    next => exact found
  intro left right key leftFound rightFound
  exact unshared left right key (atShared left key leftFound) (atShared right key rightFound)

end Bank

end DemandFlow
