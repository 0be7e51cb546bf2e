import Carousel.Slots

/-! # Rings

A ring is a circular store of fixed capacity. Its unread items lie in `count` consecutive slots
from the read cursor `head` on, going on at slot 0 behind the last slot; `tail` is the slot
behind them, where the next item is stored.

* `Ring.create`: an empty ring; a capacity of zero stands for `defaultCapacity`.
* `Ring.Valid`: what holds of every ring that the operations make.
* `Ring.segments`: the unread items as the two runs of slots they lie in.
* `Ring.unread`: the unread items, slot by slot.
-/

namespace Carousel

variable {α : Type}

/-- Capacity of a ring for which none was asked. -/
def defaultCapacity : Nat := 256

/-- The capacity that a request stands for: zero asks for the default. -/
def effectiveCapacity (requested : Nat) : Nat :=
  if requested = 0 then defaultCapacity else requested

/-- A circular store. -/
structure Ring (α : Type) where
  slots : List α
  /-- Read cursor: the slot of the oldest unread item. -/
  head : Nat
  /-- Number of unread items. -/
  count : Nat
  /-- Whether the item last consumed may be given back. -/
  canUnread : Bool
deriving DecidableEq, Repr

namespace Ring

def capacity (r : Ring α) : Nat := r.slots.length

/-- What every operation keeps. A ring whose last item may be given back has a slot for it. -/
structure Valid (r : Ring α) : Prop where
  capacity_pos : 0 < r.capacity
  head_lt : r.head < r.capacity
  count_le : r.count ≤ r.capacity
  count_lt : r.canUnread = true → r.count < r.capacity

/-- An empty ring with all slots blank. -/
def create [Inhabited α] (requested : Nat) : Ring α where
  slots := List.replicate (effectiveCapacity requested) default
  head := 0
  count := 0
  canUnread := false

instance [Inhabited α] : Inhabited (Ring α) := ⟨create defaultCapacity⟩

/-- Write cursor: the slot for the next item. -/
def tail (r : Ring α) : Nat := (r.head + r.count) % r.capacity

def isEmpty (r : Ring α) : Bool := r.count = 0

def isFull (r : Ring α) : Bool := r.count = r.capacity

/-- The unread items as two runs of slots, the second from slot 0 on if they reach beyond the
last slot. -/
def segments (r : Ring α) : List α × List α :=
  if r.count = 0 then ([], [])
  else if r.count ≤ r.capacity - r.head then (window r.slots r.head r.count, [])
  else (r.slots.drop r.head, r.slots.take (r.count - (r.capacity - r.head)))

/-- The unread items, oldest first: item `i` lies in slot `head + i`, modulo the capacity. -/
def unread [Inhabited α] (r : Ring α) : List α :=
  (List.range r.count).map fun i => r.slots.getD ((r.head + i) % r.capacity) default

/-- The ring after an operation that leaves nothing to give back. -/
def forget (r : Ring α) : Ring α := { r with canUnread := false }

theorem effectiveCapacity_pos (requested : Nat) : 0 < effectiveCapacity requested := by
  unfold effectiveCapacity defaultCapacity
  split <;> omega

@[simp] theorem capacity_create [Inhabited α] (requested : Nat) :
    (create (α := α) requested).capacity = effectiveCapacity requested := by
  simp [create, capacity]

theorem valid_create [Inhabited α] (requested : Nat) : (create (α := α) requested).Valid where
  capacity_pos := by rw [capacity_create]; exact effectiveCapacity_pos requested
  head_lt := by rw [capacity_create]; exact effectiveCapacity_pos requested
  count_le := Nat.zero_le _
  count_lt := by simp [create]

theorem Valid.tail_lt {r : Ring α} (h : r.Valid) : r.tail < r.capacity :=
  Nat.mod_lt _ h.capacity_pos

theorem tail_add_mod (r : Ring α) (j : Nat) :
    (r.tail + j) % r.capacity = (r.head + r.count + j) % r.capacity := by
  unfold tail
  rw [Nat.mod_add_mod]

@[simp] theorem length_unread [Inhabited α] (r : Ring α) : r.unread.length = r.count := by
  simp [unread]

end Ring

end Carousel
