import Carousel.Event
import Carousel.Ring.Basic

/-! # Writing to a ring

Writes never fail: where the new items need the room, the oldest unread ones are given up and
the read cursor moves on. An input of at least the capacity leaves only its last items, laid out
from the write cursor on, so that the write cursor stays where it is.

`Ring.overflow`, `Ring.writeEvents` and `Ring.writeItemEvents` are the reports of the same
operations.
-/

namespace Carousel

variable {α : Type}

namespace Ring

/-- The ring once `n` items, at most its capacity, have been stored from the write cursor on. -/
def advance (r : Ring α) (n : Nat) : Ring α :=
  if r.capacity < r.count + n then
    { r with head := (r.head + (r.count + n - r.capacity)) % r.capacity, count := r.capacity }
  else
    { r with count := r.count + n }

/-- The report of `advance`: made only if unread items are stored over. -/
def overflow (r : Ring α) (n : Nat) : List Event :=
  if r.capacity < r.count + n then [.overwrote (r.count + n - r.capacity) r.capacity] else []

/-- Stores `items` from the write cursor on, at most the capacity of them. -/
def store (r : Ring α) (items : List α) : Ring α :=
  { r with slots := splice r.slots r.tail items }

/-- Appends `items`. -/
def write (r : Ring α) (items : List α) : Ring α :=
  if items.isEmpty then r
  else if r.capacity ≤ items.length then
    { slots := splice r.slots r.tail (items.drop (items.length - r.capacity))
      head := r.tail
      count := r.capacity
      canUnread := false }
  else ((r.store items).advance items.length).forget

/-- The report of writing `n` items. -/
def writeEvents (r : Ring α) (n : Nat) : List Event :=
  if n = 0 then []
  else if r.capacity ≤ n then
    if 0 < r.count then [.replacedAll r.count r.capacity] else []
  else r.overflow n

/-- Appends one item. -/
def writeItem (r : Ring α) (item : α) : Ring α :=
  ({ r with slots := r.slots.set r.tail item }.advance 1).forget

/-- The report of writing one item. -/
def writeItemEvents (r : Ring α) : List Event := r.overflow 1

/-- Stores a run that ends at the last slot or before, and commits it. -/
def commit (r : Ring α) (run : List α) : Ring α :=
  ({ r with slots := overlay r.slots r.tail run }.advance run.length).forget

end Ring

end Carousel
