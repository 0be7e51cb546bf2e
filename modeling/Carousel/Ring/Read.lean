import Carousel.Outcome
import Carousel.Peer

/-! # Reading from a ring

Reads consume the oldest unread items. Whatever consumes at least one item arms the unread
marker, and `Ring.unreadItem` then steps back over the last one; a read that consumes nothing
clears the marker.

* `Ring.read` fills a buffer, which makes a ring a producer.
* `Ring.readItem`, `Ring.next`, `Ring.value` take one item, some items, all items.
* `Ring.readItems` takes the items in front of the first one that a probe picks, and the picked
  item with them; `Ring.readUntil` is the case of a plain predicate.
* `Ring.truncate` and `Ring.reset` give up items and blank their slots.
-/

namespace Carousel

variable {σ α : Type}

namespace Ring

/-- Moves the read cursor over `n` unread items. -/
def consume (r : Ring α) (n : Nat) : Ring α :=
  { r with head := (r.head + n) % r.capacity, count := r.count - n, canUnread := 0 < n }

/-- The oldest `n` unread items, out of the two segments. -/
def front (r : Ring α) (n : Nat) : List α :=
  r.segments.1.take n ++ r.segments.2.take (n - r.segments.1.length)

/-- Moves as many unread items as there are and as fit over the front of `buffer`. -/
def read (r : Ring α) (buffer : List α) : Delivery Failure (Ring α) α :=
  if buffer.isEmpty then ⟨r.forget, [], .ok 0⟩
  else if r.count = 0 then ⟨r.forget, [], .error .endOfData⟩
  else
    let n := min buffer.length r.count
    ⟨r.consume n, r.front n, .ok n⟩

/-- Takes the oldest unread item. -/
def readItem [Inhabited α] (r : Ring α) : Ring α × Except Failure α :=
  if r.count = 0 then (r.forget, .error .endOfData)
  else (r.consume 1, .ok (r.slots.getD r.head default))

/-- Takes the oldest `n` unread items; there have to be as many. -/
def take (r : Ring α) (n : Nat) : Ring α × List α :=
  if n = 0 then (r.forget, []) else (r.consume n, r.front n)

/-- Takes all unread items. -/
def value (r : Ring α) : Ring α × List α := r.take r.count

/-- Takes the oldest `n` unread items, or all if there are fewer. -/
def next (r : Ring α) (n : Nat) : Ring α × List α := r.take (min n r.count)

/-- Steps the read cursor back over the item last consumed, once. -/
def unreadItem (r : Ring α) : Ring α × Except Failure Unit :=
  if r.canUnread then
    ({ r with
        head := (r.head + r.capacity - 1) % r.capacity
        count := r.count + 1
        canUnread := false }, .ok ())
  else (r, .error .nothingToUnread)

/-! ### Reading up to an item -/

/-- Looks for the first item that the probe picks, asking it about one item after the other. -/
def search (probe : σ → α → σ × Bool) : σ → List α → σ × Option Nat
  | state, [] => (state, none)
  | state, item :: items =>
    match probe state item with
    | (state, true) => (state, some 0)
    | (state, false) =>
      let (state, found) := search probe state items
      (state, found.map (· + 1))

/-- Takes the items in front of the first one that the probe picks, or all if it picks none. The
picked item is consumed, but not returned. -/
def readItems (probe : σ → α → σ × Bool) (state : σ) (r : Ring α) : Outcome σ α (List α) :=
  if r.count = 0 then ⟨r.forget, state, [], .error .endOfData⟩
  else
    match search probe state r.segments.1 with
    | (state, some i) => ⟨r.consume (i + 1), state, [], .ok (r.segments.1.take i)⟩
    | (state, none) =>
      match search probe state r.segments.2 with
      | (state, some i) =>
        ⟨r.consume (r.segments.1.length + (i + 1)), state, [],
          .ok (r.segments.1 ++ r.segments.2.take i)⟩
      | (state, none) =>
        ⟨r.consume (r.segments.1.length + r.segments.2.length), state, [],
          .ok (r.segments.1 ++ r.segments.2)⟩

/-- Takes the items in front of the first one that satisfies `p`, and consumes that one too. -/
def readUntil (p : α → Bool) (r : Ring α) : Ring α × Except Failure (List α) :=
  let o := r.readItems (fun _ item => ((), p item)) ()
  (o.ring, o.answer)

/-! ### Giving items up -/

/-- Empties the ring and blanks all slots. -/
def reset [Inhabited α] (r : Ring α) : Ring α where
  slots := List.replicate r.capacity default
  head := 0
  count := 0
  canUnread := false

/-- Gives up the oldest `n` unread items and blanks their slots; if `n` is zero or more than
there are, the whole ring is reset. -/
def truncate [Inhabited α] (r : Ring α) (n : Nat) : Ring α :=
  if n = 0 ∨ r.count < n then r.reset
  else
    { slots := splice r.slots r.head (List.replicate n default)
      head := (r.head + n) % r.capacity
      count := r.count - n
      canUnread := false }

end Ring

end Carousel
