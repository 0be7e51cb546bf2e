import Carousel.Failure
import Carousel.Ring.Basic

/-! # Moving the read cursor

`Ring.seek` moves the read cursor to an offset from an anchor, modulo the capacity. The write
cursor and the slots stay as they are, so the unread items are those from the new read cursor up
to the write cursor; only a target equal to the read cursor keeps a full ring full. Positions are
signed 64-bit numbers, and a sum beyond their range stops at its end (`saturate`). A negative
target fails and changes nothing.
-/

namespace Carousel

variable {α : Type}

/-- What the offset of a seek counts from. -/
inductive Anchor where
  /-- Slot 0. -/
  | start
  /-- The read cursor. -/
  | reader
  /-- The write cursor. -/
  | writer
deriving DecidableEq, Repr

namespace Anchor

/-- The number of an anchor. -/
def code : Anchor → Int
  | start => 0
  | reader => 1
  | writer => 2

/-- The anchor with a given number. -/
def ofCode (code : Int) : Except Failure Anchor :=
  if code = 0 then .ok .start
  else if code = 1 then .ok .reader
  else if code = 2 then .ok .writer
  else .error (.unknownAnchor code)

/-- The slot of an anchor. -/
def slot (a : Anchor) (r : Ring α) : Nat :=
  match a with
  | start => 0
  | reader => r.head
  | writer => r.tail

end Anchor

/-- The signed 64-bit number nearest to `z`. -/
def saturate (z : Int) : Int := max Int64.minValue.toInt (min Int64.maxValue.toInt z)

namespace Ring

/-- The target of a seek, before it is taken modulo the capacity. -/
def seekTarget (r : Ring α) (offset : Int64) (anchor : Anchor) : Int :=
  saturate (anchor.slot r + offset.toInt)

/-- Moves the read cursor to a slot; the unread items are then those up to the write cursor. -/
def moveTo (r : Ring α) (slot : Nat) : Ring α :=
  if slot = r.head then r
  else { r with head := slot, count := (r.tail + r.capacity - slot) % r.capacity }

/-- Moves the read cursor to `offset` slots behind `anchor` and answers its new slot. -/
def seek (r : Ring α) (offset : Int64) (anchor : Anchor) : Ring α × Except Failure Nat :=
  if r.seekTarget offset anchor < 0 then (r, .error (.negativePosition (r.seekTarget offset anchor)))
  else
    ((r.moveTo ((r.seekTarget offset anchor).toNat % r.capacity)).forget,
      .ok ((r.seekTarget offset anchor).toNat % r.capacity))

/-- Like `seek`, the anchor given by its number. -/
def seekCode (r : Ring α) (offset : Int64) (code : Int) : Ring α × Except Failure Nat :=
  match Anchor.ofCode code with
  | .ok anchor => r.seek offset anchor
  | .error failure => (r, .error failure)

end Ring

end Carousel
