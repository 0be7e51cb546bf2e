import Carousel.Ring.Basic
import Carousel.Text.Outline

/-! # Outlines of rings and stages

The nested text of a ring, with its slots and cursors, and of a stage, which shows its ring but
not its filter.
-/

namespace Carousel

open Text

/-- The outline of a ring, given that of an item. -/
def Ring.outline {α : Type} (item : α → Outline) (r : Ring α) : Outline :=
  .record "RingBuffer" ["buf", "head", "len", "can_unread"]
    [.list (r.slots.map item), .ofNat r.head, .ofNat r.count, .ofBool r.canUnread] true

/-- The outline of a stage over a ring. -/
def Ring.stageOutline {α : Type} (item : α → Outline) (r : Ring α) : Outline :=
  .record "RingFilter" ["ring"] [r.outline item] false

end Carousel
