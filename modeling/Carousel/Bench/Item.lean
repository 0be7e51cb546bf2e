import Carousel.Text.Outline
import Carousel.Text.Quoted

/-! # Items

The types of items that a bench can work with: machine integers, whose blank is zero, and texts,
whose blank is empty. They are compared by value, texts by their code points.
-/

namespace Carousel.Bench

open Text

/-- A type of items. -/
class Item (α : Type) extends Inhabited α, BEq α, Ord α where
  /-- The text of an item. -/
  outline : α → Outline
  /-- The text that a run of items encodes, where items are bytes. -/
  decode : List α → Option String

instance : Item UInt8 where
  default := 0
  outline n := .ofNat n.toNat
  decode bytes := String.fromUTF8? ⟨bytes.toArray⟩

instance : Item Int8 where
  default := 0
  outline n := .ofInt n.toInt
  decode _ := none

instance : Item UInt16 where
  default := 0
  outline n := .ofNat n.toNat
  decode _ := none

instance : Item Int32 where
  default := 0
  outline n := .ofInt n.toInt
  decode _ := none

instance : Item Int64 where
  default := 0
  outline n := .ofInt n.toInt
  decode _ := none

instance : Item UInt64 where
  default := 0
  outline n := .ofNat n.toNat
  decode _ := none

instance : Item String where
  default := ""
  outline s := .word (quote s)
  decode _ := none

/-- Whether one item is another or comes after it. -/
def atLeast {α : Type} [Item α] (a b : α) : Bool := compare a b != .lt

end Carousel.Bench
