import Carousel.Stage
import Carousel.Text.Outline

/-! # Configuration

The one thing to configure is the capacity. A capacity of zero, and a signed request that is not
positive, stand for the default.
-/

namespace Carousel

/-- Configuration of a ring or a stage. -/
structure Config where
  capacity : UInt64
deriving DecidableEq, Repr

namespace Config

instance : Inhabited Config := ⟨⟨defaultCapacity.toUInt64⟩⟩

/-- The configuration for a signed request. -/
def ofSigned (requested : Int64) : Config :=
  ⟨(Carousel.effectiveCapacity requested.toInt.toNat).toUInt64⟩

/-- The capacity of what is built. -/
def effectiveCapacity (c : Config) : Nat := Carousel.effectiveCapacity c.capacity.toNat

def build {α : Type} [Inhabited α] (c : Config) : Ring α := Ring.create c.effectiveCapacity

def buildStage {σ α : Type} [Inhabited α] (c : Config) (filter : Filter σ α) : Stage σ α :=
  Stage.create c.effectiveCapacity filter

/-- The JSON text of a configuration. -/
def toJson (c : Config) : String := "\x7b\"capacity\":" ++ toString c.capacity.toNat ++ "\x7d"

def outline (c : Config) : Text.Outline :=
  .record "RingConfig" ["capacity"] [.ofNat c.capacity.toNat] true

end Config

end Carousel
