import Carousel.Ring.Seek
import Carousel.Transfer.Pull
import Carousel.Transfer.Push

/-! # Stages

A stage is a ring that shows every run it commits to a filter before the next one is stored.
Whatever is written to it or pulled by it passes the filter once and in order; reading from a
stage is reading from its ring.
-/

namespace Carousel

variable {σ α : Type}

/-- A ring with a filter, whose state is of type `σ`. -/
structure Stage (σ α : Type) where
  ring : Ring α
  filter : Filter σ α

namespace Stage

/-- A stage over an empty ring. -/
def create [Inhabited α] (requested : Nat) (filter : Filter σ α) : Stage σ α :=
  ⟨Ring.create requested, filter⟩

/-- Appends items run by run, each shown to the filter; the answer is their number. -/
def write (s : Stage σ α) (state : σ) (items : List α) : Outcome σ α Nat :=
  let o := s.ring.writeLaps s.filter.observer state items
  ⟨o.ring, o.state, o.trace, o.answer.map fun _ => items.length⟩

/-- Appends one item and shows it to the filter. -/
def writeItem (s : Stage σ α) (state : σ) (item : α) : Outcome σ α Unit :=
  s.ring.writeLaps s.filter.observer state [item]

/-- Pulls from a producer and shows every committed run to the filter. The producer may use the
filter's state. -/
def readFrom [Inhabited α] (s : Stage σ α) (produce : Producer σ α) (limit : Nat) (state : σ) :
    Option (Outcome σ α Nat) :=
  s.ring.pull produce s.filter.observer limit state

/-- Moves as many unread items as there are and as fit over the front of `buffer`, which makes a
stage a producer. -/
def read (s : Stage σ α) (buffer : List α) : Delivery Failure (Stage σ α) α :=
  (s.ring.read buffer).map fun ring => { s with ring := ring }

/-- A stage with a given filter as a consumer: its state is the ring and the filter's state. -/
def consumer (filter : Filter σ α) : Consumer (Ring α × σ) α := fun (r, state) run =>
  let o := (Stage.mk r filter).write state run
  ⟨(o.ring, o.state), o.trace.events, o.answer⟩

end Stage

end Carousel
