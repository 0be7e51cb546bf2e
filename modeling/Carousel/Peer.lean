import Carousel.Event
import Carousel.Failure
import Carousel.Slots

/-! # Peers

The foreign parties of a ring: producers it pulls from, consumers it pushes to, filters that a
stage shows its runs to. Each is a function on a state of its own type `σ`, so any state machine
is one: it may answer anything, in any order, whatever it did before.

* A producer is offered a buffer. It may store items over the buffer's front (`Delivery.stored`)
  and answers a count or a failure; the count is not tied to what it stored.
* A consumer is offered a run and answers how many of its items it accepts, or a failure.
* A filter is shown a run and accepts it or gives a cause for rejecting it.
-/

namespace Carousel

/-- Answer of one call of a producer with state `σ` that may fail with `ε`. -/
structure Delivery (ε σ α : Type) where
  state : σ
  /-- What was laid over the front of the offered buffer. -/
  stored : List α
  answer : Except ε Nat

namespace Delivery

variable {ε σ τ α : Type}

/-- The offered buffer as the call leaves it. -/
def buffer (d : Delivery ε σ α) (offered : List α) : List α := cover offered d.stored

/-- The same delivery, its producer's state seen as part of another. -/
def map (f : σ → τ) (d : Delivery ε σ α) : Delivery ε τ α := ⟨f d.state, d.stored, d.answer⟩

end Delivery

/-- A producer of items: what it does with the buffer it is offered. -/
abbrev Producer (σ α : Type) := σ → List α → Delivery Failure σ α

/-- Answer of one call of a consumer, and the reports of the rings it uses. -/
structure Receipt (ε σ : Type) where
  state : σ
  events : List Event
  answer : Except ε Nat

/-- The same receipt, its consumer's state seen as part of another. -/
def Receipt.map {ε σ τ : Type} (f : σ → τ) (r : Receipt ε σ) : Receipt ε τ :=
  ⟨f r.state, r.events, r.answer⟩

/-- A consumer of items: what it does with the run it is offered. -/
abbrev Consumer (σ α : Type) := σ → List α → Receipt Failure σ

/-- Answer of one call of a filter, and the reports of the rings it uses. -/
structure Review (σ : Type) where
  state : σ
  events : List Event
  answer : Except Cause Unit

/-- A filter of items: what it does with a run that has just been committed. -/
abbrev Filter (σ α : Type) := σ → List α → Review σ

/-- The filter that accepts every run. -/
def Filter.accepting {σ α : Type} : Filter σ α := fun state _ => ⟨state, [], .ok ()⟩

/-! ### Peers that share a state

A peer that works on a part of a larger state, given how the part is taken out and put back. -/

section Focus

variable {σ τ α : Type} (get : τ → σ) (put : τ → σ → τ)

def Producer.focus (produce : Producer σ α) : Producer τ α := fun whole buffer =>
  (produce (get whole) buffer).map (put whole)

def Consumer.focus (consumer : Consumer σ α) : Consumer τ α := fun whole run =>
  (consumer (get whole) run).map (put whole)

def Filter.focus (filter : Filter σ α) : Filter τ α := fun whole run =>
  let review := filter (get whole) run
  ⟨put whole review.state, review.events, review.answer⟩

end Focus

/-! ### Lists as peers -/

namespace Producer

variable {α : Type}

/-- Hands out the items of a list by cutting off as many as the buffer holds. -/
def ofList : Producer (List α) α := fun items buffer =>
  if buffer.isEmpty then ⟨items, [], .ok 0⟩
  else if items.isEmpty then ⟨items, [], .error .endOfData⟩
  else
    let n := min buffer.length items.length
    ⟨items.drop n, items.take n, .ok n⟩

/-- Moves items from the front of a queue, one for each slot, as long as there are both. -/
def drain : List α → Nat → List α × List α
  | items, 0 => ([], items)
  | [], _ + 1 => ([], [])
  | item :: items, slots + 1 =>
    let (moved, left) := drain items slots
    (item :: moved, left)

/-- Hands out the items of a queue by moving them one by one. -/
def ofQueue : Producer (List α) α := fun queue buffer =>
  if buffer.isEmpty then ⟨queue, [], .ok 0⟩
  else if queue.isEmpty then ⟨queue, [], .error .endOfData⟩
  else
    let (moved, left) := drain queue buffer.length
    ⟨left, moved, .ok (min buffer.length queue.length)⟩

end Producer

/-- Accepts every run in full and appends it to a list. -/
def Consumer.collect {α : Type} : Consumer (List α) α := fun got run =>
  ⟨got ++ run, [], .ok run.length⟩

end Carousel
