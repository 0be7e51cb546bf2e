import Carousel.Bench.Rack

/-! # Sources, sinks and probes of a bench

What a step lets an object read from, write to, or look for. A step runs in a `Scene`: the
objects that are not at work, the recorder of the object at work, and the state of the source, the
sink or the probe. The filter, the producer, the consumer and the probe of the step all work on
it.
-/

namespace Carousel.Bench

variable {α : Type}

/-- What items come from. -/
inductive Source (α : Type) where
  | list (items : List α)
  | queue (items : List α)
  | object (n : Nat)
  | script (script : ReadScript α)
  /-- A byte stream over a list. -/
  | stream (items : List α)
  /-- A scripted byte stream. -/
  | streamScript (script : ReadScript α)
  /-- An object as a byte stream. -/
  | streamObject (n : Nat)

/-- What items go to. -/
inductive Sink (α : Type) where
  | list (got : List α)
  | object (n : Nat)
  | script (script : WriteScript α)
  /-- A byte stream that collects what is written. -/
  | stream (got : List α)
  /-- A scripted byte stream. -/
  | streamScript (script : WriteScript α)
  /-- An object as a byte stream. -/
  | streamObject (n : Nat)

/-- What a probe picks: an item equal to one, one that is at least another, or the item of a
certain call. It counts its calls. -/
structure Search (α : Type) where
  equal : Option α
  least : Option α
  call : Option Nat
  calls : Nat

/-- State of a step. -/
structure Scene (α : Type) where
  rack : Rack α
  recorder : Option (Recorder α)
  source : Source α
  sink : Sink α
  search : Search α

/-- A scene with nothing to read from, write to or look for. -/
def Scene.bare (rack : Rack α) : Scene α :=
  ⟨rack, none, .list [], .list [], ⟨none, none, none, 0⟩⟩

/-! ### The peers of a scene -/

/-- Lets a producer work on the ring of an object. -/
def Rack.readWith (produce : Producer (Ring α) α) (rack : Rack α) (n : Nat) (buffer : List α) :
    Delivery Failure (Rack α) α :=
  match rack.checkOut n with
  | none => ⟨rack.fault, [], .error .endOfData⟩
  | some (object, rack) =>
    (produce object.ring buffer).map fun ring => rack.checkIn n { object with ring := ring }

/-- Lets a consumer work on the ring of an object. -/
def Rack.writeWith (consumer : Consumer (Ring α) α) (rack : Rack α) (n : Nat) (run : List α) :
    Receipt Failure (Rack α) :=
  match rack.checkOut n with
  | none => ⟨rack.fault, [], .error .endOfData⟩
  | some (object, rack) =>
    (consumer object.ring run).map fun ring => rack.checkIn n { object with ring := ring }

namespace Scene

/-- The producer that the source of a scene stands for. -/
def produce : Producer (Scene α) α := fun scene buffer =>
  let put (source : Source α) : Scene α := { scene with source := source }
  match scene.source with
  | .list items => (Producer.ofList items buffer).map fun left => put (.list left)
  | .queue items => (Producer.ofQueue items buffer).map fun left => put (.queue left)
  | .object n =>
    (scene.rack.readWith Ring.read n buffer).map fun rack => { scene with rack := rack }
  | .script script => (ReadScript.produce script buffer).map fun script => put (.script script)
  | .stream items => (Reader.ofList.producer items buffer).map fun left => put (.stream left)
  | .streamScript script =>
    (ReadScript.reader.producer script buffer).map fun script => put (.streamScript script)
  | .streamObject n =>
    (scene.rack.readWith Ring.reader.producer n buffer).map fun rack =>
      { scene with rack := rack }

/-- The consumer that the sink of a scene stands for. -/
def consume [BEq α] : Consumer (Scene α) α := fun scene run =>
  let put (sink : Sink α) : Scene α := { scene with sink := sink }
  match scene.sink with
  | .list got => (Consumer.collect got run).map fun got => put (.list got)
  | .object n =>
    (scene.rack.write (scene.rack.objects.length + 1) n run).map fun rack =>
      { scene with rack := rack }
  | .script script => (WriteScript.consume script run).map fun script => put (.script script)
  | .stream got => (Writer.collect.consumer got run).map fun got => put (.stream got)
  | .streamScript script =>
    (WriteScript.writer.consumer script run).map fun script => put (.streamScript script)
  | .streamObject n =>
    (scene.rack.writeWith Ring.writer.consumer n run).map fun rack =>
      { scene with rack := rack }

/-- The filter of the object at work. -/
def filter [BEq α] : Filter (Scene α) α := fun scene run =>
  match scene.recorder with
  | none => ⟨scene, [], .ok ()⟩
  | some recorder =>
    let write (rack : Rack α) := rack.write (rack.objects.length + 1)
    let review := Recorder.filter write (scene.rack, recorder) run
    ⟨{ scene with rack := review.state.1, recorder := some review.state.2 }, review.events,
      review.answer⟩

/-- Asks the probe of a scene about an item. -/
def probe [Item α] (scene : Scene α) (item : α) : Scene α × Bool :=
  let search := { scene.search with calls := scene.search.calls + 1 }
  ({ scene with search := search },
    search.equal.any (· == item) || search.least.any (atLeast item) ||
      search.call == some search.calls)

end Scene

end Carousel.Bench
