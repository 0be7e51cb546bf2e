import Carousel.Bench.Scene
import Carousel.Config

/-! # Steps of a bench

A bench is set up from a list of `Setup`s and then takes `Step`s one after the other
(`Bench.run`). Each step gives a `Moment`: a report with the answer and what was observed beside
it, the reports of the rings, and all objects as the step leaves them. A run has no result if a
step reaches for an object that is not there or pulls for ever.
-/

namespace Carousel.Bench

variable {α : Type}

/-- How an object is made. -/
inductive Setup (α : Type) where
  | ring (capacity : Nat)
  | usual
  | configured (config : Config)
  | accepting (capacity : Nat)
  | filtering (capacity : Nat) (rule : Rule α)
  | configuredFiltering (config : Config) (rule : Rule α)

/-- Makes an object. -/
def Setup.object [Inhabited α] : Setup α → Object α
  | ring capacity => ⟨Ring.create capacity, .plain⟩
  | usual => ⟨default, .plain⟩
  | configured config => ⟨config.build, .plain⟩
  | accepting capacity => ⟨Ring.create capacity, .accepting⟩
  | filtering capacity rule => ⟨Ring.create capacity, .filtering (.fresh rule)⟩
  | configuredFiltering config rule => ⟨config.build, .filtering (.fresh rule)⟩

/-- One step. All but the last two kinds name the object they are about. -/
inductive Step (α : Type) where
  | observe
  | perform (n : Nat) (command : Command (Scene α) α)
  | performIo (n : Nat) (command : IoCommand α)
  | readItems (n : Nat) (search : Search α)
  | readFrom (n : Nat) (source : Source α)
  | writeTo (n : Nat) (sink : Sink α)
  | clone (n : Nat)
  | outline (n : Nat) (pretty : Bool)
  | setFilter (n : Nat) (rule : Rule α)
  | intoRing (n : Nat)
  /-- Calls a producer with buffers of given sizes, filled with an item. -/
  | pull (source : Source α) (sizes : List Nat) (fill : α)
  /-- Calls a consumer with given runs. -/
  | push (sink : Sink α) (runs : List (List α))

/-- Something observed beside the answer of a step. -/
inductive Remark (α : Type) where
  | destination (items : List α)
  | destinationText (s : String)
  | probes (calls : Nat)
  | offers (sizes : List Nat)
  | left (items : List α)
  | position (n : Nat)
  | offered (runs : List (List α))
  | got (items : List α)

/-- Answer of a step. -/
inductive Answer (α : Type) where
  | single (answer : Except Cause (Value α))
  /-- The answers of a producer, with the buffers after each call. -/
  | pulled (calls : List (Except Failure Nat × List α))
  /-- The answers of a consumer. -/
  | pushed (calls : List (Except Failure Nat))

/-- A step and what came of it. -/
structure Moment (α : Type) where
  answer : Answer α
  remarks : List (Remark α)
  events : List Event
  objects : List (Object α)

/-! ### Remarks -/

/-- What is observed of a source, given what it was at first. -/
def Source.remarks (first last : Source α) : List (Remark α) :=
  match first, last with
  | _, .list items => [.left items]
  | _, .queue items => [.left items]
  | _, .object _ => []
  | _, .script s => [.offers s.offers]
  | .stream items, .stream left => [.position (items.length - left.length)]
  | _, .stream _ => []
  | _, .streamScript s => [.offers s.offers]
  | _, .streamObject _ => []

/-- What is observed of a sink. -/
def Sink.remarks : Sink α → List (Remark α)
  | .list got => [.got got]
  | .object _ => []
  | .script s => [.offered s.offered, .got s.got]
  | .stream got => [.got got]
  | .streamScript s => [.offered s.offered, .got s.got]
  | .streamObject _ => []

/-- What is observed at a destination. -/
def destinationRemarks : Destination α → List (Remark α)
  | .nothing => []
  | .buffer items => [.destination items]
  | .text s => [.destinationText s]

/-! ### Objects at work -/

/-- Number of calls after which a pull is taken to go on for ever. -/
def callLimit : Nat := 1000000000000

/-- Carries a command out on an object, in a scene without it. -/
def Object.perform [Item α] (o : Object α) (command : Command (Scene α) α) (scene : Scene α) :
    Option (Result (Scene α) α) :=
  match o.role with
  | .plain => o.ring.perform command scene
  | .accepting => (Stage.mk o.ring Filter.accepting).perform command scene
  | .filtering recorder =>
    (Stage.mk o.ring Scene.filter).perform command { scene with recorder := some recorder }

/-- The object after a command, its recorder taken from the scene. -/
def Object.after (o : Object α) (result : Result (Scene α) α) : Object α :=
  match o.role, result.state.recorder with
  | .filtering _, some recorder => ⟨result.ring, .filtering recorder⟩
  | role, _ => ⟨result.ring, role⟩

/-- What a step gives: an answer, remarks, reports, and the rack after it. -/
structure Effect (α : Type) where
  answer : Answer α
  remarks : List (Remark α)
  events : List Event
  rack : Rack α

/-- An effect without remarks or reports. -/
def Effect.plain (value : Value α) (rack : Rack α) : Effect α :=
  ⟨.single (.ok value), [], [], rack⟩

/-- Carries a command out on an object by number. -/
def Rack.perform [Item α] (rack : Rack α) (n : Nat) (command : Command (Scene α) α)
    (setScene : Scene α → Scene α) (remarks : Scene α → List (Remark α)) : Option (Effect α) :=
  match rack.checkOut n with
  | none => none
  | some (object, rack) =>
    (object.perform command (setScene (.bare rack))).map fun result =>
      ⟨.single result.answer, destinationRemarks result.destination ++ remarks result.state,
        result.trace.events, result.state.rack.checkIn n (object.after result)⟩

/-- Carries a command on a byte stream out on an object by number. -/
def Rack.performIo [Item α] (rack : Rack α) (n : Nat) (command : IoCommand α) :
    Option (Effect α) :=
  match rack.checkOut n with
  | none => none
  | some (object, rack) =>
    let result := object.ring.performIo command ()
    some ⟨.single result.answer, destinationRemarks result.destination, result.trace.events,
      rack.checkIn n { object with ring := result.ring }⟩

/-- Changes an object by number. -/
def Rack.change (rack : Rack α) (n : Nat) (f : Object α → Object α) : Option (Effect α) :=
  (rack.checkOut n).map fun (object, rack) => .plain .nothing (rack.checkIn n (f object))

/-! ### Peers on their own -/

/-- Calls the source of a scene once for each size. -/
def pullAll (fill : α) : Scene α → List Nat → Scene α × List (Except Failure Nat × List α)
  | scene, [] => (scene, [])
  | scene, size :: sizes =>
    let buffer := List.replicate size fill
    let d := Scene.produce scene buffer
    let (scene, calls) := pullAll fill d.state sizes
    (scene, (d.answer, d.buffer buffer) :: calls)

/-- Calls the sink of a scene once for each run. -/
def pushAll [BEq α] :
    Scene α → List (List α) → Scene α × List (Except Failure Nat) × List Event
  | scene, [] => (scene, [], [])
  | scene, run :: runs =>
    let receipt := Scene.consume scene run
    let (scene, calls, events) := pushAll receipt.state runs
    (scene, receipt.answer :: calls, receipt.events ++ events)

/-! ### Steps -/

/-- Takes a step. -/
def Rack.step [Item α] (rack : Rack α) : Step α → Option (Effect α)
  | .observe => some (.plain .nothing rack)
  | .perform n command => rack.perform n command id fun _ => []
  | .performIo n command => rack.performIo n command
  | .readItems n search =>
    rack.perform n (.readItems Scene.probe) ({ · with search := search })
      fun scene => [.probes scene.search.calls]
  | .readFrom n source =>
    rack.perform n (.readFrom Scene.produce callLimit) ({ · with source := source })
      fun scene => source.remarks scene.source
  | .writeTo n sink =>
    rack.perform n (.writeTo Scene.consume) ({ · with sink := sink })
      fun scene => scene.sink.remarks
  | .clone n =>
    (rack.checkOut n).map fun (object, _) =>
      .plain (.count rack.objects.length)
        { rack with objects := rack.objects ++ [some ⟨object.ring, .plain⟩] }
  | .outline n pretty =>
    (rack.checkOut n).map fun (object, _) =>
      .plain (.text (if pretty then object.outline.pretty else object.outline.inline)) rack
  | .setFilter n rule => rack.change n fun object => { object with role := .filtering (.fresh rule) }
  | .intoRing n => rack.change n fun object => { object with role := .plain }
  | .pull source sizes fill =>
    let (scene, calls) := pullAll fill { Scene.bare rack with source := source } sizes
    some ⟨.pulled calls, source.remarks scene.source, [], scene.rack⟩
  | .push sink runs =>
    let (scene, calls, events) := pushAll { Scene.bare rack with sink := sink } runs
    some ⟨.pushed calls, scene.sink.remarks, events, scene.rack⟩

/-- The rack before a step, with no recorded runs. -/
def Rack.startStep (rack : Rack α) : Rack α :=
  { rack with objects := rack.objects.map (·.map Object.startStep) }

/-- Takes the steps one after the other. -/
def Rack.run [Item α] : Rack α → List (Step α) → Option (List (Moment α))
  | _, [] => some []
  | rack, step :: steps =>
    match rack.startStep.step step with
    | none => none
    | some effect =>
      if effect.rack.broken then none
      else
        (Rack.run effect.rack steps).map fun moments =>
          ⟨effect.answer, effect.remarks, effect.events,
            effect.rack.objects.filterMap id⟩ :: moments

/-- Sets a bench up and takes the steps. -/
def run [Item α] (setups : List (Setup α)) (steps : List (Step α)) : Option (List (Moment α)) :=
  Rack.run ⟨setups.map (some ·.object), false⟩ steps

end Carousel.Bench
