import Carousel.Bench.Item
import Carousel.Bench.Script
import Carousel.Command
import Carousel.Ring.Outline

/-! # The objects of a bench

A bench has numbered objects: plain rings, stages that accept every run, and stages with a filter
that is given by a description (`Rule`) and records the runs it is shown (`Recorder`). A filter
may write what it is shown into another object, whose filter may do the same.

While an object is at work its place is empty, so that it cannot be reached a second time. A
`Rack` in which something reached for an object that is not there is `broken`.
-/

namespace Carousel.Bench

variable {α : Type}

/-! ### Filters by description -/

/-- What a filter makes of a run before it writes it on. -/
inductive Mapping where
  | same
  | reversed
  | doubled
  | firstOnly
  | nothing
deriving DecidableEq, Repr

def Mapping.apply (m : Mapping) (run : List α) : List α :=
  match m with
  | same => run
  | reversed => run.reverse
  | doubled => run.flatMap fun item => [item, item]
  | firstOnly => run.take 1
  | nothing => []

/-- Description of a filter: what it rejects, with which cause, and where it writes the rest. -/
structure Rule (α : Type) where
  /-- Number of the call to reject, counted from 1. -/
  rejectCall : Option Nat
  /-- Item that makes a run be rejected. -/
  rejectItem : Option α
  /-- Length from which a run is rejected. -/
  rejectLength : Option Nat
  cause : Cause
  /-- Object to write to, and what to write there. -/
  forward : Option Nat
  mapping : Mapping

/-- A filter by description, with the number of its calls and the runs shown to it. -/
structure Recorder (α : Type) where
  rule : Rule α
  calls : Nat
  runs : List (List α)

/-- A filter that has not been called yet. -/
def Recorder.fresh (rule : Rule α) : Recorder α := ⟨rule, 0, []⟩

/-- The recorder once it is shown a run. -/
def Recorder.record (rec : Recorder α) (run : List α) : Recorder α :=
  { rec with calls := rec.calls + 1, runs := rec.runs ++ [run] }

/-- Whether a run that has just been recorded is to be rejected. -/
def Recorder.rejects [BEq α] (rec : Recorder α) (run : List α) : Bool :=
  rec.rule.rejectCall == some rec.calls ||
    rec.rule.rejectItem.any run.contains ||
    rec.rule.rejectLength.any (· ≤ run.length)

/-! ### Objects -/

/-- What an object is besides a ring. -/
inductive Role (α : Type) where
  | plain
  | accepting
  | filtering (recorder : Recorder α)

/-- An object of a bench. -/
structure Object (α : Type) where
  ring : Ring α
  role : Role α

namespace Object

/-- The runs that a filter recorded. -/
def runs? (o : Object α) : Option (List (List α)) :=
  match o.role with
  | .filtering recorder => some recorder.runs
  | _ => none

/-- The object with no recorded runs. -/
def startStep (o : Object α) : Object α :=
  match o.role with
  | .filtering recorder => { o with role := .filtering { recorder with runs := [] } }
  | _ => o

/-- The outline of an object. -/
def outline [Item α] (o : Object α) : Text.Outline :=
  match o.role with
  | .plain => o.ring.outline Item.outline
  | _ => o.ring.stageOutline Item.outline

end Object

/-- The objects of a bench by number; the place of an object at work is empty. -/
structure Rack (α : Type) where
  objects : List (Option (Object α))
  broken : Bool

namespace Rack

/-- The rack once something has reached for an object that is not there. -/
def fault (rack : Rack α) : Rack α := { rack with broken := true }

/-- Takes an object out of its place. -/
def checkOut (rack : Rack α) (n : Nat) : Option (Object α × Rack α) :=
  match rack.objects[n]? with
  | some (some object) => some (object, { rack with objects := rack.objects.set n none })
  | _ => none

/-- Puts an object into its place. -/
def checkIn (rack : Rack α) (n : Nat) (object : Object α) : Rack α :=
  { rack with objects := rack.objects.set n (some object) }

end Rack

/-! ### Writing to objects -/

/-- The filter that a recorder describes; `write` writes to an object of the rack. -/
def Recorder.filter [BEq α] (write : Rack α → Nat → List α → Receipt Failure (Rack α)) :
    Filter (Rack α × Recorder α) α := fun (rack, rec) run =>
  let rec' := rec.record run
  if rec'.rejects run then ⟨(rack, rec'), [], .error rec'.rule.cause⟩
  else
    match rec'.rule.forward with
    | none => ⟨(rack, rec'), [], .ok ()⟩
    | some n =>
      let receipt := write rack n (rec'.rule.mapping.apply run)
      ⟨(receipt.state, rec'), receipt.events,
        (receipt.answer.map fun _ => ()).mapError .failure⟩

/-- Writes to an object. Each object on the way is at work, so a chain of filters is no longer
than there are objects; `depth` bounds it. -/
def Rack.write [BEq α] (depth : Nat) (rack : Rack α) (n : Nat) (items : List α) :
    Receipt Failure (Rack α) :=
  match depth with
  | 0 => ⟨rack.fault, [], .ok 0⟩
  | depth + 1 =>
    match rack.checkOut n with
    | none => ⟨rack.fault, [], .ok 0⟩
    | some (object, rack) =>
      match object.role with
      | .plain =>
        let receipt := Ring.consumer object.ring items
        ⟨rack.checkIn n { object with ring := receipt.state }, receipt.events, receipt.answer⟩
      | .accepting =>
        let receipt := Stage.consumer Filter.accepting (object.ring, ()) items
        ⟨rack.checkIn n { object with ring := receipt.state.1 }, receipt.events, receipt.answer⟩
      | .filtering recorder =>
        let receipt := Stage.consumer (Recorder.filter (Rack.write depth))
          (object.ring, (rack, recorder)) items
        let (ring, (rack, recorder)) := receipt.state
        ⟨rack.checkIn n ⟨ring, .filtering recorder⟩, receipt.events, receipt.answer⟩

end Carousel.Bench
