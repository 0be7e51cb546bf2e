/-! # Events

What a ring, a stage or a transfer reports while it works.

* `Event`: one report. Two kinds tell that unread items were lost (`overwrote`,
  `replacedAll`), two belong to a stage that shows a run to its filter (`dispatching`,
  `rejected`), three to the end of a transfer (`pullFinished`, `pushEnded`, `pushShort`).
* `Trace`: the reports of one operation in order, each marked as the operation's `own` or as
  `foreign`, made by another ring that a filter or a consumer of the operation uses.
-/

namespace Carousel

/-- Severity of a report. -/
inductive Level where
  | trace
  | debug
  | warn
deriving DecidableEq, Repr

/-- One report. -/
inductive Event where
  /-- A run was stored over the `evicted` oldest unread items. -/
  | overwrote (evicted capacity : Nat)
  /-- An input of at least `capacity` items took the place of all `evicted` unread ones. -/
  | replacedAll (evicted capacity : Nat)
  /-- A committed run of `items` items is about to be shown to the filter. -/
  | dispatching (items : Nat)
  /-- The filter rejected a run of `items` items; `cause` is the text of its error. -/
  | rejected (items : Nat) (cause : String)
  /-- The producer of a pull signalled the end of its data. -/
  | pullFinished (total : Nat)
  /-- The consumer of a push signalled that it takes no more. -/
  | pushEnded (total : Nat)
  /-- The consumer of a push accepted only a part of the run it was offered. -/
  | pushShort (total offered accepted : Nat)
deriving DecidableEq, Repr

namespace Event

def level : Event → Level
  | overwrote .. => .trace
  | replacedAll .. => .trace
  | dispatching _ => .trace
  | rejected .. => .warn
  | pullFinished _ => .debug
  | pushEnded _ => .debug
  | pushShort .. => .debug

def message : Event → String
  | overwrote .. => "ring buffer overwrote unread items"
  | replacedAll .. => "ring buffer replaced all unread items"
  | dispatching _ => "ring filter dispatching committed run"
  | rejected .. => "ring filter rejected run"
  | pullFinished _ => "read_from finished: producer signalled end of data"
  | pushEnded _ => "write_to stopped: consumer signalled end of data"
  | pushShort .. => "write_to stopped on short write"

/-- Value of a named field of a report. -/
inductive Field where
  | number (n : Nat)
  | text (s : String)
deriving DecidableEq, Repr

/-- The named fields of a report. -/
def fields : Event → List (String × Field)
  | overwrote evicted capacity => [("evicted", .number evicted), ("capacity", .number capacity)]
  | replacedAll evicted capacity => [("evicted", .number evicted), ("capacity", .number capacity)]
  | dispatching items => [("items", .number items)]
  | rejected items cause => [("items", .number items), ("error", .text cause)]
  | pullFinished total => [("total", .number total)]
  | pushEnded total => [("total", .number total)]
  | pushShort total offered accepted =>
    [("total", .number total), ("offered", .number offered), ("accepted", .number accepted)]

end Event

/-- A report and whose it is. -/
inductive Entry where
  | own (event : Event)
  | foreign (event : Event)
deriving DecidableEq, Repr

def Entry.event : Entry → Event
  | own event => event
  | foreign event => event

def Entry.own? : Entry → Option Event
  | own event => some event
  | foreign _ => none

/-- The reports of one operation, in order. -/
abbrev Trace := List Entry

namespace Trace

/-- All reports, whoever made them. -/
def events (t : Trace) : List Event := t.map Entry.event

/-- The operation's own reports. -/
def ownEvents (t : Trace) : List Event := t.filterMap Entry.own?

/-- Reports that the operation makes itself. -/
def ofOwn (es : List Event) : Trace := es.map .own

/-- Reports of other rings that the operation passes on. -/
def ofForeign (es : List Event) : Trace := es.map .foreign

end Trace

end Carousel
