import Carousel.Io.Ring
import Carousel.Stage

/-! # Commands

The operations of rings and stages as data, so that a run of operations is a list. `Ring.perform`
and `Stage.perform` carry a command out, `Ring.run` a list of them; they give no result only for a
pull that has not ended after its limit of calls. `Ring.performIo` carries out what a ring does as
a byte stream.
-/

namespace Carousel

variable {σ α : Type}

/-- An operation of a ring or a stage; foreign code works on a state of type `σ`. -/
inductive Command (σ α : Type) where
  | write (items : List α)
  | writeItem (item : α)
  | read (buffer : List α)
  | readItem
  | value
  | next (n : Nat)
  | unreadItem
  | truncate (n : Nat)
  | reset
  | seek (offset : Int64) (anchor : Anchor)
  | seekCode (offset : Int64) (code : Int)
  | readItems (probe : σ → α → σ × Bool)
  | readFrom (produce : Producer σ α) (limit : Nat)
  | writeTo (consumer : Consumer σ α)

/-- An operation of a ring as a byte stream. -/
inductive IoCommand (α : Type) where
  | read (buffer : List α)
  | readExact (buffer : List α)
  | readToEnd (size : Nat → Nat)
  | readToString (decode : List α → Option String) (size : Nat → Nat)
  | write (items : List α)
  | writeAll (items : List α)
  | flush
  | seek (target : Ring.Target)
  | position
  | rewind

/-- What an operation answers. -/
inductive Value (α : Type) where
  | nothing
  | count (n : Nat)
  | item (a : α)
  | items (as : List α)
  | text (s : String)
deriving DecidableEq, Repr

/-- What an operation leaves at its destination, whether it fails or not. -/
inductive Destination (α : Type) where
  | nothing
  | buffer (items : List α)
  | text (s : String)
deriving DecidableEq, Repr

/-- End of a command. -/
structure Result (σ α : Type) where
  ring : Ring α
  state : σ
  trace : Trace
  answer : Except Cause (Value α)
  destination : Destination α

namespace Result

/-- End of a command that runs no foreign code and makes no reports. -/
def quiet (state : σ) (ring : Ring α) (answer : Except Failure (Value α)) : Result σ α :=
  ⟨ring, state, [], answer.mapError .failure, .nothing⟩

/-- End of a command with an outcome. -/
def ofOutcome {β : Type} (value : β → Value α) (o : Outcome σ α β) : Result σ α :=
  ⟨o.ring, o.state, o.trace, (o.answer.map value).mapError .failure, .nothing⟩

/-- End of a command on a byte stream. -/
def ofIo {β : Type} (state : σ) (value : β → Value α) (ring : Ring α) (answer : Except IoError β) :
    Result σ α :=
  ⟨ring, state, [], (answer.map value).mapError .io, .nothing⟩

end Result

namespace Ring

/-- Carries out a command on a ring. -/
def perform [Inhabited α] (r : Ring α) (command : Command σ α) (state : σ) :
    Option (Result σ α) :=
  match command with
  | .write items =>
    some { Result.quiet state (r.write items) (.ok (.count items.length)) with
      trace := Trace.ofOwn (r.writeEvents items.length) }
  | .writeItem item =>
    some { Result.quiet state (r.writeItem item) (.ok .nothing) with
      trace := Trace.ofOwn r.writeItemEvents }
  | .read buffer =>
    let d := r.read buffer
    some { Result.quiet state d.state (d.answer.map .count) with
      destination := .buffer (d.buffer buffer) }
  | .readItem => some (Result.quiet state r.readItem.1 (r.readItem.2.map .item))
  | .value => some (Result.quiet state r.value.1 (.ok (.items r.value.2)))
  | .next n => some (Result.quiet state (r.next n).1 (.ok (.items (r.next n).2)))
  | .unreadItem =>
    some (Result.quiet state r.unreadItem.1 (r.unreadItem.2.map fun _ => .nothing))
  | .truncate n => some (Result.quiet state (r.truncate n) (.ok .nothing))
  | .reset => some (Result.quiet state r.reset (.ok .nothing))
  | .seek offset anchor =>
    some (Result.quiet state (r.seek offset anchor).1 ((r.seek offset anchor).2.map .count))
  | .seekCode offset code =>
    some (Result.quiet state (r.seekCode offset code).1 ((r.seekCode offset code).2.map .count))
  | .readItems probe => some (Result.ofOutcome .items (r.readItems probe state))
  | .readFrom produce limit => (r.readFrom produce limit state).map (Result.ofOutcome .count)
  | .writeTo consumer => some (Result.ofOutcome .count (r.writeTo consumer state))

/-- Carries out one command after the other, and gives the results in order; there are none if a
pull has not ended after its limit of calls. -/
def run [Inhabited α] (r : Ring α) : List (Command σ α) → σ → Option (List (Result σ α))
  | [], _ => some []
  | command :: commands, state =>
    (r.perform command state).bind fun result =>
      (run result.ring commands result.state).map (result :: ·)

/-- Carries out a command on a ring as a byte stream. -/
def performIo [Inhabited α] (r : Ring α) (command : IoCommand α) (state : σ) : Result σ α :=
  match command with
  | .read buffer =>
    let d := r.ioRead buffer
    { Result.ofIo state .count d.state d.answer with destination := .buffer (d.buffer buffer) }
  | .readExact buffer =>
    let (left, filled, answer) := r.readExact buffer
    { Result.ofIo state (fun _ => .nothing) left answer with destination := .buffer filled }
  | .readToEnd size =>
    let (left, items, answer) := r.readToEnd size 0
    { Result.ofIo state (fun _ => .count items.length) left answer with
      destination := .buffer items }
  | .readToString decode size =>
    let (left, answer) := r.readToString decode size
    { Result.ofIo state (fun (n, _) => .count n) left answer with
      destination := .text (match answer with | .ok (_, s) => s | .error _ => "") }
  | .write items =>
    let receipt := r.ioWrite items
    { Result.ofIo state .count receipt.state receipt.answer with
      trace := Trace.ofOwn receipt.events }
  | .writeAll items =>
    let (after, events, answer) := r.writeAll items
    { Result.ofIo state (fun _ => .nothing) after answer with trace := Trace.ofOwn events }
  | .flush => Result.ofIo state (fun _ => .nothing) r (.ok ())
  | .seek target => Result.ofIo state .count (r.ioSeek target).1 (r.ioSeek target).2
  | .position =>
    Result.ofIo state .count (r.ioSeek (.current 0)).1 (r.ioSeek (.current 0)).2
  | .rewind =>
    Result.ofIo state (fun _ => .nothing) (r.ioSeek (.start 0)).1 (r.ioSeek (.start 0)).2

end Ring

/-- Carries out a command on a stage. -/
def Stage.perform [Inhabited α] (s : Stage σ α) (command : Command σ α) (state : σ) :
    Option (Result σ α) :=
  match command with
  | .write items => some (Result.ofOutcome .count (s.write state items))
  | .writeItem item => some (Result.ofOutcome (fun _ => .nothing) (s.writeItem state item))
  | .readFrom produce limit => (s.readFrom produce limit state).map (Result.ofOutcome .count)
  | command => s.ring.perform command state

end Carousel
