import Carousel.Ring.Read
import Carousel.Transfer.Laps

/-! # Pulling from a producer

`Ring.pull` calls a producer until it signals the end of its data, and commits every chunk.

As long as the ring is not full, the producer is offered the free slots from the write cursor up
to the read cursor or the last slot (`Ring.vacancy`) and fills them in place. What it stores there
stays in the slots whatever it answers, but becomes unread only as far as it is accepted. A full
ring has no slot to offer, so the producer fills a staging buffer of the ring's capacity, which is
kept from call to call, and the chunk is then committed run by run.

An answer of more items than were offered fails, and so does the last of `maxEmptyReads` answers
of nothing in a row. A producer that goes on for ever has no outcome: `pull` makes at most `limit`
calls.
-/

namespace Carousel

variable {σ α : Type}

/-- The number of empty answers in a row at which a pull gives up. -/
def maxEmptyReads : Nat := 100

/-- What a producer's answer means for a pull that offered `offered` slots: a number of items
accepted, or `none` at the end of the data. -/
def Delivery.accepted (d : Delivery Failure σ α) (offered : Nat) : Except Failure (Option Nat) :=
  match d.answer with
  | .ok count => if offered < count then .error (.countOutOfRange count offered) else .ok (some count)
  | .error .endOfData => .ok none
  | .error failure => .error failure

namespace Ring

/-- The number of free slots from the write cursor up to the read cursor or the last slot. -/
def vacancy (r : Ring α) : Nat :=
  (if r.tail < r.head then r.head else r.capacity) - r.tail

/-- One call that fills free slots in place. -/
def pullInPlace (produce : Producer σ α) (watch : Observer σ α) (state : σ) (r : Ring α) :
    Outcome σ α (Option Nat) :=
  let offered := window r.slots r.tail r.vacancy
  let d := produce state offered
  let filled := { r with slots := overlay r.slots r.tail (d.buffer offered) }
  match d.accepted r.vacancy with
  | .error failure => ⟨filled, d.state, [], .error failure⟩
  | .ok none => ⟨filled, d.state, [], .ok none⟩
  | .ok (some 0) => ⟨filled, d.state, [], .ok (some 0)⟩
  | .ok (some n) =>
    let committed := (filled.advance n).forget
    let verdict := watch d.state committed (window committed.slots r.tail n)
    ⟨committed, verdict.state, Trace.ofOwn (filled.overflow n) ++ verdict.trace,
      verdict.answer.map fun _ => some n⟩

/-- One call that fills a staging buffer; what is accepted of it is committed run by run. -/
def pullStaged (produce : Producer σ α) (watch : Observer σ α) (state : σ) (r : Ring α)
    (staging : List α) : Outcome σ α (Option Nat) × List α :=
  let d := produce state staging
  let staging' := d.buffer staging
  match d.accepted staging.length with
  | .error failure => (⟨r, d.state, [], .error failure⟩, staging')
  | .ok none => (⟨r, d.state, [], .ok none⟩, staging')
  | .ok (some n) =>
    let o := r.writeLaps watch d.state (staging'.take n)
    (⟨o.ring, o.state, o.trace, o.answer.map fun _ => some n⟩, staging')

/-- One call, whichever kind the ring asks for, and the staging buffer after it. -/
def pullOnce [Inhabited α] (produce : Producer σ α) (watch : Observer σ α) (state : σ) (r : Ring α)
    (staging : List α) : Outcome σ α (Option Nat) × List α :=
  if r.isFull then
    let staging := if staging.isEmpty then List.replicate r.capacity default else staging
    r.pullStaged produce watch state staging
  else (r.pullInPlace produce watch state, staging)

/-- Where a pull stands between two calls: the items committed so far, the number of empty
answers in a row, and the staging buffer, empty until it is needed. -/
structure Progress (α : Type) where
  total : Nat
  idle : Nat
  staging : List α

/-- At most `limit` calls from a given progress on. -/
def pullFrom [Inhabited α] (produce : Producer σ α) (watch : Observer σ α) :
    (limit : Nat) → σ → Ring α → Progress α → Option (Outcome σ α Nat)
  | 0, _, _, _ => none
  | limit + 1, state, r, p =>
    let (o, staging) := r.pullOnce produce watch state p.staging
    match o.answer with
    | .error failure => some ⟨o.ring, o.state, o.trace, .error failure⟩
    | .ok none =>
      some ⟨o.ring, o.state, o.trace ++ Trace.ofOwn [.pullFinished p.total], .ok p.total⟩
    | .ok (some 0) =>
      if maxEmptyReads ≤ p.idle + 1 then
        some ⟨o.ring, o.state, o.trace, .error (.noProgress (p.idle + 1))⟩
      else
        (pullFrom produce watch limit o.state o.ring ⟨p.total, p.idle + 1, staging⟩).map
          (·.after o.trace)
    | .ok (some n) =>
      (pullFrom produce watch limit o.state o.ring ⟨p.total + n, 0, staging⟩).map
        (·.after o.trace)

/-- Pulls from a producer until it signals the end of its data, and shows every committed run to
an observer; the answer is the number of items committed. -/
def pull [Inhabited α] (produce : Producer σ α) (watch : Observer σ α) (limit : Nat) (state : σ)
    (r : Ring α) : Option (Outcome σ α Nat) :=
  r.pullFrom produce watch limit state ⟨0, 0, []⟩

/-- Pulls from a producer until it signals the end of its data. -/
def readFrom [Inhabited α] (produce : Producer σ α) (limit : Nat) (state : σ) (r : Ring α) :
    Option (Outcome σ α Nat) :=
  r.pull produce .silent limit state

end Ring

end Carousel
