import Carousel.Event
import Carousel.Failure
import Carousel.Ring.Basic

/-! # Outcomes

What is left of an operation that runs foreign code: the ring, the state `σ` of the foreign code,
the reports in order, and the answer. The ring is there after a failure too.
-/

namespace Carousel

/-- End of an operation that answers with a `β`. -/
structure Outcome (σ α β : Type) where
  ring : Ring α
  state : σ
  trace : Trace
  answer : Except Failure β

namespace Outcome

variable {σ α β : Type}

/-- The same end, with reports that were made before. -/
def after (earlier : Trace) (o : Outcome σ α β) : Outcome σ α β :=
  { o with trace := earlier ++ o.trace }

@[simp] theorem ring_after (t : Trace) (o : Outcome σ α β) : (o.after t).ring = o.ring := rfl

@[simp] theorem state_after (t : Trace) (o : Outcome σ α β) : (o.after t).state = o.state := rfl

@[simp] theorem trace_after (t : Trace) (o : Outcome σ α β) :
    (o.after t).trace = t ++ o.trace := rfl

@[simp] theorem answer_after (t : Trace) (o : Outcome σ α β) :
    (o.after t).answer = o.answer := rfl

end Outcome

end Carousel
