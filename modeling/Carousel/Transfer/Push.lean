import Carousel.Ring.Read
import Carousel.Ring.Write

/-! # Pushing to a consumer

`Ring.writeTo` offers the unread items to a consumer, one segment at a time, and consumes what it
accepts. It ends when nothing is left, at the first segment that is not accepted in full, or when
the consumer fails or signals that it takes no more; only a failure, or an answer of more items
than were offered, makes the push fail.
-/

namespace Carousel

variable {σ α : Type}

namespace Ring

theorem count_pos_of_segment {r : Ring α} {item : α} {run : List α}
    (h : r.segments.1 = item :: run) : 0 < r.count := by
  rcases Nat.eq_zero_or_pos r.count with h0 | h0
  · simp [segments, h0] at h
  · exact h0

/-- Offers what is left, `total` items having been accepted before. -/
def pushRest (consumer : Consumer σ α) (state : σ) (r : Ring α) (total : Nat) :
    Outcome σ α Nat :=
  match _h : r.segments.1 with
  | [] => ⟨r, state, [], .ok total⟩
  | item :: items =>
    let run := item :: items
    let receipt := consumer state run
    let reports := Trace.ofForeign receipt.events
    match receipt.answer with
    | .error .endOfData =>
      ⟨r, receipt.state, reports ++ Trace.ofOwn [.pushEnded total], .ok total⟩
    | .error failure => ⟨r, receipt.state, reports, .error failure⟩
    | .ok accepted =>
      if run.length < accepted then
        ⟨r, receipt.state, reports, .error (.countOutOfRange accepted run.length)⟩
      else if accepted < run.length then
        ⟨r.consume accepted, receipt.state,
          reports ++ Trace.ofOwn [.pushShort (total + accepted) run.length accepted],
          .ok (total + accepted)⟩
      else
        (pushRest consumer receipt.state (r.consume accepted) (total + accepted)).after reports
termination_by r.count
decreasing_by
  have := count_pos_of_segment _h
  simp only [consume, run, List.length_cons] at *
  omega

/-- Pushes the unread items to a consumer; the answer is the number of items accepted. -/
def writeTo (consumer : Consumer σ α) (state : σ) (r : Ring α) : Outcome σ α Nat :=
  r.forget.pushRest consumer state 0

/-- A ring takes every run in full. -/
def consumer : Consumer (Ring α) α := fun r run =>
  ⟨r.write run, r.writeEvents run.length, .ok run.length⟩

end Ring

end Carousel
