import Carousel.Outcome
import Carousel.Peer
import Carousel.Ring.Write

/-! # Committing run by run

`Ring.writeLaps` appends items so that every one of them is stored for a moment: it cuts the
input at the end of storage and commits one run after the other. After each commit an observer is
shown the ring and the run, read back from the slots; if it fails, the rest of the input is left
out, and the runs shown so far, the failing one among them, stay committed.

A plain ring is watched by `Observer.silent`, a stage by its filter (`Filter.observer`).
-/

namespace Carousel

variable {σ α : Type}

/-- Answer of an observer. -/
structure Verdict (σ : Type) where
  state : σ
  trace : Trace
  answer : Except Failure Unit

/-- What is shown each committed run: the ring that holds it, and the run. -/
abbrev Observer (σ α : Type) := σ → Ring α → List α → Verdict σ

/-- The observer that lets everything pass. -/
def Observer.silent : Observer σ α := fun state _ _ => ⟨state, [], .ok ()⟩

/-- Shows each run to a filter and reports it; a rejected run is reported once more. -/
def Filter.observer (filter : Filter σ α) : Observer σ α := fun state _ run =>
  let review := filter state run
  let shown := Trace.ofOwn [.dispatching run.length] ++ Trace.ofForeign review.events
  match review.answer with
  | .ok () => ⟨review.state, shown, .ok ()⟩
  | .error cause =>
    ⟨review.state, shown ++ Trace.ofOwn [.rejected run.length cause.message],
      .error (.rejected cause)⟩

namespace Ring

/-- Appends the items run by run, each run reaching at most to the last slot. -/
def writeLaps (watch : Observer σ α) (state : σ) (r : Ring α) : List α → Outcome σ α Unit
  | [] => ⟨r, state, [], .ok ()⟩
  | item :: items =>
    let room := r.capacity - r.tail
    let run := item :: items.take (room - 1)
    let committed := r.commit run
    let evicted := Trace.ofOwn (r.overflow run.length)
    let verdict := watch state committed (window committed.slots r.tail run.length)
    match verdict.answer with
    | .error failure => ⟨committed, verdict.state, evicted ++ verdict.trace, .error failure⟩
    | .ok () =>
      (writeLaps watch verdict.state committed (items.drop (room - 1))).after
        (evicted ++ verdict.trace)
termination_by items => items.length
decreasing_by simp only [List.length_drop, List.length_cons]; omega

end Ring

end Carousel
