import Carousel.Io.Stream

/-! # Scripted peers

Peers that answer by a script and keep a record of what they were offered.

* `ReadScript`: a producer or reader. Items of a step that did not fit are handed out by the next
  calls before another step is taken.
* `WriteScript`: a consumer or writer. Behind the end of its script it accepts everything.

Each comes as a peer, which fails with a `Failure`, and as a byte stream, which fails with an
`IoError`. A byte stream takes a step whenever it is interrupted, so it is interrupted only as
often as its script is long.
-/

namespace Carousel.Bench

variable {ε α : Type}

/-- The largest count that a peer can report. -/
def maxCount : Nat := UInt64.size - 1

/-! ### Producers -/

/-- What a step of a producer does once it has filled its buffer. -/
inductive ReadAct (α : Type) where
  | fail (cause : Cause)
  /-- Reports so many items more than were offered. -/
  | over (n : Nat)
  /-- Reports a number of items and stores none. -/
  | count (n : Nat)
  | items (as : List α)

/-- A step of a scripted producer. -/
inductive ReadStep (α : Type) where
  /-- Reports nothing for `n` calls. -/
  | zeros (n : Nat)
  /-- Fills the whole buffer with an item, if one is given, and acts. -/
  | call (fill : Option α) (act : ReadAct α)

/-- A scripted producer: the steps left, the items left over from earlier steps, and the sizes
of the buffers it was offered. -/
structure ReadScript (α : Type) where
  steps : List (ReadStep α)
  pending : List α
  offers : List Nat

namespace ReadScript

/-- Hands out items as far as they fit; the rest is left over. -/
def handOut (script : ReadScript α) (items fill : List α) (size : Nat) :
    Delivery ε (ReadScript α) α :=
  let n := min size items.length
  ⟨{ script with pending := items.drop n }, items.take n ++ fill.drop n, .ok n⟩

/-- Takes a step. -/
def takeStep (atEnd : Except ε Nat) (fail : Cause → ε) (script : ReadScript α) (size : Nat) :
    List (ReadStep α) → Delivery ε (ReadScript α) α
  | [] => ⟨{ script with steps := [] }, [], atEnd⟩
  | .zeros 0 :: steps => takeStep atEnd fail script size steps
  | .zeros (n + 1) :: steps => ⟨{ script with steps := .zeros n :: steps }, [], .ok 0⟩
  | .call fill act :: steps =>
    let filled := (fill.map (List.replicate size)).getD []
    let script := { script with steps := steps }
    match act with
    | .fail cause => ⟨script, filled, .error (fail cause)⟩
    | .over n => ⟨script, filled, .ok (min maxCount (size + n))⟩
    | .count n => ⟨script, filled, .ok n⟩
    | .items items => script.handOut items filled size

/-- One call, given the answer behind the end of the script. -/
def call (atEnd : Except ε Nat) (fail : Cause → ε) (script : ReadScript α) (buffer : List α) :
    Delivery ε (ReadScript α) α :=
  let script := { script with offers := script.offers ++ [buffer.length] }
  if script.pending.isEmpty then takeStep atEnd fail script buffer.length script.steps
  else script.handOut script.pending [] buffer.length

/-- A scripted producer; behind its script the data ends. -/
def produce : Producer (ReadScript α) α := call (.error .endOfData) Cause.toFailure

theorem length_takeStep_lt {fail : Cause → ε} {n size : Nat} {script : ReadScript α}
    {steps : List (ReadStep α)} {error : ε}
    (h : (takeStep (.ok n) fail script size steps).answer = .error error) :
    (takeStep (.ok n) fail script size steps).state.steps.length < steps.length := by
  induction steps with
  | nil => simp [takeStep] at h
  | cons step steps ih =>
    match step with
    | .zeros 0 =>
      simp only [takeStep] at h ⊢
      exact Nat.lt_succ_of_lt (ih h)
    | .zeros (n + 1) => simp [takeStep] at h
    | .call fill act => cases act <;> simp [takeStep, handOut] at h ⊢

/-- A scripted byte stream; behind its script it reads as nothing. -/
def reader : Reader (ReadScript α) α where
  read := call (.ok 0) Cause.toIo
  patience script := script.steps.length
  patience_lt script buffer error h _ := by
    unfold call at h ⊢
    by_cases hp : script.pending.isEmpty = true
    · simp only [hp, if_true] at h ⊢
      exact length_takeStep_lt h
    · simp [hp, handOut] at h

end ReadScript

/-! ### Consumers -/

/-- A step of a scripted consumer. -/
inductive WriteStep where
  | fail (cause : Cause)
  /-- Reports so many items more than were offered. -/
  | over (n : Nat)
  /-- Accepts so many items, or all if fewer are offered. -/
  | accept (n : Nat)

/-- A scripted consumer: the steps left, the runs it was offered, and the items it accepted. -/
structure WriteScript (α : Type) where
  steps : List WriteStep
  offered : List (List α)
  got : List α

namespace WriteScript

/-- One call. -/
def call (fail : Cause → ε) (script : WriteScript α) (run : List α) :
    Receipt ε (WriteScript α) :=
  let script := { script with offered := script.offered ++ [run] }
  match script.steps with
  | [] => ⟨{ script with got := script.got ++ run }, [], .ok run.length⟩
  | step :: steps =>
    let script := { script with steps := steps }
    match step with
    | .fail cause => ⟨script, [], .error (fail cause)⟩
    | .over n => ⟨script, [], .ok (min maxCount (run.length + n))⟩
    | .accept n =>
      ⟨{ script with got := script.got ++ run.take n }, [], .ok (min n run.length)⟩

/-- A scripted consumer. -/
def consume : Consumer (WriteScript α) α := call Cause.toFailure

/-- A scripted byte stream to write to. -/
def writer : Writer (WriteScript α) α where
  write := call Cause.toIo
  patience script := script.steps.length
  patience_lt script run error h _ := by
    unfold call at h ⊢
    match hs : script.steps with
    | [] => simp [hs] at h
    | .fail cause :: steps => simp
    | .over n :: steps => simp [hs] at h
    | .accept n :: steps => simp [hs] at h

end WriteScript

end Carousel.Bench
