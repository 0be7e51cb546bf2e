import Carousel.Io.Stream
import Carousel.Ring.Read
import Carousel.Ring.Seek
import Carousel.Ring.Write

/-! # A ring as a byte stream

The same ring under the rules of byte streams: an empty ring reads as nothing instead of failing,
failures become `IoError`s, and a position counted from the start is unsigned.

* `Ring.ioRead`, `Ring.ioWrite`, `Ring.ioSeek`: single calls. `Ring.reader` and `Ring.writer` make
  a ring a stream, which is never interrupted.
* `Ring.readExact`, `Ring.readToEnd`, `Ring.readToString`, `Ring.writeAll`: the usual loops over
  single calls.
-/

namespace Carousel

variable {α : Type}

namespace Ring

/-! ### Reading -/

/-- Reads into a buffer; an empty ring reads as nothing. -/
def ioRead (r : Ring α) (buffer : List α) : Delivery IoError (Ring α) α :=
  let d := r.read buffer
  ⟨d.state, d.stored,
    match d.answer with
    | .ok n => .ok n
    | .error .endOfData => .ok 0
    | .error failure => .error failure.toIo⟩

theorem answer_ioRead (r : Ring α) (buffer : List α) :
    (r.ioRead buffer).answer = .ok (min buffer.length r.count) := by
  by_cases hb : buffer = []
  · simp [ioRead, read, hb]
  · by_cases hc : r.count = 0 <;> simp [ioRead, read, hb, hc]

theorem ioRead_ne_error (r : Ring α) (buffer : List α) (error : IoError) :
    (r.ioRead buffer).answer ≠ .error error := by
  rw [answer_ioRead]
  nofun

theorem count_ioRead_lt {r : Ring α} {buffer : List α} {n : Nat}
    (h : (r.ioRead buffer).answer = .ok (n + 1)) : (r.ioRead buffer).state.count < r.count := by
  by_cases hb : buffer.isEmpty = true
  · simp [ioRead, read, hb] at h
  · by_cases hc : r.count = 0
    · simp [ioRead, read, hb, hc] at h
    · simp only [ioRead, read, hb, hc, if_false, consume, Except.ok.injEq, Bool.false_eq_true] at h ⊢
      omega

/-- A ring as a stream to read from. -/
def reader : Reader (Ring α) α where
  read := ioRead
  patience _ := 0
  patience_lt r buffer error h := absurd h (ioRead_ne_error r buffer error)

/-- Fills a buffer by single reads; fails at the first that gives nothing, and what was read
before stays in the buffer. -/
def readExact (r : Ring α) (buffer : List α) : Ring α × List α × Except IoError Unit :=
  if buffer.isEmpty then (r, [], .ok ())
  else
    let d := r.ioRead buffer
    let filled := d.buffer buffer
    match d.answer with
    | .error error => (d.state, filled, .error error)
    | .ok 0 => (d.state, filled, .error (.note .unexpectedEof "failed to fill whole buffer"))
    | .ok (n + 1) =>
      let (left, rest, answer) := readExact d.state (filled.drop (n + 1))
      (left, filled.take (n + 1) ++ rest, answer)
termination_by buffer.length
decreasing_by
  simp only [List.length_drop, Delivery.buffer, length_cover]
  cases buffer
  · contradiction
  · simp only [List.length_cons]; omega

/-- Reads until a read gives nothing, the `k`-th time into a buffer of `size k + 1` slots. -/
def readToEnd [Inhabited α] (size : Nat → Nat) (r : Ring α) (k : Nat) :
    Ring α × List α × Except IoError Unit :=
  let buffer := List.replicate (size k + 1) default
  let d := r.ioRead buffer
  match _h : d.answer with
  | .error error => (d.state, [], .error error)
  | .ok 0 => (d.state, [], .ok ())
  | .ok (n + 1) =>
    let (left, rest, answer) := readToEnd size d.state (k + 1)
    (left, (d.buffer buffer).take (n + 1) ++ rest, answer)
termination_by r.count
decreasing_by exact count_ioRead_lt _h

/-- Reads to the end and decodes what was read; what cannot be decoded is consumed all the same.
The answer is the number of items read and their text. -/
def readToString [Inhabited α] (decode : List α → Option String) (size : Nat → Nat) (r : Ring α) :
    Ring α × Except IoError (Nat × String) :=
  let (left, items, answer) := r.readToEnd size 0
  match answer with
  | .error error => (left, .error error)
  | .ok () =>
    match decode items with
    | some text => (left, .ok (items.length, text))
    | none => (left, .error (.note .invalidData "stream did not contain valid UTF-8"))

/-! ### Writing -/

/-- Writes a run, which a ring takes in full. -/
def ioWrite (r : Ring α) (run : List α) : Receipt IoError (Ring α) :=
  ⟨r.write run, r.writeEvents run.length, .ok run.length⟩

/-- A ring as a stream to write to. -/
def writer : Writer (Ring α) α where
  write := ioWrite
  patience _ := 0
  patience_lt r run error h := by simp [ioWrite] at h

/-- Writes all items by single writes. -/
def writeAll (r : Ring α) (items : List α) : Ring α × List Event × Except IoError Unit :=
  if items.isEmpty then (r, [], .ok ())
  else
    let receipt := r.ioWrite items
    match receipt.answer with
    | .error error => (receipt.state, receipt.events, .error error)
    | .ok 0 =>
      (receipt.state, receipt.events, .error (.note .writeZero "failed to write whole buffer"))
    | .ok (n + 1) =>
      let (after, events, answer) := writeAll receipt.state (items.drop (n + 1))
      (after, receipt.events ++ events, answer)
termination_by items.length
decreasing_by
  cases items
  · contradiction
  · simp only [List.length_drop, List.length_cons]; omega

/-! ### Seeking -/

/-- Target of a seek in a byte stream. -/
inductive Target where
  | start (position : UInt64)
  | current (offset : Int64)
  | finish (offset : Int64)
deriving DecidableEq, Repr

/-- Moves the read cursor; a position from the start has to be a signed 64-bit number. -/
def ioSeek (r : Ring α) (target : Target) : Ring α × Except IoError Nat :=
  match target with
  | .start position =>
    if position.toNat ≤ Int64.maxValue.toInt then
      let (moved, answer) := r.seek (Int64.ofNat position.toNat) .start
      (moved, answer.mapError Failure.toIo)
    else (r, .error (.custom .invalidInput (.text "seek offset exceeds i64::MAX")))
  | .current offset =>
    let (moved, answer) := r.seek offset .reader
    (moved, answer.mapError Failure.toIo)
  | .finish offset =>
    let (moved, answer) := r.seek offset .writer
    (moved, answer.mapError Failure.toIo)

end Ring

end Carousel
