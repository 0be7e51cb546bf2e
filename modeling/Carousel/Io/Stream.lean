import Carousel.Peer

/-! # Byte streams as peers

A `Reader` is read by offering it a buffer, a `Writer` is written to by offering it a run. Both
fail with an `IoError`; an error of kind `interrupted` asks for another attempt, and `patience`
bounds how many such answers can follow each other.

`Reader.producer` and `Writer.consumer` make peers of them: interrupted attempts are repeated with
the same buffer or run, an answer of nothing to a buffer that is not empty is the end of the
data, and any other error is passed on as it is. Items may be of any type; streams of bytes are
the case in use.
-/

namespace Carousel

variable {σ τ α : Type}

/-- A stream to read from. -/
structure Reader (σ α : Type) where
  read : σ → List α → Delivery IoError σ α
  patience : σ → Nat
  patience_lt : ∀ state buffer error, (read state buffer).answer = .error error →
    error.isInterrupted = true → patience (read state buffer).state < patience state

/-- A stream to write to. -/
structure Writer (σ α : Type) where
  write : σ → List α → Receipt IoError σ
  patience : σ → Nat
  patience_lt : ∀ state run error, (write state run).answer = .error error →
    error.isInterrupted = true → patience (write state run).state < patience state

namespace Reader

/-- Reads into a buffer that is not empty until an attempt is not interrupted. -/
def attempt (reader : Reader σ α) (state : σ) (buffer : List α) : Delivery Failure σ α :=
  let d := reader.read state buffer
  match _h : d.answer with
  | .ok 0 => ⟨d.state, d.stored, .error .endOfData⟩
  | .ok (n + 1) => ⟨d.state, d.stored, .ok (n + 1)⟩
  | .error error =>
    if _hi : error.isInterrupted then
      let touched := d.buffer buffer
      let later := attempt reader d.state touched
      ⟨later.state, later.buffer touched, later.answer⟩
    else ⟨d.state, d.stored, .error (.io error)⟩
termination_by reader.patience state
decreasing_by exact reader.patience_lt state buffer error _h _hi

/-- A reader as a producer. -/
def producer (reader : Reader σ α) : Producer σ α := fun state buffer =>
  if buffer.isEmpty then ⟨state, [], .ok 0⟩ else reader.attempt state buffer

/-- Reads the items of a list; at its end it answers nothing. -/
def ofList : Reader (List α) α where
  read items buffer :=
    let n := min buffer.length items.length
    ⟨items.drop n, items.take n, .ok n⟩
  patience _ := 0
  patience_lt _ _ _ h := by simp at h

end Reader

namespace Writer

/-- Writes a run until an attempt is not interrupted. -/
def attempt (writer : Writer σ α) (state : σ) (run : List α) : Receipt Failure σ :=
  let receipt := writer.write state run
  match _h : receipt.answer with
  | .ok n => ⟨receipt.state, receipt.events, .ok n⟩
  | .error error =>
    if _hi : error.isInterrupted then
      let later := attempt writer receipt.state run
      ⟨later.state, receipt.events ++ later.events, later.answer⟩
    else ⟨receipt.state, receipt.events, .error (.io error)⟩
termination_by writer.patience state
decreasing_by exact writer.patience_lt state run error _h _hi

/-- A writer as a consumer. -/
def consumer (writer : Writer σ α) : Consumer σ α := writer.attempt

/-- Appends every run to a list. -/
def collect : Writer (List α) α where
  write got run := ⟨got ++ run, [], .ok run.length⟩
  patience _ := 0
  patience_lt _ _ _ h := by simp at h

end Writer

end Carousel
