import Carousel.Slots

/-! # Checked steps

Sums and differences of 64-bit numbers, casts, and access to slots and to ranges of slots, each with
the check that it may fail. An operation that is written with them stops with a `Fault` at the first
step that would not do what it says; that it never does is that it gives `.ok` of what the plain
operation gives. -/

namespace Carousel

/-- What may go wrong in a step. -/
inductive Fault where
  /-- A sum is not a 64-bit number. -/
  | overflow
  /-- A difference is negative. -/
  | underflow
  /-- A remainder is taken by zero. -/
  | zeroDivisor
  /-- A cast changes the number. -/
  | lossyCast
  /-- There is no such slot. -/
  | index
  /-- There is no such range of slots. -/
  | range
  /-- A range is filled with a run of another length. -/
  | lengths
  /-- An assertion does not hold. -/
  | assertion
  /-- A loop takes more turns than it may. -/
  | endless
deriving DecidableEq, Repr

/-- A computation in checked steps. -/
abbrev Checked (β : Type) := Except Fault β

namespace Checked

variable {α β γ : Type}

theorem ok_bind (b : β) (f : β → Checked γ) : ((.ok b : Checked β) >>= f) = f b := rfl

/-! ### Numbers -/

def add (a b : Nat) : Checked Nat :=
  if a + b < UInt64.size then .ok (a + b) else .error .overflow

def sub (a b : Nat) : Checked Nat := if b ≤ a then .ok (a - b) else .error .underflow

def rem (a b : Nat) : Checked Nat := if b = 0 then .error .zeroDivisor else .ok (a % b)

/-- A number as a signed 64-bit number. -/
def toSigned (n : Nat) : Checked Int :=
  if (n : Int) ≤ Int64.maxValue.toInt then .ok n else .error .lossyCast

/-- A signed number as an unsigned 64-bit number. -/
def toUnsigned (z : Int) : Checked Nat :=
  if 0 ≤ z ∧ z.toNat < UInt64.size then .ok z.toNat else .error .lossyCast

/-- A number as an unsigned 64-bit number. -/
def cast (n : Nat) : Checked Nat := if n < UInt64.size then .ok n else .error .lossyCast

def ensure (p : Prop) [Decidable p] : Checked Unit := if p then .ok () else .error .assertion

section

variable {a b n : Nat}

theorem add_ok (h : a + b < UInt64.size) : add a b = .ok (a + b) := if_pos h

theorem sub_ok (h : b ≤ a) : sub a b = .ok (a - b) := if_pos h

theorem rem_ok (h : 0 < b) : rem a b = .ok (a % b) := if_neg (Nat.ne_of_gt h)

theorem toSigned_ok (h : (n : Int) ≤ Int64.maxValue.toInt) : toSigned n = .ok n := if_pos h

theorem toUnsigned_ok {z : Int} (h0 : 0 ≤ z) (h : z.toNat < UInt64.size) :
    toUnsigned z = .ok z.toNat := if_pos ⟨h0, h⟩

theorem cast_ok (h : n < UInt64.size) : cast n = .ok n := if_pos h

theorem ensure_ok {p : Prop} [Decidable p] (h : p) : ensure p = .ok () := if_pos h

end

/-! ### Slots -/

/-- What a slot holds. -/
def get (slots : List α) (i : Nat) : Checked α :=
  match slots[i]? with
  | some item => .ok item
  | none => .error .index

/-- An item put in a slot. -/
def set (slots : List α) (i : Nat) (item : α) : Checked (List α) :=
  if i < slots.length then .ok (slots.set i item) else .error .index

/-- The slots from `start` to in front of `stop`. -/
def slice (slots : List α) (start stop : Nat) : Checked (List α) :=
  if start ≤ stop ∧ stop ≤ slots.length then .ok (window slots start (stop - start))
  else .error .range

/-- A run copied to the slots from `start` to in front of `stop`; it has to be as long. -/
def copy (slots : List α) (start stop : Nat) (run : List α) : Checked (List α) :=
  if start ≤ stop ∧ stop ≤ slots.length then
    if run.length = stop - start then .ok (overlay slots start run) else .error .lengths
  else .error .range

/-- An item put in all slots from `start` to in front of `stop`. -/
def fill (slots : List α) (start stop : Nat) (item : α) : Checked (List α) :=
  copy slots start stop (List.replicate (stop - start) item)

/-- The first `n` items and the others. -/
def split (items : List α) (n : Nat) : Checked (List α × List α) :=
  if n ≤ items.length then .ok (items.take n, items.drop n) else .error .range

section

variable {slots run : List α} {start stop i n : Nat}

theorem get_ok {item : α} (h : slots[i]? = some item) : get slots i = .ok item := by
  unfold get
  rw [h]

theorem set_ok (h : i < slots.length) (item : α) : set slots i item = .ok (slots.set i item) :=
  if_pos h

theorem slice_ok (hs : start ≤ stop) (h : stop ≤ slots.length) :
    slice slots start stop = .ok (window slots start (stop - start)) := if_pos ⟨hs, h⟩

/-- The first `n` slots. -/
theorem slice_front (h : n ≤ slots.length) : slice slots 0 n = .ok (slots.take n) :=
  slice_ok (Nat.zero_le n) h

/-- The slots from `start` on. -/
theorem slice_rest (h : start ≤ slots.length) :
    slice slots start slots.length = .ok (slots.drop start) := by
  rw [slice_ok h (Nat.le_refl _), window, List.take_of_length_le (Nat.le_of_eq List.length_drop)]

theorem copy_ok (hs : start ≤ stop) (h : stop ≤ slots.length) (hr : run.length = stop - start) :
    copy slots start stop run = .ok (overlay slots start run) := by
  unfold copy
  rw [if_pos ⟨hs, h⟩, if_pos hr]

theorem fill_ok (hs : start ≤ stop) (h : stop ≤ slots.length) (item : α) :
    fill slots start stop item = .ok (overlay slots start (List.replicate (stop - start) item)) :=
  copy_ok hs h List.length_replicate

theorem split_ok (h : n ≤ slots.length) : split slots n = .ok (slots.take n, slots.drop n) :=
  if_pos h

end

end Checked

end Carousel
