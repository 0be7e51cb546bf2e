import Carousel.Proofs.Invariant

/-! # Where a seek goes

A seek aims at a position in unbounded numbers (`Ring.aim`), its anchor's slot and the offset
added. It fails exactly if that is negative (`seek_of_aim_neg`). Positions are signed 64-bit
numbers, so a sum beyond the last of them becomes the last, and that one is taken modulo the
capacity (`seek_of_aim_nonneg`): there the read cursor goes to another slot than the one aimed at,
unless the two agree modulo the capacity (`seek_position`, `seek_beyond_range`). -/

namespace Carousel

variable {α : Type}

namespace Ring

/-- The position that a seek aims at. -/
def aim (r : Ring α) (offset : Int64) (anchor : Anchor) : Int := anchor.slot r + offset.toInt

variable {r : Ring α} {offset : Int64} {anchor : Anchor}

/-- A sum is never below the range: a slot is not negative. -/
theorem seekTarget_eq (r : Ring α) (offset : Int64) (anchor : Anchor) :
    r.seekTarget offset anchor = min Int64.maxValue.toInt (r.aim offset anchor) := by
  have hmin := Int64.toInt_minValue
  have hmax := Int64.toInt_maxValue
  have hoffset := Int64.minValue_le_toInt offset
  unfold seekTarget saturate aim
  omega

theorem seek_of_aim_neg (h : r.aim offset anchor < 0) :
    r.seek offset anchor = (r, .error (.negativePosition (r.aim offset anchor))) := by
  have hmax := Int64.toInt_maxValue
  have htarget : r.seekTarget offset anchor = r.aim offset anchor := by
    rw [seekTarget_eq]
    omega
  unfold seek
  rw [htarget, if_pos h]

/-- The slot that a seek which does not fail goes to. -/
def landing (r : Ring α) (offset : Int64) (anchor : Anchor) : Nat :=
  (min Int64.maxValue.toInt (r.aim offset anchor)).toNat % r.capacity

theorem seek_of_aim_nonneg (h : 0 ≤ r.aim offset anchor) :
    r.seek offset anchor =
      ((r.moveTo (r.landing offset anchor)).forget, .ok (r.landing offset anchor)) := by
  have hmax := Int64.toInt_maxValue
  unfold seek landing
  rw [seekTarget_eq, if_neg (by omega)]

theorem cast_landing (h : 0 ≤ r.aim offset anchor) :
    (r.landing offset anchor : Int) =
      min Int64.maxValue.toInt (r.aim offset anchor) % r.capacity := by
  have hmax := Int64.toInt_maxValue
  unfold landing
  rw [Int.natCast_emod, Int.toNat_of_nonneg (by omega)]

@[simp] theorem head_moveTo (r : Ring α) (slot : Nat) : (r.moveTo slot).head = slot := by
  unfold moveTo
  split
  · next he => exact he.symm
  · rfl

/-- What a seek that succeeds leaves and answers. -/
theorem seek_eq_ok {next : Ring α} {p : Nat} (h : r.seek offset anchor = (next, .ok p)) :
    0 ≤ r.aim offset anchor ∧ p = r.landing offset anchor ∧ next = (r.moveTo p).forget := by
  rcases Int.lt_or_le (r.aim offset anchor) 0 with hneg | hpos
  · cases (seek_of_aim_neg hneg).symm.trans h
  · cases (seek_of_aim_nonneg hpos).symm.trans h
    exact ⟨hpos, rfl, rfl⟩

theorem exists_seek_ok_iff :
    (∃ p, (r.seek offset anchor).2 = .ok p) ↔ 0 ≤ r.aim offset anchor := by
  constructor
  · rintro ⟨p, hp⟩
    exact (seek_eq_ok (Prod.ext rfl hp)).1
  · intro h
    exact ⟨_, congrArg Prod.snd (seek_of_aim_nonneg h)⟩

/-- **A seek goes to the position it aims at, up to the end of the range.** It succeeds exactly if
that position is not negative. The slot it answers is that of the read cursor from then on; it is
the position aimed at modulo the capacity if and only if that position is a signed 64-bit number
or agrees with the last of them modulo the capacity. -/
theorem seek_position (r : Ring α) (offset : Int64) (anchor : Anchor) :
    ((∃ p, (r.seek offset anchor).2 = .ok p) ↔ 0 ≤ r.aim offset anchor) ∧
      ∀ p, (r.seek offset anchor).2 = .ok p →
        (r.seek offset anchor).1.head = p ∧
          (p : Int) = min Int64.maxValue.toInt (r.aim offset anchor) % r.capacity ∧
          ((p : Int) = r.aim offset anchor % r.capacity ↔
            r.aim offset anchor ≤ Int64.maxValue.toInt ∨
              Int64.maxValue.toInt % r.capacity = r.aim offset anchor % r.capacity) := by
  refine ⟨exists_seek_ok_iff, ?_⟩
  intro p hp
  obtain ⟨hpos, hslot, hnext⟩ := seek_eq_ok (Prod.ext rfl hp)
  have hp' : (p : Int) = min Int64.maxValue.toInt (r.aim offset anchor) % r.capacity := by
    rw [hslot]
    exact cast_landing hpos
  refine ⟨?_, hp', ?_⟩
  · exact (congrArg head hnext).trans (r.head_moveTo p)
  · rw [hp']
    rcases Int.lt_or_le Int64.maxValue.toInt (r.aim offset anchor) with hlt | hle
    · rw [Int.min_eq_left (Int.le_of_lt hlt)]
      constructor
      · exact .inr
      · rintro (hle | he)
        · omega
        · exact he
    · rw [Int.min_eq_right hle]
      exact iff_of_true rfl (.inl hle)

/-- One position beyond the range, from a write cursor at slot 1 of three: slot 1 in place of 2. -/
theorem seek_position_wrapped :
    (⟨[7, 0, 0], 0, 1, false⟩ : Ring Nat).aim Int64.maxValue .writer =
        Int64.maxValue.toInt + 1 ∧
      ((⟨[7, 0, 0], 0, 1, false⟩ : Ring Nat).seek Int64.maxValue .writer).2 = .ok 1 ∧
      ¬ (1 : Int) =
        (⟨[7, 0, 0], 0, 1, false⟩ : Ring Nat).aim Int64.maxValue .writer % 3 := by
  refine ⟨by decide, rfl, ?_⟩
  intro hslot
  have hiff := ((seek_position (⟨[7, 0, 0], 0, 1, false⟩ : Ring Nat) Int64.maxValue .writer).2 1
    rfl).2.2.mp hslot
  revert hiff
  decide

/-- An unread item lies in slot 0 of two, the write cursor is at slot 1. The position `2 ^ 63`
that is aimed at is even, so the read cursor should stay where it is; it goes to slot 1, and the
item is lost. -/
theorem seek_beyond_range :
    ¬ ∀ (operations : List (Operation Nat)) (r : Ring Nat),
      (Origin.create 2).ring.undergoAll operations = some r →
        ∀ (offset : Int64) (anchor : Anchor) (p : Nat),
          (r.seek offset anchor).2 = .ok p → (p : Int) = r.aim offset anchor % r.capacity := by
  intro h
  have hslot := h [.ring (.write [7] : Command Unit Nat) ()] ⟨[7, 0], 0, 1, false⟩ rfl
    Int64.maxValue .writer 1 rfl
  revert hslot
  decide

end Ring

end Carousel
