import Carousel.Ring.Read
import Carousel.Ring.Seek
import Carousel.Ring.Write

/-! # Valid rings stay valid

The single operations keep a valid ring valid and its capacity as it is. Operations that fail are
among them: what they leave is valid too.
-/

namespace Carousel

variable {σ α : Type}

namespace Ring

/-! ### Capacity -/

@[simp] theorem capacity_forget (r : Ring α) : r.forget.capacity = r.capacity := rfl

@[simp] theorem capacity_advance (r : Ring α) (n : Nat) : (r.advance n).capacity = r.capacity := by
  unfold advance
  split <;> rfl

@[simp] theorem capacity_consume (r : Ring α) (n : Nat) : (r.consume n).capacity = r.capacity := rfl

/-! ### Building blocks -/

theorem Valid.forget {r : Ring α} (h : r.Valid) : r.forget.Valid where
  capacity_pos := h.capacity_pos
  head_lt := h.head_lt
  count_le := h.count_le
  count_lt := by simp [Ring.forget]

/-- A ring with other slots, as many as before, is valid. -/
theorem Valid.withSlots {r : Ring α} (h : r.Valid) {slots : List α}
    (hl : slots.length = r.slots.length) : ({ r with slots := slots } : Ring α).Valid where
  capacity_pos := by unfold capacity; rw [hl]; exact h.capacity_pos
  head_lt := by unfold capacity; rw [hl]; exact h.head_lt
  count_le := by unfold capacity; rw [hl]; exact h.count_le
  count_lt := by unfold capacity; rw [hl]; exact h.count_lt

/-- Accounting for stored items may fill the ring, so the marker has to be cleared with it. -/
theorem Valid.advance_forget {r : Ring α} (h : r.Valid) (n : Nat) :
    (r.advance n).forget.Valid := by
  unfold Ring.advance
  split
  · exact ⟨h.capacity_pos, Nat.mod_lt _ h.capacity_pos, Nat.le_refl _, by simp [Ring.forget]⟩
  · next hn => exact ⟨h.capacity_pos, h.head_lt, Nat.le_of_not_lt hn, by simp [Ring.forget]⟩

theorem Valid.consume {r : Ring α} (h : r.Valid) {n : Nat} (hn : n ≤ r.count) :
    (r.consume n).Valid where
  capacity_pos := h.capacity_pos
  head_lt := Nat.mod_lt _ h.capacity_pos
  count_le := Nat.le_trans (Nat.sub_le _ _) h.count_le
  count_lt hm := by
    have hpos : 0 < n := by simpa [Ring.consume] using hm
    have hle := h.count_le
    change r.count - n < r.capacity
    omega

/-! ### Writing -/

theorem Valid.write {r : Ring α} (h : r.Valid) (items : List α) : (r.write items).Valid := by
  unfold Ring.write
  split
  · exact h
  · split
    · next hge =>
      have hl : (splice r.slots r.tail (items.drop (items.length - r.capacity))).length =
          r.slots.length :=
        length_splice (Nat.le_of_lt h.tail_lt)
          (by rw [List.length_drop]; unfold capacity at *; omega)
      exact ⟨Nat.lt_of_lt_of_eq h.capacity_pos hl.symm, Nat.lt_of_lt_of_eq h.tail_lt hl.symm,
        Nat.le_of_eq hl.symm, by simp⟩
    · next hlt =>
      have hl : (splice r.slots r.tail items).length = r.slots.length :=
        length_splice (Nat.le_of_lt h.tail_lt) (by unfold capacity at hlt; omega)
      exact (h.withSlots hl).advance_forget items.length

theorem Valid.writeItem {r : Ring α} (h : r.Valid) (item : α) : (r.writeItem item).Valid :=
  (h.withSlots (List.length_set)).advance_forget 1

theorem Valid.commit {r : Ring α} (h : r.Valid) {run : List α}
    (hr : r.tail + run.length ≤ r.capacity) : (r.commit run).Valid :=
  (h.withSlots (length_overlay hr)).advance_forget run.length

theorem capacity_write {r : Ring α} (h : r.Valid) (items : List α) :
    (r.write items).capacity = r.capacity := by
  unfold Ring.write
  split
  · rfl
  · split
    · next hge =>
      exact length_splice (Nat.le_of_lt h.tail_lt)
        (by rw [List.length_drop]; unfold capacity at *; omega)
    · next hlt =>
      rw [capacity_forget, capacity_advance]
      exact length_splice (Nat.le_of_lt h.tail_lt) (by unfold capacity at hlt; omega)

theorem capacity_commit {r : Ring α} {run : List α} (hr : r.tail + run.length ≤ r.capacity) :
    (r.commit run).capacity = r.capacity := by
  unfold commit
  rw [capacity_forget, capacity_advance]
  exact length_overlay hr

theorem capacity_writeItem (r : Ring α) (item : α) : (r.writeItem item).capacity = r.capacity := by
  unfold writeItem
  rw [capacity_forget, capacity_advance]
  exact List.length_set

/-! ### Reading -/

theorem capacity_read (r : Ring α) (buffer : List α) :
    (r.read buffer).state.capacity = r.capacity := by
  unfold Ring.read
  split
  · rfl
  · split <;> rfl

theorem capacity_readItem [Inhabited α] (r : Ring α) : r.readItem.1.capacity = r.capacity := by
  unfold Ring.readItem
  split <;> rfl

theorem capacity_take (r : Ring α) (n : Nat) : (r.take n).1.capacity = r.capacity := by
  unfold Ring.take
  split <;> rfl

theorem capacity_unreadItem (r : Ring α) : r.unreadItem.1.capacity = r.capacity := by
  unfold Ring.unreadItem
  split <;> rfl

theorem capacity_reset [Inhabited α] (r : Ring α) : r.reset.capacity = r.capacity := by
  simp [Ring.reset, capacity]

theorem capacity_truncate [Inhabited α] {r : Ring α} (h : r.Valid) (n : Nat) :
    (r.truncate n).capacity = r.capacity := by
  have hc := h.count_le
  unfold Ring.truncate
  split
  · exact r.capacity_reset
  · exact length_splice (Nat.le_of_lt h.head_lt)
      (by rw [List.length_replicate]; unfold capacity at hc; omega)

theorem capacity_readItems (r : Ring α) (probe : σ → α → σ × Bool) (state : σ) :
    (r.readItems probe state).ring.capacity = r.capacity := by
  unfold Ring.readItems
  split
  · rfl
  · split
    · rfl
    · split <;> rfl

theorem Valid.read {r : Ring α} (h : r.Valid) (buffer : List α) : (r.read buffer).state.Valid := by
  unfold Ring.read
  split
  · exact h.forget
  · split
    · exact h.forget
    · exact h.consume (Nat.min_le_right _ _)

theorem Valid.readItem [Inhabited α] {r : Ring α} (h : r.Valid) : r.readItem.1.Valid := by
  unfold Ring.readItem
  split
  · exact h.forget
  · exact h.consume (by omega)

theorem Valid.take {r : Ring α} (h : r.Valid) {n : Nat} (hn : n ≤ r.count) : (r.take n).1.Valid := by
  unfold Ring.take
  split
  · exact h.forget
  · exact h.consume hn

theorem Valid.unreadItem {r : Ring α} (h : r.Valid) : r.unreadItem.1.Valid := by
  unfold Ring.unreadItem
  split
  · next hm =>
    exact ⟨h.capacity_pos, Nat.mod_lt _ h.capacity_pos, h.count_lt hm, by simp⟩
  · exact h

theorem Valid.reset [Inhabited α] {r : Ring α} (h : r.Valid) : r.reset.Valid := by
  have hc := r.capacity_reset
  exact ⟨by rw [hc]; exact h.capacity_pos, by rw [hc]; exact h.capacity_pos, Nat.zero_le _,
    by simp [Ring.reset]⟩

theorem Valid.truncate [Inhabited α] {r : Ring α} (h : r.Valid) (n : Nat) :
    (r.truncate n).Valid := by
  unfold Ring.truncate
  split
  · exact h.reset
  · next hn =>
    have hc := h.count_le
    have hl : (splice r.slots r.head (List.replicate n default)).length = r.slots.length :=
      length_splice (Nat.le_of_lt h.head_lt)
        (by rw [List.length_replicate]; unfold capacity at hc; omega)
    exact ⟨by unfold capacity; rw [hl]; exact h.capacity_pos,
      by unfold capacity; rw [hl]; exact Nat.mod_lt _ h.capacity_pos,
      by unfold capacity; rw [hl]; exact Nat.le_trans (Nat.sub_le _ _) hc, by simp⟩

/-- What a search finds lies within what it searches. -/
theorem search_lt {probe : σ → α → σ × Bool} {state : σ} {items : List α} {i : Nat}
    (h : (search probe state items).2 = some i) : i < items.length := by
  induction items generalizing state i with
  | nil => simp [search] at h
  | cons item items ih =>
    unfold search at h
    split at h
    · simp only [Option.some.injEq] at h
      simp [← h]
    · next next _ =>
      obtain ⟨j, hj, rfl⟩ := Option.map_eq_some_iff.mp h
      exact Nat.succ_lt_succ (ih hj)

theorem length_segments {r : Ring α} (h : r.Valid) :
    r.segments.1.length + r.segments.2.length = r.count := by
  have hh := h.head_lt
  have hc := h.count_le
  unfold segments
  unfold capacity at *
  split
  · simp only [List.length_nil]; omega
  · split
    · simp only [window, List.length_take, List.length_drop, List.length_nil]; omega
    · simp only [List.length_take, List.length_drop]; omega

theorem Valid.readItems {r : Ring α} (h : r.Valid) (probe : σ → α → σ × Bool) (state : σ) :
    (r.readItems probe state).ring.Valid := by
  have hl := length_segments h
  unfold Ring.readItems
  split
  · exact h.forget
  · split
    · next i hf =>
      have := search_lt (congrArg Prod.snd hf)
      exact h.consume (by omega)
    · split
      · next i hf =>
        have := search_lt (congrArg Prod.snd hf)
        exact h.consume (by omega)
      · exact h.consume (by omega)

/-! ### Moving the read cursor -/

theorem capacity_moveTo (r : Ring α) (slot : Nat) : (r.moveTo slot).capacity = r.capacity := by
  unfold Ring.moveTo
  split <;> rfl

theorem capacity_seek (r : Ring α) (offset : Int64) (anchor : Anchor) :
    (r.seek offset anchor).1.capacity = r.capacity := by
  unfold Ring.seek
  split
  · rfl
  · exact r.capacity_moveTo _

theorem Valid.moveTo {r : Ring α} (h : r.Valid) {slot : Nat} (hs : slot < r.capacity) :
    (r.moveTo slot).Valid := by
  unfold Ring.moveTo
  split
  · exact h
  · exact ⟨h.capacity_pos, hs, Nat.le_of_lt (Nat.mod_lt _ h.capacity_pos),
      fun _ => Nat.mod_lt _ h.capacity_pos⟩

theorem Valid.seek {r : Ring α} (h : r.Valid) (offset : Int64) (anchor : Anchor) :
    (r.seek offset anchor).1.Valid := by
  unfold Ring.seek
  split
  · exact h
  · exact (h.moveTo (Nat.mod_lt _ h.capacity_pos)).forget

theorem Valid.seekCode {r : Ring α} (h : r.Valid) (offset : Int64) (code : Int) :
    (r.seekCode offset code).1.Valid := by
  unfold Ring.seekCode
  split
  · exact h.seek offset _
  · exact h

end Ring

end Carousel
