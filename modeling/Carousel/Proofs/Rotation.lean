import Carousel.Proofs.Intake
import Carousel.Proofs.Queue

/-! # Writing at once and item by item

A write stores each item that stays once, from the write cursor on; item by item, every item is
stored and later ones go over the earlier. As long as the items fit into the ring, both leave the
same ring. An input longer than the capacity leaves the write cursor of the first where it was, and
carries that of the second as far as the input is long, so the two rings hold the same items a
rotation apart (`Rotated`).

Slots are counted from the write cursor on: `getElem?_slots_writeItems` and
`getElem?_slots_writeItems_of_le` tell what each holds once the items are written one by one, by
induction on the items from the last one back. -/

namespace Carousel

variable {α : Type}

namespace Ring

/-! ### Slots counted from the write cursor on -/

theorem slots_writeItem (r : Ring α) (item : α) :
    (r.writeItem item).slots = r.slots.set r.tail item := by
  unfold writeItem advance
  split <;> rfl

/-- The last items written, as many as there are slots, are where they were stored. -/
theorem getElem?_slots_writeItems {r : Ring α} (h : r.Valid) {items : List α} {j : Nat}
    (hj : j < items.length) (hc : items.length ≤ j + r.capacity) :
    (r.writeItems items).slots[(r.tail + j) % r.capacity]? = items[j]? := by
  induction items using List.reverseRecOn with
  | nil => cases hj
  | append_singleton items item ih =>
      rw [List.length_append, List.length_singleton] at hj hc
      have hslot : (r.tail + items.length) % r.capacity < (r.writeItems items).slots.length :=
        Nat.lt_of_lt_of_eq (Nat.mod_lt _ h.capacity_pos) (r.capacity_writeItems items).symm
      rw [writeItems_append, writeItems_cons, writeItems_nil, slots_writeItem,
        tail_writeItems h]
      rcases Nat.lt_or_ge j items.length with hlt | hge
      · rw [List.getElem?_set_ne (slot_ne hlt (by omega) r.tail), ih hlt (by omega),
          List.getElem?_append_left hlt]
      · obtain rfl : j = items.length := by omega
        rw [List.getElem?_set_self hslot, List.getElem?_concat_length]

/-- Slots that the items do not reach hold what they held. -/
theorem getElem?_slots_writeItems_of_le {r : Ring α} (h : r.Valid) {items : List α} {j : Nat}
    (hj : items.length ≤ j) (hc : j < r.capacity) :
    (r.writeItems items).slots[(r.tail + j) % r.capacity]? =
      r.slots[(r.tail + j) % r.capacity]? := by
  induction items using List.reverseRecOn with
  | nil => rfl
  | append_singleton items item ih =>
      rw [List.length_append, List.length_singleton] at hj
      rw [writeItems_append, writeItems_cons, writeItems_nil, slots_writeItem, tail_writeItems h,
        List.getElem?_set_ne (slot_ne (i := items.length) (by omega) (by omega) r.tail).symm]
      exact ih (by omega)

/-! ### Cursors -/

theorem head_count_writeItems {r : Ring α} (h : r.Valid) (items : List α) :
    (r.writeItems items).head =
        (r.head + (r.count + items.length - r.capacity)) % r.capacity ∧
      (r.writeItems items).count = min (r.count + items.length) r.capacity := by
  induction items generalizing r with
  | nil =>
      have hc := h.count_le
      rw [writeItems_nil, List.length_nil, Nat.add_zero, Nat.min_eq_left hc,
        Nat.sub_eq_zero_of_le hc, Nat.add_zero, Nat.mod_eq_of_lt h.head_lt]
      exact ⟨rfl, rfl⟩
  | cons item items ih =>
      have hfits : r.tail + [item].length ≤ r.capacity := h.tail_lt
      have hone := (writeItem_eq_commit h item).trans (commit_eq h hfits)
      have hhead : (r.writeItem item).head = (r.head + (r.count + 1 - r.capacity)) % r.capacity :=
        congrArg Ring.head hone
      have hcount : (r.writeItem item).count = min (r.count + 1) r.capacity :=
        congrArg Ring.count hone
      obtain ⟨hlast, hsum⟩ := ih (h.writeItem item)
      rw [capacity_writeItem, hhead, hcount, Nat.mod_add_mod] at hlast
      rw [capacity_writeItem, hcount] at hsum
      rw [writeItems_cons, hlast, hsum, List.length_cons]
      refine ⟨?_, by omega⟩
      congr 1
      omega

/-! ### Writing at once -/

theorem slots_write {r : Ring α} {items : List α} (hn : items.length ≤ r.capacity) :
    (r.write items).slots = splice r.slots r.tail items := by
  unfold write
  split
  · next he =>
      rw [List.isEmpty_iff.mp he]
      simp [splice]
  · split
    · next hge => rw [show items.length - r.capacity = 0 by omega, List.drop_zero]
    · unfold store advance
      dsimp only
      split <;> rfl

/-- Of an input of at least the capacity the last items are laid out from the write cursor on. -/
theorem write_of_capacity_le {r : Ring α} (h : r.Valid) {items : List α}
    (hn : r.capacity ≤ items.length) :
    r.write items =
      ⟨splice r.slots r.tail (items.drop (items.length - r.capacity)), r.tail, r.capacity,
        false⟩ := by
  have hne : items ≠ [] := List.length_pos_iff.mp (Nat.lt_of_lt_of_le h.capacity_pos hn)
  unfold write
  rw [if_neg (by simpa using hne), if_pos hn]

/-! ### The two compared -/

/-- The ring `s` is the ring `r` with everything `n` slots further on. -/
structure Rotated (n : Nat) (r s : Ring α) : Prop where
  capacity_eq : s.capacity = r.capacity
  head_eq : s.head = (r.head + n % r.capacity) % r.capacity
  count_eq : s.count = r.count
  canUnread_eq : s.canUnread = r.canUnread
  slot_eq : ∀ j < r.capacity, s.slots[(j + n) % r.capacity]? = r.slots[j]?

theorem canUnread_write_eq (r : Ring α) (items : List α) :
    (r.write items).canUnread = (r.writeItems items).canUnread := by
  rcases eq_or_ne items [] with rfl | hi
  · rfl
  · rw [canUnread_write r hi, canUnread_writeItems r hi]

section Compared

variable [Inhabited α] {r : Ring α} (h : r.Valid) {items : List α}

include h

theorem unread_write_writeItems : (r.write items).unread = (r.writeItems items).unread := by
  rw [unread_write_eq h, unread_writeItems h]

theorem count_write_writeItems : (r.write items).count = (r.writeItems items).count := by
  rw [← length_unread, unread_write_writeItems h, length_unread]

/-- Items that fit into the ring may be written either way. -/
theorem write_eq_writeItems (hn : items.length ≤ r.capacity) :
    r.write items = r.writeItems items := by
  have hslots : (r.write items).slots = (r.writeItems items).slots := by
    rw [slots_write hn]
    have hl : (splice r.slots r.tail items).length = r.capacity :=
      length_splice (Nat.le_of_lt h.tail_lt) hn
    have hl' : (r.writeItems items).slots.length = r.capacity := r.capacity_writeItems items
    apply List.ext_getElem?
    intro k
    rcases Nat.lt_or_ge k r.capacity with hk | hk
    · obtain ⟨j, hj, rfl⟩ := exists_slot h.tail_lt hk
      rcases Nat.lt_or_ge j items.length with hlt | hge
      · exact (getElem?_splice h.tail_lt hn hlt).trans
          (getElem?_slots_writeItems h hlt (by omega)).symm
      · exact (getElem?_splice_of_le h.tail_lt hge hj).trans
          (getElem?_slots_writeItems_of_le h hge hj).symm
    · rw [List.getElem?_eq_none (by omega), List.getElem?_eq_none (by omega)]
  have hhead : (r.write items).head = (r.writeItems items).head := by
    rw [head_write h, (head_count_writeItems h items).1, Nat.min_eq_left hn]
  have hcount : (r.write items).count = (r.writeItems items).count := count_write_writeItems h
  have hmarker := r.canUnread_write_eq items
  generalize r.write items = s at *
  generalize r.writeItems items = t at *
  cases s
  cases t
  simp only [mk.injEq]
  exact ⟨hslots, hhead, hcount, hmarker⟩

/-- Behind a longer input the two rings are rotated by its length. -/
theorem rotated_writeItems (hn : r.capacity < items.length) :
    Rotated items.length (r.write items) (r.writeItems items) := by
  have hw := write_of_capacity_le h (Nat.le_of_lt hn)
  have hcap : (r.write items).capacity = r.capacity := capacity_write h items
  refine ⟨?_, ?_, (count_write_writeItems h).symm, (r.canUnread_write_eq items).symm, ?_⟩
  · rw [capacity_writeItems, hcap]
  · rw [(head_count_writeItems h items).1, hcap, hw, Nat.add_mod_mod]
    dsimp only
    rw [tail_add_mod, show r.head + r.count + items.length =
      r.head + (r.count + items.length - r.capacity) + r.capacity by omega, Nat.add_mod_right]
  · intro k hk
    rw [hcap] at hk ⊢
    obtain ⟨j, hj, rfl⟩ := exists_slot h.tail_lt hk
    have hlast : (items.drop (items.length - r.capacity)).length = r.capacity := by
      rw [List.length_drop]
      omega
    have hat : ((r.tail + j) % r.capacity + items.length) % r.capacity =
        (r.tail + (items.length - r.capacity + j)) % r.capacity := by
      rw [Nat.mod_add_mod, show r.tail + j + items.length =
        r.tail + (items.length - r.capacity + j) + r.capacity by omega, Nat.add_mod_right]
    rw [hat, getElem?_slots_writeItems h (by omega) (by omega), hw, ← List.getElem?_drop]
    exact (getElem?_splice h.tail_lt (Nat.le_of_eq hlast) (by omega)).symm

/-- **Writing at once agrees with writing item by item**: the unread items, their number and the
unread marker are the same. Up to the capacity the rings are the same altogether; beyond it the
write leaves the write cursor where it was, both rings are full, and the one is the other rotated
by the number of items. -/
theorem write_agrees_writeItems (items : List α) :
    (r.write items).unread = (r.writeItems items).unread ∧
      (r.write items).count = (r.writeItems items).count ∧
      (r.write items).canUnread = (r.writeItems items).canUnread ∧
      (items.length ≤ r.capacity → r.write items = r.writeItems items) ∧
      (r.capacity < items.length →
        (r.write items).tail = r.tail ∧ (r.write items).capacity = r.capacity ∧
          (r.write items).isFull = true ∧ (r.writeItems items).isFull = true ∧
          Rotated items.length (r.write items) (r.writeItems items)) := by
  refine ⟨unread_write_writeItems h, count_write_writeItems h, r.canUnread_write_eq items,
    write_eq_writeItems h, ?_⟩
  intro hn
  have hw := write_of_capacity_le h (Nat.le_of_lt hn)
  have hcap : (r.write items).capacity = r.capacity := capacity_write h items
  have hfull : (r.write items).count = r.capacity := by rw [hw]
  have htail : (r.write items).tail = r.tail := by
    unfold tail
    rw [hcap, hfull, Nat.add_mod_right]
    rw [hw]
    exact Nat.mod_mod _ _
  refine ⟨htail, hcap, ?_, ?_, rotated_writeItems h hn⟩
  · rw [isFull_iff, hfull, hcap]
  · rw [isFull_iff, ← count_write_writeItems h, hfull, capacity_writeItems]

end Compared

/-- Five items for three slots, the write cursor in front of the read cursor: the last three are
laid out from slot 1 on, and item by item from slot 0 on. -/
theorem write_agrees_writeItems_oversized :
    (⟨[7, 5, 6], 2, 2, true⟩ : Ring Nat).Valid ∧
      (⟨[7, 5, 6], 2, 2, true⟩ : Ring Nat).write [1, 2, 3, 4, 5] = ⟨[5, 3, 4], 1, 3, false⟩ ∧
      (⟨[7, 5, 6], 2, 2, true⟩ : Ring Nat).writeItems [1, 2, 3, 4, 5] =
        ⟨[3, 4, 5], 0, 3, false⟩ ∧
      Rotated 5 (⟨[5, 3, 4], 1, 3, false⟩ : Ring Nat) ⟨[3, 4, 5], 0, 3, false⟩ := by
  have hv : (⟨[7, 5, 6], 2, 2, true⟩ : Ring Nat).Valid :=
    ⟨by decide, by decide, by decide, by decide⟩
  refine ⟨hv, by decide, by decide, ?_⟩
  exact ((write_agrees_writeItems hv [1, 2, 3, 4, 5]).2.2.2.2 (by decide)).2.2.2.2

end Ring

end Carousel
