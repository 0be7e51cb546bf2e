import Carousel.Ring.Read
import Carousel.Ring.Write

/-! # The unread items under each operation

What the single operations of a valid ring do to its unread items.

* The segments hold the unread items (`segments_append`), `front` is their beginning
  (`front_eq_take`), and consuming drops them from the front (`unread_consume`).
* Storing items in free or given up slots from the write cursor on and accounting for them
  appends them and drops what the capacity does not hold (`unread_advance`); so does `write`,
  also where it leaves items out (`unread_write`).
-/

namespace Carousel

variable {α : Type} [Inhabited α]

namespace Ring

theorem getElem?_unread (r : Ring α) {i : Nat} (h : i < r.count) :
    r.unread[i]? = some (r.slots.getD ((r.head + i) % r.capacity) default) := by
  simp [unread, h]

theorem getElem?_slots_unread {r : Ring α} (h : r.Valid) {i : Nat} (hi : i < r.count) :
    r.slots[(r.head + i) % r.capacity]? = r.unread[i]? := by
  have hm : (r.head + i) % r.capacity < r.slots.length := Nat.mod_lt _ h.capacity_pos
  rw [getElem?_unread r hi, List.getD_eq_getElem?_getD, List.getElem?_eq_getElem hm,
    Option.getD_some]

/-! ### Segments -/

theorem segments_append {r : Ring α} (h : r.Valid) :
    r.segments.1 ++ r.segments.2 = r.unread := by
  have hh : r.head < r.slots.length := h.head_lt
  have hc : r.count ≤ r.slots.length := h.count_le
  apply List.ext_getElem?
  intro i
  unfold segments
  by_cases h0 : r.count = 0
  · simp [h0, unread]
  by_cases hi : i < r.count
  · rw [← getElem?_slots_unread h hi]
    by_cases hw : r.count ≤ r.capacity - r.head
    · have hm : (r.head + i) % r.capacity = r.head + i :=
        Nat.mod_eq_of_lt (by unfold capacity at *; omega)
      simp only [h0, if_false, hw, if_true, window, List.append_nil, List.getElem?_take, hi,
        List.getElem?_drop, hm]
    · simp only [h0, if_false, hw]
      rw [List.getElem?_append, List.length_drop]
      by_cases hr : i < r.slots.length - r.head
      · rw [if_pos hr, List.getElem?_drop, Nat.mod_eq_of_lt (by unfold capacity; omega)]
      · rw [if_neg hr, List.getElem?_take]
        unfold capacity at *
        rw [if_pos (by omega), Nat.mod_eq_sub_mod (by omega), Nat.mod_eq_of_lt (by omega)]
        congr 1
        omega
  · rw [List.getElem?_eq_none (l := r.unread) (by rw [length_unread]; omega)]
    apply List.getElem?_eq_none
    split
    · simp
    · split
      · simp only [window, List.append_nil, List.length_take, List.length_drop]; omega
      · unfold capacity at *
        simp only [List.length_append, List.length_take, List.length_drop]; omega

theorem front_eq_take {r : Ring α} (h : r.Valid) (n : Nat) : r.front n = r.unread.take n := by
  rw [← segments_append h, List.take_append]
  rfl

theorem unread_consume (r : Ring α) {n : Nat} (h : n ≤ r.count) :
    (r.consume n).unread = r.unread.drop n := by
  apply List.ext_getElem?
  intro i
  rw [List.getElem?_drop]
  by_cases hi : i < r.count - n
  · rw [getElem?_unread (r.consume n) hi, getElem?_unread r (by omega)]
    simp only [consume, capacity, Nat.mod_add_mod, Nat.add_assoc]
  · rw [List.getElem?_eq_none (by rw [length_unread]; simp only [consume]; omega),
      List.getElem?_eq_none (by rw [length_unread]; omega)]

/-! ### Writing -/

/-- If the slots from the write cursor on hold `items` and the others are as before, accounting
for the items appends them. -/
theorem unread_advance {r : Ring α} (h : r.Valid) {slots items : List α}
    (hl : slots.length = r.slots.length)
    (hnew : ∀ j < items.length, slots[(r.tail + j) % r.capacity]? = items[j]?)
    (hold : ∀ j, items.length ≤ j → j < r.capacity →
      slots[(r.tail + j) % r.capacity]? = r.slots[(r.tail + j) % r.capacity]?) :
    ({ r with slots := slots }.advance items.length).unread =
      (r.unread ++ items).drop (r.count + items.length - r.capacity) := by
  have hcap : ({ r with slots := slots } : Ring α).capacity = r.capacity := hl
  have hc := h.count_le
  have hslot : ∀ k < r.count + items.length, r.count + items.length - r.capacity ≤ k →
      slots[(r.head + k) % r.capacity]? = (r.unread ++ items)[k]? := by
    intro k hk hle
    rw [List.getElem?_append, length_unread]
    by_cases hkc : k < r.count
    · have hj : (r.head + k) % r.capacity = (r.tail + (k + r.capacity - r.count)) % r.capacity := by
        rw [tail_add_mod, show r.head + r.count + (k + r.capacity - r.count) =
          r.head + k + r.capacity by omega, Nat.add_mod_right]
      rw [if_pos hkc, ← getElem?_slots_unread h hkc, hj, hold _ (by omega) (by omega)]
    · have hj : (r.head + k) % r.capacity = (r.tail + (k - r.count)) % r.capacity := by
        rw [tail_add_mod, show r.head + r.count + (k - r.count) = r.head + k by omega]
      rw [if_neg hkc, hj, hnew _ (by omega)]
  have hget : ∀ k < r.count + items.length, r.count + items.length - r.capacity ≤ k →
      some (slots.getD ((r.head + k) % r.capacity) default) = (r.unread ++ items)[k]? := by
    intro k hk hle
    have hm : (r.head + k) % r.capacity < slots.length := by
      rw [hl]; exact Nat.mod_lt _ h.capacity_pos
    rw [← hslot k hk hle, List.getD_eq_getElem?_getD, List.getElem?_eq_getElem hm,
      Option.getD_some]
  apply List.ext_getElem?
  intro i
  rw [List.getElem?_drop]
  by_cases ho : r.capacity < r.count + items.length
  · have ha : ({ r with slots := slots }.advance items.length) =
        { slots := slots, head := (r.head + (r.count + items.length - r.capacity)) % r.capacity,
          count := r.capacity, canUnread := r.canUnread } := by
      simp only [advance, hcap, ho, if_true]
    rw [ha]
    by_cases hi : i < r.capacity
    · rw [getElem?_unread _ hi, ← hget _ (by omega) (by omega)]
      simp only [capacity, hl, Nat.mod_add_mod, Nat.add_assoc]
    · rw [List.getElem?_eq_none (by rw [length_unread]; simpa using hi),
        List.getElem?_eq_none (by rw [List.length_append, length_unread]; omega)]
  · have ha : ({ r with slots := slots }.advance items.length) =
        { slots := slots, head := r.head, count := r.count + items.length,
          canUnread := r.canUnread } := by
      simp only [advance, hcap, ho, if_false]
    rw [ha]
    by_cases hi : i < r.count + items.length
    · rw [getElem?_unread _ hi, ← hget _ (by omega) (by omega)]
      simp only [capacity, hl, show r.count + items.length - r.slots.length + i = i by
        unfold capacity at *; omega]
    · rw [List.getElem?_eq_none (by rw [length_unread]; simpa using hi),
        List.getElem?_eq_none (by rw [List.length_append, length_unread]; omega)]

@[simp] theorem unread_forget (r : Ring α) : r.forget.unread = r.unread := rfl

theorem unread_write {r : Ring α} (h : r.Valid) (items : List α) :
    (r.write items).unread =
      (r.unread ++ items).drop (r.count + items.length - r.capacity) := by
  have hc := h.count_le
  unfold write
  split
  · next he => rw [List.isEmpty_iff.mp he]; simp [show r.count - r.capacity = 0 by omega]
  · split
    · next hge =>
      have hlen : (items.drop (items.length - r.capacity)).length = r.capacity := by
        rw [List.length_drop]; omega
      have hl : (splice r.slots r.tail (items.drop (items.length - r.capacity))).length =
          r.capacity :=
        length_splice (Nat.le_of_lt h.tail_lt) (Nat.le_of_eq hlen)
      rw [List.drop_append, length_unread, show r.count + items.length - r.capacity - r.count =
        items.length - r.capacity by omega, List.drop_of_length_le (l := r.unread)
          (by rw [length_unread]; omega), List.nil_append]
      apply List.ext_getElem?
      intro i
      by_cases hi : i < r.capacity
      · have hm : (r.tail + i) % r.capacity < (splice r.slots r.tail
            (items.drop (items.length - r.capacity))).length := by
          rw [hl]; exact Nat.mod_lt _ h.capacity_pos
        have hs := getElem?_splice h.tail_lt (Nat.le_of_eq hlen) (show i < _ by omega)
        have hm' : (r.tail + i) % (splice r.slots r.tail
            (items.drop (items.length - r.capacity))).length = (r.tail + i) % r.capacity := by
          rw [hl]
        rw [getElem?_unread _ hi]
        simp only [capacity] at hs hm hm' ⊢
        rw [← hs, List.getD_eq_getElem?_getD, hm', List.getElem?_eq_getElem hm, Option.getD_some]
      · rw [List.getElem?_eq_none (by rw [length_unread]; simpa using hi),
          List.getElem?_eq_none (by omega)]
    · next hlt =>
      have hlt' : items.length ≤ r.slots.length := by unfold capacity at hlt; omega
      exact unread_advance h (length_splice (Nat.le_of_lt h.tail_lt) hlt')
        (fun j hj => getElem?_splice h.tail_lt hlt' hj)
        (fun j hj hjc => getElem?_splice_of_le h.tail_lt hj hjc)

end Ring

end Carousel
