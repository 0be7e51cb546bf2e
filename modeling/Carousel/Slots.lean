/-! # Slots

Storage is a list of slots of fixed length. The operations here touch a range of slots and
leave all others as they are.

* `window slots start n`: the `n` slots from `start` on.
* `overlay slots start items`: `items` laid over the slots from `start` on.
* `cover buffer stored`: `stored` laid over the front of a buffer, as far as the buffer reaches.
* `splice slots start items`: `items` laid over the slots from `start` on, going on at slot 0
  behind the last slot.

Each keeps the number of slots (`length_overlay`, `length_cover`, `length_splice`). What a slot
holds afterwards is told by `getElem?_overlay`, and for a splice by `getElem?_splice` and
`getElem?_splice_of_le`, which count slots from `start` on.
-/

namespace Carousel

variable {α : Type}

/-- The `n` slots from `start` on. -/
def window (slots : List α) (start n : Nat) : List α := (slots.drop start).take n

/-- `items` laid over the slots from `start` on; they have to fit. -/
def overlay (slots : List α) (start : Nat) (items : List α) : List α :=
  slots.take start ++ items ++ slots.drop (start + items.length)

/-- `stored` laid over the front of `buffer`; what does not fit is dropped. -/
def cover (buffer stored : List α) : List α := overlay buffer 0 (stored.take buffer.length)

/-- `items` laid over the slots from `start` on, going on at slot 0 behind the last slot; there
have to be as many slots as items. -/
def splice (slots : List α) (start : Nat) (items : List α) : List α :=
  let room := slots.length - start
  overlay (overlay slots start (items.take room)) 0 (items.drop room)

@[simp] theorem overlay_nil (slots : List α) (start : Nat) : overlay slots start [] = slots := by
  simp [overlay]

@[simp] theorem cover_nil (buffer : List α) : cover buffer [] = buffer := by simp [cover]

theorem length_overlay {slots items : List α} {start : Nat}
    (h : start + items.length ≤ slots.length) :
    (overlay slots start items).length = slots.length := by
  simp only [overlay, List.length_append, List.length_take, List.length_drop]
  omega

@[simp] theorem length_cover (buffer stored : List α) :
    (cover buffer stored).length = buffer.length :=
  length_overlay (by simp only [List.length_take]; omega)

theorem length_splice {slots items : List α} {start : Nat}
    (hs : start ≤ slots.length) (hn : items.length ≤ slots.length) :
    (splice slots start items).length = slots.length := by
  have h : (overlay slots start (items.take (slots.length - start))).length = slots.length :=
    length_overlay (by simp only [List.length_take]; omega)
  unfold splice
  rw [length_overlay (by rw [h, List.length_drop]; omega), h]

theorem getElem?_overlay {slots items : List α} {start : Nat}
    (h : start + items.length ≤ slots.length) (i : Nat) :
    (overlay slots start items)[i]? =
      if i < start then slots[i]? else if i < start + items.length then items[i - start]?
      else slots[i]? := by
  have hs : (slots.take start).length = start := by simp only [List.length_take]; omega
  unfold overlay
  rw [List.append_assoc, List.getElem?_append, hs]
  by_cases h1 : i < start
  · rw [if_pos h1, if_pos h1, List.getElem?_take, if_pos h1]
  · rw [if_neg h1, if_neg h1, List.getElem?_append]
    by_cases h2 : i < start + items.length
    · rw [if_pos (by omega), if_pos h2]
    · rw [if_neg (by omega), if_neg h2, List.getElem?_drop]
      congr 1
      omega

/-- Slot `start + j`, modulo the number of slots, holds item `j` after a splice. -/
theorem getElem?_splice {slots items : List α} {start j : Nat} (hs : start < slots.length)
    (hn : items.length ≤ slots.length) (hj : j < items.length) :
    (splice slots start items)[(start + j) % slots.length]? = items[j]? := by
  have hl : (overlay slots start (items.take (slots.length - start))).length = slots.length :=
    length_overlay (by simp only [List.length_take]; omega)
  unfold splice
  rw [getElem?_overlay (by rw [hl, List.length_drop]; omega), if_neg (by omega), List.length_drop]
  by_cases hw : start + j < slots.length
  · rw [Nat.mod_eq_of_lt hw, if_neg (by omega),
      getElem?_overlay (by simp only [List.length_take]; omega), if_neg (by omega),
      if_pos (by simp only [List.length_take]; omega), List.getElem?_take, if_pos (by omega)]
    congr 1
    omega
  · have hm : (start + j) % slots.length = start + j - slots.length := by
      rw [Nat.mod_eq_sub_mod (by omega), Nat.mod_eq_of_lt (by omega)]
    rw [hm, if_pos (by omega), List.getElem?_drop]
    congr 1
    omega

/-- All other slots keep what they hold. -/
theorem getElem?_splice_of_le {slots items : List α} {start j : Nat} (hs : start < slots.length)
    (hn : items.length ≤ j) (hj : j < slots.length) :
    (splice slots start items)[(start + j) % slots.length]? =
      slots[(start + j) % slots.length]? := by
  have hl : (overlay slots start (items.take (slots.length - start))).length = slots.length :=
    length_overlay (by simp only [List.length_take]; omega)
  unfold splice
  rw [getElem?_overlay (by rw [hl, List.length_drop]; omega), if_neg (by omega), List.length_drop]
  by_cases hw : start + j < slots.length
  · rw [Nat.mod_eq_of_lt hw, if_neg (by omega),
      getElem?_overlay (by simp only [List.length_take]; omega), if_neg (by omega),
      if_neg (by simp only [List.length_take]; omega)]
  · have hm : (start + j) % slots.length = start + j - slots.length := by
      rw [Nat.mod_eq_sub_mod (by omega), Nat.mod_eq_of_lt (by omega)]
    rw [hm, if_neg (by omega), getElem?_overlay (by simp only [List.length_take]; omega),
      if_pos (by omega)]

theorem length_window {slots : List α} {start n : Nat} (h : start + n ≤ slots.length) :
    (window slots start n).length = n := by
  simp only [window, List.length_take, List.length_drop]
  omega

end Carousel
