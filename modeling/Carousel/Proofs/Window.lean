import Carousel.Ring.Unread
import Carousel.Transfer.Valid
import Mathlib.Data.List.DropRight

/-! # The window of unread items

Over all that is ever written to a ring, its unread items are a window that ends at the last item
written and is never longer than the capacity. `List.rtake n` is the end of a list, `n` items
long.

* Writing, in whichever way, moves the end of the window: the unread items become the last
  `capacity` of the old ones followed by the new ones (`unread_write_eq`, `unread_writeItem`,
  `unread_commit`).
* The free slots that a producer is offered end at the last slot or in front of the read cursor
  (`vacancy_cases`), and whatever is stored there, the window stays as it is (`unread_scribble`).
* The slot in front of the read cursor, `undoSlot`, holds the item consumed last
  (`undo_consume`), and stepping back puts it in front of the window (`unread_unreadItem`). -/

namespace Carousel

variable {α : Type}

/-! ### The end of a list -/

theorem rtake_of_length_le {xs : List α} {n : Nat} (h : xs.length ≤ n) : xs.rtake n = xs := by
  rw [List.rtake, Nat.sub_eq_zero_of_le h, List.drop_zero]

/-- Keeping the last `n` items now or later makes no difference. -/
theorem rtake_append_rtake (xs ys : List α) (n : Nat) :
    (xs.rtake n ++ ys).rtake n = (xs ++ ys).rtake n := by
  unfold List.rtake
  rw [List.length_append, List.length_append, List.length_drop, List.drop_append,
    List.drop_append, List.drop_drop, List.length_drop]
  rcases Nat.le_total xs.length n with h | h
  · rw [Nat.sub_eq_zero_of_le h, Nat.zero_add, Nat.sub_zero]
  · rw [show xs.length - n + (xs.length - (xs.length - n) + ys.length - n) =
        xs.length + ys.length - n by omega,
      show xs.length - (xs.length - n) + ys.length - n - (xs.length - (xs.length - n)) =
        xs.length + ys.length - n - xs.length by omega]

theorem suffix_rtake_append (xs : List α) {ys : List α} {n : Nat} (h : ys.length ≤ n) :
    ys <:+ (xs ++ ys).rtake n := by
  unfold List.rtake
  rw [List.length_append, List.drop_append,
    show xs.length + ys.length - n - xs.length = 0 by omega, List.drop_zero]
  exact List.suffix_append _ _

theorem getLast?_take_of_le {xs : List α} {n : Nat} (h0 : 0 < n) (h : n ≤ xs.length) :
    (xs.take n).getLast? = xs[n - 1]? := by
  rw [List.getLast?_eq_getElem?, List.length_take, Nat.min_eq_left h, List.getElem?_take,
    if_pos (by omega)]

/-! ### Storing -/

/-- Laying items over a range piece by piece is laying them over it at once. -/
theorem overlay_append {slots xs ys : List α} {start : Nat}
    (h : start + (xs ++ ys).length ≤ slots.length) :
    overlay (overlay slots start xs) (start + xs.length) ys = overlay slots start (xs ++ ys) := by
  rw [List.length_append] at h
  have hx : (overlay slots start xs).length = slots.length := length_overlay (by omega)
  apply List.ext_getElem?
  intro i
  rw [getElem?_overlay (by omega), getElem?_overlay (by omega),
    getElem?_overlay (by rw [List.length_append]; omega), List.length_append,
    List.getElem?_append]
  by_cases h1 : i < start
  · rw [if_pos (by omega), if_pos h1, if_pos h1]
  · by_cases h2 : i < start + xs.length
    · rw [if_pos h2, if_neg h1, if_pos h2, if_neg h1, if_pos (by omega), if_pos (by omega)]
    · rw [if_neg h2, if_neg h1, if_neg h2, if_neg h1, ← Nat.add_assoc,
        if_neg (show ¬ i - start < xs.length by omega), Nat.sub_sub]

/-- Items that reach at most to the last slot do not go on at slot 0. -/
theorem overlay_eq_splice {slots items : List α} {start : Nat}
    (h : start + items.length ≤ slots.length) :
    overlay slots start items = splice slots start items := by
  have hn : items.length ≤ slots.length - start := by omega
  unfold splice
  dsimp only
  rw [List.take_of_length_le hn, List.drop_of_length_le hn, overlay_nil]

theorem set_eq_overlay {slots : List α} {start : Nat} (h : start < slots.length) (item : α) :
    slots.set start item = overlay slots start [item] := by
  rw [List.set_eq_take_append_cons_drop, if_pos h]
  simp [overlay]

namespace Ring

/-- Writing one item is committing a run of one item. -/
theorem writeItem_eq_commit {r : Ring α} (h : r.Valid) (item : α) :
    r.writeItem item = r.commit [item] := by
  unfold writeItem commit
  rw [set_eq_overlay h.tail_lt]
  rfl

section Writing

variable [Inhabited α]

theorem unread_write_eq {r : Ring α} (h : r.Valid) (items : List α) :
    (r.write items).unread = (r.unread ++ items).rtake r.capacity := by
  rw [unread_write h, List.rtake, List.length_append, length_unread]

theorem unread_commit {r : Ring α} (h : r.Valid) {run : List α}
    (hr : r.tail + run.length ≤ r.capacity) :
    (r.commit run).unread = (r.unread ++ run).rtake r.capacity := by
  have hn : run.length ≤ r.slots.length := by unfold capacity at hr; omega
  unfold commit
  rw [unread_forget, overlay_eq_splice hr, List.rtake, List.length_append, length_unread]
  exact unread_advance h (length_splice (Nat.le_of_lt h.tail_lt) hn)
    (fun j hj => getElem?_splice h.tail_lt hn hj)
    (fun j hj hjc => getElem?_splice_of_le h.tail_lt hj hjc)

theorem unread_writeItem {r : Ring α} (h : r.Valid) (item : α) :
    (r.writeItem item).unread = (r.unread ++ [item]).rtake r.capacity := by
  have hr : r.tail + [item].length ≤ r.capacity := h.tail_lt
  rw [writeItem_eq_commit h]
  exact unread_commit h hr

end Writing

/-! ### Slots counted from a cursor on -/

/-- Counted from any slot on, every slot is reached. -/
theorem exists_slot {c t k : Nat} (ht : t < c) (hk : k < c) : ∃ j < c, (t + j) % c = k := by
  refine ⟨(k + c - t) % c, Nat.mod_lt _ (by omega), ?_⟩
  rw [Nat.add_mod_mod, show t + (k + c - t) = k + c by omega, Nat.add_mod_right,
    Nat.mod_eq_of_lt hk]

/-- Fewer than `c` slots further on is another slot. -/
theorem slot_ne {c i j : Nat} (hij : i < j) (hj : j < i + c) (t : Nat) :
    (t + j) % c ≠ (t + i) % c := by
  intro he
  have hz := Nat.sub_mod_eq_zero_of_mod_eq he
  rw [show t + j - (t + i) = j - i by omega, Nat.mod_eq_of_lt (by omega)] at hz
  omega

/-! ### Free slots -/

/-- The free slots from the write cursor on end at the last slot or, where the unread items go on
at slot 0, in front of the read cursor. -/
theorem vacancy_cases {r : Ring α} (h : r.Valid) (hf : r.count < r.capacity) :
    (r.tail = r.head + r.count ∧ r.tail + r.vacancy = r.capacity) ∨
      (r.tail + r.capacity = r.head + r.count ∧ r.tail + r.vacancy = r.head) := by
  have hh := h.head_lt
  unfold vacancy
  rcases Nat.lt_or_ge (r.head + r.count) r.capacity with hw | hw
  · have ht : r.tail = r.head + r.count := Nat.mod_eq_of_lt hw
    rw [if_neg (by omega)]
    omega
  · have ht : r.tail = r.head + r.count - r.capacity := by
      unfold tail
      rw [Nat.mod_eq_sub_mod hw, Nat.mod_eq_of_lt (by omega)]
    rw [if_pos (by omega)]
    omega

/-- No unread item lies in the slots that a producer is offered. -/
theorem slot_not_vacant {r : Ring α} (h : r.Valid) (hf : r.count < r.capacity) {i : Nat}
    (hi : i < r.count) :
    (r.head + i) % r.capacity < r.tail ∨ r.tail + r.vacancy ≤ (r.head + i) % r.capacity := by
  have htl := h.tail_lt
  rcases vacancy_cases h hf with ⟨ht, -⟩ | ⟨ht, hend⟩
  · rw [Nat.mod_eq_of_lt (by omega)]
    omega
  · rcases Nat.lt_or_ge (r.head + i) r.capacity with hi' | hi'
    · rw [Nat.mod_eq_of_lt hi']
      omega
    · rw [Nat.mod_eq_sub_mod hi', Nat.mod_eq_of_lt (by omega)]
      omega

/-- The free slots that a producer is offered are not more than there are. -/
theorem count_add_vacancy_le {r : Ring α} (h : r.Valid) (hf : r.count < r.capacity) :
    r.count + r.vacancy ≤ r.capacity := by
  rcases vacancy_cases h hf with ⟨ht, hend⟩ | ⟨ht, hend⟩ <;> omega

theorem vacancy_pos {r : Ring α} (h : r.Valid) : 0 < r.vacancy := by
  have := h.tail_lt
  unfold vacancy
  split <;> omega

/-- What is stored in the slots that a producer is offered is not unread. -/
theorem unread_scribble [Inhabited α] {r : Ring α} (h : r.Valid) (hf : r.count < r.capacity)
    {stored : List α} (hs : stored.length = r.vacancy) :
    ({ r with slots := overlay r.slots r.tail stored } : Ring α).unread = r.unread := by
  have hv : r.tail + stored.length ≤ r.slots.length := by rw [hs]; exact tail_add_vacancy_le h
  apply List.ext_getElem?
  intro i
  rcases Nat.lt_or_ge i r.count with hi | hi
  · have hw : ({ r with slots := overlay r.slots r.tail stored } : Ring α).Valid :=
      h.withSlots (length_overlay hv)
    have hc : ({ r with slots := overlay r.slots r.tail stored } : Ring α).capacity =
      r.capacity := length_overlay hv
    rw [← getElem?_slots_unread hw hi, ← getElem?_slots_unread h hi, hc]
    dsimp only
    rw [getElem?_overlay hv, hs]
    rcases slot_not_vacant h hf hi with hlt | hle
    · rw [if_pos hlt]
    · rw [if_neg (by omega), if_neg (by omega)]
  · rw [List.getElem?_eq_none (by rw [length_unread]; exact hi),
      List.getElem?_eq_none (by rw [length_unread]; exact hi)]

/-! ### Consuming -/

theorem consume_zero {r : Ring α} (h : r.Valid) : r.consume 0 = r.forget := by
  unfold consume forget
  rw [Nat.add_zero, Nat.mod_eq_of_lt h.head_lt]
  rfl

theorem consume_consume (r : Ring α) (n : Nat) {k : Nat} (hk : 0 < k) :
    (r.consume n).consume k = r.consume (n + k) := by
  unfold consume
  simp only [capacity, Nat.mod_add_mod, Nat.add_assoc, Nat.sub_sub, hk, Nat.add_pos_right]

theorem readItem_eq [Inhabited α] {r : Ring α} (h : r.Valid) {a : α} {items : List α}
    (hu : r.unread = a :: items) : r.readItem = (r.consume 1, .ok a) := by
  have hl := congrArg List.length hu
  rw [length_unread, List.length_cons] at hl
  have hfirst := getElem?_unread r (show 0 < r.count by omega)
  rw [Nat.add_zero, Nat.mod_eq_of_lt h.head_lt, hu] at hfirst
  unfold readItem
  rw [if_neg (by omega), ← Option.some.inj hfirst]

/-! ### The slot in front of the read cursor -/

/-- The slot in front of the read cursor. -/
def undoSlot (r : Ring α) : Nat := (r.head + r.capacity - 1) % r.capacity

/-- The item that may be given back. -/
def undo (r : Ring α) : Option α := if r.canUnread then r.slots[r.undoSlot]? else none

theorem undoSlot_lt {r : Ring α} (h : r.Valid) : r.undoSlot < r.capacity :=
  Nat.mod_lt _ h.capacity_pos

theorem undoSlot_eq {r : Ring α} (h : r.Valid) :
    r.undoSlot = if r.head = 0 then r.capacity - 1 else r.head - 1 := by
  have := h.head_lt
  unfold undoSlot
  split
  · next h0 => rw [h0, Nat.zero_add, Nat.mod_eq_of_lt (by omega)]
  · rw [show r.head + r.capacity - 1 = r.head - 1 + r.capacity by omega, Nat.add_mod_right,
      Nat.mod_eq_of_lt (by omega)]

@[simp] theorem undo_forget (r : Ring α) : r.forget.undo = none := rfl

theorem undo_eq_none {r : Ring α} (h : r.canUnread = false) : r.undo = none := by
  simp [undo, h]

theorem undo_eq_some {r : Ring α} (hm : r.canUnread = true) :
    r.undo = r.slots[r.undoSlot]? := by
  simp [undo, hm]

theorem isSome_undo {r : Ring α} (h : r.Valid) : r.undo.isSome = r.canUnread := by
  have hs : r.undoSlot < r.slots.length := undoSlot_lt h
  cases hm : r.canUnread with
  | false => rw [undo_eq_none hm]; rfl
  | true => rw [undo_eq_some hm, List.getElem?_eq_getElem hs]; rfl

/-- The slot of the last of `n` items consumed. -/
theorem undoSlot_consume {r : Ring α} (h : r.Valid) {n : Nat} (h0 : 0 < n) :
    (r.consume n).undoSlot = (r.head + (n - 1)) % r.capacity := by
  have hc := h.capacity_pos
  unfold undoSlot
  rw [capacity_consume]
  simp only [consume]
  rw [show (r.head + n) % r.capacity + r.capacity - 1 =
      (r.head + n) % r.capacity + (r.capacity - 1) by omega, Nat.mod_add_mod,
    show r.head + n + (r.capacity - 1) = r.head + (n - 1) + r.capacity by omega,
    Nat.add_mod_right]

variable [Inhabited α]

/-- What was consumed last lies in front of the read cursor. -/
theorem undo_consume {r : Ring α} (h : r.Valid) {n : Nat} (hn : n ≤ r.count) :
    (r.consume n).undo = (r.unread.take n).getLast? := by
  rcases Nat.eq_zero_or_pos n with rfl | h0
  · simp [undo, consume]
  · rw [undo_eq_some (by simpa [consume] using h0), undoSlot_consume h h0,
      getLast?_take_of_le h0 (by rw [length_unread]; exact hn)]
    exact getElem?_slots_unread h (by omega)

/-- Stepping back puts the item that may be given back in front of the unread ones. -/
theorem unread_unreadItem {r : Ring α} (h : r.Valid) {a : α} (ha : r.undo = some a) :
    r.unreadItem.1.unread = a :: r.unread := by
  have hm : r.canUnread = true := by rw [← isSome_undo h, ha]; rfl
  have hv : r.unreadItem.1.Valid := h.unreadItem
  have hc : r.unreadItem.1.count = r.count + 1 := by simp [unreadItem, hm]
  have hslots : r.unreadItem.1.slots = r.slots := by simp [unreadItem, hm]
  have hcap : r.unreadItem.1.capacity = r.capacity := by unfold capacity; rw [hslots]
  have hhead : r.unreadItem.1.head = r.undoSlot := by simp [unreadItem, hm, undoSlot]
  apply List.ext_getElem?
  intro i
  rcases Nat.lt_or_ge i (r.count + 1) with hi | hi
  · rw [← getElem?_slots_unread hv (by omega), hslots, hcap, hhead]
    cases i with
    | zero =>
        rw [Nat.add_zero, Nat.mod_eq_of_lt (undoSlot_lt h), ← undo_eq_some hm, ha]
        rfl
    | succ i =>
        rw [List.getElem?_cons_succ, ← getElem?_slots_unread h (by omega)]
        congr 1
        unfold undoSlot
        rw [Nat.mod_add_mod, show r.head + r.capacity - 1 + (i + 1) =
          r.head + i + r.capacity by have := h.capacity_pos; omega, Nat.add_mod_right]
  · rw [List.getElem?_eq_none (by rw [length_unread]; omega),
      List.getElem?_eq_none (by rw [List.length_cons, length_unread]; omega)]

end Ring

end Carousel
