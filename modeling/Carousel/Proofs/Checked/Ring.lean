import Carousel.Proofs.Checked.Steps
import Carousel.Proofs.Queue

/-! # Operations of a ring in checked steps

Each operation of a ring once more, in checked steps, and beside it that no step fails: it gives
`.ok` of what the plain operation gives, for every ring that is valid and whose positions are
signed 64-bit numbers. -/

namespace Carousel

variable {σ α : Type}

/-- What a call of a producer leaves: its state, the buffer it was offered, and its answer. -/
def Delivery.left {ε : Type} (d : Delivery ε σ α) (offered : List α) :
    σ × List α × Except ε Nat :=
  (d.state, d.buffer offered, d.answer)

namespace Ring

open Checked

/-- Sums of two numbers up to the capacity are 64-bit numbers. -/
theorem Addressable.sum_lt {r : Ring α} (h : r.Addressable) {a b : Nat} (ha : a ≤ r.capacity)
    (hb : b ≤ r.capacity) : a + b < UInt64.size := by
  have hmax : Int64.maxValue.toInt = 9223372036854775807 := by decide
  have hsize : UInt64.size = 18446744073709551616 := rfl
  unfold Addressable at h
  omega

/-! ### Cursors -/

def tailChecked (r : Ring α) : Checked Nat := do
  let stop ← add r.head r.count
  rem stop r.capacity

def segmentsChecked (r : Ring α) : Checked (List α × List α) :=
  if r.count = 0 then .ok ([], [])
  else do
    let room ← sub r.capacity r.head
    if r.count ≤ room then
      let stop ← add r.head r.count
      let run ← slice r.slots r.head stop
      return (run, [])
    else
      let first ← sub r.capacity r.head
      let front ← slice r.slots r.head r.slots.length
      let left ← sub r.count first
      let back ← slice r.slots 0 left
      return (front, back)

/-- Accounts for `n` items that have been stored from the write cursor on. -/
def advanceChecked (r : Ring α) (n : Nat) : Checked (Ring α) := do
  let total ← add r.count n
  if r.capacity < total then
    let evicted ← sub total r.capacity
    let stop ← add r.head evicted
    let head ← rem stop r.capacity
    return { r with head := head, count := r.capacity }
  else return { r with count := total }

def consumeChecked (r : Ring α) (n : Nat) : Checked (Ring α) := do
  ensure (n ≤ r.count)
  let stop ← add r.head n
  let head ← rem stop r.capacity
  let count ← sub r.count n
  return { r with head := head, count := count, canUnread := 0 < n }

section

variable {r : Ring α} (h : r.Valid) (ha : r.Addressable)

include h ha

theorem tailChecked_eq : r.tailChecked = .ok r.tail := by
  have hstop := ha.sum_lt (Nat.le_of_lt h.head_lt) h.count_le
  simp only [tailChecked, add_ok hstop, ok_bind, rem_ok h.capacity_pos]
  rfl

theorem segmentsChecked_eq : r.segmentsChecked = .ok r.segments := by
  have hhead := h.head_lt
  have hcount := h.count_le
  have hcap : r.capacity = r.slots.length := rfl
  unfold segmentsChecked segments
  split
  · rfl
  · simp only [sub_ok (Nat.le_of_lt hhead), ok_bind]
    split
    · next hroom =>
        have hstop : r.head + r.count ≤ r.slots.length := by omega
        simp only [add_ok (ha.sum_lt (Nat.le_of_lt hhead) hcount), ok_bind,
          slice_ok (Nat.le_add_right _ _) hstop, Nat.add_sub_cancel_left]
        rfl
    · next hroom =>
        have hleft : r.count - (r.capacity - r.head) ≤ r.slots.length := by omega
        simp only [slice_rest (Nat.le_of_lt hhead), ok_bind,
          sub_ok (show r.capacity - r.head ≤ r.count by omega), slice_front hleft]
        rfl

theorem advanceChecked_eq {n : Nat} (hn : n ≤ r.capacity) :
    r.advanceChecked n = .ok (r.advance n) := by
  have hhead := h.head_lt
  have hcount := h.count_le
  unfold advanceChecked advance
  simp only [add_ok (ha.sum_lt hcount hn), ok_bind]
  split
  · next hover =>
      have hevicted : r.count + n - r.capacity ≤ r.capacity := by omega
      simp only [sub_ok (Nat.le_of_lt hover), ok_bind,
        add_ok (ha.sum_lt (Nat.le_of_lt hhead) hevicted), rem_ok h.capacity_pos]
      rfl
  · rfl

theorem consumeChecked_eq {n : Nat} (hn : n ≤ r.count) :
    r.consumeChecked n = .ok (r.consume n) := by
  have hcap : n ≤ r.capacity := Nat.le_trans hn h.count_le
  simp only [consumeChecked, ensure_ok hn, ok_bind,
    add_ok (ha.sum_lt (Nat.le_of_lt h.head_lt) hcap), rem_ok h.capacity_pos, sub_ok hn]
  rfl

end

/-! ### Writing -/

/-- Stores the last items over all slots, where there are at least as many items as slots. -/
def replaceChecked (r : Ring α) (tail : Nat) (items : List α) : Checked (Ring α) := do
  let skipped ← sub items.length r.capacity
  let suffix ← slice items skipped items.length
  let first ← sub r.capacity tail
  let front ← slice suffix 0 first
  let slots ← copy r.slots tail r.slots.length front
  let back ← slice suffix first suffix.length
  let slots ← copy slots 0 tail back
  return { slots := slots, head := tail, count := r.capacity, canUnread := false }

/-- Stores all items, where there are fewer of them than slots. -/
def appendChecked (r : Ring α) (tail : Nat) (items : List α) : Checked (Ring α) := do
  let room ← sub r.capacity tail
  let first := min room items.length
  let stop ← add tail first
  let front ← slice items 0 first
  let slots ← copy r.slots tail stop front
  let slots ← (if first < items.length then do
      let left ← sub items.length first
      let back ← slice items first items.length
      copy slots 0 left back
    else .ok slots)
  advanceChecked { r with slots := slots, canUnread := false } items.length

def writeChecked (r : Ring α) (items : List α) : Checked (Ring α) :=
  if items.length = 0 then .ok r
  else do
    let tail ← r.tailChecked
    if r.capacity ≤ items.length then r.replaceChecked tail items
    else r.appendChecked tail items

def writeItemChecked (r : Ring α) (item : α) : Checked (Ring α) := do
  let tail ← r.tailChecked
  let slots ← set r.slots tail item
  advanceChecked { r with slots := slots, canUnread := false } 1

theorem advance_forget (r : Ring α) (n : Nat) : r.forget.advance n = (r.advance n).forget := by
  unfold advance
  by_cases hover : r.capacity < r.count + n
  · rw [if_pos hover, if_pos (show r.forget.capacity < r.forget.count + n from hover)]
    rfl
  · rw [if_neg hover, if_neg (show ¬ r.forget.capacity < r.forget.count + n from hover)]
    rfl

section

variable {r : Ring α} (h : r.Valid) (ha : r.Addressable)

include h ha

/-- The run has been stored, and the marker is cleared before the count is. -/
theorem advanceChecked_stored {slots : List α} (hs : slots.length = r.slots.length) {n : Nat}
    (hn : n ≤ r.capacity) :
    advanceChecked { r with slots := slots, canUnread := false } n =
      .ok (advance { r with slots := slots } n).forget := by
  have hc : ({ r with slots := slots } : Ring α).capacity = r.capacity := hs
  have hv : ({ r with slots := slots } : Ring α).forget.Valid := (h.withSlots hs).forget
  have haddr : ({ r with slots := slots } : Ring α).forget.Addressable := by
    unfold Addressable
    rwa [capacity_forget, hc]
  have hstored := advanceChecked_eq hv haddr (show n ≤ _ by rwa [capacity_forget, hc])
  rw [advance_forget] at hstored
  exact hstored

omit ha in
theorem replaceChecked_eq {items : List α} (hlong : r.capacity ≤ items.length) :
    r.replaceChecked r.tail items =
      .ok ⟨splice r.slots r.tail (items.drop (items.length - r.capacity)), r.tail, r.capacity,
        false⟩ := by
  have htail := h.tail_lt
  have hcap : r.capacity = r.slots.length := rfl
  have hskipped : items.length - r.capacity ≤ items.length := Nat.sub_le _ _
  have hlength : (items.drop (items.length - r.capacity)).length = r.slots.length := by
    rw [List.length_drop]
    omega
  unfold replaceChecked
  simp only [sub_ok hlong, ok_bind, slice_rest hskipped, sub_ok (Nat.le_of_lt htail)]
  generalize items.drop (items.length - r.capacity) = suffix at hlength ⊢
  have hfirst : r.capacity - r.tail ≤ suffix.length := by omega
  have hfront : (suffix.take (r.capacity - r.tail)).length = r.slots.length - r.tail := by
    rw [List.length_take]
    omega
  have hcopy : copy r.slots r.tail r.slots.length (suffix.take (r.capacity - r.tail)) =
      .ok (overlay r.slots r.tail (suffix.take (r.capacity - r.tail))) :=
    copy_ok (Nat.le_of_lt htail) (Nat.le_refl _) hfront
  have hstored : (overlay r.slots r.tail (suffix.take (r.capacity - r.tail))).length =
      r.slots.length := length_overlay (by omega)
  have hend : r.tail ≤ (overlay r.slots r.tail (suffix.take (r.capacity - r.tail))).length := by
    omega
  have hback : (suffix.drop (r.capacity - r.tail)).length = r.tail - 0 := by
    rw [List.length_drop]
    omega
  simp only [slice_front hfirst, ok_bind, hcopy, slice_rest hfirst,
    copy_ok (Nat.zero_le _) hend hback]
  rfl

/-- Whether the items reach beyond the last slot or not, they are stored as one splice. -/
theorem appendChecked_eq {items : List α} (hshort : items.length < r.capacity) :
    r.appendChecked r.tail items = .ok ((r.store items).advance items.length).forget := by
  have htail := h.tail_lt
  have hcap : r.capacity = r.slots.length := rfl
  have hfirst : min (r.capacity - r.tail) items.length ≤ items.length := Nat.min_le_right _ _
  have hsum : r.tail + min (r.capacity - r.tail) items.length < UInt64.size :=
    ha.sum_lt (Nat.le_of_lt htail) (by omega)
  have hfront : (items.take (min (r.capacity - r.tail) items.length)).length =
      r.tail + min (r.capacity - r.tail) items.length - r.tail := by
    rw [List.length_take]
    omega
  have hstop : r.tail + min (r.capacity - r.tail) items.length ≤ r.slots.length := by omega
  have hstored : (overlay r.slots r.tail
      (items.take (min (r.capacity - r.tail) items.length))).length = r.slots.length :=
    length_overlay (by omega)
  unfold appendChecked
  simp only [sub_ok (Nat.le_of_lt htail), ok_bind, add_ok hsum, slice_front hfirst,
    copy_ok (Nat.le_add_right _ _) hstop hfront]
  split
  · next hwrap =>
      have hsplit : min (r.capacity - r.tail) items.length = r.capacity - r.tail := by omega
      rw [hsplit] at hfirst hstored ⊢
      have hback : (items.drop (r.capacity - r.tail)).length =
          items.length - (r.capacity - r.tail) - 0 := by
        rw [List.length_drop, Nat.sub_zero]
      have hleft : items.length - (r.capacity - r.tail) ≤
          (overlay r.slots r.tail (items.take (r.capacity - r.tail))).length := by omega
      simp only [sub_ok hfirst, ok_bind, slice_rest hfirst, copy_ok (Nat.zero_le _) hleft hback]
      refine advanceChecked_stored h ha ((length_overlay ?_).trans hstored) (Nat.le_of_lt hshort)
      omega
  · next hfits =>
      have hall : min (r.capacity - r.tail) items.length = items.length := by omega
      rw [hall, List.take_length] at hstored ⊢
      unfold store
      rw [← overlay_eq_splice (by omega)]
      exact advanceChecked_stored h ha hstored (Nat.le_of_lt hshort)

theorem writeChecked_eq (items : List α) : r.writeChecked items = .ok (r.write items) := by
  unfold writeChecked write
  simp only [List.isEmpty_iff, ← List.length_eq_zero_iff]
  split
  · rfl
  · simp only [tailChecked_eq h ha, ok_bind]
    split
    · next hlong => exact replaceChecked_eq h hlong
    · next hshort => exact appendChecked_eq h ha (Nat.lt_of_not_le hshort)

theorem writeItemChecked_eq (item : α) : r.writeItemChecked item = .ok (r.writeItem item) := by
  unfold writeItemChecked writeItem
  simp only [tailChecked_eq h ha, ok_bind, set_ok h.tail_lt]
  exact advanceChecked_stored h ha List.length_set h.capacity_pos

end

/-! ### Reading -/

theorem cover_eq_overlay {buffer stored : List α} (h : stored.length ≤ buffer.length) :
    cover buffer stored = overlay buffer 0 stored := by
  rw [cover, List.take_of_length_le h]

/-- Two runs, the second laid behind the first. -/
theorem cover_append {buffer first second : List α}
    (h : (first ++ second).length ≤ buffer.length) :
    cover buffer (first ++ second) = overlay (overlay buffer 0 first) first.length second := by
  rw [cover_eq_overlay h, ← overlay_append (by rwa [Nat.zero_add]), Nat.zero_add]

/-- All of the first segment and the beginning of the second. -/
theorem front_of_le {r : Ring α} {n : Nat} (h : r.segments.1.length ≤ n) :
    r.front n = r.segments.1 ++ r.segments.2.take (n - r.segments.1.length) := by
  rw [front, List.take_of_length_le h]

/-- The beginning of the first segment. -/
theorem front_of_ge {r : Ring α} {n : Nat} (h : n ≤ r.segments.1.length) :
    r.front n = r.segments.1.take n := by
  rw [front, Nat.sub_eq_zero_of_le h, List.take_zero, List.append_nil]

def readChecked (r : Ring α) (buffer : List α) :
    Checked (Ring α × List α × Except Failure Nat) :=
  if buffer.isEmpty then .ok (r.forget, buffer, .ok 0)
  else if r.count = 0 then .ok (r.forget, buffer, .error .endOfData)
  else do
    let n := min buffer.length r.count
    let runs ← r.segmentsChecked
    let first := min runs.1.length n
    let front ← slice runs.1 0 first
    let buffer ← copy buffer 0 first front
    let buffer ← (if first < n then do
        let left ← sub n first
        let back ← slice runs.2 0 left
        copy buffer first n back
      else .ok buffer)
    let after ← r.consumeChecked n
    return (after, buffer, .ok n)

def readItemChecked (r : Ring α) : Checked (Ring α × Except Failure α) :=
  if r.count = 0 then .ok (r.forget, .error .endOfData)
  else do
    let item ← get r.slots r.head
    let after ← r.consumeChecked 1
    return (after, .ok item)

def takeChecked (r : Ring α) (n : Nat) : Checked (Ring α × List α) :=
  if n = 0 then .ok (r.forget, [])
  else do
    let runs ← r.segmentsChecked
    let first := min runs.1.length n
    let front ← slice runs.1 0 first
    let items ← (if first < n then do
        let left ← sub n first
        let back ← slice runs.2 0 left
        .ok (front ++ back)
      else .ok front)
    let after ← r.consumeChecked n
    return (after, items)

def valueChecked (r : Ring α) : Checked (Ring α × List α) := r.takeChecked r.count

def nextChecked (r : Ring α) (n : Nat) : Checked (Ring α × List α) := r.takeChecked (min n r.count)

def readItemsChecked (probe : σ → α → σ × Bool) (state : σ) (r : Ring α) :
    Checked (Outcome σ α (List α)) :=
  if r.count = 0 then .ok ⟨r.forget, state, [], .error .endOfData⟩
  else do
    let runs ← r.segmentsChecked
    match search probe state runs.1 with
    | (state, some i) =>
      let items ← slice runs.1 0 i
      let beyond ← add i 1
      let consumed ← add 0 beyond
      let after ← r.consumeChecked consumed
      return ⟨after, state, [], .ok items⟩
    | (state, none) =>
      let passed ← add 0 runs.1.length
      match search probe state runs.2 with
      | (state, some i) =>
        let items ← slice runs.2 0 i
        let beyond ← add i 1
        let consumed ← add passed beyond
        let after ← r.consumeChecked consumed
        return ⟨after, state, [], .ok (runs.1 ++ items)⟩
      | (state, none) =>
        let consumed ← add passed runs.2.length
        let after ← r.consumeChecked consumed
        return ⟨after, state, [], .ok (runs.1 ++ runs.2)⟩

section

variable {r : Ring α} (h : r.Valid) (ha : r.Addressable)

include h ha

theorem readChecked_eq (buffer : List α) :
    r.readChecked buffer = .ok ((r.read buffer).left buffer) := by
  unfold readChecked read Delivery.left
  split
  · rw [Delivery.buffer, cover_nil]
  · split
    · rw [Delivery.buffer, cover_nil]
    · have hlen := length_segments h
      have hn : min buffer.length r.count ≤ r.count := Nat.min_le_right _ _
      have hb : min buffer.length r.count ≤ buffer.length := Nat.min_le_left _ _
      simp only [segmentsChecked_eq h ha, ok_bind, consumeChecked_eq h ha hn, Delivery.buffer]
      generalize min buffer.length r.count = n at hn hb ⊢
      rcases Nat.lt_or_ge r.segments.1.length n with hwrap | hfits
      · have hle : r.segments.1.length ≤ n := Nat.le_of_lt hwrap
        have hleft : n - r.segments.1.length ≤ r.segments.2.length := by omega
        have hfill : r.segments.1.length ≤ buffer.length := Nat.le_trans hle hb
        have hback : (r.segments.2.take (n - r.segments.1.length)).length =
            n - r.segments.1.length := List.length_take_of_le hleft
        have hend : n ≤ (overlay buffer 0 r.segments.1).length := by
          rw [length_overlay (by omega)]
          exact hb
        have hwhole : (r.segments.1 ++ r.segments.2.take (n - r.segments.1.length)).length ≤
            buffer.length := by
          rw [List.length_append]
          omega
        simp only [Nat.min_eq_left hle, slice_front (Nat.le_refl _), List.take_length, ok_bind,
          copy_ok (Nat.zero_le _) hfill rfl, if_pos hwrap, sub_ok hle, slice_front hleft,
          copy_ok hle hend hback]
        rw [front_of_le hle, cover_append hwhole]
        rfl
      · have hfront : (r.segments.1.take n).length = n - 0 := List.length_take_of_le hfits
        simp only [Nat.min_eq_right hfits, slice_front hfits, ok_bind,
          copy_ok (Nat.zero_le _) hb hfront, if_neg (Nat.lt_irrefl n)]
        rw [front_of_ge hfits, cover_eq_overlay (by omega)]
        rfl

theorem readItemChecked_eq [Inhabited α] : r.readItemChecked = .ok r.readItem := by
  unfold readItemChecked readItem
  split
  · rfl
  · next h0 =>
      have hitem : r.slots[r.head]? = some (r.slots.getD r.head default) := by
        rw [List.getD_eq_getElem?_getD, List.getElem?_eq_getElem h.head_lt]
        rfl
      simp only [get_ok hitem, ok_bind, consumeChecked_eq h ha (Nat.pos_of_ne_zero h0)]
      rfl

theorem takeChecked_eq {n : Nat} (hn : n ≤ r.count) : r.takeChecked n = .ok (r.take n) := by
  unfold takeChecked take
  split
  · rfl
  · have hlen := length_segments h
    simp only [segmentsChecked_eq h ha, ok_bind, consumeChecked_eq h ha hn]
    rcases Nat.lt_or_ge r.segments.1.length n with hwrap | hfits
    · have hle : r.segments.1.length ≤ n := Nat.le_of_lt hwrap
      have hleft : n - r.segments.1.length ≤ r.segments.2.length := by omega
      simp only [Nat.min_eq_left hle, slice_front (Nat.le_refl _), List.take_length, ok_bind,
        if_pos hwrap, sub_ok hle, slice_front hleft]
      rw [front_of_le hle]
      rfl
    · simp only [Nat.min_eq_right hfits, slice_front hfits, ok_bind, if_neg (Nat.lt_irrefl n)]
      rw [front_of_ge hfits]
      rfl

theorem valueChecked_eq : r.valueChecked = .ok r.value := takeChecked_eq h ha (Nat.le_refl _)

theorem nextChecked_eq (n : Nat) : r.nextChecked n = .ok (r.next n) :=
  takeChecked_eq h ha (Nat.min_le_right _ _)

theorem readItemsChecked_eq (probe : σ → α → σ × Bool) (state : σ) :
    r.readItemsChecked probe state = .ok (r.readItems probe state) := by
  have hlen := length_segments h
  have hcount := h.count_le
  have hpos := h.capacity_pos
  unfold readItemsChecked readItems
  split
  · rfl
  · simp only [segmentsChecked_eq h ha, ok_bind]
    rcases hfirst : search probe state r.segments.1 with ⟨next, _ | i⟩
    · have hpassed : 0 + r.segments.1.length < UInt64.size :=
        ha.sum_lt (Nat.zero_le _) (by omega)
      simp only [add_ok hpassed, ok_bind, Nat.zero_add]
      rcases hsecond : search probe next r.segments.2 with ⟨last, _ | i⟩
      · have hconsumed : r.segments.1.length + r.segments.2.length ≤ r.count := by omega
        simp only [add_ok (ha.sum_lt (show r.segments.1.length ≤ r.capacity by omega)
          (show r.segments.2.length ≤ r.capacity by omega)), ok_bind,
          consumeChecked_eq h ha hconsumed]
        rfl
      · have hi : i < r.segments.2.length := search_lt (by rw [hsecond])
        have hconsumed : r.segments.1.length + (i + 1) ≤ r.count := by omega
        simp only [slice_front (Nat.le_of_lt hi), ok_bind,
          add_ok (ha.sum_lt (show i ≤ r.capacity by omega) (show 1 ≤ r.capacity from hpos)),
          add_ok (ha.sum_lt (show r.segments.1.length ≤ r.capacity by omega)
            (show i + 1 ≤ r.capacity by omega)), consumeChecked_eq h ha hconsumed]
        rfl
    · have hi : i < r.segments.1.length := search_lt (by rw [hfirst])
      have hconsumed : i + 1 ≤ r.count := by omega
      simp only [slice_front (Nat.le_of_lt hi), ok_bind,
        add_ok (ha.sum_lt (show i ≤ r.capacity by omega) (show 1 ≤ r.capacity from hpos)),
        add_ok (ha.sum_lt (Nat.zero_le _) (show i + 1 ≤ r.capacity by omega)), Nat.zero_add,
        consumeChecked_eq h ha hconsumed]
      rfl

end

/-! ### Giving back and giving up -/

def unreadItemChecked (r : Ring α) : Checked (Ring α × Except Failure Unit) :=
  if r.canUnread then do
    ensure (r.count < r.capacity)
    let stop ← add r.head r.capacity
    let before ← sub stop 1
    let head ← rem before r.capacity
    let count ← add r.count 1
    return ({ r with head := head, count := count, canUnread := false }, .ok ())
  else .ok (r, .error .nothingToUnread)

def resetChecked [Inhabited α] (r : Ring α) : Checked (Ring α) := do
  let slots ← fill r.slots 0 r.slots.length default
  return ⟨slots, 0, 0, false⟩

def truncateChecked [Inhabited α] (r : Ring α) (n : Nat) : Checked (Ring α) :=
  if n = 0 ∨ r.count < n then r.resetChecked
  else do
    let room ← sub r.capacity r.head
    let first := min room n
    let stop ← add r.head first
    let slots ← fill r.slots r.head stop default
    let slots ← (if first < n then do
        let left ← sub n first
        fill slots 0 left default
      else .ok slots)
    let stop ← add r.head n
    let head ← rem stop r.capacity
    let count ← sub r.count n
    return ⟨slots, head, count, false⟩

/-! ### Moving the read cursor -/

def baseChecked (r : Ring α) : Anchor → Checked Int
  | .start => .ok 0
  | .reader => toSigned r.head
  | .writer => do
    let tail ← r.tailChecked
    toSigned tail

def moveToChecked (r : Ring α) (slot : Nat) : Checked (Ring α) :=
  if slot = r.head then .ok r
  else do
    let tail ← r.tailChecked
    let stop ← add tail r.capacity
    let span ← sub stop slot
    let count ← rem span r.capacity
    return { r with head := slot, count := count }

def seekChecked (r : Ring α) (offset : Int64) (anchor : Anchor) :
    Checked (Ring α × Except Failure Nat) := do
  let base ← r.baseChecked anchor
  let target := saturate (base + offset.toInt)
  if target < 0 then return (r, .error (.negativePosition target))
  else
    let position ← toUnsigned target
    let capacity ← cast r.capacity
    let slot ← rem position capacity
    let slot ← cast slot
    let moved ← r.moveToChecked slot
    let answer ← cast slot
    return (moved.forget, .ok answer)

def seekCodeChecked (r : Ring α) (offset : Int64) (code : Int) :
    Checked (Ring α × Except Failure Nat) :=
  match Anchor.ofCode code with
  | .ok anchor => r.seekChecked offset anchor
  | .error failure => .ok (r, .error failure)

section

variable {r : Ring α} (h : r.Valid) (ha : r.Addressable)

include h ha

theorem unreadItemChecked_eq : r.unreadItemChecked = .ok r.unreadItem := by
  unfold unreadItemChecked unreadItem
  split
  · next hm =>
      have hroom := h.count_lt hm
      have hstop : 1 ≤ r.head + r.capacity := Nat.le_add_left_of_le h.capacity_pos
      simp only [ensure_ok hroom, ok_bind,
        add_ok (ha.sum_lt (Nat.le_of_lt h.head_lt) (Nat.le_refl _)), sub_ok hstop,
        rem_ok h.capacity_pos, add_ok (ha.sum_lt h.count_le h.capacity_pos)]
      rfl
  · rfl

omit h ha in
theorem resetChecked_eq [Inhabited α] (r : Ring α) : r.resetChecked = .ok r.reset := by
  have hblank : overlay r.slots 0 (List.replicate (r.slots.length - 0) default) =
      List.replicate r.capacity default := by
    unfold overlay
    rw [List.take_zero, List.nil_append, List.length_replicate, Nat.zero_add, Nat.sub_zero,
      List.drop_length, List.append_nil]
    rfl
  unfold resetChecked
  rw [fill_ok (Nat.zero_le _) (Nat.le_refl _), ok_bind, hblank]
  rfl

theorem truncateChecked_eq [Inhabited α] (n : Nat) : r.truncateChecked n = .ok (r.truncate n) := by
  have hhead := h.head_lt
  have hcount := h.count_le
  have hcap : r.capacity = r.slots.length := rfl
  unfold truncateChecked truncate
  split
  · exact resetChecked_eq r
  · next hn =>
      have hle : n ≤ r.count := by omega
      have hfirst : min (r.capacity - r.head) n ≤ r.capacity := by omega
      have hstop : r.head + min (r.capacity - r.head) n ≤ r.slots.length := by omega
      have hsum : r.head + n < UInt64.size := ha.sum_lt (Nat.le_of_lt hhead) (by omega)
      simp only [sub_ok (Nat.le_of_lt hhead), ok_bind,
        add_ok (ha.sum_lt (Nat.le_of_lt hhead) hfirst), fill_ok (Nat.le_add_right _ _) hstop,
        Nat.add_sub_cancel_left, add_ok hsum, rem_ok h.capacity_pos, sub_ok hle]
      have hstored : (overlay r.slots r.head
          (List.replicate (min (r.capacity - r.head) n) (default : α))).length =
            r.slots.length :=
        length_overlay (by rw [List.length_replicate]; exact hstop)
      unfold splice
      simp only [List.take_replicate, List.drop_replicate, ← hcap]
      split
      · next hwrap =>
          have hsplit : min (r.capacity - r.head) n = r.capacity - r.head := by omega
          have hend : n - min (r.capacity - r.head) n ≤ (overlay r.slots r.head
              (List.replicate (min (r.capacity - r.head) n) (default : α))).length := by omega
          simp only [sub_ok (Nat.min_le_right _ _), ok_bind, fill_ok (Nat.zero_le _) hend,
            Nat.sub_zero]
          rw [hsplit]
          rfl
      · next hfits =>
          rw [Nat.sub_eq_zero_of_le (show n ≤ r.capacity - r.head by omega), List.replicate_zero,
            overlay_nil]
          rfl

theorem baseChecked_eq (anchor : Anchor) : r.baseChecked anchor = .ok (anchor.slot r : Int) := by
  have hsigned {slot : Nat} (hs : slot < r.capacity) : (slot : Int) ≤ Int64.maxValue.toInt := by
    unfold Addressable at ha
    omega
  cases anchor with
  | start => rfl
  | reader => exact toSigned_ok (hsigned h.head_lt)
  | writer =>
      unfold baseChecked
      rw [tailChecked_eq h ha, ok_bind]
      exact toSigned_ok (hsigned h.tail_lt)

theorem moveToChecked_eq {slot : Nat} (hs : slot < r.capacity) :
    r.moveToChecked slot = .ok (r.moveTo slot) := by
  unfold moveToChecked moveTo
  split
  · rfl
  · have hspan : slot ≤ r.tail + r.capacity := by omega
    simp only [tailChecked_eq h ha, ok_bind,
      add_ok (ha.sum_lt (Nat.le_of_lt h.tail_lt) (Nat.le_refl _)), sub_ok hspan,
      rem_ok h.capacity_pos]
    rfl

theorem seekChecked_eq (offset : Int64) (anchor : Anchor) :
    r.seekChecked offset anchor = .ok (r.seek offset anchor) := by
  unfold seekChecked seek
  simp only [baseChecked_eq h ha, ok_bind]
  change (if r.seekTarget offset anchor < 0 then _ else _) = _
  split
  · rfl
  · next hpos =>
      have htarget : r.seekTarget offset anchor ≤ Int64.maxValue.toInt := by
        have hmin : Int64.minValue.toInt ≤ Int64.maxValue.toInt := by decide
        unfold seekTarget saturate
        omega
      have hmax : Int64.maxValue.toInt = 9223372036854775807 := by decide
      have hsize : UInt64.size = 18446744073709551616 := rfl
      have hlt : (r.seekTarget offset anchor).toNat < UInt64.size := by omega
      have hcap : 0 + r.capacity < UInt64.size := ha.sum_lt (Nat.zero_le _) (Nat.le_refl _)
      have hslot := Nat.mod_lt (r.seekTarget offset anchor).toNat h.capacity_pos
      rw [Nat.zero_add] at hcap
      have hcast := cast_ok (Nat.lt_trans hslot hcap)
      change (toUnsigned (r.seekTarget offset anchor) >>= _) = _
      simp only [toUnsigned_ok (Int.not_lt.mp hpos) hlt, ok_bind, cast_ok hcap,
        rem_ok h.capacity_pos, hcast, moveToChecked_eq h ha hslot]
      rfl

theorem seekCodeChecked_eq (offset : Int64) (code : Int) :
    r.seekCodeChecked offset code = .ok (r.seekCode offset code) := by
  unfold seekCodeChecked seekCode
  cases Anchor.ofCode code with
  | ok anchor => exact seekChecked_eq h ha offset anchor
  | error failure => rfl

end

end Ring

end Carousel
