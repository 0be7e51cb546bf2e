import Carousel.Command
import Carousel.Proofs.Window

/-! # A ring is a bounded queue

`Queue` is a list of items and, behind the reader's back, the item given last; it knows nothing of
slots. `Queue.perform` says what each operation of a ring does to it: writes keep the last
`capacity` items, reads take from the front and remember the last item taken.

A ring represents a queue (`Ring.Represents`) if its unread items are those of the queue and its
undo slot holds the item to give back; then it represents the queue `Ring.queue`, and
`represents_iff` says that this is all there is to it. Each operation of a ring is the same
operation of its queue (`queue_consume`, `queue_write`, ...), hence so is every run of operations
(`run_agrees`). -/

namespace Carousel

variable {σ α : Type}

/-! ### The queue -/

/-- A bounded queue that remembers the item it gave last. -/
structure Queue (α : Type) where
  items : List α
  /-- The item that may be given back. -/
  undo : Option α
  /-- How far the front has moved on, modulo the capacity; only `stay` answers it. -/
  cursor : Nat

namespace Queue

/-- The operations of a ring that make a queue of it; foreign code works on a state of type `σ`. -/
inductive Action (σ α : Type) where
  | write (items : List α)
  | writeItem (item : α)
  | read (buffer : List α)
  | readItem
  | value
  | next (n : Nat)
  | readItems (probe : σ → α → σ × Bool)
  | unreadItem
  | truncate (n : Nat)
  | reset
  /-- The seek that leaves the read cursor where it is. -/
  | stay

/-- What a ring does for an action. -/
def Action.command : Action σ α → Command σ α
  | write items => .write items
  | writeItem item => .writeItem item
  | read buffer => .read buffer
  | readItem => .readItem
  | value => .value
  | next n => .next n
  | readItems probe => .readItems probe
  | unreadItem => .unreadItem
  | truncate n => .truncate n
  | reset => .reset
  | stay => .seek 0 .reader

/-- End of an action. -/
structure Reply (σ α : Type) where
  queue : Queue α
  state : σ
  answer : Except Failure (Value α)
  destination : Destination α

def empty : Queue α := ⟨[], none, 0⟩

/-- Of the old items and the new ones the last `capacity` stay. -/
def push (capacity : Nat) (q : Queue α) (items : List α) : Queue α where
  items := (q.items ++ items).rtake capacity
  undo := none
  cursor := (q.cursor + (q.items.length + min items.length capacity - capacity)) % capacity

/-- The first `n` items go, or all if there are fewer; the last of them may be given back. -/
def pop (capacity : Nat) (q : Queue α) (n : Nat) : Queue α where
  items := q.items.drop n
  undo := (q.items.take n).getLast?
  cursor := (q.cursor + min n q.items.length) % capacity

def forget (q : Queue α) : Queue α := { q with undo := none }

/-- Asks the probe about one item after the other: the items in front of the first one it picks,
and the items from that one on. -/
def cut (probe : σ → α → σ × Bool) : σ → List α → σ × List α × List α
  | state, [] => (state, [], [])
  | state, item :: items =>
    match probe state item with
    | (state, true) => (state, [], item :: items)
    | (state, false) =>
      let (state, front, rest) := cut probe state items
      (state, item :: front, rest)

/-- Carries out an action. -/
def perform (capacity : Nat) (q : Queue α) (action : Action σ α) (state : σ) : Reply σ α :=
  match action with
  | .write items =>
    ⟨if items.isEmpty then q else q.push capacity items, state, .ok (.count items.length), .nothing⟩
  | .writeItem item => ⟨q.push capacity [item], state, .ok .nothing, .nothing⟩
  | .read buffer =>
    let given := q.items.take buffer.length
    ⟨q.pop capacity buffer.length, state,
      if q.items.isEmpty && !buffer.isEmpty then .error .endOfData else .ok (.count given.length),
      .buffer (given ++ buffer.drop given.length)⟩
  | .readItem =>
    ⟨q.pop capacity 1, state,
      match q.items with
      | [] => .error .endOfData
      | item :: _ => .ok (.item item),
      .nothing⟩
  | .value => ⟨q.pop capacity q.items.length, state, .ok (.items q.items), .nothing⟩
  | .next n => ⟨q.pop capacity n, state, .ok (.items (q.items.take n)), .nothing⟩
  | .readItems probe =>
    let (state, front, _) := cut probe state q.items
    ⟨q.pop capacity (front.length + 1), state,
      if q.items.isEmpty then .error .endOfData else .ok (.items front), .nothing⟩
  | .unreadItem =>
    match q.undo with
    | none => ⟨q, state, .error .nothingToUnread, .nothing⟩
    | some item =>
      ⟨⟨item :: q.items, none, (q.cursor + capacity - 1) % capacity⟩, state, .ok .nothing,
        .nothing⟩
  | .truncate n =>
    ⟨if n = 0 ∨ q.items.length < n then empty else (q.pop capacity n).forget, state, .ok .nothing,
      .nothing⟩
  | .reset => ⟨empty, state, .ok .nothing, .nothing⟩
  | .stay => ⟨q.forget, state, .ok (.count q.cursor), .nothing⟩

/-- Carries out one action after the other. -/
def run (capacity : Nat) (q : Queue α) : List (Action σ α) → σ → List (Reply σ α)
  | [], _ => []
  | action :: actions, state =>
    let reply := q.perform capacity action state
    reply :: run capacity reply.queue actions reply.state

end Queue

namespace Ring

/-- Every position in the ring is a signed 64-bit number, as it is for any store that can be
allocated. -/
def Addressable (r : Ring α) : Prop := (r.capacity : Int) ≤ Int64.maxValue.toInt

variable [Inhabited α]

/-! ### Representation -/

/-- The ring holds the items of the queue, and the item to give back in the slot in front of its
read cursor. -/
structure Represents (r : Ring α) (q : Queue α) : Prop where
  head_lt : r.head < r.capacity
  count_le : r.count ≤ r.capacity
  unread_eq : r.unread = q.items
  canUnread_iff : r.canUnread = true ↔ ∃ a, q.undo = some a
  undo_slot : ∀ a, q.undo = some a →
    r.count < r.capacity ∧ r.slots[(r.head + r.capacity - 1) % r.capacity]? = some a
  head_eq : r.head = q.cursor

/-- The queue that a ring represents. -/
def queue (r : Ring α) : Queue α := ⟨r.unread, r.undo, r.head⟩

theorem represents_iff (r : Ring α) (q : Queue α) : r.Represents q ↔ r.Valid ∧ r.queue = q := by
  constructor
  · intro h
    have hv : r.Valid :=
      { capacity_pos := Nat.zero_lt_of_lt h.head_lt
        head_lt := h.head_lt
        count_le := h.count_le
        count_lt := fun hm => by
          obtain ⟨a, ha⟩ := h.canUnread_iff.mp hm
          exact (h.undo_slot a ha).1 }
    refine ⟨hv, ?_⟩
    have hu : r.undo = q.undo := by
      cases hq : q.undo with
      | none =>
          refine undo_eq_none (Bool.eq_false_iff.mpr fun hm => ?_)
          obtain ⟨a, ha⟩ := h.canUnread_iff.mp hm
          rw [hq] at ha
          cases ha
      | some a =>
          rw [undo_eq_some (h.canUnread_iff.mpr ⟨a, hq⟩)]
          exact (h.undo_slot a hq).2
    unfold queue
    rw [h.unread_eq, hu, h.head_eq]
  · rintro ⟨hv, rfl⟩
    refine ⟨hv.head_lt, hv.count_le, rfl, ?_, ?_, rfl⟩
    · rw [← isSome_undo hv]
      exact Option.isSome_iff_exists
    · intro a ha
      have hm : r.canUnread = true := by
        rw [← isSome_undo hv]
        exact Option.isSome_iff_exists.mpr ⟨a, ha⟩
      exact ⟨hv.count_lt hm, (undo_eq_some hm).symm.trans ha⟩

theorem Valid.represents {r : Ring α} (h : r.Valid) : r.Represents r.queue :=
  (represents_iff r r.queue).mpr ⟨h, rfl⟩

/-! ### The operations on the queue -/

@[simp] theorem length_items_queue (r : Ring α) : r.queue.items.length = r.count :=
  length_unread r

theorem isEmpty_items_queue (r : Ring α) : r.queue.items.isEmpty = decide (r.count = 0) := by
  rw [Bool.eq_iff_iff, List.isEmpty_iff_length_eq_zero, length_items_queue, decide_eq_true_iff]

theorem queue_forget (r : Ring α) : r.forget.queue = r.queue.forget := rfl

theorem queue_consume {r : Ring α} (h : r.Valid) {n : Nat} (hn : n ≤ r.count) :
    (r.consume n).queue = r.queue.pop r.capacity n := by
  unfold queue Queue.pop
  rw [unread_consume r hn, undo_consume h hn, length_unread, Nat.min_eq_left hn]
  rfl

/-- Taking nothing forgets the item to give back, and so does taking from an empty queue. -/
theorem queue_forget_eq_pop {r : Ring α} (h : r.Valid) {n : Nat} (hn : n = 0 ∨ r.count = 0) :
    r.forget.queue = r.queue.pop r.capacity n := by
  have h0 : min n r.count = 0 := by omega
  have hu : r.unread.take n = [] := by
    rw [List.take_eq_nil_iff, ← List.length_eq_zero_iff, length_unread]
    exact hn
  have hd : r.unread.drop n = r.unread := by
    rw [← List.take_append_drop n r.unread, hu, List.nil_append, List.drop_drop]
    rcases hn with rfl | hn
    · rfl
    · rw [List.length_eq_zero_iff.mp (by rw [length_unread]; exact hn : r.unread.length = 0)]
      simp
  unfold queue Queue.pop
  dsimp only
  rw [undo_forget, unread_forget, hu, hd, length_unread, h0, Nat.add_zero,
    Nat.mod_eq_of_lt h.head_lt]
  rfl

omit [Inhabited α] in
theorem head_advance {r : Ring α} (h : r.Valid) (n : Nat) :
    (r.advance n).head = (r.head + (r.count + n - r.capacity)) % r.capacity := by
  unfold advance
  split
  · rfl
  · rw [show r.count + n - r.capacity = 0 by omega, Nat.add_zero, Nat.mod_eq_of_lt h.head_lt]

theorem queue_commit {r : Ring α} (h : r.Valid) {run : List α}
    (hr : r.tail + run.length ≤ r.capacity) :
    (r.commit run).queue = r.queue.push r.capacity run := by
  have hhead : (r.commit run).head =
      (r.head + (r.count + run.length - r.capacity)) % r.capacity := by
    have := head_advance (h.withSlots (length_overlay hr)) run.length
    rwa [show ({ r with slots := overlay r.slots r.tail run } : Ring α).capacity = r.capacity
      from length_overlay hr] at this
  unfold queue Queue.push
  rw [unread_commit h hr, hhead, length_unread, Nat.min_eq_left (by omega)]
  rfl

theorem queue_writeItem {r : Ring α} (h : r.Valid) (item : α) :
    (r.writeItem item).queue = r.queue.push r.capacity [item] := by
  have hr : r.tail + [item].length ≤ r.capacity := h.tail_lt
  rw [writeItem_eq_commit h]
  exact queue_commit h hr

omit [Inhabited α] in
theorem head_write {r : Ring α} (h : r.Valid) (items : List α) :
    (r.write items).head =
      (r.head + (r.count + min items.length r.capacity - r.capacity)) % r.capacity := by
  have hc := h.count_le
  unfold write
  split
  · next he =>
      rw [List.isEmpty_iff.mp he, List.length_nil, Nat.zero_min, Nat.add_zero,
        Nat.sub_eq_zero_of_le hc, Nat.add_zero, Nat.mod_eq_of_lt h.head_lt]
  · split
    · next hge =>
        rw [Nat.min_eq_right hge, Nat.add_sub_cancel]
        rfl
    · next hlt =>
        have hlt' : items.length ≤ r.slots.length := by unfold capacity at hlt; omega
        have hl := length_splice (Nat.le_of_lt h.tail_lt) hlt'
        have ha := head_advance (h.withSlots hl) items.length
        rw [show ({ r with slots := splice r.slots r.tail items } : Ring α).capacity =
          r.capacity from hl] at ha
        rw [Nat.min_eq_left (by omega)]
        exact ha

omit [Inhabited α] in
theorem canUnread_write (r : Ring α) {items : List α} (hi : items ≠ []) :
    (r.write items).canUnread = false := by
  unfold write
  split
  · next he => exact absurd (List.isEmpty_iff.mp he) hi
  · split <;> rfl

theorem queue_write {r : Ring α} (h : r.Valid) {items : List α} (hi : items ≠ []) :
    (r.write items).queue = r.queue.push r.capacity items := by
  unfold queue Queue.push
  rw [unread_write_eq h, undo_eq_none (r.canUnread_write hi), head_write h, length_unread]

theorem queue_unreadItem {r : Ring α} (h : r.Valid) {a : α} (ha : r.undo = some a) :
    r.unreadItem.1.queue = ⟨a :: r.unread, none, (r.head + r.capacity - 1) % r.capacity⟩ := by
  have hm : r.canUnread = true := by rw [← isSome_undo h, ha]; rfl
  have hundo : r.unreadItem.1.undo = none := undo_eq_none (by simp [unreadItem, hm])
  have hhead : r.unreadItem.1.head = (r.head + r.capacity - 1) % r.capacity := by
    simp [unreadItem, hm]
  unfold queue
  rw [unread_unreadItem h ha, hundo, hhead]

theorem queue_reset (r : Ring α) : r.reset.queue = Queue.empty := rfl

theorem unread_truncate {r : Ring α} (h : r.Valid) {n : Nat} (h0 : n ≠ 0) (hn : n ≤ r.count) :
    (r.truncate n).unread = r.unread.drop n := by
  have hc := h.count_le
  have hif : ¬ (n = 0 ∨ r.count < n) := by omega
  have hl : (List.replicate n (default : α)).length ≤ r.slots.length := by
    rw [List.length_replicate]
    exact Nat.le_trans hn hc
  have hcap : (r.truncate n).capacity = r.capacity := capacity_truncate h n
  have hcount : (r.truncate n).count = r.count - n := by simp [truncate, hif]
  apply List.ext_getElem?
  intro i
  rw [List.getElem?_drop]
  rcases Nat.lt_or_ge i (r.count - n) with hi | hi
  · rw [← getElem?_slots_unread (h.truncate n) (by omega), ← getElem?_slots_unread h (by omega),
      hcap]
    unfold truncate
    rw [if_neg hif]
    dsimp only
    rw [Nat.mod_add_mod, Nat.add_assoc]
    refine getElem?_splice_of_le h.head_lt ?_ ?_
    · rw [List.length_replicate]
      omega
    · exact Nat.lt_of_lt_of_le (by omega) hc
  · rw [List.getElem?_eq_none (by rw [length_unread]; omega),
      List.getElem?_eq_none (by rw [length_unread]; omega)]

theorem queue_truncate {r : Ring α} (h : r.Valid) (n : Nat) :
    (r.truncate n).queue =
      if n = 0 ∨ r.queue.items.length < n then Queue.empty
      else (r.queue.pop r.capacity n).forget := by
  rw [length_items_queue]
  split
  · next hn =>
      unfold truncate
      rw [if_pos hn]
      rfl
  · next hn =>
      have hundo : (r.truncate n).undo = none := undo_eq_none (by simp [truncate, hn])
      have hhead : (r.truncate n).head = (r.head + n) % r.capacity := by simp [truncate, hn]
      unfold queue Queue.pop Queue.forget
      rw [unread_truncate h (by omega) (by omega), hundo, hhead, length_unread,
        Nat.min_eq_left (by omega)]

omit [Inhabited α] in
theorem seekTarget_stay {r : Ring α} (h : r.Valid) (ha : r.Addressable) :
    r.seekTarget 0 .reader = r.head := by
  have := h.head_lt
  have hmin : Int64.minValue.toInt ≤ 0 := by decide
  have hzero : (0 : Int64).toInt = 0 := by decide
  change saturate (r.head + (0 : Int64).toInt) = r.head
  unfold Addressable at ha
  unfold saturate
  rw [hzero]
  omega

omit [Inhabited α] in
/-- A seek to the read cursor moves nothing. -/
theorem seek_stay {r : Ring α} (h : r.Valid) (ha : r.Addressable) :
    r.seek 0 .reader = (r.forget, .ok r.head) := by
  unfold seek
  rw [seekTarget_stay h ha, if_neg (by omega), Int.toNat_natCast, Nat.mod_eq_of_lt h.head_lt]
  simp [moveTo]

/-! ### Reading up to an item -/

section Search

omit [Inhabited α]

variable {probe : σ → α → σ × Bool} {state later : σ} {item : α}

theorem search_of_picked (hp : probe state item = (later, true)) (items : List α) :
    search probe state (item :: items) = (later, some 0) := by
  simp [search, hp]

theorem search_of_passed (hp : probe state item = (later, false)) (items : List α) :
    search probe state (item :: items) =
      ((search probe later items).1, (search probe later items).2.map (· + 1)) := by
  simp [search, hp]

theorem search_append (probe : σ → α → σ × Bool) (state : σ) (xs ys : List α) :
    search probe state (xs ++ ys) =
      match search probe state xs with
      | (state, some i) => (state, some i)
      | (state, none) =>
        ((search probe state ys).1, (search probe state ys).2.map (xs.length + ·)) := by
  induction xs generalizing state with
  | nil => simp [search]
  | cons x xs ih =>
      rw [List.cons_append]
      rcases hp : probe state x with ⟨later, picked | picked⟩
      · rw [search_of_passed hp, search_of_passed hp, ih later]
        rcases hs : search probe later xs with ⟨last, found | i⟩
        · simp only [Option.map_none, Option.map_map, List.length_cons]
          congr 2
          funext j
          simp only [Function.comp_apply]
          omega
        · rfl
      · rw [search_of_picked hp, search_of_picked hp]

theorem cut_eq_search (probe : σ → α → σ × Bool) (state : σ) (items : List α) :
    Queue.cut probe state items =
      ((search probe state items).1,
        items.take ((search probe state items).2.getD items.length),
        items.drop ((search probe state items).2.getD items.length)) := by
  induction items generalizing state with
  | nil => rfl
  | cons item items ih =>
      rcases hp : probe state item with ⟨later, picked | picked⟩
      · rw [search_of_passed hp]
        simp only [Queue.cut, hp, ih later]
        cases (search probe later items).2 with
        | none => simp
        | some i => simp
      · rw [search_of_picked hp]
        simp [Queue.cut, hp]

end Search

/-- Where the unread items lie makes no difference to a search. -/
theorem readItems_eq {r : Ring α} (h : r.Valid) (h0 : r.count ≠ 0) (probe : σ → α → σ × Bool)
    (state : σ) :
    r.readItems probe state =
      match search probe state r.unread with
      | (state, some i) => ⟨r.consume (i + 1), state, [], .ok (r.unread.take i)⟩
      | (state, none) => ⟨r.consume r.count, state, [], .ok r.unread⟩ := by
  unfold readItems
  rw [if_neg h0, ← segments_append h, search_append]
  rcases hs : search probe state r.segments.1 with ⟨later, found | i⟩
  · rcases hs' : search probe later r.segments.2 with ⟨last, found | i⟩
    · simp only [hs', Option.map_none, length_segments h]
    · simp only [hs', Option.map_some, List.take_length_add_append, Nat.add_assoc]
  · have hi := search_lt (congrArg Prod.snd hs)
    dsimp only
    rw [List.take_append_of_le_length (Nat.le_of_lt hi)]

/-! ### Runs -/

/-- What a queue's reply foretells of a ring's result. -/
structure Agrees (result : Result σ α) (reply : Queue.Reply σ α) : Prop where
  represents : result.ring.Represents reply.queue
  state_eq : result.state = reply.state
  answer_eq : result.answer = reply.answer.mapError .failure
  destination_eq : result.destination = reply.destination

omit [Inhabited α] in
theorem cover_eq_append {buffer stored : List α} (h : stored.length ≤ buffer.length) :
    cover buffer stored = stored ++ buffer.drop stored.length := by
  unfold cover overlay
  rw [List.take_of_length_le h, List.take_zero, List.nil_append, Nat.zero_add]

omit [Inhabited α] in
theorem pop_min (capacity : Nat) (q : Queue α) (n : Nat) :
    q.pop capacity (min n q.items.length) = q.pop capacity n := by
  rcases Nat.le_total n q.items.length with hn | hn
  · rw [Nat.min_eq_left hn]
  · unfold Queue.pop
    rw [Nat.min_eq_right hn, Nat.min_self, List.drop_length, List.take_length,
      List.drop_of_length_le hn, List.take_of_length_le hn]

theorem queue_take {r : Ring α} (h : r.Valid) {n : Nat} (hn : n ≤ r.count) :
    (r.take n).1.queue = r.queue.pop r.capacity n := by
  unfold Ring.take
  split
  · next h0 => exact queue_forget_eq_pop h (.inl h0)
  · exact queue_consume h hn

theorem take_items {r : Ring α} (h : r.Valid) (n : Nat) : (r.take n).2 = r.unread.take n := by
  unfold Ring.take
  split
  · next h0 => rw [h0, List.take_zero]
  · exact front_eq_take h n

theorem agrees_next {r : Ring α} (h : r.Valid) (n : Nat) (state : σ) :
    Agrees (Result.quiet state (r.next n).1 (.ok (.items (r.next n).2)))
      (r.queue.perform r.capacity (.next n) state) := by
  have hn : min n r.count ≤ r.count := Nat.min_le_right _ _
  have hq : (r.next n).1.queue = r.queue.pop r.capacity n := by
    rw [← pop_min, length_items_queue]
    exact queue_take h hn
  have hi : (r.next n).2 = r.unread.take n := by
    unfold next
    rw [take_items h, ← length_unread r, List.take_eq_take_min.symm]
  exact ⟨(represents_iff _ _).mpr ⟨h.take hn, hq⟩, rfl, by rw [hi]; rfl, rfl⟩

theorem agrees_value {r : Ring α} (h : r.Valid) (state : σ) :
    Agrees (Result.quiet state r.value.1 (.ok (.items r.value.2)))
      (r.queue.perform r.capacity .value state) := by
  have hq : r.value.1.queue = r.queue.pop r.capacity r.queue.items.length := by
    rw [length_items_queue]
    exact queue_take h (Nat.le_refl _)
  have hi : r.value.2 = r.unread := by
    unfold value
    rw [take_items h, ← length_unread r, List.take_length]
  exact ⟨(represents_iff _ _).mpr ⟨h.take (Nat.le_refl _), hq⟩, rfl, by rw [hi]; rfl, rfl⟩

theorem agrees_readItem {r : Ring α} (h : r.Valid) (state : σ) :
    Agrees (Result.quiet state r.readItem.1 (r.readItem.2.map .item))
      (r.queue.perform r.capacity .readItem state) := by
  by_cases h0 : r.count = 0
  · have hr : r.readItem = (r.forget, .error .endOfData) := if_pos h0
    have hu : r.queue.items = [] := List.length_eq_zero_iff.mp (by rw [length_items_queue]; exact h0)
    rw [hr]
    refine ⟨(represents_iff _ _).mpr ⟨h.forget, queue_forget_eq_pop h (.inr h0)⟩, rfl, ?_, rfl⟩
    simp only [Queue.perform, hu]
    rfl
  · obtain ⟨item, items, hu⟩ : ∃ item items, r.queue.items = item :: items :=
      List.exists_cons_of_length_pos (by rw [length_items_queue]; omega)
    rw [readItem_eq h hu]
    refine ⟨(represents_iff _ _).mpr ⟨h.consume (by omega), queue_consume h (by omega)⟩, rfl, ?_,
      rfl⟩
    simp only [Queue.perform, hu]
    rfl

theorem agrees_read {r : Ring α} (h : r.Valid) (buffer : List α) (state : σ) :
    Agrees { Result.quiet state (r.read buffer).state ((r.read buffer).answer.map .count) with
        destination := .buffer ((r.read buffer).buffer buffer) }
      (r.queue.perform r.capacity (.read buffer) state) := by
  have hv := h.read buffer
  by_cases hb : buffer = []
  · subst hb
    refine ⟨(represents_iff _ _).mpr ⟨hv, queue_forget_eq_pop h (.inl rfl)⟩, rfl, ?_, rfl⟩
    simp [Queue.perform, read, Result.quiet, Except.map, Except.mapError]
  by_cases h0 : r.count = 0
  · have hr : r.read buffer = ⟨r.forget, [], .error .endOfData⟩ := by
      unfold read
      rw [if_neg (by simpa using hb), if_pos h0]
    have hu : r.queue.items = [] := List.length_eq_zero_iff.mp (by rw [length_items_queue]; exact h0)
    rw [hr] at hv ⊢
    refine ⟨(represents_iff _ _).mpr ⟨hv, queue_forget_eq_pop h (.inr h0)⟩, rfl, ?_, ?_⟩
    · simp [Queue.perform, hu, hb, Result.quiet, Except.map, Except.mapError]
    · simp [Queue.perform, hu, Delivery.buffer]
  · have hn : min buffer.length r.count ≤ r.count := Nat.min_le_right _ _
    have hr : r.read buffer = ⟨r.consume (min buffer.length r.count),
        r.front (min buffer.length r.count), .ok (min buffer.length r.count)⟩ := by
      unfold read
      rw [if_neg (by simpa using hb), if_neg h0]
    have hf : r.front (min buffer.length r.count) = r.queue.items.take buffer.length := by
      rw [front_eq_take h, ← length_unread r, ← List.take_eq_take_min]
      rfl
    have hl : (r.queue.items.take buffer.length).length = min buffer.length r.count := by
      rw [List.length_take, length_items_queue]
    have hq : (r.consume (min buffer.length r.count)).queue =
        r.queue.pop r.capacity buffer.length := by
      rw [← pop_min, length_items_queue]
      exact queue_consume h hn
    rw [hr] at hv ⊢
    refine ⟨(represents_iff _ _).mpr ⟨hv, hq⟩, rfl, ?_, ?_⟩
    · simp only [Queue.perform, isEmpty_items_queue, h0, hl]
      rfl
    · simp only [Queue.perform, Delivery.buffer, hf]
      rw [cover_eq_append (by rw [hl]; exact Nat.min_le_left _ _)]

omit [Inhabited α] in
theorem perform_readItems (capacity : Nat) (q : Queue α) (probe : σ → α → σ × Bool) (state : σ) :
    q.perform capacity (.readItems probe) state =
      match search probe state q.items with
      | (state, some i) =>
        ⟨q.pop capacity (i + 1), state, .ok (.items (q.items.take i)), .nothing⟩
      | (state, none) =>
        ⟨q.pop capacity q.items.length, state,
          if q.items.isEmpty then .error .endOfData else .ok (.items q.items), .nothing⟩ := by
  dsimp only [Queue.perform]
  rw [cut_eq_search]
  rcases hs : search probe state q.items with ⟨later, found | i⟩
  · have hp : q.pop capacity (q.items.length + 1) = q.pop capacity q.items.length := by
      rw [← pop_min, Nat.min_eq_right (Nat.le_succ _)]
    dsimp only [Option.getD_none]
    rw [List.take_length, hp]
  · have hi : i < q.items.length := search_lt (congrArg Prod.snd hs)
    have he : q.items.isEmpty = false := by
      rw [List.isEmpty_eq_false_iff, ← List.length_pos_iff]
      omega
    dsimp only [Option.getD_some]
    rw [List.length_take, Nat.min_eq_left (Nat.le_of_lt hi), he]
    rfl

theorem agrees_readItems {r : Ring α} (h : r.Valid) (probe : σ → α → σ × Bool) (state : σ) :
    Agrees (Result.ofOutcome .items (r.readItems probe state))
      (r.queue.perform r.capacity (.readItems probe) state) := by
  rw [perform_readItems]
  by_cases h0 : r.count = 0
  · have hu : r.queue.items = [] := List.length_eq_zero_iff.mp (by rw [length_items_queue]; exact h0)
    have hr : r.readItems probe state = ⟨r.forget, state, [], .error .endOfData⟩ := if_pos h0
    rw [hr, hu]
    exact ⟨(represents_iff _ _).mpr ⟨h.forget, queue_forget_eq_pop h (.inr h0)⟩, rfl, rfl, rfl⟩
  · rw [readItems_eq h h0]
    rcases hs : search probe state r.unread with ⟨later, found | i⟩
    · rw [show search probe state r.queue.items = (later, none) from hs]
      have hq : (r.consume r.count).queue = r.queue.pop r.capacity r.queue.items.length := by
        rw [length_items_queue]
        exact queue_consume h (Nat.le_refl _)
      refine ⟨(represents_iff _ _).mpr ⟨h.consume (Nat.le_refl _), hq⟩, rfl, ?_, rfl⟩
      simp only [isEmpty_items_queue, h0]
      rfl
    · rw [show search probe state r.queue.items = (later, some i) from hs]
      have hi : i < r.count := by
        rw [← length_unread r]
        exact search_lt (congrArg Prod.snd hs)
      exact ⟨(represents_iff _ _).mpr ⟨h.consume hi, queue_consume h hi⟩, rfl, rfl, rfl⟩

theorem agrees_unreadItem {r : Ring α} (h : r.Valid) (state : σ) :
    Agrees (Result.quiet state r.unreadItem.1 (r.unreadItem.2.map fun _ => .nothing))
      (r.queue.perform r.capacity .unreadItem state) := by
  cases ha : r.undo with
  | none =>
      have hm : r.canUnread = false := by rw [← isSome_undo h, ha]; rfl
      have hr : r.unreadItem = (r, .error .nothingToUnread) := by simp [unreadItem, hm]
      rw [hr]
      have hp : (r.queue.perform r.capacity .unreadItem state : Queue.Reply σ α) =
          ⟨r.queue, state, .error .nothingToUnread, .nothing⟩ := by
        simp [Queue.perform, queue, ha]
      rw [hp]
      exact ⟨h.represents, rfl, rfl, rfl⟩
  | some item =>
      have hm : r.canUnread = true := by rw [← isSome_undo h, ha]; rfl
      have hp : (r.queue.perform r.capacity .unreadItem state : Queue.Reply σ α) =
          ⟨⟨item :: r.unread, none, (r.head + r.capacity - 1) % r.capacity⟩, state, .ok .nothing,
            .nothing⟩ := by
        simp [Queue.perform, queue, ha]
      rw [hp]
      refine ⟨(represents_iff _ _).mpr ⟨h.unreadItem, queue_unreadItem h ha⟩, rfl, ?_, rfl⟩
      simp [unreadItem, hm, Result.quiet, Except.map, Except.mapError]

theorem agrees_stay {r : Ring α} (h : r.Valid) (ha : r.Addressable) (state : σ) :
    Agrees (Result.quiet state (r.seek 0 .reader).1 ((r.seek 0 .reader).2.map .count))
      (r.queue.perform r.capacity .stay state) := by
  rw [seek_stay h ha]
  exact ⟨(represents_iff _ _).mpr ⟨h.forget, r.queue_forget⟩, rfl, rfl, rfl⟩

/-- What an action does to a ring, it does to the queue of the ring. -/
theorem perform_agrees {r : Ring α} (h : r.Valid) (action : Queue.Action σ α) (state : σ)
    (ha : action = .stay → r.Addressable) :
    ∃ result, r.perform action.command state = some result ∧
      result.ring.capacity = r.capacity ∧
      Agrees result (r.queue.perform r.capacity action state) := by
  cases action with
  | write items =>
      refine ⟨_, rfl, capacity_write h items, ?_, rfl, rfl, rfl⟩
      refine (represents_iff _ _).mpr ⟨h.write items, ?_⟩
      simp only [Queue.perform, Result.quiet]
      split
      · next he => rw [List.isEmpty_iff.mp he]; rfl
      · next he => exact queue_write h (by simpa using he)
  | writeItem item =>
      refine ⟨_, rfl, capacity_writeItem r item, ?_, rfl, rfl, rfl⟩
      exact (represents_iff _ _).mpr ⟨h.writeItem item, queue_writeItem h item⟩
  | read buffer => exact ⟨_, rfl, capacity_read r buffer, agrees_read h buffer state⟩
  | readItem => exact ⟨_, rfl, capacity_readItem r, agrees_readItem h state⟩
  | value => exact ⟨_, rfl, capacity_take r r.count, agrees_value h state⟩
  | next n => exact ⟨_, rfl, capacity_take r (min n r.count), agrees_next h n state⟩
  | readItems probe =>
      exact ⟨_, rfl, capacity_readItems r probe state, agrees_readItems h probe state⟩
  | unreadItem => exact ⟨_, rfl, capacity_unreadItem r, agrees_unreadItem h state⟩
  | truncate n =>
      refine ⟨_, rfl, capacity_truncate h n, ?_, rfl, rfl, rfl⟩
      exact (represents_iff _ _).mpr ⟨h.truncate n, queue_truncate h n⟩
  | reset =>
      refine ⟨_, rfl, r.capacity_reset, ?_, rfl, rfl, rfl⟩
      exact (represents_iff _ _).mpr ⟨h.reset, r.queue_reset⟩
  | stay => exact ⟨_, rfl, r.capacity_seek 0 .reader, agrees_stay h (ha rfl) state⟩

/-- **A ring is a bounded queue**: from a ring and a queue that it represents on, every run of
actions gives on both sides the same answers, destinations and unread items, and each ring on the
way represents the queue at that point. -/
theorem run_agrees {r : Ring α} {q : Queue α} (h : r.Represents q)
    (actions : List (Queue.Action σ α)) (state : σ) (ha : .stay ∈ actions → r.Addressable) :
    ∃ results, r.run (actions.map Queue.Action.command) state = some results ∧
      List.Forall₂ Agrees results (q.run r.capacity actions state) := by
  obtain ⟨hv, rfl⟩ := (represents_iff r q).mp h
  clear h
  induction actions generalizing r state with
  | nil => exact ⟨[], rfl, .nil⟩
  | cons action actions ih =>
      obtain ⟨result, hp, hc, hr⟩ := perform_agrees hv action state fun he =>
        ha (he ▸ List.mem_cons_self)
      obtain ⟨hv', hq⟩ := (represents_iff _ _).mp hr.represents
      have ha' : .stay ∈ actions → result.ring.Addressable := fun he => by
        unfold Addressable
        rw [hc]
        exact ha (List.mem_cons_of_mem _ he)
      obtain ⟨results, hrun, hall⟩ := ih result.state ha' hv'
      refine ⟨result :: results, ?_, ?_⟩
      · rw [List.map_cons, run, hp, Option.bind_some, hrun]
        rfl
      · rw [hq, hc, hr.state_eq] at hall
        exact .cons hr hall

/-- A ring whose unread items go on at slot 0 and whose last item may be given back. -/
theorem run_agrees_wrapped :
    (⟨[5, 6, 7], 2, 2, true⟩ : Ring Nat).Represents ⟨[7, 5], some 6, 2⟩ ∧
      ∃ results,
        (⟨[5, 6, 7], 2, 2, true⟩ : Ring Nat).run
          ([.unreadItem, .write [8, 9], .read [0, 0], .stay, .next 4].map
            Queue.Action.command) () = some results ∧
        List.Forall₂ Agrees results
          ((⟨[7, 5], some 6, 2⟩ : Queue Nat).run 3
            [.unreadItem, .write [8, 9], .read [0, 0], .stay, .next 4] ()) := by
  have h : (⟨[5, 6, 7], 2, 2, true⟩ : Ring Nat).Represents ⟨[7, 5], some 6, 2⟩ :=
    { head_lt := by decide
      count_le := by decide
      unread_eq := by decide
      canUnread_iff := by simp
      undo_slot := fun a ha => ⟨by decide, ha ▸ rfl⟩
      head_eq := rfl }
  exact ⟨h, run_agrees h _ () fun _ => show (3 : Int) ≤ Int64.maxValue.toInt by decide⟩

end Ring

end Carousel
