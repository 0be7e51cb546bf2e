import Carousel.Command
import Carousel.Proofs.Offers
import Carousel.Proofs.Queue
import Carousel.Proofs.ReadFrom

/-! # Giving back the item consumed last

The item that `Ring.unreadItem` gives back lies in a free slot, and free slots are what a pull
offers its producer. `Memory` follows a run of commands beside the ring: the item consumed last,
and what a pull has left over it since. Only a pull that accepts nothing leaves the unread marker
set, so nothing else gets between the two (`Memory.step`).

`undo_of_reachable`: in every state that a new ring can be brought to, what is given back is the
item consumed last if no pull has stored over it, and what was stored otherwise. -/

namespace Carousel

variable {σ α : Type}

/-! ### What a run of commands remembers -/

/-- Whether a command takes items from the front of the ring to give them to somebody. -/
def Command.consumes : Command σ α → Bool
  | .read _ | .readItem | .value | .next _ | .readItems _ | .writeTo _ => true
  | _ => false

/-- The item consumed last, and what a pull has left in its slot since. -/
structure Memory (α : Type) where
  consumed : Option α
  stored : Option α
deriving DecidableEq, Repr

namespace Ring

/-- Whether the slots that a pull is offered end at the slot in front of the read cursor. -/
def offersUndo (r : Ring α) : Bool := r.tail < r.head || r.head = 0

variable [Inhabited α]

/-- The last item that a command consumes, if it does. -/
def lastConsumed (r : Ring α) (command : Command σ α) (after : Ring α) : Option α :=
  if command.consumes then (r.unread.take (r.count - after.count)).getLast? else none

/-- What a pull that accepts nothing leaves in the slot in front of the read cursor. -/
def storedOver (r : Ring α) (command : Command σ α) (state : σ) : Option α :=
  match command with
  | .readFrom produce limit =>
    (r.readFrom produce.recorded limit (state, .empty)).bind fun o =>
      if (acceptedOf o.state.2.calls).isEmpty && r.offersUndo then
        o.state.2.calls.getLast?.bind fun c => c.buffer.getLast?
      else none
  | _ => none

end Ring

/-- What is remembered once a command has brought the ring from `r` to `after`. -/
def Memory.step [Inhabited α] (m : Memory α) (r : Ring α) (command : Command σ α) (state : σ)
    (after : Ring α) : Memory α :=
  match r.lastConsumed command after with
  | some a => ⟨some a, none⟩
  | none => ⟨m.consumed, (r.storedOver command state).or m.stored⟩

/-- The rings that a new ring can be brought to, with what is remembered of the commands. The
foreign code of each command may have a state of its own. -/
inductive Reachable [Inhabited α] : Ring α → Memory α → Prop where
  | create (requested : Nat) : Reachable (Ring.create requested) ⟨none, none⟩
  | step {σ : Type} {r : Ring α} {m : Memory α} {command : Command σ α} {state : σ}
      {result : Result σ α} (earlier : Reachable r m)
      (performed : r.perform command state = some result) :
      Reachable result.ring (m.step r command state result.ring)

/-- What is remembered is true: if an item may be given back, one was consumed, and its slot
holds it or what was stored over it. -/
structure Remembers [Inhabited α] (r : Ring α) (m : Memory α) : Prop where
  valid : r.Valid
  undo : r.canUnread = true → ∃ a, m.consumed = some a ∧ r.undo = some (m.stored.getD a)

/-! ### Consuming -/

namespace Ring

/-- The ring `after` is `r` with some items taken from the front. -/
def Consumes (r after : Ring α) : Prop :=
  ∃ n ≤ r.count, after = r.consume n ∨ after = (r.consume n).forget

/-- How many items a command takes from the front. -/
def consumption [Inhabited α] (r : Ring α) (command : Command σ α) (state : σ) : Nat :=
  match command with
  | .read buffer => min buffer.length r.count
  | .readItem => min 1 r.count
  | .value => r.count
  | .next n => min n r.count
  | .readItems probe => (search probe state r.unread).2.elim r.count (· + 1)
  | .writeTo consumer => (takenOf (consumer.offers state r.runs)).length
  | _ => 0

/-- Whether a command is a push that stalls. -/
def stalls (r : Ring α) (command : Command σ α) (state : σ) : Bool :=
  match command with
  | .writeTo consumer => stalled (consumer.offers state r.runs)
  | _ => false

section Consumption

variable {r : Ring α} (h : r.Valid)

include h

theorem state_read (buffer : List α) :
    (r.read buffer).state = r.consume (min buffer.length r.count) := by
  unfold Ring.read
  split
  · next he => rw [List.isEmpty_iff.mp he, List.length_nil, Nat.zero_min, consume_zero h]
  · split
    · next h0 => rw [h0, Nat.min_zero, consume_zero h]
    · rfl

theorem ring_take (n : Nat) : (r.take n).1 = r.consume n := by
  unfold Ring.take
  split
  · next h0 => rw [h0, consume_zero h]
  · rfl

variable [Inhabited α]

theorem ring_readItem : r.readItem.1 = r.consume (min 1 r.count) := by
  unfold Ring.readItem
  split
  · next h0 => rw [h0, Nat.min_zero, consume_zero h]
  · next h0 => rw [Nat.min_eq_left (Nat.pos_of_ne_zero h0)]

theorem ring_readItems (probe : σ → α → σ × Bool) (state : σ) :
    (r.readItems probe state).ring =
      r.consume ((search probe state r.unread).2.elim r.count (· + 1)) := by
  by_cases h0 : r.count = 0
  · have hu : r.unread = [] := List.length_eq_zero_iff.mp (by rw [length_unread, h0])
    unfold Ring.readItems
    rw [if_pos h0, hu, ← consume_zero h]
    exact congrArg r.consume h0.symm
  · rw [readItems_eq h h0]
    rcases search probe state r.unread with ⟨later, found | i⟩ <;> rfl

theorem consumption_le (command : Command σ α) (state : σ) :
    r.consumption command state ≤ r.count := by
  cases command with
  | read buffer => exact Nat.min_le_right _ _
  | readItem => exact Nat.min_le_right _ _
  | value => exact Nat.le_refl _
  | next n => exact Nat.min_le_right _ _
  | readItems probe =>
      unfold consumption
      dsimp only
      cases hf : (search probe state r.unread).2 with
      | none => exact Nat.le_refl _
      | some i =>
          have hi := search_lt hf
          rw [length_unread] at hi
          exact hi
  | writeTo consumer => exact length_takenOf_le h consumer state
  | _ => exact Nat.zero_le _

/-- A command that consumes leaves the ring with that many items fewer, and the marker set if
there are any, but for a push that stalls. -/
theorem ring_of_consumes {command : Command σ α} {state : σ} {result : Result σ α}
    (hc : command.consumes = true) (hp : r.perform command state = some result) :
    result.ring =
      if r.stalls command state then (r.consume (r.consumption command state)).forget
      else r.consume (r.consumption command state) := by
  cases command with
  | read buffer =>
      cases hp
      exact state_read h buffer
  | readItem =>
      cases hp
      exact ring_readItem h
  | value =>
      cases hp
      exact ring_take h r.count
  | next n =>
      cases hp
      exact ring_take h (min n r.count)
  | readItems probe =>
      cases hp
      exact ring_readItems h probe state
  | writeTo consumer =>
      cases hp
      exact ring_writeTo h consumer state
  | _ => cases hc

theorem consumes_perform {command : Command σ α} {state : σ} {result : Result σ α}
    (hc : command.consumes = true) (hp : r.perform command state = some result) :
    r.Consumes result.ring := by
  refine ⟨r.consumption command state, consumption_le h command state, ?_⟩
  rw [ring_of_consumes h hc hp]
  split
  · exact .inr rfl
  · exact .inl rfl

end Consumption

/-! ### Clearing the marker -/

theorem canUnread_unreadItem (r : Ring α) : r.unreadItem.1.canUnread = false := by
  unfold Ring.unreadItem
  split
  · rfl
  · next hm => exact Bool.eq_false_iff.mpr hm

theorem canUnread_truncate [Inhabited α] (r : Ring α) (n : Nat) :
    (r.truncate n).canUnread = false := by
  unfold Ring.truncate
  split <;> rfl

/-- A seek that fails changes nothing, and every other one clears the marker. -/
theorem seek_unchanged_or_cleared (r : Ring α) (offset : Int64) (anchor : Anchor) :
    (r.seek offset anchor).1 = r ∨ (r.seek offset anchor).1.canUnread = false := by
  unfold Ring.seek
  split
  · exact .inl rfl
  · exact .inr rfl

theorem seekCode_unchanged_or_cleared (r : Ring α) (offset : Int64) (code : Int) :
    (r.seekCode offset code).1 = r ∨ (r.seekCode offset code).1.canUnread = false := by
  unfold Ring.seekCode
  split
  · exact r.seek_unchanged_or_cleared offset _
  · exact .inl rfl

/-! ### Storing in free slots -/

/-- The slots that a pull is offered end at the slot in front of the read cursor, or they do not
reach it. -/
theorem undo_touch {r : Ring α} (h : r.Valid) (hm : r.canUnread = true) {buffer : List α}
    (hb : buffer.length = r.vacancy) :
    (r.touch buffer).undo = if r.offersUndo then buffer.getLast? else r.undo := by
  have hlt := h.count_lt hm
  have hh := h.head_lt
  have htl := h.tail_lt
  have hfull : r.isFull = false := not_full_of_count_lt hlt
  have hv := tail_add_vacancy_le h
  have hslot : (r.touch buffer).undoSlot = r.undoSlot := by
    unfold undoSlot
    rw [head_touch, capacity_touch h (by rw [hfull]; exact hb)]
  have hs := undoSlot_eq h
  rw [undo_eq_some (canUnread_touch.trans hm), undo_eq_some hm, hslot, touch_of_not_full hfull]
  dsimp only
  rw [getElem?_overlay (by rw [hb]; exact hv), List.getLast?_eq_getElem?, hb]
  unfold offersUndo
  unfold vacancy at *
  -- the offered slots end in front of the read cursor, at the last slot, or short of both
  by_cases hwrap : r.tail < r.head
  · have h0 : r.head ≠ 0 := by omega
    rw [if_neg h0] at hs
    rw [if_pos hwrap] at hv
    rw [if_pos hwrap, if_neg (by omega), if_pos (by omega), if_pos (by simp [hwrap]), hs]
    congr 1
    omega
  · rw [if_neg hwrap] at hv
    rw [if_neg hwrap]
    by_cases h0 : r.head = 0
    · rw [if_pos h0] at hs
      rw [if_neg (by omega), if_pos (by omega), if_pos (by simp [h0]), hs]
      congr 1
      omega
    · rw [if_neg h0] at hs
      rw [if_pos (by omega), if_neg (by simp [hwrap, h0])]

end Ring

/-! ### What each kind of command leaves to give back -/

namespace Remembers

variable [Inhabited α] {r after : Ring α} {m : Memory α} {command : Command σ α} {state : σ}

/-- With the marker cleared there is nothing to remember. -/
theorem of_cleared (hv : after.Valid) (hc : after.canUnread = false) (m : Memory α) :
    Remembers after m := by
  refine ⟨hv, ?_⟩
  intro hm
  rw [hc] at hm
  cases hm

theorem of_consumes (h : r.Valid) (hc : command.consumes = true) (ha : r.Consumes after) :
    Remembers after (m.step r command state after) := by
  obtain ⟨n, hn, rfl | rfl⟩ := ha
  · refine ⟨h.consume hn, ?_⟩
    intro hm
    have hlast : r.lastConsumed command (r.consume n) = (r.unread.take n).getLast? := by
      unfold Ring.lastConsumed
      rw [if_pos hc, show r.count - (r.consume n).count = n from Nat.sub_sub_self hn]
    have hundo : (r.consume n).undo = r.lastConsumed command (r.consume n) :=
      (Ring.undo_consume h hn).trans hlast.symm
    have hsome : (r.consume n).undo.isSome = true := by
      rw [Ring.isSome_undo (h.consume hn), hm]
    obtain ⟨a, ha⟩ := Option.isSome_iff_exists.mp hsome
    have hstep : m.step r command state (r.consume n) = ⟨some a, none⟩ := by
      unfold Memory.step
      rw [← hundo, ha]
    rw [hstep]
    exact ⟨a, rfl, ha⟩
  · exact of_cleared (h.consume hn).forget rfl _

theorem step_of_not_consumes (m : Memory α) (r after : Ring α) (state : σ)
    (hc : command.consumes = false) :
    m.step r command state after = ⟨m.consumed, (r.storedOver command state).or m.stored⟩ := by
  unfold Memory.step Ring.lastConsumed
  rw [hc]
  rfl

/-- A command that leaves the ring as it is or clears the marker, and pulls nothing. -/
theorem of_unchanged_or_cleared (h : Remembers r m) (hv : after.Valid)
    (hc : command.consumes = false) (hs : r.storedOver command state = none)
    (ha : after = r ∨ after.canUnread = false) : Remembers after (m.step r command state after) := by
  rcases ha with rfl | hclear
  · rw [step_of_not_consumes m after after state hc, hs]
    exact h
  · exact of_cleared hv hclear _

/-- What a producer stores in the slots it is offered is given back if they end at the slot in
front of the read cursor. -/
theorem touch (h : Remembers r m) {c : Call σ α}
    (hc : c.buffer.length = if r.isFull then r.capacity else r.vacancy)
    (ha : after = r.touch c.buffer) :
    Remembers after
      ⟨m.consumed, (if r.offersUndo then (some c).bind fun c => c.buffer.getLast? else none).or
        m.stored⟩ := by
  subst ha
  refine ⟨Ring.valid_touch h.valid hc, ?_⟩
  intro hm
  rw [Ring.canUnread_touch] at hm
  have hfull : r.isFull = false := Ring.not_full_of_count_lt (h.valid.count_lt hm)
  have hb : c.buffer.length = r.vacancy := by rw [hc, hfull]; rfl
  have hne : c.buffer ≠ [] := by
    rw [← List.length_pos_iff, hb]
    exact Ring.vacancy_pos h.valid
  obtain ⟨a, ha, hundo⟩ := h.undo hm
  refine ⟨a, ha, ?_⟩
  rw [Ring.undo_touch h.valid hm hb]
  cases r.offersUndo with
  | true => simp [List.getLast?_eq_some_getLast hne]
  | false => simpa using hundo

/-- A pull leaves behind what its last call stores, if it accepts nothing. -/
theorem readFrom (h : Remembers r m) {produce : Producer σ α} {limit : Nat}
    {o : Outcome σ α Nat} (ho : r.readFrom produce limit state = some o) :
    Remembers o.ring (m.step r (.readFrom produce limit) state o.ring) := by
  have hpull := pullFrom_recorded (Pulling.start h.valid produce Observer.silent state) limit
  rw [Ring.readFrom_erase] at ho
  obtain ⟨recorded, hrecorded, rfl⟩ := Option.map_eq_some_iff.mp ho
  rw [hrecorded] at hpull
  have hstored : r.storedOver (.readFrom produce limit) state =
      if (acceptedOf recorded.state.2.calls).isEmpty && r.offersUndo then
        recorded.state.2.calls.getLast?.bind fun c => c.buffer.getLast?
      else none := by
    unfold Ring.storedOver
    dsimp only
    rw [Ring.readFrom_recorded, hrecorded]
    rfl
  change Remembers recorded.ring (m.step r (.readFrom produce limit) state recorded.ring)
  rw [step_of_not_consumes m r recorded.ring state rfl, hstored]
  rcases eq_or_ne (acceptedOf recorded.state.2.calls) [] with hnone | hsome
  · have htouched := hpull.untouched hnone
    rw [hnone, List.isEmpty_nil, Bool.true_and]
    cases hlast : recorded.state.2.calls.getLast? with
    | none =>
        rw [hlast] at htouched
        rw [show recorded.ring = r from htouched.eq, Option.bind_none, ite_self]
        exact h
    | some c =>
        rw [hlast] at htouched
        exact h.touch (htouched.fits c rfl) htouched.eq
  · exact of_cleared hpull.valid (hpull.cleared hsome) _

/-- Every command keeps what is remembered true. -/
theorem perform (h : Remembers r m) {result : Result σ α}
    (hp : r.perform command state = some result) :
    Remembers result.ring (m.step r command state result.ring) := by
  have hv := h.valid
  by_cases hc : command.consumes = true
  · exact of_consumes hv hc (Ring.consumes_perform hv hc hp)
  cases command with
  | write items =>
      cases hp
      refine h.of_unchanged_or_cleared (hv.write items) rfl rfl ?_
      rcases eq_or_ne items [] with rfl | hi
      · exact .inl rfl
      · exact .inr (r.canUnread_write hi)
  | writeItem item =>
      cases hp
      exact of_cleared (hv.writeItem item) rfl _
  | unreadItem =>
      cases hp
      exact of_cleared hv.unreadItem r.canUnread_unreadItem _
  | truncate n =>
      cases hp
      exact of_cleared (hv.truncate n) (r.canUnread_truncate n) _
  | reset =>
      cases hp
      exact of_cleared hv.reset rfl _
  | seek offset anchor =>
      cases hp
      exact h.of_unchanged_or_cleared (hv.seek offset anchor) rfl rfl
        (r.seek_unchanged_or_cleared offset anchor)
  | seekCode offset code =>
      cases hp
      exact h.of_unchanged_or_cleared (hv.seekCode offset code) rfl rfl
        (r.seekCode_unchanged_or_cleared offset code)
  | readFrom produce limit =>
      obtain ⟨o, ho, rfl⟩ := Option.map_eq_some_iff.mp hp
      exact h.readFrom ho
  | _ => exact absurd rfl hc

end Remembers

theorem Reachable.remembers [Inhabited α] {r : Ring α} {m : Memory α} (h : Reachable r m) :
    Remembers r m := by
  induction h with
  | create requested => exact .of_cleared (Ring.valid_create requested) rfl _
  | step _ hp ih => exact ih.perform hp

/-- **What is given back is the item consumed last, unless a pull has stored over it.** In every
state that a new ring can be brought to with its unread marker set, there is a slot for the item;
the slot holds it if and only if nothing else has been stored there, and the next read returns
what the slot holds. -/
theorem undo_of_reachable [Inhabited α] {r : Ring α} {m : Memory α} (h : Reachable r m)
    (hm : r.canUnread = true) :
    r.count < r.capacity ∧ ∃ a, m.consumed = some a ∧
      r.slots[r.undoSlot]? = some (m.stored.getD a) ∧
      (r.slots[r.undoSlot]? = some a ↔ ∀ b ∈ m.stored, b = a) ∧
      r.unreadItem.2 = .ok () ∧
      r.unreadItem.1.readItem.2 = .ok (m.stored.getD a) := by
  have hr := h.remembers
  obtain ⟨a, ha, hundo⟩ := hr.undo hm
  rw [Ring.undo_eq_some hm] at hundo
  have hunread : r.unreadItem = (⟨r.slots, r.undoSlot, r.count + 1, false⟩, .ok ()) := if_pos hm
  refine ⟨hr.valid.count_lt hm, a, ha, hundo, ?_, congrArg Prod.snd hunread, ?_⟩
  · rw [hundo, Option.some_inj]
    cases m.stored with
    | none => simp
    | some b => simp
  · rw [hunread]
    unfold Ring.readItem
    rw [if_neg (Nat.succ_ne_zero _)]
    dsimp only
    rw [List.getD_eq_getElem?_getD, hundo]
    rfl

theorem reachable_consumed : Reachable (⟨[1, 2], 1, 1, true⟩ : Ring Nat) ⟨some 1, none⟩ :=
  have hcreate : Reachable (⟨[0, 0], 0, 0, false⟩ : Ring Nat) ⟨none, none⟩ := .create 2
  have hwrite : Reachable (⟨[1, 2], 0, 2, false⟩ : Ring Nat) ⟨none, none⟩ :=
    hcreate.step (show Ring.perform _ (.write [1, 2] : Command Unit Nat) () = _ from rfl)
  hwrite.step (show Ring.perform _ (.readItem : Command Unit Nat) () = _ from rfl)

/-- Right after a read the item is given back. -/
theorem undo_of_reachable_consumed :
    Reachable (⟨[1, 2], 1, 1, true⟩ : Ring Nat) ⟨some 1, none⟩ ∧
      (⟨[1, 2], 1, 1, true⟩ : Ring Nat).canUnread = true ∧
      (⟨[1, 2], 1, 1, true⟩ : Ring Nat).unreadItem.1.readItem.2 = .ok 1 := by
  obtain ⟨-, a, ha, -, -, -, hread⟩ := undo_of_reachable reachable_consumed rfl
  obtain rfl : 1 = a := Option.some.inj ha
  exact ⟨reachable_consumed, rfl, hread⟩

/-- A producer that stores nines in all it is offered and then signals the end of its data. -/
def overwriting : Producer Unit Nat := fun _ buffer =>
  ⟨(), List.replicate buffer.length 9, .error .endOfData⟩

theorem reachable_stored_over : Reachable (⟨[9, 2], 1, 1, true⟩ : Ring Nat) ⟨some 1, some 9⟩ :=
  reachable_consumed.step (show Ring.perform _ (.readFrom overwriting 1) () = _ from rfl)

/-- Nothing is accepted from `overwriting`, and yet the item consumed last is lost. -/
theorem consumed_item_lost :
    ¬ ∀ (r : Ring Nat) (m : Memory Nat), Reachable r m → r.canUnread = true →
      r.slots[r.undoSlot]? = m.consumed := by
  intro h
  have hslot := h _ _ reachable_stored_over rfl
  revert hslot
  decide

end Carousel
