import Carousel.Proofs.Erasure
import Carousel.Proofs.Intake
import Carousel.Proofs.ReadFrom

/-! # The slots that a producer is offered

A run of slots from the write cursor on is spare (`Ring.Spare`) if it lies within the storage and
none of its slots holds an unread item. The slots that a producer is offered are the longest spare
run (`Ring.spare_iff`): behind them the storage ends, or the read cursor stands on an unread item
(`Ring.end_of_vacancy`).

So a producer cannot touch an unread item, and what it stores is appended to the unread items once
it is accounted for: nothing is given up, and the read cursor stays (`Ring.Extended`). This holds
of accounting for any part of the run (`Ring.extended_advance`), and of a call of a pull, whatever
the producer stores and answers (`Ring.extended_pullOnce`). -/

namespace Carousel

variable {σ α : Type}

namespace Ring

/-! ### Spare slots -/

/-- The slot holds an unread item. -/
def Occupied (r : Ring α) (slot : Nat) : Prop := r.InFront r.count slot

instance (r : Ring α) (slot : Nat) : Decidable (r.Occupied slot) :=
  inferInstanceAs (Decidable (r.InFront r.count slot))

/-- The `n` slots from the write cursor on are there, and none of them holds an unread item. -/
def Spare (r : Ring α) (n : Nat) : Prop :=
  r.tail + n ≤ r.capacity ∧ ∀ j < n, ¬ r.Occupied (r.tail + j)

instance (r : Ring α) (n : Nat) : Decidable (r.Spare n) :=
  inferInstanceAs (Decidable (r.tail + n ≤ r.capacity ∧ ∀ j < n, ¬ r.Occupied (r.tail + j)))

/-- A ring with a free slot is valid if its read cursor is within the storage. -/
theorem valid_of_lt {r : Ring α} (hh : r.head < r.capacity) (hc : r.count < r.capacity) :
    r.Valid where
  capacity_pos := Nat.zero_lt_of_lt hc
  head_lt := hh
  count_le := Nat.le_of_lt hc
  count_lt _ := hc

section Spare

variable {r : Ring α} (h : r.Valid) (hc : r.count < r.capacity)

include h hc

theorem spare_vacancy : r.Spare r.vacancy := by
  constructor
  · exact tail_add_vacancy_le h
  · rintro j hj ⟨i, hi, hslot⟩
    have hvacant := slot_not_vacant h hc hi
    omega

/-- Behind the slots that are offered the storage ends, or an unread item lies there. -/
theorem end_of_vacancy :
    r.tail + r.vacancy = r.capacity ∨ r.Occupied (r.tail + r.vacancy) := by
  rcases vacancy_cases h hc with ⟨-, hend⟩ | ⟨htail, hend⟩
  · left
    exact hend
  · right
    -- the unread items reach beyond the last slot, so there is one at the read cursor
    have hh := h.head_lt
    have hpos : 0 < r.count := by omega
    rw [hend]
    exact ⟨0, hpos, Nat.mod_eq_of_lt hh⟩

theorem spare_iff (n : Nat) : r.Spare n ↔ n ≤ r.vacancy := by
  constructor
  · rintro ⟨hwithin, hfree⟩
    by_contra hn
    rcases end_of_vacancy h hc with hend | hoccupied
    · omega
    · exact hfree r.vacancy (by omega) hoccupied
  · intro hn
    obtain ⟨hwithin, hfree⟩ := spare_vacancy h hc
    constructor
    · omega
    · intro j hj
      exact hfree j (by omega)

end Spare

/-! ### Storing in them -/

/-- `after` is the ring with `items` stored from the write cursor on and appended to its unread
items; nothing is given up for them, and no slot has changed but those that a producer is
offered. -/
structure Extended [Inhabited α] (r after : Ring α) (items : List α) : Prop where
  head_eq : after.head = r.head
  unread_eq : after.unread = r.unread ++ items
  stored : window after.slots r.tail items.length = items
  capacity_eq : after.capacity = r.capacity
  kept : ∀ slot, slot < r.tail ∨ r.tail + r.vacancy ≤ slot → after.slots[slot]? = r.slots[slot]?

/-- The marker has no part in it. -/
theorem Extended.forget [Inhabited α] {r after : Ring α} {items : List α}
    (h : r.Extended after items) : r.Extended after.forget items :=
  ⟨h.head_eq, h.unread_eq, h.stored, h.capacity_eq, h.kept⟩

/-- Accounting for items that fit is not reported, and it only counts them. -/
theorem advance_of_le {r : Ring α} {n : Nat} (hn : r.count + n ≤ r.capacity) :
    r.overflow n = [] ∧ r.advance n = { r with count := r.count + n } := by
  constructor
  · exact if_neg (Nat.not_lt_of_le hn)
  · exact if_neg (Nat.not_lt_of_le hn)

section Storing

variable {r : Ring α} (h : r.Valid) {stored : List α} (hs : stored.length = r.vacancy)

include h hs

theorem stored_within : r.tail + stored.length ≤ r.slots.length := by
  rw [hs]
  exact tail_add_vacancy_le h

variable (hf : r.isFull = false)

include hf

theorem store_eq_touch : r.store stored = r.touch stored := by
  rw [touch_of_not_full hf, store, overlay_eq_splice (stored_within h hs)]

theorem getElem?_touch_of_kept {slot : Nat} (hk : slot < r.tail ∨ r.tail + r.vacancy ≤ slot) :
    (r.touch stored).slots[slot]? = r.slots[slot]? := by
  rw [touch_of_not_full hf]
  dsimp only
  rw [getElem?_overlay (stored_within h hs)]
  split
  · rfl
  · rw [if_neg (by omega)]

theorem window_touch {n : Nat} (hn : n ≤ r.vacancy) :
    window (r.touch stored).slots r.tail n = stored.take n := by
  have hfront (slots : List α) :
      window slots r.tail n = (window slots r.tail stored.length).take n := by
    unfold window
    rw [List.take_take, Nat.min_eq_left (by omega)]
  rw [touch_of_not_full hf, hfront, window_overlay (stored_within h hs)]

theorem advance_touch {n : Nat} (hn : n ≤ r.vacancy) :
    (r.touch stored).overflow n = [] ∧
      (r.touch stored).advance n = { r.touch stored with count := r.count + n } := by
  have hb : stored.length = if r.isFull then r.capacity else r.vacancy := by rw [hf, hs]; rfl
  have hfree := count_add_vacancy_le h (count_lt_of_not_full h hf)
  have hfit : (r.touch stored).count + n ≤ (r.touch stored).capacity := by
    rw [count_touch, capacity_touch h hb]
    omega
  have hadvance := advance_of_le hfit
  rwa [count_touch] at hadvance

/-- The first `n` of the items stored in the slots that a producer is offered, once they are
accounted for. -/
theorem extended_advance [Inhabited α] {n : Nat} (hn : n ≤ r.vacancy) :
    r.Extended ((r.touch stored).advance n) (stored.take n) := by
  have hb : stored.length = if r.isFull then r.capacity else r.vacancy := by rw [hf, hs]; rfl
  have hcap := capacity_touch h hb
  have hend := tail_add_vacancy_le h
  have hfree := count_add_vacancy_le h (count_lt_of_not_full h hf)
  have hl : (stored.take n).length = n := by
    rw [List.length_take]
    omega
  obtain ⟨-, hadvance⟩ := advance_touch h hs hf hn
  refine ⟨?_, ?_, ?_, ?_, ?_⟩
  · rw [hadvance]
    exact head_touch
  · have hrun : (r.touch stored).tail + (stored.take n).length ≤ (r.touch stored).capacity := by
      rw [tail_touch h hb, hcap, hl]
      omega
    have hcommit := unread_commit (valid_touch h hb) hrun
    rw [commit_touch h hf hs hn, unread_forget, unread_touch h hb, hcap] at hcommit
    rw [hcommit]
    apply rtake_of_length_le
    rw [List.length_append, length_unread, hl]
    omega
  · rw [hadvance, hl]
    exact window_touch h hs hf hn
  · rw [capacity_advance, hcap]
  · intro slot hk
    rw [hadvance]
    exact getElem?_touch_of_kept h hs hf hk

end Storing

/-! ### Calls of a pull -/

section Calls

variable [Inhabited α] {r : Ring α} (h : r.Valid) (hf : r.isFull = false)

include h hf

/-- What is accepted of a call that fills free slots is one run at most, and the ring is extended
by it. -/
theorem extended_commits {c : Call σ α} (ho : c.offered.length = r.vacancy) :
    ((r.touch c.buffer).lapsOf c.chunk).length ≤ 1 ∧
      r.Extended ((r.touch c.buffer).commits ((r.touch c.buffer).lapsOf c.chunk)) c.chunk := by
  have hs : c.buffer.length = r.vacancy := c.length_buffer.trans ho
  have hb : c.buffer.length = if r.isFull then r.capacity else r.vacancy := by rw [hf, hs]; rfl
  have hle : c.chunk.length ≤ r.vacancy := ho ▸ c.length_chunk_le
  have hchunk : c.chunk = c.buffer.take c.chunk.length :=
    List.prefix_iff_eq_take.mp c.chunk_prefix
  have hextended := extended_advance h hs hf hle
  rw [← hchunk] at hextended
  rcases eq_or_ne c.chunk [] with hnil | hne
  · have hzero : (r.touch c.buffer).advance 0 = r.touch c.buffer :=
      (advance_of_le (valid_touch h hb).count_le).2
    rw [hnil, List.length_nil, hzero] at hextended
    rw [hnil, lapsOf_nil]
    exact ⟨Nat.zero_le 1, hextended⟩
  · have hend := tail_add_vacancy_le h
    have hroom : c.chunk.length ≤ (r.touch c.buffer).capacity - (r.touch c.buffer).tail := by
      rw [capacity_touch h hb, tail_touch h hb]
      omega
    have hcommit := commit_touch h hf hs hle
    rw [← hchunk] at hcommit
    rw [lapsOf_of_le hne hroom]
    refine ⟨Nat.le_refl 1, ?_⟩
    change r.Extended ((r.touch c.buffer).commit c.chunk) c.chunk
    rw [hcommit]
    exact hextended.forget

/-- The call that a pull makes, and what it leaves. -/
theorem extended_pullOnce (produce : Producer σ α) (watch : Observer σ α) (state : σ)
    (staging : List α) {c : Call σ α} (hcall : r.call produce state staging = c) :
    (r.pullOnce produce.recorded watch.recorded (state, .empty) staging).1.state.2.calls = [c] ∧
      r.Extended (r.pullOnce produce watch state staging).1.ring c.chunk := by
  have ho : c.offered.length = r.vacancy := by
    have hoffer := offer_of_not_full hf staging
    rw [← hcall]
    exact (congrArg List.length hoffer).trans (length_window (tail_add_vacancy_le h))
  obtain ⟨hone, hextended⟩ := extended_commits h hf ho
  obtain ⟨final, shown, hpresented, hsettle, -⟩ :=
    settle_recorded produce watch r state .empty staging hcall
  have hrecorded := pullOnce_eq h produce.recorded watch.recorded (state, .empty) staging
  rw [hsettle, hpresented.runsOf_eq_of_length_le hone] at hrecorded
  have hring := congrArg Outcome.ring
    (pullOnce_erase produce.recorded_erases watch.recorded_erases (state, .empty) r staging)
  rw [hrecorded] at hring ⊢
  constructor
  · rfl
  · rw [← hring]
    exact hextended

end Calls

/-- **A producer is offered the longest run of slots in which it can do no harm.** As long as a
slot is free, the run is not empty, it lies within the storage from the write cursor on, and no
unread item lies in it; any longer run leaves the storage or reaches an unread item.

So storing in the run and accounting for any part of it gives up nothing, and reports nothing
given up; it leaves the read cursor and appends what was stored to the unread items. A call of a
pull offers a producer this run, and leaves the ring extended by what it accepts, whatever the
producer stores and answers. -/
theorem vacancy_is_longest [Inhabited α] {r : Ring α} (hh : r.head < r.capacity)
    (hc : r.count < r.capacity) :
    0 < r.vacancy ∧ (∀ n, r.Spare n ↔ n ≤ r.vacancy) ∧
      (r.tail + r.vacancy = r.capacity ∨ r.Occupied (r.tail + r.vacancy)) ∧
      (∀ stored : List α, stored.length = r.vacancy → ∀ n ≤ r.vacancy,
        (r.store stored).overflow n = [] ∧
          (r.store stored).advance n = { r.store stored with count := r.count + n } ∧
          r.Extended ((r.store stored).advance n) (stored.take n)) ∧
      ∀ (σ : Type) (produce : Producer σ α) (watch : Observer σ α) (state : σ)
        (staging : List α),
        let c : Call σ α := ⟨window r.slots r.tail r.vacancy,
          produce state (window r.slots r.tail r.vacancy)⟩
        (r.pullOnce produce.recorded watch.recorded (state, .empty) staging).1.state.2.calls =
            [c] ∧
          r.Extended (r.pullOnce produce watch state staging).1.ring c.chunk := by
  have h := valid_of_lt hh hc
  have hf := not_full_of_count_lt hc
  refine ⟨vacancy_pos h, spare_iff h hc, end_of_vacancy h hc, ?_, ?_⟩
  · intro stored hs n hn
    obtain ⟨hquiet, hadvance⟩ := advance_touch h hs hf hn
    rw [store_eq_touch h hs hf]
    exact ⟨hquiet, hadvance, extended_advance h hs hf hn⟩
  · intro σ produce watch state staging c
    have hcall : r.call produce state staging = c := by
      unfold call
      rw [offer_of_not_full hf]
    exact extended_pullOnce h hf produce watch state staging hcall

/-- Unread items in the last slot and in the first leave two spare slots between the cursors. One
of two items stored there is accounted for, and one is accepted of a producer that fills both. In
the second ring the write cursor has gone on at slot 0, and the read cursor is next to it. -/
theorem vacancy_is_longest_wrapped :
    ((⟨[5, 6, 7, 8], 3, 2, true⟩ : Ring Nat).head < 4 ∧
      (⟨[5, 6, 7, 8], 3, 2, true⟩ : Ring Nat).count < 4 ∧
      (⟨[5, 6, 7, 8], 3, 2, true⟩ : Ring Nat).Spare 2 ∧
      ¬ (⟨[5, 6, 7, 8], 3, 2, true⟩ : Ring Nat).Spare 3 ∧
      (((⟨[5, 6, 7, 8], 3, 2, true⟩ : Ring Nat).store [1, 2]).advance 1).unread = [8, 5, 1] ∧
      ((⟨[5, 6, 7, 8], 3, 2, true⟩ : Ring Nat).pullOnce scribbler .silent 0 []).1.ring.unread =
        [8, 5, 0]) ∧
    (⟨[5, 6, 7], 1, 2, false⟩ : Ring Nat).head < 3 ∧
      (⟨[5, 6, 7], 1, 2, false⟩ : Ring Nat).count < 3 ∧
      (⟨[5, 6, 7], 1, 2, false⟩ : Ring Nat).Spare 1 ∧
      ¬ (⟨[5, 6, 7], 1, 2, false⟩ : Ring Nat).Spare 2 := by
  have hhead : (⟨[5, 6, 7, 8], 3, 2, true⟩ : Ring Nat).head < 4 := by decide
  have hcount : (⟨[5, 6, 7, 8], 3, 2, true⟩ : Ring Nat).count < 4 := by decide
  have hhead' : (⟨[5, 6, 7], 1, 2, false⟩ : Ring Nat).head < 3 := by decide
  have hcount' : (⟨[5, 6, 7], 1, 2, false⟩ : Ring Nat).count < 3 := by decide
  obtain ⟨-, hspare, -, hstore, hpull⟩ := vacancy_is_longest hhead hcount
  obtain ⟨-, hspare', -⟩ := vacancy_is_longest hhead' hcount'
  obtain ⟨-, -, hstored⟩ := hstore [1, 2] rfl 1 (by decide)
  obtain ⟨-, hpulled⟩ := hpull Nat scribbler .silent 0 []
  refine ⟨⟨hhead, hcount, ?_, ?_, hstored.unread_eq, hpulled.unread_eq⟩, hhead', hcount', ?_, ?_⟩
  · exact (hspare 2).mpr (by decide)
  · intro hthree
    exact absurd ((hspare 3).mp hthree) (by decide)
  · exact (hspare' 1).mpr (by decide)
  · intro htwo
    exact absurd ((hspare' 2).mp htwo) (by decide)

/-- In an empty ring every slot is free, but the run does not go on at slot 0. -/
example :
    (⟨[5, 6, 7], 2, 0, false⟩ : Ring Nat).vacancy = 1 ∧
      ¬ (⟨[5, 6, 7], 2, 0, false⟩ : Ring Nat).Occupied 0 := by
  decide

end Ring

end Carousel
