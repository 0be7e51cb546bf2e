import Carousel.Proofs.Queue
import Carousel.Proofs.Refusal

/-! # What is given up is gone

A truncation blanks the slots of the items it gives up, and a reset blanks all slots. Slots are
told apart by whether they are among the first `n` from the read cursor on (`Ring.InFront`): a
truncation by `n` leaves the default value in those (`Ring.slots_truncate_of_inFront`) and all
others as they are (`Ring.slots_truncate_of_not_inFront`), wherever the end of the storage lies
among them.

So two rings that differ in nothing but the items given up (`Ring.AgreeBeyond`) are one and the
same ring afterwards, and after a reset any two of one capacity are. `Ring.erases_discarded` is
this, together with what follows for the operations that come later: their results are the same
whichever of the two rings it was, also where a seek makes old slots unread again. -/

namespace Carousel

variable {σ α : Type}

namespace Ring

/-! ### The slots in front -/

/-- The slot is among the first `n` from the read cursor on. -/
def InFront (r : Ring α) (n slot : Nat) : Prop := ∃ i < n, (r.head + i) % r.capacity = slot

instance (r : Ring α) (n slot : Nat) : Decidable (r.InFront n slot) :=
  inferInstanceAs (Decidable (∃ i < n, (r.head + i) % r.capacity = slot))

/-- A slot that is not among the first `n` is at least `n` slots behind the read cursor. -/
theorem exists_of_not_inFront {r : Ring α} (h : r.Valid) {n slot : Nat} (hs : slot < r.capacity)
    (hf : ¬ r.InFront n slot) : ∃ j, n ≤ j ∧ j < r.capacity ∧ (r.head + j) % r.capacity = slot := by
  obtain ⟨j, hj, hslot⟩ := exists_slot h.head_lt hs
  refine ⟨j, Nat.le_of_not_lt fun hlt => ?_, hj, hslot⟩
  exact hf ⟨j, hlt, hslot⟩

/-- The rings differ at most in what the first `n` slots from the read cursor on hold. -/
structure AgreeBeyond (r s : Ring α) (n : Nat) : Prop where
  capacity_eq : r.capacity = s.capacity
  head_eq : r.head = s.head
  count_eq : r.count = s.count
  canUnread_eq : r.canUnread = s.canUnread
  slot_eq : ∀ slot, ¬ r.InFront n slot → r.slots[slot]? = s.slots[slot]?

theorem AgreeBeyond.inFront_iff {r s : Ring α} {n : Nat} (h : r.AgreeBeyond s n) (slot : Nat) :
    r.InFront n slot ↔ s.InFront n slot := by
  unfold InFront
  rw [h.head_eq, h.capacity_eq]

variable [Inhabited α] {r s : Ring α} {n : Nat}

/-! ### Truncating -/

theorem truncate_of_le (h0 : 0 < n) (hn : n ≤ r.count) :
    r.truncate n = ⟨splice r.slots r.head (List.replicate n default), (r.head + n) % r.capacity,
      r.count - n, false⟩ := if_neg (by omega)

theorem truncate_of_reset (hn : n = 0 ∨ r.count < n) : r.truncate n = r.reset := if_pos hn

theorem slots_truncate_of_inFront (h : r.Valid) (h0 : 0 < n) (hn : n ≤ r.count) {slot : Nat}
    (hf : r.InFront n slot) : (r.truncate n).slots[slot]? = some default := by
  have hl : (List.replicate n (default : α)).length = n := List.length_replicate
  obtain ⟨i, hi, rfl⟩ := hf
  have hblank : (List.replicate n (default : α))[i]? = some default := by
    rw [List.getElem?_replicate, if_pos hi]
  rw [truncate_of_le h0 hn, ← hblank]
  apply getElem?_splice h.head_lt
  · rw [hl]
    exact Nat.le_trans hn h.count_le
  · rw [hl]
    exact hi

theorem slots_truncate_of_not_inFront (h : r.Valid) (h0 : 0 < n) (hn : n ≤ r.count) {slot : Nat}
    (hf : ¬ r.InFront n slot) : (r.truncate n).slots[slot]? = r.slots[slot]? := by
  rcases Nat.lt_or_ge slot r.capacity with hs | hs
  · obtain ⟨j, hj, hjc, rfl⟩ := exists_of_not_inFront h hs hf
    rw [truncate_of_le h0 hn]
    exact getElem?_splice_of_le h.head_lt (by rwa [List.length_replicate]) hjc
  · have hl := capacity_truncate h n
    unfold capacity at hl hs
    rw [List.getElem?_eq_none (by omega), List.getElem?_eq_none hs]

/-- `after` is the ring without its first `n` unread items, and their slots are blank. -/
structure Blanked (r after : Ring α) (n : Nat) : Prop where
  blank : ∀ slot, r.InFront n slot → after.slots[slot]? = some default
  kept : ∀ slot, ¬ r.InFront n slot → after.slots[slot]? = r.slots[slot]?
  capacity_eq : after.capacity = r.capacity
  unread_eq : after.unread = r.unread.drop n
  tail_eq : after.tail = r.tail

theorem blanked_truncate (h : r.Valid) (h0 : 0 < n) (hn : n ≤ r.count) :
    r.Blanked (r.truncate n) n where
  blank _ := slots_truncate_of_inFront h h0 hn
  kept _ := slots_truncate_of_not_inFront h h0 hn
  capacity_eq := capacity_truncate h n
  unread_eq := unread_truncate h (Nat.ne_of_gt h0) hn
  tail_eq := by
    unfold tail
    rw [capacity_truncate h n, truncate_of_le h0 hn, Nat.mod_add_mod, Nat.add_assoc,
      Nat.add_sub_cancel' hn]

theorem truncate_eq_truncate (hr : r.Valid) (hs : s.Valid) (h0 : 0 < n) (hn : n ≤ r.count)
    (h : r.AgreeBeyond s n) : r.truncate n = s.truncate n := by
  have hn' : n ≤ s.count := by rw [← h.count_eq]; exact hn
  have hslots : (r.truncate n).slots = (s.truncate n).slots := by
    apply List.ext_getElem?
    intro slot
    by_cases hf : r.InFront n slot
    · rw [slots_truncate_of_inFront hr h0 hn hf,
        slots_truncate_of_inFront hs h0 hn' ((h.inFront_iff slot).mp hf)]
    · rw [slots_truncate_of_not_inFront hr h0 hn hf, h.slot_eq slot hf,
        slots_truncate_of_not_inFront hs h0 hn' fun hf' => hf ((h.inFront_iff slot).mpr hf')]
  rw [truncate_of_le h0 hn, truncate_of_le h0 hn'] at hslots ⊢
  rw [Ring.mk.injEq]
  refine ⟨hslots, ?_, ?_, rfl⟩
  · rw [h.head_eq, h.capacity_eq]
  · rw [h.count_eq]

theorem reset_eq_create (h : 0 < r.capacity) : r.reset = create r.capacity := by
  unfold reset create effectiveCapacity
  rw [if_neg (Nat.ne_of_gt h)]

/-! ### What comes later -/

theorem serveAll_eq_of_serve_eq {request : Request σ α} {state : σ}
    (h : r.serve request state = s.serve request state) (requests : List (Request σ α)) :
    r.serveAll (request :: requests) state = s.serveAll (request :: requests) state := by
  unfold serveAll
  rw [h]

/-- The command leaves the same ring of both, `next`, and whatever operations come after it, of
the rings, of stages around them or of the rings as byte streams, they have the same results. -/
structure Merges (r s : Ring α) (command : Command σ α) (next : Ring α) : Prop where
  left (state : σ) : (r.perform command state).map (·.ring) = some next
  right (state : σ) : (s.perform command state).map (·.ring) = some next
  alike (requests : List (Request σ α)) (state : σ) :
    r.serveAll (.ring command :: requests) state = s.serveAll (.ring command :: requests) state

/-- A command that only changes the ring, by `change`, merges two rings that it changes into one. -/
theorem merges_of_change {command : Command σ α} {change : Ring α → Ring α}
    (hc : ∀ q state, perform q command state = some (.quiet state (change q) (.ok .nothing)))
    {next : Ring α} (hr : change r = next) (hs : change s = next) : r.Merges s command next where
  left state := by
    rw [hc, hr]
    rfl
  right state := by
    rw [hc, hs]
    rfl
  alike requests state := by
    have hsame : r.perform command state = s.perform command state := by rw [hc, hc, hr, hs]
    apply serveAll_eq_of_serve_eq
    exact hsame

/-- **Items that are given up leave no trace.** Two rings that differ only in the slots of the
items given up are the same ring behind the truncation, which blanks those slots, touches no other
and keeps the remaining items; behind a truncation that resets, and behind a reset, any two rings
of the same capacity are a new ring. In each case the operations that come later have the same
results for both. -/
theorem erases_discarded (hr : r.Valid) (hs : s.Valid) (hc : r.capacity = s.capacity) :
    (∀ n, 0 < n → n ≤ r.count → r.AgreeBeyond s n →
      r.Merges s (.truncate n : Command σ α) (r.truncate n) ∧ r.Blanked (r.truncate n) n) ∧
    (∀ n, (n = 0 ∨ r.count < n) → (n = 0 ∨ s.count < n) →
      r.Merges s (.truncate n : Command σ α) (create r.capacity)) ∧
    r.Merges s (.reset : Command σ α) (create r.capacity) := by
  have hnewr : r.reset = create r.capacity := reset_eq_create hr.capacity_pos
  have hnews : s.reset = create r.capacity := by
    rw [hc]
    exact reset_eq_create hs.capacity_pos
  have htruncate : ∀ n (q : Ring α) (state : σ),
      q.perform (.truncate n) state = some (.quiet state (q.truncate n) (.ok .nothing)) :=
    fun _ _ _ => rfl
  refine ⟨?_, ?_, ?_⟩
  · intro n h0 hn h
    refine ⟨?_, blanked_truncate hr h0 hn⟩
    exact merges_of_change (htruncate n) rfl (truncate_eq_truncate hr hs h0 hn h).symm
  · intro n hnr hns
    apply merges_of_change (htruncate n)
    · rw [truncate_of_reset hnr, hnewr]
    · rw [truncate_of_reset hns, hnews]
  · exact merges_of_change (fun _ _ => rfl) hnewr hnews

/-- Two full rings that differ in the last slot and in the first, where their unread items begin
and go on: with these two given up, a seek back to slot 0 finds both blank. -/
theorem erases_discarded_wrapped :
    (⟨[5, 6, 7], 2, 3, false⟩ : Ring Nat).Valid ∧ (⟨[8, 6, 9], 2, 3, false⟩ : Ring Nat).Valid ∧
      (⟨[5, 6, 7], 2, 3, false⟩ : Ring Nat).AgreeBeyond ⟨[8, 6, 9], 2, 3, false⟩ 2 ∧
      (⟨[5, 6, 7], 2, 3, false⟩ : Ring Nat).truncate 2 = ⟨[0, 6, 0], 1, 1, false⟩ ∧
      ∀ requests : List (Request Unit Nat),
        (⟨[5, 6, 7], 2, 3, false⟩ : Ring Nat).serveAll
            (.ring (.truncate 2) :: .ring (.seek 0 .start) :: requests) () =
          (⟨[8, 6, 9], 2, 3, false⟩ : Ring Nat).serveAll
            (.ring (.truncate 2) :: .ring (.seek 0 .start) :: requests) () := by
  have hr : (⟨[5, 6, 7], 2, 3, false⟩ : Ring Nat).Valid :=
    ⟨by decide, by decide, by decide, by decide⟩
  have hs : (⟨[8, 6, 9], 2, 3, false⟩ : Ring Nat).Valid :=
    ⟨by decide, by decide, by decide, by decide⟩
  have h : (⟨[5, 6, 7], 2, 3, false⟩ : Ring Nat).AgreeBeyond ⟨[8, 6, 9], 2, 3, false⟩ 2 := by
    refine ⟨rfl, rfl, rfl, rfl, ?_⟩
    intro slot hf
    match slot with
    | 0 => exact absurd (by decide) hf
    | 1 => rfl
    | 2 => exact absurd (by decide) hf
    | _ + 3 => rfl
  obtain ⟨htruncate, -⟩ := erases_discarded (σ := Unit) hr hs rfl
  obtain ⟨hmerges, -⟩ := htruncate 2 (by decide) (by decide) h
  exact ⟨hr, hs, h, rfl, fun requests => hmerges.alike (.ring (.seek 0 .start) :: requests) ()⟩

end Ring

end Carousel
