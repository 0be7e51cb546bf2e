import Carousel.Proofs.Undo

/-! # One step back

What a command consumes is a number of items from the front of the ring (`Ring.consumption`). The
step back behind it undoes the last of them: the ring is then as if one item fewer had been
consumed, once (`Ring.StepsBack`, `Ring.unreadItem_inverts`).

A push consumes what its consumer accepts of one or two runs. If it accepts the first in full and
of the second nothing, it has consumed items, and yet there is no step back behind it: a push that
stalls clears the marker. `Ring.writeTo_undo` says that this is the only exception, and
`Ring.push_undo_lost` that it arises. -/

namespace Carousel

variable {σ α : Type}

namespace Ring

/-! ### The step back -/

theorem unreadItem_of_marked {r : Ring α} (hm : r.canUnread = true) :
    r.unreadItem = (⟨r.slots, r.undoSlot, r.count + 1, false⟩, .ok ()) := if_pos hm

theorem unreadItem_of_cleared {r : Ring α} (hm : r.canUnread = false) :
    r.unreadItem = (r, .error .nothingToUnread) := by
  unfold unreadItem
  rw [if_neg (by simp [hm])]

theorem unreadItem_eq_ok_iff (r : Ring α) : r.unreadItem.2 = .ok () ↔ r.canUnread = true := by
  cases hm : r.canUnread with
  | true => simp [unreadItem_of_marked hm]
  | false => simp [unreadItem_of_cleared hm]

/-- One step back behind `k` items consumed is where `k - 1` items consumed lead. -/
theorem unreadItem_consume {r : Ring α} (h : r.Valid) {k : Nat} (h0 : 0 < k) (hk : k ≤ r.count) :
    (r.consume k).unreadItem = ((r.consume (k - 1)).forget, .ok ()) := by
  have hm : (r.consume k).canUnread = true := by simpa [consume] using h0
  have hcount : r.count - k + 1 = r.count - (k - 1) := by omega
  rw [unreadItem_of_marked hm, undoSlot_consume h h0]
  simp only [consume, forget, hcount]

/-- The ring `after` is `r` with `k` items consumed, and one step back undoes the last of them. -/
structure StepsBack (r after : Ring α) (k : Nat) : Prop where
  back : after.unreadItem =
    (⟨r.slots, (r.head + k - 1) % r.capacity, r.count - k + 1, false⟩, .ok ())
  /-- It leads where a consumption of one item fewer leads, but for the marker. -/
  as_fewer : after.unreadItem.1 = (r.consume (k - 1)).forget
  tail_eq : after.unreadItem.1.tail = r.tail
  /-- There is no second step back. -/
  once : after.unreadItem.1.unreadItem = (after.unreadItem.1, .error .nothingToUnread)

theorem stepsBack_consume {r : Ring α} (h : r.Valid) {k : Nat} (h0 : 0 < k) (hk : k ≤ r.count) :
    r.StepsBack (r.consume k) k := by
  have hback := unreadItem_consume h h0 hk
  have hfewer : (r.consume (k - 1)).forget =
      ⟨r.slots, (r.head + k - 1) % r.capacity, r.count - k + 1, false⟩ := by
    have hhead : r.head + k - 1 = r.head + (k - 1) := by omega
    have hcount : r.count - k + 1 = r.count - (k - 1) := by omega
    simp only [consume, forget, hhead, hcount]
  constructor
  · rw [hback, hfewer]
  · rw [hback]
  · rw [hback]
    exact r.tail_consume (by omega)
  · rw [hback]
    exact unreadItem_of_cleared rfl

/-! ### Behind any command that consumes -/

section Commands

variable [Inhabited α] {r : Ring α} {command : Command σ α} {state : σ}

theorem exists_perform_of_consumes (r : Ring α) (hc : command.consumes = true) (state : σ) :
    ∃ result, r.perform command state = some result := by
  cases command with
  | read | readItem | value | next | readItems | writeTo => exact ⟨_, rfl⟩
  | _ => cases hc

omit [Inhabited α] in
theorem stalls_of_inFull
    (hf : ∀ consumer, command = .writeTo consumer →
      ∀ x ∈ consumer.offers state r.runs, x.inFull = true) : r.stalls command state = false := by
  cases command with
  | writeTo consumer => exact stalled_of_inFull (hf consumer rfl) fun x hx => ne_nil_of_mem_offers hx
  | _ => rfl

/-- **A step back is the inverse of the last item consumed.** Whatever a command consumes, a push
being one that is accepted in full, is taken from the front of the unread items; if that is at
least one item, a step back behind the command leaves the slots and both cursors as if one item
fewer had been consumed, and cannot be repeated. So behind the read of one item it restores the
ring, but for the marker. -/
theorem unreadItem_inverts (h : r.Valid) (hc : command.consumes = true)
    (hf : ∀ consumer, command = .writeTo consumer →
      ∀ x ∈ consumer.offers state r.runs, x.inFull = true) :
    ∃ result k, r.perform command state = some result ∧ k = r.consumption command state ∧
      k ≤ r.count ∧ result.ring.unread = r.unread.drop k ∧
      (0 < k → r.StepsBack result.ring k) ∧
      (0 < r.count → r.readItem.1.unreadItem = (r.forget, .ok ())) := by
  obtain ⟨result, hresult⟩ := r.exists_perform_of_consumes hc state
  have hring := ring_of_consumes h hc hresult
  rw [stalls_of_inFull hf, if_neg Bool.false_ne_true] at hring
  have hle := consumption_le h command state
  refine ⟨result, r.consumption command state, hresult, rfl, hle, ?_, ?_, ?_⟩
  · rw [hring]
    exact r.unread_consume hle
  · intro h0
    rw [hring]
    exact stepsBack_consume h h0 hle
  · intro h0
    rw [ring_readItem h, Nat.min_eq_left h0, unreadItem_consume h Nat.one_pos h0]
    change ((r.consume 0).forget, _) = _
    rw [consume_zero h]
    rfl

/-- A push of a full ring whose unread items go on at slot 0: behind it the step back is at the
last of the three. -/
theorem unreadItem_inverts_wrapped :
    (⟨[5, 6, 7], 2, 3, false⟩ : Ring Nat).Valid ∧
      (Command.writeTo Consumer.collect : Command (List Nat) Nat).consumes = true ∧
      (∀ x ∈ Consumer.collect.offers [] (⟨[5, 6, 7], 2, 3, false⟩ : Ring Nat).runs,
        x.inFull = true) ∧
      ∃ result : Result (List Nat) Nat,
        (⟨[5, 6, 7], 2, 3, false⟩ : Ring Nat).perform (.writeTo Consumer.collect) [] =
          some result ∧
        result.ring.unreadItem = (⟨[5, 6, 7], 1, 1, false⟩, .ok ()) := by
  have hv : (⟨[5, 6, 7], 2, 3, false⟩ : Ring Nat).Valid :=
    ⟨by decide, by decide, by decide, by decide⟩
  have hf : ∀ x ∈ Consumer.collect.offers [] (⟨[5, 6, 7], 2, 3, false⟩ : Ring Nat).runs,
      x.inFull = true := Consumer.inFull_of_mem (fun _ _ => rfl) _ _
  obtain ⟨result, k, hresult, rfl, -, -, hback, -⟩ :=
    @unreadItem_inverts _ _ _ _ (.writeTo Consumer.collect) [] hv rfl fun consumer he => by
      cases he
      exact hf
  exact ⟨hv, rfl, hf, result, hresult, (hback (by decide)).back⟩

end Commands

/-! ### Behind a push -/

section Pushes

variable [Inhabited α] {r : Ring α}

omit [Inhabited α] in
theorem canUnread_writeTo (h : r.Valid) (consumer : Consumer σ α) (state : σ) :
    (r.writeTo consumer state).ring.canUnread = true ↔
      takenOf (consumer.offers state r.runs) ≠ [] ∧
        stalled (consumer.offers state r.runs) = false := by
  rw [ring_writeTo h]
  cases stalled (consumer.offers state r.runs) with
  | true => simp [forget]
  | false => simp [consume, List.length_pos_iff]

/-- What a push that does not stall leaves to give back is the last item it has taken. -/
theorem undo_writeTo (h : r.Valid) (consumer : Consumer σ α) (state : σ)
    (hs : stalled (consumer.offers state r.runs) = false) :
    (r.writeTo consumer state).ring.undo = (takenOf (consumer.offers state r.runs)).getLast? := by
  have hgave := (gave_writeTo h consumer state).unread_eq
  rw [ring_writeTo h, hs, if_neg Bool.false_ne_true,
    undo_consume h (length_takenOf_le h consumer state), hgave, List.take_left]

/-- **A push leaves the last item it has taken to give back, unless it stalls.** A step back behind
it succeeds if and only if it has taken items and its last run was not one of which the consumer
accepts nothing; it then restores the last item accepted, and the next read returns it. Otherwise
the step back is refused. -/
theorem writeTo_undo (h : r.Valid) (consumer : Consumer σ α) (state : σ) :
    ∃ offers after, offers = (r.writeTo consumer.recorded (state, [])).state.2 ∧
      after = (r.writeTo consumer state).ring ∧ r.unread = takenOf offers ++ after.unread ∧
      (after.unreadItem.2 = .ok () ↔ after.count < r.count ∧ stalled offers = false) ∧
      (after.unreadItem.2 = .ok () → ∃ a, (takenOf offers).getLast? = some a ∧
        after.unreadItem.1.slots = r.slots ∧ after.unreadItem.1.unread = a :: after.unread ∧
        after.unreadItem.1.readItem.2 = .ok a) ∧
      (after.unreadItem.2 ≠ .ok () → after.unreadItem = (after, .error .nothingToUnread)) := by
  have hv : (r.writeTo consumer state).ring.Valid := h.writeTo
  have hgave := gave_writeTo h consumer state
  have hmarked := canUnread_writeTo h consumer state
  have hundo := undo_writeTo h consumer state
  refine ⟨consumer.offers state r.runs, (r.writeTo consumer state).ring, ?_, rfl, hgave.unread_eq,
    ?_, ?_, ?_⟩
  · rw [state_writeTo_recorded h]
  · have hcount := congrArg List.length hgave.unread_eq
    rw [length_unread, List.length_append, length_unread] at hcount
    rw [unreadItem_eq_ok_iff, hmarked, ← List.length_pos_iff]
    constructor
    · rintro ⟨htaken, hs⟩
      exact ⟨by omega, hs⟩
    · rintro ⟨hless, hs⟩
      exact ⟨by omega, hs⟩
  · intro hok
    rw [unreadItem_eq_ok_iff] at hok
    obtain ⟨htaken, hs⟩ := hmarked.mp hok
    obtain ⟨a, ha⟩ := Option.isSome_iff_exists.mp (List.getLast?_isSome.mpr htaken)
    have hback := unread_unreadItem hv ((hundo hs).trans ha)
    refine ⟨a, ha, ?_, hback, ?_⟩
    · rw [unreadItem_of_marked hok]
      exact hgave.slots_eq
    · rw [readItem_eq hv.unreadItem hback]
  · intro hne
    apply unreadItem_of_cleared
    rw [Bool.eq_false_iff, ne_eq, ← unreadItem_eq_ok_iff]
    exact hne

/-- Accepts the first run in full, and one item of every later one. -/
def sipping : Consumer Nat Nat := fun seen run =>
  ⟨seen + 1, [], .ok (if seen = 0 then run.length else min 1 run.length)⟩

/-- Behind a short second run the last of the two items taken is given back. -/
theorem writeTo_undo_short :
    (⟨[5, 6, 7], 2, 3, false⟩ : Ring Nat).Valid ∧
      ((⟨[5, 6, 7], 2, 3, false⟩ : Ring Nat).writeTo sipping 0).ring.unreadItem.1.readItem.2 =
        .ok 5 := by
  have hv : (⟨[5, 6, 7], 2, 3, false⟩ : Ring Nat).Valid :=
    ⟨by decide, by decide, by decide, by decide⟩
  obtain ⟨offers, after, hoffers, rfl, -, hiff, hback, -⟩ := writeTo_undo hv sipping 0
  rw [state_writeTo_recorded hv] at hoffers
  subst hoffers
  have hring := ring_writeTo hv sipping 0
  obtain ⟨a, ha, -, -, hread⟩ := hback (hiff.mpr ⟨by rw [hring]; decide, by decide⟩)
  obtain rfl : 5 = a := Option.some.inj ha
  exact ⟨hv, hread⟩

/-- Accepts the first run in full, and nothing of any later one. -/
def withdrawing : Consumer Nat Nat := fun seen run =>
  ⟨seen + 1, [], .ok (if seen = 0 then run.length else 0)⟩

/-- Two unread items go on at slot 0. The first is taken, of the second nothing, and the first
cannot be given back. -/
theorem push_undo_lost :
    ¬ ∀ (r : Ring Nat) (m : Memory Nat), Reachable r m →
      ∀ (consumer : Consumer Nat Nat) (state : Nat),
        (r.writeTo consumer state).ring.unreadItem.2 = .ok () ↔
          (r.writeTo consumer state).ring.count < r.count := by
  intro h
  have hreach : Reachable (⟨[3, 2], 1, 2, false⟩ : Ring Nat) ⟨some 1, none⟩ :=
    reachable_consumed.step (show Ring.perform _ (.writeItem 3 : Command Unit Nat) () = _ from rfl)
  have hring := ring_writeTo hreach.remembers.valid withdrawing 0
  have hok := (h _ _ hreach withdrawing 0).mpr (by rw [hring]; decide)
  rw [hring] at hok
  cases hok

end Pushes

end Ring

end Carousel
