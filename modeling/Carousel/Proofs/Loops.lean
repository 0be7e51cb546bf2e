import Carousel.Proofs.Delimited
import Carousel.Proofs.StepBack

/-! # Whole reads and writes of a byte stream

A byte stream is rarely read by single calls. The usual loops around them read until a buffer is
full (`Ring.readExact`), until there is nothing more (`Ring.readToEnd`), or write until nothing is
left (`Ring.writeAll`). Since an empty ring reads as nothing instead of failing, every loop ends.

One single read of a ring gives as many items as there are and as fit, wherever they lie
(`Ring.ioRead_eq`). So a buffer that is to be filled takes one read, or one more that finds the
ring empty; that read clears the marker. The loops amount to `Ring.consume`, `Ring.drained` and
`Ring.write` (`Ring.readExact_of_le`, `Ring.readExact_of_lt`, `Ring.readToEnd_eq`,
`Ring.writeAll_eq`), and `Ring.loops_exact` says what of it their users see. -/

namespace Carousel

variable {α : Type}

namespace Ring

theorem tail_drained (r : Ring α) : r.drained.tail = r.tail := Nat.mod_mod _ _

/-! ### The loops -/

section Reading

variable [Inhabited α] {r : Ring α}

/-- A single read consumes what it gives; one that gives nothing clears the marker. -/
theorem ioRead_eq (h : r.Valid) (buffer : List α) :
    r.ioRead buffer = ⟨r.consume (min buffer.length r.count),
      r.unread.take (min buffer.length r.count), .ok (min buffer.length r.count)⟩ := by
  cases buffer with
  | nil => simp [ioRead, read, consume_zero h]
  | cons slot buffer =>
      by_cases h0 : r.count = 0
      · simp [ioRead, read, h0, consume_zero h]
      · simp [ioRead, read, h0, front_eq_take h]

/-- The front of the buffer takes what a read gives; the other slots keep what they hold. -/
theorem buffer_ioRead (h : r.Valid) {buffer : List α} {n : Nat}
    (hn : min buffer.length r.count = n) :
    (r.ioRead buffer).buffer buffer = r.unread.take n ++ buffer.drop n ∧
      (r.unread.take n).length = n := by
  have hlength : (r.unread.take n).length = n := by
    rw [List.length_take, length_unread]
    omega
  refine ⟨?_, hlength⟩
  rw [ioRead_eq h, hn, Delivery.buffer, cover_eq_append (by dsimp only; omega), hlength]

omit [Inhabited α] in
theorem readExact_nil (r : Ring α) : r.readExact [] = (r, [], .ok ()) := by
  rw [readExact]
  rfl

/-- An empty ring fills no buffer. -/
theorem readExact_of_empty (h : r.Valid) (h0 : r.count = 0) {buffer : List α} (hb : buffer ≠ []) :
    r.readExact buffer =
      (r.forget, buffer, .error (.note .unexpectedEof "failed to fill whole buffer")) := by
  have hread := ioRead_eq h buffer
  rw [h0, Nat.min_zero, consume_zero h, List.take_zero] at hread
  rw [readExact, if_neg (by simpa using hb)]
  simp only [hread, Delivery.buffer, cover_nil]

/-- One turn of the loop: what the read gives, and then the loop with the rest of the buffer. -/
theorem readExact_of_read (h : r.Valid) {buffer : List α} {n : Nat}
    (hn : min buffer.length r.count = n + 1) :
    r.readExact buffer =
      (((r.consume (n + 1)).readExact (buffer.drop (n + 1))).1,
        r.unread.take (n + 1) ++ ((r.consume (n + 1)).readExact (buffer.drop (n + 1))).2.1,
        ((r.consume (n + 1)).readExact (buffer.drop (n + 1))).2.2) := by
  have hb : ¬ buffer.isEmpty = true := by
    intro hb
    rw [List.isEmpty_iff.mp hb, List.length_nil, Nat.zero_min] at hn
    cases hn
  have hread := ioRead_eq h buffer
  obtain ⟨hbuffer, hlength⟩ := buffer_ioRead h hn
  rw [hn] at hread
  rw [hread] at hbuffer
  rw [readExact, if_neg hb]
  simp only [hread, hbuffer, List.drop_left' hlength, List.take_left' hlength]

/-- Enough items are there: the first read fills the buffer. -/
theorem readExact_of_le (h : r.Valid) {buffer : List α} (hb : buffer ≠ [])
    (hle : buffer.length ≤ r.count) :
    r.readExact buffer = (r.consume buffer.length, r.unread.take buffer.length, .ok ()) := by
  obtain ⟨n, hn⟩ := Nat.exists_eq_add_one.mpr (List.length_pos_iff.mpr hb)
  rw [readExact_of_read h (n := n) (by omega), ← hn, List.drop_length, readExact_nil,
    List.append_nil]

/-- Too few items are there: the last read finds the ring empty. -/
theorem readExact_of_lt (h : r.Valid) {buffer : List α} (hlt : r.count < buffer.length) :
    r.readExact buffer = (r.drained, r.unread ++ buffer.drop r.count,
      .error (.note .unexpectedEof "failed to fill whole buffer")) := by
  cases hn : r.count with
  | zero =>
      have hb : buffer ≠ [] := List.ne_nil_of_length_pos (by omega)
      have hunread : r.unread = [] := List.length_eq_zero_iff.mp (r.length_unread.trans hn)
      rw [readExact_of_empty h hn hb, forget_eq_drained h hunread rfl rfl, hunread,
        List.nil_append, List.drop_zero]
  | succ n =>
      have hv : (r.consume r.count).Valid := h.consume (Nat.le_refl _)
      have hempty : (r.consume r.count).count = 0 := Nat.sub_self _
      have hrest : buffer.drop r.count ≠ [] := by
        rw [ne_eq, List.drop_eq_nil_iff]
        omega
      have hall : r.unread.take r.count = r.unread := by
        rw [← length_unread, List.take_length]
      rw [readExact_of_read h (n := n) (by omega), ← hn, readExact_of_empty hv hempty hrest,
        forget_consume_count, hall]

/-- Reading to the end takes all there is, whatever the sizes of the buffers. -/
theorem readToEnd_eq (h : r.Valid) (size : Nat → Nat) (k : Nat) :
    r.readToEnd size k = (r.drained, r.unread, .ok ()) := by
  -- one read fails, finds the ring empty, or gives items and the loop goes on
  fun_induction readToEnd size r k with
  | case1 r k buffer d error ha => exact absurd ha (ioRead_ne_error r buffer error)
  | case2 r k buffer d ha =>
      have hn : min buffer.length r.count = 0 :=
        Except.ok.inj ((answer_ioRead r buffer).symm.trans ha)
      have hpos : 0 < buffer.length := by simp [buffer]
      have hunread : r.unread = [] :=
        List.length_eq_zero_iff.mp (r.length_unread.trans (by omega))
      have hstate : d.state = r.forget := by
        simp only [d, ioRead_eq h, hn, consume_zero h]
      rw [hstate, forget_eq_drained h hunread rfl rfl, hunread]
  | case3 r k buffer d n ha left rest answer hrest ih =>
      have hn : min buffer.length r.count = n + 1 :=
        Except.ok.inj ((answer_ioRead r buffer).symm.trans ha)
      have hle : n + 1 ≤ r.count := by omega
      have hstate : d.state = r.consume (n + 1) := by
        simp only [d, ioRead_eq h, hn]
      obtain ⟨hbuffer, hlength⟩ := buffer_ioRead h hn
      rw [hstate] at ih
      have hlater := ih (h.consume hle)
      rw [drained_consume hle, unread_consume r hle] at hlater
      rw [hstate, hlater] at hrest
      cases hrest
      rw [hbuffer, List.take_left' hlength, List.take_append_drop]

end Reading

/-- A single write takes everything. -/
theorem writeAll_eq (r : Ring α) (items : List α) :
    r.writeAll items = (r.write items, r.writeEvents items.length, .ok ()) := by
  have hnil (s : Ring α) : s.writeAll [] = (s, [], .ok ()) := by
    rw [writeAll]
    rfl
  cases items with
  | nil => exact hnil r
  | cons item items =>
      have hanswer : (r.ioWrite (item :: items)).answer = .ok (items.length + 1) := rfl
      have hrest : (item :: items).drop (items.length + 1) = [] := List.drop_length
      rw [writeAll]
      simp only [List.isEmpty_cons, Bool.false_eq_true, if_false, hanswer, hrest, hnil,
        List.append_nil]
      rfl

/-! ### What their users see -/

/-- Reading exactly as many items as a buffer has slots: the ring it leaves, the buffer as it
leaves it, and its answer. -/
structure ReadsExactly [Inhabited α] (r : Ring α) (buffer : List α) (after : Ring α)
    (filled : List α) (answer : Except IoError Unit) : Prop where
  ok_iff : answer = .ok () ↔ buffer.length ≤ r.count
  /-- The first slots take the oldest items, as many as there are, and the others are as before. -/
  filled_eq : filled = r.unread.take buffer.length ++ buffer.drop r.count
  /-- Just the items that the buffer has taken are consumed. -/
  unread_eq : after.unread = r.unread.drop buffer.length
  slots_eq : after.slots = r.slots
  tail_eq : after.tail = r.tail
  /-- Nothing happens if nothing is asked for. -/
  unasked : buffer = [] → after = r
  /-- Behind a buffer that is full, the last item may be given back. -/
  stepsBack : buffer ≠ [] → buffer.length ≤ r.count → r.StepsBack after buffer.length
  /-- A buffer that is not has emptied the ring, and there is no step back. -/
  emptied : r.count < buffer.length →
    answer = .error (.note .unexpectedEof "failed to fill whole buffer") ∧ after.unread = [] ∧
      after.unreadItem = (after, .error .nothingToUnread)

section Seen

variable [Inhabited α] {r : Ring α}

theorem readsExactly (h : r.Valid) (buffer : List α) :
    r.ReadsExactly buffer (r.readExact buffer).1 (r.readExact buffer).2.1
      (r.readExact buffer).2.2 := by
  have hlength := r.length_unread
  rcases Nat.lt_or_ge r.count buffer.length with hlt | hle
  · rw [readExact_of_lt h hlt]
    exact {
      ok_iff := ⟨nofun, fun hle => absurd hle (Nat.not_le_of_lt hlt)⟩
      filled_eq := by rw [List.take_of_length_le (by omega)]
      unread_eq := (List.drop_eq_nil_of_le (by omega)).symm
      slots_eq := rfl
      tail_eq := r.tail_drained
      unasked := fun hb => by rw [hb] at hlt; cases hlt
      stepsBack := fun _ hle => absurd hle (Nat.not_le_of_lt hlt)
      emptied := fun _ => ⟨rfl, rfl, unreadItem_of_cleared rfl⟩ }
  · by_cases hb : buffer = []
    · rw [hb, readExact_nil]
      exact {
        ok_iff := ⟨fun _ => Nat.zero_le _, fun _ => rfl⟩
        filled_eq := by simp
        unread_eq := rfl
        slots_eq := rfl
        tail_eq := rfl
        unasked := fun _ => rfl
        stepsBack := fun hn => absurd rfl hn
        emptied := nofun }
    · rw [readExact_of_le h hb hle]
      exact {
        ok_iff := ⟨fun _ => hle, fun _ => rfl⟩
        filled_eq := by rw [List.drop_eq_nil_of_le hle, List.append_nil]
        unread_eq := r.unread_consume hle
        slots_eq := rfl
        tail_eq := r.tail_consume hle
        unasked := fun hn => absurd hn hb
        stepsBack := fun _ _ => stepsBack_consume h (List.length_pos_iff.mpr hb) hle
        emptied := fun hlt => absurd hle (Nat.not_le_of_lt hlt) }

/-- **Whole reads and writes are exact.** Reading exactly as many items as a buffer has slots
succeeds if and only if there are as many; the buffer takes the oldest items as far as they go,
and just these are consumed. Reading to the end gives all items, whatever the sizes of the buffers
used, and leaves the ring empty and nothing to give back. Writing everything is one write. -/
theorem loops_exact (h : r.Valid) :
    (∀ buffer, ∃ after filled answer, r.readExact buffer = (after, filled, answer) ∧
      r.ReadsExactly buffer after filled answer) ∧
      (∀ size k, r.readToEnd size k = (r.drained, r.unread, .ok ())) ∧ r.drained.unread = [] ∧
      r.drained.unreadItem = (r.drained, .error .nothingToUnread) ∧
      ∀ items, r.writeAll items = (r.write items, r.writeEvents items.length, .ok ()) :=
  ⟨fun buffer => ⟨_, _, _, rfl, readsExactly h buffer⟩, fun size k => readToEnd_eq h size k, rfl,
    unreadItem_of_cleared rfl, r.writeAll_eq⟩

/-- The items of a full ring go on at slot 0. A buffer of four slots takes all three, keeps its last
slot and leaves nothing to give back; behind one of two slots the second item is given back. -/
theorem loops_exact_short :
    (⟨[6, 7, 5], 2, 3, false⟩ : Ring Nat).Valid ∧
      (∃ after, (⟨[6, 7, 5], 2, 3, false⟩ : Ring Nat).readExact [1, 2, 3, 4] =
          (after, [5, 6, 7, 4], .error (.note .unexpectedEof "failed to fill whole buffer")) ∧
        after.unreadItem = (after, .error .nothingToUnread)) ∧
      (∃ after, (⟨[6, 7, 5], 2, 3, false⟩ : Ring Nat).readExact [1, 2] = (after, [5, 6], .ok ()) ∧
        after.unreadItem = (⟨[6, 7, 5], 0, 2, false⟩, .ok ())) ∧
      (⟨[6, 7, 5], 2, 3, false⟩ : Ring Nat).readToEnd (fun k => k) 0 =
        (⟨[6, 7, 5], 2, 0, false⟩, [5, 6, 7], .ok ()) := by
  have hv : (⟨[6, 7, 5], 2, 3, false⟩ : Ring Nat).Valid :=
    ⟨by decide, by decide, by decide, by decide⟩
  obtain ⟨hexact, hend, -⟩ := loops_exact hv
  obtain ⟨short, shortFilled, shortAnswer, hshort, hs⟩ := hexact [1, 2, 3, 4]
  obtain ⟨full, fullFilled, fullAnswer, hfull, hf⟩ := hexact [1, 2]
  obtain ⟨hanswer, -, hcleared⟩ := hs.emptied (by decide)
  refine ⟨hv, ⟨short, ?_, hcleared⟩, ⟨full, ?_, ?_⟩, hend _ _⟩
  · rw [hshort, hs.filled_eq, hanswer]
    rfl
  · rw [hfull, hf.filled_eq, hf.ok_iff.mpr (by decide)]
    rfl
  · exact (hf.stepsBack (by decide) (by decide)).back

end Seen

end Ring

end Carousel
