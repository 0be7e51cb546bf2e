import Carousel.Proofs.Position
import Carousel.Proofs.Pull

/-! # What a seek leaves

A seek moves the read cursor and nothing else. The unread items are then those in the slots from
it up to the write cursor (`Ring.ahead`): of the states with the same read cursor, write cursor and
slots only the full one is another than `Ring.landed`, and a seek leaves that one only where it was
before. So what a run of seeks leaves depends on the last of them alone, once a ring is not full or
its read cursor has moved (`Sought.eq_landed`, by induction on the run). -/

namespace Carousel

variable {α : Type}

namespace Ring

/-- The ring with its read cursor at slot `p`, and as unread items those up to the write cursor:
none if the cursors meet. -/
def landed (r : Ring α) (p : Nat) : Ring α :=
  ⟨r.slots, p, (r.tail + r.capacity - p) % r.capacity, false⟩

/-- The items in the slots from `p` up to the write cursor, going on at slot 0 behind the last
slot. -/
def ahead (r : Ring α) (p : Nat) : List α :=
  if p ≤ r.tail then window r.slots p (r.tail - p) else r.slots.drop p ++ r.slots.take r.tail

/-! ### Moving the read cursor -/

theorem moveTo_forget (r : Ring α) (p : Nat) :
    (r.moveTo p).forget = if p = r.head then r.forget else r.landed p := by
  unfold moveTo
  split <;> rfl

section Landed

variable {r : Ring α} (h : r.Valid) {p : Nat}

include h

/-- In a ring that is not full the cursors tell how many items are unread. -/
theorem forget_eq_landed (hc : r.count < r.capacity) : r.forget = r.landed r.head := by
  have hh := h.head_lt
  have hcount : r.count = (r.tail + r.capacity - r.head) % r.capacity := by
    unfold tail
    rcases Nat.lt_or_ge (r.head + r.count) r.capacity with hlt | hge
    · rw [Nat.mod_eq_of_lt hlt, show r.head + r.count + r.capacity - r.head =
        r.count + r.capacity by omega, Nat.add_mod_right, Nat.mod_eq_of_lt hc]
    · rw [Nat.mod_eq_sub_mod hge, Nat.mod_eq_of_lt (a := r.head + r.count - r.capacity) (by omega),
        show r.head + r.count - r.capacity + r.capacity - r.head = r.count by omega,
        Nat.mod_eq_of_lt hc]
  unfold forget landed
  rw [← hcount]

theorem tail_landed (hp : p < r.capacity) : (r.landed p).tail = r.tail := by
  have ht := h.tail_lt
  change (p + (r.tail + r.capacity - p) % r.capacity) % r.capacity = r.tail
  rw [Nat.add_mod_mod, show p + (r.tail + r.capacity - p) = r.tail + r.capacity by omega,
    Nat.add_mod_right, Nat.mod_eq_of_lt ht]

theorem count_landed_lt (p : Nat) : (r.landed p).count < r.capacity :=
  Nat.mod_lt _ h.capacity_pos

theorem landed_landed (hp : p < r.capacity) (q : Nat) : (r.landed p).landed q = r.landed q := by
  have htail := tail_landed h hp
  unfold landed at *
  rw [htail]
  rfl

omit h in
/-- The unread items are counted modulo the capacity. -/
theorem count_landed (hp : p < r.capacity) :
    ((r.landed p).count : Int) = ((r.tail : Int) - p) % r.capacity := by
  change (((r.tail + r.capacity - p) % r.capacity : Nat) : Int) = _
  rw [Int.natCast_emod, show ((r.tail + r.capacity - p : Nat) : Int) =
    (r.tail : Int) - p + r.capacity by omega, Int.add_emod_right]

theorem valid_landed (hp : p < r.capacity) : (r.landed p).Valid :=
  ⟨h.capacity_pos, hp, Nat.le_of_lt (count_landed_lt h p), fun hm => nomatch hm⟩

theorem unread_landed [Inhabited α] (hp : p < r.capacity) : (r.landed p).unread = r.ahead p := by
  have ht := h.tail_lt
  have hcap : (r.landed p).capacity = r.capacity := rfl
  have hhead : (r.landed p).head = p := rfl
  have hslots : (r.landed p).slots = r.slots := rfl
  rw [← segments_append (valid_landed h hp)]
  unfold segments ahead
  rw [hcap, hhead, hslots]
  rcases Nat.lt_or_ge r.tail p with hlt | hle
  · have hcount : (r.landed p).count = r.tail + r.capacity - p := Nat.mod_eq_of_lt (by omega)
    rw [hcount, if_neg (by omega), if_neg (show ¬ p ≤ r.tail by omega)]
    split
    · next hfit =>
        -- the write cursor is at slot 0, so the items reach to the last slot
        have h0 : r.tail = 0 := by omega
        have hall : (r.slots.drop p).length ≤ r.capacity - p := by
          rw [List.length_drop]
          exact Nat.le_refl _
        rw [h0, List.take_zero, Nat.zero_add]
        exact congrArg (· ++ []) (List.take_of_length_le hall)
    · rw [show r.tail + r.capacity - p - (r.capacity - p) = r.tail by omega]
  · have hcount : (r.landed p).count = r.tail - p := by
      change (r.tail + r.capacity - p) % r.capacity = r.tail - p
      rw [show r.tail + r.capacity - p = r.tail - p + r.capacity by omega, Nat.add_mod_right,
        Nat.mod_eq_of_lt (by omega)]
    rw [hcount, if_pos hle]
    split
    · next h0 => rw [h0]; rfl
    · rw [if_pos (by omega)]
      exact List.append_nil _

/-- In a full ring the cursors meet, as they do in an empty one. -/
theorem unread_landed_of_full [Inhabited α] (hf : r.count = r.capacity) :
    (r.landed r.head).unread = [] := by
  have ht : r.tail = r.head := by
    unfold tail
    rw [hf, Nat.add_mod_right, Nat.mod_eq_of_lt h.head_lt]
  have hcount : (r.landed r.head).count = 0 := by
    change (r.tail + r.capacity - r.head) % r.capacity = 0
    rw [ht, Nat.add_sub_cancel_left, Nat.mod_self]
  rw [← List.length_eq_zero_iff, length_unread, hcount]

end Landed

/-! ### Runs of seeks -/

/-- Seeks that all succeed bring one ring to the other; `positions` are what they answer, in
order. -/
inductive Sought : Ring α → (positions : List Nat) → Ring α → Prop where
  | nil (r : Ring α) : Sought r [] r
  | cons {r next after : Ring α} {offset : Int64} {anchor : Anchor} {p : Nat}
      {positions : List Nat} (first : r.seek offset anchor = (next, .ok p))
      (later : Sought next positions after) : Sought r (p :: positions) after

/-- The cases of a seek that succeeds: it leaves the read cursor where it was, or not. -/
theorem seek_cases {r next : Ring α} {offset : Int64} {anchor : Anchor} {p : Nat} (h : r.Valid)
    (hs : r.seek offset anchor = (next, .ok p)) :
    p < r.capacity ∧ ((p = r.head ∧ next = r.forget) ∨ (p ≠ r.head ∧ next = r.landed p)) := by
  obtain ⟨-, hslot, hnext⟩ := seek_eq_ok hs
  rw [moveTo_forget] at hnext
  refine ⟨hslot ▸ Nat.mod_lt _ h.capacity_pos, ?_⟩
  split at hnext
  · next he => exact .inl ⟨he, hnext⟩
  · next hne => exact .inr ⟨hne, hnext⟩

/-- What seeks leave once a slot is free or the read cursor has moved. -/
theorem Sought.eq_landed {r after : Ring α} {positions : List Nat} (h : r.Valid)
    (hs : r.Sought positions after)
    (hm : r.count < r.capacity ∨ ∃ q ∈ positions, q ≠ r.head) :
    ∀ p ∈ positions.getLast?, after = r.landed p := by
  induction hs with
  | nil => exact fun p hp => nomatch hp
  | @cons r next after offset anchor q positions first later ih =>
      intro p hp
      obtain ⟨hq, ⟨rfl, rfl⟩ | ⟨hne, rfl⟩⟩ := seek_cases h first
      · -- the read cursor has stayed, so the ring had a free slot or it moves later
        have hm' : r.count < r.capacity ∨ ∃ q ∈ positions, q ≠ r.head := by
          rcases hm with hc | ⟨q, hq, hne⟩
          · exact .inl hc
          · exact .inr ⟨q, (List.mem_cons.mp hq).resolve_left hne, hne⟩
        rcases eq_or_ne positions [] with rfl | hpositions
        · obtain rfl : r.head = p := Option.some.inj hp
          cases later
          rcases hm' with hc | ⟨q, hq, -⟩
          · exact forget_eq_landed h hc
          · cases hq
        · rw [List.getLast?_cons_of_ne_nil hpositions] at hp
          exact ih h.forget hm' p hp
      · rcases eq_or_ne positions [] with rfl | hpositions
        · obtain rfl : q = p := Option.some.inj hp
          cases later
          rfl
        · rw [List.getLast?_cons_of_ne_nil hpositions] at hp
          rw [ih (valid_landed h hq) (.inl (count_landed_lt h q)) p hp]
          exact landed_landed h hq p

/-- **A seek moves only the read cursor, and the last of many seeks decides.** A seek that answers
`p` leaves the slots and the write cursor, puts the read cursor at `p` and clears the marker; the
unread items are those from `p` up to the write cursor, but if the read cursor was at `p` before,
they are what they were.

From a ring that is not full, a run of seeks leaves a state that is told by the last answer; if
that is where the read cursor was, the unread items are what they were. From a full ring this
holds too once the read cursor has moved, and then the ring is not full any more, and empty with
the read cursor back where it was. -/
theorem seeks_path_independent [Inhabited α] {r : Ring α} (h : r.Valid) :
    (∀ (offset : Int64) (anchor : Anchor) (next : Ring α) (p : Nat),
      r.seek offset anchor = (next, .ok p) →
        next.slots = r.slots ∧ next.tail = r.tail ∧ next.head = p ∧ next.canUnread = false ∧
          (p = r.head → next.unread = r.unread) ∧
          (p ≠ r.head → next.unread = r.ahead p ∧
            ((r.ahead p).length : Int) = ((r.tail : Int) - p) % r.capacity)) ∧
      ∀ (positions : List Nat) (after : Ring α), r.Sought positions after →
        ∀ p ∈ positions.getLast?,
          (r.isFull = false →
            after = r.landed p ∧ (p = r.head → after.unread = r.unread)) ∧
          (r.isFull = true → (∃ q ∈ positions, q ≠ r.head) →
            after = r.landed p ∧ after.isFull = false ∧ (p = r.head → after.unread = [])) := by
  refine ⟨?_, ?_⟩
  · intro offset anchor next p hs
    obtain ⟨hp, ⟨rfl, rfl⟩ | ⟨hne, rfl⟩⟩ := seek_cases h hs
    · exact ⟨rfl, rfl, rfl, rfl, fun _ => rfl, fun hne => absurd rfl hne⟩
    · refine ⟨rfl, tail_landed h hp, rfl, rfl, fun he => absurd he hne, fun _ => ?_⟩
      refine ⟨unread_landed h hp, ?_⟩
      rw [← unread_landed h hp, length_unread, count_landed hp]
  · intro positions after hs p hp
    refine ⟨?_, ?_⟩
    · intro hf
      have hc := count_lt_of_not_full h hf
      have hafter := hs.eq_landed h (.inl hc) p hp
      refine ⟨hafter, ?_⟩
      rintro rfl
      rw [hafter, ← forget_eq_landed h hc, unread_forget]
    · intro hf hm
      have hafter := hs.eq_landed h (.inr hm) p hp
      have hlt : after.count < after.capacity := by
        rw [hafter]
        exact count_landed_lt h p
      refine ⟨hafter, ?_, ?_⟩
      · rw [Bool.eq_false_iff, ne_eq, isFull_iff]
        omega
      · rintro rfl
        rw [hafter]
        exact unread_landed_of_full h ((isFull_iff r).mp hf)

/-- A full ring whose read cursor stays, is moved from each anchor in turn and comes back to slot
1, and a ring with a free slot whose read cursor passes the write cursor and comes back to slot
2. -/
theorem seeks_path_independent_back :
    ((⟨[5, 6, 7], 1, 3, false⟩ : Ring Nat).Valid ∧
      (⟨[5, 6, 7], 1, 3, false⟩ : Ring Nat).Sought [1, 2, 0, 1] ⟨[5, 6, 7], 1, 0, false⟩ ∧
      (⟨[5, 6, 7], 1, 0, false⟩ : Ring Nat).isFull = false ∧
      (⟨[5, 6, 7], 1, 0, false⟩ : Ring Nat).unread = []) ∧
    (⟨[5, 6, 7], 2, 2, true⟩ : Ring Nat).Valid ∧
      (⟨[5, 6, 7], 2, 2, true⟩ : Ring Nat).Sought [1, 2] ⟨[5, 6, 7], 2, 2, false⟩ ∧
      (⟨[5, 6, 7], 2, 2, false⟩ : Ring Nat).unread =
        (⟨[5, 6, 7], 2, 2, true⟩ : Ring Nat).unread := by
  have hfull : (⟨[5, 6, 7], 1, 3, false⟩ : Ring Nat).Valid :=
    ⟨by decide, by decide, by decide, by decide⟩
  have hpartial : (⟨[5, 6, 7], 2, 2, true⟩ : Ring Nat).Valid :=
    ⟨by decide, by decide, by decide, by decide⟩
  have hround : (⟨[5, 6, 7], 1, 3, false⟩ : Ring Nat).Sought [1, 2, 0, 1]
      ⟨[5, 6, 7], 1, 0, false⟩ :=
    .cons (show Ring.seek _ 0 .reader = _ from rfl)
      (.cons (show Ring.seek _ 2 .start = _ from rfl)
        (.cons (show Ring.seek _ (-1) .writer = _ from rfl)
          (.cons (show Ring.seek _ 1 .reader = _ from rfl) (.nil _))))
  have hback : (⟨[5, 6, 7], 2, 2, true⟩ : Ring Nat).Sought [1, 2] ⟨[5, 6, 7], 2, 2, false⟩ :=
    .cons (show Ring.seek _ 0 .writer = _ from rfl)
      (.cons (show Ring.seek _ 1 .reader = _ from rfl) (.nil _))
  obtain ⟨-, hnotFull, hempty⟩ := ((seeks_path_independent hfull).2 _ _ hround 1 rfl).2 rfl
    ⟨2, by decide, by decide⟩
  exact ⟨⟨hfull, hround, hnotFull, hempty rfl⟩, hpartial, hback,
    (((seeks_path_independent hpartial).2 _ _ hback 2 rfl).1 rfl).2 rfl⟩

end Ring

end Carousel
