import Carousel.Proofs.Laps

/-! # Pulls, call by call

A pull offers its producer the free slots of the ring, or a staging buffer if there are none
(`Ring.offer`). Whatever the producer leaves there, no unread item is touched (`unread_touch`).
Both kinds of call come to the same: the chunk that is accepted is written lap by lap to the ring
as the producer leaves it (`pullOnce_eq`). -/

namespace Carousel

variable {σ α : Type}

theorem Delivery.le_of_accepted {d : Delivery Failure σ α} {offered n : Nat}
    (h : d.accepted offered = .ok (some n)) : n ≤ offered := by
  unfold accepted at h
  split at h
  · split at h
    · cases h
    · next hn =>
        cases h
        exact Nat.le_of_not_lt hn
  · cases h
  · cases h

namespace Ring

/-! ### What a producer is offered -/

/-- The buffer that a pull offers: the free slots, or the staging buffer if the ring is full. -/
def offer [Inhabited α] (r : Ring α) (staging : List α) : List α :=
  if r.isFull then
    if staging.isEmpty then List.replicate r.capacity default else staging
  else window r.slots r.tail r.vacancy

/-- The ring once a producer has left `buffer` where it was offered one. -/
def touch (r : Ring α) (buffer : List α) : Ring α :=
  if r.isFull then r else { r with slots := overlay r.slots r.tail buffer }

/-- What a staging buffer may be: not yet made, or as long as the ring. -/
def Staging (r : Ring α) (staging : List α) : Prop := staging = [] ∨ staging.length = r.capacity

theorem isFull_iff (r : Ring α) : r.isFull = true ↔ r.count = r.capacity := by simp [isFull]

theorem count_lt_of_not_full {r : Ring α} (h : r.Valid) (hf : r.isFull = false) :
    r.count < r.capacity := by
  have hc := h.count_le
  have hn : r.count ≠ r.capacity := by
    intro he
    rw [(isFull_iff r).mpr he] at hf
    cases hf
  omega

theorem not_full_of_count_lt {r : Ring α} (hc : r.count < r.capacity) : r.isFull = false := by
  rw [Bool.eq_false_iff, ne_eq, isFull_iff]
  omega

theorem offer_of_not_full [Inhabited α] {r : Ring α} (hf : r.isFull = false) (staging : List α) :
    r.offer staging = window r.slots r.tail r.vacancy := by
  simp [offer, hf]

theorem length_offer [Inhabited α] {r : Ring α} (h : r.Valid) {staging : List α}
    (hs : r.Staging staging) :
    (r.offer staging).length = if r.isFull then r.capacity else r.vacancy := by
  unfold offer
  split
  · split
    · exact List.length_replicate
    · next he => exact hs.resolve_left (by simpa using he)
  · exact length_window (tail_add_vacancy_le h)

theorem offer_ne_nil [Inhabited α] {r : Ring α} (h : r.Valid) {staging : List α}
    (hs : r.Staging staging) : r.offer staging ≠ [] := by
  have hc := h.capacity_pos
  have hv := vacancy_pos h
  rw [← List.length_pos_iff, length_offer h hs]
  split <;> assumption

section Touch

variable {r : Ring α} {buffer : List α}

theorem touch_of_full (hf : r.isFull = true) : r.touch buffer = r := if_pos hf

theorem touch_of_not_full (hf : r.isFull = false) :
    r.touch buffer = { r with slots := overlay r.slots r.tail buffer } := by
  simp [touch, hf]

@[simp] theorem head_touch : (r.touch buffer).head = r.head := by
  unfold touch
  split <;> rfl

@[simp] theorem count_touch : (r.touch buffer).count = r.count := by
  unfold touch
  split <;> rfl

@[simp] theorem canUnread_touch : (r.touch buffer).canUnread = r.canUnread := by
  unfold touch
  split <;> rfl

variable (h : r.Valid) (hb : buffer.length = if r.isFull then r.capacity else r.vacancy)

include h hb

theorem length_slots_touch : (r.touch buffer).slots.length = r.slots.length := by
  unfold touch
  split
  · rfl
  · next hf =>
      rw [if_neg hf] at hb
      exact length_overlay (by rw [hb]; exact tail_add_vacancy_le h)

theorem capacity_touch : (r.touch buffer).capacity = r.capacity := length_slots_touch h hb

theorem tail_touch : (r.touch buffer).tail = r.tail := by
  unfold tail
  rw [head_touch, count_touch, capacity_touch h hb]

theorem valid_touch : (r.touch buffer).Valid where
  capacity_pos := by rw [capacity_touch h hb]; exact h.capacity_pos
  head_lt := by rw [capacity_touch h hb, head_touch]; exact h.head_lt
  count_le := by rw [capacity_touch h hb, count_touch]; exact h.count_le
  count_lt := by rw [capacity_touch h hb, count_touch, canUnread_touch]; exact h.count_lt

theorem unread_touch [Inhabited α] : (r.touch buffer).unread = r.unread := by
  cases hf : r.isFull with
  | true => rw [touch_of_full hf]
  | false =>
      rw [hf] at hb
      rw [touch_of_not_full hf]
      exact unread_scribble h (count_lt_of_not_full h hf) hb

end Touch

theorem overlay_overlay {slots first second : List α} {start : Nat}
    (hf : start + first.length ≤ slots.length) (hs : second.length = first.length) :
    overlay (overlay slots start first) start second = overlay slots start second := by
  apply List.ext_getElem?
  intro i
  rw [getElem?_overlay (by rw [length_overlay hf]; omega), getElem?_overlay hf,
    getElem?_overlay (by omega), hs]
  split
  · rfl
  · split <;> rfl

/-- Laying a part of what lies there over it again changes nothing. -/
theorem overlay_overlay_take {slots buffer : List α} {start n : Nat}
    (hb : start + buffer.length ≤ slots.length) (hn : n ≤ buffer.length) :
    overlay (overlay slots start buffer) start (buffer.take n) = overlay slots start buffer := by
  have hl : (buffer.take n).length = n := by rw [List.length_take, Nat.min_eq_left hn]
  apply List.ext_getElem?
  intro i
  rw [getElem?_overlay (by rw [length_overlay hb, hl]; omega), getElem?_overlay hb, hl]
  split
  · rfl
  · split
    · next hi => rw [if_pos (by omega), List.getElem?_take, if_pos (by omega)]
    · rfl

theorem lapsOf_of_le {r : Ring α} {items : List α} (h0 : items ≠ [])
    (hn : items.length ≤ r.capacity - r.tail) : r.lapsOf items = [items] := by
  obtain ⟨item, items, rfl⟩ := List.exists_cons_of_ne_nil h0
  rw [List.length_cons] at hn
  unfold lapsOf
  rw [laps_cons, List.take_of_length_le (by omega), List.drop_of_length_le (by omega), laps_nil]

end Ring

/-! ### Calls -/

/-- One call of a producer: the buffer it is offered, and what it delivers. -/
structure Call (σ α : Type) where
  offered : List α
  delivery : Delivery Failure σ α

namespace Call

/-- The offered buffer as the call leaves it. -/
def buffer (c : Call σ α) : List α := c.delivery.buffer c.offered

/-- What the answer of the call means. -/
def accepted (c : Call σ α) : Except Failure (Option Nat) := c.delivery.accepted c.offered.length

/-- The items that are accepted: as many from the front of the buffer as the call reports, if
that is not more than it was offered. -/
def chunk (c : Call σ α) : List α :=
  match c.delivery.answer with
  | .ok count => if c.offered.length < count then [] else c.buffer.take count
  | .error _ => []

@[simp] theorem length_buffer (c : Call σ α) : c.buffer.length = c.offered.length :=
  length_cover _ _

theorem chunk_of_accepted {c : Call σ α} {n : Nat} (h : c.accepted = .ok (some n)) :
    c.chunk = c.buffer.take n ∧ n ≤ c.offered.length := by
  unfold accepted Delivery.accepted at h
  unfold chunk
  split at h
  · next count ha =>
      split at h
      · cases h
      · next hn =>
          cases h
          rw [ha]
          exact ⟨if_neg hn, Nat.le_of_not_lt hn⟩
  · cases h
  · cases h

theorem chunk_of_not_accepted {c : Call σ α} (h : ∀ n, c.accepted ≠ .ok (some n)) :
    c.chunk = [] := by
  unfold chunk
  split
  · next count ha =>
      split
      · rfl
      · next hn =>
          refine absurd ?_ (h count)
          simp [accepted, Delivery.accepted, ha, hn]
  · rfl

end Call

namespace Ring

/-- What a pull makes of a call: the buffer stays where it was offered, and the chunk is written
lap by lap. -/
def settle (watch : Observer σ α) (r : Ring α) (c : Call σ α) : Outcome σ α (Option Nat) :=
  let o := (r.touch c.buffer).present watch c.delivery.state ((r.touch c.buffer).lapsOf c.chunk)
  ⟨o.ring, o.state, o.trace, c.accepted.bind fun accepted => o.answer.map fun _ => accepted⟩

theorem settle_of_chunk_nil {watch : Observer σ α} {r : Ring α} {c : Call σ α}
    (hc : c.chunk = []) :
    r.settle watch c = ⟨r.touch c.buffer, c.delivery.state, [], c.accepted⟩ := by
  unfold settle
  rw [hc, lapsOf, laps_nil]
  cases c.accepted <;> rfl

/-- A chunk that fits in front of the last slot is one run. -/
theorem settle_of_one_lap {watch : Observer σ α} {r : Ring α} {c : Call σ α} {n : Nat}
    (ha : c.accepted = .ok (some n)) (h0 : 0 < n)
    (hn : (r.touch c.buffer).tail + c.offered.length ≤ (r.touch c.buffer).capacity) :
    r.settle watch c =
      (let committed := (r.touch c.buffer).commit (c.buffer.take n)
      let verdict := watch c.delivery.state committed (c.buffer.take n)
      ⟨committed, verdict.state, Trace.ofOwn ((r.touch c.buffer).overflow n) ++ verdict.trace,
        verdict.answer.map fun _ => some n⟩) := by
  obtain ⟨hchunk, hle⟩ := Call.chunk_of_accepted ha
  have hl : (c.buffer.take n).length = n := by
    rw [List.length_take, Call.length_buffer, Nat.min_eq_left hle]
  have hne : c.buffer.take n ≠ [] := List.ne_nil_of_length_pos (by omega)
  unfold settle
  rw [hchunk, lapsOf_of_le hne (by omega), ha]
  simp only [present, hl]
  split
  · next hv => simp [Except.bind, Except.map, hv]
  · next hv => simp [Except.bind, Except.map, hv, Outcome.after]

/-- What a producer leaves in the free slots, up to the end of the accepted chunk, is what
committing the chunk stores. -/
theorem commit_touch {r : Ring α} (h : r.Valid) (hf : r.isFull = false) {buffer : List α}
    (hb : buffer.length = r.vacancy) {n : Nat} (hn : n ≤ r.vacancy) :
    (r.touch buffer).commit (buffer.take n) = ((r.touch buffer).advance n).forget := by
  have hv := tail_add_vacancy_le h
  have ht : (r.touch buffer).tail = r.tail := tail_touch h (by rw [hf, hb]; rfl)
  have hl : (buffer.take n).length = n := by rw [List.length_take]; omega
  have hs : overlay (r.touch buffer).slots r.tail (buffer.take n) = (r.touch buffer).slots := by
    rw [touch_of_not_full hf]
    exact overlay_overlay_take (by rw [hb]; exact hv) (by omega)
  unfold commit
  rw [ht, hl, hs]

section Calls

variable [Inhabited α] {r : Ring α} (h : r.Valid) (produce : Producer σ α) (watch : Observer σ α)
  (state : σ)

/-- The call that a pull makes. -/
def call (r : Ring α) (produce : Producer σ α) (state : σ) (staging : List α) : Call σ α :=
  ⟨r.offer staging, produce state (r.offer staging)⟩

include h

theorem pullInPlace_eq (hf : r.isFull = false) (staging : List α) :
    r.pullInPlace produce watch state = r.settle watch (r.call produce state staging) := by
  have hv := tail_add_vacancy_le h
  have ho : r.offer staging = window r.slots r.tail r.vacancy := offer_of_not_full hf staging
  have hlen : (window r.slots r.tail r.vacancy).length = r.vacancy := length_window hv
  generalize hcall : r.call produce state staging = c
  have hoff : c.offered = window r.slots r.tail r.vacancy := by rw [← hcall]; exact ho
  have hdel : c.delivery = produce state (window r.slots r.tail r.vacancy) := by
    rw [← hcall, ← ho]
    rfl
  have hb : c.buffer.length = r.vacancy := by rw [Call.length_buffer, hoff, hlen]
  have htouch : r.touch c.buffer = { r with slots := overlay r.slots r.tail c.buffer } :=
    touch_of_not_full hf
  have hacc : c.accepted = c.delivery.accepted r.vacancy := by
    unfold Call.accepted
    rw [hoff, hlen]
  have hbuf : c.delivery.buffer c.offered = c.buffer := rfl
  unfold pullInPlace
  dsimp only
  rw [← hdel, ← hoff, ← hacc, hbuf, ← htouch]
  rcases hcase : c.accepted with failure | _ | n
  · rw [settle_of_chunk_nil (Call.chunk_of_not_accepted (by simp [hcase])), hcase]
  · rw [settle_of_chunk_nil (Call.chunk_of_not_accepted (by simp [hcase])), hcase]
  · obtain ⟨hchunk, hle⟩ := Call.chunk_of_accepted hcase
    rw [hoff, hlen] at hle
    cases n with
    | zero =>
        rw [settle_of_chunk_nil (by rw [hchunk]; rfl), hcase]
        rfl
    | succ n =>
        have ht : (r.touch c.buffer).tail = r.tail := tail_touch h (by rw [hf, hb]; rfl)
        have hcap : (r.touch c.buffer).capacity = r.capacity :=
          capacity_touch h (by rw [hf, hb]; rfl)
        have hfit : (r.touch c.buffer).tail + c.offered.length ≤ (r.touch c.buffer).capacity := by
          rw [ht, hcap, hoff, hlen]
          exact hv
        have hl : (c.buffer.take (n + 1)).length = n + 1 := by rw [List.length_take]; omega
        have hw : window ((r.touch c.buffer).commit (c.buffer.take (n + 1))).slots
            (r.touch c.buffer).tail (c.buffer.take (n + 1)).length = c.buffer.take (n + 1) :=
          window_commit (by rw [ht, hcap, hl]; omega)
        rw [settle_of_one_lap hcase (Nat.succ_pos n) hfit]
        rw [ht, hl, commit_touch h hf hb hle] at hw
        simp only [hw, commit_touch h hf hb hle]

theorem pullStaged_eq (hf : r.isFull = true) (staging : List α) :
    r.pullStaged produce watch state (r.offer staging) =
      (r.settle watch (r.call produce state staging), (r.call produce state staging).buffer) := by
  generalize hcall : r.call produce state staging = c
  have hoff : r.offer staging = c.offered := by rw [← hcall]; rfl
  have hdel : produce state c.offered = c.delivery := by rw [← hoff, ← hcall]; rfl
  have htouch : r.touch c.buffer = r := touch_of_full hf
  have hacc : c.delivery.accepted c.offered.length = c.accepted := rfl
  have hbuf : c.delivery.buffer c.offered = c.buffer := rfl
  unfold pullStaged
  dsimp only
  rw [hoff, hdel, hacc, hbuf]
  rcases hcase : c.accepted with failure | _ | n
  · rw [settle_of_chunk_nil (Call.chunk_of_not_accepted (by simp [hcase])), hcase, htouch]
  · rw [settle_of_chunk_nil (Call.chunk_of_not_accepted (by simp [hcase])), hcase, htouch]
  · obtain ⟨hchunk, -⟩ := Call.chunk_of_accepted hcase
    unfold settle
    rw [htouch, hchunk, hcase]
    dsimp only
    rw [writeLaps_eq_present h]
    rfl

/-- Both kinds of call settle the call in the same way; only a staged one keeps its buffer. -/
theorem pullOnce_eq (staging : List α) :
    r.pullOnce produce watch state staging =
      (r.settle watch (r.call produce state staging),
        if r.isFull then (r.call produce state staging).buffer else staging) := by
  unfold pullOnce
  cases hf : r.isFull with
  | true =>
      have ho : r.offer staging = if staging.isEmpty then List.replicate r.capacity default
          else staging := if_pos hf
      rw [if_pos rfl, if_pos rfl, ← pullStaged_eq h produce watch state hf staging, ho]
  | false =>
      rw [if_neg Bool.false_ne_true, if_neg Bool.false_ne_true,
        pullInPlace_eq h produce watch state hf staging]

end Calls

/-! ### One turn of the loop -/

section Loop

variable [Inhabited α] {produce : Producer σ α} {watch : Observer σ α} {state : σ} {r : Ring α}
  {p : Progress α} {o : Outcome σ α (Option Nat)} {staging : List α}
  (hcall : r.pullOnce produce watch state p.staging = (o, staging)) (limit : Nat)

include hcall

theorem pullFrom_of_failure {failure : Failure} (ha : o.answer = .error failure) :
    r.pullFrom produce watch (limit + 1) state p =
      some ⟨o.ring, o.state, o.trace, .error failure⟩ := by
  unfold pullFrom
  rw [hcall]
  dsimp only
  rw [ha]

theorem pullFrom_of_end (ha : o.answer = .ok none) :
    r.pullFrom produce watch (limit + 1) state p =
      some ⟨o.ring, o.state, o.trace ++ Trace.ofOwn [.pullFinished p.total], .ok p.total⟩ := by
  unfold pullFrom
  rw [hcall]
  dsimp only
  rw [ha]

theorem pullFrom_of_stuck (ha : o.answer = .ok (some 0)) (hidle : maxEmptyReads ≤ p.idle + 1) :
    r.pullFrom produce watch (limit + 1) state p =
      some ⟨o.ring, o.state, o.trace, .error (.noProgress (p.idle + 1))⟩ := by
  unfold pullFrom
  rw [hcall]
  dsimp only
  rw [ha]
  exact if_pos hidle

/-- A call that decides nothing is followed by the next; only an empty one counts as idle. -/
theorem pullFrom_of_next {n : Nat} (ha : o.answer = .ok (some n))
    (hidle : (if n = 0 then p.idle + 1 else 0) < maxEmptyReads) :
    r.pullFrom produce watch (limit + 1) state p =
      (o.ring.pullFrom produce watch limit o.state
        ⟨p.total + n, if n = 0 then p.idle + 1 else 0, staging⟩).map (·.after o.trace) := by
  rw [pullFrom, hcall]
  dsimp only
  rw [ha]
  cases n with
  | zero => exact if_neg (Nat.not_le_of_lt hidle)
  | succ n => rfl

end Loop

end Ring

end Carousel
