import Carousel.Proofs.Window

/-! # Cutting an input into runs

`Ring.writeLaps` decides run by run how far storage reaches. Seen as a whole it cuts its input
beforehand: `laps capacity room items` is cut after `room` items and then after every `capacity`
items, and `Ring.present` commits the runs of a given list and shows them one after the other;
`writeLaps_eq_present` says that writing an input is presenting its laps.

The laps of an input are nonempty and concatenate to it (`flatten_laps`, `ne_nil_of_mem_laps`),
their lengths are those of storage (`length_lap`), and the first few laps are the laps of what
they concatenate to (`laps_flatten_prefix`). Committing runs one after the other appends them to
the unread items (`unread_commits`). -/

namespace Carousel

variable {σ α : Type}

/-! ### The laps of an input -/

/-- A list cut after `room` items and then after every `capacity` items; no room counts as room
for one item. -/
def laps (capacity room : Nat) : List α → List (List α)
  | [] => []
  | item :: items =>
    (item :: items.take (room - 1)) :: laps capacity capacity (items.drop (room - 1))
termination_by items => items.length
decreasing_by simp only [List.length_drop, List.length_cons]; omega

@[simp] theorem laps_nil (capacity room : Nat) : laps capacity room ([] : List α) = [] := by
  rw [laps]

theorem laps_cons (capacity room : Nat) (item : α) (items : List α) :
    laps capacity room (item :: items) =
      (item :: items.take (room - 1)) :: laps capacity capacity (items.drop (room - 1)) := by
  rw [laps]

theorem flatten_laps (capacity room : Nat) (items : List α) :
    (laps capacity room items).flatten = items := by
  fun_induction laps capacity room items with
  | case1 => rfl
  | case2 room item items ih =>
      rw [List.flatten_cons, ih, List.cons_append, List.take_append_drop]

theorem ne_nil_of_mem_laps {capacity room : Nat} {items run : List α}
    (h : run ∈ laps capacity room items) : run ≠ [] := by
  fun_induction laps capacity room items with
  | case1 => cases h
  | case2 room item items ih =>
      rcases List.mem_cons.mp h with rfl | h
      · exact List.cons_ne_nil _ _
      · exact ih h

/-- A run is as long as storage reaches, and the last one as what is left. -/
theorem length_lap {capacity room : Nat} (hc : 0 < capacity) (hr : 0 < room) {items run : List α}
    {earlier later : List (List α)} (h : laps capacity room items = earlier ++ run :: later) :
    run.length =
      min (if earlier = [] then room else capacity) (items.length - earlier.flatten.length) := by
  induction earlier generalizing room items with
  | nil =>
      cases items with
      | nil => simp at h
      | cons item items =>
          rw [laps_cons, List.nil_append] at h
          rw [← (List.cons.inj h).1, if_pos rfl]
          simp only [List.length_cons, List.length_take, List.flatten_nil, List.length_nil]
          omega
  | cons first earlier ih =>
      cases items with
      | nil => simp at h
      | cons item items =>
          rw [laps_cons, List.cons_append] at h
          obtain ⟨hf, ht⟩ := List.cons.inj h
          have hrun := ih hc ht
          have hlen : first.length = 1 + min (room - 1) items.length := by
            rw [← hf]
            simp only [List.length_cons, List.length_take]
            omega
          rw [ite_self, List.length_drop] at hrun
          rw [if_neg (List.cons_ne_nil _ _), hrun, List.flatten_cons, List.length_append, hlen,
            List.length_cons]
          have hpos : later.length < (laps capacity capacity (items.drop (room - 1))).length := by
            rw [ht, List.length_append, List.length_cons]
            omega
          have hne : items.drop (room - 1) ≠ [] := by
            intro he
            rw [he, laps_nil] at hpos
            cases hpos
          have hlt : room - 1 < items.length := by
            rw [ne_eq, List.drop_eq_nil_iff] at hne
            omega
          omega

/-- The first few laps are the laps of what they hold. -/
theorem laps_flatten_prefix {capacity room : Nat} {items : List α} {runs : List (List α)}
    (h : runs <+: laps capacity room items) : laps capacity room runs.flatten = runs := by
  induction runs generalizing room items with
  | nil => exact laps_nil _ _
  | cons run runs ih =>
      cases items with
      | nil => simp at h
      | cons item items =>
          rw [laps_cons, List.cons_prefix_cons] at h
          obtain ⟨rfl, ht⟩ := h
          rw [List.flatten_cons, List.cons_append, laps_cons]
          rcases Nat.lt_or_ge items.length (room - 1) with hlt | hge
          · rw [List.drop_of_length_le (Nat.le_of_lt hlt), laps_nil, List.prefix_nil] at ht
            rw [ht, List.flatten_nil, List.append_nil, List.take_take, Nat.min_self,
              List.drop_of_length_le (List.length_take_le _ _), laps_nil]
          · have hl : (items.take (room - 1)).length = room - 1 := by
              rw [List.length_take, Nat.min_eq_left hge]
            rw [List.take_left' hl, List.drop_left' hl, ih ht]

/-- Each run, stored where the one before ends, reaches at most to the last slot. -/
def Fits (capacity : Nat) : (tail : Nat) → List (List α) → Prop
  | _, [] => True
  | tail, run :: runs =>
    tail + run.length ≤ capacity ∧ Fits capacity ((tail + run.length) % capacity) runs

theorem fits_laps {capacity tail room : Nat} (hc : 0 < capacity) (hr : 0 < room)
    (h : tail + room = capacity) (items : List α) :
    Fits capacity tail (laps capacity room items) := by
  fun_induction laps capacity room items generalizing tail with
  | case1 => trivial
  | case2 room item items ih =>
      have hlen : (item :: items.take (room - 1)).length = min room (items.length + 1) := by
        rw [List.length_cons, List.length_take]
        omega
      refine ⟨by omega, ?_⟩
      rcases Nat.lt_or_ge items.length room with hlt | hge
      · rw [List.drop_of_length_le (by omega), laps_nil]
        trivial
      · rw [hlen, Nat.min_eq_left (by omega), h, Nat.mod_self]
        exact ih hc (Nat.zero_add _)

namespace Ring

/-! ### Committing run by run -/

/-- The ring once the runs have been committed one after the other. -/
def commits (r : Ring α) (runs : List (List α)) : Ring α := runs.foldl commit r

/-- Commits one run after the other and shows each to the observer, up to the first it rejects. -/
def present (watch : Observer σ α) : σ → Ring α → List (List α) → Outcome σ α Unit
  | state, r, [] => ⟨r, state, [], .ok ()⟩
  | state, r, run :: runs =>
    let verdict := watch state (r.commit run) run
    let reports := Trace.ofOwn (r.overflow run.length) ++ verdict.trace
    match verdict.answer with
    | .error failure => ⟨r.commit run, verdict.state, reports, .error failure⟩
    | .ok () => (present watch verdict.state (r.commit run) runs).after reports

theorem window_overlay {slots items : List α} {start : Nat}
    (h : start + items.length ≤ slots.length) :
    window (overlay slots start items) start items.length = items := by
  have hs : (slots.take start).length = start := by rw [List.length_take]; omega
  unfold window overlay
  rw [List.append_assoc, List.drop_left' hs, List.take_left' rfl]

theorem tail_commit {r : Ring α} {run : List α} (hr : r.tail + run.length ≤ r.capacity) :
    (r.commit run).tail = (r.tail + run.length) % r.capacity := by
  have hc : (r.commit run).capacity = r.capacity := capacity_commit hr
  have hl : ({ r with slots := overlay r.slots r.tail run } : Ring α).capacity = r.capacity :=
    length_overlay hr
  rw [tail_add_mod]
  unfold tail
  rw [hc]
  unfold commit advance
  rw [hl]
  split
  · next ho =>
      have ho : r.capacity < r.count + run.length := hl ▸ ho
      simp only [forget]
      rw [Nat.mod_add_mod, show r.head + (r.count + run.length - r.capacity) + r.capacity =
        r.head + r.count + run.length by omega]
  · simp only [forget, Nat.add_assoc]

/-- The laps of an input from the write cursor on. -/
def lapsOf (r : Ring α) (items : List α) : List (List α) :=
  laps r.capacity (r.capacity - r.tail) items

theorem fits_lapsOf {r : Ring α} (h : r.Valid) (items : List α) :
    Fits r.capacity r.tail (r.lapsOf items) := by
  have ht := h.tail_lt
  exact fits_laps h.capacity_pos (by omega) (by omega) items

theorem Valid.commits {r : Ring α} (h : r.Valid) {runs : List (List α)}
    (hf : Fits r.capacity r.tail runs) : (r.commits runs).Valid := by
  induction runs generalizing r with
  | nil => exact h
  | cons run runs ih =>
      obtain ⟨hr, hf⟩ := hf
      rw [← tail_commit hr, ← capacity_commit hr] at hf
      exact ih (h.commit hr) hf

theorem capacity_commits {r : Ring α} (h : r.Valid) {runs : List (List α)}
    (hf : Fits r.capacity r.tail runs) : (r.commits runs).capacity = r.capacity := by
  induction runs generalizing r with
  | nil => rfl
  | cons run runs ih =>
      obtain ⟨hr, hf⟩ := hf
      rw [← tail_commit hr, ← capacity_commit hr] at hf
      exact (ih (h.commit hr) hf).trans (capacity_commit hr)

theorem tail_commits {r : Ring α} (h : r.Valid) {runs : List (List α)}
    (hf : Fits r.capacity r.tail runs) :
    (r.commits runs).tail = (r.tail + runs.flatten.length) % r.capacity := by
  induction runs generalizing r with
  | nil => exact (Nat.mod_eq_of_lt h.tail_lt).symm
  | cons run runs ih =>
      obtain ⟨hr, hf⟩ := hf
      rw [← tail_commit hr, ← capacity_commit hr] at hf
      have := ih (h.commit hr) hf
      rw [tail_commit hr, capacity_commit hr, Nat.mod_add_mod, Nat.add_assoc] at this
      rw [List.flatten_cons, List.length_append]
      exact this

/-- Runs committed one after the other are appended to the unread items. -/
theorem unread_commits [Inhabited α] {r : Ring α} (h : r.Valid) {runs : List (List α)}
    (hf : Fits r.capacity r.tail runs) :
    (r.commits runs).unread = (r.unread ++ runs.flatten).rtake r.capacity := by
  induction runs generalizing r with
  | nil =>
      rw [List.flatten_nil, List.append_nil,
        rtake_of_length_le (by rw [length_unread]; exact h.count_le)]
      rfl
  | cons run runs ih =>
      obtain ⟨hr, hf⟩ := hf
      rw [← tail_commit hr, ← capacity_commit hr] at hf
      have := ih (h.commit hr) hf
      rw [unread_commit h hr, capacity_commit hr, rtake_append_rtake, List.append_assoc] at this
      exact this

theorem first_run_fits {r : Ring α} (h : r.Valid) (item : α) (items : List α) :
    r.tail + (item :: items.take (r.capacity - r.tail - 1)).length ≤ r.capacity := by
  have ht := h.tail_lt
  rw [List.length_cons, List.length_take]
  omega

/-- Behind the first run an input is cut where the committed run ends. -/
theorem lapsOf_cons {r : Ring α} (h : r.Valid) (item : α) (items : List α) :
    r.lapsOf (item :: items) =
      (item :: items.take (r.capacity - r.tail - 1)) ::
        (r.commit (item :: items.take (r.capacity - r.tail - 1))).lapsOf
          (items.drop (r.capacity - r.tail - 1)) := by
  have ht := h.tail_lt
  have hr := first_run_fits h item items
  unfold lapsOf
  rw [laps_cons, capacity_commit hr, tail_commit hr]
  rcases Nat.lt_or_ge items.length (r.capacity - r.tail) with hlt | hge
  · rw [List.drop_of_length_le (by omega), laps_nil, laps_nil]
  · rw [show r.tail + (item :: items.take (r.capacity - r.tail - 1)).length = r.capacity by
        rw [List.length_cons, List.length_take]; omega, Nat.mod_self, Nat.sub_zero]

theorem window_commit {r : Ring α} {run : List α} (hr : r.tail + run.length ≤ r.capacity) :
    window (r.commit run).slots r.tail run.length = run := by
  have hs : (r.commit run).slots = overlay r.slots r.tail run := by
    unfold commit advance
    split <;> rfl
  rw [hs]
  exact window_overlay hr

/-- Writing run by run is presenting the laps of the input. -/
theorem writeLaps_eq_present {r : Ring α} (h : r.Valid) (watch : Observer σ α) (state : σ)
    (items : List α) :
    r.writeLaps watch state items = r.present watch state (r.lapsOf items) := by
  fun_induction writeLaps watch state r items with
  | case1 state r => rw [lapsOf, laps_nil]; rfl
  | case2 state r item items room run committed evicted verdict failure hv =>
      have hw := window_commit (first_run_fits h item items)
      simp only [verdict, committed, run, room, hw] at hv
      rw [lapsOf_cons h]
      simp only [present, hv, verdict, committed, run, room, hw, evicted]
  | case3 state r item items room run committed evicted verdict hv ih =>
      have hr := first_run_fits h item items
      have hw := window_commit hr
      have ih := ih (h.commit hr)
      simp only [verdict, committed, run, room, hw] at hv ih
      rw [lapsOf_cons h]
      simp only [present, hv, verdict, committed, run, room, hw, evicted, ih]

end Ring

end Carousel
