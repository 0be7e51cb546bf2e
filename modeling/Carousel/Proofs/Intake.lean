import Carousel.Proofs.Transcript

/-! # Taking in items one at a time

However a ring takes in items run by run, it ends as if it had taken them one at a time:
`Ring.writeItems` writes one item after the other, and committing runs is writing their items
(`commits_eq_writeItems`). So the ring that runs leave depends on their items only, not on where
they are cut.

A call of a producer is tidy (`Call.Tidy`) if it leaves the buffer behind its chunk as it was. A
pull makes of a tidy call what it would make of the chunk alone (`settle_of_tidy`): the slots that
were offered, but not taken, hold what they held. -/

namespace Carousel

variable {σ τ α : Type}

/-! ### Slots -/

theorem overlay_window {slots : List α} {start n : Nat} (h : start + n ≤ slots.length) :
    overlay slots start (window slots start n) = slots := by
  have hl := length_window h
  apply List.ext_getElem?
  intro i
  rw [getElem?_overlay (by omega), hl]
  split
  · rfl
  · split
    · rw [window, List.getElem?_take, if_pos (by omega), List.getElem?_drop]
      congr 1
      omega
    · rfl

/-- What a range holds behind its front may be laid over it again with the front. -/
theorem overlay_append_window {slots items : List α} {start n : Nat} (hn : items.length ≤ n)
    (h : start + n ≤ slots.length) :
    overlay slots start (items ++ (window slots start n).drop items.length) =
      overlay slots start items := by
  have hfront : start + items.length ≤ slots.length := by omega
  have hrest : (window slots start n).drop items.length =
      window (overlay slots start items) (start + items.length) (n - items.length) := by
    apply List.ext_getElem?
    intro i
    simp only [window, List.getElem?_drop, List.getElem?_take]
    by_cases hi : i < n - items.length
    · rw [if_pos (by omega), if_pos hi, getElem?_overlay hfront, if_neg (by omega),
        if_neg (by omega), Nat.add_assoc]
    · rw [if_neg (by omega), if_neg hi]
  have hl : (items ++ (window slots start n).drop items.length).length = n := by
    rw [List.length_append, List.length_drop, length_window h]
    omega
  rw [← overlay_append (by omega), hrest, overlay_window (by rw [length_overlay hfront]; omega)]

namespace Ring

/-! ### One item after the other -/

/-- Appends one item after the other. -/
def writeItems (r : Ring α) (items : List α) : Ring α := items.foldl writeItem r

@[simp] theorem writeItems_nil (r : Ring α) : r.writeItems [] = r := rfl

@[simp] theorem writeItems_cons (r : Ring α) (item : α) (items : List α) :
    r.writeItems (item :: items) = (r.writeItem item).writeItems items := rfl

theorem writeItems_append (r : Ring α) (xs ys : List α) :
    r.writeItems (xs ++ ys) = (r.writeItems xs).writeItems ys := List.foldl_append

theorem Valid.writeItems {r : Ring α} (h : r.Valid) (items : List α) :
    (r.writeItems items).Valid := by
  induction items generalizing r with
  | nil => exact h
  | cons item items ih => exact ih (h.writeItem item)

@[simp] theorem capacity_writeItems (r : Ring α) (items : List α) :
    (r.writeItems items).capacity = r.capacity := by
  induction items generalizing r with
  | nil => rfl
  | cons item items ih => exact (ih (r.writeItem item)).trans (r.capacity_writeItem item)

theorem tail_writeItem {r : Ring α} (h : r.Valid) (item : α) :
    (r.writeItem item).tail = (r.tail + 1) % r.capacity := by
  have hr : r.tail + [item].length ≤ r.capacity := h.tail_lt
  rw [writeItem_eq_commit h, tail_commit hr]
  rfl

theorem tail_writeItems {r : Ring α} (h : r.Valid) (items : List α) :
    (r.writeItems items).tail = (r.tail + items.length) % r.capacity := by
  induction items generalizing r with
  | nil => exact (Nat.mod_eq_of_lt h.tail_lt).symm
  | cons item items ih =>
      rw [writeItems_cons, ih (h.writeItem item), tail_writeItem h, capacity_writeItem,
        Nat.mod_add_mod, List.length_cons, Nat.add_assoc, Nat.add_comm 1]

theorem unread_writeItems [Inhabited α] {r : Ring α} (h : r.Valid) (items : List α) :
    (r.writeItems items).unread = (r.unread ++ items).rtake r.capacity := by
  induction items generalizing r with
  | nil =>
      rw [List.append_nil, rtake_of_length_le (by rw [length_unread]; exact h.count_le)]
      rfl
  | cons item items ih =>
      rw [writeItems_cons, ih (h.writeItem item), unread_writeItem h, capacity_writeItem,
        rtake_append_rtake, List.append_assoc]
      rfl

theorem canUnread_writeItems (r : Ring α) {items : List α} (hi : items ≠ []) :
    (r.writeItems items).canUnread = false := by
  rcases List.eq_nil_or_concat' items with rfl | ⟨earlier, item, rfl⟩
  · exact absurd rfl hi
  · rw [writeItems_append]
    rfl

/-! ### Runs -/

/-- The ring that committing a run leaves, field by field. -/
theorem commit_eq {r : Ring α} (h : r.Valid) {run : List α}
    (hr : r.tail + run.length ≤ r.capacity) :
    r.commit run =
      ⟨overlay r.slots r.tail run, (r.head + (r.count + run.length - r.capacity)) % r.capacity,
        min (r.count + run.length) r.capacity, false⟩ := by
  have hc : ({ r with slots := overlay r.slots r.tail run } : Ring α).capacity = r.capacity :=
    length_overlay hr
  unfold commit advance
  rw [hc]
  split
  · next ho => rw [Nat.min_eq_right (Nat.le_of_lt ho)]; rfl
  · next ho =>
      rw [Nat.min_eq_left (Nat.le_of_not_lt ho), Nat.sub_eq_zero_of_le (Nat.le_of_not_lt ho),
        Nat.add_zero, Nat.mod_eq_of_lt h.head_lt]
      rfl

theorem commit_append {r : Ring α} (h : r.Valid) {xs ys : List α} (hy : ys ≠ [])
    (hr : r.tail + (xs ++ ys).length ≤ r.capacity) :
    r.commit (xs ++ ys) = (r.commit xs).commit ys := by
  have hpos : 0 < ys.length := List.length_pos_iff.mpr hy
  have hlen : r.tail + (xs.length + ys.length) ≤ r.capacity := by rwa [List.length_append] at hr
  have hx : r.tail + xs.length ≤ r.capacity := by omega
  have hcap : (r.commit xs).capacity = r.capacity := capacity_commit hx
  have htail : (r.commit xs).tail = r.tail + xs.length := by
    rw [tail_commit hx, Nat.mod_eq_of_lt (by omega)]
  have hslots : overlay r.slots r.tail (xs ++ ys) =
      overlay (r.commit xs).slots (r.commit xs).tail ys := by
    rw [htail, commit_eq h hx]
    exact (overlay_append hr).symm
  rw [commit_eq h hr, commit_eq (h.commit hx) (by rw [htail, hcap]; omega), ← hslots, hcap,
    commit_eq h hx, List.length_append, Nat.mod_add_mod]
  have hhead : r.head + (r.count + xs.length - r.capacity) +
      (min (r.count + xs.length) r.capacity + ys.length - r.capacity) =
        r.head + (r.count + (xs.length + ys.length) - r.capacity) := by omega
  have hcount : min (min (r.count + xs.length) r.capacity + ys.length) r.capacity =
      min (r.count + (xs.length + ys.length)) r.capacity := by omega
  rw [hhead, hcount]

/-- Committing a run is writing its items. -/
theorem commit_eq_writeItems {r : Ring α} (h : r.Valid) {run : List α} (hne : run ≠ [])
    (hr : r.tail + run.length ≤ r.capacity) : r.commit run = r.writeItems run := by
  induction run generalizing r with
  | nil => exact absurd rfl hne
  | cons item run ih =>
      have hone := writeItem_eq_commit h item
      rcases eq_or_ne run [] with rfl | hrun
      · exact hone.symm
      · have hlen : r.tail + run.length < r.capacity := hr
        have hpos : 0 < run.length := List.length_pos_iff.mpr hrun
        have htail : (r.writeItem item).tail = r.tail + 1 := by
          rw [tail_writeItem h, Nat.mod_eq_of_lt (by omega)]
        rw [writeItems_cons, ← ih (h.writeItem item) hrun
          (by rw [htail, capacity_writeItem]; omega), hone]
        exact commit_append h hrun (show r.tail + ([item] ++ run).length ≤ r.capacity from hr)

/-- Committing runs is writing their items. -/
theorem commits_eq_writeItems {r : Ring α} (h : r.Valid) {runs : List (List α)}
    (hf : Fits r.capacity r.tail runs) (hne : ∀ run ∈ runs, run ≠ []) :
    r.commits runs = r.writeItems runs.flatten := by
  induction runs generalizing r with
  | nil => rfl
  | cons run runs ih =>
      obtain ⟨hr, hf⟩ := hf
      rw [← tail_commit hr, ← capacity_commit hr] at hf
      have hrest := ih (h.commit hr) hf fun x hx => hne x (List.mem_cons_of_mem _ hx)
      have hfirst := commit_eq_writeItems h (hne run List.mem_cons_self) hr
      rw [List.flatten_cons, writeItems_append, ← hfirst]
      exact hrest

theorem commits_lapsOf {r : Ring α} (h : r.Valid) {items : List α} {runs : List (List α)}
    (hr : runs <+: r.lapsOf items) : r.commits runs = r.writeItems runs.flatten :=
  commits_eq_writeItems h ((fits_lapsOf h items).initial hr) fun _ hx =>
    ne_nil_of_mem_laps (hr.subset hx)

@[simp] theorem flatten_lapsOf (r : Ring α) (items : List α) : (r.lapsOf items).flatten = items :=
  flatten_laps _ _ items

@[simp] theorem lapsOf_nil (r : Ring α) : r.lapsOf ([] : List α) = [] := laps_nil _ _

theorem commits_all_laps {r : Ring α} (h : r.Valid) (items : List α) :
    r.commits (r.lapsOf items) = r.writeItems items := by
  rw [commits_lapsOf h List.prefix_rfl, flatten_lapsOf]

end Ring

/-! ### Tidy calls -/

namespace Call

/-- The call leaves the buffer behind its chunk as it was. -/
def Tidy (c : Call σ α) : Prop := c.buffer = c.chunk ++ c.offered.drop c.chunk.length

/-- The same call, its producer's state seen as part of another. -/
def map (f : σ → τ) (c : Call σ α) : Call τ α := ⟨c.offered, c.delivery.map f⟩

@[simp] theorem buffer_map (f : σ → τ) (c : Call σ α) : (c.map f).buffer = c.buffer := rfl

@[simp] theorem chunk_map (f : σ → τ) (c : Call σ α) : (c.map f).chunk = c.chunk := rfl

@[simp] theorem accepted_map (f : σ → τ) (c : Call σ α) : (c.map f).accepted = c.accepted := rfl

@[simp] theorem state_map (f : σ → τ) (c : Call σ α) :
    (c.map f).delivery.state = f c.delivery.state := rfl

/-- What is accepted stands at the front of the buffer. -/
theorem chunk_prefix (c : Call σ α) : c.chunk <+: c.buffer := by
  unfold chunk
  split
  · split
    · exact List.nil_prefix
    · exact List.take_prefix _ _
  · exact List.nil_prefix

theorem length_chunk_le (c : Call σ α) : c.chunk.length ≤ c.offered.length := by
  rw [← c.length_buffer]
  exact c.chunk_prefix.length_le

variable {c : Call σ α}

theorem Tidy.map (h : c.Tidy) (f : σ → τ) : (c.map f).Tidy := h

/-- A call that signals the end of the data and stores nothing. -/
theorem tidy_of_end (ha : c.delivery.answer = .error .endOfData) (hb : c.buffer = c.offered) :
    c.Tidy ∧ c.chunk = [] ∧ c.accepted = .ok none := by
  have hacc : c.accepted = .ok none := by
    unfold accepted Delivery.accepted
    rw [ha]
  have hchunk : c.chunk = [] := chunk_of_not_accepted (by simp [hacc])
  refine ⟨?_, hchunk, hacc⟩
  unfold Tidy
  rw [hchunk]
  exact hb

/-- A call that stores as many items as it reports. -/
theorem tidy_of_count {n : Nat} {front : List α} (ha : c.delivery.answer = .ok n)
    (hn : n ≤ c.offered.length) (hb : c.buffer = front ++ c.offered.drop n)
    (hl : front.length = n) : c.Tidy ∧ c.chunk = front ∧ c.accepted = .ok (some n) := by
  have hacc : c.accepted = .ok (some n) := by
    unfold accepted Delivery.accepted
    rw [ha]
    exact if_neg (Nat.not_lt_of_le hn)
  have hchunk : c.chunk = front := by
    rw [(chunk_of_accepted hacc).1, hb, List.take_left' hl]
  refine ⟨?_, hchunk, hacc⟩
  unfold Tidy
  rw [hchunk, hl]
  exact hb

end Call

namespace Ring

variable [Inhabited α] {r : Ring α} {c : Call σ α} {staging : List α}

/-- A tidy call leaves nothing in the slots that it was offered but its chunk. -/
theorem touch_of_tidy (h : r.Valid) (hf : r.isFull = false) (ho : c.offered = r.offer staging)
    (ht : c.Tidy) : r.touch c.buffer = { r with slots := overlay r.slots r.tail c.chunk } := by
  have hv := tail_add_vacancy_le h
  have hoff : c.offered = window r.slots r.tail r.vacancy := ho.trans (offer_of_not_full hf staging)
  have hle := c.length_chunk_le
  rw [hoff, length_window hv] at hle
  rw [touch_of_not_full hf, ht, hoff, overlay_append_window hle hv]

/-- A pull makes of a tidy call what it would make of its chunk alone: it writes the chunk lap by
lap. -/
theorem settle_of_tidy (h : r.Valid) (hs : r.Staging staging) (ho : c.offered = r.offer staging)
    (ht : c.Tidy) (watch : Observer σ α) :
    r.settle watch c =
      (let o := r.present watch c.delivery.state (r.lapsOf c.chunk)
      ⟨o.ring, o.state, o.trace, c.accepted.bind fun accepted => o.answer.map fun _ => accepted⟩) := by
  cases hf : r.isFull with
  | true =>
      unfold settle
      rw [touch_of_full hf]
  | false =>
      have htouch := touch_of_tidy h hf ho ht
      have hv := tail_add_vacancy_le h
      have hlen : c.offered.length = r.vacancy := by rw [ho, length_offer h hs, hf]; rfl
      have hle : r.tail + c.chunk.length ≤ r.capacity := by
        have := c.length_chunk_le
        omega
      have hcap : (r.touch c.buffer).capacity = r.capacity := by
        rw [htouch]
        exact length_overlay hle
      have htail : (r.touch c.buffer).tail = r.tail := by
        unfold tail
        rw [hcap, htouch]
      rcases eq_or_ne c.chunk [] with hnil | hne
      · rw [settle_of_chunk_nil hnil, htouch, hnil, overlay_nil, lapsOf, laps_nil]
        cases c.accepted <;> rfl
      -- the one run of the chunk is stored where the call has left it already
      · have hcommit : (r.touch c.buffer).commit c.chunk = r.commit c.chunk := by
          unfold commit
          rw [htail, htouch]
          dsimp only
          rw [overlay_overlay hle rfl]
        have hover : (r.touch c.buffer).overflow c.chunk.length = r.overflow c.chunk.length := by
          unfold overflow
          rw [hcap, count_touch]
        unfold settle
        rw [lapsOf_of_le hne (by rw [htail, hcap]; omega), lapsOf_of_le hne (by omega)]
        simp only [present, hcommit, hover]

/-- The staging buffer that a call leaves goes on to fit. -/
theorem staging_call (h : r.Valid) (hs : r.Staging staging) (ho : c.offered = r.offer staging)
    (items : List α) : (r.writeItems items).Staging (if r.isFull then c.buffer else staging) := by
  unfold Staging
  rw [capacity_writeItems]
  split
  · next hf =>
      right
      rw [Call.length_buffer, ho]
      exact (length_offer h hs).trans (if_pos hf)
  · exact hs

/-- What one call of a pull leaves if the call is tidy. -/
theorem pullOnce_of_tidy (h : r.Valid) (hs : r.Staging staging) {produce : Producer σ α}
    {state : σ} (hc : r.call produce state staging = c) (ht : c.Tidy) (watch : Observer σ α) :
    r.pullOnce produce watch state staging =
      (let o := r.present watch c.delivery.state (r.lapsOf c.chunk)
      (⟨o.ring, o.state, o.trace, c.accepted.bind fun accepted => o.answer.map fun _ => accepted⟩,
        if r.isFull then c.buffer else staging)) := by
  rw [pullOnce_eq h, hc, settle_of_tidy h hs (by rw [← hc]; rfl) ht]

end Ring

end Carousel
