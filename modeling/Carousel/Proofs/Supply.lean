import Carousel.Proofs.Dispatch
import Carousel.Proofs.Intake
import Carousel.Proofs.Queue

/-! # Pulling from a finite supply

A supply is a list, a queue or a ring that gives its items away, as many in each call as the
buffer holds. A stage that pulls from a supply ends, because every call takes an item or is the
last. The items that leave the supply are shown to the filter in order, except for those behind a
run that it rejects: in a full stage a chunk is staged before its runs are committed, and what is
staged behind the rejected run is lost.

* `Producer.Supplies`: what the three kinds of supply have in common (`Supply.deliver_supplies`).
* `Ring.spill`: how many staged items may wait behind a run; only a full ring has any.
* `pull_supplied`: what a pull shows, takes and loses, by induction on the number of calls.
* `Stage.lost_behind_rejection`: the same for a stage, `Stage.staged_item_lost` an item lost. -/

namespace Carousel

variable {σ τ α : Type}

/-! ### Supplies -/

/-- A finite source of items. -/
inductive Supply (α : Type) where
  | list (items : List α)
  | queue (items : List α)
  | ring (ring : Ring α)

/-- A producer that hands out the items that its state holds, as many as fit, and stores nothing
else. -/
structure Producer.Supplies (produce : Producer σ α) (holds : σ → List α → Prop) : Prop where
  answer_eq : ∀ {state items buffer}, holds state items → buffer ≠ [] →
    (produce state buffer).answer =
      if items = [] then .error .endOfData else .ok (min buffer.length items.length)
  buffer_eq : ∀ {state items buffer}, holds state items → buffer ≠ [] →
    (produce state buffer).buffer buffer = items.take buffer.length ++ buffer.drop items.length
  kept : ∀ {state items buffer}, holds state items → buffer ≠ [] →
    holds (produce state buffer).state (items.drop buffer.length)

theorem cover_take (buffer items : List α) :
    cover buffer (items.take buffer.length) =
      items.take buffer.length ++ buffer.drop items.length := by
  rw [Ring.cover_eq_append (by rw [List.length_take]; omega), List.length_take]
  rcases Nat.le_total buffer.length items.length with h | h
  · rw [Nat.min_eq_left h, List.drop_length, List.drop_of_length_le h]
  · rw [Nat.min_eq_right h]

namespace Producer

theorem drain_eq (items : List α) (n : Nat) : drain items n = (items.take n, items.drop n) := by
  induction n generalizing items with
  | zero => cases items <;> rfl
  | succ n ih =>
      cases items with
      | nil => rfl
      | cons item items => simp [drain, ih]

/-- The two ways to give a list away come to the same. -/
theorem ofQueue_eq_ofList : (ofQueue : Producer (List α) α) = ofList := by
  funext items buffer
  unfold ofQueue ofList
  rw [drain_eq]
  dsimp only
  rw [← List.take_eq_take_min, ← List.drop_eq_drop_min]

theorem ofList_supplies :
    (ofList : Producer (List α) α).Supplies fun left items => left = items where
  answer_eq := by
    rintro left items buffer rfl hb
    unfold ofList
    rw [if_neg (by simpa using hb)]
    simp only [List.isEmpty_iff]
    split <;> rfl
  buffer_eq := by
    rintro left items buffer rfl hb
    unfold ofList Delivery.buffer
    rw [if_neg (by simpa using hb), ← cover_take]
    split
    · next he => rw [List.isEmpty_iff.mp he, List.take_nil]
    · dsimp only
      rw [← List.take_eq_take_min]
  kept := by
    rintro left items buffer rfl hb
    unfold ofList
    rw [if_neg (by simpa using hb)]
    split
    · next he => rw [List.isEmpty_iff.mp he, List.drop_nil]
    · exact List.drop_eq_drop_min.symm

theorem ofQueue_supplies :
    (ofQueue : Producer (List α) α).Supplies fun left items => left = items :=
  ofQueue_eq_ofList ▸ ofList_supplies

theorem read_supplies [Inhabited α] :
    Supplies (Ring.read : Producer (Ring α) α) fun r items => r.Valid ∧ r.unread = items where
  answer_eq := by
    rintro r items buffer ⟨hv, rfl⟩ hb
    have he : r.unread = [] ↔ r.count = 0 := by rw [← List.length_eq_zero_iff, Ring.length_unread]
    unfold Ring.read
    rw [if_neg (by simpa using hb), Ring.length_unread]
    simp only [he]
    split <;> rfl
  buffer_eq := by
    rintro r items buffer ⟨hv, rfl⟩ hb
    unfold Ring.read Delivery.buffer
    rw [if_neg (by simpa using hb), ← cover_take]
    split
    · next h0 =>
        have hu : r.unread = [] := List.length_eq_zero_iff.mp (by rw [Ring.length_unread, h0])
        rw [hu, List.take_nil]
    · dsimp only
      rw [Ring.front_eq_take hv, ← Ring.length_unread r, ← List.take_eq_take_min]
  kept := by
    rintro r items buffer ⟨hv, rfl⟩ hb
    refine ⟨hv.read buffer, ?_⟩
    unfold Ring.read
    rw [if_neg (by simpa using hb)]
    split
    · next h0 =>
        have hu : r.unread = [] := List.length_eq_zero_iff.mp (by rw [Ring.length_unread, h0])
        rw [Ring.unread_forget, hu, List.drop_nil]
    · dsimp only
      rw [Ring.unread_consume r (Nat.min_le_right _ _), ← Ring.length_unread r,
        ← List.drop_eq_drop_min]

/-- A part of a larger state supplies what it supplies on its own. -/
theorem Supplies.focus {produce : Producer σ α} {holds : σ → List α → Prop}
    (h : produce.Supplies holds) (get : τ → σ) (put : τ → σ → τ)
    (hput : ∀ whole state, get (put whole state) = state) :
    (produce.focus get put).Supplies fun whole items => holds (get whole) items where
  answer_eq hh hb := h.answer_eq hh hb
  buffer_eq hh hb := h.buffer_eq hh hb
  kept hh hb := by
    change holds (get (put _ _)) _
    rw [hput]
    exact h.kept hh hb

end Producer

namespace Supply

variable [Inhabited α]

/-- The items that are left in a supply. -/
def items : Supply α → List α
  | list items => items
  | queue items => items
  | ring r => r.unread

/-- A ring that supplies items is one that its operations make. -/
def Sound : Supply α → Prop
  | ring r => r.Valid
  | _ => True

omit [Inhabited α] in
/-- A supply as a producer. -/
def deliver : Producer (Supply α) α := fun supply buffer =>
  match supply with
  | list items => (Producer.ofList items buffer).map list
  | queue items => (Producer.ofQueue items buffer).map queue
  | ring r => (r.read buffer).map ring

theorem deliver_supplies :
    (deliver : Producer (Supply α) α).Supplies fun supply items =>
      supply.Sound ∧ supply.items = items where
  answer_eq := by
    rintro supply items buffer ⟨hs, hi⟩ hb
    cases supply with
    | list left => exact Producer.ofList_supplies.answer_eq hi hb
    | queue left => exact Producer.ofQueue_supplies.answer_eq hi hb
    | ring r => exact Producer.read_supplies.answer_eq ⟨hs, hi⟩ hb
  buffer_eq := by
    rintro supply items buffer ⟨hs, hi⟩ hb
    cases supply with
    | list left => exact Producer.ofList_supplies.buffer_eq hi hb
    | queue left => exact Producer.ofQueue_supplies.buffer_eq hi hb
    | ring r => exact Producer.read_supplies.buffer_eq ⟨hs, hi⟩ hb
  kept := by
    rintro supply items buffer ⟨hs, hi⟩ hb
    cases supply with
    | list left => exact ⟨trivial, Producer.ofList_supplies.kept hi hb⟩
    | queue left => exact ⟨trivial, Producer.ofQueue_supplies.kept hi hb⟩
    | ring r => exact Producer.read_supplies.kept ⟨hs, hi⟩ hb

end Supply

/-! ### What is staged behind a run -/

theorem laps_of_le {capacity room : Nat} {items : List α} (h0 : items ≠ [])
    (hn : items.length ≤ room) : laps capacity room items = [items] := by
  obtain ⟨item, items, rfl⟩ := List.exists_cons_of_ne_nil h0
  rw [List.length_cons] at hn
  rw [laps_cons, List.take_of_length_le (by omega), List.drop_of_length_le (by omega), laps_nil]

theorem laps_of_lt {capacity room : Nat} {items : List α} (hr : 0 < room)
    (hn : room < items.length) :
    laps capacity room items = items.take room :: laps capacity capacity (items.drop room) := by
  obtain ⟨item, items, rfl⟩ := List.exists_cons_of_length_pos (show 0 < items.length by omega)
  obtain ⟨room, rfl⟩ := Nat.exists_eq_succ_of_ne_zero (Nat.ne_of_gt hr)
  rw [laps_cons, Nat.succ_sub_one, List.take_succ_cons, List.drop_succ_cons]

theorem prefix_pair {x y : α} {xs : List α} (h : xs <+: [x, y]) (hne : xs ≠ []) :
    xs = [x] ∨ xs = [x, y] := by
  obtain ⟨z, zs, rfl⟩ := List.exists_cons_of_ne_nil hne
  obtain ⟨rfl, hzs⟩ := List.cons_prefix_cons.mp h
  rcases zs with - | ⟨w, ws⟩
  · exact .inl rfl
  · obtain ⟨rfl, hws⟩ := List.cons_prefix_cons.mp hzs
    rw [List.prefix_nil.mp hws]
    exact .inr rfl

namespace Ring

/-- How many items of a chunk may be staged behind the run that ends at the last slot: a chunk
that is filled in place ends there too. -/
def spill (r : Ring α) : Nat := if r.isFull then r.tail else 0

theorem spill_le_tail (r : Ring α) : r.spill ≤ r.tail := by
  unfold spill
  split <;> omega

/-- If the last of the runs that are shown of a chunk is rejected, what is left of the chunk is
what may be staged behind it. -/
theorem drop_chunk_eq {r : Ring α} (h : r.Valid) {items : List α} {runs : List (List α)}
    {offered : Nat} (ho : offered = if r.isFull then r.capacity else r.vacancy)
    (hr : runs <+: r.lapsOf (items.take offered)) (hne : runs ≠ []) :
    (items.take offered).drop runs.flatten.length =
      (items.drop runs.flatten.length).take (r.writeItems runs.dropLast.flatten).spill := by
  have ht := h.tail_lt
  have hv := tail_add_vacancy_le h
  have hchunk : items.take offered ≠ [] := by
    rintro hnil
    rw [hnil, lapsOf_nil] at hr
    exact hne (List.prefix_nil.mp hr)
  have hlen : (items.take offered).length = min offered items.length := List.length_take
  rcases Nat.lt_or_ge (r.capacity - r.tail) (items.take offered).length with hlt | hge
  -- a chunk of two runs has been staged, and the first of them ends at the last slot
  · have hfull : r.isFull = true := by
      by_contra hf
      rw [if_neg hf] at ho
      omega
    rw [if_pos hfull] at ho
    subst ho
    have hfirst : ((items.take r.capacity).take (r.capacity - r.tail)).length =
        r.capacity - r.tail := by
      rw [List.length_take]
      omega
    unfold lapsOf at hr
    rw [laps_of_lt (by omega) hlt, laps_of_le (by rw [ne_eq, List.drop_eq_nil_iff]; omega)
      (by rw [List.length_drop]; omega)] at hr
    rcases prefix_pair hr hne with rfl | rfl
    · have hspill : r.spill = r.capacity - (r.capacity - r.tail) := by
        rw [spill, if_pos hfull]
        omega
      simp only [List.flatten_cons, List.flatten_nil, List.append_nil, List.dropLast_singleton,
        writeItems_nil]
      rw [hfirst, hspill, List.drop_take]
    · have htail := tail_writeItems h ((items.take r.capacity).take (r.capacity - r.tail))
      rw [hfirst, show r.tail + (r.capacity - r.tail) = r.capacity by omega, Nat.mod_self] at htail
      have hspill := (r.writeItems ((items.take r.capacity).take (r.capacity - r.tail))).spill_le_tail
      rw [htail] at hspill
      simp only [List.flatten_cons, List.flatten_nil, List.append_nil, List.dropLast_cons_cons,
        List.dropLast_singleton, List.take_append_drop]
      rw [Nat.le_zero.mp hspill, List.take_zero, List.drop_length]
  -- a chunk of one run leaves nothing behind it
  · rw [lapsOf_of_le hchunk hge] at hr
    obtain rfl : runs = [items.take offered] := by
      obtain ⟨run, runs, rfl⟩ := List.exists_cons_of_ne_nil hne
      obtain ⟨rfl, hruns⟩ := List.cons_prefix_cons.mp hr
      rw [List.prefix_nil.mp hruns]
    simp only [List.flatten_cons, List.flatten_nil, List.append_nil, List.dropLast_singleton,
      writeItems_nil, List.drop_length]
    symm
    rw [List.take_eq_nil_iff, List.drop_eq_nil_iff, hlen]
    unfold spill
    split
    · next hf =>
        rw [if_pos hf] at ho
        omega
    · exact .inl rfl

end Ring

/-! ### Pulls from a supply -/

section Supplied

variable [Inhabited α] {produce : Producer σ α} {watch : Observer σ α}
  {holds : σ → List α → Prop} {r : Ring α} {items : List α} {state : σ}
  {p : Ring.Progress α}

omit [Inhabited α] in
/-- A call of a supply takes what fits, and is the last if there is nothing to take. -/
theorem Producer.Supplies.call (hp : produce.Supplies holds) (hh : holds state items)
    {buffer : List α} (hb : buffer ≠ []) {c : Call σ α}
    (hc : c = ⟨buffer, produce state buffer⟩) :
    c.Tidy ∧ c.chunk = items.take buffer.length ∧
      c.accepted = .ok (if items = [] then none else some (min buffer.length items.length)) := by
  have hanswer : c.delivery.answer =
      if items = [] then .error .endOfData else .ok (min buffer.length items.length) := by
    rw [hc]
    exact hp.answer_eq hh hb
  have hbuffer : c.buffer = items.take buffer.length ++ buffer.drop items.length := by
    rw [hc]
    exact hp.buffer_eq hh hb
  have hoffered : c.offered = buffer := by rw [hc]
  by_cases hi : items = []
  · rw [if_pos hi] at hanswer ⊢
    rw [hi, List.take_nil]
    refine Call.tidy_of_end hanswer ?_
    rw [hbuffer, hi, hoffered, List.take_nil]
    rfl
  · rw [if_neg hi] at hanswer ⊢
    refine Call.tidy_of_count hanswer (hoffered ▸ Nat.min_le_left _ _) ?_ List.length_take
    rw [hbuffer, hoffered, Nat.min_comm, ← List.drop_eq_drop_min]

omit [Inhabited α] in
theorem Observer.runsOf_ne_nil {shown : List (Showing σ α)} {failure : Failure}
    (h : watch.rejection shown = some failure) : runsOf shown ≠ [] := by
  rintro hnil
  rw [runsOf, List.map_eq_nil_iff] at hnil
  rw [hnil] at h
  cases h

/-- What is lost of `items` if the last of the runs that are shown is rejected: what is staged
behind it. -/
def Ring.lost (r : Ring α) (items : List α) (runs : List (List α)) : List α :=
  (items.drop runs.flatten.length).take (r.writeItems runs.dropLast.flatten).spill

/-- What a pull of `items` leaves, `total` items having been pulled before. -/
structure Supplied (watch : Observer σ α) (holds : σ → List α → Prop) (r : Ring α)
    (items : List α) (total : Nat) (shown : List (Showing σ α)) (final : σ) (after : Ring α)
    (answer : Except Failure Nat) : Prop where
  ring_eq : after = r.writeItems (runsOf shown).flatten
  completed : watch.rejection shown = none →
    answer = .ok (total + items.length) ∧ (runsOf shown).flatten = items ∧ holds final []
  stopped : ∀ failure, watch.rejection shown = some failure →
    answer = .error failure ∧ ∃ left, holds final left ∧
      items = (runsOf shown).flatten ++ r.lost items (runsOf shown) ++ left

/-- One call: the ring holds what is shown of the chunk, and the supply what it has not given. -/
theorem pullOnce_supplied (log : Log σ α) (hp : produce.Supplies holds)
    (hw : ∀ items, watch.Keeps (holds · items)) (h : r.Valid) (hs : r.Staging p.staging)
    (hh : holds state items) :
    ∃ o staging final shown,
      r.pullOnce produce.recorded watch.recorded (state, log) p.staging = (o, staging) ∧
      Presented watch r (r.lapsOf (items.take (r.offer p.staging).length)) shown ∧
      holds final (items.drop (r.offer p.staging).length) ∧
      o.ring = r.writeItems (runsOf shown).flatten ∧
      o.state =
        (final, ⟨log.calls ++ [r.call produce state p.staging], log.showings ++ shown⟩) ∧
      o.answer =
        (match watch.rejection shown with
        | some failure => .error failure
        | none =>
          .ok (if items = [] then none else some (min (r.offer p.staging).length items.length))) ∧
      ∀ items, (r.writeItems items).Staging staging := by
  have hne := Ring.offer_ne_nil h hs
  generalize hc : r.call produce state p.staging = c
  obtain ⟨htidy, hchunk, hacc⟩ := hp.call hh hne hc.symm
  have hrecorded : r.call produce.recorded (state, log) p.staging =
      c.map fun next => (next, { log with calls := log.calls ++ [c] }) := by
    rw [← hc]
    rfl
  have hcall := Ring.pullOnce_of_tidy h hs hrecorded (htidy.map _) watch.recorded
  have hstaging := Ring.staging_call h hs (show c.offered = r.offer p.staging by rw [← hc]; rfl)
  rw [Call.chunk_map, Call.accepted_map, Call.buffer_map, Call.state_map, hacc] at hcall
  obtain ⟨final, shown, hshown, hfinal, hring, hanswer⟩ :=
    present_recorded watch r (r.lapsOf c.chunk) c.delivery.state ⟨log.calls ++ [c], log.showings⟩
  have hkept : holds final (items.drop (r.offer p.staging).length) := by
    have hk : watch.recorded.Keeps fun s => holds s.1 (items.drop (r.offer p.staging).length) :=
      fun s ring run => hw _ s.1 ring run
    have hgiven : holds c.delivery.state (items.drop (r.offer p.staging).length) := by
      rw [← hc]
      exact hp.kept hh hne
    have hpresent := hk.present r (r.lapsOf c.chunk)
      (c.delivery.state, ⟨log.calls ++ [c], log.showings⟩) hgiven
    rwa [hfinal] at hpresent
  refine ⟨_, _, final, shown, hcall, hchunk ▸ hshown, hkept, ?_, hfinal, ?_, hstaging⟩
  · exact hring.trans (Ring.commits_lapsOf h hshown.in_order)
  · dsimp only
    rw [hanswer]
    cases watch.rejection shown <;> rfl

namespace Supplied

variable {total n : Nat} {final : σ} {first shown : List (Showing σ α)} {after : Ring α}
  {answer : Except Failure Nat}

omit [Inhabited α] in
/-- A pull goes on as one of what is left, behind a chunk that is shown in full. -/
theorem prepend (hr : watch.rejection first = none) (hn : (runsOf first).flatten = items.take n)
    (hs : Supplied watch holds (r.writeItems (items.take n)) (items.drop n)
      (total + min n items.length) shown final after answer) :
    Supplied watch holds r items total (first ++ shown) final after answer where
  ring_eq := by
    rw [hs.ring_eq, runsOf_append, List.flatten_append, Ring.writeItems_append, hn]
  completed hnone := by
    rw [Observer.rejection_append hr] at hnone
    obtain ⟨hanswer, hruns, hleft⟩ := hs.completed hnone
    refine ⟨?_, ?_, hleft⟩
    · rw [hanswer, List.length_drop]
      congr 1
      omega
    · rw [runsOf_append, List.flatten_append, hn, hruns, List.take_append_drop]
  stopped failure hsome := by
    rw [Observer.rejection_append hr] at hsome
    obtain ⟨hanswer, left, hleft, hitems⟩ := hs.stopped failure hsome
    refine ⟨hanswer, left, hleft, ?_⟩
    have hne := Observer.runsOf_ne_nil hsome
    have hdrop : items.drop ((items.take n).length + (runsOf shown).flatten.length) =
        (items.drop n).drop (runsOf shown).flatten.length := by
      rw [← List.drop_drop, List.length_take, ← List.drop_eq_drop_min]
    have hlost : r.lost items (runsOf (first ++ shown)) =
        (r.writeItems (items.take n)).lost (items.drop n) (runsOf shown) := by
      unfold Ring.lost
      rw [runsOf_append, List.dropLast_append_of_ne_nil hne, List.flatten_append,
        List.flatten_append, hn, List.length_append, hdrop, Ring.writeItems_append]
    rw [hlost, runsOf_append, List.flatten_append, hn, List.append_assoc, List.append_assoc,
      ← List.append_assoc (runsOf shown).flatten, ← hitems, List.take_append_drop]

end Supplied

/-- **What a pull from a supply does**: it ends, the ring holds what was shown, and nothing else
has left the supply but what is staged behind a run that is rejected. -/
theorem pull_supplied (log : Log σ α) (hp : produce.Supplies holds)
    (hw : ∀ items, watch.Keeps (holds · items)) (h : r.Valid) (hs : r.Staging p.staging)
    (hh : holds state items) {limit : Nat} (hl : items.length < limit) :
    ∃ o shown, r.pullFrom produce.recorded watch.recorded limit (state, log) p = some o ∧
      o.state.2.showings = log.showings ++ shown ∧
      Supplied watch holds r items p.total shown o.state.1 o.ring o.answer := by
  induction limit generalizing r items state log p with
  | zero => omega
  | succ limit ih =>
      have hpos : 0 < (r.offer p.staging).length :=
        List.length_pos_iff.mpr (Ring.offer_ne_nil h hs)
      have hoffered := Ring.length_offer h hs
      obtain ⟨o, staging, final, shown, hcall, hshown, hkept, hring, hstate, hanswer, hstaging⟩ :=
        pullOnce_supplied log hp hw h hs hh
      generalize (r.offer p.staging).length = offered at *
      cases hr : watch.rejection shown with
      | some failure =>
          rw [hr] at hanswer
          refine ⟨_, shown, Ring.pullFrom_of_failure hcall limit hanswer, by rw [hstate], ?_⟩
          refine ⟨hring, by simp [hr], ?_⟩
          intro failure' hf
          rw [hr] at hf
          cases hf
          refine ⟨rfl, items.drop offered, by rw [hstate]; exact hkept, ?_⟩
          have hne := Observer.runsOf_ne_nil hr
          have hfront : (runsOf shown).flatten <+: items.take offered := by
            obtain ⟨later, hlater⟩ := hshown.in_order
            refine ⟨later.flatten, ?_⟩
            rw [← List.flatten_append, hlater, Ring.flatten_lapsOf]
          have hrest : items.drop (runsOf shown).flatten.length =
              r.lost items (runsOf shown) ++ items.drop offered := by
            unfold Ring.lost
            rw [← Ring.drop_chunk_eq h hoffered hshown.in_order hne,
              ← List.drop_append_of_le_length hfront.length_le, List.take_append_drop]
          rw [List.append_assoc, ← hrest,
            List.prefix_iff_eq_append.mp (hfront.trans (List.take_prefix _ _))]
      | none =>
          rw [hr] at hanswer
          have hruns := hshown.complete hr
          have hflat : (runsOf shown).flatten = items.take offered := by
            rw [hruns, Ring.flatten_lapsOf]
          by_cases hi : items = []
          · rw [if_pos hi] at hanswer
            refine ⟨_, shown, Ring.pullFrom_of_end hcall limit hanswer, by rw [hstate], ?_⟩
            refine ⟨hring, fun _ => ⟨?_, ?_, ?_⟩, by simp [hr]⟩
            · rw [hi]
              rfl
            · rw [hflat, hi, List.take_nil]
            · rw [hi, List.drop_nil] at hkept
              rw [hstate]
              exact hkept
          · have hlen : 0 < items.length := List.length_pos_iff.mpr hi
            rw [if_neg hi] at hanswer
            have hne0 : min offered items.length ≠ 0 := by omega
            have hnext := Ring.pullFrom_of_next hcall limit hanswer (by
              rw [if_neg hne0]
              decide)
            rw [hring, hflat, hstate, if_neg hne0] at hnext
            obtain ⟨o', shown', ho', hshowings, hs'⟩ := ih
              ⟨log.calls ++ [r.call produce state p.staging], log.showings ++ shown⟩
              (p := ⟨p.total + min offered items.length, 0, staging⟩) (h.writeItems _)
              (hstaging _) hkept (by rw [List.length_drop]; omega)
            rw [ho'] at hnext
            refine ⟨_, shown ++ shown', hnext, ?_, hs'.prepend hr hflat⟩
            exact hshowings.trans (List.append_assoc _ _ _)

end Supplied

/-! ### Stages that pull from a supply -/

/-- A filter beside other foreign code: each has a state of its own. -/
def Filter.beside (filter : Filter σ α) : Filter (σ × τ) α :=
  filter.focus Prod.fst fun whole state => (state, whole.2)

/-- A producer beside other foreign code: each has a state of its own. -/
def Producer.beside (produce : Producer τ α) : Producer (σ × τ) α :=
  produce.focus Prod.snd fun whole state => (whole.1, state)

theorem Filter.state_observer (filter : Filter σ α) (state : σ) (r : Ring α) (run : List α) :
    (filter.observer state r run).state = (filter state run).state := by
  unfold observer
  dsimp only
  split <;> rfl

theorem Filter.beside_keeps (filter : Filter σ α) (holds : τ → Prop) :
    (filter.beside (τ := τ)).observer.Keeps fun state => holds state.2 := by
  intro state r run hh
  rw [Filter.state_observer]
  exact hh

namespace Ring

/-- Something is lost if the rejected run is the first of a staged chunk, does not end the chunk,
and ends at the last slot in front of others. -/
theorem lost_eq_nil_iff (r : Ring α) (items : List α) (runs : List (List α)) :
    r.lost items runs = [] ↔
      ((r.writeItems runs.dropLast.flatten).isFull = true →
        (r.writeItems runs.dropLast.flatten).tail = 0 ∨ items.length ≤ runs.flatten.length) := by
  unfold lost spill
  rw [List.take_eq_nil_iff, List.drop_eq_nil_iff]
  split
  · next hf => exact ⟨fun hx _ => hx, fun hx => hx hf⟩
  · next hf => simp [hf]

end Ring

namespace Stage

variable [Inhabited α]

/-- **A stage that pulls from a supply loses nothing but what is staged behind a rejected run.**
The pull ends. What has left the supply is what the filter was shown, in order and all of it
committed; if a run is rejected, up to as many items more are lost as there are slots in front of
the write cursor that the run was committed at. So nothing is lost unless the ring was full before
that run, its write cursor not at slot 0, and the supply not yet empty. -/
theorem lost_behind_rejection {r : Ring α} (h : r.Valid) (filter : Filter σ α) (state : σ)
    {source : Supply α} (hs : source.Sound) {limit : Nat} (hl : source.items.length < limit) :
    ∃ o runs,
      (Stage.mk r filter.beside).readFromRecorded Supply.deliver.beside limit (state, source) =
        some o ∧
      (Stage.mk r filter.beside).readFrom Supply.deliver.beside limit (state, source) =
        some (o.mapState Prod.fst) ∧
      runs = runsOf o.state.2.showings ∧
      o.ring = r.writeItems runs.flatten ∧
      match filter.beside.rejection o.state.2.showings with
      | none =>
        o.answer = .ok source.items.length ∧ runs.flatten = source.items ∧ o.state.1.2.items = []
      | some cause =>
        o.answer = .error (.rejected cause) ∧
          source.items = runs.flatten ++ r.lost source.items runs ++ o.state.1.2.items ∧
          (r.lost source.items runs = [] ↔
            ((r.writeItems runs.dropLast.flatten).isFull = true →
              (r.writeItems runs.dropLast.flatten).tail = 0 ∨
                source.items.length ≤ runs.flatten.length)) := by
  have hp : (Supply.deliver.beside : Producer (σ × Supply α) α).Supplies fun state items =>
      state.2.Sound ∧ state.2.items = items :=
    Supply.deliver_supplies.focus _ _ fun _ _ => rfl
  have hw : ∀ items, (filter.beside (τ := Supply α)).observer.Keeps fun state =>
      state.2.Sound ∧ state.2.items = items :=
    fun items => filter.beside_keeps fun supply : Supply α => supply.Sound ∧ supply.items = items
  have hh : ((state, source) : σ × Supply α).2.Sound ∧
    ((state, source) : σ × Supply α).2.items = source.items := ⟨hs, rfl⟩
  have hstaging : r.Staging (⟨0, 0, []⟩ : Ring.Progress α).staging := .inl rfl
  obtain ⟨o, shown, ho, hshowings, hsupplied⟩ :=
    pull_supplied .empty hp hw h hstaging hh hl
  obtain rfl : o.state.2.showings = shown := hshowings
  have hread : (Stage.mk r filter.beside).readFromRecorded Supply.deliver.beside limit
    (state, source) = some o := ho
  have herase := (Stage.mk r filter.beside).readFromRecorded_erase Supply.deliver.beside limit
    (state, source)
  rw [hread] at herase
  refine ⟨o, runsOf o.state.2.showings, hread, herase.symm, rfl, hsupplied.ring_eq, ?_⟩
  cases hc : (filter.beside (τ := Supply α)).rejection o.state.2.showings with
  | none =>
      obtain ⟨hanswer, hruns, -, hleft⟩ :=
        hsupplied.completed (Filter.observer_rejection_eq_none.mpr hc)
      rw [Nat.zero_add] at hanswer
      exact ⟨hanswer, hruns, hleft⟩
  | some cause =>
      obtain ⟨hanswer, left, ⟨-, rfl⟩, hitems⟩ :=
        hsupplied.stopped _ (Filter.observer_rejection_of_some hc)
      exact ⟨hanswer, hitems, r.lost_eq_nil_iff _ _⟩

/-- A full ring whose write cursor is not at slot 0. -/
def packed : Ring Nat := ⟨[3, 2], 1, 2, false⟩

/-- Rejects every run. -/
def refusing : Filter Unit Nat := fun state _ => ⟨state, [], .error (.text "refused")⟩

/-- Two of the three items are pulled, and the first of them is shown and rejected. -/
theorem pull_packed_refusing :
    ∃ o, (Stage.mk packed refusing.beside).readFromRecorded Supply.deliver.beside 4
        ((), .list [4, 5, 6]) = some o ∧
      runsOf o.state.2.showings = [[4]] ∧ o.state.1.2.items = [6] ∧
      refusing.beside.rejection o.state.2.showings = some (.text "refused") := by
  have hv : packed.Valid := ⟨by decide, by decide, by decide, by decide⟩
  have hlaps : packed.lapsOf [4, 5] = [[4], [5]] := by
    simp [Ring.lapsOf, packed, Ring.capacity, Ring.tail, laps_cons]
  have hcall := Ring.pullOnce_eq hv (Producer.recorded Supply.deliver.beside)
    refusing.beside.observer.recorded (((), .list [4, 5, 6]), .empty) []
  generalize hc : packed.call (Producer.recorded Supply.deliver.beside)
    (((), .list [4, 5, 6]), .empty) [] = c at hcall
  have hchunk : c.chunk = [4, 5] := by rw [← hc]; rfl
  unfold Ring.settle at hcall
  rw [Ring.touch_of_full rfl, hchunk, hlaps, ← hc] at hcall
  have hpull := Ring.pullFrom_of_failure (p := ⟨0, 0, []⟩) hcall 3 rfl
  exact ⟨_, hpull, rfl, rfl, rfl⟩

/-- One item is staged behind the run that is rejected, and lost. -/
theorem lost_behind_rejection_packed :
    packed.Valid ∧ (Supply.list [4, 5, 6]).Sound ∧ (Supply.list [4, 5, 6]).items.length < 4 ∧
      packed.lost [4, 5, 6] [[4]] = [5] ∧
      ∃ o, (Stage.mk packed refusing.beside).readFromRecorded Supply.deliver.beside 4
          ((), .list [4, 5, 6]) = some o ∧
        o.ring = packed.writeItems [4] ∧ runsOf o.state.2.showings = [[4]] ∧
        o.answer = .error (.rejected (.text "refused")) ∧
        [4, 5, 6] = [[4]].flatten ++ packed.lost [4, 5, 6] [[4]] ++ o.state.1.2.items := by
  have hv : packed.Valid := ⟨by decide, by decide, by decide, by decide⟩
  obtain ⟨o, runs, ho, -, rfl, hring, hend⟩ :=
    lost_behind_rejection hv refusing () (show (Supply.list [4, 5, 6]).Sound from trivial)
      (show (Supply.list [4, 5, 6]).items.length < 4 by decide)
  obtain ⟨o', ho', hshown, -, hrejection⟩ := pull_packed_refusing
  obtain rfl : o = o' := Option.some.inj (ho.symm.trans ho')
  rw [hrejection, hshown] at hend
  obtain ⟨hanswer, hitems, -⟩ := hend
  rw [hshown] at hring
  exact ⟨hv, trivial, by decide, rfl, o, ho, hring, hshown, hanswer, hitems⟩

/-- What leaves the supply is not always shown: the item staged behind the rejected run is
neither in the ring nor in the supply. -/
theorem staged_item_lost :
    ¬ ∀ (r : Ring Nat) (filter : Filter Unit Nat) (source : Supply Nat) (limit : Nat),
      r.Valid → source.Sound →
      ∀ o ∈ (Stage.mk r filter.beside).readFromRecorded Supply.deliver.beside limit ((), source),
        source.items = (runsOf o.state.2.showings).flatten ++ o.state.1.2.items := by
  intro hall
  obtain ⟨o, ho, hshown, hleft, -⟩ := pull_packed_refusing
  have hitems := hall packed refusing (.list [4, 5, 6]) 4
    ⟨by decide, by decide, by decide, by decide⟩ trivial o ho
  rw [hshown, hleft] at hitems
  revert hitems
  decide

end Stage

end Carousel
