import Carousel.Proofs.Pulling
import Carousel.Stage

/-! # What the filter of a stage sees

Whatever a stage commits passes its filter: once and in order, run by run, each run after it has
been committed, and nothing behind the first run that is rejected (`Dispatched`). The runs are the
laps of the input of a write (`Stage.dispatch`, first part), of the one item of `writeItem`, and of
the accepted chunks of a pull.

A stage with recorded peers does what the stage does (`writeRecorded_erase`,
`readFromRecorded_erase`); its log tells what the filter saw. -/

namespace Carousel

variable {σ α : Type}

/-! ### Rejections -/

/-- The cause with which a filter rejects a run, if it does. -/
def Filter.objection (filter : Filter σ α) (x : Showing σ α) : Option Cause :=
  match (filter x.state x.run).answer with
  | .ok () => none
  | .error cause => some cause

/-- The first cause with which a filter rejects a run. -/
def Filter.rejection (filter : Filter σ α) (shown : List (Showing σ α)) : Option Cause :=
  shown.findSome? filter.objection

theorem Filter.objection_observer (filter : Filter σ α) (x : Showing σ α) :
    filter.observer.objection x = (filter.objection x).map .rejected := by
  unfold Observer.objection Filter.objection Filter.observer
  dsimp only
  cases (filter x.state x.run).answer with
  | ok => rfl
  | error cause => rfl

theorem Filter.rejection_observer (filter : Filter σ α) (shown : List (Showing σ α)) :
    filter.observer.rejection shown = (filter.rejection shown).map .rejected := by
  unfold Observer.rejection Filter.rejection
  rw [List.map_findSome?]
  exact congrArg (shown.findSome? ·) (funext filter.objection_observer)

theorem Filter.observer_rejection_eq_none {filter : Filter σ α} {shown : List (Showing σ α)} :
    filter.observer.rejection shown = none ↔ filter.rejection shown = none := by
  rw [filter.rejection_observer, Option.map_eq_none_iff]

theorem Filter.observer_rejection_of_some {filter : Filter σ α} {shown : List (Showing σ α)}
    {cause : Cause} (h : filter.rejection shown = some cause) :
    filter.observer.rejection shown = some (.rejected cause) := by
  rw [filter.rejection_observer, h]
  rfl

/-! ### The runs of a stage -/

/-- What a filter has seen of the runs that are committed to `r`. -/
structure Dispatched [Inhabited α] (filter : Filter σ α) (r : Ring α)
    (shown : List (Showing σ α)) : Prop where
  nonempty : ∀ x ∈ shown, x.run ≠ []
  /-- When a run is shown the ring reflects it, behind all the runs before. -/
  reflected : ∀ earlier x, earlier ++ [x] <+: shown →
    x.ring.unread = (r.unread ++ (runsOf (earlier ++ [x])).flatten).rtake r.capacity ∧
      x.run <:+ x.ring.unread
  /-- Nothing is shown behind a run that is rejected. -/
  passed : ∀ x ∈ shown.dropLast, filter.objection x = none

theorem Filter.objection_eq_none {filter : Filter σ α} {x : Showing σ α}
    (h : filter.observer.objection x = none) : filter.objection x = none := by
  rw [filter.objection_observer] at h
  exact Option.map_eq_none_iff.mp h

theorem Presented.dispatched [Inhabited α] {filter : Filter σ α} {r : Ring α} (h : r.Valid)
    {items : List α} {shown : List (Showing σ α)}
    (hs : Presented filter.observer r (r.lapsOf items) shown) : Dispatched filter r shown where
  nonempty x hx := ne_nil_of_mem_laps (hs.in_order.subset (List.mem_map_of_mem hx))
  reflected earlier x hx := by
    have hpre : runsOf (earlier ++ [x]) <+: r.lapsOf items :=
      (hx.map Showing.run).trans hs.in_order
    have hmem : x.run ∈ r.lapsOf items := hpre.subset (by simp)
    have hu : x.ring.unread =
        (r.unread ++ (runsOf (earlier ++ [x])).flatten).rtake r.capacity := by
      rw [hs.committed earlier x hx, Ring.unread_commits h ((Ring.fits_lapsOf h _).initial hpre)]
    refine ⟨hu, ?_⟩
    have := suffix_rtake_append (r.unread ++ (runsOf earlier).flatten)
      ((Ring.fits_lapsOf h items).length_le hmem)
    rw [hu]
    simpa using this
  passed _ hx := Filter.objection_eq_none (hs.passed _ hx)

/-- What a filter has seen at any time of a pull. -/
theorem Logged.dispatched [Inhabited α] {produce : Producer σ α} {filter : Filter σ α}
    {r₀ r : Ring α} {s₀ state : σ} {log : Log σ α}
    (h : Logged produce filter.observer r₀ s₀ state log r) :
    Dispatched filter r₀ log.showings where
  nonempty _ hx := ne_nil_of_mem_cuts (h.in_order.subset (List.mem_map_of_mem hx))
  reflected := h.reflected
  passed _ hx := Filter.objection_eq_none (h.passed _ hx)

section

variable [Inhabited α] {produce : Producer σ α} {filter : Filter σ α} {r₀ r : Ring α}
  {s₀ state : σ} {log : Log σ α} {answer : Except Failure Nat}

theorem Pulling.filter_rejection {p : Ring.Progress α}
    (h : Pulling produce filter.observer r₀ s₀ state log r p) :
    filter.rejection log.showings = none :=
  Filter.observer_rejection_eq_none.mp h.no_rejection

theorem Pulled.answer_eq_rejected (h : Pulled produce filter.observer r₀ s₀ state log r answer)
    {cause : Cause} (hc : filter.rejection log.showings = some cause) :
    answer = .error (.rejected cause) :=
  h.rejected _ (Filter.observer_rejection_of_some hc)

/-- A pull with no run rejected has shown all that was accepted, and ends as its calls decide. -/
theorem Pulled.settled_of_filter (h : Pulled produce filter.observer r₀ s₀ state log r answer)
    (hc : filter.rejection log.showings = none) :
    (runsOf log.showings).flatten = acceptedOf log.calls ∧ ruling log.calls = some answer := by
  obtain ⟨hruns, hruling⟩ := h.settled (Filter.observer_rejection_eq_none.mpr hc)
  refine ⟨?_, hruling⟩
  rw [hruns, flatten_cuts]
  rfl

end

/-! ### Recorded stages -/

namespace Stage

/-- `Stage.write` with its filter recorded. -/
def writeRecorded (s : Stage σ α) (state : σ) (items : List α) : Outcome (σ × Log σ α) α Nat :=
  let o := s.ring.writeLaps s.filter.observer.recorded (state, .empty) items
  ⟨o.ring, o.state, o.trace, o.answer.map fun _ => items.length⟩

/-- What the filter is shown of a write. -/
def showings (s : Stage σ α) (state : σ) (items : List α) : List (Showing σ α) :=
  (s.writeRecorded state items).state.2.showings

/-- `Stage.readFrom` with its filter and its producer recorded. -/
def readFromRecorded [Inhabited α] (s : Stage σ α) (produce : Producer σ α) (limit : Nat)
    (state : σ) : Option (Outcome (σ × Log σ α) α Nat) :=
  s.ring.pull produce.recorded s.filter.observer.recorded limit (state, .empty)

theorem writeRecorded_erase (s : Stage σ α) (state : σ) (items : List α) :
    (s.writeRecorded state items).mapState Prod.fst = s.write state items := by
  unfold write
  rw [← Ring.writeLaps_erase s.filter.observer.recorded_erases (state, Log.empty) s.ring items]
  rfl

theorem readFromRecorded_erase [Inhabited α] (s : Stage σ α) (produce : Producer σ α)
    (limit : Nat) (state : σ) :
    (s.readFromRecorded produce limit state).map (Outcome.mapState Prod.fst) =
      s.readFrom produce limit state :=
  Ring.pullFrom_erase produce.recorded_erases s.filter.observer.recorded_erases limit
    (state, .empty) s.ring ⟨0, 0, []⟩

/-- What is shown of a write, and how the write ends. -/
theorem showings_presented {s : Stage σ α} (h : s.ring.Valid) (state : σ) (items : List α) :
    Presented s.filter.observer s.ring (s.ring.lapsOf items) (s.showings state items) ∧
      (s.write state items).ring = s.ring.commits (runsOf (s.showings state items)) ∧
      (s.write state items).answer =
        match s.filter.rejection (s.showings state items) with
        | some cause => .error (.rejected cause)
        | none => .ok items.length := by
  obtain ⟨final, shown, hs, hstate, hring, hanswer⟩ :=
    present_recorded s.filter.observer s.ring (s.ring.lapsOf items) state .empty
  have hshown : s.showings state items = shown := by
    unfold showings writeRecorded
    dsimp only
    rw [Ring.writeLaps_eq_present h, hstate]
    exact List.nil_append shown
  rw [hshown, ← s.writeRecorded_erase state items]
  unfold writeRecorded Outcome.mapState
  dsimp only
  rw [Ring.writeLaps_eq_present h, hring, hanswer, s.filter.rejection_observer]
  refine ⟨hs, rfl, ?_⟩
  cases s.filter.rejection shown <;> rfl

/-- A stage whose filter accepts everything commits all runs. -/
theorem present_accepting (r : Ring α) (runs : List (List α)) (state : σ) :
    (r.present (Filter.accepting : Filter σ α).observer state runs).ring = r.commits runs ∧
      (r.present (Filter.accepting : Filter σ α).observer state runs).answer = .ok () := by
  induction runs generalizing r with
  | nil => exact ⟨rfl, rfl⟩
  | cons run runs ih => exact ih (r.commit run)

/-- Writing the first few laps of an input to a stage that accepts everything commits them. -/
theorem write_accepting {r : Ring α} (h : r.Valid) {items : List α} {runs : List (List α)}
    (hr : runs <+: r.lapsOf items) (state : σ) :
    ((Stage.mk r Filter.accepting).write state runs.flatten).ring = r.commits runs ∧
      ((Stage.mk r Filter.accepting).write state runs.flatten).answer =
        .ok runs.flatten.length := by
  have hl : r.lapsOf runs.flatten = runs := laps_flatten_prefix hr
  obtain ⟨hring, hanswer⟩ := present_accepting r runs state
  unfold write
  dsimp only
  rw [Ring.writeLaps_eq_present h, hl, hring, hanswer]
  exact ⟨rfl, rfl⟩

/-- Each run that is shown is as long as storage reaches, and the last one as what is left. -/
theorem length_showing {s : Stage σ α} (h : s.ring.Valid) {state : σ} {items : List α}
    {earlier : List (Showing σ α)} {x : Showing σ α}
    (hx : earlier ++ [x] <+: s.showings state items) :
    x.run.length =
      min (if earlier = [] then s.ring.capacity - s.ring.tail else s.ring.capacity)
        (items.length - (runsOf earlier).flatten.length) := by
  have ht := h.tail_lt
  obtain ⟨hs, -, -⟩ := showings_presented h state items
  obtain ⟨later, hlater⟩ := (hx.map Showing.run).trans hs.in_order
  rw [List.map_append, List.append_assoc] at hlater
  have hlen := length_lap h.capacity_pos (Nat.sub_pos_of_lt ht) hlater.symm
  rw [hlen]
  simp [runsOf]

theorem writeItem_eq (s : Stage σ α) (state : σ) (item : α) :
    s.writeItem state item =
      ⟨(s.write state [item]).ring, (s.write state [item]).state, (s.write state [item]).trace,
        (s.write state [item]).answer.map fun _ => ()⟩ := by
  unfold writeItem write
  generalize s.ring.writeLaps s.filter.observer state [item] = o
  obtain ⟨ring, state', trace, answer⟩ := o
  cases answer <;> rfl

/-- **A filter sees every item once and in order, and never before it is committed.** The stage
need not be empty, and the filter may do and answer anything.

* A write shows the input cut at the end of storage: the first run has as many items as fit from
  the write cursor on, every other one as many as the capacity, and the last one what is left.
  If a run is rejected, the answer is that very cause, and the ring is that of a stage which
  accepts everything and to which only the runs shown have been written.
* Writing one item is writing a list of one item.
* A pull shows the laps of each accepted chunk before it calls the producer again. It ends as its
  calls decide, or with the cause with which a run is rejected. As long as it has not ended, all that
  was accepted has been shown, and no run was rejected; it gives no result only if all the calls it
  may make decide nothing. -/
theorem dispatch [Inhabited α] {s : Stage σ α} (h : s.ring.Valid) (state : σ) :
    (∀ items,
      (s.writeRecorded state items).mapState Prod.fst = s.write state items ∧
      Dispatched s.filter s.ring (s.showings state items) ∧
      (runsOf (s.showings state items)).flatten <+: items ∧
      (∀ earlier x, earlier ++ [x] <+: s.showings state items →
        x.run.length =
          min (if earlier = [] then s.ring.capacity - s.ring.tail else s.ring.capacity)
            (items.length - (runsOf earlier).flatten.length)) ∧
      (match s.filter.rejection (s.showings state items) with
      | none => (s.write state items).answer = .ok items.length ∧
          (runsOf (s.showings state items)).flatten = items
      | some cause => (s.write state items).answer = .error (.rejected cause)) ∧
      (s.write state items).ring =
        ((Stage.mk s.ring Filter.accepting).write ()
          (runsOf (s.showings state items)).flatten).ring ∧
      ((Stage.mk s.ring Filter.accepting).write ()
          (runsOf (s.showings state items)).flatten).answer =
        .ok (runsOf (s.showings state items)).flatten.length) ∧
    (∀ item, s.writeItem state item =
      ⟨(s.write state [item]).ring, (s.write state [item]).state, (s.write state [item]).trace,
        (s.write state [item]).answer.map fun _ => ()⟩) ∧
    ∀ produce limit,
      (s.readFromRecorded produce limit state).map (Outcome.mapState Prod.fst) =
        s.readFrom produce limit state ∧
      match s.readFromRecorded produce limit state with
      | none => ∃ log final, Dialogue produce s.filter.observer state log final ∧
          log.calls.length = limit ∧ ruling log.calls = none ∧
          Dispatched s.filter s.ring log.showings ∧
          runsOf log.showings = cuts s.ring.capacity s.ring.tail (chunksOf log.calls) ∧
          s.filter.rejection log.showings = none
      | some o =>
        Dialogue produce s.filter.observer state o.state.2 o.state.1 ∧
        Dispatched s.filter s.ring o.state.2.showings ∧
        runsOf o.state.2.showings <+:
          cuts s.ring.capacity s.ring.tail (chunksOf o.state.2.calls) ∧
        cuts s.ring.capacity s.ring.tail (chunksOf o.state.2.calls.dropLast) <+:
          runsOf o.state.2.showings ∧
        o.ring.unread =
          (s.ring.unread ++ (runsOf o.state.2.showings).flatten).rtake s.ring.capacity ∧
        match s.filter.rejection o.state.2.showings with
        | none => (runsOf o.state.2.showings).flatten = acceptedOf o.state.2.calls ∧
            ruling o.state.2.calls = some o.answer
        | some cause => o.answer = .error (.rejected cause) := by
  refine ⟨?_, s.writeItem_eq state, ?_⟩
  · intro items
    obtain ⟨hs, hring, hanswer⟩ := showings_presented h state items
    obtain ⟨hwrite, hok⟩ := write_accepting h hs.in_order ()
    have hflatten : (s.ring.lapsOf items).flatten = items := flatten_laps _ _ items
    refine ⟨s.writeRecorded_erase state items, hs.dispatched h, ?_,
      fun earlier x hx => length_showing h hx, ?_, hring.trans hwrite.symm, hok⟩
    · obtain ⟨later, hlater⟩ := hs.in_order
      refine ⟨later.flatten, ?_⟩
      rw [← List.flatten_append, hlater, hflatten]
    · cases hr : s.filter.rejection (s.showings state items) with
      | some cause => rw [hanswer, hr]
      | none =>
          rw [hanswer, hr]
          refine ⟨rfl, ?_⟩
          rw [hs.complete (Filter.observer_rejection_eq_none.mpr hr), hflatten]
  · intro produce limit
    refine ⟨s.readFromRecorded_erase produce limit state, ?_⟩
    have hpull := pullFrom_recorded (Pulling.start h produce s.filter.observer state) limit
    unfold readFromRecorded Ring.pull
    revert hpull
    cases s.ring.pullFrom produce.recorded s.filter.observer.recorded limit (state, .empty)
      ⟨0, 0, []⟩ with
    | none =>
        rintro ⟨final, log, r, p, hp, hlen⟩
        refine ⟨log, final, hp.dialogue, ?_, hp.no_ruling, hp.dispatched, hp.complete,
          hp.filter_rejection⟩
        rw [hlen]
        exact Nat.zero_add limit
    | some o =>
        intro hp
        refine ⟨hp.dialogue, hp.dispatched, hp.in_order, hp.caught_up, hp.unread_eq, ?_⟩
        cases hc : s.filter.rejection o.state.2.showings with
        | some cause => exact hp.answer_eq_rejected hc
        | none => exact hp.settled_of_filter hc

/-- A stage over a wrapped ring; its filter counts what it sees and rejects a run with a three. -/
def picky : Stage Nat Nat where
  ring := ⟨[7, 8, 9], 2, 2, true⟩
  filter := fun seen run =>
    ⟨seen + run.length, [], if 3 ∈ run then .error (.text "three") else .ok ()⟩

/-- The second run of this write is rejected: the item behind it is neither shown nor stored. -/
theorem dispatch_picky :
    picky.ring.Valid ∧
      Dispatched picky.filter picky.ring
        [⟨0, ⟨[7, 0, 1], 0, 3, false⟩, [0, 1]⟩, ⟨2, ⟨[2, 3, 4], 0, 3, false⟩, [2, 3, 4]⟩] ∧
      (picky.write 0 [0, 1, 2, 3, 4, 5]).answer = .error (.rejected (.text "three")) ∧
      (picky.write 0 [0, 1, 2, 3, 4, 5]).ring =
        ((Stage.mk picky.ring Filter.accepting).write () [0, 1, 2, 3, 4]).ring := by
  have hv : picky.ring.Valid := ⟨by decide, by decide, by decide, by decide⟩
  have hlaps : picky.ring.lapsOf [0, 1, 2, 3, 4, 5] = [[0, 1], [2, 3, 4], [5]] := by
    simp [Ring.lapsOf, picky, Ring.capacity, Ring.tail, laps_cons]
  have hshown : picky.showings 0 [0, 1, 2, 3, 4, 5] =
      [⟨0, ⟨[7, 0, 1], 0, 3, false⟩, [0, 1]⟩, ⟨2, ⟨[2, 3, 4], 0, 3, false⟩, [2, 3, 4]⟩] := by
    unfold showings writeRecorded
    rw [Ring.writeLaps_eq_present hv, hlaps]
    rfl
  obtain ⟨hwrite, -, -⟩ := dispatch hv 0
  obtain ⟨-, hdispatched, -, -, hanswer, hring, -⟩ := hwrite [0, 1, 2, 3, 4, 5]
  rw [hshown] at hdispatched hanswer hring
  exact ⟨hv, hdispatched, hanswer, hring⟩

end Stage

end Carousel
