import Carousel.Proofs.Offers
import Carousel.Proofs.Supply

/-! # What a filter is shown

A filter is shown runs one after the other, each in the state in which the run before has left it,
until it rejects one (`Filter.Sees`). A write to a stage, and whatever writes to it run by run, is
described by what the filter has been shown: the runs are a beginning of the items, the ring has
taken in just these items one after the other, and if nothing was rejected they are all of them
(`Filter.Took`, `Stage.write_took`).

`Filter.recorded` notes the runs it is shown and changes nothing else, so `Sees` of a recorded
filter is what stands in its log (`Filter.Sees.of_recorded`). -/

namespace Carousel

variable {σ τ α : Type}

namespace Filter

/-! ### Runs one after the other -/

/-- Shown the runs one after the other from a state on, the filter ends in the state `last`. With
no cause it accepts them all; with a cause it rejects the last one and accepts those before. -/
inductive Sees (filter : Filter σ α) : σ → List (List α) → (last : σ) → Option Cause → Prop where
  | nil (state : σ) : filter.Sees state [] state none
  | pass {state last : σ} {run : List α} {runs : List (List α)} {cause : Option Cause}
      (accepts : (filter state run).answer = .ok ())
      (later : filter.Sees (filter state run).state runs last cause) :
      filter.Sees state (run :: runs) last cause
  | reject {state : σ} {run : List α} {cause : Cause}
      (rejects : (filter state run).answer = .error cause) :
      filter.Sees state [run] (filter state run).state (some cause)

namespace Sees

variable {filter : Filter σ α} {state middle last : σ} {earlier runs : List (List α)}

theorem append {cause : Option Cause} (h : filter.Sees state earlier middle none)
    (later : filter.Sees middle runs last cause) :
    filter.Sees state (earlier ++ runs) last cause := by
  generalize hc : (none : Option Cause) = passed at h
  induction h with
  | nil => exact later
  | pass accepts _ ih => exact .pass accepts (ih later hc)
  | reject => cases hc

/-- The run that is shown last decides. -/
theorem of_last {run : List α} {cause : Option Cause}
    (h : filter.Sees state (earlier ++ [run]) last cause) :
    ∃ before, (filter before run).answer = cause.elim (.ok ()) .error := by
  generalize hr : earlier ++ [run] = runs at h
  induction h generalizing earlier with
  | nil => simp at hr
  | @pass state last first runs cause accepts later ih =>
      cases earlier with
      | nil =>
          obtain ⟨rfl, rfl⟩ := List.cons.inj hr
          cases later
          exact ⟨state, accepts⟩
      | cons _ earlier => exact ih (List.cons.inj hr).2
  | @reject state first cause rejects =>
      cases earlier with
      | nil =>
          obtain ⟨rfl, -⟩ := List.cons.inj hr
          exact ⟨state, rejects⟩
      | cons _ earlier => simp at hr

/-- A filter that rejects a run has been shown one. -/
theorem ne_nil {cause : Cause} (h : filter.Sees state runs last (some cause)) : runs ≠ [] := by
  cases h <;> exact List.cons_ne_nil _ _

end Sees

/-! ### Recording -/

/-- Notes each run. -/
def recorded (filter : Filter σ α) : Filter (σ × List (List α)) α := fun (state, shown) run =>
  let review := filter state run
  ⟨(review.state, shown ++ [run]), review.events, review.answer⟩

/-- The log of a recorded filter is what it has been shown. -/
theorem Sees.of_recorded {filter : Filter σ α} {start last : σ × List (List α)}
    {runs : List (List α)} {cause : Option Cause} (h : filter.recorded.Sees start runs last cause) :
    last.2 = start.2 ++ runs ∧ filter.Sees start.1 runs last.1 cause := by
  induction h with
  | nil start => exact ⟨(List.append_nil _).symm, .nil _⟩
  | pass accepts _ ih =>
      obtain ⟨hlog, hsees⟩ := ih
      refine ⟨?_, .pass accepts hsees⟩
      rw [hlog]
      exact List.append_assoc _ _ _
  | reject rejects => exact ⟨rfl, .reject rejects⟩

/-- Seen through `f`, the filter `fine` is the filter `coarse`. -/
def Erases (f : τ → σ) (fine : Filter τ α) (coarse : Filter σ α) : Prop :=
  ∀ state run, coarse (f state) run =
    ⟨f (fine state run).state, (fine state run).events, (fine state run).answer⟩

theorem recorded_erases (filter : Filter σ α) : filter.recorded.Erases Prod.fst filter :=
  fun _ _ => rfl

theorem Erases.observer {f : τ → σ} {fine : Filter τ α} {coarse : Filter σ α}
    (h : fine.Erases f coarse) : fine.observer.Erases f coarse.observer := by
  intro state r run
  unfold Filter.observer
  rw [h state run]
  dsimp only
  cases (fine state run).answer <;> rfl

/-! ### What a stage takes in -/

/-- On their way to a stage the filter has been shown the runs `shown` of the items, and the ring
`after` has taken in what they hold. -/
structure Took (filter : Filter σ α) (r : Ring α) (state : σ) (items : List α)
    (shown : List (List α)) (after : Ring α) (last : σ) (cause : Option Cause) : Prop where
  sees : filter.Sees state shown last cause
  ring_eq : after = r.writeItems shown.flatten
  in_order : shown.flatten <+: items
  complete : cause = none → shown.flatten = items
  nonempty : ∀ run ∈ shown, run ≠ []

namespace Took

variable {filter : Filter σ α} {r next after : Ring α} {state middle last : σ}
  {xs ys : List α} {earlier shown : List (List α)} {cause : Option Cause}

theorem nil (filter : Filter σ α) (r : Ring α) (state : σ) :
    filter.Took r state [] [] r state none where
  sees := .nil state
  ring_eq := rfl
  in_order := List.nil_prefix
  complete _ := rfl
  nonempty _ h := by cases h

/-- What is rejected among the first items leaves the others out. -/
theorem stop {cause : Cause} (h : filter.Took r state xs shown after last (some cause))
    (ys : List α) : filter.Took r state (xs ++ ys) shown after last (some cause) where
  sees := h.sees
  ring_eq := h.ring_eq
  in_order := h.in_order.trans (List.prefix_append xs ys)
  complete hc := by cases hc
  nonempty := h.nonempty

theorem append (h : filter.Took r state xs earlier next middle none)
    (later : filter.Took next middle ys shown after last cause) :
    filter.Took r state (xs ++ ys) (earlier ++ shown) after last cause where
  sees := h.sees.append later.sees
  ring_eq := by
    rw [later.ring_eq, h.ring_eq, ← Ring.writeItems_append, List.flatten_append]
  in_order := by
    rw [List.flatten_append, h.complete rfl]
    exact (List.prefix_append_right_inj xs).mpr later.in_order
  complete hc := by rw [List.flatten_append, h.complete rfl, later.complete hc]
  nonempty run hr := by
    rcases List.mem_append.mp hr with hr | hr
    · exact h.nonempty run hr
    · exact later.nonempty run hr

/-- A filter that rejects something has been shown an item. -/
theorem flatten_ne_nil {cause : Cause} (h : filter.Took r state xs shown after last (some cause)) :
    shown.flatten ≠ [] := by
  intro hnil
  obtain ⟨run, hrun⟩ := List.exists_mem_of_ne_nil _ h.sees.ne_nil
  exact h.nonempty run hrun (List.flatten_eq_nil_iff.mp hnil run hrun)

theorem valid (h : filter.Took r state xs shown after last cause) (hr : r.Valid) : after.Valid := by
  rw [h.ring_eq]
  exact hr.writeItems _

end Took

/-- How an operation that would answer `value` ends, given what a filter has rejected, if it has. -/
def verdict {β : Type} (value : β) : Option Cause → Except Failure β
  | none => .ok value
  | some cause => .error (.rejected cause)

theorem map_verdict {β γ : Type} (f : β → γ) (value : β) (cause : Option Cause) :
    (verdict value cause).map f = verdict (f value) cause := by
  cases cause <;> rfl

theorem answer_observer (filter : Filter σ α) (state : σ) (r : Ring α) (run : List α) :
    (filter.observer state r run).answer = (filter state run).answer.mapError .rejected := by
  unfold observer
  dsimp only
  cases (filter state run).answer <;> rfl

end Filter

/-- What a filter sees of runs that are committed one after the other. -/
theorem Ring.present_sees (filter : Filter σ α) (r : Ring α) (state : σ) (runs : List (List α)) :
    ∃ shown cause, shown <+: runs ∧
      filter.Sees state shown (r.present filter.observer state runs).state cause ∧
      (r.present filter.observer state runs).ring = r.commits shown ∧
      (r.present filter.observer state runs).answer = Filter.verdict () cause ∧
      (cause = none → shown = runs) := by
  induction runs generalizing r state with
  | nil => exact ⟨[], none, List.prefix_rfl, .nil state, rfl, rfl, fun _ => rfl⟩
  | cons run runs ih =>
      have hstate := filter.state_observer state (r.commit run) run
      have hanswer := filter.answer_observer state (r.commit run) run
      cases ha : (filter state run).answer with
      | error cause =>
          rw [ha] at hanswer
          simp only [present, hanswer, hstate, Except.mapError]
          refine ⟨[run], some cause, ?_, .reject ha, rfl, rfl, ?_⟩
          · exact List.cons_prefix_cons.mpr ⟨rfl, List.nil_prefix⟩
          · intro hc
            cases hc
      | ok =>
          rw [ha] at hanswer
          simp only [present, hanswer, hstate, Except.mapError]
          obtain ⟨shown, cause, hshown, hsees, hring, hanswer, hall⟩ :=
            ih (r.commit run) (filter state run).state
          refine ⟨run :: shown, cause, ?_, .pass ha hsees, hring, hanswer, ?_⟩
          · exact List.cons_prefix_cons.mpr ⟨rfl, hshown⟩
          · intro hc
            rw [hall hc]

namespace Stage

/-- What a write to a stage shows its filter. -/
theorem write_took {r : Ring α} (h : r.Valid) (filter : Filter σ α) (state : σ) (items : List α) :
    ∃ shown cause,
      filter.Took r state items shown (consumer filter (r, state) items).state.1
        (consumer filter (r, state) items).state.2 cause ∧
      (consumer filter (r, state) items).answer = Filter.verdict items.length cause := by
  obtain ⟨shown, cause, hshown, hsees, hring, hanswer, hall⟩ :=
    r.present_sees filter state (r.lapsOf items)
  rw [← Ring.writeLaps_eq_present h] at hsees hring hanswer
  refine ⟨shown, cause, ⟨hsees, ?_, ?_, ?_, ?_⟩, ?_⟩
  · exact hring.trans (Ring.commits_lapsOf h hshown)
  · obtain ⟨later, hlater⟩ := hshown
    refine ⟨later.flatten, ?_⟩
    rw [← List.flatten_append, hlater, Ring.flatten_lapsOf]
  · intro hc
    rw [hall hc, Ring.flatten_lapsOf]
  · intro run hrun
    exact ne_nil_of_mem_laps (hshown.subset hrun)
  · unfold consumer write
    dsimp only
    rw [hanswer, Filter.map_verdict]

/-- Seen through a function, a stage is the stage of the coarser filter. -/
theorem consumer_erases {f : τ → σ} {fine : Filter τ α} {coarse : Filter σ α}
    (h : fine.Erases f coarse) : (consumer fine).Erases (Prod.map id f) (consumer coarse) := by
  rintro ⟨r, state⟩ run
  have herase := Ring.writeLaps_erase h.observer state r run
  unfold consumer write
  simp only [Prod.map, id_eq, ← herase]
  rfl

end Stage

end Carousel
