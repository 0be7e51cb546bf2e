import Carousel.Proofs.Review

/-! # Draining a ring into a stage

A push cuts the unread items of a ring at its end of storage, and the stage that is pushed to cuts
each of these runs at its own. Its filter may reject a run in the middle of one that it is offered:
nothing is then removed of what was offered last, though its filter has been shown a part of it.
So what a failed push removes is always less than what the filter has been shown
(`offers_took`), and nothing is lost (`Ring.writeTo_stage`). -/

namespace Carousel

variable {σ α : Type}

/-- A run that a stage rejects is not taken and ends the push. -/
theorem Offer.of_rejected {x : Offer σ α} {cause : Cause}
    (h : x.receipt.answer = .error (.rejected cause)) :
    x.inFull = false ∧ x.taken = [] ∧ settlement [x] = .error (.rejected cause) := by
  unfold inFull taken settlement
  rw [List.getLast?_singleton]
  dsimp only
  rw [h]
  exact ⟨rfl, rfl, rfl⟩

/-- What a stage makes of the runs that a push offers it: it takes less than its filter is shown
if the filter rejects something, and otherwise all. -/
theorem offers_took {r : Ring α} (h : r.Valid) (filter : Filter σ α) (state : σ)
    (runs : List (List α)) {offers : List (Offer (Ring α × σ) α)}
    (ho : (Stage.consumer filter).offers (r, state) runs = offers) :
    ∃ shown cause,
      filter.Took r state runs.flatten shown (stateAfter (r, state) offers).1
        (stateAfter (r, state) offers).2 cause ∧
      settlement offers = Filter.verdict runs.flatten.length cause ∧
      ∃ again, shown.flatten = takenOf offers ++ again ∧ (again = [] ↔ cause = none) := by
  subst ho
  -- by induction on the offers: only the last one may be rejected, and nothing is taken of it
  induction runs generalizing r state with
  | nil => exact ⟨[], none, .nil filter r state, rfl, [], rfl, by simp⟩
  | cons run runs ih =>
      obtain ⟨shown, cause, ht, hanswer⟩ := Stage.write_took h filter state run
      cases cause with
      | none =>
          have hfull : Offer.inFull ⟨run, Stage.consumer filter (r, state) run⟩ = true :=
            Offer.inFull_iff.mpr hanswer
          obtain ⟨later, cause, hrest, hsettled, again, hagain, hnil⟩ :=
            ih (ht.valid h) (Stage.consumer filter (r, state) run).state.2
          rw [Consumer.offers_of_inFull hfull, stateAfter_cons, settlement_cons hfull,
            takenOf_cons, Offer.taken_of_inFull hfull]
          refine ⟨shown ++ later, cause, ht.append hrest, ?_, again, ?_, hnil⟩
          · rw [hsettled, Filter.map_verdict, List.flatten_cons, List.length_append]
          · rw [List.flatten_append, hagain, ht.complete rfl, List.append_assoc]
      | some cause =>
          obtain ⟨hfull, htaken, hsettled⟩ :=
            Offer.of_rejected (x := ⟨run, Stage.consumer filter (r, state) run⟩) hanswer
          rw [Consumer.offers_of_not_inFull hfull, takenOf_cons, htaken]
          refine ⟨shown, some cause, ht.stop runs.flatten, hsettled, shown.flatten, rfl, ?_⟩
          simp [ht.flatten_ne_nil]

namespace Ring

/-- **Draining a ring into a stage that rejects never loses an item.** Both rings may have any
capacity and hold anything, and the filter may do and answer anything. If it rejects nothing, the
push succeeds and leaves the ring empty, and the filter has been shown all unread items. If it
rejects a run, the push fails with that very cause, also if this is the end of the data: the
filter has been shown the first of the unread items, what has been removed falls short of that,
and everything else is still unread. -/
theorem writeTo_stage [Inhabited α] {u r : Ring α} (hu : u.Valid) (hr : r.Valid)
    (filter : Filter σ α) (state : σ) {o : Outcome (Ring α × σ × List (List α)) α Nat}
    (ho : u.writeTo (Stage.consumer filter.recorded) (r, state, []) = o) :
    o.mapState (Prod.map id Prod.fst) = u.writeTo (Stage.consumer filter) (r, state) ∧
      ∃ shown cause, o.state.2.2 = shown ∧ filter.Sees state shown o.state.2.1 cause ∧
        match cause with
        | none => o.answer = .ok u.count ∧ o.ring.isEmpty = true ∧ shown.flatten = u.unread
        | some cause =>
          o.answer = .error (.rejected cause) ∧
            ∃ removed again unseen, shown.flatten = removed ++ again ∧ again ≠ [] ∧
              u.unread = shown.flatten ++ unseen ∧ o.ring.unread = again ++ unseen := by
  subst ho
  refine ⟨writeTo_erase (Stage.consumer_erases filter.recorded_erases) _ u, ?_⟩
  obtain ⟨hring, hstate, hanswer⟩ :=
    writeTo_eq hu (Stage.consumer filter.recorded) (r, state, [])
  obtain ⟨shown, cause, ht, hsettled, again, hagain, hnil⟩ :=
    offers_took hr filter.recorded (state, []) u.runs rfl
  have hgave := gave_offers hu.forget rfl (Stage.consumer filter.recorded) (r, state, [])
  rw [← hstate, flatten_runs hu] at ht
  rw [← hanswer, flatten_runs hu, length_unread] at hsettled
  obtain ⟨hlog, hsees⟩ := ht.sees.of_recorded
  obtain ⟨unseen, hunseen⟩ := ht.in_order
  have hleft : (u.writeTo (Stage.consumer filter.recorded) (r, state, [])).ring.unread =
      again ++ unseen := by
    have hsplit := hgave.unread_eq
    rw [unread_forget, ← hunseen, hagain, List.append_assoc] at hsplit
    rw [hring]
    exact (List.append_cancel_left hsplit).symm
  refine ⟨shown, cause, hlog, hsees, ?_⟩
  cases cause with
  | none =>
      have hall := ht.complete rfl
      refine ⟨hsettled, ?_, hall⟩
      obtain rfl : unseen = [] := by simpa [hall] using hunseen
      obtain rfl : again = [] := hnil.mpr rfl
      simpa [isEmpty, ← length_unread] using hleft
  | some cause =>
      refine ⟨hsettled, _, again, unseen, hagain, ?_, hunseen.symm, hleft⟩
      simp [hnil]

/-- Rejects a run with an eight, as if this were the end of the data. -/
def curfew : Filter Unit Nat := fun state run =>
  ⟨state, [], if 8 ∈ run then .error (.failure .endOfData) else .ok ()⟩

def outward : Ring Nat := ⟨[7, 8, 9, 10, 5, 6], 4, 6, false⟩

def narrow : Ring Nat := ⟨[0, 0], 1, 0, false⟩

/-- The runs of the source are cut in front of the seven, those of the stage in front of the eight
and behind the nine: the seven has been shown, and is unread still. -/
theorem writeTo_stage_curfew :
    outward.Valid ∧ narrow.Valid ∧
      (outward.writeTo (Stage.consumer curfew.recorded) (narrow, (), [])).answer =
        .error (.rejected (.failure .endOfData)) ∧
      ∃ removed again unseen, [5, 6, 7, 8, 9] = removed ++ again ∧ again ≠ [] ∧
        [5, 6, 7, 8, 9, 10] = [5, 6, 7, 8, 9] ++ unseen ∧
        (outward.writeTo (Stage.consumer curfew.recorded) (narrow, (), [])).ring.unread =
          again ++ unseen := by
  have hu : outward.Valid := ⟨by decide, by decide, by decide, by decide⟩
  have hr : narrow.Valid := ⟨by decide, by decide, by decide, by decide⟩
  have hlog : (outward.writeTo (Stage.consumer curfew.recorded) (narrow, (), [])).state.2.2 =
      [[5], [6], [7], [8, 9]] := by
    decide +kernel
  obtain ⟨-, shown, cause, hshown, hsees, hend⟩ := writeTo_stage hu hr curfew () rfl
  obtain rfl : shown = [[5], [6], [7]] ++ [[8, 9]] := hshown.symm.trans hlog
  obtain ⟨before, hlast⟩ := hsees.of_last
  cases cause with
  | none => simp [curfew] at hlast
  | some cause =>
      obtain rfl : cause = .failure .endOfData := by simpa [curfew, eq_comm] using hlast
      exact ⟨hu, hr, hend⟩

end Ring

end Carousel
