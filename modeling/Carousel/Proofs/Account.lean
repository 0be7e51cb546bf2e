import Carousel.Proofs.Dispatch
import Carousel.Proofs.Exchange
import Carousel.Proofs.ReadFrom
import Mathlib.Algebra.GroupWithZero.Nat

/-! # What the reports account for

A ring reports how many unread items a write gives up. Over a transfer these numbers add up to what
the ring has lost: what was unread and what was committed, less what is unread in the end
(`Ring.sum_losses_reports`). A stage reports each run that it shows besides, behind the report of what the run
was stored over.

The own reports of a transfer are read off the runs that its observer is shown (`Ring.reports`),
and what the observer reports when it rejects one (`Observer.protest`). Reports that foreign code
makes of its own rings are left out. -/

namespace Carousel

variable {σ α : Type}

/-! ### Reports -/

namespace Event

/-- The number of unread items that a report says were given up. -/
def evicted? : Event → Option Nat
  | overwrote evicted _ => some evicted
  | replacedAll evicted _ => some evicted
  | _ => none

/-- The number of items that a report says are about to be shown. -/
def dispatched? : Event → Option Nat
  | dispatching items => some items
  | _ => none

end Event

/-- The numbers of unread items that reports say were given up. -/
def losses (events : List Event) : List Nat := events.filterMap Event.evicted?

@[simp] theorem losses_nil : losses [] = [] := rfl

@[simp] theorem losses_append (earlier later : List Event) :
    losses (earlier ++ later) = losses earlier ++ losses later := List.filterMap_append

namespace Trace

@[simp] theorem ownEvents_append (earlier later : Trace) :
    ownEvents (earlier ++ later) = ownEvents earlier ++ ownEvents later := List.filterMap_append

@[simp] theorem ownEvents_ofOwn (events : List Event) : (ofOwn events).ownEvents = events := by
  unfold ownEvents ofOwn
  rw [List.filterMap_map]
  exact List.filterMap_some

@[simp] theorem ownEvents_ofForeign (events : List Event) : (ofForeign events).ownEvents = [] := by
  simp [ownEvents, ofForeign, Entry.own?, List.filterMap_map, Function.comp_def]

end Trace

namespace Ring

/-- The report of a run of `n` items, at most the capacity, that is stored behind `count` unread
ones. -/
def overflowOf (capacity count n : Nat) : List Event :=
  if capacity < count + n then [.overwrote (count + n - capacity) capacity] else []

/-- The reports of runs that are stored one after the other behind `count` unread items, each
followed by what `own` says of the run. -/
def reports (own : List α → List Event) (capacity : Nat) : Nat → List (List α) → List Event
  | _, [] => []
  | count, run :: runs =>
    overflowOf capacity count run.length ++ own run ++
      reports own capacity (min (count + run.length) capacity) runs

variable {own : List α → List Event} {capacity : Nat}

theorem reports_append (own : List α → List Event) {capacity count : Nat} (hc : count ≤ capacity)
    (earlier later : List (List α)) :
    reports own capacity count (earlier ++ later) =
      reports own capacity count earlier ++
        reports own capacity (min (count + earlier.flatten.length) capacity) later := by
  induction earlier generalizing count with
  | nil => simp [reports, Nat.min_eq_left hc]
  | cons run earlier ih =>
      have hnext : min (min (count + run.length) capacity + earlier.flatten.length) capacity =
          min (count + (run :: earlier).flatten.length) capacity := by
        rw [List.flatten_cons, List.length_append]
        omega
      rw [List.cons_append, reports, reports, ih (Nat.min_le_right _ _), hnext]
      simp only [List.append_assoc]

theorem sum_losses_overflowOf (capacity count n : Nat) :
    (losses (overflowOf capacity count n)).sum = count + n - capacity := by
  unfold overflowOf
  split
  · simp [losses, Event.evicted?]
  · simp only [losses_nil, List.sum_nil]
    omega

/-- What is reported as given up is what no longer fits. -/
theorem sum_losses_reports (hown : ∀ run, losses (own run) = []) {count : Nat}
    (hc : count ≤ capacity) (runs : List (List α)) :
    (losses (reports own capacity count runs)).sum = count + runs.flatten.length - capacity := by
  induction runs generalizing count with
  | nil => simp [reports, Nat.sub_eq_zero_of_le hc]
  | cons run runs ih =>
      rw [reports, losses_append, losses_append, hown, List.append_nil, List.sum_append,
        sum_losses_overflowOf, ih (Nat.min_le_right _ _), List.flatten_cons, List.length_append]
      omega

end Ring

/-! ### Observers -/

/-- What an observer reports of a run: `own`, and `warn` besides if it rejects the run. -/
def Observer.Reports (watch : Observer σ α) (own : List α → List Event)
    (warn : List α → Failure → List Event) : Prop :=
  ∀ state r run, (watch state r run).trace.ownEvents =
    own run ++ match (watch state r run).answer with
      | .ok () => []
      | .error failure => warn run failure

/-- What an observer reports of the first run that it rejects. -/
def Observer.protest (watch : Observer σ α) (warn : List α → Failure → List Event)
    (shown : List (Showing σ α)) : List Event :=
  (shown.findSome? fun x => (watch.objection x).map (warn x.run)).getD []

theorem Observer.silent_reports :
    (Observer.silent : Observer σ α).Reports (fun _ => []) fun _ _ => [] := fun _ _ _ => rfl

/-- What a stage reports of a run that it shows. -/
def Stage.announce (run : List α) : List Event := [.dispatching run.length]

/-- What a stage reports of a run that its filter rejects. -/
def Stage.warn (run : List α) : Failure → List Event
  | .rejected cause => [.rejected run.length cause.message]
  | _ => []

theorem Filter.observer_reports (filter : Filter σ α) :
    filter.observer.Reports Stage.announce Stage.warn := by
  intro state r run
  unfold observer
  dsimp only
  cases (filter state run).answer <;> simp [Stage.announce, Stage.warn]

section Protest

variable {watch : Observer σ α} {warn : List α → Failure → List Event} {x : Showing σ α}
  {shown : List (Showing σ α)}

theorem Observer.protest_cons_of_rejected {failure : Failure}
    (hx : watch.objection x = some failure) :
    watch.protest warn (x :: shown) = warn x.run failure := by
  simp [protest, hx]

theorem Observer.protest_cons_of_passed (hx : watch.objection x = none) :
    watch.protest warn (x :: shown) = watch.protest warn shown := by
  simp [protest, hx]

theorem Observer.protest_append {earlier : List (Showing σ α)}
    (he : watch.rejection earlier = none) :
    watch.protest warn (earlier ++ shown) = watch.protest warn shown := by
  induction earlier with
  | nil => rfl
  | cons x earlier ih =>
      have hall := Observer.rejection_eq_none.mp he
      obtain ⟨hx, hearlier⟩ := List.forall_mem_cons.mp hall
      rw [List.cons_append, protest_cons_of_passed hx, ih (rejection_eq_none.mpr hearlier)]

theorem Observer.protest_of_passed (h : watch.rejection shown = none) :
    watch.protest warn shown = [] := by
  have happend : watch.protest warn (shown ++ []) = watch.protest warn [] := protest_append h
  rwa [List.append_nil] at happend

end Protest

/-! ### Runs that are committed -/

namespace Ring

variable [Inhabited α] {watch : Observer σ α} {own : List α → List Event}
  {warn : List α → Failure → List Event}

theorem count_commits {r : Ring α} (h : r.Valid) {runs : List (List α)}
    (hf : Fits r.capacity r.tail runs) :
    (r.commits runs).count = min (r.count + runs.flatten.length) r.capacity := by
  rw [← length_unread, unread_commits h hf, List.rtake, List.length_drop, List.length_append,
    length_unread]
  omega

/-- What is reported while runs are committed, given the runs that were shown. -/
theorem present_reports (hw : watch.Reports own warn) {r : Ring α} (h : r.Valid)
    {runs : List (List α)} (hf : Fits r.capacity r.tail runs) {state : σ} {log : Log σ α}
    {shown : List (Showing σ α)}
    (hs : (r.present watch.recorded (state, log) runs).state.2.showings = log.showings ++ shown) :
    (r.present watch.recorded (state, log) runs).trace.ownEvents =
      reports own r.capacity r.count (runsOf shown) ++ watch.protest warn shown := by
  induction runs generalizing r state log shown with
  | nil =>
      obtain rfl : shown = [] := by simpa [present] using hs
      rfl
  | cons run runs ih =>
      obtain ⟨hr, hf⟩ := hf
      have hreports := hw state (r.commit run) run
      have hcount : (r.commit run).count = min (r.count + run.length) r.capacity := by
        have hone : Fits r.capacity r.tail [run] := ⟨hr, trivial⟩
        exact (count_commits h hone).trans (by rw [List.flatten_singleton])
      have hrecorded : watch.recorded (state, log) (r.commit run) run =
        ⟨((watch state (r.commit run) run).state,
            { log with showings := log.showings ++ [⟨state, r.commit run, run⟩] }),
          (watch state (r.commit run) run).trace, (watch state (r.commit run) run).answer⟩ := rfl
      rw [← tail_commit hr, ← capacity_commit hr] at hf
      simp only [present, hrecorded] at hs ⊢
      cases hv : (watch state (r.commit run) run).answer with
      | error failure =>
          rw [hv] at hs hreports
          obtain rfl : [⟨state, r.commit run, run⟩] = shown := List.append_cancel_left hs
          rw [Observer.protest_cons_of_rejected (Observer.objection_eq_some.mpr hv)]
          simp only [Trace.ownEvents_append, Trace.ownEvents_ofOwn, hreports, runsOf_cons,
            runsOf_nil, reports, List.append_nil, List.append_assoc]
          rfl
      | ok =>
          rw [hv] at hs hreports
          obtain ⟨_, shown', -, hstate, -⟩ := present_recorded watch (r.commit run) runs
            (watch state (r.commit run) run).state
            { log with showings := log.showings ++ [⟨state, r.commit run, run⟩] }
          have hlater := congrArg (fun s => s.2.showings) hstate
          obtain rfl : ⟨state, r.commit run, run⟩ :: shown' = shown :=
            List.append_cancel_left (((List.append_assoc _ [_] _).symm.trans hlater.symm).trans hs)
          have hrest := ih (h.commit hr) hf hlater
          rw [Observer.protest_cons_of_passed (Observer.objection_eq_none.mpr hv)]
          simp only [Outcome.trace_after, Trace.ownEvents_append, Trace.ownEvents_ofOwn, hreports,
            hrest, capacity_commit hr, hcount, runsOf_cons, reports, List.append_nil,
            List.append_assoc]
          rfl

/-- What one call reports, given the runs that were shown of its chunk. -/
theorem pullOnce_reports (hw : watch.Reports own warn) {r : Ring α} (h : r.Valid)
    {staging : List α} (hs : r.Staging staging) (produce : Producer σ α) (state : σ)
    (log : Log σ α) :
    ∃ o staging' shown,
      r.pullOnce produce.recorded watch.recorded (state, log) staging = (o, staging') ∧
        o.state.2.showings = log.showings ++ shown ∧
        o.ring.count = min (r.count + (runsOf shown).flatten.length) r.capacity ∧
        o.trace.ownEvents =
          reports own r.capacity r.count (runsOf shown) ++ watch.protest warn shown ∧
        ∀ n, o.answer = .ok (some n) → watch.rejection shown = none := by
  obtain ⟨final, shown, hpresented, hsettle, -⟩ :=
    settle_recorded produce watch r state log staging rfl
  have hcall := pullOnce_eq h produce.recorded watch.recorded (state, log) staging
  have hlen : (r.call produce state staging).buffer.length =
      if r.isFull then r.capacity else r.vacancy :=
    (Call.length_buffer _).trans (length_offer h hs)
  have hv := valid_touch h hlen
  have hf := fits_lapsOf hv (r.call produce state staging).chunk
  have hshown : (r.settle watch.recorded
      (r.call produce.recorded (state, log) staging)).state.2.showings = log.showings ++ shown :=
    congrArg (fun o => o.state.2.showings) hsettle
  have hreports := present_reports hw hv hf hshown
  rw [capacity_touch h hlen, count_touch] at hreports
  refine ⟨_, _, shown, hcall, by rw [hsettle], ?_, hreports, ?_⟩
  · rw [hsettle, count_commits hv (hf.initial hpresented.in_order), capacity_touch h hlen,
      count_touch]
  · intro n hn
    rw [hsettle] at hn
    dsimp only at hn
    cases ha : (r.call produce state staging).accepted with
    | error failure =>
        rw [ha] at hn
        cases hn
    | ok accepted =>
        rw [ha] at hn
        cases hr : watch.rejection shown with
        | none => rfl
        | some failure =>
            rw [hr] at hn
            cases hn

/-- What a pull reports at its end. -/
def finished : Except Failure Nat → List Event
  | .ok total => [.pullFinished total]
  | .error _ => []

/-- **What a pull reports**, given the runs that were shown: those, a run that is rejected, and its
end. -/
theorem pullFrom_reports {produce : Producer σ α} (hw : watch.Reports own warn) {r : Ring α}
    (h : r.Valid) {p : Progress α} (hs : r.Staging p.staging) {limit : Nat} {state : σ}
    {log : Log σ α} {o : Outcome (σ × Log σ α) α Nat}
    (ho : r.pullFrom produce.recorded watch.recorded limit (state, log) p = some o) :
    ∃ shown, o.state.2.showings = log.showings ++ shown ∧
      o.trace.ownEvents =
        reports own r.capacity r.count (runsOf shown) ++ watch.protest warn shown ++
          finished o.answer := by
  induction limit generalizing state log r p o with
  | zero => cases ho
  | succ limit ih =>
      have hvalid : (r.pullOnce produce.recorded watch.recorded (state, log)
        p.staging).1.ring.Valid := h.pullOnce _
      have hcapacity : (r.pullOnce produce.recorded watch.recorded (state, log)
        p.staging).1.ring.capacity = r.capacity := capacity_pullOnce h p.staging
      have hstaging : (r.pullOnce produce.recorded watch.recorded (state, log)
          p.staging).1.ring.Staging
        (r.pullOnce produce.recorded watch.recorded (state, log) p.staging).2 :=
          staging_pullOnce h hs
      obtain ⟨once, staging, shown, hcall, hshown, hcount, hreports, hpassed⟩ :=
        pullOnce_reports hw h hs produce state log
      rw [hcall] at hvalid hcapacity hstaging
      obtain ⟨ring, ⟨final, noted⟩, trace, answer⟩ := once
      rcases answer with failure | _ | n
      · rw [pullFrom_of_failure hcall limit rfl] at ho
        cases ho
        exact ⟨shown, hshown, hreports.trans (List.append_nil _).symm⟩
      · rw [pullFrom_of_end hcall limit rfl] at ho
        cases ho
        refine ⟨shown, hshown, ?_⟩
        rw [Trace.ownEvents_append, Trace.ownEvents_ofOwn, hreports]
        rfl
      rcases Nat.lt_or_ge (if n = 0 then p.idle + 1 else 0) maxEmptyReads with hidle | hidle
      · rw [pullFrom_of_next hcall limit rfl hidle] at ho
        obtain ⟨later, hlater, rfl⟩ := Option.map_eq_some_iff.mp ho
        obtain ⟨shown', hshown', hreports'⟩ := ih (p := ⟨_, _, staging⟩) hvalid hstaging hlater
        refine ⟨shown ++ shown', ?_, ?_⟩
        · rw [Outcome.state_after, hshown', hshown, List.append_assoc]
        · have hfirst : watch.protest warn shown = [] := Observer.protest_of_passed (hpassed n rfl)
          rw [Outcome.trace_after, Trace.ownEvents_append, hreports, hreports', hcount, hcapacity,
            Outcome.answer_after, runsOf_append, reports_append own h.count_le,
            Observer.protest_append (hpassed n rfl), hfirst, List.append_nil]
          simp only [List.append_assoc]
      -- only an empty answer counts as idle
      · obtain rfl : n = 0 := by
          by_contra hn
          rw [if_neg hn] at hidle
          exact absurd hidle (by decide)
        rw [if_pos rfl] at hidle
        rw [pullFrom_of_stuck hcall limit rfl hidle] at ho
        cases ho
        exact ⟨shown, hshown, hreports.trans (List.append_nil _).symm⟩

end Ring

/-! ### One write -/

namespace Ring

/-- The number of unread items that a write of `n` items gives up. -/
def evictedBy (r : Ring α) (n : Nat) : Nat := min r.count (r.count + n - r.capacity)

theorem evicted_writeEvents {r : Ring α} (h : r.Valid) (n : Nat) :
    (r.writeEvents n).map Event.evicted? =
      if 0 < r.evictedBy n then [some (r.evictedBy n)] else [] := by
  have hc := h.count_le
  unfold writeEvents evictedBy
  split
  · next h0 => rw [if_neg (by omega), List.map_nil]
  · split
    · next hn =>
        rw [Nat.min_eq_left (by omega)]
        split <;> rfl
    · next hn =>
        rw [Nat.min_eq_right (by omega)]
        unfold overflow
        split
        · rw [if_pos (by omega)]
          rfl
        · rw [if_neg (by omega)]
          rfl

theorem evicted_writeItemEvents {r : Ring α} (h : r.Valid) :
    r.writeItemEvents.map Event.evicted? =
      if 0 < r.evictedBy 1 then [some (r.evictedBy 1)] else [] := by
  have hc := h.count_le
  have hpos := h.capacity_pos
  unfold writeItemEvents evictedBy overflow
  rw [Nat.min_eq_right (by omega)]
  split
  · rw [if_pos (by omega)]
    rfl
  · rw [if_neg (by omega)]
    rfl

theorem rtake_append (xs ys : List α) (n : Nat) :
    (xs ++ ys).rtake n = xs.drop (min xs.length (xs.length + ys.length - n)) ++ ys.rtake n := by
  rw [List.rtake, List.rtake, List.length_append, List.drop_append, Nat.min_comm,
    ← List.drop_eq_drop_min,
    show xs.length + ys.length - n - xs.length = ys.length - n by omega]

end Ring

/-! ### Transfers -/

/-- The reports of a transfer account for the unread items that it gave up, `committed` items having
been committed to `r`, and `after` being left. -/
structure Accounts (r after : Ring α) (committed : Nat) (events : List Event) : Prop where
  lost : (losses events).sum = r.count + committed - r.capacity
  kept : (losses events).sum + after.count = r.count + committed

/-- The reports of a transfer to a stage account for what its filter was shown; at its end the
transfer reports `closing`. -/
structure Announces (filter : Filter σ α) (r : Ring α) (shown : List (Showing σ α))
    (events closing : List Event) (answer : Except Failure Nat) : Prop where
  /-- What a run was stored over is reported first, and then that the run is shown. -/
  events_eq : events = Ring.reports Stage.announce r.capacity r.count (runsOf shown) ++
    filter.observer.protest Stage.warn shown ++ closing
  dispatched : events.filterMap Event.dispatched? = (runsOf shown).map List.length
  warned : (∃ e ∈ events, e.level = .warn) ↔ ∃ cause, filter.rejection shown = some cause
  /-- A warning is the last report, about the last run, and the transfer fails. -/
  rejected : ∀ cause, filter.rejection shown = some cause →
    answer = .error (.rejected cause) ∧
      ∃ earlier x, shown = earlier ++ [x] ∧
        events.getLast? = some (.rejected x.run.length cause.message)

theorem losses_finished (answer : Except Failure Nat) : losses (Ring.finished answer) = [] := by
  cases answer <;> rfl

theorem Filter.protest_cases (filter : Filter σ α) (shown : List (Showing σ α)) :
    filter.observer.protest Stage.warn shown = [] ∨
      ∃ items text, filter.observer.protest Stage.warn shown = [.rejected items text] := by
  unfold Observer.protest
  cases hf : shown.findSome? fun x => (filter.observer.objection x).map (Stage.warn x.run) with
  | none => exact .inl rfl
  | some events =>
      obtain ⟨x, -, hx⟩ := List.exists_of_findSome?_eq_some hf
      obtain ⟨failure, -, rfl⟩ := Option.map_eq_some_iff.mp hx
      cases failure with
      | rejected cause => exact .inr ⟨_, _, rfl⟩
      | _ => exact .inl rfl

theorem losses_protest (filter : Filter σ α) (shown : List (Showing σ α)) :
    losses (filter.observer.protest Stage.warn shown) = [] := by
  rcases filter.protest_cases shown with h | ⟨items, text, h⟩ <;> rw [h] <;> rfl

theorem Ring.dispatched_reports (capacity count : Nat) (runs : List (List α)) :
    (Ring.reports Stage.announce capacity count runs).filterMap Event.dispatched? =
      runs.map List.length := by
  induction runs generalizing count with
  | nil => rfl
  | cons run runs ih =>
      have hover : (overflowOf capacity count run.length).filterMap Event.dispatched? = [] := by
        unfold overflowOf
        split <;> rfl
      rw [reports, List.filterMap_append, List.filterMap_append, hover, ih]
      rfl

theorem Ring.mem_reports {own : List α → List Event} {capacity count : Nat}
    {runs : List (List α)} {e : Event} (he : e ∈ Ring.reports own capacity count runs) :
    (∃ evicted, e = .overwrote evicted capacity) ∨ ∃ run, e ∈ own run := by
  induction runs generalizing count with
  | nil => cases he
  | cons run runs ih =>
      rcases List.mem_append.mp he with he | he
      · rcases List.mem_append.mp he with he | he
        · unfold overflowOf at he
          split at he
          · exact .inl ⟨_, List.mem_singleton.mp he⟩
          · cases he
        · exact .inr ⟨run, he⟩
      · exact ih he

theorem Ring.level_reports {capacity count : Nat} {runs : List (List α)} {e : Event}
    (he : e ∈ Ring.reports Stage.announce capacity count runs) : e.level ≠ .warn := by
  rcases mem_reports he with ⟨evicted, rfl⟩ | ⟨run, he⟩
  · exact fun hlevel => nomatch hlevel
  · obtain rfl := List.mem_singleton.mp he
    exact fun hlevel => nomatch hlevel

/-- A filter rejects at most the last run that it is shown. -/
theorem Filter.protest_observer {filter : Filter σ α} {shown : List (Showing σ α)}
    (hp : ∀ x ∈ shown.dropLast, filter.objection x = none) :
    match filter.rejection shown with
    | none => filter.observer.protest Stage.warn shown = []
    | some cause => ∃ earlier x, shown = earlier ++ [x] ∧
        filter.observer.protest Stage.warn shown = [.rejected x.run.length cause.message] := by
  cases hc : filter.rejection shown with
  | none => exact Observer.protest_of_passed (Filter.observer_rejection_eq_none.mpr hc)
  | some cause =>
      rcases List.eq_nil_or_concat' shown with rfl | ⟨earlier, x, rfl⟩
      · cases hc
      · rw [List.dropLast_concat] at hp
        have hearlier : filter.rejection earlier = none := List.findSome?_eq_none_iff.mpr hp
        have hpassed : filter.observer.rejection earlier = none :=
          Filter.observer_rejection_eq_none.mpr hearlier
        have hx : filter.objection x = some cause := by
          unfold rejection at hc hearlier
          rw [List.findSome?_append, hearlier, Option.none_or] at hc
          simpa using hc
        have hobserver : filter.observer.objection x = some (.rejected cause) := by
          rw [filter.objection_observer, hx]
          rfl
        refine ⟨earlier, x, rfl, ?_⟩
        rw [Observer.protest_append hpassed, Observer.protest_cons_of_rejected hobserver]
        rfl

theorem Announces.of_events {filter : Filter σ α} {r : Ring α} {shown : List (Showing σ α)}
    {events closing : List Event} {answer : Except Failure Nat}
    (he : events = Ring.reports Stage.announce r.capacity r.count (runsOf shown) ++
      filter.observer.protest Stage.warn shown ++ closing)
    (hp : ∀ x ∈ shown.dropLast, filter.objection x = none)
    (hr : ∀ cause, filter.rejection shown = some cause → answer = .error (.rejected cause))
    (hc : closing = [] ∨ closing = Ring.finished answer) :
    Announces filter r shown events closing answer := by
  have hprotest := Filter.protest_observer hp
  have hclosing : closing.filterMap Event.dispatched? = [] ∧ ∀ e ∈ closing, e.level ≠ .warn := by
    rcases hc with rfl | rfl
    · exact ⟨rfl, fun e h => by cases h⟩
    · cases answer <;> simp [Ring.finished, Event.dispatched?, Event.level]
  cases hcase : filter.rejection shown with
  | none =>
      rw [hcase] at hprotest
      have he' : events =
          Ring.reports Stage.announce r.capacity r.count (runsOf shown) ++ closing := by
        rw [he, hprotest, List.append_nil]
      refine ⟨he, ?_, ?_, by simp [hcase]⟩
      · rw [he', List.filterMap_append, Ring.dispatched_reports, hclosing.1, List.append_nil]
      · refine iff_of_false ?_ (by simp [hcase])
        rintro ⟨e, hmem, hlevel⟩
        rw [he'] at hmem
        rcases List.mem_append.mp hmem with hmem | hmem
        · exact Ring.level_reports hmem hlevel
        · exact hclosing.2 e hmem hlevel
  | some cause =>
      rw [hcase] at hprotest
      obtain ⟨earlier, x, hshown, hprotest⟩ := hprotest
      have hanswer := hr cause hcase
      obtain rfl : closing = [] := by
        rcases hc with hc | hc
        · exact hc
        · rw [hc, hanswer]
          rfl
      have he' : events = Ring.reports Stage.announce r.capacity r.count (runsOf shown) ++
          [.rejected x.run.length cause.message] := by
        rw [he, hprotest, List.append_nil]
      refine ⟨he, ?_, ?_, ?_⟩
      · rw [he', List.filterMap_append, Ring.dispatched_reports]
        exact List.append_nil _
      · exact iff_of_true ⟨.rejected x.run.length cause.message, by simp [he'], rfl⟩ ⟨cause, hcase⟩
      · intro cause' hcause
        rw [hcase] at hcause
        cases hcause
        exact ⟨hanswer, earlier, x, hshown, by simp [he']⟩

/-- The calls of a pull decide that a run was rejected if the producer itself answers so. -/
theorem ruling_rejected {calls : List (Call σ α)} {cause : Cause} :
    ruling calls = some (.error (.rejected cause)) ↔
      ∃ c ∈ calls.getLast?, c.delivery.answer = .error (.rejected cause) := by
  unfold ruling
  constructor
  · intro h
    obtain ⟨c, hc, h⟩ := Option.bind_eq_some_iff.mp h
    refine ⟨c, hc, ?_⟩
    split at h
    · cases h
    · next failure _ ha =>
        cases h
        exact ha
    · split at h
      · cases h
      · split at h <;> cases h
  · rintro ⟨c, hc, ha⟩
    rw [Option.mem_def.mp hc, Option.bind_some, ha]

/-- A pull reports its end if it answers the number of its items, and only then and last. -/
structure Finishes (events : List Event) (answer : Except Failure Nat) : Prop where
  iff : ∀ total, .pullFinished total ∈ events ↔ answer = .ok total
  last : ∀ total, answer = .ok total → events.getLast? = some (.pullFinished total)

theorem Finishes.of_events {events earlier : List Event} {answer : Except Failure Nat}
    (he : events = earlier ++ Ring.finished answer)
    (hearlier : ∀ total, .pullFinished total ∉ earlier) : Finishes events answer := by
  subst he
  refine ⟨fun total => ?_, fun total ha => ?_⟩
  · rw [List.mem_append, or_iff_right (hearlier total)]
    cases answer <;> simp [Ring.finished, eq_comm]
  · rw [ha]
    exact List.getLast?_concat

theorem Announces.finishes {filter : Filter σ α} {r : Ring α} {shown : List (Showing σ α)}
    {events : List Event} {answer : Except Failure Nat}
    (h : Announces filter r shown events (Ring.finished answer) answer) :
    Finishes events answer := by
  refine .of_events h.events_eq fun total he => ?_
  rcases List.mem_append.mp he with he | he
  · rcases Ring.mem_reports he with ⟨evicted, he⟩ | ⟨run, he⟩
    · cases he
    · cases List.mem_singleton.mp he
  · rcases filter.protest_cases shown with hp | ⟨items, text, hp⟩
    · rw [hp] at he
      cases he
    · rw [hp] at he
      cases List.mem_singleton.mp he

section

variable [Inhabited α] {r : Ring α} (h : r.Valid)

include h

/-- What a ring keeps and gives up adds up to what it had and what was committed. -/
theorem Accounts.of_unread {after : Ring α} {items : List α} {own : List α → List Event}
    {runs : List (List α)} {events later : List Event}
    (hu : after.unread = (r.unread ++ items).rtake r.capacity) (hruns : runs.flatten = items)
    (hown : ∀ run, losses (own run) = [])
    (he : losses events = losses (Ring.reports own r.capacity r.count runs ++ later))
    (hl : losses later = []) : Accounts r after items.length events := by
  have hlost : (losses events).sum = r.count + items.length - r.capacity := by
    rw [he, losses_append, hl, List.append_nil, Ring.sum_losses_reports hown h.count_le, hruns]
  refine ⟨hlost, ?_⟩
  rw [hlost, ← Ring.length_unread after, hu, List.rtake, List.length_drop, List.length_append,
    Ring.length_unread]
  omega

theorem Ring.readFrom_accounts (produce : Producer σ α) (limit : Nat) (state : σ)
    {o : Outcome (σ × Log σ α) α Nat}
    (ho : r.readFrom produce.recorded limit (state, .empty) = some o) :
    o.trace.ownEvents =
        Ring.reports (fun _ => []) r.capacity r.count
          (cuts r.capacity r.tail (chunksOf o.state.2.calls)) ++ Ring.finished o.answer ∧
      Accounts r o.ring (acceptedOf o.state.2.calls).length o.trace.ownEvents ∧
      Finishes o.trace.ownEvents o.answer := by
  have hpull := pullFrom_recorded (Pulling.start h produce Observer.silent state) limit
  rw [readFrom_recorded] at ho
  obtain ⟨whole, hwhole, rfl⟩ := Option.map_eq_some_iff.mp ho
  have hstaging : r.Staging (⟨0, 0, []⟩ : Progress α).staging := .inl rfl
  obtain ⟨shown, hshown, hreports⟩ :=
    pullFrom_reports Observer.silent_reports h hstaging hwhole
  obtain rfl : whole.state.2.showings = shown := hshown
  rw [hwhole] at hpull
  obtain ⟨hruns, -⟩ := hpull.settled (Observer.silent_rejection _)
  have hquiet : Observer.silent.protest (fun _ _ => []) whole.state.2.showings = [] :=
    Observer.protest_of_passed (Observer.silent_rejection _)
  rw [hquiet, List.append_nil, hruns] at hreports
  have hunread := hpull.unread_eq
  rw [hruns, flatten_cuts] at hunread
  refine ⟨hreports, .of_unread h hunread (flatten_cuts _ _ _) (fun _ => rfl)
    (congrArg losses hreports) (losses_finished _), .of_events hreports fun total he => ?_⟩
  rcases Ring.mem_reports he with ⟨evicted, he⟩ | ⟨run, he⟩ <;> cases he

theorem Stage.write_accounts (filter : Filter σ α) (state : σ) (items : List α) :
    Accounts r ((Stage.mk r filter).write state items).ring
        (runsOf ((Stage.mk r filter).showings state items)).flatten.length
        ((Stage.mk r filter).write state items).trace.ownEvents ∧
      Announces filter r ((Stage.mk r filter).showings state items)
        ((Stage.mk r filter).write state items).trace.ownEvents []
        ((Stage.mk r filter).write state items).answer := by
  obtain ⟨hpresented, hring, hanswer⟩ := showings_presented (s := Stage.mk r filter) h state items
  have htrace : ((Stage.mk r filter).write state items).trace =
      (r.present filter.observer.recorded (state, .empty) (r.lapsOf items)).trace := by
    rw [← (Stage.mk r filter).writeRecorded_erase state items]
    unfold writeRecorded Outcome.mapState
    dsimp only
    rw [Ring.writeLaps_eq_present h]
  have hshown : (r.present filter.observer.recorded (state, .empty)
      (r.lapsOf items)).state.2.showings = (Stage.mk r filter).showings state items := by
    unfold showings writeRecorded
    dsimp only
    rw [Ring.writeLaps_eq_present h]
  have hfits := Ring.fits_lapsOf h items
  have hreports := Ring.present_reports filter.observer_reports h hfits
    (hshown.trans (List.nil_append _).symm)
  rw [← htrace] at hreports
  generalize (Stage.mk r filter).showings state items = shown at *
  have hunread : ((Stage.mk r filter).write state items).ring.unread =
      (r.unread ++ (runsOf shown).flatten).rtake r.capacity := by
    rw [hring, Ring.unread_commits h (hfits.initial hpresented.in_order)]
  have hquiet : ∀ run : List α, losses (announce run) = [] := fun _ => rfl
  refine ⟨.of_unread h hunread rfl hquiet (congrArg losses hreports)
    (losses_protest filter shown), ?_⟩
  refine .of_events (by rw [hreports, List.append_nil])
    (fun _ hx => Filter.objection_eq_none (hpresented.passed _ hx)) ?_ (.inl rfl)
  intro cause hc
  rw [hanswer]
  simp only [hc]

theorem Stage.readFrom_accounts (filter : Filter σ α) (produce : Producer σ α) (limit : Nat)
    (state : σ) {o : Outcome (σ × Log σ α) α Nat}
    (ho : (Stage.mk r filter).readFromRecorded produce limit state = some o) :
    Accounts r o.ring (runsOf o.state.2.showings).flatten.length o.trace.ownEvents ∧
      Announces filter r o.state.2.showings o.trace.ownEvents (Ring.finished o.answer) o.answer ∧
      ((∃ cause, o.answer = .error (.rejected cause)) ↔
        (∃ cause, filter.rejection o.state.2.showings = some cause) ∨
          ∃ c ∈ o.state.2.calls.getLast?, ∃ cause, c.delivery.answer = .error (.rejected cause)) := by
  have hpull := pullFrom_recorded (Pulling.start h produce filter.observer state) limit
  have ho : r.pullFrom produce.recorded filter.observer.recorded limit (state, .empty)
    ⟨0, 0, []⟩ = some o := ho
  have hstaging : r.Staging (⟨0, 0, []⟩ : Ring.Progress α).staging := .inl rfl
  obtain ⟨shown, hshown, hreports⟩ :=
    Ring.pullFrom_reports filter.observer_reports h hstaging ho
  obtain rfl : o.state.2.showings = shown := hshown
  rw [ho] at hpull
  have hrejected : ∀ cause, filter.rejection o.state.2.showings = some cause →
      o.answer = .error (.rejected cause) := fun _ hc => hpull.answer_eq_rejected hc
  refine ⟨?_, ?_, ?_⟩
  · rw [List.append_assoc] at hreports
    have hquiet : ∀ run : List α, losses (announce run) = [] := fun _ => rfl
    refine .of_unread h hpull.unread_eq rfl hquiet (congrArg losses hreports) ?_
    rw [losses_append, losses_protest, losses_finished, List.append_nil]
  · exact .of_events hreports (fun _ hx => Filter.objection_eq_none (hpull.passed _ hx)) hrejected
      (.inr rfl)
  · cases hc : filter.rejection o.state.2.showings with
    | some cause => exact iff_of_true ⟨cause, hrejected cause hc⟩ (.inl ⟨cause, rfl⟩)
    | none =>
        obtain ⟨-, hruling⟩ := hpull.settled_of_filter hc
        constructor
        · rintro ⟨cause, ha⟩
          rw [ha] at hruling
          obtain ⟨c, hlast, hc⟩ := ruling_rejected.mp hruling
          exact .inr ⟨c, hlast, cause, hc⟩
        · rintro (⟨_, ⟨⟩⟩ | ⟨c, hlast, cause, ha⟩)
          have := ruling_rejected.mpr ⟨c, hlast, ha⟩
          exact ⟨cause, Option.some.inj (hruling.symm.trans this)⟩

end

/-- **Reports account for every item that is given up and for every item that is shown.** The ring
may be in any state; the producer and the filter may do and answer anything.

* A write of `n` items reports at most once, and just if it gives up unread items, how many.
* What a transfer reports as given up adds up, whether it fails or not.
* A stage reports each run that it shows, behind what the run was stored over. A warning tells that
  the filter rejected a run; it is the last report, and the transfer fails with that cause. A pull
  fails in this way besides if its producer answers that a run was rejected, without a warning.
* The end of a pull is reported if it answers the number of its items, and then last. -/
theorem reports_account [Inhabited α] {r : Ring α} (h : r.Valid) :
    (∀ (σ : Type) (state : σ) (items : List α),
      ∃ result, r.perform (.write items) state = some result ∧
        result.trace.ownEvents.map Event.evicted? =
          (if 0 < r.evictedBy items.length then [some (r.evictedBy items.length)] else []) ∧
        result.ring.unread =
          r.unread.drop (r.evictedBy items.length) ++ items.rtake r.capacity) ∧
    (∀ (σ : Type) (state : σ) (item : α),
      ∃ result, r.perform (.writeItem item) state = some result ∧
        result.trace.ownEvents.map Event.evicted? =
          (if 0 < r.evictedBy 1 then [some (r.evictedBy 1)] else []) ∧
        result.ring.unread = r.unread.drop (r.evictedBy 1) ++ [item]) ∧
    (∀ (σ : Type) (produce : Producer σ α) (limit : Nat) (state : σ),
      (r.readFrom produce.recorded limit (state, .empty)).map (Outcome.mapState Prod.fst) =
        r.readFrom produce limit state ∧
      ∀ o ∈ r.readFrom produce.recorded limit (state, .empty),
        o.trace.ownEvents =
            Ring.reports (fun _ => []) r.capacity r.count
              (cuts r.capacity r.tail (chunksOf o.state.2.calls)) ++ Ring.finished o.answer ∧
          Accounts r o.ring (acceptedOf o.state.2.calls).length o.trace.ownEvents ∧
          Finishes o.trace.ownEvents o.answer) ∧
    ∀ (σ : Type) (filter : Filter σ α) (state : σ),
      (∀ items,
        Accounts r ((Stage.mk r filter).write state items).ring
            (runsOf ((Stage.mk r filter).showings state items)).flatten.length
            ((Stage.mk r filter).write state items).trace.ownEvents ∧
          Announces filter r ((Stage.mk r filter).showings state items)
            ((Stage.mk r filter).write state items).trace.ownEvents []
            ((Stage.mk r filter).write state items).answer ∧
          ((∃ cause, ((Stage.mk r filter).write state items).answer = .error (.rejected cause)) ↔
            ∃ cause, filter.rejection ((Stage.mk r filter).showings state items) = some cause)) ∧
      (∀ item, (Stage.mk r filter).writeItem state item =
        ⟨((Stage.mk r filter).write state [item]).ring,
          ((Stage.mk r filter).write state [item]).state,
          ((Stage.mk r filter).write state [item]).trace,
          ((Stage.mk r filter).write state [item]).answer.map fun _ => ()⟩) ∧
      ∀ (produce : Producer σ α) (limit : Nat),
        ((Stage.mk r filter).readFromRecorded produce limit state).map (Outcome.mapState Prod.fst) =
          (Stage.mk r filter).readFrom produce limit state ∧
        ∀ o ∈ (Stage.mk r filter).readFromRecorded produce limit state,
          Accounts r o.ring (runsOf o.state.2.showings).flatten.length o.trace.ownEvents ∧
            Announces filter r o.state.2.showings o.trace.ownEvents (Ring.finished o.answer)
              o.answer ∧
            Finishes o.trace.ownEvents o.answer ∧
            ((∃ cause, o.answer = .error (.rejected cause)) ↔
              (∃ cause, filter.rejection o.state.2.showings = some cause) ∨
                ∃ c ∈ o.state.2.calls.getLast?,
                  ∃ cause, c.delivery.answer = .error (.rejected cause)) := by
  refine ⟨?_, ?_, ?_, ?_⟩
  · intro σ state items
    refine ⟨_, rfl, ?_, ?_⟩
    · dsimp only
      rw [Trace.ownEvents_ofOwn, Ring.evicted_writeEvents h]
    · dsimp only [Result.quiet]
      rw [Ring.unread_write_eq h, Ring.rtake_append, Ring.length_unread]
      rfl
  · intro σ state item
    refine ⟨_, rfl, ?_, ?_⟩
    · dsimp only
      rw [Trace.ownEvents_ofOwn, Ring.evicted_writeItemEvents h]
    · dsimp only [Result.quiet]
      rw [Ring.unread_writeItem h, Ring.rtake_append, Ring.length_unread,
        rtake_of_length_le (show [item].length ≤ r.capacity from h.capacity_pos)]
      rfl
  · intro σ produce limit state
    refine ⟨?_, fun o ho => Ring.readFrom_accounts h produce limit state ho⟩
    rw [Ring.readFrom_recorded, Ring.readFrom_erase, Option.map_map]
    rfl
  · intro σ filter state
    refine ⟨fun items => ?_, (Stage.mk r filter).writeItem_eq state, fun produce limit =>
      ⟨(Stage.mk r filter).readFromRecorded_erase produce limit state, fun o ho => ?_⟩⟩
    · obtain ⟨haccounts, hannounces⟩ := Stage.write_accounts h filter state items
      refine ⟨haccounts, hannounces, ?_⟩
      obtain ⟨-, -, hanswer⟩ := Stage.showings_presented (s := Stage.mk r filter) h state items
      rw [hanswer]
      dsimp only
      cases filter.rejection ((Stage.mk r filter).showings state items) <;> simp
    · obtain ⟨haccounts, hannounces, hrejected⟩ :=
        Stage.readFrom_accounts h filter produce limit state ho
      exact ⟨haccounts, hannounces, hannounces.finishes, hrejected⟩

/-- A ring with one free slot. -/
def nearlyFull : Ring Nat := ⟨[7, 8, 9], 2, 2, true⟩

/-- An input of more than the capacity gives up both unread items. -/
theorem reports_account_nearlyFull :
    nearlyFull.Valid ∧
      ∃ result, nearlyFull.perform (.write [1, 2, 3, 4]) () = some result ∧
        result.trace.ownEvents.map Event.evicted? = [some 2] ∧
        result.ring.unread = [2, 3, 4] := by
  have hv : nearlyFull.Valid := ⟨by decide, by decide, by decide, by decide⟩
  obtain ⟨result, hresult, hevents, hunread⟩ := (reports_account hv).1 Unit () [1, 2, 3, 4]
  exact ⟨hv, result, hresult, hevents, hunread⟩

/-- Answers that a run was rejected, by some other stage. -/
def relaying : Producer Unit Nat := fun state _ =>
  ⟨state, [], .error (.rejected (.text "refused"))⟩

/-- Not every pull that fails with a rejection gives a warning: this one accepts all it is shown. -/
theorem rejection_relayed :
    ¬ ∀ (r : Ring Nat) (filter : Filter Unit Nat) (produce : Producer Unit Nat) (limit : Nat),
      r.Valid → ∀ o ∈ (Stage.mk r filter).readFrom produce limit (),
        ((∃ e ∈ o.trace.ownEvents, e.level = .warn) ↔
          ∃ cause, o.answer = .error (.rejected cause)) := by
  intro hall
  have hv : nearlyFull.Valid := ⟨by decide, by decide, by decide, by decide⟩
  obtain ⟨e, he, -⟩ := (hall nearlyFull Filter.accepting relaying 1 hv _ rfl).mpr ⟨_, rfl⟩
  cases he

end Carousel
