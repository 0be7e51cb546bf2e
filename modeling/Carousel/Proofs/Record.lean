import Carousel.Proofs.Parallel
import Carousel.Proofs.Pull

/-! # Recorded transfers

A recorded peer does what the peer does and notes in a `Log` what it was given: a producer its
calls, an observer the runs it is shown, each with the state of the foreign code and the ring at
that moment. Recording changes nothing else (`pullFrom_erase`, `writeLaps_erase`), so what is proved
of the log of a recorded transfer is true of the transfer.

`present_recorded` tells what an observer sees while runs are committed: each run once and in
order, in a ring that holds it already, up to the first run that it rejects. What a log notes is a
`Dialogue`: every call and every showing begins in the state in which the one before it ended. -/

namespace Carousel

variable {σ τ α β : Type}

/-- One run shown to an observer: the state of the foreign code, the ring and the run. -/
structure Showing (σ α : Type) where
  state : σ
  ring : Ring α
  run : List α

/-- What the peers of a transfer were given, in order. -/
structure Log (σ α : Type) where
  calls : List (Call σ α)
  showings : List (Showing σ α)

/-- The log of a transfer that has not begun. -/
def Log.empty : Log σ α := ⟨[], []⟩

/-- The runs that were shown. -/
def runsOf (shown : List (Showing σ α)) : List (List α) := shown.map Showing.run

/-- Notes each call. -/
def Producer.recorded (produce : Producer σ α) : Producer (σ × Log σ α) α :=
  fun (state, log) buffer =>
    (produce state buffer).map fun next =>
      (next, { log with calls := log.calls ++ [⟨buffer, produce state buffer⟩] })

/-- Notes each run that is shown. -/
def Observer.recorded (watch : Observer σ α) : Observer (σ × Log σ α) α :=
  fun (state, log) ring run =>
    let verdict := watch state ring run
    ⟨(verdict.state, { log with showings := log.showings ++ [⟨state, ring, run⟩] }),
      verdict.trace, verdict.answer⟩

/-- The failure with which an observer rejects a run, if it does. -/
def Observer.objection (watch : Observer σ α) (x : Showing σ α) : Option Failure :=
  match (watch x.state x.ring x.run).answer with
  | .ok () => none
  | .error failure => some failure

/-- An observer whose verdicts leave the state of the foreign code alone. -/
def Observer.Stateless (watch : Observer σ α) : Prop :=
  ∀ state ring run, (watch state ring run).state = state

/-- An observer that leaves alone what `holds` tells of the state. -/
def Observer.Keeps (watch : Observer σ α) (holds : σ → Prop) : Prop :=
  ∀ state ring run, holds state → holds (watch state ring run).state

theorem Observer.Keeps.present {watch : Observer σ α} {holds : σ → Prop} (h : watch.Keeps holds)
    (r : Ring α) (runs : List (List α)) (state : σ) (hh : holds state) :
    holds (r.present watch state runs).state := by
  induction runs generalizing r state with
  | nil => exact hh
  | cons run runs ih =>
      have hnext := h state (r.commit run) run hh
      unfold Ring.present
      dsimp only
      split
      · exact hnext
      · exact ih (r.commit run) _ hnext

/-! ### Recording changes nothing -/

/-- The same outcome, the state of the foreign code seen through `f`. -/
def Outcome.mapState (f : σ → τ) (o : Outcome σ α β) : Outcome τ α β :=
  ⟨o.ring, f o.state, o.trace, o.answer⟩

/-- Seen through `f`, the producer `fine` is the producer `coarse`. -/
def Producer.Erases (f : τ → σ) (fine : Producer τ α) (coarse : Producer σ α) : Prop :=
  ∀ state buffer, (fine state buffer).map f = coarse (f state) buffer

/-- Seen through `f`, the observer `fine` is the observer `coarse`. -/
def Observer.Erases (f : τ → σ) (fine : Observer τ α) (coarse : Observer σ α) : Prop :=
  ∀ state ring run, coarse (f state) ring run =
    ⟨f (fine state ring run).state, (fine state ring run).trace, (fine state ring run).answer⟩

theorem Producer.recorded_erases (produce : Producer σ α) :
    produce.recorded.Erases Prod.fst produce := fun _ _ => rfl

theorem Observer.recorded_erases (watch : Observer σ α) :
    watch.recorded.Erases Prod.fst watch := fun _ _ _ => rfl

theorem Producer.Erases.parallel {f : τ → σ} {fine : Producer τ α} {coarse : Producer σ α}
    (h : fine.Erases f coarse) : fine.Parallel (f · = ·) coarse := by
  rintro state _ rfl buffer
  rw [← h]
  exact ⟨rfl, rfl, rfl⟩

theorem Observer.Erases.parallel {f : τ → σ} {fine : Observer τ α} {coarse : Observer σ α}
    (h : fine.Erases f coarse) : fine.Parallel (f · = ·) coarse := by
  rintro state _ rfl ring run
  rw [h]
  exact ⟨rfl, rfl, rfl⟩

theorem Outcome.Parallel.mapState_eq {f : τ → σ} {o : Outcome τ α β} {o' : Outcome σ α β}
    (h : o.Parallel (f · = ·) o') : o.mapState f = o' := by
  obtain ⟨hring, hstate, htrace, hanswer⟩ := h
  unfold mapState
  rw [hring, hstate, htrace, hanswer]

theorem Outcome.Parallel.map_mapState_eq {f : τ → σ} {x : Option (Outcome τ α β)}
    {y : Option (Outcome σ α β)} (h : Option.Rel (Outcome.Parallel (f · = ·)) x y) :
    x.map (Outcome.mapState f) = y := by
  cases h with
  | none => rfl
  | some ho => exact congrArg some ho.mapState_eq

namespace Ring

variable {f : τ → σ} {produce : Producer τ α} {produce' : Producer σ α} {watch : Observer τ α}
  {watch' : Observer σ α}

theorem writeLaps_erase (hw : watch.Erases f watch') (state : τ) (r : Ring α) (items : List α) :
    (r.writeLaps watch state items).mapState f = r.writeLaps watch' (f state) items :=
  (writeLaps_parallel hw.parallel rfl r items).mapState_eq

theorem pullOnce_erase [Inhabited α] (hp : produce.Erases f produce')
    (hw : watch.Erases f watch') (state : τ) (r : Ring α) (staging : List α) :
    (r.pullOnce produce watch state staging).1.mapState f =
      (r.pullOnce produce' watch' (f state) staging).1 :=
  (pullOnce_parallel hp.parallel hw.parallel rfl r staging).1.mapState_eq

theorem pullFrom_erase [Inhabited α] (hp : produce.Erases f produce')
    (hw : watch.Erases f watch') (limit : Nat) (state : τ) (r : Ring α) (p : Progress α) :
    (r.pullFrom produce watch limit state p).map (Outcome.mapState f) =
      r.pullFrom produce' watch' limit (f state) p :=
  Outcome.Parallel.map_mapState_eq (pullFrom_parallel hp.parallel hw.parallel rfl r limit p)

end Ring

/-! ### Calls and showings in a row -/

/-- Calls of a producer and runs shown to an observer one after the other, in any order, from the
state `first` of the foreign code to the state `last`, and the log that notes them. -/
inductive Dialogue (produce : Producer σ α) (watch : Observer σ α) (first : σ) :
    Log σ α → (last : σ) → Prop where
  | nil : Dialogue produce watch first .empty first
  | called {log : Log σ α} {state : σ} (earlier : Dialogue produce watch first log state)
      (buffer : List α) :
      Dialogue produce watch first
        { log with calls := log.calls ++ [⟨buffer, produce state buffer⟩] }
        (produce state buffer).state
  | shown {log : Log σ α} {state : σ} (earlier : Dialogue produce watch first log state)
      (ring : Ring α) (run : List α) :
      Dialogue produce watch first
        { log with showings := log.showings ++ [⟨state, ring, run⟩] }
        (watch state ring run).state

theorem Observer.recorded_keeps (watch : Observer σ α) (produce : Producer σ α) (first : σ) :
    watch.recorded.Keeps fun s => Dialogue produce watch first s.2 s.1 := by
  rintro ⟨state, log⟩ ring run h
  exact h.shown ring run

/-! ### What an observer is shown -/

@[simp] theorem runsOf_nil : runsOf ([] : List (Showing σ α)) = [] := rfl

@[simp] theorem runsOf_cons (x : Showing σ α) (shown : List (Showing σ α)) :
    runsOf (x :: shown) = x.run :: runsOf shown := rfl

@[simp] theorem runsOf_append (earlier later : List (Showing σ α)) :
    runsOf (earlier ++ later) = runsOf earlier ++ runsOf later := List.map_append

/-- The first failure with which an observer rejects a run. -/
def Observer.rejection (watch : Observer σ α) (shown : List (Showing σ α)) : Option Failure :=
  shown.findSome? watch.objection

theorem Observer.rejection_eq_none {watch : Observer σ α} {shown : List (Showing σ α)} :
    watch.rejection shown = none ↔ ∀ x ∈ shown, watch.objection x = none :=
  List.findSome?_eq_none_iff

theorem Observer.rejection_append {watch : Observer σ α} {first shown : List (Showing σ α)}
    (h : watch.rejection first = none) :
    watch.rejection (first ++ shown) = watch.rejection shown := by
  unfold rejection at *
  rw [List.findSome?_append, h, Option.none_or]

/-- What an observer is shown while `runs` are committed to `r`: each run in order, in the ring
that holds it already, and none behind the first that it rejects. -/
structure Presented (watch : Observer σ α) (r : Ring α) (runs : List (List α))
    (shown : List (Showing σ α)) : Prop where
  in_order : runsOf shown <+: runs
  committed : ∀ earlier x, earlier ++ [x] <+: shown →
    x.ring = r.commits (runsOf (earlier ++ [x]))
  passed : ∀ x ∈ shown.dropLast, watch.objection x = none
  complete : watch.rejection shown = none → runsOf shown = runs

namespace Presented

variable {watch : Observer σ α} {r : Ring α} {run : List α} {runs : List (List α)}
  {shown : List (Showing σ α)} {state : σ}

theorem nil (r : Ring α) : Presented watch r [] [] where
  in_order := List.nil_prefix
  committed earlier x h := by simp at h
  passed x h := by cases h
  complete _ := rfl

/-- Behind a run that is rejected nothing is shown. -/
theorem stop {failure : Failure} (hx : watch.objection ⟨state, r.commit run, run⟩ = some failure) :
    Presented watch r (run :: runs) [⟨state, r.commit run, run⟩] where
  in_order := by simp
  committed earlier x h := by
    cases earlier with
    | nil =>
        obtain rfl : x = _ := by simpa using h
        rfl
    | cons first earlier => simp at h
  passed x h := by cases h
  complete h := by simp [Observer.rejection, hx] at h

/-- Behind a run that passes the others are shown. -/
theorem cons (hx : watch.objection ⟨state, r.commit run, run⟩ = none)
    (h : Presented watch (r.commit run) runs shown) :
    Presented watch r (run :: runs) (⟨state, r.commit run, run⟩ :: shown) where
  in_order := by
    rw [runsOf_cons, List.cons_prefix_cons]
    exact ⟨rfl, h.in_order⟩
  committed earlier x hp := by
    cases earlier with
    | nil =>
        obtain rfl : x = _ := (List.cons_prefix_cons.mp hp).1
        rfl
    | cons first earlier =>
        rw [List.cons_append, List.cons_prefix_cons] at hp
        rw [h.committed earlier x hp.2, hp.1]
        rfl
  passed x hm := by
    cases shown with
    | nil => cases hm
    | cons next shown =>
        rcases List.mem_cons.mp hm with rfl | hm
        · exact hx
        · exact h.passed x hm
  complete hr := by
    rw [runsOf_cons, h.complete]
    simpa [Observer.rejection, hx] using hr

/-- A single run is shown. -/
theorem runsOf_eq_of_length_le (h : Presented watch r runs shown) (hl : runs.length ≤ 1) :
    runsOf shown = runs := by
  cases shown with
  | nil => exact h.complete rfl
  | cons x shown =>
      apply h.in_order.eq_of_length_le
      rw [runsOf_cons, List.length_cons]
      omega

end Presented

theorem Observer.objection_eq_none {watch : Observer σ α} {x : Showing σ α} :
    watch.objection x = none ↔ (watch x.state x.ring x.run).answer = .ok () := by
  unfold objection
  split <;> simp [*]

theorem Observer.objection_eq_some {watch : Observer σ α} {x : Showing σ α} {failure : Failure} :
    watch.objection x = some failure ↔
      (watch x.state x.ring x.run).answer = .error failure := by
  unfold objection
  split <;> simp [*]

/-- What a recorded observer notes while runs are committed, and how that ends. -/
theorem present_recorded (watch : Observer σ α) (r : Ring α) (runs : List (List α)) (state : σ)
    (log : Log σ α) :
    ∃ final shown, Presented watch r runs shown ∧
      (r.present watch.recorded (state, log) runs).state =
        (final, { log with showings := log.showings ++ shown }) ∧
      (r.present watch.recorded (state, log) runs).ring = r.commits (runsOf shown) ∧
      (r.present watch.recorded (state, log) runs).answer =
        match watch.rejection shown with
        | some failure => .error failure
        | none => .ok () := by
  induction runs generalizing r state log with
  | nil => exact ⟨state, [], .nil r, by simp [Ring.present], rfl, rfl⟩
  | cons run runs ih =>
      have hv : watch.recorded (state, log) (r.commit run) run =
        ⟨((watch state (r.commit run) run).state,
            { log with showings := log.showings ++ [⟨state, r.commit run, run⟩] }),
          (watch state (r.commit run) run).trace, (watch state (r.commit run) run).answer⟩ := rfl
      simp only [Ring.present, hv]
      cases ha : (watch state (r.commit run) run).answer with
      | error failure =>
          have hx : watch.objection ⟨state, r.commit run, run⟩ = some failure :=
            Observer.objection_eq_some.mpr ha
          refine ⟨_, _, .stop hx, rfl, rfl, ?_⟩
          simp [Observer.rejection, hx]
      | ok =>
          have hx : watch.objection ⟨state, r.commit run, run⟩ = none :=
            Observer.objection_eq_none.mpr ha
          obtain ⟨final, shown, hp, hstate, hring, hanswer⟩ := ih (r.commit run)
            (watch state (r.commit run) run).state
            { log with showings := log.showings ++ [⟨state, r.commit run, run⟩] }
          refine ⟨final, _, .cons hx hp, ?_, hring, ?_⟩
          · rw [Outcome.state_after, hstate]
            simp
          · rw [Outcome.answer_after, hanswer]
            simp [Observer.rejection, hx]

end Carousel
