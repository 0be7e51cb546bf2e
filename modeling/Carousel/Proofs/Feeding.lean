import Carousel.Proofs.Supply

/-! # Feeding

Items may reach a stage written at once, one by one, or pulled from a producer in chunks of any
size (`Feed`). If the filter accepts every run, none of this can be told from the stage
afterwards: its ring is the one that takes in the same items one after the other, and the filter
has seen runs that concatenate to them (`feedAll_eq`). A plain ring that only pulls ends the same.

* `Producer.HandsOut`: what is asked of a producer.
* `pull_handed`: a pull from it, by induction on the number of calls. -/

namespace Carousel

variable {σ τ α : Type}

/-! ### Producers that hand out a list -/

/-- A producer that hands out the items that its state holds in chunks of any size, when it has
answered nothing `idle` times in a row. It leaves the buffer behind a chunk alone, answers nothing
less than `maxEmptyReads` times in a row, and signals the end of its data behind the last item. -/
structure Producer.HandsOut (produce : Producer τ α) (holds : Nat → τ → List α → Prop) :
    Prop where
  call : ∀ {idle source items buffer}, holds idle source items → buffer ≠ [] →
    ((produce source buffer).answer = .error .endOfData ∧
      (produce source buffer).buffer buffer = buffer ∧ items = []) ∨
    ∃ n, (produce source buffer).answer = .ok n ∧ n ≤ buffer.length ∧ n ≤ items.length ∧
      (produce source buffer).buffer buffer = items.take n ++ buffer.drop n ∧
      (if n = 0 then idle + 1 else 0) < maxEmptyReads ∧
      holds (if n = 0 then idle + 1 else 0) (produce source buffer).state (items.drop n)

/-- The producer hands out the items when it is called in the state `source`. -/
def Producer.Gives (produce : Producer τ α) (source : τ) (items : List α) : Prop :=
  ∃ holds, produce.HandsOut holds ∧ holds 0 source items

/-- A supply hands out its items without ever answering nothing. -/
theorem Producer.Supplies.gives {produce : Producer τ α} {holds : τ → List α → Prop}
    (h : produce.Supplies holds) {source : τ} {items : List α} (hh : holds source items) :
    produce.Gives source items := by
  refine ⟨fun _ => holds, ⟨?_⟩, hh⟩
  intro idle source items buffer hh hb
  have ha := h.answer_eq hh hb
  have hbuf := h.buffer_eq hh hb
  have hkept := h.kept hh hb
  have hpos : 0 < buffer.length := List.length_pos_iff.mpr hb
  by_cases hi : items = []
  · rw [if_pos hi] at ha
    subst hi
    rw [List.take_nil, List.length_nil, List.drop_zero, List.nil_append] at hbuf
    exact .inl ⟨ha, hbuf, rfl⟩
  · rw [if_neg hi] at ha
    have hlen : 0 < items.length := List.length_pos_iff.mpr hi
    refine .inr ⟨_, ha, Nat.min_le_left _ _, Nat.min_le_right _ _, ?_, ?_, ?_⟩
    · rw [hbuf, ← List.take_eq_take_min, Nat.min_comm, ← List.drop_eq_drop_min]
    · rw [if_neg (by omega)]
      decide
    · rwa [← List.drop_eq_drop_min]

section Calls

variable {produce : Producer τ α} {holds : Nat → τ → List α → Prop} {idle : Nat} {source : τ}
  {items buffer : List α} {c : Call τ α}

/-- A call of a producer that hands out a list is tidy, and takes some items or is the last. -/
theorem Producer.HandsOut.call_tidy (hp : produce.HandsOut holds) (hh : holds idle source items)
    (hb : buffer ≠ []) (hc : c = ⟨buffer, produce source buffer⟩) :
    c.Tidy ∧ ((c.accepted = .ok none ∧ c.chunk = [] ∧ items = []) ∨
      ∃ n, c.accepted = .ok (some n) ∧ c.chunk = items.take n ∧ n ≤ items.length ∧
        (if n = 0 then idle + 1 else 0) < maxEmptyReads ∧
        holds (if n = 0 then idle + 1 else 0) c.delivery.state (items.drop n)) := by
  subst hc
  rcases hp.call hh hb with ⟨ha, hbuf, hi⟩ | ⟨n, ha, hfit, hn, hbuf, hidle, hkept⟩
  · obtain ⟨htidy, hchunk, hacc⟩ :=
      Call.tidy_of_end (c := ⟨buffer, produce source buffer⟩) ha hbuf
    exact ⟨htidy, .inl ⟨hacc, hchunk, hi⟩⟩
  · have hlen : (items.take n).length = n := by rw [List.length_take, Nat.min_eq_left hn]
    obtain ⟨htidy, hchunk, hacc⟩ :=
      Call.tidy_of_count (c := ⟨buffer, produce source buffer⟩) ha hfit hbuf hlen
    exact ⟨htidy, .inr ⟨n, hacc, hchunk, hn, hidle, hkept⟩⟩

end Calls

/-! ### Observers that accept every run -/

/-- An observer beside other foreign code: each has a state of its own. -/
def Observer.beside (watch : Observer σ α) : Observer (σ × τ) α := fun whole r run =>
  let verdict := watch whole.1 r run
  ⟨(verdict.state, whole.2), verdict.trace, verdict.answer⟩

theorem Filter.observer_beside (filter : Filter σ α) :
    (filter.beside (τ := τ)).observer = filter.observer.beside := by
  funext whole r run
  unfold Filter.observer Observer.beside Filter.beside Filter.focus
  dsimp only
  cases (filter whole.1 run).answer <;> rfl

/-- An observer that lets every run pass. -/
def Observer.Accepts (watch : Observer σ α) : Prop :=
  ∀ state r run, (watch state r run).answer = .ok ()

/-- A filter that accepts every run. -/
def Filter.Accepts (filter : Filter σ α) : Prop := ∀ state run, (filter state run).answer = .ok ()

theorem Filter.Accepts.observer {filter : Filter σ α} (h : filter.Accepts) :
    filter.observer.Accepts := by
  intro state r run
  unfold Filter.observer
  simp only [h state run]

/-- The state of a filter once it has been shown the runs one after the other. -/
def Filter.after (filter : Filter σ α) (state : σ) (runs : List (List α)) : σ :=
  runs.foldl (fun state run => (filter state run).state) state

theorem Filter.after_append (filter : Filter σ α) (state : σ) (earlier later : List (List α)) :
    filter.after state (earlier ++ later) = filter.after (filter.after state earlier) later :=
  List.foldl_append

theorem Filter.accepting_accepts : (Filter.accepting : Filter σ α).Accepts := fun _ _ => rfl

theorem Filter.accepting_after (state : σ) (runs : List (List α)) :
    Filter.accepting.after state runs = state := by
  induction runs with
  | nil => rfl
  | cons run runs ih => exact ih

namespace Ring

theorem present_beside (watch : Observer σ α) (r : Ring α) (state : σ) (other : τ)
    (runs : List (List α)) :
    r.present watch.beside (state, other) runs =
      (let o := r.present watch state runs
      ⟨o.ring, (o.state, other), o.trace, o.answer⟩) := by
  induction runs generalizing r state with
  | nil => rfl
  | cons run runs ih =>
      have hv : (watch.beside : Observer (σ × τ) α) (state, other) (r.commit run) run =
        ⟨((watch state (r.commit run) run).state, other), (watch state (r.commit run) run).trace,
          (watch state (r.commit run) run).answer⟩ := rfl
      simp only [present, hv, ih]
      cases (watch state (r.commit run) run).answer <;> rfl

variable {watch : Observer σ α}

theorem present_cons (h : watch.Accepts) (r : Ring α) (state : σ) (run : List α)
    (runs : List (List α)) :
    r.present watch state (run :: runs) =
      ((r.commit run).present watch (watch state (r.commit run) run).state runs).after
        (Trace.ofOwn (r.overflow run.length) ++ (watch state (r.commit run) run).trace) := by
  simp only [present, h state (r.commit run) run]

/-- Runs that are all accepted are all committed. -/
theorem present_accepted (h : watch.Accepts) (r : Ring α) (state : σ) (runs : List (List α)) :
    (r.present watch state runs).ring = r.commits runs ∧
      (r.present watch state runs).answer = .ok () := by
  induction runs generalizing r state with
  | nil => exact ⟨rfl, rfl⟩
  | cons run runs ih =>
      rw [present_cons h]
      exact ih (r.commit run) _

theorem state_present_append (h : watch.Accepts) (r : Ring α) (state : σ)
    (earlier later : List (List α)) :
    (r.present watch state (earlier ++ later)).state =
      ((r.commits earlier).present watch (r.present watch state earlier).state later).state := by
  induction earlier generalizing r state with
  | nil => rfl
  | cons run earlier ih =>
      rw [List.cons_append, present_cons h, present_cons h]
      exact ih (r.commit run) _

theorem state_present_filter {filter : Filter σ α} (h : filter.Accepts) (r : Ring α) (state : σ)
    (runs : List (List α)) :
    (r.present filter.observer state runs).state = filter.after state runs := by
  induction runs generalizing r state with
  | nil => rfl
  | cons run runs ih =>
      rw [present_cons h.observer, Filter.state_observer]
      exact ih (r.commit run) _

end Ring

/-! ### Pulls -/

section Pulls

variable [Inhabited α] {produce : Producer τ α} {holds : Nat → τ → List α → Prop} {source : τ}
  {items : List α} {r : Ring α} {p : Ring.Progress α}

/-- A tidy call under an observer that lets everything pass writes its chunk. -/
theorem pullOnce_accepted (h : r.Valid) {staging : List α} (hs : r.Staging staging)
    {c : Call τ α} (hc : r.call produce source staging = c) (ht : c.Tidy) {watch : Observer σ α}
    (hw : watch.Accepts) (state : σ) :
    r.pullOnce produce.beside watch.beside (state, source) staging =
      (⟨r.writeItems c.chunk,
          ((r.present watch state (r.lapsOf c.chunk)).state, c.delivery.state),
          (r.present watch state (r.lapsOf c.chunk)).trace, c.accepted⟩,
        if r.isFull then c.buffer else staging) := by
  have hbeside : r.call produce.beside (state, source) staging =
      c.map fun next => (state, next) := by
    rw [← hc]
    rfl
  obtain ⟨hring, hanswer⟩ := Ring.present_accepted hw r state (r.lapsOf c.chunk)
  rw [Ring.pullOnce_of_tidy h hs hbeside (ht.map _), Call.chunk_map, Call.accepted_map,
    Call.buffer_map, Call.state_map, Ring.present_beside]
  dsimp only
  rw [hring, hanswer, Ring.commits_all_laps h]
  cases c.accepted <;> rfl

/-- A pull takes in all that is handed out, in runs that do not depend on who watches: the calls
that are left suffice if there are `maxEmptyReads` for each item and for the end. -/
theorem pull_handed (hp : produce.HandsOut holds) (h : r.Valid) (hs : r.Staging p.staging)
    (hh : holds p.idle source items) (hi : p.idle < maxEmptyReads) {limit : Nat}
    (hl : (items.length + 1) * maxEmptyReads ≤ limit + p.idle) :
    ∃ runs : List (List α), runs.flatten = items ∧ (∀ run ∈ runs, run ≠ []) ∧
      ∀ {σ : Type} (watch : Observer σ α), watch.Accepts → ∀ state,
        ∃ o, r.pullFrom produce.beside watch.beside limit (state, source) p = some o ∧
          o.ring = r.writeItems items ∧ o.state.1 = (r.present watch state runs).state ∧
          o.answer = .ok (p.total + items.length) := by
  -- an empty call leaves the bound as it is: one call fewer, one more that has answered nothing
  induction limit generalizing r source items p with
  | zero =>
      rw [Nat.add_mul] at hl
      omega
  | succ limit ih =>
      have hne := Ring.offer_ne_nil h hs
      generalize hc : r.call produce source p.staging = c
      obtain ⟨htidy, hend | hnext⟩ := hp.call_tidy hh hne hc.symm
      · obtain ⟨hacc, hchunk, rfl⟩ := hend
        refine ⟨[], rfl, by simp, ?_⟩
        intro σ watch hw state
        have hcall := pullOnce_accepted h hs hc htidy hw state
        rw [hacc, hchunk, Ring.lapsOf_nil] at hcall
        exact ⟨_, Ring.pullFrom_of_end hcall limit rfl, rfl, rfl, rfl⟩
      · obtain ⟨n, hacc, hchunk, hn, hidle, hkept⟩ := hnext
        have hlimit : ((items.drop n).length + 1) * maxEmptyReads ≤
            limit + if n = 0 then p.idle + 1 else 0 := by
          rw [List.length_drop]
          unfold maxEmptyReads at *
          split <;> omega
        have hstaging := Ring.staging_call h hs (show c.offered = r.offer p.staging by
          rw [← hc]; rfl)
        obtain ⟨runs, hruns, hnonempty, hpull⟩ := ih
          (p := ⟨p.total + n, if n = 0 then p.idle + 1 else 0,
            if r.isFull then c.buffer else p.staging⟩)
          (h.writeItems (items.take n)) (hstaging _) hkept hidle hlimit
        refine ⟨r.lapsOf (items.take n) ++ runs, ?_, ?_, ?_⟩
        · rw [List.flatten_append, hruns, Ring.flatten_lapsOf, List.take_append_drop]
        · intro run hrun
          rcases List.mem_append.mp hrun with hrun | hrun
          · exact ne_nil_of_mem_laps hrun
          · exact hnonempty run hrun
        · intro σ watch hw state
          have hcall := pullOnce_accepted h hs hc htidy hw state
          rw [hacc, hchunk] at hcall
          have hnext := Ring.pullFrom_of_next hcall limit rfl hidle
          obtain ⟨o, ho, hring, hstate, hanswer⟩ := hpull watch hw
            (r.present watch state (r.lapsOf (items.take n))).state
          dsimp only at hnext
          rw [ho] at hnext
          refine ⟨_, hnext, ?_, ?_, ?_⟩
          · rw [Outcome.ring_after, hring, ← Ring.writeItems_append, List.take_append_drop]
          · rw [Outcome.state_after, hstate, Ring.state_present_append hw,
              Ring.commits_all_laps h]
          · rw [Outcome.answer_after, hanswer, List.length_drop]
            dsimp only
            congr 1
            omega

end Pulls

/-! ### Feeds -/

/-- Items pulled from a producer in at most `limit` calls. -/
structure Draw (α : Type) where
  {State : Type}
  produce : Producer State α
  source : State
  limit : Nat
  items : List α

/-- Items on their way to a stage. -/
inductive Feed (α : Type) where
  | write (items : List α)
  | oneByOne (items : List α)
  | pull (draw : Draw α)

/-- The producer hands out the items, and is called as often as this may take. -/
structure Draw.Fair (draw : Draw α) : Prop where
  gives : draw.produce.Gives draw.source draw.items
  limit_le : (draw.items.length + 1) * maxEmptyReads ≤ draw.limit

namespace Feed

def items : Feed α → List α
  | write items => items
  | oneByOne items => items
  | pull draw => draw.items

/-- Whatever is pulled is handed out. -/
def Fair : Feed α → Prop
  | pull draw => draw.Fair
  | _ => True

end Feed

/-- What a transfer that does not fail leaves. -/
def Outcome.done {β : Type} (o : Outcome σ α β) : Option (Ring α × σ) :=
  match o.answer with
  | .ok _ => some (o.ring, o.state)
  | .error _ => none

namespace Stage

/-- Writes one item after the other, as long as none is rejected. -/
def writeOneByOne (filter : Filter σ α) : Ring α → σ → List α → Option (Ring α × σ)
  | r, state, [] => some (r, state)
  | r, state, item :: items =>
    ((Stage.mk r filter).writeItem state item).done.bind fun (r, state) =>
      writeOneByOne filter r state items

variable [Inhabited α]

/-- The ring of a stage and the state of its filter once it has taken in some items, unless it
fails. -/
def feed (s : Stage σ α) (state : σ) : Feed α → Option (Ring α × σ)
  | .write items => (s.write state items).done
  | .oneByOne items => writeOneByOne s.filter s.ring state items
  | .pull draw =>
    ((Stage.mk s.ring s.filter.beside).readFrom draw.produce.beside draw.limit
      (state, draw.source)).bind fun o => o.done.map fun (r, state) => (r, state.1)

/-- Takes in one feed after the other. -/
def feedAll (filter : Filter σ α) : Ring α → σ → List (Feed α) → Option (Ring α × σ)
  | r, state, [] => some (r, state)
  | r, state, feed :: feeds =>
    ((Stage.mk r filter).feed state feed).bind fun (r, state) => feedAll filter r state feeds

end Stage

section Accepted

variable {r : Ring α} {filter : Filter σ α}

theorem writeLaps_accepted (h : r.Valid) (hf : filter.Accepts) (state : σ) (items : List α) :
    (r.writeLaps filter.observer state items).ring = r.writeItems items ∧
      (r.writeLaps filter.observer state items).state = filter.after state (r.lapsOf items) ∧
      (r.writeLaps filter.observer state items).answer = .ok () := by
  obtain ⟨hring, hanswer⟩ := Ring.present_accepted hf.observer r state (r.lapsOf items)
  rw [Ring.writeLaps_eq_present h]
  refine ⟨?_, Ring.state_present_filter hf _ _ _, hanswer⟩
  rw [hring, Ring.commits_all_laps h]

theorem write_accepted (h : r.Valid) (hf : filter.Accepts) (state : σ) (items : List α) :
    ((Stage.mk r filter).write state items).done =
      some (r.writeItems items, filter.after state (r.lapsOf items)) := by
  obtain ⟨hring, hstate, hanswer⟩ := writeLaps_accepted h hf state items
  unfold Stage.write Outcome.done
  dsimp only
  rw [hring, hstate, hanswer]
  rfl

theorem writeItem_accepted (h : r.Valid) (hf : filter.Accepts) (state : σ) (item : α) :
    ((Stage.mk r filter).writeItem state item).done =
      some (r.writeItem item, filter.after state [[item]]) := by
  have ht := h.tail_lt
  have hlaps : r.lapsOf [item] = [[item]] := Ring.lapsOf_of_le (by simp) (by simp; omega)
  obtain ⟨hring, hstate, hanswer⟩ := writeLaps_accepted h hf state [item]
  unfold Stage.writeItem Outcome.done
  dsimp only
  rw [hring, hstate, hanswer, hlaps]
  rfl

theorem writeOneByOne_accepted (h : r.Valid) (hf : filter.Accepts) (state : σ) (items : List α) :
    Stage.writeOneByOne filter r state items =
      some (r.writeItems items, filter.after state (items.map fun item => [item])) := by
  induction items generalizing r state with
  | nil => rfl
  | cons item items ih =>
      rw [Stage.writeOneByOne, writeItem_accepted h hf, Option.bind_some]
      exact ih (h.writeItem item) _

end Accepted

variable [Inhabited α]

theorem draw_accepted {r : Ring α} (h : r.Valid) {draw : Draw α} (hd : draw.Fair) :
    ∃ runs : List (List α), runs.flatten = draw.items ∧ (∀ run ∈ runs, run ≠ []) ∧
      ∀ {σ : Type} (watch : Observer σ α), watch.Accepts → ∀ state,
        ∃ o, r.pull draw.produce.beside watch.beside draw.limit (state, draw.source) = some o ∧
          o.ring = r.writeItems draw.items ∧ o.state.1 = (r.present watch state runs).state ∧
          o.answer = .ok draw.items.length := by
  obtain ⟨holds, hp, hh⟩ := hd.gives
  obtain ⟨runs, hruns, hnonempty, hpull⟩ := pull_handed (p := ⟨0, 0, []⟩) hp h (.inl rfl) hh
    (show 0 < maxEmptyReads by decide) hd.limit_le
  refine ⟨runs, hruns, hnonempty, ?_⟩
  intro σ watch hw state
  obtain ⟨o, ho, hring, hstate, hanswer⟩ := hpull watch hw state
  rw [Nat.zero_add] at hanswer
  exact ⟨o, ho, hring, hstate, hanswer⟩

/-- One feed: the runs do not depend on the filter. -/
theorem feed_accepted {r : Ring α} (h : r.Valid) {feed : Feed α} (hf : feed.Fair) :
    ∃ runs : List (List α), runs.flatten = feed.items ∧ (∀ run ∈ runs, run ≠ []) ∧
      ∀ {σ : Type} (filter : Filter σ α), filter.Accepts → ∀ state,
        (Stage.mk r filter).feed state feed =
          some (r.writeItems feed.items, filter.after state runs) := by
  cases feed with
  | write items =>
      refine ⟨r.lapsOf items, r.flatten_lapsOf items, fun _ => ne_nil_of_mem_laps, ?_⟩
      intro σ filter ha state
      exact write_accepted h ha state items
  | oneByOne items =>
      refine ⟨items.map fun item => [item], ?_, by simp, ?_⟩
      · rw [← List.flatMap_def, List.flatMap_singleton']
        rfl
      · intro σ filter ha state
        exact writeOneByOne_accepted h ha state items
  | pull draw =>
      obtain ⟨runs, hruns, hnonempty, hpull⟩ := draw_accepted h hf
      refine ⟨runs, hruns, hnonempty, ?_⟩
      intro σ filter ha state
      obtain ⟨o, ho, hring, hstate, hanswer⟩ := hpull filter.observer ha.observer state
      have hread : (Stage.mk r filter.beside).readFrom draw.produce.beside draw.limit
          (state, draw.source) = some o := by
        unfold Stage.readFrom
        rw [Filter.observer_beside]
        exact ho
      have hdone : o.done = some (o.ring, o.state) := by
        unfold Outcome.done
        rw [hanswer]
      unfold Stage.feed
      dsimp only
      rw [hread, Option.bind_some, hdone, Option.map_some, hring, hstate,
        Ring.state_present_filter ha]
      rfl

namespace Ring

/-- A plain ring once it has pulled some items, unless that fails. -/
def draw (r : Ring α) (d : Draw α) : Option (Ring α) :=
  (r.readFrom d.produce d.limit d.source).bind fun o => o.done.map Prod.fst

/-- Pulls from one producer after the other. -/
def drawAll : Ring α → List (Draw α) → Option (Ring α)
  | r, [] => some r
  | r, d :: draws => (r.draw d).bind (drawAll · draws)

theorem draw_eq {r : Ring α} (h : r.Valid) {d : Draw α} (hd : d.Fair) :
    r.draw d = some (r.writeItems d.items) := by
  obtain ⟨_, -, -, hpull⟩ := draw_accepted h hd
  obtain ⟨o, ho, hring, -, hanswer⟩ := hpull (Observer.silent : Observer Unit α)
    (fun _ _ _ => rfl) ()
  have hp : d.produce.beside.Erases (Prod.snd : Unit × d.State → d.State) d.produce :=
    fun _ _ => rfl
  have hw : (Observer.silent.beside : Observer (Unit × d.State) α).Erases Prod.snd
    Observer.silent := fun _ _ _ => rfl
  have hread : (r.pull d.produce.beside Observer.silent.beside d.limit ((), d.source)).map
    (Outcome.mapState Prod.snd) = r.readFrom d.produce d.limit d.source :=
      pullFrom_erase hp hw d.limit ((), d.source) r ⟨0, 0, []⟩
  have hdone : (o.mapState Prod.snd).done = some (o.ring, o.state.2) := by
    unfold Outcome.done Outcome.mapState
    rw [hanswer]
  unfold draw
  rw [← hread, ho, Option.map_some, Option.bind_some, hdone, Option.map_some, hring]

theorem drawAll_eq {r : Ring α} (h : r.Valid) {draws : List (Draw α)}
    (hd : ∀ d ∈ draws, d.Fair) :
    r.drawAll draws = some (r.writeItems (draws.flatMap Draw.items)) := by
  induction draws generalizing r with
  | nil => rfl
  | cons d draws ih =>
      rw [drawAll, draw_eq h (hd d List.mem_cons_self), Option.bind_some,
        ih (h.writeItems _) fun x hx => hd x (List.mem_cons_of_mem _ hx), List.flatMap_cons,
        writeItems_append]

end Ring

/-- One feed after the other is taken in, in runs that do not depend on the filter. -/
theorem feedAll_accepted {r : Ring α} (h : r.Valid) {feeds : List (Feed α)}
    (hf : ∀ feed ∈ feeds, feed.Fair) :
    ∃ runs : List (List α), runs.flatten = feeds.flatMap Feed.items ∧ (∀ run ∈ runs, run ≠ []) ∧
      ∀ {σ : Type} (filter : Filter σ α), filter.Accepts → ∀ state,
        Stage.feedAll filter r state feeds =
          some (r.writeItems (feeds.flatMap Feed.items), filter.after state runs) := by
  induction feeds generalizing r with
  | nil => exact ⟨[], rfl, by simp, fun _ _ _ => rfl⟩
  | cons feed feeds ih =>
      obtain ⟨first, hfirst, hne, hfeed⟩ := feed_accepted h (hf feed List.mem_cons_self)
      obtain ⟨rest, hrest, hne', hfeeds⟩ := ih (h.writeItems feed.items) fun x hx =>
        hf x (List.mem_cons_of_mem _ hx)
      refine ⟨first ++ rest, ?_, ?_, ?_⟩
      · rw [List.flatten_append, hfirst, hrest, List.flatMap_cons]
      · intro run hrun
        rcases List.mem_append.mp hrun with hrun | hrun
        · exact hne run hrun
        · exact hne' run hrun
      · intro σ filter ha state
        rw [Stage.feedAll, hfeed filter ha, Option.bind_some]
        dsimp only
        rw [hfeeds filter ha, List.flatMap_cons, Ring.writeItems_append, Filter.after_append]

/-- **However items reach a stage, it ends the same.** Let a list of items be cut into pieces in
any way, and let each piece be written at once, or one item after the other, or be pulled from a
producer that hands it out in chunks of any size. A stage whose filter accepts every run is then
left with the ring that takes in the items one after the other: the slots, the read cursor, the
number of unread items and the unread marker are the same. The filter has been shown runs that
concatenate to the items, and which runs does not depend on the filter. A plain ring that pulls
all the pieces is left with the same ring. Lists, queues and rings hand out their items in this
way. -/
theorem Stage.feedAll_eq {r : Ring α} (h : r.Valid) :
    (∀ feeds : List (Feed α), (∀ feed ∈ feeds, feed.Fair) →
      ∃ runs : List (List α), runs.flatten = feeds.flatMap Feed.items ∧ (∀ run ∈ runs, run ≠ []) ∧
        ∀ {σ : Type} (filter : Filter σ α), filter.Accepts → ∀ state,
          feedAll filter r state feeds =
            some (r.writeItems (feeds.flatMap Feed.items), filter.after state runs)) ∧
    (∀ draws : List (Draw α), (∀ draw ∈ draws, draw.Fair) →
      r.drawAll draws = some (r.writeItems (draws.flatMap Draw.items))) ∧
    ∀ (supply : Supply α) (limit : Nat), supply.Sound →
      (supply.items.length + 1) * maxEmptyReads ≤ limit →
        (Draw.mk Supply.deliver supply limit supply.items).Fair := by
  refine ⟨?_, ?_, ?_⟩
  · intro feeds hf
    exact feedAll_accepted h hf
  · intro draws hd
    exact Ring.drawAll_eq h hd
  · intro supply limit hs hl
    exact ⟨Supply.deliver_supplies.gives ⟨hs, rfl⟩, hl⟩

/-! ### A producer that hesitates -/

/-- Hands out one item at a time, and answers nothing before each. -/
def hesitating : Producer (Bool × List Nat) Nat := fun (ready, items) _ =>
  match ready, items with
  | false, items => ⟨(true, items), [], .ok 0⟩
  | true, [] => ⟨(true, []), [], .error .endOfData⟩
  | true, item :: items => ⟨(false, items), [item], .ok 1⟩

theorem hesitating_gives (items : List Nat) : hesitating.Gives (false, items) items := by
  refine ⟨fun idle source items => source.2 = items ∧ idle ≤ source.1.toNat, ⟨?_⟩, rfl, le_rfl⟩
  rintro idle ⟨ready, items⟩ _ buffer ⟨rfl, hidle⟩ hb
  have hpos : 0 < buffer.length := List.length_pos_iff.mpr hb
  match ready, items with
  | false, items =>
      refine .inr ⟨0, rfl, Nat.zero_le _, Nat.zero_le _, ?_, ?_, rfl, ?_⟩
      · exact cover_nil buffer
      · exact Nat.lt_of_le_of_lt (Nat.succ_le_succ hidle) (show 1 < maxEmptyReads by decide)
      · exact Nat.succ_le_succ hidle
  | true, [] => exact .inl ⟨rfl, cover_nil buffer, rfl⟩
  | true, item :: items =>
      refine .inr ⟨1, rfl, hpos, Nat.succ_le_succ (Nat.zero_le _), ?_, ?_, rfl, ?_⟩
      · exact Ring.cover_eq_append hpos
      · exact show 0 < maxEmptyReads by decide
      · exact Nat.zero_le _

/-- Notes the items it is shown. -/
def noting : Filter (List Nat) Nat := fun seen run => ⟨seen ++ run, [], .ok ()⟩

/-- Seven items, written, written one by one and pulled in pieces, in a ring of three slots. -/
theorem Stage.feedAll_eq_hesitating :
    (⟨[7, 8, 9], 2, 2, true⟩ : Ring Nat).Valid ∧
      (Draw.mk hesitating (false, [3, 4, 5, 6]) 500 [3, 4, 5, 6]).Fair ∧
      ∃ runs : List (List Nat), runs.flatten = [0, 1, 2, 3, 4, 5, 6] ∧
        feedAll noting ⟨[7, 8, 9], 2, 2, true⟩ []
            [.write [0, 1], .oneByOne [2],
              .pull ⟨hesitating, (false, [3, 4, 5, 6]), 500, [3, 4, 5, 6]⟩] =
          some (⟨[5, 6, 4], 2, 3, false⟩, noting.after [] runs) := by
  have hv : (⟨[7, 8, 9], 2, 2, true⟩ : Ring Nat).Valid :=
    ⟨by decide, by decide, by decide, by decide⟩
  have hfair : (Draw.mk hesitating (false, [3, 4, 5, 6]) 500 [3, 4, 5, 6]).Fair :=
    ⟨hesitating_gives _, by decide⟩
  refine ⟨hv, hfair, ?_⟩
  obtain ⟨runs, hruns, -, hfeeds⟩ := (feedAll_eq hv).1
    [.write [0, 1], .oneByOne [2],
      .pull ⟨hesitating, (false, [3, 4, 5, 6]), 500, [3, 4, 5, 6]⟩]
    (by simpa [Feed.Fair] using hfair)
  exact ⟨runs, hruns, hfeeds noting (fun _ _ => rfl) []⟩

end Carousel
