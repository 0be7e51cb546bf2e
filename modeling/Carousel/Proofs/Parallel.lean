import Carousel.Transfer.Valid

/-! # Transfers side by side

A transfer sees of its foreign code no more than what that leaves in a buffer, reports and
answers. Foreign code runs in parallel if it does the same in related states and goes on to
related states; a transfer that runs it ends with the same ring, the same reports and the same
answer (`Ring.pullFrom_parallel`, `Ring.writeTo_parallel`). -/

namespace Carousel

variable {σ τ α β : Type}

/-- Ends that differ at most in the states of the foreign code, which are related. -/
structure Outcome.Parallel (rel : τ → σ → Prop) (o : Outcome τ α β) (o' : Outcome σ α β) :
    Prop where
  ring_eq : o.ring = o'.ring
  state_rel : rel o.state o'.state
  trace_eq : o.trace = o'.trace
  answer_eq : o.answer = o'.answer

/-- Producers that leave the same in a buffer and answer the same in related states. -/
def Producer.Parallel (rel : τ → σ → Prop) (f : Producer τ α) (g : Producer σ α) : Prop :=
  ∀ ⦃t s⦄, rel t s → ∀ buffer,
    rel (f t buffer).state (g s buffer).state ∧
      (f t buffer).buffer buffer = (g s buffer).buffer buffer ∧
      (f t buffer).answer = (g s buffer).answer

/-- Observers that report and answer the same in related states. -/
def Observer.Parallel (rel : τ → σ → Prop) (f : Observer τ α) (g : Observer σ α) : Prop :=
  ∀ ⦃t s⦄, rel t s → ∀ r run,
    rel (f t r run).state (g s r run).state ∧ (f t r run).trace = (g s r run).trace ∧
      (f t r run).answer = (g s r run).answer

/-- Consumers that report and answer the same in related states. -/
def Consumer.Parallel (rel : τ → σ → Prop) (f : Consumer τ α) (g : Consumer σ α) : Prop :=
  ∀ ⦃t s⦄, rel t s → ∀ run,
    rel (f t run).state (g s run).state ∧ (f t run).events = (g s run).events ∧
      (f t run).answer = (g s run).answer

theorem Outcome.Parallel.after {rel : τ → σ → Prop} {o : Outcome τ α β} {o' : Outcome σ α β}
    (h : o.Parallel rel o') (earlier : Trace) : (o.after earlier).Parallel rel (o'.after earlier) :=
  ⟨h.ring_eq, h.state_rel, congrArg (earlier ++ ·) h.trace_eq, h.answer_eq⟩

theorem Outcome.Parallel.map_after {rel : τ → σ → Prop} {x : Option (Outcome τ α β)}
    {y : Option (Outcome σ α β)} (h : Option.Rel (Outcome.Parallel rel) x y) (earlier : Trace) :
    Option.Rel (Outcome.Parallel rel) (x.map (·.after earlier)) (y.map (·.after earlier)) := by
  cases h with
  | none => exact .none
  | some ho => exact .some (ho.after earlier)

theorem Observer.silent_parallel (rel : τ → σ → Prop) :
    (Observer.silent : Observer τ α).Parallel rel Observer.silent := fun _ _ h _ _ => ⟨h, rfl, rfl⟩

namespace Ring

variable {rel : τ → σ → Prop} {t : τ} {s : σ}

/-! ### Pulling -/

section Pulling

variable {produce : Producer τ α} {produce' : Producer σ α} {watch : Observer τ α}
  {watch' : Observer σ α}

theorem writeLaps_parallel (hw : watch.Parallel rel watch') (h : rel t s) (r : Ring α)
    (items : List α) :
    (r.writeLaps watch t items).Parallel rel (r.writeLaps watch' s items) := by
  revert s
  fun_induction writeLaps watch t r items with
  | case1 =>
      intro s h
      rw [writeLaps]
      exact ⟨rfl, h, rfl, rfl⟩
  | case2 t r item items room run committed evicted verdict failure =>
      rename_i hv
      intro s h
      obtain ⟨hstate, htrace, hanswer⟩ := hw h committed (window committed.slots r.tail run.length)
      have hv' := hanswer.symm.trans hv
      simp only [committed, run, room] at hv'
      rw [writeLaps]
      simp only [hv']
      exact ⟨rfl, hstate, congrArg (evicted ++ ·) htrace, rfl⟩
  | case3 t r item items room run committed evicted verdict =>
      rename_i hv ih
      intro s h
      obtain ⟨hstate, htrace, hanswer⟩ := hw h committed (window committed.slots r.tail run.length)
      have hv' := hanswer.symm.trans hv
      simp only [committed, run, room] at hv'
      rw [writeLaps]
      simp only [hv', verdict, htrace]
      exact (ih hstate).after _

theorem pullInPlace_parallel (hp : produce.Parallel rel produce') (hw : watch.Parallel rel watch')
    (h : rel t s) (r : Ring α) :
    (r.pullInPlace produce watch t).Parallel rel (r.pullInPlace produce' watch' s) := by
  obtain ⟨hstate, hbuffer, hanswer⟩ := hp h (window r.slots r.tail r.vacancy)
  unfold pullInPlace Delivery.accepted
  dsimp only
  rw [hbuffer, hanswer]
  split
  · exact ⟨rfl, hstate, rfl, rfl⟩
  · exact ⟨rfl, hstate, rfl, rfl⟩
  · exact ⟨rfl, hstate, rfl, rfl⟩
  · obtain ⟨hstate', htrace, hanswer'⟩ := hw hstate _ _
    exact ⟨rfl, hstate', congrArg (_ ++ ·) htrace, congrArg (Except.map _) hanswer'⟩

theorem pullStaged_parallel (hp : produce.Parallel rel produce') (hw : watch.Parallel rel watch')
    (h : rel t s) (r : Ring α) (staging : List α) :
    (r.pullStaged produce watch t staging).1.Parallel rel
        (r.pullStaged produce' watch' s staging).1 ∧
      (r.pullStaged produce watch t staging).2 = (r.pullStaged produce' watch' s staging).2 := by
  obtain ⟨hstate, hbuffer, hanswer⟩ := hp h staging
  unfold pullStaged Delivery.accepted
  dsimp only
  rw [hbuffer, hanswer]
  split
  · exact ⟨⟨rfl, hstate, rfl, rfl⟩, rfl⟩
  · exact ⟨⟨rfl, hstate, rfl, rfl⟩, rfl⟩
  · have hlaps := writeLaps_parallel hw hstate r
    exact ⟨⟨(hlaps _).ring_eq, (hlaps _).state_rel, (hlaps _).trace_eq,
      congrArg (Except.map _) (hlaps _).answer_eq⟩, rfl⟩

variable [Inhabited α]

theorem pullOnce_parallel (hp : produce.Parallel rel produce') (hw : watch.Parallel rel watch')
    (h : rel t s) (r : Ring α) (staging : List α) :
    (r.pullOnce produce watch t staging).1.Parallel rel
        (r.pullOnce produce' watch' s staging).1 ∧
      (r.pullOnce produce watch t staging).2 = (r.pullOnce produce' watch' s staging).2 := by
  unfold pullOnce
  split
  · exact pullStaged_parallel hp hw h r _
  · exact ⟨pullInPlace_parallel hp hw h r, rfl⟩

/-- Pulls that run foreign code in parallel end alike, or not at all within the limit. -/
theorem pullFrom_parallel (hp : produce.Parallel rel produce') (hw : watch.Parallel rel watch')
    (h : rel t s) (r : Ring α) (limit : Nat) (p : Progress α) :
    Option.Rel (Outcome.Parallel rel) (r.pullFrom produce watch limit t p)
      (r.pullFrom produce' watch' limit s p) := by
  induction limit generalizing t s r p with
  | zero => exact .none
  | succ limit ih =>
      obtain ⟨hcall, hstaging⟩ := pullOnce_parallel hp hw h r p.staging
      unfold pullFrom
      generalize r.pullOnce produce watch t p.staging = q at hcall hstaging
      generalize r.pullOnce produce' watch' s p.staging = q' at hcall hstaging
      obtain ⟨⟨ring, state, trace, answer⟩, staging⟩ := q
      obtain ⟨⟨ring', state', trace', answer'⟩, staging'⟩ := q'
      obtain ⟨rfl, hstate, rfl, rfl⟩ := hcall
      obtain rfl := hstaging
      have hlater (p : Progress α) := Outcome.Parallel.map_after (ih hstate ring p) trace
      dsimp only
      split
      · exact .some ⟨rfl, hstate, rfl, rfl⟩
      · exact .some ⟨rfl, hstate, rfl, rfl⟩
      · split
        · exact .some ⟨rfl, hstate, rfl, rfl⟩
        · exact hlater _
      · exact hlater _

end Pulling

/-! ### Pushing -/

theorem pushRest_of_nil {r : Ring α} (hs : r.segments.1 = []) (consumer : Consumer σ α)
    (state : σ) (total : Nat) : r.pushRest consumer state total = ⟨r, state, [], .ok total⟩ := by
  rw [pushRest]
  split
  · rfl
  · next hcons =>
      rw [hs] at hcons
      cases hcons

theorem pushRest_of_cons {r : Ring α} {item : α} {items : List α}
    (hs : r.segments.1 = item :: items) (consumer : Consumer σ α) (state : σ) (total : Nat) :
    r.pushRest consumer state total =
      (let run := item :: items
      let receipt := consumer state run
      let reports := Trace.ofForeign receipt.events
      match receipt.answer with
      | .error .endOfData =>
        ⟨r, receipt.state, reports ++ Trace.ofOwn [.pushEnded total], .ok total⟩
      | .error failure => ⟨r, receipt.state, reports, .error failure⟩
      | .ok accepted =>
        if run.length < accepted then
          ⟨r, receipt.state, reports, .error (.countOutOfRange accepted run.length)⟩
        else if accepted < run.length then
          ⟨r.consume accepted, receipt.state,
            reports ++ Trace.ofOwn [.pushShort (total + accepted) run.length accepted],
            .ok (total + accepted)⟩
        else
          ((r.consume accepted).pushRest consumer receipt.state (total + accepted)).after
            reports) := by
  rw [pushRest]
  split
  · next hnil =>
      rw [hs] at hnil
      cases hnil
  · next hcons =>
      rw [hs] at hcons
      cases hcons
      rfl

variable {consumer : Consumer τ α} {consumer' : Consumer σ α}

theorem pushRest_parallel (hc : consumer.Parallel rel consumer') (h : rel t s) (r : Ring α)
    (total : Nat) :
    (r.pushRest consumer t total).Parallel rel (r.pushRest consumer' s total) := by
  revert s
  fun_induction pushRest consumer t r total with
  | case1 t r total hs =>
      intro s h
      rw [pushRest_of_nil hs]
      exact ⟨rfl, h, rfl, rfl⟩
  | case2 t r total item items hs run receipt reports =>
      rename_i ha
      intro s h
      obtain ⟨hstate, hevents, hanswer⟩ := hc h run
      rw [pushRest_of_cons hs]
      simp only [hanswer.symm.trans ha, reports, receipt, hevents, run]
      exact ⟨rfl, hstate, rfl, rfl⟩
  | case3 t r total item items hs run receipt reports failure =>
      rename_i hne ha
      intro s h
      obtain ⟨hstate, hevents, hanswer⟩ := hc h run
      rw [pushRest_of_cons hs]
      simp only [hanswer.symm.trans ha, reports, receipt, hevents, run]
      exact ⟨rfl, hstate, rfl, rfl⟩
  | case4 t r total item items hs run receipt reports accepted =>
      rename_i ha hover
      intro s h
      obtain ⟨hstate, hevents, hanswer⟩ := hc h run
      rw [pushRest_of_cons hs]
      simp only [hanswer.symm.trans ha, reports, receipt, hevents, run]
      rw [if_pos hover]
      exact ⟨rfl, hstate, rfl, rfl⟩
  | case5 t r total item items hs run receipt reports accepted =>
      rename_i ha hle hshort
      intro s h
      obtain ⟨hstate, hevents, hanswer⟩ := hc h run
      rw [pushRest_of_cons hs]
      simp only [hanswer.symm.trans ha, reports, receipt, hevents, run]
      rw [if_neg hle, if_pos hshort]
      exact ⟨rfl, hstate, rfl, rfl⟩
  | case6 t r total item items hs run receipt reports accepted =>
      rename_i ha hle hge ih
      intro s h
      obtain ⟨hstate, hevents, hanswer⟩ := hc h run
      rw [pushRest_of_cons hs]
      simp only [hanswer.symm.trans ha, reports, receipt, hevents, run]
      rw [if_neg hle, if_neg hge]
      exact (ih hstate).after _

/-- Pushes that run foreign code in parallel end alike. -/
theorem writeTo_parallel (hc : consumer.Parallel rel consumer') (h : rel t s) (r : Ring α) :
    (r.writeTo consumer t).Parallel rel (r.writeTo consumer' s) :=
  pushRest_parallel hc h r.forget 0

end Ring

end Carousel
