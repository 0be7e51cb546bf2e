import Carousel.Proofs.Transcript

/-! # What a pull keeps

`Logged` is what holds of a ring and of the log of a pull at any time, `Pulling` what holds
besides between two calls. One more call keeps `Logged` (`Pulling.logged`), and it ends the pull
(`Pulling.pulled`) or leaves it ready for the next call (`Pulling.next`): this is `Pulling.step`,
and `pullFrom_recorded` follows by induction on the number of calls. -/

namespace Carousel

variable {σ α : Type}

/-! ### Prefixes -/

/-- A beginning of two lists in a row ends in the first or in the second. -/
theorem concat_prefix_append {β : Type} {xs ys zs : List β} {y : β}
    (h : xs ++ [y] <+: ys ++ zs) :
    xs ++ [y] <+: ys ∨ ∃ zs', xs = ys ++ zs' ∧ zs' ++ [y] <+: zs := by
  obtain ⟨rest, h⟩ := h
  rw [List.append_eq_append_iff] at h
  rcases h with ⟨as, hys, -⟩ | ⟨cs, hxs, hzs⟩
  · exact .inl ⟨as, hys.symm⟩
  · rcases List.eq_nil_or_concat' cs with rfl | ⟨zs', z, rfl⟩
    · rw [List.append_nil] at hxs
      exact .inl (hxs ▸ List.prefix_rfl)
    · rw [← List.append_assoc] at hxs
      obtain ⟨hxs, hz⟩ := List.append_inj' hxs rfl
      refine .inr ⟨zs', hxs, rest, ?_⟩
      rw [hz, hzs]

/-- A beginning of a list with one more item is the whole or a beginning of the list. -/
theorem prefix_concat {β : Type} {xs ys : List β} {y : β} (h : xs <+: ys ++ [y])
    (hne : xs ≠ ys ++ [y]) : xs <+: ys := by
  rcases List.prefix_concat_iff.mp h with h | h
  · exact absurd h hne
  · exact h

namespace Ring

/-! ### A ring under a call -/

theorem touch_touch {r : Ring α} (h : r.Valid) {first second : List α}
    (hf : first.length = if r.isFull then r.capacity else r.vacancy)
    (hs : second.length = if r.isFull then r.capacity else r.vacancy) :
    (r.touch first).touch second = r.touch second := by
  have hfull : (r.touch first).isFull = r.isFull := by
    unfold isFull
    rw [count_touch, capacity_touch h hf]
  cases hr : r.isFull with
  | true => rw [touch_of_full hr]
  | false =>
      rw [touch_of_not_full (hfull.trans hr), tail_touch h hf, touch_of_not_full hr]
      rw [hr] at hf hs
      rw [overlay_overlay (by rw [hf]; exact tail_add_vacancy_le h) (hs.trans hf.symm),
        touch_of_not_full hr]

/-- The ring `r₀` once the last of some calls has left its buffer in the slots it was offered. -/
structure Touched (r₀ r : Ring α) (last : Option (Call σ α)) : Prop where
  eq : r = last.elim r₀ fun c => r₀.touch c.buffer
  fits : ∀ c ∈ last, c.buffer.length = if r₀.isFull then r₀.capacity else r₀.vacancy

/-- Of several calls in the same slots only the last one shows. -/
theorem Touched.touch {r₀ r : Ring α} {last : Option (Call σ α)} (h : r₀.Touched r last)
    (hv : r₀.Valid) {c : Call σ α}
    (hc : c.buffer.length = if r.isFull then r.capacity else r.vacancy) :
    r₀.Touched (r.touch c.buffer) (some c) := by
  cases last with
  | none =>
      obtain rfl : r = r₀ := h.eq
      exact ⟨rfl, fun d hd => by obtain rfl := Option.mem_some.mp hd; exact hc⟩
  | some d =>
      have hd := h.fits d rfl
      obtain rfl : r = r₀.touch d.buffer := h.eq
      have hcap := capacity_touch hv hd
      have hfull : (r₀.touch d.buffer).isFull = r₀.isFull := by
        unfold isFull
        rw [count_touch, hcap]
      have hvac : (r₀.touch d.buffer).vacancy = r₀.vacancy := by
        unfold vacancy
        rw [tail_touch hv hd, head_touch, hcap]
      rw [hfull, hcap, hvac] at hc
      refine ⟨touch_touch hv hd hc, fun e he => ?_⟩
      obtain rfl := Option.mem_some.mp he
      exact hc

theorem canUnread_commits {r : Ring α} {runs : List (List α)} (h : runs ≠ []) :
    (r.commits runs).canUnread = false := by
  rcases List.eq_nil_or_concat' runs with rfl | ⟨earlier, run, rfl⟩
  · exact absurd rfl h
  · rw [commits, List.foldl_concat]
    rfl

end Ring

/-! ### Invariants -/

/-- What holds of a ring `r` and of the log of a pull that began with the ring `r₀` and in the
state `s₀`, in the middle of the pull and at its end. -/
structure Logged [Inhabited α] (produce : Producer σ α) (watch : Observer σ α) (r₀ : Ring α)
    (s₀ state : σ) (log : Log σ α) (r : Ring α) : Prop where
  began : r₀.Valid
  valid : r.Valid
  capacity_eq : r.capacity = r₀.capacity
  /-- Only what is accepted is shown, in order. -/
  in_order : runsOf log.showings <+: cuts r₀.capacity r₀.tail (chunksOf log.calls)
  /-- Before a call everything has been shown that was accepted of those before. -/
  caught_up : cuts r₀.capacity r₀.tail (chunksOf log.calls.dropLast) <+: runsOf log.showings
  unread_eq : r.unread = (r₀.unread ++ (runsOf log.showings).flatten).rtake r₀.capacity
  /-- Each run is unread when it is shown, behind all that was shown before. -/
  reflected : ∀ earlier x, earlier ++ [x] <+: log.showings →
    x.ring.unread = (r₀.unread ++ (runsOf (earlier ++ [x])).flatten).rtake r₀.capacity ∧
      x.run <:+ x.ring.unread
  passed : ∀ x ∈ log.showings.dropLast, watch.objection x = none
  offered : ∀ c ∈ log.calls, c.offered ≠ []
  undecided : ∀ earlier, earlier <+: log.calls → earlier ≠ log.calls → ruling earlier = none
  dialogue : Dialogue produce watch s₀ log state
  /-- Accepting anything clears the unread marker. -/
  cleared : acceptedOf log.calls ≠ [] → r.canUnread = false
  /-- As long as nothing is accepted only the slots are touched that are offered. -/
  untouched : acceptedOf log.calls = [] → Ring.Touched r₀ r log.calls.getLast?

/-- What holds besides between two calls of a pull. -/
structure Pulling [Inhabited α] (produce : Producer σ α) (watch : Observer σ α) (r₀ : Ring α)
    (s₀ state : σ) (log : Log σ α) (r : Ring α) (p : Ring.Progress α) : Prop
    extends Logged produce watch r₀ s₀ state log r where
  complete : runsOf log.showings = cuts r₀.capacity r₀.tail (chunksOf log.calls)
  tail_eq : r.tail = (r₀.tail + (acceptedOf log.calls).length) % r₀.capacity
  no_rejection : watch.rejection log.showings = none
  no_ruling : ruling log.calls = none
  total_eq : p.total = (acceptedOf log.calls).length
  idle_eq : p.idle = idleCount log.calls
  idle_lt : p.idle < maxEmptyReads
  staging : r.Staging p.staging

theorem Pulling.start [Inhabited α] {r : Ring α} (h : r.Valid) (produce : Producer σ α)
    (watch : Observer σ α) (state : σ) :
    Pulling produce watch r state state .empty r ⟨0, 0, []⟩ where
  began := h
  valid := h
  capacity_eq := rfl
  in_order := List.nil_prefix
  caught_up := List.nil_prefix
  unread_eq := by
    rw [show (runsOf (Log.empty : Log σ α).showings).flatten = [] from rfl, List.append_nil,
      rtake_of_length_le (by rw [Ring.length_unread]; exact h.count_le)]
  reflected earlier x hp := by simp [Log.empty] at hp
  passed x hx := by cases hx
  offered c hc := by cases hc
  undecided earlier hp hne := absurd (List.prefix_nil.mp hp) hne
  dialogue := .nil
  cleared hne := absurd rfl hne
  untouched _ := ⟨rfl, fun c hc => by cases hc⟩
  complete := rfl
  tail_eq := (Nat.mod_eq_of_lt h.tail_lt).symm
  no_rejection := rfl
  no_ruling := rfl
  total_eq := rfl
  idle_eq := rfl
  idle_lt := show 0 < maxEmptyReads by decide
  staging := .inl rfl

/-! ### One call -/

section Step

variable [Inhabited α] {produce : Producer σ α} {watch : Observer σ α} {r₀ r : Ring α}
  {s₀ state : σ} {log : Log σ α} {p : Ring.Progress α}

/-- What one call of recorded peers leaves: the call is noted, and with it the runs that are
shown of its chunk. -/
theorem settle_recorded (produce : Producer σ α) (watch : Observer σ α) (r : Ring α) (state : σ)
    (log : Log σ α) (staging : List α) {c : Call σ α} (hc : r.call produce state staging = c) :
    ∃ final shown,
      Presented watch (r.touch c.buffer) ((r.touch c.buffer).lapsOf c.chunk) shown ∧
      r.settle watch.recorded (r.call produce.recorded (state, log) staging) =
        ⟨(r.touch c.buffer).commits (runsOf shown),
          (final, ⟨log.calls ++ [c], log.showings ++ shown⟩),
          (r.settle watch.recorded (r.call produce.recorded (state, log) staging)).trace,
          c.accepted.bind fun accepted =>
            match watch.rejection shown with
            | some failure => .error failure
            | none => .ok accepted⟩ ∧
      ∀ first, Dialogue produce watch first log state →
        Dialogue produce watch first ⟨log.calls ++ [c], log.showings ++ shown⟩ final := by
  subst hc
  generalize hcall : r.call produce state staging = c
  have hbuf : (r.call produce.recorded (state, log) staging).buffer = c.buffer := by
    rw [← hcall]
    rfl
  have hchunk : (r.call produce.recorded (state, log) staging).chunk = c.chunk := by
    rw [← hcall]
    rfl
  have hacc : (r.call produce.recorded (state, log) staging).accepted = c.accepted := by
    rw [← hcall]
    rfl
  have hstate : (r.call produce.recorded (state, log) staging).delivery.state =
      (c.delivery.state, ⟨log.calls ++ [c], log.showings⟩) := by
    rw [← hcall]
    rfl
  obtain ⟨final, shown, hshown, hfinal, hring, hanswer⟩ :=
    present_recorded watch (r.touch c.buffer) ((r.touch c.buffer).lapsOf c.chunk)
      c.delivery.state ⟨log.calls ++ [c], log.showings⟩
  refine ⟨final, shown, hshown, ?_, fun first hd => ?_⟩
  · unfold Ring.settle
    rw [hbuf, hchunk, hacc, hstate]
    dsimp only
    rw [hring, hfinal, hanswer]
    congr 1
    cases watch.rejection shown <;> rfl
  · have hcalled : Dialogue produce watch first ⟨log.calls ++ [c], log.showings⟩
        c.delivery.state := by
      rw [← hcall]
      exact hd.called (r.offer staging)
    have hpresent := (watch.recorded_keeps produce first).present (r.touch c.buffer)
      ((r.touch c.buffer).lapsOf c.chunk) (c.delivery.state, ⟨log.calls ++ [c], log.showings⟩)
      hcalled
    rwa [hfinal] at hpresent

namespace Pulling

variable (h : Pulling produce watch r₀ s₀ state log r p) {c : Call σ α}
  (hc : r.call produce state p.staging = c)

include h hc

theorem length_buffer : c.buffer.length = if r.isFull then r.capacity else r.vacancy := by
  rw [Call.length_buffer, ← hc]
  exact Ring.length_offer h.valid h.staging

theorem capacity_touch : (r.touch c.buffer).capacity = r₀.capacity :=
  (Ring.capacity_touch h.valid (h.length_buffer hc)).trans h.capacity_eq

/-- The laps of the chunk go on where the runs shown so far end. -/
theorem cuts_eq : cuts r₀.capacity r₀.tail (chunksOf (log.calls ++ [c])) =
    runsOf log.showings ++ (r.touch c.buffer).lapsOf c.chunk := by
  have ht : r₀.tail < r₀.capacity := h.began.tail_lt
  unfold Ring.lapsOf
  rw [chunksOf_append, show chunksOf [c] = [c.chunk] from rfl, cuts_concat ht, ← h.complete,
    h.capacity_touch hc, Ring.tail_touch h.valid (h.length_buffer hc), h.tail_eq]
  rfl

/-- The unread items once the first few laps of the chunk are committed. -/
theorem unread_commits {runs : List (List α)}
    (hr : runs <+: (r.touch c.buffer).lapsOf c.chunk) :
    ((r.touch c.buffer).commits runs).unread =
      (r₀.unread ++ (runsOf log.showings ++ runs).flatten).rtake r₀.capacity := by
  have hv := Ring.valid_touch h.valid (h.length_buffer hc)
  rw [Ring.unread_commits hv ((Ring.fits_lapsOf hv _).initial hr), h.capacity_touch hc,
    Ring.unread_touch h.valid (h.length_buffer hc), h.unread_eq, rtake_append_rtake,
    List.flatten_append, List.append_assoc]

theorem valid_commits {runs : List (List α)}
    (hr : runs <+: (r.touch c.buffer).lapsOf c.chunk) :
    ((r.touch c.buffer).commits runs).Valid := by
  have hv := Ring.valid_touch h.valid (h.length_buffer hc)
  exact hv.commits ((Ring.fits_lapsOf hv _).initial hr)

theorem capacity_commits {runs : List (List α)}
    (hr : runs <+: (r.touch c.buffer).lapsOf c.chunk) :
    ((r.touch c.buffer).commits runs).capacity = r₀.capacity := by
  have hv := Ring.valid_touch h.valid (h.length_buffer hc)
  rw [Ring.capacity_commits hv ((Ring.fits_lapsOf hv _).initial hr), h.capacity_touch hc]

theorem length_run_le {run : List α} (hr : run ∈ (r.touch c.buffer).lapsOf c.chunk) :
    run.length ≤ r₀.capacity := by
  have hv := Ring.valid_touch h.valid (h.length_buffer hc)
  rw [← h.capacity_touch hc]
  exact (Ring.fits_lapsOf hv _).length_le hr

end Pulling

omit [Inhabited α] in
theorem Presented.eq_nil {shown : List (Showing σ α)} (h : Presented watch r [] shown) :
    shown = [] := by
  have := List.prefix_nil.mp h.in_order
  simpa [runsOf] using this

/-- One call more, and what is shown of its chunk. -/
theorem Pulling.logged (h : Pulling produce watch r₀ s₀ state log r p) {c : Call σ α}
    (hc : r.call produce state p.staging = c) {final : σ} {shown : List (Showing σ α)}
    (hs : Presented watch (r.touch c.buffer) ((r.touch c.buffer).lapsOf c.chunk) shown)
    (hd : Dialogue produce watch s₀ ⟨log.calls ++ [c], log.showings ++ shown⟩ final) :
    Logged produce watch r₀ s₀ final ⟨log.calls ++ [c], log.showings ++ shown⟩
      ((r.touch c.buffer).commits (runsOf shown)) where
  began := h.began
  valid := h.valid_commits hc hs.in_order
  capacity_eq := h.capacity_commits hc hs.in_order
  in_order := by
    dsimp only
    rw [h.cuts_eq hc, runsOf_append, List.prefix_append_right_inj]
    exact hs.in_order
  caught_up := by
    dsimp only
    rw [List.dropLast_concat, ← h.complete, runsOf_append]
    exact List.prefix_append _ _
  unread_eq := by
    rw [runsOf_append]
    exact h.unread_commits hc hs.in_order
  reflected earlier x hx := by
    rcases concat_prefix_append hx with hold | ⟨before, rfl, hnew⟩
    · exact h.reflected earlier x hold
    · have hpre : runsOf (before ++ [x]) <+: (r.touch c.buffer).lapsOf c.chunk :=
        (hnew.map Showing.run).trans hs.in_order
      have hmem : x.run ∈ (r.touch c.buffer).lapsOf c.chunk := hpre.subset (by simp)
      have hu : x.ring.unread =
          (r₀.unread ++ (runsOf (log.showings ++ before ++ [x])).flatten).rtake r₀.capacity := by
        rw [hs.committed before x hnew, h.unread_commits hc hpre]
        simp only [runsOf_append, List.append_assoc]
      refine ⟨hu, ?_⟩
      rw [hu, runsOf_append, List.flatten_append, ← List.append_assoc]
      have := suffix_rtake_append (r₀.unread ++ (runsOf (log.showings ++ before)).flatten)
        (h.length_run_le hc hmem)
      simpa using this
  passed x hx := by
    have hold := Observer.rejection_eq_none.mp h.no_rejection
    rcases List.eq_nil_or_concat' shown with rfl | ⟨before, last, rfl⟩
    · rw [List.append_nil] at hx
      exact hold x ((List.dropLast_sublist _).subset hx)
    · rw [← List.append_assoc, List.dropLast_concat] at hx
      rcases List.mem_append.mp hx with hx | hx
      · exact hold x hx
      · exact hs.passed x (by rwa [List.dropLast_concat])
  offered call hm := by
    rcases List.mem_append.mp hm with hm | hm
    · exact h.offered call hm
    · obtain rfl := List.mem_singleton.mp hm
      rw [← hc]
      exact Ring.offer_ne_nil h.valid h.staging
  undecided earlier hp hne := by
    rcases eq_or_ne earlier log.calls with rfl | hne'
    · exact h.no_ruling
    · exact h.undecided earlier (prefix_concat hp hne) hne'
  dialogue := hd
  cleared hne := by
    rcases List.eq_nil_or_concat' shown with rfl | ⟨before, last, rfl⟩
    · have hchunk : c.chunk = [] := by
        rw [← flatten_laps _ _ c.chunk]
        exact congrArg List.flatten (hs.complete rfl).symm
      have hold : acceptedOf log.calls ≠ [] := by
        rwa [acceptedOf_concat, hchunk, List.append_nil] at hne
      exact Ring.canUnread_touch.trans (h.cleared hold)
    · exact Ring.canUnread_commits (by simp)
  untouched he := by
    obtain ⟨hold, hchunk⟩ := List.append_eq_nil_iff.mp ((acceptedOf_concat _ _).symm.trans he)
    rw [hchunk, Ring.lapsOf, laps_nil] at hs
    rw [hs.eq_nil, List.getLast?_concat]
    exact (h.untouched hold).touch h.began (h.length_buffer hc)

/-- A call that decides nothing, its chunk shown in full, leaves the pull ready for the next. -/
theorem Pulling.next (h : Pulling produce watch r₀ s₀ state log r p) {c : Call σ α}
    (hc : r.call produce state p.staging = c) {final : σ} {shown : List (Showing σ α)}
    (hs : Presented watch (r.touch c.buffer) ((r.touch c.buffer).lapsOf c.chunk) shown)
    (hd : Dialogue produce watch s₀ ⟨log.calls ++ [c], log.showings ++ shown⟩ final) {n : Nat}
    (ha : c.accepted = .ok (some n)) (hr : watch.rejection shown = none)
    (hidle : (if n = 0 then p.idle + 1 else 0) < maxEmptyReads) :
    Pulling produce watch r₀ s₀ final ⟨log.calls ++ [c], log.showings ++ shown⟩
      ((r.touch c.buffer).commits (runsOf shown))
      ⟨p.total + n, if n = 0 then p.idle + 1 else 0, if r.isFull then c.buffer else p.staging⟩ where
  toLogged := h.logged hc hs hd
  complete := by
    dsimp only
    rw [h.cuts_eq hc, runsOf_append, hs.complete hr]
  tail_eq := by
    have hv := Ring.valid_touch h.valid (h.length_buffer hc)
    have hf := (Ring.fits_lapsOf hv c.chunk).initial hs.in_order
    rw [Ring.tail_commits hv hf, hs.complete hr, Ring.lapsOf, flatten_laps, h.capacity_touch hc,
      Ring.tail_touch h.valid (h.length_buffer hc), h.tail_eq, Nat.mod_add_mod, acceptedOf_concat,
      List.length_append, Nat.add_assoc]
  no_rejection := (Observer.rejection_append h.no_rejection).trans hr
  no_ruling := by
    have hi : idleCount (log.calls ++ [c]) = if n = 0 then p.idle + 1 else 0 := by
      rw [idleCount_concat, isIdle_of_accepted ha, h.idle_eq]
      simp
    rw [ruling_of_accepted _ ha, if_neg (by omega)]
  total_eq := by
    obtain ⟨hchunk, hn⟩ := Call.chunk_of_accepted ha
    rw [acceptedOf_concat, List.length_append, ← h.total_eq, hchunk, List.length_take,
      Call.length_buffer, Nat.min_eq_left hn]
  idle_eq := by
    rw [idleCount_concat, isIdle_of_accepted ha, ← h.idle_eq]
    simp
  idle_lt := hidle
  staging := by
    unfold Ring.Staging
    rw [h.capacity_commits hc hs.in_order, ← h.capacity_eq]
    dsimp only
    split
    · next hf =>
        rw [h.length_buffer hc, if_pos hf]
        exact .inr rfl
    · exact h.staging

/-- What is left of a pull when it has ended with `answer`. -/
structure Pulled (produce : Producer σ α) (watch : Observer σ α) (r₀ : Ring α) (s₀ state : σ)
    (log : Log σ α) (r : Ring α) (answer : Except Failure Nat) : Prop
    extends Logged produce watch r₀ s₀ state log r where
  settled : watch.rejection log.showings = none →
    runsOf log.showings = cuts r₀.capacity r₀.tail (chunksOf log.calls) ∧
      ruling log.calls = some answer
  rejected : ∀ failure, watch.rejection log.showings = some failure → answer = .error failure

/-- A call with which the pull ends. -/
theorem Pulling.pulled (h : Pulling produce watch r₀ s₀ state log r p) {c : Call σ α}
    (hc : r.call produce state p.staging = c) {final : σ} {shown : List (Showing σ α)}
    (hs : Presented watch (r.touch c.buffer) ((r.touch c.buffer).lapsOf c.chunk) shown)
    (hd : Dialogue produce watch s₀ ⟨log.calls ++ [c], log.showings ++ shown⟩ final)
    {answer : Except Failure Nat}
    (ha : watch.rejection shown = none → ruling (log.calls ++ [c]) = some answer)
    (hr : ∀ failure, watch.rejection shown = some failure → answer = .error failure) :
    Pulled produce watch r₀ s₀ final ⟨log.calls ++ [c], log.showings ++ shown⟩
      ((r.touch c.buffer).commits (runsOf shown)) answer := by
  have happ : watch.rejection (log.showings ++ shown) = watch.rejection shown :=
    Observer.rejection_append h.no_rejection
  refine ⟨h.logged hc hs hd, ?_, ?_⟩
  · intro hn
    rw [happ] at hn
    refine ⟨?_, ha hn⟩
    dsimp only
    rw [h.cuts_eq hc, runsOf_append, hs.complete hn]
  · intro failure hf
    rw [happ] at hf
    exact hr failure hf

/-- One call ends the pull, or leaves it ready for the next call. -/
theorem Pulling.step (h : Pulling produce watch r₀ s₀ state log r p) :
    (∃ o, (∀ limit,
        r.pullFrom produce.recorded watch.recorded (limit + 1) (state, log) p = some o) ∧
      Pulled produce watch r₀ s₀ o.state.1 o.state.2 o.ring o.answer) ∨
    ∃ state' log' r' p' reports, Pulling produce watch r₀ s₀ state' log' r' p' ∧
      log'.calls.length = log.calls.length + 1 ∧
      ∀ limit, r.pullFrom produce.recorded watch.recorded (limit + 1) (state, log) p =
        (r'.pullFrom produce.recorded watch.recorded limit (state', log') p').map
          (·.after reports) := by
  obtain ⟨final, shown, hs, hsettle, hdialogue⟩ :=
    settle_recorded produce watch r state log p.staging rfl
  have hd := hdialogue s₀ h.dialogue
  have hcall := Ring.pullOnce_eq h.valid produce.recorded watch.recorded (state, log) p.staging
  have hbuf : (r.call produce.recorded (state, log) p.staging).buffer =
    (r.call produce state p.staging).buffer := rfl
  generalize hc : r.call produce state p.staging = c at hs hsettle hd hbuf
  rw [hbuf, hsettle] at hcall
  have hnil : (∀ n, c.accepted ≠ .ok (some n)) → shown = [] := by
    intro hn
    rw [Call.chunk_of_not_accepted hn, Ring.lapsOf, laps_nil] at hs
    exact hs.eq_nil
  -- only an accepted chunk can be shown, so a failure and the end of the data show nothing
  rcases ha : c.accepted with failure | _ | n
  · obtain rfl := hnil (by simp [ha])
    left
    refine ⟨_, fun limit => Ring.pullFrom_of_failure hcall limit (by rw [ha]; rfl), ?_⟩
    refine h.pulled hc hs hd ?_ ?_
    · intro _
      exact ruling_of_failure _ ha
    · rintro failure ⟨⟩
  · obtain rfl := hnil (by simp [ha])
    left
    refine ⟨_, fun limit => Ring.pullFrom_of_end hcall limit (by rw [ha]; rfl), ?_⟩
    refine h.pulled hc hs hd ?_ ?_
    · intro _
      rw [ruling_of_end _ ha, h.total_eq]
    · rintro failure ⟨⟩
  cases hr : watch.rejection shown with
  | some failure =>
      left
      refine ⟨_, fun limit => Ring.pullFrom_of_failure hcall limit (by rw [ha, hr]; rfl), ?_⟩
      refine h.pulled hc hs hd ?_ ?_
      · intro hn
        rw [hr] at hn
        cases hn
      · intro first hf
        rw [hr] at hf
        cases hf
        rfl
  | none =>
      rcases Nat.lt_or_ge (if n = 0 then p.idle + 1 else 0) maxEmptyReads with hidle | hidle
      · right
        have hlater := fun limit =>
          Ring.pullFrom_of_next hcall limit (by rw [ha, hr]; rfl) hidle
        refine ⟨_, _, _, _, _, h.next hc hs hd ha hr hidle, ?_, hlater⟩
        rw [List.length_append, List.length_singleton]
      -- only an empty answer counts as idle
      · obtain rfl : n = 0 := by
          by_contra hn
          have hlt := h.idle_lt
          rw [if_neg hn] at hidle
          omega
        rw [if_pos rfl] at hidle
        left
        refine ⟨_, fun limit => Ring.pullFrom_of_stuck hcall limit (by rw [ha, hr]; rfl) hidle, ?_⟩
        refine h.pulled hc hs hd ?_ ?_
        · intro _
          have hlt := h.idle_lt
          have hi : idleCount (log.calls ++ [c]) = p.idle + 1 := by
            rw [idleCount_concat, isIdle_of_accepted ha, h.idle_eq]
            rfl
          rw [ruling_of_accepted _ ha, hi, if_pos (by omega),
            show p.idle + 1 = maxEmptyReads by omega]
        · intro failure hf
          rw [hr] at hf
          cases hf

/-- **What a pull leaves behind**: when it has ended, its ring and its log tell the same, and its
answer is what its calls decide, or the failure with which a run was rejected. When it has not,
it has made as many calls as it may, and they decide nothing. -/
theorem pullFrom_recorded (h : Pulling produce watch r₀ s₀ state log r p) (limit : Nat) :
    match r.pullFrom produce.recorded watch.recorded limit (state, log) p with
    | none => ∃ state' log' r' p', Pulling produce watch r₀ s₀ state' log' r' p' ∧
        log'.calls.length = log.calls.length + limit
    | some o => Pulled produce watch r₀ s₀ o.state.1 o.state.2 o.ring o.answer := by
  induction limit generalizing state log r p with
  | zero => exact ⟨state, log, r, p, h, rfl⟩
  | succ limit ih =>
      rcases h.step with ⟨o, ho, hpulled⟩ | ⟨state', log', r', p', reports, hnext, hlen, hlater⟩
      · rw [ho]
        exact hpulled
      · have hrest := ih hnext
        -- the reports made before change neither the ring, nor the log, nor the answer
        rw [hlater]
        revert hrest
        cases r'.pullFrom produce.recorded watch.recorded limit (state', log') p' with
        | none =>
            rintro ⟨last, calls, ring, progress, hp, hcalls⟩
            exact ⟨last, calls, ring, progress, hp, by omega⟩
        | some o => exact id

end Step

end Carousel
