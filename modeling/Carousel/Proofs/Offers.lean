import Carousel.Proofs.Record
import Carousel.Transfer.Valid

/-! # Pushing to any consumer

A push offers the unread items run by run, and what is left of it can be told from the offers it
has made and the receipts it was given: `Consumer.offers` are the runs that a consumer is offered,
one after the other as long as each is accepted in full; `takenOf` is what it accepts of them and
`settlement` the answer. `Ring.writeTo_offers`: whatever a consumer answers, the unread items are
those it has taken followed by those that are left. -/

namespace Carousel

variable {σ τ α : Type}

/-! ### Offers -/

/-- One run offered to a consumer, and its receipt. -/
structure Offer (σ α : Type) where
  run : List α
  receipt : Receipt Failure σ

namespace Offer

/-- The items of the run that are accepted: none if the receipt is a failure or counts more. -/
def taken (x : Offer σ α) : List α :=
  match x.receipt.answer with
  | .ok count => if x.run.length < count then [] else x.run.take count
  | .error _ => []

def inFull (x : Offer σ α) : Bool :=
  match x.receipt.answer with
  | .ok count => count = x.run.length
  | .error _ => false

/-- The run is accepted, but nothing of it. -/
def idle (x : Offer σ α) : Bool :=
  match x.receipt.answer with
  | .ok count => count = 0
  | .error _ => false

theorem inFull_iff {x : Offer σ α} : x.inFull = true ↔ x.receipt.answer = .ok x.run.length := by
  unfold inFull
  split
  · next count ha => rw [ha, decide_eq_true_iff, Except.ok.injEq]
  · next ha => simp [ha]

theorem taken_of_inFull {x : Offer σ α} (h : x.inFull = true) : x.taken = x.run := by
  unfold taken
  rw [inFull_iff.mp h]
  dsimp only
  rw [if_neg (Nat.lt_irrefl _), List.take_length]

theorem idle_iff {x : Offer σ α} : x.idle = true ↔ x.receipt.answer = .ok 0 := by
  unfold idle
  split
  · next count ha => rw [ha, decide_eq_true_iff, Except.ok.injEq]
  · next ha => simp [ha]

theorem taken_of_idle {x : Offer σ α} (h : x.idle = true) : x.taken = [] := by
  unfold taken
  rw [idle_iff.mp h]
  simp

theorem idle_of_inFull {x : Offer σ α} (h : x.inFull = true) (hne : x.run ≠ []) :
    x.idle = false := by
  unfold idle
  rw [inFull_iff.mp h]
  simpa using hne

end Offer

/-- The items that are accepted over all offers. -/
def takenOf (offers : List (Offer σ α)) : List α := offers.flatMap Offer.taken

/-- The answer of a push, as its last offer decides it. -/
def settlement (offers : List (Offer σ α)) : Except Failure Nat :=
  match offers.getLast? with
  | none => .ok 0
  | some last =>
    match last.receipt.answer with
    | .error .endOfData => .ok (takenOf offers).length
    | .error failure => .error failure
    | .ok count =>
      if last.run.length < count then .error (.countOutOfRange count last.run.length)
      else .ok (takenOf offers).length

/-- Whether a push ends with a run of which nothing is accepted, though the consumer does not
fail. -/
def stalled (offers : List (Offer σ α)) : Bool := offers.getLast?.any Offer.idle

/-- What a consumer is offered of some runs: each if the one before is accepted in full. -/
def Consumer.offers (consumer : Consumer σ α) : σ → List (List α) → List (Offer σ α)
  | _, [] => []
  | state, run :: runs =>
    let receipt := consumer state run
    ⟨run, receipt⟩ :: if Offer.inFull ⟨run, receipt⟩ then offers consumer receipt.state runs else []

/-- Notes each offer. -/
def Consumer.recorded (consumer : Consumer σ α) : Consumer (σ × List (Offer σ α)) α :=
  fun (state, offers) run =>
    (consumer state run).map fun next => (next, offers ++ [⟨run, consumer state run⟩])

/-- Seen through `f`, the consumer `fine` is the consumer `coarse`. -/
def Consumer.Erases (f : τ → σ) (fine : Consumer τ α) (coarse : Consumer σ α) : Prop :=
  ∀ state run, (fine state run).map f = coarse (f state) run

theorem Consumer.Erases.parallel {f : τ → σ} {fine : Consumer τ α} {coarse : Consumer σ α}
    (h : fine.Erases f coarse) : fine.Parallel (f · = ·) coarse := by
  rintro state _ rfl run
  rw [← h]
  exact ⟨rfl, rfl, rfl⟩

theorem Consumer.recorded_erases (consumer : Consumer σ α) :
    consumer.recorded.Erases Prod.fst consumer := fun _ _ => rfl

/-- The state in which the last receipt leaves the consumer. -/
def stateAfter (state : σ) (offers : List (Offer σ α)) : σ :=
  offers.getLast?.elim state fun last => last.receipt.state

namespace Ring

/-- The unread items as the runs of slots they lie in. -/
def runs (r : Ring α) : List (List α) :=
  [r.segments.1, r.segments.2].filter fun run => !run.isEmpty

/-- The ring once an offer has been settled. -/
def settleOffer (r : Ring α) (x : Offer σ α) : Ring α :=
  match x.receipt.answer with
  | .ok count => if x.run.length < count then r else r.consume count
  | .error _ => r

/-! ### Segments -/

/-- The unread items are none, or lie in one run of slots, or go on at slot 0. -/
theorem segments_cases {r : Ring α} (h : r.Valid) :
    (r.count = 0 ∧ r.segments = ([], [])) ∨
      (0 < r.count ∧ r.head + r.count ≤ r.capacity ∧
        r.segments = (window r.slots r.head r.count, [])) ∨
      (r.capacity < r.head + r.count ∧
        r.segments = (r.slots.drop r.head, r.slots.take (r.head + r.count - r.capacity))) := by
  have hh := h.head_lt
  unfold segments
  by_cases h0 : r.count = 0
  · exact .inl ⟨h0, if_pos h0⟩
  · rw [if_neg h0]
    by_cases hw : r.head + r.count ≤ r.capacity
    · exact .inr (.inl ⟨by omega, hw, if_pos (by omega)⟩)
    · refine .inr (.inr ⟨by omega, ?_⟩)
      rw [if_neg (by omega), show r.count - (r.capacity - r.head) =
        r.head + r.count - r.capacity by omega]

theorem segments_of_count_zero {r : Ring α} (h : r.count = 0) : r.segments = ([], []) := if_pos h

/-- Behind the first segment the unread items are those of the second. -/
theorem segments_consume {r : Ring α} (h : r.Valid) :
    (r.consume r.segments.1.length).segments = (r.segments.2, []) := by
  have hh := h.head_lt
  have hc := h.count_le
  rcases segments_cases h with ⟨h0, hs⟩ | ⟨-, hfit, hs⟩ | ⟨hwrap, hs⟩
  · rw [hs]
    exact segments_of_count_zero (by simp [consume, h0])
  · have hl : (window r.slots r.head r.count).length = r.count := length_window hfit
    rw [hs]
    exact segments_of_count_zero (by rw [hl]; exact Nat.sub_self _)
  · have hl : (r.slots.drop r.head).length = r.capacity - r.head := List.length_drop
    have hhead : (r.head + (r.capacity - r.head)) % r.capacity = 0 := by
      rw [Nat.add_sub_cancel' (Nat.le_of_lt hh), Nat.mod_self]
    have hcount : r.count - (r.capacity - r.head) = r.head + r.count - r.capacity := by omega
    rw [hs]
    dsimp only
    rw [hl]
    unfold segments
    rw [capacity_consume]
    simp only [consume, hhead, hcount]
    rw [if_neg (by omega), if_pos (by omega)]
    rfl

theorem segments_fst_eq_nil_iff {r : Ring α} (h : r.Valid) : r.segments.1 = [] ↔ r.count = 0 := by
  have hh := h.head_lt
  rw [← List.length_eq_zero_iff]
  rcases segments_cases h with ⟨h0, hs⟩ | ⟨hpos, hfit, hs⟩ | ⟨hwrap, hs⟩
  · simp [hs, h0]
  · rw [hs, length_window hfit]
  · have hc := h.count_le
    have hl : (r.slots.drop r.head).length = r.capacity - r.head := List.length_drop
    rw [hs, hl]
    omega

theorem runs_eq_nil {r : Ring α} (h : r.count = 0) : r.runs = [] := by
  unfold runs
  rw [segments_of_count_zero h]
  rfl

/-- Consuming the first run leaves the others. -/
theorem runs_eq_cons {r : Ring α} (h : r.Valid) (h0 : r.count ≠ 0) :
    r.segments.1 ≠ [] ∧ r.runs = r.segments.1 :: (r.consume r.segments.1.length).runs := by
  have hne : r.segments.1 ≠ [] := mt (segments_fst_eq_nil_iff h).mp h0
  refine ⟨hne, ?_⟩
  unfold runs
  rw [segments_consume h]
  simp [List.filter_cons, hne]

theorem flatten_runs [Inhabited α] {r : Ring α} (h : r.Valid) : r.runs.flatten = r.unread := by
  rw [← segments_append h]
  unfold runs
  simp only [List.filter_cons, List.filter_nil]
  cases r.segments.1 <;> cases r.segments.2 <;> simp

theorem length_runs_le (r : Ring α) : r.runs.length ≤ 2 := List.length_filter_le _ _

theorem ne_nil_of_mem_runs {r : Ring α} {run : List α} (h : run ∈ r.runs) : run ≠ [] := by
  have := (List.mem_filter.mp h).2
  simpa using this

end Ring

/-! ### Settlements -/

theorem takenOf_cons (x : Offer σ α) (offers : List (Offer σ α)) :
    takenOf (x :: offers) = x.taken ++ takenOf offers := List.flatMap_cons

/-- Behind a run that is accepted in full the other offers decide. -/
theorem settlement_cons {x : Offer σ α} (h : x.inFull = true) (offers : List (Offer σ α)) :
    settlement (x :: offers) = (settlement offers).map (x.run.length + ·) := by
  have ht := Offer.taken_of_inFull h
  unfold settlement
  rcases List.eq_nil_or_concat' offers with rfl | ⟨earlier, last, rfl⟩
  · rw [List.getLast?_singleton, List.getLast?_nil]
    dsimp only
    rw [Offer.inFull_iff.mp h]
    dsimp only
    rw [if_neg (Nat.lt_irrefl _), takenOf_cons, ht]
    simp [takenOf, Except.map]
  · rw [← List.cons_append, List.getLast?_concat, List.getLast?_concat, List.cons_append,
      takenOf_cons, ht, List.length_append]
    dsimp only
    cases last.receipt.answer with
    | error failure => cases failure <;> rfl
    | ok count =>
        dsimp only
        split <;> rfl

/-- Whether a push stalls is decided behind the runs that are accepted in full. -/
theorem stalled_cons {x : Offer σ α} (h : x.inFull = true) (hne : x.run ≠ [])
    (offers : List (Offer σ α)) : stalled (x :: offers) = stalled offers := by
  unfold stalled
  rw [List.getLast?_cons]
  cases offers.getLast? with
  | none => exact Offer.idle_of_inFull h hne
  | some last => rfl

theorem stateAfter_cons (state : σ) (x : Offer σ α) (offers : List (Offer σ α)) :
    stateAfter state (x :: offers) = stateAfter x.receipt.state offers := by
  unfold stateAfter
  rw [List.getLast?_cons]
  cases offers.getLast? <;> rfl

theorem Consumer.offers_of_inFull {consumer : Consumer σ α} {state : σ} {run : List α}
    (h : Offer.inFull ⟨run, consumer state run⟩ = true) (runs : List (List α)) :
    consumer.offers state (run :: runs) =
      ⟨run, consumer state run⟩ :: consumer.offers (consumer state run).state runs := by
  rw [offers, if_pos h]

theorem Consumer.offers_of_not_inFull {consumer : Consumer σ α} {state : σ} {run : List α}
    (h : Offer.inFull ⟨run, consumer state run⟩ = false) (runs : List (List α)) :
    consumer.offers state (run :: runs) = [⟨run, consumer state run⟩] := by
  rw [offers, h]
  rfl

namespace Ring

theorem runs_of_segment {r : Ring α} (h : r.Valid) {item : α} {items : List α}
    (hs : r.segments.1 = item :: items) :
    r.runs = (item :: items) :: (r.consume (item :: items).length).runs := by
  rw [← hs]
  exact (runs_eq_cons h (Nat.ne_of_gt (count_pos_of_segment hs))).2

/-- What a push that notes its offers leaves. -/
theorem pushRest_recorded {r : Ring α} (h : r.Valid) (consumer : Consumer σ α)
    (s : σ × List (Offer σ α)) (total : Nat) :
    (r.pushRest consumer.recorded s total).state =
        (stateAfter s.1 (consumer.offers s.1 r.runs), s.2 ++ consumer.offers s.1 r.runs) ∧
      (r.pushRest consumer.recorded s total).ring =
        (consumer.offers s.1 r.runs).foldl settleOffer r ∧
      (r.pushRest consumer.recorded s total).answer =
        (settlement (consumer.offers s.1 r.runs)).map (total + ·) := by
  -- the induction is on the calls: the ring a call leaves has the runs behind the one it took
  fun_induction pushRest consumer.recorded s r total with
  | case1 s r total hs =>
      rw [runs_eq_nil ((segments_fst_eq_nil_iff h).mp hs)]
      exact ⟨by simp [Consumer.offers, stateAfter], rfl, rfl⟩
  | case2 s r total item items hs run receipt reports ha =>
      replace ha : (consumer s.1 run).answer = .error .endOfData := ha
      rw [runs_of_segment h hs, Consumer.offers_of_not_inFull (by simp [Offer.inFull, run, ha])]
      refine ⟨rfl, ?_, ?_⟩
      · simp [settleOffer, run, ha]
      · simp [settlement, takenOf, Offer.taken, Except.map, run, ha]
  | case3 s r total item items hs run receipt reports failure hne ha =>
      replace ha : (consumer s.1 run).answer = .error failure := ha
      rw [runs_of_segment h hs, Consumer.offers_of_not_inFull (by simp [Offer.inFull, run, ha])]
      refine ⟨rfl, ?_, ?_⟩
      · simp [settleOffer, run, ha]
      · simp [settlement, Except.map, run, ha]
  | case4 s r total item items hs run receipt reports accepted ha hover =>
      replace ha : (consumer s.1 run).answer = .ok accepted := ha
      have hfull : Offer.inFull ⟨run, consumer s.1 run⟩ = false := by
        simp only [Offer.inFull, ha, decide_eq_false_iff_not]
        omega
      rw [runs_of_segment h hs, Consumer.offers_of_not_inFull hfull]
      refine ⟨rfl, ?_, ?_⟩
      · simp only [settleOffer, List.foldl_cons, List.foldl_nil, ha]
        rw [if_pos hover]
      · simp only [settlement, List.getLast?_singleton, ha]
        rw [if_pos hover]
        rfl
  | case5 s r total item items hs run receipt reports accepted ha hle hshort =>
      replace ha : (consumer s.1 run).answer = .ok accepted := ha
      have hfull : Offer.inFull ⟨run, consumer s.1 run⟩ = false := by
        simp only [Offer.inFull, ha, decide_eq_false_iff_not]
        omega
      have htaken : Offer.taken ⟨run, consumer s.1 run⟩ = run.take accepted := by
        simp only [Offer.taken, ha]
        exact if_neg hle
      rw [runs_of_segment h hs, Consumer.offers_of_not_inFull hfull]
      refine ⟨rfl, ?_, ?_⟩
      · simp only [settleOffer, List.foldl_cons, List.foldl_nil, ha]
        rw [if_neg hle]
      · simp only [settlement, List.getLast?_singleton, ha, takenOf_cons, htaken]
        rw [if_neg hle]
        simp [takenOf, Except.map, Nat.min_eq_left (Nat.le_of_lt hshort)]
  | case6 s r total item items hs run receipt reports accepted ha hle hge ih =>
      replace ha : (consumer s.1 run).answer = .ok accepted := ha
      obtain rfl : accepted = run.length := by omega
      have hfull : Offer.inFull ⟨run, consumer s.1 run⟩ = true := by
        simp only [Offer.inFull, ha, decide_true]
      have hc : run.length ≤ r.count := by
        have := segment_le_count h
        rwa [hs] at this
      obtain ⟨hstate, hring, hanswer⟩ := ih (h.consume hc)
      rw [runs_of_segment h hs, Consumer.offers_of_inFull hfull]
      refine ⟨?_, ?_, ?_⟩
      · rw [Outcome.state_after, hstate, stateAfter_cons]
        exact Prod.ext rfl (List.append_assoc s.2 [_] _)
      · rw [Outcome.ring_after, hring, List.foldl_cons]
        simp only [settleOffer, ha]
        rw [if_neg hle]
        rfl
      · rw [Outcome.answer_after, hanswer, settlement_cons hfull]
        change Except.map _ (settlement (consumer.offers (consumer s.1 run).state _)) = _
        cases settlement (consumer.offers (consumer s.1 run).state (r.consume run.length).runs) with
        | error failure => rfl
        | ok count => exact congrArg Except.ok (Nat.add_assoc _ _ _)

/-! ### Recording changes nothing -/

variable {fine : Consumer τ α} {coarse : Consumer σ α} {f : τ → σ}

theorem pushRest_erase (hc : fine.Erases f coarse) (state : τ) (r : Ring α) (total : Nat) :
    (r.pushRest fine state total).mapState f = r.pushRest coarse (f state) total :=
  (pushRest_parallel hc.parallel rfl r total).mapState_eq

theorem writeTo_erase (hc : fine.Erases f coarse) (state : τ) (r : Ring α) :
    (r.writeTo fine state).mapState f = r.writeTo coarse (f state) :=
  pushRest_erase hc state r.forget 0

/-- What a push leaves, read off its offers. -/
theorem writeTo_eq {r : Ring α} (h : r.Valid) (consumer : Consumer σ α) (state : σ) :
    (r.writeTo consumer state).ring =
        (consumer.offers state r.runs).foldl settleOffer r.forget ∧
      (r.writeTo consumer state).state = stateAfter state (consumer.offers state r.runs) ∧
      (r.writeTo consumer state).answer = settlement (consumer.offers state r.runs) := by
  obtain ⟨hstate, hring, hanswer⟩ := pushRest_recorded h.forget consumer (state, []) 0
  have herase := writeTo_erase consumer.recorded_erases (state, []) r
  rw [← herase]
  refine ⟨hring, congrArg Prod.fst hstate, hanswer.trans ?_⟩
  change Except.map _ (settlement (consumer.offers state r.runs)) = _
  cases settlement (consumer.offers state r.runs) with
  | error failure => rfl
  | ok count => exact congrArg Except.ok (Nat.zero_add count)

/-! ### What is left -/

/-- An offer consumes what is accepted of its run, and clears the marker if that is nothing. -/
theorem settleOffer_consume {r : Ring α} (h : r.Valid) {n : Nat} {x : Offer σ α}
    (hn : n + x.run.length ≤ r.count) :
    (r.consume n).settleOffer x =
      if x.idle then (r.consume n).forget else r.consume (n + x.taken.length) := by
  unfold settleOffer Offer.idle Offer.taken
  cases x.receipt.answer with
  | error failure => rfl
  | ok count =>
      dsimp only
      rcases Nat.eq_zero_or_pos count with rfl | hpos
      · rw [if_neg (Nat.not_lt_zero _), consume_zero (h.consume (by omega))]
        rfl
      · have hidle : ¬ decide (count = 0) = true := by simpa using Nat.ne_of_gt hpos
        rw [if_neg hidle]
        rcases Nat.lt_or_ge x.run.length count with hover | hle
        · rw [if_pos hover, if_pos hover]
          rfl
        · rw [if_neg (Nat.not_lt.mpr hle), if_neg (Nat.not_lt.mpr hle), consume_consume _ _ hpos,
            List.length_take, Nat.min_eq_left hle]

/-- From a ring that has given `n` items, the offers consume what is accepted of them all. -/
theorem foldl_settleOffer {r : Ring α} (h : r.Valid) {n : Nat} (hn : n ≤ r.count)
    {runs : List (List α)} (hr : (r.consume n).runs = runs) (consumer : Consumer σ α) (state : σ) :
    (consumer.offers state runs).foldl settleOffer (r.consume n) =
      if stalled (consumer.offers state runs) then
        (r.consume (n + (takenOf (consumer.offers state runs)).length)).forget
      else r.consume (n + (takenOf (consumer.offers state runs)).length) := by
  induction runs generalizing n state with
  | nil => rfl
  | cons run runs ih =>
      have hv := h.consume hn
      have h0 : (r.consume n).count ≠ 0 := by
        intro h0
        rw [runs_eq_nil h0] at hr
        cases hr
      obtain ⟨hne, hcons⟩ := runs_eq_cons hv h0
      have hle := segment_le_count hv
      rw [hr] at hcons
      obtain ⟨hrun, hrest⟩ := List.cons.inj hcons
      rw [← hrun] at hne hle hrest
      change run.length ≤ r.count - n at hle
      have hpos : 0 < run.length := List.length_pos_iff.mpr hne
      have hone := settleOffer_consume h (x := ⟨run, consumer state run⟩) (n := n) (by
        change n + run.length ≤ r.count
        omega)
      cases hfull : Offer.inFull ⟨run, consumer state run⟩ with
      | false =>
          rw [Consumer.offers_of_not_inFull hfull, List.foldl_cons, List.foldl_nil, hone,
            takenOf_cons]
          change (if Offer.idle ⟨run, consumer state run⟩ then _ else _) =
            if Offer.idle ⟨run, consumer state run⟩ then _ else _
          split
          · next hidle => simp [Offer.taken_of_idle hidle, takenOf]
          · simp [takenOf]
      | true =>
          rw [Offer.idle_of_inFull hfull hne, Offer.taken_of_inFull hfull] at hone
          rw [consume_consume _ _ hpos] at hrest
          rw [Consumer.offers_of_inFull hfull, List.foldl_cons, hone, stalled_cons hfull hne,
            takenOf_cons, Offer.taken_of_inFull hfull, List.length_append, ← Nat.add_assoc]
          exact ih (by omega) hrest.symm _

/-- A push consumes what is accepted over all its offers. A push that stalls clears the marker
with its last one. -/
theorem ring_writeTo {r : Ring α} (h : r.Valid) (consumer : Consumer σ α) (state : σ) :
    (r.writeTo consumer state).ring =
      if stalled (consumer.offers state r.runs) then
        (r.consume (takenOf (consumer.offers state r.runs)).length).forget
      else r.consume (takenOf (consumer.offers state r.runs)).length := by
  obtain ⟨hring, -, -⟩ := writeTo_eq h consumer state
  have hruns : (r.consume 0).runs = r.runs := by
    rw [consume_zero h]
    rfl
  rw [hring, ← consume_zero h, foldl_settleOffer h (Nat.zero_le _) hruns, Nat.zero_add]

/-! ### What is taken -/

/-- The ring `after` is `r` without the items in `taken`: they are not moved in storage. -/
structure Gave [Inhabited α] (r : Ring α) (taken : List α) (after : Ring α) : Prop where
  slots_eq : after.slots = r.slots
  tail_eq : after.tail = r.tail
  unread_eq : r.unread = taken ++ after.unread

section Taken

variable [Inhabited α] {r after last : Ring α} {taken others : List α}

theorem Gave.refl (r : Ring α) : r.Gave [] r := ⟨rfl, rfl, rfl⟩

theorem Gave.trans (h : r.Gave taken after) (h' : after.Gave others last) :
    r.Gave (taken ++ others) last :=
  ⟨h'.slots_eq.trans h.slots_eq, h'.tail_eq.trans h.tail_eq, by
    rw [h.unread_eq, h'.unread_eq, List.append_assoc]⟩

omit [Inhabited α] in
theorem tail_consume (r : Ring α) {n : Nat} (hn : n ≤ r.count) : (r.consume n).tail = r.tail := by
  unfold tail consume capacity
  dsimp only
  rw [Nat.mod_add_mod, Nat.add_assoc, Nat.add_sub_cancel' hn]

theorem gave_consume {n : Nat} (hn : n ≤ r.count) (ht : taken <+: r.unread)
    (hl : taken.length = n) : r.Gave taken (r.consume n) := by
  refine ⟨rfl, r.tail_consume hn, ?_⟩
  rw [unread_consume r hn, ← hl, List.prefix_iff_eq_append.mp ht]

omit [Inhabited α] in
theorem settleOffer_of_inFull (r : Ring α) {x : Offer σ α} (h : x.inFull = true) :
    r.settleOffer x = r.consume x.run.length := by
  unfold settleOffer
  rw [Offer.inFull_iff.mp h]
  exact if_neg (Nat.lt_irrefl _)

/-- An offer of the first run takes what it accepts. -/
theorem gave_settleOffer (h : r.Valid) {x : Offer σ α} (hx : x.run = r.segments.1) :
    r.Gave x.taken (r.settleOffer x) := by
  have hrun : x.run <+: r.unread := by
    rw [hx, ← segments_append h]
    exact List.prefix_append _ _
  have hcount : x.run.length ≤ r.count := by rw [hx]; exact segment_le_count h
  unfold Offer.taken settleOffer
  split
  · next count ha =>
      split
      · exact .refl r
      · next hle =>
          refine gave_consume (by omega) ((List.take_prefix _ _).trans hrun) ?_
          rw [List.length_take]
          omega
  · exact .refl r

/-- All offers together take what each accepts. -/
theorem gave_offers {runs : List (List α)} (h : r.Valid) (hr : r.runs = runs)
    (consumer : Consumer σ α) (state : σ) :
    r.Gave (takenOf (consumer.offers state runs))
      ((consumer.offers state runs).foldl settleOffer r) := by
  induction runs generalizing r state with
  | nil => exact .refl r
  | cons run runs ih =>
      have h0 : r.count ≠ 0 := by
        intro h0
        rw [runs_eq_nil h0] at hr
        cases hr
      obtain ⟨-, hcons⟩ := runs_eq_cons h h0
      rw [hr] at hcons
      obtain ⟨rfl, hrest⟩ := List.cons.inj hcons
      have hfirst := gave_settleOffer h (x := ⟨r.segments.1, consumer state r.segments.1⟩) rfl
      cases hfull : Offer.inFull ⟨r.segments.1, consumer state r.segments.1⟩ with
      | false =>
          rw [Consumer.offers_of_not_inFull hfull, takenOf_cons]
          simpa [takenOf] using hfirst
      | true =>
          rw [Consumer.offers_of_inFull hfull, takenOf_cons, List.foldl_cons]
          rw [r.settleOffer_of_inFull hfull] at hfirst ⊢
          exact hfirst.trans (ih (h.consume (segment_le_count h)) hrest.symm _)

theorem length_takenOf_le (h : r.Valid) (consumer : Consumer σ α) (state : σ) :
    (takenOf (consumer.offers state r.runs)).length ≤ r.count := by
  have hl := congrArg List.length (gave_offers h rfl consumer state).unread_eq
  rw [length_unread, List.length_append] at hl
  omega

end Taken

end Ring

/-! ### Pushes that are accepted in full -/

/-- A consumer that accepts every run in full accepts those that it is offered. -/
theorem Consumer.inFull_of_mem {consumer : Consumer σ α}
    (hc : ∀ state run, (consumer state run).answer = .ok run.length) (state : σ)
    (runs : List (List α)) : ∀ x ∈ consumer.offers state runs, x.inFull = true := by
  induction runs generalizing state with
  | nil => simp [Consumer.offers]
  | cons run runs ih =>
      have hfull : Offer.inFull ⟨run, consumer state run⟩ = true := Offer.inFull_iff.mpr (hc _ _)
      rw [Consumer.offers_of_inFull hfull]
      intro x hx
      rcases List.mem_cons.mp hx with rfl | hx
      · exact hfull
      · exact ih _ x hx

theorem stalled_of_inFull {offers : List (Offer σ α)} (hf : ∀ x ∈ offers, x.inFull = true)
    (hne : ∀ x ∈ offers, x.run ≠ []) : stalled offers = false := by
  unfold stalled
  cases hlast : offers.getLast? with
  | none => rfl
  | some last =>
      have hmem := List.mem_of_getLast? hlast
      exact Offer.idle_of_inFull (hf last hmem) (hne last hmem)

/-- If all offers are accepted in full, all runs are offered and taken. -/
theorem takenOf_of_inFull {consumer : Consumer σ α} {state : σ} {runs : List (List α)}
    (hf : ∀ x ∈ consumer.offers state runs, x.inFull = true) :
    takenOf (consumer.offers state runs) = runs.flatten := by
  induction runs generalizing state with
  | nil => rfl
  | cons run runs ih =>
      have hfull : Offer.inFull ⟨run, consumer state run⟩ = true := hf _ List.mem_cons_self
      rw [Consumer.offers_of_inFull hfull] at hf ⊢
      rw [takenOf_cons, Offer.taken_of_inFull hfull, List.flatten_cons,
        ih fun x hx => hf x (List.mem_cons_of_mem _ hx)]

/-! ### Failures -/

/-- Behind every offer but the last one there is one more, so it has been accepted in full. -/
theorem Consumer.inFull_of_mem_dropLast (consumer : Consumer σ α) (state : σ)
    (runs : List (List α)) :
    ∀ x ∈ (consumer.offers state runs).dropLast, x.inFull = true := by
  induction runs generalizing state with
  | nil => simp [Consumer.offers]
  | cons run runs ih =>
      cases hfull : Offer.inFull ⟨run, consumer state run⟩ with
      | false => simp [Consumer.offers_of_not_inFull hfull]
      | true =>
          rw [Consumer.offers_of_inFull hfull]
          intro x hx
          rcases eq_or_ne (consumer.offers (consumer state run).state runs) [] with hnil | hne
          · rw [hnil] at hx
            cases hx
          · rw [List.dropLast_cons_of_ne_nil hne] at hx
            rcases List.mem_cons.mp hx with rfl | hx
            · exact hfull
            · exact ih _ x hx

/-- Nothing is taken of the run with which a push fails. -/
theorem taken_of_settlement_error {offers : List (Offer σ α)} {failure : Failure}
    (h : settlement offers = .error failure) :
    ∃ earlier last, offers = earlier ++ [last] ∧ last.taken = [] := by
  rcases List.eq_nil_or_concat' offers with rfl | ⟨earlier, last, rfl⟩
  · cases h
  · refine ⟨earlier, last, rfl, ?_⟩
    unfold settlement at h
    rw [List.getLast?_concat] at h
    dsimp only at h
    unfold Offer.taken
    split at h
    · cases h
    · next ha => rw [ha]
    · next count ha =>
        split at h
        · next hover =>
            rw [ha]
            exact if_pos hover
        · cases h

/-- The run with which a push fails is not touched, and those before it are taken whole. -/
theorem takenOf_of_settlement_error {consumer : Consumer σ α} {state : σ} {runs : List (List α)}
    {failure : Failure} (h : settlement (consumer.offers state runs) = .error failure) :
    takenOf (consumer.offers state runs) =
      ((consumer.offers state runs).dropLast.map Offer.run).flatten := by
  have hpassed := consumer.inFull_of_mem_dropLast state runs
  obtain ⟨earlier, last, hoffers, hlast⟩ := taken_of_settlement_error h
  rw [hoffers, List.dropLast_concat] at hpassed ⊢
  have hmap : earlier.map Offer.taken = earlier.map Offer.run :=
    List.map_congr_left fun x hx => Offer.taken_of_inFull (hpassed x hx)
  rw [takenOf, List.flatMap_append, List.flatMap_def, hmap, List.flatMap_singleton, hlast,
    List.append_nil]

/-- The runs that are offered are the first few. -/
theorem Consumer.runs_offers (consumer : Consumer σ α) (state : σ) (runs : List (List α)) :
    (consumer.offers state runs).map Offer.run <+: runs := by
  induction runs generalizing state with
  | nil => exact List.nil_prefix
  | cons run runs ih =>
      cases hfull : Offer.inFull ⟨run, consumer state run⟩ with
      | false =>
          rw [Consumer.offers_of_not_inFull hfull]
          exact List.cons_prefix_cons.mpr ⟨rfl, List.nil_prefix⟩
      | true =>
          rw [Consumer.offers_of_inFull hfull]
          exact List.cons_prefix_cons.mpr ⟨rfl, ih _⟩

namespace Ring

theorem ne_nil_of_mem_offers {r : Ring α} {consumer : Consumer σ α} {state : σ} {x : Offer σ α}
    (hx : x ∈ consumer.offers state r.runs) : x.run ≠ [] :=
  ne_nil_of_mem_runs ((consumer.runs_offers state r.runs).subset (List.mem_map_of_mem hx))

/-- A push that is accepted in full consumes all unread items. -/
theorem ring_writeTo_of_inFull [Inhabited α] {r : Ring α} (h : r.Valid) {consumer : Consumer σ α}
    {state : σ} (hf : ∀ x ∈ consumer.offers state r.runs, x.inFull = true) :
    (r.writeTo consumer state).ring = r.consume r.count := by
  have hstalled := stalled_of_inFull hf fun x hx => ne_nil_of_mem_offers hx
  have htaken := takenOf_of_inFull hf
  rw [ring_writeTo h, hstalled, htaken, flatten_runs h, length_unread]
  rfl

/-- A push that notes its offers ends with all of them. -/
theorem state_writeTo_recorded {r : Ring α} (h : r.Valid) (consumer : Consumer σ α) (state : σ) :
    (r.writeTo consumer.recorded (state, [])).state =
      (stateAfter state (consumer.offers state r.runs), consumer.offers state r.runs) :=
  (pushRest_recorded h.forget consumer (state, []) 0).1

/-- A push takes what is accepted over all its offers. -/
theorem gave_writeTo [Inhabited α] {r : Ring α} (h : r.Valid) (consumer : Consumer σ α)
    (state : σ) : r.Gave (takenOf (consumer.offers state r.runs)) (r.writeTo consumer state).ring := by
  have hforget : r.Gave [] r.forget := ⟨rfl, rfl, rfl⟩
  rw [(writeTo_eq h consumer state).1]
  exact hforget.trans (gave_offers h.forget rfl consumer state)

/-- **A push removes what its consumer takes, and nothing else**, whatever the consumer answers.
It offers the unread items in one or two runs, the second if the first is accepted in full. The
items it removes are those that are accepted, from the front; the others are still unread, and
neither the slots nor the write cursor change. `settlement` reads the answer off the receipts: of
the run with which a push fails nothing is removed, of those before it everything. -/
theorem writeTo_offers [Inhabited α] {r : Ring α} (h : r.Valid) (consumer : Consumer σ α)
    (state : σ) :
    ∃ offers, offers = consumer.offers state r.runs ∧
      (r.writeTo consumer.recorded (state, [])).state = (stateAfter state offers, offers) ∧
      (r.writeTo consumer.recorded (state, [])).mapState Prod.fst = r.writeTo consumer state ∧
      offers.length ≤ 2 ∧ (∀ x ∈ offers, x.run ≠ []) ∧
      r.unread = takenOf offers ++ (r.writeTo consumer state).ring.unread ∧
      (r.writeTo consumer state).answer = settlement offers ∧
      (∀ failure, settlement offers = .error failure →
        takenOf offers = (offers.dropLast.map Offer.run).flatten) ∧
      (r.writeTo consumer state).ring.slots = r.slots ∧
      (r.writeTo consumer state).ring.tail = r.tail := by
  obtain ⟨hring, -, hanswer⟩ := writeTo_eq h consumer state
  obtain ⟨hstate, -, -⟩ := pushRest_recorded h.forget consumer (state, []) 0
  have hforget : r.Gave [] r.forget := ⟨rfl, rfl, rfl⟩
  have hgave : r.Gave (takenOf (consumer.offers state r.runs))
      ((consumer.offers state r.runs).foldl settleOffer r.forget) :=
    hforget.trans (gave_offers h.forget rfl consumer state)
  have hshown := consumer.runs_offers state r.runs
  rw [← hring] at hgave
  refine ⟨consumer.offers state r.runs, rfl, hstate, writeTo_erase consumer.recorded_erases _ r,
    ?_, ?_, hgave.unread_eq, hanswer, ?_, hgave.slots_eq, hgave.tail_eq⟩
  · have hle := hshown.length_le
    rw [List.length_map] at hle
    exact hle.trans r.length_runs_le
  · intro x hx
    exact ne_nil_of_mem_runs (hshown.subset (List.mem_map_of_mem hx))
  · intro failure hf
    exact takenOf_of_settlement_error hf

/-- Takes the first run in full, and then counts one item more than it is offered. -/
def greedy : Consumer Nat Nat := fun seen run =>
  ⟨seen + 1, [], .ok (if seen = 0 then run.length else run.length + 1)⟩

/-- The run that goes on at slot 0 is left, the one up to the last slot is taken. -/
theorem writeTo_offers_greedy :
    (⟨[5, 6, 7], 2, 3, false⟩ : Ring Nat).Valid ∧
      [7, 5, 6] = [7] ++ ((⟨[5, 6, 7], 2, 3, false⟩ : Ring Nat).writeTo greedy 0).ring.unread ∧
      ((⟨[5, 6, 7], 2, 3, false⟩ : Ring Nat).writeTo greedy 0).answer =
        .error (.countOutOfRange 3 2) ∧
      ((⟨[5, 6, 7], 2, 3, false⟩ : Ring Nat).writeTo greedy 0).ring.slots = [5, 6, 7] := by
  have hv : (⟨[5, 6, 7], 2, 3, false⟩ : Ring Nat).Valid :=
    ⟨by decide, by decide, by decide, by decide⟩
  obtain ⟨offers, rfl, -, -, -, -, hunread, hanswer, -, hslots, -⟩ := writeTo_offers hv greedy 0
  exact ⟨hv, hunread, hanswer, hslots⟩

end Ring

end Carousel
