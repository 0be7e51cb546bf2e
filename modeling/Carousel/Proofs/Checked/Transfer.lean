import Carousel.Proofs.Checked.Ring
import Carousel.Proofs.Invariant
import Carousel.Proofs.Offers
import Carousel.Proofs.Pull
import Carousel.Proofs.Supply

/-! # Transfers in checked steps

Committing run by run, pulling, and pushing once more, in checked steps, and what a stage makes of
them. Producers, consumers and observers may answer anything; no step fails as long as the items
that a pull has accepted can be counted in 64 bits (`Ring.pulledWithin`).

A loop of which it has to be shown that it ends is given a number of turns, and taking one more is
a fault. -/

namespace Carousel

variable {σ α : Type}

open Checked

namespace Ring

/-! ### Committing run by run -/

/-- Stores a lap of items from the write cursor on, accounts for it, and reads it back. -/
def commitChecked (r : Ring α) (tail lap : Nat) (run : List α) : Checked (Ring α × List α) := do
  let stop ← add tail lap
  let slots ← copy r.slots tail stop run
  let committed ← advanceChecked { r with slots := slots, canUnread := false } lap
  let stored ← slice committed.slots tail stop
  return (committed, stored)

def writeLapsChecked (watch : Observer σ α) :
    (turns : Nat) → σ → Ring α → List α → Checked (Outcome σ α Unit)
  | _, state, r, [] => .ok ⟨r, state, [], .ok ()⟩
  | 0, _, _, _ :: _ => .error .endless
  | turns + 1, state, r, item :: items => do
    let tail ← r.tailChecked
    let room ← sub r.capacity tail
    let lap := min room (item :: items).length
    let parts ← split (item :: items) lap
    let (committed, run) ← r.commitChecked tail lap parts.1
    let evicted := Trace.ofOwn (r.overflow lap)
    let verdict := watch state committed run
    match verdict.answer with
    | .error failure =>
      return ⟨committed, verdict.state, evicted ++ verdict.trace, .error failure⟩
    | .ok () =>
      let later ← writeLapsChecked watch turns verdict.state committed parts.2
      return later.after (evicted ++ verdict.trace)

/-! ### Pulling -/

/-- The free slots that are offered, as where they start and where they end. -/
def vacancyChecked (r : Ring α) : Checked (Nat × Nat) := do
  ensure (r.isFull = false)
  let tail ← r.tailChecked
  return (tail, if tail < r.head then r.head else r.capacity)

def pullInPlaceChecked (produce : Producer σ α) (watch : Observer σ α) (state : σ) (r : Ring α) :
    Checked (Outcome σ α (Option Nat)) := do
  let (start, stop) ← r.vacancyChecked
  let offered ← slice r.slots start stop
  let d := produce state offered
  let slots ← copy r.slots start stop (d.buffer offered)
  let filled := { r with slots := slots }
  match d.accepted offered.length with
  | .error failure => return ⟨filled, d.state, [], .error failure⟩
  | .ok none => return ⟨filled, d.state, [], .ok none⟩
  | .ok (some 0) => return ⟨filled, d.state, [], .ok (some 0)⟩
  | .ok (some n) =>
    let committed ← advanceChecked { filled with canUnread := false } n
    let beyond ← add start n
    let run ← slice committed.slots start beyond
    let verdict := watch d.state committed run
    return ⟨committed, verdict.state, Trace.ofOwn (filled.overflow n) ++ verdict.trace,
      verdict.answer.map fun _ => some n⟩

def pullStagedChecked (produce : Producer σ α) (watch : Observer σ α) (state : σ) (r : Ring α)
    (staging : List α) : Checked (Outcome σ α (Option Nat) × List α) := do
  let d := produce state staging
  let staging' := d.buffer staging
  match d.accepted staging.length with
  | .error failure => return (⟨r, d.state, [], .error failure⟩, staging')
  | .ok none => return (⟨r, d.state, [], .ok none⟩, staging')
  | .ok (some 0) => return (⟨r, d.state, [], .ok (some 0)⟩, staging')
  | .ok (some n) =>
    let chunk ← slice staging' 0 n
    let o ← r.writeLapsChecked watch chunk.length d.state chunk
    return (⟨o.ring, o.state, o.trace, o.answer.map fun _ => some n⟩, staging')

def pullOnceChecked [Inhabited α] (produce : Producer σ α) (watch : Observer σ α) (state : σ)
    (r : Ring α) (staging : List α) : Checked (Outcome σ α (Option Nat) × List α) :=
  if r.isFull then
    let staging := if staging.isEmpty then List.replicate r.capacity default else staging
    r.pullStagedChecked produce watch state staging
  else do
    let o ← r.pullInPlaceChecked produce watch state
    return (o, staging)

def pullFromChecked [Inhabited α] (produce : Producer σ α) (watch : Observer σ α) :
    (limit : Nat) → σ → Ring α → Progress α → Checked (Option (Outcome σ α Nat))
  | 0, _, _, _ => .ok none
  | limit + 1, state, r, p => do
    let (o, staging) ← r.pullOnceChecked produce watch state p.staging
    match o.answer with
    | .error failure => return some ⟨o.ring, o.state, o.trace, .error failure⟩
    | .ok none =>
      return some ⟨o.ring, o.state, o.trace ++ Trace.ofOwn [.pullFinished p.total], .ok p.total⟩
    | .ok (some 0) =>
      let idle ← add p.idle 1
      if maxEmptyReads ≤ idle then
        return some ⟨o.ring, o.state, o.trace, .error (.noProgress idle)⟩
      else
        let later ← pullFromChecked produce watch limit o.state o.ring ⟨p.total, idle, staging⟩
        return later.map (·.after o.trace)
    | .ok (some n) =>
      let total ← add p.total n
      let later ← pullFromChecked produce watch limit o.state o.ring ⟨total, 0, staging⟩
      return later.map (·.after o.trace)

/-- The number of items accepted once a pull has ended, or has made its limit of calls. -/
def pulledWithin [Inhabited α] (produce : Producer σ α) (watch : Observer σ α) :
    (limit : Nat) → σ → Ring α → Progress α → Nat
  | 0, _, _, p => p.total
  | limit + 1, state, r, p =>
    let (o, staging) := r.pullOnce produce watch state p.staging
    match o.answer with
    | .error _ => p.total
    | .ok none => p.total
    | .ok (some 0) =>
      if maxEmptyReads ≤ p.idle + 1 then p.total
      else pulledWithin produce watch limit o.state o.ring ⟨p.total, p.idle + 1, staging⟩
    | .ok (some n) => pulledWithin produce watch limit o.state o.ring ⟨p.total + n, 0, staging⟩

def pullChecked [Inhabited α] (produce : Producer σ α) (watch : Observer σ α) (limit : Nat)
    (state : σ) (r : Ring α) : Checked (Option (Outcome σ α Nat)) :=
  r.pullFromChecked produce watch limit state ⟨0, 0, []⟩

/-! ### Pushing -/

def pushRestChecked (consumer : Consumer σ α) :
    (turns : Nat) → σ → Ring α → (total : Nat) → Checked (Outcome σ α Nat)
  | turns, state, r, total =>
    if r.count = 0 then .ok ⟨r, state, [], .ok total⟩
    else
      match turns with
      | 0 => .error .endless
      | turns + 1 => do
        let runs ← r.segmentsChecked
        let offered := runs.1.length
        let receipt := consumer state runs.1
        let reports := Trace.ofForeign receipt.events
        match receipt.answer with
        | .error .endOfData =>
          return ⟨r, receipt.state, reports ++ Trace.ofOwn [.pushEnded total], .ok total⟩
        | .error failure => return ⟨r, receipt.state, reports, .error failure⟩
        | .ok accepted =>
          if offered < accepted then
            return ⟨r, receipt.state, reports, .error (.countOutOfRange accepted offered)⟩
          else
            let after ← r.consumeChecked accepted
            let total ← add total accepted
            if accepted < offered then
              return ⟨after, receipt.state,
                reports ++ Trace.ofOwn [.pushShort total offered accepted], .ok total⟩
            else
              let later ← pushRestChecked consumer turns receipt.state after total
              return later.after reports

def writeToChecked (consumer : Consumer σ α) (state : σ) (r : Ring α) : Checked (Outcome σ α Nat) :=
  pushRestChecked consumer r.count state r.forget 0

/-! ### No step fails -/

theorem Addressable.of_keeps {r after : Ring α} (ha : r.Addressable) (hk : r.Keeps after) :
    after.Addressable := by
  unfold Addressable
  rwa [hk.capacity_eq]

theorem total_le_pulledWithin [Inhabited α] (produce : Producer σ α) (watch : Observer σ α)
    (limit : Nat) (state : σ) (r : Ring α) (p : Progress α) :
    p.total ≤ r.pulledWithin produce watch limit state p := by
  induction limit generalizing state r p with
  | zero => exact Nat.le_refl _
  | succ limit ih =>
      unfold pulledWithin
      dsimp only
      split
      · exact Nat.le_refl _
      · exact Nat.le_refl _
      · split
        · exact Nat.le_refl _
        · exact ih _ _ ⟨p.total, p.idle + 1, _⟩
      · exact Nat.le_trans (Nat.le_add_right _ _) (ih _ _ ⟨p.total + _, 0, _⟩)

/-- What a lap cuts off has at least one item, and the rest begins behind it. -/
theorem lap_cons {room : Nat} (hroom : 0 < room) (item : α) (items : List α) :
    (item :: items).take (min room (item :: items).length) = item :: items.take (room - 1) ∧
      (item :: items).drop (min room (item :: items).length) = items.drop (room - 1) := by
  obtain ⟨room, rfl⟩ := Nat.exists_eq_succ_of_ne_zero (Nat.ne_of_gt hroom)
  rw [← List.take_eq_take_min, ← List.drop_eq_drop_min]
  exact ⟨rfl, rfl⟩

section

variable {r : Ring α} (h : r.Valid) (ha : r.Addressable)

include h ha

theorem commitChecked_eq {run : List α} (hfits : r.tail + run.length ≤ r.capacity) :
    r.commitChecked r.tail run.length run =
      .ok (r.commit run, window (r.commit run).slots r.tail run.length) := by
  have hsum : r.tail + run.length < UInt64.size :=
    ha.sum_lt (Nat.le_of_lt h.tail_lt) (show run.length ≤ r.capacity by omega)
  have hcopy : copy r.slots r.tail (r.tail + run.length) run = .ok (overlay r.slots r.tail run) :=
    copy_ok (Nat.le_add_right _ _) hfits (Nat.add_sub_cancel_left _ _).symm
  have hstored : advanceChecked
      { r with slots := overlay r.slots r.tail run, canUnread := false } run.length =
        .ok (r.commit run) :=
    advanceChecked_stored h ha (length_overlay hfits) (by omega)
  have hend : r.tail + run.length ≤ (r.commit run).slots.length :=
    Nat.le_trans hfits (Nat.le_of_eq (capacity_commit hfits).symm)
  simp only [commitChecked, add_ok hsum, ok_bind, hcopy, hstored,
    slice_ok (Nat.le_add_right _ _) hend, Nat.add_sub_cancel_left]
  rfl

/-- Every turn but the last stores an item. -/
theorem writeLapsChecked_eq (watch : Observer σ α) (state : σ) (items : List α) {turns : Nat}
    (ht : items.length ≤ turns) :
    r.writeLapsChecked watch turns state items = .ok (r.writeLaps watch state items) := by
  induction turns generalizing r state items with
  | zero =>
      rw [List.length_eq_zero_iff.mp (Nat.le_zero.mp ht), writeLapsChecked, writeLaps]
  | succ turns ih =>
      cases items with
      | nil => rw [writeLapsChecked, writeLaps]
      | cons item items =>
          have htail := h.tail_lt
          have hroom : 0 < r.capacity - r.tail := Nat.sub_pos_of_lt htail
          have hfits := first_run_fits h item items
          obtain ⟨hrun, hrest⟩ := lap_cons hroom item items
          have hlap : min (r.capacity - r.tail) (item :: items).length =
              (item :: items.take (r.capacity - r.tail - 1)).length := by
            rw [← hrun, List.length_take]
            omega
          have hsplit : split (item :: items) (min (r.capacity - r.tail) (item :: items).length) =
              .ok (item :: items.take (r.capacity - r.tail - 1),
                items.drop (r.capacity - r.tail - 1)) := by
            rw [split_ok (Nat.min_le_right _ _), hrun, hrest]
          rw [writeLapsChecked, writeLaps]
          simp only [tailChecked_eq h ha, ok_bind, sub_ok (Nat.le_of_lt htail), hsplit]
          rw [hlap]
          generalize item :: items.take (r.capacity - r.tail - 1) = run at hfits ⊢
          simp only [commitChecked_eq h ha hfits, ok_bind]
          generalize watch state (r.commit run) _ = verdict
          rcases verdict with ⟨next, trace, failure | ⟨⟩⟩
          · rfl
          · have hk : r.Keeps (r.commit run) := ⟨h.commit hfits, capacity_commit hfits⟩
            have hleft : (items.drop (r.capacity - r.tail - 1)).length ≤ turns := by
              rw [List.length_cons] at ht
              rw [List.length_drop]
              omega
            simp only [ih hk.valid (ha.of_keeps hk) _ _ hleft, ok_bind]
            rfl

theorem vacancyChecked_eq (hf : r.isFull = false) :
    r.vacancyChecked = .ok (r.tail, r.tail + r.vacancy) := by
  have htail := h.tail_lt
  have hstop : (if r.tail < r.head then r.head else r.capacity) = r.tail + r.vacancy := by
    unfold vacancy
    split <;> omega
  unfold vacancyChecked
  simp only [ensure_ok hf, ok_bind, tailChecked_eq h ha, hstop]
  rfl

theorem pullInPlaceChecked_eq (hf : r.isFull = false) (produce : Producer σ α)
    (watch : Observer σ α) (state : σ) :
    r.pullInPlaceChecked produce watch state = .ok (r.pullInPlace produce watch state) := by
  have htail := h.tail_lt
  have hfits := tail_add_vacancy_le h
  have hslice : slice r.slots r.tail (r.tail + r.vacancy) =
      .ok (window r.slots r.tail r.vacancy) := by
    rw [slice_ok (Nat.le_add_right _ _) hfits, Nat.add_sub_cancel_left]
  have hoffered : (window r.slots r.tail r.vacancy).length = r.vacancy := length_window hfits
  unfold pullInPlaceChecked pullInPlace
  simp only [vacancyChecked_eq h ha hf, ok_bind, hslice, hoffered]
  generalize produce state (window r.slots r.tail r.vacancy) = d
  have hbuffer : (d.buffer (window r.slots r.tail r.vacancy)).length = r.vacancy := by
    rw [Delivery.buffer, length_cover, hoffered]
  generalize d.buffer (window r.slots r.tail r.vacancy) = buffer at hbuffer ⊢
  have hstored : (overlay r.slots r.tail buffer).length = r.slots.length :=
    length_overlay (by rw [hbuffer]; exact hfits)
  have hcopy : copy r.slots r.tail (r.tail + r.vacancy) buffer =
      .ok (overlay r.slots r.tail buffer) :=
    copy_ok (Nat.le_add_right _ _) hfits (by rw [hbuffer, Nat.add_sub_cancel_left])
  simp only [hcopy, ok_bind]
  rcases haccepted : d.accepted r.vacancy with failure | _ | _ | n
  · rfl
  · rfl
  · rfl
  · have hn : n + 1 ≤ r.vacancy := Delivery.le_of_accepted haccepted
    have hcap : ({ r with slots := overlay r.slots r.tail buffer } : Ring α).capacity =
        r.capacity := hstored
    have hend : r.tail + (n + 1) ≤ ((advance { r with slots := overlay r.slots r.tail buffer }
        (n + 1)).forget).capacity := by
      rw [capacity_forget, capacity_advance, hcap]
      omega
    simp only [advanceChecked_stored h ha hstored (show n + 1 ≤ r.capacity by omega), ok_bind,
      add_ok (ha.sum_lt (Nat.le_of_lt htail) (show n + 1 ≤ r.capacity by omega)),
      slice_ok (Nat.le_add_right _ _) hend, Nat.add_sub_cancel_left]
    rfl

theorem pullStagedChecked_eq (produce : Producer σ α) (watch : Observer σ α) (state : σ)
    (staging : List α) :
    r.pullStagedChecked produce watch state staging =
      .ok (r.pullStaged produce watch state staging) := by
  unfold pullStagedChecked pullStaged
  dsimp only
  generalize produce state staging = d
  have hbuffer : (d.buffer staging).length = staging.length := length_cover _ _
  generalize d.buffer staging = buffer at hbuffer ⊢
  rcases haccepted : d.accepted staging.length with failure | _ | _ | n
  · rfl
  · rfl
  · simp only [List.take_zero, writeLaps]
    rfl
  · have hn : n + 1 ≤ buffer.length := by
      rw [hbuffer]
      exact Delivery.le_of_accepted haccepted
    simp only [slice_front hn, ok_bind, writeLapsChecked_eq h ha _ _ _ (Nat.le_refl _)]
    rfl

theorem pullOnceChecked_eq [Inhabited α] (produce : Producer σ α) (watch : Observer σ α)
    (state : σ) (staging : List α) :
    r.pullOnceChecked produce watch state staging =
      .ok (r.pullOnce produce watch state staging) := by
  unfold pullOnceChecked pullOnce
  cases hf : r.isFull with
  | true => exact pullStagedChecked_eq h ha _ _ _ _
  | false =>
      simp only [pullInPlaceChecked_eq h ha hf, ok_bind]
      rfl

/-- Between two calls, the empty answers in a row are fewer than those at which the pull gives up,
and no total is more than the last one. -/
theorem pullFromChecked_eq [Inhabited α] (produce : Producer σ α) (watch : Observer σ α)
    {limit : Nat} {state : σ} {p : Progress α} (hidle : p.idle < maxEmptyReads)
    (ht : r.pulledWithin produce watch limit state p < UInt64.size) :
    r.pullFromChecked produce watch limit state p =
      .ok (r.pullFrom produce watch limit state p) := by
  induction limit generalizing r state p with
  | zero => rfl
  | succ limit ih =>
      have hk : r.Keeps (r.pullOnce produce watch state p.staging).1.ring :=
        ⟨h.pullOnce _, capacity_pullOnce h _⟩
      have ih {next : σ} {q : Progress α} :=
        @ih _ hk.valid (ha.of_keeps hk) next q
      unfold pulledWithin at ht
      unfold pullFromChecked pullFrom
      simp only [pullOnceChecked_eq h ha, ok_bind]
      generalize r.pullOnce produce watch state p.staging = call at ih ht ⊢
      obtain ⟨⟨ring, state, trace, failure | _ | _ | n⟩, staging⟩ := call
      · rfl
      · rfl
      · have hsum : p.idle + 1 < UInt64.size := by
          have hmax : maxEmptyReads < UInt64.size := by decide
          omega
        simp only [add_ok hsum, ok_bind] at ht ⊢
        split
        · rfl
        · next hlt =>
            rw [if_neg hlt] at ht
            simp only [ih (Nat.lt_of_not_le hlt) ht, ok_bind]
            rfl
      · have hidle : 0 < maxEmptyReads := by decide
        have hsum : p.total + (n + 1) < UInt64.size :=
          Nat.lt_of_le_of_lt (total_le_pulledWithin _ _ _ _ _ ⟨p.total + (n + 1), 0, staging⟩) ht
        simp only [add_ok hsum, ok_bind, ih hidle ht]
        rfl

theorem pullChecked_eq [Inhabited α] (produce : Producer σ α) (watch : Observer σ α) {limit : Nat}
    {state : σ} (ht : r.pulledWithin produce watch limit state ⟨0, 0, []⟩ < UInt64.size) :
    r.pullChecked produce watch limit state = .ok (r.pull produce watch limit state) := by
  have hidle : 0 < maxEmptyReads := by decide
  exact pullFromChecked_eq h ha produce watch hidle ht

/-- Every turn but the last consumes an item, and the total counts what is consumed. -/
theorem pushRestChecked_eq (consumer : Consumer σ α) (state : σ) {total turns : Nat}
    (hturns : r.count ≤ turns) (htotal : total + r.count ≤ r.capacity) :
    r.pushRestChecked consumer turns state total = .ok (r.pushRest consumer state total) := by
  induction turns generalizing r state total with
  | zero =>
      have h0 : r.count = 0 := Nat.le_zero.mp hturns
      rw [pushRestChecked, if_pos h0, pushRest_of_nil ((segments_fst_eq_nil_iff h).mpr h0)]
  | succ turns ih =>
      rw [pushRestChecked]
      split
      · next h0 => rw [pushRest_of_nil ((segments_fst_eq_nil_iff h).mpr h0)]
      · next h0 =>
          obtain ⟨item, items, hs⟩ :=
            List.exists_cons_of_ne_nil (mt (segments_fst_eq_nil_iff h).mp h0)
          have hrun := segment_le_count h
          rw [pushRest_of_cons hs]
          simp only [segmentsChecked_eq h ha, ok_bind]
          rw [hs] at hrun ⊢
          have hpos : 0 < (item :: items).length := Nat.succ_pos _
          generalize item :: items = run at hrun hpos ⊢
          generalize consumer state run = receipt
          obtain ⟨state, events, failure | accepted⟩ := receipt
          · cases failure <;> rfl
          · dsimp only
            split
            · rfl
            · next hle =>
                have hn : accepted ≤ r.count := by omega
                have hsum : total + accepted < UInt64.size :=
                  ha.sum_lt (show total ≤ r.capacity by omega)
                    (show accepted ≤ r.capacity from Nat.le_trans hn h.count_le)
                simp only [consumeChecked_eq h ha hn, ok_bind, add_ok hsum]
                split
                · rfl
                · next hge =>
                    have hcount : (r.consume accepted).count = r.count - accepted := rfl
                    have hturns : (r.consume accepted).count ≤ turns := by omega
                    have htotal : total + accepted + (r.consume accepted).count ≤
                        (r.consume accepted).capacity := by
                      rw [capacity_consume]
                      omega
                    have haddr : (r.consume accepted).Addressable := ha
                    simp only [ih (h.consume hn) haddr state hturns htotal, ok_bind]
                    rfl

theorem writeToChecked_eq (consumer : Consumer σ α) (state : σ) :
    r.writeToChecked consumer state = .ok (r.writeTo consumer state) :=
  pushRestChecked_eq h.forget ha consumer state (Nat.le_refl _)
    (by rw [Nat.zero_add]; exact h.count_le)

end

/-- The answer of a pull that does not fail is the number of items it has accepted. -/
theorem pulledWithin_eq [Inhabited α] {produce : Producer σ α} {watch : Observer σ α} {limit : Nat}
    {state : σ} {r : Ring α} {p : Progress α} {o : Outcome σ α Nat} {n : Nat}
    (ho : r.pullFrom produce watch limit state p = some o) (hn : o.answer = .ok n) :
    r.pulledWithin produce watch limit state p = n := by
  induction limit generalizing state r p o with
  | zero => cases ho
  | succ limit ih =>
      unfold pullFrom at ho
      unfold pulledWithin
      generalize r.pullOnce produce watch state p.staging = call at ho ⊢
      obtain ⟨⟨ring, next, trace, failure | _ | _ | count⟩, staging⟩ := call
      · cases ho
        cases hn
      · cases ho
        cases hn
        rfl
      · by_cases hlast : maxEmptyReads ≤ p.idle + 1
        · simp only [if_pos hlast] at ho
          cases ho
          cases hn
        · simp only [if_neg hlast] at ho ⊢
          obtain ⟨later, hl, rfl⟩ := Option.map_eq_some_iff.mp ho
          exact ih hl hn
      · obtain ⟨later, hl, rfl⟩ := Option.map_eq_some_iff.mp ho
        exact ih hl hn

end Ring

/-! ### Stages -/

namespace Stage

def writeChecked (s : Stage σ α) (state : σ) (items : List α) : Checked (Outcome σ α Nat) := do
  let o ← s.ring.writeLapsChecked s.filter.observer items.length state items
  return ⟨o.ring, o.state, o.trace, o.answer.map fun _ => items.length⟩

def writeItemChecked (s : Stage σ α) (state : σ) (item : α) : Checked (Outcome σ α Unit) :=
  s.ring.writeLapsChecked s.filter.observer 1 state [item]

def readFromChecked [Inhabited α] (s : Stage σ α) (produce : Producer σ α) (limit : Nat)
    (state : σ) : Checked (Option (Outcome σ α Nat)) :=
  s.ring.pullChecked produce s.filter.observer limit state

section

variable {s : Stage σ α} (h : s.ring.Valid) (ha : s.ring.Addressable)

include h ha

theorem writeChecked_eq (state : σ) (items : List α) :
    s.writeChecked state items = .ok (s.write state items) := by
  unfold writeChecked
  rw [Ring.writeLapsChecked_eq h ha _ _ _ (Nat.le_refl _), ok_bind]
  rfl

theorem writeItemChecked_eq (state : σ) (item : α) :
    s.writeItemChecked state item = .ok (s.writeItem state item) :=
  Ring.writeLapsChecked_eq h ha _ _ _ (Nat.le_refl _)

theorem readFromChecked_eq [Inhabited α] (produce : Producer σ α) {limit : Nat} {state : σ}
    (ht : s.ring.pulledWithin produce s.filter.observer limit state ⟨0, 0, []⟩ < UInt64.size) :
    s.readFromChecked produce limit state = .ok (s.readFrom produce limit state) :=
  Ring.pullChecked_eq h ha produce _ ht

end

end Stage

/-! ### Lists as producers -/

namespace Producer

def ofListChecked (items buffer : List α) : Checked (List α × List α × Except Failure Nat) :=
  if buffer.isEmpty then .ok (items, buffer, .ok 0)
  else if items.isEmpty then .ok (items, buffer, .error .endOfData)
  else do
    let n := min buffer.length items.length
    let parts ← split items n
    let buffer ← copy buffer 0 n parts.1
    return (parts.2, buffer, .ok n)

def ofQueueChecked (queue buffer : List α) : Checked (List α × List α × Except Failure Nat) :=
  if buffer.isEmpty then .ok (queue, buffer, .ok 0)
  else if queue.isEmpty then .ok (queue, buffer, .error .endOfData)
  else do
    let n := min buffer.length queue.length
    let parts ← split queue n
    -- Item by item, as long as there are slots, so that there is nothing to check.
    return (parts.2, cover buffer parts.1, .ok n)

theorem ofListChecked_eq (items buffer : List α) :
    ofListChecked items buffer = .ok ((ofList items buffer).left buffer) := by
  unfold ofListChecked ofList Delivery.left Delivery.buffer
  split
  · rw [cover_nil]
  · split
    · rw [cover_nil]
    · have hn : min buffer.length items.length ≤ items.length := Nat.min_le_right _ _
      have hb : min buffer.length items.length ≤ buffer.length := Nat.min_le_left _ _
      have htaken : (items.take (min buffer.length items.length)).length =
          min buffer.length items.length - 0 := List.length_take_of_le hn
      simp only [split_ok hn, ok_bind, copy_ok (Nat.zero_le _) hb htaken]
      rw [Ring.cover_eq_overlay (by omega)]
      rfl

theorem ofQueueChecked_eq (queue buffer : List α) :
    ofQueueChecked queue buffer = .ok ((ofQueue queue buffer).left buffer) := by
  rw [ofQueue_eq_ofList]
  unfold ofQueueChecked ofList Delivery.left Delivery.buffer
  split
  · rw [cover_nil]
  · split
    · rw [cover_nil]
    · simp only [split_ok (Nat.min_le_right _ _), ok_bind]
      rfl

end Producer

end Carousel
