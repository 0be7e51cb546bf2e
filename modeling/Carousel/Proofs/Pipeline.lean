import Carousel.Proofs.Review

/-! # Pipelines

Stages in a row, the filter of each but the last writing its runs into the next one
(`Stage.relay`). One run of a stage is cut anew at every stage behind it, and a rejection at the
end unwinds through all of them.

* `Stage.relay_took`: what a stage takes in when it is written to run by run.
* `Pipeline.sees`: what a whole pipeline takes in, by induction on its length; `Flowed` says which
  of the items have reached each stage.
* `Pipeline.write_flows`: a write to the first stage. -/

namespace Carousel

variable {σ τ α : Type}

/-- The filter that writes every run unchanged into the next stage and returns that write's
failure. -/
def Stage.relay (filter : Filter σ α) : Filter (Ring α × σ) α := fun next run =>
  let receipt := consumer filter next run
  ⟨receipt.state, receipt.events, (receipt.answer.map fun _ => ()).mapError .failure⟩

/-- The cause with which a pipeline fails whose last filter, behind `k` stages, rejects a run. -/
def Cause.relayed : (k : Nat) → Cause → Cause
  | 0, cause => cause
  | k + 1, cause => .failure (.rejected (relayed k cause))

/-- `k` stages in a row, the first one in front, and the state of the last filter. -/
def Pipeline (σ α : Type) : (k : Nat) → Type
  | 0 => σ
  | k + 1 => Ring α × Pipeline σ α k

namespace Pipeline

/-- The rings of the stages, the first one in front. -/
def rings : {k : Nat} → Pipeline σ α k → List (Ring α)
  | 0, _ => []
  | _ + 1, (r, rest) => r :: rings rest

/-- The state of the last filter. -/
def state : {k : Nat} → Pipeline σ α k → σ
  | 0, state => state
  | _ + 1, (_, rest) => state rest

/-- The same pipeline, the state of its last filter seen through `f`. -/
def map (f : σ → τ) : {k : Nat} → Pipeline σ α k → Pipeline τ α k
  | 0, state => f state
  | _ + 1, (r, rest) => (r, map f rest)

theorem length_rings : {k : Nat} → (p : Pipeline σ α k) → p.rings.length = k
  | 0, _ => rfl
  | _ + 1, (_, rest) => congrArg (· + 1) (length_rings rest)

def Valid {k : Nat} (p : Pipeline σ α k) : Prop := ∀ r ∈ p.rings, r.Valid

/-- The filter in front of `k` stages: it writes into the first of them. -/
def filter (last : Filter σ α) : (k : Nat) → Filter (Pipeline σ α k) α
  | 0 => last
  | k + 1 => Stage.relay (filter last k)

/-- Writes to the first stage. -/
def write {k : Nat} (p : Pipeline σ α (k + 1)) (last : Filter σ α) (items : List α) :
    Receipt Failure (Pipeline σ α (k + 1)) :=
  Stage.consumer (filter last k) p items

end Pipeline

/-! ### Recording changes nothing -/

theorem Stage.relay_erases {f : τ → σ} {fine : Filter τ α} {coarse : Filter σ α}
    (h : fine.Erases f coarse) : (relay fine).Erases (Prod.map id f) (relay coarse) := by
  intro whole run
  unfold relay
  rw [← consumer_erases h whole run]
  rfl

namespace Pipeline

theorem filter_erases {f : τ → σ} {fine : Filter τ α} {coarse : Filter σ α}
    (h : fine.Erases f coarse) (k : Nat) : (filter fine k).Erases (map f) (filter coarse k) := by
  induction k with
  | zero => exact h
  | succ k ih => exact Stage.relay_erases ih

theorem write_erase {f : τ → σ} {fine : Filter τ α} {coarse : Filter σ α}
    (h : fine.Erases f coarse) {k : Nat} (p : Pipeline τ α (k + 1)) (items : List α) :
    (p.write fine items).map (map f) = (p.map f).write coarse items :=
  Stage.consumer_erases (filter_erases h k) p items

end Pipeline

/-! ### One stage -/

/-- A stage rejects the run that it is shown exactly if the next one rejects a part of it. -/
theorem Stage.relay_run {whole : Ring α × σ} (h : whole.1.Valid) (filter : Filter σ α)
    (run : List α) :
    ∃ shown inner,
      filter.Took whole.1 whole.2 run shown (relay filter whole run).state.1
        (relay filter whole run).state.2 inner ∧
      (relay filter whole run).answer =
        match inner with
        | none => .ok ()
        | some cause => .error (cause.relayed 1) := by
  obtain ⟨r, state⟩ := whole
  obtain ⟨shown, inner, ht, hanswer⟩ := write_took h filter state run
  refine ⟨shown, inner, ht, ?_⟩
  unfold relay
  dsimp only at hanswer ⊢
  rw [hanswer]
  cases inner <;> rfl

/-- What a stage takes in when runs are written to it one after the other. -/
theorem Stage.relay_took {filter : Filter σ α} {whole last : Ring α × σ} {runs : List (List α)}
    {cause : Option Cause} (hs : (relay filter).Sees whole runs last cause)
    (h : whole.1.Valid) :
    ∃ shown inner, filter.Took whole.1 whole.2 runs.flatten shown last.1 last.2 inner ∧
      cause = inner.map (Cause.relayed 1) := by
  -- a run that passes has been taken whole, so what is taken of the others goes behind it
  induction hs with
  | nil whole => exact ⟨[], none, .nil filter whole.1 whole.2, rfl⟩
  | @pass whole last run runs cause accepts _ ih =>
      obtain ⟨earlier, inner, hrun, hanswer⟩ := relay_run h filter run
      rw [accepts] at hanswer
      cases inner with
      | some cause => cases hanswer
      | none =>
          obtain ⟨shown, inner, hrest, hcause⟩ := ih (hrun.valid h)
          exact ⟨earlier ++ shown, inner, hrun.append hrest, hcause⟩
  | @reject whole run cause rejects =>
      obtain ⟨shown, inner, hrun, hanswer⟩ := relay_run h filter run
      rw [rejects] at hanswer
      cases inner with
      | none => cases hanswer
      | some inner =>
          cases hanswer
          refine ⟨shown, some inner, ?_, rfl⟩
          simpa using hrun

/-! ### All stages -/

theorem zipWith_replicate_length {β γ : Type} (f : α → β → γ) (xs : List α) (y : β) :
    xs.zipWith f (List.replicate xs.length y) = xs.map fun x => f x y := by
  induction xs with
  | nil => rfl
  | cons x xs ih => exact congrArg (f x y :: ·) ih

namespace Pipeline

/-- The items have flowed through a pipeline as far as `reached`, which of them has got to each
stage: the ring of each stage has taken in what has reached it, and the last filter has been
shown what has reached the last stage. -/
structure Flowed [Inhabited α] (last : Filter σ α) {k : Nat} (p : Pipeline σ α k) (items : List α)
    (after : Pipeline σ α k) (shown reached : List (List α)) (cause : Option Cause) : Prop where
  sees : last.Sees p.state shown after.state cause
  length_reached : reached.length = k
  in_order : (items :: reached).Pairwise fun earlier later => later <+: earlier
  unread_eq : after.rings.map Ring.unread =
    p.rings.zipWith (fun r taken => (r.unread ++ taken).rtake r.capacity) reached
  shown_eq : shown.flatten = reached.getLastD items
  complete : cause = none → ∀ taken ∈ reached, taken = items
  nonempty : cause ≠ none → ∀ taken ∈ reached, taken ≠ []

variable [Inhabited α] {last : Filter σ α} {k : Nat}

/-- One stage more in front. -/
theorem Flowed.cons {r after : Ring α} {rest left : Pipeline σ α k} {items : List α}
    {runs shown reached : List (List α)} {cause inner : Option Cause} (h : r.Valid)
    (ht : (filter last k).Took r rest items runs after left cause)
    (hc : cause = inner.map (Cause.relayed k))
    (hf : rest.Flowed last runs.flatten left shown reached inner) :
    Flowed last (k := k + 1) (r, rest) items (after, left) shown (runs.flatten :: reached) inner where
  sees := hf.sees
  length_reached := congrArg (· + 1) hf.length_reached
  in_order := by
    refine List.pairwise_cons.mpr ⟨?_, hf.in_order⟩
    intro taken htaken
    rcases List.mem_cons.mp htaken with rfl | htaken
    · exact ht.in_order
    · exact (List.rel_of_pairwise_cons hf.in_order htaken).trans ht.in_order
  unread_eq := by
    have hunread := Ring.unread_writeItems h runs.flatten
    rw [← ht.ring_eq] at hunread
    exact congrArg₂ List.cons hunread hf.unread_eq
  shown_eq := by rw [hf.shown_eq, List.getLastD_cons]
  complete hnone := by
    have hruns : runs.flatten = items := ht.complete (by rw [hc, hnone, Option.map_none])
    intro taken htaken
    rcases List.mem_cons.mp htaken with rfl | htaken
    · exact hruns
    · rw [hf.complete hnone taken htaken, hruns]
  nonempty hsome := by
    intro taken htaken
    rcases List.mem_cons.mp htaken with rfl | htaken
    · obtain ⟨first, rfl⟩ := Option.ne_none_iff_exists'.mp hsome
      rw [hc] at ht
      exact ht.flatten_ne_nil
    · exact hf.nonempty hsome taken htaken

/-- What a pipeline makes of the runs that its first stage is shown. -/
theorem sees {p after : Pipeline σ α k} {runs : List (List α)} {cause : Option Cause}
    (h : p.Valid) (hs : (filter last k).Sees p runs after cause) :
    ∃ shown inner reached, p.Flowed last runs.flatten after shown reached inner ∧
      cause = inner.map (Cause.relayed k) := by
  -- the runs that a stage shows its filter are those that the stages behind it are written
  induction k generalizing runs cause with
  | zero =>
      refine ⟨runs, cause, [], ⟨hs, rfl, ?_, rfl, rfl, ?_, ?_⟩, ?_⟩
      · exact List.pairwise_singleton _ _
      · intro _ taken htaken
        cases htaken
      · intro _ taken htaken
        cases htaken
      · exact Option.map_id'.symm
  | succ k ih =>
      obtain ⟨r, rest⟩ := p
      obtain ⟨next, left⟩ := after
      have hr : r.Valid := h r List.mem_cons_self
      have hrest : Valid rest := fun x hx => h x (List.mem_cons_of_mem _ hx)
      obtain ⟨shown₁, cause₁, ht, rfl⟩ := Stage.relay_took hs hr
      obtain ⟨shown, inner, reached, hf, rfl⟩ := ih hrest ht.sees
      refine ⟨shown, inner, shown₁.flatten :: reached, .cons hr ht rfl hf, ?_⟩
      rw [Option.map_map]
      rfl

namespace Flowed

variable {p after : Pipeline σ α k} {items : List α} {shown reached : List (List α)}
  {cause : Option Cause}

/-- A beginning of the items has reached each stage. -/
theorem initial (h : p.Flowed last items after shown reached cause) {taken : List α}
    (ht : taken ∈ reached) : taken <+: items :=
  List.rel_of_pairwise_cons h.in_order ht

/-- What has reached a stage is told by how many items have. -/
theorem map_take (h : p.Flowed last items after shown reached cause) :
    (reached.map List.length).map items.take = reached := by
  rw [List.map_map]
  refine Eq.trans ?_ (List.map_id reached)
  apply List.map_congr_left
  intro taken htaken
  exact (List.prefix_iff_eq_take.mp (h.initial htaken)).symm

theorem ordered (h : p.Flowed last items after shown reached cause) :
    (reached.map List.length).Pairwise (· ≥ ·) := by
  rw [List.pairwise_map]
  exact h.in_order.of_cons.imp List.IsPrefix.length_le

theorem unread_eq_take (h : p.Flowed last items after shown reached cause) :
    after.rings.map Ring.unread =
      p.rings.zipWith (fun r n => (r.unread ++ items.take n).rtake r.capacity)
        (reached.map List.length) := by
  rw [h.unread_eq]
  nth_rewrite 1 [← h.map_take]
  rw [List.zipWith_map_right]

/-- The last filter has been shown what has reached the last stage. -/
theorem shown_eq_take (h : p.Flowed last items after shown reached cause) (hk : k ≠ 0) :
    shown.flatten = items.take ((reached.map List.length).getLastD 0) := by
  have hlength := h.length_reached
  have hshown := h.shown_eq
  rcases List.eq_nil_or_concat' reached with rfl | ⟨earlier, taken, rfl⟩
  · exact absurd hlength.symm hk
  · have htaken := h.initial (List.mem_append_right earlier List.mem_cons_self)
    rw [List.getLastD_concat] at hshown
    rw [hshown, List.map_append, List.map_singleton, List.getLastD_concat]
    exact List.prefix_iff_eq_take.mp htaken

/-- With no rejection all items have reached every stage and the last filter. -/
theorem completed (h : p.Flowed last items after shown reached none) :
    shown.flatten = items ∧
      after.rings.map Ring.unread =
        p.rings.map fun r => (r.unread ++ items).rtake r.capacity := by
  have hreached : reached = List.replicate p.rings.length items := by
    rw [List.eq_replicate_iff, length_rings]
    exact ⟨h.length_reached, h.complete rfl⟩
  constructor
  · rw [h.shown_eq, hreached]
    cases p.rings.length with
    | zero => rfl
    | succ n => rw [List.replicate_succ', List.getLastD_concat]
  · rw [h.unread_eq, hreached, zipWith_replicate_length]

end Flowed

/-- **A pipeline of any length passes every item on, in order, up to the first rejection.** Its
stages may have any capacities and hold anything, and the last filter may do and answer anything.
If it rejects nothing, the write succeeds, the last filter has been shown the items and the ring of
each stage has taken them in. If it rejects a run, the write fails with that very cause, nested
once for each stage. Each stage has then taken in the first of the items, at least one and no more
than the stage in front of it, and the last filter has been shown just those that the last stage
has taken in. -/
theorem write_flows {p : Pipeline (σ × List (List α)) α (k + 1)} (h : p.Valid) (last : Filter σ α)
    (items : List α) {o : Receipt Failure (Pipeline (σ × List (List α)) α (k + 1))}
    (ho : p.write last.recorded items = o) :
    o.map (map Prod.fst) = (p.map Prod.fst).write last items ∧
      ∃ shown cause, o.state.state.2 = p.state.2 ++ shown ∧
        last.Sees p.state.1 shown o.state.state.1 cause ∧
        match cause with
        | none =>
          o.answer = .ok items.length ∧ shown.flatten = items ∧
            o.state.rings.map Ring.unread =
              p.rings.map fun r => (r.unread ++ items).rtake r.capacity
        | some cause =>
          o.answer = .error (.rejected (cause.relayed k)) ∧
            ∃ counts : List Nat, counts.length = k + 1 ∧ counts.Pairwise (· ≥ ·) ∧
              (∀ n ∈ counts, 1 ≤ n ∧ n ≤ items.length) ∧
              shown.flatten = items.take (counts.getLastD 0) ∧
              o.state.rings.map Ring.unread =
                p.rings.zipWith (fun r n => (r.unread ++ items.take n).rtake r.capacity)
                  counts := by
  subst ho
  refine ⟨write_erase last.recorded_erases p items, ?_⟩
  obtain ⟨runs, cause, ht, hanswer⟩ :=
    Stage.write_took (h p.1 List.mem_cons_self) (filter last.recorded k) p.2 items
  obtain ⟨shown, inner, reached, hf, rfl⟩ :=
    sees (fun x hx => h x (List.mem_cons_of_mem _ hx)) ht.sees
  have hflowed : p.Flowed last.recorded items (p.write last.recorded items).state shown
    (runs.flatten :: reached) inner := Flowed.cons (h p.1 List.mem_cons_self) ht rfl hf
  obtain ⟨hlog, hsees⟩ := hflowed.sees.of_recorded
  refine ⟨shown, inner, hlog, hsees, ?_⟩
  cases inner with
  | none => exact ⟨hanswer, hflowed.completed⟩
  | some cause =>
      refine ⟨hanswer, (runs.flatten :: reached).map List.length, ?_, hflowed.ordered, ?_,
        hflowed.shown_eq_take (Nat.succ_ne_zero k), hflowed.unread_eq_take⟩
      · rw [List.length_map, hflowed.length_reached]
      · intro n hn
        obtain ⟨taken, htaken, rfl⟩ := List.mem_map.mp hn
        constructor
        · exact List.length_pos_iff.mpr (hflowed.nonempty (by simp) taken htaken)
        · exact (hflowed.initial htaken).length_le

/-- Counts what it is shown and rejects a run with a three. -/
def sieve : Filter Nat Nat := fun seen run =>
  ⟨seen + run.length, [], if 3 ∈ run then .error (.text "three") else .ok ()⟩

/-- Two stages, the first of three slots and the second of two. -/
def pair : Pipeline (Nat × List (List Nat)) Nat 2 :=
  (⟨[7, 8, 9], 2, 2, true⟩, ⟨[0, 0], 1, 0, false⟩, 0, [])

/-- The three stands at the front of a run of two at the first stage and at the end of storage at
the second: four items have reached the first one, three the second one. -/
theorem write_flows_pair :
    pair.Valid ∧ (pair.write sieve.recorded [1, 2, 3, 4, 5]).answer =
        .error (.rejected (.failure (.rejected (.text "three")))) ∧
      ∃ counts : List Nat, counts.length = 2 ∧ counts.Pairwise (· ≥ ·) ∧
        [[1], [2], [3]].flatten = [1, 2, 3, 4, 5].take (counts.getLastD 0) ∧
        (pair.write sieve.recorded [1, 2, 3, 4, 5]).state.rings.map Ring.unread =
          pair.rings.zipWith (fun r n => (r.unread ++ [1, 2, 3, 4, 5].take n).rtake r.capacity)
            counts := by
  have hv : pair.Valid := by
    intro r hr
    have hr : r = ⟨[7, 8, 9], 2, 2, true⟩ ∨ r = ⟨[0, 0], 1, 0, false⟩ := by
      simpa [pair, rings] using hr
    rcases hr with rfl | rfl <;> exact ⟨by decide, by decide, by decide, by decide⟩
  have hlog : (pair.write sieve.recorded [1, 2, 3, 4, 5]).state.state.2 = [[1], [2], [3]] := by
    decide +kernel
  obtain ⟨-, shown, cause, hshown, hsees, hend⟩ := write_flows hv sieve [1, 2, 3, 4, 5] rfl
  obtain rfl : shown = [[1], [2]] ++ [[3]] := hshown.symm.trans hlog
  obtain ⟨seen, hlast⟩ := hsees.of_last
  cases cause with
  | none => simp [sieve] at hlast
  | some cause =>
      obtain rfl : cause = .text "three" := by simpa [sieve, eq_comm] using hlast
      obtain ⟨hanswer, counts, hlength, hordered, -, hitems, hunread⟩ := hend
      exact ⟨hv, hanswer, counts, hlength, hordered, hitems, hunread⟩

end Pipeline

end Carousel
