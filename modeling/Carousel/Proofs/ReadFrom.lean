import Carousel.Proofs.Pulling

/-! # Pulling from any producer

`Ring.readFrom_transcript`: whatever a producer stores and answers, the calls of a pull tell its
answer (`ruling`) and its unread items, which are the last ones that the capacity holds of the old
ones followed by all that was accepted. -/

namespace Carousel

variable {σ α : Type}

/-- The same log without what an observer was shown. -/
def Log.callsOnly (log : Log σ α) : Log σ α := ⟨log.calls, []⟩

theorem Observer.silent_stateless : (Observer.silent : Observer σ α).Stateless := fun _ _ _ => rfl

theorem Observer.silent_rejection (shown : List (Showing σ α)) :
    (Observer.silent : Observer σ α).rejection shown = none :=
  Observer.rejection_eq_none.mpr fun _ _ => rfl

namespace Ring

variable [Inhabited α]

/-- A pull that nobody watches, with its calls recorded, and the same pull watched by an observer
that lets everything pass. -/
theorem readFrom_recorded (r : Ring α) (produce : Producer σ α) (limit : Nat) (state : σ) :
    r.readFrom produce.recorded limit (state, .empty) =
      (r.pullFrom produce.recorded Observer.silent.recorded limit (state, .empty)
        ⟨0, 0, []⟩).map (Outcome.mapState fun (state, log) => (state, log.callsOnly)) := by
  have hp : produce.recorded.Erases (fun (state, log) => (state, log.callsOnly))
    produce.recorded := fun _ _ => rfl
  have hw : (Observer.silent : Observer σ α).recorded.Erases
    (fun (state, log) => (state, log.callsOnly)) Observer.silent := fun _ _ _ => rfl
  exact (pullFrom_erase hp hw limit (state, .empty) r ⟨0, 0, []⟩).symm

theorem readFrom_erase (r : Ring α) (produce : Producer σ α) (limit : Nat) (state : σ) :
    r.readFrom produce limit state =
      (r.pullFrom produce.recorded Observer.silent.recorded limit (state, .empty)
        ⟨0, 0, []⟩).map (Outcome.mapState Prod.fst) :=
  (pullFrom_erase produce.recorded_erases Observer.silent.recorded_erases limit (state, .empty) r
    ⟨0, 0, []⟩).symm

/-- **A pull does what its calls say**, for a producer that may store anything in the buffer it is
offered and answer anything. Every buffer offered is nonempty. The pull ends with the first call
that decides its answer, and its unread items are then the last ones, up to the capacity, of the
old ones followed by all that was accepted; it gives no result only if all the calls it may make
decide nothing. -/
theorem readFrom_transcript {r : Ring α} (h : r.Valid) (produce : Producer σ α) (limit : Nat)
    (state : σ) :
    ∃ calls final, Conversation produce state calls final ∧
      (∀ c ∈ calls, c.offered ≠ []) ∧
      (∀ earlier, earlier <+: calls → earlier ≠ calls → ruling earlier = none) ∧
      match r.readFrom produce limit state with
      | none => ruling calls = none ∧ calls.length = limit
      | some o =>
        ruling calls = some o.answer ∧ o.state = final ∧
          o.ring.unread = (r.unread ++ acceptedOf calls).rtake r.capacity ∧
          ∃ recorded, r.readFrom produce.recorded limit (state, .empty) = some recorded ∧
            recorded.state = (final, ⟨calls, []⟩) := by
  have hpull := pullFrom_recorded (Pulling.start h produce Observer.silent state) limit
  rw [readFrom_erase, readFrom_recorded]
  revert hpull
  cases r.pullFrom produce.recorded Observer.silent.recorded limit (state, .empty) ⟨0, 0, []⟩ with
  | none =>
      rintro ⟨final, log, r', p, hp, hlen⟩
      refine ⟨log.calls, final, hp.dialogue.conversation Observer.silent_stateless, hp.offered,
        hp.undecided, hp.no_ruling, ?_⟩
      rw [hlen]
      exact Nat.zero_add limit
  | some o =>
      intro hp
      obtain ⟨hruns, hruling⟩ := hp.settled (Observer.silent_rejection _)
      have hunread := hp.unread_eq
      rw [hruns, flatten_cuts] at hunread
      exact ⟨o.state.2.calls, o.state.1, hp.dialogue.conversation Observer.silent_stateless, hp.offered,
        hp.undecided, hruling, rfl, hunread, _, rfl, rfl⟩

/-- A producer that fills whatever it is offered with the number of the call. It answers one item
to its first call, and to every later one more than it was offered. -/
def scribbler : Producer Nat Nat := fun call buffer =>
  ⟨call + 1, List.replicate buffer.length call, .ok (if call = 0 then 1 else buffer.length + 1)⟩

/-- The second call of this pull is offered a staging buffer; what it stores there is lost. -/
theorem readFrom_transcript_scribbler :
    (⟨[7, 8, 9], 2, 2, true⟩ : Ring Nat).Valid ∧
      ∃ calls : List (Call Nat Nat), Conversation scribbler 0 calls 2 ∧
        ruling calls = some (.error (.countOutOfRange 4 3)) ∧
        ([9, 7] ++ acceptedOf calls).rtake 3 = [9, 7, 0] := by
  have hv : (⟨[7, 8, 9], 2, 2, true⟩ : Ring Nat).Valid :=
    ⟨by decide, by decide, by decide, by decide⟩
  refine ⟨hv, ?_⟩
  obtain ⟨calls, final, hcalls, -, -, hmatch⟩ := readFrom_transcript hv scribbler 2 0
  have hpull : (⟨[7, 8, 9], 2, 2, true⟩ : Ring Nat).readFrom scribbler 2 0 =
    some ⟨⟨[7, 0, 9], 2, 3, false⟩, 2, [], .error (.countOutOfRange 4 3)⟩ := rfl
  rw [hpull] at hmatch
  obtain ⟨hruling, rfl, hunread, -⟩ := hmatch
  exact ⟨calls, hcalls, hruling, hunread.symm⟩

end Ring

end Carousel
