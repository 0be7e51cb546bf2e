import Carousel.Proofs.Record

/-! # Pulls as transcripts

What a pull does is decided by the calls it makes. `ruling` reads the answer of a pull off its
calls: there is none as long as every call is accepted and fewer than `maxEmptyReads` in a row
are empty. `cuts` are the runs in which the accepted chunks are committed.

The calls of a pull are a `Conversation` with the producer, each beginning in the state in which
the one before left it. -/

namespace Carousel

variable {σ α : Type}

/-! ### Chunks and runs -/

/-- What is accepted of each call. -/
def chunksOf (calls : List (Call σ α)) : List (List α) := calls.map Call.chunk

/-- The items that are accepted over all calls. -/
def acceptedOf (calls : List (Call σ α)) : List α := (chunksOf calls).flatten

@[simp] theorem chunksOf_append (earlier later : List (Call σ α)) :
    chunksOf (earlier ++ later) = chunksOf earlier ++ chunksOf later := List.map_append

@[simp] theorem acceptedOf_concat (calls : List (Call σ α)) (c : Call σ α) :
    acceptedOf (calls ++ [c]) = acceptedOf calls ++ c.chunk := by
  simp [acceptedOf, chunksOf]

/-- The laps of one chunk after the other, the first of them stored from `tail` on. -/
def cuts (capacity : Nat) : (tail : Nat) → List (List α) → List (List α)
  | _, [] => []
  | tail, chunk :: chunks =>
    laps capacity (capacity - tail) chunk ++ cuts capacity ((tail + chunk.length) % capacity) chunks

theorem flatten_cuts (capacity tail : Nat) (chunks : List (List α)) :
    (cuts capacity tail chunks).flatten = chunks.flatten := by
  induction chunks generalizing tail with
  | nil => rfl
  | cons chunk chunks ih =>
      rw [cuts, List.flatten_append, flatten_laps, ih, List.flatten_cons]

theorem ne_nil_of_mem_cuts {capacity tail : Nat} {chunks : List (List α)} {run : List α}
    (h : run ∈ cuts capacity tail chunks) : run ≠ [] := by
  induction chunks generalizing tail with
  | nil => cases h
  | cons chunk chunks ih =>
      rcases List.mem_append.mp h with h | h
      · exact ne_nil_of_mem_laps h
      · exact ih h

/-- One more chunk is cut from where the others end. -/
theorem cuts_concat {capacity tail : Nat} (ht : tail < capacity) (chunks : List (List α))
    (chunk : List α) :
    cuts capacity tail (chunks ++ [chunk]) =
      cuts capacity tail chunks ++
        laps capacity (capacity - (tail + chunks.flatten.length) % capacity) chunk := by
  induction chunks generalizing tail with
  | nil => simp [cuts, Nat.mod_eq_of_lt ht]
  | cons first chunks ih =>
      have hc : 0 < capacity := by omega
      rw [List.cons_append, cuts, cuts, ih (Nat.mod_lt _ hc), Nat.mod_add_mod, List.append_assoc,
        List.flatten_cons, List.length_append, Nat.add_assoc]

theorem Fits.initial {capacity tail : Nat} {runs earlier : List (List α)}
    (h : Fits capacity tail runs) (hp : earlier <+: runs) : Fits capacity tail earlier := by
  induction earlier generalizing tail runs with
  | nil => trivial
  | cons run earlier ih =>
      cases runs with
      | nil => simp at hp
      | cons first runs =>
          obtain ⟨rfl, hearlier⟩ := List.cons_prefix_cons.mp hp
          exact ⟨h.1, ih h.2 hearlier⟩

theorem Fits.length_le {capacity tail : Nat} {runs : List (List α)} (h : Fits capacity tail runs)
    {run : List α} (hr : run ∈ runs) : run.length ≤ capacity := by
  induction runs generalizing tail with
  | nil => cases hr
  | cons first runs ih =>
      obtain ⟨hf, h⟩ := h
      rcases List.mem_cons.mp hr with rfl | hr
      · omega
      · exact ih h hr

/-! ### Calls in a row -/

/-- Calls of a producer one after the other, from the state `first` to the state `last`. -/
inductive Conversation (produce : Producer σ α) (first : σ) : List (Call σ α) → σ → Prop where
  | nil : Conversation produce first [] first
  | concat {calls : List (Call σ α)} {state : σ} (buffer : List α)
      (earlier : Conversation produce first calls state) :
      Conversation produce first (calls ++ [⟨buffer, produce state buffer⟩])
        (produce state buffer).state

/-- An observer that changes no state leaves the calls of a dialogue in a row. -/
theorem Dialogue.conversation {produce : Producer σ α} {watch : Observer σ α} {first last : σ}
    {log : Log σ α} (h : Dialogue produce watch first log last) (hw : watch.Stateless) :
    Conversation produce first log.calls last := by
  induction h with
  | nil => exact .nil
  | called earlier buffer ih => exact ih.concat buffer
  | shown earlier ring run ih =>
      rw [hw]
      exact ih

/-! ### What the calls decide -/

/-- Whether a call answers that it stored nothing. -/
def Call.isIdle (c : Call σ α) : Bool :=
  match c.delivery.answer with
  | .ok 0 => true
  | _ => false

/-- The number of calls at the end that answer that they stored nothing. -/
def idleCount (calls : List (Call σ α)) : Nat := (calls.rtakeWhile Call.isIdle).length

/-- The answer of a pull, as its last call decides it; none while the pull goes on. -/
def ruling (calls : List (Call σ α)) : Option (Except Failure Nat) :=
  calls.getLast?.bind fun last =>
    match last.delivery.answer with
    | .error .endOfData => some (.ok (acceptedOf calls).length)
    | .error failure => some (.error failure)
    | .ok count =>
      if last.offered.length < count then
        some (.error (.countOutOfRange count last.offered.length))
      else if idleCount calls = maxEmptyReads then some (.error (.noProgress maxEmptyReads))
      else none

theorem idleCount_concat (calls : List (Call σ α)) (c : Call σ α) :
    idleCount (calls ++ [c]) = if c.isIdle then idleCount calls + 1 else 0 := by
  unfold idleCount
  rw [List.rtakeWhile_concat]
  split <;> simp

section Ruling

variable (calls : List (Call σ α)) {c : Call σ α}

theorem ruling_of_failure {failure : Failure} (h : c.accepted = .error failure) :
    ruling (calls ++ [c]) = some (.error failure) := by
  unfold Call.accepted Delivery.accepted at h
  unfold ruling
  rw [List.getLast?_concat, Option.bind_some]
  split at h
  · next count ha =>
      split at h
      · next hn =>
          cases h
          rw [ha]
          exact if_pos hn
      · cases h
  · cases h
  · next failure' hne ha =>
      cases h
      rw [ha]
      split
      · next he => exact absurd (Except.error.inj he) hne
      · next he => rw [← Except.error.inj he]
      · next he => cases he

theorem ruling_of_end (h : c.accepted = .ok none) :
    ruling (calls ++ [c]) = some (.ok (acceptedOf calls).length) := by
  have hc : c.chunk = [] := Call.chunk_of_not_accepted (by simp [h])
  unfold Call.accepted Delivery.accepted at h
  unfold ruling
  rw [List.getLast?_concat, Option.bind_some, acceptedOf_concat, hc, List.append_nil]
  split at h
  · split at h <;> cases h
  · next ha => rw [ha]
  · cases h

theorem ruling_of_accepted {n : Nat} (h : c.accepted = .ok (some n)) :
    ruling (calls ++ [c]) =
      if idleCount (calls ++ [c]) = maxEmptyReads then some (.error (.noProgress maxEmptyReads))
      else none := by
  unfold Call.accepted Delivery.accepted at h
  unfold ruling
  rw [List.getLast?_concat, Option.bind_some]
  split at h
  · next count ha =>
      split at h
      · cases h
      · next hn =>
          rw [ha]
          exact if_neg hn
  · cases h
  · cases h

theorem isIdle_of_accepted {n : Nat} (h : c.accepted = .ok (some n)) :
    c.isIdle = decide (n = 0) := by
  unfold Call.accepted Delivery.accepted at h
  unfold Call.isIdle
  split at h
  · next count ha =>
      split at h
      · cases h
      · cases h
        rw [ha]
        cases n <;> rfl
  · cases h
  · cases h

end Ruling

end Carousel
