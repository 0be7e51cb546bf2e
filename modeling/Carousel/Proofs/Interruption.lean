import Carousel.Proofs.Exchange

/-! # Interruptions

An interrupted attempt is repeated with the same buffer or run, so a transfer does not see it. A
stream that is interrupted more often (`Reader.Hinders`, `Writer.Hinders`) is the same producer or
consumer, and what two transfers leave that differ only in this is the same. Scripts into which
interruptions have been inserted are the case in use (`Ring.readFrom_inserted`,
`Stage.readFrom_inserted`, `Ring.writeTo_inserted`). -/

namespace Carousel

variable {σ τ α : Type}

/-! ### Reading -/

theorem cover_of_length_eq {buffer stored : List α} (h : stored.length = buffer.length) :
    cover buffer stored = stored := by
  rw [Ring.cover_eq_append (Nat.le_of_eq h), h, List.drop_length, List.append_nil]

namespace Reader

variable (reader : Reader σ α) {state : σ} {buffer : List α}

theorem attempt_of_interrupted {error : IoError}
    (ha : (reader.read state buffer).answer = .error error) (hi : error.isInterrupted = true) :
    (reader.attempt state buffer).state =
        (reader.attempt (reader.read state buffer).state
          ((reader.read state buffer).buffer buffer)).state ∧
      (reader.attempt state buffer).buffer buffer =
        (reader.attempt (reader.read state buffer).state
          ((reader.read state buffer).buffer buffer)).buffer
            ((reader.read state buffer).buffer buffer) ∧
      (reader.attempt state buffer).answer =
        (reader.attempt (reader.read state buffer).state
          ((reader.read state buffer).buffer buffer)).answer := by
  rw [attempt]
  dsimp only
  split
  · next h => cases ha.symm.trans h
  · next h => cases ha.symm.trans h
  · next h =>
      cases ha.symm.trans h
      rw [dif_pos hi]
      refine ⟨rfl, cover_of_length_eq ?_, rfl⟩
      unfold Delivery.buffer
      rw [length_cover, length_cover]

theorem attempt_of_error {error : IoError}
    (ha : (reader.read state buffer).answer = .error error) (hi : error.isInterrupted = false) :
    reader.attempt state buffer =
      ⟨(reader.read state buffer).state, (reader.read state buffer).stored,
        .error (.io error)⟩ := by
  rw [attempt]
  dsimp only
  split
  · next h => cases ha.symm.trans h
  · next h => cases ha.symm.trans h
  · next h =>
      cases ha.symm.trans h
      rw [dif_neg (by simp [hi])]

/-- In related states the reader `fine` does what `coarse` does, or it is interrupted, stores
nothing, and stays in a related state. -/
def Hinders (rel : τ → σ → Prop) (fine : Reader τ α) (coarse : Reader σ α) : Prop :=
  ∀ ⦃t s⦄, rel t s → ∀ buffer,
    (∃ error, (fine.read t buffer).answer = .error error ∧ error.isInterrupted = true ∧
      (fine.read t buffer).buffer buffer = buffer ∧ rel (fine.read t buffer).state s) ∨
    (rel (fine.read t buffer).state (coarse.read s buffer).state ∧
      (fine.read t buffer).buffer buffer = (coarse.read s buffer).buffer buffer ∧
      (fine.read t buffer).answer = (coarse.read s buffer).answer)

variable {rel : τ → σ → Prop} {fine : Reader τ α} {coarse : Reader σ α}

/-- Interruptions do not show in an attempt. -/
theorem Hinders.attempt (h : fine.Hinders rel coarse) {t : τ} {s : σ} (hr : rel t s)
    (buffer : List α) :
    rel (fine.attempt t buffer).state (coarse.attempt s buffer).state ∧
      (fine.attempt t buffer).buffer buffer = (coarse.attempt s buffer).buffer buffer ∧
      (fine.attempt t buffer).answer = (coarse.attempt s buffer).answer := by
  induction hn : fine.patience t using Nat.strong_induction_on generalizing t s buffer with
  | _ n ih =>
      rcases h hr buffer with ⟨error, ha, hi, hbuffer, hnext⟩ | ⟨hnext, hbuffer, hanswer⟩
      · obtain ⟨hstate, hstored, hlater⟩ := fine.attempt_of_interrupted ha hi
        rw [hbuffer] at hstate hstored hlater
        rw [hstate, hstored, hlater]
        exact ih _ (hn ▸ fine.patience_lt t buffer error ha hi) hnext buffer rfl
      · cases ha : (fine.read t buffer).answer with
        | ok n =>
            have hc : (coarse.read s buffer).answer = .ok n := hanswer.symm.trans ha
            rw [fine.attempt_of_ok ha, coarse.attempt_of_ok hc]
            exact ⟨hnext, hbuffer, rfl⟩
        | error error =>
            have hc : (coarse.read s buffer).answer = .error error := hanswer.symm.trans ha
            cases hi : error.isInterrupted with
            | false =>
                rw [fine.attempt_of_error ha hi, coarse.attempt_of_error hc hi]
                exact ⟨hnext, hbuffer, rfl⟩
            | true =>
                obtain ⟨hstate, hstored, hlater⟩ := fine.attempt_of_interrupted ha hi
                obtain ⟨hstate', hstored', hlater'⟩ := coarse.attempt_of_interrupted hc hi
                rw [hstate, hstored, hlater, hstate', hstored', hlater', ← hbuffer]
                exact ih _ (hn ▸ fine.patience_lt t buffer error ha hi) hnext _ rfl

/-- A reader that is interrupted more often is the same producer. -/
theorem Hinders.producer (h : fine.Hinders rel coarse) :
    fine.producer.Parallel rel coarse.producer := by
  intro t s hr buffer
  unfold Reader.producer
  split
  · exact ⟨hr, rfl, rfl⟩
  · exact h.attempt hr buffer

end Reader

/-! ### Writing -/

namespace Writer

variable (writer : Writer σ α) {state : σ} {run : List α}

theorem attempt_of_ok {n : Nat} (ha : (writer.write state run).answer = .ok n) :
    writer.attempt state run =
      ⟨(writer.write state run).state, (writer.write state run).events, .ok n⟩ := by
  rw [attempt]
  dsimp only
  split
  · next h =>
      cases ha.symm.trans h
      rfl
  · next h => cases ha.symm.trans h

theorem attempt_of_interrupted {error : IoError}
    (ha : (writer.write state run).answer = .error error) (hi : error.isInterrupted = true) :
    writer.attempt state run =
      ⟨(writer.attempt (writer.write state run).state run).state,
        (writer.write state run).events ++
          (writer.attempt (writer.write state run).state run).events,
        (writer.attempt (writer.write state run).state run).answer⟩ := by
  rw [attempt]
  dsimp only
  split
  · next h => cases ha.symm.trans h
  · next h =>
      cases ha.symm.trans h
      rw [dif_pos hi]

theorem attempt_of_error {error : IoError}
    (ha : (writer.write state run).answer = .error error) (hi : error.isInterrupted = false) :
    writer.attempt state run =
      ⟨(writer.write state run).state, (writer.write state run).events, .error (.io error)⟩ := by
  rw [attempt]
  dsimp only
  split
  · next h => cases ha.symm.trans h
  · next h =>
      cases ha.symm.trans h
      rw [dif_neg (by simp [hi])]

/-- In related states the writer `fine` does what `coarse` does, or it is interrupted, reports
nothing, and stays in a related state. -/
def Hinders (rel : τ → σ → Prop) (fine : Writer τ α) (coarse : Writer σ α) : Prop :=
  ∀ ⦃t s⦄, rel t s → ∀ run,
    (∃ error, (fine.write t run).answer = .error error ∧ error.isInterrupted = true ∧
      (fine.write t run).events = [] ∧ rel (fine.write t run).state s) ∨
    (rel (fine.write t run).state (coarse.write s run).state ∧
      (fine.write t run).events = (coarse.write s run).events ∧
      (fine.write t run).answer = (coarse.write s run).answer)

variable {rel : τ → σ → Prop} {fine : Writer τ α} {coarse : Writer σ α}

/-- A writer that is interrupted more often is the same consumer. -/
theorem Hinders.consumer (h : fine.Hinders rel coarse) :
    fine.consumer.Parallel rel coarse.consumer := by
  intro t s hr run
  unfold Writer.consumer
  induction hn : fine.patience t using Nat.strong_induction_on generalizing t s with
  | _ n ih =>
      rcases h hr run with ⟨error, ha, hi, hevents, hnext⟩ | ⟨hnext, hevents, hanswer⟩
      · rw [fine.attempt_of_interrupted ha hi, hevents]
        exact ih _ (hn ▸ fine.patience_lt t run error ha hi) hnext rfl
      · cases ha : (fine.write t run).answer with
        | ok n =>
            have hc : (coarse.write s run).answer = .ok n := hanswer.symm.trans ha
            rw [fine.attempt_of_ok ha, coarse.attempt_of_ok hc]
            exact ⟨hnext, hevents, rfl⟩
        | error error =>
            have hc : (coarse.write s run).answer = .error error := hanswer.symm.trans ha
            cases hi : error.isInterrupted with
            | false =>
                rw [fine.attempt_of_error ha hi, coarse.attempt_of_error hc hi]
                exact ⟨hnext, hevents, rfl⟩
            | true =>
                rw [fine.attempt_of_interrupted ha hi, coarse.attempt_of_interrupted hc hi]
                obtain ⟨hstate, hlater, hend⟩ :=
                  ih _ (hn ▸ fine.patience_lt t run error ha hi) hnext rfl
                exact ⟨hstate, congrArg₂ (· ++ ·) hevents hlater, hend⟩

end Writer

/-! ### Scripts -/

/-- The list `fine` is the list `coarse` with items inserted that satisfy `extra`. -/
inductive Inserted {β : Type} (extra : β → Prop) : (fine coarse : List β) → Prop where
  | nil : Inserted extra [] []
  | keep {fine coarse : List β} (x : β) (later : Inserted extra fine coarse) :
      Inserted extra (x :: fine) (x :: coarse)
  | insert {fine coarse : List β} {x : β} (hx : extra x) (later : Inserted extra fine coarse) :
      Inserted extra (x :: fine) coarse

/-- What a scripted stream that is read does at an attempt. -/
inductive ReadTurn (α : Type) where
  /-- Hands out items, as many as fit; the others wait for the next attempt. -/
  | chunk (items : List α)
  /-- Lays items over the front of the buffer and answers anything. -/
  | act (stored : List α) (answer : Except IoError Nat)

/-- What a scripted stream that is written to does at an attempt. -/
inductive WriteTurn where
  /-- Accepts the whole run, or its first `n` items. -/
  | accept (n : Nat)
  /-- Accepts nothing and answers anything. -/
  | act (answer : Except IoError Nat)

/-- An interruption that transfers nothing and leaves the buffer alone. -/
inductive ReadTurn.Interrupts : ReadTurn α → Prop where
  | intro {error : IoError} (hi : error.isInterrupted = true) :
      Interrupts (.act [] (.error error))

/-- An interruption that transfers nothing. -/
inductive WriteTurn.Interrupts : WriteTurn → Prop where
  | intro {error : IoError} (hi : error.isInterrupted = true) : Interrupts (.act (.error error))

/-- Takes turn after turn; behind its script the stream reads as nothing. -/
def Reader.scripted : Reader (List (ReadTurn α)) α where
  read script buffer :=
    match script with
    | [] => ⟨[], [], .ok 0⟩
    | .chunk items :: script =>
      ⟨if items.length ≤ buffer.length then script
        else .chunk (items.drop buffer.length) :: script,
        items.take buffer.length, .ok (min buffer.length items.length)⟩
    | .act stored answer :: script => ⟨script, stored, answer⟩
  patience := List.length
  patience_lt script buffer error h _ := by
    match script with
    | [] => cases h
    | .chunk items :: script => cases h
    | .act stored answer :: script => exact Nat.lt_succ_self _

/-- Takes turn after turn and keeps what it accepts; behind its script the stream accepts
everything. -/
def Writer.scripted : Writer (List WriteTurn × List α) α where
  write := fun (script, got) run =>
    match script with
    | [] => ⟨([], got ++ run), [], .ok run.length⟩
    | .accept n :: script => ⟨(script, got ++ run.take n), [], .ok (min n run.length)⟩
    | .act answer :: script => ⟨(script, got), [], answer⟩
  patience state := state.1.length
  patience_lt := by
    rintro ⟨script, got⟩ run error h _
    match script with
    | [] => cases h
    | .accept n :: script => cases h
    | .act answer :: script => exact Nat.lt_succ_self _

theorem Reader.scripted_hinders :
    (scripted : Reader (List (ReadTurn α)) α).Hinders (Inserted ReadTurn.Interrupts) scripted := by
  intro fine coarse h buffer
  cases h with
  | nil => exact .inr ⟨.nil, rfl, rfl⟩
  | keep turn later =>
      cases turn with
      | act stored answer => exact .inr ⟨later, rfl, rfl⟩
      | chunk items =>
          refine .inr ⟨?_, rfl, rfl⟩
          simp only [scripted]
          split
          · exact later
          · exact .keep _ later
  | insert hx later =>
      obtain ⟨hi⟩ := hx
      exact .inl ⟨_, rfl, hi, cover_nil buffer, later⟩

theorem Writer.scripted_hinders :
    (scripted : Writer (List WriteTurn × List α) α).Hinders
      (fun t s => Inserted WriteTurn.Interrupts t.1 s.1 ∧ t.2 = s.2) scripted := by
  rintro ⟨fine, got⟩ ⟨coarse, _⟩ ⟨h, rfl⟩ run
  cases h with
  | nil => exact .inr ⟨⟨.nil, rfl⟩, rfl, rfl⟩
  | keep turn later => cases turn <;> exact .inr ⟨⟨later, rfl⟩, rfl, rfl⟩
  | insert hx later =>
      obtain ⟨hi⟩ := hx
      exact .inl ⟨_, rfl, hi, rfl, later, rfl⟩

/-! ### What interruptions change -/

theorem Observer.Parallel.recorded {rel : τ → σ → Prop} {f : Observer τ α} {g : Observer σ α}
    (h : f.Parallel rel g) :
    f.recorded.Parallel
      (fun t s => rel t.1 s.1 ∧ runsOf t.2.showings = runsOf s.2.showings) g.recorded := by
  rintro ⟨t, log⟩ ⟨s, log'⟩ ⟨hr, hruns⟩ ring run
  obtain ⟨hstate, htrace, hanswer⟩ := h hr ring run
  refine ⟨⟨hstate, ?_⟩, htrace, hanswer⟩
  simp only [Observer.recorded, runsOf_append, hruns]
  rfl

theorem Producer.Parallel.recorded {rel : τ → σ → Prop} {f : Producer τ α} {g : Producer σ α}
    (h : f.Parallel rel g) :
    f.recorded.Parallel
      (fun t s => rel t.1 s.1 ∧ runsOf t.2.showings = runsOf s.2.showings) g.recorded := by
  rintro ⟨t, log⟩ ⟨s, log'⟩ ⟨hr, hruns⟩ buffer
  obtain ⟨hstate, hbuffer, hanswer⟩ := h hr buffer
  exact ⟨⟨hstate, hruns⟩, hbuffer, hanswer⟩

theorem Producer.Parallel.beside {φ : Type} {rel : τ → σ → Prop} {f : Producer τ α}
    {g : Producer σ α} (h : f.Parallel rel g) :
    (f.beside (σ := φ)).Parallel (fun t s => t.1 = s.1 ∧ rel t.2 s.2) g.beside := by
  rintro ⟨state, t⟩ ⟨_, s⟩ ⟨rfl, hr⟩ buffer
  obtain ⟨hstate, hbuffer, hanswer⟩ := h hr buffer
  exact ⟨⟨rfl, hstate⟩, hbuffer, hanswer⟩

theorem Filter.beside_parallel (filter : Filter σ α) {φ : Type} (rel : τ → φ → Prop) :
    (filter.beside (τ := τ)).observer.Parallel (fun t s => t.1 = s.1 ∧ rel t.2 s.2)
      (filter.beside (τ := φ)).observer := by
  rintro ⟨state, t⟩ ⟨_, s⟩ ⟨rfl, hr⟩ ring run
  unfold observer beside focus
  dsimp only
  cases (filter state run).answer <;> exact ⟨⟨rfl, hr⟩, rfl, rfl⟩

theorem Outcome.Parallel.mapState_eq_mapState {β υ : Type} {rel : τ → σ → Prop} {f : τ → υ}
    {g : σ → υ} (hfg : ∀ t s, rel t s → f t = g s) {o : Outcome τ α β} {o' : Outcome σ α β}
    (h : o.Parallel rel o') : o.mapState f = o'.mapState g := by
  obtain ⟨hring, hstate, htrace, hanswer⟩ := h
  unfold mapState
  rw [hring, hfg _ _ hstate, htrace, hanswer]

theorem Outcome.Parallel.map_eq_map {β υ : Type} {rel : τ → σ → Prop} {f : τ → υ} {g : σ → υ}
    (hfg : ∀ t s, rel t s → f t = g s) {x : Option (Outcome τ α β)}
    {y : Option (Outcome σ α β)} (h : Option.Rel (Outcome.Parallel rel) x y) :
    x.map (Outcome.mapState f) = y.map (Outcome.mapState g) := by
  cases h with
  | none => rfl
  | some ho => exact congrArg some (ho.mapState_eq_mapState hfg)

/-! ### Scripts with interruptions inserted -/

theorem Ring.readFrom_inserted [Inhabited α] (r : Ring α) {fine coarse : List (ReadTurn α)}
    (hi : Inserted ReadTurn.Interrupts fine coarse) (limit : Nat) :
    (r.readFrom Reader.scripted.producer limit fine).map (Outcome.mapState fun _ => ()) =
      (r.readFrom Reader.scripted.producer limit coarse).map (Outcome.mapState fun _ => ()) := by
  have hp := Reader.Hinders.producer (Reader.scripted_hinders (α := α))
  exact Outcome.Parallel.map_eq_map (fun _ _ _ => rfl)
    (pullFrom_parallel hp (Observer.silent_parallel _) hi r limit ⟨0, 0, []⟩)

section Inserted

variable {φ : Type} (r : Ring α) (filter : Filter φ α) (state : φ)
  {fine coarse : List (ReadTurn α)} (hi : Inserted ReadTurn.Interrupts fine coarse) (limit : Nat)

include hi

theorem Stage.readFrom_inserted [Inhabited α] :
    ((Stage.mk r filter.beside).readFrom Reader.scripted.producer.beside limit
        (state, fine)).map (Outcome.mapState Prod.fst) =
      ((Stage.mk r filter.beside).readFrom Reader.scripted.producer.beside limit
        (state, coarse)).map (Outcome.mapState Prod.fst) := by
  have hp := Reader.Hinders.producer (Reader.scripted_hinders (α := α))
  have hf := filter.beside_parallel (Inserted (ReadTurn.Interrupts (α := α)))
  have hplain := Ring.pullFrom_parallel hp.beside hf (t := (state, fine)) (s := (state, coarse))
    ⟨rfl, hi⟩ r limit ⟨0, 0, []⟩
  exact Outcome.Parallel.map_eq_map (fun _ _ hr => hr.1) hplain

theorem Stage.readFromRecorded_inserted [Inhabited α] :
    ((Stage.mk r filter.beside).readFromRecorded Reader.scripted.producer.beside limit
        (state, fine)).map (Outcome.mapState fun s => (s.1.1, runsOf s.2.showings)) =
      ((Stage.mk r filter.beside).readFromRecorded Reader.scripted.producer.beside limit
        (state, coarse)).map (Outcome.mapState fun s => (s.1.1, runsOf s.2.showings)) := by
  have hp := Reader.Hinders.producer (Reader.scripted_hinders (α := α))
  have hf := filter.beside_parallel (Inserted (ReadTurn.Interrupts (α := α)))
  have hrecorded := Ring.pullFrom_parallel hp.beside.recorded hf.recorded
    (t := ((state, fine), .empty)) (s := ((state, coarse), .empty)) ⟨⟨rfl, hi⟩, rfl⟩ r limit
    ⟨0, 0, []⟩
  exact Outcome.Parallel.map_eq_map (fun _ _ hr => congrArg₂ Prod.mk hr.1.1 hr.2) hrecorded

end Inserted

theorem Ring.writeTo_inserted (r : Ring α) {fine coarse : List WriteTurn}
    (hi : Inserted WriteTurn.Interrupts fine coarse) (got : List α) :
    (r.writeTo Writer.scripted.consumer (fine, got)).mapState Prod.snd =
      (r.writeTo Writer.scripted.consumer (coarse, got)).mapState Prod.snd := by
  have hc := Writer.Hinders.consumer (Writer.scripted_hinders (α := α))
  have hwrite := writeTo_parallel hc (t := (fine, got)) (s := (coarse, got)) ⟨hi, rfl⟩ r
  exact hwrite.mapState_eq_mapState fun _ _ hr => hr.2

end Carousel
