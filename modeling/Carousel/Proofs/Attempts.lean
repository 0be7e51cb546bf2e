import Carousel.Proofs.Interruption
import Mathlib.Algebra.GroupWithZero.Nat

/-! # Attempts on a stream

A recorded stream notes every attempt, the interrupted ones among them. A transfer goes on as long
as an attempt moves items, and the first that is neither interrupted nor moves what it should
decides how the transfer ends (`Ring.pullFrom_attempts`, `Ring.pushRest_attempts`).

A pull that has not ended has made as many attempts as it may make calls, not counting the
interrupted ones, and all of them let it go on. No more than `ReadTurn.answersOf` attempts of a
script do, so a pull from a script ends (`Ring.readFrom_scripted`, `Stage.readFrom_scripted`). -/

namespace Carousel

variable {σ τ α : Type}

/-- One attempt to read or to write: what the stream was offered and what it answered. -/
structure Attempt (α : Type) where
  offered : List α
  answer : Except IoError Nat

namespace Attempt

/-- Whether an attempt is to be repeated. -/
def isInterrupted (x : Attempt α) : Bool :=
  match x.answer with
  | .ok _ => false
  | .error error => error.isInterrupted

/-- The number of items that an attempt says it moved. -/
def moved (x : Attempt α) : Nat :=
  match x.answer with
  | .ok n => n
  | .error _ => 0

/-- The items that some attempts say they moved. -/
def movedBy (xs : List (Attempt α)) : Nat := (xs.map moved).sum

/-- What a producer answers for an attempt that is not interrupted. -/
def reply (x : Attempt α) : Except Failure Nat :=
  match x.answer with
  | .ok 0 => .error .endOfData
  | .ok n => .ok n
  | .error error => .error (.io error)

/-- A pull goes on after an attempt that is interrupted, and after one that stores items, not more
than fit. -/
def ReadsOn (x : Attempt α) : Prop :=
  x.isInterrupted = true ∨ ∃ n, x.answer = .ok n ∧ 0 < n ∧ n ≤ x.offered.length

/-- The answer of a pull that an attempt ends, `total` items having been stored before. -/
def readEnd (x : Attempt α) (total : Nat) : Except Failure Nat :=
  match x.answer with
  | .error error => .error (.io error)
  | .ok 0 => .ok total
  | .ok n => .error (.countOutOfRange n x.offered.length)

/-- A push goes on after an attempt that is interrupted, and after one that accepts the run. -/
def WritesOn (x : Attempt α) : Prop := x.isInterrupted = true ∨ x.answer = .ok x.offered.length

/-- The answer of a push whose last attempt this is, `total` items having been accepted before. -/
def writeEnd (x : Attempt α) (total : Nat) : Except Failure Nat :=
  match x.answer with
  | .error error => .error (.io error)
  | .ok n =>
    if x.offered.length < n then .error (.countOutOfRange n x.offered.length) else .ok (total + n)

@[simp] theorem movedBy_append (xs ys : List (Attempt α)) :
    movedBy (xs ++ ys) = movedBy xs + movedBy ys := by simp [movedBy]

theorem movedBy_concat (xs : List (Attempt α)) (x : Attempt α) :
    movedBy (xs ++ [x]) = movedBy xs + x.moved := by simp [movedBy]

theorem moved_of_interrupted {x : Attempt α} (h : x.isInterrupted = true) : x.moved = 0 := by
  unfold isInterrupted at h
  unfold moved
  split at h
  · cases h
  · rfl

theorem movedBy_of_interrupted {xs : List (Attempt α)} (h : ∀ x ∈ xs, x.isInterrupted = true) :
    movedBy xs = 0 := by
  induction xs with
  | nil => rfl
  | cons x xs ih =>
      obtain ⟨hx, hxs⟩ := List.forall_mem_cons.mp h
      rw [movedBy, List.map_cons, List.sum_cons, moved_of_interrupted hx]
      exact (Nat.zero_add _).trans (ih hxs)

/-- What the last attempt of a call makes of the call. -/
inductive Settled (rejects : Failure → Prop) (last : Attempt α) :
    (answer : Except Failure (Option Nat)) → Prop where
  /-- It stores items that are accepted and committed. -/
  | stored {n : Nat} (ha : last.answer = .ok n) (h0 : 0 < n) (hn : n ≤ last.offered.length) :
      Settled rejects last (.ok (some n))
  /-- It stores items of which a run is rejected. -/
  | rejected {failure : Failure} (hx : last.ReadsOn) (hr : rejects failure) :
      Settled rejects last (.error failure)
  /-- It is the end of the data. -/
  | ended (hx : ¬ last.ReadsOn) (he : ∀ total, last.readEnd total = .ok total) :
      Settled rejects last (.ok none)
  | failed {failure : Failure} (hx : ¬ last.ReadsOn)
      (he : ∀ total, last.readEnd total = .error failure) : Settled rejects last (.error failure)

end Attempt

/-! ### Attempts to read -/

/-- Notes each attempt. -/
def Reader.recorded (reader : Reader σ α) : Reader (σ × List (Attempt α)) α where
  read := fun (state, log) buffer =>
    (reader.read state buffer).map fun next =>
      (next, log ++ [⟨buffer, (reader.read state buffer).answer⟩])
  patience state := reader.patience state.1
  patience_lt state := reader.patience_lt state.1

theorem Reader.recorded_hinders (reader : Reader σ α) :
    reader.recorded.Hinders (fun t s => t.1 = s) reader := by
  rintro ⟨state, log⟩ _ rfl buffer
  exact .inr ⟨rfl, rfl, rfl⟩

/-- Attempts to read one after the other, from the state `first` of a reader to the state `last`. -/
inductive Reader.Attempted (reader : Reader σ α) :
    (first : σ) → List (Attempt α) → (last : σ) → Prop where
  | nil (state : σ) : Attempted reader state [] state
  | cons {state last : σ} {later : List (Attempt α)} (buffer : List α)
      (h : Attempted reader (reader.read state buffer).state later last) :
      Attempted reader state (⟨buffer, (reader.read state buffer).answer⟩ :: later) last

theorem Reader.Attempted.append {reader : Reader σ α} {first middle last : σ}
    {earlier later : List (Attempt α)} (h : reader.Attempted first earlier middle)
    (h' : reader.Attempted middle later last) :
    reader.Attempted first (earlier ++ later) last := by
  induction h with
  | nil state => exact h'
  | cons buffer _ ih => exact .cons buffer (ih h')

/-- Attempts that lead from one state of a recorded reader to another, and are noted there. -/
structure Reader.Notes (reader : Reader σ α) (before after : σ × List (Attempt α))
    (noted : List (Attempt α)) : Prop where
  attempted : reader.Attempted before.1 noted after.1
  log_eq : after.2 = before.2 ++ noted

namespace Reader.Notes

variable {reader : Reader σ α} {before middle after : σ × List (Attempt α)}
  {earlier later : List (Attempt α)}

theorem nil (reader : Reader σ α) (state : σ × List (Attempt α)) : reader.Notes state state [] :=
  ⟨.nil _, (List.append_nil _).symm⟩

theorem read (reader : Reader σ α) (state : σ × List (Attempt α)) (buffer : List α) :
    reader.Notes state (reader.recorded.read state buffer).state
      [⟨buffer, (reader.read state.1 buffer).answer⟩] :=
  ⟨.cons buffer (.nil _), rfl⟩

theorem append (h : reader.Notes before middle earlier) (h' : reader.Notes middle after later) :
    reader.Notes before after (earlier ++ later) := by
  refine ⟨h.attempted.append h'.attempted, ?_⟩
  rw [h'.log_eq, h.log_eq, List.append_assoc]

end Reader.Notes

/-- Calls of a producer that make some interrupted attempts on a reader and then the one that they
answer for, and note them in what `view` tells of the state. -/
def Producer.Attempts (produce : Producer τ α) (reader : Reader σ α)
    (view : τ → σ × List (Attempt α)) : Prop :=
  ∀ state buffer, buffer ≠ [] → ∃ earlier last,
    reader.Notes (view state) (view (produce state buffer).state) (earlier ++ [last]) ∧
      (∀ x ∈ earlier, x.isInterrupted = true) ∧ last.isInterrupted = false ∧
      last.offered.length = buffer.length ∧ (produce state buffer).answer = last.reply

theorem Reader.recorded_attempt (reader : Reader σ α) (state : σ × List (Attempt α))
    (buffer : List α) :
    ∃ earlier last,
      reader.Notes state (reader.recorded.attempt state buffer).state (earlier ++ [last]) ∧
        (∀ x ∈ earlier, x.isInterrupted = true) ∧ last.isInterrupted = false ∧
        last.offered.length = buffer.length ∧
        (reader.recorded.attempt state buffer).answer = last.reply := by
  induction hn : reader.patience state.1 using Nat.strong_induction_on generalizing state buffer
    with
  | _ n ih =>
      have hread : (reader.recorded.read state buffer).answer =
        (reader.read state.1 buffer).answer := rfl
      have hnote := Reader.Notes.read reader state buffer
      cases ha : (reader.read state.1 buffer).answer with
      | ok n =>
          rw [ha] at hnote
          rw [reader.recorded.attempt_of_ok (hread.trans ha)]
          refine ⟨[], ⟨buffer, .ok n⟩, hnote, by simp, rfl, rfl, ?_⟩
          cases n <;> rfl
      | error error =>
          rw [ha] at hnote
          cases hi : error.isInterrupted with
          | false =>
              rw [reader.recorded.attempt_of_error (hread.trans ha) hi]
              exact ⟨[], ⟨buffer, .error error⟩, hnote, by simp, hi, rfl, rfl⟩
          | true =>
              obtain ⟨hstate, -, hanswer⟩ :=
                reader.recorded.attempt_of_interrupted (hread.trans ha) hi
              obtain ⟨earlier, last, hnotes, hinterrupted, hlast, hoffered, hreply⟩ :=
                ih _ (hn ▸ reader.patience_lt state.1 buffer error ha hi)
                  (reader.recorded.read state buffer).state
                  ((reader.recorded.read state buffer).buffer buffer) rfl
              refine ⟨⟨buffer, .error error⟩ :: earlier, last, ?_, ?_, hlast, ?_, ?_⟩
              · rw [hstate]
                exact hnote.append hnotes
              · exact List.forall_mem_cons.mpr ⟨hi, hinterrupted⟩
              · exact hoffered.trans (length_cover _ _)
              · exact hanswer.trans hreply

theorem Reader.recorded_attempts (reader : Reader σ α) :
    reader.recorded.producer.Attempts reader id := by
  intro state buffer hb
  have he : ¬ buffer.isEmpty = true := by simpa using hb
  unfold Reader.producer
  rw [if_neg he]
  exact reader.recorded_attempt state buffer

theorem Producer.Attempts.beside {φ : Type} {produce : Producer τ α} {reader : Reader σ α}
    {view : τ → σ × List (Attempt α)} (h : produce.Attempts reader view) :
    (produce.beside (σ := φ)).Attempts reader fun state => view state.2 :=
  fun state buffer hb => h state.2 buffer hb

/-- The failures with which an observer rejects runs are among these. -/
def Observer.Rejects (watch : Observer σ α) (rejects : Failure → Prop) : Prop :=
  ∀ state r run failure, (watch state r run).answer = .error failure → rejects failure

theorem Filter.observer_rejects (filter : Filter σ α) :
    filter.observer.Rejects (∃ cause, · = .rejected cause) := by
  intro state r run failure h
  unfold observer at h
  dsimp only at h
  split at h
  · cases h
  · cases h
    exact ⟨_, rfl⟩

namespace Ring

theorem present_rejected {watch : Observer σ α} {rejects : Failure → Prop}
    (hw : watch.Rejects rejects) {state : σ} {r : Ring α} {runs : List (List α)}
    {failure : Failure} (h : (r.present watch state runs).answer = .error failure) :
    rejects failure := by
  induction runs generalizing state r with
  | nil => cases h
  | cons run runs ih =>
      simp only [present] at h
      split at h
      · next hv => exact hw _ _ _ _ (hv.trans h)
      · exact ih h

section Calls

variable {x : Attempt α} {c : Call σ α} (hr : c.delivery.answer = x.reply)
  (hl : c.offered.length = x.offered.length)

include hr hl

/-- An attempt that stores items is accepted. -/
theorem accepted_of_stored {n : Nat} (ha : x.answer = .ok n) (h0 : 0 < n)
    (hn : n ≤ x.offered.length) : c.accepted = .ok (some n) := by
  obtain ⟨n, rfl⟩ : ∃ m, n = m + 1 := ⟨n - 1, by omega⟩
  unfold Attempt.reply at hr
  unfold Call.accepted Delivery.accepted
  rw [hr, ha]
  exact if_neg (by omega)

/-- Any other attempt fails or is the end of the data. -/
theorem settled_of_ended (rejects : Failure → Prop) (hx : ¬ x.ReadsOn) :
    x.Settled rejects c.accepted := by
  unfold Attempt.reply at hr
  unfold Call.accepted Delivery.accepted
  rw [hr, hl]
  rcases ha : x.answer with error | _ | n
  · exact .failed hx fun _ => by simp only [Attempt.readEnd, ha]
  · exact .ended hx fun _ => by simp only [Attempt.readEnd, ha]
  · have hn : x.offered.length < n + 1 :=
      Nat.lt_of_not_le fun hn => hx (.inr ⟨n + 1, ha, Nat.succ_pos n, hn⟩)
    simp only [if_pos hn]
    exact .failed hx fun _ => by simp only [Attempt.readEnd, ha]

theorem settled_of_call {watch : Observer σ α} {rejects : Failure → Prop}
    (hw : watch.Rejects rejects) (r : Ring α) (hi : x.isInterrupted = false) :
    x.Settled rejects (r.settle watch c).answer := by
  by_cases hx : x.ReadsOn
  · obtain ⟨n, ha, h0, hn⟩ := hx.resolve_left (by rw [hi]; exact Bool.false_ne_true)
    unfold settle
    rw [accepted_of_stored hr hl ha h0 hn]
    dsimp only
    cases hv : ((r.touch c.buffer).present watch c.delivery.state
        ((r.touch c.buffer).lapsOf c.chunk)).answer with
    | error failure => exact .rejected hx (present_rejected hw hv)
    | ok => exact .stored ha h0 hn
  · have hs := settled_of_ended hr hl rejects hx
    have hchunk : c.chunk = [] := Call.chunk_of_not_accepted fun n hn => by
      rw [hn] at hs
      cases hs with
      | stored ha h0 hle => exact hx (.inr ⟨n, ha, h0, hle⟩)
    rw [settle_of_chunk_nil hchunk]
    exact hs

end Calls

/-- How attempts end a pull of which `total` items have been committed before. All but the last
let it go on. So does the last only if it stores items of which a run is rejected; else it decides
the answer. -/
def EndsPull (rejects : Failure → Prop) (total : Nat) (noted : List (Attempt α))
    (answer : Except Failure Nat) : Prop :=
  ∃ earlier last, noted = earlier ++ [last] ∧ (∀ x ∈ earlier, x.ReadsOn) ∧
    last.isInterrupted = false ∧
    (¬ last.ReadsOn ∧ answer = last.readEnd (total + Attempt.movedBy earlier) ∨
      last.ReadsOn ∧ ∃ failure, rejects failure ∧ answer = .error failure)

/-- How attempts leave a pull that has made a number of calls and not ended: all of them let it go
on, and one of them for each call is not interrupted. -/
def SustainsPull (calls : Nat) (noted : List (Attempt α)) : Prop :=
  (∀ x ∈ noted, x.ReadsOn) ∧ noted.countP (fun x => !x.isInterrupted) = calls

/-- What attempts tell of the answer of a pull that may make a number of calls, if it gives one. -/
def ExplainsPull (rejects : Failure → Prop) (total calls : Nat) (noted : List (Attempt α)) :
    Option (Except Failure Nat) → Prop
  | none => SustainsPull calls noted
  | some answer => EndsPull rejects total noted answer

theorem SustainsPull.append {first second : Nat} {earlier later : List (Attempt α)}
    (h : SustainsPull first earlier) (h' : SustainsPull second later) :
    SustainsPull (second + first) (earlier ++ later) := by
  refine ⟨List.forall_mem_append.mpr ⟨h.1, h'.1⟩, ?_⟩
  rw [List.countP_append, h.2, h'.2, Nat.add_comm]

theorem EndsPull.prepend {rejects : Failure → Prop} {total : Nat}
    {earlier later : List (Attempt α)} {answer : Except Failure Nat}
    (hearlier : ∀ x ∈ earlier, x.ReadsOn)
    (h : EndsPull rejects (total + Attempt.movedBy earlier) later answer) :
    EndsPull rejects total (earlier ++ later) answer := by
  obtain ⟨middle, last, rfl, hmiddle, hlast, hends⟩ := h
  refine ⟨earlier ++ middle, last, (List.append_assoc _ _ _).symm, ?_, hlast, ?_⟩
  · exact List.forall_mem_append.mpr ⟨hearlier, hmiddle⟩
  · rwa [Attempt.movedBy_append, ← Nat.add_assoc]

section Waits

variable {waits : List (Attempt α)} {last : Attempt α}
  (hwaits : ∀ x ∈ waits, x.isInterrupted = true) (hlast : last.isInterrupted = false)

include hwaits

theorem readsOn_of_waits : ∀ x ∈ waits, x.ReadsOn := by
  intro x hx
  exact .inl (hwaits x hx)

include hlast

/-- A call whose last attempt stores items. -/
theorem SustainsPull.of_stored {n : Nat} (ha : last.answer = .ok n) (h0 : 0 < n)
    (hn : n ≤ last.offered.length) : SustainsPull 1 (waits ++ [last]) := by
  constructor
  · refine List.forall_mem_append.mpr ⟨readsOn_of_waits hwaits, ?_⟩
    simpa using .inr ⟨n, ha, h0, hn⟩
  · rw [List.countP_append, List.countP_singleton, hlast, List.countP_eq_zero.mpr]
    · rfl
    · simpa using hwaits

theorem EndsPull.of_decided {rejects : Failure → Prop} {total : Nat} {answer : Except Failure Nat}
    (hx : ¬ last.ReadsOn) (ha : answer = last.readEnd total) :
    EndsPull rejects total (waits ++ [last]) answer := by
  refine ⟨waits, last, rfl, readsOn_of_waits hwaits, hlast, .inl ⟨hx, ?_⟩⟩
  rwa [Attempt.movedBy_of_interrupted hwaits, Nat.add_zero]

theorem EndsPull.of_rejected {rejects : Failure → Prop} {total : Nat} {failure : Failure}
    (hx : last.ReadsOn) (hr : rejects failure) :
    EndsPull rejects total (waits ++ [last]) (.error failure) :=
  ⟨waits, last, rfl, readsOn_of_waits hwaits, hlast, .inr ⟨hx, failure, hr, rfl⟩⟩

end Waits

/-- Attempts that let a pull go on explain with those after them how it ends, or that it has not. -/
theorem ExplainsPull.prepend {rejects : Failure → Prop} {total calls n : Nat}
    {earlier later : List (Attempt α)} {answer : Option (Except Failure Nat)}
    (h : SustainsPull 1 earlier) (hn : Attempt.movedBy earlier = n)
    (h' : ExplainsPull rejects (total + n) calls later answer) :
    ExplainsPull rejects total (calls + 1) (earlier ++ later) answer := by
  subst hn
  cases answer with
  | none => exact h.append h'
  | some answer => exact EndsPull.prepend h.1 h'

/-- A pull that has ended, its attempts being noted in the state that it leaves. -/
theorem ExplainsPull.of_ended {reader : Reader σ α} {view : τ → σ × List (Attempt α)}
    {before : σ × List (Attempt α)} {noted : List (Attempt α)} {rejects : Failure → Prop}
    {total : Nat} (calls : Nat) {pull : Option (Outcome τ α Nat)} {o : Outcome τ α Nat}
    (ho : pull = some o) (hn : reader.Notes before (view o.state) noted)
    (h : EndsPull rejects total noted o.answer) :
    ∃ after noted, reader.Notes before after noted ∧ (∀ o ∈ pull, view o.state = after) ∧
      ExplainsPull rejects total calls noted (pull.map Outcome.answer) := by
  subst ho
  refine ⟨_, noted, hn, ?_, h⟩
  rintro o ⟨⟩
  rfl

/-- **What the attempts of a pull tell.** When it has ended, its last attempt decides the answer or
has stored a run that is rejected; when it has not, they all let it go on. -/
theorem pullFrom_attempts [Inhabited α] {produce : Producer τ α} {watch : Observer τ α}
    {reader : Reader σ α} {view : τ → σ × List (Attempt α)} {rejects : Failure → Prop}
    (hp : produce.Attempts reader view) (hw : ∀ seen, watch.Keeps (view · = seen))
    (hr : watch.Rejects rejects) {r : Ring α} (h : r.Valid) {p : Progress α}
    (hs : r.Staging p.staging) (limit : Nat) (state : τ) :
    ∃ after noted, reader.Notes (view state) after noted ∧
      (∀ o ∈ r.pullFrom produce watch limit state p, view o.state = after) ∧
      ExplainsPull rejects p.total limit noted
        ((r.pullFrom produce watch limit state p).map Outcome.answer) := by
  induction limit generalizing state r p with
  | zero =>
      refine ⟨view state, [], .nil _ _, ?_, ?_, rfl⟩
      · intro o ho
        cases ho
      · intro x hx
        cases hx
  | succ limit ih =>
      have hcall := pullOnce_eq h produce watch state p.staging
      have hstaging : (r.pullOnce produce watch state p.staging).1.ring.Staging
        (r.pullOnce produce watch state p.staging).2 := staging_pullOnce h hs
      have hvalid : (r.pullOnce produce watch state p.staging).1.ring.Valid := h.pullOnce _
      rw [hcall] at hstaging hvalid
      obtain ⟨waits, last, hnotes, hwaits, hlast, hoffered, hreply⟩ :=
        hp state (r.offer p.staging) (offer_ne_nil h hs)
      have hkept : view (r.settle watch (r.call produce state p.staging)).state =
          view (produce state (r.offer p.staging)).state := (hw _).present _ _ _ rfl
      have hsettled := settled_of_call (c := r.call produce state p.staging) hreply hoffered.symm hr r
        hlast
      rw [← hkept] at hnotes
      generalize r.settle watch (r.call produce state p.staging) = settled at *
      obtain ⟨ring, final, trace, answer⟩ := settled
      cases hsettled with
      | @stored n ha h0 hn =>
          have hn0 : n ≠ 0 := Nat.pos_iff_ne_zero.mp h0
          have hidle : (if n = 0 then p.idle + 1 else 0) < maxEmptyReads := by
            rw [if_neg hn0]
            decide
          have hfirst : SustainsPull 1 (waits ++ [last]) := .of_stored hwaits hlast ha h0 hn
          have hmoved : Attempt.movedBy (waits ++ [last]) = n := by
            rw [Attempt.movedBy_concat, Attempt.movedBy_of_interrupted hwaits, Nat.zero_add,
              Attempt.moved, ha]
          obtain ⟨after, noted, hlater, hafter, hexplains⟩ :=
            ih (p := ⟨p.total + n, 0, _⟩) hvalid hstaging final
          refine ⟨after, waits ++ [last] ++ noted, hnotes.append hlater, ?_, ?_⟩
          · intro o ho
            rw [pullFrom_of_next hcall limit rfl hidle, if_neg hn0] at ho
            obtain ⟨later, hlater, rfl⟩ := Option.map_eq_some_iff.mp ho
            exact hafter later hlater
          · rw [pullFrom_of_next hcall limit rfl hidle, if_neg hn0, Option.map_map]
            exact .prepend hfirst hmoved hexplains
      | rejected hx hrejected =>
          exact ExplainsPull.of_ended _ (pullFrom_of_failure hcall limit rfl) hnotes
            (.of_rejected hwaits hlast hx hrejected)
      | ended hx he =>
          exact ExplainsPull.of_ended _ (pullFrom_of_end hcall limit rfl) hnotes
            (.of_decided hwaits hlast hx (he _).symm)
      | failed hx he =>
          exact ExplainsPull.of_ended _ (pullFrom_of_failure hcall limit rfl) hnotes
            (.of_decided hwaits hlast hx (he _).symm)

end Ring

/-! ### Scripts end -/

/-- The number of attempts that a turn answers at most, if each of them lets a pull go on. -/
def ReadTurn.answers : ReadTurn α → Nat
  | chunk items => max 1 items.length
  | act .. => 1

/-- The same for all turns of a script. -/
def ReadTurn.answersOf (script : List (ReadTurn α)) : Nat := (script.map answers).sum

/-- An attempt that lets a pull go on uses up some of the script. -/
theorem Reader.answersOf_read_lt {script : List (ReadTurn α)} {buffer : List α}
    (hx : Attempt.ReadsOn ⟨buffer, (scripted.read script buffer).answer⟩) :
    ReadTurn.answersOf (scripted.read script buffer).state < ReadTurn.answersOf script := by
  match script with
  | [] =>
      rcases hx with hi | ⟨n, ha, h0, -⟩
      · cases hi
      · cases ha
        cases h0
  | .chunk items :: script =>
      rcases hx with hi | ⟨n, ha, h0, hn⟩
      · cases hi
      · have hb : 0 < buffer.length := Nat.lt_of_lt_of_le h0 hn
        simp only [scripted, ReadTurn.answersOf]
        split
        · simp only [List.map_cons, List.sum_cons, ReadTurn.answers]
          omega
        · simp only [List.map_cons, List.sum_cons, ReadTurn.answers, List.length_drop]
          omega
  | .act stored answer :: script =>
      simp only [scripted, ReadTurn.answersOf, List.map_cons, List.sum_cons, ReadTurn.answers]
      omega

theorem Reader.Attempted.length_le {script final : List (ReadTurn α)} {noted : List (Attempt α)}
    (h : Reader.scripted.Attempted script noted final) (hon : ∀ x ∈ noted, x.ReadsOn) :
    noted.length + ReadTurn.answersOf final ≤ ReadTurn.answersOf script := by
  induction h with
  | nil state => simp
  | cons buffer _ ih =>
      obtain ⟨hx, hlater⟩ := List.forall_mem_cons.mp hon
      have hstep := Reader.answersOf_read_lt hx
      have hrest := ih hlater
      rw [List.length_cons]
      omega

/-- A pull that may make more calls than the script sustains has ended. -/
theorem Ring.ExplainsPull.isSome_of_scripted {β : Type} {rejects : Failure → Prop}
    {total calls : Nat} {script final : List (ReadTurn α)} {noted : List (Attempt α)}
    {pull : Option (Outcome β α Nat)}
    (h : ExplainsPull rejects total calls noted (pull.map Outcome.answer))
    (ha : Reader.scripted.Attempted script noted final)
    (hl : ReadTurn.answersOf script < calls) : pull.isSome := by
  cases pull with
  | some o => rfl
  | none =>
      obtain ⟨hon, hcount⟩ : SustainsPull calls noted := h
      have hlength := ha.length_le hon
      have hcalls : calls ≤ noted.length := hcount ▸ List.countP_le_length
      omega

/-! ### Attempts to write -/

/-- Notes each attempt. -/
def Writer.recorded (writer : Writer σ α) : Writer (σ × List (Attempt α)) α where
  write := fun (state, log) run =>
    (writer.write state run).map fun next =>
      (next, log ++ [⟨run, (writer.write state run).answer⟩])
  patience state := writer.patience state.1
  patience_lt state := writer.patience_lt state.1

theorem Writer.recorded_hinders (writer : Writer σ α) :
    writer.recorded.Hinders (fun t s => t.1 = s) writer := by
  rintro ⟨state, log⟩ _ rfl run
  exact .inr ⟨rfl, rfl, rfl⟩

theorem Writer.recorded_attempt (writer : Writer σ α) (state : σ × List (Attempt α))
    (run : List α) :
    ∃ earlier last,
      (writer.recorded.attempt state run).state.2 = state.2 ++ (earlier ++ [last]) ∧
        (∀ x ∈ earlier, x.isInterrupted = true) ∧ last.isInterrupted = false ∧
        (∀ x ∈ earlier ++ [last], x.offered = run) ∧
        (writer.recorded.attempt state run).answer = last.answer.mapError .io := by
  induction hn : writer.patience state.1 using Nat.strong_induction_on generalizing state with
  | _ n ih =>
      have hwrite : (writer.recorded.write state run).answer =
        (writer.write state.1 run).answer := rfl
      cases ha : (writer.write state.1 run).answer with
      | ok n =>
          rw [writer.recorded.attempt_of_ok (hwrite.trans ha)]
          exact ⟨[], ⟨run, .ok n⟩, by rw [← ha]; rfl, by simp, rfl, by simp, rfl⟩
      | error error =>
          cases hi : error.isInterrupted with
          | false =>
              rw [writer.recorded.attempt_of_error (hwrite.trans ha) hi]
              exact ⟨[], ⟨run, .error error⟩, by rw [← ha]; rfl, by simp, hi, by simp, rfl⟩
          | true =>
              rw [writer.recorded.attempt_of_interrupted (hwrite.trans ha) hi]
              obtain ⟨earlier, last, hlog, hinterrupted, hlast, hoffered, hanswer⟩ :=
                ih _ (hn ▸ writer.patience_lt state.1 run error ha hi)
                  (writer.recorded.write state run).state rfl
              refine ⟨⟨run, .error error⟩ :: earlier, last, ?_, ?_, hlast, ?_, hanswer⟩
              · rw [hlog, ← ha]
                exact List.append_assoc _ _ _
              · exact List.forall_mem_cons.mpr ⟨hi, hinterrupted⟩
              · exact List.forall_mem_cons.mpr ⟨rfl, hoffered⟩

namespace Ring

/-- How attempts end a push of which `total` items have been accepted before. All but the last let
it go on, and the last decides the answer; there is none if there was nothing to push. -/
def EndsPush (total : Nat) (noted : List (Attempt α)) (answer : Except Failure Nat) : Prop :=
  noted = [] ∧ answer = .ok total ∨
    ∃ earlier last, noted = earlier ++ [last] ∧ (∀ x ∈ earlier, x.WritesOn) ∧
      last.isInterrupted = false ∧ answer = last.writeEnd (total + Attempt.movedBy earlier)

namespace EndsPush

variable {total : Nat} {waits later : List (Attempt α)} {last : Attempt α}
  {answer : Except Failure Nat} (hw : ∀ x ∈ waits, x.isInterrupted = true)
  (hl : last.isInterrupted = false)

include hw hl

theorem of_last (ha : answer = last.writeEnd total) : EndsPush total (waits ++ [last]) answer := by
  refine .inr ⟨waits, last, rfl, fun x hx => .inl (hw x hx), hl, ?_⟩
  rwa [Attempt.movedBy_of_interrupted hw, Nat.add_zero]

theorem prepend (ha : last.answer = .ok last.offered.length)
    (h : EndsPush (total + last.offered.length) later answer) :
    EndsPush total (waits ++ [last] ++ later) answer := by
  rcases h with ⟨rfl, rfl⟩ | ⟨earlier, final, rfl, hearlier, hfinal, rfl⟩
  · rw [List.append_nil]
    refine .of_last hw hl ?_
    unfold Attempt.writeEnd
    rw [ha]
    exact (if_neg (Nat.lt_irrefl _)).symm
  · refine .inr ⟨waits ++ [last] ++ earlier, final, (List.append_assoc _ _ _).symm, ?_, hfinal, ?_⟩
    · refine List.forall_mem_append.mpr ⟨List.forall_mem_append.mpr ⟨?_, ?_⟩, hearlier⟩
      · exact fun x hx => .inl (hw x hx)
      · simpa using .inr ha
    · have hmoved : last.moved = last.offered.length := by rw [Attempt.moved, ha]
      rw [Attempt.movedBy_append, Attempt.movedBy_concat, Attempt.movedBy_of_interrupted hw,
        hmoved, Nat.zero_add, Nat.add_assoc]

end EndsPush

theorem pushRest_attempts (writer : Writer σ α) (state : σ × List (Attempt α)) (r : Ring α)
    (total : Nat) :
    ∃ noted, (r.pushRest writer.recorded.consumer state total).state.2 = state.2 ++ noted ∧
      EndsPush total noted (r.pushRest writer.recorded.consumer state total).answer := by
  have hok {x : Except IoError Nat} {n} (h : Except.ok n = x.mapError Failure.io) : x = .ok n := by
    cases x <;> cases h
    rfl
  have herror {x : Except IoError Nat} {failure}
      (h : Except.error failure = x.mapError Failure.io) :
      ∃ error, x = .error error ∧ failure = .io error := by
    cases x <;> cases h
    exact ⟨_, rfl, rfl⟩
  fun_induction pushRest writer.recorded.consumer state r total with
  | case1 state r total hs => exact ⟨[], (List.append_nil _).symm, .inl ⟨rfl, rfl⟩⟩
  | case2 state r total item items hs run receipt reports ha =>
      obtain ⟨waits, last, hlog, hwaits, hlast, hoffered, hanswer⟩ :=
        writer.recorded_attempt state run
      obtain ⟨error, -, hio⟩ := herror (ha.symm.trans hanswer)
      cases hio
  | case3 state r total item items hs run receipt reports failure hne ha =>
      obtain ⟨waits, last, hlog, hwaits, hlast, hoffered, hanswer⟩ :=
        writer.recorded_attempt state run
      obtain ⟨error, he, rfl⟩ := herror (ha.symm.trans hanswer)
      exact ⟨_, hlog, .of_last hwaits hlast (by simp only [Attempt.writeEnd, he])⟩
  | case4 state r total item items hs run receipt reports accepted ha hover =>
      obtain ⟨waits, last, hlog, hwaits, hlast, hoffered, hanswer⟩ :=
        writer.recorded_attempt state run
      have hrun : last.offered = run := hoffered last (by simp)
      refine ⟨_, hlog, .of_last hwaits hlast ?_⟩
      simp only [Attempt.writeEnd, hok (ha.symm.trans hanswer), hrun, if_pos hover]
  | case5 state r total item items hs run receipt reports accepted ha hle hshort =>
      obtain ⟨waits, last, hlog, hwaits, hlast, hoffered, hanswer⟩ :=
        writer.recorded_attempt state run
      have hrun : last.offered = run := hoffered last (by simp)
      refine ⟨_, hlog, .of_last hwaits hlast ?_⟩
      simp only [Attempt.writeEnd, hok (ha.symm.trans hanswer), hrun, if_neg hle]
  | case6 state r total item items hs run receipt reports accepted ha hle hge ih =>
      obtain ⟨waits, last, hlog, hwaits, hlast, hoffered, hanswer⟩ :=
        writer.recorded_attempt state run
      have hrun : last.offered = run := hoffered last (by simp)
      obtain rfl : accepted = last.offered.length := by
        rw [hrun]
        omega
      obtain ⟨noted, hrest, hends⟩ := ih
      refine ⟨waits ++ [last] ++ noted, ?_, .prepend hwaits hlast (hok (ha.symm.trans hanswer)) hends⟩
      rw [Outcome.state_after, hrest]
      exact (congrArg (· ++ noted) hlog).trans (List.append_assoc _ _ _)

end Ring

/-! ### What the attempts decide -/

section Attempts

variable [Inhabited α] {r : Ring α} (h : r.Valid) (reader : Reader σ α) (state : σ) (limit : Nat)

theorem Ring.readFrom_recording :
    (r.readFrom reader.recorded.producer limit (state, [])).map (Outcome.mapState Prod.fst) =
      r.readFrom reader.producer limit state :=
  Outcome.Parallel.map_mapState_eq (pullFrom_parallel reader.recorded_hinders.producer
    (Observer.silent_parallel _) rfl r limit ⟨0, 0, []⟩)

include h

theorem Ring.readFrom_attempts :
    ∃ final noted, reader.Attempted state noted final ∧
      (∀ o ∈ r.readFrom reader.recorded.producer limit (state, []), o.state = (final, noted)) ∧
      ExplainsPull (fun _ => False) 0 limit noted
        ((r.readFrom reader.recorded.producer limit (state, [])).map Outcome.answer) := by
  have hstaging : r.Staging (⟨0, 0, []⟩ : Progress α).staging := .inl rfl
  have hr : (Observer.silent : Observer (σ × List (Attempt α)) α).Rejects fun _ => False :=
    fun _ _ _ _ hx => nomatch hx
  obtain ⟨⟨final, noted⟩, _, ⟨hattempted, rfl⟩, hends⟩ := pullFrom_attempts
    reader.recorded_attempts (fun _ _ _ _ hn => hn) hr h hstaging limit (state, [])
  exact ⟨final, noted, hattempted, hends⟩

variable {φ : Type} (filter : Filter φ α) (state' : φ)

omit h in
theorem Stage.readFrom_recording :
    ((Stage.mk r filter.beside).readFrom reader.recorded.producer.beside limit
        (state', state, [])).map (Outcome.mapState fun s => (s.1, s.2.1)) =
      (Stage.mk r filter.beside).readFrom reader.producer.beside limit (state', state) := by
  have hf := filter.beside_parallel fun (t : σ × List (Attempt α)) s => t.1 = s
  have hplain := Ring.pullFrom_parallel reader.recorded_hinders.producer.beside hf
    (t := (state', state, [])) (s := (state', state)) ⟨rfl, rfl⟩ r limit ⟨0, 0, []⟩
  exact (Outcome.Parallel.map_eq_map (g := id) (fun _ _ hr => congrArg₂ Prod.mk hr.1 hr.2)
    hplain).trans (congrFun Option.map_id _)

theorem Stage.readFrom_attempts :
    ∃ final noted, reader.Attempted state noted final ∧
      (∀ o ∈ (Stage.mk r filter.beside).readFrom reader.recorded.producer.beside limit
        (state', state, []), o.state.2 = (final, noted)) ∧
      Ring.ExplainsPull (∃ cause, · = .rejected cause) 0 limit noted
        (((Stage.mk r filter.beside).readFrom reader.recorded.producer.beside limit
          (state', state, [])).map Outcome.answer) := by
  have hstaging : r.Staging (⟨0, 0, []⟩ : Ring.Progress α).staging := .inl rfl
  obtain ⟨⟨final, noted⟩, _, ⟨hattempted, rfl⟩, hends⟩ := Ring.pullFrom_attempts
    reader.recorded_attempts.beside
    (fun seen => filter.beside_keeps fun s : σ × List (Attempt α) => s = seen)
    filter.beside.observer_rejects h hstaging limit (state', state, [])
  exact ⟨final, noted, hattempted, hends⟩

end Attempts

section Scripts

variable [Inhabited α] {r : Ring α} (h : r.Valid) {script : List (ReadTurn α)} {limit : Nat}
  (hl : ReadTurn.answersOf script < limit)

include h hl

/-- A pull from a script ends. -/
theorem Ring.readFrom_scripted : (r.readFrom Reader.scripted.producer limit script).isSome := by
  obtain ⟨final, noted, hattempted, -, hexplains⟩ :=
    readFrom_attempts h Reader.scripted script limit
  rw [← readFrom_recording, Option.isSome_map]
  exact hexplains.isSome_of_scripted hattempted hl

theorem Stage.readFrom_scripted {φ : Type} (filter : Filter φ α) (state : φ) :
    ((Stage.mk r filter.beside).readFrom Reader.scripted.producer.beside limit
      (state, script)).isSome := by
  obtain ⟨final, noted, hattempted, -, hexplains⟩ :=
    readFrom_attempts h Reader.scripted script limit filter state
  rw [← readFrom_recording, Option.isSome_map]
  exact hexplains.isSome_of_scripted hattempted hl

end Scripts

theorem Ring.writeTo_recording (r : Ring α) (writer : Writer σ α) (state : σ) :
    (r.writeTo writer.recorded.consumer (state, [])).mapState Prod.fst =
      r.writeTo writer.consumer state :=
  (writeTo_parallel writer.recorded_hinders.consumer rfl r).mapState_eq

theorem Ring.writeTo_ends (r : Ring α) (writer : Writer σ α) (state : σ) :
    EndsPush 0 (r.writeTo writer.recorded.consumer (state, [])).state.2
      (r.writeTo writer.recorded.consumer (state, [])).answer := by
  obtain ⟨noted, hlog, hends⟩ := pushRest_attempts writer (state, []) r.forget 0
  exact (hlog.trans (List.nil_append _)) ▸ hends

/-- **Interruptions are not seen.** Let interruptions be inserted into the script of a stream. A
ring that pulls from it ends alike, so does a stage, its filter is shown the same runs, and a ring
that is pushed to it ends alike, the same items being accepted.

A pull from a script ends, if it may make more calls than the script answers with items.

What any stream does at its attempts, the interrupted ones among them, decides how the transfer
ends: an error that is not an interruption is the answer, an attempt to read that is answered with
nothing ends the pull with the items stored before, and an interruption does neither. So a pull
that has not ended has met neither, and each of its calls has made one attempt that was not
interrupted. -/
theorem interruptions_unseen [Inhabited α] {r : Ring α} (h : r.Valid) :
    (∀ fine coarse : List (ReadTurn α), Inserted ReadTurn.Interrupts fine coarse → ∀ limit,
      (r.readFrom Reader.scripted.producer limit fine).map (Outcome.mapState fun _ => ()) =
        (r.readFrom Reader.scripted.producer limit coarse).map (Outcome.mapState fun _ => ()) ∧
      ∀ (φ : Type) (filter : Filter φ α) (state : φ),
        ((Stage.mk r filter.beside).readFrom Reader.scripted.producer.beside limit
            (state, fine)).map (Outcome.mapState Prod.fst) =
          ((Stage.mk r filter.beside).readFrom Reader.scripted.producer.beside limit
            (state, coarse)).map (Outcome.mapState Prod.fst) ∧
        ((Stage.mk r filter.beside).readFromRecorded Reader.scripted.producer.beside limit
            (state, fine)).map (Outcome.mapState fun s => (s.1.1, runsOf s.2.showings)) =
          ((Stage.mk r filter.beside).readFromRecorded Reader.scripted.producer.beside limit
            (state, coarse)).map (Outcome.mapState fun s => (s.1.1, runsOf s.2.showings))) ∧
    (∀ (script : List (ReadTurn α)) (limit : Nat), ReadTurn.answersOf script < limit →
      (r.readFrom Reader.scripted.producer limit script).isSome ∧
      ∀ (φ : Type) (filter : Filter φ α) (state : φ),
        ((Stage.mk r filter.beside).readFrom Reader.scripted.producer.beside limit
          (state, script)).isSome) ∧
    (∀ fine coarse : List WriteTurn, Inserted WriteTurn.Interrupts fine coarse → ∀ got,
      (r.writeTo Writer.scripted.consumer (fine, got)).mapState Prod.snd =
        (r.writeTo Writer.scripted.consumer (coarse, got)).mapState Prod.snd) ∧
    (∀ (σ : Type) (reader : Reader σ α) (state : σ) (limit : Nat),
      (r.readFrom reader.recorded.producer limit (state, [])).map (Outcome.mapState Prod.fst) =
        r.readFrom reader.producer limit state ∧
      (∃ final noted, reader.Attempted state noted final ∧
        (∀ o ∈ r.readFrom reader.recorded.producer limit (state, []), o.state = (final, noted)) ∧
        Ring.ExplainsPull (fun _ => False) 0 limit noted
          ((r.readFrom reader.recorded.producer limit (state, [])).map Outcome.answer)) ∧
      ∀ (φ : Type) (filter : Filter φ α) (state' : φ),
        ((Stage.mk r filter.beside).readFrom reader.recorded.producer.beside limit
            (state', state, [])).map (Outcome.mapState fun s => (s.1, s.2.1)) =
          (Stage.mk r filter.beside).readFrom reader.producer.beside limit (state', state) ∧
        ∃ final noted, reader.Attempted state noted final ∧
          (∀ o ∈ (Stage.mk r filter.beside).readFrom reader.recorded.producer.beside limit
            (state', state, []), o.state.2 = (final, noted)) ∧
          Ring.ExplainsPull (∃ cause, · = .rejected cause) 0 limit noted
            (((Stage.mk r filter.beside).readFrom reader.recorded.producer.beside limit
              (state', state, [])).map Outcome.answer)) ∧
    ∀ (σ : Type) (writer : Writer σ α) (state : σ),
      (r.writeTo writer.recorded.consumer (state, [])).mapState Prod.fst =
        r.writeTo writer.consumer state ∧
      Ring.EndsPush 0 (r.writeTo writer.recorded.consumer (state, [])).state.2
        (r.writeTo writer.recorded.consumer (state, [])).answer := by
  refine ⟨?_, ?_, ?_, ?_, ?_⟩
  · intro fine coarse hi limit
    refine ⟨r.readFrom_inserted hi limit, fun φ filter state => ⟨?_, ?_⟩⟩
    · exact Stage.readFrom_inserted r filter state hi limit
    · exact Stage.readFromRecorded_inserted r filter state hi limit
  · intro script limit hl
    exact ⟨Ring.readFrom_scripted h hl, fun φ => Stage.readFrom_scripted h hl⟩
  · intro fine coarse hi got
    exact r.writeTo_inserted hi got
  · intro σ reader state limit
    refine ⟨Ring.readFrom_recording reader state limit, ?_, fun φ filter state' => ⟨?_, ?_⟩⟩
    · exact Ring.readFrom_attempts h reader state limit
    · exact Stage.readFrom_recording reader state limit filter state'
    · exact Stage.readFrom_attempts h reader state limit filter state'
  · intro σ writer state
    exact ⟨r.writeTo_recording writer state, r.writeTo_ends writer state⟩

/-- A ring whose next free slot is the first, in front of its items. -/
def wrapped : Ring Nat := ⟨[0, 1, 2], 1, 2, true⟩

/-- Hands out an item and then fails. -/
def failing : List (ReadTurn Nat) := [.chunk [3], .act [] (.error (.bare .notFound))]

/-- The same, interrupted each time. -/
def faltering : List (ReadTurn Nat) :=
  [.act [] (.error (.bare .interrupted)), .chunk [3], .act [] (.error (.bare .interrupted)),
    .act [] (.error (.bare .notFound))]

/-- The first call fills the free slot, and the second fails. -/
theorem readFrom_failing :
    wrapped.readFrom Reader.scripted.producer 3 failing =
      some ⟨⟨[3, 1, 2], 1, 3, false⟩, [], [], .error (.io (.bare .notFound))⟩ := by
  have hread : (Reader.scripted.read failing [0]).answer = .ok 1 := rfl
  have hfail : (Reader.scripted.read [.act [] (.error (.bare .notFound))] [0, 0, 0]).answer =
    .error (.bare .notFound) := rfl
  have hfirst : Reader.scripted.producer failing [0] =
      ⟨[.act [] (.error (.bare .notFound))], [3], .ok 1⟩ := Reader.scripted.attempt_of_ok hread
  have hsecond : Reader.scripted.producer [.act [] (.error (.bare .notFound))] [0, 0, 0] =
      ⟨[], [], .error (.io (.bare .notFound))⟩ := Reader.scripted.attempt_of_error hfail rfl
  have hcall : wrapped.pullOnce Reader.scripted.producer .silent failing [] =
      (⟨⟨[3, 1, 2], 1, 3, false⟩, [.act [] (.error (.bare .notFound))], [], .ok (some 1)⟩, []) := by
    have hoffered : window wrapped.slots wrapped.tail wrapped.vacancy = [0] := rfl
    change (wrapped.pullInPlace _ _ _, _) = _
    unfold Ring.pullInPlace
    simp only [hoffered, hfirst]
    rfl
  have hlast : (⟨[3, 1, 2], 1, 3, false⟩ : Ring Nat).pullOnce Reader.scripted.producer .silent
      [.act [] (.error (.bare .notFound))] [] =
        (⟨⟨[3, 1, 2], 1, 3, false⟩, [], [], .error (.io (.bare .notFound))⟩, [0, 0, 0]) := by
    change Ring.pullStaged _ _ _ _ [0, 0, 0] = _
    unfold Ring.pullStaged
    simp only [hsecond]
    rfl
  unfold Ring.readFrom Ring.pull
  rw [Ring.pullFrom_of_next hcall 2 rfl (by decide), Ring.pullFrom_of_failure hlast 1 rfl]
  rfl

/-- Both pulls fail with the error of the reader, and a stage that pulls from it ends too. -/
theorem interruptions_unseen_wrapped :
    wrapped.Valid ∧ Inserted ReadTurn.Interrupts faltering failing ∧
      ReadTurn.answersOf failing < 3 ∧
      wrapped.readFrom Reader.scripted.producer 3 failing =
        some ⟨⟨[3, 1, 2], 1, 3, false⟩, [], [], .error (.io (.bare .notFound))⟩ ∧
      (wrapped.readFrom Reader.scripted.producer 3 faltering).map
          (Outcome.mapState fun _ => ()) =
        some ⟨⟨[3, 1, 2], 1, 3, false⟩, (), [], .error (.io (.bare .notFound))⟩ ∧
      ((Stage.mk wrapped (Filter.accepting : Filter Unit Nat).beside).readFrom
        Reader.scripted.producer.beside 3 ((), failing)).isSome := by
  have hv : wrapped.Valid := ⟨by decide, by decide, by decide, by decide⟩
  have hi : Inserted ReadTurn.Interrupts faltering failing :=
    .insert ⟨rfl⟩ (.keep _ (.insert ⟨rfl⟩ (.keep _ .nil)))
  have hl : ReadTurn.answersOf failing < 3 := by decide
  obtain ⟨hinserted, hscripted, -⟩ := interruptions_unseen hv
  obtain ⟨hsame, -⟩ := hinserted faltering failing hi 3
  obtain ⟨-, hstage⟩ := hscripted failing 3 hl
  rw [readFrom_failing] at hsame
  exact ⟨hv, hi, hl, readFrom_failing, hsame, hstage Unit Filter.accepting ()⟩

end Carousel
