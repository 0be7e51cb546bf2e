import Carousel.Command
import Carousel.Proofs.Position

/-! # Refused cursor operations

A seek that is refused, whether its anchor is given itself, by number or by the byte stream's
target, and a step back that is refused leave the ring as it is, the marker included
(`Ring.refusals_intact`). So in a run of operations of every sort (`Ring.serveAll`) those that are
refused among these may be left out, and what the others give is the same
(`Ring.serveAll_leaveOut`, by induction on the run). -/

namespace Carousel

variable {σ α : Type}

/-! ### Byte-stream targets -/

/-- The seek with the same offset from the same anchor. -/
inductive Ring.Target.Means : Ring.Target → Int64 → Anchor → Prop where
  | start {position : UInt64} {offset : Int64} (same : offset.toInt = position.toNat) :
      Means (.start position) offset .start
  | current (offset : Int64) : Means (.current offset) offset .reader
  | finish (offset : Int64) : Means (.finish offset) offset .writer

/-- Only a position behind the signed 64-bit numbers is not a seek of the ring. -/
theorem Ring.Target.exists_means_or (target : Ring.Target) :
    (∃ offset anchor, target.Means offset anchor) ∨
      ∃ position, target = .start position ∧ Int64.maxValue.toInt < position.toNat := by
  cases target with
  | start position =>
      rcases Int.lt_or_le Int64.maxValue.toInt position.toNat with hlt | hle
      · exact .inr ⟨position, rfl, hlt⟩
      · have hmax := Int64.toInt_maxValue
        exact .inl ⟨Int64.ofNat position.toNat, .start,
          .start (Int64.toInt_ofNat_of_lt (by omega))⟩
  | current offset => exact .inl ⟨offset, .reader, .current offset⟩
  | finish offset => exact .inl ⟨offset, .writer, .finish offset⟩

namespace Ring

variable {r : Ring α} {offset : Int64} {anchor : Anchor} {target : Target}

theorem ioSeek_of_means (h : target.Means offset anchor) :
    r.ioSeek target =
      ((r.seek offset anchor).1, (r.seek offset anchor).2.mapError Failure.toIo) := by
  cases h with
  | @start position offset same =>
      have hle := Int64.toInt_le offset
      have hmax := Int64.toInt_maxValue
      have hoffset : Int64.ofNat position.toNat = offset := by
        apply Int64.toInt_inj.mp
        rw [Int64.toInt_ofNat_of_lt (by omega), same]
      unfold ioSeek
      dsimp only
      rw [if_pos (by omega), hoffset]
  | current => rfl
  | finish => rfl

theorem ioSeek_of_beyond {position : UInt64} (h : Int64.maxValue.toInt < position.toNat) :
    r.ioSeek (.start position) =
      (r, .error (.custom .invalidInput (.text "seek offset exceeds i64::MAX"))) := by
  unfold ioSeek
  dsimp only
  exact if_neg (by omega)

/-! ### Refused, and so unchanged -/

theorem seek_of_error {failure : Failure} (h : (r.seek offset anchor).2 = .error failure) :
    (r.seek offset anchor).1 = r := by
  rcases Int.lt_or_le (r.aim offset anchor) 0 with hneg | hpos
  · rw [seek_of_aim_neg hneg]
  · rw [seek_of_aim_nonneg hpos] at h
    cases h

theorem seekCode_of_error {code : Int} {failure : Failure}
    (h : (r.seekCode offset code).2 = .error failure) : (r.seekCode offset code).1 = r := by
  unfold seekCode at h ⊢
  cases hcode : Anchor.ofCode code with
  | ok anchor =>
      rw [hcode] at h
      exact seek_of_error h
  | error => rfl

theorem ioSeek_of_error {error : IoError} (h : (r.ioSeek target).2 = .error error) :
    (r.ioSeek target).1 = r := by
  rcases target.exists_means_or with ⟨offset, anchor, hmeans⟩ | ⟨position, rfl, hbeyond⟩
  · rw [ioSeek_of_means hmeans] at h ⊢
    cases hanswer : (r.seek offset anchor).2 with
    | ok p =>
        rw [hanswer] at h
        cases h
    | error failure => exact seek_of_error hanswer
  · rw [ioSeek_of_beyond hbeyond]

theorem unreadItem_of_error {failure : Failure} (h : r.unreadItem.2 = .error failure) :
    r.unreadItem.1 = r := by
  unfold unreadItem at h ⊢
  split at h
  · cases h
  · next hm => rw [if_neg hm]

end Ring

/-! ### Runs of operations -/

/-- An operation of a ring, of a stage around it, or of the ring as a byte stream. -/
inductive Request (σ α : Type) where
  | ring (command : Command σ α)
  | stage (filter : Filter σ α) (command : Command σ α)
  | io (command : IoCommand α)

/-- Whether a command is for the read cursor alone: a seek or a step back. -/
def Command.isCursor : Command σ α → Bool
  | .seek .. => true
  | .seekCode .. => true
  | .unreadItem => true
  | _ => false

def IoCommand.isCursor : IoCommand α → Bool
  | .seek _ => true
  | .position => true
  | .rewind => true
  | _ => false

def Request.isCursor : Request σ α → Bool
  | .ring command => command.isCursor
  | .stage _ command => command.isCursor
  | .io command => command.isCursor

namespace Ring

variable [Inhabited α]

/-- Carries out an operation; there is no result of a pull that has not ended after its limit of
calls. -/
def serve (r : Ring α) (request : Request σ α) (state : σ) : Option (Result σ α) :=
  match request with
  | .ring command => r.perform command state
  | .stage filter command => (Stage.mk r filter).perform command state
  | .io command => some (r.performIo command state)

/-- Carries out one operation after the other, and gives the results in order, up to a pull that
has not ended after its limit of calls. -/
def serveAll (r : Ring α) : List (Request σ α) → σ → List (Result σ α)
  | [], _ => []
  | request :: requests, state =>
    match r.serve request state with
    | none => []
    | some result => result :: serveAll result.ring requests result.state

end Ring

/-- The items of a list but those at the marked places; what is behind the marks stays. -/
def leaveOut {β : Type} : (marks : List Bool) → List β → List β
  | true :: marks, _ :: items => leaveOut marks items
  | false :: marks, item :: items => item :: leaveOut marks items
  | _, items => items

/-- A failure of a command has the ring's own failure behind it. -/
theorem exists_of_mapError {ε β γ : Type} {answer : Except ε β} {value : β → γ} {wrap : ε → Cause}
    {cause : Cause} (h : (answer.map value).mapError wrap = .error cause) :
    ∃ error, answer = .error error := by
  cases answer with
  | ok => cases h
  | error error => exact ⟨error, rfl⟩

namespace Ring

variable [Inhabited α] {r : Ring α} {state : σ} {result : Result σ α} {cause : Cause}

theorem perform_of_error {command : Command σ α} (hc : command.isCursor = true)
    (hr : r.perform command state = some result) (he : result.answer = .error cause) :
    result.ring = r ∧ result.state = state := by
  cases command with
  | seek offset anchor =>
      cases hr
      obtain ⟨failure, hfailure⟩ := exists_of_mapError he
      exact ⟨seek_of_error hfailure, rfl⟩
  | seekCode offset code =>
      cases hr
      obtain ⟨failure, hfailure⟩ := exists_of_mapError he
      exact ⟨seekCode_of_error hfailure, rfl⟩
  | unreadItem =>
      cases hr
      obtain ⟨failure, hfailure⟩ := exists_of_mapError he
      exact ⟨unreadItem_of_error hfailure, rfl⟩
  | _ => cases hc

theorem performIo_of_error {command : IoCommand α} (hc : command.isCursor = true)
    (he : (r.performIo command state).answer = .error cause) :
    (r.performIo command state).ring = r ∧ (r.performIo command state).state = state := by
  cases command with
  | seek target =>
      obtain ⟨error, herror⟩ := exists_of_mapError he
      exact ⟨ioSeek_of_error herror, rfl⟩
  | position =>
      obtain ⟨error, herror⟩ := exists_of_mapError he
      exact ⟨ioSeek_of_error herror, rfl⟩
  | rewind =>
      have hanswer : ((r.ioSeek (.start 0)).2.map fun _ => Value.nothing).mapError Cause.io =
        (.error cause : Except Cause (Value α)) := he
      obtain ⟨error, herror⟩ := exists_of_mapError hanswer
      exact ⟨ioSeek_of_error herror, rfl⟩
  | _ => cases hc

/-- A stage hands a cursor operation on to its ring. -/
theorem performStage_of_isCursor {filter : Filter σ α} {command : Command σ α}
    (hc : command.isCursor = true) :
    (Stage.mk r filter).perform command state = r.perform command state := by
  cases command with
  | write | writeItem | readFrom => cases hc
  | _ => rfl

theorem serve_of_error {request : Request σ α} (hc : request.isCursor = true)
    (hr : r.serve request state = some result) (he : result.answer = .error cause) :
    result.ring = r ∧ result.state = state := by
  cases request with
  | ring command => exact perform_of_error hc hr he
  | stage filter command =>
      have hring : r.perform command state = some result :=
        (performStage_of_isCursor hc).symm.trans hr
      exact perform_of_error hc hring he
  | io command =>
      cases hr
      exact performIo_of_error hc he

theorem serveAll_of_none {request : Request σ α} (hr : r.serve request state = none)
    (requests : List (Request σ α)) : r.serveAll (request :: requests) state = [] := by
  unfold serveAll
  rw [hr]

theorem serveAll_of_some {request : Request σ α} (hr : r.serve request state = some result)
    (requests : List (Request σ α)) :
    r.serveAll (request :: requests) state =
      result :: result.ring.serveAll requests result.state := by
  rw [serveAll, hr]

/-- The marked operations of a run are cursor operations that are refused in it. -/
def Refused (r : Ring α) (requests : List (Request σ α)) (state : σ) (marks : List Bool) : Prop :=
  ∀ i : Nat, marks[i]? = some true →
    ∃ request result cause, requests[i]? = some request ∧
      (r.serveAll requests state)[i]? = some result ∧
      request.isCursor = true ∧ result.answer = .error cause

/-- **A run gives the same without its refused cursor operations.** -/
theorem serveAll_leaveOut {requests : List (Request σ α)} {marks : List Bool}
    (h : r.Refused requests state marks) :
    r.serveAll (leaveOut marks requests) state = leaveOut marks (r.serveAll requests state) := by
  induction requests generalizing r state marks with
  | nil =>
      rcases marks with - | ⟨- | -, marks⟩ <;> rfl
  | cons request requests ih =>
      rcases marks with - | ⟨mark, marks⟩
      · rfl
      cases hr : r.serve request state with
      | none =>
          have hnone := serveAll_of_none hr
          cases mark with
          | false =>
              rw [leaveOut, hnone, hnone]
              rfl
          | true =>
              obtain ⟨_, _, _, _, hresult, _⟩ := h 0 rfl
              rw [hnone] at hresult
              cases hresult
      | some result =>
          have hsome := serveAll_of_some hr
          have hlater : result.ring.Refused requests result.state marks := by
            intro i hi
            obtain ⟨later, hlater⟩ := h (i + 1) hi
            rw [hsome] at hlater
            exact ⟨later, hlater⟩
          cases mark with
          | false => rw [leaveOut, hsome, hsome, leaveOut, ih hlater]
          | true =>
              -- this one has been refused, so the others find what it found
              obtain ⟨_, _, cause, hrequest, hresult, hc, he⟩ := h 0 rfl
              rw [hsome] at hresult
              cases hrequest
              cases hresult
              obtain ⟨hring, hstate⟩ := serve_of_error hc hr he
              rw [leaveOut, hsome, leaveOut, ← ih hlater, hring, hstate]

/-! ### When a cursor operation is refused -/

/-- A ring refuses cursor operations for these reasons and for no others, and is then as it was. -/
structure RefusesIntact (r : Ring α) : Prop where
  /-- A seek is refused exactly if it aims before the start, and names the position aimed at. -/
  seek (offset : Int64) (anchor : Anchor) :
    (r.aim offset anchor < 0 →
      r.seek offset anchor = (r, .error (.negativePosition (r.aim offset anchor)))) ∧
    (0 ≤ r.aim offset anchor → ∃ next p, r.seek offset anchor = (next, .ok p))
  /-- A number that is no anchor's is refused whatever the offset; with the number of an anchor
  the seek is that from the anchor. -/
  seekCode (offset : Int64) :
    (∀ code, code ≠ 0 → code ≠ 1 → code ≠ 2 →
      r.seekCode offset code = (r, .error (.unknownAnchor code))) ∧
    r.seekCode offset 0 = r.seek offset .start ∧ r.seekCode offset 1 = r.seek offset .reader ∧
      r.seekCode offset 2 = r.seek offset .writer
  /-- As a byte stream the ring refuses positions beyond the signed 64-bit numbers and what its own
  seek refuses, as invalid input; what its own seek carries out it carries out alike. -/
  ioSeek (target : Target) :
    (∃ position, target = .start position ∧ Int64.maxValue.toInt < position.toNat ∧
      r.ioSeek target =
        (r, .error (.custom .invalidInput (.text "seek offset exceeds i64::MAX")))) ∨
    ∃ offset anchor, target.Means offset anchor ∧
      (r.aim offset anchor < 0 →
        r.ioSeek target =
          (r, .error (.custom .invalidInput
            (.failure (.negativePosition (r.aim offset anchor)))))) ∧
      (0 ≤ r.aim offset anchor →
        ∃ next p, r.seek offset anchor = (next, .ok p) ∧ r.ioSeek target = (next, .ok p))
  /-- A step back is refused exactly if the marker is not set. -/
  unreadItem :
    (r.canUnread = false → r.unreadItem = (r, .error .nothingToUnread)) ∧
    (r.canUnread = true → ∃ next, r.unreadItem = (next, .ok ()))
  /-- In a run of operations of every sort, whatever foreign code they run, the results of the
  others do not depend on those that are refused. -/
  serveAll {σ : Type} (requests : List (Request σ α)) (state : σ) (marks : List Bool) :
    r.Refused requests state marks →
      r.serveAll (leaveOut marks requests) state = leaveOut marks (r.serveAll requests state)

omit [Inhabited α] in
theorem seekCode_of_unknown {offset : Int64} {code : Int} (h0 : code ≠ 0) (h1 : code ≠ 1)
    (h2 : code ≠ 2) : r.seekCode offset code = (r, .error (.unknownAnchor code)) := by
  unfold seekCode Anchor.ofCode
  rw [if_neg h0, if_neg h1, if_neg h2]

/-- **A refused cursor operation changes nothing**, in any state of a ring: neither the ring nor
what comes after it in a run. -/
theorem refusals_intact (r : Ring α) : r.RefusesIntact where
  seek offset anchor := by
    refine ⟨seek_of_aim_neg, ?_⟩
    intro h
    exact ⟨_, _, seek_of_aim_nonneg h⟩
  seekCode offset := ⟨fun _ => seekCode_of_unknown, rfl, rfl, rfl⟩
  ioSeek target := by
    rcases target.exists_means_or with ⟨offset, anchor, hmeans⟩ | ⟨position, rfl, hbeyond⟩
    · refine .inr ⟨offset, anchor, hmeans, ?_, ?_⟩
      · intro h
        rw [ioSeek_of_means hmeans, seek_of_aim_neg h]
        rfl
      · intro h
        refine ⟨_, _, seek_of_aim_nonneg h, ?_⟩
        rw [ioSeek_of_means hmeans, seek_of_aim_nonneg h]
        rfl
    · exact .inl ⟨position, rfl, hbeyond, ioSeek_of_beyond hbeyond⟩
  unreadItem := by
    unfold Ring.unreadItem
    refine ⟨?_, ?_⟩
    · intro hm
      rw [if_neg (by rw [hm]; decide)]
    · intro hm
      exact ⟨_, if_pos hm⟩
  serveAll _ _ _ := serveAll_leaveOut

/-- A number that is no anchor's and a position beyond the range, between an item that is read and
the step back to it: the step back succeeds, and the run is as it is without the two. -/
theorem refusals_intact_between :
    (⟨[7, 8], 0, 2, false⟩ : Ring Nat).Refused
        ([.ring .readItem, .ring (.seekCode (-1) 3), .io (.seek (.start 9223372036854775808)),
          .ring .unreadItem] : List (Request Unit Nat)) () [false, true, true] ∧
      (⟨[7, 8], 0, 2, false⟩ : Ring Nat).serveAll
          ([.ring .readItem, .ring .unreadItem] : List (Request Unit Nat)) () =
        [⟨⟨[7, 8], 1, 1, true⟩, (), [], .ok (.item 7), .nothing⟩,
          ⟨⟨[7, 8], 0, 2, false⟩, (), [], .ok .nothing, .nothing⟩] := by
  have hrefused : (⟨[7, 8], 0, 2, false⟩ : Ring Nat).Refused
      ([.ring .readItem, .ring (.seekCode (-1) 3), .io (.seek (.start 9223372036854775808)),
        .ring .unreadItem] : List (Request Unit Nat)) () [false, true, true] := by
    intro i hi
    match i, hi with
    | 1, _ => exact ⟨_, _, _, rfl, rfl, rfl, rfl⟩
    | 2, _ => exact ⟨_, _, _, rfl, rfl, rfl, rfl⟩
    | 0, hi => cases hi
    | _ + 3, hi => cases hi
  exact ⟨hrefused, (refusals_intact _).serveAll _ () _ hrefused⟩

end Ring

end Carousel
