import Carousel.Proofs.Checked.Transfer

/-! # No operation fails in a step

Every command of a ring, of a stage around it, and of the ring as a byte stream once more, in
checked steps. On a ring that any run of operations may have left, and whatever a command is given,
each is carried out without a `Fault` and does what the plain command does
(`faultless_of_undergoAll`). Two things have to be granted: that positions in the ring are signed
64-bit numbers, and that the items which a pull accepts can be counted in 64 bits. -/

namespace Carousel

variable {σ α : Type}

open Checked

namespace Ring

/-! ### Byte streams -/

def ioReadChecked (r : Ring α) (buffer : List α) :
    Checked (Ring α × List α × Except IoError Nat) := do
  let (after, buffer, answer) ← r.readChecked buffer
  return (after, buffer,
    match answer with
    | .ok n => .ok n
    | .error .endOfData => .ok 0
    | .error failure => .error failure.toIo)

def readExactChecked :
    (turns : Nat) → Ring α → List α → Checked (Ring α × List α × Except IoError Unit)
  | turns, r, buffer =>
    if buffer.isEmpty then .ok (r, [], .ok ())
    else
      match turns with
      | 0 => .error .endless
      | turns + 1 => do
        let (left, filled, answer) ← r.ioReadChecked buffer
        match answer with
        | .error error => return (left, filled, .error error)
        | .ok 0 =>
          return (left, filled, .error (.note .unexpectedEof "failed to fill whole buffer"))
        | .ok (n + 1) =>
          let parts ← split filled (n + 1)
          let (left, rest, answer) ← readExactChecked turns left parts.2
          return (left, parts.1 ++ rest, answer)

def readToEndChecked [Inhabited α] (size : Nat → Nat) :
    (turns : Nat) → Ring α → Nat → Checked (Ring α × List α × Except IoError Unit)
  | 0, _, _ => .error .endless
  | turns + 1, r, k => do
    let (left, filled, answer) ← r.ioReadChecked (List.replicate (size k + 1) default)
    match answer with
    | .error error => return (left, [], .error error)
    | .ok 0 => return (left, [], .ok ())
    | .ok (n + 1) =>
      let done ← slice filled 0 (n + 1)
      let (left, rest, answer) ← readToEndChecked size turns left (k + 1)
      return (left, done ++ rest, answer)

def readToStringChecked [Inhabited α] (decode : List α → Option String) (size : Nat → Nat)
    (r : Ring α) : Checked (Ring α × Except IoError (Nat × String)) := do
  let (left, items, answer) ← readToEndChecked size (r.count + 1) r 0
  match answer with
  | .error error => return (left, .error error)
  | .ok () =>
    match decode items with
    | some text => return (left, .ok (items.length, text))
    | none => return (left, .error (.note .invalidData "stream did not contain valid UTF-8"))

def ioWriteChecked (r : Ring α) (run : List α) : Checked (Receipt IoError (Ring α)) := do
  let after ← r.writeChecked run
  return ⟨after, r.writeEvents run.length, .ok run.length⟩

def writeAllChecked :
    (turns : Nat) → Ring α → List α → Checked (Ring α × List Event × Except IoError Unit)
  | turns, r, items =>
    if items.isEmpty then .ok (r, [], .ok ())
    else
      match turns with
      | 0 => .error .endless
      | turns + 1 => do
        let receipt ← r.ioWriteChecked items
        match receipt.answer with
        | .error error => return (receipt.state, receipt.events, .error error)
        | .ok 0 =>
          return (receipt.state, receipt.events,
            .error (.note .writeZero "failed to write whole buffer"))
        | .ok (n + 1) =>
          let rest ← slice items (n + 1) items.length
          let (after, events, answer) ← writeAllChecked turns receipt.state rest
          return (after, receipt.events ++ events, answer)

def ioSeekChecked (r : Ring α) (target : Target) : Checked (Ring α × Except IoError Nat) :=
  match target with
  | .start position =>
    if position.toNat ≤ Int64.maxValue.toInt then do
      let (moved, answer) ← r.seekChecked (Int64.ofNat position.toNat) .start
      return (moved, answer.mapError Failure.toIo)
    else .ok (r, .error (.custom .invalidInput (.text "seek offset exceeds i64::MAX")))
  | .current offset => do
    let (moved, answer) ← r.seekChecked offset .reader
    return (moved, answer.mapError Failure.toIo)
  | .finish offset => do
    let (moved, answer) ← r.seekChecked offset .writer
    return (moved, answer.mapError Failure.toIo)

section

variable {r : Ring α} (h : r.Valid) (ha : r.Addressable)

include h ha

theorem ioReadChecked_eq (buffer : List α) :
    r.ioReadChecked buffer = .ok ((r.ioRead buffer).left buffer) := by
  unfold ioReadChecked
  rw [readChecked_eq h ha, ok_bind]
  rfl

/-- Every turn but the last fills a slot. -/
theorem readExactChecked_eq (buffer : List α) {turns : Nat} (ht : buffer.length ≤ turns) :
    readExactChecked turns r buffer = .ok (r.readExact buffer) := by
  induction turns generalizing r buffer with
  | zero =>
      rw [List.length_eq_zero_iff.mp (Nat.le_zero.mp ht), readExactChecked, readExact]
      rfl
  | succ turns ih =>
      have hk : r.Keeps (r.ioRead buffer).state := keeps_read h buffer
      have hfilled : ((r.ioRead buffer).buffer buffer).length = buffer.length := length_cover _ _
      have hle := Nat.min_le_left buffer.length r.count
      rw [readExactChecked, readExact]
      split
      · rfl
      · simp only [ioReadChecked_eq h ha, ok_bind, Delivery.left, answer_ioRead]
        rcases hn : min buffer.length r.count with _ | n
        · rfl
        · rw [hn] at hle
          have hsplit : n + 1 ≤ ((r.ioRead buffer).buffer buffer).length := by omega
          have hleft : (((r.ioRead buffer).buffer buffer).drop (n + 1)).length ≤ turns := by
            rw [List.length_drop]
            omega
          simp only [split_ok hsplit, ok_bind, ih hk.valid (ha.of_keeps hk) _ hleft]
          rfl

/-- Every turn but the last consumes an item. -/
theorem readToEndChecked_eq [Inhabited α] (size : Nat → Nat) (k : Nat) {turns : Nat}
    (ht : r.count < turns) :
    readToEndChecked size turns r k = .ok (r.readToEnd size k) := by
  induction turns generalizing r k with
  | zero => exact absurd ht (Nat.not_lt_zero _)
  | succ turns ih =>
      rw [readToEndChecked, readToEnd]
      generalize List.replicate (size k + 1) (default : α) = buffer
      have hk : r.Keeps (r.ioRead buffer).state := keeps_read h buffer
      have hle := Nat.min_le_left buffer.length r.count
      have hanswer := answer_ioRead r buffer
      simp only [ioReadChecked_eq h ha, ok_bind, Delivery.left]
      have hlt {n : Nat} : (r.ioRead buffer).answer = .ok (n + 1) →
          (r.ioRead buffer).state.count < r.count := count_ioRead_lt
      generalize r.ioRead buffer = d at hk hanswer hlt ⊢
      obtain ⟨left, stored, answer⟩ := d
      cases hanswer
      rcases hn : min buffer.length r.count with _ | n
      · rfl
      · have hslice : n + 1 ≤ (cover buffer stored).length := by
          rw [length_cover]
          omega
        have hcount : left.count < turns := by
          have hfewer : left.count < r.count := hlt (congrArg Except.ok hn)
          omega
        simp only [Delivery.buffer, slice_front hslice, ok_bind,
          ih hk.valid (ha.of_keeps hk) _ hcount]
        rfl

theorem readToStringChecked_eq [Inhabited α] (decode : List α → Option String)
    (size : Nat → Nat) :
    r.readToStringChecked decode size = .ok (r.readToString decode size) := by
  unfold readToStringChecked readToString
  rw [readToEndChecked_eq h ha size 0 (Nat.lt_succ_self _), ok_bind]
  obtain ⟨left, items, error | ⟨⟩⟩ := r.readToEnd size 0
  · rfl
  · dsimp only
    cases decode items <;> rfl

theorem ioWriteChecked_eq (run : List α) : r.ioWriteChecked run = .ok (r.ioWrite run) := by
  unfold ioWriteChecked
  rw [writeChecked_eq h ha, ok_bind]
  rfl

/-- Every turn but the last writes an item. -/
theorem writeAllChecked_eq (items : List α) {turns : Nat} (ht : items.length ≤ turns) :
    writeAllChecked turns r items = .ok (r.writeAll items) := by
  induction turns generalizing r items with
  | zero =>
      rw [List.length_eq_zero_iff.mp (Nat.le_zero.mp ht), writeAllChecked, writeAll]
      rfl
  | succ turns ih =>
      have hk : r.Keeps (r.ioWrite items).state := keeps_write h items
      have hanswer : (r.ioWrite items).answer = .ok items.length := rfl
      rw [writeAllChecked, writeAll]
      split
      · rfl
      · simp only [ioWriteChecked_eq h ha, ok_bind, hanswer]
        rcases hn : items.length with _ | n
        · rfl
        · have hleft : (items.drop (n + 1)).length ≤ turns := by
            rw [List.length_drop]
            omega
          have hrest : slice items (n + 1) (n + 1) = .ok (items.drop (n + 1)) := by
            have hall := slice_rest (Nat.le_of_eq hn.symm)
            rwa [hn] at hall
          simp only [hrest, ok_bind, ih hk.valid (ha.of_keeps hk) _ hleft]
          rfl

theorem ioSeekChecked_eq (target : Target) : r.ioSeekChecked target = .ok (r.ioSeek target) := by
  unfold ioSeekChecked ioSeek
  cases target with
  | start position =>
      dsimp only
      split
      · rw [seekChecked_eq h ha, ok_bind]
        rfl
      · rfl
  | current offset =>
      dsimp only
      rw [seekChecked_eq h ha, ok_bind]
      rfl
  | finish offset =>
      dsimp only
      rw [seekChecked_eq h ha, ok_bind]
      rfl

end

/-! ### Commands -/

def performChecked [Inhabited α] (r : Ring α) (command : Command σ α) (state : σ) :
    Checked (Option (Result σ α)) :=
  match command with
  | .write items => do
    let after ← r.writeChecked items
    return some { Result.quiet state after (.ok (.count items.length)) with
      trace := Trace.ofOwn (r.writeEvents items.length) }
  | .writeItem item => do
    let after ← r.writeItemChecked item
    return some { Result.quiet state after (.ok .nothing) with
      trace := Trace.ofOwn r.writeItemEvents }
  | .read buffer => do
    let (after, buffer, answer) ← r.readChecked buffer
    return some { Result.quiet state after (answer.map .count) with destination := .buffer buffer }
  | .readItem => do
    let (after, answer) ← r.readItemChecked
    return some (Result.quiet state after (answer.map .item))
  | .value => do
    let (after, items) ← r.valueChecked
    return some (Result.quiet state after (.ok (.items items)))
  | .next n => do
    let (after, items) ← r.nextChecked n
    return some (Result.quiet state after (.ok (.items items)))
  | .unreadItem => do
    let (after, answer) ← r.unreadItemChecked
    return some (Result.quiet state after (answer.map fun _ => .nothing))
  | .truncate n => do
    let after ← r.truncateChecked n
    return some (Result.quiet state after (.ok .nothing))
  | .reset => do
    let after ← r.resetChecked
    return some (Result.quiet state after (.ok .nothing))
  | .seek offset anchor => do
    let (after, answer) ← r.seekChecked offset anchor
    return some (Result.quiet state after (answer.map .count))
  | .seekCode offset code => do
    let (after, answer) ← r.seekCodeChecked offset code
    return some (Result.quiet state after (answer.map .count))
  | .readItems probe => do
    let o ← r.readItemsChecked probe state
    return some (Result.ofOutcome .items o)
  | .readFrom produce limit => do
    let o ← r.pullChecked produce .silent limit state
    return o.map (Result.ofOutcome .count)
  | .writeTo consumer => do
    let o ← r.writeToChecked consumer state
    return some (Result.ofOutcome .count o)

def performIoChecked [Inhabited α] (r : Ring α) (command : IoCommand α) (state : σ) :
    Checked (Result σ α) :=
  match command with
  | .read buffer => do
    let (after, buffer, answer) ← r.ioReadChecked buffer
    return { Result.ofIo state .count after answer with destination := .buffer buffer }
  | .readExact buffer => do
    let (left, filled, answer) ← readExactChecked buffer.length r buffer
    return { Result.ofIo state (fun _ => .nothing) left answer with destination := .buffer filled }
  | .readToEnd size => do
    let (left, items, answer) ← readToEndChecked size (r.count + 1) r 0
    return { Result.ofIo state (fun _ => .count items.length) left answer with
      destination := .buffer items }
  | .readToString decode size => do
    let (left, answer) ← r.readToStringChecked decode size
    return { Result.ofIo state (fun (n, _) => .count n) left answer with
      destination := .text (match answer with | .ok (_, s) => s | .error _ => "") }
  | .write items => do
    let receipt ← r.ioWriteChecked items
    return { Result.ofIo state .count receipt.state receipt.answer with
      trace := Trace.ofOwn receipt.events }
  | .writeAll items => do
    let (after, events, answer) ← writeAllChecked items.length r items
    return { Result.ofIo state (fun _ => .nothing) after answer with trace := Trace.ofOwn events }
  | .flush => .ok (Result.ofIo state (fun _ => .nothing) r (.ok ()))
  | .seek target => do
    let (after, answer) ← r.ioSeekChecked target
    return Result.ofIo state .count after answer
  | .position => do
    let (after, answer) ← r.ioSeekChecked (.current 0)
    return Result.ofIo state .count after answer
  | .rewind => do
    let (after, answer) ← r.ioSeekChecked (.start 0)
    return Result.ofIo state (fun _ => .nothing) after answer

/-- If the command is a pull, the items it accepts can be counted in 64 bits. -/
def Countable [Inhabited α] (watch : Observer σ α) (r : Ring α) (command : Command σ α)
    (state : σ) : Prop :=
  match command with
  | .readFrom produce limit =>
    r.pulledWithin produce watch limit state ⟨0, 0, []⟩ < UInt64.size
  | _ => True

section

variable {r : Ring α} (h : r.Valid) (ha : r.Addressable)

include h ha

theorem performChecked_eq [Inhabited α] (command : Command σ α) {state : σ}
    (ht : r.Countable .silent command state) :
    r.performChecked command state = .ok (r.perform command state) := by
  cases command with
  | write items => rw [performChecked, writeChecked_eq h ha, ok_bind]; rfl
  | writeItem item => rw [performChecked, writeItemChecked_eq h ha, ok_bind]; rfl
  | read buffer => rw [performChecked, readChecked_eq h ha, ok_bind]; rfl
  | readItem => rw [performChecked, readItemChecked_eq h ha, ok_bind]; rfl
  | value => rw [performChecked, valueChecked_eq h ha, ok_bind]; rfl
  | next n => rw [performChecked, nextChecked_eq h ha, ok_bind]; rfl
  | unreadItem => rw [performChecked, unreadItemChecked_eq h ha, ok_bind]; rfl
  | truncate n => rw [performChecked, truncateChecked_eq h ha, ok_bind]; rfl
  | reset => rw [performChecked, resetChecked_eq, ok_bind]; rfl
  | seek offset anchor => rw [performChecked, seekChecked_eq h ha, ok_bind]; rfl
  | seekCode offset code => rw [performChecked, seekCodeChecked_eq h ha, ok_bind]; rfl
  | readItems probe => rw [performChecked, readItemsChecked_eq h ha, ok_bind]; rfl
  | readFrom produce limit => rw [performChecked, pullChecked_eq h ha produce _ ht, ok_bind]; rfl
  | writeTo consumer => rw [performChecked, writeToChecked_eq h ha, ok_bind]; rfl

theorem performIoChecked_eq [Inhabited α] (command : IoCommand α) (state : σ) :
    r.performIoChecked command state = .ok (r.performIo command state) := by
  cases command with
  | read buffer => rw [performIoChecked, ioReadChecked_eq h ha, ok_bind]; rfl
  | readExact buffer =>
      rw [performIoChecked, readExactChecked_eq h ha _ (Nat.le_refl _), ok_bind]; rfl
  | readToEnd size =>
      rw [performIoChecked, readToEndChecked_eq h ha _ _ (Nat.lt_succ_self _), ok_bind]; rfl
  | readToString decode size => rw [performIoChecked, readToStringChecked_eq h ha, ok_bind]; rfl
  | write items => rw [performIoChecked, ioWriteChecked_eq h ha, ok_bind]; rfl
  | writeAll items =>
      rw [performIoChecked, writeAllChecked_eq h ha _ (Nat.le_refl _), ok_bind]; rfl
  | flush => rfl
  | seek target => rw [performIoChecked, ioSeekChecked_eq h ha, ok_bind]; rfl
  | position => rw [performIoChecked, ioSeekChecked_eq h ha, ok_bind]; rfl
  | rewind => rw [performIoChecked, ioSeekChecked_eq h ha, ok_bind]; rfl

end

end Ring

def Stage.performChecked [Inhabited α] (s : Stage σ α) (command : Command σ α) (state : σ) :
    Checked (Option (Result σ α)) :=
  match command with
  | .write items => do
    let o ← s.writeChecked state items
    return some (Result.ofOutcome .count o)
  | .writeItem item => do
    let o ← s.writeItemChecked state item
    return some (Result.ofOutcome (fun _ => .nothing) o)
  | .readFrom produce limit => do
    let o ← s.readFromChecked produce limit state
    return o.map (Result.ofOutcome .count)
  | command => s.ring.performChecked command state

theorem Stage.performChecked_eq [Inhabited α] {s : Stage σ α} (h : s.ring.Valid)
    (ha : s.ring.Addressable) (command : Command σ α) {state : σ}
    (ht : s.ring.Countable s.filter.observer command state) :
    s.performChecked command state = .ok (s.perform command state) := by
  cases command with
  | write items => rw [performChecked, writeChecked_eq h ha, ok_bind]; rfl
  | writeItem item => rw [performChecked, writeItemChecked_eq h ha, ok_bind]; rfl
  | readFrom produce limit => rw [performChecked, readFromChecked_eq h ha produce ht, ok_bind]; rfl
  | _ =>
      simp only [performChecked, perform]
      exact Ring.performChecked_eq h ha _ trivial

/-! ### Every ring there can be -/

/-- No step of anything that can be done with a ring fails, in a stage or as a byte stream. -/
structure Ring.Faultless [Inhabited α] (r : Ring α) : Prop where
  tail : r.tailChecked = .ok r.tail
  segments : r.segmentsChecked = .ok r.segments
  perform : ∀ {σ : Type} (command : Command σ α) (state : σ),
    r.Countable .silent command state →
      r.performChecked command state = .ok (r.perform command state)
  performStage : ∀ {σ : Type} (filter : Filter σ α) (command : Command σ α) (state : σ),
    r.Countable filter.observer command state →
      (Stage.mk r filter).performChecked command state =
        .ok ((Stage.mk r filter).perform command state)
  performIo : ∀ {σ : Type} (command : IoCommand α) (state : σ),
    r.performIoChecked command state = .ok (r.performIo command state)

theorem Ring.Valid.faultless [Inhabited α] {r : Ring α} (h : r.Valid) (ha : r.Addressable) :
    r.Faultless where
  tail := tailChecked_eq h ha
  segments := segmentsChecked_eq h ha
  perform command _ := performChecked_eq h ha command
  performStage filter command _ :=
    have hv : (Stage.mk r filter).ring.Valid := h
    Stage.performChecked_eq hv ha command
  performIo command state := performIoChecked_eq h ha command state

/-- Where the read cursor lies beyond the last slot, there is no item to take. -/
example : (⟨[1, 2], 2, 1, false⟩ : Ring Nat).readItemChecked = .error .index := rfl

/-- **No operation stops at a fault.** However a ring was made and whatever it has undergone, as
long as positions in it are signed 64-bit numbers: every sum, difference, remainder and cast of
whatever is done with it next is in range, every slot and range of slots there is, every run is
copied to as many slots, and every assertion holds, whatever it is given. A pull may accept as many
items as 64 bits count; if it does not fail, they are those that it answers. The same is true of
lists and queues that are pulled from. -/
theorem faultless_of_undergoAll [Inhabited α] (origin : Origin α) (operations : List (Operation α))
    {r : Ring α} (h : origin.ring.undergoAll operations = some r) (ha : r.Addressable) :
    r.Faultless ∧
    (∀ items buffer : List α,
      Producer.ofListChecked items buffer = .ok ((Producer.ofList items buffer).left buffer) ∧
      Producer.ofQueueChecked items buffer = .ok ((Producer.ofQueue items buffer).left buffer)) ∧
    ∀ {σ : Type} (produce : Producer σ α) (watch : Observer σ α) (limit : Nat) (state : σ),
      ∀ o ∈ r.pull produce watch limit state, ∀ n, o.answer = .ok n →
        r.pulledWithin produce watch limit state ⟨0, 0, []⟩ = n := by
  have hv : r.Valid := (Ring.keeps_undergoAll origin.valid_ring h).valid
  refine ⟨hv.faultless ha, ?_, ?_⟩
  · intro items buffer
    exact ⟨Producer.ofListChecked_eq items buffer, Producer.ofQueueChecked_eq items buffer⟩
  · intro σ produce watch limit state o ho n hn
    exact Ring.pulledWithin_eq ho hn

/-- Full, and wrapped around the last slot. -/
def brimming : Ring Nat := ⟨[5, 3, 4], 1, 3, false⟩

theorem faultless_of_undergoAll_brimming :
    (Origin.create 3).ring.undergoAll
        [.ring (.write [1, 2, 3, 4]) (), .ring (.readItem : Command Unit Nat) (),
          .io (.write [5])] = some brimming ∧
      brimming.Addressable ∧
      brimming.Countable .silent (.readFrom Producer.ofList 3) [6, 7] ∧
      brimming.performChecked (.readFrom Producer.ofList 3) [6, 7] =
        .ok (brimming.perform (.readFrom Producer.ofList 3) [6, 7]) ∧
      (brimming.perform (.readFrom Producer.ofList 3) [6, 7]).map Result.ring =
        some ⟨[5, 6, 7], 0, 3, false⟩ := by
  have hrun : (Origin.create 3).ring.undergoAll
      [.ring (.write [1, 2, 3, 4]) (), .ring (.readItem : Command Unit Nat) (),
        .io (.write [5])] = some brimming := by decide +kernel
  have ha : brimming.Addressable := by
    unfold Ring.Addressable
    decide +kernel
  have ht : brimming.Countable .silent (.readFrom Producer.ofList 3) [6, 7] := by
    unfold Ring.Countable
    decide +kernel
  exact ⟨hrun, ha, ht, (faultless_of_undergoAll _ _ hrun ha).1.perform _ _ ht, by decide +kernel⟩

end Carousel
