import Carousel.Proofs.Supply

/-! # One contract for all sources

Lists, queues, rings and stages give their items away to whoever offers them buffers. What a call
owes its caller is `Reading.Honours`: the next items in order over the front of the buffer, as many
as there are and as fit; the rest of the buffer as it was; nothing taken for an empty buffer; the
end of the data if and only if there is room and nothing is left. That leaves a call no choice: it
is `Reading.due` (`Reading.Honours.eq_due`), and a sequence of calls is `Reading.dues`, in which
nothing is lost or given twice (`Reading.exists_of_dues`).

Each of the sources obeys (`Source.read_obeys`), so along any sequence of buffers its calls are
those of its items alone (`Producer.Obeys.readings_eq`), and two sources of the same items cannot
be told apart (`Source.indistinguishable`). -/

namespace Carousel

variable {σ τ α : Type}

/-! ### The contract -/

/-- One call of a producer: its answer, the buffer as it leaves it, and the items it still holds. -/
structure Reading (α : Type) where
  answer : Except Failure Nat
  buffer : List α
  left : List α

namespace Reading

/-- The items delivered: as many from the front of the buffer as the call answers. -/
def given (reading : Reading α) : List α :=
  match reading.answer with
  | .ok n => reading.buffer.take n
  | .error _ => []

/-- What a call with a buffer owes its caller, `held` being the items held before it. -/
structure Honours (reading : Reading α) (held buffer : List α) : Prop where
  buffer_eq : reading.buffer = held.take buffer.length ++ buffer.drop held.length
  left_eq : reading.left = held.drop buffer.length
  unasked : buffer = [] → reading.answer = .ok 0
  ended_iff : reading.answer = .error .endOfData ↔ buffer ≠ [] ∧ held = []
  counted : held ≠ [] → reading.answer = .ok (min buffer.length held.length)

/-- The call with a buffer that is due when the items `held` are. -/
def due (held buffer : List α) : Reading α where
  answer :=
    if buffer ≠ [] ∧ held = [] then .error .endOfData else .ok (min buffer.length held.length)
  buffer := held.take buffer.length ++ buffer.drop held.length
  left := held.drop buffer.length

/-- The calls with one buffer after the other that are due. -/
def dues : List α → List (List α) → List (Reading α)
  | _, [] => []
  | held, buffer :: buffers => due held buffer :: dues (held.drop buffer.length) buffers

variable {reading : Reading α} {held buffer : List α}

theorem due_honours (held buffer : List α) : (due held buffer).Honours held buffer where
  buffer_eq := rfl
  left_eq := rfl
  unasked hb := by
    unfold due
    rw [if_neg fun h => h.1 hb, hb, List.length_nil, Nat.zero_min]
  ended_iff := by
    unfold due
    split <;> simp [*]
  counted hn := if_neg fun h => hn h.2

/-- The contract leaves no choice. -/
theorem Honours.eq_due (h : reading.Honours held buffer) : reading = due held buffer := by
  have hanswer : reading.answer = (due held buffer).answer := by
    unfold due
    split
    · next he => exact h.ended_iff.mpr he
    · next he =>
        by_cases hb : buffer = []
        · rw [h.unasked hb, hb, List.length_nil, Nat.zero_min]
        · exact h.counted fun hn => he ⟨hb, hn⟩
  obtain ⟨answer, filled, left⟩ := reading
  obtain rfl : answer = _ := hanswer
  obtain rfl : filled = _ := h.buffer_eq
  obtain rfl : left = _ := h.left_eq
  rfl

theorem given_due (held buffer : List α) : (due held buffer).given = held.take buffer.length := by
  have hl : min buffer.length held.length = (held.take buffer.length).length :=
    List.length_take.symm
  unfold given due
  dsimp only
  split
  · next n hn =>
      split at hn
      · cases hn
      · cases hn
        rw [hl, List.take_left]
  · next hn =>
      split at hn
      · next he => rw [he.2, List.take_nil]
      · cases hn

/-- What a call delivers and what is left are what was held. -/
theorem given_append_left (held buffer : List α) :
    (due held buffer).given ++ (due held buffer).left = held := by
  rw [given_due]
  exact List.take_append_drop _ _

/-- Each call that is due honours the contract for what the calls before it have not delivered. -/
theorem exists_of_dues (items : List α) {buffers : List (List α)} {j : Nat}
    (hj : buffers[j]? = some buffer) :
    ∃ held reading, (dues items buffers)[j]? = some reading ∧ reading.Honours held buffer ∧
      ((dues items buffers).take j).flatMap given ++ held = items ∧
      ((dues items buffers).take (j + 1)).flatMap given ++ reading.left = items := by
  induction buffers generalizing items j with
  | nil => cases hj
  | cons first buffers ih =>
      have hfirst := given_append_left items first
      cases j with
      | zero =>
          cases hj
          refine ⟨items, due items buffer, rfl, due_honours items buffer, rfl, ?_⟩
          simpa [dues] using hfirst
      | succ j =>
          obtain ⟨held, reading, hreading, hhonours, hheld, hleft⟩ :=
            ih (items.drop first.length) hj
          refine ⟨held, reading, hreading, hhonours, ?_, ?_⟩
          · rw [dues, List.take_succ_cons, List.flatMap_cons, List.append_assoc, hheld]
            exact hfirst
          · rw [dues, List.take_succ_cons, List.flatMap_cons, List.append_assoc, hleft]
            exact hfirst

end Reading

theorem Delivery.buffer_nil {ε : Type} (d : Delivery ε σ α) : d.buffer [] = [] := by
  apply List.eq_nil_of_length_eq_zero
  exact length_cover [] d.stored

/-- A producer that hands out the items that its state holds, and takes nothing for an empty
buffer. -/
structure Producer.Obeys (produce : Producer σ α) (holds : σ → List α → Prop) : Prop
    extends produce.Supplies holds where
  answer_nil : ∀ {state items}, holds state items → (produce state []).answer = .ok 0
  kept_nil : ∀ {state items}, holds state items → holds (produce state []).state items

namespace Producer

/-- A call of a producer whose states hold `items`. -/
def reading (produce : Producer σ α) (items : σ → List α) (state : σ) (buffer : List α) :
    Reading α where
  answer := (produce state buffer).answer
  buffer := (produce state buffer).buffer buffer
  left := items (produce state buffer).state

/-- Calls of a producer, with one buffer after the other. -/
def readings (produce : Producer σ α) (items : σ → List α) : σ → List (List α) → List (Reading α)
  | _, [] => []
  | state, buffer :: buffers =>
    produce.reading items state buffer ::
      readings produce items (produce state buffer).state buffers

section Obeying

variable {produce : Producer σ α} {items : σ → List α} {sound : σ → Prop} {state : σ}

/-- One call honours the contract, and leaves a state of which the next one does. -/
theorem Obeys.honours (h : produce.Obeys fun state held => sound state ∧ items state = held)
    (hs : sound state) (buffer : List α) :
    (produce.reading items state buffer).Honours (items state) buffer ∧
      sound (produce state buffer).state := by
  cases buffer with
  | nil =>
      obtain ⟨hsound, hleft⟩ := h.kept_nil ⟨hs, rfl⟩
      have hanswer : (produce state []).answer = .ok 0 := h.answer_nil ⟨hs, rfl⟩
      refine ⟨⟨?_, hleft, fun _ => hanswer, ?_, fun _ => ?_⟩, hsound⟩
      · simp [reading, Delivery.buffer_nil]
      · simp [reading, hanswer]
      · simp [reading, hanswer]
  | cons slot buffer =>
      have hb : slot :: buffer ≠ [] := List.cons_ne_nil slot buffer
      have hanswer := h.answer_eq ⟨hs, rfl⟩ hb
      obtain ⟨hsound, hleft⟩ := h.kept ⟨hs, rfl⟩ hb
      refine ⟨⟨h.buffer_eq ⟨hs, rfl⟩ hb, hleft, fun hn => absurd hn hb, ?_, ?_⟩, hsound⟩
      · simp [reading, hanswer]
      · intro hne
        exact hanswer.trans (if_neg hne)

/-- The calls of a producer that obeys are those that are due. -/
theorem Obeys.readings_eq (h : produce.Obeys fun state held => sound state ∧ items state = held)
    (hs : sound state) (buffers : List (List α)) :
    produce.readings items state buffers = Reading.dues (items state) buffers := by
  induction buffers generalizing state with
  | nil => rfl
  | cons buffer buffers ih =>
      obtain ⟨hhonours, hsound⟩ := h.honours hs buffer
      have hreading := hhonours.eq_due
      have hleft : items (produce state buffer).state = (items state).drop buffer.length :=
        congrArg Reading.left hreading
      unfold readings Reading.dues
      rw [hreading, ih hsound, hleft]

end Obeying

/-! ### The sources -/

theorem ofList_obeys : (ofList : Producer (List α) α).Obeys fun left items => left = items where
  toSupplies := ofList_supplies
  answer_nil _ := rfl
  kept_nil := id

theorem ofQueue_obeys : (ofQueue : Producer (List α) α).Obeys fun left items => left = items where
  toSupplies := ofQueue_supplies
  answer_nil _ := rfl
  kept_nil := id

theorem read_obeys [Inhabited α] :
    Obeys (Ring.read : Producer (Ring α) α) fun r items => r.Valid ∧ r.unread = items where
  toSupplies := read_supplies
  answer_nil _ := rfl
  kept_nil := fun ⟨hv, hu⟩ => ⟨hv.forget, hu⟩

end Producer

theorem Supply.deliver_obeys [Inhabited α] :
    (Supply.deliver : Producer (Supply α) α).Obeys fun supply items =>
      supply.Sound ∧ supply.items = items where
  toSupplies := Supply.deliver_supplies
  answer_nil := by
    rintro supply items ⟨hs, hi⟩
    cases supply with
    | list left => exact Producer.ofList_obeys.answer_nil hi
    | queue left => exact Producer.ofQueue_obeys.answer_nil hi
    | ring r => exact Producer.read_obeys.answer_nil ⟨hs, hi⟩
  kept_nil := by
    rintro supply items ⟨hs, hi⟩
    cases supply with
    | list left => exact ⟨trivial, Producer.ofList_obeys.kept_nil hi⟩
    | queue left => exact ⟨trivial, Producer.ofQueue_obeys.kept_nil hi⟩
    | ring r => exact Producer.read_obeys.kept_nil ⟨hs, hi⟩

/-- Whatever items are read from by way of a buffer. -/
inductive Source (σ α : Type) where
  | supply (supply : Supply α)
  | stage (stage : Stage σ α)

namespace Source

variable [Inhabited α]

/-- The items that are left in a source. -/
def items : Source σ α → List α
  | supply s => s.items
  | stage s => s.ring.unread

/-- The ring of a source is one that its operations make. -/
def Sound : Source σ α → Prop
  | supply s => s.Sound
  | stage s => s.ring.Valid

omit [Inhabited α] in
/-- A source as a producer. -/
def read : Producer (Source σ α) α := fun source buffer =>
  match source with
  | supply s => (Supply.deliver s buffer).map supply
  | stage s => (s.read buffer).map stage

theorem read_obeys :
    (read : Producer (Source σ α) α).Obeys fun source held =>
      source.Sound ∧ source.items = held where
  answer_eq := by
    rintro source held buffer hh hb
    cases source with
    | supply s => exact Supply.deliver_obeys.answer_eq hh hb
    | stage s => exact Producer.read_obeys.answer_eq hh hb
  buffer_eq := by
    rintro source held buffer hh hb
    cases source with
    | supply s => exact Supply.deliver_obeys.buffer_eq hh hb
    | stage s => exact Producer.read_obeys.buffer_eq hh hb
  kept := by
    rintro source held buffer hh hb
    cases source with
    | supply s => exact Supply.deliver_obeys.kept hh hb
    | stage s => exact Producer.read_obeys.kept hh hb
  answer_nil := by
    rintro source held hh
    cases source with
    | supply s => exact Supply.deliver_obeys.answer_nil hh
    | stage s => exact Producer.read_obeys.answer_nil hh
  kept_nil := by
    rintro source held hh
    cases source with
    | supply s => exact Supply.deliver_obeys.kept_nil hh
    | stage s => exact Producer.read_obeys.kept_nil hh

/-- The calls that read a source, with one buffer after the other. -/
def readings (source : Source σ α) (buffers : List (List α)) : List (Reading α) :=
  read.readings items source buffers

/-- **All sources obey one contract.** Two sources of the same items, whatever kinds of source they
are and wherever the items of a ring lie, answer any sequence of buffers alike, fill them alike and
are left with the same items. Each call honours the contract for the items that the calls before it
have not delivered, and what has been delivered, followed by what is left, is what there was. -/
theorem indistinguishable {source : Source σ α} {other : Source τ α} (hs : source.Sound) (ho : other.Sound)
    (hi : source.items = other.items) (buffers : List (List α)) :
    source.readings buffers = other.readings buffers ∧
      ∀ j buffer, buffers[j]? = some buffer →
        ∃ held reading, (source.readings buffers)[j]? = some reading ∧
          reading.Honours held buffer ∧
          ((source.readings buffers).take j).flatMap Reading.given ++ held = source.items ∧
          ((source.readings buffers).take (j + 1)).flatMap Reading.given ++ reading.left =
            source.items := by
  have hdues : source.readings buffers = Reading.dues source.items buffers :=
    read_obeys.readings_eq hs buffers
  have hdues' : other.readings buffers = Reading.dues other.items buffers :=
    read_obeys.readings_eq ho buffers
  constructor
  · rw [hdues, hdues', hi]
  · intro j buffer hj
    rw [hdues]
    exact Reading.exists_of_dues source.items hj

/-- A full ring in a stage whose items go on at slot 0, and a queue. The buffers hold more than
there is room for in the last slot, nothing, more than is left, and nothing or something when
nothing is left. -/
theorem indistinguishable_wrapped :
    let stage : Source Unit Nat := .stage ⟨⟨[6, 7, 5], 2, 3, false⟩, .accepting⟩
    let queue : Source Unit Nat := .supply (.queue [5, 6, 7])
    let buffers : List (List Nat) := [[1, 2], [], [1, 2], [], [1]]
    stage.Sound ∧ queue.Sound ∧ stage.items = queue.items ∧
      stage.readings buffers = queue.readings buffers ∧
      queue.readings buffers =
        [⟨.ok 2, [5, 6], [7]⟩, ⟨.ok 0, [], [7]⟩, ⟨.ok 1, [7, 2], []⟩, ⟨.ok 0, [], []⟩,
          ⟨.error .endOfData, [1], []⟩] := by
  intro stage queue buffers
  have hs : stage.Sound := ⟨by decide, by decide, by decide, by decide⟩
  have hi : stage.items = queue.items := rfl
  have hsame := (indistinguishable hs (show queue.Sound from trivial) hi buffers).1
  exact ⟨hs, trivial, hi, hsame, rfl⟩

end Source

end Carousel
