import Carousel.Command
import Carousel.Config
import Carousel.Proofs.Laps

/-! # What no operation breaks

A ring may be made on its own or in a stage, for any capacity that is asked for (`Origin`), and
may then undergo any operations in any order (`Operation`): those of a ring, those of a stage
around it, and those of a byte stream. Producers, consumers, filters and probes may do and answer
anything, and every operation may fail.

`Ring.Keeps`: an operation leaves a valid ring of the capacity that there was. It is shown for
single operations, for transfers by induction on their calls, and for runs of operations by
induction on the run (`valid_of_undergoAll`). -/

namespace Carousel

variable {σ α : Type}

/-! ### Transfers keep the capacity -/

namespace Ring

variable {watch : Observer σ α} {produce : Producer σ α} {consumer : Consumer σ α} {state : σ}
  {r : Ring α}

theorem capacity_writeLaps (h : r.Valid) (items : List α) :
    (r.writeLaps watch state items).ring.capacity = r.capacity := by
  fun_induction writeLaps watch state r items with
  | case1 => rfl
  | case2 state r item items room run committed evicted verdict failure hv =>
      exact capacity_commit (first_run_fits h item items)
  | case3 state r item items room run committed evicted verdict hv ih =>
      have hr : r.tail + run.length ≤ r.capacity := first_run_fits h item items
      exact (ih (h.commit hr)).trans (capacity_commit hr)

/-- A producer stores to the slots it is offered, but makes none. -/
theorem capacity_filled (h : r.Valid) (d : Delivery Failure σ α) :
    ({ r with slots :=
        overlay r.slots r.tail (d.buffer (window r.slots r.tail r.vacancy)) } : Ring α).capacity =
      r.capacity := by
  have hv := tail_add_vacancy_le h
  apply length_overlay
  unfold Delivery.buffer
  rw [length_cover, length_window hv]
  exact hv

theorem capacity_pullInPlace (h : r.Valid) :
    (r.pullInPlace produce watch state).ring.capacity = r.capacity := by
  have hf := capacity_filled h (produce state (window r.slots r.tail r.vacancy))
  unfold pullInPlace
  dsimp only
  split
  · exact hf
  · exact hf
  · exact hf
  · rw [capacity_forget, capacity_advance]
    exact hf

theorem capacity_pullStaged (h : r.Valid) (staging : List α) :
    (r.pullStaged produce watch state staging).1.ring.capacity = r.capacity := by
  unfold pullStaged
  dsimp only
  split
  · rfl
  · rfl
  · exact capacity_writeLaps h _

theorem capacity_pullOnce [Inhabited α] (h : r.Valid) (staging : List α) :
    (r.pullOnce produce watch state staging).1.ring.capacity = r.capacity := by
  unfold pullOnce
  split
  · exact capacity_pullStaged h _
  · exact capacity_pullInPlace h

theorem capacity_pushRest (total : Nat) :
    (r.pushRest consumer state total).ring.capacity = r.capacity := by
  fun_induction pushRest consumer state r total with
  | case1 => rfl
  | case2 => rfl
  | case3 => rfl
  | case4 => rfl
  | case5 => exact capacity_consume _ _
  | case6 state r total item items hs run receipt reports accepted ha hle hge ih =>
      exact ih.trans (capacity_consume _ _)

/-! ### What an operation leaves -/

/-- The ring `after` is valid and has the capacity of `r`. -/
structure Keeps (r after : Ring α) : Prop where
  valid : after.Valid
  capacity_eq : after.capacity = r.capacity

namespace Keeps

variable {after last : Ring α}

theorem refl (h : r.Valid) : r.Keeps r := ⟨h, rfl⟩

theorem trans (h : r.Keeps after) (h' : after.Keeps last) : r.Keeps last :=
  ⟨h'.valid, h'.capacity_eq.trans h.capacity_eq⟩

end Keeps

variable (h : r.Valid)

include h

theorem keeps_write (items : List α) : r.Keeps (r.write items) :=
  ⟨h.write items, capacity_write h items⟩

theorem keeps_read (buffer : List α) : r.Keeps (r.read buffer).state :=
  ⟨h.read buffer, r.capacity_read buffer⟩

theorem keeps_seek (offset : Int64) (anchor : Anchor) : r.Keeps (r.seek offset anchor).1 :=
  ⟨h.seek offset anchor, r.capacity_seek offset anchor⟩

theorem keeps_seekCode (offset : Int64) (code : Int) : r.Keeps (r.seekCode offset code).1 := by
  unfold seekCode
  split
  · exact keeps_seek h offset _
  · exact .refl h

theorem keeps_writeLaps (items : List α) : r.Keeps (r.writeLaps watch state items).ring :=
  ⟨h.writeLaps items, capacity_writeLaps h items⟩

theorem keeps_writeTo : r.Keeps (r.writeTo consumer state).ring :=
  ⟨h.writeTo, r.forget.capacity_pushRest 0⟩

/-- A pull that ends leaves what its calls leave one after the other. -/
theorem keeps_pullFrom [Inhabited α] {limit : Nat} {p : Progress α} {o : Outcome σ α Nat}
    (ho : r.pullFrom produce watch limit state p = some o) : r.Keeps o.ring := by
  induction limit generalizing r state p o with
  | zero => cases ho
  | succ limit ih =>
      have hcall : r.Keeps (r.pullOnce produce watch state p.staging).1.ring :=
        ⟨h.pullOnce _, capacity_pullOnce h _⟩
      simp only [pullFrom] at ho
      split at ho
      · cases ho
        exact hcall
      · cases ho
        exact hcall
      · split at ho
        · cases ho
          exact hcall
        · obtain ⟨later, hl, rfl⟩ := Option.map_eq_some_iff.mp ho
          exact hcall.trans (ih (o := later) hcall.valid hl)
      · obtain ⟨later, hl, rfl⟩ := Option.map_eq_some_iff.mp ho
        exact hcall.trans (ih (o := later) hcall.valid hl)

/-! ### Commands -/

/-- A command of a ring, whatever it answers. -/
theorem keeps_perform [Inhabited α] {command : Command σ α} {result : Result σ α}
    (hr : r.perform command state = some result) : r.Keeps result.ring := by
  cases command with
  | write items => cases hr; exact keeps_write h items
  | writeItem item => cases hr; exact ⟨h.writeItem item, r.capacity_writeItem item⟩
  | read buffer => cases hr; exact keeps_read h buffer
  | readItem => cases hr; exact ⟨h.readItem, r.capacity_readItem⟩
  | value => cases hr; exact ⟨h.take (Nat.le_refl _), r.capacity_take _⟩
  | next n => cases hr; exact ⟨h.take (Nat.min_le_right _ _), r.capacity_take _⟩
  | unreadItem => cases hr; exact ⟨h.unreadItem, r.capacity_unreadItem⟩
  | truncate n => cases hr; exact ⟨h.truncate n, capacity_truncate h n⟩
  | reset => cases hr; exact ⟨h.reset, r.capacity_reset⟩
  | seek offset anchor => cases hr; exact keeps_seek h offset anchor
  | seekCode offset code => cases hr; exact keeps_seekCode h offset code
  | readItems probe => cases hr; exact ⟨h.readItems probe state, r.capacity_readItems probe state⟩
  | readFrom produce limit =>
      obtain ⟨o, ho, rfl⟩ := Option.map_eq_some_iff.mp hr
      exact keeps_pullFrom h ho
  | writeTo consumer => cases hr; exact keeps_writeTo h

/-- A command of a stage: its filter may reject any run. -/
theorem keeps_performStage [Inhabited α] {filter : Filter σ α} {command : Command σ α}
    {result : Result σ α} (hr : (Stage.mk r filter).perform command state = some result) :
    r.Keeps result.ring := by
  unfold Stage.perform at hr
  split at hr
  · next items =>
      cases hr
      exact keeps_writeLaps h items
  · next item =>
      cases hr
      exact keeps_writeLaps h [item]
  · next produce limit =>
      obtain ⟨o, ho, rfl⟩ := Option.map_eq_some_iff.mp hr
      exact keeps_pullFrom h ho
  · exact keeps_perform h hr

/-! ### Byte streams -/

theorem keeps_readExact (buffer : List α) : r.Keeps (r.readExact buffer).1 := by
  fun_induction readExact r buffer with
  | case1 => exact .refl h
  | case2 r buffer => exact keeps_read h buffer
  | case3 r buffer => exact keeps_read h buffer
  | case4 r buffer hb d filled n ha left rest answer hrest ih =>
      have hread : r.Keeps d.state := keeps_read h buffer
      rw [hrest] at ih
      exact hread.trans (ih hread.valid)

theorem keeps_readToEnd [Inhabited α] (size : Nat → Nat) (k : Nat) :
    r.Keeps (r.readToEnd size k).1 := by
  fun_induction readToEnd size r k with
  | case1 r => exact keeps_read h _
  | case2 r => exact keeps_read h _
  | case3 r k buffer d n ha left rest answer hrest ih =>
      have hread : r.Keeps d.state := keeps_read h buffer
      rw [hrest] at ih
      exact hread.trans (ih hread.valid)

theorem keeps_readToString [Inhabited α] (decode : List α → Option String) (size : Nat → Nat) :
    r.Keeps (r.readToString decode size).1 := by
  have hend := keeps_readToEnd h size 0
  unfold readToString
  generalize r.readToEnd size 0 = e at hend ⊢
  obtain ⟨left, items, answer⟩ := e
  cases answer with
  | error error => exact hend
  | ok =>
      dsimp only
      split <;> exact hend

theorem keeps_writeAll (items : List α) : r.Keeps (r.writeAll items).1 := by
  fun_induction writeAll r items with
  | case1 => exact .refl h
  | case2 r items => exact keeps_write h items
  | case3 r items => exact keeps_write h items
  | case4 r items hi receipt n ha after events answer hrest ih =>
      have hwrite : r.Keeps receipt.state := keeps_write h items
      rw [hrest] at ih
      exact hwrite.trans (ih hwrite.valid)

theorem keeps_ioSeek (target : Target) : r.Keeps (r.ioSeek target).1 := by
  cases target with
  | start position =>
      unfold ioSeek
      dsimp only
      split
      · exact keeps_seek h _ _
      · exact .refl h
  | current offset => exact keeps_seek h offset .reader
  | finish offset => exact keeps_seek h offset .writer

/-- A command of a byte stream. -/
theorem keeps_performIo [Inhabited α] (command : IoCommand α) :
    r.Keeps (r.performIo command state).ring := by
  cases command with
  | read buffer => exact keeps_read h buffer
  | readExact buffer => exact keeps_readExact h buffer
  | readToEnd size => exact keeps_readToEnd h size 0
  | readToString decode size => exact keeps_readToString h decode size
  | write items => exact keeps_write h items
  | writeAll items => exact keeps_writeAll h items
  | flush => exact .refl h
  | seek target => exact keeps_ioSeek h target
  | position => exact keeps_ioSeek h (.current 0)
  | rewind => exact keeps_ioSeek h (.start 0)

end Ring

/-! ### Runs of operations -/

/-- A way to make a ring, on its own or in a stage. -/
inductive Origin (α : Type) : Type 1 where
  | create (requested : Nat)
  | default
  | build (config : Config)
  | stage {σ : Type} (requested : Nat) (filter : Filter σ α)
  | buildStage {σ : Type} (config : Config) (filter : Filter σ α)

namespace Origin

/-- The capacity that is asked for. -/
def requested : Origin α → Nat
  | create requested => requested
  | default => defaultCapacity
  | build config => config.capacity.toNat
  | stage requested _ => requested
  | buildStage config _ => config.capacity.toNat

/-- The ring that is made. -/
def ring [Inhabited α] : Origin α → Ring α
  | create requested => Ring.create requested
  | default => Inhabited.default
  | build config => config.build
  | stage requested filter => (Stage.create requested filter).ring
  | buildStage config filter => (config.buildStage filter).ring

end Origin

/-- An operation of a ring, of a stage around it, or of the ring as a byte stream, with the state
of the foreign code that it runs. -/
inductive Operation (α : Type) : Type 1 where
  | ring {σ : Type} (command : Command σ α) (state : σ)
  | stage {σ : Type} (filter : Filter σ α) (command : Command σ α) (state : σ)
  | io (command : IoCommand α)

namespace Ring

variable [Inhabited α]

/-- What an operation leaves of a ring; nothing is known of a pull that has not ended after its
limit of calls. -/
def undergo (r : Ring α) : Operation α → Option (Ring α)
  | .ring command state => (r.perform command state).map Result.ring
  | .stage filter command state => ((Stage.mk r filter).perform command state).map Result.ring
  | .io command => some (r.performIo command ()).ring

/-- What one operation after the other leaves of a ring. -/
def undergoAll (r : Ring α) (operations : List (Operation α)) : Option (Ring α) :=
  operations.foldlM undergo r

theorem keeps_undergo {r after : Ring α} (h : r.Valid) {operation : Operation α}
    (ha : r.undergo operation = some after) : r.Keeps after := by
  cases operation with
  | ring command state =>
      obtain ⟨result, hr, rfl⟩ := Option.map_eq_some_iff.mp ha
      exact keeps_perform h hr
  | stage filter command state =>
      obtain ⟨result, hr, rfl⟩ := Option.map_eq_some_iff.mp ha
      exact keeps_performStage h hr
  | io command =>
      cases ha
      exact keeps_performIo h command

theorem keeps_undergoAll {r after : Ring α} (h : r.Valid) {operations : List (Operation α)}
    (ha : r.undergoAll operations = some after) : r.Keeps after := by
  induction operations generalizing r with
  | nil =>
      cases ha
      exact .refl h
  | cons operation operations ih =>
      obtain ⟨next, hn, ha⟩ := Option.bind_eq_some_iff.mp ha
      have hnext := keeps_undergo h hn
      exact hnext.trans (ih hnext.valid ha)

end Ring

/-- What is made has the capacity that the request stands for. -/
theorem Origin.capacity_ring [Inhabited α] (origin : Origin α) :
    origin.ring.capacity = effectiveCapacity origin.requested := by
  have hidem (n : Nat) : effectiveCapacity (effectiveCapacity n) = effectiveCapacity n :=
    if_neg (Nat.ne_of_gt (Ring.effectiveCapacity_pos n))
  cases origin with
  | create requested => exact Ring.capacity_create requested
  | default => exact Ring.capacity_create defaultCapacity
  | build config => exact (Ring.capacity_create _).trans (hidem _)
  | stage requested filter => exact Ring.capacity_create requested
  | buildStage config filter => exact (Ring.capacity_create _).trans (hidem _)

theorem Origin.valid_ring [Inhabited α] (origin : Origin α) : origin.ring.Valid := by
  cases origin <;> exact Ring.valid_create _

/-- **No run of operations breaks a ring.** However it was made and whatever it has undergone,
successful or not, its storage has the capacity that was asked for, its cursors lie in it, it
holds no more items than it has slots, and there is a slot for the item that may be given back. -/
theorem valid_of_undergoAll [Inhabited α] (origin : Origin α) (operations : List (Operation α))
    {r : Ring α} (h : origin.ring.undergoAll operations = some r) :
    r.slots.length = effectiveCapacity origin.requested ∧ 0 < r.slots.length ∧
      r.head < r.slots.length ∧ r.count ≤ r.slots.length ∧ r.tail < r.slots.length ∧
      (r.canUnread = true → r.count < r.slots.length) := by
  obtain ⟨hv, hc⟩ := Ring.keeps_undergoAll origin.valid_ring h
  have hlength : r.slots.length = effectiveCapacity origin.requested :=
    hc.trans origin.capacity_ring
  exact ⟨hlength, hv.capacity_pos, hv.head_lt, hv.count_le, hv.tail_lt, hv.count_lt⟩

/-- Rejects every run. -/
def declining : Filter Unit Nat := fun state _ => ⟨state, [], .error (.text "declined")⟩

/-- Fills what it is offered with nines and then counts one item more. -/
def boasting : Producer Unit Nat := fun _ buffer =>
  ⟨(), List.replicate buffer.length 9, .ok (buffer.length + 1)⟩

/-- A rejected write, a read, a pull and a seek that fail: the marker is set and there is a slot
for the item, though a nine lies in it now. -/
theorem valid_of_undergoAll_failures :
    (Origin.stage 2 declining).ring.undergoAll
        [.stage declining (.write [1, 2, 3]) (), .ring (.readItem : Command Unit Nat) (),
          .ring (.readFrom boasting 1) (), .io (.seek (.current (-9)))] =
      some ⟨[9, 2], 1, 1, true⟩ ∧
      [9, 2].length = effectiveCapacity 2 ∧ 1 < [9, 2].length := by
  have hrun : (Origin.stage 2 declining).ring.undergoAll
      [.stage declining (.write [1, 2, 3]) (), .ring (.readItem : Command Unit Nat) (),
        .ring (.readFrom boasting 1) (), .io (.seek (.current (-9)))] =
    some ⟨[9, 2], 1, 1, true⟩ := by decide +kernel
  obtain ⟨hlength, -, -, -, -, hlt⟩ := valid_of_undergoAll _ _ hrun
  exact ⟨hrun, hlength, hlt rfl⟩

end Carousel
