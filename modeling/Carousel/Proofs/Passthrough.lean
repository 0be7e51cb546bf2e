import Carousel.Proofs.Feeding
import Carousel.Proofs.Offers
import Carousel.Proofs.Undo

/-! # Stages that let everything pass

A stage whose filter accepts every run stores every item of a long input, and a plain ring only
the last ones, so the two soon differ in where their items lie. Nothing that a user can see tells
them apart: they stay alike (`Alike`), with the same unread items and the same item to give back,
under every errand (`Alike.perform`), and so give the same sights (`passthrough_sights`). -/

namespace Carousel

variable {σ τ α : Type}

/-! ### Errands -/

/-- What a user may ask of a ring or a stage that does not tell where its items lie. The user
keeps a list beside the state of the foreign code, to pull from and to push to. -/
inductive Errand (σ α : Type) where
  | act (action : Queue.Action (σ × List α) α) (settled : action ≠ .stay)
  | readFromList (items : List α)
  | readFromQueue (items : List α)
  | writeToList (items : List α)

namespace Errand

/-- The state of the foreign code when an errand begins. -/
def start (state : σ × List α) : Errand σ α → σ × List α
  | act _ _ => state
  | readFromList items | readFromQueue items | writeToList items => (state.1, items)

/-- A consumer that works on the list. -/
def collect : Consumer (σ × List α) α :=
  Consumer.collect.focus Prod.snd fun whole items => (whole.1, items)

def command : Errand σ α → Command (σ × List α) α
  | act action _ => action.command
  | readFromList items => .readFrom Producer.ofList.beside (items.length + 1)
  | readFromQueue items => .readFrom Producer.ofQueue.beside (items.length + 1)
  | writeToList _ => .writeTo collect

end Errand

/-- What a user sees of a command that has been carried out: what it answers and leaves, the
unread items, and whether the item consumed last may be given back. -/
structure Sight (σ α : Type) where
  answer : Except Cause (Value α)
  destination : Destination α
  state : σ
  unread : List α
  count : Nat
  isEmpty : Bool
  isFull : Bool
  undone : Except Failure Unit

section Sights

variable [Inhabited α]

def Result.sight (result : Result σ α) : Sight σ α :=
  ⟨result.answer, result.destination, result.state, result.ring.unread, result.ring.count,
    result.ring.isEmpty, result.ring.isFull, result.ring.unreadItem.2⟩

/-- What a user sees of one errand after the other, given how a command is carried out. -/
def sights
    (perform : Ring α → Command (σ × List α) α → σ × List α → Option (Result (σ × List α) α)) :
    Ring α → List (Errand σ α) → σ × List α → Option (List (Sight (σ × List α) α))
  | _, [], _ => some []
  | r, errand :: errands, state =>
    (perform r errand.command (errand.start state)).bind fun result =>
      (sights perform result.ring errands result.state).map (result.sight :: ·)

end Sights

/-! ### Queues that differ in their cursors -/

/-- Two queues with the same items and the same item to give back. -/
structure Queue.Twin (p q : Queue α) : Prop where
  items_eq : p.items = q.items
  undo_eq : p.undo = q.undo

/-- No action but `stay` tells where the cursor is. -/
theorem Queue.perform_twin {p q : Queue α} (h : p.Twin q) (capacity : Nat)
    {action : Action σ α} (ha : action ≠ .stay) (state : σ) :
    (p.perform capacity action state).queue.Twin (q.perform capacity action state).queue ∧
      (p.perform capacity action state).state = (q.perform capacity action state).state ∧
      (p.perform capacity action state).answer = (q.perform capacity action state).answer ∧
      (p.perform capacity action state).destination =
        (q.perform capacity action state).destination := by
  obtain ⟨items, undo, cursor⟩ := p
  obtain ⟨items', undo', cursor'⟩ := q
  obtain ⟨rfl, rfl⟩ := h
  cases action with
  | write items =>
      refine ⟨?_, rfl, rfl, rfl⟩
      unfold perform
      dsimp only
      split <;> exact ⟨rfl, rfl⟩
  | writeItem item => exact ⟨⟨rfl, rfl⟩, rfl, rfl, rfl⟩
  | read buffer => exact ⟨⟨rfl, rfl⟩, rfl, rfl, rfl⟩
  | readItem => exact ⟨⟨rfl, rfl⟩, rfl, rfl, rfl⟩
  | value => exact ⟨⟨rfl, rfl⟩, rfl, rfl, rfl⟩
  | next n => exact ⟨⟨rfl, rfl⟩, rfl, rfl, rfl⟩
  | readItems probe => exact ⟨⟨rfl, rfl⟩, rfl, rfl, rfl⟩
  | unreadItem => cases undo <;> exact ⟨⟨rfl, rfl⟩, rfl, rfl, rfl⟩
  | truncate n =>
      refine ⟨?_, rfl, rfl, rfl⟩
      unfold perform
      dsimp only
      split <;> exact ⟨rfl, rfl⟩
  | reset => exact ⟨⟨rfl, rfl⟩, rfl, rfl, rfl⟩
  | stay => exact absurd rfl ha

theorem Queue.Twin.push {p q : Queue α} (h : p.Twin q) (capacity : Nat) (items : List α) :
    (p.push capacity items).Twin (q.push capacity items) := by
  refine ⟨?_, rfl⟩
  unfold Queue.push
  rw [h.items_eq]

theorem Queue.Twin.pop {p q : Queue α} (h : p.Twin q) (capacity n : Nat) :
    (p.pop capacity n).Twin (q.pop capacity n) := by
  unfold Queue.pop
  rw [h.items_eq]
  exact ⟨rfl, rfl⟩

/-! ### Pulls -/

section Pulls

variable [Inhabited α] {produce : Producer σ α} {watch : Observer σ α}
  {holds : σ → List α → Prop} {r : Ring α} {items : List α} {state : σ}

/-- Under an observer that lets everything pass a supply is pulled to its end. -/
theorem pull_accepted (hp : produce.Supplies holds) (hw : ∀ items, watch.Keeps (holds · items))
    (ha : watch.Accepts) (h : r.Valid) (hh : holds state items) {limit : Nat}
    (hl : items.length < limit) :
    ∃ o, r.pull produce watch limit state = some o ∧ o.ring = r.writeItems items ∧
      o.answer = .ok items.length ∧ holds o.state [] := by
  obtain ⟨o, shown, ho, -, hsupplied⟩ :=
    pull_supplied (p := ⟨0, 0, []⟩) .empty hp hw h (.inl rfl) hh hl
  have hnone : watch.rejection shown = none :=
    Observer.rejection_eq_none.mpr fun x _ => Observer.objection_eq_none.mpr (ha _ _ _)
  obtain ⟨hanswer, hruns, hleft⟩ := hsupplied.completed hnone
  have herase := Ring.pullFrom_erase produce.recorded_erases watch.recorded_erases limit
    (state, .empty) r ⟨0, 0, []⟩
  rw [ho] at herase
  rw [Nat.zero_add] at hanswer
  refine ⟨_, herase.symm, ?_, hanswer, hleft⟩
  rw [← hruns]
  exact hsupplied.ring_eq

end Pulls

/-- A supply beside other foreign code leaves that code's state alone. -/
theorem Producer.Supplies.beside {produce : Producer τ α} {holds : τ → List α → Prop}
    (h : produce.Supplies holds) (other : σ) :
    (produce.beside : Producer (σ × τ) α).Supplies fun state items =>
      state.1 = other ∧ holds state.2 items where
  answer_eq hh hb := h.answer_eq hh.2 hb
  buffer_eq hh hb := h.buffer_eq hh.2 hb
  kept hh hb := ⟨hh.1, h.kept hh.2 hb⟩

/-! ### Pushes -/

namespace Ring

/-- What is settled of a push that is accepted in full. -/
theorem settlement_inFull {consumer : Consumer σ α}
    (hc : ∀ state run, (consumer state run).answer = .ok run.length) (state : σ)
    (runs : List (List α)) :
    settlement (consumer.offers state runs) = .ok runs.flatten.length := by
  induction runs generalizing state with
  | nil => rfl
  | cons run runs ih =>
      have hfull : Offer.inFull ⟨run, consumer state run⟩ = true := Offer.inFull_iff.mpr (hc _ _)
      rw [Consumer.offers_of_inFull hfull, settlement_cons hfull, ih, List.flatten_cons,
        List.length_append]
      rfl

/-- A consumer that accepts every run in full is offered one after the other. -/
theorem stateAfter_inFull {consumer : Consumer σ α}
    (hc : ∀ state run, (consumer state run).answer = .ok run.length) (state : σ)
    (runs : List (List α)) :
    stateAfter state (consumer.offers state runs) =
      runs.foldl (fun state run => (consumer state run).state) state := by
  induction runs generalizing state with
  | nil => rfl
  | cons run runs ih =>
      have hfull : Offer.inFull ⟨run, consumer state run⟩ = true := Offer.inFull_iff.mpr (hc _ _)
      rw [Consumer.offers_of_inFull hfull, stateAfter_cons]
      exact ih _

/-- A push that is accepted in full consumes all unread items. -/
theorem writeTo_inFull [Inhabited α] {consumer : Consumer σ α}
    (hc : ∀ state run, (consumer state run).answer = .ok run.length) {r : Ring α} (h : r.Valid)
    (state : σ) :
    (r.writeTo consumer state).ring = r.consume r.count ∧
      (r.writeTo consumer state).answer = .ok r.count := by
  obtain ⟨-, -, hanswer⟩ := writeTo_eq h consumer state
  constructor
  · exact ring_writeTo_of_inFull h (Consumer.inFull_of_mem hc state r.runs)
  · rw [hanswer, settlement_inFull hc, flatten_runs h, length_unread]

end Ring

theorem Errand.stateAfter_collect (other : σ) (got : List α) (runs : List (List α)) :
    stateAfter (other, got) (Errand.collect.offers (other, got) runs) =
      (other, got ++ runs.flatten) := by
  rw [Ring.stateAfter_inFull fun _ _ => rfl]
  induction runs generalizing got with
  | nil => simp
  | cons run runs ih =>
      rw [List.foldl_cons, List.flatten_cons, ← List.append_assoc]
      exact ih (got ++ run)

/-- All unread items are pushed to a list. -/
theorem Ring.writeTo_collect [Inhabited α] {r : Ring α} (h : r.Valid) (other : σ) (got : List α) :
    (r.writeTo Errand.collect (other, got)).ring = r.consume r.count ∧
      (r.writeTo Errand.collect (other, got)).state = (other, got ++ r.unread) ∧
      (r.writeTo Errand.collect (other, got)).answer = .ok r.count := by
  have hc : ∀ (state : σ × List α) run, (Errand.collect state run).answer = .ok run.length :=
    fun _ _ => rfl
  obtain ⟨-, hstate, -⟩ := writeTo_eq h Errand.collect (other, got)
  obtain ⟨hring, hanswer⟩ := writeTo_inFull hc h (other, got)
  refine ⟨hring, ?_, hanswer⟩
  rw [hstate, Errand.stateAfter_collect, flatten_runs h]

/-! ### Rings that are alike -/

/-- Two rings that differ at most in where their items lie. -/
structure Alike [Inhabited α] (r s : Ring α) : Prop where
  left : r.Valid
  right : s.Valid
  capacity_eq : r.capacity = s.capacity
  twin : r.queue.Twin s.queue

/-- Two commands that end alike. -/
structure Matches [Inhabited α] (x y : Result σ α) : Prop where
  alike : Alike x.ring y.ring
  state_eq : x.state = y.state
  answer_eq : x.answer = y.answer
  destination_eq : x.destination = y.destination

section Alike

variable [Inhabited α] {r s : Ring α}

theorem Alike.refl (h : r.Valid) : Alike r r := ⟨h, h, rfl, rfl, rfl⟩

theorem Alike.unread_eq (h : Alike r s) : r.unread = s.unread := h.twin.items_eq

theorem Alike.count_eq (h : Alike r s) : r.count = s.count := by
  rw [← Ring.length_unread, h.unread_eq, Ring.length_unread]

theorem Alike.canUnread_eq (h : Alike r s) : r.canUnread = s.canUnread := by
  have hu : r.undo = s.undo := h.twin.undo_eq
  rw [← Ring.isSome_undo h.left, hu, Ring.isSome_undo h.right]

/-- What ends alike looks the same. -/
theorem Matches.sight_eq {x y : Result σ α} (h : Matches x y) : x.sight = y.sight := by
  have hundone : x.ring.unreadItem.2 = y.ring.unreadItem.2 := by
    unfold Ring.unreadItem
    rw [h.alike.canUnread_eq]
    split <;> rfl
  unfold Result.sight Ring.isEmpty Ring.isFull
  rw [h.answer_eq, h.destination_eq, h.state_eq, h.alike.unread_eq, h.alike.count_eq,
    h.alike.capacity_eq, hundone]

/-! ### Each errand -/

/-- An action that does not tell the cursor is the same for rings that are alike. -/
theorem Alike.act (h : Alike r s) {action : Queue.Action σ α} (ha : action ≠ .stay) (state : σ) :
    ∃ x y, r.perform action.command state = some x ∧ s.perform action.command state = some y ∧
      Matches x y := by
  obtain ⟨x, hx, hcx, hrx⟩ := Ring.perform_agrees h.left action state fun he => absurd he ha
  obtain ⟨y, hy, hcy, hry⟩ := Ring.perform_agrees h.right action state fun he => absurd he ha
  obtain ⟨hvx, hqx⟩ := (Ring.represents_iff _ _).mp hrx.represents
  obtain ⟨hvy, hqy⟩ := (Ring.represents_iff _ _).mp hry.represents
  obtain ⟨htwin, hstate, hanswer, hdestination⟩ := Queue.perform_twin h.twin r.capacity ha state
  rw [← h.capacity_eq] at hqy hry hcy
  refine ⟨x, y, hx, hy, ⟨hvx, hvy, hcx.trans hcy.symm, ?_⟩, ?_, ?_, ?_⟩
  · rw [hqx, hqy]
    exact htwin
  · rw [hrx.state_eq, hry.state_eq, hstate]
  · rw [hrx.answer_eq, hry.answer_eq, hanswer]
  · rw [hrx.destination_eq, hry.destination_eq, hdestination]

theorem Alike.writeItem (h : Alike r s) (item : α) :
    Alike (r.writeItem item) (s.writeItem item) where
  left := h.left.writeItem item
  right := h.right.writeItem item
  capacity_eq := by rw [Ring.capacity_writeItem, Ring.capacity_writeItem, h.capacity_eq]
  twin := by
    rw [Ring.queue_writeItem h.left, Ring.queue_writeItem h.right, h.capacity_eq]
    exact h.twin.push _ _

theorem Alike.writeItems (h : Alike r s) (items : List α) :
    Alike (r.writeItems items) (s.writeItems items) := by
  induction items generalizing r s with
  | nil => exact h
  | cons item items ih => exact ih (h.writeItem item)

/-- Storing only the last items and storing all of them comes to the same. -/
theorem Alike.write (h : Alike r s) (items : List α) :
    Alike (r.write items) (s.writeItems items) := by
  rcases eq_or_ne items [] with rfl | hi
  · exact h
  refine ⟨h.left.write items, h.right.writeItems items, ?_, ?_⟩
  · rw [Ring.capacity_write h.left, Ring.capacity_writeItems, h.capacity_eq]
  · rw [Ring.queue_write h.left hi]
    refine ⟨?_, (Ring.undo_eq_none (Ring.canUnread_writeItems s hi)).symm⟩
    refine Eq.trans ?_ (Ring.unread_writeItems h.right items).symm
    rw [← h.unread_eq, ← h.capacity_eq]
    rfl

/-- The items that are left lie in other slots. -/
example : ((⟨[0, 0], 0, 0, false⟩ : Ring Nat).write [1, 2, 3]).slots = [2, 3] ∧
    ((⟨[0, 0], 0, 0, false⟩ : Ring Nat).writeItems [1, 2, 3]).slots = [3, 2] := by decide

theorem Alike.performWrite (h : Alike r s) (items : List α) (state : σ) :
    ∃ x y, r.perform (.write items) state = some x ∧
      (Stage.mk s Filter.accepting).perform (.write items) state = some y ∧ Matches x y := by
  obtain ⟨hring, hstate, hanswer⟩ :=
    writeLaps_accepted h.right (Filter.accepting_accepts (σ := σ)) state items
  refine ⟨_, _, rfl, rfl, ?_, ?_, ?_, rfl⟩
  · change Alike (r.write items) (s.writeLaps Filter.accepting.observer state items).ring
    rw [hring]
    exact h.write items
  · exact (hstate.trans (Filter.accepting_after _ _)).symm
  · simp [Result.ofOutcome, Result.quiet, Stage.write, hanswer, Except.map, Except.mapError]

theorem Alike.performWriteItem (h : Alike r s) (item : α) (state : σ) :
    ∃ x y, r.perform (.writeItem item) state = some x ∧
      (Stage.mk s Filter.accepting).perform (.writeItem item) state = some y ∧ Matches x y := by
  obtain ⟨hring, hstate, hanswer⟩ :=
    writeLaps_accepted h.right (Filter.accepting_accepts (σ := σ)) state [item]
  refine ⟨_, _, rfl, rfl, ?_, ?_, ?_, rfl⟩
  · change Alike (r.writeItem item) (s.writeLaps Filter.accepting.observer state [item]).ring
    rw [hring]
    exact h.writeItem item
  · exact (hstate.trans (Filter.accepting_after _ _)).symm
  · simp [Result.ofOutcome, Result.quiet, Stage.writeItem, hanswer, Except.map, Except.mapError]

/-- A list is pulled to its end by rings and stages alike. -/
theorem Alike.performPull (h : Alike r s) {produce : Producer (List α) α}
    (hp : produce.Supplies fun left items => left = items) (other : σ) (items : List α) :
    ∃ x y, r.perform (.readFrom produce.beside (items.length + 1)) (other, items) = some x ∧
      (Stage.mk s Filter.accepting).perform (.readFrom produce.beside (items.length + 1))
        (other, items) = some y ∧ Matches x y := by
  have hb := hp.beside other
  have hl : items.length < items.length + 1 := Nat.lt_succ_self _
  have hh : ((other, items) : σ × List α).1 = other ∧ ((other, items) : σ × List α).2 = items :=
    ⟨rfl, rfl⟩
  have hsilent : (Observer.silent : Observer (σ × List α) α).Accepts := fun _ _ _ => rfl
  have haccepting : (Filter.accepting : Filter (σ × List α) α).Accepts :=
    Filter.accepting_accepts
  obtain ⟨o, ho, hring, hanswer, hother, hleft⟩ :=
    pull_accepted hb (fun _ _ _ _ hh => hh) hsilent h.left hh hl
  obtain ⟨o', ho', hring', hanswer', hother', hleft'⟩ :=
    pull_accepted hb (fun _ _ _ _ hh => hh) haccepting.observer h.right hh hl
  have hread : r.perform (.readFrom produce.beside (items.length + 1)) (other, items) =
    some (Result.ofOutcome .count o) := congrArg (Option.map (Result.ofOutcome .count)) ho
  have hread' : (Stage.mk s Filter.accepting).perform
      (.readFrom produce.beside (items.length + 1)) (other, items) =
    some (Result.ofOutcome .count o') := congrArg (Option.map (Result.ofOutcome .count)) ho'
  refine ⟨_, _, hread, hread', ?_, ?_, ?_, rfl⟩
  · change Alike o.ring o'.ring
    rw [hring, hring']
    exact h.writeItems items
  · exact Prod.ext (hother.trans hother'.symm) (hleft.trans hleft'.symm)
  · simp [Result.ofOutcome, hanswer, hanswer']

/-- A list gets the same from a ring and from a stage. -/
theorem Alike.performPush (h : Alike r s) (other : σ) (got : List α) :
    ∃ x y, r.perform (.writeTo Errand.collect) (other, got) = some x ∧
      (Stage.mk s Filter.accepting).perform (.writeTo Errand.collect) (other, got) = some y ∧
      Matches x y := by
  obtain ⟨hring, hstate, hanswer⟩ := Ring.writeTo_collect h.left other got
  obtain ⟨hring', hstate', hanswer'⟩ := Ring.writeTo_collect h.right other got
  refine ⟨_, _, rfl, rfl, ⟨?_, ?_, ?_, ?_⟩, ?_, ?_, rfl⟩
  · change (r.writeTo Errand.collect (other, got)).ring.Valid
    exact h.left.writeTo
  · change (s.writeTo Errand.collect (other, got)).ring.Valid
    exact h.right.writeTo
  · change (r.writeTo Errand.collect (other, got)).ring.capacity =
      (s.writeTo Errand.collect (other, got)).ring.capacity
    rw [hring, hring', Ring.capacity_consume, Ring.capacity_consume, h.capacity_eq]
  · change (r.writeTo Errand.collect (other, got)).ring.queue.Twin
      (s.writeTo Errand.collect (other, got)).ring.queue
    rw [hring, hring', Ring.queue_consume h.left le_rfl, Ring.queue_consume h.right le_rfl,
      h.count_eq, h.capacity_eq]
    exact h.twin.pop _ _
  · change (r.writeTo Errand.collect (other, got)).state =
      (s.writeTo Errand.collect (other, got)).state
    rw [hstate, hstate', h.unread_eq]
  · simp [Result.ofOutcome, hanswer, hanswer', h.count_eq]

/-! ### Runs of errands -/

/-- One errand, on a ring and on a stage that lets everything pass. -/
theorem Alike.perform (h : Alike r s) (errand : Errand σ α) (state : σ × List α) :
    ∃ x y, r.perform errand.command (errand.start state) = some x ∧
      (Stage.mk s Filter.accepting).perform errand.command (errand.start state) = some y ∧
      Matches x y := by
  cases errand with
  | act action settled =>
      cases action with
      | write items => exact h.performWrite items state
      | writeItem item => exact h.performWriteItem item state
      | _ => exact h.act settled state
  | readFromList items => exact h.performPull Producer.ofList_supplies state.1 items
  | readFromQueue items => exact h.performPull Producer.ofQueue_supplies state.1 items
  | writeToList items => exact h.performPush state.1 items

/-- A run of errands gives the same sights on both. -/
theorem Alike.sights_eq (h : Alike r s) (errands : List (Errand σ α)) (state : σ × List α) :
    ∃ seen, sights Ring.perform r errands state = some seen ∧
      sights (fun ring => (Stage.mk ring Filter.accepting).perform) s errands state =
        some seen := by
  induction errands generalizing r s state with
  | nil => exact ⟨[], rfl, rfl⟩
  | cons errand errands ih =>
      obtain ⟨x, y, hx, hy, hxy⟩ := h.perform errand state
      obtain ⟨seen, hr, hs⟩ := ih hxy.alike x.state
      refine ⟨x.sight :: seen, ?_, ?_⟩
      · rw [sights, hx, Option.bind_some, hr]
        rfl
      · rw [sights, hy, Option.bind_some, ← hxy.state_eq, hs, hxy.sight_eq]
        rfl

end Alike

/-- **A stage that lets everything pass is a plain ring to its user.** Whatever the capacity, every
run of errands (writes, reads, pulls from lists and queues, pushes to a list) gives on both sides
the same answers and the same unread items, their number, whether there are any and whether the
ring is full, and the same answer to whether the item consumed last may be given back. -/
theorem passthrough_sights [Inhabited α] (requested : Nat) (errands : List (Errand σ α))
    (state : σ × List α) :
    ∃ seen, sights Ring.perform (Ring.create requested) errands state = some seen ∧
      sights (fun ring => (Stage.mk ring Filter.accepting).perform)
        (Stage.create requested (Filter.accepting : Filter (σ × List α) α)).ring errands state =
        some seen :=
  (Alike.refl (Ring.valid_create requested)).sights_eq errands state

end Carousel
