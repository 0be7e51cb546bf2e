import Carousel.Io.Ring
import Carousel.Proofs.Invariant
import Carousel.Proofs.Passthrough

/-! # Pushing and pulling between two rings

Items move from one ring to another in two ways: the source pushes its runs to the destination, or
the destination pulls chunks from the source. The runs are the source's and the chunks the
destination's, so neither the calls nor the slots that are stored to are the same, but no more
than that can be told apart (`Ring.writeTo_agrees_readFrom`).

A pull never offers an empty buffer, so producers that agree on the others are pulled from alike
(`pullFrom_congr`); this covers a source that is read as a byte stream. -/

namespace Carousel

variable {σ α : Type}

/-! ### Rings as byte streams -/

/-- An attempt that is not interrupted is one read. -/
theorem Reader.attempt_of_ok (reader : Reader σ α) {state : σ} {buffer : List α} {n : Nat}
    (h : (reader.read state buffer).answer = .ok n) :
    reader.attempt state buffer =
      ⟨(reader.read state buffer).state, (reader.read state buffer).stored,
        if n = 0 then .error .endOfData else .ok n⟩ := by
  rw [attempt]
  dsimp only
  split
  · next ha =>
      cases h.symm.trans ha
      rfl
  · next ha =>
      cases h.symm.trans ha
      rfl
  · next ha => cases h.symm.trans ha

namespace Ring

/-- A ring that is written to as a byte stream takes what it takes as a ring. -/
theorem consumer_writer : (writer : Writer (Ring α) α).consumer = consumer := by
  funext r run
  unfold Writer.consumer
  rw [Writer.attempt]
  rfl

/-- A ring that is read as a byte stream gives what it gives as a ring, to a buffer that is not
empty. -/
theorem producer_reader (r : Ring α) {buffer : List α} (hb : buffer ≠ []) :
    reader.producer r buffer = r.read buffer := by
  have he : ¬ buffer.isEmpty = true := by simpa using hb
  have hzero : min buffer.length r.count = 0 ↔ r.count = 0 := by
    have hpos : 0 < buffer.length := List.length_pos_iff.mpr hb
    omega
  have hanswer : (r.read buffer).answer =
      if r.count = 0 then .error .endOfData else .ok (min buffer.length r.count) := by
    unfold read
    rw [if_neg he]
    split <;> rfl
  unfold Reader.producer
  rw [if_neg he, Reader.attempt_of_ok reader (answer_ioRead r buffer)]
  simp only [hzero, ← hanswer]
  rfl

/-! ### Producers that agree -/

section Congr

variable [Inhabited α] {f g : Producer σ α} {watch : Observer σ α} {state : σ} {r : Ring α}

theorem pullOnce_congr (hfg : ∀ state buffer, buffer ≠ [] → f state buffer = g state buffer)
    (h : r.Valid) {staging : List α} (hs : r.Staging staging) :
    r.pullOnce f watch state staging = r.pullOnce g watch state staging := by
  have hcall : r.call f state staging = r.call g state staging := by
    unfold call
    rw [hfg state _ (offer_ne_nil h hs)]
  rw [pullOnce_eq h, pullOnce_eq h, hcall]

/-- The staging buffer that a call of any producer leaves goes on to fit. -/
theorem staging_pullOnce (h : r.Valid) {staging : List α} (hs : r.Staging staging) :
    (r.pullOnce f watch state staging).1.ring.Staging (r.pullOnce f watch state staging).2 := by
  unfold Staging
  rw [capacity_pullOnce h, pullOnce_eq h]
  dsimp only
  split
  · next hf =>
      right
      rw [Call.length_buffer]
      exact (length_offer h hs).trans (if_pos hf)
  · exact hs

theorem pullFrom_congr (hfg : ∀ state buffer, buffer ≠ [] → f state buffer = g state buffer)
    (h : r.Valid) {p : Progress α} (hs : r.Staging p.staging) (limit : Nat) :
    r.pullFrom f watch limit state p = r.pullFrom g watch limit state p := by
  induction limit generalizing state r p with
  | zero => rfl
  | succ limit ih =>
      have hv : (r.pullOnce g watch state p.staging).1.ring.Valid := h.pullOnce _
      have hstaging : (r.pullOnce g watch state p.staging).1.ring.Staging
        (r.pullOnce g watch state p.staging).2 := staging_pullOnce h hs
      simp only [pullFrom, pullOnce_congr hfg h hs]
      generalize r.pullOnce g watch state p.staging = q at hv hstaging
      obtain ⟨o, staging⟩ := q
      simp only [ih (p := ⟨_, _, staging⟩) hv hstaging]

end Congr

/-! ### The source -/

/-- What is left of a ring, up to its marker, when all its items have been consumed. -/
def drained (r : Ring α) : Ring α := ⟨r.slots, r.tail, 0, false⟩

theorem forget_consume_count (r : Ring α) : (r.consume r.count).forget = r.drained := by
  unfold consume forget drained tail
  dsimp only
  rw [Nat.sub_self]

/-- A ring that is empty is told by its slots and its write cursor. -/
theorem forget_eq_drained [Inhabited α] {r s : Ring α} (h : s.Valid) (hu : s.unread = [])
    (hs : s.slots = r.slots) (ht : s.tail = r.tail) : s.forget = r.drained := by
  have h0 : s.count = 0 := by rw [← length_unread, hu, List.length_nil]
  have hhead : s.tail = s.head := by
    unfold tail
    rw [h0, Nat.add_zero, Nat.mod_eq_of_lt h.head_lt]
  unfold forget drained
  rw [h0, hs, ← ht, hhead]

/-- Reading leaves the slots and the write cursor as they are. -/
theorem read_stays (r : Ring α) (buffer : List α) :
    (r.read buffer).state.slots = r.slots ∧ (r.read buffer).state.tail = r.tail := by
  unfold read
  split
  · exact ⟨rfl, rfl⟩
  · split
    · exact ⟨rfl, rfl⟩
    · exact ⟨rfl, r.tail_consume (Nat.min_le_right _ _)⟩

end Ring

/-- What every call of a supply keeps may be added to what is known of its state. -/
theorem Producer.Supplies.keeping {produce : Producer σ α} {holds : σ → List α → Prop}
    {kept : σ → Prop} (h : produce.Supplies holds)
    (hk : ∀ state buffer, kept state → kept (produce state buffer).state) :
    produce.Supplies fun state items => holds state items ∧ kept state where
  answer_eq hh hb := h.answer_eq hh.1 hb
  buffer_eq hh hb := h.buffer_eq hh.1 hb
  kept hh hb := ⟨h.kept hh.1 hb, hk _ _ hh.2⟩

/-! ### The destination -/

variable [Inhabited α]

/-- Runs that are written to a ring come to the same as their items one after the other. -/
theorem Alike.foldl_write {r s : Ring α} (h : Alike r s) (runs : List (List α)) :
    Alike (runs.foldl Ring.write r) (s.writeItems runs.flatten) := by
  induction runs generalizing r s with
  | nil => exact h
  | cons run runs ih =>
      rw [List.flatten_cons, Ring.writeItems_append]
      exact ih (h.write run)

/-! ### Both ways -/

namespace Ring

variable {u d : Ring α}

/-- What a push to a ring leaves. -/
theorem writeTo_ring (hu : u.Valid) (hd : d.Valid) :
    (u.writeTo consumer d).answer = .ok u.count ∧
      (u.writeTo consumer d).ring.forget = u.drained ∧
      Alike (u.writeTo consumer d).state (d.writeItems u.unread) := by
  have hc : ∀ (d : Ring α) run, (consumer d run).answer = .ok run.length := fun _ _ => rfl
  obtain ⟨hring, hanswer⟩ := writeTo_inFull hc hu d
  obtain ⟨-, hstate, -⟩ := writeTo_eq hu consumer d
  refine ⟨hanswer, ?_, ?_⟩
  · rw [hring, forget_consume_count]
  · rw [hstate, stateAfter_inFull hc, ← flatten_runs hu]
    exact (Alike.refl hd).foldl_write u.runs

/-- What a pull from a ring leaves. -/
theorem readFrom_ring (hu : u.Valid) (hd : d.Valid) {limit : Nat} (hl : u.count < limit) :
    ∃ o, d.readFrom read limit u = some o ∧ o.answer = .ok u.count ∧
      o.state.forget = u.drained ∧ o.ring = d.writeItems u.unread := by
  have hp : Producer.Supplies read fun (r : Ring α) items =>
      (r.Valid ∧ r.unread = items) ∧ r.slots = u.slots ∧ r.tail = u.tail := by
    apply Producer.read_supplies.keeping
    intro r buffer hr
    exact ⟨(r.read_stays buffer).1.trans hr.1, (r.read_stays buffer).2.trans hr.2⟩
  have hw : (Observer.silent : Observer (Ring α) α).Accepts := fun _ _ _ => rfl
  have hlimit : u.unread.length < limit := by rwa [length_unread]
  obtain ⟨o, ho, hring, hanswer, ⟨hv, hnil⟩, hslots, htail⟩ :=
    pull_accepted hp (fun _ _ _ _ hh => hh) hw hd ⟨⟨hu, rfl⟩, rfl, rfl⟩ hlimit
  rw [length_unread] at hanswer
  exact ⟨o, ho, hanswer, forget_eq_drained hv hnil hslots htail, hring⟩

/-- **Pushing and pulling agree.** Whatever the capacities of two rings and wherever their items
lie, the push of one to the other and the pull of the other from the one move the same items. Both
answer how many, and both leave the source empty, with its slots and its write cursor as they
were, and the destination with its last items and the same marker: the ways differ at most in the
marker of the source and in where the destination stores its items. Nothing at all changes if the
destination of the push is written to as a byte stream, or the source of the pull read as one. -/
theorem writeTo_agrees_readFrom (hu : u.Valid) (hd : d.Valid) {limit : Nat}
    (hl : u.count < limit) :
    ∃ pushed pulled, u.writeTo consumer d = pushed ∧ d.readFrom read limit u = some pulled ∧
      pushed.answer = .ok u.count ∧ pulled.answer = .ok u.count ∧
      pushed.ring.forget = u.drained ∧ pulled.state.forget = u.drained ∧
      pushed.state.unread = (d.unread ++ u.unread).rtake d.capacity ∧
      pulled.ring.unread = (d.unread ++ u.unread).rtake d.capacity ∧
      pushed.state.canUnread = pulled.ring.canUnread ∧
      pushed.state.capacity = d.capacity ∧ pulled.ring.capacity = d.capacity ∧
      u.writeTo writer.consumer d = pushed ∧
      d.readFrom reader.producer limit u = some pulled := by
  obtain ⟨hpushed, hsource, halike⟩ := writeTo_ring hu hd
  obtain ⟨pulled, ho, hpulled, hstate, hring⟩ := readFrom_ring hu hd hl
  have hunread := unread_writeItems hd u.unread
  have hcapacity := d.capacity_writeItems u.unread
  have hio : d.readFrom reader.producer limit u = d.readFrom read limit u :=
    pullFrom_congr (fun r _ hb => r.producer_reader hb) hd (.inl rfl) limit
  refine ⟨_, pulled, rfl, ho, hpushed, hpulled, hsource, hstate, ?_, ?_, ?_, ?_, ?_, ?_, ?_⟩
  · rw [halike.unread_eq, hunread]
  · rw [hring, hunread]
  · rw [halike.canUnread_eq, hring]
  · rw [halike.capacity_eq, hcapacity]
  · rw [hring, hcapacity]
  · rw [consumer_writer]
  · rw [hio, ho]

def source : Ring Nat := ⟨[10, 5, 6, 7, 8, 9], 1, 6, false⟩

def sink : Ring Nat := ⟨[1, 2, 3, 4], 3, 2, true⟩

/-- The push leaves out the first items of a run that is too long, the pull stores them all, so
the destination ends with other slots and another read cursor. -/
theorem writeTo_agrees_readFrom_sink :
    source.Valid ∧ sink.Valid ∧
      (source.writeTo consumer sink).state = ⟨[9, 10, 7, 8], 2, 4, false⟩ ∧
      (sink.readFrom read 7 source).map Outcome.ring = some ⟨[8, 9, 10, 7], 3, 4, false⟩ ∧
      ∃ pulled, sink.readFrom read 7 source = some pulled ∧
        (source.writeTo consumer sink).state.unread = pulled.ring.unread ∧
        (source.writeTo consumer sink).ring.forget = pulled.state.forget := by
  have hu : source.Valid := ⟨by decide, by decide, by decide, by decide⟩
  have hd : sink.Valid := ⟨by decide, by decide, by decide, by decide⟩
  have hpush : (source.writeTo consumer sink).state = ⟨[9, 10, 7, 8], 2, 4, false⟩ := by
    decide +kernel
  have hpull : (sink.readFrom read 7 source).map Outcome.ring =
      some ⟨[8, 9, 10, 7], 3, 4, false⟩ := by
    decide +kernel
  obtain ⟨_, pulled, rfl, ho, -, -, hsource, hstate, hunread, hring, -⟩ :=
    writeTo_agrees_readFrom hu hd (show source.count < 7 by decide)
  exact ⟨hu, hd, hpush, hpull, pulled, ho, hunread.trans hring.symm, hsource.trans hstate.symm⟩

end Ring

end Carousel
