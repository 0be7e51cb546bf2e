import Carousel.Ring.Valid
import Carousel.Transfer.Pull
import Carousel.Transfer.Push

/-! # Transfers keep rings valid

However its peers answer, a transfer leaves a valid ring valid: committing run by run, one call of
a pull, and a push. The slots offered to a producer are free (`tail_add_vacancy_le`), so what it
stores there does not change how many slots there are.
-/

namespace Carousel

variable {σ α : Type}

namespace Ring

theorem tail_add_vacancy_le {r : Ring α} (h : r.Valid) : r.tail + r.vacancy ≤ r.capacity := by
  have := h.tail_lt
  have := h.head_lt
  unfold vacancy
  split <;> omega

theorem Valid.writeLaps {watch : Observer σ α} {state : σ} {r : Ring α} (h : r.Valid)
    (items : List α) : (r.writeLaps watch state items).ring.Valid := by
  fun_induction Ring.writeLaps watch state r items with
  | case1 => exact h
  | case2 state r item items room run committed evicted verdict failure hv =>
    have hr : r.tail + run.length ≤ r.capacity := by
      have := h.tail_lt
      simp only [run, room, List.length_cons, List.length_take]
      omega
    exact h.commit hr
  | case3 state r item items room run committed evicted verdict hv ih =>
    have hr : r.tail + run.length ≤ r.capacity := by
      have := h.tail_lt
      simp only [run, room, List.length_cons, List.length_take]
      omega
    exact ih (h.commit hr)

/-- A ring whose free slots a producer has stored to. -/
theorem Valid.filled {r : Ring α} (h : r.Valid) (d : Delivery Failure σ α) :
    ({ r with slots :=
        overlay r.slots r.tail (d.buffer (window r.slots r.tail r.vacancy)) } : Ring α).Valid := by
  apply h.withSlots
  apply length_overlay
  have hv := tail_add_vacancy_le h
  unfold Delivery.buffer
  rw [length_cover, length_window hv]
  exact hv

theorem Valid.pullInPlace {produce : Producer σ α} {watch : Observer σ α} {state : σ} {r : Ring α}
    (h : r.Valid) : (r.pullInPlace produce watch state).ring.Valid := by
  have hf := h.filled (produce state (window r.slots r.tail r.vacancy))
  unfold Ring.pullInPlace
  dsimp only
  split
  · exact hf
  · exact hf
  · exact hf
  · exact hf.advance_forget _

theorem Valid.pullStaged {produce : Producer σ α} {watch : Observer σ α} {state : σ} {r : Ring α}
    (h : r.Valid) (staging : List α) : (r.pullStaged produce watch state staging).1.ring.Valid := by
  unfold Ring.pullStaged
  dsimp only
  split
  · exact h
  · exact h
  · exact h.writeLaps _

theorem Valid.pullOnce [Inhabited α] {produce : Producer σ α} {watch : Observer σ α} {state : σ}
    {r : Ring α} (h : r.Valid) (staging : List α) :
    (r.pullOnce produce watch state staging).1.ring.Valid := by
  unfold Ring.pullOnce
  split
  · exact h.pullStaged _
  · exact h.pullInPlace

theorem segment_le_count {r : Ring α} (h : r.Valid) : r.segments.1.length ≤ r.count := by
  have := length_segments h
  omega

theorem Valid.pushRest {consumer : Consumer σ α} {state : σ} {r : Ring α} {total : Nat}
    (h : r.Valid) : (r.pushRest consumer state total).ring.Valid := by
  fun_induction Ring.pushRest consumer state r total with
  | case1 => exact h
  | case2 => exact h
  | case3 => exact h
  | case4 => exact h
  | case5 state r total item items hs run receipt reports accepted _ _ hlt =>
    have := segment_le_count h
    rw [hs] at this
    exact h.consume (by simp only [run] at *; omega)
  | case6 state r total item items hs run receipt reports accepted _ hgt _ ih =>
    have := segment_le_count h
    rw [hs] at this
    exact ih (h.consume (by simp only [run] at *; omega))

theorem Valid.writeTo {consumer : Consumer σ α} {state : σ} {r : Ring α} (h : r.Valid) :
    (r.writeTo consumer state).ring.Valid :=
  h.forget.pushRest

end Ring

end Carousel
