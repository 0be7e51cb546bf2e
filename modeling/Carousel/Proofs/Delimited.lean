import Carousel.Proofs.Exchange
import Mathlib.Logic.Function.Iterate

/-! # Reading record by record

Items that satisfy a predicate close the records of a stream. `records p items` are the records of
a list: each the items in front of a closing one, with the closing item as its mark; what is left
behind the last mark is a record of its own, unless nothing is left.

`Ring.readUntil` reads the first record of the unread items (`readUntil_eq`), and reading until a
read fails gives them all (`Ring.readRecords_splits`). -/

namespace Carousel

variable {α : Type}

/-! ### Records -/

/-- A record, and the item that closes it; only the last record of a list may lack one. -/
structure Record (α : Type) where
  items : List α
  mark : Option α
deriving DecidableEq, Repr

/-- The items of a record with its mark. -/
def Record.whole (x : Record α) : List α := x.items ++ x.mark.toList

/-- The records of a list, each closed by the first item behind it that satisfies `p`. -/
def records (p : α → Bool) : List α → List (Record α)
  | [] => []
  | item :: items =>
    if p item then ⟨[], some item⟩ :: records p items
    else
      match records p items with
      | [] => [⟨[item], none⟩]
      | x :: later => ⟨item :: x.items, x.mark⟩ :: later

section Records

variable (p : α → Bool)

theorem records_of_closing {item : α} (h : p item = true) (items : List α) :
    records p (item :: items) = ⟨[], some item⟩ :: records p items := by
  simp [records, h]

theorem records_eq_nil {items : List α} : records p items = [] ↔ items = [] := by
  cases items with
  | nil => simp [records]
  | cons item items =>
      simp only [records, reduceCtorEq, iff_false]
      split
      · exact List.cons_ne_nil _ _
      · split <;> exact List.cons_ne_nil _ _

theorem flatten_records (items : List α) :
    ((records p items).map Record.whole).flatten = items := by
  fun_induction records p items with
  | case1 => rfl
  | case2 item items hp ih => simpa [Record.whole] using ih
  | case3 item items hp hnil ih => simp [Record.whole, (records_eq_nil p).mp hnil]
  | case4 item items hp x later hcons ih =>
      rw [hcons] at ih
      simpa [Record.whole] using ih

/-- No item of a record satisfies the predicate, its mark does, and a record without a mark is
not empty. -/
theorem of_mem_records {items : List α} {x : Record α} (h : x ∈ records p items) :
    (∀ a ∈ x.items, p a = false) ∧ (∀ a ∈ x.mark, p a = true) ∧
      (x.mark = none → x.items ≠ []) := by
  fun_induction records p items generalizing x with
  | case1 => cases h
  | case2 item items hp ih =>
      rcases List.mem_cons.mp h with rfl | h
      · exact ⟨by simp, by simpa using hp, by simp⟩
      · exact ih h
  | case3 item items hp hnil ih =>
      obtain rfl := List.mem_singleton.mp h
      exact ⟨by simpa using hp, by simp, by simp⟩
  | case4 item items hp first later hcons ih =>
      rw [hcons] at ih
      rcases List.mem_cons.mp h with rfl | h
      · obtain ⟨hitems, hmark, -⟩ := ih List.mem_cons_self
        exact ⟨by simpa [hp] using hitems, hmark, by simp⟩
      · exact ih (List.mem_cons_of_mem _ h)

/-- Only the last record may lack a mark. -/
theorem mark_of_mem_dropLast {items : List α} {x : Record α}
    (h : x ∈ (records p items).dropLast) : x.mark ≠ none := by
  fun_induction records p items generalizing x with
  | case1 => cases h
  | case2 item items hp ih =>
      cases hrest : records p items with
      | nil => simp [hrest] at h
      | cons first later =>
          rw [hrest, List.dropLast_cons_cons] at h
          rcases List.mem_cons.mp h with rfl | h
          · simp
          · exact ih (by rwa [hrest])
  | case3 item items hp hnil ih => cases h
  | case4 item items hp first later hcons ih =>
      rw [hcons] at ih
      cases later with
      | nil => cases h
      | cons second later =>
          rw [List.dropLast_cons_cons] at h ih
          rcases List.mem_cons.mp h with rfl | h
          · exact ih (x := first) List.mem_cons_self
          · exact ih (List.mem_cons_of_mem _ h)

theorem length_records (items : List α) :
    (records p items).length =
      items.countP p + if items.getLast?.any (fun a => !p a) then 1 else 0 := by
  fun_induction records p items with
  | case1 => rfl
  | case2 item items hp ih =>
      rw [List.length_cons, ih, List.countP_cons_of_pos hp]
      cases items with
      | nil => simp [hp]
      | cons second items => rw [List.getLast?_cons_cons]; omega
  | case3 item items hp hnil ih =>
      obtain rfl := (records_eq_nil p).mp hnil
      simp [hp]
  | case4 item items hp first later hcons ih =>
      rw [hcons] at ih
      rw [List.length_cons, ← List.length_cons (a := first), ih, List.countP_cons_of_neg hp]
      cases items with
      | nil => cases hcons
      | cons second items => rw [List.getLast?_cons_cons]

theorem length_records_le (items : List α) : (records p items).length ≤ items.length := by
  fun_induction records p items with
  | case1 => exact Nat.le_refl _
  | case2 item items hp ih => exact Nat.succ_le_succ ih
  | case3 => exact Nat.succ_le_succ (Nat.zero_le _)
  | case4 item items hp first later hcons ih =>
      rw [hcons] at ih
      exact Nat.le_succ_of_le ih

/-- The first record reaches up to the first item that satisfies the predicate. -/
theorem records_of_found {items : List α} {i : Nat} (h : items.findIdx? p = some i) :
    ∃ mark, records p items = ⟨items.take i, some mark⟩ :: records p (items.drop (i + 1)) := by
  induction items generalizing i with
  | nil => simp at h
  | cons item items ih =>
      rw [List.findIdx?_cons] at h
      by_cases hp : p item = true
      · rw [if_pos hp] at h
        cases h
        exact ⟨item, records_of_closing p hp items⟩
      · rw [if_neg hp] at h
        obtain ⟨j, hj, rfl⟩ := Option.map_eq_some_iff.mp h
        obtain ⟨mark, hmark⟩ := ih hj
        refine ⟨mark, ?_⟩
        simp [records, hp, hmark]

theorem records_of_not_found {items : List α} (h : items.findIdx? p = none) (hne : items ≠ []) :
    records p items = [⟨items, none⟩] := by
  induction items with
  | nil => exact absurd rfl hne
  | cons item items ih =>
      rw [List.findIdx?_cons] at h
      by_cases hp : p item = true
      · rw [if_pos hp] at h
        cases h
      · rw [if_neg hp, Option.map_eq_none_iff] at h
        cases items with
        | nil => simp [records, hp]
        | cons second items =>
            rw [records, if_neg hp, ih h (List.cons_ne_nil _ _)]

end Records

namespace Ring

/-! ### Reading one record -/

theorem search_plain (p : α → Bool) (items : List α) :
    search (fun (_ : Unit) item => ((), p item)) () items = ((), items.findIdx? p) := by
  induction items with
  | nil => rfl
  | cons item items ih =>
      rw [List.findIdx?_cons]
      cases hp : p item with
      | true => rw [search_of_picked (by rw [hp])]; rfl
      | false => rw [search_of_passed (by rw [hp]), ih]; rfl

variable [Inhabited α] {r : Ring α} (p : α → Bool)

/-- A read gives the first record of the unread items and consumes it with its mark. -/
theorem readUntil_eq (h : r.Valid) :
    match records p r.unread with
    | [] => r.readUntil p = (r.forget, .error .endOfData)
    | x :: later =>
      r.readUntil p = (r.consume x.whole.length, .ok x.items) ∧ x.whole.length ≤ r.count ∧
        records p (r.unread.drop x.whole.length) = later := by
  have hlength : r.unread.length = r.count := r.length_unread
  by_cases h0 : r.count = 0
  · rw [(records_eq_nil p).mpr (List.length_eq_zero_iff.mp (hlength.trans h0))]
    simp [readUntil, readItems, h0]
  · have hne : r.unread ≠ [] := List.ne_nil_of_length_pos (by omega)
    unfold readUntil
    rw [readItems_eq h h0, search_plain]
    rcases hfound : r.unread.findIdx? p with _ | i
    · have hwhole : (⟨r.unread, none⟩ : Record α).whole.length = r.count := by
        simp [Record.whole]
      rw [records_of_not_found p hfound hne]
      dsimp only
      rw [hwhole]
      exact ⟨rfl, Nat.le_refl _, by rw [← hlength, List.drop_length]; rfl⟩
    · have hi : i < r.unread.length := (List.findIdx?_eq_some_iff_getElem.mp hfound).1
      obtain ⟨mark, hmark⟩ := records_of_found p hfound
      have hwhole : (⟨r.unread.take i, some mark⟩ : Record α).whole.length = i + 1 := by
        simp only [Record.whole, Option.toList_some, List.length_append, List.length_take,
          List.length_singleton]
        omega
      rw [hmark]
      dsimp only
      rw [hwhole]
      exact ⟨rfl, by omega, rfl⟩

/-! ### Reading all records -/

/-- What has been read when a read fails: the records, the failure, and the ring after it. -/
structure Reading (α : Type) where
  records : List (List α)
  failure : Failure
  ring : Ring α

omit [Inhabited α] in
/-- Reads record after record until a read fails, which has to happen within `limit` reads. -/
def readRecords : (limit : Nat) → Ring α → Option (Reading α)
  | 0, _ => none
  | limit + 1, r =>
    match r.readUntil p with
    | (after, .error failure) => some ⟨[], failure, after⟩
    | (after, .ok record) =>
      (readRecords limit after).map fun later => { later with records := record :: later.records }

omit [Inhabited α] in
theorem drained_consume {n : Nat} (hn : n ≤ r.count) : (r.consume n).drained = r.drained := by
  unfold drained
  rw [r.tail_consume hn]
  rfl

/-- All records are read, one in each read, and one read more finds the ring empty. -/
theorem readRecords_eq (h : r.Valid) (limit : Nat) :
    readRecords p limit r =
      if (records p r.unread).length < limit then
        some ⟨(records p r.unread).map Record.items, .endOfData, r.drained⟩
      else none := by
  induction limit generalizing r with
  | zero => simp [readRecords]
  | succ limit ih =>
      have hread := readUntil_eq p h
      cases hrecords : records p r.unread with
      | nil =>
          rw [hrecords] at hread
          have hempty := (records_eq_nil p).mp hrecords
          simp [readRecords, hread, forget_eq_drained h hempty rfl rfl]
      | cons x later =>
          rw [hrecords] at hread
          obtain ⟨hread, hle, hlater⟩ := hread
          have hih := ih (h.consume hle)
          rw [unread_consume r hle, hlater, drained_consume hle] at hih
          simp only [readRecords, hread, hih, List.length_cons, Nat.add_lt_add_iff_right]
          split <;> rfl

/-- The ring after `i` reads holds the records that are left. -/
theorem records_iterate (h : r.Valid) {i : Nat} (hi : i ≤ (records p r.unread).length) :
    ((fun s : Ring α => (s.readUntil p).1)^[i] r).Valid ∧
      records p ((fun s : Ring α => (s.readUntil p).1)^[i] r).unread =
        (records p r.unread).drop i := by
  induction i with
  | zero => exact ⟨h, rfl⟩
  | succ i ih =>
      obtain ⟨hv, hrest⟩ := ih (by omega)
      rw [Function.iterate_succ_apply']
      generalize (fun s : Ring α => (s.readUntil p).1)^[i] r = s at hv hrest
      have hread := readUntil_eq p hv
      rw [hrest, List.drop_eq_getElem_cons (by omega)] at hread
      obtain ⟨hread, hle, hlater⟩ := hread
      rw [hread]
      exact ⟨hv.consume hle, by rw [unread_consume s hle, hlater]⟩

/-- **Reading record by record splits the unread items exactly.** Read until a read fails, a ring
gives `cut.length` records, at most as many as it has items, and then the end of the data; it is
empty then and has nothing to give back.

* No record holds an item that satisfies the predicate; each read consumes its record and its mark
  and nothing else, so records and marks in turn are the unread items.
* There is a record for each item that satisfies the predicate, and one more if the last item does
  not. Only the last record can lack a mark, and then it is not empty.
* A ring with the same unread items, wherever they lie, gives the same records. -/
theorem readRecords_splits (h : r.Valid) :
    ∃ cut : List (Record α),
      (∀ limit, readRecords p limit r =
        if cut.length < limit then some ⟨cut.map Record.items, .endOfData, r.drained⟩ else none) ∧
      cut.length ≤ r.count ∧ r.drained.unread = [] ∧ r.drained.canUnread = false ∧
      (cut.map Record.whole).flatten = r.unread ∧
      (∀ i ≤ cut.length, ((fun s : Ring α => (s.readUntil p).1)^[i] r).unread =
        ((cut.drop i).map Record.whole).flatten) ∧
      (∀ x ∈ cut, (∀ a ∈ x.items, p a = false) ∧ (∀ a ∈ x.mark, p a = true) ∧
        (x.mark = none → x.items ≠ [])) ∧
      (∀ x ∈ cut.dropLast, x.mark ≠ none) ∧
      cut.length =
        r.unread.countP p + (if r.unread.getLast?.any (fun a => !p a) then 1 else 0) ∧
      ∀ s : Ring α, s.Valid → s.unread = r.unread → ∀ limit,
        (readRecords p limit s).map Reading.records =
          (readRecords p limit r).map Reading.records := by
  refine ⟨records p r.unread, readRecords_eq p h, ?_, rfl, rfl, flatten_records p r.unread, ?_,
    fun x hx => of_mem_records p hx, fun x hx => mark_of_mem_dropLast p hx,
    length_records p r.unread, ?_⟩
  · rw [← r.length_unread]
    exact length_records_le p r.unread
  · intro i hi
    obtain ⟨-, hrest⟩ := records_iterate p h hi
    rw [← hrest, flatten_records]
  · intro s hs hunread limit
    rw [readRecords_eq p hs, readRecords_eq p h, hunread]
    split <;> rfl

/-- Zeros close the records of a ring whose items go on at slot 0 behind the last slot: there is an
empty record between the two zeros, and none behind the open last one. -/
theorem readRecords_splits_wrapped :
    (⟨[0, 0, 4, 9, 1, 2], 4, 5, true⟩ : Ring Nat).Valid ∧
      ∃ cut : List (Record Nat), cut.length = 3 ∧ cut.map Record.items = [[1, 2], [], [4]] ∧
        readRecords (· == 0) 3 ⟨[0, 0, 4, 9, 1, 2], 4, 5, true⟩ = none ∧
        readRecords (· == 0) 4 ⟨[0, 0, 4, 9, 1, 2], 4, 5, true⟩ =
          some ⟨cut.map Record.items, .endOfData, ⟨[0, 0, 4, 9, 1, 2], 3, 0, false⟩⟩ := by
  have hv : (⟨[0, 0, 4, 9, 1, 2], 4, 5, true⟩ : Ring Nat).Valid :=
    ⟨by decide, by decide, by decide, by decide⟩
  obtain ⟨cut, hread, -, -, -, -, -, -, -, hlength, -⟩ := readRecords_splits (· == 0) hv
  have hthree : cut.length = 3 := hlength
  have hitems : readRecords (· == 0) 4 ⟨[0, 0, 4, 9, 1, 2], 4, 5, true⟩ =
      some ⟨[[1, 2], [], [4]], .endOfData, ⟨[0, 0, 4, 9, 1, 2], 3, 0, false⟩⟩ := rfl
  have hfour := hread 4
  rw [hthree, if_pos (by decide)] at hfour
  refine ⟨hv, cut, hthree, ?_, ?_, hfour⟩
  · rw [hitems] at hfour
    exact (congrArg Reading.records (Option.some.inj hfour)).symm
  · rw [hread 3, hthree, if_neg (by decide)]

end Ring

end Carousel
