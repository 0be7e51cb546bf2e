import Carousel.Json.Skip

/-! # Reading what is written

Written JSON text read back, piece by piece, whatever follows it. Blanks in front of a token are
passed over (`skipBlank_append`, `expect_append`), a quoted text of plain characters gives these
characters (`readText_plain`), and the digits of a number of 64 bits give that number
(`readNumber_digits`), or are passed over where no number is wanted (`skipValue_digits`). A number
has no end of its own, so there something has to follow that cannot belong to it (`EndsNumber`). -/

namespace Carousel.Json

/-! ### Blanks and quoted texts -/

theorem skipBlank_append {blanks : List Char} (h : blanks.all isBlank = true)
    (text : List Char) : skipBlank (blanks ++ text) = skipBlank text :=
  List.dropWhile_append_of_pos (List.all_eq_true.mp h)

theorem skipBlank_cons {c : Char} (h : isBlank c = false) (text : List Char) :
    skipBlank (c :: text) = c :: text :=
  List.dropWhile_cons_of_neg (by simp [h])

theorem expect_append {blanks : List Char} (h : blanks.all isBlank = true) {c : Char}
    (hc : isBlank c = false) (text : List Char) : expect c (blanks ++ c :: text) = .ok text := by
  unfold expect
  rw [skipBlank_append h, skipBlank_cons hc]
  simp only [if_true]

/-- A character that stands for itself in a quoted text. -/
def isPlain (c : Char) : Bool := c ≠ '"' && c ≠ '\\' && ¬ c < ' '

theorem readText_plain {key : List Char} (h : key.all isPlain = true) (rest : List Char) :
    readText (key ++ '"' :: rest) = .ok (key, rest) := by
  induction key with
  | nil => rw [List.nil_append, readText]
  | cons c key ih =>
      obtain ⟨hc, hkey⟩ := Bool.and_eq_true_iff.mp h
      simp only [isPlain, Bool.and_eq_true, decide_eq_true_eq] at hc
      obtain ⟨⟨hquote, hslash⟩, hlt⟩ := hc
      rw [List.cons_append, readText, if_neg hlt, ih hkey]
      · rfl
      · exact hquote
      · exact hslash

/-! ### Numbers -/

/-- What follows cannot belong to a number. -/
def EndsNumber (rest : List Char) : Prop :=
  ∀ c ∈ rest.head?, c.isDigit = false ∧ c ∉ ['.', 'e', 'E']

theorem EndsNumber.ne_cons {rest : List Char} (h : EndsNumber rest) {c : Char}
    (hc : c ∈ ['.', 'e', 'E']) (text : List Char) : rest ≠ c :: text := by
  rintro rfl
  exact (h c rfl).2 hc

theorem span_digits {digits rest : List Char} (h : ∀ c ∈ digits, c.isDigit = true)
    (hr : EndsNumber rest) :
    (digits ++ rest).takeWhile Char.isDigit = digits ∧
      (digits ++ rest).dropWhile Char.isDigit = rest := by
  rw [List.takeWhile_append_of_pos h, List.dropWhile_append_of_pos h]
  cases rest with
  | nil => simp
  | cons c rest =>
      obtain ⟨hc, -⟩ := hr c rfl
      simp [hc]

/-- Digits that stay below the limit are all taken in. -/
theorem absorb_eq {digits : List Char} {n : Nat} (h : Nat.ofDigitChars 10 digits n ≤ maxWord) :
    absorb n digits = (Nat.ofDigitChars 10 digits n, []) := by
  induction digits generalizing n with
  | nil => rfl
  | cons c digits ih =>
      have hcons : Nat.ofDigitChars 10 (c :: digits) n =
          Nat.ofDigitChars 10 digits (n * 10 + digitValue c) := by
        rw [Nat.ofDigitChars_cons, Nat.mul_comm]
        rfl
      rw [hcons] at h ⊢
      -- further digits only add to the number, so the limit is kept here already
      have hle : n * 10 + digitValue c ≤ Nat.ofDigitChars 10 digits (n * 10 + digitValue c) := by
        have hpow : 0 < 10 ^ digits.length := Nat.pow_pos (by decide)
        have hmul := Nat.le_mul_of_pos_left (n * 10 + digitValue c) hpow
        rw [Nat.ofDigitChars_eq_ofDigitChars_zero]
        omega
      rw [absorb, if_pos (Nat.le_trans hle h), ih h]

theorem head_toDigits {n : Nat} (hn : 0 < n) : (Nat.toDigits 10 n).head? ≠ some '0' := by
  induction n using Nat.strongRecOn with
  | ind n ih =>
      rcases Nat.lt_or_ge n 10 with hlt | hge
      · have hdigit : ∀ m < 10, 0 < m → Nat.digitChar m ≠ '0' := by decide
        rw [Nat.toDigits_of_lt_base hlt]
        simpa using hdigit n hlt hn
      · have hhead := ih (n / 10) (by omega) (by omega)
        obtain ⟨c, digits, hdigits⟩ :=
          List.exists_cons_of_ne_nil (Nat.toDigits_ne_nil (n := n / 10) (b := 10))
        rw [hdigits] at hhead
        rw [Nat.toDigits_of_base_le (by decide) hge, hdigits]
        exact hhead

/-- No number but zero begins with a zero. -/
theorem toDigits_ne_zero_cons (n : Nat) (c : Char) (digits : List Char) :
    Nat.toDigits 10 n ≠ '0' :: c :: digits := by
  intro h
  rcases Nat.eq_zero_or_pos n with rfl | hn
  · rw [Nat.toDigits_zero] at h
    cases h
  · exact head_toDigits hn (by rw [h]; rfl)

theorem isDigit_of_mem_toDigits (n : Nat) : ∀ c ∈ Nat.toDigits 10 n, c.isDigit = true :=
  fun _ hc => Nat.isDigit_of_mem_toDigits (by decide) (by decide) hc

theorem readNumber_digits {n : Nat} (hn : n ≤ maxWord) {rest : List Char} (hr : EndsNumber rest) :
    readNumber false (Nat.toDigits 10 n ++ rest) = .ok (some n, rest) := by
  obtain ⟨htake, hdrop⟩ := span_digits (isDigit_of_mem_toDigits n) hr
  have habsorb : absorb 0 (Nat.toDigits 10 n) = (n, []) := by
    rw [absorb_eq (by rwa [Nat.ofDigitChars_ten_toDigits]), Nat.ofDigitChars_ten_toDigits]
  unfold readNumber
  simp only [htake, hdrop]
  split
  · next hnil => exact absurd hnil Nat.toDigits_ne_nil
  · next c digits hzero => exact absurd hzero (toDigits_ne_zero_cons n c digits)
  · rw [habsorb]
    dsimp only
    split
    · exact absurd rfl (hr.ne_cons (by decide) _)
    · exact absurd rfl (hr.ne_cons (by decide) _)
    · exact absurd rfl (hr.ne_cons (by decide) _)
    · rfl

theorem skipExponent_of_endsNumber {rest : List Char} (hr : EndsNumber rest) :
    skipExponent rest = .ok rest := by
  rw [skipExponent]
  all_goals exact fun text => hr.ne_cons (by decide) _

theorem skipNumber_digits (n : Nat) {rest : List Char} (hr : EndsNumber rest) :
    skipNumber (Nat.toDigits 10 n ++ rest) = .ok rest := by
  obtain ⟨htake, hdrop⟩ := span_digits (isDigit_of_mem_toDigits n) hr
  unfold skipNumber
  simp only [htake, hdrop]
  split
  · next hnil => exact absurd hnil Nat.toDigits_ne_nil
  · next c digits hzero => exact absurd hzero (toDigits_ne_zero_cons n c digits)
  · split
    · exact absurd rfl (hr.ne_cons (by decide) _)
    · exact skipExponent_of_endsNumber hr

theorem ne_of_isDigit {c d : Char} (hc : c.isDigit = true) (hd : d.isDigit = false) : c ≠ d := by
  rintro rfl
  exact absurd (hc.symm.trans hd) (by decide)

theorem toDigits_cases (n : Nat) :
    ∃ c digits, Nat.toDigits 10 n = c :: digits ∧ c.isDigit = true ∧ isBlank c = false := by
  obtain ⟨c, digits, hdigits⟩ := List.exists_cons_of_ne_nil (Nat.toDigits_ne_nil (n := n) (b := 10))
  have hc : c.isDigit = true := isDigit_of_mem_toDigits n c (hdigits ▸ List.mem_cons_self)
  refine ⟨c, digits, hdigits, hc, ?_⟩
  simp only [isBlank, Bool.or_eq_false_iff, decide_eq_false_iff_not]
  exact ⟨⟨⟨ne_of_isDigit hc rfl, ne_of_isDigit hc rfl⟩, ne_of_isDigit hc rfl⟩, ne_of_isDigit hc rfl⟩

theorem skipScalar_of_isDigit {c : Char} (hc : c.isDigit = true) (rest : List Char) :
    skipScalar c rest = skipNumber (c :: rest) := by
  unfold skipScalar
  rw [if_neg (ne_of_isDigit hc rfl), if_neg (ne_of_isDigit hc rfl), if_neg (ne_of_isDigit hc rfl),
    if_neg (ne_of_isDigit hc rfl), if_pos hc]

/-- A number is a value, whatever is made of it. -/
theorem skipValue_digits {blanks : List Char} (h : blanks.all isBlank = true) (n : Nat)
    {rest : List Char} (hr : EndsNumber rest) :
    skipValue (blanks ++ (Nat.toDigits 10 n ++ rest)) = .ok rest := by
  obtain ⟨c, digits, hdigits, hc, hblank⟩ := toDigits_cases n
  have hskip := skipNumber_digits n hr
  rw [hdigits, List.cons_append] at hskip ⊢
  unfold skipValue
  rw [skipNested, skipBlank_append h, skipBlank_cons hblank]
  split
  · next heq => cases heq
  · next heq => exact absurd (List.cons.inj heq).1 (ne_of_isDigit hc rfl)
  · next heq => exact absurd (List.cons.inj heq).1 (ne_of_isDigit hc rfl)
  · next heq =>
      cases heq
      rw [skipScalar_of_isDigit hc, hskip]
      simp only [skipAfter]

end Carousel.Json
