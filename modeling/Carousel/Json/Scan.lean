/-! # Reading JSON text

Readers take a text as a list of characters and give what they read together with the rest of the
text, or the flaw that they meet first.

* `Flaw`: a text is `malformed`, ends too early (`truncated`), or is well formed but holds
  something that does not fit where it stands (`unfit`).
* `skipBlank`, `expect`, `keyword`: blanks, single characters, fixed words.
* `readText`: the characters of a quoted text behind its opening quote. `skipText` only finds its
  end, and does not ask whether escaped surrogates come in pairs.
-/

namespace Carousel.Json

/-- What is wrong with a text, at the first place where something is. -/
inductive Flaw where
  | malformed
  | unfit
  | truncated
deriving DecidableEq, Repr

/-- What a reader gives: a value and the rest of the text. -/
abbrev Scan (β : Type) := Except Flaw (β × List Char)

def isBlank (c : Char) : Bool := c = ' ' || c = '\n' || c = '\t' || c = '\r'

def skipBlank (text : List Char) : List Char := text.dropWhile isBlank

/-- Reads one given character behind any blanks. -/
def expect (c : Char) (text : List Char) : Except Flaw (List Char) :=
  match skipBlank text with
  | [] => .error .truncated
  | d :: rest => if d = c then .ok rest else .error .malformed

/-- Reads a fixed word. -/
def keyword : (word text : List Char) → Except Flaw (List Char)
  | [], rest => .ok rest
  | _ :: _, [] => .error .truncated
  | c :: word, d :: rest => if c = d then keyword word rest else .error .malformed

/-! ### Quoted texts -/

/-- Value of a hexadecimal digit. -/
def hexDigit? (c : Char) : Option Nat :=
  if '0' ≤ c ∧ c ≤ '9' then some (c.toNat - '0'.toNat)
  else if 'a' ≤ c ∧ c ≤ 'f' then some (c.toNat - 'a'.toNat + 10)
  else if 'A' ≤ c ∧ c ≤ 'F' then some (c.toNat - 'A'.toNat + 10)
  else none

/-- Length of a text in bytes of its encoded form. -/
def byteLength : List Char → Nat
  | [] => 0
  | c :: text => c.utf8Size + byteLength text

/-- Reads four hexadecimal digits. A text with fewer than four bytes left is truncated. -/
def readUnit (text : List Char) : Scan Nat :=
  match text with
  | a :: b :: c :: d :: rest =>
    match hexDigit? a, hexDigit? b, hexDigit? c, hexDigit? d with
    | some a, some b, some c, some d => .ok (((a * 16 + b) * 16 + c) * 16 + d, rest)
    | _, _, _, _ => .error .malformed
  | short => if byteLength short < 4 then .error .truncated else .error .malformed

def isLeading (unit : Nat) : Bool := 0xD800 ≤ unit && unit < 0xDC00

def isTrailing (unit : Nat) : Bool := 0xDC00 ≤ unit && unit < 0xE000

/-- The character that a letter stands for behind a backslash. -/
def letterEscape? : Char → Option Char
  | '"' => some '"'
  | '\\' => some '\\'
  | '/' => some '/'
  | 'b' => some '\x08'
  | 'f' => some '\x0c'
  | 'n' => some '\n'
  | 'r' => some '\r'
  | 't' => some '\t'
  | _ => none

/-- Reads the second half of an escaped pair of surrogates. -/
def readTrailing (leading : Nat) (text : List Char) : Scan Char :=
  match text with
  | [] => .error .truncated
  | ['\\'] => .error .truncated
  | '\\' :: 'u' :: rest =>
    match readUnit rest with
    | .error flaw => .error flaw
    | .ok (unit, rest) =>
      if isTrailing unit then
        .ok (Char.ofNat (0x10000 + (leading - 0xD800) * 0x400 + (unit - 0xDC00)), rest)
      else .error .malformed
  | _ => .error .malformed

/-- Reads an escaped character behind its backslash. -/
def readEscape (text : List Char) : Scan Char :=
  match text with
  | [] => .error .truncated
  | 'u' :: rest =>
    match readUnit rest with
    | .error flaw => .error flaw
    | .ok (unit, rest) =>
      if isTrailing unit then .error .malformed
      else if isLeading unit then readTrailing unit rest
      else .ok (Char.ofNat unit, rest)
  | c :: rest =>
    match letterEscape? c with
    | some d => .ok (d, rest)
    | none => .error .malformed

/-- Skips an escaped character behind its backslash. -/
def skipEscape (text : List Char) : Except Flaw (List Char) :=
  match text with
  | [] => .error .truncated
  | 'u' :: rest => (readUnit rest).map (·.2)
  | c :: rest => if (letterEscape? c).isSome then .ok rest else .error .malformed

theorem rest_eq_of_ok {β : Type} {a b : β} {s t : List Char}
    (h : (.ok (a, s) : Scan β) = .ok (b, t)) : s = t :=
  congrArg Prod.snd (Except.ok.inj h)

theorem length_readUnit {text rest : List Char} {unit : Nat} (h : readUnit text = .ok (unit, rest)) :
    rest.length < text.length := by
  unfold readUnit at h
  split at h
  · split at h
    · rw [← rest_eq_of_ok h]
      simp only [List.length_cons]; omega
    · cases h
  · split at h <;> cases h

theorem length_readTrailing {leading : Nat} {text rest : List Char} {c : Char}
    (h : readTrailing leading text = .ok (c, rest)) : rest.length < text.length := by
  unfold readTrailing at h
  split at h
  · cases h
  · cases h
  · split at h
    · cases h
    · next hu =>
      split at h
      · rw [← rest_eq_of_ok h]
        have := length_readUnit hu
        simp only [List.length_cons]; omega
      · cases h
  · cases h

theorem length_readEscape {text rest : List Char} {c : Char} (h : readEscape text = .ok (c, rest)) :
    rest.length < text.length := by
  unfold readEscape at h
  split at h
  · cases h
  · split at h
    · cases h
    · next hu =>
      have := length_readUnit hu
      split at h
      · cases h
      · split at h
        · have := length_readTrailing h
          simp only [List.length_cons]; omega
        · rw [← rest_eq_of_ok h]
          simp only [List.length_cons]; omega
  · split at h <;> cases h
    simp

theorem length_skipEscape {text rest : List Char} (h : skipEscape text = .ok rest) :
    rest.length < text.length := by
  unfold skipEscape at h
  split at h
  · cases h
  · next tail =>
    cases hu : readUnit tail with
    | error flaw => rw [hu] at h; cases h
    | ok scanned =>
      obtain ⟨unit, rest'⟩ := scanned
      rw [hu] at h; cases h
      have := length_readUnit hu
      simp only [List.length_cons]; omega
  · split at h <;> cases h
    simp

/-- Reads a quoted text behind its opening quote, up to its closing one. -/
def readText (text : List Char) : Scan (List Char) :=
  match text with
  | [] => .error .truncated
  | '"' :: rest => .ok ([], rest)
  | '\\' :: rest =>
    match _h : readEscape rest with
    | .error flaw => .error flaw
    | .ok (c, rest') => (readText rest').map fun (cs, tail) => (c :: cs, tail)
  | c :: rest =>
    if c < ' ' then .error .malformed
    else (readText rest).map fun (cs, tail) => (c :: cs, tail)
termination_by text.length
decreasing_by
  · have := length_readEscape _h
    simp only [List.length_cons]; omega
  · simp

/-- Skips a quoted text behind its opening quote, up to its closing one. -/
def skipText (text : List Char) : Except Flaw (List Char) :=
  match text with
  | [] => .error .truncated
  | '"' :: rest => .ok rest
  | '\\' :: rest =>
    match _h : skipEscape rest with
    | .error flaw => .error flaw
    | .ok rest' => skipText rest'
  | c :: rest => if c < ' ' then .error .malformed else skipText rest
termination_by text.length
decreasing_by
  · have := length_skipEscape _h
    simp only [List.length_cons]; omega
  · simp

end Carousel.Json
