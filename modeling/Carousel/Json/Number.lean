import Carousel.Json.Scan

/-! # Numbers in JSON text

`readNumber` reads a number where an unsigned 64-bit number is wanted: it gives the number, or
`none` for one that is well formed but is negative, too large, or has a fraction or an exponent.
A number of the latter kinds is held as a significand of 64 bits and a power of ten, and is
malformed if its nearest double is infinite (`exceedsDouble`).

`skipNumber` only checks the form.
-/

namespace Carousel.Json

/-- Value of a digit. -/
def digitValue (c : Char) : Nat := c.toNat - '0'.toNat

/-- The largest number of 64 bits. -/
def maxWord : Nat := UInt64.size - 1

/-- Appends digits to a number as long as it keeps to 64 bits, and gives the digits left over. -/
def absorb : Nat → List Char → Nat × List Char
  | n, [] => (n, [])
  | n, c :: digits =>
    if n * 10 + digitValue c ≤ maxWord then absorb (n * 10 + digitValue c) digits
    else (n, c :: digits)

/-- The nearest number of 53 significant bits, of two equally near ones the even one. -/
def roundSignificand (n : Nat) : Nat :=
  let unit := Nat.pow 2 (n.log2 - 52)
  let quotient := n / unit
  let twice := 2 * (n % unit)
  if unit < twice ∨ (twice = unit ∧ quotient % 2 = 1) then (quotient + 1) * unit
  else quotient * unit

/-- Whether a significand times a power of ten has an infinite double as its value. Both factors
and the product are rounded. -/
def exceedsDouble (significand : Nat) (exponent : Int) : Bool :=
  if significand = 0 ∨ exponent < 0 then false
  else if 308 < exponent then true
  else
    Nat.pow 2 1024 - Nat.pow 2 970 ≤
      roundSignificand significand * roundSignificand (Nat.pow 10 exponent.toNat)

/-- End of a number with a fraction or an exponent. -/
def endOfReal (significand : Nat) (exponent : Int) (rest : List Char) : Scan (Option Nat) :=
  if exceedsDouble significand exponent then .error .malformed else .ok (none, rest)

/-- Reads an exponent behind its letter. -/
def readExponent (significand : Nat) (exponent : Int) (text : List Char) : Scan (Option Nat) :=
  let (negative, text) :=
    match text with
    | '+' :: rest => (false, rest)
    | '-' :: rest => (true, rest)
    | _ => (false, text)
  match text with
  | [] => .error .truncated
  | c :: _ =>
    if c.isDigit then
      let n := (text.takeWhile Char.isDigit).foldl (fun n c => n * 10 + digitValue c) 0
      endOfReal significand (if negative then exponent - n else exponent + n)
        (text.dropWhile Char.isDigit)
    else .error .malformed

/-- Reads an exponent if one follows. -/
def readOptionalExponent (significand : Nat) (exponent : Int) (text : List Char) :
    Scan (Option Nat) :=
  match text with
  | 'e' :: rest => readExponent significand exponent rest
  | 'E' :: rest => readExponent significand exponent rest
  | _ => endOfReal significand exponent text

/-- Reads a fraction behind its point. -/
def readFraction (significand : Nat) (exponent : Int) (text : List Char) : Scan (Option Nat) :=
  let digits := text.takeWhile Char.isDigit
  let rest := text.dropWhile Char.isDigit
  if digits.isEmpty then .error (if rest.isEmpty then .truncated else .malformed)
  else
    let (significand, left) := absorb significand digits
    readOptionalExponent significand (exponent - (digits.length - left.length : Nat)) rest

/-- Reads a number behind its sign. -/
def readNumber (negative : Bool) (text : List Char) : Scan (Option Nat) :=
  let digits := text.takeWhile Char.isDigit
  let rest := text.dropWhile Char.isDigit
  match digits with
  | [] => .error (if rest.isEmpty then .truncated else .malformed)
  | '0' :: _ :: _ => .error .malformed
  | _ =>
    let (n, left) := absorb 0 digits
    match rest with
    | '.' :: rest => readFraction n left.length rest
    | 'e' :: rest => readExponent n left.length rest
    | 'E' :: rest => readExponent n left.length rest
    | _ =>
      if left.isEmpty then .ok (if negative then none else some n, rest)
      else endOfReal n left.length rest

/-! ### Skipping -/

/-- Skips at least one digit. -/
def skipDigits (text : List Char) : Except Flaw (List Char) :=
  if (text.takeWhile Char.isDigit).isEmpty then .error .malformed
  else .ok (text.dropWhile Char.isDigit)

/-- Skips an exponent if one follows. -/
def skipExponent (text : List Char) : Except Flaw (List Char) :=
  match text with
  | 'e' :: '+' :: rest => skipDigits rest
  | 'e' :: '-' :: rest => skipDigits rest
  | 'e' :: rest => skipDigits rest
  | 'E' :: '+' :: rest => skipDigits rest
  | 'E' :: '-' :: rest => skipDigits rest
  | 'E' :: rest => skipDigits rest
  | _ => .ok text

/-- Skips a number behind its sign. -/
def skipNumber (text : List Char) : Except Flaw (List Char) :=
  match text.takeWhile Char.isDigit with
  | [] => .error .malformed
  | '0' :: _ :: _ => .error .malformed
  | _ =>
    match text.dropWhile Char.isDigit with
    | '.' :: rest => (skipDigits rest).bind skipExponent
    | rest => skipExponent rest

end Carousel.Json
