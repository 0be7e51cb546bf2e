import Carousel.Config
import Carousel.Json.Skip

/-! # Reading a configuration

`Config.ofJson` reads the JSON text of a configuration: an object, whose member `capacity` counts
and whose other members may be anything, or an array with the capacity as its only element. A
missing capacity is the default one, and a second member `capacity` does not fit. The first flaw
of the text, read from the front, is the one reported.
-/

namespace Carousel.Config

open Json

/-- The flaw of a value of another kind than is wanted: its form is looked at as far as it can be
told from the others. -/
def mismatch (text : List Char) : Flaw :=
  let unlessFlawed {β : Type} (e : Except Flaw β) : Flaw :=
    match e with
    | .error flaw => flaw
    | .ok _ => .unfit
  match text with
  | [] => .malformed
  | c :: rest =>
    if c = 'n' then unlessFlawed (keyword "ull".toList rest)
    else if c = 't' then unlessFlawed (keyword "rue".toList rest)
    else if c = 'f' then unlessFlawed (keyword "alse".toList rest)
    else if c = '-' then unlessFlawed (readNumber true rest)
    else if c.isDigit then unlessFlawed (readNumber false (c :: rest))
    else if c = '"' then unlessFlawed (readText rest)
    else if c = '[' ∨ c = '{' then .unfit
    else .malformed

/-- Reads a capacity. -/
def readCapacity (text : List Char) : Scan UInt64 :=
  match skipBlank text with
  | [] => .error .truncated
  | c :: rest =>
    if c.isDigit then
      match readNumber false (c :: rest) with
      | .error flaw => .error flaw
      | .ok (some n, rest) => .ok (n.toUInt64, rest)
      | .ok (none, _) => .error .unfit
    else .error (mismatch (c :: rest))

/-- Reads a key and the value behind it; `found` is the capacity read before. -/
def readMember (found : Option UInt64) (text : List Char) : Scan (Option UInt64) :=
  match readText text with
  | .error flaw => .error flaw
  | .ok (key, rest) =>
    if key = "capacity".toList then
      if found.isSome then .error .unfit
      else ((expect ':' rest).bind readCapacity).map fun (n, rest) => (some n, rest)
    else ((expect ':' rest).bind skipValue).map fun rest => (found, rest)

/-- Reads the members of an object behind the first one, up to the closing bracket. -/
def readMembers (limit : Nat) (found : Option UInt64) (text : List Char) : Scan (Option UInt64) :=
  match limit with
  | 0 => .error .truncated
  | limit + 1 =>
    match skipBlank text with
    | [] => .error .truncated
    | '}' :: rest => .ok (found, rest)
    | ',' :: rest =>
      match (expect '"' rest).bind (readMember found) with
      | .error flaw => .error flaw
      | .ok (found, rest) => readMembers limit found rest
    | _ => .error .malformed

/-- Reads an object behind its opening bracket. -/
def readObject (text : List Char) : Scan (Option UInt64) :=
  match skipBlank text with
  | [] => .error .truncated
  | '}' :: rest => .ok (none, rest)
  | '"' :: rest =>
    match readMember none rest with
    | .error flaw => .error flaw
    | .ok (found, rest) => readMembers (rest.length + 1) found rest
  | _ => .error .malformed

/-- Reads an array behind its opening bracket. -/
def readArray (text : List Char) : Scan (Option UInt64) :=
  match skipBlank text with
  | [] => .error .truncated
  | ']' :: rest => .ok (none, rest)
  | c :: rest =>
    match readCapacity (c :: rest) with
    | .error flaw => .error flaw
    | .ok (n, rest) => (expect ']' rest).map fun rest => (some n, rest)

/-- Reads a configuration of either form. -/
def readBody (text : List Char) : Scan (Option UInt64) :=
  match skipBlank text with
  | [] => .error .truncated
  | '{' :: rest => readObject rest
  | '[' :: rest => readArray rest
  | other => .error (mismatch other)

/-- Reads a configuration; nothing but blanks may follow it. -/
def ofJson (text : String) : Except Flaw Config :=
  match readBody text.toList with
  | .error flaw => .error flaw
  | .ok (found, rest) =>
    if (skipBlank rest).isEmpty then .ok ((found.map Config.mk).getD default)
    else .error .malformed

end Carousel.Config
