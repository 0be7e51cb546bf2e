import Carousel.Json.Number

/-! # Skipping a JSON value

`skipValue` checks the form of one value of any kind and gives the rest of the text. It keeps the
open arrays and objects on a stack, so nesting may be as deep as the text is long.
-/

namespace Carousel.Json

/-- An array or object that is still open. -/
inductive Frame where
  | array
  | object
deriving DecidableEq, Repr

/-- The character that closes a frame. -/
def Frame.close : Frame → Char
  | array => ']'
  | object => '}'

/-- Skips the key of a member and its colon. -/
def skipKey (text : List Char) : Except Flaw (List Char) :=
  ((expect '"' text).bind skipText).bind (expect ':')

/-- Skips what stands in front of the next value of a frame. -/
def Frame.skipToValue : Frame → List Char → Except Flaw (List Char)
  | array, text => .ok text
  | object, text => skipKey text

/-- Skips a value that is neither array nor object, given its first character. -/
def skipScalar (c : Char) (rest : List Char) : Except Flaw (List Char) :=
  if c = 'n' then keyword "ull".toList rest
  else if c = 't' then keyword "rue".toList rest
  else if c = 'f' then keyword "alse".toList rest
  else if c = '-' then skipNumber rest
  else if c.isDigit then skipNumber (c :: rest)
  else if c = '"' then skipText rest
  else .error .malformed

mutual

/-- Skips a value and all that the open frames still ask for; `limit` is at least the length of
the text. -/
def skipNested (limit : Nat) (stack : List Frame) (text : List Char) : Except Flaw (List Char) :=
  match limit with
  | 0 => .error .truncated
  | limit + 1 =>
    match skipBlank text with
    | [] => .error .truncated
    | '[' :: rest => skipOpened limit .array stack rest
    | '{' :: rest => skipOpened limit .object stack rest
    | c :: rest =>
      match skipScalar c rest with
      | .error flaw => .error flaw
      | .ok rest => skipAfter limit stack rest

/-- Goes on behind the bracket that opens a frame. -/
def skipOpened (limit : Nat) (frame : Frame) (stack : List Frame) (text : List Char) :
    Except Flaw (List Char) :=
  match limit with
  | 0 => .error .truncated
  | limit + 1 =>
    match skipBlank text with
    | [] => .error .truncated
    | c :: rest =>
      if c = frame.close then skipAfter limit stack rest
      else
        match frame.skipToValue (c :: rest) with
        | .error flaw => .error flaw
        | .ok rest => skipNested limit (frame :: stack) rest

/-- Goes on behind a value. -/
def skipAfter (limit : Nat) (stack : List Frame) (text : List Char) : Except Flaw (List Char) :=
  match stack with
  | [] => .ok text
  | frame :: stack =>
    match limit with
    | 0 => .error .truncated
    | limit + 1 =>
      match skipBlank text with
      | [] => .error .truncated
      | c :: rest =>
        if c = frame.close then skipAfter limit stack rest
        else if c = ',' then
          match frame.skipToValue rest with
          | .error flaw => .error flaw
          | .ok rest => skipNested limit (frame :: stack) rest
        else .error .malformed

end

/-- Skips one value. -/
def skipValue (text : List Char) : Except Flaw (List Char) :=
  skipNested (2 * text.length + 2) [] text

end Carousel.Json
