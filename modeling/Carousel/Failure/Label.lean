import Carousel.Failure
import Carousel.Text.Outline

/-! # Names of failures

The names under which failures and kinds of byte-stream errors are reported, and the outlines of
those failures that wrap no other error.
-/

namespace Carousel

open Text

def IoKind.label : IoKind → String
  | notFound => "NotFound"
  | permissionDenied => "PermissionDenied"
  | connectionReset => "ConnectionReset"
  | brokenPipe => "BrokenPipe"
  | wouldBlock => "WouldBlock"
  | invalidInput => "InvalidInput"
  | invalidData => "InvalidData"
  | timedOut => "TimedOut"
  | writeZero => "WriteZero"
  | interrupted => "Interrupted"
  | unexpectedEof => "UnexpectedEof"
  | other => "Other"
  | named name _ => name

def Failure.label : Failure → String
  | .endOfData => "EndOfData"
  | .nothingToUnread => "InvalidCursorOperation"
  | .unknownAnchor _ => "InvalidWhence"
  | .negativePosition _ => "NegativePosition"
  | .countOutOfRange .. => "ItemCountOutOfRange"
  | .noProgress _ => "NoProgress"
  | .rejected _ => "FilterRejected"
  | .stream _ => "Stream"
  | .io _ => "Io"

/-- The outline of a failure that wraps no other error. -/
def Failure.outline? (f : Failure) : Option Outline :=
  match f with
  | .endOfData => some (.word f.label)
  | .nothingToUnread => some (.word f.label)
  | .unknownAnchor code => some (.tuple f.label [.ofInt code])
  | .negativePosition position => some (.record f.label ["position"] [.ofInt position] true)
  | .countOutOfRange count offered =>
    some (.record f.label ["count", "len"] [.ofNat count, .ofNat offered] true)
  | .noProgress attempts => some (.record f.label ["attempts"] [.ofNat attempts] true)
  | _ => none

/-- The name of any error; a plain text has none of its own. -/
def Cause.label : Cause → String
  | .text _ => "text"
  | .failure f => f.label
  | .io error => "io:" ++ error.kind.label

end Carousel
