/-! # Failures

The ways in which an operation fails, and the errors of the byte streams around a ring.

Three types refer to each other: a `Failure` of a ring operation may carry the `Cause` given
by a filter or a peer, or an `IoError`; an `IoError` may carry a `Cause` as its payload; a
`Cause` is a plain text or one of the other two.

Each has a `message` and a `source?`, the error behind it. A `Failure` that wraps another error
shows that error in its message and has it as its source. An `IoError` with a payload shows the
payload, but its source is the payload's own source, so the payload itself is skipped. `chain`
lists the successive sources.

`Failure.toIo` and `Failure.ofIo` cross between the two kinds of error.
-/

namespace Carousel

/-- Kind of a byte-stream error: those that a ring and the streams around it give, and any other
kind by its name and its text. -/
inductive IoKind where
  | notFound
  | permissionDenied
  | connectionReset
  | brokenPipe
  | wouldBlock
  | invalidInput
  | invalidData
  | timedOut
  | writeZero
  | interrupted
  | unexpectedEof
  | other
  | named (name text : String)
deriving DecidableEq, Repr

/-- Text of an error of which only the kind is known. -/
def IoKind.message : IoKind → String
  | notFound => "entity not found"
  | permissionDenied => "permission denied"
  | connectionReset => "connection reset"
  | brokenPipe => "broken pipe"
  | wouldBlock => "operation would block"
  | invalidInput => "invalid input parameter"
  | invalidData => "invalid data"
  | timedOut => "timed out"
  | writeZero => "write zero"
  | interrupted => "operation interrupted"
  | unexpectedEof => "unexpected end of file"
  | other => "other error"
  | named _ text => text

mutual

/-- Failure of an operation on a ring or a stage. -/
inductive Failure where
  /-- There is no more data; for transfers this is the ordinary end. -/
  | endOfData
  /-- The last operation consumed nothing that could be given back. -/
  | nothingToUnread
  /-- The number names no anchor of a seek. -/
  | unknownAnchor (code : Int)
  /-- The target of a seek lies before the start. -/
  | negativePosition (position : Int)
  /-- A peer reported `count` items of the `offered` it had. -/
  | countOutOfRange (count offered : Nat)
  /-- The producer answered `attempts` times in a row that it stored nothing. -/
  | noProgress (attempts : Nat)
  /-- The filter of a stage rejected a run. -/
  | rejected (cause : Cause)
  /-- A producer or consumer failed. -/
  | stream (cause : Cause)
  /-- A byte stream failed. -/
  | io (error : IoError)

/-- Error of a byte stream. -/
inductive IoError where
  /-- Only the kind is known. -/
  | bare (kind : IoKind)
  /-- A kind with a fixed remark. -/
  | note (kind : IoKind) (remark : String)
  /-- A kind with another error as payload. -/
  | custom (kind : IoKind) (payload : Cause)

/-- Any error, as a filter or a peer hands it over. -/
inductive Cause where
  | text (text : String)
  | failure (failure : Failure)
  | io (error : IoError)

end

/-! ### Messages -/

mutual

def Failure.message : Failure → String
  | .endOfData => "no more data"
  | .nothingToUnread => "invalid cursor operation: nothing to unread"
  | .unknownAnchor code => "invalid whence value: " ++ toString code
  | .negativePosition position => "negative seek position: " ++ toString position
  | .countOutOfRange count offered =>
    "item count out of range: reported " ++ toString count ++ ", offered " ++ toString offered
  | .noProgress attempts =>
    "producer made no progress after " ++ toString attempts ++ " consecutive empty reads"
  | .rejected cause => "filter rejected items: " ++ cause.message
  | .stream cause => "stream error: " ++ cause.message
  | .io error => "I/O error: " ++ error.message

def IoError.message : IoError → String
  | .bare kind => kind.message
  | .note _ remark => remark
  | .custom _ payload => payload.message

def Cause.message : Cause → String
  | .text text => text
  | .failure failure => failure.message
  | .io error => error.message

end

/-! ### Sources -/

mutual

/-- The error behind a failure. -/
def Failure.source? : Failure → Option Cause
  | .rejected cause => some cause
  | .stream cause => some cause
  | .io error => some (.io error)
  | _ => none

/-- The error behind a byte-stream error: that behind its payload. -/
def IoError.source? : IoError → Option Cause
  | .bare _ => none
  | .note .. => none
  | .custom _ payload => payload.source?

def Cause.source? : Cause → Option Cause
  | .text _ => none
  | .failure failure => failure.source?
  | .io error => error.source?

end

mutual

/-- The successive sources of a failure, outermost first. -/
def Failure.chain : Failure → List Cause
  | .rejected cause => cause :: cause.chain
  | .stream cause => cause :: cause.chain
  | .io error => .io error :: error.chain
  | _ => []

/-- The successive sources of a byte-stream error, outermost first. -/
def IoError.chain : IoError → List Cause
  | .bare _ => []
  | .note .. => []
  | .custom _ payload => payload.chain

/-- The successive sources of any error, outermost first. -/
def Cause.chain : Cause → List Cause
  | .text _ => []
  | .failure failure => failure.chain
  | .io error => error.chain

end

/-! ### Crossing between failures and byte-stream errors -/

def IoError.kind : IoError → IoKind
  | .bare kind => kind
  | .note kind _ => kind
  | .custom kind _ => kind

/-- Whether the error only asks for another attempt. -/
def IoError.isInterrupted (e : IoError) : Bool := e.kind = .interrupted

/-- The error handed over with a byte-stream error, if there is one. -/
def IoError.payload? : IoError → Option Cause
  | .custom _ payload => some payload
  | _ => none

namespace Failure

def isEndOfData : Failure → Bool
  | endOfData => true
  | _ => false

/-- The kind under which a failure appears as a byte-stream error. -/
def ioKind : Failure → IoKind
  | endOfData => .unexpectedEof
  | unknownAnchor _ => .invalidInput
  | negativePosition _ => .invalidInput
  | io error => error.kind
  | _ => .other

/-- A failure as a byte-stream error: a byte-stream error comes back as it was, any other
failure becomes the payload. -/
def toIo : Failure → IoError
  | io error => error
  | failure => .custom failure.ioKind (.failure failure)

/-- A byte-stream error as a failure. -/
def ofIo (error : IoError) : Failure := io error

end Failure

namespace Cause

/-- The failure that a peer reports when it fails with this cause. -/
def toFailure : Cause → Failure
  | failure f => f
  | io error => .io error
  | text s => .stream (.text s)

/-- The byte-stream error that a stream reports when it fails with this cause. -/
def toIo (c : Cause) : IoError := c.toFailure.toIo

end Cause

end Carousel
