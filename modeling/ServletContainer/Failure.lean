namespace ServletContainer

/-!
# Failures

* `IoError` — why reading or writing failed, with its kind and text.
* `ServletError` — what a filter or servlet may fail with: a status to answer, a tagged failure, an illegal
  state, or a failed read or write.
-/

/-! ### Reading and writing -/

/-- The kinds of input and output failures. -/
inductive IoKind where
  | brokenPipe
  | unexpectedEof
  | invalidData
  | notConnected
  | connectionReset
  | notFound
  | invalidInput
  | invalidFilename
  | isADirectory
  | other
  deriving DecidableEq, Repr

/-- The name of a kind of failures. -/
def IoKind.label : IoKind → String
  | .brokenPipe => "BrokenPipe"
  | .unexpectedEof => "UnexpectedEof"
  | .invalidData => "InvalidData"
  | .notConnected => "NotConnected"
  | .connectionReset => "ConnectionReset"
  | .notFound => "NotFound"
  | .invalidInput => "InvalidInput"
  | .invalidFilename => "InvalidFilename"
  | .isADirectory => "IsADirectory"
  | .other => "Other"

/-- Why reading or writing failed. -/
inductive IoError where
  /-- A write to a closed response. -/
  | responseClosed
  /-- The direct stream of a response that has no peer or is closed. -/
  | noOpenStream
  /-- The body ended before its declared length. -/
  | earlyEnd
  /-- The declared body length exceeds what the reader accepts. -/
  | bodyTooLong (length limit : Nat)
  /-- The peer's end of the input broke. -/
  | sourceFailed
  /-- The peer's end of the output broke. -/
  | sinkFailed
  /-- The output could not be shut down. -/
  | shutdownFailed
  /-- There is no such file. -/
  | noSuchFile
  /-- A path holds a zero character, which no file has in its name. -/
  | zeroInFileName
  /-- A path, or a name in it, is too long. -/
  | fileNameTooLong
  /-- A path leads to a directory, which has no content. -/
  | isDirectory
  /-- A failure that an application reports in its own words. -/
  | reported (text : String)
  deriving DecidableEq, Repr

/-- The kind of a failure. -/
def IoError.kind : IoError → IoKind
  | .responseClosed => .brokenPipe
  | .noOpenStream => .notConnected
  | .earlyEnd => .unexpectedEof
  | .bodyTooLong _ _ => .invalidData
  | .sourceFailed => .connectionReset
  | .sinkFailed => .connectionReset
  | .shutdownFailed => .notConnected
  | .noSuchFile => .notFound
  | .zeroInFileName => .invalidInput
  | .fileNameTooLong => .invalidFilename
  | .isDirectory => .isADirectory
  | .reported _ => .other

/-- The text of a failure. -/
def IoError.message : IoError → String
  | .responseClosed => "response already closed"
  | .noOpenStream => "response has no open stream"
  | .earlyEnd => "early eof"
  | .bodyTooLong length limit => "request body of " ++ toString length ++ " bytes exceeds " ++ toString limit
  | .sourceFailed => "source failed"
  | .sinkFailed => "sink failed"
  | .shutdownFailed => "shutdown failed"
  | .noSuchFile => "No such file or directory (os error 2)"
  | .zeroInFileName => "file name contained an unexpected NUL byte"
  | .fileNameTooLong => "File name too long (os error 36)"
  | .isDirectory => "Is a directory (os error 21)"
  | .reported text => text

/-- The text of a failure in a message of its own. -/
def IoError.report (e : IoError) : String := "I/O error: " ++ e.message

/-! ### Filters and servlets -/

/-- What a filter or servlet fails with. -/
inductive ServletError where
  /-- The request is to be answered with this status. -/
  | status (code : Nat) (message : Option String)
  /-- A failure with a type tag, by which an error page can be declared. -/
  | failure (kind message : String)
  /-- A call that the state of the exchange does not allow. -/
  | illegalState (reason : String)
  /-- A read or write failed. -/
  | io (e : IoError)
  deriving DecidableEq, Repr

/-- The result of running a filter or a servlet. -/
abbrev Outcome := Except ServletError Unit

namespace ServletError

/-- The type tag of illegal states. -/
def illegalStateKind : String := "IllegalState"

/-- The type tag of failed reads and writes. -/
def ioKind : String := "core::io::error::Error"

/-- The type tag of a numeral that could not be read. -/
def numeralKind : String := "core::num::error::ParseIntError"

/-- The text of an error. -/
def text : ServletError → String
  | .status code none => toString code
  | .status code (some m) => toString code ++ ": " ++ m
  | .failure kind m => kind ++ ": " ++ m
  | .illegalState reason => "illegal state: " ++ reason
  | .io e => e.report

/-- The type tag by which an error page is chosen. -/
def kind? : ServletError → Option String
  | .status _ _ => none
  | .failure kind _ => some kind
  | .illegalState _ => some illegalStateKind
  | .io _ => some ioKind

/-- The status that answers the error if no error page does. -/
def statusCode : ServletError → Nat
  | .status code _ => code
  | _ => 500

/-- The details that an error page may show. -/
def detail? : ServletError → Option String
  | .status _ m => m
  | .failure _ m => some m
  | e => some e.text

/-- A status error without details. -/
def ofStatus (code : Nat) : ServletError := .status code none

/-- The response can no longer be started over. -/
def committed : ServletError := .illegalState "response already committed"

end ServletError

end ServletContainer
