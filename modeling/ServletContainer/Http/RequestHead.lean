import ServletContainer.Failure
import ServletContainer.Http.Headers
import ServletContainer.Http.Method
import ServletContainer.Text.Blank
import ServletContainer.Text.Quoted
import ServletContainer.Text.Split
import ServletContainer.Text.Utf8

namespace ServletContainer

/-!
# Request heads

The request line and the header fields, read byte by byte from what a peer sends.

* `Source` — the input that is still unread, and how it ends.
* `readLine` — one line: line feeds end it, carriage returns do not count.
* `readHead` — the head, and the input left behind it; what follows the blank line is not touched.
-/

/-- A sequence of bytes. -/
abbrev Bytes := List UInt8

/-! ### Input -/

/-- What follows the last byte of an input. -/
inductive Ending where
  /-- The peer ends its side. -/
  | closed
  /-- Reading on fails. -/
  | failed
  /-- The peer sends nothing more and keeps its side open. -/
  | silent
  deriving DecidableEq, Repr

/-- The unread rest of an input. -/
structure Source where
  unread : Bytes
  ending : Ending
  deriving DecidableEq, Repr

namespace Source

/-- Takes the next `n` bytes; where there are not so many, all are taken and the reading fails. -/
def take (n : Nat) (s : Source) : Except IoError Bytes × Source :=
  if n ≤ s.unread.length then (.ok (s.unread.take n), { s with unread := s.unread.drop n })
  else (.error (if s.ending = .failed then .sourceFailed else .earlyEnd), { s with unread := [] })

/-- Everything up to the end of the input. -/
def drain (s : Source) : Except IoError Bytes :=
  if s.ending = .failed then .error .sourceFailed else .ok s.unread

end Source

/-! ### Lines -/

/-- What reading a line finds. -/
inductive LineRead where
  /-- A line that a line feed ends, and the bytes after it. -/
  | line (text rest : Bytes)
  /-- A byte more than the line may hold; the bytes after it. -/
  | overflow (rest : Bytes)
  /-- The input ends within the line. -/
  | ended (text : Bytes)
  deriving DecidableEq, Repr

/-- Puts a byte in front of the line. -/
def LineRead.cons (b : UInt8) : LineRead → LineRead
  | .line text rest => .line (b :: text) rest
  | .overflow rest => .overflow rest
  | .ended text => .ended (b :: text)

/-- Reads a line of at most `room` bytes, carriage returns not counted. -/
def readLine : Nat → Bytes → LineRead
  | _, [] => .ended []
  | room, b :: r =>
    if b = 10 then .line [] r
    else if b = 13 then readLine room r
    else match room with
      | 0 => .overflow r
      | room + 1 => (readLine room r).cons b

theorem length_rest_lt {room : Nat} {bs text rest : Bytes} (h : readLine room bs = .line text rest) :
    rest.length < bs.length := by
  induction bs generalizing room text rest with
  | nil => simp [readLine] at h
  | cons b r ih =>
    unfold readLine at h
    split at h
    · simp only [LineRead.line.injEq] at h
      simp [← h.2]
    · split at h
      · have := ih h
        simp only [List.length_cons]
        omega
      · split at h
        · simp at h
        · next n =>
          cases hr : readLine n r with
          | line t s =>
            rw [hr] at h
            simp only [LineRead.cons, LineRead.line.injEq] at h
            have := ih hr
            simp only [List.length_cons, ← h.2]
            omega
          | overflow s => simp [hr, LineRead.cons] at h
          | ended t => simp [hr, LineRead.cons] at h

/-! ### Heads -/

/-- A request line and the header fields. The method is absent where the request line was empty or garbled. -/
structure RequestHead where
  method : Option Method
  target : String
  protocol : String
  headers : Headers
  deriving DecidableEq, Repr

/-- The head of an input without a request line. -/
def RequestHead.blank : RequestHead := ⟨none, "", "", .empty⟩

instance : Inhabited RequestHead := ⟨.blank⟩

/-- Why a head could not be read. -/
inductive HeadError where
  | lineTooLong (limit : Nat)
  | invalidHeader (line : String)
  | io (e : IoError)
  /-- The peer went silent before the head was complete. -/
  | stalled
  deriving DecidableEq, Repr

/-- The text of the error. -/
def HeadError.message : HeadError → String
  | .lineTooLong limit => "request line or header exceeds " ++ toString limit ++ " bytes"
  | .invalidHeader line => "malformed header line: " ++ Text.quote line
  | .io e => e.report
  | .stalled => "timed out waiting for the request head"

/-- Reads a request line: well-formed UTF-8, three words, the first a token and the last a protocol. -/
def parseRequestLine? (line : Bytes) : Option (Method × String × String) := do
  let text ← Text.Utf8.decode? line
  match Text.words text with
  | [method, target, protocol] =>
    if isToken method && Text.startsWith "HTTP/" protocol then
      some (Method.ofToken method, target, protocol)
    else none
  | _ => none

/-- Reads a header line: a name that is a token, a colon, and a value; blanks around both do not count. -/
def parseField (line : Bytes) : Except HeadError HeaderField :=
  let text := Text.Utf8.decodeLossy line
  match Text.cut ':' text with
  | none => .error (.invalidHeader text)
  | some (name, value) =>
    if isToken (Text.trim name) then .ok ⟨Text.trim name, Text.trim value⟩
    else .error (.invalidHeader text)

/-- What an input that ends within a line means: the value, if the peer ended its side. -/
def atEnd {α : Type} (ending : Ending) (value : Except HeadError α) : Except HeadError α :=
  match ending with
  | .closed => value
  | .failed => .error (.io .sourceFailed)
  | .silent => .error .stalled

/-- Reads header fields after those of `got`, up to the first empty line or the end of the input. -/
def readFields (limit : Nat) (ending : Ending) (got : Headers) (bs : Bytes) :
    Except HeadError Headers × Bytes :=
  match h : readLine limit bs with
  | .overflow rest => (.error (.lineTooLong limit), rest)
  | .ended text =>
    (atEnd ending
      (if text.isEmpty then .ok got
       else (parseField text).map fun f => got.append f.name f.value), [])
  | .line text rest =>
    if text.isEmpty then (.ok got, rest)
    else match parseField text with
      | .error e => (.error e, rest)
      | .ok f =>
        have := length_rest_lt h
        readFields limit ending (got.append f.name f.value) rest
termination_by bs.length

/-- Reads the rest of a head whose first line has been read. -/
def readAfterLine (limit : Nat) (ending : Ending) (line rest : Bytes) :
    Except HeadError RequestHead × Bytes :=
  match parseRequestLine? line with
  | none => (.ok .blank, rest)
  | some (method, target, protocol) =>
    let (fields, rest) := readFields limit ending .empty rest
    (fields.map fun headers => ⟨some method, target, protocol, headers⟩, rest)

/-- Reads a head with lines of at most `limit` bytes, and gives the bytes left unread. -/
def readHeadBytes (limit : Nat) (ending : Ending) (bs : Bytes) : Except HeadError RequestHead × Bytes :=
  match readLine limit bs with
  | .overflow rest => (.error (.lineTooLong limit), rest)
  | .line text rest => readAfterLine limit ending text rest
  | .ended text =>
    match ending with
    | .closed => if text.isEmpty then (.ok .blank, []) else readAfterLine limit ending text []
    | .failed => (.error (.io .sourceFailed), [])
    | .silent => (.error .stalled, [])

/-- Reads a head from an input. -/
def readHead (limit : Nat) (s : Source) : Except HeadError RequestHead × Source :=
  let (head, rest) := readHeadBytes limit s.ending s.unread
  (head, { s with unread := rest })

/-- The line limit where none is given. -/
def defaultLineLimit : Nat := 8192

end ServletContainer
