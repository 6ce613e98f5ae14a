import ServletContainer.Application.Basic
import ServletContainer.Text.Numeral

namespace ServletContainer

/-!
# Scripted components

A small language for the code of filters and servlets: a list of actions, carried out in order. An action that
fails ends the list, and its failure is that of the component.

* `Action` — the actions.
* `Condition` — what an action can depend on.
* `Script.program` — the program of a list of actions.
-/

/-- The failure of reading a text as an unsigned 32-bit number, which is wrong in itself if it can be read. -/
def ServletError.ofNumeral (text : String) : ServletError :=
  match Text.readNumeral Text.max32 text.toList with
  | .ok _ => .illegalState "number parsed"
  | .error e => .failure ServletError.numeralKind e.message

/-! ### Conditions -/

/-- What an action depends on. A part that is left out does not count; one that is given without a text asks for
the absence of that part of the exchange. -/
structure Condition where
  dispatcher : Option (Option String)
  method : Option (Option String)
  pathInfo : Option (Option String)
  query : Option (Option String)
  /-- The name of an attribute that is set. -/
  hasAttribute : Option String
  /-- A role that the caller holds. -/
  role : Option String
  deriving DecidableEq, Repr

namespace Condition

/-- Whether a part of an exchange is as asked for. -/
def agrees (asked : Option (Option String)) (actual : Option String) : Bool :=
  match asked with
  | none => true
  | some wanted => wanted == actual

/-- Whether a condition holds. -/
def holds (c : Condition) (v : Snapshot) : Bool :=
  agrees c.dispatcher (some v.dispatcher.label)
    && agrees c.method (v.request.head.method.map Method.token)
    && agrees c.pathInfo v.request.pathInfo
    && agrees c.query v.request.query
    && (match c.hasAttribute with
      | none => true
      | some name => (v.request.attribute? name).isSome)
    && (match c.role with
      | none => true
      | some role => v.request.isUserInRole role)

end Condition

/-! ### Actions -/

/-- An action. -/
inductive Action where
  | see (tag : String)
  | write (data : Bytes)
  | setStatus (code : Nat)
  | setStatusWithReason (code : Nat) (reason : String)
  | addHeader (name value : String)
  | setHeader (name value : String)
  | writeHeaders
  | flush
  | close
  | stream (data : Bytes)
  | reset
  | redirect (location : String)
  | jump (j : Jump) (path : String)
  | fail (e : ServletError)
  | setAttribute (name : String) (v : Value)
  | removeAttribute (name : String)
  | requestHeader (name : String)
  | setRequestHeader (name value : String)
  | readBody (limit : Nat)
  | async (c : Continuation)
  | session (create : Bool)
  | sessionSet (name : String) (v : Value) (create : Bool)
  | sessionGet (name : String)
  | sessionCount
  | sessionInvalidate
  | changeSessionId
  | sessionValid
  /-- Tells a URL with the session id added, under a label. -/
  | encodeUrl (label url : String)
  | writeEncoded (url : String)
  | chain
  | attempt (body : List Action)
  | choose (c : Condition) (yes no : List Action)
  deriving Inhabited

namespace Script

/-- A text, or null. -/
def textOrNull : Option String → Value
  | some s => .text s
  | none => .null

/-- Tells a value and goes on. -/
def tell (label : String) (v : Value) (k : Outcome → Program) : Program :=
  .note (.told label v) (k (.ok ()))

/-- A call that may fail to read or write. -/
def attemptIo (op : Op) (reply : op.Reply → Except IoError Unit) (k : Outcome → Program) : Program :=
  .call op fun r =>
    match reply r with
    | .ok () => k (.ok ())
    | .error e => k (.error (.io e))

/-- Runs code with the session of the exchange, if there is one. -/
def withSession (create : Bool) (absent : Program) (k : SessionId → Program) : Program :=
  .call (.session create) fun
    | none => absent
    | some id => k id

/-- Counts a visit in the session, and writes the count. -/
def countVisit (k : Outcome → Program) : Program :=
  withSession true (k (.ok ())) fun id =>
    .call (.sessionAttribute id "count") fun before =>
      let n := Value.count before + 1
      .call (.setSessionAttribute id "count" (.int n)) fun _ => .write (Text.Utf8.encode (toString n)) k

/-- The program of an action other than those that hold lists of actions, and how to go on after it. -/
def simple (a : Action) (k : Outcome → Program) : Program :=
  match a with
  | .see tag => .observe fun v => .note (.saw tag v) (k (.ok ()))
  | .write data => .write data k
  | .setStatus code => .perform (.setStatus code) (k (.ok ()))
  | .setStatusWithReason code reason => .perform (.setStatusWithReason code reason) (k (.ok ()))
  | .addHeader name value => .perform (.addHeader name value) (k (.ok ()))
  | .setHeader name value => .perform (.setHeader name value) (k (.ok ()))
  | .writeHeaders => .perform .writeHeaders (k (.ok ()))
  | .flush => attemptIo .flush id k
  | .close => attemptIo .close id k
  | .stream data => attemptIo (.stream data) id k
  | .reset => .call .resetBuffer k
  | .redirect location => .call (.sendRedirect location) k
  | .jump j path => .jump j path k
  | .fail e => k (.error e)
  | .setAttribute name v => .perform (.setAttribute name v) (k (.ok ()))
  | .removeAttribute name => .call (.removeAttribute name) fun old => tell "remove_attr" (old.getD .null) k
  | .requestHeader name =>
    .observe fun v => tell "request_header" (textOrNull (v.request.head.headers.joined? name)) k
  | .setRequestHeader name value => .perform (.setRequestHeader name value) (k (.ok ()))
  | .readBody limit =>
    .call (.readBody limit) fun result =>
      .note (.body result) (match result with
        | .ok _ => k (.ok ())
        | .error e => k (.error (.io e)))
  | .async c => .call (.startAsync c) k
  | .session create =>
    withSession create (.note (.session none) (k (.ok ()))) fun id =>
      .call (.handleState id) fun state => .note (.session (some state)) (k (.ok ()))
  | .sessionSet name v create =>
    withSession create (k (.ok ())) fun id =>
      .call (.setSessionAttribute id name v) fun kept => tell "session_set" (.bool kept) k
  | .sessionGet name =>
    withSession false (tell "session_get" .null k) fun id =>
      .call (.sessionAttribute id name) fun v => tell "session_get" (v.getD .null) k
  | .sessionCount => countVisit k
  | .sessionInvalidate =>
    withSession false (tell "session_invalidate" .null k) fun id =>
      .call (.invalidateSession id) fun gone => tell "session_invalidate" (.bool gone) k
  | .changeSessionId =>
    .call .changeSessionId fun
      | .ok id => tell "change_session_id" (.text id) k
      | .error e => k (.error e)
  | .sessionValid => .call .requestedSessionIsValid fun valid => tell "session_valid" (.bool valid) k
  | .encodeUrl label url => .call (.encodeUrl url) fun encoded => tell label (.text encoded) k
  | .writeEncoded url => .call (.encodeUrl url) fun encoded => .write (Text.Utf8.encode encoded) k
  | .chain =>
    .remaining fun
      | none => .note .noChain (k (.ok ()))
      | some n => .note (.chain n) (.proceed fun result => k (result.getD (.ok ())))
  | .attempt _ => k (.ok ())
  | .choose _ _ _ => k (.ok ())

mutual

/-- The program of an action, and how to go on after it. -/
def compile : Action → (Outcome → Program) → Program
  | .attempt body, k => compileAll body fun result => .note (.tried result) (k (.ok ()))
  | .choose c yes no, k => .observe fun v => if c.holds v then compileAll yes k else compileAll no k
  | a, k => simple a k

/-- The program of actions in order, and how to go on after the last one or the first that fails. -/
def compileAll : List Action → (Outcome → Program) → Program
  | [], k => k (.ok ())
  | a :: r, k => compile a fun
    | .ok () => compileAll r k
    | .error e => k (.error e)

end

/-- The program of a script. -/
def program (actions : List Action) : Program := compileAll actions .done

/-- A component whose code is a script, and which fails to initialize always or never. -/
def component (actions : List Action) (initFailure : Option ServletError) (notesLifecycle : Bool) :
    Component := ⟨program actions, fun _ => initFailure, notesLifecycle⟩

end Script

end ServletContainer
