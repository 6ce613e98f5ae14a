import ServletContainer.Session.Config
import ServletContainer.Session.Identifier
import ServletContainer.Table

namespace ServletContainer

/-!
# Session stores

The sessions of one application, by id. Times are milliseconds of a clock that the caller reads. A session
that has been idle for longer than its limit is as good as gone: the first operation that meets it removes it.

* `SessionStore.find`, `SessionStore.create`, `SessionStore.changeId`, `SessionStore.invalidate` — the life of a
  session; new ids are drawn from a supply of random blocks.
* `SessionStore.access` — what every handle operation starts with; `SessionStore.read` and `SessionStore.change`
  go on from there.
* `SessionStore.expireIdle` — removes what has run out.
-/

/-- A session. -/
structure Session where
  created : Nat
  lastAccessed : Nat
  /-- The idle limit, if there is one. -/
  maxInactive : Option Nat
  attributes : Table String Value
  /-- Whether no request has come with its id yet. -/
  isNew : Bool

namespace Session

/-- A session that starts now. -/
def start (now : Nat) (maxInactive : Option Nat) : Session := ⟨now, now, maxInactive, .empty, true⟩

/-- Whether the session has been idle for longer than its limit. -/
def isExpired (now : Nat) (s : Session) : Bool :=
  match s.maxInactive with
  | none => false
  | some limit => limit < now - s.lastAccessed

/-- The session after a request came with its id. -/
def touched (now : Nat) (s : Session) : Session := { s with lastAccessed := now, isNew := false }

end Session

/-- The sessions of an application. -/
structure SessionStore where
  config : SessionConfig
  sessions : Table SessionId Session

namespace SessionStore

/-- A store without sessions. -/
def empty (config : SessionConfig) : SessionStore := ⟨config, .empty⟩

instance : Inhabited SessionStore := ⟨empty .standard⟩

/-- The number of sessions held, those that have run out included. -/
def size (s : SessionStore) : Nat := s.sessions.size

/-- Whether no session is held. -/
def isEmpty (s : SessionStore) : Bool := s.sessions.isEmpty

/-! ### Looking sessions up -/

/-- The live session of an id; one that has run out is removed. -/
def access (now : Nat) (id : SessionId) (s : SessionStore) : Option Session × SessionStore :=
  match s.sessions.get? id with
  | none => (none, s)
  | some session =>
    if session.isExpired now then (none, { s with sessions := s.sessions.erase id }) else (some session, s)

/-- Reads something off the live session of an id, or off its absence. -/
def read {α : Type} (now : Nat) (id : SessionId) (f : Option Session → α) (s : SessionStore) : α × SessionStore :=
  let (session, s) := s.access now id
  (f session, s)

/-- Changes the live session of an id; reports whether there is one. -/
def change (now : Nat) (id : SessionId) (f : Session → Session) (s : SessionStore) : Bool × SessionStore :=
  match s.access now id with
  | (none, s) => (false, s)
  | (some _, s) => (true, { s with sessions := s.sessions.adjust id f })

/-- Looks a session up for a request that came with its id. -/
def find (now : Nat) (id : SessionId) (s : SessionStore) : Bool × SessionStore :=
  s.change now id (Session.touched now)

/-- Whether an id has a live session, which is not touched. -/
def contains (now : Nat) (id : SessionId) (s : SessionStore) : Bool × SessionStore :=
  s.read now id Option.isSome

/-! ### Ids -/

/-- The first id of the supply that no session has, and the rest of the supply. -/
def freshId? (s : SessionStore) : List Block → Option (SessionId × List Block)
  | [] => none
  | b :: supply => if s.sessions.contains b.id then s.freshId? supply else some (b.id, supply)

/-- Puts a session under a fresh id; none if the supply runs dry. -/
def insertFresh? (session : Session) (supply : List Block) (s : SessionStore) :
    Option (SessionId × List Block × SessionStore) :=
  (s.freshId? supply).map fun (id, rest) => (id, rest, { s with sessions := s.sessions.insert id session })

/-- Starts a session. -/
def create? (now : Nat) (supply : List Block) (s : SessionStore) :
    Option (SessionId × List Block × SessionStore) :=
  s.insertFresh? (Session.start now s.config.timeoutMillis?) supply

/-- Moves the live session of an id to a fresh one, which is given; the old id is free afterwards. -/
def changeId? (now : Nat) (id : SessionId) (supply : List Block) (s : SessionStore) :
    Option (Option SessionId × List Block × SessionStore) :=
  match s.sessions.get? id with
  | none => some (none, supply, s)
  | some session =>
    let s := { s with sessions := s.sessions.erase id }
    if session.isExpired now then some (none, supply, s)
    else (s.insertFresh? session supply).map fun (new, rest, s) => (some new, rest, s)

/-! ### Ending sessions -/

/-- Removes the session of an id, also one that has run out; reports whether there was one. -/
def invalidate (id : SessionId) (s : SessionStore) : Bool × SessionStore :=
  (s.sessions.contains id, { s with sessions := s.sessions.erase id })

/-- Removes every session. -/
def invalidateAll (s : SessionStore) : SessionStore := { s with sessions := .empty }

/-- Removes the sessions that have run out; gives their number. -/
def expireIdle (now : Nat) (s : SessionStore) : Nat × SessionStore :=
  let kept := s.sessions.filter fun _ session => !session.isExpired now
  (s.sessions.size - kept.size, { s with sessions := kept })

/-! ### Handles

A handle is the id of a session. Each of its operations looks the session up again. -/

/-- What a handle tells about its session. -/
structure HandleState where
  id : SessionId
  isNew : Bool
  isValid : Bool
  deriving DecidableEq, Repr

/-- The state of a handle. -/
def handleState (now : Nat) (id : SessionId) (s : SessionStore) : HandleState × SessionStore :=
  s.read now id fun
    | none => ⟨id, false, false⟩
    | some x => ⟨id, x.isNew, true⟩

/-- When the session was started. -/
def createdAt (now : Nat) (id : SessionId) (s : SessionStore) : Option Nat × SessionStore :=
  s.read now id fun session => session.map Session.created

/-- When a request last came with the id. -/
def lastAccessedAt (now : Nat) (id : SessionId) (s : SessionStore) : Option Nat × SessionStore :=
  s.read now id fun session => session.map Session.lastAccessed

/-- The idle limit of the session, if there is one. -/
def maxInactive (now : Nat) (id : SessionId) (s : SessionStore) : Option Nat × SessionStore :=
  s.read now id fun session => session.bind Session.maxInactive

/-- An attribute of the session. -/
def getAttribute (now : Nat) (id : SessionId) (name : String) (s : SessionStore) :
    Option Value × SessionStore :=
  s.read now id fun session => session.bind fun x => x.attributes.get? name

/-- Sets an attribute; reports whether there is a live session. -/
def setAttribute (now : Nat) (id : SessionId) (name : String) (v : Value) (s : SessionStore) :
    Bool × SessionStore :=
  s.change now id fun x => { x with attributes := x.attributes.insert name v }

/-- Removes an attribute and gives its value. -/
def removeAttribute (now : Nat) (id : SessionId) (name : String) (s : SessionStore) :
    Option Value × SessionStore :=
  let (value, s) := s.getAttribute now id name
  (value, (s.change now id fun x => { x with attributes := x.attributes.erase name }).2)

/-- The names of the attributes. -/
def attributeNames (now : Nat) (id : SessionId) (s : SessionStore) : List String × SessionStore :=
  s.read now id fun session => (session.map fun x => x.attributes.keys).getD []

/-- Sets the idle limit; none lifts it. -/
def setMaxInactive (now : Nat) (id : SessionId) (limit : Option Nat) (s : SessionStore) : SessionStore :=
  (s.change now id fun x => { x with maxInactive := limit }).2

end SessionStore

end ServletContainer
