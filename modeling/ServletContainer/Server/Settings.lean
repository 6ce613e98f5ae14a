import ServletContainer.Http.RequestHead
import ServletContainer.Server.Address
import ServletContainer.Server.Files
import ServletContainer.Text.Numeral
import ServletContainer.Toml.Document

namespace ServletContainer

/-!
# Server settings

* `ServerSettings` — the listener's and the connections' settings, each with a default.
* `ServerSettings.ofToml` — reads a document and checks it; unknown keys do not count.
* `ServerSettings.check` — the checks, in their order.
-/

/-- The files of an encrypted listener. -/
structure TlsFiles where
  certPath : String
  keyPath : String
  deriving DecidableEq, Repr

/-- The settings of a server. Times are in milliseconds. -/
structure ServerSettings where
  bindAddress : String
  /-- The port; 0 asks for a free one. -/
  port : Nat
  tls : Option TlsFiles
  /-- How many connections are served at once, if there is a bound. -/
  maxConnections : Option Nat
  shutdownGrace : Nat
  closeDelay : Nat
  headerTimeout : Nat
  maxHeaderLine : Nat
  asyncTimeout : Nat
  /-- The time between two sweeps for idle sessions; 0 means that there are none. -/
  sessionSweep : Nat
  deriving DecidableEq, Repr

/-- Why settings are refused. -/
inductive SettingsError where
  | unreadable (path : String) (e : IoError)
  | malformed
  | invalid (reason : String)
  deriving DecidableEq, Repr

/-- The text of the error. -/
def SettingsError.message : SettingsError → String
  | .unreadable path e => "cannot read " ++ path ++ ": " ++ e.message
  | .malformed => "invalid TOML"
  | .invalid reason => "invalid configuration: " ++ reason

namespace ServerSettings

/-- The settings where none are given. -/
def standard : ServerSettings where
  bindAddress := "127.0.0.1"
  port := 8080
  tls := none
  maxConnections := none
  shutdownGrace := 5000
  closeDelay := 50
  headerTimeout := 10000
  maxHeaderLine := defaultLineLimit
  asyncTimeout := 30000
  sessionSweep := 60000

instance : Inhabited ServerSettings := ⟨standard⟩

/-! ### Reading -/

/-- Reads a string. -/
def text? : Toml.Value → Option String
  | .text s => some s
  | _ => none

/-- Reads a whole number from 0 up to a bound. -/
def natUpTo? (bound : Nat) : Toml.Value → Option Nat
  | .integer n => if 0 ≤ n ∧ n ≤ bound then some n.toNat else none
  | _ => none

/-- Reads the key of a table, which has a default where it is left out. -/
def keyOr {α : Type} (read : Toml.Value → Option α) (default : α) (name : String)
    (entries : List (String × Toml.Value)) : Option α :=
  match entries.find? fun e => e.1 == name with
  | none => some default
  | some (_, v) => read v

/-- Reads the key of a table, which must be there. -/
def key? {α : Type} (read : Toml.Value → Option α) (name : String)
    (entries : List (String × Toml.Value)) : Option α :=
  (entries.find? fun e => e.1 == name).bind fun e => read e.2

/-- Reads the files of an encrypted listener, from a table or from a list of the two paths. -/
def tlsFiles? : Toml.Value → Option TlsFiles
  | .table entries => do
    let certPath ← key? text? "cert_path" entries
    let keyPath ← key? text? "key_path" entries
    some ⟨certPath, keyPath⟩
  | .array (cert :: key :: _) => do
    let certPath ← text? cert
    let keyPath ← text? key
    some ⟨certPath, keyPath⟩
  | _ => none

/-- Reads settings from the entries of a document. -/
def ofEntries? (es : List (String × Toml.Value)) : Option ServerSettings := do
  let d := standard
  let word := natUpTo? Text.max64
  let bindAddress ← keyOr text? d.bindAddress "bind_address" es
  let port ← keyOr (natUpTo? 65535) d.port "port" es
  let tls ← keyOr (fun v => (tlsFiles? v).map some) d.tls "tls" es
  let maxConnections ← keyOr (fun v => (word v).map some) d.maxConnections "max_connections" es
  let shutdownGrace ← keyOr word d.shutdownGrace "shutdown_grace_ms" es
  let closeDelay ← keyOr word d.closeDelay "close_delay_ms" es
  let headerTimeout ← keyOr word d.headerTimeout "header_timeout_ms" es
  let maxHeaderLine ← keyOr word d.maxHeaderLine "max_header_line" es
  let asyncTimeout ← keyOr word d.asyncTimeout "async_timeout_ms" es
  let sessionSweep ← keyOr word d.sessionSweep "session_sweep_ms" es
  some { bindAddress, port, tls, maxConnections, shutdownGrace, closeDelay, headerTimeout, maxHeaderLine,
         asyncTimeout, sessionSweep }

/-! ### Checking -/

/-- The address to listen on. -/
def address (s : ServerSettings) : Except SettingsError IpAddress :=
  match IpAddress.parse? s.bindAddress with
  | some ip => .ok ip
  | none => .error (.invalid ("bind_address " ++ Text.quote s.bindAddress ++ " is not an IP address"))

/-- The checks of settings. -/
def check (s : ServerSettings) : Except SettingsError Unit := do
  let _ ← s.address
  if s.maxConnections = some 0 then throw (.invalid "max_connections must be at least 1")
  if s.maxHeaderLine < 64 then throw (.invalid "max_header_line must be at least 64")
  if s.headerTimeout = 0 ∨ s.asyncTimeout = 0 then throw (.invalid "timeouts must be non-zero")

/-- Reads a document and checks it. -/
def ofToml (document : String) : Except SettingsError ServerSettings :=
  match (Toml.parse document).bind ofEntries? with
  | none => .error .malformed
  | some s =>
    match s.check with
    | .error e => .error e
    | .ok () => .ok s

/-- Reads the file at a path. -/
def ofFile (files : Files) (path : String) : Except SettingsError ServerSettings :=
  match files path with
  | .error e => .error (.unreadable path e)
  | .ok document => ofToml document

/-- The text of the address and port to listen on. -/
def socketText (s : ServerSettings) : Except SettingsError String :=
  s.address.map fun ip => socketAddress ip s.port

/-- The time between two sweeps for idle sessions, if there are any. -/
def sweepInterval? (s : ServerSettings) : Option Nat :=
  if 0 < s.sessionSweep then some s.sessionSweep else none

end ServerSettings

end ServletContainer
