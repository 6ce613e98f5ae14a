import ServletContainer.Server.Pem
import ServletContainer.Server.Settings

namespace ServletContainer

/-!
# Starting a server

What has to be in order before a server accepts connections: its settings, the files of an encrypted listener,
and the listener itself.

* `TlsFiles.check` — the certificate file and then the key file.
* `ServerSettings.start` — all steps, in order; the first that fails is the one reported.
-/

/-- Why a server does not start. -/
inductive StartError where
  | settings (e : SettingsError)
  | unreadable (path : String) (e : IoError)
  | brokenSection (path : String)
  | missingCertificate (path : String)
  | missingKey (path : String)
  | noListener (address : String)
  deriving DecidableEq, Repr

/-- The text of the error. -/
def StartError.message : StartError → String
  | .settings e => e.message
  | .unreadable path e => "cannot read " ++ path ++ ": " ++ e.message
  | .brokenSection path => "cannot read " ++ path ++ ": malformed section"
  | .missingCertificate path => "no certificate found in " ++ path
  | .missingKey path => "no private key found in " ++ path
  | .noListener address => "cannot listen on " ++ address

/-- Reads a file and asks what it holds; what is missing is the given error. -/
def checkFile (files : Files) (path : String) (holds? : String → Option Bool) (missing : StartError) :
    Except StartError Unit :=
  match files path with
  | .error e => .error (.unreadable path e)
  | .ok content =>
    match holds? content with
    | none => .error (.brokenSection path)
    | some true => .ok ()
    | some false => .error missing

/-- Checks the certificate file and then the key file. -/
def TlsFiles.check (t : TlsFiles) (files : Files) : Except StartError Unit := do
  checkFile files t.certPath Pem.hasCertificate? (.missingCertificate t.certPath)
  checkFile files t.keyPath Pem.hasKey? (.missingKey t.keyPath)

/-- Starts a server, where `listen` tells whether the listener of an address can be opened. -/
def ServerSettings.start (s : ServerSettings) (files : Files) (listen : (address : String) → Bool) :
    Except StartError Unit := do
  s.check.mapError .settings
  let address ← s.socketText.mapError .settings
  match s.tls with
  | none => pure ()
  | some t => t.check files
  if listen address then pure () else throw (.noListener address)

end ServletContainer
