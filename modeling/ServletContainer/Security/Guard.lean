import ServletContainer.Exchange.Program

namespace ServletContainer

/-!
# Guards

A guard is asked before a request is dispatched, and told when the dispatch is over.

* `Guard` — the two calls.
* `PathGate` — a guard that turns requests away by the start of their path and notes what it is asked.
-/

/-- What a guard decides about a request. -/
inductive Decision where
  | allow
  /-- The request is answered with a status, and with a challenge if there is one. -/
  | deny (status : Nat) (challenge : Option String)
  deriving DecidableEq, Repr

/-- A guard of an application's requests. -/
structure Guard where
  /-- Decides about a request; it may change the exchange. None if the supply of random blocks runs dry. -/
  check : Exchange → Option (Decision × Exchange)
  /-- Called after the dispatch. -/
  after : Exchange → Exchange

/-- A rule that turns away the requests whose relative path starts with a text. -/
structure GateRule where
  head : String
  status : Nat
  challenge : Option String
  deriving DecidableEq, Repr

/-- A guard by the start of the relative path. -/
structure PathGate where
  rule : Option GateRule
  deriving DecidableEq, Repr

namespace PathGate

/-- The decision about a path. -/
def decide (g : PathGate) (path : String) : Decision :=
  match g.rule with
  | none => .allow
  | some rule => if Text.startsWith rule.head path then .deny rule.status rule.challenge else .allow

/-- The guard, which notes the paths it is asked about and the status after each dispatch. -/
def guard (g : PathGate) : Guard where
  check x :=
    let path := x.request.relativePath
    some (g.decide path, x.log (.noted (.told "check" (.text path))))
  after x := x.log (.noted (.told "after" (.int x.response.status)))

end PathGate

end ServletContainer
