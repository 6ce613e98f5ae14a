import ServletContainer.Application.Basic

namespace ServletContainer

/-!
# Filter chains

* `Program.run` — runs the code of one component.
* `runChain` — runs filters in order and then the servlet; each filter decides whether to go on.

A run gives none if it exceeds its resources: the depth of nested dispatches, or the supply of random blocks.
-/

/-- The result of running code on an exchange. -/
abbrev Run := Option (Outcome × Exchange)

/-- Dispatches to another target from within a program. -/
abbrev Dispatcher := Jump → (path : String) → Exchange → Run

/-- The rest of a chain as a filter sees it. -/
structure Rest where
  /-- The number of filters in it. -/
  remaining : Nat
  go : Exchange → Run

/-- Runs a program. The rest of the chain is there until it is used. -/
def Program.run (dispatch : Dispatcher) : Program → Option Rest → Exchange → Run
  | .done result, _, x => some (result, x)
  | .call op k, rest, x => (op.perform x).bind fun (reply, x) => (k reply).run dispatch rest x
  | .jump j path k, rest, x => (dispatch j path x).bind fun (result, x) => (k result).run dispatch rest x
  | .remaining k, rest, x => (k (rest.map Rest.remaining)).run dispatch rest x
  | .proceed k, none, x => (k none).run dispatch none x
  | .proceed k, some rest, x => (rest.go x).bind fun (result, x) => (k (some result)).run dispatch none x

/-- Runs a component, which the journal records. -/
def runComponent (dispatch : Dispatcher) (ref : ComponentRef) (code : Program) (rest : Option Rest)
    (x : Exchange) : Run :=
  (code.run dispatch rest (x.log (.entered ref x.snapshot))).map fun (result, x) =>
    (result, x.log (.left ref result))

/-- Runs filters and then a servlet. -/
def runChain (dispatch : Dispatcher) (servlet : Servlet) : List Filter → Exchange → Run
  | [], x => runComponent dispatch ⟨.servlet, servlet.name⟩ servlet.component.service none x
  | f :: fs, x =>
    runComponent dispatch ⟨.filter, f.name⟩ f.component.service
      (some ⟨fs.length, runChain dispatch servlet fs⟩) x

end ServletContainer
