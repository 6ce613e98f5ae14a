import ServletContainer.Proofs.Dispatch.Lasting
import ServletContainer.Proofs.Exchange.Steps
import ServletContainer.Proofs.Session.Drawn

namespace ServletContainer

/-!
# What dispatches do to sessions

Forwards, includes and the answers to failures leave the sessions alone, and so does the rest of what is done around
the components of an application. So a relation between the sessions before and the sessions after that every call of
application code keeps is kept by whole dispatches, and from the guard to the end of a request.

* `steady_timed` — dispatches.
* `lasting_timed` — all that is done for a request once the guard has let it through.
* `reaches_serveWithin` — so all that serving a request does to sessions is to call them.
-/

section Timed

variable {S : TimedStore → TimedStore → Prop} {allowed : Op → Prop}

/-! ### Dispatches -/

/-- A preorder `S` of sessions with their time is `Steady` if the calls that are `allowed` keep it (`hperform`):
dispatches themselves touch neither. -/
theorem steady_timed (hrefl : ∀ t, S t t) (htrans : ∀ {t u v}, S t u → S u v → S t v)
    (hperform : ∀ {op x} {p : op.Reply × Exchange}, allowed op → op.perform x = some p → S x.timed p.2.timed) :
    Steady allowed (fun _ => True) fun x y => S x.timed y.timed where
  forwards := trivial
  includes := trivial
  refl _ := hrefl _
  trans := htrans
  perform := hperform
  entered _ _ _ := hrefl _
  left _ _ _ := hrefl _
  within _ h := h
  forward hi := Jump.carries_dispatchWith (fun _ _ _ => rfl) hrefl .forward hi
  inclusion hi := Jump.carries_dispatchWith (fun _ _ _ => rfl) hrefl .inclusion hi

/-! ### Requests -/

/-- It is `Lasting` if the passing of time keeps it as well (`helapse`), as it passes while a deferred request is waited
for. -/
theorem lasting_timed {app : Application} (ha : app.Uses allowed) (depth : Nat) (hrefl : ∀ t, S t t)
    (htrans : ∀ {t u v}, S t u → S u v → S t v)
    (hperform : ∀ {op x} {p : op.Reply × Exchange}, allowed op → op.perform x = some p → S x.timed p.2.timed)
    (helapse : ∀ (t : TimedStore) millis, S t { t with now := t.now + millis }) :
    Lasting app depth (fun _ => True) fun x y => S x.timed y.timed where
  errors := trivial
  asyncs := trivial
  refl _ := hrefl _
  trans := htrans
  dispatched {x place z p} htop _ hp := by
    -- Coming to the place concerns no session.
    have hrun : S z.timed p.2.timed :=
      (steady_timed hrefl htrans hperform).invoke ha depth place.target trivial hp
    rwa [htop.view_eq (f := Exchange.timed) fun _ _ => rfl] at hrun
  paths _ _ := hrefl _
  startOver _ := hrefl _
  prepareError _ _ := hrefl _
  defaultError _ _ := hrefl _
  resume _ := hrefl _
  elapse x millis := helapse x.timed millis

end Timed

/-! ### Sessions are called -/

open TimedStore (Reaches)

/-- A call moves the sessions by calls to their store, so `Reaches` is such a preorder. -/
theorem reaches_perform {op : Op} {x : Exchange} {p : op.Reply × Exchange} (h : op.perform x = some p) :
    x.timed.Reaches p.2.timed := by
  refine (Op.steps_perform h).lift (R := fun x y => x.timed.Reaches y.timed) (fun x => .refl x.timed) .trans ?_
  intro x y hstep
  cases hstep with
  | store c _ hp => exact .perform hp
  | respond | bind | put | fields | input | defer | note => exact .refl _

/-- What is done `ByCalls` moves them so as well. -/
theorem ByCalls.reaches {x y : Exchange} (h : ByCalls x y) : x.timed.Reaches y.timed := by
  induction h with
  | start => exact .refl _
  | call _ _ hp ih => exact ih.trans (reaches_perform hp)
  | principal _ _ ih => exact ih

/-- So does a guard that `WorksByCalls`. -/
theorem Guard.WorksByCalls.keeps_reaches {guard : Guard} (h : guard.WorksByCalls) :
    guard.Keeps fun x y => x.timed.Reaches y.timed where
  check hp := (h.check hp).reaches
  deny x _ _ := .refl x.timed
  after x := (h.after x).reaches

/-- And so does `serveWithin`, with time passing in it. -/
theorem reaches_serveWithin {app : Application} (hguard : ∀ guard, app.guard = some guard → guard.WorksByCalls)
    {limits : Limits} {timeout : Nat} {x y : Exchange} (h : serveWithin limits timeout app x = some y) :
    x.timed.Reaches y.timed := by
  have hlasting : Lasting app limits.depth (fun _ => True) fun x y => x.timed.Reaches y.timed :=
    lasting_timed app.uses_true limits.depth .refl .trans (fun _ hp => reaches_perform hp) fun t millis =>
      .perform (c := .advance millis) rfl
  exact hlasting.serveWithin trivial (fun guard hg => (hguard guard hg).keeps_reaches) h

end ServletContainer
