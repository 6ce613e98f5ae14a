import Mathlib.Data.List.DropRight
import ServletContainer.Http.Response

namespace ServletContainer

/-!
# Calls to a response

Everything that can be done to a response, as data, and what a sequence of calls leaves in the record.

* `Response.Call`, `Response.run` — the calls, and the response after a sequence of them.
* `Response.Moment`, `Response.moments` — each call of a sequence with the response that it met.
* `Response.Transcript` — the status line, the header fields and the body of the response that the calls asked
  for, read off the moments since the last reset. It does not look at the buffers or the peer.
* `Response.transcript_concat` — how one more call goes into it.
-/

namespace Response

/-! ### Calls -/

/-- A call to a `Response`. -/
inductive Call where
  | setStatus (code : Nat)
  | setStatusWithReason (code : Nat) (reason : String)
  | addHeader (name value : String)
  | setHeader (name value : String)
  | writeStatusLine
  | writeHeaders
  | write (data : Bytes)
  | flush
  /-- Opens the direct stream and writes to it; opening alone is a write of no bytes. -/
  | stream (data : Bytes)
  | resetBuffer
  | close
  | setLocked (locked : Bool)

/-- Whether the call completes the head, unless that is done already. -/
@[simp] def Call.completesHead : Call → Bool
  | .writeHeaders | .write _ | .flush | .stream _ | .close => true
  | _ => false

/-- Whether the call writes the status line, unless that is done already. -/
@[simp] def Call.writesLine : Call → Bool
  | .writeStatusLine | .writeHeaders | .write _ | .flush | .stream _ | .close => true
  | _ => false

/-- Carries a `Call` out. -/
def Call.perform : Call → Response → Outcome × Response
  | .setStatus code, r => (.ok (), r.setStatus code)
  | .setStatusWithReason code reason, r => (.ok (), r.setStatusWithReason code reason)
  | .addHeader name value, r => (.ok (), r.addHeader name value)
  | .setHeader name value, r => (.ok (), r.setHeader name value)
  | .writeStatusLine, r => (.ok (), r.writeStatusLine)
  | .writeHeaders, r => (.ok (), r.writeHeaders)
  | .write data, r => ((r.write data).1.mapError .io, (r.write data).2)
  | .flush, r => (r.flush.1.mapError .io, r.flush.2)
  | .stream data, r => ((r.stream data).1.mapError .io, (r.stream data).2)
  | .resetBuffer, r => r.resetBuffer
  | .close, r => (r.close.1.mapError .io, r.close.2)
  | .setLocked locked, r => (.ok (), r.setLocked locked)

/-- The response after the call `c`. -/
def apply (r : Response) (c : Call) : Response := (c.perform r).2

/-- The response after `calls` in order. -/
def run (r : Response) (calls : List Call) : Response := calls.foldl apply r

@[simp] theorem run_nil (r : Response) : r.run [] = r := rfl

@[simp] theorem run_cons (r : Response) (c : Call) (calls : List Call) :
    r.run (c :: calls) = (r.apply c).run calls := rfl

@[simp] theorem run_concat (r : Response) (calls : List Call) (c : Call) :
    r.run (calls ++ [c]) = (r.run calls).apply c := by
  simp [run]

theorem run_append (r : Response) (calls more : List Call) : r.run (calls ++ more) = (r.run calls).run more :=
  List.foldl_append

/-! ### Moments -/

/-- A `call` and the response `before` it. -/
structure Moment where
  before : Response
  call : Call

/-- The moments of a sequence of calls to `r`. -/
def moments (r : Response) : List Call → List Moment
  | [] => []
  | c :: calls => ⟨r, c⟩ :: (r.apply c).moments calls

/-- The moments of calls one behind the other are those of the earlier ones, and those that the later ones meet. -/
theorem moments_append (r : Response) (calls more : List Call) :
    r.moments (calls ++ more) = r.moments calls ++ (r.run calls).moments more := by
  induction calls generalizing r with
  | nil => rfl
  | cons c calls ih => simp [moments, ih]

@[simp] theorem moments_concat (r : Response) (calls : List Call) (c : Call) :
    r.moments (calls ++ [c]) = r.moments calls ++ [⟨r.run calls, c⟩] := moments_append r calls [c]

/-- Every moment is one of a call that was made. -/
theorem call_mem_of_mem_moments {r : Response} {calls : List Call} {m : Moment} (hm : m ∈ r.moments calls) :
    m.call ∈ calls := by
  induction calls generalizing r with
  | nil => cases hm
  | cons c calls ih =>
    rcases List.mem_cons.1 hm with rfl | hm
    · exact List.mem_cons_self
    · exact List.mem_cons_of_mem _ (ih hm)

/-- From step to run: if every moment of `kind` keeps `P` (`step`), then a run all of whose moments are of this kind
(`hkind`) keeps it, and each of these moments finds it. By induction on the calls. -/
theorem invariant_run {P : Response → Prop} {kind : Moment → Prop}
    (step : ∀ r c, P r → kind ⟨r, c⟩ → P (r.apply c)) {r : Response} (h : P r) {calls : List Call}
    (hkind : ∀ m ∈ r.moments calls, kind m) : P (r.run calls) ∧ ∀ m ∈ r.moments calls, P m.before := by
  induction calls generalizing r with
  | nil => exact ⟨h, by simp [moments]⟩
  | cons c calls ih =>
    obtain ⟨hc, hcalls⟩ := List.forall_mem_cons.1 hkind
    obtain ⟨hrun, hall⟩ := ih (step r c h hc) hcalls
    exact ⟨hrun, List.forall_mem_cons.2 ⟨h, hall⟩⟩

namespace Moment

/-- Whether the call of `m` succeeds. -/
def succeeds (m : Moment) : Bool :=
  match (m.call.perform m.before).1 with
  | .ok () => true
  | .error _ => false

/-- Whether the call of `m` makes the response start over: a `resetBuffer` that neither came too late nor within an
include. -/
def startsOver (m : Moment) : Bool :=
  match m.call with
  | .resetBuffer => !m.before.isCommitted && !m.before.locked
  | _ => false

/-- The status line that the call of `m` writes unless there is one. -/
def line? (m : Moment) : Option String :=
  if m.before.state = .new ∧ m.call.writesLine then some m.before.statusLine else none

/-- The header fields with which the call of `m` completes the head. -/
def fields? (m : Moment) : Option Headers :=
  if m.before.state = .new ∧ m.call.completesHead then some (sentHeaders m.before.headers) else none

/-- The bytes that the call of `m` adds to the body. -/
def bytes (m : Moment) : Bytes :=
  match m.call with
  | .write data | .stream data => if m.succeeds then data else []
  | _ => []

/-- Whether the call puts a header field of its own called `name` into the head. -/
def names (name : String) (m : Moment) : Bool :=
  m.before.headIsMutable &&
    match m.call with
    | .addHeader n _ | .setHeader n _ => sameName n name
    | _ => false

end Moment

/-! ### Transcripts -/

/-- What calls asked a response to consist of. -/
structure Transcript where
  /-- The status line, once it is written. -/
  line : Option String
  /-- The header fields, once the head is complete. -/
  fields : Option Headers
  body : Bytes

/-- The moments of `ms` since the response last started over. -/
def sinceReset (ms : List Moment) : List Moment := ms.rtakeWhile fun m => !m.startsOver

theorem exists_of_findSome?_sinceReset {α : Type} {f : Moment → Option α} {ms : List Moment} {a : α}
    (h : (sinceReset ms).findSome? f = some a) : ∃ m ∈ ms, f m = some a := by
  obtain ⟨m, hm, hf⟩ := List.exists_of_findSome?_eq_some h
  exact ⟨m, (List.rtakeWhile_suffix _ _).subset hm, hf⟩

/-- The transcript of `ms`: of `sinceReset ms`, the first status line, the first header fields and all bytes in order.
-/
def transcript (ms : List Moment) : Transcript where
  line := (sinceReset ms).findSome? Moment.line?
  fields := (sinceReset ms).findSome? Moment.fields?
  body := (sinceReset ms).flatMap Moment.bytes

namespace Transcript

/-- The transcript of a response that starts over, with nothing in it. -/
def blank : Transcript := ⟨none, none, []⟩

/-- Adds the moment `m` to `t`. -/
def record (t : Transcript) (m : Moment) : Transcript :=
  if m.startsOver then blank else ⟨t.line.or m.line?, t.fields.or m.fields?, t.body ++ m.bytes⟩

/-- The bytes that `t` stands for, if its head is complete. -/
def bytes? (t : Transcript) : Option Bytes := do
  let line ← t.line
  let fields ← t.fields
  some (Text.Utf8.encode line ++ Text.Utf8.encode fields.text ++ Text.Utf8.encode "\r\n" ++ t.body)

end Transcript

/-- `record` of a moment that neither starts over (`hs`) nor gives a line, fields or bytes leaves the transcript. -/
theorem Transcript.record_of_quiet {t : Transcript} {m : Moment} (hs : m.startsOver = false)
    (hl : m.line? = none) (hf : m.fields? = none) (hb : m.bytes = []) : t.record m = t := by
  simp [record, hs, hl, hf, hb]

/-- So do all calls but resets (`hs`) that do not write the status line (`hw`). -/
theorem Transcript.record_of_writesLine_eq_false (t : Transcript) {r : Response} {c : Call}
    (hs : (⟨r, c⟩ : Moment).startsOver = false) (hw : c.writesLine = false) : t.record ⟨r, c⟩ = t := by
  cases c with
  | writeStatusLine | writeHeaders | write _ | flush | stream _ | close => simp at hw
  | _ => exact record_of_quiet hs (by simp [Moment.line?]) (by simp [Moment.fields?]) rfl

/-- `record` of a call that completes the head is that of `writeHeaders`, with the call's own bytes behind it. -/
theorem Transcript.record_eq_of_completes (t : Transcript) {r : Response} {c : Call}
    (hs : (⟨r, c⟩ : Moment).startsOver = false)
    (hl : (⟨r, c⟩ : Moment).line? = (⟨r, .writeHeaders⟩ : Moment).line?)
    (hf : (⟨r, c⟩ : Moment).fields? = (⟨r, .writeHeaders⟩ : Moment).fields?) :
    t.record ⟨r, c⟩ = { t.record ⟨r, .writeHeaders⟩ with
      body := (t.record ⟨r, .writeHeaders⟩).body ++ (⟨r, c⟩ : Moment).bytes } := by
  have hw : (⟨r, .writeHeaders⟩ : Moment).startsOver = false := rfl
  have hb : (⟨r, .writeHeaders⟩ : Moment).bytes = [] := rfl
  simp [record, hs, hl, hf, hw, hb]

@[simp] theorem transcript_nil : transcript [] = .blank := rfl

/-- `transcript` goes moment by moment, by `record`. A reset empties the moments since the last one; any other adds
itself to them. -/
theorem transcript_concat (ms : List Moment) (m : Moment) :
    transcript (ms ++ [m]) = (transcript ms).record m := by
  cases h : m.startsOver with
  | true =>
    have hs : sinceReset (ms ++ [m]) = [] := by simp [sinceReset, h]
    simp [transcript, Transcript.record, hs, h, Transcript.blank]
  | false =>
    have hs : sinceReset (ms ++ [m]) = sinceReset ms ++ [m] := by simp [sinceReset, h]
    simp [transcript, Transcript.record, hs, h, List.findSome?_append]

end Response

end ServletContainer
