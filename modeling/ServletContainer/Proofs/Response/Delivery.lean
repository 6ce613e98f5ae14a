import ServletContainer.Proofs.Response.Wire

namespace ServletContainer

/-!
# A peer that may fail

A peer may break any write off after any number of bytes, and take later ones again. What it has then received
is accounted for as long as no flush was broken off half way: the response does not know how far such a flush
came, and would send the same bytes again.

* `Sink.taken` — the bytes of a write that get through.
* `Response.delivery` — the transcript of moments, in which a direct write counts with the bytes that got through.
* `Response.Delivers` — the invariant: to a peer that takes everything from here on, the response would be in
  account with its delivery.
* `Response.delivered_of_run` — what has reached the peer is the start of one delivery, and has committed the
  response.
* `Response.isCommitted_of_breaksOff`, `Response.wire_behind_broken_flush` — a flush that was broken off half way
  does not commit the response, and what comes after it.
-/

/-! ### Writes that break off -/

namespace Sink

/-- The bytes of `data` that get through, when it is written to `s`. -/
def taken (s : Sink) (data : Bytes) : Bytes :=
  match s.policy s.attempts s.received.length data.length with
  | none => data
  | some n => data.take n

/-- What gets through is the start of the data. -/
theorem taken_isPrefix (s : Sink) (data : Bytes) : s.taken data <+: data := by
  unfold taken
  split
  · exact List.prefix_rfl
  · exact List.take_prefix _ _

/-- `write` succeeds with all of `data`, or fails; either way what gets through (`taken`) comes behind what was
received. -/
theorem write_cases (s : Sink) (data : Bytes) :
    (∃ s', s.write data = (.ok (), s') ∧ s.taken data = data ∧ s'.received = s.received ++ s.taken data) ∨
    ∃ e s', s.write data = (.error e, s') ∧ s'.received = s.received ++ s.taken data := by
  unfold write taken
  by_cases hd : data = []
  · subst hd
    refine .inl ⟨s, rfl, ?_, ?_⟩ <;> split <;> simp
  · have hempty : data.isEmpty = false := by simpa using hd
    rw [hempty]
    cases hp : s.policy s.attempts s.received.length data.length with
    | none => exact .inl ⟨_, rfl, rfl, rfl⟩
    | some n => exact .inr ⟨_, _, rfl, rfl⟩

theorem received_shutdown (s : Sink) : s.shutdown.2.received = s.received := by
  unfold shutdown
  split <;> rfl

end Sink

namespace Response

/-- `send` hands over all that is pending and commits, or fails and keeps it all, though some first bytes may have got
through. -/
theorem send_cases (r : Response) (s : Sink) :
    (∃ s', r.send s = (.ok (), { r with sink := some s', head := [], body := [], state := .committed }) ∧
      s'.received = s.received ++ r.head ++ r.body) ∨
    ∃ e s', r.send s = (.error e, { r with sink := some s' }) ∧ s.received <+: s'.received ∧
      s'.received <+: s.received ++ r.head ++ r.body := by
  -- `r.head` may be broken off, and then `r.body` is not written; or `r.body` may be.
  rcases s.write_cases r.head with ⟨s₁, h₁, hall₁, hr₁⟩ | ⟨e, s₁, h₁, hr₁⟩
  · rw [hall₁] at hr₁
    rcases s₁.write_cases r.body with ⟨s₂, h₂, hall₂, hr₂⟩ | ⟨e, s₂, h₂, hr₂⟩
    · exact .inl ⟨s₂, by simp [send, h₁, h₂], by rw [hr₂, hall₂, hr₁]⟩
    · refine .inr ⟨e, s₂, by simp [send, h₁, h₂], ?_, ?_⟩
      · rw [hr₂, hr₁, List.append_assoc]
        exact List.prefix_append _ _
      · rw [hr₂, hr₁]
        exact (List.prefix_append_right_inj _).2 (s₁.taken_isPrefix r.body)
  · refine .inr ⟨e, s₁, by simp [send, h₁], ?_, ?_⟩
    · rw [hr₁]
      exact List.prefix_append _ _
    · rw [hr₁, List.append_assoc]
      exact (List.prefix_append_right_inj _).2 ((s.taken_isPrefix r.head).trans (List.prefix_append _ _))

/-- Whether flushing `r` is broken off half way: it fails after some bytes got through. -/
def flushBreaksOff (r : Response) : Bool :=
  match r.flush with
  | (.ok (), _) => false
  | (.error _, r') => r'.wire ≠ r.wire

/-- The bytes of a direct write of `data` that get through, once the stream is open. -/
def streamed (r : Response) (data : Bytes) : Bytes :=
  match r.flush with
  | (.error _, _) => []
  | (.ok (), r) =>
    match r.sink with
    | none => []
    | some sink => if r.state = .committed then sink.taken data else []

/-! ### Deliveries -/

/-- Whether the call of `m` leaves the response open behind a flush that was broken off half way. -/
def Moment.breaksOff (m : Moment) : Bool :=
  match m.call with
  | .flush | .stream _ => m.before.flushBreaksOff
  | _ => false

/-- The bytes that the call of `m` adds to the body. A `stream` counts with the bytes that get through, also where it
fails in the end. -/
def Moment.added (m : Moment) : Bytes :=
  match m.call with
  | .stream data => m.before.streamed data
  | _ => m.bytes

/-- The `transcript` of `ms`, in which a `stream` counts with the bytes that got through. -/
def delivery (ms : List Moment) : Transcript :=
  { transcript ms with body := (sinceReset ms).flatMap Moment.added }

namespace Transcript

/-- The bytes of `t`, none before its head is complete. -/
def stream (t : Transcript) : Bytes := t.bytes?.getD []

/-- Adds the moment `m` to `t`, of a `stream` the bytes that got through. -/
def deliver (t : Transcript) (m : Moment) : Transcript :=
  if m.startsOver then blank else { t.record m with body := t.body ++ m.added }

/-- A call that sends nothing directly (`h`) is delivered as it is recorded. -/
theorem deliver_eq_record (t : Transcript) {m : Moment} (h : m.added = m.bytes) : t.deliver m = t.record m := by
  unfold deliver record
  split
  · rfl
  · rw [h]

end Transcript

/-- `delivery` goes moment by moment, by `deliver`. -/
theorem delivery_concat (ms : List Moment) (m : Moment) : delivery (ms ++ [m]) = (delivery ms).deliver m := by
  unfold delivery
  rw [transcript_concat]
  cases h : m.startsOver with
  | true =>
    have hs : sinceReset (ms ++ [m]) = [] := by simp [sinceReset, h]
    simp [Transcript.deliver, Transcript.record, hs, h, Transcript.blank]
  | false =>
    have hs : sinceReset (ms ++ [m]) = sinceReset ms ++ [m] := by simp [sinceReset, h]
    simp [Transcript.deliver, Transcript.record, hs, h]

/-! ### What has been received stays received -/

/-- Whether a call goes to the peer: `flush`, `stream` or `close`. -/
def Call.sends : Call → Bool
  | .flush | .stream _ | .close => true
  | _ => false

@[simp] theorem sink_writeHeaders (r : Response) : r.writeHeaders.sink = r.sink := by
  unfold writeHeaders writeStatusLine
  split
  · split <;> rfl
  · rfl

/-- A call that does not go to the peer (`h`) leaves it as it is. One case for each call. -/
theorem sink_apply {c : Call} (h : c.sends = false) (r : Response) : (r.apply c).sink = r.sink := by
  cases c with
  -- `flush`, `stream` and `close` do go to the peer.
  | flush | stream _ | close => simp [Call.sends] at h
  | setStatus _ => simp only [apply, Call.perform, setStatus]; split <;> rfl
  | setStatusWithReason _ _ => simp only [apply, Call.perform, setStatusWithReason]; split <;> rfl
  | addHeader _ _ => simp only [apply, Call.perform, addHeader]; split <;> rfl
  | setHeader _ _ => simp only [apply, Call.perform, setHeader]; split <;> rfl
  | writeStatusLine => simp only [apply, Call.perform, writeStatusLine]; split <;> rfl
  | writeHeaders => exact sink_writeHeaders r
  | setLocked _ => rfl
  | write data =>
    simp only [apply, Call.perform, write]
    split
    · rfl
    · exact sink_writeHeaders r
  | resetBuffer =>
    simp only [apply, Call.perform, resetBuffer]
    split
    · rfl
    · split <;> rfl

theorem wire_of_sink {r : Response} {s : Sink} (h : r.sink = some s) : r.wire = s.received := by
  rw [wire, h]

theorem wire_congr {r r' : Response} (h : r'.sink = r.sink) : r'.wire = r.wire := by
  rw [wire, wire, h]

/-- A flush takes nothing back of what was received. -/
theorem wire_isPrefix_flush (r : Response) : r.wire <+: r.flush.2.wire := by
  unfold flush
  split
  · exact List.prefix_rfl
  · dsimp only
    rw [← wire_congr (sink_writeHeaders r)]
    split
    · exact List.prefix_rfl
    · next s hs =>
      rcases send_cases r.writeHeaders s with ⟨s', hsend, hr'⟩ | ⟨e, s', hsend, hr', -⟩
      · rw [hsend, wire_of_sink hs, wire_of_sink (s := s') rfl, hr', List.append_assoc]
        exact List.prefix_append _ _
      · rwa [hsend, wire_of_sink hs, wire_of_sink (s := s') rfl]

/-- A direct write, which flushes first, takes nothing back either. -/
theorem wire_isPrefix_stream (r : Response) (data : Bytes) : r.wire <+: (r.stream data).2.wire := by
  have hf := wire_isPrefix_flush r
  unfold stream
  split
  · next h => rwa [h] at hf
  · next r' h =>
    rw [h] at hf
    split
    · exact hf
    · next s hs =>
      split
      · -- What gets through, all of `data` or its start, comes behind what `flush` has sent.
        refine hf.trans ?_
        rw [wire_of_sink hs]
        rcases s.write_cases data with ⟨s', hw, -, hr'⟩ | ⟨e, s', hw, hr'⟩
        · rw [hw, wire_of_sink (s := s') rfl, hr']
          exact List.prefix_append _ _
        · rw [hw, wire_of_sink (s := s') rfl, hr']
          exact List.prefix_append _ _
      · exact hf

@[simp] theorem wire_shutdownSink (r : Response) : r.shutdownSink.2.wire = r.wire := by
  unfold shutdownSink
  cases hs : r.sink with
  | none => rfl
  | some s => exact (s.received_shutdown).trans (wire_of_sink hs).symm

/-- No call takes anything back: those that go to the peer only add, the others leave it (`sink_apply`). -/
theorem wire_isPrefix_apply (r : Response) (c : Call) : r.wire <+: (r.apply c).wire := by
  by_cases hc : c.sends = true
  · cases c with
    | flush => exact wire_isPrefix_flush r
    | stream data => exact wire_isPrefix_stream r data
    | close =>
      show r.wire <+: r.close.2.wire
      unfold close
      split
      · exact List.prefix_rfl
      · -- `close` flushes and then shuts the peer down, which sends nothing.
        refine (wire_isPrefix_flush r).trans ?_
        have hsame := wire_shutdownSink r.flush.2
        exact ⟨[], (List.append_nil _).trans hsame.symm⟩
    | _ => simp [Call.sends] at hc
  · -- By `sink_apply` a call that does not send leaves the peer.
    have hsame := wire_congr (sink_apply (by simpa using hc) r)
    exact ⟨[], (List.append_nil _).trans hsame.symm⟩

/-- So what was received after `earlier` calls is the start of what is received later. -/
theorem wire_isPrefix_run (r : Response) {earlier calls : List Call} (h : earlier <+: calls) :
    (r.run earlier).wire <+: (r.run calls).wire := by
  obtain ⟨more, rfl⟩ := h
  induction more using List.reverseRecOn with
  | nil => simp
  | append_singleton more c ih =>
    rw [← List.append_assoc, run_concat]
    exact ih.trans (wire_isPrefix_apply _ c)

/-! ### The invariant -/

/-- The response `r` as it would be with a peer that takes everything from here on. -/
def unhindered (r : Response) : Response :=
  { r with sink := r.sink.map fun s => { s with policy := .unlimited } }

/-- `unhindered` changes nothing of what was received. -/
theorem wire_unhindered (r : Response) : r.unhindered.wire = r.wire := by
  unfold wire unhindered
  cases r.sink <;> rfl

/-- A call that does not go to the peer (`h`) does not notice who that is. -/
theorem apply_unhindered {c : Call} (h : c.sends = false) (r : Response) :
    r.unhindered.apply c = (r.apply c).unhindered := by
  obtain ⟨protocol, status, reason, headers, state, head, body, bodyWritten, sink, locked⟩ := r
  cases c with
  | flush | stream _ | close => simp [Call.sends] at h
  | setLocked _ => rfl
  | setStatus _ | setStatusWithReason _ _ | addHeader _ _ | setHeader _ _ | resetBuffer =>
    cases state <;> cases locked <;> rfl
  | writeStatusLine | writeHeaders | write _ => cases state <;> cases head <;> rfl

/-- And so it is recorded in the same way. -/
theorem record_unhindered {c : Call} (h : c.sends = false) (r : Response) (t : Transcript) :
    t.record ⟨r.unhindered, c⟩ = t.record ⟨r, c⟩ := by
  obtain ⟨protocol, status, reason, headers, state, head, body, bodyWritten, sink, locked⟩ := r
  cases c with
  | flush | stream _ | close => simp [Call.sends] at h
  | write _ => cases state <;> rfl
  | _ => rfl

/-- What `r` must be when `t` is its `delivery`. -/
structure Delivers (r : Response) (t : Transcript) : Prop where
  peer : ∃ s, r.sink = some s
  /-- What is still pending will be sent once, behind what was received. -/
  accounts : r.state ≠ .closed → Accounts r.unhindered t
  wire : r.wire <+: t.stream

/-- A response that `Accounts` for a transcript has sent the start of its stream: before the head is complete nothing,
and then all but what is pending. -/
theorem Accounts.wire_isPrefix {r : Response} {t : Transcript} (h : Accounts r t) : r.wire <+: t.stream := by
  by_cases hn : r.state = .new
  · rw [h.unsent (by simp [isCommitted, hn])]
    exact List.nil_prefix
  · rw [Transcript.stream, h.finished hn, Option.getD_some, List.append_assoc]
    exact List.prefix_append _ _

/-- Where the response has a peer, `Accounts` of it unhindered is all that `Delivers` needs. -/
theorem Delivers.of_accounts {r : Response} {t : Transcript} {s : Sink} (hs : r.sink = some s)
    (h : Accounts r.unhindered t) : Delivers r t :=
  ⟨⟨s, hs⟩, fun _ => h, wire_unhindered r ▸ h.wire_isPrefix⟩

theorem delivers_connected (protocol : String) (policy : WritePolicy) (failsShutdown : Bool) :
    Delivers (connected protocol (.fresh policy failsShutdown)) .blank :=
  .of_accounts rfl (accounts_connected protocol failsShutdown)

/-! ### Calls that do not go to the peer -/

/-- No call to a closed response (`hc`) counts. One case for each call. -/
theorem deliver_of_closed {r : Response} (hc : r.state = .closed) (t : Transcript) (c : Call) :
    t.deliver ⟨r, c⟩ = t := by
  have hbytes : (⟨r, c⟩ : Moment).bytes = [] ∧ (⟨r, c⟩ : Moment).added = [] := by
    have hflush : r.flush = (.ok (), r) := by simp [flush, hc]
    cases c with
    | write data =>
      simp [Moment.added, Moment.bytes, Moment.succeeds, Call.perform, Response.write, hc, Except.mapError]
    | stream data =>
      cases hs : r.sink <;> simp [Moment.added, Moment.bytes, Moment.succeeds, Call.perform, Response.stream,
        streamed, hflush, hs, hc, Except.mapError]
    | _ => exact ⟨rfl, rfl⟩
  have hs : (⟨r, c⟩ : Moment).startsOver = false := startsOver_eq_false_of_isCommitted (by simp [isCommitted, hc])
  rw [Transcript.deliver, hs, record_of_closed hc t hbytes.1, hbytes.2, List.append_nil]
  rfl

/-- A closed response delivers on, as no call changes it or the transcript. -/
theorem Delivers.apply_of_closed {r : Response} {t : Transcript} (h : Delivers r t) (hc : r.state = .closed)
    (c : Call) : Delivers (r.apply c) (t.deliver ⟨r, c⟩) := by
  obtain ⟨locked, hr⟩ := exists_apply_eq_of_closed hc c
  rw [deliver_of_closed hc, hr]
  exact ⟨h.peer, fun hopen => absurd hc hopen, h.wire⟩

/-- A call that does not go to the peer (`hc`) keeps `Delivers`: `Accounts.apply` holds of the unhindered response,
which does the same. -/
theorem Delivers.apply_of_not_sends {r : Response} {t : Transcript} (h : Delivers r t) {c : Call}
    (hc : c.sends = false) : Delivers (r.apply c) (t.deliver ⟨r, c⟩) := by
  by_cases hclosed : r.state = .closed
  · exact h.apply_of_closed hclosed c
  · have hadded : (⟨r, c⟩ : Moment).added = (⟨r, c⟩ : Moment).bytes := by
      cases c with
      | stream data => simp [Call.sends] at hc
      | _ => rfl
    obtain ⟨s, hs⟩ := h.peer
    have hacc := (h.accounts hclosed).apply c
    rw [apply_unhindered hc, record_unhindered hc] at hacc
    rw [t.deliver_eq_record hadded]
    exact .of_accounts ((sink_apply hc r).trans hs) hacc

/-! ### Calls that do -/

/-- Flushing an open response (`hc`) completes its head. Then either all is sent, or the flush fails; and where nothing
got through it, it has done nothing else. -/
theorem Delivers.flush_cases {r : Response} {t : Transcript} (h : Delivers r t) (hc : r.state ≠ .closed) :
    (∃ r', r.flush = (.ok (), r') ∧ r'.state = .committed ∧ r'.head = [] ∧ r'.body = [] ∧
      Delivers r' (t.record ⟨r, .writeHeaders⟩)) ∨
    ∃ e r', r.flush = (.error e, r') ∧ (∃ s, r'.sink = some s) ∧
      r'.wire <+: (t.record ⟨r, .writeHeaders⟩).stream ∧
      (r'.wire = r.wire → Delivers r' (t.record ⟨r, .writeHeaders⟩)) := by
  obtain ⟨s, hs⟩ := h.peer
  -- `writeHeaders` comes first, whoever the peer is.
  have hw : r.writeHeaders.sink = some s := (sink_writeHeaders r).trans hs
  have hacc : Accounts r.writeHeaders.unhindered (t.record ⟨r, .writeHeaders⟩) := by
    have hrec := record_unhindered (c := .writeHeaders) rfl r t
    have happ : r.unhindered.writeHeaders = r.writeHeaders.unhindered :=
      apply_unhindered (c := .writeHeaders) rfl r
    rw [← hrec, ← happ]
    exact (h.accounts hc).writeHeaders
  have hn : r.writeHeaders.unhindered.state ≠ .new := state_writeHeaders_ne_new r
  have hbytes := hacc.finished hn
  rw [wire_unhindered, wire_of_sink hw] at hbytes
  rcases send_cases r.writeHeaders s with ⟨s', hsend, hr'⟩ | ⟨e, s', hsend, -, hr'⟩
  · refine .inl ⟨{ r.writeHeaders with sink := some s', head := [], body := [], state := .committed },
      by simp [flush, hc, hs, hsend], rfl, rfl, rfl, .of_accounts rfl ?_⟩
    refine ⟨⟨_, rfl, rfl⟩, fun he => absurd he (by simp [isCommitted, unhindered]), hacc.line_ne,
      fun he => absurd he (by simp [unhindered]), fun _ => ?_⟩
    rw [hbytes, wire_unhindered, wire_of_sink (s := s') rfl, hr']
    simp [unhindered]
  · refine .inr ⟨e, { r.writeHeaders with sink := some s' }, by simp [flush, hc, hs, hsend], ⟨s', rfl⟩, ?_,
      fun hsame => .of_accounts rfl ?_⟩
    · rw [Transcript.stream, hbytes, wire_of_sink (s := s') rfl]
      exact hr'
    · -- The peer's count of writes is all that is different.
      refine hacc.congr_wire ⟨_, rfl, rfl⟩ ?_ rfl rfl rfl
      rw [wire_unhindered, wire_unhindered, hsame, wire_congr (sink_writeHeaders r)]

/-- What the call `c` does to a `Delivers r t`. What has been received is the start of what the calls asked for even
after a flush that is broken off half way, but then the response no longer knows what is missing. -/
structure Delivers.Step (r : Response) (t : Transcript) (c : Call) : Prop where
  wire : (r.apply c).wire <+: (t.deliver ⟨r, c⟩).stream
  delivers : (⟨r, c⟩ : Moment).breaksOff = false → Delivers (r.apply c) (t.deliver ⟨r, c⟩)

/-- A call that keeps `Delivers` makes a `Step`. -/
theorem Delivers.toStep {r : Response} {t : Transcript} {c : Call}
    (h : Delivers (r.apply c) (t.deliver ⟨r, c⟩)) : Step r t c :=
  ⟨h.wire, fun _ => h⟩

/-- A flush that fails (`hf`) without having broken off (`h`) has let nothing through. -/
theorem wire_of_flushBreaksOff_eq_false {r r' : Response} {e : IoError} (hf : r.flush = (.error e, r'))
    (h : r.flushBreaksOff = false) : r'.wire = r.wire := by
  simpa [flushBreaksOff, hf] using h

/-- A flush of an open response makes a `Step`; if it breaks off, only the start of the stream is known to have been
received. -/
theorem Delivers.step_flush {r : Response} {t : Transcript} (h : Delivers r t) (hc : r.state ≠ .closed) :
    Step r t .flush := by
  have ht : t.deliver ⟨r, .flush⟩ = t.record ⟨r, .writeHeaders⟩ := t.deliver_eq_record rfl
  rcases h.flush_cases hc with ⟨r', hf, -, -, -, h'⟩ | ⟨e, r', hf, -, hwire, h'⟩
  · have hr : r.apply .flush = r' := by simp [apply, Call.perform, hf]
    exact toStep (by rwa [hr, ht])
  · have hr : r.apply .flush = r' := by simp [apply, Call.perform, hf]
    refine ⟨by rwa [hr, ht], fun hbreaks => ?_⟩
    rw [hr, ht]
    exact h' (wire_of_flushBreaksOff_eq_false hf hbreaks)

/-- So does a direct write: the flush in it may fail, and then nothing of `data` is sent, or `data` may get through in
part. -/
theorem Delivers.step_stream {r : Response} {t : Transcript} (h : Delivers r t) (hc : r.state ≠ .closed)
    (data : Bytes) : Step r t (.stream data) := by
  have ht : t.deliver ⟨r, .stream data⟩ = { t.record ⟨r, .writeHeaders⟩ with
      body := (t.record ⟨r, .writeHeaders⟩).body ++ r.streamed data } := by
    simp [Transcript.deliver, Transcript.record, Moment.startsOver, Moment.line?, Moment.fields?, Moment.bytes,
      Moment.added]
  rcases h.flush_cases hc with ⟨r', hf, hst, hhead, hbody, h'⟩ | ⟨e, r', hf, -, hwire, h'⟩
  · obtain ⟨s, hs⟩ := h'.peer
    have hn : r'.unhindered.state ≠ .new := by simp [unhindered, hst]
    have hstreamed : r.streamed data = s.taken data := by simp [streamed, hf, hs, hst]
    obtain ⟨s', hr, hrec⟩ : ∃ s', r.apply (.stream data) = { r' with sink := some s' } ∧
        s'.received = s.received ++ s.taken data := by
      rcases s.write_cases data with ⟨s', hw, -, hrec⟩ | ⟨e, s', hw, hrec⟩ <;>
        exact ⟨s', by simp [apply, Call.perform, stream, hf, hs, hst, hw], hrec⟩
    -- `flush` has left nothing pending, so what is sent directly comes right behind what was sent before.
    have happ := (h'.accounts (by simp [hst])).append hn (s.taken data) r'.unhindered.bodyWritten
    have hbytes := happ.finished hn
    refine toStep ?_
    rw [hr, ht, hstreamed]
    refine .of_accounts rfl ⟨⟨_, rfl, rfl⟩, fun he => ?_, happ.line_ne, fun he => absurd he hn, fun _ => ?_⟩
    · simp [isCommitted, unhindered, hst] at he
    · rw [hbytes]
      simp [unhindered, Response.wire, hs, hrec, hhead, hbody]
  · have hr : r.apply (.stream data) = r' := by simp [apply, Call.perform, stream, hf]
    have hstreamed : r.streamed data = [] := by simp [streamed, hf]
    rw [hstreamed, List.append_nil] at ht
    refine ⟨by rwa [hr, ht], fun hbreaks => ?_⟩
    rw [hr, ht]
    exact h' (wire_of_flushBreaksOff_eq_false hf hbreaks)

/-- And so does a close. Nothing comes behind it, so it does no harm if the flush in it breaks off. -/
theorem Delivers.step_close {r : Response} {t : Transcript} (h : Delivers r t) (hc : r.state ≠ .closed) :
    Step r t .close := by
  have ht : t.deliver ⟨r, .close⟩ = t.record ⟨r, .writeHeaders⟩ := t.deliver_eq_record rfl
  obtain ⟨hpeer, hwire⟩ : (∃ s, r.flush.2.sink = some s) ∧
      r.flush.2.wire <+: (t.record ⟨r, .writeHeaders⟩).stream := by
    -- In both cases of `flush_cases` the peer stays and has only got what was recorded.
    rcases h.flush_cases hc with ⟨r', hf, -, -, -, h'⟩ | ⟨e, r', hf, hpeer, hwire, -⟩
    · rw [hf]
      exact ⟨h'.peer, h'.wire⟩
    · rw [hf]
      exact ⟨hpeer, hwire⟩
  obtain ⟨s, hs⟩ := hpeer
  have hr : r.apply .close = { r.flush.2 with sink := some s.shutdown.2, state := .closed } := by
    simp [apply, Call.perform, close, hc, shutdownSink, hs]
  refine toStep ?_
  rw [hr, ht]
  refine ⟨⟨_, rfl⟩, fun hopen => absurd rfl hopen, ?_⟩
  rwa [wire_of_sink (s := s.shutdown.2) rfl, s.received_shutdown, ← wire_of_sink hs]

/-! ### Every call, and every run -/

/-- Every call makes a `Step`: one that does not send, a flush, a direct write or a close. -/
theorem Delivers.step {r : Response} {t : Transcript} (h : Delivers r t) (c : Call) : Step r t c := by
  by_cases hclosed : r.state = .closed
  · exact toStep (h.apply_of_closed hclosed c)
  · cases c with
    | flush => exact h.step_flush hclosed
    | stream data => exact h.step_stream hclosed data
    | close => exact h.step_close hclosed
    | _ => exact toStep (h.apply_of_not_sends rfl)

/-- From step to run: calls none of which breaks a flush off (`hb`) keep `Delivers`, by induction from the last call on.
-/
theorem Delivers.run {r : Response} (h : Delivers r .blank) {calls : List Call}
    (hb : ∀ m ∈ r.moments calls, m.breaksOff = false) : Delivers (r.run calls) (delivery (r.moments calls)) := by
  -- By induction from the last call, before which no flush `breaksOff` either.
  induction calls using List.reverseRecOn with
  | nil => exact h
  | append_singleton calls c ih =>
    rw [moments_concat] at hb ⊢
    rw [run_concat, delivery_concat]
    have hbefore := ih fun m hm => hb m (List.mem_append_left _ hm)
    exact (hbefore.step c).delivers (hb _ (List.mem_append_right _ (List.mem_singleton.2 rfl)))

/-- Once anything has been received (`hw`), the response is committed, for an uncommitted one `Accounts` that it sent
nothing. -/
theorem Delivers.isCommitted {r : Response} {t : Transcript} (h : Delivers r t) (hw : r.wire ≠ []) :
    r.isCommitted = true := by
  by_cases hclosed : r.state = .closed
  · simp [Response.isCommitted, hclosed]
  · by_contra hopen
    have hnone := (h.accounts hclosed).unsent (Bool.eq_false_iff.2 hopen)
    rw [wire_unhindered] at hnone
    exact hw hnone

/-- **Delivery.** The peer may break writes off as it likes (`policy`), and take later ones again. As long as no flush
was broken off half way that left the response open (`hbreaks`):

* a response from which bytes have been received is committed: `resetBuffer` fails, and the head never changes;
* whatever call `c` comes next, also one that is broken off, all that has been received at any time is the start of one
  stream, the head and the body that the calls asked for. -/
theorem delivered_of_run (protocol : String) (policy : WritePolicy) (failsShutdown : Bool) {calls : List Call}
    (hbreaks : ∀ m ∈ (connected protocol (.fresh policy failsShutdown)).moments calls, m.breaksOff = false) :
    let start := connected protocol (.fresh policy failsShutdown)
    let r := start.run calls
    (r.wire ≠ [] → r.isCommitted = true ∧ r.resetBuffer = (.error .committed, r) ∧
      ∀ more, SameHead r (r.run more)) ∧
    ∀ c earlier, earlier <+: calls ++ [c] →
      (start.run earlier).wire <+: (delivery (start.moments (calls ++ [c]))).stream := by
  intro start r
  have h : Delivers r (delivery (start.moments calls)) :=
    (delivers_connected protocol policy failsShutdown).run hbreaks
  refine ⟨fun hw => ?_, fun c earlier he => ?_⟩
  · have hc := h.isCommitted hw
    exact ⟨hc, by simp [resetBuffer, hc], sameHead_run_of_isCommitted hc⟩
  · -- `c` may break off: `h.step c` is all that is asked of it.
    have hlast : (start.run (calls ++ [c])).wire <+: (delivery (start.moments (calls ++ [c]))).stream := by
      rw [run_concat, moments_concat, delivery_concat]
      exact (h.step c).wire
    exact (wire_isPrefix_run start he).trans hlast

/-- A peer that breaks the write of the number `attempt` off after `bytes`, and takes all others. -/
def breakingOnce (attempt bytes : Nat) : WritePolicy := fun n _ _ => if n = attempt then some bytes else none

/-- Calls of which the fourth, a `stream`, is the third to write to the peer. -/
def streamingCalls : List Call := [.setStatus 404, .write [97], .flush, .stream [98, 99], .write [100]]

/-- A direct write that is broken off after its first byte, and a close behind it. -/
theorem delivered_of_run_streamingCalls :
    let start := connected "HTTP/1.1" (.fresh (breakingOnce 2 1) false)
    (start.run streamingCalls).isCommitted = true ∧
    (start.run (streamingCalls ++ [.close])).wire
      = Text.Utf8.encode "HTTP/1.1 404 Not Found\r\nConnection: close\r\n\r\nabd" ∧
    (start.run (streamingCalls ++ [.close])).wire
      <+: (delivery (start.moments (streamingCalls ++ [.close]))).stream := by
  intro start
  have hbreaks : ∀ m ∈ start.moments streamingCalls, m.breaksOff = false := by decide +kernel
  have hwire : (start.run streamingCalls).wire ≠ [] := by decide +kernel
  obtain ⟨hcommitted, hstream⟩ := delivered_of_run "HTTP/1.1" (breakingOnce 2 1) false hbreaks
  have hlast := hstream .close (streamingCalls ++ [.close])
  exact ⟨(hcommitted hwire).1, by decide +kernel, hlast List.prefix_rfl⟩

/-! ### Flushes that are broken off -/

/-- Completing the head commits nothing. -/
theorem isCommitted_writeHeaders (r : Response) : r.writeHeaders.isCommitted = r.isCommitted := by
  by_cases hn : r.state = .new
  · simp [writeHeaders_of_new hn, isCommitted, hn]
  · rw [writeHeaders_of_ne_new hn]

/-- A flush that fails (`h`) does not commit the response. -/
theorem isCommitted_of_flush_error {r r' : Response} {e : IoError} (h : r.flush = (.error e, r')) :
    r'.isCommitted = r.isCommitted := by
  unfold flush at h
  split at h
  · cases h
  · dsimp only at h
    split at h
    · cases h
    · next s hs =>
      rcases send_cases r.writeHeaders s with ⟨s', hsend, -⟩ | ⟨e', s', hsend, -, -⟩
      · rw [hsend] at h
        cases h
      · rw [hsend] at h
        obtain ⟨-, rfl⟩ := Prod.mk.inj h
        exact isCommitted_writeHeaders r

/-- Nor does a call that breaks it off half way (`h`), though bytes have been received. -/
theorem isCommitted_of_breaksOff {r : Response} {c : Call} (h : (⟨r, c⟩ : Moment).breaksOff = true) :
    (r.apply c).wire ≠ [] ∧ (r.apply c).isCommitted = r.isCommitted := by
  -- `flush` and `stream` stop behind the failed flush.
  obtain ⟨hbreaks, happly⟩ : r.flushBreaksOff = true ∧
      ∀ e r', r.flush = (.error e, r') → r.apply c = r' := by
    cases c with
    | flush => exact ⟨h, fun e r' hf => by simp [apply, Call.perform, hf]⟩
    | stream data => exact ⟨h, fun e r' hf => by simp [apply, Call.perform, stream, hf]⟩
    | _ => simp [Moment.breaksOff] at h
  unfold flushBreaksOff at hbreaks
  split at hbreaks
  · cases hbreaks
  · next e r' hf =>
    have hne : r'.wire ≠ r.wire := by simpa using hbreaks
    have hgrows : r.wire <+: r'.wire := by simpa [hf] using wire_isPrefix_flush r
    rw [happly e r' hf]
    refine ⟨fun hnil => hne ?_, isCommitted_of_flush_error hf⟩
    rw [hnil] at hgrows ⊢
    exact (List.prefix_nil.1 hgrows).symm

/-- Behind a flush that was broken off after five bytes the response starts over with another status; and if the
peer takes bytes again, it gets those five twice. -/
theorem wire_behind_broken_flush :
    let stuck := (connected "HTTP/1.1" (.fresh (.capacity 5) false)).run [.write [104, 105], .flush]
    let again := (connected "HTTP/1.1" (.fresh (breakingOnce 0 5) false)).run [.write [104, 105], .flush, .flush]
    stuck.wire = Text.Utf8.encode "HTTP/" ∧ stuck.isCommitted = false ∧
    (Call.resetBuffer.perform stuck).1 = .ok () ∧ (stuck.run [.resetBuffer, .setStatus 500]).status = 500 ∧
    again.wire = Text.Utf8.encode "HTTP/HTTP/1.1 200 OK\r\nConnection: close\r\n\r\nhi" := by
  refine ⟨by decide +kernel, by decide +kernel, rfl, by decide +kernel, by decide +kernel⟩

end Response

end ServletContainer
