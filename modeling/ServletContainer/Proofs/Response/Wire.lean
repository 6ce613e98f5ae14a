import ServletContainer.Proofs.Response.Head

namespace ServletContainer

/-!
# What reaches the peer

A response whose peer takes everything sends exactly what its transcript says, whatever the order of calls.

* `Response.Accounts` — the invariant: the bytes that were sent, the pending head and the pending body are
  together the bytes of the transcript.
* `Response.Accounts.apply` — every call keeps it.
-/

/-! ### A peer that takes everything -/

/-- A sink that takes everything (`h`) takes a write whole, and goes on doing so. -/
theorem Sink.exists_write_eq {s : Sink} (h : s.policy = .unlimited) (data : Bytes) :
    ∃ s', s.write data = (.ok (), s') ∧ s'.policy = .unlimited ∧ s'.received = s.received ++ data := by
  unfold Sink.write
  by_cases hd : data.isEmpty = true
  · rw [if_pos hd]
    exact ⟨s, rfl, h, by simp_all⟩
  · refine ⟨{ s with received := s.received ++ data, attempts := s.attempts + 1 }, ?_, h, rfl⟩
    simp [hd, h, WritePolicy.unlimited]

namespace Response

/-- Whether `r` has a peer that takes everything. -/
def HasOpenSink (r : Response) : Prop := ∃ s, r.sink = some s ∧ s.policy = .unlimited

/-- So `send` hands over all that is pending and commits. -/
theorem exists_send_eq {r : Response} {s : Sink} (h : s.policy = .unlimited) :
    ∃ s', r.send s = (.ok (), { r with sink := some s', head := [], body := [], state := .committed }) ∧
      s'.policy = .unlimited ∧ s'.received = s.received ++ r.head ++ r.body := by
  obtain ⟨s₁, h₁, hp₁, hr₁⟩ := Sink.exists_write_eq h r.head
  obtain ⟨s₂, h₂, hp₂, hr₂⟩ := Sink.exists_write_eq hp₁ r.body
  exact ⟨s₂, by simp [send, h₁, h₂], hp₂, by rw [hr₂, hr₁]⟩

/-! ### The invariant -/

/-- What `r` must be when `t` is its `transcript`. -/
structure Accounts (r : Response) (t : Transcript) : Prop where
  sink : r.HasOpenSink
  /-- Nothing is sent before the response is committed. -/
  unsent : r.isCommitted = false → r.wire = []
  line_ne : ∀ line ∈ t.line, Text.Utf8.encode line ≠ []
  /-- Until the head is complete, at most the status line is written. -/
  unfinished : r.state = .new →
    t.fields = none ∧ t.body = [] ∧ r.body = [] ∧ r.head = (t.line.map Text.Utf8.encode).getD []
  /-- From then on every byte of the transcript is sent or pending, once and in order. -/
  finished : r.state ≠ .new → t.bytes? = some (r.wire ++ r.head ++ r.body)

/-- A new response accounts for the blank transcript. -/
theorem accounts_connected (protocol : String) (failsShutdown : Bool) :
    Accounts (connected protocol (.fresh .unlimited failsShutdown)) .blank where
  sink := ⟨_, rfl, rfl⟩
  unsent _ := rfl
  line_ne := by simp [Transcript.blank]
  unfinished _ := ⟨rfl, rfl, rfl, rfl⟩
  finished h := absurd rfl h

/-- `Accounts` looks at the bytes received and pending and at the state alone. -/
theorem Accounts.congr_wire {r r' : Response} {t : Transcript} (h : Accounts r t) (hs : r'.HasOpenSink)
    (hw : r'.wire = r.wire) (hst : r'.state = r.state) (hh : r'.head = r.head) (hb : r'.body = r.body) :
    Accounts r' t where
  sink := hs
  unsent := by simpa [isCommitted, hw, hst] using h.unsent
  line_ne := h.line_ne
  unfinished := by simpa [hst, hh, hb] using h.unfinished
  finished := by simpa [hw, hst, hh, hb] using h.finished

/-- So `Accounts` carries over to a response with the same sink, state, head and body. -/
theorem Accounts.congr {r r' : Response} {t : Transcript} (h : Accounts r t) (hs : r'.sink = r.sink)
    (hst : r'.state = r.state) (hh : r'.head = r.head) (hb : r'.body = r.body) : Accounts r' t :=
  h.congr_wire (by simpa [HasOpenSink, hs] using h.sink) (by rw [wire, wire, hs]) hst hh hb

theorem encode_ne_nil {s : String} (h : s.toList ≠ []) : Text.Utf8.encode s ≠ [] := by
  obtain ⟨c, l, hc⟩ := List.exists_cons_of_ne_nil h
  simp [Text.Utf8.encode, hc]

/-- A status line has bytes, so that an empty head tells that none is written. -/
theorem encode_statusLine_ne_nil (r : Response) : Text.Utf8.encode r.statusLine ≠ [] := by
  apply encode_ne_nil
  unfold statusLine
  split <;> simp

/-! ### The head -/

/-- `writeStatusLine` keeps the account: it writes the first line since the reset, and does nothing where the head holds
one or is complete. -/
theorem Accounts.writeStatusLine {r : Response} {t : Transcript} (h : Accounts r t) :
    Accounts r.writeStatusLine (t.record ⟨r, .writeStatusLine⟩) := by
  by_cases hn : r.state = .new
  · obtain ⟨hf, hbody, hpending, hhead⟩ := h.unfinished hn
    have ht : t.record ⟨r, .writeStatusLine⟩ = { t with line := t.line.or (some r.statusLine) } := by
      simp [Transcript.record, Moment.startsOver, Moment.line?, Moment.fields?, Moment.bytes, hn]
    rw [ht]
    cases hl : t.line with
    | some line =>
      -- `h.line_ne`: the head holds the first status line, which stays.
      have hne : r.head ≠ [] := by simpa [hhead, hl] using h.line_ne line (by simp [hl])
      have hr : r.writeStatusLine = r := by simp [Response.writeStatusLine, hne]
      rw [hr, Option.some_or, ← hl]
      exact h
    | none =>
      have hr : r.writeStatusLine = { r with head := Text.Utf8.encode r.statusLine } := by
        simp [Response.writeStatusLine, hn, hhead, hl]
      rw [hr]
      refine ⟨h.sink, h.unsent, ?_, fun _ => ⟨hf, hbody, hpending, by simp⟩, fun hne => absurd hn hne⟩
      simpa using encode_statusLine_ne_nil r
  · have hr : r.writeStatusLine = r := by simp [Response.writeStatusLine, hn]
    rw [hr, Transcript.record_of_quiet rfl (by simp [Moment.line?, hn]) (by simp [Moment.fields?, hn]) rfl]
    exact h

/-- `writeHeaders` keeps it too: to the line it adds the fields as they are sent and the blank line, or does nothing. -/
theorem Accounts.writeHeaders {r : Response} {t : Transcript} (h : Accounts r t) :
    Accounts r.writeHeaders (t.record ⟨r, .writeHeaders⟩) := by
  by_cases hn : r.state = .new
  · -- It is `writeStatusLine` first, and nothing was sent of a head that is not complete.
    have hline := h.writeStatusLine
    have hn' : r.writeStatusLine.state = .new := by rw [state_writeStatusLine, hn]
    obtain ⟨hf, hbody, hpending, hhead⟩ := hline.unfinished hn'
    have hwire : r.writeStatusLine.wire = [] := hline.unsent (by simp [isCommitted, hn])
    obtain ⟨line, hl⟩ : ∃ line, (t.record ⟨r, .writeStatusLine⟩).line = some line := by
      cases hl : t.line <;> simp [Transcript.record, Moment.startsOver, Moment.line?, hn, hl]
    have ht : t.record ⟨r, .writeHeaders⟩ =
        { t.record ⟨r, .writeStatusLine⟩ with fields := some (sentHeaders r.headers) } := by
      simp [Transcript.record, Moment.startsOver, Moment.line?, Moment.fields?, Moment.bytes, hn,
        (h.unfinished hn).1]
    rw [ht, writeHeaders_of_new hn]
    refine ⟨hline.sink, fun _ => hwire, hline.line_ne, fun he => absurd he (by simp), fun _ => ?_⟩
    have hw : ∀ r' : Response, r'.sink = r.writeStatusLine.sink → r'.wire = [] := by
      intro r' hs
      rw [← hwire, wire, wire, hs]
    simp [Transcript.bytes?, hl, hhead, hbody, hpending, hw, Text.Utf8.encode_append]
  · have hr : r.writeHeaders = r := by simp [Response.writeHeaders, hn]
    rw [hr, Transcript.record_of_quiet rfl (by simp [Moment.line?, hn]) (by simp [Moment.fields?, hn]) rfl]
    exact h

/-! ### The body and the peer -/

/-- What is written behind a complete head (`hn`) goes behind what is on record. -/
theorem Accounts.append {r : Response} {t : Transcript} (h : Accounts r t) (hn : r.state ≠ .new)
    (data : Bytes) (n : Nat) :
    Accounts { r with body := r.body ++ data, bodyWritten := n } { t with body := t.body ++ data } where
  sink := h.sink
  unsent := h.unsent
  line_ne := h.line_ne
  unfinished he := absurd he hn
  finished _ := by
    have := h.finished hn
    simp only [Transcript.bytes?, Option.bind_eq_bind, Option.bind_eq_some_iff] at this ⊢
    obtain ⟨line, hl, fields, hf, hb⟩ := this
    refine ⟨line, hl, fields, hf, ?_⟩
    simp only [Option.some.injEq] at hb ⊢
    rw [← List.append_assoc, hb, ← List.append_assoc]
    rfl

/-- Flushing an open response (`hc`) completes its head, sends everything and keeps the account. -/
theorem Accounts.exists_flush_eq {r : Response} {t : Transcript} (h : Accounts r t)
    (hc : r.state ≠ .closed) : ∃ r', r.flush = (.ok (), r') ∧ r'.state = .committed ∧ r'.head = [] ∧
      r'.body = [] ∧ Accounts r' (t.record ⟨r, .writeHeaders⟩) := by
  have hw := h.writeHeaders
  obtain ⟨s, hs, hp⟩ := hw.sink
  obtain ⟨s', hsend, hp', hr'⟩ := exists_send_eq (r := r.writeHeaders) hp
  refine ⟨{ r.writeHeaders with sink := some s', head := [], body := [], state := .committed },
    by simp [flush, hc, hs, hsend], rfl, rfl, rfl, ⟨s', rfl, hp'⟩, ?_, hw.line_ne, ?_, ?_⟩
  · intro he
    exact absurd he (by simp [isCommitted])
  · intro he
    exact absurd he (by simp)
  · intro _
    rw [hw.finished (state_writeHeaders_ne_new r)]
    simp [wire, hs, hr']

/-- A call without bytes (`hb`) to a closed response (`hc`) leaves no trace. -/
theorem record_of_closed {r : Response} (hc : r.state = .closed) (t : Transcript) {c : Call}
    (hb : (⟨r, c⟩ : Moment).bytes = []) : t.record ⟨r, c⟩ = t := by
  have hn : r.state ≠ .new := by simp [hc]
  apply Transcript.record_of_quiet
  · unfold Moment.startsOver
    split <;> simp [isCommitted, hc]
  · simp [Moment.line?, hn]
  · simp [Moment.fields?, hn]
  · exact hb

/-- A write to an open response (`hc`) has all its bytes on record. -/
theorem bytes_write {r : Response} (hc : r.state ≠ .closed) (data : Bytes) :
    (⟨r, .write data⟩ : Moment).bytes = data := by
  simp [Moment.bytes, Moment.succeeds, Call.perform, Response.write, hc, Except.mapError]

/-- A write keeps the account: it completes the head and adds its bytes, or is refused. -/
theorem Accounts.write {r : Response} {t : Transcript} (h : Accounts r t) (data : Bytes) :
    Accounts (r.apply (.write data)) (t.record ⟨r, .write data⟩) := by
  by_cases hc : r.state = .closed
  · have hw : r.write data = (.error .responseClosed, r) := by simp [Response.write, hc]
    rw [record_of_closed hc t (by simp [Moment.bytes, Moment.succeeds, Call.perform, hw, Except.mapError])]
    simpa [apply, Call.perform, hw] using h
  · have hw : r.write data = (.ok (), { r.writeHeaders with
        body := r.writeHeaders.body ++ data
        bodyWritten := r.writeHeaders.bodyWritten + data.length }) := by
      simp [Response.write, hc]
    rw [t.record_eq_of_completes (c := .write data) rfl rfl rfl, bytes_write hc]
    simpa [apply, Call.perform, hw] using h.writeHeaders.append (state_writeHeaders_ne_new r) data _

/-- A flush keeps the account: it completes the head, and sends what is on record. -/
theorem Accounts.flush {r : Response} {t : Transcript} (h : Accounts r t) :
    Accounts (r.apply .flush) (t.record ⟨r, .flush⟩) := by
  by_cases hc : r.state = .closed
  · have hf : r.flush = (.ok (), r) := by simp [Response.flush, hc]
    rw [record_of_closed hc t rfl]
    simpa [apply, Call.perform, hf] using h
  · obtain ⟨r', hf, -, -, -, h'⟩ := h.exists_flush_eq hc
    have ht : t.record ⟨r, .flush⟩ = t.record ⟨r, .writeHeaders⟩ := rfl
    rw [ht]
    simpa [apply, Call.perform, hf] using h'

/-- A direct write keeps the account: it sends what is pending and then its own bytes. -/
theorem Accounts.stream {r : Response} {t : Transcript} (h : Accounts r t) (data : Bytes) :
    Accounts (r.apply (.stream data)) (t.record ⟨r, .stream data⟩) := by
  by_cases hc : r.state = .closed
  · obtain ⟨s, hs, -⟩ := h.sink
    have hw : r.stream data = (.error .noOpenStream, r) := by
      simp [Response.stream, Response.flush, hc, hs]
    rw [record_of_closed hc t (by simp [Moment.bytes, Moment.succeeds, Call.perform, hw, Except.mapError])]
    simpa [apply, Call.perform, hw] using h
  · obtain ⟨r', hf, hst, hhead, hbody, h'⟩ := h.exists_flush_eq hc
    obtain ⟨s, hs, hp⟩ := h'.sink
    obtain ⟨s', hwrite, hp', hr'⟩ := Sink.exists_write_eq hp data
    have hw : r.stream data = (.ok (), { r' with sink := some s' }) := by
      simp [Response.stream, hf, hs, hst, hwrite]
    have hb : (⟨r, .stream data⟩ : Moment).bytes = data := by
      simp [Moment.bytes, Moment.succeeds, Call.perform, hw, Except.mapError]
    rw [t.record_eq_of_completes (c := .stream data) rfl rfl rfl, hb]
    -- `flush` has left nothing pending, so what is sent directly comes right behind what was sent before.
    have hn : r'.state ≠ .new := by simp [hst]
    have happ := h'.append hn data r'.bodyWritten
    refine ⟨⟨s', by simp [apply, Call.perform, hw], hp'⟩, fun he => ?_, happ.line_ne, fun he => ?_, fun _ => ?_⟩
    · simp [apply, Call.perform, hw, isCommitted, hst] at he
    · simp [apply, Call.perform, hw, hst] at he
    · rw [happ.finished hn]
      simp [apply, Call.perform, hw, wire, hs, hr', hhead, hbody]

/-- A close keeps the account: it sends what is pending and then shuts down. -/
theorem Accounts.close {r : Response} {t : Transcript} (h : Accounts r t) :
    Accounts (r.apply .close) (t.record ⟨r, .close⟩) := by
  by_cases hc : r.state = .closed
  · have hf : r.close = (.ok (), r) := by simp [Response.close, hc]
    rw [record_of_closed hc t rfl]
    simpa [apply, Call.perform, hf] using h
  · obtain ⟨r', hf, hst, hhead, hbody, h'⟩ := h.exists_flush_eq hc
    obtain ⟨s, hs, hp⟩ := h'.sink
    -- For the transcript, `close` completes the head as `writeHeaders` does.
    have ht : t.record ⟨r, .close⟩ = t.record ⟨r, .writeHeaders⟩ := rfl
    rw [ht]
    have hr : r.apply .close = { r' with sink := some s.shutdown.2, state := .closed } := by
      simp [apply, Call.perform, Response.close, hc, hf, shutdownSink, hs]
    have hsd : s.shutdown.2.policy = s.policy ∧ s.shutdown.2.received = s.received := by
      unfold Sink.shutdown
      split <;> simp
    rw [hr]
    refine ⟨⟨_, rfl, hsd.1.trans hp⟩, fun he => absurd he (by simp [isCommitted]), h'.line_ne,
      fun he => absurd he (by simp), fun _ => ?_⟩
    rw [h'.finished (by simp [hst])]
    simp [wire, hs, hsd.2]

/-- A reset keeps the account: it starts over with nothing sent, or does nothing. -/
theorem Accounts.resetBuffer {r : Response} {t : Transcript} (h : Accounts r t) :
    Accounts (r.apply .resetBuffer) (t.record ⟨r, .resetBuffer⟩) := by
  cases hs : (⟨r, .resetBuffer⟩ : Moment).startsOver with
  | true =>
    simp only [Moment.startsOver, Bool.and_eq_true, Bool.not_eq_true'] at hs
    have hr : r.apply .resetBuffer = { r with head := [], body := [], bodyWritten := 0, state := .new } := by
      simp [apply, Call.perform, Response.resetBuffer, hs]
    have ht : t.record ⟨r, .resetBuffer⟩ = .blank := by
      simp [Transcript.record, Moment.startsOver, hs]
    rw [hr, ht]
    -- Where `resetBuffer` starts over, the response was not committed, so by `h.unsent` nothing was sent.
    refine ⟨h.sink, fun _ => h.unsent hs.1, by simp [Transcript.blank], fun _ => ⟨rfl, rfl, rfl, rfl⟩, ?_⟩
    intro he
    exact absurd rfl he
  | false =>
    have hr : r.apply .resetBuffer = r := by
      simp only [Moment.startsOver, Bool.and_eq_false_iff, Bool.not_eq_false'] at hs
      cases hc : r.isCommitted <;> simp_all [apply, Call.perform, Response.resetBuffer]
    rw [hr, t.record_of_writesLine_eq_false hs rfl]
    exact h

/-! ### Every call, and every run -/

/-- The calls that set up the head touch no bytes; `hr` says what such a call is, the other hypotheses what it leaves.
-/
theorem Accounts.of_headIsMutable {r r' : Response} {t : Transcript} (h : Accounts r t) {c : Call}
    (hc : c.writesLine = false) (hreset : (⟨r, c⟩ : Moment).startsOver = false)
    (hr : r.apply c = if r.headIsMutable then r' else r)
    (hs : r'.sink = r.sink) (hst : r'.state = r.state) (hh : r'.head = r.head) (hb : r'.body = r.body) :
    Accounts (r.apply c) (t.record ⟨r, c⟩) := by
  rw [t.record_of_writesLine_eq_false hreset hc, hr]
  split
  · exact h.congr hs hst hh hb
  · exact h

/-- Together: every call keeps the account. One case for each call. -/
theorem Accounts.apply {r : Response} {t : Transcript} (h : Accounts r t) (c : Call) :
    Accounts (r.apply c) (t.record ⟨r, c⟩) := by
  cases c with
  | setStatus code => exact h.of_headIsMutable rfl rfl rfl rfl rfl rfl rfl
  | setStatusWithReason code reason => exact h.of_headIsMutable rfl rfl rfl rfl rfl rfl rfl
  | addHeader name value => exact h.of_headIsMutable rfl rfl rfl rfl rfl rfl rfl
  | setHeader name value => exact h.of_headIsMutable rfl rfl rfl rfl rfl rfl rfl
  -- `setLocked` touches neither the head nor what has been written.
  | setLocked locked =>
    rw [t.record_of_writesLine_eq_false rfl rfl]
    exact h.congr rfl rfl rfl rfl
  | writeStatusLine => exact h.writeStatusLine
  | writeHeaders => exact h.writeHeaders
  | write data => exact h.write data
  | flush => exact h.flush
  | stream data => exact h.stream data
  | resetBuffer => exact h.resetBuffer
  | close => exact h.close

/-- So does every sequence of calls, by induction from the last one on. -/
theorem Accounts.run {r : Response} (h : Accounts r .blank) (calls : List Call) :
    Accounts (r.run calls) (transcript (r.moments calls)) := by
  induction calls using List.reverseRecOn with
  | nil => exact h
  | append_singleton calls c ih =>
    rw [run_concat, moments_concat, transcript_concat]
    exact ih.apply c

/-- The fields on record are what `sentHeaders` gave of those that the response had at one of the moments. -/
theorem exists_of_transcript_fields_eq {ms : List Moment} {fields : Headers}
    (h : (transcript ms).fields = some fields) : ∃ m ∈ ms, fields = sentHeaders m.before.headers := by
  obtain ⟨m, hm, hf⟩ := exists_of_findSome?_sinceReset h
  refine ⟨m, hm, ?_⟩
  unfold Moment.fields? at hf
  split at hf
  · exact (Option.some.inj hf).symm
  · simp at hf

/-- **The wire.** After any calls to a response whose peer takes everything:

* nothing is sent before the response is committed;
* once the head is complete, what was sent, the pending head and the pending body are together the first status line
  that was written since the last reset, the fields as they stood when the head was completed, a blank line, and all
  bytes written to the body since the reset, in order;
* these fields have one line for the connection, which says `close` unless the application has a field of its own for
  it;
* a complete head stays as it is until the response starts over, and a committed head stays for good;
* nothing more is written to a closed response: calls change its lock at most, and bytes are refused. -/
theorem wire_run (protocol : String) (failsShutdown : Bool) (calls : List Call) :
    let start := connected protocol (.fresh .unlimited failsShutdown)
    let r := start.run calls
    let t := transcript (start.moments calls)
    (r.isCommitted = false → r.wire = []) ∧
    (r.state ≠ .new → ∃ line fields, t.line = some line ∧ t.fields = some fields ∧
      r.wire ++ r.head ++ r.body = Text.Utf8.encode line ++ Text.Utf8.encode fields.text
        ++ Text.Utf8.encode "\r\n" ++ t.body ∧
      (fields.names.filter fun n => sameName n "connection").length = 1 ∧
      ((∀ m ∈ start.moments calls, m.names "connection" = false) →
        fields.joined? "connection" = some "close")) ∧
    (r.state ≠ .new → ∀ more, (∀ m ∈ r.moments more, m.startsOver = false) → SameHead r (r.run more)) ∧
    (r.isCommitted = true → ∀ more, SameHead r (r.run more)) ∧
    (r.state = .closed → ∀ more, ∃ locked, r.run more = { r with locked := locked } ∧
      ∀ data, ((Call.write data).perform (r.run more)).1 = .error (.io .responseClosed) ∧
        ((Call.stream data).perform (r.run more)).1 = .error (.io .noOpenStream)) := by
  intro start r t
  have hacc : Accounts r t := (accounts_connected protocol failsShutdown).run calls
  refine ⟨hacc.unsent, ?_, ?_, sameHead_run_of_isCommitted, ?_⟩
  · intro hn
    have hbytes := hacc.finished hn
    simp only [Transcript.bytes?, Option.bind_eq_bind, Option.bind_eq_some_iff, Option.some.injEq] at hbytes
    obtain ⟨line, hl, fields, hf, hb⟩ := hbytes
    obtain ⟨m, hm, hfm⟩ := exists_of_transcript_fields_eq hf
    refine ⟨line, fields, hl, hf, hb.symm, ?_, ?_⟩
    · exact Headers.length_filter_names (hfm ▸ contains_sentHeaders _)
    · -- The fields were completed at moment `m`, and no call had named the connection until then.
      intro hnames
      have hcloses : AtMostCloses m.before.headers := (atMostCloses_run (.inl rfl) hnames).2 m hm
      have hget : fields.getAll "connection" = ["close"] := by
        rw [hfm]
        exact hcloses.getAll_sentHeaders
      simp [Headers.joined?, hget, Headers.joinValues]
  · intro hn more hs
    exact (sameHead_run hn more hs).1
  · intro hc more
    obtain ⟨locked, hr⟩ := exists_run_eq_of_closed hc more
    exact ⟨locked, hr, fun data => perform_of_closed (by rw [hr]; exact hc) data⟩

/-- A draft that is thrown away, a locked phase, a direct write and the end. -/
theorem wire_run_reset :
    let r := (connected "HTTP/1.0" (.fresh .unlimited false)).run
      [.write [97], .resetBuffer, .setStatus 404, .setLocked true, .setStatus 500, .write [98], .flush,
        .setLocked false, .stream [99], .close]
    r.state ≠ .new ∧ r.wire ++ r.head ++ r.body
      = Text.Utf8.encode "HTTP/1.0 404 Not Found\r\nConnection: close\r\n\r\nbc" := by
  intro r
  have hn : r.state ≠ .new := by decide
  obtain ⟨line, fields, hl, hf, hb, -⟩ := (wire_run "HTTP/1.0" false _).2.1 hn
  refine ⟨hn, hb.trans ?_⟩
  have hline : line = "HTTP/1.0 404 Not Found\r\n" := Option.some.inj (hl.symm.trans rfl)
  have hfields : fields = ⟨[⟨"Connection", "close"⟩]⟩ := Option.some.inj (hf.symm.trans rfl)
  rw [hline, hfields]
  rfl

end Response

end ServletContainer
