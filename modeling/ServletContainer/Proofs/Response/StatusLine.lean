import ServletContainer.Proofs.Response.Wire

namespace ServletContainer

/-!
# The status line and the status

The status line of a response is written once, and the status can still be set until the header fields follow.

* `Response.reportedLine` — the status line of what a response reports.
* `Response.Moment.asksLine?` — the status line that a call asks for by setting the status.
* `Response.revisedLine?` — the last one asked for since the status line was written.
* `Response.reportedLine_eq` — what a response reports is the line that was written, or else the one asked for since.
* `Response.statusLine_run` — so a complete head tells what is reported if and only if no other line was asked for.
-/

namespace Response

/-- The status line of what `r` reports: protocol, status and reason phrase, if there is one. The phrase is the one that
was set, or else the one that belongs to the status. -/
def reportedLine (r : Response) : String :=
  " ".intercalate (r.protocol :: toString r.status ::
    (r.reason.or ((StatusCode.ofCode? r.status).map StatusCode.reason)).toList) ++ "\r\n"

/-- `statusLine` writes what `reportedLine` reports. By cases of where the phrase comes from. -/
theorem statusLine_eq_reportedLine (r : Response) : r.statusLine = r.reportedLine := by
  have hphrase : r.reasonPhrase? = r.reason.or ((StatusCode.ofCode? r.status).map StatusCode.reason) := by
    unfold reasonPhrase?
    cases r.reason <;> rfl
  rw [statusLine, reportedLine, ← hphrase]
  cases r.reasonPhrase? <;> rfl

/-- `reportedLine` looks at protocol, status and reason phrase alone. -/
theorem reportedLine_of_sameHead {r r' : Response} (h : SameHead r r') : r'.reportedLine = r.reportedLine := by
  rw [reportedLine, reportedLine, h.protocol, h.status, h.reason]

/-- `writeHeaders` does not touch what is reported. -/
theorem reportedLine_writeHeaders (r : Response) : r.writeHeaders.reportedLine = r.reportedLine := by
  unfold writeHeaders
  split
  · -- `reportedLine` reads neither header fields nor the state.
    exact (reportedLine_of_sameHead (sameHead_writeStatusLine r) :)
  · rfl

/-! ### Lines asked for -/

/-- Whether the call sets the status. -/
@[simp] def Call.setsStatus : Call → Bool
  | .setStatus _ | .setStatusWithReason _ _ => true
  | _ => false

/-- The status line that the call of `m` asks for by setting the status. -/
def Moment.asksLine? (m : Moment) : Option String :=
  if m.call.setsStatus ∧ m.before.headIsMutable then some (m.before.apply m.call).reportedLine else none

/-- The moments of `ms` since the status line was written, the one that wrote it first. -/
def sinceLine (ms : List Moment) : List Moment := (sinceReset ms).dropWhile fun m => m.line?.isNone

/-- The last status line that was asked for in `sinceLine ms`. -/
def revisedLine? (ms : List Moment) : Option String := ((sinceLine ms).filterMap Moment.asksLine?).getLast?

/-- The line that a call writes (`h`) is the one of what is reported when the call is made. -/
theorem eq_reportedLine_of_line? {m : Moment} {line : String} (h : m.line? = some line) :
    line = m.before.reportedLine := by
  rw [Moment.line?] at h
  split at h
  · rw [← Option.some.inj h, statusLine_eq_reportedLine]
  · cases h

/-- A call that writes the status line (`h`) does not set the status. -/
theorem asksLine?_of_line? {m : Moment} {line : String} (h : m.line? = some line) : m.asksLine? = none := by
  obtain ⟨r, c⟩ := m
  cases c <;> simp_all [Moment.line?, Moment.asksLine?]

/-- What is reported after a call is the line that the call asks for, or else what was reported before. By the cases of
`ChangesHead`. -/
theorem reportedLine_apply (r : Response) (c : Call) :
    (r.apply c).reportedLine = ((⟨r, c⟩ : Moment).asksLine?).getD r.reportedLine := by
  by_cases hasks : c.setsStatus = true ∧ r.headIsMutable = true
  · rw [Moment.asksLine?, if_pos hasks, Option.getD_some]
  · rw [Moment.asksLine?, if_neg hasks, Option.getD_none]
    have hchanges := changesHead_apply r c
    generalize r.apply c = r' at hchanges ⊢
    cases hchanges with
    | completes _ hs => rw [reportedLine_of_sameHead hs, reportedLine_writeHeaders]
    | keeps hs => exact reportedLine_of_sameHead hs
    | status code hm => exact absurd ⟨rfl, hm⟩ hasks
    | reason code reason hm => exact absurd ⟨rfl, hm⟩ hasks
    | add _ _ _ | set _ _ _ => rfl

/-! ### Calls in order -/

section Concat

variable {ms : List Moment} {m : Moment}

/-- A moment that does not start over (`hs`) adds itself to those since the last reset. -/
theorem sinceReset_concat (hs : m.startsOver = false) : sinceReset (ms ++ [m]) = sinceReset ms ++ [m] := by
  simp [sinceReset, hs]

/-- `sinceLine` is empty as long as no line is on record. -/
theorem sinceLine_eq_nil_iff : sinceLine ms = [] ↔ (transcript ms).line = none := by
  simp [sinceLine, transcript, List.dropWhile_eq_nil_iff]

/-- Once one is, it is what the first moment of `sinceLine` writes. -/
theorem line_transcript (ms : List Moment) : (transcript ms).line = (sinceLine ms).head?.bind Moment.line? := by
  show (sinceReset ms).findSome? _ = ((sinceReset ms).dropWhile fun m => m.line?.isNone).head?.bind Moment.line?
  induction sinceReset ms with
  | nil => rfl
  | cons m rest ih => cases hm : m.line? <;> simp [hm, ih]

/-- A moment that writes the line (`hline`, `hm`) leaves nothing revised. -/
theorem revisedLine?_concat_of_none (hs : m.startsOver = false) (hline : (transcript ms).line = none) {line : String}
    (hm : m.line? = some line) : revisedLine? (ms ++ [m]) = none := by
  have hnil : (sinceReset ms).dropWhile (fun m => m.line?.isNone) = [] := sinceLine_eq_nil_iff.2 hline
  have hsince : sinceLine (ms ++ [m]) = [m] := by
    rw [sinceLine, sinceReset_concat hs, List.dropWhile_append, hnil]
    simp [hm]
  simp [revisedLine?, hsince, asksLine?_of_line? hm]

/-- A moment behind the line (`hline`) revises it if it asks for another. -/
theorem revisedLine?_concat_of_some (hs : m.startsOver = false) {line : String}
    (hline : (transcript ms).line = some line) :
    revisedLine? (ms ++ [m]) = m.asksLine?.or (revisedLine? ms) := by
  have hne : sinceLine ms ≠ [] := fun hnil => by
    rw [sinceLine_eq_nil_iff, hline] at hnil
    cases hnil
  have hsince : sinceLine (ms ++ [m]) = sinceLine ms ++ [m] := by
    rw [sinceLine, sinceReset_concat hs, List.dropWhile_append, if_neg (by rwa [List.isEmpty_iff])]
    rfl
  rw [revisedLine?, hsince, List.filterMap_append, List.getLast?_append]
  cases hasks : m.asksLine? <;> simp [hasks, revisedLine?]

end Concat

/-- Once the status line is written, what is reported is that line, or else the last one asked for since. By induction
on the calls, from the last one on, which starts over, writes the line or comes behind it. -/
theorem reportedLine_eq (start : Response) (calls : List Call) :
    ∀ line ∈ (transcript (start.moments calls)).line,
      (start.run calls).reportedLine = (revisedLine? (start.moments calls)).getD line := by
  induction calls using List.reverseRecOn with
  | nil => nofun
  | append_singleton calls c ih =>
    intro line hline
    rw [moments_concat] at hline ⊢
    rw [run_concat, reportedLine_apply]
    rw [transcript_concat, Transcript.record] at hline
    cases hs : (⟨start.run calls, c⟩ : Moment).startsOver with
    -- A reset leaves `Transcript.blank`, so there is no line to speak of.
    | true => simp [hs, Transcript.blank] at hline
    | false =>
      simp only [hs, Bool.false_eq_true, if_false, Option.mem_def] at hline
      cases hwritten : (transcript (start.moments calls)).line with
      | none =>
        -- `c` writes the line, of what is reported then.
        rw [hwritten, Option.none_or] at hline
        rw [revisedLine?_concat_of_none hs hwritten hline, asksLine?_of_line? hline, Option.getD_none, Option.getD_none]
        exact (eq_reportedLine_of_line? hline).symm
      | some written =>
        rw [hwritten, Option.some_or] at hline
        obtain rfl := Option.some.inj hline
        rw [revisedLine?_concat_of_some hs hwritten, ih written hwritten]
        cases (⟨start.run calls, c⟩ : Moment).asksLine? <;> rfl

/-! ### The head that is sent -/

/-- **The status line.** After any calls to a response whose peer takes everything, once the head is complete:

* what was sent and what is pending begin with one status line, `line`, which is the one of what the response reported
  when the line was written;
* what the response reports now is that line, or else the last one that was asked for since by setting the status
  (`revisedLine?`);
* so the two agree if and only if none was asked for since, or the last one is the same. -/
theorem statusLine_run (protocol : String) (failsShutdown : Bool) (calls : List Call) :
    let start := connected protocol (.fresh .unlimited failsShutdown)
    let r := start.run calls
    let ms := start.moments calls
    r.state ≠ .new → ∃ line rest,
      r.wire ++ r.head ++ r.body = Text.Utf8.encode line ++ rest ∧
      (∃ m, (sinceLine ms).head? = some m ∧ line = m.before.reportedLine) ∧
      r.reportedLine = (revisedLine? ms).getD line ∧
      (line = r.reportedLine ↔ ∀ revised ∈ revisedLine? ms, revised = line) := by
  intro start r ms hn
  -- By `Accounts.finished` the transcript has a line, so some call since the reset has written one.
  have hbytes := ((accounts_connected protocol failsShutdown).run calls).finished hn
  simp only [Transcript.bytes?, Option.bind_eq_bind, Option.bind_eq_some_iff, Option.some.injEq] at hbytes
  obtain ⟨line, hline, fields, -, hb⟩ := hbytes
  obtain ⟨m, hm, hwritten⟩ := Option.bind_eq_some_iff.1 (line_transcript ms ▸ hline)
  have hreported : r.reportedLine = (revisedLine? ms).getD line := reportedLine_eq start calls line hline
  refine ⟨line, _, by rw [← hb, List.append_assoc, List.append_assoc], ⟨m, hm, eq_reportedLine_of_line? hwritten⟩,
    hreported, ?_⟩
  rw [hreported]
  cases revisedLine? ms <;> simp [eq_comm]

/-- A draft whose status was set too late is thrown away, and the response starts over with the status set so far. -/
theorem statusLine_run_reset :
    let start := connected "HTTP/1.1" (.fresh .unlimited false)
    let calls : List Call := [.writeStatusLine, .setStatus 404, .resetBuffer, .setStatusWithReason 404 "Gone fishing",
      .write [97], .flush]
    (start.run calls).state ≠ .new ∧ revisedLine? (start.moments calls) = none ∧
    Text.Utf8.encode (start.run calls).reportedLine <+: (start.run calls).wire ∧
    (start.run calls).reportedLine = "HTTP/1.1 404 Gone fishing\r\n" := by
  intro start calls
  have hn : (start.run calls).state ≠ .new := by decide
  have hrevised : revisedLine? (start.moments calls) = none := by decide +kernel
  obtain ⟨line, rest, hb, -, hreported, -⟩ := statusLine_run "HTTP/1.1" false calls hn
  have hline : line = (start.run calls).reportedLine := by
    rw [hreported, hrevised]
    rfl
  -- Everything has been flushed, so that the line begins the wire.
  have hsent : (start.run calls).head ++ (start.run calls).body = [] := by decide +kernel
  rw [List.append_assoc, hsent, List.append_nil, hline] at hb
  exact ⟨hn, hrevised, ⟨rest, hb.symm⟩, by decide +kernel⟩

/-- A status that is set behind the status line is reported, and the peer is told another. -/
theorem reportedLine_ne_of_late_status :
    let r := (connected "HTTP/1.1" (.fresh .unlimited false)).run [.writeStatusLine, .setStatus 404, .writeHeaders]
    r.state = .headersWritten ∧ r.status = 404 ∧ r.reportedLine = "HTTP/1.1 404 Not Found\r\n" ∧
    r.head = Text.Utf8.encode "HTTP/1.1 200 OK\r\nConnection: close\r\n\r\n" ∧
    ¬ Text.Utf8.encode r.reportedLine <+: r.wire ++ r.head ++ r.body := by
  decide +kernel

end Response

end ServletContainer
