import ServletContainer.Exchange.Basic
import ServletContainer.Proofs.Http.HeadLines
import ServletContainer.Proofs.Response.Wire

namespace ServletContainer

/-!
# Line ends in heads

The texts of an application go into the head as they are. A line end in one of them is a line end of the head.

* `Exchange.Move`, `Exchange.makeAll` — calls to the response of an exchange, and redirects.
* `Exchange.response_makeAll` — a redirect is a few calls as well.
* `Response.KeepsToLines.run` — calls with texts that stay on their lines give a response of such texts.
* `Response.fields_transcript` — the header fields of a complete head are those that the response holds.
* `Exchange.cutHead_of_moves` — the head has its own lines exactly if no text in it has a line end.
* `Exchange.forged_lines` — otherwise a value adds a line, or ends the head.
-/

/-! ### Moves -/

/-- The texts that a `Call` brings into the head. -/
def Response.Call.texts : Response.Call → List String
  | .setStatusWithReason _ reason => [reason]
  | .addHeader name value | .setHeader name value => [name, value]
  | _ => []

/-- What an application does to the response of an exchange. -/
inductive Exchange.Move where
  | call (c : Response.Call)
  | redirect (location : String)

namespace Exchange.Move

/-- The texts that a `Move` brings into the head. -/
def texts : Move → List String
  | .call c => c.texts
  | .redirect location => [location]

/-- The calls to `r` that a `Move` amounts to. A redirect starts the response over, unless it comes too late or within
an include. -/
def calls (r : Response) : Move → List Response.Call
  | .call c => [c]
  | .redirect location =>
    if r.isCommitted || r.locked then []
    else [.resetBuffer, .setStatus StatusCode.found.code, .setHeader "Location" location]

/-- The calls that a move amounts to have texts of the move only, if these keep to their lines (`h`); `Location` does.
-/
theorem staysOnLine_of_mem_calls {m : Move} (h : ∀ s ∈ m.texts, StaysOnLine s) {r : Response} {c : Response.Call}
    (hc : c ∈ m.calls r) : ∀ s ∈ c.texts, StaysOnLine s := by
  cases m with
  | call d =>
    obtain rfl := List.mem_singleton.1 hc
    exact h
  | redirect location =>
    have hlocation : StaysOnLine location := h location (List.mem_singleton_self _)
    have hname : StaysOnLine "Location" := by decide
    simp only [calls] at hc
    split at hc
    · cases hc
    · simp only [List.mem_cons, List.not_mem_nil, or_false] at hc
      rcases hc with rfl | rfl | rfl <;> simp [Response.Call.texts, hname, hlocation]

end Exchange.Move

/-- The calls to `r` that moves amount to, by `Move.calls`. -/
def Response.callsOf (r : Response) : List Exchange.Move → List Response.Call
  | [] => []
  | m :: moves => m.calls r ++ (r.run (m.calls r)).callsOf moves

/-- So it is with several moves, by induction. -/
theorem Response.staysOnLine_of_mem_callsOf {moves : List Exchange.Move}
    (h : ∀ m ∈ moves, ∀ s ∈ m.texts, StaysOnLine s) {r : Response} {c : Response.Call} (hc : c ∈ r.callsOf moves) :
    ∀ s ∈ c.texts, StaysOnLine s := by
  induction moves generalizing r with
  | nil => cases hc
  | cons m moves ih =>
    obtain ⟨hm, hmoves⟩ := List.forall_mem_cons.1 h
    rcases List.mem_append.1 hc with hc | hc
    · exact Exchange.Move.staysOnLine_of_mem_calls hm hc
    · exact ih hmoves hc

namespace Exchange

/-- Carries a `Move` out. -/
def make (x : Exchange) : Move → Exchange
  | .call c => x.mapResponse (·.apply c)
  | .redirect location => (x.sendRedirect location).2

/-- Carries `moves` out in order. -/
def makeAll (x : Exchange) (moves : List Move) : Exchange := moves.foldl make x

/-- To the response a move is the calls that it amounts to. -/
theorem response_make (x : Exchange) (m : Move) : (x.make m).response = x.response.run (m.calls x.response) := by
  cases m with
  | call c => rfl
  | redirect location =>
    show (x.sendRedirect location).2.response = _
    unfold sendRedirect Move.calls
    cases hcommitted : x.response.isCommitted with
    | true => rfl
    | false =>
      cases hlocked : x.response.locked <;> rfl

/-- To the response moves one after the other are `callsOf`, each amounting to calls of the response that it meets. -/
theorem response_makeAll (x : Exchange) (moves : List Move) :
    (x.makeAll moves).response = x.response.run (x.response.callsOf moves) := by
  induction moves generalizing x with
  | nil => rfl
  | cons m moves ih =>
    have hrest : ((x.make m).makeAll moves).response = _ := ih (x.make m)
    rw [response_make] at hrest
    rw [Response.callsOf, Response.run_append]
    exact hrest

end Exchange

namespace Response

/-! ### Texts of a response -/

/-- Whether no text that `r` puts into its head has a line end. -/
structure KeepsToLines (r : Response) : Prop where
  protocol : StaysOnLine r.protocol
  reason : ∀ reason ∈ r.reason, StaysOnLine reason
  fields : ∀ f ∈ r.headers.fields, f.KeepsToLine

/-- A new response keeps to lines if its protocol does (`h`). -/
theorem keepsToLines_connected {protocol : String} (h : StaysOnLine protocol) (sink : Sink) :
    KeepsToLines (connected protocol sink) where
  protocol := by
    have hprotocol : (connected protocol sink).protocol
        = if Text.startsWith "HTTP/" protocol then protocol else "HTTP/1.1" := rfl
    rw [hprotocol]
    split
    · exact h
    · decide
  reason := by simp [connected, detached]
  fields := by simp [connected, detached, Headers.empty]

/-- Adding a field whose name and value keep to their lines (`hname`, `hvalue`) keeps the list so. -/
theorem keepsToLine_append {h : Headers} (hh : ∀ f ∈ h.fields, f.KeepsToLine) {name value : String}
    (hname : StaysOnLine name) (hvalue : StaysOnLine value) : ∀ f ∈ (h.append name value).fields, f.KeepsToLine := by
  intro f hf
  rcases List.mem_append.1 hf with hf | hf
  · exact hh f hf
  · obtain rfl := List.mem_singleton.1 hf
    exact ⟨hname, hvalue⟩

theorem keepsToLine_set {h : Headers} (hh : ∀ f ∈ h.fields, f.KeepsToLine) {name value : String}
    (hname : StaysOnLine name) (hvalue : StaysOnLine value) : ∀ f ∈ (h.set name value).fields, f.KeepsToLine :=
  keepsToLine_append (fun f hf => hh f (List.mem_filter.1 hf).1) hname hvalue

namespace KeepsToLines

variable {r : Response}

/-- `KeepsToLines` is about the head alone. -/
theorem of_sameHead (h : r.KeepsToLines) {r' : Response} (hs : SameHead r r') : r'.KeepsToLines where
  protocol := hs.protocol ▸ h.protocol
  reason := hs.reason ▸ h.reason
  fields := hs.headers ▸ h.fields

/-- Completing the head adds `Connection: close`, which keeps to its line. -/
theorem writeHeaders (h : r.KeepsToLines) : r.writeHeaders.KeepsToLines := by
  by_cases hn : r.state = .new
  · have hline := h.of_sameHead (sameHead_writeStatusLine r)
    have hsent : ∀ f ∈ (sentHeaders r.headers).fields, f.KeepsToLine := by
      unfold sentHeaders
      split
      · exact h.fields
      · exact keepsToLine_append h.fields (by decide) (by decide)
    rw [writeHeaders_of_new hn]
    exact ⟨hline.protocol, hline.reason, hsent⟩
  · rwa [writeHeaders_of_ne_new hn]

/-- So a call brings no line end into the response that is not in the texts of the call (`hc`). -/
theorem apply (h : r.KeepsToLines) {c : Call} (hc : ∀ s ∈ c.texts, StaysOnLine s) : (r.apply c).KeepsToLines := by
  have hchanges := changesHead_apply r c
  generalize r.apply c = r' at hchanges ⊢
  cases hchanges with
  | completes _ hs => exact h.writeHeaders.of_sameHead hs
  | keeps hs => exact h.of_sameHead hs
  | status code _ => exact ⟨h.protocol, by simp, h.fields⟩
  | reason code reason _ => exact ⟨h.protocol, by simpa [Call.texts] using hc, h.fields⟩
  | add name value _ =>
    obtain ⟨hname, hvalue⟩ : StaysOnLine name ∧ StaysOnLine value := by simpa [Call.texts] using hc
    exact ⟨h.protocol, h.reason, keepsToLine_append h.fields hname hvalue⟩
  | set name value _ =>
    obtain ⟨hname, hvalue⟩ : StaysOnLine name ∧ StaysOnLine value := by simpa [Call.texts] using hc
    exact ⟨h.protocol, h.reason, keepsToLine_set h.fields hname hvalue⟩

/-- From step to run by `invariant_run`: calls of texts on their lines give a response that `KeepsToLines`, and meet
only such. -/
theorem run (h : r.KeepsToLines) {calls : List Call} (hc : ∀ c ∈ calls, ∀ s ∈ c.texts, StaysOnLine s) :
    (r.run calls).KeepsToLines ∧ ∀ m ∈ r.moments calls, m.before.KeepsToLines :=
  invariant_run (fun _ _ hr htexts => hr.apply htexts) h fun m hm => hc m.call (call_mem_of_mem_moments hm)

end KeepsToLines

/-! ### The status line -/

/-- The status line of `r` without its end. -/
def statusText (r : Response) : String :=
  match r.reasonPhrase? with
  | some phrase => r.protocol ++ " " ++ toString r.status ++ " " ++ phrase
  | none => r.protocol ++ " " ++ toString r.status

/-- `statusLine` is `statusText` with the line's end. -/
theorem statusLine_eq (r : Response) : r.statusLine = r.statusText ++ "\r\n" := by
  unfold statusLine statusText
  cases r.reasonPhrase? <;> rfl

/-- `statusText` is never empty, for it has spaces. -/
theorem encode_statusText_ne_nil (r : Response) : Text.Utf8.encode r.statusText ≠ [] := by
  apply encode_ne_nil
  unfold statusText
  split <;> simp

/-- Digits are no line ends. -/
theorem staysOnLine_toString (n : Nat) : StaysOnLine (toString n) := by
  have hdigits : ∀ c ∈ (toString n).toList, c.isDigit = true := by
    intro c hc
    rw [show toString n = String.ofList (Nat.toDigits 10 n) from rfl, String.toList_ofList] at hc
    exact Nat.isDigit_of_mem_toDigits (by decide) (by decide) hc
  exact ⟨fun h => absurd (hdigits _ h) (by decide), fun h => absurd (hdigits _ h) (by decide)⟩

/-- No standard reason phrase has one; there are finitely many to look at. -/
theorem staysOnLine_reason (s : StatusCode) : StaysOnLine s.reason := by
  cases s <;> decide

/-- Together: where the response `KeepsToLines`, its status line is one line. -/
theorem KeepsToLines.staysOnLine_statusText {r : Response} (h : r.KeepsToLines) : StaysOnLine r.statusText := by
  have hspace : StaysOnLine " " := by decide
  have hstart : StaysOnLine (r.protocol ++ " " ++ toString r.status) :=
    (h.protocol.append hspace).append (staysOnLine_toString _)
  unfold statusText
  split
  · next phrase hphrase =>
    refine (hstart.append hspace).append ?_
    -- `reasonPhrase?` is the phrase that was set, or that of the status.
    unfold reasonPhrase? at hphrase
    split at hphrase
    · next hreason => exact Option.some.inj hphrase ▸ h.reason _ hreason
    · obtain ⟨s, -, rfl⟩ := Option.map_eq_some_iff.1 hphrase
      exact staysOnLine_reason s
  · exact hstart

/-- The line on record is the status line that the response had at one of the moments. -/
theorem exists_of_transcript_line_eq {ms : List Moment} {line : String} (h : (transcript ms).line = some line) :
    ∃ m ∈ ms, line = m.before.statusLine := by
  obtain ⟨m, hm, hl⟩ := exists_of_findSome?_sinceReset h
  refine ⟨m, hm, ?_⟩
  unfold Moment.line? at hl
  split at hl
  · exact (Option.some.inj hl).symm
  · simp at hl

/-! ### The header fields -/

/-- The header fields of `r`, once its head is complete. -/
def finalHeaders? (r : Response) : Option Headers := if r.state = .new then none else some r.headers

/-- There are no `finalHeaders?` while the response is new (`h`). -/
theorem finalHeaders?_of_new {r : Response} (h : r.state = .new) : r.finalHeaders? = none := if_pos h

/-- Once the head is complete (`h`), `finalHeaders?` are the fields that the response holds. -/
theorem finalHeaders?_of_ne_new {r : Response} (h : r.state ≠ .new) : r.finalHeaders? = some r.headers := if_neg h

/-- With every call the fields on record (`h`) stay those of the response: the call starts over, or completes the head
with `sentHeaders`, or leaves it. -/
theorem fields_record {r : Response} {t : Transcript} (h : t.fields = r.finalHeaders?) (c : Call) :
    (t.record ⟨r, c⟩).fields = (r.apply c).finalHeaders? := by
  -- `startsOver` blanks the transcript, as the response is new again.
  cases hs : (⟨r, c⟩ : Moment).startsOver with
  | true =>
    have hrecord : (t.record ⟨r, c⟩).fields = none := by simp [Transcript.record, hs, Transcript.blank]
    rw [hrecord, finalHeaders?_of_new (state_apply_of_startsOver hs)]
  | false =>
    have hrecord : (t.record ⟨r, c⟩).fields = t.fields.or (⟨r, c⟩ : Moment).fields? := by simp [Transcript.record, hs]
    rw [hrecord, h]
    -- The fields are noted where `c` completes the head, and kept from there on.
    by_cases hn : r.state = .new
    · rw [finalHeaders?_of_new hn, Option.none_or, Moment.fields?]
      by_cases hc : c.completesHead = true
      · have hheaders : (r.apply c).headers = sentHeaders r.headers := by
          rw [(sameHead_of_completesHead r hc).headers, writeHeaders_of_new hn]
        rw [if_pos ⟨hn, hc⟩, finalHeaders?_of_ne_new (state_apply_of_completesHead r hc), hheaders]
      · have hstate := state_of_completesHead_eq_false (by simpa using hc) hs
        rw [if_neg fun h => hc h.2, finalHeaders?_of_new (hstate.trans hn)]
    · rw [finalHeaders?_of_ne_new hn, Option.some_or, finalHeaders?_of_ne_new (state_apply_ne_new hn hs),
        (sameHead_apply hn c).headers]

/-- So they are after any calls to a new response (`h`), by induction from the last one on. -/
theorem fields_transcript {r : Response} (h : r.state = .new) (calls : List Call) :
    (transcript (r.moments calls)).fields = (r.run calls).finalHeaders? := by
  induction calls using List.reverseRecOn with
  | nil => exact (finalHeaders?_of_new h).symm
  | append_singleton calls c ih =>
    rw [run_concat, moments_concat, transcript_concat]
    exact fields_record ih c

end Response

/-! ### Heads -/

namespace Exchange

open Text.Utf8 (encode)

/-- **Line ends.** Let any `moves` be made, calls and redirects, on a new response to a peer that takes everything. Once
the head is complete, what was sent and what is pending is a status line `line`, a line for each name that the response
has a field of, a blank line and the body, and

* each name has one line;
* `cutHead` gives just these lines and the body if and only if neither the status line nor any name or value has a line
  end;
* that is so if none of the texts has one that the application supplied with its moves. -/
theorem cutHead_of_moves (x : Exchange) (protocol : String) (failsShutdown : Bool) (moves : List Move) :
    let start := Response.connected protocol (.fresh .unlimited failsShutdown)
    let r := ({ x with response := start }.makeAll moves).response
    let t := Response.transcript (start.moments (start.callsOf moves))
    r.state ≠ .new → ∃ line, t.line = some (line ++ "\r\n") ∧
      (∀ n, r.headers.contains n = true → (r.headers.names.filter fun m => sameName m n).length = 1) ∧
      (cutHead (r.wire ++ r.head ++ r.body)
          = some (encode line :: r.headers.names.map fun n => encode (n ++ ": " ++ (r.headers.joined? n).getD ""),
            t.body) ↔
        StaysOnLine line ∧ ∀ f ∈ r.headers.fields, f.KeepsToLine) ∧
      (StaysOnLine protocol → (∀ m ∈ moves, ∀ s ∈ m.texts, StaysOnLine s) →
        StaysOnLine line ∧ ∀ f ∈ r.headers.fields, f.KeepsToLine) := by
  intro start r t hne
  have hr : r = start.run (start.callsOf moves) := response_makeAll _ moves
  have hacc : Response.Accounts r t := hr ▸ (Response.accounts_connected protocol failsShutdown).run _
  -- `t.fields` are those of the response, and its bytes are those on record.
  have hfields : t.fields = some r.headers := by
    have hfinal : t.fields = (start.run (start.callsOf moves)).finalHeaders? := Response.fields_transcript rfl _
    rw [hfinal, ← hr, Response.finalHeaders?_of_ne_new hne]
  obtain ⟨whole, hwhole, hbytes⟩ : ∃ whole, t.line = some whole ∧
      encode whole ++ encode r.headers.text ++ encode "\r\n" ++ t.body = r.wire ++ r.head ++ r.body := by
    simpa [Response.Transcript.bytes?, hfields, Option.bind_eq_some_iff] using hacc.finished hne
  -- The line on record was written at moment `m`.
  obtain ⟨m, hm, rfl⟩ := Response.exists_of_transcript_line_eq hwhole
  rw [m.before.statusLine_eq] at hwhole hbytes
  refine ⟨m.before.statusText, hwhole, fun n => Headers.length_filter_names, ?_, ?_⟩
  · -- Folded, the fields have one line for each name, and `cutHead_head_iff` is about such lines.
    have hlines : encode r.headers.text ++ encode "\r\n" = encode (linesOf r.headers.folded.fields) := by
      rw [Headers.text_eq_join_folded, linesOf, Text.Utf8.encode_append]
    have hnames : r.headers.names.map (fun n => encode (n ++ ": " ++ (r.headers.joined? n).getD ""))
        = r.headers.folded.fields.map fun f => encode f.text := by
      rw [Headers.folded, List.map_map]
      rfl
    rw [← hbytes, List.append_assoc _ _ (encode "\r\n"), hlines, List.append_assoc, hnames,
      cutHead_head_iff m.before.encode_statusText_ne_nil, Headers.keepsToLine_folded_iff]
  · -- The status line is the response's at moment `m`, when it kept to its lines like at any other.
    intro hprotocol htexts
    obtain ⟨hend, hmoments⟩ := (Response.keepsToLines_connected hprotocol _).run fun _ hc =>
      Response.staysOnLine_of_mem_callsOf htexts hc
    exact ⟨(hmoments m hm).staysOnLine_statusText, hr ▸ hend.fields⟩

/-- An exchange of `GET /` with a peer that takes everything. -/
def bareGet : Exchange :=
  .start (.ofLine "GET / HTTP/1.1") none (.connected "HTTP/1.1" (.fresh .unlimited false)) 0 []

/-- A draft, a redirect in its place with a reason phrase of its own, and a field in two parts. -/
def welcomeMoves : List Move := [
  .call (.write [104, 105]),
  .redirect "/welcome",
  .call (.setStatusWithReason 307 "Over There"),
  .call (.addHeader "Vary" "Accept"),
  .call (.addHeader "vary" "Cookie"),
  .call (.write [98, 121, 101]),
  .call .flush]

/-- What is sent then has the lines of the redirect, and no body but the one written behind it. -/
theorem cutHead_of_moves_welcome :
    let r := (bareGet.makeAll welcomeMoves).response
    (∀ m ∈ welcomeMoves, ∀ s ∈ m.texts, StaysOnLine s) ∧ r.state ≠ .new ∧
    cutHead (r.wire ++ r.head ++ r.body) = some
      (["HTTP/1.1 307 Over There", "Connection: close", "Location: /welcome", "Vary: Accept,Cookie"].map encode,
        [98, 121, 101]) := by
  intro r
  have htexts : ∀ m ∈ welcomeMoves, ∀ s ∈ m.texts, StaysOnLine s := by decide
  have hne : r.state ≠ .new := by decide +kernel
  obtain ⟨line, hline, -, hcut, hkeeps⟩ := cutHead_of_moves bareGet "HTTP/1.1" false welcomeMoves hne
  have hstatus : line ++ "\r\n" = "HTTP/1.1 307 Over There" ++ "\r\n" :=
    Option.some.inj (hline.symm.trans (by decide +kernel))
  obtain rfl := String.append_left_inj _ |>.1 hstatus
  refine ⟨htexts, hne, (hcut.2 (hkeeps (by decide) htexts)).trans ?_⟩
  decide +kernel

/-- A value with a line end adds a line to the head, for which the response has no field; and where a redirect goes to
an address with two line ends, the head ends with the first line of it, and what follows is the body. -/
theorem forged_lines :
    let noted := (bareGet.makeAll [.call (.setHeader "X-Note" "a\r\nX-Evil: 1"), .call .flush]).response
    let sent := (bareGet.makeAll [.redirect "/\r\n\r\n<h1>", .call .flush]).response
    noted.headers.names = ["X-Note", "Connection"] ∧
    cutHead noted.wire
      = some (["HTTP/1.1 200 OK", "X-Note: a", "X-Evil: 1", "Connection: close"].map encode, []) ∧
    sent.headers.names = ["Location", "Connection"] ∧
    cutHead sent.wire
      = some (["HTTP/1.1 302 Found", "Location: /"].map encode, encode "<h1>\r\nConnection: close\r\n\r\n") := by
  refine ⟨by decide +kernel, by decide +kernel, by decide +kernel, by decide +kernel⟩

end Exchange

end ServletContainer
