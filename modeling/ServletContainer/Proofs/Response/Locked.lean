import Mathlib.Data.List.Infix
import ServletContainer.Proofs.Response.Delivery

namespace ServletContainer

/-!
# Locked responses

An include locks the response. Calls can then complete the head and add to what is written, and nothing else.

* `Response.output` — all that is written: what reached the peer, and what is pending behind it.
* `Response.Sound` — no write to the peer fails, and a body stands only behind a head.
* `Response.Extends` — the same head, apart from the field that closes the connection, and at least the output.
* `Response.Sound.apply` — calls keep a response sound.
* `Response.Sound.extends_apply` — what a call does to a sound response that is locked.
-/

namespace Sink

variable (s : Sink)

/-- A write leaves the sink's policy. -/
theorem policy_write (data : Bytes) : (s.write data).2.policy = s.policy := by
  unfold write
  split
  · rfl
  · split <;> rfl

/-- Shutting down leaves the sink's policy. -/
theorem policy_shutdown : s.shutdown.2.policy = s.policy := by
  unfold shutdown
  split <;> rfl

end Sink

namespace Response

/-- All that is written to `r`: what reached the peer, the pending head and the pending body. -/
def output (r : Response) : Bytes := r.wire ++ r.head ++ r.body

/-- Which writes of `r` break off, if there is a peer. -/
def policy? (r : Response) : Option WritePolicy := r.sink.map Sink.policy

/-- Whether no write of `r` to a peer can fail, and a body stands only behind a head. -/
structure Sound (r : Response) : Prop where
  policy : ∀ p, r.policy? = some p → p = .unlimited
  body : r.BodyBehindHead

/-- Whether `r'` has the head of `r`, apart from the field that closes the connection, and all of its output. -/
structure Extends (r r' : Response) : Prop where
  protocol : r'.protocol = r.protocol
  status : r'.status = r.status
  reason : r'.reason = r.reason
  headers : r'.headers = r.headers ∨ r'.headers = sentHeaders r.headers
  output : r.output <+: r'.output

/-- What `sentHeaders` adds, it finds there the second time. -/
theorem sentHeaders_sentHeaders (h : Headers) : sentHeaders (sentHeaders h) = sentHeaders h := by
  rw [sentHeaders, if_pos (contains_sentHeaders h)]

namespace Extends

variable {r s t : Response}

/-- A response `Extends` itself. -/
theorem refl (r : Response) : Extends r r := ⟨rfl, rfl, rfl, .inl rfl, List.prefix_rfl⟩

/-- What extends an extension `Extends` the response, since `sentHeaders` adds its field at most once. -/
theorem trans (h : Extends r s) (h' : Extends s t) : Extends r t where
  protocol := h'.protocol.trans h.protocol
  status := h'.status.trans h.status
  reason := h'.reason.trans h.reason
  headers := by
    -- `Connection: close` is added once, by `sentHeaders_sentHeaders`.
    rcases h'.headers with h₁ | h₁ <;> rcases h.headers with h₂ | h₂ <;> simp [h₁, h₂, sentHeaders_sentHeaders]
  output := h.output.trans h'.output

/-- With the same head (`h`), more output (`ho`) is all there is to show. -/
theorem of_sameHead (h : SameHead r s) (ho : r.output <+: s.output) : Extends r s :=
  ⟨h.protocol, h.status, h.reason, .inl h.headers, ho⟩

end Extends

/-! ### The peer -/

variable (r : Response)

/-- `policy?` depends on the sink alone. -/
theorem policy?_of_sink {r r' : Response} (h : r'.sink = r.sink) : r'.policy? = r.policy? := by
  rw [policy?, policy?, h]

/-- Both writes of `send` keep the policy. -/
theorem policy?_send (s : Sink) : (r.send s).2.policy? = some s.policy := by
  unfold send
  have hhead := s.policy_write r.head
  -- `r.head` goes first, and `r.body` only behind a head that went through.
  split
  · next hw =>
    rw [hw] at hhead
    exact congrArg some hhead
  · next sent hw =>
    rw [hw] at hhead
    have hbody := sent.policy_write r.body
    split
    · next hw' =>
      rw [hw'] at hbody
      exact congrArg some (hbody.trans hhead)
    · next hw' =>
      rw [hw'] at hbody
      exact congrArg some (hbody.trans hhead)

/-- A flush keeps the policy. -/
theorem policy?_flush : r.flush.2.policy? = r.policy? := by
  unfold flush
  split
  · rfl
  · have hsink := r.sink_writeHeaders
    dsimp only
    split
    · exact policy?_of_sink hsink
    · next s hs =>
      rw [policy?_send, policy?, ← hsink, hs]
      rfl

/-- A direct write keeps the policy. -/
theorem policy?_stream (data : Bytes) : (r.stream data).2.policy? = r.policy? := by
  have hflush := r.policy?_flush
  unfold stream
  split
  · next h => simpa [h] using hflush
  · next h =>
    rw [h] at hflush
    split
    · exact hflush
    · next s hs =>
      split
      · rw [← hflush, policy?, policy?, hs]
        exact congrArg some (s.policy_write data)
      · exact hflush

/-- A close keeps the policy. -/
theorem policy?_close : r.close.2.policy? = r.policy? := by
  unfold close
  split
  · rfl
  · rw [← r.policy?_flush]
    show r.flush.2.shutdownSink.2.policy? = _
    unfold shutdownSink
    split
    · rfl
    · next s hs =>
      rw [policy?, policy?, hs]
      exact congrArg some s.policy_shutdown

/-- So no call changes which writes break off; those that do not go to the peer leave the sink (`sink_apply`). -/
theorem policy?_apply (c : Call) : (r.apply c).policy? = r.policy? := by
  by_cases hc : c.sends = true
  · cases c with
    | flush => exact r.policy?_flush
    | stream data => exact r.policy?_stream data
    | close => exact r.policy?_close
    | _ => simp [Call.sends] at hc
  · exact policy?_of_sink (sink_apply (by simpa using hc) r)

variable {r}

/-- Every call keeps a response sound: the policy by `policy?_apply`, the body by `BodyBehindHead.apply`. -/
theorem Sound.apply (h : r.Sound) (c : Call) : (r.apply c).Sound where
  body := h.body.apply c
  policy p hp := h.policy p (r.policy?_apply c ▸ hp)

/-! ### Flushing -/

/-- Without a peer (`hs`), all that is pending stays. -/
theorem flush_of_sink_none (hs : r.sink = none) (hc : r.state ≠ .closed) : r.flush = (.ok (), r.writeHeaders) := by
  have hw : r.writeHeaders.sink = none := by rw [sink_writeHeaders, hs]
  simp only [flush, if_neg hc, hw]

/-- A flush of a sound response with a peer hands over all that is pending, and succeeds. -/
theorem Sound.exists_flush_eq (h : r.Sound) {s : Sink} (hs : r.sink = some s) (hc : r.state ≠ .closed) :
    ∃ s', r.flush = (.ok (), { r.writeHeaders with sink := some s', head := [], body := [], state := .committed }) ∧
      s'.policy = .unlimited ∧ s'.received = r.writeHeaders.output := by
  have hp : s.policy = .unlimited := h.policy s.policy (by rw [policy?, hs, Option.map_some])
  have hw : r.writeHeaders.sink = some s := by rw [sink_writeHeaders, hs]
  obtain ⟨s', hsend, hp', hr'⟩ := exists_send_eq (r := r.writeHeaders) hp
  refine ⟨s', by simp only [flush, if_neg hc, hw, hsend], hp', ?_⟩
  rw [hr', output, wire, hw]

/-! ### What is written -/

namespace Sound

/-- The status line goes behind what was sent, for there is neither more of a head nor a body yet. -/
theorem output_writeStatusLine (h : r.Sound) : r.output <+: r.writeStatusLine.output := by
  by_cases hn : r.state = .new ∧ r.head = []
  · have hw : r.writeStatusLine = { r with head := Text.Utf8.encode r.statusLine } := if_pos hn
    rw [hw]
    show r.wire ++ r.head ++ r.body <+: r.wire ++ Text.Utf8.encode r.statusLine ++ r.body
    rw [hn.2, h.body hn.1, List.append_nil, List.append_nil, List.append_nil]
    exact List.prefix_append _ _
  · have hw : r.writeStatusLine = r := if_neg hn
    rw [hw]

/-- And the rest of the head behind it, for `BodyBehindHead` says that there is no body. -/
theorem output_writeHeaders (h : r.Sound) : r.output <+: r.writeHeaders.output := by
  by_cases hn : r.state = .new
  · have hbody : r.writeStatusLine.body = [] := by
      unfold writeStatusLine
      split <;> exact h.body hn
    have hline : r.output <+: r.writeStatusLine.wire ++ r.writeStatusLine.head := by
      simpa [output, hbody] using h.output_writeStatusLine
    rw [writeHeaders_of_new hn]
    show r.output <+: r.writeStatusLine.wire ++ (r.writeStatusLine.head ++ _) ++ r.writeStatusLine.body
    rw [hbody, List.append_nil, ← List.append_assoc]
    exact hline.trans (List.prefix_append _ _)
  · rw [writeHeaders_of_ne_new hn]

/-- What is written goes behind the body. -/
theorem output_write (r : Response) (data : Bytes) : r.writeHeaders.output <+: (r.write data).2.output := by
  unfold write
  split
  · next hc =>
    rw [writeHeaders_of_ne_new (by simp [hc])]
  · show _ <+: r.writeHeaders.wire ++ r.writeHeaders.head ++ (r.writeHeaders.body ++ data)
    rw [← List.append_assoc]
    exact List.prefix_append _ _

/-- A flush takes what is pending to the peer, in order. -/
theorem output_flush (h : r.Sound) : r.writeHeaders.output <+: r.flush.2.output := by
  by_cases hc : r.state = .closed
  · have hf : r.flush.2 = r := by simp [flush, hc]
    rw [hf, writeHeaders_of_ne_new (by simp [hc])]
  · cases hs : r.sink with
    | none =>
      rw [flush_of_sink_none hs hc]
    | some s =>
      obtain ⟨s', hf, -, hr⟩ := h.exists_flush_eq hs hc
      rw [hf]
      show r.writeHeaders.output <+: s'.received ++ [] ++ []
      rw [hr, List.append_nil, List.append_nil]

/-- What is sent directly goes behind what was pending, for that is sent first. -/
theorem output_stream (h : r.Sound) (data : Bytes) : r.flush.2.output <+: (r.stream data).2.output := by
  by_cases hc : r.state = .closed
  · have hf : r.flush = (.ok (), r) := by simp [flush, hc]
    have hr : (r.stream data).2 = r := by cases hs : r.sink <;> simp [stream, hf, hs, hc]
    rw [hr, hf]
  · cases hs : r.sink with
    | none =>
      have hr : (r.stream data).2 = r.flush.2 := by simp [stream, flush_of_sink_none hs hc, hs]
      rw [hr]
    | some s =>
      obtain ⟨s', hf, hp, -⟩ := h.exists_flush_eq hs hc
      obtain ⟨s'', hwrite, -, hr⟩ := Sink.exists_write_eq hp data
      have hst : (r.stream data).2
          = { r.writeHeaders with sink := some s'', head := [], body := [], state := .committed } := by
        simp [stream, hf, hwrite]
      rw [hst, hf]
      -- `head` and `body` are empty behind `flush`, so the outputs are what the peers have received.
      show s'.received ++ [] ++ [] <+: s''.received ++ [] ++ []
      rw [hr, List.append_nil, List.append_nil, List.append_nil, List.append_nil]
      exact List.prefix_append _ _

/-- Closing an open response (`hc`) sends what a flush sends. -/
theorem output_close (r : Response) (hc : r.state ≠ .closed) : r.close.2.output = r.flush.2.output := by
  -- `shutdownSink` leaves what the peer has received.
  have hshut : r.flush.2.shutdownSink.2.output = r.flush.2.output := by
    unfold shutdownSink
    cases hs : r.flush.2.sink with
    | none => rfl
    | some s => simp [output, wire, hs, s.received_shutdown]
  rw [close, if_neg hc]
  exact hshut

/-- So every call that completes the head (`hc`) only adds to the output behind it. -/
theorem output_of_completesHead (h : r.Sound) {c : Call} (hc : c.completesHead = true) :
    r.writeHeaders.output <+: (r.apply c).output := by
  cases c with
  | writeHeaders => exact List.prefix_rfl
  | write data => exact output_write r data
  | flush => exact h.output_flush
  | stream data => exact h.output_flush.trans (h.output_stream data)
  | close =>
    show r.writeHeaders.output <+: r.close.2.output
    by_cases hclosed : r.state = .closed
    · rw [close, if_pos hclosed, writeHeaders_of_ne_new (by simp [hclosed])]
    · rw [output_close r hclosed]
      exact h.output_flush
  | _ => simp at hc

/-! ### Calls to a locked response -/

/-- `writeHeaders` extends a sound response. -/
theorem extends_writeHeaders (h : r.Sound) : Extends r r.writeHeaders := by
  by_cases hn : r.state = .new
  · have hline := sameHead_writeStatusLine r
    have hout := h.output_writeHeaders
    rw [writeHeaders_of_new hn] at hout ⊢
    exact ⟨hline.protocol, hline.status, hline.reason, .inr rfl, hout⟩
  · rw [writeHeaders_of_ne_new hn]
    exact .refl r

/-- Every call extends a sound response that is locked (`hl`): what sets a part of the head is ignored, and so is a
reset. -/
theorem extends_apply (h : r.Sound) (hl : r.locked = true) (c : Call) : Extends r (r.apply c) := by
  have hm : r.headIsMutable = false := by simp [headIsMutable, hl]
  by_cases hc : c.completesHead = true
  · exact h.extends_writeHeaders.trans (.of_sameHead (sameHead_of_completesHead r hc) (h.output_of_completesHead hc))
  · cases c with
    | writeHeaders | write _ | flush | stream _ | close => simp at hc
    | setStatus _ | setStatusWithReason _ _ | addHeader _ _ | setHeader _ _ =>
      simpa [Response.apply, Call.perform, setStatus, setStatusWithReason, addHeader, setHeader, hm] using .refl r
    | writeStatusLine => exact .of_sameHead (sameHead_writeStatusLine r) h.output_writeStatusLine
    | setLocked _ => exact .of_sameHead ⟨rfl, rfl, rfl, rfl⟩ List.prefix_rfl
    | resetBuffer =>
      -- Under the lock `resetBuffer` discards nothing.
      have hr : r.apply .resetBuffer = r := by
        show r.resetBuffer.2 = r
        unfold resetBuffer
        rw [if_pos hl]
        split <;> rfl
      rw [hr]
      exact .refl r

end Sound

end Response

end ServletContainer
