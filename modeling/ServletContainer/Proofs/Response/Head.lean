import ServletContainer.Proofs.Http.Folding
import ServletContainer.Proofs.Response.Calls

namespace ServletContainer

/-!
# The head of a response

What calls can still do to the head, and to the response as a whole, as it comes along. Nothing here asks the
peer to take what it is sent.

* `Response.SameHead` — two responses with the same status, reason phrase and header fields.
* `Response.ChangesHead`, `Response.changesHead_apply` — what a call makes of the head.
* `Response.sameHead_run` — a complete head stays as it is until the response starts over.
* `Response.BodyBehindHead.apply` — a body stands only behind a complete head.
* `Response.exists_run_eq_of_closed` — nothing happens to a closed response but locks.
* `Response.atMostCloses_run` — a response asks to close the connection unless the application has its own
  field for that.
-/

namespace Response

/-- Whether `r` and `r'` have the same head. -/
structure SameHead (r r' : Response) : Prop where
  protocol : r'.protocol = r.protocol
  status : r'.status = r.status
  reason : r'.reason = r.reason
  headers : r'.headers = r.headers

namespace SameHead

theorem refl (r : Response) : SameHead r r := ⟨rfl, rfl, rfl, rfl⟩

theorem trans {r s t : Response} (h : SameHead r s) (h' : SameHead s t) : SameHead r t :=
  ⟨h'.protocol.trans h.protocol, h'.status.trans h.status, h'.reason.trans h.reason,
    h'.headers.trans h.headers⟩

end SameHead

/-! ### Completing the head -/

@[simp] theorem state_writeStatusLine (r : Response) : r.writeStatusLine.state = r.state := by
  unfold writeStatusLine
  split <;> rfl

@[simp] theorem headers_writeStatusLine (r : Response) : r.writeStatusLine.headers = r.headers := by
  unfold writeStatusLine
  split <;> rfl

/-- `writeStatusLine` writes the head as it is and changes none of it. -/
theorem sameHead_writeStatusLine (r : Response) : SameHead r r.writeStatusLine := by
  unfold writeStatusLine
  split <;> exact ⟨rfl, rfl, rfl, rfl⟩

/-- On a new response `writeHeaders` adds the fields that are sent (`sentHeaders`) and the blank line to the status
line. -/
theorem writeHeaders_of_new {r : Response} (h : r.state = .new) :
    r.writeHeaders = { r.writeStatusLine with
      headers := sentHeaders r.headers
      head := r.writeStatusLine.head ++ Text.Utf8.encode ((sentHeaders r.headers).text ++ "\r\n")
      state := .headersWritten } := by
  simp [writeHeaders, h]

/-- `writeHeaders` does nothing to a response that is not new (`h`). -/
theorem writeHeaders_of_ne_new {r : Response} (h : r.state ≠ .new) : r.writeHeaders = r := by
  simp [writeHeaders, h]

/-- No response is new behind `writeHeaders`. -/
theorem state_writeHeaders_ne_new (r : Response) : r.writeHeaders.state ≠ .new := by
  by_cases h : r.state = .new
  · simp [writeHeaders_of_new h]
  · rwa [writeHeaders_of_ne_new h]

/-! ### What sending does to the head -/

/-- Sending touches nothing of the head. -/
theorem sameHead_send (r : Response) (s : Sink) : SameHead r (r.send s).2 := by
  unfold send
  split
  · exact ⟨rfl, rfl, rfl, rfl⟩
  · split <;> exact ⟨rfl, rfl, rfl, rfl⟩

/-- What a flush does to the head is what `writeHeaders` does. -/
theorem sameHead_flush (r : Response) : SameHead r.writeHeaders r.flush.2 := by
  unfold flush
  split
  · next hc =>
    rw [writeHeaders_of_ne_new (by simp [hc])]
    exact .refl r
  · dsimp only
    split
    · exact .refl _
    · exact sameHead_send _ _

/-- What a write does to the head is what `writeHeaders` does. -/
theorem sameHead_write (r : Response) (data : Bytes) : SameHead r.writeHeaders (r.write data).2 := by
  unfold write
  split
  · next hc =>
    rw [writeHeaders_of_ne_new (by simp [hc])]
    exact .refl r
  · exact ⟨rfl, rfl, rfl, rfl⟩

/-- A direct write does to the head what the flush in it does. -/
theorem sameHead_stream (r : Response) (data : Bytes) : SameHead r.writeHeaders (r.stream data).2 := by
  have hf := sameHead_flush r
  unfold stream
  split
  · next h => simpa [h] using hf
  · next h =>
    rw [h] at hf
    split
    · exact hf
    · split
      · exact hf.trans ⟨rfl, rfl, rfl, rfl⟩
      · exact hf

/-- A close does to the head what the flush in it does, and a second close nothing. -/
theorem sameHead_close (r : Response) : SameHead r.writeHeaders r.close.2 := by
  have hf := sameHead_flush r
  unfold close
  split
  · next hc =>
    rw [writeHeaders_of_ne_new (by simp [hc])]
    exact .refl r
  · have hs : SameHead r.flush.2 r.flush.2.shutdownSink.2 := by
      unfold shutdownSink
      split <;> exact ⟨rfl, rfl, rfl, rfl⟩
    exact (hf.trans hs).trans ⟨rfl, rfl, rfl, rfl⟩

/-- In one: a call that completes the head (`hc`) does to it what `writeHeaders` does. -/
theorem sameHead_of_completesHead (r : Response) {c : Call} (hc : c.completesHead = true) :
    SameHead r.writeHeaders (r.apply c) := by
  cases c with
  | writeHeaders => exact .refl _
  | write data => exact sameHead_write r data
  | flush => exact sameHead_flush r
  | stream data => exact sameHead_stream r data
  | close => exact sameHead_close r
  | _ => simp at hc

/-- What a call makes of the head of `r`: it completes it, leaves it, or sets a part of it. -/
inductive ChangesHead (r : Response) : Call → Response → Prop
  | completes {c : Call} {r' : Response} : c.completesHead = true → SameHead r.writeHeaders r' → ChangesHead r c r'
  | keeps {c : Call} {r' : Response} : SameHead r r' → ChangesHead r c r'
  | status (code : Nat) : r.headIsMutable = true →
    ChangesHead r (.setStatus code) { r with status := code, reason := none }
  | reason (code : Nat) (reason : String) : r.headIsMutable = true →
    ChangesHead r (.setStatusWithReason code reason) { r with status := code, reason := some reason }
  | add (name value : String) : r.headIsMutable = true →
    ChangesHead r (.addHeader name value) { r with headers := r.headers.append name value }
  | set (name value : String) : r.headIsMutable = true →
    ChangesHead r (.setHeader name value) { r with headers := r.headers.set name value }

/-- Every call does one of the things in `ChangesHead`. One case for each call, split by whether it is ignored. -/
theorem changesHead_apply (r : Response) (c : Call) : ChangesHead r c (r.apply c) := by
  by_cases hc : c.completesHead = true
  · exact .completes hc (sameHead_of_completesHead r hc)
  · -- Each setter looks whether `headIsMutable`, and otherwise keeps the head.
    cases c with
    | writeHeaders | write _ | flush | stream _ | close => simp at hc
    | setStatus code =>
      show ChangesHead r _ (r.setStatus code)
      unfold setStatus
      split
      · next hm => exact .status code hm
      · exact .keeps (.refl r)
    | setStatusWithReason code reason =>
      show ChangesHead r _ (r.setStatusWithReason code reason)
      unfold setStatusWithReason
      split
      · next hm => exact .reason code reason hm
      · exact .keeps (.refl r)
    | addHeader name value =>
      show ChangesHead r _ (r.addHeader name value)
      unfold addHeader
      split
      · next hm => exact .add name value hm
      · exact .keeps (.refl r)
    | setHeader name value =>
      show ChangesHead r _ (r.setHeader name value)
      unfold setHeader
      split
      · next hm => exact .set name value hm
      · exact .keeps (.refl r)
    | writeStatusLine => exact .keeps (sameHead_writeStatusLine r)
    | setLocked _ => exact .keeps ⟨rfl, rfl, rfl, rfl⟩
    | resetBuffer =>
      show ChangesHead r _ r.resetBuffer.2
      unfold resetBuffer
      split
      · exact .keeps (.refl r)
      · split
        · exact .keeps (.refl r)
        · exact .keeps ⟨rfl, rfl, rfl, rfl⟩

/-- Outside the state `new` (`hn`) no call changes the head: those that complete it find it complete, and those that set
a part are ignored. -/
theorem sameHead_apply {r : Response} (hn : r.state ≠ .new) (c : Call) : SameHead r (r.apply c) := by
  have hm : r.headIsMutable ≠ true := by simp [headIsMutable, hn]
  have hchanges := changesHead_apply r c
  generalize r.apply c = r' at hchanges ⊢
  cases hchanges with
  | completes _ hs => rwa [writeHeaders_of_ne_new hn] at hs
  | keeps hs => exact hs
  | status _ hset | reason _ _ hset | add _ _ hset | set _ _ hset => exact absurd hset hm

/-! ### How far a response has come -/

/-- Sending commits, or leaves the state. -/
theorem state_send (r : Response) (s : Sink) : (r.send s).2.state = r.state ∨ (r.send s).2.isCommitted = true := by
  unfold send
  split
  · exact .inl rfl
  · split
    · exact .inl rfl
    · exact .inr rfl

/-- A flush commits, or ends in the state that `writeHeaders` gives. -/
theorem state_flush (r : Response) :
    r.flush.2.state = r.writeHeaders.state ∨ r.flush.2.isCommitted = true := by
  unfold flush
  split
  · next hc => exact .inr (by simp [isCommitted, hc])
  · dsimp only
    split
    · exact .inl rfl
    · exact state_send _ _

/-- Every call that completes the head (`hc`) ends in the state that `writeHeaders` gives, or committed. -/
theorem state_of_completesHead (r : Response) {c : Call} (hc : c.completesHead = true) :
    (r.apply c).state = r.writeHeaders.state ∨ (r.apply c).isCommitted = true := by
  cases c with
  | writeHeaders => exact .inl rfl
  | write data =>
    show (r.write data).2.state = _ ∨ (r.write data).2.isCommitted = true
    unfold write
    split
    · next h => exact .inr (by simp [isCommitted, h])
    · exact .inl rfl
  | flush => exact state_flush r
  | stream data =>
    -- `stream` stays in the state of `flush`: at the first error, at a missing peer, and at the end.
    have hf := state_flush r
    show (r.stream data).2.state = _ ∨ (r.stream data).2.isCommitted = true
    unfold stream
    split
    · next h => simpa [h] using hf
    · next h =>
      rw [h] at hf
      split
      · exact hf
      · split
        · exact hf
        · exact hf
  | close =>
    show r.close.2.state = _ ∨ r.close.2.isCommitted = true
    unfold close
    split
    · next h => exact .inr (by simp [isCommitted, h])
    · exact .inr rfl
  | _ => simp at hc

/-- So no response is new behind a call that completes the head (`hc`). -/
theorem state_apply_of_completesHead (r : Response) {c : Call} (hc : c.completesHead = true) :
    (r.apply c).state ≠ .new := by
  rcases state_of_completesHead r hc with h | h
  · rw [h]
    exact state_writeHeaders_ne_new r
  · intro he
    simp [isCommitted, he] at h

/-- Any other call (`hc`) leaves the state, unless it starts over (`hs`). -/
theorem state_of_completesHead_eq_false {r : Response} {c : Call} (hc : c.completesHead = false)
    (hs : (⟨r, c⟩ : Moment).startsOver = false) : (r.apply c).state = r.state := by
  cases c with
  | writeHeaders | write _ | flush | stream _ | close => simp at hc
  | setStatus _ => simp only [apply, Call.perform, setStatus]; split <;> rfl
  | setStatusWithReason _ _ => simp only [apply, Call.perform, setStatusWithReason]; split <;> rfl
  | addHeader _ _ => simp only [apply, Call.perform, addHeader]; split <;> rfl
  | setHeader _ _ => simp only [apply, Call.perform, setHeader]; split <;> rfl
  | writeStatusLine => exact state_writeStatusLine r
  | setLocked _ => rfl
  | resetBuffer =>
    simp only [Moment.startsOver, Bool.and_eq_false_iff, Bool.not_eq_false'] at hs
    cases h : r.isCommitted <;> simp_all [apply, Call.perform, resetBuffer]

/-- One that starts over (`hs`) makes the response new. -/
theorem state_apply_of_startsOver {r : Response} {c : Call} (hs : (⟨r, c⟩ : Moment).startsOver = true) :
    (r.apply c).state = .new := by
  cases c with
  | resetBuffer =>
    simp only [Moment.startsOver, Bool.and_eq_true, Bool.not_eq_true'] at hs
    simp [apply, Call.perform, resetBuffer, hs]
  | _ => simp [Moment.startsOver] at hs

/-- So only a call that starts over makes a response new again. -/
theorem state_apply_ne_new {r : Response} (hn : r.state ≠ .new) {c : Call}
    (hs : (⟨r, c⟩ : Moment).startsOver = false) : (r.apply c).state ≠ .new := by
  by_cases hc : c.completesHead = true
  · exact state_apply_of_completesHead r hc
  · rw [state_of_completesHead_eq_false (by simpa using hc) hs]
    exact hn

/-- A complete head (`hn`) stays as it is until the response starts over (`hs`). By induction on the calls, the state
being carried along. -/
theorem sameHead_run {r : Response} (hn : r.state ≠ .new) (calls : List Call)
    (hs : ∀ m ∈ r.moments calls, m.startsOver = false) :
    SameHead r (r.run calls) ∧ (r.run calls).state ≠ .new := by
  induction calls generalizing r with
  | nil => exact ⟨.refl r, hn⟩
  | cons c calls ih =>
    have hc : (⟨r, c⟩ : Moment).startsOver = false := hs _ List.mem_cons_self
    obtain ⟨hsame, hne⟩ := ih (state_apply_ne_new hn hc) fun m hm => hs m (List.mem_cons_of_mem _ hm)
    exact ⟨(sameHead_apply hn c).trans hsame, hne⟩

theorem startsOver_eq_false_of_isCommitted {m : Moment} (h : m.before.isCommitted = true) :
    m.startsOver = false := by
  unfold Moment.startsOver
  split <;> simp [h]

/-- Every call keeps a response committed. -/
theorem isCommitted_apply {r : Response} (h : r.isCommitted = true) (c : Call) :
    (r.apply c).isCommitted = true := by
  have hn : r.state ≠ .new := by
    intro he
    simp [isCommitted, he] at h
  have hst : ∀ r' : Response, r'.state = r.state → r'.isCommitted = true := by
    intro r' hr
    rwa [isCommitted, hr]
  by_cases hc : c.completesHead = true
  · rcases state_of_completesHead r hc with hs | hs
    · exact hst _ (by rw [hs, writeHeaders_of_ne_new hn])
    · exact hs
  · exact hst _ (state_of_completesHead_eq_false (by simpa using hc) (startsOver_eq_false_of_isCommitted h))

/-- None of the calls to a committed response (`h`) makes it start over, by `invariant_run`. -/
theorem startsOver_eq_false_of_mem_moments {r : Response} (h : r.isCommitted = true) {calls : List Call}
    {m : Moment} (hm : m ∈ r.moments calls) : m.startsOver = false := by
  induction calls generalizing r with
  | nil => simp [moments] at hm
  | cons c calls ih =>
    rcases List.mem_cons.1 hm with rfl | hm
    · exact startsOver_eq_false_of_isCommitted h
    · exact ih (isCommitted_apply h c) hm

/-- So the head of a committed response (`h`) never changes. -/
theorem sameHead_run_of_isCommitted {r : Response} (h : r.isCommitted = true) (calls : List Call) :
    SameHead r (r.run calls) := by
  have hn : r.state ≠ .new := by
    intro he
    simp [isCommitted, he] at h
  exact (sameHead_run hn calls fun m hm => startsOver_eq_false_of_mem_moments h hm).1

/-! ### Bodies and heads -/

/-- Whether `r` has a body only behind a complete head. -/
def BodyBehindHead (r : Response) : Prop := r.state = .new → r.body = []

theorem BodyBehindHead.of_ne_new {r : Response} (h : r.state ≠ .new) : r.BodyBehindHead := fun hn => absurd hn h

/-- Every call keeps `BodyBehindHead`: what writes a body completes the head first, and a reset drops both. -/
theorem BodyBehindHead.apply {r : Response} (h : r.BodyBehindHead) (c : Call) : (r.apply c).BodyBehindHead := by
  by_cases hc : c.completesHead = true
  · exact .of_ne_new (state_apply_of_completesHead r hc)
  · cases c with
    | writeHeaders | write _ | flush | stream _ | close => simp at hc
    | setStatus _ => simp only [Response.apply, Call.perform, setStatus]; split <;> exact h
    | setStatusWithReason _ _ => simp only [Response.apply, Call.perform, setStatusWithReason]; split <;> exact h
    | addHeader _ _ => simp only [Response.apply, Call.perform, addHeader]; split <;> exact h
    | setHeader _ _ => simp only [Response.apply, Call.perform, setHeader]; split <;> exact h
    | writeStatusLine => simp only [Response.apply, Call.perform, writeStatusLine]; split <;> exact h
    | setLocked _ => exact h
    | resetBuffer =>
      -- `resetBuffer` empties the body as it starts over, or does nothing.
      simp only [Response.apply, Call.perform, resetBuffer]
      split
      · exact h
      · split
        · exact h
        · exact fun _ => rfl

/-! ### Closed responses -/

/-- A call to a closed response (`h`) does nothing but set the lock. One case for each call. -/
theorem exists_apply_eq_of_closed {r : Response} (h : r.state = .closed) (c : Call) :
    ∃ locked, r.apply c = { r with locked := locked } := by
  have hn : r.state ≠ .new := by simp [h]
  have hc : r.isCommitted = true := by simp [isCommitted, h]
  have hm : r.headIsMutable = false := by simp [headIsMutable, hn]
  have hw : r.writeHeaders = r := writeHeaders_of_ne_new hn
  have hf : r.flush = (.ok (), r) := by simp [flush, h]
  have hrefl : ∀ r' : Response, r' = r → ∃ locked, r' = { r with locked := locked } :=
    fun r' hr => ⟨r.locked, hr⟩
  -- Only `setLocked` still changes anything.
  cases c with
  | setLocked locked => exact ⟨locked, rfl⟩
  | setStatus _ | setStatusWithReason _ _ | addHeader _ _ | setHeader _ _ =>
    exact hrefl _ (by simp [apply, Call.perform, setStatus, setStatusWithReason, addHeader, setHeader, hm])
  | writeStatusLine => exact hrefl _ (by simp [apply, Call.perform, writeStatusLine, hn])
  | writeHeaders => exact hrefl _ hw
  | write _ => exact hrefl _ (by simp [apply, Call.perform, write, h])
  | flush => exact hrefl _ (by simp [apply, Call.perform, hf])
  | stream _ =>
    refine hrefl _ ?_
    cases hs : r.sink <;> simp [apply, Call.perform, stream, hf, hs, h]
  | resetBuffer => exact hrefl _ (by simp [apply, Call.perform, resetBuffer, hc])
  | close => exact hrefl _ (by simp [apply, Call.perform, close, h])

/-- And so calls do nothing else together. -/
theorem exists_run_eq_of_closed {r : Response} (h : r.state = .closed) (calls : List Call) :
    ∃ locked, r.run calls = { r with locked := locked } := by
  induction calls generalizing r with
  | nil => exact ⟨r.locked, rfl⟩
  | cons c calls ih =>
    obtain ⟨a, ha⟩ := exists_apply_eq_of_closed h c
    obtain ⟨b, hb⟩ := ih (r := r.apply c) (by rw [ha]; exact h)
    exact ⟨b, by rw [run_cons, hb, ha]⟩

/-- No bytes can be written to a closed response (`h`): `write` and `stream` fail, each with its own error. -/
theorem perform_of_closed {r : Response} (h : r.state = .closed) (data : Bytes) :
    ((Call.write data).perform r).1 = .error (.io .responseClosed) ∧
    ((Call.stream data).perform r).1 = .error (.io .noOpenStream) := by
  have hf : r.flush = (.ok (), r) := by simp [flush, h]
  constructor
  · simp [Call.perform, write, h, Except.mapError]
  · cases hs : r.sink <;> simp [Call.perform, stream, hf, hs, h, Except.mapError]

/-! ### The connection field -/

/-- Whether nothing but `close` is said about the connection. -/
def AtMostCloses (h : Headers) : Prop :=
  h.getAll "connection" = [] ∨ h.getAll "connection" = ["close"]

/-- The name that `sentHeaders` writes and the one it asks for are the same to it. -/
theorem sameName_connection : sameName "Connection" "connection" = true := by decide

/-- What is sent has a `Connection`. -/
theorem contains_sentHeaders (h : Headers) : (sentHeaders h).contains "connection" = true := by
  unfold sentHeaders
  split
  · assumption
  · rw [Headers.contains_eq_true_iff, Headers.getAll_append_of_sameName h _ sameName_connection]
    simp

/-- `sentHeaders` adds nothing to the fields of other names (`hname`). -/
theorem getAll_sentHeaders_of_not_sameName (h : Headers) {name : String}
    (hname : sameName "Connection" name = false) : (sentHeaders h).getAll name = h.getAll name := by
  unfold sentHeaders
  split
  · rfl
  · exact Headers.getAll_append_of_not_sameName h "close" hname

/-- Where the application said at most `close`, `close` is what is sent, once. -/
theorem AtMostCloses.getAll_sentHeaders {h : Headers} (hc : AtMostCloses h) :
    (sentHeaders h).getAll "connection" = ["close"] := by
  unfold sentHeaders
  rcases hc with h0 | h1
  · have hcon : h.contains "connection" = false := by
      rw [Bool.eq_false_iff, ne_eq, Headers.contains_eq_true_iff, h0]
      simp
    rw [hcon, if_neg (by simp), Headers.getAll_append_of_sameName h _ sameName_connection, h0]
    rfl
  · have hcon : h.contains "connection" = true := by
      rw [Headers.contains_eq_true_iff, h1]
      simp
    rw [hcon, if_pos rfl, h1]

/-- So completing the head keeps `AtMostCloses`. -/
theorem atMostCloses_writeHeaders {r : Response} (h : AtMostCloses r.headers) :
    AtMostCloses r.writeHeaders.headers := by
  by_cases hn : r.state = .new
  · rw [writeHeaders_of_new hn]
    exact .inr h.getAll_sentHeaders
  · rwa [writeHeaders_of_ne_new hn]

/-- Only a field of the application's own (`hc`) says anything else about the connection. -/
theorem atMostCloses_apply {r : Response} (h : AtMostCloses r.headers) {c : Call}
    (hc : (⟨r, c⟩ : Moment).names "connection" = false) : AtMostCloses (r.apply c).headers := by
  have hchanges := changesHead_apply r c
  generalize r.apply c = r' at hchanges ⊢
  cases hchanges with
  | completes _ hs => exact hs.headers ▸ atMostCloses_writeHeaders h
  | keeps hs => exact hs.headers ▸ h
  | status _ _ | reason _ _ _ => exact h
  | add name value hm =>
    have hname : sameName name "connection" = false := by simpa [Moment.names, hm] using hc
    rwa [AtMostCloses, Headers.getAll_append_of_not_sameName _ value hname]
  | set name value hm =>
    have hname : sameName name "connection" = false := by simpa [Moment.names, hm] using hc
    rwa [AtMostCloses, Headers.getAll_set_of_not_sameName _ value hname]

/-- From step to run by `invariant_run`. -/
theorem atMostCloses_run {r : Response} (h : AtMostCloses r.headers) {calls : List Call}
    (hc : ∀ m ∈ r.moments calls, m.names "connection" = false) :
    AtMostCloses (r.run calls).headers ∧ ∀ m ∈ r.moments calls, AtMostCloses m.before.headers :=
  invariant_run (P := fun r => AtMostCloses r.headers) (fun _ _ hr hnames => atMostCloses_apply hr hnames) h hc

end Response

end ServletContainer
