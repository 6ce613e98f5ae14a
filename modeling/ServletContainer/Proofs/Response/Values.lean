import ServletContainer.Proofs.Response.Splitting

namespace ServletContainer

/-!
# The values of a field

Which values a header field has after calls is told by the calls that name it. Nothing else takes one away: what a reset
discards is the head that was written, not the fields that were set for it.

* `Response.Moment.put`, `Response.valuesPut` — what a call makes of the values of a field, and what calls leave of it.
* `Response.getAll_run` — these are the values that the response holds.
* `Response.exists_bytes_of_run` — the bytes of a complete response that is not sent, by its fields and what was written.
-/

/-- A field that is set is the only one of its name, however the name is spelled (`hnm`). -/
theorem Headers.getAll_set_of_sameName (h : Headers) {n m : String} (v : String) (hnm : sameName n m = true) :
    (h.set n v).getAll m = [v] := by
  have hgone : (h.remove n).getAll m = [] := by
    simp [getAll, remove, sameName_congr hnm]
  rw [set, getAll_append_of_sameName _ v hnm, hgone, List.nil_append]

namespace Response

/-- What a call leaves of the values of the fields called `name`: a field that is set replaces them, one that is added
comes behind them. -/
def Moment.put (name : String) (values : List String) (m : Moment) : List String :=
  if m.names name then
    match m.call with
    | .setHeader _ value => [value]
    | .addHeader _ value => values ++ [value]
    | _ => values
  else values

/-- The values that moments leave of the fields called `name`. -/
def valuesPut (name : String) (ms : List Moment) : List String := ms.foldl (Moment.put name) []

variable {name : String}

/-- A moment that does not name the field (`h`) leaves its values. -/
theorem Moment.put_of_names_eq_false {m : Moment} (h : m.names name = false) (values : List String) :
    m.put name values = values := by
  rw [put, h]
  rfl

/-- Moments that do not name the field (`h`) leave its values, by induction. -/
theorem foldl_put_of_names_eq_false {ms : List Moment} (h : ∀ m ∈ ms, m.names name = false) (values : List String) :
    ms.foldl (Moment.put name) values = values := by
  induction ms with
  | nil => rfl
  | cons m ms ih =>
    obtain ⟨hm, hms⟩ := List.forall_mem_cons.1 h
    rw [List.foldl_cons, Moment.put_of_names_eq_false hm, ih hms]

/-- So `valuesPut` may leave moments out that come last and do not name the field (`h`). -/
theorem valuesPut_append_of_names_eq_false (ms : List Moment) {more : List Moment}
    (h : ∀ m ∈ more, m.names name = false) : valuesPut name (ms ++ more) = valuesPut name ms := by
  rw [valuesPut, List.foldl_append]
  exact foldl_put_of_names_eq_false h _

/-! ### Calls -/

section Calls

variable {r : Response} (hname : sameName "Connection" name = false)

include hname

/-- `writeHeaders` adds no field but the one for the connection, which is not `name` (`hname`). -/
theorem getAll_writeHeaders (r : Response) : r.writeHeaders.headers.getAll name = r.headers.getAll name := by
  by_cases hn : r.state = .new
  · rw [writeHeaders_of_new hn]
    exact getAll_sentHeaders_of_not_sameName _ hname
  · rw [writeHeaders_of_ne_new hn]

/-- A call that does not name a field (`hc`) leaves its values. By the cases of `ChangesHead`. -/
theorem getAll_apply_of_names_eq_false {c : Call} (hc : (⟨r, c⟩ : Moment).names name = false) :
    (r.apply c).headers.getAll name = r.headers.getAll name := by
  have hchanges := changesHead_apply r c
  generalize r.apply c = r' at hchanges ⊢
  cases hchanges with
  | completes _ hs => rw [hs.headers, getAll_writeHeaders hname]
  | keeps hs => rw [hs.headers]
  | status _ _ | reason _ _ _ => rfl
  | add n value hm =>
    have hother : sameName n name = false := by simpa [Moment.names, hm] using hc
    exact Headers.getAll_append_of_not_sameName _ value hother
  | set n value hm =>
    have hother : sameName n name = false := by simpa [Moment.names, hm] using hc
    exact Headers.getAll_set_of_not_sameName _ value hother

/-- A call leaves the values that `Moment.put` gives. -/
theorem getAll_apply (r : Response) (c : Call) :
    (r.apply c).headers.getAll name = (⟨r, c⟩ : Moment).put name (r.headers.getAll name) := by
  cases hnames : (⟨r, c⟩ : Moment).names name with
  | false => rw [Moment.put_of_names_eq_false hnames, getAll_apply_of_names_eq_false hname hnames]
  | true =>
    -- Only `addHeader` and `setHeader` name a field, and only while the head can change.
    cases c with
    | addHeader n value =>
      obtain ⟨hm, hsame⟩ : r.headIsMutable = true ∧ sameName n name = true := by simpa [Moment.names] using hnames
      show (r.addHeader n value).headers.getAll name = _
      rw [addHeader, if_pos hm, Moment.put, if_pos hnames]
      exact Headers.getAll_append_of_sameName _ value hsame
    | setHeader n value =>
      obtain ⟨hm, hsame⟩ : r.headIsMutable = true ∧ sameName n name = true := by simpa [Moment.names] using hnames
      show (r.setHeader n value).headers.getAll name = _
      rw [setHeader, if_pos hm, Moment.put, if_pos hnames]
      exact Headers.getAll_set_of_sameName _ value hsame
    | _ => simp [Moment.names] at hnames

/-- So calls leave what their moments put one after the other, by induction. -/
theorem getAll_run (r : Response) (calls : List Call) :
    (r.run calls).headers.getAll name = (r.moments calls).foldl (Moment.put name) (r.headers.getAll name) := by
  induction calls generalizing r with
  | nil => rfl
  | cons c calls ih =>
    rw [run_cons, ih, getAll_apply hname]
    rfl

end Calls

/-! ### Runs -/

section Run

variable (protocol : String) (failsShutdown : Bool) (calls : List Call)

/-- A new response has no fields, so there it is `valuesPut`. -/
theorem getAll_run_connected (hname : sameName "Connection" name = false) :
    let start := connected protocol (.fresh .unlimited failsShutdown)
    (start.run calls).headers.getAll name = valuesPut name (start.moments calls) :=
  getAll_run hname _ calls

/-- What a complete response has sent and keeps ready is a head of the status line that was due at one of the calls and
of the fields that the response holds, and what was written since the last reset. -/
theorem exists_bytes_of_run :
    let start := connected protocol (.fresh .unlimited failsShutdown)
    let r := start.run calls
    r.state ≠ .new → ∃ m ∈ start.moments calls, r.wire ++ r.head ++ r.body = Text.Utf8.encode m.before.statusLine
      ++ Text.Utf8.encode r.headers.text ++ Text.Utf8.encode "\r\n" ++ (transcript (start.moments calls)).body := by
  intro start r hne
  have hacc : Accounts r (transcript (start.moments calls)) := (accounts_connected protocol failsShutdown).run calls
  have hfields : (transcript (start.moments calls)).fields = some r.headers :=
    (fields_transcript rfl calls).trans (finalHeaders?_of_ne_new hne)
  obtain ⟨line, hline, hbytes⟩ : ∃ line, (transcript (start.moments calls)).line = some line ∧
      Text.Utf8.encode line ++ Text.Utf8.encode r.headers.text ++ Text.Utf8.encode "\r\n"
        ++ (transcript (start.moments calls)).body = r.wire ++ r.head ++ r.body := by
    simpa [Transcript.bytes?, hfields, Option.bind_eq_some_iff] using hacc.finished hne
  obtain ⟨m, hm, rfl⟩ := exists_of_transcript_line_eq hline
  exact ⟨m, hm, hbytes.symm⟩

end Run

end Response

end ServletContainer
