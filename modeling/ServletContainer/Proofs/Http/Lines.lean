import Mathlib.Data.List.Infix
import ServletContainer.Http.RequestHead

namespace ServletContainer

/-!
# The lines of an input

An input is cut at its line feeds. Reading it byte by byte finds the same lines, as long as they are not longer
than allowed.

* `Line`, `linesFrom` — the lines of an input and where they stand in it.
* `Line.overflowEnd` — where the first byte beyond the limit ends.
* `linesFrom_append`, `linesFrom_of_not_mem` — the first line, and what is left behind it.
* `readLine_append`, `readLine_of_not_mem` — the same cut, made by `readLine`.
-/

/-- The bytes of `raw` that count: all but the carriage returns. -/
def textOf (raw : Bytes) : Bytes := raw.filter (· ≠ 13)

/-- How many bytes of `raw` are read until one is beyond `limit`. -/
def overflowSize (limit : Nat) (raw : Bytes) : Nat := raw.inits.findIdx fun p => limit < (textOf p).length

/-- A line of an input: the bytes before its line feed, and the places where it starts and where it ends, line
feed included. -/
structure Line where
  raw : Bytes
  start : Nat
  stop : Nat
  deriving DecidableEq, Repr

namespace Line

/-- The bytes of `l` that count. -/
def text (l : Line) : Bytes := textOf l.raw

/-- Whether `l` holds more bytes than `limit`. -/
def isLong (limit : Nat) (l : Line) : Bool := limit < l.text.length

/-- Where the first byte of `l` beyond `limit` ends. -/
def overflowEnd (limit : Nat) (l : Line) : Nat := l.start + overflowSize limit l.raw

@[simp] theorem text_mk (raw : Bytes) (start stop : Nat) : (⟨raw, start, stop⟩ : Line).text = textOf raw := rfl

@[simp] theorem isLong_mk (limit : Nat) (raw : Bytes) (start stop : Nat) :
    (⟨raw, start, stop⟩ : Line).isLong limit = decide (limit < (textOf raw).length) := rfl

@[simp] theorem overflowEnd_mk (limit : Nat) (raw : Bytes) (start stop : Nat) :
    (⟨raw, start, stop⟩ : Line).overflowEnd limit = start + overflowSize limit raw := rfl

end Line

/-- The lines that the pieces between line feeds make, from the place `start` on. The last piece has no line
feed: it is a line only if it holds a byte that counts. -/
def numbered (start : Nat) : List Bytes → List Line
  | [] => []
  | [p] => if textOf p = [] then [] else [⟨p, start, start + p.length⟩]
  | p :: q :: ps => ⟨p, start, start + p.length + 1⟩ :: numbered (start + p.length + 1) (q :: ps)

/-- The lines of an input that starts at the place `start`. -/
def linesFrom (start : Nat) (bs : Bytes) : List Line := numbered start (bs.splitOn 10)

/-! ### Cutting at line feeds -/

/-- A piece without a line feed, and one behind it, make the first line. -/
theorem linesFrom_append {p : Bytes} (h : 10 ∉ p) (start : Nat) (rest : Bytes) :
    linesFrom start (p ++ 10 :: rest)
      = ⟨p, start, start + p.length + 1⟩ :: linesFrom (start + p.length + 1) rest := by
  rw [linesFrom, List.splitOn_append_cons_self_of_not_mem h]
  obtain ⟨q, ps, hq⟩ := List.exists_cons_of_ne_nil (List.splitOn_ne_nil 10 rest)
  rw [linesFrom, hq]
  rfl

theorem linesFrom_of_not_mem {p : Bytes} (h : 10 ∉ p) (start : Nat) :
    linesFrom start p = if textOf p = [] then [] else [⟨p, start, start + p.length⟩] := by
  rw [linesFrom, List.splitOn_eq_singleton h]
  rfl

theorem exists_eq_append_of_mem {bs : Bytes} (h : 10 ∈ bs) :
    ∃ p rest : Bytes, 10 ∉ p ∧ bs = p ++ 10 :: rest := by
  obtain ⟨p, rest, hbs, hp⟩ := List.eq_append_cons_of_mem h
  exact ⟨p, rest, hp, hbs⟩

/-- Induction on an input line by line. -/
theorem line_induction {P : Bytes → Prop} (last : ∀ p : Bytes, 10 ∉ p → P p)
    (line : ∀ p rest : Bytes, 10 ∉ p → P rest → P (p ++ 10 :: rest)) (bs : Bytes) : P bs := by
  by_cases h : 10 ∈ bs
  · obtain ⟨p, rest, hp, rfl⟩ := exists_eq_append_of_mem h
    exact line p rest hp (line_induction last line rest)
  · exact last bs h
termination_by bs.length

/-! ### Texts and sizes -/

@[simp] theorem textOf_nil : textOf [] = [] := rfl

theorem textOf_cons (b : UInt8) (p : Bytes) : textOf (b :: p) = if b = 13 then textOf p else b :: textOf p := by
  by_cases h : b = 13 <;> simp [textOf, h]

theorem overflowSize_cons_return (limit : Nat) (p : Bytes) :
    overflowSize limit (13 :: p) = 1 + overflowSize limit p := by
  rw [overflowSize, overflowSize, List.inits_cons, List.findIdx_cons, List.findIdx_map, Nat.add_comm]
  rfl

theorem overflowSize_zero_cons {b : UInt8} (h : b ≠ 13) (p : Bytes) : overflowSize 0 (b :: p) = 1 := by
  rw [overflowSize, List.inits_cons, List.findIdx_cons, List.findIdx_map]
  cases p <;> simp [textOf_cons, h, List.findIdx_cons]

/-- With room left it is not, and takes up one of it. -/
theorem overflowSize_succ_cons (limit : Nat) {b : UInt8} (h : b ≠ 13) (p : Bytes) :
    overflowSize (limit + 1) (b :: p) = 1 + overflowSize limit p := by
  -- With `b` in front, a start of the line holds one byte more that counts.
  have hq : (fun q => decide (limit + 1 < (textOf q).length)) ∘ (fun q => b :: q)
      = fun q => decide (limit < (textOf q).length) := by
    funext q
    simp only [Function.comp, textOf_cons, if_neg h, List.length_cons, Nat.add_lt_add_iff_right]
  rw [overflowSize, overflowSize, List.inits_cons, List.findIdx_cons, List.findIdx_map, hq, Nat.add_comm 1]
  rfl

/-- The first byte beyond the limit is in the line. -/
theorem overflowSize_le {limit : Nat} {p : Bytes} (h : limit < (textOf p).length) :
    overflowSize limit p ≤ p.length := by
  have hlt : overflowSize limit p < p.inits.length :=
    List.findIdx_lt_length_of_exists ⟨p, by simp, by simpa using h⟩
  rw [List.length_inits] at hlt
  omega

/-! ### Reading a line -/

/-- `readLine` reads over carriage returns. -/
theorem readLine_return (room : Nat) (r : Bytes) : readLine room (13 :: r) = readLine room r := rfl

/-- `readLine` stops at a byte for which there is no room. -/
theorem readLine_zero_cons {b : UInt8} (hf : b ≠ 10) (hr : b ≠ 13) (r : Bytes) :
    readLine 0 (b :: r) = .overflow r := by
  simp [readLine, hf, hr]

/-- `readLine` reads a byte for which there is room, if it is no line end (`hf`, `hr`). -/
theorem readLine_succ_cons (room : Nat) {b : UInt8} (hf : b ≠ 10) (hr : b ≠ 13) (r : Bytes) :
    readLine (room + 1) (b :: r) = (readLine room r).cons b := by
  simp [readLine, hf, hr]

/-- A line that is too long is read up to the first byte beyond the limit, by induction on its bytes. -/
theorem readLine_of_long {p : Bytes} (hp : 10 ∉ p) {room : Nat} (h : room < (textOf p).length) (rest : Bytes) :
    readLine room (p ++ rest) = .overflow ((p ++ rest).drop (overflowSize room p)) := by
  induction p generalizing room with
  | nil => simp at h
  | cons b p ih =>
    obtain ⟨hb, hq⟩ : b ≠ 10 ∧ 10 ∉ p := by simpa [eq_comm] using hp
    rw [List.cons_append]
    by_cases hr : b = 13
    · -- A carriage return takes up a place but no room.
      subst hr
      rw [readLine_return, ih hq (by simpa [textOf_cons] using h), overflowSize_cons_return, Nat.add_comm,
        List.drop_succ_cons]
    · cases room with
      -- With no room left, `b` is the byte beyond the limit.
      | zero => rw [readLine_zero_cons hb hr, overflowSize_zero_cons hr, List.drop_succ_cons, List.drop_zero]
      | succ n =>
        have hn : n < (textOf p).length := by simpa [textOf_cons, hr] using h
        rw [readLine_succ_cons n hb hr, ih hq hn, overflowSize_succ_cons n hr, Nat.add_comm,
          List.drop_succ_cons]
        rfl

/-- Bytes in front of a line that was read belong to it. -/
theorem foldr_cons_line (l text rest : Bytes) :
    l.foldr LineRead.cons (.line text rest) = .line (l ++ text) rest := by
  induction l with
  | nil => rfl
  | cons b l ih => rw [List.foldr_cons, ih]; rfl

/-- Bytes in front of a line that the input ended belong to it. -/
theorem foldr_cons_ended (l text : Bytes) : l.foldr LineRead.cons (.ended text) = .ended (l ++ text) := by
  induction l with
  | nil => rfl
  | cons b l ih => rw [List.foldr_cons, ih]; rfl

/-- Bytes that fit into the room are read; what follows them has the room that they leave. -/
theorem readLine_of_short {p : Bytes} (hp : 10 ∉ p) {room : Nat} (h : (textOf p).length ≤ room) (rest : Bytes) :
    readLine room (p ++ rest) = (textOf p).foldr LineRead.cons (readLine (room - (textOf p).length) rest) := by
  induction p generalizing room with
  | nil => rfl
  | cons b p ih =>
    obtain ⟨hb, hq⟩ : b ≠ 10 ∧ 10 ∉ p := by simpa [eq_comm] using hp
    rw [List.cons_append]
    by_cases hr : b = 13
    · -- A carriage return takes no room.
      subst hr
      rw [readLine_return, textOf_cons, if_pos rfl]
      exact ih hq (by simpa [textOf_cons] using h)
    · rw [textOf_cons, if_neg hr] at h ⊢
      rw [List.length_cons] at h
      obtain ⟨n, rfl⟩ : ∃ n, room = n + 1 := ⟨room - 1, by omega⟩
      have hroom : n + 1 - (b :: textOf p).length = n - (textOf p).length := by
        rw [List.length_cons]
        omega
      rw [readLine_succ_cons n hb hr, ih hq (by omega), hroom, List.foldr_cons]

/-- A line that is short enough is read with its line feed. -/
theorem readLine_append {p : Bytes} (hp : 10 ∉ p) {room : Nat} (h : (textOf p).length ≤ room) (rest : Bytes) :
    readLine room (p ++ 10 :: rest) = .line (textOf p) rest := by
  rw [readLine_of_short hp h]
  show (textOf p).foldr LineRead.cons (.line [] rest) = _
  rw [foldr_cons_line, List.append_nil]

/-- So is a last piece without one, up to the end of the input. -/
theorem readLine_of_not_mem {p : Bytes} (hp : 10 ∉ p) {room : Nat} (h : (textOf p).length ≤ room) :
    readLine room p = .ended (textOf p) := by
  have hread := readLine_of_short hp h []
  rw [List.append_nil] at hread
  rw [hread]
  show (textOf p).foldr LineRead.cons (.ended []) = _
  rw [foldr_cons_ended, List.append_nil]

end ServletContainer
