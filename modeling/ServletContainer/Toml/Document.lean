import ServletContainer.Text.Numeral
import ServletContainer.Toml.Lexical

namespace ServletContainer.Toml

/-!
# TOML documents

* `Value` — the values of a document; of numbers with a fraction and of times only the kind is kept.
* `readValue` — reads a value.
* `Entries.insert`, `Entries.updateAt` — put a value where a dotted key or a table header points. A table is
  declared once, and what a key defines is not opened again.
* `parse` — reads a document.
-/

/-- A value. -/
inductive Value where
  | text (s : String)
  | integer (n : Int)
  | float
  | boolean (b : Bool)
  | datetime
  | array (vs : List Value)
  | table (entries : List (String × Value))
  deriving Inhabited

/-! ### Tables under construction -/

/-- How a table came to be. -/
inductive TableOrigin where
  /-- As a step on the way to a table that a header names. -/
  | implied
  /-- As a step of a dotted key. -/
  | dotted
  /-- By a header of its own. -/
  | declared
  deriving DecidableEq, Repr

/-- What a name stands for in a table under construction. -/
inductive Item where
  | value (v : Value)
  | table (origin : TableOrigin) (entries : List (String × Item))
  /-- The tables of a repeated header, the last one first. -/
  | tables (last : List (String × Item)) (earlier : List (List (String × Item)))

/-- A table under construction. -/
abbrev Entries := List (String × Item)

namespace Entries

/-- What a name stands for. -/
def find? (name : String) (es : Entries) : Option Item :=
  (List.find? (fun e => e.1 == name) es).map Prod.snd

/-- Gives a name another meaning, or a first one. -/
def put (name : String) (i : Item) (es : Entries) : Entries :=
  if (find? name es).isSome then
    List.map (fun e => if e.1 == name then (name, i) else e) es
  else es ++ [(name, i)]

/-- Puts a value where the steps of a dotted key lead. -/
def insert : List String → String → Value → Entries → Option Entries
  | [], name, v, es => if (find? name es).isSome then none else some (es ++ [(name, .value v)])
  | step :: steps, name, v, es =>
    match find? step es with
    | none => (insert steps name v []).map fun sub => put step (.table .dotted sub) es
    | some (.table .dotted sub) => (insert steps name v sub).map fun sub => put step (.table .dotted sub) es
    | some (.table .implied sub) =>
      if steps.isEmpty then none
      else (insert steps name v sub).map fun sub => put step (.table .implied sub) es
    | some (.tables last earlier) =>
      if steps.isEmpty then none
      else (insert steps name v last).map fun last => put step (.tables last earlier) es
    | some (.table .declared _) => none
    | some (.value _) => none

/-- Changes the table that the steps of a header lead to; steps without a table get one. -/
def updateAt (f : Entries → Option Entries) : List String → Entries → Option Entries
  | [], es => f es
  | step :: steps, es =>
    match find? step es with
    | none => (updateAt f steps []).map fun sub => put step (.table .implied sub) es
    | some (.table origin sub) => (updateAt f steps sub).map fun sub => put step (.table origin sub) es
    | some (.tables last earlier) =>
      (updateAt f steps last).map fun last => put step (.tables last earlier) es
    | some (.value _) => none

end Entries

mutual

/-- The value that an item has become. -/
def Item.toValue : Item → Value
  | .value v => v
  | .table _ es => .table (entryValues es)
  | .tables last earlier => .array (tableValues earlier ++ [.table (entryValues last)])

/-- The values of entries. -/
def entryValues : List (String × Item) → List (String × Value)
  | [] => []
  | (name, i) :: r => (name, i.toValue) :: entryValues r

/-- The values of the tables of a repeated header, which are given last one first. -/
def tableValues : List (List (String × Item)) → List Value
  | [] => []
  | es :: r => tableValues r ++ [.table (entryValues es)]

end

/-! ### Values -/

/-- Reads a value without parts. -/
def readScalar (s : List Char) : Option (Value × List Char) :=
  match s with
  | '"' :: _ => (readString s).map fun p => (.text p.1, p.2)
  | '\x27' :: _ => (readString s).map fun p => (.text p.1, p.2)
  | 't' :: 'r' :: 'u' :: 'e' :: r => some (.boolean true, r)
  | 'f' :: 'a' :: 'l' :: 's' :: 'e' :: r => some (.boolean false, r)
  | _ =>
    match readDateTime s with
    | some r => some (.datetime, r)
    | none =>
      match readFloat s with
      | some (_, r) => some (.float, r)
      | none =>
        (readInteger s).bind fun p =>
          if Text.fitsInt64 p.1 then some (.integer p.1, p.2) else none

mutual

/-- Reads a value within which at most `depth` brackets and braces are open at once; `fuel` bounds how much of the
text is visited. -/
def readValue : (fuel depth : Nat) → List Char → Option (Value × List Char)
  | 0, _, _ => none
  | fuel + 1, depth + 1, '[' :: r => (readItems fuel depth (skipLines false r)).map fun p => (.array p.1, p.2)
  | fuel + 1, depth + 1, '{' :: r =>
    match skipSpace r with
    | '}' :: r => some (.table [], r)
    | r => (readPairs fuel depth [] r).map fun p => (.table (entryValues p.1), p.2)
  | _ + 1, _, s => readScalar s

/-- Reads the rest of an array. -/
def readItems : (fuel depth : Nat) → List Char → Option (List Value × List Char)
  | 0, _, _ => none
  | _ + 1, _, ']' :: r => some ([], r)
  | fuel + 1, depth, s =>
    match readValue fuel depth s with
    | none => none
    | some (v, r) =>
      match skipLines false r with
      | ',' :: r => (readItems fuel depth (skipLines false r)).map fun p => (v :: p.1, p.2)
      | ']' :: r => some ([v], r)
      | _ => none

/-- Reads the rest of a table on one line, whose entries so far are given. -/
def readPairs : (fuel depth : Nat) → Entries → List Char → Option (Entries × List Char)
  | 0, _, _, _ => none
  | fuel + 1, depth, es, s =>
    match readPair fuel depth s with
    | none => none
    | some ((steps, name, v), r) =>
      match Entries.insert steps name v es with
      | none => none
      | some es =>
        match skipSpace r with
        | ',' :: r => readPairs fuel depth es (skipSpace r)
        | '}' :: r => some (es, r)
        | _ => none

/-- Reads a key, an equals sign and a value. -/
def readPair : (fuel depth : Nat) → List Char → Option ((List String × String × Value) × List Char)
  | 0, _, _ => none
  | fuel + 1, depth, s =>
    match readKey s with
    | none => none
    | some (parts, r) =>
      match skipSpace r with
      | '=' :: r =>
        match readValue fuel depth (skipSpace r), parts.getLast? with
        | some (v, r), some name => some ((parts.dropLast, name, v), r)
        | _, _ => none
      | _ => none

end

/-! ### Lines -/

/-- A line of a document. -/
inductive Line where
  | pair (steps : List String) (name : String) (v : Value)
  | header (steps : List String) (name : String)
  | repeatedHeader (steps : List String) (name : String)

/-- What closes a header: the given marks, after the key. -/
def readHeader (marks : List Char) (s : List Char) : Option ((List String × String) × List Char) :=
  match readKey (skipSpace s) with
  | none => none
  | some (parts, r) =>
    let r := skipSpace r
    if marks.isPrefixOf r then parts.getLast?.map fun name => ((parts.dropLast, name), r.drop marks.length)
    else none

/-- Reads what a line says, after its blanks. -/
def readLine (s : List Char) : Option (Line × List Char) :=
  match s with
  | '[' :: '[' :: r => (readHeader [']', ']'] r).map fun p => (.repeatedHeader p.1.1 p.1.2, p.2)
  | '[' :: r => (readHeader [']'] r).map fun p => (.header p.1.1 p.1.2, p.2)
  | s => (readPair (3 * s.length + 3) nestingLimit s).map fun p => (.pair p.1.1 p.1.2.1 p.1.2.2, p.2)

/-- Reads the lines of a document; `fuel` bounds their number. -/
def readLines : (fuel : Nat) → List Char → Option (List Line)
  | 0, _ => none
  | fuel + 1, s =>
    match skipLines false s with
    | [] => some []
    | s =>
      match readLine s with
      | none => none
      | some (line, r) =>
        match skipComment (skipSpace r) with
        | [] => some [line]
        | r =>
          match lineEnd? r with
          | none => none
          | some r => (readLines fuel r).map (line :: ·)

/-! ### Documents -/

/-- The pairs before the next header, put into a table, and the lines from that header on. -/
def takePairs : List Line → Entries → Option (Entries × List Line)
  | .pair steps name v :: r, es =>
    match Entries.insert steps name v es with
    | none => none
    | some es => takePairs r es
  | rest, es => some (es, rest)

/-- Opens the table of a header, which may be one that is implied so far, and fills it. -/
def declare (name : String) (fill : Entries → Option Entries) (es : Entries) : Option Entries :=
  match Entries.find? name es with
  | none => (fill []).map fun sub => Entries.put name (.table .declared sub) es
  | some (.table .implied sub) => (fill sub).map fun sub => Entries.put name (.table .declared sub) es
  | some _ => none

/-- Adds a table to those of a repeated header, and fills it. -/
def declareNext (name : String) (fill : Entries → Option Entries) (es : Entries) : Option Entries :=
  match Entries.find? name es with
  | none => (fill []).map fun sub => Entries.put name (.tables sub []) es
  | some (.tables last earlier) => (fill []).map fun sub => Entries.put name (.tables sub (last :: earlier)) es
  | some _ => none

/-- Carries out the lines from a header on; `fuel` bounds the number of headers. -/
def sections : (fuel : Nat) → List Line → Entries → Option Entries
  | _, [], es => some es
  | 0, _ :: _, _ => none
  | fuel + 1, line :: r, es =>
    let pairs := r.takeWhile fun l => match l with
      | .pair _ _ _ => true
      | _ => false
    let fill (sub : Entries) : Option Entries := (takePairs pairs sub).map Prod.fst
    let opened := match line with
      | .header steps name => Entries.updateAt (declare name fill) steps es
      | .repeatedHeader steps name => Entries.updateAt (declareNext name fill) steps es
      | .pair _ _ _ => none
    match opened with
    | none => none
    | some es => sections fuel (r.drop pairs.length) es

/-- A text without the mark that may stand at its start. -/
def withoutMark : List Char → List Char
  | c :: r => if c = Char.ofNat 0xFEFF then r else c :: r
  | [] => []

/-- Reads a document as a table. -/
def parse (s : String) : Option (List (String × Value)) := do
  let text := withoutMark s.toList
  let lines ← readLines (text.length + 1) text
  let (top, rest) ← takePairs lines []
  let all ← sections rest.length rest top
  some (entryValues all)

end ServletContainer.Toml
