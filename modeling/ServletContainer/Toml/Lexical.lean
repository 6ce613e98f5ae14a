namespace ServletContainer.Toml

/-!
# Words of TOML

Readers for blanks, strings, numbers and times. Each takes the characters ahead and gives what it read with
the characters after it, or none.
-/

/-- What a reader gives. -/
abbrev Read (α : Type) := Option (α × List Char)

/-! ### Blanks, line ends and comments -/

/-- Whether a character separates words within a line. -/
def isSpace (c : Char) : Bool := c = ' ' || c = '\t'

/-- Skips spaces and tabs. -/
def skipSpace (s : List Char) : List Char := s.dropWhile isSpace

/-- Whether a character may stand in a comment: no control character but the tab. -/
def isCommentChar (c : Char) : Bool := c = '\t' || (0x20 ≤ c.toNat && c.toNat ≤ 0x7E) || 0x80 ≤ c.toNat

/-- Skips a comment, if one starts here. -/
def skipComment : List Char → List Char
  | '#' :: r => r.dropWhile isCommentChar
  | s => s

/-- Reads a line end. -/
def lineEnd? : List Char → Option (List Char)
  | '\n' :: r => some r
  | '\r' :: '\n' :: r => some r
  | _ => none

/-- Skips blanks, line ends and comments. The state tells whether a comment is being skipped. -/
def skipLines (inComment : Bool) : List Char → List Char
  | [] => []
  | '\n' :: r => skipLines false r
  | '\r' :: '\n' :: r => skipLines false r
  | c :: r =>
    if inComment then if isCommentChar c then skipLines true r else c :: r
    else if isSpace c then skipLines false r
    else if c = '#' then skipLines true r
    else c :: r

/-! ### Strings -/

/-- The value of a hexadecimal digit. -/
def hexValue? (c : Char) : Option Nat :=
  let n := c.toNat
  if '0'.toNat ≤ n ∧ n ≤ '9'.toNat then some (n - '0'.toNat)
  else if 'a'.toNat ≤ n ∧ n ≤ 'f'.toNat then some (n - 'a'.toNat + 10)
  else if 'A'.toNat ≤ n ∧ n ≤ 'F'.toNat then some (n - 'A'.toNat + 10)
  else none

/-- The character whose code point is written in hexadecimal digits. -/
def scalar? (digits : List Char) : Option Char := do
  let values ← digits.mapM hexValue?
  let n := values.foldl (fun acc v => acc * 16 + v) 0
  if n.isValidChar then some (Char.ofNat n) else none

/-- The character that a letter stands for behind a backslash. -/
def escape? : Char → Option Char
  | 'b' => some '\x08'
  | 't' => some '\t'
  | 'n' => some '\n'
  | 'f' => some '\x0c'
  | 'r' => some '\r'
  | '"' => some '"'
  | '\\' => some '\\'
  | _ => none

/-- Whether a character may stand in a string on one line. -/
def isStringChar (c : Char) : Bool := isCommentChar c

/-- Puts a character in front of a string that was read. -/
def consRead (c : Char) (r : Read (List Char)) : Read (List Char) := r.map fun p => (c :: p.1, p.2)

/-- Reads the rest of a string between double quotes. -/
def readBasic : List Char → Read (List Char)
  | [] => none
  | '"' :: r => some ([], r)
  | '\\' :: 'u' :: a :: b :: c :: d :: r => (scalar? [a, b, c, d]).bind fun ch => consRead ch (readBasic r)
  | '\\' :: 'U' :: a :: b :: c :: d :: e :: f :: g :: h :: r =>
    (scalar? [a, b, c, d, e, f, g, h]).bind fun ch => consRead ch (readBasic r)
  | '\\' :: e :: r => (escape? e).bind fun ch => consRead ch (readBasic r)
  | c :: r => if isStringChar c && c ≠ '\\' then consRead c (readBasic r) else none

/-- Reads the rest of a string between single quotes. -/
def readLiteral : List Char → Read (List Char)
  | [] => none
  | c :: r =>
    if c = '\x27' then some ([], r)
    else if isStringChar c then consRead c (readLiteral r)
    else none

/-- Whether nothing but blanks stands before the end of the line. -/
def endsLine (s : List Char) : Bool := (lineEnd? (skipSpace s)).isSome

/-- Reads the rest of a string between three double quotes. Behind a backslash at the end of a line, `skipping`
passes over blanks and line ends up to the next character. -/
def readLongBasic (skipping : Bool) : List Char → Read (List Char)
  | [] => none
  | '"' :: '"' :: '"' :: '"' :: '"' :: r => some (['"', '"'], r)
  | '"' :: '"' :: '"' :: '"' :: r => some (['"'], r)
  | '"' :: '"' :: '"' :: r => some ([], r)
  | '\n' :: r => if skipping then readLongBasic true r else consRead '\n' (readLongBasic false r)
  | '\r' :: '\n' :: r => if skipping then readLongBasic true r else consRead '\n' (readLongBasic false r)
  | '\\' :: 'u' :: a :: b :: c :: d :: r =>
    (scalar? [a, b, c, d]).bind fun ch => consRead ch (readLongBasic false r)
  | '\\' :: 'U' :: a :: b :: c :: d :: e :: f :: g :: h :: r =>
    (scalar? [a, b, c, d, e, f, g, h]).bind fun ch => consRead ch (readLongBasic false r)
  | '\\' :: e :: r =>
    if endsLine (e :: r) then readLongBasic true r
    else (escape? e).bind fun ch => consRead ch (readLongBasic false r)
  | c :: r =>
    if skipping && isSpace c then readLongBasic true r
    else if isStringChar c && c ≠ '\\' then consRead c (readLongBasic false r)
    else none

/-- Reads the rest of a string between three single quotes. -/
def readLongLiteral : List Char → Read (List Char)
  | [] => none
  | '\x27' :: '\x27' :: '\x27' :: '\x27' :: '\x27' :: r => some (['\x27', '\x27'], r)
  | '\x27' :: '\x27' :: '\x27' :: '\x27' :: r => some (['\x27'], r)
  | '\x27' :: '\x27' :: '\x27' :: r => some ([], r)
  | '\n' :: r => consRead '\n' (readLongLiteral r)
  | '\r' :: '\n' :: r => consRead '\n' (readLongLiteral r)
  | c :: r => if isStringChar c then consRead c (readLongLiteral r) else none

/-- Drops a line end at the start of a long string. -/
def afterLineEnd (s : List Char) : List Char := (lineEnd? s).getD s

/-- Reads a string that stands on one line. -/
def readShortString : List Char → Read String
  | '"' :: r => (readBasic r).map fun p => (String.ofList p.1, p.2)
  | '\x27' :: r => (readLiteral r).map fun p => (String.ofList p.1, p.2)
  | _ => none

/-- Reads a string. -/
def readString : List Char → Read String
  | '"' :: '"' :: '"' :: r =>
    (readLongBasic false (afterLineEnd r)).map fun p => (String.ofList p.1, p.2)
  | '\x27' :: '\x27' :: '\x27' :: r =>
    (readLongLiteral (afterLineEnd r)).map fun p => (String.ofList p.1, p.2)
  | s => readShortString s

/-! ### Numbers -/

/-- Reads further digits; an underscore may stand between two of them. -/
def moreDigits (isDigit : Char → Bool) : List Char → List Char × List Char
  | '_' :: c :: r =>
    if isDigit c then
      let (ds, rest) := moreDigits isDigit r
      (c :: ds, rest)
    else ([], '_' :: c :: r)
  | c :: r =>
    if isDigit c then
      let (ds, rest) := moreDigits isDigit r
      (c :: ds, rest)
    else ([], c :: r)
  | [] => ([], [])

/-- Reads one or more digits. -/
def readDigits (isDigit : Char → Bool) : List Char → Read (List Char)
  | c :: r =>
    if isDigit c then
      let (ds, rest) := moreDigits isDigit r
      some (c :: ds, rest)
    else none
  | [] => none

/-- Reads a sign, if there is one; gives whether it is a minus. -/
def readSign : List Char → Bool × List Char
  | '+' :: r => (false, r)
  | '-' :: r => (true, r)
  | s => (false, s)

/-- Reads an unsigned decimal number without leading zeros. -/
def readDecimal : List Char → Read (List Char)
  | '0' :: r => some (['0'], r)
  | s => readDigits Char.isDigit s

/-- The number of digits in a base. -/
def digitsValue (base : Nat) (digits : List Char) : Nat :=
  digits.foldl (fun acc c => acc * base + (hexValue? c).getD 0) 0

/-- Reads digits of a base other than ten. -/
def readBased (base : Nat) (s : List Char) : Read Nat :=
  (readDigits (fun c => (hexValue? c).any (· < base)) s).map fun p => (digitsValue base p.1, p.2)

/-- Reads a whole number. -/
def readInteger : List Char → Read Int
  | '0' :: 'x' :: r => (readBased 16 r).map fun p => (p.1, p.2)
  | '0' :: 'o' :: r => (readBased 8 r).map fun p => (p.1, p.2)
  | '0' :: 'b' :: r => (readBased 2 r).map fun p => (p.1, p.2)
  | s =>
    let (negative, s) := readSign s
    (readDecimal s).map fun p =>
      let n : Int := digitsValue 10 p.1
      (if negative then -n else n, p.2)

/-- Reads an exponent: its sign and digits. -/
def readExponent : List Char → Read Int
  | c :: r =>
    if c = 'e' || c = 'E' then
      let (negative, r) := readSign r
      (readDigits Char.isDigit r).map fun p =>
        let n : Int := digitsValue 10 p.1
        (if negative then -n else n, p.2)
    else none
  | [] => none

/-- Reads a fraction: its digits. -/
def readFraction : List Char → Read (List Char)
  | '.' :: r => readDigits Char.isDigit r
  | _ => none

/-- Whether `digits * 10 ^ exponent` rounds to a number beyond the largest double: it is at least
`2 ^ 1024 - 2 ^ 970`. -/
def exceedsDouble (digits : List Char) (exponent : Int) : Bool :=
  let significant := digits.dropWhile (· = '0')
  let size : Int := significant.length + exponent
  if significant.isEmpty || size < 309 then false
  else if 309 < size then true
  else
    let n := digitsValue 10 significant
    let bound := Nat.pow 2 1024 - Nat.pow 2 970
    if 0 ≤ exponent then bound ≤ n * Nat.pow 10 exponent.toNat
    else bound * Nat.pow 10 (-exponent).toNat ≤ n

/-- Reads a number with a fraction or an exponent, or one of `inf` and `nan`. A positive number beyond the
largest double is refused. -/
def readFloat (s : List Char) : Option (Unit × List Char) :=
  let (negative, s) := readSign s
  match s with
  | 'i' :: 'n' :: 'f' :: r => some ((), r)
  | 'n' :: 'a' :: 'n' :: r => some ((), r)
  | s => do
    let (whole, r) ← readDecimal s
    match readFraction r with
    | some (fraction, r) =>
      let (exponent, r) := (readExponent r).getD (0, r)
      if !negative && exceedsDouble (whole ++ fraction) (exponent - fraction.length) then none else some ((), r)
    | none =>
      let (exponent, r) ← readExponent r
      if !negative && exceedsDouble whole exponent then none else some ((), r)

/-! ### Dates and times -/

/-- Reads two digits of a number within bounds. -/
def readTwo (least greatest : Nat) : List Char → Read Nat
  | a :: b :: r =>
    if a.isDigit && b.isDigit then
      let n := digitsValue 10 [a, b]
      if least ≤ n ∧ n ≤ greatest then some (n, r) else none
    else none
  | _ => none

/-- The number of days of a month. -/
def daysInMonth (year month : Nat) : Nat :=
  if month = 2 then if year % 4 = 0 ∧ (year % 100 ≠ 0 ∨ year % 400 = 0) then 29 else 28
  else if month = 4 ∨ month = 6 ∨ month = 9 ∨ month = 11 then 30
  else 31

/-- Reads a date. -/
def readDate : List Char → Option (List Char)
  | a :: b :: c :: d :: '-' :: r => do
    if !(a.isDigit && b.isDigit && c.isDigit && d.isDigit) then none
    let (month, r) ← readTwo 1 12 r
    match r with
    | '-' :: r =>
      let (_, r) ← readTwo 1 (daysInMonth (digitsValue 10 [a, b, c, d]) month) r
      some r
    | _ => none
  | _ => none

/-- Reads a time of day. -/
def readTime (s : List Char) : Option (List Char) := do
  let (_, r) ← readTwo 0 23 s
  match r with
  | ':' :: r =>
    let (_, r) ← readTwo 0 59 r
    match r with
    | ':' :: r =>
      let (_, r) ← readTwo 0 60 r
      match r with
      | '.' :: c :: r => if c.isDigit then some (r.dropWhile Char.isDigit) else none
      | r => some r
    | _ => none
  | _ => none

/-- Skips an offset from universal time, if there is one. -/
def skipOffset : List Char → List Char
  | 'Z' :: r => r
  | 'z' :: r => r
  | c :: r =>
    if c = '+' || c = '-' then
      match readTwo 0 23 r with
      | some (_, ':' :: s) =>
        match readTwo 0 59 s with
        | some (_, s) => s
        | none => c :: r
      | _ => c :: r
    else c :: r
  | [] => []

/-- Reads a date with or without a time, or a time. -/
def readDateTime (s : List Char) : Option (List Char) :=
  match readDate s with
  | none => readTime s
  | some (c :: r) =>
    if c = 'T' || c = 't' || c = ' ' then
      match readTime r with
      | some r => some (skipOffset r)
      | none => some (c :: r)
    else some (c :: r)
  | some [] => some []

/-! ### Keys -/

/-- Whether a character may stand in a key without quotes. -/
def isBareKeyChar (c : Char) : Bool := c.isAlphanum || c = '_' || c = '-'

/-- Reads one part of a key. -/
def readKeyPart (s : List Char) : Read String :=
  match readShortString s with
  | some p => some p
  | none =>
    let bare := s.takeWhile isBareKeyChar
    if bare.isEmpty then none else some (String.ofList bare, s.dropWhile isBareKeyChar)

/-- Reads a key of at most `limit` parts with dots between them. -/
def readKeyParts : (limit : Nat) → List Char → Option (List String × List Char)
  | 0, _ => none
  | limit + 1, s => do
    let (part, r) ← readKeyPart s
    match skipSpace r with
    | '.' :: r' =>
      let (parts, rest) ← readKeyParts limit (skipSpace r')
      some (part :: parts, rest)
    | _ => some ([part], r)

/-- How many parts a key may have, and how many brackets and braces may be open around a value. -/
def nestingLimit : Nat := 79

/-- Reads a key. -/
def readKey (s : List Char) : Option (List String × List Char) := readKeyParts nestingLimit s

end ServletContainer.Toml
