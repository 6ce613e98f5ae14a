namespace ServletContainer.Text.Utf8

/-!
# UTF-8

* `encode` — the bytes of a text.
* `next` — reads one character, or the longest start of one that the bytes still allow.
* `decode?` — the text of bytes that are well formed.
* `decodeLossy` — the text of any bytes, with U+FFFD for each part that is not well formed.
-/

/-- The bytes of a text. -/
def encode (s : String) : List UInt8 := s.toList.flatMap String.utf8EncodeChar

theorem encode_append (s t : String) : encode (s ++ t) = encode s ++ encode t := by
  simp [encode]

/-! ### One character -/

/-- Whether a byte continues a character. -/
def isTail (b : UInt8) : Bool := 0x80 ≤ b && b ≤ 0xBF

/-- Whether `b` may follow the first byte `a` of a character: besides the shape this rules out over-long
forms, surrogates and code points above U+10FFFF. -/
def maySecond (a b : UInt8) : Bool :=
  if a = 0xE0 then 0xA0 ≤ b && b ≤ 0xBF
  else if a = 0xED then 0x80 ≤ b && b ≤ 0x9F
  else if a = 0xF0 then 0x90 ≤ b && b ≤ 0xBF
  else if a = 0xF4 then 0x80 ≤ b && b ≤ 0x8F
  else isTail b

/-- The low six bits of a continuing byte. -/
def low (b : UInt8) : Nat := b.toNat % 64

/-- Reads the character that starts with the byte `a`: the character, or none where the bytes break off
before it is complete, and the bytes not read. -/
def next (a : UInt8) (rest : List UInt8) : Option Char × List UInt8 :=
  if a < 0x80 then (some (Char.ofNat a.toNat), rest)
  else if 0xC2 ≤ a && a ≤ 0xDF then
    match rest with
    | b :: r => if isTail b then (some (Char.ofNat (a.toNat % 32 * 64 + low b)), r) else (none, rest)
    | [] => (none, [])
  else if 0xE0 ≤ a && a ≤ 0xEF then
    match rest with
    | b :: r =>
      if maySecond a b then
        match r with
        | c :: r' =>
          if isTail c then (some (Char.ofNat ((a.toNat % 16 * 64 + low b) * 64 + low c)), r') else (none, r)
        | [] => (none, [])
      else (none, rest)
    | [] => (none, [])
  else if 0xF0 ≤ a && a ≤ 0xF4 then
    match rest with
    | b :: r =>
      if maySecond a b then
        match r with
        | c :: r' =>
          if isTail c then
            match r' with
            | d :: r'' =>
              if isTail d then
                (some (Char.ofNat (((a.toNat % 8 * 64 + low b) * 64 + low c) * 64 + low d)), r'')
              else (none, r')
            | [] => (none, [])
          else (none, r)
        | [] => (none, [])
      else (none, rest)
    | [] => (none, [])
  else (none, rest)

theorem length_next_le (a : UInt8) (rest : List UInt8) : (next a rest).2.length ≤ rest.length := by
  unfold next
  repeat' split
  all_goals simp only [List.length_cons, List.length_nil, Nat.le_refl, Nat.zero_le]
  all_goals omega

/-! ### Texts -/

/-- The characters of the bytes, none for each part that is not well formed. -/
def chars : List UInt8 → List (Option Char)
  | [] => []
  | a :: r => (next a r).1 :: chars (next a r).2
termination_by bs => bs.length
decreasing_by
  have := length_next_le a r
  simp only [List.length_cons]
  omega

/-- The text of well-formed bytes. -/
def decode? (bs : List UInt8) : Option String := ((chars bs).mapM id).map String.ofList

/-- The text of any bytes. -/
def decodeLossy (bs : List UInt8) : String :=
  String.ofList ((chars bs).map fun c => c.getD (Char.ofNat 0xFFFD))

end ServletContainer.Text.Utf8
