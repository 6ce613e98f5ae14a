import ServletContainer.Text.Split

namespace ServletContainer

/-!
# Network addresses

* `IpAddress.parse?` — reads an address of version 4 (four numbers) or 6 (eight groups, of which zeros may be
  left out once, and the last two may be written as a version 4 address).
* `IpAddress.text` — the shortest text of an address.
* `socketAddress` — an address with a port.
-/

/-- An address. -/
inductive IpAddress where
  | v4 (a b c d : Nat)
  /-- Eight groups of 16 bits. -/
  | v6 (groups : List Nat)
  deriving DecidableEq, Repr

namespace IpAddress

/-! ### Reading -/

/-- The value of a digit of base ten or sixteen. -/
def digitOf? (base : Nat) (c : Char) : Option Nat :=
  let n := c.toNat
  let v := if '0'.toNat ≤ n ∧ n ≤ '9'.toNat then some (n - '0'.toNat)
    else if 'a'.toNat ≤ n ∧ n ≤ 'f'.toNat then some (n - 'a'.toNat + 10)
    else if 'A'.toNat ≤ n ∧ n ≤ 'F'.toNat then some (n - 'A'.toNat + 10)
    else none
  v.filter (· < base)

/-- Reads the digits ahead: their number, their value, and the rest. -/
def readDigits (base count value : Nat) : List Char → Nat × Nat × List Char
  | [] => (count, value, [])
  | c :: r =>
    match digitOf? base c with
    | some d => readDigits base (count + 1) (value * base + d) r
    | none => (count, value, c :: r)

/-- Reads a number of one to three decimal digits below 256, without leading zeros. -/
def readOctet (s : List Char) : Option (Nat × List Char) :=
  let (count, value, rest) := readDigits 10 0 0 s
  if count = 0 ∨ 3 < count ∨ 255 < value ∨ (1 < count ∧ s.head? = some '0') then none else some (value, rest)

/-- Reads a group of one to four hexadecimal digits. -/
def readGroup (s : List Char) : Option (Nat × List Char) :=
  let (count, value, rest) := readDigits 16 0 0 s
  if count = 0 ∨ 4 < count then none else some (value, rest)

/-- Passes over a mark. -/
def skipMark (c : Char) : List Char → Option (List Char)
  | d :: r => if d = c then some r else none
  | [] => none

/-- Reads four numbers with dots between them. -/
def readV4 (s : List Char) : Option ((Nat × Nat × Nat × Nat) × List Char) := do
  let (a, s) ← readOctet s
  let s ← skipMark '.' s
  let (b, s) ← readOctet s
  let s ← skipMark '.' s
  let (c, s) ← readOctet s
  let s ← skipMark '.' s
  let (d, s) ← readOctet s
  some ((a, b, c, d), s)

/-- Reads at most `room` groups with colons between them: the groups, whether a version 4 address ended them, and
the rest. `first` tells that no colon is due yet. -/
def readGroups : (room : Nat) → (first : Bool) → List Char → List Nat × Bool × List Char
  | 0, _, s => ([], false, s)
  | room + 1, first, s =>
    match if first then some s else skipMark ':' s with
    | none => ([], false, s)
    | some ahead =>
      match if 0 < room then readV4 ahead else none with
      | some ((a, b, c, d), rest) => ([a * 256 + b, c * 256 + d], true, rest)
      | none =>
        match readGroup ahead with
        | none => ([], false, s)
        | some (g, rest) =>
          let (gs, ended, rest) := readGroups room false rest
          (g :: gs, ended, rest)

/-- Reads eight groups, of which zeros may be left out at one double colon. -/
def readV6 (s : List Char) : Option (List Nat × List Char) :=
  let (head, ended, rest) := readGroups 8 true s
  if head.length = 8 then some (head, rest)
  else if ended then none
  else match rest with
    | ':' :: ':' :: rest =>
      let (tail, _, rest) := readGroups (7 - head.length) true rest
      some (head ++ List.replicate (8 - head.length - tail.length) 0 ++ tail, rest)
    | _ => none

/-- Reads an address. -/
def parse? (text : String) : Option IpAddress :=
  match readV4 text.toList with
  | some ((a, b, c, d), rest) => if rest.isEmpty then some (.v4 a b c d) else none
  | none =>
    match readV6 text.toList with
    | some (groups, rest) => if rest.isEmpty then some (.v6 groups) else none
    | none => none

/-! ### Writing -/

/-- The text of four numbers. -/
def dotted (a b c d : Nat) : String :=
  toString a ++ "." ++ toString b ++ "." ++ toString c ++ "." ++ toString d

/-- The text of a group. -/
def groupText (g : Nat) : String := String.ofList (Nat.toDigits 16 g)

/-- The text of groups. -/
def groupsText (gs : List Nat) : String := Text.joinWith ":" (gs.map groupText)

/-- The number of zeros that groups start with. -/
def zeroRun (gs : List Nat) : Nat := (gs.takeWhile (· = 0)).length

/-- The place and length of the first longest run of zeros, from the place `i` on. -/
def longestRun (i : Nat) : List Nat → Nat × Nat
  | [] => (i, 0)
  | g :: gs =>
    let (at_, size) := longestRun (i + 1) gs
    if size ≤ zeroRun (g :: gs) then (i, zeroRun (g :: gs)) else (at_, size)

/-- The text of eight groups: a version 4 address within them is written as one, and else the first longest run of
more than one zero is left out. -/
def v6Text (gs : List Nat) : String :=
  match gs with
  | [0, 0, 0, 0, 0, 0xFFFF, x, y] => "::ffff:" ++ dotted (x / 256) (x % 256) (y / 256) (y % 256)
  | _ =>
    let (i, size) := longestRun 0 gs
    if 1 < size then groupsText (gs.take i) ++ "::" ++ groupsText (gs.drop (i + size)) else groupsText gs

/-- The text of an address. -/
def text : IpAddress → String
  | .v4 a b c d => dotted a b c d
  | .v6 gs => v6Text gs

end IpAddress

/-- The text of an address with a port. -/
def socketAddress (ip : IpAddress) (port : Nat) : String :=
  match ip with
  | .v4 a b c d => IpAddress.dotted a b c d ++ ":" ++ toString port
  | .v6 gs => "[" ++ IpAddress.v6Text gs ++ "]:" ++ toString port

end ServletContainer
