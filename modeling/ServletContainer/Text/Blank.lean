namespace ServletContainer.Text

/-!
# Blanks

The characters that count as white space around words, and the two readings that skip them.

* `isBlank` — the Unicode property `White_Space`.
* `trim` — a text without the blanks at both ends.
* `words` — the maximal runs of other characters.
-/

/-- The 25 characters with the Unicode property `White_Space`. -/
def isBlank (c : Char) : Bool :=
  let n := c.toNat
  (9 ≤ n && n ≤ 13) || n == 32 || n == 0x85 || n == 0xA0 || n == 0x1680
    || (0x2000 ≤ n && n ≤ 0x200A) || n == 0x2028 || n == 0x2029 || n == 0x202F || n == 0x205F
    || n == 0x3000

/-- A text without the blanks at both ends. -/
def trimBlanks (s : List Char) : List Char :=
  ((s.dropWhile isBlank).reverse.dropWhile isBlank).reverse

/-- Reads words: `begun` holds the characters of the word begun, last one first. -/
def wordsFrom (begun : List Char) : List Char → List (List Char)
  | [] => if begun.isEmpty then [] else [begun.reverse]
  | c :: r =>
    if isBlank c then
      if begun.isEmpty then wordsFrom [] r else begun.reverse :: wordsFrom [] r
    else wordsFrom (c :: begun) r

/-- The maximal runs of characters that are not blank. -/
def words (s : String) : List String := (wordsFrom [] s.toList).map String.ofList

/-- `trimBlanks` on strings. -/
def trim (s : String) : String := String.ofList (trimBlanks s.toList)

/-- A string without the characters `c` at both ends. -/
def trimMark (c : Char) (s : String) : String :=
  String.ofList (((s.toList.dropWhile (· = c)).reverse.dropWhile (· = c)).reverse)

end ServletContainer.Text
