import ServletContainer.Text.Base64
import ServletContainer.Text.Split

namespace ServletContainer

/-!
# PEM files

A PEM file holds sections between `BEGIN` and `END` lines; the lines outside sections do not count.

* `Pem.sections` — the sections of a file that are well formed up to the first fault.
* `Pem.hasCertificate?`, `Pem.hasKey?` — what a file holds, as far as it is read.
-/

namespace Pem

/-- The kinds of sections that are known. Others are skipped, whatever they hold. -/
inductive SectionKind where
  | certificate
  | publicKey
  | privateKey
  | crl
  | request
  | echConfig
  deriving DecidableEq, Repr

/-- The kind that a label names. -/
def kindOf? : List Char → Option SectionKind := fun label =>
  match String.ofList label with
  | "CERTIFICATE" => some .certificate
  | "PUBLIC KEY" => some .publicKey
  | "RSA PRIVATE KEY" => some .privateKey
  | "PRIVATE KEY" => some .privateKey
  | "EC PRIVATE KEY" => some .privateKey
  | "X509 CRL" => some .crl
  | "CERTIFICATE REQUEST" => some .request
  | "ECHCONFIG" => some .echConfig
  | _ => none

/-! ### Lines -/

/-- The lines of a text; a line feed or a carriage return ends one. -/
def linesOf (begun : List Char) : List Char → List (List Char)
  | [] => if begun.isEmpty then [] else [begun.reverse]
  | c :: r =>
    if c = '\n' ∨ c = '\r' then begun.reverse :: linesOf [] r
    else linesOf (c :: begun) r

/-- A line without the blanks at its end. -/
def trimEnd (s : List Char) : List Char := Text.trimTail ' ' s

/-- What a line does. -/
inductive LineRole where
  /-- It opens a section with a label. -/
  | opening (label : List Char)
  /-- It starts as an opening line but does not end as one. -/
  | badOpening
  | other
  deriving DecidableEq, Repr

/-- The role of a line: an opening line ends with five dashes, blanks among and behind them not counted. -/
def roleOf (line : List Char) : LineRole :=
  match Text.dropHead? "-----BEGIN ".toList line with
  | none => .other
  | some _ =>
    let tail := line.reverse.takeWhile fun c => c = '-' || c = ' '
    let dashes := (tail.reverse.dropWhile (· = ' ')).length
    if tail.count '-' = 5 then .opening ((line.take (line.length - dashes)).drop 11) else .badOpening

/-- The text that ends a section. -/
def closing (label : List Char) : List Char := "-----END ".toList ++ label ++ "-----".toList

/-! ### Sections -/

/-- Whether the content of a section is readable: base64 digits, whose last group need not be padded, and blanks. -/
def readable (content : List Char) : Bool :=
  (Text.Base64.decodeLoose? (content.filter fun c => !(c = ' ' || c = '\t' || c = '\x0b' || c = '\x0c'))).isSome

/-- The kinds of the sections, in order; at the first fault an error ends them. The section that is open is given
by its label and the content so far; a section that opens within another one takes over its content. -/
def sections : (opened : Option (List Char × List Char)) → List (List Char) → List (Except Unit SectionKind)
  | none, [] => []
  | some _, [] => [.error ()]
  | opened, line :: r =>
    match roleOf line with
    | .badOpening => [.error ()]
    | .opening label => sections (some (label, (opened.map Prod.snd).getD [])) r
    | .other =>
      match opened with
      | none => sections none r
      | some (label, content) =>
        if (Text.dropHead? (closing label) line).isSome then
          match kindOf? label with
          | none => sections none r
          | some kind => if readable content then .ok kind :: sections none r else [.error ()]
        else sections (some (label, content ++ trimEnd line)) r

/-- The sections of a file. -/
def sectionsOf (file : String) : List (Except Unit SectionKind) := sections none (linesOf [] file.toList)

/-! ### What a file holds -/

/-- Whether an entry is a fault. -/
def isFault : Except Unit SectionKind → Bool
  | .error () => true
  | .ok _ => false

/-- Whether an entry is a section of a kind. -/
def isKind (kind : SectionKind) : Except Unit SectionKind → Bool
  | .error () => false
  | .ok k => k = kind

/-- Whether a file holds a certificate. All its sections are read; none if one of them is broken. -/
def hasCertificate? (file : String) : Option Bool :=
  let found := sectionsOf file
  if found.any isFault then none else some (found.any (isKind .certificate))

/-- Whether a file holds a private key. It is read up to the first one; none if a section before it is broken. -/
def hasKey? (file : String) : Option Bool :=
  match (sectionsOf file).find? fun s => isFault s || isKind .privateKey s with
  | none => some false
  | some (.ok _) => some true
  | some (.error ()) => none

end Pem

end ServletContainer
