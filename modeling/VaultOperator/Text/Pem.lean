import VaultOperator.Text.Base64
import VaultOperator.Text.Split

/-!
PEM bundles: sections of base64 between a line that begins and one that ends them. Text outside of
sections does not matter.
-/

namespace VaultOperator.Text.Pem

def beginMark : List Char := "-----BEGIN ".toList

def dashes : List Char := "-----".toList

/-- A section that has begun: what ends it, and what it holds so far. -/
structure Section where
  endMark : List Char
  content : List Char
  deriving DecidableEq, Repr

def trimEnd (line : List Char) : List Char :=
  (line.reverse.dropWhile (· == ' ')).reverse

/-- The lines of a text. They end with a line feed or a carriage return. -/
def lines (text : List Char) : List (List Char) :=
  split '\n' (text.map fun c => if c = '\x0d' then '\n' else c)

/-- The section that a line begins; an error if the line is not as it has to be. -/
def begin? (line : List Char) : Option (Except Unit Section) :=
  if beginMark.isPrefixOf line then
    let rest := (trimEnd line).drop beginMark.length
    let label := rest.take (rest.length - dashes.length)
    if rest = label ++ dashes ∧ label.getLast? ≠ some '-' then
      some (.ok ⟨"-----END ".toList ++ label ++ dashes, []⟩)
    else some (.error ())
  else none

/-- All sections of the lines are complete and hold base64. -/
def checkLines : Option Section → List (List Char) → Bool
  | none, [] => true
  | some _, [] => false
  | open?, line :: lines =>
    match begin? line with
    | some (.ok opened) => checkLines (some opened) lines
    | some (.error ()) => false
    | none =>
      match open? with
      | none => checkLines none lines
      | some opened =>
        if opened.endMark.isPrefixOf line then
          (decodeBase64Chars opened.content).isSome && checkLines none lines
        else checkLines (some { opened with content := opened.content ++ trimEnd line }) lines

/-- A bundle can be read. One without any section can. -/
def isReadable (bundle : String) : Bool :=
  checkLines none (lines bundle.toList)

end VaultOperator.Text.Pem
