import VaultOperator.Text.Blank
import VaultOperator.Text.Split

/-!
Paths of the Vault API: segments without blanks at their ends, separated by single slashes.
`segments` is the view of a raw path, and `cleanse` writes the view down again.
-/

namespace VaultOperator.Path

def separator : Char := '/'

/-- The trimmed, non-blank segments of a raw path. -/
def segmentsOf (raw : List Char) : List (List Char) :=
  ((Text.split separator raw).map Text.trimChars).filter fun segment => !segment.isEmpty

def segments (raw : String) : List String :=
  (segmentsOf raw.toList).map String.ofList

def cleanseChars (raw : List Char) : List Char :=
  Text.joinWith separator (segmentsOf raw)

/-- The canonical form of a raw path. -/
def cleanse (raw : String) : String :=
  String.ofList (cleanseChars raw.toList)

def joinRaw (parts : List String) : String :=
  String.ofList (Text.joinWith separator (parts.map String.toList))

def join (parts : List String) : String :=
  cleanse (joinRaw parts)

/-- No separator at the ends, no two in a row, and no blank at the end of a segment. -/
def isClean (path : String) : Bool :=
  let cs := path.toList
  cs.head? != some separator && cs.getLast? != some separator &&
    !Text.occursIn [separator, separator] cs &&
    (Text.split separator cs).all fun segment => Text.trimChars segment == segment

/-- The name of an object in Vault: the override if there is one that is not blank, else the
object's own name. -/
def effectiveName (override? : Option String) (objectName : String) : String :=
  match override?.map Text.trim with
  | some name => if name.isEmpty then objectName else name
  | none => objectName

end VaultOperator.Path
