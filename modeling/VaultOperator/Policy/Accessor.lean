import VaultOperator.Json.Basic

/-!
Placeholders in the text of a policy. `${auth/<mount>/@accessor}` stands for the accessor that Vault
gave to an auth method; the mount is not empty and holds no closing brace.
-/

namespace VaultOperator.Policy

inductive Piece where
  | char (c : Char)
  | accessor (mount : List Char)
  deriving DecidableEq, Repr

def opening : List Char := ['$', '\x7b', 'a', 'u', 't', 'h', '/']

def closing : List Char := "/@accessor".toList

/-- The mount of the placeholder that a text starts with. -/
def mountAt? (cs : List Char) : Option (List Char) :=
  if opening.isPrefixOf cs then
    let rest := cs.drop opening.length
    let body := rest.takeWhile (· ≠ '\x7d')
    let mount := body.take (body.length - closing.length)
    if body.length < rest.length ∧ mount ≠ [] ∧ body = mount ++ closing then some mount else none
  else none

def placeholder (mount : List Char) : List Char :=
  opening ++ mount ++ closing ++ ['\x7d']

/-- The pieces of a text from the left; `inside` is the number of characters that still belong to
the last placeholder. -/
def scan : Nat → List Char → List Piece
  | _, [] => []
  | inside + 1, _ :: cs => scan inside cs
  | 0, c :: cs =>
    match mountAt? (c :: cs) with
    | some mount => .accessor mount :: scan ((placeholder mount).length - 1) cs
    | none => .char c :: scan 0 cs

def pieces (policy : String) : List Piece :=
  scan 0 policy.toList

def Piece.mount? : Piece → Option (List Char)
  | .accessor mount => some mount
  | .char _ => none

/-- The mounts that a policy refers to, each once, in the order in which they first occur. -/
def referencedMounts (policy : String) : List String :=
  (((pieces policy).filterMap Piece.mount?).foldl
    (fun seen mount => if seen.contains mount then seen else seen ++ [mount]) []).map String.ofList

def accessorOf? (table : Payload) (mount : String) : Option String :=
  match table.get? (mount ++ "/") with
  | some (.obj entry) => (Dict.ofList entry).text? "accessor"
  | _ => none

def Piece.render (table : Payload) : Piece → List Char
  | .char c => [c]
  | .accessor mount => ((accessorOf? table (String.ofList mount)).getD "").toList

/-- The text with accessors in place of the placeholders, or the first mount that has none. -/
def renderAccessors (policy : String) (table : Payload) : Except String String :=
  match (referencedMounts policy).find? fun mount => (accessorOf? table mount).isNone with
  | some mount => .error mount
  | none => .ok (String.ofList ((pieces policy).flatMap (Piece.render table)))

end VaultOperator.Policy
