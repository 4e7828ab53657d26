/-!
Cutting text at a separator character and putting the pieces together again.
-/

namespace VaultOperator.Text

/-- The pieces between occurrences of `sep`; there is one more of them than occurrences. -/
def split (sep : Char) : List Char → List (List Char)
  | [] => [[]]
  | c :: cs =>
    if c = sep then [] :: split sep cs
    else
      match split sep cs with
      | [] => [[c]]
      | piece :: pieces => (c :: piece) :: pieces

/-- The pieces with `sep` between each two of them. -/
def joinWith (sep : Char) : List (List Char) → List Char
  | [] => []
  | [piece] => piece
  | piece :: next :: pieces => piece ++ sep :: joinWith sep (next :: pieces)

/-- The text `needle` occurs somewhere in `text`. -/
def occursIn (needle : List Char) : List Char → Bool
  | [] => needle.isEmpty
  | c :: cs => needle.isPrefixOf (c :: cs) || occursIn needle cs

def contains (text needle : String) : Bool :=
  occursIn needle.toList text.toList

theorem split_ne_nil (sep : Char) (cs : List Char) : split sep cs ≠ [] := by
  induction cs with
  | nil => simp [split]
  | cons c cs ih =>
    rw [split]
    split
    · simp
    · split <;> simp

theorem joinWith_split (sep : Char) (cs : List Char) : joinWith sep (split sep cs) = cs := by
  induction cs with
  | nil => rfl
  | cons c cs ih =>
    rw [split]
    split
    · next h =>
      match hs : split sep cs with
      | [] => exact absurd hs (split_ne_nil sep cs)
      | piece :: pieces => rw [hs] at ih; simp [joinWith, ih, h]
    · match hs : split sep cs with
      | [] => exact absurd hs (split_ne_nil sep cs)
      | [piece] => rw [hs] at ih; simp_all [joinWith]
      | piece :: next :: pieces => rw [hs] at ih; simp_all [joinWith]

end VaultOperator.Text
