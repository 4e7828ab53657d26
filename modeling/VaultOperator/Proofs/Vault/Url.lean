import Mathlib.Data.List.DropRight
import Mathlib.Data.List.Flatten
import VaultOperator.Proofs.Path.Canonical
import VaultOperator.Text.Hex
import VaultOperator.Vault.Client

/-!
# Reading a URL

How a text is read as a URL of HTTP. What is between the scheme and the path is left to a reading of
its own, that of credentials, host and port.
-/

namespace VaultOperator.Vault

inductive Scheme where
  | http
  | https
  deriving DecidableEq, Repr

def Scheme.name : Scheme → List Char
  | .http => "http".toList
  | .https => "https".toList

/-- What a URL of HTTP says. The path is the bytes that the server sees, with slashes between its
segments. -/
structure Url (Host : Type) where
  scheme : Scheme
  host : Host
  path : List UInt8
  query : Option (List Char)
  fragment : Option (List Char)
  deriving DecidableEq

namespace Url

open Text (split)

def utf8 (cs : List Char) : List UInt8 :=
  cs.flatMap String.utf8EncodeChar

/-- A control character or a space. -/
def isEdge (c : Char) : Bool :=
  c ≤ ' '

def isRemoved (c : Char) : Bool :=
  c == '\t' || c == '\n' || c == '\r'

/-- The text without control characters and spaces at its ends, and without tabs and line ends. -/
def tidy (cs : List Char) : List Char :=
  ((cs.dropWhile isEdge).rdropWhile isEdge).filter fun c => !isRemoved c

/-- The text before the first mark, and the text behind it if there is one. -/
def cut (mark : Char) (cs : List Char) : List Char × Option (List Char) :=
  (cs.takeWhile (· != mark), (cs.dropWhile (· != mark)).tail?)

/-- A backslash is read as a slash. -/
def slashed (c : Char) : Char :=
  if c = '\\' then '/' else c

def scheme? (name : List Char) : Option Scheme :=
  let name := name.map Char.toLower
  if name = Scheme.name .http then some .http
  else if name = Scheme.name .https then some .https
  else none

/-- The segment stands for the place it is in. -/
def isDot (segment : List Char) : Bool :=
  segment.map Char.toLower ∈ [".".toList, "%2e".toList]

/-- The segment stands for the place above. -/
def isDoubleDot (segment : List Char) : Bool :=
  segment.map Char.toLower ∈ ["..".toList, ".%2e".toList, "%2e.".toList, "%2e%2e".toList]

/-- The segment stands for a place and is no part of the path itself. -/
def IsPlace (segment : List Char) : Prop :=
  isDot segment ∨ isDoubleDot segment

instance (segment : List Char) : Decidable (IsPlace segment) :=
  inferInstanceAs (Decidable (_ ∨ _))

/-- Follows the segments from `done` on. Where the last one stands for a place, the path ends with
a slash. -/
def resolve (done : List (List Char)) : List (List Char) → List (List Char)
  | [] => done
  | segment :: rest =>
    if IsPlace segment then
      let done := if isDoubleDot segment then done.dropLast else done
      resolve (if rest.isEmpty then done ++ [[]] else done) rest
    else resolve (done ++ [segment]) rest

/-- The byte that is written as a percent sign and two hexadecimal digits. -/
def escaped? (c high low : Char) : Option UInt8 :=
  if c = '%' then do
    let byte := (← Text.hexValue? high.toLower) * 16 + (← Text.hexValue? low.toLower)
    some (UInt8.ofNat byte)
  else none

/-- The bytes of a text, with those in the place of escapes that these are for. -/
def unescape : List Char → List UInt8
  | [] => []
  | [c] => utf8 [c]
  | [c, d] => utf8 [c, d]
  | c :: high :: low :: rest =>
    match escaped? c high low with
    | some byte => byte :: unescape rest
    | none => String.utf8EncodeChar c ++ unescape (high :: low :: rest)

/-- Segments, with a slash before each of them. -/
def written (segments : List (List Char)) : List Char :=
  segments.flatMap ('/' :: ·)

/-- The path that the text behind the host stands for. -/
def pathOf (cs : List Char) : List UInt8 :=
  unescape (written (resolve [] (split '/' cs.tail)))

/-- Reads a text as a URL; `host?` reads what is between the scheme and the path. -/
def read? (host? : List Char → Option Host) (text : String) : Option (Url Host) := do
  let (text, fragment) := cut '#' (tidy text.toList)
  let (text, query) := cut '?' text
  let (name, rest) := cut ':' (text.map slashed)
  let scheme ← scheme? name
  let rest := (← rest).dropWhile (· == '/')
  let host ← host? (rest.takeWhile (· != '/'))
  some { scheme, host, path := pathOf (rest.dropWhile (· != '/')), query, fragment }

example : (read? some "https://vault:8200/v1/kv/../sys/%61?b#c").map (fun u => (u.path, u.query)) =
    some (utf8 "/v1/sys/a".toList, some ['b']) := by decide

-- ---------------------------------------------------------------------------
-- Bytes
-- ---------------------------------------------------------------------------

theorem utf8_cons (c : Char) (cs : List Char) :
    utf8 (c :: cs) = String.utf8EncodeChar c ++ utf8 cs :=
  List.flatMap_cons

theorem utf8_append (cs ds : List Char) : utf8 (cs ++ ds) = utf8 cs ++ utf8 ds :=
  List.flatMap_append

theorem utf8_injective {cs ds : List Char} (h : utf8 cs = utf8 ds) : cs = ds := by
  have hdecoded : some cs.toArray = some ds.toArray := by
    rw [← List.utf8Decode?_utf8Encode, ← List.utf8Decode?_utf8Encode]
    exact congrArg (fun bytes => bytes.toByteArray.utf8Decode?) h
  simpa using hdecoded

theorem length_utf8EncodeChar_pos (c : Char) : 0 < (String.utf8EncodeChar c).length := by
  rw [String.length_utf8EncodeChar]
  exact c.utf8Size_pos

theorem length_utf8_le {cs ds : List Char} (h : List.Sublist cs ds) :
    (utf8 cs).length ≤ (utf8 ds).length :=
  (h.flatMap _).length_le

-- ---------------------------------------------------------------------------
-- Escapes
-- ---------------------------------------------------------------------------

/-- Somewhere in the text a byte is written by its digits. -/
def HasEscape (cs : List Char) : Prop :=
  ∃ high low, (escaped? '%' high low).isSome ∧ ['%', high, low] <:+: cs

theorem percent_of_escaped? (h : (escaped? c high low).isSome) : c = '%' := by
  by_contra hc
  simp [escaped?, hc] at h

theorem hasEscape_cons_iff {c : Char} {cs : List Char} : HasEscape (c :: cs) ↔
    (∃ high low, (escaped? c high low).isSome ∧ [high, low] <+: cs) ∨ HasEscape cs := by
  constructor
  · rintro ⟨high, low, hbyte, hin⟩
    rcases List.infix_cons_iff.1 hin with hstart | hrest
    · obtain ⟨hc, hstart⟩ := List.cons_prefix_cons.1 hstart
      exact .inl ⟨high, low, hc ▸ hbyte, hstart⟩
    · exact .inr ⟨high, low, hbyte, hrest⟩
  · rintro (⟨high, low, hbyte, hstart⟩ | ⟨high, low, hbyte, hrest⟩)
    · obtain rfl := percent_of_escaped? hbyte
      exact ⟨high, low, hbyte, List.infix_cons_iff.2 (.inl (List.cons_prefix_cons.2 ⟨rfl, hstart⟩))⟩
    · exact ⟨high, low, hbyte, List.infix_cons_iff.2 (.inr hrest)⟩

theorem hasEscape_append_iff {cs ds : List Char} (h : '%' ∉ cs) :
    HasEscape (cs ++ ds) ↔ HasEscape ds := by
  induction cs with
  | nil => rfl
  | cons c cs ih =>
    rw [List.mem_cons, not_or] at h
    rw [List.cons_append, hasEscape_cons_iff, ih h.2, or_iff_right]
    rintro ⟨high, low, hbyte, -⟩
    exact h.1 (percent_of_escaped? hbyte).symm

/-- A text without escapes stands for its own bytes, and one with some for fewer. -/
theorem unescape_spec (cs : List Char) :
    ¬ HasEscape cs ∧ unescape cs = utf8 cs ∨
      HasEscape cs ∧ (unescape cs).length < (utf8 cs).length := by
  have hshort (cs : List Char) (h : cs.length < 3) : ¬ HasEscape cs := by
    rintro ⟨high, low, -, hin⟩
    exact absurd hin.length_le (by simpa using h)
  -- An escape starts with a percent sign and has none among its digits, so no two of them overlap.
  fun_induction unescape cs with
  | case1 => exact .inl ⟨hshort _ (by simp), rfl⟩
  | case2 c => exact .inl ⟨hshort _ (by simp), rfl⟩
  | case3 c d => exact .inl ⟨hshort _ (by simp), rfl⟩
  | case4 c high low rest byte hbyte ih =>
    refine .inr ⟨hasEscape_cons_iff.2 (.inl ⟨high, low, by simp [hbyte], by simp⟩), ?_⟩
    have hrest : (unescape rest).length ≤ (utf8 rest).length := by
      rcases ih with ⟨-, ih⟩ | ⟨-, ih⟩
      · rw [ih]
      · exact ih.le
    have hsize := length_utf8EncodeChar_pos
    have hc := hsize c
    have hhigh := hsize high
    simp only [utf8_cons, List.length_append, List.length_cons]
    omega
  | case5 c high low rest hnone ih =>
    have hstart : ¬ ∃ high' low', (escaped? c high' low').isSome ∧
        [high', low'] <+: high :: low :: rest := by
      rintro ⟨high', low', hbyte, hprefix⟩
      obtain ⟨rfl, rfl⟩ : high' = high ∧ low' = low := by simpa using hprefix
      simp [hnone] at hbyte
    rw [hasEscape_cons_iff, or_iff_right hstart, utf8_cons]
    rcases ih with ⟨hplain, ih⟩ | ⟨hescape, ih⟩
    · exact .inl ⟨hplain, by rw [ih]⟩
    · refine .inr ⟨hescape, ?_⟩
      rw [List.length_append, List.length_append]
      omega

theorem hasEscape_iff {cs : List Char} : HasEscape cs ↔ unescape cs ≠ utf8 cs := by
  rcases unescape_spec cs with ⟨hplain, h⟩ | ⟨hescape, h⟩
  · exact iff_of_false hplain (not_not.2 h)
  · exact iff_of_true hescape fun hsame => absurd (congrArg List.length hsame) h.ne

theorem length_unescape_le (cs : List Char) : (unescape cs).length ≤ (utf8 cs).length := by
  rcases unescape_spec cs with ⟨-, h⟩ | ⟨-, h⟩
  · rw [h]
  · exact h.le

-- ---------------------------------------------------------------------------
-- Segments that stand for a place
-- ---------------------------------------------------------------------------

/-- The number of bytes that segments take up in a path. -/
def size (segments : List (List Char)) : Nat :=
  (utf8 (written segments)).length

theorem size_append (first second : List (List Char)) :
    size (first ++ second) = size first + size second := by
  simp [size, written, utf8_append]

theorem size_cons (segment : List Char) (rest : List (List Char)) :
    size (segment :: rest) = size [segment] + size rest :=
  size_append [segment] rest

theorem size_dropLast_le (segments : List (List Char)) : size segments.dropLast ≤ size segments :=
  length_utf8_le (segments.dropLast_sublist.flatMap _)

theorem IsPlace.size {segment : List Char} (h : IsPlace segment) : size [[]] < size [segment] := by
  cases segment with
  | nil => exact absurd h (by decide)
  | cons c segment =>
    have hc := length_utf8EncodeChar_pos c
    have hnil : (utf8 []).length = 0 := rfl
    simp only [Url.size, written, List.flatMap_singleton, utf8_cons, List.length_append]
    omega

/-- Segments that stand for no place are left as they are, and there is less left of others. -/
theorem resolve_spec (done segments : List (List Char)) :
    (∀ segment ∈ segments, ¬ IsPlace segment) ∧ resolve done segments = done ++ segments ∨
      (∃ segment ∈ segments, IsPlace segment) ∧
        size (resolve done segments) < size (done ++ segments) := by
  induction segments generalizing done with
  | nil => simp [resolve]
  | cons segment rest ih =>
    by_cases hplace : IsPlace segment
    · have hdone : ∃ done', resolve done (segment :: rest) = resolve done' rest ∧
          size done' ≤ size done + size [[]] := by
        have hback : size (if isDoubleDot segment then done.dropLast else done) ≤ size done := by
          split
          · exact size_dropLast_le done
          · exact le_rfl
        refine ⟨_, by rw [resolve, if_pos hplace], ?_⟩
        split
        · rw [size_append]
          omega
        · omega
      obtain ⟨done', hresolve, hsize⟩ := hdone
      have hrest : size (resolve done' rest) ≤ size (done' ++ rest) := by
        rcases ih done' with ⟨-, h⟩ | ⟨-, h⟩
        · rw [h]
        · exact h.le
      have hsegment := hplace.size
      refine .inr ⟨⟨segment, List.mem_cons_self, hplace⟩, ?_⟩
      rw [size_append] at hrest
      rw [hresolve, size_append, size_cons]
      omega
    · have hresolve : resolve done (segment :: rest) = resolve (done ++ [segment]) rest := by
        rw [resolve, if_neg hplace]
      rw [hresolve, List.forall_mem_cons, List.exists_mem_cons_iff, List.append_cons]
      simpa [hplace] using ih (done ++ [segment])

-- ---------------------------------------------------------------------------
-- Paths
-- ---------------------------------------------------------------------------

theorem written_split (cs : List Char) : written (split '/' cs) = '/' :: cs := by
  have hjoin (pieces : List (List Char)) (h : pieces ≠ []) :
      written pieces = '/' :: Text.joinWith '/' pieces := by
    induction pieces with
    | nil => exact absurd rfl h
    | cons piece rest ih =>
      cases rest with
      | nil => simp [written, Text.joinWith]
      | cons next rest =>
        have := ih (List.cons_ne_nil _ _)
        simp_all [written, Text.joinWith]
  rw [hjoin _ (Text.split_ne_nil _ _), Text.joinWith_split]

/-- The path of a text is the text, where no segment stands for a place and there are no escapes;
else it has fewer bytes. -/
theorem pathOf_spec (cs : List Char) :
    (∀ segment ∈ split '/' cs, ¬ IsPlace segment) ∧ ¬ HasEscape cs ∧
        pathOf ('/' :: cs) = utf8 ('/' :: cs) ∨
      ((∃ segment ∈ split '/' cs, IsPlace segment) ∨ HasEscape cs) ∧
        (pathOf ('/' :: cs)).length < (utf8 ('/' :: cs)).length := by
  have hescape : HasEscape (['/'] ++ cs) ↔ HasEscape cs := hasEscape_append_iff (by decide)
  rw [pathOf, List.tail_cons]
  rcases resolve_spec [] (split '/' cs) with ⟨hnone, hresolve⟩ | ⟨hplace, hless⟩
  · rw [hresolve, List.nil_append, written_split]
    rcases unescape_spec ('/' :: cs) with ⟨hplain, h⟩ | ⟨hsome, h⟩
    · exact .inl ⟨hnone, mt hescape.2 hplain, h⟩
    · exact .inr ⟨.inr (hescape.1 hsome), h⟩
  · refine .inr ⟨.inl hplace, (length_unescape_le _).trans_lt ?_⟩
    rwa [List.nil_append, size, size, written_split] at hless

end Url

end VaultOperator.Vault
