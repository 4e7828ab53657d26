import Mathlib.Tactic.MkIffOfInductiveProp
import VaultOperator.Proofs.Text.Occurrence
import VaultOperator.Watch.StreamError

/-!
# Streams that are resumed from too far back

The first error with a marker in the text is the one that is told (`classify_eq`). In a text that
tells of a version that is too old, a marker of an error that comes first is in what stands around
it, or the digits of one of the two versions show the code of the error
(`IsEarlier.tells_tooOld_iff`). Where nothing around it tells of such an error, the stream is taken
for one that has expired unless a version shows a code (`expired_unless_code_shown`).
-/

namespace VaultOperator.Watch.StreamError

open Text

/-- The texts that tell of this error. -/
def markersOf (error : StreamError) : List String :=
  (markers.lookup error).getD []

def tells (error : StreamError) (text : String) : Bool :=
  (markersOf error).any (contains text)

/-- What is said of a stream that goes on from version `a`, where `b` is the oldest that is kept. -/
def tooOld (a b : Nat) : String :=
  "too old resource version: " ++ toString a ++ " (" ++ toString b ++ ")"

/-- Three digits next to each other in the decimal number `n` are those of the code. -/
def ShowsCode (code n : Nat) : Prop :=
  ∃ k, n / 10 ^ k % 1000 = code

/-- Further to the left there are no digits. -/
theorem showsCode_iff_le : ShowsCode code n ↔ ∃ k ≤ n.log2 + 1, n / 10 ^ k % 1000 = code := by
  have hzero {j : Nat} (hj : n.log2 + 1 ≤ j) : n / 10 ^ j = 0 := by
    refine Nat.div_eq_of_lt ?_
    calc n < 2 ^ (n.log2 + 1) := Nat.lt_log2_self
      _ ≤ 2 ^ j := Nat.pow_le_pow_right (by decide) hj
      _ ≤ 10 ^ j := Nat.pow_le_pow_left (by decide) j
  constructor
  · rintro ⟨k, hk⟩
    by_cases hle : k ≤ n.log2 + 1
    · exact ⟨k, hle, hk⟩
    · refine ⟨_, Nat.le_refl _, ?_⟩
      rw [hzero (Nat.le_refl _), ← hzero (Nat.le_of_not_le hle), hk]
  · rintro ⟨k, -, hk⟩
    exact ⟨k, hk⟩

instance (code n : Nat) : Decidable (ShowsCode code n) :=
  decidable_of_iff _ showsCode_iff_le.symm

-- ---------------------------------------------------------------------------
-- Telling errors apart
-- ---------------------------------------------------------------------------

theorem tells_iff : tells error text ↔ ∃ m ∈ markersOf error, m.toList <:+: text.toList := by
  simp [tells, contains_iff]

/-- The errors in the order in which they are looked for. -/
def order : List StreamError :=
  [notFound, unauthorized, expired, throttled]

theorem classify_eq (text : String) :
    classify text = (order.find? (tells · text)).getD other := by
  have hmarkers : markers = order.map fun error => (error, markersOf error) := rfl
  have hfind : markers.find? (fun entry => entry.2.any (contains text)) =
      (order.find? (tells · text)).map fun error => (error, markersOf error) := by
    rw [hmarkers, List.find?_map]
    rfl
  rw [classify, hfind]
  cases order.find? (tells · text) <;> rfl

-- ---------------------------------------------------------------------------
-- Codes in numbers
-- ---------------------------------------------------------------------------

theorem toDigits_infix_iff_showsCode (hlow : 100 ≤ code) (hhigh : code < 1000) :
    Nat.toDigits 10 code <:+: Nat.toDigits 10 n ↔ ShowsCode code n := by
  have hlength : (Nat.toDigits 10 code).length = 3 := by
    have hthree : (Nat.toDigits 10 code).length ≤ 3 ↔ code < 10 ^ 3 :=
      Nat.length_toDigits_le_iff (by decide) (by decide)
    have htwo : (Nat.toDigits 10 code).length ≤ 2 ↔ code < 10 ^ 2 :=
      Nat.length_toDigits_le_iff (by decide) (by decide)
    omega
  rw [toDigits_infix_iff (by omega), hlength]
  rfl

theorem not_infix_toDigits (hc : c ∈ marker) (hletter : ¬ c.isDigit) (n : Nat) :
    ¬ marker <:+: Nat.toDigits 10 n :=
  not_infix_of_mem hc (mt (Nat.isDigit_of_mem_toDigits (by decide) (by decide)) hletter)

/-- An error that is looked for before that of an expired stream, and its code. -/
inductive IsEarlier : StreamError → Nat → Prop
  | notFound : IsEarlier notFound 404
  | unauthorized : IsEarlier unauthorized 401

theorem IsEarlier.code_bounds (h : IsEarlier error code) : 100 ≤ code ∧ code < 1000 := by
  cases h <;> decide

theorem IsEarlier.exists_code (h : IsEarlier error code) :
    ∃ m ∈ markersOf error, m.toList = Nat.toDigits 10 code := by
  cases h <;> decide

theorem IsEarlier.code_or_word (h : IsEarlier error code) :
    ∀ m ∈ markersOf error, m.toList = Nat.toDigits 10 code ∨ m.toList.any (!·.isDigit) := by
  cases h <;> decide

/-- Of the markers of an error, only its code occurs in numbers. -/
theorem IsEarlier.infix_toDigits_iff (h : IsEarlier error code) :
    (∃ m ∈ markersOf error, m.toList <:+: Nat.toDigits 10 n) ↔ ShowsCode code n := by
  obtain ⟨hlow, hhigh⟩ := h.code_bounds
  rw [← toDigits_infix_iff_showsCode hlow hhigh]
  constructor
  · rintro ⟨m, hm, hinfix⟩
    rcases h.code_or_word m hm with hcode | hword
    · exact hcode ▸ hinfix
    · obtain ⟨c, hc, hletter⟩ := List.any_eq_true.1 hword
      exact absurd hinfix (not_infix_toDigits hc (by simpa using hletter) n)
  · intro hinfix
    obtain ⟨m, hm, hcode⟩ := h.exists_code
    exact ⟨m, hm, hcode ▸ hinfix⟩

-- ---------------------------------------------------------------------------
-- A version that is too old
-- ---------------------------------------------------------------------------

/-- What keeps a marker from reaching across the parts of `tooOld`. -/
@[mk_iff]
structure KeepsApart (marker : List Char) : Prop where
  no_colon : ':' ∉ marker
  no_opening : '(' ∉ marker
  no_closing : ')' ∉ marker
  not_inside : ¬ marker <:+: "too old resource version".toList
  not_across : ∀ back ∈ marker.tails, back <+: "too old resource version".toList → back = []
  has_letter : ' ' ∈ marker → marker.any fun c => c ≠ ' ' ∧ ¬ c.isDigit

theorem IsEarlier.keepsApart (h : IsEarlier error code) (hm : m ∈ markersOf error) :
    KeepsApart m.toList := by
  revert m
  simp only [keepsApart_iff]
  cases h <;> decide

theorem KeepsApart.infix_blank_iff (h : KeepsApart marker) (n : Nat) :
    marker <:+: ' ' :: Nat.toDigits 10 n ++ [' '] ↔ marker <:+: Nat.toDigits 10 n := by
  -- A marker without blanks is cut off by them; one with blanks is no number, so it is nowhere.
  by_cases hblank : ' ' ∈ marker
  · obtain ⟨c, hc, hother⟩ := List.any_eq_true.1 (h.has_letter hblank)
    obtain ⟨hne, hletter⟩ := of_decide_eq_true hother
    have hnumber := not_infix_toDigits hc hletter n
    have hblanks : c ∉ ' ' :: Nat.toDigits 10 n ++ [' '] := by
      simpa [hne] using mt (Nat.isDigit_of_mem_toDigits (by decide) (by decide)) hletter
    exact iff_of_false (not_infix_of_mem hc hblanks) hnumber
  · have hcut : marker <:+: [] ++ ' ' :: (Nat.toDigits 10 n ++ ' ' :: []) ↔ _ :=
      (infix_append_cons_iff hblank).trans (or_congr_right (infix_append_cons_iff hblank))
    refine hcut.trans ⟨?_, fun hinfix => .inr (.inl hinfix)⟩
    rintro (hnil | hinfix | hnil)
    · exact hnil.trans List.nil_infix
    · exact hinfix
    · exact hnil.trans List.nil_infix

theorem toList_tooOld (before after : String) (a b : Nat) :
    (before ++ tooOld a b ++ after).toList =
      (before.toList ++ "too old resource version".toList) ++ ':' ::
        ((' ' :: Nat.toDigits 10 a ++ [' ']) ++ '(' ::
          (Nat.toDigits 10 b ++ ')' :: after.toList)) := by
  have hcolon : "too old resource version: ".toList =
      "too old resource version".toList ++ [':', ' '] := by decide
  have hopen : " (".toList = [' ', '('] := by decide
  have hclose : ")".toList = [')'] := by decide
  unfold tooOld
  simp only [String.toList_append, Nat.toString_eq_repr, Nat.toList_repr, hcolon, hopen, hclose,
    List.append_assoc, List.cons_append, List.nil_append]

theorem KeepsApart.infix_tooOld_iff {before after : String} (h : KeepsApart marker) :
    marker <:+: (before ++ tooOld a b ++ after).toList ↔
      marker <:+: before.toList ∨ marker <:+: Nat.toDigits 10 a ∨
        marker <:+: Nat.toDigits 10 b ∨ marker <:+: after.toList := by
  rw [toList_tooOld, infix_append_cons_iff h.no_colon,
    infix_append_iff_of_apart h.not_inside h.not_across, infix_append_cons_iff h.no_opening,
    h.infix_blank_iff, infix_append_cons_iff h.no_closing]

theorem IsEarlier.tells_tooOld_iff (h : IsEarlier error code) :
    tells error (before ++ tooOld a b ++ after) ↔
      tells error before ∨ ShowsCode code a ∨ ShowsCode code b ∨ tells error after := by
  simp only [tells_iff, ← h.infix_toDigits_iff, ← exists_or, ← and_or_left]
  exact exists_congr fun m => and_congr_right fun hm => (h.keepsApart hm).infix_tooOld_iff

theorem tells_expired_tooOld (before after : String) (a b : Nat) :
    tells expired (before ++ tooOld a b ++ after) := by
  refine tells_iff.2 ⟨"too old resource version", by decide, ?_⟩
  rw [toList_tooOld]
  exact ⟨_, _, rfl⟩

/-- Nothing in the text tells of an error that is looked for before that of an expired stream. -/
def IsQuiet (text : String) : Prop :=
  ∀ error ∈ [notFound, unauthorized], ¬ tells error text

instance (text : String) : Decidable (IsQuiet text) :=
  inferInstanceAs (Decidable (∀ error ∈ _, _))

theorem IsEarlier.tells_tooOld_of_isQuiet (h : IsEarlier error code) (hbefore : IsQuiet before)
    (hafter : IsQuiet after) :
    tells error (before ++ tooOld a b ++ after) ↔ ∃ n ∈ [a, b], ShowsCode code n := by
  have hmem : error ∈ [.notFound, .unauthorized] := by cases h <;> decide
  simp [h.tells_tooOld_iff, hbefore error hmem, hafter error hmem]

/-- A version that is too old is told of as such, and the stream goes on at once, unless the digits
of one of the versions show the code of an error that is looked for first. -/
theorem expired_unless_code_shown {before after : String} (hbefore : IsQuiet before)
    (hafter : IsQuiet after) (a b : Nat) (htext : text = before ++ tooOld a b ++ after) :
    (classify text = .expired ↔ ∀ n ∈ [a, b], ¬ ShowsCode 404 n ∧ ¬ ShowsCode 401 n) ∧
      (classify text = .notFound ↔ ∃ n ∈ [a, b], ShowsCode 404 n) ∧
      (classify text = .unauthorized ↔
        (∃ n ∈ [a, b], ShowsCode 401 n) ∧ ∀ n ∈ [a, b], ¬ ShowsCode 404 n) ∧
      ((classify text).pauses ↔ classify text = .unauthorized) := by
  have hexpired : tells .expired text := htext ▸ tells_expired_tooOld before after a b
  have hnotFound : tells .notFound text ↔ ∃ n ∈ [a, b], ShowsCode 404 n :=
    htext ▸ IsEarlier.notFound.tells_tooOld_of_isQuiet hbefore hafter
  have hunauthorized : tells .unauthorized text ↔ ∃ n ∈ [a, b], ShowsCode 401 n :=
    htext ▸ IsEarlier.unauthorized.tells_tooOld_of_isQuiet hbefore hafter
  have hnone (code : Nat) : (∀ n ∈ [a, b], ¬ ShowsCode code n) ↔
      ¬ ∃ n ∈ [a, b], ShowsCode code n := by
    simp only [not_exists, not_and]
  simp only [forall₂_and, hnone, ← hnotFound, ← hunauthorized, classify_eq]
  cases hn : tells .notFound text <;> cases hu : tells .unauthorized text <;>
    simp [order, hn, hu, hexpired, pauses]

/-- What stands before and behind such a text where the cluster reports it. -/
def reportOpening : String :=
  "WatchFailed(Api(ErrorResponse \x7b code: 410, message: \""

def reportClosing : String :=
  "\", reason: \"Expired\" \x7d))"

/-- The same report is told as what it is for some versions, and for others it is not. -/
theorem expired_unless_code_shown_reported :
    IsQuiet reportOpening ∧ IsQuiet reportClosing ∧
      classify (reportOpening ++ tooOld 123 456 ++ reportClosing) = .expired ∧
      classify (reportOpening ++ tooOld 1401 2000 ++ reportClosing) = .unauthorized ∧
      (classify (reportOpening ++ tooOld 1401 2000 ++ reportClosing)).pauses ∧
      classify (reportOpening ++ tooOld 140 4041 ++ reportClosing) = .notFound := by
  have hopening : IsQuiet reportOpening := by decide
  have hclosing : IsQuiet reportClosing := by decide
  obtain ⟨hexpired, -⟩ := expired_unless_code_shown hopening hclosing 123 456 rfl
  obtain ⟨-, -, hunauthorized, hpauses⟩ :=
    expired_unless_code_shown hopening hclosing 1401 2000 rfl
  obtain ⟨-, hnotFound, -⟩ := expired_unless_code_shown hopening hclosing 140 4041 rfl
  have hrefused := hunauthorized.2 (by decide +kernel)
  exact ⟨hopening, hclosing, hexpired.2 (by decide +kernel), hrefused, hpauses.2 hrefused,
    hnotFound.2 (by decide +kernel)⟩

/-- The version after 1400 is taken for a refusal, and the stream waits. -/
theorem unauthorized_by_version :
    IsQuiet "" ∧ "" ++ tooOld 1401 2000 ++ "" = "too old resource version: 1401 (2000)" ∧
      classify "too old resource version: 1401 (2000)" = .unauthorized ∧
      (classify "too old resource version: 1401 (2000)").pauses ∧
      classify "too old resource version: 404 (2000)" = .notFound ∧
      classify "too old resource version: 1400 (2000)" = .expired := by
  decide +kernel

end VaultOperator.Watch.StreamError
