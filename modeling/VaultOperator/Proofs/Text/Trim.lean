import Mathlib.Data.List.DropRight
import VaultOperator.Text.Blank

/-!
# Trimming by white space

The blanks are the characters with the property White_Space (`isBlank_iff`), and trimming a text
leaves the one part of it that begins and ends with other characters while all that stands around it
is white space (`trimsTo_iff`).
-/

namespace VaultOperator.Text

/-- The code points with the property White_Space, as ranges. -/
def whiteSpace : List (Nat × Nat) :=
  [(0x0009, 0x000d), (0x0020, 0x0020), (0x0085, 0x0085), (0x00a0, 0x00a0), (0x1680, 0x1680),
   (0x2000, 0x200a), (0x2028, 0x2029), (0x202f, 0x202f), (0x205f, 0x205f), (0x3000, 0x3000)]

def IsWhiteSpace (c : Char) : Prop :=
  ∃ range ∈ whiteSpace, range.1 ≤ c.toNat ∧ c.toNat ≤ range.2

theorem IsWhiteSpace.toNat {c : Char} (h : IsWhiteSpace c) : c.toNat ≤ 0x20 ∨ 0x80 ≤ c.toNat := by
  obtain ⟨range, hrange, hc⟩ := h
  have htable : ∀ range ∈ whiteSpace, range.2 ≤ 0x20 ∨ 0x80 ≤ range.1 := by decide
  have := htable range hrange
  omega

theorem isBlank_iff {c : Char} : isBlank c ↔ IsWhiteSpace c := by
  have hle (a b : Char) : a ≤ b ↔ a.toNat ≤ b.toNat := UInt32.le_iff_toNat_le
  simp only [isBlank, IsWhiteSpace, whiteSpace, Bool.or_eq_true, Bool.and_eq_true,
    decide_eq_true_eq, beq_iff_eq, ← Char.toNat_inj, hle, List.mem_cons, List.not_mem_nil, or_false,
    exists_eq_or_imp, exists_eq_left]
  simp only [Char.reduceToNat]
  omega

theorem trimChars_eq_rdropWhile (cs : List Char) :
    trimChars cs = (cs.dropWhile isBlank).rdropWhile isBlank := rfl

theorem mem_of_mem_trimChars {c : Char} {cs : List Char} (h : c ∈ trimChars cs) : c ∈ cs := by
  rw [trimChars_eq_rdropWhile] at h
  exact List.dropWhile_subset _ ((List.rdropWhile_prefix _ _).subset h)

/-- `core` is what white space stands around in the text, and does not begin or end with some. -/
structure TrimsTo (cs core : List Char) : Prop where
  surrounded : ∃ before after, cs = before ++ (core ++ after) ∧ (∀ c ∈ before, IsWhiteSpace c) ∧
    ∀ c ∈ after, IsWhiteSpace c
  first : ∀ c ∈ core.head?, ¬ IsWhiteSpace c
  last : ∀ c ∈ core.getLast?, ¬ IsWhiteSpace c

theorem head?_trimChars (cs : List Char) : ∀ c ∈ (trimChars cs).head?, ¬ isBlank c := by
  intro c hc
  have hdropped := List.head?_dropWhile_not isBlank cs
  obtain ⟨rest, hrest⟩ := List.rdropWhile_prefix isBlank (cs.dropWhile isBlank)
  rw [← trimChars_eq_rdropWhile] at hrest
  cases ht : trimChars cs with
  | nil => simp [ht] at hc
  | cons d core =>
    rw [ht] at hc hrest
    obtain rfl : d = c := by simpa using hc
    rw [← hrest] at hdropped
    simpa using hdropped

theorem getLast?_trimChars (cs : List Char) : ∀ c ∈ (trimChars cs).getLast?, ¬ isBlank c := by
  intro c hc
  obtain ⟨hne, rfl⟩ := List.mem_getLast?_eq_getLast hc
  exact List.rdropWhile_last_not isBlank _ hne

theorem trimsTo_trimChars (cs : List Char) : TrimsTo cs (trimChars cs) where
  surrounded := by
    have hends := List.takeWhile_append_dropWhile (p := isBlank)
      (l := (cs.dropWhile isBlank).reverse)
    refine ⟨cs.takeWhile isBlank, ((cs.dropWhile isBlank).reverse.takeWhile isBlank).reverse,
      ?_, fun c hc => ?_, fun c hc => ?_⟩
    · rw [trimChars, ← List.reverse_append, hends, List.reverse_reverse,
        List.takeWhile_append_dropWhile]
    · exact isBlank_iff.1 (List.mem_takeWhile_imp hc)
    · exact isBlank_iff.1 (List.mem_takeWhile_imp (List.mem_reverse.1 hc))
  first := fun c hc => mt isBlank_iff.2 (head?_trimChars cs c hc)
  last := fun c hc => mt isBlank_iff.2 (getLast?_trimChars cs c hc)

theorem dropWhile_blanks {before cs : List Char} (h : ∀ c ∈ before, isBlank c)
    (hfirst : ∀ c ∈ cs.head?, ¬ isBlank c) : (before ++ cs).dropWhile isBlank = cs := by
  rw [List.dropWhile_append_of_pos h]
  cases cs with
  | nil => rfl
  | cons c rest => exact List.dropWhile_cons_of_neg (hfirst c rfl)

theorem trimsTo_iff {cs core : List Char} : TrimsTo cs core ↔ core = trimChars cs := by
  refine ⟨fun h => ?_, fun h => h ▸ trimsTo_trimChars cs⟩
  obtain ⟨before, after, rfl, hbefore, hafter⟩ := h.surrounded
  replace hbefore : ∀ c ∈ before, isBlank c := fun c hc => isBlank_iff.2 (hbefore c hc)
  replace hafter : ∀ c ∈ after, isBlank c := fun c hc => isBlank_iff.2 (hafter c hc)
  by_cases hcore : core = []
  · subst hcore
    refine ((trimChars_eq_nil_iff _).2 (List.all_eq_true.2 fun c hc => ?_)).symm
    rcases List.mem_append.1 hc with hc | hc
    · exact hbefore c hc
    · exact hafter c hc
  · have hfirst : ∀ c ∈ (core ++ after).head?, ¬ isBlank c := by
      rw [List.head?_append_of_ne_nil _ hcore]
      exact fun c hc => mt isBlank_iff.1 (h.first c hc)
    have hlast : ∀ c ∈ core.reverse.head?, ¬ isBlank c := by
      rw [List.head?_reverse]
      exact fun c hc => mt isBlank_iff.1 (h.last c hc)
    rw [trimChars, dropWhile_blanks hbefore hfirst, List.reverse_append,
      dropWhile_blanks (fun c hc => hafter c (List.mem_reverse.1 hc)) hlast, List.reverse_reverse]

theorem trimChars_eq_self {cs : List Char} (hfirst : ∀ c ∈ cs.head?, ¬ IsWhiteSpace c)
    (hlast : ∀ c ∈ cs.getLast?, ¬ IsWhiteSpace c) : trimChars cs = cs :=
  (trimsTo_iff.1 ⟨⟨[], [], by simp, by simp, by simp⟩, hfirst, hlast⟩).symm

theorem trimChars_trimChars (cs : List Char) : trimChars (trimChars cs) = trimChars cs :=
  trimChars_eq_self (trimsTo_trimChars cs).first (trimsTo_trimChars cs).last

end VaultOperator.Text
