import Mathlib
import VaultOperator.Proofs.Text.Number

/-!
# Texts in small letters

A text in small letters is that of the ASCII letters where there are no others
(`IsLowerCaseOf.eq_of_ascii`), and only then are there ASCII letters alone, but for the letter k
(`IsLowerCaseOf.ascii`).
-/

namespace VaultOperator.Text

theorem toNat_toLower (c : Char) :
    c.toLower.toNat = if 65 ≤ c.toNat ∧ c.toNat ≤ 90 then c.toNat + 32 else c.toNat := by
  have hcapital : c.isUpper ↔ 65 ≤ c.toNat ∧ c.toNat ≤ 90 := by
    simp [Char.isUpper, UInt32.le_iff_toNat_le]
  by_cases hc : 65 ≤ c.toNat ∧ c.toNat ≤ 90
  · have hvalid : (c.toNat + 32).isValidChar := .inl (by omega)
    rw [if_pos hc, Char.toLower_eq_of_isUpper (hcapital.2 hc), Char.toNat_ofNat, if_pos hvalid]
  · rw [if_neg hc, Char.toLower_eq_of_not_isUpper (mt hcapital.1 hc)]

theorem toLower_of_isDecimalDigit {c : Char} (h : isDecimalDigit c) : c.toLower = c := by
  have hc := toNat_of_isDecimalDigit h
  rw [← Char.toNat_inj, toNat_toLower, if_neg (by omega)]

theorem isDecimalDigit_toLower (c : Char) : isDecimalDigit c.toLower = isDecimalDigit c := by
  refine Bool.eq_iff_iff.2 ⟨fun h => ?_, fun h => (toLower_of_isDecimalDigit h).symm ▸ h⟩
  have hsmall := toNat_of_isDecimalDigit h
  rw [toNat_toLower] at hsmall
  have hsame : c.toLower = c := by
    rw [← Char.toNat_inj, toNat_toLower, if_neg]
    intro hcapital
    rw [if_pos hcapital] at hsmall
    omega
  exact hsame ▸ h

/-- The small form of a character. Those of ASCII have a small form there, the Kelvin sign has the
letter k, and the small form of every other character has a character outside ASCII. -/
def IsSmallForm (c : Char) (small : List Char) : Prop :=
  if c.toNat < 128 then small = [c.toLower]
  else if c = '\u212a' then small = ['k']
  else ∃ d ∈ small, 128 ≤ d.toNat

/-- A text in small letters. The small form of a character may depend on those around it. -/
def IsLowerCaseOf (cs small : List Char) : Prop :=
  ∃ forms, List.Forall₂ IsSmallForm cs forms ∧ small = forms.flatten

theorem exists_isSmallForm (c : Char) : ∃ small, IsSmallForm c small := by
  unfold IsSmallForm
  split
  · exact ⟨_, rfl⟩
  · split
    · exact ⟨_, rfl⟩
    · next hc _ => exact ⟨[c], c, List.mem_singleton_self c, by omega⟩

theorem exists_isLowerCaseOf (cs : List Char) : ∃ small, IsLowerCaseOf cs small := by
  choose form hform using exists_isSmallForm
  exact ⟨_, cs.map form, List.forall₂_map_right_iff.2 (List.forall₂_same.2 fun c _ => hform c), rfl⟩

theorem IsLowerCaseOf.eq_of_ascii {cs small : List Char} (h : IsLowerCaseOf cs small)
    (hcs : ∀ c ∈ cs, c.toNat < 128) : small = cs.map Char.toLower := by
  obtain ⟨forms, hforms, rfl⟩ := h
  induction hforms with
  | nil => rfl
  | @cons c small cs forms hsmall _ ih =>
    obtain ⟨hc, hcs⟩ := List.forall_mem_cons.1 hcs
    rw [IsSmallForm, if_pos hc] at hsmall
    rw [List.flatten_cons, ih hcs, hsmall, List.map_cons, List.singleton_append]

theorem IsLowerCaseOf.append {cs cs' small small' : List Char} (h : IsLowerCaseOf cs small)
    (h' : IsLowerCaseOf cs' small') : IsLowerCaseOf (cs ++ cs') (small ++ small') := by
  obtain ⟨forms, hforms, rfl⟩ := h
  obtain ⟨forms', hforms', rfl⟩ := h'
  exact ⟨forms ++ forms', List.rel_append hforms hforms', List.flatten_append.symm⟩

theorem IsLowerCaseOf.of_ascii {cs : List Char} (h : ∀ c ∈ cs, c.toNat < 128) :
    IsLowerCaseOf cs (cs.map Char.toLower) := by
  obtain ⟨small, hsmall⟩ := exists_isLowerCaseOf cs
  exact hsmall.eq_of_ascii h ▸ hsmall

/-- Only a text of ASCII has small letters of ASCII, unless the letter k is among them. -/
theorem IsLowerCaseOf.ascii {cs small : List Char} (h : IsLowerCaseOf cs small)
    (hsmall : ∀ d ∈ small, d.toNat < 128 ∧ d ≠ 'k') : ∀ c ∈ cs, c.toNat < 128 := by
  obtain ⟨forms, hforms, rfl⟩ := h
  induction hforms with
  | nil => simp
  | @cons c small cs forms hform _ ih =>
    rw [List.flatten_cons] at hsmall
    obtain ⟨hfirst, hrest⟩ := List.forall_mem_append.1 hsmall
    refine List.forall_mem_cons.2 ⟨?_, ih hrest⟩
    by_contra hc
    rw [IsSmallForm, if_neg hc] at hform
    split at hform
    · subst hform
      exact (hfirst 'k' (List.mem_singleton_self _)).2 rfl
    · obtain ⟨d, hd, houtside⟩ := hform
      have := (hfirst d hd).1
      omega

end VaultOperator.Text
