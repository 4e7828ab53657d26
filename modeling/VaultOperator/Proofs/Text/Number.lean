import Mathlib.Data.Nat.Notation
import VaultOperator.Text.Digit

/-!
# Numbers as they are read

Digits are read as the number that they are in the decimal system, as far as there is room for it
(`readDigits_eq_ok_iff`, `readUnsigned_eq_ok_iff`).
-/

namespace VaultOperator.Text

theorem isDigit_iff {c : Char} : c.isDigit ↔ '0' ≤ c ∧ c ≤ '9' := by
  simp [Char.isDigit, Char.le_def, UInt32.le_iff_toNat_le]

theorem digit?_eq_some_iff {c : Char} {d : Nat} :
    digit? c = some d ↔ c.isDigit ∧ c.toNat - '0'.toNat = d := by
  rw [isDigit_iff, digit?]
  by_cases hc : '0' ≤ c ∧ c ≤ '9' <;> simp [hc]

theorem digit?_of_isDigit {c : Char} (h : c.isDigit) : digit? c = some (c.toNat - '0'.toNat) :=
  digit?_eq_some_iff.2 ⟨h, rfl⟩

theorem isDecimalDigit_of_isDigit {c : Char} (h : c.isDigit) : isDecimalDigit c := by
  obtain ⟨hlow, hhigh⟩ := isDigit_iff.1 h
  refine List.any_eq_true.2 ⟨0x30, by decide, ?_⟩
  have hle (a b : Char) : a ≤ b ↔ a.toNat ≤ b.toNat := UInt32.le_iff_toNat_le
  rw [hle] at hlow hhigh
  simp only [Char.reduceToNat] at hlow hhigh
  simp only [Bool.and_eq_true, decide_eq_true_eq]
  omega

/-- No digit of any script is one of the ASCII letters, nor a sign. -/
theorem toNat_of_isDecimalDigit {c : Char} (h : isDecimalDigit c) :
    48 ≤ c.toNat ∧ (c.toNat ≤ 57 ∨ 128 ≤ c.toNat) := by
  obtain ⟨first, hfirst, hc⟩ := List.any_eq_true.1 h
  have hgap : ∀ first ∈ decimalZeros, first = 48 ∨ 128 ≤ first := by decide
  simp only [Bool.and_eq_true, decide_eq_true_eq] at hc
  have := hgap first hfirst
  omega

theorem le_ofDigitChars (cs : List Char) (value : Nat) : value ≤ Nat.ofDigitChars 10 cs value := by
  induction cs generalizing value with
  | nil => exact Nat.le_refl value
  | cons c cs ih =>
    rw [Nat.ofDigitChars_cons]
    have hrest := ih (10 * value + (c.toNat - '0'.toNat))
    omega

theorem readDigits_eq_ok_iff {limit value n : Nat} (hvalue : value ≤ limit) {cs : List Char} :
    readDigits limit past value cs = .ok n ↔
      (∀ c ∈ cs, c.isDigit) ∧ n = Nat.ofDigitChars 10 cs value ∧ n ≤ limit := by
  induction cs generalizing value with
  | nil =>
    simp only [readDigits, Except.ok.injEq, List.not_mem_nil, false_implies, implies_true, true_and,
      Nat.ofDigitChars_nil]
    omega
  | cons c cs ih =>
    by_cases hc : c.isDigit
    · have hstep : value * 10 + (c.toNat - '0'.toNat) = 10 * value + (c.toNat - '0'.toNat) := by
        omega
      simp only [readDigits, digit?_of_isDigit hc, hstep, Nat.ofDigitChars_cons,
        List.forall_mem_cons, hc, true_and]
      split
      · next hroom => exact ih hroom
      · next hfull =>
        have hrest := le_ofDigitChars cs (10 * value + (c.toNat - '0'.toNat))
        simp only [reduceCtorEq, false_iff]
        omega
    · have hnone : digit? c = none :=
        Option.eq_none_iff_forall_ne_some.2 fun d hd => hc (digit?_eq_some_iff.1 hd).1
      simp [readDigits, hnone, hc]

theorem readUnsigned_eq_ok_iff {high n : Nat} {cs : List Char} (hne : cs ≠ [])
    (hsign : '+' ∉ cs) : readUnsigned high cs = .ok n ↔
      (∀ c ∈ cs, c.isDigit) ∧ n = Nat.ofDigitChars 10 cs 0 ∧ n ≤ high := by
  have hdigits : readDigits high .tooLarge 0 cs = .ok n ↔ _ :=
    readDigits_eq_ok_iff (Nat.zero_le high)
  rw [← hdigits]
  cases cs with
  | nil => exact absurd rfl hne
  | cons c cs =>
    have hc : c ≠ '+' := fun h => hsign (h ▸ List.mem_cons_self)
    unfold readUnsigned
    split <;> simp_all

theorem readUnsigned_toString {high n : Nat} (h : n ≤ high) :
    readUnsigned high (toString n).toList = .ok n := by
  have htext : (toString n).toList = Nat.toDigits 10 n := Nat.toList_repr
  have hdigits : ∀ c ∈ Nat.toDigits 10 n, c.isDigit := fun c hc =>
    Nat.isDigit_of_mem_toDigits (by decide) (by decide) hc
  have hsign : '+' ∉ Nat.toDigits 10 n := fun hmem => by
    have hplus := hdigits _ hmem
    cases hplus
  have hvalue : n = Nat.ofDigitChars 10 (Nat.toDigits 10 n) 0 :=
    (Nat.ofDigitChars_toDigits (by decide) (by decide)).symm
  rw [htext, readUnsigned_eq_ok_iff Nat.toDigits_ne_nil hsign]
  exact ⟨hdigits, hvalue, h⟩

end VaultOperator.Text
