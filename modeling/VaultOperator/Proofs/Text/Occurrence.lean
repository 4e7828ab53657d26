import Mathlib.Algebra.Group.Nat.Defs
import Mathlib.Data.List.Infix
import VaultOperator.Text.Split

/-!
# Where a text occurs

A text that cannot reach across the parts of another occurs in it only within a part
(`infix_append_cons_iff`, `infix_append_iff_of_apart`). The digits of a number occur in those of
another where a quotient of that by a power of ten ends with them (`toDigits_infix_iff`).
-/

namespace VaultOperator.Text

theorem occursIn_iff {needle cs : List Char} : occursIn needle cs ↔ needle <:+: cs := by
  induction cs with
  | nil => simp [occursIn]
  | cons c cs ih => simp [occursIn, ih, List.infix_cons_iff, List.isPrefixOf_iff_prefix]

theorem contains_iff {text needle : String} :
    contains text needle ↔ needle.toList <:+: text.toList :=
  occursIn_iff

-- ---------------------------------------------------------------------------
-- Parts of a text
-- ---------------------------------------------------------------------------

section Parts

variable {l xs ys : List α} {a : α}

theorem not_infix_of_mem (ha : a ∈ l) (hxs : a ∉ xs) : ¬ l <:+: xs :=
  fun h => hxs (h.subset ha)

/-- What lacks an item does not reach across it. -/
theorem infix_append_cons_iff (ha : a ∉ l) : l <:+: xs ++ a :: ys ↔ l <:+: xs ∨ l <:+: ys := by
  have hstart (back : List α) (hback : back <:+ l) : back <+: a :: ys ↔ back = [] := by
    cases back with
    | nil => simp
    | cons b back =>
      have hb : b ≠ a := fun h => ha (hback.subset (h ▸ List.mem_cons_self))
      simp [List.cons_prefix_cons, hb]
  rw [List.infix_append_iff, List.infix_cons_iff, hstart l (List.suffix_refl l)]
  constructor
  · rintro (hxs | (rfl | hys) | ⟨front, back, rfl, hfront, hback⟩)
    · exact .inl hxs
    · exact .inl List.nil_infix
    · exact .inr hys
    · obtain rfl := (hstart back (List.suffix_append ..)).1 hback
      exact .inl ((List.append_nil front).symm ▸ hfront.isInfix)
  · rintro (hxs | hys)
    · exact .inl hxs
    · exact .inr (.inl (.inr hys))

/-- What does not occur in the second part, and does not end with how that begins, occurs only in the
first. -/
theorem infix_append_iff_of_apart (hinside : ¬ l <:+: ys)
    (hacross : ∀ back ∈ l.tails, back <+: ys → back = []) : l <:+: xs ++ ys ↔ l <:+: xs := by
  constructor
  · intro h
    rcases List.infix_append_iff.1 h with hxs | hys | ⟨front, back, rfl, hfront, hback⟩
    · exact hxs
    · exact absurd hys hinside
    · obtain rfl := hacross back ((List.mem_tails ..).2 (List.suffix_append ..)) hback
      exact (List.append_nil front).symm ▸ hfront.isInfix
  · exact fun h => h.trans (List.prefix_append xs ys).isInfix

end Parts

-- ---------------------------------------------------------------------------
-- Digits of a number
-- ---------------------------------------------------------------------------

/-- The digits of a number but for the last. -/
def higherDigits (n : Nat) : List Char :=
  if n < 10 then [] else Nat.toDigits 10 (n / 10)

theorem toDigits_eq_concat (n : Nat) :
    Nat.toDigits 10 n = higherDigits n ++ [(n % 10).digitChar] := by
  rw [Nat.toDigits_eq_if (by decide), higherDigits]
  split
  · next h => rw [Nat.mod_eq_of_lt h, List.nil_append]
  · rfl

theorem digitChar_inj : ∀ a < 10, ∀ b < 10, a.digitChar = b.digitChar → a = b := by decide

/-- The last digits of a number are those of a remainder by a power of ten. -/
theorem toDigits_suffix_iff {m n : Nat} (hm : 0 < m) :
    Nat.toDigits 10 m <:+ Nat.toDigits 10 n ↔ n % 10 ^ (Nat.toDigits 10 m).length = m := by
  -- Both numbers lose their last digit in each step, until there is nothing left of `m`.
  induction m using Nat.strong_induction_on generalizing n with
  | _ m ih =>
    have hlast : (m % 10).digitChar = (n % 10).digitChar ↔ m % 10 = n % 10 :=
      ⟨digitChar_inj _ (Nat.mod_lt m (by decide)) _ (Nat.mod_lt n (by decide)), congrArg _⟩
    have hhigher : higherDigits m <:+ higherDigits n ↔
        n / 10 % 10 ^ (higherDigits m).length = m / 10 := by
      unfold higherDigits
      by_cases hone : m < 10
      · simp [hone, Nat.mod_one, Nat.div_eq_of_lt hone]
      · by_cases hshort : n < 10
        · have hne : m / 10 ≠ 0 := by omega
          simp [hone, hshort, Nat.div_eq_of_lt hshort, Nat.toDigits_ne_nil, hne.symm]
        · simp only [hone, hshort, if_false]
          exact ih (m / 10) (by omega) (by omega)
    have hconcat : higherDigits m ++ [(m % 10).digitChar] <:+
        higherDigits n ++ [(n % 10).digitChar] ↔ _ := List.suffix_append_inj_of_length_eq rfl
    rw [toDigits_eq_concat m, toDigits_eq_concat n, hconcat, hhigher, List.singleton_inj, hlast,
      List.length_append, List.length_singleton, Nat.pow_succ', Nat.mod_mul]
    omega

/-- The digits of a number stand somewhere in another where a quotient of that by a power of ten
ends with them. -/
theorem toDigits_infix_iff {m n : Nat} (hm : 0 < m) : Nat.toDigits 10 m <:+: Nat.toDigits 10 n ↔
    ∃ k, n / 10 ^ k % 10 ^ (Nat.toDigits 10 m).length = m := by
  induction n using Nat.strong_induction_on with
  | _ n ih =>
    rw [← Nat.or_exists_add_one, toDigits_eq_concat n, List.infix_concat_iff,
      ← toDigits_eq_concat n, toDigits_suffix_iff hm, Nat.pow_zero, Nat.div_one]
    refine or_congr_right ?_
    simp only [Nat.pow_succ', ← Nat.div_div_eq_div_mul]
    unfold higherDigits
    split
    · next hone =>
      simp [Nat.div_eq_of_lt hone, Nat.toDigits_ne_nil, Nat.ne_of_lt hm]
    · exact ih (n / 10) (by omega)

end VaultOperator.Text
