import Mathlib.Data.List.Forall2
import VaultOperator.Proofs.Resource.Equivalence

/-!
# What is redacted makes no difference

Dictionaries that are the same but for one key (`Dict.AlikeBut`) are the same once that key is
redacted, and so they compare in the same way with whatever is observed (`isEquivalent_congr`).
-/

namespace VaultOperator

/-- Both have the same keys, with the same values under all of them but one. -/
structure Dict.AlikeBut (key : String) (d d' : Dict α) : Prop where
  others : ∀ other, other ≠ key → d.get? other = d'.get? other
  present : (d.get? key).isSome = (d'.get? key).isSome

namespace Dict

theorem AlikeBut.refl (key : String) (d : Dict α) : AlikeBut key d d :=
  ⟨fun _ _ => rfl, rfl⟩

theorem AlikeBut.insert {d d' : Dict α} (h : AlikeBut key d d')
    (hvalue : name ≠ key → value = value') :
    AlikeBut key (d.insert name value) (d'.insert name value') := by
  refine ⟨fun other hother => ?_, ?_⟩
  · rw [get?_insert, get?_insert, h.others other hother]
    split
    · next hname => rw [hvalue (hname ▸ hother)]
    · rfl
  · rw [get?_insert, get?_insert]
    split
    · rfl
    · exact h.present

/-- Fields of the same name that both have a value or both have none, and the same one unless it is
under the key. -/
def FieldsAlike (key : String) (e e' : String × Option Json) : Prop :=
  e.1 = e'.1 ∧ (e.1 ≠ key → e.2 = e'.2) ∧ e.2.isSome = e'.2.isSome

theorem AlikeBut.insertAll {d d' : Payload} {fields fields' : List (String × Option Json)}
    (hd : AlikeBut key d d') (h : List.Forall₂ (FieldsAlike key) fields fields') :
    AlikeBut key
      ((fields.filterMap fun e => e.2.map (e.1, ·)).foldl (fun d e => d.insert e.1 e.2) d)
      ((fields'.filterMap fun e => e.2.map (e.1, ·)).foldl (fun d e => d.insert e.1 e.2) d') := by
  induction h generalizing d d' with
  | nil => exact hd
  | @cons e e' fields fields' he _ ih =>
    obtain ⟨name, value⟩ := e
    obtain ⟨name', value'⟩ := e'
    obtain ⟨rfl, hvalue, hpresent⟩ := he
    cases value with
    | none =>
      cases value' with
      | none => simpa using ih hd
      | some => cases hpresent
    | some v =>
      cases value' with
      | none => cases hpresent
      | some v' =>
        have hinsert := hd.insert fun hname => Option.some.inj (hvalue hname)
        simpa using ih hinsert

theorem alikeBut_ofFields {fields fields' : List (String × Option Json)}
    (h : List.Forall₂ (FieldsAlike key) fields fields') :
    AlikeBut key (ofFields fields) (ofFields fields') :=
  (AlikeBut.refl key ∅).insertAll h

end Dict

namespace Comparison

theorem redact_eq {p p' : Payload} (h : p.AlikeBut key p') (hkey : key ∈ redacted) :
    redact p redacted = redact p' redacted := by
  refine Dict.ext_get? fun other => ?_
  rw [get?_redact, get?_redact]
  split
  · rfl
  · next hother =>
    refine h.others other fun heq => hother ?_
    rw [heq]
    exact List.contains_iff_mem.2 hkey

theorem isEquivalent_congr {desired desired' observed : Payload}
    (h : desired.AlikeBut key desired') (hkey : key ∈ redacted) (c : Comparison) :
    isEquivalent desired observed redacted c = isEquivalent desired' observed redacted c := by
  cases c <;> simp only [isEquivalent, redact_eq h hkey]

end Comparison

end VaultOperator
