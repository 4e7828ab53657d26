import VaultOperator.Proofs.Json.Dict
import VaultOperator.Resource.Equivalence

/-!
# When payloads are equivalent

What is observed is equivalent to what is desired if it has all of it that Vault shows and that is
compared, whatever else it has.
-/

namespace VaultOperator

namespace Json

mutual

theorem same_refl : ∀ j : Json, j.same j
  | .null => rfl
  | .bool b => by simp [same]
  | .int i => by simp [same]
  | .float x => by simp [same, Double.same]
  | .str s => by simp [same]
  | .arr items => by simpa [same] using sameItems_refl items
  | .obj fields => by simpa [same] using sameFields_refl fields

theorem sameItems_refl : ∀ items : List Json, sameItems items items
  | [] => rfl
  | item :: items => by simp [sameItems, same_refl item, sameItems_refl items]

theorem sameFields_refl : ∀ fields : List (String × Json), sameFields fields fields
  | [] => rfl
  | (key, value) :: fields => by simp [sameFields, same_refl value, sameFields_refl fields]

end

end Json

namespace Dict

theorem lookup_of_mem {l : List (String × α)} (h : (l.map (·.1)).Nodup) (he : e ∈ l) :
    lookup e.1 l = some e.2 := by
  induction l with
  | nil => cases he
  | cons head l ih =>
    obtain ⟨hhead, hl⟩ := List.nodup_cons.1 h
    rw [lookup]
    rcases List.mem_cons.1 he with rfl | he
    · rw [if_pos rfl]
    · have hne : head.1 ≠ e.1 := fun hkey => hhead (List.mem_map.2 ⟨e, he, hkey.symm⟩)
      rw [if_neg hne, ih hl he]

theorem get?_of_mem (d : Dict α) (he : e ∈ d.entries) : d.get? e.1 = some e.2 :=
  lookup_of_mem d.nodup_keys he

theorem lookup_filter (keep : String → Bool) (key : String) (l : List (String × α)) :
    lookup key (l.filter fun e => keep e.1) = if keep key then lookup key l else none := by
  induction l with
  | nil => simp [lookup]
  | cons head l ih =>
    rw [List.filter_cons, lookup]
    by_cases hkey : head.1 = key
    · subst hkey
      by_cases hkeep : keep head.1
      · simp [hkeep, lookup]
      · simpa [hkeep] using ih
    · by_cases hkeep : keep head.1
      · simp [hkeep, lookup, hkey, ih]
      · simp [hkeep, hkey, ih]

end Dict

namespace Comparison

theorem get?_redact (p : Payload) (redacted : List String) (key : String) :
    (redact p redacted).get? key = if redacted.contains key then none else p.get? key := by
  show Dict.lookup key (p.entries.filter fun e => !redacted.contains e.1) = _
  rw [Dict.lookup_filter fun key => !redacted.contains key]
  cases redacted.contains key <;> rfl

theorem holds_of_get? {observed : Payload} (h : observed.get? key = some value) :
    holds observed key value := by
  rw [holds, h]
  exact value.same_refl

variable {desired observed : Payload} {redacted : List String}

/-- What is desired under a key and shown by Vault is observed. -/
def Observes (redacted : List String) (desired observed : Payload) (key : String) : Prop :=
  ∀ value, key ∉ redacted → desired.get? key = some value → observed.get? key = some value

/-- All that was written is found, but for what is secret. -/
def Shows (secret : List String) (written found : Payload) : Prop :=
  ∀ key, Observes secret written found key

theorem holds_redact (h : Observes redacted desired observed key)
    (hvalue : (redact desired redacted).get? key = some value) :
    holds (redact observed redacted) key value := by
  rw [get?_redact] at hvalue
  split at hvalue
  · cases hvalue
  · next hkey =>
    refine holds_of_get? ?_
    rw [get?_redact, if_neg hkey]
    exact h value (by simpa using hkey) hvalue

theorem isEquivalent_desiredKeys (h : Shows redacted desired observed) :
    isEquivalent desired observed redacted .desiredKeys := by
  refine List.all_eq_true.2 fun e he => ?_
  exact holds_redact (h e.1) (Dict.get?_of_mem _ he)

theorem isEquivalent_keys {listed : List String}
    (h : ∀ key ∈ listed, Observes redacted desired observed key) :
    isEquivalent desired observed redacted (.keys listed) := by
  refine List.all_eq_true.2 fun key hkey => ?_
  split
  · next hvalue => exact holds_redact (h key hkey) hvalue
  · rfl

end Comparison

end VaultOperator
