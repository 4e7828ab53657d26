import VaultOperator.Proofs.Database.Flatten

/-!
# Nested connections

Vault may nest any of the fields of a connection, and call one of them otherwise. Flattening finds
each field where it stands (`get?_flattenObserved_own`), so whichever fields are nested the payload
comes out as it was written (`flattenObserved_nested`).
-/

namespace VaultOperator

/-- The entries under the keys that are kept. -/
def Dict.restrict (d : Dict α) (keep : String → Bool) : Dict α :=
  ⟨d.entries.filter fun e => keep e.1, d.sorted.filter _⟩

theorem Dict.get?_restrict (d : Dict α) (keep : String → Bool) (key : String) :
    (d.restrict keep).get? key = if keep key then d.get? key else none :=
  lookup_filter keep key d.entries

namespace Database

/-- How the statements that rotate the root credential are called where they are shown. -/
def shownName : String := "root_credentials_rotate_statements"

/-- How they are called where they are written. -/
def writtenName : String := "root_rotation_statements"

/-- A level of what Vault shows, with the statements under the name that Vault may have for them. -/
def named (renamed : Bool) (level : Payload) : Payload :=
  match level.get? writtenName with
  | some value => if renamed then (level.erase writtenName).insert shownName value else level
  | none => level

/-- A payload as Vault may show it: the fields that are `inside` stand among the details. -/
def nested (p : Payload) (inside : String → Bool) (renamed : Bool) : Payload :=
  (named renamed (p.restrict fun key => !inside key)).insert detailsKey
    (Json.ofDict (named renamed (p.restrict inside)))

section
variable {p found : Payload} {key : String}

theorem get?_liftDetails_or (found : Payload) (key : String) :
    (liftDetails found).get? key =
      ((found.erase detailsKey).get? key).or ((details found).get? key) := by
  rw [liftDetails_eq, Dict.get?_orElse]

theorem flattenObserved_eq (found : Payload) :
    flattenObserved found = rename (liftDetails found) shownName writtenName :=
  rfl

theorem get?_rename_old (p : Payload) {old new : String} (h : new ≠ old) :
    (rename p old new).get? old = none := by
  unfold rename
  split
  · rw [Dict.get?_insertIfAbsent, Dict.get?_erase, if_pos rfl, Option.none_or, if_neg h]
  · assumption

theorem get?_flattenObserved_shown (found : Payload) :
    (flattenObserved found).get? shownName = none := by
  rw [flattenObserved_eq, get?_rename_old _ (by decide)]

/-- The name that is written goes before the one that is shown, on whichever level they stand. -/
theorem get?_flattenObserved_written (found : Payload) :
    (flattenObserved found).get? writtenName =
      ((liftDetails found).get? writtenName).or ((liftDetails found).get? shownName) := by
  rw [flattenObserved_eq, get?_rename _ _ (by decide), if_pos rfl]

theorem get?_flattenObserved_own (found : Payload) (hshown : key ≠ shownName)
    (hwritten : key ≠ writtenName) :
    (flattenObserved found).get? key = (liftDetails found).get? key := by
  rw [flattenObserved_eq, get?_rename _ _ hshown, if_neg (Ne.symm hwritten), Option.or_none]

theorem get?_flattenObserved_of_lifted (hkey : key ≠ shownName)
    (h : (liftDetails found).get? key = some value) :
    (flattenObserved found).get? key = some value := by
  by_cases hwritten : key = writtenName
  · subst hwritten
    rw [get?_flattenObserved_written, h, Option.some_or]
  · rw [get?_flattenObserved_own found hkey hwritten, h]

-- ---------------------------------------------------------------------------
-- Levels of a nested payload
-- ---------------------------------------------------------------------------

theorem get?_named (renamed : Bool) {level : Payload} (h : level.get? shownName = none) :
    (named renamed level).get? key =
      if renamed then
        if key = shownName then level.get? writtenName
        else if key = writtenName then none
        else level.get? key
      else level.get? key := by
  unfold named
  cases hvalue : level.get? writtenName with
  | none =>
    by_cases hshown : key = shownName
    · simp [hshown, h]
    · by_cases hwritten : key = writtenName <;> simp [hshown, hwritten, hvalue]
  | some value =>
    cases renamed with
    | false => simp
    | true =>
      simp only [if_true, Dict.get?_insert, Dict.get?_erase, eq_comm (b := key)]

theorem get?_restrict_eq_none (keep : String → Bool) (h : p.get? key = none) :
    (p.restrict keep).get? key = none := by
  rw [Dict.get?_restrict, h, ite_self]

theorem details_nested (p : Payload) (inside : String → Bool) (renamed : Bool) :
    details (nested p inside renamed) = named renamed (p.restrict inside) := by
  simp [details, nested, Dict.get?_insert, Json.ofDict]

/-- Of the two levels one has what the payload has. -/
theorem or_restrict (p : Payload) (inside : String → Bool) (key : String) :
    ((p.restrict fun key => !inside key).get? key).or ((p.restrict inside).get? key) =
      p.get? key := by
  rw [Dict.get?_restrict, Dict.get?_restrict]
  cases inside key <;> simp

/-- Nesting moves fields between the levels and nothing else. -/
theorem get?_liftDetails_nested (inside : String → Bool) (renamed : Bool)
    (hdetails : p.get? detailsKey = none) (hshown : p.get? shownName = none) (key : String) :
    (liftDetails (nested p inside renamed)).get? key = (named renamed p).get? key := by
  have hlevel (keep : String → Bool) : (p.restrict keep).get? shownName = none :=
    get?_restrict_eq_none keep hshown
  have htop : ((nested p inside renamed).erase detailsKey).get? key =
      (named renamed (p.restrict fun key => !inside key)).get? key := by
    rw [Dict.get?_erase]
    split
    · next hkey =>
      subst hkey
      have hshown : detailsKey ≠ shownName := by decide
      have hwritten : detailsKey ≠ writtenName := by decide
      rw [get?_named _ (hlevel _), if_neg hshown, if_neg hwritten, ite_self,
        get?_restrict_eq_none _ hdetails]
    · next hkey => rw [nested, Dict.get?_insert, if_neg hkey]
  rw [get?_liftDetails_or, htop, details_nested, get?_named _ (hlevel _),
    get?_named _ (hlevel _), get?_named _ hshown]
  cases renamed with
  | false => exact or_restrict p inside key
  | true =>
    simp only [if_true]
    split
    · exact or_restrict p inside writtenName
    · split
      · rfl
      · exact or_restrict p inside key

theorem get?_liftDetails_named (renamed : Bool) (hdetails : p.get? detailsKey = none)
    (hshown : p.get? shownName = none) (key : String) :
    (liftDetails (named renamed p)).get? key = (named renamed p).get? key := by
  have hnone : (named renamed p).get? detailsKey = none := by
    have hother : detailsKey ≠ shownName ∧ detailsKey ≠ writtenName := by decide
    rw [get?_named _ hshown, if_neg hother.1, if_neg hother.2, ite_self, hdetails]
  have hempty : details (named renamed p) = ∅ := by rw [details, hnone]
  rw [get?_liftDetails_or, hempty, Dict.get?_empty, Option.or_none, Dict.get?_erase]
  split
  · next hkey => rw [← hkey, hnone]
  · rfl

theorem flatten_of_lifted {renamed : Bool} (hshown : p.get? shownName = none)
    (h : ∀ key, (liftDetails found).get? key = (named renamed p).get? key) :
    flattenObserved found = p := by
  refine Dict.ext_get? fun key => ?_
  by_cases hkey : key = shownName
  · rw [hkey, get?_flattenObserved_shown, hshown]
  · by_cases hwritten : key = writtenName
    · subst hwritten
      rw [get?_flattenObserved_written, h, h, get?_named _ hshown, get?_named _ hshown]
      cases renamed <;> simp [hkey, hshown]
    · rw [get?_flattenObserved_own _ hkey hwritten, h, get?_named _ hshown, if_neg hkey,
        if_neg hwritten, ite_self]

end

/-- Whichever fields are nested, and however the statements are called, what was written comes out.
Of two values for one field the one at the top counts, and one under the name that is written goes
before all under the other name; no other field makes a difference. -/
theorem flattenObserved_nested :
    (∀ (p : Payload) (inside : String → Bool) (renamed : Bool),
      p.get? detailsKey = none → p.get? shownName = none →
        flattenObserved (nested p inside renamed) = p ∧
          flattenObserved (named renamed p) = p) ∧
    ∀ found : Payload,
      (∀ key value, key ≠ shownName → (found.erase detailsKey).get? key = some value →
        (flattenObserved found).get? key = some value) ∧
      (∀ key value, key ≠ shownName → (found.erase detailsKey).get? key = none →
        (details found).get? key = some value → (flattenObserved found).get? key = some value) ∧
      (∀ key, key ≠ writtenName → (found.erase detailsKey).get? key = none →
        (details found).get? key = none → (flattenObserved found).get? key = none) ∧
      ((found.erase detailsKey).get? writtenName = none → (details found).get? writtenName = none →
        (flattenObserved found).get? writtenName =
          ((found.erase detailsKey).get? shownName).or ((details found).get? shownName)) ∧
      (flattenObserved found).get? shownName = none := by
  refine ⟨fun p inside renamed hdetails hshown => ⟨?_, ?_⟩, fun found => ?_⟩
  · exact flatten_of_lifted hshown (get?_liftDetails_nested inside renamed hdetails hshown)
  · exact flatten_of_lifted hshown (get?_liftDetails_named renamed hdetails hshown)
  · refine ⟨fun key value hkey htop => ?_, fun key value hkey htop hinner => ?_,
      fun key hkey htop hinner => ?_, fun htop hinner => ?_, get?_flattenObserved_shown found⟩
    · exact get?_flattenObserved_of_lifted hkey (by rw [get?_liftDetails_or, htop, Option.some_or])
    · exact get?_flattenObserved_of_lifted hkey
        (by rw [get?_liftDetails_or, htop, Option.none_or, hinner])
    · by_cases hshown : key = shownName
      · rw [hshown, get?_flattenObserved_shown]
      · rw [get?_flattenObserved_own found hshown hkey, get?_liftDetails_or, htop, hinner,
          Option.none_or]
    · rw [get?_flattenObserved_written, get?_liftDetails_or, get?_liftDetails_or, htop, hinner,
        Option.none_or, Option.none_or]

/-- A connection whose user and statements Vault shows among the details, the latter under its own
name for them. -/
def rotated : Payload :=
  Dict.ofList [("allowed_roles", .ofStrings ["orders-rw"]), ("plugin_name", .str "postgresql"),
    (writtenName, .ofStrings ["ALTER USER"]), ("username", .str "admin")]

theorem flattenObserved_nested_rotated :
    rotated.get? detailsKey = none ∧ rotated.get? shownName = none ∧
      (details (nested rotated ([writtenName, "username"].contains ·) true)).keys =
        [shownName, "username"] ∧
      flattenObserved (nested rotated ([writtenName, "username"].contains ·) true) = rotated := by
  have hdetails : rotated.get? detailsKey = none := by decide
  have hshown : rotated.get? shownName = none := by decide
  exact ⟨hdetails, hshown, by decide, (flattenObserved_nested.1 rotated _ true hdetails hshown).1⟩

end Database

end VaultOperator
