import VaultOperator.Database.Object
import VaultOperator.Proofs.Resource.Equivalence

/-!
# Database connections as Vault shows them

Vault may show a field of a connection among its details, and under another name. Wherever it is
shown, it is found again after flattening (`shows_flattenObserved`).
-/

namespace VaultOperator.Database

open Comparison (Observes Shows)

def details (found : Payload) : Payload :=
  match found.get? detailsKey with
  | some (.obj fields) => Dict.ofList fields
  | _ => ∅

/-- Where something stands, at the top or among the details. -/
def Occurs (found : Payload) (name : String) (value : Json) : Prop :=
  found.get? name = some value ∨ (details found).get? name = some value

/-- What Vault may call a key. -/
def observedNames (key : String) : List String :=
  key :: (observedRenames.filter fun r => r.2 = key).map (·.1)

/-- All that was written occurs under some name, but for what is secret, and with no other value
elsewhere. -/
def ShowsConnection (secret : List String) (written found : Payload) : Prop :=
  ∀ key, key ∉ secret → ∀ value, written.get? key = some value →
    (∃ name ∈ observedNames key, Occurs found name value) ∧
      ∀ name ∈ observedNames key, ∀ other, Occurs found name other → other = value

theorem liftDetails_eq (found : Payload) :
    liftDetails found = (found.erase detailsKey).orElse (details found) := by
  unfold liftDetails details
  cases found.get? detailsKey with
  | none => rfl
  | some value => cases value <;> rfl

theorem get?_liftDetails (found : Payload) (h : key ≠ detailsKey) :
    (liftDetails found).get? key = (found.get? key).or ((details found).get? key) := by
  rw [liftDetails_eq, Dict.get?_orElse, Dict.get?_erase, if_neg h.symm]

theorem get?_rename (p : Payload) (new : String) (h : key ≠ old) :
    (rename p old new).get? key =
      (p.get? key).or (if new = key then p.get? old else none) := by
  unfold rename
  split
  · next value hvalue =>
    rw [Dict.get?_insertIfAbsent, Dict.get?_erase, if_neg h.symm, hvalue]
  · next hnone => simp [hnone]

theorem eq_some_of_occurs {found : Payload} (hkey : name ≠ detailsKey)
    (hsome : Occurs found name value) (hall : ∀ other, Occurs found name other → other = value) :
    (liftDetails found).get? name = some value := by
  rw [get?_liftDetails found hkey]
  cases htop : found.get? name with
  | none =>
    rw [Option.none_or]
    exact hsome.resolve_left (by simp [htop])
  | some other => rw [hall other (.inl htop), Option.some_or]

theorem eq_of_get?_liftDetails {found : Payload} (hkey : name ≠ detailsKey)
    (hall : ∀ other, Occurs found name other → other = value)
    (h : (liftDetails found).get? name = some other) : other = value := by
  rw [get?_liftDetails found hkey, Option.or_eq_some_iff] at h
  exact hall other (h.imp_right And.right)

/-- A key that is written, and neither nests others nor is renamed. -/
def IsWritten (key : String) : Prop :=
  key ≠ detailsKey ∧ ∀ r ∈ observedRenames, key ≠ r.1

theorem get?_flattenObserved {found : Payload} (hkey : IsWritten key)
    (hsome : ∃ name ∈ observedNames key, Occurs found name value)
    (hall : ∀ name ∈ observedNames key, ∀ other, Occurs found name other → other = value) :
    (flattenObserved found).get? key = some value := by
  obtain ⟨hdetails, hrenamed⟩ := hkey
  have hold : key ≠ "root_credentials_rotate_statements" := hrenamed _ List.mem_cons_self
  show (rename (liftDetails found) "root_credentials_rotate_statements"
    "root_rotation_statements").get? key = some value
  rw [get?_rename _ _ hold]
  have hown : ∀ other, Occurs found key other → other = value := hall key List.mem_cons_self
  by_cases hnew : "root_rotation_statements" = key
  · -- what is still under its own name goes before what was renamed
    subst hnew
    rw [if_pos rfl]
    have hrenamed : ∀ other, Occurs found "root_credentials_rotate_statements" other →
        other = value := hall _ (by decide)
    cases htop : (liftDetails found).get? "root_rotation_statements" with
    | some other => rw [eq_of_get?_liftDetails hdetails hown htop, Option.some_or]
    | none =>
      rw [Option.none_or]
      obtain ⟨name, hname, hoccurs⟩ := hsome
      have hname : name = "root_rotation_statements" ∨
          name = "root_credentials_rotate_statements" := by
        simpa [observedNames, observedRenames] using hname
      rcases hname with rfl | rfl
      · rw [eq_some_of_occurs hdetails hoccurs hown] at htop
        cases htop
      · exact eq_some_of_occurs (by decide) hoccurs hrenamed
  · rw [if_neg hnew, Option.or_none]
    obtain ⟨name, hname, hoccurs⟩ := hsome
    have hname : name = key := by simpa [observedNames, observedRenames, hnew] using hname
    subst hname
    exact eq_some_of_occurs hdetails hoccurs hown

theorem shows_flattenObserved {written found : Payload}
    (hkeys : ∀ key value, written.get? key = some value → IsWritten key)
    (h : ShowsConnection secret written found) :
    Shows secret written (flattenObserved found) := by
  intro key value hsecret hvalue
  obtain ⟨hsome, hall⟩ := h key hsecret value hvalue
  exact get?_flattenObserved (hkeys key value hvalue) hsome hall

/-- The fields of a payload are written under names of their own. -/
theorem isWritten_of_payload {d : Database} (h : (payload d v).get? key = some value) :
    IsWritten key := by
  have hkey := Dict.mem_keys_of_get?_ofFields (by simp) h
  simp only [List.map_cons, List.map_nil, List.mem_cons, List.not_mem_nil, or_false] at hkey
  rcases hkey with rfl | rfl | rfl | rfl | rfl | rfl | rfl | rfl | rfl | rfl | rfl <;>
    exact ⟨by decide, by decide⟩

end VaultOperator.Database
