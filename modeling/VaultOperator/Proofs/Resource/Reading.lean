import VaultOperator.Object
import VaultOperator.Proofs.Json.Reader

/-!
# Reading objects

An object that is stored as JSON is read from its three fields, each by itself
(`Resource.ofJson?_obj`), and its finalizers are those that stand in its metadata
(`Object.finalizers_eq`).
-/

namespace VaultOperator

open Json

theorem Resource.ofJson?_obj {spec? : Json → Option σ} {status? : Json → Option τ}
    {fields : List (String × Json)} {r : Resource σ τ}
    (h : Resource.ofJson? spec? status? (.obj fields) = some r) :
    readField none Metadata.ofJson? ((Json.obj fields).get? "metadata") = some r.metadata ∧
      readField none spec? ((Json.obj fields).get? "spec") = some r.spec ∧
      readField (some none) (nullable status?) ((Json.obj fields).get? "status") =
        some r.status := by
  obtain ⟨⟨r, rest⟩, hreader, rfl⟩ := Option.map_eq_some_iff.1 h
  simp only [required, Json.optional, field_bind_eq_some] at hreader
  obtain ⟨metadata, hmetadata, spec, hspec, status, hstatus, hdone⟩ := hreader
  cases hdone
  exact ⟨hmetadata, hspec, hstatus⟩

theorem Object.metadata_of_ofJson? {k : Kind} {fields : List (String × Json)} {o : Object}
    (h : Object.ofJson? k (.obj fields) = some o) :
    readField none Metadata.ofJson? ((Json.obj fields).get? "metadata") = some o.metadata := by
  cases k <;> obtain ⟨r, hr, rfl⟩ := Option.map_eq_some_iff.1 h <;>
    exact (Resource.ofJson?_obj hr).1

-- ---------------------------------------------------------------------------
-- Finalizers
-- ---------------------------------------------------------------------------

/-- The finalizers that stand in an object's metadata. -/
def metadataFinalizers (metadata : Json) : List String :=
  ((metadata.get? "finalizers").bind (listOf str?)).getD []

def storedFinalizers (stored : Json) : List String :=
  ((stored.get? "metadata").map metadataFinalizers).getD []

theorem Metadata.finalizers_eq {m : Metadata} (h : Metadata.ofJson? metadata = some m) :
    m.finalizers = metadataFinalizers metadata := by
  cases metadata with
  | obj fields =>
    obtain ⟨⟨m, rest⟩, hreader, rfl⟩ := Option.map_eq_some_iff.1 h
    simp only [reader, Json.optional, field_bind_eq_some] at hreader
    obtain ⟨_, -, _, -, _, -, _, -, _, -, finalizers, hfinalizers, _, -, hdone⟩ := hreader
    cases hdone
    exact congrArg (·.getD []) (bind_of_optional rfl hfinalizers).symm
  | _ => cases h

theorem Object.finalizers_eq {k : Kind} {fields : List (String × Json)} {o : Object}
    (h : Object.ofJson? k (.obj fields) = some o) :
    o.metadata.finalizers = storedFinalizers (.obj fields) := by
  have hread := metadata_of_ofJson? h
  unfold storedFinalizers
  cases hstored : (Json.obj fields).get? "metadata" with
  | none =>
    rw [hstored] at hread
    cases hread
  | some metadata =>
    rw [hstored] at hread
    exact Metadata.finalizers_eq hread

end VaultOperator
